import Mathlib
import OsScanner.Storage.PolicyCache

/-!
# The policies of the orchestrator

How `ScannerOrchestrator` chooses its policies: at start-up from the local file and the cached
documents, later from the assignments of the cloud. What a document says and how it is loaded
is not looked at here; only its identity and its canonical form matter.
-/

namespace OsScanner.Endpoint

open Lib Lib.Check Storage

/-! ## Bundles -/

/-- A validated policy: its identity and its canonical document. -/
structure PolicyLibrary (Bundle : Type) where
  policyId : Bundle → String
  policyVersion : Bundle → String
  /-- `canonical_policy_document(bundle)` -/
  document : Bundle → JsonObject

variable {Bundle : Type}

namespace PolicyLibrary

variable (lib : PolicyLibrary Bundle)

def identity (bundle : Bundle) : PolicyIdentity := (lib.policyId bundle, lib.policyVersion bundle)

/-- `_policy_checksum(bundle)` -/
def checksum (rt : Runtime) (bundle : Bundle) : String :=
  Json.canonicalSha256 rt (.obj (lib.document bundle))

end PolicyLibrary

/-- `PolicyLoader.load_document`, absent where it raises. -/
abbrev DocumentLoader (Bundle : Type) := JsonObject → Option Bundle

/-- The policies of a running orchestrator: the active one, and those that jobs can name. -/
structure Orchestrator (Bundle : Type) where
  policy : Bundle
  policies : Dict PolicyIdentity Bundle

/-- `resolve_policy(job)` for a job that names this policy, and perhaps a version. -/
def Orchestrator.resolvePolicy (lib : PolicyLibrary Bundle) (self : Orchestrator Bundle)
    (policyId : String) (policyVersion : Option String) : Option Bundle :=
  match policyVersion with
  | some version => self.policies.get? (policyId, version)
  | none => if policyId = lib.policyId self.policy then some self.policy else none

/-! ## Start-up -/

section

variable (rt : Runtime) (lib : PolicyLibrary Bundle)

/--
The bundle of a cached document that is accepted, and whether its row is rewritten in the
canonical form first.
-/
def revalidate (load : DocumentLoader Bundle) (cached : ListedPolicy) : Option (Bundle × Bool) :=
  match load cached.document with
  | none => none
  | some bundle =>
    if lib.identity bundle ≠ cached.identity then none
    else if lib.checksum rt bundle = cached.checksum then some (bundle, false)
    else if Json.canonicalSha256 rt (.obj cached.document) = cached.checksum then some (bundle, true)
    else none

/-- What the loop over the cached documents collects. -/
structure Restored (Bundle : Type) where
  registered : List Bundle
  policy : Bundle
  source : PolicySource

/-- A document that is accepted; an active one becomes the policy. -/
def Restored.add (acc : Restored Bundle) (cached : ListedPolicy) (bundle : Bundle) :
    Restored Bundle where
  registered := acc.registered ++ [bundle]
  policy := if cached.active then bundle else acc.policy
  source := if cached.active then cached.source else acc.source

/-- `storage.migrate_policy_document_canonicalization(…)` with its `except`: is the row kept? -/
def migrateCached (bundle : Bundle) (cached : ListedPolicy) : PolicyMethod Bool :=
  .rescue (do
      migratePolicyDocument rt (lib.policyId bundle) (lib.policyVersion bundle) cached.checksum
        (lib.checksum rt bundle) (lib.document bundle)
      pure true)
    fun e => if e.kind = .valueError ∨ e.kind = .typeError then pure false else .raise e

/-- One cached document, accepted or rejected. -/
def restoreOne (load : DocumentLoader Bundle) (cached : ListedPolicy) (acc : Restored Bundle) :
    PolicyMethod (Restored Bundle) :=
  match revalidate rt lib load cached with
  | none => pure acc
  | some (bundle, migrates) => do
    let kept ← if migrates then migrateCached rt lib bundle cached else pure true
    pure (if kept then acc.add cached bundle else acc)

/-- The loop over the cached documents. Under a cloud assignment the others are passed over. -/
def restoreAll (load : DocumentLoader Bundle) (cloudAssignmentActive : Bool) :
    List ListedPolicy → Restored Bundle → PolicyMethod (Restored Bundle)
  | [], acc => pure acc
  | cached :: rest, acc =>
    if cloudAssignmentActive = true ∧ (cached.source ≠ .cloud ∨ cached.assigned = false) then
      restoreAll load cloudAssignmentActive rest acc
    else do
      let acc ← restoreOne rt lib load cached acc
      restoreAll load cloudAssignmentActive rest acc

/-- `{(bundle.policy_id, bundle.policy_version): bundle for bundle in bundles}` -/
def byIdentity (bundles : List Bundle) : Dict PolicyIdentity Bundle :=
  Dict.setAll lib.identity id bundles ∅

/-- The transaction of `__init__`: the policy is cached, and is the active one. -/
def activateInitial (now : String) (policy : Bundle) (source : PolicySource)
    (existing : Option ListedPolicy) : PolicyMethod Unit :=
  .transaction <| match existing with
    | none => cachePolicyDocument rt now (lib.policyId policy) (lib.policyVersion policy)
        (lib.checksum rt policy) (lib.document policy) source true
    | some item => do
      .ofExcept (raiseIf (item.checksum ≠ lib.checksum rt policy)
        ⟨.valueError, "active cached policy checksum conflicts with validated policy content"⟩)
      activatePolicyDocument now (lib.policyId policy) (lib.policyVersion policy)

/-- `ScannerOrchestrator(settings, storage, policy, registered_policies=…, …)` -/
def initOrchestrator (now : String) (restored : Restored Bundle) :
    PolicyMethod (Orchestrator Bundle) := do
  let cached ← listPolicyDocuments 10000
  let existing := cached.find? fun item => decide (item.identity = lib.identity restored.policy)
  activateInitial rt lib now restored.policy restored.source existing
  pure
    { policy := restored.policy
      policies := byIdentity lib (restored.registered ++ [restored.policy]) }

/-- `_from_loaded_settings(settings, storage, loader, local_policy)` -/
def fromLoadedSettings (load : DocumentLoader Bundle) (now : String) (localPolicy : Bundle) :
    PolicyMethod (Orchestrator Bundle) := do
  let cachedDocuments ← listPolicyDocuments 10000
  let cloudAssignmentActive := cachedDocuments.any fun cached =>
    cached.active && decide (cached.source = .cloud)
  let restored ← restoreAll rt lib load cloudAssignmentActive cachedDocuments
    { registered := if cloudAssignmentActive then [] else [localPolicy]
      policy := localPolicy
      source := .localFile }
  let registered := if restored.registered.isEmpty then [localPolicy] else restored.registered
  initOrchestrator rt lib now { restored with registered }

end

/-! ## The loop over the cached documents -/

section

variable {rt : Runtime} {lib : PolicyLibrary Bundle} {load : DocumentLoader Bundle}

/-- What the loop makes of one document. -/
def restoredBy (rt : Runtime) (lib : PolicyLibrary Bundle) (load : DocumentLoader Bundle)
    (cloudAssignmentActive : Bool) (acc : Restored Bundle) (cached : ListedPolicy) :
    Restored Bundle :=
  if cloudAssignmentActive = true ∧ (cached.source ≠ .cloud ∨ cached.assigned = false) then acc
  else match revalidate rt lib load cached with
    | none => acc
    | some (bundle, _) => acc.add cached bundle

/-- The caches differ in how documents are written only. -/
def SameRows (cache cache' : PolicyCache) : Prop :=
  ∀ identity, (cache'.get? identity).map (fun row => (row.source, row.active, row.assigned)) =
    (cache.get? identity).map fun row => (row.source, row.active, row.assigned)

theorem revalidate_eq_some {cached : ListedPolicy} {bundle : Bundle} {migrates : Bool}
    (h : revalidate rt lib load cached = some (bundle, migrates)) :
    load cached.document = some bundle ∧ lib.identity bundle = cached.identity ∧
      (lib.checksum rt bundle = cached.checksum ∨
        Json.canonicalSha256 rt (.obj cached.document) = cached.checksum) := by
  unfold revalidate at h
  split at h
  · cases h
  · next loaded hload =>
    split at h
    · cases h
    · next hidentity =>
      split at h
      · next hchecksum =>
        cases h
        exact ⟨hload, not_not.mp hidentity, Or.inl hchecksum⟩
      · split at h
        · next hstored =>
          cases h
          exact ⟨hload, not_not.mp hidentity, Or.inr hstored⟩
        · cases h

theorem restoreOne_run {cache : PolicyCache} {cached : ListedPolicy} (h : SoundCache rt cache)
    (hlisted : Listed cache cached) (acc : Restored Bundle) :
    ∃ cache', (restoreOne rt lib load cached acc).run cache =
        (.ok (match revalidate rt lib load cached with
          | none => acc
          | some (bundle, _) => acc.add cached bundle), cache') ∧
      SoundCache rt cache' ∧ SameRows cache cache' ∧
        ∀ identity, identity ≠ cached.identity → cache'.get? identity = cache.get? identity := by
  cases hvalid : revalidate rt lib load cached with
  | none =>
    refine ⟨cache, ?_, h, fun _ => rfl, fun _ _ => rfl⟩
    rw [restoreOne, hvalid]
    rfl
  | some result =>
    obtain ⟨bundle, migrates⟩ := result
    cases migrates with
    | false =>
      refine ⟨cache, ?_, h, fun _ => rfl, fun _ _ => rfl⟩
      rw [restoreOne, hvalid]
      rfl
    | true =>
      obtain ⟨row, hrow, hchecksum, hdocument, hsource, hactive, hassigned⟩ := hlisted.row
      obtain ⟨-, hidentity, -⟩ := revalidate_eq_some hvalid
      have hmigrate := h.migrate_ok hrow (lib.document bundle)
      rw [hchecksum, ← hidentity] at hmigrate
      change (migratePolicyDocument rt (lib.policyId bundle) (lib.policyVersion bundle)
        cached.checksum (lib.checksum rt bundle) (lib.document bundle)).run cache = _ at hmigrate
      have hkept : (migrateCached rt lib bundle cached).run cache =
          (.ok true, cache.set (lib.identity bundle) { row with
            checksum := Json.canonicalSha256 rt (.obj (lib.document bundle))
            document := Json.sortKeys (.obj (lib.document bundle)) }) := by
        unfold migrateCached
        rw [Method.rescue]
        dsimp only
        rw [Method.run_bind_ok _ hmigrate]
        rfl
      refine ⟨_, ?_, keeps_soundCache_migrate.apply h hmigrate, ?_, ?_⟩
      · rw [restoreOne, hvalid]
        dsimp only
        rw [if_pos rfl, Method.run_bind_ok _ hkept]
        rfl
      · intro identity
        rw [Dict.get?_set]
        split
        · next heq =>
          subst heq
          rw [hidentity, hrow]
          rfl
        · rfl
      · intro identity hne
        rw [Dict.get?_set_ne (hidentity ▸ hne.symm)]

/-- On a sound cache the loop never raises, and keeps the cache sound. -/
theorem restoreAll_run {cloudAssignmentActive : Bool} : ∀ {listed : List ListedPolicy}
    {cache : PolicyCache} {acc : Restored Bundle}, SoundCache rt cache →
      (listed.map ListedPolicy.identity).Nodup → (∀ cached ∈ listed, Listed cache cached) →
        ∃ cache', (restoreAll rt lib load cloudAssignmentActive listed acc).run cache =
            (.ok (listed.foldl (restoredBy rt lib load cloudAssignmentActive) acc), cache') ∧
          SoundCache rt cache' ∧ SameRows cache cache' := by
  intro listed
  induction listed with
  | nil => exact fun h _ _ => ⟨_, rfl, h, fun _ => rfl⟩
  | cons cached listed ih =>
    intro cache acc h hnodup hlisted
    rw [List.map_cons, List.nodup_cons] at hnodup
    rw [restoreAll, List.foldl_cons, restoredBy]
    by_cases hpassed : cloudAssignmentActive = true ∧
        (cached.source ≠ .cloud ∨ cached.assigned = false)
    · rw [if_pos hpassed, if_pos hpassed]
      exact ih h hnodup.2 fun other hother => hlisted other (List.mem_cons_of_mem _ hother)
    · rw [if_neg hpassed, if_neg hpassed]
      obtain ⟨cache₁, hone, hsound, hsame, hothers⟩ :=
        @restoreOne_run _ rt lib load _ _ h (hlisted cached List.mem_cons_self) acc
      have hrest : ∀ other ∈ listed, Listed cache₁ other := by
        intro other hother
        have hne : other.identity ≠ cached.identity := fun heq =>
          hnodup.1 (List.mem_map.mpr ⟨other, hother, heq⟩)
        obtain ⟨row, hrow, hfields⟩ := (hlisted other (List.mem_cons_of_mem _ hother)).row
        exact ⟨row, (hothers _ hne).trans hrow, hfields⟩
      obtain ⟨cache₂, hrun, hsound₂, hsame₂⟩ := ih hsound hnodup.2 hrest
      refine ⟨cache₂, ?_, hsound₂, fun identity => (hsame₂ identity).trans (hsame identity)⟩
      rw [Method.run_bind_ok _ hone]
      exact hrun

/-! ## Start-up on a sound cache -/

/-- What the loop of a start-up collects. -/
def restoredFrom (rt : Runtime) (lib : PolicyLibrary Bundle) (load : DocumentLoader Bundle)
    (listed : List ListedPolicy) (localPolicy : Bundle) : Restored Bundle :=
  let cloudAssignmentActive := listed.any fun cached =>
    cached.active && decide (cached.source = .cloud)
  let restored := listed.foldl (restoredBy rt lib load cloudAssignmentActive)
    { registered := if cloudAssignmentActive then [] else [localPolicy]
      policy := localPolicy
      source := .localFile }
  { restored with
    registered := if restored.registered.isEmpty then [localPolicy] else restored.registered }

theorem fromLoadedSettings_run {cache : PolicyCache} {now : String} {localPolicy : Bundle}
    (h : SoundCache rt cache) : ∃ listed cache₁,
      (listPolicyDocuments 10000).run cache = (.ok listed, cache) ∧ SoundCache rt cache₁ ∧
      SameRows cache cache₁ ∧ (fromLoadedSettings rt lib load now localPolicy).run cache =
        (initOrchestrator rt lib now (restoredFrom rt lib load listed localPolicy)).run cache₁ := by
  obtain ⟨listed, hlist⟩ := h.list_ok
  obtain ⟨cache₁, hrun, hsound, hsame⟩ := restoreAll_run h (nodup_listed hlist) (Listed.of_run hlist)
  refine ⟨listed, cache₁, hlist, hsound, hsame, ?_⟩
  unfold fromLoadedSettings
  rw [Method.run_bind_ok _ hlist]
  dsimp only
  rw [Method.run_bind_ok _ hrun]
  rfl

theorem keeps_activateInitial {P : PolicyCache → Prop} {now : String} {policy : Bundle}
    {source : PolicySource} {existing : Option ListedPolicy}
    (hcache : ∀ policyId version checksum document, Method.Keeps P
      (cachePolicyDocument rt now policyId version checksum document source true))
    (hactivate : ∀ policyId version, Method.Keeps P (activatePolicyDocument now policyId version)) :
    Method.Keeps P (activateInitial rt lib now policy source existing) := by
  refine Method.Keeps.transaction ?_
  cases existing with
  | none => exact hcache _ _ _ _
  | some item => exact (Method.keeps_ofExcept _).bind fun _ => hactivate _ _

theorem keeps_initOrchestrator {P : PolicyCache → Prop} {now : String} {restored : Restored Bundle}
    (hcache : ∀ policyId version checksum document, Method.Keeps P
      (cachePolicyDocument rt now policyId version checksum document restored.source true))
    (hactivate : ∀ policyId version, Method.Keeps P (activatePolicyDocument now policyId version)) :
    Method.Keeps P (initOrchestrator rt lib now restored) :=
  (keeps_listPolicyDocuments _).bind fun _ =>
    (keeps_activateInitial hcache hactivate).bind fun _ => Method.keeps_pure _

/-- A start-up keeps the cache sound, whether it succeeds or not. -/
theorem keeps_soundCache_start {now : String} {localPolicy : Bundle} :
    Method.Keeps (SoundCache rt) (fromLoadedSettings rt lib load now localPolicy) := by
  intro cache h
  obtain ⟨listed, cache₁, -, hsound, -, hrun⟩ :=
    @fromLoadedSettings_run _ rt lib load cache now localPolicy h
  rw [hrun]
  exact keeps_initOrchestrator (fun _ _ _ _ => keeps_soundCache_cache)
    (fun _ _ => keeps_soundCache_activate) cache₁ hsound

theorem initOrchestrator_ok {cache cache' : PolicyCache} {now : String}
    {restored : Restored Bundle} {self : Orchestrator Bundle}
    (h : (initOrchestrator rt lib now restored).run cache = (.ok self, cache')) :
    self.policy = restored.policy ∧
      self.policies = byIdentity lib (restored.registered ++ [restored.policy]) := by
  unfold initOrchestrator at h
  obtain ⟨cached, cache₁, -, h⟩ := Method.bind_eq_ok.mp h
  obtain ⟨_, cache₂, -, h⟩ := Method.bind_eq_ok.mp h
  cases h
  exact ⟨rfl, rfl⟩

end

end OsScanner.Endpoint

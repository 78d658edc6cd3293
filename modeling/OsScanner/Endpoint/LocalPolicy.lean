import Mathlib
import OsScanner.Lib.Run
import OsScanner.Endpoint.Policies

/-!
# The local policy at start-up

A start-up takes the cached document that is active, whatever it came from, before the local
file. As long as no assignment of the cloud is installed, the local file takes effect only when
it says what the active document says, or when that one is not accepted any more.
-/

namespace OsScanner.Endpoint

open Lib Storage

variable {Bundle : Type} {rt : Runtime} {lib : PolicyLibrary Bundle}

/-- A start of the agent: its loader, and the policy that the configured file holds. -/
structure Launch (Bundle : Type) where
  load : DocumentLoader Bundle
  now : String
  localPolicy : Bundle

/-- `from_settings(settings)`, once the local file is loaded. -/
def Launch.start (rt : Runtime) (lib : PolicyLibrary Bundle) (launch : Launch Bundle) :
    PolicyMethod (Orchestrator Bundle) :=
  fromLoadedSettings rt lib launch.load launch.now launch.localPolicy

/-- The cache that a start leaves behind. -/
def launchStep (rt : Runtime) (lib : PolicyLibrary Bundle) (cache : PolicyCache)
    (launch : Launch Bundle) : PolicyCache := ((launch.start rt lib).run cache).2

/-- The row is accepted as this bundle. -/
def AcceptedAs (rt : Runtime) (lib : PolicyLibrary Bundle) (load : DocumentLoader Bundle)
    (identity : PolicyIdentity) (row : PolicyRow) (bundle : Bundle) : Prop :=
  ∃ document, row.document = .obj document ∧ load document = some bundle ∧
    lib.identity bundle = identity ∧
    (lib.checksum rt bundle = row.checksum ∨
      Json.canonicalSha256 rt (.obj document) = row.checksum)

/-- The active document, where it is accepted, is the local policy. -/
def Current (rt : Runtime) (lib : PolicyLibrary Bundle) (cache : PolicyCache)
    (launch : Launch Bundle) : Prop :=
  ∀ identity row bundle, cache.get? identity = some row → row.active = true →
    AcceptedAs rt lib launch.load identity row bundle → bundle = launch.localPolicy

/-- Where the start succeeds, the local policy is the active one. -/
def TakesEffect (rt : Runtime) (lib : PolicyLibrary Bundle) (cache : PolicyCache)
    (launch : Launch Bundle) : Prop :=
  ∀ self cache', (launch.start rt lib).run cache = (.ok self, cache') →
    self.policy = launch.localPolicy

/-! ## Caches without an assignment -/

/-- No document came from the cloud. -/
def NoCloud (cache : PolicyCache) : Prop :=
  ∀ identity row, cache.get? identity = some row → row.source ≠ .cloud

theorem NoCloud.set {cache : PolicyCache} {identity : PolicyIdentity} {row : PolicyRow}
    (h : NoCloud cache) (hrow : row.source ≠ .cloud) : NoCloud (cache.set identity row) :=
  Dict.forall_values_set hrow fun other before _ hbefore => h other before hbefore

theorem NoCloud.deactivateAll {cache : PolicyCache} (h : NoCloud cache) :
    NoCloud (deactivateAll cache) := by
  intro identity row hrow
  rw [Storage.deactivateAll, Dict.get?_mapValues, Option.map_eq_some_iff] at hrow
  obtain ⟨before, hbefore, rfl⟩ := hrow
  exact h identity before hbefore

theorem keeps_noCloud_cache {now policyId version checksum : String} {document : JsonObject}
    {source : PolicySource} {active assigned : Bool} (hsource : source ≠ .cloud) :
    Method.Keeps NoCloud
      (cachePolicyDocument rt now policyId version checksum document source active assigned) := by
  intro cache h
  rcases hrun : (cachePolicyDocument rt now policyId version checksum document source active
    assigned).run cache with ⟨result, cache'⟩
  obtain ⟨rfl, -⟩ | ⟨-, identity, -, -, rfl⟩ := cachePolicyDocument_cases hrun
  · exact h
  · have hbefore : NoCloud (if active then deactivateAll cache else cache) := by
      split
      · exact h.deactivateAll
      · exact h
    refine hbefore.set ?_
    unfold cachedRow
    split
    · exact hsource
    · exact hsource

theorem keeps_noCloud_activate {now policyId version : String} :
    Method.Keeps NoCloud (activatePolicyDocument now policyId version) := by
  intro cache h
  rcases hrun : (activatePolicyDocument now policyId version).run cache with ⟨result, cache'⟩
  obtain ⟨rfl, -⟩ | ⟨-, identity, row, -, hrow, rfl⟩ := activatePolicyDocument_cases hrun
  · exact h
  · exact h.deactivateAll.set (h identity row hrow)

theorem NoCloud.of_sameRows {cache cache' : PolicyCache} (h : NoCloud cache)
    (hsame : SameRows cache cache') : NoCloud cache' := by
  intro identity row hrow
  have hfields := hsame identity
  rw [hrow, Option.map_some, eq_comm, Option.map_eq_some_iff] at hfields
  obtain ⟨before, hbefore, hfields⟩ := hfields
  rw [← (Prod.mk.inj hfields).1]
  exact h identity before hbefore

/-- The documents that are listed without an assignment. -/
theorem source_listed {cache : PolicyCache} (h : NoCloud cache) {cached : ListedPolicy}
    (hlisted : Listed cache cached) : cached.source ≠ .cloud := by
  obtain ⟨row, hrow, -, -, hsource, -⟩ := hlisted.row
  rw [← hsource]
  exact h _ row hrow

theorem source_restored {load : DocumentLoader Bundle} {cloudAssignmentActive : Bool} :
    ∀ {listed : List ListedPolicy} {acc : Restored Bundle},
      (∀ cached ∈ listed, cached.source ≠ .cloud) → acc.source ≠ .cloud →
        (listed.foldl (restoredBy rt lib load cloudAssignmentActive) acc).source ≠ .cloud := by
  intro listed
  induction listed with
  | nil => exact fun _ h => h
  | cons cached listed ih =>
    intro acc hlisted hacc
    rw [List.foldl_cons]
    refine ih (fun other hother => hlisted other (List.mem_cons_of_mem _ hother)) ?_
    unfold restoredBy
    split
    · exact hacc
    · split
      · exact hacc
      · rw [Restored.add]
        dsimp only
        split
        · exact hlisted cached List.mem_cons_self
        · exact hacc

/-- Soundness, without an assignment. -/
structure LocalCache (rt : Runtime) (cache : PolicyCache) : Prop where
  sound : SoundCache rt cache
  noCloud : NoCloud cache

theorem localCache_empty : LocalCache rt ∅ := ⟨soundCache_empty, fun _ _ h => nomatch h⟩

/-- A start installs nothing from the cloud. -/
theorem LocalCache.step {cache : PolicyCache} (h : LocalCache rt cache) (launch : Launch Bundle) :
    LocalCache rt (launchStep rt lib cache launch) := by
  refine ⟨keeps_soundCache_start cache h.sound, ?_⟩
  obtain ⟨listed, cache₁, hlist, -, hsame, hrun⟩ :=
    @fromLoadedSettings_run _ rt lib launch.load cache launch.now launch.localPolicy h.sound
  rw [launchStep, Launch.start, hrun]
  have hsource : (restoredFrom rt lib launch.load listed launch.localPolicy).source ≠ .cloud := by
    have hlocal : PolicySource.localFile ≠ .cloud := by decide
    refine source_restored (fun cached hcached => ?_) hlocal
    exact source_listed h.noCloud (Listed.of_run hlist cached hcached)
  exact keeps_initOrchestrator (fun _ _ _ _ => keeps_noCloud_cache hsource)
    (fun _ _ => keeps_noCloud_activate) cache₁ (h.noCloud.of_sameRows hsame)

/-! ## Which policy is taken -/

theorem restoredBy_local {load : DocumentLoader Bundle} {cached : ListedPolicy}
    {acc : Restored Bundle} : (restoredBy rt lib load false acc cached).policy =
      match revalidate rt lib load cached with
      | none => acc.policy
      | some (bundle, _) => if cached.active then bundle else acc.policy := by
  unfold restoredBy
  rw [if_neg (fun h => Bool.false_ne_true h.1)]
  cases revalidate rt lib load cached with
  | none => rfl
  | some result => rfl

/-- Documents that are accepted as nothing but the policy leave it. -/
theorem policy_foldl_eq {load : DocumentLoader Bundle} {policy : Bundle} :
    ∀ {listed : List ListedPolicy} {acc : Restored Bundle}, acc.policy = policy →
      (∀ cached ∈ listed, cached.active = true → ∀ bundle migrates,
        revalidate rt lib load cached = some (bundle, migrates) → bundle = policy) →
          (listed.foldl (restoredBy rt lib load false) acc).policy = policy := by
  intro listed
  induction listed with
  | nil => exact fun h _ => h
  | cons cached listed ih =>
    intro acc hacc hlisted
    rw [List.foldl_cons]
    refine ih ?_ fun other hother => hlisted other (List.mem_cons_of_mem _ hother)
    rw [restoredBy_local]
    split
    · exact hacc
    · next bundle migrates hvalid =>
      split
      · next hon => exact hlisted cached List.mem_cons_self hon bundle migrates hvalid
      · exact hacc

/-- The active document that is accepted is the policy. -/
theorem policy_foldl_active {load : DocumentLoader Bundle} {policy : Bundle} :
    ∀ {listed : List ListedPolicy} {acc : Restored Bundle},
      (∃ cached ∈ listed, cached.active = true ∧ ∃ migrates,
        revalidate rt lib load cached = some (policy, migrates)) →
      (∀ cached ∈ listed, cached.active = true → ∀ bundle migrates,
        revalidate rt lib load cached = some (bundle, migrates) → bundle = policy) →
          (listed.foldl (restoredBy rt lib load false) acc).policy = policy := by
  intro listed
  induction listed with
  | nil => exact fun ⟨_, hcached, _⟩ _ => nomatch hcached
  | cons cached listed ih =>
    intro acc hexists hlisted
    have hrest : ∀ other ∈ listed, other.active = true → ∀ bundle migrates,
        revalidate rt lib load other = some (bundle, migrates) → bundle = policy :=
      fun other hother => hlisted other (List.mem_cons_of_mem _ hother)
    rw [List.foldl_cons]
    obtain ⟨other, hother, hon, migrates, hvalid⟩ := hexists
    obtain rfl | hother := List.mem_cons.mp hother
    · refine policy_foldl_eq ?_ hrest
      rw [restoredBy_local, hvalid]
      exact if_pos hon
    · exact ih ⟨other, hother, hon, migrates, hvalid⟩ hrest

theorem accepted_iff_revalidate {load : DocumentLoader Bundle} {cache : PolicyCache}
    {cached : ListedPolicy} {row : PolicyRow} {bundle : Bundle} (hlisted : Listed cache cached)
    (hrow : cache.get? cached.identity = some row) :
    AcceptedAs rt lib load cached.identity row bundle ↔
      ∃ migrates, revalidate rt lib load cached = some (bundle, migrates) := by
  obtain ⟨row', hrow', hchecksum, hdocument, -⟩ := hlisted.row
  rw [hrow, Option.some.injEq] at hrow'
  subst hrow'
  constructor
  · rintro ⟨document, hdocument', hload, hidentity, haccepts⟩
    rw [hdocument, Json.obj.injEq] at hdocument'
    subst hdocument'
    unfold revalidate
    rw [hload]
    dsimp only
    rw [if_neg (not_not.mpr hidentity), ← hchecksum]
    by_cases hsame : lib.checksum rt bundle = row.checksum
    · exact ⟨false, if_pos hsame⟩
    · have hstored := haccepts.resolve_left hsame
      refine ⟨true, ?_⟩
      rw [if_neg hsame, if_pos hstored]
  · rintro ⟨migrates, hvalid⟩
    obtain ⟨hload, hidentity, haccepts⟩ := revalidate_eq_some hvalid
    rw [← hchecksum] at haccepts
    exact ⟨_, hdocument, hload, hidentity, haccepts⟩

/-- Without an assignment, a start takes the local policy exactly when it is current. -/
theorem policy_eq_local_iff {cache cache' : PolicyCache} (h : LocalCache rt cache)
    {launch : Launch Bundle} {self : Orchestrator Bundle}
    (hstart : (launch.start rt lib).run cache = (.ok self, cache')) :
    self.policy = launch.localPolicy ↔ Current rt lib cache launch := by
  obtain ⟨listed, cache₁, hlist, -, -, hrun⟩ :=
    @fromLoadedSettings_run _ rt lib launch.load cache launch.now launch.localPolicy h.sound
  rw [Launch.start, hrun] at hstart
  obtain ⟨hpolicy, -⟩ := initOrchestrator_ok hstart
  have hlisted := Listed.of_run hlist
  have hnone : (listed.any fun cached => cached.active && decide (cached.source = .cloud)) = false := by
    rw [List.any_eq_false]
    intro cached hcached
    have hsource := source_listed h.noCloud (hlisted cached hcached)
    simp [hsource]
  have hfold : self.policy = (listed.foldl (restoredBy rt lib launch.load false)
      { registered := [launch.localPolicy], policy := launch.localPolicy
        source := .localFile }).policy := by
    rw [hpolicy, restoredFrom, hnone]
    rfl
  have haccepted : ∀ cached ∈ listed, cached.active = true → ∀ bundle,
      (∃ migrates, revalidate rt lib launch.load cached = some (bundle, migrates)) ↔
        ∃ row, cache.get? cached.identity = some row ∧ row.active = true ∧
          AcceptedAs rt lib launch.load cached.identity row bundle := by
    intro cached hcached hon bundle
    obtain ⟨row, hrow, -, -, -, hactive, -⟩ := (hlisted cached hcached).row
    rw [← accepted_iff_revalidate (hlisted cached hcached) hrow]
    constructor
    · exact fun haccepted => ⟨row, hrow, hactive.trans hon, haccepted⟩
    · rintro ⟨row', hrow', -, haccepted⟩
      rw [hrow, Option.some.injEq] at hrow'
      exact hrow' ▸ haccepted
  rw [hfold]
  constructor
  · intro hlocal identity row bundle hrow hactive hbundle
    obtain ⟨cached, hcached, rfl, hon⟩ :=
      h.sound.active_listed hlist (by decide) hrow hactive
    have hvalid := (haccepted cached hcached hon bundle).mpr ⟨row, hrow, hactive, hbundle⟩
    rw [← hlocal]
    refine (policy_foldl_active ⟨cached, hcached, hon, hvalid⟩ ?_).symm
    -- There is one active document, and it is loaded in one way.
    intro other hother hotherOn bundle' migrates' hvalid'
    obtain ⟨row', hrow', hactive', -⟩ := (haccepted other hother hotherOn bundle').mp ⟨_, hvalid'⟩
    have hidentity := h.sound.oneActive _ row' _ row hrow' hrow hactive' hactive
    have hsame : other = cached :=
      List.inj_on_of_nodup_map (nodup_listed hlist) hother hcached hidentity
    subst hsame
    obtain ⟨migrates, hvalid⟩ := hvalid
    rw [hvalid, Option.some.injEq, Prod.mk.injEq] at hvalid'
    exact hvalid'.1.symm
  · intro hcurrent
    refine policy_foldl_eq rfl fun cached hcached hon bundle migrates hvalid => ?_
    obtain ⟨row, hrow, hactive, hbundle⟩ :=
      (haccepted cached hcached hon bundle).mp ⟨migrates, hvalid⟩
    exact hcurrent _ row bundle hrow hactive hbundle

/-! ## Histories -/

/--
In a history of starts without an assignment, from a new cache, the local policy takes effect
at every start at which it is current; and at each start that succeeds, exactly then.
-/
theorem local_policy_takes_effect (rt : Runtime) (lib : PolicyLibrary Bundle)
    (launches : List (Launch Bundle)) :
    (Guarded (launchStep rt lib) (Current rt lib) ∅ launches →
      Guarded (launchStep rt lib) (TakesEffect rt lib) ∅ launches) ∧
    ∀ launch self cache', (launch.start rt lib).run (runFrom (launchStep rt lib) ∅ launches) =
      (.ok self, cache') → (self.policy = launch.localPolicy ↔
        Current rt lib (runFrom (launchStep rt lib) ∅ launches) launch) := by
  constructor
  · have hguarded : ∀ {launches : List (Launch Bundle)} {cache : PolicyCache},
        LocalCache rt cache → Guarded (launchStep rt lib) (Current rt lib) cache launches →
          Guarded (launchStep rt lib) (TakesEffect rt lib) cache launches := by
      intro launches
      induction launches with
      | nil => exact fun _ _ => trivial
      | cons launch launches ih =>
        intro cache h hcurrent
        refine ⟨fun self cache' hstart => ?_, ih (h.step launch) hcurrent.2⟩
        exact (policy_eq_local_iff h hstart).mpr hcurrent.1
    exact hguarded localCache_empty
  · intro launch self cache' hstart
    exact policy_eq_local_iff (run_invariant (fun _ _ h => h.step _) localCache_empty) hstart

/-! ## A local file that is edited -/

/-- The row of a policy that a first start caches. -/
def firstRow (rt : Runtime) (lib : PolicyLibrary Bundle) (launch : Launch Bundle) : PolicyRow :=
  cachedRow none (lib.checksum rt launch.localPolicy)
    (Json.sortKeys (.obj (lib.document launch.localPolicy))) .localFile launch.now true true

/-- A first start caches the local policy, which becomes the active one. -/
theorem start_empty {launch : Launch Bundle}
    (hidentity : checkIdentity (lib.policyId launch.localPolicy)
      (lib.policyVersion launch.localPolicy) = .ok (lib.identity launch.localPolicy)) :
    launchStep rt lib ∅ launch =
      (∅ : PolicyCache).set (lib.identity launch.localPolicy) (firstRow rt lib launch) := by
  have hclean : cleanIdentifier (.str (lib.checksum rt launch.localPolicy)) "checksum" 128 =
      .ok (lib.checksum rt launch.localPolicy) := cleanIdentifier_digest (rt.hashText_digest _)
  have hcache : (activateInitial rt lib launch.now launch.localPolicy .localFile none).run ∅ =
      (.ok (), (∅ : PolicyCache).set (lib.identity launch.localPolicy) (firstRow rt lib launch)) := by
    refine Method.transaction_eq_ok.mpr ?_
    rw [cachePolicyDocument, Method.run_ofExcept_bind, hidentity]
    dsimp only
    rw [Method.run_ofExcept_bind, hclean]
    dsimp only
    have hsame : ¬ Json.canonicalSha256 rt (.obj (lib.document launch.localPolicy)) ≠
        lib.checksum rt launch.localPolicy := not_not.mpr rfl
    rw [Method.run_ofExcept_bind, Check.raiseIf, if_neg hsame]
    dsimp only
    rw [Method.run_reading_bind, Dict.get?_empty]
    dsimp only
    rw [Method.run_ofExcept_bind, Check.raiseIf, if_neg (by simp)]
    rfl
  have hlist : (listPolicyDocuments 10000).run ∅ = (.ok [], (∅ : PolicyCache)) := by
    rw [listPolicyDocuments, Method.run_ofExcept_bind, Check.raiseIf, if_neg (by decide)]
    rfl
  rw [launchStep, Launch.start, fromLoadedSettings, Method.run_bind_ok _ hlist]
  dsimp only
  rw [restoreAll, Method.run_bind_ok _ (Method.run_pure _ _), initOrchestrator,
    Method.run_bind_ok _ hlist]
  dsimp only
  rw [List.find?_nil, Method.run_bind_ok _ hcache]
  rfl

/-- A start takes the one document that is cached and active, where it is accepted. -/
theorem start_cached {launch : Launch Bundle} {row : PolicyRow} {document : JsonObject}
    {bundle : Bundle} (hactive : row.active = true) (hsource : row.source ≠ .cloud)
    (hdocument : row.document = .obj document) (hload : launch.load document = some bundle)
    (hchecksum : lib.checksum rt bundle = row.checksum)
    (hidentity : checkIdentity (lib.policyId bundle) (lib.policyVersion bundle) =
      .ok (lib.identity bundle)) :
    ∃ self cache', (launch.start rt lib).run ((∅ : PolicyCache).set (lib.identity bundle) row) =
      (.ok self, cache') ∧ self.policy = bundle := by
  let cached : ListedPolicy :=
    ⟨lib.identity bundle, row.checksum, document, row.source, row.active, row.assigned⟩
  have hlist : (listPolicyDocuments 10000).run ((∅ : PolicyCache).set (lib.identity bundle) row) =
      (.ok [cached], (∅ : PolicyCache).set (lib.identity bundle) row) := by
    have hrow : listedRow (lib.identity bundle, row) = .ok cached := by
      rw [listedRow, hdocument]
    rw [listPolicyDocuments, Method.run_ofExcept_bind, Check.raiseIf, if_neg (by decide)]
    show (List.mapM listedRow [(lib.identity bundle, row)], _) = _
    rw [List.mapM_cons, hrow]
    rfl
  have hvalid : revalidate rt lib launch.load cached = some (bundle, false) := by
    rw [revalidate, hload]
    dsimp only
    rw [if_neg (not_not.mpr rfl), if_pos hchecksum]
  have hnone : ([cached].any fun cached => cached.active && decide (cached.source = .cloud)) = false := by
    simp [cached, hsource]
  have hactivate : (activateInitial rt lib launch.now bundle row.source (some cached)).run
      ((∅ : PolicyCache).set (lib.identity bundle) row) =
        (.ok (), (deactivateAll ((∅ : PolicyCache).set (lib.identity bundle) row)).set
          (lib.identity bundle) { row with active := true, activatedAt := some launch.now }) := by
    refine Method.transaction_eq_ok.mpr ?_
    rw [Method.run_ofExcept_bind, Check.raiseIf, if_neg (not_not.mpr hchecksum.symm)]
    dsimp only
    rw [activatePolicyDocument, Method.run_ofExcept_bind, hidentity]
    dsimp only
    rw [Method.run_reading_bind, Dict.get?_set_self]
    rfl
  have hrestored : (restoreAll rt lib launch.load false [cached]
      ⟨[launch.localPolicy], launch.localPolicy, .localFile⟩).run
        ((∅ : PolicyCache).set (lib.identity bundle) row) =
      (.ok ⟨[launch.localPolicy, bundle], bundle, row.source⟩,
        (∅ : PolicyCache).set (lib.identity bundle) row) := by
    rw [restoreAll, if_neg (fun h => Bool.false_ne_true h.1), restoreOne, hvalid]
    show (Except.ok (Restored.add ⟨[launch.localPolicy], launch.localPolicy, .localFile⟩ cached bundle), _) = _
    rw [Restored.add, if_pos hactive, if_pos hactive]
    rfl
  have hfound : [cached].find? (fun item => decide (item.identity = lib.identity bundle)) = some cached :=
    List.find?_cons_of_pos (decide_eq_true rfl)
  refine ⟨⟨bundle, byIdentity lib [launch.localPolicy, bundle, bundle]⟩,
    (deactivateAll ((∅ : PolicyCache).set (lib.identity bundle) row)).set
      (lib.identity bundle) { row with active := true, activatedAt := some launch.now }, ?_, rfl⟩
  rw [Launch.start, fromLoadedSettings, Method.run_bind_ok _ hlist]
  dsimp only
  rw [hnone, if_neg Bool.false_ne_true, Method.run_bind_ok _ hrestored, initOrchestrator,
    Method.run_bind_ok _ hlist]
  dsimp only
  rw [hfound, Method.run_bind_ok _ hactivate]
  rfl

/-- A bundle whose rules are kept as they are written. -/
structure WrittenPolicy where
  policyId : String
  policyVersion : String
  rules : Json
  deriving DecidableEq

def writtenLibrary : PolicyLibrary WrittenPolicy where
  policyId := WrittenPolicy.policyId
  policyVersion := WrittenPolicy.policyVersion
  document bundle :=
    [("schema_version", .str "1.0"), ("policy_id", .str bundle.policyId),
      ("policy_version", .str bundle.policyVersion), ("description", .null),
      ("rules", bundle.rules)]

/-- Loading a canonical document gives the bundle that it is the document of. -/
def loadWritten : DocumentLoader WrittenPolicy := fun document =>
  match document.get "policy_id", document.get "policy_version" with
  | .str policyId, .str policyVersion => some ⟨policyId, policyVersion, document.get "rules"⟩
  | _, _ => none

/-- A rule, with its fields in the order of their names. -/
def firewallRule : Json := .obj
  [("category", .str "network"), ("condition", .obj [("field", .str "a"), ("operator", .str "exists")]),
    ("description", .str "d"), ("remediation", .str "r"), ("rule_id", .str "R-1"),
    ("severity", .str "LOW"), ("title", .str "t")]

/-- A start with this version of the local policy. -/
def writtenLaunch (policyVersion : String) : Launch WrittenPolicy where
  load := loadWritten
  now := "now"
  localPolicy := ⟨"enterprise-default", policyVersion, .arr [firewallRule]⟩

/-- The policy that is active after a start. -/
def activeAfter (cache : PolicyCache) (launch : Launch WrittenPolicy) : Option WrittenPolicy :=
  match ((launch.start Runtime.sample writtenLibrary).run cache).1 with
  | .ok self => some self.policy
  | .error _ => none

/-- A start whose active policy is another than the local one. -/
theorem not_takesEffect {cache : PolicyCache} {launch : Launch WrittenPolicy} {policy : WrittenPolicy}
    (hactive : activeAfter cache launch = some policy) (hother : policy ≠ launch.localPolicy) :
    ¬ TakesEffect Runtime.sample writtenLibrary cache launch := by
  intro htakes
  rw [activeAfter] at hactive
  rcases hstart : (launch.start Runtime.sample writtenLibrary).run cache with ⟨e | self, cache'⟩
  · rw [hstart] at hactive
    cases hactive
  · rw [hstart, Option.some.injEq] at hactive
    exact hother (hactive ▸ htakes self cache' hstart)

theorem activeAfter_edited :
    activeAfter (launchStep Runtime.sample writtenLibrary ∅ (writtenLaunch "1.0.0"))
      (writtenLaunch "2.0.0") = some ⟨"enterprise-default", "1.0.0", .arr [firewallRule]⟩ := by
  have hfirst : checkIdentity "enterprise-default" "1.0.0" = .ok ("enterprise-default", "1.0.0") := by
    decide +kernel
  obtain ⟨document, hdocument, hload⟩ : ∃ document,
      Json.sortKeys (.obj (writtenLibrary.document (writtenLaunch "1.0.0").localPolicy)) =
          .obj document ∧
        loadWritten document = some (writtenLaunch "1.0.0").localPolicy := by
    refine ⟨_, rfl, ?_⟩
    decide +kernel
  rw [@start_empty _ Runtime.sample writtenLibrary (writtenLaunch "1.0.0") hfirst]
  obtain ⟨self, cache', hstart, hpolicy⟩ := @start_cached _ Runtime.sample writtenLibrary
    (writtenLaunch "2.0.0") (firstRow Runtime.sample writtenLibrary (writtenLaunch "1.0.0")) document
    (writtenLaunch "1.0.0").localPolicy rfl PolicySource.noConfusion hdocument hload rfl hfirst
  rw [activeAfter, hstart]
  exact congrArg some hpolicy

/-- The second start keeps the version of the first. -/
theorem edited_policy_ignored :
    activeAfter (launchStep Runtime.sample writtenLibrary ∅ (writtenLaunch "1.0.0"))
        (writtenLaunch "2.0.0") = some ⟨"enterprise-default", "1.0.0", .arr [firewallRule]⟩ ∧
      ¬ Guarded (launchStep Runtime.sample writtenLibrary)
        (TakesEffect Runtime.sample writtenLibrary) ∅
        [writtenLaunch "1.0.0", writtenLaunch "2.0.0"] := by
  refine ⟨activeAfter_edited, fun hguarded => ?_⟩
  exact not_takesEffect activeAfter_edited (by simp [writtenLaunch]) hguarded.2.1

end OsScanner.Endpoint

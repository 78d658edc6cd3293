import Mathlib
import OsScanner.Lib.Keeps
import OsScanner.Storage.Texts

/-!
# Cached policy documents

The table `policy_documents` and the methods of `app/storage/results.py` that write it. A
document is kept under its policy ID and version, and its content never changes unless it is
written anew in its canonical form; at most one document is active.
-/

namespace OsScanner.Storage

open Lib Lib.Check

/-- Where a document came from. -/
inductive PolicySource where
  | bundled
  | localFile
  | cloud
  deriving DecidableEq, Repr

/-- A row of `policy_documents`. The document is what reading its text gives. -/
structure PolicyRow where
  checksum : String
  document : Json
  source : PolicySource
  receivedAt : String
  activatedAt : Option String
  active : Bool
  assigned : Bool

/-- A policy ID and a version. -/
abbrev PolicyIdentity := String × String

abbrev PolicyCache := Dict PolicyIdentity PolicyRow

abbrev PolicyMethod := Method PolicyCache StorageError

/-! ## The statements -/

/-- `UPDATE policy_documents SET active=0 WHERE active=1` -/
def deactivateAll (cache : PolicyCache) : PolicyCache :=
  cache.mapValues fun row => { row with active := false }

/-- The checked identity of a document. -/
def checkIdentity (policyId version : String) : Except StorageError PolicyIdentity := do
  let policyId ← cleanIdentifier (.str policyId) "policy_id"
  let version ← cleanIdentifier (.str version) "version" 64
  .ok (policyId, version)

/-- The row that a document gets, or that it updates. -/
def cachedRow (existing : Option PolicyRow) (checksum : String) (document : Json)
    (source : PolicySource) (now : String) (active assigned : Bool) : PolicyRow :=
  match existing with
  | some row => { row with
      source := source
      activatedAt := if active then some now else row.activatedAt
      active := active || row.active
      assigned := assigned }
  | none =>
    { checksum := checksum
      document := document
      source := source
      receivedAt := now
      activatedAt := if active then some now else none
      active := active
      assigned := assigned }

/-- `cache_policy_document(policy_id, version, checksum, document, source=…, …)` -/
def cachePolicyDocument (rt : Runtime) (now : String) (policyId version checksum : String)
    (document : JsonObject) (source : PolicySource) (active : Bool := false)
    (assigned : Bool := true) : PolicyMethod Unit := do
  let identity ← .ofExcept (checkIdentity policyId version)
  let checksum ← .ofExcept (cleanIdentifier (.str checksum) "checksum" 128)
  .ofExcept (raiseIf (Json.canonicalSha256 rt (.obj document) ≠ checksum)
    ⟨.valueError, "policy document checksum does not match its canonical payload"⟩)
  let stored := Json.sortKeys (.obj document)
  let existing ← .reading fun cache => .ok (cache.get? identity)
  .ofExcept (raiseIf (∃ row ∈ existing, row.checksum ≠ checksum ∨ row.document ≠ stored)
    ⟨.idempotencyConflict, "policy ID/version is already cached with different content"⟩)
  .modify fun cache =>
    let cache := if active then deactivateAll cache else cache
    cache.set identity
      (cachedRow (cache.get? identity) checksum stored source now active assigned)

/-- `revoke_cloud_policy_assignments()` -/
def revokeCloudPolicyAssignments : PolicyMethod Unit :=
  .modify fun cache => cache.mapValues fun row =>
    if row.source = .cloud then { row with assigned := false } else row

/-- `migrate_policy_document_canonicalization(policy_id, version, expected_checksum, …)` -/
def migratePolicyDocument (rt : Runtime) (policyId version expectedChecksum checksum : String)
    (document : JsonObject) : PolicyMethod Unit := do
  let identity ← .ofExcept (checkIdentity policyId version)
  let expectedChecksum ←
    .ofExcept (cleanIdentifier (.str expectedChecksum) "expected_checksum" 128)
  let checksum ← .ofExcept (cleanIdentifier (.str checksum) "checksum" 128)
  .ofExcept (raiseIf (Json.canonicalSha256 rt (.obj document) ≠ checksum)
    ⟨.valueError, "policy document checksum does not match its canonical payload"⟩)
  let existing ← .reading fun cache => .ok (cache.get? identity)
  match existing with
  | none => .raise ⟨.valueError, "cannot migrate a policy document that is not cached"⟩
  | some row => do
    .ofExcept (raiseIf (row.checksum ≠ expectedChecksum ∨
        Json.canonicalSha256 rt row.document ≠ expectedChecksum)
      ⟨.idempotencyConflict, "cached policy changed during canonicalization migration"⟩)
    .modify fun cache => cache.set identity
      { row with checksum := checksum, document := Json.sortKeys (.obj document) }

/-- `activate_policy_document(policy_id, version)` -/
def activatePolicyDocument (now policyId version : String) : PolicyMethod Unit := do
  let identity ← .ofExcept (checkIdentity policyId version)
  let existing ← .reading fun cache => .ok (cache.get? identity)
  match existing with
  | none => .raise ⟨.valueError, "cannot activate a policy document that is not cached"⟩
  | some row =>
    let activated := { row with active := true, activatedAt := some now }
    .modify fun cache => (deactivateAll cache).set identity activated

/-! ## Listing the documents -/

/-- A document as it is listed. -/
structure ListedPolicy where
  identity : PolicyIdentity
  checksum : String
  document : JsonObject
  source : PolicySource
  active : Bool
  assigned : Bool

/-- `ORDER BY active DESC, received_at DESC` -/
def listedBefore (a b : PolicyIdentity × PolicyRow) : Prop :=
  (a.2.active = true ∧ b.2.active = false) ∨
    (a.2.active = b.2.active ∧ b.2.receivedAt ≤ a.2.receivedAt)

instance : DecidableRel listedBefore := fun _ _ => inferInstanceAs (Decidable (_ ∨ _))

def listedRow (entry : PolicyIdentity × PolicyRow) : Except StorageError ListedPolicy :=
  match entry.2.document with
  | .obj document => .ok
      { identity := entry.1
        checksum := entry.2.checksum
        document := document
        source := entry.2.source
        active := entry.2.active
        assigned := entry.2.assigned }
  | _ => .error ⟨.storage, "cached policy document is not an object"⟩

/-- `list_policy_documents(limit=limit)` -/
def listPolicyDocuments (limit : Nat) : PolicyMethod (List ListedPolicy) := do
  .ofExcept (raiseIf (¬ (1 ≤ limit ∧ limit ≤ 10000))
    ⟨.valueError, "policy document limit must be between 1 and 10000"⟩)
  .reading fun cache => ((cache.entries.insertionSort listedBefore).take limit).mapM listedRow

/-! ## What the methods do -/

theorem checkIdentity_eq_ok {policyId version : String} {identity : PolicyIdentity} :
    checkIdentity policyId version = .ok identity ↔
      cleanIdentifier (.str policyId) "policy_id" = .ok identity.1 ∧
        cleanIdentifier (.str version) "version" 64 = .ok identity.2 := by
  unfold checkIdentity
  rw [bind_eq_ok]
  constructor
  · rintro ⟨policyId', hid, h⟩
    obtain ⟨version', hversion, h⟩ := bind_eq_ok.mp h
    cases h
    exact ⟨hid, hversion⟩
  · rintro ⟨hid, hversion⟩
    exact ⟨_, hid, bind_eq_ok.mpr ⟨_, hversion, rfl⟩⟩

/-- A text that was cleaned is clean. -/
theorem cleanIdentifier_again {text field result : String} {maxLength : Nat}
    (h : cleanIdentifier (.str text) field maxLength = .ok result) :
    cleanIdentifier (.str result) field maxLength = .ok result := by
  obtain ⟨_, htext, rfl, hne, hlength, hcontrol⟩ := cleanIdentifier_eq_ok.mp h
  cases htext
  refine cleanIdentifier_eq_ok.mpr ⟨_, rfl, (strip_strip _).symm, ?_, ?_, ?_⟩
  · rwa [strip_strip]
  · rwa [strip_strip]
  · rwa [strip_strip]

theorem checkIdentity_again {policyId version : String} {identity : PolicyIdentity}
    (h : checkIdentity policyId version = .ok identity) :
    checkIdentity identity.1 identity.2 = .ok identity := by
  obtain ⟨hid, hversion⟩ := checkIdentity_eq_ok.mp h
  exact checkIdentity_eq_ok.mpr ⟨cleanIdentifier_again hid, cleanIdentifier_again hversion⟩

variable {rt : Runtime}

theorem cachePolicyDocument_cases {now policyId version checksum : String} {document : JsonObject}
    {source : PolicySource} {active assigned : Bool} {cache cache' : PolicyCache}
    {result : Except StorageError Unit}
    (h : (cachePolicyDocument rt now policyId version checksum document source active assigned).run
      cache = (result, cache')) :
    (cache' = cache ∧ ∃ e, result = .error e) ∨ (result = .ok () ∧ ∃ identity,
      checkIdentity policyId version = .ok identity ∧
      (∀ row, cache.get? identity = some row →
        row.checksum = Json.canonicalSha256 rt (.obj document) ∧
          row.document = Json.sortKeys (.obj document)) ∧
      cache' = (if active then deactivateAll cache else cache).set identity
        (cachedRow ((if active then deactivateAll cache else cache).get? identity)
          (Json.canonicalSha256 rt (.obj document)) (Json.sortKeys (.obj document)) source now active
          assigned)) := by
  unfold cachePolicyDocument at h
  rw [Method.run_ofExcept_bind] at h
  cases hidentity : checkIdentity policyId version with
  | error e => rw [hidentity] at h; cases h; exact Or.inl ⟨rfl, _, rfl⟩
  | ok identity =>
    rw [hidentity] at h
    dsimp only at h
    rw [Method.run_ofExcept_bind] at h
    cases hchecksum : cleanIdentifier (.str checksum) "checksum" 128 with
    | error e => rw [hchecksum] at h; cases h; exact Or.inl ⟨rfl, _, rfl⟩
    | ok checksum' =>
      rw [hchecksum] at h
      dsimp only at h
      rw [Method.run_ofExcept_bind] at h
      by_cases hhash : Json.canonicalSha256 rt (.obj document) = checksum'
      · rw [raiseIf, if_neg (not_not.mpr hhash)] at h
        dsimp only at h
        rw [Method.run_reading_bind] at h
        dsimp only at h
        rw [Method.run_ofExcept_bind] at h
        split at h
        · next hok =>
          rw [raiseIf_eq_ok] at hok
          cases h
          subst hhash
          refine Or.inr ⟨rfl, identity, rfl, fun row hrow => ?_, rfl⟩
          by_contra hdiffers
          exact hok ⟨row, hrow, not_and_or.mp hdiffers⟩
        · cases h
          exact Or.inl ⟨rfl, _, rfl⟩
      · rw [raiseIf, if_pos hhash] at h
        cases h
        exact Or.inl ⟨rfl, _, rfl⟩

theorem migratePolicyDocument_cases {policyId version expected checksum : String}
    {document : JsonObject} {cache cache' : PolicyCache} {result : Except StorageError Unit}
    (h : (migratePolicyDocument rt policyId version expected checksum document).run cache =
      (result, cache')) :
    (cache' = cache ∧ ∃ e, result = .error e) ∨ (result = .ok () ∧ ∃ identity row,
      checkIdentity policyId version = .ok identity ∧ cache.get? identity = some row ∧
      cache' = cache.set identity { row with
        checksum := Json.canonicalSha256 rt (.obj document)
        document := Json.sortKeys (.obj document) }) := by
  unfold migratePolicyDocument at h
  rw [Method.run_ofExcept_bind] at h
  cases hidentity : checkIdentity policyId version with
  | error e => rw [hidentity] at h; cases h; exact Or.inl ⟨rfl, _, rfl⟩
  | ok identity =>
    rw [hidentity] at h
    dsimp only at h
    rw [Method.run_ofExcept_bind] at h
    split at h
    · rw [Method.run_ofExcept_bind] at h
      split at h
      · next checksum' _ =>
        rw [Method.run_ofExcept_bind] at h
        by_cases hhash : Json.canonicalSha256 rt (.obj document) = checksum'
        · rw [raiseIf, if_neg (not_not.mpr hhash)] at h
          dsimp only at h
          rw [Method.run_reading_bind] at h
          dsimp only at h
          cases hget : cache.get? identity with
          | none => rw [hget] at h; cases h; exact Or.inl ⟨rfl, _, rfl⟩
          | some row =>
            rw [hget] at h
            dsimp only at h
            rw [Method.run_ofExcept_bind] at h
            split at h
            · cases h
              subst hhash
              exact Or.inr ⟨rfl, identity, row, rfl, hget, rfl⟩
            · cases h
              exact Or.inl ⟨rfl, _, rfl⟩
        · rw [raiseIf, if_pos hhash] at h
          cases h
          exact Or.inl ⟨rfl, _, rfl⟩
      · cases h
        exact Or.inl ⟨rfl, _, rfl⟩
    · cases h
      exact Or.inl ⟨rfl, _, rfl⟩

theorem activatePolicyDocument_cases {now policyId version : String} {cache cache' : PolicyCache}
    {result : Except StorageError Unit}
    (h : (activatePolicyDocument now policyId version).run cache = (result, cache')) :
    (cache' = cache ∧ ∃ e, result = .error e) ∨ (result = .ok () ∧ ∃ identity row,
      checkIdentity policyId version = .ok identity ∧ cache.get? identity = some row ∧
      cache' = (deactivateAll cache).set identity
        { row with active := true, activatedAt := some now }) := by
  unfold activatePolicyDocument at h
  rw [Method.run_ofExcept_bind] at h
  cases hidentity : checkIdentity policyId version with
  | error e => rw [hidentity] at h; cases h; exact Or.inl ⟨rfl, _, rfl⟩
  | ok identity =>
    rw [hidentity] at h
    dsimp only at h
    rw [Method.run_reading_bind] at h
    dsimp only at h
    cases hget : cache.get? identity with
    | none => rw [hget] at h; cases h; exact Or.inl ⟨rfl, _, rfl⟩
    | some row =>
      rw [hget] at h
      cases h
      exact Or.inr ⟨rfl, identity, row, rfl, hget, rfl⟩

/-! ## Sound caches -/

/-- A document that the methods wrote, under its checksum. -/
def Sealed (rt : Runtime) (row : PolicyRow) : Prop :=
  ∃ document, row.document = Json.sortKeys (.obj document) ∧
    row.checksum = Json.canonicalSha256 rt (.obj document)

/-- What is true of every cache that only the methods write. -/
structure SoundCache (rt : Runtime) (cache : PolicyCache) : Prop where
  clean : ∀ identity row, cache.get? identity = some row →
    checkIdentity identity.1 identity.2 = .ok identity
  sealed : ∀ identity row, cache.get? identity = some row → Sealed rt row
  oneActive : ∀ identity row identity' row', cache.get? identity = some row →
    cache.get? identity' = some row' → row.active = true → row'.active = true →
      identity = identity'

theorem soundCache_empty : SoundCache rt ∅ := by
  constructor
  · intro identity row h
    cases h
  · intro identity row h
    cases h
  · intro identity row identity' row' h
    cases h

/-- A change of every row that keeps the documents and activates none. -/
theorem SoundCache.mapValues {cache : PolicyCache} {f : PolicyRow → PolicyRow}
    (h : SoundCache rt cache) (hsealed : ∀ row, Sealed rt row → Sealed rt (f row))
    (hactive : ∀ row, (f row).active = true → row.active = true) :
    SoundCache rt (cache.mapValues f) := by
  have hget : ∀ {identity row}, (cache.mapValues f).get? identity = some row →
      ∃ before, cache.get? identity = some before ∧ f before = row := by
    intro identity row hrow
    rwa [Dict.get?_mapValues, Option.map_eq_some_iff] at hrow
  constructor
  · intro identity row hrow
    obtain ⟨before, hbefore, -⟩ := hget hrow
    exact h.clean identity before hbefore
  · intro identity row hrow
    obtain ⟨before, hbefore, rfl⟩ := hget hrow
    exact hsealed before (h.sealed identity before hbefore)
  · intro identity row identity' row' hrow hrow' hon hon'
    obtain ⟨before, hbefore, rfl⟩ := hget hrow
    obtain ⟨before', hbefore', rfl⟩ := hget hrow'
    exact h.oneActive identity before identity' before' hbefore hbefore' (hactive before hon)
      (hactive before' hon')

theorem SoundCache.deactivateAll {cache : PolicyCache} (h : SoundCache rt cache) :
    SoundCache rt (deactivateAll cache) :=
  h.mapValues (fun _ hrow => hrow) (fun _ hon => nomatch hon)

/-- Writing a row that is active only when no other one is. -/
theorem SoundCache.set {cache : PolicyCache} {identity : PolicyIdentity} {row : PolicyRow}
    (h : SoundCache rt cache) (hclean : checkIdentity identity.1 identity.2 = .ok identity)
    (hsealed : Sealed rt row)
    (hactive : row.active = true → ∀ other before, cache.get? other = some before →
      before.active = true → other = identity) : SoundCache rt (cache.set identity row) := by
  constructor
  · refine Dict.forall_values_set hclean ?_
    exact fun other before _ hbefore => h.clean other before hbefore
  · refine Dict.forall_values_set hsealed ?_
    exact fun other before _ hbefore => h.sealed other before hbefore
  · intro first row₁ second row₂ hfirst hsecond hon₁ hon₂
    rw [Dict.get?_set] at hfirst hsecond
    split at hfirst
    · next heq =>
      cases hfirst
      split at hsecond
      · next heq' => exact heq.symm.trans heq'
      · exact heq.symm.trans (hactive hon₁ second row₂ hsecond hon₂).symm
    · split at hsecond
      · next heq' =>
        cases hsecond
        exact (hactive hon₂ first row₁ hfirst hon₁).trans heq'
      · exact h.oneActive first row₁ second row₂ hfirst hsecond hon₁ hon₂

theorem inactive_deactivateAll {cache : PolicyCache} {identity : PolicyIdentity} {row : PolicyRow}
    (h : (deactivateAll cache).get? identity = some row) : row.active = false := by
  rw [deactivateAll, Dict.get?_mapValues, Option.map_eq_some_iff] at h
  obtain ⟨before, -, rfl⟩ := h
  rfl

theorem keeps_soundCache_cache {now policyId version checksum : String} {document : JsonObject}
    {source : PolicySource} {active assigned : Bool} : Method.Keeps (SoundCache rt)
      (cachePolicyDocument rt now policyId version checksum document source active assigned) := by
  intro cache h
  rcases hrun : (cachePolicyDocument rt now policyId version checksum document source active
    assigned).run cache with ⟨result, cache'⟩
  obtain ⟨rfl, -⟩ | ⟨-, identity, hidentity, hsame, rfl⟩ := cachePolicyDocument_cases hrun
  · exact h
  · have hbefore : SoundCache rt (if active then deactivateAll cache else cache) := by
      split
      · exact h.deactivateAll
      · exact h
    refine hbefore.set (checkIdentity_again hidentity) ?_ ?_
    · unfold cachedRow
      split
      · next row hrow => exact hbefore.sealed identity row hrow
      · exact ⟨document, rfl, rfl⟩
    · intro hon other before hother hbeforeOn
      cases active with
      | true =>
        rw [if_pos rfl] at hother
        rw [inactive_deactivateAll hother] at hbeforeOn
        cases hbeforeOn
      | false =>
        rw [if_neg Bool.false_ne_true] at hother hon
        unfold cachedRow at hon
        split at hon
        · next row hrow =>
          rw [Bool.false_or] at hon
          exact h.oneActive other before identity row hother hrow hbeforeOn hon
        · cases hon

theorem keeps_soundCache_migrate {policyId version expected checksum : String}
    {document : JsonObject} : Method.Keeps (SoundCache rt)
      (migratePolicyDocument rt policyId version expected checksum document) := by
  intro cache h
  rcases hrun : (migratePolicyDocument rt policyId version expected checksum document).run cache
    with ⟨result, cache'⟩
  obtain ⟨rfl, -⟩ | ⟨-, identity, row, hidentity, hrow, rfl⟩ := migratePolicyDocument_cases hrun
  · exact h
  · refine h.set (checkIdentity_again hidentity) ⟨document, rfl, rfl⟩ ?_
    exact fun hon other before hother hbeforeOn =>
      h.oneActive other before identity row hother hrow hbeforeOn hon

theorem keeps_soundCache_activate {now policyId version : String} :
    Method.Keeps (SoundCache rt) (activatePolicyDocument now policyId version) := by
  intro cache h
  rcases hrun : (activatePolicyDocument now policyId version).run cache with ⟨result, cache'⟩
  obtain ⟨rfl, -⟩ | ⟨-, identity, row, hidentity, hrow, rfl⟩ := activatePolicyDocument_cases hrun
  · exact h
  · refine h.deactivateAll.set (checkIdentity_again hidentity) (h.sealed identity row hrow) ?_
    intro _ other before hother hbeforeOn
    rw [inactive_deactivateAll hother] at hbeforeOn
    cases hbeforeOn

theorem keeps_soundCache_revoke : Method.Keeps (SoundCache rt) revokeCloudPolicyAssignments := by
  refine Method.keeps_modify fun cache h => h.mapValues ?_ ?_
  · intro row hrow
    split
    · exact hrow
    · exact hrow
  · intro row hon
    split at hon
    · exact hon
    · exact hon

theorem keeps_listPolicyDocuments {P : PolicyCache → Prop} (limit : Nat) :
    Method.Keeps P (listPolicyDocuments limit) :=
  (Method.keeps_ofExcept _).bind fun _ => Method.keeps_reading _

/-! ## Reading a sound cache -/

/-- A digest is a clean identifier. -/
theorem cleanIdentifier_digest {digest field : String} (h : isHexDigest digest = true) :
    cleanIdentifier (.str digest) field 128 = .ok digest := by
  rw [isHexDigest, Bool.and_eq_true, decide_eq_true_eq, List.all_eq_true] at h
  obtain ⟨hlength, hchars⟩ := h
  have hrange : ∀ c ∈ digest.toList,
      (48 ≤ c.toNat ∧ c.toNat ≤ 57) ∨ (97 ≤ c.toNat ∧ c.toNat ≤ 102) := by
    intro c hc
    have hchar := hchars c hc
    rw [Bool.or_eq_true, decide_eq_true_eq, decide_eq_true_eq] at hchar
    exact hchar
  have hspace : ∀ c ∈ digest.toList, isSpace c = false := by
    intro c hc
    have hc := hrange c hc
    rw [isSpace, decide_eq_false_iff_not]
    omega
  have hcontrol : digest.toList.any isControl = false := by
    rw [List.any_eq_false]
    intro c hc
    have hc := hrange c hc
    rw [isControl, decide_eq_true_eq]
    omega
  rw [String.length_toList] at hlength
  refine cleanIdentifier_eq_ok.mpr ⟨digest, rfl, ?_⟩
  rw [strip_of_no_space hspace]
  refine ⟨rfl, ?_, by omega, hcontrol⟩
  rintro rfl
  cases hlength

theorem canonicalSha256_sortKeys (v : Json) :
    Json.canonicalSha256 rt (Json.sortKeys v) = Json.canonicalSha256 rt v := by
  rw [Json.canonicalSha256, Json.canonicalSha256,
    (Json.canonicalJson_eq_iff rt).mpr (Json.sortKeys_sortKeys v)]

/-- What a listed document says is what its row says. -/
structure Listed (cache : PolicyCache) (cached : ListedPolicy) : Prop where
  row : ∃ row, cache.get? cached.identity = some row ∧ row.checksum = cached.checksum ∧
    row.document = .obj cached.document ∧ row.source = cached.source ∧
    row.active = cached.active ∧ row.assigned = cached.assigned

theorem listedRow_ok {entry : PolicyIdentity × PolicyRow} {cached : ListedPolicy}
    (h : listedRow entry = .ok cached) : cached.identity = entry.1 ∧
      cached.checksum = entry.2.checksum ∧ entry.2.document = .obj cached.document ∧
      cached.source = entry.2.source ∧ cached.active = entry.2.active ∧
      cached.assigned = entry.2.assigned := by
  unfold listedRow at h
  split at h
  · next document hdocument =>
    cases h
    exact ⟨rfl, rfl, hdocument, rfl, rfl, rfl⟩
  · cases h

theorem listed_of_run {cache cache' : PolicyCache} {limit : Nat} {listed : List ListedPolicy}
    (h : (listPolicyDocuments limit).run cache = (.ok listed, cache')) :
    cache' = cache ∧ List.Forall₂ (fun entry cached => listedRow entry = .ok cached)
      ((cache.entries.insertionSort listedBefore).take limit) listed := by
  unfold listPolicyDocuments at h
  rw [Method.run_ofExcept_bind] at h
  split at h
  · rw [Method.run_reading, Prod.mk.injEq] at h
    exact ⟨h.2.symm, mapM_eq_ok.mp h.1⟩
  · cases h

theorem Listed.of_run {cache cache' : PolicyCache} {limit : Nat} {listed : List ListedPolicy}
    (h : (listPolicyDocuments limit).run cache = (.ok listed, cache')) :
    ∀ cached ∈ listed, Listed cache cached := by
  obtain ⟨-, hlisted⟩ := listed_of_run h
  intro cached hcached
  obtain ⟨entry, hentry, hrow⟩ := exists_of_mem_right hlisted hcached
  obtain ⟨hidentity, hchecksum, hdocument, hsource, hactive, hassigned⟩ := listedRow_ok hrow
  have hmem : entry ∈ cache.entries :=
    (List.mem_insertionSort _).mp (List.mem_of_mem_take hentry)
  refine ⟨entry.2, ?_, hchecksum.symm, hdocument, hsource.symm, hactive.symm, hassigned.symm⟩
  rw [hidentity]
  exact Dict.mem_entries_iff.mp hmem

theorem nodup_listed {cache cache' : PolicyCache} {limit : Nat} {listed : List ListedPolicy}
    (h : (listPolicyDocuments limit).run cache = (.ok listed, cache')) :
    (listed.map ListedPolicy.identity).Nodup := by
  obtain ⟨-, hlisted⟩ := listed_of_run h
  have hidentities : ∀ {entries : List (PolicyIdentity × PolicyRow)} {listed : List ListedPolicy},
      List.Forall₂ (fun entry cached => listedRow entry = .ok cached) entries listed →
        listed.map ListedPolicy.identity = entries.map Prod.fst := by
    intro entries listed hrows
    induction hrows with
    | nil => rfl
    | cons hrow _ ih => rw [List.map_cons, List.map_cons, ih, (listedRow_ok hrow).1]
  have hperm := (List.perm_insertionSort listedBefore cache.entries).map Prod.fst
  rw [hidentities hlisted]
  exact (hperm.nodup_iff.mpr cache.nodup).sublist ((List.take_sublist _ _).map Prod.fst)

/-- A sound cache can be listed. -/
theorem SoundCache.list_ok {cache : PolicyCache} (h : SoundCache rt cache) :
    ∃ listed, (listPolicyDocuments 10000).run cache = (.ok listed, cache) := by
  have hall : ∀ entries : List (PolicyIdentity × PolicyRow), (∀ e ∈ entries, e ∈ cache.entries) →
      ∃ listed, entries.mapM listedRow = .ok listed := by
    intro entries
    induction entries with
    | nil => exact fun _ => ⟨[], rfl⟩
    | cons e entries ih =>
      intro hmem
      obtain ⟨listed, hlisted⟩ := ih fun e' he' => hmem e' (List.mem_cons_of_mem _ he')
      obtain ⟨document, hdocument, -⟩ :=
        h.sealed e.1 e.2 (Dict.mem_entries_iff.mp (hmem e List.mem_cons_self))
      rw [Json.sortKeys] at hdocument
      rw [List.mapM_cons, listedRow, hdocument, hlisted]
      exact ⟨_, rfl⟩
  obtain ⟨listed, hlisted⟩ := hall ((cache.entries.insertionSort listedBefore).take 10000)
    fun e he => (List.mem_insertionSort _).mp (List.mem_of_mem_take he)
  refine ⟨listed, ?_⟩
  rw [listPolicyDocuments, Method.run_ofExcept_bind]
  show (((cache.entries.insertionSort listedBefore).take 10000).mapM listedRow, cache) = _
  rw [hlisted]

instance : Std.Total listedBefore where
  total a b := by
    have hdates := le_total a.2.receivedAt b.2.receivedAt
    unfold listedBefore
    cases a.2.active <;> cases b.2.active <;> simp [hdates.symm]

instance : IsTrans (PolicyIdentity × PolicyRow) listedBefore where
  trans a b c hab hbc := by
    unfold listedBefore at *
    obtain ⟨ha, hb⟩ | ⟨hab, hdate⟩ := hab
    · obtain ⟨hb', -⟩ | ⟨hbc, -⟩ := hbc
      · rw [hb] at hb'; cases hb'
      · exact Or.inl ⟨ha, hbc.symm.trans hb⟩
    · obtain ⟨hb, hc⟩ | ⟨hbc, hdate'⟩ := hbc
      · exact Or.inl ⟨hab.trans hb, hc⟩
      · exact Or.inr ⟨hab.trans hbc, hdate'.trans hdate⟩

/-- The active document is among those that are listed, however many there are. -/
theorem SoundCache.active_listed {cache cache' : PolicyCache} (h : SoundCache rt cache)
    {limit : Nat} {listed : List ListedPolicy} {identity : PolicyIdentity} {row : PolicyRow}
    (hlist : (listPolicyDocuments limit).run cache = (.ok listed, cache')) (hlimit : 0 < limit)
    (hrow : cache.get? identity = some row) (hactive : row.active = true) :
    ∃ cached ∈ listed, cached.identity = identity ∧ cached.active = true := by
  obtain ⟨-, hlisted⟩ := listed_of_run hlist
  have hmem : (identity, row) ∈ cache.entries.insertionSort listedBefore :=
    (List.mem_insertionSort _).mpr (Dict.mem_entries_iff.mpr hrow)
  have hfirst : (identity, row) ∈ (cache.entries.insertionSort listedBefore).take limit := by
    have hsorted := List.pairwise_insertionSort listedBefore cache.entries
    rcases hentries : cache.entries.insertionSort listedBefore with _ | ⟨first, rest⟩
    · rw [hentries] at hmem; cases hmem
    · rw [hentries] at hmem hsorted
      obtain ⟨n, rfl⟩ : ∃ n, limit = n + 1 := ⟨limit - 1, by omega⟩
      obtain rfl | hrest := List.mem_cons.mp hmem
      · exact List.mem_cons_self
      · -- Only an active row is before an active one.
        have hfirstOn : first.2.active = true := by
          obtain ⟨-, hoff⟩ | ⟨hsame, -⟩ := (List.pairwise_cons.mp hsorted).1 _ hrest
          · rw [hactive] at hoff; cases hoff
          · exact hsame.trans hactive
        have hfirstRow : cache.get? first.1 = some first.2 := by
          refine Dict.mem_entries_iff.mp ((List.mem_insertionSort listedBefore).mp ?_)
          rw [hentries]
          exact List.mem_cons_self
        have hidentity := h.oneActive first.1 first.2 identity row hfirstRow hrow hfirstOn hactive
        subst hidentity
        rw [hfirstRow, Option.some.injEq] at hrow
        subst hrow
        exact List.mem_cons_self
  obtain ⟨cached, hcached, hlistedRow⟩ := exists_of_mem_left hlisted hfirst
  obtain ⟨hidentity, -, -, -, hon, -⟩ := listedRow_ok hlistedRow
  exact ⟨cached, hcached, hidentity, hon.trans hactive⟩

/-- A row of a sound cache can be rewritten in its canonical form. -/
theorem SoundCache.migrate_ok {cache : PolicyCache} (h : SoundCache rt cache)
    {identity : PolicyIdentity} {row : PolicyRow} (hrow : cache.get? identity = some row)
    (document : JsonObject) :
    (migratePolicyDocument rt identity.1 identity.2 row.checksum
      (Json.canonicalSha256 rt (.obj document)) document).run cache =
        (.ok (), cache.set identity { row with
          checksum := Json.canonicalSha256 rt (.obj document)
          document := Json.sortKeys (.obj document) }) := by
  obtain ⟨stored, hstored, hchecksum⟩ := h.sealed identity row hrow
  have hdigest : ∀ v, isHexDigest (Json.canonicalSha256 rt v) = true :=
    fun v => rt.hashText_digest _
  unfold migratePolicyDocument
  rw [Method.run_ofExcept_bind, h.clean identity row hrow]
  dsimp only
  rw [Method.run_ofExcept_bind, hchecksum, cleanIdentifier_digest (hdigest _)]
  dsimp only
  rw [Method.run_ofExcept_bind, cleanIdentifier_digest (hdigest _)]
  dsimp only
  rw [Method.run_ofExcept_bind, raiseIf, if_neg (not_not.mpr rfl)]
  dsimp only
  rw [Method.run_reading_bind, hrow]
  dsimp only
  rw [Method.run_ofExcept_bind, raiseIf, if_neg]
  · rfl
  · rw [hstored, canonicalSha256_sortKeys]
    exact fun hne => hne.elim (fun hne => hne hchecksum) (fun hne => hne rfl)

end OsScanner.Storage

import Mathlib
import OsScanner.Storage.UploadQueue

/-!
# What a call does to the queue

Every call of the upload queue changes the rows in one of five ways: it moves rows through
their delivery states, adds an upload at the end of its group, replaces a claimed upload by one
that is there already or by a new recovery upload, or deletes uploads that were delivered. The
results about runs read these structures and not the methods.
-/

namespace OsScanner.Storage

open Lib Lib.Check

/-! ## Stored metadata -/

theorem truthy_sortKeys (v : Json) : truthy (Json.sortKeys v) = truthy v := by
  cases v with
  | arr items => cases items <;> simp [Json.sortKeys, Json.sortItems, truthy]
  | obj fields =>
    have hnil : (Json.sortFields fields).insertionSort Json.keyLe = [] ↔ fields = [] := by
      rw [← List.length_eq_zero_iff, List.length_insertionSort, Json.sortFields_eq,
        List.length_map, List.length_eq_zero_iff]
    simp [Json.sortKeys, truthy, hnil]
  | _ => rfl

theorem get_storedObject (fields : JsonObject) (name : String) :
    (storedObject fields).get name = Json.sortKeys (fields.get name) := by
  unfold JsonObject.get storedObject
  simp only [Json.sortKeys]
  rw [Json.lookup_sortedFields]
  cases Assoc.lookup name fields <;> rfl

theorem get_set_ne {name name' : String} (h : name ≠ name') (fields : JsonObject) (value : Json) :
    (fields.set name value).get name' = fields.get name' := by
  unfold JsonObject.get JsonObject.set
  rw [Assoc.lookup_insert, if_neg h]

theorem get_set_self (fields : JsonObject) (name : String) (value : Json) :
    (fields.set name value).get name = value := by
  unfold JsonObject.get JsonObject.set
  rw [Assoc.lookup_insert, if_pos rfl]
  rfl

/-- The mark of a recovery upload. -/
def UploadRow.isRecovery (row : UploadRow) : Bool := truthy (row.metadata.get "causal_recovery")

/-! ## Rows without a group

`enqueue_upload` gives a group to every upload of a causal kind, so there is nothing to fill in.
-/

theorem char_lt_128 {P : Char → Prop} (h : ∀ n < 128, P (Char.ofNat n)) (c : Char)
    (hc : c.toNat < 128) : P c := by
  have hP := h c.toNat hc
  rwa [Char.ofNat_toNat] at hP

theorem causalUploadKinds_ascii {kind : String} (h : kind ∈ causalUploadKinds) :
    ∀ c ∈ kind.toList, c.toNat < 128 := by
  unfold causalUploadKinds at h
  simp only [List.mem_cons, List.not_mem_nil, or_false] at h
  have hall : ∀ text : String, text.toList.all (fun c => decide (c.toNat < 128)) = true →
      ∀ c ∈ text.toList, c.toNat < 128 := fun text htext c hc =>
    of_decide_eq_true (List.all_eq_true.mp htext c hc)
  rcases h with rfl | rfl | rfl <;> exact hall _ (by decide)

/-- A text whose lowered form is ASCII is ASCII: the other characters have no lower form. -/
theorem ascii_of_sqlNormalizedKind {kind : String} (h : sqlNormalizedKind kind ∈ causalUploadKinds) :
    ∀ c ∈ kind.toList, c.toNat < 128 := by
  intro c hc
  by_contra hlarge
  have hu : c ≠ '_' := by
    rintro rfl
    exact hlarge (by decide)
  have hlower : c.toLower = c := by
    unfold Char.toLower
    rw [dif_neg]
    rintro ⟨-, h₂⟩
    exact hlarge (lt_of_le_of_lt (UInt32.le_iff_toNat_le.mp h₂) (by decide))
  have hmem : c ∈ (sqlNormalizedKind kind).toList := by
    unfold sqlNormalizedKind replaceUnderscores
    simp only [String.toList_ofList, List.map_map, List.mem_map, Function.comp_apply]
    exact ⟨c, hc, by rw [if_neg hu, hlower]⟩
  exact hlarge (causalUploadKinds_ascii h c hmem)

/-- On ASCII texts Python and SQLite normalize a kind alike. -/
theorem normalizedKind_of_ascii {rt : Runtime} {kind : String} (hstrip : strip kind = kind)
    (h : ∀ c ∈ kind.toList, c.toNat < 128) : normalizedKind rt kind = sqlNormalizedKind kind := by
  unfold normalizedKind sqlNormalizedKind replaceUnderscores
  rw [hstrip, rt.casefold_ascii kind h]
  simp only [String.toList_ofList, List.map_map]
  congr 1
  refine List.map_congr_left fun c hc => ?_
  exact char_lt_128 (P := fun c => ((fun c => if c = '_' then '-' else c) ∘ Char.toLower) c =
    (Char.toLower ∘ fun c => if c = '_' then '-' else c) c) (by decide) c (h c hc)

/-- No row waits for its causal links. -/
def CausallyLinked (uploads : Table UploadRow) : Prop :=
  ∀ id row, uploads.get? id = some row → row.causalGroup = none →
    sqlNormalizedKind row.kind ∉ causalUploadKinds

theorem backfillCausalLinks_of_linked {rt : Runtime} {db : Database}
    (h : CausallyLinked db.uploads) : backfillCausalLinks rt db = db := by
  have hselect : (db.uploads.select fun _ row =>
      decide (row.causalGroup = none ∧ sqlNormalizedKind row.kind ∈ causalUploadKinds)) = [] := by
    rw [List.eq_nil_iff_forall_not_mem]
    rintro ⟨id, row⟩ he
    rw [Table.mem_select, decide_eq_true_eq] at he
    exact h id row he.1 he.2.1 he.2.2
  unfold backfillCausalLinks
  rw [hselect]
  rfl

/-! ## The changes -/

/-- A row moves through its delivery states; its place in the queue stays. -/
structure Moves (t : Table UploadRow) (row row' : UploadRow) : Prop where
  kind : row'.kind = row.kind
  payload : row'.payload = row.payload
  idempotencyKey : row'.idempotencyKey = row.idempotencyKey
  causalGroup : row'.causalGroup = row.causalGroup
  predecessor : row'.predecessorUploadId = row.predecessorUploadId
  superseded : row'.supersededByUploadId = row.supersededByUploadId
  resyncFor : row'.resyncForUploadId = row.resyncForUploadId
  isRecovery : row'.isRecovery = row.isRecovery
  succeeded : row.status = .succeeded → row'.status = .succeeded
  /-- What was superseded is not tried again. -/
  buried : row.status = .dead → row.supersededByUploadId ≠ none → row'.status = .dead
  /-- What leaves `PENDING` has its predecessor delivered. -/
  started : row'.status ≠ .pending → row.status ≠ .pending ∨ predecessorDelivered t row = true

/-- A new upload of a group waits for the newest one. -/
structure Appended (t : Table UploadRow) (row : UploadRow) : Prop where
  linked : row.causalGroup = none → sqlNormalizedKind row.kind ∉ causalUploadKinds
  pending : row.status = .pending
  predecessor : row.predecessorUploadId =
    row.causalGroup.bind fun g => (newestUpload t g).map Prod.fst
  superseded : row.supersededByUploadId = none
  resyncFor : row.resyncForUploadId = none

/-- An upload that is in flight is given up for another one. -/
structure Supersedes (row : UploadRow) (recoveryId : Nat) (row' : UploadRow) : Prop where
  inFlight : row.status = .inFlight
  original : row.isRecovery = false
  status : row'.status = .dead
  kind : row'.kind = row.kind
  payload : row'.payload = row.payload
  idempotencyKey : row'.idempotencyKey = row.idempotencyKey
  causalGroup : row'.causalGroup = row.causalGroup
  predecessor : row'.predecessorUploadId = row.predecessorUploadId
  superseded : row'.supersededByUploadId = some recoveryId
  resyncFor : row'.resyncForUploadId = row.resyncForUploadId
  isRecovery : row'.isRecovery = row.isRecovery

/-- A recovery upload takes the place of the upload that it replaces. -/
structure Recovers (row : UploadRow) (id : Nat) (recovery : UploadRow) : Prop where
  kind : sqlNormalizedKind recovery.kind ∉ causalUploadKinds
  pending : recovery.status = .pending
  causalGroup : recovery.causalGroup = row.causalGroup
  predecessor : recovery.predecessorUploadId = row.predecessorUploadId
  superseded : recovery.supersededByUploadId = none
  resyncFor : recovery.resyncForUploadId = some id
  isRecovery : recovery.isRecovery = true

/-- Only delivered uploads are deleted, and none that a remaining upload counts on. -/
structure Deletes (t : Table UploadRow) (deleted : List Nat) : Prop where
  delivered : ∀ id ∈ deleted, ∃ row, t.get? id = some row ∧ delivered t row = true
  unused : ∀ id ∈ deleted, ∀ row, t.get? id = some row →
    row.status = .succeeded ∨ (row.status = .dead ∧ row.supersededByUploadId ≠ none)
  links : ∀ id row, t.get? id = some row → id ∉ deleted → ∀ r ∈ deleted, ∀ replacement,
    row.supersededByUploadId = some r → t.get? r = some replacement →
      replacement.status ≠ .succeeded

theorem Moves.refl (t : Table UploadRow) (row : UploadRow) : Moves t row row :=
  ⟨rfl, rfl, rfl, rfl, rfl, rfl, rfl, rfl, id, fun h _ => h, Or.inl⟩

/-! ## Enqueueing -/

theorem checkUpload_eq_ok {rt : Runtime} {request : UploadRequest} {uuid : String}
    {fields : UploadFields} (h : checkUpload rt request uuid = .ok fields) :
    fields.kind = strip request.kind ∧ fields.idempotencyKey = strip request.idempotencyKey := by
  simp only [checkUpload, bind_eq_ok, cleanIdentifier_eq_ok] at h
  obtain ⟨kind, ⟨_, hk, rfl, -⟩, key, ⟨_, hkey, rfl, -⟩, _, -, _, -, _, -, _, -, _, -, _, -, h⟩ := h
  cases hk
  cases hkey
  cases h
  exact ⟨rfl, rfl⟩

/-- The group that a request is put into. -/
def requestGroup (rt : Runtime) (request : UploadRequest) : Option String :=
  causalGroup rt (strip request.kind) request.metadata request.payload

theorem not_causal_of_group_none {rt : Runtime} {kind : String} {metadata : JsonObject}
    {payload : Payload} (hstrip : strip kind = kind)
    (h : causalGroup rt kind metadata payload = none) :
    sqlNormalizedKind kind ∉ causalUploadKinds := by
  intro hsql
  have hkind := @normalizedKind_of_ascii rt _ hstrip (ascii_of_sqlNormalizedKind hsql)
  unfold causalGroup at h
  rw [hkind, if_pos hsql] at h
  cases h

/-- `enqueue_upload` finds the upload with this key, or appends one. -/
theorem enqueueUpload_eq_ok {rt : Runtime} {request : UploadRequest} {uuid : String} {now : ℚ}
    {db db' : Database} {result : EnqueueResult} (hlinked : CausallyLinked db.uploads)
    (h : enqueueUpload rt request uuid now db = .ok (result, db')) :
    (∃ row, uploadWithKey db (strip request.idempotencyKey) = some (result.uploadId, row) ∧
        row.payloadHash = request.payload.hash rt ∧ result.created = false ∧ db' = db) ∨
      (uploadWithKey db (strip request.idempotencyKey) = none ∧
        result = ⟨db.uploads.nextId, true⟩ ∧
        ∃ fields, checkUpload rt request uuid = .ok fields ∧
          db' = { db with uploads := db.uploads.insert (newUpload rt request fields now
            (requestGroup rt request) ((requestGroup rt request).bind fun g =>
              (newestUpload db.uploads g).map Prod.fst)) }) := by
  unfold enqueueUpload at h
  simp only [backfillCausalLinks_of_linked hlinked, bind_eq_ok] at h
  obtain ⟨fields, hfields, h⟩ := h
  obtain ⟨hkind, hkey⟩ := checkUpload_eq_ok hfields
  have hgroup : causalGroup rt fields.kind request.metadata request.payload =
      requestGroup rt request := by
    rw [hkind, requestGroup]
  rw [hgroup, hkey] at h
  split at h
  · rename_i uploadId existing hfound
    simp only [bind_unit_eq_ok, raiseIf_eq_ok, Except.ok.injEq, Prod.mk.injEq] at h
    obtain ⟨hsame, rfl, rfl⟩ := h
    simp only [ne_eq, Prod.mk.injEq, not_not] at hsame
    exact Or.inl ⟨existing, hfound, hsame.2.2.2.1, rfl, rfl⟩
  · rename_i hnone
    simp only [Except.ok.injEq, Prod.mk.injEq] at h
    obtain ⟨rfl, rfl⟩ := h
    exact Or.inr ⟨hnone, rfl, fields, hfields, rfl⟩

theorem appended_newUpload {rt : Runtime} {request : UploadRequest} {uuid : String}
    {fields : UploadFields} {now : ℚ} {t : Table UploadRow}
    (h : checkUpload rt request uuid = .ok fields) :
    Appended t (newUpload rt request fields now (requestGroup rt request)
      ((requestGroup rt request).bind fun g => (newestUpload t g).map Prod.fst)) where
  linked hnone := by
    have hkind := (checkUpload_eq_ok h).1
    show sqlNormalizedKind fields.kind ∉ causalUploadKinds
    rw [hkind]
    exact not_causal_of_group_none (strip_strip _) hnone
  pending := rfl
  predecessor := rfl
  superseded := rfl
  resyncFor := rfl

/-! ## Claiming -/

theorem moves_expireLease (t : Table UploadRow) (current : ℚ) (row : UploadRow) :
    Moves t row (expireLease current row) := by
  unfold expireLease
  split
  · rename_i hexpired
    have hflight : row.status = .inFlight := by
      unfold leaseExpired at hexpired
      simp only [Bool.and_eq_true, decide_eq_true_eq] at hexpired
      exact hexpired.1
    split
    all_goals
      refine ⟨rfl, rfl, rfl, rfl, rfl, rfl, rfl, rfl, ?_, ?_, ?_⟩ <;> simp [hflight]
  · exact Moves.refl t row

theorem moves_leaseUpload {t : Table UploadRow} {current leaseSeconds : ℚ} {leaseToken : String}
    {row : UploadRow} (hstatus : row.status = .pending)
    (hpredecessor : predecessorDelivered t row = true) :
    Moves t row (leaseUpload current leaseSeconds leaseToken row) := by
  refine ⟨rfl, rfl, rfl, rfl, rfl, rfl, rfl, rfl, ?_, ?_, fun _ => Or.inr hpredecessor⟩ <;>
    simp [hstatus]

theorem Moves.trans {t : Table UploadRow} {row row' row'' : UploadRow} (h : Moves t row row')
    (h' : Moves t row' row'') : Moves t row row'' where
  kind := h'.kind.trans h.kind
  payload := h'.payload.trans h.payload
  idempotencyKey := h'.idempotencyKey.trans h.idempotencyKey
  causalGroup := h'.causalGroup.trans h.causalGroup
  predecessor := h'.predecessor.trans h.predecessor
  superseded := h'.superseded.trans h.superseded
  resyncFor := h'.resyncFor.trans h.resyncFor
  isRecovery := h'.isRecovery.trans h.isRecovery
  succeeded hs := h'.succeeded (h.succeeded hs)
  buried hd hs := h'.buried (h.buried hd hs) (h.superseded.symm ▸ hs)
  started hp := by
    rcases h'.started hp with hr | hr
    · exact h.started hr
    · refine Or.inr ?_
      unfold predecessorDelivered at hr ⊢
      rw [h.predecessor] at hr
      exact hr

/-- What is delivered does not depend on how far the other rows have moved. -/
theorem delivered_update {t : Table UploadRow} {f : Nat → UploadRow → UploadRow}
    (h : ∀ id row, t.get? id = some row →
      ((f id row).status = .succeeded ↔ row.status = .succeeded))
    {row row' : UploadRow} (hstatus : row'.status = .succeeded ↔ row.status = .succeeded)
    (hlink : row'.supersededByUploadId = row.supersededByUploadId) :
    delivered (t.update f) row' = delivered t row := by
  unfold delivered
  rw [hlink, decide_eq_decide.mpr hstatus]
  congr 1
  cases row.supersededByUploadId with
  | none => rfl
  | some r =>
    simp only [Option.bind_some, Table.get?_update]
    cases hr : t.get? r with
    | none => rfl
    | some replacement => simp [h r replacement hr]

theorem expireLease_succeeded (current : ℚ) (row : UploadRow) :
    (expireLease current row).status = .succeeded ↔ row.status = .succeeded := by
  unfold expireLease
  split
  · rename_i hexpired
    have hflight : row.status = .inFlight := by
      unfold leaseExpired at hexpired
      simp only [Bool.and_eq_true, decide_eq_true_eq] at hexpired
      exact hexpired.1
    split <;> simp [hflight]
  · exact Iff.rfl

theorem predecessorDelivered_expired (t : Table UploadRow) (current : ℚ) (row : UploadRow) :
    predecessorDelivered (t.update fun _ row => expireLease current row) row =
      predecessorDelivered t row := by
  unfold predecessorDelivered
  cases row.predecessorUploadId with
  | none => rfl
  | some predecessor =>
    simp only [Table.get?_update]
    cases hp : t.get? predecessor with
    | none => rfl
    | some prow =>
      simp only [Option.map_some, Option.any_some]
      refine delivered_update (fun _ _ _ => expireLease_succeeded _ _)
        (expireLease_succeeded _ _) ?_
      exact (moves_expireLease t current prow).superseded

theorem mem_claimedRows {uploads : Table UploadRow} {current : ℚ} {limit id : Nat}
    {row : UploadRow} (h : (id, row) ∈ claimedRows uploads current limit) :
    uploads.get? id = some row ∧ claimable uploads current row = true := by
  unfold claimedRows at h
  have hmem := List.mem_of_mem_take h
  rw [List.mem_insertionSort] at hmem
  exact Table.mem_select.mp hmem

theorem claimable_iff {uploads : Table UploadRow} {current : ℚ} {row : UploadRow} :
    claimable uploads current row = true ↔ row.status = .pending ∧ row.nextAttemptAt ≤ current ∧
      row.attemptCount < row.maxAttempts ∧ predecessorDelivered uploads row = true := by
  simp [claimable, and_assoc]

/-- What one call claims: rows whose lease is over or that wait with their predecessor delivered. -/
theorem claimUploads_eq_ok {rt : Runtime} {limit : Int} {leaseSeconds current : ℚ}
    {leaseToken : Nat → String} {db db' : Database} {leases : List QueuedUpload}
    (hlinked : CausallyLinked db.uploads)
    (h : claimUploads rt limit leaseSeconds current leaseToken db = .ok (leases, db')) :
    (∃ f, (∀ id row, db.uploads.get? id = some row → Moves db.uploads row (f id row)) ∧
        db' = { db with uploads := db.uploads.update f }) ∧
      ∀ lease ∈ leases, ∃ row, db.uploads.get? lease.uploadId = some row ∧
        predecessorDelivered db.uploads row = true := by
  unfold claimUploads at h
  simp only [backfillCausalLinks_of_linked hlinked, bind_unit_eq_ok, Except.ok.injEq,
    Prod.mk.injEq] at h
  obtain ⟨-, -, rfl, rfl⟩ := h
  set expired := db.uploads.update fun _ row => expireLease current row with hexpired
  set rows := claimedRows expired current limit.toNat with hrows
  -- A claimed row was there before its lease was looked at.
  have hclaimed : ∀ id row, (id, row) ∈ rows → ∃ before, db.uploads.get? id = some before ∧
      row = expireLease current before ∧ row.status = .pending ∧
      predecessorDelivered db.uploads row = true := by
    intro id row hmem
    obtain ⟨hget, hclaimable⟩ := mem_claimedRows hmem
    rw [hexpired, Table.get?_update, Option.map_eq_some_iff] at hget
    obtain ⟨before, hbefore, rfl⟩ := hget
    obtain ⟨hpending, -, -, hpredecessor⟩ := claimable_iff.mp hclaimable
    rw [hexpired, predecessorDelivered_expired] at hpredecessor
    exact ⟨before, hbefore, rfl, hpending, hpredecessor⟩
  refine ⟨⟨fun id row => if id ∈ rows.map Prod.fst then
      leaseUpload current leaseSeconds (leaseToken id) (expireLease current row)
      else expireLease current row, fun id row hrow => ?_, ?_⟩, fun lease hlease => ?_⟩
  · have hmoved := moves_expireLease db.uploads current row
    dsimp only
    split
    · rename_i hid
      obtain ⟨⟨_, claimed⟩, hmem, rfl⟩ := List.mem_map.mp hid
      obtain ⟨before, hbefore, rfl, hpending, hpredecessor⟩ := hclaimed _ _ hmem
      have hsame : before = row := Option.some.inj (hbefore.symm.trans hrow)
      subst hsame
      exact hmoved.trans (moves_leaseUpload hpending hpredecessor)
    · exact hmoved
  · congr 1
    rw [hexpired]
    unfold Table.update
    simp only [List.map_map, Function.comp_def]
  · obtain ⟨⟨id, row⟩, hmem, rfl⟩ := List.mem_map.mp hlease
    obtain ⟨before, hbefore, rfl, -, hpredecessor⟩ := hclaimed _ _ hmem
    refine ⟨before, hbefore, ?_⟩
    unfold predecessorDelivered at hpredecessor ⊢
    rwa [(moves_expireLease db.uploads current before).predecessor] at hpredecessor

/-! ## Outcomes of a delivery -/

theorem leasedUpload_eq_some {db : Database} {uploadId : Nat} {leaseToken : String}
    {row : UploadRow} (h : leasedUpload db uploadId leaseToken = some row) :
    db.uploads.get? uploadId = some row ∧ row.status = .inFlight ∧
      row.leaseToken = some leaseToken := by
  unfold leasedUpload at h
  rw [Option.filter_eq_some_iff, decide_eq_true_eq] at h
  exact h

/-- The upload of a lease that is held succeeds; without the lease nothing happens. -/
theorem markUploadSucceeded_eq_ok {uploadId : Nat} {leaseToken deliveredAt : String}
    {db db' : Database} {done : Bool}
    (h : markUploadSucceeded uploadId leaseToken deliveredAt db = .ok (done, db')) :
    (done = false ∧ db' = db) ∨
      (done = true ∧ (∃ row, leasedUpload db uploadId (strip leaseToken) = some row) ∧
        ∃ f, db' = { db with uploads := db.uploads.modify uploadId f } ∧
          ∀ row, row.status = .inFlight → (f row).status = .succeeded ∧
            Moves db.uploads row (f row)) := by
  unfold markUploadSucceeded at h
  simp only [bind_eq_ok, cleanIdentifier_eq_ok] at h
  obtain ⟨_, ⟨_, htoken, rfl, -⟩, h⟩ := h
  cases htoken
  split at h
  · simp only [Except.ok.injEq, Prod.mk.injEq] at h
    exact Or.inl ⟨h.1.symm, h.2.symm⟩
  · rename_i row hlease
    simp only [Except.ok.injEq, Prod.mk.injEq] at h
    refine Or.inr ⟨h.1.symm, ⟨row, hlease⟩, _, h.2.symm, fun row hflight => ⟨rfl, ?_⟩⟩
    refine ⟨rfl, rfl, rfl, rfl, rfl, rfl, rfl, rfl, ?_, ?_, ?_⟩ <;> simp [hflight]

theorem markUploadFailed_eq_ok {rt : Runtime} {uploadId : Nat} {leaseToken : String}
    {failure : UploadFailure} {current : ℚ} {db db' : Database} {status : UploadStatus}
    (h : markUploadFailed rt uploadId leaseToken failure current db = .ok (status, db')) :
    (∃ row, leasedUpload db uploadId (strip leaseToken) = some row) ∧
      ∃ f, db' = { db with uploads := db.uploads.modify uploadId f } ∧
        ∀ row, row.status = .inFlight → (f row).status = status ∧ status ≠ .succeeded ∧
          Moves db.uploads row (f row) := by
  unfold markUploadFailed at h
  simp only [bind_eq_ok, cleanIdentifier_eq_ok] at h
  obtain ⟨_, ⟨_, htoken, rfl, -⟩, h⟩ := h
  cases htoken
  split at h
  · cases h
  · rename_i row hlease
    simp only [bind_eq_ok, Except.ok.injEq, Prod.mk.injEq] at h
    obtain ⟨nextAttemptAt, -, rfl, rfl⟩ := h
    refine ⟨⟨row, hlease⟩, _, rfl, fun row hflight => ⟨rfl, ?_, ?_⟩⟩
    · split <;> simp
    · refine ⟨rfl, rfl, rfl, rfl, rfl, rfl, rfl, rfl, ?_, ?_, ?_⟩ <;> simp [hflight]

/-! ## Recovery -/

theorem isRecovery_recoveryUpload (rt : Runtime) (row : UploadRow) (uploadId : Nat)
    (payload : JsonObject) (idempotencyKey uuid snapshotHash : String) (current : ℚ) :
    (recoveryUpload rt row uploadId payload idempotencyKey uuid snapshotHash current).isRecovery =
      true := by
  unfold UploadRow.isRecovery recoveryUpload
  simp only [get_storedObject, truthy_sortKeys]
  unfold recoveryMetadata
  rw [get_set_ne (by decide), get_set_ne (by decide), get_set_self]
  rfl

theorem recovers_recoveryUpload (rt : Runtime) (row : UploadRow) (uploadId : Nat)
    (payload : JsonObject) (idempotencyKey uuid snapshotHash : String) (current : ℚ) :
    Recovers row uploadId
      (recoveryUpload rt row uploadId payload idempotencyKey uuid snapshotHash current) :=
  have hkind : sqlNormalizedKind "inventory_full_resync" ∉ causalUploadKinds := by decide
  ⟨hkind, rfl, rfl, rfl, rfl, rfl, isRecovery_recoveryUpload _ _ _ _ _ _ _ _⟩

/-- Only an original upload is recovered, from the stored snapshot of its scan. -/
theorem recoveryFor_eq_ok {rt : Runtime} {row recovery : UploadRow} {uploadId : Nat}
    {uuid : String} {current : ℚ} {db : Database}
    (h : recoveryFor rt row uploadId uuid current db = .ok recovery) :
    row.isRecovery = false ∧ ∃ original sync scanId snapshotRow snapshot,
      row.payload.parse = some (.obj original) ∧ inventorySyncOf original = .ok sync ∧
      resyncScanId row.metadata sync = .ok scanId ∧
      storedSnapshot db scanId = some (snapshotRow, snapshot) ∧
      recovery = recoveryUpload rt row uploadId
        (recoveryPayload original (fullSync snapshotRow snapshot))
        (recoveryKey rt snapshotRow scanId) uuid snapshotRow.payloadHash current := by
  unfold recoveryFor at h
  simp only [bind_unit_eq_ok, raiseIf_eq_ok, Bool.not_eq_true] at h
  obtain ⟨hflag, h⟩ := h
  refine ⟨hflag, ?_⟩
  split at h
  · cases h
  · rename_i original hparse
    simp only [bind_eq_ok] at h
    obtain ⟨sync, hsync, scanId, hscan, h⟩ := h
    split at h
    · cases h
    · rename_i snapshotRow snapshot hstored
      exact ⟨original, sync, scanId, snapshotRow, snapshot, hparse, hsync, hscan, hstored,
        (Except.ok.inj h).symm⟩
  · cases h

/-- The rejected upload is dead and names the upload that replaces it. -/
theorem scheduleFullResync_eq_ok {rt : Runtime} {uploadId : Nat} {leaseToken error uuid : String}
    {current : ℚ} {db db' : Database} {result : EnqueueResult}
    (h : scheduleFullResync rt uploadId leaseToken error uuid current db = .ok (result, db')) :
    ∃ row recovery f, leasedUpload db uploadId (strip leaseToken) = some row ∧
      recoveryFor rt row uploadId uuid current db = .ok recovery ∧
      Supersedes row result.uploadId (f row) ∧
      ((∃ existing, uploadWithKey db recovery.idempotencyKey = some (result.uploadId, existing) ∧
          existing.payloadHash = recovery.payloadHash ∧
          db' = { db with uploads := db.uploads.modify uploadId f }) ∨
        (uploadWithKey db recovery.idempotencyKey = none ∧ result.uploadId = db.uploads.nextId ∧
          db' = { db with uploads := (db.uploads.insert recovery).modify uploadId f })) := by
  unfold scheduleFullResync at h
  simp only [bind_eq_ok, cleanIdentifier_eq_ok] at h
  obtain ⟨_, ⟨_, htoken, rfl, -⟩, h⟩ := h
  cases htoken
  split at h
  · cases h
  · rename_i row hlease
    simp only [bind_eq_ok, Except.ok.injEq, Prod.mk.injEq] at h
    obtain ⟨recovery, hrecovery, ⟨result', db₁⟩, hwith, rfl, rfl⟩ := h
    have hflight := (leasedUpload_eq_some hlease).2.1
    have horiginal := (recoveryFor_eq_ok hrecovery).1
    refine ⟨row, recovery, fun row =>
        { row with
          status := .dead
          nextAttemptAt := current
          leaseToken := none
          leasedUntil := none
          lastError := some (cleanError rt error)
          supersededByUploadId := some result'.uploadId }, hlease, hrecovery,
      ⟨hflight, horiginal, rfl, rfl, rfl, rfl, rfl, rfl, rfl, rfl, rfl⟩, ?_⟩
    unfold recoverWith at hwith
    split at hwith
    · rename_i recoveryId existing hfound
      simp only [bind_unit_eq_ok, raiseIf_eq_ok, Except.ok.injEq, Prod.mk.injEq] at hwith
      obtain ⟨hsame, rfl, rfl⟩ := hwith
      simp only [ne_eq, Prod.mk.injEq, not_not] at hsame
      exact Or.inl ⟨existing, hfound, hsame.2.1, rfl⟩
    · rename_i hnone
      simp only [bind_unit_eq_ok, raiseIf_eq_ok, Except.ok.injEq, Prod.mk.injEq] at hwith
      obtain ⟨-, rfl, rfl⟩ := hwith
      exact Or.inr ⟨hnone, rfl, rfl⟩

/-- A dead letter without a replacement waits again, behind the same predecessor. -/
theorem requeueDeadUpload_eq_ok {rt : Runtime} {uploadId : Nat} {request : RequeueRequest}
    {recordedAt auditEventId : String} {current : ℚ} {db db' : Database} {result : Nat × String}
    (h : requeueDeadUpload rt uploadId request recordedAt auditEventId current db =
      .ok (result, db')) :
    ∃ row f auditLog, db.uploads.get? uploadId = some row ∧ row.status = .dead ∧
      row.supersededByUploadId = none ∧ Moves db.uploads row (f row) ∧
      db' = { db with uploads := db.uploads.modify uploadId f, auditLog := auditLog } := by
  unfold requeueDeadUpload at h
  simp only [bind_eq_ok] at h
  obtain ⟨operator, -, requestedReason, -, _, -, _, -, h⟩ := h
  split at h
  · cases h
  · rename_i row hrow
    simp only [bind_eq_ok, raiseIf_eq_ok, not_not, ne_eq, Except.ok.injEq, Prod.mk.injEq] at h
    obtain ⟨_, hdead, _, hlink, ⟨auditHash, db₁⟩, haudit, -, rfl⟩ := h
    obtain ⟨auditLog, hdb⟩ := recordAuditEvent_eq_ok haudit
    refine ⟨row, _, auditLog, hrow, hdead, hlink, ?_, hdb.trans (by dsimp only)⟩
    refine ⟨rfl, rfl, rfl, rfl, rfl, rfl, rfl, ?_, by simp [hdead], by simp [hlink],
      by simp [hdead]⟩
    unfold UploadRow.isRecovery
    simp only [get_storedObject, truthy_sortKeys]
    unfold requeuedMetadata
    rw [get_set_ne (by decide)]

/-! ## Purging -/

theorem get?_deleteUploads {deleted : List Nat} {t : Table UploadRow} {id : Nat} {row : UploadRow} :
    (deleteUploads deleted t).get? id = some row ↔ id ∉ deleted ∧ ∃ before, t.get? id = some before ∧
      row = { before with
        predecessorUploadId := keepLink deleted before.predecessorUploadId
        supersededByUploadId := keepLink deleted before.supersededByUploadId
        resyncForUploadId := keepLink deleted before.resyncForUploadId } := by
  unfold deleteUploads
  rw [Table.get?_update, Option.map_eq_some_iff]
  simp only [Table.get?_delete, decide_eq_false_iff_not]
  constructor
  · rintro ⟨before, ⟨hget, hid⟩, rfl⟩
    exact ⟨hid, before, hget, rfl⟩
  · rintro ⟨hid, before, hget, rfl⟩
    exact ⟨before, ⟨hget, hid⟩, rfl⟩

theorem keepLink_eq_some {deleted : List Nat} {link : Option Nat} {id : Nat} :
    keepLink deleted link = some id ↔ link = some id ∧ id ∉ deleted := by
  unfold keepLink
  rw [Option.filter_eq_some_iff, decide_eq_true_eq]

theorem keepLink_keepLink (first second : List Nat) (link : Option Nat) :
    keepLink second (keepLink first link) = keepLink (first ++ second) link := by
  refine Option.ext fun id => ?_
  simp only [keepLink_eq_some, List.mem_append, not_or, and_assoc]

/-- Deleting twice deletes both lists. -/
theorem deleteUploads_deleteUploads (first second : List Nat) (t : Table UploadRow) :
    deleteUploads second (deleteUploads first t) = deleteUploads (first ++ second) t := by
  unfold deleteUploads Table.update Table.delete
  simp only [Table.mk.injEq, and_true, List.filter_map, List.map_map, List.filter_filter]
  congr 1
  · funext e
    simp [keepLink_keepLink]
  · refine List.filter_congr fun e _ => ?_
    simp [List.mem_append, Bool.and_comm]

theorem mem_take_select {t : Table UploadRow} {p : Nat → UploadRow → Bool} {n id : Nat}
    (h : id ∈ ((t.select p).take n).map Prod.fst) :
    ∃ row, t.get? id = some row ∧ p id row = true := by
  obtain ⟨⟨_, row⟩, hmem, rfl⟩ := List.mem_map.mp h
  exact ⟨row, Table.mem_select.mp (List.mem_of_mem_take hmem)⟩

theorem purgeableOriginal_iff {t : Table UploadRow} {olderThan : String} {row : UploadRow}
    (h : purgeableOriginal t olderThan row = true) :
    row.status = .dead ∧ row.supersededByUploadId ≠ none ∧ delivered t row = true := by
  unfold purgeableOriginal at h
  simp only [Bool.and_eq_true, decide_eq_true_eq, Option.any_eq_true] at h
  obtain ⟨hdead, replacement, hlink, hreplacement, -⟩ := h
  refine ⟨hdead, ?_, ?_⟩
  · intro hnone
    rw [hnone] at hlink
    cases hlink
  · unfold delivered
    rw [hlink]
    simp [hreplacement]

theorem purgeableSucceeded_iff {t : Table UploadRow} {olderThan : String} {id : Nat}
    {row : UploadRow} (h : purgeableSucceeded t olderThan id row = true) :
    row.status = .succeeded ∧
      ∀ id' other, t.get? id' = some other → other.supersededByUploadId ≠ some id := by
  unfold purgeableSucceeded at h
  simp only [Bool.and_eq_true, decide_eq_true_eq, Option.isNone_iff_eq_none,
    Table.first?_eq_none, decide_eq_false_iff_not] at h
  exact ⟨h.1.1, h.2⟩

/-- The originals that are purged were replaced, so no delivery counts on them. -/
theorem deletes_originals {t : Table UploadRow} {olderThan : String} {n : Nat} :
    Deletes t (((t.select fun _ row => purgeableOriginal t olderThan row).take n).map Prod.fst) where
  delivered id hid := by
    obtain ⟨row, hrow, hp⟩ := mem_take_select hid
    exact ⟨row, hrow, (purgeableOriginal_iff hp).2.2⟩
  unused id hid row hrow := by
    obtain ⟨row', hrow', hp⟩ := mem_take_select hid
    cases hrow.symm.trans hrow'
    exact Or.inr ⟨(purgeableOriginal_iff hp).1, (purgeableOriginal_iff hp).2.1⟩
  links _ _ _ _ r hr replacement _ hreplacement := by
    obtain ⟨row', hrow', hp⟩ := mem_take_select hr
    cases hreplacement.symm.trans hrow'
    simp [(purgeableOriginal_iff hp).1]

theorem delivered_of_succeeded {t : Table UploadRow} {row : UploadRow}
    (h : row.status = .succeeded) : delivered t row = true := by
  simp [delivered, h]

/-- Delivered uploads that nothing was superseded by may follow the originals. -/
theorem Deletes.append {t : Table UploadRow} {originals : List Nat} (h : Deletes t originals)
    {olderThan : String} {n : Nat} :
    Deletes t (originals ++ (((deleteUploads originals t).select fun id row =>
      purgeableSucceeded (deleteUploads originals t) olderThan id row).take n).map Prod.fst) := by
  set second := (((deleteUploads originals t).select fun id row =>
      purgeableSucceeded (deleteUploads originals t) olderThan id row).take n).map Prod.fst
    with hsecond
  -- What the second statement deletes, in terms of the first table.
  have hfacts : ∀ id ∈ second, ∃ row, t.get? id = some row ∧ row.status = .succeeded ∧
      id ∉ originals ∧ ∀ id' other, t.get? id' = some other → id' ∉ originals →
        other.supersededByUploadId ≠ some id := by
    intro id hid
    obtain ⟨row, hrow, hp⟩ := mem_take_select hid
    obtain ⟨hkept, before, hbefore, rfl⟩ := get?_deleteUploads.mp hrow
    obtain ⟨hsucceeded, hunused⟩ := purgeableSucceeded_iff hp
    refine ⟨before, hbefore, hsucceeded, hkept, fun id' other hother hid' hlink => ?_⟩
    refine hunused id' _ (get?_deleteUploads.mpr ⟨hid', other, hother, rfl⟩) ?_
    exact keepLink_eq_some.mpr ⟨hlink, hkept⟩
  refine ⟨fun id hid => ?_, fun id hid row hrow => ?_, ?_⟩
  · rcases List.mem_append.mp hid with hid | hid
    · exact h.delivered id hid
    · obtain ⟨row, hrow, hs, -⟩ := hfacts id hid
      exact ⟨row, hrow, delivered_of_succeeded hs⟩
  · rcases List.mem_append.mp hid with hid | hid
    · exact h.unused id hid row hrow
    · obtain ⟨row', hrow', hs, -⟩ := hfacts id hid
      cases hrow.symm.trans hrow'
      exact Or.inl hs
  · intro id row hrow hkept r hr replacement hlink hreplacement
    rw [List.mem_append, not_or] at hkept
    rcases List.mem_append.mp hr with hr | hr
    · exact h.links id row hrow hkept.1 r hr replacement hlink hreplacement
    · obtain ⟨-, -, -, -, hunused⟩ := hfacts r hr
      exact absurd hlink (hunused id row hrow hkept.1)

/-- A purge deletes uploads that were delivered. -/
theorem purgeSucceededUploads_eq_ok {olderThan : String} {limit : Int} {db db' : Database}
    {count : Nat} (h : purgeSucceededUploads olderThan limit db = .ok (count, db')) :
    ∃ deleted, Deletes db.uploads deleted ∧
      db' = { db with uploads := deleteUploads deleted db.uploads } := by
  unfold purgeSucceededUploads at h
  simp only [bind_unit_eq_ok] at h
  obtain ⟨-, h⟩ := h
  have horiginals := @deletes_originals db.uploads olderThan limit.toNat
  split at h
  · simp only [Except.ok.injEq, Prod.mk.injEq] at h
    exact ⟨_, horiginals, h.2.symm⟩
  · simp only [Except.ok.injEq, Prod.mk.injEq] at h
    exact ⟨_, horiginals.append, by rw [← h.2, deleteUploads_deleteUploads]⟩

end OsScanner.Storage

import Mathlib
import OsScanner.Storage.OutboxRows

/-!
# Leases and replacements

What every run of the queue keeps for the one who holds a lease: only a claim gives a lease out
and counts an attempt with it, and an upload that a recovery upload was scheduled for stays dead
as long as the recovery upload is there. The lease that is held decides which of the calls that
record an outcome succeed, and what they return.
-/

namespace OsScanner.Storage

open Lib Lib.Check

/-! ## The statements -/

/-- The call draws a lease for the row. -/
def QueueCall.Draws (call : QueueCall) (id : Nat) (token : String) : Prop :=
  ∃ limit leaseSeconds current leaseToken,
    call = .claim limit leaseSeconds current leaseToken ∧ leaseToken id = token

/-- A row that is in flight was so before, under the same lease, or the call has claimed it. -/
def LeasesKept (call : QueueCall) (t t' : Table UploadRow) : Prop :=
  ∀ id row', t'.get? id = some row' → row'.status = .inFlight →
    (∃ row, t.get? id = some row ∧ row.status = .inFlight ∧ row.leaseToken = row'.leaseToken ∧
      row.attemptCount = row'.attemptCount) ∨
    ∃ token, row'.leaseToken = some token ∧ call.Draws id token ∧ 1 ≤ row'.attemptCount

structure Deliverable (t : Table UploadRow) : Prop where
  linked : CausallyLinked t
  attempted : ∀ id row, t.get? id = some row → row.status = .inFlight → 1 ≤ row.attemptCount
  known : ∀ r recovery id, t.get? r = some recovery → recovery.resyncForUploadId = some id →
    id < t.nextId
  /-- What a recovery upload was scheduled for is dead and names the recovery upload. -/
  replaced : ∀ r recovery id row, t.get? r = some recovery →
    recovery.resyncForUploadId = some id → t.get? id = some row →
      row.status = .dead ∧ row.supersededByUploadId = some r

/-! ## Leases -/

section

variable {rt : Runtime} {call : QueueCall} {db db' : Database} {t t' : Table UploadRow}

/-- A row whose lease a call leaves as it is, or ends. -/
structure LeaseEnds (row row' : UploadRow) : Prop where
  held : row'.status = .inFlight → row.status = .inFlight ∧ row.leaseToken = row'.leaseToken ∧
    row.attemptCount = row'.attemptCount

theorem LeaseEnds.refl (row : UploadRow) : LeaseEnds row row := ⟨fun h => ⟨h, rfl, rfl⟩⟩

theorem LeaseEnds.of_status {row row' : UploadRow} (h : row'.status ≠ .inFlight) :
    LeaseEnds row row' := ⟨fun hflight => absurd hflight h⟩

theorem leasesKept_of_ends (h : ∀ id row', t'.get? id = some row' →
    row'.status ≠ .inFlight ∨ ∃ row, t.get? id = some row ∧ LeaseEnds row row') :
    LeasesKept call t t' := by
  intro id row' hrow' hflight
  rcases h id row' hrow' with hne | ⟨row, hrow, hends⟩
  · exact absurd hflight hne
  · obtain ⟨hheld, htoken, hattempts⟩ := hends.held hflight
    exact .inl ⟨row, hrow, hheld, htoken, hattempts⟩

theorem leasesKept_refl (call : QueueCall) (t : Table UploadRow) : LeasesKept call t t :=
  leasesKept_of_ends fun _ row hrow => .inr ⟨row, hrow, .refl row⟩

theorem leasesKept_modify {f : UploadRow → UploadRow} {id : Nat} {row : UploadRow}
    (hrow : t.get? id = some row) (hf : (f row).status ≠ .inFlight) :
    LeasesKept call t (t.modify id f) := by
  refine leasesKept_of_ends fun id' row' hrow' => ?_
  rw [Table.get?_modify] at hrow'
  split at hrow'
  · next hid =>
    rw [hid, hrow, Option.map_some, Option.some.injEq] at hrow'
    exact .inl (hrow' ▸ hf)
  · exact .inr ⟨row', hrow', .refl row'⟩

/-- Also a row that is added is not in flight. -/
theorem leasesKept_insert {new : UploadRow} (hnew : new.status ≠ .inFlight)
    (h : LeasesKept call t t') : LeasesKept call t (t'.insert new) := by
  intro id row' hrow' hflight
  rw [Table.get?_insert] at hrow'
  split at hrow'
  · rw [Option.some.injEq] at hrow'
    exact absurd (hrow' ▸ hflight) hnew
  · exact h id row' hrow' hflight

theorem leaseEnds_expireLease (current : ℚ) (row : UploadRow) :
    LeaseEnds row (expireLease current row) := by
  unfold expireLease
  split
  · split
    · exact .of_status (by simp)
    · exact .of_status (by simp)
  · exact .refl row

theorem leasesKept_enqueueUpload (hlinked : CausallyLinked db.uploads) {request : UploadRequest}
    {uuid : String} {now : ℚ} {result : EnqueueResult}
    (h : enqueueUpload rt request uuid now db = .ok (result, db')) :
    LeasesKept call db.uploads db'.uploads := by
  rcases enqueueUpload_eq_ok hlinked h with ⟨_, -, -, -, rfl⟩ | ⟨-, -, _, -, rfl⟩
  · exact leasesKept_refl _ _
  · exact leasesKept_insert (by simp [newUpload]) (leasesKept_refl _ _)

theorem leasesKept_claimUploads (hlinked : CausallyLinked db.uploads) {limit : Int}
    {leaseSeconds current : ℚ} {leaseToken : Nat → String} {leases : List QueuedUpload}
    (h : claimUploads rt limit leaseSeconds current leaseToken db = .ok (leases, db')) :
    LeasesKept (.claim limit leaseSeconds current leaseToken) db.uploads db'.uploads := by
  unfold claimUploads at h
  simp only [backfillCausalLinks_of_linked hlinked, bind_unit_eq_ok, Except.ok.injEq,
    Prod.mk.injEq] at h
  obtain ⟨-, -, -, rfl⟩ := h
  intro id row' hrow' hflight
  dsimp only at hrow'
  rw [Table.get?_update, Table.get?_update, Option.map_map, Option.map_eq_some_iff] at hrow'
  obtain ⟨row, hrow, rfl⟩ := hrow'
  simp only [Function.comp_apply] at hflight ⊢
  split at hflight
  · next hid =>
    rw [if_pos hid]
    exact .inr ⟨leaseToken id, rfl, ⟨limit, leaseSeconds, current, leaseToken, rfl, rfl⟩,
      Nat.le_add_left 1 _⟩
  · next hid =>
    rw [if_neg hid]
    obtain ⟨hheld, htoken, hattempts⟩ := (leaseEnds_expireLease current row).held hflight
    exact .inl ⟨row, hrow, hheld, htoken, hattempts⟩

theorem leasesKept_markUploadSucceeded {uploadId : Nat} {leaseToken deliveredAt : String}
    {done : Bool} (h : markUploadSucceeded uploadId leaseToken deliveredAt db = .ok (done, db')) :
    LeasesKept call db.uploads db'.uploads := by
  rcases markUploadSucceeded_eq_ok h with ⟨-, rfl⟩ | ⟨-, ⟨row, hlease⟩, f, rfl, hf⟩
  · exact leasesKept_refl _ _
  · obtain ⟨hrow, hflight, -⟩ := leasedUpload_eq_some hlease
    exact leasesKept_modify hrow (by simp [(hf row hflight).1])

/-! ## What the outcome calls do under a lease -/

/-- How `mark_upload_failed` leaves the row. -/
def failedRow (rt : Runtime) (failure : UploadFailure) (status : UploadStatus) (nextAttemptAt : ℚ)
    (row : UploadRow) : UploadRow :=
  { row with
    status := status
    nextAttemptAt := nextAttemptAt
    leaseToken := none
    leasedUntil := none
    lastError := some (cleanError rt failure.error) }

/-- The upload is given up or waits for its next attempt. -/
theorem markUploadFailed_cases {uploadId : Nat} {leaseToken : String} {failure : UploadFailure}
    {current : ℚ} {status : UploadStatus}
    (h : markUploadFailed rt uploadId leaseToken failure current db = .ok (status, db')) :
    ∃ row nextAttemptAt, leasedUpload db uploadId (strip leaseToken) = some row ∧
      (status = .dead ∨ status = .pending) ∧ db' = { db with
        uploads := db.uploads.modify uploadId (failedRow rt failure status nextAttemptAt) } := by
  unfold markUploadFailed at h
  simp only [bind_eq_ok, cleanIdentifier_eq_ok] at h
  obtain ⟨_, ⟨_, htoken, rfl, -⟩, h⟩ := h
  cases htoken
  split at h
  · cases h
  · next row hlease =>
    simp only [bind_eq_ok, Except.ok.injEq, Prod.mk.injEq] at h
    obtain ⟨nextAttemptAt, -, rfl, rfl⟩ := h
    refine ⟨row, nextAttemptAt, hlease, ?_, rfl⟩
    split
    · exact .inl rfl
    · exact .inr rfl

theorem leasesKept_markUploadFailed {uploadId : Nat} {leaseToken : String}
    {failure : UploadFailure} {current : ℚ} {status : UploadStatus}
    (h : markUploadFailed rt uploadId leaseToken failure current db = .ok (status, db')) :
    LeasesKept call db.uploads db'.uploads := by
  obtain ⟨row, nextAttemptAt, hlease, hstatus, rfl⟩ := markUploadFailed_cases h
  refine leasesKept_modify (leasedUpload_eq_some hlease).1 ?_
  show status ≠ .inFlight
  rcases hstatus with rfl | rfl <;> simp

theorem leasesKept_scheduleFullResync {uploadId : Nat} {leaseToken error uuid : String}
    {current : ℚ} {result : EnqueueResult}
    (h : scheduleFullResync rt uploadId leaseToken error uuid current db = .ok (result, db')) :
    LeasesKept call db.uploads db'.uploads := by
  obtain ⟨row, recovery, f, hlease, hrecovery, hsupersedes, hdb⟩ := scheduleFullResync_eq_ok h
  have hrow := (leasedUpload_eq_some hlease).1
  have hdead : (f row).status ≠ .inFlight := by simp [hsupersedes.status]
  rcases hdb with ⟨_, -, -, rfl⟩ | ⟨-, -, rfl⟩
  · exact leasesKept_modify hrow hdead
  · have hpending : recovery.status = .pending := by
      obtain ⟨-, _, _, _, _, _, -, -, -, -, rfl⟩ := recoveryFor_eq_ok hrecovery
      rfl
    have hkept : LeasesKept call db.uploads (db.uploads.insert recovery) :=
      leasesKept_insert (by simp [hpending]) (leasesKept_refl _ _)
    intro id row' hrow' hflight
    dsimp only at hrow'
    rw [Table.get?_modify] at hrow'
    split at hrow'
    · next hid =>
      rw [hid, Table.get?_insert_of_some hrow, Option.map_some, Option.some.injEq] at hrow'
      exact absurd (hrow' ▸ hflight) hdead
    · exact hkept id row' hrow' hflight

theorem leasesKept_requeueDeadUpload {uploadId : Nat} {request : RequeueRequest}
    {recordedAt auditEventId : String} {current : ℚ} {result : Nat × String}
    (h : requeueDeadUpload rt uploadId request recordedAt auditEventId current db =
      .ok (result, db')) : LeasesKept call db.uploads db'.uploads := by
  unfold requeueDeadUpload at h
  simp only [bind_eq_ok] at h
  obtain ⟨_, -, _, -, _, -, _, -, h⟩ := h
  split at h
  · cases h
  · next row hrow =>
    simp only [bind_eq_ok, Except.ok.injEq, Prod.mk.injEq] at h
    obtain ⟨_, -, _, -, ⟨auditHash, db₁⟩, haudit, -, rfl⟩ := h
    obtain ⟨auditLog, hdb⟩ := recordAuditEvent_eq_ok haudit
    simp only at hdb
    subst hdb
    exact leasesKept_modify hrow (by simp)

theorem leasesKept_purgeSucceededUploads {olderThan : String} {limit : Int} {count : Nat}
    (h : purgeSucceededUploads olderThan limit db = .ok (count, db')) :
    LeasesKept call db.uploads db'.uploads := by
  obtain ⟨deleted, -, rfl⟩ := purgeSucceededUploads_eq_ok h
  refine leasesKept_of_ends fun id row' hrow' => .inr ?_
  obtain ⟨-, row, hrow, rfl⟩ := get?_deleteUploads.mp hrow'
  exact ⟨row, hrow, ⟨fun hflight => ⟨hflight, rfl, rfl⟩⟩⟩

/-- Every call, also one that raises. -/
theorem leasesKept_perform (hlinked : CausallyLinked db.uploads) (call : QueueCall) :
    LeasesKept call db.uploads (call.perform rt db).uploads := by
  have hcommitted : ∀ {α : Type} (r : Except StorageError (α × Database)),
      (∀ result db', r = .ok (result, db') → LeasesKept call db.uploads db'.uploads) →
      LeasesKept call db.uploads (committed db r).uploads := by
    intro α r hr
    cases r with
    | error e => exact leasesKept_refl _ _
    | ok x => exact hr x.1 x.2 rfl
  cases call with
  | enqueue request uuid now => exact hcommitted _ fun _ _ => leasesKept_enqueueUpload hlinked
  | claim limit leaseSeconds current leaseToken =>
    exact hcommitted _ fun _ _ => leasesKept_claimUploads hlinked
  | succeeded uploadId leaseToken deliveredAt =>
    exact hcommitted _ fun _ _ => leasesKept_markUploadSucceeded
  | failed uploadId leaseToken failure current =>
    exact hcommitted _ fun _ _ => leasesKept_markUploadFailed
  | resync uploadId leaseToken error uuid current =>
    exact hcommitted _ fun _ _ => leasesKept_scheduleFullResync
  | requeue uploadId request recordedAt auditEventId current =>
    exact hcommitted _ fun _ _ => leasesKept_requeueDeadUpload
  | purge olderThan limit => exact hcommitted _ fun _ _ => leasesKept_purgeSucceededUploads
  | stored snapshots payloads => exact leasesKept_refl _ _

/-! ## Replacements -/

theorem LeasesKept.attempted (h : LeasesKept call t t') (ht : Deliverable t) (id : Nat)
    (row' : UploadRow) (hrow' : t'.get? id = some row') (hflight : row'.status = .inFlight) :
    1 ≤ row'.attemptCount := by
  rcases h id row' hrow' hflight with ⟨row, hrow, hheld, -, hattempts⟩ | ⟨_, -, -, hattempts⟩
  · rw [← hattempts]
    exact ht.attempted id row hrow hheld
  · exact hattempts

/-- Rows that move, and one that is appended. -/
theorem Deliverable.moves (ht : Deliverable t) (hkept : LeasesKept call t t')
    (hnext : t.nextId ≤ t'.nextId) (h : ∀ id row', t'.get? id = some row' →
      (∃ row, t.get? id = some row ∧ Moves t row row') ∨ (id = t.nextId ∧ Appended t row')) :
    Deliverable t' where
  linked id row' hrow' hnone := by
    rcases h id row' hrow' with ⟨row, hrow, hm⟩ | ⟨-, ha⟩
    · rw [hm.kind]
      exact ht.linked id row hrow (hm.causalGroup ▸ hnone)
    · exact ha.linked hnone
  attempted := hkept.attempted ht
  known r recovery' id hr hresync := by
    rcases h r recovery' hr with ⟨recovery, hrow, hm⟩ | ⟨-, ha⟩
    · exact (ht.known r recovery id hrow (hm.resyncFor ▸ hresync)).trans_le hnext
    · rw [ha.resyncFor] at hresync
      cases hresync
  replaced r recovery' id row' hr hresync hrow' := by
    rcases h r recovery' hr with ⟨recovery, hrecovery, hm⟩ | ⟨-, ha⟩
    · have hfor := hm.resyncFor ▸ hresync
      rcases h id row' hrow' with ⟨row, hrow, hm'⟩ | ⟨hid, -⟩
      · obtain ⟨hdead, hlink⟩ := ht.replaced r recovery id row hrecovery hfor hrow
        exact ⟨hm'.buried hdead (by simp [hlink]), hm'.superseded.trans hlink⟩
      · have := ht.known r recovery id hrecovery hfor
        omega
    · rw [ha.resyncFor] at hresync
      cases hresync

theorem Deliverable.update (ht : Deliverable t) {f : Nat → UploadRow → UploadRow}
    (hkept : LeasesKept call t (t.update f))
    (h : ∀ id row, t.get? id = some row → Moves t row (f id row)) : Deliverable (t.update f) := by
  refine ht.moves hkept le_rfl fun id row' hrow' => ?_
  rw [Table.get?_update, Option.map_eq_some_iff] at hrow'
  obtain ⟨row, hrow, rfl⟩ := hrow'
  exact .inl ⟨row, hrow, h id row hrow⟩

theorem Deliverable.modify (ht : Deliverable t) {f : UploadRow → UploadRow} {id : Nat}
    {row : UploadRow} (hrow : t.get? id = some row) (hkept : LeasesKept call t (t.modify id f))
    (h : Moves t row (f row)) : Deliverable (t.modify id f) := by
  refine ht.update hkept fun id' row' hrow' => ?_
  split
  · next hid =>
    rw [hid, hrow, Option.some.injEq] at hrow'
    exact hrow' ▸ h
  · exact .refl t row'

/-- The rejected upload is dead from now on, and names the upload that replaces it. -/
theorem Deliverable.superseded (ht : Deliverable t) (r : Nat) {id : Nat} {row : UploadRow}
    (hrow : t.get? id = some row) (hflight : row.status = .inFlight)
    (hkept : LeasesKept call t t') (hnext : t.nextId ≤ t'.nextId)
    (h : ∀ id' row', t'.get? id' = some row' → (id' = id ∧ Supersedes row r row') ∨
      (id' ≠ id ∧ t.get? id' = some row') ∨
      (id' = t.nextId ∧ r = t.nextId ∧ t.nextId < t'.nextId ∧ Recovers row id row')) :
    Deliverable t' := by
  have hid := Table.lt_nextId hrow
  -- What a recovery upload was scheduled for is dead, so it is another upload.
  have hother : ∀ r' recovery, t.get? r' = some recovery →
      recovery.resyncForUploadId ≠ some id := by
    intro r' recovery hr' hfor
    have hdead := (ht.replaced r' recovery id row hr' hfor hrow).1
    rw [hflight] at hdead
    cases hdead
  -- The recovery uploads that were there, and the new one.
  have hfrom : ∀ r' recovery' id', t'.get? r' = some recovery' →
      recovery'.resyncForUploadId = some id' → (r' = t.nextId ∧ r = t.nextId ∧ id' = id ∧
        t.nextId < t'.nextId) ∨ ∃ recovery, t.get? r' = some recovery ∧
          recovery.resyncForUploadId = some id' := by
    intro r' recovery' id' hr' hfor
    rcases h r' recovery' hr' with ⟨rfl, hs⟩ | ⟨-, hold⟩ | ⟨hnew, hr, hlt, hrecovers⟩
    · exact .inr ⟨row, hrow, hs.resyncFor ▸ hfor⟩
    · exact .inr ⟨recovery', hold, hfor⟩
    · rw [hrecovers.resyncFor, Option.some.injEq] at hfor
      exact .inl ⟨hnew, hr, hfor.symm, hlt⟩
  refine ⟨fun id' row' hrow' hnone => ?_, hkept.attempted ht, fun r' recovery' id' hr' hfor => ?_,
    fun r' recovery' id' row' hr' hfor hrow' => ?_⟩
  · rcases h id' row' hrow' with ⟨rfl, hs⟩ | ⟨-, hold⟩ | ⟨-, -, -, hrecovers⟩
    · rw [hs.kind]
      exact ht.linked id' row hrow (hs.causalGroup ▸ hnone)
    · exact ht.linked id' row' hold hnone
    · exact hrecovers.kind
  · rcases hfrom r' recovery' id' hr' hfor with ⟨-, -, rfl, -⟩ | ⟨recovery, hrecovery, hsame⟩
    · omega
    · exact (ht.known r' recovery id' hrecovery hsame).trans_le hnext
  · rcases hfrom r' recovery' id' hr' hfor with ⟨hnew, hr, rfl, -⟩ | ⟨recovery, hrecovery, hsame⟩
    · rcases h id' row' hrow' with ⟨-, hs⟩ | ⟨hne, -⟩ | ⟨hlast, -⟩
      · exact ⟨hs.status, by rw [hs.superseded, hr, hnew]⟩
      · exact absurd rfl hne
      · omega
    · have hknown := ht.known r' recovery id' hrecovery hsame
      rcases h id' row' hrow' with ⟨rfl, -⟩ | ⟨-, hold⟩ | ⟨hlast, -⟩
      · exact absurd hsame (hother r' recovery hrecovery)
      · exact ht.replaced r' recovery id' row' hrecovery hsame hold
      · omega

theorem deliverable_purge {deleted : List Nat} (ht : Deliverable t)
    (hkept : LeasesKept call t (deleteUploads deleted t)) : Deliverable (deleteUploads deleted t) := by
  refine ⟨fun id row' hrow' hnone => ?_, hkept.attempted ht, fun r recovery' id hr hfor => ?_,
    fun r recovery' id row' hr hfor hrow' => ?_⟩
  · obtain ⟨-, row, hrow, rfl⟩ := get?_deleteUploads.mp hrow'
    exact ht.linked id row hrow hnone
  · obtain ⟨-, recovery, hrecovery, rfl⟩ := get?_deleteUploads.mp hr
    exact ht.known r recovery id hrecovery (keepLink_eq_some.mp hfor).1
  · obtain ⟨hr', recovery, hrecovery, rfl⟩ := get?_deleteUploads.mp hr
    obtain ⟨-, row, hrow, rfl⟩ := get?_deleteUploads.mp hrow'
    obtain ⟨hdead, hlink⟩ := ht.replaced r recovery id row hrecovery (keepLink_eq_some.mp hfor).1 hrow
    exact ⟨hdead, keepLink_eq_some.mpr ⟨hlink, hr'⟩⟩

theorem Deliverable.scheduleFullResync (ht : Deliverable db.uploads) {uploadId : Nat}
    {leaseToken error uuid : String} {current : ℚ} {result : EnqueueResult}
    (h : scheduleFullResync rt uploadId leaseToken error uuid current db = .ok (result, db')) :
    Deliverable db'.uploads := by
  have hkept := @leasesKept_scheduleFullResync rt
    (.resync uploadId leaseToken error uuid current) _ _ _ _ _ _ _ _ h
  obtain ⟨row, recovery, f, hlease, hrecovery, hsupersedes, hdb⟩ := scheduleFullResync_eq_ok h
  obtain ⟨hrow, hflight, -⟩ := leasedUpload_eq_some hlease
  have hrecovers : Recovers row uploadId recovery := by
    obtain ⟨-, _, _, _, _, _, -, -, -, -, rfl⟩ := recoveryFor_eq_ok hrecovery
    exact recovers_recoveryUpload _ _ _ _ _ _ _ _
  rcases hdb with ⟨_, -, -, rfl⟩ | ⟨-, hresult, rfl⟩
  · refine ht.superseded result.uploadId hrow hflight hkept le_rfl fun id' row' hrow' => ?_
    rw [Table.get?_modify] at hrow'
    split at hrow'
    · next hid =>
      rw [hid, hrow, Option.map_some, Option.some.injEq] at hrow'
      exact .inl ⟨hid, hrow' ▸ hsupersedes⟩
    · next hid => exact .inr (.inl ⟨hid, hrow'⟩)
  · refine ht.superseded result.uploadId hrow hflight hkept (Nat.le_succ _) fun id' row' hrow' => ?_
    rw [Table.get?_modify] at hrow'
    split at hrow'
    · next hid =>
      rw [hid, Table.get?_insert_of_some hrow, Option.map_some, Option.some.injEq] at hrow'
      exact .inl ⟨hid, hrow' ▸ hsupersedes⟩
    · next hid =>
      rw [Table.get?_insert] at hrow'
      split at hrow'
      · next hlast =>
        rw [Option.some.injEq] at hrow'
        exact .inr (.inr ⟨hlast, hresult, Nat.lt_succ_self _, hrow' ▸ hrecovers⟩)
      · exact .inr (.inl ⟨hid, hrow'⟩)

theorem deliverable_perform (ht : Deliverable db.uploads) (call : QueueCall) :
    Deliverable (call.perform rt db).uploads := by
  have hkept : LeasesKept call db.uploads (call.perform rt db).uploads :=
    leasesKept_perform ht.linked call
  have hcommitted : ∀ {α : Type} (r : Except StorageError (α × Database)),
      LeasesKept call db.uploads (committed db r).uploads →
      (∀ result db', r = .ok (result, db') → LeasesKept call db.uploads db'.uploads →
        Deliverable db'.uploads) → Deliverable (committed db r).uploads := by
    intro α r hkept hr
    cases r with
    | error e => exact ht
    | ok x => exact hr x.1 x.2 rfl hkept
  cases call with
  | enqueue request uuid now =>
    refine hcommitted _ hkept fun result db' h hkept => ?_
    rcases enqueueUpload_eq_ok ht.linked h with ⟨_, -, -, -, rfl⟩ | ⟨-, -, fields, hfields, rfl⟩
    · exact ht
    · refine ht.moves hkept (Nat.le_succ _) fun id row' hrow' => ?_
      rw [Table.get?_insert] at hrow'
      split at hrow'
      · next hid => exact .inr ⟨hid, Option.some.inj hrow' ▸ appended_newUpload hfields⟩
      · exact .inl ⟨row', hrow', .refl _ _⟩
  | claim limit leaseSeconds current leaseToken =>
    refine hcommitted _ hkept fun result db' h hkept => ?_
    obtain ⟨⟨f, hf, rfl⟩, -⟩ := claimUploads_eq_ok ht.linked h
    exact ht.update hkept hf
  | succeeded uploadId leaseToken deliveredAt =>
    refine hcommitted _ hkept fun result db' h hkept => ?_
    rcases markUploadSucceeded_eq_ok h with ⟨-, rfl⟩ | ⟨-, ⟨row, hlease⟩, f, rfl, hf⟩
    · exact ht
    · obtain ⟨hrow, hflight, -⟩ := leasedUpload_eq_some hlease
      exact ht.modify hrow hkept (hf row hflight).2
  | failed uploadId leaseToken failure current =>
    refine hcommitted _ hkept fun result db' h hkept => ?_
    obtain ⟨⟨row, hlease⟩, f, rfl, hf⟩ := markUploadFailed_eq_ok h
    obtain ⟨hrow, hflight, -⟩ := leasedUpload_eq_some hlease
    exact ht.modify hrow hkept (hf row hflight).2.2
  | resync uploadId leaseToken error uuid current =>
    exact hcommitted _ hkept fun result db' h _ => ht.scheduleFullResync h
  | requeue uploadId request recordedAt auditEventId current =>
    refine hcommitted _ hkept fun result db' h hkept => ?_
    obtain ⟨row, f, auditLog, hrow, -, -, hmoves, rfl⟩ := requeueDeadUpload_eq_ok h
    exact ht.modify hrow hkept hmoves
  | purge olderThan limit =>
    refine hcommitted _ hkept fun result db' h hkept => ?_
    obtain ⟨deleted, -, rfl⟩ := purgeSucceededUploads_eq_ok h
    exact deliverable_purge ht hkept
  | stored snapshots payloads => exact ht

end

theorem deliverable_run (rt : Runtime) (calls : List QueueCall) :
    Deliverable (runFrom (fun db call => QueueCall.perform rt call db) Database.empty calls).uploads := by
  have hempty : Deliverable Database.empty.uploads :=
    ⟨fun _ _ h => (nomatch h), fun _ _ h => (nomatch h), fun _ _ _ h => (nomatch h),
      fun _ _ _ _ h => (nomatch h)⟩
  exact run_invariant (P := fun db : Database => Deliverable db.uploads)
    (fun db call h => deliverable_perform h call) hempty

end OsScanner.Storage

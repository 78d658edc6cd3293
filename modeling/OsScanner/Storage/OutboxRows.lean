import Mathlib
import OsScanner.Storage.CausalOrder

/-!
# The rows of the outbox

What every row of the upload queue satisfies in every run, and what a call can do to a row: the
lease columns are set exactly while the row is in flight, attempts are bounded, a row succeeds
only for the holder of its lease and stays so, and only delivered uploads are deleted.

All calls are read through what they do to the row under each key.
-/

namespace OsScanner.Storage

open Lib Lib.Check

/-! ## The statements -/

structure UploadRow.Sound (row : UploadRow) : Prop where
  leaseToken : row.status = .inFlight ↔ row.leaseToken.isSome = true
  leasedUntil : row.status = .inFlight ↔ row.leasedUntil.isSome = true
  attempts : row.attemptCount ≤ row.maxAttempts
  pending : row.status = .pending → row.attemptCount < row.maxAttempts
  maxAttempts : 0 < row.maxAttempts

structure SoundOutbox (t : Table UploadRow) : Prop where
  rows : ∀ id row, t.get? id = some row → row.Sound
  keys : ∀ id id' row row', t.get? id = some row → t.get? id' = some row' →
    row.idempotencyKey = row'.idempotencyKey → id = id'

/-- The call reports a delivery under the lease that the row holds. -/
def QueueCall.Presents (call : QueueCall) (id : Nat) (row : UploadRow) : Prop :=
  ∃ leaseToken deliveredAt, call = .succeeded id leaseToken deliveredAt ∧
    row.status = .inFlight ∧ row.leaseToken = some (strip leaseToken)

/-- What a call may do to the rows. -/
structure SafeStep (call : QueueCall) (t t' : Table UploadRow) : Prop where
  succeeds : ∀ id row', t'.get? id = some row' → row'.status = .succeeded →
    ∃ row, t.get? id = some row ∧ (row.status = .succeeded ∨ call.Presents id row)
  final : ∀ id row row', t.get? id = some row → t'.get? id = some row' →
    row.status = .succeeded → row'.status = .succeeded
  deleted : ∀ id row, t.get? id = some row → t'.get? id = none → delivered t row = true

/-! ## Changes of one row -/

/-- A row after a call; `presents` says that the call holds its lease. -/
structure Changes (presents : Prop) (row row' : UploadRow) : Prop where
  sound : row.Sound → row'.Sound
  key : row'.idempotencyKey = row.idempotencyKey
  final : row.status = .succeeded → row'.status = .succeeded
  delivered : row'.status = .succeeded → row.status = .succeeded ∨ presents

/-- A row that a call adds. -/
structure Adds (t : Table UploadRow) (row : UploadRow) : Prop where
  sound : SoundOutbox t → row.Sound
  pending : row.status = .pending
  key : ∀ id' row', t.get? id' = some row' → row'.idempotencyKey ≠ row.idempotencyKey

/-- Every row changes as its call may change it, and one row may be added. -/
structure TableChange (call : QueueCall) (t t' : Table UploadRow) : Prop where
  kept : ∀ id row', t'.get? id = some row' →
    (∃ row, t.get? id = some row ∧ Changes (call.Presents id row) row row') ∨
      (id = t.nextId ∧ Adds t row')
  deleted : ∀ id row, t.get? id = some row → t'.get? id = none → delivered t row = true

section

variable {presents : Prop} {row row' row'' : UploadRow} {call : QueueCall} {t t' : Table UploadRow}

theorem Changes.refl (presents : Prop) (row : UploadRow) : Changes presents row row :=
  ⟨id, rfl, id, .inl⟩

theorem Changes.trans (h : Changes presents row row') (h' : Changes presents row' row'') :
    Changes presents row row'' where
  sound hs := h'.sound (h.sound hs)
  key := h'.key.trans h.key
  final hs := h'.final (h.final hs)
  delivered hs := by
    rcases h'.delivered hs with hs | hp
    · exact h.delivered hs
    · exact .inr hp

theorem TableChange.sound (h : TableChange call t t') (ht : SoundOutbox t) : SoundOutbox t' where
  rows id row' hrow' := by
    rcases h.kept id row' hrow' with ⟨row, hrow, hc⟩ | ⟨-, ha⟩
    · exact hc.sound (ht.rows id row hrow)
    · exact ha.sound ht
  keys id₁ id₂ row₁' row₂' h₁' h₂' hkey := by
    rcases h.kept id₁ row₁' h₁' with ⟨row₁, h₁, hc₁⟩ | ⟨hid₁, ha₁⟩ <;>
      rcases h.kept id₂ row₂' h₂' with ⟨row₂, h₂, hc₂⟩ | ⟨hid₂, ha₂⟩
    · exact ht.keys id₁ id₂ row₁ row₂ h₁ h₂ (by rw [← hc₁.key, ← hc₂.key, hkey])
    · exact absurd (by rw [← hc₁.key, hkey]) (ha₂.key id₁ row₁ h₁)
    · exact absurd (by rw [← hc₂.key, hkey]) (ha₁.key id₂ row₂ h₂)
    · rw [hid₁, hid₂]

theorem TableChange.safe (h : TableChange call t t') : SafeStep call t t' where
  succeeds id row' hrow' hs := by
    rcases h.kept id row' hrow' with ⟨row, hrow, hc⟩ | ⟨-, ha⟩
    · exact ⟨row, hrow, hc.delivered hs⟩
    · rw [ha.pending] at hs
      cases hs
  final id row row' hrow hrow' hs := by
    rcases h.kept id row' hrow' with ⟨before, hbefore, hc⟩ | ⟨hid, -⟩
    · rw [hrow, Option.some.injEq] at hbefore
      subst hbefore
      exact hc.final hs
    · rw [hid, Table.get?_nextId] at hrow
      cases hrow
  deleted := h.deleted

theorem TableChange.refl (call : QueueCall) (t : Table UploadRow) : TableChange call t t where
  kept _ row hrow := .inl ⟨row, hrow, .refl _ _⟩
  deleted _ _ hrow hnone := by
    rw [hrow] at hnone
    cases hnone

/-- A change in place, with at most one new row. -/
theorem tableChange_of_get? (f : Nat → UploadRow → UploadRow) (new : Option UploadRow)
    (hget : ∀ id, t'.get? id = if id = t.nextId then new else (t.get? id).map (f id))
    (hf : ∀ id row, t.get? id = some row → Changes (call.Presents id row) row (f id row))
    (hnew : ∀ row ∈ new, Adds t row) : TableChange call t t' where
  kept id row' hrow' := by
    rw [hget] at hrow'
    split at hrow'
    · next hid => exact .inr ⟨hid, hnew row' hrow'⟩
    · obtain ⟨row, hrow, rfl⟩ := Option.map_eq_some_iff.mp hrow'
      exact .inl ⟨row, hrow, hf id row hrow⟩
  deleted id row hrow hnone := by
    rw [hget, if_neg (Table.lt_nextId hrow).ne, hrow] at hnone
    cases hnone

theorem tableChange_update {f : Nat → UploadRow → UploadRow}
    (hf : ∀ id row, t.get? id = some row → Changes (call.Presents id row) row (f id row)) :
    TableChange call t (t.update f) := by
  refine tableChange_of_get? f none (fun id => ?_) hf (by simp)
  rw [Table.get?_update]
  split
  · next hid => rw [hid, Table.get?_nextId, Option.map_none]
  · rfl

theorem tableChange_insert {f : Nat → UploadRow → UploadRow} {t₁ : Table UploadRow}
    (hnext : t₁.nextId = t.nextId) (hget : ∀ id, t₁.get? id = (t.get? id).map (f id))
    (hf : ∀ id row, t.get? id = some row → Changes (call.Presents id row) row (f id row))
    (hnew : Adds t row) : TableChange call t (t₁.insert row) := by
  refine tableChange_of_get? f (some row) (fun id => ?_) hf (by simpa using hnew)
  rw [Table.get?_insert, hnext, hget]

theorem tableChange_modify {f : UploadRow → UploadRow} {id : Nat} {row : UploadRow}
    (hrow : t.get? id = some row) (hf : Changes (call.Presents id row) row (f row)) :
    TableChange call t (t.modify id f) := by
  refine tableChange_update fun id' row' hrow' => ?_
  split
  · next hid =>
    subst hid
    rw [hrow, Option.some.injEq] at hrow'
    subst hrow'
    exact hf
  · exact .refl _ _

end

/-! ## Causal links -/

/-- The links of a row change, its delivery does not. -/
def Relinked (row row' : UploadRow) : Prop :=
  ∃ group predecessor, row' =
    { row with causalGroup := group, predecessorUploadId := predecessor }

theorem Relinked.changes {presents : Prop} {row row' : UploadRow} (h : Relinked row row') :
    Changes presents row row' := by
  obtain ⟨group, predecessor, rfl⟩ := h
  exact ⟨fun hs => ⟨hs.leaseToken, hs.leasedUntil, hs.attempts, hs.pending, hs.maxAttempts⟩, rfl,
    id, .inl⟩

/-- The links of some rows change. -/
def Relinks (t t' : Table UploadRow) : Prop :=
  t'.nextId = t.nextId ∧ ∃ f : Nat → UploadRow → UploadRow,
    (∀ id, t'.get? id = (t.get? id).map (f id)) ∧ ∀ id row, Relinked row (f id row)

theorem Relinks.refl (t : Table UploadRow) : Relinks t t :=
  ⟨rfl, fun _ row => row, fun _ => by simp, fun _ _ => ⟨_, _, rfl⟩⟩

theorem Relinks.trans {t t' t'' : Table UploadRow} (h : Relinks t t') (h' : Relinks t' t'') :
    Relinks t t'' := by
  obtain ⟨hid, f, hf, hr⟩ := h
  obtain ⟨hid', f', hf', hr'⟩ := h'
  refine ⟨hid'.trans hid, fun id row => f' id (f id row), fun id => ?_, fun id row => ?_⟩
  · rw [hf', hf, Option.map_map]
    rfl
  · obtain ⟨group, predecessor, he⟩ := hr id row
    obtain ⟨group', predecessor', he'⟩ := hr' id (f id row)
    refine ⟨group', predecessor', ?_⟩
    dsimp only
    rw [he', he]

theorem relinks_backfillRow (rt : Runtime) (t : Table UploadRow) (id : Nat) (row : UploadRow) :
    Relinks t (backfillRow rt t id row) := by
  unfold backfillRow
  split
  · exact .refl t
  · refine ⟨Table.nextId_modify _ _ _, _, fun id' => Table.get?_update _ _ _, fun id' row' => ?_⟩
    dsimp only
    split
    · split
      · exact ⟨_, _, rfl⟩
      · exact ⟨_, _, rfl⟩
    · exact ⟨_, _, rfl⟩

theorem relinks_backfillCausalLinks (rt : Runtime) (db : Database) :
    Relinks db.uploads (backfillCausalLinks rt db).uploads := by
  have hfold : ∀ (rows : List (Nat × UploadRow)) (t : Table UploadRow),
      Relinks t (rows.foldl (fun uploads e => backfillRow rt uploads e.1 e.2) t) := by
    intro rows
    induction rows with
    | nil => exact .refl
    | cons e rows ih => exact fun t => (relinks_backfillRow rt t e.1 e.2).trans (ih _)
  exact hfold _ _

/-! ## The calls -/

section

variable {rt : Runtime} {call : QueueCall} {db db' : Database}

theorem ne_of_uploadWithKey {key : String} (h : uploadWithKey db key = none) (id : Nat)
    (row : UploadRow) (hrow : db.uploads.get? id = some row) : row.idempotencyKey ≠ key :=
  of_decide_eq_false (Table.first?_eq_none.mp h id row hrow)

theorem maxAttempts_of_checkUpload {request : UploadRequest} {uuid : String}
    {fields : UploadFields} (h : checkUpload rt request uuid = .ok fields) :
    1 ≤ request.maxAttempts := by
  simp only [checkUpload, bind_eq_ok, raiseIf_eq_ok, not_not] at h
  obtain ⟨_, -, _, -, _, -, _, -, _, -, _, -, _, hrange, -⟩ := h
  exact hrange.1

theorem tableChange_enqueueUpload {request : UploadRequest} {uuid : String} {now : ℚ}
    {result : EnqueueResult} (h : enqueueUpload rt request uuid now db = .ok (result, db')) :
    TableChange call db.uploads db'.uploads := by
  obtain ⟨hnext, f, hget, hrelinked⟩ := relinks_backfillCausalLinks rt db
  have hchanges : ∀ id row, db.uploads.get? id = some row →
      Changes (call.Presents id row) row (f id row) := fun id row _ => (hrelinked id row).changes
  unfold enqueueUpload at h
  simp only [bind_eq_ok] at h
  obtain ⟨fields, hfields, h⟩ := h
  split at h
  · simp only [bind_unit_eq_ok, Except.ok.injEq, Prod.mk.injEq] at h
    obtain ⟨-, -, rfl⟩ := h
    refine tableChange_of_get? f none (fun id => ?_) hchanges (by simp)
    rw [hget]
    split
    · next hid => rw [hid, Table.get?_nextId, Option.map_none]
    · rfl
  · next hnone =>
    simp only [Except.ok.injEq, Prod.mk.injEq] at h
    obtain ⟨-, rfl⟩ := h
    have hpos := maxAttempts_of_checkUpload hfields
    have hnat : 0 < request.maxAttempts.toNat := by omega
    refine tableChange_insert hnext hget hchanges ⟨fun _ => ?_, rfl, fun id row hrow => ?_⟩
    · exact ⟨by simp [newUpload], by simp [newUpload], Nat.zero_le _, fun _ => hnat, hnat⟩
    · obtain ⟨group, predecessor, hsame⟩ := hrelinked id row
      have hback : (backfillCausalLinks rt db).uploads.get? id = some (f id row) := by
        rw [hget, hrow, Option.map_some]
      have hne := ne_of_uploadWithKey hnone id _ hback
      rwa [hsame] at hne

/-- A lease that is over gives the upload back, or ends it at the retry limit. -/
theorem changes_expireLease (presents : Prop) (current : ℚ) (row : UploadRow) :
    Changes presents row (expireLease current row) := by
  unfold expireLease
  split
  · next hexpired =>
    unfold leaseExpired at hexpired
    simp only [Bool.and_eq_true, decide_eq_true_eq] at hexpired
    split
    · refine ⟨fun hs => ⟨by simp, by simp, hs.attempts, by simp, hs.maxAttempts⟩, rfl, ?_, by simp⟩
      simp [hexpired.1]
    · next hlimit =>
      refine ⟨fun hs => ⟨by simp, by simp, hs.attempts, fun _ => ?_, hs.maxAttempts⟩, rfl, ?_,
        by simp⟩
      · simp only
        omega
      · simp [hexpired.1]
  · exact .refl _ _

theorem changes_leaseUpload (presents : Prop) {row : UploadRow} (current leaseSeconds : ℚ)
    (leaseToken : String) (hpending : row.status = .pending)
    (hattempts : row.attemptCount < row.maxAttempts) :
    Changes presents row (leaseUpload current leaseSeconds leaseToken row) := by
  refine ⟨fun hs => ⟨by simp [leaseUpload], by simp [leaseUpload], ?_, by simp [leaseUpload],
    hs.maxAttempts⟩, rfl, by simp [hpending], by simp [leaseUpload]⟩
  show row.attemptCount + 1 ≤ row.maxAttempts
  omega

theorem tableChange_claimUploads {limit : Int} {leaseSeconds current : ℚ}
    {leaseToken : Nat → String} {leases : List QueuedUpload}
    (h : claimUploads rt limit leaseSeconds current leaseToken db = .ok (leases, db')) :
    TableChange call db.uploads db'.uploads := by
  obtain ⟨-, f, hget, hrelinked⟩ := relinks_backfillCausalLinks rt db
  unfold claimUploads at h
  simp only [bind_unit_eq_ok, Except.ok.injEq, Prod.mk.injEq] at h
  obtain ⟨-, -, -, rfl⟩ := h
  set expired := (backfillCausalLinks rt db).uploads.update fun _ row => expireLease current row
    with hexpired
  set rows := claimedRows expired current limit.toNat with hrows
  have hexpiredGet : ∀ id, expired.get? id =
      (db.uploads.get? id).map fun row => expireLease current (f id row) := by
    intro id
    rw [hexpired, Table.get?_update, hget, Option.map_map]
    rfl
  refine tableChange_of_get? (fun id row => if id ∈ rows.map Prod.fst then
      leaseUpload current leaseSeconds (leaseToken id) (expireLease current (f id row))
      else expireLease current (f id row)) none (fun id => ?_) (fun id row hrow => ?_) (by simp)
  · rw [Table.get?_update, hexpiredGet, Option.map_map]
    by_cases hid : id = db.uploads.nextId
    · rw [if_pos hid, hid, Table.get?_nextId, Option.map_none]
    · rw [if_neg hid]
      rfl
  · have hchanges := (hrelinked id row).changes.trans
      (changes_expireLease (call.Presents id row) current (f id row))
    split
    · next hid =>
      obtain ⟨⟨_, claimed⟩, hmem, rfl⟩ := List.mem_map.mp hid
      obtain ⟨hclaimed, hclaimable⟩ := mem_claimedRows hmem
      obtain ⟨hpending, -, hattempts, -⟩ := claimable_iff.mp hclaimable
      rw [hexpiredGet, hrow, Option.map_some, Option.some.injEq] at hclaimed
      rw [← hclaimed] at hpending hattempts
      exact hchanges.trans (changes_leaseUpload _ _ _ _ hpending hattempts)
    · exact hchanges

theorem tableChange_markUploadSucceeded {uploadId : Nat} {leaseToken deliveredAt : String}
    {done : Bool} (h : markUploadSucceeded uploadId leaseToken deliveredAt db = .ok (done, db')) :
    TableChange (.succeeded uploadId leaseToken deliveredAt) db.uploads db'.uploads := by
  unfold markUploadSucceeded at h
  simp only [bind_eq_ok, cleanIdentifier_eq_ok] at h
  obtain ⟨_, ⟨_, htoken, rfl, -⟩, h⟩ := h
  cases htoken
  split at h
  · simp only [Except.ok.injEq, Prod.mk.injEq] at h
    rw [← h.2]
    exact .refl _ _
  · next row hlease =>
    simp only [Except.ok.injEq, Prod.mk.injEq] at h
    obtain ⟨-, rfl⟩ := h
    obtain ⟨hrow, hflight, hheld⟩ := leasedUpload_eq_some hlease
    dsimp only
    refine tableChange_modify hrow ?_
    refine ⟨fun hs => ?_, rfl, fun _ => rfl, fun _ => ?_⟩
    · exact ⟨by simp, by simp, hs.attempts, by simp, hs.maxAttempts⟩
    · exact .inr ⟨leaseToken, deliveredAt, rfl, hflight, hheld⟩

theorem tableChange_markUploadFailed {uploadId : Nat} {leaseToken : String}
    {failure : UploadFailure} {current : ℚ} {status : UploadStatus}
    (h : markUploadFailed rt uploadId leaseToken failure current db = .ok (status, db')) :
    TableChange call db.uploads db'.uploads := by
  unfold markUploadFailed at h
  simp only [bind_eq_ok, cleanIdentifier_eq_ok] at h
  obtain ⟨_, ⟨_, htoken, rfl, -⟩, h⟩ := h
  cases htoken
  split at h
  · cases h
  · next row hlease =>
    simp only [bind_eq_ok, Except.ok.injEq, Prod.mk.injEq] at h
    obtain ⟨nextAttemptAt, -, rfl, rfl⟩ := h
    obtain ⟨hrow, hflight, -⟩ := leasedUpload_eq_some hlease
    dsimp only
    refine tableChange_modify hrow ?_
    refine ⟨fun hs => ⟨?_, ?_, hs.attempts, ?_, hs.maxAttempts⟩, rfl, ?_, ?_⟩
    · split <;> simp
    · split <;> simp
    · split
      · simp
      · next hterminal =>
        intro _
        simp only [Bool.or_eq_true, decide_eq_true_eq, not_or] at hterminal
        simp only
        omega
    · simp [hflight]
    · split <;> simp

theorem adds_recovery {row recovery : UploadRow} {uploadId : Nat} {uuid : String} {current : ℚ}
    (h : recoveryFor rt row uploadId uuid current db = .ok recovery)
    (hrow : db.uploads.get? uploadId = some row)
    (hnone : uploadWithKey db recovery.idempotencyKey = none) : Adds db.uploads recovery := by
  refine ⟨fun hs => ?_, ?_, ne_of_uploadWithKey hnone⟩ <;>
    obtain ⟨-, _, _, _, snapshotRow, _, -, -, -, -, rfl⟩ := recoveryFor_eq_ok h
  · have hmax := (hs.rows uploadId row hrow).maxAttempts
    exact ⟨by simp [recoveryUpload], by simp [recoveryUpload], Nat.zero_le _, fun _ => hmax, hmax⟩
  · rfl

/-- The rejected upload ends; its replacement, when there is none yet, waits. -/
theorem tableChange_scheduleFullResync {uploadId : Nat} {leaseToken error uuid : String}
    {current : ℚ} {result : EnqueueResult}
    (h : scheduleFullResync rt uploadId leaseToken error uuid current db = .ok (result, db')) :
    TableChange call db.uploads db'.uploads := by
  unfold scheduleFullResync at h
  simp only [bind_eq_ok, cleanIdentifier_eq_ok] at h
  obtain ⟨_, ⟨_, htoken, rfl, -⟩, h⟩ := h
  cases htoken
  split at h
  · cases h
  · next row hlease =>
    simp only [bind_eq_ok, Except.ok.injEq, Prod.mk.injEq] at h
    obtain ⟨recovery, hrecovery, ⟨result', db₁⟩, hwith, -, rfl⟩ := h
    obtain ⟨hrow, hflight, -⟩ := leasedUpload_eq_some hlease
    set g : UploadRow → UploadRow := fun row =>
      { row with
        status := .dead
        nextAttemptAt := current
        leaseToken := none
        leasedUntil := none
        lastError := some (cleanError rt error)
        supersededByUploadId := some result'.uploadId }
    have hchanges : Changes (call.Presents uploadId row) row (g row) :=
      ⟨fun hs => ⟨by simp [g], by simp [g], hs.attempts, by simp [g], hs.maxAttempts⟩, rfl,
        by simp [hflight], by simp [g]⟩
    unfold recoverWith at hwith
    split at hwith
    · simp only [bind_unit_eq_ok, raiseIf_eq_ok, Except.ok.injEq, Prod.mk.injEq] at hwith
      obtain ⟨-, -, rfl⟩ := hwith
      exact tableChange_modify hrow hchanges
    · next hnone =>
      simp only [bind_unit_eq_ok, raiseIf_eq_ok, Except.ok.injEq, Prod.mk.injEq] at hwith
      obtain ⟨-, -, rfl⟩ := hwith
      have hadds := adds_recovery hrecovery hrow hnone
      dsimp only
      refine tableChange_of_get? (fun id row => if id = uploadId then g row else row)
        (some recovery) (fun id => ?_) (fun id row' hrow' => ?_) (by simpa using hadds)
      · rw [Table.get?_modify, Table.get?_insert]
        have hne := (Table.lt_nextId hrow).ne
        by_cases hid : id = uploadId
        · subst hid
          simp [hne]
        · simp [hid]
      · split
        · next hid =>
          subst hid
          rw [hrow, Option.some.injEq] at hrow'
          subst hrow'
          exact hchanges
        · exact .refl _ _

/-- A dead letter starts over with the limit that the operator gives. -/
theorem tableChange_requeueDeadUpload {uploadId : Nat} {request : RequeueRequest}
    {recordedAt auditEventId : String} {current : ℚ} {result : Nat × String}
    (h : requeueDeadUpload rt uploadId request recordedAt auditEventId current db =
      .ok (result, db')) : TableChange call db.uploads db'.uploads := by
  unfold requeueDeadUpload at h
  simp only [bind_eq_ok] at h
  obtain ⟨operator, -, requestedReason, -, _, -, _, hlimit, h⟩ := h
  split at h
  · cases h
  · next row hrow =>
    simp only [bind_eq_ok, raiseIf_eq_ok, not_not, ne_eq, Except.ok.injEq, Prod.mk.injEq] at h
    obtain ⟨_, hdead, _, -, ⟨auditHash, db₁⟩, haudit, -, rfl⟩ := h
    obtain ⟨auditLog, hdb⟩ := recordAuditEvent_eq_ok haudit
    simp only at hdb
    subst hdb
    dsimp only
    refine tableChange_modify hrow ?_
    refine ⟨fun hs => ?_, rfl, by simp [hdead], by simp⟩
    have hpos : 0 < (request.maxAttempts.map Int.toNat).getD row.maxAttempts := by
      rw [raiseIf_eq_ok] at hlimit
      cases hm : request.maxAttempts with
      | none => exact hs.maxAttempts
      | some limit =>
        have hrange : 1 ≤ limit ∧ limit ≤ 100 := by
          by_contra hnot
          exact hlimit ⟨limit, hm, hnot⟩
        simp only [Option.map_some, Option.getD_some]
        omega
    exact ⟨by simp, by simp, Nat.zero_le _, fun _ => hpos, hpos⟩

theorem tableChange_purgeSucceededUploads {olderThan : String} {limit : Int} {count : Nat}
    (h : purgeSucceededUploads olderThan limit db = .ok (count, db')) :
    TableChange call db.uploads db'.uploads := by
  obtain ⟨deleted, hdeleted, rfl⟩ := purgeSucceededUploads_eq_ok h
  refine ⟨fun id row' hrow' => .inl ?_, fun id row hrow hnone => ?_⟩
  · obtain ⟨-, row, hrow, rfl⟩ := get?_deleteUploads.mp hrow'
    exact ⟨row, hrow, fun hs => ⟨hs.leaseToken, hs.leasedUntil, hs.attempts, hs.pending,
      hs.maxAttempts⟩, rfl, fun hs => hs, .inl⟩
  · by_cases hid : id ∈ deleted
    · obtain ⟨row', hrow', hd⟩ := hdeleted.delivered id hid
      rw [hrow, Option.some.injEq] at hrow'
      rwa [hrow']
    · rw [get?_deleteUploads.mpr ⟨hid, row, hrow, rfl⟩] at hnone
      cases hnone

/-- Every call, also one that raises. -/
theorem tableChange_perform (rt : Runtime) (call : QueueCall) (db : Database) :
    TableChange call db.uploads (call.perform rt db).uploads := by
  have hcommitted : ∀ {α : Type} (r : Except StorageError (α × Database)),
      (∀ result db', r = .ok (result, db') → TableChange call db.uploads db'.uploads) →
      TableChange call db.uploads (committed db r).uploads := by
    intro α r hr
    cases r with
    | error e => exact .refl _ _
    | ok x => exact hr x.1 x.2 rfl
  cases call with
  | enqueue request uuid now => exact hcommitted _ fun _ _ => tableChange_enqueueUpload
  | claim limit leaseSeconds current leaseToken =>
    exact hcommitted _ fun _ _ => tableChange_claimUploads
  | succeeded uploadId leaseToken deliveredAt =>
    exact hcommitted _ fun _ _ => tableChange_markUploadSucceeded
  | failed uploadId leaseToken failure current =>
    exact hcommitted _ fun _ _ => tableChange_markUploadFailed
  | resync uploadId leaseToken error uuid current =>
    exact hcommitted _ fun _ _ => tableChange_scheduleFullResync
  | requeue uploadId request recordedAt auditEventId current =>
    exact hcommitted _ fun _ _ => tableChange_requeueDeadUpload
  | purge olderThan limit => exact hcommitted _ fun _ _ => tableChange_purgeSucceededUploads
  | stored snapshots payloads => exact .refl _ _

end

/-! ## Runs -/

theorem soundOutbox_run (rt : Runtime) (calls : List QueueCall) :
    SoundOutbox (runFrom (fun db call => call.perform rt db) Database.empty calls).uploads := by
  have hempty : SoundOutbox Database.empty.uploads :=
    ⟨fun _ _ h => (nomatch h), fun _ _ _ _ h => (nomatch h)⟩
  exact run_invariant (P := fun db : Database => SoundOutbox db.uploads)
    (fun db call h => (tableChange_perform rt call db).sound h) hempty

/--
In every state that a run of the queue reaches, the rows are sound and their keys are unique,
and what the next call does to them is safe.
-/
theorem outbox_rows (rt : Runtime) (calls : List QueueCall) (call : QueueCall) :
    let db := runFrom (fun db call => call.perform rt db) Database.empty calls
    SoundOutbox db.uploads ∧ SafeStep call db.uploads (call.perform rt db).uploads := by
  intro db
  exact ⟨soundOutbox_run rt calls, (tableChange_perform rt call db).safe⟩

end OsScanner.Storage

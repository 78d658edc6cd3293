import Mathlib
import OsScanner.Storage.Leases
import OsScanner.Storage.Texts
import OsScanner.Transport.Worker

/-!
# Recording the outcome of a request

When the worker can record what became of a request: a delivery always, a failure only under the
lease of the upload, and a conflict unless the payload is no JSON. What is recorded leaves the
upload leased to nobody, and none of the worker's own calls gives a lease out.
-/

namespace OsScanner.Transport

open Lib Lib.Check Storage

variable {rt : Runtime} {worker : UploadWorker} {db db' after : Database}

/-! ## Outcomes that can be recorded -/

/-- The row of the upload, when its lease is still held at the end of the request. -/
def Handled.leased (h : Handled) : Option UploadRow :=
  leasedUpload h.atOutcome h.upload.uploadId h.upload.leaseToken

/-- The outcome asks for a full resync. -/
def Handled.rebased (h : Handled) : Bool :=
  match h.delivery.outcome with
  | .cloudApiError statusCode .. => isConflict statusCode && !isRecoveryUpload h.upload
  | _ => false

/-- There is no recovery upload for the row, and none can be made. -/
def recoveryRefused (rt : Runtime) (row : UploadRow) (uploadId : Nat) (uuid : String) (current : ℚ)
    (db : Database) : Prop :=
  ∃ e, (recoveryFor rt row uploadId uuid current db >>= fun recovery => recoverWith recovery db) =
    .error e

/--
A conflict can be recorded: by a recovery upload, unless the payload is no JSON, or when that is
refused as a failure, under the lease that must be held then.
-/
def CanRebase (rt : Runtime) (upload : QueuedUpload) (delivery : Delivery) (db : Database) : Prop :=
  (∀ row, leasedUpload db upload.uploadId upload.leaseToken = some row →
      row.isRecovery = true ∨ row.payload.parse ≠ none) ∧
    ((∀ row, leasedUpload db upload.uploadId upload.leaseToken = some row →
        recoveryRefused rt row upload.uploadId delivery.recoveryRequestId delivery.rebasedAt db) →
      leasedUpload (performed rt delivery.afterRefusal db) upload.uploadId upload.leaseToken ≠ none)

/-- The outcome of the request can be recorded. -/
def Handled.Recordable (rt : Runtime) (h : Handled) : Prop :=
  h.delivery.outcome = .delivered ∨ (h.rebased = false ∧ h.leased ≠ none) ∨
    (h.rebased = true ∧ CanRebase rt h.upload h.delivery h.atOutcome)

/-! ## Lease tokens -/

theorem UuidHex.strip_text (token : UuidHex) : strip token.text = token.text :=
  strip_of_no_space fun c hc => not_isSpace_of_isAlphanum (token.digits c hc)

theorem UuidHex.clean (token : UuidHex) :
    cleanIdentifier (.str token.text) "lease_token" = .ok token.text := by
  have hlength : token.text.length = 32 := by
    rw [← String.length_toList, token.length]
  rw [cleanIdentifier_eq_ok]
  refine ⟨token.text, rfl, token.strip_text.symm, ?_, ?_, ?_⟩
  · rw [token.strip_text]
    intro hempty
    rw [hempty] at hlength
    cases hlength
  · rw [token.strip_text, hlength]
    decide
  · rw [token.strip_text, List.any_eq_false]
    intro c hc
    simp [not_isControl_of_isAlphanum (token.digits c hc)]

/-! ## Claims -/

/-- A claim with a valid lease raises nothing. -/
theorem claimUploads_ok (hlinked : CausallyLinked db.uploads) {lease current : ℚ}
    (hlease : 1 ≤ lease ∧ lease ≤ 86400) (leaseToken : Nat → String) :
    ∃ leases db', claimUploads rt 1 lease current leaseToken db = .ok (leases, db') ∧
      (∀ upload ∈ leases, upload.leaseToken = leaseToken upload.uploadId) ∧
      (leases = [] → ∀ id row, db'.uploads.get? id = some row →
        claimable db'.uploads current row = false) := by
  have hlimit : ¬ ¬ ((1 : Int) ≤ 1 ∧ (1 : Int) ≤ 1000) := by decide
  have hvalid : ¬ ¬ (1 ≤ lease ∧ lease ≤ 86400) := not_not.mpr hlease
  unfold claimUploads raiseIf
  rw [if_neg hlimit, if_neg hvalid, backfillCausalLinks_of_linked hlinked]
  refine ⟨_, _, rfl, fun upload hupload => ?_, fun hnone id row hrow => ?_⟩
  · obtain ⟨e, -, rfl⟩ := List.mem_map.mp hupload
    rfl
  · -- Nothing was leased, so the rows are those that the lease of each was looked at.
    set expired := db.uploads.update fun _ row => expireLease current row with hexpired
    have hrows : claimedRows expired current (1 : Int).toNat = [] := List.map_eq_nil_iff.mp hnone
    have hsame : ∀ f : Nat → UploadRow → UploadRow, expired.update (fun id row =>
        if id ∈ ([] : List (Nat × UploadRow)).map Prod.fst then f id row else row) = expired :=
      fun f => Table.update_eq_self fun id row _ => by simp
    dsimp only at hrow ⊢
    rw [hrows, hsame fun id row => leaseUpload current lease (leaseToken id) row] at hrow ⊢
    have hselect : (expired.select fun _ row => claimable expired current row) = [] := by
      rw [claimedRows, show (1 : Int).toNat = 1 from rfl, List.take_eq_nil_iff] at hrows
      rcases hrows with h | h
      · cases h
      · have hlength := (List.perm_insertionSort claimOrder
          (expired.select fun _ row => claimable expired current row)).length_eq
        rw [h] at hlength
        exact List.length_eq_zero_iff.mp hlength.symm
    by_contra hclaimable
    have hmem : (id, row) ∈ expired.select fun _ row => claimable expired current row :=
      Table.mem_select.mpr ⟨hrow, by simpa using hclaimable⟩
    rw [hselect] at hmem
    cases hmem

/-! ## Recording a failure -/

theorem ok_bind {ε α β : Type} (a : α) (f : α → Except ε β) : ((.ok a : Except ε α) >>= f) = f a := rfl

section

variable {upload : QueuedUpload} {delivery : Delivery} {token : UuidHex}

/-- A row that is not in flight is leased to nobody. -/
theorem leasedUpload_modify {f : UploadRow → UploadRow} {id : Nat} {leaseToken : String}
    (hf : ∀ row, (f row).status ≠ .inFlight) :
    leasedUpload { db with uploads := db.uploads.modify id f } id leaseToken = none := by
  unfold leasedUpload
  rw [Option.filter_eq_none_iff]
  intro row' hrow'
  dsimp only at hrow'
  rw [Table.get?_modify, if_pos rfl, Option.map_eq_some_iff] at hrow'
  obtain ⟨row, -, rfl⟩ := hrow'
  simp [hf row]

theorem markFailed_of_lost (htoken : upload.leaseToken = token.text) (error : String)
    (isPermanent : Bool) (retryAfterSeconds : Option ℚ)
    (h : leasedUpload db upload.uploadId upload.leaseToken = none) :
    ∃ e, worker.markFailed rt upload delivery error isPermanent retryAfterSeconds db =
      (.error e, db) := by
  rw [htoken] at h
  unfold UploadWorker.markFailed markUploadFailed
  rw [htoken, token.clean, ok_bind, h]
  exact ⟨_, rfl⟩

theorem delayForAttempt_ok (policy : RetryPolicy) {attempt : Nat} (h : 1 ≤ attempt)
    (uniform : ℚ → ℚ → ℚ) : ∃ delay, policy.delayForAttempt attempt uniform = .ok delay := by
  unfold RetryPolicy.delayForAttempt raiseIf
  rw [if_neg (by omega)]
  exact ⟨_, rfl⟩

/-- Under a lease the next attempt can be planned: there was an attempt. -/
theorem markFailed_of_leased (hd : Deliverable db.uploads)
    (htoken : upload.leaseToken = token.text) (error : String) (isPermanent : Bool)
    (retryAfterSeconds : Option ℚ) {row : UploadRow}
    (h : leasedUpload db upload.uploadId upload.leaseToken = some row) :
    ∃ counted after, worker.markFailed rt upload delivery error isPermanent retryAfterSeconds db =
        (.ok counted, after) ∧ (counted = .dead ∨ counted = .retried) ∧
      leasedUpload after upload.uploadId upload.leaseToken = none := by
  obtain ⟨hrow, hflight, -⟩ := leasedUpload_eq_some h
  obtain ⟨delay, hdelay⟩ := delayForAttempt_ok worker.retryPolicy
    (hd.attempted _ _ hrow hflight) delivery.uniform
  obtain ⟨status, result, hmark⟩ : ∃ status result, markUploadFailed rt upload.uploadId
      upload.leaseToken (worker.failure delivery error isPermanent retryAfterSeconds)
      delivery.failedAt db = .ok (status, result) := by
    rw [htoken] at h
    unfold markUploadFailed nextAttempt UploadWorker.failure
    rw [htoken, token.clean, ok_bind, h]
    simp only [retryPolicyOr, ok_bind, hdelay]
    cases isPermanent || decide (row.attemptCount ≥ row.maxAttempts) with
    | true => exact ⟨_, _, rfl⟩
    | false =>
      cases retryAfterSeconds with
      | none => exact ⟨_, _, rfl⟩
      | some wait => exact ⟨_, _, rfl⟩
  obtain ⟨row', nextAttemptAt, -, hstatus, hresult⟩ := markUploadFailed_cases hmark
  have hreleased : leasedUpload result upload.uploadId upload.leaseToken = none := by
    rw [hresult]
    refine leasedUpload_modify fun row => ?_
    show status ≠ .inFlight
    rcases hstatus with rfl | rfl <;> simp
  refine ⟨countFailed status, result, ?_, ?_, hreleased⟩
  · unfold UploadWorker.markFailed
    rw [hmark]
    rfl
  · rcases hstatus with rfl | rfl
    · exact .inl rfl
    · exact .inr rfl

/-- A delivery is recorded without a lease as well, as nothing. -/
theorem delivered_recorded (htoken : upload.leaseToken = token.text) :
    ∃ counted after, recorded (fun done => if done then Counted.succeeded else .nothing) db
        (markUploadSucceeded upload.uploadId upload.leaseToken delivery.deliveredAt db) =
          (.ok counted, after) ∧
      (leasedUpload db upload.uploadId upload.leaseToken ≠ none → counted = .succeeded) ∧
      leasedUpload after upload.uploadId upload.leaseToken = none := by
  unfold markUploadSucceeded
  rw [htoken, token.clean, ok_bind]
  cases h : leasedUpload db upload.uploadId token.text with
  | none => exact ⟨.nothing, db, rfl, fun hne => absurd rfl hne, h⟩
  | some row => exact ⟨.succeeded, _, rfl, fun _ => rfl, leasedUpload_modify fun row => by simp⟩

/-! ## Scheduling a recovery -/

theorem isStorageError_storage (message : String) :
    StorageError.isStorageError ⟨.storage, message⟩ = true := by
  simp [StorageError.isStorageError]

theorem inventorySyncOf_error {payload : JsonObject} {e : StorageError}
    (h : inventorySyncOf payload = .error e) : e.isStorageError = true := by
  unfold inventorySyncOf at h
  dsimp only at h
  split at h
  · cases h
  · cases h
    exact isStorageError_storage _

theorem resyncScanId_error {metadata sync : JsonObject} {e : StorageError}
    (h : resyncScanId metadata sync = .error e) : e.isStorageError = true := by
  unfold resyncScanId at h
  dsimp only at h
  split at h
  · cases h
  · cases h
    exact isStorageError_storage _

/-- Only of a payload that is no JSON the error is not one of the storage. -/
theorem recoveryFor_error {row : UploadRow} {uploadId : Nat} {uuid : String} {current : ℚ}
    {e : StorageError} (h : recoveryFor rt row uploadId uuid current db = .error e) :
    e.isStorageError = true ↔ row.isRecovery = true ∨ row.payload.parse ≠ none := by
  unfold recoveryFor raiseIf at h
  split at h
  · next hrecovery =>
    cases h
    exact iff_of_true (isStorageError_storage _) (.inl hrecovery)
  · next hrecovery =>
    rw [ok_bind] at h
    split at h
    · next hparse =>
      cases h
      refine iff_of_false (by simp [StorageError.isStorageError]) ?_
      rintro (hflag | hne)
      · exact hrecovery hflag
      · exact hne hparse
    · next original hparse =>
      refine iff_of_true ?_ (.inr (by simp [hparse]))
      cases hsync : inventorySyncOf original with
      | error e' =>
        rw [hsync] at h
        cases h
        exact inventorySyncOf_error hsync
      | ok sync =>
        rw [hsync, ok_bind] at h
        cases hscan : resyncScanId row.metadata sync with
        | error e' =>
          rw [hscan] at h
          cases h
          exact resyncScanId_error hscan
        | ok scanId =>
          rw [hscan, ok_bind] at h
          split at h
          · cases h
            exact isStorageError_storage _
          · cases h
    · next hparse =>
      cases h
      exact iff_of_true (isStorageError_storage _) (.inr (by simp [hparse]))

theorem recovery_resyncFor {row recovery : UploadRow} {uploadId : Nat} {uuid : String} {current : ℚ}
    (h : recoveryFor rt row uploadId uuid current db = .ok recovery) :
    recovery.resyncForUploadId = some uploadId := by
  obtain ⟨-, _, _, _, _, _, -, -, -, -, rfl⟩ := recoveryFor_eq_ok h
  rfl

/-- An upload in flight has no recovery upload yet, so the new one breaks no constraint. -/
theorem recoverWith_error (hd : Deliverable db.uploads) {row recovery : UploadRow} {uploadId : Nat}
    (hrow : db.uploads.get? uploadId = some row) (hflight : row.status = .inFlight)
    (hfor : recovery.resyncForUploadId = some uploadId) {e : StorageError}
    (h : recoverWith recovery db = .error e) : e.isStorageError = true := by
  unfold recoverWith raiseIf at h
  split at h
  · split at h
    · cases h
      simp [StorageError.isStorageError]
    · cases h
  · have hnone : (db.uploads.first? fun _ row =>
        decide (row.resyncForUploadId = recovery.resyncForUploadId)) = none := by
      rw [Table.first?_eq_none]
      intro r other hother
      rw [decide_eq_false_iff_not, hfor]
      intro hsame
      have hdead := (hd.replaced r other uploadId row hother hsame hrow).1
      rw [hflight] at hdead
      cases hdead
    rw [if_neg (not_not.mpr hnone)] at h
    cases h

/-- Without a lease there is nothing to recover. -/
theorem scheduleResync_of_lost (htoken : upload.leaseToken = token.text) (error : String)
    (h : leasedUpload db upload.uploadId upload.leaseToken = none) :
    ∃ e, UploadWorker.scheduleResync rt upload delivery error db = .error e ∧
      e.isStorageError = true := by
  rw [htoken] at h
  unfold UploadWorker.scheduleResync scheduleFullResync
  rw [htoken, token.clean, ok_bind, h]
  exact ⟨_, rfl, isStorageError_storage _⟩

theorem scheduleResync_of_refused (hd : Deliverable db.uploads)
    (htoken : upload.leaseToken = token.text) (error : String) {row : UploadRow}
    (h : leasedUpload db upload.uploadId upload.leaseToken = some row)
    (hrefused : recoveryRefused rt row upload.uploadId delivery.recoveryRequestId
      delivery.rebasedAt db) :
    ∃ e, UploadWorker.scheduleResync rt upload delivery error db = .error e ∧
      (e.isStorageError = true ↔ row.isRecovery = true ∨ row.payload.parse ≠ none) := by
  obtain ⟨hrow, hflight, -⟩ := leasedUpload_eq_some h
  obtain ⟨e, he⟩ := hrefused
  rw [htoken] at h
  unfold UploadWorker.scheduleResync scheduleFullResync
  rw [htoken, token.clean, ok_bind, h]
  dsimp only
  cases hrecovery : recoveryFor rt row upload.uploadId delivery.recoveryRequestId
      delivery.rebasedAt db with
  | error e' => exact ⟨e', rfl, recoveryFor_error hrecovery⟩
  | ok recovery =>
    rw [hrecovery, ok_bind] at he
    rw [ok_bind, he]
    have hstorage := recoverWith_error hd hrow hflight (recovery_resyncFor hrecovery) he
    obtain ⟨-, _, _, _, _, _, hparse, -⟩ := recoveryFor_eq_ok hrecovery
    exact ⟨e, rfl, iff_of_true hstorage (.inr (by simp [hparse]))⟩

theorem scheduleResync_of_recovered (htoken : upload.leaseToken = token.text) (error : String)
    {row : UploadRow} (h : leasedUpload db upload.uploadId upload.leaseToken = some row)
    (hrecovered : ¬ recoveryRefused rt row upload.uploadId delivery.recoveryRequestId
      delivery.rebasedAt db) :
    row.payload.parse ≠ none ∧ ∃ result after,
      UploadWorker.scheduleResync rt upload delivery error db = .ok (result, after) ∧
        leasedUpload after upload.uploadId upload.leaseToken = none := by
  rw [htoken] at h ⊢
  unfold UploadWorker.scheduleResync scheduleFullResync
  rw [htoken, token.clean, ok_bind, h]
  dsimp only
  cases hrecovery : recoveryFor rt row upload.uploadId delivery.recoveryRequestId
      delivery.rebasedAt db with
  | error e => exact absurd ⟨e, by rw [hrecovery]; rfl⟩ hrecovered
  | ok recovery =>
    cases hwith : recoverWith recovery db with
    | error e => exact absurd ⟨e, by rw [hrecovery, ok_bind, hwith]⟩ hrecovered
    | ok x =>
      obtain ⟨-, _, _, _, _, _, hparse, -⟩ := recoveryFor_eq_ok hrecovery
      rw [ok_bind, hwith]
      exact ⟨by simp [hparse], _, _, rfl, leasedUpload_modify fun row => by simp⟩

/-! ## The outcome of a request -/

theorem recorded_snd {α : Type} (count : α → Counted) (r : Except StorageError (α × Database)) :
    (recorded count db r).2 = committed db r := by
  cases r <;> rfl

/-- The calls that settle an outcome, of which the worker's own give no lease out. -/
def SettledBy (rt : Runtime) (delivery : Delivery) (db after : Database) : Prop :=
  ∃ calls, after = performed rt calls db ∧
    ∀ call ∈ calls, call ∈ delivery.afterRefusal ∨ ∀ id token, ¬ call.Draws id token

theorem SettledBy.of_call (call : QueueCall) (hdraws : ∀ id token, ¬ call.Draws id token) :
    SettledBy rt delivery db (call.perform rt db) :=
  ⟨[call], rfl, fun _ hc => .inr (List.mem_singleton.mp hc ▸ hdraws)⟩

theorem SettledBy.trans (h : SettledBy rt delivery db db') (h' : SettledBy rt delivery db' after) :
    SettledBy rt delivery db after := by
  obtain ⟨calls, rfl, hcalls⟩ := h
  obtain ⟨calls', rfl, hcalls'⟩ := h'
  refine ⟨calls ++ calls', (runFrom_append _ _ _ _).symm, fun call hc => ?_⟩
  rcases List.mem_append.mp hc with hc | hc
  · exact hcalls call hc
  · exact hcalls' call hc

theorem settledBy_markFailed (error : String) (isPermanent : Bool) (retryAfterSeconds : Option ℚ) :
    SettledBy rt delivery db
      (worker.markFailed rt upload delivery error isPermanent retryAfterSeconds db).2 := by
  unfold UploadWorker.markFailed
  rw [recorded_snd]
  refine .of_call (.failed upload.uploadId upload.leaseToken
    (worker.failure delivery error isPermanent retryAfterSeconds) delivery.failedAt) ?_
  rintro id token ⟨_, _, _, _, h, -⟩
  cases h

theorem settledBy_rebase (error : String) :
    SettledBy rt delivery db (worker.rebase rt upload delivery error db).2 := by
  unfold UploadWorker.rebase
  split
  · next result db' hresync =>
    have hperform : QueueCall.perform rt (.resync upload.uploadId upload.leaseToken error
        delivery.recoveryRequestId delivery.rebasedAt) db = db' := by
      show committed db (UploadWorker.scheduleResync rt upload delivery error db) = db'
      rw [hresync]
      rfl
    show SettledBy rt delivery db db'
    rw [← hperform]
    refine .of_call _ ?_
    rintro id token ⟨_, _, _, _, h, -⟩
    cases h
  · next e _ =>
    split
    · have hrefused : SettledBy rt delivery db (performed rt delivery.afterRefusal db) :=
        ⟨delivery.afterRefusal, rfl, fun _ => .inl⟩
      exact hrefused.trans (settledBy_markFailed _ _ _)
    · exact ⟨[], rfl, fun _ h => absurd h List.not_mem_nil⟩

theorem settledBy_settle : SettledBy rt delivery db (worker.settle rt upload delivery db).2 := by
  unfold UploadWorker.settle
  split
  · rw [recorded_snd]
    refine .of_call (.succeeded upload.uploadId upload.leaseToken delivery.deliveredAt) ?_
    rintro id token ⟨_, _, _, _, h, -⟩
    cases h
  · dsimp only
    split
    · exact settledBy_rebase _
    · exact settledBy_markFailed _ _ _
  · exact settledBy_markFailed _ _ _
  · exact settledBy_markFailed _ _ _

/-- A failure is recorded exactly under the lease. -/
theorem markFailed_cases (hd : Deliverable db.uploads) (htoken : upload.leaseToken = token.text)
    (error : String) (isPermanent : Bool) (retryAfterSeconds : Option ℚ) :
    (leasedUpload db upload.uploadId upload.leaseToken ≠ none ∧
      ∃ counted after, worker.markFailed rt upload delivery error isPermanent retryAfterSeconds db =
        (.ok counted, after) ∧ counted ≠ .nothing ∧
          leasedUpload after upload.uploadId upload.leaseToken = none) ∨
    (leasedUpload db upload.uploadId upload.leaseToken = none ∧
      ∃ e after, worker.markFailed rt upload delivery error isPermanent retryAfterSeconds db =
        (.error e, after)) := by
  cases hlease : leasedUpload db upload.uploadId upload.leaseToken with
  | none =>
    obtain ⟨e, he⟩ := markFailed_of_lost htoken error isPermanent retryAfterSeconds hlease
    exact .inr ⟨rfl, e, db, he⟩
  | some row =>
    obtain ⟨counted, after, hmark, hcounted, hreleased⟩ := markFailed_of_leased hd htoken error
      isPermanent retryAfterSeconds hlease
    refine .inl ⟨by simp, counted, after, hmark, ?_, hreleased⟩
    rcases hcounted with rfl | rfl <;> simp

theorem deliverable_performed (hd : Deliverable db.uploads) (calls : List QueueCall) :
    Deliverable (performed rt calls db).uploads := by
  unfold performed
  induction calls generalizing db with
  | nil => exact hd
  | cons call calls ih => exact ih (deliverable_perform hd call)

/-- A conflict is recorded by a recovery upload, or as a failure after that was refused. -/
theorem rebase_cases (hd : Deliverable db.uploads) (htoken : upload.leaseToken = token.text)
    (error : String) :
    (CanRebase rt upload delivery db ∧
      ∃ counted after, worker.rebase rt upload delivery error db = (.ok counted, after) ∧
        counted ≠ .nothing ∧ leasedUpload after upload.uploadId upload.leaseToken = none) ∨
    (¬ CanRebase rt upload delivery db ∧
      ∃ e after, worker.rebase rt upload delivery error db = (.error e, after)) := by
  -- A refusal that the worker catches leaves the failure to be recorded.
  have hcaught : ∀ e, UploadWorker.scheduleResync rt upload delivery error db = .error e →
      e.isStorageError = true → worker.rebase rt upload delivery error db =
        worker.markFailed rt upload delivery e.message true none
          (performed rt delivery.afterRefusal db) := by
    intro e he hstorage
    unfold UploadWorker.rebase
    rw [he]
    exact if_pos hstorage
  have hlater := fun message => @markFailed_cases rt worker (performed rt delivery.afterRefusal db)
    upload delivery token (deliverable_performed hd _) htoken message true none
  unfold CanRebase
  cases hlease : leasedUpload db upload.uploadId upload.leaseToken with
  | none =>
    obtain ⟨e, he, hstorage⟩ : ∃ e, UploadWorker.scheduleResync rt upload delivery error db =
        .error e ∧ e.isStorageError = true := scheduleResync_of_lost htoken error hlease
    rw [hcaught e he hstorage]
    rcases hlater e.message with ⟨hheld, hok⟩ | ⟨hlost, herror⟩
    · exact .inl ⟨⟨by simp, fun _ => hheld⟩, hok⟩
    · exact .inr ⟨fun h => h.2 (by simp) hlost, herror⟩
  | some row =>
    by_cases hrefused : recoveryRefused rt row upload.uploadId delivery.recoveryRequestId
        delivery.rebasedAt db
    · obtain ⟨e, he, hstorage⟩ := scheduleResync_of_refused hd htoken error hlease hrefused
      by_cases hparse : row.isRecovery = true ∨ row.payload.parse ≠ none
      · rw [hcaught e he (hstorage.mpr hparse)]
        rcases hlater e.message with ⟨hheld, hok⟩ | ⟨hlost, herror⟩
        · refine .inl ⟨⟨?_, fun _ => hheld⟩, hok⟩
          rintro _ ⟨⟩
          exact hparse
        · refine .inr ⟨fun h => h.2 ?_ hlost, herror⟩
          rintro _ ⟨⟩
          exact hrefused
      · refine .inr ⟨fun h => hparse (h.1 row rfl), e, db, ?_⟩
        unfold UploadWorker.rebase
        rw [he]
        exact if_neg fun h => hparse (hstorage.mp h)
    · obtain ⟨hparse, result, after, hresync, hreleased⟩ :=
        scheduleResync_of_recovered htoken error hlease hrefused
      refine .inl ⟨⟨?_, fun h => absurd (h row rfl) hrefused⟩, .retried, after, ?_, by simp,
        hreleased⟩
      · rintro _ ⟨⟩
        exact .inr hparse
      · unfold UploadWorker.rebase
        rw [hresync]

/-- The outcome is recorded, or it cannot be. -/
theorem settle_cases (hd : Deliverable db.uploads) (htoken : upload.leaseToken = token.text)
    (after₀ : Database) :
    (Handled.Recordable rt ⟨upload, delivery, db, after₀⟩ ∧
      ∃ counted after, worker.settle rt upload delivery db = (.ok counted, after) ∧
        (leasedUpload db upload.uploadId upload.leaseToken ≠ none → counted ≠ .nothing) ∧
        leasedUpload after upload.uploadId upload.leaseToken = none) ∨
    (¬ Handled.Recordable rt ⟨upload, delivery, db, after₀⟩ ∧
      ∃ e after, worker.settle rt upload delivery db = (.error e, after)) := by
  -- Every failure but a conflict.
  have hfailure : ∀ error isPermanent retryAfterSeconds, delivery.outcome ≠ .delivered →
      Handled.rebased ⟨upload, delivery, db, after₀⟩ = false →
      worker.settle rt upload delivery db =
        worker.markFailed rt upload delivery error isPermanent retryAfterSeconds db →
      (Handled.Recordable rt ⟨upload, delivery, db, after₀⟩ ∧
        ∃ counted after, worker.settle rt upload delivery db = (.ok counted, after) ∧
          (leasedUpload db upload.uploadId upload.leaseToken ≠ none → counted ≠ .nothing) ∧
          leasedUpload after upload.uploadId upload.leaseToken = none) ∨
      (¬ Handled.Recordable rt ⟨upload, delivery, db, after₀⟩ ∧
        ∃ e after, worker.settle rt upload delivery db = (.error e, after)) := by
    intro error isPermanent retryAfterSeconds hne hrebased hsettle
    rw [hsettle]
    rcases markFailed_cases hd htoken error isPermanent retryAfterSeconds with
      ⟨hheld, counted, after, hmark, hcounted, hreleased⟩ | ⟨hlost, herror⟩
    · exact .inl ⟨.inr (.inl ⟨hrebased, hheld⟩), counted, after, hmark, fun _ => hcounted, hreleased⟩
    · refine .inr ⟨?_, herror⟩
      rintro (hdelivered | ⟨-, hheld⟩ | ⟨htrue, -⟩)
      · exact hne hdelivered
      · exact hheld hlost
      · rw [hrebased] at htrue
        cases htrue
  cases houtcome : delivery.outcome with
  | delivered =>
    obtain ⟨counted, after, hrecord, hcounted, hreleased⟩ :=
      @delivered_recorded db upload delivery token htoken
    refine .inl ⟨.inl houtcome, counted, after, ?_, fun h => by simp [hcounted h], hreleased⟩
    unfold UploadWorker.settle
    rw [houtcome]
    exact hrecord
  | cloudApiError statusCode requestId retryable retryAfterSeconds =>
    by_cases hconflict : (isConflict statusCode && !isRecoveryUpload upload) = true
    · have hrebased : Handled.rebased ⟨upload, delivery, db, after₀⟩ = true := by
        unfold Handled.rebased
        rw [houtcome]
        exact hconflict
      have hsettle : worker.settle rt upload delivery db =
          worker.rebase rt upload delivery (cloudApiErrorText statusCode requestId) db := by
        unfold UploadWorker.settle
        rw [houtcome]
        exact if_pos hconflict
      rw [hsettle]
      rcases rebase_cases hd htoken (cloudApiErrorText statusCode requestId) with
        ⟨hcond, counted, after, hrebase, hcounted, hreleased⟩ | ⟨hcond, herror⟩
      · exact .inl ⟨.inr (.inr ⟨hrebased, hcond⟩), counted, after, hrebase, fun _ => hcounted,
          hreleased⟩
      · refine .inr ⟨?_, herror⟩
        rintro (hdelivered | ⟨hfalse, -⟩ | ⟨-, hholds⟩)
        · rw [show delivery.outcome = _ from houtcome] at hdelivered
          cases hdelivered
        · rw [hrebased] at hfalse
          cases hfalse
        · exact hcond hholds
    · refine hfailure (cloudApiErrorText statusCode requestId) (!retryable) retryAfterSeconds
        (by simp [houtcome]) ?_ ?_
      · unfold Handled.rebased
        rw [houtcome]
        exact Bool.not_eq_true _ ▸ hconflict
      · unfold UploadWorker.settle
        rw [houtcome]
        exact if_neg hconflict
  | transportError message retryable =>
    refine hfailure message (!retryable) none (by simp [houtcome]) ?_ ?_
    · unfold Handled.rebased
      rw [houtcome]
    · unfold UploadWorker.settle
      rw [houtcome]
  | exception typeName =>
    refine hfailure typeName false none (by simp [houtcome]) ?_ ?_
    · unfold Handled.rebased
      rw [houtcome]
    · unfold UploadWorker.settle
      rw [houtcome]

end

end OsScanner.Transport

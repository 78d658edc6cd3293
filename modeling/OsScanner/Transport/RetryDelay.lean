import Mathlib
import OsScanner.Transport.Isolation

/-!
# The delay of a retry

A `Retry-After` header goes from the response (`_retry_after` of `app/transport/client.py`) through
the error to `mark_upload_failed`, which adds it to the clock; without one the delay is that of the
retry policy. The policy bounds its own delay, and nothing bounds that of the header.
-/

namespace OsScanner.Transport

open Lib Lib.Check Storage

/-! ## The header -/

/-- What `float(text)` returns. -/
inductive FloatValue where
  | finite (value : ℚ)
  | positiveInfinity
  | negativeInfinity
  | nan

/-- What the standard library makes of texts; a call that raises returns nothing. -/
structure HeaderLibrary where
  /-- `key.lower()` -/
  lower : String → String
  /-- `float(value)` -/
  float : String → Option FloatValue
  /-- The instant of `parsedate_to_datetime(value)`, in UTC when the text names no offset. -/
  httpDate : String → Option ℚ

/-- `max(0.0, value)`: an infinite delay is a delay, and `nan` is not greater than zero. -/
def FloatValue.nonnegative : FloatValue → WithTop ℚ
  | .finite value => ((max 0 value : ℚ) : WithTop ℚ)
  | .positiveInfinity => ⊤
  | .negativeInfinity => 0
  | .nan => 0

/-- `_retry_after(headers)`, where `now` is the clock. -/
def retryAfter (lib : HeaderLibrary) (now : ℚ) (headers : List (String × String)) :
    Option (WithTop ℚ) :=
  match headers.find? fun header => lib.lower header.1 = "retry-after" with
  | none => none
  | some (_, value) =>
    if value = "" then none
    else
      match lib.float value with
      | some number => some number.nonnegative
      | none => (lib.httpDate value).map fun instant => ((max 0 (instant - now) : ℚ) : WithTop ℚ)

/-! ## The failure -/

/-- `_RETRYABLE_STATUSES` -/
def retryableStatuses : List Int := [408, 425, 429, 500, 502, 503, 504]

/-- How the request of an upload fails. -/
inductive Failure where
  /-- A `CloudApiError`, with the headers of its response and the time they are read at. -/
  | response (statusCode : Int) (requestId : String) (headers : List (String × String)) (readAt : ℚ)
  /-- An `AuthenticationError`: retried, and the headers are not read. -/
  | authentication (statusCode : Int) (requestId : String)
  | network (message : String)
  | exception (typeName : String)

/-- The failure is one that another attempt may follow. -/
def Failure.Retryable : Failure → Prop
  | .response statusCode _ _ _ => statusCode ∈ retryableStatuses
  | .authentication statusCode _ => statusCode = 401 ∨ statusCode = 403
  | .network _ => True
  | .exception _ => True

/-- `exc.retry_after_seconds` -/
def Failure.retryAfterSeconds (lib : HeaderLibrary) : Failure → Option (WithTop ℚ)
  | .response _ _ headers readAt => retryAfter lib readAt headers
  | _ => none

/-- What the worker sees of the failure, as far as the delay is a number. -/
def Failure.outcome (lib : HeaderLibrary) (failure : Failure) : Outcome :=
  match failure with
  | .response statusCode requestId _ _ =>
    .cloudApiError statusCode requestId (decide (statusCode ∈ retryableStatuses))
      ((failure.retryAfterSeconds lib).map fun wait => wait.untopD 0)
  | .authentication statusCode requestId => .cloudApiError statusCode requestId true none
  | .network message => .transportError message true
  | .exception typeName => .exception typeName

/-! ## The next attempt -/

/-- From this number on a product is rounded to infinity. -/
def floatLimit : ℚ := 2 ^ 1024 - 2 ^ 970

/-- `multiplier**exponent` raises `OverflowError`. -/
def Overflows (policy : RetryPolicy) (attempt : Nat) : Prop :=
  floatLimit ≤ policy.multiplier ^ min (attempt - 1) 63

instance (policy : RetryPolicy) (attempt : Nat) : Decidable (Overflows policy attempt) :=
  inferInstanceAs (Decidable (_ ≤ _))

inductive PlanError where
  | storage (error : StorageError)
  | overflow

/-- `delay_for_attempt(attempt)` with the power as Python computes it. -/
def floatDelay (policy : RetryPolicy) (attempt : Nat) (uniform : ℚ → ℚ → ℚ) : Except PlanError ℚ :=
  if 1 ≤ attempt ∧ Overflows policy attempt then .error .overflow
  else (policy.delayForAttempt attempt uniform).mapError .storage

/-- The `next_attempt` of `mark_upload_failed` for a failure that is retried. -/
def plannedAttempt (lib : HeaderLibrary) (policy : RetryPolicy) (row : UploadRow) (failure : Failure)
    (current : ℚ) (uniform : ℚ → ℚ → ℚ) : Except PlanError (WithTop ℚ) :=
  if row.attemptCount ≥ row.maxAttempts then .ok current
  else
    match failure.retryAfterSeconds lib with
    | some wait => .ok (current + max 0 wait)
    | none => do
      let delay ← floatDelay policy row.attemptCount uniform
      .ok ((current + delay : ℚ) : WithTop ℚ)

/-- The time is no earlier than now and no later than the policy allows. -/
def Bounded (policy : RetryPolicy) (current : ℚ) (next : WithTop ℚ) : Prop :=
  (current : WithTop ℚ) ≤ next ∧ next ≤ ((current + policy.maxDelaySeconds : ℚ) : WithTop ℚ)

/-- The failure names no delay that is longer than the policy's, and where it names none the policy
can compute one. -/
def WithinPolicy (lib : HeaderLibrary) (policy : RetryPolicy) (row : UploadRow) (failure : Failure) :
    Prop :=
  row.attemptCount ≥ row.maxAttempts ∨
    match failure.retryAfterSeconds lib with
    | some wait => wait ≤ ((policy.maxDelaySeconds : ℚ) : WithTop ℚ)
    | none => ¬ Overflows policy row.attemptCount

/-! ## The bound -/

section

variable {lib : HeaderLibrary} {policy : RetryPolicy} {row : UploadRow} {failure : Failure}
  {current : ℚ} {uniform : ℚ → ℚ → ℚ}

theorem maxDelay_nonneg (policy : RetryPolicy) : 0 ≤ policy.maxDelaySeconds :=
  policy.base_pos.le.trans policy.base_le_max

theorem bounded_coe {next : ℚ} :
    Bounded policy current (next : WithTop ℚ) ↔
      current ≤ next ∧ next ≤ current + policy.maxDelaySeconds := by
  rw [Bounded, WithTop.coe_le_coe, WithTop.coe_le_coe]

/-- The delay of the policy is within its bounds. -/
theorem delayForAttempt_bounds {attempt : Nat} {delay : ℚ}
    (h : policy.delayForAttempt attempt uniform = .ok delay) :
    0 ≤ delay ∧ delay ≤ policy.maxDelaySeconds := by
  rw [RetryPolicy.delayForAttempt, bind_unit_eq_ok] at h
  obtain ⟨-, h⟩ := h
  cases h
  exact ⟨le_max_left _ _, max_le (maxDelay_nonneg policy) (min_le_left _ _)⟩

theorem retryAfter_nonneg {now : ℚ} {headers : List (String × String)} {wait : WithTop ℚ}
    (h : retryAfter lib now headers = some wait) : 0 ≤ wait := by
  rw [retryAfter] at h
  split at h
  · cases h
  · split at h
    · cases h
    split at h
    · next number _ =>
      cases h
      cases number with
      | finite value => exact WithTop.coe_le_coe.mpr (le_max_left _ _)
      | positiveInfinity => exact le_top
      | negativeInfinity => exact le_rfl
      | nan => exact le_rfl
    · obtain ⟨instant, -, rfl⟩ := Option.map_eq_some_iff.mp h
      exact WithTop.coe_le_coe.mpr (le_max_left _ _)

theorem retryAfterSeconds_nonneg {wait : WithTop ℚ}
    (h : failure.retryAfterSeconds lib = some wait) : 0 ≤ wait := by
  cases failure with
  | response statusCode requestId headers readAt => exact retryAfter_nonneg h
  | authentication statusCode requestId => cases h
  | network message => cases h
  | exception typeName => cases h

/-- The next attempt of an attempted upload is planned and bounded exactly when the failure is within
the policy. -/
theorem plannedAttempt_bounded_iff (hattempted : 1 ≤ row.attemptCount) :
    (∃ next, plannedAttempt lib policy row failure current uniform = .ok next ∧
      Bounded policy current next) ↔ WithinPolicy lib policy row failure := by
  rw [plannedAttempt, WithinPolicy]
  by_cases hterminal : row.attemptCount ≥ row.maxAttempts
  · -- the upload is given up
    rw [if_pos hterminal]
    have hnow : Bounded policy current (current : WithTop ℚ) :=
      bounded_coe.mpr ⟨le_rfl, le_add_of_nonneg_right (maxDelay_nonneg policy)⟩
    exact iff_of_true ⟨_, rfl, hnow⟩ (Or.inl hterminal)
  · rw [if_neg hterminal, or_iff_right hterminal]
    cases hwait : failure.retryAfterSeconds lib with
    | some wait =>
      have hnonneg := retryAfterSeconds_nonneg hwait
      simp only [Except.ok.injEq, exists_eq_left', max_eq_right hnonneg]
      cases wait with
      | top => simp [Bounded]
      | coe wait =>
        rw [← WithTop.coe_add, bounded_coe, WithTop.coe_le_coe]
        have hnonneg' : 0 ≤ wait := WithTop.coe_le_coe.mp hnonneg
        constructor
        · rintro ⟨-, hle⟩
          linarith
        · intro hle
          exact ⟨by linarith, by linarith⟩
    | none =>
      simp only []
      rw [floatDelay]
      by_cases hover : Overflows policy row.attemptCount
      · rw [if_pos ⟨hattempted, hover⟩]
        refine iff_of_false ?_ (not_not.mpr hover)
        rintro ⟨next, h, -⟩
        cases h
      · rw [if_neg fun h => hover h.2]
        refine iff_of_true ?_ hover
        obtain ⟨delay, hdelay⟩ := delayForAttempt_ok policy hattempted uniform
        obtain ⟨hlow, hhigh⟩ := delayForAttempt_bounds hdelay
        rw [hdelay]
        exact ⟨_, rfl, bounded_coe.mpr ⟨by linarith, by linarith⟩⟩

/-! ## What the worker records -/

/-- The worker settles the failure, and the upload is left with a next attempt within the policy. -/
def RetryBounded (rt : Runtime) (lib : HeaderLibrary) (worker : UploadWorker) (upload : QueuedUpload)
    (delivery : Delivery) (failure : Failure) (row : UploadRow) (db : Database) : Prop :=
  ∃ next : ℚ, plannedAttempt lib worker.retryPolicy row failure delivery.failedAt delivery.uniform =
      .ok (next : WithTop ℚ) ∧
    Bounded worker.retryPolicy delivery.failedAt (next : WithTop ℚ) ∧
    ∃ counted after row',
      worker.settle rt upload { delivery with outcome := failure.outcome lib } db =
        (.ok counted, after) ∧
      after.uploads.get? upload.uploadId = some row' ∧ row'.nextAttemptAt = next

variable {rt : Runtime} {worker : UploadWorker} {upload : QueuedUpload} {delivery : Delivery}
  {db : Database} {token : UuidHex}

/-- A failure that is retried is recorded as one, with its delay. -/
theorem settle_failure (hretryable : failure.Retryable) :
    ∃ error, worker.settle rt upload { delivery with outcome := failure.outcome lib } db =
      worker.markFailed rt upload delivery error false
        ((failure.retryAfterSeconds lib).map fun wait => wait.untopD 0) db := by
  cases failure with
  | response statusCode requestId headers readAt =>
    have hmem : statusCode ∈ retryableStatuses := hretryable
    have hconflict : isConflict statusCode = false := by
      simp only [retryableStatuses, List.mem_cons, List.not_mem_nil, or_false] at hmem
      simp only [isConflict, decide_eq_false_iff_not]
      omega
    refine ⟨cloudApiErrorText statusCode requestId, ?_⟩
    simp only [UploadWorker.settle, Failure.outcome, hconflict, Bool.false_and, Bool.false_eq_true,
      if_false, hmem, decide_true, Bool.not_true]
    rfl
  | authentication statusCode requestId =>
    have hstatus : statusCode = 401 ∨ statusCode = 403 := hretryable
    have hconflict : isConflict statusCode = false := by
      simp only [isConflict, decide_eq_false_iff_not]
      omega
    refine ⟨cloudApiErrorText statusCode requestId, ?_⟩
    simp only [UploadWorker.settle, Failure.outcome, hconflict, Bool.false_and, Bool.false_eq_true,
      if_false, Bool.not_true]
    rfl
  | network message => exact ⟨message, rfl⟩
  | exception typeName => exact ⟨typeName, rfl⟩

/-- A plan with a finite delay is what the queue computes. -/
theorem nextAttempt_of_planned {error : String} {next : ℚ}
    (h : plannedAttempt lib worker.retryPolicy row failure delivery.failedAt delivery.uniform =
      .ok (next : WithTop ℚ)) :
    nextAttempt (worker.failure delivery error false
        ((failure.retryAfterSeconds lib).map fun wait => wait.untopD 0)) row
      (decide (row.attemptCount ≥ row.maxAttempts)) delivery.failedAt = .ok next := by
  rw [plannedAttempt] at h
  rw [nextAttempt]
  by_cases hterminal : row.attemptCount ≥ row.maxAttempts
  · rw [if_pos hterminal, Except.ok.injEq, WithTop.coe_inj] at h
    rw [if_pos (decide_eq_true hterminal), h]
  rw [if_neg hterminal] at h
  rw [if_neg (by simpa using hterminal)]
  cases hwait : failure.retryAfterSeconds lib with
  | some wait =>
    simp only [hwait, Except.ok.injEq] at h
    rw [max_eq_right (retryAfterSeconds_nonneg hwait)] at h
    cases wait with
    | top => cases h
    | coe wait =>
      have hnonneg : 0 ≤ wait := WithTop.coe_le_coe.mp (retryAfterSeconds_nonneg hwait)
      rw [← WithTop.coe_add, WithTop.coe_inj] at h
      show Except.ok (delivery.failedAt + max 0 wait) = _
      rw [max_eq_right hnonneg, h]
  | none =>
    simp only [hwait] at h
    obtain ⟨delay, hdelay, h⟩ := bind_eq_ok.mp h
    rw [Except.ok.injEq, WithTop.coe_inj] at h
    rw [floatDelay] at hdelay
    split at hdelay
    · cases hdelay
    rw [Check.mapError_eq_ok] at hdelay
    show (worker.retryPolicy.delayForAttempt row.attemptCount delivery.uniform >>= fun delay =>
      .ok (delivery.failedAt + delay)) = _
    rw [hdelay, ok_bind, h]

/-- A planned attempt is written to the row. -/
theorem markFailed_of_next (htoken : upload.leaseToken = token.text) {error : String}
    {retryAfterSeconds : Option ℚ} {next : ℚ}
    (hleased : leasedUpload db upload.uploadId token.text = some row)
    (hnext : nextAttempt (worker.failure delivery error false retryAfterSeconds) row
      (decide (row.attemptCount ≥ row.maxAttempts)) delivery.failedAt = .ok next) :
    ∃ counted after row', worker.markFailed rt upload delivery error false retryAfterSeconds db =
        (.ok counted, after) ∧
      after.uploads.get? upload.uploadId = some row' ∧ row'.nextAttemptAt = next := by
  obtain ⟨hrow, -, -⟩ := leasedUpload_eq_some hleased
  unfold UploadWorker.markFailed markUploadFailed
  rw [htoken, token.clean, ok_bind, hleased]
  have hterminal : (worker.failure delivery error false retryAfterSeconds).isPermanent = false := rfl
  simp only [hterminal, Bool.false_or, hnext, ok_bind, recorded]
  refine ⟨_, _, ?row, rfl, ?written, ?next⟩
  case written =>
    rw [Table.get?_modify, if_pos rfl, hrow]
    rfl
  case next => rfl

end

/--
In every state that the queue reaches, a failure that is retried leaves the upload with a next
attempt between now and the longest delay of the policy exactly when the failure is within the
policy.
-/
theorem next_attempt_bounded_iff (rt : Runtime) (lib : HeaderLibrary) (worker : UploadWorker)
    (calls : List QueueCall) {upload : QueuedUpload} {token : UuidHex}
    (htoken : upload.leaseToken = token.text) {row : UploadRow}
    (hleased : leasedUpload (performed rt calls Database.empty) upload.uploadId token.text = some row)
    (delivery : Delivery) {failure : Failure} (hretryable : failure.Retryable) :
    RetryBounded rt lib worker upload delivery failure row (performed rt calls Database.empty) ↔
      WithinPolicy lib worker.retryPolicy row failure := by
  obtain ⟨hrow, hflight, -⟩ := leasedUpload_eq_some hleased
  have hattempted : 1 ≤ row.attemptCount :=
    (deliverable_run rt calls).attempted _ _ hrow hflight
  rw [← @plannedAttempt_bounded_iff lib worker.retryPolicy row failure delivery.failedAt
    delivery.uniform hattempted]
  constructor
  · rintro ⟨next, hplan, hbounded, -⟩
    exact ⟨next, hplan, hbounded⟩
  · rintro ⟨next, hplan, hbounded⟩
    obtain ⟨next, rfl⟩ := WithTop.ne_top_iff_exists.mp
      (ne_top_of_le_ne_top WithTop.coe_ne_top hbounded.2)
    obtain ⟨error, hsettle⟩ := @settle_failure lib failure rt worker upload delivery
      (performed rt calls Database.empty) hretryable
    refine ⟨next, hplan, hbounded, ?_⟩
    rw [hsettle]
    exact markFailed_of_next htoken hleased (nextAttempt_of_planned hplan)

/-! ## An upload that is refused for a day -/

/-- An upload that is enqueued and claimed. -/
def claimedOnce : List QueueCall :=
  [.enqueue (statusUpload "endpoint-1") "uuid-1" 0, .claim 1 60 0 fun _ => sampleLease.text]

def claimedUpload : QueuedUpload where
  uploadId := 1
  kind := "scan_status"
  method := "POST"
  endpoint := "/api/v1/scans/status"
  payload := .document (.obj [("endpoint_id", .str "endpoint-1")])
  contentType := "application/json"
  idempotencyKey := "scan-status:endpoint-1"
  requestId := "uuid-1"
  attemptCount := 1
  maxAttempts := 8
  leaseToken := sampleLease.text
  metadata := [("endpoint_id", .str "endpoint-1")]

/-- What the library makes of the headers of this example: a minute, a day and no end. -/
def sampleHeaders : HeaderLibrary where
  lower text := String.ofList (text.toList.map Char.toLower)
  float text :=
    if text = "60" then some (.finite 60)
    else if text = "86400" then some (.finite 86400)
    else if text = "inf" then some .positiveInfinity
    else none
  httpDate _ := none

def unavailable (retryAfter : String) : Failure :=
  .response 503 "uuid-1" [("retry-after", retryAfter)] 1

theorem claimedOnce_leased : ∃ row,
    leasedUpload (performed Runtime.sample claimedOnce Database.empty) claimedUpload.uploadId
      sampleLease.text = some row ∧ row.attemptCount = 1 ∧ row.maxAttempts = 8 := by
  have h : (leasedUpload (performed Runtime.sample claimedOnce Database.empty)
      claimedUpload.uploadId sampleLease.text).map
        (fun row => (row.attemptCount, row.maxAttempts)) = some (1, 8) := by
    decide +kernel
  obtain ⟨row, hrow, hcounts⟩ := Option.map_eq_some_iff.mp h
  rw [Prod.mk.injEq] at hcounts
  exact ⟨row, hrow, hcounts⟩

theorem retryable_unavailable (wait : String) : (unavailable wait).Retryable := by
  show (503 : Int) ∈ retryableStatuses
  decide

theorem retryAfter_unavailable {wait : String} {seconds : ℚ} (hnonneg : 0 ≤ seconds)
    (hwait : wait ≠ "") (h : sampleHeaders.float wait = some (.finite seconds)) :
    (unavailable wait).retryAfterSeconds sampleHeaders = some (seconds : WithTop ℚ) := by
  have hname : sampleHeaders.lower "retry-after" = "retry-after" := by decide +kernel
  show retryAfter sampleHeaders 1 [("retry-after", wait)] = _
  rw [retryAfter, List.find?_cons_of_pos (by simpa using hname)]
  simp only [if_neg hwait, h, FloatValue.nonnegative, max_eq_right hnonneg]

/-- A minute is within the policy. -/
theorem next_attempt_bounded_iff_minute : ∃ row,
    leasedUpload (performed Runtime.sample claimedOnce Database.empty) claimedUpload.uploadId
      sampleLease.text = some row ∧
    RetryBounded Runtime.sample sampleHeaders defaultWorker claimedUpload (deliveredAt 1)
      (unavailable "60") row (performed Runtime.sample claimedOnce Database.empty) := by
  obtain ⟨row, hleased, -⟩ := claimedOnce_leased
  have hminute : sampleHeaders.float "60" = some (.finite 60) := by simp [sampleHeaders]
  refine ⟨row, hleased, (next_attempt_bounded_iff Runtime.sample sampleHeaders defaultWorker
    claimedOnce rfl hleased (deliveredAt 1) (retryable_unavailable "60")).mpr (Or.inr ?_)⟩
  rw [retryAfter_unavailable (by norm_num) (by decide) hminute]
  show ((60 : ℚ) : WithTop ℚ) ≤ ((3600 : ℚ) : WithTop ℚ)
  exact WithTop.coe_le_coe.mpr (by norm_num)

/-- The queue parks an upload for the day that a response asks for. -/
theorem day_exceeds_policy : ∃ row,
    leasedUpload (performed Runtime.sample claimedOnce Database.empty) claimedUpload.uploadId
      sampleLease.text = some row ∧
    (unavailable "86400").Retryable ∧
    ((defaultWorker.settle Runtime.sample claimedUpload
      { deliveredAt 1 with outcome := (unavailable "86400").outcome sampleHeaders }
      (performed Runtime.sample claimedOnce Database.empty)).2.uploads.get? 1).map
        UploadRow.nextAttemptAt = some 86401 ∧
    ¬ RetryBounded Runtime.sample sampleHeaders defaultWorker claimedUpload (deliveredAt 1)
      (unavailable "86400") row (performed Runtime.sample claimedOnce Database.empty) := by
  obtain ⟨row, hleased, hattempt, hmax⟩ := claimedOnce_leased
  have hday : sampleHeaders.float "86400" = some (.finite 86400) := by simp [sampleHeaders]
  refine ⟨row, hleased, retryable_unavailable _, by decide +kernel, ?_⟩
  rintro ⟨next, hplan, hbounded, -⟩
  have hplanned : plannedAttempt sampleHeaders defaultWorker.retryPolicy row (unavailable "86400")
      (deliveredAt 1).failedAt (deliveredAt 1).uniform = .ok ((86401 : ℚ) : WithTop ℚ) := by
    rw [plannedAttempt, if_neg (by omega), retryAfter_unavailable (by norm_num) (by decide) hday]
    show Except.ok (((1 + max 0 86400 : ℚ) : ℚ) : WithTop ℚ) = _
    norm_num
  rw [hplanned, Except.ok.injEq, WithTop.coe_inj] at hplan
  have hlate : next ≤ 1 + 3600 := (bounded_coe.mp hbounded).2
  rw [← hplan] at hlate
  norm_num at hlate

end OsScanner.Transport

import Mathlib
import OsScanner.Cloud.ScanLifecycle

/-!
# The grace window of an upload

Evidence is accepted for a week after the deadline of a job, but only while the record of the
scan is dispatched; and a poll of the same endpoint marks a dispatched record as expired as
soon as it comes across it after the deadline. So the window is open exactly as long as no
poll does.
-/

namespace OsScanner.Cloud

open Lib

/-! ## Polls -/

structure Poll where
  principal : DevicePrincipal
  now : Timestamp
  auditedAt : Timestamp

def pollStep (rt : Runtime) (repo : InMemoryRepository) (poll : Poll) : InMemoryRepository :=
  ((claimNextJob rt poll.principal poll.now poll.auditedAt).run repo).2

theorem get?_pollStep {rt : Runtime} {repo : InMemoryRepository} (hkeys : ScanKeys repo.scans)
    (poll : Poll) (k : String) : (pollStep rt repo poll).scans.get? k =
      (repo.scans.get? k).map (pollRecord rt poll.principal poll.now repo) := by
  have hrun : (claimNextJob rt poll.principal poll.now poll.auditedAt).run repo =
      (((claimNextJob rt poll.principal poll.now poll.auditedAt).run repo).1,
        pollStep rt repo poll) := rfl
  obtain ⟨⟨_, h⟩, -⟩ := claimNextJob_effect hrun
  rw [h]
  exact get?_polledScans hkeys k

/--
The poll does not come across the record at a time when its authorization has ended: it is
early enough, or an earlier job of the endpoint is handed out first.
-/
def PassesBy (rt : Runtime) (k : String) (repo : InMemoryRepository) (poll : Poll) : Prop :=
  ∀ record ∈ repo.scans.get? k,
    record ∈ visited rt poll.principal poll.now (dispatchOrder repo) →
    jobDispatchEligibility rt record poll.principal.endpointId poll.now ≠ .expired

instance (rt : Runtime) (k : String) (repo : InMemoryRepository) (poll : Poll) :
    Decidable (PassesBy rt k repo poll) := by
  unfold PassesBy
  infer_instance

/-- A poll while the authorization is in force passes by. -/
theorem passesBy_of_in_force {rt : Runtime} {k : String} {repo : InMemoryRepository} {poll : Poll}
    (h : ∀ record ∈ repo.scans.get? k,
      jobDispatchEligibility rt record poll.principal.endpointId poll.now ≠ .expired) :
    PassesBy rt k repo poll :=
  fun record hk _ => h record hk

/-- For a job with a complete authorization, its end is its deadline or its expiry. -/
theorem eligibility_expired_iff {rt : Runtime} {record : ScanRecord} {endpointId : String}
    {now deadline validFrom expiresAt : Timestamp} {timeout : Int}
    (hwindow : authorizationWindow rt record.jobDocument endpointId =
      some (deadline, validFrom, expiresAt))
    (hnotBefore : record.jobDocument.get "not_before" = .null)
    (htimeout : leaseTimeout (record.jobDocument.get "timeout_seconds") = some timeout) :
    jobDispatchEligibility rt record endpointId now = .expired ↔ now ≥ deadline ∨ now ≥ expiresAt := by
  simp only [jobDispatchEligibility, hwindow]
  by_cases hend : now ≥ deadline ∨ now ≥ expiresAt
  · simp [hend]
  · by_cases hfrom : now < validFrom
    · simp [hend, hfrom]
    · simp only [hend, if_false, hfrom, hnotBefore, notBeforeEligibility, leaseEligibility, htimeout,
        iff_false]
      by_cases hq : record.state = .queued
      · simp [hq]
      · by_cases hd : record.state = .dispatched
        · by_cases hlease : now ≥ record.updatedAt + seconds (timeout + jobDispatchGraceSeconds) <;>
            simp [hd, hlease]
        · simp [hq, hd]

/-! ## The record through the polls -/

/-- Only the clock of its lease may differ. -/
structure StillDispatched (record record' : ScanRecord) : Prop where
  state : record'.state = .dispatched
  job : record'.jobDocument = record.jobDocument
  scanId : record'.scanId = record.scanId
  endpointId : record'.endpointId = record.endpointId
  tenantId : record'.tenantId = record.tenantId

/-- The check of an upload does not look at the lease. -/
theorem validateScanUpload_congr {rt : Runtime} {record record' : ScanRecord}
    (h : StillDispatched record record') (hd : record.state = .dispatched) (upload : JsonObject)
    (now : Timestamp) :
    validateScanUpload rt record' upload now = validateScanUpload rt record upload now := by
  have hclosed : uploadWindowClosed rt record' now = uploadWindowClosed rt record now := by
    rw [uploadWindowClosed, uploadWindowClosed, h.job]
  simp only [validateScanUpload, h.state, hd, h.job, h.scanId, h.endpointId, hclosed]

theorem validateScanUpload_expired {rt : Runtime} {record : ScanRecord} {upload : JsonObject}
    {now : Timestamp} (h : record.state = .expired) :
    validateScanUpload rt record upload now ≠ .ok () := by
  intro hok
  rw [validateScanUpload_dispatched hok] at h
  cases h

theorem isDispatchCandidate_of_dispatched {principal : DevicePrincipal} {record : ScanRecord}
    (hd : record.state = .dispatched) (htenant : principal.tenantId = record.tenantId)
    (hendpoint : principal.endpointId = record.endpointId) :
    isDispatchCandidate principal record :=
  ⟨htenant.symm, hendpoint.symm, Or.inr hd⟩

/-- A poll that passes by leaves the record dispatched. -/
theorem pollRecord_passes {rt : Runtime} {k : String} {repo : InMemoryRepository} {poll : Poll}
    {record : ScanRecord} (hk : repo.scans.get? k = some record)
    (hd : record.state = .dispatched) (hpasses : PassesBy rt k repo poll) :
    StillDispatched record (pollRecord rt poll.principal poll.now repo record) := by
  unfold pollRecord
  split
  · exact ⟨rfl, rfl, rfl, rfl, rfl⟩
  · split
    · rename_i hexpires
      rw [pollExpires, List.mem_filter, expires, Bool.and_eq_true, decide_eq_true_eq,
        decide_eq_true_eq] at hexpires
      exact absurd hexpires.2.2 (hpasses record hk hexpires.1)
    · exact ⟨hd, rfl, rfl, rfl, rfl⟩

/-- A poll that does not pass by marks the record as expired. -/
theorem pollRecord_expires {rt : Runtime} {k : String} {repo : InMemoryRepository} {poll : Poll}
    {record : ScanRecord} (hk : repo.scans.get? k = some record)
    (hcandidate : isDispatchCandidate poll.principal record)
    (hpasses : ¬ PassesBy rt k repo poll) :
    (pollRecord rt poll.principal poll.now repo record).state = .expired := by
  simp only [PassesBy, Option.mem_def, not_forall, not_not] at hpasses
  obtain ⟨record', hk', hvisited, hexpired⟩ := hpasses
  rw [hk, Option.some.injEq] at hk'
  subst hk'
  have hnotOut : (dispatchOrder repo).find? (handsOut rt poll.principal poll.now) ≠ some record := by
    intro hfind
    have hout := List.find?_some hfind
    rw [handsOut, Bool.and_eq_true, decide_eq_true_eq, decide_eq_true_eq, hexpired] at hout
    cases hout.2
  have hmem : pollExpires rt poll.principal poll.now repo record := by
    rw [pollExpires, List.mem_filter, expires, Bool.and_eq_true, decide_eq_true_eq,
      decide_eq_true_eq]
    exact ⟨hvisited, hcandidate, hexpired⟩
  rw [pollRecord, if_neg hnotOut, if_pos hmem]
  rfl

/-- An expired record is no candidate of any poll. -/
theorem pollRecord_expired {rt : Runtime} {repo : InMemoryRepository} {poll : Poll}
    {record : ScanRecord} (h : record.state = .expired) :
    pollRecord rt poll.principal poll.now repo record = record := by
  have hno : ¬ isDispatchCandidate poll.principal record := by
    rintro ⟨-, -, hs | hs⟩ <;> rw [h] at hs <;> cases hs
  have hnotOut : (dispatchOrder repo).find? (handsOut rt poll.principal poll.now) ≠ some record := by
    intro hfind
    have hout := List.find?_some hfind
    rw [handsOut, Bool.and_eq_true, decide_eq_true_eq] at hout
    exact hno hout.1
  have hmem : ¬ pollExpires rt poll.principal poll.now repo record := by
    rw [pollExpires, List.mem_filter, expires, Bool.and_eq_true, decide_eq_true_eq]
    exact fun h => hno h.2.1
  rw [pollRecord, if_neg hnotOut, if_neg hmem]

theorem scanKeys_pollStep {rt : Runtime} {repo : InMemoryRepository} (hkeys : ScanKeys repo.scans)
    (poll : Poll) : ScanKeys (pollStep rt repo poll).scans :=
  ScanKeys.step (.scan (.claimNextJob poll.principal poll.now poll.auditedAt)) hkeys

theorem expired_run (rt : Runtime) {k : String} (polls : List Poll) :
    ∀ {repo : InMemoryRepository} {record : ScanRecord}, ScanKeys repo.scans →
      repo.scans.get? k = some record → record.state = .expired →
      (runFrom (pollStep rt) repo polls).scans.get? k = some record := by
  induction polls with
  | nil => exact fun _ h _ => h
  | cons poll polls ih =>
    intro repo record hkeys hk hs
    refine ih (scanKeys_pollStep hkeys poll) ?_ hs
    rw [get?_pollStep hkeys, hk, Option.map_some, pollRecord_expired hs]

/-- What becomes of a dispatched record. -/
theorem dispatched_run {rt : Runtime} {k : String} (polls : List Poll) :
    ∀ {repo : InMemoryRepository} {record : ScanRecord}, ScanKeys repo.scans →
      repo.scans.get? k = some record → record.state = .dispatched →
      (∀ poll ∈ polls, poll.principal.tenantId = record.tenantId ∧
        poll.principal.endpointId = record.endpointId) →
      ∃ record', (runFrom (pollStep rt) repo polls).scans.get? k = some record' ∧
        ((Guarded (pollStep rt) (PassesBy rt k) repo polls ∧ StillDispatched record record') ∨
          (¬ Guarded (pollStep rt) (PassesBy rt k) repo polls ∧ record'.state = .expired)) := by
  induction polls with
  | nil => exact fun {_ record} _ hk hd _ =>
      ⟨record, hk, Or.inl ⟨trivial, hd, rfl, rfl, rfl, rfl⟩⟩
  | cons poll polls ih =>
    intro repo record hkeys hk hd howner
    have hkeys' : ScanKeys (pollStep rt repo poll).scans := scanKeys_pollStep hkeys poll
    have hk' : (pollStep rt repo poll).scans.get? k = _ := get?_pollStep hkeys poll k
    rw [hk, Option.map_some] at hk'
    by_cases hpasses : PassesBy rt k repo poll
    · have hstill := pollRecord_passes hk hd hpasses
      have howner' : ∀ p ∈ polls, p.principal.tenantId =
          (pollRecord rt poll.principal poll.now repo record).tenantId ∧
          p.principal.endpointId =
            (pollRecord rt poll.principal poll.now repo record).endpointId := by
        intro p hp
        rw [hstill.tenantId, hstill.endpointId]
        exact howner p (List.mem_cons_of_mem _ hp)
      obtain ⟨record', hrun, hcases⟩ := ih hkeys' hk' hstill.state howner'
      refine ⟨record', hrun, ?_⟩
      rw [guarded_cons, and_iff_right hpasses]
      refine hcases.imp_left fun ⟨hg, h⟩ => ⟨hg, ?_⟩
      exact ⟨h.state, h.job.trans hstill.job, h.scanId.trans hstill.scanId,
        h.endpointId.trans hstill.endpointId, h.tenantId.trans hstill.tenantId⟩
    · obtain ⟨htenant, hendpoint⟩ := howner poll List.mem_cons_self
      have hexpired := pollRecord_expires hk
        (isDispatchCandidate_of_dispatched hd htenant hendpoint) hpasses
      have hrun := expired_run rt polls hkeys' hk' hexpired
      exact ⟨_, hrun, Or.inr ⟨fun hg => hpasses hg.1, hexpired⟩⟩

/--
In every reachable state: evidence that is valid for a dispatched scan is accepted after any
polls of the endpoint exactly when every one of them passes the record by.
-/
theorem upload_accepted_after_polls_iff {rt : Runtime} {calls : List Call} {k : String}
    {record : ScanRecord} {upload : JsonObject} {now : Timestamp} {polls : List Poll}
    (hk : (runFrom (Call.step rt) {} calls).scans.get? k = some record)
    (hvalid : validateScanUpload rt record upload now = .ok ())
    (howner : ∀ poll ∈ polls, poll.principal.tenantId = record.tenantId ∧
      poll.principal.endpointId = record.endpointId) :
    (∃ record', (runFrom (pollStep rt) (runFrom (Call.step rt) {} calls) polls).scans.get? k =
        some record' ∧ validateScanUpload rt record' upload now = .ok ()) ↔
      Guarded (pollStep rt) (PassesBy rt k) (runFrom (Call.step rt) {} calls) polls := by
  have hd := validateScanUpload_dispatched hvalid
  obtain ⟨record', hrun, ⟨hguarded, hstill⟩ | ⟨hnot, hexpired⟩⟩ :=
    dispatched_run polls (scanKeys_run rt calls) hk hd howner
  · refine iff_of_true ⟨record', hrun, ?_⟩ hguarded
    rw [validateScanUpload_congr hstill hd, hvalid]
  · refine iff_of_false ?_ hnot
    rintro ⟨record'', hrun', hok⟩
    rw [hrun, Option.some.injEq] at hrun'
    exact validateScanUpload_expired (hrun' ▸ hexpired) hok

/-! ## Evidence a day after the deadline -/

def dayAfterDeadline : Timestamp := seconds (1700001800 + 24 * 60 * 60)

/-- Evidence of the half-hour job, as far as the checks look at it. -/
def sampleUpload : JsonObject :=
  [("result", .obj [
      ("scan_id", .str "scan-1"), ("endpoint_id", .str "endpoint-1"), ("scan_type", .str "FULL"),
      ("authorization_scope_id", .str "scope-1"), ("policy_id", .str "policy-1"),
      ("status", .str "SUCCESS")]),
    ("inventory_sync", .obj [("scan_id", .str "scan-1"), ("endpoint_id", .str "endpoint-1")])]

def pollAt (t : Timestamp) : Poll := ⟨sampleDevice, t, t⟩

def acceptedAfter (polls : List Poll) : Prop :=
  ∃ record' ∈ (runFrom (pollStep Runtime.sample)
      (runFrom (Call.step Runtime.sample) {} dispatchedRun) polls).scans.get? "scan-1",
    validateScanUpload Runtime.sample record' sampleUpload dayAfterDeadline = .ok ()

instance (polls : List Poll) : Decidable (acceptedAfter polls) := by
  unfold acceptedAfter
  infer_instance

/-- The endpoint polls ten minutes before the deadline. -/
theorem upload_accepted_after_early_poll :
    acceptedAfter [pollAt (seconds 1700001200)] := by
  have hsome : ((runFrom (Call.step Runtime.sample) {} dispatchedRun).scans.get?
      "scan-1").map (fun record => (validateScanUpload Runtime.sample record sampleUpload
        dayAfterDeadline, record.tenantId, record.endpointId)) =
      some (.ok (), "tenant", "endpoint-1") := by decide +kernel
  obtain ⟨record, hk, hrecord⟩ := Option.map_eq_some_iff.mp hsome
  obtain ⟨hvalid, howner⟩ := Prod.mk.inj hrecord
  obtain ⟨htenant, hendpoint⟩ := Prod.mk.inj howner
  refine (upload_accepted_after_polls_iff hk hvalid ?_).mpr (by decide +kernel)
  rintro poll hpoll
  rw [List.mem_singleton.mp hpoll, htenant, hendpoint]
  exact ⟨rfl, rfl⟩

/-- One poll after the deadline, and the same evidence is refused. -/
theorem upload_refused_after_late_poll :
    acceptedAfter [] ∧ ¬ acceptedAfter [pollAt (seconds 1700003600)] := by
  decide +kernel

end OsScanner.Cloud

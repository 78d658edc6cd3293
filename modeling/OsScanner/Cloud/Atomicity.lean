import Mathlib
import OsScanner.Cloud.Answers
import OsScanner.Cloud.ScanLifecycle

/-!
# A call that raises has written nothing

There is no transaction to roll back, so every check of a method must come before its first
write. Three reads of a document come after the writes: the reference of an authorization in
`create_scan_job`, the timeout of a job in `claim_next_job` and the status in
`record_scan_status`. They cannot fail on the documents that the API passes on, and a stored
job keeps the document it was created with.
-/

namespace OsScanner.Cloud

open Lib

/-! ## What the API passes on -/

/-- What validation as a `ScanJob` promises of a document, as far as the repository reads it. -/
structure IsScanJob (document : JsonObject) : Prop where
  authorization : ∃ scope reference, Assoc.lookup "authorization" document = some (.obj scope) ∧
    Assoc.lookup "authorization_reference" scope = some (.str reference)
  timeout : ∃ timeout, Assoc.lookup "timeout_seconds" document = some (.int timeout) ∧
    10 ≤ timeout ∧ timeout ≤ 86400

/-- The documents of a call have the fields that their models require. -/
def Call.Validated : Call → Prop
  | .scan (.createScanJob _ _ _ _ job _ _ _ _) => IsScanJob job
  | .scan (.recordScanStatus _ _ status _ _ _ _) =>
    ∃ terminal, Assoc.lookup "status" status = some (.str terminal)
  | _ => True

/-- Every stored job was validated. -/
def JobsValidated (repo : InMemoryRepository) : Prop :=
  ∀ k record, repo.scans.get? k = some record → IsScanJob record.jobDocument

/-! ## A record keeps its job -/

/-- What a scan is created with and keeps. -/
def ScanRecord.origin (record : ScanRecord) : String × String × String × JsonObject :=
  (record.tenantId, record.endpointId, record.scanId, record.jobDocument)

theorem pollRecord_origin (rt : Runtime) (principal : DevicePrincipal) (now : Timestamp)
    (repo : InMemoryRepository) (record : ScanRecord) :
    (pollRecord rt principal now repo record).origin = record.origin := by
  unfold pollRecord
  split
  · rfl
  · split <;> rfl

/-- The records of the new state are those of the old one, or one that was just created. -/
def SameOrigins (call : Call) (scans scans' : Dict String ScanRecord) : Prop :=
  ∀ k record', scans'.get? k = some record' →
    (∃ record, scans.get? k = some record ∧ record'.origin = record.origin) ∨
      ∃ tenantId endpointId scanId jobId job now key digest auditedAt,
        call = .scan (.createScanJob tenantId endpointId scanId jobId job now key digest
          auditedAt) ∧ record' = newScan tenantId endpointId scanId jobId job now

theorem SameOrigins.refl (call : Call) (scans : Dict String ScanRecord) :
    SameOrigins call scans scans :=
  fun _ record hrecord => Or.inl ⟨record, hrecord, rfl⟩

theorem SameOrigins.set (call : Call) {scans : Dict String ScanRecord} {scanId : String}
    {record record' : ScanRecord} (hfound : scans.get? scanId = some record)
    (horigin : record'.origin = record.origin) :
    SameOrigins call scans (scans.set scanId record') := by
  intro k new hnew
  rw [Dict.get?_set] at hnew
  by_cases hk : scanId = k
  · rw [if_pos hk, Option.some.injEq] at hnew
    subst hk hnew
    exact Or.inl ⟨record, hfound, horigin⟩
  · rw [if_neg hk] at hnew
    exact Or.inl ⟨new, hnew, rfl⟩

theorem Call.sameOrigins (rt : Runtime) {repo : InMemoryRepository} (hkeys : ScanKeys repo.scans)
    (call : Call) : SameOrigins call repo.scans (call.step rt repo).scans := by
  cases call with
  | identity call =>
    cases call with
    | createEnrollmentGrant =>
      rcases createEnrollmentGrant_effect (Prod.mk.eta).symm with
        ⟨h, -⟩ | ⟨-, -, -, _, h⟩ <;> rw [Call.step, IdentityCall.step, h] <;> exact .refl _ _
    | enrollEndpoint =>
      rcases enrollEndpoint_effect (Prod.mk.eta).symm with
        ⟨h, -⟩ | ⟨_, -, -, -, -, -, _, h⟩ <;> rw [Call.step, IdentityCall.step, h] <;>
        exact .refl _ _
    | rotateCredential =>
      rcases rotateCredential_effect (Prod.mk.eta).symm with
        ⟨h, -⟩ | ⟨_, _, _, -, -, -, _, h⟩ <;> rw [Call.step, IdentityCall.step, h] <;>
        exact .refl _ _
  | scan call =>
    cases call with
    | createScanJob tenantId endpointId scanId jobId job now key digest auditedAt =>
      rcases createScanJob_effect (Prod.mk.eta).symm with
        ⟨h, -⟩ | ⟨-, -, -, -, _, h⟩ <;> rw [Call.step, ScanCall.step, h]
      · exact .refl _ _
      · intro k record' hrecord'
        simp only [Dict.get?_set] at hrecord'
        split at hrecord'
        · rw [Option.some.injEq] at hrecord'
          exact Or.inr ⟨_, _, _, _, _, _, _, _, _, rfl, hrecord'.symm⟩
        · exact Or.inl ⟨record', hrecord', rfl⟩
    | claimNextJob principal now =>
      obtain ⟨⟨_, h⟩, -⟩ := claimNextJob_effect (Prod.mk.eta).symm
      rw [Call.step, ScanCall.step, h]
      intro k record' hrecord'
      simp only [get?_polledScans hkeys] at hrecord'
      obtain ⟨record, hrecord, rfl⟩ := Option.map_eq_some_iff.mp hrecord'
      exact Or.inl ⟨record, hrecord, pollRecord_origin rt principal now repo record⟩
    | ingestScan =>
      rcases ingestScan_effect (Prod.mk.eta).symm with
        ⟨h, -⟩ | ⟨_, _, -, source, -, _, h⟩ <;> rw [Call.step, ScanCall.step, h]
      · exact .refl _ _
      · exact .set _ source.found rfl
    | recordScanStatus =>
      rcases recordScanStatus_effect (Prod.mk.eta).symm with
        ⟨h, -⟩ | ⟨_, -, ⟨hfound, -⟩, -, -, _, h⟩ <;> rw [Call.step, ScanCall.step, h]
      · exact .refl _ _
      · exact .set _ hfound rfl
    | recordRejection =>
      rcases recordRejection_effect (Prod.mk.eta).symm with
        ⟨h, -⟩ | ⟨_ | _, -, hrecord, -, _, h⟩ <;> rw [Call.step, ScanCall.step, h]
      · exact .refl _ _
      · exact .refl _ _
      · exact .set _ (rejectedScan_eq_some hrecord).1 rfl
    | claimAnalysisTask =>
      rcases claimAnalysisTask_effect (Prod.mk.eta).symm with
        ⟨h, -⟩ | ⟨_, _, -, -, -, -, h⟩ <;> rw [Call.step, ScanCall.step, h] <;> exact .refl _ _
    | completeAnalysisTask =>
      rcases completeAnalysisTask_effect (Prod.mk.eta).symm with
        ⟨h, -⟩ | ⟨_, -, -, h⟩ <;> rw [Call.step, ScanCall.step, h] <;> exact .refl _ _
    | failAnalysisTask =>
      rcases failAnalysisTask_effect (Prod.mk.eta).symm with
        ⟨h, -⟩ | ⟨_, -, -, h⟩ <;> rw [Call.step, ScanCall.step, h] <;> exact .refl _ _
    | finalizeScanReport =>
      rcases finalizeScanReport_effect (Prod.mk.eta).symm with
        h | ⟨_, hfound, -, -, -, _, h⟩ <;> rw [Call.step, ScanCall.step, h]
      · exact .refl _ _
      · exact .set _ hfound rfl
    | finalizeScanReportFailure =>
      rcases finalizeScanReportFailure_effect (Prod.mk.eta).symm with
        h | ⟨_, hfound, -, -, _, h⟩ <;> rw [Call.step, ScanCall.step, h]
      · exact .refl _ _
      · exact .set _ hfound rfl

theorem JobsValidated.step {rt : Runtime} {repo : InMemoryRepository} {call : Call}
    (hkeys : ScanKeys repo.scans) (hcall : call.Validated) (hjobs : JobsValidated repo) :
    JobsValidated (call.step rt repo) := by
  intro k record' hrecord'
  rcases Call.sameOrigins rt hkeys call k record' hrecord' with
    ⟨record, hrecord, horigin⟩ | ⟨_, _, _, _, _, _, _, _, _, rfl, rfl⟩
  · have hjob : record'.jobDocument = record.jobDocument := congrArg (·.2.2.2) horigin
    rw [hjob]
    exact hjobs k record hrecord
  · exact hcall

/-- In every state that validated calls reach, the stored jobs are validated. -/
theorem jobsValidated_run (rt : Runtime) {calls : List Call}
    (hcalls : ∀ call ∈ calls, call.Validated) :
    JobsValidated (runFrom (Call.step rt) {} calls) := by
  have hrun : ∀ (calls : List Call) (repo : InMemoryRepository),
      (∀ call ∈ calls, call.Validated) → ScanKeys repo.scans → JobsValidated repo →
      JobsValidated (runFrom (Call.step rt) repo calls) := by
    intro calls
    induction calls with
    | nil => exact fun _ _ _ hjobs => hjobs
    | cons call calls ih =>
      intro repo hall hkeys hjobs
      rw [List.forall_mem_cons] at hall
      exact ih _ hall.2 (ScanKeys.step call hkeys) (hjobs.step hkeys hall.1)
  exact hrun calls {} hcalls (fun _ _ h => by cases h) fun _ _ h => by cases h

/-! ## The reads after the writes -/

theorem requireKey_eq_ok {document : JsonObject} {name : String} {value : Json}
    (h : Assoc.lookup name document = some value) : requireKey document name = .ok value := by
  rw [requireKey, h]

theorem IsScanJob.authorizationReference {document : JsonObject} (h : IsScanJob document) :
    ∃ reference, Cloud.authorizationReference document = .ok reference := by
  obtain ⟨scope, reference, hscope, hreference⟩ := h.authorization
  refine ⟨.str reference, ?_⟩
  rw [Cloud.authorizationReference, requireKey_eq_ok hscope]
  exact requireKey_eq_ok hreference

/-- The mode of an envelope was read before anything was written. -/
theorem reconstructInventory_mode {rt : Runtime} {tenantId endpointId scanId : String}
    {inventorySync : Json} {current : Option InventoryState} {now : Timestamp}
    {r : InventoryReconstruction}
    (h : reconstructInventory rt tenantId endpointId scanId inventorySync current now = .ok r) :
    ∃ mode, requireKey r.inventorySync "mode" = .ok mode := by
  obtain ⟨sync, mode, _, _, snapshot, -, -, hmode, -, -, -, rfl⟩ := reconstructInventory_eq_ok.mp h
  have hpresent : ∃ value, Assoc.lookup "mode" sync = some value := by
    cases hlookup : Assoc.lookup "mode" sync with
    | some value => exact ⟨value, rfl⟩
    | none =>
      -- An envelope without a mode has the mode `None`, which is refused.
      have hget : sync.get "mode" = .null := by
        unfold JsonObject.get
        rw [hlookup]
        rfl
      rw [hget] at hmode
      cases hmode
  obtain ⟨value, hvalue⟩ := hpresent
  refine ⟨value, requireKey_eq_ok ?_⟩
  show Assoc.lookup "mode" (Assoc.insert "reconstructed_snapshot" _ sync) = some value
  rw [Assoc.lookup_insert, if_neg (by decide), hvalue]

/-- The loop of a poll never raises when every record has its timeout. -/
theorem dispatchLoop_ok (rt : Runtime) (principal : DevicePrincipal) (now auditedAt : Timestamp)
    {candidates : List ScanRecord}
    (h : ∀ record ∈ candidates, IsScanJob record.jobDocument) (repo : InMemoryRepository) :
    ∃ answer repo', (dispatchLoop rt principal now auditedAt candidates).run repo =
      (.ok answer, repo') := by
  induction candidates generalizing repo with
  | nil => exact ⟨none, repo, rfl⟩
  | cons record candidates ih =>
    rw [List.forall_mem_cons] at h
    rw [dispatchLoop]
    split
    · split
      · obtain ⟨event, hrun⟩ := run_expireRecord principal now auditedAt record repo
        rw [Method.run_bind_ok _ hrun]
        exact ih h.2 _
      · obtain ⟨timeout, htimeout, -⟩ := h.1.timeout
        simp only [dispatchRecord, Method.run_map, Method.run_modify_bind,
          Method.run_ofExcept_bind, requireKey_eq_ok htimeout]
        exact ⟨_, _, rfl⟩
      · exact ih h.2 repo
      · exact ih h.2 repo
    · exact ih h.2 repo

theorem claimNextJob_ok (rt : Runtime) (principal : DevicePrincipal) (now auditedAt : Timestamp)
    {repo : InMemoryRepository} (hjobs : JobsValidated repo) :
    ∃ answer repo', (claimNextJob rt principal now auditedAt).run repo = (.ok answer, repo') := by
  simp only [claimNextJob, Method.run_modify_bind, Method.run_reading_bind]
  refine dispatchLoop_ok rt principal now auditedAt (fun record hrecord => ?_) _
  have hscans : (touchEndpoint principal now repo).scans = repo.scans := by
    unfold touchEndpoint
    split
    · split <;> rfl
    · rfl
  rw [dispatchOrder, List.mem_insertionSort, hscans, Dict.mem_values_iff] at hrecord
  obtain ⟨k, hk⟩ := hrecord
  exact hjobs k record hk

/-! ## Atomicity -/

/-- A call that raises in a state whose jobs are validated leaves that state. -/
theorem Call.step_of_error {rt : Runtime} {repo : InMemoryRepository} {call : Call}
    {e : RepositoryError} (hjobs : JobsValidated repo) (hcall : call.Validated)
    (h : call.answer rt repo = .error e) : call.step rt repo = repo := by
  cases call with
  | identity call =>
    cases call with
    | createEnrollmentGrant =>
      have hraised := map_eq_error.mp ((run_map_fst _ _ _).symm.trans h)
      rcases createEnrollmentGrant_effect (Prod.mk.eta).symm with ⟨h', -⟩ | ⟨-, -, hok, -⟩
      · exact h'
      · rw [hraised] at hok
        cases hok
    | enrollEndpoint =>
      have hraised := map_eq_error.mp ((run_map_fst _ _ _).symm.trans h)
      rcases enrollEndpoint_effect (Prod.mk.eta).symm with ⟨h', -⟩ | ⟨_, -, -, -, -, hok, -⟩
      · exact h'
      · rw [hraised] at hok
        cases hok
    | rotateCredential =>
      have hraised := map_eq_error.mp ((run_map_fst _ _ _).symm.trans h)
      rcases rotateCredential_effect (Prod.mk.eta).symm with ⟨h', -⟩ | ⟨_, _, _, -, -, hok, -⟩
      · exact h'
      · rw [hraised] at hok
        cases hok
  | scan call =>
    cases call with
    | createScanJob =>
      have hraised := map_eq_error.mp ((run_map_fst _ _ _).symm.trans h)
      rcases createScanJob_effect (Prod.mk.eta).symm with
        ⟨h', -⟩ | ⟨-, -, -, ⟨_, -, hok⟩ | ⟨_, hreference, -⟩, -⟩
      · exact h'
      · rw [hraised] at hok
        cases hok
      · obtain ⟨reference, hpresent⟩ := IsScanJob.authorizationReference hcall
        cases hpresent.symm.trans hreference
    | claimNextJob principal now auditedAt =>
      have hraised := map_eq_error.mp ((run_map_fst _ _ _).symm.trans h)
      obtain ⟨answer, repo', hrun⟩ := claimNextJob_ok rt principal now auditedAt hjobs
      rw [hrun] at hraised
      cases hraised
    | ingestScan =>
      have hraised := map_eq_error.mp ((run_map_fst _ _ _).symm.trans h)
      rcases ingestScan_effect (Prod.mk.eta).symm with
        ⟨h', -⟩ | ⟨_, _, -, source, ⟨_, -, hok⟩ | ⟨_, hmode, -⟩, -⟩
      · exact h'
      · rw [hraised] at hok
        cases hok
      · obtain ⟨mode, hpresent⟩ := reconstructInventory_mode source.reconstructed
        cases hpresent.symm.trans hmode
    | recordScanStatus =>
      have hraised := map_eq_error.mp ((run_map_fst _ _ _).symm.trans h)
      rcases recordScanStatus_effect (Prod.mk.eta).symm with
        ⟨h', -⟩ | ⟨_, -, -, -, ⟨_, -, hok⟩ | ⟨_, hterminal, -⟩, -⟩
      · exact h'
      · rw [hraised] at hok
        cases hok
      · obtain ⟨terminal, hpresent⟩ := hcall
        cases (requireKey_eq_ok hpresent).symm.trans hterminal
    | recordRejection =>
      have hraised := map_eq_error.mp ((run_map_fst _ _ _).symm.trans h)
      rcases recordRejection_effect (Prod.mk.eta).symm with ⟨h', -⟩ | ⟨_, -, -, hok, -⟩
      · exact h'
      · rw [hraised] at hok
        cases hok
    | claimAnalysisTask =>
      have hraised := map_eq_error.mp ((run_map_fst _ _ _).symm.trans h)
      rcases claimAnalysisTask_effect (Prod.mk.eta).symm with ⟨h', -⟩ | ⟨_, _, -, -, -, hok, -⟩
      · exact h'
      · rw [hraised] at hok
        cases hok
    | completeAnalysisTask =>
      have hraised := map_eq_error.mp ((run_map_fst _ _ _).symm.trans h)
      rcases completeAnalysisTask_effect (Prod.mk.eta).symm with ⟨h', -⟩ | ⟨_, -, hok, -⟩
      · exact h'
      · rw [hraised] at hok
        cases hok
    | failAnalysisTask =>
      have hraised := map_eq_error.mp ((run_map_fst _ _ _).symm.trans h)
      rcases failAnalysisTask_effect (Prod.mk.eta).symm with ⟨h', -⟩ | ⟨_, -, hok, -⟩
      · exact h'
      · rw [hraised] at hok
        cases hok
    | finalizeScanReport =>
      have hraised := map_eq_error.mp ((run_map_fst _ _ _).symm.trans h)
      rcases finalizeScanReport_effect (Prod.mk.eta).symm with h' | ⟨_, -, -, -, hok, -⟩
      · exact h'
      · rw [hraised] at hok
        cases hok
    | finalizeScanReportFailure =>
      have hraised := map_eq_error.mp ((run_map_fst _ _ _).symm.trans h)
      rcases finalizeScanReportFailure_effect (Prod.mk.eta).symm with h' | ⟨_, -, -, hok, -⟩
      · exact h'
      · rw [hraised] at hok
        cases hok

/--
In every state that validated calls reach, a call that raises leaves the whole state as it was:
endpoints, credentials, grants, scans, inventories, tasks, records of answers and audit events.
-/
theorem call_atomic (rt : Runtime) {calls : List Call} {call : Call} {e : RepositoryError}
    (hcalls : ∀ call ∈ calls, call.Validated) (hcall : call.Validated)
    (h : call.answer rt (runFrom (Call.step rt) {} calls) = .error e) :
    (call.method rt).run (runFrom (Call.step rt) {} calls) =
      (.error e, runFrom (Call.step rt) {} calls) := by
  have hstep := Call.step_of_error (jobsValidated_run rt hcalls) hcall h
  rw [Call.run_method, h, hstep]

theorem isScanJob_halfHourJob : IsScanJob halfHourJob :=
  ⟨⟨_, _, rfl, rfl⟩, _, rfl, by decide, by decide⟩

/-- A second job under the identifier of a dispatched scan is refused and changes nothing. -/
theorem call_atomic_duplicateJob :
    ((Call.scan (.createScanJob "tenant" "endpoint-1" "scan-1" "job-2" halfHourJob
        (seconds 1700000090) "key-3" "digest-3" (seconds 1700000090))).method Runtime.sample).run
          (runFrom (Call.step Runtime.sample) {} dispatchedRun) =
      (fail .stateConflict "scan identifier already exists",
        runFrom (Call.step Runtime.sample) {} dispatchedRun) := by
  have hcalls : ∀ call ∈ dispatchedRun, call.Validated := by
    intro call hcall
    simp only [dispatchedRun, List.mem_cons, List.not_mem_nil, or_false] at hcall
    rcases hcall with rfl | rfl | rfl
    · trivial
    · exact isScanJob_halfHourJob
    · trivial
  exact call_atomic Runtime.sample hcalls isScanJob_halfHourJob (by decide +kernel)

end OsScanner.Cloud

import Mathlib
import OsScanner.Cloud.Api
import OsScanner.Cloud.ScanEffects
import OsScanner.Lib.Run

/-!
# Calls of the repository

A run of the control plane is a sequence of method calls with the records that the handlers
build. The calls come in two groups that write different parts of the state: identities
(grants, endpoints, credentials) and scans (jobs, evidence, tasks, reports).
-/

namespace OsScanner.Cloud

open Lib

/-! ## The calls -/

/-- Calls that issue and rotate credentials. -/
inductive IdentityCall where
  | createEnrollmentGrant (tenantId subject grantId tokenHash : String)
      (body : EnrollmentTokenRequest) (now : Timestamp) (key digest : String)
      (auditedAt : Timestamp)
  | enrollEndpoint (tenantId endpointId credentialId tokenHash : String)
      (body : EndpointEnrollment) (now : Timestamp) (ttlSeconds : Int) (key digest : String)
      (grantHash : Option String) (auditedAt : Timestamp)
  | rotateCredential (principal : DevicePrincipal) (expectedGeneration : Nat)
      (expectedCredentialId credentialId tokenHash : String) (generation : Nat)
      (now : Timestamp) (ttlSeconds overlapSeconds : Int) (key digest : String)
      (auditedAt : Timestamp)

/-- The record that `platform_create_scan` queues. -/
def newScan (tenantId endpointId scanId jobId : String) (job : JsonObject) (now : Timestamp) :
    ScanRecord where
  tenantId := tenantId
  endpointId := endpointId
  scanId := scanId
  jobId := jobId
  state := .queued
  jobDocument := job
  createdAt := now
  updatedAt := now

/-- A task as `submit_scan` creates it. -/
def newTask (principal : DevicePrincipal) (scanId taskId : String) (kind : TaskKind)
    (now : Timestamp) : AnalysisTask where
  taskId := taskId
  tenantId := principal.tenantId
  endpointId := principal.endpointId
  scanId := scanId
  kind := kind
  state := .pending
  attempts := 0
  payload := [("scan_id", .str scanId)]
  createdAt := now
  updatedAt := now
  availableAt := now

/-- The two tasks of an upload. -/
def analysisTasks (principal : DevicePrincipal) (scanId osvTaskId depscanTaskId : String)
    (now : Timestamp) : List AnalysisTask :=
  [newTask principal scanId osvTaskId .osv now, newTask principal scanId depscanTaskId .depscan now]

/-- Calls on jobs, evidence, tasks and reports. -/
inductive ScanCall where
  | createScanJob (tenantId endpointId scanId jobId : String) (job : JsonObject)
      (now : Timestamp) (key digest : String) (auditedAt : Timestamp)
  | claimNextJob (principal : DevicePrincipal) (now auditedAt : Timestamp)
  | ingestScan (principal : DevicePrincipal) (scanId : String) (upload : JsonObject)
      (key digest osvTaskId depscanTaskId : String) (submittedAt now auditedAt : Timestamp)
  | recordScanStatus (principal : DevicePrincipal) (scanId : String) (status : JsonObject)
      (key digest : String) (now auditedAt : Timestamp)
  | recordRejection (principal : DevicePrincipal) (payload : ScanRejectionUpload)
      (key digest : String) (now auditedAt : Timestamp)
  | claimAnalysisTask (kind : TaskKind) (workerId : String) (leaseSeconds : Int)
      (now : Timestamp)
  | completeAnalysisTask (taskId workerId : String) (result : JsonObject) (now : Timestamp)
  | failAnalysisTask (taskId workerId error : String) (retryAt : Timestamp) (deadLetter : Bool)
      (now : Timestamp)
  | finalizeScanReport (scanId : String) (report : JsonObject) (now auditedAt : Timestamp)
  | finalizeScanReportFailure (scanId error : String) (completedAt now auditedAt : Timestamp)

inductive Call where
  | identity (call : IdentityCall)
  | scan (call : ScanCall)

/-- The state after a call, whether it returned or raised. -/
def IdentityCall.step (rt : Runtime) (repo : InMemoryRepository) :
    IdentityCall → InMemoryRepository
  | .createEnrollmentGrant tenantId subject grantId tokenHash body now key digest auditedAt =>
    ((Cloud.createEnrollmentGrant rt (newGrant tenantId subject grantId tokenHash body now)
      key digest auditedAt).run repo).2
  | .enrollEndpoint tenantId endpointId credentialId tokenHash body now ttlSeconds key digest
      grantHash auditedAt =>
    ((Cloud.enrollEndpoint tenantId (newEndpoint tenantId endpointId body now)
      (newCredential tenantId endpointId credentialId tokenHash 1 now ttlSeconds)
      key digest grantHash auditedAt).run repo).2
  | .rotateCredential principal expectedGeneration expectedCredentialId credentialId tokenHash
      generation now ttlSeconds overlapSeconds key digest auditedAt =>
    ((Cloud.rotateCredential principal expectedGeneration expectedCredentialId
      (newCredential principal.tenantId principal.endpointId credentialId tokenHash generation
        now ttlSeconds) overlapSeconds key digest auditedAt).run repo).2

def ScanCall.step (rt : Runtime) (repo : InMemoryRepository) : ScanCall → InMemoryRepository
  | .createScanJob tenantId endpointId scanId jobId job now key digest auditedAt =>
    ((Cloud.createScanJob tenantId (newScan tenantId endpointId scanId jobId job now) key digest
      auditedAt).run repo).2
  | .claimNextJob principal now auditedAt =>
    ((Cloud.claimNextJob rt principal now auditedAt).run repo).2
  | .ingestScan principal scanId upload key digest osvTaskId depscanTaskId submittedAt now
      auditedAt =>
    ((Cloud.ingestScan rt principal scanId upload key digest
      (analysisTasks principal scanId osvTaskId depscanTaskId submittedAt) now auditedAt).run
        repo).2
  | .recordScanStatus principal scanId status key digest now auditedAt =>
    ((Cloud.recordScanStatus principal scanId status key digest now auditedAt).run repo).2
  | .recordRejection principal payload key digest now auditedAt =>
    ((Cloud.recordRejection principal payload key digest now auditedAt).run repo).2
  | .claimAnalysisTask kind workerId leaseSeconds now =>
    ((Cloud.claimAnalysisTask kind workerId leaseSeconds now).run repo).2
  | .completeAnalysisTask taskId workerId result now =>
    ((Cloud.completeAnalysisTask taskId workerId result now).run repo).2
  | .failAnalysisTask taskId workerId error retryAt deadLetter now =>
    ((Cloud.failAnalysisTask taskId workerId error retryAt deadLetter now).run repo).2
  | .finalizeScanReport scanId report now auditedAt =>
    ((Cloud.finalizeScanReport scanId report now auditedAt).run repo).2
  | .finalizeScanReportFailure scanId error completedAt now auditedAt =>
    ((Cloud.finalizeScanReportFailure rt scanId error completedAt now auditedAt).run repo).2

def Call.step (rt : Runtime) (repo : InMemoryRepository) : Call → InMemoryRepository
  | .identity call => call.step rt repo
  | .scan call => call.step rt repo

/-! ## Frames -/

/-- What identifies an endpoint and its current credential. -/
def EndpointRecord.identity (endpoint : EndpointRecord) : String × String × Nat :=
  (endpoint.tenantId, endpoint.endpointId, endpoint.credentialGeneration)

/-- The parts of the state that identity calls write are the same. -/
structure SameIdentities (repo repo' : InMemoryRepository) : Prop where
  endpoints : ∀ k, (repo'.endpoints.get? k).map EndpointRecord.identity =
    (repo.endpoints.get? k).map EndpointRecord.identity
  credentials : repo'.credentials = repo.credentials
  enrollmentGrants : repo'.enrollmentGrants = repo.enrollmentGrants

theorem SameIdentities.refl (repo : InMemoryRepository) : SameIdentities repo repo :=
  ⟨fun _ => rfl, rfl, rfl⟩

/-- A poll only refreshes the sign of life of its endpoint. -/
theorem touchEndpoint_identity (principal : DevicePrincipal) (now : Timestamp)
    (repo : InMemoryRepository) (k : String) :
    ((touchEndpoint principal now repo).endpoints.get? k).map EndpointRecord.identity =
      (repo.endpoints.get? k).map EndpointRecord.identity := by
  unfold touchEndpoint
  split
  · rename_i endpoint hendpoint
    split
    · rw [Dict.get?_set]
      by_cases hk : principal.endpointId = k
      · subst hk
        rw [if_pos rfl, hendpoint]
        rfl
      · rw [if_neg hk]
    · rfl
  · rfl

theorem touchEndpoint_frame (principal : DevicePrincipal) (now : Timestamp)
    (repo : InMemoryRepository) :
    (touchEndpoint principal now repo).credentials = repo.credentials ∧
      (touchEndpoint principal now repo).enrollmentGrants = repo.enrollmentGrants ∧
      (touchEndpoint principal now repo).tasks = repo.tasks ∧
      (touchEndpoint principal now repo).inventoryStates = repo.inventoryStates ∧
      (touchEndpoint principal now repo).idempotency = repo.idempotency := by
  unfold touchEndpoint
  split
  · split <;> exact ⟨rfl, rfl, rfl, rfl, rfl⟩
  · exact ⟨rfl, rfl, rfl, rfl, rfl⟩

/-- Calls on scans leave every identity as it was. -/
theorem ScanCall.sameIdentities (rt : Runtime) (repo : InMemoryRepository) (call : ScanCall) :
    SameIdentities repo (call.step rt repo) := by
  cases call with
  | createScanJob =>
    rcases createScanJob_effect (Prod.mk.eta).symm with
      ⟨h, -⟩ | ⟨-, -, -, -, _, h⟩ <;> rw [ScanCall.step, h]
    · exact .refl _
    · exact ⟨fun _ => rfl, rfl, rfl⟩
  | claimNextJob principal now =>
    obtain ⟨⟨_, h⟩, -⟩ := claimNextJob_effect (Prod.mk.eta).symm
    rw [ScanCall.step, h]
    obtain ⟨hcredentials, hgrants, -⟩ := touchEndpoint_frame principal now repo
    exact ⟨touchEndpoint_identity principal now repo, hcredentials, hgrants⟩
  | ingestScan =>
    rcases ingestScan_effect (Prod.mk.eta).symm with
      ⟨h, -⟩ | ⟨_, _, -, -, -, _, h⟩ <;> rw [ScanCall.step, h]
    · exact .refl _
    · exact ⟨fun _ => rfl, rfl, rfl⟩
  | recordScanStatus =>
    rcases recordScanStatus_effect (Prod.mk.eta).symm with
      ⟨h, -⟩ | ⟨_, -, -, -, -, _, h⟩ <;> rw [ScanCall.step, h]
    · exact .refl _
    · exact ⟨fun _ => rfl, rfl, rfl⟩
  | recordRejection =>
    rcases recordRejection_effect (Prod.mk.eta).symm with
      ⟨h, -⟩ | ⟨_, -, -, -, _, h⟩ <;> rw [ScanCall.step, h]
    · exact .refl _
    · exact ⟨fun _ => rfl, rfl, rfl⟩
  | claimAnalysisTask =>
    rcases claimAnalysisTask_effect (Prod.mk.eta).symm with
      ⟨h, -⟩ | ⟨_, _, -, -, -, -, h⟩ <;> rw [ScanCall.step, h]
    · exact .refl _
    · exact ⟨fun _ => rfl, rfl, rfl⟩
  | completeAnalysisTask =>
    rcases completeAnalysisTask_effect (Prod.mk.eta).symm with
      ⟨h, -⟩ | ⟨_, -, -, h⟩ <;> rw [ScanCall.step, h]
    · exact .refl _
    · exact ⟨fun _ => rfl, rfl, rfl⟩
  | failAnalysisTask =>
    rcases failAnalysisTask_effect (Prod.mk.eta).symm with
      ⟨h, -⟩ | ⟨_, -, -, h⟩ <;> rw [ScanCall.step, h]
    · exact .refl _
    · exact ⟨fun _ => rfl, rfl, rfl⟩
  | finalizeScanReport =>
    rcases finalizeScanReport_effect (Prod.mk.eta).symm with
      h | ⟨_, -, -, -, -, _, h⟩ <;> rw [ScanCall.step, h]
    · exact .refl _
    · exact ⟨fun _ => rfl, rfl, rfl⟩
  | finalizeScanReportFailure =>
    rcases finalizeScanReportFailure_effect (Prod.mk.eta).symm with
      h | ⟨_, -, -, -, _, h⟩ <;> rw [ScanCall.step, h]
    · exact .refl _
    · exact ⟨fun _ => rfl, rfl, rfl⟩

/-! ## Keys -/

theorem ScanKeys.set {scans : Dict String ScanRecord} (hkeys : ScanKeys scans) {k : String}
    {record : ScanRecord} (h : record.scanId = k) : ScanKeys (scans.set k record) := by
  intro k' record' hk'
  rw [Dict.get?_set] at hk'
  by_cases hk : k = k'
  · rw [if_pos hk, Option.some.injEq] at hk'
    exact hk' ▸ h.trans hk
  · rw [if_neg hk] at hk'
    exact hkeys _ _ hk'

theorem pollRecord_scanId {rt : Runtime} {principal : DevicePrincipal} {now : Timestamp}
    {repo : InMemoryRepository} (record : ScanRecord) :
    (pollRecord rt principal now repo record).scanId = record.scanId := by
  unfold pollRecord
  split
  · rfl
  · split <;> rfl

theorem ScanKeys.step {rt : Runtime} {repo : InMemoryRepository} (call : Call)
    (hkeys : ScanKeys repo.scans) : ScanKeys (call.step rt repo).scans := by
  cases call with
  | identity call =>
    cases call with
    | createEnrollmentGrant =>
      rcases createEnrollmentGrant_effect (Prod.mk.eta).symm with
        ⟨h, -⟩ | ⟨-, -, -, _, h⟩ <;> rw [Call.step, IdentityCall.step, h] <;> exact hkeys
    | enrollEndpoint =>
      rcases enrollEndpoint_effect (Prod.mk.eta).symm with
        ⟨h, -⟩ | ⟨_, -, -, -, -, -, _, h⟩ <;> rw [Call.step, IdentityCall.step, h] <;>
        exact hkeys
    | rotateCredential =>
      rcases rotateCredential_effect (Prod.mk.eta).symm with
        ⟨h, -⟩ | ⟨_, _, _, -, -, -, _, h⟩ <;> rw [Call.step, IdentityCall.step, h] <;>
        exact hkeys
  | scan call =>
    cases call with
    | createScanJob =>
      rcases createScanJob_effect (Prod.mk.eta).symm with
        ⟨h, -⟩ | ⟨-, -, -, -, _, h⟩ <;> rw [Call.step, ScanCall.step, h]
      · exact hkeys
      · exact hkeys.set rfl
    | claimNextJob principal now =>
      obtain ⟨⟨_, h⟩, -⟩ := claimNextJob_effect (Prod.mk.eta).symm
      rw [Call.step, ScanCall.step, h]
      intro k record hk
      simp only [get?_polledScans hkeys] at hk
      obtain ⟨record₀, hk₀, rfl⟩ := Option.map_eq_some_iff.mp hk
      exact (pollRecord_scanId record₀).trans (hkeys _ _ hk₀)
    | ingestScan =>
      rcases ingestScan_effect (Prod.mk.eta).symm with
        ⟨h, -⟩ | ⟨_, _, -, source, -, _, h⟩ <;> rw [Call.step, ScanCall.step, h]
      · exact hkeys
      · have hid := hkeys _ _ source.found
        refine hkeys.set ?_
        exact hid
    | recordScanStatus =>
      rcases recordScanStatus_effect (Prod.mk.eta).symm with
        ⟨h, -⟩ | ⟨_, -, ⟨hfound, -⟩, -, -, _, h⟩ <;> rw [Call.step, ScanCall.step, h]
      · exact hkeys
      · have hid := hkeys _ _ hfound
        refine hkeys.set ?_
        exact hid
    | recordRejection =>
      rcases recordRejection_effect (Prod.mk.eta).symm with
        ⟨h, -⟩ | ⟨_ | _, -, hrecord, -, _, h⟩ <;> rw [Call.step, ScanCall.step, h]
      · exact hkeys
      · exact hkeys
      · have hid := hkeys _ _ (rejectedScan_eq_some hrecord).1
        refine hkeys.set ?_
        exact hid
    | claimAnalysisTask =>
      rcases claimAnalysisTask_effect (Prod.mk.eta).symm with
        ⟨h, -⟩ | ⟨_, _, -, -, -, -, h⟩ <;> rw [Call.step, ScanCall.step, h] <;> exact hkeys
    | completeAnalysisTask =>
      rcases completeAnalysisTask_effect (Prod.mk.eta).symm with
        ⟨h, -⟩ | ⟨_, -, -, h⟩ <;> rw [Call.step, ScanCall.step, h] <;> exact hkeys
    | failAnalysisTask =>
      rcases failAnalysisTask_effect (Prod.mk.eta).symm with
        ⟨h, -⟩ | ⟨_, -, -, h⟩ <;> rw [Call.step, ScanCall.step, h] <;> exact hkeys
    | finalizeScanReport =>
      rcases finalizeScanReport_effect (Prod.mk.eta).symm with
        h | ⟨_, hfound, -, -, -, _, h⟩ <;> rw [Call.step, ScanCall.step, h]
      · exact hkeys
      · have hid := hkeys _ _ hfound
        refine hkeys.set ?_
        exact hid
    | finalizeScanReportFailure =>
      rcases finalizeScanReportFailure_effect (Prod.mk.eta).symm with
        h | ⟨_, hfound, -, -, _, h⟩ <;> rw [Call.step, ScanCall.step, h]
      · exact hkeys
      · have hid := hkeys _ _ hfound
        refine hkeys.set ?_
        exact hid

/-- In every reachable state a record is kept under its own identifier. -/
theorem scanKeys_run (rt : Runtime) (calls : List Call) :
    ScanKeys (runFrom (Call.step rt) {} calls).scans :=
  @run_invariant _ _ (Call.step rt) (fun repo : InMemoryRepository => ScanKeys repo.scans)
    (fun _ call h => ScanKeys.step call h) _ _ (fun _ _ h => by cases h)

end OsScanner.Cloud

import Mathlib
import OsScanner.Cloud.Calls

/-!
# What a call answers

A call of the repository returns a value or raises. `Call.method` runs the method behind a
call with its answer, where `Call.step` only keeps the state. The calls that take an
idempotency key are those with a `request`: the triple under which the repository records
their answer, and the digest of their body.
-/

namespace OsScanner.Cloud

open Lib

/-! ## Answers -/

inductive Answer where
  | response (value : Response)
  | job (value : Option ScanRecord)
  | task (value : Option AnalysisTask)
  | done
  deriving DecidableEq

/-- A response as the answer of a call. -/
def Answer.grant (value : EnrollmentGrantRecord) : Answer := .response (.grant value)
def Answer.credential (value : CredentialRecord) : Answer := .response (.credential value)
def Answer.scan (value : ScanRecord) : Answer := .response (.scan value)

/-- The method behind a call on identities. -/
def IdentityCall.method (rt : Runtime) : IdentityCall → RepositoryMethod Answer
  | .createEnrollmentGrant tenantId subject grantId tokenHash body now key digest auditedAt =>
    Answer.grant <$> Cloud.createEnrollmentGrant rt
      (newGrant tenantId subject grantId tokenHash body now) key digest auditedAt
  | .enrollEndpoint tenantId endpointId credentialId tokenHash body now ttlSeconds key digest
      grantHash auditedAt =>
    Answer.credential <$> Cloud.enrollEndpoint tenantId (newEndpoint tenantId endpointId body now)
      (newCredential tenantId endpointId credentialId tokenHash 1 now ttlSeconds)
      key digest grantHash auditedAt
  | .rotateCredential principal expectedGeneration expectedCredentialId credentialId tokenHash
      generation now ttlSeconds overlapSeconds key digest auditedAt =>
    Answer.credential <$> Cloud.rotateCredential principal expectedGeneration expectedCredentialId
      (newCredential principal.tenantId principal.endpointId credentialId tokenHash generation
        now ttlSeconds) overlapSeconds key digest auditedAt

/-- The method behind a call on scans. -/
def ScanCall.method (rt : Runtime) : ScanCall → RepositoryMethod Answer
  | .createScanJob tenantId endpointId scanId jobId job now key digest auditedAt =>
    Answer.scan <$> Cloud.createScanJob tenantId
      (newScan tenantId endpointId scanId jobId job now) key digest auditedAt
  | .claimNextJob principal now auditedAt =>
    Answer.job <$> Cloud.claimNextJob rt principal now auditedAt
  | .ingestScan principal scanId upload key digest osvTaskId depscanTaskId submittedAt now
      auditedAt =>
    Answer.scan <$> Cloud.ingestScan rt principal scanId upload key digest
      (analysisTasks principal scanId osvTaskId depscanTaskId submittedAt) now auditedAt
  | .recordScanStatus principal scanId status key digest now auditedAt =>
    Answer.scan <$> Cloud.recordScanStatus principal scanId status key digest now auditedAt
  | .recordRejection principal payload key digest now auditedAt =>
    (fun _ => .response .accepted) <$> Cloud.recordRejection principal payload key digest now
      auditedAt
  | .claimAnalysisTask kind workerId leaseSeconds now =>
    Answer.task <$> Cloud.claimAnalysisTask kind workerId leaseSeconds now
  | .completeAnalysisTask taskId workerId result now =>
    (fun _ => .done) <$> Cloud.completeAnalysisTask taskId workerId result now
  | .failAnalysisTask taskId workerId error retryAt deadLetter now =>
    (fun _ => .done) <$> Cloud.failAnalysisTask taskId workerId error retryAt deadLetter now
  | .finalizeScanReport scanId report now auditedAt =>
    (fun _ => .done) <$> Cloud.finalizeScanReport scanId report now auditedAt
  | .finalizeScanReportFailure scanId error completedAt now auditedAt =>
    (fun _ => .done) <$> Cloud.finalizeScanReportFailure rt scanId error completedAt now auditedAt

def Call.method (rt : Runtime) : Call → RepositoryMethod Answer
  | .identity call => call.method rt
  | .scan call => call.method rt

/-- The answer of a call, or the error that it raises. -/
def Call.answer (rt : Runtime) (repo : InMemoryRepository) (call : Call) :
    Except RepositoryError Answer := ((call.method rt).run repo).1

theorem run_map_fst {α β : Type} (f : α → β) (m : RepositoryMethod α) (repo : InMemoryRepository) :
    ((f <$> m).run repo).1 = f <$> (m.run repo).1 := by
  rw [Method.run_map]
  rcases m.run repo with ⟨_ | _, _⟩ <;> rfl

theorem run_map_snd {α β : Type} (f : α → β) (m : RepositoryMethod α) (repo : InMemoryRepository) :
    ((f <$> m).run repo).2 = (m.run repo).2 := by
  rw [Method.run_map]
  rcases m.run repo with ⟨_ | _, _⟩ <;> rfl

/-- The state after a call is the state that its method leaves. -/
theorem Call.step_eq (rt : Runtime) (repo : InMemoryRepository) (call : Call) :
    call.step rt repo = ((call.method rt).run repo).2 := by
  cases call with
  | identity call => cases call <;> exact (run_map_snd _ _ _).symm
  | scan call => cases call <;> exact (run_map_snd _ _ _).symm

theorem Call.run_method (rt : Runtime) (repo : InMemoryRepository) (call : Call) :
    (call.method rt).run repo = (call.answer rt repo, call.step rt repo) := by
  rw [Call.step_eq]
  rfl

/-- A map raises exactly what its method raises. -/
theorem map_eq_error {ε α β : Type} {f : α → β} {x : Except ε α} {e : ε} :
    f <$> x = .error e ↔ x = .error e := by
  cases x <;> simp [Functor.map, Except.map]

theorem map_eq_ok {ε α β : Type} {f : α → β} {x : Except ε α} {b : β} :
    f <$> x = .ok b ↔ ∃ a, x = .ok a ∧ f a = b := by
  cases x <;> simp [Functor.map, Except.map]

/-! ## Requests -/

/-- The triple and the digest of a call on identities. -/
def IdentityCall.request : IdentityCall → IdempotencyKey × String
  | .createEnrollmentGrant tenantId _ _ _ _ _ key digest _ =>
    (⟨tenantId, "create-enrollment-grant", key⟩, digest)
  | .enrollEndpoint tenantId _ _ _ _ _ _ key digest _ _ => (⟨tenantId, "enroll", key⟩, digest)
  | .rotateCredential principal _ _ _ _ _ _ _ _ key digest _ =>
    (⟨principal.tenantId, rotateOperation principal.endpointId, key⟩, digest)

/-- The triple and the digest of a call on scans, if it takes an idempotency key. -/
def ScanCall.request : ScanCall → Option (IdempotencyKey × String)
  | .createScanJob tenantId _ _ _ _ _ key digest _ =>
    some (⟨tenantId, "create-scan", key⟩, digest)
  | .ingestScan principal scanId _ key digest _ _ _ _ _ =>
    some (⟨principal.tenantId, ingestOperation scanId, key⟩, digest)
  | .recordScanStatus principal scanId _ key digest _ _ =>
    some (⟨principal.tenantId, scanStatusOperation scanId, key⟩, digest)
  | .recordRejection principal payload key digest _ _ =>
    some (⟨principal.tenantId, rejectionOperation payload.documentSha256, key⟩, digest)
  | _ => none

def Call.request : Call → Option (IdempotencyKey × String)
  | .identity call => some call.request
  | .scan call => call.request

end OsScanner.Cloud

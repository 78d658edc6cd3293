import Mathlib
import OsScanner.Runtime
import OsScanner.Lib.Method

/-!
# Records of the cloud repository

The dataclasses of `cloud_service/repository.py`, the error hierarchy and the state of
`InMemoryRepository`. States and kinds that the source spells as strings from a fixed set are
inductive types; documents stay JSON.
-/

namespace OsScanner.Cloud

open Lib

/-! ## Errors -/

/-- The subclasses of `RepositoryError`, and the errors of Python itself. -/
inductive ErrorKind where
  | notFound
  | ownership
  | idempotencyConflict
  | stateConflict
  | inventorySync
  | inventoryResyncRequired
  | keyError
  | valueError
  | typeError
  deriving DecidableEq, Repr

structure RepositoryError where
  kind : ErrorKind
  message : String
  deriving DecidableEq, Repr

/-- `isinstance(exc, StateConflict)`: the inventory errors are its subclasses. -/
def RepositoryError.isStateConflict (e : RepositoryError) : Bool :=
  e.kind == .stateConflict || e.kind == .inventorySync || e.kind == .inventoryResyncRequired

/-- The status that the exception handlers of `create_app` answer with. -/
def RepositoryError.statusCode (e : RepositoryError) : Nat :=
  match e.kind with
  | .idempotencyConflict | .stateConflict | .inventorySync | .inventoryResyncRequired => 409
  | .notFound | .ownership => 404
  | .keyError | .valueError | .typeError => 500

/-! ## Identities and credentials -/

structure DevicePrincipal where
  tenantId : String
  endpointId : String
  credentialId : String
  generation : Nat
  deriving DecidableEq

inductive OsFamily where
  | windows
  | linux
  | macos
  deriving DecidableEq, Repr

def OsFamily.text : OsFamily → String
  | .windows => "WINDOWS"
  | .linux => "LINUX"
  | .macos => "MACOS"

structure EndpointRecord where
  tenantId : String
  endpointId : String
  hostname : String
  osFamily : OsFamily
  osVersion : String
  architecture : String
  scannerVersion : String
  credentialGeneration : Nat
  enrolledAt : Timestamp
  lastSeenAt : Timestamp
  deriving DecidableEq

structure CredentialRecord where
  tenantId : String
  endpointId : String
  credentialId : String
  tokenHash : String
  generation : Nat
  issuedAt : Timestamp
  expiresAt : Timestamp
  supersededAt : Option Timestamp := none
  validUntil : Option Timestamp := none
  deriving DecidableEq

structure EnrollmentGrantRecord where
  tenantId : String
  grantId : String
  tokenHash : String
  issuedBy : String
  issuedAt : Timestamp
  expiresAt : Timestamp
  osFamily : Option OsFamily := none
  label : Option String := none
  consumedAt : Option Timestamp := none
  endpointId : Option String := none
  deriving DecidableEq

/-! ## Scans -/

inductive ScanState where
  | queued
  | dispatched
  | analyzing
  | complete
  | rejected
  | expired
  deriving DecidableEq, Repr

structure ScanRecord where
  tenantId : String
  endpointId : String
  scanId : String
  jobId : String
  state : ScanState
  jobDocument : JsonObject
  createdAt : Timestamp
  updatedAt : Timestamp
  upload : Option JsonObject := none
  terminalStatus : Option JsonObject := none
  finalReport : Option JsonObject := none
  deriving DecidableEq

structure InventoryState where
  tenantId : String
  endpointId : String
  snapshotHash : String
  snapshot : JsonObject
  sourceScanId : String
  updatedAt : Timestamp
  deriving DecidableEq

structure InventoryReconstruction where
  inventorySync : JsonObject
  state : InventoryState
  deriving DecidableEq

/-! ## Analysis tasks -/

inductive TaskKind where
  | osv
  | depscan
  deriving DecidableEq, Repr

def TaskKind.text : TaskKind → String
  | .osv => "OSV"
  | .depscan => "DEPSCAN"

inductive TaskState where
  | pending
  | running
  | succeeded
  | retry
  | failed
  deriving DecidableEq, Repr

/-- `state in {"SUCCEEDED", "FAILED"}` -/
def TaskState.isTerminal : TaskState → Bool
  | .succeeded | .failed => true
  | .pending | .running | .retry => false

structure AnalysisTask where
  taskId : String
  tenantId : String
  endpointId : String
  scanId : String
  kind : TaskKind
  state : TaskState
  attempts : Nat
  payload : JsonObject
  createdAt : Timestamp
  updatedAt : Timestamp
  availableAt : Timestamp
  leaseExpiresAt : Option Timestamp := none
  leasedBy : Option String := none
  lastError : Option String := none
  result : Option JsonObject := none
  deriving DecidableEq

/-! ## Rejections -/

inductive RejectionReason where
  | invalidJson
  | invalidOrUnauthorizedJob
  deriving DecidableEq, Repr

def RejectionReason.text : RejectionReason → String
  | .invalidJson => "INVALID_JSON"
  | .invalidOrUnauthorizedJob => "INVALID_OR_UNAUTHORIZED_JOB"

/-- The model whose dump is the payload of a rejection. -/
structure ScanRejectionUpload where
  endpointId : String
  scanId : Option String := none
  reason : RejectionReason
  documentSha256 : String
  deriving DecidableEq

/-! ## Audit and idempotency -/

/-- Some events name their actor or resource by a field of a document, as it stands there. -/
structure AuditEvent where
  eventId : String
  tenantId : String
  eventType : String
  actorType : String
  actorId : Json
  resourceType : String
  resourceId : Json
  occurredAt : Timestamp
  details : JsonObject
  deriving DecidableEq

/-- The response that an idempotent operation recorded. -/
inductive Response where
  | grant (value : EnrollmentGrantRecord)
  | credential (value : CredentialRecord)
  | scan (value : ScanRecord)
  | accepted
  deriving DecidableEq

/-- `(tenant, operation, key)` -/
structure IdempotencyKey where
  tenant : String
  operation : String
  key : String
  deriving DecidableEq

/-! ## The repository -/

/-- The fields of `InMemoryRepository`. Credentials and grants are keyed by token hash. -/
structure InMemoryRepository where
  endpoints : Dict String EndpointRecord := ∅
  credentials : Dict String CredentialRecord := ∅
  enrollmentGrants : Dict String EnrollmentGrantRecord := ∅
  scans : Dict String ScanRecord := ∅
  inventoryStates : Dict (String × String) InventoryState := ∅
  tasks : Dict String AnalysisTask := ∅
  auditEvents : List AuditEvent := []
  rejections : List ScanRejectionUpload := []
  idempotency : Dict IdempotencyKey (String × Response) := ∅
  deriving DecidableEq

/-- A method of the repository. The lock makes each one a single step. -/
abbrev RepositoryMethod := Method InMemoryRepository RepositoryError

/-- `raise kind(message)` -/
def fail {α : Type} (kind : ErrorKind) (message : String) : Except RepositoryError α :=
  .error ⟨kind, message⟩

/-- `if bad: raise kind(message)` -/
def raiseIf (bad : Prop) [Decidable bad] (kind : ErrorKind) (message : String) :
    Except RepositoryError Unit := Check.raiseIf bad ⟨kind, message⟩

theorem raiseIf_eq_ok {bad : Prop} [Decidable bad] {kind : ErrorKind} {message : String}
    {u : Unit} : raiseIf bad kind message = .ok u ↔ ¬ bad := Check.raiseIf_eq_ok

end OsScanner.Cloud

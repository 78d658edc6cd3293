import Mathlib
import OsScanner.Json.Canonical
import OsScanner.Lib.Method
import OsScanner.Lib.Table

/-!
# The endpoint's local database

`app/storage/migrations.py`, `base.py` and `serialization.py`: the tables that the verified
methods read and write, and the checks that every storage method makes of its arguments. A
column is kept when a method reads it. JSON columns hold what reading them back gives: the
canonical text sorts the keys.
-/

namespace OsScanner.Storage

open Lib Lib.Check

/-! ## Errors -/

inductive ErrorKind where
  | typeError
  | valueError
  | storage
  | idempotencyConflict
  | integrity
  deriving DecidableEq, Repr

/-- An exception of the storage layer. -/
structure StorageError where
  kind : ErrorKind
  message : String
  deriving DecidableEq, Repr

/-- `isinstance(exc, StorageError)`: a subclass of it, and not one of Python's own. -/
def StorageError.isStorageError (e : StorageError) : Bool :=
  decide (e.kind = .storage ∨ e.kind = .idempotencyConflict)

/-! ## Checks of arguments -/

/-- `character.isspace()` -/
def isSpace (c : Char) : Bool :=
  let n := c.toNat
  decide ((9 ≤ n ∧ n ≤ 13) ∨ (28 ≤ n ∧ n ≤ 32) ∨ n = 0x85 ∨ n = 0xa0 ∨ n = 0x1680 ∨
    (0x2000 ≤ n ∧ n ≤ 0x200a) ∨ n = 0x2028 ∨ n = 0x2029 ∨ n = 0x202f ∨ n = 0x205f ∨ n = 0x3000)

/-- `text.strip()` -/
def strip (text : String) : String :=
  String.ofList ((text.toList.dropWhile isSpace).rdropWhile isSpace)

def isControl (c : Char) : Bool := decide (c.toNat < 32 ∨ c.toNat = 127)

/-- `clean_identifier(value, field, max_length=…)` -/
def cleanIdentifier (value : Json) (field : String) (maxLength : Nat := 256) :
    Except StorageError String :=
  match value with
  | .str text => do
    let candidate := strip text
    raiseIf (candidate = "") ⟨.valueError, field ++ " must not be empty"⟩
    raiseIf (candidate.length > maxLength)
      ⟨.valueError, field ++ " is longer than " ++ toString maxLength ++ " characters"⟩
    raiseIf (candidate.toList.any isControl)
      ⟨.valueError, field ++ " contains control characters"⟩
    .ok candidate
  | _ => .error ⟨.typeError, field ++ " must be a string"⟩

/-- `clean_error(value, max_length=…)` of a value that prints as `text` -/
def cleanError (rt : Runtime) (text : String) (maxLength : Nat := 1024) : String :=
  String.ofList (((rt.redact text).toList.map fun c => if c.toNat ≥ 32 then c else ' ').take maxLength)

/-! ## The upload queue -/

inductive UploadStatus where
  | pending
  | inFlight
  | succeeded
  | dead
  deriving DecidableEq, Repr

/--
The body of an upload: the canonical text of a document, or bytes that the caller supplies,
with what `json.loads` makes of them (nothing when it raises).
-/
inductive Payload where
  | document (value : Json)
  | bytes (data : List UInt8) (parsed : Option Json)
  deriving DecidableEq

namespace Payload

/-- The bytes that are stored and sent. -/
def body (rt : Runtime) : Payload → List UInt8
  | document value => utf8Bytes (Json.canonicalJson rt value)
  | bytes data _ => data

/-- `parse_json(body)` -/
def parse : Payload → Option Json
  | document value => some (Json.sortKeys value)
  | bytes _ parsed => parsed

/-- `hashlib.sha256(body).hexdigest()` -/
def hash (rt : Runtime) (payload : Payload) : String := rt.sha256 (payload.body rt)

end Payload

/-- A row of `upload_queue`. Clock readings are in seconds. -/
structure UploadRow where
  kind : String
  method : String
  endpoint : String
  payload : Payload
  payloadHash : String
  contentType : String
  idempotencyKey : String
  requestId : String
  status : UploadStatus
  attemptCount : Nat
  maxAttempts : Nat
  nextAttemptAt : ℚ
  leasedUntil : Option ℚ
  leaseToken : Option String
  lastError : Option String
  metadata : JsonObject
  deliveredAt : Option String
  causalGroup : Option String
  predecessorUploadId : Option Nat
  supersededByUploadId : Option Nat
  resyncForUploadId : Option Nat

/-! ## Snapshots, and the audit log -/

/-- A row of `inventory_snapshots`. -/
structure SnapshotRow where
  endpointId : String
  scanId : String
  payloadHash : String
  previousSnapshotId : Option Nat
  schemaVersion : String
  policyVersion : Option String
  scannerVersion : Option String
  changed : Bool
  diff : JsonObject

/-- A row of `audit_log`: the hashed fields, and the link to the row before. -/
structure AuditRow where
  eventId : String
  content : JsonObject
  previousHash : Option String
  eventHash : String

/-- The tables. `payloads` maps the hash of a snapshot to the snapshot. -/
structure Database where
  snapshots : Table SnapshotRow
  payloads : Dict String Json
  uploads : Table UploadRow
  auditLog : List AuditRow

/-- The database after `apply_migrations`. -/
def Database.empty : Database := ⟨∅, ∅, ∅, []⟩

instance : Inhabited Database := ⟨Database.empty⟩

/-! ## What the checks establish -/

theorem cleanIdentifier_eq_ok {value : Json} {field result : String} {maxLength : Nat} :
    cleanIdentifier value field maxLength = .ok result ↔
      ∃ text, value = .str text ∧ result = strip text ∧ strip text ≠ "" ∧
        (strip text).length ≤ maxLength ∧ (strip text).toList.any isControl = false := by
  cases value with
  | str text =>
    simp only [cleanIdentifier, bind_unit_eq_ok, raiseIf_eq_ok, Except.ok.injEq, not_lt, gt_iff_lt,
      Bool.not_eq_true, Json.str.injEq]
    constructor
    · rintro ⟨hne, hlen, hctl, rfl⟩
      exact ⟨text, rfl, rfl, hne, hlen, hctl⟩
    · rintro ⟨_, rfl, rfl, hne, hlen, hctl⟩
      exact ⟨hne, hlen, hctl, rfl⟩
  | _ => simp [cleanIdentifier]

theorem rdropWhile_head {p : Char → Bool} {c : Char} {l : List Char} (hc : p c = false) :
    ∃ l', (c :: l).rdropWhile p = c :: l' := by
  induction l using List.reverseRecOn with
  | nil => exact ⟨[], by simp [List.rdropWhile, hc]⟩
  | append_singleton l d ih =>
    by_cases hd : p d = true
    · obtain ⟨l', hl'⟩ := ih
      refine ⟨l', ?_⟩
      rw [← List.cons_append, List.rdropWhile_concat_pos _ _ _ hd, hl']
    · exact ⟨l ++ [d], by
        rw [← List.cons_append, List.rdropWhile_concat_neg _ _ _ hd]⟩

/-- A text that was stripped has nothing more to strip. -/
theorem strip_strip (text : String) : strip (strip text) = strip text := by
  unfold strip
  rw [String.toList_ofList]
  congr 1
  rcases hl : text.toList.dropWhile isSpace with _ | ⟨c, l⟩
  · rfl
  · have hc : isSpace c = false := by
      have h := List.head?_dropWhile_not isSpace text.toList
      rw [hl] at h
      simpa using h
    obtain ⟨l', hl'⟩ := rdropWhile_head (l := l) hc
    rw [hl', List.dropWhile_cons_of_neg (by simp [hc]), ← hl']
    exact List.rdropWhile_idempotent _ _

end OsScanner.Storage

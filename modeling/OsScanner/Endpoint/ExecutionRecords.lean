import Mathlib
import OsScanner.Endpoint.ExecutionRuns
import OsScanner.Normalization.Validation
import OsScanner.Storage.AuditChain

/-!
# What the agent records

A scan that is complete has its result, and with a result come its entries in the history and in the
audit log. The result, the uploads and the entries are written by one transaction, which an exception
or the end of the process undoes as a whole; so what is recorded is consistent after every run.
-/

namespace OsScanner.Endpoint

open Lib Lib.Check Storage

variable {Bundle : Type}

/-! ## Texts -/

theorem strip_of_isIdentifier {text : String} (h : Cloud.isIdentifier text = true) :
    strip text = text := (Normalization.strip_of_isIdentifier h).1

theorem not_isSpace_append {first second : String} (hfirst : ∀ c ∈ first.toList, isSpace c = false)
    (hsecond : ∀ c ∈ second.toList, isSpace c = false) :
    ∀ c ∈ (first ++ second).toList, isSpace c = false := by
  intro c hc
  rw [String.toList_append, List.mem_append] at hc
  exact hc.elim (hfirst c) (hsecond c)

theorem not_isSpace_hashText (rt : Runtime) (text : String) :
    ∀ c ∈ (rt.hashText text).toList, isSpace c = false := by
  intro c hc
  have hdigest := rt.hashText_digest text
  rw [isHexDigest, Bool.and_eq_true, List.all_eq_true] at hdigest
  have hrange := hdigest.2 c hc
  rw [Bool.or_eq_true, decide_eq_true_eq, decide_eq_true_eq] at hrange
  refine not_isSpace_of_isAlphanum ?_
  rcases hrange with ⟨hlow, hhigh⟩ | ⟨hlow, hhigh⟩
  · have hdigit : c.isDigit = true := by
      rw [Char.isDigit, Bool.and_eq_true, decide_eq_true_eq, decide_eq_true_eq]
      exact ⟨hlow, hhigh⟩
    simp [Char.isAlphanum, hdigit]
  · have hlower : c.isLower = true := by
      rw [Char.isLower, Bool.and_eq_true, decide_eq_true_eq, decide_eq_true_eq]
      exact ⟨hlow, Char.le_trans hhigh (by decide)⟩
    simp [Char.isAlphanum, Char.isAlpha, hlower]

/-- What `clean_identifier` returns for a text without spaces. -/
theorem cleanIdentifier_of_no_space {text field result : String} {maxLength : Nat}
    (htext : ∀ c ∈ text.toList, isSpace c = false)
    (h : cleanIdentifier (.str text) field maxLength = .ok result) : result = text := by
  obtain ⟨text', htext', rfl, -⟩ := cleanIdentifier_eq_ok.mp h
  cases htext'
  exact strip_of_no_space htext

/-- The texts that are written out have no spaces either. -/
theorem not_isSpace_of_all {text : String} (h : text.toList.all (fun c => !isSpace c) = true) :
    ∀ c ∈ text.toList, isSpace c = false := fun c hc =>
  Bool.not_eq_true' _ ▸ List.all_eq_true.mp h c hc

/-- Behind the same beginning there are the same texts. -/
theorem eq_of_append_eq {first second second' : String} (h : first ++ second = first ++ second') :
    second = second' := by
  have hchars := congrArg String.toList h
  rw [String.toList_append, String.toList_append] at hchars
  exact String.toList_inj.mp (List.append_cancel_left hchars)

/-- The key of the history row of a stored result. -/
def storedKey (scanId : String) : String := "result-stored:" ++ scanId

theorem not_isSpace_storedKey {scanId : String} (h : Cloud.isIdentifier scanId = true) :
    ∀ c ∈ (storedKey scanId).toList, isSpace c = false :=
  not_isSpace_append (not_isSpace_of_all (by rfl)) (Normalization.not_isSpace_of_isIdentifier h)

theorem not_isSpace_statusKey (agent : Agent Bundle) (scanId : String) (status : OverallStatus) :
    ∀ c ∈ (statusKey agent scanId status).toList, isSpace c = false :=
  not_isSpace_append (not_isSpace_of_all (by rfl)) (not_isSpace_hashText agent.rt _)

theorem not_isSpace_eventId (agent : Agent Bundle) (scanId : String) :
    ∀ c ∈ (eventId agent "scan-completed" scanId).toList, isSpace c = false := by
  refine not_isSpace_append (not_isSpace_append (not_isSpace_of_all (by rfl))
    (not_isSpace_of_all (by rfl))) fun c hc => ?_
  have hmem : c ∈ (agent.rt.hashText scanId).toList.take 32 := by
    rwa [← String.toList_ofList (l := (agent.rt.hashText scanId).toList.take 32)]
  exact not_isSpace_hashText agent.rt _ c (List.mem_of_mem_take hmem)

theorem head?_append {first second : String} {c : Char} (h : first.toList.head? = some c) :
    (first ++ second).toList.head? = some c := by
  rw [String.toList_append, List.head?_append, h, Option.some_or]

theorem ne_empty_of_head? {text : String} {c : Char} (h : text.toList.head? = some c) : text ≠ "" := by
  rintro rfl
  cases h

theorem storedKey_ne_statusKey (agent : Agent Bundle) (scanId scanId' : String)
    (status : OverallStatus) : storedKey scanId ≠ statusKey agent scanId' status := by
  intro h
  have hstored : (storedKey scanId).toList.head? = some 'r' := head?_append (by rfl)
  have hstatus : (statusKey agent scanId' status).toList.head? = some 't' := head?_append (by rfl)
  rw [h, hstatus] at hstored
  cases hstored

theorem storedKey_injective {scanId scanId' : String} (h : storedKey scanId = storedKey scanId') :
    scanId = scanId' := eq_of_append_eq h

theorem statusDigest_of_key {agent : Agent Bundle} {scanId scanId' : String}
    {status status' : OverallStatus}
    (h : statusKey agent scanId status = statusKey agent scanId' status') :
    statusDigest agent scanId status = statusDigest agent scanId' status' := eq_of_append_eq h

theorem strip_status (status : OverallStatus) : strip status.value = status.value := by
  refine strip_of_no_space (not_isSpace_of_all ?_)
  cases status <;> rfl

/-! ## Records -/

/-- No two scans have terminal statuses with one digest. -/
def DistinctStatuses (agent : Agent Bundle) (scans : List String) : Prop :=
  ∀ id ∈ scans, ∀ id' ∈ scans, ∀ status status',
    statusDigest agent id status = statusDigest agent id' status' → id = id'

/-- A row of the history as `execute` writes it. -/
def OwnRow (agent : Agent Bundle) (row : HistoryRow) : Prop :=
  (row.event = "RESULT_STORED" ∧ row.idempotencyKey = some (storedKey row.scanId)) ∨
    ∃ status, row.event = "TERMINAL_STATUS_QUEUED" ∧
      row.idempotencyKey = some (statusKey agent row.scanId status)

/-- How far the transaction of a scan whose result is stored has come. -/
structure Progress where
  scanId : String
  status : String
  saved : Bool
  queued : Bool
  audited : Bool

/--
What the tables say about the scans. Inside a transaction, of the scan in `progress` only that is
required which has been written already.
-/
structure ScansRecorded (agent : Agent Bundle) (scans : List String) (progress : Option Progress)
    (store : ResultStore) : Prop where
  known : ∀ id row, store.jobs.get? id = some row → id ∈ scans ∧
    ∃ fields : JsonObject, row.job = .obj fields ∧ fields.get "scan_id" = .str id
  completed : ∀ id row, store.jobs.get? id = some row → row.status = "COMPLETED" →
    store.results.contains id = true
  rows : ∀ row ∈ store.history, row.scanId ∈ scans ∧ OwnRow agent row
  saved : ∀ id row, store.results.get? id = some row →
    (∀ p ∈ progress, p.scanId = id → p.saved = true) →
      ∃ entry ∈ store.history, entry.scanId = id ∧ entry.event = "RESULT_STORED"
  queued : ∀ id row, store.results.get? id = some row →
    (∀ p ∈ progress, p.scanId = id → p.queued = true) →
      ∃ entry ∈ store.history, entry.scanId = id ∧ entry.event = "TERMINAL_STATUS_QUEUED" ∧
        entry.status = some row.status
  audited : ∀ id row, store.results.get? id = some row →
    (∀ p ∈ progress, p.scanId = id → p.audited = true) →
      ∃ entry ∈ store.auditLog, entry.eventId = eventId agent "scan-completed" id
  inHand : ∀ p ∈ progress, ∃ row, store.results.get? p.scanId = some row ∧ row.status = p.status

section

variable {agent : Agent Bundle} {scans : List String} {progress : Option Progress}
  {store : ResultStore}

theorem recorded_empty (agent : Agent Bundle) (scans : List String) :
    ScansRecorded agent scans none .empty where
  known _ _ h := absurd h (by rw [show ResultStore.empty.jobs = ∅ from rfl]; simp)
  completed _ _ h := absurd h (by rw [show ResultStore.empty.jobs = ∅ from rfl]; simp)
  rows _ h := absurd h List.not_mem_nil
  saved _ _ h := absurd h (by rw [show ResultStore.empty.results = ∅ from rfl]; simp)
  queued _ _ h := absurd h (by rw [show ResultStore.empty.results = ∅ from rfl]; simp)
  audited _ _ h := absurd h (by rw [show ResultStore.empty.results = ∅ from rfl]; simp)
  inHand _ h := absurd h (by simp)

/-- The uploads do not matter, and the audit log only grows. -/
theorem ScansRecorded.withLogs (h : ScansRecorded agent scans progress store) (db : Database)
    (haudit : ∀ entry ∈ store.auditLog, entry ∈ db.auditLog) :
    ScansRecorded agent scans progress { store with toDatabase := db } :=
  ⟨h.known, h.completed, h.rows, h.saved, h.queued, fun id row hrow hprogress =>
    (h.audited id row hrow hprogress).imp fun _ hentry => ⟨haudit _ hentry.1, hentry.2⟩, h.inHand⟩

/-- Nothing is required of the jobs but what they say about their scans. -/
theorem ScansRecorded.withJobs (h : ScansRecorded agent scans progress store) {jobs : ScanJobs}
    (hjobs : ∀ id row, jobs.get? id = some row → store.jobs.get? id = some row ∨
      (id ∈ scans ∧ (∃ fields : JsonObject, row.job = .obj fields ∧ fields.get "scan_id" = .str id) ∧
        (row.status = "COMPLETED" → store.results.contains id = true))) :
    ScansRecorded agent scans progress { store with jobs := jobs } :=
  ⟨fun id row hrow => (hjobs id row hrow).elim (h.known id row) fun hnew => ⟨hnew.1, hnew.2.1⟩,
    fun id row hrow => (hjobs id row hrow).elim (h.completed id row) fun hnew => hnew.2.2,
    h.rows, h.saved, h.queued, h.audited, h.inHand⟩

/-- Everything of the scan has been written. -/
theorem ScansRecorded.finished {p : Progress} (h : ScansRecorded agent scans (some p) store)
    (hsaved : p.saved = true) (hqueued : p.queued = true) (haudited : p.audited = true) :
    ScansRecorded agent scans none store :=
  ⟨h.known, h.completed, h.rows, fun id row hrow _ => h.saved id row hrow fun q hq _ => by
      cases hq
      exact hsaved,
    fun id row hrow _ => h.queued id row hrow fun q hq _ => by
      cases hq
      exact hqueued,
    fun id row hrow _ => h.audited id row hrow fun q hq _ => by
      cases hq
      exact haudited,
    fun p hp => absurd hp (by simp)⟩

/-- A stored result can be taken in hand. -/
theorem ScansRecorded.take (h : ScansRecorded agent scans none store) {id : String} {row : ResultRow}
    (hrow : store.results.get? id = some row) :
    ScansRecorded agent scans (some ⟨id, row.status, true, true, true⟩) store :=
  ⟨h.known, h.completed, h.rows, fun id row hrow _ => h.saved id row hrow (by simp),
    fun id row hrow _ => h.queued id row hrow (by simp),
    fun id row hrow _ => h.audited id row hrow (by simp), fun p hp => by
      cases hp
      exact ⟨row, hrow, rfl⟩⟩

/-! ### Jobs -/

theorem documented_placeholder {scanId : String} {endpointId : Option String} :
    ∃ fields : JsonObject, Json.sortKeys (.obj (placeholderJob scanId endpointId)) = .obj fields ∧
      fields.get "scan_id" = .str scanId := by
  refine ⟨parsed (placeholderJob scanId endpointId), by rw [Json.sortKeys]; rfl, ?_⟩
  rw [get_parsed]
  rfl

theorem ScansRecorded.ensureScan (h : ScansRecorded agent scans progress store) {scanId : String}
    (hscan : scanId ∈ scans) (endpointId : Option String) (now : String) :
    ScansRecorded agent scans progress
      { store with jobs := ensureScan agent.rt scanId endpointId now store.jobs } := by
  refine h.withJobs fun id row hrow => ?_
  unfold Storage.ensureScan at hrow
  split at hrow
  · next before hbefore =>
    rw [Dict.get?_set] at hrow
    split at hrow
    · next heq =>
      -- only the endpoint of a row that is there is filled in
      cases hrow
      subst heq
      exact Or.inr ⟨hscan, (h.known _ _ hbefore).2, fun hstatus =>
        h.completed _ before hbefore hstatus⟩
    · exact Or.inl hrow
  · rw [Dict.get?_set] at hrow
    split at hrow
    · next heq =>
      cases hrow
      subst heq
      refine Or.inr ⟨hscan, documented_placeholder, fun hstatus => ?_⟩
      exact absurd (show "PENDING" = "COMPLETED" from hstatus) (by decide)
    · exact Or.inl hrow

/-! ### The database -/

/-- A method that adds to the audit log at most. -/
theorem keeps_recorded_database {α : Type} {f : Database → Except StorageError (α × Database)}
    (h : ∀ db a db', f db = .ok (a, db') → ∀ entry ∈ db.auditLog, entry ∈ db'.auditLog) :
    Method.Keeps (ScansRecorded agent scans progress)
      (Method.on ResultStore.database (.atomically f)) := by
  intro store hstore
  show ScansRecorded agent scans progress
    (ResultStore.database.set store ((Method.atomically f).run store.toDatabase).2)
  cases hf : f store.toDatabase with
  | error e =>
    rw [Method.atomically_eq_error.mpr ⟨hf, rfl⟩]
    exact hstore
  | ok r =>
    obtain ⟨a, db'⟩ := r
    rw [Method.atomically_eq_ok.mpr hf]
    exact hstore.withLogs db' (h _ a db' hf)

theorem auditLog_enqueueUpload {rt : Runtime} {request : UploadRequest} {uuid : String} {now : ℚ}
    {db db' : Database} {result : EnqueueResult}
    (h : enqueueUpload rt request uuid now db = .ok (result, db')) : db'.auditLog = db.auditLog := by
  unfold enqueueUpload at h
  obtain ⟨fields, -, h⟩ := bind_eq_ok.mp h
  dsimp only at h
  split at h
  · rw [bind_unit_eq_ok] at h
    cases h.2
    rfl
  · cases h
    rfl

theorem mem_auditLog_recordAuditEvent {rt : Runtime} {event : AuditEvent} {db db' : Database}
    {eventHash : String} (h : recordAuditEvent rt event db = .ok (eventHash, db'))
    (entry : AuditRow) (hentry : entry ∈ db.auditLog) : entry ∈ db'.auditLog := by
  rcases recordAuditEvent_auditLog h with hlog | ⟨stored, hlog, -⟩
  · rwa [hlog]
  · rw [hlog]
    exact List.mem_append_left _ hentry

/-- The tables have the audit log that they had, or the one with an event recorded in it. -/
def RecordsAtMost (rt : Runtime) (db db' : Database) : Prop :=
  db'.auditLog = db.auditLog ∨ ∃ event before eventHash after, before.auditLog = db.auditLog ∧
    recordAuditEvent rt event before = .ok (eventHash, after) ∧ db'.auditLog = after.auditLog

theorem RecordsAtMost.mem {rt : Runtime} {db db' : Database} (h : RecordsAtMost rt db db')
    {entry : AuditRow} (hentry : entry ∈ db.auditLog) : entry ∈ db'.auditLog := by
  obtain hsame | ⟨event, before, eventHash, after, hbefore, hrecorded, hafter⟩ := h
  · rwa [hsame]
  · rw [hafter]
    exact mem_auditLog_recordAuditEvent hrecorded entry (hbefore ▸ hentry)

theorem recordsAtMost_requeueDeadUpload {rt : Runtime} {uploadId : Nat} {request : RequeueRequest}
    {recordedAt auditEventId : String} {current : ℚ} {db db' : Database} {result : Nat × String}
    (h : requeueDeadUpload rt uploadId request recordedAt auditEventId current db =
      .ok (result, db')) : RecordsAtMost rt db db' := by
  unfold requeueDeadUpload at h
  simp only [bind_eq_ok] at h
  obtain ⟨operator, -, requestedReason, -, _, -, _, -, h⟩ := h
  split at h
  · cases h
  · simp only [bind_eq_ok] at h
    obtain ⟨_, -, _, -, ⟨auditHash, after⟩, haudit, h⟩ := h
    cases h
    refine Or.inr ⟨_, _, auditHash, after, ?_, haudit, ?_⟩
    · rfl
    · rfl

/-- The other threads record an event at most. -/
theorem recordsAtMost_perform (rt : Runtime) (db : Database) (call : QueueCall) :
    RecordsAtMost rt db (call.perform rt db) := by
  -- a transaction that raises leaves the log
  have hcommitted : ∀ {α : Type} (result : Except StorageError (α × Database)),
      (∀ a db', result = .ok (a, db') → RecordsAtMost rt db db') →
        RecordsAtMost rt db (committed db result) := by
    intro α result hresult
    cases result with
    | error e => exact Or.inl rfl
    | ok r => exact hresult r.1 r.2 rfl
  cases call with
  | enqueue request uuid now =>
    exact hcommitted _ fun a db' h => Or.inl (auditLog_enqueueUpload h)
  | claim limit leaseSeconds current leaseToken =>
    refine hcommitted _ fun a db' h => Or.inl ?_
    unfold claimUploads at h
    rw [bind_unit_eq_ok, bind_unit_eq_ok] at h
    cases h.2.2
    rfl
  | succeeded uploadId leaseToken deliveredAt =>
    refine hcommitted _ fun a db' h => Or.inl ?_
    obtain ⟨-, rfl⟩ | ⟨-, -, f, rfl, -⟩ := markUploadSucceeded_eq_ok h
    · rfl
    · rfl
  | failed uploadId leaseToken failure current =>
    refine hcommitted _ fun a db' h => Or.inl ?_
    obtain ⟨-, f, rfl, -⟩ := markUploadFailed_eq_ok h
    rfl
  | resync uploadId leaseToken error uuid current =>
    refine hcommitted _ fun a db' h => Or.inl ?_
    obtain ⟨row, recovery, f, -, -, -, ⟨_, -, -, rfl⟩ | ⟨-, -, rfl⟩⟩ := scheduleFullResync_eq_ok h
    · rfl
    · rfl
  | requeue uploadId request recordedAt auditEventId current =>
    exact hcommitted _ fun a db' h => recordsAtMost_requeueDeadUpload h
  | purge olderThan limit =>
    refine hcommitted _ fun a db' h => Or.inl ?_
    obtain ⟨deleted, -, rfl⟩ := purgeSucceededUploads_eq_ok h
    rfl
  | stored snapshots payloads => exact Or.inl rfl

theorem ScansRecorded.background (h : ScansRecorded agent scans progress store)
    (action : Background) : ScansRecorded agent scans progress (action.step agent.rt store) := by
  cases action with
  | queue call =>
    exact h.withLogs ⟨store.snapshots, store.payloads, _, _⟩
      fun entry hentry => (recordsAtMost_perform agent.rt _ call).mem hentry
  | audit event =>
    refine h.withLogs ⟨store.snapshots, store.payloads, store.uploads, _⟩
      fun entry hentry => ?_
    cases hresult : recordAuditEvent agent.rt event store.toDatabase with
    | error e => exact hentry
    | ok r =>
      obtain ⟨eventHash, db⟩ := r
      exact mem_auditLog_recordAuditEvent hresult entry hentry

/-! ### Creating and updating a job -/

/-- A creation writes the job as it is asked for, or nothing. -/
theorem createScanJob_row (rt : Runtime) (pyStr : Json → String) (now : String) (job : JsonObject)
    (jobs : ScanJobs) :
    ((createScanJob rt pyStr now job).run jobs).2 = jobs ∨
      ∃ fields row, checkJob job = .ok fields ∧
        ((createScanJob rt pyStr now job).run jobs).2 = jobs.set fields.scanId row ∧
          row.status = fields.status ∧ row.job = Json.sortKeys (.obj job) := by
  unfold createScanJob
  rw [Method.run_ofExcept_bind]
  cases hcheck : checkJob job with
  | error e => exact Or.inl rfl
  | ok fields =>
    dsimp only
    rw [Method.run_reading_bind]
    cases hget : jobs.get? fields.scanId with
    | none => exact Or.inr ⟨fields, _, rfl, rfl, rfl, rfl⟩
    | some row =>
      dsimp only
      rw [Method.run_ofExcept_bind]
      split
      · split
        · exact Or.inl rfl
        · exact Or.inr ⟨fields, _, rfl, rfl, rfl, rfl⟩
      · exact Or.inl rfl

/-- An update writes the row of a job that is there, or nothing. -/
theorem updateScanJob_row (now scanId status : String)
    (startedAt completedAt resultStatus : Option String) (jobs : ScanJobs) :
    ((updateScanJob now scanId status startedAt completedAt resultStatus).run jobs).2 = jobs ∨
      ∃ id status' before, cleanIdentifier (.str scanId) "scan_id" = .ok id ∧
        cleanIdentifier (.str status) "status" 64 = .ok status' ∧ jobs.get? id = some before ∧
          ((updateScanJob now scanId status startedAt completedAt resultStatus).run jobs).2 =
            jobs.set id { before with
              status := status'
              startedAt := startedAt <|> before.startedAt
              completedAt := completedAt <|> before.completedAt
              resultStatus := resultStatus <|> before.resultStatus
              updatedAt := now } := by
  unfold updateScanJob
  rw [Method.run_ofExcept_bind]
  cases hscan : cleanIdentifier (.str scanId) "scan_id" with
  | error e => exact Or.inl rfl
  | ok id =>
    dsimp only
    rw [Method.run_ofExcept_bind]
    cases hstatus : cleanIdentifier (.str status) "status" 64 with
    | error e => exact Or.inl rfl
    | ok status' =>
      dsimp only
      rw [Method.run_reading_bind]
      cases hget : jobs.get? id with
      | none => exact Or.inl rfl
      | some before => exact Or.inr ⟨id, status', before, rfl, rfl, hget, rfl⟩

theorem getOr_of_get {document : JsonObject} {name text : String} {default : Json}
    (h : document.get name = .str text) : getOr document name default = .str text := by
  rw [getOr, h]
  rw [JsonObject.get] at h
  cases hlookup : Assoc.lookup name document with
  | none =>
    rw [hlookup] at h
    cases h
  | some v => rw [JsonObject.has, hlookup, Option.isSome_some, if_pos rfl]

/-- A job is stored as one that is queued. -/
theorem checkJob_queued {job : ScanJob} {dump : JsonObject} {fields : JobFields}
    (h : checkJob (jobPayload job dump) = .ok fields) : fields.status = "QUEUED" := by
  have hget : (jobPayload job dump).get "status" = .str OverallStatus.queued.value := by
    rw [jobPayload, get_set_ne (by decide), get_set_self]
  unfold checkJob at h
  obtain ⟨scanId, -, h⟩ := bind_eq_ok.mp h
  obtain ⟨endpointId, -, h⟩ := bind_eq_ok.mp h
  obtain ⟨scanType, -, h⟩ := bind_eq_ok.mp h
  obtain ⟨status, hstatus, h⟩ := bind_eq_ok.mp h
  rw [getOr_of_get hget] at hstatus
  cases h
  exact cleanIdentifier_of_no_space (not_isSpace_of_all (by rfl)) hstatus

theorem ScansRecorded.createScanJob (h : ScansRecorded agent scans progress store)
    {attempt : ScanAttempt agent.timeText} (hscan : attempt.job.scanId ∈ scans) (pyStr : Json → String)
    (now : String) :
    ScansRecorded agent scans progress { store with jobs :=
      ((Storage.createScanJob agent.rt pyStr now (jobPayload attempt.job attempt.dump)).run
        store.jobs).2 } := by
  refine h.withJobs fun id row hrow => ?_
  obtain hsame | ⟨fields, new, hcheck, hset, hstatus, hjob⟩ := createScanJob_row agent.rt pyStr now
    (jobPayload attempt.job attempt.dump) store.jobs
  · rw [hsame] at hrow
    exact Or.inl hrow
  · rw [hset, Dict.get?_set] at hrow
    split at hrow
    · next heq =>
      cases hrow
      have hid : fields.scanId = attempt.job.scanId := cleanIdentifier_of_no_space
        (Normalization.not_isSpace_of_isIdentifier attempt.identifier)
          (checkJob_payload attempt.dumps hcheck).1
      rw [heq] at hid
      refine Or.inr ⟨hid ▸ hscan, ⟨parsed (jobPayload attempt.job attempt.dump), ?_, ?_⟩,
        fun hcompleted => ?_⟩
      · rw [hjob, Json.sortKeys]
        rfl
      · rw [get_parsed, (get_payload attempt.dumps).1, hid]
        rfl
      · rw [hstatus, checkJob_queued hcheck] at hcompleted
        exact absurd hcompleted (by decide)
    · exact Or.inl hrow

theorem ScansRecorded.updateScanJob (h : ScansRecorded agent scans progress store) (now : String)
    {scanId status : String} (startedAt completedAt resultStatus : Option String)
    (hspace : ∀ c ∈ scanId.toList, isSpace c = false)
    (hcompleted : status = "COMPLETED" → store.results.contains scanId = true)
    (hstatus : ∀ c ∈ status.toList, isSpace c = false) :
    ScansRecorded agent scans progress { store with jobs :=
      ((Storage.updateScanJob now scanId status startedAt completedAt resultStatus).run
        store.jobs).2 } := by
  refine h.withJobs fun id row hrow => ?_
  obtain hsame | ⟨id', status', before, hclean, hclean', hbefore, hset⟩ := updateScanJob_row
    now scanId status startedAt completedAt resultStatus store.jobs
  · rw [hsame] at hrow
    exact Or.inl hrow
  · have hid := cleanIdentifier_of_no_space hspace hclean
    have hword := cleanIdentifier_of_no_space hstatus hclean'
    subst hid hword
    rw [hset, Dict.get?_set] at hrow
    split at hrow
    · next heq =>
      cases hrow
      subst heq
      exact Or.inr ⟨(h.known _ _ hbefore).1, (h.known _ _ hbefore).2, hcompleted⟩
    · exact Or.inl hrow

/-! ### History -/

/-- No other scan has written a row with the key. -/
def OwnKey (agent : Agent Bundle) (scans : List String) (scanId key : String) : Prop :=
  ∀ row : HistoryRow, row.scanId ∈ scans → OwnRow agent row → row.idempotencyKey = some key →
    row.scanId = scanId

theorem ownKey_stored (agent : Agent Bundle) (scans : List String) (scanId : String) :
    OwnKey agent scans scanId (storedKey scanId) := by
  rintro row - (⟨-, hkey⟩ | ⟨status, -, hkey⟩) h
  · rw [hkey, Option.some.injEq] at h
    exact storedKey_injective h
  · rw [hkey, Option.some.injEq] at h
    exact absurd h.symm (storedKey_ne_statusKey agent _ _ status)

theorem ownKey_status (hdistinct : DistinctStatuses agent scans) {scanId : String}
    (hscan : scanId ∈ scans) (status : OverallStatus) :
    OwnKey agent scans scanId (statusKey agent scanId status) := by
  rintro row hrow (⟨-, hkey⟩ | ⟨status', -, hkey⟩) h
  · rw [hkey, Option.some.injEq] at h
    exact absurd h (storedKey_ne_statusKey agent _ _ status)
  · rw [hkey, Option.some.injEq] at h
    exact hdistinct _ hrow _ hscan _ _ (statusDigest_of_key h)

theorem ScansRecorded.withRow (h : ScansRecorded agent scans progress store) {row : HistoryRow}
    (hscan : row.scanId ∈ scans) (hown : OwnRow agent row) :
    ScansRecorded agent scans progress { store with history := store.history ++ [row] } := by
  -- what was in the history is in the longer one
  have hmem : ∀ {p : HistoryRow → Prop}, (∃ entry ∈ store.history, p entry) →
      ∃ entry ∈ store.history ++ [row], p entry := fun hentry =>
    hentry.imp fun _ hp => ⟨List.mem_append_left _ hp.1, hp.2⟩
  refine ⟨h.known, h.completed, fun row' hrow' => ?_,
    fun id result hresult hp => hmem (h.saved id result hresult hp),
    fun id result hresult hp => hmem (h.queued id result hresult hp), h.audited, h.inHand⟩
  rcases List.mem_append.mp hrow' with hold | hnew
  · exact h.rows row' hold
  · rw [List.mem_singleton.mp hnew]
    exact ⟨hscan, hown⟩

theorem historyKey_of_no_space {key : String} {result : Option String}
    (hkey : ∀ c ∈ key.toList, isSpace c = false) (h : historyKey (some key) = .ok result) :
    result = some key := by
  rw [historyKey] at h
  split at h
  · cases h
    rfl
  · cases hclean : cleanIdentifier (.str key) "idempotency_key" with
    | error e =>
      rw [hclean] at h
      cases h
    | ok key' =>
      rw [hclean] at h
      cases h
      rw [cleanIdentifier_of_no_space hkey hclean]

/-- After the call the entry is in the history, from this call or from an earlier one. -/
theorem ensures_appendScanHistory {now scanId event key : String} {status : Option String}
    {details : JsonObject} (hscan : scanId ∈ scans)
    (hspaces : ∀ text ∈ [scanId, event, key], ∀ c ∈ text.toList, isSpace c = false)
    (hne : key ≠ "") (hkey : OwnKey agent scans scanId key)
    (hown : ∀ details, OwnRow agent ⟨scanId, event, status, details, some key⟩) :
    Method.Ensures (ScansRecorded agent scans progress)
      (appendScanHistory agent.rt now scanId event status details (some key))
      (fun _ store => ScansRecorded agent scans progress store ∧ ∃ entry ∈ store.history,
        entry.scanId = scanId ∧ entry.event = event ∧ entry.status = status)
      fun _ => ScansRecorded agent scans progress := by
  simp only [List.forall_mem_cons, List.not_mem_nil, false_implies, implies_true, and_true]
    at hspaces
  unfold appendScanHistory
  refine .bind (Method.ensures_check fun _ _ h => h) fun scan =>
    .bind (Method.ensures_check fun _ _ h => h.1) fun event' =>
      .bind (Method.ensures_check fun _ _ h => h.1.1) fun key' =>
        Method.ensures_atomically ?_ fun _ _ h _ => h.1.1.1
  rintro store ⟨⟩ store' ⟨⟨⟨hstore, hclean⟩, hclean'⟩, hclean''⟩ hbody
  obtain rfl := cleanIdentifier_of_no_space hspaces.1 hclean
  obtain rfl := cleanIdentifier_of_no_space hspaces.2.1 hclean'
  obtain rfl := historyKey_of_no_space hspaces.2.2 hclean''
  have hjobs := hstore.ensureScan hscan none now
  dsimp only at hbody
  rw [if_neg (by simp [hne])] at hbody
  split at hbody
  · next existing hexisting =>
    -- a row with this key is one of this scan
    have hmem := List.mem_of_find?_eq_some hexisting
    have hsame := List.find?_some hexisting
    rw [decide_eq_true_eq] at hsame
    have hof := hstore.rows existing hmem
    rw [bind_unit_eq_ok] at hbody
    obtain ⟨hcontent, hbody⟩ := hbody
    cases hbody
    have hequal := raiseIf_eq_ok.mp hcontent
    simp only [ne_eq, not_not, Prod.mk.injEq] at hequal
    exact ⟨hjobs, existing, hmem, hkey existing hof.1 hof.2 hsame, hequal.1, hequal.2.1⟩
  · cases hbody
    exact ⟨hjobs.withRow hscan (hown _), _, List.mem_append_right _ (List.mem_singleton_self _),
      rfl, rfl, rfl⟩

/-! ### A scan in hand -/

/-- The transaction has come as far as `p` says, or further. -/
structure Progress.Reached (p q : Progress) : Prop where
  scanId : q.scanId = p.scanId
  status : q.queued = false → q.status = p.status
  saved : p.saved = true → q.saved = true
  queued : p.queued = true → q.queued = true
  audited : p.audited = true → q.audited = true

def InHand (agent : Agent Bundle) (scans : List String) (p : Progress) (store : ResultStore) :
    Prop :=
  ∃ q, p.Reached q ∧ ScansRecorded agent scans (some q) store

theorem InHand.finished {p : Progress} (h : InHand agent scans p store) (hsaved : p.saved = true)
    (hqueued : p.queued = true) (haudited : p.audited = true) :
    ScansRecorded agent scans none store := by
  obtain ⟨q, hq, hstore⟩ := h
  exact hstore.finished (hq.saved hsaved) (hq.queued hqueued) (hq.audited haudited)

theorem InHand.contains {p : Progress} (h : InHand agent scans p store) :
    store.results.contains p.scanId = true := by
  obtain ⟨q, hq, hstore⟩ := h
  obtain ⟨row, hrow, -⟩ := hstore.inHand q rfl
  exact Dict.contains_iff.mpr ⟨row, hq.scanId ▸ hrow⟩

/-- What is kept whatever scan is in hand, is kept of this one. -/
theorem ensures_inHand {α ε : Type} {m : Method ResultStore ε α} {F : α → ResultStore → Prop}
    {p : Progress}
    (h : ∀ progress, Method.Ensures (ScansRecorded agent scans progress) m
      (fun a store => ScansRecorded agent scans progress store ∧ F a store)
      fun _ => ScansRecorded agent scans progress) :
    Method.Ensures (InHand agent scans p) m (fun a store => InHand agent scans p store ∧ F a store)
      fun _ => InHand agent scans p := by
  rintro store ⟨q, hq, hstore⟩
  refine ⟨fun a store' hrun => ?_, fun e store' hrun => ?_⟩
  · obtain ⟨hstore', hF⟩ := (h (some q)).returns hstore hrun
    exact ⟨⟨q, hq, hstore'⟩, hF⟩
  · exact ⟨q, hq, (h (some q)).raises hstore hrun⟩

theorem keeps_inHand {α ε : Type} {m : Method ResultStore ε α} {p : Progress}
    (h : ∀ progress, Method.Keeps (ScansRecorded agent scans progress) m) :
    Method.Keeps (InHand agent scans p) m := by
  rintro store ⟨q, hq, hstore⟩
  exact ⟨q, hq, h (some q) store hstore⟩

/-- The transaction comes further where what it has written is there. -/
theorem ScansRecorded.progressed {q q' : Progress} (h : ScansRecorded agent scans (some q) store)
    (hscan : q'.scanId = q.scanId) (hstatus : q'.status = q.status)
    (hsaved : q'.saved = true → q.saved = true ∨
      ∃ entry ∈ store.history, entry.scanId = q.scanId ∧ entry.event = "RESULT_STORED")
    (hqueued : q'.queued = true → q.queued = true ∨ ∃ entry ∈ store.history,
      entry.scanId = q.scanId ∧ entry.event = "TERMINAL_STATUS_QUEUED" ∧
        entry.status = some q.status)
    (haudited : q'.audited = true → q.audited = true ∨
      ∃ entry ∈ store.auditLog, entry.eventId = eventId agent "scan-completed" q.scanId) :
    ScansRecorded agent scans (some q') store := by
  -- of the other scans nothing else is required
  have hother : ∀ {id : String} {flag : Progress → Bool}, q.scanId ≠ id →
      ∀ p ∈ some q, p.scanId = id → flag p = true := by
    intro id flag hne p hp heq
    cases hp
    exact absurd heq hne
  have hsame : ∀ {id : String} {flag : Progress → Bool}, flag q = true →
      ∀ p ∈ some q, p.scanId = id → flag p = true := by
    intro id flag hflag p hp _
    cases hp
    exact hflag
  refine ⟨h.known, h.completed, h.rows, fun id row hrow hp => ?_, fun id row hrow hp => ?_,
    fun id row hrow hp => ?_, fun p hp => ?_⟩
  · by_cases heq : q.scanId = id
    · rcases hsaved (hp q' rfl (hscan.trans heq)) with hold | hentry
      · exact h.saved id row hrow (hsame hold)
      · exact heq ▸ hentry
    · exact h.saved id row hrow (hother heq)
  · by_cases heq : q.scanId = id
    · rcases hqueued (hp q' rfl (hscan.trans heq)) with hold | hentry
      · exact h.queued id row hrow (hsame hold)
      · obtain ⟨row', hrow', hrowStatus⟩ := h.inHand q rfl
        rw [heq, hrow, Option.some.injEq] at hrow'
        rw [hrow', hrowStatus]
        exact heq ▸ hentry
    · exact h.queued id row hrow (hother heq)
  · by_cases heq : q.scanId = id
    · rcases haudited (hp q' rfl (hscan.trans heq)) with hold | hentry
      · exact h.audited id row hrow (hsame hold)
      · exact heq ▸ hentry
    · exact h.audited id row hrow (hother heq)
  · cases hp
    obtain ⟨row, hrow, hrowStatus⟩ := h.inHand q rfl
    exact ⟨row, hscan ▸ hrow, hrowStatus.trans hstatus.symm⟩

theorem InHand.noteSaved {p : Progress} (h : InHand agent scans p store)
    (hentry : ∃ entry ∈ store.history, entry.scanId = p.scanId ∧ entry.event = "RESULT_STORED") :
    InHand agent scans { p with saved := true } store := by
  obtain ⟨q, hq, hstore⟩ := h
  exact ⟨{ q with saved := true },
    ⟨hq.scanId, hq.status, fun _ => rfl, hq.queued, hq.audited⟩,
    hstore.progressed rfl rfl (fun _ => Or.inr (hq.scanId ▸ hentry)) Or.inl Or.inl⟩

theorem InHand.noteQueued {p : Progress} (h : InHand agent scans p store)
    (hentry : ∃ entry ∈ store.history, entry.scanId = p.scanId ∧
      entry.event = "TERMINAL_STATUS_QUEUED" ∧ entry.status = some p.status) :
    InHand agent scans { p with queued := true } store := by
  obtain ⟨q, hq, hstore⟩ := h
  refine ⟨{ q with queued := true },
    ⟨hq.scanId, fun hnot => absurd hnot (by simp), hq.saved, fun _ => rfl, hq.audited⟩,
    hstore.progressed rfl rfl Or.inl (fun _ => ?_) Or.inl⟩
  cases hbefore : q.queued with
  | true => exact Or.inl rfl
  | false =>
    rw [hq.scanId, hq.status hbefore]
    exact Or.inr hentry

theorem InHand.noteAudited {p : Progress} (h : InHand agent scans p store)
    (hentry : ∃ entry ∈ store.auditLog, entry.eventId = eventId agent "scan-completed" p.scanId) :
    InHand agent scans { p with audited := true } store := by
  obtain ⟨q, hq, hstore⟩ := h
  exact ⟨{ q with audited := true },
    ⟨hq.scanId, hq.status, hq.saved, hq.queued, fun _ => rfl⟩,
    hstore.progressed rfl rfl Or.inl Or.inl fun _ => Or.inr (hq.scanId ▸ hentry)⟩

/-! ### Saving a result -/

theorem checkResult_eq {pyStr : Json → String} {scanId resultType : String}
    {endpointId : Option String} {result : JsonObject} {fields : ResultFields}
    {status : OverallStatus} (hspace : ∀ c ∈ scanId.toList, isSpace c = false)
    (hstatus : result.get "status" = .str status.value)
    (h : checkResult pyStr scanId endpointId resultType result = .ok fields) :
    fields.scanId = scanId ∧ fields.status = status.value := by
  obtain ⟨scan, hscan, h⟩ := bind_eq_ok.mp h
  obtain ⟨_, -, h⟩ := bind_eq_ok.mp h
  obtain ⟨_, -, h⟩ := bind_eq_ok.mp h
  obtain ⟨_, -, h⟩ := bind_eq_ok.mp h
  obtain ⟨status', hstatus', h⟩ := bind_eq_ok.mp h
  cases h
  rw [getOr_of_get hstatus, textOf] at hstatus'
  obtain ⟨_, htext, rfl, -⟩ := cleanIdentifier_eq_ok.mp hstatus'
  cases htext
  exact ⟨cleanIdentifier_of_no_space hspace hscan, strip_status status⟩

/-- With the result its scan is in hand. -/
theorem ensures_storeNormalizedResult {pyStr : Json → String} {now scanId resultType : String}
    {endpointId : Option String} {result : JsonObject} {status : OverallStatus}
    (hscan : scanId ∈ scans) (hspace : ∀ c ∈ scanId.toList, isSpace c = false)
    (hstatus : result.get "status" = .str status.value) :
    Method.Ensures (ScansRecorded agent scans none)
      (storeNormalizedResult agent.rt pyStr now scanId endpointId resultType result)
      (fun _ => InHand agent scans ⟨scanId, status.value, false, false, false⟩)
      fun _ => ScansRecorded agent scans none := by
  unfold storeNormalizedResult
  refine .bind (Method.ensures_check fun _ _ h => h) fun fields =>
    Method.ensures_atomically ?_ fun _ _ h _ => h.1
  rintro store ⟨⟩ store' ⟨hstore, hcheck⟩ hbody
  obtain ⟨rfl, hfields⟩ := checkResult_eq hspace hstatus hcheck
  have hjobs := hstore.ensureScan hscan fields.endpointId now
  dsimp only at hbody
  split at hbody
  · next row hrow =>
    -- the result was stored before, with everything that belongs to it
    rw [bind_unit_eq_ok] at hbody
    cases hbody.2
    exact ⟨⟨fields.scanId, row.status, true, true, true⟩,
      ⟨rfl, fun hnot => absurd hnot (by simp), fun _ => rfl, fun _ => rfl, fun _ => rfl⟩,
      hjobs.take hrow⟩
  · cases hbody
    refine ⟨⟨fields.scanId, status.value, false, false, false⟩,
      ⟨rfl, fun _ => rfl, id, id, id⟩, hjobs.known, fun id row hrow hcompleted => ?_, hjobs.rows,
      fun id row hrow hp => ?_, fun id row hrow hp => ?_, fun id row hrow hp => ?_, fun p hp => ?_⟩
    · have hold := hjobs.completed id row hrow hcompleted
      rw [Dict.contains, Dict.get?_set]
      split
      · rfl
      · exact hold
    · have hne : fields.scanId ≠ id := fun heq => absurd (hp _ rfl heq) (by simp)
      rw [Dict.get?_set_ne hne] at hrow
      exact hjobs.saved id row hrow (by simp)
    · have hne : fields.scanId ≠ id := fun heq => absurd (hp _ rfl heq) (by simp)
      rw [Dict.get?_set_ne hne] at hrow
      exact hjobs.queued id row hrow (by simp)
    · have hne : fields.scanId ≠ id := fun heq => absurd (hp _ rfl heq) (by simp)
      rw [Dict.get?_set_ne hne] at hrow
      exact hjobs.audited id row hrow (by simp)
    · cases hp
      exact ⟨_, Dict.get?_set_self _ _ _, hfields⟩

theorem ScansRecorded.withScans (h : ScansRecorded agent scans progress store) {scans' : ScanStore}
    {jobs : ScanJobs} (hrecorded : ScansRecorded agent scans progress { store with jobs := jobs })
    (hjobs : scans'.jobs = jobs) (haudit : scans'.auditLog = store.auditLog) :
    ScansRecorded agent scans progress { store with toScanStore := scans' } := by
  subst hjobs
  exact ⟨hrecorded.known, hrecorded.completed, h.rows, h.saved, h.queued, fun id row hrow hp => by
    rw [haudit]
    exact h.audited id row hrow hp, h.inHand⟩

theorem keeps_recorded_storeSnapshot {now endpointId scanId : String} {versions : SnapshotVersions}
    {snapshot : JsonObject} (hscan : scanId ∈ scans)
    (hspace : ∀ c ∈ scanId.toList, isSpace c = false) :
    Method.Keeps (ScansRecorded agent scans progress) (Method.on ResultStore.scans
      (storeSnapshot agent.rt now endpointId scanId versions snapshot)) := by
  intro store hstore
  rcases hrun : (storeSnapshot agent.rt now endpointId scanId versions snapshot).run
    store.toScanStore with ⟨result, scans'⟩
  rw [Method.run_on hrun]
  unfold storeSnapshot at hrun
  rw [Method.run_ofExcept_bind] at hrun
  split at hrun
  · next endpoint hendpoint =>
    rw [Method.run_ofExcept_bind] at hrun
    split at hrun
    · next scan hclean =>
      obtain rfl := cleanIdentifier_of_no_space hspace hclean
      rw [Method.run_ofExcept_bind] at hrun
      split at hrun
      · have hjobs := hstore.ensureScan hscan (some endpoint) now
        cases result with
        | error e =>
          rw [(Method.atomically_eq_error.mp hrun).2]
          exact hstore
        | ok change =>
          have hbody := Method.atomically_eq_ok.mp hrun
          unfold storeChecked at hbody
          dsimp only at hbody
          split at hbody
          · rw [bind_unit_eq_ok] at hbody
            cases hbody.2
            exact hstore.withScans hjobs rfl rfl
          · cases hbody
            exact hstore.withScans hjobs rfl rfl
      · cases hrun
        exact hstore
    · cases hrun
      exact hstore
  · cases hrun
    exact hstore

theorem keeps_recorded_storeInventory {pyStr : Json → String} {now scanId : String}
    {endpointId : Option String} {result : JsonObject} {inventory : Json} (hscan : scanId ∈ scans)
    (hspace : ∀ c ∈ scanId.toList, isSpace c = false) :
    Method.Keeps (ScansRecorded agent scans progress)
      (storeInventory agent.rt pyStr now scanId endpointId result inventory) := by
  unfold storeInventory
  split
  · exact Method.keeps_pure _
  · split
    · exact Method.keeps_pure _
    · split
      · exact keeps_map (keeps_recorded_storeSnapshot hscan hspace)
      · exact Method.keeps_raise _

/-- A result is saved with its entry in the history. -/
theorem ensures_saveScanResult {pyStr : Json → String} {now scanId : String}
    {endpointId : Option String} {result : JsonObject} {projections : Except StorageError Unit}
    {status : OverallStatus} (hscan : scanId ∈ scans) (hid : Cloud.isIdentifier scanId = true)
    (hstatus : result.get "status" = .str status.value) :
    Method.Ensures (ScansRecorded agent scans none)
      (saveScanResult agent.rt pyStr now scanId endpointId result projections)
      (fun _ => InHand agent scans ⟨scanId, status.value, true, false, false⟩)
      fun _ => ScansRecorded agent scans none := by
  have hspace := Normalization.not_isSpace_of_isIdentifier hid
  unfold saveScanResult
  refine .bind (Method.keeps_reading _).ensures fun inventory => .transaction (S := fun _ _ => True)
    ?_ fun _ _ h => h
  refine .bind (ensures_storeNormalizedResult hscan hspace hstatus).inside fun _ => ?_
  refine .bind (keeps_inHand fun _ => keeps_recorded_storeInventory hscan hspace).ensures.inside
    fun change => ?_
  refine .bind (Method.keeps_ofExcept _).ensures.inside fun _ => ?_
  refine .bind (ensures_inHand fun _ => ensures_appendScanHistory hscan ?_
    (ne_empty_of_head? (head?_append (by rfl))) (ownKey_stored agent scans scanId)
      fun _ => Or.inl ⟨rfl, rfl⟩).inside fun _ => Method.ensures_pure fun store h => ?_
  · simp only [List.forall_mem_cons, List.not_mem_nil, false_implies, implies_true, and_true]
    exact ⟨hspace, not_isSpace_of_all (by rfl), not_isSpace_storedKey hid⟩
  · exact h.1.noteSaved (h.2.imp fun entry hentry => ⟨hentry.1, hentry.2.1, hentry.2.2.1⟩)

end

end OsScanner.Endpoint

import Mathlib
import OsScanner.Lib.Chain
import OsScanner.Storage.Audit
import OsScanner.Storage.Transactions

/-!
# The audit log is tamper evident

`verify_audit_chain` recomputes the hash of every event from the columns that it covers and the
hash of the event before it. What `record_audit_event` appends verifies, also when transactions
around it are rolled back, and two logs that verify and end in the same hash are one log.
-/

namespace OsScanner.Storage

open Lib Lib.Check

/-! ## Verification -/

/-- The hash that an event should have after the one with this hash. -/
def expectedHash (rt : Runtime) (previousHash : Option String) (row : AuditRow) : String :=
  Json.canonicalSha256 rt (.obj (("previous_hash", Json.ofOption previousHash) :: row.content))

def verifyFrom (rt : Runtime) : (previousHash : Option String) → List AuditRow → Bool
  | _, [] => true
  | previousHash, row :: rows =>
    if row.previousHash ≠ previousHash ∨ row.eventHash ≠ expectedHash rt previousHash row then false
    else verifyFrom rt (some row.eventHash) rows

/-- `verify_audit_chain` over the rows in the order of `audit_id`. -/
def verifyAuditChain (rt : Runtime) (rows : List AuditRow) : Bool := verifyFrom rt none rows

/-- How events are chained. -/
def auditChaining (rt : Runtime) : Chaining AuditRow String :=
  ⟨AuditRow.previousHash, AuditRow.eventHash, expectedHash rt⟩

theorem verifyFrom_iff {rt : Runtime} {rows : List AuditRow} :
    ∀ {previousHash : Option String}, verifyFrom rt previousHash rows = true ↔
      (auditChaining rt).Linked previousHash rows := by
  induction rows with
  | nil => simp [verifyFrom, Chaining.Linked]
  | cons row rows ih =>
    intro previousHash
    rw [Chaining.Linked, ← ih, verifyFrom]
    simp [auditChaining, and_assoc]

/-! ## What a hash covers -/

/-- The columns of `audit_log` that the hash covers, each a text or `NULL`. -/
structure AuditColumns where
  eventId : Option String
  eventType : Option String
  actor : Option String
  resourceType : Option String
  resourceId : Option String
  scanId : Option String
  endpointId : Option String
  authorizationScopeId : Option String
  outcome : Option String
  detailsJson : Option String
  createdAt : Option String
  deriving DecidableEq

attribute [ext] AuditColumns

/-- The dictionary that is hashed. -/
def AuditColumns.content (columns : AuditColumns) : JsonObject :=
  [("event_id", Json.ofOption columns.eventId), ("event_type", Json.ofOption columns.eventType),
    ("actor", Json.ofOption columns.actor), ("resource_type", Json.ofOption columns.resourceType),
    ("resource_id", Json.ofOption columns.resourceId), ("scan_id", Json.ofOption columns.scanId),
    ("endpoint_id", Json.ofOption columns.endpointId),
    ("authorization_scope_id", Json.ofOption columns.authorizationScopeId),
    ("outcome", Json.ofOption columns.outcome),
    ("details_json", Json.ofOption columns.detailsJson),
    ("created_at", Json.ofOption columns.createdAt)]

/-- A row as anyone with access to the file can write it. -/
structure StoredEvent where
  columns : AuditColumns
  previousHash : Option String
  eventHash : String
  deriving DecidableEq

namespace StoredEvent

def row (event : StoredEvent) : AuditRow :=
  ⟨event.columns.eventId.getD "", event.columns.content, event.previousHash, event.eventHash⟩

/-- The text that is hashed. -/
def text (rt : Runtime) (event : StoredEvent) : String :=
  Json.canonicalJson rt
    (.obj (("previous_hash", Json.ofOption event.previousHash) :: event.columns.content))

end StoredEvent

theorem ofOption_injective : Function.Injective Json.ofOption := by
  intro a b h
  cases a <;> cases b <;> simp_all [Json.ofOption]

theorem sortKeys_ofOption (column : Option String) :
    Json.sortKeys (Json.ofOption column) = Json.ofOption column := by
  cases column <;> rfl

/-- The text determines the columns and the link: no two events share it. -/
theorem text_injective {rt : Runtime} {event event' : StoredEvent}
    (h : event.text rt = event'.text rt) :
    event.columns = event'.columns ∧ event.previousHash = event'.previousHash := by
  have hsorted := (Json.canonicalJson_eq_iff rt).mp h
  simp only [Json.sortKeys, Json.obj.injEq] at hsorted
  have hcolumn : ∀ (name : String) (column column' : Option String),
      Assoc.lookup name (("previous_hash", Json.ofOption event.previousHash) ::
        event.columns.content) = some (Json.ofOption column) →
      Assoc.lookup name (("previous_hash", Json.ofOption event'.previousHash) ::
        event'.columns.content) = some (Json.ofOption column') → column = column' := by
    intro name column column' hc hc'
    have hfield := congrArg (Assoc.lookup name) hsorted
    rw [Json.lookup_sortedFields, Json.lookup_sortedFields, hc, hc', Option.map_some,
      Option.map_some, sortKeys_ofOption, sortKeys_ofOption, Option.some.injEq] at hfield
    exact ofOption_injective hfield
  refine ⟨AuditColumns.ext (hcolumn "event_id" _ _ rfl rfl) (hcolumn "event_type" _ _ rfl rfl)
    (hcolumn "actor" _ _ rfl rfl) (hcolumn "resource_type" _ _ rfl rfl)
    (hcolumn "resource_id" _ _ rfl rfl) (hcolumn "scan_id" _ _ rfl rfl)
    (hcolumn "endpoint_id" _ _ rfl rfl) (hcolumn "authorization_scope_id" _ _ rfl rfl)
    (hcolumn "outcome" _ _ rfl rfl) (hcolumn "details_json" _ _ rfl rfl)
    (hcolumn "created_at" _ _ rfl rfl), hcolumn "previous_hash" _ _ rfl rfl⟩

/-- The columns of a recorded event. -/
def AuditEvent.columns (rt : Runtime) (event : AuditEvent) (eventId eventType outcome : String) :
    AuditColumns where
  eventId := eventId
  eventType := eventType
  actor := event.actor
  resourceType := event.resourceType
  resourceId := event.resourceId
  scanId := event.scanId
  endpointId := event.endpointId
  authorizationScopeId := event.authorizationScopeId
  outcome := outcome
  detailsJson := Json.canonicalJson rt (.obj event.details)
  createdAt := event.createdAt

/-- A log of rows of the table that verifies. -/
def Verified (rt : Runtime) (rows : List AuditRow) : Prop :=
  verifyAuditChain rt rows = true ∧ ∃ events : List StoredEvent, rows = events.map StoredEvent.row

/-! ## Recording -/

/-- The statements of `record_audit_event`, as a write of a program. -/
def recordWrite (rt : Runtime) (event : AuditEvent) (db : Database) : Except Raised Database :=
  match recordAuditEvent rt event db with
  | .ok (_, db') => .ok db'
  | .error e => .error (if e.kind = .integrity then .sqliteError else .exception)

/-- A call of `record_audit_event`. -/
def recordEvent (rt : Runtime) (faults : Faults) (event : AuditEvent) : Program Database :=
  .transaction faults (.write (recordWrite rt event))

/-- A program that writes the audit log by recording events only. -/
def RecordsOnly (rt : Runtime) : Program Database → Prop
  | .write change =>
    (∃ event, change = recordWrite rt event) ∨
      ∀ db db', change db = .ok db' → db'.auditLog = db.auditLog
  | .seq first second => RecordsOnly rt first ∧ RecordsOnly rt second
  | .attempt body _ handler => RecordsOnly rt body ∧ RecordsOnly rt handler
  | .transaction _ body => RecordsOnly rt body

/-- Recording an event appends nothing, or a row that continues the chain. -/
theorem recordAuditEvent_auditLog {rt : Runtime} {event : AuditEvent} {db db' : Database}
    {eventHash : String} (h : recordAuditEvent rt event db = .ok (eventHash, db')) :
    db'.auditLog = db.auditLog ∨
      ∃ stored : StoredEvent, db'.auditLog = db.auditLog ++ [stored.row] ∧
        stored.previousHash = db.auditLog.getLast?.map (·.eventHash) ∧
        stored.eventHash = expectedHash rt stored.previousHash stored.row := by
  simp only [recordAuditEvent, bind_eq_ok] at h
  obtain ⟨eventType, -, outcome, -, eventId, -, h⟩ := h
  split at h
  · simp only [bind_unit_eq_ok, Except.ok.injEq, Prod.mk.injEq] at h
    exact .inl (by rw [h.2.2])
  · simp only [bind_unit_eq_ok, Except.ok.injEq, Prod.mk.injEq] at h
    obtain ⟨-, -, rfl⟩ := h
    exact .inr ⟨⟨event.columns rt eventId eventType outcome, _, _⟩, rfl, rfl, rfl⟩

theorem Verified.recordAuditEvent {rt : Runtime} {event : AuditEvent} {db db' : Database}
    {eventHash : String} (hdb : Verified rt db.auditLog)
    (h : recordAuditEvent rt event db = .ok (eventHash, db')) : Verified rt db'.auditLog := by
  obtain ⟨hverify, events, hevents⟩ := hdb
  rcases recordAuditEvent_auditLog h with hlog | ⟨stored, hlog, hprevious, hhash⟩
  · rw [hlog]
    exact ⟨hverify, events, hevents⟩
  · rw [hlog]
    refine ⟨verifyFrom_iff.mpr (Chaining.linked_append_singleton.mpr ⟨verifyFrom_iff.mp hverify, ?_⟩),
      events ++ [stored], by rw [hevents, List.map_append, List.map_singleton]⟩
    rw [Option.or_none]
    rw [hprevious] at hhash
    exact ⟨hprevious, hhash⟩

/-- The writes of such a program keep a log that verifies. -/
theorem RecordsOnly.keeps {rt : Runtime} {p : Program Database} (h : RecordsOnly rt p) :
    p.Keeps fun db => Verified rt db.auditLog := by
  induction p with
  | write change =>
    intro db db' hdb hchange
    rcases h with ⟨event, rfl⟩ | hlog
    · unfold recordWrite at hchange
      split at hchange
      · next eventHash db'' hrecord =>
        cases hchange
        exact hdb.recordAuditEvent hrecord
      · cases hchange
    · rwa [hlog db db' hchange]
  | seq first second ih₁ ih₂ => exact ⟨ih₁ h.1, ih₂ h.2⟩
  | attempt body catches handler ih₁ ih₂ => exact ⟨ih₁ h.1, ih₂ h.2⟩
  | transaction faults body ih => exact ih h

/-! ## Tamper evidence -/

/-- Logs that verify and end in the same hash are the same, when the hash tells their texts apart. -/
theorem events_eq {rt : Runtime} {events events' : List StoredEvent}
    (h : verifyAuditChain rt (events.map StoredEvent.row) = true)
    (h' : verifyAuditChain rt (events'.map StoredEvent.row) = true)
    (hlast : events.getLast?.map StoredEvent.eventHash = events'.getLast?.map StoredEvent.eventHash)
    (hinj : Set.InjOn rt.hashText {text | ∃ event ∈ events ++ events', text = event.text rt}) :
    events = events' := by
  have hlinked := Chaining.linked_map.mp (verifyFrom_iff.mp h)
  have hlinked' := Chaining.linked_map.mp (verifyFrom_iff.mp h')
  refine Chaining.eq_of_tip_eq hlinked hlinked' hlast fun event hevent event' hevent' hhash => ?_
  have htext : rt.hashText (event.text rt) = rt.hashText (event'.text rt) := by
    rw [← show event.eventHash = rt.hashText (event.text rt) from hlinked.digest_eq event hevent,
      ← show event'.eventHash = rt.hashText (event'.text rt) from
        hlinked'.digest_eq event' hevent']
    exact hhash
  obtain ⟨hcolumns, hprevious⟩ := text_injective <|
    hinj ⟨event, List.mem_append_left _ hevent, rfl⟩ ⟨event', List.mem_append_right _ hevent', rfl⟩
      htext
  obtain ⟨columns, previousHash, eventHash⟩ := event
  obtain ⟨columns', previousHash', eventHash'⟩ := event'
  obtain rfl : columns = columns' := hcolumns
  obtain rfl : previousHash = previousHash' := hprevious
  obtain rfl : eventHash = eventHash' := hhash
  rfl

/--
What a program that only records events leaves in the audit log verifies, whatever transactions
and faults it goes through; and two logs that verify and end in the same hash are one log.
-/
theorem audit_log_tamper_evident (rt : Runtime) :
    (∀ (p : Program Database) (db : Database), RecordsOnly rt p → Verified rt db.auditLog →
      Verified rt (p.run (.fresh db)).session.connection.current.auditLog ∧
        Verified rt (p.run (.fresh db)).session.connection.committed.auditLog) ∧
      ∀ events events' : List StoredEvent,
        verifyAuditChain rt (events.map StoredEvent.row) = true →
        verifyAuditChain rt (events'.map StoredEvent.row) = true →
        events.getLast?.map StoredEvent.eventHash = events'.getLast?.map StoredEvent.eventHash →
        Set.InjOn rt.hashText {text | ∃ event ∈ events ++ events', text = event.text rt} →
        events = events' := by
  refine ⟨fun p db hp hdb => ?_, fun events events' h h' hlast hinj => events_eq h h' hlast hinj⟩
  have hrun := hp.keeps.run (.fresh db) (Connection.holds_fresh hdb)
  exact ⟨hrun.current, hrun.committed⟩

/-! ## A step that fails -/

/-- A block that writes, inside of another one. -/
theorem run_nestedWrite {σ : Type} {change : σ → Except Raised σ} {committed current content : σ}
    {mark : Mark σ} {marks : List (Mark σ)} {depth uuids : Nat} (h : change current = .ok content) :
    (Program.transaction {} (.write change)).run
        ⟨⟨committed, current, mark :: marks, nofun⟩, depth + 1, uuids⟩ =
      ⟨.ok (), ⟨⟨committed, content, mark :: marks, nofun⟩, depth + 1, uuids + 1⟩, []⟩ := by
  let opened : List (Mark σ) := ⟨some uuids, current⟩ :: mark :: marks
  have hwrite : writeContent change ⟨⟨committed, current, opened, nofun⟩, depth + 2, uuids + 1⟩ =
      ⟨.ok (), ⟨⟨committed, content, opened, nofun⟩, depth + 2, uuids + 1⟩, []⟩ := by
    rw [writeContent]
    dsimp only
    rw [h]
    rfl
  have hclose : Connection.release? uuids ⟨committed, content, opened, nofun⟩ =
      some (⟨committed, content, mark :: marks, nofun⟩ : Connection σ) := by
    simp [opened, Connection.release?, Connection.marksFrom]
  rw [Program.run, Storage.transaction]
  show endBlock {} _ (writeContent change
    ⟨⟨committed, current, opened, nofun⟩, depth + 2, uuids + 1⟩) = _
  rw [hwrite, endBlock]
  dsimp only
  rw [show closeBlock (depth + 1) uuids = Connection.release? uuids from rfl, execute, hclose]
  rfl

/-- A step whose failure is caught leaves what was written before it and after it. -/
theorem committed_attempt {σ : Type} {first second third : σ → Except Raised σ}
    {content recorded undone finished : σ} (hfirst : first content = .ok recorded)
    (hsecond : second recorded = .ok undone) (hthird : third recorded = .ok finished) :
    ((Program.transaction {} (.seq (.transaction {} (.write first))
      (.attempt
        (.transaction {} (.seq (.transaction {} (.write second)) (.write fun _ => .error .exception)))
        (fun raised => decide (raised = .exception))
        (.transaction {} (.write third))))).run (.fresh content)).session.connection.committed =
      finished := by
  let outer : List (Mark σ) := [⟨none, content⟩]
  let attempt : Program σ := .attempt
    (.transaction {} (.seq (.transaction {} (.write second)) (.write fun _ => .error .exception)))
    (fun raised => decide (raised = .exception)) (.transaction {} (.write third))
  have hfails : ∃ exits, (Program.transaction {} (.seq (.transaction {} (.write second))
      (.write fun _ => .error .exception))).run ⟨⟨content, recorded, outer, nofun⟩, 1, 2⟩ =
        ⟨.error .exception, ⟨⟨content, recorded, outer, nofun⟩, 1, 4⟩, exits⟩ := by
    refine ⟨[⟨⟨⟨content, recorded, outer, nofun⟩, 1, 2⟩,
      ⟨⟨content, recorded, outer, nofun⟩, 1, 4⟩⟩], ?_⟩
    exact congrArg (fun o => endBlock {} ⟨⟨content, recorded, outer, nofun⟩, 1, 2⟩
        (o.andThen (Program.write fun _ => .error .exception).run))
      (@run_nestedWrite _ second content recorded undone ⟨some 2, recorded⟩ outer 1 3 hsecond)
  obtain ⟨exits, hfails⟩ := hfails
  have hcaught : attempt.run ⟨⟨content, recorded, outer, nofun⟩, 1, 2⟩ =
      ⟨.ok (), ⟨⟨content, finished, outer, nofun⟩, 1, 5⟩, exits⟩ := by
    have hhandled := congrArg
      (fun o : Outcome σ => Outcome.mk o.result o.session (exits ++ o.exits))
      (@run_nestedWrite _ third content recorded finished ⟨none, content⟩ [] 0 4 hthird)
    rw [List.append_nil] at hhandled
    exact (congrArg (fun o => o.orElse (fun raised => decide (raised = .exception))
      (Program.transaction {} (.write third)).run) hfails).trans hhandled
  have hbody := (congrArg (fun o => o.andThen attempt.run)
    (@run_nestedWrite _ first content content recorded ⟨none, content⟩ [] 0 1 hfirst)).trans
      (congrArg (fun o : Outcome σ => Outcome.mk o.result o.session o.exits) hcaught)
  exact congrArg (fun o => (endBlock {} (Session.fresh content) o).session.connection.committed) hbody

/-- The row of an event whose texts are clean. -/
def newRow (rt : Runtime) (event : AuditEvent) (db : Database) : AuditRow where
  eventId := event.eventId
  content := event.content rt event.eventId event.eventType event.outcome
  previousHash := db.auditLog.getLast?.map AuditRow.eventHash
  eventHash := Json.canonicalSha256 rt (.obj (("previous_hash",
    Json.ofOption (db.auditLog.getLast?.map AuditRow.eventHash)) ::
      event.content rt event.eventId event.eventType event.outcome))

/-- An event with a new ID and a new hash is appended. -/
theorem recordWrite_eq {rt : Runtime} {event : AuditEvent} {db : Database}
    (htype : cleanIdentifier (.str event.eventType) "event_type" 128 = .ok event.eventType)
    (houtcome : cleanIdentifier (.str event.outcome) "outcome" 64 = .ok event.outcome)
    (hid : cleanIdentifier (.str event.eventId) "event_id" = .ok event.eventId)
    (hnew : ∀ row ∈ db.auditLog,
      row.eventId ≠ event.eventId ∧ row.eventHash ≠ (newRow rt event db).eventHash) :
    recordWrite rt event db = .ok { db with auditLog := db.auditLog ++ [newRow rt event db] } := by
  have hfind : db.auditLog.find? (fun row => decide (row.eventId = event.eventId)) = none := by
    rw [List.find?_eq_none]
    exact fun row hrow => by simpa using (hnew row hrow).1
  have hunique : ¬ ∃ row ∈ db.auditLog, row.eventHash = (newRow rt event db).eventHash :=
    fun ⟨row, hrow, heq⟩ => (hnew row hrow).2 heq
  have hrecord : recordAuditEvent rt event db = .ok ((newRow rt event db).eventHash,
      { db with auditLog := db.auditLog ++ [newRow rt event db] }) := by
    refine Check.bind_eq_ok.mpr ⟨_, htype, Check.bind_eq_ok.mpr ⟨_, houtcome,
      Check.bind_eq_ok.mpr ⟨_, hid, ?_⟩⟩⟩
    rw [hfind]
    exact Check.bind_unit_eq_ok.mpr ⟨Check.raiseIf_eq_ok.mpr hunique, rfl⟩
  rw [recordWrite, hrecord]

/-- The digest of a text, from its characters. -/
theorem sample_canonicalSha256 (v : Json) : Json.canonicalSha256 Runtime.sample v =
    Sample.digest ((Json.render Runtime.sample (Json.sortKeys v)).flatMap String.utf8EncodeChar) := by
  rw [Json.canonicalSha256, Json.canonicalJson, Runtime.hashText, utf8Bytes_ofList]
  rfl

/-- A scan that is recorded, with a step that fails and is rolled back. -/
def recordedScan : Program Database :=
  .transaction {} (.seq
    (recordEvent Runtime.sample {}
      { eventType := "scan.started", outcome := "SUCCESS", eventId := "event-1",
        createdAt := "2026-01-01T00:00:00+00:00" })
    (.attempt
      (.transaction {} (.seq
        (recordEvent Runtime.sample {}
          { eventType := "scan.step", outcome := "SUCCESS", eventId := "event-2",
            createdAt := "2026-01-01T00:00:01+00:00" })
        (.write fun _ => .error .exception)))
      (fun raised => decide (raised = .exception))
      (recordEvent Runtime.sample {}
        { eventType := "scan.finished", outcome := "FAILURE", eventId := "event-3",
          createdAt := "2026-01-01T00:00:02+00:00" })))

/-- The events of the scan. -/
def startedEvent : AuditEvent :=
  { eventType := "scan.started", outcome := "SUCCESS", eventId := "event-1",
    createdAt := "2026-01-01T00:00:00+00:00" }

def stepEvent : AuditEvent :=
  { eventType := "scan.step", outcome := "SUCCESS", eventId := "event-2",
    createdAt := "2026-01-01T00:00:01+00:00" }

def finishedEvent : AuditEvent :=
  { eventType := "scan.finished", outcome := "FAILURE", eventId := "event-3",
    createdAt := "2026-01-01T00:00:02+00:00" }

/-- The database when the first event is recorded. -/
def startedLog : Database :=
  { Database.empty with auditLog := [newRow Runtime.sample startedEvent .empty] }

theorem startedHash_ne : ∀ event ∈ [stepEvent, finishedEvent],
    (newRow Runtime.sample startedEvent .empty).eventHash ≠
      (newRow Runtime.sample event startedLog).eventHash := by
  intro event hevent
  simp only [List.mem_cons, List.not_mem_nil, or_false] at hevent
  rcases hevent with rfl | rfl
  · simp only [newRow, startedLog, sample_canonicalSha256]
    decide +kernel
  · simp only [newRow, startedLog, sample_canonicalSha256]
    decide +kernel

theorem audit_log_tamper_evident_recordedScan :
    Verified Runtime.sample
        (recordedScan.run (.fresh .empty)).session.connection.committed.auditLog ∧
      (recordedScan.run (.fresh .empty)).session.connection.committed.auditLog.map AuditRow.eventId =
        ["event-1", "event-3"] := by
  have hverified : Verified Runtime.sample Database.empty.auditLog := ⟨rfl, [], rfl⟩
  have hrecords : RecordsOnly Runtime.sample recordedScan := by
    refine ⟨.inl ⟨_, rfl⟩, ⟨.inl ⟨_, rfl⟩, .inr ?_⟩, .inl ⟨_, rfl⟩⟩
    intro db db' h
    cases h
  have hrun := (audit_log_tamper_evident Runtime.sample).1 recordedScan .empty hrecords hverified
  have hstarted : recordWrite Runtime.sample startedEvent .empty = .ok startedLog :=
    recordWrite_eq (by decide +kernel) (by decide +kernel) (by decide +kernel) (fun _ h => nomatch h)
  have hrecorded : ∀ event ∈ [stepEvent, finishedEvent],
      recordWrite Runtime.sample event startedLog = .ok { startedLog with
        auditLog := startedLog.auditLog ++ [newRow Runtime.sample event startedLog] } := by
    intro event hevent
    have hhash := startedHash_ne event hevent
    simp only [List.mem_cons, List.not_mem_nil, or_false] at hevent
    rcases hevent with rfl | rfl
    · refine recordWrite_eq (by decide +kernel) (by decide +kernel) (by decide +kernel) ?_
      exact List.forall_mem_singleton.mpr ⟨by decide, hhash⟩
    · refine recordWrite_eq (by decide +kernel) (by decide +kernel) (by decide +kernel) ?_
      exact List.forall_mem_singleton.mpr ⟨by decide, hhash⟩
  have hcommitted : (recordedScan.run (.fresh .empty)).session.connection.committed =
      { startedLog with auditLog :=
          startedLog.auditLog ++ [newRow Runtime.sample finishedEvent startedLog] } := by
    have hscan : recordedScan = .transaction {} (.seq (recordEvent Runtime.sample {} startedEvent)
        (.attempt
          (.transaction {} (.seq (recordEvent Runtime.sample {} stepEvent)
            (.write fun _ => .error .exception)))
          (fun raised => decide (raised = .exception))
          (recordEvent Runtime.sample {} finishedEvent))) := rfl
    rw [hscan, recordEvent, recordEvent, recordEvent]
    exact committed_attempt hstarted (hrecorded stepEvent List.mem_cons_self)
      (hrecorded finishedEvent (List.mem_cons_of_mem _ List.mem_cons_self))
  refine ⟨hrun.2, ?_⟩
  rw [hcommitted]
  rfl

end OsScanner.Storage

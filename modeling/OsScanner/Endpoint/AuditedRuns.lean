import Mathlib
import OsScanner.Endpoint.ExecutionRecords

/-!
# The audit log in every run

Whatever happens to an agent, its audit log verifies, and what was recorded stays where it was.
-/

namespace OsScanner.Endpoint

open Lib Lib.Check Storage

variable {Bundle : Type}

/-- The audit log verifies and begins with these entries. -/
def Extends (rt : Runtime) (log : List AuditRow) (db : Database) : Prop :=
  Verified rt db.auditLog ∧ log <+: db.auditLog

section

variable {rt : Runtime} {log : List AuditRow}

/-! ## What extends the log -/

theorem Extends.recordAuditEvent {db db' : Database} {event : AuditEvent} {eventHash : String}
    (h : Extends rt log db) (hrecorded : recordAuditEvent rt event db = .ok (eventHash, db')) :
    Extends rt log db' := by
  refine ⟨h.1.recordAuditEvent hrecorded, ?_⟩
  rcases recordAuditEvent_auditLog hrecorded with hlog | ⟨stored, hlog, -⟩
  · rw [hlog]
    exact h.2
  · -- the event comes behind what is there
    rw [hlog]
    exact h.2.trans ⟨[stored.row], rfl⟩

theorem Extends.of_auditLog {db db' : Database} (h : Extends rt log db)
    (hlog : db'.auditLog = db.auditLog) : Extends rt log db' := by
  rw [Extends, hlog]
  exact h

theorem Extends.perform {db : Database} (h : Extends rt log db) (call : QueueCall) :
    Extends rt log (call.perform rt db) := by
  obtain hsame | ⟨event, before, eventHash, after, hbefore, hrecorded, hafter⟩ :=
    recordsAtMost_perform rt db call
  · exact h.of_auditLog hsame
  · exact ((h.of_auditLog hbefore).recordAuditEvent hrecorded).of_auditLog hafter

theorem Extends.background {store : ResultStore} (h : Extends rt log store.toDatabase)
    (action : Background) : Extends rt log (action.step rt store).toDatabase := by
  cases action with
  | queue call => exact (h.perform call).of_auditLog rfl
  | audit event =>
    cases hrecorded : Storage.recordAuditEvent rt event store.toDatabase with
    | error e =>
      -- the thread raises, and its transaction is undone
      refine h.of_auditLog ?_
      rw [Background.step, hrecorded]
      rfl
    | ok r =>
      obtain ⟨eventHash, db⟩ := r
      refine (h.recordAuditEvent hrecorded).of_auditLog ?_
      rw [Background.step, hrecorded]
      rfl

/-! ## What leaves it -/

/-- The tables whose audit log extends the entries. -/
def LogExtends (rt : Runtime) (log : List AuditRow) (store : ResultStore) : Prop :=
  Extends rt log store.toDatabase

theorem keeps_log_appendScanHistory {now scanId event : String}
    {status idempotencyKey : Option String} {details : JsonObject} :
    Method.Keeps (LogExtends rt log)
      (appendScanHistory rt now scanId event status details idempotencyKey) := by
  unfold appendScanHistory
  refine (Method.keeps_ofExcept _).bind fun scan => (Method.keeps_ofExcept _).bind fun event =>
    (Method.keeps_ofExcept _).bind fun key => Method.Ensures.keeps
      (Method.ensures_atomically ?_ fun _ _ h _ => h)
  rintro store ⟨⟩ store' hstore hbody
  dsimp only at hbody
  split at hbody
  · rw [bind_unit_eq_ok] at hbody
    cases hbody.2
    exact hstore
  · cases hbody
    exact hstore

theorem keeps_log_storeNormalizedResult {pyStr : Json → String} {now scanId resultType : String}
    {endpointId : Option String} {result : JsonObject} :
    Method.Keeps (LogExtends rt log)
      (storeNormalizedResult rt pyStr now scanId endpointId resultType result) := by
  unfold storeNormalizedResult
  refine (Method.keeps_ofExcept _).bind fun fields => Method.Ensures.keeps
    (Method.ensures_atomically ?_ fun _ _ h _ => h)
  rintro store ⟨⟩ store' hstore hbody
  dsimp only at hbody
  split at hbody
  · rw [bind_unit_eq_ok] at hbody
    cases hbody.2
    exact hstore
  · cases hbody
    exact hstore

theorem keeps_log_storeSnapshot {now endpointId scanId : String} {versions : SnapshotVersions}
    {snapshot : JsonObject} :
    Method.Keeps (fun scans : ScanStore => Extends rt log scans.toDatabase)
      (storeSnapshot rt now endpointId scanId versions snapshot) := by
  unfold storeSnapshot
  refine (Method.keeps_ofExcept _).bind fun endpoint => (Method.keeps_ofExcept _).bind fun scan =>
    (Method.keeps_ofExcept _).bind fun _ => Method.Ensures.keeps
      (Method.ensures_atomically ?_ fun _ _ h _ => h)
  intro scans change scans' hscans hbody
  unfold storeChecked at hbody
  dsimp only at hbody
  split at hbody
  · rw [bind_unit_eq_ok] at hbody
    cases hbody.2
    exact hscans
  · cases hbody
    exact hscans

theorem keeps_log_saveScanResult {pyStr : Json → String} {now scanId : String}
    {endpointId : Option String} {result : JsonObject} {projections : Except StorageError Unit} :
    Method.Keeps (LogExtends rt log)
      (saveScanResult rt pyStr now scanId endpointId result projections) := by
  unfold saveScanResult
  refine (Method.keeps_reading _).bind fun inventory => ?_
  dsimp only
  refine (keeps_log_storeNormalizedResult.bind fun _ => ?_).transaction
  refine Method.Keeps.bind ?_ fun change => (Method.keeps_ofExcept _).bind fun _ =>
    keeps_log_appendScanHistory.bind fun _ => Method.keeps_pure _
  unfold storeInventory
  split
  · exact Method.keeps_pure _
  · split
    · exact Method.keeps_pure _
    · split
      · exact keeps_map (Method.keeps_on (fun _ h => h) (fun _ => keeps_log_storeSnapshot)
          fun _ _ _ h => h)
      · exact Method.keeps_raise _

theorem keeps_log_prune (request : PruneRequest) :
    Method.Keeps (LogExtends rt log) (pruneCompletedScanRecords request) := by
  intro store hstore
  obtain ⟨e, hrun⟩ | ⟨held, store', -, hrun, ⟨-, rfl⟩ | rfl⟩ :=
    pruneCompletedScanRecords_cases request store
  · rw [hrun]
    exact hstore
  · rw [hrun]
    exact hstore
  · rw [hrun]
    exact hstore

end

/-! ## Every run -/

theorem keptByOperations_log (agent : Agent Bundle) (log : List AuditRow) :
    KeptByOperations agent (LogExtends agent.rt log) := by
  intro store operation h
  cases operation with
  | create now job => exact h
  | update now scanId status startedAt completedAt resultStatus => exact h
  | history now scanId event status details idempotencyKey =>
    exact keeps_log_appendScanHistory store h
  | save now scanId endpointId result projections => exact keeps_log_saveScanResult store h
  | prune request => exact keeps_log_prune request store h
  | background action => exact Extends.background h action

/--
After every run of the agent its audit log verifies, and whatever happens afterwards, the log as it
is stays the beginning of the log.
-/
theorem audit_log_kept (agent : Agent Bundle) (before after : List (Event Bundle agent.timeText)) :
    Verified agent.rt (executed agent (before ++ after)).auditLog ∧
      (executed agent before).auditLog <+: (executed agent (before ++ after)).auditLog := by
  have hbefore : LogExtends agent.rt [] (executed agent before) :=
    run_invariant (P := LogExtends agent.rt []) (keeps_event (keptByOperations_log agent []))
      ⟨⟨rfl, [], rfl⟩, ⟨[], rfl⟩⟩
  have hsplit : executed agent (before ++ after) =
      runFrom (Event.step agent) (executed agent before) after := runFrom_append _ _ _ _
  rw [hsplit]
  exact run_invariant (P := LogExtends agent.rt (executed agent before).auditLog)
    (keeps_event (keptByOperations_log agent _)) ⟨hbefore.1, ⟨[], List.append_nil _⟩⟩

end OsScanner.Endpoint

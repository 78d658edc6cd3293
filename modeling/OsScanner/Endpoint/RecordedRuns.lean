import Mathlib
import OsScanner.Endpoint.ExecutionRecords
import OsScanner.Endpoint.SbomLimits
import OsScanner.Storage.CarryForward

/-!
# Every run records its scans

The steps of `execute` and of `reconcile_terminal_statuses` keep what the tables say about the scans.
A call that returns has completed its scan; one that is interrupted, wherever that is, leaves the
scan with all of its records or with none.
-/

namespace OsScanner.Endpoint

open Lib Lib.Check Storage

variable {Bundle : Type}

section

variable {agent : Agent Bundle} {env : Surroundings} {job : ScanJob}
  {attempt : ScanAttempt agent.timeText} {scans : List String} {progress : Option Progress}

/-! ## Steps that keep the records -/

theorem keeps_recorded_pause (env : Surroundings) (stage : Stage) :
    Method.Keeps (ScansRecorded agent scans progress) (env.pause agent.rt stage) :=
  (Method.keeps_modify fun _ hstore => background_invariant
    (fun _ action h => h.background action) hstore).bind fun _ => keeps_reach env stage

theorem keeps_recorded_enqueue (stage : Stage) (request : UploadRequest) :
    Method.Keeps (ScansRecorded agent scans progress) (enqueue agent env stage request) :=
  keeps_ofStorage (keeps_map (keeps_recorded_database fun _ _ _ h entry hentry => by
    rwa [auditLog_enqueueUpload h]))

theorem keeps_recorded_queueResult (scan : FinishedScan) (change : Option SnapshotChange) :
    Method.Keeps (ScansRecorded agent scans progress) (queueResult agent env job scan change) :=
  (keeps_reach env _).bind fun _ => (keeps_uploadDocument scan change).bind fun _ =>
    (Method.keeps_ofExcept _).bind fun _ => keeps_recorded_enqueue _ _

theorem keeps_recorded_recordEvent (event : AuditEvent) :
    Method.Keeps (ScansRecorded agent scans progress) (recordEvent agent event) :=
  keeps_ofStorage (keeps_map (keeps_recorded_database fun _ _ _ h entry hentry =>
    mem_auditLog_recordAuditEvent h entry hentry))

theorem exists_recordAuditEvent {rt : Runtime} {event : AuditEvent} {db db' : Database}
    {eventHash : String} (hspace : ∀ c ∈ event.eventId.toList, isSpace c = false)
    (h : recordAuditEvent rt event db = .ok (eventHash, db')) :
    ∃ entry ∈ db'.auditLog, entry.eventId = event.eventId := by
  simp only [recordAuditEvent, bind_eq_ok] at h
  obtain ⟨eventType, -, outcome, -, eventId, hclean, h⟩ := h
  obtain rfl := cleanIdentifier_of_no_space hspace hclean
  split at h
  · next existing hexisting =>
    have hsame := List.find?_some hexisting
    rw [decide_eq_true_eq] at hsame
    simp only [bind_unit_eq_ok, Except.ok.injEq, Prod.mk.injEq] at h
    rw [← h.2.2]
    exact ⟨existing, List.mem_of_find?_eq_some hexisting, hsame⟩
  · simp only [bind_unit_eq_ok, Except.ok.injEq, Prod.mk.injEq] at h
    rw [← h.2.2]
    exact ⟨_, List.mem_append_right _ (List.mem_singleton_self _), rfl⟩

/-- After the call the event is in the log, from this call or from an earlier one. -/
theorem ensures_recordEvent {event : AuditEvent}
    (hspace : ∀ c ∈ event.eventId.toList, isSpace c = false) :
    Method.Ensures (ScansRecorded agent scans progress) (recordEvent agent event)
      (fun _ store => ScansRecorded agent scans progress store ∧
        ∃ entry ∈ store.auditLog, entry.eventId = event.eventId)
      fun _ => ScansRecorded agent scans progress := by
  refine .lifted (.map (Method.ensures_on fun store hstore => Method.ensures_atomically ?_ ?_))
  · rintro _ eventHash db rfl hrecorded
    exact ⟨hstore.withLogs db (mem_auditLog_recordAuditEvent hrecorded),
      exists_recordAuditEvent hspace hrecorded⟩
  · rintro _ e rfl -
    exact hstore

theorem scanEvent_eventId (event eventType outcome : String) (details : JsonObject)
    (createdAt : Timestamp) (returnExisting : Bool) :
    (scanEvent agent attempt event eventType outcome details createdAt returnExisting).eventId =
      eventId agent event attempt.job.scanId := rfl

theorem ensures_recordCompleted (eventType outcome : String) (details : JsonObject)
    (createdAt : Timestamp) (returnExisting : Bool) :
    Method.Ensures (ScansRecorded agent scans progress) (recordEvent agent (scanEvent agent attempt
        "scan-completed" eventType outcome details createdAt returnExisting))
      (fun _ store => ScansRecorded agent scans progress store ∧ ∃ entry ∈ store.auditLog,
        entry.eventId = eventId agent "scan-completed" attempt.job.scanId)
      fun _ => ScansRecorded agent scans progress := by
  refine (ensures_recordEvent ?_).weaken (fun _ h => h) (fun _ store h => ⟨h.1, ?_⟩) fun _ _ h => h
  · rw [scanEvent_eventId]
    exact not_isSpace_eventId agent attempt.job.scanId
  · rw [← scanEvent_eventId]
    exact h.2

/-! ## Terminal statuses -/

/-- After the call the terminal status of the scan is in the history. -/
theorem ensures_queueTerminalStatus (hdistinct : DistinctStatuses agent scans)
    (hscan : job.scanId ∈ scans) (hid : Cloud.isIdentifier job.scanId = true)
    {between : Stage → ExecutionMethod Unit}
    (hbetween : ∀ stage, Method.Keeps (ScansRecorded agent scans progress) (between stage))
    (status : OverallStatus) (result : Option ScanResult) :
    Method.Ensures (ScansRecorded agent scans progress)
      (queueTerminalStatus agent env job between status result)
      (fun _ store => ScansRecorded agent scans progress store ∧ ∃ entry ∈ store.history,
        entry.scanId = job.scanId ∧ entry.event = "TERMINAL_STATUS_QUEUED" ∧
          entry.status = some status.value)
      fun _ => ScansRecorded agent scans progress := by
  refine .bind (hbetween _).ensures fun _ => .bind (keeps_namedPolicy status result).ensures
    fun policy => .bind (Method.keeps_ofExcept _).ensures fun _ =>
      .bind (keeps_recorded_enqueue _ _).ensures fun _ => .bind (hbetween _).ensures fun _ =>
        .lifted (ensures_appendScanHistory hscan ?_ (ne_empty_of_head? (head?_append (by rfl)))
          (ownKey_status hdistinct hscan status) fun _ => Or.inr ⟨status, rfl, rfl⟩)
  simp only [List.forall_mem_cons, List.not_mem_nil, false_implies, implies_true, and_true]
  exact ⟨Normalization.not_isSpace_of_isIdentifier hid, not_isSpace_of_all (by rfl),
    not_isSpace_statusKey agent job.scanId status⟩

theorem keeps_recorded_queueTerminalStatus (hdistinct : DistinctStatuses agent scans)
    (hscan : job.scanId ∈ scans) (hid : Cloud.isIdentifier job.scanId = true)
    {between : Stage → ExecutionMethod Unit}
    (hbetween : ∀ stage, Method.Keeps (ScansRecorded agent scans progress) (between stage))
    (status : OverallStatus) (result : Option ScanResult) :
    Method.Keeps (ScansRecorded agent scans progress)
      (queueTerminalStatus agent env job between status result) :=
  Method.Ensures.keeps ((ensures_queueTerminalStatus hdistinct hscan hid hbetween status
    result).weaken (fun _ h => h) (fun _ _ h => h.1) fun _ _ h => h)

/-! ## Job rows -/

/-- The scan has this status. -/
def HasStatus (scanId status : String) (store : ResultStore) : Prop :=
  ∃ row, store.jobs.get? scanId = some row ∧ row.status = status

/-- A scan is completed only when its result is stored. -/
theorem ensures_updateJob {stage : Stage} {status : String}
    {startedAt completedAt resultStatus : Option String} {P : ResultStore → Prop}
    (hid : Cloud.isIdentifier job.scanId = true) (hspace : ∀ c ∈ status.toList, isSpace c = false)
    (hP : ∀ store, P store → ScansRecorded agent scans progress store ∧
      (status = "COMPLETED" → store.results.contains job.scanId = true)) :
    Method.Ensures P (updateJob env job stage status startedAt completedAt resultStatus)
      (fun _ store => ScansRecorded agent scans progress store ∧ HasStatus job.scanId status store)
      fun _ => ScansRecorded agent scans progress := by
  have hscan := Normalization.not_isSpace_of_isIdentifier hid
  refine .lifted fun store hstore => ?_
  obtain ⟨hrecorded, hcompleted⟩ := hP store hstore
  have hkept := hrecorded.updateScanJob (env.now stage) startedAt completedAt resultStatus hscan
    hcompleted hspace
  refine ⟨fun _ store' hrun => ?_, fun e store' hrun => ?_⟩
  · obtain ⟨jobs, hjobs, rfl⟩ := Method.on_eq.mp hrun
    have hsame : _ = jobs := congrArg Prod.snd hjobs
    refine ⟨hsame ▸ hkept, ?_⟩
    unfold updateScanJob at hjobs
    obtain ⟨id, hclean, hjobs⟩ := Method.ofExcept_bind_eq_ok.mp hjobs
    obtain ⟨status', hclean', hjobs⟩ := Method.ofExcept_bind_eq_ok.mp hjobs
    obtain ⟨existing, -, hjobs⟩ := Method.reading_bind_eq_ok.mp hjobs
    obtain rfl := cleanIdentifier_of_no_space hscan hclean
    obtain rfl := cleanIdentifier_of_no_space hspace hclean'
    cases existing with
    | none => cases hjobs
    | some row =>
      cases hjobs
      exact ⟨_, Dict.get?_set_self _ _ _, rfl⟩
  · obtain ⟨jobs, hjobs, rfl⟩ := Method.on_eq.mp hrun
    have hsame : _ = jobs := congrArg Prod.snd hjobs
    exact hsame ▸ hkept

theorem not_isSpace_completed : ∀ c ∈ "COMPLETED".toList, isSpace c = false :=
  not_isSpace_of_all (by rfl)

theorem keeps_hasStatus_reach {scanId status : String} (stage : Stage) :
    Method.Keeps (HasStatus scanId status) (env.reach stage) := keeps_reach env stage

theorem keeps_hasStatus_recordEvent {scanId status : String} (event : AuditEvent) :
    Method.Keeps (HasStatus scanId status) (recordEvent agent event) :=
  keeps_ofStorage (keeps_map (Method.keeps_on (Q := fun store _ => HasStatus scanId status store)
    (fun _ h => h) (fun _ _ h => h) fun _ _ h _ => h))

theorem keeps_hasStatus_pause {scanId status : String} (stage : Stage) :
    Method.Keeps (HasStatus scanId status) (env.pause agent.rt stage) := by
  refine (Method.keeps_modify fun _ hstore => background_invariant
    (fun _ action h => ?_) hstore).bind fun _ => keeps_reach env stage
  cases action with
  | queue call => exact h
  | audit event => exact h

/-- The scan in hand can be completed. -/
theorem ensures_updateJob_inHand {stage : Stage} {completedAt resultStatus : Option String}
    {p : Progress} (hid : Cloud.isIdentifier job.scanId = true) (hp : p.scanId = job.scanId) :
    Method.Ensures (InHand agent scans p)
      (updateJob env job stage "COMPLETED" none completedAt resultStatus)
      (fun _ store => InHand agent scans p store ∧ HasStatus job.scanId "COMPLETED" store)
      fun _ => InHand agent scans p := by
  intro store h
  have hcontains := h.contains
  obtain ⟨q, hq, hstore⟩ := h
  have hupdated : Method.Ensures (fun s => ScansRecorded agent scans (some q) s ∧
      s.results.contains job.scanId = true)
      (updateJob env job stage "COMPLETED" none completedAt resultStatus)
      (fun _ store => ScansRecorded agent scans (some q) store ∧
        HasStatus job.scanId "COMPLETED" store) fun _ => ScansRecorded agent scans (some q) :=
    ensures_updateJob hid not_isSpace_completed fun _ hs => ⟨hs.1, fun _ => hs.2⟩
  have hbefore := And.intro hstore (hp ▸ hcontains)
  exact ⟨fun _ _ hrun => ⟨⟨q, hq, (hupdated.returns hbefore hrun).1⟩,
    (hupdated.returns hbefore hrun).2⟩, fun _ _ hrun => ⟨q, hq, hupdated.raises hbefore hrun⟩⟩

theorem keeps_recorded_updateJob {stage : Stage} {status : String}
    {startedAt completedAt resultStatus : Option String}
    (hid : Cloud.isIdentifier job.scanId = true) (hspace : ∀ c ∈ status.toList, isSpace c = false)
    (hstatus : status ≠ "COMPLETED") :
    Method.Keeps (ScansRecorded agent scans progress)
      (updateJob env job stage status startedAt completedAt resultStatus) :=
  Method.Ensures.keeps ((ensures_updateJob hid hspace fun _ h =>
    ⟨h, fun heq => absurd heq hstatus⟩).weaken (fun _ h => h) (fun _ _ h => h.1) fun _ _ h => h)

/-! ## Completing a scan -/

/-- The last transaction of a scan writes everything or nothing. -/
theorem ensures_complete (hdistinct : DistinctStatuses agent scans)
    (hscan : attempt.job.scanId ∈ scans) (policy : Bundle) (scan : FinishedScan) :
    Method.Ensures (ScansRecorded agent scans none) (complete agent attempt policy scan)
      (fun _ store => ScansRecorded agent scans none store ∧
        HasStatus attempt.job.scanId "COMPLETED" store)
      fun _ => ScansRecorded agent scans none := by
  refine .transaction (S := fun _ _ => True) ?_ fun _ _ h => h
  refine .bind (keeps_reach _ _).ensures.inside fun _ => .bind (keeps_reach _ _).ensures.inside
    fun _ => .bind (.lifted (ensures_saveScanResult hscan attempt.identifier
      scan.status_eq).inside) fun change => ?_
  refine .bind (keeps_inHand fun _ => keeps_recorded_queueResult scan change).ensures.inside
    fun _ => ?_
  refine .bind (ensures_inHand fun _ => ensures_queueTerminalStatus hdistinct hscan
    attempt.identifier (fun _ => keeps_reach _ _) _ _).inside fun _ => ?_
  -- from here on the status is known to be in the history
  refine .bind ((keeps_reach _ _).ensures.inside.weaken (fun _ h => h.1.noteQueued h.2)
    (fun _ _ h => h) fun _ _ h => h) fun _ => ?_
  refine .bind (ensures_updateJob_inHand attempt.identifier rfl).inside fun _ => ?_
  refine .bind (keeps_reach _ _).ensures.inside fun _ => ?_
  -- the event is the last record that the scan in hand lacks
  refine .bind ((ensures_inHand fun _ => ensures_recordCompleted _ _ _ _ _).frame
    (keeps_hasStatus_recordEvent _)).inside fun _ => ?_
  refine (keeps_reach _ _).ensures.inside.weaken (fun _ h => h) (fun _ store h => ?_) fun _ _ h => h
  exact ⟨(h.1.1.noteAudited h.1.2).finished rfl rfl rfl, h.2⟩

/-! ## Maintenance -/

theorem ScansRecorded.pruned {store store' : ResultStore} {deleted : List String}
    (h : ScansRecorded agent scans none store) (hpruned : Pruned deleted store store') :
    ScansRecorded agent scans none store' := by
  have hjobs : ∀ id row, store'.jobs.get? id = some row →
      id ∉ deleted ∧ store.jobs.get? id = some row := by
    intro id row hrow
    rw [hpruned.jobs] at hrow
    split at hrow
    · cases hrow
    · exact ⟨by assumption, hrow⟩
  have hresults : ∀ id row, store'.results.get? id = some row →
      id ∉ deleted ∧ store.results.get? id = some row := by
    intro id row hrow
    rw [hpruned.results] at hrow
    split at hrow
    · cases hrow
    · exact ⟨by assumption, hrow⟩
  -- the history of a scan goes and stays with the scan
  have hhistory : ∀ {id : String} {p : HistoryRow → Prop}, id ∉ deleted →
      (∃ entry ∈ store.history, entry.scanId = id ∧ p entry) →
        ∃ entry ∈ store'.history, entry.scanId = id ∧ p entry := by
    rintro id p hkept ⟨entry, hentry, rfl, hp⟩
    refine ⟨entry, ?_, rfl, hp⟩
    rw [hpruned.history, List.mem_filter]
    exact ⟨hentry, decide_eq_true hkept⟩
  refine ⟨fun id row hrow => h.known id row (hjobs id row hrow).2, fun id row hrow hstatus => ?_,
    fun row hrow => ?_, fun id row hrow hp => ?_, fun id row hrow hp => ?_,
    fun id row hrow hp => ?_, fun p hp => absurd hp (by simp)⟩
  · obtain ⟨hkept, hrow⟩ := hjobs id row hrow
    rw [Dict.contains, hpruned.results, if_neg hkept]
    exact h.completed id row hrow hstatus
  · rw [hpruned.history] at hrow
    exact h.rows row (List.mem_of_mem_filter hrow)
  · obtain ⟨hkept, hrow⟩ := hresults id row hrow
    exact hhistory hkept (h.saved id row hrow hp)
  · obtain ⟨hkept, hrow⟩ := hresults id row hrow
    exact hhistory hkept (h.queued id row hrow hp)
  · obtain ⟨-, hrow⟩ := hresults id row hrow
    rw [hpruned.auditLog]
    exact h.audited id row hrow hp

theorem keeps_recorded_prune (request : PruneRequest) :
    Method.Keeps (ScansRecorded agent scans none) (pruneCompletedScanRecords request) := by
  intro store hstore
  obtain ⟨e, hrun⟩ | ⟨held, store', -, hrun, ⟨-, rfl⟩ | rfl⟩ :=
    pruneCompletedScanRecords_cases request store
  · rw [hrun]
    exact hstore
  · rw [hrun]
    exact hstore
  · rw [hrun]
    exact hstore.pruned (pruned_deleteScans _ _)

theorem keeps_recorded_recordMaintenance (pruned purged : Nat) :
    Method.Keeps (ScansRecorded agent scans none) (recordMaintenance agent attempt pruned purged) := by
  unfold recordMaintenance
  split
  · exact (keeps_recorded_pause _ _).bind fun _ => keeps_recorded_recordEvent _
  · exact Method.keeps_pure _

theorem keeps_recorded_maintainStorage :
    Method.Keeps (ScansRecorded agent scans none) (maintainStorage agent attempt) := by
  unfold maintainStorage
  refine (keeps_recorded_pause _ _).bind fun _ => (keeps_ofStorage (keeps_recorded_database
    fun _ _ _ h entry hentry => ?_)).bind fun purged => ?_
  · obtain ⟨deleted, -, rfl⟩ := purgeSucceededUploads_eq_ok h
    exact hentry
  · exact (keeps_recorded_pause _ _).bind fun _ => (keeps_ofStorage (keeps_recorded_prune _)).bind
      fun pruned => (keeps_recorded_pause _ _).bind fun _ =>
        (keeps_recorded_recordMaintenance pruned purged).bind fun _ => keeps_recorded_pause _ _

/-! ## One call of `execute` -/

theorem ensures_scanAfresh (hdistinct : DistinctStatuses agent scans)
    (hscan : attempt.job.scanId ∈ scans) (policy : Bundle) :
    Method.Ensures (ScansRecorded agent scans none) (scanAfresh agent attempt policy)
      (fun _ store => ScansRecorded agent scans none store ∧
        HasStatus attempt.job.scanId "COMPLETED" store)
      fun _ => ScansRecorded agent scans none := by
  have hrunning : ∀ startedAt, Method.Keeps (ScansRecorded agent scans none) (updateJob
      attempt.toSurroundings attempt.job .start "RUNNING" startedAt none none) := fun _ =>
    keeps_recorded_updateJob attempt.identifier (not_isSpace_of_all (by rfl)) (by decide)
  have hpause : ∀ stage, Method.Keeps (fun store => ScansRecorded agent scans none store ∧
      HasStatus attempt.job.scanId "COMPLETED" store) (attempt.pause agent.rt stage) :=
    fun stage => Method.Ensures.keeps
      ((keeps_recorded_pause _ stage).ensures.frame (keeps_hasStatus_pause stage))
  refine .bind keeps_recorded_maintainStorage.ensures fun _ =>
    .bind (keeps_recorded_pause _ _).ensures fun _ => .bind (Method.keeps_reading _).ensures
      fun started => .bind (keeps_recorded_pause _ _).ensures fun _ => ?_
  refine .bind (Method.Keeps.transaction ((hrunning _).bind fun _ => (keeps_reach _ _).bind
    fun _ => keeps_recorded_recordEvent _)).ensures fun _ => ?_
  refine .bind (keeps_recorded_pause _ _).ensures fun _ => .bind (keeps_recorded_pause _ _).ensures
    fun _ => .bind (Method.keeps_reading _).ensures fun scan =>
      .bind (keeps_recorded_pause _ _).ensures fun _ => ?_
  refine .bind (ensures_complete hdistinct hscan policy scan) fun _ => ?_
  refine (Method.Keeps.bind (hpause _) fun _ => (hpause _).bind fun _ =>
    Method.keeps_pure scan).ensures.weaken (fun _ h => h) (fun _ _ h => h) fun _ _ h => h.1

/-- The uploads of a stored result are queued again. -/
theorem ensures_reuseResult (hdistinct : DistinctStatuses agent scans)
    (hscan : attempt.job.scanId ∈ scans) (stored : Json) {p : Progress}
    (hp : p.scanId = attempt.job.scanId) :
    Method.Ensures (InHand agent scans p) (reuseResult agent attempt stored)
      (fun _ store => InHand agent scans p store ∧ HasStatus attempt.job.scanId "COMPLETED" store)
      fun _ => InHand agent scans p := by
  refine .bind (keeps_reach _ _).ensures fun _ => .bind (Method.keeps_ofExcept _).ensures
    fun scan => ?_
  refine .bind (S := fun _ store => InHand agent scans p store ∧
    HasStatus attempt.job.scanId "COMPLETED" store) ?_ fun _ => ?_
  · -- what fails here is raised again, with the transaction undone
    refine .catching (S := fun _ => InHand agent scans p) ?_
      (fun _ => Method.ensures_raise fun _ h => h) fun _ h => h
    refine .bind (keeps_inHand fun _ => keeps_recorded_pause _ _).ensures fun _ => ?_
    refine .transaction (S := fun _ => InHand agent scans p) ?_ fun _ _ h => h
    refine .bind (keeps_reach _ _).ensures fun _ => .bind
      (keeps_ofStorage (Method.keeps_reading _)).ensures fun change => ?_
    refine .bind (keeps_inHand fun _ => keeps_recorded_queueResult scan change).ensures fun _ => ?_
    refine .bind (keeps_inHand fun _ => keeps_recorded_queueTerminalStatus hdistinct hscan
      attempt.identifier (fun _ => keeps_reach _ _) _ _).ensures fun _ => ?_
    exact .bind (keeps_reach _ _).ensures fun _ => ensures_updateJob_inHand attempt.identifier hp
  · refine (Method.Keeps.bind (Method.Ensures.keeps ((keeps_inHand fun _ =>
      keeps_recorded_pause _ _).ensures.frame (keeps_hasStatus_pause _))) fun _ =>
        Method.keeps_pure scan).ensures.weaken (fun _ h => h) (fun _ _ h => h) fun _ _ h => h.1

theorem normalizedResult_eq_some {scanId : String} (hid : Cloud.isIdentifier scanId = true)
    {store : ResultStore} {stored : Json} (h : normalizedResult scanId store = .ok (some stored)) :
    ∃ row, store.results.get? scanId = some row := by
  obtain ⟨id, hclean, hread⟩ := bind_eq_ok.mp h
  obtain rfl := cleanIdentifier_of_no_space (Normalization.not_isSpace_of_isIdentifier hid) hclean
  rw [Except.ok.injEq, Option.bind_eq_some_iff] at hread
  exact hread.imp fun _ hrow => hrow.1

theorem ensures_attemptScan (hdistinct : DistinctStatuses agent scans)
    (hscan : attempt.job.scanId ∈ scans) (policy : Bundle) :
    Method.Ensures (ScansRecorded agent scans none) (attemptScan agent attempt policy)
      (fun _ store => ScansRecorded agent scans none store ∧
        HasStatus attempt.job.scanId "COMPLETED" store)
      fun _ => ScansRecorded agent scans none := by
  have hcreate : Method.Keeps (ScansRecorded agent scans none) (Method.on ResultStore.scanJobs
      (createScanJob agent.rt agent.pyStr (attempt.now .create)
        (jobPayload attempt.job attempt.dump))) := fun _ h => h.createScanJob hscan _ _
  refine .bind (keeps_recorded_pause _ _).ensures fun _ => .bind (keeps_ofStorage hcreate).ensures
    fun _ => .bind (keeps_recorded_pause _ _).ensures fun _ => ?_
  refine .bind (S := fun existing store => ScansRecorded agent scans none store ∧
    ∀ stored, existing = some stored → ∃ row, store.results.get? attempt.job.scanId = some row)
      (.lifted (Method.ensures_reading (fun _ existing h hread => ⟨h, ?_⟩) fun _ _ h _ => h))
        fun existing => ?_
  · rintro stored rfl
    exact normalizedResult_eq_some attempt.identifier hread
  · cases existing with
    | none =>
      exact (ensures_scanAfresh hdistinct hscan policy).weaken (fun _ h => h.1) (fun _ _ h => h)
        fun _ _ h => h
    | some stored =>
      rintro store ⟨hstore, hexisting⟩
      obtain ⟨row, hrow⟩ := hexisting stored rfl
      -- the scan is taken in hand, and nothing is missing of it
      let inHand : Progress := ⟨attempt.job.scanId, row.status, true, true, true⟩
      exact (ensures_reuseResult hdistinct hscan stored (p := inHand) rfl).weaken (fun _ h => h)
        (fun _ _ h => ⟨h.1.finished rfl rfl rfl, h.2⟩) (fun _ _ h => h.finished rfl rfl rfl) store
          ⟨inHand, ⟨rfl, fun _ => rfl, id, id, id⟩, hstore.take hrow⟩

theorem keeps_recorded_persistFailure (message : String) :
    Method.Keeps (ScansRecorded agent scans none) (persistFailure agent attempt message) := by
  have hfailed : Method.Keeps (ScansRecorded agent scans none) (updateJob attempt.toSurroundings
      attempt.job .failureUpdate "FAILED" none (some (agent.timeText attempt.failedAt))
        (some OverallStatus.failed.value)) :=
    keeps_recorded_updateJob attempt.identifier (not_isSpace_of_all (by rfl)) (by decide)
  exact (keeps_recorded_pause _ _).bind fun _ => Method.Keeps.transaction
    (hfailed.bind fun _ => (keeps_reach _ _).bind fun _ => keeps_recorded_recordEvent _)

theorem keeps_recorded_queueFailure (hdistinct : DistinctStatuses agent scans)
    (hscan : attempt.job.scanId ∈ scans) (persisted : Bool) :
    Method.Keeps (ScansRecorded agent scans none) (queueFailure agent attempt persisted) := by
  unfold queueFailure
  split
  · exact (keeps_recorded_queueTerminalStatus hdistinct hscan attempt.identifier
      (keeps_recorded_pause _) _ _).catching fun _ => Method.keeps_pure _
  · exact Method.keeps_pure _

/-- The handler never returns. -/
theorem ensures_handleFailure (hdistinct : DistinctStatuses agent scans)
    (hscan : attempt.job.scanId ∈ scans) (failure : Failure) :
    Method.Ensures (ScansRecorded agent scans none) (handleFailure agent attempt failure)
      (fun _ _ => False) fun _ => ScansRecorded agent scans none := by
  cases failure with
  | reconciliation message => exact Method.ensures_raise fun _ h => h
  | exception message =>
    refine .bind (keeps_recorded_pause _ _).ensures fun _ => .bind
      (Method.Keeps.catching ((keeps_recorded_persistFailure _).bind fun _ => Method.keeps_pure true)
        fun _ => Method.keeps_pure false).ensures fun persisted => ?_
    exact .bind (keeps_recorded_queueFailure hdistinct hscan persisted).ensures fun _ =>
      .bind (keeps_recorded_pause _ _).ensures fun _ => Method.ensures_raise fun _ h => h

/-- A call that returns has completed its scan. -/
theorem ensures_execute (hdistinct : DistinctStatuses agent scans)
    (hscan : attempt.job.scanId ∈ scans) :
    Method.Ensures (ScansRecorded agent scans none) (execute agent attempt)
      (fun _ store => ScansRecorded agent scans none store ∧
        HasStatus attempt.job.scanId "COMPLETED" store)
      fun _ => ScansRecorded agent scans none := by
  unfold execute
  split
  · exact .bind (keeps_recorded_pause _ _).ensures fun _ =>
      .bind (keeps_recorded_recordEvent _).ensures fun _ => Method.ensures_raise fun _ h => h
  · exact .catching (ensures_attemptScan hdistinct hscan _)
      (fun failure => (ensures_handleFailure hdistinct hscan failure).weaken (fun _ h => h)
        (fun _ _ h => h.elim) fun _ _ h => h) fun _ h => h

/-! ## Reconciling -/

/-- The job of a row is the one of its scan. -/
theorem readTerminal_scanId {row : JobRow} {status : OverallStatus} {id : String}
    {fields : JsonObject} (hjob : row.job = .obj fields) (hid : fields.get "scan_id" = .str id)
    (h : readTerminal agent row = some (job, status)) : job.scanId = id := by
  unfold readTerminal at h
  simp only [Option.bind_eq_bind, Option.bind_eq_some_iff, Option.some.injEq, Prod.mk.injEq] at h
  obtain ⟨fields', hfields, job', hvalid, status', -, rfl, rfl⟩ := h
  rw [hjob, jobFields, Option.some.injEq] at hfields
  subst hfields
  have hscanId := agent.validateJob_scanId _ _ hvalid
  rw [JsonObject.get, lookup_filter_keys (p := fun name => decide (name ≠ "status" ∧
    name ≠ "initiator")) "scan_id", if_pos (by decide), ← JsonObject.get, hid,
    Json.str.injEq] at hscanId
  exact hscanId.symm

/-- The rows are in the table, and where the limit cuts none off, no scan without its status is
missing among them. -/
theorem terminalScanJobs_eq_ok {limit : Int} {store : ResultStore} {rows : List (String × JobRow)}
    (h : terminalScanJobs limit store = .ok rows) :
    (∀ e ∈ rows, store.jobs.get? e.1 = some e.2) ∧
      (rows.length < limit.toNat → ∀ scanId row, store.jobs.get? scanId = some row →
        statusMissing store scanId row = true → (scanId, row) ∈ rows) := by
  unfold terminalScanJobs at h
  rw [bind_unit_eq_ok] at h
  cases h.2
  refine ⟨fun e he => ?_, fun hlimit scanId row hget hmissing => ?_⟩
  · have hmem := (List.perm_insertionSort _ _).mem_iff.mp (List.mem_of_mem_take he)
    exact Dict.mem_entries_iff.mp (List.mem_of_mem_filter hmem)
  · rw [List.length_take] at hlimit
    rw [List.take_of_length_le (by omega), (List.perm_insertionSort _ _).mem_iff]
    exact List.mem_filter.mpr ⟨Dict.mem_entries_iff.mpr hget, hmissing⟩

theorem keeps_recorded_reconcileRows (hdistinct : DistinctStatuses agent scans)
    (hids : ∀ id ∈ scans, Cloud.isIdentifier id = true) (envs : Nat → Surroundings)
    {rows : List (String × JobRow)} (hrows : ∀ e ∈ rows, e.1 ∈ scans ∧
      ∃ fields : JsonObject, e.2.job = .obj fields ∧ fields.get "scan_id" = .str e.1) :
    ∀ reconciled, Method.Keeps (ScansRecorded agent scans none)
      (reconcileRows agent envs reconciled rows) := by
  induction rows with
  | nil => exact fun _ => Method.keeps_pure _
  | cons e rows ih =>
    intro reconciled
    obtain ⟨⟨hscan, fields, hjob, hid⟩, hrows⟩ := List.forall_mem_cons.mp hrows
    rw [reconcileRows]
    split
    · exact ih hrows reconciled
    · next job status hread =>
      obtain hsame := readTerminal_scanId hjob hid hread
      exact (keeps_recorded_pause _ _).bind fun _ => (Method.keeps_reading _).bind fun _ =>
        (keeps_recorded_queueTerminalStatus hdistinct (hsame ▸ hscan) (hids _ (hsame ▸ hscan))
          (keeps_recorded_pause _) _ _).bind fun _ => ih hrows _

end

/-! ## Every run -/

section

variable {agent : Agent Bundle} {scans : List String}

/-- The scan that an attempt is made for. -/
def Event.scan? {timeText : Timestamp → String} : Event Bundle timeText → Option String
  | .attempt _ call => some call.job.scanId
  | .reconcile _ _ _ => none
  | .background _ => none

def scansOf {timeText : Timestamp → String} (events : List (Event Bundle timeText)) : List String :=
  events.filterMap Event.scan?

/-- The policies have nothing to do with the records. -/
theorem recorded_using (policies : Orchestrator Bundle) {store : ResultStore} :
    ScansRecorded (agent.using policies) scans none store ↔ ScansRecorded agent scans none store :=
  ⟨fun h => ⟨h.known, h.completed, h.rows, h.saved, h.queued, h.audited, h.inHand⟩,
    fun h => ⟨h.known, h.completed, h.rows, h.saved, h.queued, h.audited, h.inHand⟩⟩

theorem recorded_event (hdistinct : DistinctStatuses agent scans)
    (hids : ∀ id ∈ scans, Cloud.isIdentifier id = true) (store : ResultStore)
    (event : Event Bundle agent.timeText) (hscan : ∀ id ∈ event.scan?, id ∈ scans)
    (h : ScansRecorded agent scans none store) : ScansRecorded agent scans none (event.step agent store) := by
  cases event with
  | attempt policies attempt =>
    -- the digests do not depend on the policies in use
    have husing : DistinctStatuses (agent.using policies) scans := hdistinct
    have hkeeps : Method.Keeps (ScansRecorded (agent.using policies) scans none)
        (execute (agent.using policies) attempt) := Method.Ensures.keeps
      ((ensures_execute husing (hscan _ rfl)).weaken (fun _ h => h) (fun _ _ h => h.1)
        fun _ _ h => h)
    exact (recorded_using policies).mp (hkeeps store ((recorded_using policies).mpr h))
  | reconcile policies envs limit =>
    refine (recorded_using policies).mp (Method.Ensures.keeps (m := reconcileTerminalStatuses
      (agent.using policies) envs limit) ?_ store ((recorded_using policies).mpr h))
    refine .bind (S := fun rows store => ScansRecorded (agent.using policies) scans none store ∧
      ∀ e ∈ rows, store.jobs.get? e.1 = some e.2) (.lifted (Method.ensures_reading
        (fun store rows h hread => ⟨h, ?_⟩) fun _ _ h _ => h)) fun rows store h => ?_
    · exact (terminalScanJobs_eq_ok hread).1
    · have husing : DistinctStatuses (agent.using policies) scans := hdistinct
      have hkeeps : Method.Keeps (ScansRecorded (agent.using policies) scans none)
          (reconcileRows (agent.using policies) envs 0 rows) :=
        keeps_recorded_reconcileRows husing hids envs
          (fun e he => h.1.known e.1 e.2 (h.2 e he)) 0
      exact hkeeps.ensures store h.1
  | background action => exact h.background action

theorem isIdentifier_scansOf {events : List (Event Bundle agent.timeText)} {id : String}
    (h : id ∈ scansOf events) : Cloud.isIdentifier id = true := by
  obtain ⟨event, -, hscan⟩ := List.mem_filterMap.mp h
  cases event with
  | attempt policies attempt =>
    cases hscan
    exact attempt.identifier
  | reconcile policies envs limit => cases hscan
  | background action => cases hscan

/-- After every run for these scans the tables say the same about each of them. -/
theorem recorded_executed (hdistinct : DistinctStatuses agent scans)
    (hids : ∀ id ∈ scans, Cloud.isIdentifier id = true) {events : List (Event Bundle agent.timeText)}
    (hscans : ∀ event ∈ events, ∀ id ∈ event.scan?, id ∈ scans) :
    ScansRecorded agent scans none (executed agent events) :=
  Guarded.invariant (recorded_event hdistinct hids) (guarded_of_forall hscans _)
    (recorded_empty agent scans)

theorem intact_executed (events : List (Event Bundle agent.timeText)) :
    Intact (executed agent events) :=
  run_invariant (P := Intact) (keeps_event fun _ operation h => intact_step h operation) intact_empty

/-- Everything that belongs to the stored result of a scan. -/
structure Documented (agent : Agent Bundle) (store : ResultStore) (scanId : String)
    (result : ResultRow) : Prop where
  payload : ∃ payload, store.resultPayloads.get? result.payloadHash = some payload
  stored : ∃ entry ∈ store.history, entry.scanId = scanId ∧ entry.event = "RESULT_STORED"
  queued : ∃ entry ∈ store.history, entry.scanId = scanId ∧
    entry.event = "TERMINAL_STATUS_QUEUED" ∧ entry.status = some result.status
  audited : ∃ entry ∈ store.auditLog, entry.eventId = eventId agent "scan-completed" scanId

theorem ScansRecorded.documented {store : ResultStore} (h : ScansRecorded agent scans none store)
    (hintact : Intact store) {scanId : String} {result : ResultRow}
    (hresult : store.results.get? scanId = some result) : Documented agent store scanId result where
  payload := Dict.contains_iff.mp (hintact.resultPayload scanId result hresult)
  stored := h.saved scanId result hresult (by simp)
  queued := h.queued scanId result hresult (by simp)
  audited := h.audited scanId result hresult (by simp)

/--
After every run a completed scan has its result, and a stored result is documented: there is its
payload, an entry for it in the history, one for the terminal status that was queued, which is the
one of the result, and an event in the audit log. An attempt that returns has completed its scan.
-/
theorem scans_recorded {events : List (Event Bundle agent.timeText)}
    (hdistinct : DistinctStatuses agent (scansOf events)) :
    (∀ scanId, HasStatus scanId "COMPLETED" (executed agent events) →
        ∃ result, (executed agent events).results.get? scanId = some result) ∧
      (∀ scanId result, (executed agent events).results.get? scanId = some result →
        Documented agent (executed agent events) scanId result) ∧
      ∀ before policies (attempt : ScanAttempt agent.timeText) scan store',
        events = before ++ [.attempt policies attempt] →
        (execute (agent.using policies) attempt).run (executed agent before) = (.ok scan, store') →
          HasStatus attempt.job.scanId "COMPLETED" (executed agent events) := by
  have hrecorded := recorded_executed hdistinct (fun _ => isIdentifier_scansOf)
    fun event hevent id hid => List.mem_filterMap.mpr ⟨event, hevent, hid⟩
  refine ⟨fun scanId ⟨row, hrow, hstatus⟩ => Dict.contains_iff.mp
      (hrecorded.completed scanId row hrow hstatus),
    fun scanId result hresult => hrecorded.documented (intact_executed events) hresult, ?_⟩
  rintro before policies attempt scan store' rfl hrun
  have hmem : attempt.job.scanId ∈ scansOf (before ++ [Event.attempt policies attempt]) :=
    List.mem_filterMap.mpr ⟨.attempt policies attempt, by simp, rfl⟩
  have hbefore := recorded_executed hdistinct (fun _ => isIdentifier_scansOf)
    fun event hevent id hid => List.mem_filterMap.mpr ⟨event, List.mem_append_left _ hevent, hid⟩
  have husing : DistinctStatuses (agent.using policies)
      (scansOf (before ++ [Event.attempt policies attempt])) := hdistinct
  have hcompleted := ((ensures_execute husing hmem).returns ((recorded_using policies).mpr hbefore)
    hrun).2
  rw [executed, runFrom_append, runFrom_cons, runFrom_nil]
  show HasStatus attempt.job.scanId "COMPLETED"
    ((execute (agent.using policies) attempt).run (executed agent before)).2
  rw [hrun]
  exact hcompleted

end

/-! ### A process that dies while its scan is being completed -/

/-- A result of a scan of the attack surface, as short as it can be. -/
def surfaceScan : FinishedScan where
  result :=
    { scanId := "scan-1"
      endpointId := none
      scanType := .attackSurface
      timestamp := 0
      status := .success }
  document := [("scan_id", .str "scan-1"), ("status", .str "SUCCESS")]
  status_eq := rfl

/-- No job can be read back. -/
theorem validateNothing_scanId (fields : JsonObject) (job : ScanJob)
    (h : (none : Option ScanJob) = some job) : fields.get "scan_id" = .str job.scanId := by
  cases h

def surfaceAgent : Agent Unit where
  rt := Runtime.sample
  text := sampleSbomText
  pyStr _ := ""
  timeText _ := "now"
  parseTime _ := none
  safe text := text
  validate _ := .ok surfaceScan
  validateJob _ := none
  validateJob_scanId := validateNothing_scanId
  lib :=
    { policyId := fun _ => "enterprise-default"
      policyVersion := fun _ => "1"
      document := fun _ => [] }
  orchestrator := { policy := (), policies := ∅ }
  maxRequestBytes := 100000
  scanSubmitPath := "/scans"
  scanStatusPath := "/status"

theorem isIdentifier_surfaceJob : Cloud.isIdentifier (surfaceJob {"example.org"}).scanId = true := by
  decide

theorem enumerates_surfaceJob : Enumerates ["example.org"] {"example.org"} :=
  ⟨List.nodup_singleton _, by simp⟩

/-- An attempt that something may interrupt. -/
def surfaceAttempt (outcome : Stage → Method.Outcome String) : ScanAttempt surfaceAgent.timeText where
  job := surfaceJob {"example.org"}
  identifier := isIdentifier_surfaceJob
  dump := surfaceDump ["example.org"]
  dumps := dumps_surfaceJob enumerates_surfaceJob
  attemptedAt := 0
  finishedAt := 0
  failedAt := 0
  collected _ := .ok surfaceScan
  outcome := outcome
  uuid _ := "uuid"
  now _ := "2024-01-01"

/-- The process dies before the completion is recorded, and the scan is attempted again. -/
def interruptedRun : List (Event Unit surfaceAgent.timeText) :=
  [.attempt surfaceAgent.orchestrator
      (surfaceAttempt fun stage => if stage = .completionAudit then .dies else .passes),
    .attempt surfaceAgent.orchestrator (surfaceAttempt fun _ => .passes)]

/-- There is but one scan. -/
theorem distinct_interruptedRun : DistinctStatuses surfaceAgent (scansOf interruptedRun) := by
  have hsame : ∀ id ∈ scansOf interruptedRun, id = "scan-1" := by
    intro id hid
    have hscans : scansOf interruptedRun = ["scan-1", "scan-1"] := rfl
    rw [hscans, List.mem_cons, List.mem_singleton] at hid
    exact hid.elim (fun h => h) fun h => h
  exact fun id hid id' hid' _ _ _ => (hsame id hid).trans (hsame id' hid').symm

theorem scans_recorded_interruptedRun :
    (HasStatus "scan-1" "COMPLETED" (executed surfaceAgent interruptedRun) →
        ∃ result, (executed surfaceAgent interruptedRun).results.get? "scan-1" = some result) ∧
      ∀ result, (executed surfaceAgent interruptedRun).results.get? "scan-1" = some result →
        Documented surfaceAgent (executed surfaceAgent interruptedRun) "scan-1" result := by
  have hrecorded := scans_recorded distinct_interruptedRun
  exact ⟨hrecorded.1 "scan-1", hrecorded.2.1 "scan-1"⟩

end OsScanner.Endpoint

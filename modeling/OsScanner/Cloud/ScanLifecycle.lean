import Mathlib
import OsScanner.Cloud.Calls

/-!
# The life of a scan record

A scan is queued, dispatched, analyzed and completed; it may be rejected or expire before it is
analyzed. Six methods write the state of a record, and two of them do not look at it first: a
rejection is recorded on any record, and a failed normalization completes any record that has
no report. The results below hold of the runs in which these two are called on records that
are not over yet; `scan_lifecycle_expired_rejected` is a run in which one is not.
-/

namespace OsScanner.Cloud

open Lib

/-! ## States that a scan does not leave -/

/-- A scan that is over. -/
def ScanState.isAbsorbing : ScanState → Bool
  | .rejected | .expired | .complete => true
  | .queued | .dispatched | .analyzing => false

/-- Both tasks of a scan exist, and none of its tasks is still to run. -/
structure TasksEnded (repo : InMemoryRepository) (scanId : String) : Prop where
  osv : ∃ task ∈ repo.tasks.values, task.scanId = scanId ∧ task.kind = .osv
  depscan : ∃ task ∈ repo.tasks.values, task.scanId = scanId ∧ task.kind = .depscan
  ended : ∀ task ∈ repo.tasks.values, task.scanId = scanId → task.state.isTerminal = true

/-! ## The condition -/

/-- A rejection that takes effect names no scan that is expired or complete. -/
def LawfulRejection (repo : InMemoryRepository) (principal : DevicePrincipal)
    (payload : ScanRejectionUpload) (key : String) : Prop :=
  ∀ record, repo.idempotency.get?
      ⟨principal.tenantId, rejectionOperation payload.documentSha256, key⟩ = none →
    rejectedScan principal payload repo = .ok (some record) →
    record.state ≠ .expired ∧ record.state ≠ .complete

/-- A final report that is written is written to a scan that is neither rejected nor expired. -/
def LawfulReport (repo : InMemoryRepository) (scanId : String) : Prop :=
  ∀ record, repo.scans.get? scanId = some record → record.finalReport = none →
    tasksTerminal (taskStates repo scanId) = true →
    record.state ≠ .rejected ∧ record.state ≠ .expired

/-- The same for the report of a failed normalization, which also waits for both tasks. -/
def LawfulFailureReport (repo : InMemoryRepository) (scanId : String) : Prop :=
  ∀ record, repo.scans.get? scanId = some record → record.finalReport = none →
    tasksTerminal (taskStates repo scanId) = true ∧
      record.state ≠ .rejected ∧ record.state ≠ .expired

/-- The step does not end a scan that is over, and completes none before its tasks have ended. -/
def LawfulEnd (repo : InMemoryRepository) : Call → Prop
  | .scan (.recordRejection principal payload key _ _ _) =>
    LawfulRejection repo principal payload key
  | .scan (.finalizeScanReport scanId _ _ _) => LawfulReport repo scanId
  | .scan (.finalizeScanReportFailure scanId _ _ _ _) => LawfulFailureReport repo scanId
  | _ => True

/-! ## What one step does to the scans and their tasks -/

/-- A record that is written again, but not with a final report. -/
structure Updates (record record' : ScanRecord) : Prop where
  scanId : record'.scanId = record.scanId
  upload : record.upload ≠ none → record'.upload ≠ none
  absorbing : record.state.isAbsorbing = true → record'.state = record.state
  finalReport : record'.finalReport = record.finalReport
  complete : record'.state = .complete ↔ record.state = .complete

theorem Updates.refl (record : ScanRecord) : Updates record record :=
  ⟨rfl, id, fun _ => rfl, rfl, Iff.rfl⟩

theorem updates_all {scans scans' : Dict String ScanRecord}
    (h : scans' = scans) (k : String) : Option.Rel Updates (scans.get? k) (scans'.get? k) := by
  rw [h]
  cases scans.get? k with
  | none => exact .none
  | some record => exact .some (.refl record)

theorem updates_set {scans scans' : Dict String ScanRecord} {scanId : String}
    {record record' : ScanRecord} (hfound : scans.get? scanId = some record)
    (h : scans' = scans.set scanId record') (hu : Updates record record') (k : String) :
    Option.Rel Updates (scans.get? k) (scans'.get? k) := by
  rw [h, Dict.get?_set]
  by_cases hk : scanId = k
  · subst hk
    rw [if_pos rfl, hfound]
    exact .some hu
  · rw [if_neg hk]
    exact updates_all rfl k

theorem updates_back {scans scans' : Dict String ScanRecord}
    (h : ∀ k, Option.Rel Updates (scans.get? k) (scans'.get? k)) {k : String}
    {record' : ScanRecord} (hk : scans'.get? k = some record') :
    ∃ record, scans.get? k = some record ∧ Updates record record' := by
  have hrel := h k
  rw [hk] at hrel
  cases hrecord : scans.get? k with
  | none => rw [hrecord] at hrel; cases hrel
  | some record =>
    rw [hrecord] at hrel
    cases hrel with
    | some hu => exact ⟨record, rfl, hu⟩

theorem updates_forth {scans scans' : Dict String ScanRecord}
    (h : ∀ k, Option.Rel Updates (scans.get? k) (scans'.get? k)) {k : String}
    {record : ScanRecord} (hk : scans.get? k = some record) :
    ∃ record', scans'.get? k = some record' ∧ Updates record record' := by
  have hrel := h k
  rw [hk] at hrel
  cases hrecord : scans'.get? k with
  | none => rw [hrecord] at hrel; cases hrel
  | some record' =>
    rw [hrecord] at hrel
    cases hrel with
    | some hu => exact ⟨record', rfl, hu⟩

/-- What a step can do. -/
inductive Transition (repo repo' : InMemoryRepository) : Prop where
  | update (scans : ∀ k, Option.Rel Updates (repo.scans.get? k) (repo'.scans.get? k))
      (tasks : repo'.tasks = repo.tasks)
  | create (record : ScanRecord) (fresh : repo.scans.get? record.scanId = none)
      (queued : record.state = .queued) (noReport : record.finalReport = none)
      (scans : repo'.scans = repo.scans.set record.scanId record)
      (tasks : repo'.tasks = repo.tasks)
  | ingest (scanId : String) (osvTask depscanTask : AnalysisTask)
      (first : ∃ record, repo.scans.get? scanId = some record ∧ record.upload = none ∧
        record.state = .dispatched)
      (accepted : ∃ record, repo'.scans.get? scanId = some record ∧ record.upload ≠ none)
      (scans : ∀ k, Option.Rel Updates (repo.scans.get? k) (repo'.scans.get? k))
      (osv : osvTask.scanId = scanId ∧ osvTask.kind = .osv)
      (depscan : depscanTask.scanId = scanId ∧ depscanTask.kind = .depscan)
      (fresh : repo.tasks.get? osvTask.taskId = none ∧ repo.tasks.get? depscanTask.taskId = none)
      (tasks : repo'.tasks =
        (repo.tasks.set osvTask.taskId osvTask).set depscanTask.taskId depscanTask)
  | work (taskId : String) (task task' : AnalysisTask)
      (scans : repo'.scans = repo.scans) (tasks : repo'.tasks = repo.tasks.set taskId task')
      (found : repo.tasks.get? taskId = some task) (runs : task.state.isTerminal = false)
      (same : task'.taskId = task.taskId ∧ task'.scanId = task.scanId ∧ task'.kind = task.kind)
  | finalize (scanId : String) (record : ScanRecord) (report : JsonObject) (now : Timestamp)
      (found : repo.scans.get? scanId = some record) (noReport : record.finalReport = none)
      (terminal : tasksTerminal (taskStates repo scanId) = true)
      (notOver : record.state ≠ .rejected ∧ record.state ≠ .expired)
      (scans : repo'.scans = repo.scans.set scanId (completedRecord report now record))
      (tasks : repo'.tasks = repo.tasks)

theorem Transition.same {repo repo' : InMemoryRepository} (hscans : repo'.scans = repo.scans)
    (htasks : repo'.tasks = repo.tasks) : Transition repo repo' :=
  .update (updates_all hscans) htasks

/-- Identity calls write neither scans nor tasks. -/
theorem IdentityCall.transition (rt : Runtime) (repo : InMemoryRepository) (call : IdentityCall) :
    Transition repo (call.step rt repo) := by
  cases call with
  | createEnrollmentGrant =>
    rcases createEnrollmentGrant_effect (Prod.mk.eta).symm with
      ⟨h, -⟩ | ⟨-, -, -, _, h⟩ <;> rw [IdentityCall.step, h] <;> exact .same rfl rfl
  | enrollEndpoint =>
    rcases enrollEndpoint_effect (Prod.mk.eta).symm with
      ⟨h, -⟩ | ⟨_, -, -, -, -, -, _, h⟩ <;> rw [IdentityCall.step, h] <;> exact .same rfl rfl
  | rotateCredential =>
    rcases rotateCredential_effect (Prod.mk.eta).symm with
      ⟨h, -⟩ | ⟨_, _, _, -, -, -, _, h⟩ <;> rw [IdentityCall.step, h] <;> exact .same rfl rfl

theorem checkTasks_eq_ok {principal : DevicePrincipal} {scanId : String}
    {tasks : List AnalysisTask} {repo : InMemoryRepository}
    (h : checkTasks principal scanId tasks repo = .ok ()) :
    ∀ task ∈ tasks, task.scanId = scanId ∧ repo.tasks.get? task.taskId = none := by
  induction tasks with
  | nil => simp
  | cons task tasks ih =>
    change ((raiseIf _ _ _ >>= fun _ => raiseIf _ _ _) >>= fun _ =>
      checkTasks principal scanId tasks repo) = .ok () at h
    rw [Check.bind_unit_eq_ok, Check.bind_unit_eq_ok, raiseIf_eq_ok,
      raiseIf_eq_ok, not_or, not_not, Bool.not_eq_true, Dict.contains_eq_false] at h
    exact List.forall_mem_cons.mpr ⟨⟨h.1.1.1, h.1.2⟩, ih h.2⟩

theorem updates_pollRecord {rt : Runtime} {principal : DevicePrincipal} {now : Timestamp}
    {repo : InMemoryRepository} (record : ScanRecord) :
    Updates record (pollRecord rt principal now repo record) := by
  have hcandidate : ∀ {p : ScanRecord → Bool}, p record = true →
      (∀ r, p r = true → isDispatchCandidate principal r) →
      record.state.isAbsorbing = false ∧ record.state ≠ .complete := by
    intro p hp himp
    rcases (himp record hp).2.2 with hs | hs <;> rw [hs] <;> exact ⟨rfl, by decide⟩
  have hout : ∀ r, handsOut rt principal now r = true → isDispatchCandidate principal r := by
    intro r h
    rw [handsOut, Bool.and_eq_true, decide_eq_true_eq] at h
    exact h.1
  have hexp : ∀ r, expires rt principal now r = true → isDispatchCandidate principal r := by
    intro r h
    rw [expires, Bool.and_eq_true, decide_eq_true_eq] at h
    exact h.1
  unfold pollRecord
  split
  · rename_i hfind
    obtain ⟨habs, hne⟩ := hcandidate (List.find?_some hfind) hout
    exact ⟨rfl, id, fun h => absurd (habs ▸ h) (by decide), rfl, by simp [dispatchedRecord, hne]⟩
  · split
    · rename_i hmem
      obtain ⟨habs, hne⟩ := hcandidate (List.mem_filter.mp hmem).2 hexp
      exact ⟨rfl, id, fun h => absurd (habs ▸ h) (by decide), rfl, by simp [expiredRecord, hne]⟩
    · exact .refl record

theorem isClaimable_runs {kind : TaskKind} {now : Timestamp} {task : AnalysisTask}
    (h : isClaimable kind now task = true) : task.state.isTerminal = false := by
  simp only [isClaimable, Bool.and_eq_true, Bool.or_eq_true, decide_eq_true_eq] at h
  rcases h.2 with (hs | hs) | ⟨hs, -⟩ <;> rw [hs] <;> rfl

/-- Every task is kept under its own identifier. -/
def TaskKeys (tasks : Dict String AnalysisTask) : Prop :=
  ∀ k task, tasks.get? k = some task → task.taskId = k

theorem ScanCall.transition {rt : Runtime} {repo : InMemoryRepository} {call : ScanCall}
    (hkeys : ScanKeys repo.scans) (htasks : TaskKeys repo.tasks)
    (hlawful : LawfulEnd repo (.scan call)) : Transition repo (call.step rt repo) := by
  cases call with
  | createScanJob tenantId endpointId scanId jobId job now =>
    rcases createScanJob_effect (Prod.mk.eta).symm with
      ⟨h, -⟩ | ⟨-, -, hfresh, -, _, h⟩ <;> rw [ScanCall.step, h]
    · exact .same rfl rfl
    · exact .create (newScan tenantId endpointId scanId jobId job now) hfresh rfl rfl rfl rfl
  | claimNextJob principal now =>
    obtain ⟨⟨_, h⟩, -⟩ := claimNextJob_effect (Prod.mk.eta).symm
    rw [ScanCall.step, h]
    refine .update (fun k => ?_) (touchEndpoint_frame principal now repo).2.2.1
    simp only [get?_polledScans hkeys]
    cases repo.scans.get? k with
    | none => exact .none
    | some record => exact .some (updates_pollRecord record)
  | ingestScan principal scanId upload key digest osvTaskId depscanTaskId submittedAt now =>
    rcases ingestScan_effect (Prod.mk.eta).symm with
      ⟨h, -⟩ | ⟨record, reconstruction, -, source, -, _, h⟩ <;> rw [ScanCall.step, h]
    · exact .same rfl rfl
    · have hdispatched := validateScanUpload_dispatched source.valid
      have hchecked := checkTasks_eq_ok source.tasks
      have hupdates : Updates record (acceptedRecord upload reconstruction now record) :=
        ⟨rfl, fun _ => by simp [acceptedRecord], fun h => by simp [hdispatched, ScanState.isAbsorbing] at h,
          rfl, by simp [acceptedRecord, hdispatched]⟩
      refine .ingest scanId (newTask principal scanId osvTaskId .osv submittedAt)
        (newTask principal scanId depscanTaskId .depscan submittedAt)
        ⟨record, source.found, source.first, hdispatched⟩ ⟨_, Dict.get?_set_self _ _ _, ?_⟩
        (updates_set source.found rfl hupdates) ⟨rfl, rfl⟩ ⟨rfl, rfl⟩
        ⟨(hchecked _ (by simp [analysisTasks])).2, (hchecked _ (by simp [analysisTasks])).2⟩ rfl
      simp [acceptedRecord]
  | recordScanStatus =>
    rcases recordScanStatus_effect (Prod.mk.eta).symm with
      ⟨h, -⟩ | ⟨record, -, ⟨hfound, -⟩, -, -, _, h⟩ <;> rw [ScanCall.step, h]
    · exact .same rfl rfl
    · exact .update (updates_set hfound rfl ⟨rfl, id, fun _ => rfl, rfl, Iff.rfl⟩) rfl
  | recordRejection principal payload key digest now =>
    rcases recordRejection_effect (Prod.mk.eta).symm with
      ⟨h, -⟩ | ⟨_ | record, hnone, hrecord, -, _, h⟩ <;> rw [ScanCall.step, h]
    · exact .same rfl rfl
    · exact .same rfl rfl
    · obtain ⟨hexpired, hcomplete⟩ := hlawful record hnone hrecord
      refine .update (updates_set (rejectedScan_eq_some hrecord).1 rfl
        ⟨rfl, id, fun habs => ?_, rfl, by simp [hcomplete]⟩) rfl
      cases hs : record.state <;> simp_all [ScanState.isAbsorbing]
  | claimAnalysisTask =>
    rcases claimAnalysisTask_effect (Prod.mk.eta).symm with
      ⟨h, -⟩ | ⟨task, claimed, hmem, hclaim, rfl, -, h⟩ <;> rw [ScanCall.step, h]
    · exact .same rfl rfl
    · obtain ⟨k, hk⟩ := Dict.mem_values_iff.mp hmem
      exact .work task.taskId task _ rfl rfl ((htasks _ _ hk).symm ▸ hk) (isClaimable_runs hclaim)
        ⟨rfl, rfl, rfl⟩
  | completeAnalysisTask taskId =>
    rcases completeAnalysisTask_effect (Prod.mk.eta).symm with
      ⟨h, -⟩ | ⟨task, ⟨hfound, hruns, -⟩, -, h⟩ <;> rw [ScanCall.step, h]
    · exact .same rfl rfl
    · exact .work taskId task _ rfl rfl hfound (by rw [hruns]; rfl) ⟨rfl, rfl, rfl⟩
  | failAnalysisTask taskId =>
    rcases failAnalysisTask_effect (Prod.mk.eta).symm with
      ⟨h, -⟩ | ⟨task, ⟨hfound, hruns, -⟩, -, h⟩ <;> rw [ScanCall.step, h]
    · exact .same rfl rfl
    · exact .work taskId task _ rfl rfl hfound (by rw [hruns]; rfl) ⟨rfl, rfl, rfl⟩
  | finalizeScanReport scanId report now =>
    rcases finalizeScanReport_effect (Prod.mk.eta).symm with
      h | ⟨record, hfound, hnone, hterminal, -, _, h⟩ <;> rw [ScanCall.step, h]
    · exact .same rfl rfl
    · exact .finalize scanId record report now hfound hnone hterminal
        (hlawful record hfound hnone hterminal) rfl rfl
  | finalizeScanReportFailure scanId error completedAt now =>
    rcases finalizeScanReportFailure_effect (Prod.mk.eta).symm with
      h | ⟨record, hfound, hnone, -, _, h⟩ <;> rw [ScanCall.step, h]
    · exact .same rfl rfl
    · obtain ⟨hterminal, hnotOver⟩ := hlawful record hfound hnone
      exact .finalize scanId record _ now hfound hnone hterminal hnotOver rfl rfl

/-! ## The invariant -/

structure ScanInvariant (repo : InMemoryRepository) : Prop where
  scanKeys : ScanKeys repo.scans
  taskKeys : TaskKeys repo.tasks
  taskScan : ∀ {k task}, repo.tasks.get? k = some task →
    ∃ record, repo.scans.get? task.scanId = some record ∧ record.upload ≠ none
  oneKind : ∀ {k k' task task'}, repo.tasks.get? k = some task →
    repo.tasks.get? k' = some task' → task.scanId = task'.scanId → task.kind = task'.kind → k = k'
  report : ∀ {k record}, repo.scans.get? k = some record →
    (record.finalReport ≠ none ↔ record.state = .complete)
  ended : ∀ {k record}, repo.scans.get? k = some record → record.state = .complete →
    TasksEnded repo k

theorem scanInvariant_empty : ScanInvariant {} := by
  constructor <;> (try intro) <;> intros <;> simp_all

/-- The tasks of the scan are the same. -/
theorem TasksEnded.congr {repo repo' : InMemoryRepository} {scanId : String}
    (h : ∀ task, task.scanId = scanId →
      (task ∈ repo'.tasks.values ↔ task ∈ repo.tasks.values))
    (hended : TasksEnded repo scanId) : TasksEnded repo' scanId := by
  obtain ⟨⟨osv, hosv, hosvScan, hosvKind⟩, ⟨dep, hdep, hdepScan, hdepKind⟩, hall⟩ := hended
  exact ⟨⟨osv, (h osv hosvScan).mpr hosv, hosvScan, hosvKind⟩,
    ⟨dep, (h dep hdepScan).mpr hdep, hdepScan, hdepKind⟩,
    fun task hmem hscan => hall task ((h task hscan).mp hmem) hscan⟩

/-- What `task_states` says of a scan is true of each of its tasks. -/
theorem ScanInvariant.tasksEnded {repo : InMemoryRepository} (hinv : ScanInvariant repo)
    {scanId : String} (h : tasksTerminal (taskStates repo scanId) = true) :
    TasksEnded repo scanId := by
  have hsingle : ∀ t t', t ∈ repo.tasks.values → t' ∈ repo.tasks.values →
      t.scanId = t'.scanId → t.kind = t'.kind → t = t' := by
    intro t t' ht ht' hscan hkind
    obtain ⟨k, hk⟩ := Dict.mem_values_iff.mp ht
    obtain ⟨k', hk'⟩ := Dict.mem_values_iff.mp ht'
    rw [hinv.oneKind hk hk' hscan hkind, hk', Option.some.injEq] at hk
    exact hk.symm
  have hmine : ∀ t, t ∈ repo.tasks.values.filter (fun task => decide (task.scanId = scanId)) ↔
      t ∈ repo.tasks.values ∧ t.scanId = scanId := by
    intro t
    rw [List.mem_filter, decide_eq_true_eq]
  have hnodup : ((repo.tasks.values.filter fun task => decide (task.scanId = scanId)).map
      AnalysisTask.kind).Nodup := by
    have hvalues := (Dict.nodup_map_values hinv.taskKeys).of_map
    refine (hvalues.filter _).map_on fun t ht t' ht' hkind => ?_
    rw [hmine] at ht ht'
    exact hsingle t t' ht.1 ht'.1 (ht.2.trans ht'.2.symm) hkind
  have hkind : ∀ kind, (taskStates repo scanId).contains kind = true →
      ∃ t ∈ repo.tasks.values, t.scanId = scanId ∧ t.kind = kind := by
    intro kind hcontains
    by_contra hnone
    obtain ⟨state, hstate⟩ := Dict.contains_iff.mp hcontains
    have hget : (taskStates repo scanId).get? kind = (∅ : Dict TaskKind TaskState).get? kind :=
      Dict.get?_setAll_not_mem (fun t ht hk => hnone
        ⟨t, ((hmine t).mp ht).1, ((hmine t).mp ht).2, hk⟩) ∅
    rw [hstate] at hget
    cases hget
  simp only [tasksTerminal, Bool.and_eq_true, List.all_eq_true] at h
  refine ⟨hkind .osv h.1.1, hkind .depscan h.1.2, fun t ht hscan => h.2 t.state ?_⟩
  exact Dict.mem_values_of_get?
    (Dict.get?_setAll_mem hnodup ((hmine t).mpr ⟨ht, hscan⟩) (∅ : Dict TaskKind TaskState))

/-- Writing records again keeps what the invariant says of the scans. -/
theorem ScanInvariant.updates {repo repo' : InMemoryRepository} (hinv : ScanInvariant repo)
    (hscans : ∀ k, Option.Rel Updates (repo.scans.get? k) (repo'.scans.get? k)) :
    ScanKeys repo'.scans ∧
      (∀ {k record}, repo'.scans.get? k = some record →
        (record.finalReport ≠ none ↔ record.state = .complete)) := by
  refine ⟨fun k record' hk => ?_, fun {k record'} hk => ?_⟩
  · obtain ⟨record, hrecord, hu⟩ := updates_back hscans hk
    exact hu.scanId.trans (hinv.scanKeys _ _ hrecord)
  · obtain ⟨record, hrecord, hu⟩ := updates_back hscans hk
    rw [hu.finalReport, hu.complete]
    exact hinv.report hrecord

theorem ScanInvariant.transition_update {repo repo' : InMemoryRepository}
    (hinv : ScanInvariant repo)
    (hscans : ∀ k, Option.Rel Updates (repo.scans.get? k) (repo'.scans.get? k))
    (htasks : repo'.tasks = repo.tasks) : ScanInvariant repo' := by
  obtain ⟨hkeys, hreport⟩ := hinv.updates hscans
  refine ⟨hkeys, ?_, ?_, ?_, hreport, ?_⟩
  · rw [htasks]
    exact hinv.taskKeys
  · intro k task hk
    rw [htasks] at hk
    obtain ⟨record, hrecord, hupload⟩ := hinv.taskScan hk
    obtain ⟨record', hrecord', hu⟩ := updates_forth hscans hrecord
    exact ⟨record', hrecord', hu.upload hupload⟩
  · rw [htasks]
    exact hinv.oneKind
  · intro k record' hk hcomplete
    obtain ⟨record, hrecord, hu⟩ := updates_back hscans hk
    exact (hinv.ended hrecord (hu.complete.mp hcomplete)).congr fun _ _ => by rw [htasks]

theorem ScanInvariant.transition_create {repo repo' : InMemoryRepository} {record : ScanRecord}
    (hinv : ScanInvariant repo) (hfresh : repo.scans.get? record.scanId = none)
    (hqueued : record.state = .queued) (hnone : record.finalReport = none)
    (hscans : repo'.scans = repo.scans.set record.scanId record)
    (htasks : repo'.tasks = repo.tasks) : ScanInvariant repo' := by
  have hback : ∀ {k r}, repo'.scans.get? k = some r →
      (k = record.scanId ∧ r = record) ∨ repo.scans.get? k = some r := by
    intro k r hk
    rw [hscans, Dict.get?_set] at hk
    by_cases h : record.scanId = k
    · rw [if_pos h, Option.some.injEq] at hk
      exact Or.inl ⟨h.symm, hk.symm⟩
    · rw [if_neg h] at hk
      exact Or.inr hk
  refine ⟨fun _ _ hk => ?_, ?_, fun hk => ?_, ?_, fun hk => ?_, fun hk hcomplete => ?_⟩
  · rcases hback hk with ⟨rfl, rfl⟩ | hk
    · rfl
    · exact hinv.scanKeys _ _ hk
  · rw [htasks]
    exact hinv.taskKeys
  · rw [htasks] at hk
    obtain ⟨r, hr, hupload⟩ := hinv.taskScan hk
    refine ⟨r, ?_, hupload⟩
    rw [hscans, Dict.get?_set_ne, hr]
    intro h
    rw [h, hr] at hfresh
    cases hfresh
  · rw [htasks]
    exact hinv.oneKind
  · rcases hback hk with ⟨rfl, rfl⟩ | hk
    · simp [hnone, hqueued]
    · exact hinv.report hk
  · rcases hback hk with ⟨rfl, rfl⟩ | hk
    · rw [hqueued] at hcomplete
      cases hcomplete
    · exact (hinv.ended hk hcomplete).congr fun _ _ => by rw [htasks]

theorem ScanInvariant.transition_ingest {repo repo' : InMemoryRepository} {scanId : String}
    {osvTask depscanTask : AnalysisTask} (hinv : ScanInvariant repo)
    (hfirst : ∃ record, repo.scans.get? scanId = some record ∧ record.upload = none ∧
      record.state = .dispatched)
    (haccepted : ∃ record, repo'.scans.get? scanId = some record ∧ record.upload ≠ none)
    (hscans : ∀ k, Option.Rel Updates (repo.scans.get? k) (repo'.scans.get? k))
    (hosv : osvTask.scanId = scanId ∧ osvTask.kind = .osv)
    (hdepscan : depscanTask.scanId = scanId ∧ depscanTask.kind = .depscan)
    (hfresh : repo.tasks.get? osvTask.taskId = none ∧ repo.tasks.get? depscanTask.taskId = none)
    (htasks : repo'.tasks =
      (repo.tasks.set osvTask.taskId osvTask).set depscanTask.taskId depscanTask) :
    ScanInvariant repo' := by
  obtain ⟨hkeys, hreport⟩ := hinv.updates hscans
  obtain ⟨first, hfound, hnoUpload, hdispatched⟩ := hfirst
  have hback : ∀ {k t}, repo'.tasks.get? k = some t →
      (k = depscanTask.taskId ∧ t = depscanTask) ∨ (k = osvTask.taskId ∧ t = osvTask) ∨
        repo.tasks.get? k = some t := by
    intro k t hk
    rw [htasks, Dict.get?_set, Dict.get?_set] at hk
    by_cases h₁ : depscanTask.taskId = k
    · rw [if_pos h₁, Option.some.injEq] at hk
      exact Or.inl ⟨h₁.symm, hk.symm⟩
    · rw [if_neg h₁] at hk
      by_cases h₂ : osvTask.taskId = k
      · rw [if_pos h₂, Option.some.injEq] at hk
        exact Or.inr (Or.inl ⟨h₂.symm, hk.symm⟩)
      · rw [if_neg h₂] at hk
        exact Or.inr (Or.inr hk)
  have hforth : ∀ {k t}, repo.tasks.get? k = some t → repo'.tasks.get? k = some t := by
    intro k t hk
    rw [htasks, Dict.get?_set_ne, Dict.get?_set_ne, hk]
    · exact fun h => by rw [h, hk] at hfresh; cases hfresh.1
    · exact fun h => by rw [h, hk] at hfresh; cases hfresh.2
  -- Evidence is accepted once, so the scan had no tasks before.
  have hother : ∀ {k t}, repo.tasks.get? k = some t → t.scanId ≠ scanId := by
    intro k t hk h
    obtain ⟨record, hrecord, hupload⟩ := hinv.taskScan hk
    rw [h, hfound, Option.some.injEq] at hrecord
    exact hupload (hrecord ▸ hnoUpload)
  refine ⟨hkeys, fun k t hk => ?_, fun {k t} hk => ?_, fun {k k' t t'} hk hk' hs hkind => ?_,
    hreport, fun {k record'} hk hcomplete => ?_⟩
  · rcases hback hk with ⟨rfl, rfl⟩ | ⟨rfl, rfl⟩ | hk
    · rfl
    · rfl
    · exact hinv.taskKeys _ _ hk
  · rcases hback hk with ⟨rfl, rfl⟩ | ⟨rfl, rfl⟩ | hk
    · rw [hdepscan.1]
      exact haccepted
    · rw [hosv.1]
      exact haccepted
    · obtain ⟨record, hrecord, hupload⟩ := hinv.taskScan hk
      obtain ⟨record', hrecord', hu⟩ := updates_forth hscans hrecord
      exact ⟨record', hrecord', hu.upload hupload⟩
  · rcases hback hk with ⟨rfl, rfl⟩ | ⟨rfl, rfl⟩ | hk <;>
      rcases hback hk' with ⟨rfl, rfl⟩ | ⟨rfl, rfl⟩ | hk'
    · rfl
    · rw [hdepscan.2, hosv.2] at hkind
      cases hkind
    · exact absurd (hs.symm.trans hdepscan.1) (hother hk')
    · rw [hdepscan.2, hosv.2] at hkind
      cases hkind
    · rfl
    · exact absurd (hs.symm.trans hosv.1) (hother hk')
    · exact absurd (hs.trans hdepscan.1) (hother hk)
    · exact absurd (hs.trans hosv.1) (hother hk)
    · exact hinv.oneKind hk hk' hs hkind
  · obtain ⟨record, hrecord, hu⟩ := updates_back hscans hk
    have hcomplete' := hu.complete.mp hcomplete
    have hne : k ≠ scanId := by
      rintro rfl
      rw [hfound, Option.some.injEq] at hrecord
      rw [← hrecord, hdispatched] at hcomplete'
      cases hcomplete'
    refine (hinv.ended hrecord hcomplete').congr fun t ht => ?_
    rw [Dict.mem_values_iff, Dict.mem_values_iff]
    constructor
    · rintro ⟨id, hid⟩
      rcases hback hid with ⟨rfl, rfl⟩ | ⟨rfl, rfl⟩ | hid
      · exact absurd (ht.symm.trans hdepscan.1) hne
      · exact absurd (ht.symm.trans hosv.1) hne
      · exact ⟨id, hid⟩
    · rintro ⟨id, hid⟩
      exact ⟨id, hforth hid⟩

theorem ScanInvariant.transition_work {repo repo' : InMemoryRepository} {taskId : String}
    {task task' : AnalysisTask} (hinv : ScanInvariant repo)
    (hscans : repo'.scans = repo.scans) (htasks : repo'.tasks = repo.tasks.set taskId task')
    (hfound : repo.tasks.get? taskId = some task) (hruns : task.state.isTerminal = false)
    (hsame : task'.taskId = task.taskId ∧ task'.scanId = task.scanId ∧ task'.kind = task.kind) :
    ScanInvariant repo' := by
  have hback : ∀ {k t}, repo'.tasks.get? k = some t → ∃ t₀, repo.tasks.get? k = some t₀ ∧
      t.taskId = t₀.taskId ∧ t.scanId = t₀.scanId ∧ t.kind = t₀.kind ∧
      (t = t₀ ∨ t₀ = task ∧ k = taskId) := by
    intro k t hk
    rw [htasks, Dict.get?_set] at hk
    by_cases h : taskId = k
    · subst h
      rw [if_pos rfl, Option.some.injEq] at hk
      exact ⟨task, hfound, hk ▸ hsame.1, hk ▸ hsame.2.1, hk ▸ hsame.2.2, Or.inr ⟨rfl, rfl⟩⟩
    · rw [if_neg h] at hk
      exact ⟨t, hk, rfl, rfl, rfl, Or.inl rfl⟩
  refine ⟨hscans ▸ hinv.scanKeys, fun _ _ hk => ?_, fun hk => ?_, fun hk hk' hs hkind => ?_,
    fun hk => ?_, fun {k record} hk hcomplete => ?_⟩
  · obtain ⟨t₀, h₀, hid, -⟩ := hback hk
    exact hid.trans (hinv.taskKeys _ _ h₀)
  · obtain ⟨t₀, h₀, -, hscan, -⟩ := hback hk
    rw [hscans, hscan]
    exact hinv.taskScan h₀
  · obtain ⟨t₀, h₀, -, hscan, hkind₀, -⟩ := hback hk
    obtain ⟨t₁, h₁, -, hscan', hkind₁, -⟩ := hback hk'
    exact hinv.oneKind h₀ h₁ (hscan ▸ hscan' ▸ hs) (hkind₀ ▸ hkind₁ ▸ hkind)
  · rw [hscans] at hk
    exact hinv.report hk
  · rw [hscans] at hk
    have hended := hinv.ended hk hcomplete
    have hne : task.scanId ≠ k := by
      intro h
      have hterminal := hended.ended task (Dict.mem_values_of_get? hfound) h
      rw [hruns] at hterminal
      cases hterminal
    refine hended.congr fun t ht => ?_
    rw [Dict.mem_values_iff, Dict.mem_values_iff]
    constructor
    · rintro ⟨id, hid⟩
      obtain ⟨t₀, h₀, -, hscan, -, rfl | ⟨rfl, -⟩⟩ := hback hid
      · exact ⟨id, h₀⟩
      · exact absurd (hscan.symm.trans ht) hne
    · rintro ⟨id, hid⟩
      refine ⟨id, ?_⟩
      rw [htasks, Dict.get?_set_ne, hid]
      rintro rfl
      rw [hfound, Option.some.injEq] at hid
      exact hne (hid ▸ ht)

theorem ScanInvariant.transition_finalize {repo repo' : InMemoryRepository} {scanId : String}
    {record : ScanRecord} {report : JsonObject} {now : Timestamp} (hinv : ScanInvariant repo)
    (hfound : repo.scans.get? scanId = some record)
    (hterminal : tasksTerminal (taskStates repo scanId) = true)
    (hscans : repo'.scans = repo.scans.set scanId (completedRecord report now record))
    (htasks : repo'.tasks = repo.tasks) : ScanInvariant repo' := by
  have hback : ∀ {k r}, repo'.scans.get? k = some r →
      (k = scanId ∧ r = completedRecord report now record) ∨ repo.scans.get? k = some r := by
    intro k r hk
    rw [hscans, Dict.get?_set] at hk
    by_cases h : scanId = k
    · rw [if_pos h, Option.some.injEq] at hk
      exact Or.inl ⟨h.symm, hk.symm⟩
    · rw [if_neg h] at hk
      exact Or.inr hk
  refine ⟨fun _ _ hk => ?_, ?_, fun {k t} hk => ?_, ?_, fun hk => ?_, fun hk hcomplete => ?_⟩
  · rcases hback hk with ⟨rfl, rfl⟩ | hk
    · exact (hinv.scanKeys _ _ hfound : record.scanId = _)
    · exact hinv.scanKeys _ _ hk
  · rw [htasks]
    exact hinv.taskKeys
  · rw [htasks] at hk
    obtain ⟨r, hr, hupload⟩ := hinv.taskScan hk
    rw [hscans, Dict.get?_set]
    by_cases h : scanId = t.scanId
    · rw [← h, hfound, Option.some.injEq] at hr
      rw [if_pos h]
      exact ⟨_, rfl, hr ▸ hupload⟩
    · rw [if_neg h]
      exact ⟨r, hr, hupload⟩
  · rw [htasks]
    exact hinv.oneKind
  · rcases hback hk with ⟨rfl, rfl⟩ | hk
    · simp [completedRecord]
    · exact hinv.report hk
  · rcases hback hk with ⟨rfl, rfl⟩ | hk
    · exact (hinv.tasksEnded hterminal).congr fun _ _ => by rw [htasks]
    · exact (hinv.ended hk hcomplete).congr fun _ _ => by rw [htasks]

theorem ScanInvariant.transition {repo repo' : InMemoryRepository} (hinv : ScanInvariant repo)
    (h : Transition repo repo') : ScanInvariant repo' := by
  cases h with
  | update scans tasks => exact hinv.transition_update scans tasks
  | create record fresh queued noReport scans tasks =>
    exact hinv.transition_create fresh queued noReport scans tasks
  | ingest scanId osvTask depscanTask first accepted scans osv depscan fresh tasks =>
    exact hinv.transition_ingest first accepted scans osv depscan fresh tasks
  | work taskId task task' scans tasks found runs same =>
    exact hinv.transition_work scans tasks found runs same
  | finalize scanId record report now found noReport terminal notOver scans tasks =>
    exact hinv.transition_finalize found terminal scans tasks

theorem ScanInvariant.step {rt : Runtime} {repo : InMemoryRepository} {call : Call}
    (hlawful : LawfulEnd repo call) (hinv : ScanInvariant repo) :
    Transition repo (call.step rt repo) := by
  cases call with
  | identity call => exact call.transition rt repo
  | scan call => exact ScanCall.transition hinv.scanKeys hinv.taskKeys hlawful

/-! ## What later states keep -/

/-- Every record is still there; a scan that was over is so still, and a report is the same. -/
def Continues (repo repo' : InMemoryRepository) : Prop :=
  ∀ k record, repo.scans.get? k = some record → ∃ record', repo'.scans.get? k = some record' ∧
    (record.state.isAbsorbing = true → record'.state = record.state) ∧
    (∀ report, record.finalReport = some report → record'.finalReport = some report)

theorem Continues.refl (repo : InMemoryRepository) : Continues repo repo :=
  fun _ record h => ⟨record, h, fun _ => rfl, fun _ h => h⟩

theorem Continues.trans {a b c : InMemoryRepository} (h₁ : Continues a b) (h₂ : Continues b c) :
    Continues a c := by
  intro k record hk
  obtain ⟨record₁, hk₁, hstate₁, hreport₁⟩ := h₁ k record hk
  obtain ⟨record₂, hk₂, hstate₂, hreport₂⟩ := h₂ k record₁ hk₁
  refine ⟨record₂, hk₂, fun habs => ?_, fun report h => hreport₂ report (hreport₁ report h)⟩
  have hsame := hstate₁ habs
  rw [hstate₂ (hsame ▸ habs), hsame]

theorem Continues.updates {repo repo' : InMemoryRepository}
    (hscans : ∀ k, Option.Rel Updates (repo.scans.get? k) (repo'.scans.get? k)) :
    Continues repo repo' := by
  intro k record hk
  obtain ⟨record', hk', hu⟩ := updates_forth hscans hk
  exact ⟨record', hk', hu.absorbing, fun report h => hu.finalReport.trans h⟩

theorem Transition.continues {repo repo' : InMemoryRepository} (hinv : ScanInvariant repo)
    (h : Transition repo repo') : Continues repo repo' := by
  cases h with
  | update scans tasks => exact .updates scans
  | create record fresh queued noReport scans tasks =>
    intro k r hk
    refine ⟨r, ?_, fun _ => rfl, fun _ h => h⟩
    rw [scans, Dict.get?_set_ne, hk]
    intro h
    rw [h, hk] at fresh
    cases fresh
  | ingest scanId osvTask depscanTask first accepted scans => exact .updates scans
  | work taskId task task' scans => exact .updates (updates_all scans)
  | finalize scanId record report now found noReport terminal notOver scans tasks =>
    intro k r hk
    rw [scans, Dict.get?_set]
    by_cases h : scanId = k
    · subst h
      rw [found, Option.some.injEq] at hk
      subst hk
      refine ⟨_, if_pos rfl, fun habs => ?_, fun report' h => ?_⟩
      · have hcomplete : record.state ≠ .complete := fun hc =>
          (hinv.report found).mpr hc noReport
        cases hs : record.state <;> simp_all [ScanState.isAbsorbing]
      · rw [noReport] at h
        cases h
    · exact ⟨r, by rw [if_neg h, hk], fun _ => rfl, fun _ h => h⟩

/--
In every run whose rejections and final reports are lawful: a report is present exactly when
the scan is complete, a complete scan has both tasks and all of them have ended, and whatever
follows, a scan that is over keeps its state and a report stays what it is.
-/
theorem scan_lifecycle {rt : Runtime} {before after : List Call}
    (hlawful : Guarded (Call.step rt) LawfulEnd {} (before ++ after)) :
    (∀ k record, (runFrom (Call.step rt) {} before).scans.get? k = some record →
      (record.finalReport ≠ none ↔ record.state = .complete) ∧
      (record.state = .complete → TasksEnded (runFrom (Call.step rt) {} before) k)) ∧
    Continues (runFrom (Call.step rt) {} before) (runFrom (Call.step rt) {} (before ++ after)) := by
  rw [guarded_append] at hlawful
  have hstep : ∀ repo call, LawfulEnd repo call → ScanInvariant repo →
      ScanInvariant (Call.step rt repo call) := fun _ _ hl hinv => hinv.transition (hinv.step hl)
  have hinv := hlawful.1.invariant hstep scanInvariant_empty
  refine ⟨fun k record hk => ⟨hinv.report hk, hinv.ended hk⟩, ?_⟩
  rw [runFrom_append]
  exact hlawful.2.relates Continues.refl Continues.trans hstep
    (fun _ _ hl hinv => (hinv.step hl).continues hinv) hinv

/-! ## Runs of one scan -/

/-- A job of half an hour, authorized for one endpoint. -/
def halfHourJob : JsonObject :=
  [("authorization", .obj [
      ("scope_id", .str "scope-1"),
      ("authorized", .bool true),
      ("authorization_reference", .str "ticket-1"),
      ("valid_from", .str "2023-11-14T22:13:20+00:00"),
      ("expires_at", .str "2023-11-14T22:43:20+00:00"),
      ("allowed_endpoint_ids", .arr [.str "endpoint-1"])]),
    ("scan_type", .str "FULL"),
    ("policy_id", .str "policy-1"),
    ("deadline", .str "2023-11-14T22:43:20+00:00"),
    ("timeout_seconds", .int 900)]

def sampleDevice : DevicePrincipal := ⟨"tenant", "endpoint-1", "credential-1", 1⟩

/-- The endpoint enrolls, a job is queued for it, and its first poll receives the job. -/
def dispatchedRun : List Call :=
  let start := seconds 1700000000
  [.identity (.enrollEndpoint "tenant" "endpoint-1" "credential-1" "hash-1"
      ⟨"host", .linux, "12", "x86_64", "1.0.0"⟩ start 86400 "key-1" "digest-1" none start),
    .scan (.createScanJob "tenant" "endpoint-1" "scan-1" "job-1" halfHourJob start "key-2"
      "digest-2" start),
    .scan (.claimNextJob sampleDevice (start + seconds 60) (start + seconds 60))]

/-- The endpoint reports that it does not accept the job. -/
def sampleRejection (t : Timestamp) : Call :=
  .scan (.recordRejection sampleDevice
    { endpointId := "endpoint-1", scanId := some "scan-1", reason := .invalidOrUnauthorizedJob
      documentSha256 := "document" } "key-3" "digest-3" t t)

/-- A poll after the deadline of the job. -/
def latePoll : Call :=
  .scan (.claimNextJob sampleDevice (seconds 1700003600) (seconds 1700003600))

def scanStateAfter (calls : List Call) : Option ScanState :=
  ((runFrom (Call.step Runtime.sample) {} calls).scans.get? "scan-1").map (·.state)

/-- The rejected scan stays rejected when the endpoint polls after the deadline. -/
theorem scan_lifecycle_rejected_stays :
    scanStateAfter (dispatchedRun ++ [sampleRejection (seconds 1700000120)] ++ [latePoll]) =
      some .rejected := by
  have hrejection : ∀ record,
      rejectedScan sampleDevice
        { endpointId := "endpoint-1", scanId := some "scan-1",
          reason := .invalidOrUnauthorizedJob, documentSha256 := "document" }
        (runFrom (Call.step Runtime.sample) {} dispatchedRun) = .ok (some record) →
      record.state = .dispatched := by
    intro record h
    have hstate : (rejectedScan sampleDevice
        { endpointId := "endpoint-1", scanId := some "scan-1",
          reason := .invalidOrUnauthorizedJob, documentSha256 := "document" }
        (runFrom (Call.step Runtime.sample) {} dispatchedRun)).map (Option.map (·.state)) =
          .ok (some .dispatched) := by decide +kernel
    rw [h] at hstate
    simpa [Except.map] using hstate
  have hlawful : Guarded (Call.step Runtime.sample) LawfulEnd {}
      (dispatchedRun ++ [sampleRejection (seconds 1700000120)] ++ [latePoll]) := by
    rw [guarded_append, guarded_append]
    refine ⟨⟨⟨trivial, trivial, trivial, trivial⟩, fun record _ h => ?_, trivial⟩,
      trivial, trivial⟩
    rw [hrejection record h]
    decide
  have hbefore : scanStateAfter (dispatchedRun ++ [sampleRejection (seconds 1700000120)]) =
      some .rejected := by decide +kernel
  obtain ⟨record, hk, hstate⟩ := Option.map_eq_some_iff.mp hbefore
  obtain ⟨record', hk', habsorbing, -⟩ := (scan_lifecycle hlawful).2 "scan-1" record hk
  rw [scanStateAfter, hk', Option.map_some, habsorbing (by rw [hstate]; rfl), hstate]

/-- A rejection that arrives after the scan has expired is recorded all the same. -/
theorem scan_lifecycle_expired_rejected :
    scanStateAfter (dispatchedRun ++ [latePoll]) = some .expired ∧
      scanStateAfter (dispatchedRun ++ [latePoll] ++ [sampleRejection (seconds 1700003660)]) =
        some .rejected := by
  decide +kernel

end OsScanner.Cloud

import Mathlib
import OsScanner.Endpoint.Execution
import OsScanner.Storage.RetentionSafety

/-!
# Runs of the agent

Attempts follow each other, also after the process has died in one of them, and the other threads
work in between. Whatever is interrupted where, the tables are left by some sequence of whole storage
operations; so every invariant of these operations is one of the agent.
-/

namespace OsScanner.Lib

/-- A guard that does not look at the state. -/
theorem guarded_of_forall {σ : Type} {ι : Type} {step : σ → ι → σ} {guard : ι → Prop} {is : List ι}
    (h : ∀ i ∈ is, guard i) : ∀ s, Guarded step (fun _ => guard) s is := by
  induction is with
  | nil => exact fun _ => trivial
  | cons i is ih =>
    rw [List.forall_mem_cons] at h
    exact fun s => ⟨h.1, ih h.2 _⟩

end OsScanner.Lib

namespace OsScanner.Endpoint

open Lib Storage

variable {Bundle : Type}

/-! ## Runs -/

/-- What happens to an agent. Its policies may be others at each call. -/
inductive Event (Bundle : Type) (timeText : Timestamp → String) where
  | attempt (policies : Orchestrator Bundle) (attempt : ScanAttempt timeText)
  | reconcile (policies : Orchestrator Bundle) (envs : Nat → Surroundings) (limit : Int)
  | background (action : Background)

/-- The agent with other policies. -/
def Agent.using (agent : Agent Bundle) (policies : Orchestrator Bundle) : Agent Bundle :=
  { agent with orchestrator := policies }

def Event.step (agent : Agent Bundle) (store : ResultStore) :
    Event Bundle agent.timeText → ResultStore
  | .attempt policies call => ((execute (agent.using policies) call).run store).2
  | .reconcile policies envs limit =>
    ((reconcileTerminalStatuses (agent.using policies) envs limit).run store).2
  | .background action => action.step agent.rt store

/-- The tables after some events on a new installation. -/
def executed (agent : Agent Bundle) (events : List (Event Bundle agent.timeText)) : ResultStore :=
  runFrom (Event.step agent) .empty events

/-! ## What operations keep -/

/-- The property is kept by all operations of the storage. -/
def KeptByOperations (agent : Agent Bundle) (P : ResultStore → Prop) : Prop :=
  ∀ (store : ResultStore) (operation : Operation), P store →
    P (operation.step agent.rt agent.pyStr store)

section

variable {agent : Agent Bundle} {env : Surroundings} {job : ScanJob}
  {attempt : ScanAttempt agent.timeText} {P : ResultStore → Prop}

/-- A method of the storage that is an operation. -/
theorem keeps_ofStorage {α : Type} {m : ResultMethod α} (h : Method.Keeps P m) :
    Method.Keeps P (ofStorage m) := h.lifted

theorem keeps_map {α β : Type} {ε : Type} {f : α → β} {m : Method ResultStore ε α}
    (h : Method.Keeps P m) : Method.Keeps P (f <$> m) := by
  intro store hstore
  rw [Method.run_map]
  rcases hrun : m.run store with ⟨e | a, store'⟩
  · exact h.apply hstore hrun
  · exact h.apply hstore hrun

theorem keeps_of_operation (hP : KeptByOperations agent P) {α : Type} {m : ResultMethod α}
    (operation : ResultStore → Operation)
    (h : ∀ store, (m.run store).2 = (operation store).step agent.rt agent.pyStr store) :
    Method.Keeps P m := by
  intro store hstore
  rw [h store]
  exact hP store _ hstore

/-- A call of the queue that is not the whole of one. -/
theorem keeps_queue (hP : KeptByOperations agent P) {α : Type} (call : QueueCall)
    (hcall : ∀ snapshots payloads, call ≠ .stored snapshots payloads)
    {f : Database → Except StorageError (α × Database)}
    (h : ∀ db, call.perform agent.rt db = committed db (f db)) :
    Method.Keeps P (Method.on ResultStore.database (.atomically f)) := by
  refine keeps_of_operation hP (fun _ => .background (.queue call)) fun store => ?_
  rw [Operation.step, step_queue hcall, h]
  show ResultStore.database.set store ((Method.atomically f).run store.toDatabase).2 = _
  rcases hf : f store.toDatabase with e | ⟨a, db⟩
  · rw [Method.atomically_eq_error.mpr ⟨hf, rfl⟩]
    rfl
  · rw [Method.atomically_eq_ok.mpr hf]
    rfl

theorem keeps_recordEvent (hP : KeptByOperations agent P) (event : AuditEvent) :
    Method.Keeps P (recordEvent agent event) := by
  refine keeps_ofStorage (keeps_map
    (keeps_of_operation hP (fun _ => .background (.audit event)) fun store => ?_))
  rw [Operation.step, Background.step]
  show ResultStore.database.set store
    ((Method.atomically (recordAuditEvent agent.rt event)).run store.toDatabase).2 = _
  cases hf : recordAuditEvent agent.rt event store.toDatabase with
  | error e =>
    rw [Method.atomically_eq_error.mpr ⟨hf, rfl⟩]
    rfl
  | ok r =>
    obtain ⟨eventHash, db⟩ := r
    obtain ⟨auditLog, rfl⟩ := recordAuditEvent_eq_ok hf
    rw [Method.atomically_eq_ok.mpr hf]
    rfl

theorem keeps_reach (env : Surroundings) (stage : Stage) : Method.Keeps P (env.reach stage) :=
  (Method.keeps_reaching _).lifted

/-- What each action of the other threads keeps, all of them keep. -/
theorem background_invariant {rt : Runtime} {P : ResultStore → Prop}
    (hstep : ∀ store (action : Background), P store → P (action.step rt store))
    {actions : List Background} {store : ResultStore} (h : P store) :
    P (actions.foldl (Background.step rt) store) := by
  have hrun : P (runFrom (Background.step rt) store actions) := run_invariant hstep h
  exact hrun

theorem keeps_pause (hP : KeptByOperations agent P) (env : Surroundings) (stage : Stage) :
    Method.Keeps P (env.pause agent.rt stage) := by
  refine (Method.keeps_modify fun store hstore => ?_).bind fun _ => keeps_reach env stage
  exact background_invariant (fun store action h => hP store (.background action) h) hstore

theorem keeps_enqueue (hP : KeptByOperations agent P) (stage : Stage) (request : UploadRequest) :
    Method.Keeps P (enqueue agent env stage request) :=
  keeps_ofStorage (keeps_map (keeps_queue hP (.enqueue request (env.uuid stage) (env.time stage))
    (fun _ _ h => by cases h) fun _ => rfl))

theorem keeps_uploadDocument (scan : FinishedScan) (change : Option SnapshotChange) :
    Method.Keeps P (uploadDocument agent scan change) := by
  cases change with
  | none => exact Method.keeps_pure _
  | some change =>
    exact (keeps_ofStorage (Method.keeps_reading _)).bind fun _ =>
      (Method.keeps_ofExcept _).bind fun _ => Method.keeps_pure _

theorem keeps_queueResult (hP : KeptByOperations agent P) (scan : FinishedScan)
    (change : Option SnapshotChange) : Method.Keeps P (queueResult agent env job scan change) :=
  (keeps_reach env _).bind fun _ => (keeps_uploadDocument scan change).bind fun _ =>
    (Method.keeps_ofExcept _).bind fun _ => keeps_enqueue hP _ _

theorem keeps_namedPolicy (status : OverallStatus) (result : Option ScanResult) :
    Method.Keeps P (namedPolicy agent job status result) := by
  cases result with
  | none => exact Method.keeps_pure _
  | some result => exact (Method.keeps_ofExcept _).bind fun _ => Method.keeps_pure _

theorem keeps_queueTerminalStatus (hP : KeptByOperations agent P)
    {between : Stage → ExecutionMethod Unit} (hbetween : ∀ stage, Method.Keeps P (between stage))
    (status : OverallStatus) (result : Option ScanResult) :
    Method.Keeps P (queueTerminalStatus agent env job between status result) :=
  (hbetween _).bind fun _ => (keeps_namedPolicy status result).bind fun _ =>
    (Method.keeps_ofExcept _).bind fun _ => (keeps_enqueue hP _ _).bind fun _ =>
      (hbetween _).bind fun _ => keeps_ofStorage (keeps_of_operation hP
        (fun _ => .history _ _ _ _ _ _) fun _ => rfl)

theorem keeps_updateJob (hP : KeptByOperations agent P) (stage : Stage) (status : String)
    (startedAt completedAt resultStatus : Option String) :
    Method.Keeps P (updateJob env job stage status startedAt completedAt resultStatus) :=
  keeps_ofStorage (keeps_of_operation hP (fun _ => .update _ _ _ _ _ _) fun _ => rfl)

theorem keeps_recordMaintenance (hP : KeptByOperations agent P) (pruned purged : Nat) :
    Method.Keeps P (recordMaintenance agent attempt pruned purged) := by
  unfold recordMaintenance
  split
  · exact (keeps_pause hP _ _).bind fun _ => keeps_recordEvent hP _
  · exact Method.keeps_pure _

theorem keeps_maintainStorage (hP : KeptByOperations agent P) :
    Method.Keeps P (maintainStorage agent attempt) := by
  unfold maintainStorage
  refine (keeps_pause hP _ _).bind fun _ => (keeps_ofStorage (keeps_queue hP
    (.purge (cutoff agent attempt agent.succeededUploadRetentionDays) agent.maintenanceBatchSize)
    (fun _ _ h => by cases h) fun _ => rfl)).bind fun purged => ?_
  refine (keeps_pause hP _ _).bind fun _ => (keeps_ofStorage
    (keeps_of_operation hP (fun _ => .prune _) fun _ => rfl)).bind fun pruned => ?_
  exact (keeps_pause hP _ _).bind fun _ => (keeps_recordMaintenance hP pruned purged).bind fun _ =>
    keeps_pause hP _ _

theorem keeps_reconcile (hP : KeptByOperations agent P) (scan : FinishedScan) :
    Method.Keeps P (reconcile agent attempt scan) :=
  (keeps_pause hP _ _).bind fun _ => Method.Keeps.transaction
    ((keeps_reach _ _).bind fun _ => (keeps_ofStorage (Method.keeps_reading _)).bind fun _ =>
      (keeps_queueResult hP _ _).bind fun _ =>
        (keeps_queueTerminalStatus hP (keeps_reach _) _ _).bind fun _ =>
          (keeps_reach _ _).bind fun _ => keeps_updateJob hP _ _ _ _ _)

theorem keeps_reuseResult (hP : KeptByOperations agent P) (stored : Json) :
    Method.Keeps P (reuseResult agent attempt stored) :=
  (keeps_reach _ _).bind fun _ => (Method.keeps_ofExcept _).bind fun scan =>
    ((keeps_reconcile hP scan).catching fun _ => Method.keeps_raise _).bind fun _ =>
      (keeps_pause hP _ _).bind fun _ => Method.keeps_pure _

theorem keeps_complete (hP : KeptByOperations agent P) (policy : Bundle) (scan : FinishedScan) :
    Method.Keeps P (complete agent attempt policy scan) :=
  Method.Keeps.transaction ((keeps_reach _ _).bind fun _ => (keeps_reach _ _).bind fun _ =>
    (keeps_ofStorage (keeps_of_operation hP (fun _ => .save _ _ _ _ _) fun _ => rfl)).bind fun _ =>
      (keeps_queueResult hP _ _).bind fun _ =>
        (keeps_queueTerminalStatus hP (keeps_reach _) _ _).bind fun _ =>
          (keeps_reach _ _).bind fun _ => (keeps_updateJob hP _ _ _ _ _).bind fun _ =>
            (keeps_reach _ _).bind fun _ => (keeps_recordEvent hP _).bind fun _ => keeps_reach _ _)

theorem keeps_scanAfresh (hP : KeptByOperations agent P) (policy : Bundle) :
    Method.Keeps P (scanAfresh agent attempt policy) :=
  (keeps_maintainStorage hP).bind fun _ => (keeps_pause hP _ _).bind fun _ =>
    (Method.keeps_reading _).bind fun _ => (keeps_pause hP _ _).bind fun _ =>
      (Method.Keeps.transaction ((keeps_updateJob hP _ _ _ _ _).bind fun _ =>
        (keeps_reach _ _).bind fun _ => keeps_recordEvent hP _)).bind fun _ =>
          (keeps_pause hP _ _).bind fun _ => (keeps_pause hP _ _).bind fun _ =>
            (Method.keeps_reading _).bind fun scan => (keeps_pause hP _ _).bind fun _ =>
              (keeps_complete hP policy scan).bind fun _ => (keeps_pause hP _ _).bind fun _ =>
                (keeps_pause hP _ _).bind fun _ => Method.keeps_pure _

theorem keeps_attemptScan (hP : KeptByOperations agent P) (policy : Bundle) :
    Method.Keeps P (attemptScan agent attempt policy) := by
  refine (keeps_pause hP _ _).bind fun _ => (keeps_ofStorage
    (keeps_of_operation hP (fun _ => .create _ _) fun _ => rfl)).bind fun _ =>
      (keeps_pause hP _ _).bind fun _ => (keeps_ofStorage (Method.keeps_reading _)).bind
        fun existing => ?_
  cases existing with
  | none => exact keeps_scanAfresh hP policy
  | some stored => exact keeps_reuseResult hP stored

theorem keeps_persistFailure (hP : KeptByOperations agent P) (message : String) :
    Method.Keeps P (persistFailure agent attempt message) :=
  (keeps_pause hP _ _).bind fun _ => Method.Keeps.transaction
    ((keeps_updateJob hP _ _ _ _ _).bind fun _ => (keeps_reach _ _).bind fun _ =>
      keeps_recordEvent hP _)

theorem keeps_queueFailure (hP : KeptByOperations agent P) (persisted : Bool) :
    Method.Keeps P (queueFailure agent attempt persisted) := by
  unfold queueFailure
  split
  · exact (keeps_queueTerminalStatus hP (keeps_pause hP _) _ _).catching fun _ =>
      Method.keeps_pure _
  · exact Method.keeps_pure _

theorem keeps_handleFailure (hP : KeptByOperations agent P) (failure : Failure) :
    Method.Keeps P (handleFailure agent attempt failure) := by
  cases failure with
  | reconciliation message => exact Method.keeps_raise _
  | exception message =>
    exact (keeps_pause hP _ _).bind fun _ => (((keeps_persistFailure hP _).bind fun _ =>
      Method.keeps_pure _).catching fun _ => Method.keeps_pure _).bind fun persisted =>
        (keeps_queueFailure hP persisted).bind fun _ => (keeps_pause hP _ _).bind fun _ =>
          Method.keeps_raise _

/-- A call of `execute` keeps what all operations keep, however it ends. -/
theorem keeps_execute (hP : KeptByOperations agent P) : Method.Keeps P (execute agent attempt) := by
  unfold execute
  split
  · exact (keeps_pause hP _ _).bind fun _ => (keeps_recordEvent hP _).bind fun _ =>
      Method.keeps_raise _
  · exact (keeps_attemptScan hP _).catching (keeps_handleFailure hP)

theorem keeps_reconcileRows (hP : KeptByOperations agent P) (envs : Nat → Surroundings)
    (rows : List (String × JobRow)) : ∀ reconciled,
      Method.Keeps P (reconcileRows agent envs reconciled rows) := by
  induction rows with
  | nil => exact fun _ => Method.keeps_pure _
  | cons e rows ih =>
    intro reconciled
    rw [reconcileRows]
    split
    · exact ih reconciled
    · exact (keeps_pause hP _ _).bind fun _ => (Method.keeps_reading _).bind fun _ =>
        (keeps_queueTerminalStatus hP (keeps_pause hP _) _ _).bind fun _ => ih _

end

/-- So does every event. -/
theorem keeps_event {agent : Agent Bundle} {P : ResultStore → Prop} (hP : KeptByOperations agent P)
    (store : ResultStore) (event : Event Bundle agent.timeText) (h : P store) :
    P (event.step agent store) := by
  have husing : ∀ policies, KeptByOperations (agent.using policies) P := fun _ => hP
  cases event with
  | attempt policies attempt => exact keeps_execute (husing policies) store h
  | reconcile policies envs limit =>
    exact ((keeps_ofStorage (Method.keeps_reading _)).bind fun rows =>
      keeps_reconcileRows (husing policies) envs rows 0) store h
  | background action => exact hP store (.background action) h

end OsScanner.Endpoint

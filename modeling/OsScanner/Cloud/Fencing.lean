import Mathlib
import OsScanner.Lib.Run
import OsScanner.Cloud.TaskStore

/-!
# Leases of analysis tasks

Any number of workers share a store of tasks. Each worker is sequential: it claims a task,
executes it, reports its outcome and only then claims again; it may crash at any point and come
back under its name. Time passes between the steps, and the clock reading of a claim may be
older than the claim itself, because it is taken before the lock.

The history of claims is kept beside the store. From it the results say who the latest claimant
of a task is and which leases have not been given back.
-/

namespace OsScanner.Cloud

open Lib

variable {σ ι : Type}

/-! ## The system -/

structure Fleet (σ : Type) where
  store : σ
  time : Timestamp
  /-- What each worker executes, as it was handed out to it. -/
  executing : String → Option AnalysisTask := fun _ => none
  /-- Every task that was handed out, the latest first. -/
  handedOut : List AnalysisTask := []
  /-- The leases that were granted and not given back by a report. -/
  held : List AnalysisTask := []

inductive FleetEvent (ι : Type) where
  | advance (duration : Nat)
  | claim (worker : String) (unlocked : AnalysisTask → Bool) (kind : TaskKind)
      (leaseSeconds : Int) (now : Timestamp)
  | complete (worker : String) (result : JsonObject)
  | fail (worker error : String) (retryAt : Timestamp) (deadLetter : Bool)
  | crash (worker : String)
  | other (op : ι)

namespace Fleet

/-- `worker` now executes `task`, or nothing. -/
def busy (fleet : Fleet σ) (worker : String) (task : Option AnalysisTask) :
    String → Option AnalysisTask :=
  fun w => if w = worker then task else fleet.executing w

/-- A report that was accepted ends the execution and gives the lease back. -/
def reported (fleet : Fleet σ) (store : σ) (worker : String) (task : AnalysisTask) : Fleet σ :=
  { fleet with
    store := store
    executing := fleet.busy worker none
    held := fleet.held.filter fun held => decide (held ≠ task) }

/-- What an event makes of the system. A worker that is not in the right place does nothing. -/
def step (store : TaskStore σ ι) (fleet : Fleet σ) : FleetEvent ι → Fleet σ
  | .advance duration => { fleet with time := fleet.time + duration }
  | .claim worker unlocked kind leaseSeconds now =>
    match fleet.executing worker with
    | some _ => fleet
    | none =>
      if now ≤ fleet.time then
        match (store.claim unlocked kind worker leaseSeconds now).run fleet.store with
        | (.ok (some task), s) =>
          { fleet with
            store := s
            executing := fleet.busy worker (some task)
            handedOut := task :: fleet.handedOut
            held := task :: fleet.held }
        | (_, s) => { fleet with store := s }
      else fleet
  | .complete worker result =>
    match fleet.executing worker with
    | none => fleet
    | some task =>
      match (store.complete task.taskId worker result fleet.time).run fleet.store with
      | (.ok _, s) => fleet.reported s worker task
      | (.error _, s) => { fleet with store := s }
  | .fail worker error retryAt deadLetter =>
    match fleet.executing worker with
    | none => fleet
    | some task =>
      match (store.fail task.taskId worker error retryAt deadLetter fleet.time).run
          fleet.store with
      | (.ok _, s) => fleet.reported s worker task
      | (.error _, s) => { fleet with store := s, executing := fleet.busy worker none }
  | .crash worker => { fleet with executing := fleet.busy worker none }
  | .other op => { fleet with store := store.other fleet.store op }

/-- The system before anything was submitted. -/
def initial (store : TaskStore σ ι) (time : Timestamp) : Fleet σ :=
  { store := store.start, time := time }

/-- The system after a run. -/
def after (store : TaskStore σ ι) (time : Timestamp) (events : List (FleetEvent ι)) : Fleet σ :=
  runFrom (step store) (initial store time) events

/-- The worker to which a task was handed out last. -/
def lastClaimant (fleet : Fleet σ) (taskId : String) : Option String :=
  (fleet.handedOut.find? fun task => task.taskId = taskId).bind (·.leasedBy)

/-- How often a task was handed out. -/
def handouts (fleet : Fleet σ) (taskId : String) : Nat :=
  fleet.handedOut.countP fun task => task.taskId = taskId

/-- The lease has not expired. -/
def Unexpired (fleet : Fleet σ) (task : AnalysisTask) : Prop :=
  ∃ lease ∈ task.leaseExpiresAt, fleet.time < lease

end Fleet

/-! ## The invariant -/

/-- The latest claim of a task, as it was handed out. -/
def Fleet.lastClaim (fleet : Fleet σ) (taskId : String) : Option AnalysisTask :=
  fleet.handedOut.find? fun task => task.taskId = taskId

/--
The store and the history agree: the record of a task that runs is its latest claim, the
attempts count the claims, and an unexpired lease that was not given back is still in force.
-/
structure FleetInvariant (store : TaskStore σ ι) (fleet : Fleet σ) : Prop where
  keys : TaskKeys (store.tasks fleet.store)
  attempts : ∀ {id task}, (store.tasks fleet.store).get? id = some task →
    task.attempts = fleet.handouts id
  running : ∀ {id task}, (store.tasks fleet.store).get? id = some task → task.state = .running →
    fleet.lastClaim id = some task
  known : ∀ {task}, task ∈ fleet.handedOut → task.state = .running ∧
    ∃ record, (store.tasks fleet.store).get? task.taskId = some record
  executing : ∀ {worker task}, fleet.executing worker = some task →
    task ∈ fleet.held ∧ task.leasedBy = some worker
  /-- A worker that claims again has stopped executing what it claimed before. -/
  latest : ∀ {worker task claim}, fleet.executing worker = some task →
    fleet.lastClaim task.taskId = some claim → claim.leasedBy = some worker → claim = task
  held : ∀ {task}, task ∈ fleet.held → task ∈ fleet.handedOut ∧
    (fleet.Unexpired task → (store.tasks fleet.store).get? task.taskId = some task)

/-- What a step does, with the checks that it passed. -/
inductive FleetChange (store : TaskStore σ ι) (fleet : Fleet σ) :
    FleetEvent ι → Fleet σ → Prop where
  | advance (duration : Nat) :
    FleetChange store fleet (.advance duration) { fleet with time := fleet.time + duration }
  | claimed {worker unlocked kind leaseSeconds now task s} (idle : fleet.executing worker = none)
      (past : now ≤ fleet.time) (found : (store.tasks fleet.store).get? task.taskId = some task)
      (claimable : isClaimable kind now task = true)
      (run : (store.claim unlocked kind worker leaseSeconds now).run fleet.store =
        (.ok (some (claimedTask worker leaseSeconds now task)), s))
      (tasks : store.tasks s = (store.tasks fleet.store).set task.taskId
        (claimedTask worker leaseSeconds now task)) :
    FleetChange store fleet (.claim worker unlocked kind leaseSeconds now)
      { fleet with
        store := s
        executing := fleet.busy worker (some (claimedTask worker leaseSeconds now task))
        handedOut := claimedTask worker leaseSeconds now task :: fleet.handedOut
        held := claimedTask worker leaseSeconds now task :: fleet.held }
  | completed {worker result task record s} (executing : fleet.executing worker = some task)
      (found : (store.tasks fleet.store).get? task.taskId = some record)
      (leased : record.Leased worker)
      (tasks : store.tasks s = (store.tasks fleet.store).set task.taskId
        (completedTask result fleet.time record)) :
    FleetChange store fleet (.complete worker result) (fleet.reported s worker task)
  | failed {worker error retryAt deadLetter task record s}
      (executing : fleet.executing worker = some task)
      (found : (store.tasks fleet.store).get? task.taskId = some record)
      (leased : record.Leased worker)
      (tasks : store.tasks s = (store.tasks fleet.store).set task.taskId
        (failedTask error retryAt deadLetter fleet.time record)) :
    FleetChange store fleet (.fail worker error retryAt deadLetter) (fleet.reported s worker task)
  | released {event} (worker : String) :
    FleetChange store fleet event { fleet with executing := fleet.busy worker none }
  | other (op : ι) :
    FleetChange store fleet (.other op) { fleet with store := store.other fleet.store op }
  | same {event} : FleetChange store fleet event fleet

theorem FleetInvariant.change {store : TaskStore σ ι} {fleet : Fleet σ}
    (hinv : FleetInvariant store fleet) (event : FleetEvent ι) :
    FleetChange store fleet event (fleet.step store event) := by
  have hrecord : ∀ {worker task}, fleet.executing worker = some task →
      ∃ record, (store.tasks fleet.store).get? task.taskId = some record := fun hexecuting =>
    (hinv.known (hinv.held (hinv.executing hexecuting).1).1).2
  cases event with
  | advance duration => exact .advance duration
  | claim worker unlocked kind leaseSeconds now =>
    cases hidle : fleet.executing worker with
    | some task =>
      simp only [Fleet.step, hidle]
      exact .same
    | none =>
      by_cases hpast : now ≤ fleet.time
      · rcases store.claim_cases unlocked kind worker leaseSeconds now fleet.store hinv.keys with
          ⟨result, hrun, hnone⟩ | ⟨task, s, hfound, hclaimable, hrun, htasks⟩
        · simp only [Fleet.step, hidle, if_pos hpast, hrun]
          rcases result with e | _ | task
          · exact .same
          · exact .same
          · exact absurd rfl (hnone task)
        · simp only [Fleet.step, hidle, if_pos hpast, hrun]
          exact .claimed hidle hpast hfound hclaimable hrun htasks
      · simp only [Fleet.step, hidle, if_neg hpast]
        exact .same
  | complete worker result =>
    cases hexecuting : fleet.executing worker with
    | none =>
      simp only [Fleet.step, hexecuting]
      exact .same
    | some task =>
      obtain ⟨record, hfound⟩ := hrecord hexecuting
      by_cases hleased : record.Leased worker
      · obtain ⟨s, hrun, htasks⟩ := store.complete_leased result fleet.time hfound hleased
        simp only [Fleet.step, hexecuting, hrun]
        exact .completed hexecuting hfound hleased htasks
      · simp only [Fleet.step, hexecuting, notLeased, Cloud.fail,
          store.complete_refused result fleet.time hfound hleased]
        exact .same
  | fail worker error retryAt deadLetter =>
    cases hexecuting : fleet.executing worker with
    | none =>
      simp only [Fleet.step, hexecuting]
      exact .same
    | some task =>
      obtain ⟨record, hfound⟩ := hrecord hexecuting
      by_cases hleased : record.Leased worker
      · obtain ⟨s, hrun, htasks⟩ :=
          store.fail_leased error retryAt deadLetter fleet.time hfound hleased
        simp only [Fleet.step, hexecuting, hrun]
        exact .failed hexecuting hfound hleased htasks
      · simp only [Fleet.step, hexecuting, notLeased, Cloud.fail,
          store.fail_refused error retryAt deadLetter fleet.time hfound hleased]
        exact .released worker
  | crash worker => exact .released worker
  | other op => exact .other op

/-! ### Preservation -/

theorem lastClaim_cons (fleet : Fleet σ) (task : AnalysisTask) (id : String) :
    ((task :: fleet.handedOut).find? fun t => t.taskId = id) =
      if task.taskId = id then some task else fleet.lastClaim id := by
  by_cases h : task.taskId = id
  · rw [if_pos h, List.find?_cons_of_pos (by simpa using h)]
  · rw [if_neg h, List.find?_cons_of_neg (by simpa using h)]
    rfl

theorem mem_of_lastClaim {fleet : Fleet σ} {id : String} {task : AnalysisTask}
    (h : fleet.lastClaim id = some task) : task ∈ fleet.handedOut ∧ task.taskId = id :=
  ⟨List.mem_of_find?_eq_some h, by simpa using List.find?_some h⟩

/-- A task that was claimed a moment ago did not run under an unexpired lease. -/
theorem not_unexpired_of_claimable {fleet : Fleet σ} {kind : TaskKind} {now : Timestamp}
    {task : AnalysisTask} (hpast : now ≤ fleet.time) (hclaimable : isClaimable kind now task = true)
    (hrunning : task.state = .running) : ¬ fleet.Unexpired task := by
  rintro ⟨lease, hlease, hlt⟩
  simp only [isClaimable, hrunning, Bool.and_eq_true, Bool.or_eq_true, decide_eq_true_eq,
    reduceCtorEq, or_self, false_or, true_and] at hclaimable
  obtain ⟨lease', hlease', hle⟩ := hclaimable.2
  rw [Option.mem_def] at hlease hlease'
  have hsame : lease = lease' := Option.some.inj (hlease.symm.trans hlease')
  have hexpired : lease ≤ fleet.time := hsame ▸ hle.trans hpast
  exact absurd (hlt.trans_le hexpired) (lt_irrefl _)

theorem busy_eq_some {fleet : Fleet σ} {worker w : String} {new : Option AnalysisTask}
    {task : AnalysisTask} (h : fleet.busy worker new w = some task) :
    (w = worker ∧ new = some task) ∨ (w ≠ worker ∧ fleet.executing w = some task) := by
  unfold Fleet.busy at h
  split at h
  · rename_i hw
    exact Or.inl ⟨hw, h⟩
  · rename_i hw
    exact Or.inr ⟨hw, h⟩

/-- The executing worker of an accepted report was the latest claimant of its task. -/
theorem FleetInvariant.record_eq {store : TaskStore σ ι} {fleet : Fleet σ}
    (hinv : FleetInvariant store fleet) {worker : String} {task record : AnalysisTask}
    (hexecuting : fleet.executing worker = some task)
    (hfound : (store.tasks fleet.store).get? task.taskId = some record)
    (hleased : record.Leased worker) : record = task :=
  hinv.latest hexecuting (hinv.running hfound hleased.1) hleased.2

theorem FleetInvariant.initial (store : TaskStore σ ι) (time : Timestamp) :
    FleetInvariant store (Fleet.initial store time) := by
  have hnone : ∀ id, (store.tasks (Fleet.initial store time).store).get? id = none := by
    intro id
    show (store.tasks store.start).get? id = none
    rw [store.tasks_start]
    rfl
  refine ⟨?_, ?_, ?_, ?_, ?_, ?_, ?_⟩
  · intro id task h
    rw [hnone] at h
    cases h
  · intro id task h
    rw [hnone] at h
    cases h
  · intro id task h
    rw [hnone] at h
    cases h
  · exact fun h => by cases h
  · exact fun h => by cases h
  · exact fun h => by cases h
  · exact fun h => by cases h

theorem FleetInvariant.claimed {store : TaskStore σ ι} {fleet : Fleet σ}
    (hinv : FleetInvariant store fleet) {worker : String} {kind : TaskKind} {leaseSeconds : Int}
    {now : Timestamp} {task : AnalysisTask} {s : σ} (hpast : now ≤ fleet.time)
    (hfound : (store.tasks fleet.store).get? task.taskId = some task)
    (hclaimable : isClaimable kind now task = true)
    (htasks : store.tasks s = (store.tasks fleet.store).set task.taskId
      (claimedTask worker leaseSeconds now task)) :
    FleetInvariant store { fleet with
      store := s
      executing := fleet.busy worker (some (claimedTask worker leaseSeconds now task))
      handedOut := claimedTask worker leaseSeconds now task :: fleet.handedOut
      held := claimedTask worker leaseSeconds now task :: fleet.held } := by
  have hget : ∀ id, (store.tasks s).get? id =
      if task.taskId = id then some (claimedTask worker leaseSeconds now task)
      else (store.tasks fleet.store).get? id := by
    intro id
    rw [htasks, Dict.get?_set]
  refine ⟨?_, ?_, ?_, ?_, ?_, ?_, ?_⟩
  · intro id record h
    rw [hget] at h
    split at h
    · rename_i hid
      rw [← Option.some.inj h]
      exact hid
    · exact hinv.keys id record h
  · intro id record h
    rw [hget] at h
    show record.attempts = (claimedTask worker leaseSeconds now task :: fleet.handedOut).countP _
    rw [List.countP_cons]
    split at h
    · rename_i hid
      subst hid
      rw [← Option.some.inj h]
      have hcount := hinv.attempts hfound
      simp only [claimedTask, hcount, Fleet.handouts, decide_true, if_true]
    · rename_i hid
      have hcount := hinv.attempts h
      simp only [claimedTask, hid, hcount, Fleet.handouts, decide_false, Bool.false_eq_true,
        if_false, Nat.add_zero]
  · intro id record h hrunning
    show ((claimedTask worker leaseSeconds now task :: fleet.handedOut).find? _) = _
    rw [lastClaim_cons]
    rw [hget] at h
    show (if task.taskId = id then _ else _) = _
    split at h
    · rename_i hid
      rw [if_pos hid, h]
    · rename_i hid
      rw [if_neg hid]
      exact hinv.running h hrunning
  · intro t ht
    rcases List.mem_cons.mp ht with rfl | ht
    · exact ⟨rfl, _, by rw [hget]; exact if_pos rfl⟩
    · obtain ⟨hrunning, record, hrecord⟩ := hinv.known ht
      refine ⟨hrunning, ?_⟩
      show ∃ record, (store.tasks s).get? t.taskId = some record
      rw [hget]
      split
      · exact ⟨_, rfl⟩
      · exact ⟨record, hrecord⟩
  · intro w t ht
    rcases busy_eq_some ht with ⟨rfl, hnew⟩ | ⟨hw, hold⟩
    · rw [← Option.some.inj hnew]
      exact ⟨List.mem_cons_self, rfl⟩
    · exact (hinv.executing hold).imp_left (List.mem_cons_of_mem _)
  · intro w t claim ht hclaim howner
    change ((claimedTask worker leaseSeconds now task :: fleet.handedOut).find? _) = _ at hclaim
    rw [lastClaim_cons] at hclaim
    rcases busy_eq_some ht with ⟨rfl, hnew⟩ | ⟨hw, hold⟩
    · rw [← Option.some.inj hnew, if_pos rfl] at hclaim
      rw [← Option.some.inj hnew, Option.some.inj hclaim]
    · split at hclaim
      · rw [← Option.some.inj hclaim] at howner
        exact absurd (Option.some.inj howner).symm hw
      · exact hinv.latest hold hclaim howner
  · intro t ht
    rcases List.mem_cons.mp ht with rfl | ht
    · exact ⟨List.mem_cons_self, fun _ => by rw [hget]; exact if_pos rfl⟩
    · obtain ⟨hmem, hforce⟩ := hinv.held ht
      refine ⟨List.mem_cons_of_mem _ hmem, fun hunexpired => ?_⟩
      have hrecord := hforce hunexpired
      rw [hget]
      split
      · -- The claim took over this very task, so its lease had expired.
        rename_i hid
        rw [← hid, hfound] at hrecord
        have hrunning := (hinv.known hmem).1
        rw [← Option.some.inj hrecord] at hrunning hunexpired
        exact absurd hunexpired (not_unexpired_of_claimable hpast hclaimable hrunning)
      · exact hrecord

/-- A report that the store accepted, with what it made of the record. -/
theorem FleetInvariant.reported {store : TaskStore σ ι} {fleet : Fleet σ}
    (hinv : FleetInvariant store fleet) {worker : String} {task record new : AnalysisTask} {s : σ}
    (hexecuting : fleet.executing worker = some task)
    (hfound : (store.tasks fleet.store).get? task.taskId = some record)
    (hleased : record.Leased worker)
    (htasks : store.tasks s = (store.tasks fleet.store).set task.taskId new)
    (hid : new.taskId = record.taskId) (hattempts : new.attempts = record.attempts)
    (hstops : new.state ≠ .running) : FleetInvariant store (fleet.reported s worker task) := by
  have hrecord := hinv.record_eq hexecuting hfound hleased
  subst hrecord
  have hget : ∀ id, (store.tasks s).get? id =
      if record.taskId = id then some new else (store.tasks fleet.store).get? id := by
    intro id
    rw [htasks, Dict.get?_set]
  refine ⟨?_, ?_, ?_, ?_, ?_, ?_, ?_⟩
  · intro id t h
    change (store.tasks s).get? id = some t at h
    rw [hget] at h
    split at h
    · rename_i hsame
      rw [← Option.some.inj h, hid, hsame]
    · exact hinv.keys id t h
  · intro id t h
    change (store.tasks s).get? id = some t at h
    rw [hget] at h
    split at h
    · rename_i hsame
      subst hsame
      rw [← Option.some.inj h, hattempts]
      exact hinv.attempts hfound
    · exact hinv.attempts h
  · intro id t h hrunning
    change (store.tasks s).get? id = some t at h
    rw [hget] at h
    split at h
    · rw [← Option.some.inj h] at hrunning
      exact absurd hrunning hstops
    · exact hinv.running h hrunning
  · intro t ht
    obtain ⟨hrunning, old, hold⟩ := hinv.known ht
    refine ⟨hrunning, ?_⟩
    show ∃ t', (store.tasks s).get? t.taskId = some t'
    rw [hget]
    split
    · exact ⟨_, rfl⟩
    · exact ⟨old, hold⟩
  · intro w t ht
    rcases busy_eq_some ht with ⟨rfl, hnew⟩ | ⟨hw, hold⟩
    · cases hnew
    · obtain ⟨hmem, howner⟩ := hinv.executing hold
      refine ⟨List.mem_filter.mpr ⟨hmem, ?_⟩, howner⟩
      rw [decide_eq_true_eq]
      rintro rfl
      exact hw (Option.some.inj (howner.symm.trans (hinv.executing hexecuting).2))
  · intro w t claim ht hclaim howner
    rcases busy_eq_some ht with ⟨rfl, hnew⟩ | ⟨hw, hold⟩
    · cases hnew
    · exact hinv.latest hold hclaim howner
  · intro t ht
    obtain ⟨hmem, hne⟩ := List.mem_filter.mp ht
    rw [decide_eq_true_eq] at hne
    obtain ⟨hout, hforce⟩ := hinv.held hmem
    refine ⟨hout, fun hunexpired => ?_⟩
    have hold := hforce hunexpired
    show (store.tasks s).get? t.taskId = some t
    rw [hget]
    split
    · rename_i hsame
      rw [← hsame, hfound] at hold
      exact absurd (Option.some.inj hold).symm hne
    · exact hold

theorem FleetInvariant.other {store : TaskStore σ ι} {fleet : Fleet σ}
    (hinv : FleetInvariant store fleet) {s : σ}
    (hs : Submits (store.tasks fleet.store) (store.tasks s)) :
    FleetInvariant store { fleet with store := s } := by
  have hcases : ∀ {id t}, (store.tasks s).get? id = some t →
      (store.tasks fleet.store).get? id = some t ∨
        ((store.tasks fleet.store).get? id = none ∧ t.taskId = id ∧ t.Unclaimed) := by
    intro id t h
    cases hold : (store.tasks fleet.store).get? id with
    | none => exact Or.inr ⟨rfl, hs.added hold h⟩
    | some t' =>
      rw [hs.kept hold] at h
      exact Or.inl h
  refine ⟨?_, ?_, ?_, ?_, hinv.executing, hinv.latest, ?_⟩
  · intro id t h
    rcases hcases h with hold | ⟨-, hid, -⟩
    · exact hinv.keys id t hold
    · exact hid
  · intro id t h
    rcases hcases h with hold | ⟨hnone, -, hunclaimed⟩
    · exact hinv.attempts hold
    · rw [hunclaimed.attempts]
      refine (List.countP_eq_zero.mpr fun t' ht' hid => ?_).symm
      obtain ⟨-, record, hrecord⟩ := hinv.known ht'
      rw [decide_eq_true_eq.mp hid, hnone] at hrecord
      cases hrecord
  · intro id t h hrunning
    rcases hcases h with hold | ⟨-, -, hunclaimed⟩
    · exact hinv.running hold hrunning
    · rw [hunclaimed.pending] at hrunning
      cases hrunning
  · intro t ht
    obtain ⟨hrunning, record, hrecord⟩ := hinv.known ht
    exact ⟨hrunning, record, hs.kept hrecord⟩
  · intro t ht
    obtain ⟨hout, hforce⟩ := hinv.held ht
    exact ⟨hout, fun hunexpired => hs.kept (hforce hunexpired)⟩

theorem FleetInvariant.step {store : TaskStore σ ι} {fleet : Fleet σ}
    (hinv : FleetInvariant store fleet) (event : FleetEvent ι) :
    FleetInvariant store (fleet.step store event) := by
  have hchange := hinv.change event
  generalize fleet.step store event = fleet' at hchange
  cases hchange with
  | advance duration =>
    refine ⟨hinv.keys, hinv.attempts, hinv.running, hinv.known, hinv.executing, hinv.latest,
      fun ht => ⟨(hinv.held ht).1, fun ⟨lease, hlease, hlt⟩ => (hinv.held ht).2 ⟨lease, hlease, ?_⟩⟩⟩
    exact (Int.le_add_of_nonneg_right (Int.natCast_nonneg duration)).trans_lt hlt
  | claimed _ past found claimable _ tasks => exact hinv.claimed past found claimable tasks
  | completed executing found leased tasks =>
    exact hinv.reported executing found leased tasks rfl rfl (by simp [completedTask])
  | failed executing found leased tasks =>
    refine hinv.reported executing found leased tasks rfl rfl ?_
    unfold failedTask
    split <;> simp
  | released worker =>
    refine ⟨hinv.keys, hinv.attempts, hinv.running, hinv.known, fun h => ?_, fun h => ?_, hinv.held⟩
    · rcases busy_eq_some h with ⟨-, hnew⟩ | ⟨-, hold⟩
      · cases hnew
      · exact hinv.executing hold
    · rcases busy_eq_some h with ⟨-, hnew⟩ | ⟨-, hold⟩
      · cases hnew
      · exact hinv.latest hold
  | other op => exact hinv.other (store.other_submits _ op)
  | same => exact hinv

theorem FleetInvariant.after (store : TaskStore σ ι) (time : Timestamp)
    (events : List (FleetEvent ι)) : FleetInvariant store (Fleet.after store time events) :=
  @run_invariant _ _ (Fleet.step store) (FleetInvariant store) (fun _ event h => h.step event) _ _
    (FleetInvariant.initial store time)

/-! ## Fencing -/

/-- A record that has ended is not written again. -/
theorem terminal_step {store : TaskStore σ ι} {fleet : Fleet σ}
    (hinv : FleetInvariant store fleet) (event : FleetEvent ι) {id : String}
    {task : AnalysisTask} (hfound : (store.tasks fleet.store).get? id = some task)
    (hended : task.state.isTerminal = true) :
    (store.tasks (fleet.step store event).store).get? id = some task := by
  have hchange := hinv.change event
  have hother : ∀ {taskId : String} {record new : AnalysisTask},
      (store.tasks fleet.store).get? taskId = some record → record.state.isTerminal = false →
      ((store.tasks fleet.store).set taskId new).get? id = some task := by
    intro taskId record new hrecord hruns
    rw [Dict.get?_set]
    split
    · rename_i hid
      rw [hid, hfound] at hrecord
      rw [← Option.some.inj hrecord, hended] at hruns
      cases hruns
    · exact hfound
  generalize fleet.step store event = fleet' at hchange
  cases hchange with
  | claimed _ _ found claimable _ tasks =>
    exact (congrArg (fun t => t.get? id) tasks).trans (hother found (isClaimable_runs claimable))
  | completed _ found leased tasks =>
    exact (congrArg (fun t => t.get? id) tasks).trans (hother found (by rw [leased.1]; rfl))
  | failed _ found leased tasks =>
    exact (congrArg (fun t => t.get? id) tasks).trans (hother found (by rw [leased.1]; rfl))
  | other op => exact (store.other_submits _ op).kept hfound
  | advance | released | same => exact hfound

theorem terminal_run {store : TaskStore σ ι} {events : List (FleetEvent ι)} {fleet : Fleet σ}
    (hinv : FleetInvariant store fleet) {id : String} {task : AnalysisTask}
    (hfound : (store.tasks fleet.store).get? id = some task)
    (hended : task.state.isTerminal = true) :
    (store.tasks (runFrom (Fleet.step store) fleet events).store).get? id = some task := by
  have hrun := @run_invariant _ _ (Fleet.step store)
    (fun fleet => FleetInvariant store fleet ∧ (store.tasks fleet.store).get? id = some task)
    (fun _ event h => ⟨h.1.step event, terminal_step h.1 event h.2 hended⟩) events fleet
    ⟨hinv, hfound⟩
  exact hrun.2

/-- What fencing promises of the workers of a store. -/
structure Fenced (store : TaskStore σ ι) : Prop where
  /-- A report is recorded only from the latest claimant, for the task as it claimed it. -/
  latest_recorded : ∀ (time : Timestamp) (events : List (FleetEvent ι)) (worker : String)
    (task : AnalysisTask), (Fleet.after store time events).executing worker = some task →
    ((∃ result now s, (store.complete task.taskId worker result now).run
        (Fleet.after store time events).store = (.ok (), s)) ∨
      ∃ error retryAt deadLetter now s, (store.fail task.taskId worker error retryAt deadLetter
        now).run (Fleet.after store time events).store = (.ok (), s)) →
    (Fleet.after store time events).lastClaimant task.taskId = some worker ∧
      (store.tasks (Fleet.after store time events).store).get? task.taskId = some task
  /-- A task that has succeeded or failed never changes again. -/
  terminal_final : ∀ (time : Timestamp) (before after : List (FleetEvent ι)) (id : String)
    (task : AnalysisTask),
    (store.tasks (Fleet.after store time before).store).get? id = some task →
    task.state.isTerminal = true →
    (store.tasks (Fleet.after store time (before ++ after)).store).get? id = some task
  /-- No two unexpired leases on one task, and a worker executes under the lease it was given. -/
  lease_exclusive : ∀ (time : Timestamp) (events : List (FleetEvent ι)),
    (∀ task task', task ∈ (Fleet.after store time events).held →
      task' ∈ (Fleet.after store time events).held → task.taskId = task'.taskId →
      (Fleet.after store time events).Unexpired task →
      (Fleet.after store time events).Unexpired task' → task = task') ∧
    ∀ worker task, (Fleet.after store time events).executing worker = some task →
      task ∈ (Fleet.after store time events).held ∧ task.leasedBy = some worker
  /-- A worker whose lease was taken over is refused, and nothing is written. -/
  taken_over : ∀ (time : Timestamp) (events : List (FleetEvent ι)) (worker : String)
    (task : AnalysisTask), (Fleet.after store time events).executing worker = some task →
    (Fleet.after store time events).lastClaimant task.taskId ≠ some worker →
    (∀ result now, (store.complete task.taskId worker result now).run
        (Fleet.after store time events).store =
      (notLeased, (Fleet.after store time events).store)) ∧
    ∀ error retryAt deadLetter now, (store.fail task.taskId worker error retryAt deadLetter
        now).run (Fleet.after store time events).store =
      (notLeased, (Fleet.after store time events).store)

theorem FleetInvariant.lastClaimant_eq {store : TaskStore σ ι} {fleet : Fleet σ}
    (hinv : FleetInvariant store fleet) {worker id : String} {record : AnalysisTask}
    (hfound : (store.tasks fleet.store).get? id = some record) (hleased : record.Leased worker) :
    fleet.lastClaimant id = some worker := by
  have hlast := hinv.running hfound hleased.1
  unfold Fleet.lastClaim at hlast
  rw [Fleet.lastClaimant, hlast]
  exact hleased.2

/-- Every store of tasks fences its workers. -/
theorem TaskStore.fenced (store : TaskStore σ ι) : Fenced store := by
  refine ⟨fun time events worker task hexecuting hreport => ?_,
    fun time before after id task hfound hended => ?_, fun time events => ⟨?_, ?_⟩,
    fun time events worker task hexecuting htaken => ?_⟩
  · have hinv := FleetInvariant.after store time events
    obtain ⟨record, hfound⟩ := (hinv.known (hinv.held (hinv.executing hexecuting).1).1).2
    have hleased : record.Leased worker := by
      by_contra hnot
      rcases hreport with ⟨result, now, s, hrun⟩ | ⟨error, retryAt, deadLetter, now, s, hrun⟩
      · rw [store.complete_refused result now hfound hnot] at hrun
        cases hrun
      · rw [store.fail_refused error retryAt deadLetter now hfound hnot] at hrun
        cases hrun
    refine ⟨hinv.lastClaimant_eq hfound hleased, ?_⟩
    rw [hfound, hinv.record_eq hexecuting hfound hleased]
  · rw [Fleet.after, runFrom_append]
    exact terminal_run (FleetInvariant.after store time before) hfound hended
  · have hinv := FleetInvariant.after store time events
    intro task task' hheld hheld' hid hunexpired hunexpired'
    have hrecord := (hinv.held hheld).2 hunexpired
    have hrecord' := (hinv.held hheld').2 hunexpired'
    rw [hid, hrecord'] at hrecord
    exact (Option.some.inj hrecord).symm
  · exact fun worker task => (FleetInvariant.after store time events).executing
  · have hinv := FleetInvariant.after store time events
    obtain ⟨record, hfound⟩ := (hinv.known (hinv.held (hinv.executing hexecuting).1).1).2
    have hnot : ¬ record.Leased worker := fun hleased =>
      htaken (hinv.lastClaimant_eq hfound hleased)
    exact ⟨fun result now => store.complete_refused result now hfound hnot,
      fun error retryAt deadLetter now =>
        store.fail_refused error retryAt deadLetter now hfound hnot⟩

/--
Both stores fence their workers, in every interleaving of claims, reports, crashes, passing
time and the other operations on the store: only the latest claimant's outcome is recorded,
ended tasks never change again, no two workers hold an unexpired lease on one task, and a
worker whose lease was taken over can neither complete nor fail the task.
-/
theorem lease_fencing (rt : Runtime) : Fenced (inMemoryTasks rt) ∧ Fenced Postgres.taskStore :=
  ⟨(inMemoryTasks rt).fenced, Postgres.taskStore.fenced⟩

end OsScanner.Cloud

import Mathlib
import OsScanner.Endpoint.RecordedRuns

/-!
# Statuses that are queued again

`reconcile_terminal_statuses` of `app/orchestrator/scanner.py` queues what a failure has left out.
After a call that returns, every terminal scan that it has found has its status in the history, and
when the limit is not reached no terminal scan is left without one.
-/

namespace OsScanner.Endpoint

open Lib Lib.Check Storage

variable {Bundle : Type}

section

variable {agent : Agent Bundle} {env : Surroundings} {job : ScanJob} {scans : List String}

/-! ## The history grows -/

/-- The entry is in the history. -/
def InHistory (entry : HistoryRow) (store : ResultStore) : Prop := entry ∈ store.history

theorem keeps_inHistory_pause (entry : HistoryRow) (stage : Stage) :
    Method.Keeps (InHistory entry) (env.pause agent.rt stage) := by
  refine (Method.keeps_modify fun _ hstore => background_invariant
    (fun _ action h => ?_) hstore).bind fun _ => keeps_reach env stage
  cases action with
  | queue call => exact h
  | audit event => exact h

theorem keeps_inHistory_enqueue (entry : HistoryRow) (stage : Stage) (request : UploadRequest) :
    Method.Keeps (InHistory entry) (enqueue agent env stage request) :=
  keeps_ofStorage (keeps_map (Method.keeps_on (Q := fun store _ => InHistory entry store)
    (fun _ h => h) (fun _ _ h => h) fun _ _ h _ => h))

theorem keeps_inHistory_appendScanHistory (entry : HistoryRow) {now scanId event : String}
    {status idempotencyKey : Option String} {details : JsonObject} :
    Method.Keeps (InHistory entry)
      (appendScanHistory agent.rt now scanId event status details idempotencyKey) := by
  unfold appendScanHistory
  refine (Method.keeps_ofExcept _).bind fun scan => (Method.keeps_ofExcept _).bind fun event =>
    (Method.keeps_ofExcept _).bind fun key => Method.Ensures.keeps
      (Method.ensures_atomically ?_ fun _ _ h _ => h)
  rintro store ⟨⟩ store' hstore hbody
  dsimp only at hbody
  split at hbody
  · -- the row with this key is kept as it is
    rw [bind_unit_eq_ok] at hbody
    cases hbody.2
    exact hstore
  · cases hbody
    exact List.mem_append_left _ hstore

theorem keeps_inHistory_queueTerminalStatus (entry : HistoryRow) (status : OverallStatus)
    (result : Option ScanResult) : Method.Keeps (InHistory entry)
      (queueTerminalStatus agent env job (env.pause agent.rt) status result) :=
  (keeps_inHistory_pause entry _).bind fun _ => (keeps_namedPolicy status result).bind fun _ =>
    (Method.keeps_ofExcept _).bind fun _ => (keeps_inHistory_enqueue entry _ _).bind fun _ =>
      (keeps_inHistory_pause entry _).bind fun _ =>
        keeps_ofStorage (keeps_inHistory_appendScanHistory entry)

theorem keeps_inHistory_reconcileRows (entry : HistoryRow) (envs : Nat → Surroundings)
    (rows : List (String × JobRow)) : ∀ reconciled,
      Method.Keeps (InHistory entry) (reconcileRows agent envs reconciled rows) := by
  induction rows with
  | nil => exact fun _ => Method.keeps_pure _
  | cons e rows ih =>
    intro reconciled
    rw [reconcileRows]
    split
    · exact ih reconciled
    · exact (keeps_inHistory_pause entry _).bind fun _ => (Method.keeps_reading _).bind fun _ =>
        (keeps_inHistory_queueTerminalStatus entry _ _).bind fun _ => ih _

/-! ## Every row is queued -/

/-- The status of the row is in the history, if the row can be read. -/
def StatusQueued (agent : Agent Bundle) (e : String × JobRow) (store : ResultStore) : Prop :=
  ∀ job status, readTerminal agent e.2 = some (job, status) →
    ∃ entry ∈ store.history, entry.scanId = e.1 ∧ entry.event = "TERMINAL_STATUS_QUEUED" ∧
      entry.status = some status.value

/-- The rows that can be read. -/
def readable (agent : Agent Bundle) (rows : List (String × JobRow)) : List (String × JobRow) :=
  rows.filter fun e => (readTerminal agent e.2).isSome

/-- The loop queues a status for each row, and counts them. -/
theorem ensures_reconcileRows (hdistinct : DistinctStatuses agent scans)
    (hids : ∀ id ∈ scans, Cloud.isIdentifier id = true) (envs : Nat → Surroundings)
    {rows : List (String × JobRow)} (hrows : ∀ e ∈ rows, e.1 ∈ scans ∧
      ∃ fields : JsonObject, e.2.job = .obj fields ∧ fields.get "scan_id" = .str e.1) :
    ∀ reconciled, Method.Ensures (ScansRecorded agent scans none)
      (reconcileRows agent envs reconciled rows)
      (fun count store => count = reconciled + (readable agent rows).length ∧
        ∀ e ∈ rows, StatusQueued agent e store)
      fun _ _ => True := by
  induction rows with
  | nil => exact fun _ => Method.ensures_pure fun _ _ => ⟨rfl, fun _ h => absurd h List.not_mem_nil⟩
  | cons e rows ih =>
    intro reconciled
    obtain ⟨⟨hscan, fields, hjob, hid⟩, hrows⟩ := List.forall_mem_cons.mp hrows
    rw [reconcileRows]
    split
    · next hnone =>
      -- a row that cannot be read is passed over, and not counted
      refine (ih hrows reconciled).weaken (fun _ h => h) (fun count store h => ⟨?_, ?_⟩)
        fun _ _ h => h
      · rw [h.1, readable, readable, List.filter_cons, hnone]
        rfl
      · refine List.forall_mem_cons.mpr ⟨fun job status hread => ?_, h.2⟩
        rw [hnone] at hread
        cases hread
    · next job status hread =>
      have hsame := readTerminal_scanId hjob hid hread
      refine .bind (keeps_recorded_pause _ _).ensures.inside fun _ =>
        .bind (Method.keeps_reading _).ensures.inside fun result =>
          .bind (ensures_queueTerminalStatus hdistinct (hsame ▸ hscan) (hids _ (hsame ▸ hscan))
            (keeps_recorded_pause _) status result).inside fun _ => ?_
      -- what this round has written stays in the history
      rintro store ⟨hstore, entry, hentry, hof, hevent, hstatus⟩
      have hframed := (ih hrows (reconciled + 1)).frame
        (keeps_inHistory_reconcileRows entry envs rows (reconciled + 1))
      refine (hframed.weaken (fun _ h => h) (fun count store h => ⟨?_, ?_⟩)
        fun _ _ _ => trivial) store ⟨hstore, hentry⟩
      · rw [h.1.1, readable, readable, List.filter_cons, hread, Option.isSome_some, if_pos rfl,
          List.length_cons]
        omega
      · refine List.forall_mem_cons.mpr ⟨fun job' status' hread' => ?_, h.1.2⟩
        rw [hread, Option.some.injEq, Prod.mk.injEq] at hread'
        rw [← hread'.2]
        exact ⟨entry, h.2, hof.trans hsame, hevent, hstatus⟩

end

/-! ## After every run -/

section

variable {agent : Agent Bundle}

/-- What a call does that returns: `rows` are the terminal scans that it has found. -/
structure Reconciled (agent : Agent Bundle) (limit : Int) (before after : ResultStore)
    (count : Nat) (rows : List (String × JobRow)) : Prop where
  found : terminalScanJobs limit before = .ok rows
  counted : count = (readable agent rows).length
  queued : ∀ e ∈ rows, StatusQueued agent e after
  /-- Where the limit cuts nothing off, no terminal scan that can be read is without its status. -/
  complete : rows.length < limit.toNat → ∀ scanId row, before.jobs.get? scanId = some row →
    row.terminal = true → row.resultStatus.isSome = true → (readTerminal agent row).isSome = true →
      ∃ entry ∈ after.history, entry.scanId = scanId ∧ entry.event = "TERMINAL_STATUS_QUEUED"
  kept : ∀ entry ∈ before.history, entry ∈ after.history

theorem reconciled_of_queued {limit : Int} {before after : ResultStore} {count : Nat}
    {rows : List (String × JobRow)} (hfound : terminalScanJobs limit before = .ok rows)
    (hcount : count = (readable agent rows).length)
    (hqueued : ∀ e ∈ rows, StatusQueued agent e after)
    (hkept : ∀ entry ∈ before.history, entry ∈ after.history) :
    Reconciled agent limit before after count rows where
  found := hfound
  counted := hcount
  queued := hqueued
  kept := hkept
  complete := by
    intro hlimit scanId row hrow hterminal hstatus hreadable
    by_cases hmissing : statusMissing before scanId row = true
    · obtain ⟨⟨job, status⟩, hread⟩ := Option.isSome_iff_exists.mp hreadable
      have hmem := (terminalScanJobs_eq_ok hfound).2 hlimit scanId row hrow hmissing
      obtain ⟨entry, hentry, hof, hevent, -⟩ := hqueued (scanId, row) hmem job status hread
      exact ⟨entry, hentry, hof, hevent⟩
    · -- the status was queued before, and stays
      rw [statusMissing, hterminal, hstatus, Bool.and_self, Bool.true_and, Bool.not_eq_true,
        Bool.not_eq_false', List.any_eq_true] at hmissing
      obtain ⟨entry, hentry, hsame⟩ := hmissing
      rw [decide_eq_true_eq] at hsame
      exact ⟨entry, hkept entry hentry, hsame⟩

end

/-! ### A failure whose status was not queued -/

/-- The job of a document is the one of the attack surface. -/
def readBack (fields : JsonObject) : Option ScanJob :=
  if fields.get "scan_id" = .str "scan-1" then some (surfaceJob {"example.org"}) else none

theorem readBack_scanId (fields : JsonObject) (job : ScanJob) (h : readBack fields = some job) :
    fields.get "scan_id" = .str job.scanId := by
  unfold readBack at h
  split at h
  · next hid =>
    cases h
    exact hid
  · cases h

def readingAgent : Agent Unit :=
  { surfaceAgent with
    validateJob := readBack
    validateJob_scanId := readBack_scanId }

/-- The scan fails, and the process dies before the status of the failure is queued. -/
def failedRun : List (Event Unit readingAgent.timeText) :=
  [.attempt readingAgent.orchestrator
    { surfaceAttempt fun stage => if stage = .queueStatus then .dies else .passes with
      collected := fun _ => .error "no route to host" }]

def afterwards : Surroundings where
  uuid _ := "uuid"
  now _ := "2024-01-02"

end OsScanner.Endpoint

import Mathlib
import OsScanner.Tools.OsqueryTasks

/-!
# Runs of registered queries

The tasks of a run make up the selection: every selected query is reported once, in the order of
the selection, whatever the cache holds and however the units are interleaved.
-/

namespace OsScanner.Tools

open Lib Lib.Check Storage

namespace OsqueryAdapter

variable {adapter : OsqueryAdapter} {host : Host} {env : ∀ op, Answer op → Prop}
  {deadlineAt : Option ℚ}

/-! ## A selection -/

theorem gives_splitCached (deadlineAt : Option ℚ) {executable : String} {selected : List QueryDefinition}
    (hmem : ∀ definition ∈ selected, definition ∈ adapter.queries) : Gives adapter host env
      (fun split : List (QueryDefinition × Execution) × List QueryDefinition =>
        (∀ e ∈ split.1, e.1 ∈ selected ∧ adapter.Reports host env deadlineAt e.1 e.2) ∧
          split.2.Sublist selected ∧
          ∀ definition ∈ selected, definition ∈ split.1.map Prod.fst ∨ definition ∈ split.2)
      (splitCached executable selected) := by
  induction selected with
  | nil =>
    exact ⟨fun _ hmem => absurd hmem List.not_mem_nil, List.Sublist.slnil,
      fun _ hmem => absurd hmem List.not_mem_nil⟩
  | cons definition rest ih =>
    rw [List.forall_mem_cons] at hmem
    rw [splitCached]
    refine (gives_cached hmem.1 executable).bind fun found hfound => ?_
    refine (ih hmem.2).bind fun others hothers => ?_
    obtain ⟨hhits, hmisses, hall⟩ := hothers
    cases found with
    | some execution =>
      refine ⟨List.forall_mem_cons.mpr ⟨⟨List.mem_cons_self, ?_⟩, fun e he => ?_⟩, hmisses.cons _,
        List.forall_mem_cons.mpr ⟨Or.inl List.mem_cons_self, fun other hother => ?_⟩⟩
      · exact reports_of_success (hfound _ rfl).1 (hfound _ rfl).2
      · exact ⟨List.mem_cons_of_mem _ (hhits e he).1, (hhits e he).2⟩
      · exact (hall other hother).imp_left (List.mem_cons_of_mem _)
    | none =>
      refine ⟨fun e he => ⟨List.mem_cons_of_mem _ (hhits e he).1, (hhits e he).2⟩, hmisses.cons_cons _,
        List.forall_mem_cons.mpr ⟨Or.inr List.mem_cons_self, fun other hother => ?_⟩⟩
      exact (hall other hother).imp_right (List.mem_cons_of_mem _)

/-- What the calling thread hands on. -/
def PreparedFor (adapter : OsqueryAdapter) (host : Host) (env : ∀ op, Answer op → Prop)
    (deadlineAt : Option ℚ) (queryIds : List String) : Prepared → Prop
  | .raised _ => adapter.Refused queryIds
  | .finished outcomes => ¬ adapter.Refused queryIds ∧
      ∃ selected, selected.map QueryDefinition.identifier = queryIds ∧
        (∀ definition ∈ selected, definition ∈ adapter.queries) ∧
        adapter.ReportsAll host env deadlineAt selected outcomes
  | .units selected hits units => ¬ adapter.Refused queryIds ∧
      selected.map QueryDefinition.identifier = queryIds ∧
      (∀ definition ∈ selected, definition ∈ adapter.queries) ∧
      (∀ e ∈ hits, e.1 ∈ selected ∧ adapter.Reports host env deadlineAt e.1 e.2) ∧
      ∃ misses, units = batchUnits misses ∧ misses.Sublist selected ∧
        ∀ definition ∈ selected, definition ∈ hits.map Prod.fst ∨ definition ∈ misses

theorem validateInput_eq_some {queryId : String} {definition : QueryDefinition}
    (h : adapter.validateInput queryId = some definition) :
    definition ∈ adapter.queries ∧ definition.identifier = queryId := by
  rw [validateInput] at h
  have hid := List.find?_some h
  exact ⟨List.mem_of_find?_eq_some h, of_decide_eq_true hid⟩

theorem selected_of_validate {queryIds : List String} {selected : List QueryDefinition}
    (h : queryIds.mapM adapter.validateInput = some selected) :
    selected.map QueryDefinition.identifier = queryIds ∧
      ∀ definition ∈ selected, definition ∈ adapter.queries := by
  have hall := mapM_eq_some.mp h
  constructor
  · have hids := List.forall₂_map_right_iff.mpr (hall.imp fun queryId definition hvalid =>
      ((validateInput_eq_some hvalid).2.symm : queryId = definition.identifier))
    rw [List.forall₂_eq_eq_eq] at hids
    exact hids.symm
  · intro definition hmem
    obtain ⟨queryId, -, hvalid⟩ := exists_of_mem_right hall hmem
    exact (validateInput_eq_some hvalid).1

/-- A reading of a list that succeeds on each element succeeds. -/
theorem exists_mapM {α β : Type} (f : α → Option β) (xs : List α) (h : ∀ x ∈ xs, ∃ y, f x = some y) :
    ∃ ys, xs.mapM f = some ys := by
  induction xs with
  | nil => exact ⟨[], rfl⟩
  | cons x xs ih =>
    rw [List.forall_mem_cons] at h
    obtain ⟨y, hy⟩ := h.1
    obtain ⟨ys, hys⟩ := ih h.2
    exact ⟨y :: ys, mapM_eq_some.mpr (.cons hy (mapM_eq_some.mp hys))⟩

theorem refused_of_validate {queryIds : List String}
    (h : queryIds.mapM adapter.validateInput = none) : adapter.Refused queryIds := by
  by_contra hnot
  simp only [Refused, not_or, not_exists, not_and, not_forall, not_not] at hnot
  obtain ⟨ys, hys⟩ := exists_mapM adapter.validateInput queryIds
    fun queryId hmem => by
      obtain ⟨definition, hdefinition, hid⟩ := hnot.2.2.2 queryId hmem
      exact Option.isSome_iff_exists.mp (List.find?_isSome.mpr
        ⟨definition, hdefinition, decide_eq_true hid⟩)
  rw [h] at hys
  cases hys

theorem gives_prepare (queryIds : List String) : Gives adapter host env
    (adapter.PreparedFor host env deadlineAt queryIds) (adapter.prepare queryIds deadlineAt) := by
  rw [prepare]
  split
  next hbounds => exact hbounds.elim Or.inl fun hlength => Or.inr (Or.inl hlength)
  next hbounds =>
  split
  next hnodup => exact Or.inr (Or.inr (Or.inl hnodup))
  next hnodup =>
  split
  next hvalidate => exact refused_of_validate hvalidate
  next selected hvalidate =>
  obtain ⟨hids, hmem⟩ := selected_of_validate hvalidate
  have haccepted : ¬ adapter.Refused queryIds := by
    rintro (hempty | hlength | hdouble | ⟨queryId, hqueryId, hunknown⟩)
    · exact hbounds (Or.inl hempty)
    · exact hbounds (Or.inr hlength)
    · exact hnodup hdouble
    · rw [← hids] at hqueryId
      obtain ⟨definition, hdefinition, hid⟩ := List.mem_map.mp hqueryId
      exact hunknown definition (hmem definition hdefinition) hid
  refine Program.ensures_request trivial fun found hfound => ?_
  cases found with
  | none => exact ⟨haccepted, selected, hids, hmem, reportsAll_map fun definition =>
      reports_of_failure nofun fun hreliable => hreliable.find hfound⟩
  | some executable =>
    refine (gives_remainingTimeout none).bind fun timeout htimeout => ?_
    cases timeout with
    | none => exact ⟨haccepted, selected, hids, hmem, reportsAll_map fun definition =>
        reports_of_failure nofun (htimeout rfl)⟩
    | some timeout =>
      refine (gives_splitCached deadlineAt hmem).bind fun split hsplit => ?_
      exact ⟨haccepted, hids, hmem, hsplit.1, split.2, rfl, hsplit.2⟩

/-- The outcomes of a selection, in its order. -/
theorem collect_reported {selected : List QueryDefinition}
    (hmem : ∀ definition ∈ selected, definition ∈ adapter.queries)
    {outcomes : List (QueryDefinition × Execution)}
    (houtcomes : ∀ e ∈ outcomes, e.1 ∈ selected ∧ adapter.Reports host env deadlineAt e.1 e.2)
    (hall : ∀ definition ∈ selected, definition ∈ outcomes.map Prod.fst) :
    ∃ collected, collect selected outcomes = .ok collected ∧ adapter.Reported host env deadlineAt
      (selected.map QueryDefinition.identifier) collected := by
  let byId := (outcomes.map fun e => (e.1.identifier, e.2)).reverse
  obtain ⟨collected, hcollected⟩ := exists_mapM (fun definition =>
    (Assoc.lookup definition.identifier byId).map fun execution => (definition.identifier, execution))
    selected fun definition hdefinition => by
    obtain ⟨e, he, rfl⟩ := List.mem_map.mp (hall definition hdefinition)
    have hfound : (Assoc.lookup e.1.identifier byId).isSome := by
      refine Assoc.lookup_isSome_iff.mpr (List.mem_map.mpr ⟨(e.1.identifier, e.2), ?_, rfl⟩)
      exact List.mem_reverse.mpr (List.mem_map_of_mem he)
    obtain ⟨execution, hexecution⟩ := Option.isSome_iff_exists.mp hfound
    exact ⟨_, Option.map_eq_some_iff.mpr ⟨execution, hexecution, rfl⟩⟩
  have hread := mapM_eq_some.mp hcollected
  refine ⟨collected, ?_, ?_, fun e he => ?_⟩
  · rw [collect]
    simp only [byId] at hcollected
    rw [hcollected]
  · have hnames : List.Forall₂ (fun definition e => definition.identifier = e.1) selected collected :=
      hread.imp fun definition e he => by
        obtain ⟨execution, -, rfl⟩ := Option.map_eq_some_iff.mp he
        rfl
    have hids := List.forall₂_map_left_iff.mpr (List.forall₂_map_right_iff.mpr hnames)
    rw [List.forall₂_eq_eq_eq] at hids
    exact hids.symm
  · obtain ⟨definition, -, he⟩ := exists_of_mem_right hread he
    obtain ⟨execution, hexecution, rfl⟩ := Option.map_eq_some_iff.mp he
    obtain ⟨o, ho, hpair⟩ := List.mem_map.mp (List.mem_reverse.mp (Assoc.mem_of_lookup hexecution))
    rw [Prod.mk.injEq] at hpair
    exact ⟨o.1, hmem _ (houtcomes o ho).1, hpair.1, hpair.2 ▸ (houtcomes o ho).2⟩

/-! ## Runs -/

/-- A task that runs alone ends with what it gives, and the cache stays trusted. -/
theorem gives_alone {α : Type} {task : Task α} {post : α → Prop} {cache cache' : Cache} {value : α}
    (h : Gives adapter host env post task) (hcache : adapter.CacheTrusted host cache)
    (hrun : Interleaved (adapter.step env) [task] cache [value] cache') :
    post value ∧ adapter.CacheTrusted host cache' := by
  obtain ⟨hvalue, hcache'⟩ := hrun.ensures
    (cacheTrusted_step adapter host env) hcache (.cons h .nil)
  cases hvalue with
  | cons hpost _ => exact ⟨hpost, hcache'⟩

theorem reported_of_executed {selected : List QueryDefinition}
    (hmem : ∀ definition ∈ selected, definition ∈ adapter.queries)
    {hits : List (QueryDefinition × Execution)}
    (hhits : ∀ e ∈ hits, e.1 ∈ selected ∧ adapter.Reports host env deadlineAt e.1 e.2)
    {misses : List QueryDefinition} (hmisses : misses.Sublist selected)
    (hall : ∀ definition ∈ selected, definition ∈ hits.map Prod.fst ∨ definition ∈ misses)
    {executed : List (List (QueryDefinition × Execution))}
    (hexecuted : List.Forall₂ (adapter.ReportsAll host env deadlineAt) (batchUnits misses) executed) :
    ∃ collected, collect selected (hits ++ executed.flatten) = .ok collected ∧
      adapter.Reported host env deadlineAt (selected.map QueryDefinition.identifier) collected := by
  have hmap : executed.flatten.map Prod.fst = misses := by
    have hunits := List.forall₂_map_right_iff.mpr
      (hexecuted.imp fun unit outcomes h => (h.1.symm : unit = outcomes.map Prod.fst))
    rw [List.forall₂_eq_eq_eq] at hunits
    rw [List.map_flatten, ← hunits, flatten_batchUnits]
  refine collect_reported hmem (fun e he => ?_) fun definition hdefinition => ?_
  · rcases List.mem_append.mp he with he | he
    · exact hhits e he
    · have hmiss : e.1 ∈ misses := hmap ▸ List.mem_map_of_mem he
      obtain ⟨outcomes, houtcomes, he⟩ := List.mem_flatten.mp he
      obtain ⟨unit, -, hreports⟩ := exists_of_mem_right hexecuted houtcomes
      exact ⟨hmisses.subset hmiss, hreports.2 e he⟩
  · rw [List.map_append, hmap]
    exact List.mem_append.mpr (hall definition hdefinition)

/-- One run, with the cache that it leaves. -/
theorem reported_of_run (hshort : adapter.ShortColumns) (hrel : adapter.Relational host)
    (htruth : adapter.Truthful host env) {queryIds : List String} {timeoutSeconds : Option ℚ}
    {cache cache' : Cache} {result : Except String (List (String × Execution))}
    (hcache : adapter.CacheTrusted host cache)
    (hrun : adapter.RunRegistered env queryIds timeoutSeconds deadlineAt cache result cache') :
    ((adapter.Refused queryIds ∧ ∃ message, result = .error message) ∨
      (¬ adapter.Refused queryIds ∧ ∃ outcomes, result = .ok outcomes ∧
        adapter.Reported host env deadlineAt queryIds outcomes)) ∧
      adapter.CacheTrusted host cache' := by
  -- each unit of a run gives what it owes
  have hunits : ∀ {selected misses : List QueryDefinition}, misses.Sublist selected →
      ¬ adapter.Refused (selected.map QueryDefinition.identifier) →
      (∀ definition ∈ selected, definition ∈ adapter.queries) → ∀ unit ∈ batchUnits misses,
        Gives adapter host env (adapter.ReportsAll host env deadlineAt unit)
          (adapter.executeUnit timeoutSeconds deadlineAt unit) := by
    intro selected misses hmisses haccepted hmem unit hunit
    have hunique : selected.Nodup := by
      by_contra hdouble
      exact haccepted (Or.inr (Or.inr (Or.inl fun hids => hdouble (List.Nodup.of_map _ hids))))
    exact gives_executeUnit hshort hrel htruth (fun definition hdefinition =>
      hmem _ (hmisses.subset (mem_of_mem_batchUnits hunit hdefinition)))
      (nodup_of_mem_batchUnits (hunique.sublist hmisses) hunit) timeoutSeconds
  cases hrun with
  | raised hprepare =>
    obtain ⟨hrefused, hcache'⟩ := gives_alone (gives_prepare queryIds) hcache hprepare
    exact ⟨Or.inl ⟨hrefused, _, rfl⟩, hcache'⟩
  | finished hprepare =>
    obtain ⟨⟨haccepted, selected, rfl, hmem, hmap, hreports⟩, hcache'⟩ :=
      gives_alone (gives_prepare queryIds) hcache hprepare
    subst hmap
    refine ⟨Or.inr ⟨haccepted, _, rfl, ?_, fun e he => ?_⟩, hcache'⟩
    · rw [List.map_map, List.map_map]
      rfl
    · obtain ⟨o, ho, rfl⟩ := List.mem_map.mp he
      exact ⟨o.1, hmem _ (List.mem_map_of_mem ho), rfl, hreports o ho⟩
  | sequential hprepare _ hexecuted =>
    obtain ⟨⟨haccepted, rfl, hmem, hhits, misses, rfl, hmisses, hall⟩, hmiddle⟩ :=
      gives_alone (gives_prepare queryIds) hcache hprepare
    obtain ⟨hreports, hcache'⟩ := gives_alone
      (Program.ensures_mapM (hunits hmisses haccepted hmem)) hmiddle hexecuted
    exact ⟨Or.inr ⟨haccepted, reported_of_executed hmem hhits hmisses hall hreports⟩, hcache'⟩
  | concurrent hprepare _ hexecuted =>
    obtain ⟨⟨haccepted, rfl, hmem, hhits, misses, rfl, hmisses, hall⟩, hmiddle⟩ :=
      gives_alone (gives_prepare queryIds) hcache hprepare
    have hpool : List.Forall₂ (fun task post => Gives adapter host env post task)
        ((batchUnits misses).map (adapter.executeUnit timeoutSeconds deadlineAt))
        ((batchUnits misses).map (adapter.ReportsAll host env deadlineAt)) :=
      List.forall₂_map_left_iff.mpr (List.forall₂_map_right_iff.mpr
        (List.forall₂_same.mpr (hunits hmisses haccepted hmem)))
    obtain ⟨hposts, hcache'⟩ := hexecuted.ensures
      (cacheTrusted_step adapter host env) hmiddle hpool
    have hreports := (List.forall₂_map_right_iff.mp hposts).flip
    exact ⟨Or.inr ⟨haccepted, reported_of_executed hmem hhits hmisses hall hreports⟩, hcache'⟩

theorem cacheTrusted_lifetime (hshort : adapter.ShortColumns) (hrel : adapter.Relational host)
    (htruth : adapter.Truthful host env) {cache : Cache} (h : adapter.Lifetime env cache) :
    adapter.CacheTrusted host cache := by
  induction h with
  | fresh => exact fun _ hmem => absurd hmem List.not_mem_nil
  | call _ hrun ih => exact (reported_of_run hshort hrel htruth ih hrun).2

/-! ## The refinement -/

/-- Where everything outside answers, a call returns or raises. -/
theorem exists_run (htotal : ∀ op, ∃ answer, env op answer) (queryIds : List String)
    (timeoutSeconds : Option ℚ) (cache : Cache) : ∃ result cache',
      adapter.RunRegistered env queryIds timeoutSeconds deadlineAt cache result cache' := by
  have hstep : ∀ op cache, ∃ answer cache', adapter.step env op cache answer cache' := by
    intro op cache
    cases op with
    | lookup key now => exact ⟨_, _, rfl⟩
    | store key entry => exact ⟨(), _, rfl⟩
    | find => exact (htotal .find).imp fun answer h => ⟨cache, h, rfl⟩
    | fingerprint executable => exact (htotal (.fingerprint executable)).imp fun answer h => ⟨cache, h, rfl⟩
    | clock => exact (htotal .clock).imp fun answer h => ⟨cache, h, rfl⟩
    | run executable sql timeout =>
      exact (htotal (.run executable sql timeout)).imp fun answer h => ⟨cache, h, rfl⟩
  obtain ⟨values, middle, hprepare⟩ :=
    Interleaved.exists_run hstep [adapter.prepare queryIds deadlineAt] cache
  obtain ⟨prepared, rfl⟩ := List.length_eq_one_iff.mp hprepare.length_values
  cases prepared with
  | raised message => exact ⟨_, _, .raised hprepare⟩
  | finished outcomes => exact ⟨_, _, .finished hprepare⟩
  | units selected hits units =>
    by_cases hworkers : min adapter.maxConcurrency units.length ≤ 1
    · obtain ⟨values, cache', hunits⟩ := Interleaved.exists_run hstep
        [units.mapM (adapter.executeUnit timeoutSeconds deadlineAt)] middle
      obtain ⟨executed, rfl⟩ := List.length_eq_one_iff.mp hunits.length_values
      exact ⟨_, _, .sequential hprepare hworkers hunits⟩
    · obtain ⟨executed, cache', hunits⟩ := Interleaved.exists_run hstep
        (units.map (adapter.executeUnit timeoutSeconds deadlineAt)) middle
      exact ⟨_, _, .concurrent hprepare (Nat.not_le.mp hworkers) hunits⟩

theorem executeUnit_of_plan {first second : QueryDefinition} {plan : BatchPlan}
    (hplan : makeBatchPlan [first, second] = some plan) (timeoutSeconds : Option ℚ) :
    adapter.executeUnit timeoutSeconds none [first, second] =
      adapter.executeBatch plan timeoutSeconds >>= fun batched => match batched with
        | some executions => pure executions
        | none => adapter.fallBack timeoutSeconds none [first, second] := by
  simp only [executeUnit, hplan]
  rfl

theorem executeBatch_timedOut {executable : String} (hfind : env .find (some executable))
    {plan : BatchPlan} {timeoutSeconds : Option ℚ} {result : CommandResult}
    (hrun : env (.run executable plan.sql timeoutSeconds) (.finished result))
    (htime : result.timedOut = true) (cache : Cache) : Interleaved (adapter.step env)
      [adapter.executeBatch plan timeoutSeconds] cache
      [some (failedBatch plan result "osquery batched execution timed out")] cache := by
  rw [executeBatch]
  refine Interleaved.call (show adapter.step env .find cache (some executable) cache from
    ⟨hfind, rfl⟩) ?_
  refine Interleaved.call (show adapter.step env (.run executable plan.sql timeoutSeconds) cache
    (.finished result) cache from ⟨hrun, rfl⟩) ?_
  dsimp only [Program.bind]
  rw [if_pos htime]
  exact .done _ _

/-- A batch of queries that are not cached. -/
theorem executeBatch_succeeded {executable : String} (hfind : env .find (some executable))
    {plan : BatchPlan} {timeoutSeconds : Option ℚ} {result : CommandResult}
    (hrun : env (.run executable plan.sql timeoutSeconds) (.finished result))
    (htime : result.timedOut = false) (hcode : result.returncode = some 0)
    (hwhole : result.stdoutTruncated = false) {executions : List (QueryDefinition × Execution)}
    (hexecutions : adapter.batchedExecutions plan result = some executions)
    (hfresh : ∀ e ∈ executions, e.1.cacheTtlSeconds ≤ 0) (cache : Cache) :
    Interleaved (adapter.step env) [adapter.executeBatch plan timeoutSeconds] cache
      [some executions] cache := by
  have hstored : executions.mapM (fun e => adapter.storeCached e.1 executable e.2) =
      pure (executions.map fun _ => ()) := by
    clear hexecutions
    induction executions with
    | nil => rfl
    | cons e rest ih =>
      rw [List.forall_mem_cons] at hfresh
      rw [List.mapM_cons, ih hfresh.2, storeCached, if_pos (Or.inl hfresh.1)]
      rfl
  rw [executeBatch]
  refine Interleaved.call (show adapter.step env .find cache (some executable) cache from
    ⟨hfind, rfl⟩) ?_
  refine Interleaved.call (show adapter.step env (.run executable plan.sql timeoutSeconds) cache
    (.finished result) cache from ⟨hrun, rfl⟩) ?_
  dsimp only [Program.bind]
  rw [htime, hcode, hwhole, hexecutions]
  simp only [Bool.false_eq_true, if_false, ne_eq, not_true]
  rw [hstored]
  exact .done _ _

/-! ## A host -/

def daysQuery : QueryDefinition where
  identifier := "days"
  category := "system"
  sql := "SELECT days FROM uptime;"
  maximumRows := 1
  batchColumns := ["days"]

def hoursQuery (column : String) (h : isSqlIdentifier column = true) : QueryDefinition where
  identifier := "hours"
  category := "system"
  sql := "SELECT * FROM hours;"
  maximumRows := 1
  batchColumns := [column]
  columns_valid := List.forall_mem_singleton.mpr h
  columns_nodup := List.nodup_singleton column
  columns_singleton _ := rfl

/-- The combined row of two queries that have one row with one column each. -/
def combinedFields : JsonObject :=
  [("__scanner_count_0", .str "1"), ("__scanner_value_0_0", .str "3"),
    ("__scanner_count_1", .str "1"), ("__scanner_value_1_0", .str "3")]

/-- Batches start with `WITH`. -/
def isBatch (sql : String) : Bool := decide (sql.toList.head? = some 'W')

def daysText : String := "[\x7b\"days\":\"3\"\x7d]"

def batchText : String :=
  "[\x7b\"__scanner_count_0\":\"1\",\"__scanner_value_0_0\":\"3\"," ++
    "\"__scanner_count_1\":\"1\",\"__scanner_value_1_0\":\"3\"\x7d]"

section

variable (column : String) (h : isSqlIdentifier column = true)

/-- What a computer prints that is up for three days and three hours: the text and its document. -/
def printed (sql : String) : String × Json :=
  if isBatch sql then (batchText, .arr [.obj combinedFields])
  else if sql = daysQuery.sql then (daysText, .arr [.obj [("days", .str "3")]])
  else ("[\x7b\"" ++ column ++ "\":\"3\"\x7d]", .arr [.obj [(column, .str "3")]])

def sampleHost : Host where
  answer sql := (printed column sql).2

def sampleLibrary : JsonLibrary where
  loads text :=
    if text = batchText then .ok (.arr [.obj combinedFields])
    else if text = daysText then .ok (.arr [.obj [("days", .str "3")]])
    else if text = "[\x7b\"" ++ column ++ "\":\"3\"\x7d]" then .ok (.arr [.obj [(column, .str "3")]])
    else .error none
  int := String.toInt?
  str _ := ""

def sampleAdapter : OsqueryAdapter where
  library := sampleLibrary column
  queries := [daysQuery, hoursQuery column h]
  queries_nodup := by
    show ["days", "hours"].Nodup
    decide

/-- osquery prints these answers, and its batches may time out. -/
def sampleEnv (slow : Bool) : ∀ op, Answer op → Prop
  | .find, answer => answer = some "osqueryi"
  | .fingerprint _, answer => answer = "osqueryi"
  | .clock, answer => answer = 0
  | .lookup _ _, _ => True
  | .store _ _, _ => True
  | .run _ sql _, answer => answer = .finished
    { returncode := some 0, stdout := (printed column sql).1, timedOut := slow && isBatch sql }

end

/-! ### Its answers -/

section

variable {column : String} {h : isSqlIdentifier column = true}

/-- What the texts of the sample are made of. -/
theorem sample_texts :
    daysText ≠ batchText ∧ batchText.length ≤ 8 * 1024 * 1024 ∧
    batchText.toList = "[\x7b\"".toList ++ '_' :: batchText.toList.drop 4 ∧
    daysText.toList = "[\x7b\"".toList ++ 'd' :: daysText.toList.drop 4 ∧
    "hours".toList.head? = some 'h' ∧ "WITH ".toList = 'W' :: "ITH ".toList := by
  decide +kernel

theorem sample_queries :
    isBatch daysQuery.sql = false ∧ isBatch "SELECT * FROM hours;" = false ∧
    "SELECT * FROM hours;" ≠ daysQuery.sql := by
  decide +kernel

/-- What the combined row has under the aliases of a batch. -/
theorem sample_combined :
    [countAlias 0, valueAlias 0 0, countAlias 1, valueAlias 1 0] = combinedFields.map Prod.fst ∧
    (combinedFields.map Prod.fst).Nodup ∧
    (∀ name ∈ combinedFields.map Prod.fst, combinedFields.has name = true) ∧
    (parseRow (.obj combinedFields)).toOption = some combinedFields ∧
    ((Assoc.lookup (countAlias 0) combinedFields = some (.str "1") ∧
        Assoc.lookup (valueAlias 0 0) combinedFields = some (.str "3")) ∧
      Assoc.lookup (countAlias 1) combinedFields = some (.str "1") ∧
        Assoc.lookup (valueAlias 1 0) combinedFields = some (.str "3")) := by
  decide +kernel

/-- The texts start differently. -/
def Distinct (column : String) : Prop :=
  "[\x7b\"" ++ column ++ "\":\"3\"\x7d]" ≠ batchText ∧ "[\x7b\"" ++ column ++ "\":\"3\"\x7d]" ≠ daysText

theorem loads_batchText : (sampleLibrary column).loads batchText = .ok (.arr [.obj combinedFields]) := by
  dsimp only [sampleLibrary]
  rw [if_pos rfl]

theorem loads_daysText : (sampleLibrary column).loads daysText =
    .ok (.arr [.obj [("days", .str "3")]]) := by
  dsimp only [sampleLibrary]
  rw [if_neg sample_texts.1, if_pos rfl]

theorem loads_printed (hdistinct : Distinct column) (sql : String) :
    (sampleLibrary column).loads (printed column sql).1 = .ok (printed column sql).2 := by
  rw [printed]
  split
  · exact loads_batchText
  split
  · exact loads_daysText
  dsimp only [sampleLibrary]
  rw [if_neg hdistinct.1, if_neg hdistinct.2, if_pos rfl]

theorem distinct_of_head {c : Char} (hcolumn : column.toList.head? = some c) (hc : c ≠ '_' ∧ c ≠ 'd') :
    Distinct column := by
  have hstart : ∀ {text : String} {d : Char} {rest : List Char},
      text.toList = "[\x7b\"".toList ++ d :: rest → c ≠ d → "[\x7b\"" ++ column ++ "\":\"3\"\x7d]" ≠ text := by
    intro text d rest htext hne heq
    rw [← heq, String.toList_append, String.toList_append, List.append_assoc] at htext
    have hrest := congrArg List.head? (List.append_cancel_left htext)
    rw [List.head?_append, hcolumn] at hrest
    exact hne (Option.some_inj.mp hrest)
  obtain ⟨-, -, hbatch, hdays, -⟩ := sample_texts
  exact ⟨hstart hbatch hc.1, hstart hdays hc.2⟩

theorem truthful_sample (hdistinct : Distinct column) (slow : Bool) :
    (sampleAdapter column h).Truthful (sampleHost column) (sampleEnv column slow) := by
  intro executable sql timeout result hrun _ _ _ document hloads
  cases RunOutcome.finished.inj hrun
  exact (Except.ok.inj ((loads_printed hdistinct sql).symm.trans hloads)).symm

theorem isBatch_plan {queries : List QueryDefinition} {plan : BatchPlan}
    (hplan : makeBatchPlan queries = some plan) : isBatch plan.sql = true := by
  rw [makeBatchPlan] at hplan
  split at hplan
  · cases hplan
  split at hplan
  · cases hplan
  split at hplan
  · cases hplan
  split at hplan
  · cases hplan
  cases hplan
  obtain ⟨-, -, -, -, -, hstart⟩ := sample_texts
  rw [isBatch]
  simp only [String.toList_append, hstart, List.cons_append, List.head?_cons, decide_true]

theorem answer_plan {queries : List QueryDefinition} {plan : BatchPlan}
    (hplan : makeBatchPlan queries = some plan) :
    (sampleHost column).answer plan.sql = .arr [.obj combinedFields] := by
  show (printed column plan.sql).2 = _
  rw [printed, isBatch_plan hplan]
  rfl

theorem answer_daysQuery : (sampleHost column).answer daysQuery.sql =
    .arr [.obj [("days", .str "3")]] := by
  show (printed column daysQuery.sql).2 = _
  rw [printed, sample_queries.1, if_neg Bool.false_ne_true, if_pos rfl]

theorem answer_hoursQuery : (sampleHost column).answer (hoursQuery column h).sql =
    .arr [.obj [(column, .str "3")]] := by
  obtain ⟨-, hbatch, hne⟩ := sample_queries
  rw [sampleHost, hoursQuery]
  dsimp only
  rw [printed, hbatch, if_neg Bool.false_ne_true, if_neg hne]

theorem isSelected_sample {definition : QueryDefinition} {name : String} {index : Nat}
    (hcolumns : definition.batchColumns = [name])
    (hanswer : (sampleHost column).answer definition.sql = .arr [.obj [(name, .str "3")]])
    (hcount : Assoc.lookup (countAlias index) combinedFields = some (.str "1"))
    (hvalue : Assoc.lookup (valueAlias index 0) combinedFields = some (.str "3")) :
    IsSelected (tableOf ((sampleHost column).answer definition.sql))
      (queryAliases index definition) combinedFields := by
  rw [hanswer, queryAliases, hcolumns]
  have hone : "1" = toString 1 := rfl
  have hprints : PrintsCount (.str "1") 1 := Or.inr ⟨congrArg Json.str hone, by norm_num⟩
  refine ⟨⟨.str "1", hcount, hprints⟩, List.forall_mem_singleton.mpr ?_⟩
  rw [hvalue]
  show some (Json.str "3") = some (JsonObject.get [(name, .str "3")] name)
  rw [JsonObject.get, Assoc.lookup_cons_self]
  rfl

theorem expectedAliases_sample {first second : QueryDefinition} {name name' : String}
    (hcolumns : first.batchColumns = [name]) (hcolumns' : second.batchColumns = [name'])
    {plan : BatchPlan} (hplan : makeBatchPlan [first, second] = some plan) :
    expectedAliases plan = combinedFields.map Prod.fst := by
  have haliases : plan.aliases = [queryAliases 0 first, queryAliases 1 second] :=
    (makeBatchPlan_eq_some hplan).2.1
  rw [expectedAliases, haliases, queryAliases, queryAliases, hcolumns, hcolumns']
  exact sample_combined.1

/-- The combined row of two queries with one column each. -/
theorem combined_sample {first second : QueryDefinition} {name name' : String}
    (hcolumns : first.batchColumns = [name]) (hcolumns' : second.batchColumns = [name'])
    (hfirst : (sampleHost column).answer first.sql = .arr [.obj [(name, .str "3")]])
    (hsecond : (sampleHost column).answer second.sql = .arr [.obj [(name', .str "3")]])
    {plan : BatchPlan} (hplan : makeBatchPlan [first, second] = some plan) :
    ∃ fields : JsonObject, (sampleHost column).answer plan.sql = .arr [.obj fields] ∧
      (fields.map Prod.fst).Nodup ∧ (∀ field ∈ fields, field.1 ∈ expectedAliases plan) ∧
      ∀ e ∈ [first, second].zip plan.aliases,
        IsSelected (tableOf ((sampleHost column).answer e.1.sql)) e.2 fields := by
  have haliases : plan.aliases = [queryAliases 0 first, queryAliases 1 second] :=
    (makeBatchPlan_eq_some hplan).2.1
  obtain ⟨-, hnodup, -, -, ⟨hcount, hvalue⟩, hcount', hvalue'⟩ := sample_combined
  refine ⟨combinedFields, answer_plan hplan, hnodup, fun field hfield => ?_, ?_⟩
  · rw [expectedAliases_sample hcolumns hcolumns' hplan]
    exact List.mem_map_of_mem hfield
  · rw [haliases]
    exact List.forall_mem_cons.mpr ⟨isSelected_sample hcolumns hfirst hcount hvalue,
      List.forall_mem_singleton.mpr (isSelected_sample hcolumns' hsecond hcount' hvalue')⟩

theorem relational_sample : (sampleAdapter column h).Relational (sampleHost column) := by
  refine ⟨fun count => Nat.toInt?_repr count, fun definition hmem _ => ?_,
    fun queries hmem hunique plan hplan => ?_⟩
  · simp only [sampleAdapter, List.mem_cons, List.not_mem_nil, or_false] at hmem
    rcases hmem with rfl | rfl
    · exact ⟨[[("days", .str "3")]], answer_daysQuery,
        List.forall_mem_singleton.mpr (List.Perm.refl _)⟩
    · exact ⟨[[(column, .str "3")]], answer_hoursQuery,
        List.forall_mem_singleton.mpr (List.Perm.refl _)⟩
  · have hlength : queries.length ≤ [daysQuery, hoursQuery column h].length :=
      hunique.length_le_of_subset fun definition hdefinition => hmem definition hdefinition
    match queries, hlength with
    | [], _ => cases hplan
    | [_], _ => cases hplan
    | [first, second], _ =>
      have hne : first ≠ second := fun heq => by simp [heq] at hunique
      have hfirst := hmem first List.mem_cons_self
      have hsecond := hmem second (List.mem_cons_of_mem _ List.mem_cons_self)
      simp only [sampleAdapter, List.mem_cons, List.not_mem_nil, or_false] at hfirst hsecond
      rcases hfirst with rfl | rfl
      · rcases hsecond with rfl | rfl
        · exact absurd rfl hne
        · exact combined_sample rfl rfl answer_daysQuery answer_hoursQuery hplan
      · rcases hsecond with rfl | rfl
        · exact combined_sample rfl rfl answer_hoursQuery answer_daysQuery hplan
        · exact absurd rfl hne

/-! ### Its runs -/

theorem prepare_sample (slow : Bool) : Interleaved ((sampleAdapter column h).step
    (sampleEnv column slow)) [(sampleAdapter column h).prepare ["days", "hours"] none] {}
    [.units [daysQuery, hoursQuery column h] [] (batchUnits [daysQuery, hoursQuery column h])] {} := by
  have hvalidate : ["days", "hours"].mapM (sampleAdapter column h).validateInput =
      some [daysQuery, hoursQuery column h] := by
    refine mapM_eq_some.mpr (.cons ?_ (.cons ?_ .nil))
    · exact List.find?_cons_of_pos (decide_eq_true rfl)
    · have hne : daysQuery.identifier ≠ "hours" := by decide
      rw [validateInput, sampleAdapter, List.find?_cons_of_neg (by rwa [decide_eq_true_iff])]
      exact List.find?_cons_of_pos (decide_eq_true rfl)
  have hcached : ∀ executable, cached daysQuery executable = pure none ∧
      cached (hoursQuery column h) executable = pure none := by
    intro executable
    exact ⟨if_pos (le_refl (0 : ℚ)), if_pos (le_refl (0 : ℚ))⟩
  rw [prepare, if_neg, if_neg, hvalidate]
  · refine Interleaved.call (show (sampleAdapter column h).step (sampleEnv column slow) .find {}
      (some "osqueryi") {} from ⟨rfl, rfl⟩) ?_
    show Interleaved _ [splitCached "osqueryi" [daysQuery, hoursQuery column h] >>= fun split =>
      pure (Prepared.units [daysQuery, hoursQuery column h] split.1 (batchUnits split.2))] _ _ _
    rw [splitCached, (hcached "osqueryi").1, splitCached, (hcached "osqueryi").2]
    exact .finished [_] _
  · exact not_not.mpr (by decide)
  · rintro (hempty | hlength)
    · cases hempty
    · exact absurd hlength (by show ¬ 2 > 2; omega)

theorem batchUnits_sample {plan : BatchPlan}
    (hplan : makeBatchPlan [daysQuery, hoursQuery column h] = some plan) :
    batchUnits [daysQuery, hoursQuery column h] = [[daysQuery, hoursQuery column h]] := by
  have hfirst : Units.add {} daysQuery = ⟨[], [daysQuery]⟩ := rfl
  have hsecond : Units.add ⟨[], [daysQuery]⟩ (hoursQuery column h) =
      ⟨[], [daysQuery, hoursQuery column h]⟩ := by
    have hbatchable : isBatchable (hoursQuery column h) = true :=
      decide_eq_true ⟨rfl, List.cons_ne_nil _ _⟩
    rw [Units.add, hbatchable, if_neg (by decide)]
    dsimp only
    rw [if_neg]
    · rfl
    · rintro ⟨-, hnone⟩
      simp [hplan] at hnone
  rw [batchUnits, List.foldl_cons, List.foldl_cons, List.foldl_nil, hfirst, hsecond]
  rfl

/-- A run that the batch decides. -/
theorem run_sample (slow : Bool) {plan : BatchPlan}
    (hplan : makeBatchPlan [daysQuery, hoursQuery column h] = some plan) {first second : Execution}
    (hexecuted : Interleaved ((sampleAdapter column h).step (sampleEnv column slow))
      [(sampleAdapter column h).executeBatch plan none] {}
      [some [(daysQuery, first), (hoursQuery column h, second)]] {}) :
    (sampleAdapter column h).RunRegistered (sampleEnv column slow) ["days", "hours"] none none {}
      (.ok [("days", first), ("hours", second)]) {} := by
  have hfirst : Interleaved ((sampleAdapter column h).step (sampleEnv column slow))
      [(sampleAdapter column h).executeUnit none none [daysQuery, hoursQuery column h]] {}
      [[(daysQuery, first), (hoursQuery column h, second)]] {} := by
    rw [executeUnit_of_plan hplan]
    exact hexecuted.bind (.done _ _)
  have hmapM : Interleaved ((sampleAdapter column h).step (sampleEnv column slow))
      [[[daysQuery, hoursQuery column h]].mapM ((sampleAdapter column h).executeUnit none none)] {}
      [[[(daysQuery, first), (hoursQuery column h, second)]]] {} := by
    rw [List.mapM_cons]
    exact hfirst.bind (.done _ _)
  have hworkers : min (sampleAdapter column h).maxConcurrency
      (batchUnits [daysQuery, hoursQuery column h]).length ≤ 1 := by
    rw [batchUnits_sample hplan]
    exact min_le_right _ _
  rw [← batchUnits_sample hplan] at hmapM
  exact .sequential (prepare_sample slow) hworkers hmapM

/-- What osquery makes of the batch. -/
def batchResult (slow : Bool) : CommandResult where
  returncode := some 0
  stdout := batchText
  timedOut := slow

theorem run_batch (slow : Bool) {queries : List QueryDefinition} {plan : BatchPlan}
    (hplan : makeBatchPlan queries = some plan) :
    sampleEnv column slow (.run "osqueryi" plan.sql none) (.finished (batchResult slow)) := by
  show RunOutcome.finished _ = .finished { returncode := some 0, stdout := (printed column plan.sql).1
                                           timedOut := slow && isBatch plan.sql }
  rw [printed, isBatch_plan hplan, Bool.and_true]
  rfl

/-- A batch that times out fails all of its queries. -/
theorem slow_batch {plan : BatchPlan}
    (hplan : makeBatchPlan [daysQuery, hoursQuery column h] = some plan) : ∃ first second,
    Interleaved ((sampleAdapter column h).step (sampleEnv column true))
        [(sampleAdapter column h).executeBatch plan none] {}
        [some [(daysQuery, first), (hoursQuery column h, second)]] {} ∧
      (first.status, first.payload) = (.timeout, none) ∧
      (second.status, second.payload) = (.timeout, none) := by
  have hfailed : ∃ first second,
      failedBatch plan (batchResult true) "osquery batched execution timed out" =
        [(daysQuery, first), (hoursQuery column h, second)] ∧
      (first.status, first.payload) = (.timeout, none) ∧
      (second.status, second.payload) = (.timeout, none) := by
    rw [failedBatch, (makeBatchPlan_eq_some hplan).1]
    exact ⟨_, _, rfl, rfl, rfl⟩
  obtain ⟨first, second, hfailed, hstatuses⟩ := hfailed
  refine ⟨first, second, ?_, hstatuses⟩
  rw [← hfailed]
  exact executeBatch_timedOut rfl (run_batch true hplan) rfl {}

theorem parseRow_of_toOption {item : Json} {row : Row} (hrow : (parseRow item).toOption = some row) :
    parseRow item = .ok row := by
  cases hread : parseRow item with
  | error message =>
    rw [hread] at hrow
    cases hrow
  | ok row' =>
    rw [hread] at hrow
    exact congrArg Except.ok (Option.some_inj.mp hrow)

theorem alone_of_row {definition : QueryDefinition} {item : Json} {row : Row}
    (hanswer : (sampleHost column).answer definition.sql = .arr [item])
    (hrow : (parseRow item).toOption = some row) :
    alone (sampleHost column) definition = some [row] := by
  refine alone_eq_some.mpr ⟨?_, definition.rows_range.1⟩
  rw [hanswer]
  exact mapM_eq_ok.mpr (.cons (parseRow_of_toOption hrow) .nil)

theorem payload_of_count {adapter : OsqueryAdapter} (plan : BatchPlan) (result : CommandResult)
    {combined : Row} (definition : QueryDefinition) (aliases : String × List (String × String))
    (hcount : adapter.batchCount (combined.get aliases.1) = some 1) : ∃ execution,
      adapter.batchedExecution plan result combined definition aliases = some execution ∧
        execution.payload = some [aliases.2.map fun e => (e.1, combined.get e.2)] := by
  rw [batchedExecution, hcount]
  exact ⟨_, rfl, rfl⟩

/-- The two queries have the value of the combined row under the names of their columns. -/
theorem batchedExecutions_sample {plan : BatchPlan}
    (hplan : makeBatchPlan [daysQuery, hoursQuery column h] = some plan) : ∃ first second,
    (sampleAdapter column h).batchedExecutions plan (batchResult false) =
        some [(daysQuery, first), (hoursQuery column h, second)] ∧
      first.payload = some [[("days", .str "3")]] ∧ second.payload = some [[(column, .str "3")]] := by
  obtain ⟨-, hlength, -⟩ := sample_texts
  obtain ⟨-, -, hhas, hrow, ⟨hcount, hvalue⟩, hcount', hvalue'⟩ := sample_combined
  have hparse : (sampleAdapter column h).parse batchText = .ok [combinedFields] := by
    exact parse_eq_ok.mpr ⟨hlength, _, loads_batchText,
      mapM_eq_ok.mpr (.cons (parseRow_of_toOption hrow) .nil)⟩
  have hexpected : hasExpected plan combinedFields = true := by
    have hnames : (plan.aliases.flatMap fun e => e.1 :: e.2.map Prod.snd) = _ :=
      expectedAliases_sample rfl rfl hplan
    rw [hasExpected, hnames]
    exact decide_eq_true ⟨fun field hfield => List.mem_map_of_mem hfield, hhas⟩
  have hone : (sampleAdapter column h).batchCount (.str "1") = some 1 := by
    have hread : (sampleAdapter column h).library.int "1" = some 1 := Nat.toInt?_repr 1
    rw [batchCount_of_int hread]
    rfl
  have hget : ∀ {name value : String}, Assoc.lookup name combinedFields = some (.str value) →
      combinedFields.get name = .str value := fun hlookup => by rw [JsonObject.get, hlookup]; rfl
  replace hcount := hget hcount
  replace hcount' := hget hcount'
  replace hvalue := hget hvalue
  replace hvalue' := hget hvalue'
  obtain ⟨first, hfirst, hpayload⟩ := payload_of_count plan (batchResult false) daysQuery
    (queryAliases 0 daysQuery) ((congrArg _ hcount).trans hone)
  obtain ⟨second, hsecond, hpayload'⟩ := payload_of_count plan (batchResult false)
    (hoursQuery column h) (queryAliases 1 (hoursQuery column h)) ((congrArg _ hcount').trans hone)
  have haliases : plan.aliases = [queryAliases 0 daysQuery, queryAliases 1 (hoursQuery column h)] :=
    (makeBatchPlan_eq_some hplan).2.1
  refine ⟨first, second, ?_, ?_, ?_⟩
  · rw [batchedExecutions, show (batchResult false).stdout = batchText from rfl, hparse]
    dsimp only
    rw [if_pos hexpected, (makeBatchPlan_eq_some hplan).1, haliases]
    refine mapM_eq_some.mpr (.cons ?_ (.cons ?_ .nil))
    · rw [hfirst]
      rfl
    · rw [hsecond]
      rfl
  · rw [hpayload]
    exact congrArg (fun value => some [[("days", value)]]) hvalue
  · rw [hpayload']
    exact congrArg (fun value => some [[(column, value)]]) hvalue'

theorem fast_batch {plan : BatchPlan}
    (hplan : makeBatchPlan [daysQuery, hoursQuery column h] = some plan) {first second : Execution}
    (hexecutions : (sampleAdapter column h).batchedExecutions plan (batchResult false) =
      some [(daysQuery, first), (hoursQuery column h, second)]) :
    Interleaved ((sampleAdapter column h).step (sampleEnv column false))
      [(sampleAdapter column h).executeBatch plan none] {}
      [some [(daysQuery, first), (hoursQuery column h, second)]] {} := by
  have hfresh : ∀ e ∈ [(daysQuery, first), (hoursQuery column h, second)],
      e.1.cacheTtlSeconds ≤ 0 :=
    List.forall_mem_cons.mpr ⟨le_refl (0 : ℚ), List.forall_mem_singleton.mpr (le_refl (0 : ℚ))⟩
  exact executeBatch_succeeded rfl (run_batch false hplan) rfl rfl rfl hexecutions hfresh {}

end

theorem hours_valid : isSqlIdentifier "hours" = true := by decide +kernel

theorem distinct_hours : Distinct "hours" :=
  distinct_of_head sample_texts.2.2.2.2.1 (by decide)

theorem shortColumns_hours : (sampleAdapter "hours" hours_valid).ShortColumns := by
  have hlengths : ∀ definition ∈ [daysQuery, hoursQuery "hours" hours_valid],
      ∀ column ∈ definition.batchColumns, column.length ≤ 128 := by
    refine List.forall_mem_cons.mpr ⟨List.forall_mem_singleton.mpr (by decide),
      List.forall_mem_singleton.mpr (List.forall_mem_singleton.mpr (by decide))⟩
  exact hlengths

/-- A name that `clean_text` cuts. -/
def longColumn : String := String.ofList (List.replicate 129 'v')

theorem longColumn_valid : isSqlIdentifier longColumn = true := by decide +kernel

theorem distinct_longColumn : Distinct longColumn := by
  have htext : longColumn.toList = List.replicate 129 'v' := String.toList_ofList
  have hhead : (List.replicate 129 'v').head? = some 'v' := by decide
  exact distinct_of_head ((congrArg List.head? htext).trans hhead) (by decide)

end OsqueryAdapter

end OsScanner.Tools

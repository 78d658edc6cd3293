import Mathlib
import OsScanner.Tools.OsqueryBatches
import OsScanner.Lib.Text

/-!
# The tasks of a run

The cache of an adapter holds only what its queries report on their own. Each task of a run
therefore reports what the queries it is about report on their own.
-/

namespace OsScanner.Tools

open Lib Lib.Check Storage

namespace OsqueryAdapter

/-! ## The cache -/

section

variable (adapter : OsqueryAdapter) (host : Host)

/-- What may be stored under a key. -/
def Trusted (key : CacheKey) (execution : Execution) : Prop :=
  execution.status = .success ∧ ∀ definition ∈ adapter.queries, ∀ fingerprint,
    key = cacheKey definition fingerprint → Sound host definition execution

def CacheTrusted (cache : Cache) : Prop :=
  ∀ e ∈ cache.entries, adapter.Trusted host e.1 e.2.execution

/-- The answers that the operations of a run get. -/
def legal (env : ∀ op, Answer op → Prop) : ∀ op, Answer op → Prop
  | .lookup key _, found => ∀ execution, found = some execution → adapter.Trusted host key execution
  | .store _ _, _ => True
  | .find, answer => env .find answer
  | .fingerprint executable, answer => env (.fingerprint executable) answer
  | .clock, answer => env .clock answer
  | .run executable sql timeout, answer => env (.run executable sql timeout) answer

/-- A run stores only what is sound. -/
def Allowed : Op → Prop
  | .store key entry => adapter.Trusted host key entry.execution
  | _ => True

end

variable {adapter : OsqueryAdapter} {host : Host} {env : ∀ op, Answer op → Prop}

theorem identifier_of_cacheKey {definition definition' : QueryDefinition}
    {fingerprint fingerprint' : String}
    (h : cacheKey definition fingerprint = cacheKey definition' fingerprint') :
    definition.identifier = definition'.identifier := by
  have hchars : ∀ definition : QueryDefinition,
      ∀ c ∈ definition.identifier.toList, isIdentifierChar c = true := by
    intro definition c hc
    have hvalid := definition.identifier_valid
    rw [isSqlIdentifier] at hvalid
    split at hvalid
    · cases hvalid
    next d rest hname =>
      simp only [Bool.and_eq_true, List.all_eq_true] at hvalid
      rw [hname] at hc
      rcases List.mem_cons.mp hc with rfl | hc
      · exact hvalid.1.1
      · exact hvalid.2 c hc
  have htext := congrArg (fun key : CacheKey => key.1.toList) h
  simp only [cacheKey, String.toList_append, List.append_assoc] at htext
  have hcolon : isIdentifierChar ':' = false := by decide
  exact String.toList_inj.mp (token_append_inj (hchars definition) (hchars definition')
    (delimited_cons.mpr hcolon) (delimited_cons.mpr hcolon) htext).1

theorem definition_of_cacheKey {definition definition' : QueryDefinition}
    (hmem : definition ∈ adapter.queries) (hmem' : definition' ∈ adapter.queries)
    {fingerprint fingerprint' : String}
    (h : cacheKey definition fingerprint = cacheKey definition' fingerprint') :
    definition = definition' :=
  List.inj_on_of_nodup_map adapter.queries_nodup hmem hmem' (identifier_of_cacheKey h)

theorem sound_copy {definition : QueryDefinition} {execution : Execution}
    (h : Sound host definition execution) (metadata : JsonObject) :
    Sound host definition (execution.copy metadata) := h

theorem trusted_of_sound {definition : QueryDefinition} (hmem : definition ∈ adapter.queries)
    {execution : Execution} (hsuccess : execution.status = .success)
    (h : Sound host definition execution) (fingerprint : String) :
    adapter.Trusted host (cacheKey definition fingerprint) execution := by
  refine ⟨hsuccess, fun definition' hmem' fingerprint' hkey => ?_⟩
  rwa [← definition_of_cacheKey hmem hmem' hkey]

theorem mem_of_mem_evict {maxEntries maxBytes : Nat} {e : CacheKey × CacheEntry}
    {entries : List (CacheKey × CacheEntry)} {bytes : Int}
    (h : e ∈ (evict maxEntries maxBytes entries bytes).entries) : e ∈ entries := by
  induction entries generalizing bytes with
  | nil => exact h
  | cons oldest rest ih =>
    rw [evict] at h
    split at h
    · exact List.mem_cons_of_mem _ (ih h)
    · exact h

theorem cacheTrusted_remove {cache : Cache} (h : adapter.CacheTrusted host cache)
    (drop : CacheKey × CacheEntry → Bool) : adapter.CacheTrusted host (cache.remove drop) :=
  fun e he => h e (List.mem_of_mem_filter he)

theorem cacheTrusted_lookup {cache cache' : Cache} {key : CacheKey} {now : ℚ}
    {found : Option Execution} (hcache : adapter.CacheTrusted host cache)
    (h : cache.lookup key now = (found, cache')) : adapter.CacheTrusted host cache' ∧
      ∀ execution, found = some execution → adapter.Trusted host key execution := by
  have hkept := cacheTrusted_remove hcache fun e => decide (e.2.expiresAt ≤ now)
  rw [Cache.lookup] at h
  split at h
  · cases h
    exact ⟨hkept, nofun⟩
  next entry hentry =>
    have htrusted := hkept _ (Assoc.mem_of_lookup hentry)
    cases h
    refine ⟨fun e he => ?_, fun execution hexecution => ?_⟩
    · rcases List.mem_append.mp he with he | he
      · exact cacheTrusted_remove hkept _ e he
      · rw [List.mem_singleton] at he
        exact he ▸ htrusted
    · exact Option.some_inj.mp hexecution ▸ htrusted

theorem cacheTrusted_store {cache : Cache} {key : CacheKey} {entry : CacheEntry}
    {maxEntries maxBytes : Nat} (hcache : adapter.CacheTrusted host cache)
    (hentry : adapter.Trusted host key entry.execution) :
    adapter.CacheTrusted host (cache.store maxEntries maxBytes key entry) := by
  intro e he
  rcases List.mem_append.mp (mem_of_mem_evict he) with he | he
  · exact cacheTrusted_remove hcache _ e he
  · rw [List.mem_singleton] at he
    exact he ▸ hentry

/-- What an operation does: the cache stays trusted, and the answer is legal. -/
theorem cacheTrusted_step (adapter : OsqueryAdapter) (host : Host) (env : ∀ op, Answer op → Prop)
    (op : Op) (cache : Cache) (answer : Answer op) (cache' : Cache)
    (hcache : adapter.CacheTrusted host cache) (hop : adapter.Allowed host op)
    (h : adapter.step env op cache answer cache') :
    adapter.CacheTrusted host cache' ∧ adapter.legal host env op answer := by
  cases op with
  | lookup key now => exact cacheTrusted_lookup hcache h
  | store key entry =>
    cases h
    exact ⟨cacheTrusted_store hcache hop, trivial⟩
  | find =>
    cases h.2
    exact ⟨hcache, h.1⟩
  | fingerprint executable =>
    cases h.2
    exact ⟨hcache, h.1⟩
  | clock =>
    cases h.2
    exact ⟨hcache, h.1⟩
  | run executable sql timeout =>
    cases h.2
    exact ⟨hcache, h.1⟩

/-! ## The tasks -/

/-- The task ends with such a value in every run. -/
abbrev Gives (adapter : OsqueryAdapter) (host : Host) (env : ∀ op, Answer op → Prop) {α : Type}
    (post : α → Prop) (task : Task α) : Prop :=
  task.Ensures (adapter.legal host env) (adapter.Allowed host) post

variable {deadlineAt : Option ℚ}

theorem gives_cached {definition : QueryDefinition} (hmem : definition ∈ adapter.queries)
    (executable : String) : Gives adapter host env (fun found => ∀ execution,
      found = some execution → Sound host definition execution ∧ execution.status = .success)
      (cached definition executable) := by
  rw [cached]
  split
  · exact fun execution hnone => nomatch hnone
  · refine Program.ensures_request trivial fun fingerprint _ => ?_
    refine Program.ensures_request trivial fun now _ => ?_
    refine Program.ensures_request trivial fun found hfound => ?_
    intro execution hexecution
    obtain ⟨stored, hstored, rfl⟩ := Option.map_eq_some_iff.mp hexecution
    obtain ⟨hsuccess, hsound⟩ := hfound stored hstored
    exact ⟨hsound definition hmem fingerprint rfl, hsuccess⟩

theorem gives_storeCached {definition : QueryDefinition} (hmem : definition ∈ adapter.queries)
    {execution : Execution} (h : Sound host definition execution) (executable : String) :
    Gives adapter host env (fun _ => True) (adapter.storeCached definition executable execution) := by
  rw [storeCached]
  split
  · trivial
  next hstored =>
    rw [not_or, not_not] at hstored
    refine Program.ensures_request trivial fun fingerprint _ => ?_
    dsimp only
    split
    · trivial
    · refine Program.ensures_request trivial fun now _ => ?_
      exact ⟨trusted_of_sound hmem hstored.2 (sound_copy h [("cache_hit", .bool false)])
        fingerprint, fun _ _ => trivial⟩

theorem reports_of_success {definition : QueryDefinition} {execution : Execution}
    (h : Sound host definition execution) (hsuccess : execution.status = .success) :
    adapter.Reports host env deadlineAt definition execution := ⟨h, fun _ _ => hsuccess⟩

/-- A failure is right where osquery is not reliable. -/
theorem reports_of_failure {definition : QueryDefinition} {execution : Execution}
    (hfailed : execution.status ≠ .success) (h : ¬ adapter.Reliable host env deadlineAt) :
    adapter.Reports host env deadlineAt definition execution :=
  ⟨sound_of_status hfailed, fun hreliable => absurd hreliable h⟩

/-- A query on its own. -/
theorem gives_execute (htruth : adapter.Truthful host env) {definition : QueryDefinition}
    (hmem : definition ∈ adapter.queries) (timeoutSeconds : Option ℚ) :
    Gives adapter host env (adapter.Reports host env deadlineAt definition)
      (adapter.execute definition timeoutSeconds) := by
  rw [execute]
  refine Program.ensures_request trivial fun found hfound => ?_
  cases found with
  | none => exact reports_of_failure nofun fun hreliable => hreliable.find hfound
  | some executable =>
    refine (gives_cached hmem executable).bind fun hit hhit => ?_
    cases hit with
    | some execution => exact reports_of_success (hhit _ rfl).1 (hhit _ rfl).2
    | none =>
      refine Program.ensures_request trivial fun outcome houtcome => ?_
      have hquery := fun hreliable : adapter.Reliable host env deadlineAt =>
        hreliable.query definition hmem executable timeoutSeconds outcome houtcome
      cases outcome with
      | unavailable =>
        refine reports_of_failure nofun fun hreliable => ?_
        obtain ⟨result, hresult, -⟩ := hquery hreliable
        cases hresult
      | raised message =>
        refine reports_of_failure nofun fun hreliable => ?_
        obtain ⟨result, hresult, -⟩ := hquery hreliable
        cases hresult
      | finished result =>
        have hsound : Sound host definition (adapter.judge definition result) :=
          sound_judge (htruth executable definition.sql timeoutSeconds result houtcome)
        refine (gives_storeCached hmem hsound executable).bind fun _ _ => ?_
        refine ⟨hsound, fun hreliable halone => ?_⟩
        obtain ⟨rows, hrows⟩ := Option.ne_none_iff_exists'.mp halone
        obtain ⟨_, hresult, htime, hcode, hwhole, hlength, hloads⟩ := hquery hreliable
        cases hresult
        exact status_judge htime hcode hwhole hlength hloads hrows

/-- The deadline is not over where osquery is reliable. -/
theorem gives_remainingTimeout (timeoutSeconds : Option ℚ) : Gives adapter host env
    (fun timeout => timeout = none → ¬ adapter.Reliable host env deadlineAt)
    (remainingTimeout timeoutSeconds deadlineAt) := by
  rw [remainingTimeout.eq_def]
  cases deadlineAt with
  | none => exact nofun
  | some deadline =>
    refine Program.ensures_request trivial fun now hnow => ?_
    dsimp only
    split
    next hover =>
      intro _ hreliable
      have hearly := hreliable.clock now hnow deadline rfl
      linarith
    · exact nofun

theorem gives_executeWithBudget (htruth : adapter.Truthful host env) {definition : QueryDefinition}
    (hmem : definition ∈ adapter.queries) (timeoutSeconds : Option ℚ) :
    Gives adapter host env (adapter.Reports host env deadlineAt definition)
      (adapter.executeWithBudget timeoutSeconds deadlineAt definition) := by
  refine (gives_remainingTimeout timeoutSeconds).bind fun timeout htimeout => ?_
  cases timeout with
  | none => exact reports_of_failure nofun (htimeout rfl)
  | some timeout => exact gives_execute htruth hmem timeout

/-- Each query once, in order, with what it reports. -/
def ReportsAll (adapter : OsqueryAdapter) (host : Host) (env : ∀ op, Answer op → Prop)
    (deadlineAt : Option ℚ) (queries : List QueryDefinition)
    (outcomes : List (QueryDefinition × Execution)) : Prop :=
  outcomes.map Prod.fst = queries ∧ ∀ e ∈ outcomes, adapter.Reports host env deadlineAt e.1 e.2

theorem reportsAll_map {queries : List QueryDefinition} {execution : QueryDefinition → Execution}
    (h : ∀ definition, adapter.Reports host env deadlineAt definition (execution definition)) :
    adapter.ReportsAll host env deadlineAt queries
      (queries.map fun definition => (definition, execution definition)) := by
  constructor
  · rw [List.map_map]
    exact List.map_id _
  · intro e he
    obtain ⟨definition, -, rfl⟩ := List.mem_map.mp he
    exact h definition

theorem reportsAll_of_forall₂ {queries : List QueryDefinition}
    {outcomes : List (QueryDefinition × Execution)}
    (h : List.Forall₂ (fun definition e => e.1 = definition ∧
      adapter.Reports host env deadlineAt definition e.2) queries outcomes) :
    adapter.ReportsAll host env deadlineAt queries outcomes := by
  constructor
  · have hfst := List.forall₂_map_right_iff.mpr
      (h.imp fun definition e he => (he.1.symm : definition = e.1))
    rw [List.forall₂_eq_eq_eq] at hfst
    exact hfst.symm
  · intro e he
    obtain ⟨definition, -, rfl, hreports⟩ := exists_of_mem_right h he
    exact hreports

/-- A batch that fails leaves each of its queries to a run on its own. -/
theorem gives_fallBack (htruth : adapter.Truthful host env) {unit : List QueryDefinition}
    (hunit : ∀ definition ∈ unit, definition ∈ adapter.queries) (timeoutSeconds : Option ℚ) :
    Gives adapter host env (adapter.ReportsAll host env deadlineAt unit)
      (adapter.fallBack timeoutSeconds deadlineAt unit) := by
  refine (Program.ensures_mapM fun definition hmem => ?_).mono
    fun outcomes houtcomes => reportsAll_of_forall₂ houtcomes
  exact (gives_executeWithBudget htruth (hunit definition hmem) timeoutSeconds).bind
    fun execution hexecution => ⟨rfl, hexecution⟩

theorem gives_executeBatch (deadlineAt : Option ℚ) (hshort : adapter.ShortColumns) (hrel : adapter.Relational host)
    (htruth : adapter.Truthful host env) {unit : List QueryDefinition}
    (hunit : ∀ definition ∈ unit, definition ∈ adapter.queries) (hunique : unit.Nodup)
    {plan : BatchPlan} (hplan : makeBatchPlan unit = some plan) (timeoutSeconds : Option ℚ) :
    Gives adapter host env (fun batched => ∀ executions, batched = some executions →
      adapter.ReportsAll host env deadlineAt unit executions)
      (adapter.executeBatch plan timeoutSeconds) := by
  rw [executeBatch]
  refine Program.ensures_request trivial fun found _ => ?_
  cases found with
  | none => exact fun executions hnone => nomatch hnone
  | some executable =>
    refine Program.ensures_request trivial fun outcome houtcome => ?_
    cases outcome with
    | unavailable => exact fun executions hnone => nomatch hnone
    | raised message => exact fun executions hnone => nomatch hnone
    | finished result =>
      have hfailed : ∀ error, ¬ adapter.Reliable host env deadlineAt →
          adapter.ReportsAll host env deadlineAt unit (failedBatch plan result error) := by
        intro error hnot
        rw [failedBatch, (makeBatchPlan_eq_some hplan).1]
        exact reportsAll_map fun definition =>
          reports_of_failure (failure_status definition result error) hnot
      have hbatch := fun hreliable : adapter.Reliable host env deadlineAt =>
        hreliable.batch executable plan.sql timeoutSeconds result houtcome
      dsimp only
      split
      next htime =>
        intro executions hexecutions
        cases hexecutions
        exact hfailed _ fun hreliable => by simp [(hbatch hreliable).1] at htime
      next htime =>
      split
      · exact fun executions hnone => nomatch hnone
      next hcode =>
      rw [not_not] at hcode
      split
      next htruncated =>
        intro executions hexecutions
        cases hexecutions
        exact hfailed _ fun hreliable => by simp [(hbatch hreliable).2 hcode] at htruncated
      next hwhole =>
      split
      · exact fun executions hnone => nomatch hnone
      next executions hexecutions =>
        have hsound := sound_batchedExecutions hshort hrel hunit hunique hplan
          (htruth executable plan.sql timeoutSeconds result houtcome (Bool.not_eq_true _ ▸ htime)
            hcode (Bool.not_eq_true _ ▸ hwhole)) hexecutions
        have hstored : ∀ e ∈ executions, Gives adapter host env (fun _ => True)
            (adapter.storeCached e.1 executable e.2) := by
          intro e he
          have hmem : e.1 ∈ unit := hsound.1 ▸ List.mem_map_of_mem he
          exact gives_storeCached (hunit _ hmem) (hsound.2 e he).1 executable
        refine (Program.ensures_mapM hstored).bind fun _ _ => ?_
        intro executions' hexecutions'
        cases hexecutions'
        exact ⟨hsound.1, fun e he => reports_of_success (hsound.2 e he).1 (hsound.2 e he).2⟩

/-- A unit reports each of its queries once, whether its batch succeeds or fails. -/
theorem gives_executeUnit (hshort : adapter.ShortColumns) (hrel : adapter.Relational host)
    (htruth : adapter.Truthful host env) {unit : List QueryDefinition}
    (hunit : ∀ definition ∈ unit, definition ∈ adapter.queries) (hunique : unit.Nodup)
    (timeoutSeconds : Option ℚ) :
    Gives adapter host env (adapter.ReportsAll host env deadlineAt unit)
      (adapter.executeUnit timeoutSeconds deadlineAt unit) := by
  rw [executeUnit.eq_def]
  split
  next definition =>
    refine (gives_executeWithBudget htruth (hunit definition List.mem_cons_self)
      timeoutSeconds).bind fun execution hexecution => ?_
    exact ⟨rfl, List.forall_mem_singleton.mpr hexecution⟩
  next unit _ =>
    refine (gives_remainingTimeout timeoutSeconds).bind fun timeout htimeout => ?_
    cases timeout with
    | none => exact reportsAll_map fun definition => reports_of_failure nofun (htimeout rfl)
    | some timeout =>
      dsimp only
      split
      · exact gives_fallBack htruth hunit timeoutSeconds
      next plan hplan =>
        refine (gives_executeBatch deadlineAt hshort hrel htruth hunit hunique hplan timeout).bind
          fun batched hbatched => ?_
        cases batched with
        | none => exact gives_fallBack htruth hunit timeoutSeconds
        | some executions => exact hbatched executions rfl

end OsqueryAdapter

end OsScanner.Tools

import Mathlib
import OsScanner.Tools.Osquery

/-!
# Batched queries

A batch reports for each of its queries the rows that the query has on its own, given that osquery
evaluates the combined statement as SQL says. Whatever the cache holds and however the units are
interleaved, a run reports every selected query once, in the order of the selection.
-/

namespace OsScanner.Tools

open Lib Lib.Check Storage

/-! ## The host -/

/-- What osquery prints for a statement, as the decoded document. -/
structure Host where
  answer : String → Json

/-- The rows of a printed table. -/
def tableOf (document : Json) : List Row :=
  match document with
  | .arr items => items.filterMap Json.asObject?
  | _ => []

/-- How `COUNT(*)` is printed: SQLite counts up to `2^63`. -/
def PrintsCount (value : Json) (count : Nat) : Prop :=
  value = .int count ∨ (value = .str (toString count) ∧ count < 2 ^ 63)

namespace OsqueryAdapter

variable (adapter : OsqueryAdapter) (host : Host)

/-- The fields that a combined row has for one query. -/
structure IsSelected (table : List Row) (aliases : String × List (String × String))
    (fields : JsonObject) : Prop where
  count : ∃ value, Assoc.lookup aliases.1 fields = some value ∧ PrintsCount value table.length
  /-- A scalar subquery has the value of the first row, or is null. -/
  value : ∀ e ∈ aliases.2, Assoc.lookup e.2 fields =
    some ((table.head?.map fun row => JsonObject.get row e.1).getD .null)

def expectedAliases (plan : BatchPlan) : List String :=
  plan.aliases.flatMap fun e => e.1 :: e.2.map Prod.snd

/-- The relational meaning of the statements: a batch of common table expressions selects from the
tables of its queries. -/
structure Relational : Prop where
  int_count : ∀ count : Nat, adapter.library.int (toString count) = some (count : Int)
  /-- The declared columns of a query are its columns. -/
  table : ∀ definition ∈ adapter.queries, definition.batchColumns ≠ [] → ∃ rows : List Row,
    host.answer definition.sql = .arr (rows.map .obj) ∧
      ∀ row ∈ rows, (row.map Prod.fst).Perm definition.batchColumns
  combined : ∀ queries, (∀ definition ∈ queries, definition ∈ adapter.queries) → queries.Nodup →
    ∀ plan, makeBatchPlan queries = some plan → ∃ fields : JsonObject,
      host.answer plan.sql = .arr [.obj fields] ∧ (fields.map Prod.fst).Nodup ∧
      (∀ field ∈ fields, field.1 ∈ expectedAliases plan) ∧
      ∀ e ∈ queries.zip plan.aliases, IsSelected (tableOf (host.answer e.1.sql)) e.2 fields

/-- The columns have names that `clean_text` leaves alone. -/
def ShortColumns : Prop :=
  ∀ definition ∈ adapter.queries, ∀ column ∈ definition.batchColumns, column.length ≤ 128

/-- What osquery prints in full is its answer, or no JSON. -/
def Truthful (env : ∀ op, Answer op → Prop) : Prop :=
  ∀ executable sql timeout result, env (.run executable sql timeout) (.finished result) →
    result.timedOut = false → result.returncode = some 0 → result.stdoutTruncated = false →
    ∀ document, adapter.library.loads result.stdout = .ok document → document = host.answer sql

/-- osquery answers each query on its own before the deadline, and a batch neither times out nor
prints too much. -/
structure Reliable (env : ∀ op, Answer op → Prop) (deadlineAt : Option ℚ) : Prop where
  find : ¬ env .find none
  clock : ∀ now, env .clock now → ∀ deadline ∈ deadlineAt, now < deadline
  query : ∀ definition ∈ adapter.queries, ∀ executable timeout outcome,
    env (.run executable definition.sql timeout) outcome → ∃ result, outcome = .finished result ∧
      result.timedOut = false ∧ result.returncode = some 0 ∧ result.stdoutTruncated = false ∧
      result.stdout.length ≤ adapter.maxOutputBytes ∧
      adapter.library.loads result.stdout = .ok (host.answer definition.sql)
  batch : ∀ executable sql timeout result, env (.run executable sql timeout) (.finished result) →
    result.timedOut = false ∧ (result.returncode = some 0 → result.stdoutTruncated = false)

/-! ## The statements -/

/-- The rows of a query that runs on its own. -/
def alone (definition : QueryDefinition) : Option (List Row) :=
  match parseDocument (host.answer definition.sql) with
  | .ok rows => if rows.length ≤ definition.maximumRows then some rows else none
  | .error _ => none

/-- The same rows, as dictionaries. -/
def SameRows (rows rows' : List Row) : Prop :=
  List.Forall₂ (fun row row' => ∀ name, Assoc.lookup name row = Assoc.lookup name row') rows rows'

/-- A success reports the rows of the query on its own. -/
def Sound (definition : QueryDefinition) (execution : Execution) : Prop :=
  execution.status = .success → ∃ rows payload, alone host definition = some rows ∧
    execution.payload = some payload ∧ SameRows payload rows

/-- Sound, and a success where osquery is reliable and answers the query. -/
def Reports (env : ∀ op, Answer op → Prop) (deadlineAt : Option ℚ) (definition : QueryDefinition)
    (execution : Execution) : Prop :=
  Sound host definition execution ∧
    (adapter.Reliable host env deadlineAt → alone host definition ≠ none → execution.status = .success)

/-- What a run owes to the selection. -/
structure Reported (env : ∀ op, Answer op → Prop) (deadlineAt : Option ℚ) (queryIds : List String)
    (outcomes : List (String × Execution)) : Prop where
  selection : outcomes.map Prod.fst = queryIds
  rows : ∀ e ∈ outcomes, ∃ definition ∈ adapter.queries, definition.identifier = e.1 ∧
    adapter.Reports host env deadlineAt definition e.2

/-- The selections that are refused. -/
def Refused (queryIds : List String) : Prop :=
  queryIds = [] ∨ queryIds.length > adapter.queries.length ∨ ¬ queryIds.Nodup ∨
    ∃ queryId ∈ queryIds, ∀ definition ∈ adapter.queries, definition.identifier ≠ queryId

end OsqueryAdapter

/-! ## Units -/

namespace OsqueryAdapter

theorem flatten_flush (state : Units) :
    state.flush.units.flatten ++ state.flush.pending = state.units.flatten ++ state.pending := by
  rw [Units.flush]
  split
  · rfl
  · rw [List.flatten_append, List.flatten_singleton, List.append_nil]

theorem pending_flush (state : Units) : state.flush.pending = [] := by
  rw [Units.flush]
  split
  · assumption
  · rfl

theorem flatten_add (state : Units) (definition : QueryDefinition) :
    (state.add definition).units.flatten ++ (state.add definition).pending =
      state.units.flatten ++ state.pending ++ [definition] := by
  have hflush := flatten_flush state
  rw [pending_flush, List.append_nil] at hflush
  rw [Units.add]
  split
  · rw [pending_flush, List.append_nil, List.flatten_append, List.flatten_singleton, hflush]
  · dsimp only
    split
    · rw [hflush]
    · rw [List.append_assoc]

/-- The batching keeps the order of the queries and loses none. -/
theorem flatten_batchUnits (queries : List QueryDefinition) : (batchUnits queries).flatten = queries := by
  have hfold : ∀ state : Units, (queries.foldl Units.add state).units.flatten ++
      (queries.foldl Units.add state).pending = state.units.flatten ++ state.pending ++ queries := by
    induction queries with
    | nil => exact fun state => (List.append_nil _).symm
    | cons definition rest ih =>
      intro state
      rw [List.foldl_cons, ih, flatten_add, List.append_assoc _ _ rest, List.singleton_append]
  have hflush := flatten_flush (queries.foldl Units.add {})
  rw [pending_flush, List.append_nil, hfold] at hflush
  rw [batchUnits, hflush]
  rfl

/-- A unit with more than one query has a plan. -/
def Planned (unit : List QueryDefinition) : Prop := unit.length = 1 ∨ (makeBatchPlan unit).isSome

theorem planned_add {state : Units} (hunits : ∀ unit ∈ state.units, Planned unit)
    (hpending : state.pending = [] ∨ Planned state.pending) (definition : QueryDefinition) :
    (∀ unit ∈ (state.add definition).units, Planned unit) ∧
      ((state.add definition).pending = [] ∨ Planned (state.add definition).pending) := by
  have hflush : ∀ unit ∈ state.flush.units, Planned unit := by
    rw [Units.flush]
    split
    · exact hunits
    next hne =>
      exact List.forall_mem_append.mpr
        ⟨hunits, List.forall_mem_singleton.mpr (hpending.resolve_left hne)⟩
  rw [Units.add]
  split
  · exact ⟨List.forall_mem_append.mpr ⟨hflush, List.forall_mem_singleton.mpr (Or.inl rfl)⟩,
      Or.inl (pending_flush state)⟩
  · dsimp only
    split
    · exact ⟨hflush, Or.inr (Or.inl rfl)⟩
    next hfits =>
      refine ⟨hunits, Or.inr ?_⟩
      rw [not_and, Bool.not_eq_true, Option.isNone_eq_false_iff] at hfits
      by_cases hlength : (state.pending ++ [definition]).length > 1
      · exact Or.inr (hfits hlength)
      · refine Or.inl ?_
        rw [List.length_append, List.length_singleton] at hlength ⊢
        omega

theorem planned_of_mem_batchUnits {queries unit : List QueryDefinition}
    (h : unit ∈ batchUnits queries) : Planned unit := by
  have hfold : ∀ state : Units, (∀ unit ∈ state.units, Planned unit) →
      (state.pending = [] ∨ Planned state.pending) →
      (∀ unit ∈ (queries.foldl Units.add state).units, Planned unit) ∧
        ((queries.foldl Units.add state).pending = [] ∨
          Planned (queries.foldl Units.add state).pending) := by
    clear h
    induction queries with
    | nil => exact fun state hunits hpending => ⟨hunits, hpending⟩
    | cons definition rest ih =>
      intro state hunits hpending
      have hadd := planned_add hunits hpending definition
      exact ih _ hadd.1 hadd.2
  obtain ⟨hunits, hpending⟩ := hfold {} nofun (Or.inl rfl)
  rw [batchUnits, Units.flush] at h
  split at h
  · exact hunits unit h
  next hne =>
    rcases List.mem_append.mp h with h | h
    · exact hunits unit h
    · rw [List.mem_singleton] at h
      exact h ▸ hpending.resolve_left hne

theorem nodup_of_mem_batchUnits {queries unit : List QueryDefinition} (hunique : queries.Nodup)
    (h : unit ∈ batchUnits queries) : unit.Nodup := by
  rw [← flatten_batchUnits queries] at hunique
  exact (List.nodup_flatten.mp hunique).1 unit h

theorem mem_of_mem_batchUnits {queries unit : List QueryDefinition} (h : unit ∈ batchUnits queries)
    {definition : QueryDefinition} (hmem : definition ∈ unit) : definition ∈ queries := by
  rw [← flatten_batchUnits queries]
  exact List.mem_flatten.mpr ⟨unit, h, hmem⟩

/-! ## Plans -/

theorem makeBatchPlan_eq_some {queries : List QueryDefinition} {plan : BatchPlan}
    (h : makeBatchPlan queries = some plan) :
    plan.queries = queries ∧ plan.aliases = queries.zipIdx.map (fun e => queryAliases e.2 e.1) ∧
      (∀ definition ∈ queries, definition.maximumRows = 1 ∧ definition.batchColumns ≠ []) ∧
      (queries.zipIdx.flatMap fun e => selections e.2 e.1).length ≤ 120 := by
  rw [makeBatchPlan] at h
  split at h
  · cases h
  split at h
  · cases h
  next hbatchable =>
  split at h
  · cases h
  split at h
  · cases h
  next hfields =>
  cases h
  refine ⟨rfl, rfl, fun definition hmem => ?_, Nat.not_lt.mp hfields⟩
  rw [List.any_eq_true] at hbatchable
  by_contra hnot
  refine hbatchable ⟨definition, hmem, ?_⟩
  simp only [isBatchable, decide_eq_false hnot, Bool.not_false]

end OsqueryAdapter

/-! ## Parsed rows -/

theorem not_isControlCharacter {c : Char} (h : isIdentifierChar c = true) :
    isControlCharacter c = false := by
  rw [isIdentifierChar, Bool.or_eq_true, beq_iff_eq] at h
  rw [isControlCharacter, decide_eq_false_iff_not]
  rcases h with h | rfl
  · have hrange := toNat_of_isAlphanum h
    omega
  · decide

theorem not_isSpace_of_isIdentifierChar {c : Char} (h : isIdentifierChar c = true) :
    isSpace c = false := by
  rw [isIdentifierChar, Bool.or_eq_true, beq_iff_eq] at h
  rcases h with h | rfl
  · exact not_isSpace_of_isAlphanum h
  · decide

/-- An identifier needs no cleaning. -/
theorem cleanText_identifier {text : String} {maximum : Nat}
    (h : ∀ c ∈ text.toList, isIdentifierChar c = true) (hlength : text.length ≤ maximum) :
    cleanText text maximum = text := by
  have hkept : (text.toList.filter fun c => !isControlCharacter c) = text.toList := by
    rw [List.filter_eq_self]
    intro c hc
    rw [not_isControlCharacter (h c hc)]
    rfl
  have hspaced : (text.toList.map fun c => if c = '\r' ∨ c = '\n' then ' ' else c) = text.toList := by
    refine (List.map_congr_left fun c hc => ?_).trans (List.map_id _)
    rw [if_neg]
    · rfl
    · rintro (rfl | rfl)
      · exact absurd (h _ hc) (by decide)
      · exact absurd (h _ hc) (by decide)
  rw [cleanText]
  rw [hkept, hspaced, String.ofList_toList,
    strip_of_no_space fun c hc => not_isSpace_of_isIdentifierChar (h c hc),
    List.take_of_length_le (by rwa [String.length_toList]), String.ofList_toList]

/-- The name of a field is kept by `parse`. -/
def IsClean (name : String) : Prop := cleanText name 128 = name ∧ name ≠ ""

theorem isClean_of_identifier {name : String} (h : isSqlIdentifier name = true)
    (hlength : name.length ≤ 128) : IsClean name := by
  rw [isSqlIdentifier] at h
  split at h
  · cases h
  next c rest hname =>
  simp only [Bool.and_eq_true, List.all_eq_true] at h
  refine ⟨cleanText_identifier (fun d hd => ?_) hlength, ?_⟩
  · rw [hname] at hd
    rcases List.mem_cons.mp hd with rfl | hd
    · exact h.1.1
    · exact h.2 d hd
  · rintro rfl
    cases hname

theorem parseField_eq_ok {row row' : Row} {field : String × Json} (h : IsClean field.1) :
    parseField row field = .ok row' ↔
      isNested field.2 = false ∧ row' = row.set field.1 (cleanValue field.2) := by
  rw [parseField]
  rw [h.1, if_neg h.2]
  cases hnested : isNested field.2 with
  | true => simp
  | false => simp [eq_comm]

/-- A parsed row has the cleaned values of the fields. -/
theorem parseFields {fields : JsonObject} (hclean : ∀ field ∈ fields, IsClean field.1)
    (hnodup : (fields.map Prod.fst).Nodup) {row row' : Row}
    (h : fields.foldlM parseField row = .ok row') :
    (∀ field ∈ fields, isNested field.2 = false) ∧ ∀ name, Assoc.lookup name row' =
      ((Assoc.lookup name fields).map cleanValue).or (Assoc.lookup name row) := by
  induction fields generalizing row with
  | nil =>
    cases h
    exact ⟨List.forall_mem_nil _, fun name => rfl⟩
  | cons field rest ih =>
    rw [List.foldlM_cons, bind_eq_ok] at h
    obtain ⟨middle, hfield, hrest⟩ := h
    rw [List.forall_mem_cons] at hclean
    rw [List.map_cons, List.nodup_cons] at hnodup
    obtain ⟨hflat, rfl⟩ := (parseField_eq_ok hclean.1).mp hfield
    obtain ⟨hflats, hlookup⟩ := ih hclean.2 hnodup.2 hrest
    refine ⟨List.forall_mem_cons.mpr ⟨hflat, hflats⟩, fun name => ?_⟩
    rw [hlookup, JsonObject.set, Assoc.lookup_insert]
    obtain ⟨key, value⟩ := field
    by_cases hname : key = name
    · subst hname
      rw [Assoc.lookup_eq_none_iff.mpr hnodup.1, if_pos rfl, Assoc.lookup_cons_self]
      rfl
    · rw [if_neg hname, Assoc.lookup_cons_ne hname]

theorem parseFields_ok {fields : JsonObject} (hclean : ∀ field ∈ fields, IsClean field.1)
    (hflat : ∀ field ∈ fields, isNested field.2 = false) (row : Row) :
    ∃ row', fields.foldlM parseField row = .ok row' := by
  induction fields generalizing row with
  | nil => exact ⟨row, rfl⟩
  | cons field rest ih =>
    rw [List.forall_mem_cons] at hclean hflat
    obtain ⟨row', hrow'⟩ := ih hclean.2 hflat.2 (row.set field.1 (cleanValue field.2))
    refine ⟨row', ?_⟩
    rw [List.foldlM_cons, (parseField_eq_ok hclean.1).mpr ⟨hflat.1, rfl⟩]
    exact hrow'

theorem parseRow_obj {fields : JsonObject} {row : Row} :
    parseRow (.obj fields) = .ok row ↔
      fields.length ≤ 128 ∧ fields.foldlM parseField [] = .ok row := by
  rw [parseRow, bind_unit_eq_ok, raiseIf_eq_ok, Nat.not_lt]

/-- The values of a parsed row. -/
theorem get_of_parseRow {fields : JsonObject} {row : Row} (hclean : ∀ field ∈ fields, IsClean field.1)
    (hnodup : (fields.map Prod.fst).Nodup) (h : parseRow (.obj fields) = .ok row) (name : String) :
    Assoc.lookup name row = (Assoc.lookup name fields).map cleanValue := by
  rw [(parseFields hclean hnodup (parseRow_obj.mp h).2).2 name]
  exact Option.or_none

theorem isNested_of_parseRow {fields : JsonObject} {row : Row}
    (hclean : ∀ field ∈ fields, IsClean field.1) (hnodup : (fields.map Prod.fst).Nodup)
    (h : parseRow (.obj fields) = .ok row) : ∀ field ∈ fields, isNested field.2 = false :=
  (parseFields hclean hnodup (parseRow_obj.mp h).2).1

/-! ## Aliases -/

theorem isIdentifierChar_digits {n : Nat} : ∀ c ∈ (toString n).toList, isIdentifierChar c = true := by
  intro c hc
  have hdigit : c.isDigit = true := by
    rw [show toString n = n.repr from rfl, Nat.toList_repr] at hc
    exact Nat.isDigit_of_mem_toDigits (by omega) (by omega) hc
  simp [isIdentifierChar, Char.isAlphanum, hdigit]

theorem length_digits_le {n k : Nat} (hk : 0 < k) (h : n < 10 ^ k) : (toString n).length ≤ k :=
  (Nat.length_repr_le_iff hk).mpr h

theorem isIdentifierChar_append {a b : String} (ha : ∀ c ∈ a.toList, isIdentifierChar c = true)
    (hb : ∀ c ∈ b.toList, isIdentifierChar c = true) :
    ∀ c ∈ (a ++ b).toList, isIdentifierChar c = true := by
  intro c hc
  rw [String.toList_append, List.mem_append] at hc
  exact hc.elim (ha c) (hb c)

theorem length_start (digits : String) : ("__scanner_count_" ++ digits).length = 16 + digits.length :=
  String.length_append _ _

theorem length_parts (digits digits' : String) :
    ("__scanner_value_" ++ digits ++ "_" ++ digits').length = 16 + digits.length + 1 + digits'.length := by
  rw [String.length_append, String.length_append, String.length_append]
  rfl

/-- A text of identifier characters that is not too long is clean. -/
theorem isClean_of_chars {name : String} (h : ∀ c ∈ name.toList, isIdentifierChar c = true)
    (hlength : name.length ≤ 128) (hne : name ≠ "") : IsClean name :=
  ⟨cleanText_identifier h hlength, hne⟩

namespace OsqueryAdapter

theorem isClean_countAlias {index : Nat} (h : index < 10 ^ 3) : IsClean (countAlias index) := by
  have hdigits := length_digits_le (by omega) h
  have hlength := length_start (toString index)
  have hstart : ∀ c ∈ "__scanner_count_".toList, isIdentifierChar c = true :=
    List.all_eq_true.mp (by decide)
  refine isClean_of_chars (isIdentifierChar_append hstart isIdentifierChar_digits) ?_ fun hempty => ?_
  · show ("__scanner_count_" ++ toString index).length ≤ 128
    omega
  · rw [← show countAlias index = "__scanner_count_" ++ toString index from rfl, hempty] at hlength
    rw [show "".length = 0 from rfl] at hlength
    omega

theorem isClean_valueAlias {index column : Nat} (h : index < 10 ^ 3) (hcolumn : column < 10 ^ 3) :
    IsClean (valueAlias index column) := by
  have hdigits := length_digits_le (by omega) h
  have hdigits' := length_digits_le (by omega) hcolumn
  have hlength := length_parts (toString index) (toString column)
  have hstart : ∀ c ∈ "__scanner_value_".toList, isIdentifierChar c = true :=
    List.all_eq_true.mp (by decide)
  have hmiddle : ∀ c ∈ "_".toList, isIdentifierChar c = true :=
    List.all_eq_true.mp (by decide)
  refine isClean_of_chars (isIdentifierChar_append (isIdentifierChar_append
    (isIdentifierChar_append hstart isIdentifierChar_digits) hmiddle) isIdentifierChar_digits) ?_
    fun hempty => ?_
  · show ("__scanner_value_" ++ toString index ++ "_" ++ toString column).length ≤ 128
    omega
  · rw [← show valueAlias index column =
      "__scanner_value_" ++ toString index ++ "_" ++ toString column from rfl, hempty] at hlength
    rw [show "".length = 0 from rfl] at hlength
    omega

/-- A plan has at most 120 queries, each with less than 120 columns. -/
theorem plan_bounds {queries : List QueryDefinition} {plan : BatchPlan}
    (h : makeBatchPlan queries = some plan) : queries.length ≤ 120 ∧
      ∀ definition ∈ queries, definition.batchColumns.length < 120 := by
  obtain ⟨-, -, -, hlength⟩ := makeBatchPlan_eq_some h
  have hselections : ∀ e : QueryDefinition × Nat,
      (selections e.2 e.1).length = e.1.batchColumns.length + 1 := by
    intro e
    rw [selections]
    rw [List.length_cons, List.length_map, queryAliases, List.length_map, List.length_zipIdx]
  rw [List.length_flatMap, List.map_congr_left fun e _ => hselections e] at hlength
  refine ⟨?_, fun definition hmem => ?_⟩
  · have hle := List.length_le_sum_of_one_le
      (queries.zipIdx.map fun e => e.1.batchColumns.length + 1) fun n hn => by
        obtain ⟨e, -, rfl⟩ := List.mem_map.mp hn
        exact Nat.le_add_left 1 _
    rw [List.length_map, List.length_zipIdx] at hle
    omega
  · rw [← List.zipIdx_map_fst 0 queries] at hmem
    obtain ⟨e, he, rfl⟩ := List.mem_map.mp hmem
    have hle := List.le_sum_of_mem (List.mem_map_of_mem
      (f := fun e : QueryDefinition × Nat => e.1.batchColumns.length + 1) he)
    omega

theorem isClean_expectedAliases {queries : List QueryDefinition} {plan : BatchPlan}
    (h : makeBatchPlan queries = some plan) {name : String} (hname : name ∈ expectedAliases plan) :
    IsClean name := by
  obtain ⟨hlength, hcolumns⟩ := plan_bounds h
  rw [expectedAliases, (makeBatchPlan_eq_some h).2.1, List.mem_flatMap] at hname
  obtain ⟨e, he, hname⟩ := hname
  obtain ⟨⟨definition, index⟩, hdefinition, rfl⟩ := List.mem_map.mp he
  have hindex := List.snd_lt_of_mem_zipIdx hdefinition
  have hmem := List.fst_mem_of_mem_zipIdx hdefinition
  rcases List.mem_cons.mp hname with rfl | hname
  · exact isClean_countAlias (by omega)
  · obtain ⟨e, he, rfl⟩ := List.mem_map.mp hname
    obtain ⟨⟨column, number⟩, hcolumn, rfl⟩ := List.mem_map.mp he
    have hnumber : number < definition.batchColumns.length := List.snd_lt_of_mem_zipIdx hcolumn
    have hbound := hcolumns definition hmem
    exact isClean_valueAlias (by omega) (by omega)

/-! ## A query on its own -/

variable {adapter : OsqueryAdapter} {host : Host}

theorem failure_status (definition : QueryDefinition) (result : CommandResult) (error : String) :
    (failure definition result error).status ≠ .success := by
  rw [failure]
  dsimp only
  split
  · exact nofun
  · exact nofun

theorem parse_eq_ok {output : String} {rows : List Row} :
    adapter.parse output = .ok rows ↔ output.length ≤ adapter.maxOutputBytes ∧
      ∃ document, adapter.library.loads output = .ok document ∧ parseDocument document = .ok rows := by
  rw [parse]
  split
  next hlength => simp [Nat.not_le.mpr hlength]
  next hlength =>
    cases hloads : adapter.library.loads output with
    | error message => simp
    | ok document => simp [Nat.not_lt.mp hlength]

theorem alone_eq_some {definition : QueryDefinition} {rows : List Row} :
    alone host definition = some rows ↔
      parseDocument (host.answer definition.sql) = .ok rows ∧
        rows.length ≤ definition.maximumRows := by
  rw [alone]
  cases hdocument : parseDocument (host.answer definition.sql) with
  | error message => simp
  | ok rows' =>
    dsimp only
    split
    next hlength =>
      rw [Option.some_inj, Except.ok.injEq]
      exact ⟨fun h => ⟨h, h ▸ hlength⟩, fun h => h.1⟩
    next hlength =>
      refine ⟨nofun, fun h => absurd h.2 ?_⟩
      rwa [← Except.ok.inj h.1]

theorem sound_of_status {definition : QueryDefinition} {execution : Execution}
    (h : execution.status ≠ .success) : Sound host definition execution :=
  fun hsuccess => absurd hsuccess h

theorem sound_judge {definition : QueryDefinition} {result : CommandResult}
    (hanswer : result.timedOut = false → result.returncode = some 0 →
      result.stdoutTruncated = false → ∀ document, adapter.library.loads result.stdout = .ok document →
        document = host.answer definition.sql) :
    Sound host definition (adapter.judge definition result) := by
  rw [judge]
  split
  · exact sound_of_status (failure_status _ _ _)
  next htime =>
  split
  · exact sound_of_status (failure_status _ _ _)
  next hcode =>
  split
  · exact sound_of_status (failure_status _ _ _)
  next hwhole =>
  split
  · exact sound_of_status (failure_status _ _ _)
  next rows hrows =>
  split
  · exact sound_of_status (failure_status _ _ _)
  next hlength =>
  obtain ⟨-, document, hloads, hdocument⟩ := parse_eq_ok.mp hrows
  cases hanswer (Bool.not_eq_true _ ▸ htime) (not_not.mp hcode) (Bool.not_eq_true _ ▸ hwhole)
    document hloads
  exact fun _ => ⟨rows, rows, alone_eq_some.mpr ⟨hdocument, Nat.not_lt.mp hlength⟩, rfl,
    List.forall₂_same.mpr fun row _ name => rfl⟩

/-- A query that osquery answers in full succeeds. -/
theorem status_judge {definition : QueryDefinition} {result : CommandResult} {rows : List Row}
    (htime : result.timedOut = false) (hcode : result.returncode = some 0)
    (hwhole : result.stdoutTruncated = false) (hlength : result.stdout.length ≤ adapter.maxOutputBytes)
    (hloads : adapter.library.loads result.stdout = .ok (host.answer definition.sql))
    (halone : alone host definition = some rows) :
    (adapter.judge definition result).status = .success := by
  obtain ⟨hdocument, hrows⟩ := alone_eq_some.mp halone
  have hparse : adapter.parse result.stdout = .ok rows :=
    parse_eq_ok.mpr ⟨hlength, _, hloads, hdocument⟩
  rw [judge, htime, hcode, hwhole, hparse]
  simp only [Bool.false_eq_true, if_false, ne_eq, not_true]
  rw [if_neg (Nat.not_lt.mpr hrows)]

/-! ## Batches -/

/-- A text that reads as a number counts as the number. -/
theorem batchCount_of_int {s : String} {n : Int} (h : adapter.library.int s = some n) :
    adapter.batchCount (.str s) = adapter.batchCount (.int n) := by
  unfold batchCount
  dsimp only
  rw [h]

theorem batchCount_printed (hrel : adapter.Relational host) {value : Json} {count count' : Nat}
    (hprints : PrintsCount value count) (h : adapter.batchCount (cleanValue value) = some count') :
    count' = count ∧ count ≤ 1 := by
  have hread : adapter.batchCount (cleanValue value) = adapter.batchCount (.int count) := by
    rcases hprints with rfl | ⟨rfl, hcount⟩
    · rfl
    · have hdigits := length_digits_le (n := count) (k := 19) (by omega) (by omega)
      rw [cleanValue, cleanText_identifier isIdentifierChar_digits (by omega)]
      exact batchCount_of_int (hrel.int_count count)
  rw [hread, batchCount] at h
  split at h
  next hzero =>
    cases h
    have hcount := Option.some_inj.mp hzero
    omega
  next hone =>
    cases h
    have hcount := Option.some_inj.mp hone
    omega
  · cases h

theorem tableOf_rows (rows : List Row) : tableOf (.arr (rows.map .obj)) = rows := by
  rw [tableOf, List.filterMap_map]
  exact List.filterMap_some

theorem queryAliases_columns (index : Nat) (definition : QueryDefinition) :
    (queryAliases index definition).2.map Prod.fst = definition.batchColumns := by
  rw [queryAliases]
  dsimp only
  rw [List.map_map]
  exact List.zipIdx_map_fst 0 definition.batchColumns

theorem get_eq_cleanValue {fields : JsonObject} {combined : Row}
    (hclean : ∀ field ∈ fields, IsClean field.1) (hnodup : (fields.map Prod.fst).Nodup)
    (hparse : parseRow (.obj fields) = .ok combined) {name : String} {value : Json}
    (hname : Assoc.lookup name fields = some value) : combined.get name = cleanValue value := by
  rw [JsonObject.get, get_of_parseRow hclean hnodup hparse, hname]
  rfl

/-- The columns of a batched query come back under the names of the columns. -/
theorem same_row {definition : QueryDefinition} {index : Nat} {row row' combined : Row}
    {fields : JsonObject} (hshort : ∀ column ∈ definition.batchColumns, column.length ≤ 128)
    (hcolumns : (row.map Prod.fst).Perm definition.batchColumns)
    (hclean : ∀ field ∈ fields, IsClean field.1) (hnodup : (fields.map Prod.fst).Nodup)
    (hparse : parseRow (.obj fields) = .ok combined)
    (hvalue : ∀ e ∈ (queryAliases index definition).2,
      Assoc.lookup e.2 fields = some (JsonObject.get row e.1))
    (hrow : parseRow (.obj row) = .ok row') (name : String) :
    Assoc.lookup name ((queryAliases index definition).2.map fun e => (e.1, combined.get e.2)) =
      Assoc.lookup name row' := by
  have hkeys : ((queryAliases index definition).2.map fun e =>
      (e.1, combined.get e.2)).map Prod.fst = definition.batchColumns := by
    rw [List.map_map]
    exact queryAliases_columns index definition
  have hrownodup : (row.map Prod.fst).Nodup := hcolumns.nodup_iff.mpr definition.columns_nodup
  rw [get_of_parseRow (fun field hfield => ?_) hrownodup hrow]
  swap
  · have hmem := hcolumns.mem_iff.mp (List.mem_map_of_mem hfield)
    exact isClean_of_identifier (definition.columns_valid _ hmem) (hshort _ hmem)
  by_cases hname : name ∈ definition.batchColumns
  · rw [← queryAliases_columns index definition] at hname
    obtain ⟨e, he, rfl⟩ := List.mem_map.mp hname
    have hlookup := Assoc.lookup_of_mem (hkeys ▸ definition.columns_nodup)
      (List.mem_map_of_mem (f := fun e : String × String => (e.1, combined.get e.2)) he)
    rw [queryAliases_columns] at hname
    obtain ⟨field, hfield, hfst⟩ := List.mem_map.mp (hcolumns.mem_iff.mpr hname)
    have hfound : Assoc.lookup e.1 row = some field.2 :=
      hfst ▸ Assoc.lookup_of_mem hrownodup hfield
    have hcolumn : JsonObject.get row e.1 = field.2 := by
      rw [JsonObject.get, hfound]
      rfl
    rw [hlookup, hfound, get_eq_cleanValue hclean hnodup hparse (hvalue e he), hcolumn]
    rfl
  · rw [Assoc.lookup_eq_none_iff.mpr (hkeys ▸ hname),
      Assoc.lookup_eq_none_iff.mpr fun hmem => hname (hcolumns.mem_iff.mp hmem)]
    rfl

/-- What a batch reports for one query is what the query has on its own. -/
theorem sound_batchedExecution (hrel : adapter.Relational host) {definition : QueryDefinition}
    (hmem : definition ∈ adapter.queries)
    (hshort : ∀ column ∈ definition.batchColumns, column.length ≤ 128)
    (hmaximum : definition.maximumRows = 1) (hne : definition.batchColumns ≠ [])
    (hbound : definition.batchColumns.length < 120) {plan : BatchPlan} {result : CommandResult}
    {fields : JsonObject} {combined : Row} (hclean : ∀ field ∈ fields, IsClean field.1)
    (hnodup : (fields.map Prod.fst).Nodup) (hparse : parseRow (.obj fields) = .ok combined)
    {index : Nat}
    (hselected : IsSelected (tableOf (host.answer definition.sql)) (queryAliases index definition)
      fields) {execution : Execution}
    (h : adapter.batchedExecution plan result combined definition (queryAliases index definition) =
      some execution) : Sound host definition execution ∧ execution.status = .success := by
  obtain ⟨rows, hanswer, hcolumns⟩ := hrel.table definition hmem hne
  rw [hanswer, tableOf_rows] at hselected
  rw [batchedExecution, Option.map_eq_some_iff] at h
  obtain ⟨count, hcount, rfl⟩ := h
  refine ⟨fun _ => ?_, rfl⟩
  obtain ⟨value, hvalue, hprints⟩ := hselected.count
  rw [get_eq_cleanValue hclean hnodup hparse hvalue] at hcount
  obtain ⟨rfl, hone⟩ := batchCount_printed hrel hprints hcount
  match rows, hone with
  | [], _ =>
    refine ⟨[], [], alone_eq_some.mpr ⟨?_, Nat.zero_le _⟩, rfl, List.Forall₂.nil⟩
    rw [hanswer]
    rfl
  | [row], _ =>
    have hcolumns := hcolumns row List.mem_cons_self
    have hvalues : ∀ e ∈ (queryAliases index definition).2,
        Assoc.lookup e.2 fields = some (JsonObject.get row e.1) := hselected.value
    have hflat := isNested_of_parseRow hclean hnodup hparse
    -- the values of the row are values of the combined row
    have hrowflat : ∀ field ∈ row, isNested field.2 = false := by
      intro field hfield
      have hname := hcolumns.mem_iff.mp (List.mem_map_of_mem hfield)
      rw [← queryAliases_columns index definition] at hname
      obtain ⟨e, he, hfst⟩ := List.mem_map.mp hname
      have hget := Assoc.mem_of_lookup (hvalues e he)
      rw [JsonObject.get, hfst, Assoc.lookup_of_mem
        (hcolumns.nodup_iff.mpr definition.columns_nodup) hfield] at hget
      exact hflat (e.2, field.2) hget
    obtain ⟨row', hrow'⟩ := parseFields_ok (fun field hfield =>
      have hmem := hcolumns.mem_iff.mp (List.mem_map_of_mem hfield)
      isClean_of_identifier (definition.columns_valid _ hmem) (hshort _ hmem)) hrowflat []
    have hlength : row.length ≤ 128 := by
      rw [← List.length_map (f := Prod.fst), hcolumns.length_eq]
      omega
    have hparsed : parseRow (.obj row) = .ok row' := parseRow_obj.mpr ⟨hlength, hrow'⟩
    refine ⟨[row'], _, alone_eq_some.mpr ⟨?_, by rw [hmaximum]; rfl⟩, rfl, ?_⟩
    · rw [hanswer]
      exact mapM_eq_ok.mpr (.cons hparsed .nil)
    · exact .cons (same_row hshort hcolumns hclean hnodup hparse hvalues hparsed) .nil

/-- A reading of a list is a reading of each of its elements. -/
theorem mapM_eq_some {α β : Type} {f : α → Option β} {xs : List α} {ys : List β} :
    xs.mapM f = some ys ↔ List.Forall₂ (fun x y => f x = some y) xs ys := by
  induction xs generalizing ys with
  | nil =>
    rw [List.mapM_nil, List.forall₂_nil_left_iff]
    exact ⟨fun h => (Option.some_inj.mp h).symm, fun h => congrArg _ h.symm⟩
  | cons x xs ih =>
    rw [List.mapM_cons, List.forall₂_cons_left_iff, Option.bind_eq_bind, Option.bind_eq_some_iff]
    constructor
    · rintro ⟨y, hy, h⟩
      obtain ⟨ys', hys, h⟩ := Option.bind_eq_some_iff.mp h
      cases h
      exact ⟨y, ys', hy, ih.mp hys, rfl⟩
    · rintro ⟨y, ys', hy, hys, rfl⟩
      exact ⟨y, hy, Option.bind_eq_some_iff.mpr ⟨ys', ih.mpr hys, rfl⟩⟩

theorem mem_zip_aliases {queries : List QueryDefinition} {start : Nat}
    {e : QueryDefinition × String × List (String × String)}
    (h : e ∈ queries.zip ((queries.zipIdx start).map fun e => queryAliases e.2 e.1)) :
    e.1 ∈ queries ∧ ∃ index, e.2 = queryAliases index e.1 := by
  induction queries generalizing start with
  | nil => cases h
  | cons definition rest ih =>
    rw [List.zipIdx_cons, List.map_cons, List.zip_cons_cons] at h
    rcases List.mem_cons.mp h with rfl | h
    · exact ⟨List.mem_cons_self, start, rfl⟩
    · obtain ⟨hmem, hindex⟩ := ih h
      exact ⟨List.mem_cons_of_mem _ hmem, hindex⟩

/-- The executions of a batch are those of its queries, each with the rows of the query. -/
theorem sound_batchedExecutions (hshort : adapter.ShortColumns) (hrel : adapter.Relational host)
    {queries : List QueryDefinition} (hqueries : ∀ definition ∈ queries, definition ∈ adapter.queries)
    (hunique : queries.Nodup) {plan : BatchPlan} (hplan : makeBatchPlan queries = some plan) {result : CommandResult}
    (hanswer : ∀ document, adapter.library.loads result.stdout = .ok document →
      document = host.answer plan.sql) {executions : List (QueryDefinition × Execution)}
    (h : adapter.batchedExecutions plan result = some executions) :
    executions.map Prod.fst = queries ∧
      ∀ e ∈ executions, Sound host e.1 e.2 ∧ e.2.status = .success := by
  obtain ⟨hplanned, haliases, hbatchable, -⟩ := makeBatchPlan_eq_some hplan
  obtain ⟨fields, hprinted, hnodup, hnames, hselected⟩ := hrel.combined queries hqueries hunique
    plan hplan
  rw [batchedExecutions] at h
  split at h
  next combined hparse =>
    split at h
    next hexpected =>
      obtain ⟨-, document, hloads, hdocument⟩ := parse_eq_ok.mp hparse
      cases hanswer document hloads
      rw [hprinted] at hdocument
      have hrow : parseRow (.obj fields) = .ok combined :=
        (List.forall₂_cons.mp (mapM_eq_ok.mp hdocument)).1
      have hclean : ∀ field ∈ fields, IsClean field.1 :=
        fun field hfield => isClean_expectedAliases hplan (hnames field hfield)
      rw [hplanned] at h
      have hall := mapM_eq_some.mp h
      constructor
      · have hfst : List.Forall₂ (fun e e' => e.1 = e'.1) (queries.zip plan.aliases) executions :=
          hall.imp fun e e' he => by
            obtain ⟨execution, -, rfl⟩ := Option.map_eq_some_iff.mp he
            rfl
        have hmap := List.forall₂_map_left_iff.mpr (List.forall₂_map_right_iff.mpr hfst)
        rw [List.forall₂_eq_eq_eq] at hmap
        rw [← hmap, List.map_fst_zip]
        rw [haliases, List.length_map, List.length_zipIdx]
      · intro e he
        obtain ⟨⟨definition, aliases⟩, hzip, he⟩ := exists_of_mem_right hall he
        have hchosen := hselected _ hzip
        rw [haliases] at hzip
        obtain ⟨hmem, index, hindex⟩ := mem_zip_aliases hzip
        obtain ⟨execution, hexecution, rfl⟩ := Option.map_eq_some_iff.mp he
        dsimp only at hmem hindex hchosen hexecution ⊢
        subst hindex
        exact sound_batchedExecution hrel (hqueries _ hmem) (hshort _ (hqueries _ hmem))
          (hbatchable _ hmem).1 (hbatchable _ hmem).2 ((plan_bounds hplan).2 _ hmem) hclean hnodup
          hrow hchosen hexecution
    · cases h
  · cases h

end OsqueryAdapter

end OsScanner.Tools

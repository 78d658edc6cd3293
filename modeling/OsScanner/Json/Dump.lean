import Mathlib
import OsScanner.Json.Canonical

/-!
# Dumping a model that contains sets

`model_dump(mode="json")` writes a set as a list in the order in which it is iterated, and that
order differs from one process to the next. So a model has many dumps. `canonical_json` sorts
the fields of objects but not lists: all dumps of a model have one canonical text exactly when
none of its sets has two elements.
-/

namespace OsScanner

open Lib

/-! ## Models and their dumps -/

/-- What is dumped: JSON values, lists, records and sets of texts. -/
inductive Model where
  | value (v : Json)
  | seq (items : List Model)
  | record (fields : List (String × Model))
  | set (names : Finset String)

/-- An order in which a set is iterated. -/
structure Enumerates (order : List String) (names : Finset String) : Prop where
  nodup : order.Nodup
  mem : ∀ name, name ∈ order ↔ name ∈ names

namespace Model

/-- Induction over a model: the hypotheses reach every item and every field. -/
@[elab_as_elim, induction_eliminator]
theorem induction {P : Model → Prop} (value : ∀ v, P (.value v))
    (seq : ∀ items, (∀ m ∈ items, P m) → P (.seq items))
    (record : ∀ fields : List (String × Model), (∀ e ∈ fields, P e.2) → P (.record fields))
    (set : ∀ names, P (.set names)) (m : Model) : P m :=
  Model.rec (motive_1 := P) (motive_2 := fun l => ∀ m ∈ l, P m)
    (motive_3 := fun l => ∀ e ∈ l, P e.2) (motive_4 := fun e => P e.2)
    value seq record set
    (by simp) (fun _ _ hm hl => List.forall_mem_cons.mpr ⟨hm, hl⟩)
    (by simp) (fun _ _ he hl => List.forall_mem_cons.mpr ⟨he, hl⟩)
    (fun _ _ hm => hm) m

mutual

/-- The value is one of the dumps of the model. -/
def Dumps : Model → Json → Prop
  | .value v, w => w = v
  | .seq items, .arr values => DumpsItems items values
  | .record fields, .obj values => DumpsFields fields values
  | .set names, .arr values => ∃ order, Enumerates order names ∧ values = order.map .str
  | _, _ => False

def DumpsItems : List Model → List Json → Prop
  | [], values => values = []
  | m :: items, values => ∃ v rest, values = v :: rest ∧ Dumps m v ∧ DumpsItems items rest

def DumpsFields : List (String × Model) → JsonObject → Prop
  | [], values => values = []
  | (k, m) :: fields, values =>
    ∃ v rest, values = (k, v) :: rest ∧ Dumps m v ∧ DumpsFields fields rest

end

mutual

/-- No set of the model has two elements. -/
def Small : Model → Prop
  | .value _ => True
  | .seq items => SmallItems items
  | .record fields => SmallFields fields
  | .set names => names.card ≤ 1

def SmallItems : List Model → Prop
  | [] => True
  | m :: items => Small m ∧ SmallItems items

def SmallFields : List (String × Model) → Prop
  | [] => True
  | (_, m) :: fields => Small m ∧ SmallFields fields

end

mutual

/-- No record has two fields with one name. -/
def Keyed : Model → Prop
  | .value v => v.wellFormed = true
  | .seq items => KeyedItems items
  | .record fields => (fields.map Prod.fst).Nodup ∧ KeyedFields fields
  | .set _ => True

def KeyedItems : List Model → Prop
  | [] => True
  | m :: items => Keyed m ∧ KeyedItems items

def KeyedFields : List (String × Model) → Prop
  | [] => True
  | (_, m) :: fields => Keyed m ∧ KeyedFields fields

end

end Model

/-! ## The orders of a set -/

theorem enumerates_toList (names : Finset String) : Enumerates names.toList names :=
  ⟨names.nodup_toList, fun _ => Finset.mem_toList⟩

namespace Enumerates

variable {order order' : List String} {names : Finset String}

theorem reverse (h : Enumerates order names) : Enumerates order.reverse names :=
  ⟨List.nodup_reverse.mpr h.nodup, fun name => List.mem_reverse.trans (h.mem name)⟩

theorem length_eq (h : Enumerates order names) : order.length = names.card := by
  have hset : order.toFinset = names := Finset.ext fun name => by rw [List.mem_toFinset, h.mem]
  rw [← hset, List.toFinset_card_of_nodup h.nodup]

/-- A set of at most one element is iterated in one order only. -/
theorem eq_of_card_le_one (hcard : names.card ≤ 1) (h : Enumerates order names)
    (h' : Enumerates order' names) : order = order' := by
  have hperm : order.Perm order' := (List.perm_ext_iff_of_nodup h.nodup h'.nodup).mpr
    fun name => (h.mem name).trans (h'.mem name).symm
  have hlength : order.length ≤ 1 := h.length_eq ▸ hcard
  match order, hlength with
  | [], _ => exact (List.nil_perm.mp hperm).symm
  | [a], _ => exact List.singleton_perm.mp hperm

/-- A set of two elements is iterated in two orders. -/
theorem ne_reverse (hcard : ¬ names.card ≤ 1) (h : Enumerates order names) :
    order ≠ order.reverse := by
  intro heq
  rw [← h.length_eq] at hcard
  match order, h.nodup, hcard with
  | [], _, hcard => simp at hcard
  | [a], _, hcard => simp at hcard
  | a :: b :: rest, hnodup, _ =>
    have hlast : (a :: b :: rest).getLast? = some a := by
      rw [heq, List.getLast?_reverse]
      rfl
    rw [List.getLast?_cons_cons] at hlast
    exact (List.nodup_cons.mp hnodup).1 (List.mem_of_getLast? hlast)

end Enumerates

namespace Model

/-! ## The dumps of a model -/

theorem exists_dumps (m : Model) : ∃ v, Dumps m v := by
  induction m with
  | value v => exact ⟨v, rfl⟩
  | seq items ih =>
    have hitems : ∃ values, DumpsItems items values := by
      induction items with
      | nil => exact ⟨[], rfl⟩
      | cons m items ihl =>
        obtain ⟨v, hv⟩ := ih m List.mem_cons_self
        obtain ⟨values, hvalues⟩ := ihl fun m hm => ih m (List.mem_cons_of_mem _ hm)
        exact ⟨v :: values, v, values, rfl, hv, hvalues⟩
    obtain ⟨values, hvalues⟩ := hitems
    exact ⟨.arr values, hvalues⟩
  | record fields ih =>
    have hfields : ∃ values, DumpsFields fields values := by
      induction fields with
      | nil => exact ⟨[], rfl⟩
      | cons e fields ihl =>
        obtain ⟨v, hv⟩ := ih e List.mem_cons_self
        obtain ⟨values, hvalues⟩ := ihl fun e he => ih e (List.mem_cons_of_mem _ he)
        exact ⟨(e.1, v) :: values, v, values, rfl, hv, hvalues⟩
    obtain ⟨values, hvalues⟩ := hfields
    exact ⟨.obj values, hvalues⟩
  | set names => exact ⟨.arr (names.toList.map .str), names.toList, enumerates_toList names, rfl⟩

theorem exists_dumpsItems (items : List Model) : ∃ values, DumpsItems items values := by
  obtain ⟨v, hv⟩ := exists_dumps (.seq items)
  cases v with
  | arr values => exact ⟨values, hv⟩
  | _ => exact hv.elim

theorem exists_dumpsFields (fields : List (String × Model)) :
    ∃ values, DumpsFields fields values := by
  obtain ⟨v, hv⟩ := exists_dumps (.record fields)
  cases v with
  | obj values => exact ⟨values, hv⟩
  | _ => exact hv.elim

/-- A small model has one dump. -/
theorem Small.dumps_unique {m : Model} : Small m → ∀ {v w}, Dumps m v → Dumps m w → v = w := by
  induction m with
  | value u =>
    intro _ v w hv hw
    exact hv.trans hw.symm
  | seq items ih =>
    intro hsmall v w hv hw
    have hitems : ∀ {values values'}, SmallItems items → DumpsItems items values →
        DumpsItems items values' → values = values' := by
      clear hsmall hv hw
      induction items with
      | nil => exact fun _ h h' => h.trans h'.symm
      | cons m items ihl =>
        rintro _ _ ⟨hm, hitems⟩ ⟨v, rest, rfl, hv, hrest⟩ ⟨w, rest', rfl, hw, hrest'⟩
        rw [ih m List.mem_cons_self hm hv hw,
          ihl (fun m hm => ih m (List.mem_cons_of_mem _ hm)) hitems hrest hrest']
    cases v <;> try exact hv.elim
    cases w <;> try exact hw.elim
    exact congrArg Json.arr (hitems hsmall hv hw)
  | record fields ih =>
    intro hsmall v w hv hw
    have hfields : ∀ {values values'}, SmallFields fields → DumpsFields fields values →
        DumpsFields fields values' → values = values' := by
      clear hsmall hv hw
      induction fields with
      | nil => exact fun _ h h' => h.trans h'.symm
      | cons e fields ihl =>
        rintro _ _ ⟨hm, hfields⟩ ⟨v, rest, rfl, hv, hrest⟩ ⟨w, rest', rfl, hw, hrest'⟩
        rw [ih e List.mem_cons_self hm hv hw,
          ihl (fun e he => ih e (List.mem_cons_of_mem _ he)) hfields hrest hrest']
    cases v <;> try exact hv.elim
    cases w <;> try exact hw.elim
    exact congrArg Json.obj (hfields hsmall hv hw)
  | set names =>
    intro hsmall v w hv hw
    cases v <;> try exact hv.elim
    cases w <;> try exact hw.elim
    obtain ⟨order, horder, rfl⟩ := hv
    obtain ⟨order', horder', rfl⟩ := hw
    rw [Enumerates.eq_of_card_le_one hsmall horder horder']

/-! ## Dumps of records -/

/-- The dump of a field is under its name. -/
theorem lookup_dumpsFields {fields : List (String × Model)} : ∀ {values : JsonObject},
    DumpsFields fields values → ∀ name, Option.Rel Dumps (Assoc.lookup name fields)
      (Assoc.lookup name values) := by
  induction fields with
  | nil =>
    intro values h name
    rw [show values = [] from h]
    exact .none
  | cons e fields ih =>
    obtain ⟨k, m⟩ := e
    rintro _ ⟨v, rest, rfl, hv, hrest⟩ name
    by_cases hk : k = name
    · subst hk
      rw [Assoc.lookup_cons_self, Assoc.lookup_cons_self]
      exact .some hv
    · rw [Assoc.lookup_cons_ne hk, Assoc.lookup_cons_ne hk]
      exact ih hrest name

/-- The dump of one field can be chosen. -/
theorem exists_dumpsFields_with {fields : List (String × Model)} {name : String} {m : Model}
    {v : Json} (hm : Assoc.lookup name fields = some m) (hv : Dumps m v) :
    ∃ values, DumpsFields fields values ∧ Assoc.lookup name values = some v := by
  induction fields with
  | nil => cases hm
  | cons e fields ih =>
    obtain ⟨k, m'⟩ := e
    by_cases hk : k = name
    · subst hk
      rw [Assoc.lookup_cons_self, Option.some.injEq] at hm
      subst hm
      obtain ⟨rest, hrest⟩ := exists_dumpsFields fields
      exact ⟨(k, v) :: rest, ⟨v, rest, rfl, hv, hrest⟩, Assoc.lookup_cons_self _ _ _⟩
    · rw [Assoc.lookup_cons_ne hk] at hm
      obtain ⟨rest, hrest, hlookup⟩ := ih hm
      obtain ⟨w, hw⟩ := exists_dumps m'
      refine ⟨(k, w) :: rest, ⟨w, rest, rfl, hw, hrest⟩, ?_⟩
      rw [Assoc.lookup_cons_ne hk, hlookup]

theorem map_fst_dumpsFields {fields : List (String × Model)} : ∀ {values : JsonObject},
    DumpsFields fields values → values.map Prod.fst = fields.map Prod.fst := by
  induction fields with
  | nil =>
    intro values h
    rw [show values = [] from h]
    rfl
  | cons e fields ih =>
    rintro _ ⟨v, rest, rfl, -, hrest⟩
    rw [List.map_cons, List.map_cons, ih hrest]

/-- A dump is built of dictionaries. -/
theorem wellFormed_of_dumps {m : Model} : Keyed m → ∀ {v}, Dumps m v → v.wellFormed = true := by
  induction m with
  | value u =>
    intro hkeyed v hv
    rw [show v = u from hv]
    exact hkeyed
  | seq items ih =>
    intro hkeyed v hv
    cases v <;> try exact hv.elim
    next values =>
      rw [Json.wellFormed_arr_iff]
      change KeyedItems items at hkeyed
      change DumpsItems items values at hv
      induction items generalizing values with
      | nil =>
        rw [show values = [] from hv]
        simp
      | cons m items ihl =>
        obtain ⟨v, rest, rfl, hv, hrest⟩ := hv
        exact List.forall_mem_cons.mpr ⟨ih m List.mem_cons_self hkeyed.1 hv,
          ihl (fun m hm => ih m (List.mem_cons_of_mem _ hm)) rest hkeyed.2 hrest⟩
  | record fields ih =>
    intro hkeyed v hv
    cases v <;> try exact hv.elim
    next values =>
      obtain ⟨hnodup, hkeyed⟩ := hkeyed
      rw [Json.wellFormed_obj_iff, map_fst_dumpsFields hv]
      refine ⟨hnodup, ?_⟩
      clear hnodup
      change DumpsFields fields values at hv
      induction fields generalizing values with
      | nil =>
        rw [show values = [] from hv]
        simp
      | cons e fields ihl =>
        obtain ⟨v, rest, rfl, hv, hrest⟩ := hv
        exact List.forall_mem_cons.mpr ⟨ih e List.mem_cons_self hkeyed.1 hv,
          ihl (fun e he => ih e (List.mem_cons_of_mem _ he)) rest hkeyed.2 hrest⟩
  | set names =>
    intro _ v hv
    cases v <;> try exact hv.elim
    obtain ⟨order, -, rfl⟩ := hv
    rw [Json.wellFormed_arr_iff]
    intro w hw
    obtain ⟨name, -, rfl⟩ := List.mem_map.mp hw
    rfl

theorem smallItems_iff {items : List Model} : SmallItems items ↔ ∀ m ∈ items, Small m := by
  induction items with
  | nil => exact ⟨fun _ _ hm => (nomatch hm), fun _ => trivial⟩
  | cons m items ih =>
    rw [List.forall_mem_cons, ← ih]
    rfl

/-- Permuted items that are small have permuted dumps. -/
theorem perm_of_dumpsItems {items items' : List Model} (hperm : items.Perm items') :
    ∀ {values values' : List Json}, SmallItems items → DumpsItems items values →
      DumpsItems items' values' → values.Perm values' := by
  have hunique : ∀ {items : List Model} {values values' : List Json}, SmallItems items →
      DumpsItems items values → DumpsItems items values' → values = values' := by
    intro items values values' hsmall hv hv'
    exact Json.arr.inj (Small.dumps_unique (m := .seq items) hsmall hv hv')
  induction hperm with
  | nil =>
    intro values values' _ hv hv'
    rw [show values = [] from hv, show values' = [] from hv']
  | cons m _ ih =>
    rintro _ _ ⟨hm, hsmall⟩ ⟨v, rest, rfl, hv, hrest⟩ ⟨v', rest', rfl, hv', hrest'⟩
    rw [hm.dumps_unique hv hv']
    exact (ih hsmall hrest hrest').cons v'
  | swap m m' items =>
    rintro _ _ ⟨hm', hm, hsmall⟩ ⟨v', _, rfl, hv', v, rest, rfl, hv, hrest⟩
      ⟨w, _, rfl, hw, w', rest', rfl, hw', hrest'⟩
    rw [hm.dumps_unique hv hw, hm'.dumps_unique hv' hw', hunique hsmall hrest hrest']
    exact .swap _ _ _
  | trans hleft _ ih ih' =>
    intro values values' hsmall hv hv'
    obtain ⟨middle, hmiddle⟩ := exists_dumpsItems _
    refine (ih hsmall hv hmiddle).trans (ih' ?_ hmiddle hv')
    exact smallItems_iff.mpr fun m hm => smallItems_iff.mp hsmall m (hleft.mem_iff.mpr hm)

theorem dumpsFields_append {fields fields' : List (String × Model)} {values : JsonObject} :
    DumpsFields (fields ++ fields') values ↔
      ∃ a b, values = a ++ b ∧ DumpsFields fields a ∧ DumpsFields fields' b := by
  induction fields generalizing values with
  | nil =>
    constructor
    · exact fun h => ⟨[], values, rfl, rfl, h⟩
    · rintro ⟨a, b, rfl, ha, hb⟩
      rw [show a = [] from ha]
      exact hb
  | cons e fields ih =>
    obtain ⟨k, m⟩ := e
    constructor
    · rintro ⟨v, rest, rfl, hv, hrest⟩
      obtain ⟨a, b, rfl, ha, hb⟩ := ih.mp hrest
      exact ⟨(k, v) :: a, b, rfl, ⟨v, a, rfl, hv, ha⟩, hb⟩
    · rintro ⟨_, b, rfl, ⟨v, a, rfl, hv, ha⟩, hb⟩
      exact ⟨v, a ++ b, rfl, hv, ih.mpr ⟨a, b, rfl, ha, hb⟩⟩

theorem smallFields_append {fields fields' : List (String × Model)} :
    SmallFields (fields ++ fields') ↔
      SmallFields fields ∧ SmallFields fields' := by
  induction fields with
  | nil => exact ⟨fun h => ⟨trivial, h⟩, And.right⟩
  | cons e fields ih =>
    show Small e.2 ∧ SmallFields (fields ++ fields') ↔ (Small e.2 ∧ _) ∧ _
    rw [ih, and_assoc]

/-! ### Models that are not small -/

/-- Two dumps whose canonical texts differ. -/
def Ambiguous (m : Model) : Prop :=
  ∃ v w, Dumps m v ∧ Dumps m w ∧ Json.sortKeys v ≠ Json.sortKeys w

theorem sortItems_map_str (order : List String) :
    Json.sortItems (order.map .str) = order.map .str := by
  rw [Json.sortItems_eq, List.map_map]
  rfl

/-- Lists that differ in one dump. -/
theorem ambiguousItems {items : List Model} (ih : ∀ m ∈ items, ¬ Small m → Ambiguous m)
    (h : ¬ SmallItems items) : ∃ values values', DumpsItems items values ∧
      DumpsItems items values' ∧
        ¬ (Json.sortItems values).Perm (Json.sortItems values') := by
  induction items with
  | nil => exact absurd trivial h
  | cons m items ihl =>
    by_cases hm : Small m
    · have hrest : ¬ SmallItems items := fun hrest => h ⟨hm, hrest⟩
      obtain ⟨values, values', hv, hv', hne⟩ :=
        ihl (fun m hm => ih m (List.mem_cons_of_mem _ hm)) hrest
      obtain ⟨v, hdump⟩ := exists_dumps m
      refine ⟨v :: values, v :: values', ⟨v, values, rfl, hdump, hv⟩,
        ⟨v, values', rfl, hdump, hv'⟩, fun hperm => hne ?_⟩
      exact (List.perm_cons _).mp hperm
    · obtain ⟨v, w, hv, hw, hne⟩ := ih m List.mem_cons_self hm
      obtain ⟨values, hvalues⟩ := exists_dumpsItems items
      refine ⟨v :: values, w :: values, ⟨v, values, rfl, hv, hvalues⟩,
        ⟨w, values, rfl, hw, hvalues⟩, fun hperm => hne ?_⟩
      have hcount := (List.perm_append_right_iff (Json.sortItems values)).mp
        (show ([Json.sortKeys v] ++ _).Perm ([Json.sortKeys w] ++ _) from hperm)
      exact List.singleton_perm_singleton.mp hcount

theorem ambiguousFields {fields : List (String × Model)}
    (ih : ∀ e ∈ fields, ¬ Small e.2 → Ambiguous e.2) (h : ¬ SmallFields fields) :
    ∃ values values', DumpsFields fields values ∧ DumpsFields fields values' ∧
      ¬ (Json.sortFields values).Perm (Json.sortFields values') := by
  induction fields with
  | nil => exact absurd trivial h
  | cons e fields ihl =>
    obtain ⟨k, m⟩ := e
    by_cases hm : Small m
    · have hrest : ¬ SmallFields fields := fun hrest => h ⟨hm, hrest⟩
      obtain ⟨values, values', hv, hv', hne⟩ :=
        ihl (fun e he => ih e (List.mem_cons_of_mem _ he)) hrest
      obtain ⟨v, hdump⟩ := exists_dumps m
      refine ⟨(k, v) :: values, (k, v) :: values', ⟨v, values, rfl, hdump, hv⟩,
        ⟨v, values', rfl, hdump, hv'⟩, fun hperm => hne ?_⟩
      exact (List.perm_cons _).mp hperm
    · obtain ⟨v, w, hv, hw, hne⟩ := ih (k, m) List.mem_cons_self hm
      obtain ⟨values, hvalues⟩ := exists_dumpsFields fields
      refine ⟨(k, v) :: values, (k, w) :: values, ⟨v, values, rfl, hv, hvalues⟩,
        ⟨w, values, rfl, hw, hvalues⟩, fun hperm => hne ?_⟩
      have hcount := (List.perm_append_right_iff (Json.sortFields values)).mp
        (show ([(k, Json.sortKeys v)] ++ _).Perm ([(k, Json.sortKeys w)] ++ _) from hperm)
      exact (Prod.mk.inj (List.singleton_perm_singleton.mp hcount)).2

theorem ambiguous_of_not_small {m : Model} : ¬ Small m → Ambiguous m := by
  induction m with
  | value v => exact fun h => absurd trivial h
  | seq items ih =>
    intro h
    obtain ⟨values, values', hv, hv', hne⟩ := ambiguousItems ih h
    refine ⟨.arr values, .arr values', hv, hv', fun heq => hne ?_⟩
    rw [Json.sortKeys, Json.sortKeys, Json.arr.injEq] at heq
    rw [heq]
  | record fields ih =>
    intro h
    obtain ⟨values, values', hv, hv', hne⟩ := ambiguousFields ih h
    refine ⟨.obj values, .obj values', hv, hv', fun heq => hne ?_⟩
    rw [Json.sortKeys, Json.sortKeys, Json.obj.injEq] at heq
    exact (List.perm_insertionSort Json.keyLe _).symm.trans
      (heq ▸ List.perm_insertionSort Json.keyLe _)
  | set names =>
    intro h
    have horder := enumerates_toList names
    refine ⟨.arr (names.toList.map .str), .arr (names.toList.reverse.map .str),
      ⟨_, horder, rfl⟩, ⟨_, horder.reverse, rfl⟩, fun heq => ?_⟩
    rw [Json.sortKeys, Json.sortKeys, sortItems_map_str, sortItems_map_str, Json.arr.injEq] at heq
    have hinjective : Function.Injective Json.str := fun _ _ h => Json.str.inj h
    exact Enumerates.ne_reverse h horder (hinjective.list_map heq)

/-- All dumps of a model have one canonical text exactly when its sets are small. -/
theorem canonical_dumps_iff (rt : Runtime) (m : Model) :
    (∀ v w, Dumps m v → Dumps m w → Json.canonicalJson rt v = Json.canonicalJson rt w) ↔
      Small m := by
  constructor
  · intro h
    by_contra hsmall
    obtain ⟨v, w, hv, hw, hne⟩ := ambiguous_of_not_small hsmall
    exact hne ((Json.canonicalJson_eq_iff rt).mp (h v w hv hw))
  · intro hsmall v w hv hw
    rw [hsmall.dumps_unique hv hw]

end Model

end OsScanner

import Mathlib
import OsScanner.Json.Dump
import OsScanner.Json.Equality
import OsScanner.Storage.SnapshotStore

/-!
# Snapshots of data that has no order

An inventory holds sets, and its collections have no order. `normalize_snapshot` sorts the
items of a collection by their canonical texts, and that is all it sorts: a set inside of a
record keeps the order in which it was iterated. So an inventory has one hash exactly when the
sets that are kept have at most one element each, or are a collection of their own.
-/

namespace OsScanner.Storage

open Lib

/-! ## Sections without their volatile fields -/

def keptFields (volatile : List String) (fields : List (String × Model)) : List (String × Model) :=
  fields.filter fun e => decide (e.1 ∉ volatile)

def keptItem (volatile : List String) : Model → Model
  | .record fields => .record (keptFields volatile fields)
  | .value (.obj item) => .value (.obj (dropFields volatile item))
  | m => m

/-- The part of a section that is normalized. -/
def keptSection (volatile : List String) : Model → Model
  | .record fields => .record (keptFields volatile fields)
  | .seq items => .seq (items.map (keptItem volatile))
  | .value v => .value (dropVolatile volatile v)
  | m => m

/-- `volatile` for a section of this name. -/
def volatileOf (name : String) : List String := (Assoc.lookup name volatileFields).getD []

variable {volatile : List String}

theorem dumps_keptFields {fields : List (String × Model)} : ∀ {values : JsonObject},
    Model.DumpsFields fields values →
      Model.DumpsFields (keptFields volatile fields) (dropFields volatile values) := by
  induction fields with
  | nil =>
    intro values h
    rw [show values = [] from h]
    rfl
  | cons e fields ih =>
    obtain ⟨k, m⟩ := e
    rintro _ ⟨v, rest, rfl, hv, hrest⟩
    by_cases hk : k ∉ volatile
    · rw [keptFields, dropFields, List.filter_cons_of_pos (by simpa using hk),
        List.filter_cons_of_pos (by simpa using hk)]
      exact ⟨v, _, rfl, hv, ih hrest⟩
    · rw [keptFields, dropFields, List.filter_cons_of_neg (by simpa using hk),
        List.filter_cons_of_neg (by simpa using hk)]
      exact ih hrest

/-- Every dump of the kept fields is the kept part of a dump. -/
theorem exists_dumps_of_keptFields {fields : List (String × Model)} : ∀ {values : JsonObject},
    Model.DumpsFields (keptFields volatile fields) values →
      ∃ all, Model.DumpsFields fields all ∧ dropFields volatile all = values := by
  induction fields with
  | nil =>
    intro values h
    exact ⟨[], rfl, (show values = [] from h).symm⟩
  | cons e fields ih =>
    obtain ⟨k, m⟩ := e
    intro values h
    by_cases hk : k ∉ volatile
    · rw [keptFields, List.filter_cons_of_pos (by simpa using hk)] at h
      obtain ⟨v, rest, rfl, hv, hrest⟩ := h
      obtain ⟨all, hall, rfl⟩ := ih hrest
      refine ⟨(k, v) :: all, ⟨v, all, rfl, hv, hall⟩, ?_⟩
      rw [dropFields, List.filter_cons_of_pos (by simpa using hk)]
      rfl
    · rw [keptFields, List.filter_cons_of_neg (by simpa using hk)] at h
      obtain ⟨all, hall, rfl⟩ := ih h
      obtain ⟨v, hv⟩ := m.exists_dumps
      refine ⟨(k, v) :: all, ⟨v, all, rfl, hv, hall⟩, ?_⟩
      rw [dropFields, List.filter_cons_of_neg (by simpa using hk)]
      rfl

/-- The item that `drop_volatile` keeps. -/
def dropItem (volatile : List String) : Json → Json
  | .obj item => .obj (dropFields volatile item)
  | item => item

theorem dropVolatile_arr (items : List Json) :
    dropVolatile volatile (.arr items) = .arr (items.map (dropItem volatile)) := rfl

theorem dumps_keptItem {m : Model} {v : Json} (h : m.Dumps v) :
    (keptItem volatile m).Dumps (dropItem volatile v) := by
  cases m with
  | value w =>
    rw [show v = w from h]
    cases w <;> rfl
  | record fields =>
    cases v <;> try exact h.elim
    exact dumps_keptFields h
  | seq items =>
    cases v <;> try exact h.elim
    exact h
  | set names =>
    cases v <;> try exact h.elim
    exact h

theorem exists_dumps_of_keptItem {m : Model} {v : Json} (h : (keptItem volatile m).Dumps v) :
    ∃ all, m.Dumps all ∧ dropItem volatile all = v := by
  cases m with
  | value w =>
    refine ⟨w, rfl, ?_⟩
    cases w <;> exact (show v = _ from h).symm
  | record fields =>
    cases v <;> try exact h.elim
    obtain ⟨all, hall, rfl⟩ := exists_dumps_of_keptFields h
    exact ⟨.obj all, hall, rfl⟩
  | seq items =>
    refine ⟨v, h, ?_⟩
    cases v <;> try exact h.elim
    rfl
  | set names =>
    refine ⟨v, h, ?_⟩
    cases v <;> try exact h.elim
    rfl

theorem dumps_keptItems {items : List Model} : ∀ {values : List Json},
    Model.DumpsItems items values →
      Model.DumpsItems (items.map (keptItem volatile)) (values.map (dropItem volatile)) := by
  induction items with
  | nil =>
    intro values h
    rw [show values = [] from h]
    rfl
  | cons m items ih =>
    rintro _ ⟨v, rest, rfl, hv, hrest⟩
    exact ⟨_, _, rfl, dumps_keptItem hv, ih hrest⟩

theorem exists_dumps_of_keptItems {items : List Model} : ∀ {values : List Json},
    Model.DumpsItems (items.map (keptItem volatile)) values →
      ∃ all, Model.DumpsItems items all ∧ all.map (dropItem volatile) = values := by
  induction items with
  | nil =>
    intro values h
    exact ⟨[], rfl, (show values = [] from h).symm⟩
  | cons m items ih =>
    rintro _ ⟨v, rest, rfl, hv, hrest⟩
    obtain ⟨w, hw, rfl⟩ := exists_dumps_of_keptItem hv
    obtain ⟨all, hall, rfl⟩ := ih hrest
    exact ⟨w :: all, ⟨w, all, rfl, hw, hall⟩, rfl⟩

theorem dumps_keptSection {m : Model} {v : Json} (h : m.Dumps v) :
    (keptSection volatile m).Dumps (dropVolatile volatile v) := by
  cases m with
  | value w =>
    rw [show v = w from h]
    rfl
  | record fields =>
    cases v <;> try exact h.elim
    exact dumps_keptFields h
  | seq items =>
    cases v <;> try exact h.elim
    exact dumps_keptItems h
  | set names =>
    cases v <;> try exact h.elim
    obtain ⟨order, horder, rfl⟩ := h
    refine ⟨order, horder, ?_⟩
    rw [List.map_map]
    rfl

theorem exists_dumps_of_keptSection {m : Model} {v : Json} (h : (keptSection volatile m).Dumps v) :
    ∃ all, m.Dumps all ∧ dropVolatile volatile all = v := by
  cases m with
  | value w => exact ⟨w, rfl, (show v = _ from h).symm⟩
  | record fields =>
    cases v <;> try exact h.elim
    obtain ⟨all, hall, rfl⟩ := exists_dumps_of_keptFields h
    exact ⟨.obj all, hall, rfl⟩
  | seq items =>
    cases v <;> try exact h.elim
    obtain ⟨all, hall, rfl⟩ := exists_dumps_of_keptItems h
    exact ⟨.arr all, hall, rfl⟩
  | set names =>
    cases v <;> try exact h.elim
    obtain ⟨order, horder, rfl⟩ := h
    refine ⟨.arr (order.map .str), ⟨order, horder, rfl⟩, ?_⟩
    rw [dropVolatile_arr, List.map_map]
    rfl

/-! ## Sorted sections -/

/-- What `normalize_snapshot` does to a section whose volatile fields are dropped. -/
def sortSection (rt : Runtime) (name : String) : Json → Json
  | .arr items =>
    if name ∈ collectionSections then .arr (items.insertionSort (canonicalLe rt)) else .arr items
  | value => value

theorem dropFields_nil (item : JsonObject) : dropFields [] item = item := by
  rw [dropFields, List.filter_eq_self]
  simp

theorem dropVolatile_nil (v : Json) : dropVolatile [] v = v := by
  cases v with
  | obj item => rw [dropVolatile, dropFields_nil]
  | arr items =>
    rw [dropVolatile_arr]
    congr 1
    conv_rhs => rw [← List.map_id items]
    refine List.map_congr_left fun item _ => ?_
    cases item with
    | obj fields => rw [dropItem, dropFields_nil]; rfl
    | _ => rfl
  | _ => rfl

variable {rt : Runtime}

theorem normalizeSection_eq (name : String) (v : Json) :
    normalizeSection rt name v = sortSection rt name (dropVolatile (volatileOf name) v) := by
  unfold normalizeSection
  dsimp only
  show sortSection rt name (if volatileOf name = [] then v else dropVolatile (volatileOf name) v) = _
  split
  · next h => rw [h, dropVolatile_nil]
  · rfl

/-- Permuted items are sorted to items with the same texts. -/
theorem sortKeys_sorted_of_perm {values values' : List Json} (h : values.Perm values') :
    Json.sortKeys (.arr (values.insertionSort (canonicalLe rt))) =
      Json.sortKeys (.arr (values'.insertionSort (canonicalLe rt))) := by
  have hsorted : ∀ l : List Json,
      ((l.insertionSort (canonicalLe rt)).map (Json.canonicalJson rt)).Pairwise (· ≤ ·) := by
    intro l
    rw [List.pairwise_map]
    exact List.pairwise_insertionSort (canonicalLe rt) l
  have hperm : (values.insertionSort (canonicalLe rt)).Perm
      (values'.insertionSort (canonicalLe rt)) :=
    (List.perm_insertionSort _ _).trans (h.trans (List.perm_insertionSort _ _).symm)
  have htexts := List.Perm.eq_of_pairwise (fun a b _ _ => le_antisymm) (hsorted values)
    (hsorted values') (hperm.map (Json.canonicalJson rt))
  rw [Json.sortKeys, Json.sortKeys, Json.arr.injEq, Json.sortItems_eq, Json.sortItems_eq]
  refine List.ext_getElem (by simpa using hperm.length_eq) fun i hi hi' => ?_
  rw [List.getElem_map, List.getElem_map]
  refine (Json.canonicalJson_eq_iff rt).mp ?_
  have hat := congrArg (fun l : List String => l[i]?) htexts
  rw [List.length_map] at hi hi'
  simpa [List.getElem?_eq_getElem hi, List.getElem?_eq_getElem hi'] using hat

/-- Items that sort to the same texts had the same texts. -/
theorem perm_of_sortKeys_sorted {values values' : List Json}
    (h : Json.sortKeys (.arr (values.insertionSort (canonicalLe rt))) =
      Json.sortKeys (.arr (values'.insertionSort (canonicalLe rt)))) :
    (Json.sortItems values).Perm (Json.sortItems values') := by
  rw [Json.sortKeys, Json.sortKeys, Json.arr.injEq] at h
  have hsorted : ∀ l : List Json,
      (Json.sortItems l).Perm (Json.sortItems (l.insertionSort (canonicalLe rt))) := by
    intro l
    rw [Json.sortItems_eq, Json.sortItems_eq]
    exact ((List.perm_insertionSort _ _).symm).map _
  exact (hsorted values).trans (h ▸ (hsorted values').symm)

theorem rel_cases {α β : Type} {R : α → β → Prop} {a : Option α} {b : Option β}
    (h : Option.Rel R a b) : (a = none ∧ b = none) ∨ ∃ x y, a = some x ∧ b = some y ∧ R x y := by
  cases h with
  | none => exact Or.inl ⟨rfl, rfl⟩
  | some h => exact Or.inr ⟨_, _, rfl, rfl, h⟩

/-! ## When a section has one text -/

/-- The section is a collection that is a set itself, or its sets have at most one element. -/
def OrderlessSection (name : String) (m : Model) : Prop :=
  (name ∈ collectionSections ∧ ∃ names, m = .set names) ∨ m.Small

/-- Two sections that are equal as models: the items of a collection may be permuted. -/
def SameSection (name : String) (m m' : Model) : Prop :=
  m = m' ∨ name ∈ collectionSections ∧ ∃ items items', m = .seq items ∧ m' = .seq items' ∧
    items.Perm items'

theorem sortSection_of_not_mem {name : String} (h : name ∉ collectionSections) (v : Json) :
    sortSection rt name v = v := by
  cases v with
  | arr items => exact if_neg h
  | _ => rfl

theorem sortSection_arr {name : String} (h : name ∈ collectionSections) (items : List Json) :
    sortSection rt name (.arr items) = .arr (items.insertionSort (canonicalLe rt)) := if_pos h

/-- Dumps of an orderless section, in any order of its sets and items, are sorted to one text. -/
theorem sortSection_congr {name : String} {m m' : Model} (hm : OrderlessSection name m)
    (hsame : SameSection name m m') {v w : Json} (hv : m.Dumps v) (hw : m'.Dumps w) :
    Json.sortKeys (sortSection rt name v) = Json.sortKeys (sortSection rt name w) := by
  obtain rfl | ⟨hname, items, items', rfl, rfl, hperm⟩ := hsame
  · obtain ⟨hname, names, rfl⟩ | hsmall := hm
    · cases v <;> try exact hv.elim
      cases w <;> try exact hw.elim
      obtain ⟨order, horder, rfl⟩ := hv
      obtain ⟨order', horder', rfl⟩ := hw
      rw [sortSection_arr hname, sortSection_arr hname]
      have hperm : order.Perm order' := (List.perm_ext_iff_of_nodup horder.nodup horder'.nodup).mpr
        fun text => (horder.mem text).trans (horder'.mem text).symm
      exact sortKeys_sorted_of_perm (hperm.map _)
    · rw [hsmall.dumps_unique hv hw]
  · obtain ⟨-, names, hset⟩ | hsmall := hm
    · cases hset
    · cases v <;> try exact hv.elim
      cases w <;> try exact hw.elim
      rw [sortSection_arr hname, sortSection_arr hname]
      exact sortKeys_sorted_of_perm (Model.perm_of_dumpsItems hperm hsmall hv hw)

theorem SameSection.kept {name : String} {m m' : Model} (h : SameSection name m m')
    (volatile : List String) :
    SameSection name (keptSection volatile m) (keptSection volatile m') := by
  obtain rfl | ⟨hname, items, items', rfl, rfl, hperm⟩ := h
  · exact Or.inl rfl
  · exact Or.inr ⟨hname, _, _, rfl, rfl, hperm.map _⟩

/-- A section that is not orderless has two dumps that are sorted to different texts. -/
theorem exists_dumps_ne {name : String} {m : Model} (h : ¬ OrderlessSection name m) :
    ∃ v w, m.Dumps v ∧ m.Dumps w ∧
      Json.sortKeys (sortSection rt name v) ≠ Json.sortKeys (sortSection rt name w) := by
  rw [OrderlessSection, not_or] at h
  obtain ⟨hset, hsmall⟩ := h
  by_cases hname : name ∈ collectionSections
  · cases m with
    | value v => exact absurd trivial hsmall
    | set names => exact absurd ⟨hname, names, rfl⟩ hset
    | seq items =>
      obtain ⟨values, values', hv, hv', hne⟩ :=
        Model.ambiguousItems (fun _ _ => Model.ambiguous_of_not_small) hsmall
      refine ⟨.arr values, .arr values', hv, hv', fun heq => hne ?_⟩
      rw [sortSection_arr hname, sortSection_arr hname] at heq
      exact perm_of_sortKeys_sorted heq
    | record fields =>
      obtain ⟨v, w, hv, hw, hne⟩ := Model.ambiguous_of_not_small hsmall
      cases v <;> try exact hv.elim
      cases w <;> try exact hw.elim
      exact ⟨_, _, hv, hw, hne⟩
  · obtain ⟨v, w, hv, hw, hne⟩ := Model.ambiguous_of_not_small hsmall
    refine ⟨v, w, hv, hw, ?_⟩
    rw [sortSection_of_not_mem hname, sortSection_of_not_mem hname]
    exact hne

/-! ## Inventories -/

/-- An inventory as a model: its sections under their names. -/
structure Inventory where
  sections : Dict String Model
  keyed : ∀ name m, sections.get? name = some m → m.Keyed

namespace Inventory

/-- The snapshot is one of the dumps of the inventory, with its sections in any order. -/
def Dumps (inventory : Inventory) (snapshot : JsonObject) : Prop :=
  ∃ fields, fields.Perm inventory.sections.entries ∧ Model.DumpsFields fields snapshot

/-- Two inventories that are equal as models. -/
def Same (a b : Inventory) : Prop :=
  ∀ name, Option.Rel (SameSection name) (a.sections.get? name) (b.sections.get? name)

/-- The sets that the snapshot keeps have at most one element, or are collections themselves. -/
def Orderless (inventory : Inventory) : Prop :=
  ∀ name m, name ≠ "processes" → inventory.sections.get? name = some m →
    OrderlessSection name (keptSection (volatileOf name) m)

theorem same_refl (inventory : Inventory) : inventory.Same inventory := by
  intro name
  cases inventory.sections.get? name with
  | none => exact .none
  | some m => exact .some (Or.inl rfl)

variable {inventory other : Inventory} {snapshot snapshot' : JsonObject}

theorem nodup_dump (h : inventory.Dumps snapshot) : (snapshot.map Prod.fst).Nodup := by
  obtain ⟨fields, hperm, hdump⟩ := h
  rw [Model.map_fst_dumpsFields hdump]
  exact (hperm.map Prod.fst).nodup_iff.mpr inventory.sections.nodup

theorem lookup_dump (h : inventory.Dumps snapshot) (name : String) :
    Option.Rel Model.Dumps (inventory.sections.get? name) (Assoc.lookup name snapshot) := by
  obtain ⟨fields, hperm, hdump⟩ := h
  have hnodup := (hperm.map Prod.fst).nodup_iff.mpr inventory.sections.nodup
  have hlookup : inventory.sections.get? name = Assoc.lookup name fields := by
    refine Option.ext fun m => ?_
    constructor
    · intro hm
      exact Assoc.lookup_of_mem hnodup (hperm.mem_iff.mpr (Dict.mem_entries_iff.mpr hm))
    · intro hm
      exact Dict.mem_entries_iff.mp (hperm.mem_iff.mp (Assoc.mem_of_lookup hm))
  rw [hlookup]
  exact Model.lookup_dumpsFields hdump name

/-- Equal inventories that are orderless have the same sections after normalization. -/
theorem lookup_normalized (hsmall : inventory.Orderless) (hsame : inventory.Same other)
    (hv : inventory.Dumps snapshot) (hw : other.Dumps snapshot') (name : String) :
    (Assoc.lookup name (normalizeSnapshot rt snapshot)).map Json.sortKeys =
      (Assoc.lookup name (normalizeSnapshot rt snapshot')).map Json.sortKeys := by
  rw [lookup_normalizeSnapshot, lookup_normalizeSnapshot]
  by_cases hname : name = "processes"
  · rw [if_pos hname, if_pos hname]
  · rw [if_neg hname, if_neg hname]
    have hleft := lookup_dump hv name
    have hright := lookup_dump hw name
    have hsections := hsame name
    obtain ⟨hnone, hnone'⟩ | ⟨m, m', hm, hm', hpair⟩ := rel_cases hsections
    · rw [hnone] at hleft
      rw [hnone'] at hright
      obtain ⟨-, hv⟩ | ⟨_, _, hcase, -⟩ := rel_cases hleft
      · obtain ⟨-, hw⟩ | ⟨_, _, hcase, -⟩ := rel_cases hright
        · rw [hv, hw]
        · cases hcase
      · cases hcase
    · rw [hm] at hleft
      rw [hm'] at hright
      obtain ⟨hcase, -⟩ | ⟨_, v, hcase, hv, hdump⟩ := rel_cases hleft
      · cases hcase
      obtain ⟨hcase', -⟩ | ⟨_, w, hcase', hw, hdump'⟩ := rel_cases hright
      · cases hcase'
      cases hcase
      cases hcase'
      rw [hv, hw, Option.map_some, Option.map_some, Option.map_some, Option.map_some,
        normalizeSection_eq, normalizeSection_eq,
        sortSection_congr (hsmall name m hname hm) (hpair.kept _) (dumps_keptSection hdump)
          (dumps_keptSection hdump')]

/-- The normalized snapshots of equal inventories that are orderless have one text. -/
theorem sortKeys_normalized (hsmall : inventory.Orderless) (hsame : inventory.Same other)
    (hv : inventory.Dumps snapshot) (hw : other.Dumps snapshot') :
    Json.sortKeys (.obj (normalizeSnapshot rt snapshot)) =
      Json.sortKeys (.obj (normalizeSnapshot rt snapshot')) :=
  Json.sortKeys_obj_eq (nodup_normalizeSnapshot (nodup_dump hv))
    (nodup_normalizeSnapshot (nodup_dump hw)) (lookup_normalized hsmall hsame hv hw)

/-- The dump of one section can be chosen. -/
theorem exists_dump_with {name : String} {m : Model} {v : Json}
    (hm : inventory.sections.get? name = some m) (hv : m.Dumps v) :
    ∃ snapshot, inventory.Dumps snapshot ∧ Assoc.lookup name snapshot = some v := by
  obtain ⟨values, hvalues, hlookup⟩ := Model.exists_dumpsFields_with hm hv
  exact ⟨values, ⟨_, List.Perm.refl _, hvalues⟩, hlookup⟩

/-- Only an orderless inventory has one text. -/
theorem orderless_of_sortKeys (h : ∀ snapshot snapshot', inventory.Dumps snapshot →
    inventory.Dumps snapshot' → Json.sortKeys (.obj (normalizeSnapshot rt snapshot)) =
      Json.sortKeys (.obj (normalizeSnapshot rt snapshot'))) : inventory.Orderless := by
  intro name m hname hm
  by_contra hsection
  obtain ⟨_, _, hkept, hkept', hne⟩ := @exists_dumps_ne rt name _ hsection
  obtain ⟨v, hv, rfl⟩ := exists_dumps_of_keptSection hkept
  obtain ⟨w, hw, rfl⟩ := exists_dumps_of_keptSection hkept'
  obtain ⟨snapshot, hdump, hlookup⟩ := exists_dump_with hm hv
  obtain ⟨snapshot', hdump', hlookup'⟩ := exists_dump_with hm hw
  have hsame := Json.lookup_of_sortKeys_eq (h snapshot snapshot' hdump hdump') name
  rw [lookup_normalizeSnapshot, lookup_normalizeSnapshot, if_neg hname, if_neg hname, hlookup,
    hlookup', Option.map_some, Option.map_some, Option.map_some, Option.map_some,
    Option.some.injEq, normalizeSection_eq, normalizeSection_eq] at hsame
  exact hne hsame

end Inventory

/-! ## Comparing equal snapshots -/

theorem wellFormed_dropFields {item : JsonObject} (h : (Json.obj item).wellFormed = true) :
    (Json.obj (dropFields volatile item)).wellFormed = true := by
  obtain ⟨hnodup, hvalues⟩ := Json.wellFormed_obj_iff.mp h
  refine Json.wellFormed_obj_iff.mpr ⟨?_, fun e he => hvalues e (List.mem_of_mem_filter he)⟩
  exact hnodup.sublist (List.filter_sublist.map Prod.fst)

theorem wellFormed_normalizeSection {name : String} {v : Json} (h : v.wellFormed = true) :
    (normalizeSection rt name v).wellFormed = true := by
  have hdropped : (dropVolatile (volatileOf name) v).wellFormed = true := by
    cases v with
    | obj item => exact wellFormed_dropFields h
    | arr items =>
      rw [dropVolatile_arr, Json.wellFormed_arr_iff]
      intro w hw
      obtain ⟨item, hitem, rfl⟩ := List.mem_map.mp hw
      have hformed := Json.wellFormed_arr_iff.mp h item hitem
      cases item with
      | obj fields => exact wellFormed_dropFields hformed
      | _ => exact hformed
    | _ => exact h
  rw [normalizeSection_eq]
  cases hv : dropVolatile (volatileOf name) v with
  | arr items =>
    rw [hv] at hdropped
    rw [sortSection]
    split
    · rw [Json.wellFormed_arr_iff]
      intro w hw
      exact Json.wellFormed_arr_iff.mp hdropped w (List.mem_insertionSort _ |>.mp hw)
    · exact hdropped
  | _ => rw [hv] at hdropped; exact hdropped

/-- Snapshots whose sections have the same texts do not differ. -/
theorem compareSnapshots_eq_nil {before after : JsonObject}
    (hformed : ∀ name v, Assoc.lookup name before = some v → v.wellFormed = true)
    (h : ∀ name, (Assoc.lookup name before).map Json.sortKeys =
      (Assoc.lookup name after).map Json.sortKeys) :
    compareSnapshots rt (some (parsed before)) after = [] := by
  rw [compareSnapshots, List.map_eq_nil_iff, List.filter_eq_nil_iff]
  intro name hname
  rw [Bool.not_eq_true, Bool.not_eq_false']
  have hlookup : Assoc.lookup name (parsed before) = (Assoc.lookup name before).map Json.sortKeys :=
    Json.lookup_sortedFields name before
  have hname' := h name
  cases hbefore : Assoc.lookup name before with
  | none =>
    rw [hbefore, Option.map_none, eq_comm, Option.map_eq_none_iff] at hname'
    rw [hbefore, Option.map_none] at hlookup
    obtain hmem | hmem := mem_sectionNames.mp hname
    · rw [← Assoc.lookup_isSome_iff, hlookup] at hmem
      cases hmem
    · rw [← Assoc.lookup_isSome_iff, hname'] at hmem
      cases hmem
  | some v =>
    rw [hbefore, Option.map_some, eq_comm, Option.map_eq_some_iff] at hname'
    obtain ⟨w, hw, hsame⟩ := hname'
    rw [hbefore, Option.map_some] at hlookup
    have heq : Json.pyEq (Json.sortKeys v) w = true :=
      Json.pyEq_of_sortKeys_eq _ (Json.wellFormed_sortKeys (hformed name v hbefore)) w
        ((Json.sortKeys_sortKeys v).trans hsame.symm)
    rw [sectionUnchanged, JsonObject.get, JsonObject.get, JsonObject.has, JsonObject.has, hlookup, hw]
    simpa using heq

namespace Inventory

variable {inventory other : Inventory} {snapshot snapshot' : JsonObject}

theorem wellFormed_normalized (h : inventory.Dumps snapshot) (name : String) (v : Json)
    (hv : Assoc.lookup name (normalizeSnapshot rt snapshot) = some v) : v.wellFormed = true := by
  rw [lookup_normalizeSnapshot] at hv
  by_cases hname : name = "processes"
  · rw [if_pos hname] at hv; cases hv
  · rw [if_neg hname, Option.map_eq_some_iff] at hv
    obtain ⟨u, hu, rfl⟩ := hv
    obtain ⟨-, hnone⟩ | ⟨m, u', hm, hu', hdump⟩ := rel_cases (lookup_dump h name)
    · rw [hnone] at hu; cases hu
    · rw [hu, Option.some.injEq] at hu'
      subst hu'
      exact wellFormed_normalizeSection
        (Model.wellFormed_of_dumps (inventory.keyed name m hm) hdump)

/-- Nothing changed between two dumps of equal inventories that are orderless. -/
theorem compareSnapshots_same (hsmall : inventory.Orderless) (hsame : inventory.Same other)
    (hv : inventory.Dumps snapshot) (hw : other.Dumps snapshot') :
    compareSnapshots rt (some (parsed (normalizeSnapshot rt snapshot)))
      (normalizeSnapshot rt snapshot') = [] :=
  compareSnapshots_eq_nil (wellFormed_normalized hv) (lookup_normalized hsmall hsame hv hw)

end Inventory

/-! ## Storing an inventory that did not change -/

/-- The latest snapshot of the endpoint holds what this snapshot is normalized to. -/
def ScanStore.HoldsSnapshot (rt : Runtime) (store : ScanStore) (endpointId : String)
    (snapshot : JsonObject) : Prop :=
  ∃ id row, store.latest? endpointId = some (id, row) ∧
    store.payloads.get? row.payloadHash =
      some (Json.sortKeys (.obj (normalizeSnapshot rt snapshot)))

/-- A call that reports that nothing changed, and an upload that says so. -/
def ReportsUnchanged (result : Except StorageError SnapshotChange × ScanStore) : Prop :=
  ∃ change, result.1 = .ok change ∧ change.initial = false ∧ change.changed = false ∧
    change.changes = .arr [] ∧
      ∃ envelope, snapshotUploadPayload result.2 change.snapshotId =
        .ok (envelope ++ [("mode", .str "unchanged")])

theorem contains_insertSnapshot (store : ScanStore) (row : SnapshotRow) (normalized : JsonObject) :
    ∃ payload, (store.insertSnapshot row normalized).payloads.get? row.payloadHash = some payload := by
  rw [ScanStore.insertSnapshot]
  dsimp only
  split
  · next h => exact Dict.contains_iff.mp h
  · exact ⟨_, Dict.get?_set_self _ _ _⟩

/-- The snapshot of a new scan is what the endpoint's latest snapshot holds. -/
theorem holdsSnapshot_storeChecked {now endpoint scan : String} {versions : SnapshotVersions}
    {snapshot : JsonObject} {store store' : ScanStore} {change : SnapshotChange}
    (hnew : store.ofScan? scan = none)
    (hpayload : ∀ payload, store.payloads.get? (snapshotHash rt snapshot) = some payload →
      payload = Json.sortKeys (.obj (normalizeSnapshot rt snapshot)))
    (h : storeChecked rt now endpoint scan versions snapshot store = .ok (change, store')) :
    store'.HoldsSnapshot rt endpoint snapshot := by
  unfold storeChecked at h
  dsimp only at h
  rw [show (store.withScan rt scan endpoint now).ofScan? scan = none from hnew] at h
  cases h
  have hstored : ((store.withScan rt scan endpoint now).insertSnapshot
      ((store.withScan rt scan endpoint now).newSnapshot rt endpoint scan versions snapshot)
      (normalizeSnapshot rt snapshot)).payloads.get? (snapshotHash rt snapshot) =
        some (Json.sortKeys (.obj (normalizeSnapshot rt snapshot))) := by
    rw [ScanStore.insertSnapshot]
    dsimp only
    split
    · next hcontains =>
      obtain ⟨payload, hget⟩ := Dict.contains_iff.mp hcontains
      rw [← hpayload payload hget]
      exact hget
    · exact Dict.get?_set_self _ _ _
  refine ⟨_, _, Table.last?_insert ?_, hstored⟩
  rw [Bool.and_eq_true]
  exact ⟨decide_eq_true rfl, Dict.contains_iff.mpr ⟨_, hstored⟩⟩

/-- Without a difference to the latest snapshot there is nothing to report. -/
theorem diffWith_latest {endpoint : String} {snapshot snapshot' : JsonObject} {store : ScanStore}
    (hholds : store.HoldsSnapshot rt endpoint snapshot)
    (hsame : compareSnapshots rt (some (parsed (normalizeSnapshot rt snapshot)))
      (normalizeSnapshot rt snapshot') = []) :
    store.diffWith rt (store.latest? endpoint) (normalizeSnapshot rt snapshot') =
      ⟨false, false, []⟩ := by
  obtain ⟨id, row, hlatest, hpayload⟩ := hholds
  have hchanges : compareSnapshots rt
      ((store.payloads.get? row.payloadHash).map ScanStore.fieldsOf)
        (normalizeSnapshot rt snapshot') = [] := by
    rw [hpayload, Option.map_some, Json.sortKeys]
    exact hsame
  rw [hlatest]
  unfold ScanStore.diffWith
  dsimp only [Option.bind_some]
  rw [hchanges]
  rfl

theorem storeSnapshot_unchanged {now endpointId scanId endpoint scan schemaVersion : String}
    {versions : SnapshotVersions} {snapshot snapshot' : JsonObject} {store : ScanStore}
    (hendpoint : cleanIdentifier (.str endpointId) "endpoint_id" = .ok endpoint)
    (hscan : cleanIdentifier (.str scanId) "scan_id" = .ok scan)
    (hversion : cleanIdentifier (.str versions.schemaVersion) "schema_version" 64 =
      .ok schemaVersion)
    (hholds : store.HoldsSnapshot rt endpoint snapshot) (hnew : store.ofScan? scan = none)
    (hsame : compareSnapshots rt (some (parsed (normalizeSnapshot rt snapshot)))
      (normalizeSnapshot rt snapshot') = []) :
    ReportsUnchanged ((storeSnapshot rt now endpointId scanId versions snapshot').run store) := by
  unfold storeSnapshot
  rw [Method.run_ofExcept_bind, hendpoint]
  dsimp only
  rw [Method.run_ofExcept_bind, hscan]
  dsimp only
  rw [Method.run_ofExcept_bind, hversion]
  dsimp only
  -- The scan gets a placeholder, which the snapshots do not depend on.
  let store' := store.withScan rt scan endpoint now
  let row := store'.newSnapshot rt endpoint scan { versions with schemaVersion } snapshot'
  have hdiff : store'.diffWith rt (store'.latest? endpoint) (normalizeSnapshot rt snapshot') =
      ⟨false, false, []⟩ := diffWith_latest hholds hsame
  have hrowdiff : row.diff = SnapshotDiff.column ⟨false, false, []⟩ :=
    congrArg SnapshotDiff.column hdiff
  have hchanged : row.changed = false := congrArg SnapshotDiff.changed hdiff
  have hstore : storeChecked rt now endpoint scan { versions with schemaVersion } snapshot' store =
      .ok (store'.changeOf store'.snapshots.nextId row,
        store'.insertSnapshot row (normalizeSnapshot rt snapshot')) := by
    unfold storeChecked
    dsimp only
    rw [show (store.withScan rt scan endpoint now).ofScan? scan = none from hnew]
  have hread : snapshotUploadPayload (store'.insertSnapshot row (normalizeSnapshot rt snapshot'))
      store'.snapshots.nextId = .ok (uploadEnvelope
        (store'.insertSnapshot row (normalizeSnapshot rt snapshot')) row ++
          [("mode", .str "unchanged")]) := by
    have hrow : (store'.insertSnapshot row (normalizeSnapshot rt snapshot')).snapshots.get?
        store'.snapshots.nextId = some row := Table.get?_insert_self _ _
    obtain ⟨payload, hpayload⟩ :=
      contains_insertSnapshot store' row (normalizeSnapshot rt snapshot')
    rw [snapshotUploadPayload, hrow]
    dsimp only
    rw [hpayload]
    dsimp only
    rw [uploadSections, hrowdiff, initial_column, changed_column]
    rfl
  rw [Method.atomically_eq_ok.mpr hstore]
  refine ⟨_, rfl, ?_, hchanged, ?_, _, hread⟩
  · show truthy (row.diff.get "initial") = false
    rw [hrowdiff, initial_column]
  · show row.diff.get "changes" = .arr []
    rw [hrowdiff, changes_column]
    rfl

/-! ## Inventories of one hash -/

/--
What change detection relies on: the dumps of equal inventories have one hash, and a scan that
finds what the endpoint's latest snapshot holds is reported and uploaded as unchanged.
-/
structure StaysUnchanged (rt : Runtime) (inventory : Inventory) : Prop where
  hash : ∀ other snapshot snapshot', inventory.Same other → inventory.Dumps snapshot →
    other.Dumps snapshot' → snapshotHash rt snapshot = snapshotHash rt snapshot'
  unchanged : ∀ other snapshot snapshot', inventory.Same other → inventory.Dumps snapshot →
    other.Dumps snapshot' → ∀ now endpointId scanId versions endpoint scan schemaVersion store,
      cleanIdentifier (.str endpointId) "endpoint_id" = .ok endpoint →
      cleanIdentifier (.str scanId) "scan_id" = .ok scan →
      cleanIdentifier (.str versions.schemaVersion) "schema_version" 64 = .ok schemaVersion →
      store.HoldsSnapshot rt endpoint snapshot → store.ofScan? scan = none →
        ReportsUnchanged ((storeSnapshot rt now endpointId scanId versions snapshot').run store)

/-- An inventory stays unchanged exactly when it is orderless. -/
theorem staysUnchanged_iff (rt : Runtime) (inventory : Inventory)
    (hcollision : ∀ snapshot snapshot', inventory.Dumps snapshot → inventory.Dumps snapshot' →
      snapshotHash rt snapshot = snapshotHash rt snapshot' →
        Json.canonicalJson rt (.obj (normalizeSnapshot rt snapshot)) =
          Json.canonicalJson rt (.obj (normalizeSnapshot rt snapshot'))) :
    StaysUnchanged rt inventory ↔ inventory.Orderless := by
  constructor
  · intro h
    refine @Inventory.orderless_of_sortKeys rt inventory (fun snapshot snapshot' hv hw => ?_)
    exact (Json.canonicalJson_eq_iff rt).mp (hcollision snapshot snapshot' hv hw
      (h.hash inventory snapshot snapshot' inventory.same_refl hv hw))
  · intro hsmall
    constructor
    · intro other snapshot snapshot' hsame hv hw
      have htexts : Json.canonicalJson rt (.obj (normalizeSnapshot rt snapshot)) =
          Json.canonicalJson rt (.obj (normalizeSnapshot rt snapshot')) :=
        (Json.canonicalJson_eq_iff rt).mpr (Inventory.sortKeys_normalized hsmall hsame hv hw)
      exact congrArg rt.hashText htexts
    · intro other snapshot snapshot' hsame hv hw now endpointId scanId versions endpoint scan
        schemaVersion store hendpoint hscan hversion hholds hnew
      exact storeSnapshot_unchanged hendpoint hscan hversion hholds hnew
        (Inventory.compareSnapshots_same hsmall hsame hv hw)

/-! ## A user in two groups -/

/-- One user, in these groups. -/
def usersInventory (groups : Finset String) : Inventory where
  sections := ⟨[("users", .seq [.record [("username", .value (.str "alice")),
    ("groups", .set groups)]])], List.nodup_singleton _⟩
  keyed := by
    intro name m hm
    obtain ⟨rfl, rfl⟩ := Prod.mk.inj (List.mem_singleton.mp (Dict.mem_entries_iff.mpr hm))
    have hnames : ["username", "groups"].Nodup := by decide
    exact ⟨⟨hnames, rfl, trivial, trivial⟩, trivial⟩

/-- The dump in a process that iterates the groups in this order. -/
def usersSnapshot (order : List String) : JsonObject :=
  [("users", .arr [.obj [("username", .str "alice"), ("groups", .arr (order.map .str))]])]

theorem dumps_usersInventory {groups : Finset String} {order : List String}
    (h : Enumerates order groups) : (usersInventory groups).Dumps (usersSnapshot order) := by
  refine ⟨_, List.Perm.refl _, _, _, rfl, ?_, rfl⟩
  exact ⟨_, _, rfl, ⟨_, _, rfl, rfl, _, _, rfl, ⟨order, h, rfl⟩, rfl⟩, rfl⟩

/-- With one group the inventory stays unchanged. -/
theorem staysUnchanged_usersInventory :
    StaysUnchanged Runtime.sample (usersInventory {"adm"}) := by
  have hsmall : (usersInventory {"adm"}).Orderless := by
    intro name m _ hm
    obtain ⟨rfl, rfl⟩ := Prod.mk.inj (List.mem_singleton.mp (Dict.mem_entries_iff.mpr hm))
    exact Or.inr ⟨⟨trivial, Finset.card_singleton _ |>.le, trivial⟩, trivial⟩
  refine (staysUnchanged_iff Runtime.sample (usersInventory {"adm"}) ?_).mpr hsmall
  intro snapshot snapshot' hv hw _
  exact (Json.canonicalJson_eq_iff _).mpr
    (Inventory.sortKeys_normalized hsmall (Inventory.same_refl _) hv hw)

/-- What storing a snapshot says: whether it is the first one, and whether it changed. -/
def reported (result : Except StorageError SnapshotChange × ScanStore) : Option (Bool × Bool) :=
  match result.1 with
  | .ok change => some (change.initial, change.changed)
  | .error _ => none

def storeUsers (scanId : String) (order : List String) : SnapshotMethod SnapshotChange :=
  storeSnapshot Runtime.sample "now" "laptop-7" scanId { schemaVersion := "1.0" }
    (usersSnapshot order)

/-- With two groups a process that iterates them the other way round reports a change. -/
theorem usersInventory_changes :
    ¬ StaysUnchanged Runtime.sample (usersInventory {"adm", "sudo"}) ∧
      reported ((storeUsers "scan-2" ["sudo", "adm"]).run
        ((storeUsers "scan-1" ["adm", "sudo"]).run ScanStore.empty).2) = some (false, true) := by
  constructor
  · intro h
    have hmem : ∀ name, name ∈ ["adm", "sudo"] ↔ name ∈ ({"adm", "sudo"} : Finset String) := by
      simp
    have horder : Enumerates ["adm", "sudo"] {"adm", "sudo"} := ⟨by decide, hmem⟩
    have hhash := h.hash _ _ _ (Inventory.same_refl _) (dumps_usersInventory horder)
      (dumps_usersInventory horder.reverse)
    revert hhash
    unfold snapshotHash Json.canonicalSha256 Runtime.hashText Json.canonicalJson
    rw [utf8Bytes_ofList, utf8Bytes_ofList]
    decide +kernel
  · decide +kernel

end OsScanner.Storage

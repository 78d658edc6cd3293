import Mathlib
import OsScanner.Policies.Entries
import OsScanner.Policies.Totality

/-!
# Evidence that shows why a rule matched

The items of a collection that the evidence of a rule shows are those that satisfy what the rule
says about the items as a whole, and only the first twenty of them. So they need not be the items
that the `any_item` conditions of the rule have found.
-/

namespace OsScanner.Policies

open Lib Lib.Check Cloud Security
open Normalization (isObject)

variable (rt : Runtime) (py : Python)

/-! ## The items in the evidence -/

/-- The items that the evidence of a field is taken from. -/
def candidates (rule : RuleFields) (data : Value) (field : String) : List Value :=
  match gathered (fieldValues py data field) with
  | .arr items => (matchedItems rt py rule field items).value
  | value => [value]

/-- The first of them, which are shown. -/
def shownItems (rule : RuleFields) (data : Value) (field : String) : List Value :=
  (candidates rt py rule data field).take 20

def arrayItems : Json → List Json
  | .arr items => items
  | _ => []

def fieldOf (name : String) : Json → Json
  | .obj fields => JsonObject.get fields name
  | _ => .null

/-- The entries of the evidence of a field, one for each item that is shown. -/
def entries (rule : RuleFields) (data : Value) (field : String) (evidence : Json) : List Json :=
  match gathered (fieldValues py data field) with
  | .arr _ =>
    if (candidates rt py rule data field).length > 20 then arrayItems (fieldOf "sample" evidence)
    else arrayItems evidence
  | _ => [evidence]

/-- When the turn of an item comes, redaction has not visited 20,000 values, and there is some budget
left. The item is at this depth, and this many values come before the items. -/
def HasRoom (depth before : Nat) (items : List Value) (k budget : Nat) : Prop :=
  let earlier := redactItemsWalk rt py depth (items.take k) before
  earlier.2 < 20000 ∧ (boundItems py depth (sortKeysOfItems earlier.1) 64 (budget - before)).2 ≠ 0

/-- There is room for an item that is shown, when the evidence of the field has this budget. -/
def RoomFor (rule : RuleFields) (data : Value) (field : String) (k budget : Nat) : Prop :=
  match gathered (fieldValues py data field) with
  | .arr _ =>
    if (candidates rt py rule data field).length > 20 then
      HasRoom rt py 2 3 (shownItems rt py rule data field) k budget
    else HasRoom rt py 1 1 (shownItems rt py rule data field) k budget
  | _ => budget ≠ 0

variable {rt py}

/-! ## Lists of items -/

theorem budget_of_hasRoom {depth before k budget : Nat} {items : List Value}
    (h : HasRoom rt py depth before items k budget) : before < budget := by
  by_contra hle
  have hzero : budget - before = 0 := by omega
  refine h.2 ?_
  rw [hzero, boundItems_zero]

/-- The entry of an item is an object exactly when there is room for the item. -/
theorem entry_iff {depth before k budget : Nat} {items : List Value} {item : Value} {js : List Json}
    {isWord : Char → Bool} (hdepth : depth < 6) (hk : k < 64) (hitem : items[k]? = some item)
    (hmapping : item.isMapping = true)
    (hjs : Value.toJsonItems (boundItems py depth (sortKeysOfItems
      (redactItemsWalk rt py depth items before).1) 64 (budget - before)).1 = some js) :
    ((redactItems rt isWord js)[k]?.any isObject = true) ↔
      HasRoom rt py depth before items k budget := by
  have htake : (sortKeysOfItems (redactItemsWalk rt py depth items before).1).take k =
      sortKeysOfItems (redactItemsWalk rt py depth (items.take k) before).1 := by
    rw [sortKeysOfItems_eq, sortKeysOfItems_eq, ← List.map_take, take_redactItemsWalk]
  have hget : (sortKeysOfItems (redactItemsWalk rt py depth items before).1)[k]? =
      some (sortKeys (redactWalk rt py depth false item
        (redactItemsWalk rt py depth (items.take k) before).2).1) := by
    rw [sortKeysOfItems_eq, List.getElem?_map, getElem?_redactItemsWalk, hitem]
    rfl
  have hentry := @getElem?_boundItems py depth
    (sortKeysOfItems (redactItemsWalk rt py depth items before).1) 64 (budget - before) k hk
  rw [htake, hget] at hentry
  rw [redactItems_eq, List.getElem?_map]
  rcases @getElem?_toJsonItems _ js k hjs with ⟨hnone, hvalue⟩ | ⟨j, value, hj, hvalue, hjson⟩
  · rw [hnone]
    refine iff_of_false Bool.false_ne_true fun hroom => ?_
    rw [hvalue, if_neg hroom.2] at hentry
    cases hentry
  · have hobject : ((some j).map (redactTree rt isWord false)).any isObject = value.isMapping := by
      rw [Option.map_some, Option.any_some, isObject_redactTree, isObject_toJson hjson]
    rw [hj, hobject]
    rw [hvalue] at hentry
    split at hentry
    · cases hentry
    · next hbudget =>
      rw [Option.map_some, Option.some.injEq] at hentry
      rw [hentry, isMapping_bound hdepth, isMapping_sortKeys, isMapping_redactWalk (by omega)]
      exact ⟨fun h => ⟨h.1.2, h.2⟩, fun h => ⟨⟨hmapping, h.1⟩, h.2⟩⟩

/-! ## Layouts -/

theorem hides_of_not_sensitive {name : String} {j : Json} (h : isSensitiveKey name = false) :
    hides rt name j = false := by
  rw [hides, h, Bool.false_and]

theorem hides_structured {name : String} {j : Json} (h : isSensitiveKey name = true)
    (hj : isObject j = true ∨ ∃ items, j = .arr items) : hides rt name j = true := by
  have hfact : isNonSecretSecurityFact rt name j = false := by
    rcases hj with hj | ⟨items, rfl⟩
    · cases j with
      | obj fields => exact Bool.and_false _
      | _ => cases hj
    · exact Bool.and_false _
  rw [hides, h, hfact]
  rfl

theorem arrayItems_redactTree {isWord : Char → Bool} {sensitive : Bool} (j : Json) :
    arrayItems (redactTree rt isWord sensitive j) =
      if sensitive then [] else redactItems rt isWord (arrayItems j) := by
  cases sensitive with
  | true =>
    rw [redactTree_sensitive]
    rfl
  | false => cases j <;> rfl

/-- The evidence of at most twenty items. -/
theorem entry_list {name : String} {items : List Value} {k budget : Nat} {item : Value} {j : Json}
    {isWord : Char → Bool} (hk : k < 64) (hitem : items[k]? = some item)
    (hmapping : item.isMapping = true)
    (hj : (bound py 0 (sortKeys (redactEvidence rt py (.arr items))) budget).1.toJson? = some j) :
    ((arrayItems (redactTree rt isWord (hides rt name j) j))[k]?.any isObject = true) ↔
      isSensitiveKey name = false ∧ HasRoom rt py 1 1 items k budget := by
  have hredacted : redactEvidence rt py (.arr items) = .arr (redactItemsWalk rt py 1 items 1).1 := rfl
  rw [hredacted, sortKeys, bound] at hj
  rw [arrayItems_redactTree]
  by_cases hbudget : budget = 0
  · rw [if_pos (Or.inl hbudget)] at hj
    cases hj
    refine iff_of_false ?_ fun h => ?_
    · have hnone : arrayItems (.str "[truncated]") = [] := rfl
      rw [hnone, redactItems, ite_self]
      exact Bool.false_ne_true
    · have hlt := budget_of_hasRoom h.2
      omega
  · rw [if_neg (by omega)] at hj
    obtain ⟨js, hjs, rfl⟩ := Option.map_eq_some_iff.mp hj
    cases hname : isSensitiveKey name with
    | true =>
      rw [hides_structured hname (Or.inr ⟨js, rfl⟩), if_pos rfl]
      exact iff_of_false Bool.false_ne_true fun h => by cases h.1
    | false =>
      rw [hides_of_not_sensitive hname, if_neg Bool.false_ne_true,
        eq_self_iff_true, true_and]
      exact entry_iff (by omega) hk hitem hmapping hjs

theorem fieldOf_redactTree {isWord : Char → Bool} {sensitive : Bool} {name : String} (j : Json)
    (hname : isSensitiveKey name = false) :
    fieldOf name (redactTree rt isWord sensitive j) =
      if sensitive then .null else redactTree rt isWord false (fieldOf name j) := by
  cases sensitive with
  | true =>
    rw [redactTree_sensitive]
    rfl
  | false =>
    cases j with
    | obj fields =>
      show JsonObject.get (redactFields rt isWord fields) name = _
      rw [JsonObject.get, lookup_redactFields, fieldOf, JsonObject.get]
      cases Assoc.lookup name fields with
      | none => rfl
      | some value =>
        rw [Option.map_some, Option.getD_some, hides_of_not_sensitive hname]
        rfl
    | _ => rfl

/-- What `sampleOf` makes of more than twenty items. -/
def sampled (count : Nat) (sample : List Value) : Value :=
  .obj [("matched_count", .int count), ("sample", .arr sample), ("truncated", .bool true)]

theorem redactEvidence_sampled (count : Nat) (sample : List Value) : ∃ mark,
    sortKeys (redactEvidence rt py (sampled count sample)) =
      .obj [("matched_count", .int count),
        ("sample", .arr (sortKeysOfItems (redactItemsWalk rt py 2 sample 3).1)),
        ("truncated", mark)] := by
  have hcount : hidesValue rt "matched_count" (.int count) = false := by
    rw [hidesValue, (by decide +kernel : isSensitiveKey "matched_count" = false), Bool.false_and]
  have hsample : hidesValue rt "sample" (.arr sample) = false := by
    rw [hidesValue, (by decide +kernel : isSensitiveKey "sample" = false), Bool.false_and]
  have hmark : ∃ mark, (redactWalk rt py 1 (hidesValue rt "truncated" (.bool true)) (.bool true)
      (redactItemsWalk rt py 2 sample 3).2).1 = mark := ⟨_, rfl⟩
  obtain ⟨mark, hmark⟩ := hmark
  refine ⟨sortKeys mark, ?_⟩
  have hwalk : redactEvidence rt py (sampled count sample) =
      .obj [("matched_count", .int count), ("sample", .arr (redactItemsWalk rt py 2 sample 3).1),
        ("truncated", mark)] := by
    rw [← hmark]
    show Value.obj (redactMappingWalk rt py 1 _ 1).1 = _
    rw [redactMappingWalk, redactMappingWalk, hcount, hsample]
    rfl
  have hsorted : [("matched_count", Value.int count),
      ("sample", .arr (sortKeysOfItems (redactItemsWalk rt py 2 sample 3).1)),
      ("truncated", sortKeys mark)].Pairwise fun a b => a.1 ≤ b.1 := by
    simp only [List.pairwise_cons, List.forall_mem_cons, List.Pairwise.nil, and_true]
    decide +kernel
  rw [hwalk]
  show Value.obj (List.insertionSort _ _) = _
  exact congrArg Value.obj (List.Pairwise.insertionSort_eq hsorted)

theorem boundFields_zero {depth left : Nat} (fields result : Mapping) :
    boundFields py depth fields left 0 result = (result, 0) := by
  cases fields with
  | nil => rfl
  | cons field fields => rw [boundFields, if_pos (Or.inr rfl)]

theorem boundFields_cons {depth left budget : Nat} (hleft : left ≠ 0) (hbudget : budget ≠ 0)
    (key : String) (value : Value) (fields result : Mapping) :
    boundFields py depth ((key, value) :: fields) left budget result =
      boundFields py depth fields (left - 1) (bound py depth value budget).2
        (Assoc.insert (Normalization.cut key 256) (bound py depth value budget).1 result) := by
  rw [boundFields, if_neg (by omega)]

/-- The other fields of a mapping, and the mark that it was cut, leave a field as it is. -/
theorem lookup_boundFields {depth : Nat} {name : String} {fields : Mapping}
    (hname : ∀ e ∈ fields, Normalization.cut e.1 256 ≠ name) : ∀ {left budget : Nat} {result : Mapping},
      Assoc.lookup name (boundFields py depth fields left budget result).1 =
        Assoc.lookup name result := by
  induction fields with
  | nil => exact rfl
  | cons field fields ih =>
    intro left budget result
    rw [List.forall_mem_cons] at hname
    rw [boundFields]
    split
    · rfl
    · rw [ih hname.2, Assoc.lookup_insert, if_neg hname.1]

/-- The sample in the evidence of more than twenty items. -/
theorem bound_sampled (count : Nat) (items : List Value) (mark : Value) (budget : Nat) :
    ∃ fields, ((bound py 0 (.obj [("matched_count", .int count), ("sample", .arr items),
        ("truncated", mark)]) budget).1 = .obj fields ∨ budget = 0) ∧
      Assoc.lookup "sample" fields =
        if 2 < budget then some (.arr (boundItems py 2 items 64 (budget - 3)).1) else none := by
  have hcount : Normalization.cut "matched_count" 256 = "matched_count" := by decide +kernel
  have hsample : Normalization.cut "sample" 256 = "sample" := by decide +kernel
  have htruncated : ∀ e ∈ ([("truncated", mark)] : Mapping), Normalization.cut e.1 256 ≠ "sample" := by
    intro e he
    rw [List.mem_singleton.mp he]
    exact (by decide +kernel : Normalization.cut "truncated" 256 ≠ "sample")
  have hmark : ∀ {result : Mapping}, Assoc.lookup "sample"
      (Assoc.insert "_truncated" (.bool true) result) = Assoc.lookup "sample" result := by
    intro result
    rw [Assoc.lookup_insert, if_neg (by decide)]
  have hkept : Assoc.lookup "sample" (boundFields py 1 [("matched_count", .int count),
      ("sample", .arr items), ("truncated", mark)] 64 (budget - 1) []).1 =
        if 2 < budget then some (.arr (boundItems py 2 items 64 (budget - 3)).1) else none := by
    by_cases hfirst : budget - 1 = 0
    · rw [hfirst, boundFields_zero, if_neg (by omega)]
      rfl
    · have hint : bound py 1 (.int count) (budget - 1) = (.int count, budget - 2) := by
        rw [bound, if_neg (by omega)]
        rfl
      rw [boundFields_cons (by omega) hfirst, hint, hcount]
      by_cases hsecond : budget - 2 = 0
      · rw [hsecond, boundFields_zero, if_neg (by omega), Assoc.lookup_insert,
          if_neg (by decide)]
        rfl
      · have harr : (bound py 1 (.arr items) (budget - 2)).1 =
            .arr (boundItems py 2 items 64 (budget - 3)).1 := by
          rw [bound, if_neg (by omega)]
          rfl
        rw [boundFields_cons (by omega) hsecond, lookup_boundFields htruncated, hsample, harr,
          Assoc.lookup_insert, if_pos rfl, if_pos (by omega)]
  by_cases hbudget : budget = 0
  · exact ⟨[], Or.inr hbudget, by rw [if_neg (by omega)]; rfl⟩
  · rw [bound, if_neg (by omega)]
    dsimp only
    split
    · exact ⟨_, Or.inl rfl, hmark.trans hkept⟩
    · exact ⟨_, Or.inl rfl, hkept⟩

/-- The evidence of more than twenty items. -/
theorem entry_sampled {name : String} {count : Nat} {items : List Value} {k budget : Nat}
    {item : Value} {j : Json} {isWord : Char → Bool} (hk : k < 64) (hitem : items[k]? = some item)
    (hmapping : item.isMapping = true)
    (hj : (bound py 0 (sortKeys (redactEvidence rt py (sampled count items))) budget).1.toJson? =
      some j) :
    ((arrayItems (fieldOf "sample" (redactTree rt isWord (hides rt name j) j)))[k]?.any isObject =
        true) ↔
      isSensitiveKey name = false ∧ HasRoom rt py 2 3 items k budget := by
  obtain ⟨mark, hredacted⟩ := @redactEvidence_sampled rt py count items
  rw [hredacted] at hj
  have hsample : isSensitiveKey "sample" = false := by decide +kernel
  rw [fieldOf_redactTree _ hsample]
  obtain ⟨fields, hfields, hlookup⟩ := @bound_sampled py count
    (sortKeysOfItems (redactItemsWalk rt py 2 items 3).1) mark budget
  rcases hfields with hfields | rfl
  · rw [hfields] at hj
    obtain ⟨js, hjs, rfl⟩ := Option.map_eq_some_iff.mp hj
    cases hname : isSensitiveKey name with
    | true =>
      rw [hides_structured hname (Or.inl rfl), if_pos rfl]
      exact iff_of_false Bool.false_ne_true fun h => by cases h.1
    | false =>
      rw [hides_of_not_sensitive hname, if_neg Bool.false_ne_true, arrayItems_redactTree,
        if_neg Bool.false_ne_true, fieldOf, JsonObject.get, eq_self_iff_true, true_and]
      by_cases hbudget : 2 < budget
      · rw [if_pos hbudget] at hlookup
        obtain ⟨list, hlist, hget⟩ := exists_lookup_toJsonFields hjs hlookup
        obtain ⟨ls, hls, rfl⟩ := Option.map_eq_some_iff.mp hlist
        rw [hget]
        exact entry_iff (by omega) hk hitem hmapping hls
      · rw [if_neg hbudget] at hlookup
        rw [lookup_toJsonFields hjs, hlookup]
        refine iff_of_false Bool.false_ne_true fun h => ?_
        have hlt := budget_of_hasRoom h
        omega
  · rw [bound, if_pos (Or.inl rfl)] at hj
    cases hj
    refine iff_of_false ?_ fun h => ?_
    · have hnull : redactTree rt isWord false (fieldOf "sample" (.str "[truncated]")) = .null := rfl
      rw [hnull, ite_self]
      exact Bool.false_ne_true
    · have hlt := budget_of_hasRoom h.2
      omega

/-- The evidence of a single value that is no list. -/
theorem entry_single {name : String} {item : Value} {budget : Nat} {j : Json}
    {isWord : Char → Bool} (hmapping : item.isMapping = true)
    (hj : (bound py 0 (sortKeys (redactEvidence rt py item)) budget).1.toJson? = some j) :
    (isObject (redactTree rt isWord (hides rt name j) j) = true) ↔
      isSensitiveKey name = false ∧ budget ≠ 0 := by
  have hvalue : isObject j = true ↔ budget ≠ 0 := by
    rw [isObject_toJson hj, isMapping_bound (by omega), isMapping_sortKeys, redactEvidence,
      isMapping_redactWalk (by omega)]
    exact ⟨fun h => h.2, fun h => ⟨⟨hmapping, by omega⟩, h⟩⟩
  cases hname : isSensitiveKey name with
  | true =>
    refine iff_of_false (fun h => ?_) fun h => by cases h.1
    cases hobject : isObject j with
    | true =>
      rw [hides_structured hname (Or.inl hobject), redactTree_sensitive] at h
      cases h
    | false =>
      cases hhides : hides rt name j with
      | true =>
        rw [hhides, redactTree_sensitive] at h
        cases h
      | false =>
        rw [hhides, isObject_redactTree, hobject] at h
        cases h
  | false =>
    rw [hides_of_not_sensitive hname, isObject_redactTree, hvalue]
    exact (and_iff_right rfl).symm

/-! ## Evidence of a field -/

/-- `raw_value` of a field that has values. -/
theorem value_rawValue {rule : RuleFields} {data : Value} {field : String}
    (hvalues : fieldValues py data field ≠ []) : (rawValue rt py rule data field).value =
      some (sampledValue rt py rule field (gathered (fieldValues py data field))).value := by
  rw [rawValue, Traced.value_bind]
  show (if fieldValues py data field = [] then _ else _ : Evaluation py (Option Value)).value = _
  rw [if_neg hvalues]
  rfl

/-- The entry of an item that is shown is an object exactly when there is room for the item. -/
theorem entry_of_raw {rule : RuleFields} {data : Value} {field : String} {raw : Value}
    {k budget : Nat} {item : Value} {j : Json} {isWord : Char → Bool}
    (hvalues : fieldValues py data field ≠ [])
    (hraw : (rawValue rt py rule data field).value = some raw)
    (hitem : (shownItems rt py rule data field)[k]? = some item) (hmapping : item.isMapping = true)
    (hj : (bound py 0 (sortKeys (redactEvidence rt py raw)) budget).1.toJson? = some j) :
    ((entries rt py rule data field (redactTree rt isWord (hides rt field j) j))[k]?.any isObject =
        true) ↔
      isSensitiveKey field = false ∧ RoomFor rt py rule data field k budget := by
  rw [value_rawValue hvalues, Option.some.injEq] at hraw
  have hk : k < 64 := by
    have hlt := (List.getElem?_eq_some_iff.mp hitem).1
    rw [shownItems, List.length_take] at hlt
    omega
  unfold entries RoomFor
  cases hgathered : gathered (fieldValues py data field) with
  | arr items =>
    rw [hgathered] at hraw
    have hcandidates : candidates rt py rule data field = (matchedItems rt py rule field items).value := by
      rw [candidates, hgathered]
    have hsampled : raw = sampleOf (candidates rt py rule data field) := by
      rw [← hraw, hcandidates]
      rfl
    dsimp only
    by_cases hcount : (candidates rt py rule data field).length > 20
    · have hsample : raw = sampled (candidates rt py rule data field).length
          (shownItems rt py rule data field) := by
        rw [hsampled, sampleOf, if_pos (by rw [List.length_take]; omega)]
        rfl
      rw [if_pos hcount, if_pos hcount]
      rw [hsample] at hj
      exact entry_sampled hk hitem hmapping hj
    · have hlist : raw = .arr (shownItems rt py rule data field) := by
        rw [hsampled, sampleOf, if_neg (by rw [List.length_take]; omega)]
        rfl
      rw [if_neg hcount, if_neg hcount]
      rw [hlist] at hj
      exact entry_list hk hitem hmapping hj
  | _ =>
    rw [hgathered] at hraw
    have hshown : shownItems rt py rule data field = [raw] := by
      rw [shownItems, candidates, hgathered, ← hraw]
      rfl
    rw [hshown] at hitem
    obtain rfl : k = 0 := by
      have hlt := (List.getElem?_eq_some_iff.mp hitem).1
      rw [List.length_singleton] at hlt
      omega
    cases hitem
    exact entry_single hmapping hj

/-! ## From the fields to the finding -/

theorem mem_splitOn {a c : Char} {l : List Char} (h : c ∈ l) :
    c = a ∨ ∃ segment ∈ l.splitOn a, c ∈ segment := by
  induction l with
  | nil => cases h
  | cons x l ih =>
    have hlater : ∀ {y}, (∃ segment ∈ l.splitOn a, c ∈ segment) →
        ∃ segment ∈ (l.splitOn a).modifyHead (List.cons y), c ∈ segment := by
      rintro y ⟨segment, hsegment, hc⟩
      obtain ⟨first, rest, hsplit⟩ := List.exists_cons_of_ne_nil (List.splitOn_ne_nil a l)
      rw [hsplit] at hsegment ⊢
      rcases List.mem_cons.mp hsegment with rfl | hsegment
      · exact ⟨_, List.mem_cons_self, List.mem_cons_of_mem _ hc⟩
      · exact ⟨segment, List.mem_cons_of_mem _ hsegment, hc⟩
    rw [List.splitOn_cons_eq_if_modifyHead]
    split
    · next hx =>
      rcases List.mem_cons.mp h with rfl | h
      · exact Or.inl (eq_of_beq hx)
      · refine (ih h).imp_right ?_
        rintro ⟨segment, hsegment, hc⟩
        exact ⟨segment, List.mem_cons_of_mem _ hsegment, hc⟩
    · rcases List.mem_cons.mp h with rfl | h
      · obtain ⟨first, rest, hsplit⟩ := List.exists_cons_of_ne_nil (List.splitOn_ne_nil a l)
        rw [hsplit]
        exact Or.inr ⟨_, List.mem_cons_self, List.mem_cons_self⟩
      · exact (ih h).imp_right hlater

theorem not_isSpace_of_isFieldName {segment : List Char}
    (h : isFieldName (String.ofList segment) = true ∨ String.ofList segment = "*") :
    ∀ c ∈ segment, Storage.isSpace c = false := by
  intro c hc
  rcases h with h | h
  · rw [isFieldName, Bool.and_eq_true, List.all_eq_true, String.toList_ofList] at h
    have hclass := h.2 c hc
    simp only [Bool.or_eq_true, beq_iff_eq] at hclass
    rcases hclass with (hclass | rfl) | rfl
    · exact Storage.not_isSpace_of_isAlphanum hclass
    · decide
    · decide
  · have hstar : segment = ['*'] := by
      rw [← @String.toList_ofList segment, h]
      rfl
    rw [hstar] at hc
    rw [List.mem_singleton.mp hc]
    decide

theorem trim_of_isFieldPath {field : String} (h : isFieldPath field = true) :
    Normalization.trim field = field := by
  have hspace : ∀ c ∈ field.toList, Storage.isSpace c = false := by
    intro c hc
    rcases @mem_splitOn '.' c _ hc with rfl | ⟨segment, hsegment, hc⟩
    · decide
    · refine not_isSpace_of_isFieldName ?_ c hc
      have hmem : String.ofList segment ∈ segments field := List.mem_map_of_mem hsegment
      unfold isFieldPath at h
      split at h
      · cases h
      · next first rest heq =>
        rw [heq] at hmem
        rw [Bool.and_eq_true, List.all_eq_true] at h
        rcases List.mem_cons.mp hmem with hfirst | hrest
        · rw [hfirst]
          exact Or.inl h.1
        · have hsegment' := h.2 _ hrest
          rwa [Bool.or_eq_true, beq_iff_eq] at hsegment'
  rw [← Storage.strip_of_no_space hspace, Normalization.trim_strip]

theorem isFieldPath_of_leafFields (condition : PolicyCondition) (hvalid : condition.valid = true) :
    ∀ field ∈ leafFields condition, isFieldPath field = true := by
  have hlist : ∀ conditions : List PolicyCondition,
      (∀ c ∈ conditions, c.valid = true → ∀ field ∈ leafFields c, isFieldPath field = true) →
      PolicyCondition.allValid conditions = true →
      ∀ field ∈ leafFieldsOf conditions, isFieldPath field = true := by
    intro conditions
    induction conditions with
    | nil =>
      intro _ _ field hfield
      cases hfield
    | cons condition conditions ihl =>
      intro ih hvalid field hfield
      rw [List.forall_mem_cons] at ih
      rw [PolicyCondition.allValid, Bool.and_eq_true] at hvalid
      rcases List.mem_append.mp hfield with hfield | hfield
      · exact ih.1 hvalid.1 field hfield
      · exact ihl ih.2 hvalid.2 field hfield
  induction condition with
  | leaf operator name value =>
    intro field hfield
    rw [PolicyCondition.valid, Bool.and_eq_true, Bool.and_eq_true, Bool.and_eq_true] at hvalid
    rw [List.mem_singleton.mp hfield]
    exact hvalid.1.1.1
  | anyItem name conditions ih =>
    intro field hfield
    rw [PolicyCondition.valid, Bool.and_eq_true, Bool.and_eq_true, Bool.and_eq_true] at hvalid
    rw [List.mem_singleton.mp hfield]
    exact hvalid.1.1.1
  | all conditions ih =>
    rw [PolicyCondition.valid, Bool.and_eq_true] at hvalid
    exact hlist conditions ih hvalid.2
  | any conditions ih =>
    rw [PolicyCondition.valid, Bool.and_eq_true] at hvalid
    exact hlist conditions ih hvalid.2

theorem isFieldPath_of_evidenceFields {rule : RuleFields} {lib : Normalization.Library}
    (h : rule.Accepted lib) : ∀ field ∈ evidenceFieldsOf rule, isFieldPath field = true := by
  intro field hfield
  unfold evidenceFieldsOf at hfield
  split at hfield
  · exact isFieldPath_of_leafFields _ h.condition field
      (List.mem_toFinset.mp ((Finset.mem_sort _).mp hfield))
  · exact h.evidenceFields.2 field hfield

/-! ### The loop over the fields -/

theorem collectEvidence_append {rule : RuleFields} {data : Value} (fields rest : List String) :
    ∀ evidence, (collectEvidence rt py rule data (fields ++ rest) evidence).value =
      (collectEvidence rt py rule data rest
        (collectEvidence rt py rule data fields evidence).value).value := by
  induction fields with
  | nil => exact fun _ => rfl
  | cons field fields ih =>
    intro evidence
    rw [List.cons_append, collectEvidence, collectEvidence, Traced.value_bind, Traced.value_bind]
    cases (rawValue rt py rule data field).value with
    | none => exact ih evidence
    | some raw => exact ih _

/-- The other fields leave the evidence of a field as it is. -/
theorem lookup_collectEvidence {rule : RuleFields} {data : Value} {name : String}
    {fields : List String} (hname : name ∉ fields) : ∀ evidence,
      Assoc.lookup name (collectEvidence rt py rule data fields evidence).value.1 =
        Assoc.lookup name evidence.1 := by
  induction fields with
  | nil => exact fun _ => rfl
  | cons field fields ih =>
    intro evidence
    rw [List.mem_cons, not_or] at hname
    rw [collectEvidence, Traced.value_bind]
    cases (rawValue rt py rule data field).value with
    | none => exact ih hname.2 evidence
    | some raw =>
      refine (ih hname.2 _).trans ?_
      rw [record, Assoc.lookup_insert, if_neg (Ne.symm hname.1)]

/-- The evidence has each field once, and only fields of the rule. -/
theorem keys_collectEvidence {rule : RuleFields} {data : Value} (fields : List String) :
    ∀ evidence, (evidence.1.map Prod.fst).Nodup →
      ((collectEvidence rt py rule data fields evidence).value.1.map Prod.fst).Nodup ∧
        ∀ key ∈ (collectEvidence rt py rule data fields evidence).value.1.map Prod.fst,
          key ∈ evidence.1.map Prod.fst ∨ key ∈ fields := by
  induction fields with
  | nil => exact fun _ h => ⟨h, fun key hkey => Or.inl hkey⟩
  | cons field fields ih =>
    intro evidence h
    rw [collectEvidence, Traced.value_bind]
    cases (rawValue rt py rule data field).value with
    | none =>
      obtain ⟨hnodup, hkeys⟩ := ih evidence h
      exact ⟨hnodup, fun key hkey => (hkeys key hkey).imp_right (List.mem_cons_of_mem _)⟩
    | some raw =>
      obtain ⟨hnodup, hkeys⟩ := ih (record rt py evidence field raw) (Assoc.nodup_insert _ _ h)
      refine ⟨hnodup, fun key hkey => ?_⟩
      rcases hkeys key hkey with hkey | hkey
      · obtain ⟨e, he, rfl⟩ := List.mem_map.mp hkey
        rcases mem_insert he with rfl | he
        · exact Or.inr List.mem_cons_self
        · exact Or.inl (List.mem_map_of_mem he)
      · exact Or.inr (List.mem_cons_of_mem _ hkey)

/-! ### The evidence of a finding -/

theorem trimKeys_eq {fields : JsonObject} (htrim : ∀ e ∈ fields, Normalization.trim e.1 = e.1)
    (hnodup : (fields.map Prod.fst).Nodup) : Normalization.trimKeys fields = fields := by
  have hfold : ∀ (fields result : JsonObject), (∀ e ∈ fields, Normalization.trim e.1 = e.1) →
      ((result ++ fields).map Prod.fst).Nodup →
      fields.foldl (fun result e => result.set (Normalization.trim e.1) e.2) result =
        result ++ fields := by
    intro fields
    induction fields with
    | nil => exact fun result _ _ => (List.append_nil result).symm
    | cons e fields ih =>
      intro result htrim hnodup
      rw [List.forall_mem_cons] at htrim
      have hnew : e.1 ∉ result.map Prod.fst := by
        rw [List.map_append, List.nodup_append] at hnodup
        exact fun hmem => hnodup.2.2 e.1 hmem e.1 List.mem_cons_self rfl
      rw [List.foldl_cons, htrim.1, JsonObject.set, Assoc.insert_not_mem _ hnew,
        ih _ htrim.2 (by rwa [List.append_assoc]), List.append_assoc]
      rfl
  exact hfold fields [] htrim hnodup

theorem keys_redactFields {isWord : Char → Bool} (fields : JsonObject) :
    (redactFields rt isWord fields).map Prod.fst = fields.map Prod.fst := by
  induction fields with
  | nil => rfl
  | cons e fields ih =>
    obtain ⟨key, value⟩ := e
    rw [redactFields, List.map_cons, List.map_cons, ih]

/-- What the model of a finding keeps of the evidence of a field. -/
theorem get_evidence {evidence : Mapping} {kept : JsonObject} {name : String} {value : Value}
    (h : validateEvidence rt py evidence = .ok kept) (hnodup : (evidence.map Prod.fst).Nodup)
    (htrim : ∀ key ∈ evidence.map Prod.fst, Normalization.trim key = key)
    (hvalue : Assoc.lookup name evidence = some value) : ∃ j, value.toJson? = some j ∧
      kept.get name = redactTree rt py.isWord (hides rt name j) j := by
  unfold validateEvidence at h
  cases hdocument : (Value.obj evidence).toJson? with
  | none =>
    rw [hdocument] at h
    cases h
  | some document =>
    rw [hdocument] at h
    obtain ⟨js, hjs, rfl⟩ := Option.map_eq_some_iff.mp hdocument
    obtain ⟨copy, hcopy, hkept⟩ := bind_eq_ok.mp h
    obtain ⟨⟨hnodes, hheight, -⟩, rfl⟩ := boundedCopy_eq_ok.mp hcopy
    have hredacted : Normalization.redactMapping rt py.toLibrary js =
        redactFields rt py.isWord js := by
      rw [Normalization.redactMapping, redactValue_within (by omega) (by omega), redactTree,
        if_neg Bool.false_ne_true]
    have hkeys : (redactFields rt py.isWord js).map Prod.fst = evidence.map Prod.fst := by
      rw [keys_redactFields, keys_toJsonFields hjs]
    have hsame : kept = redactFields rt py.isWord js := by
      rw [← Except.ok.inj hkept, hredacted]
      refine trimKeys_eq (fun e he => htrim _ ?_) (by rwa [hkeys])
      rw [← hkeys]
      exact List.mem_map_of_mem he
    obtain ⟨j, hj, hget⟩ := exists_lookup_toJsonFields hjs hvalue
    refine ⟨j, hj, ?_⟩
    rw [hsame, JsonObject.get, lookup_redactFields, hget]
    rfl

/-! ### The findings of a run -/

/-- The finding that a rule asks for. -/
def draftOf (bundle : PolicyBundle py.toLibrary) (data : Value) (context : EvaluationContext)
    (rule : PolicyRule py.toLibrary) : FindingDraft py :=
  ⟨bundle, rule, context, (collectEvidence rt py rule.toRuleFields data
    (evidenceFieldsOf rule.toRuleFields) ([], 4000)).value.1⟩

theorem value_makeFinding (bundle : PolicyBundle py.toLibrary) (data : Value)
    (context : EvaluationContext) (rule : PolicyRule py.toLibrary) :
    (makeFinding rt py bundle rule data context).value =
      (construct rt py (@draftOf rt py bundle data context rule)).value := by
  rw [makeFinding, Traced.value_bind]
  rfl

theorem mem_effects_makeFinding (bundle : PolicyBundle py.toLibrary) (data : Value)
    (context : EvaluationContext) (rule : PolicyRule py.toLibrary) :
    .construct (@draftOf rt py bundle data context rule) ∈
      (makeFinding rt py bundle rule data context).effects := by
  rw [makeFinding, Traced.effects_bind]
  exact List.mem_append_right _ (List.mem_singleton_self _)

theorem constructed_of_matches {bundle : PolicyBundle py.toLibrary} {data : Value}
    {context : EvaluationContext} {rule : PolicyRule py.toLibrary}
    (hmatch : (matchesRule rt py rule.toRuleFields data context).value = true) :
    ∀ rules : List (PolicyRule py.toLibrary), rule ∈ rules →
      .construct (@draftOf rt py bundle data context rule) ∈
          (evaluateRules rt py bundle data context rules).effects ∧
        ∀ finding ∈ ((@draftOf rt py bundle data context rule).construct rt py).toOption,
          finding ∈ (evaluateRules rt py bundle data context rules).value := by
  intro rules
  induction rules with
  | nil =>
    intro h
    cases h
  | cons first rules ih =>
    intro h
    have heffects : (evaluateRules rt py bundle data context (first :: rules)).effects =
        [.consume] ++ ((matchesRule rt py first.toRuleFields data context).effects ++
          ((findingsOf rt py bundle first data context
              (matchesRule rt py first.toRuleFields data context).value).effects ++
            ((evaluateRules rt py bundle data context rules).effects ++ []))) := rfl
    have hvalue : (evaluateRules rt py bundle data context (first :: rules)).value =
        (findingsOf rt py bundle first data context
            (matchesRule rt py first.toRuleFields data context).value).value ++
          (evaluateRules rt py bundle data context rules).value := rfl
    rw [heffects, hvalue]
    rcases List.mem_cons.mp h with rfl | h
    · rw [hmatch, findingsOf, if_pos rfl]
      refine ⟨?_, fun finding hfinding => ?_⟩
      · exact List.mem_append_right _ (List.mem_append_right _ (List.mem_append_left _
          (mem_effects_makeFinding bundle data context rule)))
      · rw [value_makeFinding, value_construct]
        exact List.mem_append_left _ (Option.mem_toList.mpr hfinding)
    · obtain ⟨hmem, hfound⟩ := ih h
      refine ⟨?_, fun finding hfinding => List.mem_append_right _ (hfound finding hfinding)⟩
      exact List.mem_append_right _ (List.mem_append_right _ (List.mem_append_right _
        (List.mem_append_left _ hmem)))

/-- A rule that matches is among the findings of an evaluation that returns. -/
theorem finding_of_run {bundle : PolicyBundle py.toLibrary} {data : Value}
    {context : EvaluationContext} {late : Nat → Bool} {maxOperations : Int}
    {findings : List Finding} {rule : PolicyRule py.toLibrary}
    (hrun : evaluate rt py bundle data context late maxOperations = .ok findings)
    (hrule : rule ∈ bundle.rules)
    (hmatch : (matchesRule rt py rule.toRuleFields data context).value = true) :
    ∃ finding ∈ findings, (@draftOf rt py bundle data context rule).construct rt py = .ok finding := by
  unfold evaluate at hrun
  split at hrun
  · obtain ⟨hperformed, rfl⟩ := Traced.run_eq_ok.mp hrun
    obtain ⟨hmem, hfound⟩ := @constructed_of_matches rt py bundle data context rule hmatch
      bundle.rules hrule
    have heffect : .construct (@draftOf rt py bundle data context rule) ∈
        (evaluation rt py bundle data context).effects := by
      have heffects : (evaluation rt py bundle data context).effects = [.consume] ++
          ([.mapping data] ++ (evaluateRules rt py bundle data context bundle.rules).effects) := rfl
      rw [heffects]
      exact List.mem_append_right _ (List.mem_append_right _ hmem)
    obtain ⟨budget, budget', hperform⟩ := Traced.step_of_run hperformed heffect
    cases hconstruct : (@draftOf rt py bundle data context rule).construct rt py with
    | error message =>
      simp only [perform, Operation.error?, hconstruct, errorOf] at hperform
      cases hperform
    | ok finding =>
      rw [hconstruct] at hfound
      exact ⟨finding, hfound finding rfl, rfl⟩
  · cases hrun

theorem construct_eq_ok {draft : FindingDraft py} {finding : Finding}
    (h : draft.construct rt py = .ok finding) : finding.ruleId = draft.rule.ruleId ∧
      validateEvidence rt py draft.evidence = .ok finding.evidence := by
  have hid := Normalization.trim_of_isIdentifier draft.rule.accepted.ruleId
  unfold FindingDraft.construct at h
  simp only [bind_unit_eq_ok, Check.raiseIf_eq_ok] at h
  simp only [bind_eq_ok, Check.raiseIf_eq_ok, exists_const] at h
  obtain ⟨-, -, -, -, -, -, -, -, -, -, kept, hkept, -, -, references, -, -, -, -, -, -, h⟩ := h
  rw [← Except.ok.inj h]
  exact ⟨hid, hkept⟩

/-! ## Evidence and conditions -/

/-- `any_item` on the services, for one with this name -/
def hasService (name : String) : PolicyCondition :=
  .anyItem "services" [.leaf .equals "name" (.str name)]

def service (name : String) : Value := .obj [("name", .str name)]

/-- An endpoint with two services. -/
def twoServices : Value := .obj [("services", .arr [service "ssh", service "telnet"])]

def telnetRule : PolicyRule samplePython.toLibrary :=
  sampleRule (hasService "telnet") ["services"] (by decide +kernel) (by decide +kernel)

def bothRule : PolicyRule samplePython.toLibrary :=
  sampleRule (.all [hasService "ssh", hasService "telnet"]) ["services"] (by decide +kernel)
    (by decide +kernel)

theorem exists_ok_of_isOk {α : Type} {x : Except Failure α} (h : x.isOk = true) :
    ∃ a, x = .ok a := by
  cases x with
  | ok a => exact ⟨a, rfl⟩
  | error e => cases h

end OsScanner.Policies

import Mathlib
import OsScanner.Cloud.Inventory
import OsScanner.Security.Redaction

/-!
# Limits on nested values

`bounded_json` of `app/models/base.py`, which the analysis uses on evidence that `bounded_json`
of `cloud_service/models.py` has let in. The one copies by recursion and the other walks with a
stack; they differ in the keys and texts that they accept, and they are called with different
limits. Both come down to the height and the number of values of the document.
-/

namespace OsScanner.Cloud

open Lib Security

/-! ## Height and keys -/

mutual

/-- How deep a value nests; a scalar and an empty collection do not. -/
def height : Json → Nat
  | .arr items => heightOfItems items
  | .obj fields => heightOfFields fields
  | .null | .bool _ | .int _ | .float _ | .str _ => 0

def heightOfItems : List Json → Nat
  | [] => 0
  | v :: l => max (height v + 1) (heightOfItems l)

def heightOfFields : JsonObject → Nat
  | [] => 0
  | (_, v) :: l => max (height v + 1) (heightOfFields l)

end

mutual

/-- Every key inside the value is non-empty and at most 256 characters long. -/
def keysNamed : Json → Bool
  | .arr items => keysNamedItems items
  | .obj fields => keysNamedFields fields
  | .null | .bool _ | .int _ | .float _ | .str _ => true

def keysNamedItems : List Json → Bool
  | [] => true
  | v :: l => keysNamed v && keysNamedItems l

def keysNamedFields : JsonObject → Bool
  | [] => true
  | (k, v) :: l => decide (k ≠ "" ∧ k.length ≤ 256) && keysNamed v && keysNamedFields l

end

mutual

/-- Every key inside the value is one of these names. -/
def keysAmong (names : List String) : Json → Bool
  | .arr items => keysAmongItems names items
  | .obj fields => keysAmongFields names fields
  | .null | .bool _ | .int _ | .float _ | .str _ => true

def keysAmongItems (names : List String) : List Json → Bool
  | [] => true
  | v :: l => keysAmong names v && keysAmongItems names l

def keysAmongFields (names : List String) : JsonObject → Bool
  | [] => true
  | (k, v) :: l => names.contains k && keysAmong names v && keysAmongFields names l

end

/-! ### Lists of values and of fields -/

theorem keysAmongItems_iff {names : List String} {items : List Json} :
    keysAmongItems names items = true ↔ ∀ v ∈ items, keysAmong names v = true := by
  induction items with
  | nil => simp [keysAmongItems]
  | cons v l ih => rw [keysAmongItems, Bool.and_eq_true, ih, List.forall_mem_cons]

theorem keysAmongFields_append {names : List String} (a b : JsonObject) :
    keysAmongFields names (a ++ b) = (keysAmongFields names a && keysAmongFields names b) := by
  induction a with
  | nil => rfl
  | cons e l ih => simp only [List.cons_append, keysAmongFields, ih, Bool.and_assoc]

theorem nodesOfFields_append (a b : JsonObject) :
    nodesOfFields (a ++ b) = nodesOfFields a + nodesOfFields b := by
  induction a with
  | nil => exact (Nat.zero_add _).symm
  | cons e l ih => rw [List.cons_append, nodesOfFields, ih, nodesOfFields, Nat.add_assoc]

theorem heightOfItems_le {items : List Json} {n : Nat} :
    heightOfItems items ≤ n ↔ ∀ v ∈ items, height v + 1 ≤ n := by
  induction items with
  | nil => simp [heightOfItems]
  | cons v l ih => rw [heightOfItems, Nat.max_le, ih, List.forall_mem_cons]

theorem heightOfFields_append (a b : JsonObject) :
    heightOfFields (a ++ b) = max (heightOfFields a) (heightOfFields b) := by
  induction a with
  | nil => exact (Nat.zero_max _).symm
  | cons e l ih => rw [List.cons_append, heightOfFields, ih, heightOfFields, Nat.max_assoc]

/-- Short and non-empty names are named keys. -/
theorem keysNamed_of_among {names : List String} (hnames : ∀ k ∈ names, k ≠ "" ∧ k.length ≤ 256)
    (v : Json) : keysAmong names v = true → keysNamed v = true := by
  induction v with
  | arr items ih =>
    rw [keysAmong, keysNamed]
    induction items with
    | nil => exact id
    | cons v l ihl =>
      intro h
      rw [List.forall_mem_cons] at ih
      rw [keysAmongItems, Bool.and_eq_true] at h
      rw [keysNamedItems, ih.1 h.1, ihl ih.2 h.2, Bool.and_self]
  | obj fields ih =>
    rw [keysAmong, keysNamed]
    induction fields with
    | nil => exact id
    | cons e l ihl =>
      obtain ⟨name, v⟩ := e
      intro h
      rw [List.forall_mem_cons] at ih
      rw [keysAmongFields, Bool.and_eq_true, Bool.and_eq_true, List.contains_iff_mem] at h
      rw [keysNamedFields, decide_eq_true (hnames name h.1.1), ih.1 h.1.2, ihl ih.2 h.2,
        Bool.and_self, Bool.and_self]
  | _ => exact fun _ => rfl

/-! ## The copy -/

section Copy

variable (maxDepth maxNodes : Nat)

/-- What `walk` does before it copies a value. -/
def enter (depth seen : Nat) (inner : Except String (Json × Nat)) : Except String (Json × Nat) :=
  if seen + 1 > maxNodes then .error "structured value exceeds node limit"
  else if depth > maxDepth then .error "structured value exceeds depth limit"
  else inner

mutual

/-- `walk(item, depth)`, with the counter `nodes` before and after it. -/
def copyWalk (depth : Nat) : Json → Nat → Except String (Json × Nat)
  | .arr items, seen => enter maxDepth maxNodes depth seen
      ((copyItems (depth + 1) items (seen + 1)).map fun copy => (.arr copy.1, copy.2))
  | .obj fields, seen => enter maxDepth maxNodes depth seen
      ((copyFields (depth + 1) fields (seen + 1)).map fun copy => (.obj copy.1, copy.2))
  | .str s, seen => enter maxDepth maxNodes depth seen (.ok (.str s, seen + 1))
  | .null, seen => enter maxDepth maxNodes depth seen (.ok (.null, seen + 1))
  | .bool b, seen => enter maxDepth maxNodes depth seen (.ok (.bool b, seen + 1))
  | .int n, seen => enter maxDepth maxNodes depth seen (.ok (.int n, seen + 1))
  | .float f, seen => enter maxDepth maxNodes depth seen (.ok (.float f, seen + 1))

def copyItems (depth : Nat) : List Json → Nat → Except String (List Json × Nat)
  | [], seen => .ok ([], seen)
  | v :: l, seen => do
    let first ← copyWalk depth v seen
    let others ← copyItems depth l first.2
    .ok (first.1 :: others.1, others.2)

def copyFields (depth : Nat) : JsonObject → Nat → Except String (JsonObject × Nat)
  | [], seen => .ok ([], seen)
  | (k, v) :: l, seen => do
    Check.raiseIf (k = "" ∨ k.length > 256) "structured object keys must be non-empty strings"
    let first ← copyWalk depth v seen
    let others ← copyFields depth l first.2
    .ok ((k, first.1) :: others.1, others.2)

end

/-- `bounded_json(value, max_depth=…, max_nodes=…)` -/
def boundedCopy (value : Json) : Except String Json :=
  (copyWalk maxDepth maxNodes 0 value 0).map Prod.fst

/-- The copy of a value is the value, and it is taken exactly within the limits. -/
def CopiesWithin (depth : Nat) (v : Json) : Prop :=
  ∀ seen r, copyWalk maxDepth maxNodes depth v seen = .ok r ↔
    (seen + nodes v ≤ maxNodes ∧ depth + height v ≤ maxDepth ∧ keysNamed v = true) ∧
      r = (v, seen + nodes v)

variable {maxDepth maxNodes}

theorem exceptMap_eq_ok {ε α β : Type} {f : α → β} {x : Except ε α} {b : β} :
    x.map f = .ok b ↔ ∃ a, x = .ok a ∧ f a = b := by
  cases x <;> simp [Except.map]

theorem enter_eq_ok {depth seen : Nat} {inner : Except String (Json × Nat)} {r : Json × Nat} :
    enter maxDepth maxNodes depth seen inner = .ok r ↔
      (seen + 1 ≤ maxNodes ∧ depth ≤ maxDepth) ∧ inner = .ok r := by
  unfold enter
  split
  · simp only [reduceCtorEq, false_iff]
    omega
  · split
    · simp only [reduceCtorEq, false_iff]
      omega
    · rw [iff_and_self]
      intro _
      omega

theorem copyItems_eq_ok {depth : Nat} {items : List Json} (hdepth : depth ≤ maxDepth)
    (ih : ∀ v ∈ items, CopiesWithin maxDepth maxNodes (depth + 1) v) :
    ∀ {seen : Nat} {r : List Json × Nat}, seen ≤ maxNodes →
      (copyItems maxDepth maxNodes (depth + 1) items seen = .ok r ↔
        (seen + nodesOfItems items ≤ maxNodes ∧ depth + heightOfItems items ≤ maxDepth ∧
          keysNamedItems items = true) ∧ r = (items, seen + nodesOfItems items)) := by
  induction items with
  | nil =>
    intro seen r hseen
    simp only [copyItems, Except.ok.injEq, nodesOfItems, heightOfItems, keysNamedItems,
      Nat.add_zero, and_true, hseen, hdepth, true_and]
    exact eq_comm
  | cons v l ihl =>
    intro seen r hseen
    rw [List.forall_mem_cons] at ih
    simp only [copyItems, Check.bind_eq_ok, nodesOfItems, heightOfItems, keysNamedItems,
      Bool.and_eq_true]
    constructor
    · rintro ⟨first, hfirst, others, hothers, hr⟩
      obtain ⟨⟨hn, hd, hk⟩, rfl⟩ := (ih.1 seen first).mp hfirst
      obtain ⟨⟨hns, hds, hks⟩, rfl⟩ := (ihl ih.2 hn).mp hothers
      refine ⟨⟨by omega, by omega, hk, hks⟩, ?_⟩
      rw [← Except.ok.inj hr, Nat.add_assoc]
    · rintro ⟨⟨hn, hd, hk, hks⟩, rfl⟩
      refine ⟨(v, seen + nodes v), (ih.1 seen _).mpr ⟨⟨by omega, by omega, hk⟩, rfl⟩,
        (l, seen + nodes v + nodesOfItems l), ?_, by rw [Nat.add_assoc]⟩
      exact (ihl ih.2 (by omega)).mpr ⟨⟨by omega, by omega, hks⟩, rfl⟩

theorem copyFields_eq_ok {depth : Nat} {fields : JsonObject} (hdepth : depth ≤ maxDepth)
    (ih : ∀ e ∈ fields, CopiesWithin maxDepth maxNodes (depth + 1) e.2) :
    ∀ {seen : Nat} {r : JsonObject × Nat}, seen ≤ maxNodes →
      (copyFields maxDepth maxNodes (depth + 1) fields seen = .ok r ↔
        (seen + nodesOfFields fields ≤ maxNodes ∧ depth + heightOfFields fields ≤ maxDepth ∧
          keysNamedFields fields = true) ∧ r = (fields, seen + nodesOfFields fields)) := by
  induction fields with
  | nil =>
    intro seen r hseen
    simp only [copyFields, Except.ok.injEq, nodesOfFields, heightOfFields, keysNamedFields,
      Nat.add_zero, and_true, hseen, hdepth, true_and]
    exact eq_comm
  | cons e l ihl =>
    obtain ⟨k, v⟩ := e
    intro seen r hseen
    rw [List.forall_mem_cons] at ih
    dsimp only at ih
    simp only [copyFields, Check.raiseIf_eq_ok, Check.bind_eq_ok, nodesOfFields, heightOfFields,
      keysNamedFields, Bool.and_eq_true, decide_eq_true_eq, not_or, Nat.not_lt, gt_iff_lt]
    constructor
    · rintro ⟨-, hname, first, hfirst, others, hothers, hr⟩
      obtain ⟨⟨hn, hd, hk⟩, rfl⟩ := (ih.1 seen first).mp hfirst
      obtain ⟨⟨hns, hds, hks⟩, rfl⟩ := (ihl ih.2 hn).mp hothers
      refine ⟨⟨by omega, by omega, ⟨hname, hk⟩, hks⟩, ?_⟩
      rw [← Except.ok.inj hr, Nat.add_assoc]
    · rintro ⟨⟨hn, hd, ⟨hname, hk⟩, hks⟩, rfl⟩
      refine ⟨(), hname, (v, seen + nodes v), (ih.1 seen _).mpr ⟨⟨by omega, by omega, hk⟩, rfl⟩,
        (l, seen + nodes v + nodesOfFields l), ?_, by rw [Nat.add_assoc]⟩
      exact (ihl ih.2 (by omega)).mpr ⟨⟨by omega, by omega, hks⟩, rfl⟩

theorem copyWalk_eq_ok (v : Json) : ∀ depth, CopiesWithin maxDepth maxNodes depth v := by
  induction v with
  | arr items ih =>
    intro depth seen r
    rw [copyWalk, enter_eq_ok, exceptMap_eq_ok, nodes, height, keysNamed]
    constructor
    · rintro ⟨⟨hseen, hdepth⟩, copy, hcopy, rfl⟩
      obtain ⟨⟨hn, hd, hk⟩, rfl⟩ :=
        (copyItems_eq_ok hdepth (fun v hv => ih v hv _) hseen).mp hcopy
      refine ⟨⟨by omega, hd, hk⟩, ?_⟩
      rw [Nat.add_comm (nodesOfItems items) 1, Nat.add_assoc]
    · rintro ⟨⟨hn, hd, hk⟩, rfl⟩
      have hdepth : depth ≤ maxDepth := by omega
      refine ⟨⟨by omega, hdepth⟩, (items, seen + 1 + nodesOfItems items), ?_, ?_⟩
      · exact (copyItems_eq_ok hdepth (fun v hv => ih v hv _) (by omega)).mpr
          ⟨⟨by omega, hd, hk⟩, rfl⟩
      · rw [Nat.add_comm (nodesOfItems items) 1, Nat.add_assoc]
  | obj fields ih =>
    intro depth seen r
    rw [copyWalk, enter_eq_ok, exceptMap_eq_ok, nodes, height, keysNamed]
    constructor
    · rintro ⟨⟨hseen, hdepth⟩, copy, hcopy, rfl⟩
      obtain ⟨⟨hn, hd, hk⟩, rfl⟩ :=
        (copyFields_eq_ok hdepth (fun e he => ih e he _) hseen).mp hcopy
      refine ⟨⟨by omega, hd, hk⟩, ?_⟩
      rw [Nat.add_comm (nodesOfFields fields) 1, Nat.add_assoc]
    · rintro ⟨⟨hn, hd, hk⟩, rfl⟩
      have hdepth : depth ≤ maxDepth := by omega
      refine ⟨⟨by omega, hdepth⟩, (fields, seen + 1 + nodesOfFields fields), ?_, ?_⟩
      · exact (copyFields_eq_ok hdepth (fun e he => ih e he _) (by omega)).mpr
          ⟨⟨by omega, hd, hk⟩, rfl⟩
      · rw [Nat.add_comm (nodesOfFields fields) 1, Nat.add_assoc]
  | _ =>
    intro depth seen r
    simp only [copyWalk, enter_eq_ok, nodes, height, keysNamed, Nat.add_zero, and_true,
      Except.ok.injEq]
    exact and_congr_right fun _ => eq_comm

/-- The copy is taken exactly when the value is within the limits. -/
theorem boundedCopy_eq_ok {value copy : Json} :
    boundedCopy maxDepth maxNodes value = .ok copy ↔
      (nodes value ≤ maxNodes ∧ height value ≤ maxDepth ∧ keysNamed value = true) ∧
        copy = value := by
  rw [boundedCopy, exceptMap_eq_ok]
  constructor
  · rintro ⟨r, hr, rfl⟩
    obtain ⟨hwithin, rfl⟩ := (copyWalk_eq_ok value 0 0 r).mp hr
    exact ⟨by simpa using hwithin, rfl⟩
  · rintro ⟨hwithin, rfl⟩
    exact ⟨_, (copyWalk_eq_ok copy 0 0 _).mpr ⟨by simpa using hwithin, rfl⟩, rfl⟩

end Copy

/-! ## Values that the API has let in -/

/-- What fits a number of levels is no higher. -/
theorem height_le_of_fits (v : Json) : ∀ {levels}, Fits levels v → height v ≤ levels := by
  induction v with
  | arr items ih =>
    intro levels h
    rw [Fits, fitItems_iff] at h
    rw [height]
    induction items with
    | nil => exact Nat.zero_le _
    | cons v l ihl =>
      rw [List.forall_mem_cons] at ih h
      have hv := ih.1 h.1.2
      have hone := h.1.1
      rw [heightOfItems]
      exact Nat.max_le.mpr ⟨by omega, ihl ih.2 h.2⟩
  | obj fields ih =>
    intro levels h
    rw [Fits, fitFields_iff] at h
    have hfields := h.2
    rw [height]
    clear h
    induction fields with
    | nil => exact Nat.zero_le _
    | cons e l ihl =>
      rw [List.forall_mem_cons] at ih hfields
      have hv := ih.1 hfields.1.2
      have hone := hfields.1.1
      rw [heightOfFields]
      exact Nat.max_le.mpr ⟨by omega, ihl ih.2 hfields.2⟩
  | _ => exact fun _ => Nat.zero_le _

/-! ## Redaction within limits -/

section Redaction

variable {rt : Runtime} {isWord : Char → Bool} {maxDepth maxNodes : Nat}

theorem visit_within {depth seen : Nat} {sensitive : Bool} {inner : Json × Nat}
    (hseen : seen + 1 ≤ maxNodes) (hdepth : depth ≤ maxDepth) :
    visit maxDepth maxNodes depth sensitive seen inner =
      if sensitive then (.str redacted, seen + 1) else inner := by
  unfold visit
  rw [if_neg (by omega)]

/-- Within the limits the walk is the recursion, and it visits no more than there is. -/
def WalksWithin (rt : Runtime) (isWord : Char → Bool) (maxDepth maxNodes depth : Nat)
    (v : Json) : Prop :=
  ∀ sensitive seen, seen + nodes v ≤ maxNodes → depth + height v ≤ maxDepth →
    ∃ n, n ≤ nodes v ∧ walk rt isWord maxDepth maxNodes depth sensitive v seen =
      (redactTree rt isWord sensitive v, seen + n)

theorem walkItems_within {depth : Nat} {items : List Json}
    (ih : ∀ v ∈ items, WalksWithin rt isWord maxDepth maxNodes (depth + 1) v) :
    ∀ {seen : Nat}, seen + nodesOfItems items ≤ maxNodes →
      depth + heightOfItems items ≤ maxDepth →
      ∃ n, n ≤ nodesOfItems items ∧
        walkItems rt isWord maxDepth maxNodes (depth + 1) items seen =
          (redactItems rt isWord items, seen + n) := by
  induction items with
  | nil => exact fun _ _ => ⟨0, le_refl _, rfl⟩
  | cons v l ihl =>
    intro seen hn hd
    rw [List.forall_mem_cons] at ih
    rw [nodesOfItems] at hn ⊢
    rw [heightOfItems] at hd
    obtain ⟨m, hm, hfirst⟩ := ih.1 false seen (by omega) (by omega)
    obtain ⟨k, hk, hothers⟩ := @ihl ih.2 (seen + m) (by omega) (by omega)
    refine ⟨m + k, by omega, ?_⟩
    simp only [walkItems, redactItems, hfirst, hothers, Nat.add_assoc]

theorem walkFields_within {depth : Nat} {fields : JsonObject}
    (ih : ∀ e ∈ fields, WalksWithin rt isWord maxDepth maxNodes (depth + 1) e.2) :
    ∀ {seen : Nat}, seen + nodesOfFields fields ≤ maxNodes →
      depth + heightOfFields fields ≤ maxDepth →
      ∃ n, n ≤ nodesOfFields fields ∧
        walkFields rt isWord maxDepth maxNodes (depth + 1) fields seen =
          (redactFields rt isWord fields, seen + n) := by
  induction fields with
  | nil => exact fun _ _ => ⟨0, le_refl _, rfl⟩
  | cons e l ihl =>
    obtain ⟨name, v⟩ := e
    intro seen hn hd
    rw [List.forall_mem_cons] at ih
    dsimp only at ih
    rw [nodesOfFields] at hn ⊢
    rw [heightOfFields] at hd
    obtain ⟨m, hm, hfirst⟩ := ih.1 (hides rt name v) seen (by omega) (by omega)
    obtain ⟨k, hk, hothers⟩ := @ihl ih.2 (seen + m) (by omega) (by omega)
    refine ⟨m + k, by omega, ?_⟩
    simp only [walkFields, redactFields, hfirst, hothers, Nat.add_assoc]

theorem walk_within (v : Json) : ∀ depth, WalksWithin rt isWord maxDepth maxNodes depth v := by
  induction v with
  | arr items ih =>
    intro depth sensitive seen hn hd
    rw [nodes] at hn ⊢
    rw [height] at hd
    rw [walk, visit_within (by omega) (by omega), redactTree]
    cases sensitive with
    | true => exact ⟨1, by omega, rfl⟩
    | false =>
      obtain ⟨n, hvisited, hitems⟩ :=
        @walkItems_within _ _ _ _ _ items (fun v hv => ih v hv _) (seen + 1) (by omega) hd
      exact ⟨n + 1, by omega, by simp only [hitems, Bool.false_eq_true, if_false, Nat.add_assoc,
        Nat.add_comm 1 n]⟩
  | obj fields ih =>
    intro depth sensitive seen hn hd
    rw [nodes] at hn ⊢
    rw [height] at hd
    rw [walk, visit_within (by omega) (by omega), redactTree]
    cases sensitive with
    | true => exact ⟨1, by omega, rfl⟩
    | false =>
      obtain ⟨n, hvisited, hfields⟩ :=
        @walkFields_within _ _ _ _ _ fields (fun e he => ih e he _) (seen + 1) (by omega) hd
      exact ⟨n + 1, by omega, by simp only [hfields, Bool.false_eq_true, if_false, Nat.add_assoc,
        Nat.add_comm 1 n]⟩
  | _ =>
    intro depth sensitive seen hn hd
    rw [nodes] at hn ⊢
    rw [height] at hd
    rw [walk, visit_within (by omega) (by omega), redactTree]
    refine ⟨1, le_refl _, ?_⟩
    cases sensitive <;> rfl

/-- Within its limits `redact_value` puts no marker anywhere. -/
theorem redactValue_within {v : Json} (hn : nodes v ≤ maxNodes) (hd : height v ≤ maxDepth) :
    redactValue rt isWord maxDepth maxNodes v = redactTree rt isWord false v := by
  obtain ⟨n, -, hwalk⟩ := @walk_within rt isWord maxDepth maxNodes v 0 false 0 (by omega) (by omega)
  rw [redactValue, hwalk]

/-! ### Redaction makes nothing larger -/

theorem nodes_redactTree (v : Json) : ∀ sensitive,
    nodes (redactTree rt isWord sensitive v) ≤ nodes v ∧
      height (redactTree rt isWord sensitive v) ≤ height v := by
  induction v with
  | arr items ih =>
    intro sensitive
    cases sensitive with
    | true =>
      rw [redactTree_sensitive]
      exact ⟨nodes_pos _, Nat.zero_le _⟩
    | false =>
      rw [redactTree, if_neg Bool.false_ne_true, nodes, nodes, height, height]
      induction items with
      | nil => exact ⟨le_refl _, le_refl _⟩
      | cons v l ihl =>
        rw [List.forall_mem_cons] at ih
        have hv := ih.1 false
        have hl := ihl ih.2
        simp only [redactItems, nodesOfItems, heightOfItems]
        omega
  | obj fields ih =>
    intro sensitive
    cases sensitive with
    | true =>
      rw [redactTree_sensitive]
      exact ⟨nodes_pos _, Nat.zero_le _⟩
    | false =>
      rw [redactTree, if_neg Bool.false_ne_true, nodes, nodes, height, height]
      induction fields with
      | nil => exact ⟨le_refl _, le_refl _⟩
      | cons e l ihl =>
        obtain ⟨name, v⟩ := e
        rw [List.forall_mem_cons] at ih
        have hv := ih.1 (hides rt name v)
        have hl := ihl ih.2
        dsimp only at hv
        simp only [redactFields, nodesOfFields, heightOfFields]
        omega
  | _ =>
    intro sensitive
    cases sensitive <;> simp [redactTree, nodes, height]

theorem keysNamed_redactTree (v : Json) : ∀ sensitive, keysNamed v = true →
    keysNamed (redactTree rt isWord sensitive v) = true := by
  induction v with
  | arr items ih =>
    intro sensitive h
    cases sensitive with
    | true => rw [redactTree_sensitive]; rfl
    | false =>
      rw [redactTree, if_neg Bool.false_ne_true, keysNamed]
      rw [keysNamed] at h
      induction items with
      | nil => rfl
      | cons v l ihl =>
        rw [List.forall_mem_cons] at ih
        rw [keysNamedItems, Bool.and_eq_true] at h
        rw [redactItems, keysNamedItems, ih.1 false h.1, ihl ih.2 h.2, Bool.and_self]
  | obj fields ih =>
    intro sensitive h
    cases sensitive with
    | true => rw [redactTree_sensitive]; rfl
    | false =>
      rw [redactTree, if_neg Bool.false_ne_true, keysNamed]
      rw [keysNamed] at h
      induction fields with
      | nil => rfl
      | cons e l ihl =>
        obtain ⟨name, v⟩ := e
        rw [List.forall_mem_cons] at ih
        rw [keysNamedFields, Bool.and_eq_true, Bool.and_eq_true] at h
        rw [redactFields, keysNamedFields, h.1.1, ih.1 _ h.1.2, ihl ih.2 h.2, Bool.and_self,
          Bool.and_self]
  | _ =>
    intro sensitive _
    cases sensitive <;> rfl

/-! ### Redaction that hides no field -/

mutual

/-- No key inside the value is a sensitive one. -/
def showsAll (rt : Runtime) : Json → Bool
  | .arr items => showsAllItems rt items
  | .obj fields => showsAllFields rt fields
  | .null | .bool _ | .int _ | .float _ | .str _ => true

def showsAllItems (rt : Runtime) : List Json → Bool
  | [] => true
  | v :: l => showsAll rt v && showsAllItems rt l

def showsAllFields (rt : Runtime) : JsonObject → Bool
  | [] => true
  | (k, v) :: l => !hides rt k v && showsAll rt v && showsAllFields rt l

end

theorem showsAll_of_among {names : List String}
    (hnames : ∀ k ∈ names, isSensitiveKey k = false) (v : Json) :
    keysAmong names v = true → showsAll rt v = true := by
  induction v with
  | arr items ih =>
    rw [keysAmong, showsAll]
    induction items with
    | nil => exact id
    | cons v l ihl =>
      intro h
      rw [List.forall_mem_cons] at ih
      rw [keysAmongItems, Bool.and_eq_true] at h
      rw [showsAllItems, ih.1 h.1, ihl ih.2 h.2, Bool.and_self]
  | obj fields ih =>
    rw [keysAmong, showsAll]
    induction fields with
    | nil => exact id
    | cons e l ihl =>
      obtain ⟨name, v⟩ := e
      intro h
      rw [List.forall_mem_cons] at ih
      rw [keysAmongFields, Bool.and_eq_true, Bool.and_eq_true, List.contains_iff_mem] at h
      have hshown : hides rt name v = false := by
        rw [hides, hnames name h.1.1, Bool.false_and]
      rw [showsAllFields, hshown, ih.1 h.1.2, ihl ih.2 h.2]
      rfl
  | _ => exact fun _ => rfl

/-- Then the redaction has the shape of the value. -/
theorem shape_redactTree (v : Json) : showsAll rt v = true →
    nodes (redactTree rt isWord false v) = nodes v ∧
      height (redactTree rt isWord false v) = height v := by
  induction v with
  | arr items ih =>
    intro hshows
    rw [showsAll] at hshows
    rw [redactTree, if_neg Bool.false_ne_true, nodes, nodes, height, height]
    induction items with
    | nil => exact ⟨rfl, rfl⟩
    | cons v l ihl =>
      rw [List.forall_mem_cons] at ih
      rw [showsAllItems, Bool.and_eq_true] at hshows
      have hv := ih.1 hshows.1
      have hl := ihl ih.2 hshows.2
      simp only [redactItems, nodesOfItems, heightOfItems]
      omega
  | obj fields ih =>
    intro hshows
    rw [showsAll] at hshows
    rw [redactTree, if_neg Bool.false_ne_true, nodes, nodes, height, height]
    induction fields with
    | nil => exact ⟨rfl, rfl⟩
    | cons e l ihl =>
      obtain ⟨name, v⟩ := e
      rw [List.forall_mem_cons] at ih
      rw [showsAllFields, Bool.and_eq_true, Bool.and_eq_true, Bool.not_eq_true'] at hshows
      have hv := ih.1 hshows.1.2
      have hl := ihl ih.2 hshows.2
      dsimp only at hv
      simp only [redactFields, hshows.1.1, nodesOfFields, heightOfFields]
      omega
  | _ =>
    intro _
    simp [redactTree, nodes, height]

/-- A redacted text is short enough for the cloud. -/
theorem length_redactText_fits (value : String) :
    (redactText isWord value).length ≤ 1000000 := by
  have h := length_redactText isWord value 16384
  omega

/-- The redaction of a value with short keys fits as many levels as the value has. -/
theorem fits_redactTree (v : Json) : ∀ sensitive levels, height v ≤ levels →
    keysNamed v = true → Fits levels (redactTree rt isWord sensitive v) := by
  induction v with
  | arr items ih =>
    intro sensitive levels hheight hkeys
    cases sensitive with
    | true => rw [redactTree_sensitive]; exact (by decide : redacted.length ≤ 1000000)
    | false =>
      rw [redactTree, if_neg Bool.false_ne_true, Fits]
      rw [height] at hheight
      rw [keysNamed] at hkeys
      induction items with
      | nil => exact trivial
      | cons v l ihl =>
        rw [List.forall_mem_cons] at ih
        rw [heightOfItems] at hheight
        rw [keysNamedItems, Bool.and_eq_true] at hkeys
        rw [redactItems, FitItems]
        exact ⟨⟨by omega, ih.1 false _ (by omega) hkeys.1⟩, ihl ih.2 (by omega) hkeys.2⟩
  | obj fields ih =>
    intro sensitive levels hheight hkeys
    cases sensitive with
    | true => rw [redactTree_sensitive]; exact (by decide : redacted.length ≤ 1000000)
    | false =>
      rw [redactTree, if_neg Bool.false_ne_true, Fits]
      rw [height] at hheight
      rw [keysNamed] at hkeys
      induction fields with
      | nil => exact ⟨List.forall_mem_nil _, trivial⟩
      | cons e l ihl =>
        obtain ⟨name, v⟩ := e
        rw [List.forall_mem_cons] at ih
        rw [heightOfFields] at hheight
        rw [keysNamedFields, Bool.and_eq_true, Bool.and_eq_true, decide_eq_true_eq] at hkeys
        have hv := ih.1
        dsimp only at hv
        obtain ⟨hlengths, hothers⟩ := ihl ih.2 (by omega) hkeys.2
        rw [redactFields, List.forall_mem_cons, FitFields]
        exact ⟨⟨hkeys.1.1.2, hlengths⟩, ⟨by omega, hv _ _ (by omega) hkeys.1.2⟩, hothers⟩
  | str s =>
    intro sensitive levels _ _
    cases sensitive with
    | true => rw [redactTree_sensitive]; exact (by decide : redacted.length ≤ 1000000)
    | false =>
      rw [redactTree, if_neg Bool.false_ne_true, Fits]
      exact length_redactText_fits s
  | _ =>
    intro sensitive levels _ _
    cases sensitive with
    | true => rw [redactTree_sensitive]; exact (by decide : redacted.length ≤ 1000000)
    | false => exact trivial

end Redaction

end OsScanner.Cloud

import Mathlib
import OsScanner.Policies.Findings

/-!
# What an evaluation can raise

Of the operations of an evaluation a comparison can raise for three kinds of values, and the
construction of a finding for its evidence and the version of the scanner: what a rule, a bundle and
a context have been checked for is all that else is checked of a finding.
-/

namespace OsScanner.Policies

open Lib Lib.Check Cloud Security

variable {rt : Runtime} {py : Python}

/-! ## Comparisons -/

def isNumber : Value → Bool
  | .int _ | .float _ | .nonFinite _ => true
  | _ => false

def isLong : Value → Bool
  | .int n => tooLong n
  | _ => false

/-- Two numbers of which one has too many digits for `str`. -/
def LongNumbers (actual : Value) (expected : Json) : Prop :=
  (isNumber actual = true ∧ isNumber (scalarOf expected) = true) ∧
    (isLong actual = true ∨ isLong (scalarOf expected) = true)

theorem decimalOfNumber_eq_none {value : Value} (h : isNumber value = false) :
    decimalOfNumber py value = none := by
  cases value <;> first | rfl | cases h

theorem decimalOfNumber_of_isNumber {value : Value} (h : isNumber value = true) :
    ∃ number, decimalOfNumber py value = some number ∧
      ((∃ d, number = .ok d) ↔ isLong value = false) := by
  cases value with
  | int n =>
    refine ⟨_, rfl, ?_⟩
    show (∃ d, (if tooLong n = true then Except.error longNumberError else .ok _) = .ok d) ↔
      tooLong n = false
    cases tooLong n <;> simp
  | float f => exact ⟨_, rfl, iff_of_true ⟨_, rfl⟩ rfl⟩
  | nonFinite f => cases f <;> exact ⟨_, rfl, iff_of_true ⟨_, rfl⟩ rfl⟩
  | _ => cases h

/-- Two values are compared unless they are numbers and one is too long. -/
theorem equivalent_isOk {actual : Value} {expected : Json} :
    (∃ b, equivalent py actual expected = .ok b) ↔ ¬ LongNumbers actual expected := by
  unfold equivalent
  split
  · exact iff_of_true ⟨_, rfl⟩ fun h => absurd h.1.1 Bool.false_ne_true
  · exact iff_of_true ⟨_, rfl⟩ fun h => absurd h.1.1 Bool.false_ne_true
  · exact iff_of_true ⟨_, rfl⟩ fun h => absurd h.1.2 Bool.false_ne_true
  · by_cases hactual : isNumber actual = true
    · by_cases hexpected : isNumber (scalarOf expected) = true
      · obtain ⟨left, hleft, hleft'⟩ := @decimalOfNumber_of_isNumber py _ hactual
        obtain ⟨right, hright, hright'⟩ := @decimalOfNumber_of_isNumber py _ hexpected
        simp only [hleft, hright, bind_eq_ok, LongNumbers, hactual, hexpected, and_self, true_and,
          not_or, Bool.not_eq_true, ← hleft', ← hright']
        constructor
        · rintro ⟨b, l, rfl, r, rfl, -⟩
          exact ⟨⟨l, rfl⟩, r, rfl⟩
        · rintro ⟨⟨l, rfl⟩, r, rfl⟩
          exact ⟨_, l, rfl, r, rfl, rfl⟩
      · rw [Bool.not_eq_true] at hexpected
        rw [decimalOfNumber_eq_none hexpected]
        refine iff_of_true ?_ fun h => ?_
        · cases decimalOfNumber py actual <;> exact ⟨_, rfl⟩
        · rw [h.1.2] at hexpected
          cases hexpected
    · rw [Bool.not_eq_true] at hactual
      rw [decimalOfNumber_eq_none hactual]
      refine iff_of_true ⟨_, rfl⟩ fun h => ?_
      rw [h.1.1] at hactual
      cases hactual

/-- An item that cannot be compared comes before the first one that is equivalent. -/
def LongItem (py : Python) (expected : Json) (items : List Value) : Prop :=
  ∃ before item after, items = before ++ item :: after ∧
    (∀ earlier ∈ before, equivalent py earlier expected = .ok false) ∧ LongNumbers item expected

theorem anyEquivalent_isOk {expected : Json} {items : List Value} :
    (∃ b, anyEquivalent py expected items = .ok b) ↔ ¬ LongItem py expected items := by
  induction items with
  | nil =>
    refine iff_of_true ⟨_, rfl⟩ ?_
    rintro ⟨before, item, after, h, -⟩
    exact absurd h (by simp)
  | cons item items ih =>
    rw [anyEquivalent]
    constructor
    · rintro ⟨b, h⟩ ⟨before, long, after, heq, hbefore, hlong⟩
      obtain ⟨found, hfound, h⟩ := bind_eq_ok.mp h
      cases before with
      | nil =>
        cases heq
        exact equivalent_isOk.mp ⟨found, hfound⟩ hlong
      | cons first before =>
        cases heq
        rw [List.forall_mem_cons, hfound] at hbefore
        cases Except.ok.inj hbefore.1
        exact ih.mp ⟨b, h⟩ ⟨before, long, after, rfl, hbefore.2, hlong⟩
    · intro h
      have hitem : ¬ LongNumbers item expected := fun hlong =>
        h ⟨[], item, items, rfl, fun _ hearlier => absurd hearlier List.not_mem_nil, hlong⟩
      obtain ⟨found, hfound⟩ := equivalent_isOk.mpr hitem
      rw [hfound]
      cases found with
      | true => exact ⟨true, rfl⟩
      | false =>
        refine ih.mpr fun ⟨before, long, after, heq, hbefore, hlong⟩ => ?_
        refine h ⟨item :: before, long, after, by rw [heq]; rfl, ?_, hlong⟩
        exact List.forall_mem_cons.mpr ⟨hfound, hbefore⟩

/-- A mapping has no list and no object among its keys, and Python refuses to look for one. -/
def Unhashable (actual : Value) (expected : Json) : Prop :=
  actual.isMapping = true ∧ ((∃ items, expected = .arr items) ∨ ∃ fields, expected = .obj fields)

/-- A time with a timezone and one without. -/
def MixedTimes (rt : Runtime) (actual : Value) (expected : Json) : Prop :=
  ∃ t text parsed, actual = .datetime t ∧ expected = .str text ∧
    rt.fromIsoformat (replaceZ text) = some parsed ∧
    ((∃ a p, t = .aware a ∧ parsed = .naive p) ∨ ∃ a p, t = .naive a ∧ parsed = .aware p)

/-- What Python refuses to compare. -/
def Incomparable (rt : Runtime) (py : Python) (comparison : Comparison) (actual : Value)
    (expected : Json) : Prop :=
  match comparison with
  | .equivalent => LongNumbers actual expected
  | .contains => Unhashable actual expected ∨ ∃ items, actual = .arr items ∧ LongItem py expected items
  | .greater | .less => MixedTimes rt actual expected

theorem contains_isOk {actual : Value} {expected : Json} :
    (∃ b, contains py actual expected = .ok b) ↔ ¬ Incomparable rt py .contains actual expected := by
  cases actual with
  | arr items =>
    have hcontains : contains py (.arr items) expected = anyEquivalent py expected items := by
      cases expected <;> rfl
    rw [hcontains, anyEquivalent_isOk]
    refine not_congr ⟨fun h => Or.inr ⟨items, rfl, h⟩, ?_⟩
    rintro (⟨h, -⟩ | ⟨items', h, hlong⟩)
    · cases h
    · cases h
      exact hlong
  | set items =>
    have hcontains : contains py (.set items) expected =
        anyEquivalent py expected (items.map .str) := by
      cases expected <;> rfl
    rw [hcontains, anyEquivalent_isOk]
    refine iff_of_true ?_ ?_
    · rintro ⟨before, item, after, heq, -, hlong⟩
      have hitem : item ∈ items.map Value.str := by rw [heq]; simp
      obtain ⟨text, -, rfl⟩ := List.mem_map.mp hitem
      exact absurd hlong.1.1 Bool.false_ne_true
    · rintro (⟨h, -⟩ | ⟨items', h, -⟩) <;> cases h
  | obj fields =>
    cases expected with
    | arr items =>
      refine iff_of_false ?_ fun h => h (Or.inl ⟨rfl, Or.inl ⟨items, rfl⟩⟩)
      rintro ⟨b, h⟩
      cases h
    | obj fields =>
      refine iff_of_false ?_ fun h => h (Or.inl ⟨rfl, Or.inr ⟨fields, rfl⟩⟩)
      rintro ⟨b, h⟩
      cases h
    | _ =>
      refine iff_of_true ⟨_, rfl⟩ ?_
      rintro (⟨-, ⟨_, h⟩ | ⟨_, h⟩⟩ | ⟨_, h, -⟩) <;> cases h
  | _ =>
    refine iff_of_true ?_ ?_
    · cases expected <;> exact ⟨_, rfl⟩
    · rintro (⟨h, -⟩ | ⟨_, h, -⟩) <;> cases h

theorem compareTimes_isOk {greater : Bool} {t parsed : Datetime} :
    (∃ b, compareTimes greater t parsed = .ok b) ↔
      ¬ ((∃ a p, t = .aware a ∧ parsed = .naive p) ∨ ∃ a p, t = .naive a ∧ parsed = .aware p) := by
  cases t <;> cases parsed <;> simp [compareTimes]

theorem compareWithText_isOk {greater : Bool} {actual : Value} {expected : Json} :
    (∃ b, compareWithText rt greater actual expected = .ok b) ↔ ¬ MixedTimes rt actual expected := by
  unfold compareWithText
  split
  · next t text =>
    cases hparsed : rt.fromIsoformat (replaceZ text) with
    | none =>
      refine iff_of_true ⟨_, rfl⟩ ?_
      rintro ⟨_, _, parsed, -, h, hsome, -⟩
      cases h
      rw [hparsed] at hsome
      cases hsome
    | some parsed =>
      refine compareTimes_isOk.trans (not_congr ⟨fun h => ?_, ?_⟩)
      · exact ⟨t, text, parsed, rfl, rfl, hparsed, h⟩
      · rintro ⟨t', text', parsed', ht, htext, hsome, h⟩
        cases ht
        cases htext
        rw [hparsed] at hsome
        cases hsome
        exact h
  · next hother =>
    refine iff_of_true ⟨_, rfl⟩ ?_
    rintro ⟨t, text, _, hactual, hexpected, -⟩
    exact hother t text hactual hexpected

theorem orderedCompare_isOk {greater : Bool} {actual : Value} {expected : Json} :
    (∃ b, orderedCompare rt py greater actual expected = .ok b) ↔ ¬ MixedTimes rt actual expected := by
  unfold orderedCompare
  split
  · refine iff_of_true ⟨_, rfl⟩ ?_
    rintro ⟨_, _, _, h, -⟩
    cases h
  · refine iff_of_true ⟨_, rfl⟩ ?_
    rintro ⟨_, _, _, -, h, -⟩
    cases h
  · split
    · next result hresult =>
      refine iff_of_true ⟨_, rfl⟩ ?_
      -- A time is no number.
      rintro ⟨_, _, _, h, -⟩
      cases h
      cases hresult
    · exact compareWithText_isOk

/-- A comparison raises exactly for values that Python refuses to compare. -/
theorem outcome_isOk {comparison : Comparison} {actual : Value} {expected : Json} :
    (∃ b, comparison.outcome rt py actual expected = .ok b) ↔
      ¬ Incomparable rt py comparison actual expected := by
  cases comparison with
  | equivalent => exact equivalent_isOk
  | contains => exact contains_isOk
  | greater => exact orderedCompare_isOk
  | less => exact orderedCompare_isOk

end OsScanner.Policies

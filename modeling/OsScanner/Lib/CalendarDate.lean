import Mathlib

/-!
# Calendar dates as texts

`date.isoformat()` writes the year with four digits, the month and the day with two. So texts of
dates compare as the dates do.
-/

namespace OsScanner.Lib

/-- A date, as far as its text is concerned. -/
structure CalendarDate where
  year : Nat
  month : Nat
  day : Nat
  year_lt : year < 10000
  month_lt : month < 100
  day_lt : day < 100

namespace CalendarDate

/-- The last digits of a number, with leading zeros. -/
def digits : Nat → Nat → List Char
  | 0, _ => []
  | width + 1, n => digits width (n / 10) ++ [Char.ofNat (48 + n % 10)]

/-- `value.isoformat()` -/
def isoformat (date : CalendarDate) : String :=
  String.ofList (digits 4 date.year ++ '-' :: (digits 2 date.month ++ '-' :: digits 2 date.day))

/-- The date is no later. -/
def Le (a b : CalendarDate) : Prop :=
  a.year < b.year ∨ a.year = b.year ∧ (a.month < b.month ∨ a.month = b.month ∧ a.day ≤ b.day)

/-! ## Texts of one length -/

theorem length_digits (width n : Nat) : (digits width n).length = width := by
  induction width generalizing n with
  | zero => rfl
  | succ width ih => rw [digits, List.length_append, ih, List.length_singleton]

/-- Behind texts of one length, what follows decides only between equal ones. -/
theorem append_lt_append_iff {a b c d : List Char} (h : a.length = b.length) :
    a ++ c < b ++ d ↔ a < b ∨ a = b ∧ c < d := by
  induction a generalizing b with
  | nil =>
    cases b with
    | nil => simp
    | cons y b => cases h
  | cons x a ih =>
    cases b with
    | nil => cases h
    | cons y b =>
      rw [List.cons_append, List.cons_append, List.cons_lt_cons_iff, ih (Nat.succ.inj h),
        List.cons_lt_cons_iff, List.cons.injEq]
      tauto

theorem toNat_digit (n : Nat) : (Char.ofNat (48 + n % 10)).toNat = 48 + n % 10 := by
  have h : n % 10 < 10 := Nat.mod_lt n (by decide)
  generalize n % 10 = m at h
  interval_cases m <;> rfl

theorem digits_inj {width m n : Nat} (hm : m < 10 ^ width) (hn : n < 10 ^ width)
    (h : digits width m = digits width n) : m = n := by
  induction width generalizing m n with
  | zero => omega
  | succ width ih =>
    rw [digits, digits] at h
    obtain ⟨hfirst, hlast⟩ := List.append_inj' h rfl
    have hdigit := congrArg Char.toNat (List.singleton_inj.mp hlast)
    rw [toNat_digit, toNat_digit] at hdigit
    have hquotient := ih (m := m / 10) (n := n / 10) (by omega) (by omega) hfirst
    omega

theorem digits_lt_iff {width m n : Nat} (hm : m < 10 ^ width) (hn : n < 10 ^ width) :
    digits width m < digits width n ↔ m < n := by
  induction width generalizing m n with
  | zero =>
    have hzero : m = 0 ∧ n = 0 := by omega
    rw [hzero.1, hzero.2]
    simp
  | succ width ih =>
    have hm' : m / 10 < 10 ^ width := by omega
    have hn' : n / 10 < 10 ^ width := by omega
    have hlast : [Char.ofNat (48 + m % 10)] < [Char.ofNat (48 + n % 10)] ↔ m % 10 < n % 10 := by
      rw [List.cons_lt_cons_iff]
      have hchar : Char.ofNat (48 + m % 10) < Char.ofNat (48 + n % 10) ↔
          (Char.ofNat (48 + m % 10)).toNat < (Char.ofNat (48 + n % 10)).toNat := Iff.rfl
      rw [hchar, toNat_digit, toNat_digit]
      simp
    rw [digits, digits, append_lt_append_iff (by rw [length_digits, length_digits]), ih hm' hn', hlast]
    constructor
    · rintro (h | ⟨h, hdigit⟩)
      · omega
      · have hquotient := digits_inj hm' hn' h
        omega
    · intro h
      by_cases hquotient : m / 10 = n / 10
      · exact Or.inr ⟨by rw [hquotient], by omega⟩
      · exact Or.inl (by omega)

/-! ## Dates -/

theorem isoformat_lt_iff (a b : CalendarDate) : a.isoformat < b.isoformat ↔ ¬ b.Le a := by
  rw [String.lt_iff_toList_lt, isoformat, isoformat, String.toList_ofList, String.toList_ofList,
    append_lt_append_iff (by rw [length_digits, length_digits]), List.cons_lt_cons_iff,
    append_lt_append_iff (by rw [length_digits, length_digits]), List.cons_lt_cons_iff,
    digits_lt_iff a.year_lt b.year_lt, digits_lt_iff a.month_lt b.month_lt,
    digits_lt_iff a.day_lt b.day_lt]
  have hyear : digits 4 a.year = digits 4 b.year ↔ a.year = b.year :=
    ⟨digits_inj a.year_lt b.year_lt, fun h => by rw [h]⟩
  have hmonth : digits 2 a.month = digits 2 b.month ↔ a.month = b.month :=
    ⟨digits_inj a.month_lt b.month_lt, fun h => by rw [h]⟩
  rw [hyear, hmonth, Le]
  simp only [lt_self_iff_false, false_or, true_and]
  omega

/-- The texts of dates compare as the dates do. -/
theorem isoformat_le_iff (a b : CalendarDate) : a.isoformat ≤ b.isoformat ↔ a.Le b := by
  rw [← not_lt, isoformat_lt_iff, not_not]

/-- The text has only digits and hyphens. -/
theorem mem_isoformat {date : CalendarDate} {c : Char} (h : c ∈ date.isoformat.toList) :
    c ∈ "0123456789-".toList := by
  have hdigits : ∀ width n, ∀ c ∈ digits width n, c ∈ "0123456789-".toList := by
    intro width
    induction width with
    | zero => exact fun n c hc => by cases hc
    | succ width ih =>
      intro n c hc
      rcases List.mem_append.mp hc with hc | hc
      · exact ih _ c hc
      · rw [List.mem_singleton.mp hc]
        have h : n % 10 < 10 := Nat.mod_lt n (by decide)
        generalize n % 10 = m at h
        interval_cases m <;> decide
  rw [isoformat, String.toList_ofList, List.mem_append, List.mem_cons, List.mem_append,
    List.mem_cons] at h
  rcases h with h | rfl | h | rfl | h
  · exact hdigits _ _ c h
  · decide
  · exact hdigits _ _ c h
  · decide
  · exact hdigits _ _ c h

theorem length_isoformat (date : CalendarDate) : date.isoformat.length = 10 := by
  rw [isoformat, String.length_ofList, List.length_append, List.length_cons, List.length_append,
    List.length_cons, length_digits, length_digits, length_digits]

end CalendarDate

end OsScanner.Lib

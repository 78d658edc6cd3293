import Mathlib

/-!
# Rounding half to even

The integer that is nearest to a number, and the even one of the two when it lies halfway between
them. It is characterized by its distance from the number, so rounding is monotone, and it commutes
with taking the difference from an even number.
-/

namespace OsScanner.Lib

section

variable {α : Type} [Field α] [LinearOrder α] [FloorRing α]

/-- The nearest integer; halfway between two integers, the even one. -/
def roundEven (x : α) : ℤ :=
  if Int.fract x < 1 / 2 then ⌊x⌋
  else if 1 / 2 < Int.fract x then ⌊x⌋ + 1
  else if Even ⌊x⌋ then ⌊x⌋ else ⌊x⌋ + 1

/-- `round(x, digits)` of an exact number -/
def roundTo (digits : Nat) (x : α) : α := roundEven (x * 10 ^ digits) / 10 ^ digits

end

section

variable {α : Type} [Field α] [LinearOrder α] [IsStrictOrderedRing α] [FloorRing α] {x y : α}
  {n : ℤ}

theorem abs_sub_roundEven (x : α) :
    |x - roundEven x| ≤ 1 / 2 ∧ (|x - roundEven x| = 1 / 2 → Even (roundEven x)) := by
  have hsplit : x - ⌊x⌋ = Int.fract x := Int.self_sub_floor x
  have hfract := Int.fract_nonneg x
  have hlt := Int.fract_lt_one x
  have hdown : |x - ⌊x⌋| = Int.fract x := by rw [hsplit, abs_of_nonneg hfract]
  have hup : |x - ((⌊x⌋ + 1 : ℤ) : α)| = 1 - Int.fract x := by
    rw [show x - ((⌊x⌋ + 1 : ℤ) : α) = -(1 - Int.fract x) by push_cast; linarith, abs_neg,
      abs_of_nonneg (by linarith)]
  unfold roundEven
  split
  · next h => exact ⟨by rw [hdown]; exact h.le, fun heq => absurd (hdown.symm.trans heq) h.ne⟩
  · next h =>
    split
    · next h' =>
      refine ⟨by rw [hup]; linarith, fun heq => ?_⟩
      rw [hup] at heq
      linarith
    · next h' =>
      split
      · next heven => exact ⟨by rw [hdown]; linarith, fun _ => heven⟩
      · next hodd =>
        refine ⟨by rw [hup]; linarith, fun _ => ?_⟩
        exact (Int.not_even_iff_odd.mp hodd).add_one

/-- The integer is determined by what `abs_sub_roundEven` says of it. -/
theorem eq_roundEven (hnear : |x - n| ≤ 1 / 2) (heven : |x - n| = 1 / 2 → Even n) :
    n = roundEven x := by
  obtain ⟨hnear', heven'⟩ := abs_sub_roundEven x
  by_contra hne
  -- two nearest integers are next to each other, and both at a distance of one half
  have hsum : |((n - roundEven x : ℤ) : α)| ≤ |x - n| + |x - roundEven x| := by
    rw [show ((n - roundEven x : ℤ) : α) = (x - roundEven x) - (x - n) by push_cast; ring]
    exact (abs_sub _ _).trans (add_comm _ _).le
  have hone : (1 : α) ≤ |((n - roundEven x : ℤ) : α)| := by
    rw [← Int.cast_abs]
    exact_mod_cast Int.one_le_abs (sub_ne_zero.mpr hne)
  have hhalf : |x - n| = 1 / 2 := by linarith
  have hhalf' : |x - roundEven x| = 1 / 2 := by linarith
  have hdistance : |n - roundEven x| = 1 := by
    have hle : |((n - roundEven x : ℤ) : α)| ≤ 1 := by linarith
    rw [← Int.cast_abs] at hle hone
    exact_mod_cast le_antisymm hle hone
  have hdifference : Even (n - roundEven x) := (heven hhalf).sub (heven' hhalf')
  rcases (abs_eq zero_le_one).mp hdistance with h | h <;> rw [h] at hdifference
  · exact absurd hdifference (by decide)
  · exact absurd hdifference (by decide)

theorem roundEven_intCast (n : ℤ) : roundEven (n : α) = n := by
  refine (eq_roundEven ?_ fun h => ?_).symm
  · rw [sub_self, abs_zero]
    positivity
  · rw [sub_self, abs_zero] at h
    exact absurd h (by norm_num)

theorem roundEven_mono (h : x ≤ y) : roundEven x ≤ roundEven y := by
  by_contra hlt
  rw [not_le] at hlt
  obtain ⟨hx, -⟩ := abs_sub_roundEven x
  obtain ⟨hy, -⟩ := abs_sub_roundEven y
  rw [abs_le] at hx hy
  have hgap : (roundEven y : α) + 1 ≤ roundEven x := by exact_mod_cast hlt
  have heq : x = y := by linarith
  rw [heq] at hlt
  exact lt_irrefl _ hlt

theorem roundEven_sub {n : ℤ} (hn : Even n) (x : α) : roundEven (n - x) = n - roundEven x := by
  obtain ⟨hnear, heven⟩ := abs_sub_roundEven x
  have hdistance : |(n : α) - x - ((n - roundEven x : ℤ) : α)| = |x - roundEven x| := by
    rw [show (n : α) - x - ((n - roundEven x : ℤ) : α) = -(x - roundEven x) by push_cast; ring,
      abs_neg]
  refine (eq_roundEven (by rwa [hdistance]) fun h => ?_).symm
  rw [hdistance] at h
  exact hn.sub (heven h)

theorem roundTo_mono {digits : Nat} (h : x ≤ y) : roundTo digits x ≤ roundTo digits y := by
  have hpower : (0 : α) < 10 ^ digits := by positivity
  have hscaled := roundEven_mono (mul_le_mul_of_nonneg_right h hpower.le)
  exact div_le_div_of_nonneg_right (by exact_mod_cast hscaled) hpower.le

theorem roundTo_intCast (digits : Nat) (n : ℤ) : roundTo digits (n : α) = n := by
  have hpower : (10 : α) ^ digits ≠ 0 := by positivity
  have hscaled : (n : α) * 10 ^ digits = ((n * 10 ^ digits : ℤ) : α) := by push_cast; ring
  rw [roundTo, hscaled, roundEven_intCast]
  push_cast
  field_simp

/-- Rounding to at least one digit commutes with taking the difference from an integer. -/
theorem roundTo_sub {digits : Nat} (hdigits : digits ≠ 0) (n : ℤ) (x : α) :
    roundTo digits (n - x) = n - roundTo digits x := by
  have hpower : (10 : α) ^ digits ≠ 0 := by positivity
  have heven : Even (n * 10 ^ digits) := by
    refine Even.mul_left ?_ n
    exact (show Even (10 : ℤ) by decide).pow_of_ne_zero hdigits
  have hscaled : ((n : α) - x) * 10 ^ digits = ((n * 10 ^ digits : ℤ) : α) - x * 10 ^ digits := by
    push_cast
    ring
  rw [roundTo, hscaled, roundEven_sub heven, roundTo]
  push_cast
  field_simp

end

end OsScanner.Lib

import Mathlib
import OsScanner.Storage.Database

/-!
# Texts that need no cleaning

Letters and digits are neither spaces nor control characters, and a text without spaces is what
stripping it gives.
-/

namespace OsScanner.Storage

theorem toNat_of_isAlphanum {c : Char} (h : c.isAlphanum = true) :
    (65 ≤ c.toNat ∧ c.toNat ≤ 90) ∨ (97 ≤ c.toNat ∧ c.toNat ≤ 122) ∨
      (48 ≤ c.toNat ∧ c.toNat ≤ 57) := by
  simp only [Char.isAlphanum, Char.isAlpha, Char.isUpper, Char.isLower, Char.isDigit,
    Bool.or_eq_true, decide_eq_true_eq, Bool.and_eq_true, UInt32.le_iff_toNat_le, ge_iff_le] at h
  change ((65 ≤ c.toNat ∧ c.toNat ≤ 90) ∨ (97 ≤ c.toNat ∧ c.toNat ≤ 122)) ∨
    (48 ≤ c.toNat ∧ c.toNat ≤ 57) at h
  omega

theorem not_isSpace_of_isAlphanum {c : Char} (h : c.isAlphanum = true) : isSpace c = false := by
  have hrange := toNat_of_isAlphanum h
  unfold isSpace
  rw [decide_eq_false_iff_not]
  omega

theorem not_isControl_of_isAlphanum {c : Char} (h : c.isAlphanum = true) : isControl c = false := by
  have hrange := toNat_of_isAlphanum h
  unfold isControl
  rw [decide_eq_false_iff_not]
  omega

theorem strip_of_no_space {text : String} (h : ∀ c ∈ text.toList, isSpace c = false) :
    strip text = text := by
  have hhead : text.toList.dropWhile isSpace = text.toList := by
    rw [List.dropWhile_eq_self_iff]
    intro hlength
    rw [h _ (List.getElem_mem hlength)]
    decide
  have hlast : text.toList.rdropWhile isSpace = text.toList := by
    rw [List.rdropWhile_eq_self_iff]
    intro hne
    rw [h _ (List.getLast_mem hne)]
    decide
  rw [strip, hhead, hlast, String.ofList_toList]

end OsScanner.Storage

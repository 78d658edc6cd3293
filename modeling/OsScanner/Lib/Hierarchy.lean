import Mathlib

/-!
# Names in a hierarchy

A name is read from its end: `a.b.c` lies under `b.c`, which lies under `c`. To compare two
names a separator is put before both, so that a label of one is never taken for the end of a
label of the other.

The order is a tree: what lies above a name is a chain. So when a name lies under two others,
one of these lies under the other.
-/

namespace OsScanner.Lib

universe u

variable {α : Type u} {sep : α} {a b c : List α}

/-- The name is the parent or ends in a separator and the parent. -/
def Under (sep : α) (name parent : List α) : Prop := name = parent ∨ sep :: parent <:+ name

instance [DecidableEq α] (name parent : List α) : Decidable (Under sep name parent) :=
  inferInstanceAs (Decidable (_ ∨ _))

namespace Under

theorem iff_suffix : Under sep a b ↔ sep :: b <:+ sep :: a := by
  rw [List.suffix_cons_iff, List.cons.injEq, Under]
  exact or_congr ⟨fun h => ⟨rfl, h.symm⟩, fun h => h.2.symm⟩ Iff.rfl

theorem refl (a : List α) : Under sep a a := Or.inl rfl

theorem trans (h : Under sep a b) (h' : Under sep b c) : Under sep a c := by
  rw [iff_suffix] at h h' ⊢
  exact h'.trans h

theorem antisymm (h : Under sep a b) (h' : Under sep b a) : a = b := by
  rw [iff_suffix] at h h'
  have heq := h.eq_of_length_le h'.length_le
  exact (List.cons.inj heq).2.symm

/-- Of two names above a third, one is above the other. -/
theorem comparable (h : Under sep a b) (h' : Under sep a c) : Under sep b c ∨ Under sep c b := by
  rw [iff_suffix] at h h'
  rw [iff_suffix, iff_suffix]
  exact (List.suffix_or_suffix_of_suffix h h').symm

/-- What lies under a name and differs from it ends in it. -/
theorem suffix_of_ne (h : Under sep a b) (hne : a ≠ b) : sep :: b <:+ a :=
  h.resolve_left hne

/-- What ends in a name also ends in the names that this one ends in. -/
theorem suffix_trans (h : Under sep a b) (h' : sep :: c <:+ b) : sep :: c <:+ a := by
  obtain rfl | hsuffix := h
  · exact h'
  · exact (h'.trans (List.suffix_cons sep b)).trans hsuffix

end Under

end OsScanner.Lib

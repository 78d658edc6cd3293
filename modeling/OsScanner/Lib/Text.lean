import Mathlib

/-!
# Splitting a text at a token boundary

When a token is followed by something that cannot continue it, the concatenation determines
both. Printers of nested formats are injective for this reason.
-/

namespace OsScanner.Lib

universe u

variable {α : Type u}

/-- The list does not start with an element of the class. -/
def Delimited (p : α → Bool) (l : List α) : Prop := ∀ c ∈ l.head?, p c = false

@[simp] theorem delimited_nil (p : α → Bool) : Delimited p [] := by simp [Delimited]

@[simp] theorem delimited_cons {p : α → Bool} {c : α} {l : List α} :
    Delimited p (c :: l) ↔ p c = false := by simp [Delimited]

/-- A maximal run of the class is what `takeWhile` reads. -/
theorem takeWhile_append_delimited {p : α → Bool} {a r : List α} (ha : ∀ c ∈ a, p c = true)
    (hr : Delimited p r) : (a ++ r).takeWhile p = a := by
  rw [List.takeWhile_append_of_pos ha]
  cases r with
  | nil => simp
  | cons c r => simp [delimited_cons.mp hr]

/-- A token of the class is separated from what follows it. -/
theorem token_append_inj {p : α → Bool} {a b r s : List α} (ha : ∀ c ∈ a, p c = true)
    (hb : ∀ c ∈ b, p c = true) (hr : Delimited p r) (hs : Delimited p s)
    (h : a ++ r = b ++ s) : a = b ∧ r = s := by
  have hab : a = b := by
    rw [← takeWhile_append_delimited ha hr, ← takeWhile_append_delimited hb hs, h]
  rw [hab] at h
  exact ⟨hab, List.append_cancel_left h⟩

/-! ## The order of texts -/

instance isTrans_string_le : IsTrans String fun a b => a ≤ b := ⟨fun _ _ _ => le_trans⟩

instance antisymm_string_le : Std.Antisymm fun a b : String => a ≤ b := ⟨fun _ _ => le_antisymm⟩

instance total_string_le : Std.Total fun a b : String => a ≤ b := ⟨le_total⟩

end OsScanner.Lib

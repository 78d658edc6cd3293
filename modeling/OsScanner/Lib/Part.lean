import Mathlib
import OsScanner.Lib.Keeps

/-!
# Methods of a part of the state

A method that only knows a part of a state runs on the whole state by reading the part and
putting back what it leaves.
-/

namespace OsScanner.Lib

universe u v w

/-- A part of a state that can be read and replaced. -/
structure Part (σ τ : Type u) where
  get : σ → τ
  set : σ → τ → σ
  get_set : ∀ s t, get (set s t) = t
  set_get : ∀ s, set s (get s) = s

namespace Method

section

variable {σ : Type u} {ε : Type v} {α β : Type w} {s s' : σ} {b : β}

/-- A check in front of a method that returns has passed. -/
theorem ofExcept_bind_eq_ok {x : Except ε α} {g : α → Method σ ε β} :
    (ofExcept x >>= g).run s = (.ok b, s') ↔ ∃ a, x = .ok a ∧ (g a).run s = (.ok b, s') := by
  rw [run_ofExcept_bind]
  cases x with
  | error e => simp
  | ok a => simp

theorem reading_bind_eq_ok {f : σ → Except ε α} {g : α → Method σ ε β} :
    (reading f >>= g).run s = (.ok b, s') ↔ ∃ a, f s = .ok a ∧ (g a).run s = (.ok b, s') := by
  rw [run_reading_bind]
  cases f s with
  | error e => simp
  | ok a => simp

end

variable {σ τ : Type u} {ε : Type v} {α : Type w} {part : Part σ τ} {m : Method τ ε α}

/-- Run a method of the part on the whole. -/
def on (part : Part σ τ) (m : Method τ ε α) : Method σ ε α :=
  ⟨fun s => ((m.run (part.get s)).1, part.set s (m.run (part.get s)).2)⟩

theorem run_on {s : σ} {t : τ} {result : Except ε α} (h : m.run (part.get s) = (result, t)) :
    (on part m).run s = (result, part.set s t) := by
  simp only [on, h]

theorem on_eq {s s' : σ} {result : Except ε α} :
    (on part m).run s = (result, s') ↔
      ∃ t, m.run (part.get s) = (result, t) ∧ s' = part.set s t := by
  constructor
  · intro h
    rcases hm : m.run (part.get s) with ⟨result', t⟩
    rw [run_on hm, Prod.mk.injEq] at h
    obtain ⟨rfl, rfl⟩ := h
    exact ⟨t, rfl, rfl⟩
  · rintro ⟨t, hm, rfl⟩
    exact run_on hm

/-- What a method keeps of its part, it keeps of the whole. -/
theorem keeps_on {P : σ → Prop} {Q : σ → τ → Prop} (hread : ∀ s, P s → Q s (part.get s))
    (hm : ∀ s, Keeps (Q s) m) (hwrite : ∀ s t, P s → Q s t → P (part.set s t)) :
    Keeps P (on part m) := by
  intro s hs
  exact hwrite s _ hs (hm s _ (hread s hs))

end Method

end OsScanner.Lib

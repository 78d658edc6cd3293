import Mathlib
import OsScanner.Lib.Method

/-!
# What a method keeps

A method keeps a property of the state when it leaves it in every state that has it, whether
it returns or raises. The rules follow the operations, so that a composed method keeps what its
parts keep.
-/

namespace OsScanner.Lib.Method

universe u v w

variable {σ : Type u} {ε : Type v} {α β : Type w} {P : σ → Prop}

/-- Every run from a state with the property leaves a state with it. -/
def Keeps (P : σ → Prop) (m : Method σ ε α) : Prop := ∀ s, P s → P (m.run s).2

theorem Keeps.apply {m : Method σ ε α} (h : Keeps P m) {s s' : σ} {result : Except ε α}
    (hs : P s) (hrun : m.run s = (result, s')) : P s' := by
  have hstate := h s hs
  rw [hrun] at hstate
  exact hstate

theorem keeps_pure (a : α) : Keeps P (pure a : Method σ ε α) := fun _ h => h

theorem keeps_raise (e : ε) : Keeps P (raise e : Method σ ε α) := fun _ h => h

theorem keeps_ofExcept (x : Except ε α) : Keeps P (ofExcept x : Method σ ε α) := fun _ h => h

theorem keeps_reading (f : σ → Except ε α) : Keeps P (reading f : Method σ ε α) := fun _ h => h

theorem keeps_modify {f : σ → σ} (hf : ∀ s, P s → P (f s)) :
    Keeps P (modify f : Method σ ε Unit) := fun s h => hf s h

theorem Keeps.bind {m : Method σ ε α} {f : α → Method σ ε β} (hm : Keeps P m)
    (hf : ∀ a, Keeps P (f a)) : Keeps P (m >>= f) := by
  intro s hs
  rw [run_bind]
  rcases hrun : m.run s with ⟨e | a, s'⟩
  · exact hm.apply hs hrun
  · exact hf a s' (hm.apply hs hrun)

theorem Keeps.rescue {m : Method σ ε α} {handler : ε → Method σ ε α} (hm : Keeps P m)
    (hhandler : ∀ e, Keeps P (handler e)) : Keeps P (m.rescue handler) := by
  intro s hs
  rw [Method.rescue]
  dsimp only
  rcases hrun : m.run s with ⟨e | a, s'⟩
  · exact hhandler e s' (hm.apply hs hrun)
  · exact hm.apply hs hrun

theorem Keeps.transaction {m : Method σ ε α} (hm : Keeps P m) : Keeps P (Method.transaction m) := by
  intro s hs
  rw [Method.transaction]
  dsimp only
  rcases hrun : m.run s with ⟨e | a, s'⟩
  · exact hs
  · exact hm.apply hs hrun

end OsScanner.Lib.Method

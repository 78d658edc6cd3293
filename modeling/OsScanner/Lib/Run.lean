import Mathlib

/-!
# Runs of a deterministic machine

A machine takes one input at a time. A run is the list of its inputs; the state it ends in
is the fold. The rules below turn what one step preserves into what a run preserves, also
when the step preserves it only under a guard that every step of the run satisfies.
-/

namespace OsScanner.Lib

universe u v

variable {σ : Type u} {ι : Type v}

/-- The state after a run. -/
def runFrom (step : σ → ι → σ) (s : σ) (inputs : List ι) : σ := inputs.foldl step s

@[simp] theorem runFrom_nil (step : σ → ι → σ) (s : σ) : runFrom step s [] = s := rfl

@[simp] theorem runFrom_cons (step : σ → ι → σ) (s : σ) (i : ι) (is : List ι) :
    runFrom step s (i :: is) = runFrom step (step s i) is := rfl

theorem runFrom_append (step : σ → ι → σ) (s : σ) (is js : List ι) :
    runFrom step s (is ++ js) = runFrom step (runFrom step s is) js := List.foldl_append

/-- Every step of the run satisfies the guard in the state it is taken in. -/
def Guarded (step : σ → ι → σ) (guard : σ → ι → Prop) : σ → List ι → Prop
  | _, [] => True
  | s, i :: is => guard s i ∧ Guarded step guard (step s i) is

@[simp] theorem guarded_nil (step : σ → ι → σ) (guard : σ → ι → Prop) (s : σ) :
    Guarded step guard s [] := trivial

@[simp] theorem guarded_cons {step : σ → ι → σ} {guard : σ → ι → Prop} {s : σ} {i : ι}
    {is : List ι} :
    Guarded step guard s (i :: is) ↔ guard s i ∧ Guarded step guard (step s i) is := Iff.rfl

theorem guarded_append {step : σ → ι → σ} {guard : σ → ι → Prop} {is js : List ι} :
    ∀ {s : σ}, Guarded step guard s (is ++ js) ↔
      Guarded step guard s is ∧ Guarded step guard (runFrom step s is) js := by
  induction is with
  | nil => simp
  | cons i is ih => intro s; simp [ih, and_assoc]

instance decidableGuarded (step : σ → ι → σ) (guard : σ → ι → Prop)
    [∀ s i, Decidable (guard s i)] : ∀ s is, Decidable (Guarded step guard s is)
  | _, [] => isTrue trivial
  | s, i :: is =>
    have := decidableGuarded step guard (step s i) is
    inferInstanceAs (Decidable (guard s i ∧ Guarded step guard (step s i) is))

/-- What every step preserves, every run preserves. -/
theorem run_invariant {step : σ → ι → σ} {P : σ → Prop} (hstep : ∀ s i, P s → P (step s i)) :
    ∀ {is : List ι} {s : σ}, P s → P (runFrom step s is) := by
  intro is
  induction is with
  | nil => exact fun h => h
  | cons i is ih => exact fun h => ih (hstep _ i h)

/-- What every guarded step preserves, every guarded run preserves. -/
theorem Guarded.invariant {step : σ → ι → σ} {guard : σ → ι → Prop} {P : σ → Prop}
    (hstep : ∀ s i, guard s i → P s → P (step s i)) :
    ∀ {is : List ι} {s : σ}, Guarded step guard s is → P s → P (runFrom step s is) := by
  intro is
  induction is with
  | nil => exact fun _ h => h
  | cons i is ih => exact fun hg h => ih hg.2 (hstep _ i hg.1 h)

/--
A relation between earlier and later states: reflexive, transitive and respected by every
guarded step that starts in the invariant. Then a guarded run respects it from end to end.
-/
theorem Guarded.relates {step : σ → ι → σ} {guard : σ → ι → Prop} {P : σ → Prop}
    {R : σ → σ → Prop} (hrefl : ∀ s, R s s) (htrans : ∀ {a b c}, R a b → R b c → R a c)
    (hinv : ∀ s i, guard s i → P s → P (step s i))
    (hstep : ∀ s i, guard s i → P s → R s (step s i)) :
    ∀ {is : List ι} {s : σ}, Guarded step guard s is → P s → R s (runFrom step s is) := by
  intro is
  induction is with
  | nil => exact fun _ _ => hrefl _
  | cons i is ih =>
    intro s hg h
    exact htrans (hstep s i hg.1 h) (ih hg.2 (hinv s i hg.1 h))

/-- The same without a guard. -/
theorem run_relates {step : σ → ι → σ} {P : σ → Prop} {R : σ → σ → Prop}
    (hrefl : ∀ s, R s s) (htrans : ∀ {a b c}, R a b → R b c → R a c)
    (hinv : ∀ s i, P s → P (step s i)) (hstep : ∀ s i, P s → R s (step s i)) :
    ∀ {is : List ι} {s : σ}, P s → R s (runFrom step s is) := by
  intro is
  induction is with
  | nil => exact fun _ => hrefl _
  | cons i is ih => exact fun h => htrans (hstep _ i h) (ih (hinv _ i h))

end OsScanner.Lib

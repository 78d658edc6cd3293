import Mathlib

/-!
# Computations with effects in a row

A computation is the list of its effects, in the order in which it has them, and its value. Running
it performs the effects on a state, one after the other; the first one that raises ends the run, so
what the list has after that effect is not performed, and the value is not returned.

The value does not depend on the state. Questions about the value and about what can raise are
separate for this reason: the one is about `value`, the other about the effects that a run reaches.
-/

namespace OsScanner.Lib

variable {ε α β σ φ : Type}

/-- The effects of a computation in their order, and its value. -/
structure Traced (ε α : Type) where
  effects : List ε
  value : α

namespace Traced

instance : Monad (Traced ε) where
  pure a := ⟨[], a⟩
  bind t f := ⟨t.effects ++ (f t.value).effects, (f t.value).value⟩

@[simp] theorem value_pure (a : α) : (pure a : Traced ε α).value = a := rfl

@[simp] theorem effects_pure (a : α) : (pure a : Traced ε α).effects = [] := rfl

@[simp] theorem value_bind (t : Traced ε α) (f : α → Traced ε β) :
    (t >>= f).value = (f t.value).value := rfl

@[simp] theorem effects_bind (t : Traced ε α) (f : α → Traced ε β) :
    (t >>= f).effects = t.effects ++ (f t.value).effects := rfl

/-! ## Lists -/

/-- `any(f(x) for x in xs)` -/
def any (f : α → Traced ε Bool) : List α → Traced ε Bool
  | [] => pure false
  | x :: xs => do if ← f x then pure true else any f xs

/-- `all(f(x) for x in xs)` -/
def all (f : α → Traced ε Bool) : List α → Traced ε Bool
  | [] => pure true
  | x :: xs => do if ← f x then all f xs else pure false

/-- `[x for x in xs if f(x)]` -/
def select (f : α → Traced ε Bool) : List α → Traced ε (List α)
  | [] => pure []
  | x :: xs => do
    let kept ← f x
    let rest ← select f xs
    pure (if kept then x :: rest else rest)

@[simp] theorem value_any (f : α → Traced ε Bool) (xs : List α) :
    (any f xs).value = xs.any fun x => (f x).value := by
  induction xs with
  | nil => rfl
  | cons x xs ih =>
    rw [any, value_bind, List.any_cons, ← ih]
    cases (f x).value <;> rfl

@[simp] theorem value_all (f : α → Traced ε Bool) (xs : List α) :
    (all f xs).value = xs.all fun x => (f x).value := by
  induction xs with
  | nil => rfl
  | cons x xs ih =>
    rw [all, value_bind, List.all_cons, ← ih]
    cases (f x).value <;> rfl

@[simp] theorem value_select (f : α → Traced ε Bool) (xs : List α) :
    (select f xs).value = xs.filter fun x => (f x).value := by
  induction xs with
  | nil => rfl
  | cons x xs ih =>
    rw [select, List.filter_cons, ← ih]
    rfl

/-! ## Runs -/

variable {step : σ → ε → Except φ σ} {s s' : σ}

/-- The value of the computation, if none of its effects raises. -/
def run (step : σ → ε → Except φ σ) (s : σ) (t : Traced ε α) : Except φ α :=
  (t.effects.foldlM step s).map fun _ => t.value

/-- The run comes to this effect. -/
def Reaches (step : σ → ε → Except φ σ) (s : σ) (effects : List ε) (effect : ε) (s' : σ) : Prop :=
  ∃ before after, effects = before ++ effect :: after ∧ before.foldlM step s = .ok s'

theorem reaches_cons {e effect : ε} {es : List ε} {s' : σ} :
    Reaches step s (e :: es) effect s' ↔ (effect = e ∧ s' = s) ∨
      ∃ s₁, step s e = .ok s₁ ∧ Reaches step s₁ es effect s' := by
  constructor
  · rintro ⟨before, after, heq, hrun⟩
    cases before with
    | nil =>
      cases heq
      exact Or.inl ⟨rfl, (Except.ok.inj hrun).symm⟩
    | cons e' before =>
      cases heq
      rw [List.foldlM_cons] at hrun
      cases hstep : step s e with
      | error m => rw [hstep] at hrun; cases hrun
      | ok s₁ => rw [hstep] at hrun; exact Or.inr ⟨s₁, rfl, before, after, rfl, hrun⟩
  · rintro (⟨rfl, rfl⟩ | ⟨s₁, hstep, before, after, rfl, hrun⟩)
    · exact ⟨[], es, rfl, rfl⟩
    · refine ⟨e :: before, after, rfl, ?_⟩
      rw [List.foldlM_cons, hstep]
      exact hrun

/-- A run raises what the first effect raises that it comes to and that raises. -/
theorem foldlM_eq_error {effects : List ε} {m : φ} : ∀ {s : σ},
    effects.foldlM step s = .error m ↔
      ∃ effect s', Reaches step s effects effect s' ∧ step s' effect = .error m := by
  induction effects with
  | nil =>
    intro s
    refine iff_of_false (fun h => by cases h) ?_
    rintro ⟨effect, s', ⟨before, after, heq, -⟩, -⟩
    exact absurd heq (by simp)
  | cons e es ih =>
    intro s
    rw [List.foldlM_cons]
    simp only [reaches_cons]
    cases hstep : step s e with
    | error m' =>
      constructor
      · intro h
        exact ⟨e, s, Or.inl ⟨rfl, rfl⟩, hstep.trans h⟩
      · rintro ⟨effect, s', ⟨rfl, rfl⟩ | ⟨s₁, h, -⟩, herror⟩
        · exact hstep.symm.trans herror
        · cases h
    | ok s₁ =>
      refine (ih (s := s₁)).trans ?_
      constructor
      · rintro ⟨effect, s', hreach, herror⟩
        exact ⟨effect, s', Or.inr ⟨s₁, rfl, hreach⟩, herror⟩
      · rintro ⟨effect, s', ⟨rfl, rfl⟩ | ⟨s₁', h, hreach⟩, herror⟩
        · rw [hstep] at herror
          cases herror
        · cases h
          exact ⟨effect, s', hreach, herror⟩

theorem run_eq_error {t : Traced ε α} {m : φ} : t.run step s = .error m ↔
    ∃ effect s', Reaches step s t.effects effect s' ∧ step s' effect = .error m := by
  rw [← foldlM_eq_error, run]
  cases t.effects.foldlM step s with
  | error m' =>
    show Except.error m' = Except.error m ↔ Except.error m' = Except.error m
    rw [Except.error.injEq, Except.error.injEq]
  | ok s₁ =>
    refine iff_of_false (fun h => ?_) fun h => ?_
    · cases h
    · cases h

theorem run_eq_ok {t : Traced ε α} {a : α} : t.run step s = .ok a ↔
    (∃ s', t.effects.foldlM step s = .ok s') ∧ t.value = a := by
  rw [run]
  cases t.effects.foldlM step s with
  | error m =>
    refine iff_of_false (fun h => ?_) ?_
    · cases h
    · rintro ⟨⟨s', h⟩, -⟩
      cases h
  | ok s₁ =>
    show Except.ok t.value = Except.ok a ↔ _
    rw [Except.ok.injEq]
    exact ⟨fun h => ⟨⟨s₁, rfl⟩, h⟩, fun h => h.2⟩

/-- A run that returns has performed each effect of each part. -/
theorem step_of_run {effects : List ε} (h : ∃ s', effects.foldlM step s = .ok s') {effect : ε}
    (hmem : effect ∈ effects) : ∃ s₁ s₂, step s₁ effect = .ok s₂ := by
  obtain ⟨before, after, rfl⟩ := List.append_of_mem hmem
  obtain ⟨s', h⟩ := h
  rw [List.foldlM_append] at h
  cases hbefore : before.foldlM step s with
  | error m => rw [hbefore] at h; cases h
  | ok s₁ =>
    rw [hbefore] at h
    have hstep : (effect :: after).foldlM step s₁ = .ok s' := h
    rw [List.foldlM_cons] at hstep
    cases heffect : step s₁ effect with
    | error m => rw [heffect] at hstep; cases hstep
    | ok s₂ => exact ⟨s₁, s₂, heffect⟩

end Traced

end OsScanner.Lib

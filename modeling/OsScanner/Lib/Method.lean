import Mathlib

/-!
# Methods over a mutable state

A Python method reads and writes the fields of its object and either returns or raises.
The writes made before a `raise` stay, unless the caller rolls them back; so a method is a
function from the state to a result *and* a state, and a transaction is the combinator that
puts the old state back when its body raises.

Nothing in this file is about one program. The lemmas that the verification uses are the
inversions: what a composed method did is what its parts did, one after the other.
-/

namespace OsScanner.Lib

universe u v w

/-! ## Checks

A check of a value is an `Except`: it returns what it read, or raises.
-/

namespace Check

variable {ε : Type v} {α β : Type}

/-- `if bad: raise e` -/
def raiseIf (bad : Prop) [Decidable bad] (e : ε) : Except ε Unit := if bad then .error e else .ok ()

theorem raiseIf_eq_ok {bad : Prop} [Decidable bad] {e : ε} {u : Unit} :
    raiseIf bad e = .ok u ↔ ¬ bad := by
  by_cases h : bad <;> simp [raiseIf, h]

theorem raiseIf_eq_error {bad : Prop} [Decidable bad] {e e' : ε} :
    raiseIf bad e = .error e' ↔ bad ∧ e = e' := by
  by_cases h : bad <;> simp [raiseIf, h]

/-- Two checks in a row pass exactly when both pass. -/
theorem bind_eq_ok {x : Except ε α} {f : α → Except ε β} {b : β} :
    (x >>= f) = .ok b ↔ ∃ a, x = .ok a ∧ f a = .ok b := by
  cases x with
  | error e => exact ⟨fun h => (nomatch h), fun ⟨_, h, _⟩ => (nomatch h)⟩
  | ok a => exact ⟨fun h => ⟨a, rfl, h⟩, fun ⟨a', h, hf⟩ => by cases h; exact hf⟩

theorem bind_unit_eq_ok {x : Except ε Unit} {f : Unit → Except ε β} {b : β} :
    (x >>= f) = .ok b ↔ x = .ok () ∧ f () = .ok b := by
  rw [bind_eq_ok]
  exact ⟨fun ⟨_, h, hf⟩ => ⟨h, hf⟩, fun ⟨h, hf⟩ => ⟨(), h, hf⟩⟩

/-- The check raises an error of this kind. -/
def Raises (kind : ε → Prop) (x : Except ε α) : Prop := ∃ e, x = .error e ∧ kind e

variable {kind : ε → Prop}

@[simp] theorem not_raises_ok {a : α} : ¬ Raises kind (.ok a : Except ε α) :=
  fun ⟨_, h, _⟩ => nomatch h

@[simp] theorem raises_error {e : ε} : Raises kind (.error e : Except ε α) ↔ kind e :=
  ⟨fun ⟨_, h, hkind⟩ => by cases h; exact hkind, fun hkind => ⟨e, rfl, hkind⟩⟩

theorem raises_raiseIf {bad : Prop} [Decidable bad] {e : ε} :
    Raises kind (raiseIf bad e) ↔ bad ∧ kind e := by
  by_cases h : bad <;> simp [raiseIf, h]

/-- Of checks in a row the first that does not pass raises. -/
theorem raises_bind {x : Except ε α} {f : α → Except ε β} :
    Raises kind (x >>= f) ↔ Raises kind x ∨ ∃ a, x = .ok a ∧ Raises kind (f a) := by
  cases x with
  | error e =>
    show Raises kind (.error e : Except ε β) ↔ _
    simp
  | ok a =>
    show Raises kind (f a) ↔ _
    simp

theorem raises_map {x : Except ε α} {f : α → β} : Raises kind (x.map f) ↔ Raises kind x := by
  cases x <;> simp [Except.map]

theorem mapError_eq_ok {ε' : Type u} {f : ε → ε'} {x : Except ε α} {a : α} :
    x.mapError f = .ok a ↔ x = .ok a := by
  cases x <;> simp [Except.mapError]

theorem elim_eq_ok {x : Option α} {e : ε} {a : α} :
    x.elim (.error e) .ok = (.ok a : Except ε α) ↔ x = some a := by
  cases x <;> simp

/-- A check of a list returns what it reads of each element. -/
theorem mapM_eq_ok {f : α → Except ε β} {xs : List α} {ys : List β} :
    xs.mapM f = .ok ys ↔ List.Forall₂ (fun x y => f x = .ok y) xs ys := by
  induction xs generalizing ys with
  | nil =>
    rw [List.mapM_nil, List.forall₂_nil_left_iff]
    exact ⟨fun h => (Except.ok.inj h).symm, fun h => congrArg _ h.symm⟩
  | cons x xs ih =>
    rw [List.mapM_cons, bind_eq_ok, List.forall₂_cons_left_iff]
    constructor
    · rintro ⟨y, hy, h⟩
      obtain ⟨ys', hys, h⟩ := bind_eq_ok.mp h
      cases h
      exact ⟨y, ys', hy, ih.mp hys, rfl⟩
    · rintro ⟨y, ys', hy, hys, rfl⟩
      exact ⟨y, hy, bind_eq_ok.mpr ⟨ys', ih.mpr hys, rfl⟩⟩

theorem exists_of_mem_right {R : α → β → Prop} {xs : List α} {ys : List β}
    (h : List.Forall₂ R xs ys) {y : β} (hy : y ∈ ys) : ∃ x ∈ xs, R x y := by
  induction h with
  | nil => cases hy
  | cons hxy _ ih =>
    obtain rfl | hrest := List.mem_cons.mp hy
    · exact ⟨_, List.mem_cons_self, hxy⟩
    · obtain ⟨x, hx, hR⟩ := ih hrest
      exact ⟨x, List.mem_cons_of_mem _ hx, hR⟩

theorem exists_of_mem_left {R : α → β → Prop} {xs : List α} {ys : List β}
    (h : List.Forall₂ R xs ys) {x : α} (hx : x ∈ xs) : ∃ y ∈ ys, R x y :=
  exists_of_mem_right (R := flip R) h.flip hx

end Check

/-! ## Methods -/

/-- A method over state `σ` that returns an `α` or raises an `ε`. -/
structure Method (σ : Type u) (ε : Type v) (α : Type w) where
  run : σ → Except ε α × σ

namespace Method

variable {σ : Type u} {ε : Type v} {α β : Type w}

/-! ## The operations -/

/-- Raise an exception. Earlier writes stay. -/
def raise (e : ε) : Method σ ε α := ⟨fun s => (.error e, s)⟩

/-- Apply a function to the state and return what it says. -/
def modifyGet (f : σ → α × σ) : Method σ ε α := ⟨fun s => (.ok (f s).1, (f s).2)⟩

/-- Write the state. -/
def modify (f : σ → σ) : Method σ ε Unit := ⟨fun s => (.ok (), f s)⟩

/-- The body of a pure check: it may raise but never writes. -/
def ofExcept (x : Except ε α) : Method σ ε α := ⟨fun s => (x, s)⟩

/-- A check that reads the state. -/
def reading (f : σ → Except ε α) : Method σ ε α := ⟨fun s => (f s, s)⟩

/-- `with transaction():` — the state is put back when the body raises. -/
def transaction (m : Method σ ε α) : Method σ ε α :=
  ⟨fun s => match m.run s with
    | (.ok a, s') => (.ok a, s')
    | (.error e, _) => (.error e, s)⟩

/--
`with transaction():` around a body written as one function: it returns a result and the new
state, or it raises and nothing is written.
-/
def atomically (f : σ → Except ε (α × σ)) : Method σ ε α :=
  ⟨fun s => match f s with
    | .ok (a, s') => (.ok a, s')
    | .error e => (.error e, s)⟩

/-- `try: m except as e: handler(e)`. The handler starts from the state that `m` left. -/
def rescue (m : Method σ ε α) (handler : ε → Method σ ε α) : Method σ ε α :=
  ⟨fun s => match m.run s with
    | (.ok a, s') => (.ok a, s')
    | (.error e, s') => (handler e).run s'⟩

/-- Sequencing: the second method starts from the state that the first one left. -/
protected def bind (m : Method σ ε α) (f : α → Method σ ε β) : Method σ ε β :=
  ⟨fun s => match m.run s with
    | (.ok a, s') => (f a).run s'
    | (.error e, s') => (.error e, s')⟩

instance : Monad (Method σ ε) where
  pure a := ⟨fun s => (.ok a, s)⟩
  bind := Method.bind

@[ext] theorem ext {m n : Method σ ε α} (h : ∀ s, m.run s = n.run s) : m = n := by
  cases m; cases n
  exact congrArg Method.mk (funext h)

/-! ## Running the operations -/

@[simp] theorem run_pure (a : α) (s : σ) : (pure a : Method σ ε α).run s = (.ok a, s) := rfl

@[simp] theorem run_raise (e : ε) (s : σ) : (raise e : Method σ ε α).run s = (.error e, s) := rfl

@[simp] theorem run_modifyGet (f : σ → α × σ) (s : σ) :
    (modifyGet f : Method σ ε α).run s = (.ok (f s).1, (f s).2) := rfl

@[simp] theorem run_modify (f : σ → σ) (s : σ) :
    (modify f : Method σ ε Unit).run s = (.ok (), f s) := rfl

@[simp] theorem run_ofExcept (x : Except ε α) (s : σ) :
    (ofExcept x : Method σ ε α).run s = (x, s) := rfl

@[simp] theorem run_reading (f : σ → Except ε α) (s : σ) :
    (reading f : Method σ ε α).run s = (f s, s) := rfl

theorem run_bind (m : Method σ ε α) (f : α → Method σ ε β) (s : σ) :
    (m >>= f).run s = match m.run s with
      | (.ok a, s') => (f a).run s'
      | (.error e, s') => (.error e, s') := rfl

theorem run_bind_ok {m : Method σ ε α} {s s' : σ} {a : α} (f : α → Method σ ε β)
    (h : m.run s = (.ok a, s')) : (m >>= f).run s = (f a).run s' := by
  rw [run_bind, h]

theorem run_bind_error {m : Method σ ε α} {s s' : σ} {e : ε} (f : α → Method σ ε β)
    (h : m.run s = (.error e, s')) : (m >>= f).run s = (.error e, s') := by
  rw [run_bind, h]

@[simp] theorem run_reading_bind (f : σ → Except ε α) (g : α → Method σ ε β) (s : σ) :
    (reading f >>= g).run s = match f s with
      | .ok a => (g a).run s
      | .error e => (.error e, s) := by
  rw [run_bind, run_reading]
  cases f s <;> rfl

@[simp] theorem run_ofExcept_bind (x : Except ε α) (g : α → Method σ ε β) (s : σ) :
    (ofExcept x >>= g).run s = match x with
      | .ok a => (g a).run s
      | .error e => (.error e, s) := by
  rw [run_bind, run_ofExcept]
  cases x <;> rfl

@[simp] theorem run_modify_bind {γ : Type} (f : σ → σ) (g : Unit → Method σ ε γ) (s : σ) :
    (modify f >>= g).run s = (g ()).run (f s) := rfl

/-! The result alone, when the state that is left does not matter. -/

theorem result_ofExcept_bind (x : Except ε α) (g : α → Method σ ε β) (s : σ) :
    ((ofExcept x >>= g).run s).1 = x >>= fun a => ((g a).run s).1 := by
  rw [run_ofExcept_bind]
  cases x <;> rfl

theorem result_reading_bind (f : σ → Except ε α) (g : α → Method σ ε β) (s : σ) :
    ((reading f >>= g).run s).1 = f s >>= fun a => ((g a).run s).1 := by
  rw [run_reading_bind]
  cases f s <;> rfl

theorem run_rescue_ok {m : Method σ ε α} {s s' : σ} {a : α} (handler : ε → Method σ ε α)
    (h : m.run s = (.ok a, s')) : (m.rescue handler).run s = (.ok a, s') := by
  simp only [rescue, h]

theorem run_rescue_error {m : Method σ ε α} {s s' : σ} {e : ε} (handler : ε → Method σ ε α)
    (h : m.run s = (.error e, s')) : (m.rescue handler).run s = (handler e).run s' := by
  simp only [rescue, h]

theorem run_map (f : α → β) (m : Method σ ε α) (s : σ) :
    (f <$> m).run s = match m.run s with
      | (.ok a, s') => (.ok (f a), s')
      | (.error e, s') => (.error e, s') := rfl

theorem map_id' (m : Method σ ε α) : id <$> m = m := by
  refine Method.ext fun s => ?_
  rw [run_map]
  rcases m.run s with ⟨_ | _, _⟩ <;> rfl

theorem bind_assoc' {γ : Type w} (m : Method σ ε α) (f : α → Method σ ε β)
    (g : β → Method σ ε γ) : m >>= f >>= g = m >>= fun a => f a >>= g := by
  refine Method.ext fun s => ?_
  simp only [run_bind]
  rcases m.run s with ⟨_ | _, _⟩ <;> rfl

instance : LawfulMonad (Method σ ε) :=
  LawfulMonad.mk' (Method σ ε) map_id' (fun _ _ => rfl) bind_assoc'

/-! ## Inversion -/

/-- A sequence returns exactly when both parts return. -/
theorem bind_eq_ok {m : Method σ ε α} {f : α → Method σ ε β} {s s'' : σ} {b : β} :
    (m >>= f).run s = (.ok b, s'') ↔
      ∃ a s', m.run s = (.ok a, s') ∧ (f a).run s' = (.ok b, s'') := by
  rw [run_bind]
  constructor
  · intro h
    rcases hm : m.run s with ⟨_ | a, s'⟩
    · rw [hm] at h; cases h
    · rw [hm] at h; exact ⟨a, s', rfl, h⟩
  · rintro ⟨a, s', hm, hf⟩
    rw [hm]; exact hf

/-- A sequence raises when its first part raises, or its second part after the first. -/
theorem bind_eq_error {m : Method σ ε α} {f : α → Method σ ε β} {s s'' : σ} {e : ε} :
    (m >>= f).run s = (.error e, s'') ↔
      m.run s = (.error e, s'') ∨
        ∃ a s', m.run s = (.ok a, s') ∧ (f a).run s' = (.error e, s'') := by
  rw [run_bind]
  rcases hm : m.run s with ⟨_ | a, s'⟩
  · simp
  · simp

/-- A rescued method raises only what its handler raises. -/
theorem rescue_eq_error {m : Method σ ε α} {handler : ε → Method σ ε α} {s s'' : σ} {e : ε} :
    (m.rescue handler).run s = (.error e, s'') ↔
      ∃ e' s', m.run s = (.error e', s') ∧ (handler e').run s' = (.error e, s'') := by
  simp only [rescue]
  rcases m.run s with ⟨_ | _, _⟩ <;> simp

/-- What a transaction returns, its body returned. -/
theorem transaction_eq_ok {m : Method σ ε α} {s s' : σ} {a : α} :
    (transaction m).run s = (.ok a, s') ↔ m.run s = (.ok a, s') := by
  simp only [transaction]
  rcases m.run s with ⟨_ | _, _⟩ <;> simp

theorem atomically_eq_ok {f : σ → Except ε (α × σ)} {s s' : σ} {a : α} :
    (atomically f).run s = (.ok a, s') ↔ f s = .ok (a, s') := by
  simp only [atomically]
  rcases f s with _ | ⟨_, _⟩ <;> simp

theorem atomically_eq_error {f : σ → Except ε (α × σ)} {s s' : σ} {e : ε} :
    (atomically f).run s = (.error e, s') ↔ f s = .error e ∧ s' = s := by
  simp only [atomically]
  rcases f s with _ | ⟨_, _⟩ <;> simp [eq_comm]

/-- A body that returns moved the state, one that raised left it. -/
theorem atomically_cases (f : σ → Except ε (α × σ)) (s : σ) :
    (∃ a s', f s = .ok (a, s') ∧ (atomically f).run s = (.ok a, s')) ∨
      ∃ e, f s = .error e ∧ (atomically f).run s = (.error e, s) := by
  cases h : f s with
  | ok r => exact Or.inl ⟨r.1, r.2, rfl, atomically_eq_ok.mpr h⟩
  | error e => exact Or.inr ⟨e, rfl, atomically_eq_error.mpr ⟨h, rfl⟩⟩

/-- A transaction that raises leaves the state as it was. -/
theorem transaction_error_state {m : Method σ ε α} {s s' : σ} {e : ε}
    (h : (transaction m).run s = (.error e, s')) : s' = s := by
  simp only [transaction] at h
  rcases hm : m.run s with ⟨_ | _, _⟩ <;> rw [hm] at h <;> simp_all

end Method

end OsScanner.Lib

import Mathlib
import OsScanner.Lib.Part

/-!
# Methods that may be interrupted

A method ends early when it raises, or when its process dies. Of what it has written the committed
transactions stay in either case; but only an exception reaches a handler.

What such a method leaves behind is said by an assertion before it and two after it: one for when it
returns, and one for when it ends early, wherever that is.
-/

namespace OsScanner.Lib

universe u v w

/-- How a call that does not return ends. -/
inductive Interrupt (ε : Type v) where
  | raised (e : ε)
  | died

namespace Method

variable {σ : Type u} {ε ε' : Type v} {α β : Type w}

/-! ## Operations -/

/-- The method with its exceptions as those of its caller. -/
def lifted (f : ε → ε') (m : Method σ ε α) : Method σ ε' α :=
  ⟨fun s => match m.run s with
    | (.ok a, s') => (.ok a, s')
    | (.error e, s') => (.error (f e), s')⟩

/-- `try: m except Exception as e: handler(e)` — nothing runs in a process that is dead. -/
def catching (m : Method σ (Interrupt ε) α) (handler : ε → Method σ (Interrupt ε) α) :
    Method σ (Interrupt ε) α :=
  m.rescue fun
    | .raised e => handler e
    | .died => .raise .died

/-- What may happen at a point of a method. -/
inductive Outcome (ε : Type v) where
  | passes
  | raises (e : ε)
  | dies

/-- The method goes on, raises or dies here. -/
def reaching : Outcome ε → Method σ (Interrupt ε) Unit
  | .passes => pure ()
  | .raises e => .raise (.raised e)
  | .dies => .raise .died

/-! ## Assertions -/

/-- From `P` the method returns into `Q` or ends early in `R`. -/
def Ensures (P : σ → Prop) (m : Method σ ε α) (Q : α → σ → Prop) (R : ε → σ → Prop) : Prop :=
  ∀ s, P s → (∀ a s', m.run s = (.ok a, s') → Q a s') ∧
    ∀ e s', m.run s = (.error e, s') → R e s'

variable {P : σ → Prop} {Q : α → σ → Prop} {R : ε → σ → Prop} {m : Method σ ε α}

theorem Ensures.returns (h : Ensures P m Q R) {s s' : σ} {a : α} (hs : P s)
    (hrun : m.run s = (.ok a, s')) : Q a s' := (h s hs).1 a s' hrun

theorem Ensures.raises (h : Ensures P m Q R) {s s' : σ} {e : ε} (hs : P s)
    (hrun : m.run s = (.error e, s')) : R e s' := (h s hs).2 e s' hrun

/-- A weaker assertion after, a stronger one before. -/
theorem Ensures.weaken {P' : σ → Prop} {Q' : α → σ → Prop} {R' : ε → σ → Prop}
    (h : Ensures P m Q R) (hP : ∀ s, P' s → P s) (hQ : ∀ a s, Q a s → Q' a s)
    (hR : ∀ e s, R e s → R' e s) : Ensures P' m Q' R' := fun s hs =>
  ⟨fun a s' hrun => hQ a s' (h.returns (hP s hs) hrun),
    fun e s' hrun => hR e s' (h.raises (hP s hs) hrun)⟩

/-- Inside a transaction it does not matter what an interruption leaves. -/
theorem Ensures.inside (h : Ensures P m Q R) : Ensures P m Q fun _ _ => True :=
  h.weaken (fun _ hs => hs) (fun _ _ hs => hs) fun _ _ _ => trivial

theorem Keeps.ensures (h : Keeps P m) : Ensures P m (fun _ => P) fun _ => P := fun _ hs =>
  ⟨fun _ _ hrun => h.apply hs hrun, fun _ _ hrun => h.apply hs hrun⟩

theorem Ensures.keeps (h : Ensures P m (fun _ => P) fun _ => P) : Keeps P m := by
  intro s hs
  rcases hrun : m.run s with ⟨e | a, s'⟩
  · exact h.raises hs hrun
  · exact h.returns hs hrun

/-- A fact about the states before is there after, when the method keeps it. -/
theorem Ensures.frame {F : σ → Prop} (h : Ensures P m Q R) (hF : Keeps F m) :
    Ensures (fun s => P s ∧ F s) m (fun a s => Q a s ∧ F s) (fun e s => R e s ∧ F s) :=
  fun _ hs => ⟨fun _ _ hrun => ⟨h.returns hs.1 hrun, hF.apply hs.2 hrun⟩,
    fun _ _ hrun => ⟨h.raises hs.1 hrun, hF.apply hs.2 hrun⟩⟩

theorem ensures_pure {a : α} (h : ∀ s, P s → Q a s) :
    Ensures P (pure a : Method σ ε α) Q R := fun s hs => by
  refine ⟨fun a' s' hrun => ?_, fun e s' hrun => ?_⟩
  · cases hrun
    exact h s hs
  · cases hrun

theorem ensures_raise {e : ε} (h : ∀ s, P s → R e s) :
    Ensures P (raise e : Method σ ε α) Q R := fun s hs => by
  refine ⟨fun a s' hrun => ?_, fun e' s' hrun => ?_⟩
  · cases hrun
  · cases hrun
    exact h s hs

theorem ensures_reading {f : σ → Except ε α} (hQ : ∀ s a, P s → f s = .ok a → Q a s)
    (hR : ∀ s e, P s → f s = .error e → R e s) : Ensures P (reading f) Q R := fun s hs => by
  refine ⟨fun a s' hrun => ?_, fun e s' hrun => ?_⟩
  · rw [run_reading, Prod.mk.injEq] at hrun
    exact hrun.2 ▸ hQ s a hs hrun.1
  · rw [run_reading, Prod.mk.injEq] at hrun
    exact hrun.2 ▸ hR s e hs hrun.1

theorem ensures_ofExcept {x : Except ε α} (hQ : ∀ s a, P s → x = .ok a → Q a s)
    (hR : ∀ s e, P s → x = .error e → R e s) : Ensures P (ofExcept x) Q R :=
  ensures_reading (f := fun _ => x) hQ hR

/-- Behind a check it has passed. -/
theorem ensures_check {x : Except ε α} (hR : ∀ e s, P s → R e s) :
    Ensures P (ofExcept x) (fun a s => P s ∧ x = .ok a) R :=
  ensures_ofExcept (fun _ _ h hx => ⟨h, hx⟩) fun s e h _ => hR e s h

theorem ensures_atomically {f : σ → Except ε (α × σ)}
    (hQ : ∀ s a s', P s → f s = .ok (a, s') → Q a s') (hR : ∀ s e, P s → f s = .error e → R e s) :
    Ensures P (atomically f) Q R := by
  refine fun s hs => ⟨fun a s' hrun => hQ s a s' hs (atomically_eq_ok.mp hrun), fun e s' hrun => ?_⟩
  obtain ⟨hf, hsame⟩ := atomically_eq_error.mp hrun
  rw [hsame]
  exact hR s e hs hf

/-- The second method starts where the first one returns. -/
theorem Ensures.bind {S : α → σ → Prop} {Q : β → σ → Prop} {f : α → Method σ ε β}
    (hm : Ensures P m S R) (hf : ∀ a, Ensures (S a) (f a) Q R) : Ensures P (m >>= f) Q R := by
  intro s hs
  refine ⟨fun b s' hrun => ?_, fun e s' hrun => ?_⟩
  · obtain ⟨a, s₁, hfirst, hsecond⟩ := bind_eq_ok.mp hrun
    exact (hf a).returns (hm.returns hs hfirst) hsecond
  · rcases bind_eq_error.mp hrun with hfirst | ⟨a, s₁, hfirst, hsecond⟩
    · exact hm.raises hs hfirst
    · exact (hf a).raises (hm.returns hs hfirst) hsecond

theorem Ensures.map {f : α → β} {Q : β → σ → Prop} (hm : Ensures P m (fun a => Q (f a)) R) :
    Ensures P (f <$> m) Q R := by
  intro s hs
  rw [run_map]
  rcases hrun : m.run s with ⟨e | a, s₁⟩
  · refine ⟨fun b s' h => ?_, fun e' s' h => ?_⟩
    · cases h
    · cases h
      exact hm.raises hs hrun
  · refine ⟨fun b s' h => ?_, fun e' s' h => ?_⟩
    · cases h
      exact hm.returns hs hrun
    · cases h

/-- A method of a part, whose rest stays as it is. -/
theorem ensures_on {τ : Type u} {part : Part σ τ} {m : Method τ ε α}
    (h : ∀ s, P s → Ensures (fun t => t = part.get s) m (fun a t => Q a (part.set s t))
      fun e t => R e (part.set s t)) : Ensures P (on part m) Q R := by
  refine fun s hs => ⟨fun a s' hrun => ?_, fun e s' hrun => ?_⟩
  · obtain ⟨t, ht, rfl⟩ := on_eq.mp hrun
    exact (h s hs).returns rfl ht
  · obtain ⟨t, ht, rfl⟩ := on_eq.mp hrun
    exact (h s hs).raises rfl ht

/-- A handler starts where the method was interrupted. -/
theorem Ensures.rescue {S : ε → σ → Prop} {handler : ε → Method σ ε α} (hm : Ensures P m Q S)
    (hhandler : ∀ e, Ensures (S e) (handler e) Q R) : Ensures P (m.rescue handler) Q R := by
  intro s hs
  rcases hrun : m.run s with ⟨e | a, s₁⟩
  · refine ⟨fun b s' h => ?_, fun e' s' h => ?_⟩
    · rw [run_rescue_error handler hrun] at h
      exact (hhandler e).returns (hm.raises hs hrun) h
    · rw [run_rescue_error handler hrun] at h
      exact (hhandler e).raises (hm.raises hs hrun) h
  · refine ⟨fun b s' h => ?_, fun e' s' h => ?_⟩
    · rw [run_rescue_ok handler hrun] at h
      cases h
      exact hm.returns hs hrun
    · rw [run_rescue_ok handler hrun] at h
      cases h

/-- Whatever the body has done, a transaction that ends early is where it began. -/
theorem Ensures.transaction {S : ε → σ → Prop} (hm : Ensures P m Q S)
    (hR : ∀ e s, P s → R e s) : Ensures P (Method.transaction m) Q R := by
  intro s hs
  refine ⟨fun a s' hrun => hm.returns hs (transaction_eq_ok.mp hrun), fun e s' hrun => ?_⟩
  rw [transaction_error_state hrun]
  exact hR e s hs

theorem Ensures.lifted {f : ε → ε'} {R : ε' → σ → Prop} (hm : Ensures P m Q fun e => R (f e)) :
    Ensures P (m.lifted f) Q R := by
  intro s hs
  simp only [Method.lifted]
  rcases hrun : m.run s with ⟨e | a, s₁⟩
  · refine ⟨fun b s' h => ?_, fun e' s' h => ?_⟩
    · cases h
    · cases h
      exact hm.raises hs hrun
  · refine ⟨fun b s' h => ?_, fun e' s' h => ?_⟩
    · cases h
      exact hm.returns hs hrun
    · cases h

theorem Keeps.lifted {f : ε → ε'} (h : Keeps P m) : Keeps P (m.lifted f) :=
  Ensures.keeps (Ensures.lifted h.ensures)

/-- Only exceptions are handled. -/
theorem Ensures.catching {S R : Interrupt ε → σ → Prop} {m : Method σ (Interrupt ε) α}
    {handler : ε → Method σ (Interrupt ε) α} (hm : Ensures P m Q S)
    (hhandler : ∀ e, Ensures (S (.raised e)) (handler e) Q R) (hdied : ∀ s, S .died s → R .died s) :
    Ensures P (m.catching handler) Q R := by
  refine Ensures.rescue hm fun i => ?_
  cases i with
  | raised e => exact hhandler e
  | died => exact ensures_raise hdied

theorem Keeps.catching {m : Method σ (Interrupt ε) α} {handler : ε → Method σ (Interrupt ε) α}
    (hm : Keeps P m) (hhandler : ∀ e, Keeps P (handler e)) : Keeps P (m.catching handler) :=
  Ensures.keeps (Ensures.catching hm.ensures (fun e => (hhandler e).ensures) fun _ h => h)

theorem ensures_reaching {outcome : Outcome ε} {R : Interrupt ε → σ → Prop}
    (hraises : ∀ e s, P s → outcome = .raises e → R (.raised e) s) (hdies : ∀ s, P s → R .died s) :
    Ensures P (reaching outcome : Method σ (Interrupt ε) Unit) (fun _ => P) R := by
  cases outcome with
  | passes => exact ensures_pure fun _ h => h
  | raises e => exact ensures_raise fun s h => hraises e s h rfl
  | dies => exact ensures_raise hdies

theorem keeps_reaching (outcome : Outcome ε) :
    Keeps P (reaching outcome : Method σ (Interrupt ε) Unit) :=
  Ensures.keeps (ensures_reaching (fun _ _ h _ => h) fun _ h => h)

end Method

end OsScanner.Lib

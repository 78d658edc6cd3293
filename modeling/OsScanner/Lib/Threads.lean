import Mathlib

/-!
# Threads over shared operations

A program is what a thread has still to do: it is done with a value, or it calls an operation and
goes on with the answer. The operations are atomic; what they answer and what they make of the
shared state is a relation. Threads take their calls in any order.

The rule of the library is one of rely and guarantee: when every thread calls allowed operations
only, and an allowed operation keeps the invariant and answers legally, then each thread ends with
a value that it ensures under legal answers, however the calls are interleaved.
-/

namespace OsScanner.Lib

/-! ## Programs -/

inductive Program (Op : Type) (Answer : Op → Type) (α : Type) where
  | done (value : α)
  | call (op : Op) (next : Answer op → Program Op Answer α)

namespace Program

variable {Op : Type} {Answer : Op → Type} {α β : Type}

def bind : Program Op Answer α → (α → Program Op Answer β) → Program Op Answer β
  | .done value, f => f value
  | .call op next, f => .call op fun answer => (next answer).bind f

instance : Monad (Program Op Answer) where
  pure := .done
  bind := .bind

/-- One call of an operation. -/
def request (op : Op) : Program Op Answer (Answer op) := .call op .done

theorem pure_eq (a : α) : (pure a : Program Op Answer α) = .done a := rfl

theorem done_bind (a : α) (f : α → Program Op Answer β) : (Program.done a >>= f) = f a := rfl

theorem call_bind (op : Op) (next : Answer op → Program Op Answer α) (f : α → Program Op Answer β) :
    (Program.call op next >>= f) = .call op fun answer => next answer >>= f := rfl

theorem bind_done (p : Program Op Answer α) : (p >>= .done) = p := by
  induction p with
  | done value => rfl
  | call op next ih => exact congrArg (Program.call op) (funext ih)

theorem bind_assoc {γ : Type} (p : Program Op Answer α) (f : α → Program Op Answer β)
    (g : β → Program Op Answer γ) : (p >>= f >>= g) = p >>= fun a => f a >>= g := by
  induction p with
  | done value => rfl
  | call op next ih => exact congrArg (Program.call op) (funext ih)

instance : LawfulMonad (Program Op Answer) :=
  LawfulMonad.mk' _ bind_done (fun _ _ => rfl) bind_assoc

theorem request_bind (op : Op) (f : Answer op → Program Op Answer β) :
    (request op >>= f) = .call op f := rfl

/-! ### What a program ensures -/

section

variable (legal : ∀ op, Answer op → Prop) (allowed : Op → Prop)

/-- The program calls allowed operations only, and under legal answers its value satisfies `post`. -/
def Ensures (post : α → Prop) : Program Op Answer α → Prop
  | .done value => post value
  | .call op next => allowed op ∧ ∀ answer, legal op answer → Ensures post (next answer)

variable {legal allowed} {post mid : α → Prop} {after : β → Prop}

theorem Ensures.mono {p : Program Op Answer α} (h : p.Ensures legal allowed mid)
    (hpost : ∀ a, mid a → post a) : p.Ensures legal allowed post := by
  induction p with
  | done value => exact hpost value h
  | call op next ih => exact ⟨h.1, fun answer hanswer => ih answer (h.2 answer hanswer)⟩

theorem Ensures.bind {p : Program Op Answer α} {f : α → Program Op Answer β}
    (h : p.Ensures legal allowed mid) (hf : ∀ a, mid a → (f a).Ensures legal allowed after) :
    (p >>= f).Ensures legal allowed after := by
  induction p with
  | done value => exact hf value h
  | call op next ih => exact ⟨h.1, fun answer hanswer => ih answer (h.2 answer hanswer)⟩

theorem ensures_request {op : Op} {f : Answer op → Program Op Answer β} (hop : allowed op)
    (hf : ∀ answer, legal op answer → (f answer).Ensures legal allowed after) :
    (request op >>= f).Ensures legal allowed after := ⟨hop, hf⟩

/-- A program for each element of a list ends with a value for each of them. -/
theorem ensures_mapM {γ : Type} {f : γ → Program Op Answer α} {post : γ → α → Prop} {l : List γ}
    (h : ∀ x ∈ l, (f x).Ensures legal allowed (post x)) :
    (l.mapM f).Ensures legal allowed fun values => List.Forall₂ post l values := by
  induction l with
  | nil => exact List.Forall₂.nil
  | cons x l ih =>
    rw [List.forall_mem_cons] at h
    rw [List.mapM_cons]
    refine h.1.bind fun a ha => (ih h.2).bind fun values hvalues => ?_
    exact List.Forall₂.cons ha hvalues

end

end Program

/-! ## Threads -/

section

variable {Op : Type} {Answer : Op → Type} {α σ : Type}

/-- The threads call their operations in some order, from one state to another, and end with values. -/
inductive Interleaved (step : ∀ op, σ → Answer op → σ → Prop) :
    List (Program Op Answer α) → σ → List α → σ → Prop
  | finished (values : List α) (s : σ) : Interleaved step (values.map .done) s values s
  | turn {before after : List (Program Op Answer α)} {op : Op}
    {next : Answer op → Program Op Answer α} {answer : Answer op} {s s' s'' : σ} {values : List α}
    (hstep : step op s answer s')
    (hrest : Interleaved step (before ++ next answer :: after) s' values s'') :
    Interleaved step (before ++ .call op next :: after) s values s''

variable {step : ∀ op, σ → Answer op → σ → Prop}

/-- A thread on its own. -/
theorem Interleaved.call {op : Op} {next : Answer op → Program Op Answer α} {answer : Answer op}
    {s s' s'' : σ} {value : α} (hstep : step op s answer s')
    (hrest : Interleaved step [next answer] s' [value] s'') :
    Interleaved step [.call op next] s [value] s'' := by
  show Interleaved step ([] ++ .call op next :: []) s [value] s''
  exact .turn hstep hrest

theorem Interleaved.done (value : α) (s : σ) :
    Interleaved step [(.done value : Program Op Answer α)] s [value] s := .finished [value] s

/-- A thread on its own goes on where its first part ends. -/
theorem Interleaved.bind {β : Type} {p : Program Op Answer α} {f : α → Program Op Answer β}
    {s s' s'' : σ} {a : α} {b : β} (h : Interleaved step [p] s [a] s')
    (hf : Interleaved step [f a] s' [b] s'') : Interleaved step [p >>= f] s [b] s'' := by
  induction p generalizing s with
  | done value =>
    generalize hpool : [Program.done value] = pool at h
    generalize hvalues : [a] = values at h
    cases h with
    | finished values s =>
      subst hvalues
      cases hpool
      exact hf
    | turn _ _ =>
      rename_i before _ _ _ _ _ _ _
      cases before with
      | nil => cases hpool
      | cons _ _ => simp at hpool
  | call op next ih =>
    generalize hpool : [Program.call op next] = pool at h
    generalize hvalues : [a] = values at h
    cases h with
    | finished values s =>
      subst hvalues
      cases hpool
    | turn hstep hrest =>
      rename_i before _ _ _ _ _
      cases before with
      | nil =>
        cases hpool
        subst hvalues
        exact .call hstep (ih _ hrest)
      | cons _ _ => simp at hpool

theorem Interleaved.length_values {pool : List (Program Op Answer α)} {s s' : σ} {values : List α}
    (h : Interleaved step pool s values s') : values.length = pool.length := by
  induction h with
  | finished values s => rw [List.length_map]
  | turn _ _ ih => simpa only [List.length_append, List.length_cons] using ih

/-- However the calls are interleaved, each thread ends with what it ensures. -/
theorem Interleaved.ensures {invariant : σ → Prop} {legal : ∀ op, Answer op → Prop}
    {allowed : Op → Prop}
    (hkeeps : ∀ op s answer s', invariant s → allowed op → step op s answer s' →
      invariant s' ∧ legal op answer)
    {pool : List (Program Op Answer α)} {s s' : σ} {values : List α}
    (h : Interleaved step pool s values s') (hs : invariant s) {posts : List (α → Prop)}
    (hpool : List.Forall₂ (fun p post => p.Ensures legal allowed post) pool posts) :
    List.Forall₂ (fun value post => post value) values posts ∧ invariant s' := by
  induction h generalizing posts with
  | finished values s =>
    rw [List.forall₂_map_left_iff] at hpool
    exact ⟨hpool, hs⟩
  | @turn before after op next answer s s' s'' values hstep _ ih =>
    have hbefore := (List.forall₂_take_append posts before _ hpool.flip).flip
    have hrest := (List.forall₂_drop_append posts before _ hpool.flip).flip
    rw [← List.take_append_drop before.length posts]
    generalize posts.drop before.length = rest at hrest ⊢
    cases hrest with
    | cons hcall hafter =>
      obtain ⟨hs', hlegal⟩ := hkeeps op s answer s' hs hcall.1 hstep
      exact ih hs' (List.rel_append hbefore (.cons (hcall.2 answer hlegal) hafter))

/-- What every step keeps, threads keep, however their calls are interleaved. -/
theorem Interleaved.keeps {invariant : σ → Prop}
    (hstep : ∀ op s answer s', invariant s → step op s answer s' → invariant s')
    {pool : List (Program Op Answer α)} {s s' : σ} {values : List α}
    (h : Interleaved step pool s values s') (hs : invariant s) : invariant s' := by
  induction h with
  | finished values s => exact hs
  | turn hturn _ ih => exact ih (hstep _ _ _ _ hs hturn)

/-- Where every operation answers in every state, threads can run to their ends. -/
theorem Interleaved.exists_run (htotal : ∀ op s, ∃ answer s', step op s answer s')
    (pool : List (Program Op Answer α)) (s : σ) : ∃ values s', Interleaved step pool s values s' := by
  have hpool : ∀ (rest : List (Program Op Answer α)) (ended : List α) (s : σ),
      ∃ values s', Interleaved step (ended.map .done ++ rest) s values s' := by
    intro rest
    induction rest with
    | nil =>
      intro ended s
      rw [List.append_nil]
      exact ⟨ended, s, .finished ended s⟩
    | cons p rest ih =>
      intro ended s
      -- the first of the threads runs to its end
      induction p generalizing s with
      | done value =>
        have h := ih (ended ++ [value]) s
        rwa [List.map_append, List.append_assoc] at h
      | call op next ihp =>
        obtain ⟨answer, s', hstep⟩ := htotal op s
        obtain ⟨values, s'', hrest⟩ := ihp answer s'
        exact ⟨values, s'', .turn hstep hrest⟩
  exact hpool pool [] s

end

end OsScanner.Lib

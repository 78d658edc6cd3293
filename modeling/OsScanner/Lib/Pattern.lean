import Mathlib

/-!
# Patterns and substitutions

Regular expressions as backtracking engines read them: a pattern yields its matches in the
order of preference, the first of them counts, and a substitution rewrites the matches of a
text from left to right. A rule keeps what stands before and after the text that it replaces.

The two facts that the verification uses are about lengths: a pattern consumes at least the
characters that it cannot do without, so a substitution lengthens a text by a bounded factor.
-/

namespace OsScanner.Lib

/-! ## Patterns -/

/-- A position in a text: the character before it and the characters after it. -/
structure Cursor where
  prev : Option Char
  rest : List Char
  deriving DecidableEq

inductive Pattern where
  | empty
  /-- One character of a class. -/
  | char (p : Char → Bool)
  | seq (a b : Pattern)
  /-- `a|b`: the first branch is preferred. -/
  | alt (a b : Pattern)
  /-- `[…]*`, or `[…]*?` when it is not greedy. -/
  | many (greedy : Bool) (p : Char → Bool)
  /-- An assertion about the neighbourhood, such as `\b`, `^`, `(?<!…)` or `(?!…)`. -/
  | look (p : Option Char → List Char → Bool)

namespace Pattern

def runMany (greedy : Bool) (p : Char → Bool) : Option Char → List Char → List Cursor
  | prev, [] => [⟨prev, []⟩]
  | prev, c :: rest =>
    if p c then
      if greedy then runMany greedy p (some c) rest ++ [⟨prev, c :: rest⟩]
      else ⟨prev, c :: rest⟩ :: runMany greedy p (some c) rest
    else [⟨prev, c :: rest⟩]

/-- Where the matches at a position end, in the order of preference. -/
def run : Pattern → Cursor → List Cursor
  | .empty, cursor => [cursor]
  | .char p, cursor =>
    match cursor.rest with
    | [] => []
    | c :: rest => if p c then [⟨some c, rest⟩] else []
  | .seq a b, cursor => (a.run cursor).flatMap b.run
  | .alt a b, cursor => a.run cursor ++ b.run cursor
  | .many greedy p, cursor => runMany greedy p cursor.prev cursor.rest
  | .look p, cursor => if p cursor.prev cursor.rest then [cursor] else []

/-! ### The usual notation -/

/-- The patterns one after the other. -/
def seqs : List Pattern → Pattern
  | [] => .empty
  | [p] => p
  | p :: ps => .seq p (seqs ps)

/-- `(?:a|b|…)` -/
def alts : List Pattern → Pattern
  | [] => .look fun _ _ => false
  | [p] => p
  | p :: ps => .alt p (alts ps)

/-- A text, character by character. -/
def literal (p : Char → Char → Bool) (text : String) : Pattern :=
  seqs (text.toList.map fun c => .char (p c))

/-- `p?` -/
def optional (p : Pattern) : Pattern := .alt p .empty

/-- `[…]{n,}` -/
def atLeast (n : Nat) (p : Char → Bool) : Pattern :=
  match n with
  | 0 => .many true p
  | n + 1 => .seq (.char p) (atLeast n p)

/-- `[…]{n}` -/
def exactly (n : Nat) (p : Char → Bool) : Pattern :=
  match n with
  | 0 => .empty
  | n + 1 => .seq (.char p) (exactly n p)

/-- The pattern matches somewhere. -/
def search (pattern : Pattern) : Option Char → List Char → Bool
  | prev, [] => !(pattern.run ⟨prev, []⟩).isEmpty
  | prev, c :: rest => !(pattern.run ⟨prev, c :: rest⟩).isEmpty || pattern.search (some c) rest

/-! ### What a match consumes -/

/-- The characters that a match cannot do without. -/
def minLength : Pattern → Nat
  | .empty | .many .. | .look _ => 0
  | .char _ => 1
  | .seq a b => a.minLength + b.minLength
  | .alt a b => min a.minLength b.minLength

theorem length_runMany {greedy : Bool} {p : Char → Bool} {cursor : Cursor} :
    ∀ {prev : Option Char} {rest : List Char}, cursor ∈ runMany greedy p prev rest →
      cursor.rest.length ≤ rest.length := by
  intro prev rest
  induction rest generalizing prev with
  | nil =>
    intro h
    rw [runMany, List.mem_singleton] at h
    simp [h]
  | cons c rest ih =>
    intro h
    unfold runMany at h
    have hstay : cursor = ⟨prev, c :: rest⟩ → cursor.rest.length ≤ (c :: rest).length := by
      rintro rfl
      exact le_refl _
    split at h
    · split at h
      · rcases List.mem_append.mp h with h | h
        · exact (ih h).trans (Nat.le_succ _)
        · exact hstay (List.mem_singleton.mp h)
      · rcases List.mem_cons.mp h with h | h
        · exact hstay h
        · exact (ih h).trans (Nat.le_succ _)
    · exact hstay (List.mem_singleton.mp h)

theorem length_run {pattern : Pattern} : ∀ {cursor end_ : Cursor}, end_ ∈ pattern.run cursor →
    end_.rest.length + pattern.minLength ≤ cursor.rest.length := by
  induction pattern with
  | empty =>
    intro cursor end_ h
    rw [List.mem_singleton.mp h, minLength, Nat.add_zero]
  | char p =>
    rintro ⟨prev, _ | ⟨c, rest⟩⟩ end_ h
    · cases h
    · simp only [run] at h
      split at h
      · rw [List.mem_singleton.mp h]
        exact le_refl _
      · cases h
  | seq a b iha ihb =>
    intro cursor end_ h
    obtain ⟨middle, hmiddle, hend⟩ := List.mem_flatMap.mp h
    have ha := iha hmiddle
    have hb := ihb hend
    simp only [minLength]
    omega
  | alt a b iha ihb =>
    intro cursor end_ h
    simp only [minLength]
    rcases List.mem_append.mp h with h | h
    · have ha := iha h
      omega
    · have hb := ihb h
      omega
  | many greedy p =>
    intro cursor end_ h
    exact length_runMany h
  | look p =>
    intro cursor end_ h
    simp only [run] at h
    split at h
    · rw [List.mem_singleton.mp h, minLength, Nat.add_zero]
    · cases h

/-! ### Assertions only narrow a match -/

/-- The pattern without its assertions. -/
def widen : Pattern → Pattern
  | .empty => .empty
  | .char p => .char p
  | .seq a b => .seq a.widen b.widen
  | .alt a b => .alt a.widen b.widen
  | .many greedy p => .many greedy p
  | .look _ => .empty

theorem mem_run_widen {pattern : Pattern} : ∀ {cursor end_ : Cursor}, end_ ∈ pattern.run cursor →
    end_ ∈ pattern.widen.run cursor := by
  induction pattern with
  | empty | char | many => exact fun h => h
  | seq a b iha ihb =>
    intro cursor end_ h
    obtain ⟨middle, hmiddle, hend⟩ := List.mem_flatMap.mp h
    exact List.mem_flatMap.mpr ⟨middle, iha hmiddle, ihb hend⟩
  | alt a b iha ihb =>
    intro cursor end_ h
    rcases List.mem_append.mp h with h | h
    · exact List.mem_append_left _ (iha h)
    · exact List.mem_append_right _ (ihb h)
  | look p =>
    intro cursor end_ h
    simp only [run] at h
    split at h
    · exact h
    · cases h

/-! ### Patterns that need a character the text does not have -/

/-- Over these characters alone the pattern has no match. -/
def starved (alphabet : List Char) : Pattern → Bool
  | .empty | .many .. | .look _ => false
  | .char p => alphabet.all fun c => !p c
  | .seq a b => a.starved alphabet || b.starved alphabet
  | .alt a b => a.starved alphabet && b.starved alphabet

theorem suffix_runMany {greedy : Bool} {p : Char → Bool} {cursor : Cursor} {rest : List Char} :
    ∀ {prev : Option Char}, cursor ∈ runMany greedy p prev rest → cursor.rest <:+ rest := by
  induction rest with
  | nil =>
    intro prev h
    rw [runMany, List.mem_singleton] at h
    rw [h]
  | cons c rest ih =>
    intro prev h
    have hstay : cursor = ⟨prev, c :: rest⟩ → cursor.rest <:+ c :: rest := by
      rintro rfl
      exact List.suffix_refl _
    unfold runMany at h
    split at h
    · split at h
      · rcases List.mem_append.mp h with h | h
        · exact (ih h).trans (List.suffix_cons c rest)
        · exact hstay (List.mem_singleton.mp h)
      · rcases List.mem_cons.mp h with h | h
        · exact hstay h
        · exact (ih h).trans (List.suffix_cons c rest)
    · exact hstay (List.mem_singleton.mp h)

/-- A match leaves a tail of the text. -/
theorem suffix_run {pattern : Pattern} : ∀ {cursor stop : Cursor}, stop ∈ pattern.run cursor →
    stop.rest <:+ cursor.rest := by
  induction pattern with
  | empty =>
    intro cursor stop h
    rw [List.mem_singleton.mp h]
  | char p =>
    rintro ⟨prev, _ | ⟨c, rest⟩⟩ stop h
    · cases h
    · simp only [run] at h
      split at h
      · rw [List.mem_singleton.mp h]
        exact List.suffix_cons c rest
      · cases h
  | seq a b iha ihb =>
    intro cursor stop h
    obtain ⟨middle, hmiddle, hstop⟩ := List.mem_flatMap.mp h
    exact (ihb hstop).trans (iha hmiddle)
  | alt a b iha ihb =>
    intro cursor stop h
    rcases List.mem_append.mp h with h | h
    · exact iha h
    · exact ihb h
  | many greedy p => exact suffix_runMany
  | look p =>
    intro cursor stop h
    simp only [run] at h
    split at h
    · rw [List.mem_singleton.mp h]
    · cases h

theorem run_of_starved {alphabet : List Char} {pattern : Pattern} :
    ∀ {cursor : Cursor}, pattern.starved alphabet = true → (∀ c ∈ cursor.rest, c ∈ alphabet) →
      pattern.run cursor = [] := by
  induction pattern with
  | empty | many | look => exact fun h => nomatch h
  | char p =>
    rintro ⟨prev, _ | ⟨c, rest⟩⟩ h hrest
    · rfl
    · rw [starved, List.all_eq_true] at h
      have hc : p c = false := by simpa using h c (hrest c List.mem_cons_self)
      simp only [run, hc, Bool.false_eq_true, if_false]
  | seq a b iha ihb =>
    intro cursor h hrest
    rw [starved, Bool.or_eq_true] at h
    rw [run, List.flatMap_eq_nil_iff]
    intro middle hmiddle
    rcases h with ha | hb
    · rw [iha ha hrest] at hmiddle
      cases hmiddle
    · exact ihb hb fun c hc => hrest c ((suffix_run hmiddle).subset hc)
  | alt a b iha ihb =>
    intro cursor h hrest
    rw [starved, Bool.and_eq_true] at h
    rw [run, iha h.1 hrest, ihb h.2 hrest, List.append_nil]

end Pattern

/-! ## Substitutions -/

/-- What a rule keeps in front of the text that it replaces, that text, and what it keeps after. -/
structure Rule where
  kept : Pattern := .empty
  dropped : Pattern
  after : Pattern := .empty
  replacement : List Char
  dropped_pos : 0 < dropped.minLength := by decide

namespace Rule

variable (rule : Rule)

def minLength : Nat := rule.kept.minLength + rule.dropped.minLength + rule.after.minLength

/-- What a match can become longer by. -/
def growth : Nat := rule.replacement.length - rule.dropped.minLength

/-- The ends of the three parts of every match at a position. -/
def ends (cursor : Cursor) : List (Cursor × Cursor × Cursor) :=
  (rule.kept.run cursor).flatMap fun k =>
    (rule.dropped.run k).flatMap fun d => (rule.after.run d).map fun t => (k, d, t)

/-- The text between two positions. -/
def between (start stop : Cursor) : List Char :=
  start.rest.take (start.rest.length - stop.rest.length)

/-- `pattern.sub(replacement, text)`: the characters of a match are skipped after it. -/
def subFrom : Nat → Option Char → List Char → List Char
  | _, _, [] => []
  | skip + 1, _, c :: rest => subFrom skip (some c) rest
  | 0, prev, c :: rest =>
    match (rule.ends ⟨prev, c :: rest⟩).head? with
    | none => c :: subFrom 0 (some c) rest
    | some (k, d, t) =>
      between ⟨prev, c :: rest⟩ k ++ rule.replacement ++ between d t ++
        subFrom (rest.length - t.rest.length) (some c) rest

def sub (text : List Char) : List Char := rule.subFrom 0 none text

theorem length_ends {cursor k d t : Cursor} (h : (k, d, t) ∈ rule.ends cursor) :
    k.rest.length + rule.kept.minLength ≤ cursor.rest.length ∧
      d.rest.length + rule.dropped.minLength ≤ k.rest.length ∧
      t.rest.length + rule.after.minLength ≤ d.rest.length := by
  simp only [ends, List.mem_flatMap, List.mem_map, Prod.mk.injEq] at h
  obtain ⟨k', hk, d', hd, t', ht, rfl, rfl, rfl⟩ := h
  exact ⟨Pattern.length_run hk, Pattern.length_run hd, Pattern.length_run ht⟩

theorem length_between (start stop : Cursor) :
    (between start stop).length ≤ start.rest.length - stop.rest.length := by
  rw [between, List.length_take]
  exact Nat.min_le_left _ _

/-- A match of at least the minimal length grows by what the replacement is longer. -/
theorem length_subFrom {text : List Char} :
    ∀ {skip : Nat} {prev : Option Char}, skip ≤ text.length →
      (rule.subFrom skip prev text).length * rule.minLength ≤
        (text.length - skip) * (rule.minLength + rule.growth) := by
  induction text with
  | nil =>
    intro skip prev _
    simp [subFrom]
  | cons c rest ih =>
    intro skip prev hskip
    cases skip with
    | succ skip =>
      rw [subFrom, List.length_cons, Nat.add_sub_add_right]
      exact ih (Nat.le_of_succ_le_succ hskip)
    | zero =>
      rw [subFrom]
      split
      · have hrest := @ih 0 (some c) (Nat.zero_le _)
        rw [Nat.sub_zero] at hrest
        rw [List.length_cons, List.length_cons, Nat.add_mul, Nat.sub_zero, Nat.add_mul]
        exact Nat.add_le_add hrest (by omega)
      · rename_i k d t hhead
        obtain ⟨hkept, hdropped, hafter⟩ := rule.length_ends (List.mem_of_head? hhead)
        have hpos := rule.dropped_pos
        simp only [List.length_cons] at hkept
        have hbefore := length_between ⟨prev, c :: rest⟩ k
        have hbehind := length_between d t
        simp only [List.length_cons] at hbefore
        have hrest := @ih (rest.length - t.rest.length) (some c) (Nat.sub_le _ _)
        have htail : rest.length - (rest.length - t.rest.length) = t.rest.length := by omega
        rw [htail] at hrest
        simp only [List.length_append, Nat.sub_zero, List.length_cons]
        -- The match has `n` characters, of which at least the dropped ones are replaced.
        obtain ⟨n, hn⟩ : ∃ n, rest.length + 1 = t.rest.length + n :=
          ⟨rest.length + 1 - t.rest.length, by omega⟩
        have hlong : rule.minLength ≤ n := by
          unfold minLength
          omega
        have hshort : (between ⟨prev, c :: rest⟩ k).length + rule.replacement.length +
            (between d t).length ≤ n + rule.growth := by
          unfold growth
          omega
        have hgrown : ((between ⟨prev, c :: rest⟩ k).length + rule.replacement.length +
            (between d t).length) * rule.minLength ≤
              n * (rule.minLength + rule.growth) := by
          calc _ ≤ (n + rule.growth) * rule.minLength :=
                Nat.mul_le_mul_right _ hshort
            _ = n * rule.minLength + rule.growth * rule.minLength :=
                Nat.add_mul _ _ _
            _ ≤ n * rule.minLength + rule.growth * n :=
                Nat.add_le_add_left (Nat.mul_le_mul_left _ hlong) _
            _ = n * (rule.minLength + rule.growth) := by ring
        rw [hn]
        calc _ = ((between ⟨prev, c :: rest⟩ k).length + rule.replacement.length +
                (between d t).length) * rule.minLength +
              (rule.subFrom (rest.length - t.rest.length) (some c) rest).length *
                rule.minLength := Nat.add_mul _ _ _
          _ ≤ n * (rule.minLength + rule.growth) +
              t.rest.length * (rule.minLength + rule.growth) :=
                Nat.add_le_add hgrown hrest
          _ = (t.rest.length + n) * (rule.minLength + rule.growth) := by ring

/-- A substitution lengthens a text by a factor at most. -/
theorem length_sub (text : List Char) :
    (rule.sub text).length * rule.minLength ≤
      text.length * (rule.minLength + rule.growth) := by
  have h := @length_subFrom rule text 0 none (Nat.zero_le _)
  rwa [Nat.sub_zero] at h

/-- The rule without its assertions. -/
def widen : Rule where
  kept := rule.kept.widen
  dropped := rule.dropped
  after := rule.after.widen
  replacement := rule.replacement
  dropped_pos := rule.dropped_pos

/-- No match begins in the text. -/
def quiet : Option Char → List Char → Bool
  | _, [] => true
  | prev, c :: rest => (rule.ends ⟨prev, c :: rest⟩).isEmpty && quiet (some c) rest

theorem mem_ends_widen {cursor : Cursor} {e : Cursor × Cursor × Cursor}
    (h : e ∈ rule.ends cursor) : e ∈ rule.widen.ends cursor := by
  simp only [ends, List.mem_flatMap, List.mem_map] at h ⊢
  obtain ⟨k, hk, d, hd, t, ht, rfl⟩ := h
  exact ⟨k, Pattern.mem_run_widen hk, d, hd, t, Pattern.mem_run_widen ht, rfl⟩

/-- A text in which not even the wider rule matches is left alone. -/
theorem subFrom_of_quiet {text : List Char} : ∀ {prev : Option Char},
    rule.widen.quiet prev text = true → rule.subFrom 0 prev text = text := by
  induction text with
  | nil => exact fun _ => rfl
  | cons c rest ih =>
    intro prev h
    rw [quiet, Bool.and_eq_true, List.isEmpty_iff] at h
    have hnone : rule.ends ⟨prev, c :: rest⟩ = [] := by
      rw [List.eq_nil_iff_forall_not_mem]
      intro e he
      have hwide := rule.mem_ends_widen he
      rw [h.1] at hwide
      cases hwide
    rw [subFrom, hnone, List.head?_nil, ih h.2]

theorem sub_of_quiet {text : List Char} (h : rule.widen.quiet none text = true) :
    rule.sub text = text := rule.subFrom_of_quiet h

/-- Some part of the rule has no match over these characters alone. -/
def starved (alphabet : List Char) : Bool :=
  rule.kept.starved alphabet || rule.dropped.starved alphabet || rule.after.starved alphabet

theorem ends_of_starved {alphabet : List Char} {cursor : Cursor}
    (h : rule.starved alphabet = true) (hrest : ∀ c ∈ cursor.rest, c ∈ alphabet) :
    rule.ends cursor = [] := by
  rw [starved, Bool.or_eq_true, Bool.or_eq_true] at h
  rw [ends, List.flatMap_eq_nil_iff]
  intro k hk
  rw [List.flatMap_eq_nil_iff]
  intro d hd
  rw [List.map_eq_nil_iff]
  have hkept : ∀ c ∈ k.rest, c ∈ alphabet := fun c hc =>
    hrest c ((Pattern.suffix_run hk).subset hc)
  have hdropped : ∀ c ∈ d.rest, c ∈ alphabet := fun c hc =>
    hkept c ((Pattern.suffix_run hd).subset hc)
  rcases h with (h | h) | h
  · rw [Pattern.run_of_starved h hrest] at hk
    cases hk
  · rw [Pattern.run_of_starved h hkept] at hd
    cases hd
  · exact Pattern.run_of_starved h hdropped

/-- A text over an alphabet that starves the rule has no match. -/
theorem quiet_of_starved {alphabet : List Char} (h : rule.starved alphabet = true)
    {text : List Char} : ∀ {prev : Option Char}, (∀ c ∈ text, c ∈ alphabet) →
      rule.quiet prev text = true := by
  induction text with
  | nil => exact fun _ => rfl
  | cons c rest ih =>
    intro prev htext
    rw [quiet, rule.ends_of_starved h htext, List.isEmpty_nil, Bool.true_and]
    exact ih fun c' hc' => htext c' (List.mem_cons_of_mem c hc')

end Rule

end OsScanner.Lib

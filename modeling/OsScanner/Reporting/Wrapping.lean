import Mathlib
import OsScanner.Reporting.Layout

/-!
# Wrapping loses nothing

`wrapped_lines` cuts the words of a cleaned text into fragments, which it joins into lines again. Of a
word that is longer than a line all fragments but the last one fill a line of their own, so no space
ever comes between two fragments of one word.
-/

namespace OsScanner.Reporting

open Lib Lib.Pdf Storage

/-! ## What wrapping is -/

/--
The text is on these lines: between two of them a space is left out, or a word is broken that is
longer than a line, after as many of its characters as a line has.
-/
inductive Wraps (capacity : Nat) : List (List Char) → List Char → Prop
  | last {line : List Char} : line.length ≤ capacity → Wraps capacity [line] line
  | space {line : List Char} {lines : List (List Char)} {text : List Char} :
    line.length ≤ capacity → Wraps capacity lines text →
      Wraps capacity (line :: lines) (line ++ ' ' :: text)
  | broken {line : List Char} {lines : List (List Char)} {c : Char} {text : List Char} :
    line.length = capacity → (∀ d ∈ line, isSpace d = false) → isSpace c = false →
      Wraps capacity lines (c :: text) → Wraps capacity (line :: lines) (line ++ c :: text)

theorem Wraps.length_le {capacity : Nat} {lines : List (List Char)} {text : List Char}
    (h : Wraps capacity lines text) : ∀ line ∈ lines, line.length ≤ capacity := by
  induction h with
  | last hline => exact List.forall_mem_singleton.mpr hline
  | space hline _ ih => exact List.forall_mem_cons.mpr ⟨hline, ih⟩
  | broken hline _ _ _ ih => exact List.forall_mem_cons.mpr ⟨hline.le, ih⟩

theorem Wraps.ne_nil {capacity : Nat} {lines : List (List Char)} {text : List Char}
    (h : Wraps capacity lines text) : lines ≠ [] := by
  cases h <;> exact List.cons_ne_nil _ _

/-! ## Texts of words -/

/-- A word: some characters, none of them white space. -/
def IsWordText (word : List Char) : Prop := word ≠ [] ∧ ∀ c ∈ word, isSpace c = false

/-- What follows the first word of a text. -/
def afterSpaces (words : List (List Char)) : List Char := words.flatMap (' ' :: ·)

theorem intercalate_space (word : List Char) (words : List (List Char)) :
    [' '].intercalate (word :: words) = word ++ afterSpaces words := by
  induction words generalizing word with
  | nil => rw [List.intercalate_singleton, afterSpaces, List.flatMap_nil, List.append_nil]
  | cons next words ih =>
    rw [List.intercalate_cons_cons, ih, afterSpaces, afterSpaces, List.flatMap_cons, List.append_assoc,
      List.singleton_append]
    rfl

/-- A text that is not empty, whose spaces each stand alone between two words. -/
structure Tidy (text : List Char) : Prop where
  head : ∀ c ∈ text.head?, isSpace c = false
  last : ∀ c ∈ text.getLast?, isSpace c = false
  spaces : ∀ c ∈ text, isSpace c = true → c = ' '
  single : text.IsChain fun a b => isSpace a = true → isSpace b = false

theorem Tidy.exists_words : ∀ {text : List Char}, text ≠ [] → Tidy text → ∃ word words,
    text = word ++ afterSpaces words ∧ IsWordText word ∧ ∀ w ∈ words, IsWordText w
  | [], hne, _ => absurd rfl hne
  | [c], _, h => by
    refine ⟨[c], [], by simp [afterSpaces], ⟨by simp, ?_⟩, by simp⟩
    exact List.forall_mem_singleton.mpr (h.head c rfl)
  | c :: d :: rest, _, h => by
    have hc : isSpace c = false := h.head c rfl
    have hchain := List.isChain_cons_cons.mp h.single
    have hspaces := List.forall_mem_cons.mp h.spaces
    cases hd : isSpace d with
    | true =>
      obtain rfl : d = ' ' := hspaces.2 d List.mem_cons_self hd
      cases rest with
      | nil => exact absurd (h.last ' ' rfl) (by rw [hd]; simp)
      | cons e rest =>
        have hrest := List.isChain_cons_cons.mp hchain.2
        have htail : Tidy (e :: rest) :=
          { head := fun x hx => by
              cases hx
              exact hrest.1 hd
            last := fun x hx => h.last x (by
              rw [List.getLast?_cons_cons, List.getLast?_cons_cons]
              exact hx)
            spaces := fun x hx => hspaces.2 x (List.mem_cons_of_mem _ hx)
            single := hrest.2 }
        obtain ⟨word, words, htext, hword, hwords⟩ := htail.exists_words (List.cons_ne_nil _ _)
        refine ⟨[c], word :: words, by rw [htext]; rfl, ?_, List.forall_mem_cons.mpr ⟨hword, hwords⟩⟩
        exact ⟨List.cons_ne_nil _ _, List.forall_mem_singleton.mpr hc⟩
    | false =>
      have htail : Tidy (d :: rest) :=
        { head := fun e he => by
            cases he
            exact hd
          last := fun e he => h.last e (by rw [List.getLast?_cons_cons]; exact he)
          spaces := hspaces.2
          single := hchain.2 }
      obtain ⟨word, words, htext, hword, hwords⟩ := htail.exists_words (List.cons_ne_nil _ _)
      refine ⟨c :: word, words, by rw [htext, List.cons_append], ?_, hwords⟩
      exact ⟨List.cons_ne_nil _ _, List.forall_mem_cons.mpr ⟨hc, hword.2⟩⟩

/-! ## Cleaned texts are tidy -/

theorem isSpace_of_collapse {inSpace : Bool} {text : List Char} :
    ∀ c ∈ collapse inSpace text, isSpace c = true → c = ' ' := by
  induction text generalizing inSpace with
  | nil => exact fun _ h => nomatch h
  | cons d text ih =>
    intro c hc hspace
    rw [collapse] at hc
    split at hc
    · split at hc
      · exact ih c hc hspace
      · rcases List.mem_cons.mp hc with rfl | hc
        · rfl
        · exact ih c hc hspace
    next hd =>
      rcases List.mem_cons.mp hc with rfl | hc
      · exact absurd hspace hd
      · exact ih c hc hspace

/-- Two spaces are never next to each other, and none comes where one was just written. -/
theorem isChain_collapse {text : List Char} : ∀ inSpace,
    (collapse inSpace text).IsChain (fun a b => isSpace a = true → isSpace b = false) ∧
      (inSpace = true → ∀ c ∈ (collapse inSpace text).head?, isSpace c = false) := by
  induction text with
  | nil => exact fun _ => ⟨.nil, fun _ _ h => nomatch h⟩
  | cons d text ih =>
    intro inSpace
    rw [collapse]
    split
    next hd =>
      cases inSpace with
      | true => exact ih true
      | false =>
        refine ⟨List.isChain_cons.mpr ⟨fun c hc _ => (ih true).2 rfl c hc, (ih true).1⟩, nofun⟩
    next hd =>
      refine ⟨List.isChain_cons.mpr ⟨fun c hc hspace => absurd hspace hd, (ih false).1⟩, ?_⟩
      intro _ c hc
      cases hc
      exact Bool.eq_false_iff.mpr hd

theorem tidy_tidied (text : List Char) : Tidy (tidied text) := by
  rw [tidied]
  generalize (text.map fun c =>
    if isPdfControl c then '?' else if c = '\r' ∨ c = '\n' then ' ' else c) = shown
  have hsuffix : (collapse false shown).dropWhile isSpace <:+ collapse false shown :=
    List.dropWhile_suffix _
  have hbegins : ((collapse false shown).dropWhile isSpace).rdropWhile isSpace <+:
      (collapse false shown).dropWhile isSpace := List.rdropWhile_prefix _ _
  refine ⟨?_, ?_, ?_, ?_⟩
  · intro c hc
    obtain ⟨rest, hrest⟩ := List.head?_eq_some_iff.mp hc
    obtain ⟨more, hmore⟩ := hbegins
    have hhead := List.head?_dropWhile_not isSpace (collapse false shown)
    rw [← hmore, hrest] at hhead
    exact hhead
  · intro c hc
    obtain ⟨hne, hlast⟩ := List.mem_getLast?_eq_getLast hc
    have hnot := List.rdropWhile_last_not isSpace ((collapse false shown).dropWhile isSpace) hne
    rw [← hlast] at hnot
    exact Bool.eq_false_iff.mpr hnot
  · exact fun c hc => isSpace_of_collapse c (hsuffix.subset (hbegins.subset hc))
  · exact List.IsChain.prefix ((isChain_collapse false).1.suffix hsuffix) hbegins

/-- A text that is cut keeps its words apart, and the mark ends it. -/
theorem Tidy.cut {text mark : List Char} (h : Tidy text) (n : Nat) (hmark : mark ≠ [])
    (hchars : ∀ c ∈ mark, isSpace c = false) : Tidy (text.take n ++ mark) := by
  have hbegins : text.take n <+: text := List.take_prefix _ _
  refine ⟨?_, ?_, ?_, ?_⟩
  · intro c hc
    cases htake : text.take n with
    | nil =>
      rw [htake, List.nil_append] at hc
      exact hchars c (List.mem_of_mem_head? hc)
    | cons d rest =>
      rw [htake] at hc
      cases hc
      obtain ⟨more, hmore⟩ := hbegins
      exact h.head c (by rw [← hmore, htake]; rfl)
  · intro c hc
    rw [List.getLast?_append_of_ne_nil _ hmark] at hc
    exact hchars c (List.mem_of_getLast? hc)
  · intro c hc hspace
    rcases List.mem_append.mp hc with hc | hc
    · exact h.spaces c (hbegins.subset hc) hspace
    · exact absurd hspace (by rw [hchars c hc]; exact Bool.false_ne_true)
  · refine List.isChain_append.mpr ⟨ List.IsChain.prefix h.single hbegins, ?_, ?_⟩
    · have hpairwise : mark.Pairwise fun a b => isSpace a = true → isSpace b = false :=
        List.pairwise_of_forall_mem_list fun a _ b hb _ => hchars b hb
      exact hpairwise.isChain
    · exact fun a _ b hb _ => hchars b (List.mem_of_mem_head? hb)

theorem isSpace_truncated : ∀ c ∈ "...<truncated>".toList, isSpace c = false := by
  have hall : "...<truncated>".toList.all (fun c => !isSpace c) = true := by decide +kernel
  intro c hc
  exact Bool.not_eq_true' _ ▸ List.all_eq_true.mp hall c hc

theorem tidy_cleanText (value : String) (maximum : Nat) : Tidy (cleanText value maximum).toList := by
  rw [cleanText]
  split
  · rw [String.toList_append, String.toList_ofList]
    exact (tidy_tidied _).cut _ (by decide) isSpace_truncated
  · rw [String.toList_ofList]
    exact tidy_tidied _

/-! ## Fragments -/

theorem fragments_nil (capacity : Nat) : fragments capacity [] = [] := by
  have hnone : (0 + capacity - 1) / capacity = 0 := by
    rcases Nat.eq_zero_or_pos capacity with rfl | h
    · rfl
    · exact Nat.div_eq_of_lt (by omega)
  rw [fragments, List.length_nil, hnone]
  rfl

theorem fragments_eq {capacity : Nat} (hcapacity : 0 < capacity) {word : List Char} (hne : word ≠ []) :
    fragments capacity word = word.take capacity :: fragments capacity (word.drop capacity) := by
  have hlength : 0 < word.length := List.length_pos_of_ne_nil hne
  have hcount : (word.length + capacity - 1) / capacity =
      ((word.drop capacity).length + capacity - 1) / capacity + 1 := by
    rw [List.length_drop]
    rcases Nat.lt_or_ge capacity word.length with hlong | hshort
    · rw [← Nat.add_div_right _ hcapacity]
      congr 1
      omega
    · have hone : (word.length + capacity - 1) / capacity = 1 :=
        Nat.div_eq_of_lt_le (by omega) (by omega)
      have hnone : (word.length - capacity + capacity - 1) / capacity = 0 :=
        Nat.div_eq_of_lt (by omega)
      rw [hone, hnone]
  rw [fragments, hcount, List.range_succ_eq_map, List.map_cons, List.map_map, Nat.zero_mul,
    List.drop_zero, fragments]
  refine congrArg _ (List.map_congr_left fun index _ => ?_)
  show (word.drop ((index + 1) * capacity)).take capacity =
    ((word.drop capacity).drop (index * capacity)).take capacity
  rw [List.drop_drop, Nat.succ_mul, Nat.add_comm]

/-- The fragments of words. -/
def fragmentsOf (capacity : Nat) (words : List (List Char)) : List (List Char) :=
  words.flatMap (fragments capacity)

theorem isWordText_take {capacity : Nat} (hcapacity : 0 < capacity) {word : List Char}
    (h : IsWordText word) : IsWordText (word.take capacity) := by
  refine ⟨fun hnil => ?_, fun c hc => h.2 c (List.mem_of_mem_take hc)⟩
  rcases List.take_eq_nil_iff.mp hnil with rfl | hword
  · exact absurd hcapacity (lt_irrefl 0)
  · exact h.1 hword

/-! ## Lines -/

/-- What a line holds between two steps of the loop. -/
structure IsLine (capacity : Nat) (line : List Char) : Prop where
  nonempty : line ≠ []
  head : ∀ c ∈ line.head?, isSpace c = false
  length : line.length ≤ capacity

theorem rdropWhile_word {text word : List Char} (h : IsWordText word) :
    (text ++ word).rdropWhile isSpace = text ++ word := by
  rw [List.rdropWhile_eq_self_iff]
  intro hne
  rw [List.getLast_append_of_ne_nil hne h.1, Bool.not_eq_true]
  exact h.2 _ (List.getLast_mem _)

/-- Joining a fragment to a line puts one space between them. -/
theorem joined_eq {line fragment : List Char} (hne : line ≠ [])
    (hhead : ∀ c ∈ line.head?, isSpace c = false) (hfragment : IsWordText fragment) :
    joined line fragment = line ++ ' ' :: fragment := by
  obtain ⟨c, rest, rfl⟩ := List.exists_cons_of_ne_nil hne
  have hc : ¬ isSpace c = true := by
    rw [hhead c rfl]
    exact Bool.false_ne_true
  rw [joined, List.cons_append, List.dropWhile_cons_of_neg hc]
  have hword := @rdropWhile_word (c :: rest ++ [' ']) fragment hfragment
  rwa [List.append_assoc, List.singleton_append] at hword

theorem joined_nil {fragment : List Char} (hfragment : IsWordText fragment) :
    joined [] fragment = fragment := by
  obtain ⟨c, rest, rfl⟩ := List.exists_cons_of_ne_nil hfragment.1
  have hc : ¬ isSpace c = true := by
    rw [hfragment.2 c List.mem_cons_self]
    exact Bool.false_ne_true
  rw [joined, List.nil_append, List.dropWhile_cons_of_pos (by decide), List.dropWhile_cons_of_neg hc]
  exact @rdropWhile_word [] _ hfragment

/-- The fragments of a word, each on a line of its own as long as there is another one. -/
theorem wraps_word {capacity : Nat} (hcapacity : 0 < capacity) {words : List (List Char)}
    (hline : ∀ {line : List Char}, IsLine capacity line →
      Wraps capacity (wrapFrom capacity line (fragmentsOf capacity words)) (line ++ afterSpaces words)) :
    ∀ {n : Nat} {word : List Char}, word.length ≤ n → IsWordText word →
      Wraps capacity (wrapFrom capacity (word.take capacity)
        (fragments capacity (word.drop capacity) ++ fragmentsOf capacity words))
        (word ++ afterSpaces words) := by
  intro n
  induction n with
  | zero =>
    intro word hlength hword
    exact absurd (List.eq_nil_of_length_eq_zero (Nat.le_zero.mp hlength)) hword.1
  | succ n ih =>
    intro word hlength hword
    have hfirst := isWordText_take hcapacity hword
    have hheads : ∀ c ∈ (word.take capacity).head?, isSpace c = false :=
      fun c hc => hfirst.2 c (List.mem_of_mem_head? hc)
    rcases Nat.lt_or_ge capacity word.length with hlong | hshort
    · -- the word goes on: the fragment fills its line
      have hfull : (word.take capacity).length = capacity := List.length_take_of_le hlong.le
      have hrest : IsWordText (word.drop capacity) :=
        ⟨fun hnil => by
          rw [List.drop_eq_nil_iff] at hnil
          omega, fun c hc => hword.2 c (List.mem_of_mem_drop hc)⟩
      have hjoined : (joined (word.take capacity) ((word.drop capacity).take capacity)).length >
          capacity := by
        rw [joined_eq hfirst.1 hheads (isWordText_take hcapacity hrest), List.length_append, hfull,
          List.length_cons]
        omega
      have hwraps := ih (by rw [List.length_drop]; omega) hrest
      obtain ⟨c, rest, hdrop⟩ := List.exists_cons_of_ne_nil hrest.1
      rw [fragments_eq hcapacity hrest.1, List.cons_append, wrapFrom, if_pos ⟨hfirst.1, hjoined⟩]
      rw [hdrop] at hwraps hrest
      have hsplit : word ++ afterSpaces words =
          word.take capacity ++ c :: (rest ++ afterSpaces words) := by
        conv_lhs => rw [← List.take_append_drop capacity word, hdrop]
        rw [List.append_assoc, List.cons_append]
      rw [hsplit]
      rw [hdrop]
      exact .broken hfull hfirst.2 (hrest.2 c List.mem_cons_self) hwraps
    · rw [List.take_of_length_le hshort, List.drop_eq_nil_of_le hshort, fragments_nil, List.nil_append]
      exact hline ⟨hword.1, fun c hc => hword.2 c (List.mem_of_mem_head? hc), hshort⟩

/-- From a line on, before a word. -/
theorem wraps_line {capacity : Nat} (hcapacity : 0 < capacity) :
    ∀ {words : List (List Char)}, (∀ w ∈ words, IsWordText w) → ∀ {line : List Char},
      IsLine capacity line → Wraps capacity (wrapFrom capacity line (fragmentsOf capacity words))
        (line ++ afterSpaces words) := by
  intro words
  induction words with
  | nil =>
    intro _ line h
    rw [fragmentsOf, List.flatMap_nil, wrapFrom, if_neg h.nonempty, afterSpaces, List.flatMap_nil,
      List.append_nil]
    exact .last h.length
  | cons word words ih =>
    intro hwords line h
    obtain ⟨hword, hwords⟩ := List.forall_mem_cons.mp hwords
    have hfirst := isWordText_take hcapacity hword
    have hjoined := joined_eq h.nonempty h.head hfirst
    have htext : afterSpaces (word :: words) = ' ' :: (word ++ afterSpaces words) := rfl
    rw [fragmentsOf, List.flatMap_cons, fragments_eq hcapacity hword.1, List.cons_append, wrapFrom]
    by_cases hlong : (joined line (word.take capacity)).length > capacity
    · rw [if_pos ⟨h.nonempty, hlong⟩, htext]
      exact .space h.length (wraps_word hcapacity (ih hwords) le_rfl hword)
    · rw [if_neg fun hboth => hlong hboth.2]
      -- the fragment is the whole word, or it would not fit
      rw [not_lt, hjoined, List.length_append, List.length_cons, List.length_take] at hlong
      have hline := List.length_pos_of_ne_nil h.nonempty
      have hshort : word.length ≤ capacity := by omega
      rw [hjoined, List.take_of_length_le hshort, List.drop_eq_nil_of_le hshort, fragments_nil,
        List.nil_append, htext]
      have hwraps := @ih hwords (line ++ ' ' :: word)
        ⟨by simp, fun c hc => h.head c (by
          rwa [List.head?_append_of_ne_nil _ h.nonempty] at hc), by
          rw [List.length_append, List.length_cons]
          omega⟩
      rw [List.append_assoc] at hwraps
      exact hwraps

/-! ## The lines of a text -/

theorem capacity_pos (width size : ℚ) : 0 < capacity width size := by
  rw [capacity]
  omega

theorem allFragments_eq {capacity : Nat} (hcapacity : 0 < capacity) {word : List Char}
    {words : List (List Char)} (hword : IsWordText word) (hwords : ∀ w ∈ words, IsWordText w) :
    allFragments capacity (word ++ afterSpaces words) = fragmentsOf capacity (word :: words) := by
  have hall : ∀ w ∈ word :: words, IsWordText w := List.forall_mem_cons.mpr ⟨hword, hwords⟩
  have hsplit : (word ++ afterSpaces words).splitOn ' ' = word :: words := by
    rw [← intercalate_space, List.splitOn_intercalate _ _ (List.cons_ne_nil _ _)]
    intro w hw hmem
    exact absurd ((hall w hw).2 ' ' hmem) (by decide)
  rw [allFragments, hsplit, fragmentsOf]
  refine List.flatMap_congr fun w hw => ?_
  rw [fragments_eq hcapacity (hall w hw).1, if_neg (List.cons_ne_nil _ _)]

/-- The lines of a text are the text. -/
theorem wraps_wrappedLines (limits : PdfRenderLimits) (value : String) (width size : ℚ) :
    Wraps (capacity width size) ((wrappedLines limits value width size).map String.toList)
      (cleanText value limits.maxCellCharacters).toList := by
  have hcapacity := capacity_pos width size
  have htidy := tidy_cleanText value limits.maxCellCharacters
  rw [wrappedLines]
  dsimp only
  generalize (cleanText value limits.maxCellCharacters).toList = text at htidy ⊢
  split
  next hempty =>
    subst hempty
    exact .last (Nat.zero_le _)
  next hne =>
    obtain ⟨word, words, rfl, hword, hwords⟩ := htidy.exists_words hne
    have hfirst := isWordText_take hcapacity hword
    have hwraps := wraps_word hcapacity (wraps_line hcapacity hwords) le_rfl hword
    have hstart : wrapFrom (capacity width size) []
        (allFragments (capacity width size) (word ++ afterSpaces words)) =
          wrapFrom (capacity width size) (word.take (capacity width size))
            (fragments (capacity width size) (word.drop (capacity width size)) ++
              fragmentsOf (capacity width size) words) := by
      rw [allFragments_eq hcapacity hword hwords, fragmentsOf, List.flatMap_cons,
        fragments_eq hcapacity hword.1, List.cons_append, wrapFrom, if_neg fun h => h.1 rfl,
        joined_nil hfirst]
      rfl
    rw [← hstart] at hwraps
    rw [if_neg hwraps.ne_nil, List.map_map]
    show Wraps _ (List.map (fun line => (String.ofList line).toList) _) _
    simpa only [String.toList_ofList, List.map_id'] using hwraps

end OsScanner.Reporting

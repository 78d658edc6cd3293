import Mathlib

/-!
# Splitting a URL

`urlsplit` and `urlunsplit` of `urllib.parse`. The checks that `urlsplit` makes of a network location
(the brackets of an IPv6 address, and compatibility characters) are a parameter.
-/

namespace OsScanner.Lib.Url

structure SplitResult where
  scheme : List Char
  netloc : List Char
  path : List Char
  query : List Char
  fragment : List Char
  deriving DecidableEq, Repr

/-- `text.split(c, 1)`, with an empty second part where there is no `c`. -/
def cut (c : Char) (text : List Char) : List Char × List Char :=
  (text.takeWhile (· ≠ c), (text.dropWhile (· ≠ c)).tail)

def isAsciiLetter (c : Char) : Bool := decide ('a' ≤ c ∧ c ≤ 'z') || decide ('A' ≤ c ∧ c ≤ 'Z')

/-- `scheme_chars` -/
def isSchemeChar (c : Char) : Bool :=
  isAsciiLetter c || decide ('0' ≤ c ∧ c ≤ '9') || decide (c ∈ ['+', '-', '.'])

/-- White space that `urlsplit` removes anywhere. -/
def isRemoved (c : Char) : Bool := decide (c ∈ ['\t', '\r', '\n'])

/-- The text without leading control characters and spaces, and without tabs and line breaks. -/
def clean (url : List Char) : List Char :=
  (url.dropWhile fun c => decide (c.toNat ≤ 32)).filter fun c => !isRemoved c

/-- The text before the first colon, if it can be a scheme, and the rest. -/
def splitScheme (url : List Char) : List Char × List Char :=
  let (head, rest) := cut ':' url
  if ':' ∈ url ∧ head.head?.any isAsciiLetter = true ∧ head.all isSchemeChar = true then
    (head.map Char.toLower, rest)
  else ([], url)

/-- The delimiters of a network location. -/
def isDelimiter (c : Char) : Bool := decide (c ∈ ['/', '?', '#'])

/-- The network location, if two slashes come first, and the rest. -/
def splitNetloc : List Char → List Char × List Char
  | '/' :: '/' :: rest => (rest.takeWhile (!isDelimiter ·), rest.dropWhile (!isDelimiter ·))
  | url => ([], url)

/-- `urlsplit(url)`, which raises `ValueError` where the network location is refused. -/
def urlsplit (accepted : List Char → Bool) (url : List Char) : Option SplitResult :=
  let (scheme, rest) := splitScheme (clean url)
  let (netloc, rest) := splitNetloc rest
  if netloc = [] ∨ accepted netloc = true then
    let (rest, fragment) := cut '#' rest
    let (path, query) := cut '?' rest
    some ⟨scheme, netloc, path, query, fragment⟩
  else none

/-- Schemes whose URLs have a network location. -/
def usesNetloc : List String :=
  ["", "ftp", "http", "gopher", "nntp", "telnet", "imap", "wais", "file", "mms", "https", "shttp",
    "snews", "prospero", "rtsp", "rtsps", "rtspu", "rsync", "svn", "svn+ssh", "sftp", "nfs", "git",
    "git+ssh", "ws", "wss"]

/-- `urlunsplit(parts)` -/
def urlunsplit (parts : SplitResult) : List Char :=
  let path :=
    if parts.netloc ≠ [] ∨ (parts.scheme ≠ [] ∧ String.ofList parts.scheme ∈ usesNetloc ∧
        ¬ ['/', '/'] <+: parts.path) then
      let path := if parts.path ≠ [] ∧ parts.path.head? ≠ some '/' then '/' :: parts.path else parts.path
      '/' :: '/' :: parts.netloc ++ path
    else parts.path
  let url := if parts.scheme ≠ [] then parts.scheme ++ ':' :: path else path
  let url := if parts.query ≠ [] then url ++ '?' :: parts.query else url
  if parts.fragment ≠ [] then url ++ '#' :: parts.fragment else url

/-! ## Reading the parts -/

variable {accepted : List Char → Bool}

theorem isRemoved_of_toNat {c : Char} (h : 32 < c.toNat) : isRemoved c = false := by
  rw [isRemoved, decide_eq_false_iff_not]
  intro hmem
  rcases List.mem_cons.mp hmem with rfl | hmem
  · exact absurd h (by decide)
  rcases List.mem_cons.mp hmem with rfl | hmem
  · exact absurd h (by decide)
  rw [List.mem_singleton.mp hmem] at h
  exact absurd h (by decide)

/-- A text that starts visibly and has no line breaks is taken as it is. -/
theorem clean_eq_self {url : List Char} (hhead : ∀ c ∈ url.head?, 32 < c.toNat)
    (hremoved : ∀ c ∈ url, isRemoved c = false) : clean url = url := by
  have hdrop : (url.dropWhile fun c => decide (c.toNat ≤ 32)) = url := by
    cases url with
    | nil => rfl
    | cons c url =>
      rw [List.dropWhile_cons_of_neg]
      have hc := hhead c rfl
      simp only [decide_eq_true_eq]
      omega
  rw [clean, hdrop, List.filter_eq_self]
  intro c hc
  rw [hremoved c hc]
  rfl

theorem cut_of_not_mem {c : Char} {text : List Char} (h : c ∉ text) : cut c text = (text, []) := by
  have hall : ∀ d ∈ text, decide (d ≠ c) = true := by
    intro d hd
    rw [decide_eq_true_eq]
    rintro rfl
    exact h hd
  rw [cut, List.takeWhile_eq_self_iff.mpr hall, List.dropWhile_eq_nil_iff.mpr hall]
  rfl

theorem cut_append {c : Char} {a : List Char} (h : c ∉ a) (b : List Char) :
    cut c (a ++ c :: b) = (a, b) := by
  have hall : ∀ d ∈ a, decide (d ≠ c) = true := by
    intro d hd
    rw [decide_eq_true_eq]
    rintro rfl
    exact h hd
  rw [cut, List.takeWhile_append_of_pos hall, List.dropWhile_append_of_pos hall,
    List.takeWhile_cons_of_neg (by simp), List.dropWhile_cons_of_neg (by simp), List.append_nil]
  rfl

theorem splitScheme_slash (rest : List Char) : splitScheme ('/' :: rest) = ([], '/' :: rest) := by
  have hhead : (cut ':' ('/' :: rest)).1.head?.any isAsciiLetter = false := by
    rw [cut, List.takeWhile_cons_of_pos (by decide)]
    rfl
  refine if_neg fun h => ?_
  have hletter := hhead.symm.trans h.2.1
  cases hletter

/-- An absolute path without delimiters is only a path. -/
theorem urlsplit_path {path : List Char} (hslash : path.head? = some '/')
    (hdouble : ¬ ['/', '/'] <+: path) (hquery : '?' ∉ path) (hfragment : '#' ∉ path)
    (hvisible : ∀ c ∈ path, 32 < c.toNat) :
    urlsplit accepted path = some ⟨[], [], path, [], []⟩ := by
  have hclean : clean path = path := by
    refine clean_eq_self (fun c hc => hvisible c (List.mem_of_mem_head? hc)) fun c hc => ?_
    exact isRemoved_of_toNat (hvisible c hc)
  obtain ⟨rest, rfl⟩ : ∃ rest, path = '/' :: rest := by
    cases path with
    | nil => cases hslash
    | cons c rest =>
      cases hslash
      exact ⟨rest, rfl⟩
  have hnetloc : splitNetloc ('/' :: rest) = ([], '/' :: rest) := by
    rw [splitNetloc]
    rintro rest' heq
    refine hdouble ?_
    rw [heq]
    exact ⟨rest', rfl⟩
  rw [urlsplit, hclean]
  simp only [splitScheme_slash, hnetloc, cut_of_not_mem hfragment, cut_of_not_mem hquery, true_or,
    if_true]

/-- The text is a scheme as `urlsplit` writes it. -/
structure IsScheme (scheme : List Char) : Prop where
  letter : scheme.head?.any isAsciiLetter = true
  chars : scheme.all isSchemeChar = true
  lower : scheme.map Char.toLower = scheme

instance (scheme : List Char) : Decidable (IsScheme scheme) :=
  decidable_of_iff (scheme.head?.any isAsciiLetter = true ∧ scheme.all isSchemeChar = true ∧
    scheme.map Char.toLower = scheme)
    ⟨fun h => ⟨h.1, h.2.1, h.2.2⟩, fun h => ⟨h.letter, h.chars, h.lower⟩⟩

/-- The text is a network location. -/
structure IsNetloc (accepted : List Char → Bool) (netloc : List Char) : Prop where
  ne_nil : netloc ≠ []
  accepted : accepted netloc = true
  not_delimiter : ∀ c ∈ netloc, isDelimiter c = false
  not_removed : ∀ c ∈ netloc, isRemoved c = false

/-- The text is a path behind a network location. -/
structure IsPath (path : List Char) : Prop where
  slash : path = [] ∨ path.head? = some '/'
  not_query : '?' ∉ path
  not_fragment : '#' ∉ path
  not_removed : ∀ c ∈ path, isRemoved c = false

theorem splitScheme_append {head rest : List Char} (hletter : head.head?.any isAsciiLetter = true)
    (hchars : head.all isSchemeChar = true) :
    splitScheme (head ++ ':' :: rest) = (head.map Char.toLower, rest) := by
  have hcolon : ':' ∉ head := fun hc => absurd (List.all_eq_true.mp hchars _ hc) (by decide)
  rw [splitScheme, cut_append hcolon]
  exact if_pos ⟨by simp, hletter, hchars⟩

theorem splitNetloc_append {netloc after : List Char} (h : ∀ c ∈ netloc, isDelimiter c = false)
    (hafter : ∀ c ∈ after.head?, isDelimiter c = true) :
    splitNetloc ('/' :: '/' :: (netloc ++ after)) = (netloc, after) := by
  have hall : ∀ c ∈ netloc, (!isDelimiter c) = true := fun c hc => by rw [h c hc]; rfl
  have hstop : after.takeWhile (!isDelimiter ·) = [] ∧ after.dropWhile (!isDelimiter ·) = after := by
    cases after with
    | nil => exact ⟨rfl, rfl⟩
    | cons c after =>
      have hc : ¬ (!isDelimiter c) = true := by rw [hafter c rfl]; decide
      exact ⟨List.takeWhile_cons_of_neg hc, List.dropWhile_cons_of_neg hc⟩
  rw [splitNetloc, List.takeWhile_append_of_pos hall, List.dropWhile_append_of_pos hall, hstop.1,
    hstop.2, List.append_nil]

theorem toNat_of_isSchemeChar {c : Char} (h : isSchemeChar c = true) : 32 < c.toNat := by
  simp only [isSchemeChar, isAsciiLetter, Bool.or_eq_true, decide_eq_true_eq] at h
  rcases h with ((h | h) | h) | h
  · exact lt_of_lt_of_le (by decide) (show 97 ≤ c.toNat from h.1)
  · exact lt_of_lt_of_le (by decide) (show 65 ≤ c.toNat from h.1)
  · exact lt_of_lt_of_le (by decide) (show 48 ≤ c.toNat from h.1)
  · rcases List.mem_cons.mp h with rfl | h
    · decide
    rcases List.mem_cons.mp h with rfl | h
    · decide
    rw [List.mem_singleton.mp h]
    decide

/-- A URL that is put together from its parts is split into them again. -/
theorem urlsplit_append {scheme netloc path : List Char} (hscheme : IsScheme scheme)
    (hnetloc : IsNetloc accepted netloc) (hpath : IsPath path) :
    urlsplit accepted (scheme ++ ':' :: '/' :: '/' :: (netloc ++ path)) =
      some ⟨scheme, netloc, path, [], []⟩ := by
  have hvisible : ∀ c ∈ scheme, 32 < c.toNat := fun c hc =>
    toNat_of_isSchemeChar (List.all_eq_true.mp hscheme.chars c hc)
  have hclean : clean (scheme ++ ':' :: '/' :: '/' :: (netloc ++ path)) =
      scheme ++ ':' :: '/' :: '/' :: (netloc ++ path) := by
    refine clean_eq_self ?_ ?_
    · intro c hc
      cases scheme with
      | nil => exact absurd hscheme.letter (by decide)
      | cons d scheme =>
        cases hc
        exact hvisible _ List.mem_cons_self
    · intro c hc
      simp only [List.mem_append, List.mem_cons] at hc
      rcases hc with hc | rfl | rfl | rfl | hc | hc
      · exact isRemoved_of_toNat (hvisible c hc)
      · decide
      · decide
      · decide
      · exact hnetloc.not_removed c hc
      · exact hpath.not_removed c hc
  have hslash : ∀ c ∈ path.head?, isDelimiter c = true := by
    intro c hc
    rcases hpath.slash with rfl | hhead
    · cases hc
    · rw [hhead] at hc
      cases hc
      decide
  rw [urlsplit, hclean]
  simp only [splitScheme_append hscheme.letter hscheme.chars, hscheme.lower,
    splitNetloc_append hnetloc.not_delimiter hslash,
    hnetloc.accepted, cut_of_not_mem hpath.not_fragment, cut_of_not_mem hpath.not_query, or_true,
    if_true]

/-- With a network location, the parts of a URL without query and fragment are put together so. -/
theorem urlunsplit_eq {scheme netloc path : List Char} (hscheme : scheme ≠ []) (hnetloc : netloc ≠ [])
    (hpath : path = [] ∨ path.head? = some '/') :
    urlunsplit ⟨scheme, netloc, path, [], []⟩ = scheme ++ ':' :: '/' :: '/' :: (netloc ++ path) := by
  have hslash : ¬ (path ≠ [] ∧ path.head? ≠ some '/') := by
    rintro ⟨hne, hhead⟩
    exact hpath.elim hne hhead
  simp only [urlunsplit, ne_eq, hnetloc, hscheme, not_false_eq_true, true_or, if_true,
    not_true_eq_false, if_false, List.cons_append]
  rw [if_neg hslash]

/-! ## The parts of a URL that was split -/

theorem isRemoved_of_mem_clean {c : Char} {url : List Char} (h : c ∈ clean url) :
    isRemoved c = false := by
  have hc := (List.mem_filter.mp h).2
  simpa using hc

/-- A scheme that was found stands before the first colon. -/
theorem splitScheme_cases (url : List Char) :
    splitScheme url = ([], url) ∨ ∃ head rest, head.head?.any isAsciiLetter = true ∧
      head.all isSchemeChar = true ∧ url = head ++ ':' :: rest := by
  by_cases h : ':' ∈ url
  · obtain ⟨head, rest, rfl, hhead⟩ := List.eq_append_cons_of_mem h
    rw [splitScheme, cut_append hhead]
    dsimp only
    split
    · next hscheme => exact Or.inr ⟨head, rest, hscheme.2.1, hscheme.2.2, rfl⟩
    · exact Or.inl rfl
  · rw [splitScheme]
    exact Or.inl (if_neg fun hscheme => h hscheme.1)

/-- The scheme is in lower case, and the rest is a part of the text. -/
theorem splitScheme_spec (url : List Char) :
    (splitScheme url).1.map Char.toLower = (splitScheme url).1 ∧
      (∀ c ∈ (splitScheme url).2, c ∈ url) := by
  rcases splitScheme_cases url with h | ⟨head, rest, hletter, hchars, rfl⟩
  · rw [h]
    exact ⟨rfl, fun c hc => hc⟩
  · rw [splitScheme_append hletter hchars]
    refine ⟨?_, fun c hc => List.mem_append_right _ (List.mem_cons_of_mem _ hc)⟩
    rw [List.map_map]
    exact List.map_congr_left fun c _ => Char.toLower_toLower_eq_toLower c

/-- A network location stands between two slashes and a delimiter or the end. -/
theorem splitNetloc_eq {url netloc after : List Char} (hnetloc : netloc ≠ [])
    (h : splitNetloc url = (netloc, after)) :
    url = '/' :: '/' :: (netloc ++ after) ∧ (∀ c ∈ netloc, isDelimiter c = false) ∧
      ∀ c ∈ after.head?, isDelimiter c = true := by
  unfold splitNetloc at h
  split at h
  · next rest =>
    cases h
    refine ⟨by rw [List.takeWhile_append_dropWhile], fun c hc => ?_, fun c hc => ?_⟩
    · simpa using List.mem_takeWhile_imp hc
    · have hneg := List.head?_dropWhile_not (!isDelimiter ·) rest
      rw [Option.mem_def.mp hc] at hneg
      simpa using hneg
  · cases h
    exact absurd rfl hnetloc

theorem mem_of_mem_cut {c d : Char} {text : List Char} (h : d ∈ (cut c text).1) : d ∈ text ∧ d ≠ c :=
  ⟨List.takeWhile_subset _ h, by simpa using List.mem_takeWhile_imp h⟩

theorem head?_cut {c : Char} {text : List Char} : (cut c text).1 = [] ∨ (cut c text).1.head? = text.head? := by
  cases text with
  | nil => exact Or.inl rfl
  | cons d text =>
    rw [cut, List.takeWhile_cons]
    split
    · exact Or.inr rfl
    · exact Or.inl rfl

/-- The parts of a URL, one after the other. -/
theorem urlsplit_eq_some {url : List Char} {parts : SplitResult} :
    urlsplit accepted url = some parts ↔
      ∃ scheme rest netloc after, splitScheme (clean url) = (scheme, rest) ∧
        splitNetloc rest = (netloc, after) ∧ (netloc = [] ∨ accepted netloc = true) ∧
        parts = ⟨scheme, netloc, (cut '?' (cut '#' after).1).1, (cut '?' (cut '#' after).1).2,
          (cut '#' after).2⟩ := by
  rcases hscheme : splitScheme (clean url) with ⟨scheme, rest⟩
  rcases hnetloc : splitNetloc rest with ⟨netloc, after⟩
  simp only [urlsplit, hscheme, hnetloc]
  constructor
  · intro h
    split at h
    · next haccepted =>
      exact ⟨scheme, rest, netloc, after, rfl, hnetloc, haccepted, (Option.some.inj h).symm⟩
    · cases h
  · rintro ⟨scheme', rest', netloc', after', heq, hnetloc', haccepted, rfl⟩
    cases heq
    rw [hnetloc] at hnetloc'
    cases hnetloc'
    exact if_pos haccepted

/-- What `urlsplit` makes of a URL with a network location. -/
theorem isSplit_of_urlsplit {url : List Char} {parts : SplitResult}
    (h : urlsplit accepted url = some parts) (hnetloc : parts.netloc ≠ []) :
    parts.scheme.map Char.toLower = parts.scheme ∧ IsNetloc accepted parts.netloc ∧
      IsPath parts.path := by
  obtain ⟨scheme, rest, netloc, after, hscheme, hsplit, haccepted, rfl⟩ := urlsplit_eq_some.mp h
  obtain ⟨hlower, hrest⟩ := splitScheme_spec (clean url)
  obtain ⟨rfl, hlocation, hhead⟩ := splitNetloc_eq hnetloc hsplit
  rw [hscheme] at hlower hrest
  have hmemNetloc : ∀ c ∈ netloc, c ∈ '/' :: '/' :: (netloc ++ after) := fun c hc =>
    List.mem_cons_of_mem _ (List.mem_cons_of_mem _ (List.mem_append_left _ hc))
  have hmemAfter : ∀ c ∈ after, c ∈ '/' :: '/' :: (netloc ++ after) := fun c hc =>
    List.mem_cons_of_mem _ (List.mem_cons_of_mem _ (List.mem_append_right _ hc))
  have hremoved : ∀ c ∈ '/' :: '/' :: (netloc ++ after), isRemoved c = false :=
    fun c hc => isRemoved_of_mem_clean (hrest c hc)
  have hmem : ∀ c ∈ (cut '?' (cut '#' after).1).1, c ≠ '?' ∧ c ≠ '#' ∧ c ∈ after := by
    intro c hc
    obtain ⟨hc, hquery⟩ := mem_of_mem_cut hc
    obtain ⟨hc, hfragment⟩ := mem_of_mem_cut hc
    exact ⟨hquery, hfragment, hc⟩
  refine ⟨hlower, ⟨hnetloc, haccepted.resolve_left hnetloc, hlocation,
    fun c hc => hremoved c (hmemNetloc c hc)⟩, ?_, fun hc => (hmem _ hc).1 rfl,
    fun hc => (hmem _ hc).2.1 rfl, fun c hc => hremoved c (hmemAfter c (hmem c hc).2.2)⟩
  -- the path begins where the network location ends, and it does not begin with `?` or `#`
  show (cut '?' (cut '#' after).1).1 = [] ∨ (cut '?' (cut '#' after).1).1.head? = some '/'
  cases hpath : (cut '?' (cut '#' after).1).1 with
  | nil => exact Or.inl rfl
  | cons c path =>
    have hc := hmem c (hpath ▸ List.mem_cons_self)
    have hfirst : after.head? = some c := by
      rcases @head?_cut '?' (cut '#' after).1 with hnil | heq
      · rw [hpath] at hnil
        cases hnil
      rw [hpath] at heq
      rcases @head?_cut '#' after with hnil | heq'
      · rw [hnil] at heq
        cases heq
      rw [← heq', ← heq]
      rfl
    have hdelimiter := hhead c hfirst
    rw [isDelimiter, decide_eq_true_eq] at hdelimiter
    right
    rcases List.mem_cons.mp hdelimiter with rfl | hdelimiter
    · rfl
    rcases List.mem_cons.mp hdelimiter with rfl | hdelimiter
    · exact absurd rfl hc.1
    · exact absurd (List.mem_singleton.mp hdelimiter) hc.2.1

/-! ## Trailing slashes -/

theorem clean_append_slash (url : List Char) : clean (url ++ ['/']) = clean url ++ ['/'] := by
  rw [clean, clean, List.dropWhile_append]
  split
  · next hnil =>
    rw [List.isEmpty_iff.mp hnil]
    rfl
  · rw [List.filter_append]
    rfl

theorem clean_subset (url : List Char) : clean url ⊆ url := by
  intro c hc
  exact List.dropWhile_subset _ (List.mem_filter.mp hc).1

theorem splitScheme_append_slash {url rest scheme : List Char} (hscheme : scheme ≠ [])
    (h : splitScheme (url ++ ['/']) = (scheme, rest)) :
    ∃ before, rest = before ++ ['/'] ∧ splitScheme url = (scheme, before) := by
  rcases splitScheme_cases (url ++ ['/']) with hnone | ⟨head, later, hletter, hchars, heq⟩
  · rw [hnone] at h
    cases h
    exact absurd rfl hscheme
  · rw [heq, splitScheme_append hletter hchars] at h
    cases h
    rcases List.eq_nil_or_concat rest with rfl | ⟨before, last, rfl⟩
    · -- the colon is not the slash
      have hlast := congrArg List.getLast? heq
      simp at hlast
    · rw [List.concat_eq_append, ← List.cons_append, ← List.append_assoc] at heq
      obtain ⟨rfl, hlast⟩ := List.append_inj' heq rfl
      cases hlast
      exact ⟨before, List.concat_eq_append, splitScheme_append hletter hchars⟩

theorem splitNetloc_append_slash {url netloc after : List Char} (hnetloc : netloc ≠ [])
    (h : splitNetloc (url ++ ['/']) = (netloc, after)) :
    ∃ before, after = before ++ ['/'] ∧ splitNetloc url = (netloc, before) := by
  obtain ⟨heq, hlocation, hafter⟩ := splitNetloc_eq hnetloc h
  rcases List.eq_nil_or_concat after with rfl | ⟨before, last, rfl⟩
  · -- the slash is no part of the network location
    obtain ⟨a, last, rfl⟩ := (List.eq_nil_or_concat netloc).resolve_left hnetloc
    rw [List.append_nil, List.concat_eq_append, ← List.cons_append, ← List.cons_append] at heq
    obtain ⟨-, hlast⟩ := List.append_inj' heq rfl
    cases hlast
    have hslash := hlocation '/' (by rw [List.concat_eq_append]; simp)
    cases hslash
  · rw [List.concat_eq_append] at hafter ⊢
    rw [List.concat_eq_append, ← List.append_assoc, ← List.cons_append, ← List.cons_append] at heq
    obtain ⟨rfl, hlast⟩ := List.append_inj' heq rfl
    cases hlast
    refine ⟨before, rfl, splitNetloc_append hlocation fun c hc => hafter c ?_⟩
    rw [List.head?_append, Option.mem_def.mp hc]
    rfl

/-- Without its last slash, a URL with a scheme and a network location has the same ones, and its path
has lost the slash. -/
theorem urlsplit_dropSlash {url : List Char} {parts : SplitResult}
    (h : urlsplit accepted (url ++ ['/']) = some parts) (hscheme : parts.scheme ≠ [])
    (hnetloc : parts.netloc ≠ []) (hquery : '?' ∉ url) (hfragment : '#' ∉ url) :
    ∃ path, parts.path = path ++ ['/'] ∧ urlsplit accepted url = some { parts with path := path } := by
  obtain ⟨scheme, rest, netloc, after, hsplit, hlocation, haccepted, rfl⟩ := urlsplit_eq_some.mp h
  rw [clean_append_slash] at hsplit
  obtain ⟨rest, rfl, hsplit⟩ := splitScheme_append_slash hscheme hsplit
  obtain ⟨after, rfl, hlocation⟩ := splitNetloc_append_slash hnetloc hlocation
  have hmem : ∀ c ∈ after ++ ['/'], c = '/' ∨ c ∈ url := by
    intro c hc
    rcases List.mem_append.mp hc with hc | hc
    · right
      have hrest := (splitScheme_spec (clean url)).2
      rw [hsplit] at hrest
      obtain ⟨rfl, -, -⟩ := splitNetloc_eq hnetloc hlocation
      refine clean_subset url (hrest c ?_)
      exact List.mem_cons_of_mem _ (List.mem_cons_of_mem _ (List.mem_append_right _ hc))
    · exact Or.inl (List.mem_singleton.mp hc)
  have hfragment' : '#' ∉ after ++ ['/'] := fun hc => (hmem _ hc).elim (by decide) hfragment
  have hquery' : '?' ∉ after ++ ['/'] := fun hc => (hmem _ hc).elim (by decide) hquery
  refine ⟨after, ?_, ?_⟩
  · rw [cut_of_not_mem hfragment', cut_of_not_mem hquery']
  · refine urlsplit_eq_some.mpr ⟨scheme, rest, netloc, after, hsplit, hlocation, haccepted, ?_⟩
    have hfragment'' : '#' ∉ after := fun hc => hfragment' (List.mem_append_left _ hc)
    have hquery'' : '?' ∉ after := fun hc => hquery' (List.mem_append_left _ hc)
    simp only [cut_of_not_mem hfragment', cut_of_not_mem hquery', cut_of_not_mem hfragment'',
      cut_of_not_mem hquery'']

/-- `text.rstrip("/")` -/
def rstripSlashes (text : List Char) : List Char := text.rdropWhile (· = '/')

/-- Without its last slashes, a URL has the same scheme and network location, and its path is the same
up to its last slashes. -/
theorem urlsplit_rstripSlashes {url : List Char} {parts : SplitResult}
    (h : urlsplit accepted url = some parts) (hscheme : parts.scheme ≠ [])
    (hnetloc : parts.netloc ≠ []) (hquery : '?' ∉ url) (hfragment : '#' ∉ url) :
    ∃ path, urlsplit accepted (rstripSlashes url) = some { parts with path := path } ∧
      rstripSlashes path = rstripSlashes parts.path := by
  induction url using List.reverseRecOn generalizing parts with
  | nil => exact ⟨parts.path, h, rfl⟩
  | append_singleton url c ih =>
    by_cases hc : c = '/'
    · subst hc
      have hquery' : '?' ∉ url := fun hmem => hquery (List.mem_append_left _ hmem)
      have hfragment' : '#' ∉ url := fun hmem => hfragment (List.mem_append_left _ hmem)
      obtain ⟨before, hbefore, hurl⟩ := urlsplit_dropSlash h hscheme hnetloc hquery' hfragment'
      obtain ⟨path, hsplit, hpath⟩ := ih hurl hscheme hnetloc hquery' hfragment'
      have hstrip : ∀ text : List Char, rstripSlashes (text ++ ['/']) = rstripSlashes text :=
        fun text => List.rdropWhile_concat_pos _ _ _ (by simp)
      refine ⟨path, ?_, ?_⟩
      · rw [hstrip]
        exact hsplit
      · rw [hpath, hbefore, hstrip]
    · have hstrip : rstripSlashes (url ++ [c]) = url ++ [c] :=
        List.rdropWhile_concat_neg _ _ _ (by simpa using hc)
      refine ⟨parts.path, ?_, rfl⟩
      rw [hstrip]
      exact h

end OsScanner.Lib.Url

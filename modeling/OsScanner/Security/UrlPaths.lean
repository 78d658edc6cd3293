import Mathlib
import OsScanner.Lib.Method
import OsScanner.Lib.PercentEncoding
import OsScanner.Lib.UrlSplit

/-!
# API paths

`app/security/url_paths.py`. A path is checked in its raw form and in the form that no more
decoding changes. The forms in between need no check of their own: what must not stand in a path
is plain text, and decoding leaves plain text where it is.
-/

namespace OsScanner.Security

open Lib Lib.Check Lib.Percent Lib.Url

/-! ## The checks -/

inductive PathErrorKind where
  | path
  | placeholder
  deriving DecidableEq, Repr

/-- `ApiPathValidationError`, or the `ValueError` of `urlsplit`. -/
inductive PathError where
  | apiPath (message : String) (kind : PathErrorKind)
  | valueError
  deriving DecidableEq, Repr

def openBrace : Char := '\x7b'

def closeBrace : Char := '\x7d'

/-- `_PLACEHOLDER.findall(value)`. The first argument is the name read since the last opening brace. -/
def placeholders : Option (List Char) → List Char → List (List Char)
  | _, [] => []
  | name, c :: rest =>
    if c = openBrace then placeholders (some []) rest
    else if c = closeBrace then
      match name with
      | none => placeholders none rest
      | some name => if name = [] then placeholders none rest else name :: placeholders none rest
    else placeholders (name.map (· ++ [c])) rest

/-- Two hexadecimal digits come first. -/
def startsWithDigits : List Char → Bool
  | a :: b :: _ => (byteOf a b).isSome
  | _ => false

/-- `_INVALID_PERCENT_ESCAPE.search(value)` -/
def hasInvalidEscape : List Char → Bool
  | [] => false
  | c :: rest => (decide (c = '%') && !startsWithDigits rest) || hasInvalidEscape rest

/-- The loop of `_fully_unquote`, with the passes that are left. -/
def fullyUnquoteLoop : Nat → List Char → Except PathError (List Char)
  | 0, _ => .error (.apiPath "API path percent encoding is too deeply nested" .path)
  | passes + 1, current =>
    if '%' ∉ current then .ok current
    else if hasInvalidEscape current = true then
      .error (.apiPath "API path contains a malformed percent escape" .path)
    else
      match unquote current with
      | none => .error (.apiPath "API path percent encoding is invalid" .path)
      | some decoded => if decoded = current then .ok current else fullyUnquoteLoop passes decoded

/-- `_fully_unquote(value)` -/
def fullyUnquote (value : List Char) : Except PathError (List Char) :=
  fullyUnquoteLoop (value.length + 1) value

/-- `_contains_unsafe_character(value)` -/
def containsUnsafeCharacter (value : List Char) : Bool :=
  value.any fun c => decide (c.toNat ≤ 32) || decide (c.toNat = 127) || decide (c.toNat > 126)

/-- `_contains_control_or_non_ascii(value)` -/
def containsControlOrNonAscii (value : List Char) : Bool :=
  value.any fun c => decide (c.toNat < 32) || decide (c.toNat = 127) || decide (c.toNat > 126)

/-- `value.replace(old, new)` for an `old` that is not empty. The first argument counts the characters of
`old` that are still to be skipped. -/
def replaceFrom (old new : List Char) : Nat → List Char → List Char
  | _, [] => []
  | skip + 1, _ :: rest => replaceFrom old new skip rest
  | 0, c :: rest =>
    if old <+: c :: rest then new ++ replaceFrom old new (old.length - 1) rest
    else c :: replaceFrom old new 0 rest

/-- The path with an identifier for each placeholder. -/
def fillPlaceholders (expected : List (List Char)) (value : List Char) : List Char :=
  expected.foldl (fun path name =>
    replaceFrom (openBrace :: name ++ [closeBrace]) "validated-id".toList 0 path) value

/-- A segment that stands for a directory. -/
def isDotSegment (segment : List Char) : Bool :=
  decide (segment = ['.']) || decide (segment = ['.', '.'])

/-- `any(segment in {".", ".."} for segment in path.split("/"))` -/
def hasDotSegment (path : List Char) : Bool := (path.splitOn '/').any isDotSegment

variable (accepted : List Char → Bool)

/-- `validate_api_path(value)`, with the placeholders in the order in which Python iterates over them. -/
def validateApiPath (value : String) (expected : List (List Char) := []) (maxLength : Nat := 2048)
    (allowEncodedPathData : Bool := false) : Except PathError String := do
  let raw := value.toList
  raiseIf (¬ (1 ≤ raw.length ∧ raw.length ≤ maxLength))
    (.apiPath "API path length is invalid" .path)
  raiseIf ((placeholders none raw).toFinset ≠ expected.toFinset ∨
      ¬ (raw.count openBrace = expected.length ∧ raw.count closeBrace = expected.length))
    (.apiPath "API path placeholders are invalid" .placeholder)
  let fullyDecoded ← fullyUnquote raw
  raiseIf (expected ≠ [] ∧ (placeholders none fullyDecoded).toFinset ≠ expected.toFinset)
    (.apiPath "API path placeholders are invalid" .placeholder)
  let checkPath := fillPlaceholders expected raw
  let decodedPath ← fullyUnquote checkPath
  let parsed ← (urlsplit accepted checkPath).elim (.error .valueError) .ok
  raiseIf (¬ ['/'] <+: checkPath ∨ ['/', '/'] <+: checkPath ∨ ['/', '/'] <+: decodedPath ∨
      parsed.scheme ≠ [] ∨ parsed.netloc ≠ [] ∨ '?' ∈ checkPath ∨ '#' ∈ checkPath ∨
      parsed.query ≠ [] ∨ parsed.fragment ≠ [] ∨ '\\' ∈ decodedPath ∨ openBrace ∈ decodedPath ∨
      closeBrace ∈ decodedPath ∨ containsUnsafeCharacter checkPath = true ∨
      containsControlOrNonAscii decodedPath = true ∨
      (allowEncodedPathData = false ∧ ('?' ∈ decodedPath ∨ '#' ∈ decodedPath ∨
        containsUnsafeCharacter decodedPath = true)) ∨
      hasDotSegment decodedPath = true)
    (.apiPath "API path is not a safe absolute path" .path)
  .ok value

/-- `validate_base_url_path(path)` -/
def validateBaseUrlPath (path : List Char) : Except PathError Unit := do
  let decodedPath ← fullyUnquote path
  raiseIf ('\\' ∈ decodedPath ∨ '?' ∈ decodedPath ∨ '#' ∈ decodedPath ∨ openBrace ∈ decodedPath ∨
      closeBrace ∈ decodedPath ∨ containsUnsafeCharacter path = true ∨
      containsUnsafeCharacter decodedPath = true ∨ ['/', '/'] <+: decodedPath ∨
      hasDotSegment decodedPath = true)
    (.apiPath "cloud API base URL contains an invalid path" .path)

/-! ## Safe paths -/

/-- A character that must not stand in a path. -/
def isForbidden (c : Char) : Bool :=
  decide (c ∈ ['\\', openBrace, closeBrace, '?', '#']) || decide (c.toNat ≤ 32) || decide (126 < c.toNat)

/-- Nothing in the text leads out of its directory or out of the path of a URL. -/
structure IsSafe (path : List Char) : Prop where
  not_forbidden : ∀ c ∈ path, isForbidden c = false
  not_double_slash : ¬ ['/', '/'] <+: path
  not_dot_segment : hasDotSegment path = false

theorem isPlain_of_isForbidden {c : Char} (h : isForbidden c = true) : IsPlain c := by
  rw [isForbidden, Bool.or_eq_true, Bool.or_eq_true, decide_eq_true_eq, decide_eq_true_eq,
    decide_eq_true_eq] at h
  rcases h with (h | h) | h
  · simp only [List.mem_cons, List.not_mem_nil, or_false] at h
    rcases h with rfl | rfl | rfl | rfl | rfl
    · decide
    · decide
    · decide
    · decide
    · decide
  · exact isPlain_of_toNat (Or.inl (by omega))
  · exact isPlain_of_toNat (Or.inr (by omega))

/-- What is safe after decoding was safe before. -/
theorem IsSafe.of_unquote {path decoded : List Char} (h : unquote path = some decoded)
    (hsafe : IsSafe decoded) : IsSafe path := by
  refine ⟨fun c hc => ?_, fun hstart => ?_, ?_⟩
  · by_contra hforbidden
    rw [Bool.not_eq_false] at hforbidden
    have hmem := mem_unquote (isPlain_of_isForbidden hforbidden) h hc
    rw [hsafe.not_forbidden c hmem] at hforbidden
    cases hforbidden
  · refine hsafe.not_double_slash (prefix_unquote (fun c hc => ?_) h hstart)
    have hslash : c = '/' := by simpa using hc
    rw [hslash]
    decide
  · by_contra hdots
    rw [Bool.not_eq_false, hasDotSegment, List.any_eq_true] at hdots
    obtain ⟨segment, hmem, hdot⟩ := hdots
    have hsegment : unquote segment = some segment ∧ '/' ∉ segment := by
      rw [isDotSegment, Bool.or_eq_true, decide_eq_true_eq, decide_eq_true_eq] at hdot
      rcases hdot with rfl | rfl
      · exact ⟨by decide, by decide⟩
      · exact ⟨by decide, by decide⟩
    have hlater := mem_splitOn_unquote (by decide) hsegment.1 h hmem hsegment.2
    have hdots : hasDotSegment decoded = true := List.any_eq_true.mpr ⟨segment, hlater, hdot⟩
    rw [hsafe.not_dot_segment] at hdots
    cases hdots

/-- Every decoding of the text leads to the one that `_fully_unquote` returns. -/
theorem exists_unquoteTimes {passes : Nat} {value final : List Char}
    (h : fullyUnquoteLoop passes value = .ok final) (k : Nat) :
    ∃ decoded m, unquoteTimes k value = some decoded ∧ unquoteTimes m decoded = some final := by
  induction passes generalizing value k with
  | zero => cases h
  | succ passes ih =>
    have hdone : unquote value = some value → final = value →
        ∃ decoded m, unquoteTimes k value = some decoded ∧ unquoteTimes m decoded = some final := by
      rintro hfixed rfl
      exact ⟨final, 0, unquoteTimes_of_fixed hfixed k, rfl⟩
    rw [fullyUnquoteLoop] at h
    split at h
    · next hnone => exact hdone (unquote_of_not_mem hnone) (Except.ok.inj h).symm
    split at h
    · cases h
    split at h
    · cases h
    · next decoded hdecoded =>
      split at h
      · next heq => exact hdone (heq ▸ hdecoded) (Except.ok.inj h).symm
      · cases k with
        | zero =>
          obtain ⟨later, m, hlater, hm⟩ := ih h 0
          cases hlater
          refine ⟨value, m + 1, rfl, ?_⟩
          rw [unquoteTimes, hdecoded]
          exact hm
        | succ k =>
          obtain ⟨later, m, hlater, hm⟩ := ih h k
          refine ⟨later, m, ?_, hm⟩
          rw [unquoteTimes, hdecoded]
          exact hlater

/-- A path is safe, and so is every text that decoding makes of it. -/
structure IsSafeThroughout (path : List Char) : Prop where
  safe : ∀ k, ∃ decoded, unquoteTimes k path = some decoded ∧ IsSafe decoded

theorem IsSafeThroughout.of_fullyUnquote {path final : List Char} (h : fullyUnquote path = .ok final)
    (hsafe : IsSafe final) : IsSafeThroughout path := by
  constructor
  intro k
  obtain ⟨decoded, m, hdecoded, hm⟩ := exists_unquoteTimes h k
  exact ⟨decoded, hdecoded, unquoteTimes_backward IsSafe.of_unquote hm hsafe⟩

/-- The last slashes of a safe path can go. -/
theorem IsSafeThroughout.rstrip {path : List Char} (h : IsSafeThroughout path) :
    IsSafeThroughout (rstripSlashes path) := by
  have hslashes : ∀ c ∈ path.rtakeWhile (· = '/'), c = '/' := fun c hc => by
    simpa using List.mem_rtakeWhile_imp hc
  have hpath : rstripSlashes path ++ path.rtakeWhile (· = '/') = path :=
    List.rdropWhile_append_rtakeWhile
  cases htake : path.rtakeWhile (· = '/') with
  | nil =>
    rw [htake, List.append_nil] at hpath
    rw [hpath]
    exact h
  | cons c slashes =>
    rw [htake] at hpath hslashes
    obtain rfl := hslashes c List.mem_cons_self
    constructor
    intro k
    obtain ⟨decoded, hdecoded, hsafe⟩ := h.safe k
    rw [← hpath, unquoteTimes_append_plain (by decide), Option.bind_eq_some_iff] at hdecoded
    obtain ⟨before, hbefore, hafter⟩ := hdecoded
    obtain ⟨after, -, rfl⟩ := Option.map_eq_some_iff.mp hafter
    refine ⟨before, hbefore, fun d hd => ?_, fun hstart => ?_, ?_⟩
    · exact hsafe.not_forbidden d (List.mem_append_left _ hd)
    · exact hsafe.not_double_slash (hstart.trans (List.prefix_append _ _))
    · have hdots := hsafe.not_dot_segment
      rw [hasDotSegment, List.splitOn_append_cons_self, List.any_append, Bool.or_eq_false_iff] at hdots
      exact hdots.1

variable {accepted : List Char → Bool}

/-- The checks on the decoded form, except that it starts with a slash. -/
theorem isSafe_of_checks {decoded : List Char} (hbackslash : '\\' ∉ decoded)
    (hopen : openBrace ∉ decoded) (hclose : closeBrace ∉ decoded) (hquery : '?' ∉ decoded)
    (hfragment : '#' ∉ decoded) (hdangerous : containsUnsafeCharacter decoded = false)
    (hdouble : ¬ ['/', '/'] <+: decoded) (hdots : hasDotSegment decoded = false) : IsSafe decoded := by
  refine ⟨fun c hc => ?_, hdouble, hdots⟩
  have hrange : ¬ (c.toNat ≤ 32 ∨ 126 < c.toNat) := by
    intro hbad
    have hc' := List.any_eq_false.mp hdangerous c hc
    simp only [Bool.or_eq_true, decide_eq_true_eq] at hc'
    omega
  rw [isForbidden]
  simp only [List.mem_cons, List.not_mem_nil, or_false, Bool.or_eq_false_iff, decide_eq_false_iff_not]
  refine ⟨⟨?_, fun h => hrange (Or.inl h)⟩, fun h => hrange (Or.inr h)⟩
  rintro (rfl | rfl | rfl | rfl | rfl)
  · exact hbackslash hc
  · exact hopen hc
  · exact hclose hc
  · exact hquery hc
  · exact hfragment hc

/-- What the checks of a path without placeholders say. -/
structure IsApiPath (path : List Char) : Prop extends IsSafeThroughout path where
  slash : path.head? = some '/'
  visible : ∀ c ∈ path, 32 < c.toNat

/-- The slash is plain text. -/
theorem isPlain_slash : ∀ c ∈ ['/'], IsPlain c := by
  intro c hc
  rw [List.mem_singleton.mp hc]
  decide

theorem head?_of_prefix {c : Char} {path : List Char} (h : [c] <+: path) : path.head? = some c := by
  obtain ⟨rest, rfl⟩ := h
  rfl

/-- An accepted path is checked in both modes with the same result, and is safe. -/
theorem isApiPath_of_validateApiPath {value path : String}
    (h : validateApiPath accepted value = .ok path) : path = value ∧ IsApiPath value.toList := by
  simp only [validateApiPath, bind_eq_ok, raiseIf_eq_ok, exists_const, Except.ok.injEq] at h
  obtain ⟨-, -, first, -, -, final, hfinal, parsed, -, hchecks, rfl⟩ := h
  simp only [fillPlaceholders, List.foldl_nil, not_or, not_not, true_and, Bool.not_eq_true] at hchecks hfinal
  obtain ⟨hslash, -, hdouble, -, -, -, -, -, -, hbackslash, hopen, hclose, hraw, -,
    ⟨hquery, hfragment, hdangerous⟩, hdots⟩ := hchecks
  refine ⟨rfl, IsSafeThroughout.of_fullyUnquote hfinal ?_, head?_of_prefix hslash, fun c hc => ?_⟩
  · exact isSafe_of_checks hbackslash hopen hclose hquery hfragment hdangerous hdouble hdots
  · have hc' := List.any_eq_false.mp hraw c hc
    simp only [Bool.or_eq_true, decide_eq_true_eq] at hc'
    omega

/-- The mode in which a path may contain encoded data accepts what the default mode accepts. -/
theorem validateApiPath_encoded {value path : String} (h : validateApiPath accepted value = .ok path) :
    validateApiPath accepted value [] 2048 true = .ok path := by
  simp only [validateApiPath, bind_eq_ok, raiseIf_eq_ok, exists_const, Except.ok.injEq] at h ⊢
  obtain ⟨hlength, hnames, first, hfirst, hplaceholders, final, hfinal, parsed, hparsed, hchecks, rfl⟩ := h
  refine ⟨hlength, hnames, first, hfirst, hplaceholders, final, hfinal, parsed, hparsed, ?_, rfl⟩
  -- the check of the default mode falls away
  intro hbad
  refine hchecks ?_
  iterate 14 refine hbad.imp_right fun hbad => ?_
  rcases hbad with ⟨hmode, -⟩ | hdots
  · cases hmode
  · exact Or.inr hdots

theorem isSafeThroughout_of_validateBaseUrlPath {path : List Char}
    (h : validateBaseUrlPath path = .ok ()) : IsSafeThroughout path := by
  simp only [validateBaseUrlPath, bind_eq_ok, raiseIf_eq_ok, not_or, Bool.not_eq_true] at h
  obtain ⟨final, hfinal, hbackslash, hquery, hfragment, hopen, hclose, -, hdangerous, hdouble, hdots⟩ := h
  refine IsSafeThroughout.of_fullyUnquote hfinal ?_
  exact isSafe_of_checks hbackslash hopen hclose hquery hfragment hdangerous hdouble hdots

/-- No decoding removes the slash. -/
theorem head?_unquoteTimes {k : Nat} {path decoded : List Char} (h : unquoteTimes k path = some decoded)
    (hslash : path.head? = some '/') : decoded.head? = some '/' := by
  refine unquoteTimes_invariant (P := fun path => path.head? = some '/') ?_ h hslash
  intro value decoded hdecoded hvalue
  refine head?_of_prefix (prefix_unquote isPlain_slash hdecoded ?_)
  cases value with
  | nil => cases hvalue
  | cons c value =>
    cases hvalue
    exact ⟨value, rfl⟩

end OsScanner.Security

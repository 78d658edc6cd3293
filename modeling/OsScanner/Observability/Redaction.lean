import Mathlib
import OsScanner.Lib.Merge
import OsScanner.Json.Texts
import OsScanner.Security.Redaction

/-!
# Redaction of log fields

`app/observability/redaction.py`: what is logged is copied with limits on its depth, its lists and
its texts. Fields with the name of a secret are replaced as a whole; in texts secrets are substituted,
and every character that would end a line is written out.
-/

namespace OsScanner.Observability

open Lib Security

/-! ## Configuration -/

/-- `RedactionConfig` -/
structure RedactionConfig where
  replacement : String := "[REDACTED]"
  maxStringLength : Nat := 4096
  maxCollectionItems : Nat := 100
  maxDepth : Nat := 12
  string_range : 64 ≤ maxStringLength ∧ maxStringLength ≤ 1000000
  items_range : 1 ≤ maxCollectionItems ∧ maxCollectionItems ≤ 10000
  depth_range : 1 ≤ maxDepth ∧ maxDepth ≤ 100

theorem standardString : 64 ≤ 4096 ∧ 4096 ≤ 1000000 := by decide
theorem standardItems : 1 ≤ 100 ∧ 100 ≤ 10000 := by decide
theorem standardDepth : 1 ≤ 12 ∧ 12 ≤ 100 := by decide

/-- `RedactionConfig()` -/
def RedactionConfig.standard : RedactionConfig where
  string_range := standardString
  items_range := standardItems
  depth_range := standardDepth

/-- `Redactor`, with the word characters of `re` and `str.lower()`. -/
structure Redactor where
  config : RedactionConfig
  isWord : Char → Bool
  lower : String → String

namespace Redactor

variable (r : Redactor)

/-! ## Texts -/

/-- `[^\s,;]+` -/
def plainValue : Pattern := .atLeast 1 fun c => !(Storage.isSpace c || ",;".toList.contains c)

/-- `_PRIVATE_KEY_PATTERN` -/
def privateKeyRule : Rule where
  dropped :=
    let kind : Pattern := .many true fun c => isUpper c || c == ' '
    .seqs [text "-----BEGIN ", kind, text "PRIVATE KEY-----", .many false fun _ => true,
      text "-----END ", kind, text "PRIVATE KEY-----"]
  replacement := r.config.replacement.toList

/-- `_AUTH_PATTERN`, whose match becomes its first group, an equals sign and the replacement -/
def authRule : Rule where
  kept := .seqs [boundary r.isWord, .alts [word "authorization", word "proxy-authorization"]]
  dropped := .seqs [.many true Storage.isSpace, .char fun c => c == ':' || c == '=',
    .many true Storage.isSpace,
    .optional (.alts [.seq (word "bearer") spaces, .seq (word "basic") spaces]), plainValue]
  replacement := '=' :: r.config.replacement.toList

/-- `_QUERY_PATTERN`; the equals sign ends its group. -/
def queryRule : Rule where
  kept := .seqs [.char fun c => c == '?' || c == '&',
    .alts [word "access_token", word "refresh_token", word "token", word "api_key", word "apikey",
      word "password", word "secret"]]
  dropped := .seqs [text "=", .many true fun c => !(Storage.isSpace c || "&#".toList.contains c)]
  replacement := '=' :: r.config.replacement.toList

/-- `_ARGUMENT_PATTERN` -/
def argumentRule : Rule where
  kept := .seqs [.alt (text "--") (text "-"),
    .alts [word "password", word "passwd", word "token", word "api-key", word "apikey",
      word "secret"],
    .alts [text "=", spaces]]
  dropped := .alts [
    .seqs [text "\"", .many true fun c => c != '"', text "\""],
    .seqs [text "'", .many true fun c => c != '\'', text "'"],
    .atLeast 1 fun c => !Storage.isSpace c]
  replacement := r.config.replacement.toList

/-- `_ASSIGNMENT_PATTERN` -/
def assignmentRule : Rule where
  kept := .seqs [boundary r.isWord,
    .alts [word "password", word "passwd", word "access_token", word "refresh_token",
      word "api_key", word "client_secret"]]
  dropped := .seqs [.many true Storage.isSpace, text "=", .many true Storage.isSpace, plainValue]
  replacement := '=' :: r.config.replacement.toList

/-- `_JWT_PATTERN` -/
def jwtRule : Rule where
  dropped := .seqs [boundary r.isWord, text "eyJ", .atLeast 8 isTokenChar, text ".",
    .atLeast 8 isTokenChar, text ".", .atLeast 8 isTokenChar, boundary r.isWord]
  replacement := r.config.replacement.toList
  dropped_pos := Nat.zero_lt_succ _

/-- The substitutions of `text` in their order. -/
def rules : List Rule :=
  [r.privateKeyRule, r.authRule, r.queryRule, r.argumentRule, r.assignmentRule, r.jwtRule]

/-- A character that neither ends a line nor controls a terminal. -/
def isLineChar (c : Char) : Bool :=
  decide (32 ≤ c.toNat ∧ c.toNat ≠ 127 ∧ c ≠ '\u2028' ∧ c ≠ '\u2029')

/-- What the replacements after the substitutions make of a character. -/
def writtenOut (c : Char) : List Char :=
  if c = '\r' then ['\\', 'r']
  else if c = '\n' then ['\\', 'n']
  else if c = '\u2028' then ['\\', 'u', '2', '0', '2', '8']
  else if c = '\u2029' then ['\\', 'u', '2', '0', '2', '9']
  else if 32 ≤ c.toNat ∧ c.toNat ≠ 127 then [c]
  else ['?']

def cutMark : String := "...[TRUNCATED]"

/-- `text(value)` of a text -/
def text (value : String) : String :=
  let text := ((r.rules.foldl (fun text rule => rule.sub text) value.toList)).flatMap writtenOut
  if text.length > r.config.maxStringLength then
    String.ofList (text.take r.config.maxStringLength) ++ cutMark
  else String.ofList text

/-! ## Keys -/

/-- `re.sub(r"[^a-z0-9]+", "_", …)`, where the flag says that an underscore has just been written -/
def underscored : Bool → List Char → List Char
  | _, [] => []
  | written, c :: rest =>
    if isLower c || c.isDigit then c :: underscored false rest
    else if written then underscored true rest
    else '_' :: underscored true rest

/-- `_normalized_key(value)` -/
def normalizedKey (key : String) : String :=
  String.ofList (((underscored false (r.lower key).toList).dropWhile (· == '_')).rdropWhile (· == '_'))

/-- `_SENSITIVE_KEYS` -/
def sensitiveKeys : List String :=
  ["authorization", "proxy_authorization", "password", "passwd", "password_hash", "secret",
    "client_secret", "api_key", "apikey", "access_token", "refresh_token", "session_token",
    "enrollment_token", "credential", "credentials", "cookie", "cookies", "set_cookie",
    "private_key"]

def sensitiveEndings : List String := ["_token", "_secret", "_password", "_private_key"]

/-- `_sensitive_key(value)` -/
def sensitiveKey (key : String) : Bool :=
  let key := r.normalizedKey key
  sensitiveKeys.contains key || sensitiveEndings.any fun ending => ending.toList.isSuffixOf key.toList

end Redactor

/-! ## Values -/

/-- What a caller logs. Keys are there as their texts. -/
inductive LogValue where
  | null
  | bool (b : Bool)
  | int (n : Int)
  | float (f : PyFloat)
  | str (s : String)
  /-- `bytes` of this length -/
  | bytes (length : Nat)
  /-- A member of an enumeration, a path or some other object, as its text. -/
  | shown (s : String)
  /-- A list, a tuple or a set in the order of its iteration. -/
  | list (items : List LogValue)
  /-- A mapping, or the dump of a model or a data class. -/
  | dict (entries : List (String × LogValue))

/-- `dict[str, Any]` -/
abbrev Fields := List (String × LogValue)

/-- Induction over a value: the hypotheses reach every item and every entry. -/
@[elab_as_elim, induction_eliminator]
theorem LogValue.induction {P : LogValue → Prop} (null : P .null) (bool : ∀ b, P (.bool b))
    (int : ∀ n, P (.int n)) (float : ∀ f, P (.float f)) (str : ∀ s, P (.str s))
    (bytes : ∀ length, P (.bytes length)) (shown : ∀ s, P (.shown s))
    (list : ∀ items, (∀ v ∈ items, P v) → P (.list items))
    (dict : ∀ entries : Fields, (∀ e ∈ entries, P e.2) → P (.dict entries)) (v : LogValue) : P v :=
  LogValue.rec (motive_1 := P) (motive_2 := fun l => ∀ v ∈ l, P v)
    (motive_3 := fun l => ∀ e ∈ l, P e.2) (motive_4 := fun e => P e.2)
    null bool int float str bytes shown list dict
    (by simp) (fun _ _ hv hl => List.forall_mem_cons.mpr ⟨hv, hl⟩)
    (by simp) (fun _ _ he hl => List.forall_mem_cons.mpr ⟨he, hl⟩)
    (fun _ _ hv => hv) v

namespace Redactor

variable (r : Redactor)

def depthMark : String := "[MAX_DEPTH]"
def binaryMark (length : Nat) : String := "[BINARY " ++ toString length ++ " bytes]"
def itemsMark (count : Nat) : String := "[TRUNCATED " ++ toString count ++ " ITEMS]"
def itemsKey : String := "_truncated_items"

/-- `if depth >= self.config.max_depth: return "[MAX_DEPTH]"` -/
def shallow (depth : Nat) (inner : Json) : Json :=
  if depth ≥ r.config.maxDepth then .str depthMark else inner

/-- The copies of the first items, and how many more there are. -/
def listed (copies : List Json) : List Json :=
  copies.take r.config.maxCollectionItems ++
    if copies.length > r.config.maxCollectionItems then
      [.str (itemsMark (copies.length - r.config.maxCollectionItems))]
    else []

/-- `mapped_result`: of two keys with one clean text the later one counts. -/
def mapped (copies : JsonObject) : JsonObject :=
  let fields := Assoc.merge [] (copies.take r.config.maxCollectionItems)
  if copies.length > r.config.maxCollectionItems then
    Assoc.insert itemsKey (.int (copies.length - r.config.maxCollectionItems)) fields
  else fields

mutual

/-- `_value(value, depth=…)`; a tree has no value inside itself. -/
def value (depth : Nat) : LogValue → Json
  | .null => r.shallow depth .null
  | .bool b => r.shallow depth (.bool b)
  | .int n => r.shallow depth (.int n)
  | .float f => r.shallow depth (.float f)
  | .str s => r.shallow depth (.str (r.text s))
  | .bytes length => r.shallow depth (.str (binaryMark length))
  | .shown s => r.shallow depth (.str (r.text s))
  | .list items => r.shallow depth (.arr (r.listed (values (depth + 1) items)))
  | .dict entries => r.shallow depth (.obj (r.mapped (fieldValues (depth + 1) entries)))

/-- The items are copied one by one; only the first ones are kept. -/
def values (depth : Nat) : List LogValue → List Json
  | [] => []
  | item :: items => value depth item :: values depth items

def fieldValues (depth : Nat) : Fields → JsonObject
  | [] => []
  | (key, item) :: entries =>
    (r.text key, if r.sensitiveKey key then .str r.config.replacement else value depth item) ::
      fieldValues depth entries

end

theorem values_eq (depth : Nat) (items : List LogValue) :
    r.values depth items = items.map (r.value depth) := by
  induction items with
  | nil => rfl
  | cons item items ih => rw [values, ih, List.map_cons]

theorem fieldValues_eq (depth : Nat) (entries : Fields) :
    r.fieldValues depth entries = entries.map fun e =>
      (r.text e.1, if r.sensitiveKey e.1 then .str r.config.replacement else r.value depth e.2) := by
  induction entries with
  | nil => rfl
  | cons e entries ih => rw [fieldValues, ih, List.map_cons]

/-! ## What stands under the name of a secret -/

mutual

/-- The value without what it holds under the names of secrets. -/
def hide : LogValue → LogValue
  | .list items => .list (hideItems items)
  | .dict entries => .dict (hideFields entries)
  | v => v

def hideItems : List LogValue → List LogValue
  | [] => []
  | item :: items => hide item :: hideItems items

def hideFields : Fields → Fields
  | [] => []
  | (key, item) :: entries =>
    (key, if r.sensitiveKey key then .null else hide item) :: hideFields entries

end

theorem hideItems_eq (items : List LogValue) : r.hideItems items = items.map r.hide := by
  induction items with
  | nil => rfl
  | cons item items ih => rw [hideItems, ih, List.map_cons]

theorem hideFields_eq (entries : Fields) : r.hideFields entries =
    entries.map fun e => (e.1, if r.sensitiveKey e.1 then .null else r.hide e.2) := by
  induction entries with
  | nil => rfl
  | cons e entries ih => rw [hideFields, ih, List.map_cons]

/-- The copy is made without looking at what stands under the name of a secret. -/
theorem value_hide (v : LogValue) : ∀ depth, r.value depth (r.hide v) = r.value depth v := by
  induction v with
  | list items ih =>
    intro depth
    have hitems : (items.map r.hide).map (r.value (depth + 1)) =
        items.map (r.value (depth + 1)) := by
      rw [List.map_map]
      exact List.map_congr_left fun v hv => ih v hv (depth + 1)
    rw [hide, value, value, hideItems_eq, values_eq, values_eq, hitems]
  | dict entries ih =>
    intro depth
    have hentries : r.fieldValues (depth + 1) (r.hideFields entries) =
        r.fieldValues (depth + 1) entries := by
      rw [hideFields_eq, fieldValues_eq, fieldValues_eq, List.map_map]
      refine List.map_congr_left fun e he => ?_
      simp only [Function.comp_apply, Prod.mk.injEq, true_and]
      split
      · rfl
      · exact ih e he (depth + 1)
    rw [hide, value, value, hentries]
  | _ => exact fun _ => rfl

theorem fieldValues_eq_of_hide_eq {entries others : Fields}
    (h : r.hideFields entries = r.hideFields others) (depth : Nat) :
    r.fieldValues depth entries = r.fieldValues depth others := by
  have hhide : ∀ entries : Fields,
      r.fieldValues depth (r.hideFields entries) = r.fieldValues depth entries := by
    intro entries
    rw [hideFields_eq, fieldValues_eq, fieldValues_eq, List.map_map]
    refine List.map_congr_left fun e _ => ?_
    simp only [Function.comp_apply, Prod.mk.injEq, true_and]
    split
    · rfl
    · exact r.value_hide e.2 depth
  rw [← hhide entries, h, hhide others]

theorem hideFields_merge (entries others : Fields) :
    r.hideFields (Assoc.merge entries others) =
      Assoc.merge (r.hideFields entries) (r.hideFields others) := by
  rw [hideFields_eq, hideFields_eq, hideFields_eq]
  exact (Assoc.merge_map (fun key v => if r.sensitiveKey key then .null else r.hide v)
    others entries).symm

/-! ## Clean texts -/

theorem isLineChar_of_visible {c : Char} (h : Json.visible c = true) : isLineChar c = true := by
  have hrange := of_decide_eq_true h
  have hfar : ∀ d : Char, 127 ≤ d.toNat → c ≠ d := by
    rintro d hd rfl
    omega
  exact decide_eq_true ⟨hrange.1, by omega, hfar _ (by decide), hfar _ (by decide)⟩

theorem isLineChar_writtenOut (c : Char) : ∀ x ∈ writtenOut c, isLineChar x = true := by
  have hvisible : ∀ l : List Char, l.all Json.visible = true → ∀ x ∈ l, isLineChar x = true :=
    fun l => Json.forall_of_visible fun _ => isLineChar_of_visible
  unfold writtenOut
  split_ifs with h₁ h₂ h₃ h₄ h₅
  · exact hvisible _ rfl
  · exact hvisible _ rfl
  · exact hvisible _ rfl
  · exact hvisible _ rfl
  · intro x hx
    rw [List.mem_singleton.mp hx]
    exact decide_eq_true ⟨h₅.1, h₅.2, h₃, h₄⟩
  · exact hvisible _ rfl

/-- A text that the redactor has made: no character ends the line, and it is cut or a mark. -/
structure LoggedText (t : String) : Prop where
  clean : ∀ c ∈ t.toList, isLineChar c = true
  short : t.length ≤ r.config.maxStringLength + 14 ∨ ∃ n, t = binaryMark n ∨ t = itemsMark n

theorem loggedText_text (s : String) : r.LoggedText (r.text s) := by
  have hclean : ∀ chars : List Char, ∀ c ∈ chars.flatMap writtenOut, isLineChar c = true := by
    intro chars c hc
    obtain ⟨x, -, hx⟩ := List.mem_flatMap.mp hc
    exact isLineChar_writtenOut x c hx
  have hmark : ∀ c ∈ cutMark.toList, isLineChar c = true :=
    Json.forall_of_visible (fun _ => isLineChar_of_visible) rfl
  unfold text
  extract_lets line
  split
  · refine ⟨?_, Or.inl ?_⟩
    · rw [String.toList_append, String.toList_ofList, List.forall_mem_append]
      exact ⟨fun c hc => hclean _ c (List.mem_of_mem_take hc), hmark⟩
    · rw [String.length_append, String.length_ofList]
      exact Nat.add_le_add (List.length_take_le _ _) (le_refl 14)
  · next hlength =>
    refine ⟨?_, Or.inl ?_⟩
    · rw [String.toList_ofList]
      exact hclean _
    · rw [String.length_ofList]
      omega

theorem isLineChar_number (n : Nat) : ∀ c ∈ (toString n).toList, isLineChar c = true := by
  intro c hc
  have hdigits : (toString n).toList = Nat.toDigits 10 n := String.toList_ofList
  rw [hdigits] at hc
  exact isLineChar_of_visible
    (Json.visible_of_isNumberChar (Sample.isNumberChar_of_mem_toDigits hc))

/-- Short visible texts, as the marks are. -/
theorem loggedText_of_visible {t : String} (hvisible : t.toList.all Json.visible = true)
    (hlength : t.length ≤ 64) : r.LoggedText t where
  clean := Json.forall_of_visible (fun _ => isLineChar_of_visible) hvisible
  short := Or.inl (hlength.trans (r.config.string_range.1.trans (Nat.le_add_right _ _)))

theorem loggedText_counted {opening closing : String} {n : Nat} {t : String}
    (ht : t = opening ++ toString n ++ closing) (hopening : opening.toList.all Json.visible = true)
    (hclosing : closing.toList.all Json.visible = true)
    (hmark : ∃ n, t = binaryMark n ∨ t = itemsMark n) : r.LoggedText t where
  clean := by
    have hvisible : ∀ l : List Char, l.all Json.visible = true → ∀ x ∈ l, isLineChar x = true :=
      fun l => Json.forall_of_visible fun _ => isLineChar_of_visible
    rw [ht, String.toList_append, String.toList_append, List.forall_mem_append,
      List.forall_mem_append]
    exact ⟨⟨hvisible _ hopening, isLineChar_number n⟩, hvisible _ hclosing⟩
  short := Or.inr hmark

theorem loggedText_binaryMark (n : Nat) : r.LoggedText (binaryMark n) :=
  r.loggedText_counted rfl rfl rfl ⟨n, Or.inl rfl⟩

theorem loggedText_itemsMark (n : Nat) : r.LoggedText (itemsMark n) :=
  r.loggedText_counted rfl rfl rfl ⟨n, Or.inr rfl⟩

/-! ## The copy -/

/-- The limits that a copy keeps: its width, its depth, and its texts up to the replacement. -/
structure Logged (depth : Nat) (v : Json) : Prop where
  bounded : Json.Bounded (r.config.maxCollectionItems + 1) depth v
  logged : ∀ t ∈ v.texts, t = r.config.replacement ∨ r.LoggedText t

theorem logged_str {depth : Nat} {t : String} (h : r.LoggedText t) : r.Logged depth (.str t) where
  bounded := .str t
  logged := fun s hs => by
    rw [Json.texts, List.mem_singleton] at hs
    exact Or.inr (hs ▸ h)

theorem logged_arr {depth : Nat} {copies : List Json} (h : ∀ v ∈ copies, r.Logged depth v) :
    r.Logged (depth + 1) (.arr (r.listed copies)) := by
  have hlength : (r.listed copies).length ≤ r.config.maxCollectionItems + 1 := by
    rw [listed, List.length_append]
    refine Nat.add_le_add (List.length_take_le _ _) ?_
    split
    · exact le_refl 1
    · exact Nat.zero_le 1
  have hitems : ∀ v ∈ r.listed copies, r.Logged depth v := by
    rw [listed, List.forall_mem_append]
    refine ⟨fun v hv => h v (List.mem_of_mem_take hv), ?_⟩
    split
    · exact List.forall_mem_singleton.mpr (r.logged_str (r.loggedText_itemsMark _))
    · exact List.forall_mem_nil _
  refine ⟨.arr hlength fun v hv => (hitems v hv).bounded, fun t ht => ?_⟩
  rw [Json.texts, Json.mem_textsOfItems] at ht
  obtain ⟨v, hv, ht⟩ := ht
  exact (hitems v hv).logged t ht

theorem logged_obj {depth : Nat} {copies : JsonObject}
    (h : ∀ e ∈ copies, r.LoggedText e.1 ∧ r.Logged depth e.2) :
    r.Logged (depth + 1) (.obj (r.mapped copies)) := by
  have hmerge : (Assoc.merge [] (copies.take r.config.maxCollectionItems)).length ≤
      r.config.maxCollectionItems := by
    have hle := Assoc.length_merge_le (copies.take r.config.maxCollectionItems) []
    rw [List.length_nil, Nat.zero_add] at hle
    exact hle.trans (List.length_take_le _ _)
  have hfields : ∀ e ∈ Assoc.merge [] (copies.take r.config.maxCollectionItems),
      r.LoggedText e.1 ∧ r.Logged depth e.2 :=
    Assoc.forall_mem_merge (List.forall_mem_nil _) fun e he => h e (List.mem_of_mem_take he)
  have hlength : (r.mapped copies).length ≤ r.config.maxCollectionItems + 1 := by
    unfold mapped
    split
    · exact (Assoc.length_insert_le _ _ _).trans (Nat.succ_le_succ hmerge)
    · exact hmerge.trans (Nat.le_succ _)
  have hall : ∀ e ∈ r.mapped copies, r.LoggedText e.1 ∧ r.Logged depth e.2 := by
    unfold mapped
    split
    · intro e he
      rcases Assoc.mem_insert he with rfl | he
      · have hkey : r.LoggedText itemsKey := r.loggedText_of_visible rfl (by decide)
        exact ⟨hkey, .int _, fun _ h => absurd h List.not_mem_nil⟩
      · exact hfields e he
    · exact hfields
  refine ⟨.obj hlength fun e he => (hall e he).2.bounded, fun t ht => ?_⟩
  rw [Json.texts, Json.mem_textsOfFields] at ht
  obtain ⟨e, he, rfl | ht⟩ := ht
  · exact Or.inr (hall e he).1
  · exact (hall e he).2.logged t ht

/-- Above the limit on the depth a mark stands instead of the value. -/
theorem logged_shallow {depth : Nat} {v : Json}
    (h : depth < r.config.maxDepth → r.Logged (r.config.maxDepth - depth) v) :
    r.Logged (r.config.maxDepth - depth) (r.shallow depth v) := by
  unfold shallow
  split
  · exact r.logged_str (r.loggedText_of_visible rfl (by decide))
  · next hdepth => exact h (Nat.lt_of_not_le hdepth)

theorem logged_value (v : LogValue) :
    ∀ depth, r.Logged (r.config.maxDepth - depth) (r.value depth v) := by
  induction v with
  | null | bool | int | float =>
    exact fun depth => r.logged_shallow fun _ => ⟨by constructor, fun _ h => absurd h List.not_mem_nil⟩
  | str s | shown s => exact fun depth => r.logged_shallow fun _ => r.logged_str (r.loggedText_text s)
  | bytes length =>
    exact fun depth => r.logged_shallow fun _ => r.logged_str (r.loggedText_binaryMark length)
  | list items ih =>
    intro depth
    refine r.logged_shallow fun hdepth => ?_
    have hstep : r.config.maxDepth - depth = r.config.maxDepth - (depth + 1) + 1 := by omega
    rw [hstep]
    refine r.logged_arr fun copy hcopy => ?_
    rw [values_eq] at hcopy
    obtain ⟨v, hv, rfl⟩ := List.mem_map.mp hcopy
    exact ih v hv (depth + 1)
  | dict entries ih =>
    intro depth
    refine r.logged_shallow fun hdepth => ?_
    have hstep : r.config.maxDepth - depth = r.config.maxDepth - (depth + 1) + 1 := by omega
    rw [hstep]
    refine r.logged_obj fun copy hcopy => ?_
    rw [fieldValues_eq] at hcopy
    obtain ⟨e, he, rfl⟩ := List.mem_map.mp hcopy
    refine ⟨r.loggedText_text e.1, ?_⟩
    split
    -- What is sensitive is replaced by the one text that the redactor does not make.
    · refine ⟨.str _, fun t ht => Or.inl ?_⟩
      rwa [Json.texts, List.mem_singleton] at ht
    · exact ih e he (depth + 1)

end Redactor

end OsScanner.Observability

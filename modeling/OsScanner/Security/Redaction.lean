import Mathlib
import OsScanner.Lib.Pattern
import OsScanner.Json.Value
import OsScanner.Runtime
import OsScanner.Storage.Database

/-!
# Redaction

`app/security/redaction.py`: secrets are replaced in texts by a row of substitutions, and in
structured values by walking over them. The walk counts the values that it visits and puts a
marker where it would go too deep or on too long; within its limits it is the recursion over
the value that it looks like.
-/

namespace OsScanner.Security

open Lib

def redacted : String := "<redacted>"
def truncated : String := "<truncated>"

/-! ## Patterns -/

/-- A lower-case letter under `re.IGNORECASE`, and a character that is no letter. -/
def sameLetter (c x : Char) : Bool :=
  x == c || x.toLower == c || (c == 's' && x == 'ſ') || (c == 'k' && x == '\u212a') ||
    (c == 'i' && (x == 'İ' || x == 'ı'))

def isLower (c : Char) : Bool := decide ('a' ≤ c ∧ c ≤ 'z')
def isUpper (c : Char) : Bool := decide ('A' ≤ c ∧ c ≤ 'Z')

/-- `[a-z]` under `re.IGNORECASE` -/
def isLetter (c : Char) : Bool := isLower c.toLower || c == 'ſ' || c == '\u212a' || c == 'İ' || c == 'ı'

/-- `[A-Z0-9]` -/
def isUpperOrDigit (c : Char) : Bool := isUpper c || c.isDigit

/-- `[A-Za-z0-9_-]` -/
def isTokenChar (c : Char) : Bool := isUpper c || isLower c || c.isDigit || c == '_' || c == '-'

/-- `[A-Za-z0-9._~+/=-]` under `re.IGNORECASE` -/
def isBearerChar (c : Char) : Bool := isLetter c || c.isDigit || "._~+/=-".toList.contains c

/-- `[_-]?` -/
def separator : Pattern := .optional (.char fun c => c == '_' || c == '-')

def text (word : String) : Pattern := .literal (fun c x => x == c) word

def word (word : String) : Pattern := .literal sameLetter word

/-- Two words that an underscore or a hyphen may join. -/
def joined (first second : String) : Pattern := .seqs [word first, separator, word second]

/-- `\s+` -/
def spaces : Pattern := .atLeast 1 Storage.isSpace

section Texts

-- `\w` knows the letters and digits of all scripts.
variable (isWord : Char → Bool)

/-- `\b` -/
def boundary : Pattern := .look fun prev rest => prev.any isWord != rest.head?.any isWord

/-- `(?<![…])` -/
def notBehind (p : Char → Bool) : Pattern := .look fun prev _ => !prev.any p

/-- `(?![…])` -/
def notAhead (p : Char → Bool) : Pattern := .look fun _ rest => !rest.head?.any p

/-- `_PRIVATE_KEY` -/
def privateKey : Rule where
  dropped :=
    let kind : Pattern := .optional (.seq (text " ") (.atLeast 1 isUpperOrDigit))
    .seqs [text "-----BEGIN", kind, text " PRIVATE KEY-----", .many false fun _ => true,
      text "-----END", kind, text " PRIVATE KEY-----"]
  replacement := redacted.toList

/-- `_PEM_SECRET` -/
def pemSecret : Rule where
  dropped :=
    let kind : Pattern := .alts [text "OPENSSH", text "PGP"]
    .seqs [text "-----BEGIN ", kind, text " PRIVATE KEY BLOCK-----", .many false fun _ => true,
      text "-----END ", kind, text " PRIVATE KEY BLOCK-----"]
  replacement := redacted.toList

/-- `_URL_CREDENTIALS` -/
def urlCredentials : Rule where
  kept := .seqs [boundary isWord, .char isLetter,
    .many true fun c => isLetter c || c.isDigit || "+.-".toList.contains c, text "://",
    .atLeast 1 fun c => !(Storage.isSpace c || "/:@".toList.contains c), text ":"]
  dropped := .atLeast 1 fun c => !(Storage.isSpace c || "@/".toList.contains c)
  after := text "@"
  replacement := redacted.toList

/-- `_BEARER` -/
def bearer : Rule where
  kept := .seqs [boundary isWord, .alts [word "bearer", word "basic"], spaces]
  dropped := .atLeast 1 isBearerChar
  replacement := redacted.toList

/-- `_CLI_ASSIGNMENT` -/
def cliAssignment : Rule where
  kept := .seqs [.alt (text "--") (text "-"),
    .alts [word "password", word "passwd", word "secret", word "token", joined "api" "key",
      joined "access" "key", joined "client" "secret", word "authorization", word "cookie",
      word "session"],
    .alts [text "=", spaces]]
  dropped := .atLeast 1 fun c => !Storage.isSpace c
  replacement := redacted.toList

/-- `_ASSIGNMENT` -/
def assignment : Rule where
  kept := .seqs [boundary isWord,
    .alts [word "password", word "passwd", word "pwd", word "secret", word "token",
      joined "api" "key", joined "access" "key", joined "client" "secret", word "authorization",
      word "cookie", word "session"],
    boundary isWord, .many true Storage.isSpace, .char fun c => c == ':' || c == '=',
    .many true Storage.isSpace]
  dropped := .alts [
    .seqs [text "\"", .many true fun c => c != '"', text "\""],
    .seqs [text "'", .many true fun c => c != '\'', text "'"],
    .atLeast 1 fun c => !(Storage.isSpace c || ",;".toList.contains c)]
  replacement := redacted.toList

/-- `_JWT` -/
def jwt : Rule where
  dropped := .seqs [notBehind isTokenChar, text "eyJ", .atLeast 8 isTokenChar, text ".",
    .atLeast 8 isTokenChar, text ".", .atLeast 8 isTokenChar, notAhead isTokenChar]
  replacement := redacted.toList

/-- `_AWS_ACCESS_KEY` -/
def awsAccessKey : Rule where
  dropped := .seqs [notBehind isUpperOrDigit, .alts [text "AKIA", text "ASIA"],
    .exactly 16 isUpperOrDigit, notAhead isUpperOrDigit]
  replacement := redacted.toList

/-- The substitutions of `redact_text` in their order. -/
def textRules : List Rule :=
  [privateKey, pemSecret, urlCredentials isWord, bearer isWord, cliAssignment, assignment isWord,
    jwt, awsAccessKey]

/-- `redact_text(value, max_length=…)` -/
def redactText (value : String) (maxLength : Nat := 16384) : String :=
  String.ofList (((textRules isWord).foldl (fun text rule => rule.sub text)
      (value.toList.take maxLength)) ++
    if value.length > maxLength then truncated.toList else [])

/-! ### What the substitutions make of a text -/

/-- Four of the eight substitutions can lengthen a text, and none of them by much. -/
theorem length_textRules (value : List Char) :
    ((textRules isWord).foldl (fun text rule => rule.sub text) value).length ≤ 29 * value.length := by
  simp only [textRules, List.foldl_cons, List.foldl_nil]
  have h₁ := privateKey.length_sub value
  have h₂ := pemSecret.length_sub (privateKey.sub value)
  generalize privateKey.sub value = v₁ at h₁ h₂ ⊢
  generalize pemSecret.sub v₁ = v₂ at h₂ ⊢
  have h₃ := (urlCredentials isWord).length_sub v₂
  generalize (urlCredentials isWord).sub v₂ = v₃ at h₃ ⊢
  have h₄ := (bearer isWord).length_sub v₃
  generalize (bearer isWord).sub v₃ = v₄ at h₄ ⊢
  have h₅ := cliAssignment.length_sub v₄
  generalize cliAssignment.sub v₄ = v₅ at h₅ ⊢
  have h₆ := (assignment isWord).length_sub v₅
  generalize (assignment isWord).sub v₅ = v₆ at h₆ ⊢
  have h₇ := jwt.length_sub v₆
  generalize jwt.sub v₆ = v₇ at h₇ ⊢
  have h₈ := awsAccessKey.length_sub v₇
  change _ * 52 ≤ _ * (52 + 0) at h₁
  change _ * 72 ≤ _ * (72 + 0) at h₂
  change _ * 8 ≤ _ * (8 + 9) at h₃
  change _ * 7 ≤ _ * (7 + 9) at h₄
  change _ * 8 ≤ _ * (8 + 9) at h₅
  change _ * 5 ≤ _ * (5 + 9) at h₆
  change _ * 29 ≤ _ * (29 + 0) at h₇
  change _ * 20 ≤ _ * (20 + 0) at h₈
  omega

theorem length_redactText (value : String) (maxLength : Nat) :
    (redactText isWord value maxLength).length ≤ 29 * maxLength + 11 := by
  have hrules := length_textRules isWord (value.toList.take maxLength)
  have htake : (value.toList.take maxLength).length ≤ maxLength := List.length_take_le _ _
  have hmark : (if value.length > maxLength then truncated.toList else []).length ≤ 11 := by
    split <;> decide
  rw [redactText, String.length_ofList, List.length_append]
  omega

/-- A text in which no substitution finds anything is returned as it is. -/
theorem redactText_of_quiet {value : String} {maxLength : Nat} (hlength : value.length ≤ maxLength)
    (hquiet : ∀ rule ∈ textRules isWord, rule.widen.quiet none value.toList = true) :
    redactText isWord value maxLength = value := by
  have hfold : ∀ rules : List Rule,
      (∀ rule ∈ rules, rule.widen.quiet none value.toList = true) →
      rules.foldl (fun text rule => rule.sub text) value.toList = value.toList := by
    intro rules
    induction rules with
    | nil => exact fun _ => rfl
    | cons rule rules ih =>
      intro h
      rw [List.forall_mem_cons] at h
      rw [List.foldl_cons, rule.sub_of_quiet h.1]
      exact ih h.2
  have htake : value.toList.take maxLength = value.toList :=
    List.take_of_length_le (by rwa [String.length_toList])
  rw [redactText, htake, hfold _ hquiet, if_neg (Nat.not_lt.mpr hlength), List.append_nil,
    String.ofList_toList]

/-- Within the length limit a text grows by a factor at most. -/
theorem length_redactText_of_le {value : String} {maxLength : Nat}
    (h : value.length ≤ maxLength) :
    (redactText isWord value maxLength).length ≤ 29 * value.length := by
  have hrules := length_textRules isWord (value.toList.take maxLength)
  have htake : (value.toList.take maxLength).length ≤ value.length := by
    rw [← String.length_toList]
    exact List.length_take_le' _ _
  rw [redactText, String.length_ofList, List.length_append, if_neg (Nat.not_lt.mpr h),
    List.length_nil]
  omega

/-- No substitution finds anything in a text over an alphabet that starves all of them. -/
theorem redactText_of_starved {alphabet : List Char} {value : String} {maxLength : Nat}
    (hlength : value.length ≤ maxLength)
    (hstarved : ∀ rule ∈ textRules isWord, rule.widen.starved alphabet = true)
    (hvalue : ∀ c ∈ value.toList, c ∈ alphabet) : redactText isWord value maxLength = value :=
  redactText_of_quiet isWord hlength fun rule hrule =>
    rule.widen.quiet_of_starved (hstarved rule hrule) hvalue

/-- A number is no secret. -/
theorem redactText_digits {value : String} {maxLength : Nat} (hlength : value.length ≤ maxLength)
    (hvalue : ∀ c ∈ value.toList, c ∈ "0123456789".toList) :
    redactText isWord value maxLength = value := by
  refine redactText_of_starved isWord hlength ?_ hvalue
  simp only [textRules, List.forall_mem_cons]
  exact ⟨rfl, rfl, rfl, rfl, rfl, rfl, rfl, rfl, List.forall_mem_nil _⟩

theorem mem_hexDigits {c : Char} (h : ('0' ≤ c ∧ c ≤ '9') ∨ ('a' ≤ c ∧ c ≤ 'f')) :
    c ∈ "0123456789abcdef".toList := by
  have hrange : (48 ≤ c.toNat ∧ c.toNat ≤ 57) ∨ (97 ≤ c.toNat ∧ c.toNat ≤ 102) := h
  have hall : ∀ n < 128, (48 ≤ n ∧ n ≤ 57) ∨ (97 ≤ n ∧ n ≤ 102) →
      Char.ofNat n ∈ "0123456789abcdef".toList := by decide
  have hc := hall c.toNat (by omega) hrange
  rwa [Char.ofNat_toNat] at hc

/-- `software:` and a digest: the only colon ends no word that is looked for. -/
theorem redactText_reference {digest : String} (h : isHexDigest digest = true) :
    redactText isWord ("software:" ++ digest) = "software:" ++ digest := by
  simp only [isHexDigest, Bool.and_eq_true, List.all_eq_true, decide_eq_true_eq,
    Bool.or_eq_true] at h
  have hdigits : ∀ c ∈ digest.toList, c ∈ "0123456789abcdef".toList := fun c hc =>
    mem_hexDigits (h.2 c hc)
  have htext : ("software:" ++ digest).toList =
      's' :: 'o' :: 'f' :: 't' :: 'w' :: 'a' :: 'r' :: 'e' :: ':' :: digest.toList := by
    rw [String.toList_append]
    rfl
  have hall : ∀ c ∈ ("software:" ++ digest).toList, c ∈ "software:0123456789abcdef".toList := by
    intro c hc
    rw [String.toList_append, List.mem_append] at hc
    have halphabet : "software:0123456789abcdef".toList =
        "software:".toList ++ "0123456789abcdef".toList := rfl
    rw [halphabet, List.mem_append]
    exact hc.imp id (hdigits c)
  have hstarved : ∀ rule : Rule, rule.starved "software:0123456789abcdef".toList = true →
      rule.quiet none ("software:" ++ digest).toList = true :=
    fun rule hrule => rule.quiet_of_starved hrule hall
  have hassignment : (assignment isWord).widen.quiet none ("software:" ++ digest).toList = true := by
    have hstarves : (assignment isWord).widen.starved "0123456789abcdef".toList = true := rfl
    have hrest := @Rule.quiet_of_starved _ _ hstarves _ (some ':') hdigits
    rw [htext]
    iterate 9 rw [Rule.quiet]
    rw [hrest]
    rfl
  refine redactText_of_quiet isWord ?_ ?_
  · rw [← String.length_toList, String.toList_append, List.length_append, h.1]
    decide
  · simp only [textRules, List.forall_mem_cons]
    exact ⟨hstarved _ rfl, hstarved _ rfl, hstarved _ rfl, hstarved _ rfl, hstarved _ rfl,
      hassignment, hstarved _ rfl, hstarved _ rfl, List.forall_mem_nil _⟩

end Texts

/-! ## Keys -/

/-- `_SENSITIVE_KEY` -/
def sensitiveKey : Pattern :=
  let mark : Pattern := .char fun c => c == '_' || c == '-' || c == '.'
  .seqs [.alt (.look fun prev _ => prev.isNone) mark,
    .alts [word "password", word "passwd", word "pwd", word "secret", word "token",
      joined "api" "key", joined "access" "key", joined "private" "key", joined "client" "secret",
      word "authorization", word "cookie", word "session", word "credential"],
    -- `$` also stands before a last line feed.
    .alt (.look fun _ rest => rest == [] || rest == ['\n']) mark]

/-- `is_sensitive_key(key)` -/
def isSensitiveKey (key : String) : Bool := sensitiveKey.search none key.toList

def nonSecretSecurityFactKeys : List String :=
  ["local_admin_password_managed", "password_policy_compliant", "password_required",
    "password_never_expires", "password_expires", "user_may_change_password",
    "passwordauthentication", "permitemptypasswords", "ssh_password_authentication_enabled",
    "ssh_permit_empty_passwords"]

def nonSecretSecurityFactValues : List String :=
  ["0", "1", "true", "false", "yes", "no", "enabled", "disabled", "not set"]

/-- `_is_non_secret_security_fact(key, value)` -/
def isNonSecretSecurityFact (rt : Runtime) (key : String) (value : Json) : Bool :=
  nonSecretSecurityFactKeys.contains (rt.casefold key) &&
    match value with
    | .null | .bool _ => true
    | .str s => nonSecretSecurityFactValues.contains (rt.casefold (Storage.strip s))
    | _ => false

/-- The field is replaced whatever it holds. -/
def hides (rt : Runtime) (key : String) (value : Json) : Bool :=
  isSensitiveKey key && !isNonSecretSecurityFact rt key value

example : isSensitiveKey "API_Key" = true := by decide +kernel

example : isSensitiveKey "tokens" = false := by decide +kernel

/-! ## Values -/

section Values

variable (rt : Runtime) (isWord : Char → Bool) (maxDepth maxNodes : Nat)

/-- What `walk` does before it looks into a value. -/
def visit (depth : Nat) (sensitive : Bool) (seen : Nat) (inner : Json × Nat) : Json × Nat :=
  if seen + 1 > maxNodes ∨ depth > maxDepth then (.str truncated, seen + 1)
  else if sensitive then (.str redacted, seen + 1)
  else inner

mutual

/-- `walk(item, depth, sensitive)`, with the counter `nodes` before and after it. -/
def walk (depth : Nat) (sensitive : Bool) : Json → Nat → Json × Nat
  | .arr items, seen => visit maxDepth maxNodes depth sensitive seen
      (let copy := walkItems (depth + 1) items (seen + 1); (.arr copy.1, copy.2))
  | .obj fields, seen => visit maxDepth maxNodes depth sensitive seen
      (let copy := walkFields (depth + 1) fields (seen + 1); (.obj copy.1, copy.2))
  | .str s, seen => visit maxDepth maxNodes depth sensitive seen
      (.str (redactText isWord s), seen + 1)
  | .null, seen => visit maxDepth maxNodes depth sensitive seen (.null, seen + 1)
  | .bool b, seen => visit maxDepth maxNodes depth sensitive seen (.bool b, seen + 1)
  | .int n, seen => visit maxDepth maxNodes depth sensitive seen (.int n, seen + 1)
  | .float f, seen => visit maxDepth maxNodes depth sensitive seen (.float f, seen + 1)

def walkItems (depth : Nat) : List Json → Nat → List Json × Nat
  | [], seen => ([], seen)
  | v :: l, seen =>
    let first := walk depth false v seen
    let others := walkItems depth l first.2
    (first.1 :: others.1, others.2)

def walkFields (depth : Nat) : JsonObject → Nat → JsonObject × Nat
  | [], seen => ([], seen)
  | (k, v) :: l, seen =>
    let first := walk depth (hides rt k v) v seen
    let others := walkFields depth l first.2
    ((k, first.1) :: others.1, others.2)

end

/-- `redact_value(value, max_depth=…, max_nodes=…)` -/
def redactValue (maxDepth maxNodes : Nat) (value : Json) : Json :=
  (walk rt isWord maxDepth maxNodes 0 false value 0).1

mutual

/-- The redaction of a value without limits. -/
def redactTree (sensitive : Bool) : Json → Json
  | .arr items => if sensitive then .str redacted else .arr (redactItems items)
  | .obj fields => if sensitive then .str redacted else .obj (redactFields fields)
  | .str s => if sensitive then .str redacted else .str (redactText isWord s)
  | .null => if sensitive then .str redacted else .null
  | .bool b => if sensitive then .str redacted else .bool b
  | .int n => if sensitive then .str redacted else .int n
  | .float f => if sensitive then .str redacted else .float f

def redactItems : List Json → List Json
  | [] => []
  | v :: l => redactTree false v :: redactItems l

def redactFields : JsonObject → JsonObject
  | [] => []
  | (k, v) :: l => (k, redactTree (hides rt k v) v) :: redactFields l

end

theorem redactTree_sensitive (v : Json) : redactTree rt isWord true v = .str redacted := by
  cases v <;> simp [redactTree]

theorem redactItems_eq (items : List Json) :
    redactItems rt isWord items = items.map (redactTree rt isWord false) := by
  induction items with
  | nil => rfl
  | cons item items ih => rw [redactItems, ih, List.map_cons]

theorem lookup_redactFields {name : String} (fields : JsonObject) :
    Assoc.lookup name (redactFields rt isWord fields) = (Assoc.lookup name fields).map fun value =>
      redactTree rt isWord (hides rt name value) value := by
  induction fields with
  | nil => rfl
  | cons field fields ih =>
    obtain ⟨key, value⟩ := field
    rw [redactFields, Assoc.lookup, Assoc.lookup]
    split
    · next h =>
      rw [h]
      rfl
    · exact ih

end Values

end OsScanner.Security

import Mathlib
import OsScanner.Json.Value
import OsScanner.Lib.Text

/-!
# The Python runtime

The standard-library functions whose results the program stores and compares but never looks
into: the shortest decimal text of a float, SHA-256 and HMAC, and the ISO 8601 form of a
timestamp. A `Runtime` is any implementation of them with the documented properties that the
program relies on; collision-freeness of the hashes is not one of them and is assumed, where a
result needs it, for the values at hand.

`Runtime.sample` is an implementation for evaluating the model on concrete inputs.
-/

namespace OsScanner

open Lib

/-! ## Time -/

/-- An instant: microseconds since the epoch, the resolution of `datetime`. -/
abbrev Timestamp := Int

/-- `timedelta(seconds=n)` -/
def seconds (n : Int) : Int := n * 1000000

/-- A `datetime`: without a timezone it denotes no instant. -/
inductive Datetime where
  | naive (t : Int)
  | aware (t : Timestamp)
  deriving DecidableEq

/-! ## The interface -/

/-- The characters that `repr` of a number consists of. -/
def isNumberChar (c : Char) : Bool := c.isDigit || c == '-' || c == '+' || c == '.' || c == 'e'

/-- `^[0-9a-f]{64}$` -/
def isHexDigest (s : String) : Bool :=
  decide (s.toList.length = 64) &&
    s.toList.all (fun c => decide ('0' ≤ c ∧ c ≤ '9') || decide ('a' ≤ c ∧ c ≤ 'f'))

def isBase64UrlChar (c : Char) : Bool := c.isAlphanum || c == '-' || c == '_'

/-- 64 bytes in URL-safe base64 without padding. -/
def isBase64Url (s : String) : Bool :=
  decide (s.toList.length = 86) && s.toList.all isBase64UrlChar

/-- `s.encode()` -/
def utf8Bytes (s : String) : List UInt8 := s.toByteArray.data.toList

theorem utf8Bytes_injective : Function.Injective utf8Bytes := by
  intro a b h
  have hd : a.toByteArray.data = b.toByteArray.data := Array.toList_inj.mp h
  have hb : a.toByteArray = b.toByteArray := by
    cases ha : a.toByteArray; cases hb : b.toByteArray
    rw [ha, hb] at hd
    exact congrArg ByteArray.mk hd
  exact String.toByteArray_inj.mp hb

theorem utf8Bytes_ofList (chars : List Char) :
    utf8Bytes (String.ofList chars) = chars.flatMap String.utf8EncodeChar := by
  rw [utf8Bytes, String.toByteArray_ofList, List.utf8Encode]
  simp

structure Runtime where
  /-- `repr(f)`, which reads back as `f`. -/
  floatRepr : PyFloat → List Char
  floatRepr_injective : Function.Injective floatRepr
  floatRepr_chars : ∀ f, ∀ c ∈ floatRepr f, isNumberChar c = true
  /-- A float is never written like an integer. -/
  floatRepr_point : ∀ f, '.' ∈ floatRepr f ∨ 'e' ∈ floatRepr f
  /-- `hashlib.sha256(data).hexdigest()` -/
  sha256 : List UInt8 → String
  sha256_digest : ∀ data, isHexDigest (sha256 data) = true
  /-- `hmac.new(key, message, hashlib.sha256).hexdigest()` -/
  hmacSha256 : String → String → String
  /-- `hmac.new(key, message, hashlib.sha512).digest()` in URL-safe base64 without padding. -/
  hmacSha512 : String → String → String
  hmacSha512_text : ∀ key message, isBase64Url (hmacSha512 key message) = true
  /-- `datetime.fromisoformat(text)`, absent where it raises `ValueError`. -/
  fromIsoformat : String → Option Datetime
  /-- `instant.isoformat()` of an instant in UTC. -/
  isoformat : Timestamp → String
  /-- `text.upper()` -/
  upper : String → String
  /-- `text.casefold()`, which lowers the letters of an ASCII text. -/
  casefold : String → String
  casefold_ascii : ∀ text, (∀ c ∈ text.toList, c.toNat < 128) →
    casefold text = String.ofList (text.toList.map Char.toLower)
  /-- The substitutions `_ERROR_SECRET`, `_ERROR_BEARER` and `_ERROR_JWT` in a row. -/
  redact : String → String

namespace Runtime

/-- `hashlib.sha256(text.encode()).hexdigest()` -/
def hashText (rt : Runtime) (text : String) : String := rt.sha256 (utf8Bytes text)

theorem hashText_digest (rt : Runtime) (text : String) : isHexDigest (rt.hashText text) = true :=
  rt.sha256_digest _

end Runtime

/-! ## A sample implementation -/

namespace Sample

/-- What follows the mantissa. -/
def exponentText : Int → List Char
  | .ofNat 0 => ['.', '0']
  | .ofNat (k + 1) => 'e' :: '+' :: Nat.toDigits 10 (k + 1)
  | .negSucc k => 'e' :: '-' :: Nat.toDigits 10 (k + 1)

/-- Mantissa and exponent; an odd integral float reads as Python writes it. -/
def floatRepr (f : PyFloat) : List Char :=
  (if f.negative then ['-'] else []) ++ (Nat.toDigits 10 f.mantissa ++ exponentText f.exponent)

theorem isNumberChar_of_mem_toDigits {n : Nat} {c : Char} (h : c ∈ Nat.toDigits 10 n) :
    isNumberChar c = true := by
  have hd : c.isDigit = true := Nat.isDigit_of_mem_toDigits (by omega) (by omega) h
  simp [isNumberChar, hd]

theorem exponentText_chars (e : Int) (c : Char) (h : c ∈ exponentText e) :
    isNumberChar c = true := by
  rcases e with (_ | k) | k <;> simp only [exponentText, List.mem_cons] at h
  · rcases h with rfl | rfl | h
    · decide
    · decide
    · simp at h
  all_goals
    rcases h with rfl | rfl | h
    · decide
    · decide
    · exact isNumberChar_of_mem_toDigits h

theorem floatRepr_chars (f : PyFloat) (c : Char) (h : c ∈ floatRepr f) :
    isNumberChar c = true := by
  rcases List.mem_append.mp h with h | h
  · split at h
    · rw [List.mem_singleton.mp h]; decide
    · simp at h
  · rcases List.mem_append.mp h with h | h
    · exact isNumberChar_of_mem_toDigits h
    · exact exponentText_chars _ c h

theorem floatRepr_point (f : PyFloat) : '.' ∈ floatRepr f ∨ 'e' ∈ floatRepr f := by
  unfold floatRepr
  rcases f.exponent with (_ | k) | k <;> simp [exponentText]

theorem toDigits_injective : Function.Injective (Nat.toDigits 10) := by
  intro m n h
  rw [← Nat.ofDigitChars_ten_toDigits (n := m), ← Nat.ofDigitChars_ten_toDigits (n := n), h]

/-- A run of digits is separated from what follows it. -/
theorem toDigits_append_inj {m n : Nat} {r s : List Char} (hr : Delimited Char.isDigit r)
    (hs : Delimited Char.isDigit s) (h : Nat.toDigits 10 m ++ r = Nat.toDigits 10 n ++ s) :
    m = n ∧ r = s := by
  have hdigits : ∀ k, ∀ c ∈ Nat.toDigits 10 k, c.isDigit = true := fun k c hc =>
    Nat.isDigit_of_mem_toDigits (by omega) (by omega) hc
  obtain ⟨hd, hrs⟩ := token_append_inj (hdigits m) (hdigits n) hr hs h
  exact ⟨toDigits_injective hd, hrs⟩

theorem exponentText_head (e : Int) : Delimited Char.isDigit (exponentText e) := by
  rcases e with (_ | k) | k <;> intro c hc <;> simp [exponentText] at hc <;> subst hc <;> decide

theorem exponentText_injective : Function.Injective exponentText := by
  intro a b h
  rcases a with (_ | k) | k <;> rcases b with (_ | l) | l <;> simp [exponentText] at h ⊢
  · exact by simpa using toDigits_injective h
  · exact by simpa using toDigits_injective h

theorem toDigits_append_head (m : Nat) (r : List Char) :
    (Nat.toDigits 10 m ++ r).head? ≠ some '-' := by
  intro h
  cases hm : Nat.toDigits 10 m with
  | nil => exact absurd hm Nat.toDigits_ne_nil
  | cons c t =>
    rw [hm, List.cons_append, List.head?_cons, Option.some.injEq] at h
    have hd : c.isDigit = true :=
      Nat.isDigit_of_mem_toDigits (b := 10) (n := m) (by omega) (by omega) (by rw [hm]; simp)
    rw [h] at hd
    exact absurd hd (by decide)

theorem floatRepr_injective : Function.Injective floatRepr := by
  rintro ⟨n₁, m₁, e₁, h₁⟩ ⟨n₂, m₂, e₂, h₂⟩ h
  have hsign : n₁ = n₂ := by
    cases n₁ <;> cases n₂
    · rfl
    · exact absurd (congrArg List.head? h) (toDigits_append_head m₁ (exponentText e₁))
    · exact absurd (congrArg List.head? h.symm) (toDigits_append_head m₂ (exponentText e₂))
    · rfl
  subst hsign
  obtain ⟨hm, he⟩ := toDigits_append_inj (exponentText_head e₁) (exponentText_head e₂)
    (List.append_cancel_left h)
  subst hm
  cases exponentText_injective he
  rfl

/-- A digest that tells short texts apart: the bytes as one number, in 64 hex digits. -/
def digest (data : List UInt8) : String :=
  let n := data.foldl (fun h b => (h * 257 + b.toNat + 1) % 2 ^ 256) 7
  String.ofList ((List.range 64).map fun i => Nat.digitChar (n / 16 ^ i % 16))

theorem digest_hex (data : List UInt8) : isHexDigest (digest data) = true := by
  have hdigit : ∀ d < 16, (decide ('0' ≤ Nat.digitChar d ∧ Nat.digitChar d ≤ '9') ||
      decide ('a' ≤ Nat.digitChar d ∧ Nat.digitChar d ≤ 'f')) = true := by decide
  simp only [isHexDigest, digest, String.toList_ofList, List.length_map, List.length_range,
    decide_true, Bool.true_and, List.all_map, List.all_eq_true, Function.comp_apply]
  exact fun i _ => hdigit _ (Nat.mod_lt _ (by omega))

/-- The text itself, cut or filled up to the length of a digest. -/
def urlSafe (text : String) : String :=
  String.ofList ((text.toList.map (fun c => if isBase64UrlChar c then c else '_') ++
    List.replicate 86 'A').take 86)

theorem urlSafe_text (text : String) : isBase64Url (urlSafe text) = true := by
  have hlength : ∀ l : List Char, ((l ++ List.replicate 86 'A').take 86).length = 86 := by
    intro l
    rw [List.length_take, List.length_append, List.length_replicate]
    omega
  rw [isBase64Url, urlSafe, String.toList_ofList, Bool.and_eq_true, decide_eq_true_eq,
    List.all_eq_true]
  refine ⟨hlength _, fun c hc => ?_⟩
  rcases List.mem_append.mp (List.mem_of_mem_take hc) with h | h
  · obtain ⟨d, -, rfl⟩ := List.mem_map.mp h
    split
    · assumption
    · decide
  · rw [List.eq_of_mem_replicate h]
    decide

/-- Days from the epoch to a date of the proleptic Gregorian calendar. -/
def daysFromCivil (year month day : Int) : Int :=
  let y := if month ≤ 2 then year - 1 else year
  let era := y / 400
  let yearOfEra := y - era * 400
  let dayOfYear := (153 * (if month > 2 then month - 3 else month + 9) + 2) / 5 + day - 1
  era * 146097 + (yearOfEra * 365 + yearOfEra / 4 - yearOfEra / 100 + dayOfYear) - 719468

def number (l : List Char) : Option Int :=
  if l.all Char.isDigit then some (Nat.ofDigitChars 10 l 0) else none

/-- `YYYY-MM-DDThh:mm:ss`, with the offset `+00:00` or with none. -/
def fromIsoformat (text : String) : Option Datetime :=
  match text.toList with
  | y₁ :: y₂ :: y₃ :: y₄ :: '-' :: m₁ :: m₂ :: '-' :: d₁ :: d₂ :: 'T' ::
      h₁ :: h₂ :: ':' :: n₁ :: n₂ :: ':' :: s₁ :: s₂ :: rest =>
    match number [y₁, y₂, y₃, y₄], number [m₁, m₂], number [d₁, d₂], number [h₁, h₂],
        number [n₁, n₂], number [s₁, s₂] with
    | some year, some month, some day, some hour, some minute, some second =>
      let t := seconds (daysFromCivil year month day * 86400 + hour * 3600 + minute * 60 + second)
      if rest = [] then some (.naive t)
      else if rest = ['+', '0', '0', ':', '0', '0'] then some (.aware t)
      else none
    | _, _, _, _, _, _ => none
  | _ => none

/-- A date from the days since the epoch. -/
def civilFromDays (days : Int) : Int × Int × Int :=
  let z := days + 719468
  let era := z / 146097
  let dayOfEra := z - era * 146097
  let yearOfEra := (dayOfEra - dayOfEra / 1460 + dayOfEra / 36524 - dayOfEra / 146096) / 365
  let dayOfYear := dayOfEra - (365 * yearOfEra + yearOfEra / 4 - yearOfEra / 100)
  let mp := (5 * dayOfYear + 2) / 153
  let month := if mp < 10 then mp + 3 else mp - 9
  (yearOfEra + era * 400 + (if month ≤ 2 then 1 else 0), month, dayOfYear - (153 * mp + 2) / 5 + 1)

def padded (width : Nat) (n : Int) : List Char :=
  let digits := Nat.toDigits 10 n.toNat
  List.replicate (width - digits.length) '0' ++ digits

def upper (text : String) : String := String.ofList (text.toList.map Char.toUpper)

def casefold (text : String) : String := String.ofList (text.toList.map Char.toLower)

def isoformat (t : Timestamp) : String :=
  let total := t / 1000000
  let date := civilFromDays (total / 86400)
  let second := total % 86400
  String.ofList (padded 4 date.1 ++ '-' :: padded 2 date.2.1 ++ '-' :: padded 2 date.2.2 ++
    'T' :: padded 2 (second / 3600) ++ ':' :: padded 2 (second / 60 % 60) ++
    ':' :: padded 2 (second % 60) ++
    (if t % 1000000 = 0 then [] else '.' :: padded 6 (t % 1000000)) ++ "+00:00".toList)

end Sample

/-- An implementation for concrete inputs. -/
def Runtime.sample : Runtime where
  floatRepr := Sample.floatRepr
  floatRepr_injective := Sample.floatRepr_injective
  floatRepr_chars := Sample.floatRepr_chars
  floatRepr_point := Sample.floatRepr_point
  sha256 := Sample.digest
  sha256_digest := Sample.digest_hex
  hmacSha256 key message := "hmac-sha256:" ++ key ++ ":" ++ message
  hmacSha512 _ message := Sample.urlSafe message
  hmacSha512_text _ _ := Sample.urlSafe_text _
  fromIsoformat := Sample.fromIsoformat
  isoformat := Sample.isoformat
  upper := Sample.upper
  casefold := Sample.casefold
  casefold_ascii _ _ := rfl
  redact text := text

example : Runtime.sample.isoformat (seconds 1700000000) = "2023-11-14T22:13:20+00:00" := by decide

example : Runtime.sample.fromIsoformat "2023-11-14T22:13:20+00:00" =
    some (.aware (seconds 1700000000)) := by decide

end OsScanner

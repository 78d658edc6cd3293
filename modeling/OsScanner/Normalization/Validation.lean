import Mathlib
import OsScanner.Normalization.Vulnerabilities
import OsScanner.Storage.Texts

/-!
# Validation of a vulnerability record

`app/models/findings.py`, `base.py` and `validators.py`: what pydantic checks of the fields of a
`Vulnerability`, and what it makes of them. The fields of a document have their JSON types here.
The tables of Unicode and the parts of a URL come from Python.
-/

namespace OsScanner.Normalization

open Lib Lib.Check Cloud Security

/-! ## Texts -/

/-- White space as pydantic strips it. `str.strip` strips four separators more. -/
def isWhiteSpace (c : Char) : Bool :=
  let n := c.toNat
  decide ((9 ≤ n ∧ n ≤ 13) ∨ n = 32 ∨ n = 0x85 ∨ n = 0xa0 ∨ n = 0x1680 ∨
    (0x2000 ≤ n ∧ n ≤ 0x200a) ∨ n = 0x2028 ∨ n = 0x2029 ∨ n = 0x202f ∨ n = 0x205f ∨ n = 0x3000)

/-- `str_strip_whitespace` -/
def trim (text : String) : String :=
  String.ofList ((text.toList.dropWhile isWhiteSpace).rdropWhile isWhiteSpace)

/-- Neither end of the list satisfies the predicate. -/
def Stripped (p : Char → Bool) (l : List Char) : Prop :=
  (∀ c ∈ l.head?, p c = false) ∧ ∀ c ∈ l.getLast?, p c = false

theorem Stripped.dropWhile_eq {p : Char → Bool} {l : List Char} (h : Stripped p l) :
    (l.dropWhile p).rdropWhile p = l := by
  have hdrop : l.dropWhile p = l := by
    rw [List.dropWhile_eq_self_iff]
    intro hne
    have hhead := h.1 (l[0]) (by rw [List.head?_eq_getElem?, List.getElem?_eq_getElem hne]; rfl)
    simp [hhead]
  rw [hdrop, List.rdropWhile_eq_self_iff]
  intro hne
  have hlast := h.2 (l.getLast hne) (by rw [List.getLast?_eq_some_getLast hne]; rfl)
  simp [hlast]

theorem stripped_strip (p : Char → Bool) (l : List Char) :
    Stripped p ((l.dropWhile p).rdropWhile p) := by
  constructor
  · intro c hc
    have hstart := List.rdropWhile_prefix p (l.dropWhile p)
    have hhead : (l.dropWhile p).head? = some c := by
      rcases hstart with ⟨rest, hrest⟩
      rw [← hrest, List.head?_append, hc]
      rfl
    have hnot := List.head?_dropWhile_not p l
    rw [hhead] at hnot
    simpa using hnot
  · intro c hc
    rw [Option.mem_def, List.getLast?_eq_some_iff] at hc
    obtain ⟨l', hl'⟩ := hc
    have hne : (l.dropWhile p).rdropWhile p ≠ [] := by
      rw [hl']
      simp
    have hlast := List.rdropWhile_last_not p (l.dropWhile p) hne
    rw [List.getLast_congr hne (by simp) hl', List.getLast_append_singleton] at hlast
    simpa using hlast

theorem trim_of_stripped {text : String} (h : Stripped isWhiteSpace text.toList) :
    trim text = text := by
  rw [trim, h.dropWhile_eq, String.ofList_toList]

theorem trim_trim (text : String) : trim (trim text) = trim text := by
  refine trim_of_stripped ?_
  rw [trim, String.toList_ofList]
  exact stripped_strip _ _

theorem isWhiteSpace_of_not_isSpace {c : Char} (h : Storage.isSpace c = false) :
    isWhiteSpace c = false := by
  unfold Storage.isSpace at h
  unfold isWhiteSpace
  rw [decide_eq_false_iff_not] at h ⊢
  omega

theorem trim_strip (text : String) : trim (Storage.strip text) = Storage.strip text := by
  refine trim_of_stripped ?_
  rw [Storage.strip, String.toList_ofList]
  obtain ⟨hhead, hlast⟩ := stripped_strip Storage.isSpace text.toList
  exact ⟨fun c hc => isWhiteSpace_of_not_isSpace (hhead c hc),
    fun c hc => isWhiteSpace_of_not_isSpace (hlast c hc)⟩

/-! ## What Python's library decides -/

/-- What `urlsplit` makes of a URL. -/
structure SplitUrl where
  scheme : String
  hostname : Option String
  username : Option String
  password : Option String

/-- Character classes of regular expressions, and `urlsplit`, which may raise. -/
structure Library where
  isDigit : Char → Bool
  isWord : Char → Bool
  urlsplit : String → Option SplitUrl

/-- `bool(text)` of an optional text -/
def present (text : Option String) : Bool := text.any fun t => decide (t ≠ "")

/-- The ASCII classes, for inputs without references. -/
def sampleLibrary : Library where
  isDigit := Char.isDigit
  isWord c := c.isAlphanum || c == '_'
  urlsplit _ := none

variable (rt : Runtime) (lib : Library)

/-! ## Fields -/

/-- `\d+`, followed by the rest of the text -/
def afterDigits (text : List Char) : Option (List Char) :=
  if text.takeWhile lib.isDigit = [] then none else some (text.dropWhile lib.isDigit)

/-- `\.\d+`, followed by the rest of the text -/
def afterPart : List Char → Option (List Char)
  | '.' :: rest => afterDigits lib rest
  | _ => none

/-- `^\d+\.\d+$`, in at most 16 characters -/
def isSchemaVersion (text : String) : Bool :=
  ((afterDigits lib text.toList).bind (afterPart lib)) == some [] && decide (text.length ≤ 16)

/-- `(?:[-+][0-9A-Za-z.-]+)?$` -/
def isVersionSuffix : List Char → Bool
  | [] => true
  | sign :: rest => (sign == '-' || sign == '+') && !rest.isEmpty &&
    rest.all fun c => c.isAlphanum || c == '.' || c == '-'

/-- `^\d+\.\d+\.\d+(?:[-+][0-9A-Za-z.-]+)?$`, in at most 64 characters -/
def isScannerVersion (text : String) : Bool :=
  (((afterDigits lib text.toList).bind (afterPart lib)).bind (afterPart lib)).any isVersionSuffix &&
    decide (text.length ≤ 64)

/-- `validate_reference(value)` -/
def validateReference (value : String) : Except String String := do
  let reference := Storage.strip value
  Check.raiseIf (reference.length > 2048 ∨ reference.toList.any (fun c => decide (c.toNat < 32)) = true)
    "invalid reference"
  if "urn:".toList.isPrefixOf reference.toList then .ok reference
  else match lib.urlsplit reference with
    | none => .error "invalid URL"
    | some parsed => do
      Check.raiseIf (parsed.scheme ≠ "https" ∨ present parsed.hostname = false ∨
          present parsed.username = true ∨ present parsed.password = true)
        "references must be HTTPS URLs without embedded credentials, or URNs"
      .ok reference

/-- A `dict[str, Any]` strips its keys; of two that become one the last value stays. -/
def trimKeys (fields : JsonObject) : JsonObject :=
  fields.foldl (fun result e => result.set (trim e.1) e.2) []

/-- `redact_mapping(value)` -/
def redactMapping (fields : JsonObject) : JsonObject :=
  match redactValue rt lib.isWord 12 20000 (.obj fields) with
  | .obj redacted => redacted
  | value => [("value", value)]

/-- `validate_evidence(value)`, and what pydantic then makes of the keys -/
def validateEvidence (value : Json) : Except String JsonObject := do
  match ← boundedCopy 8 5000 value with
  | .obj fields => .ok (trimKeys (redactMapping rt lib fields))
  | _ => .error "evidence must be an object"

/-! ## The record -/

/-- The fields of a document with a vulnerability. -/
structure VulnerabilityFields where
  schemaVersion : String := "1.0"
  scannerVersion : String := "1.1.0"
  scanId : String
  endpointId : Option String := none
  vulnerabilityId : String
  packageName : String
  packageEcosystem : Option String := none
  installedVersion : Option String := none
  affectedVersions : List String := []
  fixedVersions : List String := []
  aliases : List String := []
  severity : Severity
  cvssScore : Option ℚ := none
  exploitability : Option ℚ := none
  knownExploited : Bool := false
  summary : Option String := none
  references : List String := []
  evidence : Json := .obj []
  detectedAt : Timestamp

/-- The length of a text that may be absent is at most `n`. -/
def shortText (n : Nat) (text : Option String) : Bool :=
  text.all fun t => decide ((trim t).length ≤ n)

theorem not_isSpace_of_isIdentifier {text : String} (h : isIdentifier text = true) :
    ∀ c ∈ text.toList, Storage.isSpace c = false := by
  unfold isIdentifier at h
  split at h
  · cases h
  · next first rest htext =>
    simp only [Bool.and_eq_true, decide_eq_true_eq, List.all_eq_true, Bool.or_eq_true,
      beq_iff_eq] at h
    obtain ⟨⟨hfirst, -⟩, hrest⟩ := h
    rw [htext, List.forall_mem_cons]
    refine ⟨Storage.not_isSpace_of_isAlphanum hfirst, fun c hc => ?_⟩
    rcases hrest c hc with (((h | rfl) | rfl) | rfl) | rfl
    · exact Storage.not_isSpace_of_isAlphanum h
    all_goals decide

theorem strip_of_isIdentifier {text : String} (h : isIdentifier text = true) :
    Storage.strip text = text ∧ text ≠ "" := by
  refine ⟨Storage.strip_of_no_space (not_isSpace_of_isIdentifier h), ?_⟩
  rintro rfl
  cases h

theorem trim_of_isIdentifier {text : String} (h : isIdentifier text = true) : trim text = text := by
  rw [← (strip_of_isIdentifier h).1, trim_strip]

/-- The record of a document whose identifier, references and evidence were checked. -/
def VulnerabilityFields.keep (raw : VulnerabilityFields)
    (h : isIdentifier (trim raw.vulnerabilityId) = true) (references : List String)
    (evidence : JsonObject) : Vulnerability where
  schemaVersion := trim raw.schemaVersion
  scannerVersion := trim raw.scannerVersion
  scanId := trim raw.scanId
  endpointId := raw.endpointId.map trim
  vulnerabilityId := trim raw.vulnerabilityId
  packageName := trim raw.packageName
  packageEcosystem := raw.packageEcosystem.map trim
  installedVersion := raw.installedVersion.map trim
  affectedVersions := raw.affectedVersions.map trim
  fixedVersions := raw.fixedVersions.map trim
  aliases := (raw.aliases.map trim).toFinset
  severity := raw.severity
  cvssScore := raw.cvssScore
  exploitability := raw.exploitability
  knownExploited := raw.knownExploited
  summary := raw.summary.map trim
  references := references
  evidence := evidence
  detectedAt := raw.detectedAt
  named := by
    rw [(strip_of_isIdentifier h).1]
    exact (strip_of_isIdentifier h).2

/-- `Vulnerability.model_validate(document)`; an error names the field. -/
def validate (raw : VulnerabilityFields) : Except String Vulnerability := do
  Check.raiseIf (isSchemaVersion lib (trim raw.schemaVersion) = false) "schema_version"
  Check.raiseIf (isScannerVersion lib (trim raw.scannerVersion) = false) "scanner_version"
  Check.raiseIf (isIdentifier (trim raw.scanId) = false) "scan_id"
  Check.raiseIf (shortText 128 raw.endpointId = false) "endpoint_id"
  Check.raiseIf (¬ (1 ≤ (trim raw.packageName).length ∧ (trim raw.packageName).length ≤ 512))
    "package_name"
  Check.raiseIf (shortText 128 raw.packageEcosystem = false) "package_ecosystem"
  Check.raiseIf (shortText 256 raw.installedVersion = false) "installed_version"
  Check.raiseIf (raw.affectedVersions.length > 512) "affected_versions"
  Check.raiseIf (raw.fixedVersions.length > 512) "fixed_versions"
  Check.raiseIf ((raw.aliases.map trim).toFinset.card > 512) "aliases"
  Check.raiseIf (∃ score ∈ raw.cvssScore, ¬ (0 ≤ score ∧ score ≤ 10)) "cvss_score"
  Check.raiseIf (∃ score ∈ raw.exploitability, ¬ (0 ≤ score ∧ score ≤ 1)) "exploitability"
  Check.raiseIf (shortText 16384 raw.summary = false) "summary"
  Check.raiseIf (raw.references.length > 128) "references"
  let references ← raw.references.mapM fun reference => validateReference lib (trim reference)
  let evidence ← validateEvidence rt lib raw.evidence
  if h : isIdentifier (trim raw.vulnerabilityId) = true then .ok (raw.keep h references evidence)
  else .error "vulnerability_id"

/-- `item.model_dump(mode="json", exclude_none=True)` -/
def Vulnerability.dump (item : Vulnerability) : VulnerabilityFields where
  schemaVersion := item.schemaVersion
  scannerVersion := item.scannerVersion
  scanId := item.scanId
  endpointId := item.endpointId
  vulnerabilityId := item.vulnerabilityId
  packageName := item.packageName
  packageEcosystem := item.packageEcosystem
  installedVersion := item.installedVersion
  affectedVersions := item.affectedVersions
  fixedVersions := item.fixedVersions
  aliases := item.aliases.sort
  severity := item.severity
  cvssScore := item.cvssScore
  exploitability := item.exploitability
  knownExploited := item.knownExploited
  summary := item.summary
  references := item.references
  evidence := .obj item.evidence
  detectedAt := item.detectedAt

/-! ## What the checks establish -/

/-- The document is accepted. -/
structure Accepted (raw : VulnerabilityFields) : Prop where
  schemaVersion : isSchemaVersion lib (trim raw.schemaVersion) = true
  scannerVersion : isScannerVersion lib (trim raw.scannerVersion) = true
  scanId : isIdentifier (trim raw.scanId) = true
  endpointId : shortText 128 raw.endpointId = true
  vulnerabilityId : isIdentifier (trim raw.vulnerabilityId) = true
  packageName : 1 ≤ (trim raw.packageName).length ∧ (trim raw.packageName).length ≤ 512
  packageEcosystem : shortText 128 raw.packageEcosystem = true
  installedVersion : shortText 256 raw.installedVersion = true
  affectedVersions : raw.affectedVersions.length ≤ 512
  fixedVersions : raw.fixedVersions.length ≤ 512
  aliases : (raw.aliases.map trim).toFinset.card ≤ 512
  cvssScore : ∀ score ∈ raw.cvssScore, 0 ≤ score ∧ score ≤ 10
  exploitability : ∀ score ∈ raw.exploitability, 0 ≤ score ∧ score ≤ 1
  summary : shortText 16384 raw.summary = true
  references : raw.references.length ≤ 128 ∧
    ∀ reference ∈ raw.references, ∃ kept, validateReference lib (trim reference) = .ok kept
  evidence : ∃ kept, validateEvidence rt lib raw.evidence = .ok kept

section

variable {rt lib} {raw : VulnerabilityFields} {item : Vulnerability}

theorem mapM_isOk {α β : Type} {f : α → Except String β} {xs : List α} :
    (∃ ys, xs.mapM f = .ok ys) ↔ ∀ x ∈ xs, ∃ y, f x = .ok y := by
  induction xs with
  | nil => exact iff_of_true ⟨[], rfl⟩ fun _ h => absurd h List.not_mem_nil
  | cons x xs ih =>
    rw [List.forall_mem_cons, ← ih]
    constructor
    · rintro ⟨ys, h⟩
      rw [List.mapM_cons, bind_eq_ok] at h
      obtain ⟨y, hy, h⟩ := h
      rw [bind_eq_ok] at h
      obtain ⟨ys', hys, -⟩ := h
      exact ⟨⟨y, hy⟩, ys', hys⟩
    · rintro ⟨⟨y, hy⟩, ys, hys⟩
      refine ⟨y :: ys, ?_⟩
      rw [List.mapM_cons, bind_eq_ok]
      exact ⟨y, hy, by rw [bind_eq_ok]; exact ⟨ys, hys, rfl⟩⟩

/-- A document is accepted exactly when every check of its fields succeeds. -/
theorem validate_eq_ok : validate rt lib raw = .ok item ↔ Accepted rt lib raw ∧
    ∃ h references evidence, raw.references.mapM (fun r => validateReference lib (trim r)) =
      .ok references ∧ validateEvidence rt lib raw.evidence = .ok evidence ∧
        item = raw.keep h references evidence := by
  unfold validate
  simp only [bind_unit_eq_ok, Check.raiseIf_eq_ok, Bool.not_eq_false, not_not, not_lt, gt_iff_lt]
  simp only [bind_eq_ok]
  constructor
  · rintro ⟨h₁, h₂, h₃, h₄, h₅, h₆, h₇, h₈, h₉, h₁₀, h₁₁, h₁₂, h₁₃, h₁₄, references, hreferences,
      evidence, hevidence, h⟩
    split at h
    · next hid =>
      refine ⟨⟨h₁, h₂, h₃, h₄, hid, h₅, h₆, h₇, h₈, h₉, h₁₀, ?_, ?_, h₁₃, ⟨h₁₄, ?_⟩, evidence,
        hevidence⟩, hid, references, evidence, hreferences, hevidence, (Except.ok.inj h).symm⟩
      · exact fun score hscore => by_contra fun hnot => h₁₁ ⟨score, hscore, hnot⟩
      · exact fun score hscore => by_contra fun hnot => h₁₂ ⟨score, hscore, hnot⟩
      · exact mapM_isOk.mp ⟨references, hreferences⟩
    · cases h
  · rintro ⟨h, hid, references, evidence, hreferences, hevidence, rfl⟩
    refine ⟨h.schemaVersion, h.scannerVersion, h.scanId, h.endpointId, h.packageName,
      h.packageEcosystem, h.installedVersion, h.affectedVersions, h.fixedVersions, h.aliases, ?_, ?_,
      h.summary, h.references.1, references, hreferences, evidence, hevidence, dif_pos hid⟩
    · rintro ⟨score, hscore, hnot⟩
      exact hnot (h.cvssScore score hscore)
    · rintro ⟨score, hscore, hnot⟩
      exact hnot (h.exploitability score hscore)

theorem validate_isOk : (∃ item, validate rt lib raw = .ok item) ↔ Accepted rt lib raw := by
  constructor
  · rintro ⟨item, h⟩
    exact (validate_eq_ok.mp h).1
  · intro h
    obtain ⟨references, hreferences⟩ := mapM_isOk.mpr h.references.2
    obtain ⟨evidence, hevidence⟩ := h.evidence
    exact ⟨_, validate_eq_ok.mpr
      ⟨h, h.vulnerabilityId, references, evidence, hreferences, hevidence, rfl⟩⟩

/-! ## Validated records -/

/-- What is known of the fields of a validated record. -/
structure Checked (lib : Library) (item : Vulnerability) : Prop where
  schemaVersion : isSchemaVersion lib (trim item.schemaVersion) = true
  scannerVersion : isScannerVersion lib (trim item.scannerVersion) = true
  scanId : isIdentifier (trim item.scanId) = true
  endpointId : shortText 128 item.endpointId = true
  vulnerabilityId : isIdentifier item.vulnerabilityId = true
  packageName : 1 ≤ (trim item.packageName).length ∧ (trim item.packageName).length ≤ 512
  packageEcosystem : shortText 128 item.packageEcosystem = true
  installedVersion : shortText 256 item.installedVersion = true
  aliases : ∀ name ∈ item.aliases, trim name = name
  cvssScore : ∀ score ∈ item.cvssScore, 0 ≤ score ∧ score ≤ 10
  exploitability : ∀ score ∈ item.exploitability, 0 ≤ score ∧ score ≤ 1
  summary : shortText 16384 item.summary = true
  references : ∀ reference ∈ item.references, validateReference lib (trim reference) = .ok reference

theorem shortText_trim {n : Nat} {text : Option String} (h : shortText n text = true) :
    shortText n (text.map trim) = true := by
  cases text with
  | none => rfl
  | some t => simpa only [shortText, Option.map_some, Option.all_some, trim_trim] using h

/-- A reference that was accepted is accepted again, as it is. -/
theorem validateReference_again {value reference : String}
    (h : validateReference lib value = .ok reference) :
    validateReference lib (trim reference) = .ok reference := by
  have hstrip : reference = Storage.strip value := by
    unfold validateReference at h
    simp only [bind_unit_eq_ok] at h
    obtain ⟨-, h⟩ := h
    split at h
    · exact (Except.ok.inj h).symm
    · split at h
      · cases h
      · exact (Except.ok.inj (bind_unit_eq_ok.mp h).2).symm
  have hsame : Storage.strip (trim reference) = Storage.strip value := by
    rw [hstrip, trim_strip, Storage.strip_strip]
  rw [← h]
  unfold validateReference
  rw [hsame]

theorem checked_of_validate (h : validate rt lib raw = .ok item) : Checked lib item := by
  obtain ⟨haccepted, hid, references, evidence, hreferences, -, rfl⟩ := validate_eq_ok.mp h
  refine ⟨?_, ?_, ?_, shortText_trim haccepted.endpointId, hid, ?_,
    shortText_trim haccepted.packageEcosystem, shortText_trim haccepted.installedVersion, ?_,
    haccepted.cvssScore, haccepted.exploitability, shortText_trim haccepted.summary, ?_⟩
  · simpa only [VulnerabilityFields.keep, trim_trim] using haccepted.schemaVersion
  · simpa only [VulnerabilityFields.keep, trim_trim] using haccepted.scannerVersion
  · simpa only [VulnerabilityFields.keep, trim_trim] using haccepted.scanId
  · simpa only [VulnerabilityFields.keep, trim_trim] using haccepted.packageName
  · intro name hname
    obtain ⟨text, -, rfl⟩ := List.mem_map.mp (List.mem_toFinset.mp hname)
    exact trim_trim text
  · intro reference hmem
    obtain ⟨value, -, hvalue⟩ := exists_of_mem_right (mapM_eq_ok.mp hreferences) hmem
    exact validateReference_again hvalue

end

end OsScanner.Normalization

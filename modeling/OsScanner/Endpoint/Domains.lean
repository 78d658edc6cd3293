import Mathlib
import OsScanner.Lib.Hierarchy
import OsScanner.Storage.Database
import OsScanner.Storage.UploadQueue

/-!
# Domain names and the authorization of a discovery job

Two functions are called `normalize_domain`: `app/models/validators.py` accepts the names of a
job, `app/tools/amass/adapter.py` those that the discovery tool is given and reports. They
differ in what they strip, lower and refuse, but both return canonical names only, and neither
changes a canonical name.
-/

namespace OsScanner.Endpoint

open Lib Check Storage

/-! ## What is not part of the program -/

/-- The parts of a host name, as `tldextract` returns them. -/
structure ExtractResult where
  domain : String
  suffix : String
  topDomainUnderPublicSuffix : String

/-- `json.JSONDecodeError`, or any other exception. -/
inductive LoadError where
  | decode
  | other
  deriving DecidableEq

/-- The functions of the standard library and of `tldextract` that names go through. -/
structure NameLibrary where
  /-- `text.encode("idna").decode("ascii")`, absent where it raises `UnicodeError`. -/
  idna : String → Option String
  /-- Labels in ASCII are only measured. -/
  idna_ascii : ∀ text, (∀ c ∈ text.toList, c.toNat < 128) →
    (∀ label ∈ text.toList.splitOn '.', 0 < label.length ∧ label.length < 64) →
      idna text = some text
  /-- `text.lower()` -/
  lower : String → String
  lower_ascii : ∀ text, (∀ c ∈ text.toList, c.toNat < 128) →
    lower text = String.ofList (text.toList.map Char.toLower)
  /-- `text.casefold()` -/
  casefold : String → String
  casefold_ascii : ∀ text, (∀ c ∈ text.toList, c.toNat < 128) →
    casefold text = String.ofList (text.toList.map Char.toLower)
  /-- `str(ipaddress.ip_address(text))`, absent where it raises `ValueError`. -/
  ipAddress : String → Option String
  ipAddress_idem : ∀ text address, ipAddress text = some address → ipAddress address = some address
  /-- `_PUBLIC_SUFFIX_EXTRACTOR(domain)` -/
  extract : String → ExtractResult
  /-- `json.loads(text)` -/
  loads : String → Except LoadError Json

/-! ## Labels -/

/-- `[a-z0-9]` -/
def isLabelChar (c : Char) : Bool := decide ('a' ≤ c ∧ c ≤ 'z') || decide ('0' ≤ c ∧ c ≤ '9')

/-- `^[a-z0-9](?:[a-z0-9-]{0,61}[a-z0-9])?$` -/
def isDnsLabel (label : List Char) : Bool :=
  decide (0 < label.length ∧ label.length ≤ 63) &&
    label.all (fun c => isLabelChar c || decide (c = '-')) &&
    label.head?.all isLabelChar && label.getLast?.all isLabelChar

/-- `(label.isalpha() and len(label) >= 2) or label.startswith("xn--")` -/
def isTopLevel (label : List Char) : Bool :=
  (label.all Char.isAlpha && decide (2 ≤ label.length)) || "xn--".toList.isPrefixOf label

/-- `domain.split(".")` -/
def labelsOf (domain : String) : List (List Char) := domain.toList.splitOn '.'

/-- `text.rstrip(".")` -/
def rstripDots (text : String) : String := String.ofList (text.toList.rdropWhile (· = '.'))

/-- `domain.endswith(f".{parent}")` -/
def EndsUnder (domain parent : String) : Prop := '.' :: parent.toList <:+ domain.toList

/-- `domain == parent or domain.endswith(f".{parent}")` -/
def Within (domain parent : String) : Prop := domain = parent ∨ EndsUnder domain parent

instance (domain parent : String) : Decidable (EndsUnder domain parent) :=
  inferInstanceAs (Decidable (_ <:+ _))

instance (domain parent : String) : Decidable (Within domain parent) :=
  inferInstanceAs (Decidable (_ ∨ _))

section

variable (lib : NameLibrary)

/-! ## Names of a job -/

/-- `normalize_domain(value)` of `app/models/validators.py` -/
def normalizeDomain (value : String) : Except String String := do
  let candidate := lib.lower (rstripDots (strip value))
  raiseIf (candidate = "" ∨ 253 < candidate.length)
    "domain must contain between 1 and 253 characters"
  raiseIf ("://".toList <:+: candidate.toList ∨
      (candidate.toList.any fun c => decide (c ∈ "/?#@:*[]".toList)) = true)
    "target must be a DNS domain, not a URL, wildcard, IP, or host:port"
  match lib.idna candidate with
  | none => .error "domain is not valid IDNA"
  | some asciiDomain => do
    raiseIf ((labelsOf asciiDomain).length < 2 ∨
        ∃ label ∈ labelsOf asciiDomain, isDnsLabel label = false)
      "domain must be a valid multi-label DNS name"
    raiseIf ((labelsOf asciiDomain).getLast?.all isTopLevel = false)
      "domain must end in a valid alphabetic top-level label"
    .ok asciiDomain

/-- `frozenset(normalize_domain(value) for value in values)` -/
def normalizeDomains (values : List String) : Except String (List String) :=
  values.mapM (normalizeDomain lib)

/-- The domains of `AuthorizationScope`, after its validators. -/
structure AuthorizationScope where
  scopeId : String
  authorized : Bool
  allowedDomains : List String
  excludedDomains : List String
  allowSubdomains : Bool := true
  allowed_normalized : ∃ values, normalizeDomains lib values = .ok allowedDomains
  excluded_normalized : ∃ values, normalizeDomains lib values = .ok excludedDomains
  no_overlap : ∀ domain ∈ allowedDomains, domain ∉ excludedDomains

variable {lib}

/-- `allows_domain(domain)` -/
def AuthorizationScope.allowsDomain (scope : AuthorizationScope lib) (domain : String) :
    Except String Bool := do
  let candidate ← normalizeDomain lib domain
  if ∃ denied ∈ scope.excludedDomains, candidate = denied ∨ EndsUnder candidate denied then
    .ok false
  else if candidate ∈ scope.allowedDomains then .ok true
  else .ok (scope.allowSubdomains &&
    decide (∃ allowed ∈ scope.allowedDomains, EndsUnder candidate allowed))

/-- A parameter of the job: a list of names that are normalized and authorized. -/
def domainParameter (scope : AuthorizationScope lib) (key : String) :
    List String → Except String (List String)
  | [] => .ok []
  | value :: values => do
    let domain ← normalizeDomain lib value
    let allowed ← scope.allowsDomain domain
    raiseIf (allowed = false) (key ++ " contains a domain outside authorization scope")
    (domain :: ·) <$> domainParameter scope key values

variable (lib) in
/-- An `ATTACK_SURFACE` job, after its validators. -/
structure AttackSurfaceJob where
  scanId : String
  target : String
  authorization : AuthorizationScope lib
  /-- `parameters.get("scope", [])` -/
  scope : List String := []
  /-- `parameters.get("exclusions", [])` -/
  exclusions : List String := []
  authorized : authorization.authorized = true
  target_normalized : ∃ value, normalizeDomain lib value = .ok target
  target_allowed : authorization.allowsDomain target = .ok true
  scope_allowed : ∃ values, domainParameter authorization "scope" values = .ok scope
  exclusions_allowed : ∃ values,
    domainParameter authorization "exclusions" values = .ok exclusions

end

/-! ## Canonical names -/

/-- What both functions return. -/
structure Canonical (domain : String) : Prop where
  labels : ∀ label ∈ labelsOf domain, isDnsLabel label = true
  several : 2 ≤ (labelsOf domain).length
  topLevel : (labelsOf domain).getLast?.all isTopLevel = true

/-- The characters of a canonical name. -/
def isNameChar (c : Char) : Bool := isLabelChar c || decide (c = '-') || decide (c = '.')

theorem toNat_of_isNameChar {c : Char} (h : isNameChar c = true) :
    (97 ≤ c.toNat ∧ c.toNat ≤ 122) ∨ (48 ≤ c.toNat ∧ c.toNat ≤ 57) ∨ c.toNat = 45 ∨
      c.toNat = 46 := by
  simp only [isNameChar, isLabelChar, Bool.or_eq_true, decide_eq_true_eq] at h
  obtain ((h | h) | rfl) | rfl := h
  · exact Or.inl ⟨h.1, h.2⟩
  · exact Or.inr (Or.inl ⟨h.1, h.2⟩)
  · exact Or.inr (Or.inr (Or.inl rfl))
  · exact Or.inr (Or.inr (Or.inr rfl))

theorem isSpace_of_isNameChar {c : Char} (h : isNameChar c = true) : isSpace c = false := by
  have hrange := toNat_of_isNameChar h
  simp only [isSpace, decide_eq_false_iff_not]
  omega

theorem toLower_of_isNameChar {c : Char} (h : isNameChar c = true) : c.toLower = c := by
  have hrange := toNat_of_isNameChar h
  have hupper : ¬ (c.val ≥ 65 ∧ c.val ≤ 90) := by
    rintro ⟨hlow, hhigh⟩
    have hlow' : 65 ≤ c.toNat := hlow
    have hhigh' : c.toNat ≤ 90 := hhigh
    omega
  unfold Char.toLower
  exact dif_neg hupper

/-- Every character that is not a separator stands in a label. -/
theorem mem_label_of_mem {c : Char} (hne : c ≠ '.') :
    ∀ {text : List Char}, c ∈ text → ∃ label ∈ text.splitOn '.', c ∈ label
  | [], h => by cases h
  | x :: text, h => by
    rw [List.splitOn_cons_eq_if_modifyHead]
    obtain ⟨first, rest, hsplit⟩ := List.exists_cons_of_ne_nil (List.splitOn_ne_nil '.' text)
    obtain rfl | hrest := List.mem_cons.mp h
    · rw [if_neg (by simpa using hne), hsplit, List.modifyHead_cons]
      exact ⟨c :: first, List.mem_cons_self, List.mem_cons_self⟩
    · obtain ⟨label, hlabel, hc⟩ := mem_label_of_mem hne hrest
      split
      · exact ⟨label, List.mem_cons_of_mem _ hlabel, hc⟩
      · rw [hsplit] at hlabel ⊢
        rw [List.modifyHead_cons]
        obtain rfl | htail := List.mem_cons.mp hlabel
        · exact ⟨x :: label, List.mem_cons_self, List.mem_cons_of_mem _ hc⟩
        · exact ⟨label, List.mem_cons_of_mem _ htail, hc⟩

theorem length_of_isDnsLabel {label : List Char} (h : isDnsLabel label = true) :
    0 < label.length ∧ label.length < 64 := by
  simp only [isDnsLabel, Bool.and_eq_true, decide_eq_true_eq] at h
  omega

namespace Canonical

variable {domain : String} (h : Canonical domain)

include h

theorem isNameChar {c : Char} (hc : c ∈ domain.toList) : isNameChar c = true := by
  by_cases hdot : c = '.'
  · rw [hdot]
    decide
  · obtain ⟨label, hlabel, hmem⟩ := mem_label_of_mem hdot hc
    have hdns := h.labels label hlabel
    simp only [isDnsLabel, Bool.and_eq_true, List.all_eq_true] at hdns
    rw [Endpoint.isNameChar, hdns.1.1.2 c hmem, Bool.true_or]

theorem ascii {c : Char} (hc : c ∈ domain.toList) : c.toNat < 128 := by
  have hrange := toNat_of_isNameChar (h.isNameChar hc)
  omega

theorem ne_nil : domain.toList ≠ [] := by
  intro hnil
  have hseveral := h.several
  rw [labelsOf, hnil, List.splitOn_nil] at hseveral
  simp at hseveral

/-- The last label is not empty. -/
theorem getLast_ne_dot : domain.toList.getLast h.ne_nil ≠ '.' := by
  intro hdot
  have hsplit := List.dropLast_append_getLast h.ne_nil
  rw [hdot] at hsplit
  have hempty : [] ∈ labelsOf domain := by
    rw [labelsOf, ← hsplit, List.splitOn_append_cons_self]
    simp
  exact absurd (length_of_isDnsLabel (h.labels _ hempty)).1 (by simp)

theorem strip_eq : strip domain = domain := by
  have hdrop : domain.toList.dropWhile isSpace = domain.toList := by
    refine List.dropWhile_eq_self_iff.mpr fun hpos => ?_
    rw [isSpace_of_isNameChar (h.isNameChar (List.getElem_mem _))]
    exact Bool.false_ne_true
  have hrdrop : domain.toList.rdropWhile isSpace = domain.toList := by
    refine List.rdropWhile_eq_self_iff.mpr fun hne => ?_
    rw [isSpace_of_isNameChar (h.isNameChar (List.getLast_mem hne))]
    exact Bool.false_ne_true
  rw [strip, hdrop, hrdrop, String.ofList_toList]

theorem rstripDots_eq : rstripDots domain = domain := by
  have hrdrop : domain.toList.rdropWhile (· = '.') = domain.toList :=
    List.rdropWhile_eq_self_iff.mpr fun _ => by simpa using h.getLast_ne_dot
  rw [rstripDots, hrdrop, String.ofList_toList]

theorem map_toLower : String.ofList (domain.toList.map Char.toLower) = domain := by
  have hmap : domain.toList.map Char.toLower = domain.toList :=
    (List.map_congr_left fun c hc => toLower_of_isNameChar (h.isNameChar hc)).trans (List.map_id _)
  rw [hmap, String.ofList_toList]

variable (lib : NameLibrary)

theorem lower_eq : lib.lower domain = domain := by
  rw [lib.lower_ascii _ fun _ hc => h.ascii hc, h.map_toLower]

theorem casefold_eq : lib.casefold domain = domain := by
  rw [lib.casefold_ascii _ fun _ hc => h.ascii hc, h.map_toLower]

theorem idna_eq : lib.idna domain = some domain :=
  lib.idna_ascii _ (fun _ hc => h.ascii hc) fun label hlabel =>
    length_of_isDnsLabel (h.labels label hlabel)

/-- A canonical name contains none of the characters that both functions refuse. -/
theorem not_mem {c : Char} (hc : Endpoint.isNameChar c = false) : c ∉ domain.toList := by
  intro hmem
  rw [h.isNameChar hmem] at hc
  cases hc

theorem checks : ¬ ((labelsOf domain).length < 2 ∨
    ∃ label ∈ labelsOf domain, isDnsLabel label = false) := by
  rintro (hshort | ⟨label, hlabel, hdns⟩)
  · have hseveral := h.several
    omega
  · rw [h.labels label hlabel] at hdns
    cases hdns

end Canonical

/-- The checks that both functions make at the end. -/
theorem canonical_of_checks {domain : String} (hlabels : ¬ ((labelsOf domain).length < 2 ∨
      ∃ label ∈ labelsOf domain, isDnsLabel label = false))
    (htop : ¬ (labelsOf domain).getLast?.all isTopLevel = false) : Canonical domain := by
  rw [not_or, not_lt] at hlabels
  refine ⟨fun label hlabel => ?_, hlabels.1, by simpa using htop⟩
  by_contra hdns
  exact hlabels.2 ⟨label, hlabel, by simpa using hdns⟩

section

variable {lib : NameLibrary} {value domain : String}

theorem canonical_of_normalizeDomain (h : normalizeDomain lib value = .ok domain) :
    Canonical domain := by
  unfold normalizeDomain at h
  simp only [bind_unit_eq_ok, raiseIf_eq_ok] at h
  obtain ⟨-, -, h⟩ := h
  split at h
  · cases h
  · next ascii hidna =>
    simp only [bind_unit_eq_ok, raiseIf_eq_ok] at h
    obtain ⟨hlabels, htop, h⟩ := h
    cases h
    exact canonical_of_checks hlabels htop

/-- A canonical name is returned as it is, unless it is too long. -/
theorem Canonical.normalizeDomain_eq (hcanonical : Canonical domain) :
    normalizeDomain lib domain = if 253 < domain.length then
      .error "domain must contain between 1 and 253 characters" else .ok domain := by
  have hne : domain ≠ "" := fun h => hcanonical.ne_nil (by rw [h]; rfl)
  have hchars : ¬ ("://".toList <:+: domain.toList ∨
      (domain.toList.any fun c => decide (c ∈ "/?#@:*[]".toList)) = true) := by
    rintro (hscheme | hrefused)
    · exact hcanonical.not_mem (c := ':') (by decide) (hscheme.subset (by decide))
    · simp only [List.any_eq_true, decide_eq_true_eq] at hrefused
      obtain ⟨c, hc, hrefused⟩ := hrefused
      have hall : ∀ c ∈ "/?#@:*[]".toList, Endpoint.isNameChar c = false := by
        simp [Endpoint.isNameChar, isLabelChar]
      exact hcanonical.not_mem (hall c hrefused) hc
  have htop : ¬ (labelsOf domain).getLast?.all isTopLevel = false := by
    rw [hcanonical.topLevel]
    decide
  unfold normalizeDomain
  rw [hcanonical.strip_eq, hcanonical.rstripDots_eq, hcanonical.lower_eq]
  simp only [hcanonical.idna_eq, raiseIf, if_neg hchars, if_neg hcanonical.checks, if_neg htop, hne,
    false_or]
  split <;> rfl

theorem Canonical.eq_of_normalizeDomain (hcanonical : Canonical value)
    (h : normalizeDomain lib value = .ok domain) : domain = value := by
  rw [hcanonical.normalizeDomain_eq] at h
  split at h
  · cases h
  · cases h
    rfl

theorem canonical_of_normalizeDomains {values domains : List String}
    (h : normalizeDomains lib values = .ok domains) : ∀ domain ∈ domains, Canonical domain := by
  intro domain hdomain
  obtain ⟨value, -, hvalue⟩ := exists_of_mem_right (mapM_eq_ok.mp h) hdomain
  exact canonical_of_normalizeDomain hvalue

/-! ## What a scope allows -/

theorem within_iff {name parent : String} : Within name parent ↔
    Under '.' name.toList parent.toList := by
  rw [Within, Under, String.toList_inj, EndsUnder]

theorem AuthorizationScope.allowsDomain_eq_true (scope : AuthorizationScope lib)
    (hcanonical : Canonical domain) :
    scope.allowsDomain domain = .ok true ↔ domain.length ≤ 253 ∧
      (¬ ∃ denied ∈ scope.excludedDomains, Within domain denied) ∧
        (domain ∈ scope.allowedDomains ∨
          scope.allowSubdomains = true ∧
            ∃ allowed ∈ scope.allowedDomains, EndsUnder domain allowed) := by
  unfold AuthorizationScope.allowsDomain
  rw [hcanonical.normalizeDomain_eq]
  by_cases hlength : 253 < domain.length
  · rw [if_pos hlength]
    exact iff_of_false (fun h => nomatch h) fun h => absurd h.1 (by omega)
  · rw [if_neg hlength, and_iff_right (not_lt.mp hlength)]
    show (if ∃ denied ∈ scope.excludedDomains, Within domain denied then _ else _) = _ ↔ _
    by_cases hdenied : ∃ denied ∈ scope.excludedDomains, Within domain denied
    · rw [if_pos hdenied]
      exact iff_of_false (by simp) fun h => h.1 hdenied
    · rw [if_neg hdenied, and_iff_right hdenied]
      by_cases hlisted : domain ∈ scope.allowedDomains
      · simp [hlisted]
      · simp [hlisted]

/--
A name within the target that no exclusion within the target covers is authorized as soon as
subdomains are, or it is listed itself.
-/
theorem AttackSurfaceJob.allowsDomain_iff (job : AttackSurfaceJob lib)
    (hcanonical : Canonical domain) (hlength : domain.length ≤ 253)
    (hwithin : Within domain job.target)
    (hkept : ∀ denied ∈ job.authorization.excludedDomains, Within denied job.target →
      ¬ Within domain denied) :
    job.authorization.allowsDomain domain = .ok true ↔
      job.authorization.allowSubdomains = true ∨ domain ∈ job.authorization.allowedDomains := by
  obtain ⟨raw, hraw⟩ := job.target_normalized
  obtain ⟨-, htarget, hallowed⟩ :=
    (job.authorization.allowsDomain_eq_true (canonical_of_normalizeDomain hraw)).mp
      job.target_allowed
  -- An exclusion above the target would exclude the target itself.
  have hnot : ¬ ∃ denied ∈ job.authorization.excludedDomains, Within domain denied := by
    rintro ⟨denied, hdenied, hunder⟩
    obtain habove | hbelow := (within_iff.mp hwithin).comparable (within_iff.mp hunder)
    · exact htarget ⟨denied, hdenied, within_iff.mpr habove⟩
    · exact hkept denied hdenied (within_iff.mpr hbelow) hunder
  rw [job.authorization.allowsDomain_eq_true hcanonical, and_iff_right hlength,
    and_iff_right hnot]
  constructor
  · rintro (hlisted | ⟨hsubdomains, -⟩)
    · exact Or.inr hlisted
    · exact Or.inl hsubdomains
  · rintro (hsubdomains | hlisted)
    · obtain rfl | hends := hwithin
      · exact hallowed
      · obtain hlisted | ⟨-, allowed, hin, hunder⟩ := hallowed
        · exact Or.inr ⟨hsubdomains, job.target, hlisted, hends⟩
        · have hall : EndsUnder domain allowed :=
            (within_iff.mp (Or.inr hends)).suffix_trans hunder
          exact Or.inr ⟨hsubdomains, allowed, hin, hall⟩
    · exact Or.inl hlisted

end

end OsScanner.Endpoint

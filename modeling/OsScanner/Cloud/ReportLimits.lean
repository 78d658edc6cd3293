import Mathlib
import OsScanner.Cloud.FinalReport
import OsScanner.Cloud.StoredEvidence
import OsScanner.Cloud.LostLease

/-!
# Accepted evidence and the limits of the final report

`ScanUpload` lets in documents that nest 32 levels deep, and `ingest_scan` puts the reconstructed
snapshot into them. `build_final_report` reads what is stored with other limits: 20 levels,
named keys, limits in bytes, and then once more on the report that wraps the evidence two levels
deeper. An upload between the two sets of limits is accepted and never gets a final report.
-/

namespace OsScanner.Cloud

open Lib Lib.Check Security

/-! ## The errors of the limits -/

/-- The messages of the checks of depth, of the number of values, components and records, and of
the size in bytes. -/
def limitMessages : List String :=
  ["CycloneDX SBOM exceeds structural limits",
    "CycloneDX component count exceeds the configured limit",
    "CycloneDX SBOM exceeds the configured byte limit",
    "endpoint result evidence exceeds structural limits",
    "endpoint result evidence exceeds the configured byte limit",
    "inventory synchronization evidence exceeds structural limits",
    "inventory synchronization evidence exceeds the configured byte limit",
    "persisted OSV result exceeds record limits",
    "persisted DEPSCAN result exceeds record limits",
    "combined cloud vulnerability limit exceeded",
    "final cloud report exceeds structural limits",
    "final cloud report exceeds the configured byte limit"]

/-- The error of a limit. -/
def isLimit : WorkerError → Prop
  | .permanent message => message ∈ limitMessages
  | _ => False

instance : DecidablePred isLimit := fun error => by
  unfold isLimit
  split <;> infer_instance

/-- The check ends at no limit: it passes, or it is another check that it does not pass. -/
def NoLimit {α : Type} (x : Except WorkerError α) : Prop := ¬ Raises isLimit x

@[simp] theorem noLimit_ok {α : Type} {a : α} : NoLimit (.ok a) := not_raises_ok

theorem noLimit_permanent {α : Type} {message : String} :
    NoLimit (permanent message : Except WorkerError α) ↔ message ∉ limitMessages :=
  not_congr raises_error

theorem noLimit_bind {α β : Type} {x : Except WorkerError α} {f : α → Except WorkerError β} :
    NoLimit (x >>= f) ↔ NoLimit x ∧ ∀ a, x = .ok a → NoLimit (f a) := by
  rw [NoLimit, raises_bind, not_or, not_exists]
  exact and_congr_right fun _ => forall_congr' fun a => not_and

theorem noLimit_map {α β : Type} {x : Except WorkerError α} {f : α → β} :
    NoLimit (x.map f) ↔ NoLimit x := not_congr raises_map

/-- The check of a limit. -/
theorem noLimit_permanentIf {bad : Prop} [Decidable bad] {message : String}
    (h : message ∈ limitMessages) : NoLimit (permanentIf bad message) ↔ ¬ bad :=
  not_congr (raises_raiseIf.trans (and_iff_left h))

/-- Any other check. -/
theorem noLimit_of_not_mem {bad : Prop} [Decidable bad] {message : String}
    (h : message ∉ limitMessages) : NoLimit (permanentIf bad message) :=
  fun hlimit => h (raises_raiseIf.mp hlimit).2

theorem permanentIf_eq_ok {bad : Prop} [Decidable bad] {message : String} {u : Unit} :
    permanentIf bad message = .ok u ↔ ¬ bad := by
  by_cases h : bad <;> simp [permanentIf, Check.raiseIf, h]

/-! ## Documents -/

/-- `bounded_json(document, max_depth=20, max_nodes=…)` takes the document. -/
def Shaped (maxNodes : Nat) (document : JsonObject) : Prop :=
  nodes (.obj document) ≤ maxNodes ∧ height (.obj document) ≤ 20 ∧
    keysNamed (.obj document) = true

instance (maxNodes : Nat) (document : JsonObject) : Decidable (Shaped maxNodes document) := by
  unfold Shaped
  infer_instance

/-- The check of the shape, with the message that it raises. -/
def shapeCheck (maxNodes : Nat) (document : JsonObject) (message : String) :
    Except WorkerError Json :=
  (boundedCopy 20 maxNodes (.obj document)).mapError fun _ => .permanent message

theorem shapeCheck_eq_ok {maxNodes : Nat} {document : JsonObject} {message : String}
    {copy : Json} : shapeCheck maxNodes document message = .ok copy ↔
      Shaped maxNodes document ∧ copy = .obj document := by
  rw [Shaped, ← boundedCopy_eq_ok, shapeCheck]
  cases boundedCopy 20 maxNodes (.obj document) <;> simp [Except.mapError]

theorem noLimit_shapeCheck {maxNodes : Nat} {document : JsonObject} {message : String}
    (h : message ∈ limitMessages) :
    NoLimit (shapeCheck maxNodes document message) ↔ Shaped maxNodes document := by
  cases hcheck : shapeCheck maxNodes document message with
  | ok copy =>
    have hshaped := (shapeCheck_eq_ok.mp hcheck).1
    simp [hshaped]
  | error e =>
    have hmessage : e = .permanent message := by
      unfold shapeCheck at hcheck
      cases hcopy : boundedCopy 20 maxNodes (.obj document) with
      | error _ => rw [hcopy] at hcheck; exact (Except.error.inj hcheck).symm
      | ok _ => rw [hcopy] at hcheck; cases hcheck
    have hnot : ¬ Shaped maxNodes document := fun hshaped => by
      rw [shapeCheck_eq_ok.mpr ⟨hshaped, rfl⟩] at hcheck
      cases hcheck
    rw [hmessage]
    exact iff_of_false (fun hno => hno (raises_error.mpr h)) hnot

section Report

variable {V : Type} {rt : Runtime} {engine : ReportEngine V}

/-! ## The SBOM -/

/-- The format and the version are those that the analysis knows. -/
def IsCycloneDx (rt : Runtime) (document : JsonObject) : Prop :=
  document.get "bomFormat" = .str "CycloneDX" ∧ specVersion rt document ∈ supportedCycloneDx

/-- The SBOM is within the limits, as far as they are checked. -/
structure SbomFits (rt : Runtime) (limits : AnalysisLimits) (document : JsonObject) : Prop where
  shaped : Shaped limits.maxReportNodes document
  components : IsCycloneDx rt document →
    NoLimit (countComponents document limits.maxComponents)
  bytes : IsCycloneDx rt document →
    (∃ count, countComponents document limits.maxComponents = .ok count) →
    canonicalSize rt (.obj document) ≤ limits.maxSbomBytes

/-- The analysis takes the SBOM: it is known, well formed and within the limits. -/
structure SbomTaken (rt : Runtime) (limits : AnalysisLimits) (document : JsonObject) : Prop where
  shaped : Shaped limits.maxReportNodes document
  known : IsCycloneDx rt document
  counted : ∃ count, countComponents document limits.maxComponents = .ok count
  bytes : canonicalSize rt (.obj document) ≤ limits.maxSbomBytes

/-- The checks of `_validate_sbom` behind the check of the shape. -/
theorem validateSbom_eq (limits : AnalysisLimits) (scan : CloudScanInput) :
    validateSbom rt limits scan = (do
      let _ ← shapeCheck limits.maxReportNodes scan.sbom "CycloneDX SBOM exceeds structural limits"
      permanentIf (scan.sbom.get "bomFormat" ≠ .str "CycloneDX")
        "SBOM must use the CycloneDX format"
      permanentIf (¬ specVersion rt scan.sbom ∈ supportedCycloneDx)
        "unsupported CycloneDX SBOM specification version"
      let componentCount ← countComponents scan.sbom limits.maxComponents
      permanentIf (canonicalSize rt (.obj scan.sbom) > limits.maxSbomBytes)
        "CycloneDX SBOM exceeds the configured byte limit"
      permanentIf (∃ checksum ∈ scan.sbomSha256,
          Json.canonicalSha256 rt (.obj scan.sbom) ≠ checksum)
        "CycloneDX SBOM checksum does not match its content"
      .ok ⟨Json.canonicalSha256 rt (.obj scan.sbom), specVersion rt scan.sbom, componentCount⟩) :=
  rfl

theorem noLimit_validateSbom {limits : AnalysisLimits} {scan : CloudScanInput} :
    NoLimit (validateSbom rt limits scan) ↔ SbomFits rt limits scan.sbom := by
  rw [validateSbom_eq]
  simp only [noLimit_bind, permanentIf_eq_ok, shapeCheck_eq_ok, noLimit_ok, not_not, ne_eq,
    implies_true, and_true, gt_iff_lt, not_lt,
    @noLimit_shapeCheck _ _ "CycloneDX SBOM exceeds structural limits" (by decide),
    @noLimit_permanentIf _ _ "CycloneDX SBOM exceeds the configured byte limit" (by decide)]
  constructor
  · rintro ⟨hshaped, h⟩
    obtain ⟨-, hformat⟩ := h _ ⟨hshaped, rfl⟩
    refine ⟨hshaped, fun hknown => ?_, fun hknown hcount => ?_⟩
    · exact ((hformat () hknown.1).2 () hknown.2).1
    · obtain ⟨count, hcount⟩ := hcount
      exact (((hformat () hknown.1).2 () hknown.2).2 count hcount).1
  · intro hfits
    refine ⟨hfits.shaped, fun _ _ => ⟨noLimit_of_not_mem (by decide), fun _ hformat =>
      ⟨noLimit_of_not_mem (by decide), fun _ hversion => ⟨hfits.components ⟨hformat, hversion⟩,
        fun count hcount => ⟨hfits.bytes ⟨hformat, hversion⟩ ⟨count, hcount⟩, fun _ _ => ?_⟩⟩⟩⟩⟩
    exact noLimit_of_not_mem (by decide)

/-- An SBOM is validated exactly when it is taken and its checksum is its own. -/
theorem validateSbom_eq_ok {limits : AnalysisLimits} {scan : CloudScanInput} :
    (∃ validated, validateSbom rt limits scan = .ok validated) ↔
      SbomTaken rt limits scan.sbom ∧
        ∀ checksum ∈ scan.sbomSha256, Json.canonicalSha256 rt (.obj scan.sbom) = checksum := by
  rw [validateSbom_eq]
  simp only [Check.bind_eq_ok, permanentIf_eq_ok, shapeCheck_eq_ok, not_not, ne_eq, gt_iff_lt,
    not_lt, not_exists, not_and]
  constructor
  · rintro ⟨_, _, ⟨hshaped, -⟩, _, hformat, _, hversion, count, hcount, _, hbytes, _, hsum, -⟩
    exact ⟨⟨hshaped, ⟨hformat, hversion⟩, ⟨count, hcount⟩, hbytes⟩, hsum⟩
  · rintro ⟨⟨hshaped, ⟨hformat, hversion⟩, ⟨count, hcount⟩, hbytes⟩, hsum⟩
    exact ⟨_, _, ⟨hshaped, rfl⟩, (), hformat, (), hversion, count, hcount, (), hbytes, (), hsum,
      rfl⟩

/-! ## The evidence -/

/-- The evidence is within the limits. -/
def EvidenceFits (rt : Runtime) (limits : AnalysisLimits) (document : JsonObject) : Prop :=
  Shaped limits.maxEndpointEvidenceNodes document ∧
    canonicalSize rt (.obj document) ≤ limits.maxEndpointEvidenceBytes

/-- The evidence as the report quotes it. -/
def quotedEvidence (rt : Runtime) (engine : ReportEngine V) (document : JsonObject) :
    JsonObject := redactFields rt engine.isWord document

/-- Evidence within the limits is redacted whole. -/
theorem redactValue_evidence {document : JsonObject}
    (h : Shaped engine.limits.maxEndpointEvidenceNodes document) :
    redactValue rt engine.isWord 20 engine.limits.maxEndpointEvidenceNodes (.obj document) =
      .obj (quotedEvidence rt engine document) := by
  rw [redactValue_within h.1 h.2.1, redactTree, if_neg Bool.false_ne_true, quotedEvidence]

theorem boundedEvidence_eq (document : JsonObject) (label : String) :
    boundedEvidence rt engine document label = (do
      let _ ← shapeCheck engine.limits.maxEndpointEvidenceNodes document
        (label ++ " exceeds structural limits")
      permanentIf (canonicalSize rt (.obj document) > engine.limits.maxEndpointEvidenceBytes)
        (label ++ " exceeds the configured byte limit")
      match redactValue rt engine.isWord 20 engine.limits.maxEndpointEvidenceNodes
          (.obj document) with
      | .obj redacted => .ok redacted
      | _ => permanent (label ++ " redaction produced an invalid object")) := rfl

theorem boundedEvidence_eq_ok {document redacted : JsonObject} {label : String} :
    boundedEvidence rt engine document label = .ok redacted ↔
      EvidenceFits rt engine.limits document ∧ redacted = quotedEvidence rt engine document := by
  rw [boundedEvidence_eq]
  simp only [Check.bind_eq_ok, permanentIf_eq_ok, shapeCheck_eq_ok, gt_iff_lt, not_lt]
  constructor
  · rintro ⟨_, ⟨hshaped, -⟩, _, hbytes, hredacted⟩
    rw [redactValue_evidence hshaped] at hredacted
    exact ⟨⟨hshaped, hbytes⟩, (Except.ok.inj hredacted).symm⟩
  · rintro ⟨⟨hshaped, hbytes⟩, rfl⟩
    exact ⟨_, ⟨hshaped, rfl⟩, (), hbytes, by rw [redactValue_evidence hshaped]⟩

theorem noLimit_boundedEvidence {document : JsonObject} {label : String}
    (hshape : label ++ " exceeds structural limits" ∈ limitMessages)
    (hbytes : label ++ " exceeds the configured byte limit" ∈ limitMessages) :
    NoLimit (boundedEvidence rt engine document label) ↔
      EvidenceFits rt engine.limits document := by
  rw [boundedEvidence_eq]
  simp only [noLimit_bind, permanentIf_eq_ok, shapeCheck_eq_ok, noLimit_shapeCheck hshape,
    noLimit_permanentIf hbytes, gt_iff_lt, not_lt]
  constructor
  · rintro ⟨hshaped, h⟩
    exact ⟨hshaped, (h _ ⟨hshaped, rfl⟩).1⟩
  · rintro ⟨hshaped, hsize⟩
    refine ⟨hshaped, fun _ _ => ⟨hsize, fun _ _ => ?_⟩⟩
    rw [redactValue_evidence hshaped]
    exact noLimit_ok

/-! ## The results of the tools -/

/-- The persisted result is one of this scan, and its records are in a list. -/
structure ToolRead (engine : ReportEngine V) (rt : Runtime) (scan : CloudScanInput)
    (tool : TaskKind) (raw : JsonObject) (records : List Json) : Prop where
  owner : isSyntheticFailure (normalizedStatus rt (raw.get "status")) raw = false →
    textOrEmpty engine (raw.get "scan_id") = scan.scanId ∧
      textOrEmpty engine (raw.get "endpoint_id") = scan.endpointId
  records : rawVulnerabilities tool raw = .ok records

/-- The records of a tool are within the limit, as far as they are checked. -/
def ToolFits (engine : ReportEngine V) (rt : Runtime) (scan : CloudScanInput) (tool : TaskKind)
    (raw : JsonObject) : Prop :=
  ∀ records, ToolRead engine rt scan tool raw records →
    records.length ≤ engine.limits.maxVulnerabilitiesPerTool

/-- The result of each tool fits, as long as those before it could be read. -/
def ToolsFit (engine : ReportEngine V) (rt : Runtime) (scan : CloudScanInput)
    (results : Dict TaskKind JsonObject) : List TaskKind → Prop
  | [] => True
  | tool :: tools => ToolFits engine rt scan tool ((results.get? tool).getD []) ∧
    ((∃ records, ToolRead engine rt scan tool ((results.get? tool).getD []) records) →
      ToolsFit engine rt scan results tools)

theorem noLimit_rawVulnerabilities (tool : TaskKind) (raw : JsonObject) :
    NoLimit (rawVulnerabilities tool raw) := by
  unfold rawVulnerabilities
  split
  · exact noLimit_ok
  · exact noLimit_permanent.mpr (by cases tool <;> decide)

theorem noLimit_toolSummary {scan : CloudScanInput} {tool : TaskKind} {raw : JsonObject} :
    NoLimit (toolSummary rt engine scan tool raw) ↔ ToolFits engine rt scan tool raw := by
  have hscan : "persisted " ++ tool.text ++ " result belongs to another scan" ∉
      limitMessages := by cases tool <;> decide
  have hendpoint : "persisted " ++ tool.text ++ " result belongs to another endpoint" ∉
      limitMessages := by cases tool <;> decide
  have hlimit : "persisted " ++ tool.text ++ " result exceeds record limits" ∈
      limitMessages := by cases tool <;> decide
  unfold toolSummary
  simp only [noLimit_bind, permanentIf_eq_ok, noLimit_of_not_mem hscan,
    noLimit_of_not_mem hendpoint, noLimit_permanentIf hlimit, noLimit_rawVulnerabilities,
    noLimit_ok, true_and, and_true, implies_true, gt_iff_lt, not_lt, not_and, not_not, ne_eq]
  constructor
  · intro h records hread
    exact h () (fun hown => (hread.owner hown).1) () (fun hown => (hread.owner hown).2) records
      hread.records
  · intro h _ hown _ hendpoint records hrecords
    exact h records ⟨fun hsynthetic => ⟨hown hsynthetic, hendpoint hsynthetic⟩, hrecords⟩

/-- A tool whose result can be read and fits has a summary, and no more records than allowed. -/
theorem toolSummary_eq_ok {scan : CloudScanInput} {tool : TaskKind} {raw : JsonObject}
    (hfits : ToolFits engine rt scan tool raw) :
    (∃ first, toolSummary rt engine scan tool raw = .ok first) ↔
      ∃ records, ToolRead engine rt scan tool raw records := by
  unfold toolSummary
  simp only [Check.bind_eq_ok, permanentIf_eq_ok, gt_iff_lt, not_lt, not_and, not_not, ne_eq]
  constructor
  · rintro ⟨_, _, hown, _, hendpoint, records, hrecords, -⟩
    exact ⟨records, fun h => ⟨hown h, hendpoint h⟩, hrecords⟩
  · rintro ⟨records, hread⟩
    exact ⟨_, (), fun h => (hread.owner h).1, (), fun h => (hread.owner h).2, records,
      hread.records, (), hfits records hread, rfl⟩

theorem length_toolSummary {scan : CloudScanInput} {tool : TaskKind} {raw : JsonObject}
    {first : ToolSummary × List V} (h : toolSummary rt engine scan tool raw = .ok first) :
    first.2.length ≤ engine.limits.maxVulnerabilitiesPerTool := by
  unfold toolSummary at h
  simp only [Check.bind_eq_ok, permanentIf_eq_ok, gt_iff_lt, not_lt] at h
  obtain ⟨_, -, _, -, records, -, _, hlimit, hfirst⟩ := h
  rw [← Except.ok.inj hfirst]
  dsimp only
  split
  · have hfilter := List.length_filterMap_le engine.modelValidate records
    omega
  · exact Nat.zero_le _

theorem noLimit_toolSummaries {scan : CloudScanInput} {results : Dict TaskKind JsonObject}
    {tools : List TaskKind} : NoLimit (toolSummaries rt engine scan results tools) ↔
      ToolsFit engine rt scan results tools := by
  induction tools with
  | nil => exact iff_of_true noLimit_ok trivial
  | cons tool tools ih =>
    simp only [toolSummaries, noLimit_bind, noLimit_toolSummary, ih, noLimit_ok, and_true,
      implies_true, ToolsFit]
    refine and_congr_right fun hfits => ?_
    rw [← toolSummary_eq_ok hfits]
    exact ⟨fun h ⟨first, hfirst⟩ => h first hfirst, fun h first hfirst => h ⟨first, hfirst⟩⟩

/-- The tools together have at most as many records as each of them may have. -/
theorem length_toolSummaries {scan : CloudScanInput} {results : Dict TaskKind JsonObject}
    {tools : List TaskKind} : ∀ {all : List (TaskKind × ToolSummary) × List V},
      toolSummaries rt engine scan results tools = .ok all →
      all.2.length ≤ engine.limits.maxVulnerabilitiesPerTool * tools.length := by
  induction tools with
  | nil =>
    intro all h
    rw [← Except.ok.inj h]
    exact Nat.zero_le _
  | cons tool tools ih =>
    intro all h
    simp only [toolSummaries, Check.bind_eq_ok] at h
    obtain ⟨first, hfirst, others, hothers, hall⟩ := h
    have hone := length_toolSummary hfirst
    have hmany := ih hothers
    rw [← Except.ok.inj hall, List.length_append, List.length_cons, Nat.mul_succ]
    omega

/-! ## The report -/

/-- The report is within the limits. -/
def ReportFits (rt : Runtime) (limits : AnalysisLimits) (report : JsonObject) : Prop :=
  Shaped limits.maxReportNodes report ∧ canonicalSize rt (.obj report) ≤ limits.maxReportBytes

theorem noLimit_boundReportObject {report : JsonObject} :
    NoLimit (boundReportObject rt engine report "final cloud report") ↔
      ReportFits rt engine.limits report := by
  have hcheck : boundReportObject rt engine report "final cloud report" = (do
      let _ ← shapeCheck engine.limits.maxReportNodes report
        "final cloud report exceeds structural limits"
      permanentIf (canonicalSize rt (.obj report) > engine.limits.maxReportBytes)
        "final cloud report exceeds the configured byte limit"
      .ok report) := rfl
  rw [hcheck]
  simp only [noLimit_bind, shapeCheck_eq_ok, noLimit_ok, implies_true, and_true, gt_iff_lt, not_lt,
    @noLimit_shapeCheck _ _ "final cloud report exceeds structural limits" (by decide),
    @noLimit_permanentIf _ _ "final cloud report exceeds the configured byte limit" (by decide)]
  exact and_congr_right fun hshaped =>
    ⟨fun h => h _ ⟨hshaped, rfl⟩, fun hbytes _ _ => hbytes⟩

/-! ### What the report wraps -/

theorem height_lt_of_mem {fields : JsonObject} {name : String} {value : Json}
    (h : (name, value) ∈ fields) : height value < height (.obj fields) := by
  rw [height]
  induction fields with
  | nil => cases h
  | cons e l ih =>
    obtain ⟨k, v⟩ := e
    rw [heightOfFields]
    rcases List.mem_cons.mp h with heq | hmem
    · cases heq
      omega
    · have := ih hmem
      omega

/-- The report wraps the quoted evidence two levels deeper, under the limit of the evidence. -/
theorem height_assembleReport {scan : CloudScanInput} {validated : Option ValidatedSbom}
    {result sync : JsonObject} {summaries : List (TaskKind × ToolSummary)} {merged : List V} :
    height (.obj result) + 2 ≤
        height (.obj (assembleReport engine scan validated result sync summaries merged)) ∧
      height (.obj sync) + 2 ≤
        height (.obj (assembleReport engine scan validated result sync summaries merged)) := by
  obtain ⟨evidence, hevidence, hresult, hsync⟩ : ∃ evidence : JsonObject,
      ("endpoint_evidence", .obj evidence) ∈
        assembleReport engine scan validated result sync summaries merged ∧
      ("result", .obj result) ∈ evidence ∧ ("inventory_sync", .obj sync) ∈ evidence := by
    exact ⟨_, List.mem_of_getElem? (i := 9) rfl, List.mem_cons_self,
      List.mem_cons_of_mem _ List.mem_cons_self⟩
  have houter := height_lt_of_mem hevidence
  have hinner := height_lt_of_mem hresult
  have hother := height_lt_of_mem hsync
  omega

/-! ## The input -/

/-- What `coerce_scan_input` makes of a stored upload. -/
def ScanUpload.scanInput (upload : ScanUpload rt) (snapshot : JsonObject)
    (input : ScanAnalysisInput) : CloudScanInput where
  tenantId := input.tenantId
  endpointId := input.endpointId
  scanId := input.scanId
  result := upload.result
  inventorySync := upload.storedSync snapshot
  sbom := upload.sbom.getD []
  sbomSha256 := upload.sbomSha256

/-- The identifiers of the scan have 1 to 128 characters. -/
def Identified (input : ScanAnalysisInput) : Prop :=
  ∀ id ∈ [input.tenantId, input.endpointId, input.scanId], id ≠ "" ∧ id.length ≤ 128

/-- A digest is written in lower case. -/
theorem casefold_digest {digest : String} (h : isHexDigest digest = true) :
    rt.casefold digest = digest := by
  have hascii : ∀ c ∈ digest.toList, c.toNat < 128 ∧ c.toLower = c := by
    intro c hc
    simp only [isHexDigest, Bool.and_eq_true, List.all_eq_true, Bool.or_eq_true,
      decide_eq_true_eq] at h
    have hrange : (48 ≤ c.toNat ∧ c.toNat ≤ 57) ∨ (97 ≤ c.toNat ∧ c.toNat ≤ 102) := h.2 c hc
    refine ⟨by omega, Char.toLower_eq_of_not_isUpper fun hupper => ?_⟩
    have hletters : 65 ≤ c.toNat ∧ c.toNat ≤ 90 := of_decide_eq_true hupper
    omega
  rw [rt.casefold_ascii _ fun c hc => (hascii c hc).1,
    List.map_congr_left fun c hc => (hascii c hc).2, List.map_id', String.ofList_toList]

theorem noLimit_requireMapping {upload : JsonObject} {name message : String}
    (h : message ∉ limitMessages) : NoLimit (requireMapping upload name message) := by
  unfold requireMapping
  split
  · exact noLimit_ok
  · exact noLimit_permanent.mpr h

theorem noLimit_sbomEvidence (upload : JsonObject) : NoLimit (sbomEvidence upload) := by
  unfold sbomEvidence
  split
  · exact noLimit_ok
  · exact noLimit_ok
  · exact noLimit_permanent.mpr (by decide)

theorem noLimit_checkedSha256 (sbom : JsonObject) (sbomSha256 : Json) :
    NoLimit (checkedSha256 rt engine sbom sbomSha256) := by
  unfold checkedSha256
  split
  · exact noLimit_ok
  · exact noLimit_bind.mpr ⟨noLimit_of_not_mem (by decide), fun _ _ =>
      noLimit_bind.mpr ⟨noLimit_of_not_mem (by decide), fun _ _ => noLimit_ok⟩⟩

/-- Reading the input ends at no limit. -/
theorem noLimit_coerceScanInput (input : Option ScanAnalysisInput) :
    NoLimit (coerceScanInput rt engine input) := by
  cases input with
  | none => exact fun hlimit => raises_error.mp hlimit
  | some input =>
    simp only [coerceScanInput, noLimit_bind]
    exact ⟨noLimit_requireMapping (by decide), fun _ _ =>
      ⟨noLimit_requireMapping (by decide), fun _ _ =>
      ⟨noLimit_sbomEvidence _, fun _ _ =>
      ⟨noLimit_of_not_mem (by decide), fun _ _ =>
      ⟨noLimit_of_not_mem (by decide), fun _ _ =>
      ⟨noLimit_of_not_mem (by decide), fun _ _ =>
      ⟨noLimit_checkedSha256 _ _, fun _ _ => noLimit_ok⟩⟩⟩⟩⟩⟩⟩

theorem identityText_eq_ok {name value : String} {u : Unit} :
    identityText name value = .ok u ↔ value ≠ "" ∧ value.length ≤ 128 := by
  rw [identityText, permanentIf_eq_ok, not_or, Nat.not_lt]

/-- The fields of what is stored of an upload. -/
theorem ScanUpload.lookup_stored (upload : ScanUpload rt) (snapshot : JsonObject) :
    Assoc.lookup "result" (upload.stored snapshot) = some (.obj upload.result) ∧
      Assoc.lookup "inventory_sync" (upload.stored snapshot) =
        some (.obj (upload.storedSync snapshot)) ∧
      Assoc.lookup "sbom" (upload.stored snapshot) = upload.sbom.map .obj ∧
      Assoc.lookup "sbom_sha256" (upload.stored snapshot) = upload.sbomSha256.map .str := by
  have hchecked := upload.sbom_checked
  unfold sbomChecked at hchecked
  unfold ScanUpload.stored ScanUpload.dump
  rw [hchecked]
  cases upload.sbom with
  | none => exact ⟨rfl, rfl, rfl, rfl⟩
  | some document => exact ⟨rfl, rfl, rfl, rfl⟩

/-- The checksum of an upload passes, unless its SBOM is an empty object. -/
theorem checkedSha256_stored {upload : ScanUpload rt} {sbomSha256 : Option String} :
    checkedSha256 rt engine (upload.sbom.getD []) (Json.ofOption upload.sbomSha256) =
        .ok sbomSha256 ↔ upload.sbom ≠ some [] ∧ sbomSha256 = upload.sbomSha256 := by
  have hchecked := upload.sbom_checked
  unfold sbomChecked at hchecked
  cases hsbom : upload.sbom with
  | none =>
    rw [hsbom] at hchecked
    rw [hchecked]
    simp [checkedSha256, Json.ofOption, eq_comm]
  | some document =>
    rw [hsbom] at hchecked
    have hdigest := rt.hashText_digest (Json.canonicalJson rt (.obj document))
    have hfold : rt.casefold (Json.canonicalSha256 rt (.obj document)) =
        Json.canonicalSha256 rt (.obj document) := casefold_digest hdigest
    rw [hchecked]
    simp only [Option.map_some, Json.ofOption, Option.getD_some, checkedSha256, pyStr, hfold,
      Check.bind_eq_ok, permanentIf_eq_ok, ne_eq, Option.some.injEq, Except.ok.injEq]
    constructor
    · rintro ⟨_, -, _, hsome, rfl⟩
      exact ⟨hsome, rfl⟩
    · rintro ⟨hsome, rfl⟩
      exact ⟨(), by rw [Json.canonicalSha256, hdigest]; simp, (), hsome, rfl⟩

/-- A stored upload is read as it was sent, with the snapshot. -/
theorem coerceScanInput_stored {upload : ScanUpload rt} {snapshot : JsonObject}
    {input : ScanAnalysisInput} (hstored : input.upload = upload.stored snapshot)
    {scan : CloudScanInput} : coerceScanInput rt engine (some input) = .ok scan ↔
      (Identified input ∧ upload.sbom ≠ some []) ∧ scan = upload.scanInput snapshot input := by
  obtain ⟨hresult, hsync, hsbom, hsum⟩ := upload.lookup_stored snapshot
  have hdocument : sbomEvidence (upload.stored snapshot) = .ok (upload.sbom.getD []) := by
    rw [sbomEvidence, hsbom]
    cases upload.sbom <;> rfl
  have hchecksum : (upload.stored snapshot).get "sbom_sha256" =
      Json.ofOption upload.sbomSha256 := by
    rw [JsonObject.get, hsum]
    cases upload.sbomSha256 <;> rfl
  simp only [coerceScanInput, hstored, requireMapping, hresult, hsync, Option.getD_some,
    hdocument, hchecksum, Check.bind_eq_ok, identityText_eq_ok, checkedSha256_stored,
    Except.ok.injEq, exists_eq_left']
  constructor
  · rintro ⟨_, htenant, _, hendpoint, _, hscan, _, ⟨hsome, rfl⟩, rfl⟩
    refine ⟨⟨?_, hsome⟩, rfl⟩
    simp only [Identified, List.forall_mem_cons]
    exact ⟨htenant, hendpoint, hscan, List.forall_mem_nil _⟩
  · rintro ⟨⟨hids, hsome⟩, rfl⟩
    simp only [Identified, List.forall_mem_cons] at hids
    exact ⟨(), hids.1, (), hids.2.1, (), hids.2.2.1, _, ⟨hsome, rfl⟩, rfl⟩

/-! ## All of it -/

/-- The SBOM of an upload fits, as far as it is checked. -/
def SbomOptionFits (rt : Runtime) (limits : AnalysisLimits) (sbom : Option JsonObject) : Prop :=
  ∀ document, sbom = some document → SbomFits rt limits document

/-- The analysis takes the SBOM of an upload, or there is none. -/
def SbomOptionTaken (rt : Runtime) (limits : AnalysisLimits) (sbom : Option JsonObject) : Prop :=
  ∀ document, sbom = some document → SbomTaken rt limits document

/--
What the analysis demands of an upload beyond what let it in. Each demand holds only where the
checks before it have passed: a document that is refused for another reason is not measured.
-/
structure AnalysisFits (rt : Runtime) (engine : ReportEngine V) (upload : ScanUpload rt)
    (scan : CloudScanInput) (results : Dict TaskKind JsonObject) : Prop where
  sbom : SbomOptionFits rt engine.limits upload.sbom
  evidence : SbomOptionTaken rt engine.limits upload.sbom →
    EvidenceFits rt engine.limits scan.result ∧ EvidenceFits rt engine.limits scan.inventorySync
  tools : SbomOptionTaken rt engine.limits upload.sbom →
    ToolsFit engine rt scan results scan.expectedTools
  report : ∀ validated tools, reportSbom rt engine.limits scan = .ok validated →
    toolSummaries rt engine scan results scan.expectedTools = .ok tools →
    ReportFits rt engine.limits (assembleReport engine scan validated
      (quotedEvidence rt engine scan.result) (quotedEvidence rt engine scan.inventorySync)
      tools.1 (engine.merge tools.2))

theorem noLimit_reportSbom {upload : ScanUpload rt} {snapshot : JsonObject}
    {input : ScanAnalysisInput} {limits : AnalysisLimits} (hsome : upload.sbom ≠ some []) :
    NoLimit (reportSbom rt limits (upload.scanInput snapshot input)) ↔
      SbomOptionFits rt limits upload.sbom := by
  unfold reportSbom SbomOptionFits
  split
  · rename_i hempty
    refine iff_of_true noLimit_ok fun document hdocument => ?_
    rw [ScanUpload.scanInput, hdocument] at hempty
    exact absurd (hdocument.trans (congrArg some hempty)) hsome
  · rename_i hpresent
    rw [noLimit_map, noLimit_validateSbom]
    show SbomFits rt limits (upload.sbom.getD []) ↔ _
    cases hsbom : upload.sbom with
    | none =>
      rw [ScanUpload.scanInput, hsbom] at hpresent
      exact absurd rfl hpresent
    | some document => simp

theorem reportSbom_eq_ok {upload : ScanUpload rt} {snapshot : JsonObject}
    {input : ScanAnalysisInput} {limits : AnalysisLimits} (hsome : upload.sbom ≠ some []) :
    (∃ validated, reportSbom rt limits (upload.scanInput snapshot input) = .ok validated) ↔
      SbomOptionTaken rt limits upload.sbom := by
  have hchecked := upload.sbom_checked
  unfold sbomChecked at hchecked
  unfold reportSbom SbomOptionTaken
  split
  · rename_i hempty
    refine iff_of_true ⟨none, rfl⟩ fun document hdocument => ?_
    rw [ScanUpload.scanInput, hdocument] at hempty
    exact absurd (hdocument.trans (congrArg some hempty)) hsome
  · rename_i hpresent
    cases hsbom : upload.sbom with
    | none =>
      rw [ScanUpload.scanInput, hsbom] at hpresent
      exact absurd rfl hpresent
    | some document =>
      have htaken := @validateSbom_eq_ok rt limits (upload.scanInput snapshot input)
      have hscan : (upload.scanInput snapshot input).sbom = document := by
        rw [ScanUpload.scanInput, hsbom, Option.getD_some]
      have hsum : (upload.scanInput snapshot input).sbomSha256 =
          some (Json.canonicalSha256 rt (.obj document)) := by
        rw [ScanUpload.scanInput, hchecked, hsbom, Option.map_some]
      rw [hscan, hsum] at htaken
      -- the checksum of an upload is the one that the analysis computes again
      simp only [exceptMap_eq_ok, Option.some.injEq, forall_eq']
      simp only [Option.mem_def, Option.some.injEq, forall_eq', and_true] at htaken
      rw [← htaken]
      exact ⟨fun ⟨_, validated, h, _⟩ => ⟨validated, h⟩, fun ⟨validated, h⟩ =>
        ⟨_, validated, h, rfl⟩⟩

theorem noLimit_retryable {bad : Prop} [Decidable bad] {message : String} :
    NoLimit (Check.raiseIf bad (.retryable message)) := fun hlimit =>
  (raises_raiseIf.mp hlimit).2

/-- The report of an accepted upload ends at no limit exactly when the upload fits the analysis. -/
theorem noLimit_buildFinalReport {upload : ScanUpload rt} {snapshot : JsonObject}
    {input : ScanAnalysisInput} (hstored : input.upload = upload.stored snapshot)
    {results : Dict TaskKind JsonObject} (hterminal : ∀ tool, results.contains tool = true) :
    NoLimit (buildFinalReport rt engine (some input) results) ↔
      (Identified input → upload.sbom ≠ some [] →
        AnalysisFits rt engine upload (upload.scanInput snapshot input) results) := by
  have hpresent : ¬ ∃ tool ∈ (upload.scanInput snapshot input).expectedTools,
      results.contains tool = false := by
    rintro ⟨tool, -, htool⟩
    rw [hterminal tool] at htool
    cases htool
  simp only [buildFinalReport, noLimit_bind, noLimit_coerceScanInput, true_and,
    coerceScanInput_stored hstored, and_imp, noLimit_retryable, noLimit_toolSummaries,
    noLimit_boundReportObject, boundedEvidence_eq_ok, Check.raiseIf_eq_ok, permanentIf_eq_ok,
    @noLimit_boundedEvidence _ _ _ _ "endpoint result evidence" (by decide) (by decide),
    @noLimit_boundedEvidence _ _ _ _ "inventory synchronization evidence" (by decide) (by decide),
    @noLimit_permanentIf _ _ "combined cloud vulnerability limit exceeded" (by decide)]
  constructor
  · intro h hids hsome
    obtain ⟨hsbom, h⟩ := h _ hids hsome rfl
    have hevidence : ∀ validated,
        reportSbom rt engine.limits (upload.scanInput snapshot input) = .ok validated →
        EvidenceFits rt engine.limits (upload.scanInput snapshot input).result ∧
          EvidenceFits rt engine.limits (upload.scanInput snapshot input).inventorySync :=
      fun validated hvalidated =>
        ⟨(h validated hvalidated).1, ((h validated hvalidated).2 _ (h validated hvalidated).1 rfl).1⟩
    have htools : ∀ validated,
        reportSbom rt engine.limits (upload.scanInput snapshot input) = .ok validated → _ :=
      fun validated hvalidated => ((h validated hvalidated).2 _ (hevidence _ hvalidated).1 rfl).2 _
        (hevidence _ hvalidated).2 rfl () hpresent
    refine ⟨(noLimit_reportSbom hsome).mp hsbom, fun htaken => ?_, fun htaken => ?_, ?_⟩
    · obtain ⟨validated, hvalidated⟩ := (reportSbom_eq_ok hsome).mpr htaken
      exact hevidence _ hvalidated
    · obtain ⟨validated, hvalidated⟩ := (reportSbom_eq_ok hsome).mpr htaken
      exact (htools _ hvalidated).1
    · intro validated tools hvalidated htoolsOk
      have hcombined := length_toolSummaries htoolsOk
      exact ((htools _ hvalidated).2 tools htoolsOk).2 () (by omega)
  · intro h scan hids hsome hscan
    subst hscan
    have hfits := h hids hsome
    refine ⟨(noLimit_reportSbom hsome).mpr hfits.sbom, fun validated hvalidated => ?_⟩
    have htaken := (reportSbom_eq_ok hsome).mp ⟨validated, hvalidated⟩
    refine ⟨(hfits.evidence htaken).1, fun _ _ hresult => ?_⟩
    refine ⟨(hfits.evidence htaken).2, fun _ _ hsync => ?_⟩
    refine fun _ _ => ⟨hfits.tools htaken, fun tools htools => ?_⟩
    have hcombined := length_toolSummaries htools
    subst hresult hsync
    exact ⟨by omega, fun _ _ => hfits.report validated tools hvalidated htools⟩

end Report

/-! ## An upload that is accepted and never gets a report -/

/-- An engine that knows no records. -/
def sampleReportEngine : ReportEngine Unit where
  modelValidate _ := none
  merge := id
  dump _ := .null
  severity _ := .info
  str _ := ""
  isWord := Char.isAlphanum
  now := "2023-11-14T22:13:20+00:00"

/-- A value with this many lists around it. -/
def nested : Nat → Json
  | 0 => .null
  | levels + 1 => .arr [nested levels]

/-- A result of the dispatched scan, with a list that nests this deep. -/
def nestedResult (levels : Nat) : JsonObject :=
  [("scan_id", .str "scan-1"), ("endpoint_id", .str "endpoint-1"), ("scan_type", .str "FULL"),
    ("authorization_scope_id", .str "scope-1"), ("policy_id", .str "policy-1"),
    ("status", .str "SUCCESS"), ("evidence", nested levels)]

def nestedUpload (levels : Nat) (h : isBoundedDocument (nestedResult levels)) :
    ScanUpload Runtime.sample where
  result := nestedResult levels
  inventorySync := [("scan_id", .str "scan-1"), ("endpoint_id", .str "endpoint-1"),
    ("mode", .str "full"), ("snapshot_hash", .str (Storage.snapshotHash Runtime.sample [])),
    ("previous_hash", .null), ("snapshot", .obj [])]
  sbom := none
  sbomSha256 := none
  result_bounded := h
  inventorySync_bounded := by decide +kernel
  sbom_bounded := fun _ hdocument => nomatch hdocument
  sbom_checked := rfl

/-- The scan with this evidence, up to the end of both of its tasks. -/
def analyzedRun (upload : ScanUpload Runtime.sample) : List Call :=
  let result : JsonObject := [("status", .str "SUCCESS"), ("scan_id", .str "scan-1"),
    ("endpoint_id", .str "endpoint-1"), ("vulnerabilities", .arr [])]
  dispatchedRun ++ [
    .scan (.ingestScan sampleDevice "scan-1" upload.dump "key-4" "digest-4" "task-osv"
      "task-depscan" (seconds 1700000180) (seconds 1700000180) (seconds 1700000180)),
    .scan (.claimAnalysisTask .osv "worker-1" 1200 (seconds 1700000240)),
    .scan (.completeAnalysisTask "task-osv" "worker-1" result (seconds 1700000240)),
    .scan (.claimAnalysisTask .depscan "worker-1" 1200 (seconds 1700000240)),
    .scan (.completeAnalysisTask "task-depscan" "worker-1" result (seconds 1700000240))]

theorem analyzedRun_carries (upload : ScanUpload Runtime.sample) :
    ∀ call ∈ analyzedRun upload, call.carriesUpload Runtime.sample := by
  simp [analyzedRun, dispatchedRun, Call.carriesUpload]

def analyzedRepo (upload : ScanUpload Runtime.sample) : InMemoryRepository :=
  runFrom (Call.step Runtime.sample) {} (analyzedRun upload)

/-- The final report of the scan when both tasks have ended. -/
def analyzedReport (upload : ScanUpload Runtime.sample) : Except WorkerError JsonObject :=
  buildFinalReport Runtime.sample sampleReportEngine
    (getScanAnalysisInput "scan-1" (analyzedRepo upload))
    (listScanAnalysisResults "scan-1" (analyzedRepo upload))

/-- The upload with no list at all. -/
def flatUpload : ScanUpload Runtime.sample := nestedUpload 0 (by decide +kernel)

end OsScanner.Cloud

import Mathlib
import OsScanner.Endpoint.Sbom
import OsScanner.Cloud.ReportLimits
import OsScanner.Storage.Texts

/-!
# The SBOM of an endpoint and the limits of the cloud

The endpoint limits the number of components; the cloud limits the values of the document, its
depth and its bytes. A component is four to twenty-one values, depending on what is known of it,
so the one limit does not imply the others.
-/

namespace OsScanner.Endpoint

open Lib Security Cloud

section Sbom

variable (rt : Runtime) (text : SbomText)

/-! ## The number of values -/

/-- The values of a component. -/
def componentNodes (identity : SoftwareIdentity) (installationDate : Option String) : Nat :=
  4 + (if identity.version = "" then 0 else 1) + (if identity.vendor = "" then 0 else 2) +
    (if (packageUrl rt identity).isSome then 1 else 0) +
    (if componentProperties identity installationDate = [] then 0
      else 1 + 3 * (componentProperties identity installationDate).length)

/-- The values of the document. -/
def documentNodes (result : ScanResult) (endpointId : String) : Nat :=
  19 + 3 * (metadataProperties text result endpointId).length +
    ((sortedRecords rt text result).map fun record => componentNodes rt record.1 record.2).sum

variable {rt text}

theorem property_eq_some {name : String} {value : Option String} {item : Json}
    (h : property name value = some item) :
    ∃ value, item = .obj [("name", .str name), ("value", .str value)] := by
  obtain ⟨value, -, rfl⟩ := Option.map_eq_some_iff.mp h
  exact ⟨value, rfl⟩

/-- The items of a list of properties. -/
theorem mem_properties {properties : List (Option Json)} {item : Json}
    (hproperties : ∀ p ∈ properties, ∃ name value, p = property name value)
    (h : item ∈ properties.filterMap id) :
    ∃ name value, item = .obj [("name", .str name), ("value", .str value)] := by
  obtain ⟨p, hp, hitem⟩ := List.mem_filterMap.mp h
  obtain ⟨name, value, rfl⟩ := hproperties p hp
  obtain ⟨value, rfl⟩ := property_eq_some hitem
  exact ⟨name, value, rfl⟩

theorem mem_componentProperties {identity : SoftwareIdentity} {installationDate : Option String}
    {item : Json} (h : item ∈ componentProperties identity installationDate) :
    ∃ name value, item = .obj [("name", .str name), ("value", .str value)] :=
  mem_properties (by simp only [List.forall_mem_cons]; exact
    ⟨⟨_, _, rfl⟩, ⟨_, _, rfl⟩, ⟨_, _, rfl⟩, ⟨_, _, rfl⟩, List.forall_mem_nil _⟩) h

theorem mem_metadataProperties {result : ScanResult} {endpointId : String} {item : Json}
    (h : item ∈ metadataProperties text result endpointId) :
    ∃ name value, item = .obj [("name", .str name), ("value", .str value)] :=
  mem_properties (by simp only [List.forall_mem_cons]; exact
    ⟨⟨_, _, rfl⟩, ⟨_, _, rfl⟩, ⟨_, _, rfl⟩, ⟨_, _, rfl⟩, ⟨_, _, rfl⟩, ⟨_, _, rfl⟩, ⟨_, _, rfl⟩,
      ⟨_, _, rfl⟩, ⟨_, _, rfl⟩, List.forall_mem_nil _⟩) h

theorem nodesOfItems_properties {items : List Json}
    (h : ∀ item ∈ items, ∃ name value, item = .obj [("name", .str name), ("value", .str value)]) :
    nodesOfItems items = 3 * items.length := by
  induction items with
  | nil => rfl
  | cons item items ih =>
    rw [List.forall_mem_cons] at h
    obtain ⟨⟨name, value, rfl⟩, hitems⟩ := h
    rw [nodesOfItems, ih hitems, List.length_cons]
    show 3 + _ = _
    omega

theorem nodes_component (identity : SoftwareIdentity) (installationDate : Option String) :
    nodes (.obj (component rt identity installationDate)) =
      componentNodes rt identity installationDate := by
  have hproperties := nodesOfItems_properties fun item =>
    @mem_componentProperties identity installationDate item
  unfold component componentNodes
  simp only [nodes, nodesOfFields_append, nodesOfFields]
  have hversion : nodesOfFields (if identity.version = "" then [] else
      [("version", .str identity.version)]) = if identity.version = "" then 0 else 1 := by
    split <;> rfl
  have hvendor : nodesOfFields (if identity.vendor = "" then [] else
      [("supplier", .obj [("name", .str identity.vendor)])]) =
        if identity.vendor = "" then 0 else 2 := by
    split <;> rfl
  have hpurl : nodesOfFields ((packageUrl rt identity).toList.map fun purl =>
      ("purl", .str purl)) = if (packageUrl rt identity).isSome then 1 else 0 := by
    cases packageUrl rt identity <;> rfl
  have hlist : nodesOfFields (if componentProperties identity installationDate = [] then [] else
      [("properties", .arr (componentProperties identity installationDate))]) =
        if componentProperties identity installationDate = [] then 0
        else 1 + 3 * (componentProperties identity installationDate).length := by
    split
    · rfl
    · rw [nodesOfFields, nodes, hproperties, nodesOfFields]
      omega
  rw [hversion, hvendor, hpurl, hlist]
  omega

theorem nodes_document (result : ScanResult) (endpointId : String) :
    nodes (.obj (sbomDocument rt text result endpointId)) =
      documentNodes rt text result endpointId := by
  have hproperties := nodesOfItems_properties fun item =>
    @mem_metadataProperties text result endpointId item
  have hcomponents : nodesOfItems (components rt text result) =
      ((sortedRecords rt text result).map fun record => componentNodes rt record.1 record.2).sum := by
    rw [nodesOfItems_eq, components, List.map_map]
    exact congrArg List.sum (List.map_congr_left fun record _ =>
      nodes_component record.1 record.2)
  unfold sbomDocument sbomMetadata documentNodes
  simp only [nodes, nodesOfFields, nodesOfItems, hproperties, hcomponents]
  omega

/-- A component has at most twenty-one values. -/
theorem componentNodes_le (identity : SoftwareIdentity) (installationDate : Option String) :
    componentNodes rt identity installationDate ≤ 21 := by
  have hlength : (componentProperties identity installationDate).length ≤ 4 :=
    List.length_filterMap_le _ _
  unfold componentNodes
  split <;> split <;> split <;> split <;> omega

/-- The redaction of the document has room for all of its values. -/
theorem documentNodes_le (result : ScanResult) (endpointId : String) :
    documentNodes rt text result endpointId ≤
      max 20000 ((components rt text result).length * 40 + 1000) := by
  have hproperties : (metadataProperties text result endpointId).length ≤ 9 :=
    List.length_filterMap_le _ _
  have hsum : ((sortedRecords rt text result).map fun record =>
      componentNodes rt record.1 record.2).sum ≤ (components rt text result).length * 21 := by
    rw [components, List.length_map]
    refine (List.sum_le_card_nsmul _ 21 ?_).trans (by rw [List.length_map, smul_eq_mul])
    intro n hn
    obtain ⟨record, -, rfl⟩ := List.mem_map.mp hn
    exact componentNodes_le record.1 record.2
  unfold documentNodes
  omega

/-! ## The shape of the document -/

/-- The keys of the document. -/
def sbomKeys : List String :=
  ["bomFormat", "specVersion", "serialNumber", "version", "metadata", "timestamp", "tools",
    "components", "type", "name", "component", "bom-ref", "properties", "value", "supplier", "purl"]

/-- The keys are among those of the document, and the value is no higher than this. -/
structure SbomShape (levels : Nat) (value : Json) : Prop where
  keys : keysAmong sbomKeys value = true
  height : height value ≤ levels

theorem sbomShape_properties {items : List Json}
    (h : ∀ item ∈ items, ∃ name value, item = .obj [("name", .str name), ("value", .str value)]) :
    SbomShape 2 (.arr items) := by
  refine ⟨?_, ?_⟩
  · rw [keysAmong, keysAmongItems_iff]
    intro item hitem
    obtain ⟨name, value, rfl⟩ := h item hitem
    rfl
  · rw [Cloud.height, heightOfItems_le]
    intro item hitem
    obtain ⟨name, value, rfl⟩ := h item hitem
    exact le_refl _

theorem sbomShape_component (identity : SoftwareIdentity) (installationDate : Option String) :
    SbomShape 3 (.obj (component rt identity installationDate)) := by
  have hproperties := sbomShape_properties fun item =>
    @mem_componentProperties identity installationDate item
  have hkeys := hproperties.keys
  have hheight := hproperties.height
  unfold component
  refine ⟨?_, ?_⟩
  · simp only [keysAmong, keysAmongFields_append, Bool.and_eq_true]
    refine ⟨⟨⟨⟨rfl, ?_⟩, ?_⟩, ?_⟩, ?_⟩
    · split <;> rfl
    · split <;> rfl
    · cases packageUrl rt identity <;> rfl
    · split
      · rfl
      · rw [keysAmongFields, hkeys]
        rfl
  · simp only [Cloud.height, heightOfFields_append, Nat.max_le]
    refine ⟨⟨⟨⟨?_, ?_⟩, ?_⟩, ?_⟩, ?_⟩
    · simp [heightOfFields, Cloud.height]
    · split <;> simp [heightOfFields, Cloud.height]
    · split <;> simp [heightOfFields, Cloud.height]
    · cases packageUrl rt identity <;> simp [heightOfFields, Cloud.height]
    · split
      · simp [heightOfFields]
      · rw [heightOfFields, heightOfFields]
        omega

theorem sbomShape_document (result : ScanResult) (endpointId : String) :
    SbomShape 5 (.obj (sbomDocument rt text result endpointId)) := by
  have hproperties := sbomShape_properties fun item =>
    @mem_metadataProperties text result endpointId item
  have hkeys := hproperties.keys
  have hheight := hproperties.height
  have hcomponents : ∀ item ∈ components rt text result, SbomShape 3 item := by
    intro item hitem
    obtain ⟨record, -, rfl⟩ := List.mem_map.mp hitem
    exact sbomShape_component record.1 record.2
  have hlist : heightOfItems (components rt text result) ≤ 4 :=
    heightOfItems_le.mpr fun item hitem => by
      have := (hcomponents item hitem).height
      omega
  refine ⟨?_, ?_⟩
  · have hcomponentKeys : keysAmong sbomKeys (.arr (components rt text result)) = true :=
      keysAmongItems_iff.mpr fun item hitem => (hcomponents item hitem).keys
    simp only [sbomDocument, sbomMetadata, keysAmong, keysAmongFields, keysAmongItems] at *
    simp only [hkeys, hcomponentKeys, Bool.and_true]
    decide
  · simp only [sbomDocument, sbomMetadata, Cloud.height, heightOfFields, heightOfItems] at *
    omega

/-! ## The redacted document -/

/-- The document as it is handed out. -/
def redactedSbom (rt : Runtime) (text : SbomText) (result : ScanResult) (endpointId : String) :
    JsonObject :=
  redactFields rt text.isWord (sbomDocument rt text result endpointId)

theorem redactTree_document (result : ScanResult) (endpointId : String) :
    redactTree rt text.isWord false (.obj (sbomDocument rt text result endpointId)) =
      .obj (redactedSbom rt text result endpointId) := by
  rw [redactTree, if_neg Bool.false_ne_true, redactedSbom]

theorem redactValue_document (result : ScanResult) (endpointId : String) :
    redactValue rt text.isWord 12 (max 20000 ((components rt text result).length * 40 + 1000))
        (.obj (sbomDocument rt text result endpointId)) =
      .obj (redactedSbom rt text result endpointId) := by
  have hheight := (@sbomShape_document rt text result endpointId).height
  rw [redactValue_within ?_ (by omega), redactTree_document]
  rw [nodes_document]
  exact documentNodes_le result endpointId

/-- The document is built whenever the inventory is small enough. -/
theorem buildCyclonedxSbom_eq_ok {result : ScanResult} {maxComponents : Nat}
    {sbom : JsonObject} : buildCyclonedxSbom rt text result maxComponents = .ok sbom ↔
      (1 ≤ maxComponents ∧ maxComponents ≤ defaultMaxComponents) ∧
        result.software.length ≤ maxComponents ∧ ∃ endpointId,
          result.endpointId = some endpointId ∧
            sbom = redactedSbom rt text result (sbomEndpointId text endpointId) := by
  unfold buildCyclonedxSbom
  cases hendpoint : result.endpointId with
  | none =>
    simp [Check.bind_unit_eq_ok]
  | some endpointId =>
    simp only [Check.bind_unit_eq_ok, Check.raiseIf_eq_ok, not_not, gt_iff_lt, not_lt,
      redactValue_document, Except.ok.injEq, Option.some.injEq, exists_eq_left']
    exact and_congr_right fun _ => and_congr_right fun _ => eq_comm

theorem keysNamed_redactedSbom (result : ScanResult) (endpointId : String) :
    keysNamed (.obj (redactedSbom rt text result endpointId)) = true := by
  rw [← redactTree_document]
  refine keysNamed_redactTree _ false (keysNamed_of_among ?_ _ (sbomShape_document _ _).keys)
  decide

/-- The redaction leaves the document its shape. -/
theorem shape_redactedSbom (result : ScanResult) (endpointId : String) :
    nodes (.obj (redactedSbom rt text result endpointId)) =
        documentNodes rt text result endpointId ∧
      height (.obj (redactedSbom rt text result endpointId)) ≤ 5 := by
  have hshape := @sbomShape_document rt text result endpointId
  have hsensitive : ∀ k ∈ sbomKeys, isSensitiveKey k = false := by decide +kernel
  have hshows : showsAll rt (.obj (sbomDocument rt text result endpointId)) = true :=
    showsAll_of_among hsensitive _ hshape.keys
  obtain ⟨hnodes, hheight⟩ := shape_redactTree _ hshows
  rw [← redactTree_document, hnodes, hheight, nodes_document]
  exact ⟨rfl, hshape.height⟩

/-- Only the number of its values can keep the document out of an upload. -/
theorem isBoundedDocument_redactedSbom (result : ScanResult) (endpointId : String) :
    isBoundedDocument (redactedSbom rt text result endpointId) ↔
      documentNodes rt text result endpointId ≤ 500000 := by
  have hshape := @sbomShape_document rt text result endpointId
  have hkeys : keysNamed (.obj (sbomDocument rt text result endpointId)) = true :=
    keysNamed_of_among (by decide) _ hshape.keys
  have hheight := hshape.height
  rw [isBoundedDocument_iff, (shape_redactedSbom result endpointId).1]
  refine and_iff_left ?_
  rw [← redactTree_document]
  exact fits_redactTree _ false 32 (by omega) hkeys

/-! ## What the analysis reads in it -/

theorem not_hides {key : String} {value : Json} (h : isSensitiveKey key = false) :
    hides rt key value = false := by
  rw [hides, h, Bool.false_and]

theorem keys_redactFields (fields : JsonObject) :
    (redactFields rt text.isWord fields).map Prod.fst = fields.map Prod.fst := by
  induction fields with
  | nil => rfl
  | cons e l ih =>
    rw [redactFields, List.map_cons, ih, List.map_cons]

/-- The redaction of a component has no components of its own. -/
theorem nestedComponents_component (identity : SoftwareIdentity)
    (installationDate : Option String) :
    nestedComponents (redactFields rt text.isWord (component rt identity installationDate)) =
      .arr [] := by
  have hkeys : "components" ∉ (component rt identity installationDate).map Prod.fst := by
    intro hmem
    simp only [component, List.map_append, List.mem_append] at hmem
    rcases hmem with (((h | h) | h) | h) | h
    · simp at h
    · split at h <;> simp at h
    · split at h <;> simp at h
    · simp at h
    · split at h <;> simp at h
  rw [← @keys_redactFields rt text, ← Assoc.lookup_eq_none_iff] at hkeys
  rw [nestedComponents, hkeys]
  rfl

/-- The loop counts components that have none of their own up to its limit. -/
theorem countLoop_flat {maximum : Nat} {stack : List Json}
    (h : ∀ item ∈ stack, ∃ fields, item = .obj fields ∧ nestedComponents fields = .arr []) :
    (∃ count, countLoop maximum stack = .ok count) ↔ stack.length ≤ maximum := by
  induction stack generalizing maximum with
  | nil => exact iff_of_true ⟨0, by rw [countLoop]⟩ (Nat.zero_le _)
  | cons item stack ih =>
    rw [List.forall_mem_cons] at h
    obtain ⟨⟨fields, rfl, hnested⟩, hstack⟩ := h
    cases maximum with
    | zero => simp [countLoop, permanent]
    | succ remaining =>
      simp only [countLoop, hnested, List.reverse_nil, List.nil_append, exceptMap_eq_ok,
        List.length_cons, Nat.add_le_add_iff_right, ← ih hstack]
      exact ⟨fun ⟨_, count, hcount, _⟩ => ⟨count, hcount⟩, fun ⟨count, hcount⟩ =>
        ⟨_, count, hcount, rfl⟩⟩

/-- The format and the version survive the redaction. -/
theorem isCycloneDx_redactedSbom (result : ScanResult) (endpointId : String) :
    IsCycloneDx rt (redactedSbom rt text result endpointId) := by
  have hformat : redactText text.isWord "CycloneDX" = "CycloneDX" := by
    refine redactText_of_quiet _ (by decide) ?_
    simp only [textRules, List.forall_mem_cons]
    exact ⟨rfl, rfl, rfl, rfl, rfl, rfl, rfl, rfl, List.forall_mem_nil _⟩
  have hversion : redactText text.isWord "1.6" = "1.6" := by
    refine redactText_of_quiet _ (by decide) ?_
    simp only [textRules, List.forall_mem_cons]
    exact ⟨rfl, rfl, rfl, rfl, rfl, rfl, rfl, rfl, List.forall_mem_nil _⟩
  have hfirst : (redactedSbom rt text result endpointId).get "bomFormat" =
      redactTree rt text.isWord (hides rt "bomFormat" (.str "CycloneDX")) (.str "CycloneDX") := rfl
  have hsecond : (redactedSbom rt text result endpointId).get "specVersion" =
      redactTree rt text.isWord (hides rt "specVersion" (.str "1.6")) (.str "1.6") := rfl
  rw [not_hides (by decide +kernel), redactTree, if_neg Bool.false_ne_true, hformat] at hfirst
  rw [not_hides (by decide +kernel), redactTree, if_neg Bool.false_ne_true, hversion] at hsecond
  refine ⟨hfirst, ?_⟩
  rw [specVersion, hsecond]
  show "1.6" ∈ supportedCycloneDx
  decide

/-- The components are counted one by one. -/
theorem countComponents_redactedSbom (result : ScanResult) (endpointId : String)
    (maximum : Nat) :
    (∃ count, countComponents (redactedSbom rt text result endpointId) maximum = .ok count) ↔
      (components rt text result).length ≤ maximum := by
  have hlist : nestedComponents (redactedSbom rt text result endpointId) =
      redactTree rt text.isWord (hides rt "components" (.arr (components rt text result)))
        (.arr (components rt text result)) := rfl
  rw [not_hides (by decide +kernel), redactTree, if_neg Bool.false_ne_true] at hlist
  have hitems : ∀ items : List Json, redactItems rt text.isWord items =
      items.map (redactTree rt text.isWord false) := by
    intro items
    induction items with
    | nil => rfl
    | cons v l ih => rw [redactItems, ih, List.map_cons]
  rw [countComponents, hlist]
  dsimp only
  rw [countLoop_flat ?_, List.length_reverse, hitems, List.length_map]
  intro item hitem
  rw [List.mem_reverse, hitems, List.mem_map] at hitem
  obtain ⟨value, hvalue, rfl⟩ := hitem
  obtain ⟨record, -, rfl⟩ := List.mem_map.mp hvalue
  exact ⟨_, by rw [redactTree, if_neg Bool.false_ne_true],
    nestedComponents_component record.1 record.2⟩

/-- The analysis takes the document when it has room for it. -/
theorem sbomTaken_redactedSbom {result : ScanResult} {endpointId : String}
    {limits : AnalysisLimits} :
    SbomTaken rt limits (redactedSbom rt text result endpointId) ↔
      documentNodes rt text result endpointId ≤ limits.maxReportNodes ∧
        (components rt text result).length ≤ limits.maxComponents ∧
        canonicalSize rt (.obj (redactedSbom rt text result endpointId)) ≤
          limits.maxSbomBytes := by
  obtain ⟨hnodes, hheight⟩ := @shape_redactedSbom rt text result endpointId
  constructor
  · intro h
    exact ⟨hnodes ▸ h.shaped.1, (countComponents_redactedSbom _ _ _).mp h.counted, h.bytes⟩
  · rintro ⟨hroom, hcomponents, hbytes⟩
    exact ⟨⟨hnodes ▸ hroom, by omega, keysNamed_redactedSbom _ _⟩, isCycloneDx_redactedSbom _ _,
      (countComponents_redactedSbom _ _ _).mpr hcomponents, hbytes⟩

/-! ## Producer and consumer -/

/--
The payload has an SBOM and its checksum; the SBOM passes the bounds of `ScanUpload`, and
`_validate_sbom` accepts it for any scan that carries the two.
-/
def SbomAccepted (rt : Runtime) (limits : AnalysisLimits) (upload : JsonObject) : Prop :=
  ∃ (sbom : JsonObject) (checksum : String),
    upload.get "sbom" = .obj sbom ∧ upload.get "sbom_sha256" = .str checksum ∧
    isBoundedDocument sbom ∧ sbomChecked rt (some sbom) (some checksum) ∧
    ∀ scan : CloudScanInput, scan.sbom = sbom → scan.sbomSha256 = some checksum →
      ∃ validated, validateSbom rt limits scan = .ok validated

/-- There is room for the SBOM of an inventory in the cloud. -/
structure SbomRoom (rt : Runtime) (text : SbomText) (limits : AnalysisLimits)
    (result : ScanResult) (endpointId : String) : Prop where
  upload : documentNodes rt text result endpointId ≤ 500000
  analysis : documentNodes rt text result endpointId ≤ limits.maxReportNodes
  components : (components rt text result).length ≤ limits.maxComponents
  bytes : canonicalSize rt (.obj (redactedSbom rt text result endpointId)) ≤ limits.maxSbomBytes

/-- The payload of a scan result, if it is not too large for a request. -/
theorem resultUpload_eq_ok {result : ScanResult} {summary inventorySync upload : JsonObject}
    {maxRequestBytes : Nat} : resultUpload rt text result summary inventorySync maxRequestBytes =
        .ok upload ↔
      ∃ sbom, buildCyclonedxSbom rt text result = .ok sbom ∧
        upload = [("evidence_envelope_version", .str "1.0"), ("result", .obj summary),
          ("inventory_sync", .obj inventorySync), ("sbom", .obj sbom),
          ("sbom_sha256", .str (Json.canonicalSha256 rt (.obj sbom)))] ∧
        canonicalSize rt (.obj upload) ≤ maxRequestBytes := by
  simp only [resultUpload, serializeReport, Check.bind_eq_ok, Check.raiseIf_eq_ok, gt_iff_lt,
    not_lt, Except.ok.injEq]
  constructor
  · rintro ⟨sbom, hsbom, _, ⟨_, hsize, -⟩, rfl⟩
    exact ⟨sbom, hsbom, rfl, hsize⟩
  · rintro ⟨sbom, hsbom, rfl, hsize⟩
    exact ⟨sbom, hsbom, _, ⟨(), hsize, rfl⟩, rfl⟩

/--
The cloud accepts the SBOM in the payload of a scan exactly when it has room for it: the checksum,
the format, the depth, the keys and the texts are never what it is refused for.
-/
theorem sbom_accepted_iff {limits : AnalysisLimits} {result : ScanResult}
    {summary inventorySync upload : JsonObject} {maxRequestBytes : Nat} {endpointId : String}
    (hendpoint : result.endpointId = some endpointId)
    (hplaced : resultUpload rt text result summary inventorySync maxRequestBytes = .ok upload) :
    SbomAccepted rt limits upload ↔
      SbomRoom rt text limits result (sbomEndpointId text endpointId) := by
  obtain ⟨sbom, hsbom, rfl, -⟩ := resultUpload_eq_ok.mp hplaced
  obtain ⟨-, -, _, hsome, rfl⟩ := buildCyclonedxSbom_eq_ok.mp hsbom
  obtain rfl := Option.some.inj (hendpoint.symm.trans hsome)
  have hvalid : ∀ scan : CloudScanInput,
      scan.sbom = redactedSbom rt text result (sbomEndpointId text endpointId) →
      scan.sbomSha256 = some (Json.canonicalSha256 rt (.obj scan.sbom)) →
      ((∃ validated, validateSbom rt limits scan = .ok validated) ↔
        SbomTaken rt limits (redactedSbom rt text result (sbomEndpointId text endpointId))) := by
    intro scan hscan hchecksum
    rw [validateSbom_eq_ok, hchecksum, ← hscan]
    simp
  constructor
  · rintro ⟨sbom, checksum, hget, hsum, hbounded, -, hanalysis⟩
    obtain rfl := Json.obj.inj hget
    obtain rfl := Json.str.inj hsum
    obtain ⟨hroom, hcomponents, hbytes⟩ := sbomTaken_redactedSbom.mp
      ((hvalid ⟨"", "", "", [], [], _, some _, []⟩ rfl rfl).mp (hanalysis _ rfl rfl))
    exact ⟨(isBoundedDocument_redactedSbom _ _).mp hbounded, hroom, hcomponents, hbytes⟩
  · intro hroom
    refine ⟨_, _, rfl, rfl, (isBoundedDocument_redactedSbom _ _).mpr hroom.upload, rfl,
      fun scan hscan hchecksum => ?_⟩
    refine (hvalid scan hscan (by rw [hscan]; exact hchecksum)).mpr ?_
    exact sbomTaken_redactedSbom.mpr ⟨hroom.analysis, hroom.components, hroom.bytes⟩

/-! ## Every distinct record is a component -/

theorem get?_addRecord {records : Dict SoftwareIdentity (Option String)} {software : Software}
    {identity : SoftwareIdentity} :
    ((addRecord text records software).get? identity).isSome = true ↔
      (records.get? identity).isSome = true ∨ identity = softwareIdentity text software := by
  unfold addRecord
  dsimp only
  cases hfound : records.get? (softwareIdentity text software) with
  | none =>
    dsimp only
    rw [Dict.get?_set]
    split
    · rename_i heq
      simp [heq]
    · rename_i hne
      simp [Ne.symm hne]
  | some previous =>
    dsimp only
    split
    · rw [Dict.get?_set]
      split
      · rename_i heq
        simp [heq]
      · rename_i hne
        simp [Ne.symm hne]
    · constructor
      · exact Or.inl
      · rintro (h | rfl)
        · exact h
        · rw [hfound]
          rfl

theorem get?_softwareRecords {software : List Software} {identity : SoftwareIdentity} :
    ((softwareRecords text software).get? identity).isSome = true ↔
      identity ∈ software.map (softwareIdentity text) := by
  have hfold : ∀ (software : List Software) (records : Dict SoftwareIdentity (Option String)),
      ((software.foldl (addRecord text) records).get? identity).isSome = true ↔
        (records.get? identity).isSome = true ∨
          identity ∈ software.map (softwareIdentity text) := by
    intro software
    induction software with
    | nil => simp
    | cons first software ih =>
      intro records
      rw [List.foldl_cons, ih, get?_addRecord, List.map_cons, List.mem_cons, or_assoc]
  rw [softwareRecords, hfold]
  simp

/-- The records of the components are the distinct records of the inventory. -/
theorem mem_sortedRecords {result : ScanResult} {identity : SoftwareIdentity} :
    identity ∈ (sortedRecords rt text result).map Prod.fst ↔
      identity ∈ result.software.map (softwareIdentity text) := by
  rw [sortedRecords, ← get?_softwareRecords, Dict.get?, Assoc.lookup_isSome_iff]
  exact ((List.perm_insertionSort _ _).map Prod.fst).mem_iff

theorem nodup_sortedRecords (result : ScanResult) :
    ((sortedRecords rt text result).map Prod.fst).Nodup :=
  (((List.perm_insertionSort _ _).map Prod.fst).nodup_iff).mpr
    (softwareRecords text result.software).nodup

end Sbom

/-! ## An inventory that the cloud refuses -/

def sampleSbomText : SbomText where
  isWord := Char.isAlphanum
  uuid5 seed := String.ofList ((Sample.digest (utf8Bytes seed)).toList.take 36)
  timestamp t := String.ofList ((Sample.isoformat t).toList.take 19) ++ ".000000Z"

/-- A number as a text. -/
def decimal (n : Nat) : String := String.ofList (Nat.toDigits 10 n)

/-- A record that has a number for its name, and a version and a vendor. -/
def numbered (n : Nat) : Software where
  name := decimal n
  version := some "1"
  vendor := some "1"

def numberedResult (count : Nat) : ScanResult where
  scanId := "scan-1"
  endpointId := some "endpoint-1"
  scanType := .full
  timestamp := seconds 1700000000
  status := .success
  software := (List.range count).map numbered

/-- The text consists of digits. -/
def IsDecimal (value : String) : Prop := ∀ c ∈ value.toList, 48 ≤ c.toNat ∧ c.toNat ≤ 57

theorem isDecimal_decimal (n : Nat) : IsDecimal (decimal n) := by
  intro c hc
  rw [decimal, String.toList_ofList] at hc
  have hdigit : c.isDigit = true := Nat.isDigit_of_mem_toDigits (by omega) (by omega) hc
  simp only [Char.isDigit, Bool.and_eq_true, decide_eq_true_eq] at hdigit
  exact hdigit

theorem isDecimal_one : IsDecimal "1" := by
  intro c hc
  obtain rfl : c = '1' := by simpa using hc
  exact ⟨by decide, by decide⟩

theorem IsDecimal.mem {value : String} (h : IsDecimal value) :
    ∀ c ∈ value.toList, c ∈ "0123456789".toList := by
  intro c hc
  have hrange := h c hc
  have hall : ∀ n < 128, 48 ≤ n ∧ n ≤ 57 → Char.ofNat n ∈ "0123456789".toList := by decide
  have hmem := hall c.toNat (by omega) hrange
  rwa [Char.ofNat_toNat] at hmem

theorem IsDecimal.not_space {value : String} (h : IsDecimal value) :
    ∀ c ∈ value.toList, Storage.isSpace c = false := by
  intro c hc
  have hrange := h c hc
  simp only [Storage.isSpace, decide_eq_false_iff_not]
  omega

theorem length_decimal {n : Nat} (h : n < 100000) : (decimal n).length ≤ 5 := by
  rw [decimal, String.length_ofList]
  exact Nat.toDigits_length 10 n 5 (by omega) h

/-- Texts of digits are kept as they are. -/
theorem safeText_decimal {text : SbomText} {value : String} {maximum : Nat} (hne : value ≠ "")
    (hlength : value.length ≤ maximum) (hvalue : IsDecimal value) :
    safeText text (some value) maximum = some value := by
  rw [safeText, Option.bind_some, redactText_digits _ hlength hvalue.mem,
    Storage.strip_of_no_space hvalue.not_space, noneIfEmpty, if_neg hne]

theorem softwareIdentity_numbered {text : SbomText} {n : Nat} (h : n < 100000) :
    softwareIdentity text (numbered n) = ⟨decimal n, "1", "1", "", "", ""⟩ := by
  have hlength := length_decimal h
  have hne : decimal n ≠ "" := by
    rw [decimal, ne_eq, String.ofList_eq_empty_iff]
    exact Nat.toDigits_ne_nil
  have hone : "1".length = 1 := rfl
  have hname := @safeText_decimal text (decimal n) 512 hne (by omega) (isDecimal_decimal n)
  have hversion := @safeText_decimal text "1" 256 (by decide) (by omega) isDecimal_one
  have hvendor := @safeText_decimal text "1" 512 (by decide) (by omega) isDecimal_one
  have hnone : ∀ maximum, safeText text none maximum = none := fun _ => rfl
  simp only [softwareIdentity, numbered, hname, hversion, hvendor, hnone, Option.getD_some,
    Option.getD_none]

theorem map_identity_numbered {text : SbomText} {count : Nat} (h : count ≤ 100000) :
    (numberedResult count).software.map (softwareIdentity text) =
      (List.range count).map fun n => ⟨decimal n, "1", "1", "", "", ""⟩ := by
  rw [numberedResult, List.map_map]
  refine List.map_congr_left fun n hn => softwareIdentity_numbered ?_
  rw [List.mem_range] at hn
  omega

theorem decimal_injective : Function.Injective decimal := fun m n h =>
  Sample.toDigits_injective (by simpa [decimal] using congrArg String.toList h)

/-- There is one component for each of the numbers. -/
theorem length_sortedRecords_numbered {rt : Runtime} {text : SbomText} {count : Nat}
    (h : count ≤ 100000) : (sortedRecords rt text (numberedResult count)).length = count := by
  have hperm : ((sortedRecords rt text (numberedResult count)).map Prod.fst).Perm
      ((List.range count).map fun n => ⟨decimal n, "1", "1", "", "", ""⟩) := by
    refine (List.perm_ext_iff_of_nodup (nodup_sortedRecords _) ?_).mpr fun identity => ?_
    · refine List.nodup_range.map fun m n hmn => decimal_injective ?_
      exact congrArg SoftwareIdentity.name hmn
    · rw [mem_sortedRecords, map_identity_numbered h]
  have hlength := hperm.length_eq
  rwa [List.length_map, List.length_map, List.length_range] at hlength

/-- Each of the components has at least seven values. -/
theorem documentNodes_numbered {rt : Runtime} {text : SbomText} {count : Nat}
    (h : count ≤ 100000) (endpointId : String) :
    7 * count ≤ documentNodes rt text (numberedResult count) endpointId := by
  have hsum : (sortedRecords rt text (numberedResult count)).length * 7 ≤
      ((sortedRecords rt text (numberedResult count)).map fun record =>
        componentNodes rt record.1 record.2).sum := by
    rw [← smul_eq_mul, ← List.length_map (f := fun record : SoftwareIdentity × Option String =>
      componentNodes rt record.1 record.2)]
    refine List.card_nsmul_le_sum _ 7 fun nodes hnodes => ?_
    obtain ⟨record, hrecord, rfl⟩ := List.mem_map.mp hnodes
    have hmem := mem_sortedRecords.mp (List.mem_map_of_mem (f := Prod.fst) hrecord)
    rw [map_identity_numbered h] at hmem
    obtain ⟨n, -, hidentity⟩ := List.mem_map.mp hmem
    simp only [componentNodes, ← hidentity]
    have hone : ¬ "1" = "" := by decide
    rw [if_neg hone, if_neg hone]
    omega
  rw [length_sortedRecords_numbered h] at hsum
  unfold documentNodes
  omega

/-! ### The payload fits a request -/

theorem IsDecimal.plain {value : String} (h : IsDecimal value) :
    ∀ c ∈ value.toList, Json.IsPlain c := by
  intro c hc
  have hrange := h c hc
  refine ⟨by omega, by omega, ?_, ?_⟩
  · rintro rfl
    exact absurd hrange (by decide)
  · rintro rfl
    exact absurd hrange (by decide)

theorem plain_of_isHexDigest {digest : String} (h : isHexDigest digest = true) :
    ∀ c ∈ digest.toList, Json.IsPlain c := by
  simp only [isHexDigest, Bool.and_eq_true, List.all_eq_true, decide_eq_true_eq,
    Bool.or_eq_true] at h
  intro c hc
  have hrange : (48 ≤ c.toNat ∧ c.toNat ≤ 57) ∨ (97 ≤ c.toNat ∧ c.toNat ≤ 102) := h.2 c hc
  refine ⟨by omega, by omega, ?_, ?_⟩
  · rintro rfl
    exact absurd hrange (by decide)
  · rintro rfl
    exact absurd hrange (by decide)

theorem length_of_isHexDigest {digest : String} (h : isHexDigest digest = true) :
    digest.length = 64 := by
  rw [isHexDigest, Bool.and_eq_true, decide_eq_true_eq] at h
  rw [← String.length_toList]
  exact h.1

/-- The reference of a component is `software:` and a digest. -/
theorem textSize_componentReference {rt : Runtime} (identity : SoftwareIdentity) :
    Json.textSize (Json.stringRepr (componentReference rt identity)) = 75 := by
  have hdigest : isHexDigest (Json.canonicalSha256 rt (.arr (identity.parts.map .str))) = true :=
    rt.hashText_digest _
  have hword : ∀ c ∈ "software:".toList, Json.IsPlain c := by
    show ∀ c ∈ ['s', 'o', 'f', 't', 'w', 'a', 'r', 'e', ':'], Json.IsPlain c
    simp [Json.IsPlain]
  rw [Json.textSize_stringRepr, componentReference, String.length_append,
    length_of_isHexDigest hdigest]
  · rfl
  · intro c hc
    rw [componentReference, String.toList_append, List.mem_append] at hc
    exact hc.elim (hword c) (plain_of_isHexDigest hdigest c)

/-- The component of a numbered record. -/
theorem component_numbered {rt : Runtime} (n : Nat) :
    component rt ⟨decimal n, "1", "1", "", "", ""⟩ none =
      [("bom-ref", .str (componentReference rt ⟨decimal n, "1", "1", "", "", ""⟩)),
        ("type", .str "application"), ("name", .str (decimal n)), ("version", .str "1"),
        ("supplier", .obj [("name", .str "1")])] := by
  have hfold : rt.casefold "" = "" := rt.casefold_ascii "" (fun c hc => by cases hc)
  have hkind : purlType rt "" = none := by
    rw [purlType, hfold]
    rfl
  have hpurl : packageUrl rt ⟨decimal n, "1", "1", "", "", ""⟩ = none := by
    rw [packageUrl, hkind]
  rw [component, hpurl, hkind]
  rfl

/-- The redaction leaves the component of a numbered record alone. -/
theorem redactFields_numbered {rt : Runtime} {text : SbomText} {n : Nat} (h : n < 100000) :
    redactFields rt text.isWord (component rt ⟨decimal n, "1", "1", "", "", ""⟩ none) =
      component rt ⟨decimal n, "1", "1", "", "", ""⟩ none := by
  have hlength := length_decimal h
  have hreference := redactText_reference text.isWord
    (rt.hashText_digest (Json.canonicalJson rt (.arr ([decimal n, "1", "1", "", "", ""].map .str))))
  have hname : redactText text.isWord (decimal n) = decimal n :=
    redactText_digits _ (by omega) (isDecimal_decimal n).mem
  have hone : redactText text.isWord "1" = "1" := by
    refine redactText_digits _ ?_ isDecimal_one.mem
    show 1 ≤ 16384
    omega
  have hkind : redactText text.isWord "application" = "application" := by
    refine redactText_of_quiet _ (by decide) ?_
    simp only [textRules, List.forall_mem_cons]
    exact ⟨rfl, rfl, rfl, rfl, rfl, rfl, rfl, rfl, List.forall_mem_nil _⟩
  have hkeys : ∀ key ∈ sbomKeys, isSensitiveKey key = false := by decide +kernel
  have hshown : ∀ key ∈ sbomKeys, ∀ value, hides rt key value = false := fun key hkey value =>
    not_hides (hkeys key hkey)
  rw [component_numbered]
  simp only [redactFields, redactTree, hshown "bom-ref" (by decide), hshown "type" (by decide),
    hshown "name" (by decide), hshown "version" (by decide), hshown "supplier" (by decide),
    Bool.false_eq_true, if_false, hname, hone, hkind]
  rw [componentReference, SoftwareIdentity.parts, Json.canonicalSha256, hreference]

theorem size_numbered {rt : Runtime} {n : Nat} (h : n < 100000) :
    Json.size rt (.obj (component rt ⟨decimal n, "1", "1", "", "", ""⟩ none)) ≤ 170 := by
  have hlength := length_decimal h
  have hname := Json.textSize_stringRepr (isDecimal_decimal n).plain
  rw [component_numbered]
  have htexts : Json.textSize (Json.stringRepr "bom-ref") = 9 ∧
      Json.textSize (Json.stringRepr "type") = 6 ∧
      Json.textSize (Json.stringRepr "application") = 13 ∧
      Json.textSize (Json.stringRepr "name") = 6 ∧
      Json.textSize (Json.stringRepr "version") = 9 ∧
      Json.textSize (Json.stringRepr "supplier") = 10 ∧
      Json.textSize (Json.stringRepr "1") = 3 := ⟨rfl, rfl, rfl, rfl, rfl, rfl, rfl⟩
  simp only [Json.size, Json.sizeOfFields, Json.render, textSize_componentReference, hname, htexts]
  omega

/-- The dates of the records are dates of the inventory. -/
theorem mem_softwareRecords {text : SbomText} {software : List Software}
    {record : SoftwareIdentity × Option String} (h : record ∈ (softwareRecords text software).entries) :
    record.2 ∈ software.map (·.installationDate) := by
  have hfold : ∀ (software : List Software) (records : Dict SoftwareIdentity (Option String)),
      (software.foldl (addRecord text) records).get? record.1 = some record.2 →
        records.get? record.1 = some record.2 ∨ record.2 ∈ software.map (·.installationDate) := by
    intro software
    induction software with
    | nil => exact fun _ h => Or.inl h
    | cons first software ih =>
      intro records h
      rw [List.map_cons, List.mem_cons]
      rcases ih _ h with h | h
      · have hset : ((records.set (softwareIdentity text first) first.installationDate).get?
            record.1 = some record.2) →
            records.get? record.1 = some record.2 ∨ record.2 = first.installationDate := by
          rw [Dict.get?_set]
          split
          · exact fun h => Or.inr (Option.some.inj h).symm
          · exact Or.inl
        unfold addRecord at h
        dsimp only at h
        split at h
        · exact (hset h).imp_right Or.inl
        · split at h
          · exact (hset h).imp_right Or.inl
          · exact Or.inl h
      · exact Or.inr (Or.inr h)
  have hget := Dict.mem_entries_iff.mp (show (record.1, record.2) ∈ _ from h)
  exact (hfold software ∅ hget).resolve_left fun h => by cases h

/-- The components of the numbered records are redacted to what they were, and small. -/
theorem sizeOfItems_numbered {rt : Runtime} {text : SbomText} {count : Nat}
    (h : count ≤ 100000) :
    Json.sizeOfItems rt (redactItems rt text.isWord (components rt text (numberedResult count))) ≤
      171 * count := by
  have hitems : ∀ records : List (SoftwareIdentity × Option String),
      (∀ record ∈ records, ∃ n < 100000, record = (⟨decimal n, "1", "1", "", "", ""⟩, none)) →
      Json.sizeOfItems rt (redactItems rt text.isWord
        (records.map fun record => .obj (component rt record.1 record.2))) ≤
          171 * records.length := by
    intro records
    induction records with
    | nil => exact fun _ => Nat.zero_le _
    | cons record records ih =>
      intro hrecords
      rw [List.forall_mem_cons] at hrecords
      obtain ⟨⟨n, hn, rfl⟩, hothers⟩ := hrecords
      have hsmall := @size_numbered rt n hn
      have hrest := ih hothers
      rw [List.map_cons, redactItems, redactTree, if_neg Bool.false_ne_true,
        redactFields_numbered hn, Json.sizeOfItems, List.length_cons]
      omega
  rw [components]
  refine (hitems _ fun record hrecord => ?_).trans
    (by rw [length_sortedRecords_numbered h])
  have hidentity := mem_sortedRecords.mp (List.mem_map_of_mem (f := Prod.fst) hrecord)
  rw [map_identity_numbered h] at hidentity
  obtain ⟨n, hn, hidentity⟩ := List.mem_map.mp hidentity
  have hdate := mem_softwareRecords ((List.perm_insertionSort _ _).mem_iff.mp hrecord)
  obtain ⟨software, hsoftware, hdate⟩ := List.mem_map.mp hdate
  obtain ⟨m, -, rfl⟩ := List.mem_map.mp hsoftware
  rw [List.mem_range] at hn
  exact ⟨n, by omega, Prod.ext hidentity.symm hdate.symm⟩

/-- The document but for its components. -/
def sbomFrame (rt : Runtime) (text : SbomText) (result : ScanResult) (endpointId : String) :
    JsonObject :=
  [("bomFormat", .str "CycloneDX"),
    ("specVersion", .str "1.6"),
    ("serialNumber", .str ("urn:uuid:" ++
      text.uuid5 ("endpoint-security-scanner:" ++ result.scanId ++ ":" ++ endpointId))),
    ("version", .int 1),
    ("metadata", .obj (sbomMetadata rt text result endpointId))]

theorem sizeOfFields_append {rt : Runtime} (a b : JsonObject) :
    Json.sizeOfFields rt (a ++ b) = Json.sizeOfFields rt a + Json.sizeOfFields rt b := by
  induction a with
  | nil => exact (Nat.zero_add _).symm
  | cons e l ih =>
    rw [List.cons_append, Json.sizeOfFields, ih, Json.sizeOfFields]
    omega

/-- The redacted document is its redacted frame and its redacted components. -/
theorem redactedSbom_eq {rt : Runtime} {text : SbomText} (result : ScanResult)
    (endpointId : String) : redactedSbom rt text result endpointId =
      redactFields rt text.isWord (sbomFrame rt text result endpointId) ++
        [("components", .arr (redactItems rt text.isWord (components rt text result)))] := by
  have hshown : hides rt "components" (.arr (components rt text result)) = false :=
    not_hides (by decide +kernel)
  have hlast : redactTree rt text.isWord (hides rt "components" (.arr (components rt text result)))
      (.arr (components rt text result)) =
        .arr (redactItems rt text.isWord (components rt text result)) := by
    rw [hshown, redactTree, if_neg Bool.false_ne_true]
  rw [redactedSbom, sbomDocument, sbomFrame, ← hlast]
  rfl

/-- The SBOM of numbered records. -/
def numberedSbom (count : Nat) : JsonObject :=
  redactedSbom Runtime.sample sampleSbomText (numberedResult count)
    (sbomEndpointId sampleSbomText "endpoint-1")

/-- Items that may be absent, each of which is small. -/
theorem sizeOfItems_optional_le {rt : Runtime} {isWord : Char → Bool} {bound : Nat} :
    ∀ {items : List (Option Json)},
      (∀ item ∈ items, ∀ v ∈ item, Json.size rt (redactTree rt isWord false v) ≤ bound) →
        Json.sizeOfItems rt (redactItems rt isWord (items.filterMap id)) ≤ (bound + 1) * items.length := by
  intro items
  induction items with
  | nil => exact fun _ => Nat.zero_le _
  | cons item items ih =>
    intro h
    rw [List.forall_mem_cons] at h
    have hrest := ih h.2
    rw [List.length_cons, Nat.mul_succ]
    cases item with
    | none => exact hrest.trans (Nat.le_add_right _ _)
    | some v =>
      have hitem := h.1 v rfl
      show Json.size rt (redactTree rt isWord false v) + 1 + Json.sizeOfItems rt _ ≤ _
      omega

theorem size_metadataProperties :
    Json.sizeOfItems Runtime.sample (redactItems Runtime.sample sampleSbomText.isWord
      (metadataProperties sampleSbomText (numberedResult 0)
        (sbomEndpointId sampleSbomText "endpoint-1"))) ≤ 2000 := by
  refine (@sizeOfItems_optional_le _ _ 200 _ ?_).trans (by decide)
  simp only [List.forall_mem_cons]
  -- one property after the other: all of them at once are a large computation
  refine ⟨?_, ?_, ?_, ?_, ?_, ?_, ?_, ?_, ?_, List.forall_mem_nil _⟩ <;> decide +kernel

/-- Fields that the redaction does not hide, each of which is small. -/
theorem sizeOfFields_shown_le {rt : Runtime} {isWord : Char → Bool} {bound : Nat} :
    ∀ {fields : JsonObject}, (∀ field ∈ fields, isSensitiveKey field.1 = false ∧
        Json.textSize (Json.stringRepr field.1) ≤ 98 ∧
          Json.size rt (redactTree rt isWord false field.2) ≤ bound) →
      Json.sizeOfFields rt (redactFields rt isWord fields) ≤ (bound + 100) * fields.length := by
  intro fields
  induction fields with
  | nil => exact fun _ => Nat.zero_le _
  | cons field fields ih =>
    intro h
    rw [List.forall_mem_cons] at h
    obtain ⟨⟨hshown, hkey, hvalue⟩, hfields⟩ := h
    have hrest := ih hfields
    rw [redactFields, not_hides hshown, Json.sizeOfFields, List.length_cons, Nat.mul_succ]
    omega

theorem size_redactedArr_le {rt : Runtime} {isWord : Char → Bool} {items : List Json} {bound : Nat}
    (h : Json.sizeOfItems rt (redactItems rt isWord items) ≤ bound) :
    Json.size rt (redactTree rt isWord false (.arr items)) ≤ 2 + bound := by
  rw [redactTree, if_neg Bool.false_ne_true, Json.size]
  omega

theorem size_redactedObj_le {rt : Runtime} {isWord : Char → Bool} {fields : JsonObject} {bound : Nat}
    (h : Json.sizeOfFields rt (redactFields rt isWord fields) ≤ bound) :
    Json.size rt (redactTree rt isWord false (.obj fields)) ≤ bound + 2 := by
  rw [redactTree, if_neg Bool.false_ne_true, Json.size]
  omega

theorem size_sbomMetadata :
    Json.size Runtime.sample (redactTree Runtime.sample sampleSbomText.isWord false
      (.obj (sbomMetadata Runtime.sample sampleSbomText (numberedResult 0)
        (sbomEndpointId sampleSbomText "endpoint-1")))) ≤ 8500 := by
  refine @size_redactedObj_le _ _ _ 8498 ((@sizeOfFields_shown_le _ _ 2002 _ ?_).trans (by decide))
  rw [sbomMetadata, List.forall_mem_cons, List.forall_mem_cons, List.forall_mem_cons,
    List.forall_mem_singleton]
  refine ⟨?_, ?_, ?_, by decide +kernel, by decide +kernel, size_redactedArr_le size_metadataProperties⟩
  · decide +kernel
  · decide +kernel
  · decide +kernel

theorem size_sbomFrame :
    Json.sizeOfFields Runtime.sample (redactFields Runtime.sample sampleSbomText.isWord
      (sbomFrame Runtime.sample sampleSbomText (numberedResult 0)
        (sbomEndpointId sampleSbomText "endpoint-1"))) ≤ 43000 := by
  refine (@sizeOfFields_shown_le _ _ 8500 _ ?_).trans (by decide)
  rw [sbomFrame, List.forall_mem_cons, List.forall_mem_cons, List.forall_mem_cons,
    List.forall_mem_cons, List.forall_mem_singleton]
  refine ⟨?_, ?_, ?_, ?_, by decide +kernel, by decide +kernel, size_sbomMetadata⟩
  · decide +kernel
  · decide +kernel
  · decide +kernel
  · decide +kernel

theorem size_numberedSbom {count : Nat} (h : count ≤ 75000) :
    Json.size Runtime.sample (.obj (numberedSbom count)) ≤ 13000000 := by
  have hframe := size_sbomFrame
  -- the frame says nothing of the software
  have hsame : sbomFrame Runtime.sample sampleSbomText (numberedResult count) =
      sbomFrame Runtime.sample sampleSbomText (numberedResult 0) := rfl
  have hitems := @sizeOfItems_numbered Runtime.sample sampleSbomText count (by omega)
  have hname : Json.textSize (Json.stringRepr "components") = 12 := rfl
  rw [numberedSbom, redactedSbom_eq, Json.size, sizeOfFields_append, Json.sizeOfFields,
    Json.sizeOfFields, Json.size, hname, hsame]
  omega

/-- The payload of a scan that found numbered records. -/
def numberedUpload (count : Nat) : JsonObject :=
  [("evidence_envelope_version", .str "1.0"), ("result", .obj []), ("inventory_sync", .obj []),
    ("sbom", .obj (numberedSbom count)),
    ("sbom_sha256", .str (Json.canonicalSha256 Runtime.sample (.obj (numberedSbom count))))]

/-- It is queued within the default limit of a request. -/
theorem resultUpload_numbered {count : Nat} (h : count ≤ 75000) :
    resultUpload Runtime.sample sampleSbomText (numberedResult count) [] [] (32 * 1024 * 1024) =
      .ok (numberedUpload count) := by
  have hlength : (numberedResult count).software.length ≤ defaultMaxComponents := by
    show ((List.range count).map numbered).length ≤ 100000
    rw [List.length_map, List.length_range]
    omega
  have hbuilt : buildCyclonedxSbom Runtime.sample sampleSbomText (numberedResult count) =
      .ok (numberedSbom count) :=
    buildCyclonedxSbom_eq_ok.mpr ⟨⟨by decide, le_refl _⟩, hlength, "endpoint-1", rfl, rfl⟩
  refine resultUpload_eq_ok.mpr ⟨numberedSbom count, hbuilt, rfl, ?_⟩
  have hdigest : isHexDigest
      (Json.canonicalSha256 Runtime.sample (.obj (numberedSbom count))) = true :=
    Runtime.sample.hashText_digest _
  have hchecksum := Json.textSize_stringRepr (plain_of_isHexDigest hdigest)
  rw [length_of_isHexDigest hdigest] at hchecksum
  have hsbom := size_numberedSbom h
  have htexts : Json.textSize (Json.stringRepr "evidence_envelope_version") = 27 ∧
      Json.textSize (Json.stringRepr "1.0") = 5 ∧ Json.textSize (Json.stringRepr "result") = 8 ∧
      Json.textSize (Json.stringRepr "inventory_sync") = 16 ∧
      Json.textSize (Json.stringRepr "sbom") = 6 ∧
      Json.textSize (Json.stringRepr "sbom_sha256") = 13 := ⟨rfl, rfl, rfl, rfl, rfl, rfl⟩
  rw [canonicalSize, Json.utf8ByteSize_canonicalJson]
  simp only [numberedUpload, Json.size, Json.sizeOfFields, Json.render, hchecksum, htexts]
    at hsbom ⊢
  omega

/-- A scan that found one program. -/
theorem sbom_accepted_iff_single :
    SbomAccepted Runtime.sample .standard (numberedUpload 1) ↔
      SbomRoom Runtime.sample sampleSbomText .standard (numberedResult 1)
        (sbomEndpointId sampleSbomText "endpoint-1") :=
  sbom_accepted_iff rfl (resultUpload_numbered (by omega))

/--
An inventory of 75,000 programs, each with a version and a vendor: the endpoint builds its SBOM and
queues it within the default limit of a request, and the cloud refuses the upload.
-/
theorem sbom_accepted_refuses :
    resultUpload Runtime.sample sampleSbomText (numberedResult 75000) [] [] (32 * 1024 * 1024) =
        .ok (numberedUpload 75000) ∧
      ¬ SbomAccepted Runtime.sample .standard (numberedUpload 75000) := by
  refine ⟨resultUpload_numbered (le_refl _), ?_⟩
  rintro ⟨sbom, checksum, hget, -, hbounded, -⟩
  obtain rfl := Json.obj.inj hget
  have hnodes := (isBoundedDocument_redactedSbom _ _).mp hbounded
  have hmany := @documentNodes_numbered Runtime.sample sampleSbomText 75000 (by omega)
    (sbomEndpointId sampleSbomText "endpoint-1")
  omega

end OsScanner.Endpoint

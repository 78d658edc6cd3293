import Mathlib
import OsScanner.Normalization.StagedMerge
import OsScanner.Normalization.Validation

/-!
# Merged records as records

Whether a record that the merge makes is accepted when it is read again. Most of its fields are
those of a record that went in, or are cut to their limits. The identifier, the number of the
aliases and the evidence are new: their limits are those of one record, while they hold what a
whole group has, and the evidence of each record two levels deeper.
-/

namespace OsScanner.Normalization

open Lib Lib.Check Cloud Relation

variable {rt : Runtime} {lib : Library} {order : SetOrder rt}

/-! ## The statements -/

open Classical in
/-- The records that are connected with a record. -/
noncomputable def component (rt : Runtime) (records : List Vulnerability) (item : Vulnerability) :
    List Vulnerability :=
  records.filter fun other => decide (ConnectedIn rt records item other)

/-- The evidence that a merge keeps of these records: that of the first ones, up to sixteen. -/
def keptEvidence (rt : Runtime) (items : List Vulnerability) : List Json :=
  ((groupOrder rt items).flatMap evidenceOf).take 16

/-- The records fit into one record. -/
structure Fits (order : SetOrder rt) (items : List Vulnerability) : Prop where
  /-- The name that `_canonical_identifier` prefers is an identifier. -/
  canonical : ∀ name ∈ (order.names (groupOrder rt items)).argmin (priority rt),
    isIdentifier (trim name) = true
  names : (union names items).card ≤ 513
  nodes : 3 + (union sourceNames items).card + ((keptEvidence rt items).map nodes).sum ≤ 5000
  height : ∀ record ∈ keptEvidence rt items, height record ≤ 6
  keys : ∀ record ∈ keptEvidence rt items, keysNamed record = true

/-- The record is accepted when it is read again after a dump. -/
def Revalidates (rt : Runtime) (lib : Library) (item : Vulnerability) : Prop :=
  ∃ again, validate rt lib item.dump = .ok again

/-! ## The evidence -/

theorem evidenceRecords_eq (items : List Vulnerability) : ∀ found : List Json, found.length < 16 →
    evidenceRecords found items = (found ++ items.flatMap evidenceOf).take 16 := by
  induction items with
  | nil =>
    intro found h
    rw [evidenceRecords, List.flatMap_nil, List.append_nil, List.take_of_length_le h.le]
  | cons item items ih =>
    intro found h
    rw [evidenceRecords, List.flatMap_cons, ← List.append_assoc]
    split
    · next hfull => rw [List.take_append_of_le_length hfull]
    · next hfull => exact ih _ (by omega)

theorem mergedEvidence_eq (items : List Vulnerability) : mergedEvidence (groupOrder rt items) =
    [("sources", .arr ((union sourceNames (groupOrder rt items)).sort.map .str)),
      ("records", .arr (keptEvidence rt items))] := by
  rw [mergedEvidence, evidenceRecords_eq _ [] (by decide), List.nil_append]
  rfl

theorem nodes_texts (texts : List String) : nodesOfItems (texts.map .str) = texts.length := by
  rw [nodesOfItems_eq, List.map_map]
  induction texts with
  | nil => rfl
  | cons text texts ih =>
    rw [List.map_cons, List.sum_cons, ih, List.length_cons, Nat.add_comm]
    rfl

theorem keysNamedItems_iff {items : List Json} :
    keysNamedItems items = true ↔ ∀ v ∈ items, keysNamed v = true := by
  induction items with
  | nil => simp [keysNamedItems]
  | cons v l ih => rw [keysNamedItems, Bool.and_eq_true, ih, List.forall_mem_cons]

/-- Sources and records are the two lists of the merged evidence. -/
theorem boundedCopy_evidence {sources : List String} {records : List Json} {copy : Json} :
    boundedCopy 8 5000 (.obj [("sources", .arr (sources.map .str)), ("records", .arr records)]) =
        .ok copy ↔
      (3 + sources.length + (records.map nodes).sum ≤ 5000 ∧ (∀ r ∈ records, height r ≤ 6) ∧
        ∀ r ∈ records, keysNamed r = true) ∧
      copy = .obj [("sources", .arr (sources.map .str)), ("records", .arr records)] := by
  rw [boundedCopy_eq_ok]
  refine and_congr_left fun _ => ?_
  have hsources : heightOfItems (sources.map Json.str) ≤ 1 := by
    rw [heightOfItems_le]
    intro v hv
    obtain ⟨text, -, rfl⟩ := List.mem_map.mp hv
    exact le_refl _
  have hnodes : nodes (.obj [("sources", .arr (sources.map .str)), ("records", .arr records)]) =
      3 + sources.length + (records.map nodes).sum := by
    rw [← nodesOfItems_eq]
    simp only [nodes, nodesOfFields, nodes_texts]
    omega
  have hheight : height (.obj [("sources", .arr (sources.map .str)), ("records", .arr records)]) ≤ 8 ↔
      ∀ r ∈ records, height r ≤ 6 := by
    have hitems : heightOfItems records ≤ 7 ↔ ∀ r ∈ records, height r ≤ 6 := by
      rw [heightOfItems_le]
      exact forall₂_congr fun r _ => Nat.succ_le_succ_iff
    rw [← hitems]
    simp only [height, heightOfFields]
    omega
  have hkeys : keysNamed (.obj [("sources", .arr (sources.map .str)), ("records", .arr records)]) =
      true ↔ ∀ r ∈ records, keysNamed r = true := by
    have htexts : keysNamedItems (sources.map Json.str) = true := by
      rw [keysNamedItems_iff]
      intro v hv
      obtain ⟨text, -, rfl⟩ := List.mem_map.mp hv
      rfl
    have hnames : ("sources" ≠ "" ∧ "sources".length ≤ 256) ∧ "records" ≠ "" ∧
        "records".length ≤ 256 := by decide
    rw [← keysNamedItems_iff]
    simp only [keysNamed, keysNamedFields, htexts, decide_eq_true hnames.1, decide_eq_true hnames.2,
      Bool.true_and, Bool.and_true]
  rw [hnodes, hheight, hkeys]

/-! ## A merged record -/

theorem mem_groupOrder {items : List Vulnerability} {item : Vulnerability} :
    item ∈ groupOrder rt items ↔ item ∈ items := List.mem_insertionSort _

theorem union_groupOrder (values : Vulnerability → Finset String) (items : List Vulnerability) :
    union values (groupOrder rt items) = union values items := by
  ext x
  simp only [mem_union, mem_groupOrder]

theorem length_firstValues_le (n : Nat) (values : Vulnerability → List String)
    (items : List Vulnerability) : (firstValues n values items).length ≤ n := by
  rw [firstValues, length_smallest]
  exact Nat.min_le_left _ _

theorem mem_firstValues {n : Nat} {values : Vulnerability → List String}
    {items : List Vulnerability} {value : String} (h : value ∈ firstValues n values items) :
    ∃ item ∈ items, value ∈ values item := by
  obtain ⟨item, hitem, hvalue⟩ := mem_union.mp (mem_smallest.mp h).1
  exact ⟨item, hitem, List.mem_toFinset.mp hvalue⟩

/-- Validated names are trimmed. -/
theorem trim_of_mem_names {items : List Vulnerability} (hitems : ∀ item ∈ items, Checked lib item)
    {name : String} (h : name ∈ union names items) : trim name = name := by
  obtain ⟨item, hitem, hname⟩ := mem_union.mp h
  rcases Finset.mem_insert.mp (Finset.mem_filter.mp hname).1 with rfl | halias
  · exact trim_of_isIdentifier (hitems item hitem).vulnerabilityId
  · exact (hitems item hitem).aliases name halias

theorem argmin_canonicalIdentifier {first : Vulnerability} {ordered : List Vulnerability}
    (hfirst : first ∈ ordered) : (order.names ordered).argmin (priority rt) =
      some (canonicalIdentifier order ordered first).1 := by
  have hname : first.vulnerabilityId ∈ order.names ordered :=
    (order.mem_names _ _).mpr (mem_union.mpr ⟨first, hfirst, vulnerabilityId_mem_names first⟩)
  unfold canonicalIdentifier
  split
  · next h =>
    rw [List.argmin_eq_none.mp h] at hname
    cases hname
  · next value h => exact h

/-- The summary of a merged record is that of one of them. -/
theorem shortText_summary {items : List Vulnerability} {first : Vulnerability}
    (hitems : ∀ item ∈ items, Checked lib item) :
    shortText 16384 (mergeOrdered order first (groupOrder rt items)).summary = true := by
  cases h : (mergeOrdered order first (groupOrder rt items)).summary with
  | none => rfl
  | some summary =>
    have hmem := (List.mem_filter.mp (List.argmax_mem h)).1
    obtain ⟨item, hitem, hsummary⟩ := List.mem_filterMap.mp hmem
    rw [← hsummary]
    exact (hitems item (mem_groupOrder.mp hitem)).summary

/-- The evidence of a merged record is accepted within the limits of one record. -/
theorem validateEvidence_merged {items : List Vulnerability} :
    (∃ kept, validateEvidence rt lib (.obj (mergedEvidence (groupOrder rt items))) = .ok kept) ↔
      3 + (union sourceNames items).card + ((keptEvidence rt items).map nodes).sum ≤ 5000 ∧
        (∀ record ∈ keptEvidence rt items, height record ≤ 6) ∧
        ∀ record ∈ keptEvidence rt items, keysNamed record = true := by
  rw [mergedEvidence_eq, union_groupOrder]
  unfold validateEvidence
  simp only [bind_eq_ok, boundedCopy_evidence, Finset.length_sort]
  constructor
  · rintro ⟨kept, copy, ⟨hwithin, -⟩, -⟩
    exact hwithin
  · intro hwithin
    exact ⟨_, _, ⟨hwithin, rfl⟩, rfl⟩

/-- A merged record is read again exactly when its group fits into one record. -/
theorem revalidates_iff {items : List Vulnerability} (hitems : ∀ item ∈ items, Checked lib item)
    {merged : Vulnerability} (h : mergeGroup order items = some merged) :
    Revalidates rt lib merged ↔ Fits order items := by
  obtain ⟨first, hhead, rfl⟩ := Option.map_eq_some_iff.mp h
  have hfirst : first ∈ groupOrder rt items := List.mem_of_mem_head? hhead
  have hchecked := hitems first (mem_groupOrder.mp hfirst)
  have hcanonical := @argmin_canonicalIdentifier rt order _ _ hfirst
  have hnamed := (@canonicalIdentifier_spec rt order _ _ hfirst).1
  rw [union_groupOrder] at hnamed
  -- The aliases are trimmed already, so there are as many of them as before.
  have haliases : (((mergeOrdered order first (groupOrder rt items)).aliases.sort.map
      trim).toFinset.card ≤ 512 ↔ (union names items).card ≤ 513) := by
    have hsame : ((union names items).erase (canonicalIdentifier order (groupOrder rt items)
        first).1).sort.map trim = ((union names items).erase (canonicalIdentifier order
          (groupOrder rt items) first).1).sort := by
      refine (List.map_congr_left fun name hname => ?_).trans (List.map_id _)
      exact trim_of_mem_names hitems (Finset.mem_of_mem_erase ((Finset.mem_sort _).mp hname))
    have hcard := Finset.card_erase_of_mem hnamed
    show ((((union names (groupOrder rt items)).erase _).sort.map trim).toFinset.card ≤ 512 ↔ _)
    rw [union_groupOrder, hsame, Finset.sort_toFinset, hcard]
    omega
  unfold Revalidates
  rw [validate_isOk]
  constructor
  · intro haccepted
    obtain ⟨hnodes, hheight, hkeys⟩ := validateEvidence_merged.mp haccepted.evidence
    refine ⟨fun name hname => ?_, haliases.mp haccepted.aliases, hnodes, hheight, hkeys⟩
    rw [hcanonical, Option.mem_def, Option.some.injEq] at hname
    rw [← hname]
    exact haccepted.vulnerabilityId
  · intro hfits
    exact
      { schemaVersion := hchecked.schemaVersion
        scannerVersion := hchecked.scannerVersion
        scanId := hchecked.scanId
        endpointId := hchecked.endpointId
        vulnerabilityId := hfits.canonical _ (by rw [hcanonical]; rfl)
        packageName := hchecked.packageName
        packageEcosystem := hchecked.packageEcosystem
        installedVersion := hchecked.installedVersion
        affectedVersions := length_firstValues_le _ _ _
        fixedVersions := length_firstValues_le _ _ _
        aliases := haliases.mpr hfits.names
        cvssScore := fun score hscore => by
          obtain ⟨item, hitem, hitem'⟩ := List.mem_filterMap.mp (List.max?_mem hscore)
          exact (hitems item (mem_groupOrder.mp hitem)).cvssScore score hitem'
        exploitability := fun score hscore => by
          obtain ⟨item, hitem, hitem'⟩ := List.mem_filterMap.mp (List.max?_mem hscore)
          exact (hitems item (mem_groupOrder.mp hitem)).exploitability score hitem'
        summary := @shortText_summary rt lib order items first hitems
        references := ⟨length_firstValues_le _ _ _, fun reference hreference => by
          obtain ⟨item, hitem, hitem'⟩ := mem_firstValues hreference
          exact ⟨reference, (hitems item (mem_groupOrder.mp hitem)).references reference hitem'⟩⟩
        evidence := validateEvidence_merged.mpr ⟨hfits.nodes, hfits.height, hfits.keys⟩ }

/-! ## The records of a merge -/

open Classical in
/-- The groups of a merge are the components of its records. -/
theorem groupOf_component {records items : List Vulnerability} {merged item : Vulnerability}
    (h : GroupOf order records merged items) (hitem : item ∈ items) :
    items = component rt records item := by
  obtain ⟨group, hgroup, rfl, -⟩ := h
  obtain ⟨⟨r, i⟩, hmem, rfl⟩ := List.mem_map.mp hitem
  obtain ⟨hi, -⟩ := mem_group hgroup hmem
  obtain ⟨k, rfl, -⟩ := mem_sortedGroups.mp hgroup
  have hroot : (forest order records).root i = k :=
    of_decide_eq_true (List.mem_filter.mp hmem).2
  have hfilter : records.zipIdx.filter (fun e => decide ((forest order records).root e.2 = k)) =
      records.zipIdx.filter ((fun other => decide (ConnectedIn rt records r other)) ∘ Prod.fst) := by
    refine List.filter_congr fun ⟨s, j⟩ hs => decide_eq_decide.mpr ?_
    rw [List.mem_zipIdx_iff_getElem?] at hs
    rw [← hroot, eq_comm]
    exact root_forest.trans (chain_iff hi hs)
  rw [hfilter, ← List.filter_map, List.zipIdx_map_fst]
  rfl

/-- The records of a merge are read again exactly when the records of each group fit into one. -/
theorem merged_revalidate_iff (lib : Library) (order : SetOrder rt) (records : List Vulnerability)
    (hvalid : ∀ item ∈ records, ∃ raw, validate rt lib raw = .ok item) :
    (∀ merged, mergeVulnerabilities order records = .ok merged →
        ∀ item ∈ merged, Revalidates rt lib item) ↔
      (records.length ≤ maxRecords → ∀ item ∈ records, Fits order (component rt records item)) := by
  have hchecked : ∀ {item}, item ∈ records → Checked lib item := fun hitem => by
    obtain ⟨raw, hraw⟩ := hvalid _ hitem
    exact checked_of_validate hraw
  have hgroup : ∀ {merged items}, GroupOf order records merged items →
      (Revalidates rt lib merged ↔ Fits order items) := fun h => by
    obtain ⟨group, -, -, hmerge⟩ := id h
    exact revalidates_iff (fun item hitem => hchecked (h.subset hitem)) hmerge
  by_cases hsize : records.length ≤ maxRecords
  · obtain ⟨merged, hmerged, -, hmem⟩ := merge_eq order hsize
    constructor
    · intro h _ item hitem
      obtain ⟨result, items, hof, hitem'⟩ := exists_groupOf order hitem
      rw [← groupOf_component hof hitem', ← hgroup hof]
      exact h merged hmerged result ((hmem result).mpr ⟨items, hof⟩)
    · intro h merged' hmerged' result hresult
      obtain rfl : merged = merged' := Except.ok.inj (hmerged.symm.trans hmerged')
      obtain ⟨items, hof⟩ := (hmem result).mp hresult
      obtain ⟨item, hitem, -⟩ := mem_union.mp hof.represents.named
      rw [hgroup hof, groupOf_component hof hitem]
      exact h hsize item (hof.subset hitem)
  · refine iff_of_true (fun merged hmerged => ?_) fun h => absurd h hsize
    rw [merge_too_many order (Nat.lt_of_not_le hsize)] at hmerged
    cases hmerged

/-! ## Two documents -/

open Classical in
theorem component_singleton {item : Vulnerability} : component rt [item] item = [item] := by
  refine List.filter_eq_self.mpr fun other hother => ?_
  rw [List.mem_singleton.mp hother]
  exact decide_eq_true (EqvGen.refl item)

theorem groupOrder_singleton {item : Vulnerability} : groupOrder rt [item] = [item] := rfl

def documented (evidence : JsonObject) : VulnerabilityFields where
  scanId := "scan-1"
  vulnerabilityId := "CVE-2024-0001"
  packageName := "openssl"
  severity := .high
  evidence := .obj evidence
  detectedAt := 0

/-- The texts of the record are accepted. -/
theorem documented_texts :
    isIdentifier (trim "CVE-2024-0001") = true ∧ trim "CVE-2024-0001" = "CVE-2024-0001" ∧
    (1 ≤ (trim "openssl").length ∧ (trim "openssl").length ≤ 512) ∧
    isSchemaVersion sampleLibrary (trim "1.0") = true ∧
    isScannerVersion sampleLibrary (trim "1.1.0") = true ∧ isIdentifier (trim "scan-1") = true := by
  decide +kernel

theorem isIdentifier_documented : isIdentifier (trim "CVE-2024-0001") = true := documented_texts.1

def documentedRecord (evidence : JsonObject) : Vulnerability :=
  (documented evidence).keep isIdentifier_documented [] evidence

theorem validate_documented {evidence : JsonObject}
    (h : validateEvidence Runtime.sample sampleLibrary (.obj evidence) = .ok evidence) :
    validate Runtime.sample sampleLibrary (documented evidence) = .ok (documentedRecord evidence) := by
  obtain ⟨-, -, hpackage, hschema, hscanner, hscan⟩ := documented_texts
  have haccepted : Accepted Runtime.sample sampleLibrary (documented evidence) :=
    { schemaVersion := hschema
      scannerVersion := hscanner
      scanId := hscan
      endpointId := rfl
      vulnerabilityId := isIdentifier_documented
      packageName := hpackage
      packageEcosystem := rfl
      installedVersion := rfl
      affectedVersions := Nat.zero_le _
      fixedVersions := Nat.zero_le _
      aliases := Nat.zero_le _
      cvssScore := fun _ hscore => nomatch hscore
      exploitability := fun _ hscore => nomatch hscore
      summary := rfl
      references := ⟨Nat.zero_le _, fun _ href => absurd href List.not_mem_nil⟩
      evidence := ⟨evidence, h⟩ }
  exact validate_eq_ok.mpr ⟨haccepted, isIdentifier_documented, [], evidence, rfl, h, rfl⟩

/-- Evidence with six levels, which one record may have. -/
def nestedEvidence : JsonObject := [("chain", .arr [.arr [.arr [.arr [.arr [.arr []]]]]])]

theorem validateEvidence_nested :
    validateEvidence Runtime.sample sampleLibrary (.obj nestedEvidence) = .ok nestedEvidence := by
  decide +kernel

/-- The evidence that a merge keeps of one record which names no source. -/
theorem keptEvidence_documented {evidence : JsonObject} (hrecords : evidence.get "records" = .null)
    (hsources : sourceNames (documentedRecord evidence) = {"unknown"}) :
    keptEvidence Runtime.sample [documentedRecord evidence] = [.obj [("source", .str "unknown"),
      ("vulnerability_id", .str "CVE-2024-0001"), ("evidence", .obj evidence)]] := by
  have hof : evidenceOf (documentedRecord evidence) = [.obj [("source", .str "unknown"),
      ("vulnerability_id", .str "CVE-2024-0001"), ("evidence", .obj evidence)]] := by
    have hget : (documentedRecord evidence).evidence.get "records" = .null := hrecords
    have hid : (documentedRecord evidence).vulnerabilityId = "CVE-2024-0001" := documented_texts.2.1
    rw [evidenceOf, hget, hsources, Finset.sort_singleton, hid]
    rfl
  rw [keptEvidence, groupOrder_singleton, List.flatMap_singleton, hof]
  rfl

/-- A record without evidence is read again after its merge. -/
theorem merged_revalidate_iff_documented : ∃ merged,
    mergeVulnerabilities (SetOrder.sorted Runtime.sample) [documentedRecord []] = .ok merged ∧
      ∀ item ∈ merged, Revalidates Runtime.sample sampleLibrary item := by
  refine ⟨_, rfl, (merged_revalidate_iff sampleLibrary (SetOrder.sorted Runtime.sample)
    [documentedRecord []] fun item hitem => ?_).mpr (fun _ item hitem => ?_) _ rfl⟩
  · rw [List.mem_singleton] at hitem
    subst hitem
    exact ⟨_, validate_documented (by decide +kernel)⟩
  · rw [List.mem_singleton] at hitem
    subst hitem
    have hkept := @keptEvidence_documented [] rfl (by decide +kernel)
    rw [component_singleton]
    refine ⟨fun name hname => ?_, ?_, ?_, ?_, ?_⟩
    · have hmem : name ∈ union names [documentedRecord []] :=
        ((SetOrder.sorted Runtime.sample).mem_names _ _).mp (List.argmin_mem hname)
      have hall : ∀ n ∈ union names [documentedRecord []], isIdentifier (trim n) = true := by
        decide +kernel
      exact hall name hmem
    · decide +kernel
    · rw [hkept]
      decide +kernel
    · rw [hkept]
      decide
    · rw [hkept]
      decide +kernel

/-- Of one record with six levels of evidence the merge makes a record that is rejected. -/
theorem nested_evidence_rejected :
    (∃ raw, validate Runtime.sample sampleLibrary raw = .ok (documentedRecord nestedEvidence)) ∧
      ∃ merged, mergeVulnerabilities (SetOrder.sorted Runtime.sample)
          [documentedRecord nestedEvidence] = .ok merged ∧
        ∃ item ∈ merged, ¬ Revalidates Runtime.sample sampleLibrary item := by
  have hvalid := validate_documented validateEvidence_nested
  refine ⟨⟨_, hvalid⟩, ?_⟩
  obtain ⟨merged, hmerged, -, hmem⟩ :=
    @merge_eq Runtime.sample [documentedRecord nestedEvidence] (SetOrder.sorted Runtime.sample)
      (by decide)
  obtain ⟨result, items, hof, hitem⟩ := @exists_groupOf _ _ _ (SetOrder.sorted Runtime.sample)
    (List.mem_singleton_self (documentedRecord nestedEvidence))
  refine ⟨merged, hmerged, result, (hmem result).mpr ⟨items, hof⟩, fun hagain => ?_⟩
  obtain ⟨group, -, hitems, hmerge⟩ := id hof
  have hfits := (revalidates_iff (fun item h => ?_) hmerge).mp hagain
  · have hcomponent := groupOf_component hof hitem
    rw [component_singleton] at hcomponent
    subst hcomponent
    have hheight := hfits.height (.obj [("source", .str "unknown"),
      ("vulnerability_id", .str "CVE-2024-0001"), ("evidence", .obj nestedEvidence)]) ?_
    · exact absurd hheight (by decide)
    · rw [keptEvidence_documented rfl (by decide +kernel)]
      exact List.mem_singleton_self _
  · obtain rfl := List.mem_singleton.mp (hof.subset h)
    exact checked_of_validate hvalid

end OsScanner.Normalization

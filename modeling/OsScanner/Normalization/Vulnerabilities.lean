import Mathlib
import OsScanner.Cloud.FinalReport
import OsScanner.Lib.Forest
import OsScanner.Lib.Groups

/-!
# Merging vulnerability records

`app/normalization/vulnerability_merge.py`: the records of several tools are put together when
they are about the same package and have an identifier in common, directly or through other
records. Each group becomes one record, which carries the evidence of all of them.

Python iterates sets in no particular order. Where the code does, the order is a parameter.
-/

namespace OsScanner.Normalization

open Lib Cloud

/-! ## Records -/

/-- `Vulnerability`. Its identifier is not blank. -/
structure Vulnerability where
  schemaVersion : String := "1.0"
  scannerVersion : String := "1.1.0"
  scanId : String
  endpointId : Option String := none
  vulnerabilityId : String
  packageName : String
  packageEcosystem : Option String := none
  installedVersion : Option String := none
  affectedVersions : List String := []
  fixedVersions : List String := []
  aliases : Finset String := ∅
  severity : Severity
  cvssScore : Option ℚ := none
  exploitability : Option ℚ := none
  knownExploited : Bool := false
  summary : Option String := none
  references : List String := []
  evidence : JsonObject := []
  detectedAt : Timestamp
  named : Storage.strip vulnerabilityId ≠ ""

/-- `_SEVERITY_RANK` -/
def severityRank : Severity → Nat
  | .info => 0
  | .low => 1
  | .medium => 2
  | .high => 3
  | .critical => 4

theorem severityRank_injective : Function.Injective severityRank := by
  intro a b h
  cases a <;> cases b <;> first | rfl | cases h

/-- `text[:n]` -/
def cut (text : String) (n : Nat) : String := String.ofList (text.toList.take n)

def maxRecords : Nat := 100000

/-- The identifiers of a record that are not blank. -/
def names (item : Vulnerability) : Finset String :=
  (insert item.vulnerabilityId item.aliases).filter fun value => Storage.strip value ≠ ""

theorem vulnerabilityId_mem_names (item : Vulnerability) : item.vulnerabilityId ∈ names item :=
  Finset.mem_filter.mpr ⟨Finset.mem_insert_self _ _, item.named⟩

/-- The values that the records have together. -/
def union (values : Vulnerability → Finset String) (items : List Vulnerability) : Finset String :=
  items.foldr (fun item rest => values item ∪ rest) ∅

@[simp] theorem mem_union {values : Vulnerability → Finset String} {items : List Vulnerability}
    {x : String} : x ∈ union values items ↔ ∃ item ∈ items, x ∈ values item := by
  induction items with
  | nil => simp [union]
  | cons item items ih =>
    show x ∈ values item ∪ union values items ↔ _
    rw [Finset.mem_union, ih]
    simp

section Merge

variable (rt : Runtime)

/-- `_package_key(item)` -/
def packageKey (item : Vulnerability) : String × String × String :=
  (Storage.strip (rt.casefold item.packageName),
    Storage.strip (rt.casefold (item.packageEcosystem.getD "")),
    Storage.strip (rt.casefold (item.installedVersion.getD "")))

/-- `_identifiers(item)` -/
def identifiers (item : Vulnerability) : Finset String := (names item).image rt.casefold

/-- The orders in which a process iterates the sets that it builds. -/
structure SetOrder where
  /-- `_identifiers(item)` -/
  keys : Vulnerability → List String
  mem_keys : ∀ item k, k ∈ keys item ↔ k ∈ identifiers rt item
  /-- The identifiers of a group. -/
  names : List Vulnerability → List String
  mem_names : ∀ items n, n ∈ names items ↔ n ∈ union Normalization.names items

/-- Every set is iterated in the order of its elements. -/
def SetOrder.sorted : SetOrder rt where
  keys item := (identifiers rt item).sort
  mem_keys _ _ := Finset.mem_sort _
  names items := (union Normalization.names items).sort
  mem_names _ _ := Finset.mem_sort _

/-- The key of `_canonical_identifier`. -/
def priority (value : String) : Nat ×ₗ String :=
  let upper := rt.upper value
  if "CVE-".toList.isPrefixOf upper.toList then toLex (0, upper)
  else if "GHSA-".toList.isPrefixOf upper.toList then toLex (1, upper)
  else toLex (2, upper)

/-! ## The sources of a record -/

/-- A text that is not blank, in at most 128 characters. -/
def sourceText (value : Json) : Option String :=
  match value with
  | .str text => if Storage.strip text = "" then none else some (cut (Storage.strip text) 128)
  | _ => none

/-- The source that a record names itself. -/
def ownSource (evidence : JsonObject) : String :=
  match sourceText (evidence.get "source_tool"), sourceText (evidence.get "source"),
      sourceText (evidence.get "source_path") with
  | some tool, _, _ => tool
  | none, some source, _ => source
  | none, none, some _ => "dependency-scanner"
  | none, none, none => "unknown"

/-- `_source_names(item)` -/
def sourceNames (item : Vulnerability) : Finset String :=
  match item.evidence.get "sources" with
  | .arr aggregated =>
    let named := (aggregated.filterMap sourceText).toFinset
    if named = ∅ then {ownSource item.evidence} else named
  | _ => {ownSource item.evidence}

/-! ## The evidence of a group -/

def isObject : Json → Bool
  | .obj _ => true
  | _ => false

/-- What a record contributes: the records that it was merged from, or itself. -/
def evidenceOf (item : Vulnerability) : List Json :=
  match item.evidence.get "records" with
  | .arr prior => prior.filter isObject
  | _ => [.obj [("source", .str ((sourceNames item).sort.headD "")),
      ("vulnerability_id", .str item.vulnerabilityId), ("evidence", .obj item.evidence)]]

/-- The loop over the records, which ends when it has sixteen. -/
def evidenceRecords : List Json → List Vulnerability → List Json
  | found, [] => found
  | found, item :: rest =>
    let found := found ++ evidenceOf item
    if found.length ≥ 16 then found.take 16 else evidenceRecords found rest

def mergedEvidence (ordered : List Vulnerability) : JsonObject :=
  [("sources", .arr ((union sourceNames ordered).sort.map .str)),
    ("records", .arr (evidenceRecords [] ordered))]

/-! ## One record of a group -/

/-- The key by which a group is sorted. -/
def groupKey (item : Vulnerability) : Timestamp ×ₗ String ×ₗ String :=
  toLex (item.detectedAt, toLex (rt.casefold item.vulnerabilityId, rt.casefold item.packageName))

def groupOrder (items : List Vulnerability) : List Vulnerability :=
  items.insertionSort fun a b => groupKey rt a ≤ groupKey rt b

variable {rt}

/-- `_canonical_identifier(identifiers)`; a record has an identifier, so there is a smallest one. -/
def canonicalIdentifier (order : SetOrder rt) (ordered : List Vulnerability)
    (first : Vulnerability) : {value : String // Storage.strip value ≠ ""} :=
  match h : (order.names ordered).argmin (priority rt) with
  | none => ⟨first.vulnerabilityId, first.named⟩
  | some value => ⟨value, by
      have hmem := (order.mem_names _ _).mp (List.argmin_mem h)
      obtain ⟨item, -, hname⟩ := mem_union.mp hmem
      exact (Finset.mem_filter.mp hname).2⟩

/-- `sorted({value for item in ordered for value in values(item)})[:n]` -/
def firstValues (n : Nat) (values : Vulnerability → List String) (ordered : List Vulnerability) :
    List String :=
  smallest n (union (fun item => (values item).toFinset) ordered)

/-- `_merge_group(items)` of the first record and the others in their order. -/
def mergeOrdered (order : SetOrder rt) (first : Vulnerability) (ordered : List Vulnerability) :
    Vulnerability :=
  let canonical := canonicalIdentifier order ordered first
  let summaries := (ordered.filterMap Vulnerability.summary).filter (· ≠ "")
  { first with
    vulnerabilityId := canonical.1
    aliases := (union names ordered).erase canonical.1
    affectedVersions := firstValues 512 Vulnerability.affectedVersions ordered
    fixedVersions := firstValues 512 Vulnerability.fixedVersions ordered
    severity := ((ordered.map Vulnerability.severity).argmax severityRank).getD first.severity
    cvssScore := (ordered.filterMap Vulnerability.cvssScore).max?
    exploitability := (ordered.filterMap Vulnerability.exploitability).max?
    knownExploited := ordered.any Vulnerability.knownExploited
    summary := summaries.argmax fun value => toLex (value.length, value)
    references := firstValues 128 Vulnerability.references ordered
    evidence := mergedEvidence ordered
    detectedAt := ((ordered.map Vulnerability.detectedAt).min?).getD first.detectedAt
    named := canonical.2 }

/-- `_merge_group(items)`, absent where there are none. -/
def mergeGroup (order : SetOrder rt) (items : List Vulnerability) : Option Vulnerability :=
  (groupOrder rt items).head?.map fun first => mergeOrdered order first (groupOrder rt items)

/-! ## The merge -/

/-- The keys of `seen`, each with the index of its record. -/
def keyPairs (order : SetOrder rt) (records : List Vulnerability) :
    List (Nat × ((String × String × String) × String)) :=
  records.zipIdx.flatMap fun e => (order.keys e.1).map fun k => (e.2, (packageKey rt e.1, k))

def forest (order : SetOrder rt) (records : List Vulnerability) : Forest :=
  (linkAll (keyPairs order records)).2

/-- `grouped`, in the order of its keys. The records keep their indices. -/
def groups (order : SetOrder rt) (records : List Vulnerability) :
    List (List (Vulnerability × Nat)) :=
  sortedGroups (fun e => (forest order records).root e.2) records.zipIdx

variable (rt) in
/-- The key by which the result is sorted. -/
def resultKey (item : Vulnerability) : Nat ×ₗ String ×ₗ String ×ₗ String :=
  toLex (4 - severityRank item.severity, toLex (rt.casefold item.packageName,
    toLex (rt.casefold (item.installedVersion.getD ""), rt.casefold item.vulnerabilityId)))

/-- `merge_vulnerabilities(records)` -/
def mergeVulnerabilities (order : SetOrder rt) (records : List Vulnerability) :
    Except String (List Vulnerability) := do
  Check.raiseIf (records.length > maxRecords) s!"vulnerability record count exceeds {maxRecords}"
  let merged := (groups order records).filterMap fun group => mergeGroup order (group.map Prod.fst)
  .ok (merged.insertionSort fun a b => resultKey rt a ≤ resultKey rt b)

end Merge

end OsScanner.Normalization

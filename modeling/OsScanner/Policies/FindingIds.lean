import Mathlib
import OsScanner.Policies.Witnesses
import OsScanner.Policies.FirstSeen

/-!
# The identifiers of findings

A finding is about a subject, a policy and a rule, and its identifier is made of the three texts with
a colon between them. Each of the three may have colons of its own. What is written with colons is
read back as a row of parts, so that two findings get one identifier exactly when they have the same
parts, cut in different places.
-/

namespace OsScanner.Policies

open Lib Lib.Check Cloud Security Storage

/-! ## Texts with colons -/

/-- What a finding is about. -/
structure Identity where
  subject : String
  policyId : String
  ruleId : String
  deriving DecidableEq

/-- The parts of a text between its colons. -/
def colonParts (text : String) : List (List Char) := text.toList.splitOn ':'

namespace Identity

/-- `f"{subject}:{policy_id}:{rule_id}"` -/
def name (identity : Identity) : String :=
  identity.subject ++ ":" ++ identity.policyId ++ ":" ++ identity.ruleId

/-- The parts of the three texts, in one row. -/
def parts (identity : Identity) : List (List Char) :=
  colonParts identity.subject ++ colonParts identity.policyId ++ colonParts identity.ruleId

/-- How many of the parts are the subject's, and how many the policy's. -/
def cuts (identity : Identity) : Nat × Nat :=
  ((colonParts identity.subject).length, (colonParts identity.policyId).length)

/-- The same parts, cut in different places. -/
def Regrouped (identity other : Identity) : Prop :=
  identity.parts = other.parts ∧ identity.cuts ≠ other.cuts

instance (identity other : Identity) : Decidable (Regrouped identity other) :=
  inferInstanceAs (Decidable (_ ∧ _))

end Identity

theorem colonParts_inj {text other : String} : colonParts text = colonParts other ↔ text = other := by
  constructor
  · intro h
    have hjoined := congrArg (List.intercalate [':']) h
    rw [colonParts, colonParts, List.intercalate_splitOn, List.intercalate_splitOn] at hjoined
    exact String.toList_inj.mp hjoined
  · rintro rfl
    rfl

theorem colonParts_append (text rest : String) :
    colonParts (text ++ ":" ++ rest) = colonParts text ++ colonParts rest := by
  have hjoined : (text ++ ":" ++ rest).toList = text.toList ++ ':' :: rest.toList := by
    rw [String.toList_append, String.toList_append, List.append_assoc]
    rfl
  rw [colonParts, hjoined, List.splitOn_append_cons_self]
  rfl

namespace Identity

variable {identity other : Identity}

/-- The name is read back as the parts. -/
theorem colonParts_name (identity : Identity) : colonParts identity.name = identity.parts := by
  rw [name, colonParts_append, colonParts_append, parts]

theorem name_eq_iff : identity.name = other.name ↔ identity.parts = other.parts := by
  rw [← colonParts_inj, colonParts_name, colonParts_name]

/-- The parts and the places where they are cut are the whole identity. -/
theorem eq_of_parts (hparts : identity.parts = other.parts) (hcuts : identity.cuts = other.cuts) :
    identity = other := by
  obtain ⟨hsubject, hpolicy⟩ := Prod.mk.injEq _ _ _ _ ▸ hcuts
  have hboth : (colonParts identity.subject ++ colonParts identity.policyId).length =
      (colonParts other.subject ++ colonParts other.policyId).length := by
    rw [List.length_append, List.length_append, hsubject, hpolicy]
  obtain ⟨hfirst, hrule⟩ := List.append_inj hparts hboth
  obtain ⟨hsubject, hpolicy⟩ := List.append_inj hfirst hsubject
  rw [colonParts_inj] at hsubject hpolicy hrule
  cases identity
  cases other
  cases hsubject
  cases hpolicy
  cases hrule
  rfl

/-- Two identities have one name only where they are regrouped. -/
theorem regrouped_iff (hne : identity ≠ other) :
    Regrouped identity other ↔ identity.name = other.name := by
  rw [name_eq_iff]
  constructor
  · exact fun h => h.1
  · exact fun h => ⟨h, fun hcuts => hne (eq_of_parts h hcuts)⟩

theorem not_regrouped_self (identity : Identity) : ¬ Regrouped identity identity :=
  fun h => h.2 rfl

/-- Where policies and rules are named without colons, nothing is regrouped, whatever the subjects. -/
theorem not_regrouped_of_plain (hpolicy : ':' ∉ identity.policyId.toList)
    (hrule : ':' ∉ identity.ruleId.toList) (hpolicy' : ':' ∉ other.policyId.toList)
    (hrule' : ':' ∉ other.ruleId.toList) : ¬ Regrouped identity other := by
  rintro ⟨hparts, hcuts⟩
  have hlength := congrArg List.length hparts
  rw [parts, parts, colonParts, colonParts, colonParts, colonParts, colonParts, colonParts,
    List.splitOn_eq_singleton hpolicy, List.splitOn_eq_singleton hrule,
    List.splitOn_eq_singleton hpolicy', List.splitOn_eq_singleton hrule'] at hlength
  simp only [List.length_append, List.length_singleton] at hlength
  refine hcuts ?_
  rw [cuts, cuts, colonParts, colonParts, colonParts, colonParts,
    List.splitOn_eq_singleton hpolicy, List.splitOn_eq_singleton hpolicy', Prod.mk.injEq]
  exact ⟨by omega, rfl⟩

end Identity

/-! ## The findings of the engine -/

section

variable {rt : Runtime} {py : Python} {pyStr : Json → String} {writer : FindingWriter}

/-- `context.endpoint_id or context.asset or "unknown"` -/
def subjectOf (context : EvaluationContext) : String :=
  let subject := if Normalization.present context.endpointId then context.endpointId
    else if Normalization.present context.asset then context.asset else none
  subject.getD "unknown"

/-- What a finding of the scan is about. -/
def Scan.identity (scan : Scan py) (finding : Finding) : Identity where
  subject := subjectOf scan.context
  policyId := scan.bundle.policyId
  ruleId := finding.ruleId

/-- The evaluation of the scan makes these findings. -/
def Scan.Makes (rt : Runtime) (scan : Scan py) (findings : List Finding) : Prop :=
  evaluate rt py scan.bundle scan.data scan.context scan.late scan.maxOperations = .ok findings

theorem findingId_of_construct {draft : FindingDraft py} {finding : Finding}
    (h : draft.construct rt py = .ok finding) :
    finding.findingId = "finding-" ++ py.uuid5 draft.name := by
  have hid := Normalization.trim_of_isIdentifier (py.uuid5_identifier draft.name)
  simp only [FindingDraft.construct, bind_eq_ok, Check.raiseIf_eq_ok, exists_const,
    Except.ok.injEq, Bool.not_eq_false] at h
  obtain ⟨-, -, -, -, -, -, -, -, -, -, evidence, -, -, -, references, -, -, -, -, -, -, rfl⟩ := h
  exact hid

/-- The identifier of a finding is made of what it is about. -/
theorem findingId_of_makes {scan : Scan py} {findings : List Finding}
    (h : scan.Makes rt findings) {finding : Finding} (hfinding : finding ∈ findings) :
    finding.findingId = "finding-" ++ py.uuid5 (scan.identity finding).name := by
  obtain ⟨rule, -, evidence, hmade⟩ := drafted_of_evaluate h hfinding
  have hrule : finding.ruleId = rule.ruleId := (construct_eq_ok hmade).1
  rw [findingId_of_construct hmade]
  show "finding-" ++ py.uuid5 (Identity.name ⟨subjectOf scan.context, scan.bundle.policyId, rule.ruleId⟩) =
    "finding-" ++ py.uuid5 (Identity.name ⟨subjectOf scan.context, scan.bundle.policyId, finding.ruleId⟩)
  rw [hrule]

theorem isIdentifier_of_makes {scan : Scan py} {findings : List Finding}
    (h : scan.Makes rt findings) {finding : Finding} (hfinding : finding ∈ findings) :
    isIdentifier finding.findingId = true :=
  (isNew_of_evaluate h hfinding).findingId

/-- The names that identifiers are made of. -/
def Scan.names (scan : Scan py) (findings : List Finding) : Set String :=
  {name | ∃ finding ∈ findings, name = (scan.identity finding).name}

/-! ### The rows of other findings -/

theorem findingId_assignFirstSeen (historical : Option String) (finding : Finding) :
    (assignFirstSeen rt historical finding).findingId = finding.findingId := by
  unfold assignFirstSeen
  split
  · rfl
  split
  · split <;> rfl
  · rfl

/-- What is saved are the findings of the evaluation, whenever they were first seen. -/
theorem findingIds_of_analyze {scan : Scan py} {store : FindingStore} {analyzed : List Finding}
    (h : analyze rt py scan store = .ok analyzed) : ∃ findings, scan.Makes rt findings ∧
      ∀ finding ∈ analyzed, ∃ made ∈ findings, finding.findingId = made.findingId := by
  rw [analyze, bind_eq_ok] at h
  obtain ⟨findings, hevaluated, h⟩ := h
  refine ⟨findings, mapError_eq_ok.mp hevaluated, fun finding hfinding => ?_⟩
  obtain ⟨made, hmade, hassigned⟩ := exists_of_mem_right (mapM_eq_ok.mp h) hfinding
  obtain ⟨historical, -, hassigned⟩ := bind_eq_ok.mp hassigned
  refine ⟨made, hmade, ?_⟩
  rw [← Except.ok.inj hassigned, findingId_assignFirstSeen]

theorem get?_of_saveScan {scan : Scan py} {findings : List Finding} {before after : FindingStore}
    {id : String} (hid : ∀ finding ∈ findings, isIdentifier finding.findingId = true)
    (hother : ∀ finding ∈ findings, finding.findingId ≠ id)
    (h : saveScan rt py pyStr writer scan findings before = .ok after) :
    after.findings.get? id = before.findings.get? id := by
  rw [saveScan] at h
  split at h
  · cases h
    rfl
  split at h
  next count store hrun =>
    cases h
    rw [saveFindings, Method.bind_eq_ok] at hrun
    obtain ⟨scanId, s₁, hscan, hrun⟩ := hrun
    obtain ⟨endpointId, s₂, hendpoint, hrun⟩ := Method.bind_eq_ok.mp hrun
    rw [Method.run_ofExcept, Prod.mk.injEq] at hscan hendpoint
    obtain ⟨-, rfl⟩ := hscan
    obtain ⟨-, rfl⟩ := hendpoint
    obtain ⟨rows, hrows, heq⟩ := bind_eq_ok.mp (Method.atomically_eq_ok.mp hrun)
    cases heq
    have hall := List.forall₂_map_left_iff.mp (mapM_eq_ok.mp hrows)
    refine get?_foldl_set_of_ne fun row hrow => ?_
    obtain ⟨finding, hfinding, hmade⟩ := exists_of_mem_right hall hrow
    rw [key_findingRow (hid finding hfinding) hmade]
    exact hother finding hfinding
  next => cases h

/-- A scan leaves the row of a finding that it does not make, also one that fails. -/
theorem get?_step {history : FindingHistory} {scan : Scan py} {id : String}
    (hother : ∀ findings, scan.Makes rt findings → ∀ finding ∈ findings, finding.findingId ≠ id) :
    (history.step rt py pyStr writer scan).store.findings.get? id =
      history.store.findings.get? id := by
  rw [FindingHistory.step]
  split
  next findings store hstored =>
    obtain ⟨analyzed, hanalyze, hstored⟩ := bind_eq_ok.mp hstored
    obtain ⟨saved, hsave, heq⟩ := bind_eq_ok.mp hstored
    cases heq
    obtain ⟨made, hmakes, hids⟩ := findingIds_of_analyze hanalyze
    refine get?_of_saveScan (fun finding hfinding => ?_) (fun finding hfinding => ?_) hsave
    · obtain ⟨original, hmem, hid⟩ := hids finding hfinding
      rw [hid]
      exact isIdentifier_of_makes hmakes hmem
    · obtain ⟨original, hmem, hid⟩ := hids finding hfinding
      rw [hid]
      exact hother made hmakes original hmem
  next => rfl

/-! ### Distinct findings -/

/--
Where `uuid5` tells the names of the findings of two scans apart, two of their findings that are about
different things have different identifiers exactly when they are not regrouped, and a scan leaves
what the table says of the findings that it does not make.
-/
theorem finding_ids_distinct_iff {scan other : Scan py} {findings others : List Finding}
    (hfindings : scan.Makes rt findings) (hothers : other.Makes rt others)
    (hinjective : Set.InjOn py.uuid5 (scan.names findings ∪ other.names others)) :
    (∀ finding ∈ findings, ∀ found ∈ others,
      (scan.identity finding ≠ other.identity found → finding.findingId ≠ found.findingId) ↔
        ¬ (scan.identity finding).Regrouped (other.identity found)) ∧
    ∀ history : FindingHistory, ∀ finding ∈ findings,
      (∀ found ∈ others, scan.identity finding ≠ other.identity found ∧
        ¬ (scan.identity finding).Regrouped (other.identity found)) →
      (history.step rt py pyStr writer other).store.findings.get? finding.findingId =
        history.store.findings.get? finding.findingId := by
  have hids : ∀ finding ∈ findings, ∀ found ∈ others, finding.findingId = found.findingId ↔
      (scan.identity finding).name = (other.identity found).name := by
    intro finding hfinding found hfound
    rw [findingId_of_makes hfindings hfinding, findingId_of_makes hothers hfound]
    constructor
    · intro h
      have huuid : py.uuid5 (scan.identity finding).name = py.uuid5 (other.identity found).name :=
        String.append_right_inj _ |>.mp h
      exact hinjective (Or.inl ⟨finding, hfinding, rfl⟩) (Or.inr ⟨found, hfound, rfl⟩) huuid
    · intro h
      rw [h]
  have hdistinct : ∀ finding ∈ findings, ∀ found ∈ others,
      (scan.identity finding ≠ other.identity found → finding.findingId ≠ found.findingId) ↔
        ¬ (scan.identity finding).Regrouped (other.identity found) := by
    intro finding hfinding found hfound
    by_cases hsame : scan.identity finding = other.identity found
    · rw [hsame]
      exact iff_of_true (fun h => absurd rfl h) (Identity.not_regrouped_self _)
    · rw [Identity.regrouped_iff hsame, ← hids finding hfinding found hfound]
      exact ⟨fun h => h hsame, fun h _ => h⟩
  refine ⟨hdistinct, fun history finding hfinding hapart => get?_step ?_⟩
  intro made hmakes found hfound
  cases hothers.symm.trans hmakes
  obtain ⟨hne, hregrouped⟩ := hapart found hfound
  exact fun h => (hdistinct finding hfinding found hfound).mpr hregrouped hne h.symm

end

/-! ## Two policies -/

/-- `uuid5` on the names below. -/
def sampleUuid (name : String) : String :=
  if name = "endpoint-1:eu:west:OS-001" then "15fc8883-10b6-59c7-9a6c-932ede8f8307"
  else if name = "endpoint-1:eu:OS-001" then "de458d6b-ed95-5bfb-b1e3-cb843c85cf19"
  else "6fcc1176-3d29-5e7f-8a1a-6cefd1982b9d"

theorem sampleUuid_identifier (name : String) :
    isIdentifier ("finding-" ++ sampleUuid name) = true := by
  rw [sampleUuid]
  split
  · decide +kernel
  split
  · decide +kernel
  · decide +kernel

def namedPython : Python :=
  { samplePython with uuid5 := sampleUuid, uuid5_identifier := sampleUuid_identifier }

theorem familyIsLinux_valid : familyIsLinux.valid = true := by decide +kernel

def linuxRule (ruleId : String) (h : isIdentifier ruleId = true) : PolicyRule namedPython.toLibrary :=
  let rule := sampleRule familyIsLinux [] familyIsLinux_valid noFields_valid
  { rule with
    ruleId := ruleId
    accepted := { rule.accepted with ruleId := h } }

/-- The scan of a Linux system under a policy with one rule. -/
def policyScan (policyId ruleId : String)
    (hnames : isIdentifier policyId = true ∧ isIdentifier ruleId = true) (t : Timestamp) :
    Scan namedPython where
  bundle :=
    { sampleBundle (sampleRule familyIsLinux [] familyIsLinux_valid noFields_valid) with
      policyId := policyId
      rules := [linuxRule ruleId hnames.2]
      policyId_identifier := hnames.1
      size := ⟨le_refl 1, Nat.one_le_ofNat⟩
      unique := List.nodup_singleton _ }
  data := .obj [("os", .obj [("family", .str "LINUX")])]
  context := { sampleContext with detectedAt := t }
  late _ := false
  maxOperations := 1000000
  savedAt := Endpoint.utcText t

theorem makes_one {scan : Scan namedPython} {ruleId : String}
    (h : (evaluate Runtime.sample namedPython scan.bundle scan.data scan.context scan.late
      scan.maxOperations).toOption.map (List.map Finding.ruleId) = some [ruleId]) :
    ∃ finding, scan.Makes Runtime.sample [finding] ∧ finding.ruleId = ruleId := by
  cases hrun : evaluate Runtime.sample namedPython scan.bundle scan.data scan.context scan.late
      scan.maxOperations with
  | error failure =>
    rw [hrun] at h
    cases h
  | ok findings =>
    rw [hrun] at h
    obtain ⟨finding, rfl, hrule⟩ := List.map_eq_singleton_iff.mp (Option.some.inj h)
    exact ⟨finding, hrun, hrule⟩

theorem names_one (scan : Scan namedPython) (finding : Finding) :
    scan.names [finding] = {(scan.identity finding).name} := by
  ext name
  constructor
  · rintro ⟨found, hfound, rfl⟩
    rw [List.mem_singleton.mp hfound]
    rfl
  · intro h
    exact ⟨finding, List.mem_singleton_self _, h⟩

theorem sample_identifiers :
    ∀ text ∈ ["eu", "us", "eu:west", "OS-001", "west:OS-001"], isIdentifier text = true := by
  decide +kernel

theorem eu_valid : isIdentifier "eu" = true ∧ isIdentifier "OS-001" = true :=
  ⟨sample_identifiers _ (by simp), sample_identifiers _ (by simp)⟩

theorem us_valid : isIdentifier "us" = true ∧ isIdentifier "OS-001" = true :=
  ⟨sample_identifiers _ (by simp), sample_identifiers _ (by simp)⟩

theorem euWest_valid : isIdentifier "eu:west" = true ∧ isIdentifier "OS-001" = true :=
  ⟨sample_identifiers _ (by simp), sample_identifiers _ (by simp)⟩

theorem westRule_valid : isIdentifier "eu" = true ∧ isIdentifier "west:OS-001" = true :=
  ⟨sample_identifiers _ (by simp), sample_identifiers _ (by simp)⟩

/-- One rule under two policies. -/
theorem finding_ids_distinct_iff_eu_us : ∃ finding found,
    (policyScan "eu" "OS-001" eu_valid 0).Makes Runtime.sample [finding] ∧
      (policyScan "us" "OS-001" us_valid 0).Makes Runtime.sample [found] ∧
      finding.findingId ≠ found.findingId := by
  obtain ⟨finding, hfinding, hrule⟩ := @makes_one (policyScan "eu" "OS-001" eu_valid 0) "OS-001"
    (by decide +kernel)
  obtain ⟨found, hfound, hrule'⟩ := @makes_one (policyScan "us" "OS-001" us_valid 0) "OS-001"
    (by decide +kernel)
  have heu : (policyScan "eu" "OS-001" eu_valid 0).identity finding =
      ⟨"endpoint-1", "eu", "OS-001"⟩ := by
    rw [Scan.identity, hrule]
    rfl
  have hus : (policyScan "us" "OS-001" us_valid 0).identity found =
      ⟨"endpoint-1", "us", "OS-001"⟩ := by
    rw [Scan.identity, hrule']
    rfl
  have hinjective : Set.InjOn namedPython.uuid5
      ((policyScan "eu" "OS-001" eu_valid 0).names [finding] ∪
        (policyScan "us" "OS-001" us_valid 0).names [found]) := by
    rw [names_one, names_one, heu, hus, Set.union_singleton, Set.injOn_pair]
    exact fun h => absurd h (by decide +kernel)
  have hdistinct := (@finding_ids_distinct_iff Runtime.sample namedPython (fun _ => "") plainWriter
    _ _ _ _ hfinding hfound hinjective).1 finding (List.mem_singleton_self _) found
    (List.mem_singleton_self _)
  rw [heu, hus] at hdistinct
  exact ⟨finding, found, hfinding, hfound, hdistinct.mpr (by decide +kernel) (by decide +kernel)⟩

/--
Two rules of two policies, and one identifier: the second scan overwrites the finding of the first, and
says of its own that it was first seen in the first.
-/
theorem finding_ids_collide :
    (∃ finding found,
      (policyScan "eu:west" "OS-001" euWest_valid 0).Makes Runtime.sample [finding] ∧
      (policyScan "eu" "west:OS-001" westRule_valid 0).Makes Runtime.sample [found] ∧
      Set.InjOn namedPython.uuid5
        ((policyScan "eu:west" "OS-001" euWest_valid 0).names [finding] ∪
          (policyScan "eu" "west:OS-001" westRule_valid 0).names [found]) ∧
      (policyScan "eu:west" "OS-001" euWest_valid 0).identity finding ≠
        (policyScan "eu" "west:OS-001" westRule_valid 0).identity found ∧
      finding.findingId = found.findingId) ∧
    (runFrom (FindingHistory.step Runtime.sample namedPython (fun _ => "") plainWriter) .empty
      [policyScan "eu:west" "OS-001" euWest_valid (seconds 1700000000),
        policyScan "eu" "west:OS-001" westRule_valid (seconds 1700003600)]).store.findings.entries.map
          (fun e => (e.2.ruleId, e.2.firstSeen)) =
      [("west:OS-001", some (Endpoint.utcText (seconds 1700000000)))] := by
  constructor
  · obtain ⟨finding, hfinding, hrule⟩ :=
      @makes_one (policyScan "eu:west" "OS-001" euWest_valid 0) "OS-001" (by decide +kernel)
    obtain ⟨found, hfound, hrule'⟩ :=
      @makes_one (policyScan "eu" "west:OS-001" westRule_valid 0) "west:OS-001" (by decide +kernel)
    have hwest : (policyScan "eu:west" "OS-001" euWest_valid 0).identity finding =
        ⟨"endpoint-1", "eu:west", "OS-001"⟩ := by
      rw [Scan.identity, hrule]
      rfl
    have heu : (policyScan "eu" "west:OS-001" westRule_valid 0).identity found =
        ⟨"endpoint-1", "eu", "west:OS-001"⟩ := by
      rw [Scan.identity, hrule']
      rfl
    have hname : Identity.name ⟨"endpoint-1", "eu:west", "OS-001"⟩ =
        Identity.name ⟨"endpoint-1", "eu", "west:OS-001"⟩ := by decide +kernel
    refine ⟨finding, found, hfinding, hfound, ?_, ?_, ?_⟩
    · rw [names_one, names_one, hwest, heu, hname, Set.union_self]
      exact Set.injOn_singleton _ _
    · rw [hwest, heu]
      decide +kernel
    · rw [findingId_of_makes hfinding (List.mem_singleton_self _),
        findingId_of_makes hfound (List.mem_singleton_self _), hwest, heu, hname]
  · decide +kernel

end OsScanner.Policies

import Mathlib
import OsScanner.Endpoint.Executability
import OsScanner.Lib.Run
import OsScanner.Policies.Telemetry
import OsScanner.Storage.Findings

/-!
# When a finding was first seen

`_analyze` of `app/orchestrator/scanner.py` looks up when a finding was first seen, and the scan is
stored with that time unless it lies after the current detection. The time in the table is never
later than any detection of the finding that has been stored, whatever the clock said at each scan.
-/

namespace OsScanner.Policies

open Lib Lib.Check Cloud Storage

/-! ## Storing a scan -/

/-- How pydantic writes a time and a score, and the order in which it writes a set. -/
structure FindingWriter where
  timeText : Timestamp → String
  scoreJson : ℚ → Json
  tagOrder : Finset String → List String

/-- A score that may be absent -/
def optionalScore (writer : FindingWriter) (score : Option ℚ) : Json :=
  (score.map writer.scoreJson).getD .null

/-- The fields of a finding. -/
def Finding.fields (writer : FindingWriter) (finding : Finding) : JsonObject :=
  [("schema_version", .str finding.schemaVersion),
    ("scanner_version", .str finding.scannerVersion),
    ("finding_id", .str finding.findingId),
    ("scan_id", .str finding.scanId),
    ("rule_id", .str finding.ruleId),
    ("title", .str finding.title),
    ("severity", .str finding.severity.text),
    ("category", .str finding.category),
    ("description", .str finding.description),
    ("endpoint_id", Json.ofOption finding.endpointId),
    ("asset", Json.ofOption finding.asset),
    ("evidence", .obj finding.evidence),
    ("remediation", .str finding.remediation),
    ("references", .arr (finding.references.map .str)),
    ("detected_at", .str (writer.timeText finding.detectedAt)),
    ("first_seen_at", .str (writer.timeText finding.firstSeenAt)),
    ("status", .str "OPEN"),
    ("exploitability", optionalScore writer finding.exploitability),
    ("exposure", optionalScore writer finding.exposure),
    ("compliance_impact", optionalScore writer finding.complianceImpact),
    ("tags", .arr ((writer.tagOrder finding.tags).map .str))]

/-- `finding.model_dump(mode="json", exclude_none=True)` -/
def Finding.dump (writer : FindingWriter) (finding : Finding) : JsonObject :=
  (finding.fields writer).filter fun e => decide (e.2 ≠ .null)

/-- The finding with the time at which it was first seen, given what the table says. -/
def assignFirstSeen (rt : Runtime) (historical : Option String) (finding : Finding) : Finding :=
  match historical with
  | none => finding
  | some text =>
    match timestamp rt (.str text) with
    | some parsed => if parsed ≤ finding.detectedAt then { finding with firstSeenAt := parsed } else finding
    | none => finding

/-- A scan: what its findings are evaluated from, and the clock when they are saved. -/
structure Scan (py : Python) where
  bundle : PolicyBundle py.toLibrary
  data : Value
  context : EvaluationContext
  late : Nat → Bool
  maxOperations : Int
  savedAt : String

/-- What ends a scan. -/
inductive ScanFailure where
  | evaluation (failure : Failure)
  | storage (error : StorageError)

section

variable (rt : Runtime) (py : Python) (pyStr : Json → String) (writer : FindingWriter)

/-- The findings of the scan, with the times at which they were first seen. -/
def analyze (scan : Scan py) (store : FindingStore) : Except ScanFailure (List Finding) := do
  let evaluated ← (evaluate rt py scan.bundle scan.data scan.context scan.late
    scan.maxOperations).mapError .evaluation
  evaluated.mapM fun finding => do
    let historical ← (getFindingFirstSeen finding.findingId store).mapError .storage
    .ok (assignFirstSeen rt historical finding)

/-- `save_scan_result` saves findings only where there are any. -/
def saveScan (scan : Scan py) (findings : List Finding) (store : FindingStore) :
    Except ScanFailure FindingStore :=
  if findings = [] then .ok store
  else
    match (saveFindings rt pyStr scan.savedAt scan.context.scanId scan.context.endpointId
        (findings.map fun finding => finding.dump writer)).run store with
    | (.ok _, store) => .ok store
    | (.error e, _) => .error (.storage e)

/-- A detection of a finding in a scan that was stored. -/
structure Detection where
  findingId : String
  detectedAt : Timestamp
  firstSeenAt : Timestamp

/-- The table, and the detections that have been stored so far. -/
structure FindingHistory where
  store : FindingStore
  detections : List Detection

/-- A scan is analyzed and stored. One that fails leaves nothing behind. -/
def FindingHistory.step (history : FindingHistory) (scan : Scan py) : FindingHistory :=
  match (do
    let findings ← analyze rt py scan history.store
    let store ← saveScan rt py pyStr writer scan findings history.store
    .ok (findings, store)) with
  | .ok (findings, store) =>
    ⟨store, history.detections ++ findings.map fun finding =>
      ⟨finding.findingId, finding.detectedAt, finding.firstSeenAt⟩⟩
  | .error _ => history

def FindingHistory.empty : FindingHistory := ⟨⟨∅, ∅⟩, []⟩

end

/-! ## The findings of an evaluation -/

section

variable {rt : Runtime} {py : Python} {pyStr : Json → String} {writer : FindingWriter}

/-- What a new finding says of its times and its name. -/
structure IsNew (t : Timestamp) (finding : Finding) : Prop where
  detectedAt : finding.detectedAt = t
  firstSeenAt : finding.firstSeenAt = t
  findingId : isIdentifier finding.findingId = true

theorem isNew_of_construct {draft : FindingDraft py} {finding : Finding}
    (h : draft.construct rt py = .ok finding) : IsNew draft.context.detectedAt finding := by
  simp only [FindingDraft.construct, bind_eq_ok, Check.raiseIf_eq_ok, exists_const,
    Except.ok.injEq, Bool.not_eq_false] at h
  obtain ⟨hid, -, -, -, -, -, -, -, -, -, evidence, -, -, -, references, -, -, -, -, -, -, rfl⟩ := h
  exact ⟨rfl, rfl, hid⟩

/-- A finding is made for a rule, with some evidence. -/
def Drafted (rt : Runtime) (bundle : PolicyBundle py.toLibrary) (context : EvaluationContext)
    (rules : List (PolicyRule py.toLibrary)) (finding : Finding) : Prop :=
  ∃ rule ∈ rules, ∃ evidence, FindingDraft.construct rt py ⟨bundle, rule, context, evidence⟩ =
    .ok finding

theorem eq_ok_of_mem {ε α : Type} {x : Except ε α} {a : α} (h : a ∈ x.toOption.toList) : x = .ok a := by
  cases x with
  | error e => cases h
  | ok b => exact congrArg Except.ok (List.mem_singleton.mp h).symm

theorem drafted_of_makeFinding {bundle : PolicyBundle py.toLibrary} {rule : PolicyRule py.toLibrary}
    {data : Value} {context : EvaluationContext} {finding : Finding}
    (h : finding ∈ (makeFinding rt py bundle rule data context).value) :
    ∃ evidence, FindingDraft.construct rt py ⟨bundle, rule, context, evidence⟩ = .ok finding := by
  rw [makeFinding, Traced.value_bind, value_construct] at h
  exact ⟨_, eq_ok_of_mem h⟩

theorem drafted_of_mem_evaluateRules {bundle : PolicyBundle py.toLibrary} {data : Value}
    {context : EvaluationContext} {rules : List (PolicyRule py.toLibrary)} {finding : Finding}
    (h : finding ∈ (evaluateRules rt py bundle data context rules).value) :
    Drafted rt bundle context rules finding := by
  induction rules with
  | nil => cases h
  | cons rule rules ih =>
    simp only [evaluateRules, Traced.value_bind, Traced.value_pure, List.mem_append] at h
    rcases h with h | h
    · rw [findingsOf] at h
      split at h
      · obtain ⟨evidence, hmade⟩ := drafted_of_makeFinding h
        exact ⟨rule, List.mem_cons_self, evidence, hmade⟩
      · cases h
    · obtain ⟨later, hlater, hmade⟩ := ih h
      exact ⟨later, List.mem_cons_of_mem _ hlater, hmade⟩

theorem drafted_of_evaluate {bundle : PolicyBundle py.toLibrary} {data : Value}
    {context : EvaluationContext} {late : Nat → Bool} {maxOperations : Int} {findings : List Finding}
    (h : evaluate rt py bundle data context late maxOperations = .ok findings) {finding : Finding}
    (hfinding : finding ∈ findings) : Drafted rt bundle context bundle.rules finding := by
  rw [evaluate] at h
  split at h
  · obtain ⟨-, rfl⟩ := Traced.run_eq_ok.mp h
    exact drafted_of_mem_evaluateRules hfinding
  · cases h

theorem isNew_of_evaluate {bundle : PolicyBundle py.toLibrary} {data : Value}
    {context : EvaluationContext} {late : Nat → Bool} {maxOperations : Int} {findings : List Finding}
    (h : evaluate rt py bundle data context late maxOperations = .ok findings) {finding : Finding}
    (hfinding : finding ∈ findings) : IsNew context.detectedAt finding := by
  obtain ⟨rule, -, evidence, hmade⟩ := drafted_of_evaluate h hfinding
  exact isNew_of_construct hmade

/-! ## Documents of findings -/

theorem lookup_present {name : String} {value : Json} {fields : JsonObject}
    (h : Assoc.lookup name fields = some value) (hvalue : value ≠ .null) :
    Assoc.lookup name (fields.filter fun e => decide (e.2 ≠ .null)) = some value := by
  induction fields with
  | nil => cases h
  | cons e fields ih =>
    rw [Assoc.lookup] at h
    split at h
    · next heq =>
      rw [List.filter_cons_of_pos (by rw [Option.some.inj h]; simpa using hvalue), Assoc.lookup,
        if_pos heq]
      exact h
    · next hne =>
      rw [List.filter_cons]
      split
      · rw [Assoc.lookup, if_neg hne]
        exact ih h
      · exact ih h

theorem get_dump {name text : String} {finding : Finding}
    (h : Assoc.lookup name (finding.fields writer) = some (.str text)) :
    (finding.dump writer).get name = .str text := by
  rw [JsonObject.get, Finding.dump, lookup_present h (by simp)]
  rfl

/-- The text of the instant is read back as this instant. -/
def ReadsBack (rt : Runtime) (writer : FindingWriter) (t : Timestamp) : Prop :=
  writer.timeText t ≠ "" ∧ timestamp rt (.str (writer.timeText t)) = some t

/-- The row of a finding is found under its name. -/
theorem key_findingRow {now scanId : String} {endpointId : Option String} {finding : Finding}
    {id : String} {row : FindingRow} (hid : isIdentifier finding.findingId = true)
    (h : findingRow rt pyStr now scanId endpointId (finding.dump writer) = .ok (id, row)) :
    id = finding.findingId := by
  have hname : (finding.dump writer).get "finding_id" = .str finding.findingId := by
    refine get_dump ?_
    simp [Finding.fields, Assoc.lookup]
  rw [findingRow, bind_eq_ok] at h
  obtain ⟨name, hclean, h⟩ := h
  simp only [bind_eq_ok, Check.raiseIf_eq_ok, exists_const, Except.ok.injEq, Prod.mk.injEq] at h
  obtain ⟨ruleId, -, severity, -, -, status, -, rfl, -⟩ := h
  rw [hname, cleanIdentifier_eq_ok] at hclean
  obtain ⟨text, htext, rfl, -⟩ := hclean
  cases htext
  exact (Normalization.strip_of_isIdentifier hid).1

/-- It says when the finding was first seen. -/
theorem firstSeen_findingRow {now scanId : String} {endpointId : Option String} {finding : Finding}
    {id : String} {row : FindingRow} (hid : isIdentifier finding.findingId = true)
    (htext : writer.timeText finding.firstSeenAt ≠ "")
    (h : findingRow rt pyStr now scanId endpointId (finding.dump writer) = .ok (id, row)) :
    id = finding.findingId ∧ row.firstSeen = some (writer.timeText finding.firstSeenAt) := by
  refine ⟨key_findingRow hid h, ?_⟩
  have hseen : Assoc.lookup "first_seen_at" (finding.dump writer) =
      some (.str (writer.timeText finding.firstSeenAt)) := by
    refine lookup_present ?_ (by simp)
    simp [Finding.fields, Assoc.lookup]
  simp only [findingRow, bind_eq_ok, Check.raiseIf_eq_ok, exists_const, Except.ok.injEq,
    Prod.mk.injEq] at h
  obtain ⟨name, -, ruleId, -, severity, -, -, status, -, -, rfl⟩ := h
  have hpayload : JsonObject.get ((Json.sortFields (finding.dump writer)).insertionSort Json.keyLe)
      "first_seen_at" = .str (writer.timeText finding.firstSeenAt) := by
    rw [JsonObject.get, Json.lookup_sortedFields, hseen]
    rfl
  rw [FindingRow.firstSeen]
  simp only [Json.sortKeys, hpayload, truthy, htext, decide_true, ne_eq, not_false_eq_true, if_true,
    if_false]

/-! ## The history -/

/-- What the table says about a finding is no later than any detection of it. -/
structure FindingHistory.Sound (rt : Runtime) (writer : FindingWriter) (history : FindingHistory) :
    Prop where
  row : ∀ {id row}, history.store.findings.get? id = some row → ∃ m, ReadsBack rt writer m ∧
    row.firstSeen = some (writer.timeText m) ∧
      ∀ d ∈ history.detections, d.findingId = id → m ≤ d.detectedAt
  known : ∀ d ∈ history.detections, (history.store.findings.get? d.findingId).isSome = true
  seen : ∀ d ∈ history.detections, d.firstSeenAt ≤ d.detectedAt
  earliest : history.detections.Pairwise fun d later =>
    d.findingId = later.findingId → later.firstSeenAt ≤ d.detectedAt

/-- A finding of the scan, with the time that the table gives it. -/
structure IsSeen (history : FindingHistory) (rt : Runtime) (writer : FindingWriter) (t : Timestamp)
    (finding : Finding) : Prop where
  detectedAt : finding.detectedAt = t
  findingId : isIdentifier finding.findingId = true
  firstSeenAt : finding.firstSeenAt ≤ t
  readsBack : ReadsBack rt writer finding.firstSeenAt
  earliest : ∀ d ∈ history.detections, d.findingId = finding.findingId →
    finding.firstSeenAt ≤ d.detectedAt

theorem isSeen_assignFirstSeen {history : FindingHistory} (hsound : history.Sound rt writer)
    {t : Timestamp} (ht : ReadsBack rt writer t) {finding : Finding} (hnew : IsNew t finding)
    {historical : Option String}
    (h : getFindingFirstSeen finding.findingId history.store = .ok historical) :
    IsSeen history rt writer t (assignFirstSeen rt historical finding) := by
  rw [getFindingFirstSeen, bind_eq_ok] at h
  obtain ⟨name, hclean, h⟩ := h
  obtain ⟨text, htext, rfl, -⟩ := cleanIdentifier_eq_ok.mp hclean
  cases htext
  rw [(Normalization.strip_of_isIdentifier hnew.findingId).1] at h
  cases hrow : history.store.findings.get? finding.findingId with
  | none =>
    -- no detection of the finding has been stored
    rw [hrow] at h
    cases h
    have hnone : ∀ d ∈ history.detections, d.findingId ≠ finding.findingId := by
      intro d hd heq
      have hknown := hsound.known d hd
      rw [heq, hrow] at hknown
      cases hknown
    refine ⟨hnew.detectedAt, hnew.findingId, hnew.firstSeenAt.le, ?_,
      fun d hd heq => absurd heq (hnone d hd)⟩
    show ReadsBack rt writer finding.firstSeenAt
    rw [hnew.firstSeenAt]
    exact ht
  | some row =>
    obtain ⟨m, hm, hfirst, hle⟩ := hsound.row hrow
    rw [hrow] at h
    have hhistorical : historical = some (writer.timeText m) := by
      rw [← Except.ok.inj h, ← hfirst]
      rfl
    rw [hhistorical, assignFirstSeen, hm.2]
    by_cases hmt : m ≤ finding.detectedAt
    · simp only [if_pos hmt]
      exact ⟨hnew.detectedAt, hnew.findingId, hnew.detectedAt ▸ hmt, hm, hle⟩
    · simp only [if_neg hmt]
      rw [hnew.detectedAt] at hmt
      refine ⟨hnew.detectedAt, hnew.findingId, hnew.firstSeenAt.le, ?_, ?_⟩
      · rw [hnew.firstSeenAt]
        exact ht
      intro d hd heq
      rw [hnew.firstSeenAt]
      exact (le_of_lt (not_le.mp hmt)).trans (hle d hd heq)

/-- The findings of a scan are seen no later than any stored detection of them. -/
theorem isSeen_of_analyze {history : FindingHistory} (hsound : history.Sound rt writer)
    {scan : Scan py} (ht : ReadsBack rt writer scan.context.detectedAt) {findings : List Finding}
    (h : analyze rt py scan history.store = .ok findings) {finding : Finding}
    (hfinding : finding ∈ findings) :
    IsSeen history rt writer scan.context.detectedAt finding := by
  rw [analyze, bind_eq_ok] at h
  obtain ⟨evaluated, hevaluated, h⟩ := h
  obtain ⟨before, hbefore, h⟩ := exists_of_mem_right (mapM_eq_ok.mp h) hfinding
  obtain ⟨historical, hhistorical, h⟩ := bind_eq_ok.mp h
  have hpure : evaluate rt py scan.bundle scan.data scan.context scan.late scan.maxOperations =
      .ok evaluated := mapError_eq_ok.mp hevaluated
  have hnew : IsNew scan.context.detectedAt before := isNew_of_evaluate hpure hbefore
  rw [← Except.ok.inj h]
  exact isSeen_assignFirstSeen hsound ht hnew (mapError_eq_ok.mp hhistorical)

/-- What storing a scan does to the table: the rows of its findings are written, no other. -/
structure IsSaved (writer : FindingWriter) (findings : List Finding) (before after : FindingStore) :
    Prop where
  row : ∀ {id row}, after.findings.get? id = some row →
    (∃ finding ∈ findings, finding.findingId = id ∧
      row.firstSeen = some (writer.timeText finding.firstSeenAt)) ∨
    (∀ finding ∈ findings, finding.findingId ≠ id) ∧ before.findings.get? id = some row
  known : ∀ {id}, (∃ finding ∈ findings, finding.findingId = id) ∨
    (before.findings.get? id).isSome = true → (after.findings.get? id).isSome = true

theorem isSaved_of_saveScan {scan : Scan py} {findings : List Finding} {before after : FindingStore}
    (hid : ∀ finding ∈ findings, isIdentifier finding.findingId = true)
    (htext : ∀ finding ∈ findings, writer.timeText finding.firstSeenAt ≠ "")
    (h : saveScan rt py pyStr writer scan findings before = .ok after) :
    IsSaved writer findings before after := by
  rw [saveScan] at h
  split at h
  · next hnil =>
    cases h
    subst hnil
    refine ⟨fun hrow => Or.inr ⟨by simp, hrow⟩, ?_⟩
    rintro id (⟨finding, hmem, -⟩ | hsome)
    · cases hmem
    · exact hsome
  split at h
  · next count store hrun =>
    cases h
    rw [saveFindings, Method.bind_eq_ok] at hrun
    obtain ⟨scanId, s₁, hscan, hrun⟩ := hrun
    obtain ⟨endpointId, s₂, hendpoint, hrun⟩ := Method.bind_eq_ok.mp hrun
    rw [Method.run_ofExcept, Prod.mk.injEq] at hscan hendpoint
    obtain ⟨-, rfl⟩ := hscan
    obtain ⟨-, rfl⟩ := hendpoint
    obtain ⟨rows, hrows, heq⟩ := bind_eq_ok.mp (Method.atomically_eq_ok.mp hrun)
    cases heq
    have hall := List.forall₂_map_left_iff.mp (mapM_eq_ok.mp hrows)
    have hrow : ∀ {finding id row}, finding ∈ findings →
        findingRow rt pyStr scan.savedAt scanId endpointId (finding.dump writer) = .ok (id, row) →
        id = finding.findingId ∧ row.firstSeen = some (writer.timeText finding.firstSeenAt) := by
      intro finding id row hmem hfinding
      exact firstSeen_findingRow (hid finding hmem) (htext finding hmem) hfinding
    constructor
    · intro id row hget
      rcases get?_foldl_set hget with hmem | ⟨hother, hget⟩
      · obtain ⟨finding, hfinding, hmade⟩ := exists_of_mem_right hall hmem
        obtain ⟨rfl, hseen⟩ := hrow hfinding hmade
        exact Or.inl ⟨finding, hfinding, rfl, hseen⟩
      · refine Or.inr ⟨?_, hget⟩
        intro finding hfinding
        obtain ⟨e, he, hmade⟩ := exists_of_mem_left hall hfinding
        rw [← (hrow hfinding hmade).1]
        exact hother e he
    · intro id hknown
      refine isSome_foldl_set (hknown.imp_left ?_)
      rintro ⟨finding, hfinding, rfl⟩
      obtain ⟨e, he, hmade⟩ := exists_of_mem_left hall hfinding
      exact ⟨e, he, (hrow hfinding hmade).1⟩
  · cases h

/-- A scan keeps the history sound. -/
theorem FindingHistory.Sound.step {history : FindingHistory} (hsound : history.Sound rt writer)
    {scan : Scan py} (ht : ReadsBack rt writer scan.context.detectedAt) :
    (history.step rt py pyStr writer scan).Sound rt writer := by
  rw [FindingHistory.step]
  split
  · next findings store hstored =>
    obtain ⟨analyzed, hanalyze, hstored⟩ := bind_eq_ok.mp hstored
    obtain ⟨saved, hsave, heq⟩ := bind_eq_ok.mp hstored
    cases heq
    have hseen : ∀ finding ∈ findings, IsSeen history rt writer scan.context.detectedAt finding :=
      fun finding hfinding => isSeen_of_analyze hsound ht hanalyze hfinding
    have hsaved : IsSaved writer findings history.store store :=
      isSaved_of_saveScan (fun finding hfinding => (hseen finding hfinding).findingId)
        (fun finding hfinding => (hseen finding hfinding).readsBack.1) hsave
    constructor
    · -- what the table says of a finding: the last scan said so, or it did not make the finding
      intro id row hrow
      rcases hsaved.row hrow with ⟨finding, hfinding, rfl, hfirst⟩ | ⟨hother, hrow⟩
      · refine ⟨finding.firstSeenAt, (hseen finding hfinding).readsBack, hfirst, ?_⟩
        intro d hd hname
        rcases List.mem_append.mp hd with hd | hd
        · exact (hseen finding hfinding).earliest d hd hname
        · obtain ⟨other, hother, rfl⟩ := List.mem_map.mp hd
          show finding.firstSeenAt ≤ other.detectedAt
          rw [(hseen other hother).detectedAt]
          exact (hseen finding hfinding).firstSeenAt
      · obtain ⟨m, hm, hfirst, hle⟩ := hsound.row hrow
        refine ⟨m, hm, hfirst, ?_⟩
        intro d hd hname
        rcases List.mem_append.mp hd with hd | hd
        · exact hle d hd hname
        · obtain ⟨other, hmem, rfl⟩ := List.mem_map.mp hd
          exact absurd hname (hother other hmem)
    · intro d hd
      refine hsaved.known ?_
      rcases List.mem_append.mp hd with hd | hd
      · exact Or.inr (hsound.known d hd)
      · obtain ⟨finding, hfinding, rfl⟩ := List.mem_map.mp hd
        exact Or.inl ⟨finding, hfinding, rfl⟩
    · intro d hd
      rcases List.mem_append.mp hd with hd | hd
      · exact hsound.seen d hd
      · obtain ⟨finding, hfinding, rfl⟩ := List.mem_map.mp hd
        show finding.firstSeenAt ≤ finding.detectedAt
        rw [(hseen finding hfinding).detectedAt]
        exact (hseen finding hfinding).firstSeenAt
    · refine List.pairwise_append.mpr ⟨hsound.earliest, ?_, ?_⟩
      · -- two findings of one scan are detected at the same time
        rw [List.pairwise_map]
        refine List.pairwise_of_forall_mem_list ?_
        intro finding hfinding other hother _
        show other.firstSeenAt ≤ finding.detectedAt
        rw [(hseen finding hfinding).detectedAt]
        exact (hseen other hother).firstSeenAt
      · intro d hd later hlater hname
        obtain ⟨finding, hfinding, rfl⟩ := List.mem_map.mp hlater
        exact (hseen finding hfinding).earliest d hd hname
  · exact hsound

theorem FindingHistory.Sound.run {scans : List (Scan py)} {history : FindingHistory}
    (hsound : history.Sound rt writer)
    (hscans : ∀ scan ∈ scans, ReadsBack rt writer scan.context.detectedAt) :
    (runFrom (FindingHistory.step rt py pyStr writer) history scans).Sound rt writer := by
  induction scans generalizing history with
  | nil => exact hsound
  | cons scan scans ih =>
    refine ih (hsound.step (hscans scan List.mem_cons_self)) ?_
    exact fun other hother => hscans other (List.mem_cons_of_mem _ hother)

theorem sound_empty : FindingHistory.empty.Sound rt writer := by
  constructor
  · intro id row hrow
    rw [FindingHistory.empty, Dict.get?_empty] at hrow
    cases hrow
  · intro d hd
    cases hd
  · intro d hd
    cases hd
  · exact List.Pairwise.nil

/--
A stored finding is first seen no later than it is detected, and no later than any detection of it
that was stored before, in whatever order the clocks of the scans stand.
-/
theorem first_seen_is_earliest (rt : Runtime) (py : Python) (pyStr : Json → String)
    (writer : FindingWriter) (scans : List (Scan py))
    (hscans : ∀ scan ∈ scans, ReadsBack rt writer scan.context.detectedAt) :
    let history := runFrom (FindingHistory.step rt py pyStr writer) .empty scans
    (∀ d ∈ history.detections, d.firstSeenAt ≤ d.detectedAt) ∧
      history.detections.Pairwise fun d later =>
        d.findingId = later.findingId → later.firstSeenAt ≤ d.detectedAt := by
  have hsound : (runFrom (FindingHistory.step rt py pyStr writer) .empty scans).Sound rt writer :=
    FindingHistory.Sound.run sound_empty hscans
  exact ⟨hsound.seen, hsound.earliest⟩

end

/-! ## Three scans -/

theorem noFields_valid : ([] : List String).length ≤ 128 ∧ ∀ field ∈ [], isFieldPath field = true :=
  ⟨Nat.zero_le _, List.forall_mem_nil _⟩

/-- A scan that finds a Linux system, at this time. -/
def linuxScan (t : Timestamp) : Scan samplePython where
  bundle := sampleBundle (sampleRule familyIsLinux [] (by decide +kernel) noFields_valid)
  data := .obj [("os", .obj [("family", .str "LINUX")])]
  context := { sampleContext with detectedAt := t }
  late _ := false
  maxOperations := 1000000
  savedAt := Endpoint.utcText t

/-- How the findings of these scans are written, which have neither scores nor tags. -/
def plainWriter : FindingWriter where
  timeText := Endpoint.utcText
  scoreJson _ := .null
  tagOrder _ := []

/-- The clock of the second scan stands an hour before that of the others. -/
theorem first_seen_is_earliest_linuxScan :
    let history := runFrom (FindingHistory.step Runtime.sample samplePython (fun _ => "")
      plainWriter) .empty
      [linuxScan (seconds 1700003600), linuxScan (seconds 1700000000), linuxScan (seconds 1700003600)]
    (∀ d ∈ history.detections, d.firstSeenAt ≤ d.detectedAt) ∧
      history.detections.Pairwise fun d later =>
        d.findingId = later.findingId → later.firstSeenAt ≤ d.detectedAt := by
  refine first_seen_is_earliest Runtime.sample samplePython (fun _ => "") plainWriter _ ?_
  have hinstants : ∀ t ∈ [seconds 1700003600, seconds 1700000000, seconds 1700003600],
      plainWriter.timeText t ≠ "" ∧
        timestamp Runtime.sample (.str (plainWriter.timeText t)) = some t := by decide +kernel
  intro scan hscan
  have hmem : scan ∈ [seconds 1700003600, seconds 1700000000, seconds 1700003600].map linuxScan :=
    hscan
  obtain ⟨t, ht, rfl⟩ := List.mem_map.mp hmem
  exact hinstants t ht

end OsScanner.Policies

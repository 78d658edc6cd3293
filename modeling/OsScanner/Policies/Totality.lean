import Mathlib
import OsScanner.Policies.Raising
import OsScanner.Policies.EvidenceBounds

/-!
# When an evaluation raises

An evaluation ends with findings or with an error of its budget unless it comes to an operation that
Python refuses or to a finding that its model refuses.
-/

namespace OsScanner.Policies

open Lib Lib.Check Cloud Security

variable {rt : Runtime} {py : Python} {α β : Type}

/-! ## Findings -/

/-- The model accepts the finding. -/
structure Reportable (draft : FindingDraft py) : Prop where
  scannerVersion :
    Normalization.isScannerVersion py.toLibrary draft.context.scannerVersion = true
  /-- No float is infinite, and the evidence is not too large. -/
  evidence : ∃ document, (Value.obj draft.evidence).toJson? = some document ∧
    nodes document ≤ 5000 ∧ keysNamed document = true

theorem map_trim {text : Option String} (h : ∀ t ∈ text, Normalization.trim t = t) :
    text.map Normalization.trim = text := by
  cases text with
  | none => rfl
  | some t => exact congrArg some (h t rfl)

theorem required_of_isText {least most : Nat} {text : String} (h : IsText least most text) :
    required least most text = true := by
  rw [required, h.trimmed]
  exact decide_eq_true h.bounded

theorem shortText_of_isText {least most : Nat} {text : Option String}
    (h : ∀ t ∈ text, IsText least most t) : Normalization.shortText most text = true := by
  cases text with
  | none => rfl
  | some t =>
    refine decide_eq_true ?_
    rw [(h t rfl).trimmed]
    exact (h t rfl).bounded.2

theorem unitScore_of_isScore {score : Option ℚ} (h : IsScore score) : unitScore score = true := by
  cases score with
  | none => rfl
  | some s => exact decide_eq_true (h s rfl)

theorem validateEvidence_isOk {evidence : Mapping} (hlevels : ∀ e ∈ evidence, Within 6 e.2) :
    (∃ kept, validateEvidence rt py evidence = .ok kept) ↔
      ∃ document, (Value.obj evidence).toJson? = some document ∧ nodes document ≤ 5000 ∧
        keysNamed document = true := by
  unfold validateEvidence
  cases hdocument : (Value.obj evidence).toJson? with
  | none =>
    refine iff_of_false ?_ ?_
    · rintro ⟨kept, h⟩
      cases h
    · rintro ⟨document, h, -⟩
      cases h
  | some document =>
    obtain ⟨fields, hfields, rfl⟩ := Option.map_eq_some_iff.mp hdocument
    have hheight : height (.obj fields) ≤ 7 := within_obj hlevels _ hdocument
    unfold Normalization.validateEvidence
    simp only [bind_eq_ok, boundedCopy_eq_ok, Option.some.injEq, exists_eq_left']
    constructor
    · rintro ⟨kept, copy, ⟨⟨hnodes, -, hkeys⟩, -⟩, -⟩
      exact ⟨hnodes, hkeys⟩
    · rintro ⟨hnodes, hkeys⟩
      exact ⟨_, _, ⟨⟨hnodes, by omega, hkeys⟩, rfl⟩, rfl⟩

/-- Of what the model checks of a finding, the engine leaves open the evidence and the version. -/
theorem construct_isOk {draft : FindingDraft py} (hlevels : ∀ e ∈ draft.evidence, Within 6 e.2) :
    (∃ finding, draft.construct rt py = .ok finding) ↔ Reportable draft := by
  obtain ⟨bundle, rule, context, evidence⟩ := draft
  have hrule := rule.accepted
  have hid : isIdentifier (Normalization.trim ("finding-" ++ py.uuid5
      (FindingDraft.name py ⟨bundle, rule, context, evidence⟩))) = true := by
    rw [Normalization.trim_of_isIdentifier (py.uuid5_identifier _)]
    exact py.uuid5_identifier _
  have htags : (rule.tags.image Normalization.trim).card ≤ 128 :=
    Finset.card_image_le.trans hrule.tags.1
  have hsubject : ¬ (Normalization.present (context.endpointId.map Normalization.trim) = false ∧
      Normalization.present (context.asset.map Normalization.trim) = false) := by
    rw [map_trim fun t ht => (context.endpointId_text t ht).trimmed,
      map_trim fun t ht => (context.asset_text t ht).trimmed]
    rintro ⟨hendpoint, hasset⟩
    rcases context.subject with h | h
    · rw [hendpoint] at h
      cases h
    · rw [hasset] at h
      cases h
  have hreferences : ∃ references, rule.references.mapM (fun reference =>
      Normalization.validateReference py.toLibrary (Normalization.trim reference)) =
        .ok references := by
    rw [Normalization.mapM_isOk]
    exact fun reference href => ⟨reference, hrule.references.2 reference href⟩
  have hevidence := @validateEvidence_isOk rt py evidence hlevels
  have hversion : Normalization.trim context.scannerVersion = context.scannerVersion :=
    context.scannerVersion_text.trimmed
  unfold FindingDraft.construct
  simp only [bind_unit_eq_ok, Check.raiseIf_eq_ok, Bool.not_eq_false, gt_iff_lt, not_or]
  simp only [bind_eq_ok, Check.raiseIf_eq_ok, exists_const, Bool.not_eq_false, not_lt]
  constructor
  · rintro ⟨finding, -, -, hscanner, -, -, -, -, -, -, -, kept, hkept, -⟩
    rw [hversion] at hscanner
    exact ⟨hscanner, hevidence.mp ⟨kept, hkept⟩⟩
  · rintro ⟨hscanner, hdocument⟩
    obtain ⟨kept, hkept⟩ := hevidence.mpr hdocument
    obtain ⟨references, href⟩ := hreferences
    refine ⟨_, hid, ?_, ?_, ?_, ?_, required_of_isText hrule.title,
      ⟨required_of_isText hrule.category.1, ?_⟩, required_of_isText hrule.description,
      shortText_of_isText context.endpointId_text, shortText_of_isText context.asset_text, kept,
      hkept, required_of_isText hrule.remediation, hrule.references.1, references, href,
      unitScore_of_isScore hrule.exploitability, unitScore_of_isScore hrule.exposure,
      unitScore_of_isScore hrule.complianceImpact, htags, hsubject, rfl⟩
    · rw [bundle.schemaVersion_form.2]
      exact bundle.schemaVersion_form.1
    · rw [hversion]
      exact hscanner
    · rw [Normalization.trim_of_isIdentifier context.scanId_identifier]
      exact context.scanId_identifier
    · rw [Normalization.trim_of_isIdentifier hrule.ruleId]
      exact hrule.ruleId
    · rw [hrule.category.1.trimmed]
      exact hrule.category.2

/-! ## The findings of an evaluation -/

/-- Every finding that the computation makes has this property. -/
def Drafts (P : FindingDraft py → Prop) (t : Evaluation py α) : Prop :=
  ∀ draft, .construct draft ∈ t.effects → P draft

variable {P : FindingDraft py → Prop}

theorem drafts_pure (a : α) : Drafts P (pure a) := fun _ h => absurd h List.not_mem_nil

theorem drafts_bind {t : Evaluation py α} {f : α → Evaluation py β} (ht : Drafts P t)
    (hf : Drafts P (f t.value)) : Drafts P (t >>= f) := by
  intro draft h
  rcases List.mem_append.mp h with h | h
  · exact ht draft h
  · exact hf draft h

theorem drafts_consume : Drafts P (consume : Evaluation py Unit) := by
  intro draft h
  cases List.mem_singleton.mp h

theorem drafts_compare (comparison : Comparison) (expected : Json) (actual : Value) :
    Drafts P (compare rt py comparison expected actual) := by
  intro draft h
  cases List.mem_singleton.mp h

theorem drafts_any {f : α → Evaluation py Bool} (hf : ∀ a, Drafts P (f a)) (xs : List α) :
    Drafts P (Traced.any f xs) := by
  induction xs with
  | nil => exact drafts_pure _
  | cons x xs ih =>
    refine drafts_bind (hf x) ?_
    split
    · exact drafts_pure _
    · exact ih

theorem drafts_all {f : α → Evaluation py Bool} (hf : ∀ a, Drafts P (f a)) (xs : List α) :
    Drafts P (Traced.all f xs) := by
  induction xs with
  | nil => exact drafts_pure _
  | cons x xs ih =>
    refine drafts_bind (hf x) ?_
    split
    · exact ih
    · exact drafts_pure _

theorem drafts_select {f : α → Evaluation py Bool} (hf : ∀ a, Drafts P (f a)) (xs : List α) :
    Drafts P (Traced.select f xs) := by
  induction xs with
  | nil => exact drafts_pure _
  | cons x xs ih => exact drafts_bind (hf x) (drafts_bind ih (drafts_pure _))

theorem drafts_walk (value : Value) : ∀ segments, Drafts P (walk py value segments) := by
  induction value with
  | arr items ih =>
    rintro (- | ⟨segment, segments⟩)
    · exact drafts_bind drafts_consume (drafts_pure _)
    · refine drafts_bind drafts_consume ?_
      induction items with
      | nil => exact drafts_pure _
      | cons item items ihl =>
        rw [List.forall_mem_cons] at ih
        exact drafts_bind (ih.1 _) (drafts_bind (ihl ih.2) (drafts_pure _))
  | obj fields ih =>
    rintro (- | ⟨segment, segments⟩)
    · exact drafts_bind drafts_consume (drafts_pure _)
    · refine drafts_bind drafts_consume ?_
      split
      · induction fields with
        | nil => exact drafts_pure _
        | cons field fields ihl =>
          rw [List.forall_mem_cons] at ih
          exact drafts_bind (ih.1 _) (drafts_bind (ihl ih.2) (drafts_pure _))
      · induction fields with
        | nil => exact drafts_pure _
        | cons field fields ihl =>
          rw [List.forall_mem_cons] at ih
          rw [walkKey]
          split
          · exact ih.1 _
          · exact ihl ih.2
  | _ =>
    rintro (- | ⟨segment, segments⟩)
    · exact drafts_bind drafts_consume (drafts_pure _)
    · exact drafts_bind drafts_consume (drafts_pure _)

theorem drafts_leafMatches (operator : ConditionOperator) (expected : Json) (values : List Value) :
    Drafts P (leafMatches rt py operator expected values) := by
  have hholds := fun comparison value => @drafts_compare rt py P comparison expected value
  have hfails : ∀ comparison value, Drafts P (do
      let found ← compare rt py comparison expected value
      pure !found) := fun comparison value => drafts_bind (hholds comparison value) (drafts_pure _)
  unfold leafMatches
  cases operator <;> dsimp only <;> first
    | exact drafts_pure _
    | (split
       · exact drafts_pure _
       · first
         | exact drafts_any (hholds _) _
         | exact drafts_all (hfails _) _)

theorem drafts_matchesCondition (condition : PolicyCondition) :
    ∀ data, Drafts P (matchesCondition rt py condition data) := by
  have hall : ∀ conditions : List PolicyCondition,
      (∀ c ∈ conditions, ∀ data, Drafts P (matchesCondition rt py c data)) →
      ∀ data, Drafts P (matchesAll rt py conditions data) := by
    intro conditions
    induction conditions with
    | nil => exact fun _ _ => drafts_pure _
    | cons condition conditions ihl =>
      intro ih data
      rw [List.forall_mem_cons] at ih
      refine drafts_bind (ih.1 data) ?_
      split
      · exact ihl ih.2 data
      · exact drafts_pure _
  induction condition with
  | leaf operator field value =>
    exact fun data => drafts_bind drafts_consume
      (drafts_bind (drafts_walk data _) (drafts_leafMatches _ _ _))
  | all conditions ih => exact fun data => drafts_bind drafts_consume (hall conditions ih data)
  | any conditions ih =>
    intro data
    refine drafts_bind drafts_consume ?_
    induction conditions with
    | nil => exact drafts_pure _
    | cons condition conditions ihl =>
      rw [List.forall_mem_cons] at ih
      refine drafts_bind (ih.1 data) ?_
      split
      · exact drafts_pure _
      · exact ihl ih.2
  | anyItem field conditions ih =>
    refine fun data => drafts_bind drafts_consume (drafts_bind (drafts_walk data _)
      (drafts_any (fun item => ?_) _))
    split
    · exact hall conditions ih item
    · exact drafts_pure _

theorem drafts_collectEvidence (rule : RuleFields) (data : Value) (fields : List String) :
    ∀ evidence, Drafts P (collectEvidence rt py rule data fields evidence) := by
  have hmatched : ∀ field items, Drafts P (matchedItems rt py rule field items) := by
    intro field items
    unfold matchedItems
    split
    · refine drafts_select (fun item => ?_) _
      split
      · exact drafts_matchesCondition _ item
      · exact drafts_pure _
    · exact drafts_pure _
  have hraw : ∀ field, Drafts P (rawValue rt py rule data field) := by
    intro field
    refine drafts_bind (drafts_walk data _) ?_
    split
    · exact drafts_pure _
    · refine drafts_bind ?_ (drafts_pure _)
      unfold sampledValue
      split
      · exact drafts_bind (hmatched _ _) (drafts_pure _)
      · exact drafts_pure _
  induction fields with
  | nil => exact fun _ => drafts_pure _
  | cons field fields ih =>
    intro evidence
    refine drafts_bind (hraw field) ?_
    split
    · exact ih _
    · exact ih _

/-- The findings of an evaluation have the evidence that was collected for them. -/
theorem drafts_evaluation (bundle : PolicyBundle py.toLibrary) (data : Value)
    (context : EvaluationContext) :
    Drafts (fun draft => ∀ e ∈ draft.evidence, Within 6 e.2)
      (evaluation rt py bundle data context) := by
  have hfinding : ∀ rule, Drafts (fun draft : FindingDraft py => ∀ e ∈ draft.evidence, Within 6 e.2)
      (makeFinding rt py bundle rule data context) := by
    intro rule
    refine drafts_bind (drafts_collectEvidence _ _ _ _) fun draft h => ?_
    cases List.mem_singleton.mp h
    exact within_collectEvidence _ _ fun e he => absurd he List.not_mem_nil
  have hmatches : ∀ rule : RuleFields, Drafts (fun draft : FindingDraft py =>
      ∀ e ∈ draft.evidence, Within 6 e.2) (matchesRule rt py rule data context) := by
    intro rule
    unfold matchesRule
    split
    · refine drafts_bind (drafts_bind ?_ (drafts_pure _)) ?_
      · unfold platformOf
        split
        · exact drafts_pure _
        · exact drafts_bind (drafts_walk data _) (drafts_pure _)
      · split
        · exact drafts_matchesCondition _ data
        · exact drafts_pure _
    · exact drafts_pure _
  have hrules : ∀ rules, Drafts (fun draft : FindingDraft py => ∀ e ∈ draft.evidence, Within 6 e.2)
      (evaluateRules rt py bundle data context rules) := by
    intro rules
    induction rules with
    | nil => exact drafts_pure _
    | cons rule rules ih =>
      refine drafts_bind drafts_consume (drafts_bind (hmatches _) (drafts_bind ?_
        (drafts_bind ih (drafts_pure _))))
      unfold findingsOf
      split
      · exact hfinding rule
      · exact drafts_pure _
  refine drafts_bind drafts_consume (drafts_bind (fun draft h => ?_) (hrules _))
  cases List.mem_singleton.mp h

/-! ## Evaluations that raise -/

/-- Python refuses the comparison, or the model refuses the finding or the data. -/
def Operation.Refused (rt : Runtime) (operation : Operation py) : Prop :=
  match operation with
  | .consume => False
  | .mapping data => data.isMapping = false
  | .compare comparison actual expected => Incomparable rt py comparison actual expected
  | .construct draft => ¬ Reportable draft

theorem errorOf_iff {x : Except String α} : (∃ m, errorOf x = some m) ↔ ¬ ∃ a, x = .ok a := by
  cases x with
  | error m => exact iff_of_true ⟨m, rfl⟩ fun ⟨a, h⟩ => by cases h
  | ok a => exact iff_of_false (fun ⟨m, h⟩ => by cases h) fun h => h ⟨a, rfl⟩

/-- What an operation raises itself, apart from the errors of the budget. -/
theorem perform_raises_iff {late : Nat → Bool} {budget : Budget} {operation : Operation py}
    (hlevels : ∀ draft, operation = .construct draft → ∀ e ∈ draft.evidence, Within 6 e.2) :
    (∃ m, perform rt late budget operation = .error (.raised m)) ↔ operation.Refused rt := by
  have hperform : operation ≠ .consume →
      ((∃ m, perform rt late budget operation = .error (.raised m)) ↔
        ∃ m, operation.error? rt = some m) := by
    intro hne
    cases operation with
    | consume => exact absurd rfl hne
    | _ =>
      unfold perform
      dsimp only
      split
      · next m hm => exact iff_of_true ⟨m, rfl⟩ ⟨m, hm⟩
      · next hm =>
        refine iff_of_false (fun ⟨m, h⟩ => by cases h) fun ⟨m, h⟩ => ?_
        rw [hm] at h
        cases h
  cases operation with
  | consume =>
    refine iff_of_false (fun ⟨m, h⟩ => ?_) id
    unfold perform at h
    dsimp only at h
    split at h
    · cases h
    · split at h <;> cases h
  | mapping data =>
    refine (hperform (by simp)).trans ?_
    show (∃ m, (if data.isMapping = true then none else some _) = some m) ↔ data.isMapping = false
    cases data.isMapping <;> simp
  | compare comparison actual expected =>
    refine (hperform (by simp)).trans (errorOf_iff.trans ?_)
    rw [outcome_isOk, not_not]
    rfl
  | construct draft =>
    refine (hperform (by simp)).trans (errorOf_iff.trans ?_)
    rw [construct_isOk (hlevels draft rfl)]
    rfl

/-- The parts of Python, for the inputs below. -/
def samplePython : Python where
  toLibrary := Normalization.sampleLibrary
  decimal _ := none
  decimalOfFloat := PyFloat.value
  text _ := "2024-01-01"
  uuid5 _ := "94ad34f0-4410-5b48-bb2c-9b4896ea8ffc"
  uuid5_identifier _ := by decide +kernel

theorem sampleText {least most : Nat} (text : String)
    (h : Normalization.trim text = text ∧ least ≤ text.length ∧ text.length ≤ most) :
    IsText least most text := ⟨h.1, h.2⟩

def sampleRule (condition : PolicyCondition) (evidenceFields : List String)
    (hcondition : condition.valid = true) (hfields : evidenceFields.length ≤ 128 ∧
      ∀ field ∈ evidenceFields, isFieldPath field = true) : PolicyRule samplePython.toLibrary where
  ruleId := "OS-001"
  title := "Operating system"
  severity := .high
  category := "os"
  description := "The system is not supported."
  condition := condition
  remediation := "Upgrade it."
  evidenceFields := evidenceFields
  accepted :=
    { ruleId := (by decide +kernel : isIdentifier "OS-001" = true)
      title := sampleText "Operating system" (by decide +kernel)
      category := ⟨sampleText "os" (by decide +kernel), (by decide +kernel : isCategory "os" = true)⟩
      description := sampleText "The system is not supported." (by decide +kernel)
      condition := hcondition
      remediation := sampleText "Upgrade it." (by decide +kernel)
      references := ⟨Nat.zero_le _, fun _ h => absurd h List.not_mem_nil⟩
      evidenceFields := hfields
      tags := ⟨Nat.zero_le _, fun _ h => absurd h (Finset.notMem_empty _)⟩
      exploitability := fun _ h => by cases h
      exposure := fun _ h => by cases h
      complianceImpact := fun _ h => by cases h }

def sampleBundle (rule : PolicyRule samplePython.toLibrary) :
    PolicyBundle samplePython.toLibrary where
  policyId := "enterprise-default"
  rules := [rule]
  schemaVersion_form := ⟨by decide +kernel, by decide +kernel⟩
  policyId_identifier := by decide +kernel
  size := ⟨le_refl 1, (by decide : 1 ≤ 10000)⟩
  unique := List.nodup_singleton _

def sampleContext : EvaluationContext where
  scanId := "scan-1"
  endpointId := some "endpoint-1"
  detectedAt := 0
  scanId_identifier := by decide +kernel
  endpointId_text := fun text h => by
    cases h
    exact ⟨by decide +kernel, by decide +kernel⟩
  asset_text := fun text h => by cases h
  scannerVersion_text := ⟨by decide +kernel, by decide +kernel⟩
  subject := Or.inl (by decide +kernel)

/-- `os contains ["LINUX"]` -/
def listContained : PolicyCondition := .leaf .contains "os" (.arr [.str "LINUX"])

/-- The evaluation raised an error that is not one of its budget. -/
def hasRaised : Except Failure α → Bool
  | .error (.raised _) => true
  | _ => false

theorem hasRaised_iff {x : Except Failure α} :
    hasRaised x = true ↔ ∃ message, x = .error (.raised message) := by
  constructor
  · intro h
    unfold hasRaised at h
    split at h
    · exact ⟨_, rfl⟩
    · cases h
  · rintro ⟨message, rfl⟩
    rfl

end OsScanner.Policies

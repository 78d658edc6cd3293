import Mathlib
import OsScanner.Lib.Traced
import OsScanner.Cloud.Dispatch
import OsScanner.Policies.Models

/-!
# The policy engine

`app/policies/engine.py`: conditions are evaluated over a value, operation by operation against a
budget, and a rule that matches becomes a finding with the values of its fields as evidence. An
evaluation is written as the row of its operations: those that only count, those that may raise,
and the findings that are made.
-/

namespace OsScanner.Policies

open Lib Cloud Security

/-! ## Python's values -/

/-- What `Decimal(text)` makes of a text. -/
inductive Decimal where
  | finite (q : ℚ)
  | infinity (negative : Bool)
  | nan

namespace Decimal

/-- `a == b` -/
def equal : Decimal → Decimal → Bool
  | .finite a, .finite b => decide (a = b)
  | .infinity a, .infinity b => a == b
  | _, _ => false

/-- `a < b`, which raises `InvalidOperation` where one of them is no number. -/
def lt? : Decimal → Decimal → Option Bool
  | .nan, _ | _, .nan => none
  | .finite a, .finite b => some (decide (a < b))
  | .infinity a, .infinity b => some (a && !b)
  | .infinity negative, .finite _ => some negative
  | .finite _, .infinity negative => some (!negative)

end Decimal

/-- The parts of Python that the engine uses. -/
structure Python extends Normalization.Library where
  /-- `Decimal(text)`, absent where it raises `InvalidOperation`. -/
  decimal : String → Option Decimal
  /-- `Decimal(str(number))` -/
  decimalOfFloat : PyFloat → ℚ
  /-- `str(value)` of a date, a time or a set. -/
  text : Value → String
  /-- `uuid5(NAMESPACE_URL, name)` -/
  uuid5 : String → String
  uuid5_identifier : ∀ name, isIdentifier ("finding-" ++ uuid5 name) = true

variable (rt : Runtime) (py : Python)

/-- The text of the number has more than 4,300 digits, and `str` raises. -/
def tooLong (n : Int) : Bool := decide (10 ^ 4300 ≤ n.natAbs)

def longNumberError : String :=
  "Exceeds the limit (4300 digits) for integer string conversion"

/-- `Decimal(str(value))` of a number -/
def decimalOfNumber (value : Value) : Option (Except String Decimal) :=
  match value with
  | .int n => some (if tooLong n then .error longNumberError else .ok (.finite n))
  | .float f => some (.ok (.finite (py.decimalOfFloat f)))
  | .nonFinite .infinity => some (.ok (.infinity false))
  | .nonFinite .negativeInfinity => some (.ok (.infinity true))
  | .nonFinite .nan => some (.ok .nan)
  | _ => none

/-- `Decimal(str(value))`, absent where it raises one of the errors that are caught. -/
def decimalOf (value : Value) : Option Decimal :=
  match value with
  | .str s => py.decimal s
  | v => (decimalOfNumber py v).bind Except.toOption

/-- A scalar of a policy. Lists and objects are never read as numbers. -/
def scalarOf (expected : Json) : Value :=
  match expected with
  | .null | .arr _ | .obj _ => .null
  | .bool b => .bool b
  | .int n => .int n
  | .float f => .float f
  | .str s => .str s

/-! ## Comparisons -/

/-- `_equivalent(actual, expected)` -/
def equivalent (actual : Value) (expected : Json) : Except String Bool :=
  match actual, expected with
  | .bool a, .bool e => .ok (a == e)
  | .bool _, _ | _, .bool _ => .ok false
  | actual, expected =>
    match decimalOfNumber py actual, decimalOfNumber py (scalarOf expected) with
    | some left, some right => do
      let left ← left
      let right ← right
      .ok (left.equal right)
    | _, _ => .ok (actual.toJson?.any fun value => value.pyEq expected)

/-- `any(_equivalent(item, expected) for item in items)` -/
def anyEquivalent (expected : Json) : List Value → Except String Bool
  | [] => .ok false
  | item :: rest => do
    if ← equivalent py item expected then .ok true else anyEquivalent expected rest

/-- `_contains(actual, expected)` -/
def contains (actual : Value) (expected : Json) : Except String Bool :=
  match actual, expected with
  | .str a, .str e => .ok (decide (e.toList <:+: a.toList))
  | .obj _, .arr _ => .error "unhashable type: 'list'"
  | .obj _, .obj _ => .error "unhashable type: 'dict'"
  | .obj fields, .str key => .ok (fields.any fun field => field.1 == key)
  | .obj _, _ => .ok false
  | .arr items, expected => anyEquivalent py expected items
  | .set items, expected => anyEquivalent py expected (items.map .str)
  | _, _ => .ok false

/-- `actual > parsed if greater else actual < parsed` -/
def compareTimes (greater : Bool) : Datetime → Datetime → Except String Bool
  | .aware actual, .aware parsed | .naive actual, .naive parsed =>
    .ok (decide (if greater then actual > parsed else actual < parsed))
  | _, _ => .error "can't compare offset-naive and offset-aware datetimes"

/-- The comparison of two values that read as numbers. -/
def compareDecimals (greater : Bool) (actual : Value) (expected : Json) : Option Bool :=
  (decimalOf py actual).bind fun left => (decimalOf py (scalarOf expected)).bind fun right =>
    if greater then right.lt? left else left.lt? right

/-- The comparison of a time with a text, where there are no numbers to compare. -/
def compareWithText (greater : Bool) (actual : Value) (expected : Json) : Except String Bool :=
  match actual, expected with
  | .datetime t, .str text =>
    match rt.fromIsoformat (replaceZ text) with
    | none => .ok false
    | some parsed => compareTimes greater t parsed
  | _, _ => .ok false

/-- `_ordered_compare(actual, expected, greater=…)` -/
def orderedCompare (greater : Bool) (actual : Value) (expected : Json) : Except String Bool :=
  match actual, expected with
  | .bool _, _ | _, .bool _ => .ok false
  | actual, expected =>
    match compareDecimals py greater actual expected with
    | some result => .ok result
    | none => compareWithText rt greater actual expected

/-- The functions that compare two values. -/
inductive Comparison where
  | equivalent
  | contains
  | greater
  | less
  deriving DecidableEq, Repr

/-- What a comparison returns or raises. -/
def Comparison.outcome (comparison : Comparison) (actual : Value) (expected : Json) :
    Except String Bool :=
  match comparison with
  | .equivalent => Policies.equivalent py actual expected
  | .contains => Policies.contains py actual expected
  | .greater => orderedCompare rt py true actual expected
  | .less => orderedCompare rt py false actual expected

/-! ## Findings -/

/-- What `_finding` passes to `Finding`. -/
structure FindingDraft where
  bundle : PolicyBundle py.toLibrary
  rule : PolicyRule py.toLibrary
  context : EvaluationContext
  evidence : Mapping

/-- `Finding` -/
structure Finding where
  findingId : String
  schemaVersion : String
  scannerVersion : String
  scanId : String
  ruleId : String
  title : String
  severity : Severity
  category : String
  description : String
  endpointId : Option String
  asset : Option String
  evidence : JsonObject
  remediation : String
  references : List String
  detectedAt : Timestamp
  firstSeenAt : Timestamp
  tags : Finset String
  exploitability : Option ℚ
  exposure : Option ℚ
  complianceImpact : Option ℚ

/-- `f"{subject}:{bundle.policy_id}:{rule.rule_id}"` -/
def FindingDraft.name (draft : FindingDraft py) : String :=
  let subject := if Normalization.present draft.context.endpointId then draft.context.endpointId
    else if Normalization.present draft.context.asset then draft.context.asset else none
  subject.getD "unknown" ++ ":" ++ draft.bundle.policyId ++ ":" ++ draft.rule.ruleId

/-- `validate_evidence(value)`, and what pydantic then makes of the keys -/
def validateEvidence (evidence : Mapping) : Except String JsonObject :=
  match (Value.obj evidence).toJson? with
  | none => .error "non-finite numbers are not valid"
  | some document => Normalization.validateEvidence rt py.toLibrary document

/-- A required text within its bounds. -/
def required (least most : Nat) (text : String) : Bool :=
  decide (least ≤ (Normalization.trim text).length ∧ (Normalization.trim text).length ≤ most)

/-- A score that may be absent, between 0 and 1. -/
def unitScore (score : Option ℚ) : Bool := score.all fun s => decide (0 ≤ s ∧ s ≤ 1)

/-- `Finding(…)`; an error names the field. -/
def FindingDraft.construct (draft : FindingDraft py) : Except String Finding := do
  let rule := draft.rule
  let context := draft.context
  let lib := py.toLibrary
  let findingId := "finding-" ++ py.uuid5 draft.name
  Check.raiseIf (isIdentifier (Normalization.trim findingId) = false) "finding_id"
  Check.raiseIf (Normalization.isSchemaVersion lib (Normalization.trim draft.bundle.schemaVersion) =
    false) "schema_version"
  Check.raiseIf (Normalization.isScannerVersion lib (Normalization.trim context.scannerVersion) =
    false) "scanner_version"
  Check.raiseIf (isIdentifier (Normalization.trim context.scanId) = false) "scan_id"
  Check.raiseIf (isIdentifier (Normalization.trim rule.ruleId) = false) "rule_id"
  Check.raiseIf (required 1 1024 rule.title = false) "title"
  Check.raiseIf (required 1 128 rule.category = false ∨
    isCategory (Normalization.trim rule.category) = false) "category"
  Check.raiseIf (required 1 16384 rule.description = false) "description"
  Check.raiseIf (Normalization.shortText 128 context.endpointId = false) "endpoint_id"
  Check.raiseIf (Normalization.shortText 2048 context.asset = false) "asset"
  let evidence ← validateEvidence rt py draft.evidence
  Check.raiseIf (required 1 16384 rule.remediation = false) "remediation"
  Check.raiseIf (rule.references.length > 128) "references"
  let references ← rule.references.mapM fun reference =>
    Normalization.validateReference lib (Normalization.trim reference)
  Check.raiseIf (unitScore rule.exploitability = false) "exploitability"
  Check.raiseIf (unitScore rule.exposure = false) "exposure"
  Check.raiseIf (unitScore rule.complianceImpact = false) "compliance_impact"
  Check.raiseIf ((rule.tags.image Normalization.trim).card > 128) "tags"
  Check.raiseIf (Normalization.present (context.endpointId.map Normalization.trim) = false ∧
    Normalization.present (context.asset.map Normalization.trim) = false)
    "finding must identify an endpoint or asset"
  .ok
    { findingId := Normalization.trim findingId
      schemaVersion := Normalization.trim draft.bundle.schemaVersion
      scannerVersion := Normalization.trim context.scannerVersion
      scanId := Normalization.trim context.scanId
      ruleId := Normalization.trim rule.ruleId
      title := Normalization.trim rule.title
      severity := rule.severity
      category := Normalization.trim rule.category
      description := Normalization.trim rule.description
      endpointId := context.endpointId.map Normalization.trim
      asset := context.asset.map Normalization.trim
      evidence := evidence
      remediation := Normalization.trim rule.remediation
      references := references
      detectedAt := context.detectedAt
      firstSeenAt := context.detectedAt
      tags := rule.tags.image Normalization.trim
      exploitability := rule.exploitability
      exposure := rule.exposure
      complianceImpact := rule.complianceImpact }

/-! ## Operations -/

/-- What an evaluation does, one after the other. -/
inductive Operation where
  /-- `budget.consume()` -/
  | consume
  /-- `isinstance(normalized, Mapping)` -/
  | mapping (data : Value)
  | compare (comparison : Comparison) (actual : Value) (expected : Json)
  | construct (draft : FindingDraft py)

abbrev Evaluation := Traced (Operation py)

variable {py} in
def consume : Evaluation py Unit := ⟨[.consume], ()⟩

/-- A comparison that raises ends the evaluation, whatever its value is said to be. -/
def compare (comparison : Comparison) (expected : Json) (actual : Value) : Evaluation py Bool :=
  ⟨[.compare comparison actual expected],
    (comparison.outcome rt py actual expected).toOption.getD false⟩

def construct (draft : FindingDraft py) : Evaluation py (List Finding) :=
  ⟨[.construct draft], (draft.construct rt py).toOption.toList⟩

theorem value_construct (draft : FindingDraft py) :
    (construct rt py draft).value = (draft.construct rt py).toOption.toList := by
  rw [construct]

/-! ## Values of fields -/

mutual

/-- `walk(current, index)`, with the segments from the index on -/
def walk : Value → List String → Evaluation py (List Value)
  | value, [] => do
    consume
    pure [value]
  | .obj fields, segment :: rest => do
    consume
    if segment = "*" then walkValues fields rest else walkKey segment fields rest
  | .arr items, segment :: rest => do
    consume
    walkItems items (segment :: rest)
  | _, _ :: _ => do
    consume
    pure []

def walkItems : List Value → List String → Evaluation py (List Value)
  | [], _ => pure []
  | item :: items, segments => do
    let first ← walk item segments
    let others ← walkItems items segments
    pure (first ++ others)

/-- The values of all keys. -/
def walkValues : Mapping → List String → Evaluation py (List Value)
  | [], _ => pure []
  | (_, value) :: fields, segments => do
    let first ← walk value segments
    let others ← walkValues fields segments
    pure (first ++ others)

/-- The value of the key. -/
def walkKey (segment : String) : Mapping → List String → Evaluation py (List Value)
  | [], _ => pure []
  | (key, value) :: fields, segments =>
    if key = segment then walk value segments else walkKey segment fields segments

end

/-- `_resolve_values(data, field, budget)` -/
def resolveValues (data : Value) (field : String) : Evaluation py (List Value) :=
  walk py data (segments field)

/-! ## Conditions -/

/-- What a comparison makes of the values of its field. -/
def leafMatches (operator : ConditionOperator) (expected : Json) (values : List Value) :
    Evaluation py Bool :=
  let concrete := values.filter fun value => !value.isNull
  let holds (comparison : Comparison) (value : Value) : Evaluation py Bool :=
    compare rt py comparison expected value
  let fails (comparison : Comparison) (value : Value) : Evaluation py Bool := do
    let found ← compare rt py comparison expected value
    pure !found
  match operator with
  | .exists => pure (values.any fun value => !value.isNull)
  | .notExists => pure (values.all Value.isNull)
  | operator =>
    if concrete = [] then pure false
    else match operator with
      | .equals => Traced.any (holds .equivalent) concrete
      | .notEquals => Traced.all (fails .equivalent) concrete
      | .contains => Traced.any (holds .contains) concrete
      | .notContains => Traced.all (fails .contains) concrete
      | .greaterThan => Traced.any (holds .greater) concrete
      | .lessThan => Traced.any (holds .less) concrete
      | _ => pure false

/-- The items that `any_item` looks at. -/
def itemsOf (collections : List Value) : List Value :=
  collections.flatMap fun value =>
    match value with
    | .arr items => items
    | value => [value]

mutual

/-- `_matches(condition, data, budget)` -/
def matchesCondition : PolicyCondition → Value → Evaluation py Bool
  | .all conditions, data => do
    consume
    matchesAll conditions data
  | .any conditions, data => do
    consume
    matchesAny conditions data
  | .anyItem field conditions, data => do
    consume
    let collections ← resolveValues py data field
    Traced.any (fun item => if item.isMapping then matchesAll conditions item else pure false)
      (itemsOf collections)
  | .leaf operator field expected, data => do
    consume
    let values ← resolveValues py data field
    leafMatches rt py operator expected values

def matchesAll : List PolicyCondition → Value → Evaluation py Bool
  | [], _ => pure true
  | condition :: rest, data => do
    if ← matchesCondition condition data then matchesAll rest data else pure false

def matchesAny : List PolicyCondition → Value → Evaluation py Bool
  | [], _ => pure false
  | condition :: rest, data => do
    if ← matchesCondition condition data then pure true else matchesAny rest data

end

end OsScanner.Policies

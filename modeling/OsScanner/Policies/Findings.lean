import Mathlib
import OsScanner.Policies.Engine

/-!
# Findings of the policy engine

The evidence of a finding: the values of the fields of a rule, of a collection those items that its
conditions are about, redacted and cut to a budget. And the evaluation of a bundle, rule by rule.
-/

namespace OsScanner.Policies

open Lib Cloud Security

variable (rt : Runtime) (py : Python)

/-! ## The conditions on the items of a collection -/

mutual

/-- `_leaf_fields(condition)` -/
def leafFields : PolicyCondition → List String
  | .leaf _ field _ => [field]
  | .anyItem field _ => [field]
  | .all conditions | .any conditions => leafFieldsOf conditions

def leafFieldsOf : List PolicyCondition → List String
  | [] => []
  | condition :: rest => leafFields condition ++ leafFieldsOf rest

end

/-- `condition.field.startswith(f"{collection_field}.")` -/
def isBelow (collection field : String) : Bool :=
  (collection ++ ".").toList.isPrefixOf field.toList

mutual

/-- `_relative_condition(condition, collection_field)` -/
def relativeCondition (collection : String) : PolicyCondition → Option PolicyCondition
  | .anyItem field conditions => if field = collection then some (.all conditions) else none
  | .all conditions =>
    match relativeConditions collection conditions with
    | [] => none
    | [child] => some child
    | children => some (.all children)
  | .any conditions =>
    match relativeConditions collection conditions with
    | [] => none
    | [child] => some child
    | children => some (.any children)
  | .leaf operator field value =>
    if isBelow collection field then
      some (.leaf operator (String.ofList (field.toList.drop (collection.length + 1))) value)
    else none

def relativeConditions (collection : String) : List PolicyCondition → List PolicyCondition
  | [] => []
  | condition :: rest =>
    (relativeCondition collection condition).toList ++ relativeConditions collection rest

end

/-! ## Redaction -/

/-- `_is_non_secret_security_fact(key, value)` -/
def isNonSecretFact (key : String) (value : Value) : Bool :=
  nonSecretSecurityFactKeys.contains (rt.casefold key) &&
    match value with
    | .null | .bool _ => true
    | .str s => nonSecretSecurityFactValues.contains (rt.casefold (Storage.strip s))
    | _ => false

/-- The field is replaced whatever it holds. -/
def hidesValue (key : String) (value : Value) : Bool :=
  isSensitiveKey key && !isNonSecretFact rt key value

mutual

/-- `walk(item, depth, sensitive)`, with the counter `nodes` before and after it. -/
def redactWalk (depth : Nat) (sensitive : Bool) : Value → Nat → Value × Nat
  | value, seen =>
    if seen + 1 > 20000 ∨ depth > 12 then (.str truncated, seen + 1)
    else if sensitive then (.str redacted, seen + 1)
    else match value with
      | .obj fields =>
        let copy := redactMappingWalk (depth + 1) fields (seen + 1)
        (.obj copy.1, copy.2)
      | .arr items =>
        let copy := redactItemsWalk (depth + 1) items (seen + 1)
        (.arr copy.1, copy.2)
      | .str s => (.str (redactText py.isWord s), seen + 1)
      | .datetime _ | .date _ | .set _ => (.str (redactText py.isWord (py.text value)), seen + 1)
      | .null | .bool _ | .int _ | .float _ | .nonFinite _ => (value, seen + 1)

def redactItemsWalk (depth : Nat) : List Value → Nat → List Value × Nat
  | [], seen => ([], seen)
  | item :: items, seen =>
    let first := redactWalk depth false item seen
    let others := redactItemsWalk depth items first.2
    (first.1 :: others.1, others.2)

def redactMappingWalk (depth : Nat) : Mapping → Nat → Mapping × Nat
  | [], seen => ([], seen)
  | (key, value) :: fields, seen =>
    let first := redactWalk depth (hidesValue rt key value) value seen
    let others := redactMappingWalk depth fields first.2
    ((key, first.1) :: others.1, others.2)

end

/-- `redact_value(value)` -/
def redactEvidence (value : Value) : Value := (redactWalk rt py 0 false value 0).1

/-! ## The budget of the evidence -/

def cutMark : Value := .str "[truncated]"

mutual

/-- Every mapping in the order of its keys. -/
def sortKeys : Value → Value
  | .obj fields => .obj ((sortKeysOfFields fields).insertionSort fun a b => a.1 ≤ b.1)
  | .arr items => .arr (sortKeysOfItems items)
  | value => value

def sortKeysOfItems : List Value → List Value
  | [] => []
  | item :: items => sortKeys item :: sortKeysOfItems items

def sortKeysOfFields : Mapping → Mapping
  | [] => []
  | (key, value) :: fields => (key, sortKeys value) :: sortKeysOfFields fields

end

mutual

/-- `_bounded_evidence(value, budget, depth)` of a value whose mappings are sorted, with the budget
before and after it. -/
def bound (depth : Nat) : Value → Nat → Value × Nat
  | value, budget =>
    if budget = 0 ∨ depth ≥ 6 then (cutMark, budget)
    else match value with
      | .obj fields =>
        let copy := boundFields (depth + 1) fields 64 (budget - 1) []
        if fields.length > 64 ∨ copy.2 = 0 then
          (.obj (Assoc.insert "_truncated" (.bool true) copy.1), copy.2)
        else (.obj copy.1, copy.2)
      | .arr items =>
        let copy := boundItems (depth + 1) items 64 (budget - 1)
        (.arr copy.1, copy.2)
      | .str s => (.str (Normalization.cut s 4096), budget - 1)
      -- What `redact_value` returns has no dates and no sets.
      | .datetime _ | .date _ | .set _ => (.str (Normalization.cut (py.text value) 4096), budget - 1)
      | .null | .bool _ | .int _ | .float _ | .nonFinite _ => (value, budget - 1)

/-- The first `left` items, while there is some budget. -/
def boundItems (depth : Nat) : List Value → Nat → Nat → List Value × Nat
  | [], _, budget => ([], budget)
  | item :: items, left, budget =>
    if left = 0 ∨ budget = 0 then ([], budget)
    else
      let first := bound depth item budget
      let others := boundItems depth items (left - 1) first.2
      (first.1 :: others.1, others.2)

/-- The first `left` fields, while there is some budget. -/
def boundFields (depth : Nat) : Mapping → Nat → Nat → Mapping → Mapping × Nat
  | [], _, budget, result => (result, budget)
  | (key, value) :: fields, left, budget, result =>
    if left = 0 ∨ budget = 0 then (result, budget)
    else
      let first := bound depth value budget
      boundFields depth fields (left - 1) first.2
        (Assoc.insert (Normalization.cut key 256) first.1 result)

end

/-! ## Evidence -/

/-- What is kept of the matched items. -/
def sampleOf (matched : List Value) : Value :=
  let sample := matched.take 20
  if matched.length > sample.length then
    .obj [("matched_count", .int matched.length), ("sample", .arr sample),
      ("truncated", .bool true)]
  else .arr sample

/-- The items that the conditions of the rule on this collection are about. -/
def matchedItems (rule : RuleFields) (field : String) (items : List Value) :
    Evaluation py (List Value) :=
  match relativeCondition field rule.condition with
  | some relative =>
    Traced.select
      (fun item => if item.isMapping then matchesCondition rt py relative item else pure false) items
  | none => pure items

/-- `values[0] if len(values) == 1 else values` -/
def gathered : List Value → Value
  | [value] => value
  | values => .arr values

/-- A collection becomes a sample of the items that the rule is about. -/
def sampledValue (rule : RuleFields) (field : String) : Value → Evaluation py Value
  | .arr items => do
    let matched ← matchedItems rt py rule field items
    pure (sampleOf matched)
  | value => pure value

/-- `raw_value`, absent where the field has no values. -/
def rawValue (rule : RuleFields) (data : Value) (field : String) :
    Evaluation py (Option Value) := do
  let values ← resolveValues py data field
  if values = [] then pure none
  else do
    let raw ← sampledValue rt py rule field (gathered values)
    pure (some raw)

/-- `evidence[field] = _bounded_evidence(redact_value(raw_value), evidence_budget)` -/
def record (evidence : Mapping × Nat) (field : String) (raw : Value) : Mapping × Nat :=
  let bounded := bound py 0 (sortKeys (redactEvidence rt py raw)) evidence.2
  (Assoc.insert field bounded.1 evidence.1, bounded.2)

/-- The loop over the fields, with the evidence and the budget that is left. -/
def collectEvidence (rule : RuleFields) (data : Value) :
    List String → Mapping × Nat → Evaluation py (Mapping × Nat)
  | [], evidence => pure evidence
  | field :: fields, evidence => do
    match ← rawValue rt py rule data field with
    | none => collectEvidence rule data fields evidence
    | some raw => collectEvidence rule data fields (record rt py evidence field raw)

/-- `rule.evidence_fields or sorted(_leaf_fields(rule.condition))` -/
def evidenceFieldsOf (rule : RuleFields) : List String :=
  if rule.evidenceFields = [] then (leafFields rule.condition).toFinset.sort
  else rule.evidenceFields

/-- `_finding(bundle, rule, data, context, budget)` -/
def makeFinding (bundle : PolicyBundle py.toLibrary) (rule : PolicyRule py.toLibrary) (data : Value)
    (context : EvaluationContext) : Evaluation py (List Finding) := do
  let evidence ← collectEvidence rt py rule.toRuleFields data (evidenceFieldsOf rule.toRuleFields)
    ([], 4000)
  construct rt py ⟨bundle, rule, context, evidence.1⟩

/-! ## The evaluation -/

/-- The platform of the context, or the one that the data names. -/
def platformOf (data : Value) (context : EvaluationContext) :
    Evaluation py (Option OperatingSystemFamily) :=
  match context.platform with
  | some platform => pure (some platform)
  | none => do
    let values ← resolveValues py data "os.family"
    pure (values.head?.bind OperatingSystemFamily.of?)

/-- `_is_applicable(rule, data, context, budget)` -/
def isApplicable (rule : RuleFields) (data : Value) (context : EvaluationContext) :
    Evaluation py Bool := do
  let platform ← platformOf py data context
  let onPlatform := decide (rule.platforms = ∅) || platform.any fun p => decide (p ∈ rule.platforms)
  let inScan := decide (rule.scanTypes = ∅) ||
    context.scanType.any fun t => decide (t ∈ rule.scanTypes)
  pure (onPlatform && inScan)

/-- The rule is enabled and applicable, and its condition matches. -/
def matchesRule (rule : RuleFields) (data : Value) (context : EvaluationContext) :
    Evaluation py Bool :=
  if rule.enabled then do
    if ← isApplicable py rule data context then matchesCondition rt py rule.condition data
    else pure false
  else pure false

/-- The finding of a rule that matches. -/
def findingsOf (bundle : PolicyBundle py.toLibrary) (rule : PolicyRule py.toLibrary) (data : Value)
    (context : EvaluationContext) (matched : Bool) : Evaluation py (List Finding) :=
  if matched then makeFinding rt py bundle rule data context else pure []

/-- The loop over the rules. -/
def evaluateRules (bundle : PolicyBundle py.toLibrary) (data : Value) (context : EvaluationContext) :
    List (PolicyRule py.toLibrary) → Evaluation py (List Finding)
  | [] => pure []
  | rule :: rules => do
    consume
    let matched ← matchesRule rt py rule.toRuleFields data context
    let found ← findingsOf rt py bundle rule data context matched
    let others ← evaluateRules bundle data context rules
    pure (found ++ others)

/-- The operations of `evaluate` after the budget is made. -/
def evaluation (bundle : PolicyBundle py.toLibrary) (data : Value) (context : EvaluationContext) :
    Evaluation py (List Finding) := do
  consume
  ⟨[.mapping data], ()⟩
  evaluateRules rt py bundle data context bundle.rules

/-! ## Running it -/

/-- `_EvaluationBudget`, with the number of operations so far. -/
structure Budget where
  remaining : Int
  performed : Nat := 0

/-- What `evaluate` raises. -/
inductive Failure where
  | budgetExceeded
  | deadlineExceeded
  | raised (message : String)
  deriving DecidableEq, Repr

def errorOf {α : Type} : Except String α → Option String
  | .ok _ => none
  | .error message => some message

variable {py} in
/-- The error of an operation other than those of the budget. -/
def Operation.error? (operation : Operation py) : Option String :=
  match operation with
  | .consume => none
  | .mapping data =>
    if data.isMapping then none else some "policy data must be a Pydantic model or mapping"
  | .compare comparison actual expected => errorOf (comparison.outcome rt py actual expected)
  | .construct draft => errorOf (draft.construct rt py)

variable {py} in
/-- An operation, where `late n` says that the deadline has passed at the `n`-th look at the clock. -/
def perform (late : Nat → Bool) (budget : Budget) (operation : Operation py) :
    Except Failure Budget :=
  match operation with
  | .consume =>
    let budget := { budget with remaining := budget.remaining - 1, performed := budget.performed + 1 }
    if budget.remaining < 0 then .error .budgetExceeded
    else if late budget.performed then .error .deadlineExceeded
    else .ok budget
  | operation =>
    match operation.error? rt with
    | some message => .error (.raised message)
    | none => .ok budget

/-- `evaluate(bundle, data, context, deadline_at=…, max_operations=…)` -/
def evaluate (bundle : PolicyBundle py.toLibrary) (data : Value) (context : EvaluationContext)
    (late : Nat → Bool) (maxOperations : Int := 5000000) : Except Failure (List Finding) :=
  if 1 ≤ maxOperations ∧ maxOperations ≤ 100000000 then
    (evaluation rt py bundle data context).run (perform rt late) { remaining := maxOperations }
  else .error (.raised "max_operations must be between 1 and 100,000,000")

end OsScanner.Policies

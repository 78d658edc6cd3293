import Mathlib
import OsScanner.Normalization.Validation
import OsScanner.Endpoint.Sbom

/-!
# Policies

`app/policies/models.py`: rules with conditions over the fields of a scanned endpoint, and the
values that the conditions read: what `model_dump(mode="python")` makes of an inventory, or JSON.
-/

namespace OsScanner.Policies

open Lib Cloud Security

/-! ## Values -/

/-- A float that is no number. -/
inductive NonFinite where
  | infinity
  | negativeInfinity
  | nan
  deriving DecidableEq, Repr

/-- A value of a dumped inventory, or of a JSON document. -/
inductive Value where
  | null
  | bool (b : Bool)
  | int (n : Int)
  | float (f : PyFloat)
  | nonFinite (f : NonFinite)
  | str (s : String)
  | datetime (t : Datetime)
  /-- The days since the epoch. -/
  | date (days : Int)
  /-- A set of texts, in the order in which it is iterated. -/
  | set (items : List String)
  | arr (items : List Value)
  | obj (fields : List (String × Value))

/-- `dict[str, Any]` -/
abbrev Mapping := List (String × Value)

namespace Value

/-- Induction over a value: the hypotheses reach every item and every field. -/
@[elab_as_elim, induction_eliminator]
theorem induction {P : Value → Prop} (null : P .null) (bool : ∀ b, P (.bool b))
    (int : ∀ n, P (.int n)) (float : ∀ f, P (.float f)) (nonFinite : ∀ f, P (.nonFinite f))
    (str : ∀ s, P (.str s)) (datetime : ∀ t, P (.datetime t)) (date : ∀ d, P (.date d))
    (set : ∀ items, P (.set items)) (arr : ∀ items, (∀ v ∈ items, P v) → P (.arr items))
    (obj : ∀ fields : Mapping, (∀ e ∈ fields, P e.2) → P (.obj fields)) (v : Value) : P v :=
  Value.rec (motive_1 := P) (motive_2 := fun l => ∀ v ∈ l, P v)
    (motive_3 := fun l => ∀ e ∈ l, P e.2) (motive_4 := fun e => P e.2)
    null bool int float nonFinite str datetime date set arr obj
    (by simp) (fun _ _ hv hl => List.forall_mem_cons.mpr ⟨hv, hl⟩)
    (by simp) (fun _ _ he hl => List.forall_mem_cons.mpr ⟨he, hl⟩)
    (fun _ _ hv => hv) v

/-- `value is None` -/
def isNull : Value → Bool
  | .null => true
  | _ => false

/-- `isinstance(value, Mapping)` -/
def isMapping : Value → Bool
  | .obj _ => true
  | _ => false

mutual

/-- The value, where it consists of what a JSON document has. -/
def toJson? : Value → Option Json
  | .null => some .null
  | .bool b => some (.bool b)
  | .int n => some (.int n)
  | .float f => some (.float f)
  | .str s => some (.str s)
  | .arr items => (toJsonItems items).map .arr
  | .obj fields => (toJsonFields fields).map .obj
  | .nonFinite _ | .datetime _ | .date _ | .set _ => none

def toJsonItems : List Value → Option (List Json)
  | [] => some []
  | v :: l => (toJson? v).bind fun first => (toJsonItems l).map (first :: ·)

def toJsonFields : Mapping → Option JsonObject
  | [] => some []
  | (k, v) :: l => (toJson? v).bind fun first => (toJsonFields l).map ((k, first) :: ·)

end

end Value

/-! ## Conditions -/

/-- The operators of a comparison. -/
inductive ConditionOperator where
  | equals
  | notEquals
  | contains
  | notContains
  | exists
  | notExists
  | greaterThan
  | lessThan
  deriving DecidableEq, Repr

/-- `PolicyCondition` -/
inductive PolicyCondition where
  | leaf (operator : ConditionOperator) (field : String) (value : Json)
  /-- `AND` -/
  | all (conditions : List PolicyCondition)
  /-- `OR` -/
  | any (conditions : List PolicyCondition)
  | anyItem (field : String) (conditions : List PolicyCondition)

/-- Induction over a condition: the hypotheses reach every child. -/
@[elab_as_elim, induction_eliminator]
theorem PolicyCondition.induction {P : PolicyCondition → Prop}
    (leaf : ∀ operator field value, P (.leaf operator field value))
    (all : ∀ conditions, (∀ c ∈ conditions, P c) → P (.all conditions))
    (any : ∀ conditions, (∀ c ∈ conditions, P c) → P (.any conditions))
    (anyItem : ∀ field conditions, (∀ c ∈ conditions, P c) → P (.anyItem field conditions))
    (condition : PolicyCondition) : P condition :=
  PolicyCondition.rec (motive_1 := P) (motive_2 := fun l => ∀ c ∈ l, P c) leaf all any anyItem
    (by simp) (fun _ _ hc hl => List.forall_mem_cons.mpr ⟨hc, hl⟩) condition

/-- `field.split(".")` -/
def segments (field : String) : List String := (field.toList.splitOn '.').map String.ofList

/-- `[A-Za-z0-9_-]+` -/
def isFieldName (segment : String) : Bool :=
  !segment.toList.isEmpty && segment.toList.all fun c => c.isAlphanum || c == '_' || c == '-'

/-- `^[A-Za-z0-9_-]+(?:\.(?:[A-Za-z0-9_-]+|\*))*$` -/
def isFieldPath (field : String) : Bool :=
  match segments field with
  | [] => false
  | first :: rest => isFieldName first && rest.all fun segment => isFieldName segment || segment == "*"

/-- `exists` and `not_exists` take no value. -/
def ConditionOperator.accepts : ConditionOperator → Json → Bool
  | .exists, value | .notExists, value => value == .null
  | _, _ => true

namespace PolicyCondition

mutual

/-- The condition is accepted by the model. -/
def valid : PolicyCondition → Bool
  | .leaf operator field value => isFieldPath field && decide (field.length ≤ 512) &&
    operator.accepts value && (boundedCopy 8 2000 value).isOk
  | .all conditions => decide (1 ≤ conditions.length ∧ conditions.length ≤ 64) && allValid conditions
  | .any conditions => decide (1 ≤ conditions.length ∧ conditions.length ≤ 64) && allValid conditions
  | .anyItem field conditions => isFieldPath field && decide (field.length ≤ 512) &&
    decide (1 ≤ conditions.length ∧ conditions.length ≤ 64) && allValid conditions

def allValid : List PolicyCondition → Bool
  | [] => true
  | condition :: rest => valid condition && allValid rest

end

end PolicyCondition

/-! ## Rules -/

/-- `OperatingSystemFamily` -/
inductive OperatingSystemFamily where
  | windows
  | linux
  | macos
  | unknown
  deriving DecidableEq, Repr

def OperatingSystemFamily.value : OperatingSystemFamily → String
  | .windows => "WINDOWS"
  | .linux => "LINUX"
  | .macos => "MACOS"
  | .unknown => "UNKNOWN"

/-- `OperatingSystemFamily(value)`, absent where it raises `ValueError`. -/
def OperatingSystemFamily.of? (value : Value) : Option OperatingSystemFamily :=
  match value with
  | .str s => [windows, linux, macos, unknown].find? fun family => family.value == s
  | _ => none

/-- `^[a-z][a-z0-9_-]*$` -/
def isCategory (text : String) : Bool :=
  match text.toList with
  | [] => false
  | first :: rest => isLower first && rest.all fun c => isLower c || c.isDigit || c == '_' || c == '-'

/-- The fields of a rule. -/
structure RuleFields where
  ruleId : String
  title : String
  severity : Severity
  category : String
  description : String
  condition : PolicyCondition
  remediation : String
  references : List String := []
  evidenceFields : List String := []
  platforms : Finset OperatingSystemFamily := ∅
  scanTypes : Finset Endpoint.ScanType := ∅
  enabled : Bool := true
  tags : Finset String := ∅
  exploitability : Option ℚ := none
  exposure : Option ℚ := none
  complianceImpact : Option ℚ := none

/-- A text of this length, without white space at its ends. -/
structure IsText (least most : Nat) (text : String) : Prop where
  trimmed : Normalization.trim text = text
  bounded : least ≤ text.length ∧ text.length ≤ most

/-- A score that may be absent is between 0 and 1. -/
def IsScore (score : Option ℚ) : Prop := ∀ s ∈ score, 0 ≤ s ∧ s ≤ 1

/-- What the model checks of a rule. -/
structure RuleFields.Accepted (lib : Normalization.Library) (rule : RuleFields) : Prop where
  ruleId : isIdentifier rule.ruleId = true
  title : IsText 1 1024 rule.title
  category : IsText 1 128 rule.category ∧ isCategory rule.category = true
  description : IsText 1 16384 rule.description
  condition : rule.condition.valid = true
  remediation : IsText 1 16384 rule.remediation
  references : rule.references.length ≤ 128 ∧ ∀ reference ∈ rule.references,
    Normalization.validateReference lib (Normalization.trim reference) = .ok reference
  evidenceFields : rule.evidenceFields.length ≤ 128 ∧
    ∀ field ∈ rule.evidenceFields, isFieldPath field = true
  tags : rule.tags.card ≤ 128 ∧
    ∀ tag ∈ rule.tags, Normalization.trim tag = tag ∧ 1 ≤ tag.length ∧ tag.length ≤ 64
  exploitability : IsScore rule.exploitability
  exposure : IsScore rule.exposure
  complianceImpact : IsScore rule.complianceImpact

/-- `PolicyRule` -/
structure PolicyRule (lib : Normalization.Library) extends RuleFields where
  accepted : toRuleFields.Accepted lib

/-- `PolicyBundle` -/
structure PolicyBundle (lib : Normalization.Library) where
  schemaVersion : String := "1.0"
  policyId : String
  rules : List (PolicyRule lib)
  schemaVersion_form : Normalization.isSchemaVersion lib schemaVersion = true ∧
    Normalization.trim schemaVersion = schemaVersion
  policyId_identifier : isIdentifier policyId = true
  size : 1 ≤ rules.length ∧ rules.length ≤ 10000
  unique : (rules.map fun rule => rule.ruleId).Nodup

/-- `EvaluationContext` -/
structure EvaluationContext where
  scanId : String
  endpointId : Option String := none
  asset : Option String := none
  scannerVersion : String := "1.1.0"
  detectedAt : Timestamp
  platform : Option OperatingSystemFamily := none
  scanType : Option Endpoint.ScanType := none
  scanId_identifier : isIdentifier scanId = true
  endpointId_text : ∀ text ∈ endpointId, IsText 0 128 text
  asset_text : ∀ text ∈ asset, IsText 0 2048 text
  scannerVersion_text : IsText 0 64 scannerVersion
  subject : Normalization.present endpointId = true ∨ Normalization.present asset = true

end OsScanner.Policies

import Mathlib
import OsScanner.Lib.Rounding
import OsScanner.Normalization.Validation

/-!
# Risk scoring

`app/analyzers/risk.py`: every active finding adds a penalty to six components, and the score is what
their sum leaves of 100. Floats are exact numbers here.
-/

namespace OsScanner.Analyzers

open Lib Lib.Check Cloud

/-! ## The configuration -/

/-- `Field(ge=0.0, le=1.0)` -/
def IsUnit (x : ℚ) : Prop := 0 ≤ x ∧ x ≤ 1

/-- `_default_severity_penalties()` -/
def defaultSeverityPenalties : Severity → ℚ
  | .critical => 40
  | .high => 25
  | .medium => 12
  | .low => 5
  | .info => 1

/-- `RiskConfiguration` -/
structure RiskConfiguration where
  severityPenalties : Severity → ℚ := defaultSeverityPenalties
  exploitabilityWeight : ℚ := 1 / 4
  assetCriticalityWeight : ℚ := 1 / 5
  exposureWeight : ℚ := 1 / 5
  complianceImpactWeight : ℚ := 1 / 5
  ageWeight : ℚ := 3 / 20
  ageSaturationDays : ℚ := 90
  acknowledgedMultiplier : ℚ := 17 / 20
  healthyMinimum : ℚ := 85
  lowMinimum : ℚ := 70
  mediumMinimum : ℚ := 50
  highMinimum : ℚ := 30
  penalties_range : ∀ severity, 0 ≤ severityPenalties severity ∧ severityPenalties severity ≤ 100
  penalties_descend : severityPenalties .critical ≥ severityPenalties .high ∧
    severityPenalties .high ≥ severityPenalties .medium ∧
    severityPenalties .medium ≥ severityPenalties .low ∧
    severityPenalties .low ≥ severityPenalties .info
  exploitabilityWeight_unit : IsUnit exploitabilityWeight
  assetCriticalityWeight_unit : IsUnit assetCriticalityWeight
  exposureWeight_unit : IsUnit exposureWeight
  complianceImpactWeight_unit : IsUnit complianceImpactWeight
  ageWeight_unit : IsUnit ageWeight
  ageSaturationDays_range : 0 < ageSaturationDays ∧ ageSaturationDays ≤ 3650
  acknowledgedMultiplier_unit : IsUnit acknowledgedMultiplier
  bands : 100 ≥ healthyMinimum ∧ healthyMinimum > lowMinimum ∧ lowMinimum > mediumMinimum ∧
    mediumMinimum > highMinimum ∧ highMinimum ≥ 0

/-! ## Findings and scores -/

/-- `FindingStatus` -/
inductive FindingStatus where
  | opened
  | acknowledged
  | resolved
  | suppressed
  deriving DecidableEq, Repr

/-- A score of a finding that may be absent. -/
def IsUnitOption (x : Option ℚ) : Prop := ∀ y ∈ x, IsUnit y

/-- The fields of a `Finding` that its score depends on. -/
structure ScoredFinding where
  scanId : String
  severity : Severity
  category : String
  detectedAt : Timestamp
  firstSeenAt : Option Timestamp := none
  status : FindingStatus := .opened
  exploitability : Option ℚ := none
  exposure : Option ℚ := none
  complianceImpact : Option ℚ := none
  exploitability_unit : IsUnitOption exploitability
  exposure_unit : IsUnitOption exposure
  complianceImpact_unit : IsUnitOption complianceImpact

/-- `RiskLevel` -/
inductive RiskLevel where
  | healthy
  | low
  | medium
  | high
  | critical
  deriving DecidableEq, Repr

/-- How bad the level is. -/
def RiskLevel.rank : RiskLevel → Nat
  | .healthy => 0
  | .low => 1
  | .medium => 2
  | .high => 3
  | .critical => 4

/-- `RiskScore` -/
structure RiskScore where
  scannerVersion : String
  scanId : String
  score : ℚ
  level : RiskLevel
  riskPenalty : ℚ
  findingCounts : Severity → Nat
  factors : List (String × ℚ)
  policyVersion : Option String
  calculatedAt : Timestamp

/-- The keyword arguments of `calculate`, with the instant that `now` stands for. -/
structure Circumstances where
  scanId : Option String := none
  assetCriticality : ℚ := 1 / 2
  exposure : ℚ := 1 / 2
  now : Timestamp
  policyVersion : Option String := none
  scannerVersion : String := "1.1.0"

/-! ## The engine -/

namespace ScoredFinding

variable (finding : ScoredFinding)

def isActive : Bool := decide (finding.status ≠ .resolved ∧ finding.status ≠ .suppressed)

/-- `finding.exploitability or 0.0` -/
def exploitabilityFactor : ℚ := finding.exploitability.getD 0

/-- `max(exposure, finding.exposure or 0.0)` -/
def exposureFactor (exposure : ℚ) : ℚ := max exposure (finding.exposure.getD 0)

def complianceFactor : ℚ :=
  finding.complianceImpact.getD (if finding.category = "compliance" then 1 else 0)

/-- `finding.first_seen_at or finding.detected_at` -/
def ageOrigin : Timestamp := finding.firstSeenAt.getD finding.detectedAt

/-- `max(0.0, (instant - age_origin).total_seconds() / 86_400.0)` -/
def ageDays (instant : Timestamp) : ℚ := max 0 ((instant - finding.ageOrigin : ℤ) / 1000000 / 86400)

end ScoredFinding

/-- `components` -/
@[ext] structure Components where
  baseSeverity : ℚ := 0
  exploitability : ℚ := 0
  assetCriticality : ℚ := 0
  exposure : ℚ := 0
  complianceImpact : ℚ := 0
  findingAge : ℚ := 0

/-- `sum(components.values())` -/
def Components.total (c : Components) : ℚ :=
  c.baseSeverity + c.exploitability + c.assetCriticality + c.exposure + c.complianceImpact +
    c.findingAge

/-- The rounded components under their names. -/
def Components.factors (c : Components) : List (String × ℚ) :=
  [("base_severity", roundTo 4 c.baseSeverity),
    ("exploitability", roundTo 4 c.exploitability),
    ("asset_criticality", roundTo 4 c.assetCriticality),
    ("exposure", roundTo 4 c.exposure),
    ("compliance_impact", roundTo 4 c.complianceImpact),
    ("finding_age", roundTo 4 c.findingAge)]

namespace RiskConfiguration

variable (config : RiskConfiguration)

/-- The penalty of the severity, less for what has been acknowledged. -/
def base (finding : ScoredFinding) : ℚ :=
  if finding.status = .acknowledged then
    config.severityPenalties finding.severity * config.acknowledgedMultiplier
  else config.severityPenalties finding.severity

/-- `min(1.0, age_days / self.config.age_saturation_days)` -/
def ageFactor (finding : ScoredFinding) (instant : Timestamp) : ℚ :=
  min 1 (finding.ageDays instant / config.ageSaturationDays)

/-- The body of the loop over the active findings. -/
def addFinding (circumstances : Circumstances) (c : Components) (finding : ScoredFinding) :
    Components where
  baseSeverity := c.baseSeverity + config.base finding
  exploitability := c.exploitability +
    config.base finding * config.exploitabilityWeight * finding.exploitabilityFactor
  assetCriticality := c.assetCriticality +
    config.base finding * config.assetCriticalityWeight * circumstances.assetCriticality
  exposure := c.exposure +
    config.base finding * config.exposureWeight * finding.exposureFactor circumstances.exposure
  complianceImpact := c.complianceImpact +
    config.base finding * config.complianceImpactWeight * finding.complianceFactor
  findingAge := c.findingAge +
    config.base finding * config.ageWeight * config.ageFactor finding circumstances.now

/-- The components of these findings together. -/
def components (circumstances : Circumstances) (active : List ScoredFinding) : Components :=
  active.foldl (config.addFinding circumstances) {}

/-- `level_for_score(score)` -/
def levelForScore (score : ℚ) : Except String RiskLevel := do
  Check.raiseIf (¬ (0 ≤ score ∧ score ≤ 100)) "score must be between 0 and 100"
  if score ≥ config.healthyMinimum then .ok .healthy
  else if score ≥ config.lowMinimum then .ok .low
  else if score ≥ config.mediumMinimum then .ok .medium
  else if score ≥ config.highMinimum then .ok .high
  else .ok .critical

end RiskConfiguration

/-- The scan that the findings belong to. -/
def inferScanId (findings : List ScoredFinding) (scanId : Option String) : Except String String :=
  let inferred := (findings.map fun finding => finding.scanId).dedup
  match scanId with
  | none =>
    match inferred with
    | [only] => .ok only
    | _ => .error "scan_id is required when findings are empty or span multiple scans"
  | some scanId => do
    Check.raiseIf (inferred ≠ [] ∧ inferred ≠ [scanId])
      "all findings must belong to the requested scan_id"
    .ok scanId

/-- What `RiskScore` checks; an error names the field. -/
def RiskScore.validate (lib : Normalization.Library) (score : RiskScore) : Except String RiskScore := do
  Check.raiseIf (Normalization.isScannerVersion lib (Normalization.trim score.scannerVersion) = false)
    "scanner_version"
  Check.raiseIf (isIdentifier (Normalization.trim score.scanId) = false) "scan_id"
  Check.raiseIf (¬ (0 ≤ score.score ∧ score.score ≤ 100)) "score"
  Check.raiseIf (¬ (0 ≤ score.riskPenalty ∧ score.riskPenalty ≤ 100)) "risk_penalty"
  Check.raiseIf (Normalization.shortText 64 score.policyVersion = false) "policy_version"
  .ok { score with
    scannerVersion := Normalization.trim score.scannerVersion
    scanId := Normalization.trim score.scanId
    policyVersion := score.policyVersion.map Normalization.trim }

/-- `RiskEngine(config).calculate(findings, …)` -/
def calculate (lib : Normalization.Library) (config : RiskConfiguration)
    (findings : List ScoredFinding) (circumstances : Circumstances) : Except String RiskScore := do
  Check.raiseIf (¬ (0 ≤ circumstances.assetCriticality ∧ circumstances.assetCriticality ≤ 1))
    "asset_criticality must be between 0 and 1"
  Check.raiseIf (¬ (0 ≤ circumstances.exposure ∧ circumstances.exposure ≤ 1))
    "exposure must be between 0 and 1"
  let scanId ← inferScanId findings circumstances.scanId
  let active := findings.filter fun finding => finding.isActive
  let components := config.components circumstances active
  let riskPenalty := min 100 components.total
  let score := roundTo 2 (max 0 (100 - riskPenalty))
  let level ← config.levelForScore score
  RiskScore.validate lib
    { scannerVersion := circumstances.scannerVersion
      scanId := scanId
      score := score
      level := level
      riskPenalty := roundTo 2 riskPenalty
      findingCounts := fun severity => active.countP fun finding => finding.severity = severity
      factors := components.factors ++
        [("active_findings", (active.length : ℚ)), ("raw_penalty", roundTo 4 components.total)]
      policyVersion := circumstances.policyVersion
      calculatedAt := circumstances.now }

end OsScanner.Analyzers

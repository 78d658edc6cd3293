import Mathlib
import OsScanner.Analyzers.Risk

/-!
# What a risk score depends on

The penalty of a list of findings is the sum of the penalties of the active ones, each of which is
not negative. The score is 100 less this sum, and less than nothing is nothing; rounding and the
bands keep the order of penalties.
-/

namespace OsScanner.Analyzers

open Lib Lib.Check

open Cloud (Severity)

/-! ## The penalty of a finding -/

section Penalty

variable (config : RiskConfiguration) (circumstances : Circumstances)

/-- What a finding adds to the total. -/
def penalty (finding : ScoredFinding) : ℚ :=
  config.base finding * (1 + config.exploitabilityWeight * finding.exploitabilityFactor +
    config.assetCriticalityWeight * circumstances.assetCriticality +
    config.exposureWeight * finding.exposureFactor circumstances.exposure +
    config.complianceImpactWeight * finding.complianceFactor +
    config.ageWeight * config.ageFactor finding circumstances.now)

/-- What an active finding adds; the others add nothing. -/
def contribution (finding : ScoredFinding) : ℚ :=
  if finding.isActive then penalty config circumstances finding else 0

variable {config circumstances}

theorem total_addFinding (c : Components) (finding : ScoredFinding) :
    (config.addFinding circumstances c finding).total =
      c.total + penalty config circumstances finding := by
  simp only [RiskConfiguration.addFinding, Components.total, penalty]
  ring

/-- The total of the components is the sum of the penalties. -/
theorem total_components (active : List ScoredFinding) : (config.components circumstances active).total =
    (active.map (penalty config circumstances)).sum := by
  have hfold : ∀ c : Components, (active.foldl (config.addFinding circumstances) c).total =
      c.total + (active.map (penalty config circumstances)).sum := by
    induction active with
    | nil => simp
    | cons finding active ih =>
      intro c
      rw [List.foldl_cons, ih, total_addFinding, List.map_cons, List.sum_cons]
      ring
  rw [RiskConfiguration.components, hfold]
  simp [Components.total]

theorem total_active (findings : List ScoredFinding) :
    (config.components circumstances (findings.filter fun finding => finding.isActive)).total =
      (findings.map (contribution config circumstances)).sum := by
  rw [total_components]
  induction findings with
  | nil => rfl
  | cons finding findings ih =>
    rw [List.filter_cons, List.map_cons, List.sum_cons, ← ih, contribution]
    split
    · rw [List.map_cons, List.sum_cons]
    · rw [zero_add]

theorem addFinding_right_comm (c : Components) (f g : ScoredFinding) :
    config.addFinding circumstances (config.addFinding circumstances c f) g =
      config.addFinding circumstances (config.addFinding circumstances c g) f := by
  ext <;> exact add_right_comm _ _ _

theorem components_perm {active active' : List ScoredFinding} (h : active.Perm active') :
    config.components circumstances active = config.components circumstances active' :=
  h.foldl_eq' (fun f _ g _ c => addFinding_right_comm c f g) _

/-! ## Findings that are at least as bad -/

/-- How grave the severity is. -/
def gravity : Severity → Nat
  | .info => 0
  | .low => 1
  | .medium => 2
  | .high => 3
  | .critical => 4

/-- The second finding is the first one with its severity or a factor raised, or opened again. -/
structure Raised (finding finding' : ScoredFinding) : Prop where
  severity : gravity finding.severity ≤ gravity finding'.severity
  status : finding'.status = finding.status ∨
    finding.status = .acknowledged ∧ finding'.status = .opened
  exploitability : finding.exploitabilityFactor ≤ finding'.exploitabilityFactor
  exposure : finding.exposure.getD 0 ≤ finding'.exposure.getD 0
  complianceImpact : finding.complianceFactor ≤ finding'.complianceFactor
  age : finding'.ageOrigin ≤ finding.ageOrigin

theorem Raised.refl (finding : ScoredFinding) : Raised finding finding :=
  ⟨le_rfl, Or.inl rfl, le_rfl, le_rfl, le_rfl, le_rfl⟩

variable (config) in
theorem penalties_mono {severity severity' : Severity} (h : gravity severity ≤ gravity severity') :
    config.severityPenalties severity ≤ config.severityPenalties severity' := by
  obtain ⟨hcritical, hhigh, hmedium, hlow⟩ := config.penalties_descend
  cases severity <;> cases severity' <;> simp only [gravity] at h <;> first | omega | linarith

theorem base_nonneg (finding : ScoredFinding) : 0 ≤ config.base finding := by
  have hpenalty := (config.penalties_range finding.severity).1
  unfold RiskConfiguration.base
  split
  · exact mul_nonneg hpenalty config.acknowledgedMultiplier_unit.1
  · exact hpenalty

theorem Raised.base {finding finding' : ScoredFinding} (h : Raised finding finding') :
    config.base finding ≤ config.base finding' := by
  have hpenalty := (config.penalties_range finding.severity).1
  have hmono := penalties_mono config h.severity
  obtain ⟨hmultiplier, hmultiplier'⟩ := config.acknowledgedMultiplier_unit
  unfold RiskConfiguration.base
  rcases h.status with hstatus | ⟨hstatus, hstatus'⟩
  · rw [hstatus]
    split
    · exact mul_le_mul_of_nonneg_right hmono hmultiplier
    · exact hmono
  · rw [hstatus, hstatus', if_pos rfl, if_neg (by decide)]
    exact (mul_le_of_le_one_right hpenalty hmultiplier').trans hmono

variable (config) in
theorem ageFactor_nonneg (finding : ScoredFinding) (instant : Timestamp) :
    0 ≤ config.ageFactor finding instant :=
  le_min zero_le_one (div_nonneg (le_max_left _ _) config.ageSaturationDays_range.1.le)

variable (config) in
theorem Raised.ageFactor {finding finding' : ScoredFinding} (h : Raised finding finding')
    (instant : Timestamp) : config.ageFactor finding instant ≤ config.ageFactor finding' instant := by
  have horigin : ((instant - finding.ageOrigin : ℤ) : ℚ) ≤ ((instant - finding'.ageOrigin : ℤ) : ℚ) := by
    exact_mod_cast Int.sub_le_sub_left h.age instant
  have hdays : finding.ageDays instant ≤ finding'.ageDays instant := by
    unfold ScoredFinding.ageDays
    gcongr
  exact min_le_min_left _ (div_le_div_of_nonneg_right hdays config.ageSaturationDays_range.1.le)

theorem exploitabilityFactor_nonneg (finding : ScoredFinding) : 0 ≤ finding.exploitabilityFactor := by
  unfold ScoredFinding.exploitabilityFactor
  cases h : finding.exploitability with
  | none => exact le_rfl
  | some x => exact (finding.exploitability_unit x h).1

theorem complianceFactor_nonneg (finding : ScoredFinding) : 0 ≤ finding.complianceFactor := by
  unfold ScoredFinding.complianceFactor
  cases h : finding.complianceImpact with
  | none =>
    show (0 : ℚ) ≤ if finding.category = "compliance" then 1 else 0
    split <;> norm_num
  | some x => exact (finding.complianceImpact_unit x h).1

/-- The circumstances that `calculate` accepts. -/
structure Circumstances.Accepted (circumstances : Circumstances) : Prop where
  assetCriticality : IsUnit circumstances.assetCriticality
  exposure : IsUnit circumstances.exposure

variable (hc : circumstances.Accepted)

include hc

theorem exposureFactor_nonneg (finding : ScoredFinding) :
    0 ≤ finding.exposureFactor circumstances.exposure :=
  le_max_of_le_left hc.exposure.1

theorem penalty_nonneg (finding : ScoredFinding) : 0 ≤ penalty config circumstances finding := by
  have hexploitability := mul_nonneg config.exploitabilityWeight_unit.1
    (exploitabilityFactor_nonneg finding)
  have hasset := mul_nonneg config.assetCriticalityWeight_unit.1 hc.assetCriticality.1
  have hexposure := mul_nonneg config.exposureWeight_unit.1 (exposureFactor_nonneg hc finding)
  have hcompliance := mul_nonneg config.complianceImpactWeight_unit.1
    (complianceFactor_nonneg finding)
  have hage := mul_nonneg config.ageWeight_unit.1
    (ageFactor_nonneg config finding circumstances.now)
  exact mul_nonneg (base_nonneg finding) (by linarith)

theorem Raised.penalty {finding finding' : ScoredFinding} (h : Raised finding finding') :
    penalty config circumstances finding ≤ Analyzers.penalty config circumstances finding' := by
  have hexposure : finding.exposureFactor circumstances.exposure ≤
      finding'.exposureFactor circumstances.exposure := max_le_max_left _ h.exposure
  have hage := h.ageFactor config circumstances.now
  have hfactors : config.exploitabilityWeight * finding.exploitabilityFactor ≤
      config.exploitabilityWeight * finding'.exploitabilityFactor :=
    mul_le_mul_of_nonneg_left h.exploitability config.exploitabilityWeight_unit.1
  have hfactors₂ := mul_le_mul_of_nonneg_left hexposure config.exposureWeight_unit.1
  have hfactors₃ := mul_le_mul_of_nonneg_left h.complianceImpact config.complianceImpactWeight_unit.1
  have hfactors₄ := mul_le_mul_of_nonneg_left hage config.ageWeight_unit.1
  have hasset := mul_nonneg config.assetCriticalityWeight_unit.1 hc.assetCriticality.1
  have hage' := mul_nonneg config.ageWeight_unit.1
    (ageFactor_nonneg config finding circumstances.now)
  have hcompliance := mul_nonneg config.complianceImpactWeight_unit.1
    (complianceFactor_nonneg finding)
  have hexploitability := mul_nonneg config.exploitabilityWeight_unit.1
    (exploitabilityFactor_nonneg finding)
  have hexposure' := mul_nonneg config.exposureWeight_unit.1 (exposureFactor_nonneg hc finding)
  exact mul_le_mul h.base (by linarith) (by linarith) (base_nonneg finding')

theorem contribution_nonneg (finding : ScoredFinding) :
    0 ≤ contribution config circumstances finding := by
  unfold contribution
  split
  · exact penalty_nonneg hc finding
  · exact le_rfl

theorem Raised.contribution {finding finding' : ScoredFinding} (h : Raised finding finding') :
    contribution config circumstances finding ≤
      Analyzers.contribution config circumstances finding' := by
  unfold Analyzers.contribution
  split
  · next hactive =>
    have hactive' : finding'.isActive = true := by
      rcases h.status with hstatus | ⟨-, hstatus⟩
      · rwa [ScoredFinding.isActive, hstatus]
      · rw [ScoredFinding.isActive, hstatus]
        rfl
    rw [if_pos hactive']
    exact h.penalty hc
  · split
    · exact penalty_nonneg hc finding'
    · exact le_rfl

/-- More findings, or worse ones, have no smaller penalty. -/
theorem sum_contribution_mono {findings findings' : List ScoredFinding}
    (h : List.SublistForall₂ Raised findings findings') :
    (findings.map (contribution config circumstances)).sum ≤
      (findings'.map (contribution config circumstances)).sum := by
  induction h with
  | nil =>
    refine List.sum_nonneg fun x hx => ?_
    obtain ⟨finding, -, rfl⟩ := List.mem_map.mp hx
    exact contribution_nonneg hc finding
  | cons hraised _ ih =>
    rw [List.map_cons, List.map_cons, List.sum_cons, List.sum_cons]
    exact add_le_add (hraised.contribution hc) ih
  | cons_right _ ih =>
    rw [List.map_cons, List.sum_cons]
    exact ih.trans (le_add_of_nonneg_left (contribution_nonneg hc _))

end Penalty

/-! ## The score -/

section Score

variable {lib : Normalization.Library} {config : RiskConfiguration} {circumstances : Circumstances}
  {findings findings' : List ScoredFinding} {score score' : RiskScore}

/-- The level of a score between 0 and 100. -/
def levelOf (config : RiskConfiguration) (score : ℚ) : RiskLevel :=
  if score ≥ config.healthyMinimum then .healthy
  else if score ≥ config.lowMinimum then .low
  else if score ≥ config.mediumMinimum then .medium
  else if score ≥ config.highMinimum then .high
  else .critical

theorem levelForScore_eq_ok {x : ℚ} {level : RiskLevel} : config.levelForScore x = .ok level ↔
    (0 ≤ x ∧ x ≤ 100) ∧ levelOf config x = level := by
  rw [RiskConfiguration.levelForScore, bind_unit_eq_ok, raiseIf_eq_ok, not_not, levelOf]
  refine and_congr_right fun _ => ?_
  split_ifs <;> rw [Except.ok.injEq]

theorem rank_levelOf_anti {x y : ℚ} (h : x ≤ y) :
    (levelOf config y).rank ≤ (levelOf config x).rank := by
  obtain ⟨-, hhealthy, hlow, hmedium, -⟩ := config.bands
  unfold levelOf
  split_ifs <;> simp only [RiskLevel.rank] <;> first | omega | linarith

/-- The sum of the penalties of the active findings. -/
def rawPenalty (config : RiskConfiguration) (circumstances : Circumstances)
    (findings : List ScoredFinding) : ℚ :=
  (findings.map (contribution config circumstances)).sum

/-- The score before it is rounded. -/
def health (raw : ℚ) : ℚ := max 0 (100 - min 100 raw)

theorem health_anti {raw raw' : ℚ} (h : raw ≤ raw') : health raw' ≤ health raw :=
  max_le_max_left _ (sub_le_sub_left (min_le_min_left _ h) _)

theorem roundTo_range {x : ℚ} (h : 0 ≤ x ∧ x ≤ 100) : 0 ≤ roundTo 2 x ∧ roundTo 2 x ≤ 100 := by
  have hlow : roundTo 2 ((0 : ℤ) : ℚ) ≤ roundTo 2 x := roundTo_mono (by simpa using h.1)
  have hhigh : roundTo 2 x ≤ roundTo 2 ((100 : ℤ) : ℚ) := roundTo_mono (by simpa using h.2)
  rw [roundTo_intCast] at hlow hhigh
  exact ⟨by simpa using hlow, by simpa using hhigh⟩

theorem health_range {raw : ℚ} (hraw : 0 ≤ raw) : 0 ≤ health raw ∧ health raw ≤ 100 := by
  have hpenalty : 0 ≤ min 100 raw := le_min (by norm_num) hraw
  exact ⟨le_max_left _ _, max_le (by norm_num) (by linarith)⟩

/-- `calculate` returns exactly when its arguments are in order. -/
theorem calculate_isOk : (∃ score, calculate lib config findings circumstances = .ok score) ↔
    circumstances.Accepted ∧
      (∃ scanId, inferScanId findings circumstances.scanId = .ok scanId ∧
        Cloud.isIdentifier (Normalization.trim scanId) = true) ∧
      Normalization.isScannerVersion lib (Normalization.trim circumstances.scannerVersion) = true ∧
      Normalization.shortText 64 circumstances.policyVersion = true := by
  simp only [calculate, RiskScore.validate, bind_eq_ok, raiseIf_eq_ok, exists_const, not_not,
    Bool.not_eq_false, Except.ok.injEq, total_active]
  constructor
  · rintro ⟨score, hasset, hexposure, scanId, hscanId, level, -, hversion, hid, -, -, hpolicy, -⟩
    exact ⟨⟨hasset, hexposure⟩, ⟨scanId, hscanId, hid⟩, hversion, hpolicy⟩
  · rintro ⟨haccepted, ⟨scanId, hscanId, hid⟩, hversion, hpolicy⟩
    have hraw : 0 ≤ (findings.map (contribution config circumstances)).sum := by
      refine List.sum_nonneg fun x hx => ?_
      obtain ⟨finding, -, rfl⟩ := List.mem_map.mp hx
      exact contribution_nonneg haccepted finding
    have hscore := roundTo_range (health_range hraw)
    have hpenalty : 0 ≤ min 100 (findings.map (contribution config circumstances)).sum :=
      le_min (by norm_num) hraw
    exact ⟨_, haccepted.assetCriticality, haccepted.exposure, scanId, hscanId, _,
      levelForScore_eq_ok.mpr ⟨hscore, rfl⟩, hversion, hid, hscore,
      roundTo_range ⟨hpenalty, min_le_left _ _⟩, hpolicy, rfl⟩

/-- What `calculate` has checked, and what it returns. -/
theorem calculate_eq_ok (h : calculate lib config findings circumstances = .ok score) :
    circumstances.Accepted ∧
      score.score = roundTo 2 (health (rawPenalty config circumstances findings)) ∧
      score.riskPenalty = roundTo 2 (min 100 (rawPenalty config circumstances findings)) ∧
      score.level = levelOf config score.score ∧ 0 ≤ score.score ∧ score.score ≤ 100 := by
  simp only [calculate, RiskScore.validate, bind_eq_ok, raiseIf_eq_ok, exists_const, not_not,
    Except.ok.injEq] at h
  obtain ⟨hasset, hexposure, scanId, -, level, hlevel, -, -, -, -, -, rfl⟩ := h
  rw [total_active] at hlevel ⊢
  obtain ⟨hrange, rfl⟩ := levelForScore_eq_ok.mp hlevel
  exact ⟨⟨hasset, hexposure⟩, rfl, rfl, rfl, hrange⟩

theorem inferScanId_perm (h : findings.Perm findings') (scanId : Option String) :
    inferScanId findings scanId = inferScanId findings' scanId := by
  have hids : (findings.map fun finding => finding.scanId).dedup.Perm
      (findings'.map fun finding => finding.scanId).dedup := (h.map _).dedup
  have hsingle : ∀ only, (findings.map fun finding => finding.scanId).dedup = [only] ↔
      (findings'.map fun finding => finding.scanId).dedup = [only] := by
    intro only
    constructor
    · intro heq
      rw [heq] at hids
      exact List.perm_singleton.mp hids.symm
    · intro heq
      rw [heq] at hids
      exact List.perm_singleton.mp hids
  have hnil : (findings.map fun finding => finding.scanId).dedup = [] ↔
      (findings'.map fun finding => finding.scanId).dedup = [] := by
    rw [← List.length_eq_zero_iff, hids.length_eq, List.length_eq_zero_iff]
  cases scanId with
  | none =>
    unfold inferScanId
    by_cases hone : ∃ only, (findings.map fun finding => finding.scanId).dedup = [only]
    · obtain ⟨only, hone⟩ := hone
      simp only [hone, (hsingle only).mp hone]
    · have hone' : ¬ ∃ only, (findings'.map fun finding => finding.scanId).dedup = [only] := by
        rintro ⟨only, heq⟩
        exact hone ⟨only, (hsingle only).mpr heq⟩
      simp only []
      split
      · next heq => exact absurd ⟨_, heq⟩ hone
      · split
        · next heq => exact absurd ⟨_, heq⟩ hone'
        · rfl
  | some scanId =>
    simp only [inferScanId, ne_eq, hnil, hsingle scanId]

/-- The order of the findings has no influence on what `calculate` returns or raises. -/
theorem calculate_perm (h : findings.Perm findings') :
    calculate lib config findings circumstances = calculate lib config findings' circumstances := by
  have hactive := h.filter fun finding => finding.isActive
  have hcounts : ∀ severity, (findings.filter fun finding => finding.isActive).countP
      (fun finding => finding.severity = severity) =
        (findings'.filter fun finding => finding.isActive).countP
          fun finding => finding.severity = severity := fun severity => hactive.countP_eq _
  simp only [calculate, inferScanId_perm h, components_perm hactive, hcounts, hactive.length_eq]

/-- The rounded score and the rounded penalty make 100. -/
theorem roundTo_health_add (raw : ℚ) :
    roundTo 2 (health raw) + roundTo 2 (min 100 raw) = 100 := by
  have hpenalty : min 100 raw ≤ 100 := min_le_left _ _
  have hhealth : health raw = ((100 : ℤ) : ℚ) - min 100 raw := by
    rw [health, max_eq_right (by linarith)]
    norm_num
  rw [hhealth, roundTo_sub two_ne_zero]
  push_cast
  ring

/--
The order of the findings does not matter. More findings, findings raised in severity or a factor, and
findings opened again have no better score and no better level. Findings that are not active do not
matter. The score is between 0 and 100, and it is what the penalty leaves of 100.
-/
theorem risk_score_laws (lib : Normalization.Library) (config : RiskConfiguration)
    (circumstances : Circumstances) :
    (∀ findings findings' : List ScoredFinding, findings.Perm findings' →
      calculate lib config findings circumstances = calculate lib config findings' circumstances) ∧
    (∀ (findings findings' : List ScoredFinding) (score score' : RiskScore),
      List.SublistForall₂ Raised findings findings' →
      calculate lib config findings circumstances = .ok score →
      calculate lib config findings' circumstances = .ok score' →
        score'.score ≤ score.score ∧ score.level.rank ≤ score'.level.rank) ∧
    (∀ (findings findings' : List ScoredFinding) (score score' : RiskScore),
      findings.filter (fun finding => finding.isActive) =
        findings'.filter (fun finding => finding.isActive) →
      calculate lib config findings circumstances = .ok score →
      calculate lib config findings' circumstances = .ok score' →
        score'.score = score.score ∧ score'.level = score.level) ∧
    ∀ (findings : List ScoredFinding) (score : RiskScore),
      calculate lib config findings circumstances = .ok score →
        0 ≤ score.score ∧ score.score ≤ 100 ∧ score.score + score.riskPenalty = 100 := by
  refine ⟨fun _ _ h => calculate_perm h, ?_, ?_, ?_⟩
  · intro findings findings' score score' hworse h h'
    obtain ⟨haccepted, hscore, -, hlevel, -⟩ := calculate_eq_ok h
    obtain ⟨-, hscore', -, hlevel', -⟩ := calculate_eq_ok h'
    have hle : score'.score ≤ score.score := by
      rw [hscore, hscore']
      exact roundTo_mono (health_anti (sum_contribution_mono haccepted hworse))
    exact ⟨hle, by rw [hlevel, hlevel']; exact rank_levelOf_anti hle⟩
  · intro findings findings' score score' hactive h h'
    obtain ⟨-, hscore, -, hlevel, -⟩ := calculate_eq_ok h
    obtain ⟨-, hscore', -, hlevel', -⟩ := calculate_eq_ok h'
    have heq : score'.score = score.score := by
      rw [hscore, hscore', rawPenalty, rawPenalty, ← total_active, ← total_active, hactive]
    exact ⟨heq, by rw [hlevel, hlevel', heq]⟩
  · intro findings score h
    obtain ⟨-, hscore, hpenalty, -, hrange, hrange'⟩ := calculate_eq_ok h
    refine ⟨hrange, hrange', ?_⟩
    rw [hscore, hpenalty]
    exact roundTo_health_add _

end Score

end OsScanner.Analyzers

import Mathlib
import OsScanner.Analyzers.Posture

/-!
# Unknown booleans of the posture

A boolean that nothing was observed of stays unknown, and is false only where its inputs are known,
except where a baseline says what must be there: a required agent or service that the observed
sections do not show is missing.
-/

namespace OsScanner.Analyzers

open Lib

/-! ## The statements -/

section

variable (rt : Runtime) (settings : AnalysisSettings) (inventory : Inventory)

/-- What the security section says of a boolean. -/
def told (flag : PostureFlag) : Option Bool := (inventory.security.getD {}).flags flag

/-- The dump that is compared with the approved posture. -/
def observedFacts : JsonObject := (derivedPosture rt settings inventory).dump

def guests : List User := inventory.users.entries.filter fun user => user.isGuest

/-- A section that contributes to the boolean carries evidence. -/
def HasEvidence : PostureFlag → Prop
  | .excessiveAdministratorAccounts =>
    inventory.users.entries ≠ [] ∨ told inventory .excessiveAdministratorAccounts ≠ none
  | .insecureConfiguration =>
    inventory.users.entries ≠ [] ∨ told inventory .insecureConfiguration ≠ none
  | .guestAccountEnabled =>
    guestStates inventory ≠ [] ∨ told inventory .guestAccountEnabled ≠ none
  | .securityAgentInstalled =>
    (requiredAgents rt settings ≠ ∅ ∧
        (inventory.security.isSome = true ∨ inventory.services.isSome = true)) ∨
      told inventory .securityAgentInstalled ≠ none
  | .securityAgentRunning =>
    (requiredAgents rt settings ≠ ∅ ∧
        (inventory.security.isSome = true ∨ inventory.services.isSome = true)) ∨
      told inventory .securityAgentRunning ≠ none
  | .securityServiceEnabled =>
    (requiredServices rt settings ≠ ∅ ∧ inventory.services.isSome = true) ∨
      told inventory .securityServiceEnabled ≠ none
  | .securityServiceRunning =>
    (requiredServices rt settings ≠ ∅ ∧ inventory.services.isSome = true) ∨
      told inventory .securityServiceRunning ≠ none
  | .suspiciousListeningPortDetected =>
    inventory.listeningPorts.isSome = true ∨ told inventory .suspiciousListeningPortDetected ≠ none
  | .suspiciousServiceDetected =>
    inventory.services.isSome = true ∨ told inventory .suspiciousServiceDetected ≠ none
  | .suspiciousScheduledTaskDetected =>
    inventory.persistence.isSome = true ∨ told inventory .suspiciousScheduledTaskDetected ≠ none
  | .suspiciousStartupItemDetected =>
    inventory.persistence.isSome = true ∨ told inventory .suspiciousStartupItemDetected ≠ none
  | .configurationDrift =>
    (∃ fact ∈ settings.approvedSecurityPosture, (observedFacts rt settings inventory).get fact.1 ≠ .null) ∨
      (settings.approvedSecurityPosture = [] ∧ told inventory .configurationDrift ≠ none)
  | flag => told inventory flag ≠ none

/-- Each input of the boolean is known. -/
def InputsKnown : PostureFlag → Prop
  | .insecureConfiguration =>
    inventory.users.entries ≠ [] ∧ told inventory .insecureConfiguration ≠ none
  | .guestAccountEnabled =>
    (guests inventory ≠ [] ∧ ∀ user ∈ guests inventory, user.enabled ≠ none) ∨
      told inventory .guestAccountEnabled ≠ none
  | .securityAgentInstalled =>
    (requiredAgents rt settings ≠ ∅ ∧ inventory.security.isSome = true ∧
        inventory.services.isSome = true) ∨
      (requiredAgents rt settings = ∅ ∧ told inventory .securityAgentInstalled ≠ none)
  | .securityAgentRunning =>
    (requiredAgents rt settings ≠ ∅ ∧ inventory.security.isSome = true ∧
        inventory.services.isSome = true) ∨
      (requiredAgents rt settings = ∅ ∧ told inventory .securityAgentRunning ≠ none)
  | .securityServiceEnabled =>
    (requiredServices rt settings ≠ ∅ ∧ inventory.services.isSome = true ∧
        ∀ name ∈ requiredServices rt settings, ∀ service ∈ serviceNamed rt inventory name,
          startupState rt service ≠ none) ∨
      (requiredServices rt settings = ∅ ∧ told inventory .securityServiceEnabled ≠ none)
  | .securityServiceRunning =>
    (requiredServices rt settings ≠ ∅ ∧ inventory.services.isSome = true ∧
        ∀ name ∈ requiredServices rt settings, ∀ service ∈ serviceNamed rt inventory name,
          service.state ≠ .unknown) ∨
      (requiredServices rt settings = ∅ ∧ told inventory .securityServiceRunning ≠ none)
  | .configurationDrift =>
    (settings.approvedSecurityPosture ≠ [] ∧ ∀ fact ∈ settings.approvedSecurityPosture,
        (observedFacts rt settings inventory).get fact.1 ≠ .null) ∨
      (settings.approvedSecurityPosture = [] ∧ told inventory .configurationDrift ≠ none)
  | flag => HasEvidence rt settings inventory flag

/-- Unknown stays unknown for one boolean. -/
structure StaysUnknown (flag : PostureFlag) : Prop where
  unknown : ¬ HasEvidence rt settings inventory flag →
    (analyzedPosture rt settings inventory).flags flag = none
  known : (analyzedPosture rt settings inventory).flags flag = some false →
    InputsKnown rt settings inventory flag

/-- The booleans whose inputs a baseline or a filter of the analyzer weighs. -/
def weighed : List PostureFlag :=
  [.insecureConfiguration, .guestAccountEnabled, .securityAgentInstalled, .securityAgentRunning,
    .securityServiceEnabled, .securityServiceRunning, .configurationDrift]

/-- A required service is missing, or known as disabled. -/
def Lacking : Prop :=
  ∃ name ∈ requiredServices rt settings, serviceNamed rt inventory name = none ∨
    ∃ state ∈ startupOf rt inventory name, state ∈ disabledStartupTypes

/-- What the analyzer owes to the booleans. -/
structure PostureSound : Prop where
  staysUnknown : ∀ flag ∉ weighed, StaysUnknown rt settings inventory flag
  /-- Guest accounts of unknown state are passed over. -/
  guest_unknown : ¬ HasEvidence rt settings inventory .guestAccountEnabled →
    (analyzedPosture rt settings inventory).flags .guestAccountEnabled = none
  guest_known : (analyzedPosture rt settings inventory).flags .guestAccountEnabled = some false →
    (guestStates inventory ≠ [] ∧ ∀ state ∈ guestStates inventory, state = false) ∨
      (guestStates inventory = [] ∧ told inventory .guestAccountEnabled = some false)
  /-- Without a baseline the security section tells. -/
  agents_told : requiredAgents rt settings = ∅ →
    (analyzedPosture rt settings inventory).flags .securityAgentInstalled =
        told inventory .securityAgentInstalled ∧
      (analyzedPosture rt settings inventory).flags .securityAgentRunning =
        told inventory .securityAgentRunning
  services_told : requiredServices rt settings = ∅ →
    (analyzedPosture rt settings inventory).flags .securityServiceEnabled =
        told inventory .securityServiceEnabled ∧
      (analyzedPosture rt settings inventory).flags .securityServiceRunning =
        told inventory .securityServiceRunning
  drift_told : settings.approvedSecurityPosture = [] →
    (analyzedPosture rt settings inventory).flags .configurationDrift =
      told inventory .configurationDrift
  /-- A required agent that the sections do not show is missing. -/
  agents : requiredAgents rt settings ≠ ∅ →
    (analyzedPosture rt settings inventory).flags .securityAgentInstalled =
        some (decide (requiredAgents rt settings ⊆
          installedAgents rt settings inventory (inventory.security.getD {}))) ∧
      (analyzedPosture rt settings inventory).flags .securityAgentRunning =
        some (decide (requiredAgents rt settings ⊆
          runningAgents rt settings inventory (inventory.security.getD {})))
  /-- So is a required service, and one whose state is unknown does not run. -/
  services_running : requiredServices rt settings ≠ ∅ →
    (analyzedPosture rt settings inventory).flags .securityServiceRunning =
      some (decide (∀ name ∈ requiredServices rt settings, isRunning rt inventory name = true))
  /-- A required service that is missing or known as disabled is not enabled; otherwise, while the
  startup of one is unknown, the security section tells. -/
  services_lacking : Lacking rt settings inventory →
    (analyzedPosture rt settings inventory).flags .securityServiceEnabled = some false
  services_enabled : requiredServices rt settings ≠ ∅ → ¬ Lacking rt settings inventory →
    (analyzedPosture rt settings inventory).flags .securityServiceEnabled =
      if ∀ name ∈ requiredServices rt settings, startupOf rt inventory name ≠ none then some true
      else told inventory .securityServiceEnabled
  /-- Nothing drifted only if all that is approved was observed. -/
  drift_known : settings.approvedSecurityPosture ≠ [] →
    (analyzedPosture rt settings inventory).flags .configurationDrift = some false →
    ∀ fact ∈ settings.approvedSecurityPosture, fact.2 ≠ .null →
      (observedFacts rt settings inventory).get fact.1 ≠ .null ∧
        Json.pyEq ((observedFacts rt settings inventory).get fact.1) fact.2 = true
  drift_unknown : ¬ HasEvidence rt settings inventory .configurationDrift →
    (∃ fact ∈ settings.approvedSecurityPosture, fact.2 ≠ .null) →
    (analyzedPosture rt settings inventory).flags .configurationDrift = none

end

/-! ## The booleans after the analysis -/

section

variable {rt : Runtime} {settings : AnalysisSettings} {inventory : Inventory}

theorem flags_analyzedPosture {flag : PostureFlag} (h : flag ≠ .configurationDrift) :
    (analyzedPosture rt settings inventory).flags flag =
      analyzedFlags rt settings inventory (inventory.security.getD {}) flag := by
  rw [analyzedPosture, compared]
  split
  · rfl
  · exact if_neg h

theorem drift_analyzedPosture :
    (analyzedPosture rt settings inventory).flags .configurationDrift =
      if settings.approvedSecurityPosture = [] then told inventory .configurationDrift
      else configurationDrift settings (observedFacts rt settings inventory) := by
  rw [analyzedPosture, compared]
  split
  · rfl
  · rfl

/-! ### Sections with a verdict on their entries -/

theorem anyOf_eq_none {α : Type} {part : Section α} {bad : α → Bool} {said : Option Bool}
    (h : ¬ (part.isSome = true ∨ said ≠ none)) : anyOf part bad said = none := by
  obtain ⟨hpart, hsaid⟩ := not_or.mp h
  rw [anyOf, if_neg hpart]
  exact not_not.mp hsaid

theorem anyOf_eq_false {α : Type} {part : Section α} {bad : α → Bool} {said : Option Bool}
    (h : anyOf part bad said = some false) : part.isSome = true ∨ said ≠ none := by
  rw [anyOf] at h
  split at h
  · exact Or.inl ‹_›
  · exact Or.inr (by rw [h]; simp)

theorem staysUnknown_of_anyOf {α : Type} {flag : PostureFlag} {part : Section α} {bad : α → Bool}
    (hdrift : flag ≠ .configurationDrift)
    (hflag : analyzedFlags rt settings inventory (inventory.security.getD {}) flag =
      anyOf part bad (told inventory flag))
    (hevidence : HasEvidence rt settings inventory flag ↔
      part.isSome = true ∨ told inventory flag ≠ none)
    (hinputs : InputsKnown rt settings inventory flag ↔ HasEvidence rt settings inventory flag) :
    StaysUnknown rt settings inventory flag where
  unknown h := by
    rw [flags_analyzedPosture hdrift, hflag]
    exact anyOf_eq_none (mt hevidence.mpr h)
  known h := by
    rw [flags_analyzedPosture hdrift, hflag] at h
    exact hinputs.mpr (hevidence.mpr (anyOf_eq_false h))

/-- A boolean that only the security section tells. -/
theorem staysUnknown_of_told {flag : PostureFlag} (hdrift : flag ≠ .configurationDrift)
    (hflag : analyzedFlags rt settings inventory (inventory.security.getD {}) flag =
      told inventory flag)
    (hevidence : HasEvidence rt settings inventory flag ↔ told inventory flag ≠ none)
    (hinputs : InputsKnown rt settings inventory flag ↔ HasEvidence rt settings inventory flag) :
    StaysUnknown rt settings inventory flag where
  unknown h := by
    rw [flags_analyzedPosture hdrift, hflag]
    exact not_not.mp (mt hevidence.mpr h)
  known h := by
    rw [flags_analyzedPosture hdrift, hflag] at h
    refine hinputs.mpr (hevidence.mpr ?_)
    rw [h]
    simp

/-! ### The flags that are analyzed -/

theorem flags_excessive :
    (analyzedPosture rt settings inventory).flags .excessiveAdministratorAccounts =
      if inventory.users.entries = [] then told inventory .excessiveAdministratorAccounts
      else some (excessiveAdministrators settings inventory) := flags_analyzedPosture (by decide)

theorem flags_guest :
    (analyzedPosture rt settings inventory).flags .guestAccountEnabled =
      if guestStates inventory = [] then told inventory .guestAccountEnabled
      else some ((guestStates inventory).any id) := flags_analyzedPosture (by decide)

theorem flags_agents :
    (analyzedPosture rt settings inventory).flags .securityAgentInstalled =
        (requiredAgentsAmong rt settings
          (installedAgents rt settings inventory (inventory.security.getD {})) <|>
            told inventory .securityAgentInstalled) ∧
      (analyzedPosture rt settings inventory).flags .securityAgentRunning =
        (requiredAgentsAmong rt settings
          (runningAgents rt settings inventory (inventory.security.getD {})) <|>
            told inventory .securityAgentRunning) :=
  ⟨flags_analyzedPosture (by decide), flags_analyzedPosture (by decide)⟩

theorem flags_serviceRunning :
    (analyzedPosture rt settings inventory).flags .securityServiceRunning =
      (requiredServiceRunning rt settings inventory <|> told inventory .securityServiceRunning) :=
  flags_analyzedPosture (by decide)

theorem serviceEnabled_analyzedPosture :
    (analyzedPosture rt settings inventory).flags .securityServiceEnabled =
      (requiredServiceEnabled rt settings inventory <|> told inventory .securityServiceEnabled) :=
  flags_analyzedPosture (by decide)

theorem staysUnknown_excessive :
    StaysUnknown rt settings inventory .excessiveAdministratorAccounts where
  unknown h := by
    obtain ⟨husers, htold⟩ := not_or.mp h
    rw [flags_excessive, if_pos (not_not.mp husers)]
    exact not_not.mp htold
  known h := by
    rw [flags_excessive] at h
    split at h
    · refine Or.inr ?_
      show told inventory .excessiveAdministratorAccounts ≠ none
      rw [h]
      simp
    · exact Or.inl ‹_›

theorem staysUnknown {flag : PostureFlag} (h : flag ∉ weighed) :
    StaysUnknown rt settings inventory flag := by
  cases flag with
  | excessiveAdministratorAccounts => exact staysUnknown_excessive
  | suspiciousListeningPortDetected =>
    exact staysUnknown_of_anyOf (by decide) rfl Iff.rfl Iff.rfl
  | suspiciousServiceDetected => exact staysUnknown_of_anyOf (by decide) rfl Iff.rfl Iff.rfl
  | suspiciousScheduledTaskDetected =>
    exact staysUnknown_of_anyOf (by decide) rfl Iff.rfl Iff.rfl
  | suspiciousStartupItemDetected =>
    exact staysUnknown_of_anyOf (by decide) rfl Iff.rfl Iff.rfl
  | insecureConfiguration | guestAccountEnabled | securityAgentInstalled | securityAgentRunning
  | securityServiceEnabled | securityServiceRunning | configurationDrift =>
    exact absurd (by decide) h
  | _ => exact staysUnknown_of_told (by decide) rfl Iff.rfl Iff.rfl

/-! ### Guests -/

theorem guest_unknown (h : ¬ HasEvidence rt settings inventory .guestAccountEnabled) :
    (analyzedPosture rt settings inventory).flags .guestAccountEnabled = none := by
  obtain ⟨hstates, htold⟩ := not_or.mp h
  rw [flags_guest, if_pos (not_not.mp hstates)]
  exact not_not.mp htold

theorem guest_known
    (h : (analyzedPosture rt settings inventory).flags .guestAccountEnabled = some false) :
    (guestStates inventory ≠ [] ∧ ∀ state ∈ guestStates inventory, state = false) ∨
      (guestStates inventory = [] ∧ told inventory .guestAccountEnabled = some false) := by
  rw [flags_guest] at h
  split at h
  · exact Or.inr ⟨‹_›, h⟩
  · refine Or.inl ⟨‹_›, fun state hstate => ?_⟩
    rw [Option.some.injEq, List.any_eq_false] at h
    simpa using h state hstate

/-! ### Requirements -/

theorem requiredAgentsAmong_empty (h : requiredAgents rt settings = ∅) (observed : Finset String) :
    requiredAgentsAmong rt settings observed = none := if_pos h

theorem requiredAgentsAmong_of_required (h : requiredAgents rt settings ≠ ∅)
    (observed : Finset String) : requiredAgentsAmong rt settings observed =
      some (decide (requiredAgents rt settings ⊆ observed)) := if_neg h

theorem agents_told (h : requiredAgents rt settings = ∅) :
    (analyzedPosture rt settings inventory).flags .securityAgentInstalled =
        told inventory .securityAgentInstalled ∧
      (analyzedPosture rt settings inventory).flags .securityAgentRunning =
        told inventory .securityAgentRunning := by
  rw [flags_agents.1, flags_agents.2, requiredAgentsAmong_empty h, requiredAgentsAmong_empty h]
  exact ⟨rfl, rfl⟩

theorem agents_required (h : requiredAgents rt settings ≠ ∅) :
    (analyzedPosture rt settings inventory).flags .securityAgentInstalled =
        some (decide (requiredAgents rt settings ⊆
          installedAgents rt settings inventory (inventory.security.getD {}))) ∧
      (analyzedPosture rt settings inventory).flags .securityAgentRunning =
        some (decide (requiredAgents rt settings ⊆
          runningAgents rt settings inventory (inventory.security.getD {}))) := by
  rw [flags_agents.1, flags_agents.2, requiredAgentsAmong_of_required h,
    requiredAgentsAmong_of_required h]
  exact ⟨rfl, rfl⟩

theorem services_told (h : requiredServices rt settings = ∅) :
    (analyzedPosture rt settings inventory).flags .securityServiceEnabled =
        told inventory .securityServiceEnabled ∧
      (analyzedPosture rt settings inventory).flags .securityServiceRunning =
        told inventory .securityServiceRunning := by
  rw [serviceEnabled_analyzedPosture, flags_serviceRunning, requiredServiceEnabled,
    requiredServiceRunning, if_pos h, if_pos h]
  exact ⟨rfl, rfl⟩

theorem services_running (h : requiredServices rt settings ≠ ∅) :
    (analyzedPosture rt settings inventory).flags .securityServiceRunning =
      some (decide (∀ name ∈ requiredServices rt settings, isRunning rt inventory name = true)) := by
  rw [flags_serviceRunning, requiredServiceRunning, if_neg h]
  rfl

theorem disabled_iff {startup : Option String} :
    startup.any (fun state => decide (state ∈ disabledStartupTypes)) = true ↔
      ∃ state ∈ startup, state ∈ disabledStartupTypes := by
  cases startup <;> simp

theorem requiredServiceEnabled_cases (h : requiredServices rt settings ≠ ∅) :
    (requiredServiceEnabled rt settings inventory = some false ∧ Lacking rt settings inventory) ∨
    (requiredServiceEnabled rt settings inventory = some true ∧
      ¬ Lacking rt settings inventory ∧
      ∀ name ∈ requiredServices rt settings, startupOf rt inventory name ≠ none) ∨
    (requiredServiceEnabled rt settings inventory = none ∧ ¬ Lacking rt settings inventory ∧
      ∃ name ∈ requiredServices rt settings, startupOf rt inventory name = none) := by
  rw [requiredServiceEnabled]
  simp only [if_neg h, disabled_iff]
  split
  · next hmissing =>
    obtain ⟨name, hname, hnone⟩ := hmissing
    exact Or.inl ⟨rfl, name, hname, Or.inl hnone⟩
  next hmissing =>
  split
  · next hdisabled =>
    obtain ⟨name, hname, hstate⟩ := hdisabled
    exact Or.inl ⟨rfl, name, hname, Or.inr hstate⟩
  next hdisabled =>
  have hlacking : ¬ Lacking rt settings inventory := by
    rintro ⟨name, hname, hnone | hstate⟩
    · exact hmissing ⟨name, hname, hnone⟩
    · exact hdisabled ⟨name, hname, hstate⟩
  split
  · next hknown => exact Or.inr (Or.inl ⟨rfl, hlacking, hknown⟩)
  · next hknown =>
    push Not at hknown
    exact Or.inr (Or.inr ⟨rfl, hlacking, hknown⟩)

theorem services_lacking (h : Lacking rt settings inventory) :
    (analyzedPosture rt settings inventory).flags .securityServiceEnabled = some false := by
  have hrequired : requiredServices rt settings ≠ ∅ := by
    obtain ⟨name, hname, -⟩ := h
    exact Finset.ne_empty_of_mem hname
  rw [serviceEnabled_analyzedPosture]
  rcases requiredServiceEnabled_cases hrequired with ⟨hflag, -⟩ | ⟨-, hnot, -⟩ | ⟨-, hnot, -⟩
  · rw [hflag]
    rfl
  · exact absurd h hnot
  · exact absurd h hnot

theorem services_enabled (hrequired : requiredServices rt settings ≠ ∅)
    (h : ¬ Lacking rt settings inventory) :
    (analyzedPosture rt settings inventory).flags .securityServiceEnabled =
      if ∀ name ∈ requiredServices rt settings, startupOf rt inventory name ≠ none then some true
      else told inventory .securityServiceEnabled := by
  rw [serviceEnabled_analyzedPosture]
  rcases requiredServiceEnabled_cases hrequired with ⟨-, hlacking⟩ | ⟨hflag, -, hknown⟩ |
    ⟨hflag, -, name, hname, hunknown⟩
  · exact absurd hlacking h
  · rw [hflag, if_pos hknown]
    rfl
  · rw [hflag, if_neg fun hknown => hknown name hname hunknown]
    rfl

/-! ### Drift -/

theorem sorted_eq_nil {l : List String} : l.insertionSort (· ≤ ·) = [] ↔ l = [] := by
  rw [← List.length_eq_zero_iff, List.length_insertionSort, List.length_eq_zero_iff]

theorem driftedFields_eq_nil {observed : JsonObject} :
    driftedFields settings observed = [] ↔ ∀ fact ∈ settings.approvedSecurityPosture,
      observed.get fact.1 ≠ .null → Json.pyEq (observed.get fact.1) fact.2 = true := by
  rw [driftedFields, sorted_eq_nil, List.map_eq_nil_iff, List.filter_eq_nil_iff]
  simp

theorem unknownFields_eq_nil {observed : JsonObject} :
    unknownFields settings observed = [] ↔ ∀ fact ∈ settings.approvedSecurityPosture,
      fact.2 ≠ .null → observed.get fact.1 ≠ .null := by
  rw [unknownFields, sorted_eq_nil, List.map_eq_nil_iff, List.filter_eq_nil_iff]
  simp

theorem drift_known (hbaseline : settings.approvedSecurityPosture ≠ [])
    (h : (analyzedPosture rt settings inventory).flags .configurationDrift = some false) :
    ∀ fact ∈ settings.approvedSecurityPosture, fact.2 ≠ .null →
      (observedFacts rt settings inventory).get fact.1 ≠ .null ∧
        Json.pyEq ((observedFacts rt settings inventory).get fact.1) fact.2 = true := by
  rw [drift_analyzedPosture, if_neg hbaseline, configurationDrift] at h
  split at h
  · cases h
  next hdrifted =>
  split at h
  · cases h
  next hunknown =>
  intro fact hfact hexpected
  have hobserved := unknownFields_eq_nil.mp (not_not.mp hunknown) fact hfact hexpected
  exact ⟨hobserved, driftedFields_eq_nil.mp (not_not.mp hdrifted) fact hfact hobserved⟩

theorem drift_unknown (h : ¬ HasEvidence rt settings inventory .configurationDrift)
    (hexpected : ∃ fact ∈ settings.approvedSecurityPosture, fact.2 ≠ .null) :
    (analyzedPosture rt settings inventory).flags .configurationDrift = none := by
  obtain ⟨fact, hfact, hvalue⟩ := hexpected
  have hnone : ∀ fact ∈ settings.approvedSecurityPosture,
      (observedFacts rt settings inventory).get fact.1 = .null := by
    intro fact hfact
    by_contra hobserved
    exact h (Or.inl ⟨fact, hfact, hobserved⟩)
  have hdrifted : driftedFields settings (observedFacts rt settings inventory) = [] :=
    driftedFields_eq_nil.mpr fun fact hfact hobserved => absurd (hnone fact hfact) hobserved
  have hunknown : unknownFields settings (observedFacts rt settings inventory) ≠ [] := fun hnil =>
    unknownFields_eq_nil.mp hnil fact hfact hvalue (hnone fact hfact)
  rw [drift_analyzedPosture, if_neg (List.ne_nil_of_mem hfact), configurationDrift,
    if_neg (not_not.mpr hdrifted), if_pos hunknown]

end

/--
For every inventory and all settings, a boolean that no section tells stays unknown and is false
only if its inputs are known, save where a baseline says what must be there.
-/
theorem unknown_stays_unknown (rt : Runtime) (settings : AnalysisSettings) (inventory : Inventory) :
    PostureSound rt settings inventory where
  staysUnknown _ h := staysUnknown h
  guest_unknown := guest_unknown
  guest_known := guest_known
  agents_told := agents_told
  services_told := services_told
  drift_told h := by rw [drift_analyzedPosture, if_pos h]
  agents := agents_required
  services_running := services_running
  services_lacking := services_lacking
  services_enabled := services_enabled
  drift_known := drift_known
  drift_unknown := drift_unknown

/-! ## What the baselines decide -/

/-- No security section, a guest and a service of unknown state, one disabled service. -/
def halfObserved : Inventory where
  users := some [some { username := "guest", enabled := some false, isGuest := true },
    some { username := "visitor", isGuest := true }]
  services := some [some { name := "auditd.service", startupType := some "disabled" },
    some { name := "clamd.service", state := .running }]

def strictSettings : AnalysisSettings where
  requiredSecurityAgentNames := {"wazuh-agent.service"}
  requiredSecurityServiceNames := {"auditd.service", "clamd.service"}
  approvedSecurityPosture := [("firewall_enabled", .null)]

/-- Agents and services that are not shown count as missing, guests of unknown state are passed
over, and a fact that is approved as unknown asks for nothing. -/
theorem baselines_decide_unknowns :
    [PostureFlag.securityAgentInstalled, .securityAgentRunning, .securityServiceEnabled,
      .securityServiceRunning, .guestAccountEnabled, .configurationDrift].Forall fun flag =>
      (analyzedPosture Runtime.sample strictSettings halfObserved).flags flag = some false ∧
        ¬ StaysUnknown Runtime.sample strictSettings halfObserved flag := by
  have hflags : ∀ flag ∈ [PostureFlag.securityAgentInstalled, .securityAgentRunning,
      .securityServiceEnabled, .securityServiceRunning, .guestAccountEnabled, .configurationDrift],
      (analyzedPosture Runtime.sample strictSettings halfObserved).flags flag = some false := by
    decide +kernel
  rw [List.forall_iff_forall_mem]
  intro flag hflag
  have hfalse := hflags flag hflag
  refine ⟨hfalse, fun h => ?_⟩
  have hinputs := h.known hfalse
  have hauditd : "auditd.service" ∈ requiredServices Runtime.sample strictSettings := by
    decide +kernel
  have hclamd : "clamd.service" ∈ requiredServices Runtime.sample strictSettings := by
    decide +kernel
  have hdisabled : serviceNamed Runtime.sample halfObserved "auditd.service" =
      some { name := "auditd.service", startupType := some "disabled" } := by decide +kernel
  have hrunning : serviceNamed Runtime.sample halfObserved "clamd.service" =
      some { name := "clamd.service", state := .running } := by decide +kernel
  simp only [List.mem_cons, List.not_mem_nil, or_false] at hflag
  rcases hflag with rfl | rfl | rfl | rfl | rfl | rfl
  · rcases hinputs with ⟨-, hsecurity, -⟩ | ⟨-, htold⟩
    · cases hsecurity
    · exact htold rfl
  · rcases hinputs with ⟨-, hsecurity, -⟩ | ⟨-, htold⟩
    · cases hsecurity
    · exact htold rfl
  · rcases hinputs with ⟨-, -, hstartup⟩ | ⟨hempty, -⟩
    · exact hstartup _ hclamd _ hrunning rfl
    · exact Finset.ne_empty_of_mem hclamd hempty
  · rcases hinputs with ⟨-, -, hstate⟩ | ⟨hempty, -⟩
    · exact hstate _ hauditd _ hdisabled rfl
    · exact Finset.ne_empty_of_mem hauditd hempty
  · rcases hinputs with ⟨-, hguests⟩ | htold
    · exact hguests { username := "visitor", isGuest := true } (by simp [guests, halfObserved,
        Section.entries]) rfl
    · exact htold rfl
  · rcases hinputs with ⟨-, hfacts⟩ | ⟨hempty, -⟩
    · exact hfacts ("firewall_enabled", .null) (by simp [strictSettings]) (by decide +kernel)
    · cases hempty

end OsScanner.Analyzers

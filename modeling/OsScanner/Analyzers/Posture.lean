import Mathlib
import OsScanner.Json.Value
import OsScanner.Runtime

/-!
# Posture analysis

`app/analyzers/posture.py`: the analyzer compares the sections of an inventory with the baselines
of the administrator and writes what it finds into the security posture. A boolean of the posture
is unknown until a section tells it.
-/

namespace OsScanner.Analyzers

open Lib

/-! ## The posture -/

/-- The booleans of `SecurityPosture`. -/
inductive PostureFlag where
  | firewallEnabled
  | antivirusEnabled
  | antivirusUpToDate
  | diskEncryptionEnabled
  | secureBootEnabled
  | tpmPresent
  | uacEnabled
  | rdpEnabled
  | selinuxEnabled
  | apparmorEnabled
  | sshRootLoginEnabled
  | sshPasswordAuthenticationEnabled
  | sshPermitEmptyPasswords
  | automaticUpdatesEnabled
  | pendingReboot
  | sipEnabled
  | remoteLoginEnabled
  | screenSharingEnabled
  | securityAgentInstalled
  | securityAgentRunning
  | securityServiceEnabled
  | securityServiceRunning
  | guestAccountEnabled
  | excessiveAdministratorAccounts
  | passwordPolicyCompliant
  | lockScreenEnabled
  | auditLoggingEnabled
  | localAdminPasswordManaged
  | configurationDrift
  | insecureConfiguration
  | suspiciousServiceDetected
  | suspiciousStartupItemDetected
  | suspiciousScheduledTaskDetected
  | suspiciousListeningPortDetected
  | scanStale
  deriving DecidableEq, Repr

structure SecurityPosture where
  flags : PostureFlag → Option Bool := fun _ => none
  tpmVersion : Option String := none
  pendingSecurityUpdatesCount : Option Nat := none
  securityAgentNames : List String := []
  securityAgentRunningNames : List String := []
  administratorAccountCount : Option Nat := none
  unexpectedAdministratorAccounts : List String := []
  scanAgeDays : Option PyFloat := none
  /-- The dumps of the profiles, products and volumes. -/
  firewallProfiles : List Json := []
  antivirusProducts : List Json := []
  encryptionVolumes : List Json := []
  controls : JsonObject := []

def optionalBool : Option Bool → Json
  | some b => .bool b
  | none => .null

def optionalCount : Option Nat → Json
  | some n => .int n
  | none => .null

def optionalFloat : Option PyFloat → Json
  | some f => .float f
  | none => .null

def texts (values : List String) : Json := .arr (values.map .str)

/-- `model_dump(mode="json", exclude_none=False)` -/
def SecurityPosture.dump (posture : SecurityPosture) : JsonObject :=
  let flag (flag : PostureFlag) : Json := optionalBool (posture.flags flag)
  [("firewall_enabled", flag .firewallEnabled),
    ("antivirus_enabled", flag .antivirusEnabled),
    ("antivirus_up_to_date", flag .antivirusUpToDate),
    ("disk_encryption_enabled", flag .diskEncryptionEnabled),
    ("secure_boot_enabled", flag .secureBootEnabled),
    ("tpm_present", flag .tpmPresent),
    ("tpm_version", Json.ofOption posture.tpmVersion),
    ("uac_enabled", flag .uacEnabled),
    ("rdp_enabled", flag .rdpEnabled),
    ("selinux_enabled", flag .selinuxEnabled),
    ("apparmor_enabled", flag .apparmorEnabled),
    ("ssh_root_login_enabled", flag .sshRootLoginEnabled),
    ("ssh_password_authentication_enabled", flag .sshPasswordAuthenticationEnabled),
    ("ssh_permit_empty_passwords", flag .sshPermitEmptyPasswords),
    ("automatic_updates_enabled", flag .automaticUpdatesEnabled),
    ("pending_security_updates_count", optionalCount posture.pendingSecurityUpdatesCount),
    ("pending_reboot", flag .pendingReboot),
    ("sip_enabled", flag .sipEnabled),
    ("remote_login_enabled", flag .remoteLoginEnabled),
    ("screen_sharing_enabled", flag .screenSharingEnabled),
    ("security_agent_installed", flag .securityAgentInstalled),
    ("security_agent_running", flag .securityAgentRunning),
    ("security_agent_names", texts posture.securityAgentNames),
    ("security_agent_running_names", texts posture.securityAgentRunningNames),
    ("security_service_enabled", flag .securityServiceEnabled),
    ("security_service_running", flag .securityServiceRunning),
    ("guest_account_enabled", flag .guestAccountEnabled),
    ("administrator_account_count", optionalCount posture.administratorAccountCount),
    ("excessive_administrator_accounts", flag .excessiveAdministratorAccounts),
    ("unexpected_administrator_accounts", texts posture.unexpectedAdministratorAccounts),
    ("password_policy_compliant", flag .passwordPolicyCompliant),
    ("lock_screen_enabled", flag .lockScreenEnabled),
    ("audit_logging_enabled", flag .auditLoggingEnabled),
    ("local_admin_password_managed", flag .localAdminPasswordManaged),
    ("configuration_drift", flag .configurationDrift),
    ("insecure_configuration", flag .insecureConfiguration),
    ("suspicious_service_detected", flag .suspiciousServiceDetected),
    ("suspicious_startup_item_detected", flag .suspiciousStartupItemDetected),
    ("suspicious_scheduled_task_detected", flag .suspiciousScheduledTaskDetected),
    ("suspicious_listening_port_detected", flag .suspiciousListeningPortDetected),
    ("scan_age_days", optionalFloat posture.scanAgeDays),
    ("scan_stale", flag .scanStale),
    ("firewall_profiles", .arr posture.firewallProfiles),
    ("antivirus_products", .arr posture.antivirusProducts),
    ("encryption_volumes", .arr posture.encryptionVolumes),
    ("controls", .obj posture.controls)]

/-! ## The inventory -/

inductive ServiceState where
  | running
  | stopped
  | paused
  | unknown
  deriving DecidableEq, Repr

structure Service where
  name : String
  state : ServiceState := .unknown
  startupType : Option String := none
  suspicious : Bool := false
  deriving DecidableEq

structure User where
  username : String
  enabled : Option Bool := none
  isAdministrator : Bool := false
  isGuest : Bool := false

structure ListeningPort where
  port : Nat
  suspicious : Bool := false

structure PersistenceItem where
  name : String
  kind : String
  suspicious : Bool := false

structure BrowserExtension where
  extensionId : String
  risky : Bool := false

structure InstalledSoftware where
  name : String
  version : Option String := none

structure OperatingSystem where
  /-- `family.value` -/
  family : String
  version : String
  supported : Option Bool := none

structure Hardware where
  tpmPresent : Option Bool := none
  tpmVersion : Option String := none

/-- A section that was observed, as a list of entries; an entry of another type is none. -/
abbrev Section (α : Type) := Option (List (Option α))

/-- The entries of the type that belongs to the section. -/
def Section.entries {α : Type} (part : Section α) : List α := (part.getD []).reduceOption

/-- The entries changed one by one, if the section was observed; others are dropped. -/
def Section.update {α : Type} (f : α → α) (part : Section α) : Section α :=
  part.map fun entries => (entries.reduceOption.map f).map some

/-- The sections that the analyzer reads. -/
structure Inventory where
  security : Option SecurityPosture := none
  os : Option OperatingSystem := none
  hardware : Option Hardware := none
  software : Section InstalledSoftware := none
  users : Section User := none
  listeningPorts : Section ListeningPort := none
  services : Section Service := none
  persistence : Section PersistenceItem := none
  browserExtensions : Section BrowserExtension := none

/-! ## The baselines -/

/-- `AnalysisSettings`, as far as the analyzer reads it. -/
structure AnalysisSettings where
  enforceAdministratorAllowlist : Bool := false
  enforcePortAllowlist : Bool := false
  enforceServiceAllowlist : Bool := false
  enforcePersistenceAllowlist : Bool := false
  enforceBrowserExtensionAllowlist : Bool := false
  enforceOsSupportCatalog : Bool := false
  approvedAdministratorAccounts : Finset String := ∅
  allowedListeningPorts : Finset Nat := ∅
  approvedServiceNames : Finset String := ∅
  approvedPersistenceNames : Finset String := ∅
  approvedBrowserExtensionIds : Finset String := ∅
  requiredSecurityAgentNames : Finset String := ∅
  requiredSecurityServiceNames : Finset String := ∅
  supportedOsReleases : Finset String := ∅
  approvedSecurityPosture : JsonObject := []
  maximumAdministratorAccounts : Nat := 4

variable (rt : Runtime) (settings : AnalysisSettings)

/-- `_casefolded(values)` -/
def casefolded (values : Finset String) : Finset String := values.image rt.casefold

def sortedTexts (values : Finset String) : Json := texts (values.sort (· ≤ ·))

def startsWith (start value : String) : Bool := start.toList.isPrefixOf value.toList

/-! ## The sections -/

def isKernelPackage (item : InstalledSoftware) : Bool :=
  startsWith "linux-image" (rt.casefold item.name) || startsWith "kernel-" (rt.casefold item.name) ||
    decide (rt.casefold item.name = "kernel")

/-- `f"{item.name}={item.version or 'unknown'}"` -/
def kernelPackageText (item : InstalledSoftware) : String :=
  let version := item.version.getD ""
  item.name ++ "=" ++ if version = "" then "unknown" else version

def installedKernelPackages (inventory : Inventory) : List String :=
  (((inventory.software.entries.filter (isKernelPackage rt)).map kernelPackageText).insertionSort
    (· ≤ ·)).take 256

def administrators (inventory : Inventory) : List User :=
  inventory.users.entries.filter fun user => user.isAdministrator

def unexpectedAdministrators (inventory : Inventory) : List String :=
  if settings.enforceAdministratorAllowlist then
    (((administrators inventory).filter fun user => decide (rt.casefold user.username ∉
      casefolded rt settings.approvedAdministratorAccounts)).map User.username).insertionSort (· ≤ ·)
  else []

def excessiveAdministrators (inventory : Inventory) : Bool :=
  decide ((administrators inventory).length > settings.maximumAdministratorAccounts)

def releaseKey (os : OperatingSystem) : String := os.family ++ ":" ++ os.version

def checkedOs (os : OperatingSystem) : OperatingSystem :=
  if settings.enforceOsSupportCatalog then
    { os with supported := some (decide (releaseKey os ∈ settings.supportedOsReleases)) }
  else os

def checkedPort (port : ListeningPort) : ListeningPort :=
  { port with suspicious := port.suspicious ||
      (settings.enforcePortAllowlist && decide (port.port ∉ settings.allowedListeningPorts)) }

def checkedService (service : Service) : Service :=
  { service with suspicious := service.suspicious || (settings.enforceServiceAllowlist &&
      decide (rt.casefold service.name ∉ casefolded rt settings.approvedServiceNames)) }

def checkedItem (item : PersistenceItem) : PersistenceItem :=
  { item with suspicious := item.suspicious || (settings.enforcePersistenceAllowlist &&
      decide (rt.casefold item.name ∉ casefolded rt settings.approvedPersistenceNames)) }

def checkedExtension (extension : BrowserExtension) : BrowserExtension :=
  { extension with risky := extension.risky || (settings.enforceBrowserExtensionAllowlist &&
      decide (rt.casefold extension.extensionId ∉
        casefolded rt settings.approvedBrowserExtensionIds)) }

/-- The hardware section takes what it does not know of the TPM from the posture. -/
def withTpm (posture : SecurityPosture) (hardware : Hardware) : Hardware :=
  if (posture.flags .tpmPresent).isSome ∨ posture.tpmVersion.isSome then
    { tpmPresent := hardware.tpmPresent <|> posture.flags .tpmPresent
      tpmVersion := if hardware.tpmVersion.getD "" = "" then posture.tpmVersion
        else hardware.tpmVersion }
  else hardware

/-! ## Required services and agents -/

/-- The service of a name; among several the last one counts. -/
def serviceNamed (inventory : Inventory) (name : String) : Option Service :=
  (inventory.services.entries.filter fun service => decide (rt.casefold service.name = name)).getLast?

def isRunning (inventory : Inventory) (name : String) : Bool :=
  (serviceNamed rt inventory name).any fun service => decide (service.state = .running)

def disabledStartupTypes : List String := ["disabled", "off", "false", "masked"]

/-- `service.startup_type.casefold() if service.startup_type else None` -/
def startupState (service : Service) : Option String :=
  match service.startupType with
  | some text => if text = "" then none else some (rt.casefold text)
  | none => none

def requiredServices : Finset String := casefolded rt settings.requiredSecurityServiceNames

def requiredServiceRunning (inventory : Inventory) : Option Bool :=
  if requiredServices rt settings = ∅ then none
  else some (decide (∀ name ∈ requiredServices rt settings, isRunning rt inventory name = true))

/-- What is known of the startup of a required service. -/
def startupOf (inventory : Inventory) (name : String) : Option String :=
  (serviceNamed rt inventory name).bind (startupState rt)

def requiredServiceEnabled (inventory : Inventory) : Option Bool :=
  let required := requiredServices rt settings
  if required = ∅ then none
  else if ∃ name ∈ required, serviceNamed rt inventory name = none then some false
  else if ∃ name ∈ required, (startupOf rt inventory name).any
    (fun state => decide (state ∈ disabledStartupTypes)) = true then some false
  else if ∀ name ∈ required, startupOf rt inventory name ≠ none then some true
  else none

def requiredAgents : Finset String := casefolded rt settings.requiredSecurityAgentNames

/-- The agents that the posture names, and the required ones that are a service. -/
def installedAgents (inventory : Inventory) (posture : SecurityPosture) : Finset String :=
  casefolded rt posture.securityAgentNames.toFinset ∪
    (requiredAgents rt settings).filter fun name => (serviceNamed rt inventory name).isSome = true

def runningAgents (inventory : Inventory) (posture : SecurityPosture) : Finset String :=
  casefolded rt posture.securityAgentRunningNames.toFinset ∪
    (requiredAgents rt settings).filter fun name => isRunning rt inventory name = true

/-- Whether the required agents are among the observed ones, if any are required. -/
def requiredAgentsAmong (observed : Finset String) : Option Bool :=
  if requiredAgents rt settings = ∅ then none
  else some (decide (requiredAgents rt settings ⊆ observed))

/-! ## The derived booleans -/

def guestStates (inventory : Inventory) : List Bool :=
  (inventory.users.entries.filter fun user => user.isGuest).filterMap User.enabled

def scheduledKinds : List String := ["scheduled_task", "cron", "crontab"]

def isScheduled (item : PersistenceItem) : Bool := decide (rt.casefold item.kind ∈ scheduledKinds)

/-- Whether any entry of a section is bad; where the section was not observed, the posture tells. -/
def anyOf {α : Type} (part : Section α) (bad : α → Bool) (told : Option Bool) : Option Bool :=
  if part.isSome then some (part.entries.any bad) else told

/-- The booleans before the comparison with the approved posture. -/
def analyzedFlags (inventory : Inventory) (posture : SecurityPosture) :
    PostureFlag → Option Bool
  | .excessiveAdministratorAccounts =>
    if inventory.users.entries = [] then posture.flags .excessiveAdministratorAccounts
    else some (excessiveAdministrators settings inventory)
  | .securityAgentInstalled =>
    requiredAgentsAmong rt settings (installedAgents rt settings inventory posture) <|>
      posture.flags .securityAgentInstalled
  | .securityAgentRunning =>
    requiredAgentsAmong rt settings (runningAgents rt settings inventory posture) <|>
      posture.flags .securityAgentRunning
  | .securityServiceEnabled =>
    requiredServiceEnabled rt settings inventory <|> posture.flags .securityServiceEnabled
  | .securityServiceRunning =>
    requiredServiceRunning rt settings inventory <|> posture.flags .securityServiceRunning
  | .guestAccountEnabled =>
    if guestStates inventory = [] then posture.flags .guestAccountEnabled
    else some ((guestStates inventory).any id)
  | .suspiciousListeningPortDetected =>
    anyOf inventory.listeningPorts (fun port => (checkedPort settings port).suspicious)
      (posture.flags .suspiciousListeningPortDetected)
  | .suspiciousServiceDetected =>
    anyOf inventory.services (fun service => (checkedService rt settings service).suspicious)
      (posture.flags .suspiciousServiceDetected)
  | .suspiciousScheduledTaskDetected =>
    anyOf inventory.persistence
      (fun item => isScheduled rt item && (checkedItem rt settings item).suspicious)
      (posture.flags .suspiciousScheduledTaskDetected)
  | .suspiciousStartupItemDetected =>
    anyOf inventory.persistence
      (fun item => !isScheduled rt item && (checkedItem rt settings item).suspicious)
      (posture.flags .suspiciousStartupItemDetected)
  | .insecureConfiguration =>
    -- `posture.insecure_configuration or excessive_admins`
    if posture.flags .insecureConfiguration = some true then some true
    else some (excessiveAdministrators settings inventory)
  | flag => posture.flags flag

/-! ## The controls -/

def controlsBefore (inventory : Inventory) (posture : SecurityPosture) : JsonObject :=
  let controls := posture.controls
  let kernels := installedKernelPackages rt inventory
  let controls := if kernels = [] then controls
    else controls.set "installed_kernel_packages" (texts kernels)
  let controls := controls.set "maximum_administrator_accounts"
    (.int settings.maximumAdministratorAccounts)
  let controls := controls.set "administrator_allowlist_enforced"
    (.bool settings.enforceAdministratorAllowlist)
  let controls := match inventory.os with
    | some os =>
      if settings.enforceOsSupportCatalog then
        (controls.set "os_support_catalog_enforced" (.bool true)).set "os_release_key"
          (.str (releaseKey os))
      else controls
    | none => controls
  let controls := if requiredServices rt settings = ∅ then controls
    else controls.set "required_security_services" (sortedTexts (requiredServices rt settings))
  if requiredAgents rt settings = ∅ then controls
  else
    (controls.set "missing_required_security_agents" (sortedTexts (requiredAgents rt settings \
      installedAgents rt settings inventory posture))).set "stopped_required_security_agents"
        (sortedTexts (requiredAgents rt settings \ runningAgents rt settings inventory posture))

/-! ## The approved posture -/

/-- The approved facts of which something else was observed. -/
def driftedFields (observed : JsonObject) : List String :=
  ((settings.approvedSecurityPosture.filter fun fact => decide (observed.get fact.1 ≠ .null) &&
    !Json.pyEq (observed.get fact.1) fact.2).map Prod.fst).insertionSort (· ≤ ·)

/-- The approved facts of which nothing was observed. -/
def unknownFields (observed : JsonObject) : List String :=
  ((settings.approvedSecurityPosture.filter fun fact => decide (fact.2 ≠ .null) &&
    decide (observed.get fact.1 = .null)).map Prod.fst).insertionSort (· ≤ ·)

def configurationDrift (observed : JsonObject) : Option Bool :=
  if driftedFields settings observed ≠ [] then some true
  else if unknownFields settings observed ≠ [] then none
  else some false

/-- The posture compared with the approved one, where one is configured. -/
def compared (posture : SecurityPosture) : SecurityPosture :=
  if settings.approvedSecurityPosture = [] then posture
  else
    { posture with
      flags := fun flag => if flag = .configurationDrift then
        configurationDrift settings posture.dump else posture.flags flag
      controls := ((posture.controls.set "configuration_baseline_enforced" (.bool true)).set
        "configuration_drift_fields" (texts (driftedFields settings posture.dump))).set
        "configuration_baseline_unknown_fields" (texts (unknownFields settings posture.dump)) }

/-! ## The analysis -/

/-- The posture before the comparison with the approved one. -/
def derivedPosture (inventory : Inventory) : SecurityPosture :=
  let posture := inventory.security.getD {}
  { posture with
    flags := analyzedFlags rt settings inventory posture
    administratorAccountCount :=
      if inventory.users.entries = [] then posture.administratorAccountCount
      else some (administrators inventory).length
    unexpectedAdministratorAccounts :=
      if settings.enforceAdministratorAllowlist then unexpectedAdministrators rt settings inventory
      else posture.unexpectedAdministratorAccounts
    controls := controlsBefore rt settings inventory posture }

def analyzedPosture (inventory : Inventory) : SecurityPosture :=
  compared settings (derivedPosture rt settings inventory)

/-- `BaselineAnalyzer(settings).analyze(inventory)` -/
def AnalysisSettings.analyze (inventory : Inventory) : Inventory where
  security := some (analyzedPosture rt settings inventory)
  os := inventory.os.map (checkedOs settings)
  hardware := inventory.hardware.map (withTpm (inventory.security.getD {}))
  software := inventory.software
  users := inventory.users
  listeningPorts := inventory.listeningPorts.update (checkedPort settings)
  services := inventory.services.update (checkedService rt settings)
  persistence := inventory.persistence.update (checkedItem rt settings)
  browserExtensions := inventory.browserExtensions.update (checkedExtension rt settings)

end OsScanner.Analyzers

import Mathlib
import OsScanner.Endpoint.Domains

/-!
# Attack-surface discovery

`app/tools/amass/adapter.py` validates a request, parses what the tool has written and keeps
the names within the request; `normalize_amass` builds the assets; `_attack_surface` of
`app/orchestrator/collector_pipeline.py` composes them for one job.
-/

namespace OsScanner.Endpoint

open Lib Check Storage

/-! ## The adapter -/

structure AmassRequest where
  target : String
  authorizedDomains : List String
  authorizationId : String
  authorized : Bool := false
  scope : List String := []
  exclusions : List String := []
  maxDnsConcurrency : Int := 1
  maxDnsQueriesPerSecond : Int := 1
  timeoutSeconds : ℚ := 300
  maxAssets : Int := 25000

structure AmassAdapter where
  maximumTimeoutSeconds : ℚ := 3600
  maximumDnsConcurrency : Int := 20
  maximumDnsQueriesPerSecond : Int := 100
  maxOutputBytes : Nat := 20 * 1024 * 1024

/-- A record of the adapter. -/
structure DiscoveredAsset where
  hostname : String
  type : String
  addresses : List String
  deriving DecidableEq

inductive ToolState where
  | success
  | failed
  | unavailable
  | timeout
  deriving DecidableEq

structure ToolExecution where
  status : ToolState
  payload : Option (List DiscoveredAsset) := none

/-- How a run of the tool ends. -/
inductive ToolRun where
  | unavailable
  /-- The runner or the reading of the output raised. -/
  | raised
  | timedOut
  /-- `result.returncode != 0` -/
  | exited
  | output (text : String)

/-- `a or b` -/
def pyOr (a b : Json) : Json := if truthy a then a else b

/-- `^[A-Za-z0-9][A-Za-z0-9_.:-]{0,127}$` -/
def isAuthorizationId (text : String) : Bool :=
  text.toList.head?.any Char.isAlphanum && decide (text.length ≤ 128) &&
    text.toList.all fun c => c.isAlphanum || decide (c ∈ "_.:-".toList)

/-- `sorted(set(values))` -/
def sortedSet (values : List String) : List String := values.dedup.insertionSort (· ≤ ·)

/-- The characters at which `splitlines` ends a line. -/
def isLineBreak (c : Char) : Bool :=
  let n := c.toNat
  decide ((10 ≤ n ∧ n ≤ 13) ∨ (28 ≤ n ∧ n ≤ 30) ∨ n = 0x85 ∨ n = 0x2028 ∨ n = 0x2029)

/-- The lines of a text whose first line begins with the given characters, last one first. -/
def linesFrom : List Char → List Char → List String
  | begun, [] => if begun = [] then [] else [String.ofList begun.reverse]
  | begun, '\r' :: '\n' :: rest => String.ofList begun.reverse :: linesFrom [] rest
  | begun, c :: rest =>
    if isLineBreak c then String.ofList begun.reverse :: linesFrom [] rest
    else linesFrom (c :: begun) rest

/-- `text.splitlines()` -/
def splitlines (text : String) : List String := linesFrom [] text.toList

namespace Amass

section

variable (lib : NameLibrary)

/-- `normalize_domain(value)` of `app/tools/amass/adapter.py` -/
def normalizeDomain (value : String) : Except String String := do
  raiseIf (value = "" ∨ value ≠ strip value) "domain must be a non-empty canonical string"
  raiseIf ("*.".toList <+: value.toList ∨
      (value.toList.any fun c => decide (c ∈ "/\\:@?#%\x00".toList)) = true)
    "wildcards, URLs, IP notation, and control data are not domains"
  let candidate :=
    if value.toList.getLast? = some '.' then String.ofList value.toList.dropLast else value
  match lib.idna candidate with
  | none => .error "domain is not valid IDNA"
  | some text => do
    let asciiDomain := lib.casefold text
    raiseIf (253 < asciiDomain.length) "domain exceeds the DNS length limit"
    raiseIf ((labelsOf asciiDomain).length < 2 ∨
        ∃ label ∈ labelsOf asciiDomain, isDnsLabel label = false)
      "domain is not a valid fully-qualified DNS name"
    raiseIf ((labelsOf asciiDomain).getLast?.all isTopLevel = false)
      "domain must end in a valid top-level label"
    raiseIf ((lib.ipAddress asciiDomain).isSome = true)
      "IP addresses are not accepted by domain discovery"
    .ok asciiDomain

def registrableDomain (value : String) : Except String String := do
  let domain ← normalizeDomain lib value
  let extracted := lib.extract domain
  raiseIf (extracted.suffix = "" ∨ extracted.domain = "")
    "a public suffix is not an authorizable domain"
  let registrable := extracted.topDomainUnderPublicSuffix
  raiseIf (registrable = "" ∨ registrable = extracted.suffix)
    "a public suffix is not an authorizable domain"
  .ok registrable

/-- `tuple(dict.fromkeys(normalize_domain(item) for item in values))` -/
def distinctDomains (values : List String) : Except String (List String) :=
  List.eraseDups <$> values.mapM (normalizeDomain lib)

/-- `validate_input(value)` -/
def validateInput (adapter : AmassAdapter) (value : AmassRequest) : Except String AmassRequest := do
  raiseIf (value.authorized = false) "attack-surface discovery requires explicit authorization"
  raiseIf (isAuthorizationId value.authorizationId = false)
    "a valid authorization identifier is required"
  raiseIf (value.authorizedDomains = [] ∨ 100 < value.authorizedDomains.length)
    "authorized domain allowlist must be non-empty and bounded"
  let target ← normalizeDomain lib value.target
  let roots ← distinctDomains lib value.authorizedDomains
  let _ ← roots.mapM (registrableDomain lib)
  raiseIf (¬ ∃ root ∈ roots, Within target root) "target is outside the authorized domain allowlist"
  let rawScope := if value.scope = [] then [target] else value.scope
  raiseIf (100 < rawScope.length) "scope contains too many domains"
  let scope ← distinctDomains lib rawScope
  raiseIf (∃ item ∈ scope, ¬ Within item target) "scope cannot expand beyond the requested target"
  raiseIf (∃ item ∈ scope, ¬ ∃ root ∈ roots, Within item root)
    "scope contains a domain outside the authorization allowlist"
  raiseIf (1000 < value.exclusions.length) "exclusion list is too large"
  let exclusions ← distinctDomains lib value.exclusions
  raiseIf (∃ item ∈ exclusions, ¬ Within item target)
    "exclusions must fall within the requested target"
  raiseIf (∃ item ∈ exclusions, ¬ ∃ allowed ∈ scope, Within item allowed)
    "exclusions must fall within the requested discovery scope"
  raiseIf (∃ item ∈ exclusions, item = target) "the requested target cannot be entirely excluded"
  raiseIf (¬ (1 ≤ value.maxDnsConcurrency ∧ value.maxDnsConcurrency ≤ adapter.maximumDnsConcurrency))
    "requested DNS concurrency exceeds the discovery policy"
  raiseIf (¬ (1 ≤ value.maxDnsQueriesPerSecond ∧
      value.maxDnsQueriesPerSecond ≤ adapter.maximumDnsQueriesPerSecond))
    "requested DNS rate exceeds the discovery policy"
  raiseIf (¬ (1 ≤ value.timeoutSeconds ∧ value.timeoutSeconds ≤ adapter.maximumTimeoutSeconds))
    "requested timeout exceeds the discovery policy"
  raiseIf (¬ (1 ≤ value.maxAssets ∧ value.maxAssets ≤ 100000)) "invalid discovered-asset limit"
  .ok { value with
    target := target
    authorizedDomains := roots
    scope := scope
    exclusions := exclusions }

/-! ### Output -/

/-- `[item for item in items if isinstance(item, dict)]` -/
def objectsOf (items : List Json) : List JsonObject :=
  items.filterMap fun
    | .obj fields => some fields
    | _ => none

/-- `_records(document)` -/
def records : Json → Except String (List JsonObject)
  | .arr items => do
    raiseIf (100000 < items.length) "Amass output contains too many records"
    .ok (objectsOf items)
  | .obj fields =>
    match pyOr (JsonObject.get fields "assets") (JsonObject.get fields "results") with
    | .arr items => do
      raiseIf (100000 < items.length) "Amass output contains too many records"
      .ok (objectsOf items)
    | _ => .ok [fields]
  | _ => .error "Amass JSON records must be objects"

/-- The output as JSON lines; a line that is no JSON is taken for a name. -/
def parseLines (found : List JsonObject) : List String → Except String (List JsonObject)
  | [] => .ok found
  | line :: lines => do
    raiseIf (100000 < found.length) "Amass output contains too many records"
    let line := strip line
    if line = "" then parseLines found lines
    else match lib.loads line with
      | .error .decode => parseLines (found ++ [[("name", .str line)]]) lines
      | .error .other => .error "the line cannot be read"
      | .ok value => do
        let more ← records value
        parseLines (found ++ more) lines

/-- `parse(output)` -/
def parse (adapter : AmassAdapter) (output : String) : Except String (List JsonObject) := do
  raiseIf (adapter.maxOutputBytes < output.utf8ByteSize) "Amass output exceeds the adapter limit"
  let stripped := strip output
  if stripped = "" then .ok []
  else match lib.loads stripped with
    | .error .decode => parseLines lib [] (splitlines stripped)
    | .error .other => .error "the output cannot be read"
    | .ok document => records document

/-- The address of an entry of `addresses`. -/
def addressOf (entry : Json) : Option String :=
  let raw := match entry with
    | .obj fields => JsonObject.get fields "ip"
    | other => other
  match raw with
  | .str text => lib.ipAddress text
  | _ => none

/-- One record of `normalize(parsed)`. -/
def normalizeRecord (record : JsonObject) : Option DiscoveredAsset :=
  match pyOr (pyOr (record.get "name") (record.get "hostname")) (record.get "fqdn") with
  | .str hostname =>
    match normalizeDomain lib hostname with
    | .error _ => none
    | .ok normalized =>
      let addresses := match pyOr (record.get "addresses") (record.get "ips") with
        | .arr items => (items.take 100).filterMap (addressOf lib)
        | _ => []
      some ⟨normalized, "subdomain", sortedSet addresses⟩
  | _ => none

/-- `normalize(parsed)` -/
def normalize (parsed : List JsonObject) : List DiscoveredAsset :=
  parsed.filterMap (normalizeRecord lib)

end

/-- The request covers this name. -/
def Covers (request : AmassRequest) (hostname : String) : Prop :=
  (∃ allowed ∈ request.scope, Within hostname allowed) ∧
    ¬ ∃ exclusion ∈ request.exclusions, Within hostname exclusion

instance (request : AmassRequest) (hostname : String) : Decidable (Covers request hostname) :=
  inferInstanceAs (Decidable (_ ∧ _))

/-- The loop of `_apply_scope`. -/
def selectAssets (request : AmassRequest) (selected : Dict String DiscoveredAsset) :
    List DiscoveredAsset → Except String (Dict String DiscoveredAsset)
  | [] => .ok selected
  | asset :: assets =>
    if Covers request asset.hostname then do
      let asset := { asset with
        type := if asset.hostname = request.target then "domain" else "subdomain" }
      let selected := selected.set asset.hostname asset
      raiseIf (request.maxAssets < selected.values.length) "Amass discovered-asset limit exceeded"
      selectAssets request selected assets
    else selectAssets request selected assets

/-- `_apply_scope(assets, request)` -/
def applyScope (assets : List DiscoveredAsset) (request : AmassRequest) :
    Except String (List DiscoveredAsset) := do
  let selected ← selectAssets request ∅ assets
  .ok ((sortedSet (selected.entries.map Prod.fst)).filterMap selected.get?)

/-- `execute(value)` with a run of the tool -/
def execute (lib : NameLibrary) (adapter : AmassAdapter) (value : AmassRequest) (run : ToolRun) :
    ToolExecution :=
  match validateInput lib adapter value with
  | .error _ => { status := .failed }
  | .ok request =>
    match run with
    | .unavailable => { status := .unavailable }
    | .raised | .exited => { status := .failed }
    | .timedOut => { status := .timeout }
    | .output text =>
      match parse lib adapter text >>= fun parsed => applyScope (normalize lib parsed) request with
      | .error _ => { status := .failed }
      | .ok assets => { status := .success, payload := some assets }

end Amass

/-! ## The assets -/

inductive AssetType where
  | domain
  | subdomain
  deriving DecidableEq

structure AttackSurfaceAsset where
  scanId : String
  hostname : String
  assetType : AssetType
  rootDomain : String
  addresses : List String
  deriving DecidableEq

section

variable (lib : NameLibrary)

/-- The validators of `AttackSurfaceAsset`; `none` where it raises `ValidationError`. -/
def AttackSurfaceAsset.validate (asset : AttackSurfaceAsset) : Option AttackSurfaceAsset := do
  let hostname ← match lib.ipAddress asset.hostname with
    | some address => some address
    | none => (normalizeDomain lib asset.hostname).toOption
  let rootDomain ← (normalizeDomain lib asset.rootDomain).toOption
  let addresses ← asset.addresses.mapM lib.ipAddress
  if addresses.length ≤ 256 ∧ Within hostname rootDomain then
    some { asset with hostname := hostname, rootDomain := rootDomain, addresses := addresses }
  else none

/-- The loop of `normalize_amass` over the records of the adapter. -/
def normalizeAmass (scanId rootDomain : String) (seen : List String) :
    List DiscoveredAsset → List AttackSurfaceAsset
  | [] => []
  | record :: rest =>
    let hostname := rstripDots (lib.casefold record.hostname)
    if hostname = "" ∨ hostname ∈ seen ∨ ¬ Within hostname rootDomain then
      normalizeAmass scanId rootDomain seen rest
    else
      let asset : AttackSurfaceAsset :=
        { scanId := scanId
          hostname := hostname
          assetType := if hostname = rootDomain then .domain else .subdomain
          rootDomain := rootDomain
          addresses := record.addresses }
      (asset.validate lib).toList ++ normalizeAmass scanId rootDomain (hostname :: seen) rest

/-! ## The pipeline -/

structure DiscoverySettings where
  enabled : Bool := false
  authorizedDomains : List String := []
  maxDnsConcurrency : Int := 1
  maxDnsQueriesPerSecond : Int := 1
  maxDiscoveredAssets : Int := 25000
  timeoutSeconds : ℚ := 900
  /-- `tools.amass_executable is not None` -/
  executableConfigured : Bool := false
  /-- `runtime.max_inventory_records` -/
  maxInventoryRecords : Nat
  /-- `runtime.max_tool_output_bytes` -/
  maxToolOutputBytes : Nat

/-- What one collection meets outside of the program. -/
structure Discovery where
  /-- `self._remaining(deadline_at)`, absent where it raises `TimeoutError`. -/
  remaining : Option ℚ
  run : ToolRun
  /-- `tool_status(…)` accepts the version and the metadata of the tool. -/
  statusAccepted : Bool := true

structure CollectionBundle where
  attackSurface : List AttackSurfaceAsset := []
  /-- `"attack_surface" in bundle.observed_inventory_sections` -/
  observed : Bool := false

def DiscoverySettings.adapter (settings : DiscoverySettings) : AmassAdapter where
  maximumTimeoutSeconds := settings.timeoutSeconds
  maximumDnsConcurrency := settings.maxDnsConcurrency
  maximumDnsQueriesPerSecond := settings.maxDnsQueriesPerSecond
  maxOutputBytes := settings.maxToolOutputBytes

variable {lib}

/-- The exclusions within the target, and those of the parameters. -/
def AttackSurfaceJob.requestedExclusions (job : AttackSurfaceJob lib) : List String :=
  sortedSet ((job.authorization.excludedDomains.filter fun domain =>
    decide (Within domain job.target)) ++ job.exclusions)

/-- The arguments of `self.amass.discover`. -/
def AttackSurfaceJob.request (job : AttackSurfaceJob lib) (settings : DiscoverySettings)
    (remaining : ℚ) : AmassRequest where
  target := job.target
  authorizedDomains := [job.target]
  authorizationId := job.authorization.scopeId
  authorized := job.authorization.authorized
  scope := job.scope
  exclusions := job.requestedExclusions
  maxDnsConcurrency := settings.maxDnsConcurrency
  maxDnsQueriesPerSecond := settings.maxDnsQueriesPerSecond
  timeoutSeconds := min remaining settings.timeoutSeconds
  maxAssets := settings.maxDiscoveredAssets

/-- `_enforce_inventory_limit(bundle)`: every asset counts as one record. -/
def enforceInventoryLimit (settings : DiscoverySettings) (bundle : CollectionBundle) :
    Except String CollectionBundle := do
  raiseIf (settings.maxInventoryRecords < bundle.attackSurface.length)
    "normalized inventory exceeds the configured record limit"
  .ok bundle

/-- `_attack_surface(job, deadline_at)` -/
def attackSurface (settings : DiscoverySettings) (job : AttackSurfaceJob lib)
    (discovery : Discovery) : Except String CollectionBundle :=
  if settings.enabled = false then .ok {}
  else do
    raiseIf (¬ ∃ root ∈ settings.authorizedDomains, Within job.target root)
      "attack-surface target is outside the locally administered discovery allowlist"
    if settings.executableConfigured = false then enforceInventoryLimit settings {}
    else match discovery.remaining, discovery.statusAccepted with
      | some remaining, true =>
        let execution := Amass.execute lib settings.adapter (job.request settings remaining)
          discovery.run
        enforceInventoryLimit settings
          (if execution.status = .success then
            { attackSurface := normalizeAmass lib job.scanId job.target []
                (execution.payload.getD [])
              observed := true }
          else {})
      | _, _ => enforceInventoryLimit settings {}

/-- The assets that a result receives; a collection that raises contributes none. -/
def keptAssets : Except String CollectionBundle → List AttackSurfaceAsset
  | .ok bundle => bundle.attackSurface
  | .error _ => []

/-- The assets that the result of the job receives. -/
def storedAssets (settings : DiscoverySettings) (job : AttackSurfaceJob lib)
    (discovery : Discovery) : List AttackSurfaceAsset :=
  keptAssets (attackSurface settings job discovery)

end

end OsScanner.Endpoint

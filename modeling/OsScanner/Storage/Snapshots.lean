import Mathlib
import OsScanner.Json.Canonical

/-!
# Inventory snapshots

`app/storage/snapshots.py`: what a snapshot is normalized to before it is hashed and stored,
and how two normalized snapshots are compared section by section. The cloud uses the same
normalization on what it reconstructs.
-/

namespace OsScanner.Storage

open Lib

/-! ## The tables -/

/-- Sections whose items have no order of their own. -/
def collectionSections : List String :=
  ["software", "packages", "services", "users", "groups", "network_interfaces",
    "listening_ports", "ports", "persistence", "vulnerabilities", "compliance",
    "attack_surface", "browser_extensions", "certificates", "updates"]

def eventNames : List (String × String) :=
  [("os", "OS_CHANGED"), ("operating_system", "OS_CHANGED"), ("hardware", "HARDWARE_CHANGED"),
    ("software", "SOFTWARE_CHANGED"), ("packages", "SOFTWARE_CHANGED"),
    ("processes", "PROCESSES_CHANGED"), ("services", "SERVICES_CHANGED"),
    ("users", "USERS_CHANGED"), ("groups", "GROUPS_CHANGED"), ("network", "NETWORK_CHANGED"),
    ("network_interfaces", "NETWORK_CHANGED"), ("listening_ports", "PORTS_CHANGED"),
    ("ports", "PORTS_CHANGED"), ("security", "SECURITY_POSTURE_CHANGED"),
    ("security_posture", "SECURITY_POSTURE_CHANGED"), ("persistence", "PERSISTENCE_CHANGED"),
    ("vulnerabilities", "VULNERABILITIES_CHANGED"), ("compliance", "COMPLIANCE_CHANGED"),
    ("attack_surface", "ATTACK_SURFACE_CHANGED"),
    ("browser_extensions", "BROWSER_EXTENSIONS_CHANGED"),
    ("certificates", "CERTIFICATES_CHANGED"), ("updates", "UPDATES_CHANGED")]

/-- The fields that identify an item of a section. -/
def identityFields : List (String × List String) :=
  [("software", ["name", "vendor", "architecture", "package_manager"]),
    ("packages", ["name", "ecosystem", "architecture", "source"]),
    ("services", ["name"]),
    ("users", ["uid", "username", "name"]),
    ("groups", ["gid", "name"]),
    ("network_interfaces", ["name", "mac_address"]),
    ("listening_ports", ["protocol", "address", "port"]),
    ("ports", ["protocol", "address", "port"]),
    ("persistence", ["kind", "name", "location", "executable_path"]),
    ("vulnerabilities", ["id", "vulnerability_id", "package", "package_name",
      "installed_version"]),
    ("compliance", ["rule_id", "id"]),
    ("attack_surface", ["asset_type", "hostname"]),
    ("browser_extensions", ["browser", "extension_id"]),
    ("certificates", ["store", "thumbprint", "serial_number"]),
    ("updates", ["update_id"])]

/-- The fields of a section that change with every scan. -/
def volatileFields : List (String × List String) :=
  [("endpoint", ["last_seen_at"]),
    ("security", ["configuration_drift", "scan_age_days", "scan_stale"]),
    ("compliance", ["scan_id", "endpoint_id", "evaluated_at", "schema_version",
      "scanner_version"]),
    ("vulnerabilities", ["scan_id", "endpoint_id", "detected_at", "schema_version",
      "scanner_version"])]

/-! ## Normalization -/

def dropFields (volatile : List String) (item : JsonObject) : JsonObject :=
  item.filter fun e => decide (e.1 ∉ volatile)

/-- Drop the volatile fields of a section, or of each of its items. -/
def dropVolatile (volatile : List String) : Json → Json
  | .obj item => .obj (dropFields volatile item)
  | .arr items => .arr (items.map fun
      | .obj item => .obj (dropFields volatile item)
      | item => item)
  | value => value

/-- The order of `sorted(value, key=canonical_json)`. -/
def canonicalLe (rt : Runtime) (v w : Json) : Prop :=
  Json.canonicalJson rt v ≤ Json.canonicalJson rt w

instance (rt : Runtime) : DecidableRel (canonicalLe rt) :=
  fun v w => inferInstanceAs (Decidable (Json.canonicalJson rt v ≤ Json.canonicalJson rt w))
instance (rt : Runtime) : Std.Total (canonicalLe rt) := ⟨fun _ _ => le_total _ _⟩
instance (rt : Runtime) : IsTrans Json (canonicalLe rt) := ⟨fun _ _ _ h₁ h₂ => le_trans h₁ h₂⟩

/-- What a section of a snapshot is normalized to. -/
def normalizeSection (rt : Runtime) (name : String) (value : Json) : Json :=
  let volatile := (Assoc.lookup name volatileFields).getD []
  let value := if volatile = [] then value else dropVolatile volatile value
  match value with
  | .arr items =>
    if name ∈ collectionSections then .arr (items.insertionSort (canonicalLe rt)) else .arr items
  | value => value

/-- `normalize_snapshot(snapshot)` -/
def normalizeSnapshot (rt : Runtime) (snapshot : JsonObject) : JsonObject :=
  (snapshot.filter fun e => decide (e.1 ≠ "processes")).map fun e =>
    (e.1, normalizeSection rt e.1 e.2)

/-- `snapshot_hash(snapshot)` -/
def snapshotHash (rt : Runtime) (snapshot : JsonObject) : String :=
  Json.canonicalSha256 rt (.obj (normalizeSnapshot rt snapshot))

/-! ## Comparison -/

structure SectionChange where
  sectionName : String
  event : String
  beforeHash : Option String
  afterHash : Option String
  addedCount : Nat := 0
  removedCount : Nat := 0
  modifiedCount : Nat := 0
  deriving DecidableEq

/-- The text that two items of a section share when they are the same item. -/
def identity (rt : Runtime) (sectionName : String) : Json → String
  | .obj item =>
    let fields := (Assoc.lookup sectionName identityFields).getD []
    let selected := fields.filterMap fun field =>
      match JsonObject.get item field with
      | .null => none
      | value => some (.arr [.str field, value])
    Json.canonicalJson rt (if selected = [] then .obj item else .arr selected)
  | item => Json.canonicalJson rt item

/-- `{_identity(section, item): item for item in items}` -/
def identityIndex (rt : Runtime) (sectionName : String) (items : List Json) : Dict String Json :=
  items.foldl (fun index item => index.set (identity rt sectionName item) item) ∅

/-- How many items were added, removed and modified. -/
def collectionCounts (rt : Runtime) (sectionName : String) : Json → Json → Nat × Nat × Nat
  | .arr before, .arr after =>
    let beforeIndex := identityIndex rt sectionName before
    let afterIndex := identityIndex rt sectionName after
    (afterIndex.entries.countP fun e => !beforeIndex.contains e.1,
      beforeIndex.entries.countP fun e => !afterIndex.contains e.1,
      beforeIndex.entries.countP fun e => match afterIndex.get? e.1 with
        | some item => !Json.pyEq e.2 item
        | none => false)
  | _, _ => (0, 0, 1)

/-- `before.keys() | after.keys()`, sorted. -/
def sectionNames (before after : JsonObject) : List String :=
  ((before.map Prod.fst ++ after.map Prod.fst).dedup).insertionSort (· ≤ ·)

/-- A section is unchanged when both snapshots have it, with equal values in Python's sense. -/
def sectionUnchanged (before after : JsonObject) (name : String) : Bool :=
  Json.pyEq (before.get name) (after.get name) && before.has name && after.has name

def sectionChange (rt : Runtime) (before after : JsonObject) (name : String) : SectionChange :=
  let counts := collectionCounts rt name (before.get name) (after.get name)
  { sectionName := name
    event := (Assoc.lookup name eventNames).getD (rt.upper name ++ "_CHANGED")
    beforeHash := if before.has name then some (Json.canonicalSha256 rt (before.get name)) else none
    afterHash := if after.has name then some (Json.canonicalSha256 rt (after.get name)) else none
    addedCount := counts.1
    removedCount := counts.2.1
    modifiedCount := counts.2.2 }

/-- `compare_snapshots(before, after)` -/
def compareSnapshots (rt : Runtime) : Option JsonObject → JsonObject → List SectionChange
  | none, _ => []
  | some before, after =>
    ((sectionNames before after).filter fun name => !sectionUnchanged before after name).map
      (sectionChange rt before after)

/-! ## Names of the sections -/

@[simp] theorem normalizeSnapshot_nil (rt : Runtime) : normalizeSnapshot rt [] = [] := rfl

theorem keys_normalizeSnapshot (rt : Runtime) (snapshot : JsonObject) :
    (normalizeSnapshot rt snapshot).map Prod.fst =
      (snapshot.map Prod.fst).filter fun name => decide (name ≠ "processes") := by
  rw [normalizeSnapshot, List.map_map, List.filter_map]
  rfl

theorem nodup_normalizeSnapshot {rt : Runtime} {snapshot : JsonObject}
    (h : (snapshot.map Prod.fst).Nodup) : ((normalizeSnapshot rt snapshot).map Prod.fst).Nodup := by
  rw [keys_normalizeSnapshot]
  exact h.filter _

theorem lookup_normalizeSnapshot (rt : Runtime) (name : String) (snapshot : JsonObject) :
    Assoc.lookup name (normalizeSnapshot rt snapshot) =
      if name = "processes" then none
      else (Assoc.lookup name snapshot).map (normalizeSection rt name) := by
  induction snapshot with
  | nil => by_cases h : name = "processes" <;> simp [h]
  | cons e snapshot ih =>
    obtain ⟨k, v⟩ := e
    simp only [normalizeSnapshot] at ih ⊢
    by_cases hk : k = "processes"
    · by_cases hn : name = "processes"
      · simpa [hk, hn] using ih
      · have hne : ¬ k = name := fun h => hn (h ▸ hk)
        simp only [List.filter_cons, hk, ne_eq, not_true_eq_false, decide_false,
          Bool.false_eq_true, if_false, ih, hn]
        rw [← hk, Assoc.lookup_cons_ne hne]
    · by_cases hn : k = name
      · subst hn
        simp [hk]
      · simp only [List.filter_cons, hk, ne_eq, not_false_eq_true, decide_true, if_true,
          List.map_cons, Assoc.lookup_cons_ne hn]
        exact ih

theorem mem_sectionNames {before after : JsonObject} {name : String} :
    name ∈ sectionNames before after ↔
      name ∈ before.map Prod.fst ∨ name ∈ after.map Prod.fst := by
  rw [sectionNames, List.mem_insertionSort, List.mem_dedup, List.mem_append]

theorem nodup_sectionNames (before after : JsonObject) : (sectionNames before after).Nodup :=
  (List.perm_insertionSort _ _).nodup_iff.mpr (List.nodup_dedup _)

end OsScanner.Storage

import Mathlib
import OsScanner.Cloud.Records
import OsScanner.Storage.Snapshots

/-!
# Reconstruction of an inventory

`bounded_json` of `cloud_service/models.py` and `reconstruct_inventory` of
`cloud_service/repository.py`: the envelope of an upload names its mode, the hash it claims for
the result and the hash of the base it builds on; the snapshot is rebuilt and checked against
the claim before anything is stored.
-/

namespace OsScanner.Cloud

open Lib Storage

/-! ## Structural limits -/

/-- The loop of `bounded_json`: `remaining` more nodes may be popped from the stack. -/
def boundedLoop (maxDepth : Nat) : Nat → List (Json × Nat) → Except RepositoryError Unit
  | _, [] => .ok ()
  | 0, _ :: _ => fail .valueError "JSON value exceeds structural limits"
  | remaining + 1, (item, depth) :: stack =>
    if depth > maxDepth then fail .valueError "JSON value exceeds structural limits"
    else match item with
      | .str s =>
        if s.length > 1000000 then fail .valueError "JSON string exceeds size limit"
        else boundedLoop maxDepth remaining stack
      | .arr items =>
        boundedLoop maxDepth remaining ((items.map fun child => (child, depth + 1)).reverse ++ stack)
      | .obj fields =>
        if ∃ e ∈ fields, e.1.length > 256 then
          fail .valueError "JSON object contains an invalid key"
        else boundedLoop maxDepth remaining
          ((fields.map fun e => (e.2, depth + 1)).reverse ++ stack)
      | .null | .bool _ | .int _ | .float _ => boundedLoop maxDepth remaining stack

/-- `bounded_json(value, max_depth, max_nodes)` -/
def boundedJson (maxDepth maxNodes : Nat) (value : Json) : Except RepositoryError Unit :=
  boundedLoop maxDepth maxNodes [(value, 0)]

mutual

/-- The number of values inside a value, itself included. -/
def nodes : Json → Nat
  | .arr items => nodesOfItems items + 1
  | .obj fields => nodesOfFields fields + 1
  | .null | .bool _ | .int _ | .float _ | .str _ => 1

def nodesOfItems : List Json → Nat
  | [] => 0
  | v :: l => nodes v + nodesOfItems l

def nodesOfFields : JsonObject → Nat
  | [] => 0
  | (_, v) :: l => nodes v + nodesOfFields l

end

mutual

/-- Nesting, strings and keys stay within the limits, `levels` further levels being allowed. -/
def Fits (levels : Nat) : Json → Prop
  | .str s => s.length ≤ 1000000
  | .arr items => FitItems levels items
  | .obj fields => (∀ e ∈ fields, e.1.length ≤ 256) ∧ FitFields levels fields
  | .null | .bool _ | .int _ | .float _ => True

def FitItems (levels : Nat) : List Json → Prop
  | [] => True
  | v :: l => (1 ≤ levels ∧ Fits (levels - 1) v) ∧ FitItems levels l

def FitFields (levels : Nat) : JsonObject → Prop
  | [] => True
  | (_, v) :: l => (1 ≤ levels ∧ Fits (levels - 1) v) ∧ FitFields levels l

end

/-- What the stack of the loop still has to visit. -/
def stackNodes (stack : List (Json × Nat)) : Nat := (stack.map fun e => nodes e.1).sum

def StackFits (maxDepth : Nat) (stack : List (Json × Nat)) : Prop :=
  ∀ e ∈ stack, e.2 ≤ maxDepth ∧ Fits (maxDepth - e.2) e.1

theorem nodesOfItems_eq (items : List Json) : nodesOfItems items = (items.map nodes).sum := by
  induction items with
  | nil => rfl
  | cons v l ih => rw [nodesOfItems, ih, List.map_cons, List.sum_cons]

theorem nodesOfFields_eq (fields : JsonObject) :
    nodesOfFields fields = (fields.map fun e => nodes e.2).sum := by
  induction fields with
  | nil => rfl
  | cons e l ih => rw [nodesOfFields, ih, List.map_cons, List.sum_cons]

theorem fitItems_iff {levels : Nat} {items : List Json} :
    FitItems levels items ↔ ∀ v ∈ items, 1 ≤ levels ∧ Fits (levels - 1) v := by
  induction items with
  | nil => simp [FitItems]
  | cons v l ih => rw [FitItems, ih, List.forall_mem_cons]

theorem fitFields_iff {levels : Nat} {fields : JsonObject} :
    FitFields levels fields ↔ ∀ e ∈ fields, 1 ≤ levels ∧ Fits (levels - 1) e.2 := by
  induction fields with
  | nil => simp [FitFields]
  | cons e l ih => rw [FitFields, ih, List.forall_mem_cons]

theorem nodes_pos (v : Json) : 0 < nodes v := by
  cases v <;> simp [nodes]

theorem stackNodes_children {α : Type} (children : List α) (value : α → Json) (depth : Nat)
    (stack : List (Json × Nat)) :
    stackNodes ((children.map fun c => (value c, depth)).reverse ++ stack) =
      (children.map fun c => nodes (value c)).sum + stackNodes stack := by
  simp [stackNodes, List.map_reverse, List.sum_reverse, Function.comp_def]

theorem stackFits_children {α : Type} {children : List α} {value : α → Json} {depth maxDepth : Nat}
    {stack : List (Json × Nat)} (hd : depth ≤ maxDepth) :
    StackFits maxDepth ((children.map fun c => (value c, depth + 1)).reverse ++ stack) ↔
      (∀ c ∈ children, 1 ≤ maxDepth - depth ∧ Fits (maxDepth - depth - 1) (value c)) ∧
        StackFits maxDepth stack := by
  have hone : ∀ v, (depth + 1 ≤ maxDepth ∧ Fits (maxDepth - (depth + 1)) v) ↔
      (1 ≤ maxDepth - depth ∧ Fits (maxDepth - depth - 1) v) := by
    intro v
    rw [Nat.sub_add_eq]
    exact and_congr_left fun _ => by omega
  constructor
  · intro h
    refine ⟨fun c hc => (hone _).mp (h (value c, depth + 1) ?_),
      fun e he => h e (List.mem_append_right _ he)⟩
    exact List.mem_append_left _ (List.mem_reverse.mpr (List.mem_map.mpr ⟨c, hc, rfl⟩))
  · rintro ⟨hc, hs⟩ e he
    rcases List.mem_append.mp he with he | he
    · obtain ⟨c, hmem, rfl⟩ := List.mem_map.mp (List.mem_reverse.mp he)
      exact (hone _).mpr (hc c hmem)
    · exact hs e he

theorem stackFits_cons {maxDepth : Nat} {item : Json} {depth : Nat} {stack : List (Json × Nat)} :
    StackFits maxDepth ((item, depth) :: stack) ↔
      (depth ≤ maxDepth ∧ Fits (maxDepth - depth) item) ∧ StackFits maxDepth stack := by
  simp [StackFits]

/-- The loop passes exactly when what is on the stack fits and is not too much. -/
theorem boundedLoop_eq_ok {maxDepth : Nat} : ∀ {remaining : Nat} {stack : List (Json × Nat)},
    boundedLoop maxDepth remaining stack = .ok () ↔
      stackNodes stack ≤ remaining ∧ StackFits maxDepth stack := by
  intro remaining
  induction remaining with
  | zero =>
    intro stack
    cases stack with
    | nil => simp [boundedLoop, stackNodes, StackFits]
    | cons e stack =>
      have hpos := nodes_pos e.1
      simp only [boundedLoop, fail, stackNodes, List.map_cons, List.sum_cons, reduceCtorEq,
        false_iff]
      omega
  | succ remaining ih =>
    intro stack
    cases stack with
    | nil => simp [boundedLoop, stackNodes, StackFits]
    | cons e stack =>
      obtain ⟨item, depth⟩ := e
      by_cases hd : depth > maxDepth
      · have hle : ¬ depth ≤ maxDepth := by omega
        simp [boundedLoop, hd, fail, stackFits_cons, hle]
      · have hle : depth ≤ maxDepth := by omega
        have hcons : stackNodes ((item, depth) :: stack) = nodes item + stackNodes stack := by
          simp [stackNodes]
        rw [stackFits_cons, hcons]
        cases item with
        | str s =>
          by_cases hs : s.length > 1000000
          · simp [boundedLoop, hd, hs, fail, Fits]
          · have hlen : s.length ≤ 1000000 := by omega
            simp only [boundedLoop, hd, hs, if_false, ih, Fits, nodes, hle, hlen, true_and]
            exact and_congr_left fun _ => by omega
        | arr items =>
          simp only [boundedLoop, hd, if_false, ih, Fits, nodes, hle, true_and, fitItems_iff,
            nodesOfItems_eq]
          have heta : (items.map fun c => nodes c) = items.map nodes := rfl
          rw [stackFits_children hle, stackNodes_children items fun c => c, heta]
          exact and_congr_left fun _ => by omega
        | obj fields =>
          by_cases hk : ∃ e ∈ fields, e.1.length > 256
          · have hk' : ¬ ∀ e ∈ fields, e.1.length ≤ 256 := by
              obtain ⟨e, he, hlen⟩ := hk
              exact fun h => absurd (h e he) (by omega)
            simp only [boundedLoop, hd, hk, if_true, if_false, fail, Fits, hk', reduceCtorEq,
              false_and, and_false]
          · have hk' : ∀ e ∈ fields, e.1.length ≤ 256 := by
              intro e he
              by_contra hlen
              exact hk ⟨e, he, by omega⟩
            simp only [boundedLoop, hd, hk, if_false, ih, Fits, nodes, hle, true_and,
              fitFields_iff, nodesOfFields_eq]
            rw [stackFits_children hle, stackNodes_children fields]
            rw [and_iff_right hk']
            exact and_congr_left fun _ => by omega
        | _ =>
          simp only [boundedLoop, hd, if_false, ih, Fits, nodes, hle, true_and]
          exact and_congr_left fun _ => by omega

/-- The loop computes the two limits that it is there for. -/
theorem boundedJson_eq_ok {maxDepth maxNodes : Nat} {value : Json} :
    boundedJson maxDepth maxNodes value = .ok () ↔ nodes value ≤ maxNodes ∧ Fits maxDepth value := by
  rw [boundedJson, boundedLoop_eq_ok]
  simp [stackNodes, StackFits]

/-! ## The envelope -/

def maxInventorySections : Nat := 512
def maxInventoryNodes : Nat := 300000
def maxReconstructedBytes : Nat := 16 * 1024 * 1024

/-- `_inventory_digest(value, field_name)` -/
def inventoryDigest (value : Json) (fieldName : String) : Except RepositoryError String :=
  match value with
  | .str s =>
    if isHexDigest s then .ok s
    else fail .inventorySync ("inventory_sync." ++ fieldName ++ " must be a lowercase SHA-256")
  | _ => fail .inventorySync ("inventory_sync." ++ fieldName ++ " must be a lowercase SHA-256")

/-- `_inventory_digest(value, field_name, nullable=True)` -/
def nullableInventoryDigest (value : Json) (fieldName : String) :
    Except RepositoryError (Option String) :=
  match value with
  | .null => .ok none
  | value => (inventoryDigest value fieldName).map some

/-- `_bounded_snapshot(value)` -/
def boundedSnapshot (rt : Runtime) (value : Json) : Except RepositoryError JsonObject :=
  match value with
  | .obj snapshot =>
    match boundedJson 32 maxInventoryNodes value with
    | .error _ => fail .inventorySync "inventory snapshot is not valid bounded JSON"
    | .ok () => do
      let normalized := normalizeSnapshot rt snapshot
      raiseIf (normalized.length > maxInventorySections) .inventorySync
        "inventory snapshot contains too many sections"
      raiseIf ((Json.canonicalJson rt (.obj normalized)).utf8ByteSize > maxReconstructedBytes)
        .inventorySync "reconstructed inventory exceeds the size limit"
      .ok normalized
  | _ => fail .inventorySync "inventory snapshot must be a JSON object"

inductive InventoryMode where
  | full
  | delta
  | unchanged
  deriving DecidableEq, Repr

def InventoryMode.text : InventoryMode → String
  | .full => "full"
  | .delta => "delta"
  | .unchanged => "unchanged"

/-- `mode not in {"full", "delta", "unchanged"}`; a list or an object cannot be hashed. -/
def inventoryMode (value : Json) : Except RepositoryError InventoryMode :=
  if value = .str "full" then .ok .full
  else if value = .str "delta" then .ok .delta
  else if value = .str "unchanged" then .ok .unchanged
  else match value with
    | .arr _ | .obj _ => fail .typeError "unhashable type"
    | _ => fail .inventorySync "inventory_sync.mode must be full, delta, or unchanged"

/-- A full snapshot: a base that it names must be the current one, but it may name none. -/
def fullSnapshot (rt : Runtime) (sync : JsonObject) (current : Option InventoryState)
    (claimedHash : String) (previousHash : Option String) : Except RepositoryError JsonObject := do
  raiseIf (sync.has "sections" ∨ sync.has "removed_sections") .inventorySync
    "full inventory cannot contain delta fields"
  let snapshot ← boundedSnapshot rt (sync.get "snapshot")
  raiseIf (snapshotHash rt snapshot ≠ claimedHash) .inventorySync
    "full inventory snapshot_hash does not match its content"
  raiseIf (previousHash ≠ none ∧ previousHash ≠ current.map (·.snapshotHash))
    .inventoryResyncRequired
    "inventory base hash mismatch; upload a full snapshot with previous_hash null"
  .ok snapshot

/-- The state that a delta or an unchanged upload builds on. -/
def inventoryBase (current : Option InventoryState) : Except RepositoryError InventoryState :=
  match current with
  | none => fail .inventoryResyncRequired "inventory base is unavailable; upload a full snapshot"
  | some base => .ok base

def validSectionName (name : String) : Bool := decide (name ≠ "" ∧ name.length ≤ 256)

def removedName : Json → Option String
  | .str name => if validSectionName name then some name else none
  | _ => none

/-- The sections that a delta replaces and the names of those that it removes. -/
def deltaSections (sync : JsonObject) : Except RepositoryError (JsonObject × List String) :=
  match (Assoc.lookup "sections" sync).getD (.obj []),
      (Assoc.lookup "removed_sections" sync).getD (.arr []) with
  | .obj sections, .arr removed => do
    raiseIf (sections.length + removed.length > maxInventorySections) .inventorySync
      "delta inventory contains too many sections"
    raiseIf ((∃ e ∈ sections, validSectionName e.1 = false) ∨ ∃ v ∈ removed, removedName v = none)
      .inventorySync "delta inventory contains an invalid section name"
    let names := removed.filterMap removedName
    raiseIf (¬ names.Nodup) .inventorySync "delta removed_sections contains duplicates"
    raiseIf (∃ e ∈ sections, e.1 ∈ names) .inventorySync
      "delta cannot replace and remove the same section"
    raiseIf (sections = [] ∧ names = []) .inventorySync "empty delta must use unchanged mode"
    .ok (sections, names)
  | _, _ => fail .inventorySync "delta sections and removed_sections have invalid types"

/-- `reconstructed.update(sections)`, then `reconstructed.pop(section, None)` for the removed. -/
def applyDelta (snapshot sections : JsonObject) (removed : List String) : JsonObject :=
  removed.foldl (fun acc name => Assoc.erase name acc)
    (sections.foldl (fun acc e => Assoc.insert e.1 e.2 acc) snapshot)

def deltaSnapshot (rt : Runtime) (sync : JsonObject) (current : Option InventoryState)
    (claimedHash : String) (previousHash : Option String) : Except RepositoryError JsonObject := do
  let base ← inventoryBase current
  raiseIf (previousHash ≠ some base.snapshotHash) .inventoryResyncRequired
    "inventory base hash mismatch; upload a full snapshot"
  raiseIf (sync.has "snapshot") .inventorySync "delta inventory cannot contain a full snapshot"
  let delta ← deltaSections sync
  let snapshot ← boundedSnapshot rt (.obj (applyDelta base.snapshot delta.1 delta.2))
  raiseIf (snapshotHash rt snapshot ≠ claimedHash) .inventorySync
    "delta snapshot_hash does not match reconstructed content"
  .ok snapshot

def unchangedSnapshot (sync : JsonObject) (current : Option InventoryState)
    (claimedHash : String) (previousHash : Option String) : Except RepositoryError JsonObject := do
  let base ← inventoryBase current
  raiseIf (claimedHash ≠ base.snapshotHash) .inventoryResyncRequired
    "inventory base hash mismatch; upload a full snapshot"
  raiseIf (previousHash ≠ none ∧ previousHash ≠ some base.snapshotHash) .inventoryResyncRequired
    "inventory previous_hash mismatch; upload a full snapshot"
  raiseIf (sync.has "snapshot" ∨ sync.has "sections" ∨ sync.has "removed_sections") .inventorySync
    "unchanged inventory cannot contain snapshot data"
  .ok base.snapshot

/-- The snapshot that an envelope stands for. -/
def envelopeSnapshot (rt : Runtime) (mode : InventoryMode) (sync : JsonObject)
    (current : Option InventoryState) (claimedHash : String) (previousHash : Option String) :
    Except RepositoryError JsonObject :=
  match mode with
  | .full => fullSnapshot rt sync current claimedHash previousHash
  | .delta => deltaSnapshot rt sync current claimedHash previousHash
  | .unchanged => unchangedSnapshot sync current claimedHash previousHash

def inventoryObject (inventorySync : Json) : Except RepositoryError JsonObject :=
  match inventorySync with
  | .obj sync => .ok sync
  | _ => fail .inventorySync "inventory_sync must be a JSON object"

/-- `reconstruct_inventory` -/
def reconstructInventory (rt : Runtime) (tenantId endpointId scanId : String)
    (inventorySync : Json) (current : Option InventoryState) (now : Timestamp) :
    Except RepositoryError InventoryReconstruction := do
  let sync ← inventoryObject inventorySync
  raiseIf (sync.has "reconstructed_snapshot") .inventorySync
    "inventory_sync.reconstructed_snapshot is server-managed"
  let mode ← inventoryMode (sync.get "mode")
  let claimedHash ← inventoryDigest (sync.get "snapshot_hash") "snapshot_hash"
  let previousHash ← nullableInventoryDigest (sync.get "previous_hash") "previous_hash"
  let snapshot ← envelopeSnapshot rt mode sync current claimedHash previousHash
  .ok {
    inventorySync := sync.set "reconstructed_snapshot" (.obj snapshot)
    state := {
      tenantId := tenantId
      endpointId := endpointId
      snapshotHash := claimedHash
      snapshot := snapshot
      sourceScanId := scanId
      updatedAt := now } }

/-! ## What an accepted envelope establishes -/

theorem inventoryDigest_eq_ok {value : Json} {fieldName digest : String} :
    inventoryDigest value fieldName = .ok digest ↔
      value = .str digest ∧ isHexDigest digest = true := by
  cases value with
  | str s =>
    by_cases hs : isHexDigest s = true
    · simp only [inventoryDigest, hs, if_true, Except.ok.injEq, Json.str.injEq]
      exact ⟨fun h => ⟨h, h ▸ hs⟩, fun h => h.1⟩
    · simp only [inventoryDigest, hs, fail, Json.str.injEq]
      exact ⟨fun h => (nomatch h), fun h => absurd (h.1 ▸ h.2) hs⟩
  | _ => simp [inventoryDigest, fail]

theorem boundedSnapshot_eq_ok {rt : Runtime} {value : Json} {snapshot : JsonObject} :
    boundedSnapshot rt value = .ok snapshot ↔
      ∃ fields, value = .obj fields ∧ nodes value ≤ maxInventoryNodes ∧ Fits 32 value ∧
        snapshot = normalizeSnapshot rt fields ∧ snapshot.length ≤ maxInventorySections ∧
        (Json.canonicalJson rt (.obj snapshot)).utf8ByteSize ≤ maxReconstructedBytes := by
  cases value with
  | obj fields =>
    simp only [boundedSnapshot]
    rcases hb : boundedJson 32 maxInventoryNodes (.obj fields) with e | ⟨⟩
    · have hlimits : ¬ (nodes (.obj fields) ≤ maxInventoryNodes ∧ Fits 32 (.obj fields)) := by
        rw [← boundedJson_eq_ok, hb]
        exact fun h => nomatch h
      simp only [fail, reduceCtorEq, Json.obj.injEq, false_iff]
      rintro ⟨_, rfl, hn, hf, -⟩
      exact hlimits ⟨hn, hf⟩
    · obtain ⟨hn, hf⟩ := boundedJson_eq_ok.mp hb
      simp only [Check.bind_unit_eq_ok, raiseIf_eq_ok, not_lt, gt_iff_lt, Except.ok.injEq]
      constructor
      · rintro ⟨hlen, hsize, rfl⟩
        exact ⟨fields, rfl, hn, hf, rfl, hlen, hsize⟩
      · rintro ⟨_, h, -, -, rfl, hlen, hsize⟩
        cases h
        exact ⟨hlen, hsize, rfl⟩
  | _ => simp [boundedSnapshot, fail]

/-- The snapshot that an envelope stands for, and the hash that it claims for it. -/
theorem reconstructInventory_eq_ok {rt : Runtime} {tenantId endpointId scanId : String}
    {inventorySync : Json} {current : Option InventoryState} {now : Timestamp}
    {r : InventoryReconstruction} :
    reconstructInventory rt tenantId endpointId scanId inventorySync current now = .ok r ↔
      ∃ (sync : JsonObject) (mode : InventoryMode) (claimedHash : String)
        (previousHash : Option String) (snapshot : JsonObject),
        inventorySync = .obj sync ∧ ¬ sync.has "reconstructed_snapshot" = true ∧
        inventoryMode (sync.get "mode") = .ok mode ∧
        inventoryDigest (sync.get "snapshot_hash") "snapshot_hash" = .ok claimedHash ∧
        nullableInventoryDigest (sync.get "previous_hash") "previous_hash" = .ok previousHash ∧
        envelopeSnapshot rt mode sync current claimedHash previousHash = .ok snapshot ∧
        r = { inventorySync := sync.set "reconstructed_snapshot" (.obj snapshot)
              state := ⟨tenantId, endpointId, claimedHash, snapshot, scanId, now⟩ } := by
  have hobject : ∀ sync, inventoryObject inventorySync = .ok sync ↔ inventorySync = .obj sync := by
    intro sync
    cases inventorySync <;> simp [inventoryObject, fail]
  simp only [reconstructInventory, Check.bind_eq_ok, raiseIf_eq_ok, hobject, Except.ok.injEq]
  constructor
  · rintro ⟨sync, hs, _, hm, mode, hmode, claimed, hc, previous, hp, snapshot, hsnap, rfl⟩
    exact ⟨sync, mode, claimed, previous, snapshot, hs, hm, hmode, hc, hp, hsnap, rfl⟩
  · rintro ⟨sync, mode, claimed, previous, snapshot, hs, hm, hmode, hc, hp, hsnap, rfl⟩
    exact ⟨sync, hs, (), hm, mode, hmode, claimed, hc, previous, hp, snapshot, hsnap, rfl⟩

end OsScanner.Cloud

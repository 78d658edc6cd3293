import Mathlib
import OsScanner.Lib.Run
import OsScanner.Storage.ScanResults
import OsScanner.Storage.SnapshotOrder

/-!
# Sections that a scan did not observe

A stored snapshot is in normal form, and normalizing it again changes nothing. So a section that
is carried over from the latest snapshot is stored as it was, and the comparison with that
snapshot does not mention it.
-/

namespace OsScanner.Storage

open Lib Lib.Check

variable {rt : Runtime}

/-! ## Normal forms -/

/-- No field of the object is volatile. -/
def Settled (volatile : List String) : Json → Prop
  | .obj fields => ∀ e ∈ fields, e.1 ∉ volatile
  | _ => True

/-- Neither the section nor one of its items has a volatile field. -/
def SettledSection (volatile : List String) : Json → Prop
  | .arr items => ∀ item ∈ items, Settled volatile item
  | value => Settled volatile value

section

variable {volatile : List String}

theorem settled_dropFields (fields : JsonObject) : Settled volatile (.obj (dropFields volatile fields)) := by
  intro e he
  exact of_decide_eq_true (List.mem_filter.mp he).2

theorem settled_dropItem (item : Json) : Settled volatile (dropItem volatile item) := by
  cases item with
  | obj fields => exact settled_dropFields fields
  | _ => trivial

theorem settledSection_dropVolatile (v : Json) : SettledSection volatile (dropVolatile volatile v) := by
  cases v with
  | obj fields => exact settled_dropFields fields
  | arr items =>
    rw [dropVolatile_arr]
    intro item hitem
    obtain ⟨before, -, rfl⟩ := List.mem_map.mp hitem
    exact settled_dropItem before
  | _ => trivial

theorem Settled.sortKeys {v : Json} (h : Settled volatile v) : Settled volatile (Json.sortKeys v) := by
  cases v with
  | obj fields =>
    rw [Json.sortKeys]
    intro e he
    rw [List.mem_insertionSort, Json.sortFields_eq, List.mem_map] at he
    obtain ⟨field, hfield, rfl⟩ := he
    exact h field hfield
  | arr items => trivial
  | _ => trivial

theorem Settled.dropItem_eq {v : Json} (h : Settled volatile v) : dropItem volatile v = v := by
  cases v with
  | obj fields =>
    show Json.obj (dropFields volatile fields) = _
    rw [dropFields, List.filter_eq_self.mpr fun e he => decide_eq_true (h e he)]
  | _ => rfl

theorem SettledSection.sortKeys {v : Json} (h : SettledSection volatile v) :
    SettledSection volatile (Json.sortKeys v) := by
  cases v with
  | arr items =>
    rw [Json.sortKeys, Json.sortItems_eq]
    intro item hitem
    obtain ⟨before, hbefore, rfl⟩ := List.mem_map.mp hitem
    exact (h before hbefore).sortKeys
  | obj fields => exact Settled.sortKeys (v := .obj fields) h
  | _ => trivial

theorem SettledSection.dropVolatile_eq {v : Json} (h : SettledSection volatile v) :
    dropVolatile volatile v = v := by
  cases v with
  | obj fields => exact Settled.dropItem_eq (v := .obj fields) h
  | arr items =>
    rw [dropVolatile_arr]
    congr 1
    conv_rhs => rw [← List.map_id items]
    exact List.map_congr_left fun item hitem => (h item hitem).dropItem_eq
  | _ => rfl

theorem SettledSection.sortSection {v : Json} (h : SettledSection volatile v) (name : String) :
    SettledSection volatile (sortSection rt name v) := by
  cases v with
  | arr items =>
    rw [Storage.sortSection]
    split
    · intro item hitem
      exact h item ((List.mem_insertionSort _).mp hitem)
    · exact h
  | _ => exact h

end

/-- Sorted items stay where they are. -/
theorem sortSection_sorted (name : String) (v : Json) :
    sortSection rt name (Json.sortKeys (sortSection rt name v)) =
      Json.sortKeys (sortSection rt name v) := by
  cases v with
  | arr items =>
    by_cases hname : name ∈ collectionSections
    · have hsorted : ((items.insertionSort (canonicalLe rt)).map Json.sortKeys).Pairwise
          (canonicalLe rt) := by
        rw [List.pairwise_map]
        refine (List.pairwise_insertionSort (canonicalLe rt) items).imp fun {v w} h => ?_
        have htext : ∀ u, Json.canonicalJson rt (Json.sortKeys u) = Json.canonicalJson rt u :=
          fun u => (Json.canonicalJson_eq_iff rt).mpr (Json.sortKeys_sortKeys u)
        show Json.canonicalJson rt _ ≤ Json.canonicalJson rt _
        rw [htext, htext]
        exact h
      rw [sortSection_arr hname, Json.sortKeys, Json.sortItems_eq, sortSection_arr hname,
        hsorted.insertionSort_eq]
    · rw [sortSection_of_not_mem hname, sortSection_of_not_mem hname]
  | obj fields =>
    show sortSection rt name (Json.sortKeys (.obj fields)) = Json.sortKeys (.obj fields)
    rw [Json.sortKeys]
    rfl
  | _ => rfl

/-- A section in normal form is its own normal form. -/
theorem normalizeSection_normal (name : String) (v : Json) :
    normalizeSection rt name (Json.sortKeys (normalizeSection rt name v)) =
      Json.sortKeys (normalizeSection rt name v) := by
  have hsettled : SettledSection (volatileOf name) (Json.sortKeys (normalizeSection rt name v)) := by
    rw [normalizeSection_eq]
    exact ((settledSection_dropVolatile v).sortSection name).sortKeys
  rw [normalizeSection_eq, hsettled.dropVolatile_eq, normalizeSection_eq]
  exact sortSection_sorted name _

/-! ## Carrying sections over -/

theorem lookup_filter_keys {p : String → Bool} (k : String) (fields : JsonObject) :
    Assoc.lookup k (fields.filter fun e => p e.1) =
      if p k = true then Assoc.lookup k fields else none := by
  induction fields with
  | nil => simp
  | cons e fields ih =>
    obtain ⟨k', v⟩ := e
    by_cases hk : k' = k
    · subst hk
      by_cases hp : p k' = true
      · rw [List.filter_cons, if_pos hp, if_pos hp, Assoc.lookup_cons_self, Assoc.lookup_cons_self]
      · rw [List.filter_cons, if_neg hp, ih, if_neg hp, if_neg hp]
    · rw [Assoc.lookup_cons_ne hk, ← ih, List.filter_cons]
      split
      · exact Assoc.lookup_cons_ne hk _ _
      · rfl

theorem lookup_setDefault (k : String) (inventory : JsonObject) (e : String × Json) :
    Assoc.lookup k (setDefault inventory e) =
      (Assoc.lookup k inventory).or (Assoc.lookup k [e]) := by
  obtain ⟨k', v⟩ := e
  unfold setDefault
  split
  · next hhas =>
    by_cases hk : k' = k
    · subst hk
      obtain ⟨w, hw⟩ := Option.isSome_iff_exists.mp hhas
      rw [hw]
      rfl
    · rw [Assoc.lookup_cons_ne hk, Assoc.lookup_nil, Option.or_none]
  · exact Assoc.lookup_append k inventory [(k', v)]

theorem lookup_foldl_setDefault (k : String) (fields : JsonObject) : ∀ inventory : JsonObject,
    Assoc.lookup k (fields.foldl setDefault inventory) =
      (Assoc.lookup k inventory).or (Assoc.lookup k fields) := by
  induction fields with
  | nil => simp
  | cons e fields ih =>
    intro inventory
    rw [List.foldl_cons, ih, lookup_setDefault, Option.or_assoc, ← Assoc.lookup_append]
    rfl

section

variable {observed : List String} {inventory : JsonObject} {previous : Option JsonObject} {k : String}

/-- A section that was observed is the current one. -/
theorem lookup_carryForward_observed (hk : k ∈ observed) (hcc : k ≠ "collection_completeness") :
    Assoc.lookup k (carryForward observed inventory previous) = Assoc.lookup k inventory := by
  unfold carryForward
  rw [JsonObject.set, Assoc.lookup_insert, if_neg hcc.symm, lookup_foldl_setDefault,
    @lookup_filter_keys (fun key => decide (key ∈ observed ∨ key = "endpoint")),
    @lookup_filter_keys (fun key => decide (key ∉ observed ∧ key ≠ "collection_completeness")),
    if_pos (decide_eq_true (Or.inl hk)), if_neg (by simp [hk]), Option.or_none]

/-- A section that was not observed is the previous one. -/
theorem lookup_carryForward_unobserved (hk : k ∉ observed) (hendpoint : k ≠ "endpoint")
    (hcc : k ≠ "collection_completeness") :
    Assoc.lookup k (carryForward observed inventory previous) =
      Assoc.lookup k (previous.getD []) := by
  unfold carryForward
  rw [JsonObject.set, Assoc.lookup_insert, if_neg hcc.symm, lookup_foldl_setDefault,
    @lookup_filter_keys (fun key => decide (key ∈ observed ∨ key = "endpoint")),
    @lookup_filter_keys (fun key => decide (key ∉ observed ∧ key ≠ "collection_completeness")),
    if_neg (by simp [hk, hendpoint]), if_pos (decide_eq_true ⟨hk, hcc⟩), Option.none_or]

theorem lookup_carryForward_completeness :
    Assoc.lookup "collection_completeness" (carryForward observed inventory previous) =
      some (collectionCompleteness observed) := by
  unfold carryForward
  rw [JsonObject.set, Assoc.lookup_insert, if_pos rfl]

end

/-! ## The stored snapshots -/

/-- Every stored snapshot is in normal form, under its digest. -/
def NormalPayloads (rt : Runtime) (payloads : Dict String Json) : Prop :=
  ∀ digest payload, payloads.get? digest = some payload → payload.wellFormed = true ∧
    digest = Json.canonicalSha256 rt payload ∧
      ∃ snapshot, payload = Json.sortKeys (.obj (normalizeSnapshot rt snapshot))

theorem normalPayloads_empty : NormalPayloads rt ∅ := fun _ _ h => nomatch h

theorem NormalPayloads.erase {payloads : Dict String Json} (h : NormalPayloads rt payloads)
    (dropped : String) : NormalPayloads rt (payloads.erase dropped) := by
  intro digest payload hget
  rw [Dict.get?_erase] at hget
  split at hget
  · cases hget
  · exact h digest payload hget

theorem wellFormed_normalizeSnapshot {snapshot : JsonObject}
    (h : (Json.obj snapshot).wellFormed = true) :
    (Json.obj (normalizeSnapshot rt snapshot)).wellFormed = true := by
  obtain ⟨hnodup, hvalues⟩ := Json.wellFormed_obj_iff.mp h
  refine Json.wellFormed_obj_iff.mpr ⟨nodup_normalizeSnapshot hnodup, fun e he => ?_⟩
  obtain ⟨field, hfield, rfl⟩ := List.mem_map.mp he
  exact wellFormed_normalizeSection (hvalues field (List.mem_of_mem_filter hfield))

theorem NormalPayloads.insertSnapshot {store : ScanStore} (h : NormalPayloads rt store.payloads)
    {row : SnapshotRow} {snapshot : JsonObject} (hsnapshot : (Json.obj snapshot).wellFormed = true)
    (hrow : row.payloadHash = snapshotHash rt snapshot) :
    NormalPayloads rt (store.insertSnapshot row (normalizeSnapshot rt snapshot)).payloads := by
  rw [ScanStore.insertSnapshot]
  dsimp only
  split
  · exact h
  · intro digest payload hget
    rw [Dict.get?_set] at hget
    split at hget
    · next hdigest =>
      cases hget
      refine ⟨Json.wellFormed_sortKeys (wellFormed_normalizeSnapshot hsnapshot), ?_, snapshot, rfl⟩
      rw [← hdigest, hrow, snapshotHash, Json.canonicalSha256, Json.canonicalSha256,
        (Json.canonicalJson_eq_iff rt).mpr (Json.sortKeys_sortKeys _)]
    · exact h digest payload hget

/-! ## What saving a result does to them -/

/-- The snapshots and their payloads are the same. -/
def SameSnapshots (store store' : ScanStore) : Prop :=
  store'.snapshots = store.snapshots ∧ store'.payloads = store.payloads

/-- One snapshot of the endpoint was added, for the scan. -/
def AddsSnapshot (rt : Runtime) (endpoint scan : String) (snapshot : JsonObject)
    (store store' : ScanStore) : Prop :=
  ∃ row : SnapshotRow, row.endpointId = endpoint ∧ row.scanId = scan ∧
    row.payloadHash = snapshotHash rt snapshot ∧
    row.diff = (store.diffWith rt (store.latest? endpoint) (normalizeSnapshot rt snapshot)).column ∧
      store'.snapshots = store.snapshots.insert row ∧
        store'.payloads = (store.insertSnapshot row (normalizeSnapshot rt snapshot)).payloads

theorem SameSnapshots.latest {store store' : ScanStore} (h : SameSnapshots store store')
    (endpoint : String) : store'.latest? endpoint = store.latest? endpoint := by
  rw [ScanStore.latest?, ScanStore.latest?, h.1, h.2]

theorem SameSnapshots.adds {store store' store'' : ScanStore} {endpoint scan : String}
    {snapshot : JsonObject} (h : SameSnapshots store store')
    (hadds : AddsSnapshot rt endpoint scan snapshot store' store'') :
    AddsSnapshot rt endpoint scan snapshot store store'' := by
  obtain ⟨row, hendpoint, hscan, hhash, hdiff, hsnapshots, hpayloads⟩ := hadds
  refine ⟨row, hendpoint, hscan, hhash, ?_, by rw [hsnapshots, h.1], ?_⟩
  · rw [hdiff, h.latest]
    unfold ScanStore.diffWith
    rw [h.2]
  · rw [hpayloads, ScanStore.insertSnapshot, ScanStore.insertSnapshot, h.2]

theorem storeChecked_ok {now endpoint scan : String} {versions : SnapshotVersions}
    {snapshot : JsonObject} {store store' : ScanStore} {change : SnapshotChange}
    (h : storeChecked rt now endpoint scan versions snapshot store = .ok (change, store')) :
    SameSnapshots store store' ∨ AddsSnapshot rt endpoint scan snapshot store store' := by
  unfold storeChecked at h
  dsimp only at h
  split at h
  · rw [bind_unit_eq_ok] at h
    cases h.2
    exact Or.inl ⟨rfl, rfl⟩
  · cases h
    exact Or.inr ⟨_, rfl, rfl, rfl, rfl, rfl, rfl⟩

theorem storeSnapshot_ok {now endpointId scanId : String} {versions : SnapshotVersions}
    {snapshot : JsonObject} {store store' : ScanStore} {change : SnapshotChange}
    (h : (storeSnapshot rt now endpointId scanId versions snapshot).run store =
      (.ok change, store')) :
    ∃ endpoint scan, cleanIdentifier (.str endpointId) "endpoint_id" = .ok endpoint ∧
      cleanIdentifier (.str scanId) "scan_id" = .ok scan ∧
        (SameSnapshots store store' ∨ AddsSnapshot rt endpoint scan snapshot store store') := by
  unfold storeSnapshot at h
  obtain ⟨endpoint, hendpoint, h⟩ := Method.ofExcept_bind_eq_ok.mp h
  obtain ⟨scan, hscan, h⟩ := Method.ofExcept_bind_eq_ok.mp h
  obtain ⟨schemaVersion, -, h⟩ := Method.ofExcept_bind_eq_ok.mp h
  exact ⟨endpoint, scan, hendpoint, hscan, storeChecked_ok (Method.atomically_eq_ok.mp h)⟩

theorem storeNormalizedResult_ok {pyStr : Json → String} {now scanId resultType : String}
    {endpointId : Option String} {result : JsonObject} {store store' : ResultStore}
    (h : (storeNormalizedResult rt pyStr now scanId endpointId resultType result).run store =
      (.ok (), store')) : SameSnapshots store.toScanStore store'.toScanStore := by
  unfold storeNormalizedResult at h
  obtain ⟨fields, -, h⟩ := Method.ofExcept_bind_eq_ok.mp h
  have h := Method.atomically_eq_ok.mp h
  dsimp only at h
  split at h
  · rw [bind_unit_eq_ok] at h
    cases h.2
    exact ⟨rfl, rfl⟩
  · cases h
    exact ⟨rfl, rfl⟩

theorem appendScanHistory_ok {now scanId event : String} {status idempotencyKey : Option String}
    {details : JsonObject} {store store' : ResultStore}
    (h : (appendScanHistory rt now scanId event status details idempotencyKey).run store =
      (.ok (), store')) : SameSnapshots store.toScanStore store'.toScanStore := by
  unfold appendScanHistory at h
  obtain ⟨scan, -, h⟩ := Method.ofExcept_bind_eq_ok.mp h
  obtain ⟨event, -, h⟩ := Method.ofExcept_bind_eq_ok.mp h
  obtain ⟨key, -, h⟩ := Method.ofExcept_bind_eq_ok.mp h
  have h := Method.atomically_eq_ok.mp h
  dsimp only at h
  split at h
  · rw [bind_unit_eq_ok] at h
    cases h.2
    exact ⟨rfl, rfl⟩
  · cases h
    exact ⟨rfl, rfl⟩

/-- A saved result adds at most the snapshot of its inventory. -/
theorem saveScanResult_ok {pyStr : Json → String} {now scanId : String} {endpointId? : Option String}
    {result : JsonObject} {projections : Except StorageError Unit} {store store' : ResultStore}
    {change : Option SnapshotChange}
    (h : (saveScanResult rt pyStr now scanId endpointId? result projections).run store =
      (.ok change, store')) :
    SameSnapshots store.toScanStore store'.toScanStore ∨
      ∃ endpointId endpoint scan inventory, endpointId? = some endpointId ∧
        cleanIdentifier (.str endpointId) "endpoint_id" = .ok endpoint ∧
        cleanIdentifier (.str scanId) "scan_id" = .ok scan ∧
        inventoryToStore endpointId? result store.toScanStore = .ok (.obj inventory) ∧
          AddsSnapshot rt endpoint scan inventory store.toScanStore store'.toScanStore := by
  unfold saveScanResult at h
  obtain ⟨inventory, hinventory, h⟩ := Method.reading_bind_eq_ok.mp h
  dsimp only at h
  rw [Method.transaction_eq_ok] at h
  obtain ⟨⟨⟩, store₁, hstored, h⟩ := Method.bind_eq_ok.mp h
  have hsame₁ := storeNormalizedResult_ok hstored
  obtain ⟨change', store₂, hchange, h⟩ := Method.bind_eq_ok.mp h
  obtain ⟨⟨⟩, -, h⟩ := Method.ofExcept_bind_eq_ok.mp h
  obtain ⟨⟨⟩, store₄, hhistory, h⟩ := Method.bind_eq_ok.mp h
  have hsame₄ := appendScanHistory_ok hhistory
  cases h
  unfold storeInventory at hchange
  cases endpointId? with
  | none =>
    cases hchange
    exact Or.inl ⟨hsame₄.1.trans hsame₁.1, hsame₄.2.trans hsame₁.2⟩
  | some endpointId =>
    dsimp only at hchange
    by_cases hempty : endpointId = ""
    · rw [if_pos hempty] at hchange
      cases hchange
      exact Or.inl ⟨hsame₄.1.trans hsame₁.1, hsame₄.2.trans hsame₁.2⟩
    · rw [if_neg hempty] at hchange
      cases inventory with
      | obj inventory =>
        dsimp only at hchange
        rw [Method.run_map] at hchange
        rcases hrun : (Method.on ResultStore.scans (storeSnapshot rt now endpointId scanId _
          inventory)).run store₁ with ⟨e | change'', store₅⟩
        · rw [hrun] at hchange
          cases hchange
        · rw [hrun] at hchange
          cases hchange
          obtain ⟨scans, hsnapshot, rfl⟩ := Method.on_eq.mp hrun
          obtain ⟨endpoint, scan, hendpoint, hscan, hsnapshots⟩ := storeSnapshot_ok hsnapshot
          rcases hsnapshots with hsame | hadds
          · exact Or.inl ⟨hsame₄.1.trans (hsame.1.trans hsame₁.1),
              hsame₄.2.trans (hsame.2.trans hsame₁.2)⟩
          · obtain ⟨row, hrow, hrowScan, hhash, hdiff, hinserted, hpayloads⟩ := hsame₁.adds hadds
            exact Or.inr ⟨endpointId, endpoint, scan, inventory, rfl, hendpoint, hscan, hinventory,
              row, hrow, hrowScan, hhash, hdiff, hsame₄.1.trans hinserted,
              hsame₄.2.trans hpayloads⟩
      | _ => cases hchange

/-- A result that cannot be saved leaves everything as it was. -/
theorem saveScanResult_error {pyStr : Json → String} {now scanId : String}
    {endpointId : Option String} {result : JsonObject} {projections : Except StorageError Unit}
    {store store' : ResultStore} {e : StorageError}
    (h : (saveScanResult rt pyStr now scanId endpointId result projections).run store =
      (.error e, store')) : store' = store := by
  unfold saveScanResult at h
  rcases Method.bind_eq_error.mp h with h | ⟨inventory, store₁, hread, h⟩
  · rw [Method.run_reading, Prod.mk.injEq] at h
    exact h.2.symm
  · rw [Method.run_reading, Prod.mk.injEq] at hread
    rw [← hread.2] at h
    exact Method.transaction_error_state h

/-! ## Values of Python -/

theorem wellFormed_setDefault {inventory : JsonObject} {e : String × Json}
    (h : (Json.obj inventory).wellFormed = true) (he : e.2.wellFormed = true) :
    (Json.obj (setDefault inventory e)).wellFormed = true := by
  unfold setDefault
  split
  · exact h
  · next hhas =>
    obtain ⟨hnodup, hvalues⟩ := Json.wellFormed_obj_iff.mp h
    refine Json.wellFormed_obj_iff.mpr ⟨?_, fun e' he' => ?_⟩
    · rw [List.map_append, List.map_singleton]
      refine List.nodup_append.mpr ⟨hnodup, List.nodup_singleton _, fun a ha b hb hab => hhas ?_⟩
      rw [List.mem_singleton] at hb
      rw [hab, hb] at ha
      exact Assoc.lookup_isSome_iff.mpr ha
    · rcases List.mem_append.mp he' with he' | he'
      · exact hvalues e' he'
      · rw [List.mem_singleton.mp he']
        exact he

theorem wellFormed_foldl_setDefault {fields : JsonObject}
    (hfields : ∀ e ∈ fields, e.2.wellFormed = true) : ∀ {inventory : JsonObject},
    (Json.obj inventory).wellFormed = true →
      (Json.obj (fields.foldl setDefault inventory)).wellFormed = true := by
  induction fields with
  | nil => exact fun h => h
  | cons e fields ih =>
    intro inventory h
    rw [List.forall_mem_cons] at hfields
    exact ih hfields.2 (wellFormed_setDefault h hfields.1)

theorem wellFormed_filter {fields : JsonObject} (p : String × Json → Bool)
    (h : (Json.obj fields).wellFormed = true) : (Json.obj (fields.filter p)).wellFormed = true := by
  obtain ⟨hnodup, hvalues⟩ := Json.wellFormed_obj_iff.mp h
  refine Json.wellFormed_obj_iff.mpr ⟨?_, fun e he => hvalues e (List.mem_of_mem_filter he)⟩
  exact hnodup.sublist (List.filter_sublist.map Prod.fst)

theorem wellFormed_texts (names : List String) : (Json.arr (names.map .str)).wellFormed = true := by
  rw [Json.wellFormed_arr_iff]
  intro v hv
  obtain ⟨name, -, rfl⟩ := List.mem_map.mp hv
  rfl

theorem wellFormed_collectionCompleteness (observed : List String) :
    (collectionCompleteness observed).wellFormed = true := by
  refine Json.wellFormed_obj_iff.mpr ⟨by simp, fun e he => ?_⟩
  simp only [List.mem_cons, List.not_mem_nil, or_false] at he
  rcases he with rfl | rfl
  · exact wellFormed_texts _
  · exact wellFormed_texts _

theorem wellFormed_carryForward {observed : List String} {inventory : JsonObject}
    {previous : Option JsonObject} (h : (Json.obj inventory).wellFormed = true)
    (hprevious : ∀ fields ∈ previous, (Json.obj fields).wellFormed = true) :
    (Json.obj (carryForward observed inventory previous)).wellFormed = true := by
  have hcarried : ∀ e ∈ previous.getD [], e.2.wellFormed = true := by
    cases previous with
    | none => exact fun e he => nomatch he
    | some fields => exact (Json.wellFormed_obj_iff.mp (hprevious fields rfl)).2
  have hfolded := @wellFormed_foldl_setDefault
    ((previous.getD []).filter fun e => decide (e.1 ∉ observed ∧ e.1 ≠ "collection_completeness"))
    (fun e he => hcarried e (List.mem_of_mem_filter he)) _
    (wellFormed_filter (fun e => decide (e.1 ∈ observed ∨ e.1 = "endpoint")) h)
  obtain ⟨hnodup, hvalues⟩ := Json.wellFormed_obj_iff.mp hfolded
  refine Json.wellFormed_obj_iff.mpr ⟨Assoc.nodup_insert _ _ hnodup, fun e he => ?_⟩
  have hlookup := Assoc.lookup_of_mem (Assoc.nodup_insert _ _ hnodup) he
  rw [Assoc.lookup_insert] at hlookup
  split at hlookup
  · rw [← Option.some.inj hlookup]
    exact wellFormed_collectionCompleteness observed
  · exact hvalues _ (Assoc.mem_of_lookup hlookup)

theorem wellFormed_savedInventory {result : JsonObject}
    (h : (Json.obj result).wellFormed = true) : (savedInventory result).wellFormed = true := by
  unfold savedInventory
  cases hlookup : Assoc.lookup "inventory" result with
  | none =>
    rw [JsonObject.get, hlookup]
    exact wellFormed_filter _ h
  | some v =>
    have hv : v.wellFormed = true :=
      (Json.wellFormed_obj_iff.mp h).2 _ (Assoc.mem_of_lookup hlookup)
    rw [JsonObject.get, hlookup]
    cases v with
    | null => exact wellFormed_filter _ h
    | _ => exact hv

/-! ## Runs -/

/-- One call of `save_scan_result`, with a result as Python has it. -/
structure Save where
  now : String
  scanId : String
  endpointId : Option String
  result : JsonObject
  wellFormed : (Json.obj result).wellFormed = true
  projections : Except StorageError Unit

/-- What happens to the store between two scans. -/
inductive StoreCall where
  | save (save : Save)
  /-- Everything else; retention deletes payloads of snapshots. -/
  | other (store : ResultStore) (dropped : List String)

section

variable (rt) (pyStr : Json → String)

def Save.method (save : Save) : ResultMethod (Option SnapshotChange) :=
  saveScanResult rt pyStr save.now save.scanId save.endpointId save.result save.projections

def StoreCall.step (store : ResultStore) : StoreCall → ResultStore
  | .save saved => ((saved.method rt pyStr).run store).2
  | .other after dropped => { after with payloads := dropped.foldl Dict.erase store.payloads }

/-- The store after some calls on a new installation. -/
def reachedStore (calls : List StoreCall) : ResultStore :=
  runFrom (StoreCall.step rt pyStr) .empty calls

/-- The latest snapshot of the endpoint. -/
def priorSnapshot (endpoint : String) (store : ScanStore) : Option JsonObject :=
  (store.latest? endpoint).bind fun e =>
    (store.payloads.get? e.2.payloadHash).map ScanStore.fieldsOf

end

/-- An upload says that a section was added, changed or removed. -/
def Lists (upload : JsonObject) (name : String) : Prop :=
  (∃ fields, upload.get "sections" = .obj fields ∧ JsonObject.has fields name = true) ∨
    ∃ names, upload.get "removed_sections" = .arr names ∧ .str name ∈ names

/--
The endpoint's latest snapshot is one of the scan; what the scan did not observe is as in the
snapshot before, and what it observed is the current value in normal form.
-/
structure CarriesOver (rt : Runtime) (endpoint scan : String) (observed : List String)
    (inventory prior : JsonObject) (store : ScanStore) : Prop where
  stored : ∃ id row snapshot, store.latest? endpoint = some (id, row) ∧ row.scanId = scan ∧
    store.payloads.get? row.payloadHash = some (.obj snapshot) ∧
    (∀ name ∉ observed, name ≠ "endpoint" → name ≠ "collection_completeness" →
      ∀ value, Assoc.lookup name prior = some value →
        Assoc.lookup name snapshot = some value ∧ name ∉ changedSections row.diff ∧
          ∀ upload, snapshotUploadPayload store id = .ok upload → ¬ Lists upload name) ∧
    ∀ name ∈ observed, name ≠ "collection_completeness" →
      Assoc.lookup name snapshot =
        (Assoc.lookup name (normalizeSnapshot rt inventory)).map Json.sortKeys

/-! ## One snapshot -/

/-- What an upload lists, the comparison has found to be changed. -/
theorem mem_changedSections_of_lists {store : ScanStore} {row : SnapshotRow}
    {diff snapshot : JsonObject} {name : String}
    (h : Lists (uploadEnvelope store row ++ uploadSections diff snapshot) name) :
    name ∈ changedSections diff := by
  have hget : ∀ key, key ∉ ["endpoint_id", "scan_id", "schema_version", "policy_version",
      "scanner_version", "snapshot_hash", "previous_hash"] →
      (uploadEnvelope store row ++ uploadSections diff snapshot).get key =
        (uploadSections diff snapshot).get key := by
    intro key hkey
    have henvelope : Assoc.lookup key (uploadEnvelope store row) = none :=
      Assoc.lookup_eq_none_iff.mpr hkey
    rw [JsonObject.get, Assoc.lookup_append, henvelope, Option.none_or]
    rfl
  unfold Lists at h
  rw [hget "sections" (by simp), hget "removed_sections" (by simp)] at h
  unfold uploadSections at h
  split at h
  · rcases h with ⟨fields, hfields, -⟩ | ⟨names, hnames, -⟩
    · cases hfields
    · cases hnames
  · split at h
    · rcases h with ⟨fields, hfields, hhas⟩ | ⟨names, hnames, hmem⟩
      · cases hfields
        have hkeys := Assoc.lookup_isSome_iff.mp hhas
        rw [List.map_map, List.mem_map] at hkeys
        obtain ⟨found, hfound, rfl⟩ := hkeys
        exact List.mem_of_mem_filter hfound
      · cases hnames
        obtain ⟨found, hfound, heq⟩ := List.mem_map.mp hmem
        cases heq
        exact List.mem_of_mem_filter hfound
    · rcases h with ⟨fields, hfields, -⟩ | ⟨names, hnames, -⟩
      · cases hfields
      · cases hnames

theorem lookup_parsed (name : String) (document : JsonObject) :
    Assoc.lookup name (parsed document) = (Assoc.lookup name document).map Json.sortKeys :=
  Json.lookup_sortedFields name document

section

variable {store store' : ScanStore} {endpoint scan : String} {observed : List String}
  {inventory snapshot : JsonObject}

/-- The latest snapshot, as a section list in normal form. -/
theorem NormalPayloads.prior (h : NormalPayloads rt store.payloads) {prior : JsonObject}
    (hprior : priorSnapshot endpoint store = some prior) :
    (Json.obj prior).wellFormed = true ∧
      ∃ before, prior = parsed (normalizeSnapshot rt before) := by
  obtain ⟨e, -, hpayload⟩ := Option.bind_eq_some_iff.mp hprior
  obtain ⟨payload, hget, rfl⟩ := Option.map_eq_some_iff.mp hpayload
  obtain ⟨hformed, -, before, rfl⟩ := h _ payload hget
  exact ⟨hformed, before, rfl⟩

/-- A section of the latest snapshot is in normal form. -/
theorem NormalPayloads.section_normal (h : NormalPayloads rt store.payloads) {prior : JsonObject}
    (hprior : priorSnapshot endpoint store = some prior) {name : String} {value : Json}
    (hvalue : Assoc.lookup name prior = some value) :
    name ≠ "processes" ∧ value.wellFormed = true ∧ Json.sortKeys value = value ∧
      normalizeSection rt name value = value := by
  obtain ⟨hformed, before, rfl⟩ := h.prior hprior
  have hvalueFormed := (Json.wellFormed_obj_iff.mp hformed).2 _ (Assoc.mem_of_lookup hvalue)
  rw [lookup_parsed, lookup_normalizeSnapshot] at hvalue
  by_cases hname : name = "processes"
  · rw [if_pos hname] at hvalue
    cases hvalue
  · rw [if_neg hname, Option.map_map] at hvalue
    obtain ⟨v, -, rfl⟩ := Option.map_eq_some_iff.mp hvalue
    exact ⟨hname, hvalueFormed, Json.sortKeys_sortKeys _, normalizeSection_normal name v⟩

/-- `get_latest_snapshot` reads the snapshot that the next one is compared with. -/
theorem latestSnapshot_eq (h : NormalPayloads rt store.payloads) {endpointId : String}
    (hendpoint : cleanIdentifier (.str endpointId) "endpoint_id" = .ok endpoint) :
    latestSnapshot (some endpointId) store = .ok (priorSnapshot endpoint store) := by
  have hne : endpointId ≠ "" := by
    rintro rfl
    have hempty : cleanIdentifier (.str "") "endpoint_id" =
        .error ⟨.valueError, "endpoint_id must not be empty"⟩ := by decide +kernel
    rw [hempty] at hendpoint
    cases hendpoint
  have hclean : cleanEndpoint (some endpointId) = .ok (some endpoint) := by
    unfold cleanEndpoint
    dsimp only
    rw [if_neg hne, hendpoint]
    rfl
  unfold latestSnapshot
  rw [hclean]
  simp only [bind, Except.bind]
  unfold priorSnapshot
  cases hlatest : store.latest? endpoint with
  | none => rfl
  | some e =>
    cases hpayload : store.payloads.get? e.2.payloadHash with
    | none => simp [hpayload]
    | some payload =>
      obtain ⟨-, -, before, rfl⟩ := h _ payload hpayload
      simp only [Option.bind_some, hpayload, Json.sortKeys]
      rfl

/-- The added snapshot is the endpoint's latest one, in normal form. -/
theorem AddsSnapshot.latest (hnormal : NormalPayloads rt store.payloads)
    (hcollision : ∀ payload ∈ store.payloads.values,
      Json.canonicalSha256 rt payload = snapshotHash rt snapshot →
        Json.canonicalJson rt payload = Json.canonicalJson rt (.obj (normalizeSnapshot rt snapshot)))
    (h : AddsSnapshot rt endpoint scan snapshot store store') :
    ∃ id row, store'.latest? endpoint = some (id, row) ∧ row.scanId = scan ∧
      store'.snapshots.get? id = some row ∧
      row.diff = (store.diffWith rt (store.latest? endpoint) (normalizeSnapshot rt snapshot)).column ∧
      store'.payloads.get? row.payloadHash =
        some (.obj (parsed (normalizeSnapshot rt snapshot))) := by
  obtain ⟨row, hendpoint, hscan, hhash, hdiff, hsnapshots, hpayloads⟩ := h
  have hstored : store'.payloads.get? row.payloadHash =
      some (.obj (parsed (normalizeSnapshot rt snapshot))) := by
    rw [hpayloads, ScanStore.insertSnapshot]
    dsimp only
    split
    · next hcontains =>
      obtain ⟨payload, hget⟩ := Dict.contains_iff.mp hcontains
      obtain ⟨-, hdigest, before, rfl⟩ := hnormal _ payload hget
      rw [hget]
      have hsame := hcollision _ (Dict.mem_values_of_get? hget) (hdigest.symm.trans hhash)
      rw [Json.canonicalJson_eq_iff, Json.sortKeys_sortKeys] at hsame
      rw [hsame, Json.sortKeys]
      rfl
    · rw [Dict.get?_set_self, Json.sortKeys]
      rfl
  refine ⟨store.snapshots.nextId, row, ?_, hscan, ?_, hdiff, hstored⟩
  · unfold ScanStore.latest?
    rw [hsnapshots]
    refine Table.last?_insert ?_
    rw [Bool.and_eq_true]
    exact ⟨decide_eq_true hendpoint, Dict.contains_iff.mpr ⟨_, hstored⟩⟩
  · rw [hsnapshots]
    exact Table.get?_insert_self _ _

/-- A carried section equals the one of the latest snapshot, also in the comparison. -/
theorem sectionUnchanged_carried (hnormal : NormalPayloads rt store.payloads) {prior : JsonObject}
    (hprior : priorSnapshot endpoint store = some prior) {name : String} (hname : name ∉ observed)
    (hendpoint : name ≠ "endpoint") (hcompleteness : name ≠ "collection_completeness") {value : Json}
    (hvalue : Assoc.lookup name prior = some value) :
    Assoc.lookup name (normalizeSnapshot rt (carryForward observed inventory (some prior))) =
        some value ∧
      sectionUnchanged prior (normalizeSnapshot rt (carryForward observed inventory (some prior)))
        name = true := by
  obtain ⟨hprocesses, hformed, hsorted, hsection⟩ := hnormal.section_normal hprior hvalue
  have hlookup : Assoc.lookup name
      (normalizeSnapshot rt (carryForward observed inventory (some prior))) = some value := by
    rw [lookup_normalizeSnapshot, if_neg hprocesses,
      lookup_carryForward_unobserved hname hendpoint hcompleteness, Option.getD_some, hvalue,
      Option.map_some, hsection]
  have hequal : Json.pyEq value value = true := Json.pyEq_of_sortKeys_eq value hformed value rfl
  refine ⟨hlookup, ?_⟩
  rw [sectionUnchanged, JsonObject.get, JsonObject.get, JsonObject.has, JsonObject.has, hvalue,
    hlookup]
  simpa using hequal

theorem carriesOver_of_adds (hnormal : NormalPayloads rt store.payloads)
    (hcollision : ∀ payload ∈ store.payloads.values,
      Json.canonicalSha256 rt payload =
          snapshotHash rt (carryForward observed inventory (priorSnapshot endpoint store)) →
        Json.canonicalJson rt payload = Json.canonicalJson rt
          (.obj (normalizeSnapshot rt
            (carryForward observed inventory (priorSnapshot endpoint store)))))
    (h : AddsSnapshot rt endpoint scan
      (carryForward observed inventory (priorSnapshot endpoint store)) store store') :
    CarriesOver rt endpoint scan observed inventory ((priorSnapshot endpoint store).getD [])
      store' := by
  obtain ⟨id, row, hlatest, hscan, hrow, hdiff, hstored⟩ := h.latest hnormal hcollision
  refine ⟨id, row, _, hlatest, hscan, hstored, ?_, ?_⟩
  · intro name hname hendpoint hcompleteness value hvalue
    cases hprior : priorSnapshot endpoint store with
    | none =>
      rw [hprior] at hvalue
      cases hvalue
    | some prior =>
      rw [hprior] at hvalue
      obtain ⟨hlookup, hunchanged⟩ := @sectionUnchanged_carried rt store endpoint observed inventory
        hnormal prior hprior name hname hendpoint hcompleteness value hvalue
      obtain ⟨-, -, hsorted, -⟩ := hnormal.section_normal hprior hvalue
      have hnames : name ∉ changedSections row.diff := by
        rw [hdiff, changedSections_column]
        show name ∉ (compareSnapshots rt (priorSnapshot endpoint store) _).map
          SectionChange.sectionName
        rw [hprior, compareSnapshots, List.map_map, List.mem_map]
        rintro ⟨changed, hchanged, rfl⟩
        have hfound := (List.mem_filter.mp hchanged).2
        rw [show sectionUnchanged prior _ changed = true from hunchanged] at hfound
        cases hfound
      refine ⟨?_, hnames, fun upload hupload hlists => hnames ?_⟩
      · rw [lookup_parsed, hlookup, Option.map_some, hsorted]
      · unfold snapshotUploadPayload at hupload
        rw [hrow] at hupload
        dsimp only at hupload
        rw [hstored] at hupload
        cases hupload
        exact mem_changedSections_of_lists hlists
  · intro name hname hcompleteness
    rw [lookup_parsed, lookup_normalizeSnapshot, lookup_normalizeSnapshot,
      lookup_carryForward_observed hname hcompleteness]

end

/-! ## Every run -/

theorem inventoryToStore_wellFormed {endpointId : Option String} {result inventory : JsonObject}
    {store : ScanStore} (hresult : (Json.obj result).wellFormed = true)
    (hnormal : NormalPayloads rt store.payloads)
    (h : inventoryToStore endpointId result store = .ok (.obj inventory)) :
    (Json.obj inventory).wellFormed = true := by
  have hsaved := wellFormed_savedInventory hresult
  unfold inventoryToStore at h
  split at h
  · next current observed hcurrent _ =>
    obtain ⟨previous, hprevious, h⟩ := bind_eq_ok.mp h
    cases h
    refine wellFormed_carryForward (hcurrent ▸ hsaved) fun fields hfields => ?_
    unfold latestSnapshot at hprevious
    obtain ⟨endpoint?, -, hprevious⟩ := bind_eq_ok.mp hprevious
    cases endpoint? with
    | none =>
      cases hprevious
      cases hfields
    | some endpoint =>
      dsimp only at hprevious
      split at hprevious
      · next snapshot hsnapshot =>
        cases hprevious
        obtain rfl : snapshot = fields := Option.some.inj hfields
        obtain ⟨e, -, hget⟩ := Option.bind_eq_some_iff.mp hsnapshot
        exact (hnormal _ _ hget).1
      · cases hprevious
        cases hfields
  · rw [Except.ok.injEq] at h
    rw [← h]
    exact hsaved

/-- Whatever is saved, and whatever retention drops, the stored snapshots are in normal form. -/
theorem normalPayloads_step {pyStr : Json → String} {store : ResultStore}
    (h : NormalPayloads rt store.payloads) (call : StoreCall) :
    NormalPayloads rt (call.step rt pyStr store).payloads := by
  cases call with
  | save saved =>
    rw [StoreCall.step]
    rcases hrun : (saved.method rt pyStr).run store with ⟨e | change, store'⟩
    · rw [saveScanResult_error hrun]
      exact h
    · rcases saveScanResult_ok hrun with hsame | hadds
      · show NormalPayloads rt store'.payloads
        rw [hsame.2]
        exact h
      · obtain ⟨endpointId, endpoint, scan, inventory, hid, -, -, hinventory, row, -, -, hhash, -, -,
          hpayloads⟩ := hadds
        show NormalPayloads rt store'.payloads
        rw [hpayloads]
        exact h.insertSnapshot (inventoryToStore_wellFormed saved.wellFormed h hinventory) hhash
  | other after dropped =>
    show NormalPayloads rt (dropped.foldl Dict.erase store.payloads)
    generalize store.payloads = payloads at h
    induction dropped generalizing payloads with
    | nil => exact h
    | cons digest dropped ih => exact ih (payloads.erase digest) (h.erase digest)

theorem normalPayloads_reached (pyStr : Json → String) (calls : List StoreCall) :
    NormalPayloads rt (reachedStore rt pyStr calls).payloads :=
  run_invariant (P := fun store : ResultStore => NormalPayloads rt store.payloads)
    (fun _ call h => normalPayloads_step h call) normalPayloads_empty

/-- A scan of the software, on a new installation. -/
def softwareSave : Save where
  now := "2023-11-14T22:13:20.000000Z"
  scanId := "scan-1"
  endpointId := some "endpoint-1"
  result := [("software", .arr []),
    ("metadata", .obj [("observed_inventory_sections", .arr [.str "software"])])]
  wellFormed := by decide
  projections := .ok ()

/-- The call on a new installation. -/
def Save.first (saved : Save) : Except StorageError (Option SnapshotChange) × ResultStore :=
  (saved.method Runtime.sample fun _ => "").run (reachedStore Runtime.sample (fun _ => "") [])

/-- A scan that claims to have observed the section that says what was observed. -/
def completenessSave : Save where
  now := "2023-11-14T22:13:20.000000Z"
  scanId := "scan-1"
  endpointId := some "endpoint-1"
  result := [("inventory", .obj [("collection_completeness", .null)]),
    ("metadata", .obj [("observed_inventory_sections", .arr [.str "collection_completeness"])])]
  wellFormed := by decide
  projections := .ok ()

end OsScanner.Storage

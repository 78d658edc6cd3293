import Mathlib
import OsScanner.Storage.Operations
import OsScanner.Storage.References

/-!
# What retention leaves

Pruning takes away terminal scans that nothing needs any more, keeps the rest as it was, and every
snapshot that is left can be uploaded, as a baseline or against a base that is still there. This
holds in every state that the methods of the storage can reach.
-/

namespace OsScanner.Storage

open Lib Lib.Check

/-! ## Why a scan may be deleted -/

/-- The upload was delivered, or it is dead and another was delivered in its place. -/
def UploadRow.Settled (uploads : Table UploadRow) (row : UploadRow) : Prop :=
  row.status = .succeeded ∨ (row.status = .dead ∧ ∃ id replacement,
    row.supersededByUploadId = some id ∧ uploads.get? id = some replacement ∧
      replacement.status = .succeeded)

/-- So many other terminal scans ended after this one. -/
def PushedOut (jobs : ScanJobs) (scan : EndedScan) (count : Nat) : Prop :=
  ∃ newer : List EndedScan, newer.length = count ∧ (newer.map EndedScan.scanId).Nodup ∧
    ∀ other ∈ newer, other.scanId ≠ scan.scanId ∧ endedOrder scan other ∧
      ∃ row, jobs.get? other.scanId = some row ∧ row.terminal = true ∧
        row.finishedAt = other.finishedAt

/-- The scan is terminal and old enough, and nothing needs it any more. -/
structure Prunable (request : PruneRequest) (held : List String) (store : ResultStore)
    (scanId : String) : Prop where
  ended : ∃ row, store.jobs.get? scanId = some row ∧ row.terminal = true ∧
    (row.finishedAt < request.olderThan ∨
      PushedOut store.jobs ⟨row.finishedAt, scanId⟩ request.maxCompletedScans.toNat)
  notHeld : scanId ∉ held
  notLatest : ∀ endpoint id row,
    (store.snapshots.last? fun _ row => decide (row.endpointId = endpoint)) = some (id, row) →
      row.scanId ≠ scanId
  delivered : ∀ id row, store.uploads.get? id = some row →
    row.metadata.get "scan_id" = .str scanId → row.Settled store.uploads

theorem mem_endedScans {jobs : ScanJobs} {scan : EndedScan} : scan ∈ endedScans jobs ↔
    ∃ row, jobs.get? scan.scanId = some row ∧ row.terminal = true ∧
      row.finishedAt = scan.finishedAt := by
  rw [endedScans, List.mem_insertionSort, List.mem_map]
  constructor
  · rintro ⟨e, he, rfl⟩
    rw [List.mem_filter] at he
    exact ⟨e.2, Dict.mem_entries_iff.mp he.1, he.2, rfl⟩
  · rintro ⟨row, hrow, hterminal, hfinished⟩
    refine ⟨(scan.scanId, row), List.mem_filter.mpr ⟨Dict.mem_entries_iff.mpr hrow, hterminal⟩, ?_⟩
    dsimp only
    rw [hfinished]

theorem nodup_endedScans (jobs : ScanJobs) : ((endedScans jobs).map EndedScan.scanId).Nodup := by
  have hperm := (List.perm_insertionSort endedOrder
    ((jobs.entries.filter fun e => e.2.terminal).map fun e => EndedScan.mk e.2.finishedAt e.1)).map
      EndedScan.scanId
  rw [endedScans, hperm.nodup_iff, List.map_map]
  exact jobs.nodup.sublist (List.filter_sublist.map Prod.fst)

/-- A scan behind the first ones, the newest first, is pushed out by them. -/
theorem pushedOut_of_mem {jobs : ScanJobs} {scan : EndedScan} {count : Nat}
    (h : scan ∈ (endedScans jobs).reverse.drop count) : PushedOut jobs scan count := by
  have hsplit := List.take_append_drop count (endedScans jobs).reverse
  have hnodup : ((endedScans jobs).reverse.map EndedScan.scanId).Nodup := by
    rw [List.map_reverse, List.nodup_reverse]
    exact nodup_endedScans jobs
  have hsorted : (endedScans jobs).reverse.Pairwise fun a b => endedOrder b a :=
    List.pairwise_reverse.mpr (List.pairwise_insertionSort endedOrder _)
  have hlength : count < (endedScans jobs).reverse.length := by
    by_contra hle
    rw [List.drop_eq_nil_of_le (not_lt.mp hle)] at h
    cases h
  rw [← hsplit, List.map_append, List.nodup_append] at hnodup
  rw [← hsplit, List.pairwise_append] at hsorted
  refine ⟨(endedScans jobs).reverse.take count, List.length_take_of_le hlength.le, hnodup.1,
    fun other hother => ⟨fun heq => ?_, hsorted.2.2 other hother scan h, ?_⟩⟩
  · exact hnodup.2.2 _ (List.mem_map_of_mem hother) _ (List.mem_map_of_mem h) heq
  · exact mem_endedScans.mp (List.mem_reverse.mp (List.mem_of_mem_take hother))

theorem candidates_ended {request : PruneRequest} {jobs : ScanJobs} {scanId : String}
    (h : scanId ∈ request.candidates jobs) :
    ∃ row, jobs.get? scanId = some row ∧ row.terminal = true ∧
      (row.finishedAt < request.olderThan ∨
        PushedOut jobs ⟨row.finishedAt, scanId⟩ request.maxCompletedScans.toNat) := by
  rw [PruneRequest.candidates, List.mem_eraseDups] at h
  obtain ⟨scan, hscan, rfl⟩ := List.mem_map.mp h
  rcases List.mem_append.mp hscan with haged | hover
  · obtain ⟨hmem, hold⟩ := List.mem_filter.mp (List.mem_of_mem_take haged)
    obtain ⟨row, hrow, hterminal, hfinished⟩ := mem_endedScans.mp hmem
    exact ⟨row, hrow, hterminal, Or.inl (hfinished ▸ of_decide_eq_true hold)⟩
  · have hpushed := List.mem_of_mem_take hover
    obtain ⟨row, hrow, hterminal, hfinished⟩ :=
      mem_endedScans.mp (List.mem_reverse.mp (List.mem_of_mem_drop hpushed))
    exact ⟨row, hrow, hterminal, Or.inr (hfinished ▸ pushedOut_of_mem hpushed)⟩

/-- The scan of an endpoint's latest snapshot is found. -/
theorem hasLatestSnapshot_of_last {snapshots : Table SnapshotRow} {endpoint : String} {id : Nat}
    {row : SnapshotRow}
    (h : (snapshots.last? fun _ row => decide (row.endpointId = endpoint)) = some (id, row)) :
    hasLatestSnapshot snapshots row.scanId = true := by
  obtain ⟨hget, hendpoint⟩ := Table.last?_eq_some h
  rw [hasLatestSnapshot, ← Option.not_isNone, Bool.not_eq_true', Option.isNone_eq_false_iff,
    Option.isSome_iff_ne_none]
  intro hnone
  have hfalse := Table.first?_eq_none.mp hnone id row hget
  rw [isLatestSnapshot, of_decide_eq_true hendpoint, h] at hfalse
  simp at hfalse

theorem settled_of_not_unresolved {uploads : Table UploadRow} {row : UploadRow}
    (h : unresolvedUpload uploads row = false) : row.Settled uploads := by
  rw [unresolvedUpload, Bool.or_eq_false_iff, decide_eq_false_iff_not, Bool.and_eq_false_iff,
    decide_eq_false_iff_not, Bool.not_eq_false', Option.any_eq_true] at h
  obtain ⟨hwaiting, hdead | ⟨replacement, hreplacement, hsucceeded⟩⟩ := h
  · cases hstatus : row.status with
    | succeeded => exact Or.inl hstatus
    | pending => exact absurd (Or.inl hstatus) hwaiting
    | inFlight => exact absurd (Or.inr hstatus) hwaiting
    | dead => exact absurd hstatus hdead
  · obtain ⟨id, hid, hget⟩ := Option.bind_eq_some_iff.mp hreplacement
    cases hstatus : row.status with
    | succeeded => exact Or.inl hstatus
    | pending => exact absurd (Or.inl hstatus) hwaiting
    | inFlight => exact absurd (Or.inr hstatus) hwaiting
    | dead => exact Or.inr ⟨hstatus, id, replacement, hid, hget, of_decide_eq_true hsucceeded⟩

theorem prunable_of_selected {request : PruneRequest} {held : List String} {store : ResultStore}
    {scanId : String} (hstore : Intact store) (h : scanId ∈ request.selected held store) :
    Prunable request held store scanId := by
  rw [PruneRequest.selected] at h
  obtain ⟨hcandidate, hfree⟩ := List.mem_filter.mp (List.mem_of_mem_take h)
  rw [Bool.not_eq_true', Bool.or_eq_false_iff, Bool.or_eq_false_iff] at hfree
  obtain ⟨⟨hheld, hlatest⟩, hunresolved⟩ := hfree
  have hended := candidates_ended hcandidate
  refine ⟨hended, ?_, fun endpoint id row hlast heq => ?_, fun id row hrow hmetadata => ?_⟩
  · rw [← List.contains_iff_mem, hheld]
    exact Bool.false_ne_true
  · rw [← heq, hasLatestSnapshot_of_last hlast] at hlatest
    cases hlatest
  · obtain ⟨job, hjob, -⟩ := hended
    -- a scan has a name, so that the query looks for it
    have hne : scanId ≠ "" := by
      rintro rfl
      have hnamed := hstore.named
      rw [Dict.contains_eq_false, hjob] at hnamed
      cases hnamed
    rw [hasUnresolvedUpload, decide_eq_true hne, Bool.true_and, Option.isSome_eq_false_iff,
      Option.isNone_iff_eq_none] at hunresolved
    have hfalse := Table.first?_eq_none.mp hunresolved id row hrow
    rw [decide_eq_true hmetadata, Bool.and_true] at hfalse
    exact settled_of_not_unresolved hfalse

/-! ## What is left -/

/-- The tables without the scans. -/
structure Pruned (deleted : List String) (store store' : ResultStore) : Prop where
  jobs : ∀ scanId, store'.jobs.get? scanId =
    if scanId ∈ deleted then none else store.jobs.get? scanId
  results : ∀ scanId, store'.results.get? scanId =
    if scanId ∈ deleted then none else store.results.get? scanId
  resultPayload : ∀ scanId row, store'.results.get? scanId = some row →
    store'.resultPayloads.get? row.payloadHash = store.resultPayloads.get? row.payloadHash
  history : store'.history = store.history.filter fun row => decide (row.scanId ∉ deleted)
  snapshot : ∀ id, store'.snapshots.get? id = (store.snapshots.get? id).bind fun row =>
    if row.scanId ∈ deleted then none else some (rebase (ofScans deleted store.snapshots) row)
  payload : ∀ id row, store'.snapshots.get? id = some row →
    store'.payloads.get? row.payloadHash = store.payloads.get? row.payloadHash
  uploads : store'.uploads = store.uploads
  auditLog : store'.auditLog = store.auditLog

@[simp] theorem rebase_payloadHash (removed : Nat → Bool) (row : SnapshotRow) :
    (rebase removed row).payloadHash = row.payloadHash := by
  unfold rebase
  split <;> rfl

@[simp] theorem rebase_scanId (removed : Nat → Bool) (row : SnapshotRow) :
    (rebase removed row).scanId = row.scanId := by
  unfold rebase
  split <;> rfl

theorem contains_eq_decide (scanIds : List String) (scanId : String) :
    scanIds.contains scanId = decide (scanId ∈ scanIds) := by
  rw [Bool.eq_iff_iff, List.contains_iff_mem, decide_eq_true_iff]

/-- A snapshot that is left was there and belongs to a scan that is left. -/
theorem get?_deleteScans {deleted : List String} {store : ResultStore} {id : Nat}
    {row : SnapshotRow} : (deleteScans deleted store).snapshots.get? id = some row ↔
      ∃ before, store.snapshots.get? id = some before ∧ before.scanId ∉ deleted ∧
        row = rebase (ofScans deleted store.snapshots) before := by
  dsimp only [deleteScans]
  rw [Table.get?_update, Option.map_eq_some_iff]
  constructor
  · rintro ⟨before, hbefore, rfl⟩
    obtain ⟨hget, hkept⟩ := Table.get?_delete.mp hbefore
    rw [contains_eq_decide, decide_eq_false_iff_not] at hkept
    exact ⟨before, hget, hkept, rfl⟩
  · rintro ⟨before, hget, hkept, rfl⟩
    refine ⟨before, Table.get?_delete.mpr ⟨hget, ?_⟩, rfl⟩
    rw [contains_eq_decide, decide_eq_false hkept]

theorem restrict_kept {α : Type} {d : Dict String α} {deleted : List String} (scanId : String) :
    (d.restrict fun scanId => !deleted.contains scanId).get? scanId =
      if scanId ∈ deleted then none else d.get? scanId := by
  refine Option.ext fun v => ?_
  rw [Dict.get?_restrict, contains_eq_decide]
  by_cases h : scanId ∈ deleted
  · simp [h]
  · simp [h]

theorem pruned_deleteScans (deleted : List String) (store : ResultStore) :
    Pruned deleted store (deleteScans deleted store) where
  jobs scanId := restrict_kept scanId
  results scanId := restrict_kept scanId
  resultPayload scanId row hrow := by
    refine Option.ext fun payload => ?_
    dsimp only [deleteScans] at hrow ⊢
    rw [Dict.get?_restrict]
    refine and_iff_left (List.any_eq_true.mpr ⟨row, ?_, decide_eq_true rfl⟩)
    exact Dict.mem_values_of_get? hrow
  history := List.filter_congr fun row _ => by
    dsimp only
    rw [contains_eq_decide, decide_not]
  snapshot id := by
    refine Option.ext fun row => ?_
    rw [get?_deleteScans, Option.bind_eq_some_iff]
    refine exists_congr fun before => and_congr_right fun _ => ?_
    by_cases h : before.scanId ∈ deleted
    · simp [h]
    · simp [h, eq_comm]
  payload id row hrow := by
    refine Option.ext fun payload => ?_
    dsimp only [deleteScans] at hrow ⊢
    rw [Dict.get?_restrict]
    refine and_iff_left (Option.isSome_iff_ne_none.mpr fun hnone => ?_)
    exact of_decide_eq_false (Table.first?_eq_none.mp hnone id row hrow) rfl
  uploads := rfl
  auditLog := rfl

/-- Deleting scans keeps every reference: what loses its base becomes a baseline. -/
theorem intact_deleteScans {deleted : List String} {store : ResultStore} (h : Intact store) :
    Intact (deleteScans deleted store) := by
  have hp := pruned_deleteScans deleted store
  have hjob : ∀ scanId, scanId ∉ deleted → store.jobs.contains scanId = true →
      (deleteScans deleted store).jobs.contains scanId = true := by
    intro scanId hkept hscan
    rw [Dict.contains, hp.jobs, if_neg hkept]
    exact hscan
  refine ⟨fun id row hrow => ?_, fun id row previous hrow hprevious => ?_,
    fun id row hrow hnone => ?_, fun id row hrow => ?_, fun scanId row hrow => ?_,
    fun scanId row hrow => ?_, fun row hrow => ?_, ?_, fun digest hdigest => ?_,
    fun digest hdigest => ?_⟩
  · rw [Dict.contains, hp.payload id row hrow]
    obtain ⟨before, hbefore, -, rfl⟩ := get?_deleteScans.mp hrow
    rw [rebase_payloadHash]
    exact h.payload id before hbefore
  · obtain ⟨before, hbefore, -, rfl⟩ := get?_deleteScans.mp hrow
    unfold rebase at hprevious
    split at hprevious
    · cases hprevious
    · -- the base is not deleted, since its link is still there
      next hkept =>
      obtain ⟨base, hbase⟩ := h.base id before previous hbefore hprevious
      refine ⟨_, get?_deleteScans.mpr ⟨base, hbase, fun hdeleted => hkept ?_, rfl⟩⟩
      rw [hprevious, Option.any_some, ofScans, hbase, Option.any_some]
      exact List.contains_iff_mem.mpr hdeleted
  · obtain ⟨before, hbefore, -, rfl⟩ := get?_deleteScans.mp hrow
    unfold rebase at hnone ⊢
    split
    · rfl
    · next hkept =>
      rw [if_neg hkept] at hnone
      exact h.baseline id before hbefore hnone
  · obtain ⟨before, hbefore, hkept, rfl⟩ := get?_deleteScans.mp hrow
    rw [rebase_scanId]
    exact hjob _ hkept (h.snapshotScan id before hbefore)
  · rw [hp.results] at hrow
    split at hrow
    · cases hrow
    · next hkept => exact hjob _ hkept (h.resultScan scanId row hrow)
  · rw [Dict.contains, hp.resultPayload scanId row hrow]
    rw [hp.results] at hrow
    split at hrow
    · cases hrow
    · exact h.resultPayload scanId row hrow
  · rw [hp.history, List.mem_filter] at hrow
    exact hjob _ (of_decide_eq_true hrow.2) (h.historyScan row hrow.1)
  · rw [Dict.contains, hp.jobs]
    split
    · rfl
    · exact h.named
  · -- the payloads that nothing refers to are deleted too
    obtain ⟨-, hneeded⟩ := Dict.contains_restrict.mp hdigest
    obtain ⟨⟨id, row⟩, hfirst⟩ := Option.isSome_iff_exists.mp hneeded
    obtain ⟨hrow, hhash⟩ := Table.first?_eq_some hfirst
    exact ⟨id, row, hrow, of_decide_eq_true hhash⟩
  · obtain ⟨-, hneeded⟩ := Dict.contains_restrict.mp hdigest
    obtain ⟨row, hrow, hhash⟩ := List.any_eq_true.mp hneeded
    obtain ⟨scanId, hget⟩ := Dict.mem_values_iff.mp hrow
    exact ⟨scanId, row, hget, of_decide_eq_true hhash⟩

/-! ## Uploads of what is left -/

/-- There is an upload for the snapshot: a full one, or one that names a base that is there. -/
def Uploadable (store : ScanStore) (id : Nat) (row : SnapshotRow) : Prop :=
  ∃ upload, snapshotUploadPayload store id = .ok upload ∧
    (upload.get "mode" = .str "full" ∨ ∃ previous base, row.previousSnapshotId = some previous ∧
      store.snapshots.get? previous = some base ∧
        upload.get "previous_hash" = .str base.payloadHash)

theorem get_envelope_append {store : ScanStore} {row : SnapshotRow} {sections : JsonObject}
    {base : SnapshotRow} {previous : Nat} (hprevious : row.previousSnapshotId = some previous)
    (hbase : store.snapshots.get? previous = some base) :
    JsonObject.get (uploadEnvelope store row ++ sections) "previous_hash" =
      .str base.payloadHash := by
  have hhash : store.previousHash row = some base.payloadHash := by
    rw [ScanStore.previousHash, hprevious, Option.bind_some, hbase, Option.map_some]
  simp [JsonObject.get, uploadEnvelope, Assoc.lookup, hhash, Json.ofOption]

theorem Intact.uploadable {store : ResultStore} (h : Intact store) {id : Nat} {row : SnapshotRow}
    (hrow : store.snapshots.get? id = some row) : Uploadable store.toScanStore id row := by
  obtain ⟨payload, hpayload⟩ := Dict.contains_iff.mp (h.payload id row hrow)
  refine ⟨uploadEnvelope store.toScanStore row ++
    uploadSections row.diff (ScanStore.fieldsOf payload), ?_, ?_⟩
  · rw [snapshotUploadPayload, hrow]
    dsimp only
    rw [hpayload]
  · cases hprevious : row.previousSnapshotId with
    | none =>
      left
      rw [uploadSections, if_pos (h.baseline id row hrow hprevious)]
      simp [JsonObject.get, uploadEnvelope, Assoc.lookup]
    | some previous =>
      right
      obtain ⟨base, hbase⟩ := h.base id row previous hrow hprevious
      exact ⟨previous, base, rfl, hbase, get_envelope_append hprevious hbase⟩

/-- The snapshot from which an upload of a scan is recovered, up to its link. -/
theorem storedSnapshot_deleteScans {deleted : List String} {store : ResultStore} {scanId : String}
    (h : scanId ∉ deleted) :
    storedSnapshot (deleteScans deleted store).toDatabase scanId =
      (storedSnapshot store.toDatabase scanId).map fun found =>
        (rebase (ofScans deleted store.snapshots) found.1, found.2) := by
  have hp := pruned_deleteScans deleted store
  have hfirst : ((deleteScans deleted store).snapshots.first? fun _ row =>
      decide (row.scanId = scanId)) =
        (store.snapshots.first? fun _ row => decide (row.scanId = scanId)).map fun e =>
          (e.1, rebase (ofScans deleted store.snapshots) e.2) := by
    dsimp only [deleteScans]
    refine Table.first?_delete_update (p := fun _ row => decide (row.scanId = scanId))
      (f := fun _ row => rebase (ofScans deleted store.snapshots) row)
      (fun id row hscan => ?_) fun id row => ?_
    · rw [of_decide_eq_true hscan, contains_eq_decide, decide_eq_false h]
    · rw [rebase_scanId]
  rw [storedSnapshot, hfirst, storedSnapshot]
  cases hfound : store.snapshots.first? fun _ row => decide (row.scanId = scanId) with
  | none => rfl
  | some e =>
    obtain ⟨hrow, hscan⟩ := Table.first?_eq_some hfound
    have hkept := get?_deleteScans.mpr ⟨e.2, hrow, by rwa [of_decide_eq_true hscan], rfl⟩
    have hpayload := hp.payload e.1 _ hkept
    rw [rebase_payloadHash] at hpayload
    rw [Option.map_some, Option.bind_some, Option.bind_some, rebase_payloadHash, hpayload]
    cases store.payloads.get? e.2.payloadHash with
    | none => rfl
    | some payload => rfl

theorem fullSync_rebase (removed : Nat → Bool) (row : SnapshotRow) (payload : Json) :
    fullSync (rebase removed row) payload = fullSync row payload := by
  unfold rebase
  split <;> rfl

theorem recoveryKey_rebase (rt : Runtime) (removed : Nat → Bool) (row : SnapshotRow)
    (scanId : String) : recoveryKey rt (rebase removed row) scanId = recoveryKey rt row scanId := by
  unfold rebase
  split <;> rfl

/-- An upload that names a scan that is left is recovered as before. -/
theorem recoveryFor_deleteScans {rt : Runtime} {deleted : List String} {store : ResultStore}
    {scanId : String} (hkept : scanId ∉ deleted)
    (hscan : cleanIdentifier (.str scanId) "scan_id" = .ok scanId) {row : UploadRow}
    (hmetadata : row.metadata.get "scan_id" = .str scanId) (uploadId : Nat) (uuid : String)
    (current : ℚ) :
    recoveryFor rt row uploadId uuid current (deleteScans deleted store).toDatabase =
      recoveryFor rt row uploadId uuid current store.toDatabase := by
  have hresync : ∀ sync, resyncScanId row.metadata sync = .ok scanId := by
    intro sync
    have hne : scanId ≠ "" := cleanIdentifier_ne hscan
    rw [resyncScanId, hmetadata, truthy, if_pos (decide_eq_true hne), hscan]
  unfold recoveryFor
  simp only [hresync]
  congr 1
  funext _
  split
  · rfl
  · next original _ =>
    congr 1
    funext sync
    dsimp only [bind, Except.bind]
    rw [storedSnapshot_deleteScans hkept]
    cases storedSnapshot store.toDatabase scanId with
    | none => rfl
    | some found =>
      dsimp only [Option.map_some]
      rw [fullSync_rebase, recoveryKey_rebase, rebase_payloadHash]
  · rfl
/-! ## One call -/

theorem nodup_eraseDups {α : Type} [BEq α] [LawfulBEq α] (l : List α) : l.eraseDups.Nodup := by
  induction hlength : l.length using Nat.strong_induction_on generalizing l with
  | _ n ih =>
    cases l with
    | nil => exact List.nodup_nil
    | cons a l =>
      rw [List.eraseDups_cons, List.nodup_cons, List.mem_eraseDups, List.mem_filter]
      refine ⟨by simp, ih _ ?_ _ rfl⟩
      rw [← hlength, List.length_cons]
      exact Nat.lt_succ_of_le (List.length_filter_le _ _)

theorem nodup_selected (request : PruneRequest) (held : List String) (store : ResultStore) :
    (request.selected held store).Nodup :=
  ((nodup_eraseDups _).filter _).sublist (List.take_sublist _ _)

theorem length_selected_le (request : PruneRequest) (held : List String) (store : ResultStore) :
    (request.selected held store).length ≤ request.limit.toNat := List.length_take_le _ _

/-- Where nothing is deleted nothing changes. -/
theorem pruned_nil (store : ResultStore) : Pruned [] store store where
  jobs _ := rfl
  results _ := rfl
  resultPayload _ _ _ := rfl
  history := (List.filter_eq_self.mpr fun _ _ => by simp).symm
  snapshot id := by
    have hnone : ofScans [] store.snapshots = fun _ => false := by
      funext id
      rw [ofScans]
      cases store.snapshots.get? id <;> rfl
    have hsame : ∀ row, rebase (fun _ => false) row = row := by
      intro row
      unfold rebase
      cases row.previousSnapshotId <;> rfl
    simp [hnone, hsame]
  payload _ _ _ := rfl
  uploads := rfl
  auditLog := rfl

/-- A call that raises changes nothing, another one deletes what it has selected. -/
theorem pruneCompletedScanRecords_cases (request : PruneRequest) (store : ResultStore) :
    (∃ e, (pruneCompletedScanRecords request).run store = (.error e, store)) ∨
      ∃ held store', (request.protectedScanIds.mapM fun scanId =>
          cleanIdentifier (.str scanId) "protected_scan_id") = .ok held ∧
        (pruneCompletedScanRecords request).run store =
          (.ok (request.selected held store).length, store') ∧
        ((request.selected held store = [] ∧ store' = store) ∨
          store' = deleteScans (request.selected held store) store) := by
  unfold pruneCompletedScanRecords
  simp only [Method.run_ofExcept_bind]
  split
  · split
    · split
      · next held hheld =>
        rw [Method.run_modifyGet]
        by_cases hnone : request.selected held store = []
        · refine Or.inr ⟨held, store, hheld, ?_, Or.inl ⟨hnone, rfl⟩⟩
          rw [if_pos hnone, hnone, List.length_nil]
        · refine Or.inr ⟨held, _, hheld, ?_, Or.inr rfl⟩
          rw [if_neg hnone]
      · exact Or.inl ⟨_, rfl⟩
    · exact Or.inl ⟨_, rfl⟩
  · exact Or.inl ⟨_, rfl⟩

theorem intact_pruneCompletedScanRecords (request : PruneRequest) :
    Method.Keeps Intact (pruneCompletedScanRecords request) := by
  intro store hstore
  obtain ⟨e, hrun⟩ | ⟨held, store', -, hrun, ⟨-, rfl⟩ | rfl⟩ :=
    pruneCompletedScanRecords_cases request store
  · rw [hrun]
    exact hstore
  · rw [hrun]
    exact hstore
  · rw [hrun]
    exact intact_deleteScans hstore

/-! ## Every reference, in every run -/

theorem Intact.withLogs {store : ResultStore} (h : Intact store) (uploads : Table UploadRow)
    (auditLog : List AuditRow) :
    Intact { store with uploads := uploads, auditLog := auditLog } :=
  ⟨h.payload, h.base, h.baseline, h.snapshotScan, h.resultScan, h.resultPayload, h.historyScan,
    h.named, h.neededPayload, h.neededResult⟩

theorem intact_step {rt : Runtime} {pyStr : Json → String} {store : ResultStore}
    (h : Intact store) (operation : Operation) : Intact (operation.step rt pyStr store) := by
  cases operation with
  | create now job => exact h.withJobs (moreJobs_createScanJob store.jobs)
  | update now scanId status startedAt completedAt resultStatus =>
    exact h.withJobs (moreJobs_updateScanJob store.jobs)
  | history now scanId event status details idempotencyKey =>
    exact intact_appendScanHistory store h
  | save now scanId endpointId result projections => exact intact_saveScanResult store h
  | prune request => exact intact_pruneCompletedScanRecords request store h
  | background action =>
    cases action with
    | queue call => exact h.withLogs _ _
    | audit event => exact h.withLogs _ _

/-- In every run every reference leads to a row. -/
theorem intact_operated (rt : Runtime) (pyStr : Json → String) (operations : List Operation) :
    Intact (operated rt pyStr operations) :=
  run_invariant (P := Intact) (fun _ operation h => intact_step h operation) intact_empty

/-! ## Every run -/

/-- A scan of an endpoint that is created, saved and completed. -/
def completedScan (scanId finishedAt : String) : List Operation :=
  [.create finishedAt [("scan_id", .str scanId), ("scan_type", .str "ENDPOINT")],
    .save finishedAt scanId (some "endpoint-1") [("inventory", .obj [])] (.ok ()),
    .update finishedAt scanId "COMPLETED" none (some finishedAt) (some "SUCCESS")]

def completedScans : List Operation :=
  completedScan "scan-1" "2024-01-01" ++ completedScan "scan-2" "2024-01-02"

/-- At most one terminal scan stays. -/
def keepOne : PruneRequest := { olderThan := "2023-01-01", maxCompletedScans := 1 }

end OsScanner.Storage

import Mathlib
import OsScanner.Lib.Part
import OsScanner.Storage.ScanResults
import OsScanner.Storage.SnapshotOrder

/-!
# References between the tables

The tables of the endpoint refer to each other: results, snapshots and history to scans, results and
snapshots to their payloads, snapshots to their bases. Whatever a method writes, and wherever it
raises, these references lead to rows.
-/

namespace OsScanner.Storage

open Lib Lib.Check

/-! ## Whole references -/

/--
Every reference between the tables leads to a row, scans have names, and a payload is there for
something that refers to it.
-/
structure Intact (store : ResultStore) : Prop where
  payload : ∀ id row, store.snapshots.get? id = some row →
    store.payloads.contains row.payloadHash = true
  base : ∀ id row previous, store.snapshots.get? id = some row →
    row.previousSnapshotId = some previous → ∃ base, store.snapshots.get? previous = some base
  baseline : ∀ id row, store.snapshots.get? id = some row → row.previousSnapshotId = none →
    truthy (row.diff.get "initial") = true
  snapshotScan : ∀ id row, store.snapshots.get? id = some row →
    store.jobs.contains row.scanId = true
  resultScan : ∀ scanId row, store.results.get? scanId = some row →
    store.jobs.contains scanId = true
  resultPayload : ∀ scanId row, store.results.get? scanId = some row →
    store.resultPayloads.contains row.payloadHash = true
  historyScan : ∀ row ∈ store.history, store.jobs.contains row.scanId = true
  named : store.jobs.contains "" = false
  neededPayload : ∀ digest, store.payloads.contains digest = true →
    ∃ id row, store.snapshots.get? id = some row ∧ row.payloadHash = digest
  neededResult : ∀ digest, store.resultPayloads.contains digest = true →
    ∃ scanId row, store.results.get? scanId = some row ∧ row.payloadHash = digest

theorem intact_empty : Intact .empty where
  payload _ _ h := absurd h (by rw [show ResultStore.empty.snapshots = ∅ from rfl]; simp)
  base _ _ _ h := absurd h (by rw [show ResultStore.empty.snapshots = ∅ from rfl]; simp)
  baseline _ _ h := absurd h (by rw [show ResultStore.empty.snapshots = ∅ from rfl]; simp)
  snapshotScan _ _ h := absurd h (by rw [show ResultStore.empty.snapshots = ∅ from rfl]; simp)
  resultScan _ _ h := absurd h (by rw [show ResultStore.empty.results = ∅ from rfl]; simp)
  resultPayload _ _ h := absurd h (by rw [show ResultStore.empty.results = ∅ from rfl]; simp)
  historyScan _ h := absurd h List.not_mem_nil
  named := rfl
  neededPayload _ h := absurd h (by rw [show ResultStore.empty.payloads = ∅ from rfl]; simp [Dict.contains])
  neededResult _ h := absurd h
    (by rw [show ResultStore.empty.resultPayloads = ∅ from rfl]; simp [Dict.contains])

/-! ### Scans -/

/-- The jobs of one table are all in the other, and none without a name is new. -/
structure MoreJobs (jobs jobs' : ScanJobs) : Prop where
  contains : ∀ scanId, jobs.contains scanId = true → jobs'.contains scanId = true
  named : jobs'.contains "" = true → jobs.contains "" = true

theorem MoreJobs.refl (jobs : ScanJobs) : MoreJobs jobs jobs := ⟨fun _ h => h, fun h => h⟩

theorem MoreJobs.trans {jobs jobs' jobs'' : ScanJobs} (h : MoreJobs jobs jobs')
    (h' : MoreJobs jobs' jobs'') : MoreJobs jobs jobs'' :=
  ⟨fun scanId hscan => h'.contains scanId (h.contains scanId hscan), fun h₁ => h.named (h'.named h₁)⟩

theorem contains_set {jobs : ScanJobs} {scanId scanId' : String} {row : JobRow} :
    (jobs.set scanId row).contains scanId' = true ↔
      scanId = scanId' ∨ jobs.contains scanId' = true := by
  rw [Dict.contains, Dict.get?_set]
  by_cases h : scanId = scanId'
  · simp [h]
  · simp [h, Dict.contains]

theorem moreJobs_set {jobs : ScanJobs} {scanId : String} (h : scanId ≠ "") (row : JobRow) :
    MoreJobs jobs (jobs.set scanId row) where
  contains _ hscan := contains_set.mpr (Or.inr hscan)
  named hempty := (contains_set.mp hempty).resolve_left h

theorem moreJobs_ensureScan (rt : Runtime) {scanId : String} (h : scanId ≠ "")
    (endpointId : Option String) (now : String) (jobs : ScanJobs) :
    MoreJobs jobs (ensureScan rt scanId endpointId now jobs) := by
  unfold ensureScan
  split
  · exact moreJobs_set h _
  · exact moreJobs_set h _

theorem contains_ensureScan (rt : Runtime) (scanId : String) (endpointId : Option String)
    (now : String) (jobs : ScanJobs) :
    (ensureScan rt scanId endpointId now jobs).contains scanId = true := by
  unfold ensureScan
  split
  · exact contains_set.mpr (Or.inl rfl)
  · exact contains_set.mpr (Or.inl rfl)

theorem cleanIdentifier_ne {value : Json} {field result : String} {maxLength : Nat}
    (h : cleanIdentifier value field maxLength = .ok result) : result ≠ "" := by
  obtain ⟨text, -, rfl, hne, -⟩ := cleanIdentifier_eq_ok.mp h
  exact hne

/-- Where only jobs are added, the references stay whole. -/
theorem Intact.withJobs {store : ResultStore} (h : Intact store) {jobs : ScanJobs}
    (hjobs : MoreJobs store.jobs jobs) : Intact { store with jobs := jobs } where
  payload := h.payload
  base := h.base
  baseline := h.baseline
  snapshotScan id row hrow := hjobs.contains _ (h.snapshotScan id row hrow)
  resultScan scanId row hrow := hjobs.contains _ (h.resultScan scanId row hrow)
  resultPayload := h.resultPayload
  historyScan row hrow := hjobs.contains _ (h.historyScan row hrow)
  named := by
    refine Bool.eq_false_iff.mpr fun hempty => ?_
    have hold := hjobs.named hempty
    rw [h.named] at hold
    cases hold
  neededPayload := h.neededPayload
  neededResult := h.neededResult

theorem moreJobs_createScanJob {rt : Runtime} {pyStr : Json → String} {now : String}
    {job : JsonObject} (jobs : ScanJobs) :
    MoreJobs jobs ((createScanJob rt pyStr now job).run jobs).2 := by
  rcases hrun : (createScanJob rt pyStr now job).run jobs with ⟨e | created, jobs'⟩
  · rw [createScanJob_error hrun]
    exact .refl _
  · obtain ⟨fields, hcheck, ⟨-, rfl, -⟩ | ⟨-, -, row, rfl, -⟩⟩ := createScanJob_ok hrun
    · exact .refl _
    · obtain ⟨scanId, hscanId, hcheck⟩ := bind_eq_ok.mp hcheck
      obtain ⟨endpointId, -, hcheck⟩ := bind_eq_ok.mp hcheck
      obtain ⟨scanType, -, hcheck⟩ := bind_eq_ok.mp hcheck
      obtain ⟨status, -, hcheck⟩ := bind_eq_ok.mp hcheck
      cases hcheck
      exact moreJobs_set (cleanIdentifier_ne hscanId) row

theorem moreJobs_updateScanJob {now scanId status : String}
    {startedAt completedAt resultStatus : Option String} (jobs : ScanJobs) :
    MoreJobs jobs
      ((updateScanJob now scanId status startedAt completedAt resultStatus).run jobs).2 := by
  rcases hrun : (updateScanJob now scanId status startedAt completedAt resultStatus).run jobs with
    ⟨result, jobs'⟩
  obtain rfl | ⟨id, before, after, hbefore, rfl, -⟩ := updateScanJob_cases hrun
  · exact .refl _
  · -- an update writes a row that is there
    refine ⟨fun _ hscan => contains_set.mpr (Or.inr hscan), fun hempty => ?_⟩
    rcases contains_set.mp hempty with rfl | hempty
    · exact Dict.contains_iff.mpr ⟨before, hbefore⟩
    · exact hempty

/-! ### Results and history -/

theorem intact_storeNormalizedResult {rt : Runtime} {pyStr : Json → String} {now scanId : String}
    {endpointId : Option String} {resultType : String} {result : JsonObject} :
    Method.Keeps Intact (storeNormalizedResult rt pyStr now scanId endpointId resultType result) := by
  unfold storeNormalizedResult
  refine fun store hstore => ?_
  rw [Method.run_ofExcept_bind]
  cases hcheck : checkResult pyStr scanId endpointId resultType result with
  | error e => exact hstore
  | ok fields =>
    have hne : fields.scanId ≠ "" := by
      obtain ⟨scanId, hscanId, hcheck⟩ := bind_eq_ok.mp hcheck
      obtain ⟨_, -, hcheck⟩ := bind_eq_ok.mp hcheck
      obtain ⟨_, -, hcheck⟩ := bind_eq_ok.mp hcheck
      obtain ⟨_, -, hcheck⟩ := bind_eq_ok.mp hcheck
      obtain ⟨_, -, hcheck⟩ := bind_eq_ok.mp hcheck
      cases hcheck
      exact cleanIdentifier_ne hscanId
    have hjobs := moreJobs_ensureScan rt hne fields.endpointId now store.jobs
    have hscan := contains_ensureScan rt fields.scanId fields.endpointId now store.jobs
    have hintact := hstore.withJobs hjobs
    dsimp only
    rcases Method.atomically_cases _ store with ⟨u, store', hbody, hrun⟩ | ⟨e, -, hrun⟩
    · rw [hrun]
      split at hbody
      · rw [bind_unit_eq_ok] at hbody
        cases hbody.2
        exact hintact
      · next hnew =>
        cases hbody
        refine ⟨hintact.payload, hintact.base, hintact.baseline, hintact.snapshotScan, ?_, ?_,
          hintact.historyScan, hintact.named, hintact.neededPayload, ?_⟩
        · intro scanId row hrow
          dsimp only at hrow
          rw [Dict.get?_set] at hrow
          split at hrow
          · next heq => exact heq ▸ hscan
          · exact hintact.resultScan scanId row hrow
        · -- a payload is added and none is taken away
          intro scanId row hrow
          dsimp only at hrow ⊢
          rw [Dict.get?_set] at hrow
          split at hrow
          · cases hrow
            split
            · next h => exact h
            · exact Dict.contains_iff.mpr ⟨_, Dict.get?_set_self _ _ _⟩
          · have hold := hintact.resultPayload scanId row hrow
            split
            · exact hold
            · rw [Dict.contains, Dict.get?_set]
              split
              · rfl
              · exact hold
        · -- the payload that was added is the one of the new row
          intro digest hdigest
          have hself := Dict.get?_set_self store.results fields.scanId (ResultRow.mk fields.endpointId
            fields.resultType fields.status (Json.canonicalSha256 rt (.obj result)))
          by_cases hold : store.resultPayloads.contains digest = true
          · obtain ⟨scanId, row, hrow, hhash⟩ := hstore.neededResult digest hold
            refine ⟨scanId, row, ?_, hhash⟩
            dsimp only
            rw [Dict.get?_set_ne _, hrow]
            rintro rfl
            rw [hrow] at hnew
            cases hnew
          · refine ⟨fields.scanId, _, hself, ?_⟩
            dsimp only at hdigest ⊢
            split at hdigest
            · exact absurd hdigest hold
            · rw [Dict.contains, Dict.get?_set] at hdigest
              split at hdigest
              · assumption
              · exact absurd hdigest hold
    · rw [hrun]
      exact hstore

theorem intact_appendScanHistory {rt : Runtime} {now scanId event : String}
    {status idempotencyKey : Option String} {details : JsonObject} :
    Method.Keeps Intact (appendScanHistory rt now scanId event status details idempotencyKey) := by
  intro store hstore
  unfold appendScanHistory
  rw [Method.run_ofExcept_bind]
  cases hscan : cleanIdentifier (.str scanId) "scan_id" with
  | error e => exact hstore
  | ok scan =>
    dsimp only
    rw [Method.run_ofExcept_bind]
    cases hevent : cleanIdentifier (.str event) "event" 128 with
    | error e => exact hstore
    | ok event =>
      dsimp only
      rw [Method.run_ofExcept_bind]
      cases hkey : historyKey idempotencyKey with
      | error e => exact hstore
      | ok key =>
        have hintact := hstore.withJobs
          (moreJobs_ensureScan rt (cleanIdentifier_ne hscan) none now store.jobs)
        dsimp only
        rcases Method.atomically_cases _ store with ⟨u, store', hbody, hrun⟩ | ⟨e, -, hrun⟩
        · rw [hrun]
          split at hbody
          · rw [bind_unit_eq_ok] at hbody
            cases hbody.2
            exact hintact
          · cases hbody
            refine ⟨hintact.payload, hintact.base, hintact.baseline, hintact.snapshotScan,
              hintact.resultScan, hintact.resultPayload, fun row hrow => ?_, hintact.named,
              hintact.neededPayload, hintact.neededResult⟩
            rcases List.mem_append.mp hrow with hrow | hrow
            · exact hintact.historyScan row hrow
            · rw [List.mem_singleton.mp hrow]
              exact contains_ensureScan rt scan none now store.jobs
        · rw [hrun]
          exact hstore

/-! ### Snapshots -/

theorem Intact.insertSnapshot {store : ResultStore} (h : Intact store) {row : SnapshotRow}
    {normalized : JsonObject} (hscan : store.jobs.contains row.scanId = true)
    (hbase : ∀ previous, row.previousSnapshotId = some previous →
      ∃ base, store.snapshots.get? previous = some base)
    (hbaseline : row.previousSnapshotId = none → truthy (row.diff.get "initial") = true) :
    Intact { store with toScanStore := store.toScanStore.insertSnapshot row normalized } := by
  -- a row is the new one or one that was there
  have hrows : ∀ id row', (store.snapshots.insert row).get? id = some row' →
      row' = row ∨ store.snapshots.get? id = some row' := by
    intro id row' hrow'
    rw [Table.get?_insert] at hrow'
    split at hrow'
    · exact Or.inl (Option.some.inj hrow').symm
    · exact Or.inr hrow'
  refine ⟨fun id row' hrow' => ?_, fun id row' previous hrow' hprevious => ?_,
    fun id row' hrow' hnone => ?_, fun id row' hrow' => ?_, h.resultScan, h.resultPayload,
    h.historyScan, h.named, fun digest hdigest => ?_, h.neededResult⟩
  · rcases hrows id row' hrow' with rfl | hold
    · exact Dict.contains_iff.mpr (contains_insertSnapshot store.toScanStore row' normalized)
    · have hcontains := h.payload id row' hold
      dsimp only [ScanStore.insertSnapshot]
      split
      · exact hcontains
      · rw [Dict.contains, Dict.get?_set]
        split
        · rfl
        · exact hcontains
  · have hbase' : ∃ base, store.snapshots.get? previous = some base := by
      rcases hrows id row' hrow' with rfl | hold
      · exact hbase previous hprevious
      · exact h.base id row' previous hold hprevious
    obtain ⟨base, hget⟩ := hbase'
    exact ⟨base, Table.get?_insert_of_some hget⟩
  · rcases hrows id row' hrow' with rfl | hold
    · exact hbaseline hnone
    · exact h.baseline id row' hold hnone
  · rcases hrows id row' hrow' with rfl | hold
    · exact hscan
    · exact h.snapshotScan id row' hold
  · by_cases hold : store.payloads.contains digest = true
    · obtain ⟨id, before, hbefore, hhash⟩ := h.neededPayload digest hold
      exact ⟨id, before, Table.get?_insert_of_some hbefore, hhash⟩
    · refine ⟨_, row, Table.get?_insert_self _ _, ?_⟩
      dsimp only [ScanStore.insertSnapshot] at hdigest
      split at hdigest
      · exact absurd hdigest hold
      · rw [Dict.contains, Dict.get?_set] at hdigest
        split at hdigest
        · assumption
        · exact absurd hdigest hold

theorem intact_storeSnapshot {rt : Runtime} {now endpointId scanId : String}
    {versions : SnapshotVersions} {snapshot : JsonObject} :
    Method.Keeps Intact
      (Method.on ResultStore.scans (storeSnapshot rt now endpointId scanId versions snapshot)) := by
  intro store hstore
  rcases hrun : (storeSnapshot rt now endpointId scanId versions snapshot).run store.toScanStore with
    ⟨result, scans⟩
  rw [Method.run_on hrun]
  unfold storeSnapshot at hrun
  rw [Method.run_ofExcept_bind] at hrun
  split at hrun
  · next endpoint hendpoint =>
    rw [Method.run_ofExcept_bind] at hrun
    split at hrun
    · next scan hscan =>
      rw [Method.run_ofExcept_bind] at hrun
      split at hrun
      · have hintact := hstore.withJobs
          (moreJobs_ensureScan rt (cleanIdentifier_ne hscan) (some endpoint) now store.jobs)
        cases result with
        | error e =>
          obtain ⟨-, rfl⟩ := Method.atomically_eq_error.mp hrun
          exact hstore
        | ok change =>
          have hbody := Method.atomically_eq_ok.mp hrun
          unfold storeChecked at hbody
          dsimp only at hbody
          split at hbody
          · rw [bind_unit_eq_ok] at hbody
            cases hbody.2
            exact hintact
          · cases hbody
            refine hintact.insertSnapshot
              (contains_ensureScan rt scan (some endpoint) now store.jobs) ?_ ?_
            · -- the base is the latest snapshot of the endpoint
              intro previous hprevious
              obtain ⟨⟨_, base⟩, hlatest, rfl⟩ := Option.map_eq_some_iff.mp hprevious
              exact ⟨base, (Table.last?_eq_some hlatest).1⟩
            · -- without a latest snapshot this one is the first
              intro hnone
              dsimp only [ScanStore.newSnapshot]
              rw [initial_column]
              dsimp only [ScanStore.diffWith]
              rw [Option.map_eq_none_iff.mp hnone]
              rfl
      · cases hrun
        exact hstore
    · cases hrun
      exact hstore
  · cases hrun
    exact hstore

theorem intact_saveScanResult {rt : Runtime} {pyStr : Json → String} {now scanId : String}
    {endpointId : Option String} {result : JsonObject} {projections : Except StorageError Unit} :
    Method.Keeps Intact
      (saveScanResult rt pyStr now scanId endpointId result projections) := by
  unfold saveScanResult
  refine (Method.keeps_reading _).bind fun inventory => ?_
  dsimp only
  refine (intact_storeNormalizedResult.bind fun _ => ?_).transaction
  refine Method.Keeps.bind ?_ fun change =>
    (Method.keeps_ofExcept _).bind fun _ => intact_appendScanHistory.bind fun _ =>
      Method.keeps_pure _
  unfold storeInventory
  split
  · exact Method.keeps_pure _
  · split
    · exact Method.keeps_pure _
    · split
      · exact intact_storeSnapshot.bind fun _ => Method.keeps_pure _
      · exact Method.keeps_raise _

end OsScanner.Storage

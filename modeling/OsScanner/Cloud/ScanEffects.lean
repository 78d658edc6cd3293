import Mathlib
import OsScanner.Cloud.Effects

/-!
# What the methods on scans and tasks do

The second half of the effect theorems: jobs, evidence, rejections, analysis tasks and final
reports.
-/

namespace OsScanner.Cloud

open Lib

/-! ## Jobs -/

/-- The state after a new job. An authorization without a reference fails after the write. -/
theorem createScanJob_effect {tenantId : String} {record : ScanRecord} {key digest : String}
    {auditedAt : Timestamp} {repo repo' : InMemoryRepository}
    {result : Except RepositoryError ScanRecord}
    (h : (createScanJob tenantId record key digest auditedAt).run repo = (result, repo')) :
    (repo' = repo ∧ (Replays tenantId "create-scan" key digest Response.asScan repo result ∨
        ∃ e, result = .error e)) ∨
      (repo.idempotency.get? ⟨tenantId, "create-scan", key⟩ = none ∧
        (∃ endpoint, repo.endpoints.get? record.endpointId = some endpoint ∧
          endpoint.tenantId = tenantId) ∧
        repo.scans.get? record.scanId = none ∧
        ((∃ reference, authorizationReference record.jobDocument = .ok reference ∧
            result = .ok record) ∨ ∃ e, authorizationReference record.jobDocument = .error e ∧
            result = .error e) ∧
        ∃ events, repo' = { repo with
          scans := repo.scans.set record.scanId record
          idempotency := repo.idempotency.set ⟨tenantId, "create-scan", key⟩
            (digest, .scan record)
          auditEvents := repo.auditEvents ++ events }) := by
  rcases idempotent_cases h with ⟨rfl, hr⟩ | ⟨hnone, h⟩
  · exact Or.inl ⟨rfl, Or.inl hr⟩
  · simp only [Method.run_reading_bind, Method.run_modify_bind, run_remember_bind,
      Method.run_ofExcept_bind] at h
    split at h
    · rename_i hendpoint
      split at h
      · rename_i hscan
        rw [raiseIf_eq_ok, Bool.not_eq_true, Dict.contains_eq_false] at hscan
        have howned : ∃ endpoint, repo.endpoints.get? record.endpointId = some endpoint ∧
            endpoint.tenantId = tenantId := by
          split at hendpoint
          · cases hendpoint
          · rename_i endpoint hfound
            rw [raiseIf_eq_ok, not_not] at hendpoint
            exact ⟨endpoint, hfound, hendpoint⟩
        refine Or.inr ⟨hnone, howned, hscan, ?_⟩
        cases hreference : authorizationReference record.jobDocument with
        | ok reference =>
          rw [hreference] at h
          cases h
          exact ⟨Or.inl ⟨_, rfl, rfl⟩, _, rfl⟩
        | error e =>
          rw [hreference] at h
          cases h
          exact ⟨Or.inr ⟨_, rfl, rfl⟩, [], by simp⟩
      · cases h
        exact Or.inl ⟨rfl, Or.inr ⟨_, rfl⟩⟩
    · cases h
      exact Or.inl ⟨rfl, Or.inr ⟨_, rfl⟩⟩

/-! ### The poll -/

/-- The poll stops at this record and hands it out. -/
def handsOut (rt : Runtime) (principal : DevicePrincipal) (now : Timestamp)
    (record : ScanRecord) : Bool :=
  decide (isDispatchCandidate principal record) &&
    decide (jobDispatchEligibility rt record principal.endpointId now = .eligible)

/-- The poll marks this record as expired when it comes across it. -/
def expires (rt : Runtime) (principal : DevicePrincipal) (now : Timestamp)
    (record : ScanRecord) : Bool :=
  decide (isDispatchCandidate principal record) &&
    decide (jobDispatchEligibility rt record principal.endpointId now = .expired)

/-- The records that the poll looks at before it stops. -/
def visited (rt : Runtime) (principal : DevicePrincipal) (now : Timestamp)
    (candidates : List ScanRecord) : List ScanRecord :=
  candidates.takeWhile fun record => !handsOut rt principal now record

def expiredRecord (now : Timestamp) (record : ScanRecord) : ScanRecord :=
  { record with state := .expired, updatedAt := now }

def dispatchedRecord (now : Timestamp) (record : ScanRecord) : ScanRecord :=
  { record with state := .dispatched, updatedAt := now }

/-- The scans after a poll. -/
def polledScans (rt : Runtime) (principal : DevicePrincipal) (now : Timestamp)
    (candidates : List ScanRecord) (scans : Dict String ScanRecord) : Dict String ScanRecord :=
  let scans := Dict.setAll ScanRecord.scanId (expiredRecord now)
    ((visited rt principal now candidates).filter (expires rt principal now)) scans
  match candidates.find? (handsOut rt principal now) with
  | none => scans
  | some record => scans.set record.scanId (dispatchedRecord now record)

theorem run_expireRecord (principal : DevicePrincipal) (now auditedAt : Timestamp)
    (record : ScanRecord) (repo : InMemoryRepository) :
    ∃ event, (expireRecord principal now auditedAt record).run repo = (.ok (), { repo with
      scans := repo.scans.set record.scanId (expiredRecord now record)
      auditEvents := repo.auditEvents ++ [event] }) :=
  ⟨_, rfl⟩

theorem dispatchLoop_effect {rt : Runtime} {principal : DevicePrincipal}
    {now auditedAt : Timestamp} {candidates : List ScanRecord} {repo repo' : InMemoryRepository}
    {result : Except RepositoryError (Option ScanRecord)}
    (h : (dispatchLoop rt principal now auditedAt candidates).run repo = (result, repo')) :
    (∃ events, repo' = { repo with
        scans := polledScans rt principal now candidates repo.scans
        auditEvents := repo.auditEvents ++ events }) ∧
      ∀ answer, result = .ok answer →
        answer = (candidates.find? (handsOut rt principal now)).map (dispatchedRecord now) := by
  induction candidates generalizing repo with
  | nil =>
    cases h
    refine ⟨⟨[], by simp [polledScans, visited]⟩, fun answer ha => ?_⟩
    cases ha
    rfl
  | cons record candidates ih =>
    rw [dispatchLoop] at h
    by_cases hcand : isDispatchCandidate principal record
    · rw [if_pos hcand] at h
      cases helig : jobDispatchEligibility rt record principal.endpointId now with
      | expired =>
        rw [helig] at h
        have hout : handsOut rt principal now record = false := by simp [handsOut, helig]
        have hexp : expires rt principal now record = true := by simp [expires, hcand, helig]
        obtain ⟨event, hrun⟩ := run_expireRecord principal now auditedAt record repo
        rw [Method.run_bind_ok _ hrun] at h
        obtain ⟨⟨events, hrepo⟩, hanswer⟩ := ih h
        rw [List.find?_cons_of_neg (by simp [hout])]
        refine ⟨⟨event :: events, ?_⟩, hanswer⟩
        rw [hrepo]
        simp [polledScans, visited, hout, hexp]
      | eligible =>
        rw [helig] at h
        have hout : handsOut rt principal now record = true := by simp [handsOut, hcand, helig]
        simp only [dispatchRecord, Method.run_map, Method.run_modify_bind,
          Method.run_ofExcept_bind] at h
        have hscans : polledScans rt principal now (record :: candidates) repo.scans =
            repo.scans.set record.scanId (dispatchedRecord now record) := by
          simp [polledScans, visited, hout]
        rw [hscans, List.find?_cons_of_pos hout]
        cases htimeout : requireKey record.jobDocument "timeout_seconds" with
        | error e =>
          rw [htimeout] at h
          cases h
          exact ⟨⟨[], by simp [dispatchedRecord]⟩, fun answer ha => nomatch ha⟩
        | ok timeout =>
          rw [htimeout] at h
          cases h
          refine ⟨⟨_, rfl⟩, fun answer ha => ?_⟩
          cases ha
          rfl
      | active =>
        rw [helig] at h
        have hout : handsOut rt principal now record = false := by simp [handsOut, helig]
        have hexp : expires rt principal now record = false := by simp [expires, helig]
        obtain ⟨⟨events, rfl⟩, hanswer⟩ := ih h
        rw [List.find?_cons_of_neg (by simp [hout])]
        exact ⟨⟨events, by simp [polledScans, visited, hout, hexp]⟩, hanswer⟩
      | waiting =>
        rw [helig] at h
        have hout : handsOut rt principal now record = false := by simp [handsOut, helig]
        have hexp : expires rt principal now record = false := by simp [expires, helig]
        obtain ⟨⟨events, rfl⟩, hanswer⟩ := ih h
        rw [List.find?_cons_of_neg (by simp [hout])]
        exact ⟨⟨events, by simp [polledScans, visited, hout, hexp]⟩, hanswer⟩
    · rw [if_neg hcand] at h
      have hout : handsOut rt principal now record = false := by simp [handsOut, hcand]
      have hexp : expires rt principal now record = false := by simp [expires, hcand]
      obtain ⟨⟨events, rfl⟩, hanswer⟩ := ih h
      rw [List.find?_cons_of_neg (by simp [hout])]
      exact ⟨⟨events, by simp [polledScans, visited, hout, hexp]⟩, hanswer⟩

/-- The state after a poll. -/
theorem claimNextJob_effect {rt : Runtime} {principal : DevicePrincipal}
    {now auditedAt : Timestamp} {repo repo' : InMemoryRepository}
    {result : Except RepositoryError (Option ScanRecord)}
    (h : (claimNextJob rt principal now auditedAt).run repo = (result, repo')) :
    (∃ events, repo' = { touchEndpoint principal now repo with
        scans := polledScans rt principal now (dispatchOrder repo) repo.scans
        auditEvents := repo.auditEvents ++ events }) ∧
      ∀ answer, result = .ok answer → answer =
        ((dispatchOrder repo).find? (handsOut rt principal now)).map (dispatchedRecord now) := by
  simp only [claimNextJob, Method.run_modify_bind, Method.run_reading_bind] at h
  have htouch : (touchEndpoint principal now repo).scans = repo.scans ∧
      (touchEndpoint principal now repo).auditEvents = repo.auditEvents := by
    unfold touchEndpoint
    split
    · split <;> exact ⟨rfl, rfl⟩
    · exact ⟨rfl, rfl⟩
  have horder : dispatchOrder (touchEndpoint principal now repo) = dispatchOrder repo := by
    rw [dispatchOrder, dispatchOrder, htouch.1]
  rw [horder] at h
  obtain ⟨⟨events, hrepo⟩, hanswer⟩ := dispatchLoop_effect h
  rw [htouch.1, htouch.2] at hrepo
  exact ⟨⟨events, hrepo⟩, hanswer⟩

/-- Every record is kept under its own identifier. -/
def ScanKeys (scans : Dict String ScanRecord) : Prop :=
  ∀ k record, scans.get? k = some record → record.scanId = k

theorem mem_dispatchOrder {repo : InMemoryRepository} (hkeys : ScanKeys repo.scans)
    {record : ScanRecord} :
    record ∈ dispatchOrder repo ↔ repo.scans.get? record.scanId = some record := by
  rw [dispatchOrder, List.mem_insertionSort, Dict.mem_values_iff]
  exact ⟨fun ⟨k, hk⟩ => (hkeys _ _ hk).symm ▸ hk, fun h => ⟨_, h⟩⟩

theorem nodup_dispatchOrder {repo : InMemoryRepository} (hkeys : ScanKeys repo.scans) :
    ((dispatchOrder repo).map ScanRecord.scanId).Nodup :=
  ((List.perm_insertionSort _ _).map _).nodup_iff.mpr
    (Dict.nodup_map_values hkeys)

/-- The poll comes across this record while its authorization has ended. -/
def pollExpires (rt : Runtime) (principal : DevicePrincipal) (now : Timestamp)
    (repo : InMemoryRepository) (record : ScanRecord) : Prop :=
  record ∈ (visited rt principal now (dispatchOrder repo)).filter (expires rt principal now)

instance (rt : Runtime) (principal : DevicePrincipal) (now : Timestamp)
    (repo : InMemoryRepository) (record : ScanRecord) :
    Decidable (pollExpires rt principal now repo record) := by
  unfold pollExpires
  infer_instance

/-- What a poll makes of each record. -/
def pollRecord (rt : Runtime) (principal : DevicePrincipal) (now : Timestamp)
    (repo : InMemoryRepository) (record : ScanRecord) : ScanRecord :=
  if (dispatchOrder repo).find? (handsOut rt principal now) = some record then
    dispatchedRecord now record
  else if pollExpires rt principal now repo record then expiredRecord now record
  else record

/-- What a poll over these candidates makes of each record. -/
def polledRecord (rt : Runtime) (principal : DevicePrincipal) (now : Timestamp)
    (candidates : List ScanRecord) (record : ScanRecord) : ScanRecord :=
  if candidates.find? (handsOut rt principal now) = some record then dispatchedRecord now record
  else if record ∈ (visited rt principal now candidates).filter (expires rt principal now) then
    expiredRecord now record
  else record

/-- The scans after a poll over any candidates, each of them once. -/
theorem get?_polledScans_of_nodup {rt : Runtime} {principal : DevicePrincipal} {now : Timestamp}
    {scans : Dict String ScanRecord} {candidates : List ScanRecord} (hkeys : ScanKeys scans)
    (hstored : ∀ x ∈ candidates, scans.get? x.scanId = some x)
    (hnodup : (candidates.map ScanRecord.scanId).Nodup) (k : String) :
    (polledScans rt principal now candidates scans).get? k =
      (scans.get? k).map (polledRecord rt principal now candidates) := by
  set ended := (visited rt principal now candidates).filter (expires rt principal now) with hended
  have hsub : ended.Sublist candidates := List.filter_sublist.trans (List.takeWhile_sublist _)
  have hsame : ∀ {x record : ScanRecord}, x ∈ candidates →
      scans.get? k = some record → x.scanId = k → x = record := by
    intro x record hx hrecord hk
    have hxk := hstored x hx
    rw [hk, hrecord, Option.some.injEq] at hxk
    exact hxk.symm
  have hexpired : (Dict.setAll ScanRecord.scanId (expiredRecord now) ended scans).get? k =
      (scans.get? k).map fun record =>
        if record ∈ ended then expiredRecord now record else record := by
    cases hrecord : scans.get? k with
    | none =>
      rw [Dict.get?_setAll_not_mem, hrecord]
      · rfl
      · intro x hx hxk
        have hmem := hstored x (hsub.subset hx)
        rw [hxk, hrecord] at hmem
        cases hmem
    | some record =>
      by_cases hmem : record ∈ ended
      · rw [Option.map_some, if_pos hmem, ← hkeys _ _ hrecord]
        exact Dict.get?_setAll_mem ((hsub.map ScanRecord.scanId).nodup hnodup) hmem _
      · rw [Option.map_some, if_neg hmem, Dict.get?_setAll_not_mem, hrecord]
        intro x hx hxk
        exact hmem (hsame (hsub.subset hx) hrecord hxk ▸ hx)
  unfold polledScans polledRecord
  rw [← hended]
  cases hfind : candidates.find? (handsOut rt principal now) with
  | none => simpa using hexpired
  | some first =>
    have hfirst := List.mem_of_find?_eq_some hfind
    simp only [Dict.get?_set, Option.some.injEq]
    by_cases hk : first.scanId = k
    · have hfound := hstored first hfirst
      rw [hk] at hfound
      rw [if_pos hk, hfound, Option.map_some, if_pos rfl]
    · rw [if_neg hk, hexpired]
      cases hrecord : scans.get? k with
      | none => rfl
      | some record =>
        have hne : first ≠ record := fun h => hk (h ▸ hkeys _ _ hrecord)
        rw [Option.map_some, Option.map_some, if_neg hne]

theorem get?_polledScans {rt : Runtime} {principal : DevicePrincipal} {now : Timestamp}
    {repo : InMemoryRepository} (hkeys : ScanKeys repo.scans) (k : String) :
    (polledScans rt principal now (dispatchOrder repo) repo.scans).get? k =
      (repo.scans.get? k).map (pollRecord rt principal now repo) :=
  get?_polledScans_of_nodup hkeys (fun _ => (mem_dispatchOrder hkeys).mp)
    (nodup_dispatchOrder hkeys) k

/-! ## Evidence -/

theorem ownedScan_eq_ok {principal : DevicePrincipal} {scanId : String}
    {repo : InMemoryRepository} {record : ScanRecord} :
    ownedScan principal scanId repo = .ok record ↔ repo.scans.get? scanId = some record ∧
      record.tenantId = principal.tenantId ∧ record.endpointId = principal.endpointId := by
  unfold ownedScan
  cases hscan : repo.scans.get? scanId with
  | none => simp [fail]
  | some found =>
    simp only [Check.bind_unit_eq_ok, raiseIf_eq_ok, not_or, not_not, ne_eq, Except.ok.injEq,
      Option.some.injEq]
    constructor
    · rintro ⟨howned, rfl⟩
      exact ⟨rfl, howned⟩
    · rintro ⟨rfl, howned⟩
      exact ⟨howned, rfl⟩

/-- What the checks of an ingest have established. -/
structure IngestSource (rt : Runtime) (principal : DevicePrincipal) (scanId : String)
    (upload : JsonObject) (tasks : List AnalysisTask) (now : Timestamp)
    (repo : InMemoryRepository) (record : ScanRecord) (reconstruction : InventoryReconstruction) :
    Prop where
  found : repo.scans.get? scanId = some record
  tenant : record.tenantId = principal.tenantId
  endpointId : record.endpointId = principal.endpointId
  first : record.upload = none
  valid : validateScanUpload rt record upload now = .ok ()
  reconstructed : reconstructInventory rt principal.tenantId principal.endpointId scanId
    (upload.get "inventory_sync")
    (repo.inventoryStates.get? (principal.tenantId, principal.endpointId)) now =
      .ok reconstruction
  tasks : checkTasks principal scanId tasks repo = .ok ()

/-- The record of a scan whose evidence has been accepted. -/
def acceptedRecord (upload : JsonObject) (reconstruction : InventoryReconstruction)
    (now : Timestamp) (record : ScanRecord) : ScanRecord :=
  { record with
    state := .analyzing
    upload := some (upload.set "inventory_sync" (.obj reconstruction.inventorySync))
    updatedAt := now }

/-- The state after accepted evidence. -/
theorem ingestScan_effect {rt : Runtime} {principal : DevicePrincipal} {scanId : String}
    {upload : JsonObject} {key digest : String} {tasks : List AnalysisTask}
    {now auditedAt : Timestamp} {repo repo' : InMemoryRepository}
    {result : Except RepositoryError ScanRecord}
    (h : (ingestScan rt principal scanId upload key digest tasks now auditedAt).run repo =
      (result, repo')) :
    (repo' = repo ∧ (Replays principal.tenantId (ingestOperation scanId) key digest
        Response.asScan repo result ∨ ∃ e, result = .error e)) ∨
      ∃ record reconstruction,
        repo.idempotency.get? ⟨principal.tenantId, ingestOperation scanId, key⟩ = none ∧
        IngestSource rt principal scanId upload tasks now repo record reconstruction ∧
        ((∃ mode, requireKey reconstruction.inventorySync "mode" = .ok mode ∧
            result = .ok (acceptedRecord upload reconstruction now record)) ∨
          ∃ e, requireKey reconstruction.inventorySync "mode" = .error e ∧ result = .error e) ∧
        ∃ events, repo' = { repo with
          scans := repo.scans.set scanId (acceptedRecord upload reconstruction now record)
          inventoryStates := repo.inventoryStates.set
            (principal.tenantId, principal.endpointId) reconstruction.state
          tasks := Dict.setAll AnalysisTask.taskId id tasks repo.tasks
          idempotency := repo.idempotency.set
            ⟨principal.tenantId, ingestOperation scanId, key⟩
            (digest, .scan (acceptedRecord upload reconstruction now record))
          auditEvents := repo.auditEvents ++ events } := by
  rcases idempotent_cases h with ⟨rfl, hr⟩ | ⟨hnone, h⟩
  · exact Or.inl ⟨rfl, Or.inl hr⟩
  · simp only [Method.run_reading_bind, Method.run_modify_bind, run_remember_bind,
      Method.run_ofExcept_bind] at h
    split at h
    · rename_i record hrecord
      obtain ⟨hfound, htenant, hendpoint⟩ := ownedScan_eq_ok.mp hrecord
      split at h
      · rename_i hfirst
        rw [raiseIf_eq_ok, not_not] at hfirst
        split at h
        · rename_i hvalid
          split at h
          · rename_i reconstruction hreconstruction
            split at h
            · rename_i htasks
              refine Or.inr ⟨record, reconstruction, hnone,
                ⟨hfound, htenant, hendpoint, hfirst, hvalid, hreconstruction, htasks⟩, ?_⟩
              cases hmode : requireKey reconstruction.inventorySync "mode" with
              | ok mode =>
                rw [hmode] at h
                cases h
                exact ⟨Or.inl ⟨_, rfl, rfl⟩, _, rfl⟩
              | error e =>
                rw [hmode] at h
                cases h
                exact ⟨Or.inr ⟨_, rfl, rfl⟩, [], by simp [acceptedRecord]⟩
            · cases h
              exact Or.inl ⟨rfl, Or.inr ⟨_, rfl⟩⟩
          · cases h
            exact Or.inl ⟨rfl, Or.inr ⟨_, rfl⟩⟩
        · cases h
          exact Or.inl ⟨rfl, Or.inr ⟨_, rfl⟩⟩
      · cases h
        exact Or.inl ⟨rfl, Or.inr ⟨_, rfl⟩⟩
    · cases h
      exact Or.inl ⟨rfl, Or.inr ⟨_, rfl⟩⟩

/-- The state after a terminal status. -/
theorem recordScanStatus_effect {principal : DevicePrincipal} {scanId : String}
    {status : JsonObject} {key digest : String} {now auditedAt : Timestamp}
    {repo repo' : InMemoryRepository} {result : Except RepositoryError ScanRecord}
    (h : (recordScanStatus principal scanId status key digest now auditedAt).run repo =
      (result, repo')) :
    (repo' = repo ∧ (Replays principal.tenantId (scanStatusOperation scanId) key digest
        Response.asScan repo result ∨ ∃ e, result = .error e)) ∨
      ∃ record,
        repo.idempotency.get? ⟨principal.tenantId, scanStatusOperation scanId, key⟩ = none ∧
        (repo.scans.get? scanId = some record ∧ record.tenantId = principal.tenantId ∧
          record.endpointId = principal.endpointId) ∧
        validateScanStatus record status = .ok () ∧
        ((∃ terminal, requireKey status "status" = .ok terminal ∧
            result = .ok { record with terminalStatus := some status, updatedAt := now }) ∨
          ∃ e, requireKey status "status" = .error e ∧ result = .error e) ∧
        ∃ events, repo' = { repo with
          scans := repo.scans.set scanId
            { record with terminalStatus := some status, updatedAt := now }
          idempotency := repo.idempotency.set
            ⟨principal.tenantId, scanStatusOperation scanId, key⟩
            (digest, .scan { record with terminalStatus := some status, updatedAt := now })
          auditEvents := repo.auditEvents ++ events } := by
  rcases idempotent_cases h with ⟨rfl, hr⟩ | ⟨hnone, h⟩
  · exact Or.inl ⟨rfl, Or.inl hr⟩
  · simp only [Method.run_reading_bind, Method.run_modify_bind, run_remember_bind,
      Method.run_ofExcept_bind] at h
    split at h
    · rename_i record hrecord
      split at h
      · rename_i hvalid
        refine Or.inr ⟨record, hnone, ownedScan_eq_ok.mp hrecord, hvalid, ?_⟩
        cases hterminal : requireKey status "status" with
        | ok terminal =>
          rw [hterminal] at h
          cases h
          exact ⟨Or.inl ⟨_, rfl, rfl⟩, _, rfl⟩
        | error e =>
          rw [hterminal] at h
          cases h
          exact ⟨Or.inr ⟨_, rfl, rfl⟩, [], by simp⟩
      · cases h
        exact Or.inl ⟨rfl, Or.inr ⟨_, rfl⟩⟩
    · cases h
      exact Or.inl ⟨rfl, Or.inr ⟨_, rfl⟩⟩

/-- The scans after a rejection: the one that it names is rejected, whatever its state. -/
def rejectedScans (payload : ScanRejectionUpload) (now : Timestamp) (record : Option ScanRecord)
    (scans : Dict String ScanRecord) : Dict String ScanRecord :=
  match record with
  | none => scans
  | some record =>
    scans.set (payload.scanId.getD "") { record with state := .rejected, updatedAt := now }

theorem rejectedScan_eq_some {principal : DevicePrincipal} {payload : ScanRejectionUpload}
    {repo : InMemoryRepository} {record : ScanRecord}
    (h : rejectedScan principal payload repo = .ok (some record)) :
    repo.scans.get? (payload.scanId.getD "") = some record ∧
      record.tenantId = principal.tenantId ∧ record.endpointId = principal.endpointId := by
  unfold rejectedScan at h
  split at h
  · cases h
  · rename_i scanId hid
    split at h
    · cases h
    · split at h
      · cases h
      · rename_i found hfound
        simp only [Check.bind_unit_eq_ok, raiseIf_eq_ok, not_or, not_not, Except.ok.injEq,
          Option.some.injEq] at h
        obtain ⟨howned, rfl⟩ := h
        rw [hid]
        exact ⟨hfound, howned⟩

/-- The state after a rejection. -/
theorem recordRejection_effect {principal : DevicePrincipal} {payload : ScanRejectionUpload}
    {key digest : String} {now auditedAt : Timestamp} {repo repo' : InMemoryRepository}
    {result : Except RepositoryError Unit}
    (h : (recordRejection principal payload key digest now auditedAt).run repo =
      (result, repo')) :
    (repo' = repo ∧ (Replays principal.tenantId (rejectionOperation payload.documentSha256) key
        digest Response.asAccepted repo result ∨ ∃ e, result = .error e)) ∨
      ∃ record,
        repo.idempotency.get?
          ⟨principal.tenantId, rejectionOperation payload.documentSha256, key⟩ = none ∧
        rejectedScan principal payload repo = .ok record ∧ result = .ok () ∧
        ∃ event, repo' = { repo with
          scans := rejectedScans payload now record repo.scans
          rejections := repo.rejections ++ [payload]
          idempotency := repo.idempotency.set
            ⟨principal.tenantId, rejectionOperation payload.documentSha256, key⟩
            (digest, .accepted)
          auditEvents := repo.auditEvents ++ [event] } := by
  rcases idempotent_cases h with ⟨rfl, hr⟩ | ⟨hnone, h⟩
  · exact Or.inl ⟨rfl, Or.inl hr⟩
  · simp only [Method.run_reading_bind, Method.run_modify_bind, run_remember_bind] at h
    split at h
    · rename_i record hrecord
      refine Or.inr ⟨record, hnone, hrecord, ?_⟩
      cases record <;> cases h <;> exact ⟨rfl, _, rfl⟩
    · cases h
      exact Or.inl ⟨rfl, Or.inr ⟨_, rfl⟩⟩

/-! ## Analysis tasks -/

/-- The state after a claim: one claimable task runs under a new lease. -/
theorem claimAnalysisTask_effect {kind : TaskKind} {workerId : String} {leaseSeconds : Int}
    {now : Timestamp} {repo repo' : InMemoryRepository}
    {result : Except RepositoryError (Option AnalysisTask)}
    (h : (claimAnalysisTask kind workerId leaseSeconds now).run repo = (result, repo')) :
    (repo' = repo ∧ (result = .ok none ∨ ∃ e, result = .error e)) ∨
      ∃ task claimed, task ∈ repo.tasks.values ∧ isClaimable kind now task = true ∧
        claimed = { task with
          state := .running
          attempts := task.attempts + 1
          leasedBy := some workerId
          leaseExpiresAt := some (now + seconds leaseSeconds)
          updatedAt := now } ∧
        result = .ok (some claimed) ∧
        repo' = { repo with tasks := repo.tasks.set task.taskId claimed } := by
  simp only [claimAnalysisTask, Method.run_ofExcept_bind, Method.run_reading_bind] at h
  split at h
  · split at h
    · cases h
      exact Or.inl ⟨rfl, Or.inl rfl⟩
    · rename_i task htask
      cases h
      have hmem := List.mem_of_find?_eq_some htask
      rw [List.mem_insertionSort] at hmem
      exact Or.inr ⟨task, _, hmem, List.find?_some htask, rfl, rfl, rfl⟩
  · cases h
    exact Or.inl ⟨rfl, Or.inr ⟨_, rfl⟩⟩

theorem leasedTask_eq_ok {taskId workerId : String} {repo : InMemoryRepository}
    {task : AnalysisTask} :
    leasedTask taskId workerId repo = .ok task ↔ repo.tasks.get? taskId = some task ∧
      task.state = .running ∧ task.leasedBy = some workerId := by
  unfold leasedTask
  cases htask : repo.tasks.get? taskId with
  | none => simp [fail]
  | some found =>
    simp only [Check.bind_unit_eq_ok, raiseIf_eq_ok, not_or, not_not, ne_eq, Except.ok.injEq,
      Option.some.injEq]
    constructor
    · rintro ⟨hleased, rfl⟩
      exact ⟨rfl, hleased⟩
    · rintro ⟨rfl, hleased⟩
      exact ⟨hleased, rfl⟩

/-- The state after a completed task. -/
theorem completeAnalysisTask_effect {taskId workerId : String} {taskResult : JsonObject}
    {now : Timestamp} {repo repo' : InMemoryRepository} {result : Except RepositoryError Unit}
    (h : (completeAnalysisTask taskId workerId taskResult now).run repo = (result, repo')) :
    (repo' = repo ∧ ∃ e, result = .error e) ∨
      ∃ task, (repo.tasks.get? taskId = some task ∧ task.state = .running ∧
          task.leasedBy = some workerId) ∧ result = .ok () ∧
        repo' = { repo with tasks := repo.tasks.set taskId { task with
          state := .succeeded
          result := some taskResult
          leaseExpiresAt := none
          leasedBy := none
          updatedAt := now } } := by
  simp only [completeAnalysisTask, Method.run_reading_bind] at h
  split at h
  · rename_i task htask
    cases h
    exact Or.inr ⟨task, leasedTask_eq_ok.mp htask, rfl, rfl⟩
  · cases h
    exact Or.inl ⟨rfl, _, rfl⟩

/-- The state after a failed task. -/
theorem failAnalysisTask_effect {taskId workerId error : String} {retryAt : Timestamp}
    {deadLetter : Bool} {now : Timestamp} {repo repo' : InMemoryRepository}
    {result : Except RepositoryError Unit}
    (h : (failAnalysisTask taskId workerId error retryAt deadLetter now).run repo =
      (result, repo')) :
    (repo' = repo ∧ ∃ e, result = .error e) ∨
      ∃ task, (repo.tasks.get? taskId = some task ∧ task.state = .running ∧
          task.leasedBy = some workerId) ∧ result = .ok () ∧
        repo' = { repo with tasks := repo.tasks.set taskId { task with
          state := if deadLetter then .failed else .retry
          availableAt := max now retryAt
          leaseExpiresAt := none
          leasedBy := none
          lastError := some (sanitizeError error)
          updatedAt := now } } := by
  simp only [failAnalysisTask, Method.run_reading_bind] at h
  split at h
  · rename_i task htask
    cases h
    exact Or.inr ⟨task, leasedTask_eq_ok.mp htask, rfl, rfl⟩
  · cases h
    exact Or.inl ⟨rfl, _, rfl⟩

/-! ## Finalization -/

theorem knownScan_eq_ok {scanId : String} {repo : InMemoryRepository} {record : ScanRecord} :
    knownScan scanId repo = .ok record ↔ repo.scans.get? scanId = some record := by
  unfold knownScan
  cases repo.scans.get? scanId <;> simp [fail]

/-- The record of a scan whose report is final. -/
def completedRecord (report : JsonObject) (now : Timestamp) (record : ScanRecord) : ScanRecord :=
  { record with state := .complete, finalReport := some report, updatedAt := now }

/-- The state after a final report. -/
theorem finalizeScanReport_effect {scanId : String} {report : JsonObject}
    {now auditedAt : Timestamp} {repo repo' : InMemoryRepository}
    {result : Except RepositoryError Unit}
    (h : (finalizeScanReport scanId report now auditedAt).run repo = (result, repo')) :
    repo' = repo ∨
      ∃ record, repo.scans.get? scanId = some record ∧ record.finalReport = none ∧
        tasksTerminal (taskStates repo scanId) = true ∧ result = .ok () ∧
        ∃ event, repo' = { repo with
          scans := repo.scans.set scanId (completedRecord report now record)
          auditEvents := repo.auditEvents ++ [event] } := by
  simp only [finalizeScanReport, Method.run_reading_bind] at h
  split at h
  · rename_i record hrecord
    rw [knownScan_eq_ok] at hrecord
    split at h
    · cases h
      exact Or.inl rfl
    · rename_i hnone
      simp only [Method.run_reading_bind, Method.run_ofExcept_bind, Method.run_modify_bind] at h
      split at h
      · rename_i hterminal
        rw [raiseIf_eq_ok, Bool.not_eq_false] at hterminal
        cases h
        exact Or.inr ⟨record, hrecord, hnone, hterminal, rfl, _, rfl⟩
      · cases h
        exact Or.inl rfl
  · cases h
    exact Or.inl rfl

/-- The state after a report of a failed normalization. Neither state nor tasks are looked at. -/
theorem finalizeScanReportFailure_effect {rt : Runtime} {scanId error : String}
    {completedAt now auditedAt : Timestamp} {repo repo' : InMemoryRepository}
    {result : Except RepositoryError Unit}
    (h : (finalizeScanReportFailure rt scanId error completedAt now auditedAt).run repo =
      (result, repo')) :
    repo' = repo ∨
      ∃ record, repo.scans.get? scanId = some record ∧ record.finalReport = none ∧
        result = .ok () ∧
        ∃ event, repo' = { repo with
          scans := repo.scans.set scanId
            (completedRecord (failedNormalizationReport rt record error completedAt) now record)
          auditEvents := repo.auditEvents ++ [event] } := by
  simp only [finalizeScanReportFailure, Method.run_reading_bind] at h
  split at h
  · rename_i record hrecord
    rw [knownScan_eq_ok] at hrecord
    split at h
    · cases h
      exact Or.inl rfl
    · rename_i hnone
      cases h
      exact Or.inr ⟨record, hrecord, hnone, rfl, _, rfl⟩
  · cases h
    exact Or.inl rfl

end OsScanner.Cloud

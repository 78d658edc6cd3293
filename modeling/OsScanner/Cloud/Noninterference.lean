import Mathlib
import OsScanner.Cloud.Atomicity
import OsScanner.Cloud.ScanApi
import OsScanner.Lib.Table

/-!
# What an endpoint learns of other tenants

Two states that agree on the data of a tenant answer its endpoints alike, except where an
operation looks a scan up by its identifier and answers for an unknown scan differently than
for the scan of another tenant. Evidence and a terminal status are refused alike in the two
cases; a rejection and a read are not.
-/

namespace OsScanner.Cloud

open Lib

/-! ## Agreement -/

/-- The states differ in the data of other tenants only. -/
structure SameForTenant (tenant : String) (repo₁ repo₂ : InMemoryRepository) : Prop where
  scans : repo₁.scans.entries.filter (fun e => decide (e.2.tenantId = tenant)) =
    repo₂.scans.entries.filter fun e => decide (e.2.tenantId = tenant)
  endpoints : repo₁.endpoints.entries.filter (fun e => decide (e.2.tenantId = tenant)) =
    repo₂.endpoints.entries.filter fun e => decide (e.2.tenantId = tenant)
  inventoryStates : repo₁.inventoryStates.entries.filter (fun e => decide (e.1.1 = tenant)) =
    repo₂.inventoryStates.entries.filter fun e => decide (e.1.1 = tenant)
  tasks : repo₁.tasks.entries.filter (fun e => decide (e.2.tenantId = tenant)) =
    repo₂.tasks.entries.filter fun e => decide (e.2.tenantId = tenant)
  idempotency : repo₁.idempotency.entries.filter (fun e => decide (e.1.tenant = tenant)) =
    repo₂.idempotency.entries.filter fun e => decide (e.1.tenant = tenant)

theorem SameForTenant.symm {tenant : String} {repo₁ repo₂ : InMemoryRepository}
    (h : SameForTenant tenant repo₁ repo₂) : SameForTenant tenant repo₂ repo₁ :=
  ⟨h.scans.symm, h.endpoints.symm, h.inventoryStates.symm, h.tasks.symm, h.idempotency.symm⟩

/-- An entry that the filter keeps is found in both dictionaries. -/
theorem get?_of_filter_eq {κ α : Type} [DecidableEq κ] {p : κ × α → Bool} {d₁ d₂ : Dict κ α}
    (h : d₁.entries.filter p = d₂.entries.filter p) {k : κ} {v : α} (hp : p (k, v) = true)
    (hget : d₁.get? k = some v) : d₂.get? k = some v := by
  have hmem : (k, v) ∈ d₂.entries.filter p := by
    rw [← h, List.mem_filter]
    exact ⟨Dict.mem_entries_iff.mpr hget, hp⟩
  exact Dict.mem_entries_iff.mp (List.mem_of_mem_filter hmem)

/-- Keys that the filter keeps whatever their value are looked up alike. -/
theorem get?_eq_of_filter_eq {κ α : Type} [DecidableEq κ] {p : κ × α → Bool} {d₁ d₂ : Dict κ α}
    (h : d₁.entries.filter p = d₂.entries.filter p) {k : κ} (hp : ∀ v, p (k, v) = true) :
    d₁.get? k = d₂.get? k := by
  cases h₁ : d₁.get? k with
  | some v => exact (get?_of_filter_eq h (hp v) h₁).symm
  | none =>
    cases h₂ : d₂.get? k with
    | none => rfl
    | some v => rw [get?_of_filter_eq h.symm (hp v) h₂] at h₁; cases h₁

section Agreement

variable {tenant : String} {repo₁ repo₂ : InMemoryRepository}

theorem SameForTenant.recorded (h : SameForTenant tenant repo₁ repo₂) (operation key : String) :
    repo₁.idempotency.get? ⟨tenant, operation, key⟩ =
      repo₂.idempotency.get? ⟨tenant, operation, key⟩ :=
  get?_eq_of_filter_eq h.idempotency fun _ => decide_eq_true rfl

theorem SameForTenant.inventory (h : SameForTenant tenant repo₁ repo₂) (endpointId : String) :
    repo₁.inventoryStates.get? (tenant, endpointId) =
      repo₂.inventoryStates.get? (tenant, endpointId) :=
  get?_eq_of_filter_eq h.inventoryStates fun _ => decide_eq_true rfl

theorem SameForTenant.scan (h : SameForTenant tenant repo₁ repo₂) {scanId : String}
    {record : ScanRecord} (htenant : record.tenantId = tenant)
    (hfound : repo₁.scans.get? scanId = some record) : repo₂.scans.get? scanId = some record :=
  get?_of_filter_eq h.scans (decide_eq_true htenant) hfound

end Agreement

/-! ## Scans of other tenants -/

/-- The identifier is that of a scan of another tenant. -/
def Foreign (tenant : String) (repo : InMemoryRepository) (scanId : String) : Prop :=
  ∃ record, repo.scans.get? scanId = some record ∧ record.tenantId ≠ tenant

/-- What the tenant can look up, and whether the identifier is somebody else's. -/
theorem lookup_cases {tenant : String} {repo₁ repo₂ : InMemoryRepository}
    (h : SameForTenant tenant repo₁ repo₂) (scanId : String) :
    (∃ record, record.tenantId = tenant ∧ repo₁.scans.get? scanId = some record ∧
        repo₂.scans.get? scanId = some record) ∨
      ((repo₁.scans.get? scanId = none ∨ Foreign tenant repo₁ scanId) ∧
        (repo₂.scans.get? scanId = none ∨ Foreign tenant repo₂ scanId)) := by
  have hside : ∀ {repo : InMemoryRepository},
      (¬ ∃ record, record.tenantId = tenant ∧ repo.scans.get? scanId = some record) →
      repo.scans.get? scanId = none ∨ Foreign tenant repo scanId := by
    intro repo hnone
    cases hget : repo.scans.get? scanId with
    | none => exact Or.inl rfl
    | some record => exact Or.inr ⟨record, hget, fun htenant => hnone ⟨record, htenant, hget⟩⟩
  by_cases h₁ : ∃ record, record.tenantId = tenant ∧ repo₁.scans.get? scanId = some record
  · obtain ⟨record, htenant, hget⟩ := h₁
    exact Or.inl ⟨record, htenant, hget, h.scan htenant hget⟩
  · have h₂ : ¬ ∃ record, record.tenantId = tenant ∧ repo₂.scans.get? scanId = some record := by
      rintro ⟨record, htenant, hget⟩
      exact h₁ ⟨record, htenant, h.symm.scan htenant hget⟩
    exact Or.inr ⟨hside h₁, hside h₂⟩

theorem not_foreign_of_none {tenant scanId : String} {repo : InMemoryRepository}
    (h : repo.scans.get? scanId = none) : ¬ Foreign tenant repo scanId := by
  rintro ⟨record, hget, -⟩
  rw [h] at hget
  cases hget

theorem not_foreign_of_own {tenant scanId : String} {repo : InMemoryRepository}
    {record : ScanRecord} (htenant : record.tenantId = tenant)
    (h : repo.scans.get? scanId = some record) : ¬ Foreign tenant repo scanId := by
  rintro ⟨other, hget, hother⟩
  rw [h, Option.some.injEq] at hget
  exact hother (hget ▸ htenant)

section Operations

variable {rt : Runtime} {principal : DevicePrincipal} {repo₁ repo₂ : InMemoryRepository}

/-- A scan that is unknown and a scan of another tenant are refused alike. -/
theorem ownedScan_eq (h : SameForTenant principal.tenantId repo₁ repo₂) (scanId : String) :
    ownedScan principal scanId repo₁ = ownedScan principal scanId repo₂ := by
  have hrefused : ∀ {repo : InMemoryRepository},
      (repo.scans.get? scanId = none ∨ Foreign principal.tenantId repo scanId) →
      ownedScan principal scanId repo =
        fail .ownership "scan is not owned by authenticated endpoint" := by
    intro repo hor
    unfold ownedScan
    rcases hor with hnone | ⟨record, hget, htenant⟩
    · rw [hnone]
    · rw [hget]
      simp only [raiseIf, Check.raiseIf, if_pos (Or.inl htenant : record.tenantId ≠ _ ∨ _)]
      rfl
  rcases lookup_cases h scanId with ⟨record, -, h₁, h₂⟩ | ⟨h₁, h₂⟩
  · simp only [ownedScan, h₁, h₂]
  · rw [hrefused h₁, hrefused h₂]

/-! ## Recorded responses -/

theorem run_idempotent_fst {α : Type} (tenant operation key digest : String)
    (response : Response → Except RepositoryError α) (fresh : RepositoryMethod α)
    (repo : InMemoryRepository) :
    ((idempotent tenant operation key digest response fresh).run repo).1 =
      match repo.idempotency.get? ⟨tenant, operation, key⟩ with
      | some (recordedDigest, recorded) =>
        if recordedDigest ≠ digest then
          fail .idempotencyConflict "idempotency key was reused with different content"
        else response recorded
      | none => (fresh.run repo).1 := by
  simp only [idempotent, replay, Method.run_reading_bind]
  cases repo.idempotency.get? ⟨tenant, operation, key⟩ with
  | none => rfl
  | some recorded =>
    by_cases hdigest : recorded.1 = digest <;> simp [hdigest, fail]

/-- Two states with the same records answer alike when their fresh answers agree. -/
theorem idempotent_eq {α : Type} {operation key digest : String}
    {response : Response → Except RepositoryError α} {fresh : RepositoryMethod α}
    (h : SameForTenant principal.tenantId repo₁ repo₂)
    (hfresh : repo₁.idempotency.get? ⟨principal.tenantId, operation, key⟩ = none →
      (fresh.run repo₁).1 = (fresh.run repo₂).1) :
    ((idempotent principal.tenantId operation key digest response fresh).run repo₁).1 =
      ((idempotent principal.tenantId operation key digest response fresh).run repo₂).1 := by
  rw [run_idempotent_fst, run_idempotent_fst, ← h.recorded operation key]
  cases hrecorded : repo₁.idempotency.get? ⟨principal.tenantId, operation, key⟩ with
  | none => exact hfresh hrecorded
  | some recorded => rfl

/-! ## The next job -/

/-- The answer of the dispatch loop, which reads nothing but its candidates. -/
def dispatchAnswer (rt : Runtime) (principal : DevicePrincipal) (now : Timestamp) :
    List ScanRecord → Except RepositoryError (Option ScanRecord)
  | [] => .ok none
  | record :: candidates =>
    if isDispatchCandidate principal record then
      match jobDispatchEligibility rt record principal.endpointId now with
      | .eligible => (requireKey record.jobDocument "timeout_seconds").map fun _ =>
        some { record with state := .dispatched, updatedAt := now }
      | .expired | .active | .waiting => dispatchAnswer rt principal now candidates
    else dispatchAnswer rt principal now candidates

theorem run_dispatchLoop_fst {now auditedAt : Timestamp} {candidates : List ScanRecord} :
    ∀ repo, ((dispatchLoop rt principal now auditedAt candidates).run repo).1 =
      dispatchAnswer rt principal now candidates := by
  induction candidates with
  | nil => exact fun _ => rfl
  | cons record candidates ih =>
    intro repo
    by_cases hcandidate : isDispatchCandidate principal record
    · cases heligible : jobDispatchEligibility rt record principal.endpointId now with
      | eligible =>
        simp only [dispatchLoop, dispatchAnswer, if_pos hcandidate, heligible, dispatchRecord,
          Method.run_map, Method.run_modify_bind, Method.run_ofExcept_bind]
        cases requireKey record.jobDocument "timeout_seconds" <;> rfl
      | expired =>
        simp only [dispatchLoop, dispatchAnswer, if_pos hcandidate, heligible]
        exact ih _
      | _ =>
        simp only [dispatchLoop, dispatchAnswer, if_pos hcandidate, heligible]
        exact ih repo
    · simp only [dispatchLoop, dispatchAnswer, if_neg hcandidate]
      exact ih repo

/-- The records of other tenants are passed over. -/
theorem dispatchAnswer_filter (now : Timestamp) (candidates : List ScanRecord) :
    dispatchAnswer rt principal now
        (candidates.filter fun record => decide (record.tenantId = principal.tenantId)) =
      dispatchAnswer rt principal now candidates := by
  induction candidates with
  | nil => rfl
  | cons record candidates ih =>
    by_cases htenant : record.tenantId = principal.tenantId
    · rw [List.filter_cons_of_pos (by simpa using htenant)]
      simp only [dispatchAnswer, ih]
    · have hnot : ¬ isDispatchCandidate principal record := fun h => htenant h.1
      rw [List.filter_cons_of_neg (by simpa using htenant), ih]
      simp only [dispatchAnswer, if_neg hnot]

theorem dispatchOrder_filter (h : SameForTenant principal.tenantId repo₁ repo₂) :
    (dispatchOrder repo₁).filter (fun record => decide (record.tenantId = principal.tenantId)) =
      (dispatchOrder repo₂).filter fun record =>
        decide (record.tenantId = principal.tenantId) := by
  have hvalues : ∀ repo : InMemoryRepository,
      repo.scans.values.filter (fun record => decide (record.tenantId = principal.tenantId)) =
        (repo.scans.entries.filter fun e =>
          decide (e.2.tenantId = principal.tenantId)).map Prod.snd := fun repo => by
    rw [Dict.values, List.filter_map]
    rfl
  have : Std.Total fun a b : ScanRecord => a.createdAt ≤ b.createdAt :=
    ⟨fun a b => le_total a.createdAt b.createdAt⟩
  have : IsTrans ScanRecord fun a b => a.createdAt ≤ b.createdAt := ⟨fun _ _ _ => le_trans⟩
  rw [dispatchOrder, dispatchOrder, filter_insertionSort, filter_insertionSort, hvalues, hvalues,
    h.scans]

theorem touchEndpoint_scans (now : Timestamp) (repo : InMemoryRepository) :
    (touchEndpoint principal now repo).scans = repo.scans := by
  unfold touchEndpoint
  split
  · split <;> rfl
  · rfl

theorem claimNextJob_eq (h : SameForTenant principal.tenantId repo₁ repo₂)
    (now auditedAt : Timestamp) :
    ((claimNextJob rt principal now auditedAt).run repo₁).1 =
      ((claimNextJob rt principal now auditedAt).run repo₂).1 := by
  have hanswer : ∀ repo, ((claimNextJob rt principal now auditedAt).run repo).1 =
      dispatchAnswer rt principal now (dispatchOrder repo) := fun repo => by
    rw [claimNextJob, Method.run_modify_bind, Method.run_reading_bind, dispatchOrder,
      touchEndpoint_scans]
    exact run_dispatchLoop_fst _
  rw [hanswer, hanswer, ← dispatchAnswer_filter, dispatchOrder_filter h, dispatchAnswer_filter]

/-! ## Evidence -/

/-- What an accepted upload has passed before its tasks are looked at. -/
def PassesChecks (rt : Runtime) (principal : DevicePrincipal) (scanId : String)
    (upload : JsonObject) (idempotencyKey : String) (now : Timestamp)
    (repo : InMemoryRepository) : Prop :=
  repo.idempotency.get? ⟨principal.tenantId, ingestOperation scanId, idempotencyKey⟩ = none ∧
    ∃ record, ownedScan principal scanId repo = .ok record ∧ record.upload = none ∧
      validateScanUpload rt record upload now = .ok () ∧
      ∃ reconstruction, reconstructInventory rt principal.tenantId principal.endpointId scanId
        (upload.get "inventory_sync")
        (repo.inventoryStates.get? (principal.tenantId, principal.endpointId)) now =
          .ok reconstruction

/-- The answer to evidence, as far as the repository has a part in it. -/
def ingestAnswer (rt : Runtime) (principal : DevicePrincipal) (scanId : String)
    (upload : JsonObject) (now : Timestamp) (owned : Except RepositoryError ScanRecord)
    (current : Option InventoryState) (checked : Except RepositoryError Unit) :
    Except RepositoryError ScanRecord := do
  let record ← owned
  raiseIf (record.upload ≠ none) .stateConflict "scan already has a different accepted upload"
  validateScanUpload rt record upload now
  let reconstruction ← reconstructInventory rt principal.tenantId principal.endpointId scanId
    (upload.get "inventory_sync") current now
  checked
  .ok (acceptedRecord upload reconstruction now record)

/-- The tasks decide once everything else has passed, and have no say before. -/
theorem ingestAnswer_cases (scanId : String) (upload : JsonObject) (now : Timestamp)
    (owned : Except RepositoryError ScanRecord) (current : Option InventoryState) :
    (∃ record reconstruction, owned = .ok record ∧ record.upload = none ∧
      validateScanUpload rt record upload now = .ok () ∧
      reconstructInventory rt principal.tenantId principal.endpointId scanId
        (upload.get "inventory_sync") current now = .ok reconstruction ∧
      ∀ checked, ingestAnswer rt principal scanId upload now owned current checked =
        checked >>= fun _ => .ok (acceptedRecord upload reconstruction now record)) ∨
    ∃ e, (∀ record, owned = .ok record → record.upload = none →
        validateScanUpload rt record upload now = .ok () →
        reconstructInventory rt principal.tenantId principal.endpointId scanId
          (upload.get "inventory_sync") current now = .error e) ∧
      ∀ checked, ingestAnswer rt principal scanId upload now owned current checked = .error e := by
  cases owned with
  | error e => exact Or.inr ⟨e, fun _ h => (nomatch h), fun _ => rfl⟩
  | ok record =>
    by_cases hfirst : record.upload = none
    · have hpass : raiseIf (record.upload ≠ none) .stateConflict
          "scan already has a different accepted upload" = .ok () :=
        raiseIf_eq_ok.mpr (not_not.mpr hfirst)
      cases hvalid : validateScanUpload rt record upload now with
      | error e =>
        refine Or.inr ⟨e, fun record' h _ h' => ?_, fun checked => ?_⟩
        · cases h
          rw [hvalid] at h'
          cases h'
        · show (raiseIf _ _ _ >>= fun _ => validateScanUpload rt record upload now >>= _) = _
          rw [hpass, hvalid]
          rfl
      | ok u =>
        cases hreconstruction : reconstructInventory rt principal.tenantId principal.endpointId
          scanId (upload.get "inventory_sync") current now with
        | error e =>
          refine Or.inr ⟨e, fun _ _ _ _ => rfl, fun checked => ?_⟩
          show (raiseIf _ _ _ >>= fun _ => validateScanUpload rt record upload now >>= fun _ =>
            reconstructInventory _ _ _ _ _ _ _ >>= _) = _
          rw [hpass, hvalid, hreconstruction]
          rfl
        | ok reconstruction =>
          refine Or.inl ⟨record, reconstruction, rfl, hfirst, hvalid, rfl, fun checked => ?_⟩
          show (raiseIf _ _ _ >>= fun _ => validateScanUpload rt record upload now >>= fun _ =>
            reconstructInventory _ _ _ _ _ _ _ >>= _) = _
          rw [hpass, hvalid, hreconstruction]
          rfl
    · refine Or.inr ⟨⟨.stateConflict, "scan already has a different accepted upload"⟩,
        fun record' h h' => ?_, fun checked => ?_⟩
      · cases h
        exact absurd h' hfirst
      · have hraise : raiseIf (record.upload ≠ none) .stateConflict
            "scan already has a different accepted upload" =
              .error ⟨.stateConflict, "scan already has a different accepted upload"⟩ :=
          Check.raiseIf_eq_error.mpr ⟨hfirst, rfl⟩
        show (raiseIf _ _ _ >>= _) = _
        rw [hraise]
        rfl

theorem run_ingestScan_fst (scanId : String) (upload : JsonObject) (key digest : String)
    (tasks : List AnalysisTask) (now auditedAt : Timestamp) (repo : InMemoryRepository)
    (hfresh : repo.idempotency.get? ⟨principal.tenantId, ingestOperation scanId, key⟩ = none) :
    ((ingestScan rt principal scanId upload key digest tasks now auditedAt).run repo).1 =
      ingestAnswer rt principal scanId upload now (ownedScan principal scanId repo)
        (repo.inventoryStates.get? (principal.tenantId, principal.endpointId))
        (checkTasks principal scanId tasks repo) := by
  rw [ingestScan, run_idempotent_fst, hfresh]
  simp only [Method.result_reading_bind, Method.result_ofExcept_bind, ingestAnswer]
  refine bind_congr fun record => bind_congr fun _ => bind_congr fun _ => ?_
  cases hreconstruction : reconstructInventory rt principal.tenantId principal.endpointId scanId
    (upload.get "inventory_sync")
    (repo.inventoryStates.get? (principal.tenantId, principal.endpointId)) now with
  | error e => rfl
  | ok reconstruction =>
    obtain ⟨mode, hmode⟩ := reconstructInventory_mode hreconstruction
    show (checkTasks _ _ _ _ >>= fun _ => _) = (checkTasks _ _ _ _ >>= fun _ => _)
    refine bind_congr fun _ => ?_
    simp only [Method.run_modify_bind, run_remember_bind, Method.run_ofExcept_bind, hmode]
    rfl

theorem checkTasks_error {scanId : String} {tasks : List AnalysisTask} {repo : InMemoryRepository}
    {e : RepositoryError} (h : checkTasks principal scanId tasks repo = .error e) :
    e.kind = .stateConflict := by
  induction tasks with
  | nil => cases h
  | cons task tasks ih =>
    change ((raiseIf _ _ _ >>= fun _ => raiseIf _ _ _) >>= fun _ =>
      checkTasks principal scanId tasks repo) = .error e at h
    unfold raiseIf Check.raiseIf at h
    split at h
    · cases h
      rfl
    · split at h
      · cases h
        rfl
      · exact ih h

/-- Two checks of the tasks are answered alike exactly when they say the same. -/
theorem reply_checkTasks {scanId : String} {tasks : List AnalysisTask} {record : ScanRecord}
    {answer : ScanRecord → Reply} (haccepted : (answer record).status = 202) :
    reply answer (checkTasks principal scanId tasks repo₁ >>= fun _ => .ok record) =
        reply answer (checkTasks principal scanId tasks repo₂ >>= fun _ => .ok record) ↔
      checkTasks principal scanId tasks repo₁ = checkTasks principal scanId tasks repo₂ := by
  have hconflict : ∀ {e : RepositoryError}, e.kind = .stateConflict →
      errorReply e = detailReply 409 e.message := fun {e} hkind => by simp only [errorReply, hkind]
  refine ⟨fun h => ?_, fun h => by rw [h]⟩
  cases h₁ : checkTasks principal scanId tasks repo₁ with
  | ok u =>
    cases h₂ : checkTasks principal scanId tasks repo₂ with
    | ok u' => rfl
    | error e =>
      rw [h₁, h₂] at h
      have hstatus := congrArg Reply.status h
      change (answer record).status = (errorReply e).status at hstatus
      rw [haccepted, hconflict (checkTasks_error h₂)] at hstatus
      cases hstatus
  | error e =>
    cases h₂ : checkTasks principal scanId tasks repo₂ with
    | ok u =>
      rw [h₁, h₂] at h
      have hstatus := congrArg Reply.status h
      change (errorReply e).status = (answer record).status at hstatus
      rw [haccepted, hconflict (checkTasks_error h₁)] at hstatus
      cases hstatus
    | error e' =>
      rw [h₁, h₂] at h
      change errorReply e = errorReply e' at h
      rw [hconflict (checkTasks_error h₁), hconflict (checkTasks_error h₂)] at h
      have hkind : e.kind = e'.kind := (checkTasks_error h₁).trans (checkTasks_error h₂).symm
      have hmessage : e.message = e'.message := by simpa [detailReply] using h
      cases e
      cases e'
      cases hkind
      cases hmessage
      rfl

/-! ## A terminal status -/

theorem recordScanStatus_eq (h : SameForTenant principal.tenantId repo₁ repo₂) (scanId : String)
    (status : JsonObject) (key digest : String) (now auditedAt : Timestamp) :
    ((recordScanStatus principal scanId status key digest now auditedAt).run repo₁).1 =
      ((recordScanStatus principal scanId status key digest now auditedAt).run repo₂).1 := by
  refine idempotent_eq h fun _ => ?_
  simp only [Method.result_reading_bind, Method.result_ofExcept_bind, ownedScan_eq h scanId]
  refine bind_congr fun record => bind_congr fun _ => ?_
  simp only [Method.run_modify_bind, run_remember_bind, Method.result_ofExcept_bind]
  exact bind_congr fun _ => rfl

/-! ## A rejection -/

theorem run_recordRejection_fst (payload : ScanRejectionUpload) (key digest : String)
    (now auditedAt : Timestamp) (repo : InMemoryRepository)
    (hfresh : repo.idempotency.get?
      ⟨principal.tenantId, rejectionOperation payload.documentSha256, key⟩ = none) :
    ((recordRejection principal payload key digest now auditedAt).run repo).1 =
      rejectedScan principal payload repo >>= fun _ => .ok () := by
  rw [recordRejection, run_idempotent_fst, hfresh]
  simp only [Method.result_reading_bind]
  exact bind_congr fun record => rfl

/-- A rejection of a named scan is refused exactly when the scan is not the endpoint's own. -/
theorem rejectedScan_foreign {payload : ScanRejectionUpload} {scanId : String}
    {repo : InMemoryRepository} (hnamed : payload.scanId = some scanId) (hne : scanId ≠ "")
    (h : Foreign principal.tenantId repo scanId) :
    rejectedScan principal payload repo =
      fail .ownership "rejected scan is not owned by endpoint" := by
  obtain ⟨record, hget, htenant⟩ := h
  simp only [rejectedScan, hnamed, if_neg hne, hget, raiseIf, Check.raiseIf,
    if_pos (Or.inl htenant : record.tenantId ≠ _ ∨ _)]
  rfl

theorem rejectedScan_unknown {payload : ScanRejectionUpload} {scanId : String}
    {repo : InMemoryRepository} (hnamed : payload.scanId = some scanId) (hne : scanId ≠ "")
    (h : repo.scans.get? scanId = none) : rejectedScan principal payload repo = .ok none := by
  simp only [rejectedScan, hnamed, if_neg hne, h]

/-! ## What the answers depend on -/

/-- What must agree about other tenants for the operation to be answered alike. -/
def EndpointOperation.Blind (rt : Runtime) (principal : DevicePrincipal)
    (repo₁ repo₂ : InMemoryRepository) : EndpointOperation → Prop
  | .nextScan .. => True
  | .submitScan scanId upload idempotencyKey _ tasks now _ =>
    PassesChecks rt principal scanId upload idempotencyKey now repo₁ →
      checkTasks principal scanId tasks repo₁ = checkTasks principal scanId tasks repo₂
  | .submitStatus .. => True
  | .submitRejection payload idempotencyKey .. =>
    repo₁.idempotency.get?
        ⟨principal.tenantId, rejectionOperation payload.documentSha256, idempotencyKey⟩ = none →
      ∀ scanId, payload.scanId = some scanId → scanId ≠ "" →
        (Foreign principal.tenantId repo₁ scanId ↔ Foreign principal.tenantId repo₂ scanId)
  | .getEndpointScan scanId =>
    Foreign principal.tenantId repo₁ scanId ↔ Foreign principal.tenantId repo₂ scanId

/-- Evidence is answered alike as long as the drawn task identifiers are. -/
theorem submitScan_eq_iff (h : SameForTenant principal.tenantId repo₁ repo₂) (scanId : String)
    (upload : JsonObject) (key digest : String) (tasks : List AnalysisTask)
    (now auditedAt : Timestamp) :
    (EndpointOperation.submitScan scanId upload key digest tasks now auditedAt).reply rt principal
          repo₁ =
        (EndpointOperation.submitScan scanId upload key digest tasks now auditedAt).reply rt
          principal repo₂ ↔
      (PassesChecks rt principal scanId upload key now repo₁ →
        checkTasks principal scanId tasks repo₁ = checkTasks principal scanId tasks repo₂) := by
  by_cases hfresh : repo₁.idempotency.get? ⟨principal.tenantId, ingestOperation scanId, key⟩ = none
  · have hfresh₂ := hfresh
    rw [h.recorded] at hfresh₂
    simp only [EndpointOperation.reply, run_ingestScan_fst _ _ _ digest tasks now auditedAt _ hfresh,
      run_ingestScan_fst _ _ _ digest tasks now auditedAt _ hfresh₂, ← ownedScan_eq h scanId,
      ← h.inventory principal.endpointId]
    rcases @ingestAnswer_cases rt principal scanId upload now
        (ownedScan principal scanId repo₁)
        (repo₁.inventoryStates.get? (principal.tenantId, principal.endpointId)) with
      ⟨record, reconstruction, howned, hfirst, hvalid, hreconstruction, hanswer⟩ | ⟨e, hrefused, hanswer⟩
    · have hpasses : PassesChecks rt principal scanId upload key now repo₁ :=
        ⟨hfresh, record, howned, hfirst, hvalid, reconstruction, hreconstruction⟩
      rw [hanswer, hanswer, reply_checkTasks rfl]
      exact ⟨fun heq _ => heq, fun himp => himp hpasses⟩
    · rw [hanswer, hanswer]
      refine ⟨fun _ hpasses => ?_, fun _ => rfl⟩
      obtain ⟨-, record, howned, hfirst, hvalid, reconstruction, hreconstruction⟩ := hpasses
      rw [hrefused record howned hfirst hvalid] at hreconstruction
      cases hreconstruction
  · refine ⟨fun _ hpasses => absurd hpasses.1 hfresh, fun _ => ?_⟩
    exact congrArg (reply _) (idempotent_eq h fun hnone => absurd hnone hfresh)

/-- A rejection tells the scan of another tenant from an unknown one. -/
theorem submitRejection_eq_iff (h : SameForTenant principal.tenantId repo₁ repo₂)
    (payload : ScanRejectionUpload) (key digest : String) (now auditedAt : Timestamp) :
    (EndpointOperation.submitRejection payload key digest now auditedAt).reply rt principal repo₁ =
        (EndpointOperation.submitRejection payload key digest now auditedAt).reply rt principal
          repo₂ ↔
      (repo₁.idempotency.get?
          ⟨principal.tenantId, rejectionOperation payload.documentSha256, key⟩ = none →
        ∀ scanId, payload.scanId = some scanId → scanId ≠ "" →
          (Foreign principal.tenantId repo₁ scanId ↔ Foreign principal.tenantId repo₂ scanId)) := by
  by_cases hfresh : repo₁.idempotency.get?
      ⟨principal.tenantId, rejectionOperation payload.documentSha256, key⟩ = none
  · have hfresh₂ := hfresh
    rw [h.recorded] at hfresh₂
    simp only [EndpointOperation.reply, run_recordRejection_fst payload key digest now auditedAt _
      hfresh, run_recordRejection_fst payload key digest now auditedAt _ hfresh₂]
    rw [forall_prop_of_true hfresh]
    cases hscan : payload.scanId with
    | none =>
      have hnone : ∀ repo, rejectedScan principal payload repo = .ok none := fun repo => by
        simp only [rejectedScan, hscan]
      rw [hnone, hnone]
      exact ⟨fun _ _ hnamed => absurd hnamed (by simp), fun _ => rfl⟩
    | some scanId =>
      by_cases hempty : scanId = ""
      · have hnone : ∀ repo, rejectedScan principal payload repo = .ok none := fun repo => by
          simp only [rejectedScan, hscan, if_pos hempty]
        rw [hnone, hnone]
        exact ⟨fun _ _ hnamed hne => absurd (Option.some.inj hnamed ▸ hempty) hne, fun _ => rfl⟩
      · have hcondition : (∀ scanId', some scanId = some scanId' → scanId' ≠ "" →
            (Foreign principal.tenantId repo₁ scanId' ↔ Foreign principal.tenantId repo₂ scanId')) ↔
            (Foreign principal.tenantId repo₁ scanId ↔
              Foreign principal.tenantId repo₂ scanId) :=
          ⟨fun hall => hall scanId rfl hempty, fun hiff _ hnamed _ => Option.some.inj hnamed ▸ hiff⟩
        rw [hcondition]
        rcases lookup_cases h scanId with ⟨record, htenant, h₁, h₂⟩ | ⟨h₁, h₂⟩
        · have hsame : rejectedScan principal payload repo₁ =
              rejectedScan principal payload repo₂ := by
            simp only [rejectedScan, hscan, h₁, h₂]
          rw [hsame]
          simp only [not_foreign_of_own htenant h₁, not_foreign_of_own htenant h₂]
        · rcases h₁ with h₁ | h₁ <;> rcases h₂ with h₂ | h₂
          · rw [rejectedScan_unknown hscan hempty h₁, rejectedScan_unknown hscan hempty h₂]
            simp only [not_foreign_of_none h₁, not_foreign_of_none h₂]
          · rw [rejectedScan_unknown hscan hempty h₁, rejectedScan_foreign hscan hempty h₂]
            simp only [not_foreign_of_none h₁, h₂, iff_true]
            decide
          · rw [rejectedScan_foreign hscan hempty h₁, rejectedScan_unknown hscan hempty h₂]
            simp only [not_foreign_of_none h₂, h₁, iff_false]
            decide
          · rw [rejectedScan_foreign hscan hempty h₁, rejectedScan_foreign hscan hempty h₂]
            simp only [h₁, h₂]
  · refine ⟨fun _ hnone => absurd hnone hfresh, fun _ => ?_⟩
    exact congrArg (reply _) (idempotent_eq h fun hnone => absurd hnone hfresh)

/-- A read tells the scan of another tenant from an unknown one. -/
theorem getEndpointScan_eq_iff (h : SameForTenant principal.tenantId repo₁ repo₂)
    (scanId : String) :
    (EndpointOperation.getEndpointScan scanId).reply rt principal repo₁ =
        (EndpointOperation.getEndpointScan scanId).reply rt principal repo₂ ↔
      (Foreign principal.tenantId repo₁ scanId ↔ Foreign principal.tenantId repo₂ scanId) := by
  have hunknown : ∀ {repo : InMemoryRepository}, repo.scans.get? scanId = none →
      (EndpointOperation.getEndpointScan scanId).reply rt principal repo =
        detailReply 404 "scan was not found" := by
    intro repo hnone
    simp only [EndpointOperation.reply, getScanForEndpoint, Method.run_reading, hnone, reply]
  have hforeign : ∀ {repo : InMemoryRepository}, Foreign principal.tenantId repo scanId →
      (EndpointOperation.getEndpointScan scanId).reply rt principal repo =
        detailReply 404 "resource was not found" := by
    rintro repo ⟨record, hget, htenant⟩
    simp only [EndpointOperation.reply, getScanForEndpoint, Method.run_reading, hget, raiseIf,
      Check.raiseIf, if_pos (Or.inl htenant : record.tenantId ≠ _ ∨ _)]
    rfl
  have hdiffer : detailReply 404 "scan was not found" ≠
      detailReply 404 "resource was not found" := by decide
  rcases lookup_cases h scanId with ⟨record, htenant, h₁, h₂⟩ | ⟨h₁, h₂⟩
  · simp only [EndpointOperation.reply, getScanForEndpoint, Method.run_reading, h₁, h₂,
      not_foreign_of_own htenant h₁, not_foreign_of_own htenant h₂]
  · rcases h₁ with h₁ | h₁ <;> rcases h₂ with h₂ | h₂
    · rw [hunknown h₁, hunknown h₂]
      simp only [not_foreign_of_none h₁, not_foreign_of_none h₂]
    · rw [hunknown h₁, hforeign h₂]
      simp only [not_foreign_of_none h₁, h₂, iff_true, hdiffer]
    · rw [hforeign h₁, hunknown h₂]
      simp only [not_foreign_of_none h₂, h₁, iff_false, hdiffer.symm, not_true_eq_false]
    · rw [hforeign h₁, hforeign h₂]
      simp only [h₁, h₂]

/--
Two states that differ in the data of other tenants only answer an operation of an endpoint
alike exactly when they agree on whether the scan that it names, if the operation goes by the
name, is somebody else's.
-/
theorem reply_eq_iff (h : SameForTenant principal.tenantId repo₁ repo₂)
    (operation : EndpointOperation) :
    operation.reply rt principal repo₁ = operation.reply rt principal repo₂ ↔
      operation.Blind rt principal repo₁ repo₂ := by
  cases operation with
  | nextScan now auditedAt =>
    exact iff_of_true (congrArg (reply _) (claimNextJob_eq h now auditedAt)) trivial
  | submitScan scanId upload key digest tasks now auditedAt =>
    exact submitScan_eq_iff h scanId upload key digest tasks now auditedAt
  | submitStatus scanId status key digest now auditedAt =>
    exact iff_of_true
      (congrArg (reply _) (recordScanStatus_eq h scanId status key digest now auditedAt)) trivial
  | submitRejection payload key digest now auditedAt =>
    exact submitRejection_eq_iff h payload key digest now auditedAt
  | getEndpointScan scanId => exact getEndpointScan_eq_iff h scanId

end Operations

/-! ## A scan of another tenant -/

/-- An endpoint of another tenant than the one whose scan was dispatched. -/
def outsider : DevicePrincipal := ⟨"outsider", "endpoint-9", "credential-9", 1⟩

def outsideRejection : EndpointOperation :=
  .submitRejection
    { endpointId := "endpoint-9", scanId := some "scan-1", reason := .invalidOrUnauthorizedJob
      documentSha256 := "document" } "key-9" "digest-9" (seconds 1700000120) (seconds 1700000120)

theorem sameForTenant_dispatchedRun :
    SameForTenant outsider.tenantId {} (runFrom (Call.step Runtime.sample) {} dispatchedRun) := by
  refine ⟨?_, ?_, ?_, ?_, ?_⟩ <;> decide +kernel

/-- A rejection of `scan-1` by the outsider, without that scan and with it. -/
theorem reply_differs_foreignScan :
    SameForTenant outsider.tenantId {} (runFrom (Call.step Runtime.sample) {} dispatchedRun) ∧
      outsideRejection.reply Runtime.sample outsider {} =
        ⟨202, some (.obj [("status", .str "accepted")])⟩ ∧
      outsideRejection.reply Runtime.sample outsider
          (runFrom (Call.step Runtime.sample) {} dispatchedRun) =
        detailReply 404 "resource was not found" := by
  refine ⟨sameForTenant_dispatchedRun, ?_, ?_⟩ <;> decide +kernel

/-- A read of a scan that neither of the two states knows. -/
theorem reply_same_unknownScan :
    (EndpointOperation.getEndpointScan "scan-2").reply Runtime.sample outsider {} =
      (EndpointOperation.getEndpointScan "scan-2").reply Runtime.sample outsider
        (runFrom (Call.step Runtime.sample) {} dispatchedRun) := by
  refine (reply_eq_iff sameForTenant_dispatchedRun _).mpr ?_
  have hunknown : (runFrom (Call.step Runtime.sample) {} dispatchedRun).scans.get? "scan-2" =
      none := by decide +kernel
  exact iff_of_false (not_foreign_of_none rfl) (not_foreign_of_none hunknown)

end OsScanner.Cloud

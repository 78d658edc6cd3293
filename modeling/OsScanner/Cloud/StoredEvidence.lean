import Mathlib
import OsScanner.Cloud.Calls
import OsScanner.Cloud.ScanUpload
import OsScanner.Cloud.AnalysisWorker

/-!
# The evidence that is stored

Of all methods only `ingest_scan` writes the evidence of a scan. It stores the upload with the
snapshot that the cloud has reconstructed put into `inventory_sync`, so the document that the
analysis reads is larger than the one that the bounds of `ScanUpload` were checked on.
-/

namespace OsScanner.Cloud

open Lib

variable {rt : Runtime}

/-- `inventory_sync` of an upload, as it is stored. -/
def ScanUpload.storedSync (upload : ScanUpload rt) (snapshot : JsonObject) : JsonObject :=
  upload.inventorySync.set "reconstructed_snapshot" (.obj snapshot)

/-- The document that `ingest_scan` stores for an upload. -/
def ScanUpload.stored (upload : ScanUpload rt) (snapshot : JsonObject) : JsonObject :=
  upload.dump.set "inventory_sync" (.obj (upload.storedSync snapshot))

/-- `submit_scan` hands an ingest the dump of the upload that it has read. -/
def Call.carriesUpload (rt : Runtime) : Call → Prop
  | .scan (.ingestScan _ _ upload _ _ _ _ _ _ _) => ∃ u : ScanUpload rt, upload = u.dump
  | _ => True

/-- The stored evidence of every scan is some upload with its reconstructed snapshot. -/
def EvidenceStored (rt : Runtime) (scans : Dict String ScanRecord) : Prop :=
  ∀ scanId record stored, scans.get? scanId = some record → record.upload = some stored →
    ∃ (upload : ScanUpload rt) (snapshot : JsonObject), stored = upload.stored snapshot

theorem ScanUpload.get_dump (upload : ScanUpload rt) :
    upload.dump.get "inventory_sync" = .obj upload.inventorySync := rfl

/-! ## Every call keeps it -/

theorem EvidenceStored.set {scans : Dict String ScanRecord} {scanId : String}
    {record : ScanRecord} (hstored : EvidenceStored rt scans)
    (h : ∀ stored, record.upload = some stored →
      ∃ (upload : ScanUpload rt) (snapshot : JsonObject), stored = upload.stored snapshot) :
    EvidenceStored rt (scans.set scanId record) := by
  intro scanId' record' stored hrecord' hupload
  rw [Dict.get?_set] at hrecord'
  split at hrecord'
  · obtain rfl := Option.some.inj hrecord'
    exact h stored hupload
  · exact hstored _ _ _ hrecord' hupload

theorem pollRecord_upload {principal : DevicePrincipal} {now : Timestamp}
    {repo : InMemoryRepository} (record : ScanRecord) :
    (pollRecord rt principal now repo record).upload = record.upload := by
  unfold pollRecord
  split
  · rfl
  · split <;> rfl

/-- What an ingest stores is the upload with the snapshot of its own reconstruction. -/
theorem IngestSource.stored {principal : DevicePrincipal} {scanId : String}
    {upload : ScanUpload rt} {tasks : List AnalysisTask} {now : Timestamp}
    {repo : InMemoryRepository} {record : ScanRecord} {reconstruction : InventoryReconstruction}
    (source : IngestSource rt principal scanId upload.dump tasks now repo record reconstruction) :
    ∃ snapshot, upload.dump.set "inventory_sync" (.obj reconstruction.inventorySync) =
      upload.stored snapshot := by
  obtain ⟨sync, _, _, _, snapshot, hsync, -, -, -, -, -, hr⟩ :=
    reconstructInventory_eq_ok.mp source.reconstructed
  rw [upload.get_dump, Json.obj.injEq] at hsync
  subst hsync
  exact ⟨snapshot, by rw [hr]; rfl⟩

theorem EvidenceStored.step {repo : InMemoryRepository} {call : Call}
    (hkeys : ScanKeys repo.scans) (hcarries : call.carriesUpload rt)
    (hstored : EvidenceStored rt repo.scans) : EvidenceStored rt (call.step rt repo).scans := by
  cases call with
  | identity call =>
    have hframe : (call.step rt repo).scans = repo.scans := by
      cases call with
      | createEnrollmentGrant =>
        rcases createEnrollmentGrant_effect (Prod.mk.eta).symm with
          ⟨h, -⟩ | ⟨-, -, -, _, h⟩ <;> rw [IdentityCall.step, h]
      | enrollEndpoint =>
        rcases enrollEndpoint_effect (Prod.mk.eta).symm with
          ⟨h, -⟩ | ⟨_, -, -, -, -, -, _, h⟩ <;> rw [IdentityCall.step, h]
      | rotateCredential =>
        rcases rotateCredential_effect (Prod.mk.eta).symm with
          ⟨h, -⟩ | ⟨_, _, _, -, -, -, _, h⟩ <;> rw [IdentityCall.step, h]
    rw [Call.step, hframe]
    exact hstored
  | scan call =>
    cases call with
    | createScanJob =>
      rcases createScanJob_effect (Prod.mk.eta).symm with
        ⟨h, -⟩ | ⟨-, -, -, -, _, h⟩ <;> rw [Call.step, ScanCall.step, h]
      · exact hstored
      · -- a new record has no evidence
        exact hstored.set fun _ hupload => by cases hupload
    | claimNextJob principal now =>
      obtain ⟨⟨_, h⟩, -⟩ := claimNextJob_effect (Prod.mk.eta).symm
      rw [Call.step, ScanCall.step, h]
      intro k record stored hk hupload
      simp only [get?_polledScans hkeys] at hk
      obtain ⟨record₀, hk₀, rfl⟩ := Option.map_eq_some_iff.mp hk
      rw [pollRecord_upload] at hupload
      exact hstored _ _ _ hk₀ hupload
    | ingestScan =>
      obtain ⟨upload, rfl⟩ := hcarries
      rcases ingestScan_effect (Prod.mk.eta).symm with
        ⟨h, -⟩ | ⟨_, _, -, source, -, _, h⟩ <;> rw [Call.step, ScanCall.step, h]
      · exact hstored
      · refine hstored.set ?_
        rintro stored hupload
        obtain ⟨snapshot, hsnapshot⟩ := source.stored
        exact ⟨upload, snapshot, (Option.some.inj hupload).symm.trans hsnapshot⟩
    | recordScanStatus =>
      rcases recordScanStatus_effect (Prod.mk.eta).symm with
        ⟨h, -⟩ | ⟨_, -, ⟨hfound, -⟩, -, -, _, h⟩ <;> rw [Call.step, ScanCall.step, h]
      · exact hstored
      · exact hstored.set fun stored hupload => hstored _ _ stored hfound hupload
    | recordRejection =>
      rcases recordRejection_effect (Prod.mk.eta).symm with
        ⟨h, -⟩ | ⟨_ | _, -, hrecord, -, _, h⟩ <;> rw [Call.step, ScanCall.step, h]
      · exact hstored
      · exact hstored
      · have hfound := (rejectedScan_eq_some hrecord).1
        exact hstored.set fun stored hupload => hstored _ _ stored hfound hupload
    | claimAnalysisTask =>
      rcases claimAnalysisTask_effect (Prod.mk.eta).symm with
        ⟨h, -⟩ | ⟨_, _, -, -, -, -, h⟩ <;> rw [Call.step, ScanCall.step, h] <;> exact hstored
    | completeAnalysisTask =>
      rcases completeAnalysisTask_effect (Prod.mk.eta).symm with
        ⟨h, -⟩ | ⟨_, -, -, h⟩ <;> rw [Call.step, ScanCall.step, h] <;> exact hstored
    | failAnalysisTask =>
      rcases failAnalysisTask_effect (Prod.mk.eta).symm with
        ⟨h, -⟩ | ⟨_, -, -, h⟩ <;> rw [Call.step, ScanCall.step, h] <;> exact hstored
    | finalizeScanReport =>
      rcases finalizeScanReport_effect (Prod.mk.eta).symm with
        h | ⟨_, hfound, -, -, -, _, h⟩ <;> rw [Call.step, ScanCall.step, h]
      · exact hstored
      · exact hstored.set fun stored hupload => hstored _ _ stored hfound hupload
    | finalizeScanReportFailure =>
      rcases finalizeScanReportFailure_effect (Prod.mk.eta).symm with
        h | ⟨_, hfound, -, -, _, h⟩ <;> rw [Call.step, ScanCall.step, h]
      · exact hstored
      · exact hstored.set fun stored hupload => hstored _ _ stored hfound hupload

/-- In every run of requests the evidence of a scan is an accepted upload with a snapshot. -/
theorem evidenceStored_run {calls : List Call}
    (hcarries : ∀ call ∈ calls, call.carriesUpload rt) :
    EvidenceStored rt (runFrom (Call.step rt) {} calls).scans := by
  have hboth : ∀ (calls : List Call) (repo : InMemoryRepository),
      (∀ call ∈ calls, call.carriesUpload rt) → ScanKeys repo.scans →
      EvidenceStored rt repo.scans →
      EvidenceStored rt (runFrom (Call.step rt) repo calls).scans := by
    intro calls
    induction calls with
    | nil => exact fun _ _ _ h => h
    | cons call calls ih =>
      intro repo hcarries hkeys hstored
      rw [List.forall_mem_cons] at hcarries
      exact ih _ hcarries.2 (hkeys.step call) (hstored.step hkeys hcarries.1)
  exact hboth calls {} hcarries (fun _ _ h => by cases h) (fun _ _ _ h => by cases h)

/-! ## What the analysis reads -/

/-- The repository answers the analysis with the stored upload of a scan. -/
theorem getScanAnalysisInput_eq_some {scanId : String} {repo : InMemoryRepository}
    {input : ScanAnalysisInput} : getScanAnalysisInput scanId repo = some input ↔
      ∃ record upload, repo.scans.get? scanId = some record ∧ record.upload = some upload ∧
        input = ⟨record.tenantId, record.endpointId, scanId, upload⟩ := by
  unfold getScanAnalysisInput
  cases repo.scans.get? scanId with
  | none => simp
  | some record =>
    cases hupload : record.upload with
    | none => simp [hupload]
    | some upload => simp [hupload, eq_comm]

end OsScanner.Cloud

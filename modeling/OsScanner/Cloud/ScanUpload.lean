import Mathlib
import OsScanner.Cloud.Api
import OsScanner.Cloud.Bounds

/-!
# The upload of a scan

`ScanUpload` of `cloud_service/models.py`. A document that does not meet the bounds is never
built: the request is answered with 422. The checksum of an SBOM is filled in by the model.
-/

namespace OsScanner.Cloud

open Lib

/-- `bounded_json(value, max_depth=32, max_nodes=500_000)` -/
def isBoundedDocument (document : JsonObject) : Prop :=
  boundedJson 32 500000 (.obj document) = .ok ()

instance (document : JsonObject) : Decidable (isBoundedDocument document) := by
  unfold isBoundedDocument
  infer_instance

/-- `verify_sbom`: there is a checksum exactly when there is an SBOM, and it is the SBOM's. -/
def sbomChecked (rt : Runtime) (sbom : Option JsonObject) (sbomSha256 : Option String) : Prop :=
  sbomSha256 = sbom.map fun document => Json.canonicalSha256 rt (.obj document)

structure ScanUpload (rt : Runtime) where
  result : JsonObject
  inventorySync : JsonObject
  sbom : Option JsonObject
  sbomSha256 : Option String
  result_bounded : isBoundedDocument result
  inventorySync_bounded : isBoundedDocument inventorySync
  sbom_bounded : ∀ document, sbom = some document → isBoundedDocument document
  sbom_checked : sbomChecked rt sbom sbomSha256

/-- Reading the body of an upload; a checksum may be left out, but not be wrong. -/
def ScanUpload.parse (rt : Runtime) (result inventorySync : JsonObject) (sbom : Option JsonObject)
    (sbomSha256 : Option String) : Except HttpError (ScanUpload rt) :=
  if h : isBoundedDocument result ∧ isBoundedDocument inventorySync ∧
      ∀ document ∈ sbom, isBoundedDocument document then
    if ∃ checksum ∈ sbomSha256,
        some checksum ≠ sbom.map fun document => Json.canonicalSha256 rt (.obj document) then
      .error ⟨422, "request body is invalid"⟩
    else .ok {
      result := result
      inventorySync := inventorySync
      sbom := sbom
      sbomSha256 := sbom.map fun document => Json.canonicalSha256 rt (.obj document)
      result_bounded := h.1
      inventorySync_bounded := h.2.1
      sbom_bounded := h.2.2
      sbom_checked := rfl }
  else .error ⟨422, "request body is invalid"⟩

/-- `body.model_dump(mode="json", exclude_none=True)` -/
def ScanUpload.dump {rt : Runtime} (upload : ScanUpload rt) : JsonObject :=
  [("evidence_envelope_version", .str "1.0"), ("result", .obj upload.result),
    ("inventory_sync", .obj upload.inventorySync)] ++
    (match upload.sbom with
      | some document => [("sbom", .obj document)]
      | none => []) ++
    (match upload.sbomSha256 with
      | some checksum => [("sbom_sha256", .str checksum)]
      | none => [])

theorem isBoundedDocument_iff {document : JsonObject} :
    isBoundedDocument document ↔ nodes (.obj document) ≤ 500000 ∧ Fits 32 (.obj document) :=
  boundedJson_eq_ok

end OsScanner.Cloud

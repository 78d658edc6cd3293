import Mathlib
import OsScanner.Endpoint.JobSource

/-!
# Each rejected body is reported once

A rejection upload stays in the outbox until it is delivered and purged, its audit event for
good, and the process remembers the last bodies it has rejected. As long as one of the two
short-lived memories knows a body that the audit log knows, the next poll that returns it has
nothing to store.
-/

namespace OsScanner.Endpoint

open Lib Check Storage
open Cloud (RejectionReason ScanRejectionUpload isIdentifier)

/-! ## The cloud's model of a rejection -/

/-- An optional identifier of a document. -/
def optionalIdentifier : Json → Option (Option String)
  | .null => some none
  | .str text => if isIdentifier text then some (some text) else none
  | _ => none

/-- The literals of `reason`. -/
def rejectionReason : Json → Option RejectionReason
  | .str text =>
    if text = RejectionReason.invalidJson.text then some .invalidJson
    else if text = RejectionReason.invalidOrUnauthorizedJob.text then some .invalidOrUnauthorizedJob
    else none
  | _ => none

/-- `ScanRejectionUpload.model_validate(document)`, absent where it raises. -/
def validateRejection (document : JsonObject) : Option ScanRejectionUpload :=
  match document.get "endpoint_id", optionalIdentifier (document.get "scan_id"),
      rejectionReason (document.get "reason"), document.get "document_sha256" with
  | .str endpointId, some scanId, some reason, .str documentSha256 =>
    if isIdentifier endpointId = true ∧ isHexDigest documentSha256 = true ∧
        (∀ e ∈ document, e.1 ∈ ["endpoint_id", "scan_id", "reason", "document_sha256"]) then
      some ⟨endpointId, scanId, reason, documentSha256⟩
    else none
  | _, _, _, _ => none

/-! ## What does not change in a row -/

/-- The columns of an upload that a second one with its key is compared with, and its payload. -/
structure UploadContent where
  kind : String
  method : String
  endpoint : String
  payload : Payload
  payloadHash : String
  contentType : String
  idempotencyKey : String

def contentOf (row : UploadRow) : UploadContent :=
  ⟨row.kind, row.method, row.endpoint, row.payload, row.payloadHash, row.contentType,
    row.idempotencyKey⟩

/-- Every row was there before with the same content. -/
def Descends (t t' : Table UploadRow) : Prop :=
  ∀ id row', t'.get? id = some row' → ∃ row, t.get? id = some row ∧ contentOf row' = contentOf row

/-- The calls that deliver uploads and delete delivered ones. -/
def isHandling : QueueCall → Bool
  | .claim .. | .succeeded .. | .failed .. | .purge .. => true
  | _ => false

section

variable {rt : Runtime} {t t' t'' : Table UploadRow} {db : Database}

theorem Descends.refl (t : Table UploadRow) : Descends t t := fun _ row h => ⟨row, h, rfl⟩

theorem Descends.trans (h : Descends t t') (h' : Descends t' t'') : Descends t t'' := by
  intro id row'' hrow''
  obtain ⟨row', hrow', hsame'⟩ := h' id row'' hrow''
  obtain ⟨row, hrow, hsame⟩ := h id row' hrow'
  exact ⟨row, hrow, hsame'.trans hsame⟩

theorem descends_update {f : Nat → UploadRow → UploadRow}
    (hf : ∀ id row, contentOf (f id row) = contentOf row) : Descends t (t.update f) := by
  intro id row' hrow'
  rw [Table.get?_update] at hrow'
  obtain ⟨row, hrow, rfl⟩ := Option.map_eq_some_iff.mp hrow'
  exact ⟨row, hrow, hf id row⟩

theorem descends_modify {f : UploadRow → UploadRow} (hf : ∀ row, contentOf (f row) = contentOf row)
    (id : Nat) : Descends t (t.modify id f) := by
  refine descends_update fun id' row => ?_
  split
  · exact hf row
  · rfl

theorem contentOf_relinked {row row' : UploadRow} (h : Relinked row row') :
    contentOf row' = contentOf row := by
  obtain ⟨group, predecessor, rfl⟩ := h
  rfl

theorem descends_backfill (rt : Runtime) (db : Database) :
    Descends db.uploads (backfillCausalLinks rt db).uploads := by
  obtain ⟨-, f, hget, hrelinked⟩ := relinks_backfillCausalLinks rt db
  intro id row' hrow'
  rw [hget] at hrow'
  obtain ⟨row, hrow, rfl⟩ := Option.map_eq_some_iff.mp hrow'
  exact ⟨row, hrow, contentOf_relinked (hrelinked id row)⟩

theorem contentOf_expireLease (current : ℚ) (row : UploadRow) :
    contentOf (expireLease current row) = contentOf row := by
  unfold expireLease
  split
  · split <;> rfl
  · rfl

theorem descends_deleteUploads (deleted : List Nat) : Descends t (deleteUploads deleted t) := by
  intro id row' hrow'
  obtain ⟨-, row, hrow, rfl⟩ := get?_deleteUploads.mp hrow'
  exact ⟨row, hrow, rfl⟩

/-- Delivering and purging leave the audit log and the contents of the uploads alone. -/
theorem descends_handling {call : QueueCall} (hcall : isHandling call = true) :
    Descends db.uploads (call.perform rt db).uploads ∧
      (call.perform rt db).auditLog = db.auditLog := by
  have hcommitted : ∀ {α : Type} (r : Except StorageError (α × Database)),
      (∀ result db', r = .ok (result, db') →
        Descends db.uploads db'.uploads ∧ db'.auditLog = db.auditLog) →
      Descends db.uploads (committed db r).uploads ∧ (committed db r).auditLog = db.auditLog := by
    intro α r hr
    cases r with
    | error e => exact ⟨.refl _, rfl⟩
    | ok v => exact hr v.1 v.2 rfl
  cases call with
  | claim limit leaseSeconds current leaseToken =>
    refine hcommitted _ fun leases db' h => ?_
    unfold claimUploads at h
    simp only [bind_unit_eq_ok, Except.ok.injEq, Prod.mk.injEq] at h
    obtain ⟨-, -, -, rfl⟩ := h
    refine ⟨(descends_backfill rt db).trans (Descends.trans
      (descends_update fun _ row => contentOf_expireLease current row)
      (descends_update fun id row => ?_)), rfl⟩
    split <;> rfl
  | succeeded uploadId leaseToken deliveredAt =>
    refine hcommitted _ fun done db' h => ?_
    unfold markUploadSucceeded at h
    simp only [bind_eq_ok] at h
    obtain ⟨_, -, h⟩ := h
    split at h
    · simp only [Except.ok.injEq, Prod.mk.injEq] at h
      rw [← h.2]
      exact ⟨.refl _, rfl⟩
    · simp only [Except.ok.injEq, Prod.mk.injEq] at h
      obtain ⟨-, rfl⟩ := h
      refine ⟨descends_modify ?_ uploadId, rfl⟩
      exact fun _ => rfl
  | failed uploadId leaseToken failure current =>
    refine hcommitted _ fun status db' h => ?_
    unfold markUploadFailed at h
    simp only [bind_eq_ok] at h
    obtain ⟨_, -, h⟩ := h
    split at h
    · cases h
    · simp only [bind_eq_ok, Except.ok.injEq, Prod.mk.injEq] at h
      obtain ⟨nextAttemptAt, -, rfl, rfl⟩ := h
      refine ⟨descends_modify ?_ uploadId, rfl⟩
      exact fun _ => rfl
  | purge olderThan limit =>
    refine hcommitted _ fun count db' h => ?_
    obtain ⟨deleted, -, rfl⟩ := purgeSucceededUploads_eq_ok h
    exact ⟨descends_deleteUploads deleted, rfl⟩
  | _ => cases hcall

end

/-! ## Rejections -/

namespace CloudJobSource

section

variable (rt : Runtime) (source : CloudJobSource)

/-- The reason and the scan under which a body is rejected, whenever it is. -/
def rejectionOf (body : List UInt8) : RejectionReason × Option String :=
  match source.decoder.json body with
  | .value document => (.invalidOrUnauthorizedJob, source.safeScanId document)
  | _ => (.invalidJson, none)

/-- The upload that reports a body. -/
def reportContent (body : List UInt8) : UploadContent :=
  let request := source.rejectionRequest rt body (source.rejectionOf body).1
    (source.rejectionOf body).2
  ⟨request.kind, request.method, request.endpoint, request.payload, request.payload.hash rt,
    request.contentType, request.idempotencyKey⟩

def reportEvent (body : List UInt8) (createdAt : String) : AuditEvent :=
  source.rejectionEvent rt body (source.rejectionOf body).1 (source.rejectionOf body).2 createdAt

/-- The storage and the memory of the process, with the bodies rejected so far. -/
structure History where
  state : State
  rejected : List (List UInt8)

inductive Action where
  | poll (poll : Poll)
  | restart
  | queue (call : QueueCall)

/-- The state after an action; a poll that raises has written nothing. -/
def step (h : History) : Action → History
  | .poll poll =>
    { state := match source.fetch rt poll h.state with
        | .ok (_, state) => state
        | .error _ => h.state
      rejected := match source.verdict poll with
        | .rejected _ _ => poll.body :: h.rejected
        | _ => h.rejected }
  | .restart => { h with state := { h.state with rejectedFingerprints := [] } }
  | .queue call => { h with state := { h.state with db := call.perform rt h.state.db } }

/-- The audit events with the identifier of the body's rejection. -/
def eventsOf (db : Database) (body : List UInt8) : List AuditRow :=
  db.auditLog.filter fun row => decide (row.eventId = rejectionEventId rt body)

/-- The hash that `record_audit_event` gives to a new event. -/
def nextEventHash (db : Database) (event : AuditEvent) : String :=
  Json.canonicalSha256 rt (.obj
    (("previous_hash", Json.ofOption (db.auditLog.getLast?.map (·.eventHash))) ::
      event.content rt event.eventId event.eventType event.outcome))

/-- What the program relies on: `uuid4` gives an identifier, and SHA-256 does not collide here. -/
structure Sane (h : History) (poll : Poll) : Prop where
  requestId : ∃ requestId, cleanIdentifier (.str poll.uuid) "request_id" = .ok requestId
  apart : ∀ body ∈ h.rejected, body ≠ poll.body → rejectionEventId rt body ≠ rejectionEventId rt poll.body
  eventHash : ∀ row ∈ h.state.db.auditLog,
    row.eventHash ≠ nextEventHash rt h.state.db (source.reportEvent rt poll.body poll.createdAt)

/--
The poll can be handled: decoding raises nothing that is not caught, the scan that a rejection
names is written in ASCII, and a body that neither the process nor the outbox knows has never been
recorded in the audit log.
-/
structure Manageable (h : History) (poll : Poll) : Prop where
  decodes : source.verdict poll ≠ .raised
  ascii : ∀ reason scanId, source.verdict poll = .rejected reason (some scanId) →
    ∀ c ∈ scanId.toList, c.toNat < 128
  known : ∀ reason scanId, source.verdict poll = .rejected reason scanId →
    fingerprint rt poll.body ∉ h.state.rejectedFingerprints →
    uploadWithKey h.state.db (rejectionKey rt poll.body) = none →
      eventsOf rt h.state.db poll.body = []

/-- The condition on an action, in the state in which it is taken. -/
def Admits (h : History) : Action → Prop
  | .poll poll => Sane rt source h poll ∧ Manageable rt source h poll
  | .restart => True
  | .queue call => isHandling call = true

/-- Nothing has been reported yet. -/
structure Unreported (db : Database) : Prop where
  sound : SoundOutbox db.uploads
  uploads : ∀ id row, db.uploads.get? id = some row →
    row.kind ≠ "scan_rejection" ∧ ∀ body, row.idempotencyKey ≠ rejectionKey rt body
  events : ∀ row ∈ db.auditLog, ∀ body, row.eventId ≠ rejectionEventId rt body

/-- Every rejected body has one event and at most one upload, which the cloud can read. -/
structure Reported (h : History) : Prop where
  oneUpload : ∀ body id id' row row', h.state.db.uploads.get? id = some row →
    h.state.db.uploads.get? id' = some row' → row.idempotencyKey = rejectionKey rt body →
      row'.idempotencyKey = rejectionKey rt body → id = id'
  uploads : ∀ id row, h.state.db.uploads.get? id = some row → row.kind = "scan_rejection" →
    ∃ body ∈ h.rejected, row.idempotencyKey = rejectionKey rt body ∧
      ∃ document upload, row.payload.parse = some (.obj document) ∧
        validateRejection document = some upload
  oneEvent : ∀ body ∈ h.rejected, ∃ row, eventsOf rt h.state.db body = [row] ∧
    row.content.get "event_type" = .str "SCAN_JOB_REJECTED"

/-- The source can be set up: its identity is one that the cloud issues, its path is absolute. -/
structure Valid : Prop where
  endpointId : isIdentifier source.endpointId = true
  path : cleanIdentifier (.str source.scanRejectionsPath) "endpoint" 2048 =
    .ok source.scanRejectionsPath
  absolute : absolutePath source.scanRejectionsPath = true

end

/-! ## One poll -/

section

variable {rt : Runtime} {source : CloudJobSource}

/-- A rejection depends on the body only. -/
theorem verdict_rejected {poll : Poll} {reason : RejectionReason} {scanId : Option String}
    (h : source.verdict poll = .rejected reason scanId) :
    source.rejectionOf poll.body = (reason, scanId) := by
  unfold verdict at h
  unfold rejectionOf
  split at h
  · cases h
  · split at h
    · cases h
    · rename_i hjson
      cases h
      rw [hjson]
    · rename_i document hjson
      rw [hjson]
      split at h
      · cases h
      · cases h
        rfl
      · split at h
        · cases h
          rfl
        · cases h

/-! ## Identifiers -/

theorem cleanIdentifier_plain {text field : String} {maxLength : Nat} (hne : text ≠ "")
    (hlength : text.length ≤ maxLength) (hchars : ∀ c ∈ text.toList, 33 ≤ c.toNat ∧ c.toNat < 127) :
    cleanIdentifier (.str text) field maxLength = .ok text := by
  have hspace : ∀ c ∈ text.toList, isSpace c = false := by
    intro c hc
    have hc := hchars c hc
    rw [isSpace, decide_eq_false_iff_not]
    omega
  have hcontrol : text.toList.any isControl = false := by
    rw [List.any_eq_false]
    intro c hc
    have hc := hchars c hc
    rw [isControl, decide_eq_true_eq]
    omega
  refine cleanIdentifier_eq_ok.mpr ⟨text, rfl, ?_⟩
  rw [strip_of_no_space hspace]
  exact ⟨rfl, hne, hlength, hcontrol⟩

theorem fingerprint_chars (body : List UInt8) : (fingerprint rt body).toList.length = 64 ∧
    ∀ c ∈ (fingerprint rt body).toList, 33 ≤ c.toNat ∧ c.toNat < 127 := by
  have hdigest : isHexDigest (fingerprint rt body) = true := rt.sha256_digest body
  rw [isHexDigest, Bool.and_eq_true, decide_eq_true_eq, List.all_eq_true] at hdigest
  refine ⟨hdigest.1, fun c hc => ?_⟩
  have hchar := hdigest.2 c hc
  rw [Bool.or_eq_true, decide_eq_true_eq, decide_eq_true_eq] at hchar
  have hrange : (48 ≤ c.toNat ∧ c.toNat ≤ 57) ∨ (97 ≤ c.toNat ∧ c.toNat ≤ 102) := hchar
  omega

/-- A word in front of a part of a fingerprint. -/
theorem cleanIdentifier_tagged {tag field : String} {part : List Char} {maxLength : Nat}
    (htag : ∀ c ∈ tag.toList, 33 ≤ c.toNat ∧ c.toNat < 127) (hne : tag ≠ "")
    (hpart : ∀ c ∈ part, 33 ≤ c.toNat ∧ c.toNat < 127)
    (hlength : tag.toList.length + part.length ≤ maxLength) :
    cleanIdentifier (.str (tag ++ String.ofList part)) field maxLength =
      .ok (tag ++ String.ofList part) := by
  have htext : (tag ++ String.ofList part).toList = tag.toList ++ part := by
    rw [String.toList_append, String.toList_ofList]
  refine cleanIdentifier_plain ?_ ?_ ?_
  · intro hempty
    have hnil := congrArg String.toList hempty
    rw [htext] at hnil
    have htagNil := (List.append_eq_nil_iff.mp hnil).1
    exact hne (String.toList_inj.mp htagNil)
  · rw [← String.length_toList, htext, List.length_append]
    exact hlength
  · intro c hc
    rw [htext, List.mem_append] at hc
    exact hc.elim (htag c) (hpart c)

theorem cleanIdentifier_rejectionKey (body : List UInt8) (field : String) :
    cleanIdentifier (.str (rejectionKey rt body)) field = .ok (rejectionKey rt body) := by
  obtain ⟨hlength, hchars⟩ := @fingerprint_chars rt body
  have htag : "job-rejection:".toList.length = 14 := by simp
  have htagged := @cleanIdentifier_tagged "job-rejection:" field (fingerprint rt body).toList 256
    (by simp) (by simp) hchars (by omega)
  rw [String.ofList_toList] at htagged
  unfold rejectionKey
  exact htagged

theorem cleanIdentifier_rejectionEventId (body : List UInt8) (field : String) :
    cleanIdentifier (.str (rejectionEventId rt body)) field = .ok (rejectionEventId rt body) := by
  obtain ⟨hlength, hchars⟩ := @fingerprint_chars rt body
  have htag : "cloud-job-rejected:".toList.length = 19 := by simp
  unfold rejectionEventId
  refine @cleanIdentifier_tagged "cloud-job-rejected:" field _ 256 (by simp) (by simp)
    (fun c hc => hchars c (List.mem_of_mem_take hc)) ?_
  rw [List.length_take]
  omega

theorem rejectionKey_injective {body body' : List UInt8}
    (h : rejectionKey rt body = rejectionKey rt body') :
    fingerprint rt body = fingerprint rt body' := by
  have hchars := congrArg String.toList h
  rw [rejectionKey, rejectionKey, String.toList_append, String.toList_append] at hchars
  exact String.toList_inj.mp (List.append_cancel_left hchars)

theorem eventId_of_fingerprint {body body' : List UInt8}
    (h : fingerprint rt body = fingerprint rt body') :
    rejectionEventId rt body = rejectionEventId rt body' := by
  unfold rejectionEventId
  rw [h]

/-! ## Storing a rejection -/

/-- The request of a rejection passes the checks of the queue. -/
theorem checkUpload_rejection (hupper : rt.upper "POST" = "POST") (hvalid : source.Valid)
    {body : List UInt8} {uuid requestId : String}
    (hrequestId : cleanIdentifier (.str uuid) "request_id" = .ok requestId)
    (reason : RejectionReason) (scanId : Option String) :
    checkUpload rt (source.rejectionRequest rt body reason scanId) uuid =
      .ok ⟨"scan_rejection", rejectionKey rt body, source.scanRejectionsPath, "POST", requestId⟩ := by
  have hkind : cleanIdentifier (.str "scan_rejection") "kind" 128 = .ok "scan_rejection" := by
    decide +kernel
  have hmethod : cleanIdentifier (.str "POST") "method" 16 = .ok "POST" := by decide +kernel
  have hkey := @cleanIdentifier_rejectionKey rt body "idempotency_key"
  simp only [checkUpload, bind_eq_ok, raiseIf_eq_ok]
  refine ⟨_, hkind, _, hkey, _, hvalid.path, (), ?_, _, ?_, (), ?_, (), ?_, _, hrequestId, rfl⟩
  · rw [hvalid.absolute]
    decide
  · show cleanIdentifier (.str (rt.upper "POST")) "method" 16 = _
    rw [hupper]
    exact hmethod
  · decide
  · show ¬ ¬ (1 ≤ (8 : Int) ∧ (8 : Int) ≤ 100)
    decide

theorem contentOf_newUpload {request : UploadRequest} {fields : UploadFields} {now : ℚ}
    {group : Option String} {predecessor : Option Nat} :
    contentOf (newUpload rt request fields now group predecessor) =
      ⟨fields.kind, fields.method, fields.endpoint, request.payload, request.payload.hash rt,
        request.contentType, fields.idempotencyKey⟩ := rfl

/-- A row with the key of a body is found again after its links were filled in. -/
theorem uploadWithKey_backfill {db : Database} {key : String} :
    uploadWithKey (backfillCausalLinks rt db) key = none ↔ uploadWithKey db key = none := by
  obtain ⟨-, f, hget, hrelinked⟩ := relinks_backfillCausalLinks rt db
  have hkey : ∀ id row, (f id row).idempotencyKey = row.idempotencyKey := fun id row =>
    congrArg UploadContent.idempotencyKey (contentOf_relinked (hrelinked id row))
  unfold uploadWithKey
  rw [Table.first?_eq_none, Table.first?_eq_none]
  constructor
  · intro h id row hrow
    have hback := h id (f id row) (by rw [hget, hrow, Option.map_some])
    rwa [hkey] at hback
  · intro h id row hrow
    rw [hget] at hrow
    obtain ⟨before, hbefore, rfl⟩ := Option.map_eq_some_iff.mp hrow
    rw [hkey]
    exact h id before hbefore

/-- What `enqueue_upload` does with a request that passes its checks. -/
theorem enqueueUpload_of_checked {request : UploadRequest} {fields : UploadFields} {uuid : String}
    {now : ℚ} {db : Database} (hchecked : checkUpload rt request uuid = .ok fields) :
    enqueueUpload rt request uuid now db =
      match uploadWithKey (backfillCausalLinks rt db) fields.idempotencyKey with
      | some (uploadId, existing) => do
        raiseIf ((existing.kind, existing.method, existing.endpoint, existing.payloadHash,
            existing.contentType) ≠ (fields.kind, fields.method, fields.endpoint,
              request.payload.hash rt, request.contentType))
          ⟨.idempotencyConflict, "upload idempotency key was reused with different content"⟩
        .ok (⟨uploadId, false⟩, backfillCausalLinks rt db)
      | none =>
        let group := causalGroup rt fields.kind request.metadata request.payload
        .ok (⟨(backfillCausalLinks rt db).uploads.nextId, true⟩, { backfillCausalLinks rt db with
          uploads := (backfillCausalLinks rt db).uploads.insert
            (newUpload rt request fields now group (group.bind fun g =>
              (newestUpload (backfillCausalLinks rt db).uploads g).map Prod.fst)) }) := by
  unfold enqueueUpload
  rw [hchecked]
  rfl

/-- A body that the outbox knows is queued already. -/
theorem enqueue_known (hupper : rt.upper "POST" = "POST") (hvalid : source.Valid)
    {body : List UInt8} {uuid requestId : String} {now : ℚ} {db : Database}
    (hrequestId : cleanIdentifier (.str uuid) "request_id" = .ok requestId)
    (hcontent : ∀ id row, db.uploads.get? id = some row →
      row.idempotencyKey = rejectionKey rt body → contentOf row = source.reportContent rt body)
    (hfound : uploadWithKey db (rejectionKey rt body) ≠ none) :
    ∃ uploadId, enqueueUpload rt (source.rejectionRequest rt body (source.rejectionOf body).1
        (source.rejectionOf body).2) uuid now db =
      .ok (⟨uploadId, false⟩, backfillCausalLinks rt db) := by
  rw [enqueueUpload_of_checked (checkUpload_rejection hupper hvalid hrequestId _ _)]
  cases hback : uploadWithKey (backfillCausalLinks rt db) (rejectionKey rt body) with
  | none => exact absurd (uploadWithKey_backfill.mp hback) hfound
  | some e =>
    obtain ⟨uploadId, existing⟩ := e
    obtain ⟨hget, hkey⟩ := Table.first?_eq_some hback
    rw [decide_eq_true_eq] at hkey
    obtain ⟨row, hrow, hsame⟩ := descends_backfill rt db uploadId existing hget
    have hrowKey : row.idempotencyKey = rejectionKey rt body :=
      (congrArg UploadContent.idempotencyKey hsame).symm.trans hkey
    have hreport := hsame.trans (hcontent uploadId row hrow hrowKey)
    refine ⟨uploadId, ?_⟩
    have hkind : existing.kind = _ := congrArg UploadContent.kind hreport
    have hmethod : existing.method = _ := congrArg UploadContent.method hreport
    have hendpoint : existing.endpoint = _ := congrArg UploadContent.endpoint hreport
    have hhash : existing.payloadHash = _ := congrArg UploadContent.payloadHash hreport
    have htype : existing.contentType = _ := congrArg UploadContent.contentType hreport
    simp only [hkind, hmethod, hendpoint, hhash, htype, reportContent, rejectionRequest, raiseIf,
      ne_eq, not_true_eq_false, if_false]
    rfl

/-- A body that the outbox does not know is queued. -/
theorem enqueue_unknown (hupper : rt.upper "POST" = "POST") (hvalid : source.Valid)
    {body : List UInt8} {uuid requestId : String} {now : ℚ} {db : Database}
    (hrequestId : cleanIdentifier (.str uuid) "request_id" = .ok requestId)
    (hnone : uploadWithKey db (rejectionKey rt body) = none) :
    ∃ uploadId row, enqueueUpload rt (source.rejectionRequest rt body (source.rejectionOf body).1
        (source.rejectionOf body).2) uuid now db =
      .ok (⟨uploadId, true⟩, { backfillCausalLinks rt db with
        uploads := (backfillCausalLinks rt db).uploads.insert row }) ∧
      contentOf row = source.reportContent rt body := by
  rw [enqueueUpload_of_checked (checkUpload_rejection hupper hvalid hrequestId _ _)]
  dsimp only
  rw [uploadWithKey_backfill.mpr hnone]
  exact ⟨_, _, rfl, rfl⟩

/-- `record_audit_event` on the event of a rejection, whose names are clean. -/
theorem recordAuditEvent_report {db : Database} {body : List UInt8} {createdAt : String} :
    recordAuditEvent rt (source.reportEvent rt body createdAt) db =
      (match db.auditLog.find? fun row => decide (row.eventId = rejectionEventId rt body) with
      | some existing => do
        raiseIf (existing.content ≠ (source.reportEvent rt body createdAt).content rt
            (rejectionEventId rt body) "SCAN_JOB_REJECTED" "REJECTED" ∧
              (source.reportEvent rt body createdAt).returnExisting = false)
          ⟨.idempotencyConflict, "audit event_id was reused with different content"⟩
        .ok (existing.eventHash, db)
      | none => do
        raiseIf (∃ row ∈ db.auditLog,
            row.eventHash = nextEventHash rt db (source.reportEvent rt body createdAt))
          ⟨.integrity, "UNIQUE constraint failed: audit_log.event_hash"⟩
        .ok (nextEventHash rt db (source.reportEvent rt body createdAt), { db with
          auditLog := db.auditLog ++ [⟨rejectionEventId rt body,
            (source.reportEvent rt body createdAt).content rt (rejectionEventId rt body)
              "SCAN_JOB_REJECTED" "REJECTED", db.auditLog.getLast?.map (·.eventHash),
            nextEventHash rt db (source.reportEvent rt body createdAt)⟩] })) := by
  have htype : cleanIdentifier (.str (source.reportEvent rt body createdAt).eventType) "event_type"
      128 = .ok "SCAN_JOB_REJECTED" := by
    show cleanIdentifier (.str "SCAN_JOB_REJECTED") "event_type" 128 = _
    decide +kernel
  have houtcome : cleanIdentifier (.str (source.reportEvent rt body createdAt).outcome) "outcome"
      64 = .ok "REJECTED" := by
    show cleanIdentifier (.str "REJECTED") "outcome" 64 = _
    decide +kernel
  have heventId : cleanIdentifier (.str (source.reportEvent rt body createdAt).eventId) "event_id" =
      .ok (rejectionEventId rt body) := @cleanIdentifier_rejectionEventId rt body "event_id"
  unfold recordAuditEvent
  rw [htype, houtcome, heventId]
  rfl

/-- An event with a new identifier and a new hash is appended. -/
theorem record_unknown {db : Database} {body : List UInt8} {createdAt : String}
    (hevents : eventsOf rt db body = [])
    (hhash : ∀ row ∈ db.auditLog,
      row.eventHash ≠ nextEventHash rt db (source.reportEvent rt body createdAt)) :
    ∃ eventHash row, recordAuditEvent rt (source.reportEvent rt body createdAt) db =
        .ok (eventHash, { db with auditLog := db.auditLog ++ [row] }) ∧
      row.eventId = rejectionEventId rt body ∧
      row.content.get "event_type" = .str "SCAN_JOB_REJECTED" := by
  have hfind : (db.auditLog.find? fun row => decide (row.eventId = rejectionEventId rt body)) =
      none := by
    rw [List.find?_eq_none]
    exact List.filter_eq_nil_iff.mp hevents
  have hfresh : ¬ ∃ row ∈ db.auditLog,
      row.eventHash = nextEventHash rt db (source.reportEvent rt body createdAt) := by
    rintro ⟨row, hrow, hsame⟩
    exact hhash row hrow hsame
  refine ⟨nextEventHash rt db (source.reportEvent rt body createdAt),
    ⟨rejectionEventId rt body, (source.reportEvent rt body createdAt).content rt
      (rejectionEventId rt body) "SCAN_JOB_REJECTED" "REJECTED",
      db.auditLog.getLast?.map (·.eventHash),
      nextEventHash rt db (source.reportEvent rt body createdAt)⟩, ?_, rfl, rfl⟩
  rw [recordAuditEvent_report, hfind]
  simp only [bind_unit_eq_ok, raiseIf_eq_ok]
  exact ⟨hfresh, trivial⟩

/-- An event of the body that was recorded at another time cannot be recorded again. -/
theorem record_again {db : Database} {body : List UInt8} {createdAt : String}
    (hknown : eventsOf rt db body ≠ [])
    (htime : ∀ row ∈ eventsOf rt db body, row.content.get "created_at" ≠ .str createdAt) :
    recordAuditEvent rt (source.reportEvent rt body createdAt) db =
      .error ⟨.idempotencyConflict, "audit event_id was reused with different content"⟩ := by
  rw [recordAuditEvent_report]
  cases hfind : db.auditLog.find? fun row => decide (row.eventId = rejectionEventId rt body) with
  | none =>
    refine absurd ?_ hknown
    rw [eventsOf, List.filter_eq_nil_iff]
    exact List.find?_eq_none.mp hfind
  | some existing =>
    have hid := List.find?_some hfind
    have hmem : existing ∈ eventsOf rt db body :=
      List.mem_filter.mpr ⟨List.mem_of_find?_eq_some hfind, hid⟩
    have hne : existing.content ≠ (source.reportEvent rt body createdAt).content rt
        (rejectionEventId rt body) "SCAN_JOB_REJECTED" "REJECTED" := by
      intro hsame
      refine htime existing hmem ?_
      rw [hsame]
      rfl
    dsimp only
    rw [raiseIf, if_pos ⟨hne, rfl⟩]
    rfl

/-- A rejection that the outbox did not know is recorded. -/
theorem reject_created {poll : Poll} {s : State} {queued : EnqueueResult} {db : Database}
    (hmemory : fingerprint rt poll.body ∉ s.rejectedFingerprints)
    (henqueue : enqueueUpload rt (source.rejectionRequest rt poll.body (source.rejectionOf poll.body).1
      (source.rejectionOf poll.body).2) poll.uuid poll.now s.db = .ok (queued, db))
    (hcreated : queued.created = true) :
    source.reject rt poll (source.rejectionOf poll.body).1 (source.rejectionOf poll.body).2 s = (do
      let recorded ← recordAuditEvent rt (source.reportEvent rt poll.body poll.createdAt) db
      .ok ⟨recorded.2, remember (fingerprint rt poll.body) s.rejectedFingerprints⟩) := by
  unfold reject reportEvent
  rw [if_neg hmemory, henqueue]
  simp only [bind, Except.bind, hcreated, if_true]
  cases recordAuditEvent rt (source.rejectionEvent rt poll.body (source.rejectionOf poll.body).1
    (source.rejectionOf poll.body).2 poll.createdAt) db with
  | error e => rfl
  | ok recorded => rfl
/-! ## The invariant -/

/-- The scan that a rejection of the body names is written in ASCII. -/
def NamesAscii (source : CloudJobSource) (body : List UInt8) : Prop :=
  ∀ scanId ∈ (source.rejectionOf body).2, ∀ c ∈ scanId.toList, c.toNat < 128

/-- What is stored and remembered comes from the bodies rejected so far. -/
structure Invariant (rt : Runtime) (source : CloudJobSource) (h : History) : Prop where
  sound : SoundOutbox h.state.db.uploads
  uploads : ∀ id row, h.state.db.uploads.get? id = some row →
    row.kind = "scan_rejection" ∨ (∃ body, row.idempotencyKey = rejectionKey rt body) →
      ∃ body ∈ h.rejected, contentOf row = source.reportContent rt body
  ascii : ∀ body ∈ h.rejected, NamesAscii source body
  memory : ∀ known ∈ h.state.rejectedFingerprints, ∃ body ∈ h.rejected, known = fingerprint rt body
  events : ∀ row ∈ h.state.db.auditLog, ∀ body, row.eventId = rejectionEventId rt body →
    ∃ past ∈ h.rejected, rejectionEventId rt past = rejectionEventId rt body
  oneEvent : ∀ body ∈ h.rejected, ∃ row, eventsOf rt h.state.db body = [row] ∧
    row.content.get "event_type" = .str "SCAN_JOB_REJECTED"

/-- A process that has just been started, on a storage in which nothing was reported. -/
def start (db : Database) : History := ⟨⟨db, []⟩, []⟩

theorem invariant_start {db : Database} (h : Unreported rt db) : Invariant rt source (start db) where
  sound := h.sound
  uploads id row hrow hreports := by
    obtain ⟨hkind, hkey⟩ := h.uploads id row hrow
    rcases hreports with hreports | ⟨body, hbody⟩
    · exact absurd hreports hkind
    · exact absurd hbody (hkey body)
  ascii := by simp [start]
  memory := by simp [start]
  events row hrow body hbody := absurd hbody (h.events row hrow body)
  oneEvent := by simp [start]

/-- A row with the key of the body reports that body, if no fingerprints collide. -/
theorem Invariant.content {h : History} (hinv : Invariant rt source h) {body : List UInt8}
    (hapart : ∀ past ∈ h.rejected, past ≠ body → rejectionEventId rt past ≠ rejectionEventId rt body)
    (id : Nat) (row : UploadRow) (hrow : h.state.db.uploads.get? id = some row)
    (hkey : row.idempotencyKey = rejectionKey rt body) :
    body ∈ h.rejected ∧ contentOf row = source.reportContent rt body := by
  obtain ⟨past, hpast, hcontent⟩ := hinv.uploads id row hrow (Or.inr ⟨body, hkey⟩)
  have hpastKey : row.idempotencyKey = rejectionKey rt past :=
    congrArg UploadContent.idempotencyKey hcontent
  have hsame := eventId_of_fingerprint (rejectionKey_injective (hpastKey.symm.trans hkey))
  obtain rfl : past = body := by
    by_contra hne
    exact hapart past hpast hne hsame
  exact ⟨hpast, hcontent⟩

/-- Rows that descend from reports, and new reports, are reports. -/
theorem Invariant.of_descends {h : History} (hinv : Invariant rt source h) {uploads : Table UploadRow}
    {rejected : List (List UInt8)} (hsub : ∀ body ∈ h.rejected, body ∈ rejected)
    (hrows : ∀ id row', uploads.get? id = some row' →
      (∃ row, h.state.db.uploads.get? id = some row ∧ contentOf row' = contentOf row) ∨
        ∃ body ∈ rejected, contentOf row' = source.reportContent rt body) :
    ∀ id row, uploads.get? id = some row →
      row.kind = "scan_rejection" ∨ (∃ body, row.idempotencyKey = rejectionKey rt body) →
        ∃ body ∈ rejected, contentOf row = source.reportContent rt body := by
  intro id row' hrow' hreports
  rcases hrows id row' hrow' with ⟨row, hrow, hsame⟩ | hnew
  · have hkind : row'.kind = row.kind := congrArg UploadContent.kind hsame
    have hkey : row'.idempotencyKey = row.idempotencyKey :=
      congrArg UploadContent.idempotencyKey hsame
    rw [hkind, hkey] at hreports
    obtain ⟨body, hbody, hcontent⟩ := hinv.uploads id row hrow hreports
    exact ⟨body, hsub body hbody, hsame.trans hcontent⟩
  · exact hnew

theorem mem_remember {known new : String} {remembered : List String}
    (h : known ∈ remember new remembered) : known ∈ remembered ∨ known = new := by
  have hmem : known ∈ remembered ++ [new] := by
    unfold remember at h
    split at h
    · exact List.mem_of_mem_tail h
    · exact h
  rw [List.mem_append, List.mem_singleton] at hmem
  exact hmem

theorem eventsOf_append {db db' : Database} {row : AuditRow} {body : List UInt8}
    (h : db'.auditLog = db.auditLog ++ [row]) : eventsOf rt db' body =
      eventsOf rt db body ++ if row.eventId = rejectionEventId rt body then [row] else [] := by
  rw [eventsOf, eventsOf, h, List.filter_append, List.filter_singleton]
  by_cases hid : row.eventId = rejectionEventId rt body
  · simp [hid]
  · simp [hid]

theorem sound_enqueue {db db' : Database} {request : UploadRequest} {uuid : String} {now : ℚ}
    {result : EnqueueResult} (hsound : SoundOutbox db.uploads)
    (h : enqueueUpload rt request uuid now db = .ok (result, db')) : SoundOutbox db'.uploads := by
  have hchange : TableChange (.enqueue request uuid now) db.uploads db'.uploads :=
    tableChange_enqueueUpload h
  exact hchange.sound hsound

/-- A body that was rejected before leaves the storage as it is, up to causal links. -/
theorem Invariant.again {h : History} (hinv : Invariant rt source h) {body : List UInt8}
    (hbody : body ∈ h.rejected) {state : State} (hsound : SoundOutbox state.db.uploads)
    (hdescends : Descends h.state.db.uploads state.db.uploads)
    (haudit : state.db.auditLog = h.state.db.auditLog)
    (hmemory : ∀ known ∈ state.rejectedFingerprints,
      known ∈ h.state.rejectedFingerprints ∨ known = fingerprint rt body) :
    Invariant rt source ⟨state, body :: h.rejected⟩ where
  sound := hsound
  uploads := hinv.of_descends (fun _ hpast => List.mem_cons_of_mem _ hpast)
    fun id row' hrow' => Or.inl (hdescends id row' hrow')
  ascii := List.forall_mem_cons.mpr ⟨hinv.ascii body hbody, hinv.ascii⟩
  memory known hknown := by
    rcases hmemory known hknown with hold | rfl
    · obtain ⟨past, hpast, hsame⟩ := hinv.memory known hold
      exact ⟨past, List.mem_cons_of_mem _ hpast, hsame⟩
    · exact ⟨body, List.mem_cons_self, rfl⟩
  events row hrow body' hid := by
    obtain ⟨past, hpast, hsame⟩ := hinv.events row (haudit ▸ hrow) body' hid
    exact ⟨past, List.mem_cons_of_mem _ hpast, hsame⟩
  oneEvent := by
    have hsame : ∀ body, eventsOf rt state.db body = eventsOf rt h.state.db body := by
      intro body
      rw [eventsOf, eventsOf, haudit]
    refine List.forall_mem_cons.mpr ⟨?_, fun past hpast => ?_⟩
    · rw [hsame]
      exact hinv.oneEvent body hbody
    · rw [hsame]
      exact hinv.oneEvent past hpast

/-- A body that is rejected for the first time gets one upload and one event. -/
theorem Invariant.first {h : History} (hinv : Invariant rt source h) {body : List UInt8}
    (hapart : ∀ past ∈ h.rejected, past ≠ body → rejectionEventId rt past ≠ rejectionEventId rt body)
    (hascii : NamesAscii source body) (hnone : eventsOf rt h.state.db body = []) {state : State}
    {event : AuditRow} (hsound : SoundOutbox state.db.uploads)
    (huploads : ∀ id row', state.db.uploads.get? id = some row' →
      (∃ row, h.state.db.uploads.get? id = some row ∧ contentOf row' = contentOf row) ∨
        contentOf row' = source.reportContent rt body)
    (haudit : state.db.auditLog = h.state.db.auditLog ++ [event])
    (hid : event.eventId = rejectionEventId rt body)
    (htype : event.content.get "event_type" = .str "SCAN_JOB_REJECTED")
    (hmemory : ∀ known ∈ state.rejectedFingerprints,
      known ∈ h.state.rejectedFingerprints ∨ known = fingerprint rt body) :
    Invariant rt source ⟨state, body :: h.rejected⟩ where
  sound := hsound
  uploads := hinv.of_descends (fun _ hpast => List.mem_cons_of_mem _ hpast) fun id row' hrow' =>
    (huploads id row' hrow').imp_right fun hnew => ⟨body, List.mem_cons_self, hnew⟩
  ascii := List.forall_mem_cons.mpr ⟨hascii, hinv.ascii⟩
  memory known hknown := by
    rcases hmemory known hknown with hold | rfl
    · obtain ⟨past, hpast, hsame⟩ := hinv.memory known hold
      exact ⟨past, List.mem_cons_of_mem _ hpast, hsame⟩
    · exact ⟨body, List.mem_cons_self, rfl⟩
  events row hrow body' hrowId := by
    rw [show (⟨state, body :: h.rejected⟩ : History).state.db.auditLog = _ from haudit,
      List.mem_append, List.mem_singleton] at hrow
    rcases hrow with hrow | rfl
    · obtain ⟨past, hpast, hsame⟩ := hinv.events row hrow body' hrowId
      exact ⟨past, List.mem_cons_of_mem _ hpast, hsame⟩
    · exact ⟨body, List.mem_cons_self, hid.symm.trans hrowId⟩
  oneEvent := by
    have hnew : body ∉ h.rejected := by
      intro hbody
      obtain ⟨row, hrow, -⟩ := hinv.oneEvent body hbody
      rw [hnone] at hrow
      cases hrow
    refine List.forall_mem_cons.mpr ⟨⟨event, ?_, htype⟩, fun past hpast => ?_⟩
    · rw [eventsOf_append haudit, hnone, if_pos hid, List.nil_append]
    · obtain ⟨row, hrow, hrowType⟩ := hinv.oneEvent past hpast
      have hne : event.eventId ≠ rejectionEventId rt past := by
        rw [hid]
        refine (hapart past hpast ?_).symm
        rintro rfl
        exact hnew hpast
      refine ⟨row, ?_, hrowType⟩
      rw [eventsOf_append haudit, if_neg hne, List.append_nil, hrow]

/-- Storing a rejection that can be handled succeeds. -/
theorem reject_ok (hupper : rt.upper "POST" = "POST") (hvalid : source.Valid) {h : History}
    (hinv : Invariant rt source h) {poll : Poll} (hsane : Sane rt source h poll)
    (hascii : NamesAscii source poll.body)
    (hknown : fingerprint rt poll.body ∉ h.state.rejectedFingerprints →
      uploadWithKey h.state.db (rejectionKey rt poll.body) = none →
        eventsOf rt h.state.db poll.body = []) :
    ∃ state, source.reject rt poll (source.rejectionOf poll.body).1 (source.rejectionOf poll.body).2
        h.state = .ok state ∧ Invariant rt source ⟨state, poll.body :: h.rejected⟩ := by
  obtain ⟨requestId, hrequestId⟩ := hsane.requestId
  by_cases hmemory : fingerprint rt poll.body ∈ h.state.rejectedFingerprints
  · -- the process remembers the body
    rw [reject, if_pos hmemory]
    obtain ⟨past, hpast, hsame⟩ := hinv.memory _ hmemory
    obtain rfl : past = poll.body := by
      by_contra hne
      exact hsane.apart past hpast hne (eventId_of_fingerprint hsame.symm)
    exact ⟨_, rfl, hinv.again hpast hinv.sound (.refl _) rfl fun known h => Or.inl h⟩
  · by_cases hnone : uploadWithKey h.state.db (rejectionKey rt poll.body) = none
    · -- nothing knows the body
      obtain ⟨uploadId, row, henqueue, hcontent⟩ :=
        @enqueue_unknown rt source hupper hvalid poll.body poll.uuid requestId poll.now h.state.db
          hrequestId hnone
      have hevents := hknown hmemory hnone
      obtain ⟨eventHash, event, hrecord, hid, htype⟩ := @record_unknown rt source
        { backfillCausalLinks rt h.state.db with
          uploads := (backfillCausalLinks rt h.state.db).uploads.insert row }
        poll.body poll.createdAt hevents hsane.eventHash
      have hsound := sound_enqueue hinv.sound henqueue
      have hstored : (source.reject rt poll (source.rejectionOf poll.body).1
          (source.rejectionOf poll.body).2 h.state) =
          .ok ⟨{ backfillCausalLinks rt h.state.db with
              uploads := (backfillCausalLinks rt h.state.db).uploads.insert row
              auditLog := h.state.db.auditLog ++ [event] },
            remember (fingerprint rt poll.body) h.state.rejectedFingerprints⟩ := by
        rw [reject_created hmemory henqueue rfl, hrecord]
        rfl
      refine ⟨_, hstored, hinv.first hsane.apart hascii hevents hsound ?_ rfl hid htype
        fun known => mem_remember⟩
      intro id row' hrow'
      rw [Table.get?_insert] at hrow'
      split at hrow'
      · cases hrow'
        exact Or.inr hcontent
      · exact Or.inl (descends_backfill rt h.state.db id row' hrow')
    · -- the outbox knows the body
      have hreports := hinv.content hsane.apart
      obtain ⟨⟨id, row⟩, hfound⟩ := Option.ne_none_iff_exists'.mp hnone
      obtain ⟨hrow, hkey⟩ := Table.first?_eq_some hfound
      rw [decide_eq_true_eq] at hkey
      obtain ⟨uploadId, henqueue⟩ := @enqueue_known rt source hupper hvalid poll.body poll.uuid
        requestId poll.now h.state.db hrequestId
        (fun id row hrow hkey => (hreports id row hrow hkey).2) hnone
      have hstored : (source.reject rt poll (source.rejectionOf poll.body).1
          (source.rejectionOf poll.body).2 h.state) = .ok ⟨backfillCausalLinks rt h.state.db,
            remember (fingerprint rt poll.body) h.state.rejectedFingerprints⟩ := by
        rw [reject, if_neg hmemory, henqueue]
        rfl
      exact ⟨_, hstored, hinv.again (hreports id row hrow hkey).1 (sound_enqueue hinv.sound henqueue)
        (descends_backfill rt h.state.db) rfl fun known => mem_remember⟩

/-- A body that only the audit log knows raises. -/
theorem fetch_forgotten (hupper : rt.upper "POST" = "POST") (hvalid : source.Valid) {poll : Poll}
    {reason : RejectionReason} {scanId : Option String}
    (hverdict : source.verdict poll = .rejected reason scanId) {requestId : String}
    (hrequestId : cleanIdentifier (.str poll.uuid) "request_id" = .ok requestId) {state : State}
    (hmemory : fingerprint rt poll.body ∉ state.rejectedFingerprints)
    (hnone : uploadWithKey state.db (rejectionKey rt poll.body) = none)
    (hknown : eventsOf rt state.db poll.body ≠ [])
    (htime : ∀ row ∈ eventsOf rt state.db poll.body,
      row.content.get "created_at" ≠ .str poll.createdAt) :
    source.fetch rt poll state = .error (.storage
      ⟨.idempotencyConflict, "audit event_id was reused with different content"⟩) := by
  obtain ⟨uploadId, row, henqueue, -⟩ :=
    @enqueue_unknown rt source hupper hvalid poll.body poll.uuid requestId poll.now state.db
      hrequestId hnone
  have hrecord := @record_again rt source
    { backfillCausalLinks rt state.db with
      uploads := (backfillCausalLinks rt state.db).uploads.insert row } poll.body poll.createdAt
    hknown htime
  have hrejection := verdict_rejected hverdict
  have hreject : source.reject rt poll (source.rejectionOf poll.body).1
      (source.rejectionOf poll.body).2 state = .error
        ⟨.idempotencyConflict, "audit event_id was reused with different content"⟩ := by
    rw [reject_created hmemory henqueue rfl, hrecord]
    rfl
  rw [hrejection] at hreject
  rw [fetch, hverdict]
  dsimp only
  rw [hreject]

/-! ## What the cloud reads -/

/-- An ASCII scan identifier that the endpoint reports is one for the cloud. -/
theorem isIdentifier_safeScanId {document : Json} {scanId : String}
    (h : source.safeScanId document = some scanId) (hascii : ∀ c ∈ scanId.toList, c.toNat < 128) :
    isIdentifier scanId = true := by
  unfold safeScanId at h
  split at h
  · split at h
    · split at h
      · cases h
      · rename_i c rest hchars
        split at h
        · rename_i hsafe
          obtain ⟨hlength, hfirst, hall⟩ := hsafe
          cases h
          rw [hchars] at hascii
          have halnum : ∀ d ∈ c :: rest, source.decoder.isalnum d = d.isAlphanum := fun d hd =>
            source.decoder.isalnum_ascii d (hascii d hd)
          unfold isIdentifier
          rw [hchars]
          simp only [Bool.and_eq_true, decide_eq_true_eq, List.all_eq_true]
          refine ⟨⟨?_, hlength⟩, fun d hd => ?_⟩
          · rw [← halnum c List.mem_cons_self]
            exact hfirst
          · have hd' := List.mem_cons_of_mem c hd
            rcases hall d hd' with hd'' | hd''
            · rw [halnum d hd'] at hd''
              simp [hd'']
            · revert hd''
              simp
              rintro (rfl | rfl | rfl | rfl) <;> simp
        · cases h
    · cases h
  · cases h

theorem mem_storedObject {fields : JsonObject} {e : String × Json} (h : e ∈ storedObject fields) :
    e.1 ∈ fields.map Prod.fst := by
  simp only [storedObject, Json.sortKeys, List.mem_insertionSort, Json.sortFields_eq,
    List.mem_map] at h
  obtain ⟨field, hfield, rfl⟩ := h
  exact List.mem_map.mpr ⟨field, hfield, rfl⟩

/-- The stored payload of a rejection is one that the cloud's model accepts. -/
theorem validateRejection_payload (hvalid : source.Valid) {body : List UInt8}
    (hascii : NamesAscii source body) :
    ∃ upload, validateRejection (storedObject (source.rejectionPayload rt body
      (source.rejectionOf body).1 (source.rejectionOf body).2)) = some upload := by
  have hscan : optionalIdentifier (Json.sortKeys (Json.ofOption (source.rejectionOf body).2)) =
      some (source.rejectionOf body).2 := by
    cases hscanId : (source.rejectionOf body).2 with
    | none => rfl
    | some scanId =>
      have hsafe : ∃ document, source.safeScanId document = some scanId := by
        unfold rejectionOf at hscanId
        split at hscanId
        · exact ⟨_, hscanId⟩
        · cases hscanId
      obtain ⟨document, hdocument⟩ := hsafe
      have hid := isIdentifier_safeScanId hdocument (hascii scanId hscanId)
      simp [Json.ofOption, Json.sortKeys, optionalIdentifier, hid]
  have hreason : rejectionReason (.str (source.rejectionOf body).1.text) =
      some (source.rejectionOf body).1 := by
    cases (source.rejectionOf body).1 <;> decide
  have hdigest : isHexDigest (fingerprint rt body) = true := rt.sha256_digest body
  refine ⟨⟨source.endpointId, (source.rejectionOf body).2, (source.rejectionOf body).1,
    fingerprint rt body⟩, ?_⟩
  have hkeys : ∀ e ∈ storedObject (source.rejectionPayload rt body (source.rejectionOf body).1
      (source.rejectionOf body).2),
      e.1 ∈ ["endpoint_id", "scan_id", "reason", "document_sha256"] :=
    fun e he => mem_storedObject he
  unfold validateRejection
  simp only [get_storedObject]
  show (match Json.sortKeys (.str source.endpointId),
      optionalIdentifier (Json.sortKeys (Json.ofOption (source.rejectionOf body).2)),
      rejectionReason (Json.sortKeys (.str (source.rejectionOf body).1.text)),
      Json.sortKeys (.str (fingerprint rt body)) with
    | .str endpointId, some scanId, some reason, .str documentSha256 => _
    | _, _, _, _ => none) = _
  rw [hscan]
  simp only [Json.sortKeys, hreason]
  exact if_pos ⟨hvalid.endpointId, hdigest, hkeys⟩

/-! ## Runs -/

/-- Two rows with one key are one row. -/
theorem Invariant.reported (hvalid : source.Valid) {h : History} (hinv : Invariant rt source h) :
    Reported rt h where
  oneUpload body id id' row row' hrow hrow' hkey hkey' :=
    hinv.sound.keys id id' row row' hrow hrow' (hkey.trans hkey'.symm)
  uploads id row hrow hkind := by
    obtain ⟨body, hbody, hcontent⟩ := hinv.uploads id row hrow (Or.inl hkind)
    obtain ⟨upload, hupload⟩ := @validateRejection_payload rt source hvalid body
      (hinv.ascii body hbody)
    have hpayload : row.payload = .document (.obj (source.rejectionPayload rt body
        (source.rejectionOf body).1 (source.rejectionOf body).2)) :=
      congrArg UploadContent.payload hcontent
    refine ⟨body, hbody, congrArg UploadContent.idempotencyKey hcontent, _, upload, ?_, hupload⟩
    rw [hpayload]
    rfl
  oneEvent := hinv.oneEvent

/-- Delivering and purging uploads keeps the invariant. -/
theorem Invariant.handled {h : History} (hinv : Invariant rt source h) {call : QueueCall}
    (hcall : isHandling call = true) :
    Invariant rt source { h with state := { h.state with db := call.perform rt h.state.db } } := by
  obtain ⟨hdescends, haudit⟩ := @descends_handling rt h.state.db call hcall
  have hevents : ∀ body, eventsOf rt (call.perform rt h.state.db) body =
      eventsOf rt h.state.db body := by
    intro body
    rw [eventsOf, eventsOf, haudit]
  refine ⟨?_, hinv.of_descends (fun _ hpast => hpast) ?_, hinv.ascii, hinv.memory, ?_, ?_⟩
  · exact (tableChange_perform rt call h.state.db).sound hinv.sound
  · exact fun id row' hrow' => Or.inl (hdescends id row' hrow')
  · intro row hrow
    rw [show ({ h with state := { h.state with db := call.perform rt h.state.db } } :
      History).state.db.auditLog = _ from haudit] at hrow
    exact hinv.events row hrow
  · intro past hpast
    rw [hevents]
    exact hinv.oneEvent past hpast

/-- A poll that can be handled does not raise. -/
theorem fetch_ok (hupper : rt.upper "POST" = "POST") (hvalid : source.Valid) {h : History}
    (hinv : Invariant rt source h) {poll : Poll} (hadmits : Admits rt source h (.poll poll)) :
    (∃ result, source.fetch rt poll h.state = .ok result) ∧
      Invariant rt source (step rt source h (.poll poll)) := by
  obtain ⟨hsane, hmanageable⟩ := hadmits
  cases hverdict : source.verdict poll with
  | nothing =>
    simp only [step, fetch, hverdict]
    exact ⟨⟨_, rfl⟩, hinv⟩
  | job document =>
    simp only [step, fetch, hverdict]
    exact ⟨⟨_, rfl⟩, hinv⟩
  | raised => exact absurd hverdict hmanageable.decodes
  | rejected reason scanId =>
    have hrejection := verdict_rejected hverdict
    have hascii : NamesAscii source poll.body := by
      intro named hnamed
      rw [hrejection] at hnamed
      obtain rfl : scanId = some named := hnamed
      exact hmanageable.ascii reason named hverdict
    obtain ⟨state, hstate, hnext⟩ := reject_ok hupper hvalid hinv hsane hascii
      (hmanageable.known reason scanId hverdict)
    rw [hrejection] at hstate
    simp only [step, fetch, hverdict, hstate]
    exact ⟨⟨_, rfl⟩, hnext⟩

theorem Invariant.step (hupper : rt.upper "POST" = "POST") (hvalid : source.Valid) {h : History}
    (hinv : Invariant rt source h) {action : Action} (hadmits : Admits rt source h action) :
    Invariant rt source (step rt source h action) := by
  cases action with
  | poll poll => exact (fetch_ok hupper hvalid hinv hadmits).2
  | restart =>
    exact ⟨hinv.sound, hinv.uploads, hinv.ascii, fun _ hknown => absurd hknown List.not_mem_nil,
      hinv.events, hinv.oneEvent⟩
  | queue call => exact hinv.handled hadmits

/--
In every run of polls, restarts, deliveries and purges whose polls can be handled, each rejected
body has one event and at most one upload, which the cloud's model accepts, and the next poll
that can be handled does not raise.
-/
theorem rejections_reported_once (hupper : rt.upper "POST" = "POST") (hvalid : source.Valid)
    {db : Database} (hdb : Unreported rt db) (actions : List Action)
    (hadmits : Guarded (CloudJobSource.step rt source) (Admits rt source) (start db) actions) :
    Reported rt (runFrom (CloudJobSource.step rt source) (start db) actions) ∧
      ∀ poll, Admits rt source (runFrom (CloudJobSource.step rt source) (start db) actions)
          (.poll poll) →
        ∃ result, source.fetch rt poll
          (runFrom (CloudJobSource.step rt source) (start db) actions).state = .ok result := by
  have hinv : Invariant rt source (runFrom (CloudJobSource.step rt source) (start db) actions) :=
    Guarded.invariant (fun _ _ hguard hbefore => hbefore.step hupper hvalid hguard) hadmits
      (invariant_start hdb)
  exact ⟨hinv.reported hvalid, fun poll hpoll => (fetch_ok hupper hvalid hinv hpoll).1⟩

end

/-! ## A page in place of a job -/

/-- Decoding in front of a gateway that answers with a page. -/
def pageSource : CloudJobSource where
  endpointId := "endpoint-1"
  decoder :=
    { json := fun _ => .refused
      loadJob := fun _ _ => .refused
      isalnum := Char.isAlphanum
      isalnum_ascii := fun _ _ => rfl }

theorem valid_pageSource : pageSource.Valid where
  endpointId := by decide +kernel
  path := by decide +kernel
  absolute := by decide +kernel

theorem unreported_empty (rt : Runtime) : Unreported rt Database.empty where
  sound := ⟨fun _ _ h => (nomatch h), fun _ _ _ _ h => (nomatch h)⟩
  uploads := fun _ _ h => nomatch h
  events := fun _ h => nomatch h

/-- A poll that is answered with the page. -/
def pagePoll (createdAt : String) : Poll where
  statusCode := 200
  body := utf8Bytes "<html>"
  uuid := "2f3a9c64-7a55-4b07-9d7a-0d8b8a4fd3d1"
  instant := seconds 1700000000
  now := 0
  createdAt := createdAt

/-- The rejection is delivered, and purged a month later. -/
def deliverAndPurge : List Action :=
  [.queue (.claim 1 60 1 fun _ => "lease-1"),
    .queue (.succeeded 1 "lease-1" "2023-11-14T22:13:21.000000Z"),
    .queue (.purge "2023-12-14T22:13:21.000000Z" 1000)]

/-- A process that was restarted rejects the page, and its rejection is claimed. -/
def rejectedOnce : List Action :=
  [.restart, .poll (pagePoll "2023-11-14T22:13:20.000000Z"),
    .queue (.claim 1 60 1 fun _ => "lease-1")]

theorem sane_pagePoll {h : History} {createdAt : String}
    (hrejected : ∀ body ∈ h.rejected, body = utf8Bytes "<html>")
    (heventHash : ∀ row ∈ h.state.db.auditLog, row.eventHash ≠
      nextEventHash Runtime.sample h.state.db
        (pageSource.reportEvent Runtime.sample (utf8Bytes "<html>") createdAt)) :
    Sane Runtime.sample pageSource h (pagePoll createdAt) where
  requestId := ⟨"2f3a9c64-7a55-4b07-9d7a-0d8b8a4fd3d1", (by decide +kernel :
    cleanIdentifier (.str "2f3a9c64-7a55-4b07-9d7a-0d8b8a4fd3d1") "request_id" = _)⟩
  apart := fun body hbody hne => absurd (hrejected body hbody) hne
  eventHash := heventHash

theorem verdict_pagePoll (createdAt : String) :
    pageSource.verdict (pagePoll createdAt) = .rejected .invalidJson none := by
  have hbody : utf8Bytes "<html>" ≠ [] := by decide +kernel
  unfold verdict
  rw [if_neg (by simp [pagePoll, hbody])]
  rfl

theorem manageable_pagePoll {h : History} {createdAt : String}
    (hknown : fingerprint Runtime.sample (utf8Bytes "<html>") ∉ h.state.rejectedFingerprints →
      uploadWithKey h.state.db (rejectionKey Runtime.sample (utf8Bytes "<html>")) = none →
        eventsOf Runtime.sample h.state.db (utf8Bytes "<html>") = []) :
    Manageable Runtime.sample pageSource h (pagePoll createdAt) where
  decodes := by rw [verdict_pagePoll]; simp
  ascii := by
    intro reason scanId hverdict
    rw [verdict_pagePoll] at hverdict
    cases hverdict
  known := fun _ _ _ => hknown

theorem rejections_reported_once_rejectedOnce :
    Reported Runtime.sample (runFrom (CloudJobSource.step Runtime.sample pageSource)
        (start Database.empty) rejectedOnce) ∧
      ∀ poll, Admits Runtime.sample pageSource (runFrom (CloudJobSource.step Runtime.sample
          pageSource) (start Database.empty) rejectedOnce) (.poll poll) →
        ∃ result, pageSource.fetch Runtime.sample poll
          (runFrom (CloudJobSource.step Runtime.sample pageSource) (start Database.empty)
            rejectedOnce).state = .ok result := by
  refine rejections_reported_once (by decide +kernel) valid_pageSource (unreported_empty _) _ ?_
  exact ⟨trivial, ⟨sane_pagePoll (fun _ h => nomatch h) (fun _ h => nomatch h),
    manageable_pagePoll fun _ _ => rfl⟩, rfl, trivial⟩

/--
The delivered rejection is purged and the process restarted: then the page is rejected with a new
event under the identifier of the old one.
-/
theorem purged_rejection_raises :
    Guarded (CloudJobSource.step Runtime.sample pageSource)
        (fun h action => match action with
          | .poll poll => Sane Runtime.sample pageSource h poll ∧
              pageSource.verdict poll = .rejected .invalidJson none
          | .restart => True
          | .queue call => isHandling call = true) (start Database.empty)
        (.poll (pagePoll "2023-11-14T22:13:20.000000Z") :: deliverAndPurge ++ [.restart]) ∧
      pageSource.verdict (pagePoll "2023-12-15T00:00:00.000000Z") = .rejected .invalidJson none ∧
      pageSource.fetch Runtime.sample (pagePoll "2023-12-15T00:00:00.000000Z")
          (runFrom (CloudJobSource.step Runtime.sample pageSource) (start Database.empty)
            (.poll (pagePoll "2023-11-14T22:13:20.000000Z") :: deliverAndPurge ++
              [.restart])).state =
        .error (.storage ⟨.idempotencyConflict,
          "audit event_id was reused with different content"⟩) := by
  refine ⟨⟨⟨sane_pagePoll (fun _ h => nomatch h) (fun _ h => nomatch h), verdict_pagePoll _⟩, rfl,
    rfl, rfl, trivial, trivial⟩, verdict_pagePoll _, ?_⟩
  refine fetch_forgotten (by decide +kernel) valid_pageSource (verdict_pagePoll _)
    (by decide +kernel : cleanIdentifier (.str "2f3a9c64-7a55-4b07-9d7a-0d8b8a4fd3d1") "request_id" =
      .ok "2f3a9c64-7a55-4b07-9d7a-0d8b8a4fd3d1") ?_ ?_ ?_ ?_
  · exact List.not_mem_nil
  · decide +kernel
  · decide +kernel
  · decide +kernel

end CloudJobSource

end OsScanner.Endpoint

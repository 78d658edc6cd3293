import Mathlib
import OsScanner.Cloud.Idempotency
import OsScanner.Cloud.ScanLifecycle

/-!
# Idempotency keys of several endpoints

A response is recorded under the tenant, the operation and the key of a request. Endpoints draw
the keys of enrollments and rotations at random and derive the others: from a scan and its
snapshot, from a scan and its status, from a rejected body. The operation of a rotation names the
endpoint, and the scan that an upload names belongs to one endpoint; but two endpoints that
reject the same body send the same operation and the same key.
-/

namespace OsScanner.Cloud

open Lib

/-! ## What endpoints send -/

/-- The key of a scan result; the second part is the hash of its snapshot. -/
def scanResultKey (rt : Runtime) (scanId snapshotKey : String) : String :=
  "scan-result:" ++ rt.hashText (scanId ++ ":" ++ snapshotKey)

/-- The key of a recovery: the path, the scan and the payload hash of the upload it replaces. -/
def fullResyncKey (rt : Runtime) (path scanId payloadHash : String) : String :=
  "full-resync:" ++ rt.hashText (path ++ ":" ++ scanId ++ ":" ++ payloadHash)

def scanStatusKey (rt : Runtime) (scanId status : String) : String :=
  "scan-status:" ++ rt.hashText (scanId ++ ":" ++ status)

def rejectionKey (fingerprint : String) : String := "job-rejection:" ++ fingerprint

/-- An installation: its identity, and the texts that its processes draw with `uuid4`. -/
structure Device where
  tenantId : String
  endpointId : String
  drawn : Set String

/-- The credential in use is one of the device. -/
def Device.Presents (device : Device) (principal : DevicePrincipal) : Prop :=
  principal.tenantId = device.tenantId ∧ principal.endpointId = device.endpointId

/-- The requests of the endpoint code; `known` are the scans that it works on. -/
def Device.Sends (rt : Runtime) (device : Device) (known : String → Prop) : Call → Prop
  | .identity (.enrollEndpoint tenantId _ _ _ _ _ _ key _ _ _) =>
    tenantId = device.tenantId ∧ key ∈ device.drawn
  | .identity (.rotateCredential principal _ _ _ _ _ _ _ _ key _ _) =>
    device.Presents principal ∧ key ∈ device.drawn
  | .scan (.claimNextJob principal _ _) => device.Presents principal
  | .scan (.ingestScan principal scanId _ key _ _ _ _ _ _) =>
    device.Presents principal ∧ known scanId ∧
      ((∃ snapshotKey, key = scanResultKey rt scanId snapshotKey) ∨
        ∃ path payloadHash, key = fullResyncKey rt path scanId payloadHash)
  | .scan (.recordScanStatus principal scanId _ key _ _ _) =>
    device.Presents principal ∧ known scanId ∧ ∃ status, key = scanStatusKey rt scanId status
  | .scan (.recordRejection principal payload key _ _ _) =>
    device.Presents principal ∧ payload.endpointId = device.endpointId ∧
      (∃ body, payload.documentSha256 = rt.sha256 body) ∧
      key = rejectionKey payload.documentSha256
  | _ => False

/-! ## Runs of several endpoints -/

section

variable {ι : Type} (rt : Runtime) (device : ι → Device)

/-- A call with its sender: one of the devices, or the platform and its workers. -/
structure Event (ι : Type) where
  sender : Option ι
  call : Call

/-- What the platform and its workers send: no device has drawn the scan of a new job. -/
def PlatformSends : Call → Prop
  | .identity (.createEnrollmentGrant ..) => True
  | .identity _ => False
  | .scan (.createScanJob _ _ scanId _ _ _ _ _ _) => ∀ i, scanId ∉ (device i).drawn
  | .scan (.claimAnalysisTask ..) => True
  | .scan (.completeAnalysisTask ..) => True
  | .scan (.failAnalysisTask ..) => True
  | .scan (.finalizeScanReport ..) => True
  | .scan (.finalizeScanReportFailure ..) => True
  | .scan _ => False

/-- The repository after the events. -/
def reached (events : List (Event ι)) : InMemoryRepository :=
  runFrom (Call.step rt) {} (events.map Event.call)

/-- A poll of the device was answered with the job of the scan. -/
def Delivered (events : List (Event ι)) (i : ι) (scanId : String) : Prop :=
  ∃ before poll after principal now auditedAt record,
    events = before ++ poll :: after ∧ poll.sender = some i ∧
    poll.call = .scan (.claimNextJob principal now auditedAt) ∧
    poll.call.answer rt (reached rt before) = .ok (.job (some record)) ∧ record.scanId = scanId

/-- The scans of a device are those that it was given and those that it has started itself. -/
def Known (events : List (Event ι)) (i : ι) (scanId : String) : Prop :=
  Delivered rt events i scanId ∨ scanId ∈ (device i).drawn

/-- The next event is one that its sender can send. -/
def Permitted (before : List (Event ι)) (event : Event ι) : Prop :=
  match event.sender with
  | none => PlatformSends device event.call
  | some i => (device i).Sends rt (Known rt device before i) event.call

/-- The tenant and the document of a rejection. -/
def Call.rejected : Call → Option (String × String)
  | .scan (.recordRejection principal payload _ _ _ _) =>
    some (principal.tenantId, payload.documentSha256)
  | _ => none

/-- No other sender has reported the document that the event rejects. -/
def FirstToReject (before : List (Event ι)) (event : Event ι) : Prop :=
  ∀ past ∈ before, past.sender ≠ event.sender →
    ∀ rejected, event.call.rejected = some rejected → past.call.rejected ≠ some rejected

/-- Every event of the run has the property, given those before it. -/
def Throughout (P : List (Event ι) → Event ι → Prop) (events : List (Event ι)) : Prop :=
  ∀ before event after, events = before ++ event :: after → P before event

/-- Devices are told apart by their identities and never draw the same text. -/
structure Distinct : Prop where
  identity : ∀ i j, (device i).tenantId = (device j).tenantId →
    (device i).endpointId = (device j).endpointId → i = j
  drawn : ∀ i j, i ≠ j → Disjoint (device i).drawn (device j).drawn

/--
The event is answered from a record that a request of another sender has left: with the recorded
response, or with a conflict.
-/
def AnsweredBecauseOf (before : List (Event ι)) (event : Event ι) (other : Option ι) : Prop :=
  ∃ id digest recorded, event.call.request = some (id, digest) ∧
    (reached rt before).idempotency.get? id = some recorded ∧
    ∃ earlier made later, before = earlier ++ made :: later ∧ made.sender = other ∧
      Records rt (reached rt earlier) made.call id recorded.1 recorded.2

variable {rt device}

theorem reached_append (events later : List (Event ι)) :
    reached rt (events ++ later) =
      runFrom (Call.step rt) (reached rt events) (later.map Event.call) := by
  rw [reached, List.map_append, runFrom_append]
  rfl

theorem Throughout.mono {P : List (Event ι) → Event ι → Prop} {events later : List (Event ι)}
    (h : Throughout P (events ++ later)) : Throughout P events := by
  intro before event after heq
  exact h before event (after ++ later) (by rw [heq]; simp)

theorem throughout_nil (P : List (Event ι) → Event ι → Prop) : Throughout P [] := by
  intro before event after h
  cases before <;> cases h

theorem throughout_concat {P : List (Event ι) → Event ι → Prop} {events : List (Event ι)}
    {event : Event ι} (h : Throughout P events) (hevent : P events event) :
    Throughout P (events ++ [event]) := by
  intro before last after heq
  rcases List.eq_nil_or_concat after with rfl | ⟨after, final, rfl⟩
  · obtain ⟨rfl, hlast⟩ := List.append_inj' heq rfl
    cases hlast
    exact hevent
  · rw [List.concat_eq_append, ← List.cons_append, ← List.append_assoc] at heq
    exact h before last after (List.append_inj' heq rfl).1

theorem throughout_pair {P : List (Event ι) → Event ι → Prop} {first second : Event ι}
    (hfirst : P [] first) (hsecond : P [first] second) : Throughout P [first, second] :=
  throughout_concat (throughout_concat (throughout_nil P) hfirst) hsecond

/-- What the record makes of the event: the recorded response or the conflict. -/
theorem AnsweredBecauseOf.answer {before : List (Event ι)} {event : Event ι} {other : Option ι}
    (h : AnsweredBecauseOf rt before event other) : ∃ recorded digest,
      (event.call.method rt).run (reached rt before) =
        (recordedAnswer recorded digest, reached rt before) := by
  obtain ⟨id, digest, recorded, hrequest, hrecorded, -⟩ := h
  exact ⟨recorded, digest, Call.run_recorded rt (recordedKinds_run rt _) hrequest hrecorded⟩

/-! ## Who owns a scan -/

/-- The tenant and the endpoint of a scan. -/
def owner (repo : InMemoryRepository) (scanId : String) : Option (String × String) :=
  (repo.scans.get? scanId).map fun record => (record.tenantId, record.endpointId)

theorem owner_set {repo repo' : InMemoryRepository} {k : String} {record record' : ScanRecord}
    (hscans : repo'.scans = repo.scans.set k record') (hfound : repo.scans.get? k = some record)
    (hsame : record'.tenantId = record.tenantId ∧ record'.endpointId = record.endpointId)
    (scanId : String) : owner repo' scanId = owner repo scanId := by
  rw [owner, owner, hscans, Dict.get?_set]
  by_cases hk : k = scanId
  · subst hk
    rw [if_pos rfl, hfound, Option.map_some, Option.map_some, hsame.1, hsame.2]
  · rw [if_neg hk]

theorem owner_congr {repo repo' : InMemoryRepository} (hscans : repo'.scans = repo.scans)
    (scanId : String) : owner repo' scanId = owner repo scanId := by
  rw [owner, owner, hscans]

theorem pollRecord_owner {principal : DevicePrincipal} {now : Timestamp}
    {repo : InMemoryRepository} (record : ScanRecord) :
    (pollRecord rt principal now repo record).tenantId = record.tenantId ∧
      (pollRecord rt principal now repo record).endpointId = record.endpointId := by
  unfold pollRecord
  split
  · exact ⟨rfl, rfl⟩
  · split <;> exact ⟨rfl, rfl⟩

/-- A scan keeps its owner, and only the creation of a job gives an owner to a new one. -/
theorem owner_step {repo : InMemoryRepository} (hkeys : ScanKeys repo.scans) (call : Call)
    (scanId : String) : owner (call.step rt repo) scanId = owner repo scanId ∨
      owner repo scanId = none ∧ ∃ tenantId endpointId jobId job now key digest auditedAt,
        call = .scan (.createScanJob tenantId endpointId scanId jobId job now key digest
          auditedAt) := by
  cases call with
  | identity call =>
    left
    cases call with
    | createEnrollmentGrant =>
      rcases createEnrollmentGrant_effect (Prod.mk.eta).symm with
        ⟨h, -⟩ | ⟨-, -, -, _, h⟩ <;> rw [Call.step, IdentityCall.step, h] <;> exact owner_congr rfl _
    | enrollEndpoint =>
      rcases enrollEndpoint_effect (Prod.mk.eta).symm with
        ⟨h, -⟩ | ⟨_, -, -, -, -, -, _, h⟩ <;> rw [Call.step, IdentityCall.step, h] <;>
          exact owner_congr rfl scanId
    | rotateCredential =>
      rcases rotateCredential_effect (Prod.mk.eta).symm with
        ⟨h, -⟩ | ⟨_, _, _, -, -, -, _, h⟩ <;> rw [Call.step, IdentityCall.step, h] <;>
          exact owner_congr rfl scanId
  | scan call =>
    cases call with
    | createScanJob tenantId endpointId createdId jobId job now key digest auditedAt =>
      rcases createScanJob_effect (Prod.mk.eta).symm with
        ⟨h, -⟩ | ⟨-, -, hfresh, -, _, h⟩ <;> rw [Call.step, ScanCall.step, h]
      · exact Or.inl rfl
      · by_cases hk : createdId = scanId
        · subst hk
          refine Or.inr ⟨?_, tenantId, endpointId, jobId, job, now, key, digest, auditedAt, rfl⟩
          exact congrArg (Option.map _) hfresh
        · left
          rw [owner, owner]
          show ((repo.scans.set createdId _).get? scanId).map _ = _
          rw [Dict.get?_set_ne hk]
    | claimNextJob principal now =>
      left
      obtain ⟨⟨_, h⟩, -⟩ := claimNextJob_effect (Prod.mk.eta).symm
      rw [Call.step, ScanCall.step, h, owner, owner]
      show ((polledScans rt principal now (dispatchOrder repo) repo.scans).get? scanId).map _ = _
      rw [get?_polledScans hkeys]
      cases repo.scans.get? scanId with
      | none => rfl
      | some record =>
        obtain ⟨htenant, hendpoint⟩ := @pollRecord_owner rt principal now repo record
        rw [Option.map_some, Option.map_some, Option.map_some, htenant, hendpoint]
    | ingestScan =>
      left
      rcases ingestScan_effect (Prod.mk.eta).symm with
        ⟨h, -⟩ | ⟨record, _, -, source, -, _, h⟩ <;> rw [Call.step, ScanCall.step, h]
      refine owner_set rfl source.found ?_ scanId
      exact ⟨rfl, rfl⟩
    | recordScanStatus =>
      left
      rcases recordScanStatus_effect (Prod.mk.eta).symm with
        ⟨h, -⟩ | ⟨record, -, ⟨hfound, -⟩, -, -, _, h⟩ <;> rw [Call.step, ScanCall.step, h]
      refine owner_set rfl hfound ?_ scanId
      exact ⟨rfl, rfl⟩
    | recordRejection =>
      left
      rcases recordRejection_effect (Prod.mk.eta).symm with
        ⟨h, -⟩ | ⟨_ | record, -, hrecord, -, _, h⟩ <;> rw [Call.step, ScanCall.step, h]
      · exact owner_congr rfl scanId
      · refine owner_set rfl (rejectedScan_eq_some hrecord).1 ?_ scanId
        exact ⟨rfl, rfl⟩
    | claimAnalysisTask =>
      left
      rcases claimAnalysisTask_effect (Prod.mk.eta).symm with
        ⟨h, -⟩ | ⟨_, _, -, -, -, -, h⟩ <;> rw [Call.step, ScanCall.step, h]
      exact owner_congr rfl scanId
    | completeAnalysisTask =>
      left
      rcases completeAnalysisTask_effect (Prod.mk.eta).symm with
        ⟨h, -⟩ | ⟨_, -, -, h⟩ <;> rw [Call.step, ScanCall.step, h]
      exact owner_congr rfl scanId
    | failAnalysisTask =>
      left
      rcases failAnalysisTask_effect (Prod.mk.eta).symm with
        ⟨h, -⟩ | ⟨_, -, -, h⟩ <;> rw [Call.step, ScanCall.step, h]
      exact owner_congr rfl scanId
    | finalizeScanReport =>
      left
      rcases finalizeScanReport_effect (Prod.mk.eta).symm with
        h | ⟨_, hfound, -, -, -, _, h⟩ <;> rw [Call.step, ScanCall.step, h]
      refine owner_set rfl hfound ?_ scanId
      exact ⟨rfl, rfl⟩
    | finalizeScanReportFailure =>
      left
      rcases finalizeScanReportFailure_effect (Prod.mk.eta).symm with
        h | ⟨_, hfound, -, -, _, h⟩ <;> rw [Call.step, ScanCall.step, h]
      refine owner_set rfl hfound ?_ scanId
      exact ⟨rfl, rfl⟩

/-- The owner of a scan stays the same. -/
theorem owner_later {events later : List (Event ι)} {scanId : String} {o : String × String}
    (h : owner (reached rt events) scanId = some o) :
    owner (reached rt (events ++ later)) scanId = some o := by
  induction later generalizing events with
  | nil =>
    rw [List.append_nil]
    exact h
  | cons event later ih =>
    rw [List.append_cons]
    refine ih ?_
    rw [reached_append]
    have hkeys := scanKeys_run rt (events.map Event.call)
    rcases owner_step hkeys event.call scanId with hsame | ⟨hnone, -⟩
    · exact hsame.trans h
    · exact absurd (h.symm.trans hnone) (by simp)

/-- No device has drawn the identifier of a scan that the platform has created. -/
theorem not_drawn_of_owner {events : List (Event ι)}
    (hpermitted : Throughout (Permitted rt device) events) {scanId : String} {o : String × String}
    (h : owner (reached rt events) scanId = some o) (i : ι) : scanId ∉ (device i).drawn := by
  induction events using List.reverseRecOn with
  | nil => cases h
  | append_singleton events event ih =>
    rw [reached_append] at h
    have hkeys := scanKeys_run rt (events.map Event.call)
    rcases @owner_step rt _ hkeys event.call scanId with
      hsame | ⟨-, tenantId, endpointId, jobId, job, now, key, digest, auditedAt, hcall⟩
    · exact ih hpermitted.mono (hsame.symm.trans h)
    · have hsent := hpermitted events event [] rfl
      unfold Permitted at hsent
      rw [hcall] at hsent
      -- only the platform creates jobs
      cases hsender : event.sender with
      | none =>
        rw [hsender] at hsent
        exact hsent i
      | some j =>
        rw [hsender] at hsent
        exact hsent.elim

/-- A scan that was delivered to a device is its own. -/
theorem owner_of_delivered {events : List (Event ι)}
    (hpermitted : Throughout (Permitted rt device) events) {i : ι} {scanId : String}
    (h : Delivered rt events i scanId) :
    owner (reached rt events) scanId = some ((device i).tenantId, (device i).endpointId) := by
  obtain ⟨before, poll, after, principal, now, auditedAt, record, rfl, hsender, hcall, hanswer, rfl⟩ :=
    h
  refine owner_later ?_
  have hsent := hpermitted before poll after rfl
  unfold Permitted at hsent
  rw [hsender, hcall] at hsent
  obtain ⟨htenant, hendpoint⟩ := show (device i).Presents principal from hsent
  rw [hcall] at hanswer
  obtain ⟨found, hfound, hjob⟩ := map_eq_ok.mp
    ((run_map_fst Answer.job (claimNextJob rt principal now auditedAt) (reached rt before)).symm.trans
      hanswer)
  cases hjob
  have hrecord := (claimNextJob_effect (Prod.mk.eta).symm).2 _ hfound
  obtain ⟨candidate, hcandidate, rfl⟩ := Option.map_eq_some_iff.mp hrecord.symm
  have hstored := (mem_dispatchOrder (scanKeys_run rt (before.map Event.call))).mp
    (List.mem_of_find?_eq_some hcandidate)
  have hout := List.find?_some hcandidate
  rw [handsOut, Bool.and_eq_true, decide_eq_true_eq] at hout
  have hown : owner (reached rt before) candidate.scanId =
      some (candidate.tenantId, candidate.endpointId) := congrArg (Option.map _) hstored
  rw [show (dispatchedRecord now candidate).scanId = candidate.scanId from rfl, hown, hout.1.1,
    hout.1.2.1, htenant, hendpoint]

/-- A request that leaves a record on a scan comes from the owner of the scan. -/
theorem owner_of_records {repo : InMemoryRepository} {call : Call} {id : IdempotencyKey}
    {digest : String} {response : Response} {scanId : String} {principal : DevicePrincipal}
    (h : Records rt repo call id digest response)
    (hcall : (∃ upload key digest osvTaskId depscanTaskId submittedAt now auditedAt, call =
        .scan (.ingestScan principal scanId upload key digest osvTaskId depscanTaskId submittedAt now
          auditedAt)) ∨
      ∃ status key digest now auditedAt,
        call = .scan (.recordScanStatus principal scanId status key digest now auditedAt)) :
    owner repo scanId = some (principal.tenantId, principal.endpointId) := by
  have hwrites : call.step rt repo ≠ repo := by
    intro hsame
    have hrecorded := congrArg (fun d => d.get? id) h.recorded
    rw [hsame, Dict.get?_set_self, h.fresh] at hrecorded
    cases hrecorded
  obtain ⟨upload, key, digest, osvTaskId, depscanTaskId, submittedAt, now, auditedAt, rfl⟩ |
    ⟨status, key, digest, now, auditedAt, rfl⟩ := hcall
  · rcases ingestScan_effect (Prod.mk.eta).symm with ⟨hsame, -⟩ | ⟨record, _, -, source, -⟩
    · exact absurd hsame hwrites
    · rw [owner, source.found, Option.map_some, source.tenant, source.endpointId]
  · rcases recordScanStatus_effect (Prod.mk.eta).symm with
      ⟨hsame, -⟩ | ⟨record, -, ⟨hfound, htenant, hendpoint⟩, -⟩
    · exact absurd hsame hwrites
    · rw [owner, hfound, Option.map_some, htenant, hendpoint]

/-! ## The triples of a device -/

/-- The operations that a scan is named in. -/
def OnScan (scanId operation : String) : Prop :=
  operation = ingestOperation scanId ∨ operation = scanStatusOperation scanId

/-- What the triple of a request shows of the device that has sent it. -/
inductive Marks (rt : Runtime) (device : Device) (known : String → Prop) (call : Call)
    (id : IdempotencyKey) : Prop where
  | enroll (operation : id.operation = "enroll") (drawn : id.key ∈ device.drawn)
  | rotate (operation : id.operation = rotateOperation device.endpointId)
  | upload (scanId : String) (operation : OnScan scanId id.operation) (works : known scanId)
      (owns : ∀ repo digest response, Records rt repo call id digest response →
        owner repo scanId = some (device.tenantId, device.endpointId))
  | reject (documentSha256 : String) (operation : id.operation = rejectionOperation documentSha256)
      (rejected : call.rejected = some (id.tenant, documentSha256))

theorem Device.Sends.marks {d : Device} {known : String → Prop} {call : Call}
    {id : IdempotencyKey} {digest : String} (h : d.Sends rt known call)
    (hrequest : call.request = some (id, digest)) :
    id.tenant = d.tenantId ∧ Marks rt d known call id := by
  cases call with
  | identity call =>
    cases call with
    | createEnrollmentGrant => exact h.elim
    | enrollEndpoint =>
      cases hrequest
      exact ⟨h.1, .enroll rfl h.2⟩
    | rotateCredential =>
      cases hrequest
      exact ⟨h.1.1, .rotate (congrArg rotateOperation h.1.2)⟩
  | scan call =>
    cases call with
    | ingestScan principal scanId =>
      cases hrequest
      obtain ⟨⟨htenant, hendpoint⟩, hknown, -⟩ := h
      refine ⟨htenant, .upload scanId (Or.inl rfl) hknown fun repo digest response hrecords => ?_⟩
      rw [← htenant, ← hendpoint]
      exact owner_of_records hrecords (Or.inl ⟨_, _, _, _, _, _, _, _, rfl⟩)
    | recordScanStatus principal scanId =>
      cases hrequest
      obtain ⟨⟨htenant, hendpoint⟩, hknown, -⟩ := h
      refine ⟨htenant, .upload scanId (Or.inr rfl) hknown fun repo digest response hrecords => ?_⟩
      rw [← htenant, ← hendpoint]
      exact owner_of_records hrecords (Or.inr ⟨_, _, _, _, _, rfl⟩)
    | recordRejection principal payload =>
      cases hrequest
      exact ⟨h.1.1, .reject payload.documentSha256 rfl rfl⟩
    | claimNextJob => cases hrequest
    | _ => exact h.elim

/-- The first letters of an operation. -/
def operationTag (operation : String) : List Char := operation.toList.take 2

@[simp] theorem operationTag_enroll : operationTag "enroll" = ['e', 'n'] := by decide

@[simp] theorem operationTag_rotate (endpointId : String) :
    operationTag (rotateOperation endpointId) = ['r', 'o'] := by
  simp [operationTag, rotateOperation]

@[simp] theorem operationTag_ingest (scanId : String) :
    operationTag (ingestOperation scanId) = ['i', 'n'] := by
  simp [operationTag, ingestOperation]

@[simp] theorem operationTag_scanStatus (scanId : String) :
    operationTag (scanStatusOperation scanId) = ['s', 'c'] := by
  simp [operationTag, scanStatusOperation]

@[simp] theorem operationTag_rejection (documentSha256 : String) :
    operationTag (rejectionOperation documentSha256) = ['r', 'e'] := by
  simp [operationTag, rejectionOperation]

/-- The platform's own operations are none of a device. -/
theorem PlatformSends.not_marks {call made : Call} {id : IdempotencyKey} {d : Device}
    {digest : String} {known : String → Prop} (hplatform : PlatformSends device made)
    (hrequest : made.request = some (id, digest)) (h : Marks rt d known call id) : False := by
  have htag : operationTag id.operation = ['c', 'r'] := by
    cases made with
    | identity made =>
      cases made with
      | createEnrollmentGrant =>
        cases hrequest
        exact show operationTag "create-enrollment-grant" = ['c', 'r'] by decide
      | _ => exact hplatform.elim
    | scan made =>
      cases made with
      | createScanJob =>
        cases hrequest
        exact show operationTag "create-scan" = ['c', 'r'] by decide
      | ingestScan => exact hplatform.elim
      | recordScanStatus => exact hplatform.elim
      | recordRejection => exact hplatform.elim
      | _ => cases hrequest
  cases h with
  | enroll operation => simp [operation] at htag
  | rotate operation => simp [operation] at htag
  | upload scanId operation => rcases operation with h | h <;> simp [h] at htag
  | reject documentSha256 operation => simp [operation] at htag

theorem OnScan.unique {scanId scanId' operation : String} (h : OnScan scanId operation)
    (h' : OnScan scanId' operation) : scanId = scanId' := by
  have hinjective : ∀ a b c : String, a ++ b = a ++ c → b = c := by
    intro a b c heq
    simpa [String.ext_iff] using heq
  rcases h with h | h <;> rcases h' with h' | h'
  · exact hinjective "ingest:" scanId scanId' (h.symm.trans h')
  · exact absurd (congrArg operationTag (h.symm.trans h')) (by simp)
  · exact absurd (congrArg operationTag (h.symm.trans h')) (by simp)
  · exact hinjective "scan-status:" scanId scanId' (h.symm.trans h')

/-- Two devices leave the same mark only on a body that both reject. -/
theorem Marks.rejected_of_both {d d' : Device} {known known' : String → Prop}
    {call call' : Call} {id : IdempotencyKey} (h : Marks rt d known call id)
    (h' : Marks rt d' known' call' id) (hdrawn : Disjoint d.drawn d'.drawn)
    (hendpoint : d.endpointId ≠ d'.endpointId)
    (howner : ∀ scanId, OnScan scanId id.operation → known scanId →
      (∀ repo digest response, Records rt repo call' id digest response →
        owner repo scanId = some (d'.tenantId, d'.endpointId)) → False) :
    ∃ rejected, call.rejected = some rejected ∧ call'.rejected = some rejected := by
  have hne : ∀ {a b : String}, id.operation = a → id.operation = b →
      operationTag a = operationTag b := fun ha hb => congrArg operationTag (ha.symm.trans hb)
  cases h with
  | enroll operation drawn =>
    cases h' with
    | enroll _ drawn' => exact absurd drawn' (Set.disjoint_left.mp hdrawn drawn)
    | rotate operation' => simpa using hne operation operation'
    | upload _ operation' =>
      rcases operation' with operation' | operation' <;> simpa using hne operation operation'
    | reject _ operation' => simpa using hne operation operation'
  | rotate operation =>
    cases h' with
    | enroll operation' => simpa using hne operation operation'
    | rotate operation' =>
      have heq := operation.symm.trans operation'
      exact absurd (by simpa [rotateOperation, String.ext_iff] using heq) hendpoint
    | upload _ operation' =>
      rcases operation' with operation' | operation' <;> simpa using hne operation operation'
    | reject _ operation' => simpa using hne operation operation'
  | upload scanId operation works =>
    cases h' with
    | enroll operation' =>
      rcases operation with operation | operation <;> simpa using hne operation operation'
    | rotate operation' =>
      rcases operation with operation | operation <;> simpa using hne operation operation'
    | upload scanId' operation' _ owns' =>
      cases operation.unique operation'
      exact (howner scanId operation works owns').elim
    | reject _ operation' =>
      rcases operation with operation | operation <;> simpa using hne operation operation'
  | reject documentSha256 operation rejected =>
    cases h' with
    | enroll operation' => simpa using hne operation operation'
    | rotate operation' => simpa using hne operation operation'
    | upload _ operation' =>
      rcases operation' with operation' | operation' <;> simpa using hne operation operation'
    | reject documentSha256' operation' rejected' =>
      have heq := operation.symm.trans operation'
      obtain rfl : documentSha256 = documentSha256' := by
        simpa [rejectionOperation, String.ext_iff] using heq
      exact ⟨_, rejected, rejected'⟩

end

/--
In every run in which no endpoint rejects a body that another one has reported before, no request
of an endpoint is answered from the record of a request of another sender.
-/
theorem answered_on_its_own {ι : Type} (rt : Runtime) (device : ι → Device)
    (hdistinct : Distinct device) (events : List (Event ι))
    (hpermitted : Throughout (Permitted rt device) events)
    (hfirst : Throughout FirstToReject events) :
    Throughout (fun before event => ∀ i, event.sender = some i →
      ∀ other ≠ some i, ¬ AnsweredBecauseOf rt before event other) events := by
  rintro before event after rfl i hsender other hother
    ⟨id, digest, recorded, hrequest, -, earlier, made, later, rfl, rfl, hrecords⟩
  have hsent := hpermitted (earlier ++ made :: later) event after rfl
  unfold Permitted at hsent
  rw [hsender] at hsent
  obtain ⟨htenant, hmarks⟩ := Device.Sends.marks hsent hrequest
  have hmade := hpermitted earlier made (later ++ event :: after) (by simp)
  unfold Permitted at hmade
  cases hmadeSender : made.sender with
  | none =>
    rw [hmadeSender] at hmade
    exact hmade.not_marks hrecords.request hmarks
  | some j =>
    rw [hmadeSender] at hmade hother
    obtain ⟨htenant', hmarks'⟩ := Device.Sends.marks hmade hrecords.request
    have hij : i ≠ j := fun h => hother (congrArg some h.symm)
    have hendpoint : (device i).endpointId ≠ (device j).endpointId := fun h =>
      hij (hdistinct.identity i j (htenant.symm.trans htenant') h)
    have howner : ∀ scanId, OnScan scanId id.operation →
        Known rt device (earlier ++ made :: later) i scanId →
        (∀ repo digest response, Records rt repo made.call id digest response →
          owner repo scanId = some ((device j).tenantId, (device j).endpointId)) → False := by
      -- an upload names a scan of its own device
      intro scanId _ hknown howns
      have howner : owner (reached rt (earlier ++ made :: later)) scanId =
          some ((device j).tenantId, (device j).endpointId) := owner_later (howns _ _ _ hrecords)
      rcases hknown with hdelivered | hdrawn
      · have howner' := owner_of_delivered hpermitted.mono hdelivered
        rw [howner, Option.some.injEq, Prod.mk.injEq] at howner'
        exact hendpoint howner'.2.symm
      · exact not_drawn_of_owner hpermitted.mono howner i hdrawn
    obtain ⟨rejected, hrejected, hrejected'⟩ := hmarks.rejected_of_both hmarks'
      (hdistinct.drawn i j hij) hendpoint howner
    refine hfirst _ event after rfl made (by simp) ?_ rejected hrejected hrejected'
    rw [hmadeSender, hsender]
    exact hother

/-! ## Two endpoints that reject a body -/

/-- Two endpoints of one tenant. -/
def twoDevices (second : Bool) : Device where
  tenantId := "tenant"
  endpointId := if second then "endpoint-2" else "endpoint-1"
  drawn := ∅

/-- What `submit_rejection` makes of a rejection of the body by one of them. -/
def rejects (second : Bool) (body : String) : Event Bool :=
  let endpointId := (twoDevices second).endpointId
  let fingerprint := Runtime.sample.hashText body
  ⟨some second, .scan (.recordRejection ⟨"tenant", endpointId, "credential-" ++ endpointId, 1⟩
    { endpointId := endpointId, reason := .invalidJson, documentSha256 := fingerprint }
    (rejectionKey fingerprint)
    (requestHash Runtime.sample [("endpoint_id", .str endpointId),
      ("reason", .str RejectionReason.invalidJson.text), ("document_sha256", .str fingerprint)])
    (seconds 1700000000) (seconds 1700000000))⟩

theorem distinct_twoDevices : Distinct twoDevices where
  identity := by decide
  drawn := fun _ _ _ => Set.disjoint_empty _

theorem permitted_rejects (before : List (Event Bool)) (second : Bool) (body : String) :
    Permitted Runtime.sample twoDevices before (rejects second body) :=
  ⟨⟨rfl, rfl⟩, rfl, ⟨utf8Bytes body, rfl⟩, rfl⟩

/-- Both reject something, but not the same. -/
theorem answered_on_its_own_two_bodies :
    Throughout (fun before event => ∀ i, event.sender = some i →
      ∀ other ≠ some i, ¬ AnsweredBecauseOf Runtime.sample before event other)
      [rejects false "\x7b", rejects true "["] := by
  refine answered_on_its_own Runtime.sample twoDevices distinct_twoDevices _
    (throughout_pair (permitted_rejects _ _ _) (permitted_rejects _ _ _))
    (throughout_pair (fun past hpast => nomatch hpast) ?_)
  intro past hpast _ rejected hrejected
  rw [List.mem_singleton.mp hpast]
  have hne : (rejects true "[").call.rejected ≠ (rejects false "\x7b").call.rejected := by
    decide +kernel
  exact fun h => hne (hrejected.trans h.symm)

/-- Both receive the same page instead of a job; the second one gets a conflict. -/
theorem same_body_conflicts :
    Throughout (Permitted Runtime.sample twoDevices) [rejects false "<html>", rejects true "<html>"] ∧
      AnsweredBecauseOf Runtime.sample [rejects false "<html>"] (rejects true "<html>")
        (some false) ∧
      (rejects true "<html>").call.answer Runtime.sample
          (reached Runtime.sample [rejects false "<html>"]) =
        fail .idempotencyConflict "idempotency key was reused with different content" := by
  have hanswer : (rejects false "<html>").call.answer Runtime.sample {} =
      .ok (.response .accepted) := by decide +kernel
  refine ⟨throughout_pair (permitted_rejects _ _ _) (permitted_rejects _ _ _), ?_, by decide +kernel⟩
  rcases @Call.records_or_same Runtime.sample {} (rejects false "<html>").call _ _ rfl with
    ⟨-, h⟩ | ⟨response, hrecords⟩
  · obtain ⟨e, he⟩ := h rfl
    rw [hanswer] at he
    cases he
  · refine ⟨_, _, (_, response), rfl, ?_, [], rejects false "<html>", [], rfl, rfl, hrecords⟩
    show ((rejects false "<html>").call.step Runtime.sample {}).idempotency.get? _ = _
    rw [hrecords.recorded]
    exact Dict.get?_set_self _ _ _

end OsScanner.Cloud

import Mathlib
import OsScanner.Endpoint.Sbom
import OsScanner.Json.Dump
import OsScanner.Storage.ScanJobs

/-!
# Delivering a job again

`ScannerOrchestrator.execute` dumps the job and creates its row with the digest of the dump. Four
fields of a job are sets, and the digest depends on the order in which the process iterates
them. So a job that is delivered again after a restart is recognized for certain only when none
of these sets has two elements.
-/

namespace OsScanner.Endpoint

open Lib Storage

/-! ## Jobs -/

/-- `AuthorizationScope`, with the fields that are dumped. Networks are given as their texts. -/
structure JobAuthorization where
  scopeId : String
  authorized : Bool
  authorizationReference : String
  authorizedBy : Option String := none
  purpose : Option String := none
  validFrom : Timestamp
  expiresAt : Timestamp
  allowedEndpointIds : Finset String := ∅
  allowedDomains : Finset String := ∅
  excludedDomains : Finset String := ∅
  allowSubdomains : Bool := true
  allowedNetworks : List String := []
  excludedNetworks : List String := []

/-- `ScanJob` -/
structure ScanJob where
  jobId : String
  scanId : String
  scanType : ScanType
  authorization : JobAuthorization
  endpointId : Option String := none
  target : Option String := none
  policyId : String := "enterprise-default"
  policyVersion : Option String := none
  approvedCollectors : Finset String := ∅
  approvedSources : List String := []
  initiatedBy : Option String := none
  requestedAt : Timestamp
  notBefore : Option Timestamp := none
  deadline : Option Timestamp := none
  timeoutSeconds : Int := 900
  priority : Int := 50
  parameters : JsonObject := []

/-- A field that `exclude_none` leaves out when it is absent. -/
def optionalField (name : String) (value : Option Json) : List (String × Model) :=
  value.toList.map fun v => (name, .value v)

def textField (name value : String) : String × Model := (name, .value (.str value))

section

variable (timeText : Timestamp → String)

/-- What `model_dump` reads of an authorization; `timeText` is how it writes a timestamp. -/
def JobAuthorization.fields (authorization : JobAuthorization) : List (String × Model) :=
  [textField "scope_id" authorization.scopeId,
    ("authorized", .value (.bool authorization.authorized)),
    textField "authorization_reference" authorization.authorizationReference] ++
  optionalField "authorized_by" (authorization.authorizedBy.map .str) ++
  optionalField "purpose" (authorization.purpose.map .str) ++
  [textField "valid_from" (timeText authorization.validFrom),
    textField "expires_at" (timeText authorization.expiresAt),
    ("allowed_endpoint_ids", .set authorization.allowedEndpointIds),
    ("allowed_domains", .set authorization.allowedDomains),
    ("excluded_domains", .set authorization.excludedDomains),
    ("allow_subdomains", .value (.bool authorization.allowSubdomains)),
    ("allowed_networks", .value (.arr (authorization.allowedNetworks.map .str))),
    ("excluded_networks", .value (.arr (authorization.excludedNetworks.map .str)))]

/-- `job.model_dump(mode="json", exclude_none=True)` -/
def ScanJob.fields (job : ScanJob) : List (String × Model) :=
  [textField "job_id" job.jobId,
    textField "scan_id" job.scanId,
    textField "scan_type" job.scanType.value,
    ("authorization", .record (job.authorization.fields timeText))] ++
  optionalField "endpoint_id" (job.endpointId.map .str) ++
  optionalField "target" (job.target.map .str) ++
  [textField "policy_id" job.policyId] ++
  optionalField "policy_version" (job.policyVersion.map .str) ++
  [("approved_collectors", .set job.approvedCollectors),
    ("approved_sources", .value (.arr (job.approvedSources.map .str)))] ++
  optionalField "initiated_by" (job.initiatedBy.map .str) ++
  [textField "requested_at" (timeText job.requestedAt)] ++
  optionalField "not_before" (job.notBefore.map fun t => .str (timeText t)) ++
  optionalField "deadline" (job.deadline.map fun t => .str (timeText t)) ++
  [("timeout_seconds", .value (.int job.timeoutSeconds)),
    ("priority", .value (.int job.priority)),
    ("parameters", .value (.obj job.parameters))]

/-- `job_payload`: one dump of the job, with its status and its initiator. -/
def jobPayload (job : ScanJob) (dump : JsonObject) : JsonObject :=
  (dump.set "status" (.str OverallStatus.queued.value)).set "initiator"
    (Json.ofOption job.initiatedBy)

/-- The sets that a process may iterate in more than one order. -/
def ScanJob.SmallSets (job : ScanJob) : Prop :=
  job.authorization.allowedEndpointIds.card ≤ 1 ∧ job.authorization.allowedDomains.card ≤ 1 ∧
    job.authorization.excludedDomains.card ≤ 1 ∧ job.approvedCollectors.card ≤ 1

/--
What delivering a job again relies on: all its dumps have one digest, and after one of them was
created, and whatever happened to other scans and to this one short of deleting it, creating
another one finds it there.
-/
structure Redelivers (rt : Runtime) (job : ScanJob) : Prop where
  digest : ∀ dump dump', Model.DumpsFields (job.fields timeText) dump →
    Model.DumpsFields (job.fields timeText) dump' →
      jobDigest rt (jobPayload job dump) = jobDigest rt (jobPayload job dump')
  resumes : ∀ dump dump', Model.DumpsFields (job.fields timeText) dump →
    Model.DumpsFields (job.fields timeText) dump' →
      ∀ pyStr now now' jobs jobs' created calls scanId,
        (createScanJob rt pyStr now (jobPayload job dump)).run jobs = (.ok created, jobs') →
        cleanIdentifier (.str job.scanId) "scan_id" = .ok scanId →
        Guarded (JobCall.step rt) (fun jobs call => call.Retains scanId jobs) jobs' calls →
          (createScanJob rt pyStr now' (jobPayload job dump')).run
              (runFrom (JobCall.step rt) jobs' calls) =
            (.ok false, runFrom (JobCall.step rt) jobs' calls)

variable {timeText} {rt : Runtime}

/-! ## The payload as a model -/

/-- Assigning an absent field appends it. -/
theorem set_of_not_mem {document : JsonObject} {name : String} (h : name ∉ document.map Prod.fst)
    (value : Json) : document.set name value = document ++ [(name, value)] := by
  induction document with
  | nil => rfl
  | cons e document ih =>
    obtain ⟨k, v⟩ := e
    rw [List.map_cons, List.mem_cons, not_or] at h
    show Assoc.insert name value ((k, v) :: document) = _
    rw [Assoc.insert, if_neg (Ne.symm h.1)]
    exact congrArg _ (ih h.2)

theorem optionalField_sublist (name : String) (value : Option Json) :
    ((optionalField name value).map Prod.fst).Sublist [name] := by
  cases value with
  | none => exact List.nil_sublist _
  | some v => exact List.Sublist.refl _

/-- The names of a job's fields. -/
theorem fields_sublist (job : ScanJob) : ((job.fields timeText).map Prod.fst).Sublist
    ["job_id", "scan_id", "scan_type", "authorization", "endpoint_id", "target", "policy_id",
      "policy_version", "approved_collectors", "approved_sources", "initiated_by", "requested_at",
      "not_before", "deadline", "timeout_seconds", "priority", "parameters"] := by
  unfold ScanJob.fields
  simp only [List.map_append]
  have h : ∀ name value, ((optionalField name value).map Prod.fst).Sublist [name] :=
    optionalField_sublist
  have happend := ((((((((List.Sublist.refl ["job_id", "scan_id", "scan_type", "authorization"]).append
    (h "endpoint_id" (job.endpointId.map .str))).append
    (h "target" (job.target.map .str))).append (List.Sublist.refl ["policy_id"])).append
    (h "policy_version" (job.policyVersion.map .str))).append
    (List.Sublist.refl ["approved_collectors", "approved_sources"])).append
    (h "initiated_by" (job.initiatedBy.map .str))).append (List.Sublist.refl ["requested_at"])).append
    (h "not_before" (job.notBefore.map fun t => .str (timeText t)))
  exact (happend.append (h "deadline" (job.deadline.map fun t => .str (timeText t)))).append
    (List.Sublist.refl ["timeout_seconds", "priority", "parameters"])

theorem not_mem_fields {job : ScanJob} {name : String} (h : name = "status" ∨ name = "initiator") :
    name ∉ (job.fields timeText).map Prod.fst := by
  intro hmem
  have hname := (fields_sublist job).subset hmem
  obtain rfl | rfl := h
  · revert hname
    decide
  · revert hname
    decide

/-- The payload is the dump with two fields more. -/
theorem jobPayload_eq {job : ScanJob} {dump : JsonObject}
    (h : Model.DumpsFields (job.fields timeText) dump) :
    jobPayload job dump = dump ++
      [("status", .str OverallStatus.queued.value), ("initiator", Json.ofOption job.initiatedBy)] := by
  have hstatus : "status" ∉ dump.map Prod.fst := by
    rw [Model.map_fst_dumpsFields h]
    exact not_mem_fields (Or.inl rfl)
  have hinitiator : "initiator" ∉ (dump ++ [("status", Json.str OverallStatus.queued.value)]).map
      Prod.fst := by
    rw [List.map_append, Model.map_fst_dumpsFields h, List.mem_append, not_or]
    exact ⟨not_mem_fields (Or.inr rfl), by decide⟩
  rw [jobPayload, set_of_not_mem hstatus, set_of_not_mem hinitiator, List.append_assoc]
  rfl

/-- The payload as a model. -/
def ScanJob.payload (timeText : Timestamp → String) (job : ScanJob) : List (String × Model) :=
  job.fields timeText ++ [textField "status" OverallStatus.queued.value,
    ("initiator", .value (Json.ofOption job.initiatedBy))]

theorem dumpsFields_payload {job : ScanJob} {payload : JsonObject} :
    Model.DumpsFields (job.payload timeText) payload ↔
      ∃ dump, Model.DumpsFields (job.fields timeText) dump ∧ payload = jobPayload job dump := by
  rw [ScanJob.payload, Model.dumpsFields_append]
  constructor
  · rintro ⟨dump, added, rfl, hdump, ⟨status, _, rfl, hstatus, ⟨initiator, _, rfl, hinitiator, hnil⟩⟩⟩
    refine ⟨dump, hdump, ?_⟩
    rw [jobPayload_eq hdump, show status = _ from hstatus, show initiator = _ from hinitiator,
      show _ = [] from hnil]
  · rintro ⟨dump, hdump, rfl⟩
    exact ⟨dump, _, jobPayload_eq hdump, hdump, _, _, rfl, rfl, _, _, rfl, rfl, rfl⟩

theorem smallFields_optionalField (name : String) (value : Option Json) :
    Model.SmallFields (optionalField name value) := by
  cases value with
  | none => trivial
  | some v => exact ⟨trivial, trivial⟩

theorem smallFields_payload (timeText : Timestamp → String) (job : ScanJob) :
    Model.SmallFields (job.payload timeText) ↔ job.SmallSets := by
  unfold ScanJob.payload ScanJob.fields JobAuthorization.fields
  simp only [Model.smallFields_append, smallFields_optionalField, Model.SmallFields, Model.Small,
    textField, and_true, true_and, ScanJob.SmallSets]
  tauto

/-! ## Digests -/

/-- Equal payloads give equal digests, and no two payloads of this job collide. -/
theorem digest_iff {job : ScanJob}
    (hcollision : ∀ dump dump', Model.DumpsFields (job.fields timeText) dump →
      Model.DumpsFields (job.fields timeText) dump' →
        jobDigest rt (jobPayload job dump) = jobDigest rt (jobPayload job dump') →
          Json.canonicalJson rt (.obj (jobPayload job dump)) =
            Json.canonicalJson rt (.obj (jobPayload job dump'))) :
    (∀ dump dump', Model.DumpsFields (job.fields timeText) dump →
      Model.DumpsFields (job.fields timeText) dump' →
        jobDigest rt (jobPayload job dump) = jobDigest rt (jobPayload job dump')) ↔
      job.SmallSets := by
  rw [← smallFields_payload timeText]
  constructor
  · intro h
    refine (Model.canonical_dumps_iff rt (.record (job.payload timeText))).mp fun v w hv hw => ?_
    cases v <;> try exact hv.elim
    cases w <;> try exact hw.elim
    obtain ⟨dump, hdump, rfl⟩ := dumpsFields_payload.mp hv
    obtain ⟨dump', hdump', rfl⟩ := dumpsFields_payload.mp hw
    exact hcollision dump dump' hdump hdump' (h dump dump' hdump hdump')
  · intro hsmall dump dump' hdump hdump'
    have hcanonical := (Model.canonical_dumps_iff rt (.record (job.payload timeText))).mpr hsmall
      (.obj (jobPayload job dump)) (.obj (jobPayload job dump'))
      (dumpsFields_payload.mpr ⟨dump, hdump, rfl⟩) (dumpsFields_payload.mpr ⟨dump', hdump', rfl⟩)
    exact congrArg rt.hashText hcanonical

/-! ## Delivering a job again -/

theorem get_payload {job : ScanJob} {dump : JsonObject}
    (h : Model.DumpsFields (job.fields timeText) dump) :
    (jobPayload job dump).get "scan_id" = .str job.scanId ∧
      getOr (jobPayload job dump) "scan_type" (.str "UNKNOWN") = .str job.scanType.value := by
  rw [jobPayload_eq h]
  obtain ⟨jobId, _, rfl, -, scanId, _, rfl, hscanId, scanType, rest, rfl, hscanType, -⟩ := h
  rw [show scanId = _ from hscanId, show scanType = _ from hscanType]
  exact ⟨rfl, rfl⟩

theorem cleanIdentifier_scanType (scanType : ScanType) :
    cleanIdentifier (.str scanType.value) "scan_type" 64 = .ok scanType.value := by
  cases scanType <;> decide +kernel

/-- A job that passes the checks is stored under its scan, and is no placeholder. -/
theorem checkJob_payload {job : ScanJob} {dump : JsonObject} {fields : JobFields}
    (hdump : Model.DumpsFields (job.fields timeText) dump)
    (h : checkJob (jobPayload job dump) = .ok fields) :
    cleanIdentifier (.str job.scanId) "scan_id" = .ok fields.scanId ∧
      fields.scanType ≠ "UNKNOWN" := by
  obtain ⟨hscanId, hscanType⟩ := get_payload hdump
  unfold checkJob at h
  rw [hscanId, hscanType, cleanIdentifier_scanType] at h
  cases hclean : cleanIdentifier (.str job.scanId) "scan_id" with
  | error e => rw [hclean] at h; cases h
  | ok scanId =>
    rw [hclean] at h
    cases hendpoint : jobEndpoint (jobPayload job dump) with
    | error e => rw [hendpoint] at h; cases h
    | ok endpointId =>
      rw [hendpoint] at h
      cases hstatus : cleanIdentifier (getOr (jobPayload job dump) "status" (.str "PENDING"))
          "status" 64 with
      | error e => rw [hstatus] at h; cases h
      | ok status =>
        rw [hstatus] at h
        cases h
        refine ⟨rfl, ?_⟩
        show job.scanType.value ≠ "UNKNOWN"
        cases job.scanType <;> decide

/-- A job whose sets are small is found again. -/
theorem resumes_of_small {job : ScanJob} (hsmall : job.SmallSets) {dump dump' : JsonObject}
    (hdump : Model.DumpsFields (job.fields timeText) dump)
    (hdump' : Model.DumpsFields (job.fields timeText) dump') {pyStr : Json → String}
    {now now' : String} {jobs jobs' : ScanJobs} {created : Bool} {calls : List JobCall}
    {scanId : String}
    (hcreate : (createScanJob rt pyStr now (jobPayload job dump)).run jobs = (.ok created, jobs'))
    (hscanId : cleanIdentifier (.str job.scanId) "scan_id" = .ok scanId)
    (hcalls : Guarded (JobCall.step rt) (fun jobs call => call.Retains scanId jobs) jobs' calls) :
    (createScanJob rt pyStr now' (jobPayload job dump')).run (runFrom (JobCall.step rt) jobs' calls)
      = (.ok false, runFrom (JobCall.step rt) jobs' calls) := by
  have hsmallFields := (smallFields_payload timeText job).mpr hsmall
  have hpayload : jobPayload job dump = jobPayload job dump' := Json.obj.inj <|
    Model.Small.dumps_unique (m := .record (job.payload timeText)) hsmallFields
      (dumpsFields_payload.mpr ⟨dump, hdump, rfl⟩) (dumpsFields_payload.mpr ⟨dump', hdump', rfl⟩)
  obtain ⟨fields, hcheck, hstored⟩ := createScanJob_ok hcreate
  obtain ⟨hclean, hknown⟩ := checkJob_payload hdump hcheck
  rw [hclean, Except.ok.injEq] at hscanId
  subst hscanId
  have hholds : HoldsJob jobs' fields.scanId (jobDigest rt (jobPayload job dump)) := by
    obtain ⟨-, rfl, hholds⟩ | ⟨-, -, row, rfl, htype, hhash⟩ := hstored
    · exact hholds
    · exact ⟨row, Dict.get?_set_self _ _ _, htype ▸ hknown, hhash⟩
  have hlater := Guarded.invariant (P := fun jobs => HoldsJob jobs fields.scanId
    (jobDigest rt (jobPayload job dump))) (fun _ _ hretains h => h.step hretains) hcalls hholds
  rw [← hpayload]
  exact createScanJob_again hcheck hlater

/--
A job is recognized whenever it is delivered again exactly when none of its sets has two
elements.
-/
theorem redelivers_iff (rt : Runtime) (timeText : Timestamp → String) (job : ScanJob)
    (hcollision : ∀ dump dump', Model.DumpsFields (job.fields timeText) dump →
      Model.DumpsFields (job.fields timeText) dump' →
        jobDigest rt (jobPayload job dump) = jobDigest rt (jobPayload job dump') →
          Json.canonicalJson rt (.obj (jobPayload job dump)) =
            Json.canonicalJson rt (.obj (jobPayload job dump'))) :
    Redelivers timeText rt job ↔ job.SmallSets := by
  constructor
  · exact fun h => (digest_iff hcollision).mp h.digest
  · intro hsmall
    refine ⟨(digest_iff hcollision).mpr hsmall, ?_⟩
    intro dump dump' hdump hdump' pyStr now now' jobs jobs' created calls scanId hcreate hscanId
      hcalls
    exact resumes_of_small hsmall hdump hdump' hcreate hscanId hcalls

end

/-! ## A job with two domains -/

/-- A job for the attack surface of a domain. -/
def surfaceJob (domains : Finset String) : ScanJob where
  jobId := "job-1"
  scanId := "scan-1"
  scanType := .attackSurface
  target := some "example.org"
  requestedAt := 0
  authorization := {
    scopeId := "scope-1"
    authorized := true
    authorizationReference := "ticket-1"
    validFrom := 0
    expiresAt := 3600
    allowedDomains := domains }

/-- The dump of the job in a process that iterates the domains in this order. -/
def surfaceDump (order : List String) : JsonObject :=
  [("job_id", .str "job-1"), ("scan_id", .str "scan-1"), ("scan_type", .str "ATTACK_SURFACE"),
    ("authorization", .obj
      [("scope_id", .str "scope-1"), ("authorized", .bool true),
        ("authorization_reference", .str "ticket-1"), ("valid_from", .str "now"),
        ("expires_at", .str "now"), ("allowed_endpoint_ids", .arr []),
        ("allowed_domains", .arr (order.map .str)), ("excluded_domains", .arr []),
        ("allow_subdomains", .bool true), ("allowed_networks", .arr []),
        ("excluded_networks", .arr [])]),
    ("target", .str "example.org"), ("policy_id", .str "enterprise-default"),
    ("approved_collectors", .arr []), ("approved_sources", .arr []), ("requested_at", .str "now"),
    ("timeout_seconds", .int 900), ("priority", .int 50), ("parameters", .obj [])]

theorem dumps_surfaceJob {domains : Finset String} {order : List String}
    (h : Enumerates order domains) :
    Model.DumpsFields ((surfaceJob domains).fields fun _ => "now") (surfaceDump order) := by
  have hempty : Enumerates [] ∅ := ⟨List.nodup_nil, by simp⟩
  have hnone : Model.Dumps (.set ∅) (.arr []) := ⟨[], hempty, rfl⟩
  have hdomains : Model.Dumps (.set domains) (.arr (order.map .str)) := ⟨order, h, rfl⟩
  refine ⟨_, _, rfl, rfl, _, _, rfl, rfl, _, _, rfl, rfl, _, _, rfl, ?_, ?_⟩
  · exact ⟨_, _, rfl, rfl, _, _, rfl, rfl, _, _, rfl, rfl, _, _, rfl, rfl, _, _, rfl, rfl,
      _, _, rfl, hnone, _, _, rfl, hdomains, _, _, rfl, hnone, _, _, rfl, rfl, _, _, rfl, rfl,
      _, _, rfl, rfl, rfl⟩
  · exact ⟨_, _, rfl, rfl, _, _, rfl, rfl, _, _, rfl, hnone, _, _, rfl, rfl, _, _, rfl, rfl,
      _, _, rfl, rfl, _, _, rfl, rfl, _, _, rfl, rfl, rfl⟩

/-- With one domain the job is recognized. -/
theorem redelivers_surfaceJob :
    Redelivers (fun _ => "now") Runtime.sample (surfaceJob {"example.org"}) := by
  have hsmall : (surfaceJob {"example.org"}).SmallSets := by
    refine ⟨?_, ?_, ?_, ?_⟩ <;> decide
  refine (redelivers_iff Runtime.sample (fun _ => "now") (surfaceJob {"example.org"}) ?_).mpr hsmall
  intro dump dump' hdump hdump' _
  have hfields := (smallFields_payload (fun _ => "now") _).mpr hsmall
  exact congrArg _ (Model.Small.dumps_unique
    (m := .record ((surfaceJob {"example.org"}).payload fun _ => "now")) hfields
    (dumpsFields_payload.mpr ⟨dump, hdump, rfl⟩) (dumpsFields_payload.mpr ⟨dump', hdump', rfl⟩))

/-- The payload in a process that iterates the two domains in this order. -/
def twoDomains (order : List String) : JsonObject :=
  jobPayload (surfaceJob {"example.net", "example.org"}) (surfaceDump order)

/-- With two domains a process that iterates them the other way round raises. -/
theorem surfaceJob_conflicts :
    ¬ Redelivers (fun _ => "now") Runtime.sample (surfaceJob {"example.net", "example.org"}) ∧
      ∃ jobs,
        (createScanJob Runtime.sample (fun _ => "") "now"
          (twoDomains ["example.net", "example.org"])).run Dict.empty = (.ok true, jobs) ∧
        (createScanJob Runtime.sample (fun _ => "") "now"
          (twoDomains ["example.org", "example.net"])).run jobs =
            (.error ⟨.idempotencyConflict, "scan_id was reused with different job content"⟩,
              jobs) := by
  have hne : jobDigest Runtime.sample (twoDomains ["example.net", "example.org"]) ≠
      jobDigest Runtime.sample (twoDomains ["example.org", "example.net"]) := by
    unfold jobDigest Runtime.hashText Json.canonicalJson
    rw [utf8Bytes_ofList, utf8Bytes_ofList]
    decide +kernel
  constructor
  · intro h
    have hmem : ∀ name, name ∈ ["example.net", "example.org"] ↔
        name ∈ ({"example.net", "example.org"} : Finset String) := by simp
    have horder : Enumerates ["example.net", "example.org"] {"example.net", "example.org"} :=
      ⟨by decide, hmem⟩
    exact hne (h.digest _ _ (dumps_surfaceJob horder) (dumps_surfaceJob horder.reverse))
  · have hcheck : ∀ order, checkJob (twoDomains order) =
        .ok ⟨"scan-1", none, "ATTACK_SURFACE", "QUEUED"⟩ := fun order => rfl
    refine ⟨_, createScanJob_new (hcheck _) rfl, ?_⟩
    exact createScanJob_conflict (hcheck _) (Dict.get?_set_self _ _ _) (by decide) hne

end OsScanner.Endpoint

import Mathlib
import OsScanner.Cloud.Dispatch
import OsScanner.Endpoint.DiscoveryScope
import OsScanner.Endpoint.Redelivery

/-!
# Dispatching what can be executed

The cloud decides from the raw document of a job whether it may be delivered, the endpoint
decides from the validated job whether it may be executed. The document is a dump of the job, so
the two read the same instants; the cloud asks in addition that the authorization lists the
endpoint. For a job of an endpoint the validators have asked that already. A job for an attack
surface names no endpoint, and its authorization need not list any.
-/

namespace OsScanner.Endpoint

open Lib Check Storage

/-! ## Authorization and execution -/

/-- `is_active(at)` -/
def JobAuthorization.isActive (authorization : JobAuthorization) (instant : Timestamp) : Prop :=
  authorization.authorized = true ∧ authorization.validFrom ≤ instant ∧
    instant < authorization.expiresAt

instance (authorization : JobAuthorization) (instant : Timestamp) :
    Decidable (authorization.isActive instant) :=
  inferInstanceAs (Decidable (_ ∧ _ ∧ _))

/-- `allows_endpoint(endpoint_id)` -/
def JobAuthorization.allowsEndpoint (authorization : JobAuthorization) (endpointId : String) :
    Prop :=
  endpointId ∈ authorization.allowedEndpointIds

instance (authorization : JobAuthorization) (endpointId : String) :
    Decidable (authorization.allowsEndpoint endpointId) :=
  inferInstanceAs (Decidable (_ ∈ _))

/-- `allows_domain(domain)` -/
def JobAuthorization.allowsDomain (lib : NameLibrary) (authorization : JobAuthorization)
    (domain : String) : Except String Bool := do
  let candidate ← normalizeDomain lib domain
  if ∃ denied ∈ authorization.excludedDomains, candidate = denied ∨ EndsUnder candidate denied then
    .ok false
  else if candidate ∈ authorization.allowedDomains then .ok true
  else .ok (authorization.allowSubdomains &&
    decide (∃ allowed ∈ authorization.allowedDomains, EndsUnder candidate allowed))

/-- What an attack surface job must name: a target of the authorization, and no endpoint. -/
def ScanJob.checkSurface (lib : NameLibrary) (job : ScanJob) : Except String ScanJob :=
  match job.target with
  | none => .error "ATTACK_SURFACE requires an authorized domain target"
  | some raw => do
    raiseIf (raw = "") "ATTACK_SURFACE requires an authorized domain target"
    let target ← normalizeDomain lib raw
    raiseIf (job.endpointId ≠ none) "ATTACK_SURFACE jobs cannot specify an endpoint"
    let allowed ← job.authorization.allowsDomain lib target
    raiseIf (allowed = false) "attack-surface target is outside the authorized domain scope"
    .ok { job with target := some target }

/-- What any other job must name: an endpoint of the authorization, and no target. -/
def ScanJob.checkEndpoint (job : ScanJob) : Except String ScanJob := do
  raiseIf (job.target ≠ none) "endpoint scan jobs cannot specify an external target"
  raiseIf (job.endpointId = none ∨ job.endpointId = some "")
    (job.scanType.value ++ " requires endpoint_id")
  raiseIf (¬ ∃ endpointId ∈ job.endpointId, job.authorization.allowsEndpoint endpointId)
    "endpoint is outside the authorized scope"
  .ok job

/-- `validate_job_scope`, up to the check of the parameters. -/
def ScanJob.validateJobScope (lib : NameLibrary) (job : ScanJob) : Except String ScanJob := do
  raiseIf (job.authorization.authorized = false) "scan job is not explicitly authorized"
  raiseIf (∃ notBefore ∈ job.notBefore, ∃ deadline ∈ job.deadline, deadline ≤ notBefore)
    "deadline must be later than not_before"
  let checked ← if job.scanType = .attackSurface then job.checkSurface lib else job.checkEndpoint
  raiseIf (job.scanType = .onDemand ∧ job.approvedCollectors = ∅)
    "ON_DEMAND requires at least one approved collector"
  .ok checked

/-- `validate_for_execution(at)` -/
def ScanJob.validateForExecution (job : ScanJob) (instant : Timestamp) : Except String Unit := do
  raiseIf (¬ job.authorization.isActive instant) "authorization is not active at execution time"
  raiseIf (∃ notBefore ∈ job.notBefore, instant < notBefore)
    "job is not yet eligible for execution"
  raiseIf (∃ deadline ∈ job.deadline, instant ≥ deadline) "job deadline has expired"

/-- What the validators of a job and of its authorization leave through. -/
structure ScanJob.Valid (lib : NameLibrary) (job : ScanJob) : Prop where
  window : job.authorization.validFrom < job.authorization.expiresAt
  disjoint : Disjoint job.authorization.allowedDomains job.authorization.excludedDomains
  timeout : 10 ≤ job.timeoutSeconds ∧ job.timeoutSeconds ≤ 86400
  priority : 0 ≤ job.priority ∧ job.priority ≤ 100
  scope : job.validateJobScope lib = .ok job

/-! ## The document of a job -/

section

variable (timeText : Timestamp → String)

/-- What `model_dump` reads of an authorization when it keeps the absent fields. -/
def JobAuthorization.allFields (authorization : JobAuthorization) : List (String × Model) :=
  [textField "scope_id" authorization.scopeId,
    ("authorized", .value (.bool authorization.authorized)),
    textField "authorization_reference" authorization.authorizationReference,
    ("authorized_by", .value (Json.ofOption authorization.authorizedBy)),
    ("purpose", .value (Json.ofOption authorization.purpose)),
    textField "valid_from" (timeText authorization.validFrom),
    textField "expires_at" (timeText authorization.expiresAt),
    ("allowed_endpoint_ids", .set authorization.allowedEndpointIds),
    ("allowed_domains", .set authorization.allowedDomains),
    ("excluded_domains", .set authorization.excludedDomains),
    ("allow_subdomains", .value (.bool authorization.allowSubdomains)),
    ("allowed_networks", .value (.arr (authorization.allowedNetworks.map .str))),
    ("excluded_networks", .value (.arr (authorization.excludedNetworks.map .str)))]

/-- `job.model_dump(mode="json")` -/
def ScanJob.allFields (job : ScanJob) : List (String × Model) :=
  [textField "job_id" job.jobId,
    textField "scan_id" job.scanId,
    textField "scan_type" job.scanType.value,
    ("authorization", .record (job.authorization.allFields timeText)),
    ("endpoint_id", .value (Json.ofOption job.endpointId)),
    ("target", .value (Json.ofOption job.target)),
    textField "policy_id" job.policyId,
    ("policy_version", .value (Json.ofOption job.policyVersion)),
    ("approved_collectors", .set job.approvedCollectors),
    ("approved_sources", .value (.arr (job.approvedSources.map .str))),
    ("initiated_by", .value (Json.ofOption job.initiatedBy)),
    textField "requested_at" (timeText job.requestedAt),
    ("not_before", .value (Json.ofOption (job.notBefore.map timeText))),
    ("deadline", .value (Json.ofOption (job.deadline.map timeText))),
    ("timeout_seconds", .value (.int job.timeoutSeconds)),
    ("priority", .value (.int job.priority)),
    ("parameters", .value (.obj job.parameters))]

/-- A dump of the job, with its absent fields or without them. -/
def ScanJob.IsDump (job : ScanJob) (document : JsonObject) : Prop :=
  Model.DumpsFields (job.fields timeText) document ∨
    Model.DumpsFields (job.allFields timeText) document

/-- The instants that bound the execution of a job. -/
def ScanJob.instants (job : ScanJob) : List Timestamp :=
  job.authorization.validFrom :: job.authorization.expiresAt ::
    (job.notBefore.toList ++ job.deadline.toList)

/-- What the cloud reads of the document of a job. -/
structure ScanJob.Reads (job : ScanJob) (document : JsonObject) : Prop where
  notBefore : document.get "not_before" = Json.ofOption (job.notBefore.map timeText)
  deadline : document.get "deadline" = Json.ofOption (job.deadline.map timeText)
  timeout : document.get "timeout_seconds" = .int job.timeoutSeconds
  authorization : ∃ authorization, document.get "authorization" = .obj authorization ∧
    JsonObject.get authorization "authorized" = .bool job.authorization.authorized ∧
    JsonObject.get authorization "valid_from" = .str (timeText job.authorization.validFrom) ∧
    JsonObject.get authorization "expires_at" = .str (timeText job.authorization.expiresAt) ∧
    ∃ order, Enumerates order job.authorization.allowedEndpointIds ∧
      JsonObject.get authorization "allowed_endpoint_ids" = .arr (order.map .str)

end

section

variable {timeText : Timestamp → String} {rt : Runtime} {lib : NameLibrary} {job : ScanJob}

/-- A job is executed exactly in its window. -/
theorem validateForExecution_eq_ok {instant : Timestamp} :
    job.validateForExecution instant = .ok () ↔ job.authorization.isActive instant ∧
      (∀ notBefore ∈ job.notBefore, notBefore ≤ instant) ∧
      ∀ deadline ∈ job.deadline, instant < deadline := by
  unfold ScanJob.validateForExecution
  rw [Check.bind_unit_eq_ok, Check.bind_unit_eq_ok, raiseIf_eq_ok, raiseIf_eq_ok, raiseIf_eq_ok]
  simp only [not_not, not_exists, not_and, not_lt, ge_iff_le, not_le]

theorem checkSurface_eq_ok {checked : ScanJob} (h : job.checkSurface lib = .ok checked) :
    job.endpointId = none := by
  unfold ScanJob.checkSurface at h
  split at h
  · cases h
  · rename_i raw _
    rw [Check.bind_unit_eq_ok] at h
    obtain ⟨-, h⟩ := h
    cases htarget : normalizeDomain lib raw with
    | error e =>
      rw [htarget] at h
      cases h
    | ok target =>
      rw [htarget, show (Except.ok target >>= _ : Except String ScanJob) = _ from rfl] at h
      exact not_not.mp (raiseIf_eq_ok.mp (Check.bind_unit_eq_ok.mp h).1)

/-- A job for an attack surface that names a normalized and authorized target. -/
theorem validateJobScope_surface {target : String} (htype : job.scanType = .attackSurface)
    (hauthorized : job.authorization.authorized = true)
    (hwindow : ¬ ∃ notBefore ∈ job.notBefore, ∃ deadline ∈ job.deadline, deadline ≤ notBefore)
    (htarget : job.target = some target) (hne : target ≠ "")
    (hnormalized : normalizeDomain lib target = .ok target) (hendpoint : job.endpointId = none)
    (hallowed : job.authorization.allowsDomain lib target = .ok true) :
    job.validateJobScope lib = .ok job := by
  have hsame : { job with target := some target } = job := by
    rw [← htarget]
  have hsurface : job.checkSurface lib = .ok job := by
    unfold ScanJob.checkSurface
    simp only [htarget]
    rw [raiseIf, if_neg hne]
    show (normalizeDomain lib target >>= _) = _
    rw [hnormalized]
    show (raiseIf (job.endpointId ≠ none) _ >>= _) = _
    rw [raiseIf, if_neg (not_not.mpr hendpoint)]
    show (job.authorization.allowsDomain lib target >>= _) = _
    rw [hallowed]
    exact congrArg Except.ok hsame
  unfold ScanJob.validateJobScope
  rw [raiseIf, if_neg (by rw [hauthorized]; decide), raiseIf, if_neg hwindow, if_pos htype,
    hsurface]
  show (raiseIf (job.scanType = .onDemand ∧ _) _ >>= _) = _
  rw [raiseIf, if_neg (by rw [htype]; simp)]
  rfl

/-- A valid job is authorized, and the endpoint that it names is one of its authorization. -/
theorem validateJobScope_eq_ok {checked : ScanJob} (h : job.validateJobScope lib = .ok checked) :
    job.authorization.authorized = true ∧
      ∀ endpointId ∈ job.endpointId, job.authorization.allowsEndpoint endpointId := by
  unfold ScanJob.validateJobScope at h
  rw [Check.bind_unit_eq_ok, Check.bind_unit_eq_ok, raiseIf_eq_ok, raiseIf_eq_ok] at h
  obtain ⟨hauthorized, -, h⟩ := h
  refine ⟨by simpa using hauthorized, fun endpointId hendpoint => ?_⟩
  by_cases htype : job.scanType = .attackSurface
  · rw [if_pos htype] at h
    cases hcheck : job.checkSurface lib with
    | error e =>
      rw [hcheck] at h
      cases h
    | ok checked =>
      rw [checkSurface_eq_ok hcheck] at hendpoint
      cases hendpoint
  · rw [if_neg htype] at h
    cases hcheck : job.checkEndpoint with
    | error e =>
      rw [hcheck] at h
      cases h
    | ok checked =>
      unfold ScanJob.checkEndpoint at hcheck
      rw [Check.bind_unit_eq_ok, Check.bind_unit_eq_ok, Check.bind_unit_eq_ok, raiseIf_eq_ok,
        raiseIf_eq_ok, raiseIf_eq_ok] at hcheck
      obtain ⟨named, hnamed, hallowed⟩ := not_not.mp hcheck.2.2.1
      cases hendpoint.symm.trans hnamed
      exact hallowed

/-! ## Reading a dump -/

theorem get_of_lookup {document : JsonObject} {name : String} {v : Json}
    (h : Assoc.lookup name document = some v) : document.get name = v := by
  rw [JsonObject.get, h]
  rfl

/-- A field of a dump is a dump of the field. -/
theorem get_dumped {fields : List (String × Model)} {document : JsonObject} {name : String}
    {m : Model} (h : Model.DumpsFields fields document)
    (hname : Assoc.lookup name fields = some m) : Model.Dumps m (document.get name) := by
  have hrel := Model.lookup_dumpsFields h name
  rw [hname] at hrel
  cases hvalue : Assoc.lookup name document with
  | none =>
    rw [hvalue] at hrel
    cases hrel
  | some v =>
    rw [hvalue] at hrel
    rw [get_of_lookup hvalue]
    cases hrel with
    | some hv => exact hv

/-- A field that is left out reads as null. -/
theorem get_left_out {fields : List (String × Model)} {document : JsonObject} {name : String}
    (h : Model.DumpsFields fields document) (hname : Assoc.lookup name fields = none) :
    document.get name = .null := by
  have hrel := Model.lookup_dumpsFields h name
  rw [hname] at hrel
  cases hvalue : Assoc.lookup name document with
  | none =>
    rw [JsonObject.get, hvalue]
    rfl
  | some v =>
    rw [hvalue] at hrel
    cases hrel

theorem lookup_optionalField (name name' : String) (value : Option Json) :
    Assoc.lookup name (optionalField name' value) =
      if name' = name then value.map Model.value else none := by
  cases value with
  | none => simp [optionalField]
  | some v => simp [optionalField, Assoc.lookup]

/-- An optional instant of a dump that leaves absent fields out. -/
theorem get_optional {fields : List (String × Model)} {document : JsonObject} {name : String}
    {value : Option Timestamp} (h : Model.DumpsFields fields document)
    (hname : Assoc.lookup name fields =
      (value.map fun t => Json.str (timeText t)).map Model.value) :
    document.get name = Json.ofOption (value.map timeText) := by
  cases value with
  | none => exact get_left_out h hname
  | some t => exact get_dumped h hname

/-- Both dumps of an authorization hold what the cloud reads of it. -/
theorem get_authorization {fields : List (String × Model)} {authorization : JobAuthorization}
    (hfields : fields = authorization.fields timeText ∨ fields = authorization.allFields timeText)
    {document : JsonObject} (h : Model.DumpsFields fields document) :
    document.get "authorized" = .bool authorization.authorized ∧
      document.get "valid_from" = .str (timeText authorization.validFrom) ∧
      document.get "expires_at" = .str (timeText authorization.expiresAt) ∧
      ∃ order, Enumerates order authorization.allowedEndpointIds ∧
        document.get "allowed_endpoint_ids" = .arr (order.map .str) := by
  have hlookup : Assoc.lookup "authorized" fields = some (.value (.bool authorization.authorized)) ∧
      Assoc.lookup "valid_from" fields =
        some (.value (.str (timeText authorization.validFrom))) ∧
      Assoc.lookup "expires_at" fields =
        some (.value (.str (timeText authorization.expiresAt))) ∧
      Assoc.lookup "allowed_endpoint_ids" fields =
        some (.set authorization.allowedEndpointIds) := by
    obtain rfl | rfl := hfields
    · simp [JobAuthorization.fields, Assoc.lookup_append, lookup_optionalField, Assoc.lookup,
        textField]
    · simp [JobAuthorization.allFields, Assoc.lookup, textField]
  obtain ⟨hauthorized, hfrom, hexpires, hendpoints⟩ := hlookup
  refine ⟨get_dumped h hauthorized, get_dumped h hfrom, get_dumped h hexpires, ?_⟩
  have hset := get_dumped h hendpoints
  cases hvalue : document.get "allowed_endpoint_ids" <;> rw [hvalue] at hset <;> try exact hset.elim
  obtain ⟨order, horder, rfl⟩ := hset
  exact ⟨order, horder, rfl⟩

theorem get_record {fields authorization : List (String × Model)} {document : JsonObject}
    (h : Model.DumpsFields fields document)
    (hname : Assoc.lookup "authorization" fields = some (.record authorization)) :
    ∃ values, document.get "authorization" = .obj values ∧
      Model.DumpsFields authorization values := by
  have hrecord := get_dumped h hname
  cases hvalue : document.get "authorization" <;> rw [hvalue] at hrecord <;>
    try exact hrecord.elim
  exact ⟨_, rfl, hrecord⟩

/-- Where the dump with its absent fields has a null, the other one has no such field. -/
theorem ScanJob.IsDump.reads {document : JsonObject} (h : job.IsDump timeText document) :
    job.Reads timeText document := by
  obtain h | h := h
  · have hnotBefore : Assoc.lookup "not_before" (job.fields timeText) =
        (job.notBefore.map fun t => Json.str (timeText t)).map Model.value := by
      simp [ScanJob.fields, Assoc.lookup_append, lookup_optionalField, Assoc.lookup, textField]
    have hdeadline : Assoc.lookup "deadline" (job.fields timeText) =
        (job.deadline.map fun t => Json.str (timeText t)).map Model.value := by
      simp [ScanJob.fields, Assoc.lookup_append, lookup_optionalField, Assoc.lookup, textField]
    have htimeout : Assoc.lookup "timeout_seconds" (job.fields timeText) =
        some (.value (.int job.timeoutSeconds)) := by
      simp [ScanJob.fields, Assoc.lookup_append, lookup_optionalField, Assoc.lookup, textField]
    have hauthorization : Assoc.lookup "authorization" (job.fields timeText) =
        some (.record (job.authorization.fields timeText)) := by
      simp [ScanJob.fields, Assoc.lookup, textField]
    obtain ⟨values, hvalues, hdump⟩ := get_record h hauthorization
    exact ⟨get_optional h hnotBefore, get_optional h hdeadline, get_dumped h htimeout,
      values, hvalues, get_authorization (Or.inl rfl) hdump⟩
  · obtain ⟨values, hvalues, hdump⟩ := get_record h (show Assoc.lookup "authorization"
      (job.allFields timeText) = some (.record (job.authorization.allFields timeText)) from rfl)
    have hlookup : Assoc.lookup "not_before" (job.allFields timeText) =
          some (.value (Json.ofOption (job.notBefore.map timeText))) ∧
        Assoc.lookup "deadline" (job.allFields timeText) =
          some (.value (Json.ofOption (job.deadline.map timeText))) ∧
        Assoc.lookup "timeout_seconds" (job.allFields timeText) =
          some (.value (.int job.timeoutSeconds)) := ⟨rfl, rfl, rfl⟩
    obtain ⟨hnotBefore, hdeadline, htimeout⟩ := hlookup
    exact ⟨get_dumped h hnotBefore, get_dumped h hdeadline, get_dumped h htimeout, values, hvalues,
      get_authorization (Or.inr rfl) hdump⟩

/-! ## The two decisions -/

/-- The texts of the instants of the job read back. -/
def ReadsBack (rt : Runtime) (timeText : Timestamp → String) (job : ScanJob) : Prop :=
  ∀ t ∈ job.instants, Cloud.timestamp rt (.str (timeText t)) = some t

/-- The cloud asks that the authorization is granted and lists the endpoint. -/
theorem authorizationWindow_eq {document : JsonObject} {endpointId : String} {deadline : Timestamp}
    (htext : ReadsBack rt timeText job)
    (hreads : job.Reads timeText document) (hdeadline : job.deadline = some deadline) :
    Cloud.authorizationWindow rt document endpointId =
      if job.authorization.authorized = true ∧ job.authorization.allowsEndpoint endpointId then
        some (deadline, job.authorization.validFrom, job.authorization.expiresAt)
      else none := by
  obtain ⟨authorization, hobj, hauthorized, hfrom, hexpires, order, horder, hallowed⟩ :=
    hreads.authorization
  have hlisted : (order.map Json.str).any (Json.pyEq (.str endpointId)) = true ↔
      job.authorization.allowsEndpoint endpointId := by
    rw [List.any_eq_true]
    constructor
    · rintro ⟨v, hv, heq⟩
      obtain ⟨name, hname, rfl⟩ := List.mem_map.mp hv
      obtain rfl : endpointId = name := by simpa [Json.pyEq] using heq
      exact (horder.mem _).mp hname
    · intro hmem
      exact ⟨_, List.mem_map_of_mem ((horder.mem _).mpr hmem), by simp [Json.pyEq]⟩
  have hfromText := htext job.authorization.validFrom (by simp [ScanJob.instants])
  have hexpiresText := htext job.authorization.expiresAt (by simp [ScanJob.instants])
  have hdeadlineText := htext deadline (by simp [ScanJob.instants, hdeadline])
  unfold Cloud.authorizationWindow
  rw [hobj, hreads.deadline, hdeadline]
  simp only [Option.map_some, Json.ofOption, hauthorized, hfrom, hexpires, hallowed, hfromText,
    hexpiresText, hdeadlineText]
  cases job.authorization.authorized with
  | false => simp
  | true => simp only [hlisted, true_and]

/-- A job that waits for its time is not delivered. -/
theorem notBeforeEligibility_eq {document : JsonObject} {now : Timestamp}
    (htext : ReadsBack rt timeText job)
    (hreads : job.Reads timeText document) :
    Cloud.notBeforeEligibility rt (document.get "not_before") now =
      if ∃ notBefore ∈ job.notBefore, now < notBefore then some .waiting else none := by
  rw [hreads.notBefore]
  cases hnotBefore : job.notBefore with
  | none => simp [Cloud.notBeforeEligibility, Json.ofOption]
  | some notBefore =>
    have hnotBeforeText := htext notBefore (by simp [ScanJob.instants, hnotBefore])
    simp only [Option.map_some, Json.ofOption, Cloud.notBeforeEligibility, hnotBeforeText,
      Option.mem_def, Option.some.injEq, exists_eq_left']

/-- `"ELIGIBLE"`, or `"ACTIVE"` for a job that was delivered before. -/
def Deliverable (eligibility : Cloud.Eligibility) : Prop :=
  eligibility = .eligible ∨ eligibility = .active

instance (eligibility : Cloud.Eligibility) : Decidable (Deliverable eligibility) :=
  inferInstanceAs (Decidable (_ ∨ _))

/-- The lease of a valid job never holds it back for good. -/
theorem deliverable_lease {record : Cloud.ScanRecord} {now : Timestamp}
    (hvalid : job.Valid lib) (hreads : job.Reads timeText record.jobDocument) :
    Deliverable (Cloud.leaseEligibility record now) := by
  have htimeout : Cloud.leaseTimeout (record.jobDocument.get "timeout_seconds") =
      some job.timeoutSeconds := by
    rw [hreads.timeout, Cloud.leaseTimeout, if_pos hvalid.timeout]
  unfold Cloud.leaseEligibility Deliverable
  by_cases hqueued : record.state = .queued
  · simp [hqueued]
  · by_cases hdispatched : record.state = .dispatched
    · simp only [hdispatched, htimeout]
      by_cases hended : now ≥ record.updatedAt +
          seconds (job.timeoutSeconds + Cloud.jobDispatchGraceSeconds)
      · simp [hended]
      · simp [hended]
    · simp [hqueued, hdispatched]

/-- Delivered is what can be executed, to the endpoints that the authorization lists. -/
theorem deliverable_iff {record : Cloud.ScanRecord} {endpointId : String} {now : Timestamp}
    {deadline : Timestamp} (htext : ReadsBack rt timeText job)
    (hvalid : job.Valid lib) (hdump : job.IsDump timeText record.jobDocument)
    (hdeadline : job.deadline = some deadline) :
    Deliverable (Cloud.jobDispatchEligibility rt record endpointId now) ↔
      job.validateForExecution now = .ok () ∧ job.authorization.allowsEndpoint endpointId := by
  have hreads := hdump.reads
  have hlease := @deliverable_lease timeText lib job record now hvalid hreads
  have hauthorized := (validateJobScope_eq_ok hvalid.scope).1
  rw [validateForExecution_eq_ok, Cloud.jobDispatchEligibility,
    authorizationWindow_eq htext hreads hdeadline, notBeforeEligibility_eq htext hreads]
  by_cases hlisted : job.authorization.allowsEndpoint endpointId
  · rw [if_pos ⟨hauthorized, hlisted⟩]
    simp only [JobAuthorization.isActive, hauthorized, true_and, hlisted, and_true]
    have hbefore : (∀ d ∈ job.deadline, now < d) ↔ now < deadline := by
      simp [hdeadline]
    rw [hbefore]
    by_cases hend : now ≥ deadline ∨ now ≥ job.authorization.expiresAt
    · simp only [hend, if_true, Deliverable, reduceCtorEq, or_self, false_iff]
      rintro ⟨⟨-, hexpires⟩, -, hlt⟩
      exact hend.elim (not_le.mpr hlt) (not_le.mpr hexpires)
    · rw [if_neg hend]
      rw [not_or, ge_iff_le, ge_iff_le, not_le, not_le] at hend
      by_cases hfrom : now < job.authorization.validFrom
      · simp only [hfrom, if_true, Deliverable, reduceCtorEq, or_self, false_iff]
        rintro ⟨⟨hafter, -⟩, -⟩
        exact absurd hfrom (not_lt.mpr hafter)
      · rw [if_neg hfrom]
        by_cases hwaits : ∃ notBefore ∈ job.notBefore, now < notBefore
        · rw [if_pos hwaits]
          obtain ⟨notBefore, hmem, hlt⟩ := hwaits
          simp only [Deliverable, reduceCtorEq, or_self, false_iff]
          rintro ⟨-, hall, -⟩
          exact absurd hlt (not_lt.mpr (hall notBefore hmem))
        · rw [if_neg hwaits]
          simp only [not_exists, not_and, not_lt] at hwaits
          exact iff_of_true hlease ⟨⟨not_lt.mp hfrom, hend.2⟩, hwaits, hend.1⟩
  · rw [if_neg fun h => hlisted h.2]
    simp [Deliverable, hlisted]

end

/--
For the dump of a valid job with a deadline the cloud and the endpoint agree at every instant: a
job is delivered to an endpoint exactly when it can be executed and its authorization lists the
endpoint, so to the endpoint that it names exactly when it can be executed.
-/
theorem dispatched_iff_executable (rt : Runtime) (timeText : Timestamp → String) (lib : NameLibrary)
    (job : ScanJob) (deadline : Timestamp) (record : Cloud.ScanRecord)
    (htext : ReadsBack rt timeText job) (hvalid : job.Valid lib)
    (hdeadline : job.deadline = some deadline)
    (hdump : job.IsDump timeText record.jobDocument) (now : Timestamp) (endpointId : String) :
    (Deliverable (Cloud.jobDispatchEligibility rt record endpointId now) ↔
        job.validateForExecution now = .ok () ∧ job.authorization.allowsEndpoint endpointId) ∧
      (job.endpointId = some endpointId →
        (Deliverable (Cloud.jobDispatchEligibility rt record endpointId now) ↔
          job.validateForExecution now = .ok ())) := by
  have hiff := @deliverable_iff timeText rt lib job record endpointId now deadline htext hvalid hdump
    hdeadline
  refine ⟨hiff, fun hendpoint => ?_⟩
  have hallowed := (validateJobScope_eq_ok hvalid.scope).2 endpointId hendpoint
  rw [hiff, and_iff_left hallowed]

/-! ## Two jobs -/

/-- The text of an instant as it is dumped. -/
def utcText (t : Timestamp) : String :=
  String.ofList ((Runtime.sample.isoformat t).toList.reverse.drop 6).reverse ++ "Z"

/-- A scan of an endpoint, or of the attack surface of a domain, within an hour. -/
def hourlyJob (scanType : ScanType) (endpointId target : Option String) : ScanJob where
  jobId := "job-1"
  scanId := "scan-1"
  scanType := scanType
  endpointId := endpointId
  target := target
  requestedAt := seconds 1700000000
  deadline := some (seconds 1700003600)
  authorization := {
    scopeId := "scope-1"
    authorized := true
    authorizationReference := "ticket-1"
    validFrom := seconds 1700000000
    expiresAt := seconds 1700003600
    allowedEndpointIds := endpointId.elim ∅ fun id => {id}
    allowedDomains := target.elim ∅ fun domain => {domain} }

def hourlyDocument (scanType : ScanType) (endpointId target : Option String) : JsonObject :=
  let names (value : Option String) : Json := .arr (value.toList.map .str)
  [("job_id", .str "job-1"), ("scan_id", .str "scan-1"), ("scan_type", .str scanType.value),
    ("authorization", .obj
      [("scope_id", .str "scope-1"), ("authorized", .bool true),
        ("authorization_reference", .str "ticket-1"), ("authorized_by", .null),
        ("purpose", .null), ("valid_from", .str "2023-11-14T22:13:20Z"),
        ("expires_at", .str "2023-11-14T23:13:20Z"), ("allowed_endpoint_ids", names endpointId),
        ("allowed_domains", names target), ("excluded_domains", .arr []),
        ("allow_subdomains", .bool true), ("allowed_networks", .arr []),
        ("excluded_networks", .arr [])]),
    ("endpoint_id", Json.ofOption endpointId), ("target", Json.ofOption target),
    ("policy_id", .str "enterprise-default"), ("policy_version", .null),
    ("approved_collectors", .arr []), ("approved_sources", .arr []), ("initiated_by", .null),
    ("requested_at", .str "2023-11-14T22:13:20Z"), ("not_before", .null),
    ("deadline", .str "2023-11-14T23:13:20Z"), ("timeout_seconds", .int 900),
    ("priority", .int 50), ("parameters", .obj [])]

/-- A set of at most one name is dumped in one way. -/
theorem dumps_optional_set (value : Option String) :
    Model.Dumps (.set (value.elim ∅ fun name => {name})) (.arr (value.toList.map .str)) := by
  cases value with
  | none => exact ⟨[], ⟨List.nodup_nil, by simp⟩, rfl⟩
  | some name => exact ⟨[name], ⟨List.nodup_singleton name, by simp⟩, rfl⟩

theorem isDump_hourlyJob (scanType : ScanType) (endpointId target : Option String) :
    (hourlyJob scanType endpointId target).IsDump utcText
      (hourlyDocument scanType endpointId target) := by
  have hnone : Model.Dumps (.set ∅) (.arr []) := dumps_optional_set none
  have hfrom : utcText (seconds 1700000000) = "2023-11-14T22:13:20Z" := by decide +kernel
  have hexpires : utcText (seconds 1700003600) = "2023-11-14T23:13:20Z" := by decide +kernel
  refine Or.inr ⟨_, _, rfl, rfl, _, _, rfl, rfl, _, _, rfl, rfl, _, _, rfl, ?_, ?_⟩
  · exact ⟨_, _, rfl, rfl, _, _, rfl, rfl, _, _, rfl, rfl, _, _, rfl, rfl, _, _, rfl, rfl,
      _, _, rfl, congrArg Json.str hfrom.symm, _, _, rfl, congrArg Json.str hexpires.symm,
      _, _, rfl, dumps_optional_set endpointId, _, _, rfl, dumps_optional_set target,
      _, _, rfl, hnone, _, _, rfl, rfl, _, _, rfl, rfl, _, _, rfl, rfl, rfl⟩
  · exact ⟨_, _, rfl, rfl, _, _, rfl, rfl, _, _, rfl, rfl, _, _, rfl, rfl, _, _, rfl, hnone,
      _, _, rfl, rfl, _, _, rfl, rfl, _, _, rfl, congrArg Json.str hfrom.symm, _, _, rfl, rfl,
      _, _, rfl, congrArg Json.str hexpires.symm, _, _, rfl, rfl, _, _, rfl, rfl, _, _, rfl, rfl,
      rfl⟩

theorem readsBack_hourlyJob (scanType : ScanType) (endpointId target : Option String) :
    ReadsBack Runtime.sample utcText (hourlyJob scanType endpointId target) := by
  have hinstants : ∀ t ∈ [seconds 1700000000, seconds 1700003600, seconds 1700003600],
      Cloud.timestamp Runtime.sample (.str (utcText t)) = some t := by decide +kernel
  exact hinstants

def endpointJob : ScanJob := hourlyJob .quick (some "endpoint-1") none

def domainJob : ScanJob := hourlyJob .attackSurface none (some "example.com")

theorem valid_endpointJob : endpointJob.Valid sampleNames where
  window := by decide
  disjoint := by decide
  timeout := by decide
  priority := by decide
  scope := by rfl

theorem valid_domainJob : domainJob.Valid sampleNames where
  window := by decide
  disjoint := by decide
  timeout := by decide
  priority := by decide
  scope := by
    have htarget : normalizeDomain sampleNames "example.com" = .ok "example.com" := by
      decide +kernel
    have hallowed : domainJob.authorization.allowsDomain sampleNames "example.com" = .ok true := by
      decide +kernel
    exact validateJobScope_surface rfl rfl (by decide) rfl (by decide) htarget rfl hallowed

/-- The record of a job that waits for its endpoint. -/
def queuedRecord (document : JsonObject) : Cloud.ScanRecord where
  tenantId := "tenant-1"
  endpointId := "endpoint-1"
  scanId := "scan-1"
  jobId := "job-1"
  state := .queued
  jobDocument := document
  createdAt := seconds 1700000000
  updatedAt := seconds 1700000000

/-- In the last second of its hour the scan of an endpoint is delivered and can be executed. -/
theorem dispatched_endpointJob :
    Deliverable (Cloud.jobDispatchEligibility Runtime.sample
        (queuedRecord (hourlyDocument .quick (some "endpoint-1") none)) "endpoint-1"
        (seconds 1700003599)) ↔
      endpointJob.validateForExecution (seconds 1700003599) = .ok () :=
  (dispatched_iff_executable Runtime.sample utcText sampleNames endpointJob (seconds 1700003600)
    (queuedRecord (hourlyDocument .quick (some "endpoint-1") none))
    (readsBack_hourlyJob .quick (some "endpoint-1") none) valid_endpointJob rfl
    (isDump_hourlyJob .quick (some "endpoint-1") none) (seconds 1700003599) "endpoint-1").2 rfl

/-- The scan of a domain can be executed, and is delivered to no endpoint. -/
theorem domainJob_withheld :
    domainJob.Valid sampleNames ∧ domainJob.deadline = some (seconds 1700003600) ∧
      domainJob.IsDump utcText (hourlyDocument .attackSurface none (some "example.com")) ∧
      domainJob.validateForExecution (seconds 1700000000) = .ok () ∧
      ∀ endpointId, ¬ Deliverable (Cloud.jobDispatchEligibility Runtime.sample
        (queuedRecord (hourlyDocument .attackSurface none (some "example.com"))) endpointId
        (seconds 1700000000)) := by
  have hdump := isDump_hourlyJob .attackSurface none (some "example.com")
  refine ⟨valid_domainJob, rfl, hdump, by decide, fun endpointId hdelivered => ?_⟩
  have hlisted := (deliverable_iff (readsBack_hourlyJob .attackSurface none (some "example.com"))
    valid_domainJob hdump rfl).mp hdelivered
  exact absurd hlisted.2 (Finset.notMem_empty endpointId)

end OsScanner.Endpoint

import Mathlib
import OsScanner.Cloud.Api
import OsScanner.Lib.Run

/-!
# Enrollment grants

A grant enrolls one endpoint, and whoever presents it later gets the credential of that
endpoint or nothing. The repository looks at the grant only when the request is a new one: a
recorded response answers first, and it is found by the tenant, the key and the body of the
request. So a request is bound to its grant as long as nobody repeats the key and the body of
an enrollment that was made with another one.
-/

namespace OsScanner.Cloud

open Lib

/-! ## Requests and their history -/

/-- `POST /api/v1/endpoint/enroll`, with the identifiers that the handler draws for it. -/
structure EnrollRequest where
  token : String
  body : EndpointEnrollment
  idempotencyKey : Option String
  endpointId : String
  credentialId : String
  presentedAt : Timestamp
  now : Timestamp
  auditedAt : Timestamp

/-- Requests of administrators and of endpoints, in the order in which they are served. -/
inductive EnrollmentEvent where
  | issue (tenantId subject : String) (body : EnrollmentTokenRequest)
      (idempotencyKey : Option String) (grantId : String) (now auditedAt : Timestamp)
  | enroll (request : EnrollRequest)

/-- A request that enrolled an endpoint. -/
structure Enrollment where
  tenantId : String
  key : String
  digest : String
  grantTokenHash : Option String
  credential : CredentialRecord

/-- A credential that was returned to a caller with a grant. -/
structure GrantAnswer where
  grantTokenHash : String
  presentedAt : Timestamp
  credential : CredentialRecord

/-- The repository, and what was answered so far. -/
structure EnrollmentHistory where
  repo : InMemoryRepository := {}
  enrollments : List Enrollment := []
  answers : List GrantAnswer := []

def EnrollmentHistory.answer (history : EnrollmentHistory) (request : EnrollRequest)
    (caller : EnrollmentPrincipal) (credential : CredentialRecord) : List GrantAnswer :=
  match caller.grantTokenHash with
  | none => history.answers
  | some hash => history.answers ++ [⟨hash, request.presentedAt, credential⟩]

/-- A request enrolls when no response was recorded for its key. -/
def EnrollmentHistory.enrolled (rt : Runtime) (history : EnrollmentHistory)
    (request : EnrollRequest) (caller : EnrollmentPrincipal) (credential : CredentialRecord) :
    List Enrollment :=
  let key := request.idempotencyKey.getD ""
  if history.repo.idempotency.contains ⟨caller.tenantId, "enroll", key⟩ then history.enrollments
  else history.enrollments ++
    [⟨caller.tenantId, key, requestHash rt request.body.dump, caller.grantTokenHash, credential⟩]

def runEnroll (rt : Runtime) (config : CloudServiceSettings) (request : EnrollRequest)
    (caller : EnrollmentPrincipal) : Handler CredentialRecord :=
  enroll rt config caller request.body request.idempotencyKey request.endpointId
    request.credentialId request.now request.auditedAt

def EnrollmentHistory.step (rt : Runtime) (config : CloudServiceSettings)
    (history : EnrollmentHistory) : EnrollmentEvent → EnrollmentHistory
  | .issue tenantId subject body idempotencyKey grantId now auditedAt =>
    { history with
      repo := ((platformCreateEnrollmentToken rt config tenantId subject body idempotencyKey
        grantId now auditedAt).run history.repo).2 }
  | .enroll request =>
    match enrollmentCaller rt config request.token request.presentedAt history.repo with
    | .error _ => history
    | .ok caller =>
      match (runEnroll rt config request caller).run history.repo with
      | (.error _, repo) => { history with repo := repo }
      | (.ok credential, repo) =>
        { repo := repo
          enrollments := history.enrolled rt request caller credential
          answers := history.answer request caller credential }

/--
An enrollment that the request repeats, with the same key and the same body, was made with the
grant that it presents.
-/
def SameGrant (rt : Runtime) (config : CloudServiceSettings) (history : EnrollmentHistory) :
    EnrollmentEvent → Prop
  | .issue .. => True
  | .enroll request =>
    match enrollmentCaller rt config request.token request.presentedAt history.repo with
    | .ok ⟨tenantId, some hash⟩ => ∀ e ∈ history.enrollments, e.tenantId = tenantId →
        e.key = request.idempotencyKey.getD "" → e.digest = requestHash rt request.body.dump →
        e.grantTokenHash = some hash
    | _ => True

instance (rt : Runtime) (config : CloudServiceSettings) (history : EnrollmentHistory)
    (event : EnrollmentEvent) : Decidable (SameGrant rt config history event) := by
  unfold SameGrant
  split
  · infer_instance
  · split <;> infer_instance

/-! ## What a request does -/

theorem checkIdempotencyKey_eq_ok {value : Option String} {key : String}
    (h : checkIdempotencyKey value = .ok key) : value.getD "" = key := by
  unfold checkIdempotencyKey at h
  split at h
  · split at h
    · cases h
      rfl
    · cases h
  · cases h

theorem asCredential_eq_ok {response : Response} {credential : CredentialRecord}
    (h : response.asCredential = .ok credential) : response = .credential credential := by
  cases response <;> simp_all [Response.asCredential, fail]

/-- A caller with a grant presents one that is known and has not expired. -/
theorem enrollmentCaller_grant {rt : Runtime} {config : CloudServiceSettings} {token : String}
    {now : Timestamp} {repo : InMemoryRepository} {caller : EnrollmentPrincipal} {hash : String}
    (h : enrollmentCaller rt config token now repo = .ok caller)
    (hhash : caller.grantTokenHash = some hash) :
    ∃ grant, repo.enrollmentGrants.get? hash = some grant ∧ now < grant.expiresAt := by
  unfold enrollmentCaller authenticateEnrollmentGrant at h
  split at h
  · cases h
    cases hhash
  · split at h
    · rename_i grant hgrant
      cases h
      rw [Option.some.injEq] at hhash
      subst hhash
      split at hgrant
      · cases hgrant
      · rename_i found hfound
        split at hgrant
        · cases hgrant
        · rename_i hlive
          cases hgrant
          exact ⟨_, hfound, not_le.mp hlive⟩
    · cases h

/-- A grant that passes the checks has not been consumed. -/
theorem presentedGrant_eq_ok {tenantId hash : String} {endpoint : EndpointRecord}
    {credential : CredentialRecord} {repo : InMemoryRepository}
    {grant : Option EnrollmentGrantRecord}
    (h : presentedGrant tenantId endpoint credential (some hash) repo = .ok grant) :
    ∃ found, grant = some found ∧ repo.enrollmentGrants.get? hash = some found ∧
      found.consumedAt = none := by
  unfold presentedGrant at h
  simp only at h
  split at h
  · cases h
  · rename_i found hfound
    simp only [Check.bind_unit_eq_ok, raiseIf_eq_ok, not_not, Except.ok.injEq] at h
    obtain ⟨-, -, hunused, -, rfl⟩ := h
    exact ⟨found, rfl, hfound, hunused⟩

/-- A consumed grant stays what it is. -/
def KeepsConsumed (repo repo' : InMemoryRepository) : Prop :=
  ∀ hash grant, repo.enrollmentGrants.get? hash = some grant → grant.consumedAt ≠ none →
    repo'.enrollmentGrants.get? hash = some grant

/-- What an enrollment request of a known caller did when it was answered. -/
inductive EnrollOutcome (rt : Runtime) (request : EnrollRequest) (caller : EnrollmentPrincipal)
    (repo : InMemoryRepository) (credential : CredentialRecord) (repo' : InMemoryRepository) : Prop
  | replayed (same : repo' = repo)
      (recorded : repo.idempotency.get? ⟨caller.tenantId, "enroll", request.idempotencyKey.getD ""⟩ =
        some (requestHash rt request.body.dump, .credential credential))
  | fresh (grant : Option EnrollmentGrantRecord) (consumedAt : Timestamp)
      (new : repo.idempotency.get?
        ⟨caller.tenantId, "enroll", request.idempotencyKey.getD ""⟩ = none)
      (unused : ∀ hash ∈ caller.grantTokenHash, ∃ found, grant = some found ∧
        repo.enrollmentGrants.get? hash = some found ∧ found.consumedAt = none)
      (grants : repo'.enrollmentGrants = consumeGrant repo.enrollmentGrants
        caller.grantTokenHash grant consumedAt credential.endpointId)
      (recorded : repo'.idempotency = repo.idempotency.set
        ⟨caller.tenantId, "enroll", request.idempotencyKey.getD ""⟩
        (requestHash rt request.body.dump, .credential credential))

theorem runEnroll_outcome {rt : Runtime} {config : CloudServiceSettings} {request : EnrollRequest}
    {caller : EnrollmentPrincipal} {repo repo' : InMemoryRepository}
    {credential : CredentialRecord}
    (h : (runEnroll rt config request caller).run repo = (.ok credential, repo')) :
    EnrollOutcome rt request caller repo credential repo' := by
  simp only [runEnroll, enroll, Method.run_ofExcept_bind] at h
  split at h
  · rename_i key hkey
    rw [ofRepository_eq_ok] at h
    rw [← checkIdempotencyKey_eq_ok hkey] at h
    rcases enrollEndpoint_effect h with
      ⟨rfl, hreplays | ⟨_, herror⟩⟩ | ⟨grant, hnone, hgrant, -, -, hresult, _, rfl⟩
    · generalize hresult : (Except.ok credential : Except RepositoryError CredentialRecord) =
        result at hreplays
      cases hreplays with
      | conflict => cases hresult
      | replayed found =>
        rw [asCredential_eq_ok hresult.symm] at found
        exact .replayed rfl found
    · cases herror
    · cases hresult
      refine .fresh grant _ hnone (fun hash hhash => ?_) rfl rfl
      rw [Option.mem_def] at hhash
      rw [hhash] at hgrant
      exact presentedGrant_eq_ok hgrant
  · cases h

theorem EnrollOutcome.keepsConsumed {rt : Runtime} {request : EnrollRequest}
    {caller : EnrollmentPrincipal} {repo repo' : InMemoryRepository}
    {credential : CredentialRecord}
    (h : EnrollOutcome rt request caller repo credential repo') : KeepsConsumed repo repo' := by
  intro k known hk hconsumed
  cases h with
  | replayed same => exact same ▸ hk
  | fresh grant consumedAt new unused grants =>
    rw [grants]
    unfold consumeGrant
    split
    · rename_i hash found hhash
      obtain ⟨_, -, hg, hunused⟩ := unused hash hhash
      rw [Dict.get?_set_ne, hk]
      rintro rfl
      rw [hk, Option.some.injEq] at hg
      exact hconsumed (hg ▸ hunused)
    · exact hk

/-- A request that was not answered leaves the repository as it was. -/
theorem runEnroll_error {rt : Runtime} {config : CloudServiceSettings} {request : EnrollRequest}
    {caller : EnrollmentPrincipal} {repo repo' : InMemoryRepository} {e : HttpError}
    (h : (runEnroll rt config request caller).run repo = (.error e, repo')) : repo' = repo := by
  simp only [runEnroll, enroll, Method.run_ofExcept_bind] at h
  split at h
  · simp only [Handler.ofRepository, Prod.mk.injEq] at h
    rcases enrollEndpoint_effect (Prod.mk.eta).symm with
      ⟨hrepo, -⟩ | ⟨_, -, -, -, -, hresult, -⟩
    · exact h.2 ▸ hrepo
    · rw [hresult] at h
      cases h.1
  · cases h
    rfl

/-- Issuing a grant adds one with a new token, or changes nothing. -/
theorem issue_effect {rt : Runtime} {config : CloudServiceSettings} {tenantId subject : String}
    {body : EnrollmentTokenRequest} {idempotencyKey : Option String} {grantId : String}
    {now auditedAt : Timestamp} {repo repo' : InMemoryRepository}
    (hrun : ((platformCreateEnrollmentToken rt config tenantId subject body idempotencyKey grantId
      now auditedAt).run repo).2 = repo') :
    KeepsConsumed repo repo' ∧ ∀ tenant key,
      repo'.idempotency.get? ⟨tenant, "enroll", key⟩ =
        repo.idempotency.get? ⟨tenant, "enroll", key⟩ := by
  simp only [platformCreateEnrollmentToken, Method.run_ofExcept_bind] at hrun
  split at hrun
  · rename_i key _
    simp only [Handler.ofRepository] at hrun
    rcases createEnrollmentGrant_effect (Prod.mk.eta).symm with
      ⟨h, -⟩ | ⟨-, hnew, -, _, h⟩ <;> rw [h] at hrun <;> subst hrun
    · exact ⟨fun _ _ hk _ => hk, fun _ _ => rfl⟩
    · refine ⟨fun hash grant hk _ => ?_, fun tenant k => ?_⟩
      · simp only
        rw [Dict.get?_set_ne, hk]
        rintro rfl
        rw [hnew] at hk
        cases hk
      · simp only
        rw [Dict.get?_set_ne]
        simp
  · subst hrun
    exact ⟨fun _ _ hk _ => hk, fun _ _ => rfl⟩

/-! ## The invariant -/

/-- The grant was consumed by this endpoint. -/
def ConsumedBy (repo : InMemoryRepository) (hash endpointId : String)
    (grant : EnrollmentGrantRecord) : Prop :=
  repo.enrollmentGrants.get? hash = some grant ∧ grant.consumedAt ≠ none ∧
    grant.endpointId = some endpointId

theorem ConsumedBy.keep {repo repo' : InMemoryRepository} {hash endpointId : String}
    {grant : EnrollmentGrantRecord} (hkeep : KeepsConsumed repo repo')
    (h : ConsumedBy repo hash endpointId grant) : ConsumedBy repo' hash endpointId grant :=
  ⟨hkeep _ _ h.1 h.2.1, h.2⟩

structure GrantBinding (history : EnrollmentHistory) : Prop where
  recorded : ∀ {tenantId key digest response},
    history.repo.idempotency.get? ⟨tenantId, "enroll", key⟩ = some (digest, response) →
    ∃ e ∈ history.enrollments, e.tenantId = tenantId ∧ e.key = key ∧ e.digest = digest ∧
      response = .credential e.credential
  consumed : ∀ e ∈ history.enrollments, ∀ hash ∈ e.grantTokenHash,
    ∃ grant, ConsumedBy history.repo hash e.credential.endpointId grant
  once : (history.enrollments.filterMap (·.grantTokenHash)).Nodup
  answered : ∀ a ∈ history.answers, ∃ grant,
    ConsumedBy history.repo a.grantTokenHash a.credential.endpointId grant ∧
      a.presentedAt < grant.expiresAt

theorem grantBinding_empty : GrantBinding {} := by
  constructor
  · intro _ _ _ _ h
    cases h
  · simp
  · simp
  · simp

/-- The repository changed but nothing was answered. -/
theorem GrantBinding.frame {history : EnrollmentHistory} {repo' : InMemoryRepository}
    (hinv : GrantBinding history) (hkeep : KeepsConsumed history.repo repo')
    (hrecorded : ∀ tenant key, repo'.idempotency.get? ⟨tenant, "enroll", key⟩ =
      history.repo.idempotency.get? ⟨tenant, "enroll", key⟩) :
    GrantBinding { history with repo := repo' } := by
  refine ⟨fun h => hinv.recorded (hrecorded _ _ ▸ h), fun e he hash hhash => ?_, hinv.once,
    fun a ha => ?_⟩
  · obtain ⟨grant, hgrant⟩ := hinv.consumed e he hash hhash
    exact ⟨grant, hgrant.keep hkeep⟩
  · obtain ⟨grant, hgrant, hlive⟩ := hinv.answered a ha
    exact ⟨grant, hgrant.keep hkeep, hlive⟩

/-- A repeated request gets what was recorded for the grant that it presents. -/
theorem GrantBinding.replay {rt : Runtime} {history : EnrollmentHistory} {request : EnrollRequest}
    {caller : EnrollmentPrincipal} {credential : CredentialRecord} (hinv : GrantBinding history)
    (hrecorded : history.repo.idempotency.get?
      ⟨caller.tenantId, "enroll", request.idempotencyKey.getD ""⟩ =
        some (requestHash rt request.body.dump, .credential credential))
    (hlive : ∀ hash ∈ caller.grantTokenHash, ∃ grant,
      history.repo.enrollmentGrants.get? hash = some grant ∧
        request.presentedAt < grant.expiresAt)
    (hsame : ∀ hash ∈ caller.grantTokenHash, ∀ e ∈ history.enrollments,
      e.tenantId = caller.tenantId → e.key = request.idempotencyKey.getD "" →
      e.digest = requestHash rt request.body.dump → e.grantTokenHash = some hash) :
    GrantBinding { history with answers := history.answer request caller credential } := by
  refine ⟨hinv.recorded, hinv.consumed, hinv.once, fun a ha => ?_⟩
  simp only [EnrollmentHistory.answer] at ha
  split at ha
  · exact hinv.answered a ha
  · rename_i hash hhash
    rcases List.mem_append.mp ha with ha | ha
    · exact hinv.answered a ha
    · rw [List.mem_singleton.mp ha]
      obtain ⟨e, he, htenant, hkey, hdigest, hcredential⟩ := hinv.recorded hrecorded
      obtain ⟨grant, hgrant⟩ := hinv.consumed e he hash
        (hsame hash hhash e he htenant hkey hdigest)
      obtain ⟨grant', hgrant', hpresented⟩ := hlive hash hhash
      have heq := hgrant.1
      rw [hgrant', Option.some.injEq] at heq
      cases hcredential
      exact ⟨grant, hgrant, heq ▸ hpresented⟩

/-- A new request consumes the grant that it presents. -/
theorem GrantBinding.fresh {rt : Runtime} {history : EnrollmentHistory} {request : EnrollRequest}
    {caller : EnrollmentPrincipal} {credential : CredentialRecord} {repo' : InMemoryRepository}
    {grant : Option EnrollmentGrantRecord} {consumedAt : Timestamp} (hinv : GrantBinding history)
    (hkeep : KeepsConsumed history.repo repo')
    (hnew : history.repo.idempotency.get?
      ⟨caller.tenantId, "enroll", request.idempotencyKey.getD ""⟩ = none)
    (hunused : ∀ hash ∈ caller.grantTokenHash, ∃ found, grant = some found ∧
      history.repo.enrollmentGrants.get? hash = some found ∧ found.consumedAt = none)
    (hgrants : repo'.enrollmentGrants = consumeGrant history.repo.enrollmentGrants
      caller.grantTokenHash grant consumedAt credential.endpointId)
    (hrecorded : repo'.idempotency = history.repo.idempotency.set
      ⟨caller.tenantId, "enroll", request.idempotencyKey.getD ""⟩
      (requestHash rt request.body.dump, .credential credential))
    (hlive : ∀ hash ∈ caller.grantTokenHash, ∃ grant,
      history.repo.enrollmentGrants.get? hash = some grant ∧
        request.presentedAt < grant.expiresAt) :
    GrantBinding
      { repo := repo'
        enrollments := history.enrolled rt request caller credential
        answers := history.answer request caller credential } := by
  have henrolled : history.enrolled rt request caller credential = history.enrollments ++
      [⟨caller.tenantId, request.idempotencyKey.getD "", requestHash rt request.body.dump,
        caller.grantTokenHash, credential⟩] := by
    rw [EnrollmentHistory.enrolled, if_neg]
    rw [Bool.not_eq_true, Dict.contains_eq_false]
    exact hnew
  -- The grant that the caller presents is consumed by the new endpoint.
  have hmine : ∀ hash ∈ caller.grantTokenHash, ∃ grant,
      ConsumedBy repo' hash credential.endpointId grant ∧
        request.presentedAt < grant.expiresAt := by
    intro hash hhash
    obtain ⟨found, hfound, hget, -⟩ := hunused hash hhash
    obtain ⟨known, hknown, hpresented⟩ := hlive hash hhash
    rw [hget, Option.some.injEq] at hknown
    subst hknown
    rw [Option.mem_def] at hhash
    refine ⟨{ found with
      consumedAt := some consumedAt, endpointId := some credential.endpointId },
      ⟨?_, by simp, rfl⟩, hpresented⟩
    rw [hgrants, hhash, hfound]
    exact Dict.get?_set_self _ _ _
  rw [henrolled]
  refine ⟨fun {tenantId key digest response} h => ?_, fun e he hash hhash => ?_, ?_, fun a ha => ?_⟩
  · simp only [hrecorded, Dict.get?_set] at h
    split at h
    · rename_i hk
      cases hk
      cases h
      exact ⟨_, List.mem_append_right _ List.mem_cons_self, rfl, rfl, rfl, rfl⟩
    · obtain ⟨e, he, hprops⟩ := hinv.recorded h
      exact ⟨e, List.mem_append_left _ he, hprops⟩
  · rcases List.mem_append.mp he with he | he
    · obtain ⟨grant, hgrant⟩ := hinv.consumed e he hash hhash
      exact ⟨grant, hgrant.keep hkeep⟩
    · rw [List.mem_singleton.mp he] at hhash ⊢
      obtain ⟨grant, hgrant, -⟩ := hmine hash hhash
      exact ⟨grant, hgrant⟩
  · rw [List.filterMap_append]
    refine List.nodup_append'.mpr ⟨hinv.once, ?_, ?_⟩
    · simp only [List.filterMap_cons, List.filterMap_nil]
      split <;> simp
    · intro hash hold hmem
      rw [List.mem_filterMap] at hold hmem
      obtain ⟨e, he, hhash⟩ := hold
      obtain ⟨e', he', hhash'⟩ := hmem
      rw [List.mem_singleton.mp he'] at hhash'
      obtain ⟨grant, hgrant, hconsumed, -⟩ := hinv.consumed e he hash hhash
      obtain ⟨found, -, hget, hnone⟩ := hunused hash hhash'
      rw [hget, Option.some.injEq] at hgrant
      exact hconsumed (hgrant ▸ hnone)
  · simp only [EnrollmentHistory.answer] at ha
    split at ha
    · obtain ⟨grant, hgrant, hpresented⟩ := hinv.answered a ha
      exact ⟨grant, hgrant.keep hkeep, hpresented⟩
    · rename_i hash hhash
      rcases List.mem_append.mp ha with ha | ha
      · obtain ⟨grant, hgrant, hpresented⟩ := hinv.answered a ha
        exact ⟨grant, hgrant.keep hkeep, hpresented⟩
      · rw [List.mem_singleton.mp ha]
        exact hmine hash hhash

theorem GrantBinding.step {rt : Runtime} {config : CloudServiceSettings}
    {history : EnrollmentHistory} {event : EnrollmentEvent}
    (hsame : SameGrant rt config history event) (hinv : GrantBinding history) :
    GrantBinding (history.step rt config event) := by
  cases event with
  | issue =>
    obtain ⟨hkeep, hrecorded⟩ := issue_effect rfl
    exact hinv.frame hkeep hrecorded
  | enroll request =>
    rw [EnrollmentHistory.step]
    simp only [SameGrant] at hsame
    cases hcaller : enrollmentCaller rt config request.token request.presentedAt history.repo with
    | error => exact hinv
    | ok caller =>
      rw [hcaller] at hsame
      have hsame' : ∀ hash ∈ caller.grantTokenHash, ∀ e ∈ history.enrollments,
          e.tenantId = caller.tenantId → e.key = request.idempotencyKey.getD "" →
          e.digest = requestHash rt request.body.dump → e.grantTokenHash = some hash := by
        intro hash hhash
        obtain ⟨tenantId, presented⟩ := caller
        cases hhash
        exact hsame
      have hlive : ∀ hash ∈ caller.grantTokenHash, ∃ grant,
          history.repo.enrollmentGrants.get? hash = some grant ∧
            request.presentedAt < grant.expiresAt :=
        fun hash hhash => enrollmentCaller_grant hcaller hhash
      simp only
      split
      · rename_i hrun
        rw [runEnroll_error hrun]
        exact hinv
      · rename_i credential repo' hrun
        have houtcome := runEnroll_outcome hrun
        have hkeep := houtcome.keepsConsumed
        cases houtcome with
        | replayed same recorded =>
          subst same
          have henrolled : history.enrolled rt request caller credential =
              history.enrollments := by
            rw [EnrollmentHistory.enrolled, if_pos]
            exact Dict.contains_iff.mpr ⟨_, recorded⟩
          rw [henrolled]
          exact hinv.replay recorded hlive hsame'
        | fresh grant consumedAt new unused grants recorded =>
          exact hinv.fresh hkeep new unused grants recorded hlive

/-- Every credential that was returned belongs to the endpoint that consumed the grant. -/
def AnswersBound (history : EnrollmentHistory) : Prop :=
  ∀ a ∈ history.answers, ∃ grant,
    ConsumedBy history.repo a.grantTokenHash a.credential.endpointId grant ∧
      a.presentedAt < grant.expiresAt

/--
In every run in which no request repeats the key and the body of an enrollment made with another
grant: a caller with a grant gets only the credential of the endpoint that consumed it, the
grant was known and live when it was presented, and no grant was used for two enrollments.
-/
theorem grant_binding {rt : Runtime} {config : CloudServiceSettings}
    {events : List EnrollmentEvent}
    (hsame : Guarded (EnrollmentHistory.step rt config) (SameGrant rt config) {} events) :
    AnswersBound (runFrom (EnrollmentHistory.step rt config) {} events) ∧
    ((runFrom (EnrollmentHistory.step rt config) {} events).enrollments.filterMap
      (·.grantTokenHash)).Nodup := by
  have hinv := hsame.invariant (fun _ _ => GrantBinding.step) grantBinding_empty
  exact ⟨hinv.answered, hinv.once⟩

/-! ## Two devices with one key -/

def sampleSettings : CloudServiceSettings := .standard

def sampleGrantToken (grantId : String) : String :=
  sampleSettings.issuer.issueEnrollmentToken Runtime.sample grantId

/-- An administrator issues a grant. -/
def issueGrant (grantId key : String) : EnrollmentEvent :=
  .issue "tenant" "admin" {} (some key) grantId 0 0

/-- A device enrolls with the grant; every device sends the same description of itself. -/
def useGrant (grantId key endpointId credentialId : String) : EnrollmentEvent :=
  .enroll {
    token := sampleGrantToken grantId
    body := ⟨"golden-image", .windows, "11", "x86_64", "1.1.0"⟩
    idempotencyKey := some key
    endpointId := endpointId
    credentialId := credentialId
    presentedAt := seconds 60
    now := seconds 60
    auditedAt := seconds 60 }

def enrollmentRun (events : List EnrollmentEvent) : EnrollmentHistory :=
  runFrom (EnrollmentHistory.step Runtime.sample sampleSettings) {} events

/-- The endpoints whose credentials were returned. -/
def answeredEndpoints (events : List EnrollmentEvent) : List String :=
  (enrollmentRun events).answers.map (·.credential.endpointId)

/-- The endpoint that consumed a grant. -/
def grantEndpoint (events : List EnrollmentEvent) (grantId : String) : Option String :=
  ((enrollmentRun events).repo.enrollmentGrants.get?
    (sampleSettings.issuer.tokenHash Runtime.sample (sampleGrantToken grantId))).bind (·.endpointId)

/-- A repeated request is answered with the same credential. -/
theorem grant_binding_repeated :
    AnswersBound (enrollmentRun [issueGrant "grant-1" "issue-1",
      useGrant "grant-1" "enroll" "endpoint-1" "credential-1",
      useGrant "grant-1" "enroll" "endpoint-2" "credential-2"]) :=
  (grant_binding (by decide +kernel)).1

/-- The second device presents its own grant and gets the credential of the first. -/
theorem grant_binding_shared_key :
    let events := [issueGrant "grant-1" "issue-1", issueGrant "grant-2" "issue-2",
      useGrant "grant-1" "enroll" "endpoint-1" "credential-1",
      useGrant "grant-2" "enroll" "endpoint-2" "credential-2"]
    answeredEndpoints events = ["endpoint-1", "endpoint-1"] ∧
      grantEndpoint events "grant-1" = some "endpoint-1" ∧
      grantEndpoint events "grant-2" = none := by
  decide +kernel

end OsScanner.Cloud

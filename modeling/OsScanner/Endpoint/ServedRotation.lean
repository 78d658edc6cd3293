import Mathlib
import OsScanner.Cloud.Credentials
import OsScanner.Endpoint.Credentials

/-!
# What the control plane does with a rotation

The handler refuses a rotation, answers from the record of an earlier one, or issues the next
credential. What was issued stays issued.
-/

namespace OsScanner.Endpoint

open Lib Cloud

/-! ## Serving a rotation -/

theorem asCredential_eq_ok {response : Response} {credential : CredentialRecord} :
    response.asCredential = .ok credential ↔ response = .credential credential := by
  cases response <;> simp [Response.asCredential, fail]

/-- A rotation that the control plane takes up: the caller is who the body says. -/
structure Accepted (rt : Runtime) (config : CloudServiceSettings) (token endpointId : String)
    (generation : Nat) (credentialId key : String) (served : RotateServed)
    (repo : InMemoryRepository) (principal : DevicePrincipal) (body : CredentialRotation) :
    Prop where
  caller : authenticateDevice repo (config.issuer.tokenHash rt token) served.presentedAt =
    some principal
  parsed : CredentialRotation.parse endpointId generation credentialId = .ok body
  endpointId : principal.endpointId = endpointId
  generation : principal.generation = generation
  credentialId : principal.credentialId = credentialId
  key : checkIdempotencyKey (some key) = .ok key

/-- The credential that the control plane draws for a rotation. -/
def rotatedCredential (rt : Runtime) (config : CloudServiceSettings) (endpointId : String)
    (generation : Nat) (served : RotateServed) (principal : DevicePrincipal) : CredentialRecord :=
  newCredential principal.tenantId principal.endpointId served.credentialId
    (config.issuer.tokenHash rt
      (config.issuer.issueToken rt endpointId served.credentialId (generation + 1)))
    (generation + 1) served.now config.credentialTtlSeconds

theorem parse_eq_ok {endpointId : String} {generation : Nat} {credentialId : String}
    {body : CredentialRotation}
    (h : CredentialRotation.parse endpointId generation credentialId = .ok body) :
    body.endpointId = endpointId ∧ body.generation = generation ∧
      body.credentialId = credentialId := by
  unfold CredentialRotation.parse at h
  split at h
  · cases h
    exact ⟨rfl, rfl, rfl⟩
  · cases h

/-- What the repository is asked to do. -/
def rotation (rt : Runtime) (config : CloudServiceSettings) (endpointId : String)
    (generation : Nat) (credentialId key : String) (served : RotateServed)
    (principal : DevicePrincipal) (body : CredentialRotation) : RepositoryMethod CredentialRecord :=
  rotateCredential principal generation credentialId
    (rotatedCredential rt config endpointId generation served principal)
    config.credentialRotationOverlapSeconds key (requestHash rt body.dump) served.auditedAt

/-- The handler refuses a request that is not accepted, and passes on the others. -/
theorem rotate_run {rt : Runtime} {config : CloudServiceSettings} {endpointId key : String}
    {served : RotateServed} {principal : DevicePrincipal} {body : CredentialRotation}
    (hbody : body.endpointId = endpointId) (repo : InMemoryRepository) :
    (principal.endpointId = endpointId ∧ principal.generation = body.generation ∧
        principal.credentialId = body.credentialId ∧ checkIdempotencyKey (some key) = .ok key ∧
      Cloud.rotate rt config endpointId body principal (some key) served.credentialId served.now
          served.auditedAt =
        Handler.ofRepository (rotation rt config endpointId body.generation body.credentialId key
          served principal body)) ∨
      (¬ (principal.endpointId = endpointId ∧ principal.generation = body.generation ∧
        principal.credentialId = body.credentialId ∧ checkIdempotencyKey (some key) = .ok key) ∧
        ∃ e, (Cloud.rotate rt config endpointId body principal (some key) served.credentialId
          served.now served.auditedAt).run repo = (.error e, repo)) := by
  by_cases hid : principal.endpointId = endpointId
  · by_cases hstale : principal.generation = body.generation ∧
        principal.credentialId = body.credentialId
    · cases hkey : checkIdempotencyKey (some key) with
      | error e =>
        refine Or.inr ⟨fun h => (nomatch h.2.2.2), e, ?_⟩
        simp [Cloud.rotate, Check.raiseIf, hbody, hid, hstale.1, hstale.2, hkey]
      | ok key' =>
        cases checkIdempotencyKey_some hkey
        refine Or.inl ⟨hid, hstale.1, hstale.2, rfl, Method.ext fun repo => ?_⟩
        simp [Cloud.rotate, Check.raiseIf, hbody, hid, hstale.1, hstale.2, hkey, rotation,
          rotatedCredential]
    · refine Or.inr ⟨fun h => hstale ⟨h.2.1, h.2.2.1⟩, ⟨409, "credential rotation request is stale"⟩,
        ?_⟩
      have hstale' : body.generation ≠ principal.generation ∨
          body.credentialId ≠ principal.credentialId := by
        by_contra h
        rw [not_or, not_not, not_not] at h
        exact hstale ⟨h.1.symm, h.2.symm⟩
      simp [Cloud.rotate, Check.raiseIf, hbody, hid, hstale']
  · refine Or.inr ⟨fun h => hid h.1, ⟨404, "endpoint was not found"⟩, ?_⟩
    simp [Cloud.rotate, Check.raiseIf, hbody, Ne.symm hid]

/-- A served rotation is refused before it reaches the repository, or it reaches it. -/
theorem serveRotate_run (rt : Runtime) (config : CloudServiceSettings) (token endpointId : String)
    (generation : Nat) (credentialId key : String) (served : RotateServed)
    (repo : InMemoryRepository) :
    ((∀ principal body, ¬ Accepted rt config token endpointId generation credentialId key served
          repo principal body) ∧
      ∃ e, (serveRotate rt config token endpointId generation credentialId key served).run repo =
        (.error e, repo)) ∨
      ∃ principal body, Accepted rt config token endpointId generation credentialId key served repo
          principal body ∧
        (serveRotate rt config token endpointId generation credentialId key served).run repo =
          (credentialResponse rt config <$> Handler.ofRepository (rotation rt config endpointId
            generation credentialId key served principal body)).run repo := by
  simp only [serveRotate, devicePrincipal, Method.run_reading_bind, Method.run_ofExcept_bind,
    bind_pure_comp]
  cases hauth : authenticateDevice repo (config.issuer.tokenHash rt token) served.presentedAt with
  | none => exact Or.inl ⟨fun _ _ h => (by rw [h.caller] at hauth; cases hauth), _, rfl⟩
  | some principal =>
    cases hparse : CredentialRotation.parse endpointId generation credentialId with
    | error e => exact Or.inl ⟨fun _ _ h => (by rw [h.parsed] at hparse; cases hparse), _, rfl⟩
    | ok body =>
      obtain ⟨hbe, hbg, hbc⟩ := parse_eq_ok hparse
      subst hbg hbc
      rcases rotate_run hbe repo with ⟨hid, hgeneration, hcid, hkey, hrun⟩ | ⟨hno, e, hrun⟩
      · refine Or.inr ⟨principal, body, ⟨hauth, hparse, hid, hgeneration, hcid, hkey⟩, ?_⟩
        simp only
        rw [hrun]
      · refine Or.inl ⟨fun p b h => ?_, e, ?_⟩
        · have hcaller := h.caller
          rw [hauth, Option.some.injEq] at hcaller
          subst hcaller
          exact hno ⟨h.endpointId, h.generation, h.credentialId, h.key⟩
        · simp only [Method.run_map, hrun]

/-- What a served rotation did. -/
inductive RotateOutcome (rt : Runtime) (config : CloudServiceSettings)
    (token endpointId : String) (generation : Nat) (credentialId key : String)
    (served : RotateServed) (repo repo' : InMemoryRepository) :
    Except HttpError CredentialResponse → Prop
  | refused (e : HttpError) (same : repo' = repo) :
      RotateOutcome rt config token endpointId generation credentialId key served repo repo'
        (.error e)
  | replayed (principal : DevicePrincipal) (body : CredentialRotation)
      (recorded : CredentialRecord)
      (accepted : Accepted rt config token endpointId generation credentialId key served repo
        principal body)
      (found : repo.idempotency.get? ⟨principal.tenantId, rotateOperation endpointId, key⟩ =
        some (requestHash rt body.dump, .credential recorded))
      (same : repo' = repo) :
      RotateOutcome rt config token endpointId generation credentialId key served repo repo'
        (.ok (credentialResponse rt config recorded))
  | rotated (principal : DevicePrincipal) (body : CredentialRotation)
      (endpoint : EndpointRecord) (currentHash : String) (current new : CredentialRecord)
      (hnew : rotatedCredential rt config endpointId generation served principal = new)
      (accepted : Accepted rt config token endpointId generation credentialId key served repo
        principal body)
      (source : RotationSource principal generation credentialId new repo endpoint currentHash
        current)
      (endpoints : repo'.endpoints = repo.endpoints.set endpoint.endpointId
        { endpoint with
          credentialGeneration := new.generation
          lastSeenAt := new.issuedAt })
      (credentials : repo'.credentials = (repo.credentials.set currentHash
        { current with
          supersededAt := some new.issuedAt
          validUntil := some (min current.expiresAt
            (new.issuedAt + seconds config.credentialRotationOverlapSeconds)) }).set
        new.tokenHash new)
      (idempotency : repo'.idempotency = repo.idempotency.set
        ⟨principal.tenantId, rotateOperation endpointId, key⟩
        (requestHash rt body.dump, .credential new)) :
      RotateOutcome rt config token endpointId generation credentialId key served repo repo'
        (.ok (credentialResponse rt config new))

theorem serveRotate_outcome {rt : Runtime} {config : CloudServiceSettings}
    {token endpointId : String} {generation : Nat} {credentialId key : String}
    {served : RotateServed} {repo repo' : InMemoryRepository}
    {result : Except HttpError CredentialResponse}
    (h : (serveRotate rt config token endpointId generation credentialId key served).run repo =
      (result, repo')) :
    RotateOutcome rt config token endpointId generation credentialId key served repo repo'
      result := by
  rcases serveRotate_run rt config token endpointId generation credentialId key served repo with
    ⟨-, e, hrun⟩ | ⟨principal, body, accepted, hrun⟩
  · rw [hrun] at h
    cases h
    exact .refused e rfl
  · rw [hrun, Method.run_map] at h
    have hid := accepted.endpointId
    rcases hrotation : (rotation rt config endpointId generation credentialId key served principal
      body).run repo with ⟨_ | credential, repo₁⟩ <;> rw [run_ofRepository hrotation] at h <;>
      cases h
    · rcases rotateCredential_effect hrotation with ⟨rfl, -⟩ | ⟨_, _, _, -, -, hresult, -⟩
      · exact .refused _ rfl
      · cases hresult
    · rcases rotateCredential_effect hrotation with
        ⟨rfl, hreplays | ⟨_, herror⟩⟩ |
          ⟨endpoint, currentHash, current, -, source, hresult, _, rfl⟩
      · generalize hresult : (Except.ok credential : Except RepositoryError CredentialRecord) =
          result at hreplays
        cases hreplays with
        | conflict => cases hresult
        | replayed found =>
          rw [asCredential_eq_ok.mp hresult.symm, hid] at found
          exact .replayed principal body credential accepted found rfl
      · cases herror
      · cases hresult
        exact .rotated principal body endpoint currentHash current _ rfl accepted source rfl rfl
          (by rw [hid])

/-- A recorded response answers an accepted rotation. -/
theorem serveRotate_replays {rt : Runtime} {config : CloudServiceSettings}
    {token endpointId : String} {generation : Nat} {credentialId key : String}
    {served : RotateServed} {repo : InMemoryRepository} {principal : DevicePrincipal}
    {body : CredentialRotation} {recorded : CredentialRecord}
    (accepted : Accepted rt config token endpointId generation credentialId key served repo
      principal body)
    (found : repo.idempotency.get? ⟨principal.tenantId, rotateOperation endpointId, key⟩ =
      some (requestHash rt body.dump, .credential recorded)) :
    (serveRotate rt config token endpointId generation credentialId key served).run repo =
      (.ok (credentialResponse rt config recorded), repo) := by
  rcases serveRotate_run rt config token endpointId generation credentialId key served repo with
    ⟨hno, -⟩ | ⟨principal', body', accepted', hrun⟩
  · exact absurd accepted (hno _ _)
  · have hp := accepted.caller
    rw [accepted'.caller, Option.some.injEq] at hp
    have hb := accepted.parsed
    rw [accepted'.parsed, Except.ok.injEq] at hb
    subst hp hb
    rw [← accepted.endpointId] at found
    have hreplay : (rotation rt config endpointId generation credentialId key served principal'
        body').run repo = (.ok recorded, repo) := by
      simp [rotation, rotateCredential, idempotent, replay, found, Response.asCredential]
    rw [hrun, Method.run_map, run_ofRepository hreplay]
    rfl

/-! ## Serving an enrollment -/

/-- What a served enrollment did. -/
inductive ServedEnrollment (rt : Runtime) (config : CloudServiceSettings)
    (body : EndpointEnrollment) (key : String) (served : EnrollServed)
    (repo repo' : InMemoryRepository) : Except HttpError CredentialResponse → Prop
  | refused (e : HttpError) (same : repo' = repo) :
      ServedEnrollment rt config body key served repo repo' (.error e)
  | replayed (tenantId : String) (recorded : CredentialRecord)
      (found : repo.idempotency.get? ⟨tenantId, "enroll", key⟩ =
        some (requestHash rt body.dump, .credential recorded))
      (same : repo' = repo) :
      ServedEnrollment rt config body key served repo repo'
        (.ok (credentialResponse rt config recorded))
  | enrolled (tenantId : String) (new : CredentialRecord)
      (hnew : newCredential tenantId served.endpointId served.credentialId
        (config.issuer.tokenHash rt
          (config.issuer.issueToken rt served.endpointId served.credentialId 1)) 1 served.now
        config.credentialTtlSeconds = new)
      (newEndpointId : repo.endpoints.get? served.endpointId = none)
      (newHash : repo.credentials.get? new.tokenHash = none)
      (endpoints : repo'.endpoints = repo.endpoints.set served.endpointId
        (newEndpoint tenantId served.endpointId body served.now))
      (credentials : repo'.credentials = repo.credentials.set new.tokenHash new)
      (idempotency : repo'.idempotency = repo.idempotency.set ⟨tenantId, "enroll", key⟩
        (requestHash rt body.dump, .credential new)) :
      ServedEnrollment rt config body key served repo repo'
        (.ok (credentialResponse rt config new))

theorem serveEnroll_outcome {rt : Runtime} {config : CloudServiceSettings} {token : String}
    {body : EndpointEnrollment} {key : String} {served : EnrollServed}
    {repo repo' : InMemoryRepository} {result : Except HttpError CredentialResponse}
    (h : (serveEnroll rt config token body key served).run repo = (result, repo')) :
    ServedEnrollment rt config body key served repo repo' result := by
  simp only [serveEnroll, enrollmentPrincipal, Method.run_reading_bind, bind_pure_comp] at h
  cases hcaller : enrollmentCaller rt config token served.presentedAt repo with
  | error e =>
    rw [hcaller] at h
    cases h
    exact .refused e rfl
  | ok caller =>
    rw [hcaller] at h
    simp only [Method.run_map, Cloud.enroll, Method.run_ofExcept_bind] at h
    cases hkey : checkIdempotencyKey (some key) with
    | error e =>
      rw [hkey] at h
      cases h
      exact .refused e rfl
    | ok key' =>
      cases checkIdempotencyKey_some hkey
      rw [hkey] at h
      simp only at h
      generalize hmethod : enrollEndpoint caller.tenantId _ _ _ _ _ _ = method at h
      rcases hrun : method.run repo with ⟨_ | credential, repo₁⟩ <;>
        rw [run_ofRepository hrun] at h <;> cases h <;> subst hmethod
      · rcases enrollEndpoint_effect hrun with ⟨rfl, -⟩ | ⟨_, -, -, -, -, hresult, -⟩
        · exact .refused _ rfl
        · cases hresult
      · rcases enrollEndpoint_effect hrun with
          ⟨rfl, hreplays | ⟨_, herror⟩⟩ | ⟨_, -, -, hendpoint, hhash, hresult, _, rfl⟩
        · generalize hresult : (Except.ok credential : Except RepositoryError CredentialRecord) =
            result at hreplays
          cases hreplays with
          | conflict => cases hresult
          | replayed found =>
            rw [asCredential_eq_ok.mp hresult.symm] at found
            exact .replayed caller.tenantId credential found rfl
        · cases herror
        · cases hresult
          exact .enrolled caller.tenantId _ rfl hendpoint hhash rfl rfl rfl

/-! ## What was issued -/

/-- A credential as it was issued: supersession does not change it. -/
def asIssued (credential : CredentialRecord) : CredentialRecord :=
  { credential with supersededAt := none, validUntil := none }

def Issued (repo : InMemoryRepository) (hash : String) (credential : CredentialRecord) : Prop :=
  (repo.credentials.get? hash).map asIssued = some credential

theorem issued_of_get? {repo : InMemoryRepository} {hash : String} {credential : CredentialRecord}
    (h : repo.credentials.get? hash = some credential) : Issued repo hash (asIssued credential) := by
  rw [Issued, h, Option.map_some]

theorem Issued.get? {repo : InMemoryRepository} {hash : String} {credential : CredentialRecord}
    (h : Issued repo hash credential) :
    ∃ stored, repo.credentials.get? hash = some stored ∧ asIssued stored = credential :=
  Option.map_eq_some_iff.mp h

/-- One credential was issued and nothing else. -/
def Adds (repo repo' : InMemoryRepository) (hash : String) (new : CredentialRecord) : Prop :=
  ∀ h c, Issued repo' h c ↔ (h = hash ∧ c = new) ∨ Issued repo h c

theorem adds_set {repo repo' : InMemoryRepository} {hash : String} {new : CredentialRecord}
    (hfresh : repo.credentials.get? hash = none) (hnew : asIssued new = new)
    (h : repo'.credentials = repo.credentials.set hash new) : Adds repo repo' hash new := by
  intro h' c
  rw [Issued, Issued, h, Dict.get?_set]
  by_cases hk : hash = h'
  · subst hk
    rw [if_pos rfl, hfresh, Option.map_some, hnew]
    simp [eq_comm]
  · rw [if_neg hk]
    simp [Ne.symm hk]

theorem adds_rotated {repo repo' : InMemoryRepository} {hash currentHash : String}
    {new current current' : CredentialRecord}
    (hfresh : repo.credentials.get? hash = none) (hnew : asIssued new = new)
    (hcurrent : repo.credentials.get? currentHash = some current)
    (h : repo'.credentials = (repo.credentials.set currentHash current').set hash new)
    (hsame : asIssued current' = asIssued current) :
    Adds repo repo' hash new := by
  intro h' c
  rw [Issued, Issued, h, Dict.get?_set]
  by_cases hk : hash = h'
  · subst hk
    rw [if_pos rfl, hfresh, Option.map_some, hnew]
    simp [eq_comm]
  · rw [if_neg hk, Dict.get?_set]
    by_cases hc : currentHash = h'
    · subst hc
      rw [if_pos rfl, hcurrent, Option.map_some, Option.map_some, hsame]
      simp [Ne.symm hk]
    · rw [if_neg hc]
      simp [Ne.symm hk]

end OsScanner.Endpoint

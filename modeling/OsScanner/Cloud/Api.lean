import Mathlib
import OsScanner.Cloud.Effects
import OsScanner.Json.Canonical

/-!
# The enrollment and rotation handlers

`cloud_service/security.py` and the handlers of `cloud_service/app.py` that issue credentials:
they authenticate the caller, build the records with fresh identifiers and the digest of the
request body, call the repository, and answer with a token derived from what it returned.
-/

namespace OsScanner.Cloud

open Lib

/-! ## Tokens -/

/-- `hash_token(token, pepper)` -/
def hashToken (rt : Runtime) (token pepper : String) : String := rt.hmacSha256 pepper token

/-- `token_tenant(token, configured, pepper)`: the last configured match wins. -/
def tokenTenant (rt : Runtime) (token : String) (configured : List (String × String))
    (pepper : String) : Option String :=
  configured.foldl (fun tenant known =>
    if hashToken rt token pepper = hashToken rt known.1 pepper then some known.2 else tenant) none

structure CredentialIssuer where
  pepper : String

namespace CredentialIssuer

variable (rt : Runtime) (issuer : CredentialIssuer)

def issueToken (endpointId credentialId : String) (generation : Nat) : String :=
  "esc_v1." ++ credentialId ++ "." ++
    rt.hmacSha512 issuer.pepper
      (endpointId ++ "\x00" ++ credentialId ++ "\x00" ++ toString generation)

def issueEnrollmentToken (grantId : String) : String :=
  "esc_enroll_v1." ++ grantId ++ "." ++
    rt.hmacSha512 issuer.pepper ("enrollment" ++ "\x00" ++ grantId)

def tokenHash (token : String) : String := hashToken rt token issuer.pepper

end CredentialIssuer

/-! ## Requests and responses -/

structure EndpointEnrollment where
  hostname : String
  osFamily : OsFamily
  osVersion : String
  architecture : String
  scannerVersion : String
  deriving DecidableEq

/-- `body.model_dump(mode="json")` -/
def EndpointEnrollment.dump (body : EndpointEnrollment) : JsonObject :=
  [("hostname", .str body.hostname), ("os_family", .str body.osFamily.text),
    ("os_version", .str body.osVersion), ("architecture", .str body.architecture),
    ("scanner_version", .str body.scannerVersion)]

structure EnrollmentTokenRequest where
  expiresInSeconds : Int := 900
  osFamily : Option OsFamily := none
  label : Option String := none
  deriving DecidableEq

def EnrollmentTokenRequest.dump (body : EnrollmentTokenRequest) : JsonObject :=
  [("expires_in_seconds", .int body.expiresInSeconds),
    ("os_family", Json.ofOption (body.osFamily.map OsFamily.text)),
    ("label", Json.ofOption body.label)]

/-- `^[A-Za-z0-9][A-Za-z0-9._:-]{0,127}$` -/
def isIdentifier (text : String) : Bool :=
  match text.toList with
  | [] => false
  | c :: rest => c.isAlphanum && decide (rest.length ≤ 127) &&
    rest.all fun c => c.isAlphanum || c == '.' || c == '_' || c == ':' || c == '-'

/-- A body that does not meet the bounds is never built: the request is answered with 422. -/
structure CredentialRotation where
  endpointId : String
  generation : Nat
  credentialId : String
  endpointId_identifier : isIdentifier endpointId = true
  generation_range : 1 ≤ generation ∧ generation ≤ 1000000
  credentialId_identifier : isIdentifier credentialId = true

def CredentialRotation.dump (body : CredentialRotation) : JsonObject :=
  [("endpoint_id", .str body.endpointId), ("generation", .int body.generation),
    ("credential_id", .str body.credentialId)]

/-- `canonical_sha256(body.model_dump(mode="json"))` -/
def requestHash (rt : Runtime) (document : JsonObject) : String :=
  Json.canonicalSha256 rt (.obj document)

structure HttpError where
  status : Nat
  detail : String
  deriving DecidableEq

/-- Reading the body of a rotation. -/
def CredentialRotation.parse (endpointId : String) (generation : Nat) (credentialId : String) :
    Except HttpError CredentialRotation :=
  if h : isIdentifier endpointId = true ∧ (1 ≤ generation ∧ generation ≤ 1000000) ∧
      isIdentifier credentialId = true then
    .ok ⟨endpointId, generation, credentialId, h.1, h.2.1, h.2.2⟩
  else .error ⟨422, "request body is invalid"⟩

structure CredentialResponse where
  endpointId : String
  accessToken : String
  credentialId : String
  issuedAt : Timestamp
  expiresAt : Timestamp
  generation : Nat
  deriving DecidableEq

/-- What the exception handlers of the application make of an error. -/
def errorResponse (e : RepositoryError) : HttpError :=
  ⟨e.statusCode, if e.statusCode = 409 then e.message else "resource was not found"⟩

abbrev Handler := Method InMemoryRepository HttpError

def Handler.ofRepository {α : Type} (method : RepositoryMethod α) : Handler α :=
  ⟨fun repo => ((method.run repo).1.mapError errorResponse, (method.run repo).2)⟩

/-- `33 <= ord(character) != 127` -/
def isKeyCharacter (c : Char) : Bool := decide (33 ≤ c.toNat) && decide (c.toNat ≠ 127)

/-- `_idempotency(value)` -/
def checkIdempotencyKey (value : Option String) : Except HttpError String :=
  match value with
  | some key =>
    if 1 ≤ key.length ∧ key.length ≤ 256 ∧ key.toList.all isKeyCharacter then
      .ok key
    else .error ⟨400, "a valid Idempotency-Key is required"⟩
  | none => .error ⟨400, "a valid Idempotency-Key is required"⟩

structure CloudServiceSettings where
  bootstrapTokens : List (String × String) := []
  credentialPepper : String := "development-only-credential-pepper-change-me"
  credentialTtlSeconds : Int := 30 * 24 * 60 * 60
  credentialRotationOverlapSeconds : Int := 5 * 60
  credentialPepper_length : 32 ≤ credentialPepper.length ∧ credentialPepper.length ≤ 4096 := by
    decide
  credentialTtlSeconds_range : 300 ≤ credentialTtlSeconds ∧
    credentialTtlSeconds ≤ 366 * 24 * 60 * 60 := by decide
  credentialRotationOverlapSeconds_range : 0 ≤ credentialRotationOverlapSeconds ∧
    credentialRotationOverlapSeconds ≤ 24 * 60 * 60 := by decide

/-- Every default passes its own check. -/
def CloudServiceSettings.standard : CloudServiceSettings := {}

def CloudServiceSettings.issuer (config : CloudServiceSettings) : CredentialIssuer :=
  ⟨config.credentialPepper⟩

/-! ## The records that the handlers build -/

def newGrant (tenantId subject grantId tokenHash : String) (body : EnrollmentTokenRequest)
    (now : Timestamp) : EnrollmentGrantRecord where
  tenantId := tenantId
  grantId := grantId
  tokenHash := tokenHash
  issuedBy := subject
  issuedAt := now
  expiresAt := now + seconds body.expiresInSeconds
  osFamily := body.osFamily
  label := body.label

def newEndpoint (tenantId endpointId : String) (body : EndpointEnrollment) (now : Timestamp) :
    EndpointRecord where
  tenantId := tenantId
  endpointId := endpointId
  hostname := body.hostname
  osFamily := body.osFamily
  osVersion := body.osVersion
  architecture := body.architecture
  scannerVersion := body.scannerVersion
  credentialGeneration := 1
  enrolledAt := now
  lastSeenAt := now

def newCredential (tenantId endpointId credentialId tokenHash : String) (generation : Nat)
    (now : Timestamp) (ttlSeconds : Int) : CredentialRecord where
  tenantId := tenantId
  endpointId := endpointId
  credentialId := credentialId
  tokenHash := tokenHash
  generation := generation
  issuedAt := now
  expiresAt := now + seconds ttlSeconds

/-- The answer to a caller whose credential was stored or replayed. -/
def credentialResponse (rt : Runtime) (config : CloudServiceSettings) (stored : CredentialRecord) :
    CredentialResponse where
  endpointId := stored.endpointId
  accessToken := config.issuer.issueToken rt stored.endpointId stored.credentialId
    stored.generation
  credentialId := stored.credentialId
  issuedAt := stored.issuedAt
  expiresAt := stored.expiresAt
  generation := stored.generation

/-! ## The handlers -/

structure EnrollmentPrincipal where
  tenantId : String
  grantTokenHash : Option String := none
  deriving DecidableEq

/-- Who a bearer token enrolls for: a bootstrap token of a tenant, or the token of a live grant. -/
def enrollmentCaller (rt : Runtime) (config : CloudServiceSettings) (token : String)
    (now : Timestamp) (repo : InMemoryRepository) : Except HttpError EnrollmentPrincipal :=
  match tokenTenant rt token config.bootstrapTokens config.credentialPepper with
  | some tenant => .ok ⟨tenant, none⟩
  | none =>
    match authenticateEnrollmentGrant repo (config.issuer.tokenHash rt token) now with
    | some grant => .ok ⟨grant.tenantId, some (config.issuer.tokenHash rt token)⟩
    | none => .error ⟨401, "invalid enrollment credential"⟩

/-- `enrollment_principal` -/
def enrollmentPrincipal (rt : Runtime) (config : CloudServiceSettings) (token : String)
    (now : Timestamp) : Handler EnrollmentPrincipal :=
  .reading (enrollmentCaller rt config token now)

/-- `POST /api/v1/platform/enrollment-tokens` by an administrator of the tenant. -/
def platformCreateEnrollmentToken (rt : Runtime) (config : CloudServiceSettings)
    (tenantId subject : String) (body : EnrollmentTokenRequest) (idempotencyKey : Option String)
    (grantId : String) (now auditedAt : Timestamp) : Handler EnrollmentGrantRecord := do
  let key ← .ofExcept (checkIdempotencyKey idempotencyKey)
  let tokenHash := config.issuer.tokenHash rt (config.issuer.issueEnrollmentToken rt grantId)
  .ofRepository (createEnrollmentGrant rt (newGrant tenantId subject grantId tokenHash body now)
    key (requestHash rt body.dump) auditedAt)

/-- The body of `POST /api/v1/endpoint/enroll` once the caller is known. -/
def enroll (rt : Runtime) (config : CloudServiceSettings) (enrollment : EnrollmentPrincipal)
    (body : EndpointEnrollment) (idempotencyKey : Option String)
    (endpointId credentialId : String) (now auditedAt : Timestamp) :
    Handler CredentialRecord := do
  let key ← .ofExcept (checkIdempotencyKey idempotencyKey)
  let tokenHash := config.issuer.tokenHash rt (config.issuer.issueToken rt endpointId credentialId 1)
  .ofRepository (enrollEndpoint enrollment.tenantId
    (newEndpoint enrollment.tenantId endpointId body now)
    (newCredential enrollment.tenantId endpointId credentialId tokenHash 1 now
      config.credentialTtlSeconds)
    key (requestHash rt body.dump) enrollment.grantTokenHash auditedAt)

/-- `device_principal` -/
def devicePrincipal (rt : Runtime) (config : CloudServiceSettings) (token : String)
    (now : Timestamp) : Handler DevicePrincipal :=
  .reading fun repo =>
    match authenticateDevice repo (config.issuer.tokenHash rt token) now with
    | some principal => .ok principal
    | none => .error ⟨401, "invalid or expired endpoint credential"⟩

/-- The body of `POST /api/v1/endpoints/{endpoint_id}/credentials/rotate`, once the caller is known. -/
def rotate (rt : Runtime) (config : CloudServiceSettings) (endpointId : String)
    (body : CredentialRotation) (principal : DevicePrincipal) (idempotencyKey : Option String)
    (credentialId : String) (now auditedAt : Timestamp) : Handler CredentialRecord := do
  .ofExcept (Check.raiseIf (endpointId ≠ principal.endpointId ∨
    body.endpointId ≠ principal.endpointId) ⟨404, "endpoint was not found"⟩)
  .ofExcept (Check.raiseIf (body.generation ≠ principal.generation ∨
    body.credentialId ≠ principal.credentialId) ⟨409, "credential rotation request is stale"⟩)
  let key ← .ofExcept (checkIdempotencyKey idempotencyKey)
  let tokenHash := config.issuer.tokenHash rt
    (config.issuer.issueToken rt endpointId credentialId (body.generation + 1))
  .ofRepository (rotateCredential principal body.generation body.credentialId
    (newCredential principal.tenantId principal.endpointId credentialId tokenHash
      (body.generation + 1) now config.credentialTtlSeconds)
    config.credentialRotationOverlapSeconds key (requestHash rt body.dump) auditedAt)

/-! ## Running a handler -/

theorem run_ofRepository {α : Type} {method : RepositoryMethod α} {repo repo' : InMemoryRepository}
    {result : Except RepositoryError α} (h : method.run repo = (result, repo')) :
    (Handler.ofRepository method).run repo = (result.mapError errorResponse, repo') := by
  rw [Handler.ofRepository]
  simp only [h]

/-- A handler that answers was answered by the repository. -/
theorem ofRepository_eq_ok {α : Type} {method : RepositoryMethod α}
    {repo repo' : InMemoryRepository} {a : α} :
    (Handler.ofRepository method).run repo = (.ok a, repo') ↔
      method.run repo = (.ok a, repo') := by
  simp only [Handler.ofRepository]
  rcases hm : method.run repo with ⟨_ | _, _⟩ <;> simp [Except.mapError]

end OsScanner.Cloud

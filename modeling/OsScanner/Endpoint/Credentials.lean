import Mathlib
import OsScanner.Cloud.Api

/-!
# The credential of an endpoint

`app/enrollment/credentials.py`, `app/enrollment/service.py` and the retries of
`app/transport/client.py`: the endpoint keeps one credential for its identity, presents it to
the control plane, and replaces it by the answer to a rotation. Every attempt of one call
carries the same idempotency key; an answer may get lost after the server has done its work,
and the process may end before the answer is stored.
-/

namespace OsScanner.Endpoint

open Lib Cloud

/-! ## Errors -/

inductive ClientError where
  | missingCredential (message : String)
  | credentialExpired (message : String)
  | enrollment (message : String)
  | configuration (message : String)
  | network (message : String)
  | api (status : Nat)
  | processEnded
  deriving DecidableEq

/-! ## Credentials -/

/-- Bounded text without blanks or control characters. -/
def isPlainText (maximum : Nat) (text : String) : Bool :=
  decide (1 ≤ text.toList.length) && decide (text.toList.length ≤ maximum) &&
    text.toList.all isKeyCharacter

theorem isKeyCharacter_of_isAlphanum {c : Char} (h : c.isAlphanum = true) :
    isKeyCharacter c = true := by
  simp only [Char.isAlphanum, Char.isAlpha, Char.isUpper, Char.isLower, Char.isDigit,
    Bool.or_eq_true, Bool.and_eq_true, decide_eq_true_eq, UInt32.le_iff_toNat_le] at h
  simp only [isKeyCharacter, Bool.and_eq_true, decide_eq_true_eq]
  simp at h
  omega

/-- The characters of an identifier. -/
theorem isIdentifier_chars {text : String} (h : isIdentifier text = true) :
    1 ≤ text.toList.length ∧ text.toList.length ≤ 128 ∧
      ∀ c ∈ text.toList, isKeyCharacter c = true := by
  unfold isIdentifier at h
  split at h
  · cases h
  · rename_i c rest htext
    simp only [Bool.and_eq_true, decide_eq_true_eq, List.all_eq_true, Bool.or_eq_true,
      beq_iff_eq] at h
    obtain ⟨⟨hc, hlength⟩, hrest⟩ := h
    rw [htext, List.length_cons]
    refine ⟨by omega, by omega, fun d hd => ?_⟩
    rcases List.mem_cons.mp hd with rfl | hd
    · exact isKeyCharacter_of_isAlphanum hc
    · rcases hrest d hd with (((h | rfl) | rfl) | rfl) | rfl
      · exact isKeyCharacter_of_isAlphanum h
      all_goals decide

theorem isPlainText_of_isIdentifier {text : String} (h : isIdentifier text = true) :
    isPlainText 256 text = true := by
  obtain ⟨hone, hlength, hchars⟩ := isIdentifier_chars h
  simp only [isPlainText, Bool.and_eq_true, decide_eq_true_eq, List.all_eq_true]
  exact ⟨⟨hone, by omega⟩, hchars⟩

/-- A token that the control plane derives is accepted by the endpoint. -/
theorem issueToken_text (rt : Runtime) (issuer : CredentialIssuer) (endpointId : String)
    {credentialId : String} (generation : Nat) (h : isIdentifier credentialId = true) :
    isPlainText 16384 (issuer.issueToken rt endpointId credentialId generation) = true := by
  obtain ⟨-, hlength, hchars⟩ := isIdentifier_chars h
  have hmac := rt.hmacSha512_text issuer.pepper
    (endpointId ++ "\x00" ++ credentialId ++ "\x00" ++ toString generation)
  rw [isBase64Url, Bool.and_eq_true, decide_eq_true_eq, List.all_eq_true] at hmac
  have hpre : "esc_v1.".toList.length = 7 := by decide
  have hstart : "esc_v1.".toList.all isKeyCharacter = true := by decide
  rw [List.all_eq_true] at hstart
  simp only [isPlainText, CredentialIssuer.issueToken, String.toList_append, List.length_append,
    Bool.and_eq_true, decide_eq_true_eq, List.all_eq_true, List.mem_append]
  have hdot : ".".toList.length = 1 := by decide
  refine ⟨⟨by omega, by omega⟩, ?_⟩
  rintro c (((hc | hc) | hc) | hc)
  · exact hstart c hc
  · exact hchars c hc
  · have hdots : c = '.' := by simpa using hc
    subst hdots
    decide
  · have hurl := hmac.2 c hc
    simp only [isBase64UrlChar, Bool.or_eq_true, beq_iff_eq] at hurl
    rcases hurl with (hc | rfl) | rfl
    · exact isKeyCharacter_of_isAlphanum hc
    · decide
    · decide

/-- `EndpointCredential`: what its constructor rejects is never built. -/
structure EndpointCredential where
  endpointId : String
  accessToken : String
  issuedAt : Timestamp
  expiresAt : Timestamp
  credentialId : Option String
  generation : Nat
  endpointId_text : isPlainText 256 endpointId = true
  accessToken_text : isPlainText 16384 accessToken = true
  expires_after_issue : issuedAt < expiresAt
  generation_range : 1 ≤ generation ∧ generation ≤ 2147483647
  deriving DecidableEq

/-- `EndpointCredential.from_mapping(value, expected_endpoint_id=…)` -/
def EndpointCredential.fromResponse (value : CredentialResponse)
    (expectedEndpointId : Option String) : Option EndpointCredential :=
  if h : isPlainText 256 value.endpointId = true ∧ isPlainText 16384 value.accessToken = true ∧
      value.issuedAt < value.expiresAt ∧ 1 ≤ value.generation ∧ value.generation ≤ 2147483647 then
    if ∀ expected ∈ expectedEndpointId, value.endpointId = expected then
      some {
        endpointId := value.endpointId
        accessToken := value.accessToken
        issuedAt := value.issuedAt
        expiresAt := value.expiresAt
        credentialId := if value.credentialId = "" then none else some value.credentialId
        generation := value.generation
        endpointId_text := h.1
        accessToken_text := h.2.1
        expires_after_issue := h.2.2.1
        generation_range := h.2.2.2 }
    else none
  else none

/-- `_response_credential(response, expected_endpoint_id=…)` -/
def responseCredential (value : CredentialResponse) (expectedEndpointId : Option String) :
    Except ClientError EndpointCredential :=
  match EndpointCredential.fromResponse value expectedEndpointId with
  | some credential => .ok credential
  | none => .error (.enrollment "enrollment API returned an invalid credential")

/-! ## Requests -/

/-- What becomes of one attempt. -/
inductive Fate where
  | unsent
  | unanswered
  | answered
  deriving DecidableEq

/-- An attempt, with what the server draws when it serves it. -/
structure Attempt (δ : Type) where
  fate : Fate
  served : δ

/--
`CloudApiClient.request` with an idempotency key: an attempt without an answer is followed by
the next one, an answer ends the call. The control plane answers with no status that the client
retries.
-/
def request {δ α : Type} (serve : δ → Handler α) :
    List (Attempt δ) → Method InMemoryRepository ClientError α
  | [] => .raise (.network "cloud network request failed")
  | attempt :: attempts =>
    match attempt.fate with
    | .unsent => request serve attempts
    | .unanswered =>
      ⟨fun repo => (request serve attempts).run ((serve attempt.served).run repo).2⟩
    | .answered => ⟨fun repo =>
        (((serve attempt.served).run repo).1.mapError fun e => .api e.status,
          ((serve attempt.served).run repo).2)⟩

/-- What is drawn for each attempt that is served is fresh at that moment. -/
def FreshAttempts {δ α : Type} (fresh : InMemoryRepository → δ → Prop) (serve : δ → Handler α) :
    InMemoryRepository → List (Attempt δ) → Prop
  | _, [] => True
  | repo, attempt :: attempts =>
    match attempt.fate with
    | .unsent => FreshAttempts fresh serve repo attempts
    | .unanswered => fresh repo attempt.served ∧
        FreshAttempts fresh serve ((serve attempt.served).run repo).2 attempts
    | .answered => fresh repo attempt.served

instance decidableFreshAttempts {δ α : Type} (fresh : InMemoryRepository → δ → Prop)
    (serve : δ → Handler α) [∀ repo served, Decidable (fresh repo served)] :
    ∀ repo attempts, Decidable (FreshAttempts fresh serve repo attempts)
  | _, [] => isTrue trivial
  | repo, attempt :: attempts =>
    match h : attempt.fate with
    | .unsent =>
      have := decidableFreshAttempts fresh serve repo attempts
      decidable_of_iff (FreshAttempts fresh serve repo attempts) (by rw [FreshAttempts, h])
    | .unanswered =>
      have := decidableFreshAttempts fresh serve ((serve attempt.served).run repo).2 attempts
      decidable_of_iff (fresh repo attempt.served ∧
        FreshAttempts fresh serve ((serve attempt.served).run repo).2 attempts)
        (by rw [FreshAttempts, h])
    | .answered => decidable_of_iff (fresh repo attempt.served) (by rw [FreshAttempts, h])

theorem freshAttempts_true {δ α : Type} {serve : δ → Handler α} :
    ∀ {attempts : List (Attempt δ)} {repo : InMemoryRepository},
      FreshAttempts (fun _ _ => True) serve repo attempts := by
  intro attempts
  induction attempts with
  | nil => exact trivial
  | cons attempt attempts ih =>
    intro repo
    rw [FreshAttempts]
    split
    · exact ih
    · exact ⟨trivial, ih⟩
    · trivial

/-- What every served attempt preserves, the call preserves; and its answer is that of one. -/
theorem request_preserves {δ α : Type} {serve : δ → Handler α}
    {fresh : InMemoryRepository → δ → Prop} {P : InMemoryRepository → Prop}
    {Q : InMemoryRepository → α → Prop}
    (hserve : ∀ repo served, fresh repo served → P repo → P ((serve served).run repo).2 ∧
      ∀ a, ((serve served).run repo).1 = .ok a → Q ((serve served).run repo).2 a) :
    ∀ {attempts : List (Attempt δ)} {repo : InMemoryRepository},
      FreshAttempts fresh serve repo attempts → P repo →
      P ((request serve attempts).run repo).2 ∧ ∀ a,
        ((request serve attempts).run repo).1 = .ok a → Q ((request serve attempts).run repo).2 a := by
  intro attempts
  induction attempts with
  | nil => exact fun _ h => ⟨h, fun _ ha => nomatch ha⟩
  | cons attempt attempts ih =>
    intro repo hfresh h
    rw [FreshAttempts] at hfresh
    rw [request]
    cases hfate : attempt.fate with
    | unsent =>
      rw [hfate] at hfresh
      exact ih hfresh h
    | unanswered =>
      rw [hfate] at hfresh
      exact ih hfresh.2 (hserve repo attempt.served hfresh.1 h).1
    | answered =>
      rw [hfate] at hfresh
      obtain ⟨hp, hq⟩ := hserve repo attempt.served hfresh h
      refine ⟨hp, fun a ha => hq a ?_⟩
      simp only at ha
      cases hresult : ((serve attempt.served).run repo).1 with
      | error e =>
        rw [hresult] at ha
        cases ha
      | ok b =>
        rw [hresult] at ha
        cases ha
        rfl

/-- `_request_identifier(value, "idempotency_key")` -/
def requestIdentifier (key : String) : Except ClientError String :=
  match checkIdempotencyKey (some key) with
  | .ok key => .ok key
  | .error _ => .error (.configuration "idempotency_key contains invalid characters")

/-- `idempotency_key or str(uuid4())` -/
def requestKey (idempotencyKey : Option String) (drawn : String) : String :=
  match idempotencyKey with
  | none => drawn
  | some key => if key = "" then drawn else key

/-! ## The two parties -/

/-- The control plane, and the credential stores of the endpoints. -/
structure CredentialSystem where
  repo : InMemoryRepository := {}
  store : Dict String EndpointCredential := ∅

abbrev ClientMethod := Method CredentialSystem ClientError

def onCloud {α : Type} (method : Method InMemoryRepository ClientError α) : ClientMethod α :=
  ⟨fun system => ((method.run system.repo).1, { system with repo := (method.run system.repo).2 })⟩

def saveCredential (credential : EndpointCredential) : ClientMethod Unit :=
  .modify fun system =>
    { system with store := system.store.set credential.endpointId credential }

/-- What the server draws for an enrollment. -/
structure EnrollServed where
  endpointId : String
  credentialId : String
  presentedAt : Timestamp
  now : Timestamp
  auditedAt : Timestamp

/-- `POST /api/v1/endpoint/enroll` -/
def serveEnroll (rt : Runtime) (config : CloudServiceSettings) (token : String)
    (body : EndpointEnrollment) (key : String) (served : EnrollServed) :
    Handler CredentialResponse := do
  let enrollment ← enrollmentPrincipal rt config token served.presentedAt
  let stored ← enroll rt config enrollment body (some key) served.endpointId served.credentialId
    served.now served.auditedAt
  pure (credentialResponse rt config stored)

/-- What the server draws for a rotation. -/
structure RotateServed where
  credentialId : String
  presentedAt : Timestamp
  now : Timestamp
  auditedAt : Timestamp

/-- `POST /api/v1/endpoints/{endpoint_id}/credentials/rotate` -/
def serveRotate (rt : Runtime) (config : CloudServiceSettings) (token endpointId : String)
    (generation : Nat) (credentialId key : String) (served : RotateServed) :
    Handler CredentialResponse := do
  let principal ← devicePrincipal rt config token served.presentedAt
  let body ← .ofExcept (CredentialRotation.parse endpointId generation credentialId)
  let stored ← Cloud.rotate rt config endpointId body principal (some key) served.credentialId
    served.now served.auditedAt
  pure (credentialResponse rt config stored)

/-! ## The service -/

structure EnrollCall where
  token : String
  body : EndpointEnrollment
  idempotencyKey : Option String := none
  drawnKey : String
  attempts : List (Attempt EnrollServed)
  processEnds : Bool := false

def EnrollCall.key (call : EnrollCall) : String := requestKey call.idempotencyKey call.drawnKey

/-- `EnrollmentService.enroll` -/
def enroll (rt : Runtime) (config : CloudServiceSettings) (call : EnrollCall) :
    ClientMethod EndpointCredential := do
  let key ← .ofExcept (requestIdentifier call.key)
  let response ← onCloud (request (serveEnroll rt config call.token call.body key) call.attempts)
  .ofExcept (Check.raiseIf (call.processEnds = true) .processEnded)
  let credential ← .ofExcept (responseCredential response none)
  saveCredential credential
  pure credential

structure RotateCall where
  endpointId : String
  idempotencyKey : Option String := none
  drawnKey : String
  clock : Timestamp
  attempts : List (Attempt RotateServed)
  processEnds : Bool := false

def RotateCall.key (call : RotateCall) : String := requestKey call.idempotencyKey call.drawnKey

/-- The stored credential, if it can be rotated, with its identifier. -/
def rotatableCredential (endpointId : String) (clock : Timestamp) (system : CredentialSystem) :
    Except ClientError (EndpointCredential × String) :=
  match system.store.get? endpointId with
  | none =>
    .error (.missingCredential ("no cloud credential is stored for endpoint " ++ endpointId))
  | some current => do
    Check.raiseIf (clock ≥ current.expiresAt) (.credentialExpired
      ("cannot rotate expired credential for endpoint " ++ endpointId ++ "; re-enroll"))
    match current.credentialId with
    | none => .error (.enrollment
        "stored credential has no credential_id and cannot be rotated safely; re-enroll")
    | some credentialId => .ok (current, credentialId)

/-- `EnrollmentService.rotate` -/
def rotate (rt : Runtime) (config : CloudServiceSettings) (call : RotateCall) :
    ClientMethod EndpointCredential := do
  let (current, credentialId) ← .reading (rotatableCredential call.endpointId call.clock)
  let key ← .ofExcept (requestIdentifier call.key)
  let response ← onCloud (request (serveRotate rt config current.accessToken call.endpointId
    current.generation credentialId key) call.attempts)
  .ofExcept (Check.raiseIf (call.processEnds = true) .processEnded)
  let rotated ← .ofExcept (responseCredential response (some call.endpointId))
  .ofExcept (Check.raiseIf (rotated.generation ≤ current.generation)
    (.enrollment "rotated credential generation did not advance"))
  saveCredential rotated
  pure rotated

/-! ## Running the service -/

theorem checkIdempotencyKey_some {key key' : String} (h : checkIdempotencyKey (some key) = .ok key') :
    key' = key := by
  unfold checkIdempotencyKey at h
  split at h
  · split at h
    · rename_i hkey _
      cases h
      exact (Option.some.inj hkey).symm
    · cases h
  · cases h

@[simp] theorem run_onCloud_bind {α β : Type} (method : Method InMemoryRepository ClientError α)
    (next : α → ClientMethod β) (system : CredentialSystem) :
    (onCloud method >>= next).run system = match (method.run system.repo).1 with
      | .ok a => (next a).run { system with repo := (method.run system.repo).2 }
      | .error e => (.error e, { system with repo := (method.run system.repo).2 }) := by
  rw [Method.run_bind]
  simp only [onCloud]
  cases (method.run system.repo).1 <;> rfl

/-- What an answer makes of the store. -/
def storeAfter (call : RotateCall) (current : EndpointCredential)
    (answer : Except ClientError CredentialResponse) (store : Dict String EndpointCredential) :
    Dict String EndpointCredential :=
  match answer with
  | .error _ => store
  | .ok response =>
    if call.processEnds = true then store
    else match responseCredential response (some call.endpointId) with
      | .error _ => store
      | .ok rotated =>
        if rotated.generation ≤ current.generation then store
        else store.set rotated.endpointId rotated

/-- A rotation that is not sent changes nothing. -/
theorem rotate_unsent {rt : Runtime} {config : CloudServiceSettings} {call : RotateCall}
    {system : CredentialSystem}
    (h : ∀ current credentialId,
      rotatableCredential call.endpointId call.clock system = .ok (current, credentialId) →
        requestIdentifier call.key ≠ .ok call.key) :
    ((rotate rt config call).run system).2 = system := by
  simp only [rotate, Method.run_reading_bind, Method.run_ofExcept_bind]
  cases hcurrent : rotatableCredential call.endpointId call.clock system with
  | error e => rfl
  | ok source =>
    obtain ⟨current, credentialId⟩ := source
    have hkey := h current credentialId hcurrent
    unfold requestIdentifier at hkey ⊢
    cases hcheck : checkIdempotencyKey (some call.key) with
    | error e => rfl
    | ok key =>
      rw [hcheck] at hkey
      exact absurd (congrArg Except.ok (checkIdempotencyKey_some hcheck)) hkey

/-- A rotation that is sent: the control plane serves it and the store follows the answer. -/
theorem rotate_sent {rt : Runtime} {config : CloudServiceSettings} {call : RotateCall}
    {system : CredentialSystem} {current : EndpointCredential} {credentialId : String}
    (hcurrent : rotatableCredential call.endpointId call.clock system =
      .ok (current, credentialId))
    (hkey : requestIdentifier call.key = .ok call.key) :
    ((rotate rt config call).run system).2 =
      { repo := ((request (serveRotate rt config current.accessToken call.endpointId
          current.generation credentialId call.key) call.attempts).run system.repo).2
        store := storeAfter call current ((request (serveRotate rt config current.accessToken
          call.endpointId current.generation credentialId call.key) call.attempts).run
            system.repo).1 system.store } := by
  simp only [rotate, Method.run_reading_bind, Method.run_ofExcept_bind, hcurrent, hkey,
    run_onCloud_bind]
  generalize (request (serveRotate rt config current.accessToken call.endpointId
    current.generation credentialId call.key) call.attempts).run system.repo = outcome
  obtain ⟨answer, repo'⟩ := outcome
  cases answer with
  | error e => rfl
  | ok response =>
    simp only [storeAfter]
    by_cases hends : call.processEnds = true
    · rw [Check.raiseIf, if_pos hends, if_pos hends]
    · rw [Check.raiseIf, if_neg hends, if_neg hends]
      cases hread : responseCredential response (some call.endpointId) with
      | error e => rfl
      | ok rotated =>
        simp only
        by_cases hadvance : rotated.generation ≤ current.generation
        · rw [Check.raiseIf, if_pos hadvance, if_pos hadvance]
        · rw [Check.raiseIf, if_neg hadvance, if_neg hadvance]
          rfl

theorem rotatableCredential_eq_ok {endpointId : String} {clock : Timestamp}
    {system : CredentialSystem} {current : EndpointCredential} {credentialId : String} :
    rotatableCredential endpointId clock system = .ok (current, credentialId) ↔
      system.store.get? endpointId = some current ∧ clock < current.expiresAt ∧
        current.credentialId = some credentialId := by
  unfold rotatableCredential
  cases hstored : system.store.get? endpointId with
  | none => simp
  | some stored =>
    simp only [Check.bind_unit_eq_ok, Check.raiseIf_eq_ok, ge_iff_le, not_le, Option.some.injEq]
    constructor
    · rintro ⟨hclock, h⟩
      split at h
      · cases h
      · rename_i hid
        cases h
        exact ⟨rfl, hclock, hid⟩
    · rintro ⟨rfl, hclock, hid⟩
      rw [hid]
      exact ⟨hclock, rfl⟩

end OsScanner.Endpoint

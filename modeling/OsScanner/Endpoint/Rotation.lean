import Mathlib
import OsScanner.Endpoint.ServedRotation

/-!
# Rotation after a lost answer

The control plane commits a new generation before the endpoint stores it. When the answer is
lost in between, the endpoint is one generation behind, and the control plane refuses to rotate
an older credential again; only the recorded response of the lost rotation still leads to the
current credential. So the next rotation catches up exactly when it repeats the idempotency key
of the lost one.
-/

namespace OsScanner.Endpoint

open Lib Cloud

variable {rt : Runtime} {config : CloudServiceSettings}

/-! ## The control plane -/

theorem enroll_ne_rotateOperation (k : String) : "enroll" ≠ rotateOperation k := by
  intro h
  have hhead := congrArg (fun s => s.toList.head?) h
  simp [rotateOperation] at hhead

theorem rotateOperation_injective {a b : String} (h : rotateOperation a = rotateOperation b) :
    a = b := by
  have hlist := congrArg String.toList h
  simp only [rotateOperation, String.toList_append] at hlist
  exact String.toList_injective (List.append_cancel_left hlist)

/-- The response was recorded by a rotation: it holds the credential after an earlier one. -/
def Recorded (rt : Runtime) (repo : InMemoryRepository) (tenantId endpointId key digest : String)
    (response : Response) : Prop :=
  ∃ h c h' c' body, Issued repo h c ∧ Issued repo h' c' ∧ c.endpointId = endpointId ∧
    c'.endpointId = endpointId ∧ c.tenantId = tenantId ∧ c'.generation = c.generation + 1 ∧
    CredentialRotation.parse endpointId c.generation c.credentialId = .ok body ∧
    checkIdempotencyKey (some key) = .ok key ∧
    digest = requestHash rt body.dump ∧ response = .credential c'

/-- What holds of the control plane, besides the chains of generations. -/
structure IssueInvariant (rt : Runtime) (config : CloudServiceSettings)
    (repo : InMemoryRepository) : Prop where
  chain : CredentialInvariant repo
  /-- A credential is found under the digest of the token that is derived from it. -/
  token : ∀ {h c}, Issued repo h c →
    h = config.issuer.tokenHash rt
      (config.issuer.issueToken rt c.endpointId c.credentialId c.generation)
  owner : ∀ {h c e}, Issued repo h c → repo.endpoints.get? c.endpointId = some e →
    c.tenantId = e.tenantId
  identifiers : ∀ {h c}, Issued repo h c →
    isIdentifier c.endpointId = true ∧ isIdentifier c.credentialId = true ∧
      c.issuedAt < c.expiresAt
  recorded : ∀ {t k key d r},
    repo.idempotency.get? ⟨t, rotateOperation k, key⟩ = some (d, r) → Recorded rt repo t k key d r

/-- The endpoint keeps this credential. -/
structure Holds (rt : Runtime) (config : CloudServiceSettings) (stored : EndpointCredential)
    (c : CredentialRecord) : Prop where
  endpointId : stored.endpointId = c.endpointId
  accessToken : stored.accessToken =
    config.issuer.issueToken rt c.endpointId c.credentialId c.generation
  issuedAt : stored.issuedAt = c.issuedAt
  expiresAt : stored.expiresAt = c.expiresAt
  credentialId : stored.credentialId = some c.credentialId
  generation : stored.generation = c.generation

/-- What holds of both parties: an endpoint is at most one generation behind. -/
structure SystemInvariant (rt : Runtime) (config : CloudServiceSettings)
    (repo : InMemoryRepository) (store : Dict String EndpointCredential) : Prop where
  issue : IssueInvariant rt config repo
  stored : ∀ {k credential}, store.get? k = some credential →
    ∃ h c, Issued repo h c ∧ c.endpointId = k ∧ Holds rt config credential c
  behind : ∀ {k credential e}, store.get? k = some credential →
    repo.endpoints.get? k = some e → e.credentialGeneration ≤ credential.generation + 1

theorem Recorded.mono {repo repo' : InMemoryRepository} {t k key d : String} {r : Response}
    (hadds : ∀ h c, Issued repo h c → Issued repo' h c) (h : Recorded rt repo t k key d r) :
    Recorded rt repo' t k key d r := by
  obtain ⟨h, c, h', c', body, hc, hc', hrest⟩ := h
  exact ⟨h, c, h', c', body, hadds _ _ hc, hadds _ _ hc', hrest⟩

/-- Two credentials of one endpoint and one generation are the same. -/
theorem IssueInvariant.single {repo : InMemoryRepository} (hinv : IssueInvariant rt config repo)
    {h h' : String} {c c' : CredentialRecord} (hc : Issued repo h c) (hc' : Issued repo h' c')
    (he : c.endpointId = c'.endpointId) (hg : c.generation = c'.generation) :
    h = h' ∧ c = c' := by
  obtain ⟨s, hs, rfl⟩ := hc.get?
  obtain ⟨s', hs', rfl⟩ := hc'.get?
  have hh := hinv.chain.single hs hs' he hg
  subst hh
  rw [hs, Option.some.injEq] at hs'
  exact ⟨rfl, hs' ▸ rfl⟩

/-- Every issued credential belongs to an endpoint that has not fallen behind it. -/
theorem IssueInvariant.owned {repo : InMemoryRepository} (hinv : IssueInvariant rt config repo)
    {h : String} {c : CredentialRecord} (hc : Issued repo h c) :
    ∃ e, repo.endpoints.get? c.endpointId = some e ∧ 1 ≤ c.generation ∧
      c.generation ≤ e.credentialGeneration := by
  obtain ⟨s, hs, rfl⟩ := hc.get?
  obtain ⟨e, he, hone, hle, -⟩ := hinv.chain.owned hs
  exact ⟨e, he, hone, hle⟩

/-- The bearer of an endpoint's token is the endpoint. -/
theorem IssueInvariant.caller {repo : InMemoryRepository} (hinv : IssueInvariant rt config repo)
    {credential : EndpointCredential} {h : String} {c : CredentialRecord} (hc : Issued repo h c)
    (hholds : Holds rt config credential c) {now : Timestamp} {principal : DevicePrincipal}
    (hauth : authenticateDevice repo (config.issuer.tokenHash rt credential.accessToken) now =
      some principal) :
    principal = ⟨c.tenantId, c.endpointId, c.credentialId, c.generation⟩ := by
  obtain ⟨s, hs, rfl⟩ := hc.get?
  rw [hholds.accessToken, ← hinv.token hc, authenticateDevice, hs] at hauth
  simp only at hauth
  split at hauth
  · cases hauth
  · split at hauth
    · cases hauth
    · cases hauth
      rfl

theorem expires_after_issue (config : CloudServiceSettings) (now : Timestamp) :
    now < now + seconds config.credentialTtlSeconds := by
  have hrange := config.credentialTtlSeconds_range
  have hpos : (0 : Int) < seconds config.credentialTtlSeconds := by
    unfold seconds
    omega
  exact Int.lt_add_of_pos_right now hpos

/-! ### Enrollment -/

theorem IssueInvariant.enroll {repo repo' : InMemoryRepository} {tenantId endpointId credentialId : String}
    {body : EndpointEnrollment} {now : Timestamp} {key digest : String} {response : Response}
    (hinv : IssueInvariant rt config repo)
    (hidentifiers : isIdentifier endpointId = true ∧ isIdentifier credentialId = true)
    (hnew : repo.endpoints.get? endpointId = none)
    {new : CredentialRecord}
    (hcredential : newCredential tenantId endpointId credentialId
      (config.issuer.tokenHash rt (config.issuer.issueToken rt endpointId credentialId 1)) 1 now
      config.credentialTtlSeconds = new)
    (hfresh : repo.credentials.get? new.tokenHash = none)
    (hendpoints : repo'.endpoints = repo.endpoints.set endpointId
      (newEndpoint tenantId endpointId body now))
    (hcredentials : repo'.credentials = repo.credentials.set new.tokenHash new)
    (hidempotency : repo'.idempotency = repo.idempotency.set ⟨tenantId, "enroll", key⟩
      (digest, response)) :
    IssueInvariant rt config repo' ∧ Adds repo repo' new.tokenHash new := by
  have hadds : Adds repo repo' new.tokenHash new :=
    adds_set hfresh (by rw [← hcredential]; rfl) hcredentials
  have hold : ∀ {h c}, Issued repo h c → c.endpointId ≠ endpointId := by
    intro h c hc he
    obtain ⟨e, hfound, -⟩ := hinv.owned hc
    rw [he, hnew] at hfound
    cases hfound
  refine ⟨⟨?_, fun {h c} hc => ?_, fun {h c e} hc he => ?_, fun {h c} hc => ?_,
    fun {t k key d r} hr => ?_⟩, hadds⟩
  · subst hcredential
    exact @CredentialInvariant.enroll repo repo' (newEndpoint tenantId endpointId body now) _
      hinv.chain hnew hfresh rfl rfl rfl rfl hendpoints hcredentials
  · rcases (hadds h c).mp hc with ⟨rfl, rfl⟩ | hc
    · subst hcredential
      rfl
    · exact hinv.token hc
  · rcases (hadds h c).mp hc with ⟨rfl, rfl⟩ | hc
    · subst hcredential
      rw [hendpoints] at he
      simp only [newCredential, Dict.get?_set_self, Option.some.injEq] at he
      subst he
      rfl
    · rw [hendpoints, Dict.get?_set_ne (hold hc).symm] at he
      exact hinv.owner hc he
  · rcases (hadds h c).mp hc with ⟨rfl, rfl⟩ | hc
    · subst hcredential
      exact ⟨hidentifiers.1, hidentifiers.2, expires_after_issue config now⟩
    · exact hinv.identifiers hc
  · rw [hidempotency, Dict.get?_set_ne] at hr
    · exact (hinv.recorded hr).mono fun h c hc => (hadds h c).mpr (Or.inr hc)
    · intro hk
      exact enroll_ne_rotateOperation k (congrArg IdempotencyKey.operation hk)

/-! ### Rotation -/

theorem IssueInvariant.rotate {repo repo' : InMemoryRepository} {token endpointId : String}
    {generation : Nat} {credentialId key : String} {served : RotateServed}
    {principal : DevicePrincipal} {body : CredentialRotation} {endpoint : EndpointRecord}
    {currentHash : String} {current new : CredentialRecord} (hinv : IssueInvariant rt config repo)
    (hidentifier : isIdentifier served.credentialId = true)
    (hnew : rotatedCredential rt config endpointId generation served principal = new)
    (hfresh : repo.credentials.get? new.tokenHash = none)
    (accepted : Accepted rt config token endpointId generation credentialId key served repo
      principal body)
    (source : RotationSource principal generation credentialId new repo endpoint currentHash
      current)
    (hendpoints : repo'.endpoints = repo.endpoints.set endpoint.endpointId
      { endpoint with
        credentialGeneration := new.generation
        lastSeenAt := new.issuedAt })
    (hcredentials : repo'.credentials = (repo.credentials.set currentHash
      { current with
        supersededAt := some new.issuedAt
        validUntil := some (min current.expiresAt
          (new.issuedAt + seconds config.credentialRotationOverlapSeconds)) }).set
      new.tokenHash new)
    (hidempotency : repo'.idempotency = repo.idempotency.set
      ⟨principal.tenantId, rotateOperation endpointId, key⟩
      (requestHash rt body.dump, .credential new)) :
    IssueInvariant rt config repo' ∧ Adds repo repo' new.tokenHash new := by
  have hid := accepted.endpointId
  have hcurrentIssued := issued_of_get? source.currentFound
  have hkey : endpoint.endpointId = endpointId :=
    (hinv.chain.endpointKey source.endpointFound).trans hid
  have hnewEndpoint : new.endpointId = endpointId := by
    rw [← hnew]
    exact hid
  have hadds : Adds repo repo' new.tokenHash new :=
    adds_rotated hfresh (by rw [← hnew]; rfl) source.currentFound hcredentials rfl
  have hgrows : ∀ h c, Issued repo h c → Issued repo' h c :=
    fun h c hc => (hadds h c).mpr (Or.inr hc)
  have hnewIssued : Issued repo' new.tokenHash new := (hadds _ _).mpr (Or.inl ⟨rfl, rfl⟩)
  have hmine : repo.endpoints.get? endpointId = some endpoint := hid ▸ source.endpointFound
  refine ⟨⟨?_, fun {h c} hc => ?_, fun {h c e} hc he => ?_, fun {h c} hc => ?_,
    fun {t k key' d r} hr => ?_⟩, hadds⟩
  · refine hinv.chain.rotate hendpoints hcredentials
      (source.currentEndpoint ▸ source.endpointFound) source.currentFound
      (source.currentGeneration.trans source.generation.symm) hfresh ?_ ?_ ?_ rfl rfl
    · exact hnewEndpoint.trans (source.currentEndpoint.trans hid).symm
    · exact source.next.trans (congrArg (· + 1) source.generation.symm)
    · rw [← hnew]
      rfl
  · rcases (hadds h c).mp hc with ⟨rfl, rfl⟩ | hc
    · rw [← hnew]
      simp only [rotatedCredential, newCredential, hid]
    · exact hinv.token hc
  · rw [hendpoints, Dict.get?_set, hkey] at he
    rcases (hadds h c).mp hc with ⟨rfl, rfl⟩ | hc
    · rw [if_pos hnewEndpoint.symm, Option.some.injEq] at he
      subst he
      rw [← hnew]
      exact source.tenant.symm
    · by_cases hce : endpointId = c.endpointId
      · rw [if_pos hce, Option.some.injEq] at he
        rw [hce] at hmine
        have howner : c.tenantId = endpoint.tenantId := hinv.owner hc hmine
        rw [howner, ← he]
      · rw [if_neg hce] at he
        exact hinv.owner hc he
  · rcases (hadds h c).mp hc with ⟨rfl, rfl⟩ | hc
    · have hendpoint : isIdentifier current.endpointId = true :=
        (hinv.identifiers hcurrentIssued).1
      rw [source.currentEndpoint] at hendpoint
      rw [← hnew]
      exact ⟨hendpoint, hidentifier, expires_after_issue config served.now⟩
    · exact hinv.identifiers hc
  · rw [hidempotency, Dict.get?_set] at hr
    split at hr
    · rename_i hk
      obtain ⟨htenant, hoperation, rfl⟩ := (IdempotencyKey.mk.injEq ..).mp hk
      rw [← rotateOperation_injective hoperation]
      cases hr
      refine ⟨_, _, _, _, body, hgrows _ _ hcurrentIssued, hnewIssued,
        source.currentEndpoint.trans hid, hnewEndpoint, source.currentTenant.trans htenant, ?_, ?_,
        accepted.key, rfl, rfl⟩
      · exact source.next.trans (congrArg (· + 1) source.currentGeneration.symm)
      · have hparsed := accepted.parsed
        rw [← accepted.generation, ← accepted.credentialId, ← source.currentGeneration,
          ← source.currentId] at hparsed
        exact hparsed
    · exact (hinv.recorded hr).mono hgrows

/-! ## Both parties -/

/-- The answer is about a credential of the endpoint. -/
def Answers (rt : Runtime) (config : CloudServiceSettings) (endpointId : String)
    (repo : InMemoryRepository) (response : CredentialResponse) : Prop :=
  ∃ h c, Issued repo h c ∧ c.endpointId = endpointId ∧ response = credentialResponse rt config c

/-- What is drawn for a rotation. -/
def FreshRotation (rt : Runtime) (config : CloudServiceSettings) (endpointId : String)
    (generation : Nat) (repo : InMemoryRepository) (served : RotateServed) : Prop :=
  isIdentifier served.credentialId = true ∧
    repo.credentials.get? (config.issuer.tokenHash rt
      (config.issuer.issueToken rt endpointId served.credentialId (generation + 1))) = none

instance (endpointId : String) (generation : Nat) (repo : InMemoryRepository)
    (served : RotateServed) :
    Decidable (FreshRotation rt config endpointId generation repo served) := by
  unfold FreshRotation
  infer_instance

/-- A rotation by the endpoint that keeps the credential. -/
theorem SystemInvariant.rotation_served {repo : InMemoryRepository}
    {store : Dict String EndpointCredential} {endpointId credentialId key : String}
    {stored : EndpointCredential} {served : RotateServed}
    (hinv : SystemInvariant rt config repo store) (hstored : store.get? endpointId = some stored)
    (hfresh : FreshRotation rt config endpointId stored.generation repo served) :
    SystemInvariant rt config
        ((serveRotate rt config stored.accessToken endpointId stored.generation credentialId key
          served).run repo).2 store ∧
      ∀ response, ((serveRotate rt config stored.accessToken endpointId stored.generation
          credentialId key served).run repo).1 = .ok response →
        Answers rt config endpointId ((serveRotate rt config stored.accessToken endpointId
          stored.generation credentialId key served).run repo).2 response := by
  generalize hrun : (serveRotate rt config stored.accessToken endpointId stored.generation
    credentialId key served).run repo = outcome
  obtain ⟨result, repo'⟩ := outcome
  cases serveRotate_outcome hrun with
  | refused e same => exact ⟨same ▸ hinv, fun _ h => nomatch h⟩
  | replayed principal body recorded accepted found same =>
    subst same
    refine ⟨hinv, fun response h => ?_⟩
    cases h
    obtain ⟨_, _, h', c', _, _, hc', _, hend, _, _, _, _, _, hr⟩ := hinv.issue.recorded found
    cases hr
    exact ⟨h', recorded, hc', hend, rfl⟩
  | rotated principal body endpoint currentHash current new hnew accepted source endpoints
      credentials idempotency =>
    have hid := accepted.endpointId
    have hnewHash : repo.credentials.get? new.tokenHash = none := by
      rw [← hnew]
      exact hfresh.2
    obtain ⟨hissue, hadds⟩ := hinv.issue.rotate hfresh.1 hnew hnewHash accepted source endpoints
      credentials idempotency
    refine ⟨⟨hissue, fun hk => ?_, fun {k credential e} hk he => ?_⟩, fun response h => ?_⟩
    · obtain ⟨h, c, hc, hend, hholds⟩ := hinv.stored hk
      exact ⟨h, c, (hadds h c).mpr (Or.inr hc), hend, hholds⟩
    · have hkey : endpoint.endpointId = endpointId :=
        (hinv.issue.chain.endpointKey source.endpointFound).trans hid
      rw [endpoints, hkey, Dict.get?_set] at he
      by_cases h : endpointId = k
      · subst h
        rw [hstored, Option.some.injEq] at hk
        rw [if_pos rfl, Option.some.injEq] at he
        subst hk he
        have hnext := source.next
        rw [accepted.generation] at hnext
        exact hnext.le
      · rw [if_neg h] at he
        exact hinv.behind hk he
    · cases h
      refine ⟨_, new, (hadds _ _).mpr (Or.inl ⟨rfl, rfl⟩), ?_, rfl⟩
      rw [← hnew]
      exact hid

/-- A credential of an endpoint that has not been rotated. -/
def FirstCredential (repo : InMemoryRepository) (c : CredentialRecord) : Prop :=
  ∃ h e, Issued repo h c ∧ repo.endpoints.get? c.endpointId = some e ∧ e.credentialGeneration = 1

/-- What the enrollments with this key recorded. -/
def EnrolledWith (repo : InMemoryRepository) (key : String) : Prop :=
  ∀ t d r, repo.idempotency.get? ⟨t, "enroll", key⟩ = some (d, r) →
    ∃ c, r = .credential c ∧ FirstCredential repo c

theorem SystemInvariant.enrollment_served {repo : InMemoryRepository}
    {store : Dict String EndpointCredential} {token key : String} {body : EndpointEnrollment}
    {served : EnrollServed}
    (hinv : SystemInvariant rt config repo store ∧ EnrolledWith repo key)
    (hfresh : isIdentifier served.endpointId = true ∧ isIdentifier served.credentialId = true) :
    (SystemInvariant rt config ((serveEnroll rt config token body key served).run repo).2 store ∧
        EnrolledWith ((serveEnroll rt config token body key served).run repo).2 key) ∧
      ∀ response, ((serveEnroll rt config token body key served).run repo).1 = .ok response →
        ∃ c, FirstCredential ((serveEnroll rt config token body key served).run repo).2 c ∧
          response = credentialResponse rt config c := by
  generalize hrun : (serveEnroll rt config token body key served).run repo = outcome
  obtain ⟨result, repo'⟩ := outcome
  cases serveEnroll_outcome hrun with
  | refused e same => exact ⟨same ▸ hinv, fun _ h => nomatch h⟩
  | replayed tenantId recorded found same =>
    subst same
    refine ⟨hinv, fun response h => ?_⟩
    cases h
    obtain ⟨c, hr, hc⟩ := hinv.2 _ _ _ found
    cases hr
    exact ⟨recorded, hc, rfl⟩
  | enrolled tenantId new hnew newEndpointId newHash endpoints credentials idempotency =>
    obtain ⟨hissue, hadds⟩ := hinv.1.issue.enroll hfresh newEndpointId hnew newHash endpoints
      credentials idempotency
    have hend : new.endpointId = served.endpointId := by
      rw [← hnew]
      rfl
    have hfirst : FirstCredential repo' new := by
      refine ⟨_, newEndpoint tenantId served.endpointId body served.now,
        (hadds _ _).mpr (Or.inl ⟨rfl, rfl⟩), ?_, rfl⟩
      rw [endpoints, hend, Dict.get?_set_self]
    have hother : ∀ {h c}, Issued repo h c → c.endpointId ≠ served.endpointId := by
      intro h c hc he
      obtain ⟨e, hfound, -⟩ := hinv.1.issue.owned hc
      rw [he, newEndpointId] at hfound
      cases hfound
    refine ⟨⟨⟨hissue, fun hk => ?_, fun {k credential e} hk he => ?_⟩, fun t d r hr => ?_⟩,
      fun response h => ?_⟩
    · obtain ⟨h, c, hc, hrest⟩ := hinv.1.stored hk
      exact ⟨h, c, (hadds h c).mpr (Or.inr hc), hrest⟩
    · obtain ⟨h, c, hc, rfl, -⟩ := hinv.1.stored hk
      rw [endpoints, Dict.get?_set_ne (hother hc).symm] at he
      exact hinv.1.behind hk he
    · rw [idempotency, Dict.get?_set] at hr
      split at hr
      · cases hr
        exact ⟨new, rfl, hfirst⟩
      · obtain ⟨c, hcredential, h, e, hc, he, hone⟩ := hinv.2 _ _ _ hr
        refine ⟨c, hcredential, h, e, (hadds h c).mpr (Or.inr hc), ?_, hone⟩
        rw [endpoints, Dict.get?_set_ne (hother hc).symm, he]
    · cases h
      exact ⟨new, hfirst, rfl⟩

/-! ### The answer is stored -/

/-- What the endpoint reads from an answer is the credential that was issued. -/
theorem responseCredential_holds {repo : InMemoryRepository} (hinv : IssueInvariant rt config repo)
    {h : String} {c : CredentialRecord} (hc : Issued repo h c) {expected : Option String}
    {credential : EndpointCredential}
    (hread : responseCredential (credentialResponse rt config c) expected = .ok credential) :
    Holds rt config credential c := by
  have hname : c.credentialId ≠ "" := by
    intro hempty
    have hid := (hinv.identifiers hc).2.1
    rw [hempty] at hid
    cases hid
  unfold responseCredential at hread
  split at hread
  · rename_i read hfrom
    cases hread
    unfold EndpointCredential.fromResponse at hfrom
    split at hfrom
    · split at hfrom
      · cases hfrom
        exact ⟨rfl, rfl, rfl, rfl, if_neg hname, rfl⟩
      · cases hfrom
    · cases hfrom
  · cases hread

/-- Every answer about a credential of the endpoint passes its checks. -/
theorem responseCredential_issued {repo : InMemoryRepository} (hinv : IssueInvariant rt config repo)
    {h : String} {c : CredentialRecord} (hc : Issued repo h c)
    (hrange : 1 ≤ c.generation ∧ c.generation ≤ 2147483647) :
    ∃ credential, responseCredential (credentialResponse rt config c) (some c.endpointId) =
      .ok credential := by
  obtain ⟨hend, hcred, hexpires⟩ := hinv.identifiers hc
  have hvalid : isPlainText 256 (credentialResponse rt config c).endpointId = true ∧
      isPlainText 16384 (credentialResponse rt config c).accessToken = true ∧
      (credentialResponse rt config c).issuedAt < (credentialResponse rt config c).expiresAt ∧
      1 ≤ (credentialResponse rt config c).generation ∧
      (credentialResponse rt config c).generation ≤ 2147483647 :=
    ⟨isPlainText_of_isIdentifier hend, issueToken_text rt _ _ _ hcred, hexpires, hrange⟩
  have hsame : ∀ expected ∈ some c.endpointId,
      (credentialResponse rt config c).endpointId = expected := by
    intro expected hexpected
    exact Option.some.inj hexpected
  rw [responseCredential, EndpointCredential.fromResponse, dif_pos hvalid, if_pos hsame]
  exact ⟨_, rfl⟩

/-- The store after an answer: no endpoint is further behind than before. -/
theorem SystemInvariant.save {repo : InMemoryRepository} {store : Dict String EndpointCredential}
    (hinv : SystemInvariant rt config repo store) {credential : EndpointCredential} {h : String}
    {c : CredentialRecord} (hc : Issued repo h c) (hholds : Holds rt config credential c)
    (hbehind : ∀ e, repo.endpoints.get? c.endpointId = some e →
      e.credentialGeneration ≤ c.generation + 1) :
    SystemInvariant rt config repo (store.set credential.endpointId credential) := by
  refine ⟨hinv.issue, fun {k stored} hk => ?_, fun {k stored e} hk he => ?_⟩
  · rw [Dict.get?_set] at hk
    split at hk
    · rename_i hkey
      cases hk
      exact ⟨h, c, hc, hholds.endpointId.symm.trans hkey, hholds⟩
    · exact hinv.stored hk
  · rw [Dict.get?_set] at hk
    split at hk
    · rename_i hkey
      cases hk
      rw [hholds.generation]
      exact hbehind e (hholds.endpointId ▸ hkey ▸ he)
    · exact hinv.behind hk he

/-! ## Runs of the service -/

/-- Calls of the endpoints, in the order in which they are made. -/
inductive CredentialEvent where
  | enroll (call : EnrollCall)
  | rotate (call : RotateCall)

def credentialStep (rt : Runtime) (config : CloudServiceSettings) (system : CredentialSystem) :
    CredentialEvent → CredentialSystem
  | .enroll call => ((enroll rt config call).run system).2
  | .rotate call => ((rotate rt config call).run system).2

/-- What is drawn in a call is fresh: identifiers, token digests and the key of an enrollment. -/
def Drawn (rt : Runtime) (config : CloudServiceSettings) (system : CredentialSystem) :
    CredentialEvent → Prop
  | .enroll call =>
    (∀ e ∈ system.repo.idempotency.entries, e.1.operation = "enroll" → e.1.key ≠ call.key) ∧
      FreshAttempts (fun _ served => isIdentifier served.endpointId = true ∧
          isIdentifier served.credentialId = true)
        (serveEnroll rt config call.token call.body call.key) system.repo call.attempts
  | .rotate call =>
    match rotatableCredential call.endpointId call.clock system with
    | .error _ => True
    | .ok (current, credentialId) =>
      FreshAttempts (FreshRotation rt config call.endpointId current.generation)
        (serveRotate rt config current.accessToken call.endpointId current.generation credentialId
          call.key) system.repo call.attempts

instance (system : CredentialSystem) (event : CredentialEvent) :
    Decidable (Drawn rt config system event) := by
  unfold Drawn
  split
  · infer_instance
  · split <;> infer_instance

theorem SystemInvariant.rotation_called {system : CredentialSystem} {call : RotateCall}
    (hinv : SystemInvariant rt config system.repo system.store)
    (hdrawn : Drawn rt config system (.rotate call)) :
    SystemInvariant rt config (credentialStep rt config system (.rotate call)).repo
      (credentialStep rt config system (.rotate call)).store := by
  rw [credentialStep]
  by_cases hsent : ∃ source, rotatableCredential call.endpointId call.clock system = .ok source ∧
      requestIdentifier call.key = .ok call.key
  · obtain ⟨⟨current, credentialId⟩, hcurrent, hkey⟩ := hsent
    rw [rotate_sent hcurrent hkey]
    obtain ⟨hstored, -, -⟩ := rotatableCredential_eq_ok.mp hcurrent
    rw [Drawn, hcurrent] at hdrawn
    obtain ⟨hserved, hanswer⟩ := @request_preserves _ _ _ _
      (fun repo => SystemInvariant rt config repo system.store) (Answers rt config call.endpointId)
      (fun _ _ hfresh h => h.rotation_served hstored hfresh) _ _ hdrawn hinv
    simp only [storeAfter]
    split
    · exact hserved
    · rename_i response hresponse
      obtain ⟨h, c, hc, hend, rfl⟩ := hanswer _ hresponse
      split
      · exact hserved
      · split
        · exact hserved
        · rename_i rotated hread
          split
          · exact hserved
          · rename_i hadvance
            have hholds := responseCredential_holds hserved.issue hc hread
            refine hserved.save hc hholds fun e he => ?_
            have hle := hserved.behind hstored (hend ▸ he)
            have hgeneration := hholds.generation
            omega
  · rw [rotate_unsent fun current credentialId hcurrent hkey => hsent ⟨_, hcurrent, hkey⟩]
    exact hinv

theorem SystemInvariant.enrollment_called {system : CredentialSystem} {call : EnrollCall}
    (hinv : SystemInvariant rt config system.repo system.store)
    (hdrawn : Drawn rt config system (.enroll call)) :
    SystemInvariant rt config (credentialStep rt config system (.enroll call)).repo
      (credentialStep rt config system (.enroll call)).store := by
  simp only [credentialStep, enroll, Method.run_ofExcept_bind, run_onCloud_bind]
  unfold requestIdentifier
  cases hcheck : checkIdempotencyKey (some call.key) with
  | error e => exact hinv
  | ok key =>
    cases checkIdempotencyKey_some hcheck
    have hnew : EnrolledWith system.repo call.key := by
      intro t d r hr
      exact absurd rfl (hdrawn.1 _ (Dict.mem_entries_iff.mpr hr) rfl)
    obtain ⟨⟨hserved, -⟩, hanswer⟩ := @request_preserves _ _ _ _
      (fun repo => SystemInvariant rt config repo system.store ∧ EnrolledWith repo call.key)
      (fun repo response => ∃ c, FirstCredential repo c ∧ response = credentialResponse rt config c)
      (fun _ _ hfresh h => SystemInvariant.enrollment_served h hfresh) _ _ hdrawn.2 ⟨hinv, hnew⟩
    simp only
    split
    · rename_i response hresponse
      obtain ⟨c, ⟨h, e, hc, he, hone⟩, rfl⟩ := hanswer _ hresponse
      by_cases hends : call.processEnds = true
      · rw [Check.raiseIf, if_pos hends]
        exact hserved
      · rw [Check.raiseIf, if_neg hends]
        cases hread : responseCredential (credentialResponse rt config c) none with
        | error => exact hserved
        | ok credential =>
          refine hserved.save hc (responseCredential_holds hserved.issue hc hread) fun e' he' => ?_
          rw [he, Option.some.injEq] at he'
          subst he'
          omega
    · exact hserved

theorem SystemInvariant.step {system : CredentialSystem} {event : CredentialEvent}
    (hdrawn : Drawn rt config system event)
    (hinv : SystemInvariant rt config system.repo system.store) :
    SystemInvariant rt config (credentialStep rt config system event).repo
      (credentialStep rt config system event).store := by
  cases event with
  | enroll call => exact hinv.enrollment_called hdrawn
  | rotate call => exact hinv.rotation_called hdrawn

/-- Before the first enrollment, with any grants issued. -/
theorem systemInvariant_start (grants : Dict String EnrollmentGrantRecord) :
    SystemInvariant rt config { enrollmentGrants := grants } ∅ := by
  have hnone : ∀ {h c}, ¬ Issued { enrollmentGrants := grants } h c := fun h => by cases h
  refine ⟨⟨?_, fun h => absurd h hnone, fun h => absurd h hnone, fun h => absurd h hnone,
    fun h => (by cases h)⟩, fun h => (by cases h), fun h => (by cases h)⟩
  constructor <;> intros <;> simp_all

theorem systemInvariant_run {grants : Dict String EnrollmentGrantRecord}
    {events : List CredentialEvent}
    (hdrawn : Guarded (credentialStep rt config) (Drawn rt config)
      { repo := { enrollmentGrants := grants } } events) :
    SystemInvariant rt config
      (runFrom (credentialStep rt config) { repo := { enrollmentGrants := grants } } events).repo
      (runFrom (credentialStep rt config) { repo := { enrollmentGrants := grants } } events).store :=
  @Guarded.invariant _ _ (credentialStep rt config) (Drawn rt config)
    (fun system => SystemInvariant rt config system.repo system.store)
    (fun _ _ => SystemInvariant.step) _ _ hdrawn (systemInvariant_start grants)

/-! ## Catching up -/

/-- The endpoint keeps the one credential of its identity that is not superseded. -/
def StoredIsCurrent (rt : Runtime) (config : CloudServiceSettings) (system : CredentialSystem)
    (endpointId : String) : Prop :=
  ∃ stored h c, system.store.get? endpointId = some stored ∧
    system.repo.credentials.get? h = some c ∧ c.endpointId = endpointId ∧
    c.supersededAt = none ∧ Holds rt config stored c

/-- Every attempt meets the same answer, and one of them is answered. -/
theorem request_constant {δ α : Type} {serve : δ → Handler α} {repo : InMemoryRepository} {a : α} :
    ∀ {attempts : List (Attempt δ)},
      (∀ attempt ∈ attempts, attempt.fate ≠ .unsent →
        (serve attempt.served).run repo = (.ok a, repo)) →
      (∃ attempt ∈ attempts, attempt.fate = .answered) →
      (request serve attempts).run repo = (.ok a, repo) := by
  intro attempts
  induction attempts with
  | nil => rintro - ⟨_, h, -⟩; cases h
  | cons attempt attempts ih =>
    intro hserve hanswered
    have hrest : attempt.fate ≠ .answered → (request serve attempts).run repo = (.ok a, repo) := by
      intro hne
      refine ih (fun x hx => hserve x (List.mem_cons_of_mem _ hx)) ?_
      obtain ⟨x, hx, hfate⟩ := hanswered
      rcases List.mem_cons.mp hx with rfl | hx
      · exact absurd hfate hne
      · exact ⟨x, hx, hfate⟩
    have hhere := hserve attempt List.mem_cons_self
    rw [request]
    cases hfate : attempt.fate with
    | unsent =>
      exact hrest (by rw [hfate]; decide)
    | unanswered =>
      rw [hfate] at hhere
      simp only [hhere (by decide)]
      exact hrest (by rw [hfate]; decide)
    | answered =>
      rw [hfate] at hhere
      simp only [hhere (by decide)]
      rfl

/-- An overtaken credential cannot be rotated: at best a recorded response answers. -/
theorem overtaken_served {repo : InMemoryRepository} {endpointId credentialId key token : String}
    {generation : Nat} {endpoint : EndpointRecord}
    (hendpoint : repo.endpoints.get? endpointId = some endpoint)
    (hovertaken : endpoint.credentialGeneration ≠ generation) (served : RotateServed) :
    ((serveRotate rt config token endpointId generation credentialId key served).run repo).2 =
        repo ∧
      ∀ response, ((serveRotate rt config token endpointId generation credentialId key
          served).run repo).1 = .ok response →
        ∃ tenantId digest c, repo.idempotency.get? ⟨tenantId, rotateOperation endpointId, key⟩ =
          some (digest, .credential c) ∧ response = credentialResponse rt config c := by
  generalize hrun : (serveRotate rt config token endpointId generation credentialId key
    served).run repo = outcome
  obtain ⟨result, repo'⟩ := outcome
  cases serveRotate_outcome hrun with
  | refused e same => exact ⟨same, fun _ h => nomatch h⟩
  | replayed principal body recorded accepted found same =>
    refine ⟨same, fun response h => ?_⟩
    cases h
    exact ⟨_, _, recorded, found, rfl⟩
  | rotated principal body endpoint' currentHash current new hnew accepted source =>
    have hfound := source.endpointFound
    rw [accepted.endpointId, hendpoint, Option.some.injEq] at hfound
    subst hfound
    exact absurd (source.generation.trans accepted.generation) hovertaken

/-- The response of the lost rotation answers the bearer of the overtaken credential. -/
theorem overtaken_replays {repo : InMemoryRepository} {endpointId key : String}
    {stored : EndpointCredential} {hash : String} {c : CredentialRecord} {served : RotateServed}
    (hinv : IssueInvariant rt config repo) (hc : Issued repo hash c)
    (hend : c.endpointId = endpointId) (hholds : Holds rt config stored c)
    (haccepted : ∃ principal, authenticateDevice repo (config.issuer.tokenHash rt
      stored.accessToken) served.presentedAt = some principal)
    {tenantId digest : String} {next : CredentialRecord}
    (hrecorded : repo.idempotency.get? ⟨tenantId, rotateOperation endpointId, key⟩ =
      some (digest, .credential next))
    (hnext : next.generation = stored.generation + 1) :
    (serveRotate rt config stored.accessToken endpointId stored.generation c.credentialId key
      served).run repo = (.ok (credentialResponse rt config next), repo) := by
  obtain ⟨h, c₀, h', c', body, hc₀, hc', hend₀, hend', rfl, hgeneration, hparse, hkey, rfl, hr⟩ :=
    hinv.recorded hrecorded
  cases hr
  -- The rotation that was recorded started from the stored credential.
  have hsame : c₀.generation = c.generation := by
    have hstored := hholds.generation
    omega
  obtain ⟨-, rfl⟩ := hinv.single hc₀ hc (hend₀.trans hend.symm) hsame
  obtain ⟨principal, hprincipal⟩ := haccepted
  have hcaller := hinv.caller hc hholds hprincipal
  subst hcaller
  rw [← hholds.generation] at hparse
  exact serveRotate_replays ⟨hprincipal, hparse, hend, hholds.generation.symm, rfl, hkey⟩ hrecorded

/-- An overtaken credential is not the current one. -/
theorem overtaken_not_current {system : CredentialSystem} {endpointId : String}
    {stored : EndpointCredential} {endpoint : EndpointRecord}
    (hinv : CredentialInvariant system.repo)
    (hstored : system.store.get? endpointId = some stored)
    (hendpoint : system.repo.endpoints.get? endpointId = some endpoint)
    (hovertaken : endpoint.credentialGeneration ≠ stored.generation) :
    ¬ StoredIsCurrent rt config system endpointId := by
  rintro ⟨stored', h, c, hstored', hc, hend, hsuperseded, hholds⟩
  rw [hstored, Option.some.injEq] at hstored'
  subst hstored'
  obtain ⟨e, he, -, -, hiff⟩ := hinv.owned hc
  rw [hend, hendpoint, Option.some.injEq] at he
  subst he
  exact hovertaken ((hiff.mp hsuperseded).symm.trans hholds.generation.symm)

/--
In every run of enrollments and rotations with fresh draws: an endpoint whose stored credential
was overtaken by a lost rotation, and which rotates again while the control plane accepts that
credential and answers, ends with the current credential exactly when this rotation carries the
key under which the lost generation was recorded.
-/
theorem rotate_recovers_iff {grants : Dict String EnrollmentGrantRecord}
    {events : List CredentialEvent} {call : RotateCall} {stored : EndpointCredential}
    {endpoint : EndpointRecord} {system : CredentialSystem}
    (hsystem : runFrom (credentialStep rt config) { repo := { enrollmentGrants := grants } }
      events = system)
    (hdrawn : Guarded (credentialStep rt config) (Drawn rt config)
      { repo := { enrollmentGrants := grants } } events)
    (hstored : system.store.get? call.endpointId = some stored)
    (hendpoint : system.repo.endpoints.get? call.endpointId = some endpoint)
    (hovertaken : endpoint.credentialGeneration ≠ stored.generation)
    (hclock : call.clock < stored.expiresAt) (hends : call.processEnds = false)
    (hanswered : ∃ attempt ∈ call.attempts, attempt.fate = .answered)
    (haccepted : ∀ attempt ∈ call.attempts, attempt.fate ≠ .unsent → ∃ principal,
      authenticateDevice system.repo (config.issuer.tokenHash rt stored.accessToken)
        attempt.served.presentedAt = some principal) :
    StoredIsCurrent rt config (credentialStep rt config system (.rotate call)) call.endpointId ↔
      ∃ tenantId digest c, system.repo.idempotency.get?
          ⟨tenantId, rotateOperation call.endpointId, call.key⟩ = some (digest, .credential c) ∧
        c.generation = stored.generation + 1 := by
  have hinv := systemInvariant_run hdrawn
  rw [hsystem] at hinv
  obtain ⟨hash, c, hc, hend, hholds⟩ := hinv.stored hstored
  have hcurrent : rotatableCredential call.endpointId call.clock system =
      .ok (stored, c.credentialId) :=
    rotatableCredential_eq_ok.mpr ⟨hstored, hclock, hholds.credentialId⟩
  -- The endpoint is exactly one generation behind.
  have hone : endpoint.credentialGeneration = stored.generation + 1 := by
    obtain ⟨e, he, -, hle⟩ := hinv.issue.owned hc
    rw [hend, hendpoint, Option.some.injEq] at he
    subst he
    have hbehind := hinv.behind hstored hendpoint
    have hgeneration := hholds.generation
    omega
  have hnotCurrent : ∀ {store : Dict String EndpointCredential},
      store.get? call.endpointId = some stored →
      ¬ StoredIsCurrent rt config ⟨system.repo, store⟩ call.endpointId :=
    fun hs => overtaken_not_current hinv.issue.chain hs hendpoint hovertaken
  simp only [credentialStep]
  constructor
  · intro hcurrentAfter
    by_cases hkey : requestIdentifier call.key = .ok call.key
    · rw [rotate_sent hcurrent hkey] at hcurrentAfter
      obtain ⟨hrepo, hanswer⟩ := @request_preserves _ _
        (serveRotate rt config stored.accessToken call.endpointId stored.generation
          c.credentialId call.key) _ (· = system.repo)
        (fun _ response => ∃ tenantId digest c, system.repo.idempotency.get?
          ⟨tenantId, rotateOperation call.endpointId, call.key⟩ = some (digest, .credential c) ∧
          response = credentialResponse rt config c)
        (fun repo served _ h => h ▸ overtaken_served (h ▸ hendpoint) hovertaken served) _ _
        freshAttempts_true rfl
      rw [hrepo] at hcurrentAfter
      simp only [storeAfter] at hcurrentAfter
      split at hcurrentAfter
      · exact absurd hcurrentAfter (hnotCurrent hstored)
      · rename_i response hresponse
        obtain ⟨tenantId, digest, next, hrecorded, rfl⟩ := hanswer _ hresponse
        rw [if_neg (by rw [hends]; decide)] at hcurrentAfter
        split at hcurrentAfter
        · exact absurd hcurrentAfter (hnotCurrent hstored)
        · rename_i rotated hread
          split at hcurrentAfter
          · exact absurd hcurrentAfter (hnotCurrent hstored)
          · rename_i hadvance
            obtain ⟨_, _, h', c', _, _, hc', _, hend', _, _, _, _, _, hr⟩ :=
              hinv.issue.recorded hrecorded
            cases hr
            obtain ⟨e, he, -, hle⟩ := hinv.issue.owned hc'
            rw [hend', hendpoint, Option.some.injEq] at he
            subst he
            have hgeneration := (responseCredential_holds hinv.issue hc' hread).generation
            exact ⟨tenantId, digest, next, hrecorded, by omega⟩
    · rw [rotate_unsent fun _ _ _ => hkey] at hcurrentAfter
      exact absurd hcurrentAfter (hnotCurrent hstored)
  · rintro ⟨tenantId, digest, next, hrecorded, hnext⟩
    obtain ⟨_, c₀, h', c', body, _, hc', _, hend', _, hg₀, hparse, hvalid, _, hr⟩ :=
      hinv.issue.recorded hrecorded
    cases hr
    have hkey : requestIdentifier call.key = .ok call.key := by
      rw [requestIdentifier, hvalid]
    have hanswer := request_constant (fun attempt hattempt hfate =>
      overtaken_replays hinv.issue hc hend hholds (haccepted attempt hattempt hfate) hrecorded
        hnext) hanswered
    rw [rotate_sent hcurrent hkey, hanswer]
    have hrange : 1 ≤ next.generation ∧ next.generation ≤ 2147483647 := by
      have hbody := body.generation_range
      have hsame := (parse_eq_ok hparse).2.1
      omega
    obtain ⟨rotated, hread⟩ := responseCredential_issued hinv.issue hc' hrange
    have hholds' := responseCredential_holds hinv.issue hc' hread
    rw [hend'] at hread
    have hstore : storeAfter call stored (.ok (credentialResponse rt config next)) system.store =
        system.store.set rotated.endpointId rotated := by
      have hadvance : ¬ rotated.generation ≤ stored.generation := by
        rw [hholds'.generation, hnext]
        omega
      simp only [storeAfter, hends, Bool.false_eq_true, if_false, hread, if_neg hadvance]
    rw [hstore]
    obtain ⟨record, hrecord, rfl⟩ := hc'.get?
    refine ⟨rotated, h', record, ?_, hrecord, hend', ?_, ?_⟩
    · rw [hholds'.endpointId, hend', Dict.get?_set_self]
    · obtain ⟨e, he, -, -, hiff⟩ := hinv.issue.chain.owned hrecord
      have hrecordEnd : record.endpointId = call.endpointId := hend'
      rw [hrecordEnd, hendpoint, Option.some.injEq] at he
      subst he
      exact hiff.mpr (hnext.trans hone.symm)
    · exact ⟨hholds'.endpointId, hholds'.accessToken, hholds'.issuedAt, hholds'.expiresAt,
        hholds'.credentialId, hholds'.generation⟩

/-! ## A lost answer -/

def bootstrapSettings : CloudServiceSettings :=
  { CloudServiceSettings.standard with bootstrapTokens := [("bootstrap", "tenant")] }

/-- A device enrolls; its first rotation is committed, and the answer is lost. -/
def lostRotation : List CredentialEvent :=
  [.enroll {
      token := "bootstrap"
      body := ⟨"host", .linux, "12", "x86_64", "1.1.0"⟩
      drawnKey := "uuid-1"
      attempts := [⟨.answered, ⟨"endpoint-1", "credential-1", 0, 0, 0⟩⟩] },
    .rotate {
      endpointId := "endpoint-1"
      drawnKey := "uuid-2"
      clock := seconds 1000
      attempts := [⟨.unanswered,
        ⟨"credential-2", seconds 1000, seconds 1000, seconds 1000⟩⟩] }]

/-- A rotation a minute later, well inside the overlap of five minutes. -/
def laterRotation (idempotencyKey : Option String) : RotateCall where
  endpointId := "endpoint-1"
  idempotencyKey := idempotencyKey
  drawnKey := "uuid-3"
  clock := seconds 1060
  attempts := [⟨.answered, ⟨"credential-3", seconds 1060, seconds 1060, seconds 1060⟩⟩]

def rotationRun (events : List CredentialEvent) : CredentialSystem :=
  runFrom (credentialStep Runtime.sample bootstrapSettings) {} events

/-- The generations that the endpoint keeps and that the control plane is at. -/
def generations (system : CredentialSystem) : Option Nat × Option Nat :=
  ((system.store.get? "endpoint-1").map (·.generation),
    (system.repo.endpoints.get? "endpoint-1").map (·.credentialGeneration))

example : generations (rotationRun lostRotation) = (some 1, some 2) := by decide +kernel

/-- What the endpoint keeps is still accepted when it rotates again. -/
def acceptedLater (system : CredentialSystem) : Option Bool :=
  (system.store.get? "endpoint-1").map fun stored =>
    (authenticateDevice system.repo (bootstrapSettings.issuer.tokenHash Runtime.sample
      stored.accessToken) (seconds 1060)).isSome

/-- The key of the lost rotation leads to the credential that it committed. -/
theorem rotate_same_key_recovers :
    StoredIsCurrent Runtime.sample bootstrapSettings
      (credentialStep Runtime.sample bootstrapSettings (rotationRun lostRotation)
        (.rotate (laterRotation (some "uuid-2")))) (laterRotation (some "uuid-2")).endpointId := by
  have hsystem : runFrom (credentialStep Runtime.sample bootstrapSettings)
      { repo := { enrollmentGrants := ∅ } } lostRotation = rotationRun lostRotation := rfl
  have hdrawn : Guarded (credentialStep Runtime.sample bootstrapSettings)
      (Drawn Runtime.sample bootstrapSettings) { repo := { enrollmentGrants := ∅ } }
      lostRotation := by decide +kernel
  have hstore : ((rotationRun lostRotation).store.get?
      (laterRotation (some "uuid-2")).endpointId).map (fun stored =>
        (stored.generation, decide ((laterRotation (some "uuid-2")).clock < stored.expiresAt))) =
        some (1, true) := by decide +kernel
  have hendpoints : ((rotationRun lostRotation).repo.endpoints.get?
      (laterRotation (some "uuid-2")).endpointId).map (·.credentialGeneration) = some 2 := by
    decide +kernel
  have hrecord : ((rotationRun lostRotation).repo.idempotency.get?
      ⟨"tenant", rotateOperation (laterRotation (some "uuid-2")).endpointId,
        (laterRotation (some "uuid-2")).key⟩).map
        (fun e => e.2.asCredential.toOption.map (·.generation)) = some (some 2) := by
    decide +kernel
  have hlater : acceptedLater (rotationRun lostRotation) = some true := by decide +kernel
  obtain ⟨stored, hstored, hpair⟩ := Option.map_eq_some_iff.mp hstore
  obtain ⟨hgeneration, hclock⟩ := Prod.mk.inj hpair
  obtain ⟨endpoint, hendpoint, hcurrent⟩ := Option.map_eq_some_iff.mp hendpoints
  obtain ⟨⟨digest, response⟩, hresponse, hnext⟩ := Option.map_eq_some_iff.mp hrecord
  have hanswered : ∃ attempt ∈ (laterRotation (some "uuid-2")).attempts,
      attempt.fate = .answered := ⟨_, List.mem_cons_self, rfl⟩
  have haccepted : ∀ attempt ∈ (laterRotation (some "uuid-2")).attempts, attempt.fate ≠ .unsent →
      ∃ principal, authenticateDevice (rotationRun lostRotation).repo
        (bootstrapSettings.issuer.tokenHash Runtime.sample stored.accessToken)
          attempt.served.presentedAt = some principal := by
    intro attempt hattempt _
    rw [List.mem_singleton.mp hattempt]
    rw [acceptedLater, show (rotationRun lostRotation).store.get? "endpoint-1" = some stored
      from hstored, Option.map_some, Option.some.injEq] at hlater
    exact Option.isSome_iff_exists.mp hlater
  refine (rotate_recovers_iff hsystem hdrawn hstored hendpoint ?_ (of_decide_eq_true hclock) rfl
    hanswered haccepted).mpr ?_
  · rw [hcurrent, hgeneration]
    decide
  · cases response with
    | credential c =>
      have hg : c.generation = 2 := Option.some.inj hnext
      exact ⟨"tenant", digest, c, hresponse, by rw [hg, hgeneration]⟩
    | grant _ => cases hnext
    | scan _ => cases hnext
    | accepted => cases hnext

/-- Both callers of `rotate` pass no key, so each call draws its own: the endpoint stays behind. -/
theorem rotate_fresh_key_stays_behind :
    acceptedLater (rotationRun lostRotation) = some true ∧
      generations (rotationRun (lostRotation ++ [.rotate (laterRotation none)])) =
        (some 1, some 2) := by
  decide +kernel

end OsScanner.Endpoint

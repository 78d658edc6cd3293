import Mathlib
import OsScanner.Cloud.Repository

/-!
# What each method does

One theorem for each method of the repository: either the state is what it was, or the method
took its one effective path, and then the checks passed and the new state is given field by
field. Everything that is proved of runs is derived from these theorems; the methods are not
unfolded again.
-/

namespace OsScanner.Cloud

open Lib

/-! ## The idempotency frame -/

@[simp] theorem run_remember_bind {α : Type} (tenant operation key digest : String)
    (response : Response) (next : Unit → RepositoryMethod α) (repo : InMemoryRepository) :
    (remember tenant operation key digest response >>= next).run repo =
      (next ()).run { repo with
        idempotency := repo.idempotency.set ⟨tenant, operation, key⟩ (digest, response) } := rfl

/-- An audit event is appended and nothing else changes. -/
theorem run_audit (auditedAt : Timestamp) (tenantId eventType actorType : String) (actorId : Json)
    (resourceType : String) (resourceId : Json) (details : JsonObject)
    (repo : InMemoryRepository) :
    ∃ event, (audit auditedAt tenantId eventType actorType actorId resourceType resourceId
      details).run repo = (.ok (), { repo with auditEvents := repo.auditEvents ++ [event] }) :=
  ⟨_, rfl⟩

/-- What a recorded response makes of a call. -/
inductive Replays {α : Type} (tenant operation key digest : String)
    (response : Response → Except RepositoryError α) (repo : InMemoryRepository) :
    Except RepositoryError α → Prop where
  | conflict {recordedDigest : String} {recorded : Response}
      (found : repo.idempotency.get? ⟨tenant, operation, key⟩ = some (recordedDigest, recorded))
      (differs : recordedDigest ≠ digest) :
      Replays tenant operation key digest response repo
        (fail .idempotencyConflict "idempotency key was reused with different content")
  | replayed {recorded : Response}
      (found : repo.idempotency.get? ⟨tenant, operation, key⟩ = some (digest, recorded)) :
      Replays tenant operation key digest response repo (response recorded)

/-- An idempotent method answers from the record, or does its work. -/
theorem idempotent_cases {α : Type} {tenant operation key digest : String}
    {response : Response → Except RepositoryError α} {fresh : RepositoryMethod α}
    {repo repo' : InMemoryRepository} {result : Except RepositoryError α}
    (h : (idempotent tenant operation key digest response fresh).run repo = (result, repo')) :
    (repo' = repo ∧ Replays tenant operation key digest response repo result) ∨
      (repo.idempotency.get? ⟨tenant, operation, key⟩ = none ∧
        fresh.run repo = (result, repo')) := by
  simp only [idempotent, replay, Method.run_reading_bind] at h
  rcases hr : repo.idempotency.get? ⟨tenant, operation, key⟩ with _ | ⟨recordedDigest, recorded⟩
  · rw [hr] at h
    exact Or.inr ⟨rfl, h⟩
  · rw [hr] at h
    left
    by_cases hd : recordedDigest = digest
    · subst hd
      simp only [ne_eq, not_true_eq_false, if_false, Method.run_ofExcept, Prod.mk.injEq] at h
      obtain ⟨rfl, rfl⟩ := h
      exact ⟨rfl, .replayed hr⟩
    · simp only [ne_eq, hd, not_false_eq_true, if_true, fail, Prod.mk.injEq] at h
      obtain ⟨rfl, rfl⟩ := h
      exact ⟨rfl, .conflict hr hd⟩

/-! ## Enrollment and rotation -/

/-- The state after a new grant. -/
theorem createEnrollmentGrant_effect {rt : Runtime} {grant : EnrollmentGrantRecord}
    {key digest : String} {auditedAt : Timestamp} {repo repo' : InMemoryRepository}
    {result : Except RepositoryError EnrollmentGrantRecord}
    (h : (createEnrollmentGrant rt grant key digest auditedAt).run repo = (result, repo')) :
    (repo' = repo ∧ (Replays grant.tenantId "create-enrollment-grant" key digest
        Response.asGrant repo result ∨ ∃ e, result = .error e)) ∨
      (repo.idempotency.get? ⟨grant.tenantId, "create-enrollment-grant", key⟩ = none ∧
        repo.enrollmentGrants.get? grant.tokenHash = none ∧ result = .ok grant ∧
        ∃ event, repo' = { repo with
          enrollmentGrants := repo.enrollmentGrants.set grant.tokenHash grant
          idempotency := repo.idempotency.set
            ⟨grant.tenantId, "create-enrollment-grant", key⟩ (digest, .grant grant)
          auditEvents := repo.auditEvents ++ [event] }) := by
  rcases idempotent_cases h with ⟨rfl, hr⟩ | ⟨hnone, h⟩
  · exact Or.inl ⟨rfl, Or.inl hr⟩
  · simp only [Method.run_reading_bind] at h
    split at h
    · rename_i hcheck
      rw [raiseIf_eq_ok, Bool.not_eq_true, Dict.contains_eq_false] at hcheck
      cases h
      exact Or.inr ⟨hnone, hcheck, rfl, _, rfl⟩
    · cases h
      exact Or.inl ⟨rfl, Or.inr ⟨_, rfl⟩⟩

/-- The state after an enrollment. -/
theorem enrollEndpoint_effect {tenantId : String} {endpoint : EndpointRecord}
    {credential : CredentialRecord} {key digest : String} {grantHash : Option String}
    {auditedAt : Timestamp} {repo repo' : InMemoryRepository}
    {result : Except RepositoryError CredentialRecord}
    (h : (enrollEndpoint tenantId endpoint credential key digest grantHash auditedAt).run repo =
      (result, repo')) :
    (repo' = repo ∧ (Replays tenantId "enroll" key digest Response.asCredential repo result ∨
        ∃ e, result = .error e)) ∨
      ∃ grant, repo.idempotency.get? ⟨tenantId, "enroll", key⟩ = none ∧
        presentedGrant tenantId endpoint credential grantHash repo = .ok grant ∧
        repo.endpoints.get? endpoint.endpointId = none ∧
        repo.credentials.get? credential.tokenHash = none ∧ result = .ok credential ∧
        ∃ event, repo' = { repo with
          endpoints := repo.endpoints.set endpoint.endpointId endpoint
          credentials := repo.credentials.set credential.tokenHash credential
          enrollmentGrants := consumeGrant repo.enrollmentGrants grantHash grant
            credential.issuedAt endpoint.endpointId
          idempotency := repo.idempotency.set ⟨tenantId, "enroll", key⟩
            (digest, .credential credential)
          auditEvents := repo.auditEvents ++ [event] } := by
  rcases idempotent_cases h with ⟨rfl, hr⟩ | ⟨hnone, h⟩
  · exact Or.inl ⟨rfl, Or.inl hr⟩
  · simp only [Method.run_reading_bind] at h
    split at h
    · rename_i grant hgrant
      split at h
      · rename_i hcheck
        rw [raiseIf_eq_ok, not_or, Bool.not_eq_true, Bool.not_eq_true, Dict.contains_eq_false,
          Dict.contains_eq_false] at hcheck
        cases h
        exact Or.inr ⟨grant, hnone, hgrant, hcheck.1, hcheck.2, rfl, _, rfl⟩
      · cases h
        exact Or.inl ⟨rfl, Or.inr ⟨_, rfl⟩⟩
    · cases h
      exact Or.inl ⟨rfl, Or.inr ⟨_, rfl⟩⟩

/-- What the checks of a rotation have established. -/
structure RotationSource (principal : DevicePrincipal) (expectedGeneration : Nat)
    (expectedCredentialId : String) (credential : CredentialRecord) (repo : InMemoryRepository)
    (endpoint : EndpointRecord) (currentHash : String) (current : CredentialRecord) : Prop where
  endpointFound : repo.endpoints.get? principal.endpointId = some endpoint
  tenant : endpoint.tenantId = principal.tenantId
  expected : expectedGeneration = principal.generation
  generation : endpoint.credentialGeneration = principal.generation
  expectedId : expectedCredentialId = principal.credentialId
  next : credential.generation = principal.generation + 1
  currentFound : repo.credentials.get? currentHash = some current
  currentId : current.credentialId = principal.credentialId
  currentTenant : current.tenantId = principal.tenantId
  currentEndpoint : current.endpointId = principal.endpointId
  currentGeneration : current.generation = principal.generation

theorem rotationSource_eq_ok {principal : DevicePrincipal} {expectedGeneration : Nat}
    {expectedCredentialId : String} {credential : CredentialRecord} {repo : InMemoryRepository}
    {endpoint : EndpointRecord} {currentHash : String} {current : CredentialRecord}
    (h : rotationSource principal expectedGeneration expectedCredentialId credential repo =
      .ok (endpoint, currentHash, current)) :
    RotationSource principal expectedGeneration expectedCredentialId credential repo endpoint
      currentHash current := by
  unfold rotationSource at h
  split at h
  · cases h
  · rename_i found hfound
    simp only [Check.bind_unit_eq_ok, raiseIf_eq_ok, not_or, not_not, ne_eq] at h
    obtain ⟨htenant, ⟨hexpected, hgeneration⟩, hid, hnext, h⟩ := h
    split at h
    · cases h
    · rename_i digest value hfind
      simp only [Check.bind_unit_eq_ok, raiseIf_eq_ok, not_or, not_not, Except.ok.injEq,
        Prod.mk.injEq] at h
      obtain ⟨⟨hct, hce, hcg⟩, rfl, rfl, rfl⟩ := h
      have hmem := List.mem_of_find?_eq_some hfind
      have hcid := List.find?_some hfind
      exact ⟨hfound, htenant, hexpected, hgeneration, hid, hnext, Dict.mem_entries_iff.mp hmem,
        by simpa using hcid, hct, hce, hcg⟩

/-- The state after a rotation. -/
theorem rotateCredential_effect {principal : DevicePrincipal} {expectedGeneration : Nat}
    {expectedCredentialId : String} {credential : CredentialRecord} {overlapSeconds : Int}
    {key digest : String} {auditedAt : Timestamp} {repo repo' : InMemoryRepository}
    {result : Except RepositoryError CredentialRecord}
    (h : (rotateCredential principal expectedGeneration expectedCredentialId credential
      overlapSeconds key digest auditedAt).run repo = (result, repo')) :
    (repo' = repo ∧ (Replays principal.tenantId (rotateOperation principal.endpointId) key digest
        Response.asCredential repo result ∨ ∃ e, result = .error e)) ∨
      ∃ endpoint currentHash current,
        repo.idempotency.get?
          ⟨principal.tenantId, rotateOperation principal.endpointId, key⟩ = none ∧
        RotationSource principal expectedGeneration expectedCredentialId credential repo endpoint
          currentHash current ∧ result = .ok credential ∧
        ∃ event, repo' = { repo with
          endpoints := repo.endpoints.set endpoint.endpointId
            { endpoint with
              credentialGeneration := credential.generation
              lastSeenAt := credential.issuedAt }
          credentials := (repo.credentials.set currentHash
            { current with
              supersededAt := some credential.issuedAt
              validUntil := some (min current.expiresAt
                (credential.issuedAt + seconds overlapSeconds)) }).set
            credential.tokenHash credential
          idempotency := repo.idempotency.set
            ⟨principal.tenantId, rotateOperation principal.endpointId, key⟩
            (digest, .credential credential)
          auditEvents := repo.auditEvents ++ [event] } := by
  rcases idempotent_cases h with ⟨rfl, hr⟩ | ⟨hnone, h⟩
  · exact Or.inl ⟨rfl, Or.inl hr⟩
  · simp only [Method.run_reading_bind] at h
    split at h
    · rename_i source hsource
      obtain ⟨endpoint, currentHash, current⟩ := source
      cases h
      exact Or.inr ⟨endpoint, currentHash, current, hnone, rotationSource_eq_ok hsource, rfl, _,
        rfl⟩
    · cases h
      exact Or.inl ⟨rfl, Or.inr ⟨_, rfl⟩⟩

end OsScanner.Cloud

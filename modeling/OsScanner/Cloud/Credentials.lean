import Mathlib
import OsScanner.Cloud.Calls

/-!
# Credential generations

The credentials of an endpoint form a chain: generations `1..n`, each superseded by the next
one, the last one current. Enrollment starts a chain and rotation extends it by one; nothing
else writes a credential.
-/

namespace OsScanner.Cloud

open Lib

/-! ## The invariant -/

/-- The credentials of an endpoint, oldest first. -/
def credentialsOf (repo : InMemoryRepository) (endpointId : String) : List CredentialRecord :=
  repo.credentials.values.filter fun credential => decide (credential.endpointId = endpointId)

structure CredentialInvariant (repo : InMemoryRepository) : Prop where
  endpointKey : ∀ {k endpoint}, repo.endpoints.get? k = some endpoint → endpoint.endpointId = k
  enrolled : ∀ {k endpoint}, repo.endpoints.get? k = some endpoint →
    1 ≤ endpoint.credentialGeneration
  hashKey : ∀ {h credential}, repo.credentials.get? h = some credential →
    credential.tokenHash = h
  owned : ∀ {h credential}, repo.credentials.get? h = some credential →
    ∃ endpoint, repo.endpoints.get? credential.endpointId = some endpoint ∧
      1 ≤ credential.generation ∧ credential.generation ≤ endpoint.credentialGeneration ∧
      (credential.supersededAt = none ↔ credential.generation = endpoint.credentialGeneration)
  complete : ∀ {k endpoint g}, repo.endpoints.get? k = some endpoint → 1 ≤ g →
    g ≤ endpoint.credentialGeneration → ∃ h credential,
      repo.credentials.get? h = some credential ∧ credential.endpointId = k ∧
      credential.generation = g
  single : ∀ {h h' c c'}, repo.credentials.get? h = some c → repo.credentials.get? h' = some c' →
    c.endpointId = c'.endpointId → c.generation = c'.generation → h = h'
  overlap : ∀ {h credential}, repo.credentials.get? h = some credential →
    credential.supersededAt ≠ none →
      ∃ validUntil, credential.validUntil = some validUntil ∧ validUntil ≤ credential.expiresAt

theorem credentialInvariant_empty : CredentialInvariant {} := by
  constructor <;> intros <;> simp_all

/-! ## Preservation -/

/-- The invariant looks at identities only. -/
theorem CredentialInvariant.congr {repo repo' : InMemoryRepository}
    (h : SameIdentities repo repo') (hinv : CredentialInvariant repo) :
    CredentialInvariant repo' := by
  have hback : ∀ {k endpoint'}, repo'.endpoints.get? k = some endpoint' →
      ∃ endpoint, repo.endpoints.get? k = some endpoint ∧
        endpoint.identity = endpoint'.identity := by
    intro k endpoint' hk
    have hid := h.endpoints k
    rw [hk, Option.map_some] at hid
    exact Option.map_eq_some_iff.mp hid.symm
  have hforth : ∀ {k endpoint}, repo.endpoints.get? k = some endpoint →
      ∃ endpoint', repo'.endpoints.get? k = some endpoint' ∧
        endpoint'.identity = endpoint.identity := by
    intro k endpoint hk
    have hid := h.endpoints k
    rw [hk, Option.map_some] at hid
    exact Option.map_eq_some_iff.mp hid
  have hfields : ∀ {a b : EndpointRecord}, a.identity = b.identity →
      a.endpointId = b.endpointId ∧ a.credentialGeneration = b.credentialGeneration := by
    intro a b hab
    simp only [EndpointRecord.identity, Prod.mk.injEq] at hab
    exact hab.2
  constructor
  · intro k endpoint' hk
    obtain ⟨endpoint, he, hid⟩ := hback hk
    exact (hfields hid).1 ▸ hinv.endpointKey he
  · intro k endpoint' hk
    obtain ⟨endpoint, he, hid⟩ := hback hk
    exact (hfields hid).2 ▸ hinv.enrolled he
  · intro hash credential hc
    rw [h.credentials] at hc
    exact hinv.hashKey hc
  · intro hash credential hc
    rw [h.credentials] at hc
    obtain ⟨endpoint, he, hone, hle, hsup⟩ := hinv.owned hc
    obtain ⟨endpoint', he', hid⟩ := hforth he
    exact ⟨endpoint', he', hone, (hfields hid).2 ▸ hle, (hfields hid).2 ▸ hsup⟩
  · intro k endpoint' g hk hone hle
    obtain ⟨endpoint, he, hid⟩ := hback hk
    rw [h.credentials]
    exact hinv.complete he hone ((hfields hid).2 ▸ hle)
  · intro a b c c'
    rw [h.credentials]
    exact hinv.single
  · intro hash credential hc
    rw [h.credentials] at hc
    exact hinv.overlap hc

/-- A first credential of generation 1 for an endpoint that had none. -/
theorem CredentialInvariant.enroll {repo repo' : InMemoryRepository} {endpoint : EndpointRecord}
    {credential : CredentialRecord} (hinv : CredentialInvariant repo)
    (hnew : repo.endpoints.get? endpoint.endpointId = none)
    (hfresh : repo.credentials.get? credential.tokenHash = none)
    (howner : credential.endpointId = endpoint.endpointId)
    (hgeneration : credential.generation = 1) (hcurrent : endpoint.credentialGeneration = 1)
    (hsuperseded : credential.supersededAt = none)
    (hendpoints : repo'.endpoints = repo.endpoints.set endpoint.endpointId endpoint)
    (hcredentials : repo'.credentials = repo.credentials.set credential.tokenHash credential) :
    CredentialInvariant repo' := by
  have hold : ∀ {h c}, repo.credentials.get? h = some c →
      c.endpointId ≠ endpoint.endpointId ∧ credential.tokenHash ≠ h := by
    intro h c hc
    refine ⟨fun he => ?_, fun he => ?_⟩
    · obtain ⟨owner, howner, -⟩ := hinv.owned hc
      rw [he, hnew] at howner
      cases howner
    · rw [he, hc] at hfresh
      cases hfresh
  have hget : ∀ {h c}, repo'.credentials.get? h = some c →
      (h = credential.tokenHash ∧ c = credential) ∨ repo.credentials.get? h = some c := by
    intro h c hc
    rw [hcredentials, Dict.get?_set] at hc
    by_cases hh : credential.tokenHash = h
    · rw [if_pos hh, Option.some.injEq] at hc
      exact Or.inl ⟨hh.symm, hc.symm⟩
    · rw [if_neg hh] at hc
      exact Or.inr hc
  have hkeep : ∀ {h c}, repo.credentials.get? h = some c →
      repo'.credentials.get? h = some c := by
    intro h c hc
    rw [hcredentials, Dict.get?_set_ne (hold hc).2, hc]
  have hendpoint : ∀ {k e}, repo'.endpoints.get? k = some e →
      (k = endpoint.endpointId ∧ e = endpoint) ∨ repo.endpoints.get? k = some e := by
    intro k e hk
    rw [hendpoints, Dict.get?_set] at hk
    by_cases hh : endpoint.endpointId = k
    · rw [if_pos hh, Option.some.injEq] at hk
      exact Or.inl ⟨hh.symm, hk.symm⟩
    · rw [if_neg hh] at hk
      exact Or.inr hk
  have hstored : repo'.credentials.get? credential.tokenHash = some credential := by
    rw [hcredentials, Dict.get?_set_self]
  constructor
  · intro k e hk
    rcases hendpoint hk with ⟨rfl, rfl⟩ | hk
    · rfl
    · exact hinv.endpointKey hk
  · intro k e hk
    rcases hendpoint hk with ⟨rfl, rfl⟩ | hk
    · exact hcurrent.ge
    · exact hinv.enrolled hk
  · intro h c hc
    rcases hget hc with ⟨rfl, rfl⟩ | hc
    · rfl
    · exact hinv.hashKey hc
  · intro h c hc
    rcases hget hc with ⟨rfl, rfl⟩ | hc
    · refine ⟨endpoint, ?_, by omega, by omega, by simp [hsuperseded, hgeneration, hcurrent]⟩
      rw [howner, hendpoints, Dict.get?_set_self]
    · obtain ⟨owner, ho, hrest⟩ := hinv.owned hc
      exact ⟨owner, by rw [hendpoints, Dict.get?_set_ne (hold hc).1.symm, ho], hrest⟩
  · intro k e g hk hone hle
    rcases hendpoint hk with ⟨rfl, rfl⟩ | hk
    · exact ⟨_, credential, hstored, howner, by omega⟩
    · obtain ⟨h, c, hc, hrest⟩ := hinv.complete hk hone hle
      exact ⟨h, c, hkeep hc, hrest⟩
  · intro h h' c c' hc hc' hend hgen
    rcases hget hc with ⟨rfl, rfl⟩ | hc <;> rcases hget hc' with ⟨rfl, rfl⟩ | hc'
    · rfl
    · exact absurd (hend ▸ howner) (hold hc').1
    · exact absurd (hend.trans howner) (hold hc).1
    · exact hinv.single hc hc' hend hgen
  · intro h c hc hsup
    rcases hget hc with ⟨rfl, rfl⟩ | hc
    · exact absurd hsuperseded hsup
    · exact hinv.overlap hc hsup

/-- The current credential is superseded by one of the next generation. -/
theorem CredentialInvariant.rotate {repo repo' : InMemoryRepository} {endpoint : EndpointRecord}
    {currentHash : String} {current credential : CredentialRecord} {issuedAt limit : Timestamp}
    {endpoint' : EndpointRecord} (hinv : CredentialInvariant repo)
    (hendpoints : repo'.endpoints = repo.endpoints.set endpoint.endpointId endpoint')
    (hcredentials : repo'.credentials = (repo.credentials.set currentHash
      { current with
        supersededAt := some issuedAt
        validUntil := some (min current.expiresAt limit) }).set
      credential.tokenHash credential)
    (hendpoint : repo.endpoints.get? current.endpointId = some endpoint)
    (hcurrent : repo.credentials.get? currentHash = some current)
    (hlast : current.generation = endpoint.credentialGeneration)
    (hfresh : repo.credentials.get? credential.tokenHash = none)
    (howner : credential.endpointId = current.endpointId)
    (hgeneration : credential.generation = endpoint.credentialGeneration + 1)
    (hsuperseded : credential.supersededAt = none)
    (hid : endpoint'.endpointId = endpoint.endpointId)
    (hadvanced : endpoint'.credentialGeneration = credential.generation) :
    CredentialInvariant repo' := by
  have hkey : endpoint.endpointId = current.endpointId := hinv.endpointKey hendpoint
  have hne : credential.tokenHash ≠ currentHash := by
    intro he
    rw [he, hcurrent] at hfresh
    cases hfresh
  have hget : ∀ {h c}, repo'.credentials.get? h = some c →
      (h = credential.tokenHash ∧ c = credential) ∨
      (h = currentHash ∧ c = { current with
        supersededAt := some issuedAt
        validUntil := some (min current.expiresAt limit) }) ∨
      (h ≠ currentHash ∧ repo.credentials.get? h = some c) := by
    intro h c hc
    rw [hcredentials, Dict.get?_set, Dict.get?_set] at hc
    by_cases h1 : credential.tokenHash = h
    · rw [if_pos h1, Option.some.injEq] at hc
      exact Or.inl ⟨h1.symm, hc.symm⟩
    · rw [if_neg h1] at hc
      by_cases h2 : currentHash = h
      · rw [if_pos h2, Option.some.injEq] at hc
        exact Or.inr (Or.inl ⟨h2.symm, hc.symm⟩)
      · rw [if_neg h2] at hc
        exact Or.inr (Or.inr ⟨Ne.symm h2, hc⟩)
  have hstored : repo'.credentials.get? credential.tokenHash = some credential := by
    rw [hcredentials, Dict.get?_set_self]
  have hkeep : ∀ {h c}, repo.credentials.get? h = some c → ∃ c',
      repo'.credentials.get? h = some c' ∧ c'.endpointId = c.endpointId ∧
        c'.generation = c.generation := by
    intro h c hc
    have h1 : credential.tokenHash ≠ h := by
      intro he
      rw [he, hc] at hfresh
      cases hfresh
    rw [hcredentials, Dict.get?_set_ne h1, Dict.get?_set]
    by_cases h2 : currentHash = h
    · rw [if_pos h2]
      rw [← h2, hcurrent, Option.some.injEq] at hc
      subst hc
      exact ⟨_, rfl, rfl, rfl⟩
    · rw [if_neg h2]
      exact ⟨c, hc, rfl, rfl⟩
  have hend : ∀ {k e}, repo'.endpoints.get? k = some e →
      (k = endpoint.endpointId ∧ e = endpoint') ∨
      (k ≠ endpoint.endpointId ∧ repo.endpoints.get? k = some e) := by
    intro k e hk
    rw [hendpoints, Dict.get?_set] at hk
    by_cases h1 : endpoint.endpointId = k
    · rw [if_pos h1, Option.some.injEq] at hk
      exact Or.inl ⟨h1.symm, hk.symm⟩
    · rw [if_neg h1] at hk
      exact Or.inr ⟨Ne.symm h1, hk⟩
  have hmine : repo'.endpoints.get? current.endpointId = some endpoint' := by
    rw [← hkey, hendpoints, Dict.get?_set_self]
  have hone : 1 ≤ endpoint.credentialGeneration := hinv.enrolled hendpoint
  -- Another credential of the endpoint is older than the current one.
  have holder : ∀ {h c}, h ≠ currentHash → repo.credentials.get? h = some c →
      c.endpointId = current.endpointId → c.generation < endpoint.credentialGeneration := by
    intro h c hh hc he
    obtain ⟨owner, ho, -, hle, -⟩ := hinv.owned hc
    rw [he, hendpoint, Option.some.injEq] at ho
    subst ho
    refine lt_of_le_of_ne hle fun hg => hh ?_
    exact hinv.single hc hcurrent he (hg.trans hlast.symm)
  constructor
  · intro k e hk
    rcases hend hk with ⟨rfl, rfl⟩ | ⟨-, hk⟩
    · exact hid
    · exact hinv.endpointKey hk
  · intro k e hk
    rcases hend hk with ⟨rfl, rfl⟩ | ⟨-, hk⟩
    · omega
    · exact hinv.enrolled hk
  · intro h c hc
    rcases hget hc with ⟨rfl, rfl⟩ | ⟨rfl, rfl⟩ | ⟨-, hc⟩
    · rfl
    · exact (hinv.hashKey hcurrent : current.tokenHash = h)
    · exact hinv.hashKey hc
  · intro h c hc
    rcases hget hc with ⟨rfl, rfl⟩ | ⟨rfl, rfl⟩ | ⟨hh, hc⟩
    · exact ⟨endpoint', howner ▸ hmine, by omega, by omega, by simp [hsuperseded, hadvanced]⟩
    · refine ⟨endpoint', hmine, ?_, ?_, ?_⟩
      · simp only; omega
      · simp only; omega
      · simp only [reduceCtorEq, false_iff]; omega
    · obtain ⟨owner, ho, hge, hle, hsup⟩ := hinv.owned hc
      by_cases he : c.endpointId = current.endpointId
      · have hlt := holder hh hc he
        rw [he, hendpoint, Option.some.injEq] at ho
        subst ho
        refine ⟨endpoint', he ▸ hmine, hge, by omega, ?_⟩
        rw [hsup]
        constructor <;> intro <;> omega
      · exact ⟨owner, by rw [hendpoints, Dict.get?_set_ne (hkey ▸ Ne.symm he), ho], hge, hle,
          hsup⟩
  · intro k e g hk hge hle
    rcases hend hk with ⟨rfl, rfl⟩ | ⟨-, hk⟩
    · by_cases hg : g = credential.generation
      · exact ⟨_, credential, hstored, howner.trans hkey.symm, hg.symm⟩
      · obtain ⟨h, c, hc, he, hcg⟩ := hinv.complete (hkey ▸ hendpoint) hge (show g ≤ _ by omega)
        obtain ⟨c', hc', he', hg'⟩ := hkeep hc
        exact ⟨h, c', hc', he'.trans he, hg'.trans hcg⟩
    · obtain ⟨h, c, hc, he, hcg⟩ := hinv.complete hk hge hle
      obtain ⟨c', hc', he', hg'⟩ := hkeep hc
      exact ⟨h, c', hc', he'.trans he, hg'.trans hcg⟩
  · have hnewer : ∀ {h c}, repo.credentials.get? h = some c →
        c.endpointId = credential.endpointId → c.generation ≠ credential.generation := by
      intro h c hc he
      obtain ⟨owner, ho, -, hle, -⟩ := hinv.owned hc
      rw [he, howner, hendpoint, Option.some.injEq] at ho
      subst ho
      omega
    intro h h' c c' hc hc' he hg
    rcases hget hc with ⟨rfl, rfl⟩ | ⟨rfl, rfl⟩ | ⟨-, hc⟩ <;>
      rcases hget hc' with ⟨rfl, rfl⟩ | ⟨rfl, rfl⟩ | ⟨-, hc'⟩
    · rfl
    · have hne' : current.generation ≠ _ := hnewer hcurrent he.symm
      exact absurd hg.symm hne'
    · exact absurd hg.symm (hnewer hc' he.symm)
    · have hne' : current.generation ≠ _ := hnewer hcurrent he
      exact absurd hg hne'
    · rfl
    · exact hinv.single hcurrent hc' he hg
    · exact absurd hg (hnewer hc he)
    · exact hinv.single hc hcurrent he hg
    · exact hinv.single hc hc' he hg
  · intro h c hc hsup
    rcases hget hc with ⟨rfl, rfl⟩ | ⟨rfl, rfl⟩ | ⟨-, hc⟩
    · exact absurd hsuperseded hsup
    · exact ⟨_, rfl, min_le_left _ _⟩
    · exact hinv.overlap hc hsup

/-! ## Steps and runs -/

/-- A rotation brings a token hash that no credential has. -/
def FreshHash (repo : InMemoryRepository) : Call → Prop
  | .identity (.rotateCredential _ _ _ _ tokenHash _ _ _ _ _ _ _) =>
    repo.credentials.get? tokenHash = none
  | _ => True

instance (repo : InMemoryRepository) : ∀ call, Decidable (FreshHash repo call)
  | .identity (.rotateCredential _ _ _ _ tokenHash _ _ _ _ _ _ _) =>
    inferInstanceAs (Decidable (repo.credentials.get? tokenHash = none))
  | .identity (.createEnrollmentGrant ..) | .identity (.enrollEndpoint ..) | .scan _ =>
    isTrue trivial

theorem CredentialInvariant.step {rt : Runtime} {repo : InMemoryRepository} {call : Call}
    (hfresh : FreshHash repo call) (hinv : CredentialInvariant repo) :
    CredentialInvariant (call.step rt repo) := by
  cases call with
  | scan call => exact hinv.congr (call.sameIdentities rt repo)
  | identity call =>
    cases call with
    | createEnrollmentGrant =>
      rcases createEnrollmentGrant_effect (Prod.mk.eta).symm with
        ⟨h, -⟩ | ⟨-, -, -, _, h⟩ <;> rw [Call.step, IdentityCall.step, h]
      · exact hinv
      · exact ⟨hinv.endpointKey, hinv.enrolled, hinv.hashKey, hinv.owned, hinv.complete,
          hinv.single, hinv.overlap⟩
    | enrollEndpoint =>
      rcases enrollEndpoint_effect (Prod.mk.eta).symm with
        ⟨h, -⟩ | ⟨_, -, -, hendpoint, hcredential, -, _, h⟩ <;>
        rw [Call.step, IdentityCall.step, h]
      · exact hinv
      · exact hinv.enroll hendpoint hcredential rfl rfl rfl rfl rfl rfl
    | rotateCredential =>
      rcases rotateCredential_effect (Prod.mk.eta).symm with
        ⟨h, -⟩ | ⟨endpoint, currentHash, current, -, source, -, _, h⟩ <;>
        rw [Call.step, IdentityCall.step, h]
      · exact hinv
      · have hlast := source.currentGeneration.trans source.generation.symm
        have hnext := source.next
        rw [← source.generation] at hnext
        exact hinv.rotate rfl rfl (source.currentEndpoint ▸ source.endpointFound)
          source.currentFound hlast hfresh source.currentEndpoint.symm hnext rfl rfl rfl

/-- The invariant holds after every run that starts from an empty repository. -/
theorem credentialInvariant_run {rt : Runtime} {calls : List Call}
    (hfresh : Guarded (Call.step rt) FreshHash {} calls) :
    CredentialInvariant (runFrom (Call.step rt) {} calls) :=
  hfresh.invariant (fun _ _ => CredentialInvariant.step) credentialInvariant_empty

/-! ## What the invariant says of one endpoint -/

theorem mem_credentialsOf {repo : InMemoryRepository} {endpointId : String}
    {credential : CredentialRecord} :
    credential ∈ credentialsOf repo endpointId ↔
      (∃ h, repo.credentials.get? h = some credential) ∧ credential.endpointId = endpointId := by
  rw [credentialsOf, List.mem_filter, Dict.mem_values_iff, decide_eq_true_eq]

theorem CredentialInvariant.nodup_credentialsOf {repo : InMemoryRepository}
    (hinv : CredentialInvariant repo) (endpointId : String) :
    (credentialsOf repo endpointId).Nodup :=
  (Dict.nodup_map_values fun _ _ h => hinv.hashKey h).of_map.filter _

/-- The generations are `1..n`, each once. -/
theorem CredentialInvariant.generations {repo : InMemoryRepository}
    (hinv : CredentialInvariant repo) {k : String} {endpoint : EndpointRecord}
    (hk : repo.endpoints.get? k = some endpoint) :
    ((credentialsOf repo k).map (·.generation)).Perm
      (List.range' 1 endpoint.credentialGeneration) := by
  have hnodup : ((credentialsOf repo k).map (·.generation)).Nodup := by
    refine (hinv.nodup_credentialsOf k).map_on fun c hc c' hc' hg => ?_
    obtain ⟨⟨h, hh⟩, he⟩ := mem_credentialsOf.mp hc
    obtain ⟨⟨h', hh'⟩, he'⟩ := mem_credentialsOf.mp hc'
    have heq := hinv.single hh hh' (he.trans he'.symm) hg
    rw [heq, hh', Option.some.injEq] at hh
    exact hh.symm
  refine (List.perm_ext_iff_of_nodup hnodup List.nodup_range').mpr fun g => ?_
  rw [List.mem_map, List.mem_range'_1]
  constructor
  · rintro ⟨c, hc, rfl⟩
    obtain ⟨⟨h, hh⟩, rfl⟩ := mem_credentialsOf.mp hc
    obtain ⟨owner, ho, hge, hle, -⟩ := hinv.owned hh
    rw [hk, Option.some.injEq] at ho
    subst ho
    omega
  · rintro ⟨hge, hlt⟩
    obtain ⟨h, c, hc, he, hg⟩ := hinv.complete hk hge (show g ≤ _ by omega)
    exact ⟨c, mem_credentialsOf.mpr ⟨⟨h, hc⟩, he⟩, hg⟩

/-- Exactly one credential of an endpoint is not superseded, the one of its generation. -/
theorem CredentialInvariant.current {repo : InMemoryRepository} (hinv : CredentialInvariant repo)
    {k : String} {endpoint : EndpointRecord} (hk : repo.endpoints.get? k = some endpoint) :
    ∃ current, (credentialsOf repo k).filter (fun c => decide (c.supersededAt = none)) =
        [current] ∧ current.generation = endpoint.credentialGeneration := by
  obtain ⟨h, current, hc, he, hg⟩ := hinv.complete hk (hinv.enrolled hk) le_rfl
  refine ⟨current, ?_, hg⟩
  have hnodup := (hinv.nodup_credentialsOf k).filter fun c => decide (c.supersededAt = none)
  refine List.perm_singleton.mp ((List.perm_ext_iff_of_nodup hnodup (by simp)).mpr fun c => ?_)
  rw [List.mem_filter, decide_eq_true_eq, List.mem_singleton]
  constructor
  · rintro ⟨hmem, hsup⟩
    obtain ⟨⟨h', hc'⟩, he'⟩ := mem_credentialsOf.mp hmem
    obtain ⟨owner, ho, -, -, hiff⟩ := hinv.owned hc'
    rw [he', hk, Option.some.injEq] at ho
    subst ho
    have heq := hinv.single hc' hc (he'.trans he.symm) ((hiff.mp hsup).trans hg.symm)
    rw [heq, hc, Option.some.injEq] at hc'
    exact hc'.symm
  · rintro rfl
    obtain ⟨owner, ho, -, -, hiff⟩ := hinv.owned hc
    rw [he, hk, Option.some.injEq] at ho
    subst ho
    exact ⟨mem_credentialsOf.mpr ⟨⟨h, hc⟩, he⟩, hiff.mpr hg⟩

/-- A rotation by a principal of another generation changes nothing. -/
theorem rotateCredential_stale {principal : DevicePrincipal} {endpoint : EndpointRecord}
    {repo : InMemoryRepository} (hk : repo.endpoints.get? principal.endpointId = some endpoint)
    (hstale : principal.generation ≠ endpoint.credentialGeneration) (expectedGeneration : Nat)
    (expectedCredentialId : String) (credential : CredentialRecord) (overlapSeconds : Int)
    (key digest : String) (auditedAt : Timestamp) :
    ((rotateCredential principal expectedGeneration expectedCredentialId credential
      overlapSeconds key digest auditedAt).run repo).2 = repo := by
  rcases rotateCredential_effect (Prod.mk.eta).symm with
    ⟨h, -⟩ | ⟨endpoint', _, _, -, source, -⟩
  · exact h
  · have hsame := source.endpointFound
    rw [hk, Option.some.injEq] at hsame
    exact absurd (hsame ▸ source.generation).symm hstale

/--
After every run of calls whose rotations bring fresh token hashes, each endpoint has exactly
one credential that is not superseded; its generation is that of the endpoint and the largest;
the generations are `1..n` without gap or repetition; a superseded credential stays valid no
longer than it would have been; and a principal of another generation cannot rotate.
-/
theorem credential_generations {rt : Runtime} {calls : List Call}
    (hfresh : Guarded (Call.step rt) FreshHash {} calls) :
    ∀ k endpoint, (runFrom (Call.step rt) {} calls).endpoints.get? k = some endpoint →
      (∃ current, (credentialsOf (runFrom (Call.step rt) {} calls) k).filter
          (fun c => decide (c.supersededAt = none)) = [current] ∧
        current.generation = endpoint.credentialGeneration) ∧
      (∀ c ∈ credentialsOf (runFrom (Call.step rt) {} calls) k,
        c.generation ≤ endpoint.credentialGeneration) ∧
      ((credentialsOf (runFrom (Call.step rt) {} calls) k).map (·.generation)).Perm
        (List.range' 1 endpoint.credentialGeneration) ∧
      (∀ c ∈ credentialsOf (runFrom (Call.step rt) {} calls) k, c.supersededAt ≠ none →
        ∃ validUntil, c.validUntil = some validUntil ∧ validUntil ≤ c.expiresAt) ∧
      ∀ (principal : DevicePrincipal), principal.endpointId = k →
        principal.generation ≠ endpoint.credentialGeneration →
        ∀ (expectedGeneration : Nat) (expectedCredentialId : String)
          (credential : CredentialRecord) (overlapSeconds : Int) (key digest : String)
          (auditedAt : Timestamp),
          ((rotateCredential principal expectedGeneration expectedCredentialId credential
            overlapSeconds key digest auditedAt).run (runFrom (Call.step rt) {} calls)).2 =
              runFrom (Call.step rt) {} calls := by
  intro k endpoint hk
  have hinv := credentialInvariant_run hfresh
  refine ⟨hinv.current hk, fun c hc => ?_, hinv.generations hk, fun c hc hsup => ?_, ?_⟩
  · obtain ⟨⟨h, hh⟩, rfl⟩ := mem_credentialsOf.mp hc
    obtain ⟨owner, ho, -, hle, -⟩ := hinv.owned hh
    rw [hk, Option.some.injEq] at ho
    exact ho ▸ hle
  · obtain ⟨⟨h, hh⟩, -⟩ := mem_credentialsOf.mp hc
    exact hinv.overlap hh hsup
  · rintro principal rfl hstale
    exact rotateCredential_stale hk hstale

/-- An enrollment, a rotation, and a second rotation by the principal of the first credential. -/
def staleRotation : List Call :=
  let body : EndpointEnrollment := ⟨"host", .linux, "12", "x86_64", "1.0.0"⟩
  let principal : DevicePrincipal := ⟨"tenant", "endpoint-1", "credential-1", 1⟩
  [.identity (.enrollEndpoint "tenant" "endpoint-1" "credential-1" "hash-1" body 0 3600 "key-1"
      "digest-1" none 0),
    .identity (.rotateCredential principal 1 "credential-1" "credential-2" "hash-2" 2 10 3600 300
      "key-2" "digest-2" 10),
    .identity (.rotateCredential principal 1 "credential-1" "credential-3" "hash-3" 2 20 3600 300
      "key-3" "digest-2" 20)]

theorem credential_generations_staleRotation :
    ∃ endpoint, (runFrom (Call.step Runtime.sample) {} staleRotation).endpoints.get? "endpoint-1" =
        some endpoint ∧ endpoint.credentialGeneration = 2 ∧
      ((credentialsOf (runFrom (Call.step Runtime.sample) {} staleRotation) "endpoint-1").map
        (·.generation)).Perm (List.range' 1 2) := by
  have hfresh : Guarded (Call.step Runtime.sample) FreshHash {} staleRotation := by
    decide +kernel
  have hsome : ((runFrom (Call.step Runtime.sample) {} staleRotation).endpoints.get?
      "endpoint-1").map (·.credentialGeneration) = some 2 := by
    decide +kernel
  obtain ⟨endpoint, hk, hgeneration⟩ := Option.map_eq_some_iff.mp hsome
  refine ⟨endpoint, hk, hgeneration, ?_⟩
  exact hgeneration ▸ (credential_generations hfresh "endpoint-1" endpoint hk).2.2.1

end OsScanner.Cloud

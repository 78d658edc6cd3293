import Mathlib
import OsScanner.Endpoint.Discovery

/-!
# What a discovery stores

The adapter is asked about the target of a job and about the exclusions within it, not about
whether the job extends to subdomains. So every name of the tool's output that the request
covers is stored, and is authorized exactly when subdomains are or it is listed itself.
-/

namespace OsScanner.Endpoint

open Lib Check Storage

/-! ## Sorted sets -/

theorem mem_sortedSet {values : List String} {text : String} :
    text ∈ sortedSet values ↔ text ∈ values := by
  rw [sortedSet, List.mem_insertionSort, List.mem_dedup]

theorem nodup_sortedSet (values : List String) : (sortedSet values).Nodup :=
  (List.perm_insertionSort _ _).nodup_iff.mpr (List.nodup_dedup _)

/-- Sorted sets of the same elements are the same list. -/
theorem sortedSet_congr {values values' : List String}
    (h : ∀ text, text ∈ values ↔ text ∈ values') : sortedSet values = sortedSet values' := by
  refine List.Perm.eq_of_pairwise (fun a b _ _ => le_antisymm)
    (List.pairwise_insertionSort _ _) (List.pairwise_insertionSort _ _) ?_
  refine (List.perm_insertionSort _ _).trans (List.Perm.trans ?_ (List.perm_insertionSort _ _).symm)
  refine (List.perm_ext_iff_of_nodup (List.nodup_dedup _) (List.nodup_dedup _)).mpr fun text => ?_
  rw [List.mem_dedup, List.mem_dedup, h]

/-! ## Names of the adapter -/

namespace Amass

variable {lib : NameLibrary} {value domain : String}

/-- What the adapter's function returns. -/
theorem normalizeDomain_ok (h : normalizeDomain lib value = .ok domain) :
    Canonical domain ∧ domain.length ≤ 253 ∧ lib.ipAddress domain = none := by
  unfold normalizeDomain at h
  simp only [bind_unit_eq_ok, raiseIf_eq_ok] at h
  obtain ⟨-, -, h⟩ := h
  split at h
  · cases h
  · simp only [bind_unit_eq_ok, raiseIf_eq_ok] at h
    obtain ⟨hlength, hlabels, htop, haddress, h⟩ := h
    cases h
    exact ⟨canonical_of_checks hlabels htop, not_lt.mp hlength, by simpa using haddress⟩

/-- A canonical name is returned as it is, or refused. -/
theorem eq_of_normalizeDomain (hcanonical : Canonical value)
    (h : normalizeDomain lib value = .ok domain) : domain = value := by
  unfold normalizeDomain at h
  simp only [bind_unit_eq_ok, raiseIf_eq_ok] at h
  obtain ⟨-, -, h⟩ := h
  have hdot : ¬ value.toList.getLast? = some '.' := by
    rw [List.getLast?_eq_some_getLast hcanonical.ne_nil, Option.some.injEq]
    exact hcanonical.getLast_ne_dot
  simp only [if_neg hdot, hcanonical.idna_eq, hcanonical.casefold_eq, bind_unit_eq_ok,
    raiseIf_eq_ok] at h
  obtain ⟨-, -, -, -, h⟩ := h
  cases h
  rfl

theorem mem_distinctDomains {values domains : List String}
    (h : distinctDomains lib values = .ok domains) :
    (∀ value ∈ values, ∃ domain ∈ domains, normalizeDomain lib value = .ok domain) ∧
      ∀ domain ∈ domains, ∃ value ∈ values, normalizeDomain lib value = .ok domain := by
  rw [distinctDomains] at h
  cases hmap : values.mapM (normalizeDomain lib) with
  | error e => rw [hmap] at h; cases h
  | ok all =>
    rw [hmap] at h
    cases h
    have hall := mapM_eq_ok.mp hmap
    constructor
    · intro value hvalue
      obtain ⟨domain, hdomain, hnormal⟩ := exists_of_mem_left hall hvalue
      exact ⟨domain, List.mem_eraseDups.mpr hdomain, hnormal⟩
    · intro domain hdomain
      exact exists_of_mem_right hall (List.mem_eraseDups.mp hdomain)

/-- What an accepted request is. -/
structure Accepted (lib : NameLibrary) (value request : AmassRequest) : Prop where
  target : normalizeDomain lib value.target = .ok request.target
  scope : ∀ allowed ∈ request.scope, Within allowed request.target
  exclusions : distinctDomains lib value.exclusions = .ok request.exclusions
  maxAssets : request.maxAssets = value.maxAssets ∧ 1 ≤ value.maxAssets

theorem accepted_of_validateInput {adapter : AmassAdapter} {value request : AmassRequest}
    (h : validateInput lib adapter value = .ok request) : Accepted lib value request := by
  unfold validateInput at h
  simp only [bind_eq_ok, raiseIf_eq_ok] at h
  obtain ⟨-, -, -, -, -, -, target, htarget, roots, -, -, -, -, -, -, -, scope, -, -, hscope, -, -,
    -, -, exclusions, hexclusions, -, -, -, -, -, -, -, -, -, -, -, -, -, hassets, h⟩ := h
  cases h
  refine ⟨htarget, fun allowed hallowed => ?_, hexclusions, rfl, (not_not.mp hassets).1⟩
  by_contra hnot
  exact hscope ⟨allowed, hallowed, hnot⟩

/-! ## The selected records -/

/-- The record as it is selected. -/
def retyped (request : AmassRequest) (asset : DiscoveredAsset) : DiscoveredAsset :=
  { asset with type := if asset.hostname = request.target then "domain" else "subdomain" }

/-- The loop keeps the covered records, and raises when they have too many names. -/
theorem selectAssets_eq {request : AmassRequest} {assets : List DiscoveredAsset}
    {selected : Dict String DiscoveredAsset}
    (hroom : (selected.values.length : Int) ≤ request.maxAssets) :
    selectAssets request selected assets =
      (let all := Dict.setAll DiscoveredAsset.hostname (retyped request)
        (assets.filter fun asset => decide (Covers request asset.hostname)) selected
      if request.maxAssets < all.values.length then
        .error "Amass discovered-asset limit exceeded" else .ok all) := by
  induction assets generalizing selected with
  | nil =>
    rw [selectAssets]
    exact (if_neg (not_lt.mpr hroom)).symm
  | cons asset assets ih =>
    rw [selectAssets]
    by_cases hcovered : Covers request asset.hostname
    · rw [if_pos hcovered, List.filter_cons_of_pos (by simpa using hcovered)]
      show (do
        raiseIf (request.maxAssets <
          (selected.set asset.hostname (retyped request asset)).values.length) _
        selectAssets request (selected.set asset.hostname (retyped request asset)) assets) = _
      by_cases hfull : request.maxAssets <
          (selected.set asset.hostname (retyped request asset)).values.length
      · have hgrows : (selected.set asset.hostname (retyped request asset)).values.length ≤
            (Dict.setAll DiscoveredAsset.hostname (retyped request)
              (assets.filter fun asset => decide (Covers request asset.hostname))
              (selected.set asset.hostname (retyped request asset))).values.length :=
          Dict.length_le_length_setAll _ _
        rw [raiseIf, if_pos hfull]
        refine (if_pos ?_).symm
        rw [Dict.setAll_cons]
        omega
      · rw [raiseIf, if_neg hfull]
        exact ih (not_lt.mp hfull)
    · rw [if_neg hcovered, List.filter_cons_of_neg (by simpa using hcovered)]
      exact ih hroom

/-- The covered names of the records. -/
def coveredNames (request : AmassRequest) (assets : List DiscoveredAsset) : List String :=
  (((assets.filter fun asset => decide (Covers request asset.hostname)).map
    DiscoveredAsset.hostname)).dedup

/-- Looking up keys that are there returns a record for each of them. -/
theorem map_filterMap_get? {selected : Dict String DiscoveredAsset} {keys : List String}
    (h : ∀ k ∈ keys, ∃ asset, selected.get? k = some asset ∧ asset.hostname = k) :
    (keys.filterMap selected.get?).map DiscoveredAsset.hostname = keys := by
  induction keys with
  | nil => rfl
  | cons k keys ih =>
    obtain ⟨asset, hget, hname⟩ := h k List.mem_cons_self
    rw [List.filterMap_cons_some hget, List.map_cons, hname,
      ih fun k' hk' => h k' (List.mem_cons_of_mem _ hk')]

theorem covers_of_mem {request : AmassRequest} {assets : List DiscoveredAsset} {name : String}
    (h : name ∈ coveredNames request assets) : Covers request name := by
  rw [coveredNames, List.mem_dedup] at h
  obtain ⟨asset, hasset, rfl⟩ := List.mem_map.mp h
  exact of_decide_eq_true (List.mem_filter.mp hasset).2

/-- The records that the loop has selected in the end. -/
def allSelected (request : AmassRequest) (assets : List DiscoveredAsset) :
    Dict String DiscoveredAsset :=
  Dict.setAll DiscoveredAsset.hostname (retyped request)
    (assets.filter fun asset => decide (Covers request asset.hostname)) ∅

theorem mem_keys_allSelected {request : AmassRequest} {assets : List DiscoveredAsset}
    {name : String} : name ∈ (allSelected request assets).entries.map Prod.fst ↔
      name ∈ coveredNames request assets := by
  rw [allSelected, Dict.mem_keys_setAll, coveredNames, List.mem_dedup]
  simp

theorem length_allSelected (request : AmassRequest) (assets : List DiscoveredAsset) :
    (allSelected request assets).values.length = (coveredNames request assets).length := by
  have hperm : ((allSelected request assets).entries.map Prod.fst).Perm
      (coveredNames request assets) :=
    (List.perm_ext_iff_of_nodup (allSelected request assets).nodup (List.nodup_dedup _)).mpr
      fun _ => mem_keys_allSelected
  rw [← hperm.length_eq, Dict.values, List.length_map, List.length_map]

/-- A selected record is kept under its name and comes from a record of the tool. -/
theorem get?_allSelected {request : AmassRequest} {assets : List DiscoveredAsset} {name : String}
    {asset : DiscoveredAsset} (h : (allSelected request assets).get? name = some asset) :
    asset.hostname = name ∧ ∃ record ∈ assets, asset = retyped request record := by
  obtain ⟨record, hrecord, rfl, rfl⟩ | hempty := Dict.get?_setAll_eq_some h
  · exact ⟨rfl, record, (List.mem_filter.mp hrecord).1, rfl⟩
  · cases hempty

theorem applyScope_eq {request : AmassRequest} {assets : List DiscoveredAsset}
    (hroom : 0 ≤ request.maxAssets) :
    applyScope assets request =
      if request.maxAssets < (coveredNames request assets).length then
        .error "Amass discovered-asset limit exceeded"
      else .ok ((sortedSet (coveredNames request assets)).filterMap
        (allSelected request assets).get?) := by
  have hkeys : sortedSet ((allSelected request assets).entries.map Prod.fst) =
      sortedSet (coveredNames request assets) := sortedSet_congr fun _ => mem_keys_allSelected
  have hselect := @selectAssets_eq request assets ∅ hroom
  change selectAssets request ∅ assets =
    (if request.maxAssets < (allSelected request assets).values.length then
      .error "Amass discovered-asset limit exceeded" else .ok (allSelected request assets)) at hselect
  rw [length_allSelected] at hselect
  rw [applyScope, hselect]
  split
  · rfl
  · show Except.ok (List.filterMap _ (sortedSet ((allSelected request assets).entries.map _))) = _
    rw [hkeys]

/-- The names of the payload are the covered ones, and its records come from those of the tool. -/
theorem payload_spec (request : AmassRequest) (assets : List DiscoveredAsset) :
    (((sortedSet (coveredNames request assets)).filterMap
        (allSelected request assets).get?).map DiscoveredAsset.hostname =
          sortedSet (coveredNames request assets)) ∧
      ∀ asset ∈ (sortedSet (coveredNames request assets)).filterMap
        (allSelected request assets).get?, ∃ record ∈ assets, asset = retyped request record := by
  constructor
  · refine map_filterMap_get? fun name hname => ?_
    obtain ⟨asset, hget⟩ : ∃ asset, (allSelected request assets).get? name = some asset := by
      rw [← Dict.contains_iff, Dict.contains, Dict.get?, Assoc.lookup_isSome_iff,
        mem_keys_allSelected, ← mem_sortedSet]
      exact hname
    exact ⟨asset, hget, (get?_allSelected hget).1⟩
  · intro asset hasset
    obtain ⟨name, -, hget⟩ := List.mem_filterMap.mp hasset
    exact (get?_allSelected hget).2

/-! ## The records of the tool -/

/-- What the adapter's records are like. -/
structure Storable (lib : NameLibrary) (asset : DiscoveredAsset) : Prop where
  canonical : Canonical asset.hostname
  length : asset.hostname.length ≤ 253
  name : lib.ipAddress asset.hostname = none
  addresses : ∀ address ∈ asset.addresses, lib.ipAddress address = some address
  few : asset.addresses.length ≤ 100

theorem ipAddress_addressOf {entry : Json} {address : String} (h : addressOf lib entry = some address) :
    lib.ipAddress address = some address := by
  unfold addressOf at h
  dsimp only at h
  split at h
  · exact lib.ipAddress_idem _ _ h
  · cases h

theorem storable_of_normalizeRecord {record : JsonObject} {asset : DiscoveredAsset}
    (h : normalizeRecord lib record = some asset) : Storable lib asset := by
  unfold normalizeRecord at h
  split at h
  · split at h
    · cases h
    · next hostname domain hdomain =>
      obtain ⟨hcanonical, hlength, hname⟩ := normalizeDomain_ok hdomain
      cases h
      refine ⟨hcanonical, hlength, hname, fun address haddress => ?_, ?_⟩
      · dsimp only at haddress
        rw [mem_sortedSet] at haddress
        split at haddress
        · obtain ⟨entry, -, hentry⟩ := List.mem_filterMap.mp haddress
          exact ipAddress_addressOf hentry
        · cases haddress
      · dsimp only
        rw [sortedSet, List.length_insertionSort]
        refine (List.dedup_sublist _).length_le.trans ?_
        split
        · exact (List.length_filterMap_le _ _).trans (List.length_take_le _ _)
        · exact Nat.zero_le _
  · cases h

theorem storable_normalize {parsed : List JsonObject} :
    ∀ asset ∈ normalize lib parsed, Storable lib asset := by
  intro asset hasset
  obtain ⟨record, -, hrecord⟩ := List.mem_filterMap.mp hasset
  exact storable_of_normalizeRecord hrecord

end Amass

/-! ## The assets -/

section

variable {lib : NameLibrary}

/-- Addresses that are written as `str` writes them are kept. -/
theorem mapM_ipAddress {addresses : List String}
    (h : ∀ address ∈ addresses, lib.ipAddress address = some address) :
    addresses.mapM lib.ipAddress = some addresses := by
  induction addresses with
  | nil => rfl
  | cons address rest ih =>
    rw [List.mapM_cons, h address List.mem_cons_self,
      ih fun a ha => h a (List.mem_cons_of_mem _ ha)]
    rfl

/-- A storable name within the root passes the validators of an asset unchanged. -/
theorem validate_storable {asset : AttackSurfaceAsset} {record : DiscoveredAsset}
    (hrecord : Amass.Storable lib record) (hname : asset.hostname = record.hostname)
    (haddresses : asset.addresses = record.addresses) (hroot : Canonical asset.rootDomain)
    (hlength : asset.rootDomain.length ≤ 253) (hwithin : Within asset.hostname asset.rootDomain) :
    asset.validate lib = some asset := by
  have hmap : asset.addresses.mapM lib.ipAddress = some asset.addresses := by
    rw [haddresses]
    exact mapM_ipAddress hrecord.addresses
  have hfew : asset.addresses.length ≤ 256 := by
    rw [haddresses]
    have hrecord := hrecord.few
    omega
  have hhostname : normalizeDomain lib asset.hostname = .ok asset.hostname := by
    rw [hname, hrecord.canonical.normalizeDomain_eq, if_neg (not_lt.mpr hrecord.length)]
  have hrootDomain : normalizeDomain lib asset.rootDomain = .ok asset.rootDomain := by
    rw [hroot.normalizeDomain_eq, if_neg (not_lt.mpr hlength)]
  have haddress : lib.ipAddress asset.hostname = none := by rw [hname, hrecord.name]
  unfold AttackSurfaceAsset.validate
  rw [haddress, hhostname, hrootDomain, hmap]
  exact if_pos ⟨hfew, hwithin⟩

/-- Every record with a name of its own within the root becomes an asset. -/
theorem normalizeAmass_hostnames {scanId root : String} {seen : List String}
    {records : List DiscoveredAsset} (hroot : Canonical root) (hlength : root.length ≤ 253)
    (hstorable : ∀ record ∈ records, Amass.Storable lib record)
    (hwithin : ∀ record ∈ records, Within record.hostname root)
    (hnodup : (records.map DiscoveredAsset.hostname).Nodup)
    (hseen : ∀ record ∈ records, record.hostname ∉ seen) :
    (normalizeAmass lib scanId root seen records).map AttackSurfaceAsset.hostname =
      records.map DiscoveredAsset.hostname := by
  induction records generalizing seen with
  | nil => rfl
  | cons record records ih =>
    have hrecord := hstorable record List.mem_cons_self
    have hcanonical := hrecord.canonical
    have hne : record.hostname ≠ "" := fun h => hcanonical.ne_nil (by rw [h]; rfl)
    have hpass : ¬ (record.hostname = "" ∨ record.hostname ∈ seen ∨
        ¬ Within record.hostname root) := by
      rintro (hempty | hbefore | hout)
      · exact hne hempty
      · exact hseen record List.mem_cons_self hbefore
      · exact hout (hwithin record List.mem_cons_self)
    rw [List.map_cons, List.nodup_cons] at hnodup
    rw [normalizeAmass, hcanonical.casefold_eq, hcanonical.rstripDots_eq]
    dsimp only
    rw [if_neg hpass, validate_storable hrecord rfl rfl hroot hlength
      (hwithin record List.mem_cons_self)]
    rw [Option.toList_some, List.singleton_append, List.map_cons, List.map_cons,
      ih (fun r hr => hstorable r (List.mem_cons_of_mem _ hr))
        (fun r hr => hwithin r (List.mem_cons_of_mem _ hr)) hnodup.2]
    intro r hr hmem
    obtain heq | hbefore := List.mem_cons.mp hmem
    · exact hnodup.1 (heq ▸ List.mem_map_of_mem hr)
    · exact hseen r (List.mem_cons_of_mem _ hr) hbefore

/-! ## One job -/

theorem AttackSurfaceJob.canonical_target (job : AttackSurfaceJob lib) : Canonical job.target := by
  obtain ⟨raw, hraw⟩ := job.target_normalized
  exact canonical_of_normalizeDomain hraw

/-- The job reaches the tool with this request and reads these records. -/
structure Reaches (settings : DiscoverySettings) (job : AttackSurfaceJob lib)
    (discovery : Discovery) (request : AmassRequest) (parsed : List JsonObject) : Prop where
  enabled : settings.enabled = true
  root : ∃ root ∈ settings.authorizedDomains, Within job.target root
  configured : settings.executableConfigured = true
  status : discovery.statusAccepted = true
  request : ∃ remaining, discovery.remaining = some remaining ∧
    Amass.validateInput lib settings.adapter (job.request settings remaining) = .ok request
  output : ∃ text, discovery.run = .output text ∧
    Amass.parse lib settings.adapter text = .ok parsed

/-- The names that lie in the scope of the request and outside of its exclusions. -/
def namesWithin (lib : NameLibrary) (request : AmassRequest) (parsed : List JsonObject) :
    List String :=
  Amass.coveredNames request (Amass.normalize lib parsed)

/-- Neither the adapter nor the inventory refuses that many names. -/
def InLimits (settings : DiscoverySettings) (names : List String) : Prop :=
  names.length ≤ settings.maxDiscoveredAssets ∧ names.length ≤ settings.maxInventoryRecords

theorem kept_enforceInventoryLimit (settings : DiscoverySettings) (bundle : CollectionBundle) :
    keptAssets (enforceInventoryLimit settings bundle) =
      if settings.maxInventoryRecords < bundle.attackSurface.length then []
      else bundle.attackSurface := by
  by_cases h : settings.maxInventoryRecords < bundle.attackSurface.length
  · rw [enforceInventoryLimit, raiseIf, if_pos h, if_pos h]
    rfl
  · rw [enforceInventoryLimit, raiseIf, if_neg h, if_neg h]
    rfl

/-- Without assets the limit changes nothing. -/
theorem kept_empty (settings : DiscoverySettings) :
    keptAssets (enforceInventoryLimit settings {}) = [] := by
  rw [kept_enforceInventoryLimit]
  split <;> rfl

/-- A job that stores anything has reached the tool. -/
theorem reaches_of_stored {settings : DiscoverySettings} {job : AttackSurfaceJob lib}
    {discovery : Discovery} {asset : AttackSurfaceAsset}
    (h : asset ∈ storedAssets settings job discovery) :
    ∃ request parsed, Reaches settings job discovery request parsed := by
  unfold storedAssets attackSurface at h
  by_cases henabled : settings.enabled = false
  · rw [if_pos henabled] at h
    cases h
  rw [if_neg henabled] at h
  by_cases hroot : ∃ root ∈ settings.authorizedDomains, Within job.target root
  case neg =>
    rw [raiseIf, if_pos hroot] at h
    cases h
  rw [raiseIf, if_neg (not_not.mpr hroot)] at h
  change asset ∈ keptAssets (if settings.executableConfigured = false then _ else _) at h
  by_cases hconfigured : settings.executableConfigured = false
  · rw [if_pos hconfigured, kept_empty] at h
    cases h
  rw [if_neg hconfigured] at h
  cases hremaining : discovery.remaining with
  | none =>
    rw [hremaining] at h
    rw [kept_empty] at h
    cases h
  | some remaining =>
    cases hstatus : discovery.statusAccepted with
    | false =>
      rw [hremaining, hstatus] at h
      rw [kept_empty] at h
      cases h
    | true =>
      rw [hremaining, hstatus] at h
      dsimp only at h
      by_cases hsuccess : (Amass.execute lib settings.adapter (job.request settings remaining)
          discovery.run).status = .success
      case neg =>
        rw [if_neg hsuccess, kept_empty] at h
        cases h
      unfold Amass.execute at hsuccess
      split at hsuccess
      · cases hsuccess
      next request hrequest =>
      split at hsuccess
      any_goals cases hsuccess
      next text hrun =>
      cases hparsed : Amass.parse lib settings.adapter text with
      | error e =>
        rw [hparsed] at hsuccess
        cases hsuccess
      | ok parsed =>
        exact ⟨request, parsed, by simpa using henabled, hroot, by simpa using hconfigured,
          hstatus, ⟨remaining, hremaining, hrequest⟩, ⟨text, hrun, hparsed⟩⟩

/-- What a job stores that has reached the tool. -/
theorem storedAssets_of_reaches {settings : DiscoverySettings} {job : AttackSurfaceJob lib}
    {discovery : Discovery} {request : AmassRequest} {parsed : List JsonObject}
    (h : Reaches settings job discovery request parsed) :
    (InLimits settings (namesWithin lib request parsed) →
        (storedAssets settings job discovery).map AttackSurfaceAsset.hostname =
          sortedSet (namesWithin lib request parsed)) ∧
      (¬ InLimits settings (namesWithin lib request parsed) →
        storedAssets settings job discovery = []) := by
  obtain ⟨remaining, hremaining, hrequest⟩ := h.request
  obtain ⟨text, hrun, hparsed⟩ := h.output
  have haccepted := Amass.accepted_of_validateInput hrequest
  have hmax : request.maxAssets = settings.maxDiscoveredAssets := haccepted.maxAssets.1
  have hroom : 0 ≤ request.maxAssets := by
    have hone := haccepted.maxAssets.2
    rw [haccepted.maxAssets.1]
    omega
  have hstored : storedAssets settings job discovery =
      keptAssets (enforceInventoryLimit settings
        (if (Amass.execute lib settings.adapter (job.request settings remaining)
            discovery.run).status = .success then
          { attackSurface := normalizeAmass lib job.scanId job.target []
              ((Amass.execute lib settings.adapter (job.request settings remaining)
                discovery.run).payload.getD [])
            observed := true }
        else {})) := by
    unfold storedAssets attackSurface
    rw [if_neg (by simp [h.enabled]), raiseIf, if_neg (not_not.mpr h.root)]
    change keptAssets (if settings.executableConfigured = false then _ else _) = _
    rw [if_neg (by simp [h.configured]), hremaining, h.status]
  have hexecute : Amass.execute lib settings.adapter (job.request settings remaining)
      discovery.run =
        if request.maxAssets < (namesWithin lib request parsed).length then
          { status := .failed }
        else
          { status := .success
            payload := some ((sortedSet (namesWithin lib request parsed)).filterMap
              (Amass.allSelected request (Amass.normalize lib parsed)).get?) } := by
    unfold Amass.execute
    rw [hrequest, hrun]
    dsimp only
    rw [hparsed]
    simp only [bind, Except.bind, Amass.applyScope_eq hroom]
    unfold namesWithin
    by_cases hfull : request.maxAssets <
        (Amass.coveredNames request (Amass.normalize lib parsed)).length
    · rw [if_pos hfull, if_pos hfull]
    · rw [if_neg hfull, if_neg hfull]
  have hroot := job.canonical_target
  have htarget : request.target = job.target :=
    Amass.eq_of_normalizeDomain hroot haccepted.target
  have hlength : job.target.length ≤ 253 :=
    htarget ▸ (Amass.normalizeDomain_ok haccepted.target).2.1
  have hnames : ((sortedSet (namesWithin lib request parsed)).filterMap
      (Amass.allSelected request (Amass.normalize lib parsed)).get?).map
        DiscoveredAsset.hostname = sortedSet (namesWithin lib request parsed) :=
    (Amass.payload_spec request (Amass.normalize lib parsed)).1
  have hrecords : ∀ asset ∈ (sortedSet (namesWithin lib request parsed)).filterMap
      (Amass.allSelected request (Amass.normalize lib parsed)).get?,
        ∃ record ∈ Amass.normalize lib parsed, asset = Amass.retyped request record :=
    (Amass.payload_spec request (Amass.normalize lib parsed)).2
  rw [hstored, hexecute]
  generalize (sortedSet (namesWithin lib request parsed)).filterMap
    (Amass.allSelected request (Amass.normalize lib parsed)).get? = payload at hnames hrecords
  have hassets : (normalizeAmass lib job.scanId job.target [] payload).map
      AttackSurfaceAsset.hostname = sortedSet (namesWithin lib request parsed) := by
    rw [← hnames]
    refine normalizeAmass_hostnames hroot hlength ?_ ?_ ?_ (fun _ _ => List.not_mem_nil)
    · intro asset hasset
      obtain ⟨record, hrecord, rfl⟩ := hrecords asset hasset
      have hstorable := Amass.storable_normalize record hrecord
      exact ⟨hstorable.canonical, hstorable.length, hstorable.name, hstorable.addresses,
        hstorable.few⟩
    · intro asset hasset
      have hname : asset.hostname ∈ namesWithin lib request parsed := by
        rw [← mem_sortedSet, ← hnames]
        exact List.mem_map_of_mem hasset
      obtain ⟨⟨allowed, hallowed, hwithin⟩, -⟩ := Amass.covers_of_mem hname
      rw [← htarget]
      exact within_iff.mpr ((within_iff.mp hwithin).trans
        (within_iff.mp (haccepted.scope allowed hallowed)))
    · rw [hnames]
      exact nodup_sortedSet _
  have hnodup : (namesWithin lib request parsed).Nodup := List.nodup_dedup _
  have hcount : (normalizeAmass lib job.scanId job.target [] payload).length =
      (namesWithin lib request parsed).length := by
    rw [← List.length_map AttackSurfaceAsset.hostname, hassets, sortedSet,
      List.length_insertionSort, hnodup.dedup]
  rw [hmax]
  by_cases hfits : settings.maxDiscoveredAssets < (namesWithin lib request parsed).length
  · rw [if_pos hfits, if_neg (by decide)]
    exact ⟨fun hlimits => absurd hlimits.1 (not_le.mpr hfits), fun _ => kept_empty settings⟩
  · rw [if_neg hfits]
    change (_ → (keptAssets (enforceInventoryLimit settings
      { attackSurface := normalizeAmass lib job.scanId job.target [] payload
        observed := true })).map _ = _) ∧ (_ → keptAssets (enforceInventoryLimit settings
      { attackSurface := normalizeAmass lib job.scanId job.target [] payload
        observed := true }) = _)
    rw [kept_enforceInventoryLimit]
    by_cases hmany : settings.maxInventoryRecords <
        (normalizeAmass lib job.scanId job.target [] payload).length
    · rw [if_pos hmany]
      rw [hcount] at hmany
      exact ⟨fun hlimits => absurd hlimits.2 (not_le.mpr hmany), fun _ => rfl⟩
    · rw [if_neg hmany]
      rw [hcount] at hmany
      exact ⟨fun _ => hassets, fun hnot => absurd ⟨not_lt.mp hfits, not_lt.mp hmany⟩ hnot⟩

/-- The names that a job stores are those within its request. -/
theorem mem_storedAssets {settings : DiscoverySettings} {job : AttackSurfaceJob lib}
    {discovery : Discovery} {name : String} :
    (∃ asset ∈ storedAssets settings job discovery, asset.hostname = name) ↔
      ∃ request parsed, Reaches settings job discovery request parsed ∧
        InLimits settings (namesWithin lib request parsed) ∧
          name ∈ namesWithin lib request parsed := by
  constructor
  · rintro ⟨asset, hasset, rfl⟩
    obtain ⟨request, parsed, hreaches⟩ := reaches_of_stored hasset
    obtain ⟨hin, hout⟩ := storedAssets_of_reaches hreaches
    by_cases hlimits : InLimits settings (namesWithin lib request parsed)
    · refine ⟨request, parsed, hreaches, hlimits, ?_⟩
      rw [← mem_sortedSet, ← hin hlimits]
      exact List.mem_map_of_mem hasset
    · rw [hout hlimits] at hasset
      cases hasset
  · rintro ⟨request, parsed, hreaches, hlimits, hname⟩
    rw [← mem_sortedSet, ← (storedAssets_of_reaches hreaches).1 hlimits] at hname
    exact List.mem_map.mp hname

/-- Exclusions within the target are part of the request. -/
theorem excluded_of_reaches {settings : DiscoverySettings} {job : AttackSurfaceJob lib}
    {discovery : Discovery} {request : AmassRequest} {parsed : List JsonObject}
    (h : Reaches settings job discovery request parsed) {denied : String}
    (hdenied : denied ∈ job.authorization.excludedDomains) (hwithin : Within denied job.target) :
    denied ∈ request.exclusions := by
  obtain ⟨remaining, -, hrequest⟩ := h.request
  have haccepted := Amass.accepted_of_validateInput hrequest
  have hrequested : denied ∈ job.requestedExclusions := by
    rw [AttackSurfaceJob.requestedExclusions, mem_sortedSet, List.mem_append, List.mem_filter]
    exact Or.inl ⟨hdenied, by simpa using hwithin⟩
  obtain ⟨domain, hdomain, hnormal⟩ :=
    (Amass.mem_distinctDomains haccepted.exclusions).1 denied hrequested
  obtain ⟨values, hvalues⟩ := job.authorization.excluded_normalized
  have hcanonical := canonical_of_normalizeDomains hvalues denied hdenied
  rwa [Amass.eq_of_normalizeDomain hcanonical hnormal] at hdomain

/-- A stored name is authorized as soon as subdomains are, or it is listed. -/
theorem allowsDomain_stored {settings : DiscoverySettings} {job : AttackSurfaceJob lib}
    {discovery : Discovery} {request : AmassRequest} {parsed : List JsonObject} {name : String}
    (h : Reaches settings job discovery request parsed)
    (hname : name ∈ namesWithin lib request parsed) :
    job.authorization.allowsDomain name = .ok true ↔
      job.authorization.allowSubdomains = true ∨ name ∈ job.authorization.allowedDomains := by
  obtain ⟨remaining, -, hrequest⟩ := h.request
  have haccepted := Amass.accepted_of_validateInput hrequest
  have htarget : request.target = job.target :=
    Amass.eq_of_normalizeDomain job.canonical_target haccepted.target
  obtain ⟨⟨allowed, hallowed, hwithin⟩, hexcluded⟩ := Amass.covers_of_mem hname
  have hunder : Within name job.target := by
    rw [← htarget]
    exact within_iff.mpr ((within_iff.mp hwithin).trans
      (within_iff.mp (haccepted.scope allowed hallowed)))
  have hstorable : Canonical name ∧ name.length ≤ 253 := by
    rw [namesWithin, Amass.coveredNames, List.mem_dedup] at hname
    obtain ⟨asset, hasset, rfl⟩ := List.mem_map.mp hname
    have hstorable := Amass.storable_normalize asset (List.mem_filter.mp hasset).1
    exact ⟨hstorable.canonical, hstorable.length⟩
  refine job.allowsDomain_iff hstorable.1 hstorable.2 hunder fun denied hdenied hbelow hcovered => ?_
  exact hexcluded ⟨denied, excluded_of_reaches h hdenied hbelow, hcovered⟩

/--
Every name that a job stores is authorized exactly when the job extends to subdomains, or all
names that the tool reports within the request are listed in the authorization.
-/
theorem discovery_authorized_iff (settings : DiscoverySettings) (job : AttackSurfaceJob lib)
    (discovery : Discovery) :
    (∀ asset ∈ storedAssets settings job discovery,
        job.authorization.allowsDomain asset.hostname = .ok true) ↔
      job.authorization.allowSubdomains = true ∨
        ∀ request parsed, Reaches settings job discovery request parsed →
          InLimits settings (namesWithin lib request parsed) →
            ∀ name ∈ namesWithin lib request parsed, name ∈ job.authorization.allowedDomains := by
  constructor
  · intro hall
    by_cases hsubdomains : job.authorization.allowSubdomains = true
    · exact Or.inl hsubdomains
    · refine Or.inr fun request parsed hreaches hlimits name hname => ?_
      obtain ⟨asset, hasset, rfl⟩ := mem_storedAssets.mpr ⟨request, parsed, hreaches, hlimits, hname⟩
      exact ((allowsDomain_stored hreaches hname).mp (hall asset hasset)).resolve_left hsubdomains
  · intro hcondition asset hasset
    obtain ⟨request, parsed, hreaches, hlimits, hname⟩ := mem_storedAssets.mp ⟨asset, hasset, rfl⟩
    refine (allowsDomain_stored hreaches hname).mpr ?_
    obtain hsubdomains | hlisted := hcondition
    · exact Or.inl hsubdomains
    · exact Or.inr (hlisted request parsed hreaches hlimits _ hname)

end

/-! ## A job without subdomains -/

/-- A library for names in ASCII, before a tool that writes plain names. -/
def sampleNames : NameLibrary where
  idna text := some text
  idna_ascii _ _ _ := rfl
  lower text := String.ofList (text.toList.map Char.toLower)
  lower_ascii _ _ := rfl
  casefold text := String.ofList (text.toList.map Char.toLower)
  casefold_ascii _ _ := rfl
  ipAddress _ := none
  ipAddress_idem _ _ h := h
  extract _ := ⟨"example", "com", "example.com"⟩
  loads _ := .error .decode

/-- `example.com`, without its subdomains. -/
def exactJob : AttackSurfaceJob sampleNames where
  scanId := "scan-1"
  target := "example.com"
  authorization :=
    { scopeId := "scope-1"
      authorized := true
      allowedDomains := ["example.com"]
      excludedDomains := []
      allowSubdomains := false
      allowed_normalized := ⟨["example.com"], by decide +kernel⟩
      excluded_normalized := ⟨[], rfl⟩
      no_overlap := by simp }
  authorized := rfl
  target_normalized := ⟨"example.com", by decide +kernel⟩
  target_allowed := by decide +kernel
  scope_allowed := ⟨[], rfl⟩
  exclusions_allowed := ⟨[], rfl⟩

def exactSettings : DiscoverySettings where
  enabled := true
  authorizedDomains := ["example.com"]
  executableConfigured := true
  maxInventoryRecords := 1000
  maxToolOutputBytes := 1024

/-- The tool reports a subdomain, which is stored without being authorized. -/
theorem unauthorized_subdomain_stored :
    ¬ ∀ (lib : NameLibrary) (settings : DiscoverySettings) (job : AttackSurfaceJob lib)
      (discovery : Discovery), ∀ asset ∈ storedAssets settings job discovery,
        job.authorization.allowsDomain asset.hostname = .ok true := by
  intro h
  have hall := h sampleNames exactSettings exactJob
    { remaining := some 60, run := .output "api.example.com" }
  have hsome : ∃ asset ∈ storedAssets exactSettings exactJob
      { remaining := some 60, run := .output "api.example.com" },
        exactJob.authorization.allowsDomain asset.hostname = .ok false := by
    refine ⟨⟨"scan-1", "api.example.com", .subdomain, "example.com", []⟩, ?_, ?_⟩
    · decide +kernel
    · decide +kernel
  obtain ⟨asset, hasset, hfalse⟩ := hsome
  have htrue := hall asset hasset
  rw [hfalse] at htrue
  cases htrue

end OsScanner.Endpoint

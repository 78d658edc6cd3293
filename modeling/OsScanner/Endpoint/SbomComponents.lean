import Mathlib
import OsScanner.Endpoint.SbomLimits
import OsScanner.Lib.CalendarDate

/-!
# The components of the SBOM

`build_cyclonedx_sbom` folds the records of the inventory into a dictionary and sorts it. What comes
out depends on the records as a collection, not on their order: one component for each identity, with
the earliest date that is known of its records.
-/

namespace OsScanner.Endpoint

open Lib Security Cloud

/-! ## The earliest date -/

/-- The earliest of the dates that are known. -/
def IsEarliest (dates : List (Option String)) : Option String → Prop
  | none => ∀ date ∈ dates, date = none
  | some date => some date ∈ dates ∧ ∀ other, some other ∈ dates → date ≤ other

theorem isEarliest_congr {dates dates' : List (Option String)} (h : ∀ date, date ∈ dates ↔ date ∈ dates')
    {date : Option String} : IsEarliest dates date ↔ IsEarliest dates' date := by
  cases date with
  | none => simp only [IsEarliest, h]
  | some date => simp only [IsEarliest, h]

theorem IsEarliest.unique {dates : List (Option String)} {a b : Option String}
    (ha : IsEarliest dates a) (hb : IsEarliest dates b) : a = b := by
  cases a with
  | none =>
    cases b with
    | none => rfl
    | some b => cases ha _ hb.1
  | some a =>
    cases b with
    | none => cases hb _ ha.1
    | some b => rw [le_antisymm (ha.2 b hb.1) (hb.2 a ha.1)]

/-- One more record. -/
theorem IsEarliest.append {dates : List (Option String)} {previous : Option String}
    (h : IsEarliest dates previous) (date : Option String) :
    IsEarliest (dates ++ [date]) (if isEarlier date previous then date else previous) := by
  cases date with
  | none =>
    rw [if_neg (by simp [isEarlier])]
    cases previous with
    | none =>
      intro other hother
      rcases List.mem_append.mp hother with hother | hother
      · exact h other hother
      · exact List.mem_singleton.mp hother
    | some previous =>
      refine ⟨List.mem_append_left _ h.1, fun other hother => ?_⟩
      rcases List.mem_append.mp hother with hother | hother
      · exact h.2 other hother
      · cases List.mem_singleton.mp hother
  | some date =>
    cases previous with
    | none =>
      rw [if_pos (by rfl)]
      refine ⟨List.mem_append_right _ List.mem_cons_self, fun other hother => ?_⟩
      rcases List.mem_append.mp hother with hother | hother
      · cases h _ hother
      · cases List.mem_singleton.mp hother
        exact le_rfl
    | some previous =>
      by_cases hlt : date < previous
      · rw [if_pos (by simpa [isEarlier] using hlt)]
        refine ⟨List.mem_append_right _ List.mem_cons_self, fun other hother => ?_⟩
        rcases List.mem_append.mp hother with hother | hother
        · exact hlt.le.trans (h.2 other hother)
        · cases List.mem_singleton.mp hother
          exact le_rfl
      · rw [if_neg (by simpa [isEarlier] using hlt)]
        refine ⟨List.mem_append_left _ h.1, fun other hother => ?_⟩
        rcases List.mem_append.mp hother with hother | hother
        · exact h.2 other hother
        · cases List.mem_singleton.mp hother
          exact not_lt.mp hlt

section

variable {rt : Runtime} {text : SbomText}

/-! ## The dictionary -/

/-- The dates of the records with this identity. -/
def datesOf (text : SbomText) (software : List Software) (identity : SoftwareIdentity) :
    List (Option String) :=
  (software.filter fun s => softwareIdentity text s = identity).map (·.installationDate)

/-- The dictionary has the identities of these records, each with its earliest date. -/
def Collects (text : SbomText) (software : List Software)
    (records : Dict SoftwareIdentity (Option String)) : Prop :=
  ∀ identity date, records.get? identity = some date ↔
    (∃ s ∈ software, softwareIdentity text s = identity) ∧
      IsEarliest (datesOf text software identity) date

theorem datesOf_append_self (software : List Software) (s : Software) :
    datesOf text (software ++ [s]) (softwareIdentity text s) =
      datesOf text software (softwareIdentity text s) ++ [s.installationDate] := by
  simp [datesOf]

theorem datesOf_append_ne {identity : SoftwareIdentity} {s : Software}
    (h : softwareIdentity text s ≠ identity) (software : List Software) :
    datesOf text (software ++ [s]) identity = datesOf text software identity := by
  simp [datesOf, h]

theorem exists_isEarliest (dates : List (Option String)) : ∃ date, IsEarliest dates date := by
  induction dates using List.reverseRecOn with
  | nil => exact ⟨none, fun _ h => by cases h⟩
  | append_singleton dates date ih =>
    obtain ⟨previous, hprevious⟩ := ih
    exact ⟨_, hprevious.append date⟩

/-- What the dictionary says of an identity is the earliest date so far. -/
theorem Collects.isEarliest {software : List Software}
    {records : Dict SoftwareIdentity (Option String)} (h : Collects text software records)
    (identity : SoftwareIdentity) :
    IsEarliest (datesOf text software identity) (records.get? identity).join := by
  cases hget : records.get? identity with
  | some date => exact ((h identity date).mp hget).2
  | none =>
    -- no record has the identity yet
    intro date hdate
    obtain ⟨s, hs, -⟩ := List.mem_map.mp hdate
    obtain ⟨hmem, hidentity⟩ := List.mem_filter.mp hs
    obtain ⟨earliest, hearliest⟩ := exists_isEarliest (datesOf text software identity)
    have hsome := (h identity earliest).mpr ⟨⟨s, hmem, by simpa using hidentity⟩, hearliest⟩
    rw [hget] at hsome
    cases hsome

theorem get?_addRecord_eq (records : Dict SoftwareIdentity (Option String)) (s : Software)
    (identity : SoftwareIdentity) : (addRecord text records s).get? identity =
      if softwareIdentity text s = identity then
        some (if isEarlier s.installationDate (records.get? identity).join then s.installationDate
          else (records.get? identity).join)
      else records.get? identity := by
  rw [addRecord]
  by_cases hidentity : softwareIdentity text s = identity
  · subst hidentity
    rw [if_pos rfl]
    cases hget : records.get? (softwareIdentity text s) with
    | none =>
      dsimp only
      rw [Dict.get?_set_self]
      cases s.installationDate <;> rfl
    | some previous =>
      dsimp only [Option.join_some]
      split
      · rw [Dict.get?_set_self]
      · exact hget
  · rw [if_neg hidentity]
    cases hget : records.get? (softwareIdentity text s) with
    | none => exact Dict.get?_set_ne hidentity _ _
    | some previous =>
      dsimp only
      split
      · exact Dict.get?_set_ne hidentity _ _
      · rfl

theorem Collects.addRecord {software : List Software} {records : Dict SoftwareIdentity (Option String)}
    (h : Collects text software records) (s : Software) :
    Collects text (software ++ [s]) (addRecord text records s) := by
  intro identity date
  rw [get?_addRecord_eq]
  split
  · next hidentity =>
    subst hidentity
    have hnext := (h.isEarliest (softwareIdentity text s)).append s.installationDate
    rw [datesOf_append_self, Option.some.injEq]
    constructor
    · rintro rfl
      exact ⟨⟨s, by simp, rfl⟩, hnext⟩
    · rintro ⟨-, hdate⟩
      exact hnext.unique hdate
  · next hidentity =>
    rw [datesOf_append_ne hidentity, h]
    refine and_congr_left fun _ => ?_
    constructor
    · rintro ⟨t, ht, htidentity⟩
      exact ⟨t, List.mem_append_left _ ht, htidentity⟩
    · rintro ⟨t, ht, htidentity⟩
      rcases List.mem_append.mp ht with ht | ht
      · exact ⟨t, ht, htidentity⟩
      · rw [List.mem_singleton.mp ht] at htidentity
        exact absurd htidentity hidentity

theorem collects_softwareRecords (software : List Software) :
    Collects text software (softwareRecords text software) := by
  induction software using List.reverseRecOn with
  | nil =>
    intro identity date
    constructor
    · intro h
      cases h
    · rintro ⟨⟨s, hs, -⟩, -⟩
      cases hs
  | append_singleton software s ih =>
    rw [softwareRecords, List.foldl_append]
    exact ih.addRecord s

/-! ## The order of the components -/

theorem parts_injective {a b : SoftwareIdentity} (h : a.parts = b.parts) : a = b := by
  obtain ⟨⟩ := a
  obtain ⟨⟩ := b
  simpa [SoftwareIdentity.parts] using h

theorem sortKey_injective {a b : SoftwareIdentity} (h : sortKey rt a = sortKey rt b) : a = b :=
  parts_injective (List.append_inj h rfl).2

/-- Two dictionaries that say the same are sorted into the same list. -/
theorem sorted_eq_of_get? {a b : Dict SoftwareIdentity (Option String)}
    (h : ∀ identity, a.get? identity = b.get? identity) :
    a.entries.insertionSort (fun x y => sortKey rt x.1 ≤ sortKey rt y.1) =
      b.entries.insertionSort (fun x y => sortKey rt x.1 ≤ sortKey rt y.1) := by
  have hmem : ∀ e, e ∈ a.entries ↔ e ∈ b.entries := by
    rintro ⟨identity, date⟩
    rw [Dict.mem_entries_iff, Dict.mem_entries_iff, h]
  have hperm : a.entries.Perm b.entries :=
    (List.perm_ext_iff_of_nodup (List.Nodup.of_map _ a.nodup) (List.Nodup.of_map _ b.nodup)).mpr hmem
  let le : SoftwareIdentity × Option String → SoftwareIdentity × Option String → Prop :=
    fun x y => sortKey rt x.1 ≤ sortKey rt y.1
  have htotal : Std.Total le := ⟨fun x y => le_total (sortKey rt x.1) (sortKey rt y.1)⟩
  have htrans : IsTrans _ le := ⟨fun x y z => @le_trans _ _ (sortKey rt x.1) (sortKey rt y.1) _⟩
  refine List.Perm.eq_of_pairwise ?_ (List.pairwise_insertionSort le a.entries)
    (List.pairwise_insertionSort le b.entries)
    (((List.perm_insertionSort _ _).trans hperm).trans (List.perm_insertionSort _ _).symm)
  intro x y hx hy hxy hyx
  -- no identity has two entries
  have hidentity : x.1 = y.1 := sortKey_injective (le_antisymm hxy hyx)
  have hx' : b.get? x.1 = some x.2 :=
    Dict.mem_entries_iff.mp ((hmem x).mp ((List.mem_insertionSort _).mp hx))
  have hy' : b.get? y.1 = some y.2 := Dict.mem_entries_iff.mp ((List.mem_insertionSort _).mp hy)
  rw [hidentity, hy'] at hx'
  exact Prod.ext hidentity (Option.some.inj hx').symm

/-- The order of the inventory does not matter. -/
theorem sortedRecords_of_perm {result result' : ScanResult}
    (h : result.software.Perm result'.software) :
    sortedRecords rt text result = sortedRecords rt text result' := by
  refine sorted_eq_of_get? fun identity => ?_
  have hdates : ∀ date, date ∈ datesOf text result.software identity ↔
      date ∈ datesOf text result'.software identity := fun date =>
    ((h.filter _).map _).mem_iff
  ext date
  rw [collects_softwareRecords result.software identity date,
    collects_softwareRecords result'.software identity date, isEarliest_congr hdates]
  refine and_congr_left fun _ => exists_congr fun s => ?_
  rw [h.mem_iff]

/-! ## What the redaction leaves -/

/-- The names of the properties of a component. -/
def propertyNames : List String :=
  ["com.endpoint-scanner.package-manager", "com.endpoint-scanner.architecture",
    "com.endpoint-scanner.inventory-source", "com.endpoint-scanner.installation-date"]

theorem redactText_propertyNames (isWord : Char → Bool) :
    ∀ name ∈ propertyNames, redactText isWord name = name := by
  intro name hname
  simp only [propertyNames, List.mem_cons, List.not_mem_nil, or_false] at hname
  rcases hname with rfl | rfl | rfl | rfl
  · refine redactText_of_quiet _ (by decide) ?_
    simp only [textRules, List.forall_mem_cons]
    exact ⟨rfl, rfl, rfl, rfl, rfl, rfl, rfl, rfl, List.forall_mem_nil _⟩
  · refine redactText_of_quiet _ (by decide) ?_
    simp only [textRules, List.forall_mem_cons]
    exact ⟨rfl, rfl, rfl, rfl, rfl, rfl, rfl, rfl, List.forall_mem_nil _⟩
  · refine redactText_of_quiet _ (by decide) ?_
    simp only [textRules, List.forall_mem_cons]
    exact ⟨rfl, rfl, rfl, rfl, rfl, rfl, rfl, rfl, List.forall_mem_nil _⟩
  · refine redactText_of_quiet _ (by decide) ?_
    simp only [textRules, List.forall_mem_cons]
    exact ⟨rfl, rfl, rfl, rfl, rfl, rfl, rfl, rfl, List.forall_mem_nil _⟩

/-- The redaction of a property hides neither its name nor its value. -/
theorem redactTree_property {name value : String} (hname : name ∈ propertyNames) :
    redactTree rt text.isWord false (.obj [("name", .str name), ("value", .str value)]) =
      .obj [("name", .str name), ("value", .str (redactText text.isWord value))] := by
  have hkeys : isSensitiveKey "name" = false ∧ isSensitiveKey "value" = false := by decide +kernel
  simp only [redactTree, redactFields, not_hides hkeys.1, not_hides hkeys.2, Bool.false_eq_true, if_false,
    redactText_propertyNames text.isWord name hname]

/-- The value of the property that has this name. -/
def propertyValue (name : String) : Json → Option Json
  | .obj fields =>
    if JsonObject.get fields "name" = .str name then some (JsonObject.get fields "value") else none
  | _ => none

/-- The installation date in a component. -/
def componentDate (component : JsonObject) : Option Json :=
  match component.get "properties" with
  | .arr items => items.findSome? (propertyValue "com.endpoint-scanner.installation-date")
  | _ => none

theorem get_component_properties (identity : SoftwareIdentity) (date : Option String) :
    Assoc.lookup "properties" (component rt identity date) =
      if componentProperties identity date = [] then none
      else some (.arr (componentProperties identity date)) := by
  have hversion : ∀ (b : Prop) [Decidable b] (fields : JsonObject),
      Assoc.lookup "properties" fields = none →
        Assoc.lookup "properties" (if b then [] else fields) = none := by
    intro b _ fields h
    split
    · rfl
    · exact h
  have hpurl : Assoc.lookup "properties"
      ((packageUrl rt identity).toList.map fun purl => ("purl", Json.str purl)) = none := by
    cases packageUrl rt identity <;> rfl
  have hfirst : ∀ kind : String, Assoc.lookup "properties"
      [("bom-ref", Json.str (componentReference rt identity)), ("type", .str kind),
        ("name", .str identity.name)] = none := fun _ => rfl
  rw [component, Assoc.lookup_append, Assoc.lookup_append, Assoc.lookup_append, Assoc.lookup_append,
    hfirst, hversion _ _ rfl, hversion _ _ rfl, hpurl, Option.none_or, Option.none_or, Option.none_or,
    Option.none_or]
  by_cases hnil : componentProperties identity date = []
  · rw [if_pos hnil, if_pos hnil]
    rfl
  · rw [if_neg hnil, if_neg hnil]
    rfl

/-- Among properties the redaction leaves one with this name, if it has a value. -/
theorem findSome?_properties {name : String} {properties : List (String × Option String)}
    (hnames : ∀ p ∈ properties, p.1 ∈ propertyNames) :
    (redactItems rt text.isWord ((properties.map fun p => property p.1 p.2).filterMap id)).findSome?
        (propertyValue name) =
      properties.findSome? fun p =>
        if p.1 = name then p.2.map fun value => .str (redactText text.isWord value) else none := by
  induction properties with
  | nil => rfl
  | cons p properties ih =>
    obtain ⟨key, value⟩ := p
    have hlater := ih fun p hp => hnames p (List.mem_cons_of_mem _ hp)
    rw [List.map_cons, List.findSome?_cons]
    cases value with
    | none =>
      rw [List.filterMap_cons_none (by rfl), hlater]
      simp
    | some value =>
      have hitem := @redactTree_property rt text key value (hnames _ List.mem_cons_self)
      rw [List.filterMap_cons_some (b := .obj [("name", .str key), ("value", .str value)]) (by rfl),
        redactItems, hitem, List.findSome?_cons, hlater]
      have hvalue : propertyValue name (.obj [("name", .str key),
          ("value", .str (redactText text.isWord value))]) =
            if key = name then some (.str (redactText text.isWord value)) else none := by
        by_cases hkey : key = name
        · subst hkey
          rw [if_pos rfl]
          exact if_pos rfl
        · rw [if_neg hkey]
          refine if_neg fun h => hkey ?_
          exact Json.str.inj h
      rw [hvalue]
      rfl

/-- The date of a component after its redaction, when the text of the date contains nothing else. -/
theorem componentDate_redactFields (identity : SoftwareIdentity) {date : Option String}
    (hdate : ∀ d ∈ date, redactText text.isWord d = d) :
    componentDate (redactFields rt text.isWord (component rt identity date)) = date.map .str := by
  have hkey : isSensitiveKey "properties" = false := by decide +kernel
  rw [componentDate, JsonObject.get, lookup_redactFields, get_component_properties]
  by_cases hnil : componentProperties identity date = []
  · -- without properties there is no date either
    rw [if_pos hnil]
    have hdate' : date = none := by
      cases date with
      | none => rfl
      | some d => simp [componentProperties, property] at hnil
    rw [hdate']
    rfl
  · rw [if_neg hnil, Option.map_some, not_hides hkey, redactTree, if_neg Bool.false_ne_true]
    have hfind := @findSome?_properties rt text "com.endpoint-scanner.installation-date"
      [("com.endpoint-scanner.package-manager", noneIfEmpty identity.packageManager),
        ("com.endpoint-scanner.architecture", noneIfEmpty identity.architecture),
        ("com.endpoint-scanner.inventory-source", noneIfEmpty identity.source),
        ("com.endpoint-scanner.installation-date", date)] (by
          simp [propertyNames])
    refine Eq.trans hfind ?_
    cases date with
    | none => rfl
    | some d =>
      show some (Json.str (redactText text.isWord d)) = some (.str d)
      rw [hdate d rfl]

/-- The reference of a component after its redaction. -/
theorem reference_redactFields (identity : SoftwareIdentity) (date : Option String) :
    (redactFields rt text.isWord (component rt identity date)).get "bom-ref" =
      .str (componentReference rt identity) := by
  have hkey : isSensitiveKey "bom-ref" = false := by decide +kernel
  have hreference : redactText text.isWord (componentReference rt identity) =
      componentReference rt identity := redactText_reference text.isWord (rt.hashText_digest _)
  have hlookup : Assoc.lookup "bom-ref" (component rt identity date) =
      some (.str (componentReference rt identity)) := rfl
  rw [JsonObject.get, lookup_redactFields, hlookup, Option.map_some, not_hides hkey, redactTree,
    if_neg Bool.false_ne_true, hreference]
  rfl

/-! ## The component list -/

/-- The text that the reference of an identity is the digest of. -/
def identityText (rt : Runtime) (identity : SoftwareIdentity) : String :=
  Json.canonicalJson rt (.arr (identity.parts.map .str))

theorem identityText_injective {a b : SoftwareIdentity} (h : identityText rt a = identityText rt b) :
    a = b := by
  have hsorted : ∀ parts : List String,
      Json.sortKeys (.arr (parts.map .str)) = .arr (parts.map .str) := by
    intro parts
    rw [Json.sortKeys, Json.sortItems_eq, List.map_map]
    rfl
  rw [identityText, identityText, Json.canonicalJson_eq_iff, hsorted, hsorted] at h
  have hparts : a.parts = b.parts :=
    List.map_injective_iff.mpr (fun _ _ => Json.str.inj) (Json.arr.inj h)
  exact parts_injective hparts

/-- The date of a component is the earliest one that is known of the records with the identity. -/
def HasEarliestDate (text : SbomText) (software : List Software) (identity : SoftwareIdentity) :
    Option Json → Prop
  | none => ∀ s ∈ software, softwareIdentity text s = identity → s.installationDate = none
  | some value => ∃ date : CalendarDate, value = .str date.isoformat ∧
    (∃ s ∈ software, softwareIdentity text s = identity ∧ s.installationDate = some date.isoformat) ∧
    ∀ s ∈ software, softwareIdentity text s = identity → ∀ other : CalendarDate,
      s.installationDate = some other.isoformat → date.Le other

/-- The component of an identity. -/
structure IsComponent (rt : Runtime) (text : SbomText) (software : List Software)
    (identity : SoftwareIdentity) (shown : JsonObject) : Prop where
  content : ∃ date, shown = redactFields rt text.isWord (component rt identity date)
  reference : shown.get "bom-ref" = .str ("software:" ++ rt.hashText (identityText rt identity))
  date : HasEarliestDate text software identity (componentDate shown)

/-- The installation dates are dates. -/
def IsDated (software : List Software) : Prop :=
  ∀ s ∈ software, ∀ text ∈ s.installationDate, ∃ date : CalendarDate, date.isoformat = text

theorem mem_datesOf {software : List Software} {identity : SoftwareIdentity} {date : Option String} :
    date ∈ datesOf text software identity ↔
      ∃ s ∈ software, softwareIdentity text s = identity ∧ s.installationDate = date := by
  simp only [datesOf, List.mem_map, List.mem_filter, decide_eq_true_eq]
  constructor
  · rintro ⟨s, ⟨hs, hidentity⟩, hdate⟩
    exact ⟨s, hs, hidentity, hdate⟩
  · rintro ⟨s, hs, hidentity, hdate⟩
    exact ⟨s, ⟨hs, hidentity⟩, hdate⟩

theorem isComponent_of_isEarliest {software : List Software} (hdated : IsDated software)
    {identity : SoftwareIdentity} {date : Option String}
    (h : IsEarliest (datesOf text software identity) date) :
    IsComponent rt text software identity
      (redactFields rt text.isWord (component rt identity date)) := by
  refine ⟨⟨date, rfl⟩, reference_redactFields identity date, ?_⟩
  cases date with
  | none =>
    rw [componentDate_redactFields identity fun _ h => by cases h]
    intro s hs hidentity
    exact h _ (mem_datesOf.mpr ⟨s, hs, hidentity, rfl⟩)
  | some d =>
    obtain ⟨s, hs, hidentity, hdate⟩ := mem_datesOf.mp h.1
    obtain ⟨date, rfl⟩ := hdated s hs d hdate
    have hshown : redactText text.isWord date.isoformat = date.isoformat := by
      refine @redactText_of_starved text.isWord "0123456789-".toList _ _ ?_ ?_ fun c hc =>
        CalendarDate.mem_isoformat hc
      · rw [CalendarDate.length_isoformat]
        omega
      · simp only [textRules, List.forall_mem_cons]
        exact ⟨rfl, rfl, rfl, rfl, rfl, rfl, rfl, rfl, List.forall_mem_nil _⟩
    rw [componentDate_redactFields identity fun d hd => by cases hd; exact hshown]
    refine ⟨date, rfl, ⟨s, hs, hidentity, hdate⟩, fun t ht htidentity other hother => ?_⟩
    rw [← CalendarDate.isoformat_le_iff]
    exact h.2 _ (mem_datesOf.mpr ⟨t, ht, htidentity, hother⟩)

theorem get_components (result : ScanResult) (endpointId : String) :
    JsonObject.get (redactedSbom rt text result endpointId) "components" =
      .arr ((sortedRecords rt text result).map fun record =>
        .obj (redactFields rt text.isWord (component rt record.1 record.2))) := by
  have hframe : Assoc.lookup "components"
      (redactFields rt text.isWord (sbomFrame rt text result endpointId)) = none := by
    rw [lookup_redactFields]
    rfl
  rw [redactedSbom_eq, JsonObject.get, Assoc.lookup_append, hframe, Option.none_or,
    Assoc.lookup_cons_self, redactItems_eq, components, List.map_map]
  show Json.arr _ = Json.arr _
  refine congrArg Json.arr (List.map_congr_left fun record _ => ?_)
  show redactTree rt text.isWord false (.obj (component rt record.1 record.2)) = _
  rw [redactTree, if_neg Bool.false_ne_true]

/--
The components of the SBOM are those of the distinct identities of the inventory, one for each, with the
earliest installation date that is known; and the records in another order make the same document.
-/
theorem sbom_components_canonical (rt : Runtime) (text : SbomText) (result : ScanResult)
    (maxComponents : Nat) (sbom : JsonObject) (hdated : IsDated result.software)
    (h : buildCyclonedxSbom rt text result maxComponents = .ok sbom) :
    (∀ software, result.software.Perm software →
      buildCyclonedxSbom rt text { result with software := software } maxComponents = .ok sbom) ∧
    ∃ identities : List SoftwareIdentity,
      (∀ identity, identity ∈ identities ↔
        ∃ s ∈ result.software, softwareIdentity text s = identity) ∧
      identities.Nodup ∧ (identities.map (identityText rt)).Nodup ∧
      ∃ shown : List JsonObject, sbom.get "components" = .arr (shown.map .obj) ∧
        List.Forall₂ (IsComponent rt text result.software) identities shown := by
  obtain ⟨hmaximum, hlength, endpointId, hendpoint, rfl⟩ := buildCyclonedxSbom_eq_ok.mp h
  refine ⟨fun software hperm => ?_, (sortedRecords rt text result).map Prod.fst, fun identity => ?_,
    nodup_sortedRecords result, ?_, (sortedRecords rt text result).map fun record =>
      redactFields rt text.isWord (component rt record.1 record.2), ?_, ?_⟩
  · refine buildCyclonedxSbom_eq_ok.mpr ⟨hmaximum, ?_, endpointId, hendpoint, ?_⟩
    · rw [← hperm.length_eq]
      exact hlength
    · have hsorted : sortedRecords rt text { result with software := software } =
          sortedRecords rt text result := (sortedRecords_of_perm hperm).symm
      have hcomponents : components rt text { result with software := software } =
          components rt text result := by
        rw [components, hsorted, components]
      rw [redactedSbom, sbomDocument, ← hcomponents]
      rfl
  · rw [mem_sortedRecords, List.mem_map]
  · exact (nodup_sortedRecords result).map fun _ _ => identityText_injective
  · rw [get_components, List.map_map]
    rfl
  · rw [List.forall₂_map_left_iff, List.forall₂_map_right_iff, List.forall₂_same]
    intro record hrecord
    refine isComponent_of_isEarliest hdated ?_
    have hget : (softwareRecords text result.software).get? record.1 = some record.2 :=
      Dict.mem_entries_iff.mp ((List.mem_insertionSort _).mp hrecord)
    exact ((collects_softwareRecords result.software record.1 record.2).mp hget).2

end

/-! ## Two records of one program -/

/-- Two dates on which the program was installed. -/
def editorDates : List CalendarDate :=
  [⟨2024, 3, 1, by decide, by decide, by decide⟩, ⟨2023, 12, 31, by decide, by decide, by decide⟩]

/-- The records of the program with these dates, and one without. -/
def editorResult : ScanResult where
  scanId := "scan-1"
  endpointId := some "endpoint-1"
  scanType := .full
  timestamp := seconds 1700000000
  status := .success
  software := { name := "editor" } :: editorDates.map fun date =>
    { name := "editor", installationDate := some date.isoformat }

theorem sbom_components_canonical_editor :
    let sbom := redactedSbom Runtime.sample sampleSbomText editorResult
      (sbomEndpointId sampleSbomText "endpoint-1")
    (∀ software, editorResult.software.Perm software →
      buildCyclonedxSbom Runtime.sample sampleSbomText { editorResult with software := software } =
        .ok sbom) ∧
    ∃ identities : List SoftwareIdentity,
      (∀ identity, identity ∈ identities ↔
        ∃ s ∈ editorResult.software, softwareIdentity sampleSbomText s = identity) ∧
      identities.Nodup ∧ (identities.map (identityText Runtime.sample)).Nodup ∧
      ∃ shown : List JsonObject, sbom.get "components" = .arr (shown.map .obj) ∧
        List.Forall₂ (IsComponent Runtime.sample sampleSbomText editorResult.software) identities
          shown := by
  refine sbom_components_canonical Runtime.sample sampleSbomText editorResult defaultMaxComponents _ ?_
    (buildCyclonedxSbom_eq_ok.mpr ⟨by decide, by decide, "endpoint-1", rfl, rfl⟩)
  intro s hs text htext
  rcases List.mem_cons.mp hs with rfl | hs
  · cases htext
  · obtain ⟨date, -, rfl⟩ := List.mem_map.mp hs
    cases htext
    exact ⟨date, rfl⟩

end OsScanner.Endpoint

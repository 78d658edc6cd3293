import Mathlib
import OsScanner.Normalization.Vulnerabilities

/-!
# The groups of a merge

Two records are linked when they are about one package and have an identifier in common. The
groups are the connected components of this relation, whatever the order of the records and of
the sets. What a group is merged into is determined by the records that it consists of: merging
the results of two merges comes to the same as merging all records at once.
-/

namespace OsScanner.Normalization

open Lib Cloud Relation

variable {rt : Runtime}

/-! ## Linked records -/

/-- The records are about one package and have an identifier in common. -/
def Linked (rt : Runtime) (r s : Vulnerability) : Prop :=
  packageKey rt r = packageKey rt s ∧ ∃ k, k ∈ identifiers rt r ∧ k ∈ identifiers rt s

theorem Linked.refl (r : Vulnerability) : Linked rt r r :=
  ⟨rfl, _, Finset.mem_image_of_mem _ (vulnerabilityId_mem_names r),
    Finset.mem_image_of_mem _ (vulnerabilityId_mem_names r)⟩

/-- The records at two positions are linked. -/
def LinkedAt (rt : Runtime) (records : List Vulnerability) (i j : Nat) : Prop :=
  ∃ r s, records[i]? = some r ∧ records[j]? = some s ∧ Linked rt r s

/-- A chain of records, each linked with the next. -/
def Chain (rt : Runtime) (records : List Vulnerability) : Nat → Nat → Prop :=
  EqvGen (LinkedAt rt records)

/-- The same for the records themselves. -/
def ConnectedIn (rt : Runtime) (records : List Vulnerability) : Vulnerability → Vulnerability → Prop :=
  EqvGen fun r s => r ∈ records ∧ s ∈ records ∧ Linked rt r s

theorem ConnectedIn.of_linked {records : List Vulnerability} {r s : Vulnerability}
    (hr : r ∈ records) (hs : s ∈ records) (h : Linked rt r s) : ConnectedIn rt records r s :=
  EqvGen.rel _ _ ⟨hr, hs, h⟩

theorem ConnectedIn.mono {records records' : List Vulnerability} (hsub : records ⊆ records')
    {r s : Vulnerability} (h : ConnectedIn rt records r s) : ConnectedIn rt records' r s :=
  EqvGen.mono (fun _ _ h => ⟨hsub h.1, hsub h.2.1, h.2.2⟩) _ _ h

/-- A chain stays among the records. -/
theorem ConnectedIn.mem_iff {records : List Vulnerability} {r s : Vulnerability}
    (h : ConnectedIn rt records r s) : r ∈ records ↔ s ∈ records := by
  induction h with
  | rel _ _ h => exact iff_of_true h.1 h.2.1
  | refl => exact Iff.rfl
  | symm _ _ _ ih => exact ih.symm
  | trans _ _ _ _ _ ih ih' => exact ih.trans ih'

/-- Whether two records are connected does not depend on where they stand. -/
theorem chain_iff {records : List Vulnerability} {i j : Nat} {r s : Vulnerability}
    (hi : records[i]? = some r) (hj : records[j]? = some s) :
    Chain rt records i j ↔ ConnectedIn rt records r s := by
  constructor
  · intro h
    have hvalues : i = j ∨ ∃ r s, records[i]? = some r ∧ records[j]? = some s ∧
        ConnectedIn rt records r s := by
      clear hi hj
      induction h with
      | rel i j h =>
        obtain ⟨r, s, hi, hj, hlinked⟩ := h
        exact Or.inr ⟨r, s, hi, hj, .of_linked (List.mem_of_getElem? hi) (List.mem_of_getElem? hj)
          hlinked⟩
      | refl => exact Or.inl rfl
      | symm _ _ _ ih =>
        obtain rfl | ⟨r, s, hi, hj, hrs⟩ := ih
        · exact Or.inl rfl
        · exact Or.inr ⟨s, r, hj, hi, hrs.symm _ _⟩
      | trans _ _ _ _ _ ih ih' =>
        obtain rfl | ⟨r, s, hi, hj, hrs⟩ := ih
        · exact ih'
        · obtain rfl | ⟨s', t, hj', hk, hst⟩ := ih'
          · exact Or.inr ⟨r, s, hi, hj, hrs⟩
          · obtain rfl : s = s' := Option.some.inj (hj.symm.trans hj')
            exact Or.inr ⟨r, t, hi, hk, hrs.trans _ _ _ hst⟩
    obtain rfl | ⟨r', s', hi', hj', hrs⟩ := hvalues
    · obtain rfl : r = s := Option.some.inj (hi.symm.trans hj)
      exact EqvGen.refl r
    · obtain rfl : r = r' := Option.some.inj (hi.symm.trans hi')
      obtain rfl : s = s' := Option.some.inj (hj.symm.trans hj')
      exact hrs
  · intro h
    induction h generalizing i j with
    | rel r s h => exact EqvGen.rel _ _ ⟨r, s, hi, hj, h.2.2⟩
    | refl r => exact EqvGen.rel _ _ ⟨r, r, hi, hj, .refl r⟩
    | symm _ _ _ ih => exact (ih hj hi).symm _ _
    | trans r s t hrs _ ih ih' =>
      have hs : s ∈ records := (ConnectedIn.mem_iff hrs).mp (List.mem_of_getElem? hi)
      obtain ⟨k, hk⟩ := List.getElem?_of_mem hs
      exact (ih hi hk).trans _ _ _ (ih' hk hj)

/-! ## The forest -/

section

variable {order : SetOrder rt} {records : List Vulnerability}

theorem mem_keyPairs {i : Nat} {package : String × String × String} {k : String} :
    (i, (package, k)) ∈ keyPairs order records ↔
      ∃ r, records[i]? = some r ∧ package = packageKey rt r ∧ k ∈ identifiers rt r := by
  simp only [keyPairs, List.mem_flatMap, List.mem_map]
  constructor
  · rintro ⟨⟨r, i'⟩, hmem, k', hk', heq⟩
    cases heq
    exact ⟨r, List.mem_zipIdx_iff_getElem?.mp hmem, rfl, (order.mem_keys r k).mp hk'⟩
  · rintro ⟨r, hr, rfl, hk⟩
    exact ⟨(r, i), List.mem_zipIdx_iff_getElem?.mpr hr, k, (order.mem_keys r k).mpr hk, rfl⟩

theorem share_keyPairs {i j : Nat} :
    Share (keyPairs order records) i j ↔ LinkedAt rt records i j := by
  constructor
  · rintro ⟨⟨package, k⟩, hi, hj⟩
    obtain ⟨r, hr, hpackage, hk⟩ := mem_keyPairs.mp hi
    obtain ⟨s, hs, hpackage', hk'⟩ := mem_keyPairs.mp hj
    exact ⟨r, s, hr, hs, hpackage.symm.trans hpackage', k, hk, hk'⟩
  · rintro ⟨r, s, hr, hs, hpackage, k, hk, hk'⟩
    exact ⟨(packageKey rt r, k), mem_keyPairs.mpr ⟨r, hr, rfl, hk⟩,
      mem_keyPairs.mpr ⟨s, hs, hpackage, hk'⟩⟩

/-- The classes of the forest are the components. -/
theorem root_forest {i j : Nat} :
    (forest order records).root i = (forest order records).root j ↔ Chain rt records i j := by
  have h := (linked_linkAll (keyPairs order records)).classes i j
  have hrel : Share (keyPairs order records) = LinkedAt rt records := by
    funext x y
    exact propext share_keyPairs
  rw [hrel] at h
  exact h

/-! ## The groups -/

/-- A group of a merge, with the record that it becomes. -/
def GroupOf (order : SetOrder rt) (records : List Vulnerability) (merged : Vulnerability)
    (items : List Vulnerability) : Prop :=
  ∃ group ∈ groups order records, items = group.map Prod.fst ∧
    mergeGroup order items = some merged

/-- The record at this position is in the group that becomes this record. -/
def EndsIn (order : SetOrder rt) (records : List Vulnerability) (i : Nat) (merged : Vulnerability) :
    Prop :=
  ∃ group ∈ groups order records, i ∈ group.map Prod.snd ∧
    mergeGroup order (group.map Prod.fst) = some merged

theorem mem_group {group : List (Vulnerability × Nat)} (hgroup : group ∈ groups order records)
    {r : Vulnerability} {i : Nat} (h : (r, i) ∈ group) :
    records[i]? = some r ∧
      ∀ s j, (s, j) ∈ group ↔ records[j]? = some s ∧ Chain rt records i j := by
  obtain ⟨k, rfl, -⟩ := mem_sortedGroups.mp hgroup
  rw [List.mem_filter, decide_eq_true_eq, List.mem_zipIdx_iff_getElem?] at h
  refine ⟨h.1, fun s j => ?_⟩
  rw [List.mem_filter, decide_eq_true_eq, List.mem_zipIdx_iff_getElem?, ← h.2]
  exact and_congr_right fun _ => eq_comm.trans root_forest

theorem exists_group {r : Vulnerability} {i : Nat} (h : records[i]? = some r) :
    ∃ group ∈ groups order records, (r, i) ∈ group := by
  have hmem : (r, i) ∈ records.zipIdx := List.mem_zipIdx_iff_getElem?.mpr h
  have htogether : ∃ group ∈ groups order records, (r, i) ∈ group ∧ (r, i) ∈ group :=
    (together_sortedGroups hmem hmem).mpr rfl
  obtain ⟨group, hgroup, hin, -⟩ := htogether
  exact ⟨group, hgroup, hin⟩

/-- The records of a group are those connected with one of them. -/
theorem mem_items {group : List (Vulnerability × Nat)} (hgroup : group ∈ groups order records)
    {r s : Vulnerability} (hr : r ∈ group.map Prod.fst) :
    s ∈ group.map Prod.fst ↔ s ∈ records ∧ ConnectedIn rt records r s := by
  obtain ⟨⟨r', i⟩, hri, rfl⟩ := List.mem_map.mp hr
  obtain ⟨hi, hgroup'⟩ := mem_group hgroup hri
  constructor
  · intro hs
    obtain ⟨⟨s', j⟩, hsj, rfl⟩ := List.mem_map.mp hs
    obtain ⟨hj, hchain⟩ := (hgroup' s' j).mp hsj
    exact ⟨List.mem_of_getElem? hj, (chain_iff hi hj).mp hchain⟩
  · rintro ⟨hs, hconnected⟩
    obtain ⟨j, hj⟩ := List.getElem?_of_mem hs
    exact List.mem_map.mpr ⟨(s, j), (hgroup' s j).mpr ⟨hj, (chain_iff hi hj).mpr hconnected⟩, rfl⟩

theorem exists_mergeGroup {items : List Vulnerability} (h : items ≠ []) :
    ∃ merged, mergeGroup order items = some merged := by
  have hne : groupOrder rt items ≠ [] := fun hnil => h (by
    have hlength := (List.perm_insertionSort (fun a b => groupKey rt a ≤ groupKey rt b) items).length_eq
    rw [show items.insertionSort _ = [] from hnil] at hlength
    exact List.length_eq_zero_iff.mp hlength.symm)
  obtain ⟨first, rest, heq⟩ := List.exists_cons_of_ne_nil hne
  rw [mergeGroup, heq]
  exact ⟨_, rfl⟩

/-! ## What a group becomes -/

/-- The record says of its package, identifiers, severity and versions what the items say. -/
structure Represents (rt : Runtime) (merged : Vulnerability) (items : List Vulnerability) :
    Prop where
  package : ∀ item ∈ items, packageKey rt item = packageKey rt merged
  named : merged.vulnerabilityId ∈ union names items
  aliases : merged.aliases = (union names items).erase merged.vulnerabilityId
  canonical : ∀ n ∈ union names items, priority rt merged.vulnerabilityId ≤ priority rt n
  severity : ∀ n, severityRank merged.severity ≤ n ↔ ∀ item ∈ items, severityRank item.severity ≤ n
  cvss : ∀ q, (∀ score ∈ merged.cvssScore, score ≤ q) ↔
    ∀ item ∈ items, ∀ score ∈ item.cvssScore, score ≤ q
  exploited : merged.knownExploited = true ↔ ∃ item ∈ items, item.knownExploited = true
  affected : merged.affectedVersions = firstValues 512 Vulnerability.affectedVersions items
  fixed : merged.fixedVersions = firstValues 512 Vulnerability.fixedVersions items
  references : merged.references = firstValues 128 Vulnerability.references items

theorem Represents.names_eq {merged : Vulnerability} {items : List Vulnerability}
    (h : Represents rt merged items) : names merged = union names items := by
  rw [names, h.aliases, Finset.insert_erase h.named, Finset.filter_eq_self]
  intro n hn
  obtain ⟨item, -, hname⟩ := mem_union.mp hn
  exact (Finset.mem_filter.mp hname).2

theorem canonicalIdentifier_spec {first : Vulnerability} {ordered : List Vulnerability}
    (hfirst : first ∈ ordered) :
    (canonicalIdentifier order ordered first).1 ∈ union names ordered ∧
      ∀ n ∈ union names ordered,
        priority rt (canonicalIdentifier order ordered first).1 ≤ priority rt n := by
  have hname : first.vulnerabilityId ∈ order.names ordered :=
    (order.mem_names _ _).mpr (mem_union.mpr ⟨first, hfirst, vulnerabilityId_mem_names first⟩)
  unfold canonicalIdentifier
  split
  · next h => rw [List.argmin_eq_none.mp h] at hname; cases hname
  · next value h =>
    refine ⟨(order.mem_names _ _).mp (List.argmin_mem h), fun n hn => ?_⟩
    exact List.le_of_mem_argmin ((order.mem_names _ _).mpr hn) h

theorem firstValues_congr {n : Nat} {values : Vulnerability → List String}
    {items items' : List Vulnerability} (h : ∀ item, item ∈ items ↔ item ∈ items') :
    firstValues n values items = firstValues n values items' := by
  have hunion : union (fun item => (values item).toFinset) items =
      union (fun item => (values item).toFinset) items' := by
    ext x
    simp only [mem_union, h]
  rw [firstValues, hunion, firstValues]

theorem Represents.congr {merged : Vulnerability} {items items' : List Vulnerability}
    (hrep : Represents rt merged items) (h : ∀ item, item ∈ items ↔ item ∈ items') :
    Represents rt merged items' := by
  have hnames : union names items = union names items' := by
    ext x
    simp only [mem_union, h]
  refine ⟨?_, hnames ▸ hrep.named, hnames ▸ hrep.aliases, hnames ▸ hrep.canonical, ?_, ?_, ?_, ?_, ?_, ?_⟩
  · simpa only [h] using hrep.package
  · simpa only [h] using hrep.severity
  · simpa only [h] using hrep.cvss
  · simpa only [h] using hrep.exploited
  · rw [hrep.affected, firstValues_congr h]
  · rw [hrep.fixed, firstValues_congr h]
  · rw [hrep.references, firstValues_congr h]

theorem le_argmax_iff {ordered : List Vulnerability} {first : Vulnerability} (hne : ordered ≠ [])
    (n : Nat) :
    severityRank (((ordered.map Vulnerability.severity).argmax severityRank).getD first.severity) ≤ n ↔
      ∀ item ∈ ordered, severityRank item.severity ≤ n := by
  cases hmax : (ordered.map Vulnerability.severity).argmax severityRank with
  | none => exact absurd (List.map_eq_nil_iff.mp (List.argmax_eq_none.mp hmax)) hne
  | some severity =>
    rw [Option.getD_some]
    constructor
    · intro h item hitem
      exact (List.le_of_mem_argmax (List.mem_map_of_mem hitem) hmax).trans h
    · intro h
      obtain ⟨item, hitem, rfl⟩ := List.mem_map.mp (List.argmax_mem hmax)
      exact h item hitem

theorem le_max?_iff {scores : List ℚ} (q : ℚ) :
    (∀ score ∈ scores.max?, score ≤ q) ↔ ∀ score ∈ scores, score ≤ q := by
  cases hmax : scores.max? with
  | none =>
    rw [List.max?_eq_none_iff.mp hmax]
    simp
  | some best =>
    obtain ⟨hmem, hle⟩ := List.max?_eq_some_iff.mp hmax
    constructor
    · intro h score hscore
      exact (hle score hscore).trans (h best rfl)
    · rintro h score ⟨⟩
      exact h best hmem

/-- A group of records about one package is represented by what it is merged into. -/
theorem represents_mergeGroup {items : List Vulnerability} {merged : Vulnerability}
    (h : mergeGroup order items = some merged)
    (hpackage : ∀ r ∈ items, ∀ s ∈ items, packageKey rt r = packageKey rt s) :
    Represents rt merged items := by
  have hperm := List.perm_insertionSort (fun a b => groupKey rt a ≤ groupKey rt b) items
  obtain ⟨first, hhead, rfl⟩ := Option.map_eq_some_iff.mp h
  have hfirst : first ∈ groupOrder rt items := List.mem_of_mem_head? hhead
  have hmem : ∀ item, item ∈ groupOrder rt items ↔ item ∈ items := fun item => hperm.mem_iff
  obtain ⟨hnamed, hcanonical⟩ := @canonicalIdentifier_spec rt order first _ hfirst
  refine Represents.congr ?_ hmem
  refine ⟨fun item hitem => ?_, hnamed, rfl, hcanonical, ?_, ?_, ?_, rfl, rfl, rfl⟩
  · exact hpackage item ((hmem item).mp hitem) first ((hmem first).mp hfirst)
  · exact le_argmax_iff (List.ne_nil_of_mem hfirst)
  · intro q
    refine (le_max?_iff q).trans ?_
    simp only [List.mem_filterMap]
    exact ⟨fun h item hitem score hscore => h score ⟨item, hitem, hscore⟩,
      fun h score ⟨item, hitem, hscore⟩ => h item hitem score hscore⟩
  · exact List.any_eq_true

/-- The smallest values of representatives are the smallest values of what they represent. -/
theorem firstValues_trans {n : Nat} {values : Vulnerability → List String}
    {R : Vulnerability → List Vulnerability → Prop} {G H : List Vulnerability}
    (hR : ∀ m ∈ G, ∃ g, R m g) (hvalues : ∀ m g, R m g → values m = firstValues n values g)
    (hH : ∀ r, r ∈ H ↔ ∃ m ∈ G, ∃ g, R m g ∧ r ∈ g) :
    firstValues n values G = firstValues n values H := by
  refine smallest_eq_of_subset ?_ ?_
  · intro x hx
    obtain ⟨m, hm, hxm⟩ := mem_union.mp hx
    obtain ⟨g, hg⟩ := hR m hm
    rw [hvalues m g hg, List.mem_toFinset, firstValues, mem_smallest] at hxm
    obtain ⟨r, hr, hxr⟩ := mem_union.mp hxm.1
    exact mem_union.mpr ⟨r, (hH r).mpr ⟨m, hm, g, hg, hr⟩, hxr⟩
  · intro x hx
    obtain ⟨r, hr, hxr⟩ := mem_union.mp (mem_smallest.mp hx).1
    obtain ⟨m, hm, g, hg, hrg⟩ := (hH r).mp hr
    have hsub : union (fun item => (values item).toFinset) g ⊆
        union (fun item => (values item).toFinset) H := by
      intro y hy
      obtain ⟨s, hs, hys⟩ := mem_union.mp hy
      exact mem_union.mpr ⟨s, (hH s).mpr ⟨m, hm, g, hg, hs⟩, hys⟩
    have hxg := mem_smallest_of_subset hsub (mem_union.mpr ⟨r, hrg, hxr⟩) hx
    refine mem_union.mpr ⟨m, hm, ?_⟩
    rw [hvalues m g hg, List.mem_toFinset]
    exact hxg

/-- What represents representatives represents what they represent. -/
theorem Represents.trans {merged : Vulnerability} {R : Vulnerability → List Vulnerability → Prop}
    {G H : List Vulnerability} (h : Represents rt merged G) (hR : ∀ m ∈ G, ∃ g, R m g)
    (hrep : ∀ m g, R m g → Represents rt m g)
    (hH : ∀ r, r ∈ H ↔ ∃ m ∈ G, ∃ g, R m g ∧ r ∈ g) : Represents rt merged H := by
  have hnames : union names G = union names H := by
    ext x
    constructor
    · intro hx
      obtain ⟨m, hm, hxm⟩ := mem_union.mp hx
      obtain ⟨g, hg⟩ := hR m hm
      rw [(hrep m g hg).names_eq] at hxm
      obtain ⟨r, hr, hxr⟩ := mem_union.mp hxm
      exact mem_union.mpr ⟨r, (hH r).mpr ⟨m, hm, g, hg, hr⟩, hxr⟩
    · intro hx
      obtain ⟨r, hr, hxr⟩ := mem_union.mp hx
      obtain ⟨m, hm, g, hg, hrg⟩ := (hH r).mp hr
      refine mem_union.mpr ⟨m, hm, ?_⟩
      rw [(hrep m g hg).names_eq]
      exact mem_union.mpr ⟨r, hrg, hxr⟩
  refine ⟨fun r hr => ?_, hnames ▸ h.named, hnames ▸ h.aliases, hnames ▸ h.canonical,
    fun n => (h.severity n).trans ⟨fun hall r hr => ?_, fun hall m hm => ?_⟩,
    fun q => (h.cvss q).trans ⟨fun hall r hr => ?_, fun hall m hm => ?_⟩,
    h.exploited.trans ⟨?_, ?_⟩,
    h.affected.trans (firstValues_trans hR (fun m g hg => (hrep m g hg).affected) hH),
    h.fixed.trans (firstValues_trans hR (fun m g hg => (hrep m g hg).fixed) hH),
    h.references.trans (firstValues_trans hR (fun m g hg => (hrep m g hg).references) hH)⟩
  · obtain ⟨m, hm, g, hg, hrg⟩ := (hH r).mp hr
    exact ((hrep m g hg).package r hrg).trans (h.package m hm)
  · obtain ⟨m, hm, g, hg, hrg⟩ := (hH r).mp hr
    exact ((hrep m g hg).severity n).mp (hall m hm) r hrg
  · obtain ⟨g, hg⟩ := hR m hm
    exact ((hrep m g hg).severity n).mpr fun r hr => hall r ((hH r).mpr ⟨m, hm, g, hg, hr⟩)
  · obtain ⟨m, hm, g, hg, hrg⟩ := (hH r).mp hr
    exact ((hrep m g hg).cvss q).mp (hall m hm) r hrg
  · obtain ⟨g, hg⟩ := hR m hm
    exact ((hrep m g hg).cvss q).mpr fun r hr => hall r ((hH r).mpr ⟨m, hm, g, hg, hr⟩)
  · rintro ⟨m, hm, hexploited⟩
    obtain ⟨g, hg⟩ := hR m hm
    obtain ⟨r, hr, hrx⟩ := (hrep m g hg).exploited.mp hexploited
    exact ⟨r, (hH r).mpr ⟨m, hm, g, hg, hr⟩, hrx⟩
  · rintro ⟨r, hr, hexploited⟩
    obtain ⟨m, hm, g, hg, hrg⟩ := (hH r).mp hr
    exact ⟨m, hm, (hrep m g hg).exploited.mpr ⟨r, hrg, hexploited⟩⟩

/-- The two records agree but for the case of their identifier. -/
structure Agrees (rt : Runtime) (a b : Vulnerability) : Prop where
  package : packageKey rt a = packageKey rt b
  identifier : rt.upper a.vulnerabilityId = rt.upper b.vulnerabilityId
  identifiers : insert a.vulnerabilityId a.aliases = insert b.vulnerabilityId b.aliases
  severity : a.severity = b.severity
  cvssScore : a.cvssScore = b.cvssScore
  knownExploited : a.knownExploited = b.knownExploited
  affectedVersions : a.affectedVersions = b.affectedVersions
  fixedVersions : a.fixedVersions = b.fixedVersions
  references : a.references = b.references

theorem upper_eq_of_priority {a b : String} (h : priority rt a = priority rt b) :
    rt.upper a = rt.upper b := by
  have hsecond : ∀ value, (ofLex (priority rt value)).2 = rt.upper value := by
    intro value
    unfold priority
    dsimp only
    split
    · rfl
    · split <;> rfl
  rw [← hsecond a, ← hsecond b, h]

theorem Represents.agrees {a b : Vulnerability} {items : List Vulnerability}
    (ha : Represents rt a items) (hb : Represents rt b items) : Agrees rt a b := by
  have hitem : ∃ item, item ∈ items := by
    obtain ⟨item, hitem, -⟩ := mem_union.mp ha.named
    exact ⟨item, hitem⟩
  obtain ⟨item, hitem⟩ := hitem
  have hscore : ∀ q, (∀ score ∈ a.cvssScore, score ≤ q) ↔ ∀ score ∈ b.cvssScore, score ≤ q :=
    fun q => (ha.cvss q).trans (hb.cvss q).symm
  refine ⟨(ha.package item hitem).symm.trans (hb.package item hitem), ?_, ?_, ?_, ?_, ?_,
    ha.affected.trans hb.affected.symm, ha.fixed.trans hb.fixed.symm,
    ha.references.trans hb.references.symm⟩
  · exact upper_eq_of_priority
      (le_antisymm (ha.canonical _ hb.named) (hb.canonical _ ha.named))
  · rw [ha.aliases, hb.aliases, Finset.insert_erase ha.named, Finset.insert_erase hb.named]
  · refine severityRank_injective (le_antisymm ?_ ?_)
    · exact (ha.severity _).mpr ((hb.severity _).mp le_rfl)
    · exact (hb.severity _).mpr ((ha.severity _).mp le_rfl)
  · cases hca : a.cvssScore with
    | none =>
      cases hcb : b.cvssScore with
      | none => rfl
      | some y =>
        have hbound := (hscore (y - 1)).mp (fun score hs => by rw [hca] at hs; cases hs) y hcb
        linarith
    | some x =>
      cases hcb : b.cvssScore with
      | none =>
        have hbound := (hscore (x - 1)).mpr (fun score hs => by rw [hcb] at hs; cases hs) x hca
        linarith
      | some y =>
        have hxy := (hscore y).mpr (fun score hs => by rw [hcb] at hs; cases hs; rfl) x hca
        have hyx := (hscore x).mp (fun score hs => by rw [hca] at hs; cases hs; rfl) y hcb
        rw [le_antisymm hxy hyx]
  · exact Bool.eq_iff_iff.mpr (ha.exploited.trans hb.exploited.symm)

end

end OsScanner.Normalization

import Mathlib
import OsScanner.Normalization.Components

/-!
# Merging in stages

The endpoint merges what its tools report, the cloud merges again what it gets together with the
results of its own tools. The records of the second merge stand for the groups of the first ones,
so its groups are made of theirs: they are the groups that one merge of all records would have
found, and become records that agree with its records.
-/

namespace OsScanner.Normalization

open Lib Cloud Relation

variable {rt : Runtime} {order : SetOrder rt} {records : List Vulnerability}
  {m m' o o' r r' : Vulnerability} {g g' : List Vulnerability}

/-! ## Groups as lists of records -/

theorem ConnectedIn.package (h : ConnectedIn rt records r r') :
    packageKey rt r = packageKey rt r' := by
  induction h with
  | rel _ _ h => exact h.2.2.1
  | refl => rfl
  | symm _ _ _ ih => exact ih.symm
  | trans _ _ _ _ _ ih ih' => exact ih.trans ih'

theorem GroupOf.mem_iff (h : GroupOf order records m g) (hr : r ∈ g) :
    r' ∈ g ↔ r' ∈ records ∧ ConnectedIn rt records r r' := by
  obtain ⟨group, hgroup, rfl, -⟩ := h
  exact mem_items hgroup hr

theorem GroupOf.subset (h : GroupOf order records m g) (hr : r ∈ g) : r ∈ records :=
  ((h.mem_iff hr).mp hr).1

theorem GroupOf.represents (h : GroupOf order records m g) : Represents rt m g := by
  obtain ⟨group, hgroup, heq, hmerge⟩ := id h
  refine represents_mergeGroup hmerge fun r hr s hs => ?_
  exact ((h.mem_iff hr).mp hs).2.package

theorem exists_groupOf (order : SetOrder rt) (h : r ∈ records) :
    ∃ m g, GroupOf order records m g ∧ r ∈ g := by
  obtain ⟨i, hi⟩ := List.getElem?_of_mem h
  obtain ⟨group, hgroup, hmem⟩ : ∃ group ∈ groups order records, (r, i) ∈ group := exists_group hi
  have hr : r ∈ group.map Prod.fst := List.mem_map_of_mem hmem
  obtain ⟨m, hm⟩ : ∃ m, mergeGroup order (group.map Prod.fst) = some m :=
    exists_mergeGroup (List.ne_nil_of_mem hr)
  exact ⟨m, _, ⟨group, hgroup, rfl, hm⟩, hr⟩

/-- A record ends where its group does, wherever it stands. -/
theorem endsIn_iff {i : Nat} :
    EndsIn order records i m ↔ ∃ g r, GroupOf order records m g ∧ records[i]? = some r ∧ r ∈ g := by
  constructor
  · rintro ⟨group, hgroup, hi, hmerge⟩
    obtain ⟨⟨r, i'⟩, hmem, rfl⟩ := List.mem_map.mp hi
    exact ⟨_, r, ⟨group, hgroup, rfl, hmerge⟩, (mem_group hgroup hmem).1, List.mem_map_of_mem hmem⟩
  · rintro ⟨g, r, ⟨group, hgroup, rfl, hmerge⟩, hi, hr⟩
    obtain ⟨⟨r', j⟩, hmem, rfl⟩ := List.mem_map.mp hr
    obtain ⟨hj, hchain⟩ := mem_group hgroup hmem
    have hin := (hchain r' i).mpr ⟨hi, (chain_iff hj hi).mpr (EqvGen.refl r')⟩
    exact ⟨group, hgroup, List.mem_map_of_mem hin, hmerge⟩

/-- The result of a merge: a record for each group. -/
theorem merge_eq (order : SetOrder rt) (hsize : records.length ≤ maxRecords) :
    ∃ merged, mergeVulnerabilities order records = .ok merged ∧ merged.length ≤ records.length ∧
      ∀ o, o ∈ merged ↔ ∃ g, GroupOf order records o g := by
  refine ⟨((groups order records).filterMap fun group =>
    mergeGroup order (group.map Prod.fst)).insertionSort fun a b => resultKey rt a ≤ resultKey rt b,
    ?_, ?_, fun o => ?_⟩
  · rw [mergeVulnerabilities, Check.raiseIf, if_neg (Nat.not_lt.mpr hsize)]
    rfl
  · rw [List.length_insertionSort]
    refine (List.length_filterMap_le _ _).trans ((length_sortedGroups_le _ _).trans ?_)
    rw [List.length_zipIdx]
  · rw [List.mem_insertionSort, List.mem_filterMap]
    constructor
    · rintro ⟨group, hgroup, hmerge⟩
      exact ⟨_, group, hgroup, rfl, hmerge⟩
    · rintro ⟨g, group, hgroup, rfl, hmerge⟩
      exact ⟨group, hgroup, hmerge⟩

/-- Too many records are not merged. -/
theorem merge_too_many (order : SetOrder rt) (h : records.length > maxRecords) :
    mergeVulnerabilities order records =
      .error s!"vulnerability record count exceeds {maxRecords}" := by
  rw [mergeVulnerabilities, Check.raiseIf, if_pos h]
  rfl

theorem exists_endsIn {i : Nat} (h : records[i]? = some r) : ∃ m, EndsIn order records i m := by
  obtain ⟨m, g, hg, hr⟩ := exists_groupOf order (List.mem_of_getElem? h)
  exact ⟨m, endsIn_iff.mpr ⟨g, r, hg, h, hr⟩⟩

/-- A record ends in one place. -/
theorem EndsIn.unique {i : Nat} (h : EndsIn order records i m) (h' : EndsIn order records i m') :
    m = m' := by
  obtain ⟨group, hgroup, hi, hmerge⟩ := h
  obtain ⟨group', hgroup', hi', hmerge'⟩ := h'
  obtain ⟨⟨r, i⟩, hmem, rfl⟩ := List.mem_map.mp hi
  obtain ⟨⟨r', i'⟩, hmem', hsame⟩ := List.mem_map.mp hi'
  obtain ⟨k, rfl, -⟩ := mem_sortedGroups.mp hgroup
  obtain ⟨k', rfl, -⟩ := mem_sortedGroups.mp hgroup'
  have hk : (forest order records).root i = k := of_decide_eq_true (List.mem_filter.mp hmem).2
  have hk' : (forest order records).root i' = k' := of_decide_eq_true (List.mem_filter.mp hmem').2
  obtain rfl : k = k' := by rw [← hk, ← hk', show i' = i from hsame]
  exact Option.some.inj (hmerge.symm.trans hmerge')

/-- Linked representatives have linked records. -/
theorem linked_of_represents (hm : Represents rt m g) (hm' : Represents rt m' g')
    (h : Linked rt m m') : ∃ r ∈ g, ∃ r' ∈ g', Linked rt r r' := by
  obtain ⟨hpackage, k, hk, hk'⟩ := h
  rw [identifiers, hm.names_eq] at hk
  rw [identifiers, hm'.names_eq] at hk'
  obtain ⟨n, hn, rfl⟩ := Finset.mem_image.mp hk
  obtain ⟨n', hn', heq⟩ := Finset.mem_image.mp hk'
  obtain ⟨r, hr, hrn⟩ := mem_union.mp hn
  obtain ⟨r', hr', hrn'⟩ := mem_union.mp hn'
  refine ⟨r, hr, r', hr', ?_, rt.casefold n, Finset.mem_image_of_mem _ hrn, ?_⟩
  · rw [hm.package r hr, hm'.package r' hr', hpackage]
  · exact Finset.mem_image.mpr ⟨n', hrn', heq⟩

/-- Linked records have linked representatives. -/
theorem linked_represents (hm : Represents rt m g) (hm' : Represents rt m' g') (hr : r ∈ g)
    (hr' : r' ∈ g') (h : Linked rt r r') : Linked rt m m' := by
  obtain ⟨hpackage, k, hk, hk'⟩ := h
  obtain ⟨n, hn, rfl⟩ := Finset.mem_image.mp hk
  obtain ⟨n', hn', heq⟩ := Finset.mem_image.mp hk'
  refine ⟨?_, rt.casefold n, ?_, ?_⟩
  · rw [← hm.package r hr, ← hm'.package r' hr', hpackage]
  · rw [identifiers, hm.names_eq]
    exact Finset.mem_image_of_mem _ (mem_union.mpr ⟨r, hr, hn⟩)
  · rw [identifiers, hm'.names_eq]
    exact Finset.mem_image.mpr ⟨n', mem_union.mpr ⟨r', hr', hn'⟩, heq⟩

/-- Two records are in one group exactly when a chain leads from one to the other. -/
theorem together_iff {i j : Nat} (hi : records[i]? = some r) (hj : records[j]? = some r') :
    (∃ m, EndsIn order records i m ∧ EndsIn order records j m) ↔ Chain rt records i j := by
  rw [chain_iff hi hj]
  constructor
  · rintro ⟨m, hm, hm'⟩
    obtain ⟨g, x, hg, hx, hxg⟩ := endsIn_iff.mp hm
    obtain ⟨g', y, hg', hy, hyg⟩ := endsIn_iff.mp hm'
    obtain rfl : r = x := Option.some.inj (hi.symm.trans hx)
    obtain rfl : r' = y := Option.some.inj (hj.symm.trans hy)
    obtain ⟨s, hs, s', hs', hlinked⟩ :=
      linked_of_represents hg.represents hg'.represents (Linked.refl m)
    have hrs := ((hg.mem_iff hxg).mp hs).2
    have hrs' := ((hg'.mem_iff hyg).mp hs').2
    have hlink := ConnectedIn.of_linked (hg.subset hs) (hg'.subset hs') hlinked
    exact (hrs.trans _ _ _ hlink).trans _ _ _ (hrs'.symm _ _)
  · intro h
    obtain ⟨m, g, hg, hrg⟩ := exists_groupOf order (List.mem_of_getElem? hi)
    have hrg' : r' ∈ g := (hg.mem_iff hrg).mpr ⟨List.mem_of_getElem? hj, h⟩
    exact ⟨m, endsIn_iff.mpr ⟨g, r, hg, hi, hrg⟩, endsIn_iff.mpr ⟨g, r', hg, hj, hrg'⟩⟩

/-! ## The order of the records -/

/-- The records in another order. -/
def permuted (records : List Vulnerability) (σ : Equiv.Perm (Fin records.length)) :
    List Vulnerability := List.ofFn fun i => records.get (σ i)

theorem getElem?_permuted (σ : Equiv.Perm (Fin records.length)) (i : Fin records.length) :
    (permuted records σ)[i.val]? = some (records.get (σ i)) := by
  rw [permuted, List.getElem?_ofFn, dif_pos i.isLt]

theorem mem_permuted (σ : Equiv.Perm (Fin records.length)) :
    r ∈ permuted records σ ↔ r ∈ records := by
  rw [permuted, List.mem_ofFn]
  constructor
  · rintro ⟨i, rfl⟩
    exact List.get_mem _ _
  · intro h
    obtain ⟨i, hi⟩ := List.mem_iff_get.mp h
    exact ⟨σ.symm i, by simp only [Equiv.apply_symm_apply, hi]⟩

theorem together_permuted (order order' : SetOrder rt) (σ : Equiv.Perm (Fin records.length))
    (i j : Fin records.length) :
    (∃ m, EndsIn order' (permuted records σ) i m ∧ EndsIn order' (permuted records σ) j m) ↔
      ∃ m, EndsIn order records (σ i) m ∧ EndsIn order records (σ j) m := by
  have hget : ∀ k : Fin records.length, records[k.val]? = some (records.get k) := fun k =>
    List.getElem?_eq_getElem k.isLt
  rw [together_iff (getElem?_permuted σ i) (getElem?_permuted σ j),
    together_iff (hget (σ i)) (hget (σ j)), chain_iff (getElem?_permuted σ i) (getElem?_permuted σ j),
    chain_iff (hget (σ i)) (hget (σ j))]
  exact ⟨ConnectedIn.mono fun _ => (mem_permuted σ).mp, ConnectedIn.mono fun _ => (mem_permuted σ).mpr⟩

/-! ## Two stages -/

section Stages

variable {orderA orderB orderM orderD : SetOrder rt} {a b ma mb : List Vulnerability}

/-- The first stage made this record of this group. -/
def FirstStage (orderA orderB : SetOrder rt) (a b : List Vulnerability) (m : Vulnerability)
    (g : List Vulnerability) : Prop := GroupOf orderA a m g ∨ GroupOf orderB b m g

theorem FirstStage.represents (h : FirstStage orderA orderB a b m g) : Represents rt m g :=
  h.elim GroupOf.represents GroupOf.represents

theorem FirstStage.subset (h : FirstStage orderA orderB a b m g) (hr : r ∈ g) : r ∈ a ++ b :=
  List.mem_append.mpr (h.imp (fun h => h.subset hr) fun h => h.subset hr)

theorem FirstStage.connected (h : FirstStage orderA orderB a b m g) (hr : r ∈ g) (hr' : r' ∈ g) :
    ConnectedIn rt (a ++ b) r r' := by
  rcases h with h | h
  · exact ((h.mem_iff hr).mp hr').2.mono (List.subset_append_left a b)
  · exact ((h.mem_iff hr).mp hr').2.mono (List.subset_append_right a b)

theorem exists_firstStage (orderA orderB : SetOrder rt) (h : r ∈ a ++ b) :
    ∃ m g, FirstStage orderA orderB a b m g ∧ r ∈ g := by
  rcases List.mem_append.mp h with h | h
  · obtain ⟨m, g, hg, hr⟩ := exists_groupOf orderA h
    exact ⟨m, g, Or.inl hg, hr⟩
  · obtain ⟨m, g, hg, hr⟩ := exists_groupOf orderB h
    exact ⟨m, g, Or.inr hg, hr⟩

variable (hmid : ∀ m, m ∈ ma ++ mb ↔ ∃ g, FirstStage orderA orderB a b m g)

include hmid

/-- Representatives are connected exactly when their records are. -/
theorem connected_stages (hm : FirstStage orderA orderB a b m g) (hr : r ∈ g)
    (hm' : FirstStage orderA orderB a b m' g') (hr' : r' ∈ g') :
    ConnectedIn rt (ma ++ mb) m m' ↔ ConnectedIn rt (a ++ b) r r' := by
  have hlift : ∀ {m m' g g' r r'}, FirstStage orderA orderB a b m g → r ∈ g →
      FirstStage orderA orderB a b m' g' → r' ∈ g' → Linked rt m m' →
      ConnectedIn rt (a ++ b) r r' := by
    intro m m' g g' r r' hm hr hm' hr' hlinked
    obtain ⟨s, hs, s', hs', hlinked⟩ := linked_of_represents hm.represents hm'.represents hlinked
    have hlink := ConnectedIn.of_linked (hm.subset hs) (hm'.subset hs') hlinked
    exact ((hm.connected hr hs).trans _ _ _ hlink).trans _ _ _ (hm'.connected hs' hr')
  constructor
  · intro h
    induction h generalizing g g' r r' with
    | rel _ _ h => exact hlift hm hr hm' hr' h.2.2
    | refl x => exact hlift hm hr hm' hr' (Linked.refl x)
    | symm _ _ _ ih => exact (ih hm' hr' hm hr).symm _ _
    | trans x y z hxy _ ih ih' =>
      have hy : y ∈ ma ++ mb := (ConnectedIn.mem_iff hxy).mp ((hmid x).mpr ⟨g, hm⟩)
      obtain ⟨gy, hgy⟩ := (hmid y).mp hy
      obtain ⟨s, hs, -⟩ := mem_union.mp hgy.represents.named
      exact (ih hm hr hgy hs).trans _ _ _ (ih' hgy hs hm' hr')
  · intro h
    have hmem : ∀ {m g}, FirstStage orderA orderB a b m g → m ∈ ma ++ mb := fun hg =>
      (hmid _).mpr ⟨_, hg⟩
    induction h generalizing m m' g g' with
    | rel _ _ h =>
      exact .of_linked (hmem hm) (hmem hm')
        (linked_represents hm.represents hm'.represents hr hr' h.2.2)
    | refl x =>
      exact .of_linked (hmem hm) (hmem hm')
        (linked_represents hm.represents hm'.represents hr hr' (Linked.refl x))
    | symm _ _ _ ih => exact (ih hm' hr' hm hr).symm _ _
    | trans x y z hxy _ ih ih' =>
      have hy : y ∈ a ++ b := (ConnectedIn.mem_iff hxy).mp (hm.subset hr)
      obtain ⟨my, gy, hgy, hyg⟩ := exists_firstStage orderA orderB hy
      exact (ih hm hr hgy hyg).trans _ _ _ (ih' hgy hyg hm' hr')

/-- A group of the second stage and the group of all records that has one of its records. -/
theorem agrees_stages {G H : List Vulnerability} (hG : GroupOf orderM (ma ++ mb) o G) (hmG : m ∈ G)
    (hm : FirstStage orderA orderB a b m g) (hr : r ∈ g) (hH : GroupOf orderD (a ++ b) o' H)
    (hrH : r ∈ H) : Agrees rt o o' := by
  refine Represents.agrees (Represents.trans hG.represents (R := FirstStage orderA orderB a b)
    (fun x hx => (hmid x).mp (hG.subset hx)) (fun _ _ h => h.represents) (H := H) fun s => ?_)
    hH.represents
  constructor
  · intro hs
    obtain ⟨hsab, hconnected⟩ := (hH.mem_iff hrH).mp hs
    obtain ⟨ms, gs, hgs, hsg⟩ := exists_firstStage orderA orderB hsab
    have hmid' := (connected_stages hmid hm hr hgs hsg).mpr hconnected
    exact ⟨ms, (hG.mem_iff hmG).mpr ⟨(hmid ms).mpr ⟨gs, hgs⟩, hmid'⟩, gs, hgs, hsg⟩
  · rintro ⟨ms, hms, gs, hgs, hsg⟩
    have hconnected := (connected_stages hmid hm hr hgs hsg).mp ((hG.mem_iff hmG).mp hms).2
    exact (hH.mem_iff hrH).mpr ⟨hgs.subset hsg, hconnected⟩

end Stages

/-- The record at this position of `a ++ b` ends in this record of the second stage. -/
def StagedEndsIn (orderA orderB orderM : SetOrder rt) (a b ma mb : List Vulnerability) (i : Nat)
    (o : Vulnerability) : Prop :=
  ∃ m p, (if i < a.length then EndsIn orderA a i m else EndsIn orderB b (i - a.length) m) ∧
    (ma ++ mb)[p]? = some m ∧ EndsIn orderM (ma ++ mb) p o

/-- What the first stage makes of the record at this position. -/
theorem firstStage_at {orderA orderB : SetOrder rt} {a b : List Vulnerability} {i : Nat} :
    (if i < a.length then EndsIn orderA a i m else EndsIn orderB b (i - a.length) m) →
      ∃ g r, FirstStage orderA orderB a b m g ∧ (a ++ b)[i]? = some r ∧ r ∈ g := by
  split
  · next hi =>
    intro h
    obtain ⟨g, r, hg, hget, hr⟩ := endsIn_iff.mp h
    exact ⟨g, r, Or.inl hg, by rw [List.getElem?_append_left hi, hget], hr⟩
  · next hi =>
    intro h
    obtain ⟨g, r, hg, hget, hr⟩ := endsIn_iff.mp h
    exact ⟨g, r, Or.inr hg, by rw [List.getElem?_append_right (Nat.not_lt.mp hi), hget], hr⟩

theorem exists_firstStage_at (orderA orderB : SetOrder rt) {a b : List Vulnerability} {i : Nat}
    (h : (a ++ b)[i]? = some r) :
    ∃ m, if i < a.length then EndsIn orderA a i m else EndsIn orderB b (i - a.length) m := by
  split
  · next hi =>
    rw [List.getElem?_append_left hi] at h
    exact exists_endsIn h
  · next hi =>
    rw [List.getElem?_append_right (Nat.not_lt.mp hi)] at h
    exact exists_endsIn h

/-- Merging the results of two merges. -/
structure StagesAgree (orderA orderB orderM orderD : SetOrder rt)
    (a b ma mb staged direct : List Vulnerability) : Prop where
  first : mergeVulnerabilities orderA a = .ok ma ∧ mergeVulnerabilities orderB b = .ok mb
  second : mergeVulnerabilities orderM (ma ++ mb) = .ok staged
  once : mergeVulnerabilities orderD (a ++ b) = .ok direct
  outputs : ∀ o, o ∈ staged ↔ ∃ i, StagedEndsIn orderA orderB orderM a b ma mb i o
  groups : ∀ i < (a ++ b).length, ∀ j < (a ++ b).length,
    (∃ o, StagedEndsIn orderA orderB orderM a b ma mb i o ∧
      StagedEndsIn orderA orderB orderM a b ma mb j o) ↔
    ∃ o, EndsIn orderD (a ++ b) i o ∧ EndsIn orderD (a ++ b) j o
  records : ∀ i o o', StagedEndsIn orderA orderB orderM a b ma mb i o →
    EndsIn orderD (a ++ b) i o' → Agrees rt o o'

theorem stages_agree (orderA orderB orderM orderD : SetOrder rt) {a b : List Vulnerability}
    (hsize : (a ++ b).length ≤ maxRecords) :
    ∃ ma mb staged direct, StagesAgree orderA orderB orderM orderD a b ma mb staged direct := by
  have hlength : a.length + b.length ≤ maxRecords := by rwa [List.length_append] at hsize
  obtain ⟨ma, hma, hlena, hmema⟩ := @merge_eq rt a orderA (by omega)
  obtain ⟨mb, hmb, hlenb, hmemb⟩ := @merge_eq rt b orderB (by omega)
  obtain ⟨staged, hstaged, -, hmems⟩ := @merge_eq rt (ma ++ mb) orderM
    (by rw [List.length_append]; omega)
  obtain ⟨direct, hdirect, -, -⟩ := @merge_eq rt (a ++ b) orderD hsize
  have hmid : ∀ m, m ∈ ma ++ mb ↔ ∃ g, FirstStage orderA orderB a b m g := fun m => by
    rw [List.mem_append, hmema, hmemb, ← exists_or]
    rfl
  -- A record and the records that it ends in after the first and after the second stage.
  have htrace : ∀ {i o}, StagedEndsIn orderA orderB orderM a b ma mb i o ↔
      ∃ m g r G, FirstStage orderA orderB a b m g ∧ (a ++ b)[i]? = some r ∧ r ∈ g ∧
        GroupOf orderM (ma ++ mb) o G ∧ m ∈ G ∧
        (if i < a.length then EndsIn orderA a i m else EndsIn orderB b (i - a.length) m) := by
    intro i o
    constructor
    · rintro ⟨m, p, hm, hp, ho⟩
      obtain ⟨g, r, hg, hi, hr⟩ := firstStage_at hm
      obtain ⟨G, x, hG, hx, hxG⟩ := endsIn_iff.mp ho
      obtain rfl : m = x := Option.some.inj (hp.symm.trans hx)
      exact ⟨m, g, r, G, hg, hi, hr, hG, hxG, hm⟩
    · rintro ⟨m, g, r, G, -, -, -, hG, hmG, hm⟩
      obtain ⟨p, hp⟩ := List.getElem?_of_mem (hG.subset hmG)
      exact ⟨m, p, hm, hp, endsIn_iff.mpr ⟨G, m, hG, hp, hmG⟩⟩
  refine ⟨ma, mb, staged, direct, ⟨hma, hmb⟩, hstaged, hdirect, fun o => ?_, ?_, ?_⟩
  · rw [hmems]
    constructor
    · rintro ⟨G, hG⟩
      obtain ⟨m, hmG, -⟩ := mem_union.mp hG.represents.named
      rcases List.mem_append.mp (hG.subset hmG) with hm | hm
      · obtain ⟨g, hg⟩ := (hmema m).mp hm
        obtain ⟨r, hr, -⟩ := mem_union.mp hg.represents.named
        obtain ⟨i, hi⟩ := List.getElem?_of_mem (hg.subset hr)
        have hlt : i < a.length := (List.getElem?_eq_some_iff.mp hi).1
        refine ⟨i, htrace.mpr ⟨m, g, r, G, Or.inl hg, ?_, hr, hG, hmG, ?_⟩⟩
        · rw [List.getElem?_append_left hlt, hi]
        · rw [if_pos hlt]
          exact endsIn_iff.mpr ⟨g, r, hg, hi, hr⟩
      · obtain ⟨g, hg⟩ := (hmemb m).mp hm
        obtain ⟨r, hr, -⟩ := mem_union.mp hg.represents.named
        obtain ⟨i, hi⟩ := List.getElem?_of_mem (hg.subset hr)
        refine ⟨a.length + i, htrace.mpr ⟨m, g, r, G, Or.inr hg, ?_, hr, hG, hmG, ?_⟩⟩
        · rw [List.getElem?_append_right (Nat.le_add_right _ _), Nat.add_sub_cancel_left, hi]
        · rw [if_neg (by omega), Nat.add_sub_cancel_left]
          exact endsIn_iff.mpr ⟨g, r, hg, hi, hr⟩
    · rintro ⟨i, hi⟩
      obtain ⟨m, g, r, G, -, -, -, hG, -, -⟩ := htrace.mp hi
      exact ⟨G, hG⟩
  · intro i hi j hj
    have hgeti := List.getElem?_eq_getElem hi
    have hgetj := List.getElem?_eq_getElem hj
    rw [together_iff hgeti hgetj, chain_iff hgeti hgetj]
    constructor
    · rintro ⟨o, ho, ho'⟩
      obtain ⟨m, g, r, G, hg, hr, hrg, hG, hmG, -⟩ := htrace.mp ho
      obtain ⟨m', g', r', G', hg', hr', hrg', hG', hmG', -⟩ := htrace.mp ho'
      obtain rfl : (a ++ b)[i] = r := Option.some.inj (hgeti.symm.trans hr)
      obtain rfl : (a ++ b)[j] = r' := Option.some.inj (hgetj.symm.trans hr')
      obtain ⟨p, hp⟩ := List.getElem?_of_mem (hG.subset hmG)
      obtain ⟨p', hp'⟩ := List.getElem?_of_mem (hG'.subset hmG')
      have htogether := (together_iff hp hp').mp
        ⟨o, endsIn_iff.mpr ⟨G, m, hG, hp, hmG⟩, endsIn_iff.mpr ⟨G', m', hG', hp', hmG'⟩⟩
      exact (connected_stages hmid hg hrg hg' hrg').mp ((chain_iff hp hp').mp htogether)
    · intro hconnected
      obtain ⟨m, hm⟩ := exists_firstStage_at orderA orderB hgeti
      obtain ⟨m', hm'⟩ := exists_firstStage_at orderA orderB hgetj
      obtain ⟨g, r, hg, hr, hrg⟩ := firstStage_at hm
      obtain ⟨g', r', hg', hr', hrg'⟩ := firstStage_at hm'
      obtain rfl : (a ++ b)[i] = r := Option.some.inj (hgeti.symm.trans hr)
      obtain rfl : (a ++ b)[j] = r' := Option.some.inj (hgetj.symm.trans hr')
      have hmids := (connected_stages hmid hg hrg hg' hrg').mpr hconnected
      obtain ⟨o, G, hG, hmG⟩ := exists_groupOf orderM ((hmid m).mpr ⟨g, hg⟩)
      have hmG' : m' ∈ G := (hG.mem_iff hmG).mpr ⟨(hmid m').mpr ⟨g', hg'⟩, hmids⟩
      exact ⟨o, htrace.mpr ⟨m, g, _, G, hg, hr, hrg, hG, hmG, hm⟩,
        htrace.mpr ⟨m', g', _, G, hg', hr', hrg', hG, hmG', hm'⟩⟩
  · intro i o o' ho ho'
    obtain ⟨m, g, r, G, hg, hr, hrg, hG, hmG, -⟩ := htrace.mp ho
    obtain ⟨H, x, hH, hx, hxH⟩ := endsIn_iff.mp ho'
    obtain rfl : r = x := Option.some.inj (hr.symm.trans hx)
    exact agrees_stages hmid hG hmG hg hrg hH hxH

/-! ## Every merge -/

/--
The records that end in one record are those that a chain connects, in whatever order the records
and the sets come, and merging in stages gives the same groups and records that agree.
-/
theorem merge_groups_are_components (rt : Runtime) :
    (∀ (order : SetOrder rt) (records : List Vulnerability), records.length ≤ maxRecords →
      ∃ merged, mergeVulnerabilities order records = .ok merged ∧
        (∀ o, o ∈ merged ↔ ∃ i, EndsIn order records i o) ∧
        (∀ i < records.length, ∃! o, EndsIn order records i o) ∧
        ∀ i < records.length, ∀ j < records.length,
          (∃ o, EndsIn order records i o ∧ EndsIn order records j o) ↔ Chain rt records i j) ∧
    (∀ (order order' : SetOrder rt) (records : List Vulnerability)
      (σ : Equiv.Perm (Fin records.length)) (i j : Fin records.length),
      (∃ o, EndsIn order' (permuted records σ) i o ∧ EndsIn order' (permuted records σ) j o) ↔
        ∃ o, EndsIn order records (σ i) o ∧ EndsIn order records (σ j) o) ∧
    ∀ (orderA orderB orderM orderD : SetOrder rt) (a b : List Vulnerability),
      (a ++ b).length ≤ maxRecords → ∃ ma mb staged direct,
        StagesAgree orderA orderB orderM orderD a b ma mb staged direct := by
  refine ⟨fun order records hsize => ?_, fun order order' records σ i j =>
    together_permuted order order' σ i j, fun _ _ _ _ _ _ hsize => stages_agree _ _ _ _ hsize⟩
  obtain ⟨merged, hmerged, -, hmem⟩ := merge_eq order hsize
  refine ⟨merged, hmerged, fun o => (hmem o).trans ⟨?_, ?_⟩, fun i hi => ?_, fun i hi j hj => ?_⟩
  · rintro ⟨g, hg⟩
    obtain ⟨r, hr, -⟩ := mem_union.mp hg.represents.named
    obtain ⟨i, hi⟩ := List.getElem?_of_mem (hg.subset hr)
    exact ⟨i, endsIn_iff.mpr ⟨g, r, hg, hi, hr⟩⟩
  · rintro ⟨i, hi⟩
    obtain ⟨g, r, hg, -, -⟩ := endsIn_iff.mp hi
    exact ⟨g, hg⟩
  · obtain ⟨o, ho⟩ : ∃ o, EndsIn order records i o := exists_endsIn (List.getElem?_eq_getElem hi)
    exact ⟨o, ho, fun o' ho' => ho'.unique ho⟩
  · exact together_iff (List.getElem?_eq_getElem hi) (List.getElem?_eq_getElem hj)

/-- A record of a tool that knows the issue by one identifier only. -/
def reported (vulnerabilityId : String) (aliases : Finset String)
    (named : Storage.strip vulnerabilityId ≠ "") : Vulnerability where
  scanId := "scan-1"
  vulnerabilityId := vulnerabilityId
  packageName := "openssl"
  aliases := aliases
  severity := .high
  detectedAt := 0
  named := named

theorem packageKey_reported {id id' : String} {aliases aliases' : Finset String}
    (h : Storage.strip id ≠ "") (h' : Storage.strip id' ≠ "") :
    packageKey rt (reported id aliases h) = packageKey rt (reported id' aliases' h') := by
  simp only [packageKey, reported]

def byCve : Vulnerability := reported "CVE-2024-0001" {""} (by decide +kernel)

def byGhsa : Vulnerability := reported "GHSA-aaaa-bbbb-cccc" {"cve-2024-0001"} (by decide +kernel)

/-- Another issue of the package, whose record has a blank alias as well. -/
def unrelated : Vulnerability := reported "CVE-2024-0002" {""} (by decide +kernel)

/-- An advisory and the CVE that it names in lower case. -/
theorem merge_groups_are_components_byGhsa :
    ∃ merged, mergeVulnerabilities (SetOrder.sorted Runtime.sample) [byCve, byGhsa] = .ok merged ∧
      ∃ o, EndsIn (SetOrder.sorted Runtime.sample) [byCve, byGhsa] 0 o ∧
        EndsIn (SetOrder.sorted Runtime.sample) [byCve, byGhsa] 1 o := by
  obtain ⟨merged, hmerged, -, -, htogether⟩ := (merge_groups_are_components Runtime.sample).1
    (SetOrder.sorted Runtime.sample) [byCve, byGhsa] (by decide)
  refine ⟨merged, hmerged, (htogether 0 (by decide) 1 (by decide)).mpr (EqvGen.rel _ _ ?_)⟩
  exact ⟨byCve, byGhsa, rfl, rfl, packageKey_reported _ _, "cve-2024-0001", by decide +kernel, by decide +kernel⟩

/-- A blank alias in common links no records, and of too many records none is merged. -/
theorem blank_alias_links_nothing :
    (packageKey Runtime.sample byCve = packageKey Runtime.sample unrelated ∧
      "" ∈ byCve.aliases ∧ "" ∈ unrelated.aliases ∧
      ¬ ∃ o, EndsIn (SetOrder.sorted Runtime.sample) [byCve, unrelated] 0 o ∧
        EndsIn (SetOrder.sorted Runtime.sample) [byCve, unrelated] 1 o) ∧
    mergeVulnerabilities (SetOrder.sorted Runtime.sample) (List.replicate 100001 byCve) =
      .error s!"vulnerability record count exceeds {maxRecords}" := by
  refine ⟨⟨packageKey_reported _ _, Finset.mem_singleton_self _, Finset.mem_singleton_self _, fun h => ?_⟩, ?_⟩
  · have hlinked : ¬ ∃ k, k ∈ identifiers Runtime.sample byCve ∧
        k ∈ identifiers Runtime.sample unrelated := by
      rintro ⟨k, hk, hk'⟩
      have hall : ∀ k ∈ identifiers Runtime.sample byCve,
          k ∉ identifiers Runtime.sample unrelated := by decide +kernel
      exact hall k hk hk'
    have hequal : ∀ {r s}, ConnectedIn Runtime.sample [byCve, unrelated] r s → r = s := by
      intro r s h
      induction h with
      | rel r s h =>
        obtain ⟨hr, hs, -, k, hk, hk'⟩ := h
        rw [List.mem_pair] at hr hs
        rcases hr with rfl | rfl <;> rcases hs with rfl | rfl
        · rfl
        · exact absurd ⟨k, hk, hk'⟩ hlinked
        · exact absurd ⟨k, hk', hk⟩ hlinked
        · rfl
      | refl => rfl
      | symm _ _ _ ih => exact ih.symm
      | trans _ _ _ _ _ ih ih' => exact ih.trans ih'
    have hchain : Chain Runtime.sample [byCve, unrelated] 0 1 := (together_iff rfl rfl).mp h
    have hsame := congrArg Vulnerability.vulnerabilityId (hequal ((chain_iff rfl rfl).mp hchain))
    exact absurd hsame (by decide)
  · exact merge_too_many _ (by rw [List.length_replicate]; decide)

end OsScanner.Normalization

import Mathlib

/-!
# Hash chains

Records in the order in which they were appended. Each holds a digest of itself and the digest
of the record before it. When records with the same digest are the same, the last digest
determines the whole chain.
-/

namespace OsScanner.Lib

universe u v

/-- How records of type `ρ` are chained by digests of type `δ`. -/
structure Chaining (ρ : Type u) (δ : Type v) where
  previous : ρ → Option δ
  digest : ρ → δ
  /-- The digest that a record should hold after the record with this digest. -/
  expected : Option δ → ρ → δ

namespace Chaining

variable {ρ : Type u} {δ : Type v} (k : Chaining ρ δ)

/-- The records continue a chain whose last digest is given. -/
def Linked : Option δ → List ρ → Prop
  | _, [] => True
  | tip, r :: rs => k.previous r = tip ∧ k.digest r = k.expected tip r ∧ Linked (some (k.digest r)) rs

/-- The last digest. -/
def tip (rs : List ρ) : Option δ := rs.getLast?.map k.digest

variable {k}

/-- A chain grows at its end by a record that was made for the last digest. -/
theorem linked_append_singleton {rs : List ρ} {r : ρ} :
    ∀ {start : Option δ}, k.Linked start (rs ++ [r]) ↔
      k.Linked start rs ∧ k.previous r = (k.tip rs).or start ∧
        k.digest r = k.expected ((k.tip rs).or start) r := by
  induction rs with
  | nil => simp [Linked, tip]
  | cons s rs ih =>
    intro start
    have htip : (k.tip (s :: rs)).or start = (k.tip rs).or (some (k.digest s)) := by
      unfold tip
      rcases List.eq_nil_or_concat rs with rfl | ⟨l, t, rfl⟩
      · simp
      · simp [List.getLast?_cons]
    rw [List.cons_append, Linked, Linked, ih, htip]
    tauto

/-- Every record of a chain holds the digest that belongs to it. -/
theorem Linked.digest_eq {rs : List ρ} : ∀ {start : Option δ}, k.Linked start rs →
    ∀ r ∈ rs, k.digest r = k.expected (k.previous r) r := by
  induction rs with
  | nil => simp
  | cons s rs ih =>
    intro start h r hr
    obtain ⟨hprevious, hdigest, hrest⟩ := h
    rcases List.mem_cons.mp hr with rfl | hr
    · rw [hprevious, hdigest]
    · exact ih hrest r hr

/-- The same chaining of records in another form. -/
def comap {ρ' : Type*} (k : Chaining ρ δ) (f : ρ' → ρ) : Chaining ρ' δ :=
  ⟨fun r => k.previous (f r), fun r => k.digest (f r), fun tip r => k.expected tip (f r)⟩

theorem linked_map {ρ' : Type*} {f : ρ' → ρ} {rs : List ρ'} :
    ∀ {start : Option δ}, k.Linked start (rs.map f) ↔ (k.comap f).Linked start rs := by
  induction rs with
  | nil => simp [Linked]
  | cons r rs ih =>
    intro start
    rw [List.map_cons, Linked, Linked, ih]
    rfl

/-- Chains with the same last digest are the same, down to the first record. -/
theorem eq_of_tip_eq {rs : List ρ} :
    ∀ {rs' : List ρ}, k.Linked none rs → k.Linked none rs' → k.tip rs = k.tip rs' →
      (∀ r ∈ rs, ∀ r' ∈ rs', k.digest r = k.digest r' → r = r') → rs = rs' := by
  induction rs using List.reverseRecOn with
  | nil =>
    intro rs' _ _ htip _
    simpa [tip] using htip.symm
  | append_singleton l r ih =>
    intro rs' h h' htip hinj
    rcases List.eq_nil_or_concat rs' with rfl | ⟨l', r', rfl⟩
    · simp [tip] at htip
    · rw [List.concat_eq_append] at h' htip hinj ⊢
      have hdigest : k.digest r = k.digest r' := by simpa [tip] using htip
      obtain rfl : r = r' := hinj r (by simp) r' (by simp) hdigest
      obtain ⟨hl, hprevious, -⟩ := linked_append_singleton.mp h
      obtain ⟨hl', hprevious', -⟩ := linked_append_singleton.mp h'
      rw [Option.or_none] at hprevious hprevious'
      have hrest : l = l' := ih hl hl' (hprevious.symm.trans hprevious') fun s hs s' hs' =>
        hinj s (List.mem_append_left _ hs) s' (List.mem_append_left _ hs')
      rw [hrest]

end Chaining

end OsScanner.Lib

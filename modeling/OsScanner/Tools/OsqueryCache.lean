import Mathlib
import OsScanner.Tools.OsqueryRuns

/-!
# The bounds of the osquery cache

The blocks of `_cached` and `_store_cached` under the lock, one operation on the dictionary at a
time. `popitem` raises on an empty dictionary, and the loop around it takes rounds; that it ends
without raising rests on the running total being the sum of the sizes. The blocks then do what the
tasks of the adapter take them to do.
-/

namespace OsScanner.Tools

open Lib

/-! ## Sizes -/

/-- The sum of `estimated_bytes` over the entries. -/
def sizes (entries : List (CacheKey × CacheEntry)) : Int :=
  (entries.map fun e => (e.2.estimatedBytes : Int)).sum

@[simp] theorem sizes_nil : sizes [] = 0 := rfl

@[simp] theorem sizes_cons (e : CacheKey × CacheEntry) (entries : List (CacheKey × CacheEntry)) :
    sizes (e :: entries) = e.2.estimatedBytes + sizes entries := by
  simp only [sizes, List.map_cons, List.sum_cons]

@[simp] theorem sizes_append (entries more : List (CacheKey × CacheEntry)) :
    sizes (entries ++ more) = sizes entries + sizes more := by
  simp only [sizes, List.map_append, List.sum_append]

theorem sizes_nonneg (entries : List (CacheKey × CacheEntry)) : 0 ≤ sizes entries := by
  induction entries with
  | nil => exact le_refl 0
  | cons e rest ih =>
    rw [sizes_cons]
    omega

theorem sizes_perm {entries others : List (CacheKey × CacheEntry)} (h : entries.Perm others) :
    sizes entries = sizes others := (h.map _).sum_eq

theorem sizes_filter (drop : CacheKey × CacheEntry → Bool) (entries : List (CacheKey × CacheEntry)) :
    sizes (entries.filter fun e => !drop e) = sizes entries - sizes (entries.filter drop) := by
  have h := sizes_perm (List.filter_append_perm drop entries)
  rw [sizes_append] at h
  omega

theorem le_sizes {e : CacheKey × CacheEntry} {entries : List (CacheKey × CacheEntry)}
    (h : e ∈ entries) : (e.2.estimatedBytes : Int) ≤ sizes entries := by
  obtain ⟨before, after, rfl⟩ := List.append_of_mem h
  have hbefore := sizes_nonneg before
  have hafter := sizes_nonneg after
  rw [sizes_append, sizes_cons]
  omega

namespace Cache

/-! ## The blocks as the source has them -/

/-- `pop(key, None)`; the size of what it finds is taken off. -/
def discard (cache : Cache) (key : CacheKey) : Cache :=
  match Assoc.lookup key cache.entries with
  | none => cache
  | some entry =>
    { entries := Assoc.erase key cache.entries, bytes := cache.bytes - entry.estimatedBytes }

/-- `[item for item, entry in self._cache.items() if entry.expires_at <= now]` -/
def expired (cache : Cache) (now : ℚ) : List CacheKey :=
  (cache.entries.filter fun e => decide (e.2.expiresAt ≤ now)).map Prod.fst

/-- The block of `_cached`. -/
def cachedBlock (key : CacheKey) (now : ℚ) (cache : Cache) : Option Execution × Cache :=
  let cache := (cache.expired now).foldl discard cache
  match Assoc.lookup key cache.entries with
  | none => (none, cache)
  | some entry =>
    let popped := Assoc.erase key cache.entries
    (some entry.execution, { cache with entries := Assoc.insert key entry popped })

/-- `popitem(last=False)`, with the size of what it pops taken off. -/
def popOldest (cache : Cache) : Except String Cache :=
  match cache.entries with
  | [] => .error "KeyError: 'dictionary is empty'"
  | e :: rest => .ok { entries := rest, bytes := cache.bytes - e.2.estimatedBytes }

/-- The loop of `_store_cached`, which tests its condition `rounds` times at most. -/
def evictLoop (maxEntries maxBytes : Nat) : Nat → Cache → Option (Except String Cache)
  | 0, _ => none
  | rounds + 1, cache =>
    if cache.entries.length > maxEntries ∨ cache.bytes > maxBytes then
      match cache.popOldest with
      | .error e => some (.error e)
      | .ok cache => evictLoop maxEntries maxBytes rounds cache
    else some (.ok cache)

/-- The block of `_store_cached`. -/
def storeBlock (maxEntries maxBytes rounds : Nat) (key : CacheKey) (entry : CacheEntry)
    (cache : Cache) : Option (Except String Cache) :=
  let cache := cache.discard key
  evictLoop maxEntries maxBytes rounds
    { entries := Assoc.insert key entry cache.entries, bytes := cache.bytes + entry.estimatedBytes }

/-- The caches that the blocks lead to from the empty one, whatever they are called with: an entry
may expire, be replaced, or be larger than the cache may be. -/
inductive Reaches (maxEntries maxBytes : Nat) : Cache → Prop
  | fresh : Reaches maxEntries maxBytes {}
  | cached {cache : Cache} (h : Reaches maxEntries maxBytes cache) (key : CacheKey) (now : ℚ) :
    Reaches maxEntries maxBytes (cache.cachedBlock key now).2
  | stored {cache cache' : Cache} (h : Reaches maxEntries maxBytes cache) (key : CacheKey)
    (entry : CacheEntry) (rounds : Nat)
    (hstore : cache.storeBlock maxEntries maxBytes rounds key entry = some (.ok cache')) :
    Reaches maxEntries maxBytes cache'

/-! ## The invariant -/

/-- The running total is what the entries of the dictionary take. -/
structure Accounted (cache : Cache) : Prop where
  nodup : (cache.entries.map Prod.fst).Nodup
  total : cache.bytes = sizes cache.entries

structure Within (maxEntries maxBytes : Nat) (cache : Cache) : Prop extends Accounted cache where
  bytes_le : cache.bytes ≤ maxBytes
  entries_le : cache.entries.length ≤ maxEntries

variable {cache : Cache} {maxEntries maxBytes : Nat}

theorem within_fresh (maxEntries maxBytes : Nat) : Within maxEntries maxBytes {} where
  nodup := List.nodup_nil
  total := rfl
  bytes_le := Int.natCast_nonneg maxBytes
  entries_le := Nat.zero_le maxEntries

theorem Accounted.remove (h : cache.Accounted) (drop : CacheKey × CacheEntry → Bool) :
    (cache.remove drop).Accounted where
  nodup := h.nodup.sublist (List.filter_sublist.map _)
  total := by
    show cache.bytes - sizes (cache.entries.filter drop) = sizes (cache.entries.filter fun e => !drop e)
    rw [sizes_filter, h.total]

theorem Within.remove (h : cache.Within maxEntries maxBytes)
    (drop : CacheKey × CacheEntry → Bool) : (cache.remove drop).Within maxEntries maxBytes where
  toAccounted := h.toAccounted.remove drop
  bytes_le := by
    have hbytes := h.bytes_le
    have hsizes := sizes_nonneg (cache.entries.filter drop)
    show cache.bytes - sizes (cache.entries.filter drop) ≤ maxBytes
    omega
  entries_le := (List.length_filter_le _ _).trans h.entries_le

/-! ### Expiry and removal -/

/-- Of the entries only one can have the key. -/
theorem filter_key {entries : List (CacheKey × CacheEntry)} {key : CacheKey} {entry : CacheEntry}
    (hnodup : (entries.map Prod.fst).Nodup) (h : (key, entry) ∈ entries) :
    entries.filter (fun e => decide (e.1 = key)) = [(key, entry)] := by
  induction entries with
  | nil => cases h
  | cons e rest ih =>
    rw [List.map_cons, List.nodup_cons] at hnodup
    rcases List.mem_cons.mp h with rfl | hrest
    · have hnone : rest.filter (fun e => decide (e.1 = key)) = [] := by
        refine List.filter_eq_nil_iff.mpr fun e he => ?_
        rw [decide_eq_true_eq]
        exact fun hkey => hnodup.1 (List.mem_map.mpr ⟨e, he, hkey⟩)
      rw [List.filter_cons, if_pos (decide_eq_true rfl), hnone]
    · have hkey : e.1 ≠ key := fun hkey => hnodup.1 (hkey ▸ List.mem_map_of_mem hrest)
      rw [List.filter_cons_of_neg (by rwa [decide_eq_true_eq]), ih hnodup.2 hrest]

theorem erase_eq (key : CacheKey) (entries : List (CacheKey × CacheEntry)) :
    Assoc.erase key entries = entries.filter fun e => !decide (e.1 = key) := by
  simp only [Assoc.erase, ne_eq, decide_not]

/-- What pops one key removes it. -/
theorem discard_eq (h : cache.Accounted) (key : CacheKey) :
    cache.discard key = cache.remove fun e => decide (e.1 = key) := by
  rw [discard]
  split
  next hnone =>
    rw [Assoc.lookup_eq_none_iff] at hnone
    have hkey : ∀ e ∈ cache.entries, e.1 ≠ key :=
      fun e he hkey => hnone (hkey ▸ List.mem_map_of_mem he)
    have hkeep : cache.entries.filter (fun e => !decide (e.1 = key)) = cache.entries :=
      List.filter_eq_self.mpr fun e he => by simp [hkey e he]
    have hdrop : cache.entries.filter (fun e => decide (e.1 = key)) = [] :=
      List.filter_eq_nil_iff.mpr fun e he => by simp [hkey e he]
    simp only [Cache.remove, hkeep, hdrop, List.map_nil, List.sum_nil, sub_zero]
  next entry hentry =>
    have hdrop := filter_key h.nodup (Assoc.mem_of_lookup hentry)
    simp only [Cache.remove, erase_eq, hdrop, List.map_cons, List.map_nil, List.sum_cons,
      List.sum_nil, add_zero]

theorem remove_remove (cache : Cache) (drop also : CacheKey × CacheEntry → Bool) :
    (cache.remove drop).remove also = cache.remove fun e => drop e || also e := by
  have hentries : (cache.entries.filter fun e => !drop e).filter (fun e => !also e) =
      cache.entries.filter fun e => !(drop e || also e) := by
    rw [List.filter_filter]
    exact List.filter_congr fun e _ => by cases drop e <;> cases also e <;> rfl
  have hkeep := sizes_filter drop cache.entries
  have hkeep' := sizes_filter also (cache.entries.filter fun e => !drop e)
  have hboth := sizes_filter (fun e => drop e || also e) cache.entries
  rw [hentries] at hkeep'
  rw [Cache.remove, Cache.remove, Cache.remove, Cache.mk.injEq]
  refine ⟨hentries, ?_⟩
  show cache.bytes - sizes (cache.entries.filter drop) -
    sizes ((cache.entries.filter fun e => !drop e).filter also) =
    cache.bytes - sizes (cache.entries.filter fun e => drop e || also e)
  omega

theorem remove_congr {drop also : CacheKey × CacheEntry → Bool}
    (h : ∀ e ∈ cache.entries, drop e = also e) : cache.remove drop = cache.remove also := by
  have hdrop : cache.entries.filter drop = cache.entries.filter also := List.filter_congr h
  have hkeep : (cache.entries.filter fun e => !drop e) = cache.entries.filter fun e => !also e :=
    List.filter_congr fun e he => by rw [h e he]
  rw [Cache.remove, Cache.remove, hdrop, hkeep]

/-- The loop over the expired keys removes them all. -/
theorem foldl_discard (h : cache.Accounted) (keys : List CacheKey) :
    keys.foldl discard cache = cache.remove fun e => decide (e.1 ∈ keys) := by
  induction keys generalizing cache with
  | nil => simp [Cache.remove]
  | cons key keys ih =>
    rw [List.foldl_cons, discard_eq h, ih (h.remove _), remove_remove]
    refine remove_congr fun e _ => ?_
    rw [← Bool.decide_or, decide_eq_decide, List.mem_cons]

theorem expire_eq (h : cache.Accounted) (now : ℚ) : (cache.expired now).foldl discard cache =
    cache.remove fun e => decide (e.2.expiresAt ≤ now) := by
  rw [foldl_discard h]
  refine remove_congr fun e he => ?_
  rw [decide_eq_decide, expired, List.mem_map]
  constructor
  · rintro ⟨found, hfound, hkey⟩
    obtain ⟨hmem, hexpired⟩ := List.mem_filter.mp hfound
    -- a key has one entry, so the one that is expired is this one
    have hsame : found = e := List.inj_on_of_nodup_map h.nodup hmem he hkey
    exact hsame ▸ of_decide_eq_true hexpired
  · intro hexpired
    exact ⟨e, List.mem_filter.mpr ⟨he, decide_eq_true hexpired⟩, rfl⟩

/-! ### Lookups -/

/-- The block of `_cached` is the lookup of the tasks. -/
theorem cachedBlock_eq (h : cache.Accounted) (key : CacheKey) (now : ℚ) :
    cache.cachedBlock key now = cache.lookup key now := by
  rw [cachedBlock, Cache.lookup, expire_eq h]
  dsimp only
  have hkept := h.remove fun e => decide (e.2.expiresAt ≤ now)
  generalize cache.remove (fun e => decide (e.2.expiresAt ≤ now)) = kept at hkept ⊢
  cases Assoc.lookup key kept.entries with
  | none => rfl
  | some entry =>
    have habsent : key ∉ (Assoc.erase key kept.entries).map Prod.fst := by
      simp [Assoc.erase]
    dsimp only
    rw [Assoc.insert_not_mem entry habsent, erase_eq]
    rfl

theorem Within.lookup (h : cache.Within maxEntries maxBytes) (key : CacheKey) (now : ℚ) :
    (cache.lookup key now).2.Within maxEntries maxBytes := by
  have hkept := h.remove fun e => decide (e.2.expiresAt ≤ now)
  rw [Cache.lookup]
  dsimp only
  generalize cache.remove (fun e => decide (e.2.expiresAt ≤ now)) = kept at hkept ⊢
  split
  · exact hkept
  next entry hentry =>
    -- the entry only moves to the end
    have hmoved : (kept.entries.filter (fun e => !decide (e.1 = key)) ++ [(key, entry)]).Perm
        kept.entries := by
      have hone := filter_key hkept.nodup (Assoc.mem_of_lookup hentry)
      rw [← hone]
      exact List.perm_append_comm.trans (List.filter_append_perm _ _)
    exact
      { nodup := (hmoved.map _).nodup_iff.mpr hkept.nodup
        total := hkept.total.trans (sizes_perm hmoved).symm
        bytes_le := hkept.bytes_le
        entries_le := hmoved.length_eq.trans_le hkept.entries_le }

/-! ### Eviction -/

/-- Once the loop has ended, more rounds change nothing. -/
theorem evictLoop_add {rounds : Nat} {result : Except String Cache}
    (h : evictLoop maxEntries maxBytes rounds cache = some result) (more : Nat) :
    evictLoop maxEntries maxBytes (rounds + more) cache = some result := by
  induction rounds generalizing cache with
  | zero => cases h
  | succ rounds ih =>
    rw [evictLoop] at h
    rw [Nat.succ_add, evictLoop]
    split at h
    next hcut =>
      rw [if_pos hcut]
      cases hpop : cache.popOldest with
      | error e => rwa [hpop] at h
      | ok popped =>
        rw [hpop] at h
        exact ih h
    next hkeep => rwa [if_neg hkeep]

/-- One round for each entry and one for the last test are enough, and none of them raises. -/
theorem evictLoop_eq {entries : List (CacheKey × CacheEntry)} {bytes : Int} {rounds : Nat}
    (htotal : bytes = sizes entries) (hrounds : entries.length < rounds) :
    evictLoop maxEntries maxBytes rounds ⟨entries, bytes⟩ =
      some (.ok (evict maxEntries maxBytes entries bytes)) := by
  induction entries generalizing bytes rounds with
  | nil =>
    obtain ⟨rounds, rfl⟩ := Nat.exists_eq_add_of_lt hrounds
    have hstop : ¬(([] : List (CacheKey × CacheEntry)).length > maxEntries ∨ bytes > maxBytes) := by
      rw [htotal, sizes_nil, List.length_nil]
      omega
    rw [show [].length + rounds + 1 = (0 + rounds) + 1 from rfl, evictLoop, if_neg hstop, evict]
  | cons e rest ih =>
    obtain ⟨rounds, rfl⟩ : ∃ n, rounds = n + 1 := ⟨rounds - 1, by omega⟩
    rw [evictLoop, evict]
    dsimp only [List.length_cons]
    by_cases hcut : rest.length + 1 > maxEntries ∨ bytes > maxBytes
    · rw [if_pos hcut, if_pos hcut]
      have hrest : bytes - e.2.estimatedBytes = sizes rest := by
        rw [htotal, sizes_cons]
        omega
      exact ih hrest (Nat.lt_of_succ_lt_succ hrounds)
    · rw [if_neg hcut, if_neg hcut]

theorem evict_within {entries : List (CacheKey × CacheEntry)} {bytes : Int}
    (h : Accounted ⟨entries, bytes⟩) : (evict maxEntries maxBytes entries bytes).Within maxEntries maxBytes := by
  induction entries generalizing bytes with
  | nil =>
    have htotal : bytes = 0 := h.total
    rw [evict, htotal]
    exact within_fresh maxEntries maxBytes
  | cons e rest ih =>
    rw [evict]
    split
    · refine ih ⟨(List.nodup_cons.mp h.nodup).2, ?_⟩
      have htotal : bytes = sizes (e :: rest) := h.total
      rw [sizes_cons] at htotal
      show bytes - e.2.estimatedBytes = sizes rest
      omega
    next hkeep =>
      rw [not_or, not_lt, not_lt] at hkeep
      exact { toAccounted := h, bytes_le := hkeep.2, entries_le := hkeep.1 }

theorem evict_suffix (entries : List (CacheKey × CacheEntry)) (bytes : Int) :
    (evict maxEntries maxBytes entries bytes).entries <:+ entries := by
  induction entries generalizing bytes with
  | nil => exact List.suffix_refl []
  | cons e rest ih =>
    rw [evict]
    split
    · exact (ih _).trans (List.suffix_cons e rest)
    · exact List.suffix_refl _

/-! ### Insertions -/

theorem Accounted.append (h : cache.Accounted) {key : CacheKey} (entry : CacheEntry)
    (hkey : key ∉ cache.entries.map Prod.fst) : (cache.append key entry).Accounted where
  nodup := by
    rw [Cache.append, List.map_append]
    refine h.nodup.append (List.nodup_singleton key) fun k hk hk' => ?_
    rw [List.map_cons, List.map_nil, List.mem_singleton] at hk'
    subst hk'
    exact hkey hk
  total := by
    show cache.bytes + entry.estimatedBytes = sizes (cache.entries ++ [(key, entry)])
    rw [sizes_append, sizes_cons, sizes_nil, add_zero, h.total]

theorem Accounted.replace (h : cache.Accounted) (key : CacheKey) (entry : CacheEntry) :
    ((cache.remove fun e => decide (e.1 = key)).append key entry).Accounted := by
  refine (h.remove _).append entry ?_
  simp [Cache.remove]

theorem Within.store (h : cache.Accounted) (key : CacheKey) (entry : CacheEntry) :
    (cache.store maxEntries maxBytes key entry).Within maxEntries maxBytes :=
  evict_within (h.replace key entry)

/-- The block of `_store_cached` ends, and is the insertion of the tasks. -/
theorem storeBlock_eq (h : cache.Accounted) (key : CacheKey) (entry : CacheEntry) {rounds : Nat}
    (hrounds : cache.entries.length + 1 < rounds) :
    cache.storeBlock maxEntries maxBytes rounds key entry =
      some (.ok (cache.store maxEntries maxBytes key entry)) := by
  have habsent : key ∉ (cache.remove fun e => decide (e.1 = key)).entries.map Prod.fst := by
    simp [Cache.remove]
  rw [storeBlock, discard_eq h, Assoc.insert_not_mem entry habsent]
  refine evictLoop_eq (h.replace key entry).total ?_
  rw [List.length_append, List.length_singleton]
  exact (Nat.succ_le_succ (List.length_filter_le _ _)).trans_lt hrounds

/-- An entry larger than the cache may be goes out with everything before it. -/
theorem store_oversized (h : cache.Accounted) (key : CacheKey) {entry : CacheEntry}
    (hsize : maxBytes < entry.estimatedBytes) : cache.store maxEntries maxBytes key entry = {} := by
  have hwithin : (cache.store maxEntries maxBytes key entry).Within maxEntries maxBytes :=
    Within.store h key entry
  have hsuffix : (cache.store maxEntries maxBytes key entry).entries <:+
      (cache.remove fun e => decide (e.1 = key)).entries ++ [(key, entry)] := evict_suffix _ _
  generalize cache.store maxEntries maxBytes key entry = stored at hwithin hsuffix ⊢
  rcases List.eq_nil_or_concat stored.entries with hnil | ⟨front, last, hlast⟩
  · have htotal := hwithin.total
    rw [hnil, sizes_nil] at htotal
    cases stored
    cases hnil
    cases htotal
    rfl
  · -- the newest entry would be kept, and it alone is too large
    exfalso
    have hmem : (key, entry) ∈ stored.entries := by
      obtain ⟨before, hbefore⟩ := hsuffix
      rw [hlast, List.concat_eq_append, ← List.append_assoc] at hbefore
      obtain rfl := List.singleton_inj.mp (List.append_inj' hbefore rfl).2
      rw [hlast, List.concat_eq_append]
      exact List.mem_append_right front (List.mem_singleton_self _)
    have hle := le_sizes hmem
    have hbytes := hwithin.bytes_le
    rw [hwithin.total] at hbytes
    dsimp only at hle
    omega

/-! ### Every reachable cache -/

theorem Reaches.within (h : Reaches maxEntries maxBytes cache) : cache.Within maxEntries maxBytes := by
  induction h with
  | fresh => exact within_fresh maxEntries maxBytes
  | cached h key now ih =>
    rw [cachedBlock_eq ih.toAccounted]
    exact ih.lookup key now
  | @stored cache cache' h key entry rounds hstore ih =>
    have hmore := evictLoop_add hstore (cache.entries.length + 2)
    have hends : cache.storeBlock maxEntries maxBytes (rounds + (cache.entries.length + 2)) key entry =
        some (.ok (cache.store maxEntries maxBytes key entry)) :=
      storeBlock_eq ih.toAccounted key entry (by omega)
    rw [storeBlock] at hends
    cases hmore.symm.trans hends
    exact Within.store ih.toAccounted key entry

end Cache

namespace OsqueryAdapter

/-- In every reachable cache of an adapter the running total is the sum of the sizes and both limits
hold; and an insertion ends after one round more than there are entries, whatever is inserted. -/
theorem cache_accounting (adapter : OsqueryAdapter) {cache : Cache}
    (h : Cache.Reaches adapter.maxCacheEntries adapter.maxCacheBytes cache) :
    (cache.bytes = sizes cache.entries ∧ cache.bytes ≤ adapter.maxCacheBytes ∧
      cache.entries.length ≤ adapter.maxCacheEntries) ∧
    ∀ key entry, ∃ cache', Cache.Reaches adapter.maxCacheEntries adapter.maxCacheBytes cache' ∧
      (∀ rounds > cache.entries.length + 1, cache.storeBlock adapter.maxCacheEntries
        adapter.maxCacheBytes rounds key entry = some (.ok cache')) ∧
      (adapter.maxCacheBytes < entry.estimatedBytes → cache' = {}) := by
  have hwithin := h.within
  refine ⟨⟨hwithin.total, hwithin.bytes_le, hwithin.entries_le⟩, fun key entry => ?_⟩
  have hends : ∀ rounds > cache.entries.length + 1, cache.storeBlock adapter.maxCacheEntries
      adapter.maxCacheBytes rounds key entry =
        some (.ok (cache.store adapter.maxCacheEntries adapter.maxCacheBytes key entry)) :=
    fun rounds hrounds => Cache.storeBlock_eq hwithin.toAccounted key entry hrounds
  exact ⟨_, h.stored key entry _ (hends _ (Nat.lt_succ_self _)), hends,
    fun hsize => Cache.store_oversized hwithin.toAccounted key hsize⟩

def sampleEntry (estimatedBytes : Nat) : CacheEntry where
  expiresAt := 60
  estimatedBytes := estimatedBytes
  execution := { status := .success }

/-- An entry larger than the cache goes out with the one before it. -/
theorem cache_accounting_oversized : ∃ cache',
    (Cache.storeBlock 64 (16 * 1024 * 1024) 3 ("hours:SELECT 3", "osqueryi") (sampleEntry 20000000)
      { entries := [(("days:SELECT 3", "osqueryi"), sampleEntry 512)], bytes := 512 }) =
        some (.ok cache') ∧ cache' = {} := by
  have hfirst : Cache.storeBlock 64 (16 * 1024 * 1024) 2 ("days:SELECT 3", "osqueryi")
      (sampleEntry 512) {} =
        some (.ok { entries := [(("days:SELECT 3", "osqueryi"), sampleEntry 512)], bytes := 512 }) := by
    simp [Cache.storeBlock, Cache.discard, Cache.evictLoop, Assoc.insert, sampleEntry]
  obtain ⟨cache', -, hends, hempty⟩ := (cache_accounting (sampleAdapter "hours" hours_valid)
    (Cache.Reaches.fresh.stored _ _ 2 hfirst)).2 ("hours:SELECT 3", "osqueryi") (sampleEntry 20000000)
  exact ⟨cache', hends 3 (by decide), hempty (by decide)⟩

/-- A cache that calls of an adapter lead to is one that the blocks lead to. -/
theorem reaches_step (adapter : OsqueryAdapter) (env : ∀ op, Answer op → Prop) {op : Op}
    {cache cache' : Cache} {answer : Answer op}
    (hcache : Cache.Reaches adapter.maxCacheEntries adapter.maxCacheBytes cache)
    (h : adapter.step env op cache answer cache') :
    Cache.Reaches adapter.maxCacheEntries adapter.maxCacheBytes cache' := by
  have haccounted := hcache.within.toAccounted
  cases op with
  | lookup key now =>
    have hcached := hcache.cached key now
    rw [Cache.cachedBlock_eq haccounted] at hcached
    rwa [show cache.lookup key now = (answer, cache') from h] at hcached
  | store key entry =>
    cases h
    exact hcache.stored key entry _ (Cache.storeBlock_eq haccounted key entry (Nat.lt_succ_self _))
  | find => exact h.2 ▸ hcache
  | fingerprint executable => exact h.2 ▸ hcache
  | clock => exact h.2 ▸ hcache
  | run executable sql timeout => exact h.2 ▸ hcache

theorem reaches_run {adapter : OsqueryAdapter} {env : ∀ op, Answer op → Prop}
    {queryIds : List String} {timeoutSeconds deadlineAt : Option ℚ} {cache cache' : Cache}
    {result : Except String (List (String × Execution))}
    (hcache : Cache.Reaches adapter.maxCacheEntries adapter.maxCacheBytes cache)
    (h : adapter.RunRegistered env queryIds timeoutSeconds deadlineAt cache result cache') :
    Cache.Reaches adapter.maxCacheEntries adapter.maxCacheBytes cache' := by
  have hstep : ∀ op cache answer cache',
      Cache.Reaches adapter.maxCacheEntries adapter.maxCacheBytes cache →
      adapter.step env op cache answer cache' →
      Cache.Reaches adapter.maxCacheEntries adapter.maxCacheBytes cache' :=
    fun _ _ _ _ hcache h => adapter.reaches_step env hcache h
  cases h with
  | raised hprepare => exact hprepare.keeps hstep hcache
  | finished hprepare => exact hprepare.keeps hstep hcache
  | sequential hprepare hworkers hunits => exact hunits.keeps hstep (hprepare.keeps hstep hcache)
  | concurrent hprepare hworkers hunits => exact hunits.keeps hstep (hprepare.keeps hstep hcache)

/-- Calls of `run_registered` in any number leave the cache accounted for and within its limits. -/
theorem lifetime_within {adapter : OsqueryAdapter} {env : ∀ op, Answer op → Prop} {cache : Cache}
    (h : adapter.Lifetime env cache) :
    cache.Within adapter.maxCacheEntries adapter.maxCacheBytes := by
  refine Cache.Reaches.within ?_
  induction h with
  | fresh => exact .fresh
  | call _ hrun ih => exact reaches_run ih hrun

end OsqueryAdapter

end OsScanner.Tools

import Mathlib.Data.List.Sort
import Animaksm.Lib.FiniteMap
import Animaksm.Proxy.Bloom

/-!
# Deduplication table

The table maps page fingerprints to backend slots, with reference counts in
wrapping `u32` arithmetic and metadata eviction in least-recently-used order.
Each operation returns its answer with the next table. An eviction forgets the
fingerprint only: the slot stays with the single translation that uses it.
-/

namespace Animaksm.Proxy

/-- An entry in the dedup table. -/
structure DedupEntry where
  /-- Number of pages referencing this stored copy. -/
  refCount : UInt32
  /-- Slot in the backend storage. -/
  backendOffset : Nat
  /-- First 64 bytes of the page for collision verification. -/
  prefixBytes : List UInt8
  deriving DecidableEq

/-- Result of a dedup table lookup. -/
inductive LookupResult where
  | miss
  | duplicate (backendOffset : Nat)
  deriving DecidableEq

/-- Result of removing a dedup-table reference. -/
inductive ReferenceRemoval where
  | stillReferenced
  | removed (backendOffset : Nat)
  | notTracked
  deriving DecidableEq

/-- The concurrent deduplication table. -/
structure DedupTable where
  /-- Primary fingerprint to entry mapping. -/
  map : Finmap fun _ : Fingerprint => DedupEntry
  /-- Bloom filter for fast rejection. -/
  bloom : BloomFilter
  /-- Maximum number of entries. -/
  maxEntries : Nat
  /-- Last access tick of each fingerprint. -/
  lru : List (Fingerprint × UInt64)
  uniquePages : UInt64
  duplicateHits : UInt64
  bloomFalsePositives : UInt64
  evictions : UInt64
  /-- Monotonic tick for LRU ordering. -/
  tick : UInt64

/-- An empty table. -/
def DedupTable.new (maxEntries bloomCapacity : Nat) : DedupTable where
  map := ∅
  bloom := .new bloomCapacity
  maxEntries := maxEntries
  lru := []
  uniquePages := 0
  duplicateHits := 0
  bloomFalsePositives := 0
  evictions := 0
  tick := 0

/-- Number of tracked fingerprints. -/
def DedupTable.len (t : DedupTable) : Nat := t.map.keys.card

/-- Look up a page by fingerprint, with the Bloom pre-check and the prefix comparison. -/
def DedupTable.lookup (t : DedupTable) (fp : Fingerprint) (pageData : List UInt8) :
    LookupResult × DedupTable :=
  if t.bloom.mightContain fp then
    match t.map.lookup fp with
    | some entry =>
      if verifyPagePrefix entry.prefixBytes pageData then
        (.duplicate entry.backendOffset, { t with duplicateHits := t.duplicateHits + 1 })
      else (.miss, { t with bloomFalsePositives := t.bloomFalsePositives + 1 })
    | none => (.miss, { t with bloomFalsePositives := t.bloomFalsePositives + 1 })
  else (.miss, t)

/-- Untrack the first candidate that has at most one reference. -/
def DedupTable.evictFirst (t : DedupTable) : List Fingerprint → Bool × DedupTable
  | [] => (false, t)
  | fp :: rest =>
    match t.map.lookup fp with
    | some entry =>
      if entry.refCount ≤ 1 then
        (true, { t with
          map := t.map.erase fp
          evictions := t.evictions + 1
          lru := t.lru.filter fun item => item.1 ≠ fp })
      else t.evictFirst rest
    | none => t.evictFirst rest

/-- Evict the least-recently-used metadata entry that has a single reference. -/
def DedupTable.evictLruMetadata (t : DedupTable) : Bool × DedupTable :=
  if t.lru.isEmpty then (false, t)
  else
    let sorted := t.lru.insertionSort fun a b => a.2 ≤ b.2
    { t with lru := sorted }.evictFirst (sorted.map Prod.fst)

/-- Enter a new page under its fingerprint, with one reference. -/
def DedupTable.track (t : DedupTable) (fp : Fingerprint) (pageData : List UInt8)
    (backendOffset : Nat) : DedupTable :=
  { t with
    map := t.map.insert fp ⟨1, backendOffset, pagePrefix pageData⟩
    bloom := t.bloom.insert fp
    uniquePages := t.uniquePages + 1
    lru := t.lru ++ [(fp, t.tick)]
    tick := t.tick + 1 }

/-- The section of `insert` that enters the fingerprint; it replaces an entry that is there. -/
def DedupTable.mapInsert (t : DedupTable) (fp : Fingerprint) (pageData : List UInt8)
    (backendOffset : Nat) : DedupTable :=
  { t with map := t.map.insert fp ⟨1, backendOffset, pagePrefix pageData⟩ }

/-- Insert a new unique page. The answer is false when the fingerprint is taken, or
when the table is full and nothing can be evicted. -/
def DedupTable.insert (t : DedupTable) (fp : Fingerprint) (pageData : List UInt8)
    (backendOffset : Nat) : Bool × DedupTable :=
  if (t.map.lookup fp).isSome then (false, t)
  else if t.maxEntries ≤ t.len then
    match t.evictLruMetadata with
    | (false, t') => (false, t')
    | (true, t') => (true, t'.track fp pageData backendOffset)
  else (true, t.track fp pageData backendOffset)

/-- Refresh the tick of the first record of a fingerprint. -/
def touch (fp : Fingerprint) (tick : UInt64) :
    List (Fingerprint × UInt64) → List (Fingerprint × UInt64)
  | [] => []
  | item :: rest => if item.1 = fp then (item.1, tick) :: rest else item :: touch fp tick rest

/-- Increment the reference count for a page. -/
def DedupTable.addReference (t : DedupTable) (fp : Fingerprint) : Bool × DedupTable :=
  match t.map.lookup fp with
  | some entry =>
    (true, { t with
      map := t.map.insert fp { entry with refCount := entry.refCount + 1 }
      lru := touch fp t.tick t.lru
      tick := t.tick + 1 })
  | none => (false, t)

/-- Decrement the reference count for a page, dropping the entry with its last reference. -/
def DedupTable.removeReference (t : DedupTable) (fp : Fingerprint) :
    ReferenceRemoval × DedupTable :=
  match t.map.lookup fp with
  | some entry =>
    if entry.refCount ≤ 1 then
      (.removed entry.backendOffset, { t with
        map := t.map.erase fp
        lru := t.lru.filter fun item => item.1 ≠ fp })
    else
      (.stillReferenced, { t with
        map := t.map.insert fp { entry with refCount := entry.refCount - 1 } })
  | none => (.notTracked, t)

/-! ## What each operation can do to the tracked fingerprints -/

/-- A tracked page has one more reference; apart from that only the recency records change. -/
theorem DedupTable.addReference_of_tracked {t : DedupTable} {fp : Fingerprint}
    {entry : DedupEntry} (h : t.map.lookup fp = some entry) :
    ∃ lru tick, t.addReference fp = (true, { t with
      map := t.map.insert fp { entry with refCount := entry.refCount + 1 }
      lru := lru
      tick := tick }) := by
  rw [addReference, h]
  exact ⟨_, _, rfl⟩

/-- A lookup only counts. -/
theorem DedupTable.lookup_frame (t : DedupTable) (fp : Fingerprint) (data : List UInt8) :
    ∃ hits misses, (t.lookup fp data).2 =
      { t with duplicateHits := hits, bloomFalsePositives := misses } := by
  unfold lookup
  split
  · split
    · split <;> exact ⟨_, _, rfl⟩
    · exact ⟨_, _, rfl⟩
  · exact ⟨_, _, rfl⟩

@[simp] theorem DedupTable.map_lookup (t : DedupTable) (fp : Fingerprint) (data : List UInt8) :
    (t.lookup fp data).2.map = t.map := by
  obtain ⟨_, _, h⟩ := t.lookup_frame fp data
  rw [h]

@[simp] theorem DedupTable.bloom_lookup (t : DedupTable) (fp : Fingerprint) (data : List UInt8) :
    (t.lookup fp data).2.bloom = t.bloom := by
  obtain ⟨_, _, h⟩ := t.lookup_frame fp data
  rw [h]

@[simp] theorem DedupTable.maxEntries_lookup (t : DedupTable) (fp : Fingerprint)
    (data : List UInt8) : (t.lookup fp data).2.maxEntries = t.maxEntries := by
  obtain ⟨_, _, h⟩ := t.lookup_frame fp data
  rw [h]

@[simp] theorem DedupTable.evictions_lookup (t : DedupTable) (fp : Fingerprint)
    (data : List UInt8) : (t.lookup fp data).2.evictions = t.evictions := by
  obtain ⟨_, _, h⟩ := t.lookup_frame fp data
  rw [h]

/-- A reported duplicate names the slot its fingerprint is tracked at. -/
theorem DedupTable.lookup_duplicate {t : DedupTable} {fp : Fingerprint} {data : List UInt8}
    {slot : Nat} (h : (t.lookup fp data).1 = .duplicate slot) :
    ∃ entry, t.map.lookup fp = some entry ∧ entry.backendOffset = slot := by
  unfold lookup at h
  split at h
  · split at h
    · next entry he =>
      split at h
      · cases h
        exact ⟨entry, he, rfl⟩
      · cases h
    · cases h
  · cases h

/-- A tracked fingerprint that the filter knows and whose prefix agrees is reported. -/
theorem DedupTable.lookup_of_tracked {t : DedupTable} {fp : Fingerprint} {data : List UInt8}
    {entry : DedupEntry} (hb : t.bloom.mightContain fp = true) (he : t.map.lookup fp = some entry)
    (hv : verifyPagePrefix entry.prefixBytes data = true) :
    (t.lookup fp data).1 = .duplicate entry.backendOffset := by
  simp [lookup, hb, he, hv]

/-- The fingerprint is not tracked with at most one reference. -/
def DedupTable.Pinned (t : DedupTable) (fp : Fingerprint) : Prop :=
  ∀ entry, t.map.lookup fp = some entry → 1 < entry.refCount

/-- Eviction either drops the first candidate that is not pinned and counts it, or changes nothing
that is tracked. -/
theorem DedupTable.evictFirst_cases (t : DedupTable) (candidates : List Fingerprint) :
    (∃ before fp after entry, candidates = before ++ fp :: after ∧ (∀ c ∈ before, t.Pinned c) ∧
      t.map.lookup fp = some entry ∧ entry.refCount ≤ 1 ∧
      t.evictFirst candidates = (true, { t with
        map := t.map.erase fp
        evictions := t.evictions + 1
        lru := t.lru.filter fun item => item.1 ≠ fp })) ∨
    (∀ c ∈ candidates, t.Pinned c) ∧ t.evictFirst candidates = (false, t) := by
  induction candidates with
  | nil => exact Or.inr ⟨fun c hc => absurd hc List.not_mem_nil, rfl⟩
  | cons fp rest ih =>
    have hlater : t.Pinned fp → t.evictFirst (fp :: rest) = t.evictFirst rest →
        (∃ before fp' after entry, fp :: rest = before ++ fp' :: after ∧
          (∀ c ∈ before, t.Pinned c) ∧ t.map.lookup fp' = some entry ∧ entry.refCount ≤ 1 ∧
          t.evictFirst (fp :: rest) = (true, { t with
            map := t.map.erase fp'
            evictions := t.evictions + 1
            lru := t.lru.filter fun item => item.1 ≠ fp' })) ∨
        (∀ c ∈ fp :: rest, t.Pinned c) ∧ t.evictFirst (fp :: rest) = (false, t) := by
      intro hpinned hevict
      rw [hevict]
      rcases ih with ⟨before, fp', after, entry, rfl, hbefore, hfound⟩ | ⟨hall, hnone⟩
      · refine Or.inl ⟨fp :: before, fp', after, entry, rfl, ?_, hfound⟩
        exact List.forall_mem_cons.mpr ⟨hpinned, hbefore⟩
      · exact Or.inr ⟨List.forall_mem_cons.mpr ⟨hpinned, hall⟩, hnone⟩
    cases hfp : t.map.lookup fp with
    | none =>
      refine hlater (fun entry hentry => nomatch hfp.symm.trans hentry) ?_
      rw [evictFirst, hfp]
    | some entry =>
      by_cases hr : entry.refCount ≤ 1
      · refine Or.inl ⟨[], fp, rest, entry, rfl, fun c hc => absurd hc List.not_mem_nil, hfp, hr, ?_⟩
        rw [evictFirst, hfp]
        exact if_pos hr
      · refine hlater (fun e he => ?_) ?_
        · cases hfp.symm.trans he
          exact UInt32.not_le.mp hr
        · rw [evictFirst, hfp]
          exact if_neg hr

/-- The same, for a whole eviction: the record order may change in either case. -/
theorem DedupTable.evictLruMetadata_cases (t : DedupTable) :
    (∃ fp entry lru, t.map.lookup fp = some entry ∧ entry.refCount ≤ 1 ∧
      t.evictLruMetadata = (true, { t with
        map := t.map.erase fp, evictions := t.evictions + 1, lru := lru })) ∨
    ∃ lru, t.evictLruMetadata = (false, { t with lru := lru }) := by
  unfold evictLruMetadata
  split
  · exact Or.inr ⟨t.lru, rfl⟩
  · rcases evictFirst_cases { t with lru := t.lru.insertionSort fun a b => a.2 ≤ b.2 }
      ((t.lru.insertionSort fun a b => a.2 ≤ b.2).map Prod.fst) with
      ⟨-, fp, -, entry, -, -, he, hr, h⟩ | ⟨-, h⟩
    · exact Or.inl ⟨fp, entry, _, he, hr, h⟩
    · exact Or.inr ⟨_, h⟩

/-- A refused insertion tracks exactly what was tracked. -/
theorem DedupTable.insert_false {t : DedupTable} {fp : Fingerprint} {data : List UInt8}
    {slot : Nat} (h : (t.insert fp data slot).1 = false) :
    ∃ lru, (t.insert fp data slot).2 = { t with lru := lru } := by
  unfold insert at h ⊢
  split
  · exact ⟨t.lru, rfl⟩
  · next hfp =>
    simp only [hfp, Bool.false_eq_true, if_false] at h
    split
    · next hfull =>
      rw [if_pos hfull] at h
      rcases t.evictLruMetadata_cases with ⟨_, _, lru, _, _, he⟩ | ⟨lru, he⟩
      · simp [he] at h
      · exact ⟨lru, by rw [he]⟩
    · next hroom => simp [hroom] at h

/-- An accepted insertion tracks a new fingerprint, with at most one singly
referenced fingerprint dropped before it. -/
theorem DedupTable.insert_true {t : DedupTable} {fp : Fingerprint} {data : List UInt8}
    {slot : Nat} (h : (t.insert fp data slot).1 = true) :
    t.map.lookup fp = none ∧
      ((t.len < t.maxEntries ∧ (t.insert fp data slot).2 = t.track fp data slot) ∨
      ∃ old entry lru, t.maxEntries ≤ t.len ∧ t.map.lookup old = some entry ∧
        entry.refCount ≤ 1 ∧ (t.insert fp data slot).2 =
          { t with map := t.map.erase old, evictions := t.evictions + 1, lru := lru }.track
            fp data slot) := by
  unfold insert at h ⊢
  split at h
  · cases h
  · next hfp =>
    refine ⟨by simpa using hfp, ?_⟩
    split at h
    · next hfull =>
      rcases t.evictLruMetadata_cases with ⟨old, entry, lru, ho, hr, he⟩ | ⟨lru, he⟩
      · refine Or.inr ⟨old, entry, lru, hfull, ho, hr, ?_⟩
        simp [hfp, hfull, he]
      · simp [he] at h
    · next hroom =>
      refine Or.inl ⟨by omega, ?_⟩
      simp [hfp, hroom]

private theorem DedupTable.evictFirst_recount (t : DedupTable) (hits misses : UInt64)
    (candidates : List Fingerprint) :
    { t with duplicateHits := hits, bloomFalsePositives := misses }.evictFirst candidates =
      ((t.evictFirst candidates).1, { (t.evictFirst candidates).2 with
        duplicateHits := hits, bloomFalsePositives := misses }) := by
  induction candidates with
  | nil => rfl
  | cons fp rest ih =>
    unfold evictFirst
    cases t.map.lookup fp with
    | none => exact ih
    | some entry =>
      by_cases hr : entry.refCount ≤ 1
      · simp only [hr, if_true]
      · simpa only [hr, if_false] using ih

/-- Insertions do not depend on the lookup counters. -/
theorem DedupTable.insert_recount (t : DedupTable) (hits misses : UInt64) (fp : Fingerprint)
    (data : List UInt8) (slot : Nat) :
    { t with duplicateHits := hits, bloomFalsePositives := misses }.insert fp data slot =
      ((t.insert fp data slot).1, { (t.insert fp data slot).2 with
        duplicateHits := hits, bloomFalsePositives := misses }) := by
  have hevict : { t with duplicateHits := hits, bloomFalsePositives := misses }.evictLruMetadata =
      (t.evictLruMetadata.1, { t.evictLruMetadata.2 with
        duplicateHits := hits, bloomFalsePositives := misses }) := by
    unfold evictLruMetadata
    dsimp only
    split
    · rfl
    · exact evictFirst_recount { t with lru := t.lru.insertionSort fun a b => a.2 ≤ b.2 } hits misses _
  unfold insert
  rw [hevict]
  dsimp only [len]
  by_cases hfp : (t.map.lookup fp).isSome = true
  · simp only [hfp, if_true]
  by_cases hfull : t.maxEntries ≤ t.map.keys.card
  · rcases t.evictLruMetadata with ⟨_ | _, t'⟩ <;> simp only [hfp, hfull, if_true] <;> rfl
  · simp only [hfp, hfull, if_false]
    rfl

/-- Insertions with room to spare are only refused for a taken fingerprint. -/
theorem DedupTable.insert_of_room {t : DedupTable} {fp : Fingerprint} (data : List UInt8)
    (slot : Nat) (hfp : t.map.lookup fp = none) (hroom : t.len < t.maxEntries) :
    t.insert fp data slot = (true, t.track fp data slot) := by
  simp [insert, hfp, show ¬ t.maxEntries ≤ t.len by omega]

end Animaksm.Proxy

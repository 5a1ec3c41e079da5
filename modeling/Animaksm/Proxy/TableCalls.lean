import Animaksm.Lib.Run
import Animaksm.Proxy.Dedup

/-!
# Calls to the deduplication table

A table serves one call after the other. The Bloom filter has seen every tracked
fingerprint, and bits are only ever set, so consulting the filter before the map
changes no answer.
-/

namespace Animaksm.Proxy

/-- A call to the dedup table. -/
inductive TableCall where
  | lookup (fp : Fingerprint) (pageData : List UInt8)
  | insert (fp : Fingerprint) (pageData : List UInt8) (backendOffset : Nat)
  | addReference (fp : Fingerprint)
  | removeReference (fp : Fingerprint)

namespace DedupTable

/-- The table after a call. -/
def call (t : DedupTable) : TableCall → DedupTable
  | .lookup fp pageData => (t.lookup fp pageData).2
  | .insert fp pageData backendOffset => (t.insert fp pageData backendOffset).2
  | .addReference fp => (t.addReference fp).2
  | .removeReference fp => (t.removeReference fp).2

/-- The answer of a lookup that consults the map without the filter. -/
def lookupMap (t : DedupTable) (fp : Fingerprint) (pageData : List UInt8) : LookupResult :=
  match t.map.lookup fp with
  | some entry =>
    if verifyPagePrefix entry.prefixBytes pageData then .duplicate entry.backendOffset else .miss
  | none => .miss

/-- The filter reports every tracked fingerprint. -/
def Reported (t : DedupTable) : Prop :=
  ∀ fp entry, t.map.lookup fp = some entry → t.bloom.mightContain fp = true

variable {t : DedupTable} {fp : Fingerprint}

/-- Where the filter reports what is tracked, it changes no answer. -/
theorem Reported.lookup_eq (h : t.Reported) (fp : Fingerprint) (pageData : List UInt8) :
    (t.lookup fp pageData).1 = t.lookupMap fp pageData := by
  rw [lookup, lookupMap]
  cases hfp : t.map.lookup fp with
  | none =>
    dsimp only
    split
    · rfl
    · rfl
  | some entry =>
    rw [if_pos (h fp entry hfp)]
    dsimp only
    split
    · rfl
    · rfl

/-- Fewer tracked fingerprints are still reported. -/
theorem Reported.of_tracked {t' : DedupTable} (h : t.Reported) (hbloom : t'.bloom = t.bloom)
    (hmap : ∀ fp entry, t'.map.lookup fp = some entry → ∃ entry, t.map.lookup fp = some entry) :
    t'.Reported := by
  intro fp entry hfp
  obtain ⟨entry, hentry⟩ := hmap fp entry hfp
  rw [hbloom]
  exact h fp entry hentry

theorem Reported.erase (h : t.Reported) (old : Fingerprint) (lru : List (Fingerprint × UInt64))
    (evictions : UInt64) :
    ({ t with map := t.map.erase old, lru := lru, evictions := evictions } : DedupTable).Reported := by
  refine h.of_tracked rfl fun fp entry hfp => ?_
  dsimp only at hfp
  rw [Finmap.lookup_erase_eq] at hfp
  split at hfp
  · cases hfp
  · exact ⟨entry, hfp⟩

/-- A changed entry is as tracked as before. -/
theorem Reported.update (h : t.Reported) {entry : DedupEntry} (hfp : t.map.lookup fp = some entry)
    (entry' : DedupEntry) (lru : List (Fingerprint × UInt64)) (tick : UInt64) :
    ({ t with map := t.map.insert fp entry', lru := lru, tick := tick } : DedupTable).Reported := by
  refine h.of_tracked rfl fun other e hother => ?_
  dsimp only at hother
  rw [Finmap.lookup_insert_eq] at hother
  split at hother
  next heq => exact ⟨entry, heq ▸ hfp⟩
  next => exact ⟨e, hother⟩

/-- A new fingerprint is entered in the filter too. -/
theorem Reported.track (h : t.Reported) (fp : Fingerprint) (pageData : List UInt8) (slot : Nat) :
    (t.track fp pageData slot).Reported := by
  intro other entry hother
  rw [DedupTable.track] at hother ⊢
  dsimp only at hother ⊢
  rw [Finmap.lookup_insert_eq] at hother
  split at hother
  next heq =>
    rw [heq]
    exact t.bloom.mightContain_insert fp
  next => exact BloomFilter.mightContain_insert_of_mightContain fp (h other entry hother)

/-- Every call keeps the tracked fingerprints reported. -/
theorem Reported.call (h : t.Reported) (c : TableCall) : (t.call c).Reported := by
  cases c with
  | lookup fp pageData =>
    exact h.of_tracked (t.bloom_lookup fp pageData) fun other entry hother =>
      ⟨entry, by rw [← t.map_lookup fp pageData]; exact hother⟩
  | insert fp pageData slot =>
    rw [DedupTable.call]
    cases hanswer : (t.insert fp pageData slot).1 with
    | false =>
      obtain ⟨lru, hinsert⟩ := insert_false hanswer
      rw [hinsert]
      exact h
    | true =>
      obtain ⟨-, ⟨-, hinsert⟩ | ⟨old, entry, lru, -, -, -, hinsert⟩⟩ := insert_true hanswer
      · rw [hinsert]
        exact h.track fp pageData slot
      · rw [hinsert]
        exact (h.erase old lru (t.evictions + 1)).track fp pageData slot
  | addReference fp =>
    rw [DedupTable.call, DedupTable.addReference]
    cases hfp : t.map.lookup fp with
    | none => exact h
    | some entry => exact h.update hfp _ _ _
  | removeReference fp =>
    rw [DedupTable.call, DedupTable.removeReference]
    cases hfp : t.map.lookup fp with
    | none => exact h
    | some entry =>
      dsimp only
      split
      · exact h.erase fp _ _
      · exact h.update hfp _ _ _

/-- After any calls a lookup answers as the map alone would, and every word that an insertion into
the filter or a test of it addresses is inside the bit array. -/
theorem lookup_eq_lookupMap (maxEntries bloomCapacity : Nat) (calls : List TableCall) :
    (∀ fp pageData, ((Run.run call (.new maxEntries bloomCapacity) calls).lookup fp pageData).1 =
      (Run.run call (.new maxEntries bloomCapacity) calls).lookupMap fp pageData) ∧
    ∀ fp, ∀ i ∈ bloomIndices fp (Run.run call (.new maxEntries bloomCapacity) calls).bloom.numBits,
      i / 64 < (Run.run call (.new maxEntries bloomCapacity) calls).bloom.bits.length := by
  have hstart : (DedupTable.new maxEntries bloomCapacity).Reported := fun fp entry hfp =>
    nomatch (Finmap.lookup_empty fp).symm.trans hfp
  have hreported := Run.run_invariant (I := Reported) (fun _ c h => h.call c) hstart calls
  refine ⟨hreported.lookup_eq, fun fp i hi => ?_⟩
  have hlt := bloomIndices_lt (BloomFilter.numBits_pos _) hi
  rw [← BloomFilter.words] at hlt
  exact Nat.div_lt_of_lt_mul (by omega)

end DedupTable

end Animaksm.Proxy

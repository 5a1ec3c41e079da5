import Animaksm.Proxy.Fingerprint

/-!
# Bloom filter

The filter is an array of 64-bit words with its exact number of bits. Its shape
is part of the type, so every index that the hash produces addresses a word.
Bits are only ever set: an inserted fingerprint is reported for good.
-/

namespace Animaksm.Proxy

/-- Round up to a power of two in `usize`; past the last one release builds wrap to zero. -/
def nextPowerOfTwo (n : Nat) : Nat :=
  if n ≤ 1 then 1 else 2 ^ ((n - 1).log2 + 1) % 2 ^ 64

/-- Bloom filter for fast rejection of unique pages. -/
structure BloomFilter where
  /-- The bit array, in words. -/
  bits : List (BitVec 64)
  /-- Number of addressable bits. -/
  numBits : Nat
  /-- The array covers exactly the addressable bits. -/
  words : bits.length * 64 = numBits
  /-- There is at least one bit. -/
  numBits_pos : 0 < numBits

/-- A power of two in `usize` range, or the wrapped zero, fills whole words from 64 on. -/
theorem max_nextPowerOfTwo_div (n : Nat) :
    max (nextPowerOfTwo n) 64 / 64 * 64 = max (nextPowerOfTwo n) 64 := by
  apply Nat.div_mul_cancel
  have hpow : ∀ k : Nat, 64 ∣ max (2 ^ k) 64 := by
    intro k
    by_cases hk : k ≤ 6
    · rw [max_eq_right (Nat.pow_le_pow_right (by decide) hk)]
    · have hle : 64 ≤ 2 ^ k := Nat.pow_le_pow_right (n := 2) (i := 6) (by decide) (by omega)
      rw [max_eq_left hle]
      exact Nat.pow_dvd_pow 2 (show 6 ≤ k by omega)
  unfold nextPowerOfTwo
  split
  · exact hpow 0
  · by_cases hk : (n - 1).log2 + 1 < 64
    · rw [Nat.mod_eq_of_lt (Nat.pow_lt_pow_right (by decide) hk)]
      exact hpow _
    · rw [Nat.mod_eq_zero_of_dvd (Nat.pow_dvd_pow 2 (by omega))]
      decide

/-- An empty filter for a number of expected pages, at ten bits each. -/
def BloomFilter.new (capacity : Nat) : BloomFilter where
  bits := List.replicate (max (nextPowerOfTwo (capacity * 10 % 2 ^ 64)) 64 / 64) 0
  numBits := max (nextPowerOfTwo (capacity * 10 % 2 ^ 64)) 64
  words := by rw [List.length_replicate, max_nextPowerOfTwo_div]
  numBits_pos := by omega

/-- The word mask of a bit index. -/
def bitMask (i : Nat) : BitVec 64 := 1#64 <<< (i % 64)

/-- Read one bit of the array. -/
def BloomFilter.testBit (b : BloomFilter) (i : Nat) : Bool :=
  b.bits.getD (i / 64) 0 &&& bitMask i != 0

/-- Set one bit of the array. -/
def BloomFilter.setBit (b : BloomFilter) (i : Nat) : BloomFilter :=
  { b with
    bits := b.bits.modify (i / 64) (· ||| bitMask i)
    words := by rw [List.length_modify, b.words] }

/-- Insert a fingerprint into the filter. -/
def BloomFilter.insert (b : BloomFilter) (fp : Fingerprint) : BloomFilter :=
  (bloomIndices fp b.numBits).foldl BloomFilter.setBit b

/-- Check if a fingerprint might be in the filter. -/
def BloomFilter.mightContain (b : BloomFilter) (fp : Fingerprint) : Bool :=
  (bloomIndices fp b.numBits).all b.testBit

@[simp] theorem BloomFilter.numBits_setBit (b : BloomFilter) (i : Nat) :
    (b.setBit i).numBits = b.numBits := rfl

/-- Setting bits never changes how many there are. -/
@[simp] theorem BloomFilter.numBits_foldl_setBit (b : BloomFilter) (is : List Nat) :
    (is.foldl BloomFilter.setBit b).numBits = b.numBits := by
  induction is generalizing b with
  | nil => rfl
  | cons i is ih => rw [List.foldl_cons, ih, numBits_setBit]

private theorem and_or_ne_zero {x m n : BitVec 64} (h : x &&& m ≠ 0) : (x ||| n) &&& m ≠ 0 := by
  intro hz
  apply h
  ext j hj
  have hj' := congrArg (fun v : BitVec 64 => v[j]) hz
  simp only [BitVec.getElem_and, BitVec.getElem_or] at hj' ⊢
  revert hj'
  cases x[j] <;> cases n[j] <;> cases m[j] <;> simp

private theorem or_bitMask_and_ne_zero (x : BitVec 64) (i : Nat) :
    (x ||| bitMask i) &&& bitMask i ≠ 0 := by
  intro hz
  have hlt : i % 64 < 64 := Nat.mod_lt _ (by decide)
  have hbit := congrArg (fun v : BitVec 64 => v.getLsbD (i % 64)) hz
  simp [bitMask, hlt] at hbit

/-- A set bit survives every later insertion. -/
theorem BloomFilter.testBit_setBit_of_testBit {b : BloomFilter} {i : Nat} (j : Nat)
    (h : b.testBit i = true) : (b.setBit j).testBit i = true := by
  simp only [testBit, setBit, bne_iff_ne, List.getD_eq_getElem?_getD, List.getElem?_modify] at h ⊢
  split
  · next he =>
    cases hw : b.bits[i / 64]? with
    | none => simp [hw] at h
    | some w =>
      rw [hw] at h
      simpa [he] using and_or_ne_zero (n := bitMask j) h
  · simpa using h

/-- A bit inside the array reads as set once it was set. -/
theorem BloomFilter.testBit_setBit {b : BloomFilter} {i : Nat} (h : i < b.numBits) :
    (b.setBit i).testBit i = true := by
  have hw : i / 64 < b.bits.length := by
    have := b.words
    omega
  simp only [testBit, setBit, bne_iff_ne, List.getD_eq_getElem?_getD, List.getElem?_modify,
    List.getElem?_eq_getElem hw]
  simpa using or_bitMask_and_ne_zero b.bits[i / 64] i

private theorem BloomFilter.testBit_foldl_of_testBit {b : BloomFilter} {i : Nat} (is : List Nat)
    (h : b.testBit i = true) : (is.foldl BloomFilter.setBit b).testBit i = true := by
  induction is generalizing b with
  | nil => exact h
  | cons j is ih => exact ih (testBit_setBit_of_testBit j h)

private theorem BloomFilter.testBit_foldl_of_mem {b : BloomFilter} {is : List Nat}
    (hb : ∀ i ∈ is, i < b.numBits) {i : Nat} (hi : i ∈ is) :
    (is.foldl BloomFilter.setBit b).testBit i = true := by
  induction is generalizing b with
  | nil => cases hi
  | cons j is ih =>
    rcases List.mem_cons.mp hi with rfl | hi
    · exact testBit_foldl_of_testBit is (testBit_setBit (hb i List.mem_cons_self))
    · exact ih (fun k hk => hb k (List.mem_cons_of_mem j hk)) hi

/-- An inserted fingerprint is reported. -/
theorem BloomFilter.mightContain_insert (b : BloomFilter) (fp : Fingerprint) :
    (b.insert fp).mightContain fp = true := by
  rw [mightContain, insert, numBits_foldl_setBit, List.all_eq_true]
  exact fun i hi => testBit_foldl_of_mem (fun j hj => bloomIndices_lt b.numBits_pos hj) hi

/-- No insertion hides a reported fingerprint. -/
theorem BloomFilter.mightContain_insert_of_mightContain {b : BloomFilter} {fp : Fingerprint}
    (other : Fingerprint) (h : b.mightContain fp = true) :
    (b.insert other).mightContain fp = true := by
  rw [mightContain, List.all_eq_true] at h
  rw [mightContain, insert, numBits_foldl_setBit, List.all_eq_true]
  exact fun i hi => testBit_foldl_of_testBit _ (h i hi)

end Animaksm.Proxy

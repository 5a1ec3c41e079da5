import Animaksm.Lib.GrowOnly
import Animaksm.Proxy.Bloom

/-!
# The Bloom filter without a lock

An insertion sets one bit after the other, each with an atomic or on its word, and a
question loads one word after the other, while any number of threads do the same. The
filter is a grow-only set of bits: every answer lies between those of two filters
that were filled one fingerprint at a time, and so does the filter itself.
-/

namespace Animaksm.Proxy.BloomFilter

/-- The operations on single bits, of which insertions and questions are made. -/
def ops : GrowOnly.Ops BloomFilter Fingerprint Nat where
  parts b fp := bloomIndices fp b.numBits
  set := setBit
  test := testBit

theorem add_ops (b : BloomFilter) (fp : Fingerprint) : ops.add b fp = b.insert fp := rfl

theorem has_ops (b : BloomFilter) (fp : Fingerprint) : ops.has b fp = b.mightContain fp := rfl

/-- Insert fingerprints one at a time. -/
def insertAll (b : BloomFilter) (fps : List Fingerprint) : BloomFilter := fps.foldl insert b

theorem bitMask_eq (i : Nat) : bitMask i = BitVec.twoPow 64 (i % 64) := (BitVec.twoPow_eq ..).symm

/-- A bit reads as what its word has there. -/
theorem testBit_eq_getLsbD (b : BloomFilter) (i : Nat) :
    b.testBit i = (b.bits.getD (i / 64) 0).getLsbD (i % 64) := by
  have hlt : i % 64 < 64 := Nat.mod_lt _ (by decide)
  have hne : BitVec.twoPow 64 (i % 64) ≠ 0 := by
    intro hzero
    have hbit := congrArg (BitVec.getLsbD · (i % 64)) hzero
    simp [hlt] at hbit
  rw [testBit, bitMask_eq, BitVec.and_twoPow]
  cases (b.bits.getD (i / 64) 0).getLsbD (i % 64) with
  | true => exact bne_iff_ne.mpr hne
  | false => rfl

/-- Setting a bit of the array sets just that bit. -/
theorem testBit_setBit_iff {b : BloomFilter} {i : Nat} (hi : i < b.numBits) (j : Nat) :
    (b.setBit i).testBit j = true ↔ j = i ∨ b.testBit j = true := by
  by_cases hji : j = i
  · subst hji
    exact iff_of_true (testBit_setBit hi) (.inl rfl)
  refine ⟨fun h => .inr ?_, fun h => testBit_setBit_of_testBit i (h.resolve_left hji)⟩
  rw [testBit_eq_getLsbD, List.getD_eq_getElem?_getD] at h ⊢
  by_cases hword : i / 64 = j / 64
  · have hbit : ¬ i % 64 = j % 64 := by omega
    simp only [setBit, List.getElem?_modify, if_pos hword, bitMask_eq] at h
    cases hget : b.bits[j / 64]? with
    | none => rw [hget] at h; exact h
    | some word =>
      rw [hget] at h
      simpa [BitVec.getLsbD_twoPow, hbit] using h
  · simpa only [setBit, List.getElem?_modify, if_neg hword, Functor.map, Option.map_id'] using h

theorem lawful_ops : GrowOnly.Lawful ops where
  parts_set _ _ _ := rfl
  test_set {b _ _} j hi := testBit_setBit_iff (bloomIndices_lt b.numBits_pos hi) j

/-- Filters with the same bits are the same. -/
theorem ext_testBit {b c : BloomFilter} (hbits : b.numBits = c.numBits)
    (h : ∀ i, b.testBit i = c.testBit i) : b = c := by
  have hlength : b.bits.length = c.bits.length := by
    have hb := b.words
    have hc := c.words
    omega
  have hwords : b.bits = c.bits := by
    refine List.ext_getElem hlength fun w hb hc => BitVec.eq_of_getLsbD_eq fun k hk => ?_
    have hbit := h (64 * w + k)
    rw [testBit_eq_getLsbD, testBit_eq_getLsbD, Nat.mul_add_div (by decide), Nat.mul_add_mod,
      Nat.div_eq_of_lt hk, Nat.mod_eq_of_lt hk, Nat.add_zero, List.getD_eq_getElem?_getD,
      List.getD_eq_getElem?_getD, List.getElem?_eq_getElem hb, List.getElem?_eq_getElem hc] at hbit
    exact hbit
  cases b
  cases c
  cases hwords
  cases hbits
  rfl

theorem numBits_insertAll (b : BloomFilter) (fps : List Fingerprint) :
    (b.insertAll fps).numBits = b.numBits := by
  induction fps generalizing b with
  | nil => rfl
  | cons fp fps ih => exact (ih _).trans (numBits_foldl_setBit ..)

theorem mightContain_insertAll {b : BloomFilter} {fp : Fingerprint} {fps : List Fingerprint}
    (h : fp ∈ fps) : (b.insertAll fps).mightContain fp = true :=
  (lawful_ops.has_addAll b fps fp).mpr fun _ hi => .inl ⟨fp, h, hi⟩

/-- In every interleaving of threads that insert and ask, a question about a fingerprint whose insertion
had ended before it began is answered yes. Every answer is at least that of the filter with the
fingerprints inserted before the question, one at a time, and at most that of the filter with those
whose insertion had begun at the answer. Once no insertion is under way the filter is that filter. -/
theorem answers_between {n : Nat} (capacity : Nat) (labels : List (GrowOnly.Label n Fingerprint)) :
    let s := Run.run (GrowOnly.step ops) (GrowOnly.start n Fingerprint Nat (new capacity)) labels
    (∀ answer ∈ s.answers,
      (answer.key ∈ answer.before → answer.has = true) ∧
      (((new capacity).insertAll answer.before).mightContain answer.key = true → answer.has = true) ∧
      (answer.has = true → ((new capacity).insertAll answer.begun).mightContain answer.key = true)) ∧
    ((∀ i fp rest, s.tasks i ≠ .adding fp rest) → s.store = (new capacity).insertAll s.begun) := by
  intro s
  have hs := GrowOnly.run_sound lawful_ops (new capacity) labels
  refine ⟨fun answer hanswer => ?_, fun hidle => ?_⟩
  · obtain ⟨hlower, hupper⟩ := hs.answers answer hanswer
    exact ⟨fun hbefore => hlower (mightContain_insertAll hbefore), hlower, hupper⟩
  · refine ext_testBit ?_ (hs.test_eq lawful_ops hidle)
    rw [numBits_insertAll]
    exact GrowOnly.run_store (P := fun b : BloomFilter => b.numBits = (new capacity).numBits)
      (fun _ _ h => h) rfl labels

end Animaksm.Proxy.BloomFilter

import Mathlib.Algebra.Order.Floor.Div
import Mathlib.Order.Interval.Set.Defs

/-!
# Aligned blocks of an interval

The blocks of one size that start at multiples of it and lie in an interval make up
the interval from its start rounded up to its end rounded down. Rounding down to a
power of two clears the low bits.
-/

namespace Alignment

variable {d k a b x : Nat}

/-- The block of a size with some number. -/
def block (d k : Nat) : Set Nat := Set.Ico (k * d) ((k + 1) * d)

/-- Some block lies in the interval. -/
def HasBlock (d a b : Nat) : Prop := ∃ k, a ≤ k * d ∧ (k + 1) * d ≤ b

/-- The union of the blocks in the interval. -/
def blocks (d a b : Nat) : Set Nat := {x | ∃ k, a ≤ k * d ∧ (k + 1) * d ≤ b ∧ x ∈ block d k}

/-- Rounded up to a multiple. -/
def up (d a : Nat) : Nat := (a + d - 1) / d * d

/-- Rounded down to a multiple. -/
def down (d b : Nat) : Nat := b / d * d

theorem le_mul_iff (hd : 0 < d) : a ≤ k * d ↔ (a + d - 1) / d ≤ k := by
  rw [← Nat.ceilDiv_eq_add_pred_div, ceilDiv_le_iff_le_smul hd, smul_eq_mul, Nat.mul_comm]

theorem mul_le_iff (hd : 0 < d) : k * d ≤ b ↔ k ≤ b / d := (Nat.le_div_iff_mul_le hd).symm

/-- There is a block when the rounded start is before the rounded end. -/
theorem hasBlock_iff (hd : 0 < d) : HasBlock d a b ↔ up d a < down d b := by
  unfold up down
  rw [Nat.mul_lt_mul_right hd]
  constructor
  · rintro ⟨k, hstart, hstop⟩
    rw [le_mul_iff hd] at hstart
    rw [mul_le_iff hd] at hstop
    omega
  · intro hlt
    exact ⟨(a + d - 1) / d, (le_mul_iff hd).mpr le_rfl, (mul_le_iff hd).mpr hlt⟩

/-- The blocks in an interval leave out only what rounding cuts off. -/
theorem blocks_eq (hd : 0 < d) : blocks d a b = Set.Ico (up d a) (down d b) := by
  ext x
  constructor
  · rintro ⟨k, hstart, hstop, hle, hlt⟩
    rw [le_mul_iff hd] at hstart
    rw [mul_le_iff hd] at hstop
    exact ⟨(Nat.mul_le_mul_right d hstart).trans hle, hlt.trans_le (Nat.mul_le_mul_right d hstop)⟩
  · rintro ⟨hle, hlt⟩
    refine ⟨x / d, ?_, ?_, ?_, ?_⟩
    · rw [le_mul_iff hd]
      exact (Nat.le_div_iff_mul_le hd).mpr hle
    · rw [mul_le_iff hd]
      exact (Nat.div_lt_iff_lt_mul hd).mpr hlt
    · exact Nat.div_mul_le_self x d
    · exact (Nat.div_lt_iff_lt_mul hd).mp (Nat.lt_succ_self _)

/-- Clearing the low bits rounds down. -/
theorem and_mask {w n : Nat} (hx : x < 2 ^ w) (hn : n ≤ w) :
    x &&& (2 ^ w - 1 - (2 ^ n - 1)) = down (2 ^ n) x := by
  refine Nat.eq_of_testBit_eq fun i => ?_
  have hlow : 2 ^ n - 1 < 2 ^ w :=
    lt_of_lt_of_le (Nat.sub_lt (Nat.two_pow_pos n) Nat.one_pos) (Nat.pow_le_pow_right (by decide) hn)
  rw [Nat.testBit_and, Nat.sub_sub, Nat.add_comm 1, Nat.testBit_two_pow_sub_succ hlow,
    Nat.testBit_two_pow_sub_one, down, Nat.testBit_mul_two_pow, Nat.testBit_div_two_pow]
  by_cases hi : n ≤ i
  · rw [Nat.sub_add_cancel hi]
    by_cases hw : i < w
    · simp [hi, hw, Nat.not_lt.mpr hi]
    · have hzero : x.testBit i = false :=
        Nat.testBit_lt_two_pow (hx.trans_le (Nat.pow_le_pow_right (by decide) (Nat.le_of_not_lt hw)))
      simp [hzero]
  · simp [hi, Nat.lt_of_not_le hi]

end Alignment

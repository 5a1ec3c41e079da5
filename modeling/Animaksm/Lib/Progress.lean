import Mathlib.Data.UInt
import Mathlib.Order.Filter.AtTopBot.Basic
import Mathlib.Order.OrderIsoNat

/-!
# Progress of infinite runs

A run that never ends is a sequence of states, and what holds from some state on
holds eventually. What no longer changes has settled, a rank that does not grow
settles, and nothing counts up below a bound for ever.
-/

namespace Progress

open Filter

/-- What no longer changes has settled. -/
theorem eventually_eq_const {α : Type*} {f : ℕ → α} (h : ∀ᶠ n in atTop, f (n + 1) = f n) :
    ∃ a, ∀ᶠ n in atTop, f n = a := by
  obtain ⟨start, hstart⟩ := eventually_atTop.mp h
  refine ⟨f start, eventually_atTop.mpr ⟨start, fun n hn => ?_⟩⟩
  induction n, hn using Nat.le_induction with
  | base => rfl
  | succ n hn ih => rw [hstart n hn, ih]

/-- Nothing counts up below a bound for ever. -/
theorem not_counting {count : ℕ → ℕ} {bound : ℕ}
    (h : ∀ᶠ n in atTop, count (n + 1) < bound ∧ (count n < bound → count (n + 1) = count n + 1)) :
    False := by
  obtain ⟨start, hstart⟩ := eventually_atTop.mp h
  have hcount : ∀ k, count (start + 1 + k) = count (start + 1) + k := by
    intro k
    induction k with
    | zero => rfl
    | succ k ih =>
      have hbelow := (hstart (start + k) (Nat.le_add_right _ _)).1
      have hnext := (hstart (start + 1 + k) (by omega)).2
      rw [Nat.add_right_comm] at hbelow
      rw [← Nat.add_assoc, hnext hbelow, ih, Nat.add_assoc]
  have hlt := (hstart (start + bound) (Nat.le_add_right _ _)).1
  rw [Nat.add_right_comm, hcount] at hlt
  omega

/-- A machine counter that stays below its limit does not wrap, so it does not count for ever either. -/
theorem not_counting_uint32 {count : ℕ → UInt32} {limit : UInt32}
    (h : ∀ᶠ n in atTop, count (n + 1) = count n + 1 ∧ count n + 1 < limit) : False := by
  have hcounting : ∀ᶠ n in atTop, (count (n + 1)).toNat < limit.toNat ∧
      ((count n).toNat < limit.toNat → (count (n + 1)).toNat = (count n).toNat + 1) := by
    filter_upwards [h] with n ⟨hnext, hlt⟩
    have hlimit := limit.toNat_lt
    refine ⟨by rw [hnext]; exact UInt32.lt_iff_toNat_lt.mp hlt, fun hbelow => ?_⟩
    rw [hnext, UInt32.toNat_add, UInt32.toNat_one, Nat.mod_eq_of_lt (by omega)]
  exact @not_counting (fun n => (count n).toNat) limit.toNat hcounting

/-- A rank that does not grow settles. -/
theorem eventually_const_of_le {α : Type*} [PartialOrder α] [WellFoundedLT α] {rank : ℕ → α}
    (h : ∀ᶠ n in atTop, rank (n + 1) ≤ rank n) : ∃ a, ∀ᶠ n in atTop, rank n = a := by
  obtain ⟨start, hstart⟩ := eventually_atTop.mp h
  have hanti : Antitone fun k => rank (start + k) :=
    antitone_nat_of_succ_le fun k => hstart (start + k) (Nat.le_add_right _ _)
  obtain ⟨k, hk⟩ := WellFoundedLT.antitone_chain_condition hanti
  refine ⟨rank (start + k), eventually_atTop.mpr ⟨start + k, fun n hn => ?_⟩⟩
  obtain ⟨j, rfl⟩ := Nat.exists_eq_add_of_le hn
  rw [Nat.add_assoc]
  exact (hk (k + j) (Nat.le_add_right _ _)).symm

end Progress

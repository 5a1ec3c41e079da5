import Mathlib.Algebra.BigOperators.Fin
import Mathlib.Algebra.Order.BigOperators.Group.Finset

/-!
# What threads hold together

Threads are a family of local states. A quantity that is summed over them changes
with one thread's local state by that thread's part.
-/

namespace Threads

variable {n : Nat} {σ M : Type*} [AddCommMonoid M]

/-- What all threads hold together. -/
def total (part : σ → M) (threads : Fin n → σ) : M := ∑ i, part (threads i)

/-- What all threads but one hold. -/
def others (part : σ → M) (threads : Fin n → σ) (i : Fin n) : M :=
  ∑ j ∈ Finset.univ.erase i, part (threads j)

variable {part : σ → M} {threads : Fin n → σ}

theorem total_eq (part : σ → M) (threads : Fin n → σ) (i : Fin n) :
    total part threads = part (threads i) + others part threads i :=
  (Finset.add_sum_erase Finset.univ (fun j => part (threads j)) (Finset.mem_univ i)).symm

/-- A thread that moves on changes its own part only. -/
theorem total_update (part : σ → M) (threads : Fin n → σ) (i : Fin n) (t : σ) :
    total part (Function.update threads i t) = part t + others part threads i := by
  rw [total_eq part _ i, Function.update_self]
  congr 1
  refine Finset.sum_congr rfl fun j hj => ?_
  rw [Function.update_of_ne (Finset.ne_of_mem_erase hj)]

/-- A thread that moves on without a change of its part changes nothing. -/
theorem total_update_of_eq {i : Fin n} {t : σ} (h : part t = part (threads i)) :
    total part (Function.update threads i t) = total part threads := by
  rw [total_update, h, ← total_eq]

theorem total_eq_zero (h : ∀ i, part (threads i) = 0) : total part threads = 0 :=
  Finset.sum_eq_zero fun i _ => h i

/-- Threads that hold at most one each, and one of which holds nothing, hold less than their number. -/
theorem total_lt {part : σ → Nat} (hone : ∀ t, part t ≤ 1) {i : Fin n} (hi : part (threads i) = 0) :
    total part threads < n := by
  have hothers : others part threads i ≤ (Finset.univ.erase i).card • 1 :=
    Finset.sum_le_card_nsmul _ _ 1 fun j _ => hone (threads j)
  rw [Finset.card_erase_of_mem (Finset.mem_univ i), Finset.card_univ, Fintype.card_fin] at hothers
  have hpos := i.isLt
  rw [total_eq part threads i, hi]
  simp only [smul_eq_mul, mul_one] at hothers
  omega

end Threads

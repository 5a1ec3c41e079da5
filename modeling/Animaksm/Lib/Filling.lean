import Mathlib.Algebra.GroupWithZero.Nat
import Mathlib.Order.MinMax

/-!
# Filling up to a cap

Sizes are taken in order until a cap is reached, the last one only as far as it
fits. What is taken adds up to the cap or to all sizes, whichever is less, and is a
whole size everywhere but at the end.
-/

namespace Filling

/-- Take sizes in order under a cap, and stop where nothing is left to take. -/
def fill : Nat → List Nat → List Nat
  | _, [] => []
  | cap, size :: sizes =>
    if min size cap = 0 then [] else min size cap :: fill (cap - min size cap) sizes

variable {cap size k n d : Nat} {sizes : List Nat}

theorem fill_cons_zero (h : min size cap = 0) : fill cap (size :: sizes) = [] := if_pos h

theorem fill_cons_pos (h : 0 < min size cap) :
    fill cap (size :: sizes) = min size cap :: fill (cap - min size cap) sizes := if_neg h.ne'

@[simp] theorem fill_zero (sizes : List Nat) : fill 0 sizes = [] := by
  cases sizes with
  | nil => rfl
  | cons size sizes => exact fill_cons_zero (Nat.min_zero size)

/-- No more is taken than the cap allows. -/
theorem sum_fill_le (cap : Nat) (sizes : List Nat) : (fill cap sizes).sum ≤ cap := by
  induction sizes generalizing cap with
  | nil => exact Nat.zero_le cap
  | cons size sizes ih =>
    rcases (min size cap).eq_zero_or_pos with hzero | hpos
    · rw [fill_cons_zero hzero]
      exact Nat.zero_le cap
    · have hrest := ih (cap - min size cap)
      rw [fill_cons_pos hpos, List.sum_cons]
      omega

/-- Positive sizes are taken up to the cap. -/
theorem sum_fill (hsizes : ∀ size ∈ sizes, 0 < size) (cap : Nat) :
    (fill cap sizes).sum = min cap sizes.sum := by
  induction sizes generalizing cap with
  | nil => exact (Nat.min_zero cap).symm
  | cons size sizes ih =>
    obtain ⟨hsize, hrest⟩ := List.forall_mem_cons.mp hsizes
    rw [List.sum_cons]
    rcases cap.eq_zero_or_pos with rfl | hcap
    · rw [fill_zero, List.sum_nil, Nat.zero_min]
    · rw [fill_cons_pos (by omega), List.sum_cons, ih hrest]
      omega

/-- What is taken at a place is a positive part of the size there, and all of it before the end. -/
theorem getElem?_fill (h : (fill cap sizes)[k]? = some n) :
    ∃ size, sizes[k]? = some size ∧ 0 < n ∧ n ≤ size ∧
      (k + 1 < (fill cap sizes).length → n = size) := by
  induction sizes generalizing cap k with
  | nil => cases h
  | cons size sizes ih =>
    rcases (min size cap).eq_zero_or_pos with hzero | hpos
    · rw [fill_cons_zero hzero] at h
      cases h
    · rw [fill_cons_pos hpos] at h ⊢
      cases k with
      | zero =>
        obtain rfl : min size cap = n := Option.some_inj.mp h
        refine ⟨size, rfl, hpos, Nat.min_le_left .., fun hmore => ?_⟩
        -- Something else is taken, so the cap has not been reached.
        refine Nat.min_eq_left (Nat.le_of_not_lt fun hlt => ?_)
        rw [Nat.min_eq_right hlt.le, Nat.sub_self, fill_zero] at hmore
        exact absurd hmore (Nat.lt_irrefl 1)
      | succ k =>
        obtain ⟨other, hother, hn, hle, hwhole⟩ := ih h
        exact ⟨other, hother, hn, hle, fun hmore => hwhole (Nat.lt_of_succ_lt_succ hmore)⟩

/-- A divisor of the cap and of all sizes divides what is taken. -/
theorem dvd_of_mem_fill (hcap : d ∣ cap) (hsizes : ∀ size ∈ sizes, d ∣ size)
    (hn : n ∈ fill cap sizes) : d ∣ n := by
  induction sizes generalizing cap with
  | nil => exact absurd hn List.not_mem_nil
  | cons size sizes ih =>
    obtain ⟨hsize, hrest⟩ := List.forall_mem_cons.mp hsizes
    have hmin : d ∣ min size cap := by
      rcases min_choice size cap with heq | heq
      · exact heq.symm ▸ hsize
      · exact heq.symm ▸ hcap
    rcases (min size cap).eq_zero_or_pos with hzero | hpos
    · rw [fill_cons_zero hzero] at hn
      exact absurd hn List.not_mem_nil
    · rw [fill_cons_pos hpos] at hn
      rcases List.mem_cons.mp hn with rfl | hn
      · exact hmin
      · exact ih (Nat.dvd_sub hcap hmin) hrest hn

end Filling

import Mathlib.Data.List.Basic

/-!
# Spaced times

Times that are each a gap after those before them fit into a window only as often as
the gap does, and once more.
-/

namespace Spacing

/-- Times that are at least a gap apart, in order. -/
def Spaced (gap : Nat) (times : List Int) : Prop :=
  times.Pairwise fun earlier later : Int => earlier + (gap : Int) ≤ later

variable {gap width : Nat} {times : List Int} {first : Int}

/-- The number of spaced times in a window. -/
theorem Spaced.length_le (h : Spaced gap times) (hgap : 0 < gap)
    (hwithin : ∀ t ∈ times, first ≤ t ∧ t ≤ first + width) : times.length ≤ width / gap + 1 := by
  induction times generalizing first width with
  | nil => exact Nat.zero_le _
  | cons t times ih =>
    obtain ⟨hfirst, hrest⟩ := List.pairwise_cons.mp h
    obtain ⟨ht, hwithin⟩ := List.forall_mem_cons.mp hwithin
    have hlow := ht.1
    cases times with
    | nil => exact Nat.le_add_left 1 _
    | cons later times =>
      have hlater := hfirst later List.mem_cons_self
      have hhigh := (hwithin later List.mem_cons_self).2
      have hle : gap ≤ width := by omega
      -- The later times lie in the window that is left after the gap.
      have hwithin : ∀ u ∈ later :: times, t + gap ≤ u ∧ u ≤ t + gap + ((width - gap : Nat) : Int) :=
        fun u hu => ⟨hfirst u hu, by have := (hwithin u hu).2; omega⟩
      have hshort := ih hrest hwithin
      rw [List.length_cons, Nat.div_eq_sub_div hgap hle]
      exact Nat.succ_le_succ hshort

end Spacing

import Mathlib.Data.List.Basic

/-!
# Records of recency

Keys are touched one after the other, and the list of touches has the latest one
first. A record with the number of touches before the latest one of its key says
how recent the key is, so records in the order of their times list the keys by age.
-/

namespace Recency

universe u v

variable {K : Type u} {τ : Type v} [DecidableEq K] {time : τ → Nat} {touched : List K}
  {records records' : List (K × τ)}

/-- One key was last touched before another. -/
def Older (touched : List K) (a b : K) : Prop := touched.idxOf b < touched.idxOf a

/-- Each record holds the number of touches before the latest one of its key. -/
def Dated (time : τ → Nat) (touched : List K) (records : List (K × τ)) : Prop :=
  ∀ r ∈ records, time r.2 + touched.idxOf r.1 + 1 = touched.length

theorem Dated.mem_touched (h : Dated time touched records) {r : K × τ} (hr : r ∈ records) :
    r.1 ∈ touched := by
  have hr := h r hr
  exact List.idxOf_lt_length_iff.mp (by omega)

/-- Records can be dropped and put in another order. -/
theorem Dated.subset (h : Dated time touched records) (hsub : records' ⊆ records) :
    Dated time touched records' :=
  fun r hr => h r (hsub hr)

/-- A touch dates the record of its key and ages the others. -/
theorem Dated.touch (h : Dated time touched records) {k : K} {t : τ} (ht : time t = touched.length)
    (hrecords : ∀ r ∈ records', r = (k, t) ∨ r ∈ records ∧ r.1 ≠ k) :
    Dated time (k :: touched) records' := by
  intro r hr
  rcases hrecords r hr with rfl | ⟨hmem, hne⟩
  · rw [List.idxOf_cons_self, ht, List.length_cons]
  · have hdate := h r hmem
    rw [List.idxOf_cons_ne touched hne.symm, List.length_cons]
    omega

/-- Records of different keys in the order of their times have the oldest key first. -/
theorem Dated.pairwise_older (h : Dated time touched records)
    (hsorted : records.Pairwise fun r s => time r.2 ≤ time s.2) (hkeys : (records.map Prod.fst).Nodup) :
    (records.map Prod.fst).Pairwise (Older touched) := by
  rw [List.Nodup, List.pairwise_map] at hkeys
  rw [List.pairwise_map]
  refine (hsorted.and hkeys).imp_of_mem fun {r s} hr hs hrs => ?_
  obtain ⟨hle, hne⟩ := hrs
  have hidx : touched.idxOf r.1 ≠ touched.idxOf s.1 := fun heq =>
    hne ((List.idxOf_inj (h.mem_touched hr)).mp heq)
  have hdate := h r hr
  have hdate' := h s hs
  unfold Older
  omega

end Recency

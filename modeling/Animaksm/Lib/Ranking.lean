import Mathlib.Data.List.Sort

/-!
# Ranking by a key

A list is sorted by falling key, and elements with equal keys keep their order. The
place of an element in the sorted list is then known from the list itself: the
elements with a greater key come before it, and those before it with an equal key.
-/

namespace Ranking

universe u

variable {α : Type u}

/-- The list by falling key; elements with equal keys keep their order. -/
abbrev ranked (key : α → Nat) (l : List α) : List α := l.insertionSort fun a b => key b ≤ key a

variable {key : α → Nat} {l before after : List α} {a : α}

/-- The elements with one key stay in order where another element is inserted. -/
theorem filter_orderedInsert (key : α → Nat) (n : Nat) (a : α) (l : List α) :
    (l.orderedInsert (fun a b => key b ≤ key a) a).filter (key · = n) =
      (a :: l).filter (key · = n) := by
  induction l with
  | nil => rfl
  | cons b l ih =>
    rw [List.orderedInsert_cons]
    split
    · rfl
    next hle =>
      rw [List.filter_cons, ih]
      simp only [List.filter_cons, decide_eq_true_eq]
      -- The two elements change places, so their keys differ.
      split_ifs with hb ha
      · exact absurd (le_of_eq (hb.trans ha.symm)) hle
      · rfl
      · rfl
      · rfl

/-- Ranking keeps the elements with one key in order. -/
theorem filter_ranked (key : α → Nat) (n : Nat) (l : List α) :
    (ranked key l).filter (key · = n) = l.filter (key · = n) := by
  induction l with
  | nil => rfl
  | cons a l ih =>
    rw [ranked, List.insertionSort_cons, filter_orderedInsert, List.filter_cons, List.filter_cons]
    split
    · exact congrArg (List.cons a) ih
    · exact ih

/-- A ranking falls. -/
theorem pairwise_ranked (key : α → Nat) (l : List α) :
    (ranked key l).Pairwise fun a b => key b ≤ key a := by
  have htotal : Std.Total fun a b : α => key b ≤ key a := ⟨fun a b => Nat.le_total (key b) (key a)⟩
  have htrans : IsTrans α fun a b : α => key b ≤ key a := ⟨fun _ _ _ hab hbc => le_trans hbc hab⟩
  exact List.pairwise_insertionSort _ _

/-- An element is inserted before those with its key. -/
theorem pairwise_orderedInsert {R : α → α → Prop}
    (h : l.Pairwise fun a b => key b < key a ∨ key a = key b ∧ R a b) (ha : ∀ b ∈ l, R a b) :
    (l.orderedInsert (fun a b => key b ≤ key a) a).Pairwise
      fun a b => key b < key a ∨ key a = key b ∧ R a b := by
  induction l with
  | nil => exact List.pairwise_singleton _ _
  | cons b l ih =>
    obtain ⟨hb, hl⟩ := List.pairwise_cons.mp h
    rw [List.orderedInsert_cons]
    split
    next hle =>
      refine List.pairwise_cons.mpr ⟨fun c hc => ?_, h⟩
      have hcb : key c ≤ key b := by
        rcases List.mem_cons.mp hc with rfl | hc
        · exact le_rfl
        · rcases hb c hc with hlt | ⟨heq, -⟩
          · exact hlt.le
          · exact heq.ge
      rcases (hcb.trans hle).lt_or_eq with hlt | heq
      · exact .inl hlt
      · exact .inr ⟨heq.symm, ha c hc⟩
    next hlt =>
      refine List.pairwise_cons.mpr ⟨fun c hc => ?_, ih hl fun c hc => ha c (List.mem_cons_of_mem b hc)⟩
      rcases List.mem_cons.mp ((List.perm_orderedInsert _ _ _).mem_iff.mp hc) with rfl | hc
      · exact .inl (Nat.lt_of_not_le hlt)
      · exact hb c hc

/-- In a ranking the greater key comes first, and equal keys come in the order of the list. -/
theorem pairwise_ranked_ties {R : α → α → Prop} (h : l.Pairwise R) :
    (ranked key l).Pairwise fun a b => key b < key a ∨ key a = key b ∧ R a b := by
  induction l with
  | nil => exact List.Pairwise.nil
  | cons a l ih =>
    obtain ⟨ha, hl⟩ := List.pairwise_cons.mp h
    exact pairwise_orderedInsert (ih hl) fun b hb => ha b ((List.mem_insertionSort _).mp hb)

/-- An element is among the first ones when fewer come before it. -/
theorem mem_take_iff (ha : a ∉ before) (k : Nat) :
    a ∈ (before ++ a :: after).take k ↔ before.length < k := by
  rw [List.take_append, List.mem_append]
  constructor
  · rintro (hmem | hmem)
    · exact absurd (List.mem_of_mem_take hmem) ha
    · by_contra hle
      rw [Nat.sub_eq_zero_of_le (Nat.le_of_not_lt hle), List.take_zero] at hmem
      exact List.not_mem_nil hmem
  · intro hlt
    obtain ⟨n, hn⟩ := Nat.exists_eq_succ_of_ne_zero (Nat.sub_ne_zero_of_lt hlt)
    rw [hn, List.take_succ_cons]
    exact .inr (List.mem_cons_self ..)

/-- The elements that come before one are those with a greater key and the earlier ones with an
equal key. -/
theorem length_before (hl : (before ++ a :: after).Nodup) {front back : List α}
    (hranked : ranked key (before ++ a :: after) = front ++ a :: back) :
    front.length = ((before ++ a :: after).filter (key a < key ·)).length +
      (before.filter (key · = key a)).length := by
  have hperm : (ranked key (before ++ a :: after)).Perm (before ++ a :: after) :=
    List.perm_insertionSort _ _
  have hsorted := pairwise_ranked key (before ++ a :: after)
  have hequal := filter_ranked key (key a) (before ++ a :: after)
  have hgreater := (hperm.filter (key a < key ·)).length_eq
  have hnodup := hperm.nodup_iff.mpr hl
  rw [hranked] at hsorted hequal hgreater hnodup
  obtain ⟨-, hback, hsplit⟩ := List.pairwise_append.mp hsorted
  obtain ⟨-, hnodupBack, hdisjoint⟩ := List.nodup_append'.mp hnodup
  have hfront : a ∉ front := fun h => hdisjoint h (List.mem_cons_self ..)
  have hfilter : ∀ rest : List α, (a :: rest).filter (key · = key a) = a :: rest.filter (key · = key a) :=
    fun rest => List.filter_cons_of_pos (decide_eq_true rfl)
  -- The elements with the same key come in the same order.
  have hties : front.filter (key · = key a) = before.filter (key · = key a) := by
    rw [List.filter_append, List.filter_append, hfilter, hfilter] at hequal
    refine ((List.append_cons_inj_of_notMem ?_ ?_).mp hequal).1
    · exact fun h => hfront (List.mem_of_mem_filter h)
    · exact fun h => (List.nodup_cons.mp hnodupBack).1 (List.mem_of_mem_filter h)
  -- None of those with a greater key comes after.
  have hnone : (a :: back).filter (key a < key ·) = [] := by
    rw [List.filter_eq_nil_iff]
    intro b hb
    rcases List.mem_cons.mp hb with rfl | hb
    · simp
    · simpa using (List.pairwise_cons.mp hback).1 b hb
  rw [List.filter_append, hnone, List.append_nil] at hgreater
  rw [← hgreater, ← hties, List.length_eq_length_filter_add (key a < key ·)]
  congr 2
  -- Every element in front has at least the key.
  refine List.filter_congr fun b hb => ?_
  have hge : key a ≤ key b := hsplit b hb a (List.mem_cons_self ..)
  rw [← decide_not, decide_eq_decide]
  omega

/-- An element is among the first of the ranking exactly when few elements come before it. -/
theorem mem_take_ranked (hl : (before ++ a :: after).Nodup) (k : Nat) :
    a ∈ (ranked key (before ++ a :: after)).take k ↔
      ((before ++ a :: after).filter (key a < key ·)).length +
        (before.filter (key · = key a)).length < k := by
  have hperm : (ranked key (before ++ a :: after)).Perm (before ++ a :: after) :=
    List.perm_insertionSort _ _
  have hmem : a ∈ ranked key (before ++ a :: after) :=
    hperm.mem_iff.mpr (List.mem_append_right _ (List.mem_cons_self ..))
  obtain ⟨front, back, hranked⟩ := List.append_of_mem hmem
  have hfront : a ∉ front := by
    have hnodup := hperm.nodup_iff.mpr hl
    rw [hranked, List.nodup_append'] at hnodup
    exact fun h => hnodup.2.2 h (List.mem_cons_self ..)
  rw [← length_before hl hranked, hranked]
  exact mem_take_iff hfront k

end Ranking

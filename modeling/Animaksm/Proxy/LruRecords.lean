import Animaksm.Proxy.Dedup

/-!
# Recency records

The table keeps its recency records apart from its map. The two agree when the
records hold each tracked fingerprint once and no other, and every operation of the
table changes them together.
-/

namespace Animaksm.Proxy

namespace DedupTable

/-- How many recency records a fingerprint has. -/
def records (lru : List (Fingerprint × UInt64)) (fp : Fingerprint) : Nat :=
  (lru.map Prod.fst).count fp

/-- The recency records hold each tracked fingerprint once and no other. -/
def LruAgrees (t : DedupTable) : Prop :=
  ∀ fp, records t.lru fp = if (t.map.lookup fp).isSome then 1 else 0

variable {t : DedupTable} {lru lru' : List (Fingerprint × UInt64)}

theorem records_push (lru : List (Fingerprint × UInt64)) (fp other : Fingerprint) (tick : UInt64) :
    records (lru ++ [(fp, tick)]) other = records lru other + if fp = other then 1 else 0 := by
  rw [records, List.map_append, List.count_append, List.map_singleton, List.count_singleton, records]
  simp only [beq_iff_eq]

theorem records_forget (lru : List (Fingerprint × UInt64)) (fp other : Fingerprint) :
    records (lru.filter fun item => item.1 ≠ fp) other = if other = fp then 0 else records lru other := by
  have hfilter : (lru.filter fun item => item.1 ≠ fp).map Prod.fst =
      (lru.map Prod.fst).filter fun other => other ≠ fp := by
    rw [List.filter_map]
    rfl
  rw [records, hfilter]
  split
  next heq =>
    rw [heq, List.count_eq_zero]
    simp
  next hne => exact List.count_filter (by simpa using hne)

/-- Refreshing a tick keeps the fingerprints in place. -/
@[simp] theorem map_fst_touch (fp : Fingerprint) (tick : UInt64) (lru : List (Fingerprint × UInt64)) :
    (touch fp tick lru).map Prod.fst = lru.map Prod.fst := by
  induction lru with
  | nil => rfl
  | cons item rest ih =>
    rw [touch]
    split
    · rfl
    · rw [List.map_cons, ih, List.map_cons]

theorem records_touch (fp other : Fingerprint) (tick : UInt64) (lru : List (Fingerprint × UInt64)) :
    records (touch fp tick lru) other = records lru other := by
  rw [records, map_fst_touch, records]

theorem records_perm (h : lru.Perm lru') (fp : Fingerprint) : records lru fp = records lru' fp :=
  (h.map Prod.fst).count_eq fp

/-- With one record for each fingerprint, a refreshed list has the new record and the others. -/
theorem mem_touch {fp : Fingerprint} {tick : UInt64} (hkeys : (lru.map Prod.fst).Nodup)
    {r : Fingerprint × UInt64} (hr : r ∈ touch fp tick lru) : r = (fp, tick) ∨ r ∈ lru ∧ r.1 ≠ fp := by
  induction lru with
  | nil => exact absurd hr List.not_mem_nil
  | cons item rest ih =>
    obtain ⟨hnot, hkeys⟩ := List.nodup_cons.mp hkeys
    rw [touch] at hr
    split at hr
    next heq =>
      rcases List.mem_cons.mp hr with rfl | hr
      · exact .inl (by rw [heq])
      · exact .inr ⟨List.mem_cons_of_mem _ hr, fun h =>
          hnot (heq.trans h.symm ▸ List.mem_map_of_mem hr)⟩
    next hne =>
      rcases List.mem_cons.mp hr with rfl | hr
      · exact .inr ⟨List.mem_cons_self, hne⟩
      · exact (ih hkeys hr).imp_right fun h => ⟨List.mem_cons_of_mem _ h.1, h.2⟩

theorem LruAgrees.mem_iff (h : t.LruAgrees) (fp : Fingerprint) :
    fp ∈ t.lru.map Prod.fst ↔ ∃ entry, t.map.lookup fp = some entry := by
  rw [← List.count_pos_iff, ← Option.isSome_iff_exists]
  have hfp := h fp
  rw [records] at hfp
  rw [hfp]
  split
  next hsome => exact iff_of_true Nat.one_pos hsome
  next hnone => exact iff_of_false (lt_irrefl 0) hnone

theorem LruAgrees.nodup (h : t.LruAgrees) : (t.lru.map Prod.fst).Nodup := by
  rw [List.nodup_iff_count_le_one]
  intro fp
  have hfp := h fp
  rw [records] at hfp
  rw [hfp]
  split
  · exact le_refl 1
  · exact Nat.zero_le 1

/-- A fingerprint leaves the map and the records together. -/
theorem LruAgrees.erase (h : t.LruAgrees) (fp : Fingerprint) (evictions : UInt64)
    (hlru : t.lru.Perm lru) :
    ({ t with
      map := t.map.erase fp
      evictions := evictions
      lru := lru.filter fun item => item.1 ≠ fp } : DedupTable).LruAgrees := by
  intro other
  dsimp only
  rw [records_forget, Finmap.lookup_erase_eq, ← records_perm hlru, h other]
  split
  · rfl
  · rfl

/-- A fingerprint enters the map and the records together. -/
theorem LruAgrees.track (h : t.LruAgrees) {fp : Fingerprint} (hfp : t.map.lookup fp = none)
    (data : List UInt8) (slot : Nat) : (t.track fp data slot).LruAgrees := by
  intro other
  rw [DedupTable.track]
  dsimp only
  rw [records_push, h other, Finmap.lookup_insert_eq]
  by_cases heq : other = fp
  · rw [if_pos heq, if_pos heq.symm, heq, hfp]
    rfl
  · rw [if_neg heq, if_neg (Ne.symm heq), Nat.add_zero]

/-- A changed entry is as tracked as before. -/
theorem LruAgrees.update (h : t.LruAgrees) {fp : Fingerprint} {entry : DedupEntry}
    (hfp : t.map.lookup fp = some entry) (entry' : DedupEntry)
    (hlru : ∀ other, records lru other = records t.lru other) (tick : UInt64) :
    ({ t with map := t.map.insert fp entry', lru := lru, tick := tick } : DedupTable).LruAgrees := by
  intro other
  dsimp only
  rw [hlru, h other, Finmap.lookup_insert_eq]
  by_cases heq : other = fp
  · rw [if_pos heq, heq, hfp]
    rfl
  · rw [if_neg heq]

end DedupTable

end Animaksm.Proxy

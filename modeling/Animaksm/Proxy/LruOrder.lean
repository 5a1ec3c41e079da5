import Animaksm.Lib.Recency
import Animaksm.Proxy.LruRecords
import Animaksm.Proxy.TableCalls

/-!
# The choice of the evicted fingerprint

A record's tick is the number of touches before the latest one of its fingerprint,
as long as no tick and no reference count wraps. The records in the order of their
ticks then list the tracked fingerprints by age, and an insertion into a full table
drops the oldest one that has a single reference.
-/

namespace Animaksm.Proxy

/-- A table with the fingerprints it has touched, the latest touch first. -/
structure DatedTable where
  table : DedupTable
  touched : List Fingerprint

/-- The fingerprint a call touches: the one it enters or refers to once more. -/
def TableCall.touches (t : DedupTable) : TableCall → List Fingerprint
  | .insert fp pageData backendOffset => if (t.insert fp pageData backendOffset).1 then [fp] else []
  | .addReference fp => if (t.addReference fp).1 then [fp] else []
  | _ => []

namespace DatedTable

/-- An empty table. -/
def new (maxEntries bloomCapacity : Nat) : DatedTable := ⟨.new maxEntries bloomCapacity, []⟩

/-- The table after a call. -/
def call (d : DatedTable) (c : TableCall) : DatedTable := ⟨d.table.call c, c.touches d.table ++ d.touched⟩

/-- The call finds a tick that was not given before, and a reference count it can add to. -/
def Fits (d : DatedTable) : TableCall → Prop
  | .insert _ _ _ => d.touched.length < 2 ^ 64
  | .addReference fp => d.touched.length < 2 ^ 64 ∧
    ∀ entry, d.table.map.lookup fp = some entry → entry.refCount.toNat + 1 < 2 ^ 32
  | _ => True

instance (d : DatedTable) : DecidablePred d.Fits
  | .insert _ _ _ => inferInstanceAs (Decidable (_ < _))
  | .addReference fp => inferInstanceAs (Decidable (_ ∧ ∀ entry, d.table.map.lookup fp = some entry → _))
  | .lookup _ _ => isTrue trivial
  | .removeReference _ => isTrue trivial

/-- The records agree with the map and are dated, every entry is counted, and there are no more
entries than the table was made for. -/
structure Kept (maxEntries : Nat) (d : DatedTable) : Prop where
  agrees : d.table.LruAgrees
  dated : Recency.Dated UInt64.toNat d.touched d.table.lru
  tick : d.table.tick = UInt64.ofNat d.touched.length
  counted : ∀ fp entry, d.table.map.lookup fp = some entry → 1 ≤ entry.refCount
  maxEntries_eq : d.table.maxEntries = maxEntries
  len_le : d.table.len ≤ maxEntries

/-- The oldest of the fingerprints with a single reference. -/
structure OldestSingle (d : DatedTable) (old : Fingerprint) (entry : DedupEntry) : Prop where
  tracked : d.table.map.lookup old = some entry
  single : entry.refCount = 1
  oldest : ∀ other e, d.table.map.lookup other = some e → e.refCount = 1 → other ≠ old →
    Recency.Older d.touched old other

variable {d : DatedTable} {m : Nat}

/-- The records in the order of their ticks list the fingerprints by age. -/
theorem Kept.pairwise_older (h : d.Kept m) :
    ((d.table.lru.insertionSort fun a b => a.2 ≤ b.2).map Prod.fst).Pairwise
      (Recency.Older d.touched) := by
  have hperm := d.table.lru.perm_insertionSort fun a b => a.2 ≤ b.2
  refine (h.dated.subset hperm.subset).pairwise_older ?_ ((hperm.map Prod.fst).nodup_iff.mpr h.agrees.nodup)
  have hsorted : (d.table.lru.insertionSort fun a b => a.2 ≤ b.2).Pairwise fun a b => a.2 ≤ b.2 := by
    have : Std.Total fun a b : Fingerprint × UInt64 => a.2 ≤ b.2 := ⟨fun a b => UInt64.le_total a.2 b.2⟩
    have : IsTrans (Fingerprint × UInt64) fun a b => a.2 ≤ b.2 := ⟨fun a b c => UInt64.le_trans⟩
    exact List.pairwise_insertionSort _ _
  exact hsorted.imp fun hle => UInt64.le_iff_toNat_le.mp hle

/-- An eviction drops the oldest fingerprint with a single reference; where there is none, the
records are put in order at most. -/
theorem Kept.evict (h : d.Kept m) :
    (∃ old entry lru, d.OldestSingle old entry ∧ d.table.lru.Perm lru ∧
      d.table.evictLruMetadata = (true, { d.table with
        map := d.table.map.erase old
        evictions := d.table.evictions + 1
        lru := lru.filter fun item => item.1 ≠ old })) ∨
    (∀ fp, d.table.Pinned fp) ∧
      ∃ lru, d.table.lru.Perm lru ∧ d.table.evictLruMetadata = (false, { d.table with lru := lru }) := by
  have hperm := d.table.lru.perm_insertionSort fun a b => a.2 ≤ b.2
  have hmem : ∀ fp entry, d.table.map.lookup fp = some entry →
      fp ∈ (d.table.lru.insertionSort fun a b => a.2 ≤ b.2).map Prod.fst := fun fp entry hfp =>
    (hperm.map Prod.fst).mem_iff.mpr ((h.agrees.mem_iff fp).mpr ⟨entry, hfp⟩)
  have holder := h.pairwise_older
  unfold DedupTable.evictLruMetadata
  split
  next hempty =>
    refine .inr ⟨fun fp entry hfp => ?_, _, .refl _, rfl⟩
    have := (h.agrees.mem_iff fp).mpr ⟨entry, hfp⟩
    rw [List.isEmpty_iff.mp hempty] at this
    exact absurd this List.not_mem_nil
  next =>
    rcases DedupTable.evictFirst_cases
        { d.table with lru := d.table.lru.insertionSort fun a b => a.2 ≤ b.2 }
        ((d.table.lru.insertionSort fun a b => a.2 ≤ b.2).map Prod.fst) with
      ⟨before, old, after, entry, hsplit, hbefore, hold, hone, hevict⟩ | ⟨hall, hevict⟩
    · refine .inl ⟨old, entry, _, ⟨hold, ?_, fun other e hother hsingle hne => ?_⟩, hperm.symm, hevict⟩
      · exact UInt32.le_antisymm hone (h.counted old entry hold)
      · -- A younger candidate comes after the dropped one, an older one is pinned.
        have hcandidate := hmem other e hother
        rw [hsplit] at hcandidate holder
        rcases List.mem_append.mp hcandidate with hin | hin
        · have hpinned := hbefore other hin e hother
          rw [hsingle] at hpinned
          exact absurd hpinned (UInt32.lt_irrefl 1)
        · have hafter := (List.mem_cons.mp hin).resolve_left hne
          exact (List.pairwise_cons.mp (List.pairwise_append.mp holder).2.1).1 other hafter
    · exact .inr ⟨fun fp entry hfp => hall fp (hmem fp entry hfp) entry hfp, _, hperm.symm, hevict⟩

/-- A fingerprint can be dropped, with its records in any order. -/
theorem Kept.erase (h : d.Kept m) (fp : Fingerprint) (evictions : UInt64)
    {lru : List (Fingerprint × UInt64)} (hlru : d.table.lru.Perm lru) :
    Kept m ⟨{ d.table with
      map := d.table.map.erase fp
      evictions := evictions
      lru := lru.filter fun item => item.1 ≠ fp }, d.touched⟩ where
  agrees := h.agrees.erase fp evictions hlru
  dated := h.dated.subset fun r hr => hlru.symm.subset (List.mem_of_mem_filter hr)
  tick := h.tick
  counted other entry hother := by
    dsimp only at hother
    rw [Finmap.lookup_erase_eq] at hother
    split at hother
    · cases hother
    · exact h.counted other entry hother
  maxEntries_eq := h.maxEntries_eq
  len_le := by
    refine le_trans ?_ h.len_le
    rw [DedupTable.len, DedupTable.len, Finmap.keys_erase]
    exact Finset.card_erase_le

/-- A new fingerprint is the one touched last. -/
theorem Kept.track (h : d.Kept m) {fp : Fingerprint} (hfp : d.table.map.lookup fp = none)
    (hroom : d.table.len < m) (hfits : d.touched.length < 2 ^ 64) (data : List UInt8) (slot : Nat) :
    Kept m ⟨d.table.track fp data slot, fp :: d.touched⟩ where
  agrees := h.agrees.track hfp data slot
  dated := by
    refine h.dated.touch (k := fp) (t := d.table.tick) ?_ fun r hr => ?_
    · rw [h.tick]
      exact Nat.mod_eq_of_lt hfits
    · rcases List.mem_append.mp hr with hr | hr
      · refine .inr ⟨hr, fun heq => ?_⟩
        obtain ⟨entry, hentry⟩ := (h.agrees.mem_iff fp).mp (heq ▸ List.mem_map_of_mem hr)
        cases hfp.symm.trans hentry
      · exact .inl (List.mem_singleton.mp hr)
  tick := by
    rw [DedupTable.track, List.length_cons, UInt64.ofNat_add, ← h.tick]
    rfl
  counted other entry hother := by
    rw [DedupTable.track] at hother
    dsimp only at hother
    rw [Finmap.lookup_insert_eq] at hother
    split at hother
    · cases hother
      exact UInt32.le_refl 1
    · exact h.counted other entry hother
  maxEntries_eq := h.maxEntries_eq
  len_le := by
    rw [DedupTable.len, DedupTable.track, Finmap.keys_insert]
    exact le_trans (Finset.card_insert_le _ _) hroom

/-- A counted reference changes, with or without a touch. -/
theorem Kept.update (h : d.Kept m) {fp : Fingerprint} {entry entry' : DedupEntry}
    (hfp : d.table.map.lookup fp = some entry) (hcounted : 1 ≤ entry'.refCount)
    {lru : List (Fingerprint × UInt64)} {tick : UInt64} {touched : List Fingerprint}
    (hlru : ∀ other, DedupTable.records lru other = DedupTable.records d.table.lru other)
    (hdated : Recency.Dated UInt64.toNat touched lru) (htick : tick = UInt64.ofNat touched.length) :
    Kept m ⟨{ d.table with map := d.table.map.insert fp entry', lru := lru, tick := tick }, touched⟩ where
  agrees := h.agrees.update hfp entry' hlru tick
  dated := hdated
  tick := htick
  counted other e hother := by
    dsimp only at hother
    rw [Finmap.lookup_insert_eq] at hother
    split at hother
    · cases hother
      exact hcounted
    · exact h.counted other e hother
  maxEntries_eq := h.maxEntries_eq
  len_le := by
    have hkeys : Insert.insert fp d.table.map.keys = d.table.map.keys :=
      Finset.insert_eq_of_mem (Finmap.mem_keys.mpr (Finmap.mem_of_lookup_eq_some hfp))
    rw [DedupTable.len]
    dsimp only
    rw [Finmap.keys_insert, hkeys]
    exact h.len_le

/-- The table after an insertion into a full table that drops a fingerprint. -/
def evicted (t : DedupTable) (old : Fingerprint) (lru : List (Fingerprint × UInt64)) : DedupTable :=
  { t with
    map := t.map.erase old
    evictions := t.evictions + 1
    lru := lru.filter fun item => item.1 ≠ old }

/-- What an insertion does: it refuses a tracked fingerprint and one that finds no room, and tracks
any other one, after it has dropped the oldest single one where the table is full. -/
theorem Kept.insert_cases (h : d.Kept m) (fp : Fingerprint) (data : List UInt8) (slot : Nat) :
    (∃ lru, d.table.lru.Perm lru ∧ d.table.insert fp data slot = (false, { d.table with lru := lru }) ∧
      (d.table.map.lookup fp = none → m ≤ d.table.len ∧ ∀ other, d.table.Pinned other)) ∨
    d.table.map.lookup fp = none ∧
      ((d.table.len < m ∧ d.table.insert fp data slot = (true, d.table.track fp data slot)) ∨
      m ≤ d.table.len ∧ ∃ old entry lru, d.OldestSingle old entry ∧ d.table.lru.Perm lru ∧
        d.table.insert fp data slot = (true, (evicted d.table old lru).track fp data slot)) := by
  unfold DedupTable.insert
  split
  next hsome =>
    refine .inl ⟨_, .refl _, rfl, fun hnone => ?_⟩
    rw [hnone] at hsome
    cases hsome
  next hnone =>
    have hfp : d.table.map.lookup fp = none := by simpa using hnone
    rw [h.maxEntries_eq]
    split
    next hfull =>
      rcases h.evict with ⟨old, entry, lru, hold, hlru, hevict⟩ | ⟨hpinned, lru, hlru, hevict⟩
      · rw [hevict]
        exact .inr ⟨hfp, .inr ⟨hfull, old, entry, lru, hold, hlru, rfl⟩⟩
      · rw [hevict]
        exact .inl ⟨lru, hlru, rfl, fun _ => ⟨hfull, hpinned⟩⟩
    next hroom => exact .inr ⟨hfp, .inl ⟨Nat.lt_of_not_le hroom, rfl⟩⟩

theorem Kept.insert (h : d.Kept m) (hfits : d.touched.length < 2 ^ 64) (fp : Fingerprint)
    (data : List UInt8) (slot : Nat) : (d.call (.insert fp data slot)).Kept m := by
  rw [DatedTable.call, DedupTable.call, TableCall.touches]
  rcases h.insert_cases fp data slot with ⟨lru, hlru, hinsert, -⟩ |
    ⟨hfp, ⟨hroom, hinsert⟩ | ⟨hfull, old, entry, lru, hold, hlru, hinsert⟩⟩
  · rw [hinsert]
    refine ⟨fun other => ?_, h.dated.subset hlru.symm.subset, h.tick, h.counted, h.maxEntries_eq,
      h.len_le⟩
    exact (DedupTable.records_perm hlru other).symm.trans (h.agrees other)
  · rw [hinsert]
    exact h.track hfp hroom hfits data slot
  · rw [hinsert]
    have hcard := Finmap.card_keys_of_lookup_some hold.tracked
    refine (h.erase old (d.table.evictions + 1) hlru).track ?_ ?_ hfits data slot
    · dsimp only
      rw [Finmap.lookup_erase_eq, hfp, ite_self]
    · have hle := h.len_le
      rw [DedupTable.len] at hle ⊢
      dsimp only
      omega

/-- A counted reference more, and a touch. -/
theorem Kept.addReference (h : d.Kept m) {fp : Fingerprint} (hfits : d.Fits (.addReference fp)) :
    (d.call (.addReference fp)).Kept m := by
  rw [DatedTable.call, DedupTable.call, TableCall.touches, DedupTable.addReference]
  cases hfp : d.table.map.lookup fp with
  | none => exact h
  | some entry =>
    have hcount := hfits.2 entry hfp
    refine h.update hfp ?_ (DedupTable.records_touch fp · d.table.tick d.table.lru) ?_ ?_
    · rw [UInt32.le_iff_toNat_le, UInt32.toNat_add]
      change 1 ≤ (entry.refCount.toNat + 1) % 2 ^ 32
      omega
    · refine h.dated.touch (k := fp) (t := d.table.tick) ?_ fun r hr =>
        DedupTable.mem_touch h.agrees.nodup hr
      rw [h.tick]
      exact Nat.mod_eq_of_lt hfits.1
    · change d.table.tick + 1 = UInt64.ofNat (d.touched.length + 1)
      rw [UInt64.ofNat_add, ← h.tick]
      rfl

/-- A counted reference less, which is the last one where the count is 1. -/
theorem Kept.removeReference (h : d.Kept m) (fp : Fingerprint) :
    (d.call (.removeReference fp)).Kept m := by
  change Kept m ⟨(d.table.removeReference fp).2, d.touched⟩
  rw [DedupTable.removeReference]
  cases hfp : d.table.map.lookup fp with
  | none => exact h
  | some entry =>
    dsimp only
    split
    next hone => exact h.erase fp d.table.evictions (.refl _)
    next hone =>
      refine h.update hfp ?_ (fun _ => rfl) h.dated h.tick
      have hlt := UInt32.lt_iff_toNat_lt.mp (UInt32.not_le.mp hone)
      rw [UInt32.le_iff_toNat_le, UInt32.toNat_sub_of_le _ _ (UInt32.le_of_lt (UInt32.not_le.mp hone))]
      change 1 < entry.refCount.toNat at hlt
      change 1 ≤ entry.refCount.toNat - 1
      omega

/-- A call that fits keeps the table. -/
theorem Kept.call (h : d.Kept m) {c : TableCall} (hfits : d.Fits c) : (d.call c).Kept m := by
  cases c with
  | lookup fp data =>
    obtain ⟨hits, misses, hlookup⟩ := d.table.lookup_frame fp data
    rw [DatedTable.call, DedupTable.call, hlookup]
    exact ⟨h.agrees, h.dated, h.tick, h.counted, h.maxEntries_eq, h.len_le⟩
  | insert fp data slot => exact h.insert hfits fp data slot
  | addReference fp => exact h.addReference hfits
  | removeReference fp => exact h.removeReference fp

theorem kept_new (maxEntries bloomCapacity : Nat) : (new maxEntries bloomCapacity).Kept maxEntries where
  agrees fp := by
    rw [new, DedupTable.new]
    dsimp only
    rw [Finmap.lookup_empty]
    rfl
  dated := fun r hr => absurd hr List.not_mem_nil
  tick := rfl
  counted fp entry hfp := nomatch (Finmap.lookup_empty fp).symm.trans hfp
  maxEntries_eq := rfl
  len_le := Nat.zero_le _

/-- No more entries than the table was made for; an insertion at capacity drops exactly the oldest
single fingerprint, or is refused where there is none; a refused insertion changes nothing but the
order of the records, and no insertion drops a shared fingerprint. -/
structure BoundedLru (maxEntries : Nat) (d : DatedTable) : Prop where
  len_le : d.table.len ≤ maxEntries
  atCapacity : ∀ fp data slot, d.table.map.lookup fp = none → maxEntries ≤ d.table.len →
    (∃ old entry, d.OldestSingle old entry ∧ (d.table.insert fp data slot).1 = true ∧
      (d.table.insert fp data slot).2.map =
        (d.table.map.erase old).insert fp ⟨1, slot, pagePrefix data⟩) ∨
    ((∀ other e, d.table.map.lookup other = some e → 1 < e.refCount) ∨ maxEntries = 0) ∧
      (d.table.insert fp data slot).1 = false
  refused : ∀ fp data slot, (d.table.insert fp data slot).1 = false →
    (d.table.insert fp data slot).2.map = d.table.map ∧
    (d.table.insert fp data slot).2.bloom = d.table.bloom ∧
    d.table.lru.Perm (d.table.insert fp data slot).2.lru
  shared : ∀ fp data slot other e, d.table.map.lookup other = some e → 1 < e.refCount →
    (d.table.insert fp data slot).2.map.lookup other = some e

theorem Kept.toBoundedLru (h : d.Kept m) : d.BoundedLru m where
  len_le := h.len_le
  atCapacity fp data slot hfp hfull := by
    rcases h.insert_cases fp data slot with ⟨lru, -, hinsert, hpinned⟩ |
      ⟨-, ⟨hroom, -⟩ | ⟨-, old, entry, lru, hold, -, hinsert⟩⟩
    · rw [hinsert]
      exact .inr ⟨.inl (hpinned hfp).2, rfl⟩
    · exact absurd hfull (Nat.not_le.mpr hroom)
    · rw [hinsert]
      exact .inl ⟨old, entry, hold, rfl, rfl⟩
  refused fp data slot hanswer := by
    rcases h.insert_cases fp data slot with ⟨lru, hlru, hinsert, -⟩ |
      ⟨-, ⟨-, hinsert⟩ | ⟨-, old, entry, lru, -, -, hinsert⟩⟩
    · rw [hinsert]
      exact ⟨rfl, rfl, hlru⟩
    · rw [hinsert] at hanswer
      cases hanswer
    · rw [hinsert] at hanswer
      cases hanswer
  shared fp data slot other e hother hshared := by
    have hentered : ∀ {map : Finmap fun _ : Fingerprint => DedupEntry} (entry : DedupEntry),
        d.table.map.lookup fp = none → map.lookup other = some e →
        (map.insert fp entry).lookup other = some e := fun entry hfp hmap => by
      rw [Finmap.lookup_insert_eq, if_neg, hmap]
      rintro rfl
      cases hfp.symm.trans hother
    rcases h.insert_cases fp data slot with ⟨lru, -, hinsert, -⟩ |
      ⟨hfp, ⟨-, hinsert⟩ | ⟨-, old, entry, lru, hold, -, hinsert⟩⟩
    · rw [hinsert]
      exact hother
    · rw [hinsert]
      exact hentered _ hfp hother
    · rw [hinsert]
      refine hentered _ hfp ?_
      rw [evicted]
      dsimp only
      rw [Finmap.lookup_erase_eq, if_neg, hother]
      rintro rfl
      cases hold.tracked.symm.trans hother
      rw [hold.single] at hshared
      exact UInt32.lt_irrefl 1 hshared

/-- In a run in which no tick and no reference count wraps, the table is bounded and drops the
oldest single fingerprint. -/
theorem boundedLru (maxEntries bloomCapacity : Nat) {calls : List TableCall}
    (hfits : Run.Along call Fits (new maxEntries bloomCapacity) calls) :
    (Run.run call (new maxEntries bloomCapacity) calls).BoundedLru maxEntries :=
  Kept.toBoundedLru (hfits.invariant (fun _ _ h hfits => h.call hfits) (kept_new maxEntries bloomCapacity))

/-- The younger of two fingerprints stays when a third one comes into a table for two. -/
theorem boundedLru_apply : (Run.run call (new 2 1)
    [.insert (fun _ => 0) [1] 0, .insert (fun _ => 1) [2] 1, .addReference (fun _ => 0),
      .removeReference (fun _ => 0), .insert (fun _ => 2) [3] 2]).BoundedLru 2 :=
  boundedLru 2 1 (by decide +kernel)

/-- References to a tracked fingerprint are counted one by one, in wrapping arithmetic. -/
theorem run_addReference (n : Nat) {fp : Fingerprint} {entry : DedupEntry}
    (hfp : d.table.map.lookup fp = some entry) :
    (Run.run call d (List.replicate n (.addReference fp))).table.map.keys = d.table.map.keys ∧
    ∀ other, (Run.run call d (List.replicate n (.addReference fp))).table.map.lookup other =
      if other = fp then some { entry with refCount := entry.refCount + .ofNat n }
      else d.table.map.lookup other := by
  induction n generalizing d entry with
  | zero =>
    refine ⟨rfl, fun other => ?_⟩
    rw [List.replicate_zero, Run.run_nil, show UInt32.ofNat 0 = 0 from rfl, UInt32.add_zero]
    split
    next heq => rw [heq, hfp]
    next => rfl
  | succ n ih =>
    obtain ⟨lru, tick, hadd⟩ := DedupTable.addReference_of_tracked hfp
    have hcall : (d.call (.addReference fp)).table.map =
        d.table.map.insert fp { entry with refCount := entry.refCount + 1 } := by
      rw [DatedTable.call, DedupTable.call, hadd]
    obtain ⟨hkeys, hlookup⟩ := ih (d := d.call (.addReference fp)) (by rw [hcall, Finmap.lookup_insert])
    rw [List.replicate_succ, Run.run_cons]
    refine ⟨?_, fun other => ?_⟩
    · rw [hkeys, hcall, Finmap.keys_insert]
      exact Finset.insert_eq_of_mem (Finmap.mem_keys.mpr (Finmap.mem_of_lookup_eq_some hfp))
    · rw [hlookup, hcall, Finmap.lookup_insert_eq]
      split
      · rw [UInt32.add_assoc, Nat.add_comm n 1, UInt32.ofNat_add]
        rfl
      · rfl

/-- After 2^32 references a fingerprint looks unused: a table for one drops it for another one. -/
theorem not_boundedLru_of_wrap : ¬ (Run.run call (new 1 1) (.insert (fun _ => 0) [1] 0 ::
    List.replicate (2 ^ 32 - 1) (.addReference fun _ => 0))).BoundedLru 1 := by
  intro h
  have hfp : ((new 1 1).call (.insert (fun _ => 0) [1] 0)).table.map.lookup (fun _ => 0) =
      some ⟨1, 0, pagePrefix [1]⟩ := by
    decide +kernel
  obtain ⟨hkeys, hlookup⟩ := run_addReference (2 ^ 32 - 1) hfp
  have hother : ∀ other : Fingerprint, other ≠ (fun _ => 0) →
      ((new 1 1).call (.insert (fun _ => 0) [1] 0)).table.map.lookup other = none := by
    intro other hne
    exact (Finmap.lookup_insert_of_ne ∅ hne).trans (Finmap.lookup_empty other)
  have hcapacity := h.atCapacity (fun _ => 1) [2] 1
  rw [Run.run_cons, hlookup, if_neg (by decide), hother _ (by decide), DedupTable.len, hkeys] at hcapacity
  rcases hcapacity rfl (by decide +kernel) with ⟨old, entry, hold, -⟩ | ⟨hall | hzero, -⟩
  · have htracked := hold.tracked
    rw [hlookup] at htracked
    split at htracked
    next =>
      cases htracked
      exact absurd hold.single (by decide)
    next hne => cases (hother old hne).symm.trans htracked
  · have hzero := hall (fun _ => 0) ⟨0, 0, pagePrefix [1]⟩ (by
      rw [hlookup, if_pos rfl]
      rfl)
    exact absurd hzero (by decide)
  · cases hzero

end DatedTable

end Animaksm.Proxy

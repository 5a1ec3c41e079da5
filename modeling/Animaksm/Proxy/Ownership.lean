import Animaksm.Lib.RefPool
import Animaksm.Proxy.Engine

/-!
# Ownership of slots and references

The allocator and the dedup table form a pool of reference-counted cells. The
claims on it are the translation entries, and those that a request in progress
holds between two critical sections. Every section moves claims between the
table and the request; the books of the pool stay right as long as a release
never meets its fingerprint tracked at another slot and no count wraps.
-/

namespace Animaksm.Proxy

open RefPool

/-- What a translation entry is entitled to. -/
def TranslationEntry.claim (entry : TranslationEntry) : Claim Fingerprint :=
  match entry.kind with
  | .direct => .sole entry.backendSlot
  | .deduplicated fp => .shared fp entry.backendSlot

@[simp] theorem TranslationEntry.claim_direct (slot : Nat) :
    (TranslationEntry.direct slot).claim = .sole slot := rfl

@[simp] theorem TranslationEntry.claim_deduplicated (fp : Fingerprint) (slot : Nat) :
    (TranslationEntry.deduplicated fp slot).claim = .shared fp slot := rfl

@[simp] theorem TranslationEntry.cell_claim (entry : TranslationEntry) :
    entry.claim.cell = entry.backendSlot := by
  unfold claim
  split <;> rfl

/-- Entries are determined by their claims. -/
theorem TranslationEntry.claim_injective : Function.Injective TranslationEntry.claim := by
  rintro ⟨k, s⟩ ⟨l, r⟩ h
  cases k <;> cases l <;> simp_all [claim]

/-- The shared cells of a dedup table: count and slot of each tracked fingerprint. -/
def DedupTable.shares (t : DedupTable) (fp : Fingerprint) : Option (Nat × Nat) :=
  (t.map.lookup fp).map fun entry => (entry.refCount.toNat, entry.backendOffset)

theorem DedupTable.shares_eq_some {t : DedupTable} {fp : Fingerprint} {n slot : Nat} :
    t.shares fp = some (n, slot) ↔ ∃ entry, t.map.lookup fp = some entry ∧
      entry.refCount.toNat = n ∧ entry.backendOffset = slot := by
  simp [shares]

theorem DedupTable.shares_eq_none {t : DedupTable} {fp : Fingerprint} :
    t.shares fp = none ↔ t.map.lookup fp = none := by
  simp [shares]

/-- Writing one entry of the map rewrites one shared cell. -/
theorem DedupTable.shares_of_insert (t t' : DedupTable) (fp : Fingerprint) (entry : DedupEntry)
    (h : t'.map = t.map.insert fp entry) :
    t'.shares = Function.update t.shares fp (some (entry.refCount.toNat, entry.backendOffset)) := by
  funext a
  rw [shares, h, Finmap.lookup_insert_eq, Function.update_apply]
  split <;> rfl

/-- Dropping one entry of the map drops one shared cell. -/
theorem DedupTable.shares_of_erase (t t' : DedupTable) (fp : Fingerprint)
    (h : t'.map = t.map.erase fp) : t'.shares = Function.update t.shares fp none := by
  funext a
  rw [shares, h, Finmap.lookup_erase_eq, Function.update_apply]
  split <;> rfl

/-- A page entered in the table is shared by one claim. -/
theorem DedupTable.shares_track (t : DedupTable) (fp : Fingerprint) (data : List UInt8)
    (slot : Nat) : (t.track fp data slot).shares = Function.update t.shares fp (some (1, slot)) :=
  shares_of_insert t _ fp ⟨1, slot, pagePrefix data⟩ rfl

/-- A reference is counted in the entry's 32 bits. -/
theorem DedupTable.shares_addReference {t : DedupTable} {fp : Fingerprint} {entry : DedupEntry}
    (h : t.map.lookup fp = some entry) : (t.addReference fp).2.shares =
      Function.update t.shares fp (some ((entry.refCount + 1).toNat, entry.backendOffset)) := by
  refine shares_of_insert t _ fp { entry with refCount := entry.refCount + 1 } ?_
  rw [addReference, h]

/-- Counts above one lose exactly one. -/
theorem DedupEntry.toNat_refCount_sub_one {entry : DedupEntry} (h : 1 < entry.refCount) :
    (entry.refCount - 1).toNat + 1 = entry.refCount.toNat ∧ 0 < (entry.refCount - 1).toNat := by
  have hlt : 1 < entry.refCount.toNat := UInt32.lt_iff_toNat_lt.mp h
  rw [UInt32.toNat_sub_of_le _ _ (UInt32.le_of_lt h), UInt32.toNat_one]
  omega

/-- The table tracks this entry's fingerprint, but at another slot than the entry's. -/
def DedupTable.TracksElsewhere (t : DedupTable) (entry : TranslationEntry) : Prop :=
  ∃ fp tracked, entry.kind = .deduplicated fp ∧ t.map.lookup fp = some tracked ∧
    tracked.backendOffset ≠ entry.backendSlot

instance (t : DedupTable) (entry : TranslationEntry) : Decidable (t.TracksElsewhere entry) :=
  match hk : entry.kind with
  | .direct => isFalse fun ⟨_, _, h, _⟩ => by rw [hk] at h; cases h
  | .deduplicated fp =>
    match hl : t.map.lookup fp with
    | none => isFalse fun ⟨_, _, h, h', _⟩ => by rw [hk] at h; cases h; rw [hl] at h'; cases h'
    | some tracked => decidable_of_iff (tracked.backendOffset ≠ entry.backendSlot)
        ⟨fun hne => ⟨fp, tracked, hk, hl, hne⟩, fun ⟨_, _, h, h', hne⟩ => by
          rw [hk] at h; cases h; rw [hl] at h'; cases h'; exact hne⟩

/-- Where fingerprints are tracked depends on the map alone. -/
theorem DedupTable.tracksElsewhere_congr {t t' : DedupTable} (h : t'.map = t.map)
    (entry : TranslationEntry) : t'.TracksElsewhere entry ↔ t.TracksElsewhere entry := by
  rw [TracksElsewhere, TracksElsewhere, h]

/-- Counting a reference moves no tracked fingerprint. -/
theorem DedupTable.tracksElsewhere_addReference {t : DedupTable} {fp : Fingerprint}
    {entry : TranslationEntry} (h : (t.addReference fp).2.TracksElsewhere entry) :
    t.TracksElsewhere entry := by
  obtain ⟨g, tracked, hk, hl, hne⟩ := h
  unfold addReference at hl
  cases hfp : t.map.lookup fp with
  | none =>
    rw [hfp] at hl
    exact ⟨g, tracked, hk, hl, hne⟩
  | some old =>
    simp only [hfp, Finmap.lookup_insert_eq] at hl
    split at hl
    · next hg =>
      cases hl
      exact ⟨g, old, hk, hg ▸ hfp, hne⟩
    · exact ⟨g, tracked, hk, hl, hne⟩

namespace ProxyEngine

/-- The allocator and the dedup table as one pool. -/
def pool (e : ProxyEngine) : Pool Fingerprint :=
  ⟨e.slotAllocator.freeSlots, e.slotAllocator.nextSlot, e.dedupTable.shares⟩

/-- Rewriting one shared cell of the dedup table rewrites it in the pool. -/
theorem pool_withTable {e : ProxyEngine} {t : DedupTable} {fp : Fingerprint}
    {cell : Option (Nat × Nat)} (h : t.shares = Function.update e.dedupTable.shares fp cell) :
    ({ e with dedupTable := t } : ProxyEngine).pool = e.pool.set fp cell := by
  simp only [pool, Pool.set, h]

/-- The claims of the translation table. -/
def claims (e : ProxyEngine) : Multiset (Claim Fingerprint) :=
  e.translation.values.map TranslationEntry.claim

/-- The books of the engine are right, with these further claims held by requests. -/
def Owned (e : ProxyEngine) (held : Multiset (Claim Fingerprint)) : Prop :=
  Accounts e.pool (e.claims + held)

theorem mem_claims {e : ProxyEngine} {x : Claim Fingerprint} :
    x ∈ e.claims ↔ ∃ v entry, e.translation.lookup v = some entry ∧ entry.claim = x := by
  simp only [claims, Multiset.mem_map, Finmap.mem_values]
  constructor
  · rintro ⟨entry, ⟨v, hv⟩, rfl⟩
    exact ⟨v, entry, hv, rfl⟩
  · rintro ⟨v, entry, hv, rfl⟩
    exact ⟨entry, ⟨v, hv⟩, rfl⟩

/-- A mapped offset's claim is among the claims of the table. -/
theorem claim_mem_of_lookup {e : ProxyEngine} {v : UInt64} {entry : TranslationEntry}
    (h : e.translation.lookup v = some entry) (held : Multiset (Claim Fingerprint)) :
    entry.claim ∈ e.claims + held :=
  Multiset.mem_add.mpr (Or.inl (mem_claims.mpr ⟨v, entry, h, rfl⟩))

/-- Nothing is mapped in an engine that just opened its store. -/
theorem owned_ofStore (store : PageStore) (maxEntries bloomCapacity : Nat) :
    (ofStore store maxEntries bloomCapacity).Owned 0 := Accounts.fresh

/-! ## Slots -/

/-- A slot that was allocated is held as sole ownership. -/
theorem Owned.allocateSlot {e e' : ProxyEngine} {held : Multiset (Claim Fingerprint)} {slot : Nat}
    (h : e.Owned held) (he : e.allocateSlot = (.ok slot, e')) :
    e'.Owned (.sole slot ::ₘ held) := by
  rcases e.allocateSlot_cases with ⟨slot', ha, hc⟩ | ⟨-, hc⟩
  · rw [hc] at he
    cases he
    unfold Owned at h ⊢
    rw [Multiset.add_cons]
    rcases e.slotAllocator.allocate_cases with ⟨s, rest, hf, hs, hf', hn⟩ | ⟨hf, -, hs, hf', hn⟩ | hfull
    · obtain rfl : s = slot := Option.some.inj (hs.symm.trans ha)
      have hpool : ({ e with slotAllocator := e.slotAllocator.allocate.2 } : ProxyEngine).pool =
          { e.pool with free := rest } := by simp only [pool, hf', hn]
      rw [hpool]
      exact Accounts.take_free h hf
    · obtain rfl : e.slotAllocator.nextSlot = slot := Option.some.inj (hs.symm.trans ha)
      have hpool : ({ e with slotAllocator := e.slotAllocator.allocate.2 } : ProxyEngine).pool =
          { e.pool with next := e.pool.next + 1 } := by simp only [pool, hf', hf, hn]
      rw [hpool]
      exact Accounts.take_next h hf
    · rw [hfull.2.2] at ha
      cases ha
  · rw [hc] at he
    cases he

/-- A solely owned slot may be given back. -/
theorem Owned.freeSlot {e : ProxyEngine} {held : Multiset (Claim Fingerprint)} {slot : Nat}
    (h : e.Owned (.sole slot ::ₘ held)) : (e.freeSlot slot).Owned held := by
  unfold Owned at h ⊢
  rw [Multiset.add_cons] at h
  have hlt : slot < e.slotAllocator.maxSlots :=
    lt_of_lt_of_le (h.claim_lt _ (Multiset.mem_cons_self _ _)) e.slotAllocator.nextSlot_le
  have hpool : (e.freeSlot slot).pool = { e.pool with free := e.pool.free ++ [slot] } := by
    simp only [pool, ProxyEngine.freeSlot, SlotAllocator.freeSlots_free hlt,
      SlotAllocator.nextSlot_free]
  rw [hpool]
  exact Accounts.give_back h

/-- No translation uses a slot that a request owns alone. -/
theorem Owned.backendSlot_ne {e : ProxyEngine} {held : Multiset (Claim Fingerprint)} {slot : Nat}
    (h : e.Owned (.sole slot ::ₘ held)) {v : UInt64} {entry : TranslationEntry}
    (hv : e.translation.lookup v = some entry) : entry.backendSlot ≠ slot := by
  unfold Owned at h
  rw [Multiset.add_cons] at h
  have hne := h.cell_ne_of_sole (claim_mem_of_lookup hv held)
  rwa [entry.cell_claim] at hne

/-! ## References -/

/-- A solely owned slot may be shared under a fingerprint that is not tracked. -/
theorem Owned.track {e : ProxyEngine} {held : Multiset (Claim Fingerprint)} {slot : Nat}
    {fp : Fingerprint} {table : DedupTable} (h : e.Owned (.sole slot ::ₘ held))
    (hnone : e.dedupTable.map.lookup fp = none)
    (htable : table.shares = Function.update e.dedupTable.shares fp (some (1, slot))) :
    ({ e with dedupTable := table }).Owned (.shared fp slot ::ₘ held) := by
  unfold Owned at h ⊢
  rw [Multiset.add_cons] at h ⊢
  rw [pool_withTable htable]
  exact Accounts.track h (DedupTable.shares_eq_none.mpr hnone)

/-- Whatever the table does with a page offered to it, the slot stays accounted for:
shared when the page was taken, owned alone when it was refused. -/
theorem Owned.insert {e : ProxyEngine} {held : Multiset (Claim Fingerprint)} {slot : Nat}
    (h : e.Owned (.sole slot ::ₘ held)) (fp : Fingerprint) (data : List UInt8) :
    ({ e with dedupTable := (e.dedupTable.insert fp data slot).2 }).Owned
      ((if (e.dedupTable.insert fp data slot).1 then .shared fp slot else .sole slot) ::ₘ held) := by
  cases hb : (e.dedupTable.insert fp data slot).1 with
  | false =>
    obtain ⟨lru, ht⟩ := DedupTable.insert_false hb
    rw [ht]
    exact h
  | true =>
    obtain ⟨hnone, ⟨-, ht⟩ | ⟨old, entry, lru, -, hold, hone, ht⟩⟩ := DedupTable.insert_true hb
    · rw [ht]
      exact h.track hnone (e.dedupTable.shares_track fp data slot)
    · -- the table drops a singly referenced fingerprint before it takes this one
      rw [ht]
      generalize hmid : ({ e.dedupTable with
        map := e.dedupTable.map.erase old, evictions := e.dedupTable.evictions + 1, lru := lru } :
          DedupTable) = mid
      have hmap : mid.map = e.dedupTable.map.erase old := by rw [← hmid]
      have hdrop : ({ e with dedupTable := mid } : ProxyEngine).Owned (.sole slot ::ₘ held) := by
        unfold Owned at h ⊢
        rw [Multiset.add_cons] at h ⊢
        rw [pool_withTable (DedupTable.shares_of_erase _ _ _ hmap)]
        exact Accounts.untrack h (DedupTable.shares_eq_some.mpr ⟨entry, hold, rfl, rfl⟩)
          (UInt32.le_iff_toNat_le.mp hone)
      have hnone' : mid.map.lookup fp = none := by
        rw [hmap, Finmap.lookup_erase_eq, hnone, ite_self]
      exact hdrop.track hnone' (mid.shares_track fp data slot)

/-- A counted reference is held by the request, unless the count is at its limit. -/
theorem Owned.addReference {e : ProxyEngine} {held : Multiset (Claim Fingerprint)}
    {fp : Fingerprint} {entry : DedupEntry} (h : e.Owned held)
    (he : e.dedupTable.map.lookup fp = some entry) (hmax : entry.refCount.toNat + 1 < 2 ^ 32) :
    ({ e with dedupTable := (e.dedupTable.addReference fp).2 }).Owned
      (.shared fp entry.backendOffset ::ₘ held) := by
  unfold Owned at h ⊢
  rw [Multiset.add_cons]
  have hcount : (entry.refCount + 1).toNat = entry.refCount.toNat + 1 := by
    rw [UInt32.toNat_add, UInt32.toNat_one, Nat.mod_eq_of_lt hmax]
  have hshares := DedupTable.shares_addReference he
  rw [hcount] at hshares
  rw [pool_withTable hshares]
  exact Accounts.join h (DedupTable.shares_eq_some.mpr ⟨entry, he, rfl, rfl⟩)

/-- Giving up a reference that is not tracked elsewhere: other users may remain, or the
slot is owned alone from then on. -/
theorem Owned.removeReference {e : ProxyEngine} {held : Multiset (Claim Fingerprint)}
    {fp : Fingerprint} {slot : Nat} (h : e.Owned (.shared fp slot ::ₘ held))
    (hhere : ∀ tracked, e.dedupTable.map.lookup fp = some tracked → tracked.backendOffset = slot) :
    match e.dedupTable.removeReference fp with
    | (.stillReferenced, table) => ({ e with dedupTable := table }).Owned held
    | (.removed freed, table) =>
      freed = slot ∧ ({ e with dedupTable := table }).Owned (.sole slot ::ₘ held)
    | (.notTracked, table) => ({ e with dedupTable := table }).Owned (.sole slot ::ₘ held) := by
  unfold DedupTable.removeReference
  unfold Owned at h
  rw [Multiset.add_cons] at h
  cases hl : e.dedupTable.map.lookup fp with
  | none =>
    dsimp only
    unfold Owned
    rw [Multiset.add_cons]
    refine Accounts.own h fun n hn => ?_
    obtain ⟨tracked, ht, -⟩ := DedupTable.shares_eq_some.mp hn
    rw [hl] at ht
    cases ht
  | some tracked =>
    obtain rfl := hhere tracked hl
    have htable : e.pool.table fp = some (tracked.refCount.toNat, tracked.backendOffset) :=
      DedupTable.shares_eq_some.mpr ⟨tracked, hl, rfl, rfl⟩
    by_cases hlast : tracked.refCount ≤ 1
    · simp only [hlast, if_true]
      refine ⟨trivial, ?_⟩
      unfold Owned
      rw [Multiset.add_cons, pool_withTable (DedupTable.shares_of_erase e.dedupTable _ fp rfl)]
      exact Accounts.leave_last h htable (UInt32.le_iff_toNat_le.mp hlast)
    · obtain ⟨hcount, hpos⟩ := DedupEntry.toNat_refCount_sub_one (UInt32.not_le.mp hlast)
      simp only [hlast, if_false]
      unfold Owned
      rw [pool_withTable (DedupTable.shares_of_insert e.dedupTable _ fp
        { tracked with refCount := tracked.refCount - 1 } rfl)]
      rw [← hcount] at htable
      exact Accounts.leave h htable hpos

/-! ## Translations -/

/-- Mapping an offset trades the held claim for that of the displaced entry. -/
theorem claims_setTranslation (e : ProxyEngine) (held : Multiset (Claim Fingerprint)) (v : UInt64)
    (entry : TranslationEntry) :
    (e.setTranslation v entry).2.claims +
        (e.translation.lookup v).elim held (fun old => old.claim ::ₘ held) =
      e.claims + (entry.claim ::ₘ held) := by
  unfold claims ProxyEngine.setTranslation
  cases hv : e.translation.lookup v with
  | none =>
    rw [Finmap.values_insert_of_lookup_none hv, Multiset.map_cons, Multiset.cons_add,
      Multiset.add_cons, Option.elim_none]
  | some old =>
    have hcons := congrArg (Multiset.map TranslationEntry.claim) (Finmap.cons_values_insert hv entry)
    rw [Multiset.map_cons, Multiset.map_cons] at hcons
    rw [Option.elim_some, Multiset.add_cons, ← Multiset.cons_add, hcons, Multiset.cons_add,
      Multiset.add_cons]

/-- Unmapping an offset hands its claim to the request. -/
theorem claims_removeTranslation (e : ProxyEngine) (held : Multiset (Claim Fingerprint))
    (v : UInt64) :
    (e.removeTranslation v).2.claims +
        (e.translation.lookup v).elim held (fun old => old.claim ::ₘ held) =
      e.claims + held := by
  unfold claims ProxyEngine.removeTranslation
  cases hv : e.translation.lookup v with
  | none =>
    rw [Finmap.erase_of_lookup_none hv, Option.elim_none]
  | some old =>
    rw [Finmap.values_eq_cons_erase hv, Multiset.map_cons, Multiset.cons_add, Option.elim_some,
      Multiset.add_cons]

theorem Owned.setTranslation {e : ProxyEngine} {held : Multiset (Claim Fingerprint)}
    {entry : TranslationEntry} (h : e.Owned (entry.claim ::ₘ held)) (v : UInt64) :
    (e.setTranslation v entry).2.Owned
      ((e.translation.lookup v).elim held fun old => old.claim ::ₘ held) := by
  unfold Owned
  rw [claims_setTranslation]
  exact h

theorem Owned.removeTranslation {e : ProxyEngine} {held : Multiset (Claim Fingerprint)}
    (h : e.Owned held) (v : UInt64) :
    (e.removeTranslation v).2.Owned
      ((e.translation.lookup v).elim held fun old => old.claim ::ₘ held) := by
  unfold Owned
  rw [claims_removeTranslation]
  exact h

end ProxyEngine

end Animaksm.Proxy

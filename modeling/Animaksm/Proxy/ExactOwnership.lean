import Mathlib.Data.Set.Card
import Animaksm.Proxy.SharedPage

/-!
# Exact ownership of slots and references

While no metadata is evicted, the tables of a session agree exactly: reference
counts are numbers of translations, and the slots handed out are either free or
named by a translation. The one exception is a count that wraps at 2^32, which
takes a full complement of translations of one page, and one more reference
taken before an old one is dropped.
-/

namespace Animaksm.Proxy

open RefPool

/-- How many offsets are mapped to a page under this fingerprint. -/
def ProxyEngine.references (e : ProxyEngine) (fp : Fingerprint) : Nat :=
  e.translation.values.countP fun x => x.kind = .deduplicated fp

/-- Reference counts, translations and the allocator agree. -/
structure ExactOwnership (e : ProxyEngine) : Prop where
  /-- A count is the number of translations under its fingerprint. -/
  refCount_eq : ∀ fp entry, e.dedupTable.map.lookup fp = some entry →
    entry.refCount.toNat = e.references fp
  /-- A tracked fingerprint is in use. -/
  references_pos : ∀ fp entry, e.dedupTable.map.lookup fp = some entry → 0 < e.references fp
  /-- Translations under a fingerprint are tracked, at their own slot. -/
  tracked : ∀ v fp slot, e.translation.lookup v = some (.deduplicated fp slot) →
    ∃ entry, e.dedupTable.map.lookup fp = some entry ∧ entry.backendOffset = slot
  /-- Tracked fingerprints have different slots. -/
  tracked_injective : ∀ fp fp' entry entry', e.dedupTable.map.lookup fp = some entry →
    e.dedupTable.map.lookup fp' = some entry' → entry.backendOffset = entry'.backendOffset → fp = fp'
  /-- Direct translations have different slots. -/
  direct_injective : ∀ v v' slot, e.translation.lookup v = some (.direct slot) →
    e.translation.lookup v' = some (.direct slot) → v = v'
  /-- A direct translation has no tracked slot. -/
  direct_ne_tracked : ∀ v slot fp entry, e.translation.lookup v = some (.direct slot) →
    e.dedupTable.map.lookup fp = some entry → entry.backendOffset ≠ slot
  /-- Free slots are free once. -/
  free_nodup : e.slotAllocator.freeSlots.Nodup
  /-- Free slots were handed out before. -/
  free_lt : ∀ slot ∈ e.slotAllocator.freeSlots, slot < e.slotAllocator.nextSlot
  /-- Mapped slots were handed out before. -/
  mapped_lt : ∀ v entry, e.translation.lookup v = some entry →
    entry.backendSlot < e.slotAllocator.nextSlot
  /-- A handed-out slot is free exactly when no translation names it. -/
  free_iff : ∀ slot < e.slotAllocator.nextSlot, slot ∈ e.slotAllocator.freeSlots ↔
    ∀ v entry, e.translation.lookup v = some entry → entry.backendSlot ≠ slot

section

variable {e : ProxyEngine} {m : Memory}

theorem TranslationEntry.claim_eq_shared {entry : TranslationEntry} {fp : Fingerprint}
    {slot : Nat} : entry.claim = .shared fp slot ↔ entry = .deduplicated fp slot :=
  ⟨fun h => TranslationEntry.claim_injective (h.trans rfl), fun h => h ▸ rfl⟩

/-- Strictly, the users of a shared slot are the translations under its fingerprint. -/
private theorem Backs.kind_iff_cell (h : Backs True e 0 m) {fp : Fingerprint} {entry : DedupEntry}
    (hl : e.dedupTable.map.lookup fp = some entry) {x : TranslationEntry}
    (hx : x ∈ e.translation.values) :
    x.kind = .deduplicated fp ↔ x.claim.cell = entry.backendOffset := by
  have hshare : e.pool.table fp = some (entry.refCount.toNat, entry.backendOffset) :=
    DedupTable.shares_eq_some.mpr ⟨entry, hl, rfl, rfl⟩
  have hmem : x.claim ∈ e.claims + 0 := by
    rw [add_zero]
    exact Multiset.mem_map_of_mem _ hx
  obtain ⟨kind, slot⟩ := x
  constructor
  · rintro rfl
    obtain ⟨n, hn⟩ := h.tracked trivial fp slot hmem
    have heq := hshare.symm.trans hn
    simp only [Option.some.injEq, Prod.mk.injEq] at heq
    exact heq.2.symm
  · intro hcell
    have huser := mem_users.mpr ⟨hmem, hcell⟩
    rw [(h.owned.counted fp _ _ hshare).2] at huser
    have hx := Multiset.eq_of_mem_replicate huser
    rw [TranslationEntry.claim_eq_shared] at hx
    rw [hx]
    rfl

/-- A tracked count is the number of translations under the fingerprint, and positive. -/
private theorem Backs.refCount_eq (h : Backs True e 0 m) {fp : Fingerprint} {entry : DedupEntry}
    (hl : e.dedupTable.map.lookup fp = some entry) :
    entry.refCount.toNat = e.references fp ∧ 0 < e.references fp := by
  obtain ⟨hpos, hu⟩ := h.owned.counted fp _ _ (DedupTable.shares_eq_some.mpr ⟨entry, hl, rfl, rfl⟩)
  have hcount : e.references fp = entry.refCount.toNat := by
    rw [← Multiset.card_replicate entry.refCount.toNat (Claim.shared fp entry.backendOffset), ← hu,
      add_zero, users, ← Multiset.countP_eq_card_filter, ProxyEngine.claims, Multiset.countP_map,
      ← Multiset.countP_eq_card_filter]
    exact Multiset.countP_congr rfl fun x hx => by rw [h.kind_iff_cell hl hx]
  rw [hcount]
  exact ⟨rfl, hpos⟩

/-- Offsets whose claims sit alone on one slot are the same offset. -/
private theorem Backs.offset_unique (h : Backs True e 0 m) {v v' : UInt64} {slot : Nat}
    (hv : e.translation.lookup v = some (.direct slot))
    (hv' : e.translation.lookup v' = some (.direct slot)) : v = v' := by
  by_contra hne
  have hmem : Claim.sole slot ∈ e.claims + 0 := ProxyEngine.claim_mem_of_lookup hv 0
  have hnot : ¬ e.pool.Counts (Claim.sole slot) := by
    rintro ⟨_, _, hk, -⟩
    cases hk
  have halone := h.owned.alone _ hmem hnot
  have hrest : (e.translation.erase v).lookup v' = some (.direct slot) := by
    rw [Finmap.lookup_erase_eq, if_neg (Ne.symm hne), hv']
  rw [add_zero, ProxyEngine.claims, Finmap.values_eq_cons_erase hv,
    Finmap.values_eq_cons_erase hrest, Multiset.map_cons, Multiset.map_cons,
    TranslationEntry.claim_direct, users_cons_self, users_cons_self] at halone
  have hcard := congrArg Multiset.card halone
  simp at hcard

/-- What a strict session owns, it owns exactly. -/
theorem Backs.owns_exactly (h : Backs True e 0 m) : ExactOwnership e where
  refCount_eq fp entry hl := (h.refCount_eq hl).1
  references_pos fp entry hl := (h.refCount_eq hl).2
  tracked v fp slot hv := by
    obtain ⟨n, hn⟩ := h.tracked trivial fp slot (ProxyEngine.claim_mem_of_lookup hv 0)
    obtain ⟨entry, hl, -, hslot⟩ := DedupTable.shares_eq_some.mp hn
    exact ⟨entry, hl, hslot⟩
  tracked_injective fp fp' entry entry' hl hl' hslot :=
    h.owned.key_unique (DedupTable.shares_eq_some.mpr ⟨entry, hl, rfl, rfl⟩)
      (DedupTable.shares_eq_some.mpr ⟨entry', hl', rfl, hslot.symm⟩)
  direct_injective v v' slot hv hv' := h.offset_unique hv hv'
  direct_ne_tracked v slot fp entry hv hl hslot := by
    have hmem := Finmap.mem_values.mpr ⟨v, hv⟩
    have hkind := (h.kind_iff_cell hl hmem).mpr (by rw [hslot, TranslationEntry.cell_claim]; rfl)
    cases hkind
  free_nodup := h.owned.free_nodup
  free_lt := h.owned.free_lt
  mapped_lt v entry hv := by
    have hlt := h.owned.claim_lt _ (ProxyEngine.claim_mem_of_lookup hv 0)
    rwa [TranslationEntry.cell_claim] at hlt
  free_iff slot hlt := by
    constructor
    · rintro hfree v entry hv rfl
      have hnot := h.owned.claim_not_free _ (ProxyEngine.claim_mem_of_lookup hv 0)
      rw [TranslationEntry.cell_claim] at hnot
      exact hnot hfree
    · intro hnone
      refine (h.owned.covered slot hlt).resolve_right ?_
      rintro ⟨x, hx, rfl⟩
      rw [add_zero] at hx
      obtain ⟨v, entry, hv, rfl⟩ := ProxyEngine.mem_claims.mp hx
      exact hnone v entry hv entry.cell_claim.symm

end

/-- The slots that some translation names. -/
def ProxyEngine.mappedSlots (e : ProxyEngine) : Set Nat :=
  {slot | ∃ v entry, e.translation.lookup v = some entry ∧ entry.backendSlot = slot}

/-- The slots handed out are the free ones and the mapped ones. -/
theorem ExactOwnership.nextSlot_eq {e : ProxyEngine} (h : ExactOwnership e) :
    e.slotAllocator.nextSlot = e.slotAllocator.freeSlots.length + e.mappedSlots.ncard := by
  have hset : e.mappedSlots =
      ↑(Finset.range e.slotAllocator.nextSlot \ e.slotAllocator.freeSlots.toFinset) := by
    ext slot
    simp only [ProxyEngine.mappedSlots, Set.mem_ofPred_eq, Finset.coe_sdiff, Set.mem_sdiff,
      Finset.mem_coe, Finset.mem_range, List.mem_toFinset]
    constructor
    · rintro ⟨v, entry, hv, rfl⟩
      have hlt := h.mapped_lt v entry hv
      exact ⟨hlt, fun hfree => (h.free_iff _ hlt).mp hfree v entry hv rfl⟩
    · rintro ⟨hlt, hfree⟩
      by_contra hnone
      exact hfree ((h.free_iff slot hlt).mpr fun v entry hv heq => hnone ⟨v, entry, hv, heq⟩)
  have hsub : e.slotAllocator.freeSlots.toFinset ⊆ Finset.range e.slotAllocator.nextSlot := by
    intro slot hslot
    exact Finset.mem_range.mpr (h.free_lt slot (List.mem_toFinset.mp hslot))
  have hle := Finset.card_le_card hsub
  rw [Finset.card_range] at hle
  rw [hset, Set.ncard_coe_finset, Finset.card_sdiff_of_subset hsub, Finset.card_range,
    List.toFinset_card_of_nodup h.free_nodup]
  rw [List.toFinset_card_of_nodup h.free_nodup] at hle
  omega

/-- The request evicts no metadata. -/
def Op.EvictsNothing (fingerprintPage : Page → Fingerprint) (s : Session) (op : Op) : Prop :=
  (s.step fingerprintPage op).engine.dedupTable.evictions = s.engine.dedupTable.evictions

instance (fingerprintPage : Page → Fingerprint) (s : Session) (op : Op) :
    Decidable (op.EvictsNothing fingerprintPage s) :=
  inferInstanceAs (Decidable (_ = _))

/-- In every state of a run that evicts no metadata and wraps no count, ownership is exact. -/
theorem Session.exactOwnership (fingerprintPage : Page → Fingerprint) (store : PageStore)
    (maxEntries bloomCapacity : Nat) (ops : List Op)
    (h : Run.Along (Session.step fingerprintPage)
      (fun s op => op.EvictsNothing fingerprintPage s ∧ op.CountFits fingerprintPage s.engine)
      (.start store maxEntries bloomCapacity) ops) :
    ExactOwnership
      (Run.run (Session.step fingerprintPage) (.start store maxEntries bloomCapacity) ops).engine :=
  Backs.owns_exactly (h.invariant (fun _ _ hs hop => Session.Sound.strict_step hs hop.2 hop.1)
    (Session.sound_start store maxEntries bloomCapacity))

theorem Session.exactOwnership_apply : ExactOwnership
    (Run.run (Session.step firstBytes) (.start (.blank 4 (by decide)) 2 1)
      [.setPassthrough false, .write 0 .done [1], .write 1 .done [2],
        .write 0 ⟨.done, .failed 5⟩ [3], .discard 1]).engine :=
  Session.exactOwnership firstBytes _ 2 1 _ (by decide +kernel)

/-- A page at 2^32 - 1 offsets, rewritten at one of them: nothing was evicted, but the copy
is freed and the other translations are left behind. -/
theorem Session.not_exactOwnership_of_wrap :
    let e := (Run.run (Session.step firstBytes) (.start (.blank (2 ^ 32) (by decide)) 2 1)
      (.setPassthrough false ::
        SharedPage.writes zeroPage (2 ^ 32 - 1) ++ [.write 0 .done zeroPage.bytes])).engine
    e.dedupTable.evictions = 0 ∧ ¬ ExactOwnership e := by
  obtain ⟨-, s, hshared, hrun⟩ := SharedPage.run_append_write firstBytes zeroPage
    (.blank (2 ^ 32) (by decide)) 2 1 (by decide) (by decide) (n := 2 ^ 32 - 1) (by omega)
    (by omega) 0
  obtain ⟨hevictions, hnone, ⟨slot, hmapped⟩, -⟩ := hshared.rewrite
  rw [List.cons_append, Run.run_cons, step_start_setPassthrough, hrun]
  refine ⟨hevictions, fun h => ?_⟩
  obtain ⟨entry, hsome, -⟩ := h.tracked _ _ _ hmapped
  rw [hnone] at hsome
  cases hsome

end Animaksm.Proxy

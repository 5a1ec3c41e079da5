import Animaksm.Proxy.Session

/-!
# One page at many offsets

Writing one page to one offset after the other keeps a single copy and counts
every offset, up to the last count that fits in 32 bits. Rewriting one of the
offsets takes its new reference before it drops the old one: at the last count
the new reference wraps to zero, and dropping the old one frees the copy.
-/

namespace Animaksm.Proxy

/-- The first `n` pages of the device, and no others, are mapped to one counted copy. -/
structure SharedPage (fingerprintPage : Page → Fingerprint) (page : Page) (n : Nat)
    (s : Session) : Prop where
  passthrough : s.engine.passthrough = false
  evictions : s.engine.dedupTable.evictions = 0
  reported : s.engine.dedupTable.bloom.mightContain (fingerprintPage page) = true
  copy : ∃ slot, s.engine.dedupTable.map.lookup (fingerprintPage page) =
      some ⟨.ofNat n, slot, pagePrefix page.bytes⟩ ∧
    s.engine.store.pageAt slot = some page ∧
    ∀ v : UInt64, s.engine.translation.lookup v =
      if InFirstPages n v then some (.deduplicated (fingerprintPage page) slot) else none
  memory : ∀ v : UInt64, s.memory v = if InFirstPages n v then some page else none

namespace ProxyEngine

/-- A write whose page is stored and verified is counted on the existing copy. -/
theorem place_of_verifiedDuplicate {fingerprintPage : Page → Fingerprint} {e : ProxyEngine}
    (io : WriteIo) {page : Page} (hpass : e.passthrough = false)
    (hdup : e.VerifiedDuplicate (fingerprintPage page) page) (hio : io.readBack = .done) :
    ∃ e₁ entry, e.Recounts e₁ ∧ e.dedupTable.map.lookup (fingerprintPage page) = some entry ∧
      e.place fingerprintPage io page.bytes =
        (.ok (.deduplicated (fingerprintPage page) entry.backendOffset),
          { e₁ with dedupTable := (e₁.dedupTable.addReference (fingerprintPage page)).2 }) := by
  have hcases := e.place_cases fingerprintPage io page.bytes
  rw [normalizePage_bytes] at hcases
  obtain ⟨e₁, hc, ⟨hp, -⟩ | ⟨-, ⟨slot, err, hl, hr, -⟩ | ⟨entry, hl, -, -, hq⟩ | ⟨hn, -⟩⟩⟩ := hcases
  · rw [hpass] at hp
    cases hp
  · obtain ⟨slot', hl', hpage⟩ := hdup
    obtain rfl : slot = slot' := LookupResult.duplicate.inj (hl.symm.trans hl')
    rw [hio, PageStore.readPage_done hpage] at hr
    cases hr
  · exact ⟨e₁, entry, hc, hl, hq⟩
  · exact absurd hdup hn

end ProxyEngine

namespace SharedPage

variable {fingerprintPage : Page → Fingerprint} {page : Page} {n : Nat} {s : Session}

/-- The copy is reported for every further write of the page. -/
theorem verifiedDuplicate (h : SharedPage fingerprintPage page n s) :
    s.engine.VerifiedDuplicate (fingerprintPage page) page := by
  obtain ⟨slot, hl, hpage, -⟩ := h.copy
  exact ⟨slot, DedupTable.lookup_of_tracked h.reported hl (verifyPagePrefix_pagePrefix page), hpage⟩

/-- What a write of the page places, in terms of the state before it. -/
private theorem place_eq (h : SharedPage fingerprintPage page n s) :
    ∃ e₁ slot, s.engine.Recounts e₁ ∧
      s.engine.dedupTable.map.lookup (fingerprintPage page) =
        some ⟨.ofNat n, slot, pagePrefix page.bytes⟩ ∧
      s.engine.store.pageAt slot = some page ∧
      (∀ v : UInt64, s.engine.translation.lookup v =
        if InFirstPages n v then some (.deduplicated (fingerprintPage page) slot) else none) ∧
      s.engine.place fingerprintPage .done page.bytes =
        (.ok (.deduplicated (fingerprintPage page) slot),
          { e₁ with dedupTable := (e₁.dedupTable.addReference (fingerprintPage page)).2 }) := by
  obtain ⟨slot, hl, hpage, htrans⟩ := h.copy
  obtain ⟨e₁, entry, hc, hl', hp⟩ := ProxyEngine.place_of_verifiedDuplicate .done
    h.passthrough h.verifiedDuplicate rfl
  obtain rfl : _ = entry := Option.some.inj (hl.symm.trans hl')
  exact ⟨e₁, slot, hc, hl, hpage, htrans, hp⟩

private theorem toNat_ofNat_page {n : Nat} (hn : n + 1 < 2 ^ 32) :
    (UInt64.ofNat (n * pageSize)).toNat = n * pageSize := by
  rw [UInt64.toNat_ofNat', pageSize]
  omega

/-- Adding one page to the first `n`. -/
private theorem ite_firstPages_succ {α : Type} {n : Nat} (hn : n + 1 < 2 ^ 32) (v : UInt64)
    (a b : α) : (if v = UInt64.ofNat (n * pageSize) then a else if InFirstPages n v then a else b) =
      if InFirstPages (n + 1) v then a else b := by
  have hsucc : InFirstPages (n + 1) v ↔ v = UInt64.ofNat (n * pageSize) ∨ InFirstPages n v := by
    rw [← UInt64.toNat_inj, toNat_ofNat_page hn, InFirstPages, InFirstPages, pageSize]
    omega
  by_cases hvn : v = UInt64.ofNat (n * pageSize)
  · rw [if_pos hvn, if_pos (hsucc.mpr (Or.inl hvn))]
  · rw [if_neg hvn]
    exact if_congr (hsucc.trans (or_iff_right hvn)).symm rfl rfl

/-- One more offset is one more count. -/
theorem step (h : SharedPage fingerprintPage page n s) (hn : n + 1 < 2 ^ 32) :
    SharedPage fingerprintPage page (n + 1)
      (s.step fingerprintPage (.write (.ofNat (n * pageSize)) .done page.bytes)) := by
  obtain ⟨e₁, slot, hc, hl, hpage, htrans, hp⟩ := h.place_eq
  have hnone : e₁.translation.lookup (UInt64.ofNat (n * pageSize)) = none := by
    rw [hc.translation_eq, htrans, if_neg]
    rw [InFirstPages, toNat_ofNat_page hn]
    exact fun h => lt_irrefl _ h.2
  obtain ⟨lru, tick, hadd⟩ := DedupTable.addReference_of_tracked (hc.map_eq ▸ hl)
  rw [hadd] at hp
  rw [Session.step_write_of_place_ok hp,
    ProxyEngine.replaceMapping_of_lookup_none (by exact hnone)]
  refine ⟨hc.passthrough_eq.trans h.passthrough, hc.evictions_eq.trans h.evictions, ?_,
    ⟨slot, ?_, ?_, fun v => ?_⟩, fun v => ?_⟩
  · dsimp only
    rw [hc.bloom_eq]
    exact h.reported
  · dsimp only
    rw [Finmap.lookup_insert, UInt32.ofNat_add]
    rfl
  · dsimp only
    rw [hc.pageAt_eq, hpage]
  · dsimp only
    rw [Finmap.lookup_insert_eq, hc.translation_eq, htrans, ite_firstPages_succ hn]
  · dsimp only
    rw [normalizePage_bytes, Memory.write_apply, h.memory, ite_firstPages_succ hn]

/-- Every further write of the page succeeds. -/
theorem succeeds (h : SharedPage fingerprintPage page n s) (v : UInt64) :
    (Op.write v .done page.bytes).Succeeds fingerprintPage s.engine := by
  obtain ⟨e₁, slot, -, -, -, -, hp⟩ := h.place_eq
  rw [Op.Succeeds, ProxyEngine.handleWrite_eq, hp, ProxyEngine.install]

/-- Nothing but the page is live. -/
theorem pages_subset (h : SharedPage fingerprintPage page n s) : s.memory.pages ⊆ {page} := by
  rintro q ⟨v, hv⟩
  rw [h.memory] at hv
  split at hv
  · exact (Option.some.inj hv).symm
  · cases hv

/-- The first write of the page to a fresh engine stores the copy. -/
theorem first (fingerprintPage : Page → Fingerprint) (page : Page) {store : PageStore}
    {maxEntries : Nat} (bloomCapacity : Nat) (hslots : 0 < store.totalSlots)
    (hmax : 0 < maxEntries) :
    (Op.write 0 .done page.bytes).Succeeds fingerprintPage
        (Session.startDedup store maxEntries bloomCapacity).engine ∧
      SharedPage fingerprintPage page 1
        ((Session.startDedup store maxEntries bloomCapacity).step fingerprintPage
          (.write 0 .done page.bytes)) := by
  unfold Session.startDedup
  generalize he : (ProxyEngine.ofStore store maxEntries bloomCapacity).setPassthrough false = e
  have hfresh : e = { ProxyEngine.ofStore store maxEntries bloomCapacity with
    passthrough := false } := he.symm
  have hcases := e.place_cases fingerprintPage .done page.bytes
  rw [normalizePage_bytes] at hcases
  obtain ⟨e₁, hc, ⟨hp, -⟩ | ⟨-, ⟨slot, err, hl, -, -⟩ | ⟨entry, hl, -, -, -⟩ | ⟨-, hp⟩⟩⟩ := hcases
  · rw [hfresh] at hp
    cases hp
  · obtain ⟨entry, hl', -⟩ := DedupTable.lookup_duplicate hl
    rw [hfresh] at hl'
    cases hl'
  · rw [hfresh] at hl
    cases hl
  have halloc : e₁.slotAllocator.allocate.1 = some 0 := by
    rw [hc.slotAllocator_eq, hfresh]
    simp [ProxyEngine.ofStore, SlotAllocator.new, SlotAllocator.allocate, hslots]
  have hmap : e₁.dedupTable.map = ∅ := hc.map_eq.trans (by rw [hfresh]; rfl)
  have htrans : e₁.translation = ∅ := hc.translation_eq.trans (by rw [hfresh]; rfl)
  have hlimits : e₁.dedupTable.maxEntries = maxEntries ∧
      e₁.store.totalSlots = store.totalSlots ∧ e₁.passthrough = false ∧
      e₁.dedupTable.evictions = 0 := by
    obtain ⟨_, _, _, _, rfl⟩ := hc
    rw [hfresh]
    exact ⟨rfl, rfl, rfl, rfl⟩
  obtain ⟨entry, placed, hq⟩ := ProxyEngine.placeUnique_done .done halloc
    (hlimits.2.1.symm ▸ hslots) rfl (fingerprintPage page) page
  obtain ⟨slot, stats, ha, hpage, rfl, rfl⟩ := ProxyEngine.placeUnique_eq_ok hq
  have hins : e₁.dedupTable.insert (fingerprintPage page) page.bytes slot =
      (true, e₁.dedupTable.track (fingerprintPage page) page.bytes slot) := by
    apply DedupTable.insert_of_room
    · rw [hmap, Finmap.lookup_empty]
    · rw [DedupTable.len, hmap, hlimits.1]
      exact hmax
  rw [hins, ← hp] at hq
  simp only [if_true] at hq
  refine ⟨by rw [Op.Succeeds, ProxyEngine.handleWrite_eq, hq, ProxyEngine.install], ?_⟩
  rw [Session.step_write_of_place_ok hq,
    ProxyEngine.replaceMapping_of_lookup_none (by dsimp only; rw [htrans, Finmap.lookup_empty])]
  have hone : ∀ v : UInt64, v = 0 ↔ InFirstPages 1 v := by
    intro v
    rw [← UInt64.toNat_inj, UInt64.toNat_zero, InFirstPages, pageSize]
    omega
  refine ⟨hlimits.2.2.1, hlimits.2.2.2, ?_, ⟨slot, ?_, hpage, fun v => ?_⟩, fun v => ?_⟩
  · exact e₁.dedupTable.bloom.mightContain_insert _
  · dsimp only [DedupTable.track]
    rw [Finmap.lookup_insert]
    rfl
  · dsimp only
    rw [Finmap.lookup_insert_eq, htrans, Finmap.lookup_empty]
    exact if_congr (hone v) rfl rfl
  · dsimp only
    rw [normalizePage_bytes, Memory.write_apply]
    exact if_congr (hone v) rfl rfl

/-- Write one page to the first `n` offsets. Irreducible, since `n` may be in the billions. -/
@[irreducible] def writes (page : Page) (n : Nat) : List Op :=
  (List.range n).map fun i => .write (.ofNat (i * pageSize)) .done page.bytes

theorem writes_one (page : Page) : writes page 1 = [.write 0 .done page.bytes] := by
  unfold writes
  rfl

theorem writes_succ (page : Page) (n : Nat) : writes page (n + 1) =
    writes page n ++ [.write (.ofNat (n * pageSize)) .done page.bytes] := by
  unfold writes
  rw [List.range_succ, List.map_append, List.map_singleton]

/-- What holds before each of these writes: it succeeds, and no other page is live. -/
def WritesPage (fingerprintPage : Page → Fingerprint) (page : Page) (s : Session) (op : Op) :
    Prop :=
  (∃ v, op = .write v .done page.bytes) ∧ op.Succeeds fingerprintPage s.engine ∧
    s.memory.pages ⊆ {page}

theorem writesPage (h : SharedPage fingerprintPage page n s) (v : UInt64) :
    WritesPage fingerprintPage page s (.write v .done page.bytes) :=
  ⟨⟨v, rfl⟩, h.succeeds v, h.pages_subset⟩

/-- So one page at the first `n` offsets is stored once and counted `n` times. -/
theorem run (fingerprintPage : Page → Fingerprint) (page : Page) (store : PageStore)
    (maxEntries bloomCapacity : Nat) (hslots : 0 < store.totalSlots) (hmax : 0 < maxEntries)
    {n : Nat} (hpos : 0 < n) (hn : n < 2 ^ 32) :
    Run.Along (Session.step fingerprintPage) (WritesPage fingerprintPage page)
        (.startDedup store maxEntries bloomCapacity) (writes page n) ∧
      SharedPage fingerprintPage page n (Run.run (Session.step fingerprintPage)
        (.startDedup store maxEntries bloomCapacity) (writes page n)) := by
  induction n, hpos using Nat.le_induction with
  | base =>
    obtain ⟨hok, hfirst⟩ := first fingerprintPage page bloomCapacity hslots hmax
    rw [writes_one]
    refine ⟨⟨⟨⟨_, rfl⟩, hok, ?_⟩, trivial⟩, hfirst⟩
    rintro q ⟨v, hv⟩
    cases hv
  | succ n _ ih =>
    obtain ⟨halong, hshared⟩ := ih (by omega)
    rw [writes_succ, Run.run_append, Run.along_append]
    exact ⟨⟨halong, hshared.writesPage _, trivial⟩, hshared.step hn⟩

/-- One write more, to any offset. -/
theorem run_append_write (fingerprintPage : Page → Fingerprint) (page : Page) (store : PageStore)
    (maxEntries bloomCapacity : Nat) (hslots : 0 < store.totalSlots) (hmax : 0 < maxEntries)
    {n : Nat} (hpos : 0 < n) (hn : n < 2 ^ 32) (v : UInt64) :
    Run.Along (Session.step fingerprintPage) (WritesPage fingerprintPage page)
        (.startDedup store maxEntries bloomCapacity)
        (writes page n ++ [.write v .done page.bytes]) ∧
      ∃ s, SharedPage fingerprintPage page n s ∧
        Run.run (Session.step fingerprintPage) (.startDedup store maxEntries bloomCapacity)
          (writes page n ++ [.write v .done page.bytes]) =
            s.step fingerprintPage (.write v .done page.bytes) := by
  obtain ⟨halong, hshared⟩ := run fingerprintPage page store maxEntries bloomCapacity hslots hmax
    hpos hn
  rw [Run.along_append, Run.run_append]
  exact ⟨⟨halong, hshared.writesPage v, trivial⟩, _, hshared, rfl⟩

/-- At the last count that fits, rewriting an offset with its own page frees the copy
under all the other offsets. No metadata is evicted in this. -/
theorem rewrite (h : SharedPage fingerprintPage page (2 ^ 32 - 1) s) :
    let s' := s.step fingerprintPage (.write 0 .done page.bytes)
    s'.engine.dedupTable.evictions = 0 ∧
      s'.engine.dedupTable.map.lookup (fingerprintPage page) = none ∧
      (∃ slot, s'.engine.translation.lookup 4096 =
        some (.deduplicated (fingerprintPage page) slot)) ∧
      s'.memory 4096 = some page := by
  obtain ⟨e₁, slot, hc, hl, hpage, htrans, hp⟩ := h.place_eq
  obtain ⟨lru, tick, hadd⟩ := DedupTable.addReference_of_tracked (hc.map_eq ▸ hl)
  rw [hadd] at hp
  have hold : e₁.translation.lookup 0 = some (.deduplicated (fingerprintPage page) slot) := by
    rw [hc.translation_eq, htrans]
    rfl
  rw [Session.step_write_of_place_ok hp,
    ProxyEngine.replaceMapping_of_lookup_some (by exact hold)]
  refine ⟨?_, ?_, ⟨slot, ?_⟩, ?_⟩
  · rw [ProxyEngine.evictions_releaseMapping]
    exact hc.evictions_eq.trans h.evictions
  · -- the count is zero when the old reference is dropped
    unfold ProxyEngine.releaseMapping DedupTable.removeReference
    simp [TranslationEntry.deduplicated, ProxyEngine.freeSlot]
  · rw [ProxyEngine.translation_releaseMapping]
    dsimp only
    rw [Finmap.lookup_insert_of_ne _ (by decide), hc.translation_eq, htrans]
    rfl
  · dsimp only
    rw [Memory.write_apply, if_neg (by decide), h.memory]
    rfl

end SharedPage

end Animaksm.Proxy

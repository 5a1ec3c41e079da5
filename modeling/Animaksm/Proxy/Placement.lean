import Animaksm.Proxy.Engine

/-!
# A write is a placement and a replacement

Every path through a write first finds a place for the page, and then maps the
virtual offset to it and releases what was mapped there before. A placement
touches the allocator, the store and the dedup table, and never a translation;
it is also the only part of a write that can fail.
-/

namespace Animaksm.Proxy

namespace ProxyEngine

/-- Store a page in a slot taken from the allocator, or put the slot back. -/
def storeInNewSlot (e : ProxyEngine) (io : IoOutcome) (page : Page) :
    Except EngineError Nat × ProxyEngine :=
  match e.allocateSlot with
  | (.error err, e) => (.error err, e)
  | (.ok slot, e) =>
    match e.writePageToSlot io slot page with
    | (.error err, e) => (.error err, e.freeSlot slot)
    | (.ok (), e) => (.ok slot, e)

/-- The placement of `writeDirect`. -/
def placeDirect (e : ProxyEngine) (io : WriteIo) (page : Page) :
    Except EngineError TranslationEntry × ProxyEngine :=
  match e.storeInNewSlot io.write page with
  | (.error err, e) => (.error err, e)
  | (.ok slot, e) => (.ok (.direct slot), e.countUnique)

/-- The placement of `writeUniqueOrDirect`. -/
def placeUnique (e : ProxyEngine) (io : WriteIo) (fp : Fingerprint) (page : Page) :
    Except EngineError TranslationEntry × ProxyEngine :=
  match e.storeInNewSlot io.write page with
  | (.error err, e) => (.error err, e)
  | (.ok slot, e) =>
    let (inserted, table) := e.dedupTable.insert fp page.bytes slot
    (.ok (if inserted then .deduplicated fp slot else .direct slot),
      { e with dedupTable := table }.countUnique)

/-- The placement of a dedup-mode write: on a verified copy, or in a new slot. -/
def placeShared (e : ProxyEngine) (io : WriteIo) (fp : Fingerprint) (page : Page) :
    Except EngineError TranslationEntry × ProxyEngine :=
  let (found, table) := e.dedupTable.lookup fp page.bytes
  let e := { e with dedupTable := table }
  match found with
  | .duplicate backendOffset =>
    let (stored, store) := e.store.readPage io.readBack backendOffset
    let e := { e with store := store }
    match stored with
    | .error err => (.error err, e)
    | .ok stored =>
      if stored = page then
        let (added, table) := e.dedupTable.addReference fp
        let e := { e with dedupTable := table }
        if added then (.ok (.deduplicated fp backendOffset), e.countDuplicate)
        else e.placeUnique io fp page
      else e.placeUnique io fp page
  | .miss => e.placeUnique io fp page

/-- Count a write request. -/
def countWrite (e : ProxyEngine) : ProxyEngine :=
  { e with stats := { e.stats with totalWrites := e.stats.totalWrites + 1 } }

/-- The placement of a whole write. -/
def place (fingerprintPage : Page → Fingerprint) (e : ProxyEngine) (io : WriteIo)
    (data : List UInt8) : Except EngineError TranslationEntry × ProxyEngine :=
  let page := normalizePage data
  if e.passthrough then e.countWrite.placeDirect io page
  else e.countWrite.placeShared io (fingerprintPage page) page

/-- Map an offset to the place that was found for its page. -/
def install (v : UInt64) :
    Except EngineError TranslationEntry × ProxyEngine → Except EngineError Unit × ProxyEngine
  | (.error err, e) => (.error err, e)
  | (.ok entry, e) => (.ok (), e.replaceMapping v entry)

theorem writeDirect_eq (e : ProxyEngine) (io : WriteIo) (v : UInt64) (page : Page) :
    e.writeDirect io v page = install v (e.placeDirect io page) := by
  unfold writeDirect placeDirect storeInNewSlot
  rcases e.allocateSlot with ⟨_ | slot, e₁⟩
  · rfl
  · dsimp only
    rcases e₁.writePageToSlot io.write slot page with ⟨_ | _, e₂⟩ <;> rfl

theorem writeUniqueOrDirect_eq (e : ProxyEngine) (io : WriteIo) (v : UInt64) (fp : Fingerprint)
    (page : Page) : e.writeUniqueOrDirect io v fp page = install v (e.placeUnique io fp page) := by
  unfold writeUniqueOrDirect placeUnique storeInNewSlot
  rcases e.allocateSlot with ⟨_ | slot, e₁⟩
  · rfl
  · dsimp only
    rcases e₁.writePageToSlot io.write slot page with ⟨_ | _, e₂⟩ <;> rfl

/-- A write places the page, then replaces the mapping of its offset. -/
theorem handleWrite_eq (fingerprintPage : Page → Fingerprint) (e : ProxyEngine) (io : WriteIo)
    (v : UInt64) (data : List UInt8) :
    handleWrite fingerprintPage e io v data = install v (e.place fingerprintPage io data) := by
  unfold handleWrite place
  by_cases hp : e.passthrough = true
  · rw [if_pos hp, if_pos hp]
    exact writeDirect_eq ..
  · rw [if_neg hp, if_neg hp]
    unfold placeShared countWrite
    dsimp only
    rcases e.dedupTable.lookup (fingerprintPage (normalizePage data)) (normalizePage data).bytes
      with ⟨_ | slot, table⟩
    · exact writeUniqueOrDirect_eq ..
    dsimp only
    rcases e.store.readPage io.readBack slot with ⟨err | stored, store⟩
    · rfl
    dsimp only
    by_cases hs : stored = normalizePage data
    · rw [if_pos hs, if_pos hs]
      rcases table.addReference (fingerprintPage (normalizePage data)) with ⟨_ | _, table'⟩
      · exact writeUniqueOrDirect_eq ..
      · rfl
    · rw [if_neg hs, if_neg hs]
      exact writeUniqueOrDirect_eq ..

/-! ## Counters -/

/-- The two engines differ in counters at most. -/
def Recounts (e e' : ProxyEngine) : Prop :=
  ∃ stats hits misses reads, e' = { e with
    stats := stats
    dedupTable := { e.dedupTable with duplicateHits := hits, bloomFalsePositives := misses }
    store := { e.store with pagesRead := reads } }

theorem Recounts.refl (e : ProxyEngine) : e.Recounts e := ⟨_, _, _, _, rfl⟩

theorem Recounts.trans {e e' e'' : ProxyEngine} (h : e.Recounts e') (h' : e'.Recounts e'') :
    e.Recounts e'' := by
  obtain ⟨_, _, _, _, rfl⟩ := h
  obtain ⟨_, _, _, _, rfl⟩ := h'
  exact ⟨_, _, _, _, rfl⟩

theorem recounts_countUnique (e : ProxyEngine) : e.Recounts e.countUnique := ⟨_, _, _, _, rfl⟩

theorem recounts_countDuplicate (e : ProxyEngine) : e.Recounts e.countDuplicate :=
  ⟨_, _, _, _, rfl⟩

theorem recounts_countWrite (e : ProxyEngine) : e.Recounts e.countWrite := ⟨_, _, _, _, rfl⟩

/-- A lookup only counts. -/
theorem recounts_lookup (e : ProxyEngine) (fp : Fingerprint) (data : List UInt8) :
    e.Recounts { e with dedupTable := (e.dedupTable.lookup fp data).2 } := by
  obtain ⟨hits, misses, h⟩ := e.dedupTable.lookup_frame fp data
  rw [h]
  exact ⟨_, _, _, _, rfl⟩

/-- A store read only counts. -/
theorem recounts_readPage (e : ProxyEngine) (io : IoOutcome) (slot : Nat) :
    e.Recounts { e with store := (e.store.readPage io slot).2 } := by
  obtain ⟨reads, h⟩ := e.store.readPage_frame io slot
  rw [h]
  exact ⟨_, _, _, _, rfl⟩

/-- A whole read request only counts. -/
theorem recounts_handleRead (e : ProxyEngine) (io : IoOutcome) (v : UInt64) :
    e.Recounts (e.handleRead io v).2 := by
  unfold handleRead
  dsimp only
  split
  · exact ⟨_, _, _, _, rfl⟩
  · next entry _ => exact (Recounts.trans ⟨_, _, _, _, rfl⟩
      (recounts_readPage { e with stats := { e.stats with totalReads := e.stats.totalReads + 1 } }
        io entry.backendSlot))

theorem Recounts.translation_eq {e e' : ProxyEngine} (h : e.Recounts e') :
    e'.translation = e.translation := by
  obtain ⟨_, _, _, _, rfl⟩ := h
  rfl

theorem Recounts.map_eq {e e' : ProxyEngine} (h : e.Recounts e') :
    e'.dedupTable.map = e.dedupTable.map := by
  obtain ⟨_, _, _, _, rfl⟩ := h
  rfl

theorem Recounts.evictions_eq {e e' : ProxyEngine} (h : e.Recounts e') :
    e'.dedupTable.evictions = e.dedupTable.evictions := by
  obtain ⟨_, _, _, _, rfl⟩ := h
  rfl

theorem Recounts.slotAllocator_eq {e e' : ProxyEngine} (h : e.Recounts e') :
    e'.slotAllocator = e.slotAllocator := by
  obtain ⟨_, _, _, _, rfl⟩ := h
  rfl

theorem Recounts.passthrough_eq {e e' : ProxyEngine} (h : e.Recounts e') :
    e'.passthrough = e.passthrough := by
  obtain ⟨_, _, _, _, rfl⟩ := h
  rfl

theorem Recounts.totalSlots_eq {e e' : ProxyEngine} (h : e.Recounts e') :
    e'.store.totalSlots = e.store.totalSlots := by
  obtain ⟨_, _, _, _, rfl⟩ := h
  rfl

theorem Recounts.bloom_eq {e e' : ProxyEngine} (h : e.Recounts e') :
    e'.dedupTable.bloom = e.dedupTable.bloom := by
  obtain ⟨_, _, _, _, rfl⟩ := h
  rfl

theorem Recounts.pageAt_eq {e e' : ProxyEngine} (h : e.Recounts e') (slot : Nat) :
    e'.store.pageAt slot = e.store.pageAt slot := by
  obtain ⟨_, _, _, _, rfl⟩ := h
  rfl

/-- The same pages are taken by the table, and the same fingerprints dropped for them. -/
theorem Recounts.map_insert_eq {e e' : ProxyEngine} (h : e.Recounts e') (fp : Fingerprint)
    (data : List UInt8) (slot : Nat) :
    (e'.dedupTable.insert fp data slot).2.map = (e.dedupTable.insert fp data slot).2.map := by
  obtain ⟨_, hits, misses, _, rfl⟩ := h
  dsimp only
  rw [e.dedupTable.insert_recount hits misses fp data slot]

/-! ## What a placement does -/

/-- The page is stored where its fingerprint is tracked, and the lookup says so. -/
def VerifiedDuplicate (e : ProxyEngine) (fp : Fingerprint) (page : Page) : Prop :=
  ∃ slot, (e.dedupTable.lookup fp page.bytes).1 = .duplicate slot ∧
    e.store.pageAt slot = some page

instance (e : ProxyEngine) (fp : Fingerprint) (page : Page) :
    Decidable (e.VerifiedDuplicate fp page) :=
  match h : (e.dedupTable.lookup fp page.bytes).1 with
  | .miss => isFalse fun ⟨_, hdup, _⟩ => by rw [h] at hdup; cases hdup
  | .duplicate slot => decidable_of_iff (e.store.pageAt slot = some page)
      ⟨fun hp => ⟨slot, h, hp⟩, fun ⟨_, hdup, hp⟩ => by rw [h] at hdup; cases hdup; exact hp⟩

/-- A verified duplicate is not counted on an entry whose count is at its limit. -/
def RefCountFits (e : ProxyEngine) (fp : Fingerprint) (page : Page) : Prop :=
  e.VerifiedDuplicate fp page → ∀ entry, e.dedupTable.map.lookup fp = some entry →
    entry.refCount.toNat + 1 < 2 ^ 32

instance (e : ProxyEngine) (fp : Fingerprint) (page : Page) :
    Decidable (e.RefCountFits fp page) :=
  inferInstanceAs (Decidable (e.VerifiedDuplicate fp page → ∀ entry,
    e.dedupTable.map.lookup fp = some entry → entry.refCount.toNat + 1 < 2 ^ 32))

/-- Taking a slot and storing a page in it succeeds, or leaves the slot with the allocator. -/
theorem storeInNewSlot_cases (e : ProxyEngine) (io : IoOutcome) (page : Page) :
    (e.slotAllocator.allocate.1 = none ∧ e.storeInNewSlot io page = (.error .storeFull, e)) ∨
    ∃ slot, e.slotAllocator.allocate.1 = some slot ∧
      ((∃ err, (e.store.writePage io slot page.bytes).1 = .error err ∧
        e.storeInNewSlot io page = (.error err, { e with
          slotAllocator := e.slotAllocator.allocate.2.free slot
          store := (e.store.writePage io slot page.bytes).2 })) ∨
      ((e.store.writePage io slot page.bytes).2.pageAt slot = some page ∧
        e.storeInNewSlot io page = (.ok slot, { e with
          slotAllocator := e.slotAllocator.allocate.2
          store := (e.store.writePage io slot page.bytes).2 }))) := by
  unfold storeInNewSlot
  rcases e.allocateSlot_cases with ⟨slot, ha, he⟩ | ⟨ha, he⟩
  · refine Or.inr ⟨slot, ha, ?_⟩
    rw [he]
    unfold writePageToSlot
    dsimp only
    have hpage := @PageStore.pageAt_of_writePage e.store io slot page
    rcases hw : e.store.writePage io slot page.bytes with ⟨err | _, store⟩
    · exact Or.inl ⟨err, rfl, rfl⟩
    · rw [hw] at hpage
      exact Or.inr ⟨hpage rfl, rfl⟩
  · rw [he]
    exact Or.inl ⟨ha, rfl⟩

@[simp] theorem dedupTable_storeInNewSlot (e : ProxyEngine) (io : IoOutcome) (page : Page) :
    (e.storeInNewSlot io page).2.dedupTable = e.dedupTable := by
  rcases e.storeInNewSlot_cases io page with ⟨-, h⟩ | ⟨_, -, ⟨_, -, h⟩ | ⟨-, h⟩⟩ <;> rw [h]

@[simp] theorem translation_storeInNewSlot (e : ProxyEngine) (io : IoOutcome) (page : Page) :
    (e.storeInNewSlot io page).2.translation = e.translation := by
  rcases e.storeInNewSlot_cases io page with ⟨-, h⟩ | ⟨_, -, ⟨_, -, h⟩ | ⟨-, h⟩⟩ <;> rw [h]

/-- Neither the dedup table nor the switch is touched on the way to a private slot. -/
theorem placeDirect_frame (e : ProxyEngine) (io : WriteIo) (page : Page) :
    (e.placeDirect io page).2.dedupTable = e.dedupTable ∧
      (e.placeDirect io page).2.passthrough = e.passthrough := by
  unfold placeDirect
  rcases e.storeInNewSlot_cases io.write page with ⟨-, h⟩ | ⟨_, -, ⟨_, -, h⟩ | ⟨-, h⟩⟩ <;>
    rw [h] <;> exact ⟨rfl, rfl⟩

@[simp] theorem translation_placeDirect (e : ProxyEngine) (io : WriteIo) (page : Page) :
    (e.placeDirect io page).2.translation = e.translation := by
  have h := e.translation_storeInNewSlot io.write page
  unfold placeDirect
  rcases hs : e.storeInNewSlot io.write page with ⟨_ | slot, e₁⟩ <;> rw [hs] at h <;> exact h

@[simp] theorem translation_placeUnique (e : ProxyEngine) (io : WriteIo) (fp : Fingerprint)
    (page : Page) : (e.placeUnique io fp page).2.translation = e.translation := by
  have h := e.translation_storeInNewSlot io.write page
  unfold placeUnique
  rcases hs : e.storeInNewSlot io.write page with ⟨_ | slot, e₁⟩ <;> rw [hs] at h <;> exact h

/-- A private slot was taken and holds the page. -/
theorem placeDirect_eq_ok {e e' : ProxyEngine} {io : WriteIo} {page : Page}
    {entry : TranslationEntry} (h : e.placeDirect io page = (.ok entry, e')) :
    ∃ slot stats, e.slotAllocator.allocate.1 = some slot ∧
      (e.store.writePage io.write slot page.bytes).2.pageAt slot = some page ∧
      entry = .direct slot ∧ e' = { e with
        slotAllocator := e.slotAllocator.allocate.2
        store := (e.store.writePage io.write slot page.bytes).2
        stats := stats } := by
  unfold placeDirect at h
  rcases e.storeInNewSlot_cases io.write page with ⟨-, hs⟩ | ⟨slot, ha, ⟨_, -, hs⟩ | ⟨hp, hs⟩⟩ <;>
    rw [hs] at h <;> cases h
  exact ⟨slot, _, ha, hp, rfl, rfl⟩

/-- A new slot was taken, holds the page, and was offered to the dedup table. -/
theorem placeUnique_eq_ok {e e' : ProxyEngine} {io : WriteIo} {fp : Fingerprint} {page : Page}
    {entry : TranslationEntry} (h : e.placeUnique io fp page = (.ok entry, e')) :
    ∃ slot stats, e.slotAllocator.allocate.1 = some slot ∧
      (e.store.writePage io.write slot page.bytes).2.pageAt slot = some page ∧
      entry = (if (e.dedupTable.insert fp page.bytes slot).1 then .deduplicated fp slot
        else .direct slot) ∧ e' = { e with
        slotAllocator := e.slotAllocator.allocate.2
        store := (e.store.writePage io.write slot page.bytes).2
        dedupTable := (e.dedupTable.insert fp page.bytes slot).2
        stats := stats } := by
  unfold placeUnique at h
  rcases e.storeInNewSlot_cases io.write page with ⟨-, hs⟩ | ⟨slot, ha, ⟨_, -, hs⟩ | ⟨hp, hs⟩⟩ <;>
    rw [hs] at h
  · cases h
  · cases h
  · simp only [Prod.mk.injEq, Except.ok.injEq] at h
    obtain ⟨rfl, rfl⟩ := h
    exact ⟨slot, _, ha, hp, rfl, rfl⟩

/-- With a slot of the store at hand and accesses that complete, a new slot is found. -/
theorem placeUnique_done {e : ProxyEngine} (io : WriteIo) {slot : Nat}
    (ha : e.slotAllocator.allocate.1 = some slot) (hlt : slot < e.store.totalSlots)
    (hio : io.write = .done) (fp : Fingerprint) (page : Page) :
    ∃ entry placed, e.placeUnique io fp page = (.ok entry, placed) := by
  unfold placeUnique
  rcases e.storeInNewSlot_cases io.write page with
    ⟨hn, -⟩ | ⟨slot', ha', ⟨_, herr, -⟩ | ⟨-, hs⟩⟩
  · rw [hn] at ha
    cases ha
  · obtain rfl : slot = slot' := Option.some.inj (ha.symm.trans ha')
    rw [hio, PageStore.writePage_done hlt] at herr
    cases herr
  · rw [hs]
    exact ⟨_, _, rfl⟩

/-- What a write placement can come to, counters aside: a private slot in passthrough
mode; else a failed read-back, a reference to a verified copy, or a new slot. -/
theorem place_cases (fingerprintPage : Page → Fingerprint) (e : ProxyEngine) (io : WriteIo)
    (data : List UInt8) :
    ∃ e₁, e.Recounts e₁ ∧
      ((e.passthrough = true ∧
        e.place fingerprintPage io data = e₁.placeDirect io (normalizePage data)) ∨
      (e.passthrough = false ∧
        ((∃ slot err, (e.dedupTable.lookup (fingerprintPage (normalizePage data))
            (normalizePage data).bytes).1 = .duplicate slot ∧
          (e.store.readPage io.readBack slot).1 = .error err ∧
          e.place fingerprintPage io data = (.error err, e₁)) ∨
        (∃ entry, e.dedupTable.map.lookup (fingerprintPage (normalizePage data)) = some entry ∧
          e.VerifiedDuplicate (fingerprintPage (normalizePage data)) (normalizePage data) ∧
          e.store.pageAt entry.backendOffset = some (normalizePage data) ∧
          e.place fingerprintPage io data =
            (.ok (.deduplicated (fingerprintPage (normalizePage data)) entry.backendOffset),
              { e₁ with dedupTable :=
                (e₁.dedupTable.addReference (fingerprintPage (normalizePage data))).2 })) ∨
        (¬ e.VerifiedDuplicate (fingerprintPage (normalizePage data)) (normalizePage data) ∧
          e.place fingerprintPage io data =
            e₁.placeUnique io (fingerprintPage (normalizePage data)) (normalizePage data))))) := by
  unfold place
  generalize hpage : normalizePage data = page
  by_cases hp : e.passthrough = true
  · exact ⟨_, recounts_countWrite e, Or.inl ⟨hp, by rw [if_pos hp]⟩⟩
  simp only [hp, Bool.false_eq_true, if_false, false_and, false_or, true_and]
  generalize hfp : fingerprintPage page = fp
  unfold placeShared VerifiedDuplicate
  have hcount := (recounts_countWrite e).trans (recounts_lookup e.countWrite fp page.bytes)
  rcases hl : e.countWrite.dedupTable.lookup fp page.bytes with ⟨_ | slot, table⟩ <;>
    rw [hl] at hcount <;> dsimp only at hcount ⊢
  · refine ⟨_, hcount, Or.inr (Or.inr ⟨?_, rfl⟩)⟩
    rintro ⟨slot, hdup, -⟩
    have hmiss : (e.dedupTable.lookup fp page.bytes).1 = .miss := congrArg Prod.fst hl
    rw [hmiss] at hdup
    cases hdup
  · have hread := hcount.trans (recounts_readPage _ io.readBack slot)
    have hdup : (e.dedupTable.lookup fp page.bytes).1 = .duplicate slot := congrArg Prod.fst hl
    have hpageAt := @PageStore.pageAt_of_readPage e.store io.readBack slot
    rcases hr : e.store.readPage io.readBack slot with ⟨err | stored, store⟩
    · exact ⟨_, hread, Or.inl ⟨slot, err, hdup, by rw [hr], by simp only [countWrite, hr]⟩⟩
    rw [hr] at hpageAt
    by_cases hs : stored = page
    · subst hs
      obtain ⟨entry, he, rfl⟩ := DedupTable.lookup_duplicate hdup
      have hmap : table.map.lookup fp = some entry := by
        rw [← he, ← DedupTable.map_lookup e.dedupTable fp stored.bytes]
        exact congrArg (fun r => Finmap.lookup fp (DedupTable.map (Prod.snd r))) hl.symm
      have hadd : (table.addReference fp).1 = true := by rw [DedupTable.addReference, hmap]
      refine ⟨_, hread.trans (recounts_countDuplicate _), Or.inr (Or.inl ⟨entry, he,
        ⟨_, hdup, hpageAt rfl⟩, hpageAt rfl, ?_⟩)⟩
      simp only [countWrite, hr, hadd, if_true]
      rfl
    · refine ⟨_, hread, Or.inr (Or.inr ⟨?_, by simp only [countWrite, hr, hs, if_false]⟩)⟩
      rintro ⟨slot', hdup', hp'⟩
      rw [hdup] at hdup'
      cases hdup'
      rw [hpageAt rfl] at hp'
      exact hs (Option.some.inj hp')

/-- How a placement fails, counters aside: on the read-back of a copy, for want of a slot,
or on the write to a slot, which then went back to the allocator. -/
theorem place_eq_error {fingerprintPage : Page → Fingerprint} {e e' : ProxyEngine} {io : WriteIo}
    {data : List UInt8} {err : EngineError}
    (h : e.place fingerprintPage io data = (.error err, e')) :
    ∃ e₁, e.Recounts e₁ ∧
      ((err ≠ .storeFull ∧ e' = e₁) ∨
      (err = .storeFull ∧ e.slotAllocator.allocate.1 = none ∧ (e.passthrough = true ∨
        ¬ e.VerifiedDuplicate (fingerprintPage (normalizePage data)) (normalizePage data)) ∧
        e' = e₁) ∨
      (err ≠ .storeFull ∧ ∃ slot, e.slotAllocator.allocate.1 = some slot ∧ e' = { e₁ with
        slotAllocator := e₁.slotAllocator.allocate.2.free slot
        store := (e₁.store.writePage io.write slot (normalizePage data).bytes).2 })) := by
  obtain ⟨e₁, hc, hcases⟩ := e.place_cases fingerprintPage io data
  have hstore : ∀ {page : Page}, e₁.storeInNewSlot io.write page = (.error err, e') →
      (err = .storeFull ∧ e.slotAllocator.allocate.1 = none ∧ e' = e₁) ∨
      (err ≠ .storeFull ∧ ∃ slot, e.slotAllocator.allocate.1 = some slot ∧ e' = { e₁ with
        slotAllocator := e₁.slotAllocator.allocate.2.free slot
        store := (e₁.store.writePage io.write slot page.bytes).2 }) := by
    intro page hs
    rcases e₁.storeInNewSlot_cases io.write page with ⟨ha, hq⟩ | ⟨slot, ha, ⟨err', hw, hq⟩ | ⟨-, hq⟩⟩ <;>
      rw [hq] at hs <;> cases hs
    · exact Or.inl ⟨rfl, hc.slotAllocator_eq ▸ ha, rfl⟩
    · refine Or.inr ⟨?_, slot, hc.slotAllocator_eq ▸ ha, rfl⟩
      rintro rfl
      exact PageStore.writePage_ne_storeFull _ _ _ _ hw
  refine ⟨e₁, hc, ?_⟩
  rcases hcases with ⟨hpass, hq⟩ | ⟨-, ⟨slot, err', -, hr, hq⟩ | ⟨_, -, -, -, hq⟩ | ⟨hdup, hq⟩⟩ <;>
    rw [hq] at h
  · unfold placeDirect at h
    rcases hs : e₁.storeInNewSlot io.write (normalizePage data) with ⟨_ | slot, e₂⟩ <;>
      rw [hs] at h <;> cases h
    rcases hstore hs with ⟨hfull, ha, he⟩ | hwrite
    · exact Or.inr (Or.inl ⟨hfull, ha, Or.inl hpass, he⟩)
    · exact Or.inr (Or.inr hwrite)
  · cases h
    refine Or.inl ⟨?_, rfl⟩
    rintro rfl
    exact PageStore.readPage_ne_storeFull _ _ _ hr
  · cases h
  · unfold placeUnique at h
    rcases hs : e₁.storeInNewSlot io.write (normalizePage data) with ⟨_ | slot, e₂⟩ <;>
      rw [hs] at h <;> cases h
    rcases hstore hs with ⟨hfull, ha, he⟩ | hwrite
    · exact Or.inr (Or.inl ⟨hfull, ha, Or.inr hdup, he⟩)
    · exact Or.inr (Or.inr hwrite)

/-- A placement maps nothing. -/
@[simp] theorem translation_place (fingerprintPage : Page → Fingerprint) (e : ProxyEngine)
    (io : WriteIo) (data : List UInt8) :
    (e.place fingerprintPage io data).2.translation = e.translation := by
  obtain ⟨e₁, hc, ⟨-, h⟩ | ⟨-, ⟨_, _, -, -, h⟩ | ⟨_, -, -, -, h⟩ | ⟨-, h⟩⟩⟩ :=
    place_cases fingerprintPage e io data
  · rw [h, translation_placeDirect, hc.translation_eq]
  · rw [h, hc.translation_eq]
  · rw [h, hc.translation_eq]
  · rw [h, translation_placeUnique, hc.translation_eq]

@[simp] theorem evictions_replaceMapping (e : ProxyEngine) (v : UInt64)
    (entry : TranslationEntry) :
    (e.replaceMapping v entry).dedupTable.evictions = e.dedupTable.evictions :=
  evictions_releaseOld ..

end ProxyEngine

end Animaksm.Proxy

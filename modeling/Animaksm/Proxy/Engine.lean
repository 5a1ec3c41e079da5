import Animaksm.Proxy.Dedup
import Animaksm.Proxy.Backend

/-!
# Swap proxy engine

The engine holds the dedup table, the page store, the translation table, the
slot allocator, the statistics and the passthrough switch. Requests take the
outcomes of their file accesses, and return their result with the next engine,
which a failed request may have changed as well.
-/

namespace Animaksm.Proxy

/-- Shared statistics for the proxy. -/
structure ProxyStats where
  totalWrites : UInt64
  uniqueWrites : UInt64
  duplicateWrites : UInt64
  totalReads : UInt64
  discards : UInt64

/-- Counters of a proxy that has not served a request. -/
def ProxyStats.new : ProxyStats := ⟨0, 0, 0, 0, 0⟩

/-- The swap proxy storage engine. -/
structure ProxyEngine where
  dedupTable : DedupTable
  store : PageStore
  translation : TranslationTable
  slotAllocator : SlotAllocator
  stats : ProxyStats
  passthrough : Bool

/-- File accesses of one page write: the read-back of a duplicate, and the slot write. -/
structure WriteIo where
  readBack : IoOutcome
  write : IoOutcome

/-- Every access completes. -/
def WriteIo.done : WriteIo := ⟨.done, .done⟩

/-- An engine over an opened store, as it starts: nothing mapped, passthrough on. -/
def ProxyEngine.ofStore (store : PageStore) (maxEntries bloomCapacity : Nat) : ProxyEngine where
  dedupTable := .new maxEntries bloomCapacity
  store := store
  translation := ∅
  slotAllocator := .new store.totalSlots
  stats := .new
  passthrough := true

namespace ProxyEngine

/-- Reserve a backend slot. -/
def allocateSlot (e : ProxyEngine) : Except EngineError Nat × ProxyEngine :=
  match e.slotAllocator.allocate with
  | (some slot, allocator) => (.ok slot, { e with slotAllocator := allocator })
  | (none, allocator) => (.error .storeFull, { e with slotAllocator := allocator })

/-- Give a backend slot back. -/
def freeSlot (e : ProxyEngine) (slot : Nat) : ProxyEngine :=
  { e with slotAllocator := e.slotAllocator.free slot }

/-- Write a page into a backend slot. -/
def writePageToSlot (e : ProxyEngine) (io : IoOutcome) (slot : Nat) (page : Page) :
    Except EngineError Unit × ProxyEngine :=
  let (result, store) := e.store.writePage io slot page.bytes
  (result, { e with store := store })

/-- Record a translation, and return the one it replaces. -/
def setTranslation (e : ProxyEngine) (v : UInt64) (entry : TranslationEntry) :
    Option TranslationEntry × ProxyEngine :=
  (e.translation.lookup v, { e with translation := e.translation.insert v entry })

/-- Remove a translation, and return it. -/
def removeTranslation (e : ProxyEngine) (v : UInt64) : Option TranslationEntry × ProxyEngine :=
  (e.translation.lookup v, { e with translation := e.translation.erase v })

/-- Give up what a removed translation held. -/
def releaseMapping (e : ProxyEngine) (entry : TranslationEntry) : ProxyEngine :=
  match entry.kind with
  | .direct => e.freeSlot entry.backendSlot
  | .deduplicated fp =>
    match e.dedupTable.removeReference fp with
    | (.stillReferenced, table) => { e with dedupTable := table }
    | (.removed backendOffset, table) => { e with dedupTable := table }.freeSlot backendOffset
    -- the metadata was evicted while this single translation kept owning its slot
    | (.notTracked, table) => { e with dedupTable := table }.freeSlot entry.backendSlot

/-- Release what an update of the translation table displaced. -/
def releaseOld (e : ProxyEngine) : Option TranslationEntry → ProxyEngine
  | some old => e.releaseMapping old
  | none => e

/-- Map a virtual offset, then release what it was mapped to before. -/
def replaceMapping (e : ProxyEngine) (v : UInt64) (entry : TranslationEntry) : ProxyEngine :=
  let (old, e) := e.setTranslation v entry
  e.releaseOld old

/-- Count a page stored in a slot of its own. -/
def countUnique (e : ProxyEngine) : ProxyEngine :=
  { e with stats := { e.stats with uniqueWrites := e.stats.uniqueWrites + 1 } }

/-- Count a page that an existing slot already holds. -/
def countDuplicate (e : ProxyEngine) : ProxyEngine :=
  { e with stats := { e.stats with duplicateWrites := e.stats.duplicateWrites + 1 } }

/-- Store a page in a private slot. -/
def writeDirect (e : ProxyEngine) (io : WriteIo) (v : UInt64) (page : Page) :
    Except EngineError Unit × ProxyEngine :=
  match e.allocateSlot with
  | (.error err, e) => (.error err, e)
  | (.ok slot, e) =>
    match e.writePageToSlot io.write slot page with
    | (.error err, e) => (.error err, e.freeSlot slot)
    | (.ok (), e) => (.ok (), e.countUnique.replaceMapping v (.direct slot))

/-- Store a page in a new slot, shared under its fingerprint when the table takes it. -/
def writeUniqueOrDirect (e : ProxyEngine) (io : WriteIo) (v : UInt64) (fp : Fingerprint)
    (page : Page) : Except EngineError Unit × ProxyEngine :=
  match e.allocateSlot with
  | (.error err, e) => (.error err, e)
  | (.ok slot, e) =>
    match e.writePageToSlot io.write slot page with
    | (.error err, e) => (.error err, e.freeSlot slot)
    | (.ok (), e) =>
      let (inserted, table) := e.dedupTable.insert fp page.bytes slot
      let entry := if inserted then .deduplicated fp slot else .direct slot
      (.ok (), { e with dedupTable := table }.countUnique.replaceMapping v entry)

/-- Process a page write: fingerprint, check dedup, store or deduplicate. -/
def handleWrite (fingerprintPage : Page → Fingerprint) (e : ProxyEngine) (io : WriteIo)
    (v : UInt64) (data : List UInt8) : Except EngineError Unit × ProxyEngine :=
  let e := { e with stats := { e.stats with totalWrites := e.stats.totalWrites + 1 } }
  let page := normalizePage data
  if e.passthrough then e.writeDirect io v page
  else
    let fp := fingerprintPage page
    let (found, table) := e.dedupTable.lookup fp page.bytes
    let e := { e with dedupTable := table }
    match found with
    | .duplicate backendOffset =>
      let (stored, store) := e.store.readPage io.readBack backendOffset
      let e := { e with store := store }
      match stored with
      | .error err => (.error err, e)
      | .ok stored =>
        if stored = page then
          let (added, table) := e.dedupTable.addReference fp
          let e := { e with dedupTable := table }
          if added then
            (.ok (), e.countDuplicate.replaceMapping v (.deduplicated fp backendOffset))
          else e.writeUniqueOrDirect io v fp page
        else e.writeUniqueOrDirect io v fp page
    | .miss => e.writeUniqueOrDirect io v fp page

/-- Process a page read: unmapped offsets read as zeros. -/
def handleRead (e : ProxyEngine) (io : IoOutcome) (v : UInt64) :
    Except EngineError Page × ProxyEngine :=
  let e := { e with stats := { e.stats with totalReads := e.stats.totalReads + 1 } }
  match e.translation.lookup v with
  | none => (.ok zeroPage, e)
  | some entry =>
    let (page, store) := e.store.readPage io entry.backendSlot
    (page, { e with store := store })

/-- Process a discard (trim) for a virtual offset. -/
def handleDiscard (e : ProxyEngine) (v : UInt64) : ProxyEngine :=
  let e := { e with stats := { e.stats with discards := e.stats.discards + 1 } }
  let (old, e) := e.removeTranslation v
  e.releaseOld old

/-- Switch deduplication off or on. -/
def setPassthrough (e : ProxyEngine) (on : Bool) : ProxyEngine := { e with passthrough := on }

/-! ## What the sections do -/

/-- An allocation reserves what the allocator hands out, or fails and changes nothing. -/
theorem allocateSlot_cases (e : ProxyEngine) :
    (∃ slot, e.slotAllocator.allocate.1 = some slot ∧ e.allocateSlot =
      (.ok slot, { e with slotAllocator := e.slotAllocator.allocate.2 })) ∨
    (e.slotAllocator.allocate.1 = none ∧ e.allocateSlot = (.error .storeFull, e)) := by
  unfold allocateSlot
  rcases e.slotAllocator.allocate_cases with ⟨slot, _, -, h, -⟩ | ⟨-, -, h, -⟩ | ⟨-, -, h⟩
  · left
    refine ⟨slot, h, ?_⟩
    split
    · next heq =>
      rw [heq] at h ⊢
      cases h
      rfl
    · next heq =>
      rw [heq] at h
      cases h
  · left
    refine ⟨_, h, ?_⟩
    split
    · next heq =>
      rw [heq] at h ⊢
      cases h
      rfl
    · next heq =>
      rw [heq] at h
      cases h
  · right
    rw [h]
    exact ⟨rfl, rfl⟩

/-- An offset that was not mapped is only mapped. -/
theorem replaceMapping_of_lookup_none {e : ProxyEngine} {v : UInt64}
    (h : e.translation.lookup v = none) (entry : TranslationEntry) :
    e.replaceMapping v entry = { e with translation := e.translation.insert v entry } := by
  unfold replaceMapping setTranslation
  rw [h]
  rfl

/-- An offset that was mapped is mapped anew, then what it was mapped to is released. -/
theorem replaceMapping_of_lookup_some {e : ProxyEngine} {v : UInt64} {old : TranslationEntry}
    (h : e.translation.lookup v = some old) (entry : TranslationEntry) :
    e.replaceMapping v entry =
      { e with translation := e.translation.insert v entry }.releaseMapping old := by
  unfold replaceMapping setTranslation
  rw [h]
  rfl

/-- A release gives the slot back, unless other translations are counted on it. A tracked
fingerprint decides which slot that is. -/
theorem releaseMapping_cases (e : ProxyEngine) (entry : TranslationEntry) :
    (entry.kind = .direct ∧ e.releaseMapping entry = e.freeSlot entry.backendSlot) ∨
    ∃ fp, entry.kind = .deduplicated fp ∧
      ((e.dedupTable.map.lookup fp = none ∧
        e.releaseMapping entry = e.freeSlot entry.backendSlot) ∨
      ∃ tracked, e.dedupTable.map.lookup fp = some tracked ∧
        ((tracked.refCount ≤ 1 ∧ ∃ lru, e.releaseMapping entry =
          ({ e with dedupTable :=
            { e.dedupTable with map := e.dedupTable.map.erase fp, lru := lru } } :
              ProxyEngine).freeSlot tracked.backendOffset) ∨
        (1 < tracked.refCount ∧ e.releaseMapping entry =
          { e with dedupTable := { e.dedupTable with
            map := e.dedupTable.map.insert fp
              { tracked with refCount := tracked.refCount - 1 } } }))) := by
  unfold releaseMapping DedupTable.removeReference
  cases hk : entry.kind with
  | direct => exact Or.inl ⟨rfl, rfl⟩
  | deduplicated fp =>
    refine Or.inr ⟨fp, rfl, ?_⟩
    cases hl : e.dedupTable.map.lookup fp with
    | none =>
      exact Or.inl ⟨rfl, by simp only [hl]⟩
    | some tracked =>
      refine Or.inr ⟨tracked, rfl, ?_⟩
      by_cases hlast : tracked.refCount ≤ 1
      · exact Or.inl ⟨hlast, _, by simp only [hl, hlast, if_true]; rfl⟩
      · exact Or.inr ⟨UInt32.not_le.mp hlast, by simp only [hl, hlast, if_false]⟩

/-- A read that succeeds returns what a completed access returns. -/
theorem handleRead_done_of_ok {e : ProxyEngine} {io : IoOutcome} {v : UInt64} {page : Page}
    (h : (e.handleRead io v).1 = .ok page) : (e.handleRead .done v).1 = .ok page := by
  unfold handleRead at *
  cases hv : e.translation.lookup v with
  | none =>
    simp only [hv] at h ⊢
    exact h
  | some entry =>
    simp only [hv] at h ⊢
    exact PageStore.readPage_done (PageStore.pageAt_of_readPage h)

/-! ## What a release leaves alone -/

@[simp] theorem translation_releaseMapping (e : ProxyEngine) (entry : TranslationEntry) :
    (e.releaseMapping entry).translation = e.translation := by
  unfold releaseMapping
  split
  · rfl
  · split <;> rfl

@[simp] theorem store_releaseMapping (e : ProxyEngine) (entry : TranslationEntry) :
    (e.releaseMapping entry).store = e.store := by
  unfold releaseMapping
  split
  · rfl
  · split <;> rfl

@[simp] theorem evictions_releaseMapping (e : ProxyEngine) (entry : TranslationEntry) :
    (e.releaseMapping entry).dedupTable.evictions = e.dedupTable.evictions := by
  rcases e.releaseMapping_cases entry with
    ⟨-, h⟩ | ⟨_, -, ⟨-, h⟩ | ⟨_, -, ⟨-, _, h⟩ | ⟨-, h⟩⟩⟩ <;> rw [h] <;> rfl

@[simp] theorem passthrough_releaseMapping (e : ProxyEngine) (entry : TranslationEntry) :
    (e.releaseMapping entry).passthrough = e.passthrough := by
  rcases e.releaseMapping_cases entry with
    ⟨-, h⟩ | ⟨_, -, ⟨-, h⟩ | ⟨_, -, ⟨-, _, h⟩ | ⟨-, h⟩⟩⟩ <;> rw [h] <;> rfl

@[simp] theorem translation_releaseOld (e : ProxyEngine) (old : Option TranslationEntry) :
    (e.releaseOld old).translation = e.translation := by
  cases old with
  | none => rfl
  | some entry => exact translation_releaseMapping e entry

@[simp] theorem evictions_releaseOld (e : ProxyEngine) (old : Option TranslationEntry) :
    (e.releaseOld old).dedupTable.evictions = e.dedupTable.evictions := by
  cases old with
  | none => rfl
  | some entry => exact evictions_releaseMapping e entry

@[simp] theorem passthrough_releaseOld (e : ProxyEngine) (old : Option TranslationEntry) :
    (e.releaseOld old).passthrough = e.passthrough := by
  cases old with
  | none => rfl
  | some entry => exact passthrough_releaseMapping e entry

@[simp] theorem passthrough_replaceMapping (e : ProxyEngine) (v : UInt64)
    (entry : TranslationEntry) : (e.replaceMapping v entry).passthrough = e.passthrough :=
  passthrough_releaseOld ..

@[simp] theorem translation_replaceMapping (e : ProxyEngine) (v : UInt64)
    (entry : TranslationEntry) :
    (e.replaceMapping v entry).translation = e.translation.insert v entry :=
  translation_releaseOld ..

@[simp] theorem translation_handleDiscard (e : ProxyEngine) (v : UInt64) :
    (e.handleDiscard v).translation = e.translation.erase v :=
  translation_releaseOld ..

@[simp] theorem store_releaseOld (e : ProxyEngine) (old : Option TranslationEntry) :
    (e.releaseOld old).store = e.store := by
  cases old with
  | none => rfl
  | some entry => exact store_releaseMapping e entry

end ProxyEngine

end Animaksm.Proxy

import Animaksm.Proxy.ExactOwnership
import Animaksm.Proxy.FailedWrite
import Animaksm.Proxy.Capacity

/-!
# Completeness of deduplication

In dedup mode, with fingerprints that tell the written pages apart and a table
with room for every live page, equal pages are always found: the filter reports
every tracked fingerprint, the prefix of an entry is that of the page in its
slot, and an entry lives exactly as long as some offset holds its page. So slots
and entries stand one to one with the distinct live pages, as long as no count
wraps.
-/

namespace Animaksm.Proxy

open RefPool

/-- Every tracked fingerprint is reported, and every entry carries the prefix of the page
in its slot. -/
structure Described (limit : Nat) (e : ProxyEngine) : Prop where
  maxEntries : e.dedupTable.maxEntries = limit
  reported : ∀ fp entry, e.dedupTable.map.lookup fp = some entry →
    e.dedupTable.bloom.mightContain fp = true
  prefixed : ∀ fp entry page, e.dedupTable.map.lookup fp = some entry →
    e.store.pageAt entry.backendOffset = some page → entry.prefixBytes = pagePrefix page.bytes

namespace Described

variable {limit : Nat} {e e' : ProxyEngine}

/-- Entries may come and go and change their counts. -/
private theorem of_entries (h : Described limit e)
    (hmax : e'.dedupTable.maxEntries = e.dedupTable.maxEntries)
    (hbloom : e'.dedupTable.bloom = e.dedupTable.bloom) (hstore : e'.store = e.store)
    (hmap : ∀ fp entry, e'.dedupTable.map.lookup fp = some entry →
      ∃ old, e.dedupTable.map.lookup fp = some old ∧ entry.backendOffset = old.backendOffset ∧
        entry.prefixBytes = old.prefixBytes) : Described limit e' where
  maxEntries := hmax.trans h.maxEntries
  reported fp entry hl := by
    obtain ⟨old, hold, -⟩ := hmap fp entry hl
    rw [hbloom]
    exact h.reported fp old hold
  prefixed fp entry page hl hp := by
    obtain ⟨old, hold, hoff, hbytes⟩ := hmap fp entry hl
    rw [hstore, hoff] at hp
    rw [hbytes]
    exact h.prefixed fp old page hold hp

theorem recount (h : Described limit e) (hc : e.Recounts e') : Described limit e' := by
  obtain ⟨_, _, _, _, rfl⟩ := hc
  exact ⟨h.maxEntries, h.reported, h.prefixed⟩

theorem addReference (h : Described limit e) (fp : Fingerprint) :
    Described limit { e with dedupTable := (e.dedupTable.addReference fp).2 } := by
  cases hl : e.dedupTable.map.lookup fp with
  | none =>
    rw [show (e.dedupTable.addReference fp).2 = e.dedupTable by rw [DedupTable.addReference, hl]]
    exact h
  | some entry =>
    obtain ⟨lru, tick, hadd⟩ := DedupTable.addReference_of_tracked hl
    rw [hadd]
    refine h.of_entries rfl rfl rfl fun g x hx => ?_
    dsimp only at hx
    rw [Finmap.lookup_insert_eq] at hx
    split at hx
    · next hg =>
      cases hx
      exact ⟨entry, hg ▸ hl, rfl, rfl⟩
    · exact ⟨x, hx, rfl, rfl⟩

theorem releaseMapping (h : Described limit e) (entry : TranslationEntry) :
    Described limit (e.releaseMapping entry) := by
  rcases e.releaseMapping_cases entry with
    ⟨-, he⟩ | ⟨fp, -, ⟨-, he⟩ | ⟨tracked, hl, ⟨-, lru, he⟩ | ⟨-, he⟩⟩⟩ <;> rw [he]
  · exact ⟨h.maxEntries, h.reported, h.prefixed⟩
  · exact ⟨h.maxEntries, h.reported, h.prefixed⟩
  · refine h.of_entries rfl rfl rfl fun g x hx => ?_
    simp only [ProxyEngine.freeSlot, Finmap.lookup_erase_eq] at hx
    split at hx
    · cases hx
    · exact ⟨x, hx, rfl, rfl⟩
  · refine h.of_entries rfl rfl rfl fun g x hx => ?_
    dsimp only at hx
    rw [Finmap.lookup_insert_eq] at hx
    split at hx
    · next hg =>
      cases hx
      exact ⟨tracked, hg ▸ hl, rfl, rfl⟩
    · exact ⟨x, hx, rfl, rfl⟩

theorem releaseOld (h : Described limit e) (old : Option TranslationEntry) :
    Described limit (e.releaseOld old) := by
  cases old with
  | none => exact h
  | some entry => exact h.releaseMapping entry

theorem replaceMapping (h : Described limit e) (v : UInt64) (entry : TranslationEntry) :
    Described limit (e.replaceMapping v entry) := by
  have hset : Described limit (e.setTranslation v entry).2 :=
    ⟨h.maxEntries, h.reported, h.prefixed⟩
  exact hset.releaseOld _

theorem handleDiscard (h : Described limit e) (v : UInt64) :
    Described limit (e.handleDiscard v) := by
  have hremove : Described limit (({ e with stats :=
      { e.stats with discards := e.stats.discards + 1 } } : ProxyEngine).removeTranslation v).2 :=
    ⟨h.maxEntries, h.reported, h.prefixed⟩
  exact hremove.releaseOld _

/-- A new page, stored in a slot of its own and entered in the table. -/
theorem track (h : Described limit e) {slot : Nat} {page : Page} {io : IoOutcome}
    {allocator : SlotAllocator} {stats : ProxyStats}
    (hother : ∀ fp entry, e.dedupTable.map.lookup fp = some entry →
      entry.backendOffset ≠ slot ∧ ∃ p, e.store.pageAt entry.backendOffset = some p)
    (hpage : (e.store.writePage io slot page.bytes).2.pageAt slot = some page) (fp : Fingerprint) :
    Described limit { e with
      slotAllocator := allocator
      store := (e.store.writePage io slot page.bytes).2
      dedupTable := e.dedupTable.track fp page.bytes slot
      stats := stats } where
  maxEntries := h.maxEntries
  reported g x hx := by
    dsimp only [DedupTable.track] at hx ⊢
    rw [Finmap.lookup_insert_eq] at hx
    split at hx
    · next hg => exact hg ▸ BloomFilter.mightContain_insert _ _
    · exact BloomFilter.mightContain_insert_of_mightContain _ (h.reported g x hx)
  prefixed g x p hx hp := by
    dsimp only [DedupTable.track] at hx hp
    rw [Finmap.lookup_insert_eq] at hx
    split at hx
    · cases hx
      obtain rfl : page = p := Option.some.inj (hpage.symm.trans hp)
      rfl
    · obtain ⟨hne, q, hq⟩ := hother g x hx
      have hkept := PageStore.pageAt_writePage_of_ne io page.bytes hne hq
      obtain rfl : q = p := Option.some.inj (hkept.symm.trans hp)
      exact h.prefixed g x q hx hq

end Described

/-- A session in dedup mode whose offsets all share under the fingerprints of their pages. -/
structure Interned (fingerprintPage : Page → Fingerprint) (written : Set Page) (limit : Nat)
    (s : Session) : Prop where
  sound : s.Sound True
  described : Described limit s.engine
  passthrough : s.engine.passthrough = false
  keyed : ∀ v entry, s.engine.translation.lookup v = some entry →
    ∃ page ∈ written, s.memory v = some page ∧ entry.kind = .deduplicated (fingerprintPage page)

namespace Interned

variable {fingerprintPage : Page → Fingerprint} {written : Set Page} {limit : Nat} {s : Session}

/-- A tracked fingerprint is that of the live page in its slot. -/
theorem page_of_tracked (h : Interned fingerprintPage written limit s) {fp : Fingerprint}
    {entry : DedupEntry} (hl : s.engine.dedupTable.map.lookup fp = some entry) :
    ∃ page ∈ written, page ∈ s.memory.pages ∧ fingerprintPage page = fp ∧
      s.engine.store.pageAt entry.backendOffset = some page := by
  obtain ⟨hpos, hu⟩ :=
    h.sound.owned.counted fp _ _ (DedupTable.shares_eq_some.mpr ⟨entry, hl, rfl, rfl⟩)
  have huser : Claim.shared fp entry.backendOffset ∈
      users (s.engine.claims + 0) entry.backendOffset := by
    rw [hu]
    exact Multiset.mem_replicate.mpr ⟨by omega, rfl⟩
  have hmem := (mem_users.mp huser).1
  rw [add_zero] at hmem
  obtain ⟨v, x, hv, hx⟩ := ProxyEngine.mem_claims.mp hmem
  obtain rfl := TranslationEntry.claim_eq_shared.mp hx
  obtain ⟨page, hw, hm, hkind⟩ := h.keyed v _ hv
  obtain ⟨page', hm', hp⟩ := h.sound.holds v _ hv
  obtain rfl : page = page' := Option.some.inj (hm.symm.trans hm')
  refine ⟨page, hw, ⟨v, hm⟩, ?_, hp⟩
  cases hkind
  rfl

/-- The page of a mapped offset is tracked, at the slot of the offset. -/
theorem tracked_of_lookup (h : Interned fingerprintPage written limit s) {v : UInt64}
    {entry : TranslationEntry} (hv : s.engine.translation.lookup v = some entry) :
    ∃ page tracked, s.memory v = some page ∧
      s.engine.dedupTable.map.lookup (fingerprintPage page) = some tracked ∧
      tracked.backendOffset = entry.backendSlot := by
  obtain ⟨page, -, hm, hkind⟩ := h.keyed v entry hv
  obtain ⟨kind, slot⟩ := entry
  obtain rfl : kind = .deduplicated (fingerprintPage page) := hkind
  obtain ⟨tracked, hl, hslot⟩ := h.sound.owns_exactly.tracked v _ slot hv
  exact ⟨page, tracked, hm, hl, hslot⟩

/-- The tracked fingerprints are those of the live pages. -/
theorem keys_eq (h : Interned fingerprintPage written limit s) :
    (s.engine.dedupTable.map.keys : Set Fingerprint) = fingerprintPage '' s.memory.pages := by
  ext fp
  rw [Finset.mem_coe, Finmap.mem_keys, Finmap.mem_iff]
  constructor
  · rintro ⟨entry, hl⟩
    obtain ⟨page, -, hlive, hfp, -⟩ := h.page_of_tracked hl
    exact ⟨page, hlive, hfp⟩
  · rintro ⟨page, ⟨v, hm⟩, rfl⟩
    cases hv : s.engine.translation.lookup v with
    | none =>
      rw [h.sound.unmapped v hv] at hm
      cases hm
    | some entry =>
      obtain ⟨page', tracked, hm', hl, -⟩ := h.tracked_of_lookup hv
      obtain rfl : page = page' := Option.some.inj (hm.symm.trans hm')
      exact ⟨tracked, hl⟩

/-- Live pages were written. -/
theorem pages_subset (h : Interned fingerprintPage written limit s) : s.memory.pages ⊆ written := by
  rintro page ⟨v, hm⟩
  cases hv : s.engine.translation.lookup v with
  | none =>
    rw [h.sound.unmapped v hv] at hm
    cases hm
  | some entry =>
    obtain ⟨page', hw, hm', -⟩ := h.keyed v entry hv
    obtain rfl : page = page' := Option.some.inj (hm.symm.trans hm')
    exact hw

/-- So there are as many entries as live pages. -/
theorem len_eq (h : Interned fingerprintPage written limit s)
    (hinj : Set.InjOn fingerprintPage written) :
    s.engine.dedupTable.len = s.memory.pages.ncard := by
  rw [DedupTable.len, ← Set.ncard_coe_finset, h.keys_eq]
  exact Set.InjOn.ncard_image (hinj.mono h.pages_subset)

/-- A tracked page is found again. -/
theorem verifiedDuplicate (h : Interned fingerprintPage written limit s)
    (hinj : Set.InjOn fingerprintPage written) {page : Page} (hw : page ∈ written)
    {entry : DedupEntry}
    (hl : s.engine.dedupTable.map.lookup (fingerprintPage page) = some entry) :
    s.engine.VerifiedDuplicate (fingerprintPage page) page := by
  obtain ⟨page', hw', -, hfp, hp⟩ := h.page_of_tracked hl
  obtain rfl : page' = page := hinj hw' hw hfp
  refine ⟨entry.backendOffset, DedupTable.lookup_of_tracked (h.described.reported _ _ hl) hl ?_, hp⟩
  rw [h.described.prefixed _ _ _ hl hp]
  exact verifyPagePrefix_pagePrefix page'

/-- What a successful write of a known page does: it keeps the table described, evicts
nothing, and maps its offset under the fingerprint of the page. -/
theorem place_ok (h : Interned fingerprintPage written limit s)
    (hinj : Set.InjOn fingerprintPage written) {io : WriteIo} {data : List UInt8}
    (hw : normalizePage data ∈ written) (hroom : s.memory.pages.ncard < limit)
    {entry : TranslationEntry} {placed : ProxyEngine}
    (hp : s.engine.place fingerprintPage io data = (.ok entry, placed)) :
    Described limit placed ∧ placed.passthrough = false ∧
      placed.dedupTable.evictions = s.engine.dedupTable.evictions ∧
      entry.kind = .deduplicated (fingerprintPage (normalizePage data)) := by
  obtain ⟨e₁, hc, ⟨hpass, -⟩ | ⟨-, ⟨_, _, -, -, hq⟩ | ⟨tracked, hl, -, -, hq⟩ | ⟨hdup, hq⟩⟩⟩ :=
    s.engine.place_cases fingerprintPage io data
  · rw [h.passthrough] at hpass
    cases hpass
  · rw [hp] at hq
    cases hq
  · rw [hp] at hq
    cases hq
    refine ⟨(h.described.recount hc).addReference _, hc.passthrough_eq.trans h.passthrough, ?_, rfl⟩
    rw [← hc.map_eq] at hl
    obtain ⟨lru, tick, hadd⟩ := DedupTable.addReference_of_tracked hl
    rw [hadd]
    exact hc.evictions_eq
  · rw [hp] at hq
    obtain ⟨slot, stats, ha, hpage, hentry, rfl⟩ := ProxyEngine.placeUnique_eq_ok hq.symm
    have hnone : e₁.dedupTable.map.lookup (fingerprintPage (normalizePage data)) = none := by
      rw [hc.map_eq]
      cases hl : s.engine.dedupTable.map.lookup (fingerprintPage (normalizePage data)) with
      | none => rfl
      | some tracked => exact absurd (h.verifiedDuplicate hinj hw hl) hdup
    have hins : e₁.dedupTable.insert (fingerprintPage (normalizePage data))
        (normalizePage data).bytes slot = (true, e₁.dedupTable.track
          (fingerprintPage (normalizePage data)) (normalizePage data).bytes slot) := by
      refine DedupTable.insert_of_room _ _ hnone ?_
      rw [DedupTable.len, hc.map_eq, (h.described.recount hc).maxEntries]
      exact (h.len_eq hinj).trans_lt hroom
    rw [hins] at hentry ⊢
    refine ⟨(h.described.recount hc).track (fun fp x hx => ?_) hpage _,
      hc.passthrough_eq.trans h.passthrough, hc.evictions_eq, ?_⟩
    · -- tracked slots are claimed, the new one was allocatable
      rw [hc.map_eq] at hx
      rw [hc.slotAllocator_eq] at ha
      obtain ⟨p, -, -, -, hxp⟩ := h.page_of_tracked hx
      refine ⟨fun heq => ?_, p, by rw [hc.pageAt_eq, hxp]⟩
      exact (Backs.namesNoAllocatable h.sound).tracked fp x hx
        (heq ▸ SlotAllocator.mem_allocatable ha)
    · rw [hentry, if_pos rfl]
      rfl

/-- A successful write of a known page, in a table with room for one more. -/
theorem write (h : Interned fingerprintPage written limit s)
    (hinj : Set.InjOn fingerprintPage written) {v : UInt64} {io : WriteIo} {data : List UInt8}
    (hw : normalizePage data ∈ written) (hroom : s.memory.pages.ncard < limit)
    (hfits : (Op.write v io data).CountFits fingerprintPage s.engine)
    (hok : (s.engine.handleWrite fingerprintPage io v data).1 = .ok ()) :
    Interned fingerprintPage written limit (s.step fingerprintPage (.write v io data)) := by
  rw [ProxyEngine.handleWrite_eq] at hok
  rcases hp : s.engine.place fingerprintPage io data with ⟨err | entry, placed⟩
  · rw [hp] at hok
    cases hok
  obtain ⟨hdesc, hpass, hev, hkind⟩ := h.place_ok hinj hw hroom hp
  have hstep := Session.step_write_of_place_ok (v := v) hp
  have htrans := s.engine.translation_place fingerprintPage io data
  rw [hp] at htrans
  refine ⟨h.sound.strict_step hfits ?_, ?_, ?_, fun w x hx => ?_⟩
  · rw [hstep, ProxyEngine.evictions_replaceMapping, hev]
  · rw [hstep]
    exact hdesc.replaceMapping v entry
  · rw [hstep, ProxyEngine.passthrough_replaceMapping, hpass]
  · rw [hstep] at hx ⊢
    rw [ProxyEngine.translation_replaceMapping, htrans, Finmap.lookup_insert_eq] at hx
    dsimp only
    rw [Memory.write_apply]
    by_cases hwv : w = v
    · rw [if_pos hwv] at hx ⊢
      cases hx
      exact ⟨_, hw, rfl, hkind⟩
    · rw [if_neg hwv] at hx ⊢
      exact h.keyed w x hx

/-- A discard. -/
theorem discard (h : Interned fingerprintPage written limit s) (v : UInt64) :
    Interned fingerprintPage written limit (s.step fingerprintPage (.discard v)) := by
  refine ⟨h.sound.strict_step trivial ?_, h.described.handleDiscard v, ?_, fun w x hx => ?_⟩
  · exact ProxyEngine.evictions_releaseOld ..
  · exact (ProxyEngine.passthrough_releaseOld ..).trans h.passthrough
  · rw [Session.step, ProxyEngine.translation_handleDiscard, Finmap.lookup_erase_eq] at hx
    dsimp only [Session.step]
    rw [Memory.discard_apply]
    by_cases hwv : w = v
    · rw [if_pos hwv] at hx
      cases hx
    · rw [if_neg hwv] at hx ⊢
      exact h.keyed w x hx

end Interned

/-- Slots and entries stand one to one with the distinct live pages. -/
structure CompleteDedup (fingerprintPage : Page → Fingerprint) (s : Session) : Prop where
  /-- Two mapped offsets share a slot exactly when they hold the same page. -/
  shares_iff : ∀ v w x y, s.engine.translation.lookup v = some x →
    s.engine.translation.lookup w = some y →
      (x.backendSlot = y.backendSlot ↔ s.memory v = s.memory w)
  /-- As many slots are mapped as there are live pages. -/
  mappedSlots_eq : s.engine.mappedSlots.ncard = s.memory.pages.ncard
  /-- No other slot is in use. -/
  nextSlot_eq : s.engine.slotAllocator.nextSlot =
    s.engine.slotAllocator.freeSlots.length + s.memory.pages.ncard
  /-- There are as many entries as live pages. -/
  len_eq : s.engine.dedupTable.len = s.memory.pages.ncard
  /-- Every live page has its entry, and every entry its live page. -/
  tracked_iff : ∀ fp, (∃ entry, s.engine.dedupTable.map.lookup fp = some entry) ↔
    ∃ page ∈ s.memory.pages, fingerprintPage page = fp

namespace Interned

variable {fingerprintPage : Page → Fingerprint} {written : Set Page} {limit : Nat} {s : Session}

/-- Sharing a slot is holding the same page. -/
theorem shares_iff (h : Interned fingerprintPage written limit s) {v w : UInt64}
    {x y : TranslationEntry} (hv : s.engine.translation.lookup v = some x)
    (hw : s.engine.translation.lookup w = some y) :
    x.backendSlot = y.backendSlot ↔ s.memory v = s.memory w := by
  constructor
  · intro hslot
    obtain ⟨p, hm, hp⟩ := h.sound.holds v x hv
    obtain ⟨q, hm', hq⟩ := h.sound.holds w y hw
    rw [hslot, hq] at hp
    rw [hm, hm', hp]
  · intro hpage
    obtain ⟨p, tracked, hm, hl, hx⟩ := h.tracked_of_lookup hv
    obtain ⟨q, tracked', hm', hl', hy⟩ := h.tracked_of_lookup hw
    obtain rfl : p = q := Option.some.inj (hm.symm.trans (hpage.trans hm'))
    obtain rfl : tracked = tracked' := Option.some.inj (hl.symm.trans hl')
    exact hx.symm.trans hy

/-- The mapped slots and the live pages correspond. -/
theorem mappedSlots_ncard (h : Interned fingerprintPage written limit s) :
    s.engine.mappedSlots.ncard = s.memory.pages.ncard := by
  have himage : some '' s.memory.pages = s.engine.store.pageAt '' s.engine.mappedSlots := by
    ext page
    constructor
    · rintro ⟨p, ⟨v, hm⟩, rfl⟩
      cases hv : s.engine.translation.lookup v with
      | none =>
        rw [h.sound.unmapped v hv] at hm
        cases hm
      | some x =>
        obtain ⟨q, hm', hp⟩ := h.sound.holds v x hv
        rw [hm] at hm'
        exact ⟨x.backendSlot, ⟨v, x, hv, rfl⟩, hp.trans hm'.symm⟩
    · rintro ⟨slot, ⟨v, x, hv, rfl⟩, rfl⟩
      obtain ⟨q, hm, hp⟩ := h.sound.holds v x hv
      exact ⟨q, ⟨v, hm⟩, hp.symm⟩
  have hinj : Set.InjOn s.engine.store.pageAt s.engine.mappedSlots := by
    rintro _ ⟨v, x, hv, rfl⟩ _ ⟨w, y, hw, rfl⟩ hpage
    obtain ⟨p, hm, hp⟩ := h.sound.holds v x hv
    obtain ⟨q, hm', hq⟩ := h.sound.holds w y hw
    rw [h.shares_iff hv hw, hm, hm', ← hp, ← hq, hpage]
  rw [← Set.InjOn.ncard_image hinj, ← himage,
    Set.ncard_image_of_injective _ (Option.some_injective Page)]

theorem completeDedup (h : Interned fingerprintPage written limit s)
    (hinj : Set.InjOn fingerprintPage written) : CompleteDedup fingerprintPage s where
  shares_iff v w x y hv hw := h.shares_iff hv hw
  mappedSlots_eq := h.mappedSlots_ncard
  nextSlot_eq := by rw [h.sound.owns_exactly.nextSlot_eq, h.mappedSlots_ncard]
  len_eq := h.len_eq hinj
  tracked_iff fp := by
    have hmem := Set.ext_iff.mp h.keys_eq fp
    rwa [Finset.mem_coe, Finmap.mem_keys, Finmap.mem_iff] at hmem

theorem startDedup (fingerprintPage : Page → Fingerprint) (written : Set Page) (store : PageStore)
    (maxEntries bloomCapacity : Nat) :
    Interned fingerprintPage written maxEntries (.startDedup store maxEntries bloomCapacity) where
  sound := Session.sound_startDedup store maxEntries bloomCapacity
  described := ⟨rfl, fun _ _ hl => (nomatch hl), fun _ _ _ hl => (nomatch hl)⟩
  passthrough := rfl
  keyed v entry hv := by cases hv

end Interned

/-- A request of a dedup-mode run: a successful write of a known page, a discard or a read. -/
def Op.Dedups (fingerprintPage : Page → Fingerprint) (written : Set Page) (e : ProxyEngine)
    (op : Op) : Prop :=
  op.Succeeds fingerprintPage e ∧
    match op with
    | .write _ _ data => normalizePage data ∈ written
    | .discard _ | .read _ _ => True
    | .setPassthrough _ => False

/-- One such request, in a table with room for one more page. -/
theorem Interned.step {fingerprintPage : Page → Fingerprint} {written : Set Page} {limit : Nat}
    {s : Session} {op : Op} (h : Interned fingerprintPage written limit s)
    (hinj : Set.InjOn fingerprintPage written)
    (hop : op.Dedups fingerprintPage written s.engine) (hroom : s.memory.pages.ncard < limit)
    (hfits : op.CountFits fingerprintPage s.engine) :
    Interned fingerprintPage written limit (s.step fingerprintPage op) := by
  cases op with
  | write v io data => exact h.write hinj hop.2 hroom hfits hop.1
  | read v io =>
    have hc := ProxyEngine.recounts_handleRead s.engine io v
    refine ⟨h.sound.strict_step trivial hc.evictions_eq, h.described.recount hc,
      hc.passthrough_eq.trans h.passthrough, fun w x hx => ?_⟩
    rw [Session.step, hc.translation_eq] at hx
    exact h.keyed w x hx
  | discard v => exact h.discard v
  | setPassthrough on => exact hop.2.elim

/-- A run of such requests. -/
theorem Interned.run {fingerprintPage : Page → Fingerprint} {written : Set Page} {store : PageStore}
    {maxEntries bloomCapacity : Nat} {ops : List Op} (hinj : Set.InjOn fingerprintPage written)
    (h : Run.Along (Session.step fingerprintPage)
      (fun s op => op.Dedups fingerprintPage written s.engine ∧
        s.memory.pages.ncard < maxEntries ∧ op.CountFits fingerprintPage s.engine)
      (.startDedup store maxEntries bloomCapacity) ops) :
    Interned fingerprintPage written maxEntries (Run.run (Session.step fingerprintPage)
      (.startDedup store maxEntries bloomCapacity) ops) :=
  h.invariant (fun _ _ hs hop => hs.step hinj hop.1 hop.2.1 hop.2.2)
    (Interned.startDedup fingerprintPage written store maxEntries bloomCapacity)

/-- Deduplication is complete in every state of a dedup-mode run of successful writes and
discards, when fingerprints tell the written pages apart, the table always has room for one
more page, and no count wraps. -/
theorem Session.dedupComplete (fingerprintPage : Page → Fingerprint) (store : PageStore)
    (maxEntries bloomCapacity : Nat) (written : Set Page)
    (hinj : Set.InjOn fingerprintPage written) (ops : List Op)
    (h : Run.Along (Session.step fingerprintPage)
      (fun s op => op.Dedups fingerprintPage written s.engine ∧
        s.memory.pages.ncard < maxEntries ∧ op.CountFits fingerprintPage s.engine)
      (.startDedup store maxEntries bloomCapacity) ops) :
    CompleteDedup fingerprintPage (Run.run (Session.step fingerprintPage)
      (.startDedup store maxEntries bloomCapacity) ops) := by
  exact (Interned.run hinj h).completeDedup hinj

/-! ## A device with room for its pages -/

/-- The store of an engine never changes its size. -/
theorem Session.totalSlots_step (fingerprintPage : Page → Fingerprint) (s : Session) (op : Op) :
    (s.step fingerprintPage op).engine.store.totalSlots = s.engine.store.totalSlots := by
  cases op with
  | write v io data =>
    rcases hp : s.engine.place fingerprintPage io data with ⟨err | entry, placed⟩
    · rw [step_write_of_place_error hp]
      obtain ⟨e₁, hc, ⟨-, rfl⟩ | ⟨-, -, -, rfl⟩ | ⟨-, slot, -, rfl⟩⟩ := ProxyEngine.place_eq_error hp
      · exact hc.totalSlots_eq
      · exact hc.totalSlots_eq
      · exact (PageStore.totalSlots_writePage ..).trans hc.totalSlots_eq
    · rw [step_write_of_place_ok hp]
      dsimp only
      rw [ProxyEngine.replaceMapping, ProxyEngine.store_releaseOld]
      obtain ⟨e₁, hc, ⟨-, hq⟩ | ⟨-, ⟨_, _, -, -, hq⟩ | ⟨tracked, -, -, -, hq⟩ | ⟨-, hq⟩⟩⟩ :=
        s.engine.place_cases fingerprintPage io data <;> rw [hp] at hq
      · obtain ⟨slot, stats, -, -, -, rfl⟩ := ProxyEngine.placeDirect_eq_ok hq.symm
        exact (PageStore.totalSlots_writePage ..).trans hc.totalSlots_eq
      · cases hq
      · cases hq
        exact hc.totalSlots_eq
      · obtain ⟨slot, stats, -, -, -, rfl⟩ := ProxyEngine.placeUnique_eq_ok hq.symm
        exact (PageStore.totalSlots_writePage ..).trans hc.totalSlots_eq
  | read v io =>
    exact (ProxyEngine.recounts_handleRead s.engine io v).totalSlots_eq
  | discard v => exact congrArg PageStore.totalSlots (ProxyEngine.store_releaseOld ..)
  | setPassthrough on => rfl

namespace Interned

variable {fingerprintPage : Page → Fingerprint} {written : Set Page} {limit : Nat} {s : Session}

/-- A count is at most the number of mapped offsets. -/
theorem countFits (h : Interned fingerprintPage written limit s)
    (hfew : s.engine.translation.keys.card + 1 < 2 ^ 32) (op : Op) :
    op.CountFits fingerprintPage s.engine := by
  cases op with
  | write v io data =>
    intro _ _ entry hl
    rw [h.sound.owns_exactly.refCount_eq _ entry hl]
    have hle : s.engine.references (fingerprintPage (normalizePage data)) ≤
        s.engine.translation.values.card := Multiset.countP_le_card ..
    rw [Finmap.card_values] at hle
    omega
  | read v io => trivial
  | discard v => trivial
  | setPassthrough on => trivial

/-- A write whose accesses complete succeeds while there are more slots than live pages. -/
theorem succeeds (h : Interned fingerprintPage written limit s)
    (hroom : s.memory.pages.ncard < s.engine.slotAllocator.maxSlots)
    (hstore : s.engine.store.totalSlots = s.engine.slotAllocator.maxSlots) (v : UInt64)
    (data : List UInt8) : (Op.write v .done data).Succeeds fingerprintPage s.engine := by
  rw [Op.Succeeds, ProxyEngine.handleWrite_eq]
  obtain ⟨e₁, hc, ⟨hpass, -⟩ | ⟨-, ⟨slot, err, hdup, hread, -⟩ | ⟨tracked, -, -, -, hq⟩ | ⟨-, hq⟩⟩⟩ :=
    s.engine.place_cases fingerprintPage .done data
  · rw [h.passthrough] at hpass
    cases hpass
  · obtain ⟨entry, hl, rfl, -⟩ := DedupTable.lookup_duplicate hdup
    obtain ⟨page, -, -, -, hpage⟩ := h.page_of_tracked hl
    rw [WriteIo.done, PageStore.readPage_done hpage] at hread
    cases hread
  · rw [hq, ProxyEngine.install]
  · -- As many slots are in use as there are live pages, so one is free or left to hand out.
    have hnext := h.sound.owns_exactly.nextSlot_eq
    rw [h.mappedSlots_ncard] at hnext
    obtain ⟨slot, ha⟩ : ∃ slot, e₁.slotAllocator.allocate.1 = some slot := by
      rw [hc.slotAllocator_eq]
      rcases s.engine.slotAllocator.allocate_cases with
        ⟨slot, _, -, hs, -⟩ | ⟨-, -, hs, -⟩ | ⟨hfree, hfull, -⟩
      · exact ⟨slot, hs⟩
      · exact ⟨_, hs⟩
      · rw [hfree, List.length_nil] at hnext
        omega
    have hlt : slot < e₁.store.totalSlots := by
      have hslot := (SlotAllocator.allocate_counts ha).1
      rw [hc.slotAllocator_eq] at hslot
      rw [hc.totalSlots_eq, hstore]
      exact hslot
    obtain ⟨entry, placed, hplaced⟩ := ProxyEngine.placeUnique_done .done ha hlt rfl
      (fingerprintPage (normalizePage data)) (normalizePage data)
    rw [hq, hplaced, ProxyEngine.install]

end Interned

/-- A request for a page of the device whose accesses complete, which writes a known page,
discards or reads. -/
def Op.Completes (written : Set Page) (pages : Nat) (op : Op) : Prop :=
  op.OnDevice pages ∧
    match op with
    | .write _ io data => io = .done ∧ normalizePage data ∈ written
    | .discard _ | .read _ _ => True
    | .setPassthrough _ => False

/-- On a device with more slots and entries than known pages, and fewer pages than a count can
count, requests that complete never lack a slot, an entry or a count. -/
theorem Session.dedups_of_completes {fingerprintPage : Page → Fingerprint} {store : PageStore}
    {maxEntries bloomCapacity : Nat} {written : Set Page} {ops : List Op}
    (hinj : Set.InjOn fingerprintPage written) (hfinite : written.Finite)
    (hentries : written.ncard < maxEntries) (hslots : written.ncard < store.totalSlots)
    (hcounts : store.totalSlots + 1 < 2 ^ 32)
    (hops : ∀ op ∈ ops, op.Completes written store.totalSlots) :
    Run.Along (Session.step fingerprintPage)
      (fun s op => op.Dedups fingerprintPage written s.engine ∧
        s.memory.pages.ncard < maxEntries ∧ op.CountFits fingerprintPage s.engine)
      (.startDedup store maxEntries bloomCapacity) ops := by
  have hnone : ∀ v entry, (startDedup store maxEntries bloomCapacity).engine.translation.lookup v =
      some entry → InFirstPages store.totalSlots v := fun v entry hv => by cases hv
  have hfits : ∀ (s : Session) (op : Op), (Interned fingerprintPage written maxEntries s ∧
      Device store.totalSlots s.engine ∧ s.engine.store.totalSlots = store.totalSlots) →
      op.Completes written store.totalSlots → op.Dedups fingerprintPage written s.engine ∧
        s.memory.pages.ncard < maxEntries ∧ op.CountFits fingerprintPage s.engine := by
    rintro s op ⟨hint, hdevice, hsize⟩ ⟨-, hop⟩
    have hlive : s.memory.pages.ncard ≤ written.ncard :=
      Set.ncard_le_ncard hint.pages_subset hfinite
    have hmapped : s.engine.translation.keys.card ≤ store.totalSlots :=
      (Finset.card_le_card hdevice.keys_subset).trans (card_devicePages_le _)
    have hmax := hdevice.occupancy.maxSlots
    refine ⟨?_, by omega, hint.countFits (by omega) op⟩
    cases op with
    | write v io data =>
      obtain ⟨rfl, hknown⟩ := hop
      exact ⟨hint.succeeds (by omega) (hsize.trans hmax.symm) v data, hknown⟩
    | read v io => exact ⟨trivial, trivial⟩
    | discard v => exact ⟨trivial, trivial⟩
    | setPassthrough on => exact hop.elim
  have hoccupancy : Occupancy store.totalSlots
      ((start store maxEntries bloomCapacity).step fingerprintPage (.setPassthrough false)).engine 0 :=
    Occupancy.step (Occupancy.ofStore store maxEntries bloomCapacity) _
  refine (Run.along_of_forall hops _).of_invariant (fun s op hs hop => ?_) hfits
    ⟨Interned.startDedup fingerprintPage written store maxEntries bloomCapacity,
      ⟨hoccupancy, hnone⟩, rfl⟩
  obtain ⟨hdedups, hroom, hcount⟩ := hfits s op hs hop
  exact ⟨hs.1.step hinj hdedups hroom hcount, hs.2.1.step hop.1,
    (Session.totalSlots_step fingerprintPage s op).trans hs.2.2⟩

/-- What a successful request leaves in the memory. -/
def Memory.apply (m : Memory) : Op → Memory
  | .write v _ data => m.write v (normalizePage data)
  | .discard v => m.discard v
  | .read _ _ | .setPassthrough _ => m

/-- Successful requests do to the memory what they say. -/
theorem Session.memory_run {fingerprintPage : Page → Fingerprint} {s : Session} {ops : List Op}
    (h : Run.Along (Session.step fingerprintPage)
      (fun s op => op.Succeeds fingerprintPage s.engine) s ops) :
    (Run.run (Session.step fingerprintPage) s ops).memory = ops.foldl Memory.apply s.memory := by
  induction ops generalizing s with
  | nil => rfl
  | cons op ops ih =>
    obtain ⟨hop, hrest⟩ := h
    rw [Run.run_cons, ih hrest, List.foldl_cons]
    congr 1
    cases op with
    | write v io data =>
      rw [Op.Succeeds] at hop
      simp only [Session.step, hop, if_true, Memory.apply]
    | read v io => rfl
    | discard v => rfl
    | setPassthrough on => rfl

/-- Two pages at two offsets each, of which one offset is discarded. -/
def twoCopies : List Op :=
  [.write 0 .done [1], .write 4096 .done [1], .write 8192 .done [2], .write 12288 .done [2],
    .discard 12288]

/-- After the writes and the discard, the two offsets of the first page share a slot, the one that
is left of the second page has another, and the discarded one has none. -/
theorem Session.dedupComplete_apply :
    let s := Run.run (Session.step firstBytes) (.startDedup (.blank 4 (by decide)) 4 1) twoCopies
    CompleteDedup firstBytes s ∧ ∃ x y z, s.engine.translation.lookup 0 = some x ∧
      s.engine.translation.lookup 4096 = some y ∧ s.engine.translation.lookup 8192 = some z ∧
      x.backendSlot = y.backendSlot ∧ x.backendSlot ≠ z.backendSlot ∧
      s.engine.translation.lookup 12288 = none := by
  have hpages : normalizePage [1] ≠ normalizePage [2] := by decide +kernel
  have hinj : Set.InjOn firstBytes {normalizePage [1], normalizePage [2]} :=
    Set.injOn_pair.mpr fun heq => absurd heq (by decide +kernel)
  have hroom : ({normalizePage [1], normalizePage [2]} : Set Page).ncard < 4 :=
    lt_of_le_of_lt (Set.ncard_insert_le _ _) (by rw [Set.ncard_singleton]; decide)
  have hops : ∀ op ∈ twoCopies, op.Completes {normalizePage [1], normalizePage [2]} 4 := by
    have hdevice : ∀ op ∈ twoCopies, op.OnDevice 4 := by
      simp only [twoCopies, List.forall_mem_cons, Op.OnDevice, Op.offset, Option.some.injEq,
        forall_eq']
      decide
    have hknown : ∀ op ∈ twoCopies, (∃ v data, op = .write v .done data ∧ (data = [1] ∨ data = [2])) ∨
        ∃ v, op = .discard v := by
      simp [twoCopies]
    intro op hop
    refine ⟨hdevice op hop, ?_⟩
    obtain ⟨v, data, rfl, hdata⟩ | ⟨v, rfl⟩ := hknown op hop
    · exact ⟨rfl, hdata.imp (congrArg normalizePage) (congrArg normalizePage)⟩
    · trivial
  have halong : Run.Along (Session.step firstBytes) (fun s op =>
      op.Dedups firstBytes {normalizePage [1], normalizePage [2]} s.engine ∧
        s.memory.pages.ncard < 4 ∧ op.CountFits firstBytes s.engine)
      (.startDedup (.blank 4 (by decide)) 4 1) twoCopies :=
    Session.dedups_of_completes hinj (Set.toFinite _) hroom hroom (by decide) hops
  have hcomplete := Session.dedupComplete firstBytes _ 4 1 _ hinj twoCopies halong
  have hmemory := Session.memory_run (halong.mono fun _ _ h => h.1.1)
  have hsound := (Interned.run hinj halong).sound
  have hmapped : ∀ v page, twoCopies.foldl Memory.apply Memory.empty v = some page →
      ∃ x, (Run.run (Session.step firstBytes) (.startDedup (.blank 4 (by decide)) 4 1)
        twoCopies).engine.translation.lookup v = some x := by
    intro v page hv
    refine Option.ne_none_iff_exists'.mp fun hnone => ?_
    have hm := hsound.unmapped v hnone
    rw [hmemory] at hm
    exact absurd (hm.symm.trans hv) (by simp)
  obtain ⟨x, hx⟩ := hmapped 0 (normalizePage [1]) rfl
  obtain ⟨y, hy⟩ := hmapped 4096 (normalizePage [1]) rfl
  obtain ⟨z, hz⟩ := hmapped 8192 (normalizePage [2]) rfl
  refine ⟨hcomplete, x, y, z, hx, hy, hz, ?_, ?_, ?_⟩
  · rw [hcomplete.shares_iff 0 4096 x y hx hy, hmemory]
    rfl
  · rw [ne_eq, hcomplete.shares_iff 0 8192 x z hx hz, hmemory]
    exact fun heq => hpages (Option.some.inj heq)
  · refine Option.eq_none_iff_forall_ne_some.mpr fun entry hsome => ?_
    obtain ⟨page, hm, -⟩ := hsound.holds 12288 entry hsome
    rw [hmemory] at hm
    cases hm

/-- One page at 2^32 - 1 offsets, rewritten at one of them: every write succeeds and a single
page is live, but the table has no entry for it. -/
theorem Session.not_dedupComplete_of_wrap :
    Run.Along (Session.step firstBytes) (fun s op =>
        op.Dedups firstBytes {zeroPage} s.engine ∧ s.memory.pages.ncard < 2)
      (.startDedup (.blank (2 ^ 32) (by decide)) 2 1)
      (SharedPage.writes zeroPage (2 ^ 32 - 1) ++ [.write 0 .done zeroPage.bytes]) ∧
    ¬ CompleteDedup firstBytes (Run.run (Session.step firstBytes)
      (.startDedup (.blank (2 ^ 32) (by decide)) 2 1)
      (SharedPage.writes zeroPage (2 ^ 32 - 1) ++ [.write 0 .done zeroPage.bytes])) := by
  obtain ⟨halong, s, hshared, hrun⟩ := SharedPage.run_append_write firstBytes zeroPage
    (.blank (2 ^ 32) (by decide)) 2 1 (by decide) (by decide) (n := 2 ^ 32 - 1) (by omega)
    (by omega) 0
  have hops : ∀ s op, SharedPage.WritesPage firstBytes zeroPage s op →
      op.Dedups firstBytes {zeroPage} s.engine ∧ s.memory.pages.ncard < 2 := by
    rintro s _ ⟨⟨v, rfl⟩, hok, hpages⟩
    refine ⟨⟨hok, normalizePage_bytes zeroPage⟩, ?_⟩
    have hle := Set.ncard_le_ncard hpages (Set.finite_singleton _)
    rw [Set.ncard_singleton] at hle
    omega
  rw [hrun]
  refine ⟨halong.mono hops, fun h => ?_⟩
  obtain ⟨-, hnone, -, hlive⟩ := hshared.rewrite
  obtain ⟨entry, hsome⟩ := (h.tracked_iff _).mpr ⟨zeroPage, ⟨4096, hlive⟩, rfl⟩
  rw [hnone] at hsome
  cases hsome

end Animaksm.Proxy

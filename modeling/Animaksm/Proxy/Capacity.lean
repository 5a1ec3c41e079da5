import Animaksm.Proxy.Session

/-!
# Room for a device's own address range

At most one slot is in use for each mapped offset, one less for every reference
that a shared slot saves. A write needs a slot before its offset gives one up, so
a device with as many slots as offsets is full as soon as all of its offsets are
mapped to slots of their own, and the next rewrite fails. Short of that there is
always a slot.
-/

namespace Animaksm.Proxy

/-- Slots that sharing saves: all references of an entry but one. -/
def DedupTable.saved (t : DedupTable) : Nat :=
  (t.map.values.map fun entry => entry.refCount.toNat - 1).sum

/-- A dropped entry saved what its references beyond the first did. -/
theorem DedupTable.saved_erase {t : DedupTable} (t' : DedupTable) {fp : Fingerprint}
    {entry : DedupEntry} (h : t.map.lookup fp = some entry) (h' : t'.map = t.map.erase fp) :
    t.saved = entry.refCount.toNat - 1 + t'.saved := by
  rw [saved, Finmap.values_eq_cons_erase h, Multiset.map_cons, Multiset.sum_cons, saved, h']

/-- A new entry saves what its references beyond the first do. -/
theorem DedupTable.saved_insert_none {t : DedupTable} (t' : DedupTable) {fp : Fingerprint}
    {entry : DedupEntry} (h : t.map.lookup fp = none) (h' : t'.map = t.map.insert fp entry) :
    t'.saved = entry.refCount.toNat - 1 + t.saved := by
  rw [saved, h', Finmap.values_insert_of_lookup_none h, Multiset.map_cons, Multiset.sum_cons, saved]

/-- A rewritten entry trades what it saved. -/
theorem DedupTable.saved_insert_some {t : DedupTable} (t' : DedupTable) {fp : Fingerprint}
    {old : DedupEntry} (entry : DedupEntry) (h : t.map.lookup fp = some old)
    (h' : t'.map = t.map.insert fp entry) :
    old.refCount.toNat - 1 + t'.saved = entry.refCount.toNat - 1 + t.saved := by
  have hcons := congrArg (fun values => (values.map fun entry : DedupEntry =>
    entry.refCount.toNat - 1).sum) (Finmap.cons_values_insert h entry)
  simpa only [Multiset.map_cons, Multiset.sum_cons, saved, h'] using hcons

/-- Offering a page to the table saves nothing by itself. -/
theorem DedupTable.saved_insert (t : DedupTable) (fp : Fingerprint) (data : List UInt8)
    (slot : Nat) : (t.insert fp data slot).2.saved = t.saved := by
  cases hb : (t.insert fp data slot).1 with
  | false =>
    obtain ⟨lru, ht⟩ := insert_false hb
    rw [ht]
    rfl
  | true =>
    obtain ⟨hnone, ⟨-, ht⟩ | ⟨old, entry, lru, -, hold, hone, ht⟩⟩ := insert_true hb
    · rw [ht, saved_insert_none (t.track fp data slot) hnone rfl]
      exact Nat.zero_add _
    · rw [ht]
      generalize hmid : ({ t with
        map := t.map.erase old, evictions := t.evictions + 1, lru := lru } : DedupTable) = mid
      have hmap : mid.map = t.map.erase old := by rw [← hmid]
      have hnone' : mid.map.lookup fp = none := by
        rw [hmap, Finmap.lookup_erase_eq, hnone, ite_self]
      have hzero : entry.refCount.toNat - 1 = 0 := by
        have := UInt32.le_iff_toNat_le.mp hone
        rw [UInt32.toNat_one] at this
        omega
      rw [saved_insert_none (mid.track fp data slot) hnone' rfl, saved_erase mid hold hmap, hzero]
      rfl

/-- A counted reference saves at most one slot more. -/
theorem DedupTable.saved_addReference_le (t : DedupTable) (fp : Fingerprint) :
    (t.addReference fp).2.saved ≤ t.saved + 1 := by
  cases hl : t.map.lookup fp with
  | none =>
    rw [addReference, hl]
    exact Nat.le_succ _
  | some entry =>
    obtain ⟨lru, tick, hadd⟩ := addReference_of_tracked hl
    have hsaved := saved_insert_some (t.addReference fp).2
      { entry with refCount := entry.refCount + 1 } hl (by rw [hadd])
    have hcount : (entry.refCount + 1).toNat ≤ entry.refCount.toNat + 1 := by
      rw [UInt32.toNat_add, UInt32.toNat_one]
      exact Nat.mod_le _ _
    dsimp only at hsaved
    omega

/-- An allocation uses one slot more. -/
theorem SlotAllocator.allocate_counts {a : SlotAllocator} {slot : Nat}
    (h : a.allocate.1 = some slot) : slot < a.maxSlots ∧
      a.allocate.2.nextSlot + a.freeSlots.length =
        a.nextSlot + a.allocate.2.freeSlots.length + 1 := by
  rcases a.allocate_cases with ⟨s, rest, hf, hs, hf', hn⟩ | ⟨hf, hlt, hs, hf', hn⟩ | ⟨-, -, hfull⟩
  · obtain rfl : s = slot := Option.some.inj (hs.symm.trans h)
    refine ⟨a.freeSlots_lt s (hf ▸ List.mem_cons_self), ?_⟩
    rw [hf', hn, hf, List.length_cons]
    omega
  · obtain rfl : a.nextSlot = slot := Option.some.inj (hs.symm.trans h)
    refine ⟨hlt, ?_⟩
    rw [hf', hn, hf]
    omega
  · rw [hfull] at h
    cases h

/-- In an engine with this many slots, the slots in use are paid for by mapped offsets and
by claims in the hands of a request. -/
structure Occupancy (slots : Nat) (e : ProxyEngine) (held : Nat) : Prop where
  maxSlots : e.slotAllocator.maxSlots = slots
  bound : e.slotAllocator.nextSlot + e.dedupTable.saved ≤
    e.translation.keys.card + held + e.slotAllocator.freeSlots.length
  mapped_lt : ∀ v entry, e.translation.lookup v = some entry →
    entry.backendSlot < slots
  tracked_lt : ∀ fp entry, e.dedupTable.map.lookup fp = some entry →
    entry.backendOffset < slots

namespace Occupancy

variable {slots : Nat} {e e' : ProxyEngine} {held : Nat}

theorem ofStore (store : PageStore) (maxEntries bloomCapacity : Nat) :
    Occupancy store.totalSlots (.ofStore store maxEntries bloomCapacity) 0 where
  maxSlots := rfl
  bound := le_rfl
  mapped_lt v entry hv := by
    rw [ProxyEngine.ofStore, Finmap.lookup_empty] at hv
    cases hv
  tracked_lt fp entry hl := by
    simp [ProxyEngine.ofStore, DedupTable.new] at hl

theorem recount (h : Occupancy slots e held) (hc : e.Recounts e') : Occupancy slots e' held := by
  obtain ⟨_, _, _, _, rfl⟩ := hc
  exact ⟨h.maxSlots, h.bound, h.mapped_lt, h.tracked_lt⟩

theorem freeSlot {slot : Nat} (h : Occupancy slots e (held + 1)) (hlt : slot < slots) :
    Occupancy slots (e.freeSlot slot) held where
  maxSlots := (SlotAllocator.maxSlots_free ..).trans h.maxSlots
  bound := by
    have hbound := h.bound
    simp only [ProxyEngine.freeSlot, SlotAllocator.nextSlot_free,
      SlotAllocator.freeSlots_free (h.maxSlots ▸ hlt), List.length_append, List.length_singleton]
    omega
  mapped_lt := h.mapped_lt
  tracked_lt := h.tracked_lt

/-- Entries of a table that are new or old name slots of the store. -/
private theorem tracked_lt_insert {t t' : DedupTable} {fp : Fingerprint} {entry : DedupEntry}
    {n : Nat} (h : ∀ g x, t.map.lookup g = some x → x.backendOffset < n)
    (h' : t'.map = t.map.insert fp entry) (hlt : entry.backendOffset < n) :
    ∀ g x, t'.map.lookup g = some x → x.backendOffset < n := by
  intro g x hx
  rw [h', Finmap.lookup_insert_eq] at hx
  split at hx
  · cases hx
    exact hlt
  · exact h g x hx

private theorem tracked_lt_erase {t t' : DedupTable} {fp : Fingerprint} {n : Nat}
    (h : ∀ g x, t.map.lookup g = some x → x.backendOffset < n) (h' : t'.map = t.map.erase fp) :
    ∀ g x, t'.map.lookup g = some x → x.backendOffset < n := by
  intro g x hx
  rw [h', Finmap.lookup_erase_eq] at hx
  split at hx
  · cases hx
  · exact h g x hx

theorem insert {slot : Nat} (h : Occupancy slots e held) (hlt : slot < slots)
    (fp : Fingerprint) (data : List UInt8) :
    Occupancy slots { e with dedupTable := (e.dedupTable.insert fp data slot).2 } held where
  maxSlots := h.maxSlots
  bound := by
    dsimp only
    rw [DedupTable.saved_insert]
    exact h.bound
  mapped_lt := h.mapped_lt
  tracked_lt := by
    cases hb : (e.dedupTable.insert fp data slot).1 with
    | false =>
      obtain ⟨lru, ht⟩ := DedupTable.insert_false hb
      dsimp only
      rw [ht]
      exact h.tracked_lt
    | true =>
      dsimp only
      obtain ⟨-, ⟨-, ht⟩ | ⟨old, entry, lru, -, -, -, ht⟩⟩ := DedupTable.insert_true hb <;> rw [ht]
      · exact tracked_lt_insert h.tracked_lt rfl hlt
      · refine tracked_lt_insert (t := { e.dedupTable with
          map := e.dedupTable.map.erase old
          evictions := e.dedupTable.evictions + 1
          lru := lru }) ?_ rfl hlt
        exact tracked_lt_erase h.tracked_lt rfl

theorem addReference {fp : Fingerprint} {entry : DedupEntry} (h : Occupancy slots e held)
    (hl : e.dedupTable.map.lookup fp = some entry) :
    Occupancy slots { e with dedupTable := (e.dedupTable.addReference fp).2 } (held + 1) where
  maxSlots := h.maxSlots
  bound := by
    have hbound := h.bound
    have hsaved := e.dedupTable.saved_addReference_le fp
    dsimp only
    omega
  mapped_lt := h.mapped_lt
  tracked_lt := by
    obtain ⟨lru, tick, hadd⟩ := DedupTable.addReference_of_tracked hl
    dsimp only
    rw [hadd]
    exact tracked_lt_insert h.tracked_lt rfl (h.tracked_lt fp entry hl)

theorem releaseMapping {entry : TranslationEntry} (h : Occupancy slots e (held + 1))
    (hlt : entry.backendSlot < slots) :
    Occupancy slots (e.releaseMapping entry) held := by
  rcases e.releaseMapping_cases entry with
    ⟨-, he⟩ | ⟨fp, -, ⟨-, he⟩ | ⟨tracked, hl, ⟨hlast, lru, he⟩ | ⟨hmany, he⟩⟩⟩ <;> rw [he]
  · exact h.freeSlot hlt
  · exact h.freeSlot hlt
  · refine freeSlot ⟨h.maxSlots, ?_, h.mapped_lt, tracked_lt_erase h.tracked_lt rfl⟩ (h.tracked_lt fp tracked hl)
    have hbound := h.bound
    have hsaved := DedupTable.saved_erase { e.dedupTable with
      map := e.dedupTable.map.erase fp, lru := lru } hl rfl
    dsimp only at hsaved ⊢
    omega
  · refine ⟨h.maxSlots, ?_, h.mapped_lt, tracked_lt_insert h.tracked_lt rfl (h.tracked_lt fp tracked hl)⟩
    have hbound := h.bound
    have hsaved := DedupTable.saved_insert_some { e.dedupTable with
      map := e.dedupTable.map.insert fp { tracked with refCount := tracked.refCount - 1 } }
      { tracked with refCount := tracked.refCount - 1 } hl rfl
    obtain ⟨hcount, hpos⟩ := DedupEntry.toNat_refCount_sub_one hmany
    dsimp only at hsaved ⊢
    omega

theorem replaceMapping {entry : TranslationEntry} (h : Occupancy slots e 1)
    (hlt : entry.backendSlot < slots) (v : UInt64) :
    Occupancy slots (e.replaceMapping v entry) 0 := by
  have hmapped : ∀ w x, (e.translation.insert v entry).lookup w = some x →
      x.backendSlot < slots := by
    intro w x hw
    rw [Finmap.lookup_insert_eq] at hw
    split at hw
    · cases hw
      exact hlt
    · exact h.mapped_lt w x hw
  have hbound := h.bound
  cases hv : e.translation.lookup v with
  | none =>
    rw [ProxyEngine.replaceMapping_of_lookup_none hv]
    refine ⟨h.maxSlots, ?_, hmapped, h.tracked_lt⟩
    dsimp only
    rw [Finmap.keys_insert, Finset.card_insert_of_notMem (by
      rw [Finmap.mem_keys]
      exact Finmap.lookup_eq_none.mp hv)]
    omega
  | some old =>
    rw [ProxyEngine.replaceMapping_of_lookup_some hv]
    refine releaseMapping ⟨h.maxSlots, ?_, hmapped, h.tracked_lt⟩ (h.mapped_lt v old hv)
    dsimp only
    rw [Finmap.keys_insert, Finset.insert_eq_of_mem (by
      rw [Finmap.mem_keys]
      exact Finmap.mem_of_lookup_eq_some hv)]
    omega

theorem handleDiscard (h : Occupancy slots e 0) (v : UInt64) : Occupancy slots (e.handleDiscard v) 0 := by
  have hbound := h.bound
  have hmapped : ∀ w x, (e.translation.erase v).lookup w = some x →
      x.backendSlot < slots := by
    intro w x hw
    rw [Finmap.lookup_erase_eq] at hw
    split at hw
    · cases hw
    · exact h.mapped_lt w x hw
  unfold ProxyEngine.handleDiscard ProxyEngine.removeTranslation
  dsimp only
  cases hv : e.translation.lookup v with
  | none =>
    refine ⟨h.maxSlots, ?_, hmapped, h.tracked_lt⟩
    rw [Finmap.erase_of_lookup_none hv]
    exact hbound
  | some old =>
    refine releaseMapping ⟨h.maxSlots, ?_, hmapped, h.tracked_lt⟩ (h.mapped_lt v old hv)
    have hcard := Finmap.card_keys_of_lookup_some hv
    simp only
    omega

/-- An allocated slot is in the hands of the request, whatever is written to it. -/
private theorem allocate {slot : Nat} (h : Occupancy slots e held)
    (ha : e.slotAllocator.allocate.1 = some slot) (store : PageStore) :
    slot < slots ∧ Occupancy slots { e with
      slotAllocator := e.slotAllocator.allocate.2, store := store } (held + 1) := by
  obtain ⟨hlt, hcounts⟩ := SlotAllocator.allocate_counts ha
  refine ⟨h.maxSlots ▸ hlt, (SlotAllocator.maxSlots_allocate _).trans h.maxSlots, ?_, h.mapped_lt,
    h.tracked_lt⟩
  have hbound := h.bound
  dsimp only
  omega

variable {fingerprintPage : Page → Fingerprint} {io : WriteIo} {data : List UInt8}

/-- A successful placement puts one claim in the hands of the request. -/
theorem place_ok {entry : TranslationEntry} (h : Occupancy slots e held)
    (hp : e.place fingerprintPage io data = (.ok entry, e')) :
    Occupancy slots e' (held + 1) ∧ entry.backendSlot < slots := by
  obtain ⟨e₁, hc, ⟨-, hq⟩ | ⟨-, ⟨_, _, -, -, hq⟩ | ⟨tracked, hl, -, -, hq⟩ | ⟨-, hq⟩⟩⟩ :=
    e.place_cases fingerprintPage io data <;> rw [hp] at hq
  · obtain ⟨slot, stats, ha, -, rfl, rfl⟩ := ProxyEngine.placeDirect_eq_ok hq.symm
    obtain ⟨hlt, hocc⟩ := (h.recount hc).allocate ha (e₁.store.writePage io.write slot _).2
    exact ⟨hocc.recount ⟨stats, _, _, _, rfl⟩, hlt⟩
  · cases hq
  · cases hq
    have hl₁ := hl
    rw [← hc.map_eq] at hl₁
    exact ⟨(h.recount hc).addReference hl₁, (h.recount hc).tracked_lt _ _ hl₁⟩
  · obtain ⟨slot, stats, ha, -, rfl, rfl⟩ := ProxyEngine.placeUnique_eq_ok hq.symm
    obtain ⟨hlt, hocc⟩ := (h.recount hc).allocate ha (e₁.store.writePage io.write slot _).2
    refine ⟨(hocc.insert hlt _ _).recount ⟨stats, _, _, _, rfl⟩, ?_⟩
    split <;> exact hlt

/-- A failed placement uses nothing. -/
theorem place_error {err : EngineError} (h : Occupancy slots e held)
    (hp : e.place fingerprintPage io data = (.error err, e')) : Occupancy slots e' held := by
  obtain ⟨e₁, hc, ⟨-, rfl⟩ | ⟨-, -, -, rfl⟩ | ⟨-, slot, ha, rfl⟩⟩ := ProxyEngine.place_eq_error hp
  · exact h.recount hc
  · exact h.recount hc
  · rw [← hc.slotAllocator_eq] at ha
    obtain ⟨hlt, hocc⟩ := (h.recount hc).allocate ha
      (e₁.store.writePage io.write slot (normalizePage data).bytes).2
    exact hocc.freeSlot hlt

/-- Every request keeps the occupancy. -/
theorem step {s : Session} (h : Occupancy slots s.engine 0) (op : Op) :
    Occupancy slots (s.step fingerprintPage op).engine 0 := by
  cases op with
  | write v io data =>
    rcases hp : s.engine.place fingerprintPage io data with ⟨err | entry, placed⟩
    · rw [Session.step_write_of_place_error hp]
      exact h.place_error hp
    · rw [Session.step_write_of_place_ok hp]
      obtain ⟨hocc, hlt⟩ := h.place_ok hp
      exact hocc.replaceMapping hlt v
  | read v io => exact h.recount (ProxyEngine.recounts_handleRead ..)
  | discard v => exact h.handleDiscard v
  | setPassthrough on => exact ⟨h.maxSlots, h.bound, h.mapped_lt, h.tracked_lt⟩

end Occupancy

/-! ## Devices of as many pages as slots -/

/-- The request names a page of the device, if it names any. -/
def Op.OnDevice (pages : Nat) (op : Op) : Prop :=
  ∀ v, op.offset = some v → InFirstPages pages v

/-- A write that stores a new copy finds an unmapped page of the device, or an entry that
saves a slot. -/
def Op.HasRoom (fingerprintPage : Page → Fingerprint) (pages : Nat) (e : ProxyEngine) :
    Op → Prop
  | .write _ _ data =>
    e.passthrough = true ∨
        ¬ e.VerifiedDuplicate (fingerprintPage (normalizePage data)) (normalizePage data) →
      (∃ w, InFirstPages pages w ∧ e.translation.lookup w = none) ∨
        ∃ fp entry, e.dedupTable.map.lookup fp = some entry ∧ 2 ≤ entry.refCount
  | .read _ _ | .discard _ | .setPassthrough _ => True

/-- The request does not fail for want of a slot. -/
def Op.FindsSlot (fingerprintPage : Page → Fingerprint) (e : ProxyEngine) : Op → Prop
  | .write v io data => (e.handleWrite fingerprintPage io v data).1 ≠ .error .storeFull
  | .read _ _ | .discard _ | .setPassthrough _ => True

instance (fingerprintPage : Page → Fingerprint) (e : ProxyEngine) :
    ∀ op : Op, Decidable (op.FindsSlot fingerprintPage e)
  | .write v io data =>
    inferInstanceAs (Decidable ((e.handleWrite fingerprintPage io v data).1 ≠ .error .storeFull))
  | .read _ _ | .discard _ | .setPassthrough _ => isTrue trivial

/-- All pages of the device. -/
def devicePages (pages : Nat) : Finset UInt64 :=
  (Finset.range pages).image fun i => UInt64.ofNat (i * pageSize)

theorem mem_devicePages {pages : Nat} {v : UInt64} (h : InFirstPages pages v) :
    v ∈ devicePages pages := by
  obtain ⟨hdiv, hlt⟩ := h
  rw [devicePages, Finset.mem_image]
  refine ⟨v.toNat / pageSize, Finset.mem_range.mpr ?_, ?_⟩
  · exact Nat.div_lt_of_lt_mul (by rwa [Nat.mul_comm])
  · rw [Nat.div_mul_cancel (Nat.dvd_of_mod_eq_zero hdiv), UInt64.ofNat_toNat]

theorem card_devicePages_le (pages : Nat) : (devicePages pages).card ≤ pages :=
  Finset.card_image_le.trans (Finset.card_range pages).le

/-- The books of a device: occupancy with as many slots as pages, and only pages mapped. -/
structure Device (pages : Nat) (e : ProxyEngine) : Prop where
  occupancy : Occupancy pages e 0
  mapped : ∀ v entry, e.translation.lookup v = some entry → InFirstPages pages v

namespace Device

variable {fingerprintPage : Page → Fingerprint} {pages : Nat} {e : ProxyEngine}

/-- Mapped offsets are pages of the device. -/
theorem keys_subset (h : Device pages e) : e.translation.keys ⊆ devicePages pages := by
  intro v hv
  obtain ⟨entry, hentry⟩ := Finmap.mem_iff.mp (Finmap.mem_keys.mp hv)
  exact mem_devicePages (h.mapped v entry hentry)

/-- With an unmapped page, or an entry that saves a slot, some slot can be allocated. -/
theorem allocate_isSome (h : Device pages e)
    (hroom : (∃ w, InFirstPages pages w ∧ e.translation.lookup w = none) ∨
      ∃ fp entry, e.dedupTable.map.lookup fp = some entry ∧ 2 ≤ entry.refCount) :
    e.slotAllocator.allocate.1 ≠ none := by
  intro hnone
  have hfull : e.slotAllocator.freeSlots = [] ∧ pages ≤ e.slotAllocator.nextSlot := by
    rcases e.slotAllocator.allocate_cases with ⟨_, _, -, hs, -⟩ | ⟨-, -, hs, -⟩ | ⟨hf, hle, -⟩
    · rw [hs] at hnone
      cases hnone
    · rw [hs] at hnone
      cases hnone
    · exact ⟨hf, h.occupancy.maxSlots ▸ hle⟩
  have hbound := h.occupancy.bound
  have hpages := card_devicePages_le pages
  rw [hfull.1, List.length_nil] at hbound
  rcases hroom with ⟨w, hw, hnew⟩ | ⟨fp, entry, hl, htwo⟩
  · -- the unmapped page is not among the mapped ones
    have hlt := Finset.card_lt_card (Finset.ssubset_iff_of_subset h.keys_subset |>.mpr
      ⟨w, mem_devicePages hw, fun hk => Finmap.lookup_eq_none.mp hnew (Finmap.mem_keys.mp hk)⟩)
    omega
  · have hsaved := DedupTable.saved_erase { e.dedupTable with map := e.dedupTable.map.erase fp }
      hl rfl
    have hcount : 2 ≤ entry.refCount.toNat := UInt32.le_iff_toNat_le.mp htwo
    have hle := Finset.card_le_card h.keys_subset
    omega

/-- Requests on the device keep its books. -/
theorem step {s : Session} {op : Op} (h : Device pages s.engine) (hop : op.OnDevice pages) :
    Device pages (s.step fingerprintPage op).engine := by
  refine ⟨h.occupancy.step op, fun w entry hw => ?_⟩
  cases op with
  | write v io data =>
    have htrans := s.engine.translation_place fingerprintPage io data
    rcases hp : s.engine.place fingerprintPage io data with ⟨err | place, placed⟩ <;>
      rw [hp] at htrans
    · rw [Session.step_write_of_place_error hp, htrans] at hw
      exact h.mapped w entry hw
    · rw [Session.step_write_of_place_ok hp, ProxyEngine.translation_replaceMapping, htrans,
        Finmap.lookup_insert_eq] at hw
      split at hw
      · next hwv => exact hwv ▸ hop v rfl
      · exact h.mapped w entry hw
  | read v io =>
    rw [Session.step, (ProxyEngine.recounts_handleRead s.engine io v).translation_eq] at hw
    exact h.mapped w entry hw
  | discard v =>
    rw [Session.step, ProxyEngine.translation_handleDiscard, Finmap.lookup_erase_eq] at hw
    split at hw
    · cases hw
    · exact h.mapped w entry hw
  | setPassthrough on => exact h.mapped w entry hw

/-- A write that has room does not fail for want of a slot. -/
theorem findsSlot (h : Device pages e) {op : Op} (hroom : op.HasRoom fingerprintPage pages e) :
    op.FindsSlot fingerprintPage e := by
  cases op with
  | write v io data =>
    intro hfull
    rw [ProxyEngine.handleWrite_eq] at hfull
    rcases hp : e.place fingerprintPage io data with ⟨err | entry, placed⟩ <;>
      rw [hp, ProxyEngine.install] at hfull <;> cases hfull
    obtain ⟨e₁, -, ⟨hne, -⟩ | ⟨-, hnone, hstores, -⟩ | ⟨hne, -⟩⟩ := ProxyEngine.place_eq_error hp
    · exact hne rfl
    · exact h.allocate_isSome (hroom hstores) hnone
    · exact hne rfl
  | read v io => trivial
  | discard v => trivial
  | setPassthrough on => trivial

end Device

/-- A device with as many slots as pages finds a slot for every write of a run, as long as
each write that stores a new copy starts with a page unmapped or a slot saved. -/
theorem Session.findsSlots (fingerprintPage : Page → Fingerprint) (store : PageStore)
    (maxEntries bloomCapacity : Nat) (ops : List Op)
    (h : Run.Along (Session.step fingerprintPage)
      (fun s op => op.OnDevice store.totalSlots ∧
        op.HasRoom fingerprintPage store.totalSlots s.engine)
      (.start store maxEntries bloomCapacity) ops) :
    Run.Along (Session.step fingerprintPage) (fun s op => op.FindsSlot fingerprintPage s.engine)
      (.start store maxEntries bloomCapacity) ops := by
  refine h.of_invariant (I := fun s => Device store.totalSlots s.engine)
    (fun s op hs hop => hs.step hop.1) (fun s op hs hop => hs.findsSlot hop.2) ⟨?_, ?_⟩
  · exact Occupancy.ofStore store maxEntries bloomCapacity
  · intro v entry hv
    rw [start, ProxyEngine.ofStore, Finmap.lookup_empty] at hv
    cases hv

theorem Session.findsSlots_apply :
    Run.Along (Session.step firstBytes) (fun s op => op.FindsSlot firstBytes s.engine)
      (.start (.blank 2 (by decide)) 1 1)
      [.write 0 .done [1], .write 0 .done [2], .discard 0, .write 4096 .done [3]] :=
  Session.findsSlots firstBytes _ 1 1 _ (by
    refine ⟨⟨?_, fun _ => Or.inl ⟨0, by decide, by decide +kernel⟩⟩,
      ⟨?_, fun _ => Or.inl ⟨4096, by decide, by decide +kernel⟩⟩, ⟨?_, trivial⟩,
      ⟨?_, fun _ => Or.inl ⟨0, by decide, by decide +kernel⟩⟩, trivial⟩ <;>
    · intro v hv
      cases hv
      decide)

/-- The only page of a device, written twice: the second write needs a slot before the
first one is given up. -/
theorem Session.not_findsSlots_of_rewrite :
    ¬ Run.Along (Session.step firstBytes) (fun s op => op.FindsSlot firstBytes s.engine)
      (.start (.blank 1 (by decide)) 1 1) [.write 0 .done [1], .write 0 .done [2]] := by
  decide +kernel

end Animaksm.Proxy

import Animaksm.Proxy.Session

/-!
# Failed writes

A write fails before it maps anything: on the read-back of a copy, for want of a
slot, or on the write to a slot that it then gives back. What is left of it are
counters, the order of the free list, and bytes in a slot that nobody names. A
partial write may lengthen the file, which no offset sees whose slot is part of
the file, as all mapped slots are.
-/

namespace Animaksm.Proxy

/-- Every slot that an allocation can still hand out, with multiplicity. -/
def SlotAllocator.allocatable (a : SlotAllocator) : Multiset Nat :=
  a.freeSlots ++ List.range' a.nextSlot (a.maxSlots - a.nextSlot)

/-- An allocated slot is one of them. -/
theorem SlotAllocator.mem_allocatable {a : SlotAllocator} {slot : Nat}
    (h : a.allocate.1 = some slot) : slot ∈ a.allocatable := by
  rw [allocatable, Multiset.mem_coe, List.mem_append]
  rcases a.allocate_cases with ⟨s, rest, hf, hs, -⟩ | ⟨-, hlt, hs, -⟩ | ⟨-, -, hn⟩
  · obtain rfl : s = slot := Option.some.inj (hs.symm.trans h)
    exact Or.inl (hf ▸ List.mem_cons_self)
  · obtain rfl : a.nextSlot = slot := Option.some.inj (hs.symm.trans h)
    refine Or.inr ?_
    rw [List.mem_range'_1]
    omega
  · rw [hn] at h
    cases h

/-- Handing a slot out and taking it back permutes them. -/
theorem SlotAllocator.allocatable_free_allocate {a : SlotAllocator} {slot : Nat}
    (h : a.allocate.1 = some slot) : (a.allocate.2.free slot).allocatable = a.allocatable := by
  rcases a.allocate_cases with ⟨s, rest, hf, hs, hf', hn⟩ | ⟨hf, hlt, hs, hf', hn⟩ | ⟨-, -, hfull⟩
  · obtain rfl : s = slot := Option.some.inj (hs.symm.trans h)
    have hlt : s < a.allocate.2.maxSlots := by
      rw [maxSlots_allocate]
      exact a.freeSlots_lt s (hf ▸ List.mem_cons_self)
    rw [allocatable, allocatable, freeSlots_free hlt, nextSlot_free, maxSlots_free,
      maxSlots_allocate, hf', hn, hf, Multiset.coe_eq_coe, List.append_assoc]
    exact List.perm_middle
  · obtain rfl : a.nextSlot = slot := Option.some.inj (hs.symm.trans h)
    have hlt' : a.nextSlot < a.allocate.2.maxSlots := by rwa [maxSlots_allocate]
    obtain ⟨k, hk⟩ : ∃ k, a.maxSlots - a.nextSlot = k + 1 := ⟨a.maxSlots - a.nextSlot - 1, by omega⟩
    rw [allocatable, allocatable, freeSlots_free hlt', nextSlot_free, maxSlots_free,
      maxSlots_allocate, hf', hn, hf, hk, show a.maxSlots - (a.nextSlot + 1) = k by omega,
      List.range'_succ]
    rfl
  · rw [hfull] at h
    cases h

namespace ProxyEngine

/-- No slot that can still be handed out is named by a translation or a dedup entry. -/
structure NamesNoAllocatable (e : ProxyEngine) : Prop where
  translated : ∀ v entry, e.translation.lookup v = some entry →
    entry.backendSlot ∉ e.slotAllocator.allocatable
  tracked : ∀ fp entry, e.dedupTable.map.lookup fp = some entry →
    entry.backendOffset ∉ e.slotAllocator.allocatable

/-- The offset is unmapped, or its slot lies inside the store file. -/
def InsideFile (e : ProxyEngine) (v : UInt64) : Prop :=
  ∀ entry, e.translation.lookup v = some entry →
    (entry.backendSlot + 1) * pageSize ≤ e.store.file.size

instance (e : ProxyEngine) (v : UInt64) : Decidable (e.InsideFile v) :=
  inferInstanceAs (Decidable (∀ entry, e.translation.lookup v = some entry →
    (entry.backendSlot + 1) * pageSize ≤ e.store.file.size))

/-- What a slot reads as depends on its page alone. -/
theorem readPage_congr {s s' : PageStore} {slot : Nat} (hs : s'.totalSlots = s.totalSlots)
    (hp : s'.pageAt slot = s.pageAt slot) (io : IoOutcome) :
    (s'.readPage io slot).1 = (s.readPage io slot).1 := by
  by_cases hslot : s.totalSlots ≤ slot
  · simp only [PageStore.readPage, hs, hslot, if_true]
  · cases io with
    | failed written => simp only [PageStore.readPage, hs, hslot, if_false]
    | done =>
      simp only [PageStore.readPage, hs, hslot, if_false, hp]
      cases s.pageAt slot with
      | none => rfl
      | some page => rfl

/-- What an offset reads depends on its translation and on the page of its slot. -/
theorem handleRead_congr {e e' : ProxyEngine} {v : UInt64}
    (ht : e'.translation.lookup v = e.translation.lookup v)
    (hs : e'.store.totalSlots = e.store.totalSlots)
    (hp : ∀ entry, e.translation.lookup v = some entry →
      e'.store.pageAt entry.backendSlot = e.store.pageAt entry.backendSlot) (io : IoOutcome) :
    (e'.handleRead io v).1 = (e.handleRead io v).1 := by
  unfold handleRead
  dsimp only
  rw [ht]
  cases hv : e.translation.lookup v with
  | none => rfl
  | some entry => exact readPage_congr hs (hp entry hv) io

/-- When another slot is written, a slot inside the file keeps its page, and so does any slot if the
file has not grown. -/
theorem pageAt_writePage_of_inside {s : PageStore} {slot other : Nat} (io : IoOutcome)
    (data : List UInt8) (hne : other ≠ slot)
    (hin : (other + 1) * pageSize ≤ s.file.size ∨
      (s.writePage io slot data).2.file.size = s.file.size) :
    (s.writePage io slot data).2.pageAt other = s.pageAt other := by
  cases hpage : s.pageAt other with
  | some page => exact PageStore.pageAt_writePage_of_ne io data hne hpage
  | none =>
    rw [Option.eq_none_iff_forall_ne_some]
    intro page hsome
    obtain ⟨hslot, hsize, -⟩ := PageStore.pageAt_eq_some.mp hsome
    rw [PageStore.totalSlots_writePage] at hslot
    have hinside : (other + 1) * pageSize ≤ s.file.size :=
      hin.elim id fun heq => heq ▸ hsize
    have hread : s.pageAt other = some ⟨(List.range' (other * pageSize) pageSize).map s.file.byte,
        by rw [List.length_map, List.length_range']⟩ :=
      PageStore.pageAt_eq_some.mpr ⟨hslot, hinside, rfl⟩
    rw [hpage] at hread
    cases hread

end ProxyEngine

/-- Engines whose books are right name no slot that can still be handed out. -/
theorem Backs.namesNoAllocatable {strict : Prop} {e : ProxyEngine} {m : Memory}
    (h : Backs strict e 0 m) : e.NamesNoAllocatable := by
  have hclaim : ∀ x ∈ e.claims + 0, x.cell ∉ e.slotAllocator.allocatable := by
    intro x hx hmem
    rw [SlotAllocator.allocatable, Multiset.mem_coe, List.mem_append, List.mem_range'_1] at hmem
    rcases hmem with hfree | ⟨hle, -⟩
    · exact h.owned.claim_not_free x hx hfree
    · exact absurd (h.owned.claim_lt x hx) (Nat.not_lt_of_le hle)
  refine ⟨fun v entry hv => ?_, fun fp entry hl => ?_⟩
  · have hcell := hclaim _ (ProxyEngine.claim_mem_of_lookup hv 0)
    rwa [TranslationEntry.cell_claim] at hcell
  · obtain ⟨hpos, hu⟩ :=
      h.owned.counted fp _ _ (DedupTable.shares_eq_some.mpr ⟨entry, hl, rfl, rfl⟩)
    have huser : RefPool.Claim.shared fp entry.backendOffset ∈
        RefPool.users (e.claims + 0) entry.backendOffset := by
      rw [hu]
      exact Multiset.mem_replicate.mpr ⟨by omega, rfl⟩
    exact hclaim _ (RefPool.mem_users.mp huser).1

/-- Their mapped slots lie inside the store file. -/
theorem Backs.insideFile {strict : Prop} {e : ProxyEngine} {m : Memory} (h : Backs strict e 0 m)
    (v : UInt64) : e.InsideFile v := by
  intro entry hv
  obtain ⟨page, -, hp⟩ := h.holds v entry hv
  exact (PageStore.pageAt_eq_some.mp hp).2.1

namespace ProxyEngine

/-- A failed write leaves the translations, the dedup entries and the allocatable slots as they
were. No offset whose slot lies inside the file reads differently, and none at all unless the file
has grown. -/
theorem handleWrite_error_frame (fingerprintPage : Page → Fingerprint) (e : ProxyEngine)
    (io : WriteIo) (v : UInt64) (data : List UInt8) (hnames : e.NamesNoAllocatable)
    (err : EngineError) (h : (e.handleWrite fingerprintPage io v data).1 = .error err) :
    let e' := (e.handleWrite fingerprintPage io v data).2
    e'.translation = e.translation ∧ e'.dedupTable.map = e.dedupTable.map ∧
      e'.slotAllocator.allocatable = e.slotAllocator.allocatable ∧
      ∀ w readIo, e.InsideFile w ∨ e'.store.file.size = e.store.file.size →
        (e'.handleRead readIo w).1 = (e.handleRead readIo w).1 := by
  rw [handleWrite_eq] at h ⊢
  rcases hp : e.place fingerprintPage io data with ⟨err' | entry, placed⟩
  swap
  · rw [hp] at h
    cases h
  rw [install]
  obtain ⟨e₁, hc, ⟨-, rfl⟩ | ⟨-, -, -, rfl⟩ | ⟨-, slot, ha, rfl⟩⟩ := place_eq_error hp
  · refine ⟨hc.translation_eq, hc.map_eq, by rw [hc.slotAllocator_eq], fun w readIo _ => ?_⟩
    exact handleRead_congr (by rw [hc.translation_eq]) hc.totalSlots_eq (fun _ _ => hc.pageAt_eq _) _
  · refine ⟨hc.translation_eq, hc.map_eq, by rw [hc.slotAllocator_eq], fun w readIo _ => ?_⟩
    exact handleRead_congr (by rw [hc.translation_eq]) hc.totalSlots_eq (fun _ _ => hc.pageAt_eq _) _
  · refine ⟨hc.translation_eq, hc.map_eq, ?_, fun w readIo hin => ?_⟩
    · dsimp only
      rw [hc.slotAllocator_eq]
      exact SlotAllocator.allocatable_free_allocate ha
    · refine handleRead_congr (by dsimp only; rw [hc.translation_eq]) ?_ (fun entry hw => ?_) _
      · dsimp only
        rw [PageStore.totalSlots_writePage, hc.totalSlots_eq]
      · have hne : entry.backendSlot ≠ slot := by
          rintro rfl
          exact hnames.translated w entry hw (SlotAllocator.mem_allocatable ha)
        obtain ⟨_, _, _, _, rfl⟩ := hc
        exact pageAt_writePage_of_inside io.write _ hne (hin.imp_left fun hw' => hw' entry hw)

/-- Where mapped slots lie inside the store file, as they do in every engine that a run reaches, a
failed write changes no read, translation, dedup entry or allocatable slot. -/
theorem handleWrite_error_atomic (fingerprintPage : Page → Fingerprint) (e : ProxyEngine)
    (io : WriteIo) (v : UInt64) (data : List UInt8) (hnames : e.NamesNoAllocatable)
    (hinside : ∀ w, e.InsideFile w) (err : EngineError)
    (h : (e.handleWrite fingerprintPage io v data).1 = .error err) :
    let e' := (e.handleWrite fingerprintPage io v data).2
    e'.translation = e.translation ∧ e'.dedupTable.map = e.dedupTable.map ∧
      e'.slotAllocator.allocatable = e.slotAllocator.allocatable ∧
      ∀ w readIo, (e'.handleRead readIo w).1 = (e.handleRead readIo w).1 := by
  obtain ⟨htranslation, hmap, hslots, hread⟩ :=
    handleWrite_error_frame fingerprintPage e io v data hnames err h
  exact ⟨htranslation, hmap, hslots, fun w readIo => hread w readIo (.inl (hinside w))⟩

/-- A partial write of another page lengthens the file, and offset 0 still reads its page. -/
theorem handleWrite_error_atomic_apply :
    let e := (Session.step firstBytes (.start (.blank 4 (by decide)) 1 1)
      (.write 0 .done [1])).engine
    let e' := (e.handleWrite firstBytes ⟨.done, .failed 5⟩ 0 [2]).2
    (e.store.file.size = 4096 ∧ e'.store.file.size = 4101) ∧
      (e'.handleRead .done 0).1 = .ok (normalizePage [1]) ∧
      e'.translation = e.translation ∧ e'.dedupTable.map = e.dedupTable.map ∧
      e'.slotAllocator.allocatable = e.slotAllocator.allocatable ∧
      ∀ w readIo, (e'.handleRead readIo w).1 = (e.handleRead readIo w).1 := by
  have hok : ((Session.start (.blank 4 (by decide)) 1 1).engine.handleWrite firstBytes .done 0 [1]).1 =
      .ok () := by
    decide +kernel
  have hmemory : (Session.step firstBytes (.start (.blank 4 (by decide)) 1 1)
      (.write 0 .done [1])).memory.read 0 = normalizePage [1] := by
    simp only [Session.step, hok, if_true]
    rfl
  have hsound : (Session.step firstBytes (.start (.blank 4 (by decide)) 1 1)
      (.write 0 .done [1])).Sound True :=
    Session.Sound.strict_step (Session.sound_start _ 1 1) (fun h => by cases h) rfl
  obtain ⟨htranslation, hmap, hslots, hread⟩ := handleWrite_error_atomic firstBytes
    (Session.step firstBytes (.start (.blank 4 (by decide)) 1 1) (.write 0 .done [1])).engine
    ⟨.done, .failed 5⟩ 0 [2] (Backs.namesNoAllocatable hsound) (Backs.insideFile hsound) .io
    (by decide +kernel)
  refine ⟨by decide +kernel, ?_, htranslation, hmap, hslots, hread⟩
  exact (hread 0 .done).trans (hmemory ▸ hsound.readsBack 0)

end ProxyEngine

end Animaksm.Proxy

import Mathlib.Algebra.BigOperators.Group.Finset.Basic
import Mathlib.Algebra.Order.Group.Multiset
import Animaksm.Proxy.Interleaving

/-!
# What the sections of all queues keep

Between its sections a thread holds claims: on the slot it allocated, on the
reference it counted, on the entry it displaced. The engine backs the memory
with the claims of all threads on the side, in every interleaving of sections in
which nothing is evicted and what a thread has checked still holds when it
relies on it.
-/

namespace Animaksm.Proxy

open RefPool

/-- The claims a write holds before a section. -/
@[simp] def WriteStage.held : WriteStage → Multiset (Claim Fingerprint)
  | .store _ slot | .giveBack slot | .containsKey _ slot | .makeRoom _ slot
  | .mapInsert _ slot => {.sole slot}
  | .index fp slot => {.shared fp slot}
  | .replace entry => {entry.claim}
  | .start | .lookup _ | .readBack _ _ | .addReference _ _ | .allocate _ => 0

/-- The slot in which a write has its page already. -/
def WriteStage.placedSlot : WriteStage → Option Nat
  | .containsKey _ slot | .makeRoom _ slot | .mapInsert _ slot | .index _ slot => some slot
  | .replace entry => some entry.backendSlot
  | .start | .lookup _ | .readBack _ _ | .addReference _ _ | .allocate _ | .store _ _
  | .giveBack _ => none

/-- A write holds the slot in which it has its page. -/
theorem WriteStage.exists_claim {stage : WriteStage} {slot : Nat}
    (h : stage.placedSlot = some slot) : ∃ x ∈ stage.held, x.cell = slot := by
  cases stage <;> cases h
  case containsKey | makeRoom | mapInsert => exact ⟨_, Multiset.mem_singleton_self _, rfl⟩
  case index => exact ⟨_, Multiset.mem_singleton_self _, rfl⟩
  case replace entry => exact ⟨_, Multiset.mem_singleton_self _, entry.cell_claim⟩

namespace Thread

/-- The claims a thread holds before a section. -/
@[simp] def held : Thread → Multiset (Claim Fingerprint)
  | .writing _ _ stage => stage.held
  | .releasing _ old => {old.claim}
  | .freeing _ slot => {.sole slot}
  | .idle | .discarding _ | .reading _ | .readingSlot _ _ | .answered _ _ => 0

/-- A thread owns the slot it fills. -/
theorem held_of_target {t : Thread} {slot : Nat} (h : t.target = some slot) :
    t.held = {.sole slot} := by
  unfold target at h
  split at h
  · cases h
    rfl
  · cases h

/-- The page of a write is in the slot the write has put it in. -/
def Placed (e : ProxyEngine) : Thread → Prop
  | .writing _ page stage => ∀ slot, stage.placedSlot = some slot →
      e.store.pageAt slot = some page
  | _ => True

variable {fingerprintPage : Page → Fingerprint} {e : ProxyEngine} {io : IoOutcome}
  {rest : Multiset (Claim Fingerprint)} {m : Memory}

/-- Only a slot write changes a page, that of its own slot. -/
theorem pageAt_advance {t : Thread} {slot : Nat} {page : Page}
    (h : e.store.pageAt slot = some page) (hne : t.target ≠ some slot) :
    (t.advance fingerprintPage e io).1.store.pageAt slot = some page := by
  cases t with
  | idle | answered | discarding | freeing => exact h
  | reading v =>
    simp only [advance]
    split <;> exact h
  | readingSlot v s => simpa only [advance, PageStore.pageAt_readPage] using h
  | releasing u old =>
    simp only [advance]
    split
    · exact h
    · split <;> exact h
  | writing v p stage =>
    cases stage with
    | start | lookup | giveBack | mapInsert | index | replace => exact h
    | readBack fp s => simpa only [advance, advanceWrite, PageStore.pageAt_readPage] using h
    | addReference fp s | containsKey fp s =>
      simp only [advance, advanceWrite]
      split <;> exact h
    | allocate fp =>
      simp only [advance, advanceWrite]
      rcases e.allocateSlot_cases with ⟨s, -, ha⟩ | ⟨-, ha⟩ <;> rw [ha] <;> exact h
    | makeRoom fp s =>
      simp only [advance, advanceWrite]
      split
      · split <;> exact h
      · exact h
    | store fp target =>
      have htarget : slot ≠ target := fun heq => hne (congrArg some heq.symm)
      have hw := PageStore.pageAt_writePage_of_ne io p.bytes htarget h
      simp only [advance, advanceWrite, ProxyEngine.writePageToSlot]
      rcases hs : e.store.writePage io target p.bytes with ⟨_ | _, store⟩ <;> rw [hs] at hw
      · exact hw
      · cases fp <;> exact hw

/-- A write that has put its page nowhere yet. -/
theorem placed_of_none {v : UInt64} {page : Page} {stage : WriteStage} (h : stage.placedSlot = none) :
    (writing v page stage).Placed e := fun _ hs => absurd (h.symm.trans hs) (Option.some_ne_none _).symm

/-- A write that goes on with its page in its slot. -/
theorem placed_of_some {v : UInt64} {page : Page} {stage : WriteStage} {slot : Nat}
    (h : stage.placedSlot = some slot) (hpage : e.store.pageAt slot = some page) :
    (writing v page stage).Placed e := fun _ hs => Option.some_inj.mp (h.symm.trans hs) ▸ hpage

/-- A section of a write keeps the engine behind the memory. -/
theorem advanceWrite_backs {v : UInt64} {page : Page} {stage : WriteStage}
    (h : Backs True e (stage.held + rest) m) (hp : (writing v page stage).Placed e)
    (hchecks : (writing v page stage).ChecksHold e)
    (hev : (advanceWrite fingerprintPage e io v page stage).1.dedupTable.evictions =
      e.dedupTable.evictions) :
    Backs True (advanceWrite fingerprintPage e io v page stage).1
        ((advanceWrite fingerprintPage e io v page stage).2.1.held + rest)
        ((writing v page stage).effect.elim m fun u => u.apply m) ∧
      (advanceWrite fingerprintPage e io v page stage).2.1.Placed
        (advanceWrite fingerprintPage e io v page stage).1 := by
  cases stage with
  | start =>
    have hb := h.recount e.recounts_countWrite
    simp only [advanceWrite]
    split <;> exact ⟨hb, placed_of_none rfl⟩
  | lookup fp =>
    have hb := h.recount (e.recounts_lookup fp page.bytes)
    simp only [advanceWrite]
    split <;> exact ⟨hb, placed_of_none rfl⟩
  | readBack fp slot =>
    have hb := h.recount (e.recounts_readPage io slot)
    simp only [advanceWrite]
    split
    · exact ⟨hb, trivial⟩
    · split <;> exact ⟨hb, placed_of_none rfl⟩
  | addReference fp slot =>
    simp only [advanceWrite]
    cases hl : e.dedupTable.map.lookup fp with
    | none =>
      have hnone : e.dedupTable.addReference fp = (false, e.dedupTable) := by
        rw [DedupTable.addReference, hl]
      rw [hnone]
      exact ⟨h, placed_of_none rfl⟩
    | some entry =>
      obtain ⟨rfl, hpage, hmax⟩ := hchecks entry hl
      have hb := (h.addReference hl hmax).recount (ProxyEngine.recounts_countDuplicate _)
      have hadded : (e.dedupTable.addReference fp).1 = true := by
        rw [DedupTable.addReference, hl]
      rw [hadded, if_pos rfl]
      refine ⟨?_, placed_of_some rfl hpage⟩
      simpa using hb
  | allocate fp =>
    simp only [advanceWrite]
    rcases ha : e.allocateSlot with ⟨err | slot, e'⟩
    · rcases e.allocateSlot_cases with ⟨_, -, hc⟩ | ⟨-, hc⟩ <;> rw [hc] at ha <;> cases ha
      exact ⟨h, trivial⟩
    · have hb := h.allocateSlot ha
      refine ⟨?_, placed_of_none rfl⟩
      simpa using hb
  | store fp slot =>
    have hb := Backs.writePageToSlot (by simpa using h) io page
    have hpage := @PageStore.pageAt_of_writePage e.store io slot page
    simp only [advanceWrite, ProxyEngine.writePageToSlot] at hb ⊢
    rcases hw : e.store.writePage io slot page.bytes with ⟨err | _, store⟩ <;>
      rw [hw] at hb hpage
    · exact ⟨hb, placed_of_none rfl⟩
    · cases fp with
      | none => exact ⟨hb.recount (ProxyEngine.recounts_countUnique _), placed_of_some rfl (hpage rfl)⟩
      | some fp => exact ⟨hb, placed_of_some rfl (hpage rfl)⟩
  | giveBack slot =>
    have hb := Backs.freeSlot (by simpa using h)
    exact ⟨by simpa [advanceWrite] using hb, trivial⟩
  | containsKey fp slot =>
    have hpage := hp slot rfl
    simp only [advanceWrite]
    split
    · exact ⟨h.recount e.recounts_countUnique, placed_of_some rfl hpage⟩
    · exact ⟨h, placed_of_some rfl hpage⟩
  | makeRoom fp slot =>
    have hpage := hp slot rfl
    simp only [advanceWrite] at hev ⊢
    split
    · next hfull =>
      rw [if_pos hfull] at hev
      rcases e.dedupTable.evictLruMetadata_cases with ⟨_, _, _, -, -, hc⟩ | ⟨lru, hc⟩ <;>
        rw [hc] at hev ⊢
      · -- an eviction would have been counted
        simp at hev
      · have hb := (h.withTable { e.dedupTable with lru := lru } rfl).recount
          (ProxyEngine.recounts_countUnique _)
        exact ⟨hb, placed_of_some rfl hpage⟩
    · exact ⟨h, placed_of_some rfl hpage⟩
  | mapInsert fp slot =>
    have hpage := hp slot rfl
    have hb := Backs.track (by simpa using h) hchecks
      (DedupTable.shares_of_insert e.dedupTable (e.dedupTable.mapInsert fp page.bytes slot) fp
        ⟨1, slot, pagePrefix page.bytes⟩ rfl)
    refine ⟨?_, placed_of_some rfl hpage⟩
    simpa [advanceWrite] using hb
  | index fp slot =>
    have hpage := hp slot rfl
    have hb := (h.withTable (e.dedupTable.index fp) rfl).recount
      (ProxyEngine.recounts_countUnique _)
    exact ⟨hb, placed_of_some rfl hpage⟩
  | replace entry =>
    have hpage := hp entry.backendSlot rfl
    have hheld : Backs True e (entry.claim ::ₘ rest) m := by simpa using h
    have hb := hheld.setTranslation (v := v) hpage
    simp only [advanceWrite, ProxyEngine.setTranslation] at hb ⊢
    cases hl : e.translation.lookup v with
    | none =>
      rw [hl] at hb
      exact ⟨by simpa using hb, trivial⟩
    | some old =>
      rw [hl] at hb
      exact ⟨by simpa using hb, trivial⟩

/-- A section of any thread keeps the engine behind the memory. -/
theorem advance_backs {t : Thread} (h : Backs True e (t.held + rest) m) (hp : t.Placed e)
    (hchecks : t.ChecksHold e)
    (hev : (t.advance fingerprintPage e io).1.dedupTable.evictions = e.dedupTable.evictions) :
    Backs True (t.advance fingerprintPage e io).1
        ((t.advance fingerprintPage e io).2.1.held + rest)
        (t.effect.elim m fun u => u.apply m) ∧
      (t.advance fingerprintPage e io).2.1.Placed (t.advance fingerprintPage e io).1 := by
  cases t with
  | idle | answered => exact ⟨h, trivial⟩
  | writing v page stage => exact advanceWrite_backs h hp hchecks hev
  | discarding v =>
    have hc : e.Recounts { e with stats := { e.stats with discards := e.stats.discards + 1 } } :=
      ⟨_, _, _, _, rfl⟩
    have hb := ((h.recount hc).removeTranslation v)
    simp only [advance, ProxyEngine.removeTranslation] at hb ⊢
    cases hl : e.translation.lookup v with
    | none =>
      rw [hl] at hb
      exact ⟨by simpa using hb, trivial⟩
    | some old =>
      rw [hl] at hb
      exact ⟨by simpa using hb, trivial⟩
  | reading v =>
    have hc : e.Recounts
        { e with stats := { e.stats with totalReads := e.stats.totalReads + 1 } } :=
      ⟨_, _, _, _, rfl⟩
    have hb := h.recount hc
    simp only [advance]
    split <;> exact ⟨hb, trivial⟩
  | readingSlot v slot => exact ⟨h.recount (e.recounts_readPage io slot), trivial⟩
  | releasing u old =>
    obtain ⟨kind, slot⟩ := old
    cases kind with
    | direct =>
      have hheld : Backs True e (.sole slot ::ₘ rest) m := by
        simpa [TranslationEntry.claim] using h
      exact ⟨by simpa [advance] using hheld.freeSlot, trivial⟩
    | deduplicated fp =>
      have hheld : Backs True e (.shared fp slot ::ₘ rest) m := by
        simpa [TranslationEntry.claim] using h
      have hb := hheld.removeReference fun hs => absurd trivial hs
      simp only [advance]
      rcases hr : e.dedupTable.removeReference fp with ⟨_ | freed | _, table⟩ <;> rw [hr] at hb
      · exact ⟨by simpa using hb, trivial⟩
      · obtain ⟨rfl, hb⟩ := hb
        exact ⟨by simpa using hb, trivial⟩
      · exact ⟨by simpa using hb, trivial⟩
  | freeing u slot =>
    have hb := Backs.freeSlot (by simpa using h)
    exact ⟨by simpa [advance] using hb, trivial⟩

end Thread

namespace Queues

variable {n : Nat}

/-! ## The claims of all threads -/

/-- The claims of all threads. -/
def held (threads : Fin n → Thread) : Multiset (Claim Fingerprint) := ∑ i, (threads i).held

/-- The claims of all threads but one. -/
def heldByOthers (threads : Fin n → Thread) (i : Fin n) : Multiset (Claim Fingerprint) :=
  ∑ j ∈ Finset.univ.erase i, (threads j).held

theorem held_eq (threads : Fin n → Thread) (i : Fin n) :
    held threads = (threads i).held + heldByOthers threads i :=
  (Finset.add_sum_erase Finset.univ (fun j => (threads j).held) (Finset.mem_univ i)).symm

/-- A thread that moves on changes its own claims only. -/
theorem held_update (threads : Fin n → Thread) (i : Fin n) (t : Thread) :
    held (Function.update threads i t) = t.held + heldByOthers threads i := by
  rw [held_eq _ i, Function.update_self]
  congr 1
  apply Finset.sum_congr rfl
  intro j hj
  rw [Function.update_of_ne (Finset.ne_of_mem_erase hj)]

theorem mem_heldByOthers {threads : Fin n → Thread} {i j : Fin n} (hij : j ≠ i)
    {x : Claim Fingerprint} (hx : x ∈ (threads j).held) : x ∈ heldByOthers threads i := by
  rw [heldByOthers, Multiset.mem_sum]
  exact ⟨j, Finset.mem_erase.mpr ⟨hij, Finset.mem_univ j⟩, hx⟩

/-! ## Steps and runs -/

/-- The engine backs the memory with the claims of all threads on the side, and the pages of
the writes in progress are where these have put them. -/
structure Sound (s : Queues n) : Prop where
  backs : Backs True s.engine (held s.threads) s.memory
  placed : ∀ i, (s.threads i).Placed s.engine

variable {fingerprintPage : Page → Fingerprint} {s : Queues n}

theorem sound_start (store : PageStore) (maxEntries bloomCapacity : Nat) :
    (start n store maxEntries bloomCapacity).Sound := by
  refine ⟨?_, fun _ => trivial⟩
  have hnone : held (fun _ : Fin n => Thread.idle) = 0 := Finset.sum_const_zero
  rw [start, hnone]
  exact Backs.ofStore store maxEntries bloomCapacity

/-- No other write has its page in the slot that a write is about to fill. -/
theorem Sound.target_ne (h : s.Sound) {i j : Fin n} (hij : j ≠ i) {w : UInt64} {page : Page}
    {slot : Nat} {stage : WriteStage} (hj : s.threads j = .writing w page stage)
    (hslot : stage.placedSlot = some slot) : (s.threads i).target ≠ some slot := by
  intro htarget
  obtain ⟨x, hx, hcell⟩ := stage.exists_claim hslot
  have hothers : x ∈ heldByOthers s.threads i := by
    apply mem_heldByOthers hij
    rw [hj]
    exact hx
  have hbooks := h.backs.owned
  rw [held_eq s.threads i, Thread.held_of_target htarget, Multiset.singleton_add] at hbooks
  unfold ProxyEngine.Owned at hbooks
  rw [Multiset.add_cons] at hbooks
  exact hbooks.cell_ne_of_sole (Multiset.mem_add.mpr (Or.inr hothers)) hcell

/-- One section of one thread. -/
theorem Sound.advance (h : s.Sound) {i : Fin n} {io : IoOutcome}
    (hchecks : (s.threads i).ChecksHold s.engine)
    (hev : s.EvictsNothing fingerprintPage (.advance i io)) :
    (s.step fingerprintPage (.advance i io)).Sound := by
  have hbacks := h.backs
  rw [held_eq s.threads i] at hbacks
  obtain ⟨hb, hp⟩ := Thread.advance_backs hbacks (h.placed i) hchecks hev
  refine ⟨?_, fun j => ?_⟩
  · simp only [step, held_update]
    exact hb
  · by_cases hj : j = i
    · subst hj
      simp only [step, Function.update_self]
      exact hp
    · simp only [step, Function.update_of_ne hj]
      have hplaced := h.placed j
      cases ht : s.threads j with
      | writing w page stage =>
        rw [ht] at hplaced
        intro slot hslot
        exact Thread.pageAt_advance (hplaced slot hslot) (h.target_ne hj ht hslot)
      | idle | discarding | reading | readingSlot | releasing | freeing | answered => trivial

/-- One step in which nothing is evicted and the checks of the thread hold. -/
theorem Sound.step (h : s.Sound) {l : Step n} (hchecks : s.ChecksHold l)
    (hev : s.EvictsNothing fingerprintPage l) : (s.step fingerprintPage l).Sound := by
  cases l with
  | advance i io => exact h.advance hchecks hev
  | setPassthrough on => exact ⟨h.backs.setPassthrough on, h.placed⟩
  | begin i request =>
    simp only [Queues.step]
    split
    · next hidle =>
      have hold : (s.threads i).held = 0 := by
        cases ht : s.threads i <;> rw [ht] at hidle <;> first | rfl | cases hidle
      have hbegin : (Thread.begin request).held = 0 := by
        cases request <;> rfl
      refine ⟨?_, fun j => ?_⟩
      · have hbacks := h.backs
        rw [held_eq s.threads i, hold, ← hbegin, ← held_update s.threads i] at hbacks
        exact hbacks
      · dsimp only
        by_cases hj : j = i
        · subst hj
          rw [Function.update_self]
          cases request with
          | write v data => exact fun _ hslot => by cases hslot
          | read | discard => trivial
        · rw [Function.update_of_ne hj]
          exact h.placed j
    · exact h

end Queues

end Animaksm.Proxy

import Animaksm.Proxy.Ownership
import Animaksm.Proxy.Placement

/-!
# The engine as a sparse page memory

What the engine is for is a memory of pages: written offsets hold their page,
all others read as zeros. An engine backs a memory when its books are right and
the slot of every mapped offset holds that offset's page. Every section of a
request keeps this, with the request's own claims on the side. In the strict
form every shared claim is tracked as well, which is what holds while no
metadata is evicted.
-/

namespace Animaksm.Proxy

open RefPool

/-- A sparse memory: the page of every offset that holds one. -/
abbrev Memory := UInt64 → Option Page

namespace Memory

/-- No offset holds a page. -/
def empty : Memory := fun _ => none

/-- Store a page at an offset. -/
def write (m : Memory) (v : UInt64) (page : Page) : Memory := Function.update m v (some page)

/-- Forget the page of an offset. -/
def discard (m : Memory) (v : UInt64) : Memory := Function.update m v none

/-- Read an offset; zeros where it holds no page. -/
def read (m : Memory) (v : UInt64) : Page := (m v).getD zeroPage

/-- The distinct pages that some offset holds. -/
def pages (m : Memory) : Set Page := {page | ∃ v, m v = some page}

theorem write_apply (m : Memory) (v : UInt64) (page : Page) (w : UInt64) :
    m.write v page w = if w = v then some page else m w := Function.update_apply ..

theorem discard_apply (m : Memory) (v w : UInt64) :
    m.discard v w = if w = v then none else m w := Function.update_apply ..

@[simp] theorem read_write_self (m : Memory) (v : UInt64) (page : Page) :
    (m.write v page).read v = page := by simp [read, write]

theorem read_write_of_ne (m : Memory) {v w : UInt64} (page : Page) (h : w ≠ v) :
    (m.write v page).read w = m.read w := by simp [read, write, h]

@[simp] theorem read_discard_self (m : Memory) (v : UInt64) :
    (m.discard v).read v = zeroPage := by simp [read, discard]

theorem read_discard_of_ne (m : Memory) {v w : UInt64} (h : w ≠ v) :
    (m.discard v).read w = m.read w := by simp [read, discard, h]

end Memory

/-- The engine holds this memory, with these claims in the hands of requests. -/
structure Backs (strict : Prop) (e : ProxyEngine) (held : Multiset (Claim Fingerprint))
    (m : Memory) : Prop where
  /-- Slots and references are accounted for. -/
  owned : e.Owned held
  /-- The slot of a mapped offset holds the page of that offset. -/
  holds : ∀ v entry, e.translation.lookup v = some entry →
    ∃ page, m v = some page ∧ e.store.pageAt entry.backendSlot = some page
  /-- Unmapped offsets hold no page. -/
  unmapped : ∀ v, e.translation.lookup v = none → m v = none
  /-- Strictly, every shared claim is one the dedup table counts. -/
  tracked : strict → ∀ fp slot, .shared fp slot ∈ e.claims + held →
    ∃ n, e.dedupTable.shares fp = some (n, slot)

namespace Backs

variable {strict : Prop} {e e' : ProxyEngine} {held : Multiset (Claim Fingerprint)} {m : Memory}

/-- A fresh engine backs the empty memory. -/
theorem ofStore (store : PageStore) (maxEntries bloomCapacity : Nat) :
    Backs strict (.ofStore store maxEntries bloomCapacity) 0 Memory.empty where
  owned := ProxyEngine.owned_ofStore store maxEntries bloomCapacity
  holds v entry hv := by
    rw [ProxyEngine.ofStore, Finmap.lookup_empty] at hv
    cases hv
  unmapped v _ := rfl
  tracked _ fp slot h := by
    simp [ProxyEngine.ofStore, ProxyEngine.claims] at h

/-- Counters do not matter. -/
theorem recount (h : Backs strict e held m) (hc : e.Recounts e') : Backs strict e' held m := by
  obtain ⟨_, _, _, _, rfl⟩ := hc
  exact ⟨h.owned, h.holds, h.unmapped, h.tracked⟩

/-- Neither does the passthrough switch. -/
theorem setPassthrough (h : Backs strict e held m) (on : Bool) :
    Backs strict (e.setPassthrough on) held m :=
  ⟨h.owned, h.holds, h.unmapped, h.tracked⟩

/-- Reads that complete return what the memory holds. -/
theorem handleRead (h : Backs strict e held m) (v : UInt64) :
    (e.handleRead .done v).1 = .ok (m.read v) := by
  unfold ProxyEngine.handleRead
  cases hv : e.translation.lookup v with
  | none => simp only [hv, Memory.read, h.unmapped v hv, Option.getD_none]
  | some entry =>
    obtain ⟨page, hm, hp⟩ := h.holds v entry hv
    simp only [hv, Memory.read, hm, Option.getD_some]
    exact PageStore.readPage_done hp

/-! ## Sections of a request -/

/-- Claims already counted stay so when the request holds one sole claim more or less. -/
private theorem tracked_sole {slot : Nat} (h : strict → ∀ fp s,
    .shared fp s ∈ e.claims + held → ∃ n, e.dedupTable.shares fp = some (n, s)) :
    strict → ∀ fp s, .shared fp s ∈ e.claims + (.sole slot ::ₘ held) →
      ∃ n, e.dedupTable.shares fp = some (n, s) := by
  intro hs fp s hmem
  rw [Multiset.add_cons, Multiset.mem_cons] at hmem
  exact h hs fp s (hmem.resolve_left (by simp))

private theorem tracked_of_cons {x : Claim Fingerprint} (h : strict → ∀ fp s,
    .shared fp s ∈ e.claims + (x ::ₘ held) → ∃ n, e.dedupTable.shares fp = some (n, s)) :
    strict → ∀ fp s, .shared fp s ∈ e.claims + held →
      ∃ n, e.dedupTable.shares fp = some (n, s) := by
  intro hs fp s hmem
  refine h hs fp s ?_
  rw [Multiset.add_cons]
  exact Multiset.mem_cons_of_mem hmem

theorem allocateSlot {slot : Nat} (h : Backs strict e held m)
    (he : e.allocateSlot = (.ok slot, e')) : Backs strict e' (.sole slot ::ₘ held) m := by
  have howned := h.owned.allocateSlot he
  rcases e.allocateSlot_cases with ⟨_, -, hc⟩ | ⟨-, hc⟩
  · rw [hc] at he
    cases he
    exact ⟨howned, h.holds, h.unmapped, tracked_sole h.tracked⟩
  · rw [hc] at he
    cases he

theorem freeSlot {slot : Nat} (h : Backs strict e (.sole slot ::ₘ held) m) :
    Backs strict (e.freeSlot slot) held m :=
  ⟨h.owned.freeSlot, h.holds, h.unmapped, tracked_of_cons h.tracked⟩

/-- A slot write, completed or not, reaches only the page of the slot itself, and no
translation uses a slot the request owns alone. -/
theorem writePageToSlot {slot : Nat} (h : Backs strict e (.sole slot ::ₘ held) m) (io : IoOutcome)
    (page : Page) : Backs strict (e.writePageToSlot io slot page).2 (.sole slot ::ₘ held) m := by
  refine ⟨h.owned, fun v entry hv => ?_, h.unmapped, h.tracked⟩
  obtain ⟨p, hm, hp⟩ := h.holds v entry hv
  exact ⟨p, hm, PageStore.pageAt_writePage_of_ne io page.bytes (h.owned.backendSlot_ne hv) hp⟩

/-- A table that shares the same slots will do. -/
theorem withTable (h : Backs strict e held m) (table : DedupTable)
    (ht : table.map = e.dedupTable.map) : Backs strict { e with dedupTable := table } held m := by
  have hshares : table.shares = e.dedupTable.shares := by
    unfold DedupTable.shares
    rw [ht]
  refine ⟨?_, h.holds, h.unmapped, fun hs fp slot hmem => ?_⟩
  · have howned := h.owned
    unfold ProxyEngine.Owned ProxyEngine.pool at howned ⊢
    rw [hshares]
    exact howned
  · rw [hshares]
    exact h.tracked hs fp slot hmem

/-- A page is entered under a fingerprint that is not tracked. -/
theorem track {slot : Nat} {fp : Fingerprint} {table : DedupTable}
    (h : Backs strict e (.sole slot ::ₘ held) m) (hnone : e.dedupTable.map.lookup fp = none)
    (htable : table.shares = Function.update e.dedupTable.shares fp (some (1, slot))) :
    Backs strict { e with dedupTable := table } (.shared fp slot ::ₘ held) m := by
  refine ⟨h.owned.track hnone htable, h.holds, h.unmapped, fun hs g s hmem => ?_⟩
  rw [htable]
  rw [Multiset.add_cons, Multiset.mem_cons] at hmem
  rcases hmem with hnew | hmem
  · cases hnew
    exact ⟨1, Function.update_self ..⟩
  · obtain ⟨n, hn⟩ := tracked_of_cons h.tracked hs g s hmem
    have hne : g ≠ fp := by
      rintro rfl
      rw [DedupTable.shares_eq_none.mpr hnone] at hn
      cases hn
    exact ⟨n, by rw [Function.update_of_ne hne, hn]⟩

/-- A page offered to the dedup table; strictly, nothing is evicted to make room. -/
theorem insert {slot : Nat} (h : Backs strict e (.sole slot ::ₘ held) m) (fp : Fingerprint)
    (data : List UInt8) (hev : strict →
      (e.dedupTable.insert fp data slot).2.evictions = e.dedupTable.evictions) :
    Backs strict { e with dedupTable := (e.dedupTable.insert fp data slot).2 }
      ((if (e.dedupTable.insert fp data slot).1 then .shared fp slot else .sole slot) ::ₘ held)
      m := by
  cases hb : (e.dedupTable.insert fp data slot).1 with
  | false =>
    obtain ⟨lru, ht⟩ := DedupTable.insert_false hb
    rw [ht]
    exact h.withTable _ rfl
  | true =>
    have howned := h.owned.insert fp data
    rw [hb] at howned
    obtain ⟨hnone, ⟨-, ht⟩ | ⟨old, entry, lru, -, -, -, ht⟩⟩ := DedupTable.insert_true hb
    · rw [ht]
      exact h.track hnone (e.dedupTable.shares_track fp data slot)
    · -- an eviction would have been counted
      refine ⟨howned, h.holds, h.unmapped, fun hs => ?_⟩
      have hcount := hev hs
      rw [ht] at hcount
      simp [DedupTable.track] at hcount

/-- A reference to a tracked page is counted. -/
theorem addReference {fp : Fingerprint} {entry : DedupEntry} (h : Backs strict e held m)
    (he : e.dedupTable.map.lookup fp = some entry) (hmax : entry.refCount.toNat + 1 < 2 ^ 32) :
    Backs strict { e with dedupTable := (e.dedupTable.addReference fp).2 }
      (.shared fp entry.backendOffset ::ₘ held) m := by
  refine ⟨h.owned.addReference he hmax, h.holds, h.unmapped, fun hs g s hmem => ?_⟩
  rw [DedupTable.shares_addReference he]
  simp only [Multiset.add_cons, Multiset.mem_cons] at hmem
  rcases hmem with hnew | hmem
  · cases hnew
    exact ⟨_, Function.update_self ..⟩
  · obtain ⟨n, hn⟩ := h.tracked hs g s hmem
    by_cases hg : g = fp
    · subst hg
      obtain ⟨entry', he', -, hslot⟩ := DedupTable.shares_eq_some.mp hn
      obtain rfl : entry = entry' := Option.some.inj (he.symm.trans he')
      exact ⟨_, by rw [Function.update_self, ← hslot]⟩
    · exact ⟨n, by rw [Function.update_of_ne hg, hn]⟩

/-- Strictly, the fingerprint of a held claim is tracked at the slot of the claim. -/
theorem backendOffset_eq {fp : Fingerprint} {slot : Nat} {tracked : DedupEntry}
    (h : Backs strict e (.shared fp slot ::ₘ held) m) (hs : strict)
    (hl : e.dedupTable.map.lookup fp = some tracked) : tracked.backendOffset = slot := by
  obtain ⟨n, hn⟩ := h.tracked hs fp slot (by
    rw [Multiset.add_cons]
    exact Multiset.mem_cons_self _ _)
  obtain ⟨tracked', hl', -, hslot⟩ := DedupTable.shares_eq_some.mp hn
  obtain rfl : tracked = tracked' := Option.some.inj (hl.symm.trans hl')
  exact hslot

/-- A reference is given up. Strictly, its fingerprint cannot be tracked at another slot;
otherwise this has to be known. -/
theorem removeReference {fp : Fingerprint} {slot : Nat}
    (h : Backs strict e (.shared fp slot ::ₘ held) m) (hhere : ¬ strict → ∀ tracked,
      e.dedupTable.map.lookup fp = some tracked → tracked.backendOffset = slot) :
    match e.dedupTable.removeReference fp with
    | (.stillReferenced, table) => Backs strict { e with dedupTable := table } held m
    | (.removed freed, table) =>
      freed = slot ∧ Backs strict { e with dedupTable := table } (.sole slot ::ₘ held) m
    | (.notTracked, table) =>
      Backs strict { e with dedupTable := table } (.sole slot ::ₘ held) m := by
  have hhere' : ∀ tracked, e.dedupTable.map.lookup fp = some tracked →
      tracked.backendOffset = slot := by
    intro tracked hl
    by_cases hs : strict
    · exact h.backendOffset_eq hs hl
    · exact hhere hs tracked hl
  have howned := h.owned.removeReference hhere'
  have hold := tracked_of_cons h.tracked
  unfold DedupTable.removeReference at howned ⊢
  cases hl : e.dedupTable.map.lookup fp with
  | none =>
    rw [hl] at howned
    exact ⟨howned, h.holds, h.unmapped, tracked_sole hold⟩
  | some tracked =>
    obtain rfl := hhere' tracked hl
    have hfp : e.dedupTable.shares fp = some (tracked.refCount.toNat, tracked.backendOffset) :=
      DedupTable.shares_eq_some.mpr ⟨tracked, hl, rfl, rfl⟩
    simp only [hl] at howned ⊢
    by_cases hlast : tracked.refCount ≤ 1
    · simp only [hlast, if_true] at howned ⊢
      refine ⟨trivial, howned.2, h.holds, h.unmapped, tracked_sole fun hs g s hmem => ?_⟩
      obtain ⟨n, hn⟩ := hold hs g s hmem
      have hne : g ≠ fp := by
        rintro rfl
        -- the reference was the only user of the slot
        have hbooks := h.owned
        unfold ProxyEngine.Owned at hbooks
        rw [Multiset.add_cons] at hbooks
        have hsole := Accounts.leave_last hbooks hfp (UInt32.le_iff_toNat_le.mp hlast)
        have hcell := hsole.cell_ne_of_sole hmem
        rw [hfp] at hn
        cases hn
        exact hcell rfl
      exact ⟨n, by rw [DedupTable.shares_of_erase e.dedupTable _ fp rfl,
        Function.update_of_ne hne, hn]⟩
    · simp only [hlast, if_false] at howned ⊢
      refine ⟨howned, h.holds, h.unmapped, fun hs g s hmem => ?_⟩
      obtain ⟨n, hn⟩ := hold hs g s hmem
      rw [DedupTable.shares_of_insert e.dedupTable _ fp
        { tracked with refCount := tracked.refCount - 1 } rfl]
      by_cases hg : g = fp
      · subst hg
        rw [hfp] at hn
        cases hn
        exact ⟨_, Function.update_self ..⟩
      · exact ⟨n, by rw [Function.update_of_ne hg, hn]⟩

/-- The entry displaced from the table is released: its slot is given back, or its reference
is, and the slot after the last one. -/
theorem releaseMapping {entry : TranslationEntry} (h : Backs strict e (entry.claim ::ₘ held) m)
    (hhere : ¬ strict → ¬ e.dedupTable.TracksElsewhere entry) :
    Backs strict (e.releaseMapping entry) held m := by
  obtain ⟨kind, slot⟩ := entry
  unfold ProxyEngine.releaseMapping
  cases kind with
  | direct => exact h.freeSlot
  | deduplicated fp =>
    have hremoved := h.removeReference fun hs tracked hl => by
      by_contra hne
      exact hhere hs ⟨fp, tracked, rfl, hl, hne⟩
    dsimp only
    rcases hr : e.dedupTable.removeReference fp with ⟨_ | freed | _, table⟩ <;>
      rw [hr] at hremoved
    · exact hremoved
    · obtain ⟨rfl, hb⟩ := hremoved
      exact hb.freeSlot
    · exact hremoved.freeSlot

/-- Releasing what an update displaced, if it displaced anything. -/
theorem releaseOld {old : Option TranslationEntry}
    (h : Backs strict e (old.elim held fun entry => entry.claim ::ₘ held) m)
    (hhere : ¬ strict → ∀ entry, old = some entry → ¬ e.dedupTable.TracksElsewhere entry) :
    Backs strict (e.releaseOld old) held m := by
  cases old with
  | none => exact h
  | some entry => exact h.releaseMapping fun hs => hhere hs entry rfl

/-- Mapping an offset to a slot that holds a page stores that page in the memory. -/
theorem setTranslation {entry : TranslationEntry} {v : UInt64} {page : Page}
    (h : Backs strict e (entry.claim ::ₘ held) m)
    (hp : e.store.pageAt entry.backendSlot = some page) :
    Backs strict (e.setTranslation v entry).2
      ((e.translation.lookup v).elim held fun old => old.claim ::ₘ held) (m.write v page) := by
  refine ⟨h.owned.setTranslation v, fun w x hw => ?_, fun w hw => ?_, fun hs fp slot hmem => ?_⟩
  · simp only [ProxyEngine.setTranslation, Finmap.lookup_insert_eq] at hw
    by_cases hwv : w = v
    · subst hwv
      rw [if_pos rfl] at hw
      cases hw
      exact ⟨page, by simp [Memory.write], hp⟩
    · rw [if_neg hwv] at hw
      obtain ⟨p, hm, hx⟩ := h.holds w x hw
      exact ⟨p, by simp [Memory.write, hwv, hm], hx⟩
  · simp only [ProxyEngine.setTranslation, Finmap.lookup_insert_eq] at hw
    by_cases hwv : w = v
    · simp [hwv] at hw
    · rw [if_neg hwv] at hw
      simp [Memory.write, hwv, h.unmapped w hw]
  · rw [ProxyEngine.claims_setTranslation] at hmem
    exact h.tracked hs fp slot hmem

/-- Unmapping an offset forgets its page. -/
theorem removeTranslation (h : Backs strict e held m) (v : UInt64) :
    Backs strict (e.removeTranslation v).2
      ((e.translation.lookup v).elim held fun old => old.claim ::ₘ held) (m.discard v) := by
  refine ⟨h.owned.removeTranslation v, fun w x hw => ?_, fun w hw => ?_, fun hs fp slot hmem => ?_⟩
  · simp only [ProxyEngine.removeTranslation, Finmap.lookup_erase_eq] at hw
    by_cases hwv : w = v
    · simp [hwv] at hw
    · rw [if_neg hwv] at hw
      obtain ⟨p, hm, hx⟩ := h.holds w x hw
      exact ⟨p, by simp [Memory.discard, hwv, hm], hx⟩
  · simp only [ProxyEngine.removeTranslation, Finmap.lookup_erase_eq] at hw
    by_cases hwv : w = v
    · simp [Memory.discard, hwv]
    · rw [if_neg hwv] at hw
      simp [Memory.discard, hwv, h.unmapped w hw]
  · rw [ProxyEngine.claims_removeTranslation] at hmem
    exact h.tracked hs fp slot hmem

/-- A whole replacement: map the offset, then release the displaced entry. -/
theorem replaceMapping {entry : TranslationEntry} {v : UInt64} {page : Page}
    (h : Backs strict e (entry.claim ::ₘ held) m)
    (hp : e.store.pageAt entry.backendSlot = some page)
    (hhere : ¬ strict → ∀ old, e.translation.lookup v = some old →
      ¬ e.dedupTable.TracksElsewhere old) :
    Backs strict (e.replaceMapping v entry) held (m.write v page) :=
  (h.setTranslation hp).releaseOld hhere

/-! ## Placements -/

theorem storeInNewSlot_ok {io : IoOutcome} {page : Page} {slot : Nat} (h : Backs strict e held m)
    (hr : e.storeInNewSlot io page = (.ok slot, e')) :
    Backs strict e' (.sole slot ::ₘ held) m ∧ e'.store.pageAt slot = some page := by
  have hcases := e.storeInNewSlot_cases io page
  unfold ProxyEngine.storeInNewSlot at hr hcases
  rcases ha : e.allocateSlot with ⟨err | slot', e₁⟩ <;> rw [ha] at hr hcases
  · cases hr
  have hwrite := (h.allocateSlot ha).writePageToSlot io page
  rcases hw : e₁.writePageToSlot io slot' page with ⟨err | _, e₂⟩
  · simp only [hw] at hr
    cases hr
  · simp only [hw] at hr hcases hwrite
    cases hr
    refine ⟨hwrite, ?_⟩
    rcases hcases with ⟨-, hc⟩ | ⟨s, -, ⟨_, -, hc⟩ | ⟨hpage, hc⟩⟩
    · cases hc
    · cases hc
    · cases hc
      exact hpage

theorem storeInNewSlot_error {io : IoOutcome} {page : Page} {err : EngineError}
    (h : Backs strict e held m) (hr : e.storeInNewSlot io page = (.error err, e')) :
    Backs strict e' held m := by
  unfold ProxyEngine.storeInNewSlot at hr
  rcases e.allocateSlot_cases with ⟨slot, ha, he⟩ | ⟨ha, he⟩
  · have hwrite := (h.allocateSlot he).writePageToSlot io page
    rw [he] at hr
    rcases hw : ProxyEngine.writePageToSlot _ io slot page with ⟨err | _, e₂⟩ <;>
      rw [hw] at hwrite <;> simp only [hw] at hr <;> cases hr
    exact hwrite.freeSlot
  · rw [he] at hr
    cases hr
    exact h

theorem placeDirect_ok {io : WriteIo} {page : Page} {entry : TranslationEntry}
    (h : Backs strict e held m) (hr : e.placeDirect io page = (.ok entry, e')) :
    Backs strict e' (entry.claim ::ₘ held) m ∧ e'.store.pageAt entry.backendSlot = some page := by
  unfold ProxyEngine.placeDirect at hr
  rcases hs : e.storeInNewSlot io.write page with ⟨_ | slot, e₁⟩ <;> rw [hs] at hr <;> cases hr
  obtain ⟨hb, hp⟩ := h.storeInNewSlot_ok hs
  exact ⟨hb.recount e₁.recounts_countUnique, hp⟩

theorem placeUnique_ok {io : WriteIo} {fp : Fingerprint} {page : Page} {entry : TranslationEntry}
    (h : Backs strict e held m) (hr : e.placeUnique io fp page = (.ok entry, e'))
    (hev : strict → e'.dedupTable.evictions = e.dedupTable.evictions) :
    Backs strict e' (entry.claim ::ₘ held) m ∧ e'.store.pageAt entry.backendSlot = some page := by
  have htable := e.dedupTable_storeInNewSlot io.write page
  unfold ProxyEngine.placeUnique at hr
  rcases hs : e.storeInNewSlot io.write page with ⟨_ | slot, e₁⟩ <;> rw [hs] at hr
  · cases hr
  rw [hs] at htable
  simp only [Prod.mk.injEq, Except.ok.injEq] at hr
  obtain ⟨rfl, rfl⟩ := hr
  obtain ⟨hb, hp⟩ := h.storeInNewSlot_ok hs
  have hins := (hb.insert fp page.bytes fun h => (hev h).trans (by rw [← htable])).recount
    (ProxyEngine.recounts_countUnique _)
  by_cases hi : (e₁.dedupTable.insert fp page.bytes slot).1 = true
  · simp only [hi, if_true] at hins ⊢
    exact ⟨hins, hp⟩
  · simp only [hi, Bool.false_eq_true, if_false] at hins ⊢
    exact ⟨hins, hp⟩

theorem placeDirect_error {io : WriteIo} {page : Page} {err : EngineError}
    (h : Backs strict e held m) (hr : e.placeDirect io page = (.error err, e')) :
    Backs strict e' held m := by
  unfold ProxyEngine.placeDirect at hr
  rcases hs : e.storeInNewSlot io.write page with ⟨_ | slot, e₁⟩ <;> rw [hs] at hr <;> cases hr
  exact h.storeInNewSlot_error hs

theorem placeUnique_error {io : WriteIo} {fp : Fingerprint} {page : Page} {err : EngineError}
    (h : Backs strict e held m) (hr : e.placeUnique io fp page = (.error err, e')) :
    Backs strict e' held m := by
  unfold ProxyEngine.placeUnique at hr
  rcases hs : e.storeInNewSlot io.write page with ⟨_ | slot, e₁⟩ <;> rw [hs] at hr <;> cases hr
  exact h.storeInNewSlot_error hs

variable {fingerprintPage : Page → Fingerprint} {io : WriteIo} {data : List UInt8}

/-- A placement hands the request a claim on a slot that holds the page. -/
theorem place_ok {entry : TranslationEntry} (h : Backs strict e held m)
    (hr : e.place fingerprintPage io data = (.ok entry, e'))
    (hfits : e.passthrough = false →
      e.RefCountFits (fingerprintPage (normalizePage data)) (normalizePage data))
    (hev : strict → e'.dedupTable.evictions = e.dedupTable.evictions) :
    Backs strict e' (entry.claim ::ₘ held) m ∧
      e'.store.pageAt entry.backendSlot = some (normalizePage data) := by
  obtain ⟨e₁, hc, ⟨-, hp⟩ | ⟨hpass, ⟨_, err, -, -, hp⟩ | ⟨tracked, hl, hdup, hpage, hp⟩ | ⟨-, hp⟩⟩⟩ :=
    e.place_cases fingerprintPage io data <;> rw [hp] at hr
  · exact (h.recount hc).placeDirect_ok hr
  · cases hr
  · cases hr
    have hl₁ : e₁.dedupTable.map.lookup (fingerprintPage (normalizePage data)) = some tracked := by
      rw [hc.map_eq, hl]
    refine ⟨(h.recount hc).addReference hl₁ (hfits hpass hdup tracked hl), ?_⟩
    obtain ⟨_, _, _, _, rfl⟩ := hc
    exact hpage
  · exact (h.recount hc).placeUnique_ok hr fun hs => (hev hs).trans hc.evictions_eq.symm

/-- A failed placement leaves nothing behind. -/
theorem place_error {err : EngineError} (h : Backs strict e held m)
    (hr : e.place fingerprintPage io data = (.error err, e')) : Backs strict e' held m := by
  obtain ⟨e₁, hc, ⟨-, hp⟩ | ⟨-, ⟨_, err, -, -, hp⟩ | ⟨tracked, -, -, -, hp⟩ | ⟨-, hp⟩⟩⟩ :=
    e.place_cases fingerprintPage io data <;> rw [hp] at hr
  · exact (h.recount hc).placeDirect_error hr
  · cases hr
    exact h.recount hc
  · cases hr
  · exact (h.recount hc).placeUnique_error hr

/-! ## Whole requests -/

/-- A write stores its page when it succeeds, and is otherwise without effect. What it
releases must not be tracked elsewhere, unless this is strictly impossible. -/
theorem handleWrite (h : Backs strict e 0 m) (v : UInt64)
    (hfits : e.passthrough = false →
      e.RefCountFits (fingerprintPage (normalizePage data)) (normalizePage data))
    (hev : strict → (e.handleWrite fingerprintPage io v data).2.dedupTable.evictions =
      e.dedupTable.evictions)
    (hhere : ¬ strict → ∀ entry placed, e.place fingerprintPage io data = (.ok entry, placed) →
      ∀ old, e.translation.lookup v = some old → ¬ placed.dedupTable.TracksElsewhere old) :
    Backs strict (e.handleWrite fingerprintPage io v data).2 0
      (if (e.handleWrite fingerprintPage io v data).1 = .ok () then
        m.write v (normalizePage data) else m) := by
  have htrans := e.translation_place fingerprintPage io data
  rw [ProxyEngine.handleWrite_eq] at hev ⊢
  rcases hp : e.place fingerprintPage io data with ⟨err | entry, placed⟩
  · rw [ProxyEngine.install, if_neg (by simp)]
    exact h.place_error hp
  · rw [hp] at hev htrans
    rw [ProxyEngine.install, if_pos rfl]
    rw [ProxyEngine.install, ProxyEngine.evictions_replaceMapping] at hev
    obtain ⟨hplaced, hpage⟩ := h.place_ok hp hfits hev
    exact hplaced.replaceMapping hpage fun hs old hold =>
      hhere hs entry placed hp old (htrans ▸ hold)

/-- A discard forgets the page of its offset. -/
theorem handleDiscard (h : Backs strict e 0 m) (v : UInt64)
    (hhere : ¬ strict → ∀ old, e.translation.lookup v = some old →
      ¬ e.dedupTable.TracksElsewhere old) :
    Backs strict (e.handleDiscard v) 0 (m.discard v) := by
  have hc : e.Recounts { e with stats := { e.stats with discards := e.stats.discards + 1 } } :=
    ⟨_, _, _, _, rfl⟩
  exact ((h.recount hc).removeTranslation v).releaseOld hhere

end Backs

end Animaksm.Proxy

import Animaksm.Proxy.Sections

/-!
# What a concurrent read returns

A read copies the translation of its offset in one section and reads the slot in
the next. The page it returns is one that the offset held while the read was in
progress, in every interleaving in which no page is written to the copied slot
between the two sections. Nothing in the engine prevents such a write: the slot
may be released and handed to another offset.
-/

namespace Animaksm.Proxy

namespace Thread

/-- The page that a read has returned. -/
def answer : Thread → Option Page
  | .answered _ (.ok page) => some page
  | _ => none

/-- The thread reads this offset, and the page it is about to return or has returned is one
of these. -/
def ReadsAmong (H : Page → Prop) (v : UInt64) (e : ProxyEngine) : Thread → Prop
  | .reading w => w = v
  | .readingSlot _ slot => ∃ page, H page ∧ e.store.pageAt slot = some page
  | .answered _ result => ∀ page, result = .ok page → H page
  | .idle | .writing _ _ _ | .discarding _ | .releasing _ _ | .freeing _ _ => False

variable {H K : Page → Prop} {v : UInt64} {e e' : ProxyEngine} {m : Memory}
  {held : Multiset (RefPool.Claim Fingerprint)} {t : Thread}

theorem ReadsAmong.mono (hHK : ∀ page, H page → K page) (h : t.ReadsAmong H v e) :
    t.ReadsAmong K v e := by
  cases t with
  | readingSlot w slot =>
    obtain ⟨page, hpage, hslot⟩ := h
    exact ⟨page, hHK page hpage, hslot⟩
  | answered w result => exact fun page hresult => hHK page (h page hresult)
  | reading | idle | writing | discarding | releasing | freeing => exact h

/-- Another engine will do that has the same page in the copied slot. -/
theorem ReadsAmong.of_pageAt (h : t.ReadsAmong H v e) (hslot : ∀ slot page,
    t.copied = some slot → e.store.pageAt slot = some page → e'.store.pageAt slot = some page) :
    t.ReadsAmong H v e' := by
  cases t with
  | readingSlot w slot =>
    obtain ⟨page, hpage, hat⟩ := h
    exact ⟨page, hpage, hslot slot page rfl hat⟩
  | answered | reading | idle | writing | discarding | releasing | freeing => exact h

/-- The sections of the read itself: the copied slot holds the page of the offset, and the
page of the copied slot is returned. -/
theorem ReadsAmong.advance (h : t.ReadsAmong H v e) (hb : Backs True e held m) (hH : H (m.read v))
    (fingerprintPage : Page → Fingerprint) (io : IoOutcome) :
    (t.advance fingerprintPage e io).2.1.ReadsAmong H v (t.advance fingerprintPage e io).1 := by
  cases t with
  | idle | writing | discarding | releasing | freeing => exact absurd h id
  | answered w result => exact h
  | reading w =>
    obtain rfl : w = v := h
    simp only [Thread.advance]
    cases hl : e.translation.lookup w with
    | none =>
      rw [Memory.read, hb.unmapped w hl, Option.getD_none] at hH
      intro page hpage
      cases hpage
      exact hH
    | some entry =>
      obtain ⟨page, hm, hpage⟩ := hb.holds w entry hl
      rw [Memory.read, hm, Option.getD_some] at hH
      exact ⟨page, hH, hpage⟩
  | readingSlot w slot =>
    obtain ⟨page, hpage, hat⟩ := h
    intro page' hread
    obtain rfl : page = page' :=
      Option.some.inj (hat.symm.trans (PageStore.pageAt_of_readPage hread))
    exact hpage

end Thread

namespace Queues

variable {n : Nat} {fingerprintPage : Page → Fingerprint} {s : Queues n} {i : Fin n} {v : UInt64}
  {H : Page → Prop}

/-- The offset held this page at some moment of these steps. -/
def HeldDuring (fingerprintPage : Page → Fingerprint) (s : Queues n) (v : UInt64)
    (steps : List (Step n)) (page : Page) : Prop :=
  ∃ k ≤ steps.length, (Run.run (step fingerprintPage) s (steps.take k)).memory.read v = page

/-- One step, with the pages that the offset has held so far. -/
theorem readsAmong_step (fingerprintPage : Page → Fingerprint)
    (h : (s.threads i).ReadsAmong H v s.engine) (hs : s.Sound) (hH : H (s.memory.read v))
    {l : Step n} (hl : s.SparesReads l)
    (hbegin : ∀ request, l ≠ .begin i request) :
    ((s.step fingerprintPage l).threads i).ReadsAmong H v (s.step fingerprintPage l).engine := by
  cases l with
  | setPassthrough on => exact h.of_pageAt fun _ _ _ hat => hat
  | begin j request =>
    have hij : i ≠ j := fun heq => hbegin request (heq ▸ rfl)
    simp only [step]
    split
    · simpa only [Function.update_of_ne hij] using h
    · exact h
  | advance j io =>
    by_cases hij : i = j
    · subst hij
      simp only [step, Function.update_self]
      exact h.advance hs.backs hH fingerprintPage io
    · simp only [step, Function.update_of_ne hij]
      exact h.of_pageAt fun slot page hcopied hat =>
        Thread.pageAt_advance hat fun htarget => hl slot htarget i hcopied

/-- The read keeps to the pages that its offset holds on the way. -/
theorem readsAmong_run {steps : List (Step n)} (h : (s.threads i).ReadsAmong H v s.engine)
    (hs : s.Sound) (hH : H (s.memory.read v)) (hbegin : ∀ request, .begin i request ∉ steps)
    (halong : Run.Along (step fingerprintPage) (fun s l =>
      s.EvictsNothing fingerprintPage l ∧ s.ChecksHold l ∧ s.SparesReads l) s steps) :
    ((Run.run (step fingerprintPage) s steps).threads i).ReadsAmong
      (fun page => H page ∨ HeldDuring fingerprintPage s v steps page) v
      (Run.run (step fingerprintPage) s steps).engine := by
  induction steps generalizing s H with
  | nil => exact h.mono fun _ => Or.inl
  | cons l steps ih =>
    obtain ⟨⟨hev, hchecks, hspares⟩, hrest⟩ := halong
    have hnext := readsAmong_step fingerprintPage h hs hH hspares fun request heq =>
      hbegin request (heq ▸ List.mem_cons_self)
    -- the page the offset holds after the step joins those it has held
    have hrun := ih (H := fun page => H page ∨ (s.step fingerprintPage l).memory.read v = page)
      (hnext.mono fun page hpage => Or.inl hpage) (hs.step hchecks hev) (Or.inr rfl)
      (fun request hmem => hbegin request (List.mem_cons_of_mem l hmem)) hrest
    refine hrun.mono fun page hpage => ?_
    rcases hpage with (hold | hnow) | ⟨k, hk, hlater⟩
    · exact Or.inl hold
    · exact Or.inr ⟨1, Nat.succ_le_succ (Nat.zero_le _), hnow⟩
    · exact Or.inr ⟨k + 1, Nat.succ_le_succ hk, hlater⟩

/-- A read that returns a page returns one that its offset held between the start and the end
of the read: in every interleaving in which nothing is evicted, the checks of each thread hold
when it relies on them, and no page is written to a slot a read in progress has copied. -/
theorem readReturnsHeld (fingerprintPage : Page → Fingerprint) (n : Nat) (store : PageStore)
    (maxEntries bloomCapacity : Nat) (before during : List (Step n)) (i : Fin n) (v : UInt64)
    (page : Page)
    (h : Run.Along (step fingerprintPage)
      (fun s l => s.EvictsNothing fingerprintPage l ∧ s.ChecksHold l ∧ s.SparesReads l)
      (start n store maxEntries bloomCapacity) (before ++ .begin i (.read v) :: during))
    (hidle : ((Run.run (step fingerprintPage) (start n store maxEntries bloomCapacity)
      before).threads i).offset = none)
    (hbegin : ∀ request, .begin i request ∉ during)
    (hanswer : ((Run.run (step fingerprintPage) (start n store maxEntries bloomCapacity)
      (before ++ .begin i (.read v) :: during)).threads i).answer = some page) :
    HeldDuring fingerprintPage (Run.run (step fingerprintPage)
      (start n store maxEntries bloomCapacity) (before ++ [.begin i (.read v)])) v during page := by
  obtain ⟨hbefore, hread, hduring⟩ := Run.along_append.mp h
  have hsound := hbefore.invariant (I := Sound) (fun _ _ hs hl => hs.step hl.2.1 hl.1)
    (sound_start store maxEntries bloomCapacity)
  rw [Run.run_append, Run.run_cons] at hanswer
  rw [Run.run_append, Run.run_cons, Run.run_nil]
  generalize Run.run (step fingerprintPage) (start n store maxEntries bloomCapacity) before = s at *
  have hstart : ((s.step fingerprintPage (.begin i (.read v))).threads i).ReadsAmong
      (fun page => (s.step fingerprintPage (.begin i (.read v))).memory.read v = page) v
      (s.step fingerprintPage (.begin i (.read v))).engine := by
    simp only [step, if_pos hidle, Function.update_self]
    rfl
  have hrun := readsAmong_run hstart (hsound.step hread.2.1 hread.1) rfl hbegin hduring
  unfold Thread.answer at hanswer
  split at hanswer
  · next heq =>
    rw [heq] at hrun
    cases hanswer
    rcases hrun page rfl with hnow | hheld
    · exact ⟨0, Nat.zero_le _, hnow⟩
    · exact hheld
  · cases hanswer

/-- A queue writes offset 0. -/
def firstWrite (j : Fin n) : List (Step n) :=
  .begin j (.write 0 [1]) :: List.replicate 4 (.advance j .done)

/-- While one queue reads offset 0, another writes offset 1. -/
def otherWrite (i j : Fin n) : List (Step n) :=
  List.flatten [[.advance i .done, .begin j (.write 1 [2])], List.replicate 4 (.advance j .done),
    [.advance i .done]]

theorem readReturnsHeld_apply : ∃ page,
    ((Run.run (step firstBytes) (start 2 (.blank 4 (by decide)) 8 1)
      (firstWrite 1 ++ .begin 0 (.read 0) :: otherWrite 0 1)).threads 0).answer = some page ∧
    HeldDuring firstBytes (Run.run (step firstBytes) (start 2 (.blank 4 (by decide)) 8 1)
      (firstWrite 1 ++ [.begin 0 (.read 0)])) 0 (otherWrite 0 1) page := by
  obtain ⟨page, hanswer⟩ := Option.isSome_iff_exists.mp (show
    ((Run.run (step firstBytes) (start 2 (.blank 4 (by decide)) 8 1)
      (firstWrite 1 ++ .begin 0 (.read 0) :: otherWrite 0 1)).threads 0).answer.isSome = true by
        decide +kernel)
  exact ⟨page, hanswer, readReturnsHeld firstBytes 2 _ 8 1 (firstWrite 1) (otherWrite 0 1) 0 0 page
    (by decide +kernel) (by decide +kernel) (fun _ h => by simp [otherWrite] at h) hanswer⟩

/-- Between the two sections of a read of offset 0, another queue discards that offset and
writes offset 1. -/
def slotReuse (i j : Fin n) : List (Step n) :=
  List.flatten [[.advance i .done, .begin j (.discard 0), .advance j .done, .advance j .done,
    .begin j (.write 1 [2])], List.replicate 4 (.advance j .done), [.advance i .done]]

/-- The write takes the slot that the read has copied, and the read returns its page. -/
theorem not_heldDuring_of_slotReuse :
    Run.Along (step firstBytes) (fun s l => s.EvictsNothing firstBytes l ∧ s.ChecksHold l)
      (start 2 (.blank 4 (by decide)) 8 1) (firstWrite 1 ++ .begin 0 (.read 0) :: slotReuse 0 1) ∧
    ((Run.run (step firstBytes) (start 2 (.blank 4 (by decide)) 8 1)
      (firstWrite 1)).threads 0).offset = none ∧
    (∀ request, .begin 0 request ∉ slotReuse (0 : Fin 2) 1) ∧
    ∃ page,
      ((Run.run (step firstBytes) (start 2 (.blank 4 (by decide)) 8 1)
        (firstWrite 1 ++ .begin 0 (.read 0) :: slotReuse 0 1)).threads 0).answer = some page ∧
      ¬ HeldDuring firstBytes (Run.run (step firstBytes) (start 2 (.blank 4 (by decide)) 8 1)
        (firstWrite 1 ++ [.begin 0 (.read 0)])) 0 (slotReuse 0 1) page := by
  refine ⟨by decide +kernel, by decide +kernel, fun _ h => by simp [slotReuse] at h, ?_⟩
  have hanswer : (((Run.run (step firstBytes) (start 2 (.blank 4 (by decide)) 8 1)
      (firstWrite 1 ++ .begin 0 (.read 0) :: slotReuse 0 1)).threads 0).answer.map
        fun page => page.bytes.headD 0) = some 2 := by
    decide +kernel
  have hheld : ∀ k < 11, ((Run.run (step firstBytes)
      (Run.run (step firstBytes) (start 2 (.blank 4 (by decide)) 8 1)
        (firstWrite 1 ++ [.begin 0 (.read 0)])) ((slotReuse 0 1).take k)).memory.read 0).bytes.headD 0 ≠
      2 := by
    decide +kernel
  obtain ⟨page, hpage, hhead⟩ := Option.map_eq_some_iff.mp hanswer
  refine ⟨page, hpage, ?_⟩
  rintro ⟨k, hk, hread⟩
  exact hheld k (Nat.lt_succ_of_le hk) (hread ▸ hhead)

end Queues

end Animaksm.Proxy

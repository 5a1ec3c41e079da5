import Animaksm.Proxy.ExactOwnership
import Animaksm.Proxy.Isolation
import Animaksm.Proxy.ReadInterval

/-!
# Queues in production mode

A device that is served never leaves passthrough mode. Its writes know no fingerprint, so
nothing is evicted and no check can go stale, whatever the interleaving. A read in progress
keeps its slot as long as no other request on its offset starts.
-/

namespace Animaksm.Proxy

/-- The engine is in passthrough mode, and no offset is mapped under a fingerprint. -/
structure ProxyEngine.Direct (e : ProxyEngine) : Prop where
  passthrough : e.passthrough = true
  mapped : ∀ v entry, e.translation.lookup v = some entry → entry.kind = .direct

/-- A stage of a write that knows no fingerprint. -/
def WriteStage.Direct : WriteStage → Prop
  | .start | .giveBack _ => True
  | .allocate fp | .store fp _ => fp = none
  | .replace entry => entry.kind = .direct
  | .lookup _ | .readBack _ _ | .addReference _ _ | .containsKey _ _ | .makeRoom _ _
  | .mapInsert _ _ | .index _ _ => False

namespace Thread

/-- The request of the thread, if it has one, knows no fingerprint. -/
def Direct : Thread → Prop
  | .writing _ _ stage => stage.Direct
  | .releasing _ old => old.kind = .direct
  | _ => True

variable {fingerprintPage : Page → Fingerprint} {e : ProxyEngine} {t : Thread}

/-- Such a request relies on nothing it has checked before. -/
theorem Direct.checksHold (h : t.Direct) : t.ChecksHold e := by
  cases t with
  | writing v page stage =>
    cases stage with
    | mapInsert | addReference => exact absurd h id
    | _ => trivial
  | _ => trivial

theorem direct_afterUpdate (u : Update) {old : Option TranslationEntry}
    (h : ∀ entry, old = some entry → entry.kind = .direct) : (afterUpdate u old).1.Direct := by
  cases old with
  | none => trivial
  | some entry => exact h entry rfl

/-- In passthrough mode a section stays in it, shares no slot and evicts nothing. -/
theorem Direct.advance (h : t.Direct) (he : e.Direct) (io : IoOutcome) :
    (t.advance fingerprintPage e io).2.1.Direct ∧ (t.advance fingerprintPage e io).1.Direct ∧
      (t.advance fingerprintPage e io).1.dedupTable.evictions = e.dedupTable.evictions := by
  cases t with
  | idle | answered => exact ⟨trivial, he, rfl⟩
  | readingSlot v slot => exact ⟨trivial, ⟨he.passthrough, he.mapped⟩, rfl⟩
  | freeing u slot => exact ⟨trivial, ⟨he.passthrough, he.mapped⟩, rfl⟩
  | discarding v =>
    refine ⟨direct_afterUpdate _ (he.mapped v), ⟨he.passthrough, fun w entry hw => ?_⟩, rfl⟩
    by_cases hwv : w = v
    · rw [hwv] at hw
      cases (Finmap.lookup_erase v _).symm.trans hw
    · exact he.mapped w entry ((Finmap.lookup_erase_ne hwv).symm.trans hw)
  | reading v =>
    simp only [Thread.advance]
    split
    · exact ⟨trivial, ⟨he.passthrough, he.mapped⟩, rfl⟩
    · exact ⟨trivial, ⟨he.passthrough, he.mapped⟩, rfl⟩
  | releasing u old =>
    have hdirect : old.kind = .direct := h
    simp only [Thread.advance, hdirect]
    exact ⟨trivial, ⟨he.passthrough, he.mapped⟩, rfl⟩
  | writing v page stage =>
    cases stage with
    | lookup | readBack | addReference | containsKey | makeRoom | mapInsert | index =>
      exact absurd h id
    | start =>
      simp only [Thread.advance, advanceWrite, he.passthrough, if_true]
      exact ⟨rfl, ⟨he.passthrough, he.mapped⟩, rfl⟩
    | allocate fp =>
      obtain rfl : fp = none := h
      simp only [Thread.advance, advanceWrite]
      rcases e.allocateSlot_cases with ⟨slot, -, hallocate⟩ | ⟨-, hallocate⟩
      · rw [hallocate]
        exact ⟨rfl, ⟨he.passthrough, he.mapped⟩, rfl⟩
      · rw [hallocate]
        exact ⟨trivial, he, rfl⟩
    | store fp slot =>
      obtain rfl : fp = none := h
      simp only [Thread.advance, advanceWrite, ProxyEngine.writePageToSlot]
      rcases e.store.writePage io slot page.bytes with ⟨err | _, store⟩
      · exact ⟨trivial, ⟨he.passthrough, he.mapped⟩, rfl⟩
      · exact ⟨rfl, ⟨he.passthrough, he.mapped⟩, rfl⟩
    | giveBack slot => exact ⟨trivial, ⟨he.passthrough, he.mapped⟩, rfl⟩
    | replace entry =>
      refine ⟨direct_afterUpdate _ (he.mapped v), ⟨he.passthrough, fun w entry' hw => ?_⟩, rfl⟩
      by_cases hwv : w = v
      · rw [hwv] at hw
        cases (Finmap.lookup_insert _).symm.trans hw
        exact h
      · exact he.mapped w entry' ((Finmap.lookup_insert_of_ne _ hwv).symm.trans hw)

/-- A section leaves the translations of other offsets alone. -/
theorem lookup_advance {w : UInt64} (h : ∀ u, t.effect = some u → u.offset ≠ w) (io : IoOutcome) :
    (t.advance fingerprintPage e io).1.translation.lookup w = e.translation.lookup w := by
  cases t with
  | idle | answered | readingSlot | freeing => rfl
  | reading v =>
    simp only [advance]
    split
    · rfl
    · rfl
  | discarding v => exact Finmap.lookup_erase_ne (Ne.symm (h (.discard v) rfl))
  | releasing u old =>
    simp only [advance]
    split
    · rfl
    · split
      · rfl
      · rfl
      · rfl
  | writing v page stage =>
    cases stage with
    | start | lookup | readBack | giveBack | mapInsert | index => rfl
    | addReference fp slot | containsKey fp slot =>
      simp only [advance, advanceWrite]
      split
      · rfl
      · rfl
    | allocate fp =>
      simp only [advance, advanceWrite]
      rcases e.allocateSlot_cases with ⟨slot, -, hallocate⟩ | ⟨-, hallocate⟩
      · rw [hallocate]
      · rw [hallocate]
    | store fp slot =>
      simp only [advance, advanceWrite, ProxyEngine.writePageToSlot]
      rcases e.store.writePage io slot page.bytes with ⟨err | _, store⟩
      · rfl
      · cases fp with
        | none => rfl
        | some fp => rfl
    | makeRoom fp slot =>
      simp only [advance, advanceWrite]
      split
      · split
        · rfl
        · rfl
      · rfl
    | replace entry => exact Finmap.lookup_insert_of_ne _ (Ne.symm (h (.write v page) rfl))

theorem offset_of_effect {u : Update} (h : t.effect = some u) : t.offset = some u.offset := by
  cases t with
  | writing v page stage =>
    cases stage with
    | replace entry => cases h; rfl
    | _ => cases h
  | discarding v => cases h; rfl
  | _ => cases h

/-- A section that copies a translation copies the slot of the offset. -/
theorem copied_advance {w : UInt64} {slot : Nat} {io : IoOutcome}
    (h : (t.advance fingerprintPage e io).2.1 = .readingSlot w slot) :
    ∃ entry, (t.advance fingerprintPage e io).1.translation.lookup w = some entry ∧
      entry.backendSlot = slot := by
  have hupdate : ∀ u old, (afterUpdate u old).1 ≠ .readingSlot w slot := by
    intro u old hupdate
    cases old with
    | _ => cases hupdate
  cases t with
  | idle | answered | readingSlot | freeing => cases h
  | reading v =>
    simp only [advance] at h ⊢
    cases hv : e.translation.lookup v with
    | none =>
      rw [hv] at h
      cases h
    | some entry =>
      rw [hv] at h
      cases h
      exact ⟨entry, hv, rfl⟩
  | discarding v => exact absurd h (hupdate _ _)
  | releasing u old =>
    simp only [advance] at h
    split at h
    · cases h
    · split at h
      · cases h
      · cases h
      · cases h
  | writing v page stage =>
    by_cases hreplace : ∃ entry, stage = .replace entry
    · obtain ⟨entry, rfl⟩ := hreplace
      exact absurd h (hupdate _ _)
    · have hbefore : ∀ entry, stage ≠ .replace entry := fun entry heq => hreplace ⟨entry, heq⟩
      obtain ⟨hidle | ⟨next, hnext⟩, -⟩ := advanceWrite_before fingerprintPage e io v page hbefore
      · cases hidle.symm.trans h
      · cases hnext.symm.trans h

end Thread

/-- The step does not leave passthrough mode. -/
def Step.Production {n : Nat} : Step n → Prop
  | .setPassthrough on => on = true
  | .begin _ _ | .advance _ _ => True

instance {n : Nat} : DecidablePred (Step.Production (n := n))
  | .setPassthrough on => inferInstanceAs (Decidable (on = true))
  | .begin _ _ | .advance _ _ => isTrue trivial

namespace Queues

variable {n : Nat} {fingerprintPage : Page → Fingerprint} {s : Queues n} {i : Fin n} {v : UInt64}
  {page : Page} {l : Step n}

/-- The engine is in passthrough mode, and no request knows a fingerprint. -/
structure Direct (s : Queues n) : Prop where
  engine : s.engine.Direct
  threads : ∀ i, (s.threads i).Direct

theorem direct_start (n : Nat) (store : PageStore) (maxEntries bloomCapacity : Nat) :
    (start n store maxEntries bloomCapacity).Direct where
  engine := ⟨rfl, fun v entry hv => by cases (Finmap.lookup_empty v).symm.trans hv⟩
  threads _ := trivial

theorem Direct.step (h : s.Direct) (hl : l.Production) : (s.step fingerprintPage l).Direct := by
  cases l with
  | setPassthrough on => exact ⟨⟨hl, h.engine.mapped⟩, h.threads⟩
  | begin i request =>
    simp only [Queues.step]
    split
    · refine ⟨h.engine, fun j => ?_⟩
      dsimp only
      by_cases hj : j = i
      · rw [hj, Function.update_self]
        cases request with
        | _ => trivial
      · rw [Function.update_of_ne hj]
        exact h.threads j
    · exact h
  | advance i io =>
    obtain ⟨hthread, hengine, -⟩ := (h.threads i).advance h.engine io
    refine ⟨hengine, fun j => ?_⟩
    simp only [Queues.step]
    by_cases hj : j = i
    · rw [hj, Function.update_self]
      exact hthread
    · rw [Function.update_of_ne hj]
      exact h.threads j

theorem Direct.evictsNothing (h : s.Direct) (l : Step n) : s.EvictsNothing fingerprintPage l := by
  unfold EvictsNothing
  cases l with
  | setPassthrough on => rfl
  | begin i request =>
    simp only [Queues.step]
    split
    · rfl
    · rfl
  | advance i io => exact ((h.threads i).advance h.engine io).2.2

theorem Direct.checksHold (h : s.Direct) (l : Step n) : s.ChecksHold l := by
  cases l with
  | advance i io => exact (h.threads i).checksHold
  | begin | setPassthrough => trivial

/-- A read in progress has copied the slot that its offset is mapped to. -/
def Copied (s : Queues n) : Prop :=
  ∀ i w slot, s.threads i = .readingSlot w slot →
    ∃ entry, s.engine.translation.lookup w = some entry ∧ entry.backendSlot = slot

/-- No other offset, and no write, owns the slot that a mapped offset uses. -/
theorem Copied.sparesReads (h : s.Copied) (hs : s.Sound) (l : Step n) : s.SparesReads l := by
  cases l with
  | begin | setPassthrough => trivial
  | advance i io =>
    intro slot htarget j hcopied
    unfold Thread.copied at hcopied
    cases hj : s.threads j with
    | readingSlot w slot' =>
      rw [hj] at hcopied
      obtain rfl : slot' = slot := Option.some.inj hcopied
      obtain ⟨entry, hentry, hslot⟩ := h j w slot' hj
      have howned := hs.backs.owned
      rw [held_eq s.threads i, Thread.held_of_target htarget, Multiset.singleton_add] at howned
      unfold ProxyEngine.Owned at howned
      rw [Multiset.add_cons] at howned
      have hne := howned.cell_ne_of_sole (ProxyEngine.claim_mem_of_lookup hentry _)
      rw [entry.cell_claim] at hne
      exact hne hslot
    | _ =>
      rw [hj] at hcopied
      cases hcopied

theorem Copied.step (h : s.Copied) (hsettled : s.Settled) : (s.step fingerprintPage l).Copied := by
  intro j w slot hj
  cases l with
  | setPassthrough on => exact h j w slot hj
  | begin i request =>
    simp only [Queues.step] at hj ⊢
    split at hj
    next hidle =>
      rw [if_pos hidle]
      dsimp only at hj ⊢
      by_cases hji : j = i
      · rw [hji, Function.update_self] at hj
        cases request with
        | _ => cases hj
      · rw [Function.update_of_ne hji] at hj
        exact h j w slot hj
    next hbusy =>
      rw [if_neg hbusy]
      exact h j w slot hj
  | advance i io =>
    simp only [Queues.step] at hj ⊢
    by_cases hji : j = i
    · rw [hji, Function.update_self] at hj
      exact Thread.copied_advance hj
    · rw [Function.update_of_ne hji] at hj
      -- The other thread updates another offset.
      have hother : ∀ u, (s.threads i).effect = some u → u.offset ≠ w := fun u hu heq =>
        hji (hsettled.separate j i w (congrArg Thread.offset hj)
          (heq ▸ Thread.offset_of_effect hu))
      rw [Thread.lookup_advance hother]
      exact h j w slot hj

/-- No step changes what the memory holds at the offset of a read in progress. -/
theorem memory_step (hsettled : s.Settled) (hoffset : (s.threads i).offset = some v)
    (heffect : (s.threads i).effect = none) : (s.step fingerprintPage l).memory v = s.memory v := by
  cases l with
  | setPassthrough on => rfl
  | begin j request =>
    simp only [Queues.step]
    split
    · rfl
    · rfl
  | advance j io =>
    simp only [Queues.step]
    cases hj : (s.threads j).effect with
    | none => rfl
    | some u =>
      refine Function.update_of_ne (fun heq => ?_) _ _
      have hsame : i = j := hsettled.separate i j v hoffset (heq ▸ Thread.offset_of_effect hj)
      rw [← hsame, heffect] at hj
      cases hj

/-- The thread reads this offset, which holds this page, or it has read the page. -/
structure Reads (s : Queues n) (i : Fin n) (v : UInt64) (page : Page) : Prop where
  among : (s.threads i).ReadsAmong (· = page) v s.engine
  held : (s.threads i).offset = none ∨ (s.threads i).offset = some v ∧ s.memory.read v = page

theorem Reads.step (h : s.Reads i v page) (hs : s.Sound) (hsettled : s.Settled) (hcopied : s.Copied)
    (hbegin : ∀ request, l ≠ .begin i request) : (s.step fingerprintPage l).Reads i v page := by
  rcases h.held with hdone | ⟨hoffset, hheld⟩
  · obtain ⟨w, result, hanswered⟩ : ∃ w result, s.threads i = .answered w result := by
      have hamong := h.among
      cases hi : s.threads i with
      | answered w result => exact ⟨w, result, rfl⟩
      | reading | readingSlot =>
        rw [hi] at hdone
        cases hdone
      | idle | writing | discarding | releasing | freeing =>
        rw [hi] at hamong
        exact hamong.elim
    have hsame : (s.step fingerprintPage l).threads i = s.threads i := by
      cases l with
      | setPassthrough on => rfl
      | begin j request =>
        have hij : i ≠ j := fun heq => hbegin request (heq ▸ rfl)
        simp only [Queues.step]
        split
        · exact Function.update_of_ne hij _ _
        · rfl
      | advance j io =>
        simp only [Queues.step]
        by_cases hij : i = j
        · rw [← hij, Function.update_self, hanswered]
          rfl
        · exact Function.update_of_ne hij _ _
    have hamong := h.among
    rw [hanswered] at hamong
    refine ⟨?_, .inl (hsame ▸ hdone)⟩
    rw [hsame, hanswered]
    exact hamong
  · have hquiet : (s.threads i).effect = none ∧ (s.threads i).pending = none := by
      have hamong := h.among
      cases hi : s.threads i with
      | reading | readingSlot | answered | idle => exact ⟨rfl, rfl⟩
      | writing | discarding | releasing | freeing =>
        rw [hi] at hamong
        exact hamong.elim
    refine ⟨readsAmong_step fingerprintPage h.among hs hheld (hcopied.sparesReads hs l) hbegin, ?_⟩
    have hmemory : (s.step fingerprintPage l).memory.read v = page := by
      rw [Memory.read, memory_step hsettled hoffset hquiet.1]
      exact hheld
    have hnext : ((s.step fingerprintPage l).threads i).offset = none ∨
        ((s.step fingerprintPage l).threads i).offset = some v := by
      cases l with
      | setPassthrough on => exact .inr hoffset
      | begin j request =>
        have hij : i ≠ j := fun heq => hbegin request (heq ▸ rfl)
        simp only [Queues.step]
        split
        · exact .inr ((congrArg Thread.offset (Function.update_of_ne hij _ _)).trans hoffset)
        · exact .inr hoffset
      | advance j io =>
        simp only [Queues.step]
        by_cases hij : i = j
        · rw [← hij, Function.update_self]
          rcases (s.threads i).advance_cases fingerprintPage s.engine io with
            ⟨-, -, -, -, hnext⟩ | ⟨u, -, ⟨heffect, -⟩ | ⟨-, hpending⟩, -⟩
          · exact hnext.imp_right fun hnext => hnext.trans hoffset
          · cases hquiet.1.symm.trans heffect
          · cases hquiet.2.symm.trans hpending
        · exact .inr ((congrArg Thread.offset (Function.update_of_ne hij _ _)).trans hoffset)
    exact hnext.imp_right fun hnext => ⟨hnext, hmemory⟩

/-- What holds in every interleaving of requests in production mode that keep their offsets apart. -/
structure Served (s : Queues n) : Prop where
  sound : s.Sound
  direct : s.Direct
  settled : s.Settled
  copied : s.Copied

theorem served_start (n : Nat) (store : PageStore) (maxEntries bloomCapacity : Nat) :
    (start n store maxEntries bloomCapacity).Served where
  sound := sound_start store maxEntries bloomCapacity
  direct := direct_start n store maxEntries bloomCapacity
  settled := settled_start store maxEntries bloomCapacity
  copied _ _ _ h := by cases h

theorem Served.step (h : s.Served) (hproduction : l.Production) (hseparate : s.Separate l) :
    (s.step fingerprintPage l).Served where
  sound := h.sound.step (h.direct.checksHold l) (h.direct.evictsNothing l)
  direct := h.direct.step hproduction
  settled := h.settled.step hseparate
  copied := h.copied.step h.settled

/-- A read that starts where no other request names its offset is about to read what the completed
updates left there. -/
theorem Served.reads (h : s.Served) (hidle : (s.threads i).offset = none)
    (hseparate : s.Separate (.begin i (.read v))) :
    (s.step fingerprintPage (.begin i (.read v))).Reads i v (s.completed.read v) := by
  have hmemory : s.memory v = s.completed v := h.settled.settled v fun j u hj heq =>
    hseparate hidle j (heq ▸ Thread.offset_of_pending hj)
  simp only [Queues.step, if_pos hidle]
  refine ⟨?_, .inr ⟨?_, ?_⟩⟩
  · dsimp only
    rw [Function.update_self]
    rfl
  · dsimp only
    rw [Function.update_self]
    rfl
  · rw [Memory.read, Memory.read, hmemory]

theorem Served.run (h : s.Served) {steps : List (Step n)}
    (halong : Run.Along (Queues.step fingerprintPage) (fun s l => l.Production ∧ s.Separate l) s steps) :
    (Run.run (Queues.step fingerprintPage) s steps).Served :=
  halong.invariant (I := Served) (fun _ _ h hl => h.step hl.1 hl.2) h

theorem Reads.run (h : s.Reads i v page) (hserved : s.Served) {steps : List (Step n)}
    (hbegin : ∀ request, .begin i request ∉ steps)
    (halong : Run.Along (Queues.step fingerprintPage) (fun s l => l.Production ∧ s.Separate l) s steps) :
    (Run.run (Queues.step fingerprintPage) s steps).Reads i v page := by
  induction steps generalizing s with
  | nil => exact h
  | cons l steps ih =>
    obtain ⟨⟨hproduction, hseparate⟩, hrest⟩ := halong
    have hnext : (s.step fingerprintPage l).Reads i v page :=
      h.step hserved.sound hserved.settled hserved.copied fun request heq =>
        hbegin request (heq ▸ List.mem_cons_self)
    exact ih hnext (hserved.step hproduction hseparate)
      (fun request hmem => hbegin request (List.mem_cons_of_mem l hmem)) hrest

/-- Threads without a request hold no slot. -/
theorem held_of_idle (h : ∀ i, (s.threads i).offset = none) : held s.threads = 0 := by
  refine Finset.sum_eq_zero fun i _ => ?_
  have hi := h i
  cases ht : s.threads i with
  | idle | answered => rfl
  | writing | discarding | reading | readingSlot | releasing | freeing =>
    rw [ht] at hi
    cases hi

/-- In production mode every interleaving keeps each offset at what the writes and discards that took
effect made of it, and loses no slot. Where requests that overlap name different offsets, an offset
without a request in progress is as the completed ones left it, and a read returns what they had left
before it. -/
theorem production_linearizable (fingerprintPage : Page → Fingerprint) (n : Nat) (store : PageStore)
    (maxEntries bloomCapacity : Nat) {steps : List (Step n)} (hproduction : ∀ l ∈ steps, l.Production) :
    let run := Run.run (step fingerprintPage) (start n store maxEntries bloomCapacity)
    (∀ v, ((run steps).engine.handleRead .done v).1 = .ok ((run steps).memory.read v)) ∧
    ((∀ i, ((run steps).threads i).offset = none) → ExactOwnership (run steps).engine) ∧
    (Run.Along (step fingerprintPage) Separate (start n store maxEntries bloomCapacity) steps →
      (run steps).Isolated ∧
      ∀ before i v during page, steps = before ++ .begin i (.read v) :: during →
        ((run before).threads i).offset = none → (∀ request, .begin i request ∉ during) →
        ((run steps).threads i).answer = some page → page = (run before).completed.read v) := by
  intro run
  have hrun : (run steps).Sound ∧ (run steps).Direct :=
    (Run.along_of_forall hproduction _).invariant (I := fun s : Queues n => s.Sound ∧ s.Direct)
      (fun _ l h hl => ⟨h.1.step (h.2.checksHold l) (h.2.evictsNothing l), h.2.step hl⟩)
      ⟨sound_start store maxEntries bloomCapacity, direct_start n store maxEntries bloomCapacity⟩
  refine ⟨hrun.1.backs.handleRead, fun hidle => ?_, fun hseparate => ?_⟩
  · have hbacks := hrun.1.backs
    rw [held_of_idle hidle] at hbacks
    exact hbacks.owns_exactly
  · have halong := (Run.along_of_forall hproduction _).and hseparate
    have hserved := (served_start n store maxEntries bloomCapacity).run halong
    refine ⟨hserved.settled.isolated hserved.sound, ?_⟩
    rintro before i v during page rfl hidle hbegin hanswer
    obtain ⟨hbefore, ⟨-, hseparate⟩, hduring⟩ := Run.along_append.mp halong
    have hstart := (served_start n store maxEntries bloomCapacity).run hbefore
    have hreads := (hstart.reads hidle hseparate).run (hstart.step trivial hseparate) hbegin hduring
    have hamong := hreads.among
    have hruns : run (before ++ .begin i (.read v) :: during) = Run.run (step fingerprintPage)
        ((run before).step fingerprintPage (.begin i (.read v))) during := Run.run_append ..
    rw [hruns] at hanswer
    unfold Thread.answer at hanswer
    split at hanswer
    next w result hanswered =>
      rw [hanswered] at hamong
      exact Option.some.inj hanswer ▸ hamong result rfl
    next => cases hanswer

theorem production_linearizable_otherWrite : ∃ page,
    ((Run.run (step firstBytes) (start 2 (.blank 4 (by decide)) 8 1)
      (firstWrite 1 ++ .begin 0 (.read 0) :: otherWrite 0 1)).threads 0).answer = some page ∧
    page = (Run.run (step firstBytes) (start 2 (.blank 4 (by decide)) 8 1)
      (firstWrite 1)).completed.read 0 := by
  obtain ⟨page, hanswer⟩ := Option.isSome_iff_exists.mp (show
    ((Run.run (step firstBytes) (start 2 (.blank 4 (by decide)) 8 1)
      (firstWrite 1 ++ .begin 0 (.read 0) :: otherWrite 0 1)).threads 0).answer.isSome = true by
        decide +kernel)
  have hserved := production_linearizable firstBytes 2 (.blank 4 (by decide)) 8 1
    (show ∀ l ∈ firstWrite 1 ++ Step.begin (0 : Fin 2) (.read 0) :: otherWrite 0 1, l.Production by decide)
  have hreads := (hserved.2.2 (by decide +kernel)).2 (firstWrite 1) 0 0 (otherWrite 0 1) page rfl
    (by decide +kernel) (fun _ h => by simp [otherWrite] at h) hanswer
  exact ⟨page, hanswer, hreads⟩

end Queues

end Animaksm.Proxy

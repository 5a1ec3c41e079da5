import Animaksm.Proxy.Sections

/-!
# Isolation of concurrent requests

When requests that overlap in time name different offsets, an offset without a
request in progress should read as its own last completed write or discard left
it. It does so in every interleaving in which the table still says, at the
moment a page is entered or a reference counted, what the write had asked it
before. Two writes of the same page break it: both find their fingerprint
missing, and the second entry replaces the first.
-/

namespace Animaksm.Proxy

namespace Thread

/-- The update that took effect and is not completed yet. -/
def pending : Thread → Option Update
  | .releasing u _ | .freeing u _ => some u
  | .idle | .writing _ _ _ | .discarding _ | .reading _ | .readingSlot _ _ | .answered _ _ => none

theorem offset_of_pending {t : Thread} {u : Update} (h : t.pending = some u) :
    t.offset = some u.offset := by
  cases t <;> cases h <;> rfl

/-- Before it maps its offset, a write moves on to another section or fails. -/
theorem advanceWrite_before (fingerprintPage : Page → Fingerprint) (e : ProxyEngine)
    (io : IoOutcome) (v : UInt64) (page : Page) {stage : WriteStage}
    (h : ∀ entry, stage ≠ .replace entry) :
    ((advanceWrite fingerprintPage e io v page stage).2.1 = .idle ∨
      ∃ next, (advanceWrite fingerprintPage e io v page stage).2.1 = .writing v page next) ∧
    (advanceWrite fingerprintPage e io v page stage).2.2 = none := by
  cases stage with
  | start | lookup | mapInsert | index => exact ⟨Or.inr ⟨_, rfl⟩, rfl⟩
  | giveBack slot => exact ⟨Or.inl rfl, rfl⟩
  | readBack fp slot =>
    refine ⟨?_, rfl⟩
    simp only [advanceWrite]
    split
    · exact Or.inl rfl
    · exact Or.inr ⟨_, rfl⟩
  | addReference fp slot | containsKey fp slot | store fp slot =>
    simp only [advanceWrite]
    split <;> exact ⟨Or.inr ⟨_, rfl⟩, rfl⟩
  | allocate fp =>
    simp only [advanceWrite]
    split
    · exact ⟨Or.inl rfl, rfl⟩
    · exact ⟨Or.inr ⟨_, rfl⟩, rfl⟩
  | makeRoom fp slot =>
    simp only [advanceWrite]
    split
    · split <;> exact ⟨Or.inr ⟨_, rfl⟩, rfl⟩
    · exact ⟨Or.inr ⟨_, rfl⟩, rfl⟩
  | replace entry => exact absurd rfl (h entry)

/-- What a section does to the update of its thread. Either the thread has none that took
effect, before and after; or there is one, taking effect now or before, and it stays pending
or is completed. -/
theorem advance_cases (fingerprintPage : Page → Fingerprint) (e : ProxyEngine) (io : IoOutcome)
    (t : Thread) :
    (t.effect = none ∧ t.pending = none ∧ (t.advance fingerprintPage e io).2.2 = none ∧
      (t.advance fingerprintPage e io).2.1.pending = none ∧
      ((t.advance fingerprintPage e io).2.1.offset = none ∨
        (t.advance fingerprintPage e io).2.1.offset = t.offset)) ∨
    ∃ u, t.offset = some u.offset ∧
      (t.effect = some u ∧ t.pending = none ∨ t.effect = none ∧ t.pending = some u) ∧
      ((t.advance fingerprintPage e io).2.1.pending = some u ∧
          (t.advance fingerprintPage e io).2.2 = none ∨
        (t.advance fingerprintPage e io).2.1 = .idle ∧
          (t.advance fingerprintPage e io).2.2 = some u) := by
  cases t with
  | idle | answered => exact Or.inl ⟨rfl, rfl, rfl, rfl, Or.inl rfl⟩
  | readingSlot v slot => exact Or.inl ⟨rfl, rfl, rfl, rfl, Or.inl rfl⟩
  | reading v =>
    left
    simp only [advance]
    split
    · exact ⟨rfl, rfl, rfl, rfl, Or.inl rfl⟩
    · exact ⟨rfl, rfl, rfl, rfl, Or.inr rfl⟩
  | discarding v =>
    refine Or.inr ⟨.discard v, rfl, Or.inl ⟨rfl, rfl⟩, ?_⟩
    simp only [advance, ProxyEngine.removeTranslation]
    cases e.translation.lookup v with
    | none => exact Or.inr ⟨rfl, rfl⟩
    | some old => exact Or.inl ⟨rfl, rfl⟩
  | releasing u old =>
    refine Or.inr ⟨u, rfl, Or.inr ⟨rfl, rfl⟩, ?_⟩
    simp only [advance]
    split
    · exact Or.inr ⟨rfl, rfl⟩
    · split
      · exact Or.inr ⟨rfl, rfl⟩
      · exact Or.inl ⟨rfl, rfl⟩
      · exact Or.inl ⟨rfl, rfl⟩
  | freeing u slot => exact Or.inr ⟨u, rfl, Or.inr ⟨rfl, rfl⟩, Or.inr ⟨rfl, rfl⟩⟩
  | writing v page stage =>
    by_cases hreplace : ∃ entry, stage = .replace entry
    · obtain ⟨entry, rfl⟩ := hreplace
      refine Or.inr ⟨.write v page, rfl, Or.inl ⟨rfl, rfl⟩, ?_⟩
      simp only [advance, advanceWrite, ProxyEngine.setTranslation]
      cases e.translation.lookup v with
      | none => exact Or.inr ⟨rfl, rfl⟩
      | some old => exact Or.inl ⟨rfl, rfl⟩
    · have hbefore : ∀ entry, stage ≠ .replace entry := fun entry h => hreplace ⟨entry, h⟩
      have heffect : (writing v page stage).effect = none := by
        cases stage with
        | replace entry => exact absurd rfl (hbefore entry)
        | _ => rfl
      obtain ⟨hnext, hdone⟩ := advanceWrite_before fingerprintPage e io v page hbefore
      left
      simp only [advance]
      rcases hnext with hidle | ⟨next, hnext⟩
      · rw [hidle]
        exact ⟨heffect, rfl, hdone, rfl, Or.inl rfl⟩
      · rw [hnext]
        exact ⟨heffect, rfl, hdone, rfl, Or.inr rfl⟩

end Thread

namespace Queues

variable {n : Nat} {fingerprintPage : Page → Fingerprint} {s : Queues n}

/-- Requests in progress name different offsets; an update that took effect shows in the
memory; and the memory is what the completed updates made of it at every other offset. -/
structure Settled (s : Queues n) : Prop where
  separate : ∀ i j v, (s.threads i).offset = some v → (s.threads j).offset = some v → i = j
  pending : ∀ i u, (s.threads i).pending = some u → s.memory u.offset = u.outcome
  settled : ∀ v, (∀ i u, (s.threads i).pending = some u → u.offset ≠ v) →
    s.memory v = s.completed v

theorem settled_start (store : PageStore) (maxEntries bloomCapacity : Nat) :
    (start n store maxEntries bloomCapacity).Settled where
  separate i j v hi _ := by cases hi
  pending i u h := by cases h
  settled v _ := rfl

/-- A thread that moves on within its request, or ends it, leaves the others apart. -/
theorem Settled.separate_update (h : s.Settled) {i : Fin n} {t : Thread}
    (ht : t.offset = none ∨ t.offset = (s.threads i).offset) (j k : Fin n) (v : UInt64)
    (hj : (Function.update s.threads i t j).offset = some v)
    (hk : (Function.update s.threads i t k).offset = some v) : j = k := by
  have hold : ∀ l, (Function.update s.threads i t l).offset = some v →
      (s.threads l).offset = some v := by
    intro l hl
    by_cases hli : l = i
    · subst hli
      rw [Function.update_self] at hl
      rcases ht with ht | ht
      · rw [ht] at hl
        cases hl
      · rw [← ht, hl]
    · rwa [Function.update_of_ne hli] at hl
  exact h.separate j k v (hold j hj) (hold k hk)

/-- One section. -/
theorem Settled.advance (h : s.Settled) (i : Fin n) (io : IoOutcome) :
    (s.step fingerprintPage (.advance i io)).Settled := by
  rcases (s.threads i).advance_cases fingerprintPage s.engine io with
    ⟨heffect, hpending, hdone, hnext, hoffset⟩ | ⟨u, hu, hbefore, hafter⟩
  · -- no update is involved
    refine ⟨h.separate_update hoffset, fun j u' hj => ?_, fun v hv => ?_⟩
    · simp only [step, heffect, Option.elim_none] at hj ⊢
      by_cases hji : j = i
      · subst hji
        rw [Function.update_self, hnext] at hj
        cases hj
      · rw [Function.update_of_ne hji] at hj
        exact h.pending j u' hj
    · simp only [step, heffect, hdone, Option.elim_none] at hv ⊢
      apply h.settled
      intro j u' hj
      by_cases hji : j = i
      · subst hji
        rw [hpending] at hj
        cases hj
      · exact hv j u' (by rwa [Function.update_of_ne hji])
  · -- the update shows at its offset, and nothing else changes in the memory
    have hmemory : ∀ v, (s.step fingerprintPage (.advance i io)).memory v =
        if v = u.offset then u.outcome else s.memory v := by
      intro v
      rcases hbefore with ⟨heffect, -⟩ | ⟨heffect, hpending⟩
      · simp only [step, heffect, Option.elim_some, Update.apply, Function.update_apply]
      · simp only [step, heffect, Option.elim_none]
        split
        · next hv => rw [hv, h.pending i u hpending]
        · rfl
    have hother : ∀ j u', j ≠ i → (s.threads j).pending = some u' → u'.offset ≠ u.offset := by
      intro j u' hji hj heq
      exact hji (h.separate j i u.offset (heq ▸ Thread.offset_of_pending hj) hu)
    have hsame : ∀ u', (s.threads i).pending = some u' → u' = u := by
      intro u' hu'
      rcases hbefore with ⟨-, hpending⟩ | ⟨-, hpending⟩
      · rw [hpending] at hu'
        cases hu'
      · exact Option.some.inj (hu'.symm.trans hpending)
    have hold : ∀ v, v ≠ u.offset → (∀ j u', j ≠ i → (s.threads j).pending = some u' →
        u'.offset ≠ v) → s.memory v = s.completed v := by
      intro v hv hothers
      apply h.settled
      intro j u' hj
      by_cases hji : j = i
      · subst hji
        rw [hsame u' hj]
        exact hv.symm
      · exact hothers j u' hji hj
    have hoffset : ((s.threads i).advance fingerprintPage s.engine io).2.1.offset = none ∨
        ((s.threads i).advance fingerprintPage s.engine io).2.1.offset = (s.threads i).offset := by
      rcases hafter with ⟨hnext, -⟩ | ⟨hnext, -⟩
      · exact Or.inr (by rw [Thread.offset_of_pending hnext, hu])
      · exact Or.inl (by rw [hnext]; rfl)
    refine ⟨h.separate_update hoffset, fun j u' hj => ?_, fun v hv => ?_⟩
    · rw [hmemory]
      by_cases hji : j = i
      · subst hji
        simp only [step, Function.update_self] at hj
        rcases hafter with ⟨hnext, -⟩ | ⟨hnext, -⟩
        · rw [hnext] at hj
          cases hj
          rw [if_pos rfl]
        · rw [hnext] at hj
          cases hj
      · simp only [step, Function.update_of_ne hji] at hj
        rw [if_neg (hother j u' hji hj)]
        exact h.pending j u' hj
    · have hothers : ∀ j u', j ≠ i → (s.threads j).pending = some u' → u'.offset ≠ v :=
        fun j u' hji hj => hv j u' (by simpa only [step, Function.update_of_ne hji] using hj)
      rw [hmemory]
      rcases hafter with ⟨hnext, hdone⟩ | ⟨-, hdone⟩
      · have hne : v ≠ u.offset :=
          (hv i u (by simpa only [step, Function.update_self] using hnext)).symm
        simp only [step, hdone, Option.elim_none, if_neg hne]
        exact hold v hne hothers
      · simp only [step, hdone, Option.elim_some, Update.apply, Function.update_apply]
        by_cases hvu : v = u.offset
        · rw [if_pos hvu, if_pos hvu]
        · rw [if_neg hvu, if_neg hvu]
          exact hold v hvu hothers

/-- One step that starts no request on an offset in use. -/
theorem Settled.step (h : s.Settled) {l : Step n} (hl : s.Separate l) :
    (s.step fingerprintPage l).Settled := by
  cases l with
  | advance i io => exact h.advance i io
  | setPassthrough on => exact ⟨h.separate, h.pending, h.settled⟩
  | begin i request =>
    simp only [Queues.step]
    split
    · next hidle =>
      have hpending : ∀ j u, (Function.update s.threads i (.begin request) j).pending = some u →
          (s.threads j).pending = some u := by
        intro j u hj
        by_cases hji : j = i
        · subst hji
          rw [Function.update_self] at hj
          cases request <;> cases hj
        · rwa [Function.update_of_ne hji] at hj
      have hthread : ∀ j v, (Function.update s.threads i (.begin request) j).offset = some v →
          j = i ∧ v = request.offset ∨ j ≠ i ∧ (s.threads j).offset = some v := by
        intro j v hj
        by_cases hji : j = i
        · subst hji
          rw [Function.update_self] at hj
          left
          cases request <;> cases hj <;> exact ⟨rfl, rfl⟩
        · rw [Function.update_of_ne hji] at hj
          exact Or.inr ⟨hji, hj⟩
      refine ⟨fun j k v hj hk => ?_, fun j u hj => h.pending j u (hpending j u hj),
        fun v hv => h.settled v fun j u hj => ?_⟩
      · rcases hthread j v hj with ⟨hji, hjv⟩ | ⟨-, hj⟩ <;>
          rcases hthread k v hk with ⟨hki, hkv⟩ | ⟨-, hk⟩
        · rw [hji, hki]
        · exact absurd (hjv ▸ hk) (hl hidle k)
        · exact absurd (hkv ▸ hj) (hl hidle j)
        · exact h.separate j k v hj hk
      · have hji : j ≠ i := by
          rintro rfl
          have hoffset := Thread.offset_of_pending hj
          rw [hidle] at hoffset
          cases hoffset
        exact hv j u (by simpa only [Function.update_of_ne hji] using hj)
    · exact h

/-- Every offset without a request in progress reads as the completed updates left it. -/
def Isolated (s : Queues n) : Prop :=
  ∀ v, (∀ i, (s.threads i).offset ≠ some v) →
    (s.engine.handleRead .done v).1 = .ok (s.completed.read v)

theorem Settled.isolated (h : s.Settled) (hs : s.Sound) : s.Isolated := by
  intro v hv
  have hmemory : s.memory v = s.completed v :=
    h.settled v fun i u hi heq => hv i (heq ▸ Thread.offset_of_pending hi)
  rw [hs.backs.handleRead v, Memory.read, Memory.read, hmemory]

theorem Isolated.headD (h : s.Isolated) {v : UInt64} (hv : ∀ i, (s.threads i).offset ≠ some v) :
    ((s.engine.handleRead .done v).1.toOption.map fun page => page.bytes.headD 0) =
      some ((s.completed.read v).bytes.headD 0) := by
  rw [h v hv]
  rfl

/-- Isolation: in every interleaving in which requests that overlap name different offsets,
nothing is evicted, and the checks of each thread hold when it relies on them, every offset
without a request in progress reads as its own last completed write or discard left it. -/
theorem isolation (fingerprintPage : Page → Fingerprint) (n : Nat) (store : PageStore)
    (maxEntries bloomCapacity : Nat) (steps : List (Step n))
    (h : Run.Along (step fingerprintPage)
      (fun s l => s.Separate l ∧ s.EvictsNothing fingerprintPage l ∧ s.ChecksHold l)
      (start n store maxEntries bloomCapacity) steps) :
    (Run.run (step fingerprintPage) (start n store maxEntries bloomCapacity) steps).Isolated := by
  obtain ⟨hsound, hsettled⟩ := h.invariant (I := fun s => s.Sound ∧ s.Settled)
    (fun _ _ hs hl => ⟨hs.1.step hl.2.2 hl.2.1, hs.2.step hl.1⟩)
    ⟨sound_start store maxEntries bloomCapacity, settled_start store maxEntries bloomCapacity⟩
  exact hsettled.isolated hsound

/-- Two writes, section by section in turn. -/
def inTurn : List (Step 2) :=
  .setPassthrough false :: .begin 0 (.write 0 [1]) :: .begin 1 (.write 1 [2]) ::
    (List.replicate 9 [Step.advance 0 .done, .advance 1 .done]).flatten

theorem isolation_apply : (Run.run (step firstBytes) (start 2 (.blank 4 (by decide)) 8 1)
    inTurn).Isolated :=
  isolation firstBytes 2 _ 8 1 _ (by decide +kernel)

/-- Two writes of one page that both find its fingerprint missing and enter it one after the
other, then a discard of the second offset and a write of another page. -/
def doubleInsert : List (Step 2) :=
  List.flatten
    [[.setPassthrough false, .begin 0 (.write 0 [1]), .begin 1 (.write 1 [1])],
      List.replicate 5 (.advance 0 .done), List.replicate 9 (.advance 1 .done),
      List.replicate 4 (.advance 0 .done), [.begin 1 (.discard 1)],
      List.replicate 3 (.advance 1 .done), [.begin 1 (.write 2 [2])],
      List.replicate 9 (.advance 1 .done)]

/-- The discard frees the slot of the first offset, the last write takes it, and the first
offset reads as that page. -/
theorem not_isolated_of_double_insert :
    Run.Along (step firstBytes) (fun s l => s.Separate l ∧ s.EvictsNothing firstBytes l)
        (start 2 (.blank 4 (by decide)) 8 1) doubleInsert ∧
      ¬ (Run.run (step firstBytes) (start 2 (.blank 4 (by decide)) 8 1) doubleInsert).Isolated := by
  refine ⟨by decide +kernel, fun h => ?_⟩
  have hread := h.headD (v := 0) (by decide +kernel)
  revert hread
  decide +kernel

end Queues

end Animaksm.Proxy

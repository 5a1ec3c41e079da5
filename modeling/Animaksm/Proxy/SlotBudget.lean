import Mathlib.Algebra.Order.BigOperators.Group.Finset
import Animaksm.Proxy.Capacity
import Animaksm.Proxy.Production

/-!
# The slots of a store in production mode

In production mode every mapped offset has a slot of its own, and a request in progress holds at
most one. So the slots handed out are counted exactly in every interleaving, and a write is turned
away exactly when every slot of the store is mapped or in the hands of a request.
-/

namespace Animaksm.Proxy

open RefPool

namespace Thread

variable {fingerprintPage : Page → Fingerprint} {e : ProxyEngine} {t : Thread}

/-- No section changes the bound of the allocator. -/
theorem maxSlots_advance (io : IoOutcome) :
    (t.advance fingerprintPage e io).1.slotAllocator.maxSlots = e.slotAllocator.maxSlots := by
  cases t with
  | idle | answered | discarding | readingSlot => rfl
  | freeing u slot => exact SlotAllocator.maxSlots_free _ slot
  | reading v =>
    simp only [advance]
    split
    · rfl
    · rfl
  | releasing u old =>
    simp only [advance]
    split
    · exact SlotAllocator.maxSlots_free _ _
    · split
      · rfl
      · rfl
      · rfl
  | writing v page stage =>
    cases stage with
    | start | lookup | readBack | mapInsert | index | replace => rfl
    | giveBack slot => exact SlotAllocator.maxSlots_free _ slot
    | addReference fp slot | containsKey fp slot =>
      simp only [advance, advanceWrite]
      split
      · rfl
      · rfl
    | allocate fp =>
      simp only [advance, advanceWrite]
      rcases e.allocateSlot_cases with ⟨slot, -, hallocate⟩ | ⟨-, hallocate⟩
      · rw [hallocate]
        exact e.slotAllocator.maxSlots_allocate
      · rw [hallocate]
    | store fp slot =>
      simp only [advance, advanceWrite, ProxyEngine.writePageToSlot]
      rcases e.store.writePage io slot page.bytes with ⟨err | _, store⟩
      · rfl
      · cases fp with
        | none => rfl
        | some fp => rfl
    | makeRoom fp slot =>
      simp only [advance, advanceWrite]
      split
      · split
        · rfl
        · rfl
      · rfl

end Thread

namespace Queues

variable {n : Nat} {fingerprintPage : Page → Fingerprint} {s : Queues n} {slots : Nat} {i : Fin n}
  {l : Step n}

/-- What holds of the slots in every interleaving in production mode. -/
structure Budgeted (slots : Nat) (s : Queues n) : Prop where
  sound : s.Sound
  direct : s.Direct
  maxSlots : s.engine.slotAllocator.maxSlots = slots

theorem Budgeted.step (h : s.Budgeted slots) (hl : l.Production) :
    (s.step fingerprintPage l).Budgeted slots where
  sound := h.sound.step (h.direct.checksHold l) (h.direct.evictsNothing l)
  direct := h.direct.step hl
  maxSlots := by
    rw [← h.maxSlots]
    cases l with
    | setPassthrough on => rfl
    | begin j request =>
      simp only [Queues.step]
      split
      · rfl
      · rfl
    | advance j io => exact (s.threads j).maxSlots_advance io

/-- A write that asks for a slot gets that of the allocator, or is turned away. -/
theorem allocate_cases {v : UInt64} {page : Page} (hi : s.threads i = .writing v page (.allocate none))
    (io : IoOutcome) :
    (∃ slot, s.engine.slotAllocator.allocate.1 = some slot ∧
      (s.step fingerprintPage (.advance i io)).threads i = .writing v page (.store none slot)) ∨
    (s.engine.slotAllocator.allocate.1 = none ∧
      (s.step fingerprintPage (.advance i io)).threads i = .idle) := by
  simp only [Queues.step, Function.update_self, hi, Thread.advance, Thread.advanceWrite]
  rcases s.engine.allocateSlot_cases with ⟨slot, hslot, hallocate⟩ | ⟨hnone, hallocate⟩
  · rw [hallocate]
    exact .inl ⟨slot, hslot, rfl⟩
  · rw [hallocate]
    exact .inr ⟨hnone, rfl⟩

end Queues

end Animaksm.Proxy

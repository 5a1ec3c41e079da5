import Mathlib.Data.Fintype.Basic
import Animaksm.Lib.Threads
import Animaksm.Proxy.SlotAllocation

/-!
# The slot allocator without a lock

A call on the allocator is a sequence of atomic operations. An allocation pops the
queue, on an empty one bumps the counter, and takes a bump past the end back. Any
number of threads make calls at once, so the counter may be past the end by one for
each thread. The slots in the queue, those about to be recycled and those
outstanding are still together the slots handed out so far.
-/

namespace Animaksm.Proxy

/-- The next atomic operation of a call. -/
inductive SlotStage where
  | idle
  /-- Pop the queue of recycled slots. -/
  | pop
  /-- Take the next slot from the counter. -/
  | bump
  /-- Take a bump past the end back. -/
  | rollBack
  /-- Recycle a slot of the store. -/
  | push (slot : UInt64)
  deriving DecidableEq

/-- What an operation leaves: the allocator, the next operation, and the slot it hands out. -/
structure SlotSection where
  allocator : AtomicAllocator
  stage : SlotStage
  handedOut : Option UInt64

namespace SlotStage

/-- Take up a call. -/
def begin (maxSlots : UInt64) : SlotCall → SlotStage
  | .allocate => .pop
  | .free slot => if slot < maxSlots then .push slot else .idle

/-- Run the next atomic operation. -/
def next (a : AtomicAllocator) : SlotStage → SlotSection
  | .idle => ⟨a, .idle, none⟩
  | .pop =>
    match a.freeSlots with
    | slot :: rest => ⟨{ a with freeSlots := rest }, .idle, some slot⟩
    | [] => ⟨a, .bump, none⟩
  | .bump =>
    let slot := a.nextSlot
    let a := { a with nextSlot := a.nextSlot + 1 }
    if slot ≥ a.maxSlots then ⟨a, .rollBack, none⟩ else ⟨a, .idle, some slot⟩
  | .rollBack => ⟨{ a with nextSlot := a.nextSlot - 1 }, .idle, none⟩
  | .push slot => ⟨{ a with freeSlots := a.freeSlots ++ [slot] }, .idle, none⟩

/-- The slot that is about to be recycled. -/
def recycling : SlotStage → Multiset UInt64
  | .push slot => {slot}
  | _ => 0

/-- Bumps past the end that are not taken back yet. -/
def overdrawn : SlotStage → Nat
  | .rollBack => 1
  | _ => 0

theorem overdrawn_le (stage : SlotStage) : stage.overdrawn ≤ 1 := by
  cases stage with
  | rollBack => exact le_rfl
  | idle | pop | bump | push slot => exact Nat.zero_le 1

variable {a : AtomicAllocator}

@[simp] theorem next_idle (a : AtomicAllocator) : idle.next a = ⟨a, .idle, none⟩ := rfl

@[simp] theorem next_rollBack (a : AtomicAllocator) :
    rollBack.next a = ⟨{ a with nextSlot := a.nextSlot - 1 }, .idle, none⟩ := rfl

@[simp] theorem next_push (a : AtomicAllocator) (slot : UInt64) :
    (push slot).next a = ⟨{ a with freeSlots := a.freeSlots ++ [slot] }, .idle, none⟩ := rfl

theorem next_pop_cons {slot : UInt64} {rest : List UInt64} (h : a.freeSlots = slot :: rest) :
    pop.next a = ⟨{ a with freeSlots := rest }, .idle, some slot⟩ := by
  rw [next, h]

theorem next_pop_nil (h : a.freeSlots = []) : pop.next a = ⟨a, .bump, none⟩ := by
  rw [next, h]

theorem next_bump_full (h : a.maxSlots ≤ a.nextSlot) :
    bump.next a = ⟨{ a with nextSlot := a.nextSlot + 1 }, .rollBack, none⟩ := if_pos h

theorem next_bump_of_lt (h : a.nextSlot < a.maxSlots) :
    bump.next a = ⟨{ a with nextSlot := a.nextSlot + 1 }, .idle, some a.nextSlot⟩ :=
  if_neg (UInt64.not_le.mpr h)

end SlotStage

/-- A label of an interleaving. -/
inductive SlotLabel (n : Nat) where
  | begin (i : Fin n) (call : SlotCall)
  | advance (i : Fin n)
  deriving DecidableEq

/-- Threads that share an allocator, and the slots that were allocated and not freed yet. A slot is
given up with the call that frees it. -/
structure SlotThreads (n : Nat) where
  allocator : AtomicAllocator
  stages : Fin n → SlotStage
  outstanding : List UInt64

namespace SlotThreads

variable {n : Nat}

def start (n : Nat) (maxSlots : UInt64) : SlotThreads n := ⟨.new maxSlots, fun _ => .idle, []⟩

/-- The slots that are still outstanding when a call has begun. -/
def keptBy (outstanding : List UInt64) : SlotCall → List UInt64
  | .allocate => outstanding
  | .free slot => outstanding.erase slot

/-- An idle thread takes up a call, or a thread runs its next operation. -/
def step (s : SlotThreads n) : SlotLabel n → SlotThreads n
  | .begin i call =>
    if s.stages i = .idle then
      { s with
        stages := Function.update s.stages i (.begin s.allocator.maxSlots call)
        outstanding := keptBy s.outstanding call }
    else s
  | .advance i =>
    let next := (s.stages i).next s.allocator
    ⟨next.allocator, Function.update s.stages i next.stage, next.handedOut.toList ++ s.outstanding⟩

theorem step_advance (a : AtomicAllocator) (stages : Fin n → SlotStage) (i : Fin n)
    (stage : SlotStage) (outstanding : List UInt64) :
    step ⟨a, Function.update stages i stage, outstanding⟩ (.advance i) =
      ⟨(stage.next a).allocator, Function.update stages i (stage.next a).stage,
        (stage.next a).handedOut.toList ++ outstanding⟩ := by
  simp only [step, Function.update_self, Function.update_idem]

/-- A call that no other thread interrupts is the allocator's own. -/
theorem run_alone {s : SlotThreads n} {i : Fin n} (hi : s.stages i = .idle) (call : SlotCall) :
    Run.run step s [.begin i call, .advance i, .advance i, .advance i] =
      { s with
        allocator := (SlotHistory.step ⟨s.allocator, s.outstanding⟩ call).allocator
        outstanding := (SlotHistory.step ⟨s.allocator, s.outstanding⟩ call).outstanding } := by
  have hstages : Function.update s.stages i .idle = s.stages := hi ▸ Function.update_eq_self ..
  have hbegin : s.step (.begin i call) = ⟨s.allocator,
      Function.update s.stages i (.begin s.allocator.maxSlots call), keptBy s.outstanding call⟩ :=
    if_pos hi
  -- what is left of the three operations finds the thread idle
  have hrest : ∀ a outstanding, step ⟨a, s.stages, outstanding⟩ (.advance i) =
      ⟨a, s.stages, outstanding⟩ := by
    intro a outstanding
    rw [← hstages, step_advance, SlotStage.next_idle]
    rfl
  simp only [Run.run_cons, Run.run_nil, hbegin]
  cases call with
  | allocate =>
    cases hfree : s.allocator.freeSlots with
    | cons slot rest =>
      simp only [SlotStage.begin, step_advance, SlotStage.next_pop_cons hfree, hstages, hrest, keptBy,
        SlotHistory.step, AtomicAllocator.allocate_recycled hfree]
    | nil =>
      by_cases hfull : s.allocator.maxSlots ≤ s.allocator.nextSlot
      · simp only [SlotStage.begin, step_advance, SlotStage.next_pop_nil hfree,
          SlotStage.next_bump_full hfull, SlotStage.next_rollBack, hstages, keptBy, SlotHistory.step,
          AtomicAllocator.allocate_full hfree hfull, Option.toList_none, List.nil_append,
          UInt64.add_sub_cancel]
      · have hlt := UInt64.not_le.mp hfull
        simp only [SlotStage.begin, step_advance, SlotStage.next_pop_nil hfree,
          SlotStage.next_bump_of_lt hlt, hstages, hrest, keptBy, SlotHistory.step,
          AtomicAllocator.allocate_next hfree hlt, Option.toList_none, List.nil_append]
  | free slot =>
    by_cases hlt : slot < s.allocator.maxSlots
    · simp only [SlotStage.begin, if_pos hlt, step_advance, SlotStage.next_push, hstages, hrest, keptBy,
        SlotHistory.step, AtomicAllocator.free, Option.toList_none, List.nil_append]
    · simp only [SlotStage.begin, if_neg hlt, hstages, hrest, keptBy, SlotHistory.step,
        AtomicAllocator.free]

/-- Only an allocated slot is freed. -/
def Allowed (s : SlotThreads n) : SlotLabel n → Prop
  | .begin _ (.free slot) => slot ∈ s.outstanding
  | .begin _ .allocate | .advance _ => True

instance (s : SlotThreads n) : ∀ label, Decidable (s.Allowed label)
  | .begin _ (.free slot) => inferInstanceAs (Decidable (slot ∈ s.outstanding))
  | .begin _ .allocate | .advance _ => isTrue trivial

/-! ## The balance of the slots -/

/-- The first slots of the store, as many as were handed out so far. -/
def firstSlots (handed : Nat) : Multiset UInt64 := (Multiset.range handed).map UInt64.ofNat

theorem firstSlots_succ (handed : Nat) :
    firstSlots (handed + 1) = UInt64.ofNat handed ::ₘ firstSlots handed := by
  rw [firstSlots, Multiset.range_succ, Multiset.map_cons, firstSlots]

theorem mem_firstSlots {handed : Nat} (h : handed < 2 ^ 64) {slot : UInt64} :
    slot ∈ firstSlots handed ↔ slot.toNat < handed := by
  rw [firstSlots, Multiset.mem_map]
  constructor
  · rintro ⟨k, hk, rfl⟩
    have hk' := Multiset.mem_range.mp hk
    rwa [UInt64.toNat_ofNat_of_lt' (hk'.trans h)]
  · intro hslot
    exact ⟨slot.toNat, Multiset.mem_range.mpr hslot, UInt64.ofNat_toNat⟩

/-- What is in the queue, about to be recycled or outstanding. -/
def inUse (s : SlotThreads n) : Multiset UInt64 :=
  s.allocator.freeSlots + (Threads.total SlotStage.recycling s.stages + s.outstanding)

/-- The slots in use are the first ones, each once, and the counter is past them only by the bumps
that are still to be taken back, after the store has run out. -/
structure Balanced (maxSlots : UInt64) (s : SlotThreads n) (handed : Nat) : Prop where
  sameSize : s.allocator.maxSlots = maxSlots
  handed_le : handed ≤ maxSlots.toNat
  inUse : s.inUse = firstSlots handed
  counter : s.allocator.nextSlot =
    UInt64.ofNat (handed + Threads.total SlotStage.overdrawn s.stages)
  full : 0 < Threads.total SlotStage.overdrawn s.stages → handed = maxSlots.toNat

variable {maxSlots : UInt64} {s : SlotThreads n} {handed : Nat}

/-- The bumps past the end never make the counter wrap while a thread is about to bump it. -/
theorem Balanced.toNat_counter (h : Balanced maxSlots s handed) (hthreads : maxSlots.toNat + n ≤ 2 ^ 64)
    {i : Fin n} (hi : (s.stages i).overdrawn = 0) :
    s.allocator.nextSlot.toNat = handed + Threads.total SlotStage.overdrawn s.stages := by
  have hlt := Threads.total_lt SlotStage.overdrawn_le hi
  have hle := h.handed_le
  have hsmall : handed + Threads.total SlotStage.overdrawn s.stages < 2 ^ 64 := by omega
  rw [h.counter, UInt64.toNat_ofNat_of_lt' hsmall]

/-- A thread's operation that changes nothing but what the thread does next. -/
theorem Balanced.moved (h : Balanced maxSlots s handed) {i : Fin n} {stage : SlotStage}
    (hrecycling : stage.recycling = (s.stages i).recycling)
    (hoverdrawn : stage.overdrawn = (s.stages i).overdrawn) :
    Balanced maxSlots { s with stages := Function.update s.stages i stage } handed := by
  refine ⟨h.sameSize, h.handed_le, ?_, ?_, ?_⟩
  · rw [← h.inUse, SlotThreads.inUse, SlotThreads.inUse, Threads.total_update_of_eq hrecycling]
  · rw [Threads.total_update_of_eq hoverdrawn]
    exact h.counter
  · rw [Threads.total_update_of_eq hoverdrawn]
    exact h.full

/-- The queue is popped. -/
theorem Balanced.popped (h : Balanced maxSlots s handed) {i : Fin n} (hi : s.stages i = .pop)
    {slot : UInt64} {rest : List UInt64} (hfree : s.allocator.freeSlots = slot :: rest) :
    Balanced maxSlots ⟨{ s.allocator with freeSlots := rest }, Function.update s.stages i .idle,
      slot :: s.outstanding⟩ handed := by
  have hrecycling := Threads.total_update_of_eq (t := SlotStage.idle)
    (show SlotStage.recycling .idle = (s.stages i).recycling by rw [hi]; rfl)
  have hoverdrawn := Threads.total_update_of_eq (t := SlotStage.idle)
    (show SlotStage.overdrawn .idle = (s.stages i).overdrawn by rw [hi]; rfl)
  refine ⟨h.sameSize, h.handed_le, ?_, ?_, ?_⟩
  · rw [← h.inUse, SlotThreads.inUse, SlotThreads.inUse, hrecycling, hfree]
    simp only [← Multiset.cons_coe, Multiset.add_cons, Multiset.cons_add]
  · rw [hoverdrawn]
    exact h.counter
  · rw [hoverdrawn]
    exact h.full

/-- A slot is taken from the counter. -/
theorem Balanced.bumped (h : Balanced maxSlots s handed) (hthreads : maxSlots.toNat + n ≤ 2 ^ 64)
    {i : Fin n} (hi : s.stages i = .bump) (hlt : s.allocator.nextSlot < s.allocator.maxSlots) :
    Balanced maxSlots ⟨{ s.allocator with nextSlot := s.allocator.nextSlot + 1 },
      Function.update s.stages i .idle, s.allocator.nextSlot :: s.outstanding⟩ (handed + 1) := by
  have hrecycling := Threads.total_update_of_eq (t := SlotStage.idle)
    (show SlotStage.recycling .idle = (s.stages i).recycling by rw [hi]; rfl)
  have hoverdrawn := Threads.total_update_of_eq (t := SlotStage.idle)
    (show SlotStage.overdrawn .idle = (s.stages i).overdrawn by rw [hi]; rfl)
  have hcounter := h.toNat_counter hthreads (i := i) (by rw [hi]; rfl)
  rw [h.sameSize, UInt64.lt_iff_toNat_lt, hcounter] at hlt
  -- before the store has run out the counter is exact
  have hzero : Threads.total SlotStage.overdrawn s.stages = 0 := by
    by_contra hne
    have hfull := h.full (Nat.pos_of_ne_zero hne)
    omega
  have hslot : s.allocator.nextSlot = UInt64.ofNat handed := by rw [h.counter, hzero, Nat.add_zero]
  refine ⟨h.sameSize, by omega, ?_, ?_, ?_⟩
  · rw [firstSlots_succ, ← h.inUse, SlotThreads.inUse, SlotThreads.inUse, hrecycling, ← hslot]
    simp only [← Multiset.cons_coe, Multiset.add_cons]
  · rw [hoverdrawn, hzero, hslot, Nat.add_zero, UInt64.ofNat_add]
    rfl
  · rw [hoverdrawn, hzero]
    exact fun h => absurd h (lt_irrefl 0)

/-- Past the end the counter is bumped all the same. -/
theorem Balanced.overdrew (h : Balanced maxSlots s handed) (hthreads : maxSlots.toNat + n ≤ 2 ^ 64)
    {i : Fin n} (hi : s.stages i = .bump) (hle : s.allocator.maxSlots ≤ s.allocator.nextSlot) :
    handed = maxSlots.toNat ∧
    Balanced maxSlots { s with
      allocator := { s.allocator with nextSlot := s.allocator.nextSlot + 1 }
      stages := Function.update s.stages i .rollBack } handed := by
  have hrecycling := Threads.total_update_of_eq (t := SlotStage.rollBack)
    (show SlotStage.recycling .rollBack = (s.stages i).recycling by rw [hi]; rfl)
  have hcounter := h.toNat_counter hthreads (i := i) (by rw [hi]; rfl)
  rw [h.sameSize, UInt64.le_iff_toNat_le, hcounter] at hle
  have hhanded := h.handed_le
  have hfull : handed = maxSlots.toNat := by
    by_cases hzero : 0 < Threads.total SlotStage.overdrawn s.stages
    · exact h.full hzero
    · omega
  have hold : Threads.total SlotStage.overdrawn s.stages =
      Threads.others SlotStage.overdrawn s.stages i := by
    rw [Threads.total_eq _ _ i, hi]
    exact Nat.zero_add _
  have hnew : Threads.total SlotStage.overdrawn (Function.update s.stages i .rollBack) =
      Threads.others SlotStage.overdrawn s.stages i + 1 :=
    (Threads.total_update ..).trans (Nat.add_comm ..)
  refine ⟨hfull, h.sameSize, h.handed_le, ?_, ?_, fun _ => hfull⟩
  · rw [← h.inUse, SlotThreads.inUse, SlotThreads.inUse, hrecycling]
  · rw [hnew, ← Nat.add_assoc, UInt64.ofNat_add, ← hold, ← h.counter]
    rfl

/-- A bump past the end is taken back. -/
theorem Balanced.rolledBack (h : Balanced maxSlots s handed) {i : Fin n}
    (hi : s.stages i = .rollBack) :
    Balanced maxSlots { s with
      allocator := { s.allocator with nextSlot := s.allocator.nextSlot - 1 }
      stages := Function.update s.stages i .idle } handed := by
  have hrecycling := Threads.total_update_of_eq (t := SlotStage.idle)
    (show SlotStage.recycling .idle = (s.stages i).recycling by rw [hi]; rfl)
  have hold : Threads.total SlotStage.overdrawn s.stages =
      Threads.others SlotStage.overdrawn s.stages i + 1 := by
    rw [Threads.total_eq _ _ i, hi]
    exact Nat.add_comm ..
  have hnew : Threads.total SlotStage.overdrawn (Function.update s.stages i .idle) =
      Threads.others SlotStage.overdrawn s.stages i :=
    (Threads.total_update ..).trans (Nat.zero_add _)
  refine ⟨h.sameSize, h.handed_le, ?_, ?_, fun _ => h.full (hold ▸ Nat.succ_pos _)⟩
  · rw [← h.inUse, SlotThreads.inUse, SlotThreads.inUse, hrecycling]
  · rw [hnew, h.counter, hold, ← Nat.add_assoc, UInt64.ofNat_add]
    exact UInt64.add_sub_cancel ..

/-- A slot is recycled. -/
theorem Balanced.pushed (h : Balanced maxSlots s handed) {i : Fin n} {slot : UInt64}
    (hi : s.stages i = .push slot) :
    Balanced maxSlots { s with
      allocator := { s.allocator with freeSlots := s.allocator.freeSlots ++ [slot] }
      stages := Function.update s.stages i .idle } handed := by
  have hoverdrawn := Threads.total_update_of_eq (t := SlotStage.idle)
    (show SlotStage.overdrawn .idle = (s.stages i).overdrawn by rw [hi]; rfl)
  refine ⟨h.sameSize, h.handed_le, ?_, ?_, ?_⟩
  · have hold := h.inUse
    rw [SlotThreads.inUse, Threads.total_eq _ _ i, hi] at hold
    rw [← hold, SlotThreads.inUse, Threads.total_update]
    change (↑(s.allocator.freeSlots ++ [slot]) : Multiset UInt64) + (0 + _ + _) = _ + ({slot} + _ + _)
    rw [← Multiset.coe_add, Multiset.coe_singleton, zero_add, add_assoc, add_assoc]
  · rw [hoverdrawn]
    exact h.counter
  · rw [hoverdrawn]
    exact h.full

/-- Every operation keeps the balance. -/
theorem Balanced.advance (h : Balanced maxSlots s handed) (hthreads : maxSlots.toNat + n ≤ 2 ^ 64)
    (i : Fin n) : ∃ handed', Balanced maxSlots (s.step (.advance i)) handed' := by
  rw [SlotThreads.step]
  cases hi : s.stages i with
  | idle => exact ⟨handed, h.moved (by rw [hi]; rfl) (by rw [hi]; rfl)⟩
  | pop =>
    cases hfree : s.allocator.freeSlots with
    | cons slot rest =>
      rw [SlotStage.next_pop_cons hfree]
      exact ⟨handed, h.popped hi hfree⟩
    | nil =>
      rw [SlotStage.next_pop_nil hfree]
      exact ⟨handed, h.moved (by rw [hi]; rfl) (by rw [hi]; rfl)⟩
  | bump =>
    by_cases hfull : s.allocator.maxSlots ≤ s.allocator.nextSlot
    · rw [SlotStage.next_bump_full hfull]
      exact ⟨handed, (h.overdrew hthreads hi hfull).2⟩
    · rw [SlotStage.next_bump_of_lt (UInt64.not_le.mp hfull)]
      exact ⟨handed + 1, h.bumped hthreads hi (UInt64.not_le.mp hfull)⟩
  | rollBack => exact ⟨handed, h.rolledBack hi⟩
  | push slot => exact ⟨handed, h.pushed hi⟩

/-- An outstanding slot lies inside the store. -/
theorem Balanced.lt (h : Balanced maxSlots s handed) {slot : UInt64} (hslot : slot ∈ s.inUse) :
    slot < maxSlots := by
  have hsmall := h.handed_le.trans_lt maxSlots.toNat_lt
  rw [h.inUse, mem_firstSlots hsmall] at hslot
  exact UInt64.lt_iff_toNat_lt.mpr (hslot.trans_le h.handed_le)

theorem mem_inUse_of_mem_outstanding {slot : UInt64} (h : slot ∈ s.outstanding) : slot ∈ s.inUse :=
  Multiset.mem_add.mpr (.inr (Multiset.mem_add.mpr (.inr h)))

/-- A call that begins gives up the slot it is about to recycle. -/
theorem Balanced.begin (h : Balanced maxSlots s handed) {i : Fin n} {call : SlotCall}
    (hallowed : s.Allowed (.begin i call)) : Balanced maxSlots (s.step (.begin i call)) handed := by
  rw [SlotThreads.step]
  split_ifs with hidle
  · cases call with
    | allocate => exact h.moved (by rw [hidle]; rfl) (by rw [hidle]; rfl)
    | free slot =>
      have hlt := h.lt (mem_inUse_of_mem_outstanding hallowed)
      have hbegin : SlotStage.begin s.allocator.maxSlots (.free slot) = .push slot :=
        if_pos (h.sameSize.symm ▸ hlt)
      have hoverdrawn := Threads.total_update_of_eq (t := SlotStage.push slot)
        (show SlotStage.overdrawn (.push slot) = (s.stages i).overdrawn by rw [hidle]; rfl)
      rw [hbegin]
      refine ⟨h.sameSize, h.handed_le, ?_, ?_, ?_⟩
      · have hold := h.inUse
        have hout : (s.outstanding : Multiset UInt64) = {slot} + ↑(s.outstanding.erase slot) :=
          Multiset.coe_eq_coe.mpr (List.perm_cons_erase hallowed)
        rw [SlotThreads.inUse, Threads.total_eq _ _ i, hidle, hout] at hold
        rw [← hold, SlotThreads.inUse, Threads.total_update]
        change (s.allocator.freeSlots : Multiset UInt64) + ({slot} + _ + ↑(s.outstanding.erase slot)) =
          _ + (0 + _ + ({slot} + _))
        rw [zero_add, add_assoc, add_left_comm ({slot} : Multiset UInt64)]
      · rw [hoverdrawn]
        exact h.counter
      · rw [hoverdrawn]
        exact h.full
  · exact h

/-- Every label keeps the balance. -/
theorem Balanced.step (h : Balanced maxSlots s handed) (hthreads : maxSlots.toNat + n ≤ 2 ^ 64)
    {label : SlotLabel n} (hallowed : s.Allowed label) :
    ∃ handed', Balanced maxSlots (s.step label) handed' := by
  cases label with
  | begin i call => exact ⟨handed, h.begin hallowed⟩
  | advance i => exact h.advance hthreads i

end SlotThreads

end Animaksm.Proxy

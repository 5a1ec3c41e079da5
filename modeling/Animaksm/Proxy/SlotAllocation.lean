import Mathlib.Data.UInt
import Mathlib.Data.List.Perm.Basic
import Animaksm.Lib.Run
import Animaksm.Proxy.Backend

/-!
# The slots of any history

The atomic counter of the allocator is bumped first and rolled back when it was past
the end, so for a moment it may wrap. Between calls it stays within the store, and
the allocator does what the allocator over natural numbers does. There the recycled
slots and the outstanding ones are together the slots handed out so far.
-/

namespace Animaksm.Proxy

/-- The allocator with its 64-bit counter. -/
structure AtomicAllocator where
  /-- Queue of recycled slots. -/
  freeSlots : List UInt64
  nextSlot : UInt64
  maxSlots : UInt64

namespace AtomicAllocator

def new (maxSlots : UInt64) : AtomicAllocator := ⟨[], 0, maxSlots⟩

/-- Pop a recycled slot, or else bump the counter, and undo it past the end. -/
def allocate (a : AtomicAllocator) : Option UInt64 × AtomicAllocator :=
  match a.freeSlots with
  | slot :: rest => (some slot, { a with freeSlots := rest })
  | [] =>
    let slot := a.nextSlot
    let a := { a with nextSlot := a.nextSlot + 1 }
    if slot ≥ a.maxSlots then (none, { a with nextSlot := a.nextSlot - 1 })
    else (some slot, a)

/-- Recycle a slot of the store. -/
def free (a : AtomicAllocator) (slot : UInt64) : AtomicAllocator :=
  if slot < a.maxSlots then { a with freeSlots := a.freeSlots ++ [slot] } else a

/-- The allocator over natural numbers with the same contents. -/
structure Represents (a : AtomicAllocator) (s : SlotAllocator) : Prop where
  freeSlots : s.freeSlots = a.freeSlots.map UInt64.toNat
  nextSlot : s.nextSlot = a.nextSlot.toNat
  maxSlots : s.maxSlots = a.maxSlots.toNat

theorem represents_new (maxSlots : UInt64) :
    Represents (new maxSlots) (SlotAllocator.new maxSlots.toNat) :=
  ⟨rfl, rfl, rfl⟩

variable {a : AtomicAllocator} {s : SlotAllocator}

theorem allocate_recycled {slot : UInt64} {rest : List UInt64} (h : a.freeSlots = slot :: rest) :
    a.allocate = (some slot, { a with freeSlots := rest }) := by
  rw [allocate, h]

theorem allocate_next (h : a.freeSlots = []) (hlt : a.nextSlot < a.maxSlots) :
    a.allocate = (some a.nextSlot, { a with nextSlot := a.nextSlot + 1 }) := by
  rw [allocate, h]
  exact if_neg (UInt64.not_le.mpr hlt)

/-- Past the end the counter is rolled back, even where it has wrapped. -/
theorem allocate_full (h : a.freeSlots = []) (hle : a.maxSlots ≤ a.nextSlot) :
    a.allocate = (none, a) := by
  rw [allocate, h]
  refine (if_pos hle).trans ?_
  rw [UInt64.add_sub_cancel, ← h]

@[simp] theorem maxSlots_allocate (a : AtomicAllocator) : a.allocate.2.maxSlots = a.maxSlots := by
  unfold allocate
  split
  · rfl
  · dsimp only
    split <;> rfl

@[simp] theorem maxSlots_free (a : AtomicAllocator) (slot : UInt64) :
    (a.free slot).maxSlots = a.maxSlots := by
  unfold free
  split <;> rfl

/-- A failed allocation leaves the allocator as it was. -/
theorem allocate_none (h : a.allocate.1 = none) : a.allocate.2 = a := by
  cases hfree : a.freeSlots with
  | cons slot rest =>
    rw [allocate_recycled hfree] at h
    exact absurd h (Option.some_ne_none slot)
  | nil =>
    by_cases hle : a.maxSlots ≤ a.nextSlot
    · rw [allocate_full hfree hle]
    · rw [allocate_next hfree (UInt64.not_le.mp hle)] at h
      exact absurd h (Option.some_ne_none _)

/-- Allocations agree. -/
theorem Represents.allocate (h : a.Represents s) :
    s.allocate.1 = a.allocate.1.map UInt64.toNat ∧ a.allocate.2.Represents s.allocate.2 := by
  have hfree := h.freeSlots
  have hnext := h.nextSlot
  have hmax := h.maxSlots
  have hbound := a.maxSlots.toNat_lt
  rcases s.allocate_cases with ⟨slot, rest, hs, hslot, hrest, hnext'⟩ |
    ⟨hs, hlt, hslot, hrest, hnext'⟩ | ⟨hs, hfull, hnone⟩
  · rw [hs] at hfree
    obtain ⟨first, others, ha, rfl, rfl⟩ := List.map_eq_cons_iff.mp hfree.symm
    rw [allocate_recycled ha, hslot]
    exact ⟨rfl, hrest, hnext'.trans hnext, (s.maxSlots_allocate).trans hmax⟩
  · rw [hs] at hfree
    have ha : a.freeSlots = [] := List.map_eq_nil_iff.mp hfree.symm
    rw [hnext, hmax] at hlt
    rw [allocate_next ha (UInt64.lt_iff_toNat_lt.mpr hlt), hslot, hnext]
    refine ⟨rfl, ?_, ?_, (s.maxSlots_allocate).trans hmax⟩
    · rw [hrest, ha, List.map_nil]
    · rw [hnext', hnext, UInt64.toNat_add]
      exact (Nat.mod_eq_of_lt (lt_of_le_of_lt hlt hbound)).symm
  · rw [hs] at hfree
    have ha : a.freeSlots = [] := List.map_eq_nil_iff.mp hfree.symm
    rw [hnext, hmax] at hfull
    rw [hnone, allocate_full ha (UInt64.le_iff_toNat_le.mpr hfull)]
    exact ⟨rfl, h⟩

/-- Recycled slots agree. -/
theorem Represents.free (h : a.Represents s) (slot : UInt64) :
    (a.free slot).Represents (s.free slot.toNat) := by
  have hmax := h.maxSlots
  unfold AtomicAllocator.free SlotAllocator.free
  by_cases hlt : slot < a.maxSlots
  · rw [if_pos hlt, dif_pos (hmax ▸ UInt64.lt_iff_toNat_lt.mp hlt)]
    refine ⟨?_, h.nextSlot, hmax⟩
    rw [List.map_append, ← h.freeSlots]
    rfl
  · rw [if_neg hlt, dif_neg fun hs => hlt (UInt64.lt_iff_toNat_lt.mpr (hmax ▸ hs))]
    exact h

end AtomicAllocator

/-! ## What is handed out -/

/-- The slots handed out so far are recycled or outstanding, each once. -/
def SlotAllocator.Partition (s : SlotAllocator) (outstanding : List Nat) : Prop :=
  (s.freeSlots ++ outstanding).Perm (List.range s.nextSlot)

namespace SlotAllocator

variable {s : SlotAllocator} {outstanding : List Nat}

theorem partition_new (maxSlots : Nat) : (new maxSlots).Partition [] := List.Perm.nil

/-- An allocated slot becomes outstanding. -/
theorem Partition.allocate (h : s.Partition outstanding) :
    s.allocate.2.Partition (s.allocate.1.toList ++ outstanding) := by
  rcases s.allocate_cases with ⟨slot, rest, hfree, hslot, hrest, hnext⟩ |
    ⟨hfree, -, hslot, hrest, hnext⟩ | ⟨-, -, hfull⟩
  · rw [Partition, hslot, hrest, hnext]
    rw [Partition, hfree] at h
    exact List.perm_middle.trans h
  · rw [Partition, hslot, hrest, hnext, List.range_succ]
    rw [Partition, hfree] at h
    have hcomm : ([s.nextSlot] ++ outstanding).Perm (outstanding ++ [s.nextSlot]) :=
      List.perm_append_comm
    exact hcomm.trans (h.append_right [s.nextSlot])
  · rw [hfull]
    exact h

/-- An outstanding slot that is freed is recycled. -/
theorem Partition.free (h : s.Partition outstanding) {slot : Nat} (hslot : slot ∈ outstanding) :
    (s.free slot).Partition (outstanding.erase slot) := by
  have hmem : slot ∈ List.range s.nextSlot := h.mem_iff.mp (List.mem_append_right _ hslot)
  have hlt : slot < s.maxSlots := (List.mem_range.mp hmem).trans_le s.nextSlot_le
  rw [Partition, freeSlots_free hlt, nextSlot_free, List.append_assoc]
  exact ((List.perm_cons_erase hslot).symm.append_left _).trans h

theorem Partition.nodup (h : s.Partition outstanding) : outstanding.Nodup :=
  (List.nodup_append'.mp (h.nodup_iff.mpr List.nodup_range)).2.1

theorem Partition.lt (h : s.Partition outstanding) : ∀ slot ∈ outstanding, slot < s.maxSlots :=
  fun _ hslot => (List.mem_range.mp (h.mem_iff.mp (List.mem_append_right _ hslot))).trans_le s.nextSlot_le

/-- Nothing is left to allocate exactly when as many slots are outstanding as the store has. -/
theorem Partition.allocate_eq_none_iff (h : s.Partition outstanding) :
    s.allocate.1 = none ↔ outstanding.length = s.maxSlots := by
  have hlength := h.length_eq
  rw [List.length_append, List.length_range] at hlength
  have hle := s.nextSlot_le
  rcases s.allocate_cases with ⟨slot, rest, hfree, hslot, -⟩ | ⟨-, hlt, hslot, -⟩ | ⟨hfree, hfull, hnone⟩
  · rw [hfree, List.length_cons] at hlength
    rw [hslot]
    exact ⟨fun heq => absurd heq (Option.some_ne_none _), fun heq => by omega⟩
  · rw [hslot]
    exact ⟨fun heq => absurd heq (Option.some_ne_none _), fun heq => by omega⟩
  · rw [hfree, List.length_nil] at hlength
    rw [hnone]
    exact ⟨fun _ => by omega, fun _ => rfl⟩

end SlotAllocator

/-! ## Histories -/

/-- A call on the allocator. -/
inductive SlotCall where
  | allocate
  | free (slot : UInt64)
  deriving DecidableEq

/-- The allocator with the slots that are allocated and not freed yet. -/
structure SlotHistory where
  allocator : AtomicAllocator
  outstanding : List UInt64

namespace SlotHistory

def start (maxSlots : UInt64) : SlotHistory := ⟨.new maxSlots, []⟩

def step (s : SlotHistory) : SlotCall → SlotHistory
  | .allocate => ⟨s.allocator.allocate.2, s.allocator.allocate.1.toList ++ s.outstanding⟩
  | .free slot => ⟨s.allocator.free slot, s.outstanding.erase slot⟩

/-- Only an allocated slot is freed. -/
def Allowed (s : SlotHistory) : SlotCall → Prop
  | .allocate => True
  | .free slot => slot ∈ s.outstanding

instance (s : SlotHistory) : ∀ call, Decidable (s.Allowed call)
  | .allocate => isTrue trivial
  | .free slot => inferInstanceAs (Decidable (slot ∈ s.outstanding))

/-- The recycled and the outstanding slots are those handed out by an allocator that never wraps. -/
def Partitioned (maxSlots : UInt64) (s : SlotHistory) : Prop :=
  s.allocator.maxSlots = maxSlots ∧ ∃ allocator : SlotAllocator,
    s.allocator.Represents allocator ∧ allocator.Partition (s.outstanding.map UInt64.toNat)

variable {maxSlots : UInt64} {s : SlotHistory}

theorem partitioned_start (maxSlots : UInt64) : Partitioned maxSlots (start maxSlots) :=
  ⟨rfl, .new maxSlots.toNat, AtomicAllocator.represents_new maxSlots,
    SlotAllocator.partition_new maxSlots.toNat⟩

theorem Partitioned.step (h : Partitioned maxSlots s) (call : SlotCall) (hcall : s.Allowed call) :
    Partitioned maxSlots (s.step call) := by
  obtain ⟨hmax, allocator, hrep, hpart⟩ := h
  cases call with
  | allocate =>
    obtain ⟨hslot, hrep'⟩ := hrep.allocate
    refine ⟨(AtomicAllocator.maxSlots_allocate _).trans hmax, _, hrep', ?_⟩
    have hpart' := hpart.allocate
    rw [hslot, Option.toList_map, ← List.map_append] at hpart'
    exact hpart'
  | free slot =>
    refine ⟨(AtomicAllocator.maxSlots_free _ _).trans hmax, _, hrep.free slot, ?_⟩
    have hpart' := hpart.free (List.mem_map_of_mem hcall)
    rw [← List.map_erase fun _ _ => UInt64.toNat_inj.mp] at hpart'
    exact hpart'

/-- In every history in which only allocated slots are freed, the outstanding slots are distinct and
inside the store, an allocation fails exactly when all slots are outstanding, a failed one changes
nothing, and the counter stays within the store. -/
theorem run_distinct {calls : List SlotCall}
    (hcalls : Run.Along SlotHistory.step Allowed (start maxSlots) calls) :
    let s := Run.run SlotHistory.step (start maxSlots) calls
    s.outstanding.Nodup ∧ (∀ slot ∈ s.outstanding, slot < maxSlots) ∧
    (s.allocator.allocate.1 = none ↔ s.outstanding.length = maxSlots.toNat) ∧
    (s.allocator.allocate.1 = none → s.allocator.allocate.2 = s.allocator) ∧
    s.allocator.nextSlot ≤ maxSlots := by
  intro s
  obtain ⟨hmax, allocator, hrep, hpart⟩ : Partitioned maxSlots s :=
    hcalls.invariant (fun _ call h => h.step call) (partitioned_start maxSlots)
  have hmaxNat : allocator.maxSlots = maxSlots.toNat := hmax ▸ hrep.maxSlots
  refine ⟨hpart.nodup.of_map, fun slot hslot => ?_, ?_, AtomicAllocator.allocate_none, ?_⟩
  · have hlt := hpart.lt _ (List.mem_map_of_mem hslot)
    exact UInt64.lt_iff_toNat_lt.mpr (hmaxNat ▸ hlt)
  · have hiff := hpart.allocate_eq_none_iff
    rw [hrep.allocate.1, Option.map_eq_none_iff, List.length_map, hmaxNat] at hiff
    exact hiff
  · have hle := allocator.nextSlot_le
    rw [hrep.nextSlot, hmaxNat] at hle
    exact UInt64.le_iff_toNat_le.mpr hle

/-- A store of two slots is filled, refuses a third, and hands out the freed one again. -/
def refilled : List SlotCall := [.allocate, .allocate, .allocate, .free 0, .allocate]

theorem run_distinct_refilled :
    (Run.run SlotHistory.step (start 2) refilled).outstanding.Nodup :=
  have hcalls : Run.Along SlotHistory.step Allowed (start 2) refilled := by decide
  (run_distinct hcalls).1

end SlotHistory

end Animaksm.Proxy

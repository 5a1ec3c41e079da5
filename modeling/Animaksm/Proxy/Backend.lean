import Animaksm.Lib.FiniteMap
import Animaksm.Proxy.Fingerprint

/-!
# Backend storage

The page store is a byte file read and written one slot at a time; what the
operating system does with an access is an explicit outcome. The slot allocator
recycles slots first in, first out. The translation table maps virtual offsets
to the slots that hold their data.
-/

namespace Animaksm.Proxy

/-- How the operating system carries out one file access. -/
inductive IoOutcome where
  /-- The access completes. -/
  | done
  /-- The access fails, a write after this many bytes have reached the file. -/
  | failed (written : Nat)
  deriving DecidableEq

/-- A file, as its length and its bytes; bytes past the end are never looked at. -/
structure File where
  size : Nat
  byte : Nat → UInt8

/-- Write bytes at an offset; a gap past the old end reads as zeros. -/
def File.writeAt (f : File) (off : Nat) (data : List UInt8) : File :=
  if data.isEmpty then f
  else
    { size := max f.size (off + data.length)
      byte := fun i =>
        let old := if i < f.size then f.byte i else 0
        if off ≤ i then data[i - off]?.getD old else old }

/-- Read exactly this many bytes, or fail at the end of the file. -/
def File.readExact (f : File) (off len : Nat) : Option (List UInt8) :=
  if off + len ≤ f.size then some ((List.range' off len).map f.byte) else none

theorem File.length_readExact {f : File} {off len : Nat} {bytes : List UInt8}
    (h : f.readExact off len = some bytes) : bytes.length = len := by
  unfold readExact at h
  split at h
  · cases h
    simp
  · cases h

/-- Errors of the storage engine. -/
inductive EngineError where
  /-- No slot is left to allocate. -/
  | storeFull
  /-- The slot is not part of the store. -/
  | slotOutOfRange (slot max : Nat)
  /-- The operating system failed a file access. -/
  | io
  deriving DecidableEq

/-- The text of an error; that of an I/O error is the operating system's own. -/
def EngineError.message (osError : String) : EngineError → String
  | .storeFull => "page store is full"
  | .slotOutOfRange slot max =>
      "Slot " ++ toString slot ++ " out of range (max " ++ toString max ++ ")"
  | .io => osError

/-- A backend page store over a file. The number of slots is a `u64` byte count
divided by the page size, so every slot has a `u64` byte offset. -/
structure PageStore where
  file : File
  /-- Total number of page slots available. -/
  totalSlots : Nat
  pagesWritten : UInt64
  pagesRead : UInt64
  /-- The byte capacity is a `u64`. -/
  capacity_lt : totalSlots * pageSize < 2 ^ 64

/-- Byte offset of a slot, in `u64` arithmetic. -/
def slotOffset (slot : Nat) : Nat := slot * pageSize % 2 ^ 64

/-- Write a page to the given slot, cut or padded to the page size. -/
def PageStore.writePage (s : PageStore) (io : IoOutcome) (slot : Nat) (data : List UInt8) :
    Except EngineError Unit × PageStore :=
  if s.totalSlots ≤ slot then (.error (.slotOutOfRange slot s.totalSlots), s)
  else
    match io with
    | .done =>
      (.ok (), { s with
        file := s.file.writeAt (slotOffset slot) (normalizePage data).bytes
        pagesWritten := s.pagesWritten + 1 })
    | .failed written =>
      (.error .io, { s with
        file := s.file.writeAt (slotOffset slot) ((normalizePage data).bytes.take written) })

/-- The page a slot holds, unless the slot is out of range or ends past the file. -/
def PageStore.pageAt (s : PageStore) (slot : Nat) : Option Page :=
  if s.totalSlots ≤ slot then none
  else
    match h : s.file.readExact (slotOffset slot) pageSize with
    | some bytes => some ⟨bytes, File.length_readExact h⟩
    | none => none

/-- Read a page from the given slot. -/
def PageStore.readPage (s : PageStore) (io : IoOutcome) (slot : Nat) :
    Except EngineError Page × PageStore :=
  if s.totalSlots ≤ slot then (.error (.slotOutOfRange slot s.totalSlots), s)
  else
    match io, s.pageAt slot with
    | .done, some page => (.ok page, { s with pagesRead := s.pagesRead + 1 })
    | _, _ => (.error .io, s)

/-- Allocates backend page slots. Only slots of the store are ever recycled. -/
structure SlotAllocator where
  /-- Queue of recycled slots. -/
  freeSlots : List Nat
  /-- First slot never handed out. -/
  nextSlot : Nat
  maxSlots : Nat
  /-- A failed allocation leaves the counter where it was. -/
  nextSlot_le : nextSlot ≤ maxSlots
  /-- Slots outside the store are not recycled. -/
  freeSlots_lt : ∀ slot ∈ freeSlots, slot < maxSlots

/-- An allocator with every slot untouched. -/
def SlotAllocator.new (maxSlots : Nat) : SlotAllocator where
  freeSlots := []
  nextSlot := 0
  maxSlots := maxSlots
  nextSlot_le := Nat.zero_le _
  freeSlots_lt := by simp

/-- Pop a recycled slot, or else take the next one; past the end the counter's
increment is undone. -/
def SlotAllocator.allocate (a : SlotAllocator) : Option Nat × SlotAllocator :=
  match h : a.freeSlots with
  | slot :: rest =>
    (some slot, { a with
      freeSlots := rest
      freeSlots_lt := fun s hs => a.freeSlots_lt s (h ▸ List.mem_cons_of_mem slot hs) })
  | [] =>
    if hn : a.nextSlot < a.maxSlots then
      (some a.nextSlot, { a with nextSlot := a.nextSlot + 1, nextSlot_le := hn })
    else (none, a)

/-- Recycle a slot of the store. -/
def SlotAllocator.free (a : SlotAllocator) (slot : Nat) : SlotAllocator :=
  if h : slot < a.maxSlots then
    { a with
      freeSlots := a.freeSlots ++ [slot]
      freeSlots_lt := by
        intro s hs
        rcases List.mem_append.mp hs with hs | hs
        · exact a.freeSlots_lt s hs
        · rw [List.mem_singleton.mp hs]
          exact h }
  else a

/-- Mapping mode of a translation. -/
inductive MappingKind where
  /-- Page was stored directly without entering the dedup table. -/
  | direct
  /-- Page is dedup-table tracked unless its metadata was later evicted. -/
  | deduplicated (fingerprint : Fingerprint)
  deriving DecidableEq

/-- Where the data of one virtual offset lives. -/
structure TranslationEntry where
  kind : MappingKind
  /-- Backend slot where the actual data lives. -/
  backendSlot : Nat
  deriving DecidableEq

/-- A translation to a private slot. -/
def TranslationEntry.direct (slot : Nat) : TranslationEntry := ⟨.direct, slot⟩

/-- A translation to a slot shared under a fingerprint. -/
def TranslationEntry.deduplicated (fp : Fingerprint) (slot : Nat) : TranslationEntry :=
  ⟨.deduplicated fp, slot⟩

/-- Translations of the active virtual offsets. -/
abbrev TranslationTable := Finmap fun _ : UInt64 => TranslationEntry

/-! ## The allocator -/

/-- An allocation pops the oldest recycled slot, or takes the next one, or finds the
store full and changes nothing. -/
theorem SlotAllocator.allocate_cases (a : SlotAllocator) :
    (∃ slot rest, a.freeSlots = slot :: rest ∧ a.allocate.1 = some slot ∧
      a.allocate.2.freeSlots = rest ∧ a.allocate.2.nextSlot = a.nextSlot) ∨
    (a.freeSlots = [] ∧ a.nextSlot < a.maxSlots ∧ a.allocate.1 = some a.nextSlot ∧
      a.allocate.2.freeSlots = [] ∧ a.allocate.2.nextSlot = a.nextSlot + 1) ∨
    (a.freeSlots = [] ∧ a.maxSlots ≤ a.nextSlot ∧ a.allocate = (none, a)) := by
  unfold allocate
  split
  · next slot rest h => exact Or.inl ⟨slot, rest, h, rfl, rfl, rfl⟩
  · next h =>
    split
    · next hn => exact Or.inr (Or.inl ⟨h, hn, rfl, h, rfl⟩)
    · next hn => exact Or.inr (Or.inr ⟨h, Nat.le_of_not_lt hn, rfl⟩)

@[simp] theorem SlotAllocator.maxSlots_allocate (a : SlotAllocator) :
    a.allocate.2.maxSlots = a.maxSlots := by
  unfold allocate
  split
  · rfl
  · split <;> rfl

/-- A slot of the store joins the queue of recycled slots. -/
theorem SlotAllocator.freeSlots_free {a : SlotAllocator} {slot : Nat} (h : slot < a.maxSlots) :
    (a.free slot).freeSlots = a.freeSlots ++ [slot] := by
  rw [free, dif_pos h]

@[simp] theorem SlotAllocator.nextSlot_free (a : SlotAllocator) (slot : Nat) :
    (a.free slot).nextSlot = a.nextSlot := by
  unfold free
  split <;> rfl

@[simp] theorem SlotAllocator.maxSlots_free (a : SlotAllocator) (slot : Nat) :
    (a.free slot).maxSlots = a.maxSlots := by
  unfold free
  split <;> rfl

/-! ## Slots as an array of pages -/

/-- Slots of the store have their exact byte offset. -/
theorem PageStore.slotOffset_eq (s : PageStore) {slot : Nat} (h : slot < s.totalSlots) :
    slotOffset slot = slot * pageSize := by
  refine Nat.mod_eq_of_lt (lt_of_le_of_lt ?_ s.capacity_lt)
  exact Nat.mul_le_mul_right _ h.le

theorem PageStore.pageAt_eq_some {s : PageStore} {slot : Nat} {page : Page} :
    s.pageAt slot = some page ↔ slot < s.totalSlots ∧ (slot + 1) * pageSize ≤ s.file.size ∧
      page.bytes = (List.range' (slot * pageSize) pageSize).map s.file.byte := by
  unfold pageAt
  by_cases hslot : s.totalSlots ≤ slot
  · simp [hslot]
  · have hlt : slot < s.totalSlots := Nat.lt_of_not_le hslot
    rw [if_neg hslot]
    split
    · next bytes h =>
      simp only [File.readExact, s.slotOffset_eq hlt] at h
      split at h
      · next hsize =>
        cases h
        simp only [Option.some.injEq, Page.ext_iff, hlt, true_and, Nat.succ_mul, hsize]
        exact eq_comm
      · cases h
    · next h =>
      simp only [File.readExact, s.slotOffset_eq hlt] at h
      split at h
      · cases h
      · next hsize => simp [Nat.succ_mul, hsize]

/-- A write never shortens the file. -/
theorem File.size_le_writeAt (f : File) (off : Nat) (data : List UInt8) :
    f.size ≤ (f.writeAt off data).size := by
  unfold writeAt
  split
  · exact le_rfl
  · exact le_max_left _ _

/-- Bytes of the file that a write does not reach keep their value. -/
theorem File.byte_writeAt_outside {f : File} {off i : Nat} {data : List UInt8} (hi : i < f.size)
    (h : i < off ∨ off + data.length ≤ i) : (f.writeAt off data).byte i = f.byte i := by
  unfold writeAt
  split
  · rfl
  · rcases h with h | h
    · simp [hi, show ¬ off ≤ i by omega]
    · have hnone : data[i - off]? = none := List.getElem?_eq_none (by omega)
      simp [hi, show off ≤ i by omega, hnone]

/-- Bytes that a write reaches take the written value. -/
theorem File.byte_writeAt_inside {f : File} {off j : Nat} {data : List UInt8}
    (h : j < data.length) : (f.writeAt off data).byte (off + j) = data[j] := by
  have hne : data.isEmpty = false := by
    cases data with
    | nil => exact absurd h (Nat.not_lt_zero j)
    | cons _ _ => rfl
  simp [writeAt, hne, h]

/-- The image that reaches the file on a write is at most one page long. -/
private theorem length_take_bytes_le (page : Page) (written : Nat) :
    (page.bytes.take written).length ≤ pageSize := by
  rw [List.length_take, page.length_bytes]
  exact min_le_right _ _

/-- A completed write is read back. -/
theorem PageStore.pageAt_writePage_self {s : PageStore} {slot : Nat} (data : List UInt8)
    (h : slot < s.totalSlots) :
    (s.writePage .done slot data).2.pageAt slot = some (normalizePage data) := by
  have hlen := (normalizePage data).length_bytes
  have hne : (normalizePage data).bytes.isEmpty = false := by
    rw [List.isEmpty_eq_false_iff_exists_mem]
    refine ⟨_, List.getElem_mem (l := (normalizePage data).bytes) (n := 0) ?_⟩
    rw [hlen]
    decide
  rw [pageAt_eq_some]
  simp only [writePage, show ¬ s.totalSlots ≤ slot by omega, if_false, s.slotOffset_eq h]
  refine ⟨h, ?_, ?_⟩
  · simp only [File.writeAt, hne, Bool.false_eq_true, if_false, hlen, Nat.succ_mul]
    exact le_max_right _ _
  · apply List.ext_getElem
    · simp
    · intro j hj _
      simp [File.byte_writeAt_inside hj]

/-- An access that completes on a slot of the store is a successful write. -/
theorem PageStore.writePage_done {s : PageStore} {slot : Nat} (h : slot < s.totalSlots)
    (data : List UInt8) : (s.writePage .done slot data).1 = .ok () := by
  simp [writePage, show ¬ s.totalSlots ≤ slot by omega]

/-- Slot accesses never report a full store. -/
theorem PageStore.writePage_ne_storeFull (s : PageStore) (io : IoOutcome) (slot : Nat)
    (data : List UInt8) : (s.writePage io slot data).1 ≠ .error .storeFull := by
  unfold writePage
  split
  · simp
  · cases io <;> simp

theorem PageStore.readPage_ne_storeFull (s : PageStore) (io : IoOutcome) (slot : Nat) :
    (s.readPage io slot).1 ≠ .error .storeFull := by
  unfold readPage
  split
  · simp
  · split <;> simp

/-- A write that reports success is read back. -/
theorem PageStore.pageAt_of_writePage {s : PageStore} {io : IoOutcome} {slot : Nat} {page : Page}
    (h : (s.writePage io slot page.bytes).1 = .ok ()) :
    (s.writePage io slot page.bytes).2.pageAt slot = some page := by
  cases io with
  | done =>
    by_cases hslot : s.totalSlots ≤ slot
    · simp [writePage, hslot] at h
    · rw [pageAt_writePage_self _ (Nat.lt_of_not_le hslot), normalizePage_bytes]
  | failed written =>
    unfold writePage at h
    split at h <;> cases h

/-- A write, completed or not, leaves the page of every other slot as it was. -/
theorem PageStore.pageAt_writePage_of_ne {s : PageStore} {slot other : Nat} {page : Page}
    (io : IoOutcome) (data : List UInt8) (hne : other ≠ slot) (h : s.pageAt other = some page) :
    (s.writePage io slot data).2.pageAt other = some page := by
  have hwrite : ∀ bytes : List UInt8, bytes.length ≤ pageSize → slot < s.totalSlots →
      other < s.totalSlots ∧
        (other + 1) * pageSize ≤ (s.file.writeAt (slotOffset slot) bytes).size ∧
        page.bytes = (List.range' (other * pageSize) pageSize).map
          (s.file.writeAt (slotOffset slot) bytes).byte := by
    intro bytes hbytes hslot
    obtain ⟨hlt, hsize, hpage⟩ := pageAt_eq_some.mp h
    refine ⟨hlt, hsize.trans (File.size_le_writeAt _ _ _), ?_⟩
    rw [hpage]
    apply List.map_congr_left
    intro i hi
    rw [List.mem_range'_1] at hi
    rw [s.slotOffset_eq hslot]
    refine (File.byte_writeAt_outside ?_ ?_).symm
    · rw [Nat.succ_mul] at hsize
      omega
    · -- the two slots are whole pages apart
      rcases Nat.lt_or_gt_of_ne hne with hlt | hgt
      · have := Nat.mul_le_mul_right pageSize (Nat.succ_le_of_lt hlt)
        rw [Nat.succ_mul] at this
        omega
      · have := Nat.mul_le_mul_right pageSize (Nat.succ_le_of_lt hgt)
        rw [Nat.succ_mul] at this
        omega
  unfold writePage
  split
  · exact h
  · next hslot =>
    have hslot' : slot < s.totalSlots := Nat.lt_of_not_le hslot
    cases io with
    | done =>
      rw [pageAt_eq_some]
      exact hwrite _ (normalizePage data).length_bytes.le hslot'
    | failed written =>
      rw [pageAt_eq_some]
      exact hwrite _ (length_take_bytes_le _ _) hslot'

/-- Writes never change the number of slots. -/
@[simp] theorem PageStore.totalSlots_writePage (s : PageStore) (io : IoOutcome) (slot : Nat)
    (data : List UInt8) : (s.writePage io slot data).2.totalSlots = s.totalSlots := by
  unfold writePage
  split
  · rfl
  · cases io <;> rfl

/-- A read only counts. -/
theorem PageStore.readPage_frame (s : PageStore) (io : IoOutcome) (slot : Nat) :
    ∃ count, (s.readPage io slot).2 = { s with pagesRead := count } := by
  unfold readPage
  split
  · exact ⟨_, rfl⟩
  · split <;> exact ⟨_, rfl⟩

@[simp] theorem PageStore.totalSlots_readPage (s : PageStore) (io : IoOutcome) (slot : Nat) :
    (s.readPage io slot).2.totalSlots = s.totalSlots := by
  obtain ⟨_, h⟩ := s.readPage_frame io slot
  rw [h]

@[simp] theorem PageStore.pageAt_readPage (s : PageStore) (io : IoOutcome) (slot other : Nat) :
    (s.readPage io slot).2.pageAt other = s.pageAt other := by
  obtain ⟨_, h⟩ := s.readPage_frame io slot
  rw [h]
  rfl

/-- Every page a read returns is the page of the slot. -/
theorem PageStore.pageAt_of_readPage {s : PageStore} {io : IoOutcome} {slot : Nat} {page : Page}
    (h : (s.readPage io slot).1 = .ok page) : s.pageAt slot = some page := by
  unfold readPage at h
  split at h
  · cases h
  · split at h
    · next hp =>
      cases h
      exact hp
    · cases h

/-- A slot that holds a page is read without error when the access completes. -/
theorem PageStore.readPage_done {s : PageStore} {slot : Nat} {page : Page}
    (h : s.pageAt slot = some page) : (s.readPage .done slot).1 = .ok page := by
  have hlt := (pageAt_eq_some.mp h).1
  simp [readPage, show ¬ s.totalSlots ≤ slot by omega, h]

end Animaksm.Proxy

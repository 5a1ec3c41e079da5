import Mathlib.Data.UInt
import Animaksm.Lib.FlatMemory
import Animaksm.Lib.Run
import Animaksm.Proxy.Backend

/-!
# The page store, byte by byte

An access of a slot moves the position of the file and then reads or writes there, a
short page in two writes. Together they do to the file what one write of the whole
page does, so over any history the file is the original one under an array of the
pages that have been written.
-/

namespace Animaksm.Proxy

/-! ## Files as flat memories -/

namespace File

/-- The bytes of a file, with zeros past its end. -/
def contents (f : File) : FlatMemory UInt8 := fun i => if i < f.size then f.byte i else 0

variable {off : Nat} {data : List UInt8}

/-- A write puts the written bytes over the old contents. -/
theorem writeAt_eq (f : File) (off : Nat) (hdata : data ≠ []) :
    f.writeAt off data = ⟨max f.size (off + data.length), f.contents.write off data⟩ := by
  rw [writeAt, if_neg (by simpa using hdata)]
  rfl

@[simp] theorem writeAt_nil (f : File) (off : Nat) : f.writeAt off [] = f := rfl

/-- The contents of a longer file go on with zeros. -/
theorem contents_writeAt (f : File) (off : Nat) (data : List UInt8) :
    (f.writeAt off data).contents = f.contents.write off data := by
  rcases eq_or_ne data [] with rfl | hdata
  · rw [writeAt_nil, FlatMemory.write_nil]
  · rw [writeAt_eq f off hdata]
    funext i
    by_cases hi : i < max f.size (off + data.length)
    · exact if_pos hi
    · rw [not_lt, max_le_iff] at hi
      rw [FlatMemory.write_apply_outside _ (Or.inr hi.2), contents, contents, if_neg, if_neg]
      · exact Nat.not_lt.mpr hi.1
      · exact Nat.not_lt.mpr (max_le hi.1 hi.2)

/-- Two writes, the second where the first one ends, are one write. -/
theorem writeAt_append (f : File) (off : Nat) (first second : List UInt8) :
    (f.writeAt off first).writeAt (off + first.length) second = f.writeAt off (first ++ second) := by
  rcases eq_or_ne first [] with rfl | hfirst
  · rfl
  rcases eq_or_ne second [] with rfl | hsecond
  · rw [writeAt_nil, List.append_nil]
  have hboth : first ++ second ≠ [] := List.append_ne_nil_of_left_ne_nil hfirst second
  rw [writeAt_eq _ _ hsecond, writeAt_eq f off hboth, contents_writeAt, FlatMemory.write_append,
    writeAt_eq f off hfirst, List.length_append]
  congr 1
  dsimp only
  omega

/-- What is read before the end of the file are its contents. -/
theorem readExact_eq_some {f : File} {off len : Nat} (h : off + len ≤ f.size) :
    f.readExact off len = some (f.contents.read off len) := by
  rw [readExact, if_pos h, FlatMemory.read]
  congr 1
  apply List.map_congr_left
  intro i hi
  rw [List.mem_range'_1] at hi
  exact (if_pos (by omega)).symm

end File

/-- The page of a slot is what can be read at its offset. -/
theorem PageStore.map_bytes_pageAt (s : PageStore) {slot : Nat} (h : slot < s.totalSlots) :
    (s.pageAt slot).map Page.bytes = s.file.readExact (slotOffset slot) pageSize := by
  rw [pageAt, if_neg (Nat.not_le_of_lt h)]
  split
  next hread => exact hread.symm
  next hread => exact hread.symm

theorem PageStore.writePage_of_ok {s : PageStore} {io : IoOutcome} {slot : Nat} {data : List UInt8}
    (h : (s.writePage io slot data).1 = .ok ()) : slot < s.totalSlots ∧
      (s.writePage io slot data).2.file =
        s.file.writeAt (slot * pageSize) (normalizePage data).bytes := by
  unfold writePage at h ⊢
  by_cases hslot : s.totalSlots ≤ slot
  · rw [if_pos hslot] at h
    cases h
  · have hlt := Nat.lt_of_not_le hslot
    rw [if_neg hslot, s.slotOffset_eq hlt] at h ⊢
    cases io with
    | failed written => cases h
    | done => exact ⟨hlt, rfl⟩

/-! ## Open files -/

/-- An open file, with the position of the next access. -/
structure OpenFile where
  file : File
  position : Nat

namespace OpenFile

/-- Move to a position from the start of the file. -/
def seek (f : OpenFile) (io : IoOutcome) (off : Nat) : Except EngineError Unit × OpenFile :=
  match io with
  | .done => (.ok (), { f with position := off })
  | .failed _ => (.error .io, f)

/-- Write all of some bytes, or fail after a part of them. -/
def writeAll (f : OpenFile) (io : IoOutcome) (data : List UInt8) : Except EngineError Unit × OpenFile :=
  match io with
  | .done => (.ok (), ⟨f.file.writeAt f.position data, f.position + data.length⟩)
  | .failed written =>
    (.error .io, ⟨f.file.writeAt f.position (data.take written),
      f.position + (data.take written).length⟩)

theorem writeAll_done (f : OpenFile) (data : List UInt8) : f.writeAll .done data =
    (.ok (), ⟨f.file.writeAt f.position data, f.position + data.length⟩) := rfl

theorem writeAll_failed (f : OpenFile) (written : Nat) (data : List UInt8) :
    f.writeAll (.failed written) data = (.error .io,
      ⟨f.file.writeAt f.position (data.take written), f.position + (data.take written).length⟩) := rfl

/-- Read exactly this many bytes, or fail. -/
def readExact (f : OpenFile) (io : IoOutcome) (len : Nat) :
    Except EngineError (List UInt8) × OpenFile :=
  match io, f.file.readExact f.position len with
  | .done, some bytes => (.ok bytes, { f with position := f.position + len })
  -- The position is unspecified then, and every access of a slot sets it first.
  | _, _ => (.error .io, f)

end OpenFile

/-- How the file accesses of one call are carried out. -/
structure PageIo where
  seek : IoOutcome
  /-- The read, or the write of the data. -/
  transfer : IoOutcome
  padding : IoOutcome

/-- Every access completes. -/
def PageIo.done : PageIo := ⟨.done, .done, .done⟩

/-- Write data at the position, padded or truncated to exactly the page size. -/
def OpenFile.writePadded (f : OpenFile) (io : PageIo) (data : List UInt8) :
    Except EngineError Unit × OpenFile :=
  if pageSize ≤ data.length then f.writeAll io.transfer (data.take pageSize)
  else
    match f.writeAll io.transfer data with
    | (.error e, f) => (.error e, f)
    | (.ok (), f) => f.writeAll io.padding (List.replicate (pageSize - data.length) 0)

/-! ## The store -/

/-- A page store with its open file. -/
structure PageFile where
  file : OpenFile
  /-- Total number of page slots available. -/
  totalSlots : UInt64
  pagesWritten : UInt64
  pagesRead : UInt64
  /-- The byte capacity is a `u64`. -/
  capacity_lt : totalSlots.toNat * pageSize < 2 ^ 64

/-- Open a block device or file as a page store. -/
def PageFile.open (file : File) (totalSlots : UInt64)
    (hcapacity : totalSlots.toNat * pageSize < 2 ^ 64) : PageFile :=
  ⟨⟨file, 0⟩, totalSlots, 0, 0, hcapacity⟩

/-- Create a file-backed page store: a truncated file, pre-allocated with zeros. -/
def PageFile.createFile (totalSlots : UInt64) (hcapacity : totalSlots.toNat * pageSize < 2 ^ 64) :
    PageFile :=
  let totalSize := totalSlots * 4096
  ⟨⟨⟨totalSize.toNat, fun _ => 0⟩, 0⟩, totalSlots, 0, 0, hcapacity⟩

namespace PageFile

/-- Write a page to the given slot. -/
def writePage (s : PageFile) (io : PageIo) (slot : UInt64) (data : List UInt8) :
    Except EngineError Unit × PageFile :=
  if s.totalSlots ≤ slot then (.error (.slotOutOfRange slot.toNat s.totalSlots.toNat), s)
  else
    let offset := slot * 4096
    match s.file.seek io.seek offset.toNat with
    | (.error e, file) => (.error e, { s with file := file })
    | (.ok (), file) =>
      match file.writePadded io data with
      | (.error e, file) => (.error e, { s with file := file })
      | (.ok (), file) => (.ok (), { s with file := file, pagesWritten := s.pagesWritten + 1 })

/-- Read a page from the given slot. -/
def readPage (s : PageFile) (io : PageIo) (slot : UInt64) :
    Except EngineError (List UInt8) × PageFile :=
  if s.totalSlots ≤ slot then (.error (.slotOutOfRange slot.toNat s.totalSlots.toNat), s)
  else
    let offset := slot * 4096
    match s.file.seek io.seek offset.toNat with
    | (.error e, file) => (.error e, { s with file := file })
    | (.ok (), file) =>
      match file.readExact io.transfer pageSize with
      | (.error e, file) => (.error e, { s with file := file })
      | (.ok buf, file) => (.ok buf, { s with file := file, pagesRead := s.pagesRead + 1 })

/-- The store without its position. -/
def store (s : PageFile) : PageStore :=
  ⟨s.file.file, s.totalSlots.toNat, s.pagesWritten, s.pagesRead, s.capacity_lt⟩

end PageFile

/-! ## One access of a whole page -/

/-- What becomes of the two writes as one write of the padded data. -/
def PageIo.padded (io : PageIo) (data : List UInt8) : IoOutcome :=
  match io.transfer, io.padding with
  | .failed written, _ => .failed (min written data.length)
  | .done, .failed written =>
    if pageSize ≤ data.length then .done else .failed (data.length + written)
  | .done, .done => .done

/-- What becomes of the write of a page as a whole. -/
def PageIo.writing (io : PageIo) (data : List UInt8) : IoOutcome :=
  match io.seek with
  | .failed _ => .failed 0
  | .done => io.padded data

/-- What becomes of the read of a page as a whole. -/
def PageIo.reading (io : PageIo) : IoOutcome :=
  match io.seek with
  | .failed _ => .failed 0
  | .done => io.transfer

/-- The data and its padding are written as one page would be. -/
theorem OpenFile.writePadded_eq (f : OpenFile) (io : PageIo) (data : List UInt8) :
    f.writePadded io data = f.writeAll (io.padded data) (normalizePage data).bytes := by
  obtain ⟨seek, transfer, padding⟩ := io
  rw [writePadded, normalizePage]
  dsimp only
  split
  next hfull =>
    rw [Nat.sub_eq_zero_of_le hfull, List.replicate_zero, List.append_nil]
    cases transfer with
    | failed written =>
      have htake : (data.take pageSize).take (min written data.length) =
          (data.take pageSize).take written := by
        rw [List.take_take, List.take_take, min_right_comm, ← List.take_eq_take_min]
      rw [writeAll_failed, PageIo.padded, writeAll_failed, htake]
    | done =>
      cases padding with
      | done => rfl
      | failed written =>
        have hpadded : PageIo.padded ⟨seek, .done, .failed written⟩ data = .done := if_pos hfull
        rw [hpadded]
  next hshort =>
    rw [List.take_of_length_le (Nat.le_of_not_le hshort)]
    generalize List.replicate (pageSize - data.length) (0 : UInt8) = zeros
    cases transfer with
    | failed written =>
      have htake : (data ++ zeros).take (min written data.length) = data.take written := by
        rw [List.take_append_of_le_length (min_le_right _ _), ← List.take_eq_take_min]
      rw [writeAll_failed, PageIo.padded, writeAll_failed, htake]
    | done =>
      rw [writeAll_done]
      dsimp only
      cases padding with
      | done =>
        rw [PageIo.padded, writeAll_done, writeAll_done, File.writeAt_append, List.length_append,
          Nat.add_assoc]
      | failed written =>
        have hpadded : PageIo.padded ⟨seek, .done, .failed written⟩ data =
            .failed (data.length + written) := if_neg hshort
        rw [hpadded, writeAll_failed, writeAll_failed, List.take_length_add_append,
          File.writeAt_append, List.length_append, Nat.add_assoc]

namespace PageFile

variable {s : PageFile} {io : PageIo} {slot : UInt64} {data : List UInt8}

theorem toNat_offset (slot : UInt64) : (slot * 4096).toNat = slotOffset slot.toNat := rfl

/-- A slot of the store has its exact byte offset. -/
theorem offset_eq (h : slot < s.totalSlots) : (slot * 4096).toNat = slot.toNat * pageSize :=
  (toNat_offset slot).trans (s.store.slotOffset_eq (UInt64.lt_iff_toNat_lt.mp h))

theorem totalSlots_store_le : s.store.totalSlots ≤ slot.toNat ↔ s.totalSlots ≤ slot :=
  UInt64.le_iff_toNat_le.symm

/-- A write is a write of the whole page. -/
theorem writePage_refines (s : PageFile) (io : PageIo) (slot : UInt64) (data : List UInt8) :
    (s.writePage io slot data).1 = (s.store.writePage (io.writing data) slot.toNat data).1 ∧
      (s.writePage io slot data).2.store =
        (s.store.writePage (io.writing data) slot.toNat data).2 := by
  unfold writePage PageStore.writePage
  by_cases hslot : s.totalSlots ≤ slot
  · rw [if_pos hslot, if_pos (totalSlots_store_le.mpr hslot)]
    exact ⟨rfl, rfl⟩
  · have hslot' : ¬ s.store.totalSlots ≤ slot.toNat := hslot ∘ totalSlots_store_le.mp
    rw [if_neg hslot, if_neg hslot', PageIo.writing]
    cases io.seek with
    | failed written => exact ⟨rfl, rfl⟩
    | done =>
      dsimp only [OpenFile.seek]
      rw [OpenFile.writePadded_eq]
      cases io.padded data with
      | done => exact ⟨rfl, rfl⟩
      | failed written => exact ⟨rfl, rfl⟩

/-- A read is a read of the whole page. -/
theorem readPage_refines (s : PageFile) (io : PageIo) (slot : UInt64) :
    (s.readPage io slot).1 = (s.store.readPage io.reading slot.toNat).1.map Page.bytes ∧
      (s.readPage io slot).2.store = (s.store.readPage io.reading slot.toNat).2 := by
  unfold readPage PageStore.readPage
  by_cases hslot : s.totalSlots ≤ slot
  · rw [if_pos hslot, if_pos (totalSlots_store_le.mpr hslot)]
    exact ⟨rfl, rfl⟩
  · have hslot' : ¬ s.store.totalSlots ≤ slot.toNat := hslot ∘ totalSlots_store_le.mp
    have hpage : s.file.file.readExact (slotOffset slot.toNat) pageSize =
        (s.store.pageAt slot.toNat).map Page.bytes :=
      (s.store.map_bytes_pageAt (Nat.lt_of_not_le hslot')).symm
    rw [if_neg hslot, if_neg hslot', PageIo.reading]
    cases io.seek with
    | failed written => exact ⟨rfl, rfl⟩
    | done =>
      cases io.transfer with
      | failed written => exact ⟨rfl, rfl⟩
      | done =>
        dsimp only [OpenFile.seek, OpenFile.readExact]
        rw [toNat_offset, hpage]
        cases s.store.pageAt slot.toNat with
        | none => exact ⟨rfl, rfl⟩
        | some page => exact ⟨rfl, rfl⟩

/-- A slot outside of the store is refused, and nothing is touched. -/
theorem refused (h : s.totalSlots ≤ slot) :
    (∀ io data, s.writePage io slot data =
      (.error (.slotOutOfRange slot.toNat s.totalSlots.toNat), s)) ∧
    ∀ io, s.readPage io slot = (.error (.slotOutOfRange slot.toNat s.totalSlots.toNat), s) :=
  ⟨fun _ _ => if_pos h, fun _ => if_pos h⟩

/-- A write keeps the number of slots. -/
theorem totalSlots_writePage (s : PageFile) (io : PageIo) (slot : UInt64) (data : List UInt8) :
    (s.writePage io slot data).2.totalSlots = s.totalSlots := by
  obtain ⟨-, hstore⟩ := s.writePage_refines io slot data
  have htotal := congrArg PageStore.totalSlots hstore
  rw [PageStore.totalSlots_writePage] at htotal
  exact UInt64.toNat_inj.mp htotal

/-- A successful write puts the page over the old file at the offset of the slot. -/
theorem writePage_of_ok (h : (s.writePage io slot data).1 = .ok ()) :
    slot < s.totalSlots ∧ (s.writePage io slot data).2.file.file =
      s.file.file.writeAt (slot.toNat * pageSize) (normalizePage data).bytes := by
  obtain ⟨hresult, hstore⟩ := s.writePage_refines io slot data
  rw [h] at hresult
  obtain ⟨hlt, hfile⟩ := PageStore.writePage_of_ok hresult.symm
  exact ⟨UInt64.lt_iff_toNat_lt.mpr hlt, (congrArg PageStore.file hstore).trans hfile⟩

/-- A write to a slot of the store succeeds when its accesses complete. -/
theorem writePage_done (h : slot < s.totalSlots) : (s.writePage .done slot data).1 = .ok () := by
  have hpadded : PageIo.padded .done data = .done := rfl
  rw [writePage, if_neg (UInt64.not_le.mpr h)]
  dsimp only [PageIo.done, OpenFile.seek]
  rw [OpenFile.writePadded_eq, ← PageIo.done, hpadded, OpenFile.writeAll_done]

/-- A read leaves the file as it is. -/
theorem readPage_frame (s : PageFile) (io : PageIo) (slot : UInt64) :
    (s.readPage io slot).2.totalSlots = s.totalSlots ∧
      (s.readPage io slot).2.file.file = s.file.file := by
  obtain ⟨-, hstore⟩ := s.readPage_refines io slot
  obtain ⟨count, hframe⟩ := s.store.readPage_frame io.reading slot.toNat
  rw [hframe] at hstore
  exact ⟨UInt64.toNat_inj.mp (congrArg PageStore.totalSlots hstore), congrArg PageStore.file hstore⟩

/-- A read succeeds when its accesses complete and the slot ends within the file. -/
theorem readPage_eq (h : slot < s.totalSlots) (io : PageIo) :
    (s.readPage io slot).1 =
      if io.reading = .done ∧ (slot.toNat + 1) * pageSize ≤ s.file.file.size then
        .ok (s.file.file.contents.read (slot.toNat * pageSize) pageSize)
      else .error .io := by
  obtain ⟨seek, transfer, padding⟩ := io
  unfold readPage
  rw [if_neg (UInt64.not_le.mpr h)]
  dsimp only
  rw [offset_eq h]
  cases seek with
  | failed written => rfl
  | done =>
    cases transfer with
    | failed written => rfl
    | done =>
      dsimp only [OpenFile.seek, OpenFile.readExact]
      by_cases hsize : slot.toNat * pageSize + pageSize ≤ s.file.file.size
      · rw [File.readExact_eq_some hsize, if_pos ⟨rfl, (Nat.succ_mul _ _).trans_le hsize⟩]
      · have hnone : s.file.file.readExact (slot.toNat * pageSize) pageSize = none := if_neg hsize
        rw [hnone, if_neg fun hread => hsize ((Nat.succ_mul _ _).symm.trans_le hread.2)]

/-- A read of the slot returns these bytes, unless the operating system fails it. -/
def ReadsAs (s : PageFile) (slot : UInt64) (bytes : List UInt8) : Prop :=
  ∀ io : PageIo, (s.readPage io slot).1 = if io.reading = .done then .ok bytes else .error .io

theorem readsAs_of_le (h : slot < s.totalSlots)
    (hsize : (slot.toNat + 1) * pageSize ≤ s.file.file.size) :
    s.ReadsAs slot (s.file.file.contents.read (slot.toNat * pageSize) pageSize) := by
  intro io
  rw [readPage_eq h]
  exact if_congr (and_iff_left hsize) rfl rfl

end PageFile

/-! ## Histories -/

/-- A call on the store, with what becomes of its file accesses. -/
inductive PageCall where
  | write (io : PageIo) (slot : UInt64) (data : List UInt8)
  | read (io : PageIo) (slot : UInt64)

/-- The store with the data that was last written to each slot. -/
structure PageHistory where
  store : PageFile
  written : Nat → Option (List UInt8)

namespace PageHistory

def start (file : File) (totalSlots : UInt64) (hcapacity : totalSlots.toNat * pageSize < 2 ^ 64) :
    PageHistory :=
  ⟨.open file totalSlots hcapacity, fun _ => none⟩

def step (s : PageHistory) : PageCall → PageHistory
  | .write io slot data =>
    ⟨(s.store.writePage io slot data).2, Function.update s.written slot.toNat (some data)⟩
  | .read io slot => ⟨(s.store.readPage io slot).2, s.written⟩

/-- A write succeeds; a read may also fail. -/
def Allowed (s : PageHistory) : PageCall → Prop
  | .write io slot data => (s.store.writePage io slot data).1 = .ok ()
  | .read _ _ => True

/-- The pages that have been written. -/
def pages (s : PageHistory) (slot : Nat) : Option (List UInt8) :=
  (s.written slot).map fun data => (normalizePage data).bytes

/-- The end of the original file, and the ends of the slots that have been written. -/
def ends (s : PageHistory) (file : File) : Set Nat :=
  insert file.size {n | ∃ slot data, s.written slot = some data ∧ n = (slot + 1) * pageSize}

/-- The file is the original one under the written pages, as far as either goes. -/
structure Holds (file : File) (totalSlots : UInt64) (s : PageHistory) : Prop where
  slots : s.store.totalSlots = totalSlots
  inside : ∀ slot data, s.written slot = some data → slot < totalSlots.toNat
  contents : s.store.file.file.contents = FlatMemory.overlay pageSize file.contents s.pages
  size : IsGreatest (s.ends file) s.store.file.file.size

variable {file : File} {totalSlots : UInt64} {s : PageHistory}

theorem holds_start (file : File) (totalSlots : UInt64)
    (hcapacity : totalSlots.toNat * pageSize < 2 ^ 64) :
    Holds file totalSlots (start file totalSlots hcapacity) := by
  refine ⟨rfl, fun slot data h => absurd h (Option.some_ne_none data).symm,
    (FlatMemory.overlay_none _ _).symm, Set.mem_insert _ _, ?_⟩
  rintro n (rfl | ⟨slot, data, h, -⟩)
  · exact le_rfl
  · exact absurd h (Option.some_ne_none data).symm

theorem written_write (s : PageHistory) (io : PageIo) (slot : UInt64) (data : List UInt8) :
    (s.step (.write io slot data)).written = Function.update s.written slot.toNat (some data) := rfl

/-- No call changes the number of slots. -/
theorem totalSlots_step (s : PageHistory) (call : PageCall) :
    (s.step call).store.totalSlots = s.store.totalSlots := by
  cases call with
  | write io slot data => exact s.store.totalSlots_writePage io slot data
  | read io slot => exact (s.store.readPage_frame io slot).1

/-- A write adds its page to those written. -/
theorem pages_write (s : PageHistory) (io : PageIo) (slot : UInt64) (data : List UInt8) :
    (s.step (.write io slot data)).pages =
      Function.update s.pages slot.toNat (some (normalizePage data).bytes) := by
  funext other
  rw [pages, written_write]
  rcases eq_or_ne other slot.toNat with rfl | hne
  · rw [Function.update_self, Function.update_self, Option.map_some]
  · rw [Function.update_of_ne hne, Function.update_of_ne hne, pages]

/-- A write adds its end to the ends. -/
theorem ends_write (s : PageHistory) (io : PageIo) (slot : UInt64) (data : List UInt8) :
    (s.step (.write io slot data)).ends file =
      insert ((slot.toNat + 1) * pageSize) (s.ends file) := by
  ext n
  rw [ends, written_write, ends]
  constructor
  · rintro (rfl | ⟨other, data', hother, rfl⟩)
    · exact .inr (.inl rfl)
    · rcases eq_or_ne other slot.toNat with rfl | hne
      · exact .inl rfl
      · rw [Function.update_of_ne hne] at hother
        exact .inr (.inr ⟨other, data', hother, rfl⟩)
  · rintro (rfl | rfl | ⟨other, data', hother, rfl⟩)
    · exact .inr ⟨slot.toNat, data, Function.update_self .., rfl⟩
    · exact .inl rfl
    · rcases eq_or_ne other slot.toNat with rfl | hne
      · exact .inr ⟨slot.toNat, data, Function.update_self .., rfl⟩
      · exact .inr ⟨other, data', (Function.update_of_ne hne ..).trans hother, rfl⟩

/-- A successful write puts its page into the array. -/
theorem Holds.write (h : Holds file totalSlots s) {io : PageIo} {slot : UInt64} {data : List UInt8}
    (hok : (s.store.writePage io slot data).1 = .ok ()) :
    Holds file totalSlots (s.step (.write io slot data)) := by
  obtain ⟨hslot, hfile⟩ := PageFile.writePage_of_ok hok
  have hlength := (normalizePage data).length_bytes
  have hne : (normalizePage data).bytes ≠ [] := fun hnil => by
    rw [hnil] at hlength
    cases hlength
  refine ⟨(totalSlots_step s _).trans h.slots, fun other data' hother => ?_, ?_, ?_⟩
  · rcases eq_or_ne other slot.toNat with rfl | hne
    · exact h.slots ▸ UInt64.lt_iff_toNat_lt.mp hslot
    · rw [written_write, Function.update_of_ne hne] at hother
      exact h.inside other data' hother
  · rw [pages_write, ← FlatMemory.write_overlay (by decide) hlength, ← h.contents,
      ← File.contents_writeAt]
    exact congrArg File.contents hfile
  · have hsize : (s.step (.write io slot data)).store.file.file.size =
        max ((slot.toNat + 1) * pageSize) s.store.file.file.size := by
      rw [step, hfile, File.writeAt_eq _ _ hne, hlength, Nat.succ_mul]
      exact max_comm _ _
    rw [ends_write, hsize]
    exact h.size.insert _

theorem Holds.step (h : Holds file totalSlots s) (call : PageCall) (hcall : s.Allowed call) :
    Holds file totalSlots (s.step call) := by
  cases call with
  | write io slot data => exact h.write hcall
  | read io slot =>
    obtain ⟨-, hfile⟩ := s.store.readPage_frame io slot
    exact ⟨(totalSlots_step s _).trans h.slots, h.inside, (congrArg File.contents hfile).trans h.contents,
      (congrArg File.size hfile).symm ▸ h.size⟩

theorem Holds.run {hcapacity : totalSlots.toNat * pageSize < 2 ^ 64} {calls : List PageCall}
    (hcalls : Run.Along PageHistory.step Allowed (start file totalSlots hcapacity) calls) :
    Holds file totalSlots (Run.run PageHistory.step (start file totalSlots hcapacity) calls) :=
  hcalls.invariant (fun _ call h => h.step call) (holds_start file totalSlots hcapacity)

/-! ## What is read -/

/-- A slot that has been written reads as its page. -/
theorem Holds.readsAs_written (h : Holds file totalSlots s) {slot : UInt64} {data : List UInt8}
    (hdata : s.written slot.toNat = some data) :
    s.store.ReadsAs slot (normalizePage data).bytes := by
  have hslot : slot < s.store.totalSlots := h.slots ▸ UInt64.lt_iff_toNat_lt.mpr (h.inside _ _ hdata)
  have hsize : (slot.toNat + 1) * pageSize ≤ s.store.file.file.size :=
    h.size.2 (.inr ⟨slot.toNat, data, hdata, rfl⟩)
  have hpage : s.pages slot.toNat = some (normalizePage data).bytes := by
    rw [pages, hdata, Option.map_some]
  have hread := PageFile.readsAs_of_le hslot hsize
  rwa [h.contents, FlatMemory.read_overlay_some (normalizePage data).length_bytes hpage] at hread

/-- A slot that has not been written reads as the original file, with zeros past its end. -/
theorem Holds.readsAs_original (h : Holds file totalSlots s) {slot : UInt64} (hslot : slot < totalSlots)
    (hnone : s.written slot.toNat = none)
    (hsize : (slot.toNat + 1) * pageSize ≤ s.store.file.file.size) :
    s.store.ReadsAs slot (file.contents.read (slot.toNat * pageSize) pageSize) := by
  have hpage : s.pages slot.toNat = none := by rw [pages, hnone, Option.map_none]
  have hread := PageFile.readsAs_of_le (h.slots.symm ▸ hslot) hsize
  rwa [h.contents, FlatMemory.read_overlay_none hpage] at hread

/-- The slots of a store are an array of pages. A slot outside of it is refused by both calls, which then
touch nothing. A slot that has been written reads as the data last written to it, cut or padded to a
page. Any other slot reads as the original file and as zeros past its end, or fails where the file ends
before the slot does; the file ends where it ended first, or with the last of the written slots. -/
theorem run_array (file : File) {totalSlots : UInt64}
    (hcapacity : totalSlots.toNat * pageSize < 2 ^ 64) {calls : List PageCall}
    (hcalls : Run.Along PageHistory.step Allowed (start file totalSlots hcapacity) calls) :
    let s := Run.run PageHistory.step (start file totalSlots hcapacity) calls
    IsGreatest (s.ends file) s.store.file.file.size ∧
    ∀ slot : UInt64,
      (totalSlots ≤ slot →
        (∀ io data, s.store.writePage io slot data =
          (.error (.slotOutOfRange slot.toNat totalSlots.toNat), s.store)) ∧
        ∀ io, s.store.readPage io slot =
          (.error (.slotOutOfRange slot.toNat totalSlots.toNat), s.store)) ∧
      (∀ data, s.written slot.toNat = some data →
        s.store.ReadsAs slot (data.take pageSize ++ List.replicate (pageSize - data.length) 0)) ∧
      (slot < totalSlots → s.written slot.toNat = none →
        ((slot.toNat + 1) * pageSize ≤ s.store.file.file.size →
          s.store.ReadsAs slot (file.contents.read (slot.toNat * pageSize) pageSize)) ∧
        (s.store.file.file.size < (slot.toNat + 1) * pageSize →
          ∀ io, (s.store.readPage io slot).1 = .error .io)) := by
  intro s
  have h : Holds file totalSlots s := Holds.run hcalls
  refine ⟨h.size, fun slot => ⟨fun hrange => ?_, fun data hdata => h.readsAs_written hdata,
    fun hslot hnone => ⟨h.readsAs_original hslot hnone, fun hshort io => ?_⟩⟩⟩
  · have hrefused := PageFile.refused (h.slots.symm ▸ hrange)
    rwa [h.slots] at hrefused
  · rw [PageFile.readPage_eq (h.slots.symm ▸ hslot)]
    exact if_neg fun hread => Nat.not_le_of_lt hshort hread.2

/-- A file that ends inside its second page. -/
def shortFile : File := ⟨5000, fun _ => 7⟩

def shortData : List UInt8 := [1, 2, 3]

/-- Two of four slots are written, the later one first. -/
def shortFileCalls : List PageCall := [.write .done 2 shortData, .read .done 0, .write .done 1 []]

theorem run_array_shortFile :
    ((Run.run PageHistory.step (start shortFile 4 (by decide)) shortFileCalls).store.readPage .done 2).1 =
      .ok (shortData.take pageSize ++ List.replicate (pageSize - shortData.length) 0) :=
  have hcalls : Run.Along PageHistory.step Allowed (start shortFile 4 (by decide)) shortFileCalls :=
    ⟨PageFile.writePage_done (by decide), trivial,
      PageFile.writePage_done (by rw [totalSlots_step, totalSlots_step]; decide), trivial⟩
  have hreads := ((run_array shortFile (by decide) hcalls).2 2).2.1 shortData rfl
  (hreads .done).trans (if_pos rfl)

/-- A created store is one opened over a file of zeros that has all of its slots. -/
theorem createFile_eq (hcapacity : totalSlots.toNat * pageSize < 2 ^ 64) :
    PageFile.createFile totalSlots hcapacity =
      .open ⟨totalSlots.toNat * pageSize, fun _ => 0⟩ totalSlots hcapacity := by
  have hsize : (totalSlots * 4096).toNat = totalSlots.toNat * pageSize := Nat.mod_eq_of_lt hcapacity
  rw [PageFile.createFile, PageFile.open, hsize]

/-- Every slot of a created store that has not been written reads as zeros. -/
theorem readsAs_created {hcapacity : totalSlots.toNat * pageSize < 2 ^ 64} {calls : List PageCall}
    (hcalls : Run.Along PageHistory.step Allowed ⟨.createFile totalSlots hcapacity, fun _ => none⟩ calls)
    {slot : UInt64} (hslot : slot < totalSlots) :
    let s := Run.run PageHistory.step ⟨.createFile totalSlots hcapacity, fun _ => none⟩ calls
    s.written slot.toNat = none → s.store.ReadsAs slot (List.replicate pageSize 0) := by
  rw [createFile_eq] at hcalls ⊢
  intro s hnone
  have h : Holds ⟨totalSlots.toNat * pageSize, fun _ => 0⟩ totalSlots s := Holds.run hcalls
  have hsize : (slot.toNat + 1) * pageSize ≤ s.store.file.file.size :=
    (Nat.mul_le_mul_right pageSize (UInt64.lt_iff_toNat_lt.mp hslot)).trans
      (h.size.2 (Set.mem_insert _ _))
  have hzeros : FlatMemory.read (File.contents ⟨totalSlots.toNat * pageSize, fun _ => 0⟩)
      (slot.toNat * pageSize) pageSize = List.replicate pageSize 0 := by
    rw [List.eq_replicate_iff]
    refine ⟨FlatMemory.length_read .., fun byte hbyte => ?_⟩
    obtain ⟨i, -, rfl⟩ := List.mem_map.mp hbyte
    exact ite_self 0
  rw [← hzeros]
  exact h.readsAs_original hslot hnone hsize

end PageHistory

end Animaksm.Proxy

import Animaksm.Lib.Loop
import Animaksm.Proxy.Engine

/-!
# The block device in front of the engine

A block request gives its range in sectors of 512 bytes. It is turned into a byte
offset and a byte count in fixed-width arithmetic, checked for page alignment,
and carried out page by page on the engine and the request's buffer. Its result
is one 32-bit number: the bytes processed, or a negated error number.
-/

namespace Animaksm.Proxy

/-- Operations of the block device. -/
inductive UblkOp where
  | read
  | write
  | flush
  | discard
  | writeZeroes
  | unsupported (raw : UInt32)
  deriving DecidableEq

/-- Error numbers that requests are answered with. -/
inductive Errno where
  | einval
  | eio
  | eopnotsupp
  deriving DecidableEq

/-- The result that reports an error. -/
def Errno.result : Errno → Int
  | .einval => -22
  | .eio => -5
  | .eopnotsupp => -95

/-- The cast of a length to a signed 32-bit number. -/
def asI32 (n : Nat) : Int := (n : Int).bmod (2 ^ 32)

/-- One request, in bytes. -/
structure BlockRequest where
  op : UblkOp
  offset : UInt64
  bytes : Nat

/-- Convert a request from sectors. Both shifts drop what does not fit their type. -/
def BlockRequest.new (op : UblkOp) (startSector : UInt64) (nrSectors : UInt32) : BlockRequest where
  op := op
  offset := startSector <<< 9
  bytes := (nrSectors <<< 9).toNat

/-- Offset and length are whole pages. -/
def BlockRequest.Aligned (request : BlockRequest) : Prop :=
  request.offset.toNat % pageSize = 0 ∧ request.bytes % pageSize = 0

instance (request : BlockRequest) : Decidable request.Aligned :=
  inferInstanceAs (Decidable (_ ∧ _))

/-- Refuse a request that is not made of whole pages. -/
def BlockRequest.validatePageAligned (request : BlockRequest) : Except Errno BlockRequest :=
  if request.Aligned then .ok request else .error .einval

/-- Byte offset of a page of the request, in `u64` arithmetic. -/
def BlockRequest.pageOffset (request : BlockRequest) (pageIdx : Nat) : UInt64 :=
  request.offset + UInt64.ofNat (pageIdx * pageSize)

/-- The file accesses of a request, page by page. -/
structure RequestIo where
  read : Nat → IoOutcome
  write : Nat → WriteIo

/-- Every access completes. -/
def RequestIo.done : RequestIo := ⟨fun _ => .done, fun _ => .done⟩

/-- What a request works on: the engine and the request's buffer. -/
structure RequestState where
  engine : ProxyEngine
  buffer : List UInt8

/-- The part of the first `bytes` bytes of a buffer that belongs to a page. -/
def chunk (buffer : List UInt8) (bytes pageIdx : Nat) : List UInt8 :=
  ((buffer.take bytes).drop (pageIdx * pageSize)).take pageSize

/-- Number of chunks of this many bytes; the last one may be short. -/
def chunkCount (bytes : Nat) : Nat := (bytes + (pageSize - 1)) / pageSize

/-- Overwrite a part of a buffer. -/
def copyFromSlice (buffer : List UInt8) (start : Nat) (data : List UInt8) : List UInt8 :=
  buffer.take start ++ data ++ buffer.drop (start + data.length)

/-- Read the page at an offset into its chunk of the buffer. -/
def readChunk (io : RequestIo) (bytes pageIdx : Nat) (offset : UInt64) (s : RequestState) :
    Except Errno Unit × RequestState :=
  match s.engine.handleRead (io.read pageIdx) offset with
  | (.error _, e) => (.error .eio, { s with engine := e })
  | (.ok page, e) =>
    if page.bytes.length ≠ (chunk s.buffer bytes pageIdx).length then
      (.error .eio, { s with engine := e })
    else
      (.ok (), ⟨e, copyFromSlice s.buffer (pageIdx * pageSize) page.bytes⟩)

/-- Write one page of data at an offset. -/
def writeData (fingerprintPage : Page → Fingerprint) (io : RequestIo) (pageIdx : Nat)
    (offset : UInt64) (data : List UInt8) (s : RequestState) : Except Errno Unit × RequestState :=
  match s.engine.handleWrite fingerprintPage (io.write pageIdx) offset data with
  | (.error _, e) => (.error .eio, { s with engine := e })
  | (.ok (), e) => (.ok (), { s with engine := e })

/-- Write the chunk of the buffer that belongs to a page. -/
def writeChunk (fingerprintPage : Page → Fingerprint) (io : RequestIo) (bytes pageIdx : Nat)
    (offset : UInt64) (s : RequestState) : Except Errno Unit × RequestState :=
  writeData fingerprintPage io pageIdx offset (chunk s.buffer bytes pageIdx) s

/-- Discard the page at an offset. -/
def discardPage (offset : UInt64) (s : RequestState) : Except Errno Unit × RequestState :=
  (.ok (), { s with engine := s.engine.handleDiscard offset })

/-- Write zeros to the page at an offset. -/
def zeroFillPage (fingerprintPage : Page → Fingerprint) (io : RequestIo) (pageIdx : Nat)
    (offset : UInt64) (s : RequestState) : Except Errno Unit × RequestState :=
  writeData fingerprintPage io pageIdx offset (List.replicate pageSize 0) s

/-- Report the length of a request whose pages were all processed. -/
def reportBytes (bytes : Nat) :
    Except Errno Unit × RequestState → Except Errno Nat × RequestState
  | (.ok (), s) => (.ok bytes, s)
  | (.error errno, s) => (.error errno, s)

/-- Carry out a request. -/
def executeRequest (fingerprintPage : Page → Fingerprint) (io : RequestIo)
    (request : BlockRequest) (s : RequestState) : Except Errno Nat × RequestState :=
  match request.op with
  | .read =>
    match request.validatePageAligned with
    | .error errno => (.error errno, s)
    | .ok request =>
      if s.buffer.length < request.bytes then (.error .einval, s)
      else
        reportBytes request.bytes (Loop.forEach
          (fun pageIdx => readChunk io request.bytes pageIdx (request.pageOffset pageIdx))
          (List.range (chunkCount request.bytes)) s)
  | .write =>
    match request.validatePageAligned with
    | .error errno => (.error errno, s)
    | .ok request =>
      if s.buffer.length < request.bytes then (.error .einval, s)
      else
        reportBytes request.bytes (Loop.forEach
          (fun pageIdx =>
            writeChunk fingerprintPage io request.bytes pageIdx (request.pageOffset pageIdx))
          (List.range (chunkCount request.bytes)) s)
  | .flush => (.ok 0, s)
  | .discard =>
    match request.validatePageAligned with
    | .error errno => (.error errno, s)
    | .ok request =>
      reportBytes request.bytes (Loop.forEach
        (fun pageIdx => discardPage (request.pageOffset pageIdx))
        (List.range (request.bytes / pageSize)) s)
  | .writeZeroes =>
    match request.validatePageAligned with
    | .error errno => (.error errno, s)
    | .ok request =>
      reportBytes request.bytes (Loop.forEach
        (fun pageIdx => zeroFillPage fingerprintPage io pageIdx (request.pageOffset pageIdx))
        (List.range (request.bytes / pageSize)) s)
  | .unsupported _ => (.error .eopnotsupp, s)

/-- Carry out a request and encode its result. -/
def handleRequest (fingerprintPage : Page → Fingerprint) (io : RequestIo)
    (request : BlockRequest) (s : RequestState) : Int × RequestState :=
  match executeRequest fingerprintPage io request s with
  | (.ok bytes, s) => (asI32 bytes, s)
  | (.error errno, s) => (errno.result, s)

/-! ## Requests as page loops -/

/-- The operations that process pages. -/
def UblkOp.isPaged : UblkOp → Bool
  | .read | .write | .discard | .writeZeroes => true
  | .flush | .unsupported _ => false

/-- The operations that use the buffer. -/
def UblkOp.usesBuffer : UblkOp → Bool
  | .read | .write => true
  | .flush | .discard | .writeZeroes | .unsupported _ => false

/-- One round of the loop of an operation, at any offset. -/
def UblkOp.processPage (fingerprintPage : Page → Fingerprint) (io : RequestIo) (bytes : Nat)
    (op : UblkOp) (pageIdx : Nat) (offset : UInt64) :
    RequestState → Except Errno Unit × RequestState :=
  match op with
  | .read => readChunk io bytes pageIdx offset
  | .write => writeChunk fingerprintPage io bytes pageIdx offset
  | .discard => discardPage offset
  | .writeZeroes => zeroFillPage fingerprintPage io pageIdx offset
  | .flush | .unsupported _ => fun s => (.ok (), s)

/-- The request is not of whole pages, or its buffer is too short. -/
def BlockRequest.Refused (request : BlockRequest) (buffer : List UInt8) : Prop :=
  ¬ request.Aligned ∨ request.op.usesBuffer = true ∧ buffer.length < request.bytes

section

variable {fingerprintPage : Page → Fingerprint} {io : RequestIo} {request : BlockRequest}
  {s : RequestState}

/-- Whole pages make as many chunks. -/
theorem chunkCount_of_aligned {bytes : Nat} (h : bytes % pageSize = 0) :
    chunkCount bytes = bytes / pageSize := by
  unfold chunkCount pageSize at *
  omega

theorem executeRequest_unsupported {raw : UInt32} (h : request.op = .unsupported raw) :
    executeRequest fingerprintPage io request s = (.error .eopnotsupp, s) := by
  simp only [executeRequest, h]

theorem executeRequest_flush (h : request.op = .flush) :
    executeRequest fingerprintPage io request s = (.ok 0, s) := by
  simp only [executeRequest, h]

/-- A refused request has no effect. -/
theorem executeRequest_refused (fingerprintPage : Page → Fingerprint) (io : RequestIo)
    (hop : request.op.isPaged = true) (h : request.Refused s.buffer) :
    executeRequest fingerprintPage io request s = (.error .einval, s) := by
  unfold executeRequest BlockRequest.validatePageAligned
  by_cases ha : request.Aligned
  · obtain ⟨huses, hshort⟩ := h.resolve_left (not_not.mpr ha)
    cases hk : request.op <;> rw [hk] at huses
    case read | write => simp only [ha, if_true, if_pos hshort]
    case flush | discard | writeZeroes | unsupported => cases huses
  · cases hk : request.op <;> rw [hk] at hop
    case flush | unsupported => cases hop
    case read | write | discard | writeZeroes => simp only [ha, if_false]

/-- Any other request processes its pages in turn. -/
theorem executeRequest_accepted (fingerprintPage : Page → Fingerprint) (io : RequestIo)
    (hop : request.op.isPaged = true) (h : ¬ request.Refused s.buffer) :
    executeRequest fingerprintPage io request s = reportBytes request.bytes (Loop.forEach
      (fun pageIdx => request.op.processPage fingerprintPage io request.bytes pageIdx
        (request.pageOffset pageIdx)) (List.range (request.bytes / pageSize)) s) := by
  obtain ⟨ha, hbuffer⟩ := not_or.mp h
  rw [not_not] at ha
  unfold executeRequest BlockRequest.validatePageAligned UblkOp.processPage
  cases hk : request.op <;> rw [hk] at hop hbuffer
  case flush | unsupported => cases hop
  case discard | writeZeroes => simp only [ha, if_true]
  case read | write =>
    have hlong : ¬ s.buffer.length < request.bytes := fun hlt => hbuffer ⟨rfl, hlt⟩
    simp only [ha, if_true, if_neg hlong, chunkCount_of_aligned ha.2]

/-- A page is processed, or the operation fails with an I/O error. -/
theorem processPage_error {op : UblkOp} {bytes pageIdx : Nat} {offset : UInt64} {errno : Errno}
    (h : (op.processPage fingerprintPage io bytes pageIdx offset s).1 = .error errno) :
    errno = .eio := by
  unfold UblkOp.processPage readChunk writeChunk discardPage zeroFillPage writeData at h
  split at h
  · split at h
    · cases h
      rfl
    · split at h <;> cases h
      rfl
  · split at h <;> cases h
    rfl
  · cases h
  · split at h <;> cases h
    rfl
  · cases h
  · cases h

/-- A page of data that was written was written by the engine. -/
theorem writeData_ok {pageIdx : Nat} {offset : UInt64} {data : List UInt8} {s' : RequestState}
    (h : writeData fingerprintPage io pageIdx offset data s = (.ok (), s')) :
    (s.engine.handleWrite fingerprintPage (io.write pageIdx) offset data).1 = .ok () ∧
      s' = ⟨(s.engine.handleWrite fingerprintPage (io.write pageIdx) offset data).2, s.buffer⟩ := by
  unfold writeData at h
  rcases hw : s.engine.handleWrite fingerprintPage (io.write pageIdx) offset data with
    ⟨err | _, e⟩ <;> rw [hw] at h <;> cases h
  exact ⟨rfl, rfl⟩

/-- A page that was read into the buffer was read from the engine. -/
theorem readChunk_ok {bytes pageIdx : Nat} {offset : UInt64} {s' : RequestState}
    (h : readChunk io bytes pageIdx offset s = (.ok (), s')) :
    ∃ page, (s.engine.handleRead (io.read pageIdx) offset).1 = .ok page ∧
      s' = ⟨(s.engine.handleRead (io.read pageIdx) offset).2,
        copyFromSlice s.buffer (pageIdx * pageSize) page.bytes⟩ := by
  unfold readChunk at h
  rcases hr : s.engine.handleRead (io.read pageIdx) offset with ⟨err | page, e⟩ <;> rw [hr] at h
  · cases h
  · dsimp only at h
    split at h <;> cases h
    exact ⟨page, rfl, rfl⟩

/-- Byte offset of a request, in unbounded arithmetic. -/
theorem BlockRequest.toNat_offset_new (op : UblkOp) (startSector : UInt64) (nrSectors : UInt32) :
    (BlockRequest.new op startSector nrSectors).offset.toNat = startSector.toNat * 512 % 2 ^ 64 := by
  simp [BlockRequest.new, UInt64.toNat_shiftLeft, Nat.shiftLeft_eq]

/-- Byte count of a request, in unbounded arithmetic. -/
theorem BlockRequest.bytes_new (op : UblkOp) (startSector : UInt64) (nrSectors : UInt32) :
    (BlockRequest.new op startSector nrSectors).bytes = nrSectors.toNat * 512 % 2 ^ 32 := by
  simp [BlockRequest.new, UInt32.toNat_shiftLeft, Nat.shiftLeft_eq]

/-- Alignment is that of the sector numbers. -/
theorem BlockRequest.aligned_new (op : UblkOp) (startSector : UInt64) (nrSectors : UInt32) :
    (BlockRequest.new op startSector nrSectors).Aligned ↔
      startSector.toNat % 8 = 0 ∧ nrSectors.toNat % 8 = 0 := by
  rw [BlockRequest.Aligned, BlockRequest.toNat_offset_new, BlockRequest.bytes_new, pageSize]
  omega

/-- Byte offset of a page of a request that does not reach past `2 ^ 64`. -/
theorem BlockRequest.toNat_pageOffset_new {op : UblkOp} {startSector : UInt64}
    {nrSectors : UInt32} {pageIdx : Nat}
    (h : startSector.toNat * 512 + pageIdx * pageSize < 2 ^ 64) :
    ((BlockRequest.new op startSector nrSectors).pageOffset pageIdx).toNat =
      startSector.toNat * 512 + pageIdx * pageSize := by
  rw [BlockRequest.pageOffset, UInt64.toNat_add, BlockRequest.toNat_offset_new,
    UInt64.toNat_ofNat']
  omega

end

end Animaksm.Proxy

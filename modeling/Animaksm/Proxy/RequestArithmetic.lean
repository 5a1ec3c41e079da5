import Mathlib.Data.UInt
import Animaksm.Proxy.BlockDevice
import Animaksm.Proxy.Session

/-!
# Arithmetic of block requests

A request that is carried out should process exactly the pages under its byte
range and report its length. It does so when the length is below 2 GiB and the
range ends at or below byte `2 ^ 64`. A longer request without a buffer reports
a negative number although it succeeded, or a length from which the high bits
were dropped.
-/

namespace Animaksm.Proxy

/-- These offsets, in ascending order, are those of the pages that share a byte with the
range from `first` up to `last`. -/
def CoversRange (offsets : List UInt64) (first last : Nat) : Prop :=
  (offsets.map UInt64.toNat).Pairwise (· < ·) ∧
    ∀ p, p ∈ offsets.map UInt64.toNat ↔
      pageSize ∣ p ∧ ∃ b, first ≤ b ∧ b < last ∧ p ≤ b ∧ b < p + pageSize

/-- The pages under the byte range of the request were processed in order, none failing. -/
def ProcessedRange (fingerprintPage : Page → Fingerprint) (io : RequestIo) (op : UblkOp)
    (startSector : UInt64) (nrSectors : UInt32) (s s' : RequestState) : Prop :=
  ∃ offsets, CoversRange offsets (512 * startSector.toNat)
      (512 * (startSector.toNat + nrSectors.toNat)) ∧
    Loop.forEach (fun page => op.processPage fingerprintPage io (512 * nrSectors.toNat) page.2 page.1)
      offsets.zipIdx s = (.ok (), s')

/-- A request on pages reports a negative number, or its pages were processed and it reports
its length; a negative number means that it was refused or failed; and a request refused for
its arguments or its operation has no effect. -/
def HandlesRequest (fingerprintPage : Page → Fingerprint) (io : RequestIo) (op : UblkOp)
    (startSector : UInt64) (nrSectors : UInt32) (s : RequestState) : Prop :=
  let request := BlockRequest.new op startSector nrSectors
  let outcome := (executeRequest fingerprintPage io request s).1
  let result := (handleRequest fingerprintPage io request s).1
  let s' := (handleRequest fingerprintPage io request s).2
  (op.isPaged = true →
    (result < 0 ∨
      result = 512 * nrSectors.toNat ∧
        ProcessedRange fingerprintPage io op startSector nrSectors s s') ∧
    (result < 0 → ∃ errno, outcome = .error errno)) ∧
  (outcome = .error .einval ∨ outcome = .error .eopnotsupp → s' = s)

/-- The engine fails on a page of the request, after it processed the pages before. -/
def BlockRequest.FailsOnPage (fingerprintPage : Page → Fingerprint) (io : RequestIo)
    (request : BlockRequest) (s : RequestState) : Prop :=
  let process := fun pageIdx => request.op.processPage fingerprintPage io request.bytes pageIdx
    (request.pageOffset pageIdx)
  ∃ pageIdx < request.bytes / pageSize, ∃ before,
    Loop.forEach process (List.range pageIdx) s = (.ok (), before) ∧
      ∃ errno, (process pageIdx before).1 = .error errno

/-- The length fits a signed 32-bit number, and the range ends at or below byte `2 ^ 64`. -/
def FitsResult (startSector : UInt64) (nrSectors : UInt32) : Prop :=
  nrSectors.toNat < 2 ^ 22 ∧
    (nrSectors.toNat = 0 ∨ startSector.toNat + nrSectors.toNat ≤ 2 ^ 55)

instance (startSector : UInt64) (nrSectors : UInt32) :
    Decidable (FitsResult startSector nrSectors) :=
  inferInstanceAs (Decidable (_ ∧ _))

/-! ## Casts -/

/-- Lengths below 2 GiB are reported as they are. -/
theorem asI32_of_lt {n : Nat} (h : n < 2 ^ 31) : asI32 n = n := by
  unfold asI32
  rw [Int.bmod_def]
  omega

/-- Lengths from 2 GiB on, as long as 32 bits hold them, are reported as negative numbers. -/
theorem asI32_neg {n : Nat} (h : 2 ^ 31 ≤ n) (hn : n < 2 ^ 32) : asI32 n < 0 := by
  unfold asI32
  rw [Int.bmod_def]
  omega

theorem Errno.result_neg (errno : Errno) : errno.result < 0 := by
  cases errno <;> decide

/-! ## Ranges of pages -/

/-- A range of whole pages is covered by the offsets of these pages. -/
theorem coversRange_map {f : Nat → UInt64} {first n : Nat} (hfirst : first % pageSize = 0)
    (hf : ∀ i < n, (f i).toNat = first + i * pageSize) :
    CoversRange ((List.range n).map f) first (first + n * pageSize) := by
  have hmap : ((List.range n).map f).map UInt64.toNat =
      (List.range n).map fun i => first + i * pageSize := by
    rw [List.map_map]
    apply List.map_congr_left
    intro i hi
    exact hf i (List.mem_range.mp hi)
  unfold CoversRange
  rw [hmap]
  constructor
  · rw [List.pairwise_map]
    refine List.pairwise_lt_range.imp ?_
    intro i j hij
    have := Nat.mul_lt_mul_of_pos_right hij (show 0 < pageSize by decide)
    omega
  · intro p
    simp only [List.mem_map, List.mem_range]
    constructor
    · rintro ⟨i, hi, rfl⟩
      have hle := Nat.mul_le_mul_right pageSize (Nat.succ_le_of_lt hi)
      rw [Nat.succ_mul] at hle
      refine ⟨?_, first + i * pageSize, Nat.le_add_right _ _, ?_, le_rfl, ?_⟩
      · exact Nat.dvd_add (Nat.dvd_of_mod_eq_zero hfirst) (Nat.dvd_mul_left _ _)
      · unfold pageSize at *
        omega
      · unfold pageSize
        omega
    · rintro ⟨hdvd, b, hb, hlast, hpb, hbp⟩
      refine ⟨(p - first) / pageSize, ?_, ?_⟩ <;> unfold pageSize at * <;> omega

/-- A covered range of whole pages ends at or below byte `2 ^ 64`. -/
theorem CoversRange.last_le {offsets : List UInt64} {first last : Nat}
    (h : CoversRange offsets first last) (hlast : last % pageSize = 0) (hlt : first < last)
    (hfirst : first % pageSize = 0) : last ≤ 2 ^ 64 := by
  have hmem : last - pageSize ∈ offsets.map UInt64.toNat := by
    rw [h.2]
    refine ⟨?_, last - 1, ?_, ?_, ?_, ?_⟩ <;> unfold pageSize at * <;> omega
  obtain ⟨v, -, hv⟩ := List.mem_map.mp hmem
  have hbound := v.toNat_lt
  unfold pageSize at *
  omega

/-! ## Results -/

section

variable {fingerprintPage : Page → Fingerprint} {io : RequestIo} {op : UblkOp}
  {startSector : UInt64} {nrSectors : UInt32} {s : RequestState}

/-- The request runs over all its pages, or fails on one of them. -/
theorem executeRequest_cases (fingerprintPage : Page → Fingerprint) (io : RequestIo)
    {request : BlockRequest} (hop : request.op.isPaged = true)
    (h : ¬ request.Refused s.buffer) :
    (∃ s', executeRequest fingerprintPage io request s = (.error .eio, s') ∧
      request.FailsOnPage fingerprintPage io s) ∨
    (∃ s', executeRequest fingerprintPage io request s = (.ok request.bytes, s') ∧
      ¬ request.FailsOnPage fingerprintPage io s ∧
      Loop.forEach (fun pageIdx => request.op.processPage fingerprintPage io request.bytes pageIdx
        (request.pageOffset pageIdx)) (List.range (request.bytes / pageSize)) s = (.ok (), s')) := by
  have hfails : request.FailsOnPage fingerprintPage io s ↔ ∃ errno, (Loop.forEach
      (fun pageIdx => request.op.processPage fingerprintPage io request.bytes pageIdx
        (request.pageOffset pageIdx)) (List.range (request.bytes / pageSize)) s).1 =
      .error errno := by
    simp only [Loop.forEach_error_iff, BlockRequest.FailsOnPage]
    constructor
    · rintro ⟨i, hi, before, hok, errno, herr⟩
      exact ⟨errno, i, hi, before, hok, herr⟩
    · rintro ⟨errno, i, hi, before, hok, herr⟩
      exact ⟨i, hi, before, hok, errno, herr⟩
  rw [executeRequest_accepted fingerprintPage io hop h, hfails]
  rcases hloop : Loop.forEach (fun pageIdx => request.op.processPage fingerprintPage io
    request.bytes pageIdx (request.pageOffset pageIdx))
    (List.range (request.bytes / pageSize)) s with ⟨errno | _, s'⟩
  · left
    have herr := congrArg Prod.fst hloop
    rw [Loop.forEach_error_iff] at herr
    obtain ⟨i, -, before, -, hi⟩ := herr
    obtain rfl := processPage_error hi
    exact ⟨s', rfl, _, rfl⟩
  · right
    refine ⟨s', rfl, ?_, rfl⟩
    rintro ⟨errno, h⟩
    cases h

/-- A request within the limits processes its range. -/
theorem processedRange_of_fits {s' : RequestState}
    (ha : (BlockRequest.new op startSector nrSectors).Aligned)
    (hfits : FitsResult startSector nrSectors)
    (h : Loop.forEach (fun pageIdx => op.processPage fingerprintPage io
        (BlockRequest.new op startSector nrSectors).bytes pageIdx
        ((BlockRequest.new op startSector nrSectors).pageOffset pageIdx))
      (List.range ((BlockRequest.new op startSector nrSectors).bytes / pageSize)) s = (.ok (), s')) :
    ProcessedRange fingerprintPage io op startSector nrSectors s s' := by
  rw [BlockRequest.aligned_new] at ha
  obtain ⟨hlt, hend⟩ := hfits
  have hbytes : (BlockRequest.new op startSector nrSectors).bytes = 512 * nrSectors.toNat := by
    rw [BlockRequest.bytes_new]
    omega
  rw [hbytes] at h
  have hoffset : ∀ i < 512 * nrSectors.toNat / pageSize,
      ((BlockRequest.new op startSector nrSectors).pageOffset i).toNat =
        512 * startSector.toNat + i * pageSize := by
    intro i hi
    rw [BlockRequest.toNat_pageOffset_new] <;> unfold pageSize at * <;> omega
  refine ⟨(List.range (512 * nrSectors.toNat / pageSize)).map
    (BlockRequest.new op startSector nrSectors).pageOffset, ?_, ?_⟩
  · have hfirst : 512 * startSector.toNat % pageSize = 0 := by
      unfold pageSize
      omega
    have hcovers := coversRange_map hfirst hoffset
    have hend : 512 * startSector.toNat + 512 * nrSectors.toNat / pageSize * pageSize =
        512 * (startSector.toNat + nrSectors.toNat) := by
      unfold pageSize
      omega
    rwa [hend] at hcovers
  · -- the loop runs over the indices, and the offset of each is computed in its round
    have hzip : ((List.range (512 * nrSectors.toNat / pageSize)).map
        (BlockRequest.new op startSector nrSectors).pageOffset).zipIdx =
        (List.range (512 * nrSectors.toNat / pageSize)).map fun i =>
          ((BlockRequest.new op startSector nrSectors).pageOffset i, i) := by
      apply List.ext_getElem
      · simp
      · intro i _ _
        simp
    rw [hzip, Loop.forEach_map]
    exact h

/-- A request that was carried out meets its contract exactly when it is within the limits. -/
theorem handlesRequest_iff_of_ok {s' : RequestState} (hop : op.isPaged = true)
    (ha : (BlockRequest.new op startSector nrSectors).Aligned)
    (hexec : executeRequest fingerprintPage io (BlockRequest.new op startSector nrSectors) s =
      (.ok (BlockRequest.new op startSector nrSectors).bytes, s'))
    (hloop : Loop.forEach (fun pageIdx => op.processPage fingerprintPage io
        (BlockRequest.new op startSector nrSectors).bytes pageIdx
        ((BlockRequest.new op startSector nrSectors).pageOffset pageIdx))
      (List.range ((BlockRequest.new op startSector nrSectors).bytes / pageSize)) s =
        (.ok (), s')) :
    HandlesRequest fingerprintPage io op startSector nrSectors s ↔
      FitsResult startSector nrSectors := by
  simp only [HandlesRequest, handleRequest, hexec, hop, reduceCtorEq, exists_false, imp_false,
    or_self, false_implies, and_true, true_implies]
  have hsectors := (BlockRequest.aligned_new op startSector nrSectors).mp ha
  have hbytes := BlockRequest.bytes_new op startSector nrSectors
  constructor
  · rintro ⟨hresult, hpos⟩
    obtain ⟨hlength, offsets, hcovers, -⟩ := hresult.resolve_left hpos
    have hlt : (BlockRequest.new op startSector nrSectors).bytes < 2 ^ 31 := by
      by_contra hge
      exact hpos (asI32_neg (Nat.le_of_not_lt hge) (by omega))
    rw [asI32_of_lt hlt] at hlength
    refine ⟨by omega, ?_⟩
    by_cases hzero : nrSectors.toNat = 0
    · exact Or.inl hzero
    · have hle := hcovers.last_le (by unfold pageSize; omega) (by omega) (by unfold pageSize; omega)
      right
      omega
  · intro hfits
    have hlt : (BlockRequest.new op startSector nrSectors).bytes < 2 ^ 31 := by
      have := hfits.1
      omega
    rw [asI32_of_lt hlt]
    refine ⟨Or.inr ⟨?_, processedRange_of_fits ha hfits hloop⟩, by omega⟩
    have := hfits.1
    omega

end

/-- A block request meets its contract exactly when it is refused, when the engine fails on
one of its pages, or when its length and its range are within the limits. -/
theorem handlesRequest_iff (fingerprintPage : Page → Fingerprint) (io : RequestIo) (op : UblkOp)
    (startSector : UInt64) (nrSectors : UInt32) (s : RequestState) :
    HandlesRequest fingerprintPage io op startSector nrSectors s ↔
      (op.isPaged = true →
        (BlockRequest.new op startSector nrSectors).Refused s.buffer ∨
        (BlockRequest.new op startSector nrSectors).FailsOnPage fingerprintPage io s ∨
        FitsResult startSector nrSectors) := by
  have hop_eq : (BlockRequest.new op startSector nrSectors).op = op := rfl
  by_cases hop : op.isPaged = true
  · by_cases hrefused : (BlockRequest.new op startSector nrSectors).Refused s.buffer
    · have hexec := executeRequest_refused fingerprintPage io (hop_eq ▸ hop) hrefused
      simp [HandlesRequest, handleRequest, hexec, hrefused, Errno.result_neg]
    · simp only [hop, hrefused, false_or, true_implies]
      rcases executeRequest_cases fingerprintPage io (hop_eq ▸ hop) hrefused with
        ⟨s', hexec, hfails⟩ | ⟨s', hexec, hfails, hloop⟩
      · simp [HandlesRequest, handleRequest, hexec, hfails, Errno.result_neg]
      · simp only [hfails, false_or]
        exact handlesRequest_iff_of_ok hop (not_not.mp (not_or.mp hrefused).1) hexec hloop
  · simp only [HandlesRequest, hop]
    cases op with
    | read | write | discard | writeZeroes => exact absurd rfl hop
    | flush => simp [executeRequest_flush hop_eq]
    | unsupported raw => simp [handleRequest, executeRequest_unsupported hop_eq]

/-- Discards never fail on a page. -/
theorem not_failsOnPage_discard (fingerprintPage : Page → Fingerprint) (io : RequestIo)
    {request : BlockRequest} (h : request.op = .discard) (s : RequestState) :
    ¬ request.FailsOnPage fingerprintPage io s := by
  rintro ⟨_, -, _, -, errno, herr⟩
  rw [h] at herr
  cases herr

/-- A discard of 2 GiB succeeds and reports a negative number. -/
theorem not_handlesRequest_of_twoGiB : ¬ HandlesRequest firstBytes .done .discard 0 (2 ^ 22)
    ⟨.ofStore (.blank 4 (by decide)) 1 1, []⟩ := by
  have ha : (BlockRequest.new .discard 0 (2 ^ 22)).Aligned := by decide
  have haccepted : ¬ (BlockRequest.new .discard 0 (2 ^ 22)).Refused
      (RequestState.buffer ⟨.ofStore (.blank 4 (by decide)) 1 1, []⟩) := by
    rintro (h | ⟨h, -⟩)
    · exact h ha
    · cases h
  rcases executeRequest_cases firstBytes .done rfl haccepted with
    ⟨s', -, hfails⟩ | ⟨s', hexec, -, hloop⟩
  · exact absurd hfails (not_failsOnPage_discard _ _ rfl _)
  · rw [handlesRequest_iff_of_ok rfl ha hexec hloop]
    decide

end Animaksm.Proxy

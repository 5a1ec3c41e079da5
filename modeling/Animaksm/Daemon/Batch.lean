import Animaksm.Daemon.Madvise
import Animaksm.Lib.Filling

/-!
# The batch of one process

The lengths of a batch fill the byte cap from the sizes of the regions, and its
addresses are those of the first regions. The additions and subtractions on the way
never leave 64 bits, whatever the sizes add up to.
-/

namespace Animaksm.Daemon

open Animaksm.Common

/-- The number of bytes between the bounds of a region. -/
def bytes (region : MapsEntry) : Nat := region.stop.toNat - region.start.toNat

/-- Addition that fails where it would wrap. -/
def checkedAddBytes (a b : UInt64) : Option UInt64 :=
  if a.toNat + b.toNat < 2 ^ 64 then some (a + b) else none

/-- Subtraction that fails where it would wrap. -/
def checkedSubBytes (a b : UInt64) : Option UInt64 := if b ≤ a then some (a - b) else none

/-- The rest of the batch, with every addition and subtraction checked. -/
def buildBatchCheckedFrom (maxBytes : UInt64) :
    UInt64 → List MapsEntry → Option (List (UInt64 × UInt64))
  | _, [] => some []
  | bytesAccumulated, region :: regions =>
    if bytesAccumulated ≥ maxBytes then some []
    else do
      let size ← checkedSubBytes region.stop region.start
      let remaining ← checkedSubBytes maxBytes bytesAccumulated
      let len := min size remaining
      if len = 0 then some []
      else do
        let bytesAccumulated ← checkedAddBytes bytesAccumulated len
        let batch ← buildBatchCheckedFrom maxBytes bytesAccumulated regions
        some ((region.start, len) :: batch)

/-- The batch, or nothing where an operation on the way would wrap. -/
def buildBatchChecked (eligible : List MapsEntry) (maxBytes : UInt64) :
    Option (List (UInt64 × UInt64)) :=
  buildBatchCheckedFrom maxBytes 0 eligible

variable {maxBytes acc : UInt64} {region : MapsEntry} {regions : List MapsEntry}

theorem toNat_size (h : region.start ≤ region.stop) : region.size.toNat = bytes region :=
  UInt64.toNat_sub_of_le _ _ h

theorem bytes_pos (h : region.start < region.stop) : 0 < bytes region :=
  Nat.sub_pos_of_lt (UInt64.lt_iff_toNat_lt.mp h)

theorem toNat_min (a b : UInt64) : (min a b).toNat = min a.toNat b.toNat := by
  change (if a ≤ b then a else b).toNat = _
  split
  next hle => exact (Nat.min_eq_left (UInt64.le_iff_toNat_le.mp hle)).symm
  next hle => exact (Nat.min_eq_right (Nat.le_of_not_le fun h => hle (UInt64.le_iff_toNat_le.mpr h))).symm

/-- One round of the loop: nothing is left to take and the batch ends, or a part of the region is
taken and the accumulated bytes stay under the cap. -/
theorem buildBatchFrom_cons (hregion : region.start ≤ region.stop) (hacc : acc ≤ maxBytes)
    (regions : List MapsEntry) :
    (min (bytes region) (maxBytes.toNat - acc.toNat) = 0 ∧
      buildBatchFrom maxBytes acc (region :: regions) = [] ∧
      buildBatchCheckedFrom maxBytes acc (region :: regions) = some []) ∨
    ∃ len : UInt64, len.toNat = min (bytes region) (maxBytes.toNat - acc.toNat) ∧ 0 < len.toNat ∧
      (acc + len).toNat = acc.toNat + len.toNat ∧ acc + len ≤ maxBytes ∧
      buildBatchFrom maxBytes acc (region :: regions) =
        (region.start, len) :: buildBatchFrom maxBytes (acc + len) regions ∧
      buildBatchCheckedFrom maxBytes acc (region :: regions) =
        (buildBatchCheckedFrom maxBytes (acc + len) regions).map ((region.start, len) :: ·) := by
  have hle := UInt64.le_iff_toNat_le.mp hacc
  have hbound := maxBytes.toNat_lt
  have hlen : (min region.size (maxBytes - acc)).toNat =
      min (bytes region) (maxBytes.toNat - acc.toNat) := by
    rw [toNat_min, toNat_size hregion, UInt64.toNat_sub_of_le _ _ hacc]
  have hsize : checkedSubBytes region.stop region.start = some region.size := if_pos hregion
  have hremaining : checkedSubBytes maxBytes acc = some (maxBytes - acc) := if_pos hacc
  rw [buildBatchFrom, buildBatchCheckedFrom]
  by_cases hfull : acc ≥ maxBytes
  · have hfullNat := UInt64.le_iff_toNat_le.mp hfull
    rw [if_pos hfull, if_pos hfull]
    exact .inl ⟨by omega, rfl, rfl⟩
  · rw [if_neg hfull, if_neg hfull, hsize, hremaining]
    dsimp only [Option.bind_eq_bind, Option.bind_some]
    by_cases hzero : min region.size (maxBytes - acc) = 0
    · rw [if_pos hzero, if_pos hzero]
      exact .inl ⟨by rw [← hlen, hzero]; rfl, rfl, rfl⟩
    · have hpos : 0 < (min region.size (maxBytes - acc)).toNat :=
        Nat.pos_of_ne_zero fun h => hzero (UInt64.toNat_inj.mp h)
      have hsum : (acc + min region.size (maxBytes - acc)).toNat =
          acc.toNat + (min region.size (maxBytes - acc)).toNat := by
        rw [UInt64.toNat_add]
        exact Nat.mod_eq_of_lt (by omega)
      have hadd : checkedAddBytes acc (min region.size (maxBytes - acc)) =
          some (acc + min region.size (maxBytes - acc)) := if_pos (by omega)
      rw [if_neg hzero, if_neg hzero, hadd, Option.bind_some]
      refine .inr ⟨_, hlen, hpos, hsum, UInt64.le_iff_toNat_le.mpr (by omega), rfl, ?_⟩
      cases buildBatchCheckedFrom maxBytes (acc + min region.size (maxBytes - acc)) regions <;> rfl

/-- The checked operations all succeed. -/
theorem buildBatchCheckedFrom_eq (hregions : ∀ region ∈ regions, region.start ≤ region.stop)
    (hacc : acc ≤ maxBytes) :
    buildBatchCheckedFrom maxBytes acc regions = some (buildBatchFrom maxBytes acc regions) := by
  induction regions generalizing acc with
  | nil => rfl
  | cons region regions ih =>
    obtain ⟨hregion, hrest⟩ := List.forall_mem_cons.mp hregions
    rcases buildBatchFrom_cons hregion hacc regions with
      ⟨-, hbatch, hchecked⟩ | ⟨len, -, -, -, hacc', hbatch, hchecked⟩
    · rw [hbatch, hchecked]
    · rw [hbatch, hchecked, ih hrest hacc', Option.map_some]

/-- The lengths fill what is left under the cap. -/
theorem lengths_buildBatchFrom (hregions : ∀ region ∈ regions, region.start ≤ region.stop)
    (hacc : acc ≤ maxBytes) :
    (buildBatchFrom maxBytes acc regions).map (fun range => range.2.toNat) =
      Filling.fill (maxBytes.toNat - acc.toNat) (regions.map bytes) := by
  induction regions generalizing acc with
  | nil => rfl
  | cons region regions ih =>
    obtain ⟨hregion, hrest⟩ := List.forall_mem_cons.mp hregions
    rw [List.map_cons]
    rcases buildBatchFrom_cons hregion hacc regions with
      ⟨hzero, hbatch, -⟩ | ⟨len, hlen, hpos, hsum, hacc', hbatch, -⟩
    · rw [hbatch, Filling.fill_cons_zero hzero, List.map_nil]
    · rw [hbatch, Filling.fill_cons_pos (hlen ▸ hpos), List.map_cons, ih hrest hacc', hsum, hlen,
        Nat.sub_sub]

/-- The addresses are those of the first regions. -/
theorem starts_buildBatchFrom (maxBytes acc : UInt64) (regions : List MapsEntry) :
    (buildBatchFrom maxBytes acc regions).map Prod.fst <+: regions.map MapsEntry.start := by
  induction regions generalizing acc with
  | nil => exact List.prefix_rfl
  | cons region regions ih =>
    rw [buildBatchFrom]
    dsimp only
    split
    · exact List.nil_prefix
    · split
      · exact List.nil_prefix
      · exact List.cons_prefix_cons.mpr ⟨rfl, ih _⟩

/-- The lengths of a batch fill the cap. -/
theorem lengths_buildBatch (hregions : ∀ region ∈ regions, region.start ≤ region.stop)
    (maxBytes : UInt64) :
    (buildBatch regions maxBytes).map (fun range => range.2.toNat) =
      Filling.fill maxBytes.toNat (regions.map bytes) :=
  lengths_buildBatchFrom hregions (UInt64.le_iff_toNat_le.mpr (Nat.zero_le _))

/-- The range at some place of a batch is a first part of the region there, and all of it before
the end. -/
theorem getElem?_buildBatch (hregions : ∀ region ∈ regions, region.start ≤ region.stop) {k : Nat}
    {range : UInt64 × UInt64} (h : (buildBatch regions maxBytes)[k]? = some range) :
    ∃ region, regions[k]? = some region ∧ range.1 = region.start ∧ 0 < range.2.toNat ∧
      range.2.toNat ≤ bytes region ∧
      (k + 1 < (buildBatch regions maxBytes).length → range.2.toNat = bytes region) := by
  have hlengths := lengths_buildBatch hregions maxBytes
  have hlength : (Filling.fill maxBytes.toNat (regions.map bytes)).length =
      (buildBatch regions maxBytes).length := by
    rw [← hlengths, List.length_map]
  have hfill : (Filling.fill maxBytes.toNat (regions.map bytes))[k]? = some range.2.toNat := by
    rw [← hlengths, List.getElem?_map, h, Option.map_some]
  obtain ⟨size, hsize, hpos, hle, hwhole⟩ := Filling.getElem?_fill hfill
  rw [List.getElem?_map, Option.map_eq_some_iff] at hsize
  obtain ⟨region, hregion, rfl⟩ := hsize
  have hstart : ((buildBatch regions maxBytes).map Prod.fst)[k]? = some range.1 := by
    rw [List.getElem?_map, h, Option.map_some]
  have hfirst : (buildBatch regions maxBytes).map Prod.fst <+: regions.map MapsEntry.start :=
    starts_buildBatchFrom maxBytes 0 regions
  obtain ⟨hk, hget⟩ := List.getElem?_eq_some_iff.mp hstart
  have haddr := List.prefix_iff_getElem?.mp hfirst k hk
  rw [hget, List.getElem?_map, hregion, Option.map_some, Option.some_inj] at haddr
  exact ⟨region, hregion, haddr.symm, hpos, hle, hlength ▸ hwhole⟩

/-- A batch of non-empty regions under a positive cap is not empty. -/
theorem buildBatch_ne_nil (hregion : region.start < region.stop)
    (hregions : ∀ region ∈ regions, region.start ≤ region.stop) (hcap : 0 < maxBytes) :
    buildBatch (region :: regions) maxBytes ≠ [] := by
  intro hnil
  have hpos : 0 < min (bytes region) maxBytes.toNat :=
    Nat.lt_min.mpr ⟨bytes_pos hregion, UInt64.lt_iff_toNat_lt.mp hcap⟩
  have hlengths := lengths_buildBatch
    (List.forall_mem_cons.mpr ⟨UInt64.le_of_lt hregion, hregions⟩) maxBytes
  rw [hnil, List.map_cons, Filling.fill_cons_pos hpos] at hlengths
  exact List.cons_ne_nil _ _ hlengths.symm

/-- A batch covers the first regions up to the cap: all of each of them, but for the last one, of
which it covers a first part. Nothing wraps on the way, and whole pages stay whole pages. -/
theorem buildBatch_greedy (hregions : ∀ region ∈ regions, region.start < region.stop)
    (maxBytes : UInt64) :
    buildBatchChecked regions maxBytes = some (buildBatch regions maxBytes) ∧
    (∀ k range, (buildBatch regions maxBytes)[k]? = some range →
      ∃ region, regions[k]? = some region ∧ range.1 = region.start ∧ 0 < range.2.toNat ∧
        range.2.toNat ≤ bytes region ∧
        (k + 1 < (buildBatch regions maxBytes).length → range.2.toNat = bytes region)) ∧
    ((buildBatch regions maxBytes).map fun range => range.2.toNat).sum =
      min maxBytes.toNat (regions.map bytes).sum ∧
    (4096 ∣ maxBytes.toNat → (∀ region ∈ regions, 4096 ∣ bytes region) →
      ∀ range ∈ buildBatch regions maxBytes, 4096 ∣ range.2.toNat) := by
  have hbounds : ∀ region ∈ regions, region.start ≤ region.stop :=
    fun region hmem => UInt64.le_of_lt (hregions region hmem)
  have hlengths := lengths_buildBatch hbounds maxBytes
  refine ⟨buildBatchCheckedFrom_eq hbounds (UInt64.le_iff_toNat_le.mpr (Nat.zero_le _)),
    fun k range => getElem?_buildBatch hbounds, ?_, fun hcap hsizes range hrange => ?_⟩
  · rw [hlengths]
    exact Filling.sum_fill (List.forall_mem_map.mpr fun region hmem => bytes_pos (hregions region hmem)) _
  · have hmem : range.2.toNat ∈ Filling.fill maxBytes.toNat (regions.map bytes) :=
      hlengths ▸ List.mem_map_of_mem hrange
    exact Filling.dvd_of_mem_fill hcap (List.forall_mem_map.mpr hsizes) hmem

/-- Three regions of two pages each, of which the last one ends with the address space. -/
def threeRegions : List MapsEntry :=
  [⟨0x1000, 0x3000, "rw-p", 0, "00:00", 0, ""⟩, ⟨0x4000, 0x6000, "rw-p", 0, "00:00", 0, ""⟩,
    ⟨0xffffffffffffd000, 0xfffffffffffff000, "rw-p", 0, "00:00", 0, ""⟩]

/-- The cap falls inside the second region. -/
theorem buildBatch_greedy_threeRegions :
    ((buildBatch threeRegions 0x3000).map fun range => range.2.toNat).sum =
      min (0x3000 : UInt64).toNat (threeRegions.map bytes).sum :=
  (buildBatch_greedy (by decide) 0x3000).2.2.1

end Animaksm.Daemon

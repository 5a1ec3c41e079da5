import Animaksm.Daemon.Independence
import Animaksm.Lib.Alignment
import Animaksm.Lib.Log
import Animaksm.Lib.Text

/-!
# Collapsing aligned memory

A region that is large enough can be rounded to huge pages without leaving 64 bits,
and what remains of it is the union of the huge pages it contains. The calls are
listed with their outcomes: they go through the regions with a huge page, in order,
until the kernel does not know the call.
-/

namespace Animaksm.Daemon

open Animaksm.Common

/-- The regions that are considered. -/
def large (region : MapsEntry) : Bool := region.eligible && decide (region.size ≥ thpSize)

/-- The start of a region, rounded up to a huge page. -/
def thpStart (region : MapsEntry) : UInt64 := (region.start + thpSize - 1) &&& ~~~(thpSize - 1)

/-- The end of a region, rounded down to a huge page. -/
def thpStop (region : MapsEntry) : UInt64 := region.stop &&& ~~~(thpSize - 1)

/-- The aligned part of a region. -/
def thpRange (region : MapsEntry) : UInt64 × UInt64 :=
  (thpStart region, thpStop region - thpStart region)

/-- A call of `process_madvise` on one range, with its outcome. -/
structure CollapseCall where
  addr : UInt64
  len : UInt64
  outcome : Except Int Unit

namespace CollapseCall

/-- The call succeeded. -/
def succeeded (call : CollapseCall) : Bool :=
  match call.outcome with
  | .ok _ => true
  | .error _ => false

/-- The call failed with ENOSYS. -/
def unsupported (call : CollapseCall) : Bool :=
  match call.outcome with
  | .ok _ => false
  | .error errno => decide (errno = 38)

end CollapseCall

/-! ## Rounding -/

section Rounding

variable {region : MapsEntry}

/-- The bytes of the huge pages that lie in a region. -/
def hugePages (region : MapsEntry) : Set Nat :=
  Alignment.blocks (2 ^ 21) region.start.toNat region.stop.toNat

/-- A huge page lies in the region. -/
def HasHugePage (region : MapsEntry) : Prop :=
  Alignment.HasBlock (2 ^ 21) region.start.toNat region.stop.toNat

theorem toNat_thpSize : thpSize.toNat = 2 ^ 21 := by decide

/-- The mask rounds down to a huge page. -/
theorem toNat_and_mask (addr : UInt64) :
    (addr &&& ~~~(thpSize - 1)).toNat = Alignment.down (2 ^ 21) addr.toNat := by
  have hmask : (~~~(thpSize - 1)).toNat = 2 ^ 64 - 1 - (2 ^ 21 - 1) := by decide
  rw [UInt64.toNat_and, hmask]
  exact Alignment.and_mask addr.toNat_lt (by decide)

/-- The size of a large region keeps its rounded start in 64 bits. -/
theorem start_add_thpSize_lt (hbounds : region.start ≤ region.stop) (hlarge : large region) :
    region.start.toNat + thpSize.toNat < 2 ^ 64 := by
  have hsize : thpSize ≤ region.size := by
    simp only [large, Bool.and_eq_true, decide_eq_true_eq] at hlarge
    exact hlarge.2
  have hle := UInt64.le_iff_toNat_le.mp hsize
  have hboundsNat := UInt64.le_iff_toNat_le.mp hbounds
  rw [MapsEntry.size, UInt64.toNat_sub_of_le _ _ hbounds] at hle
  have hstop := region.stop.toNat_lt
  omega

theorem toNat_thpStart (hbounds : region.start ≤ region.stop) (hlarge : large region) :
    (thpStart region).toNat = Alignment.up (2 ^ 21) region.start.toNat := by
  have hlt := start_add_thpSize_lt hbounds hlarge
  have hadd : (region.start + thpSize).toNat = region.start.toNat + thpSize.toNat := by
    rw [UInt64.toNat_add, Nat.mod_eq_of_lt hlt]
  have hone : (1 : UInt64) ≤ region.start + thpSize := by
    rw [UInt64.le_iff_toNat_le, hadd, toNat_thpSize]
    exact Nat.le_add_left_of_le (by decide)
  rw [thpStart, toNat_and_mask, UInt64.toNat_sub_of_le _ _ hone, hadd, toNat_thpSize]
  rfl

theorem toNat_thpStop (region : MapsEntry) :
    (thpStop region).toNat = Alignment.down (2 ^ 21) region.stop.toNat := toNat_and_mask _

/-- A large region is skipped exactly when it contains no huge page. -/
theorem thpStart_lt_iff (hbounds : region.start ≤ region.stop) (hlarge : large region) :
    thpStart region < thpStop region ↔ HasHugePage region := by
  rw [UInt64.lt_iff_toNat_lt, toNat_thpStart hbounds hlarge, toNat_thpStop]
  exact (Alignment.hasBlock_iff (by decide)).symm

/-- The rounded range consists of the huge pages of the region. -/
theorem thpRange_eq (hbounds : region.start ≤ region.stop) (hlarge : large region)
    (hlt : thpStart region < thpStop region) :
    Set.Ico (thpStart region).toNat
      ((thpStart region).toNat + (thpStop region - thpStart region).toNat) = hugePages region := by
  have hle := UInt64.le_iff_toNat_le.mp (UInt64.le_of_lt hlt)
  rw [UInt64.toNat_sub_of_le _ _ (UInt64.le_of_lt hlt), Nat.add_sub_cancel' hle,
    toNat_thpStart hbounds hlarge, toNat_thpStop]
  exact (Alignment.blocks_eq (by decide)).symm

end Rounding

/-! ## The text of a failure -/

theorem notMem_toString (errno : Int) : 'E' ∉ (toString errno).toList := by
  have hdigits : ∀ n : Nat, 'E' ∉ (Nat.repr n).toList := fun n h => by
    rw [Nat.repr, String.toList_ofList] at h
    exact absurd (Text.isDigit_of_mem_toDigits h) (by decide)
  cases errno with
  | ofNat n => exact hdigits n
  | negSucc n =>
    change 'E' ∉ ("-" ++ Nat.repr (n + 1)).toList
    rw [String.toList_append, List.mem_append]
    rintro (h | h)
    · exact absurd h (by decide)
    · exact hdigits _ h

/-- The text of a failed call names ENOSYS for this error only. -/
theorem contains_errnoText (errno : Int) :
    textContains (Host.errnoText errno) "ENOSYS" = decide (errno = 38) := by
  have hfront : 'E' ∉ "errno=".toList ++ (toString errno).toList ++ " (".toList := by
    rw [List.mem_append, List.mem_append]
    rintro ((h | h) | h)
    · exact absurd h (by decide)
    · exact notMem_toString errno h
    · exact absurd h (by decide)
  have hcontains : textContains (Host.errnoText errno) "ENOSYS" =
      decide ("ENOSYS".toList <:+: (errnoToStr errno).toList ++ ")".toList) := by
    rw [textContains, Host.errnoText, decide_eq_decide]
    simp only [String.toList_append]
    rw [List.append_assoc]
    exact Text.infix_append_iff hfront
  rw [hcontains]
  unfold errnoToStr
  split
  any_goals rfl
  next hne =>
    rw [decide_eq_false hne]
    rfl

/-! ## The calls -/

namespace Host

variable {E W : Type} (H : Host E W)

/-- The calls on some regions, each with the outcome it has in its turn, and the world they leave. -/
def collapseCalls (pidfd : Int32) : List MapsEntry → W → List CollapseCall × W
  | [], world => ([], world)
  | region :: regions, world =>
    if thpStart region ≥ thpStop region then collapseCalls pidfd regions world
    else
      let (outcome, world) := H.processMadvise pidfd (thpStart region)
        (thpStop region - thpStart region) madvCollapse world
      let call : CollapseCall := ⟨thpStart region, thpStop region - thpStart region, outcome⟩
      if call.unsupported then ([call], world)
      else
        let (calls, world) := collapseCalls pidfd regions world
        (call :: calls, world)

/-- The calls on the regions of a process. -/
def regionCalls (pid : UInt32) (regions : List MapsEntry) (world : W) : List CollapseCall :=
  match H.pidfdOpen pid world with
  | (.error _, _) => []
  | (.ok pidfd, world) => (H.collapseCalls pidfd (regions.filter large) world).1

/-- These calls and nothing else lead from one world to the other, each with its outcome, between the
opening of the process and its closing; without a large region the process is not opened. -/
def CollapsedBy (pid : UInt32) (regions : List MapsEntry) (calls : List CollapseCall)
    (world world' : W) : Prop :=
  if (regions.filter large).isEmpty then calls = [] ∧ world' = world
  else
    match H.pidfdOpen pid world with
    | (.error _, opened) => calls = [] ∧ world' = opened
    | (.ok pidfd, opened) => ∃ left, Log.Leads (fun call before after =>
        H.processMadvise pidfd call.addr call.len madvCollapse before = (call.outcome, after))
      calls opened left ∧ world' = H.close pidfd left

/-- A call with the advice to collapse is made, and fails with the text of its error number. -/
theorem processMadviseSingle_collapse (pidfd : Int32) (addr len : UInt64) (world : W) :
    H.processMadviseSingle pidfd addr len madvCollapse world =
      match H.processMadvise pidfd addr len madvCollapse world with
      | (.error errno, world) => (.error (errnoText errno), world)
      | (.ok (), world) => (.ok (), world) := if_neg (by decide)

/-- One round of the loop, with the error number of a failed call. -/
theorem collapseEach_cons (pidfd : Int32) (region : MapsEntry) (regions : List MapsEntry)
    (collapsed : Nat) (world : W) :
    H.collapseEach pidfd (region :: regions) collapsed world =
      if thpStart region ≥ thpStop region then H.collapseEach pidfd regions collapsed world
      else
        match H.processMadvise pidfd (thpStart region) (thpStop region - thpStart region)
          madvCollapse world with
        | (.ok (), world) => H.collapseEach pidfd regions (collapsed + 1) world
        | (.error errno, world) =>
          if errno = 38 then (collapsed, world)
          else H.collapseEach pidfd regions collapsed world := by
  rw [collapseEach, processMadviseSingle_collapse]
  unfold thpStart thpStop
  rcases H.processMadvise pidfd _ _ madvCollapse world with ⟨errno | ⟨⟩, world'⟩
  · simp only [contains_errnoText, decide_eq_true_eq]
  · rfl

/-- The count goes up with each successful call. -/
theorem collapseEach_eq (pidfd : Int32) (regions : List MapsEntry) (collapsed : Nat) (world : W) :
    H.collapseEach pidfd regions collapsed world =
      (collapsed + ((H.collapseCalls pidfd regions world).1.filter CollapseCall.succeeded).length,
        (H.collapseCalls pidfd regions world).2) := by
  induction regions generalizing collapsed world with
  | nil => rfl
  | cons region regions ih =>
    rw [collapseEach_cons, collapseCalls]
    split
    · exact ih _ _
    · rcases H.processMadvise pidfd (thpStart region) (thpStop region - thpStart region)
        madvCollapse world with ⟨errno | ⟨⟩, world'⟩
      · by_cases hunsupported : errno = 38
        · subst hunsupported
          rfl
        · simp only [if_neg hunsupported, CollapseCall.unsupported, decide_eq_true_eq]
          exact ih _ _
      · refine (ih _ _).trans ?_
        simp only [CollapseCall.unsupported, Bool.false_eq_true, if_false]
        rw [List.filter_cons_of_pos rfl, List.length_cons, Nat.add_right_comm, Nat.add_assoc]

/-- One round of the calls: nothing for a region without an aligned part, else a call on this
part, which is the last one if it is not supported. -/
theorem collapseCalls_cons (pidfd : Int32) (region : MapsEntry) (regions : List MapsEntry) (world : W) :
    ¬ thpStart region < thpStop region ∧
      (H.collapseCalls pidfd (region :: regions) world).1 =
        (H.collapseCalls pidfd regions world).1 ∨
    thpStart region < thpStop region ∧ ∃ call world',
      (call.addr, call.len) = (thpStart region, thpStop region - thpStart region) ∧
      (H.collapseCalls pidfd (region :: regions) world).1 =
        if call.unsupported then [call] else call :: (H.collapseCalls pidfd regions world').1 := by
  rw [collapseCalls]
  by_cases hskip : thpStart region ≥ thpStop region
  · rw [if_pos hskip]
    exact .inl ⟨UInt64.not_lt.mpr hskip, rfl⟩
  · rw [if_neg hskip]
    rcases H.processMadvise pidfd (thpStart region) (thpStop region - thpStart region) madvCollapse
      world with ⟨outcome, world'⟩
    refine .inr ⟨UInt64.not_le.mp hskip, ⟨thpStart region, thpStop region - thpStart region, outcome⟩,
      world', rfl, ?_⟩
    dsimp only
    split <;> rfl

/-- The calls go through the regions with an aligned part, in order. -/
theorem collapseCalls_ranges (pidfd : Int32) (regions : List MapsEntry) (world : W) :
    (H.collapseCalls pidfd regions world).1.map (fun call => (call.addr, call.len)) <+:
      (regions.filter fun region => thpStart region < thpStop region).map thpRange := by
  induction regions generalizing world with
  | nil => exact List.prefix_rfl
  | cons region regions ih =>
    rcases H.collapseCalls_cons pidfd region regions world with
      ⟨hskip, hcalls⟩ | ⟨hlt, call, world', hrange, hcalls⟩
    · rw [hcalls, List.filter_cons_of_neg (by simpa using hskip)]
      exact ih world
    · rw [hcalls, List.filter_cons_of_pos (by simpa using hlt), List.map_cons]
      split
      · rw [List.map_singleton, hrange]
        exact List.cons_prefix_cons.mpr ⟨rfl, List.nil_prefix⟩
      · rw [List.map_cons, hrange]
        exact List.cons_prefix_cons.mpr ⟨rfl, ih world'⟩

/-- Where every call is supported, none of the regions is left out. -/
theorem collapseCalls_complete {pidfd : Int32} {regions : List MapsEntry} {world : W}
    (h : ∀ call ∈ (H.collapseCalls pidfd regions world).1, call.unsupported = false) :
    (H.collapseCalls pidfd regions world).1.map (fun call => (call.addr, call.len)) =
      (regions.filter fun region => thpStart region < thpStop region).map thpRange := by
  induction regions generalizing world with
  | nil => rfl
  | cons region regions ih =>
    rcases H.collapseCalls_cons pidfd region regions world with
      ⟨hskip, hcalls⟩ | ⟨hlt, call, world', hrange, hcalls⟩
    · rw [hcalls] at h ⊢
      rw [List.filter_cons_of_neg (by simpa using hskip)]
      exact ih h
    · rw [hcalls] at h ⊢
      rw [List.filter_cons_of_pos (by simpa using hlt), List.map_cons]
      split_ifs at h ⊢ with hunsupported
      · rw [h call List.mem_cons_self] at hunsupported
        exact absurd hunsupported Bool.false_ne_true
      · rw [List.map_cons, hrange, ih (List.forall_mem_cons.mp h).2]
        rfl

/-- A call that is not supported is the last one. -/
theorem collapseCalls_unsupported {pidfd : Int32} {regions : List MapsEntry} {world : W}
    {before after : List CollapseCall} {call : CollapseCall}
    (h : (H.collapseCalls pidfd regions world).1 = before ++ call :: after)
    (hunsupported : call.unsupported) : after = [] := by
  induction regions generalizing world before with
  | nil => exact absurd h (List.append_ne_nil_of_right_ne_nil _ (List.cons_ne_nil _ _)).symm
  | cons region regions ih =>
    rcases H.collapseCalls_cons pidfd region regions world with
      ⟨-, hcalls⟩ | ⟨-, first, world', -, hcalls⟩
    · exact ih (hcalls ▸ h)
    · rw [hcalls] at h
      cases before with
      | nil =>
        split_ifs at h with hfirst
        · exact (List.cons.inj h).2.symm
        · exact absurd ((List.cons.inj h).1 ▸ hunsupported) hfirst
      | cons other before =>
        split_ifs at h with hfirst
        · have hnil := (List.cons.inj h).2
          exact absurd hnil (List.append_ne_nil_of_right_ne_nil _ (List.cons_ne_nil _ _)).symm
        · exact ih (List.cons.inj h).2

/-- The calls lead to the world they leave. -/
theorem collapseCalls_leads (pidfd : Int32) (regions : List MapsEntry) (world : W) :
    Log.Leads (fun (call : CollapseCall) before after =>
        H.processMadvise pidfd call.addr call.len madvCollapse before = (call.outcome, after))
      (H.collapseCalls pidfd regions world).1 world (H.collapseCalls pidfd regions world).2 := by
  induction regions generalizing world with
  | nil => rfl
  | cons region regions ih =>
    rw [collapseCalls]
    split
    · exact ih world
    · dsimp only
      split
      · exact ⟨_, rfl, rfl⟩
      · exact ⟨_, rfl, ih _⟩

/-- The regions of a process are collapsed by the calls on the large ones. -/
theorem collapseRegions_eq (pid : UInt32) (regions : List MapsEntry) (world : W) :
    H.collapseRegions pid regions world =
      if (regions.filter large).isEmpty then (0, world)
      else
        match H.pidfdOpen pid world with
        | (.error _, opened) => (0, opened)
        | (.ok pidfd, opened) =>
          (((H.collapseCalls pidfd (regions.filter large) opened).1.filter
              CollapseCall.succeeded).length,
            H.close pidfd (H.collapseCalls pidfd (regions.filter large) opened).2) := by
  unfold collapseRegions
  simp only [collapseEach_eq, Nat.zero_add]
  rfl

/-- Collapsing leaves the world after its calls. -/
theorem collapseRegions_collapsedBy (pid : UInt32) (regions : List MapsEntry) (world : W) :
    H.CollapsedBy pid regions (H.regionCalls pid regions world) world
      (H.collapseRegions pid regions world).2 := by
  rw [CollapsedBy, collapseRegions_eq, regionCalls]
  by_cases hempty : (regions.filter large).isEmpty
  · rw [if_pos hempty, if_pos hempty, List.isEmpty_iff.mp hempty]
    refine ⟨?_, rfl⟩
    rcases H.pidfdOpen pid world with ⟨errno | pidfd, opened⟩ <;> rfl
  · rw [if_neg hempty, if_neg hempty]
    rcases H.pidfdOpen pid world with ⟨errno | pidfd, opened⟩
    · exact ⟨rfl, rfl⟩
    · exact ⟨_, H.collapseCalls_leads pidfd (regions.filter large) opened, rfl⟩

/-- The successful calls are counted. -/
theorem collapseRegions_count (pid : UInt32) (regions : List MapsEntry) (world : W) :
    (H.collapseRegions pid regions world).1 =
      ((H.regionCalls pid regions world).filter CollapseCall.succeeded).length := by
  rw [collapseRegions_eq, regionCalls]
  split
  next hempty =>
    rw [List.isEmpty_iff.mp hempty]
    rcases H.pidfdOpen pid world with ⟨errno | pidfd, opened⟩ <;> rfl
  next =>
    rcases H.pidfdOpen pid world with ⟨errno | pidfd, opened⟩ <;> rfl

/-- Rounding a large region stays in 64 bits. It is skipped exactly when it contains no huge page,
and else its range consists of the huge pages it contains. Collapsing leaves the world after its calls
and nothing else. The calls on the regions of a process go through these ranges in order, and through all of them where the process can be opened and each call
is known to the kernel; each successful call is counted, and an unknown one is the last one. -/
theorem collapseRegions_aligned {regions : List MapsEntry}
    (hregions : ∀ region ∈ regions, region.start ≤ region.stop) (pid : UInt32) (world : W) :
    (∀ region ∈ regions, large region → region.start.toNat + thpSize.toNat < 2 ^ 64 ∧
      (thpStart region < thpStop region ↔ HasHugePage region) ∧
      (thpStart region < thpStop region → Set.Ico (thpStart region).toNat
        ((thpStart region).toNat + (thpStop region - thpStart region).toNat) = hugePages region)) ∧
    H.CollapsedBy pid regions (H.regionCalls pid regions world) world
      (H.collapseRegions pid regions world).2 ∧
    (H.regionCalls pid regions world).map (fun call => (call.addr, call.len)) <+:
      ((regions.filter large).filter fun region => thpStart region < thpStop region).map thpRange ∧
    ((∃ pidfd world', H.pidfdOpen pid world = (.ok pidfd, world')) →
      (∀ call ∈ H.regionCalls pid regions world, call.unsupported = false) →
      (H.regionCalls pid regions world).map (fun call => (call.addr, call.len)) =
        ((regions.filter large).filter fun region => thpStart region < thpStop region).map thpRange) ∧
    (H.collapseRegions pid regions world).1 =
      ((H.regionCalls pid regions world).filter CollapseCall.succeeded).length ∧
    ∀ before call after, H.regionCalls pid regions world = before ++ call :: after →
      call.unsupported → after = [] := by
  refine ⟨fun region hmem hlarge => ?_, H.collapseRegions_collapsedBy pid regions world, ?_,
    fun ⟨pidfd, world', hopen⟩ hknown => ?_, ?_, fun before call after hcalls hunsupported => ?_⟩
  · have hbounds := hregions region hmem
    exact ⟨start_add_thpSize_lt hbounds hlarge, thpStart_lt_iff hbounds hlarge,
      thpRange_eq hbounds hlarge⟩
  · unfold regionCalls
    split
    · exact List.nil_prefix
    · exact H.collapseCalls_ranges ..
  · rw [regionCalls, hopen] at hknown ⊢
    exact H.collapseCalls_complete hknown
  · exact H.collapseRegions_count pid regions world
  · unfold regionCalls at hcalls
    split at hcalls
    · exact absurd hcalls (List.append_ne_nil_of_right_ne_nil _ (List.cons_ne_nil _ _)).symm
    · exact H.collapseCalls_unsupported hcalls hunsupported

/-- A large region that contains huge pages. -/
def lowRegion : MapsEntry := ⟨0x7f0000100000, 0x7f0000600000, "rw-p", 0, "00:00", 0, ""⟩

/-- A large region near the end of the address space that contains none. -/
def highRegion : MapsEntry := ⟨0xffffffffffd00000, 0xfffffffffffff000, "rw-p", 0, "00:00", 0, ""⟩

/-- A host that cannot be traced, and lists the ranges it collapsed and the files it closed. -/
def collapsingHost : Host Unit (List (UInt64 × UInt64) × List Int32) where
  attach _ world := (.error (), world)
  waitpid _ world := (.error (), world)
  getregs _ world := (.error (), world)
  setregs _ _ world := (.error (), world)
  syscall _ world := (.error (), world)
  detach _ world := (.error (), world)
  display _ := "refused"
  debug _ := ""
  findSyscallInVdso _ _ := .error "no vdso"
  pidfdOpen _ world := (.ok 3, world)
  processMadvise _ addr len _ world := (.ok (), (world.1 ++ [(addr, len)], world.2))
  close pidfd world := (world.1, world.2 ++ [pidfd])

/-- The large region is rounded and collapsed, the one that contains no huge page is skipped, and the
process is closed. -/
theorem collapseRegions_aligned_largeRegions :
    let regions := [lowRegion, highRegion]
    let calls := collapsingHost.regionCalls 7 regions ([], [])
    (thpStart lowRegion < thpStop lowRegion ↔ HasHugePage lowRegion) ∧
      (thpStart highRegion < thpStop highRegion ↔ HasHugePage highRegion) ∧
      collapsingHost.CollapsedBy 7 regions calls ([], []) (collapsingHost.collapseRegions 7 regions ([], [])).2 ∧
      collapsingHost.collapseRegions 7 regions ([], []) = (1, [(0x7f0000200000, 0x400000)], [3]) := by
  obtain ⟨haligned, hcollapsed, -⟩ := collapsingHost.collapseRegions_aligned
    (show ∀ region ∈ [lowRegion, highRegion], region.start ≤ region.stop by decide) 7 ([], [])
  obtain ⟨hlow, hrest⟩ := List.forall_mem_cons.mp haligned
  exact ⟨(hlow (by decide)).2.1, (List.forall_mem_singleton.mp hrest (by decide)).2.1, hcollapsed,
    by decide +kernel⟩

end Host

end Animaksm.Daemon

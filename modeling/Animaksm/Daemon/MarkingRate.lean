import Animaksm.Daemon.Marking
import Animaksm.Lib.Spacing

/-!
# How fast memory is marked

A cycle marks no more bytes than its cap for a process, for as many processes as a
cycle takes, and the cycles that mark anything keep the stabilization window apart.
However the tasks take turns, the bytes marked within some time are bounded by that
time.
-/

namespace Animaksm.Daemon

open Animaksm.Common

/-- The bounds of every mapping are in order. -/
def Procfs.Ordered (procfs : Procfs) : Prop :=
  ∀ pid maps, procfs.readProcessMaps pid = some maps → ∀ region ∈ maps, region.start ≤ region.stop

/-- The bytes that are marked in all. -/
def bytesMarked (results : List MadviseResult) : Nat :=
  (results.map fun result => result.totalBytesMarked.toNat).sum

/-! ## One process -/

namespace Host

variable {E W : Type} (H : Host E W) (pid : UInt32) (regions : List MapsEntry) (maxBytes : UInt64)
  (dryRun : Bool) (world : W)

/-- The bytes of a batch stay within its cap. -/
theorem totalLen_ranges_le {regions : List MapsEntry}
    (hregions : ∀ region ∈ regions, region.start ≤ region.stop) (maxBytes : UInt64) :
    totalLen ((buildBatch (regions.filter MapsEntry.eligible) maxBytes).map Prod.snd) ≤
      maxBytes.toNat := by
  have hbounds : ∀ region ∈ regions.filter MapsEntry.eligible, region.start ≤ region.stop :=
    fun region hmem => hregions region (List.mem_of_mem_filter hmem)
  have hlengths := lengths_buildBatch hbounds maxBytes
  rw [totalLen, List.map_map]
  exact hlengths ▸ Filling.sum_fill_le _ _

/-- A process has no more bytes marked than the cap. -/
theorem applyMergeable_totalBytesMarked_le {regions : List MapsEntry}
    (hregions : ∀ region ∈ regions, region.start ≤ region.stop) :
    (H.applyMergeable pid regions maxBytes dryRun world).1.totalBytesMarked.toNat ≤ maxBytes.toNat := by
  have hbatch := totalLen_ranges_le hregions maxBytes
  cases dryRun with
  | true =>
    rw [applyMergeable_dryRun_result]
    exact (toNat_sum (totalLen_ranges_lt maxBytes hregions)).trans_le hbatch
  | false =>
    rw [applyMergeable_totalBytesMarked,
      toNat_sum (H.totalLen_succeeded_lt pid maxBytes false world hregions)]
    generalize hcalls : H.mergeableCalls pid regions maxBytes false world = calls
    have hle : totalLen ((calls.filter MarkCall.succeeded).map MarkCall.len) ≤
        totalLen ((calls.map fun call => (call.addr, call.len)).map Prod.snd) := by
      rw [List.map_map]
      exact ((List.filter_sublist.map MarkCall.len).map UInt64.toNat).sum_le_sum
        fun _ _ => Nat.zero_le _
    refine hle.trans ?_
    rcases hcalls ▸ H.mergeableCalls_ranges pid regions maxBytes false world with hnone | hranges
    · rw [hnone]
      exact Nat.zero_le _
    · rwa [hranges]

/-- Each successful call counts a region. -/
theorem foldl_note_regionsMerged (calls : List MarkCall) (result : MadviseResult) :
    (calls.foldl .note result).regionsMerged =
      result.regionsMerged + (calls.filter MarkCall.succeeded).length := by
  induction calls generalizing result with
  | nil => rfl
  | cons call calls ih =>
    rw [List.foldl_cons, ih, MadviseResult.note]
    obtain ⟨addr, len, _ | _⟩ := call
    · rfl
    · exact Nat.add_right_comm ..

/-- Without a region merged no bytes are marked. -/
theorem applyMergeable_totalBytesMarked_eq_zero
    (h : (H.applyMergeable pid regions maxBytes dryRun world).1.regionsMerged = 0) :
    (H.applyMergeable pid regions maxBytes dryRun world).1.totalBytesMarked = 0 := by
  cases dryRun with
  | true =>
    rw [applyMergeable_dryRun_result] at h ⊢
    rw [List.length_eq_zero_iff.mp h]
    rfl
  | false =>
    cases hsyscall : H.findSyscallInVdso pid world with
    | error e =>
      rw [H.applyMergeable_noSyscall pid regions maxBytes world hsyscall]
    | ok syscallAddr =>
      rw [H.applyMergeable_eq_note pid regions maxBytes world hsyscall, foldl_note_regionsMerged,
        Nat.zero_add] at h
      rw [applyMergeable_totalBytesMarked, List.length_eq_zero_iff.mp h]
      rfl

/-! ## One cycle -/

theorem bytesMarked_applyTargets_le {targets : List (UInt32 × List MapsEntry)}
    (htargets : ∀ target ∈ targets, ∀ region ∈ target.2, region.start ≤ region.stop) :
    bytesMarked (H.applyTargets maxBytes dryRun targets world).1 ≤ targets.length * maxBytes.toNat := by
  induction targets generalizing world with
  | nil => exact Nat.zero_le _
  | cons target targets ih =>
    obtain ⟨htarget, hrest⟩ := List.forall_mem_cons.mp htargets
    have hhead := H.applyMergeable_totalBytesMarked_le target.1 maxBytes dryRun world htarget
    have htail := ih (H.applyMergeable target.1 target.2 maxBytes dryRun world).2 hrest
    rw [applyTargets]
    dsimp only
    rw [bytesMarked, List.map_cons, List.sum_cons, List.length_cons, Nat.succ_mul, Nat.add_comm]
    exact Nat.add_le_add htail hhead

/-- Targets without a region merged have no bytes marked. -/
theorem bytesMarked_applyTargets_eq_zero {targets : List (UInt32 × List MapsEntry)}
    (h : ((H.applyTargets maxBytes dryRun targets world).1.map MadviseResult.regionsMerged).sum = 0) :
    bytesMarked (H.applyTargets maxBytes dryRun targets world).1 = 0 := by
  induction targets generalizing world with
  | nil => rfl
  | cons target targets ih =>
    rw [applyTargets] at h ⊢
    dsimp only at h ⊢
    rw [List.map_cons, List.sum_cons, Nat.add_eq_zero_iff] at h
    rw [bytesMarked, List.map_cons, List.sum_cons,
      H.applyMergeable_totalBytesMarked_eq_zero _ _ _ _ _ h.1]
    exact (Nat.zero_add _).trans (ih _ h.2)

end Host

namespace Scanner

variable {E W : Type} (H : Host E W) (scanner : Scanner)

/-- The bytes a cycle may mark. -/
def cycleCap : Nat := scanner.config.maxCandidatesPerCycle * scanner.maxBytes.toNat

/-- A cycle counts the bytes it marks. -/
theorem scan_totalBytesMarked (cycle : Cycle) (world : W) :
    (scanner.scan H cycle world).1.stats.totalBytesMarked = scanner.stats.totalBytesMarked +
      bytesMarked (H.applyTargets scanner.maxBytes scanner.dryRun
        (scanner.targets cycle.procfs).1 world).1 := by
  have hvalues := Host.resultsByPid_values
    ((H.applyTargets_pid scanner.maxBytes scanner.dryRun (scanner.targets cycle.procfs).1 world).symm ▸
      scanner.targets_nodup cycle.procfs)
  have hsum := congrArg
    (fun values => (values.map fun result => result.totalBytesMarked.toNat).sum) hvalues
  rw [Multiset.map_coe, Multiset.sum_coe] at hsum
  have htargets : (scanner.targets cycle.procfs).2.totalBytesMarked =
      scanner.stats.totalBytesMarked := by
    unfold targets
    cases cycle.procfs.listPids <;> rfl
  unfold scan
  dsimp only
  split
  next hempty =>
    rw [List.isEmpty_iff.mp hempty, htargets]
    rfl
  next =>
    rw [← htargets]
    split
    · exact congrArg _ hsum
    · exact congrArg _ hsum

/-- A cycle has no more targets than it takes, each with mappings that /proc showed. -/
theorem targets_bounded {procfs : Procfs} (h : procfs.Ordered) :
    (scanner.targets procfs).1.length ≤ scanner.config.maxCandidatesPerCycle ∧
      ∀ target ∈ (scanner.targets procfs).1, ∀ region ∈ target.2, region.start ≤ region.stop := by
  unfold targets
  cases procfs.listPids with
  | none => exact ⟨Nat.zero_le _, fun target htarget => absurd htarget List.not_mem_nil⟩
  | some pids =>
    unfold collectScanTargets
    dsimp only
    refine ⟨(List.length_filterMap_le _ _).trans (List.length_take_le _ _), fun target htarget => ?_⟩
    obtain ⟨candidate, -, hbind⟩ := List.mem_filterMap.mp htarget
    obtain ⟨maps, hmaps, hsome⟩ := Option.bind_eq_some_iff.mp hbind
    split_ifs at hsome
    cases hsome
    exact h candidate.pid maps hmaps

/-- A cycle marks bytes only when it marks regions, and no more than its cap. -/
theorem scan_totalBytesMarked_le {cycle : Cycle} (h : cycle.procfs.Ordered) (world : W) :
    (scanner.scan H cycle world).1.stats.totalBytesMarked ≤ scanner.stats.totalBytesMarked +
      if 0 < scanner.marked H cycle world then scanner.cycleCap else 0 := by
  obtain ⟨hlength, hmaps⟩ := scanner.targets_bounded h
  rw [scan_totalBytesMarked]
  refine Nat.add_le_add_left ?_ _
  split
  next =>
    refine (H.bytesMarked_applyTargets_le scanner.maxBytes scanner.dryRun world hmaps).trans ?_
    exact Nat.mul_le_mul_right _ hlength
  next hnone =>
    exact (H.bytesMarked_applyTargets_eq_zero scanner.maxBytes scanner.dryRun world
      (Nat.eq_zero_of_not_pos hnone)).le

end Scanner

/-! ## All cycles -/

/-- When a cycle marked regions. -/
def ScannerEvent.markTime : ScannerEvent → Option Instant
  | .scanned now marked => if 0 < marked then some now else none
  | _ => none

/-- The times at which regions were marked. -/
def markTimes (events : List ScannerEvent) : List Instant := events.filterMap ScannerEvent.markTime

/-- Events that are apart have their times spaced. -/
theorem spaced_markTimes {gap : Nat} {events : List ScannerEvent}
    (h : events.Pairwise (ScannerEvent.Apart gap)) : Spacing.Spaced gap (markTimes events) := by
  have hscanned : ∀ {e : ScannerEvent} {t : Instant}, e.markTime = some t →
      ∃ marked, e = .scanned t marked ∧ 0 < marked := by
    intro e t ht
    cases e with
    | scanned now marked =>
      rw [ScannerEvent.markTime] at ht
      split_ifs at ht with hpos
      cases ht
      exact ⟨marked, rfl, hpos⟩
    | _ => cases ht
  refine h.filterMap _ fun before after hapart t ht u hu => ?_
  obtain ⟨marked, rfl, hpos⟩ := hscanned ht
  obtain ⟨marked', rfl, hpos'⟩ := hscanned hu
  exact hapart t ⟨hpos, rfl⟩ u marked' rfl hpos'

/-- The mappings a step reads have their bounds in order. -/
def Action.Ordered {K : Type} : Action K → Prop
  | .scanner (.cycle cycle) => cycle.procfs.Ordered
  | _ => True

namespace System

variable {ε E K D W : Type} {s : System K D W}

/-- What was done since, and what it marked. -/
structure Marks (s s' : System K D W) (times : List Instant) : Prop where
  config : s'.scanner.config = s.scanner.config
  events : ∃ events, s'.events = s.events ++ events ∧ markTimes events = times
  bytes : s'.scanner.stats.totalBytesMarked ≤
    s.scanner.stats.totalBytesMarked + times.length * s.scanner.cycleCap

theorem Marks.refl (s : System K D W) : s.Marks s [] where
  config := rfl
  events := ⟨[], (List.append_nil _).symm, rfl⟩
  bytes := Nat.le_add_right _ _

theorem Marks.trans {s' s'' : System K D W} {times times' : List Instant} (h : s.Marks s' times)
    (h' : s'.Marks s'' times') : s.Marks s'' (times ++ times') where
  config := h'.config.trans h.config
  events := by
    obtain ⟨events, heq, rfl⟩ := h.events
    obtain ⟨events', heq', rfl⟩ := h'.events
    exact ⟨events ++ events', by rw [heq', heq, List.append_assoc], List.filterMap_append⟩
  bytes := by
    have hcap : s'.scanner.cycleCap = s.scanner.cycleCap := by
      rw [Scanner.cycleCap, Scanner.maxBytes, h.config]
      rfl
    have hbytes := h.bytes
    have hbytes' := h'.bytes
    rw [hcap] at hbytes'
    rw [List.length_append, Nat.add_mul]
    omega

/-- An event that marks nothing. -/
theorem Marks.of_quiet {s' : System K D W} {event : ScannerEvent} (hnone : event.markTime = none)
    (hconfig : s'.scanner.config = s.scanner.config) (hevents : s'.events = s.events ++ [event])
    (hbytes : s'.scanner.stats.totalBytesMarked = s.scanner.stats.totalBytesMarked) :
    s.Marks s' [] where
  config := hconfig
  events := ⟨[event], hevents, by rw [markTimes, List.filterMap_cons_none hnone, List.filterMap_nil]⟩
  bytes := hbytes.le.trans (Nat.le_add_right _ _)

/-- A cycle that is not deferred marks at its own time, if it marks anything. -/
theorem Marks.of_scan (H : Host E W) {cycle : Cycle} (h : cycle.procfs.Ordered) {s' : System K D W}
    (hconfig : s'.scanner.config = s.scanner.config)
    (hevents : s'.events = s.events ++ [.scanned cycle.now (s.scanner.marked H cycle s.world)])
    (hbytes : s'.scanner.stats.totalBytesMarked =
      (s.scanner.scan H cycle s.world).1.stats.totalBytesMarked) :
    ∃ times, s.Marks s' times ∧ ∀ t ∈ times, t = cycle.now := by
  have hle := s.scanner.scan_totalBytesMarked_le H h s.world
  rw [← hbytes] at hle
  split_ifs at hle with hpos
  · have htime : (ScannerEvent.scanned cycle.now (s.scanner.marked H cycle s.world)).markTime =
        some cycle.now := if_pos hpos
    refine ⟨[cycle.now], ⟨hconfig, ⟨_, hevents, ?_⟩, ?_⟩, fun t ht => List.mem_singleton.mp ht⟩
    · rw [markTimes, List.filterMap_cons_some htime, List.filterMap_nil]
    · rw [List.length_singleton, Nat.one_mul]
      exact hle
  · have htime : (ScannerEvent.scanned cycle.now (s.scanner.marked H cycle s.world)).markTime =
        none := if_neg hpos
    refine ⟨[], ⟨hconfig, ⟨_, hevents, ?_⟩, ?_⟩, fun t ht => absurd ht List.not_mem_nil⟩
    · rw [markTimes, List.filterMap_cons_none htime, List.filterMap_nil]
    · rw [List.length_nil, Nat.zero_mul]
      exact hle

/-- A step of the scanner marks at its own time, if it marks anything. -/
theorem marks_scannerStep (H : Host E W) (s : System K D W) {action : ScannerAction}
    (h : (Action.scanner (K := K) action).Ordered) :
    ∃ times, s.Marks (s.scannerStep H action) times ∧
      ∀ t ∈ times, t = (Action.scanner (K := K) action).now := by
  have hnone : ∀ {s' : System K D W} {now : Instant}, s.Marks s' [] →
      ∃ times, s.Marks s' times ∧ ∀ t ∈ times, t = now :=
    fun hmarks => ⟨[], hmarks, fun t ht => absurd ht List.not_mem_nil⟩
  cases action with
  | cycle cycle =>
    rw [scannerStep]
    split
    · split
      next => exact hnone (.of_quiet rfl rfl rfl rfl)
      next =>
        obtain ⟨stats, hframe⟩ := s.scanner.scan_frame H cycle s.world
        have hconfig : (s.scanner.scan H cycle s.world).1.config = s.scanner.config := by rw [hframe]
        dsimp only
        split
        · exact Marks.of_scan H h hconfig rfl rfl
        · exact Marks.of_scan H h hconfig rfl rfl
    · exact hnone (.refl s)
  | step now =>
    rw [scannerStep]
    split
    · exact hnone (.of_quiet rfl rfl rfl rfl)
    · exact hnone (.refl s)
  | stop now =>
    rw [scannerStep]
    split
    · exact hnone ⟨rfl, ⟨[], (List.append_nil _).symm, rfl⟩, Nat.le_add_right _ _⟩
    · exact hnone (.refl s)

/-- A step marks at its own time, if it marks anything. -/
theorem marks_step [Average K] (fs : Sysfs ε D) (H : Host E W) (s : System K D W) {action : Action K}
    (h : action.Ordered) :
    ∃ times, s.Marks (s.step fs H action) times ∧ ∀ t ∈ times, t = action.now := by
  cases action with
  | governor action =>
    have hview : (s.governorStep fs action).scannerView = s.scannerView :=
      s.governorStep_scannerView fs action
    have hscanner : (s.governorStep fs action).scanner = s.scanner := congrArg ScannerView.scanner hview
    refine ⟨[], ⟨congrArg Scanner.config hscanner, ⟨[], ?_, rfl⟩, ?_⟩,
      fun t ht => absurd ht List.not_mem_nil⟩
    · exact (congrArg ScannerView.events hview).trans (List.append_nil _).symm
    · rw [step, hscanner]
      exact Nat.le_add_right _ _
  | scanner action => exact s.marks_scannerStep H h

/-- A run marks at the times of its steps. -/
theorem marks_run [Average K] (fs : Sysfs ε D) (H : Host E W) (s : System K D W)
    {actions : List (Action K)} (h : ∀ a ∈ actions, a.Ordered) :
    ∃ times, s.Marks (Run.run (step fs H) s actions) times ∧
      ∀ t ∈ times, ∃ a ∈ actions, t = a.now := by
  induction actions generalizing s with
  | nil => exact ⟨[], .refl s, fun t ht => absurd ht List.not_mem_nil⟩
  | cons action actions ih =>
    obtain ⟨haction, hrest⟩ := List.forall_mem_cons.mp h
    obtain ⟨times, hmarks, htimes⟩ := s.marks_step fs H haction
    obtain ⟨times', hmarks', htimes'⟩ := ih (s.step fs H action) hrest
    refine ⟨times ++ times', hmarks.trans hmarks', fun t ht => ?_⟩
    rcases List.mem_append.mp ht with ht | ht
    · exact ⟨action, List.mem_cons_self, htimes t ht⟩
    · obtain ⟨a, ha, hnow⟩ := htimes' t ht
      exact ⟨a, List.mem_cons_of_mem action ha, hnow⟩

/-- However the tasks take turns, the scanner marks within some time no more than its cap for a cycle,
once for each stabilization window that the time holds and once more. -/
theorem marking_bounded [Average K] (fs : Sysfs ε D) (H : Host E W) (config : GovernorConfig K)
    (ksm : KsmController) (scanner : ScannerConfig) (dryRun : Bool) (now : Instant) (dir : D)
    (world : W) (hwindow : 0 < config.stabilizationSecs) {before during : List (Action K)}
    (horder : Action.InOrder now (before ++ during)) (hmaps : ∀ a ∈ before ++ during, a.Ordered)
    {first : Instant} {width : Nat}
    (hwithin : ∀ a ∈ during, first ≤ a.now ∧ a.now ≤ first + (width : Int)) :
    let run := Run.run (step fs H) (start config ksm scanner dryRun now dir world)
    (run (before ++ during)).scanner.stats.totalBytesMarked ≤
      (run before).scanner.stats.totalBytesMarked +
        (width / fromSecs config.stabilizationSecs + 1) *
          (scanner.maxCandidatesPerCycle * (scanner.maxMergeablePerProcessMb * 1024 * 1024).toNat) := by
  intro run
  have hgap : 0 < fromSecs config.stabilizationSecs := Nat.mul_pos hwindow (by decide)
  obtain ⟨earlier, hearlier, -⟩ := marks_run fs H (start config ksm scanner dryRun now dir world)
    fun a ha => hmaps a (List.mem_append_left during ha)
  obtain ⟨times, hmarks, htimes⟩ := marks_run fs H (run before)
    fun a ha => hmaps a (List.mem_append_right before ha)
  rw [← Run.run_append] at hmarks
  -- The times are those of events that are apart.
  have hspaced : Spacing.Spaced (fromSecs config.stabilizationSecs) times := by
    obtain ⟨clock, hrun⟩ := (Spaced.start config ksm scanner dryRun now dir world).run fs H horder
    obtain ⟨events, hevents, rfl⟩ := hmarks.events
    have hapart : (run (before ++ during)).events.Pairwise
        (ScannerEvent.Apart (fromSecs config.stabilizationSecs)) := hrun.apart
    rw [hevents] at hapart
    exact spaced_markTimes (List.pairwise_append.mp hapart).2.1
  have hcount : times.length ≤ width / fromSecs config.stabilizationSecs + 1 :=
    hspaced.length_le hgap fun t ht => by
      obtain ⟨a, ha, rfl⟩ := htimes t ht
      exact hwithin a ha
  have hcap : (run before).scanner.cycleCap =
      scanner.maxCandidatesPerCycle * (scanner.maxMergeablePerProcessMb * 1024 * 1024).toNat := by
    rw [Scanner.cycleCap, Scanner.maxBytes, hearlier.config]
    rfl
  rw [← hcap]
  exact hmarks.bytes.trans (Nat.add_le_add_left (Nat.mul_le_mul_right _ hcount) _)

theorem ordered_browserProcfs : browserProcfs.Ordered := by
  rintro pid maps ⟨⟩ region hregion
  rw [List.mem_singleton.mp hregion]
  decide

/-- Three windows of thirty seconds meet the minute of the run. -/
theorem marking_bounded_apply :
    (Run.run (step GovernorTier.runFile answeringHost) windowed bothTasks).scanner.stats.totalBytesMarked ≤
      windowed.scanner.stats.totalBytesMarked +
        (fromSecs 62 / fromSecs 30 + 1) * (5 * ((512 : UInt64) * 1024 * 1024).toNat) := by
  have hordered : ∀ a ∈ bothTasks, a.Ordered := by
    simp only [bothTasks, List.forall_mem_cons]
    exact ⟨trivial, trivial, trivial, trivial, ordered_browserProcfs, trivial, trivial,
      ordered_browserProcfs, trivial, ordered_browserProcfs, fun a ha => absurd ha List.not_mem_nil⟩
  have hwithin : ∀ a ∈ bothTasks, (0 : Int) ≤ a.now ∧ a.now ≤ 0 + (fromSecs 62 : Int) := by decide
  exact marking_bounded GovernorTier.runFile answeringHost ⟨true, 5, 2, 1, 0, 30⟩ (.new 0)
    ⟨100, 512, [], 5⟩ false 0 "0" Ptrace.runningProcess (by decide)
    (show Action.InOrder 0 ([] ++ bothTasks) by decide) hordered hwithin

end System

end Animaksm.Daemon

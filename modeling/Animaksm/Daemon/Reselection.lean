import Animaksm.Common.KsmStat
import Animaksm.Lib.Log
import Animaksm.Lib.Ranking
import Animaksm.Daemon.Independence

/-!
# Processes that were marked before

A process whose regions were all marked shows as mergeable from then on. The filter
on merged processes asks for something else, `ksm_merge_any`, which marking leaves
alone, so the process is selected again wherever no other filter stops it.
-/

namespace Animaksm.Daemon

open Animaksm.Common

/-! ## Selection -/

/-- The candidate of a process that passes the filters on its status and its KSM statistics. -/
def survivor (config : ScannerConfig) (procfs : Procfs) (pid : UInt32) : Option Candidate :=
  (((procfs.readProcessStatus pid).bind fun status => l1CandidateFromStatus status config).filter
    fun candidate => passesL2AlreadyMergedFilter (procfs.readKsmStat candidate.pid)).filter
      fun candidate => passesL25ProfitFilter (procfs.readKsmStat candidate.pid)

/-- How many processes that pass these filters rank before a candidate: those with more anonymous
memory, and those with as much that are listed before it. -/
def preceding (config : ScannerConfig) (procfs : Procfs) (pids : List UInt32) (candidate : Candidate) :
    Nat :=
  ((pids.filterMap (survivor config procfs)).filter
      fun other => candidate.anonRssMb < other.anonRssMb).length +
    (((pids.takeWhile (· ≠ candidate.pid)).filterMap (survivor config procfs)).filter
      fun other => other.anonRssMb = candidate.anonRssMb).length

variable {config : ScannerConfig} {procfs : Procfs} {pids : List UInt32} {pid : UInt32}
  {candidate : Candidate}

theorem survivor_eq_some : survivor config procfs pid = some candidate ↔
    ((procfs.readProcessStatus pid).bind fun status => l1CandidateFromStatus status config) =
      some candidate ∧
    passesL2AlreadyMergedFilter (procfs.readKsmStat candidate.pid) ∧
    passesL25ProfitFilter (procfs.readKsmStat candidate.pid) := by
  rw [survivor, Option.filter_eq_some_iff, Option.filter_eq_some_iff, and_assoc]

/-- A survivor is the process it was read for. -/
theorem survivor_pid (h : survivor config procfs pid = some candidate) : candidate.pid = pid := by
  obtain ⟨status, hstatus, hcandidate⟩ := Option.bind_eq_some_iff.mp (survivor_eq_some.mp h).1
  rw [l1CandidateFromStatus_pid hcandidate, procfs.readProcessStatus_pid pid status hstatus]

/-- The processes that pass the filters, each once. -/
theorem nodup_survivors (hpids : pids.Nodup) : (pids.filterMap (survivor config procfs)).Nodup := by
  refine hpids.filterMap fun p q candidate hp hq => ?_
  rw [← survivor_pid hp, ← survivor_pid hq]

/-- A target is one of the first survivors, with mappings to mark. -/
theorem mem_collectScanTargets (stats : ScannerStats) :
    pid ∈ (collectScanTargets config pids stats procfs).1.map Prod.fst ↔
      (∃ candidate ∈ (Ranking.ranked Candidate.anonRssMb
          (pids.filterMap (survivor config procfs))).take config.maxCandidatesPerCycle,
        candidate.pid = pid) ∧
      ∃ maps, procfs.readProcessMaps pid = some maps ∧ (eligibleAnonRwSummary maps).1 ≠ 0 := by
  unfold collectScanTargets
  dsimp only
  rw [List.filter_filterMap, List.filter_filterMap]
  change pid ∈ (((Ranking.ranked Candidate.anonRssMb (pids.filterMap (survivor config procfs))).take
    config.maxCandidatesPerCycle).filterMap _).map Prod.fst ↔ _
  rw [List.mem_map]
  constructor
  · rintro ⟨target, htarget, rfl⟩
    obtain ⟨candidate, hcandidate, hbind⟩ := List.mem_filterMap.mp htarget
    obtain ⟨maps, hmaps, hsome⟩ := Option.bind_eq_some_iff.mp hbind
    split_ifs at hsome with hsummary
    cases hsome
    exact ⟨⟨candidate, hcandidate, rfl⟩, maps, hmaps, hsummary⟩
  · rintro ⟨⟨candidate, hcandidate, rfl⟩, maps, hmaps, hsummary⟩
    refine ⟨(candidate.pid, maps), List.mem_filterMap.mpr ⟨candidate, hcandidate, ?_⟩, rfl⟩
    rw [hmaps, Option.bind_some, if_neg hsummary]

/-- A survivor is among the first ones exactly when few others precede it. -/
theorem mem_take_survivors (hpids : pids.Nodup) (hpid : pid ∈ pids)
    (hsurvivor : survivor config procfs pid = some candidate) (k : Nat) :
    candidate ∈ (Ranking.ranked Candidate.anonRssMb
        (pids.filterMap (survivor config procfs))).take k ↔
      preceding config procfs pids candidate < k := by
  obtain ⟨before, after, rfl⟩ := List.append_of_mem hpid
  have hnodup : ((before ++ pid :: after).filterMap (survivor config procfs)).Nodup :=
    nodup_survivors hpids
  have hbefore : pid ∉ before := fun h =>
    (List.nodup_append'.mp hpids).2.2 h (List.mem_cons_self ..)
  have htake : (before ++ pid :: after).takeWhile (· ≠ candidate.pid) = before := by
    rw [survivor_pid hsurvivor, List.takeWhile_append_of_pos, List.takeWhile_cons_of_neg (by simp),
      List.append_nil]
    intro other hother
    exact decide_eq_true fun heq => hbefore (heq ▸ hother)
  rw [preceding, htake]
  rw [List.filterMap_append, List.filterMap_cons_some hsurvivor] at hnodup ⊢
  exact Ranking.mem_take_ranked hnodup k

/-- Something other than the filter on merged processes keeps a process out of the targets: it is
not listed, its status, its profit or its mappings rule it out, or as many processes as a cycle
takes rank before it. -/
def StoppedOtherwise (config : ScannerConfig) (procfs : Procfs) (pid : UInt32) : Prop :=
  ∀ pids candidate maps, procfs.listPids = some pids → pid ∈ pids →
    ((procfs.readProcessStatus pid).bind fun status => l1CandidateFromStatus status config) =
      some candidate →
    passesL25ProfitFilter (procfs.readKsmStat pid) →
    procfs.readProcessMaps pid = some maps → (eligibleAnonRwSummary maps).1 ≠ 0 →
    config.maxCandidatesPerCycle ≤ preceding config procfs pids candidate

/-- A process that the filter on merged processes lets through is a target unless something else
stops it. -/
theorem notMem_targets_iff {scanner : Scanner}
    (hunmerged : passesL2AlreadyMergedFilter (procfs.readKsmStat pid)) :
    pid ∉ (scanner.targets procfs).1.map Prod.fst ↔ StoppedOtherwise scanner.config procfs pid := by
  rw [Scanner.targets]
  constructor
  · intro hnot pids candidate maps hpids hpid hcandidate hprofit hmaps hsummary
    refine Nat.le_of_not_lt fun hlt => hnot ?_
    have hsurvivor : survivor scanner.config procfs pid = some candidate := by
      obtain ⟨status, hstatus, hl1⟩ := Option.bind_eq_some_iff.mp hcandidate
      have heq : candidate.pid = pid :=
        (l1CandidateFromStatus_pid hl1).trans (procfs.readProcessStatus_pid pid status hstatus)
      exact survivor_eq_some.mpr ⟨hcandidate, heq ▸ hunmerged, heq ▸ hprofit⟩
    rw [hpids]
    refine (mem_collectScanTargets _).mpr ⟨⟨candidate, ?_, survivor_pid hsurvivor⟩, maps, hmaps, hsummary⟩
    exact (mem_take_survivors (procfs.listPids_nodup pids hpids) hpid hsurvivor _).mpr hlt
  · intro hstopped hmem
    cases hpids : procfs.listPids with
    | none =>
      rw [hpids] at hmem
      exact List.not_mem_nil hmem
    | some pids =>
      rw [hpids] at hmem
      obtain ⟨⟨candidate, htake, rfl⟩, maps, hmaps, hsummary⟩ := (mem_collectScanTargets _).mp hmem
      obtain ⟨p, hp, hsurvivor⟩ :=
        List.mem_filterMap.mp ((List.mem_insertionSort _).mp (List.mem_of_mem_take htake))
      obtain rfl : candidate.pid = p := survivor_pid hsurvivor
      obtain ⟨hcandidate, -, hprofit⟩ := survivor_eq_some.mp hsurvivor
      have hle := hstopped pids candidate maps hpids hp hcandidate hprofit hmaps hsummary
      have hlt := (mem_take_survivors (procfs.listPids_nodup pids hpids) hp hsurvivor _).mp htake
      exact absurd hlt (Nat.not_lt.mpr hle)

/-! ## Runs of scan cycles -/

/-- The readings of one scan cycle, with what the files of KSM statistics contain. -/
structure ScanReading where
  cycle : Cycle
  finished : Instant
  ksmStat : UInt32 → Option (List Char)
  reads : cycle.procfs.readKsmStat = fun pid => readKsmStatFrom (ksmStat pid)

/-- A scan cycle that was not deferred, with what came of marking each of its targets. -/
structure ScanEntry where
  scanner : Scanner
  reading : ScanReading
  results : List MadviseResult

namespace ScanEntry

/-- The targets of the cycle. -/
def targets (entry : ScanEntry) : List (UInt32 × List MapsEntry) :=
  (entry.scanner.targets entry.reading.cycle.procfs).1

/-- Every eligible region of the process was marked, as a whole and successfully. -/
def Marks (entry : ScanEntry) (pid : UInt32) (maps : List MapsEntry) : Prop :=
  (pid, maps) ∈ entry.targets ∧ entry.scanner.dryRun = false ∧
  buildBatch (maps.filter MapsEntry.eligible) entry.scanner.maxBytes =
    (maps.filter MapsEntry.eligible).map (fun region => (region.start, region.size)) ∧
  ∃ result ∈ entry.results, result.pid = pid ∧
    result.regionsMerged = (maps.filter MapsEntry.eligible).length

/-- The mappings of the process are still these, where they can be read. -/
def Unchanged (entry : ScanEntry) (pid : UInt32) (maps : List MapsEntry) : Prop :=
  ∀ maps' ∈ entry.reading.cycle.procfs.readProcessMaps pid, maps' = maps

end ScanEntry

/-- An earlier cycle marked every eligible region of the process, and its mappings have not changed
up to the last of these cycles. -/
def MarkedSince (before : List ScanEntry) (pid : UInt32) (maps : List MapsEntry) : Prop :=
  ∃ earlier entry later, before = earlier ++ entry :: later ∧ entry.Marks pid maps ∧
    ∀ other ∈ later, other.Unchanged pid maps

/-- The kernel shows a marked process as mergeable, and not as merging any memory. -/
def KernelReports (log : List ScanEntry) : Prop :=
  Log.Throughout (fun before entry => ∀ pid maps, MarkedSince before pid maps →
    entry.Unchanged pid maps → ∀ text ∈ entry.reading.ksmStat pid, ∃ report : KsmReport,
      text = report.text ∧ report.mergeable = true ∧ report.mergeAny = false) log

/-- No cycle returns a marked process as a target. -/
def MarkedSkipped (log : List ScanEntry) : Prop :=
  Log.Throughout (fun before entry => ∀ pid maps, MarkedSince before pid maps →
    entry.Unchanged pid maps → pid ∉ entry.targets.map Prod.fst) log

/-- In every cycle something else stops each marked process. -/
def MarkedStopped (config : ScannerConfig) (log : List ScanEntry) : Prop :=
  Log.Throughout (fun before entry => ∀ pid maps, MarkedSince before pid maps →
    entry.Unchanged pid maps → StoppedOtherwise config entry.reading.cycle.procfs pid) log

/-- A scanner with the cycles it ran so far. -/
structure Scanning (W : Type) where
  tier : ScannerTier W
  log : List ScanEntry

namespace Scanning

variable {E W : Type}

/-- A cycle that is not deferred marks its targets in order. -/
def entry (H : Host E W) (s : Scanning W) (reading : ScanReading) : ScanEntry where
  scanner := s.tier.scanner
  reading := reading
  results := (H.applyTargets s.tier.scanner.maxBytes s.tier.scanner.dryRun
    (s.tier.scanner.targets reading.cycle.procfs).1 s.tier.world).1

/-- One scan cycle. -/
def step (H : Host E W) (s : Scanning W) (reading : ScanReading) : Scanning W where
  tier := s.tier.scanCycle H reading.cycle reading.finished
  log :=
    if s.tier.scanner.Deferred reading.cycle.now s.tier.state.lastScannerAction then s.log
    else s.log ++ [s.entry H reading]

/-- A new scanner. -/
def start (config : ScannerConfig) (dryRun : Bool) (stabilizationSecs : Nat) (state : GovernorState)
    (world : W) : Scanning W :=
  ⟨⟨.new config dryRun stabilizationSecs, state, world⟩, []⟩

end Scanning

theorem ScannerTier.scanCycle_config {E W : Type} (H : Host E W) (tier : ScannerTier W) (cycle : Cycle)
    (finished : Instant) : (tier.scanCycle H cycle finished).scanner.config = tier.scanner.config := by
  obtain ⟨stats, hscan⟩ := tier.scanner.scan_frame H cycle tier.world
  unfold scanCycle
  split
  · rfl
  · dsimp only
    rw [hscan]
    split
    · rfl
    · rfl

namespace Scanning

variable {E W : Type}

/-- The configuration never changes. -/
structure Configured (config : ScannerConfig) (s : Scanning W) : Prop where
  scanner : s.tier.scanner.config = config
  entries : ∀ entry ∈ s.log, entry.scanner.config = config

theorem Configured.step (H : Host E W) {config : ScannerConfig} {s : Scanning W}
    (h : s.Configured config) (reading : ScanReading) : (s.step H reading).Configured config where
  scanner := (ScannerTier.scanCycle_config ..).trans h.scanner
  entries entry hentry := by
    rw [Scanning.step] at hentry
    dsimp only at hentry
    split at hentry
    · exact h.entries entry hentry
    · rcases List.mem_append.mp hentry with hentry | hentry
      · exact h.entries entry hentry
      · rw [List.mem_singleton.mp hentry]
        exact h.scanner

/-- The filter on merged processes lets through what the kernel shows as not merging any memory. -/
theorem passesL2_of_report {reading : ScanReading} {pid : UInt32}
    (h : ∀ text ∈ reading.ksmStat pid, ∃ report : KsmReport, text = report.text ∧
      report.mergeable = true ∧ report.mergeAny = false) :
    passesL2AlreadyMergedFilter (reading.cycle.procfs.readKsmStat pid) := by
  rw [reading.reads]
  dsimp only
  cases htext : reading.ksmStat pid with
  | none => rfl
  | some text =>
    obtain ⟨report, rfl, -, hany⟩ := h text htext
    rw [KsmReport.readKsmStatFrom_text, passesL2AlreadyMergedFilter, Option.map_some, hany]
    rfl

/-- In every run a marked process is skipped for as long as something else stops it, exactly: the
filter on merged processes never does. -/
theorem markedSkipped_iff (H : Host E W) (config : ScannerConfig) (dryRun : Bool)
    (stabilizationSecs : Nat) (state : GovernorState) (world : W) (readings : List ScanReading)
    (hreports : KernelReports
      (Run.run (step H) (start config dryRun stabilizationSecs state world) readings).log) :
    MarkedSkipped (Run.run (step H) (start config dryRun stabilizationSecs state world) readings).log ↔
      MarkedStopped config
        (Run.run (step H) (start config dryRun stabilizationSecs state world) readings).log := by
  have hconfigured : (Run.run (step H) (start config dryRun stabilizationSecs state world)
      readings).Configured config :=
    Run.run_invariant (fun _ reading h => h.step H reading)
      ⟨rfl, fun _ h => absurd h List.not_mem_nil⟩ readings
  have hentry : ∀ before entry after,
      (Run.run (step H) (start config dryRun stabilizationSecs state world) readings).log =
        before ++ entry :: after →
      ∀ pid maps, MarkedSince before pid maps → entry.Unchanged pid maps →
        (pid ∉ entry.targets.map Prod.fst ↔
          StoppedOtherwise config entry.reading.cycle.procfs pid) := by
    intro before entry after hlog pid maps hmarked hunchanged
    have hconfig := hconfigured.entries entry
      (hlog ▸ List.mem_append_right before (List.mem_cons_self ..))
    rw [← hconfig]
    exact notMem_targets_iff
      (passesL2_of_report (hreports before entry after hlog pid maps hmarked hunchanged))
  constructor
  · intro h before entry after hlog pid maps hmarked hunchanged
    exact (hentry before entry after hlog pid maps hmarked hunchanged).mp
      (h before entry after hlog pid maps hmarked hunchanged)
  · intro h before entry after hlog pid maps hmarked hunchanged
    exact (hentry before entry after hlog pid maps hmarked hunchanged).mpr
      (h before entry after hlog pid maps hmarked hunchanged)

/-- What the kernel shows of a process that merges no memory. -/
def browserReport (processProfit : Int64) (mergeable : Bool) : KsmReport where
  rmapItems := 2
  zeroPages := 0
  mergingPages := 0
  processProfit := processProfit
  mergeAny := false
  mergeable := mergeable

/-- The readings of a cycle at this second, with one process that the kernel shows so. -/
def browserReading (secs : Nat) (report : KsmReport) : ScanReading where
  cycle :=
    ⟨fromSecs secs, { browserProcfs with readKsmStat := fun _ => readKsmStatFrom (some report.text) },
      none⟩
  finished := fromSecs secs
  ksmStat _ := some report.text
  reads := rfl

/-- A scanner of one process. -/
def browserScanning : Scanning (Tracee × List (PtraceCall Unit)) :=
  start ⟨100, 512, [], 5⟩ false 0 (newSharedState 0) Ptrace.runningProcess

/-- Its cycle at 31 s, when nothing is marked yet. -/
def firstReading : ScanReading := browserReading 31 (browserReport 0 false)

/-- The scanner after that cycle. -/
def scannedOnce : Scanning (Tracee × List (PtraceCall Unit)) :=
  browserScanning.step answeringHost firstReading

/-- What a second cycle at 62 s logs. -/
theorem log_second (report : KsmReport) :
    (Run.run (step answeringHost) browserScanning [firstReading, browserReading 62 report]).log =
      [browserScanning.entry answeringHost firstReading] ++
        [scannedOnce.entry answeringHost (browserReading 62 report)] := by
  have hfirst : ¬ browserScanning.tier.scanner.Deferred firstReading.cycle.now
      browserScanning.tier.state.lastScannerAction := by decide
  have hsecond : ¬ scannedOnce.tier.scanner.Deferred (fromSecs 62)
      scannedOnce.tier.state.lastScannerAction := by decide +kernel
  rw [Run.run_cons, Run.run_cons, Run.run_nil]
  change (scannedOnce.step answeringHost (browserReading 62 report)).log = _
  rw [step]
  dsimp only
  rw [if_neg (show ¬ scannedOnce.tier.scanner.Deferred
    (browserReading 62 report).cycle.now _ from hsecond), scannedOnce, step]
  dsimp only
  rw [if_neg hfirst]
  rfl

/-- A property of the second cycle that is empty for the first one holds of the run. -/
theorem throughout_second {R : ScanEntry → UInt32 → Prop} {report : KsmReport}
    (h : ∀ pid, R (scannedOnce.entry answeringHost (browserReading 62 report)) pid) :
    Log.Throughout (fun before entry => ∀ pid maps, MarkedSince before pid maps →
        entry.Unchanged pid maps → R entry pid)
      (Run.run (step answeringHost) browserScanning [firstReading, browserReading 62 report]).log := by
  rw [log_second]
  refine Log.throughout_concat.mpr ⟨?_, fun pid _ _ _ => h pid⟩
  refine (@Log.throughout_concat _ _ [] _).mpr ⟨Log.throughout_nil, ?_⟩
  rintro pid maps ⟨earlier, entry, later, hnil, -⟩
  exact absurd hnil.symm (List.append_ne_nil_of_right_ne_nil _ (List.cons_ne_nil _ _))

/-- The kernel reports as documented when the second report does. -/
theorem kernelReports_second {report : KsmReport} (hmergeable : report.mergeable = true)
    (hany : report.mergeAny = false) : KernelReports
      (Run.run (step answeringHost) browserScanning [firstReading, browserReading 62 report]).log :=
  throughout_second fun _ _ htext => ⟨report, (Option.some.inj htext).symm, hmergeable, hany⟩

/-- A second cycle that reads a negative profit skips the process that the first one marked. -/
theorem markedSkipped_iff_apply : MarkedSkipped (Run.run (step answeringHost) browserScanning
    [firstReading, browserReading 62 (browserReport (-5) true)]).log := by
  refine (markedSkipped_iff answeringHost ⟨100, 512, [], 5⟩ false 0 (newSharedState 0)
    Ptrace.runningProcess [firstReading, browserReading 62 (browserReport (-5) true)]
    (kernelReports_second rfl rfl)).mpr ?_
  refine throughout_second fun pid pids candidate maps _ _ _ hprofit _ _ => ?_
  change passesL25ProfitFilter (readKsmStatFrom (some (browserReport (-5) true).text)) at hprofit
  rw [KsmReport.readKsmStatFrom_text] at hprofit
  exact absurd hprofit (by decide)

/-- The process marked at 31 s, which the kernel shows as mergeable, is a target again at 62 s. -/
theorem not_markedSkipped :
    KernelReports (Run.run (step answeringHost) browserScanning
      [firstReading, browserReading 62 (browserReport 0 true)]).log ∧
    ¬ MarkedSkipped (Run.run (step answeringHost) browserScanning
      [firstReading, browserReading 62 (browserReport 0 true)]).log := by
  refine ⟨kernelReports_second rfl rfl, fun hskipped => ?_⟩
  have hmarks : (browserScanning.entry answeringHost firstReading).Marks 7
      [⟨0x7000, 0x9000, "rw-p", 0, "00:00", 0, ""⟩] :=
    ⟨List.mem_singleton.mpr rfl, rfl, rfl, _, List.mem_singleton.mpr rfl, rfl, rfl⟩
  have hunchanged : (scannedOnce.entry answeringHost (browserReading 62 (browserReport 0 true))).Unchanged
      7 [⟨0x7000, 0x9000, "rw-p", 0, "00:00", 0, ""⟩] := fun maps hmaps => (Option.some.inj hmaps).symm
  refine hskipped _ _ [] (log_second _) 7 _ ⟨[], _, [], rfl, hmarks, fun _ h => ?_⟩ hunchanged ?_
  · exact absurd h List.not_mem_nil
  · decide +kernel

end Scanning

end Animaksm.Daemon

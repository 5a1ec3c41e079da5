import Animaksm.Daemon.Governor
import Animaksm.Daemon.Madvise
import Mathlib.Data.List.Sort

/-!
# The process scanner

One cycle of the scanner: the stabilization gate, the selection of targets by the
filters, marking, collapsing and the time stamp of a cycle that marked something.
The readers of /proc answer as functions of the process.
-/

namespace Animaksm.Daemon

open Animaksm.Common

/-- The configuration the scanner reads. -/
structure ScannerConfig where
  minAnonRssMb : Nat
  maxMergeablePerProcessMb : UInt64
  blocklist : List String
  /-- Maximum number of processes to apply madvise to per scan cycle. -/
  maxCandidatesPerCycle : Nat

/-- Scanner statistics. -/
structure ScannerStats where
  processesFilteredL1 : Nat
  processesFilteredL2 : Nat
  processesFilteredL25Profit : Nat
  processesTargeted : Nat
  madviseCalls : Nat
  totalBytesMarked : Nat
  scanCycles : Nat
  skippedStabilization : Nat
  thpCollapsed : Nat

/-- A scored candidate process. -/
structure Candidate where
  pid : UInt32
  name : String
  anonRssMb : Nat

/-- What /proc answers during one scan cycle; `none` is a failed read. -/
structure Procfs where
  listPids : Option (List UInt32)
  readProcessStatus : UInt32 → Option ProcessStatus
  readKsmStat : UInt32 → Option KsmProcStat
  readProcessMaps : UInt32 → Option (List MapsEntry)
  /-- A process has one directory. -/
  listPids_nodup : ∀ pids, listPids = some pids → pids.Nodup
  /-- A status is that of the process asked for. -/
  readProcessStatus_pid : ∀ pid status, readProcessStatus pid = some status → status.pid = pid

/-- The readings and the start of one scan cycle. -/
structure Cycle where
  now : Instant
  procfs : Procfs
  /-- `pages_volatile` when the KSM statistics can be read. -/
  pagesVolatile : Option Nat

def l1CandidateFromStatus (status : ProcessStatus) (config : ScannerConfig) : Option Candidate :=
  if status.pid ≤ 2 then none
  else if isBlocklisted status.name config.blocklist then none
  else if status.anonRssKb / 1024 < config.minAnonRssMb then none
  else some ⟨status.pid, status.name, status.anonRssKb / 1024⟩

def passesL2AlreadyMergedFilter (ksmStat : Option KsmProcStat) : Bool :=
  !(ksmStat.map KsmProcStat.mergeAny).getD false

def passesL25ProfitFilter (ksmStat : Option KsmProcStat) : Bool :=
  (ksmStat.map fun stat => decide (stat.processProfit ≥ 0)).getD true

def eligibleAnonRwSummary (maps : List MapsEntry) : Nat × UInt64 :=
  let eligible := maps.filter MapsEntry.eligible
  (eligible.length, (eligible.map MapsEntry.size).sum)

/-- The processes to mark, with their mappings, and the filter statistics. -/
def collectScanTargets (config : ScannerConfig) (pids : List UInt32) (stats : ScannerStats)
    (procfs : Procfs) : List (UInt32 × List MapsEntry) × ScannerStats :=
  let l1Candidates := pids.filterMap fun pid =>
    (procfs.readProcessStatus pid).bind fun status => l1CandidateFromStatus status config
  let l2Candidates := l1Candidates.filter fun candidate =>
    passesL2AlreadyMergedFilter (procfs.readKsmStat candidate.pid)
  let l25Candidates := l2Candidates.filter fun candidate =>
    passesL25ProfitFilter (procfs.readKsmStat candidate.pid)
  let stats := { stats with
    processesFilteredL1 := stats.processesFilteredL1 + l1Candidates.length
    processesFilteredL2 := stats.processesFilteredL2 + l2Candidates.length
    processesFilteredL25Profit :=
      stats.processesFilteredL25Profit + (l2Candidates.length - l25Candidates.length) }
  let ranked := l25Candidates.insertionSort fun a b => b.anonRssMb ≤ a.anonRssMb
  let targets := (ranked.take config.maxCandidatesPerCycle).filterMap fun candidate =>
    (procfs.readProcessMaps candidate.pid).bind fun maps =>
      if (eligibleAnonRwSummary maps).1 = 0 then none else some (candidate.pid, maps)
  (targets, stats)

/-- The process scanner. -/
structure Scanner where
  config : ScannerConfig
  dryRun : Bool
  stats : ScannerStats
  stabilizationSecs : Nat

namespace Scanner

def new (config : ScannerConfig) (dryRun : Bool) (stabilizationSecs : Nat) : Scanner where
  config := config
  dryRun := dryRun
  stats := ⟨0, 0, 0, 0, 0, 0, 0, 0, 0⟩
  stabilizationSecs := stabilizationSecs

/-- The scanner stabilization window is active. -/
def Deferred (scanner : Scanner) (now lastScannerAction : Instant) : Prop :=
  Instant.elapsed now lastScannerAction < fromSecs scanner.stabilizationSecs

instance (scanner : Scanner) (now lastScannerAction : Instant) :
    Decidable (scanner.Deferred now lastScannerAction) :=
  inferInstanceAs (Decidable (_ < _))

/-- Note a deferred cycle. -/
def skip (scanner : Scanner) : Scanner :=
  { scanner with
    stats := { scanner.stats with skippedStabilization := scanner.stats.skippedStabilization + 1 } }

/-- Aggregate the results of marking. -/
def aggregate (stats : ScannerStats) (results : Finmap fun _ : UInt32 => MadviseResult) :
    ScannerStats :=
  { stats with
    processesTargeted := stats.processesTargeted + results.values.card
    madviseCalls := stats.madviseCalls + (results.values.map MadviseResult.regionsMerged).sum
    totalBytesMarked :=
      stats.totalBytesMarked + (results.values.map fun result => result.totalBytesMarked.toNat).sum }

variable {E W : Type}

/-- Collapse the large regions of each target, unless in a dry run. -/
def collapse (H : Host E W) (dryRun : Bool) : List (UInt32 × List MapsEntry) → W → Nat × W
  | [], world => (0, world)
  | (pid, maps) :: targets, world =>
    if dryRun then collapse H dryRun targets world
    else
      let (collapsed, world) := H.collapseRegions pid maps world
      let (total, world) := collapse H dryRun targets world
      (collapsed + total, world)

/-- The byte cap of one process. -/
def maxBytes (scanner : Scanner) : UInt64 := scanner.config.maxMergeablePerProcessMb * 1024 * 1024

/-- The targets of a cycle, and the statistics of their selection. -/
def targets (scanner : Scanner) (procfs : Procfs) :
    List (UInt32 × List MapsEntry) × ScannerStats :=
  match procfs.listPids with
  | none => ([], scanner.stats)
  | some pids => collectScanTargets scanner.config pids scanner.stats procfs

/-- The part of a cycle that is not deferred, up to its time stamp. -/
def scan (H : Host E W) (scanner : Scanner) (cycle : Cycle) (world : W) : Scanner × W :=
  let (targets, stats) := scanner.targets cycle.procfs
  if targets.isEmpty then ({ scanner with stats := stats }, world)
  else
    let (results, world) := H.batchApplyMergeable targets scanner.maxBytes scanner.dryRun world
    let stats := aggregate stats results
    -- Re-promote to huge pages only when KSM has been unmerging.
    if cycle.pagesVolatile.any fun pages => decide (pages > 1000) then
      let (collapsed, world) := collapse H scanner.dryRun targets world
      ({ scanner with stats := { stats with thpCollapsed := stats.thpCollapsed + collapsed } }, world)
    else ({ scanner with stats := stats }, world)

/-- The number of regions a cycle marks when it is not deferred. -/
def marked (H : Host E W) (scanner : Scanner) (cycle : Cycle) (world : W) : Nat :=
  ((H.applyTargets scanner.maxBytes scanner.dryRun (scanner.targets cycle.procfs).1 world).1.map
    MadviseResult.regionsMerged).sum

/-- Count a finished cycle. -/
def count (scanner : Scanner) : Scanner :=
  { scanner with stats := { scanner.stats with scanCycles := scanner.stats.scanCycles + 1 } }

end Scanner

/-- The scanner with the state it shares and the world it marks. -/
structure ScannerTier (W : Type) where
  scanner : Scanner
  state : GovernorState
  world : W

/-- Note the time of the last scanner action. -/
def GovernorState.stampScanner (state : GovernorState) (now : Instant) : GovernorState :=
  { state with lastScannerAction := now, lastGlobalAction := now }

namespace ScannerTier

variable {E W : Type}

/-- Execute one scan cycle with multi-level filtering, finished at a later time. -/
def scanCycle (H : Host E W) (tier : ScannerTier W) (cycle : Cycle) (finished : Instant) :
    ScannerTier W :=
  if tier.scanner.Deferred cycle.now tier.state.lastScannerAction then
    { tier with scanner := tier.scanner.skip }
  else
    let scanned := tier.scanner.scan H cycle tier.world
    -- The counter is cumulative: compare it with its value at the start of the cycle.
    if scanned.1.stats.madviseCalls > tier.scanner.stats.madviseCalls then
      ⟨scanned.1, tier.state.stampScanner finished, scanned.2⟩
    else ⟨scanned.1, tier.state, scanned.2⟩

end ScannerTier

/-! ## What a cycle counts -/

/-- What is selected with a key of its source has no more keys than the sources have. -/
private theorem map_filterMap_sublist {α β κ : Type} {f : α → Option β} {g : α → κ} {k : β → κ}
    (h : ∀ a b, f a = some b → k b = g a) (as : List α) :
    ((as.filterMap f).map k).Sublist (as.map g) := by
  induction as with
  | nil => exact .slnil
  | cons a as ih =>
    rw [List.map_cons, List.filterMap_cons]
    cases hf : f a with
    | none => exact ih.cons _
    | some b =>
      rw [List.map_cons, h a b hf]
      exact ih.cons_cons _

/-- A candidate is the process its status describes. -/
theorem l1CandidateFromStatus_pid {status : ProcessStatus} {config : ScannerConfig}
    {candidate : Candidate} (h : l1CandidateFromStatus status config = some candidate) :
    candidate.pid = status.pid := by
  unfold l1CandidateFromStatus at h
  split_ifs at h
  cases h
  rfl

/-- No process is selected twice. -/
theorem collectScanTargets_nodup (config : ScannerConfig) {pids : List UInt32} (stats : ScannerStats)
    (procfs : Procfs) (hpids : pids.Nodup) :
    ((collectScanTargets config pids stats procfs).1.map Prod.fst).Nodup := by
  unfold collectScanTargets
  dsimp only
  refine List.Nodup.sublist (map_filterMap_sublist (g := Candidate.pid) ?_ _) ?_
  · intro candidate target h
    obtain ⟨maps, -, h⟩ := Option.bind_eq_some_iff.mp h
    split_ifs at h
    cases h
    rfl
  · refine List.Nodup.sublist ((List.take_sublist _ _).map _) ?_
    rw [((List.perm_insertionSort _ _).map _).nodup_iff]
    refine List.Nodup.sublist ((List.filter_sublist.trans List.filter_sublist).map _) ?_
    rw [← List.map_id pids] at hpids
    refine hpids.sublist (map_filterMap_sublist ?_ _)
    intro pid candidate h
    obtain ⟨status, hstatus, h⟩ := Option.bind_eq_some_iff.mp h
    rw [l1CandidateFromStatus_pid h, procfs.readProcessStatus_pid pid status hstatus]
    rfl

namespace Host

variable {E W : Type} (H : Host E W)

theorem injectBatch_pid (pid : UInt32) (syscallAddr : UInt64) (batch : List (UInt64 × UInt64))
    (result : MadviseResult) (world : W) :
    (H.injectBatch pid syscallAddr batch result world).1.pid = result.pid := by
  induction batch generalizing result world with
  | nil => rfl
  | cons region batch ih =>
    rw [injectBatch]
    rcases H.madviseViaPtrace pid region.1 region.2 syscallAddr world with ⟨e | _, world'⟩
    · exact ih _ _
    · exact ih _ _

/-- A result is that of the process it was asked for. -/
theorem applyMergeable_pid (pid : UInt32) (regions : List MapsEntry) (maxBytes : UInt64)
    (dryRun : Bool) (world : W) :
    (H.applyMergeable pid regions maxBytes dryRun world).1.pid = pid := by
  unfold applyMergeable
  dsimp only
  split
  · rfl
  · split
    · rfl
    · split
      · rfl
      · exact H.injectBatch_pid pid _ _ _ _

theorem applyTargets_pid (maxBytes : UInt64) (dryRun : Bool)
    (targets : List (UInt32 × List MapsEntry)) (world : W) :
    (H.applyTargets maxBytes dryRun targets world).1.map MadviseResult.pid =
      targets.map Prod.fst := by
  induction targets generalizing world with
  | nil => rfl
  | cons target targets ih =>
    rw [applyTargets]
    dsimp only
    rw [List.map_cons, List.map_cons, ih, applyMergeable_pid]

/-- The results of different processes are all kept. -/
theorem resultsByPid_values {results : List MadviseResult}
    (h : (results.map MadviseResult.pid).Nodup) : (resultsByPid results).values = results := by
  have hgeneral : ∀ (results : List MadviseResult) (byPid : Finmap fun _ : UInt32 => MadviseResult),
      (results.map MadviseResult.pid).Nodup →
      (∀ result ∈ results, byPid.lookup result.pid = none) →
      (results.foldl (fun byPid result => byPid.insert result.pid result) byPid).values =
        byPid.values + results := by
    intro results
    induction results with
    | nil => intro byPid _ _; exact (add_zero _).symm
    | cons result results ih =>
      intro byPid hnodup hnone
      obtain ⟨hnot, hnodup⟩ := List.nodup_cons.mp hnodup
      obtain ⟨hhead, hrest⟩ := List.forall_mem_cons.mp hnone
      rw [List.foldl_cons, ih _ hnodup, Finmap.values_insert_of_lookup_none hhead,
        ← Multiset.cons_coe, Multiset.cons_add, Multiset.add_cons]
      intro other hother
      rw [Finmap.lookup_insert_eq, if_neg, hrest other hother]
      intro heq
      exact hnot (heq ▸ List.mem_map_of_mem hother)
  have h := hgeneral results ∅ h fun _ _ => Finmap.lookup_empty _
  rw [Finmap.values_empty, zero_add] at h
  exact h

end Host

namespace Scanner

variable {E W : Type} (H : Host E W) (scanner : Scanner)

theorem targets_nodup (procfs : Procfs) : ((scanner.targets procfs).1.map Prod.fst).Nodup := by
  unfold targets
  cases hpids : procfs.listPids with
  | none => exact List.nodup_nil
  | some pids =>
    exact collectScanTargets_nodup scanner.config scanner.stats procfs
      (procfs.listPids_nodup pids hpids)

/-- Selecting targets counts no call. -/
theorem targets_madviseCalls (procfs : Procfs) :
    (scanner.targets procfs).2.madviseCalls = scanner.stats.madviseCalls := by
  unfold targets
  cases procfs.listPids <;> rfl

/-- A scan changes only the statistics of the scanner. -/
theorem scan_frame (cycle : Cycle) (world : W) :
    ∃ stats, (scanner.scan H cycle world).1 = { scanner with stats := stats } := by
  unfold scan
  dsimp only
  split
  · exact ⟨_, rfl⟩
  · split
    · exact ⟨_, rfl⟩
    · exact ⟨_, rfl⟩

/-- A cycle counts each region it marks. -/
theorem scan_madviseCalls (cycle : Cycle) (world : W) :
    (scanner.scan H cycle world).1.stats.madviseCalls =
      scanner.stats.madviseCalls + scanner.marked H cycle world := by
  have hvalues := Host.resultsByPid_values
    ((H.applyTargets_pid scanner.maxBytes scanner.dryRun (scanner.targets cycle.procfs).1 world).symm ▸
      scanner.targets_nodup cycle.procfs)
  have hsum := congrArg (fun values => (values.map MadviseResult.regionsMerged).sum) hvalues
  rw [Multiset.map_coe, Multiset.sum_coe] at hsum
  unfold scan marked
  dsimp only
  split
  next hempty =>
    rw [List.isEmpty_iff.mp hempty, targets_madviseCalls]
    rfl
  next =>
    rw [← targets_madviseCalls scanner cycle.procfs]
    split
    · exact congrArg _ hsum
    · exact congrArg _ hsum

end Scanner

end Animaksm.Daemon

import Animaksm.Daemon.Marking
import Animaksm.Daemon.Reselection

/-!
# The selection of targets and its specification

The loops of the selection with their early exits, and the processes whose mappings
they read. What they return is told without them: the listed processes that pass
every filter, by falling memory and in the order of the list, as many as a cycle
takes, and of these the ones with a region that can be marked.
-/

namespace Animaksm.Daemon

open Animaksm.Common

/-! ## The loops -/

/-- The candidates of the processes whose status passes, after those found before. -/
def l1Loop (config : ScannerConfig) (procfs : Procfs) :
    List UInt32 → List Candidate → List Candidate
  | [], l1Candidates => l1Candidates
  | pid :: pids, l1Candidates =>
    match procfs.readProcessStatus pid with
    | none => l1Loop config procfs pids l1Candidates
    | some status =>
      match l1CandidateFromStatus status config with
      | none => l1Loop config procfs pids l1Candidates
      | some candidate => l1Loop config procfs pids (l1Candidates ++ [candidate])

/-- The second loop: the candidates whose KSM statistics pass, the number of those that are not
merged already, and the statistics. -/
def l2Loop (procfs : Procfs) :
    List Candidate → List Candidate → Nat → ScannerStats → List Candidate × Nat × ScannerStats
  | [], l25Candidates, l2PassedCount, stats => (l25Candidates, l2PassedCount, stats)
  | candidate :: candidates, l25Candidates, l2PassedCount, stats =>
    let ksmStat := procfs.readKsmStat candidate.pid
    if !passesL2AlreadyMergedFilter ksmStat then
      l2Loop procfs candidates l25Candidates l2PassedCount stats
    else if !passesL25ProfitFilter ksmStat then
      l2Loop procfs candidates l25Candidates (l2PassedCount + 1)
        { stats with processesFilteredL25Profit := stats.processesFilteredL25Profit + 1 }
    else l2Loop procfs candidates (l25Candidates ++ [candidate]) (l2PassedCount + 1) stats

/-- The last loop: the targets, and the processes whose mappings are read. -/
def mapsLoop (procfs : Procfs) :
    List Candidate → List (UInt32 × List MapsEntry) → List UInt32 →
      List (UInt32 × List MapsEntry) × List UInt32
  | [], targets, reads => (targets, reads)
  | candidate :: candidates, targets, reads =>
    match procfs.readProcessMaps candidate.pid with
    | none => mapsLoop procfs candidates targets (reads ++ [candidate.pid])
    | some maps =>
      if (eligibleAnonRwSummary maps).1 = 0 then
        mapsLoop procfs candidates targets (reads ++ [candidate.pid])
      else
        mapsLoop procfs candidates (targets ++ [(candidate.pid, maps)]) (reads ++ [candidate.pid])

/-- The targets of a selection, its statistics, and the processes whose mappings it reads. -/
structure Selection where
  targets : List (UInt32 × List MapsEntry)
  stats : ScannerStats
  mapsReads : List UInt32

/-- The selection as its loops make it. -/
def selectScanTargets (config : ScannerConfig) (pids : List UInt32) (stats : ScannerStats)
    (procfs : Procfs) : Selection :=
  let l1Candidates := l1Loop config procfs pids []
  let stats :=
    { stats with processesFilteredL1 := stats.processesFilteredL1 + l1Candidates.length }
  if l1Candidates.isEmpty then ⟨[], stats, []⟩
  else
    let (l25Candidates, l2PassedCount, stats) := l2Loop procfs l1Candidates [] 0 stats
    let stats := { stats with processesFilteredL2 := stats.processesFilteredL2 + l2PassedCount }
    if l25Candidates.isEmpty then ⟨[], stats, []⟩
    else
      let ranked := Ranking.ranked Candidate.anonRssMb l25Candidates
      let (targets, mapsReads) :=
        mapsLoop procfs (ranked.take config.maxCandidatesPerCycle) [] []
      ⟨targets, stats, mapsReads⟩

/-! ## What each loop computes -/

variable {config : ScannerConfig} {procfs : Procfs} {pids : List UInt32} {pid : UInt32}

theorem l1Loop_eq (pids : List UInt32) (l1Candidates : List Candidate) :
    l1Loop config procfs pids l1Candidates = l1Candidates ++ pids.filterMap fun pid =>
      (procfs.readProcessStatus pid).bind fun status => l1CandidateFromStatus status config := by
  induction pids generalizing l1Candidates with
  | nil => exact (List.append_nil _).symm
  | cons pid pids ih =>
    rw [l1Loop, List.filterMap_cons]
    cases procfs.readProcessStatus pid with
    | none => exact ih _
    | some status =>
      dsimp only [Option.bind_some]
      cases l1CandidateFromStatus status config with
      | none => exact ih _
      | some candidate => exact (ih _).trans (List.append_assoc ..)

theorem l2Loop_eq (candidates l25Candidates : List Candidate) (l2PassedCount : Nat)
    (stats : ScannerStats) :
    let l2 := candidates.filter fun candidate =>
      passesL2AlreadyMergedFilter (procfs.readKsmStat candidate.pid)
    let l25 := l2.filter fun candidate => passesL25ProfitFilter (procfs.readKsmStat candidate.pid)
    l2Loop procfs candidates l25Candidates l2PassedCount stats =
      (l25Candidates ++ l25, l2PassedCount + l2.length, { stats with
        processesFilteredL25Profit :=
          stats.processesFilteredL25Profit + (l2.length - l25.length) }) := by
  induction candidates generalizing l25Candidates l2PassedCount stats with
  | nil =>
    rw [l2Loop]
    simp
  | cons candidate candidates ih =>
    dsimp only at ih ⊢
    rw [l2Loop]
    cases hl2 : passesL2AlreadyMergedFilter (procfs.readKsmStat candidate.pid) with
    | false =>
      simp only [List.filter_cons, hl2, Bool.not_false, Bool.false_eq_true, if_true, if_false]
      exact ih _ _ _
    | true =>
      simp only [List.filter_cons, hl2, Bool.not_true, Bool.false_eq_true, if_true, if_false]
      cases hl25 : passesL25ProfitFilter (procfs.readKsmStat candidate.pid) with
      | false =>
        simp only [Bool.not_false, Bool.false_eq_true, if_true, if_false]
        refine (ih _ _ _).trans ?_
        -- One more candidate passes the first filter only.
        have hle := List.length_filter_le
          (fun candidate => passesL25ProfitFilter (procfs.readKsmStat candidate.pid))
          (candidates.filter fun candidate =>
            passesL2AlreadyMergedFilter (procfs.readKsmStat candidate.pid))
        simp only [List.length_cons, Prod.mk.injEq, ScannerStats.mk.injEq, true_and, and_true]
        omega
      | true =>
        simp only [Bool.not_true, Bool.false_eq_true, if_true, if_false]
        refine (ih _ _ _).trans ?_
        simp only [List.length_cons, List.append_assoc, List.singleton_append, Prod.mk.injEq,
          ScannerStats.mk.injEq, true_and, and_true]
        omega

theorem mapsLoop_eq (candidates : List Candidate) (targets : List (UInt32 × List MapsEntry))
    (reads : List UInt32) :
    mapsLoop procfs candidates targets reads =
      (targets ++ candidates.filterMap (fun candidate =>
        (procfs.readProcessMaps candidate.pid).bind fun maps =>
          if (eligibleAnonRwSummary maps).1 = 0 then none else some (candidate.pid, maps)),
        reads ++ candidates.map Candidate.pid) := by
  induction candidates generalizing targets reads with
  | nil =>
    rw [mapsLoop]
    simp
  | cons candidate candidates ih =>
    rw [mapsLoop, List.filterMap_cons, List.map_cons]
    cases procfs.readProcessMaps candidate.pid with
    | none => exact (ih _ _).trans (by simp)
    | some maps =>
      dsimp only [Option.bind_some]
      split
      · exact (ih _ _).trans (by simp)
      · exact (ih _ _).trans (by simp)

/-- The processes that pass the filters, as the loops rank them. -/
def rankedSurvivors (config : ScannerConfig) (procfs : Procfs) (pids : List UInt32) : List Candidate :=
  Ranking.ranked Candidate.anonRssMb (pids.filterMap (survivor config procfs))

/-- The loops make the selection of the pipeline, and read the mappings of the first survivors. -/
theorem selectScanTargets_eq (config : ScannerConfig) (pids : List UInt32) (stats : ScannerStats)
    (procfs : Procfs) :
    selectScanTargets config pids stats procfs =
      ⟨(collectScanTargets config pids stats procfs).1,
        (collectScanTargets config pids stats procfs).2,
        ((rankedSurvivors config procfs pids).take config.maxCandidatesPerCycle).map Candidate.pid⟩ := by
  have hsurvivors : pids.filterMap (survivor config procfs) =
      ((pids.filterMap fun pid =>
        (procfs.readProcessStatus pid).bind fun status => l1CandidateFromStatus status config).filter
          fun candidate => passesL2AlreadyMergedFilter (procfs.readKsmStat candidate.pid)).filter
            fun candidate => passesL25ProfitFilter (procfs.readKsmStat candidate.pid) := by
    rw [List.filter_filterMap, List.filter_filterMap]
    rfl
  rw [rankedSurvivors, hsurvivors]
  unfold selectScanTargets collectScanTargets
  rw [l1Loop_eq, List.nil_append]
  generalize pids.filterMap (fun pid =>
    (procfs.readProcessStatus pid).bind fun status => l1CandidateFromStatus status config) = l1
  dsimp only
  rw [l2Loop_eq]
  dsimp only
  rw [List.nil_append]
  split
  next hempty =>
    rw [List.isEmpty_iff.mp hempty]
    simp
  next =>
    split
    next hempty =>
      rw [List.isEmpty_iff.mp hempty, Nat.zero_add]
      simp
    next =>
      rw [mapsLoop_eq, Nat.zero_add]
      rfl

/-! ## The specification -/

/-- The status and the KSM statistics of a process pass every filter. -/
def Passes (config : ScannerConfig) (procfs : Procfs) (pid : UInt32) : Prop :=
  (∃ status, procfs.readProcessStatus pid = some status ∧ 2 < pid ∧
    isBlocklisted status.name config.blocklist = false ∧
    config.minAnonRssMb ≤ status.anonRssKb / 1024) ∧
  ∀ stat, procfs.readKsmStat pid = some stat → stat.mergeAny = false ∧ 0 ≤ stat.processProfit

/-- The anonymous memory of a process, in whole MB. -/
def anonRssMb (procfs : Procfs) (pid : UInt32) : Nat :=
  ((procfs.readProcessStatus pid).elim 0 ProcessStatus.anonRssKb) / 1024

/-- The listed processes that pass, by falling memory and in the order of the list. -/
structure Ranks (config : ScannerConfig) (procfs : Procfs) (pids ranked : List UInt32) : Prop where
  mem : ∀ pid, pid ∈ ranked ↔ pid ∈ pids ∧ Passes config procfs pid
  ordered : ranked.Pairwise fun a b => anonRssMb procfs b < anonRssMb procfs a ∨
    anonRssMb procfs a = anonRssMb procfs b ∧ pids.idxOf a < pids.idxOf b

/-- A process with its mappings, if they are readable and one of them can be marked. -/
def markable (procfs : Procfs) (pid : UInt32) : Option (UInt32 × List MapsEntry) :=
  (procfs.readProcessMaps pid).bind fun maps =>
    if maps.any MapsEntry.eligible then some (pid, maps) else none

/-- There is at most one such order. -/
theorem Ranks.unique {ranked other : List UInt32} (h : Ranks config procfs pids ranked)
    (hother : Ranks config procfs pids other) : other = ranked := by
  have hnodup : ∀ {l}, Ranks config procfs pids l → l.Nodup := fun hl =>
    hl.ordered.imp fun hlt heq => by subst heq; omega
  have hperm : other.Perm ranked := (List.perm_ext_iff_of_nodup (hnodup hother) (hnodup h)).mpr
    fun pid => (hother.mem pid).trans (h.mem pid).symm
  refine hperm.eq_of_pairwise ?_ hother.ordered h.ordered
  intro a b _ _ hab hba
  omega

/-- A process passes when it has a candidate, which has its memory. -/
theorem survivor_passes {candidate : Candidate} (h : survivor config procfs pid = some candidate) :
    Passes config procfs pid ∧ candidate.anonRssMb = anonRssMb procfs pid := by
  have hpid : candidate.pid = pid := survivor_pid h
  obtain ⟨hl1, hl2, hl25⟩ := survivor_eq_some.mp h
  obtain ⟨status, hstatus, hcandidate⟩ := Option.bind_eq_some_iff.mp hl1
  rw [hpid] at hl2 hl25
  rw [anonRssMb, hstatus]
  unfold l1CandidateFromStatus at hcandidate
  split_ifs at hcandidate with hlow hblocked hsmall
  cases hcandidate
  refine ⟨⟨⟨status, hstatus, ?_, Bool.eq_false_iff.mpr hblocked, Nat.le_of_not_lt hsmall⟩, ?_⟩, rfl⟩
  · exact procfs.readProcessStatus_pid pid status hstatus ▸ UInt32.not_le.mp hlow
  · intro stat hstat
    rw [hstat] at hl2 hl25
    exact ⟨by simpa [passesL2AlreadyMergedFilter] using hl2,
      by simpa [passesL25ProfitFilter] using hl25⟩

theorem exists_survivor (h : Passes config procfs pid) :
    ∃ candidate, survivor config procfs pid = some candidate := by
  obtain ⟨⟨status, hstatus, hhigh, hblocked, hlarge⟩, hstat⟩ := h
  have hpid := procfs.readProcessStatus_pid pid status hstatus
  refine ⟨⟨pid, status.name, status.anonRssKb / 1024⟩, survivor_eq_some.mpr ⟨?_, ?_, ?_⟩⟩
  · rw [hstatus, Option.bind_some, l1CandidateFromStatus, hpid,
      if_neg (UInt32.not_le.mpr hhigh), if_neg (Bool.eq_false_iff.mp hblocked),
      if_neg (Nat.not_lt.mpr hlarge)]
  · cases hread : procfs.readKsmStat pid with
    | none => rfl
    | some stat => simp [passesL2AlreadyMergedFilter, (hstat stat hread).1]
  · cases hread : procfs.readKsmStat pid with
    | none => rfl
    | some stat => simp [passesL25ProfitFilter, (hstat stat hread).2]

/-- In a list without duplicates the earlier element has the smaller index. -/
theorem pairwise_idxOf_lt (hpids : pids.Nodup) :
    pids.Pairwise fun a b => pids.idxOf a < pids.idxOf b := by
  rw [List.pairwise_iff_getElem]
  intro i j hi hj hlt
  rwa [hpids.idxOf_getElem i hi, hpids.idxOf_getElem j hj]

/-- The loops rank the processes that pass. -/
theorem ranks_rankedSurvivors (hpids : pids.Nodup) :
    Ranks config procfs pids ((rankedSurvivors config procfs pids).map Candidate.pid) where
  mem pid := by
    rw [List.mem_map]
    constructor
    · rintro ⟨candidate, hmem, rfl⟩
      obtain ⟨p, hp, hsurvivor⟩ := List.mem_filterMap.mp ((List.mem_insertionSort _).mp hmem)
      rw [survivor_pid hsurvivor]
      exact ⟨hp, (survivor_passes hsurvivor).1⟩
    · rintro ⟨hp, hpasses⟩
      obtain ⟨candidate, hsurvivor⟩ := exists_survivor hpasses
      exact ⟨candidate, (List.mem_insertionSort _).mpr (List.mem_filterMap.mpr ⟨pid, hp, hsurvivor⟩),
        survivor_pid hsurvivor⟩
  ordered := by
    have hlisted : (pids.filterMap (survivor config procfs)).Pairwise
        fun a b => pids.idxOf a.pid < pids.idxOf b.pid := by
      refine (pairwise_idxOf_lt hpids).filterMap _ fun p q hlt candidate hp other hq => ?_
      rwa [survivor_pid hp, survivor_pid hq]
    have hmemory : ∀ candidate ∈ rankedSurvivors config procfs pids,
        candidate.anonRssMb = anonRssMb procfs candidate.pid := by
      intro candidate hmem
      obtain ⟨p, -, hsurvivor⟩ := List.mem_filterMap.mp ((List.mem_insertionSort _).mp hmem)
      rw [survivor_pid hsurvivor]
      exact (survivor_passes hsurvivor).2
    refine List.pairwise_map.mpr ((Ranking.pairwise_ranked_ties hlisted).imp_of_mem ?_)
    intro a b ha hb hab
    rwa [hmemory a ha, hmemory b hb] at hab

/-- The mappings of a process can be marked when one of them is counted as eligible. -/
theorem eligible_any_iff (maps : List MapsEntry) :
    maps.any MapsEntry.eligible = true ↔ (eligibleAnonRwSummary maps).1 ≠ 0 := by
  rw [eligibleAnonRwSummary, List.any_eq_true, ← List.length_filter_pos_iff]
  exact Nat.pos_iff_ne_zero

/-- The targets are the first of the ranked processes that have something to mark. -/
theorem selectScanTargets_targets (config : ScannerConfig) (pids : List UInt32) (stats : ScannerStats)
    (procfs : Procfs) :
    (selectScanTargets config pids stats procfs).targets =
      (((rankedSurvivors config procfs pids).map Candidate.pid).take
        config.maxCandidatesPerCycle).filterMap (markable procfs) := by
  rw [selectScanTargets_eq, ← List.map_take, List.filterMap_map]
  unfold collectScanTargets
  dsimp only
  rw [List.filter_filterMap, List.filter_filterMap]
  refine List.filterMap_congr fun candidate _ => ?_
  rw [Function.comp_apply, markable]
  refine Option.bind_congr fun maps _ => ?_
  by_cases hany : maps.any MapsEntry.eligible = true
  · rw [if_pos hany, if_neg ((eligible_any_iff maps).mp hany)]
  · rw [if_neg hany, if_pos (not_ne_iff.mp fun h => hany ((eligible_any_iff maps).mpr h))]

/-- Marking a process with a region that can be marked attempts a region. -/
theorem Host.regionsAttempted_pos {E W : Type} (H : Host E W) {maps : List MapsEntry}
    (heligible : maps.any MapsEntry.eligible) (hsizes : ∀ region ∈ maps, region.start < region.stop)
    {maxBytes : UInt64} (hcap : 0 < maxBytes) (dryRun : Bool) (world : W) :
    1 ≤ (H.applyMergeable pid maps maxBytes dryRun world).1.regionsAttempted := by
  rw [applyMergeable_regionsAttempted]
  have hfilter : ∀ region ∈ maps.filter MapsEntry.eligible, region.start < region.stop :=
    fun region hmem => hsizes region (List.mem_of_mem_filter hmem)
  cases hregions : maps.filter MapsEntry.eligible with
  | nil =>
    obtain ⟨region, hmem, hregion⟩ := List.any_eq_true.mp heligible
    exact absurd (List.mem_filter.mpr ⟨hmem, hregion⟩) (hregions ▸ List.not_mem_nil)
  | cons region regions =>
    rw [hregions] at hfilter
    obtain ⟨hregion, hrest⟩ := List.forall_mem_cons.mp hfilter
    exact List.length_pos_iff.mpr (buildBatch_ne_nil hregion
      (fun region hmem => UInt64.le_of_lt (hrest region hmem)) hcap)

/-- The selection takes the processes that pass every filter, by falling memory and in the order of
the list, cuts them to the number of a cycle and keeps those with readable mappings of which one can
be marked. It reads the mappings of no more processes than that number, and every target with
non-empty regions has a region attempted under a positive cap. -/
theorem selectScanTargets_spec (config : ScannerConfig) (hpids : pids.Nodup) (stats : ScannerStats)
    (procfs : Procfs) :
    ∃ ranked, Ranks config procfs pids ranked ∧
      (∀ other, Ranks config procfs pids other → other = ranked) ∧
      (selectScanTargets config pids stats procfs).targets =
        (ranked.take config.maxCandidatesPerCycle).filterMap (markable procfs) ∧
      (selectScanTargets config pids stats procfs).mapsReads.length ≤ config.maxCandidatesPerCycle ∧
      ∀ target ∈ (selectScanTargets config pids stats procfs).targets,
        (∀ region ∈ target.2, region.start < region.stop) →
        ∀ (maxBytes : UInt64), 0 < maxBytes →
          ∀ {E W : Type} (H : Host E W) (dryRun : Bool) (world : W),
            1 ≤ (H.applyMergeable target.1 target.2 maxBytes dryRun world).1.regionsAttempted := by
  have hranks : Ranks config procfs pids ((rankedSurvivors config procfs pids).map Candidate.pid) :=
    ranks_rankedSurvivors hpids
  refine ⟨_, hranks, fun other hother => hranks.unique hother,
    selectScanTargets_targets config pids stats procfs, ?_, ?_⟩
  · rw [selectScanTargets_eq]
    dsimp only
    rw [List.length_map]
    exact List.length_take_le _ _
  · intro target htarget hsizes maxBytes hcap E W H dryRun world
    rw [selectScanTargets_targets] at htarget
    obtain ⟨pid, -, htarget⟩ := List.mem_filterMap.mp htarget
    obtain ⟨maps, -, hsome⟩ := Option.bind_eq_some_iff.mp htarget
    split_ifs at hsome with hany
    cases hsome
    exact H.regionsAttempted_pos hany hsizes hcap dryRun world

/-- The anonymous memory of the processes of a workstation, in MB. -/
def workstationMemory : List (UInt32 × Nat) :=
  [(2, 900), (3, 300), (4, 500), (5, 400), (6, 300), (7, 600), (8, 300), (9, 50), (10, 800), (11, 120)]

/-- Process 4 is merged already and process 5 at a loss, process 10 is blocked, and the mappings of
process 6 cannot be read. -/
def workstationProcfs : Procfs where
  listPids := some (workstationMemory.map Prod.fst)
  readProcessStatus pid := (workstationMemory.lookup pid).map fun mb =>
    ⟨pid, if pid = 10 then "sshd" else "browser", mb * 1024⟩
  readKsmStat pid :=
    if pid = 4 then some ⟨20, 10, 4096, true, true⟩
    else if pid = 5 then some ⟨20, 0, -640, false, true⟩
    else if pid = 7 then some ⟨0, 0, 0, false, false⟩
    else none
  readProcessMaps pid :=
    if pid = 6 then none else some [⟨0x7000, 0x9000, "rw-p", 0, "00:00", 0, ""⟩]
  listPids_nodup pids h := by
    cases h
    decide
  readProcessStatus_pid pid status h := by
    obtain ⟨mb, -, rfl⟩ := Option.map_eq_some_iff.mp h
    rfl

/-- Of the five processes that pass, with 600, 300, 300, 300 and 120 MB, the mappings of the first four
are read, the equal ones in the order of the list, and three of these are targets. -/
theorem selectScanTargets_spec_workstation :
    let config : ScannerConfig := ⟨100, 512, ["ssh"], 4⟩
    let pids := workstationMemory.map Prod.fst
    let selection := selectScanTargets config pids ⟨0, 0, 0, 0, 0, 0, 0, 0, 0⟩ workstationProcfs
    (∃ ranked, Ranks config workstationProcfs pids ranked ∧
      selection.targets = (ranked.take 4).filterMap (markable workstationProcfs)) ∧
      selection.mapsReads = [7, 3, 6, 8] ∧ selection.targets.map Prod.fst = [7, 3, 8] := by
  obtain ⟨ranked, hranks, -, htargets, -⟩ := selectScanTargets_spec ⟨100, 512, ["ssh"], 4⟩
    (show (workstationMemory.map Prod.fst).Nodup by decide) ⟨0, 0, 0, 0, 0, 0, 0, 0, 0⟩ workstationProcfs
  exact ⟨⟨ranked, hranks, htargets⟩, by decide +kernel⟩

end Animaksm.Daemon

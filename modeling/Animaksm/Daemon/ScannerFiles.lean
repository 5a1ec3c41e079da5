import Animaksm.Common.KsmStat
import Animaksm.Common.StatusText
import Animaksm.Daemon.Selection

/-!
# The scanner on the files of /proc

The readers of the scanner go over the entries of `/proc` and over the status, the KSM
statistics and the mappings of a process. Where these files show a table of processes
the selection is told from the table alone.
-/

namespace Animaksm.Daemon

open Animaksm.Common

/-- The directories and the files of a system. -/
structure ProcFiles where
  readDir : String → Except String (List (Except String (List Char)))
  readToString : String → Except String (List Char)

namespace ProcFiles

variable (files : ProcFiles)

/-- The readers of the scanner on files in which a process has one directory. -/
def procfs (h : ∀ pids, (listPidsFrom files.readDir "/proc").toOption = some pids → pids.Nodup) :
    Procfs where
  listPids := (listPidsFrom files.readDir "/proc").toOption
  readProcessStatus pid :=
    (readProcessStatusFrom files.readToString "/proc" pid).toOption.map FullStatus.toProcessStatus
  readKsmStat pid :=
    readKsmStatFrom (files.readToString ("/proc" ++ "/" ++ toString pid ++ "/ksm_stat")).toOption
  readProcessMaps pid := (readProcessMapsFrom files.readToString "/proc" pid).toOption
  listPids_nodup := h
  readProcessStatus_pid pid status hstatus := by
    obtain ⟨full, hread, rfl⟩ := Option.map_eq_some_iff.mp hstatus
    unfold readProcessStatusFrom at hread
    dsimp only at hread
    split at hread
    · cases hread
    · cases hread
      exact FullStatus.foldl_readLine_pid _ _

end ProcFiles

/-! ## A table of processes -/

/-- What the kernel knows of a process, as far as it can be read. -/
structure Process where
  pid : UInt32
  status : Option StatusReport
  ksm : Option KsmReport
  mappings : Option (List Mapping)

/-- An entry of the directory. -/
inductive ProcEntry where
  | process (p : Process)
  | other (name : List Char) (h : parseDecU32 name = none)
  | failed (error : String)

/-- The name of an entry. -/
def ProcEntry.name : ProcEntry → Except String (List Char)
  | .process p => .ok (Nat.toDigits 10 p.pid.toNat)
  | .other name _ => .ok name
  | .failed error => .error error

/-- The process of an entry. -/
def ProcEntry.process? : ProcEntry → Option Process
  | .process p => some p
  | _ => none

/-- The processes of a table. -/
def processes (table : List ProcEntry) : List Process := table.filterMap ProcEntry.process?

namespace Process

variable (config : ScannerConfig) (p : Process)

/-- The name of a file of a process. -/
def path (file : String) : String := "/proc" ++ "/" ++ toString p.pid ++ file

/-- The anonymous memory of a process, in whole MB. -/
def anonRssMb : Nat := (p.status.elim 0 fun report => report.sizeKb ResidentMemory.anonRssKb) / 1024

/-- A large process that is not blocked. -/
def large : Bool := p.status.any fun report =>
  decide (2 < p.pid) && !isBlocklisted (String.ofList (Text.trim report.name)) config.blocklist &&
    decide (config.minAnonRssMb ≤ p.anonRssMb)

/-- All the memory of the process is offered for merging already. -/
def merged : Bool := p.ksm.any KsmReport.mergeAny

/-- Merging costs more memory than it saves. -/
def atLoss : Bool := p.ksm.any fun report => decide (report.processProfit.toInt < 0)

/-- The process with its mappings, if they are readable and one of them is private, anonymous, readable,
writable and not executable. -/
def target : Option (UInt32 × List MapsEntry) :=
  p.mappings.bind fun mappings =>
    if mappings.any fun m => m.isAnonRw && !m.perms.exec then some (p.pid, mappings.map Mapping.entry)
    else none

end Process

/-- The directory lists the table, and the files show its processes. -/
structure ShownIn (table : List ProcEntry) (files : ProcFiles) : Prop where
  listing : files.readDir "/proc" = .ok (table.map ProcEntry.name)
  status : ∀ p ∈ processes table,
    (files.readToString (p.path "/status")).toOption = p.status.map StatusReport.text
  ksm : ∀ p ∈ processes table,
    (files.readToString (p.path "/ksm_stat")).toOption = p.ksm.map KsmReport.text
  mappings : ∀ p ∈ processes table,
    (files.readToString (p.path "/maps")).toOption = p.mappings.map mapsText

/-! ## What is read -/

variable {table : List ProcEntry} {files : ProcFiles} {p : Process}

theorem listPidsFrom_shown (h : ShownIn table files) :
    (listPidsFrom files.readDir "/proc").toOption = some ((processes table).map Process.pid) := by
  rw [listPidsFrom, h.listing]
  refine congrArg some ?_
  rw [List.filterMap_map, processes, List.map_filterMap]
  refine List.filterMap_congr fun entry _ => ?_
  cases entry with
  | process p => exact parseDecU32_toDigits p.pid
  | other name hname => exact hname
  | failed error => rfl

/-- A process of the table has one directory. -/
theorem ShownIn.nodup (h : ShownIn table files) (hpids : ((processes table).map Process.pid).Nodup) :
    ∀ pids, (listPidsFrom files.readDir "/proc").toOption = some pids → pids.Nodup := by
  intro pids hread
  rw [listPidsFrom_shown h] at hread
  cases hread
  exact hpids

theorem readProcessStatus_shown (h : ShownIn table files) (hp : p ∈ processes table) :
    (readProcessStatusFrom files.readToString "/proc" p.pid).toOption =
      p.status.map fun report => report.status p.pid := by
  have hstatus := h.status p hp
  unfold Process.path at hstatus
  unfold readProcessStatusFrom
  dsimp only
  cases hread : files.readToString ("/proc" ++ "/" ++ toString p.pid ++ "/status") with
  | error e =>
    rw [hread] at hstatus
    rw [Option.map_eq_none_iff.mp hstatus.symm]
    rfl
  | ok content =>
    rw [hread] at hstatus
    obtain ⟨report, hreport, rfl⟩ := Option.map_eq_some_iff.mp hstatus.symm
    rw [hreport]
    exact congrArg some (report.foldl_text p.pid)

theorem readProcessMaps_shown (h : ShownIn table files) (hp : p ∈ processes table) :
    (readProcessMapsFrom files.readToString "/proc" p.pid).toOption =
      p.mappings.map (List.map Mapping.entry) := by
  have hmappings := h.mappings p hp
  unfold Process.path at hmappings
  unfold readProcessMapsFrom
  dsimp only
  cases hread : files.readToString ("/proc" ++ "/" ++ toString p.pid ++ "/maps") with
  | error e =>
    rw [hread] at hmappings
    rw [Option.map_eq_none_iff.mp hmappings.symm]
    rfl
  | ok content =>
    rw [hread] at hmappings
    obtain ⟨mappings, hmaps, rfl⟩ := Option.map_eq_some_iff.mp hmappings.symm
    rw [hmaps]
    exact congrArg some (parse_mapsText mappings)

theorem readKsmStat_shown (h : ShownIn table files) (hp : p ∈ processes table) :
    readKsmStatFrom (files.readToString ("/proc" ++ "/" ++ toString p.pid ++ "/ksm_stat")).toOption =
      p.ksm.map fun report => ⟨report.rmapItems.toNat, report.mergingPages.toNat,
        report.processProfit.toInt, report.mergeAny, report.mergeable⟩ := by
  rw [show (files.readToString ("/proc" ++ "/" ++ toString p.pid ++ "/ksm_stat")).toOption =
    p.ksm.map KsmReport.text from h.ksm p hp]
  cases p.ksm with
  | none => rfl
  | some report => exact report.readKsmStatFrom_text

/-! ## What is selected -/

namespace Process

/-- The candidate of a process. -/
def candidate (p : Process) : Candidate :=
  ⟨p.pid, p.status.elim "" fun report => String.ofList (Text.trim report.name), p.anonRssMb⟩

/-- The entry of a mapping can be marked when the mapping is private, anonymous, readable and writable
and not executable. -/
theorem eligible_entry (m : Mapping) : m.entry.eligible = (m.isAnonRw && !m.perms.exec) := by
  rw [MapsEntry.eligible, m.isAnonRw_entry, m.hasExec_entry]
  cases hanon : m.isAnonRw with
  | false => rfl
  | true =>
    -- An anonymous mapping has no name.
    have hname : m.name = none := by
      simp only [Mapping.isAnonRw, Bool.and_eq_true, Option.isNone_iff_eq_none] at hanon
      exact hanon.1.2
    rw [m.isSpecial_entry (by simp [hname]), Mapping.isSpecial, hname]
    simp

/-- A status has a candidate when its process is no kernel process, is not blocked and is large. -/
theorem l1CandidateFromStatus_eq (status : ProcessStatus) (config : ScannerConfig) :
    l1CandidateFromStatus status config =
      if decide (2 < status.pid) && !isBlocklisted status.name config.blocklist &&
        decide (config.minAnonRssMb ≤ status.anonRssKb / 1024) then
          some ⟨status.pid, status.name, status.anonRssKb / 1024⟩
      else none := by
  unfold l1CandidateFromStatus
  by_cases hlow : status.pid ≤ 2
  · rw [if_pos hlow, decide_eq_false (UInt32.not_lt.mpr hlow)]
    rfl
  · rw [if_neg hlow, decide_eq_true (UInt32.not_le.mp hlow)]
    by_cases hblocked : isBlocklisted status.name config.blocklist = true
    · rw [if_pos hblocked, hblocked]
      rfl
    · rw [if_neg hblocked, Bool.eq_false_iff.mpr hblocked]
      by_cases hsmall : status.anonRssKb / 1024 < config.minAnonRssMb
      · rw [if_pos hsmall, decide_eq_false (Nat.not_le.mpr hsmall)]
        rfl
      · rw [if_neg hsmall, decide_eq_true (Nat.le_of_not_lt hsmall)]
        rfl

theorem l1Candidate (config : ScannerConfig) (h : ShownIn table files)
    (hpids : ((processes table).map Process.pid).Nodup) (hp : p ∈ processes table) :
    (((files.procfs (h.nodup hpids)).readProcessStatus p.pid).bind fun status =>
      l1CandidateFromStatus status config) = if p.large config then some p.candidate else none := by
  have hread : (files.procfs (h.nodup hpids)).readProcessStatus p.pid =
      p.status.map fun report => (report.status p.pid).toProcessStatus := by
    change Option.map _ _ = _
    rw [readProcessStatus_shown h hp, Option.map_map]
    rfl
  rw [hread]
  unfold large candidate anonRssMb
  cases p.status with
  | none => rfl
  | some report => exact l1CandidateFromStatus_eq (report.status p.pid).toProcessStatus config

theorem passesL2_candidate (h : ShownIn table files)
    (hpids : ((processes table).map Process.pid).Nodup) (hp : p ∈ processes table) :
    passesL2AlreadyMergedFilter ((files.procfs (h.nodup hpids)).readKsmStat p.candidate.pid) =
      !p.merged := by
  have hread := readKsmStat_shown h hp
  change passesL2AlreadyMergedFilter (readKsmStatFrom _) = _
  rw [candidate, hread, merged]
  cases p.ksm <;> rfl

theorem passesL25_candidate (h : ShownIn table files)
    (hpids : ((processes table).map Process.pid).Nodup) (hp : p ∈ processes table) :
    passesL25ProfitFilter ((files.procfs (h.nodup hpids)).readKsmStat p.candidate.pid) =
      !p.atLoss := by
  have hread := readKsmStat_shown h hp
  change passesL25ProfitFilter (readKsmStatFrom _) = _
  rw [candidate, hread, atLoss]
  cases p.ksm with
  | none => rfl
  | some report =>
    simp only [Option.map_some, passesL25ProfitFilter, Option.getD_some, Option.any_some, ← decide_not,
      not_lt, ge_iff_le]

theorem target_candidate (h : ShownIn table files)
    (hpids : ((processes table).map Process.pid).Nodup) (hp : p ∈ processes table) :
    (((files.procfs (h.nodup hpids)).readProcessMaps p.candidate.pid).bind fun maps =>
      if (eligibleAnonRwSummary maps).1 = 0 then none else some (p.candidate.pid, maps)) = p.target := by
  have hread : (files.procfs (h.nodup hpids)).readProcessMaps p.candidate.pid =
      p.mappings.map (List.map Mapping.entry) := readProcessMaps_shown h hp
  rw [hread, target]
  cases p.mappings with
  | none => rfl
  | some mappings =>
    have hany : (mappings.map Mapping.entry).any MapsEntry.eligible =
        mappings.any fun m => m.isAnonRw && !m.perms.exec := by
      rw [List.any_map]
      exact congrArg mappings.any (funext eligible_entry)
    rw [Option.map_some, Option.bind_some, Option.bind_some, ← hany]
    by_cases heligible : (mappings.map Mapping.entry).any MapsEntry.eligible = true
    · rw [if_pos heligible, if_neg ((eligible_any_iff _).mp heligible)]
      rfl
    · rw [if_neg heligible, if_pos (not_ne_iff.mp fun hne => heligible ((eligible_any_iff _).mpr hne))]

end Process

namespace Scanner

/-- Over a directory that shows a table of processes the scanner selects, of the large processes that are
neither merged already nor merged at a loss, the ones with the most anonymous memory, those with as much
in the order of the directory and no more than it takes in one cycle, and keeps those with a mapping to
mark. It counts the processes that are large, those of them that are not merged already, and those of
these that are merged at a loss. -/
theorem targets_shown (scanner : Scanner) (h : ShownIn table files)
    (hpids : ((processes table).map Process.pid).Nodup) :
    let l1 := (processes table).filter (Process.large scanner.config)
    let l2 := l1.filter fun p => !p.merged
    let ranked := Ranking.ranked Process.anonRssMb (l2.filter fun p => !p.atLoss)
    scanner.targets (files.procfs (h.nodup hpids)) =
      ((ranked.take scanner.config.maxCandidatesPerCycle).filterMap Process.target,
        { scanner.stats with
          processesFilteredL1 := scanner.stats.processesFilteredL1 + l1.length
          processesFilteredL2 := scanner.stats.processesFilteredL2 + l2.length
          processesFilteredL25Profit :=
            scanner.stats.processesFilteredL25Profit + (l2.filter Process.atLoss).length }) := by
  intro l1 l2 ranked
  have hlist : (files.procfs (h.nodup hpids)).listPids = some ((processes table).map Process.pid) :=
    listPidsFrom_shown h
  have hl1 : ((processes table).map Process.pid).filterMap (fun pid =>
      ((files.procfs (h.nodup hpids)).readProcessStatus pid).bind fun status =>
        l1CandidateFromStatus status scanner.config) = l1.map Process.candidate := by
    rw [List.filterMap_map, ← List.filterMap_eq_map, List.filterMap_filter]
    exact List.filterMap_congr fun p hp => Process.l1Candidate scanner.config h hpids hp
  have hmem1 : ∀ p ∈ l1, p ∈ processes table := fun p hp => List.mem_of_mem_filter hp
  have hl2 : (l1.map Process.candidate).filter (fun candidate =>
      passesL2AlreadyMergedFilter ((files.procfs (h.nodup hpids)).readKsmStat candidate.pid)) =
        l2.map Process.candidate := by
    rw [List.filter_map]
    refine congrArg (List.map Process.candidate) (List.filter_congr fun p hp => ?_)
    exact Process.passesL2_candidate h hpids (hmem1 p hp)
  have hmem2 : ∀ p ∈ l2, p ∈ processes table := fun p hp => hmem1 p (List.mem_of_mem_filter hp)
  have hl25 : (l2.map Process.candidate).filter (fun candidate =>
      passesL25ProfitFilter ((files.procfs (h.nodup hpids)).readKsmStat candidate.pid)) =
        (l2.filter fun p => !p.atLoss).map Process.candidate := by
    rw [List.filter_map]
    refine congrArg (List.map Process.candidate) (List.filter_congr fun p hp => ?_)
    exact Process.passesL25_candidate h hpids (hmem2 p hp)
  have hranked : ((l2.filter fun p => !p.atLoss).map Process.candidate).insertionSort
      (fun a b => b.anonRssMb ≤ a.anonRssMb) = ranked.map Process.candidate :=
    (List.map_insertionSort (fun a b : Process => b.anonRssMb ≤ a.anonRssMb)
      (fun a b : Candidate => b.anonRssMb ≤ a.anonRssMb) Process.candidate _ fun a _ b _ => Iff.rfl).symm
  have hmem : ∀ p ∈ ranked.take scanner.config.maxCandidatesPerCycle, p ∈ processes table :=
    fun p hp => hmem2 p (List.mem_of_mem_filter ((List.mem_insertionSort _).mp (List.mem_of_mem_take hp)))
  have hcount : l2.length - (l2.filter fun p => !p.atLoss).length = (l2.filter Process.atLoss).length := by
    have hsplit := List.length_eq_length_filter_add Process.atLoss (l := l2)
    omega
  unfold targets
  rw [hlist]
  dsimp only
  unfold collectScanTargets
  rw [hl1]
  dsimp only
  rw [hl2, hl25, hranked, ← List.map_take, List.filterMap_map, List.length_map, List.length_map,
    List.length_map, hcount]
  refine congrArg₂ Prod.mk (List.filterMap_congr fun p hp => ?_) rfl
  exact Process.target_candidate h hpids (hmem p hp)

/-- The files of a table of processes. -/
def shownFiles (table : List ProcEntry) : List (String × Option (List Char)) :=
  (processes table).flatMap fun p =>
    [(p.path "/status", p.status.map StatusReport.text), (p.path "/ksm_stat", p.ksm.map KsmReport.text),
      (p.path "/maps", p.mappings.map mapsText)]

/-- The directory and the files of a table. -/
def showing (table : List ProcEntry) : ProcFiles where
  readDir _ := .ok (table.map ProcEntry.name)
  readToString path :=
    match ((shownFiles table).lookup path).join with
    | some text => .ok text
    | none => .error "missing"

/-- A process with this much anonymous memory, in MB, and one mapping to mark. -/
def userProcess (pid : UInt32) (anonMb : UInt64) : Process where
  pid := pid
  status := some ⟨"browser".toList, by decide, some ⟨900000, anonMb * 1024, 0, [], []⟩, [], []⟩
  ksm := none
  mappings := some [⟨0x1000, 0x5000, ⟨true, true, false, false⟩, 0, 0, 0, 0, none, 0⟩]

/-- Process 4 is merged already and process 5 at a loss, process 10 is blocked, and the mappings of
process 6 cannot be read. -/
def workstationTable : List ProcEntry :=
  [.other "meminfo".toList (by decide), .process (userProcess 3 300),
    .process { userProcess 4 500 with ksm := some ⟨20, 0, 10, 4096, true, true⟩ },
    .process { userProcess 5 400 with ksm := some ⟨20, 0, 0, -640, false, true⟩ },
    .process { userProcess 6 300 with mappings := none }, .failed "stale handle",
    .process { userProcess 7 600 with ksm := some ⟨0, 0, 0, 0, false, false⟩ },
    .process (userProcess 8 300), .process (userProcess 9 50),
    .process { userProcess 10 800 with
      status := some ⟨"sshd".toList, by decide, some ⟨900000, 819200, 0, [], []⟩, [], []⟩ },
    .process (userProcess 11 120)]

theorem shownIn_workstation : ShownIn workstationTable (showing workstationTable) where
  listing := rfl
  status := by decide +kernel
  ksm := by decide +kernel
  mappings := by decide +kernel

/-- Of the five processes that pass, with 600, 300, 300, 300 and 120 MB, the first four are ranked in
the order of the directory, and the one of them without readable mappings is left out. -/
theorem targets_shown_workstation :
    let selected := (Scanner.new ⟨100, 512, ["ssh"], 4⟩ false 30).targets
      ((showing workstationTable).procfs (shownIn_workstation.nodup (by decide)))
    selected.1.map Prod.fst = [7, 3, 8] ∧ selected.2.processesFilteredL1 = 7 ∧
      selected.2.processesFilteredL2 = 6 ∧ selected.2.processesFilteredL25Profit = 1 := by
  rw [targets_shown (Scanner.new ⟨100, 512, ["ssh"], 4⟩ false 30) shownIn_workstation (by decide)]
  decide +kernel

end Scanner

end Animaksm.Daemon

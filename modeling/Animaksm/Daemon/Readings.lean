import Animaksm.Common.PsiText
import Animaksm.Common.StatFiles
import Animaksm.Daemon.LevelSafety

/-!
# The governor on the kernel's files

A tick reads the pressure file and the statistics files, and does nothing when one of
them cannot be read. Over files that show what the kernel knows the governor runs as it
does on the readings themselves, with the ticks left out that could not read.
-/

namespace Animaksm.Daemon

open Animaksm.Common

/-- The statistics that the governor uses. -/
def KsmStats.ofSysfs (stats : Common.KsmStats) : KsmStats :=
  ⟨stats.pagesSharing, stats.fullScans, stats.generalProfit⟩

/-- What a tick finds: the clock and the files. -/
structure TickFiles (ε : Type) where
  now : Instant
  pressure : Except ε (List Char)
  stats : Common.KsmStats.Files ε

namespace GovernorTier

variable {ε η K D : Type} [Average K]

/-- Single tick of the governor loop. -/
def tick (fs : Sysfs η D) (parseAverage : List Char → Option K) (tier : GovernorTier K D)
    (files : TickFiles ε) : Except Panic (GovernorTier K D) :=
  match files.pressure with
  | .error _ => .ok tier
  | .ok content =>
    match Common.KsmStats.readStats files.stats with
    | .error _ => .ok tier
    | .ok stats =>
      tier.tickWithReadings fs ⟨files.now, .parse parseAverage content, .ofSysfs stats⟩

/-- A sequence of ticks on files. -/
def runFiles (fs : Sysfs η D) (parseAverage : List Char → Option K) :
    GovernorTier K D → List (TickFiles ε) → Except Panic (GovernorTier K D) :=
  Run.tryRun (tick fs parseAverage)

end GovernorTier

namespace TickFiles

variable {ε K : Type} [Average K]

/-- The readings of a tick, if it could read. -/
def readings (parseAverage : List Char → Option K) (files : TickFiles ε) : Option (Tick K) :=
  match files.pressure, Common.KsmStats.readStats files.stats with
  | .ok content, .ok stats => some ⟨files.now, .parse parseAverage content, .ofSysfs stats⟩
  | _, _ => none

end TickFiles

/-- What the kernel knows at a tick, unless a file cannot be read then. -/
structure Sample where
  now : Instant
  known : Option (PsiReport × Common.KsmStats)

namespace Sample

variable {ε K : Type}

/-- The tick on what the kernel knows. -/
def tick (value : Nat → K) (sample : Sample) : Option (Tick K) :=
  sample.known.map fun known => ⟨sample.now, known.1.stats value, .ofSysfs known.2⟩

/-- The files show what the kernel knows, or one that is needed cannot be read. -/
def ShownBy (files : TickFiles ε) (sample : Sample) : Prop :=
  files.now = sample.now ∧
    match sample.known with
    | some (report, stats) =>
      files.pressure = .ok report.text ∧ stats.Bounded ∧ stats.ShownIn files.stats
    | none => (∃ e, files.pressure = .error e) ∨
      ∃ file ∈ Common.KsmStats.mandatory, (Common.KsmStats.error? files.stats file).isSome

end Sample

namespace GovernorTier

variable {ε η K D : Type} [Average K] {fs : Sysfs η D} {parseAverage : List Char → Option K}

/-- A tick is the tick on its readings. -/
theorem tick_eq (tier : GovernorTier K D) (files : TickFiles ε) :
    tier.tick fs parseAverage files =
      (files.readings parseAverage).elim (.ok tier) (tier.tickWithReadings fs) := by
  unfold tick TickFiles.readings
  cases files.pressure with
  | error e => rfl
  | ok content =>
    dsimp only
    cases Common.KsmStats.readStats files.stats with
    | error e => rfl
    | ok stats => rfl

/-- A run on files is the run on what could be read. -/
theorem runFiles_eq (tier : GovernorTier K D) (files : List (TickFiles ε)) :
    tier.runFiles fs parseAverage files =
      tier.runTicks fs (files.filterMap (TickFiles.readings parseAverage)) := by
  rw [runFiles, runTicks, ← Run.tryRun_filterMap]
  congr 1
  funext tier files
  exact tier.tick_eq files

/-- From files that show what the kernel knows just that is read. -/
theorem readings_eq {value : Nat → K} (hvalue : ∀ n, parseAverage (showHundredths n) = some (value n))
    {files : TickFiles ε} {sample : Sample} (h : sample.ShownBy files) :
    files.readings parseAverage = sample.tick value := by
  obtain ⟨hnow, hknown⟩ := h
  unfold TickFiles.readings Sample.tick
  cases hsample : sample.known with
  | some known =>
    obtain ⟨report, stats⟩ := known
    rw [hsample] at hknown
    obtain ⟨hpressure, hbounded, hshown⟩ := hknown
    rw [hpressure, Common.KsmStats.readStats_eq hbounded hshown]
    simp only [parse_text hvalue, hnow, Option.map_some]
  | none =>
    rw [hsample] at hknown
    rcases hknown with ⟨e, hpressure⟩ | ⟨file, hfile, herror⟩
    · rw [hpressure]
      rfl
    · obtain ⟨e', hstats⟩ := Common.KsmStats.readStats_error hfile herror
      rw [hstats]
      cases files.pressure <;> rfl

/-- Over files that show what the kernel knows at each tick, or of which one cannot be read, the governor
does what it does on the kernel's readings alone, and a tick that cannot read does nothing. -/
theorem runFiles_shown {value : Nat → K}
    (hvalue : ∀ n, parseAverage (showHundredths n) = some (value n)) (tier : GovernorTier K D)
    {files : List (TickFiles ε)} {samples : List Sample}
    (h : List.Forall₂ (fun files sample => sample.ShownBy files) files samples) :
    tier.runFiles fs parseAverage files = tier.runTicks fs (samples.filterMap (Sample.tick value)) := by
  rw [runFiles_eq]
  congr 1
  induction h with
  | nil => rfl
  | cons hshown _ ih => rw [List.filterMap_cons, List.filterMap_cons, ih, readings_eq hvalue hshown]

/-- A report of critical pressure. -/
def criticalReport : PsiReport := ⟨⟨8000, 6000, 3000, 352754638⟩, ⟨6000, 4500, 2025, 241562312⟩⟩

/-- Statistics of a system that shares pages at a loss. -/
def sharingAtLoss : Common.KsmStats := ⟨120, 4096, 7, 0, 90000, 12, 3, -65536, 0, 0, 0⟩

theorem bounded_sharingAtLoss : sharingAtLoss.Bounded where
  count file := by cases file <;> decide
  profit := by decide

/-- Two ticks, of which the first cannot read the pressure file. -/
def criticalFiles : List (TickFiles Unit) :=
  [⟨fromSecs 1, .error (), sharingAtLoss.toFiles⟩,
    ⟨fromSecs 2, .ok criticalReport.text, sharingAtLoss.toFiles⟩]

theorem runFiles_shown_critical :
    undamped.runFiles runFile parseExact criticalFiles = undamped.runTicks runFile
      [⟨fromSecs 2, criticalReport.stats fun n => n / 100, .ofSysfs sharingAtLoss⟩] :=
  have hshown : List.Forall₂ (fun (files : TickFiles Unit) (sample : Sample) => sample.ShownBy files)
      criticalFiles [⟨fromSecs 1, none⟩, ⟨fromSecs 2, some (criticalReport, sharingAtLoss)⟩] :=
    .cons ⟨rfl, .inl ⟨(), rfl⟩⟩
      (.cons ⟨rfl, rfl, bounded_sharingAtLoss, sharingAtLoss.shownIn_toFiles⟩ .nil)
  runFiles_shown parseExact_showHundredths undamped hshown

end GovernorTier

end Animaksm.Daemon

import Animaksm.Daemon.Release
import Animaksm.Daemon.Tasks

/-!
# The tasks do not starve each other

Each task sees its own part of the system, and the steps of the other leave that
part alone; what a task does is determined by what it sees. A scan cycle that marked
something holds back the next one that goes ahead by the stabilization window.
-/

namespace Animaksm.Daemon

open Animaksm.Common

/-- A step of the governor task. -/
def Action.OfGovernor {K : Type} : Action K → Prop
  | .governor _ => True
  | .scanner _ => False

/-- A step of the scanner task. -/
def Action.OfScanner {K : Type} : Action K → Prop
  | .governor _ => False
  | .scanner _ => True

instance {K : Type} : DecidablePred (Action.OfGovernor (K := K))
  | .governor _ => isTrue trivial
  | .scanner _ => isFalse id

instance {K : Type} : DecidablePred (Action.OfScanner (K := K))
  | .governor _ => isFalse id
  | .scanner _ => isTrue trivial

/-- What the governor task sees, but for the directory and its controller. -/
structure GovernorView (K : Type) where
  governor : KsmController → Governor K
  stage : GovernorStage K
  fields : GovernorFields
  decisions : List Decision
  history : List (Nat × GovernorFields)

/-- What the scanner task sees. -/
structure ScannerView (W : Type) where
  scanner : Scanner
  stage : ScannerStage
  lastScannerAction : Instant
  world : W
  events : List ScannerEvent

namespace System

variable {ε ε' E K D D' W W' : Type}

def governorView (s : System K D W) : GovernorView K :=
  ⟨s.governor.withKsm, s.governorStage, s.state.governorFields, s.decisions, s.history⟩

def scannerView (s : System K D W) : ScannerView W :=
  ⟨s.scanner, s.scannerStage, s.state.lastScannerAction, s.world, s.events⟩

/-! ## The governor's part -/

/-- The scanner leaves the governor's part alone. -/
theorem scannerStep_governorView (H : Host E W) (s : System K D W) (action : ScannerAction) :
    (s.scannerStep H action).governorView = s.governorView := by
  cases action with
  | cycle cycle =>
    rw [scannerStep]
    split
    · split
      · rfl
      · dsimp only
        split
        · rfl
        · rfl
    · rfl
  | step now =>
    rw [scannerStep]
    split
    · rfl
    · rfl
  | stop now =>
    rw [scannerStep]
    split
    · rfl
    · rfl

/-- Taking a decision depends on the governor's part only. -/
theorem decide_governorView {s : System K D W} {t : System K D' W'}
    (h : s.governorView = t.governorView) (path : Path) (tick : Tick K) (pressure : PressureLevel)
    (decision : Decision) : (s.decide path tick pressure decision).governorView =
      (t.decide path tick pressure decision).governorView := by
  have hskip := congrArg (fun v : GovernorView K => { v with
    stage := path.next tick pressure, decisions := v.decisions ++ [decision] }) h
  cases decision with
  | keep => exact hskip
  | defer level => exact hskip
  | apply level =>
    unfold decide
    dsimp only
    cases profiles[level]? with
    | none =>
      exact congrArg (fun v : GovernorView K => { v with
        stage := .panicked (.indexOutOfBounds level profiles.length)
        decisions := v.decisions ++ [Decision.apply level] }) h
    | some profile =>
      exact congrArg (fun v : GovernorView K => { v with
        stage := .applying path tick pressure level
          (profile.writes (v.governor ⟨0, false⟩).config.useAdvisor)
        decisions := v.decisions ++ [Decision.apply level] }) h

/-- A step of the governor depends on the governor's part only, not on the outcome of its
writes. -/
theorem governorStep_governorView [Average K] (fs : Sysfs ε D) (fs' : Sysfs ε' D')
    {s : System K D W} {t : System K D' W'} (h : s.governorView = t.governorView)
    (action : GovernorAction K) :
    (s.governorStep fs action).governorView = (t.governorStep fs' action).governorView := by
  have hgov : t.governor = s.governor.withKsm t.governor.ksm :=
    (congrArg (fun v => v.governor t.governor.ksm) h).symm
  have hstage : s.governorStage = t.governorStage := congrArg GovernorView.stage h
  have hlast : s.state.lastGovernorAction = t.state.lastGovernorAction :=
    congrArg (fun v => v.fields.lastGovernorAction) h
  have hset : ∀ stage : GovernorStage K, ({ s with governorStage := stage }).governorView =
      ({ t with governorStage := stage }).governorView := fun stage =>
    congrArg (fun v : GovernorView K => { v with stage := stage }) h
  cases action with
  | tick tick =>
    rw [governorStep, governorStep, hstage]
    cases t.governorStage with
    | idle =>
      have hpropose : t.governor.propose tick.now tick.psi =
          (s.governor.propose tick.now tick.psi).map fun r => (r.1, r.2.withKsm t.governor.ksm) := by
        rw [← Governor.propose_withKsm, ← hgov]
      have hpressure : t.governor.pressure tick.psi = s.governor.pressure tick.psi := by
        rw [hgov]
        rfl
      dsimp only
      rw [hpropose, hpressure, ← hlast]
      cases s.governor.propose tick.now tick.psi with
      | error panic => exact hset (.panicked panic)
      | ok proposed =>
        refine decide_governorView ?_ .transition tick _ _
        exact congrArg (fun v : GovernorView K => { v with
          governor := proposed.2.withKsm, stage := .idle }) h
    | _ => exact h
  | step now =>
    rw [governorStep, governorStep, hstage]
    cases t.governorStage with
    | starting pending =>
      cases pending with
      | nil => exact hset .idle
      | cons w pending => exact hset (.starting pending)
    | applying path tick pressure level pending =>
      cases pending with
      | nil =>
        exact congrArg (fun v : GovernorView K => { v with
          governor := fun ksm => { v.governor ksm with currentLevel := level }
          stage := path.next tick pressure
          fields := { v.fields with lastGovernorAction := now }
          history := v.history ++ [(level, { v.fields with lastGovernorAction := now })] }) h
      | cons w pending => exact hset (.applying path tick pressure level pending)
    | monitoring tick pressure =>
      have hmonitor : t.governor.monitor tick.ksmStats = s.governor.monitor tick.ksmStats := by
        rw [hgov]
        rfl
      dsimp only
      rw [hmonitor]
      cases s.governor.monitor tick.ksmStats with
      | error panic => exact hset (.panicked panic)
      | ok decision => exact decide_governorView h .backOff tick pressure decision
    | publishing tick pressure =>
      let fields (v : GovernorView K) : GovernorFields := { v.fields with
        currentPressure := pressure
        ksmLevel := (v.governor ⟨0, false⟩).currentLevel
        pagesSharing := tick.ksmStats.pagesSharing
        generalProfit := tick.ksmStats.generalProfit
        lastAdjustment := now }
      exact congrArg (fun v : GovernorView K => { v with
        stage := .idle
        fields := fields v
        history := v.history ++ [((v.governor ⟨0, false⟩).currentLevel, fields v)] }) h
    | _ => exact h
  | stop now =>
    rw [governorStep, governorStep, hstage]
    cases t.governorStage with
    | idle => exact hset .stopped
    | _ => exact h

/-! ## The scanner's part -/

theorem decide_scannerView (s : System K D W) (path : Path) (tick : Tick K)
    (pressure : PressureLevel) (decision : Decision) :
    (s.decide path tick pressure decision).scannerView = s.scannerView := by
  cases decision with
  | keep => rfl
  | defer level => rfl
  | apply level =>
    unfold decide
    dsimp only
    split
    · rfl
    · rfl

/-- The governor leaves the scanner's part alone. -/
theorem governorStep_scannerView [Average K] (fs : Sysfs ε D) (s : System K D W)
    (action : GovernorAction K) : (s.governorStep fs action).scannerView = s.scannerView := by
  cases action with
  | tick tick =>
    rw [governorStep]
    split
    · split
      · rfl
      · exact decide_scannerView _ _ _ _ _
    · rfl
  | step now =>
    rw [governorStep]
    split
    · rfl
    · rfl
    · rfl
    · rfl
    · split
      · rfl
      · exact decide_scannerView _ _ _ _ _
    · rfl
    · rfl
  | stop now =>
    rw [governorStep]
    split
    · rfl
    · rfl

/-- A step of the scanner depends on the scanner's part only. -/
theorem scannerStep_scannerView (H : Host E W) {s : System K D W} {t : System K D' W}
    (h : s.scannerView = t.scannerView) (action : ScannerAction) :
    (s.scannerStep H action).scannerView = (t.scannerStep H action).scannerView := by
  have hscanner : s.scanner = t.scanner := congrArg ScannerView.scanner h
  have hstage : s.scannerStage = t.scannerStage := congrArg ScannerView.stage h
  have hlast : s.state.lastScannerAction = t.state.lastScannerAction :=
    congrArg ScannerView.lastScannerAction h
  have hworld : s.world = t.world := congrArg ScannerView.world h
  have hevents : s.events = t.events := congrArg ScannerView.events h
  cases action with
  | cycle cycle =>
    rw [scannerStep, scannerStep, hscanner, hstage, hlast, hworld, hevents]
    cases t.scannerStage with
    | idle =>
      dsimp only
      split
      · simp only [scannerView, hlast]
      · split
        · simp only [scannerView, hlast]
        · simp only [scannerView, hlast]
    | _ => exact h
  | step now =>
    rw [scannerStep, scannerStep, hscanner, hstage, hevents]
    cases t.scannerStage with
    | stamping =>
      simp only [scannerView, hworld]
      rfl
    | _ => exact h
  | stop now =>
    rw [scannerStep, scannerStep, hstage]
    cases t.scannerStage with
    | idle => exact congrArg (fun v : ScannerView W => { v with stage := .stopped }) h
    | _ => exact h

/-- Nothing of the other task reaches the governor. -/
theorem unwinds_governor [Average K] (fs : Sysfs ε D) (H : Host E W) :
    Run.Unwinds (step (K := K) fs H) governorView Action.OfGovernor where
  silent s
    | .governor _, h => absurd trivial h
    | .scanner action, _ => scannerStep_governorView H s action
  determined _ _
    | .governor action, _, h => governorStep_governorView fs fs h action
    | .scanner _, h, _ => h.elim

/-- Nothing of the other task reaches the scanner. -/
theorem unwinds_scanner [Average K] (fs : Sysfs ε D) (H : Host E W) :
    Run.Unwinds (step (K := K) fs H) scannerView Action.OfScanner where
  silent s
    | .governor action, _ => governorStep_scannerView fs s action
    | .scanner _, h => absurd trivial h
  determined _ _
    | .governor _, h, _ => h.elim
    | .scanner action, _, h => scannerStep_scannerView H h action

end System

/-! ## Scan cycles that mark something -/

/-- When a step is taken. -/
def Action.now {K : Type} : Action K → Instant
  | .governor (.tick tick) => tick.now
  | .governor (.step now) => now
  | .governor (.stop now) => now
  | .scanner (.cycle cycle) => cycle.now
  | .scanner (.step now) => now
  | .scanner (.stop now) => now

/-- The times of the steps do not decrease from the start on. -/
def Action.InOrder {K : Type} (now : Instant) (actions : List (Action K)) : Prop :=
  (now :: actions.map Action.now).Pairwise (· ≤ ·)

instance {K : Type} (now : Instant) (actions : List (Action K)) :
    Decidable (Action.InOrder now actions) :=
  inferInstanceAs (Decidable (List.Pairwise _ _))

namespace ScannerEvent

/-- The scanner was marking regions at this time, or had just finished to. -/
def MarkedAt : ScannerEvent → Instant → Prop
  | .deferred _, _ => False
  | .scanned now marked, t => 0 < marked ∧ t = now
  | .stamped now, t => t = now

/-- A cycle that marks regions starts at least this long after the marking before it. -/
def Apart (gap : Nat) (before after : ScannerEvent) : Prop :=
  ∀ t, before.MarkedAt t → ∀ now marked, after = .scanned now marked → 0 < marked → t + gap ≤ now

end ScannerEvent

/-- The marking of the past is spaced, and no earlier than the time stamp of an idle scanner. -/
structure Spaced (secs : Nat) (clock : Instant) {W : Type} (v : ScannerView W) : Prop where
  apart : v.events.Pairwise (ScannerEvent.Apart (fromSecs secs))
  secs_eq : v.scanner.stabilizationSecs = secs
  stamp_le : v.lastScannerAction ≤ clock
  marked_le : ∀ e ∈ v.events, ∀ t, e.MarkedAt t → t ≤ clock
  marked_le_stamp : v.stage = .idle → ∀ e ∈ v.events, ∀ t, e.MarkedAt t → t ≤ v.lastScannerAction

namespace Spaced

variable {ε E K D W : Type} {secs : Nat} {v v' : ScannerView W}

/-- Time passes. -/
theorem mono {clock now : Int} (h : Spaced secs clock v) (hle : clock ≤ now) : Spaced secs now v where
  apart := h.apart
  secs_eq := h.secs_eq
  stamp_le := h.stamp_le.trans hle
  marked_le e he t ht := (h.marked_le e he t ht).trans hle
  marked_le_stamp := h.marked_le_stamp

/-- One more event, far enough from the marking before it. -/
theorem snoc {clock now : Int} {e : ScannerEvent} (h : Spaced secs clock v) (hle : clock ≤ now)
    (hevents : v'.events = v.events ++ [e])
    (hsecs : v'.scanner.stabilizationSecs = v.scanner.stabilizationSecs)
    (hstamp : v'.lastScannerAction ≤ now) (hnow : ∀ t, e.MarkedAt t → t = now)
    (hapart : ∀ before ∈ v.events, before.Apart (fromSecs secs) e)
    (hidle : v'.stage = .idle → ∀ before ∈ v.events ++ [e], ∀ t, before.MarkedAt t →
      t ≤ v'.lastScannerAction) : Spaced secs now v' where
  apart := by
    rw [hevents, List.pairwise_append]
    refine ⟨h.apart, List.pairwise_singleton _ _, fun before hbefore after hafter => ?_⟩
    rw [List.mem_singleton.mp hafter]
    exact hapart before hbefore
  secs_eq := hsecs.trans h.secs_eq
  stamp_le := hstamp
  marked_le before hbefore t ht := by
    rw [hevents, List.mem_append, List.mem_singleton] at hbefore
    rcases hbefore with hbefore | rfl
    · exact (h.marked_le before hbefore t ht).trans hle
    · exact (hnow t ht).le
  marked_le_stamp hstage := by
    rw [hevents]
    exact hidle hstage

/-- A step of the scanner keeps the marking spaced. -/
theorem scannerStep (H : Host E W) {s : System K D W} {clock : Int} (h : Spaced secs clock s.scannerView)
    (action : ScannerAction) (hle : clock ≤ (Action.scanner (K := K) action).now) :
    Spaced secs (Action.scanner (K := K) action).now (s.scannerStep H action).scannerView := by
  have hstamp := h.stamp_le.trans hle
  cases action with
  | cycle cycle =>
    rw [System.scannerStep]
    cases hstage : s.scannerStage with
    | idle =>
      have hpast := h.marked_le_stamp hstage
      dsimp only
      split
      next hdeferred =>
        refine h.snoc hle rfl rfl hstamp (fun _ ht => ht.elim) ?_ fun _ before hbefore t ht => ?_
        · rintro before - t - now marked hafter
          cases hafter
        · rcases List.mem_append.mp hbefore with hbefore | hbefore
          · exact hpast before hbefore t ht
          · rw [List.mem_singleton.mp hbefore] at ht
            exact ht.elim
      next hdeferred =>
        have hscan := s.scanner.scan_madviseCalls H cycle s.world
        have hwindow : (s.scanner.scan H cycle s.world).1.stabilizationSecs =
            s.scanner.stabilizationSecs := by
          obtain ⟨stats, hframe⟩ := s.scanner.scan_frame H cycle s.world
          rw [hframe]
        have hgap : fromSecs secs ≤ Instant.elapsed cycle.now s.state.lastScannerAction := by
          rw [← h.secs_eq]
          exact Nat.not_lt.mp hdeferred
        have hnext := Instant.add_le_of_le_elapsed hstamp hgap
        have hapart : ∀ before ∈ s.events, before.Apart (fromSecs secs)
            (.scanned cycle.now (s.scanner.marked H cycle s.world)) := by
          rintro before hbefore t ht now marked hafter -
          cases hafter
          exact (Int.add_le_add_right (hpast before hbefore t ht) _).trans hnext
        split
        next hmarked =>
          refine h.snoc hle rfl hwindow hstamp
            (fun t ht => ht.2) hapart fun hidle => ?_
          cases hidle
        next hmarked =>
          refine h.snoc hle rfl hwindow hstamp
            (fun t ht => ht.2) hapart fun _ before hbefore t ht => ?_
          rcases List.mem_append.mp hbefore with hbefore | hbefore
          · exact hpast before hbefore t ht
          · rw [List.mem_singleton.mp hbefore] at ht
            have hpos := ht.1
            omega
    | _ => exact h.mono hle
  | step now =>
    rw [System.scannerStep]
    cases hstage : s.scannerStage with
    | stamping =>
      refine h.snoc hle rfl rfl (Int.le_refl now) (fun t ht => ht) ?_ fun _ before hbefore t ht => ?_
      · rintro before - t - now' marked hafter
        cases hafter
      · rcases List.mem_append.mp hbefore with hbefore | hbefore
        · exact (h.marked_le before hbefore t ht).trans hle
        · rw [List.mem_singleton.mp hbefore] at ht
          exact Int.le_of_eq ht
    | _ => exact h.mono hle
  | stop now =>
    have hmono := h.mono hle
    rw [System.scannerStep]
    split
    · exact { hmono with marked_le_stamp := fun hidle => ScannerStage.noConfusion hidle }
    · exact hmono

/-- Every step keeps the marking spaced. -/
theorem step [Average K] (fs : Sysfs ε D) (H : Host E W) {s : System K D W} {clock : Int}
    (h : Spaced secs clock s.scannerView) (action : Action K) (hle : clock ≤ action.now) :
    Spaced secs action.now (s.step fs H action).scannerView := by
  cases action with
  | governor action =>
    rw [System.step, System.governorStep_scannerView]
    exact h.mono hle
  | scanner action => exact h.scannerStep H action hle

/-- In a run with ordered times the marking is spaced. -/
theorem run [Average K] (fs : Sysfs ε D) (H : Host E W) {s : System K D W} {clock : Int}
    (h : Spaced secs clock s.scannerView) {actions : List (Action K)}
    (horder : Action.InOrder clock actions) :
    ∃ clock' : Int, Spaced secs clock' (Run.run (System.step fs H) s actions).scannerView := by
  induction actions generalizing s clock with
  | nil => exact ⟨clock, h⟩
  | cons action actions ih =>
    obtain ⟨hle, hrest⟩ := List.pairwise_cons.mp horder
    exact ih (h.step fs H action (hle _ List.mem_cons_self)) hrest

/-- Nothing has been marked at the start. -/
theorem start (config : GovernorConfig K) (ksm : KsmController) (scanner : ScannerConfig)
    (dryRun : Bool) (now : Int) (dir : D) (world : W) :
    Spaced config.stabilizationSecs now
      (System.start config ksm scanner dryRun now dir world).scannerView where
  apart := .nil
  secs_eq := rfl
  stamp_le := Int.le_refl now
  marked_le _ he := absurd he List.not_mem_nil
  marked_le_stamp _ _ he := absurd he List.not_mem_nil

end Spaced

namespace System

variable {ε E K D W : Type}

/-- What the scanner does, deferred or not, is a function of its own steps, what the governor
decides is a function of its own, and cycles that mark regions keep the stabilization window apart. -/
theorem tiers_independent [Average K] (fs : Sysfs ε D) (H : Host E W) (config : GovernorConfig K)
    (ksm : KsmController) (scanner : ScannerConfig) (dryRun : Bool) (now : Instant) (dir : D)
    (world : W) :
    let run := Run.run (step fs H) (start config ksm scanner dryRun now dir world)
    (∀ as bs, as.filter (·.OfScanner) = bs.filter (·.OfScanner) →
      (run as).events = (run bs).events) ∧
    (∀ as bs, as.filter (·.OfGovernor) = bs.filter (·.OfGovernor) →
      (run as).decisions = (run bs).decisions) ∧
    ∀ as, Action.InOrder now as →
      (run as).events.Pairwise (ScannerEvent.Apart (fromSecs config.stabilizationSecs)) := by
  refine ⟨fun as bs hsame => ?_, fun as bs hsame => ?_, fun as horder => ?_⟩
  · exact congrArg ScannerView.events ((unwinds_scanner fs H).view_run rfl hsame)
  · exact congrArg GovernorView.decisions ((unwinds_governor fs H).view_run rfl hsame)
  · obtain ⟨clock, hspaced⟩ := (Spaced.start config ksm scanner dryRun now dir world).run fs H horder
    exact hspaced.apart

end System

/-- One process with one region to mark. -/
def browserProcfs : Procfs where
  listPids := some [7]
  readProcessStatus pid := some ⟨pid, "browser", 262144⟩
  readKsmStat _ := none
  readProcessMaps _ := some [⟨0x7000, 0x9000, "rw-p", 0, "00:00", 0, ""⟩]
  listPids_nodup pids h := by
    cases h
    exact List.nodup_singleton 7
  readProcessStatus_pid pid status h := by
    cases h
    rfl

/-- A host on which every request succeeds, with the requests made of it. -/
def answeringHost : Host Unit (Tracee × List (PtraceCall Unit)) where
  toPtrace := Ptrace.answering (.stopped 7 .sigtrap)
  findSyscallInVdso _ _ := .ok 0x5000
  pidfdOpen _ world := (.ok 3, world)
  processMadvise _ _ _ _ world := (.ok (), world)
  close _ world := world

/-- A scan cycle over one process at this second. -/
def browserCycle {K : Type} (secs : Nat) : Action K :=
  .scanner (.cycle ⟨fromSecs secs, browserProcfs, none⟩)

namespace System

/-- The tasks with a window of 30 seconds, over a directory that keeps its run file. -/
def windowed : System ℚ String (Tracee × List (PtraceCall Unit)) :=
  start ⟨true, 5, 2, 1, 0, 30⟩ (.new 0) ⟨100, 512, [], 5⟩ false 0 "0" Ptrace.runningProcess

/-- The governor ticks while the scanner marks a region, defers a cycle and marks again. -/
def bothTasks : List (Action ℚ) :=
  [.governor (.step 0), .governor (.step 0), .governor (.step 0),
    .governor (.tick GovernorTier.criticalTick), browserCycle 31, .governor (.step (fromSecs 31)),
    .scanner (.step (fromSecs 32)), browserCycle 60, .governor (.step (fromSecs 60)),
    browserCycle 62]

theorem tiers_independent_apply :
    let run := Run.run (step GovernorTier.runFile answeringHost) windowed
    (run bothTasks).events = (run (bothTasks.filter (·.OfScanner))).events ∧
      (run bothTasks).decisions = (run (bothTasks.filter (·.OfGovernor))).decisions ∧
      (run bothTasks).events.Pairwise (ScannerEvent.Apart (fromSecs 30)) ∧
      (run bothTasks).events = [.scanned (fromSecs 31) 1, .stamped (fromSecs 32),
        .deferred (fromSecs 60), .scanned (fromSecs 62) 1] := by
  obtain ⟨hscanner, hgovernor, hapart⟩ := tiers_independent (K := ℚ) GovernorTier.runFile answeringHost
    ⟨true, 5, 2, 1, 0, 30⟩ (.new 0) ⟨100, 512, [], 5⟩ false 0 "0" Ptrace.runningProcess
  exact ⟨hscanner bothTasks _ rfl, hgovernor bothTasks _ rfl, hapart bothTasks (by decide),
    by decide +kernel⟩

end System

end Animaksm.Daemon

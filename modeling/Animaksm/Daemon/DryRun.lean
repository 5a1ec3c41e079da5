import Animaksm.Daemon.RestoreLast

/-!
# Dry runs

A dry run of the daemon writes no parameter and no file and asks nothing of the
machine, and its governor decides and publishes what a governor that does write
would: both replay the steps they are fed on a directory that ignores every write.
-/

namespace Animaksm.Daemon

open Animaksm.Common

variable {ε E K D S W : Type}

namespace Host

variable (H : Host E W)

theorem applyMergeable_dryRun (pid : UInt32) (regions : List MapsEntry) (maxBytes : UInt64)
    (world : W) : (H.applyMergeable pid regions maxBytes true world).2 = world := by
  unfold applyMergeable
  dsimp only
  split
  · rfl
  · rfl

theorem applyTargets_dryRun (maxBytes : UInt64) (targets : List (UInt32 × List MapsEntry))
    (world : W) : (H.applyTargets maxBytes true targets world).2 = world := by
  induction targets generalizing world with
  | nil => rfl
  | cons target targets ih =>
    rw [applyTargets]
    dsimp only
    rw [ih, applyMergeable_dryRun]

end Host

namespace Scanner

theorem collapse_dryRun (H : Host E W) (targets : List (UInt32 × List MapsEntry)) (world : W) :
    collapse H true targets world = (0, world) := by
  induction targets with
  | nil => rfl
  | cons target targets ih =>
    rw [collapse, if_pos rfl]
    exact ih

/-- A cycle of a dry run asks nothing of the machine. -/
theorem scan_dryRun (H : Host E W) {scanner : Scanner} (hdry : scanner.dryRun = true) (cycle : Cycle)
    (world : W) : (scanner.scan H cycle world).2 = world ∧
      (scanner.scan H cycle world).1.dryRun = true := by
  have happly := H.applyTargets_dryRun scanner.maxBytes (scanner.targets cycle.procfs).1 world
  unfold scan Host.batchApplyMergeable
  dsimp only
  rw [hdry]
  split
  · exact ⟨rfl, rfl⟩
  · split
    · rw [collapse_dryRun]
      exact ⟨happly, rfl⟩
    · exact ⟨happly, rfl⟩

end Scanner

namespace System

/-- A scanner step of a dry run asks nothing of the machine. -/
theorem scannerStep_dryRun (H : Host E W) {s : System K D W} (hdry : s.scanner.dryRun = true)
    (action : ScannerAction) : (s.scannerStep H action).world = s.world ∧
      (s.scannerStep H action).scanner.dryRun = true := by
  cases action with
  | cycle cycle =>
    obtain ⟨hworld, hscanner⟩ := Scanner.scan_dryRun H hdry cycle s.world
    rw [scannerStep]
    split
    · split
      · exact ⟨rfl, hdry⟩
      · dsimp only
        split
        · exact ⟨hworld, hscanner⟩
        · exact ⟨hworld, hscanner⟩
    · exact ⟨rfl, hdry⟩
  | step now =>
    rw [scannerStep]
    split
    · exact ⟨rfl, hdry⟩
    · exact ⟨rfl, hdry⟩
  | stop now =>
    rw [scannerStep]
    split
    · exact ⟨rfl, hdry⟩
    · exact ⟨rfl, hdry⟩

/-- Taking a decision writes nothing. -/
theorem decide_dir (s : System K D W) (path : Path) (tick : Tick K) (pressure : PressureLevel)
    (decision : Decision) : (s.decide path tick pressure decision).dir = s.dir ∧
      (s.decide path tick pressure decision).governor = s.governor := by
  cases decision with
  | keep => exact ⟨rfl, rfl⟩
  | defer level => exact ⟨rfl, rfl⟩
  | apply level =>
    unfold decide
    dsimp only
    split
    · exact ⟨rfl, rfl⟩
    · exact ⟨rfl, rfl⟩

/-- A controller that is in a dry run holds every write back. -/
theorem attempt_dryRun {ksm : KsmController} (hdry : ksm.dryRun = true) (fs : Sysfs ε D)
    (now : Instant) (w : KsmWrite) (dir : D) : ksm.attempt fs now [w] dir = dir := by
  have hnot : ¬ ksm.Passes now := fun h => Bool.false_ne_true (h.2.symm.trans hdry)
  rw [KsmController.attempt_cons, KsmController.writeParam_of_not_passes hnot,
    KsmController.attempt_nil]

/-- A governor step of a dry run writes nothing. -/
theorem governorStep_dryRun [Average K] (fs : Sysfs ε D) {s : System K D W}
    (hdry : s.governor.ksm.dryRun = true) (action : GovernorAction K) :
    (s.governorStep fs action).dir = s.dir ∧
      (s.governorStep fs action).governor.ksm.dryRun = true := by
  cases action with
  | tick tick =>
    rw [governorStep]
    split
    · obtain ⟨level, gov, hpropose, -, hunmoved⟩ := s.governor.propose_ok tick.now tick.psi
      rw [hpropose]
      obtain ⟨hdir, hgov⟩ := decide_dir ({ s with governor := gov } : System K D W) .transition tick
        (s.governor.pressure tick.psi) (gov.gate tick.now s.state.lastGovernorAction level)
      refine ⟨hdir, ?_⟩
      dsimp only
      rw [hgov, hunmoved.ksm]
      exact hdry
    · exact ⟨rfl, hdry⟩
  | step now =>
    rw [governorStep]
    split
    · exact ⟨rfl, hdry⟩
    · exact ⟨attempt_dryRun hdry fs now _ _, hdry⟩
    · exact ⟨attempt_dryRun hdry fs now _ _, hdry⟩
    · exact ⟨rfl, hdry⟩
    · split
      · exact ⟨rfl, hdry⟩
      · next decision _ =>
        obtain ⟨hdir, hgov⟩ := decide_dir s .backOff _ _ decision
        rw [hdir, hgov]
        exact ⟨rfl, hdry⟩
    · exact ⟨rfl, hdry⟩
    · exact ⟨rfl, hdry⟩
  | stop now =>
    rw [governorStep]
    split
    · exact ⟨rfl, hdry⟩
    · exact ⟨rfl, hdry⟩

end System

namespace DaemonState

/-- Nothing has been written and nothing asked of the machine, nor will it be. -/
structure Effectless (dir : D) (files : S) (world : W) (d : DaemonState K ε D S W) : Prop where
  dir_eq : d.tasks.dir = (dir, [])
  files_eq : d.files = files
  world_eq : d.tasks.world = world
  governor : d.tasks.governor.ksm.dryRun = true
  scanner : d.tasks.scanner.dryRun = true
  phase : match d.phase with
    | .saving _ | .finishing | .loading _ | .restoring _ _ => False
    | _ => True

/-- A step of a task in a dry run has no effect. -/
theorem Effectless.task [Average K] (P : Platform ε E D S W) (config : DaemonConfig K) {dir : D}
    {files : S} {world : W} {d : DaemonState K ε D S W} (h : d.Effectless dir files world)
    (action : Action K) : (d.step P config (.task action)).Effectless dir files world := by
  rw [step]
  split
  · exact h
  · cases action with
    | governor action =>
      obtain ⟨hdir, hksm⟩ := d.tasks.governorStep_dryRun P.ksmDir.toSysfs.logged h.governor action
      have hview := d.tasks.governorStep_scannerView P.ksmDir.toSysfs.logged action
      exact {
        dir_eq := hdir.trans h.dir_eq
        files_eq := h.files_eq
        world_eq := (congrArg ScannerView.world hview).trans h.world_eq
        governor := hksm
        scanner := (congrArg (fun v => v.scanner.dryRun) hview).trans h.scanner
        phase := h.phase }
    | scanner action =>
      obtain ⟨hworld, hscanner⟩ := d.tasks.scannerStep_dryRun P.host h.scanner action
      obtain ⟨hdir, hgov, -⟩ := d.tasks.scannerStep_governor P.host action
      exact {
        dir_eq := hdir.trans h.dir_eq
        files_eq := h.files_eq
        world_eq := hworld.trans h.world_eq
        governor := (congrArg (fun gov => gov.ksm.dryRun) hgov).trans h.governor
        scanner := hscanner
        phase := h.phase }

/-- A step of a dry run has no effect. -/
theorem Effectless.step [Average K] (P : Platform ε E D S W) {config : DaemonConfig K}
    (hdry : config.dryRun = true) {dir : D} {files : S} {world : W} {d : DaemonState K ε D S W}
    (h : d.Effectless dir files world) (action : DaemonAction K) :
    (d.step P config action).Effectless dir files world := by
  have hphase := h.phase
  cases action with
  | newController now found =>
    rw [DaemonState.step]
    unfold afterController
    rw [hdry]
    cases hat : d.phase with
    | starting | spawningGovernor =>
      cases found with
      | false => exact { h with phase := trivial }
      | true => exact { h with phase := trivial }
    | spawningDryGovernor =>
      cases found with
      | false => exact { h with phase := trivial }
      | true => exact { h with phase := trivial, governor := rfl }
    | finishing =>
      rw [hat] at hphase
      exact hphase.elim
    | _ => exact h
  | snapshot now timestamp =>
    rw [DaemonState.step, hdry]
    split
    · dsimp only [share]
      rw [if_pos rfl]
      refine { h with phase := ?_ }
      cases config.governorEnabled <;> trivial
    · exact h
  | save now =>
    rw [DaemonState.step]
    cases hat : d.phase with
    | saving pending =>
      rw [hat] at hphase
      exact hphase.elim
    | _ => exact h
  | spawnScanner =>
    rw [DaemonState.step]
    split
    · exact { h with phase := trivial }
    · exact h
  | signal received =>
    rw [DaemonState.step]
    split
    · cases received with
      | false => exact { h with phase := trivial }
      | true => exact { h with phase := trivial }
    · exact h
  | leaveWait =>
    rw [DaemonState.step, hdry]
    split
    · exact { h with phase := trivial }
    · exact h
  | load =>
    rw [DaemonState.step]
    cases hat : d.phase with
    | loading ksm =>
      rw [hat] at hphase
      exact hphase.elim
    | _ => exact h
  | restore now =>
    rw [DaemonState.step]
    cases hat : d.phase with
    | restoring ksm pending =>
      rw [hat] at hphase
      exact hphase.elim
    | _ => exact h
  | task action => exact h.task P config action

/-! ## What the governor decides and publishes -/

/-- A directory that ignores every write. -/
def ignoring : Sysfs Empty Unit where
  write _ _ _ := (.ok (), ())

/-- The governor alone, on a directory that ignores every write. -/
def solo (config : GovernorConfig K) (shared created : Instant) : System K Unit Unit :=
  { System.start config (.new created) ⟨0, 0, [], 0⟩ true created () () with
    state := newSharedState shared }

/-- The governor has decided and published what its steps make it decide and publish alone. -/
structure Replays [Average K] (config : DaemonConfig K) (d : DaemonState K ε D S W) : Prop where
  pristine : d.spawned = none → d.tasks.governorStage.Ended ∧ d.tasks.decisions = [] ∧
    d.tasks.history = [] ∧
    d.tasks.state.governorFields = (newSharedState d.tasks.state.lastAdjustment).governorFields
  replay : ∀ shared created, d.spawned = some (shared, created) → d.tasks.governorView =
    (Run.run (System.governorStep ignoring) (solo config.governor shared created) d.fed).governorView
  early : match d.phase with
    | .starting | .snapshotting | .saving _ | .spawningGovernor | .spawningDryGovernor =>
      d.spawned = none
    | _ => True

variable [Average K] {config : DaemonConfig K} {d d' : DaemonState K ε D S W}

/-- Only the governor's part matters. -/
theorem Replays.congr (h : d.Replays config) (hview : d'.tasks.governorView = d.tasks.governorView)
    (hspawned : d'.spawned = d.spawned) (hfed : d'.fed = d.fed)
    (hearly : match d'.phase with
      | .starting | .snapshotting | .saving _ | .spawningGovernor | .spawningDryGovernor =>
        d'.spawned = none
      | _ => True) : d'.Replays config where
  pristine hnone := by
    obtain ⟨hended, hdecisions, hhistory, hfields⟩ := h.pristine (hspawned.symm.trans hnone)
    have hstage : d'.tasks.governorStage = d.tasks.governorStage := congrArg GovernorView.stage hview
    have hsame : d'.tasks.state.governorFields = d.tasks.state.governorFields :=
      congrArg GovernorView.fields hview
    have hlast : d'.tasks.state.lastAdjustment = d.tasks.state.lastAdjustment :=
      congrArg GovernorFields.lastAdjustment hsame
    refine ⟨?_, (congrArg GovernorView.decisions hview).trans hdecisions,
      (congrArg GovernorView.history hview).trans hhistory, ?_⟩
    · rw [hstage]
      exact hended
    · rw [hsame, hlast]
      exact hfields
  replay shared created hsome := by
    rw [hview, hfed]
    exact h.replay shared created (hspawned.symm.trans hsome)
  early := hearly

/-- A step of a task keeps the replay. -/
theorem Replays.task (P : Platform ε E D S W) (h : d.Replays config) (action : Action K) :
    (d.step P config (.task action)).Replays config := by
  rw [step]
  split
  · exact h
  · cases action with
    | scanner action =>
      exact h.congr (d.tasks.scannerStep_governorView P.host action) rfl (List.append_nil _) h.early
    | governor action =>
      refine ⟨fun hnone => ?_, fun shared created hsome => ?_, h.early⟩
      · have hpristine := h.pristine hnone
        have hstep := d.tasks.governorStep_of_ended P.ksmDir.toSysfs.logged hpristine.1 action
        dsimp only [System.step]
        rw [hstep]
        exact hpristine
      · rw [show (d.fed ++ Action.ofGovernor (.governor action)) = d.fed ++ [action] from rfl,
          Run.run_append]
        exact System.governorStep_governorView P.ksmDir.toSysfs.logged ignoring
          (h.replay shared created hsome) action

/-- Spawning begins a replay. -/
theorem Replays.spawn (h : d.Replays config) (hnone : d.spawned = none) (ksm : KsmController)
    (now : Instant) : (d.spawnGovernor config ksm now).Replays config where
  pristine hno := nomatch hno
  replay shared created hsome := by
    obtain ⟨-, hdecisions, hhistory, hfields⟩ := h.pristine hnone
    cases hsome
    change GovernorView.mk _ _ d.tasks.state.governorFields d.tasks.decisions d.tasks.history = _
    rw [hdecisions, hhistory, hfields]
    rfl
  early := trivial

/-- Taking the shared state before the governor was spawned, with or without a snapshot. -/
theorem Replays.share (h : d.Replays config) (hnone : d.spawned = none) (now : Instant)
    (taken : Bool) :
    (({ d with snapshotTaken := taken } : DaemonState K ε D S W).share config now).Replays config := by
  obtain ⟨hended, hdecisions, hhistory, -⟩ := h.pristine hnone
  refine ⟨fun _ => ⟨hended, hdecisions, hhistory, rfl⟩, fun shared created hsome => ?_, ?_⟩
  · cases hnone.symm.trans hsome
  · unfold DaemonState.share
    cases config.governorEnabled with
    | false => trivial
    | true => exact hnone

/-- Every step keeps the replay. -/
theorem Replays.step (P : Platform ε E D S W) (h : d.Replays config) (action : DaemonAction K) :
    (d.step P config action).Replays config := by
  have hfinish : ∀ result, (d.finish result).Replays config := fun _ => h.congr rfl rfl rfl trivial
  have hearly := h.early
  cases action with
  | newController now found =>
    rw [DaemonState.step]
    unfold afterController
    cases hat : d.phase with
    | starting =>
      rw [hat] at hearly
      cases found with
      | false => exact hfinish _
      | true => exact h.congr rfl rfl rfl hearly
    | spawningGovernor =>
      rw [hat] at hearly
      dsimp only
      by_cases hdry : config.dryRun = true
      · rw [if_pos hdry]
        cases found with
        | false => exact hfinish _
        | true => exact h.congr rfl rfl rfl hearly
      · rw [if_neg hdry]
        cases found with
        | false => exact hfinish _
        | true => exact h.spawn hearly _ now
    | spawningDryGovernor =>
      rw [hat] at hearly
      cases found with
      | false => exact hfinish _
      | true => exact h.spawn hearly _ now
    | finishing =>
      cases found with
      | false => exact hfinish _
      | true => exact h.congr rfl rfl rfl trivial
    | _ => exact h
  | snapshot now timestamp =>
    rw [DaemonState.step]
    split
    next hat =>
      rw [hat] at hearly
      split
      · exact h.share hearly now d.snapshotTaken
      · split
        · exact hfinish _
        · exact h.congr rfl rfl rfl hearly
    next => exact h
  | save now =>
    rw [DaemonState.step]
    split
    next hat =>
      rw [hat] at hearly
      exact h.share hearly now true
    next hat =>
      rw [hat] at hearly
      split
      · exact h.congr rfl rfl rfl trivial
      · exact h.congr rfl rfl rfl hearly
    next => exact h
  | spawnScanner =>
    rw [DaemonState.step]
    split
    · exact h.congr rfl rfl rfl trivial
    · exact h
  | signal received =>
    rw [DaemonState.step]
    split
    · cases received with
      | false => exact hfinish _
      | true => exact h.congr rfl rfl rfl trivial
    · exact h
  | leaveWait =>
    rw [DaemonState.step]
    split
    · split
      · exact hfinish _
      · exact h.congr rfl rfl rfl trivial
    · exact h
  | load =>
    rw [DaemonState.step]
    split
    · split
      · exact h.congr rfl rfl rfl trivial
      · exact hfinish _
    · exact h
  | restore now =>
    rw [DaemonState.step]
    split
    · exact hfinish _
    · split
      · exact h.congr rfl rfl rfl trivial
      · exact h.congr rfl rfl rfl trivial
    · exact h
  | task action => exact h.task P action

/-- The replay of a whole run. -/
theorem Replays.run (P : Platform ε E D S W) (config : DaemonConfig K) (now : Instant) (dir : D)
    (files : S) (world : W) (actions : List (DaemonAction K)) :
    (Run.run (DaemonState.step P config) (start config now dir files world) actions).Replays
      config := by
  have hstart : (start (ε := ε) config now dir files world).Replays config :=
    ⟨fun _ => ⟨trivial, rfl, rfl, rfl⟩, nofun, rfl⟩
  exact Run.run_invariant (fun _ action h => h.step P action) hstart actions

/-- A dry run has no effect, and its levels and the governor's shared fields are in order those of
any run that writes and is fed the same steps from the same times on. -/
theorem dryRun_faithful (P : Platform ε E D S W) (config : DaemonConfig K)
    (hdry : config.dryRun = true) (now : Instant) (dir : D) (files : S) (world : W)
    (actions : List (DaemonAction K)) :
    let d := Run.run (DaemonState.step P config) (start config now dir files world) actions
    (d.tasks.dir = (dir, []) ∧ d.files = files ∧ d.tasks.world = world) ∧
      ∀ (ε' E' D' S' W' : Type) (P' : Platform ε' E' D' S' W') (now' : Instant) (dir' : D')
        (files' : S') (world' : W') (actions' : List (DaemonAction K)),
        let d' := Run.run (DaemonState.step P' { config with dryRun := false })
          (start { config with dryRun := false } now' dir' files' world') actions'
        d'.spawned = d.spawned → d'.fed = d.fed →
          d'.tasks.history = d.tasks.history ∧ d'.tasks.decisions = d.tasks.decisions := by
  intro d
  have heffectless : d.Effectless dir files world := by
    have hstart : (start (ε := ε) config now dir files world).Effectless dir files world :=
      ⟨rfl, rfl, rfl, hdry, hdry, trivial⟩
    exact Run.run_invariant (fun _ action h => h.step P hdry action) hstart actions
  refine ⟨⟨heffectless.dir_eq, heffectless.files_eq, heffectless.world_eq⟩, ?_⟩
  intro ε' E' D' S' W' P' now' dir' files' world' actions' d' hspawned hfed
  have h : d.Replays config := .run P config now dir files world actions
  have h' : d'.Replays { config with dryRun := false } := .run P' _ now' dir' files' world' actions'
  cases hat : d.spawned with
  | none =>
    obtain ⟨-, hdecisions, hhistory, -⟩ := h.pristine hat
    obtain ⟨-, hdecisions', hhistory', -⟩ := h'.pristine (hspawned.trans hat)
    exact ⟨hhistory'.trans hhistory.symm, hdecisions'.trans hdecisions.symm⟩
  | some times =>
    have hview := h.replay times.1 times.2 hat
    have hview' := h'.replay times.1 times.2 (hspawned.trans hat)
    rw [hfed] at hview'
    have hsame := hview'.trans hview.symm
    exact ⟨congrArg GovernorView.history hsame, congrArg GovernorView.decisions hsame⟩

/-- The main task up to the wait for the signal, in a dry run. -/
def drySpawning : List (DaemonAction ℚ) :=
  [.newController 0 true, .snapshot 0 "1700000000", .newController 0 true, .newController 0 true,
    .spawnScanner]

/-- A dry run next to a scan cycle. -/
def raisedDry : List (DaemonAction ℚ) :=
  drySpawning ++ [.task (browserCycle 31)] ++ raising.map fun action => .task (.governor action)

/-- Both runs raise the level to 5, and the dry one writes and marks nothing. -/
theorem dryRun_faithful_apply :
    (runDaemon true raisedDry).tasks.dir = (safeState, []) ∧
      (runDaemon true raisedDry).tasks.world = Ptrace.runningProcess ∧
      (runDaemon false raisedLive).tasks.history = (runDaemon true raisedDry).tasks.history ∧
      (runDaemon true raisedDry).tasks.decisions = [.apply 5, .keep] ∧
      (runDaemon false raisedLive).tasks.dir.2.length = 5 := by
  obtain ⟨⟨hdir, -, hworld⟩, hsame⟩ := dryRun_faithful answeringPlatform (bothTiers true) rfl 0 safeState
    (fun _ => none) Ptrace.runningProcess raisedDry
  have hspawned : (runDaemon false raisedLive).spawned = (runDaemon true raisedDry).spawned := by
    decide +kernel
  have hfed : (runDaemon false raisedLive).fed = (runDaemon true raisedDry).fed := by
    decide +kernel
  obtain ⟨hhistory, -⟩ := hsame _ _ _ _ _ answeringPlatform 0 safeState (fun _ => none)
    Ptrace.runningProcess raisedLive hspawned hfed
  exact ⟨hdir, hworld, hhistory, by decide +kernel, by decide +kernel⟩

end DaemonState

end Animaksm.Daemon

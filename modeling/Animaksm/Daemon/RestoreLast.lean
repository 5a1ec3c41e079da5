import Animaksm.Common.Restore
import Animaksm.Daemon.Lifecycle

/-!
# Restore is the last writer

When every controller after the snapshot can be made, the shutdown signal arrives and
the bounded wait lasts until the governor has ended, the daemon does not return
without restore and the governor writes nothing once restore has started. Each of
the failures left out breaks this.
-/

namespace Animaksm.Daemon

open Animaksm.Common

namespace System

variable {ε E K D W : Type}

/-- A governor that does not run does nothing. -/
theorem governorStep_of_ended [Average K] (fs : Sysfs ε D) {s : System K D W}
    (h : s.governorStage.Ended) (action : GovernorAction K) : s.governorStep fs action = s := by
  cases hstage : s.governorStage with
  | stopped =>
    cases action <;> simp only [governorStep, hstage]
  | panicked panic =>
    cases action <;> simp only [governorStep, hstage]
  | _ =>
    rw [hstage] at h
    exact h.elim

/-- The scanner neither writes to the KSM directory nor replaces the governor. -/
theorem scannerStep_governor (H : Host E W) (s : System K D W) (action : ScannerAction) :
    (s.scannerStep H action).dir = s.dir ∧ (s.scannerStep H action).governor = s.governor ∧
      (s.scannerStep H action).governorStage = s.governorStage := by
  cases action with
  | cycle cycle =>
    rw [scannerStep]
    split
    · split
      · exact ⟨rfl, rfl, rfl⟩
      · dsimp only
        split
        · exact ⟨rfl, rfl, rfl⟩
        · exact ⟨rfl, rfl, rfl⟩
    · exact ⟨rfl, rfl, rfl⟩
  | step now =>
    rw [scannerStep]
    split
    · exact ⟨rfl, rfl, rfl⟩
    · exact ⟨rfl, rfl, rfl⟩
  | stop now =>
    rw [scannerStep]
    split
    · exact ⟨rfl, rfl, rfl⟩
    · exact ⟨rfl, rfl, rfl⟩

/-- Without a running governor no task writes to the KSM directory. -/
theorem step_of_ended [Average K] (fs : Sysfs ε D) (H : Host E W) {s : System K D W}
    (h : s.governorStage.Ended) (action : Action K) :
    (s.step fs H action).dir = s.dir ∧ (s.step fs H action).governorStage.Ended := by
  cases action with
  | governor action =>
    rw [step, governorStep_of_ended fs h]
    exact ⟨rfl, h⟩
  | scanner action =>
    obtain ⟨hdir, -, hstage⟩ := s.scannerStep_governor H action
    rw [step, hdir, hstage]
    exact ⟨rfl, h⟩

end System

namespace DaemonState

variable {ε E K D S W : Type}

/-- After a snapshot the daemon has returned only with restore started, and the governor has made
no write since. -/
def RestoreLast (d : DaemonState K ε D S W) : Prop :=
  (d.snapshotTaken = true → d.result ≠ none → d.restoreStarted ≠ none) ∧
    ∀ writes, d.restoreStarted = some writes → d.tasks.dir.2 = writes

instance [DecidableEq ε] (d : DaemonState K ε D S W) : Decidable d.RestoreLast :=
  inferInstanceAs (Decidable (_ ∧ _))

/-- No failure after the snapshot: controllers can be made, the signal arrives, and the bounded
wait is left only when the governor does not run. -/
def Orderly (d : DaemonState K ε D S W) : DaemonAction K → Prop
  | .newController _ found =>
    d.phase = .spawningGovernor ∨ d.phase = .spawningDryGovernor ∨ d.phase = .finishing → found = true
  | .signal received => d.phase = .awaitingSignal → received = true
  | .leaveWait => d.phase = .waiting → d.tasks.governorStage.Ended
  | _ => True

instance [DecidableEq ε] (d : DaemonState K ε D S W) : DecidablePred d.Orderly
  | .newController _ _ => inferInstanceAs (Decidable (_ → _))
  | .signal _ => inferInstanceAs (Decidable (_ → _))
  | .leaveWait => inferInstanceAs (Decidable (_ → _))
  | .snapshot _ _ => isTrue trivial
  | .save _ => isTrue trivial
  | .spawnScanner => isTrue trivial
  | .load => isTrue trivial
  | .restore _ => isTrue trivial
  | .task _ => isTrue trivial

/-- Restore has started, the governor does not run and has made no write since. -/
structure Restored (d : DaemonState K ε D S W) : Prop where
  started : d.restoreStarted = some d.tasks.dir.2
  ended : d.tasks.governorStage.Ended

/-- What the main task has reached, by where it stands. -/
def Guarded (d : DaemonState K ε D S W) : Prop :=
  match d.phase with
  | .starting | .snapshotting | .saving _ => d.snapshotTaken = false ∧ d.restoreStarted = none
  | .spawningGovernor | .spawningDryGovernor | .spawningScanner | .awaitingSignal | .waiting =>
    d.restoreStarted = none
  | .finishing => d.restoreStarted = none ∧ d.tasks.governorStage.Ended
  | .loading _ | .restoring _ _ => d.Restored
  | .returned _ => (d.snapshotTaken = false ∧ d.restoreStarted = none) ∨ d.Restored

theorem Guarded.restoreLast {d : DaemonState K ε D S W} (h : d.Guarded) : d.RestoreLast := by
  have hnone : d.restoreStarted = none → ∀ writes, d.restoreStarted = some writes →
      d.tasks.dir.2 = writes := fun hnone writes hsome => nomatch hnone.symm.trans hsome
  have hrestored : d.Restored → ∀ writes, d.restoreStarted = some writes →
      d.tasks.dir.2 = writes := fun hr writes hsome => Option.some.inj (hr.started.symm.trans hsome)
  unfold Guarded at h
  unfold RestoreLast result
  cases hphase : d.phase with
  | starting | snapshotting | saving =>
    rw [hphase] at h
    exact ⟨fun _ hno => absurd rfl hno, hnone h.2⟩
  | spawningGovernor | spawningDryGovernor | spawningScanner | awaitingSignal | waiting =>
    rw [hphase] at h
    exact ⟨fun _ hno => absurd rfl hno, hnone h⟩
  | finishing =>
    rw [hphase] at h
    exact ⟨fun _ hno => absurd rfl hno, hnone h.1⟩
  | loading | restoring =>
    rw [hphase] at h
    exact ⟨fun _ hno => absurd rfl hno, hrestored h⟩
  | returned result =>
    rw [hphase] at h
    rcases h with ⟨hnot, hstarted⟩ | h
    · exact ⟨fun htaken _ => absurd (hnot.symm.trans htaken) Bool.false_ne_true, hnone hstarted⟩
    · exact ⟨fun _ _ hno => Option.some_ne_none _ (h.started.symm.trans hno), hrestored h⟩

/-- A step of a task keeps what the main task has reached. -/
theorem Guarded.task [Average K] (P : Platform ε E D S W) (config : DaemonConfig K)
    {d : DaemonState K ε D S W} (h : d.Guarded) (action : Action K) :
    (d.step P config (.task action)).Guarded := by
  have hrestored : d.Restored → ({ d with
      tasks := d.tasks.step P.ksmDir.toSysfs.logged P.host action }).Restored := fun hr => by
    obtain ⟨hdir, hended⟩ := d.tasks.step_of_ended P.ksmDir.toSysfs.logged P.host hr.ended action
    refine ⟨?_, hended⟩
    rw [hr.started, hdir]
  rw [step]
  split
  · exact h
  · unfold Guarded at h ⊢
    dsimp only
    cases hphase : d.phase with
    | starting | snapshotting | saving | spawningGovernor | spawningDryGovernor | spawningScanner
    | awaitingSignal | waiting =>
      rw [hphase] at h
      exact h
    | finishing =>
      rw [hphase] at h
      exact ⟨h.1, (d.tasks.step_of_ended P.ksmDir.toSysfs.logged P.host h.2 action).2⟩
    | loading | restoring =>
      rw [hphase] at h
      exact ⟨(hrestored h).started, (hrestored h).ended⟩
    | returned result =>
      rw [hphase] at h
      exact h.imp_right fun hr => ⟨(hrestored hr).started, (hrestored hr).ended⟩

/-- Making a controller spawns the governor or starts restore. -/
theorem Guarded.newController [Average K] (P : Platform ε E D S W) {config : DaemonConfig K}
    (hdry : config.dryRun = false) {d : DaemonState K ε D S W} (h : d.Guarded) {now : Instant}
    {found : Bool} (horderly : d.Orderly (.newController now found)) :
    (d.step P config (.newController now found)).Guarded := by
  have h' := h
  unfold Guarded at h'
  rw [DaemonState.step]
  unfold afterController
  cases hphase : d.phase with
  | starting =>
    rw [hphase] at h'
    cases found with
    | false => exact .inl h'
    | true => exact h'
  | spawningGovernor =>
    rw [hphase] at h'
    cases horderly (.inl hphase)
    rw [hdry]
    exact h'
  | spawningDryGovernor =>
    rw [hphase] at h'
    cases horderly (.inr (.inl hphase))
    exact h'
  | finishing =>
    rw [hphase] at h'
    cases horderly (.inr (.inr hphase))
    exact ⟨rfl, h'.2⟩
  | _ => exact h

/-- The file operations of the snapshot come before restore. -/
theorem Guarded.save [Average K] (P : Platform ε E D S W) (config : DaemonConfig K)
    {d : DaemonState K ε D S W} (h : d.Guarded) (now : Instant) :
    (d.step P config (.save now)).Guarded := by
  have h' := h
  unfold Guarded at h'
  rw [DaemonState.step]
  cases hphase : d.phase with
  | saving pending =>
    rw [hphase] at h'
    cases pending with
    | nil =>
      unfold share
      cases config.governorEnabled with
      | false => exact h'.2
      | true => exact h'.2
    | cons op pending =>
      dsimp only
      split
      · exact .inl h'
      · exact h'
  | _ => exact h

/-- The writes of restore come after its start. -/
theorem Guarded.restore [Average K] (P : Platform ε E D S W) (config : DaemonConfig K)
    {d : DaemonState K ε D S W} (h : d.Guarded) (now : Instant) :
    (d.step P config (.restore now)).Guarded := by
  have h' := h
  unfold Guarded at h'
  rw [DaemonState.step]
  cases hphase : d.phase with
  | restoring ksm pending =>
    rw [hphase] at h'
    cases pending with
    | nil => exact .inr ⟨h'.started, h'.ended⟩
    | cons w pending =>
      dsimp only
      split
      · exact .inr ⟨h'.started, h'.ended⟩
      · exact ⟨h'.started, h'.ended⟩
  | _ => exact h

/-- An orderly step keeps what the main task has reached. -/
theorem Guarded.step [Average K] (P : Platform ε E D S W) {config : DaemonConfig K}
    (hdry : config.dryRun = false) {d : DaemonState K ε D S W} (h : d.Guarded) {action : DaemonAction K}
    (horderly : d.Orderly action) : (d.step P config action).Guarded := by
  have hdry' : ¬ config.dryRun = true := by
    rw [hdry]
    exact Bool.false_ne_true
  have h' := h
  unfold Guarded at h'
  unfold Orderly at horderly
  cases action with
  | newController now found => exact h.newController P hdry horderly
  | snapshot now timestamp =>
    rw [DaemonState.step]
    cases hphase : d.phase with
    | snapshotting =>
      rw [hphase] at h'
      dsimp only
      rw [if_neg hdry']
      split
      · exact .inl h'
      · exact h'
    | _ => exact h
  | save now => exact h.save P config now
  | spawnScanner =>
    rw [DaemonState.step]
    cases hphase : d.phase with
    | spawningScanner =>
      rw [hphase] at h'
      exact h'
    | _ => exact h
  | signal received =>
    rw [DaemonState.step]
    cases hphase : d.phase with
    | awaitingSignal =>
      rw [hphase] at h'
      cases horderly hphase
      exact h'
    | _ => exact h
  | leaveWait =>
    rw [DaemonState.step]
    cases hphase : d.phase with
    | waiting =>
      rw [hphase] at h'
      rw [hdry]
      exact ⟨h', horderly hphase⟩
    | _ => exact h
  | load =>
    rw [DaemonState.step]
    cases hphase : d.phase with
    | loading ksm =>
      rw [hphase] at h'
      dsimp only
      split
      · exact ⟨h'.started, h'.ended⟩
      · exact .inr ⟨h'.started, h'.ended⟩
    | _ => exact h
  | restore now => exact h.restore P config now
  | task action => exact h.task P config action

/-- In every orderly run restore is the last writer. -/
theorem restoreLast_of_orderly [Average K] (P : Platform ε E D S W) {config : DaemonConfig K}
    (hdry : config.dryRun = false) (now : Instant) (dir : D) (files : S) (world : W)
    {actions : List (DaemonAction K)}
    (horderly : Run.Along (DaemonState.step P config) Orderly (start config now dir files world) actions) :
    (Run.run (DaemonState.step P config) (start config now dir files world) actions).RestoreLast :=
  Guarded.restoreLast (horderly.invariant (fun _ _ h => h.step P hdry) ⟨rfl, rfl⟩)

/-- A failure after the snapshot returns without restore. -/
theorem returns_unrestored [Average K] (P : Platform ε E D S W) (config : DaemonConfig K)
    {d : DaemonState K ε D S W} (htaken : d.snapshotTaken = true) (hnone : d.restoreStarted = none)
    {action : DaemonAction K} (hfails : ¬ d.Orderly action) (hwait : d.phase ≠ .waiting) :
    ¬ (d.step P config action).RestoreLast := by
  have hfinish : ∀ error, ¬ (d.finish (.error error)).RestoreLast := fun error h =>
    h.1 htaken (Option.some_ne_none _) hnone
  unfold Orderly at hfails
  cases action with
  | newController now found =>
    obtain ⟨hphase, hfound⟩ := Classical.not_imp.mp hfails
    rw [Bool.not_eq_true] at hfound
    subst hfound
    rw [DaemonState.step]
    unfold afterController
    rcases hphase with hphase | hphase | hphase
    · rw [hphase]
      cases config.dryRun with
      | false => exact hfinish _
      | true => exact hfinish _
    · rw [hphase]
      exact hfinish _
    · rw [hphase]
      exact hfinish _
  | signal received =>
    obtain ⟨hphase, hreceived⟩ := Classical.not_imp.mp hfails
    rw [Bool.not_eq_true] at hreceived
    subst hreceived
    rw [DaemonState.step, hphase]
    exact hfinish _
  | leaveWait => exact absurd (Classical.not_imp.mp hfails).1 hwait
  | _ => exact absurd trivial hfails

/-- A governor in the middle of its writes when restore starts writes on. -/
theorem writes_after_restore [Average K] (P : Platform ε E D S W) (config : DaemonConfig K)
    {d : DaemonState K ε D S W} (hstarted : d.restoreStarted = some d.tasks.dir.2) {w : KsmWrite}
    {pending : List KsmWrite} (hpending : d.tasks.governorStage = .starting (w :: pending) ∨
      ∃ path tick pressure level,
        d.tasks.governorStage = .applying path tick pressure level (w :: pending))
    {now : Instant} (hpasses : d.tasks.governor.ksm.Passes now) :
    ¬ (d.step P config (.task (.governor (.step now)))).RestoreLast := by
  have hattempt : (d.tasks.governor.ksm.attempt P.ksmDir.toSysfs.logged now [w] d.tasks.dir).2 =
      d.tasks.dir.2 ++ [w] := by
    rw [KsmController.attempt_cons, KsmController.attempt_nil,
      KsmController.writeParam_of_passes hpasses]
    rfl
  have hdir : (d.tasks.governorStep P.ksmDir.toSysfs.logged (.step now)).dir.2 =
      d.tasks.dir.2 ++ [w] := by
    rw [System.governorStep]
    rcases hpending with hstage | ⟨path, tick, pressure, level, hstage⟩
    · rw [hstage]
      exact hattempt
    · rw [hstage]
      exact hattempt
  rw [DaemonState.step, if_neg fun h => h.1]
  intro h
  exact List.cons_ne_nil w [] (List.append_right_eq_self.mp (hdir.symm.trans (h.2 _ hstarted)))

/-- The kernel's directory, files in memory and a host that answers every request. -/
def answeringPlatform : Platform Unit Unit KernelState (String → Option String)
    (Tracee × List (PtraceCall Unit)) :=
  ⟨kernelDir, memoryFiles, serdeOf (snapshotOf safeState), answeringHost⟩

/-- Both tiers, with the advisor. -/
def bothTiers (dryRun : Bool) : DaemonConfig ℚ :=
  ⟨true, ⟨true, 5, 2, 1, 0, 30⟩, true, ⟨100, 512, [], 5⟩, dryRun⟩

/-- A run of the daemon with both tiers. -/
def runDaemon (dryRun : Bool) (actions : List (DaemonAction ℚ)) :
    DaemonState ℚ Unit KernelState (String → Option String) (Tracee × List (PtraceCall Unit)) :=
  Run.run (step answeringPlatform (bothTiers dryRun))
    (start (bothTiers dryRun) 0 safeState (fun _ => none) Ptrace.runningProcess) actions

/-- The main task up to the end of the snapshot. -/
def saved : List (DaemonAction ℚ) :=
  [.newController 0 true, .snapshot 0 "1700000000", .save 0, .save 0, .save 0, .save 0]

/-- The main task up to the wait for the signal. -/
def spawning : List (DaemonAction ℚ) :=
  saved ++ [.newController 0 true, .spawnScanner]

/-- The governor starts up and raises the level after its window. -/
def raising : List (GovernorAction ℚ) :=
  [.step 0, .step 0, .step 0, .tick { GovernorTier.criticalTick with now := fromSecs 31 },
    .step (fromSecs 31), .step (fromSecs 31), .step (fromSecs 31), .step (fromSecs 31),
    .step (fromSecs 32), .step (fromSecs 32)]

/-- A run that writes. -/
def raisedLive : List (DaemonAction ℚ) :=
  spawning ++ raising.map fun action => .task (.governor action)

/-- The main task from the wait for the tasks to its return. -/
def finishing (now : Instant) : List (DaemonAction ℚ) :=
  [.leaveWait, .newController now true, .load] ++ List.replicate 9 (.restore now)

/-- The governor starts up and is stopped, and then restore runs. -/
def orderlyShutdown : List (DaemonAction ℚ) :=
  spawning ++ [.task (.governor (.step 0)), .task (.governor (.step 0)), .task (.governor (.step 0)),
    .signal true, .task (.governor (.stop 1))] ++ finishing 1

theorem restoreLast_of_orderly_apply : (runDaemon false orderlyShutdown).RestoreLast ∧
    (runDaemon false orderlyShutdown).result = some (.ok ()) ∧
    (runDaemon false orderlyShutdown).restoreStarted = some [(.advisorMode, "scan-time"), (.run, "1")] :=
  ⟨restoreLast_of_orderly answeringPlatform rfl 0 safeState (fun _ => none) Ptrace.runningProcess
    (by decide +kernel), by decide +kernel, by decide +kernel⟩

/-- Restore is missed when the governor's controller or the one that restores cannot be made, and
when the signal fails; and a governor that outlasts the wait writes after restore has started. -/
theorem not_restoreLast :
    ¬ (runDaemon false (saved ++ [.newController 0 false])).RestoreLast ∧
    ¬ (runDaemon false (spawning ++ [.signal false])).RestoreLast ∧
    ¬ (runDaemon false (spawning ++ [.signal true, .task (.governor (.step 0)),
      .task (.governor (.step 0)), .task (.governor (.step 0)), .task (.governor (.stop 1)),
      .leaveWait, .newController (fromSecs 1) false])).RestoreLast ∧
    ¬ (runDaemon false (spawning ++ [.signal true, .leaveWait, .newController (fromSecs 6) true,
      .task (.governor (.step (fromSecs 6)))])).RestoreLast := by
  decide +kernel

end DaemonState

end Animaksm.Daemon

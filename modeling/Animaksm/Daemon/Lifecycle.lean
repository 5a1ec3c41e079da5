import Animaksm.Common.Stepwise
import Animaksm.Daemon.Independence

/-!
# The life of the daemon

The main task of the daemon from its first KSM controller to its return: snapshot,
spawning, the wait for the shutdown signal, the bounded wait for the tasks and
restore. The environment decides whether the KSM path exists when a controller is
made, whether the signal arrives or fails, and how long the bounded wait lasts. Each
file operation of the snapshot and each parameter write of restore is a step. The
spawned tasks take their steps in between, also after the return. The metrics task
only reads, and is left out.
-/

namespace Animaksm.Daemon

open Animaksm.Common

/-- The configuration of the daemon, and its dry-run switch. -/
structure DaemonConfig (K : Type) where
  governorEnabled : Bool
  governor : GovernorConfig K
  scannerEnabled : Bool
  scanner : ScannerConfig
  dryRun : Bool

/-- What the daemon runs on: the KSM directory, the state directory and the machine. -/
structure Platform (ε E D S W : Type) where
  ksmDir : KsmDir ε D
  files : StateDir ε S
  serde : Serde
  host : Host E W

/-- The errors the daemon returns. -/
inductive DaemonError (ε : Type) where
  | ksmPathNotFound
  | ksm (error : AnimaksmError ε)
  | signal
  deriving DecidableEq, Repr

/-- Where the main task stands. -/
inductive Phase (ε : Type) where
  /-- Before the first controller. -/
  | starting
  | snapshotting
  /-- In the snapshot, with the file operations to come. -/
  | saving (pending : List FileOp)
  /-- Before the governor's controller. -/
  | spawningGovernor
  /-- Before the governor's second controller, in a dry run. -/
  | spawningDryGovernor
  | spawningScanner
  | awaitingSignal
  /-- In the bounded wait for the tasks. -/
  | waiting
  /-- Before the controller that restores. -/
  | finishing
  /-- Before the saved snapshot is read. -/
  | loading (ksm : KsmController)
  /-- In restore, with the writes to come. -/
  | restoring (ksm : KsmController) (pending : List RestoreWrite)
  | returned (result : Except (DaemonError ε) Unit)
  deriving DecidableEq

/-- The steps of the daemon, with what the environment decides. -/
inductive DaemonAction (K : Type) where
  /-- Make a controller, for a KSM path that exists or not. -/
  | newController (now : Instant) (found : Bool)
  /-- Read what the snapshot saves, or in a dry run create the shared state without one. -/
  | snapshot (now : Instant) (timestamp : String)
  /-- The next file operation of the snapshot, or its end and the shared state. -/
  | save (now : Instant)
  | spawnScanner
  /-- The shutdown signal arrives, or its future fails. -/
  | signal (received : Bool)
  /-- The tasks have been joined, or the time is up. -/
  | leaveWait
  /-- Read the saved snapshot. -/
  | load
  /-- The next write of restore, or its end. -/
  | restore (now : Instant)
  | task (action : Action K)

/-- The daemon: its main task, its tasks over a directory next to the writes they made, and the
state directory. -/
structure DaemonState (K ε D S W : Type) where
  phase : Phase ε
  tasks : System K (D × List KsmWrite) W
  files : S
  shutdownSent : Bool
  snapshotTaken : Bool
  /-- The writes the governor had made when restore started. -/
  restoreStarted : Option (List KsmWrite)
  /-- When the shared state and the governor were created. -/
  spawned : Option (Instant × Instant)
  /-- The steps of the governor since. -/
  fed : List (GovernorAction K)

/-- The governor task does not run: it has not been spawned, or it has ended. -/
def GovernorStage.Ended {K : Type} : GovernorStage K → Prop
  | .stopped => True
  | .panicked _ => True
  | _ => False

instance {K : Type} : DecidablePred (GovernorStage.Ended (K := K))
  | .starting _ => isFalse id
  | .idle => isFalse id
  | .applying _ _ _ _ _ => isFalse id
  | .monitoring _ _ => isFalse id
  | .publishing _ _ => isFalse id
  | .stopped => isTrue trivial
  | .panicked _ => isTrue trivial

/-- The step of the governor that this is, if any. -/
def Action.ofGovernor {K : Type} : Action K → List (GovernorAction K)
  | .governor action => [action]
  | .scanner _ => []

/-- A task ends on the shutdown signal only. -/
def Action.IsStop {K : Type} : Action K → Prop
  | .governor (.stop _) => True
  | .scanner (.stop _) => True
  | _ => False

instance {K : Type} : DecidablePred (Action.IsStop (K := K))
  | .governor (.tick _) => isFalse id
  | .governor (.step _) => isFalse id
  | .governor (.stop _) => isTrue trivial
  | .scanner (.cycle _) => isFalse id
  | .scanner (.step _) => isFalse id
  | .scanner (.stop _) => isTrue trivial

namespace DaemonState

variable {ε E K D S W : Type}

/-- The daemon when its configuration is loaded; no task runs. -/
def start (config : DaemonConfig K) (now : Instant) (dir : D) (files : S) (world : W) :
    DaemonState K ε D S W where
  phase := .starting
  tasks :=
    { System.start config.governor ((KsmController.new now).setDryRun config.dryRun) config.scanner
        config.dryRun now (dir, []) world with
      governorStage := .stopped
      scannerStage := .stopped }
  files := files
  shutdownSent := false
  snapshotTaken := false
  restoreStarted := none
  spawned := none
  fed := []

/-- What the main task has returned, if it has. -/
def result (d : DaemonState K ε D S W) : Option (Except (DaemonError ε) Unit) :=
  match d.phase with
  | .returned result => some result
  | _ => none

/-- Write to the directory without the log of the tasks. -/
def withDir (d : DaemonState K ε D S W) (dir : D) : DaemonState K ε D S W :=
  { d with tasks := { d.tasks with dir := (dir, d.tasks.dir.2) } }

/-- Return from the main task. -/
def finish (d : DaemonState K ε D S W) (result : Except (DaemonError ε) Unit) : DaemonState K ε D S W :=
  { d with phase := .returned result }

/-- Spawn the governor task. -/
def spawnGovernor (config : DaemonConfig K) (d : DaemonState K ε D S W) (ksm : KsmController)
    (now : Instant) : DaemonState K ε D S W :=
  { d with
    phase := .spawningScanner
    tasks := { d.tasks with
      governor := .new config.governor ksm now
      governorStage := .starting (GovernorTier.startUpWrites config.governor.useAdvisor) }
    spawned := some (d.tasks.state.lastAdjustment, now)
    fed := [] }

/-- What follows the making of a controller, where the main task makes one. -/
def afterController (config : DaemonConfig K) (d : DaemonState K ε D S W) (now : Instant) :
    Option (DaemonState K ε D S W) :=
  match d.phase with
  | .starting => some { d with phase := .snapshotting }
  | .spawningGovernor =>
    if config.dryRun then some { d with phase := .spawningDryGovernor }
    else some (d.spawnGovernor config (.new now) now)
  | .spawningDryGovernor =>
    some (d.spawnGovernor config ((KsmController.new now).setDryRun true) now)
  | .finishing =>
    some { d with phase := .loading (.new now), restoreStarted := some d.tasks.dir.2 }
  | _ => none

/-- Create the shared state and go on to the tasks. -/
def share (config : DaemonConfig K) (d : DaemonState K ε D S W) (now : Instant) : DaemonState K ε D S W :=
  { d with
    phase := if config.governorEnabled then .spawningGovernor else .spawningScanner
    tasks := { d.tasks with state := newSharedState now } }

/-- One step; a step the daemon is not ready for does nothing. -/
def step [Average K] (P : Platform ε E D S W) (config : DaemonConfig K) (d : DaemonState K ε D S W) :
    DaemonAction K → DaemonState K ε D S W
  | .newController now found =>
    match d.afterController config now with
    | none => d
    | some made => if found then made else d.finish (.error .ksmPathNotFound)
  | .snapshot now timestamp =>
    match d.phase with
    | .snapshotting =>
      if config.dryRun then d.share config now
      else
        match KsmController.snapshotText P.ksmDir P.serde timestamp d.tasks.dir.1 with
        | .error e => d.finish (.error (.ksm e))
        | .ok json => { d with phase := .saving (KsmController.saveOps json) }
    | _ => d
  | .save now =>
    match d.phase with
    | .saving [] => { d with snapshotTaken := true }.share config now
    | .saving (op :: pending) =>
      match op.perform P.files d.files with
      | (.error e, files) => { d with files := files }.finish (.error (.ksm e))
      | (.ok (), files) => { d with phase := .saving pending, files := files }
    | _ => d
  | .spawnScanner =>
    match d.phase with
    | .spawningScanner =>
      { d with
        phase := .awaitingSignal
        tasks := { d.tasks with
          scannerStage := if config.scannerEnabled then .idle else .stopped } }
    | _ => d
  | .signal received =>
    match d.phase with
    | .awaitingSignal =>
      if received then { d with phase := .waiting, shutdownSent := true }
      else d.finish (.error .signal)
    | _ => d
  | .leaveWait =>
    match d.phase with
    | .waiting => if config.dryRun then d.finish (.ok ()) else { d with phase := .finishing }
    | _ => d
  | .load =>
    match d.phase with
    | .loading ksm =>
      match KsmController.loadSnapshot P.files P.serde d.files with
      | .ok (some snapshot) => { d with phase := .restoring ksm snapshot.config.restoreWrites }
      -- A failed restore is logged only.
      | _ => d.finish (.ok ())
    | _ => d
  | .restore now =>
    match d.phase with
    | .restoring _ [] => d.finish (.ok ())
    | .restoring ksm (w :: pending) =>
      match ksm.restoreWrite P.ksmDir.toSysfs now w d.tasks.dir.1 with
      | (.error _, dir) => (d.withDir dir).finish (.ok ())
      | (.ok (), dir) => { d.withDir dir with phase := .restoring ksm pending }
    | _ => d
  | .task action =>
    if action.IsStop ∧ ¬ d.shutdownSent then d
    else
      { d with
        tasks := d.tasks.step P.ksmDir.toSysfs.logged P.host action
        fed := d.fed ++ action.ofGovernor }

end DaemonState

end Animaksm.Daemon

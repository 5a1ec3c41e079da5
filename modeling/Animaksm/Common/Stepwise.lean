import Animaksm.Common.KsmWrites
import Animaksm.Common.Snapshot

/-!
# Snapshot and restore one operation at a time

The file operations of a snapshot and the parameter writes of a restore as lists to
be worked off, each by a step of its own. Worked off in one go they are the snapshot
and the restore.
-/

namespace Animaksm.Common

variable {ε D S : Type}

/-- A file operation of a snapshot. -/
inductive FileOp where
  | createDirAll
  | write (name text : String)
  | rename (source target : String)
  deriving DecidableEq, Repr

/-- The outcome of a file operation on the state directory. -/
def FileOp.run (files : StateDir ε S) (state : S) : FileOp → Except ε Unit × S
  | .createDirAll => files.createDirAll state
  | .write name text => files.write name text state
  | .rename source target => files.rename source target state

/-- Perform a file operation. -/
def FileOp.perform (files : StateDir ε S) (op : FileOp) (state : S) : Except (AnimaksmError ε) Unit × S :=
  match op.run files state with
  | (.error e, state) => (.error (.io (.os e)), state)
  | (.ok (), state) => (.ok (), state)

/-- A parameter write of a restore, and whether a failure ends the restore. -/
structure RestoreWrite where
  write : KsmWrite
  mandatory : Bool
  deriving DecidableEq, Repr

namespace KsmController

/-- The text that a snapshot of the directory saves. -/
def snapshotText (fs : KsmDir ε D) (serde : Serde) (timestamp : String) (dir : D) :
    Except (AnimaksmError ε) String :=
  match readConfig fs dir with
  | .error e => .error e
  | .ok config =>
    match serde.toStringPretty ⟨config, timestamp⟩ with
    | .error message => .error (.snapshot message)
    | .ok json => .ok json

/-- The file operations that save the text of a snapshot. -/
def saveOps (json : String) : List FileOp :=
  [.createDirAll, .write (snapshotFilename ++ ".tmp") json,
    .rename (snapshotFilename ++ ".tmp") snapshotFilename]

/-- One write of a restore. -/
def restoreWrite (ksm : KsmController) (fs : Sysfs ε D) (now : Instant) (w : RestoreWrite) (dir : D) :
    Except (AnimaksmError ε) Unit × D :=
  match ksm.writeParam fs now w.write.1 w.write.2 dir with
  | (.error e, dir) => (if w.mandatory then .error e else .ok (), dir)
  | (.ok (), dir) => (.ok (), dir)

end KsmController

/-- The parameter writes that restore a configuration. -/
def KsmConfig.restoreWrites (config : KsmConfig) : List RestoreWrite :=
  ⟨(.advisorMode, if config.advisorMode ≠ "scan-time" then config.advisorMode else "none"), false⟩ ::
    config.mandatory.map (fun w => ⟨KsmController.validated w.1 w.2, true⟩) ++
    [⟨(.advisorMode, config.advisorMode), false⟩,
      ⟨KsmController.validated .advisorTargetScanTime config.advisorTargetScanTime, false⟩,
      ⟨KsmController.validated .advisorMaxCpu config.advisorMaxCpu, false⟩]

namespace KsmController

/-- A snapshot reads the text and performs its file operations until one fails. -/
theorem snapshot_eq (fs : KsmDir ε D) (files : StateDir ε S) (serde : Serde) (timestamp : String)
    (dir : D) (state : S) : snapshot fs files serde timestamp dir state =
      match snapshotText fs serde timestamp dir with
      | .error e => (.error e, state)
      | .ok json => Loop.forEach (FileOp.perform files) (saveOps json) state := by
  unfold snapshot snapshotText
  cases readConfig fs dir with
  | error e => rfl
  | ok config =>
    dsimp only
    cases serde.toStringPretty ⟨config, timestamp⟩ with
    | error message => rfl
    | ok json =>
      dsimp only [saveOps, Loop.forEach, FileOp.perform, FileOp.run]
      rcases files.createDirAll state with ⟨e | ⟨⟩, state₁⟩
      · rfl
      · dsimp only
        rcases files.write (snapshotFilename ++ ".tmp") json state₁ with ⟨e | ⟨⟩, state₂⟩
        · rfl
        · dsimp only
          rcases files.rename (snapshotFilename ++ ".tmp") snapshotFilename state₂ with ⟨e | ⟨⟩, state₃⟩
          · rfl
          · rfl

variable (ksm : KsmController) (fs : Sysfs ε D) (now : Instant)

theorem restoreWrite_optional (w : KsmWrite) (dir : D) :
    ksm.restoreWrite fs now ⟨w, false⟩ dir = (.ok (), (ksm.writeParam fs now w.1 w.2 dir).2) := by
  unfold restoreWrite
  rcases ksm.writeParam fs now w.1 w.2 dir with ⟨e | ⟨⟩, dir'⟩
  · rfl
  · rfl

theorem restoreWrite_mandatory (w : KsmWrite) (dir : D) :
    ksm.restoreWrite fs now ⟨w, true⟩ dir = ksm.writeParam fs now w.1 w.2 dir := by
  unfold restoreWrite
  rcases ksm.writeParam fs now w.1 w.2 dir with ⟨e | ⟨⟩, dir'⟩
  · rfl
  · rfl

/-- Whatever its outcome, a write of a restore leaves the directory that the controller's write does. -/
theorem restoreWrite_snd (w : RestoreWrite) (dir : D) :
    (ksm.restoreWrite fs now w dir).2 = (ksm.writeParam fs now w.write.1 w.write.2 dir).2 := by
  unfold restoreWrite
  rcases ksm.writeParam fs now w.write.1 w.write.2 dir with ⟨e | ⟨⟩, dir'⟩
  · rfl
  · rfl

theorem forEach_restoreWrite_mandatory (writes : List (Param × Nat)) (dir : D) :
    Loop.forEach (ksm.restoreWrite fs now) (writes.map fun w => ⟨validated w.1 w.2, true⟩) dir =
      Loop.forEach (ksm.set fs now) writes dir := by
  rw [Loop.forEach_map]
  congr 1
  funext w dir
  exact ksm.restoreWrite_mandatory fs now (validated w.1 w.2) dir

/-- A restore makes its writes until a mandatory one fails. -/
theorem restoreConfig_eq (config : KsmConfig) (dir : D) :
    ksm.restoreConfig fs now config dir =
      Loop.forEach (ksm.restoreWrite fs now) config.restoreWrites dir := by
  have hfirst : (if config.advisorMode ≠ "scan-time" then
      (ksm.setAdvisorMode fs now config.advisorMode dir).2
      else (ksm.setAdvisorMode fs now "none" dir).2) =
      (ksm.writeParam fs now .advisorMode
        (if config.advisorMode ≠ "scan-time" then config.advisorMode else "none") dir).2 := by
    split
    · rfl
    · rfl
  unfold restoreConfig KsmConfig.restoreWrites
  rw [hfirst, List.cons_append, Loop.forEach_cons_ok (ksm.restoreWrite_optional fs now _ dir)]
  dsimp only
  generalize (ksm.writeParam fs now .advisorMode _ dir).2 = dir₁
  rw [restoreMandatory_eq]
  have hmandatory := ksm.forEach_restoreWrite_mandatory fs now config.mandatory dir₁
  rcases hloop : Loop.forEach (ksm.set fs now) config.mandatory dir₁ with ⟨e | ⟨⟩, dir₂⟩
  · rw [Loop.forEach_append_error (hmandatory.trans hloop)]
  · rw [Loop.forEach_append_ok (hmandatory.trans hloop),
      Loop.forEach_cons_ok (ksm.restoreWrite_optional fs now _ dir₂),
      Loop.forEach_cons_ok (ksm.restoreWrite_optional fs now _ _),
      Loop.forEach_cons_ok (ksm.restoreWrite_optional fs now _ _)]
    rfl

variable {ksm now}

/-- The time of a write that is not held back does not matter. -/
theorem restoreWrite_of_passes {later : Instant} (h : ksm.Passes now) (h' : ksm.Passes later)
    (w : RestoreWrite) (dir : D) :
    ksm.restoreWrite fs later w dir = ksm.restoreWrite fs now w dir := by
  unfold restoreWrite
  rw [writeParam_of_passes h, writeParam_of_passes h']

end KsmController

end Animaksm.Common

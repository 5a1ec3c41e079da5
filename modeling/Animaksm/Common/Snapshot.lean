import Animaksm.Common.KsmConfig
import Animaksm.Lib.Loop

/-!
# Snapshot and restore

The configuration saved to the state directory and written back from it. Files
and the serializer are parameters: the state directory is a state of any type, and
the snapshot text is whatever the serializer makes of a snapshot.
-/

namespace Animaksm.Common

/-- Snapshot of KSM state for restore on shutdown. -/
structure KsmSnapshot where
  config : KsmConfig
  timestamp : String
  deriving DecidableEq, Repr

/-- The serializer of snapshots; a failure is its error message. -/
structure Serde where
  toStringPretty : KsmSnapshot → Except String String
  fromStr : String → Except String KsmSnapshot

/-- The operations on the state directory, with files by their names in it. -/
structure StateDir (ε S : Type) where
  createDirAll : S → Except ε Unit × S
  write : String → String → S → Except ε Unit × S
  rename : String → String → S → Except ε Unit × S
  existsFile : String → S → Bool
  readToString : String → S → Except ε String

/-- Snapshot file name within the state directory. -/
def snapshotFilename : String := "ksm-snapshot.json"

namespace KsmController

variable {ε D S : Type}

/-- Snapshot current KSM config to a JSON file for later restore: to a temporary file that is
renamed once it is complete. -/
def snapshot (fs : KsmDir ε D) (files : StateDir ε S) (serde : Serde) (timestamp : String) (dir : D)
    (state : S) : Except (AnimaksmError ε) Unit × S :=
  match readConfig fs dir with
  | .error e => (.error e, state)
  | .ok config =>
    match serde.toStringPretty ⟨config, timestamp⟩ with
    | .error message => (.error (.snapshot message), state)
    | .ok json =>
      match files.createDirAll state with
      | (.error e, state) => (.error (.io (.os e)), state)
      | (.ok (), state) =>
        match files.write (snapshotFilename ++ ".tmp") json state with
        | (.error e, state) => (.error (.io (.os e)), state)
        | (.ok (), state) =>
          match files.rename (snapshotFilename ++ ".tmp") snapshotFilename state with
          | (.error e, state) => (.error (.io (.os e)), state)
          | (.ok (), state) => (.ok (), state)

/-- The saved snapshot, if there is one. -/
def loadSnapshot (files : StateDir ε S) (serde : Serde) (state : S) :
    Except (AnimaksmError ε) (Option KsmSnapshot) :=
  if files.existsFile snapshotFilename state then
    match files.readToString snapshotFilename state with
    | .error e => .error (.io (.os e))
    | .ok json =>
      match serde.fromStr json with
      | .error message => .error (.snapshot message)
      | .ok snapshot => .ok (some snapshot)
  else .ok none

/-- The restored parameters of which a failed write ends the restore. -/
def restoreMandatory (ksm : KsmController) (fs : Sysfs ε D) (now : Instant) (config : KsmConfig) :
    D → Except (AnimaksmError ε) Unit × D :=
  Loop.forEach (fun set dir => set dir)
    [ksm.setRun fs now config.run, ksm.setPagesToScan fs now config.pagesToScan,
      ksm.setSleepMillisecs fs now config.sleepMillisecs,
      ksm.setMaxPageSharing fs now config.maxPageSharing]

/-- The writes of a restore. -/
def restoreConfig (ksm : KsmController) (fs : Sysfs ε D) (now : Instant) (config : KsmConfig)
    (dir : D) : Except (AnimaksmError ε) Unit × D :=
  -- The kernel rejects direct writes to `pages_to_scan` while a scan-time advisor is active, so
  -- that advisor is disabled first and enabled again below.
  let dir :=
    if config.advisorMode ≠ "scan-time" then (ksm.setAdvisorMode fs now config.advisorMode dir).2
    else (ksm.setAdvisorMode fs now "none" dir).2
  match ksm.restoreMandatory fs now config dir with
  | (.error e, dir) => (.error e, dir)
  | (.ok (), dir) =>
    let dir := (ksm.setAdvisorMode fs now config.advisorMode dir).2
    let dir := (ksm.setAdvisorTargetScanTime fs now config.advisorTargetScanTime dir).2
    let dir := (ksm.setAdvisorMaxCpu fs now config.advisorMaxCpu dir).2
    (.ok (), dir)

/-- Restore KSM config from a previously saved snapshot. -/
def restore (ksm : KsmController) (fs : Sysfs ε D) (files : StateDir ε S) (serde : Serde)
    (now : Instant) (state : S) (dir : D) : Except (AnimaksmError ε) Unit × D :=
  match loadSnapshot files serde state with
  | .error e => (.error e, dir)
  | .ok none => (.ok (), dir)
  | .ok (some snapshot) => ksm.restoreConfig fs now snapshot.config dir

end KsmController

/-- The values of which a failed write ends a restore, in order. -/
def KsmConfig.mandatory (config : KsmConfig) : List (Param × Nat) :=
  [(.run, config.run), (.pagesToScan, config.pagesToScan), (.sleepMillisecs, config.sleepMillisecs),
    (.maxPageSharing, config.maxPageSharing)]

/-- Set a parameter to a value. -/
def KsmController.set {ε D : Type} (ksm : KsmController) (fs : Sysfs ε D) (now : Instant)
    (w : Param × Nat) (dir : D) : Except (AnimaksmError ε) Unit × D :=
  ksm.writeValidated fs now w.1 w.2 dir

/-- The mandatory part of a restore sets its values in order. -/
theorem KsmController.restoreMandatory_eq {ε D : Type} (ksm : KsmController) (fs : Sysfs ε D)
    (now : Instant) (config : KsmConfig) :
    ksm.restoreMandatory fs now config = Loop.forEach (ksm.set fs now) config.mandatory := by
  funext dir
  exact Loop.forEach_map (fun set dir => set dir) (ksm.set fs now) config.mandatory dir

/-- A restore keeps what every write to the directory keeps. -/
theorem KsmController.restoreConfig_keeps {ε D : Type} {fs : Sysfs ε D} {P : D → Prop}
    (h : ∀ param value dir, P dir → P (fs.write param value dir).2) (ksm : KsmController)
    (now : Instant) (config : KsmConfig) {dir : D} (hP : P dir) :
    P (ksm.restoreConfig fs now config dir).2 := by
  have hwrite : ∀ {param value dir}, P dir → P (ksm.writeParam fs now param value dir).2 :=
    fun hd => writeParam_keeps h ksm now _ _ hd
  have hfirst : P (if config.advisorMode ≠ "scan-time" then
      (ksm.setAdvisorMode fs now config.advisorMode dir).2
      else (ksm.setAdvisorMode fs now "none" dir).2) := by
    split
    · exact hwrite hP
    · exact hwrite hP
  have hmandatory : ∀ {dir}, P dir → P (ksm.restoreMandatory fs now config dir).2 := fun hd => by
    rw [restoreMandatory_eq]
    exact Loop.forEach_keeps (fun _ _ _ hd => hwrite hd) hd
  have hreached := hmandatory hfirst
  unfold restoreConfig
  dsimp only
  split
  next e dir' heq =>
    rw [heq] at hreached
    exact hreached
  next dir' heq =>
    rw [heq] at hreached
    exact hwrite (hwrite (hwrite hreached))

/-- Successful file operations of the state directory do what they are for. -/
structure StateDir.Durable {ε S : Type} (files : StateDir ε S) (contents : S → String → Option String) :
    Prop where
  write : ∀ name text state, (files.write name text state).1 = .ok () →
    contents (files.write name text state).2 name = some text
  rename : ∀ source target state, (files.rename source target state).1 = .ok () →
    contents (files.rename source target state).2 target = contents state source
  existsFile : ∀ name state, (contents state name).isSome → files.existsFile name state = true
  readToString : ∀ name text state, contents state name = some text →
    files.readToString name state = .ok text

/-- A state directory in memory, by the names of its files. -/
def memoryFiles : StateDir Unit (String → Option String) where
  createDirAll files := (.ok (), files)
  write name text files := (.ok (), fun other => if other = name then some text else files other)
  rename source target files :=
    (.ok (), fun other =>
      if other = target then files source else if other = source then none else files other)
  existsFile name files := (files name).isSome
  readToString name files := match files name with
    | some text => .ok text
    | none => .error ()

theorem durable_memoryFiles : memoryFiles.Durable id where
  write name text files _ := if_pos rfl
  rename source target files _ := if_pos rfl
  existsFile name files h := h
  readToString name text files h := by
    change files name = some text at h
    simp only [memoryFiles, h]

variable {ε D S : Type}

/-- A snapshot that succeeded is loaded again, if its text parses back. -/
theorem KsmController.loadSnapshot_of_snapshot {fs : KsmDir ε D} {files : StateDir ε S}
    {contents : S → String → Option String} (hdurable : files.Durable contents) {serde : Serde}
    {timestamp : String} {dir : D} {state state' : S} {config : KsmConfig}
    (hconfig : readConfig fs dir = .ok config)
    (hserde : ∀ json, serde.toStringPretty ⟨config, timestamp⟩ = .ok json →
      serde.fromStr json = .ok ⟨config, timestamp⟩)
    (hsnapshot : snapshot fs files serde timestamp dir state = (.ok (), state')) :
    loadSnapshot files serde state' = .ok (some ⟨config, timestamp⟩) := by
  unfold snapshot at hsnapshot
  simp only [hconfig] at hsnapshot
  cases hjson : serde.toStringPretty ⟨config, timestamp⟩ with
  | error message => simp only [hjson] at hsnapshot; cases hsnapshot
  | ok json =>
    simp only [hjson] at hsnapshot
    rcases hcreate : files.createDirAll state with ⟨e | _, state₁⟩
    · rw [hcreate] at hsnapshot; cases hsnapshot
    rw [hcreate] at hsnapshot
    dsimp only at hsnapshot
    rcases hwrite : files.write (snapshotFilename ++ ".tmp") json state₁ with ⟨e | _, state₂⟩
    · rw [hwrite] at hsnapshot; cases hsnapshot
    rw [hwrite] at hsnapshot
    dsimp only at hsnapshot
    rcases hrename : files.rename (snapshotFilename ++ ".tmp") snapshotFilename state₂ with
      ⟨e | _, state₃⟩
    · rw [hrename] at hsnapshot; cases hsnapshot
    rw [hrename] at hsnapshot
    cases hsnapshot
    have htmp := hdurable.write (snapshotFilename ++ ".tmp") json state₁ (by rw [hwrite])
    have hfile := hdurable.rename (snapshotFilename ++ ".tmp") snapshotFilename state₂
      (by rw [hrename])
    rw [hwrite] at htmp
    rw [hrename, htmp] at hfile
    rw [loadSnapshot, hdurable.existsFile _ _ (by rw [hfile]; rfl), if_pos rfl,
      hdurable.readToString _ _ _ hfile]
    simp only [hserde json hjson]

end Animaksm.Common

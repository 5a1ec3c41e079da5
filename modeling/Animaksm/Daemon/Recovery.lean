import Animaksm.Daemon.RestoreLast

/-!
# Recovery

The restore command, run on what a daemon left behind that was killed at some moment.
All that a running daemon writes to the KSM directory is settings, and the snapshot it
took at first holds the values of all parameters that settings reach.
-/

namespace Animaksm.Common

open KsmController

variable {ε D S : Type}

/-- The write that a setting makes. -/
def Setting.toWrite : Setting → KsmWrite
  | .number param _ value => validated param value
  | .mode value => (.advisorMode, value.text)

/-- A write that some setting makes. -/
def IsSetting (w : KsmWrite) : Prop := ∃ setting : Setting, setting.toWrite = w

theorem isSetting_validated {param : Param} (h : param ∈ settable) (value : Nat) :
    IsSetting (validated param value) := ⟨.number param h value, rfl⟩

/-- What every setting keeps, whichever controller writes it. -/
def KeptBySettings (fs : Sysfs ε D) (I : D → Prop) : Prop :=
  ∀ (ksm : KsmController) (now : Instant) (setting : Setting) (dir : D),
    I dir → I (setting.write ksm fs now dir)

variable {fs : Sysfs ε D} {I : D → Prop}

namespace KeptBySettings

theorem attempt (h : KeptBySettings fs I) (ksm : KsmController) (now : Instant) {w : KsmWrite}
    (hw : IsSetting w) {dir : D} (hdir : I dir) : I (ksm.attempt fs now [w] dir) := by
  obtain ⟨setting, rfl⟩ := hw
  cases setting with
  | number param hparam value => exact h ksm now (.number param hparam value) dir hdir
  | mode mode => exact h ksm now (.mode mode) dir hdir

/-- A write of a restore keeps what settings keep, whatever its outcome. -/
theorem restoreWrite (h : KeptBySettings fs I) (ksm : KsmController) (now : Instant)
    {w : RestoreWrite} (hw : IsSetting w.write) {dir : D} (hdir : I dir) :
    I (ksm.restoreWrite fs now w dir).2 := by
  rw [restoreWrite_snd]
  exact h.attempt ksm now hw hdir

end KeptBySettings

/-- A restore writes settings, if the mode it restores is one of the kernel's. -/
theorem isSetting_restoreWrites {config : KsmConfig} {mode : AdvisorMode}
    (hmode : config.advisorMode = mode.text) : ∀ w ∈ config.restoreWrites, IsSetting w.write := by
  have hsettable : ∀ w ∈ config.mandatory, w.1 ∈ settable := by
    simp [KsmConfig.mandatory, settable]
  have hadvisor : IsSetting (.advisorMode, config.advisorMode) := hmode ▸ ⟨.mode mode, rfl⟩
  unfold KsmConfig.restoreWrites
  simp only [List.forall_mem_append, List.forall_mem_cons]
  refine ⟨⟨?_, fun w hw => ?_⟩, hadvisor, isSetting_validated (by decide) _,
    isSetting_validated (by decide) _, fun w hw => absurd hw List.not_mem_nil⟩
  · split
    · exact hadvisor
    · exact ⟨.mode .none, rfl⟩
  · obtain ⟨value, hvalue, rfl⟩ := List.mem_map.mp hw
    exact isSetting_validated (hsettable value hvalue) value.2

/-- The log does not change what a controller attempts. -/
theorem KsmController.attempt_logged (ksm : KsmController) (fs : Sysfs ε D) (now : Instant)
    (w : KsmWrite) (dir : D × List KsmWrite) :
    (ksm.attempt fs.logged now [w] dir).1 = ksm.attempt fs now [w] dir.1 := by
  rw [attempt_cons, attempt_nil, attempt_cons, attempt_nil]
  by_cases hpasses : ksm.Passes now
  · rw [writeParam_of_passes hpasses, writeParam_of_passes hpasses]
    rfl
  · rw [writeParam_of_not_passes hpasses, writeParam_of_not_passes hpasses]

end Animaksm.Common

namespace Animaksm.Daemon

open Animaksm.Common KsmController

variable {ε E K D S W : Type}

/-- Start-up writes settings. -/
theorem isSetting_startUpWrites (useAdvisor : Bool) :
    ∀ w ∈ GovernorTier.startUpWrites useAdvisor, IsSetting w := by
  intro w hw
  rcases List.mem_append.mp hw with hw | hw
  · cases useAdvisor with
    | false => cases hw
    | true =>
      rw [List.mem_singleton.mp hw]
      exact ⟨.mode .scanTime, rfl⟩
  · rw [List.mem_singleton.mp hw]
    exact isSetting_validated (by decide) 1

/-- Applying a profile writes settings. -/
theorem KsmProfile.isSetting_writes (profile : KsmProfile) (useAdvisor : Bool) :
    ∀ w ∈ profile.writes useAdvisor, IsSetting w := by
  have hsingle : ∀ {param}, param ∈ settable → ∀ value, ∀ w ∈ [validated param value], IsSetting w :=
    fun hparam value _ hw => List.mem_singleton.mp hw ▸ isSetting_validated hparam value
  have hnone : ∀ w ∈ ([] : List KsmWrite), IsSetting w := fun _ hw => absurd hw List.not_mem_nil
  unfold writes
  simp only [List.forall_mem_append, List.forall_mem_cons]
  refine ⟨?_, ⟨isSetting_validated (by decide) _, isSetting_validated (by decide) _, hnone⟩, ?_, ?_⟩
  · split
    · exact hsingle (by decide) 0
    · exact hnone
  · split
    · exact hnone
    · exact hsingle (by decide) profile.pagesToScan
  · split
    · exact hsingle (by decide) 1
    · exact hnone

/-- The writes to come are settings. -/
def GovernorStage.PendingSettings : GovernorStage K → Prop
  | .starting pending => ∀ w ∈ pending, IsSetting w
  | .applying _ _ _ _ pending => ∀ w ∈ pending, IsSetting w
  | _ => True

theorem Path.pendingSettings_next (path : Path) (tick : Tick K) (pressure : PressureLevel) :
    (path.next tick pressure).PendingSettings := by
  cases path with
  | transition => trivial
  | backOff => trivial

theorem GovernorStage.Ended.pendingSettings {stage : GovernorStage K} (h : stage.Ended) :
    stage.PendingSettings := by
  cases stage with
  | starting | applying => exact h.elim
  | _ => trivial

namespace System

/-- The directory is in a state that settings keep, and only settings are to come. -/
structure Kept (I : D → Prop) (s : System K (D × List KsmWrite) W) : Prop where
  dir : I s.dir.1
  pending : s.governorStage.PendingSettings

variable {fs : Sysfs ε D} {I : D → Prop} {s : System K (D × List KsmWrite) W}

theorem Kept.attempt (hI : KeptBySettings fs I) (h : s.Kept I) {w : KsmWrite} (hw : IsSetting w)
    (now : Instant) : I (s.attempt fs.logged now w).dir.1 := by
  change I (s.governor.ksm.attempt fs.logged now [w] s.dir).1
  rw [attempt_logged]
  exact hI.attempt s.governor.ksm now hw h.dir

/-- A decision writes nothing yet. -/
theorem Kept.decide (h : s.Kept I) (path : Path) (tick : Tick K) (pressure : PressureLevel)
    (decision : Decision) : (s.decide path tick pressure decision).Kept I := by
  unfold System.decide
  cases decision with
  | keep | defer => exact ⟨h.dir, path.pendingSettings_next tick pressure⟩
  | apply level =>
    dsimp only
    split
    · exact ⟨h.dir, trivial⟩
    next profile _ => exact ⟨h.dir, profile.isSetting_writes _⟩

theorem Kept.governorStep [Average K] (hI : KeptBySettings fs I) (h : s.Kept I)
    (action : GovernorAction K) : (s.governorStep fs.logged action).Kept I := by
  cases action with
  | tick tick =>
    rw [System.governorStep]
    split
    · split
      · exact ⟨h.dir, trivial⟩
      next level governor _ =>
        exact Kept.decide (s := { s with governor := governor }) ⟨h.dir, h.pending⟩ _ _ _ _
    · exact h
  | step now =>
    have hpending := h.pending
    rw [System.governorStep]
    cases hstage : s.governorStage with
    | starting pending =>
      rw [hstage] at hpending
      cases pending with
      | nil => exact ⟨h.dir, trivial⟩
      | cons w pending =>
        obtain ⟨hw, hrest⟩ := List.forall_mem_cons.mp hpending
        exact ⟨h.attempt hI hw now, hrest⟩
    | applying path tick pressure level pending =>
      rw [hstage] at hpending
      cases pending with
      | nil => exact ⟨h.dir, path.pendingSettings_next tick pressure⟩
      | cons w pending =>
        obtain ⟨hw, hrest⟩ := List.forall_mem_cons.mp hpending
        exact ⟨h.attempt hI hw now, hrest⟩
    | monitoring tick pressure =>
      dsimp only
      split
      · exact ⟨h.dir, trivial⟩
      · exact h.decide _ _ _ _
    | publishing tick pressure => exact ⟨h.dir, trivial⟩
    | idle | stopped | panicked => exact h
  | stop now =>
    rw [System.governorStep]
    split
    · exact ⟨h.dir, trivial⟩
    · exact h

/-- No step of a task writes anything but settings. -/
theorem Kept.step [Average K] (hI : KeptBySettings fs I) (H : Host E W) (h : s.Kept I)
    (action : Action K) : (s.step fs.logged H action).Kept I := by
  cases action with
  | governor action => exact h.governorStep hI action
  | scanner action =>
    obtain ⟨hdir, -, hstage⟩ := s.scannerStep_governor H action
    constructor
    · rw [System.step, hdir]
      exact h.dir
    · rw [System.step, hstage]
      exact h.pending

end System

/-- A file of a configuration is read back as this configuration. -/
def Platform.ReadsBack (P : Platform ε E D S W) (dir : D) (timestamp : String) : Prop :=
  ∀ config json, readConfig P.ksmDir dir = .ok config →
    P.serde.toStringPretty ⟨config, timestamp⟩ = .ok json →
    P.serde.fromStr json = .ok ⟨config, timestamp⟩

/-- The text of the snapshot that a step may take of this directory parses back. -/
def DaemonAction.Readable (P : Platform ε E D S W) (dir : D) : DaemonAction K → Prop
  | .snapshot _ timestamp => P.ReadsBack dir timestamp
  | _ => True

/-- Restore the KSM settings from the snapshot in the state directory of the configuration. -/
def restoreKsmFromConfig (P : Platform ε E D S W) (found : Bool) (created now : Instant) (files : S)
    (dir : D) : Except (DaemonError ε) Unit × D :=
  if found then
    match (KsmController.new created).restore P.ksmDir.toSysfs P.files P.serde now files dir with
    | (.error e, dir) => (.error (.ksm e), dir)
    | (.ok (), dir) => (.ok (), dir)
  else (.error .ksmPathNotFound, dir)

/-- The controller of a restore under way was made by now. -/
def Phase.MadeBy (now : Instant) : Phase ε → Prop
  | .restoring ksm _ => ∀ created, ksm = .new created → created ≤ now
  | _ => True

/-- The time at which a new controller was made can be told from its rate limiter. -/
instance (ksm : KsmController) (now : Instant) : Decidable (∀ created, ksm = .new created → created ≤ now) :=
  decidable_of_iff (ksm = .new (ksm.lastUpdate + fromMillis minUpdateIntervalMs) →
      ksm.lastUpdate + fromMillis minUpdateIntervalMs ≤ now)
    ⟨fun h created hksm => by
      rw [hksm, KsmController.new, sub_add_cancel] at h
      exact h rfl, fun h => h _⟩

instance (now : Instant) : DecidablePred (Phase.MadeBy (ε := ε) now)
  | .restoring ksm _ => inferInstanceAs (Decidable (∀ created, ksm = .new created → created ≤ now))
  | .starting | .snapshotting | .saving _ | .spawningGovernor | .spawningDryGovernor | .spawningScanner
  | .awaitingSignal | .waiting | .finishing | .loading _ | .returned _ => isTrue trivial

namespace DaemonState

variable {P : Platform ε E D S W} {view : D → KsmValues} {dir : D} {d : DaemonState K ε D S W}

/-- Nothing has been written, and no task will. -/
structure Untouched (dir : D) (d : DaemonState K ε D S W) : Prop where
  taken : d.snapshotTaken = false
  dir : d.tasks.dir.1 = dir
  ended : d.tasks.governorStage.Ended

/-- The saved snapshot holds the values of the directory. -/
def Holds (P : Platform ε E D S W) (view : D → KsmValues) (dir : D) (files : S) : Prop :=
  ∃ timestamp, loadSnapshot P.files P.serde files =
    .ok (some ⟨(view dir).config ((readU64 P.ksmDir .smartScan dir).toOption.getD 1), timestamp⟩)

/-- The snapshot holds the values of the directory, from which only settings have been written. -/
structure Saved (P : Platform ε E D S W) (view : D → KsmValues) (dir : D) (d : DaemonState K ε D S W) :
    Prop where
  taken : d.snapshotTaken = true
  loaded : Holds P view dir d.files
  kept : d.tasks.Kept (SameRest P.ksmDir view dir)

/-- Nothing has been written, and if these file operations succeed they save the values of the
directory. -/
structure Saving (P : Platform ε E D S W) (view : D → KsmValues) (saved : D) (pending : List FileOp)
    (d : DaemonState K ε D S W) : Prop extends d.Untouched saved where
  saves : ∀ files, Loop.forEach (FileOp.perform P.files) pending d.files = (.ok (), files) →
    Holds P view saved files

/-- What a daemon has left behind, by where it stands. -/
def Recoverable (P : Platform ε E D S W) (view : D → KsmValues) (dir : D) (d : DaemonState K ε D S W) :
    Prop :=
  match d.phase with
  | .starting | .snapshotting => d.Untouched dir
  | .saving pending => d.Saving P view dir pending
  | .restoring _ pending => d.Saved P view dir ∧ ∀ w ∈ pending, IsSetting w.write
  | .returned _ => d.Untouched dir ∨ d.Saved P view dir
  | _ => d.Saved P view dir

theorem keptBySettings (h : Kernel P.ksmDir view) (dir : D) :
    KeptBySettings P.ksmDir.toSysfs (SameRest P.ksmDir view dir) :=
  fun ksm now setting dir' hsame => hsame.trans (h.sameRest_write ksm now setting dir')

theorem Untouched.task [Average K] (h : d.Untouched dir) (config : DaemonConfig K) (action : Action K) :
    (d.step P config (.task action)).Untouched dir := by
  rw [step]
  split
  · exact h
  · obtain ⟨hdir, hended⟩ := d.tasks.step_of_ended P.ksmDir.toSysfs.logged P.host h.ended action
    refine ⟨h.taken, ?_, hended⟩
    rw [← h.dir]
    exact congrArg Prod.fst hdir

theorem Saving.task [Average K] {pending : List FileOp} (h : d.Saving P view dir pending)
    (config : DaemonConfig K) (action : Action K) :
    (d.step P config (.task action)).Saving P view dir pending := by
  refine ⟨h.toUntouched.task config action, ?_⟩
  rw [step]
  split
  · exact h.saves
  · exact h.saves

theorem Saved.task [Average K] (hkernel : Kernel P.ksmDir view) (h : d.Saved P view dir)
    (config : DaemonConfig K) (action : Action K) :
    (d.step P config (.task action)).Saved P view dir := by
  rw [step]
  split
  · exact h
  · exact ⟨h.taken, h.loaded, h.kept.step (keptBySettings hkernel dir) P.host action⟩

/-- The text of a snapshot is saved by its file operations, if they succeed. -/
theorem Untouched.saving {contents : S → String → Option String} (hkernel : Kernel P.ksmDir view)
    (hdurable : P.files.Durable contents) {timestamp json : String} (hread : P.ReadsBack dir timestamp)
    (h : d.Untouched dir)
    (htext : snapshotText P.ksmDir P.serde timestamp d.tasks.dir.1 = .ok json) :
    d.Saving P view dir (saveOps json) where
  toUntouched := h
  saves files hops := by
    have hsnapshot : snapshot P.ksmDir P.files P.serde timestamp dir d.files = (.ok (), files) := by
      rw [snapshot_eq, ← h.dir, htext]
      exact hops
    exact ⟨timestamp, hkernel.loadSnapshot_eq hdurable hread hsnapshot⟩

/-- A file operation that succeeds leaves the others to come. -/
theorem Saving.next {op : FileOp} {pending : List FileOp} (h : d.Saving P view dir (op :: pending))
    {files : S} (hop : op.perform P.files d.files = (.ok (), files)) :
    ({ d with phase := .saving pending, files := files } : DaemonState K ε D S W).Saving P view dir
      pending where
  taken := h.taken
  dir := h.dir
  ended := h.ended
  saves files' hops := h.saves files' ((Loop.forEach_cons_ok hop pending).trans hops)

/-- When all file operations have succeeded, the snapshot holds what the directory does. -/
theorem Saving.saved (h : d.Saving P view dir []) (config : DaemonConfig K) (now : Instant) :
    (share config { d with snapshotTaken := true } now).Saved P view dir where
  taken := rfl
  loaded := h.saves d.files rfl
  kept := by
    refine ⟨?_, h.ended.pendingSettings⟩
    change SameRest P.ksmDir view dir d.tasks.dir.1
    rw [h.dir]
    exact ⟨fun _ _ => rfl, rfl⟩

/-- Spawning the governor adds the settings of its start-up to the writes to come. -/
theorem Saved.spawnGovernor (h : d.Saved P view dir) (config : DaemonConfig K) (ksm : KsmController)
    (now : Instant) : (d.spawnGovernor config ksm now).Saved P view dir :=
  ⟨h.taken, h.loaded, h.kept.dir, isSetting_startUpWrites _⟩

/-- What is loaded when restore begins is what the directory held. -/
theorem Saved.restoreWrites (h : d.Saved P view dir) {snapshot : KsmSnapshot}
    (hload : loadSnapshot P.files P.serde d.files = .ok (some snapshot)) :
    ∀ w ∈ snapshot.config.restoreWrites, IsSetting w.write := by
  obtain ⟨timestamp, hloaded⟩ := h.loaded
  have hsame := Option.some.inj (Except.ok.inj (hload.symm.trans hloaded))
  have hmode : snapshot.config.advisorMode = (view dir).mode.text := by
    rw [hsame]
    rfl
  exact isSetting_restoreWrites hmode

/-- A write of restore is a setting, also if it fails or is held back. -/
theorem Saved.restoreWrite (hkernel : Kernel P.ksmDir view) (h : d.Saved P view dir) (ksm : KsmController)
    (now : Instant) {w : RestoreWrite} (hw : IsSetting w.write) :
    (d.withDir (ksm.restoreWrite P.ksmDir.toSysfs now w d.tasks.dir.1).2).Saved P view dir :=
  ⟨h.taken, h.loaded, (keptBySettings hkernel dir).restoreWrite ksm now hw h.kept.dir, h.kept.pending⟩

/-- Making a controller spawns the governor or goes on to restore. -/
theorem Recoverable.newController [Average K] {config : DaemonConfig K} (hdry : config.dryRun = false)
    (h : d.Recoverable P view dir) (now : Instant) (found : Bool) :
    (d.step P config (.newController now found)).Recoverable P view dir := by
  have h' := h
  unfold Recoverable at h'
  rw [DaemonState.step]
  unfold afterController
  cases hphase : d.phase with
  | starting =>
    rw [hphase] at h'
    cases found with
    | false => exact .inl ⟨h'.taken, h'.dir, h'.ended⟩
    | true => exact ⟨h'.taken, h'.dir, h'.ended⟩
  | spawningGovernor =>
    rw [hphase] at h'
    rw [hdry]
    cases found with
    | false => exact .inr ⟨h'.taken, h'.loaded, h'.kept⟩
    | true => exact h'.spawnGovernor config (.new now) now
  | spawningDryGovernor =>
    rw [hphase] at h'
    cases found with
    | false => exact .inr ⟨h'.taken, h'.loaded, h'.kept⟩
    | true => exact h'.spawnGovernor config _ now
  | finishing =>
    rw [hphase] at h'
    cases found with
    | false => exact .inr ⟨h'.taken, h'.loaded, h'.kept⟩
    | true => exact ⟨h'.taken, h'.loaded, h'.kept⟩
  | _ => exact h

/-- The file operations of the snapshot save it or fail. -/
theorem Recoverable.save [Average K] (config : DaemonConfig K) (h : d.Recoverable P view dir)
    (now : Instant) : (d.step P config (.save now)).Recoverable P view dir := by
  have h' := h
  unfold Recoverable at h'
  rw [DaemonState.step]
  cases hphase : d.phase with
  | saving pending =>
    rw [hphase] at h'
    cases pending with
    | nil =>
      have hsaved := h'.saved config now
      unfold share at hsaved ⊢
      cases hgovernor : config.governorEnabled with
      | false =>
        rw [hgovernor] at hsaved
        exact hsaved
      | true =>
        rw [hgovernor] at hsaved
        exact hsaved
    | cons op pending =>
      dsimp only
      split
      · exact .inl ⟨h'.taken, h'.dir, h'.ended⟩
      next hop => exact h'.next hop
  | _ => exact h

/-- Restore begins with the writes of the saved snapshot. -/
theorem Recoverable.load [Average K] (config : DaemonConfig K) (h : d.Recoverable P view dir) :
    (d.step P config .load).Recoverable P view dir := by
  have h' := h
  unfold Recoverable at h'
  rw [DaemonState.step]
  cases hphase : d.phase with
  | loading ksm =>
    rw [hphase] at h'
    dsimp only
    split
    next hload => exact ⟨⟨h'.taken, h'.loaded, h'.kept⟩, h'.restoreWrites hload⟩
    next => exact .inr ⟨h'.taken, h'.loaded, h'.kept⟩
  | _ => exact h

/-- The writes of restore are settings. -/
theorem Recoverable.restore [Average K] (hkernel : Kernel P.ksmDir view) (config : DaemonConfig K)
    (h : d.Recoverable P view dir) (now : Instant) :
    (d.step P config (.restore now)).Recoverable P view dir := by
  have h' := h
  unfold Recoverable at h'
  rw [DaemonState.step]
  cases hphase : d.phase with
  | restoring ksm pending =>
    rw [hphase] at h'
    obtain ⟨hsaved, hpending⟩ := h'
    cases pending with
    | nil => exact .inr ⟨hsaved.taken, hsaved.loaded, hsaved.kept⟩
    | cons w pending =>
      obtain ⟨hw, hrest⟩ := List.forall_mem_cons.mp hpending
      have hwritten := hsaved.restoreWrite hkernel ksm now hw
      dsimp only
      split
      next hwrite =>
        rw [hwrite] at hwritten
        exact .inr ⟨hwritten.taken, hwritten.loaded, hwritten.kept⟩
      next hwrite =>
        rw [hwrite] at hwritten
        exact ⟨⟨hwritten.taken, hwritten.loaded, hwritten.kept⟩, hrest⟩
  | _ => exact h

/-- The tasks write settings, whatever the main task does. -/
theorem Recoverable.task [Average K] (hkernel : Kernel P.ksmDir view) (config : DaemonConfig K)
    (h : d.Recoverable P view dir) (action : Action K) :
    (d.step P config (.task action)).Recoverable P view dir := by
  have h' := h
  unfold Recoverable at h'
  have hphase : (d.step P config (.task action)).phase = d.phase := by
    rw [DaemonState.step]
    split
    · rfl
    · rfl
  unfold Recoverable
  rw [hphase]
  cases hd : d.phase with
  | starting | snapshotting =>
    rw [hd] at h'
    exact h'.task config action
  | saving pending =>
    rw [hd] at h'
    exact h'.task config action
  | restoring ksm pending =>
    rw [hd] at h'
    exact h'.imp_left fun h' => h'.task hkernel config action
  | returned result =>
    rw [hd] at h'
    exact h'.imp (fun h' => h'.task config action) fun h' => h'.task hkernel config action
  | _ =>
    rw [hd] at h'
    exact h'.task hkernel config action

theorem Recoverable.step [Average K] {contents : S → String → Option String}
    (hkernel : Kernel P.ksmDir view) (hdurable : P.files.Durable contents) {config : DaemonConfig K}
    (hdry : config.dryRun = false) (h : d.Recoverable P view dir) {action : DaemonAction K}
    (hread : action.Readable P dir) : (d.step P config action).Recoverable P view dir := by
  have hdry' : ¬ config.dryRun = true := by
    rw [hdry]
    exact Bool.false_ne_true
  have h' := h
  unfold Recoverable at h'
  cases action with
  | newController now found => exact h.newController hdry now found
  | snapshot now timestamp =>
    rw [DaemonState.step]
    cases hphase : d.phase with
    | snapshotting =>
      rw [hphase] at h'
      dsimp only
      rw [if_neg hdry']
      split
      · exact .inl ⟨h'.taken, h'.dir, h'.ended⟩
      next htext =>
        have hsaving := h'.saving hkernel hdurable hread htext
        exact ⟨⟨h'.taken, h'.dir, h'.ended⟩, hsaving.saves⟩
    | _ => exact h
  | save now => exact h.save config now
  | spawnScanner =>
    rw [DaemonState.step]
    cases hphase : d.phase with
    | spawningScanner =>
      rw [hphase] at h'
      exact ⟨h'.taken, h'.loaded, h'.kept.dir, h'.kept.pending⟩
    | _ => exact h
  | signal received =>
    rw [DaemonState.step]
    cases hphase : d.phase with
    | awaitingSignal =>
      rw [hphase] at h'
      cases received with
      | false => exact .inr ⟨h'.taken, h'.loaded, h'.kept⟩
      | true => exact ⟨h'.taken, h'.loaded, h'.kept⟩
    | _ => exact h
  | leaveWait =>
    rw [DaemonState.step]
    cases hphase : d.phase with
    | waiting =>
      rw [hphase] at h'
      rw [hdry]
      exact ⟨h'.taken, h'.loaded, h'.kept⟩
    | _ => exact h
  | load => exact h.load config
  | restore now => exact h.restore hkernel config now
  | task action => exact h.task hkernel config action

theorem Recoverable.cases (h : d.Recoverable P view dir) : d.Untouched dir ∨ d.Saved P view dir := by
  unfold Recoverable at h
  cases hphase : d.phase with
  | starting | snapshotting =>
    rw [hphase] at h
    exact .inl h
  | saving pending =>
    rw [hphase] at h
    exact .inl h.toUntouched
  | restoring ksm pending =>
    rw [hphase] at h
    exact .inr h.1
  | returned result =>
    rw [hphase] at h
    exact h
  | _ =>
    rw [hphase] at h
    exact .inr h

theorem recoverable_run [Average K] {contents : S → String → Option String}
    (hkernel : Kernel P.ksmDir view) (hdurable : P.files.Durable contents) {config : DaemonConfig K}
    (hdry : config.dryRun = false) (now : Instant) (files : S) (world : W)
    {actions : List (DaemonAction K)} (hread : ∀ action ∈ actions, action.Readable P dir) :
    (Run.run (DaemonState.step P config) (start config now dir files world) actions).Recoverable P view
      dir :=
  (Run.along_of_forall hread _).invariant (I := Recoverable P view dir)
    (fun _ _ h hread => h.step hkernel hdurable hdry hread) ⟨rfl, rfl, trivial⟩

/-- A restore of what was saved succeeds and brings the configuration back. -/
theorem Saved.restores (hkernel : Kernel P.ksmDir view) (hranges : (view dir).InRanges settable)
    (h : d.Saved P view dir) {created now : Instant} (hcreated : created ≤ now) :
    ∃ dir', (KsmController.new created).restore P.ksmDir.toSysfs P.files P.serde now d.files
        d.tasks.dir.1 = (.ok (), dir') ∧ readConfig P.ksmDir dir' = readConfig P.ksmDir dir := by
  obtain ⟨timestamp, hload⟩ := h.loaded
  obtain ⟨dir', hrestore, hview, hsmart⟩ := hkernel.restore_eq hload hcreated d.tasks.dir.1
  exact ⟨dir', hrestore, (hkernel.readConfig_restored hranges h.kept.dir hview hsmart).2⟩

/-- Wherever a daemon is killed, once its snapshot was taken the restore command succeeds on what it
left behind and brings back the configuration that the daemon had found; before that, the daemon has
written nothing to the KSM directory. -/
theorem killed_recovers [Average K] {contents : S → String → Option String}
    (hkernel : Kernel P.ksmDir view) (hdurable : P.files.Durable contents) (config : DaemonConfig K)
    (hdry : config.dryRun = false) (hranges : (view dir).InRanges settable) (begun : Instant) (files : S)
    (world : W) {actions : List (DaemonAction K)} (hread : ∀ action ∈ actions, action.Readable P dir)
    {created now : Instant} (hcreated : created ≤ now) :
    let d := Run.run (DaemonState.step P config) (start config begun dir files world) actions
    (d.snapshotTaken = true → ∃ dir',
      restoreKsmFromConfig P true created now d.files d.tasks.dir.1 = (.ok (), dir') ∧
        readConfig P.ksmDir dir' = readConfig P.ksmDir dir) ∧
    (d.snapshotTaken = false → d.tasks.dir.1 = dir) := by
  intro d
  have hd : Recoverable P view dir d := recoverable_run hkernel hdurable hdry begun files world hread
  rcases hd.cases with huntouched | hsaved
  · exact ⟨fun htaken => absurd (huntouched.taken.symm.trans htaken) Bool.false_ne_true,
      fun _ => huntouched.dir⟩
  · refine ⟨fun _ => ?_, fun hnot => absurd (hnot.symm.trans hsaved.taken) Bool.false_ne_true⟩
    obtain ⟨dir', hrestore, hconfig⟩ := hsaved.restores hkernel hranges hcreated
    refine ⟨dir', ?_, hconfig⟩
    rw [restoreKsmFromConfig, if_pos rfl, hrestore]

/-- The text of a snapshot of the safe state parses back. -/
theorem readable_saved : ∀ action ∈ saved, action.Readable answeringPlatform safeState := by
  rw [saved, List.forall_mem_cons, List.forall_mem_cons]
  refine ⟨trivial, (snapshot_kernelDir safeState).1, ?_⟩
  simp only [List.forall_mem_cons]
  exact ⟨trivial, trivial, trivial, trivial, fun _ h => absurd h List.not_mem_nil⟩

theorem readable_raisedLive : ∀ action ∈ raisedLive, action.Readable answeringPlatform safeState := by
  rw [raisedLive, spawning, List.forall_mem_append, List.forall_mem_append]
  refine ⟨⟨readable_saved, ?_⟩, List.forall_mem_map.mpr fun _ _ => trivial⟩
  simp only [List.forall_mem_cons]
  exact ⟨trivial, trivial, fun _ h => absurd h List.not_mem_nil⟩

theorem readable_finishing (now : Instant) :
    ∀ action ∈ finishing now, action.Readable answeringPlatform safeState := by
  rw [finishing, List.forall_mem_append]
  simp only [List.forall_mem_cons]
  exact ⟨⟨trivial, trivial, trivial, fun _ h => absurd h List.not_mem_nil⟩,
    fun action h => (List.eq_of_mem_replicate h).symm ▸ trivial⟩

/-- A daemon that raised the level and shuts down. -/
def raisedShutdown : List (DaemonAction ℚ) :=
  raisedLive ++ [.signal true, .task (.governor (.stop (fromSecs 33)))] ++ finishing (fromSecs 33)

theorem readable_raisedShutdown :
    ∀ action ∈ raisedShutdown, action.Readable answeringPlatform safeState := by
  rw [raisedShutdown, List.forall_mem_append, List.forall_mem_append]
  simp only [List.forall_mem_cons]
  exact ⟨⟨readable_raisedLive, trivial, trivial, fun _ h => absurd h List.not_mem_nil⟩,
    readable_finishing _⟩

/-- It is killed in the middle of restore, after the fourth write. -/
def killedRestoring : List (DaemonAction ℚ) := raisedShutdown.take (raisedShutdown.length - 5)

theorem killed_recovers_restoring :
    let d := runDaemon false killedRestoring
    (d.tasks.dir.1.val.number .sleepMillisecs = 20 ∧ d.tasks.dir.1.val.number .maxPageSharing = 1024 ∧
      d.tasks.dir.1.val.mode = .none) ∧
    (safeState.val.number .maxPageSharing = 256 ∧ safeState.val.mode = .scanTime) ∧
    ∃ dir', restoreKsmFromConfig answeringPlatform true (fromSecs 60) (fromSecs 60) d.files
        d.tasks.dir.1 = (.ok (), dir') ∧
      readConfig kernelDir dir' = readConfig kernelDir safeState := by
  have hread : ∀ action ∈ killedRestoring, action.Readable answeringPlatform safeState :=
    fun action h => readable_raisedShutdown action (List.mem_of_mem_take h)
  have htaken : (runDaemon false killedRestoring).snapshotTaken = true := by decide +kernel
  have hrecovers := (killed_recovers (P := answeringPlatform) kernel_kernelDir durable_memoryFiles
    (bothTiers false) rfl inRanges_safeState 0 (fun _ => none) Ptrace.runningProcess hread
    (le_refl ((fromSecs 60 : Nat) : Instant))).1
  unfold runDaemon at htaken
  refine ⟨by decide +kernel, by decide +kernel, ?_⟩
  unfold runDaemon
  exact hrecovers htaken

/-- Restore runs with the clock of its controller, or later. -/
def Timely (d : DaemonState K ε D S W) : DaemonAction K → Prop
  | .restore now => d.phase.MadeBy now
  | _ => True

instance (d : DaemonState K ε D S W) : DecidablePred d.Timely
  | .restore now => inferInstanceAs (Decidable (d.phase.MadeBy now))
  | .newController _ _ | .snapshot _ _ | .save _ | .spawnScanner | .signal _ | .leaveWait | .load
  | .task _ => isTrue trivial

/-- The controller is a new one, and with these writes it brings the configuration of the directory
back. -/
def BringsBack (P : Platform ε E D S W) (dir : D) (ksm : KsmController) (pending : List RestoreWrite)
    (d : DaemonState K ε D S W) : Prop :=
  ∃ created, ksm = .new created ∧ ∃ dir',
    Loop.forEach (ksm.restoreWrite P.ksmDir.toSysfs created) pending d.tasks.dir.1 = (.ok (), dir') ∧
      readConfig P.ksmDir dir' = readConfig P.ksmDir dir

/-- Restore is on the way to the configuration of the directory, and has reached it when the main task
returns, with no task that would change it. -/
def FoundAgain (P : Platform ε E D S W) (dir : D) (d : DaemonState K ε D S W) : Prop :=
  match d.phase with
  | .loading ksm => ∃ created, ksm = .new created
  | .restoring ksm pending => d.BringsBack P dir ksm pending
  | .returned (.ok ()) =>
    d.tasks.governorStage.Ended ∧ readConfig P.ksmDir d.tasks.dir.1 = readConfig P.ksmDir dir
  | _ => True

theorem FoundAgain.task [Average K] (P : Platform ε E D S W) (config : DaemonConfig K)
    (hguarded : d.Guarded) (h : d.FoundAgain P dir) (action : Action K) :
    (d.step P config (.task action)).FoundAgain P dir := by
  rw [step]
  split
  · exact h
  · unfold FoundAgain at h ⊢
    unfold Guarded at hguarded
    dsimp only
    cases hphase : d.phase with
    | loading ksm =>
      rw [hphase] at h
      exact h
    | restoring ksm pending =>
      rw [hphase] at h hguarded
      obtain ⟨hdir, -⟩ := d.tasks.step_of_ended P.ksmDir.toSysfs.logged P.host hguarded.ended action
      unfold BringsBack
      dsimp only
      rw [hdir]
      exact h
    | returned result =>
      rw [hphase] at h
      cases result with
      | error e => trivial
      | ok _ =>
        obtain ⟨hdir, hended⟩ := d.tasks.step_of_ended P.ksmDir.toSysfs.logged P.host h.1 action
        refine ⟨hended, ?_⟩
        rw [hdir]
        exact h.2
    | _ => trivial

/-- The writes of the saved snapshot bring its configuration back. -/
theorem Saved.bringsBack (hkernel : Kernel P.ksmDir view) (hranges : (view dir).InRanges settable)
    (h : d.Saved P view dir) {snapshot : KsmSnapshot}
    (hload : loadSnapshot P.files P.serde d.files = .ok (some snapshot)) (created : Instant) :
    d.BringsBack P dir (.new created) snapshot.config.restoreWrites := by
  obtain ⟨dir', hrestore, hconfig⟩ := h.restores hkernel hranges (le_refl created)
  rw [KsmController.restore, hload] at hrestore
  exact ⟨created, rfl, dir', ((KsmController.new created).restoreConfig_eq ..).symm.trans hrestore, hconfig⟩

/-- A write in time is made as it would have been at once, does not fail, and leaves the others to come. -/
theorem BringsBack.next {ksm : KsmController} {w : RestoreWrite} {pending : List RestoreWrite}
    (h : d.BringsBack P dir ksm (w :: pending)) {now : Instant}
    (hnow : ∀ created, ksm = .new created → created ≤ now) :
    ∃ dir', ksm.restoreWrite P.ksmDir.toSysfs now w d.tasks.dir.1 = (.ok (), dir') ∧
      (d.withDir dir').BringsBack P dir ksm pending := by
  obtain ⟨created, rfl, dir', hwrites, hconfig⟩ := h
  rw [restoreWrite_of_passes P.ksmDir.toSysfs (passes_new (le_refl created))
    (passes_new (hnow created rfl))]
  rcases hwrite : (KsmController.new created).restoreWrite P.ksmDir.toSysfs created w d.tasks.dir.1 with
    ⟨e | ⟨⟩, dir₁⟩
  · rw [Loop.forEach_cons_error hwrite] at hwrites
    cases hwrites
  · rw [Loop.forEach_cons_ok hwrite] at hwrites
    exact ⟨dir₁, rfl, created, rfl, dir', hwrites, hconfig⟩

/-- The controller that restores is a new one. -/
theorem FoundAgain.newController [Average K] {config : DaemonConfig K} (hdry : config.dryRun = false)
    (h : d.FoundAgain P dir) (now : Instant) (found : Bool) :
    (d.step P config (.newController now found)).FoundAgain P dir := by
  rw [DaemonState.step]
  unfold afterController
  cases hphase : d.phase with
  | starting | spawningDryGovernor =>
    cases found with
    | false => trivial
    | true => trivial
  | spawningGovernor =>
    rw [hdry]
    cases found with
    | false => trivial
    | true => trivial
  | finishing =>
    cases found with
    | false => trivial
    | true => exact ⟨now, rfl⟩
  | _ => exact h

/-- Restore begins with writes that bring the configuration back. -/
theorem FoundAgain.load [Average K] (hkernel : Kernel P.ksmDir view)
    (hranges : (view dir).InRanges settable) (config : DaemonConfig K)
    (hrecoverable : d.Recoverable P view dir) (h : d.FoundAgain P dir) :
    (d.step P config .load).FoundAgain P dir := by
  rw [DaemonState.step]
  cases hphase : d.phase with
  | loading ksm =>
    unfold FoundAgain at h
    unfold Recoverable at hrecoverable
    rw [hphase] at h hrecoverable
    obtain ⟨created, rfl⟩ := h
    dsimp only
    split
    next hload => exact hrecoverable.bringsBack hkernel hranges hload created
    next hnone =>
      obtain ⟨timestamp, hload⟩ := hrecoverable.loaded
      exact absurd hload (hnone _)
  | _ => exact h

/-- A write of restore in time leads on to the configuration, and the last one has brought it back. -/
theorem FoundAgain.restore [Average K] (config : DaemonConfig K) (hguarded : d.Guarded)
    (h : d.FoundAgain P dir) {now : Instant} (htimely : d.Timely (.restore now)) :
    (d.step P config (.restore now)).FoundAgain P dir := by
  rw [DaemonState.step]
  cases hphase : d.phase with
  | restoring ksm pending =>
    unfold FoundAgain at h
    unfold Guarded at hguarded
    rw [hphase] at h hguarded
    cases pending with
    | nil =>
      obtain ⟨created, -, dir', hwrites, hconfig⟩ := h
      cases hwrites
      exact ⟨hguarded.ended, hconfig⟩
    | cons w pending =>
      have hnow : ∀ created, ksm = .new created → created ≤ now := by
        unfold Timely at htimely
        rw [hphase] at htimely
        exact htimely
      obtain ⟨dir', hwrite, hnext⟩ := BringsBack.next h hnow
      dsimp only
      rw [hwrite]
      exact hnext
  | _ => exact h

/-- An orderly step keeps it, from what the snapshot holds and what the main task has reached. -/
theorem FoundAgain.step [Average K] (hkernel : Kernel P.ksmDir view)
    (hranges : (view dir).InRanges settable) {config : DaemonConfig K} (hdry : config.dryRun = false)
    (hrecoverable : d.Recoverable P view dir) (hguarded : d.Guarded) (h : d.FoundAgain P dir)
    {action : DaemonAction K} (htimely : d.Timely action) : (d.step P config action).FoundAgain P dir := by
  have hdry' : ¬ config.dryRun = true := by
    rw [hdry]
    exact Bool.false_ne_true
  cases action with
  | newController now found => exact h.newController hdry now found
  | snapshot now timestamp =>
    rw [DaemonState.step]
    cases hphase : d.phase with
    | snapshotting =>
      dsimp only
      rw [if_neg hdry']
      split
      · trivial
      · trivial
    | _ => exact h
  | save now =>
    rw [DaemonState.step]
    cases hphase : d.phase with
    | saving pending =>
      cases pending with
      | nil =>
        unfold share
        cases config.governorEnabled with
        | false => trivial
        | true => trivial
      | cons op pending =>
        dsimp only
        split
        · trivial
        · trivial
    | _ => exact h
  | spawnScanner =>
    rw [DaemonState.step]
    cases hphase : d.phase with
    | spawningScanner => trivial
    | _ => exact h
  | signal received =>
    rw [DaemonState.step]
    cases hphase : d.phase with
    | awaitingSignal =>
      cases received with
      | false => trivial
      | true => trivial
    | _ => exact h
  | leaveWait =>
    rw [DaemonState.step]
    cases hphase : d.phase with
    | waiting =>
      rw [hdry]
      trivial
    | _ => exact h
  | load => exact h.load hkernel hranges config hrecoverable
  | restore now => exact h.restore config hguarded htimely
  | task action => exact h.task P config hguarded action

/-- An orderly step with the clock running on, of which the snapshot parses back. -/
def Undisturbed (P : Platform ε E D S W) (dir : D) (d : DaemonState K ε D S W) (action : DaemonAction K) :
    Prop :=
  d.Orderly action ∧ d.Timely action ∧ action.Readable P dir

/-- A daemon that returns without an error after an undisturbed run leaves the configuration that it
found. -/
theorem leaves_found [Average K] {contents : S → String → Option String}
    (hkernel : Kernel P.ksmDir view) (hdurable : P.files.Durable contents) (config : DaemonConfig K)
    (hdry : config.dryRun = false) (hranges : (view dir).InRanges settable) (begun : Instant) (files : S)
    (world : W) {actions : List (DaemonAction K)}
    (hrun : Run.Along (DaemonState.step P config) (Undisturbed P dir) (start config begun dir files world)
      actions) :
    let d := Run.run (DaemonState.step P config) (start config begun dir files world) actions
    d.result = some (.ok ()) → readConfig P.ksmDir d.tasks.dir.1 = readConfig P.ksmDir dir := by
  intro d hresult
  obtain ⟨-, -, hfound⟩ : Recoverable P view dir d ∧ Guarded d ∧ FoundAgain P dir d := by
    refine hrun.invariant (I := fun d => Recoverable P view dir d ∧ Guarded d ∧ FoundAgain P dir d)
      (fun d action hd haction => ?_) ⟨⟨rfl, rfl, trivial⟩, ⟨rfl, rfl⟩, trivial⟩
    obtain ⟨hrecoverable, hguarded, hfound⟩ := hd
    obtain ⟨horderly, htimely, hread⟩ := haction
    exact ⟨hrecoverable.step hkernel hdurable hdry hread, hguarded.step P hdry horderly,
      hfound.step hkernel hranges hdry hrecoverable hguarded htimely⟩
  unfold result at hresult
  unfold FoundAgain at hfound
  cases hphase : d.phase with
  | returned result =>
    rw [hphase] at hresult hfound
    cases Option.some.inj hresult
    exact hfound.2
  | _ =>
    rw [hphase] at hresult
    cases hresult

theorem leaves_found_raisedShutdown :
    (runDaemon false raisedLive).tasks.dir.1.val.number .sleepMillisecs = 5 ∧
    (runDaemon false raisedLive).tasks.dir.1.val.number .maxPageSharing = 1024 ∧
    (safeState.val.number .sleepMillisecs = 20 ∧ safeState.val.number .maxPageSharing = 256) ∧
    readConfig kernelDir (runDaemon false raisedShutdown).tasks.dir.1 = readConfig kernelDir safeState := by
  have horderly : Run.Along (step answeringPlatform (bothTiers false)) Orderly
      (start (bothTiers false) 0 safeState (fun _ => none) Ptrace.runningProcess) raisedShutdown := by
    decide +kernel
  have htimely : Run.Along (step answeringPlatform (bothTiers false)) Timely
      (start (bothTiers false) 0 safeState (fun _ => none) Ptrace.runningProcess) raisedShutdown := by
    decide +kernel
  have hreturned : (runDaemon false raisedShutdown).result = some (.ok ()) := by decide +kernel
  have hrun := horderly.and (htimely.and (Run.along_of_forall readable_raisedShutdown _))
  have hfound := leaves_found (P := answeringPlatform) kernel_kernelDir durable_memoryFiles
    (bothTiers false) rfl inRanges_safeState 0 (fun _ => none) Ptrace.runningProcess hrun
  unfold runDaemon at hreturned
  refine ⟨by decide +kernel, by decide +kernel, by decide +kernel, ?_⟩
  unfold runDaemon
  exact hfound hreturned

end DaemonState

end Animaksm.Daemon

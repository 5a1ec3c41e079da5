import Animaksm.Common.KernelParams

/-!
# Restore after a snapshot

Whatever a governor writes in between, a restore brings back the snapshot's mode
and its numbers moved into their safe ranges. Inside the ranges that is the
configuration of the snapshot; outside of them even an untouched system changes.
-/

namespace Animaksm.Common

open KsmController

/-- A parameter write of the governor. -/
inductive Setting where
  | number (param : Param) (hparam : param ∈ settable) (value : Nat)
  | mode (mode : AdvisorMode)

variable {ε D S : Type}

/-- The directory after a parameter write, whatever its outcome. -/
def Setting.write (gov : KsmController) (fs : Sysfs ε D) (now : Instant) : Setting → D → D
  | .number param _ value, dir => (gov.set fs now (param, value) dir).2
  | .mode value, dir => (gov.setAdvisorMode fs now value.text dir).2

/-- The directory after a sequence of parameter writes, each at its time. -/
def writeSettings (gov : KsmController) (fs : Sysfs ε D) (writes : List (Instant × Setting)) (dir : D) :
    D :=
  writes.foldl (fun dir w => w.2.write gov fs w.1 dir) dir

/-- A write that is held back changes nothing. -/
theorem Setting.write_of_not_passes {gov : KsmController} {now : Instant} (h : ¬ gov.Passes now)
    (fs : Sysfs ε D) (setting : Setting) (dir : D) : setting.write gov fs now dir = dir := by
  cases setting with
  | number param hparam value =>
    rw [Setting.write, KsmController.set, writeValidated, writeParam_of_not_passes h]
  | mode mode =>
    rw [Setting.write, KsmController.setAdvisorMode, writeString, writeParam_of_not_passes h]

/-- The configuration is the same where no setter reaches. -/
structure SameRest (fs : KsmDir ε D) (view : D → KsmValues) (dir dir' : D) : Prop where
  number : ∀ param ∉ settable, (view dir').number param = (view dir).number param
  smartScan : fs.readToString .smartScan dir' = fs.readToString .smartScan dir

theorem SameRest.trans {fs : KsmDir ε D} {view : D → KsmValues} {dir dir₁ dir₂ : D}
    (h₁ : SameRest fs view dir dir₁) (h₂ : SameRest fs view dir₁ dir₂) : SameRest fs view dir dir₂ :=
  ⟨fun param hp => (h₂.number param hp).trans (h₁.number param hp), h₂.smartScan.trans h₁.smartScan⟩

/-- A clamped value is the value itself exactly when it lies in the safe range. -/
theorem clampValue_eq_self_iff {param : Param} {lo hi : Nat} (h : (param, lo, hi) ∈ paramRanges)
    (value : Nat) : clampValue param value = value ↔ lo ≤ value ∧ value ≤ hi := by
  have hle : lo ≤ hi := paramRanges_le h
  rw [clampValue_eq h]
  omega

namespace KsmValues

/-- The values of a restore are those restored exactly when these lie in their safe ranges. -/
theorem restored_self_iff (values : KsmValues) :
    values.restored values = values ↔ values.InRanges settable := by
  have hfind : ∀ param ∈ settable, ∃ range ∈ paramRanges, range.1 = param := by decide
  constructor
  · rintro h ⟨param, lo, hi⟩ hrange hparam
    have hnumber := congrFun (congrArg number h) param
    simp only [restored, if_pos hparam] at hnumber
    exact (clampValue_eq_self_iff hrange _).mp hnumber
  · intro h
    ext param
    · simp only [restored]
      split
      next hparam =>
        obtain ⟨⟨_, lo, hi⟩, hrange, rfl⟩ := hfind param hparam
        exact (clampValue_eq_self_iff hrange _).mpr (h _ hrange hparam)
      next => rfl
    · rfl

end KsmValues

namespace Kernel

variable {fs : KsmDir ε D} {view : D → KsmValues} (h : Kernel fs view)

include h

/-- No parameter write of the governor reaches beyond the setters. -/
theorem sameRest_write (gov : KsmController) (now : Instant) (setting : Setting) (dir : D) :
    SameRest fs view dir (setting.write gov fs.toSysfs now dir) := by
  by_cases hpasses : gov.Passes now
  · cases setting with
    | number param hparam value =>
      by_cases hwritable : (view dir).Writable param
      · refine ⟨fun other hother => ?_, ?_⟩
        · have hne : other ≠ param := fun heq => hother (heq ▸ hparam)
          rw [Setting.write, (h.set hpasses dir hparam hwritable value).2]
          exact Function.update_of_ne hne _ _
        · rw [Setting.write, KsmController.set, writeValidated, writeParam_of_passes hpasses]
          exact h.read_smartScan ..
      · -- The only write the kernel rejects is `pages_to_scan` under the advisor.
        obtain ⟨rfl, hmode⟩ : param = .pagesToScan ∧ (view dir).mode = .scanTime := by
          simpa [KsmValues.Writable] using hwritable
        rw [Setting.write, KsmController.set, writeValidated, writeParam_of_passes hpasses]
        refine ⟨fun other _ => ?_, h.read_smartScan ..⟩
        exact congrFun (congrArg KsmValues.number (h.write_pagesToScan dir _ hmode).2) other
    | mode mode =>
      refine ⟨fun other _ => ?_, ?_⟩
      · rw [Setting.write, h.setAdvisorMode hpasses]
        rfl
      · rw [Setting.write, KsmController.setAdvisorMode, writeString, writeParam_of_passes hpasses]
        exact h.read_smartScan ..
  · rw [Setting.write_of_not_passes hpasses]
    exact ⟨fun _ _ => rfl, rfl⟩

theorem sameRest_writeSettings (gov : KsmController) (writes : List (Instant × Setting)) (dir : D) :
    SameRest fs view dir (writeSettings gov fs.toSysfs writes dir) := by
  induction writes generalizing dir with
  | nil => exact ⟨fun _ _ => rfl, rfl⟩
  | cons w writes ih => exact (h.sameRest_write gov w.1 w.2 dir).trans (ih _)

/-- Restoring a snapshot of these values succeeds from any state. -/
theorem restore_eq {files : StateDir ε S} {serde : Serde} {timestamp : String} {state : S}
    {saved : D} {smartScan : Nat} (hload : loadSnapshot files serde state =
      .ok (some ⟨(view saved).config smartScan, timestamp⟩))
    {created now : Instant} (hcreated : created ≤ now) (dir : D) :
    ∃ dir', (KsmController.new created).restore fs.toSysfs files serde now state dir = (.ok (), dir') ∧
      view dir' = (view saved).restored (view dir) ∧
      fs.readToString .smartScan dir' = fs.readToString .smartScan dir := by
  obtain ⟨dir', hrestore, hview⟩ := h.restoreConfig (passes_new hcreated) dir (view saved) smartScan
  have hsmart : fs.readToString .smartScan ((KsmController.new created).restoreConfig fs.toSysfs now
      ((view saved).config smartScan) dir).2 = fs.readToString .smartScan dir :=
    restoreConfig_keeps (P := fun d => fs.readToString .smartScan d = fs.readToString .smartScan dir)
      (fun param value d hd => (h.read_smartScan d param value).trans hd) _ now _ rfl
  rw [hrestore] at hsmart
  refine ⟨dir', ?_, hview, hsmart⟩
  rw [KsmController.restore, hload]
  exact hrestore

/-- The snapshot of a directory is loaded as its values. -/
theorem loadSnapshot_eq {files : StateDir ε S} {contents : S → String → Option String}
    (hdurable : files.Durable contents) {serde : Serde} {timestamp : String} {dir : D} {state state' : S}
    (hserde : ∀ config json, readConfig fs dir = .ok config →
      serde.toStringPretty ⟨config, timestamp⟩ = .ok json → serde.fromStr json = .ok ⟨config, timestamp⟩)
    (hsnapshot : snapshot fs files serde timestamp dir state = (.ok (), state')) :
    loadSnapshot files serde state' = .ok (some ⟨(view dir).config
      ((readU64 fs .smartScan dir).toOption.getD 1), timestamp⟩) :=
  loadSnapshot_of_snapshot hdurable (h.readConfig_eq dir)
    (fun json => hserde _ json (h.readConfig_eq dir)) hsnapshot

/-- A directory whose values are a restore of these, from a state that differs by setters only, reads
as the configuration of the snapshot if that lies in the safe ranges. -/
theorem readConfig_restored {saved dir dir' : D} (hranges : (view saved).InRanges settable)
    (hrest : SameRest fs view saved dir) (hview : view dir' = (view saved).restored (view dir))
    (hsmart : fs.readToString .smartScan dir' = fs.readToString .smartScan dir) :
    SameRest fs view saved dir' ∧ readConfig fs dir' = readConfig fs saved := by
  have hself := (view saved).restored_self_iff.mpr hranges
  have heq : view dir' = view saved := by
    rw [hview]
    ext param
    · by_cases hparam : param ∈ settable
      · have hnumber := congrFun (congrArg KsmValues.number hself) param
        simp only [KsmValues.restored, if_pos hparam] at hnumber ⊢
        exact hnumber
      · simp only [KsmValues.restored, if_neg hparam]
        exact hrest.number param hparam
    · rfl
  have hsmart' := hsmart.trans hrest.smartScan
  refine ⟨⟨fun _ _ => by rw [heq], hsmart'⟩, ?_⟩
  rw [h.readConfig_eq, h.readConfig_eq, heq]
  simp only [readU64, hsmart']

end Kernel

/-- After a snapshot of a configuration in the safe ranges and any parameter writes of the governor,
a restore succeeds and brings the configuration back, and so does another one after it. -/
theorem restore_readConfig {fs : KsmDir ε D} {view : D → KsmValues} (h : Kernel fs view)
    {files : StateDir ε S} {contents : S → String → Option String} (hdurable : files.Durable contents)
    {serde : Serde} {timestamp : String} {dir : D} {state state' : S}
    (hserde : ∀ config json, readConfig fs dir = .ok config →
      serde.toStringPretty ⟨config, timestamp⟩ = .ok json → serde.fromStr json = .ok ⟨config, timestamp⟩)
    (hranges : (view dir).InRanges settable)
    (hsnapshot : snapshot fs files serde timestamp dir state = (.ok (), state'))
    (gov : KsmController) (writes : List (Instant × Setting)) {created now created' now' : Instant}
    (hcreated : created ≤ now) (hcreated' : created' ≤ now') :
    ∃ dir₁, (KsmController.new created).restore fs.toSysfs files serde now state'
        (writeSettings gov fs.toSysfs writes dir) = (.ok (), dir₁) ∧
      readConfig fs dir₁ = readConfig fs dir ∧
      ∃ dir₂, (KsmController.new created').restore fs.toSysfs files serde now' state' dir₁ =
          (.ok (), dir₂) ∧
        readConfig fs dir₂ = readConfig fs dir := by
  have hload := h.loadSnapshot_eq hdurable hserde hsnapshot
  have hwritten := h.sameRest_writeSettings gov writes dir
  obtain ⟨dir₁, hrestore₁, hview₁, hsmart₁⟩ := h.restore_eq hload hcreated
    (writeSettings gov fs.toSysfs writes dir)
  obtain ⟨hrest₁, hconfig₁⟩ := h.readConfig_restored hranges hwritten hview₁ hsmart₁
  obtain ⟨dir₂, hrestore₂, hview₂, hsmart₂⟩ := h.restore_eq hload hcreated' dir₁
  obtain ⟨-, hconfig₂⟩ := h.readConfig_restored hranges hrest₁ hview₂ hsmart₂
  exact ⟨dir₁, hrestore₁, hconfig₁, dir₂, hrestore₂, hconfig₂⟩

/-- The pretty JSON text of a snapshot whose strings need no escapes. -/
def prettyJson (snapshot : KsmSnapshot) : String :=
  let config := snapshot.config
  String.intercalate "\n" [
    "\x7b",
    "  \"config\": \x7b",
    "    \"run\": " ++ toString config.run ++ ",",
    "    \"pages_to_scan\": " ++ toString config.pagesToScan ++ ",",
    "    \"sleep_millisecs\": " ++ toString config.sleepMillisecs ++ ",",
    "    \"max_page_sharing\": " ++ toString config.maxPageSharing ++ ",",
    "    \"smart_scan\": " ++ toString config.smartScan ++ ",",
    "    \"advisor_mode\": \"" ++ config.advisorMode ++ "\",",
    "    \"advisor_target_scan_time\": " ++ toString config.advisorTargetScanTime ++ ",",
    "    \"advisor_max_cpu\": " ++ toString config.advisorMaxCpu ++ ",",
    "    \"advisor_min_pages_to_scan\": " ++ toString config.advisorMinPagesToScan ++ ",",
    "    \"advisor_max_pages_to_scan\": " ++ toString config.advisorMaxPagesToScan,
    "  \x7d,",
    "  \"timestamp\": \"" ++ snapshot.timestamp ++ "\"",
    "\x7d"]

/-- A serializer that reads back the text of this snapshot only. -/
def serdeOf (snapshot : KsmSnapshot) : Serde where
  toStringPretty other := .ok (prettyJson other)
  fromStr text :=
    if text = prettyJson snapshot then .ok snapshot
    else .error "expected value at line 1 column 1"

theorem fromStr_serdeOf (snapshot : KsmSnapshot) :
    (serdeOf snapshot).fromStr (prettyJson snapshot) = .ok snapshot := by
  simp only [serdeOf, if_true]

/-- The snapshot of a kernel in memory. -/
def snapshotOf (state : KernelState) : KsmSnapshot := ⟨state.1.config 1, "1700000000"⟩

/-- Every kernel in memory can be snapshotted and its snapshot parses back. -/
theorem snapshot_kernelDir (state : KernelState) :
    (∀ config json, readConfig kernelDir state = .ok config →
      (serdeOf (snapshotOf state)).toStringPretty ⟨config, "1700000000"⟩ = .ok json →
      (serdeOf (snapshotOf state)).fromStr json = .ok ⟨config, "1700000000"⟩) ∧
    ∃ files, snapshot kernelDir memoryFiles (serdeOf (snapshotOf state)) "1700000000" state
      (fun _ => none) = (.ok (), files) := by
  have hsmart : readU64 kernelDir .smartScan state = .ok 1 := rfl
  have hconfig : readConfig kernelDir state = .ok (state.1.config 1) := by
    rw [kernel_kernelDir.readConfig_eq, hsmart]
    rfl
  constructor
  · intro config json hread hjson
    obtain rfl := Except.ok.inj (hconfig.symm.trans hread)
    rw [← Except.ok.inj hjson]
    exact fromStr_serdeOf (snapshotOf state)
  · unfold snapshot
    rw [hconfig]
    exact ⟨_, rfl⟩

/-- A kernel whose parameters lie in their safe ranges, under the scan-time advisor. -/
def safeState : KernelState where
  val :=
    { number := fun
        | .run => 1
        | .pagesToScan => 500
        | .sleepMillisecs => 20
        | .maxPageSharing => 256
        | .advisorMode => 0
        | .advisorTargetScanTime => 200
        | .advisorMaxCpu => 70
        | .advisorMinPagesToScan => 500
        | .advisorMaxPagesToScan => 30000
      mode := .scanTime }
  property param := by
    cases param <;> decide

theorem inRanges_safeState : safeState.1.InRanges settable := by decide

theorem restore_readConfig_apply : ∃ files dir,
    snapshot kernelDir memoryFiles (serdeOf (snapshotOf safeState)) "1700000000" safeState
      (fun _ => none) = (.ok (), files) ∧
    (KsmController.new 0).restore kernelDir.toSysfs memoryFiles (serdeOf (snapshotOf safeState)) 1 files
      (writeSettings (.new 0) kernelDir.toSysfs
        [(0, .mode .none), (0, .number .run (by decide) 0), (0, .number .pagesToScan (by decide) 30000)]
        safeState) = (.ok (), dir) ∧
    readConfig kernelDir dir = readConfig kernelDir safeState := by
  obtain ⟨hserde, files, hsnapshot⟩ := snapshot_kernelDir safeState
  obtain ⟨dir, hrestore, hconfig, -⟩ := restore_readConfig kernel_kernelDir durable_memoryFiles hserde
    inRanges_safeState hsnapshot (.new 0)
    [(0, .mode .none), (0, .number .run (by decide) 0), (0, .number .pagesToScan (by decide) 30000)]
    (show (0 : Instant) ≤ 1 by decide) (show (1 : Instant) ≤ 2 by decide)
  exact ⟨files, dir, hsnapshot, hrestore, hconfig⟩

/-- With nothing written in between, a restore only moves numbers into their safe ranges. -/
theorem Kernel.view_restore {fs : KsmDir ε D} {view : D → KsmValues} (h : Kernel fs view)
    {files : StateDir ε S} {contents : S → String → Option String} (hdurable : files.Durable contents)
    {serde : Serde} {timestamp : String} {dir : D} {state state' : S}
    (hserde : ∀ config json, readConfig fs dir = .ok config →
      serde.toStringPretty ⟨config, timestamp⟩ = .ok json → serde.fromStr json = .ok ⟨config, timestamp⟩)
    (hsnapshot : snapshot fs files serde timestamp dir state = (.ok (), state'))
    {created now : Instant} (hcreated : created ≤ now) :
    view ((KsmController.new created).restore fs.toSysfs files serde now state' dir).2 =
      (view dir).restored (view dir) := by
  obtain ⟨dir', hrestore, hview, -⟩ :=
    h.restore_eq (h.loadSnapshot_eq hdurable hserde hsnapshot) hcreated dir
  rw [hrestore]
  exact hview

/-- With nothing written in between, snapshot and restore leave every value as it was exactly when
the parameters with a setter lie in their safe ranges. -/
theorem restore_untouched_iff {fs : KsmDir ε D} {view : D → KsmValues} (h : Kernel fs view)
    {files : StateDir ε S} {contents : S → String → Option String} (hdurable : files.Durable contents)
    {serde : Serde} {timestamp : String} {dir : D} {state state' : S}
    (hserde : ∀ config json, readConfig fs dir = .ok config →
      serde.toStringPretty ⟨config, timestamp⟩ = .ok json → serde.fromStr json = .ok ⟨config, timestamp⟩)
    (hsnapshot : snapshot fs files serde timestamp dir state = (.ok (), state'))
    {created now : Instant} (hcreated : created ≤ now) :
    view ((KsmController.new created).restore fs.toSysfs files serde now state' dir).2 = view dir ↔
      (view dir).InRanges settable := by
  rw [h.view_restore hdurable hserde hsnapshot hcreated]
  exact (view dir).restored_self_iff

theorem restore_untouched_iff_apply : ∃ files,
    snapshot kernelDir memoryFiles (serdeOf (snapshotOf safeState)) "1700000000" safeState
      (fun _ => none) = (.ok (), files) ∧
    ((KsmController.new 0).restore kernelDir.toSysfs memoryFiles (serdeOf (snapshotOf safeState)) 1
      files safeState).2.1 = safeState.1 := by
  obtain ⟨hserde, files, hsnapshot⟩ := snapshot_kernelDir safeState
  exact ⟨files, hsnapshot, (restore_untouched_iff kernel_kernelDir durable_memoryFiles hserde hsnapshot
    (show (0 : Instant) ≤ 1 by decide)).mpr inRanges_safeState⟩

/-- The same kernel with a scan interval of 20 seconds. -/
def slowState : KernelState := safeState.setNumber .sleepMillisecs 20000 (by decide)

/-- An untouched interval of 20 seconds is restored as 10 seconds. -/
theorem not_restore_untouched : ∃ files,
    snapshot kernelDir memoryFiles (serdeOf (snapshotOf slowState)) "1700000000" slowState
      (fun _ => none) = (.ok (), files) ∧
    slowState.1.number .sleepMillisecs = 20000 ∧
    ((KsmController.new 0).restore kernelDir.toSysfs memoryFiles (serdeOf (snapshotOf slowState)) 1
      files slowState).2.1.number .sleepMillisecs = 10000 := by
  obtain ⟨hserde, files, hsnapshot⟩ := snapshot_kernelDir slowState
  refine ⟨files, hsnapshot, rfl, ?_⟩
  rw [kernel_kernelDir.view_restore durable_memoryFiles hserde hsnapshot
    (show (0 : Instant) ≤ 1 by decide)]
  rfl

end Animaksm.Common

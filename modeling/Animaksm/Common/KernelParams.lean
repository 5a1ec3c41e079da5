import Mathlib.Logic.Function.Basic
import Animaksm.Common.Snapshot

/-!
# What the kernel keeps of the parameters

The values behind the parameter files, and what reading and writing the files has
to do with them: a number is shown in decimal, the advisor mode in brackets, and a
write is accepted but for `pages_to_scan` while the scan-time advisor is active.
-/

namespace Animaksm.Common

/-- The advisor modes of the kernel. -/
inductive AdvisorMode where
  | none
  | scanTime
  deriving DecidableEq, Repr

/-- The name of a mode, as it is written. -/
def AdvisorMode.text : AdvisorMode → String
  | .none => "none"
  | .scanTime => "scan-time"

/-- The list of modes, with the active one in brackets. -/
def AdvisorMode.shown : AdvisorMode → String
  | .none => "[none] scan-time"
  | .scanTime => "none [scan-time]"

/-- The values behind the parameter files. -/
@[ext] structure KsmValues where
  number : Param → Nat
  mode : AdvisorMode

/-- The numeric parameters that have a setter. -/
def settable : List Param :=
  [.run, .pagesToScan, .sleepMillisecs, .maxPageSharing, .advisorTargetScanTime, .advisorMaxCpu]

namespace KsmValues

def setNumber (values : KsmValues) (param : Param) (value : Nat) : KsmValues :=
  { values with number := Function.update values.number param value }

def setMode (values : KsmValues) (mode : AdvisorMode) : KsmValues := { values with mode := mode }

/-- The advisor does not keep the parameter from being written. -/
def Writable (values : KsmValues) (param : Param) : Prop :=
  param = .pagesToScan → values.mode ≠ .scanTime

/-- The configuration that these values are read as. -/
def config (values : KsmValues) (smartScan : Nat) : KsmConfig where
  run := values.number .run
  pagesToScan := values.number .pagesToScan
  sleepMillisecs := values.number .sleepMillisecs
  maxPageSharing := values.number .maxPageSharing
  smartScan := smartScan
  advisorMode := values.mode.text
  advisorTargetScanTime := values.number .advisorTargetScanTime
  advisorMaxCpu := values.number .advisorMaxCpu
  advisorMinPagesToScan := values.number .advisorMinPagesToScan
  advisorMaxPagesToScan := values.number .advisorMaxPagesToScan

/-- What a restore of the saved values makes of the current ones. -/
def restored (saved current : KsmValues) : KsmValues where
  number param :=
    if param ∈ settable then KsmController.clampValue param (saved.number param)
    else current.number param
  mode := saved.mode

/-- The numbers with a safe range among these parameters lie in it. -/
def InRanges (values : KsmValues) (params : List Param) : Prop :=
  ∀ range ∈ paramRanges, range.1 ∈ params →
    range.2.1 ≤ values.number range.1 ∧ values.number range.1 ≤ range.2.2

instance (values : KsmValues) (params : List Param) : Decidable (values.InRanges params) :=
  inferInstanceAs (Decidable (∀ range ∈ paramRanges, _ → _))

end KsmValues

/-- How a KSM directory keeps and shows the values of its parameters. -/
structure Kernel {ε D : Type} (fs : KsmDir ε D) (view : D → KsmValues) : Prop where
  bounded : ∀ dir param, (view dir).number param < 2 ^ 64
  read_number : ∀ dir param, param ≠ .advisorMode → ∃ text,
    fs.readToString (.param param) dir = .ok text ∧
      Text.Shows (Nat.toDigits 10 ((view dir).number param)) text.toList
  read_mode : ∀ dir, ∃ text, fs.readToString (.param .advisorMode) dir = .ok text ∧
    Text.Shows (view dir).mode.shown.toList text.toList
  write_number : ∀ dir param value, param ≠ .advisorMode → value < 2 ^ 64 →
    (view dir).Writable param → (fs.write param (toString value) dir).1 = .ok () ∧
      view (fs.write param (toString value) dir).2 = (view dir).setNumber param value
  write_pagesToScan : ∀ dir text, (view dir).mode = .scanTime →
    (∃ e, (fs.write .pagesToScan text dir).1 = .error e) ∧
      view (fs.write .pagesToScan text dir).2 = view dir
  write_mode : ∀ dir mode, (fs.write .advisorMode mode.text dir).1 = .ok () ∧
    view (fs.write .advisorMode mode.text dir).2 = (view dir).setMode mode
  read_smartScan : ∀ dir param text,
    fs.readToString .smartScan (fs.write param text dir).2 = fs.readToString .smartScan dir

variable {ε D : Type} {fs : KsmDir ε D} {view : D → KsmValues}

/-- The active mode is the one in brackets. -/
theorem activeValue_shown {mode : AdvisorMode} {content : List Char}
    (h : Text.Shows mode.shown.toList content) :
    String.ofList (activeValue content) = mode.text := by
  have hhead : ∀ c ∈ mode.shown.toList.head?, ¬ Text.isWhitespace c := by
    intro c hc
    cases mode <;> cases hc <;> decide
  have hlast : ∀ c ∈ mode.shown.toList.getLast?, ¬ Text.isWhitespace c := by
    intro c hc
    cases mode <;> cases hc <;> decide
  rw [activeValue, h.trim_eq hhead hlast]
  cases mode <;> decide

/-- The parameters with a setter are numeric. -/
theorem ne_advisorMode_of_settable {param : Param} (h : param ∈ settable) : param ≠ .advisorMode := by
  rintro rfl
  exact absurd h (by decide)

/-- What a setter writes fits into a file. -/
theorem clampValue_lt {param : Param} (h : param ∈ settable) (value : Nat) :
    KsmController.clampValue param value < 2 ^ 64 := by
  have hranges : ∀ param ∈ settable, ∃ range ∈ paramRanges, range.1 = param ∧ range.2.2 < 2 ^ 64 := by
    decide
  obtain ⟨⟨_, lo, hi⟩, hrange, rfl, hhi⟩ := hranges param h
  exact lt_of_le_of_lt (KsmController.clampValue_mem hrange value).2 hhi

namespace Kernel

variable (h : Kernel fs view)

include h

/-- Every numeric parameter is read as its value. -/
theorem readU64_eq (dir : D) {param : Param} (hparam : param ≠ .advisorMode) :
    KsmController.readU64 fs (.param param) dir = .ok ((view dir).number param) := by
  obtain ⟨text, hread, hshows⟩ := h.read_number dir param hparam
  simp only [KsmController.readU64, hread, parseU64_eq (h.bounded dir param) hshows]

/-- The advisor mode is read as the active one. -/
theorem readString_eq (dir : D) :
    KsmController.readString fs (.param .advisorMode) dir = .ok (view dir).mode.text := by
  obtain ⟨text, hread, hshows⟩ := h.read_mode dir
  simp only [KsmController.readString, hread, activeValue_shown hshows]

/-- The configuration is read as the values. -/
theorem readConfig_eq (dir : D) : KsmController.readConfig fs dir = .ok ((view dir).config
    ((KsmController.readU64 fs .smartScan dir).toOption.getD 1)) := by
  have hnumber : ∀ {param : Param}, param ≠ .advisorMode →
      KsmController.readU64 fs (.param param) dir = .ok ((view dir).number param) :=
    fun hparam => h.readU64_eq dir hparam
  rw [KsmController.readConfig, hnumber (by decide), hnumber (by decide), hnumber (by decide),
    hnumber (by decide), hnumber (by decide), hnumber (by decide), hnumber (by decide),
    hnumber (by decide), h.readString_eq]
  rfl

/-- A setter that passes sets the clamped value. -/
theorem set {ksm : KsmController} {now : Instant} (hpasses : ksm.Passes now) (dir : D)
    {param : Param} (hparam : param ∈ settable) (hwritable : (view dir).Writable param)
    (value : Nat) : (ksm.set fs.toSysfs now (param, value) dir).1 = .ok () ∧
      view (ksm.set fs.toSysfs now (param, value) dir).2 =
        (view dir).setNumber param (KsmController.clampValue param value) := by
  obtain ⟨hok, hview⟩ := h.write_number dir param _ (ne_advisorMode_of_settable hparam)
    (clampValue_lt hparam value) hwritable
  rw [KsmController.set, KsmController.writeValidated, KsmController.writeParam_of_passes hpasses]
  exact ⟨by rw [hok]; rfl, hview⟩

/-- A mode setter that passes sets the mode. -/
theorem setAdvisorMode {ksm : KsmController} {now : Instant} (hpasses : ksm.Passes now) (dir : D)
    (mode : AdvisorMode) : view (ksm.setAdvisorMode fs.toSysfs now mode.text dir).2 =
      (view dir).setMode mode := by
  rw [KsmController.setAdvisorMode, KsmController.writeString,
    KsmController.writeParam_of_passes hpasses]
  exact (h.write_mode dir mode).2

/-- Setters that pass, in order, while the scan-time advisor is off. -/
theorem forEach_set {ksm : KsmController} {now : Instant} (hpasses : ksm.Passes now)
    {writes : List (Param × Nat)} (hwrites : ∀ w ∈ writes, w.1 ∈ settable) {dir : D}
    (hmode : (view dir).mode = .none) : ∃ dir',
    Loop.forEach (ksm.set fs.toSysfs now) writes dir = (.ok (), dir') ∧
      view dir' = writes.foldl
        (fun values w => values.setNumber w.1 (KsmController.clampValue w.1 w.2)) (view dir) := by
  induction writes generalizing dir with
  | nil => exact ⟨dir, rfl, rfl⟩
  | cons w writes ih =>
    obtain ⟨hw, hrest⟩ := List.forall_mem_cons.mp hwrites
    obtain ⟨hok, hview⟩ := h.set hpasses dir hw (fun _ => by rw [hmode]; decide) w.2
    have hmode' : (view (ksm.set fs.toSysfs now w dir).2).mode = .none := by
      rw [hview]
      exact hmode
    obtain ⟨dir', hloop, hview'⟩ := ih hrest hmode'
    refine ⟨dir', ?_, by rw [hview', hview]; rfl⟩
    rw [Loop.forEach_cons_ok (Prod.ext hok rfl)]
    exact hloop

/-- Restoring a configuration succeeds from any state of the kernel. -/
theorem restoreConfig {ksm : KsmController} {now : Instant} (hpasses : ksm.Passes now) (dir : D)
    (saved : KsmValues) (smartScan : Nat) : ∃ dir',
    ksm.restoreConfig fs.toSysfs now (saved.config smartScan) dir = (.ok (), dir') ∧
      view dir' = saved.restored (view dir) := by
  -- Whatever the saved mode, the first write turns the advisor off.
  have hfirst : ∃ dir₁, view dir₁ = (view dir).setMode .none ∧
      (if (saved.config smartScan).advisorMode ≠ "scan-time" then
        (ksm.setAdvisorMode fs.toSysfs now (saved.config smartScan).advisorMode dir).2
        else (ksm.setAdvisorMode fs.toSysfs now "none" dir).2) = dir₁ := by
    refine ⟨_, ?_, rfl⟩
    cases hmode : saved.mode <;> simp only [KsmValues.config, hmode]
    · rw [if_pos (by decide)]
      exact h.setAdvisorMode hpasses dir .none
    · rw [if_neg (by decide)]
      exact h.setAdvisorMode hpasses dir .none
  obtain ⟨dir₁, hview₁, hdir₁⟩ := hfirst
  have hsettable : ∀ w ∈ (saved.config smartScan).mandatory, w.1 ∈ settable := by
    simp [KsmConfig.mandatory, settable]
  obtain ⟨dir₂, hloop, hview₂⟩ := h.forEach_set hpasses hsettable
    (show (view dir₁).mode = .none by rw [hview₁]; rfl)
  have hview₃ := h.setAdvisorMode hpasses dir₂ saved.mode
  obtain ⟨-, hview₄⟩ := h.set hpasses (ksm.setAdvisorMode fs.toSysfs now saved.mode.text dir₂).2
    (show Param.advisorTargetScanTime ∈ settable by decide) (fun hp => nomatch hp)
    (saved.number .advisorTargetScanTime)
  obtain ⟨-, hview₅⟩ := h.set hpasses
    (ksm.set fs.toSysfs now (.advisorTargetScanTime, saved.number .advisorTargetScanTime)
      (ksm.setAdvisorMode fs.toSysfs now saved.mode.text dir₂).2).2
    (show Param.advisorMaxCpu ∈ settable by decide) (fun hp => nomatch hp)
    (saved.number .advisorMaxCpu)
  refine ⟨_, ?_, hview₅.trans ?_⟩
  · rw [KsmController.restoreConfig, hdir₁, KsmController.restoreMandatory_eq, hloop]
    rfl
  · rw [hview₄, hview₃, hview₂, hview₁]
    ext param
    · cases param <;> rfl
    · rfl

end Kernel

/-- A kernel in memory: values that fit into their files. -/
abbrev KernelState := { values : KsmValues // ∀ param, values.number param < 2 ^ 64 }

/-- A number that fits becomes the value of its parameter. -/
def KernelState.setNumber (state : KernelState) (param : Param) (value : Nat) (h : value < 2 ^ 64) :
    KernelState where
  val := state.1.setNumber param value
  property other := by
    change Function.update state.1.number param value other < 2 ^ 64
    rcases eq_or_ne other param with rfl | hne
    · rwa [Function.update_self]
    · rw [Function.update_of_ne hne]
      exact state.2 other

/-- The KSM directory of the kernel in memory. -/
def kernelDir : KsmDir Unit KernelState where
  write param text state :=
    if param = .advisorMode then
      if text = "none" then (.ok (), ⟨state.1.setMode .none, state.2⟩)
      else if text = "scan-time" then (.ok (), ⟨state.1.setMode .scanTime, state.2⟩)
      else (.error (), state)
    else if param = .pagesToScan ∧ state.1.mode = .scanTime then (.error (), state)
    else
      let value := (Text.parseNat (2 ^ 64) text.toList).getD 0
      if h : value < 2 ^ 64 then (.ok (), state.setNumber param value h) else (.error (), state)
  readToString
    | .smartScan, _ => .ok "1\n"
    | .param .advisorMode, state => .ok (state.1.mode.shown ++ "\n")
    | .param param, state => .ok (toString (state.1.number param) ++ "\n")

/-- The kernel in memory keeps and shows its values as the kernel does. -/
theorem kernel_kernelDir : Kernel kernelDir Subtype.val where
  bounded state := state.2
  read_number state param hparam := by
    refine ⟨toString (state.1.number param) ++ "\n", ?_, ?_⟩
    · cases param <;> first | rfl | exact absurd rfl hparam
    · rw [String.toList_append, Nat.toString_eq_ofList_toDigits, String.toList_ofList]
      exact Text.shows_newline _
  read_mode state := by
    refine ⟨state.1.mode.shown ++ "\n", rfl, ?_⟩
    rw [String.toList_append]
    exact Text.shows_newline _
  write_number state param value hparam hvalue hwritable := by
    have hblocked : ¬ (param = .pagesToScan ∧ state.1.mode = .scanTime) := fun h => hwritable h.1 h.2
    have hparse : (Text.parseNat (2 ^ 64) (toString value).toList).getD 0 = value := by
      rw [Nat.toString_eq_ofList_toDigits, String.toList_ofList, Text.parseNat_toDigits hvalue,
        Option.getD_some]
    have hwrite : kernelDir.write param (toString value) state =
        (.ok (), state.setNumber param value hvalue) := by
      simp only [kernelDir, if_neg hparam, if_neg hblocked, hparse, dif_pos hvalue]
    rw [hwrite]
    exact ⟨rfl, rfl⟩
  write_pagesToScan state text hmode := by
    have hwrite : kernelDir.write .pagesToScan text state = (.error (), state) := by
      simp only [kernelDir, hmode, and_self, if_true, reduceCtorEq, if_false]
    rw [hwrite]
    exact ⟨⟨(), rfl⟩, rfl⟩
  write_mode state mode := by
    cases mode <;> exact ⟨rfl, rfl⟩
  read_smartScan _ _ _ := rfl

end Animaksm.Common

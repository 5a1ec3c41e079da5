import Mathlib.Data.List.Basic

/-!
# The KSM sysfs controller

Validated, rate limited writes to the parameters under `/sys/kernel/mm/ksm`. The
directory is a state of any type with fallible writes; what the kernel does with
a write is left open. Instants are nanoseconds from an arbitrary origin.
-/

namespace Animaksm.Common

/-- A reading of the monotonic clock. -/
abbrev Instant := Int

/-- Nanoseconds from `earlier` to `now`, zero when `earlier` is later. -/
def Instant.elapsed (now earlier : Instant) : Nat := (now - earlier).toNat

/-- What has elapsed lies between the two readings. -/
theorem Instant.add_le_of_le_elapsed {now earlier : Int} {nanos : Nat} (hle : earlier ≤ now)
    (h : nanos ≤ Instant.elapsed now earlier) : earlier + nanos ≤ now := by
  have h' : nanos ≤ (now - earlier).toNat := h
  omega

/-- The nanoseconds of a number of seconds. -/
def fromSecs (secs : Nat) : Nat := secs * 1000000000

/-- The nanoseconds of a number of milliseconds. -/
def fromMillis (millis : Nat) : Nat := millis * 1000000

/-- The parameter files the controller writes. -/
inductive Param where
  | run
  | pagesToScan
  | sleepMillisecs
  | maxPageSharing
  | advisorMode
  | advisorTargetScanTime
  | advisorMaxCpu
  | advisorMinPagesToScan
  | advisorMaxPagesToScan
  deriving DecidableEq, Repr

/-- Writes to the KSM directory, whose contents are of type `D`, with I/O errors of type `ε`. -/
structure Sysfs (ε D : Type) where
  write : Param → String → D → Except ε Unit × D

/-- The files of the KSM directory that the controller reads. -/
inductive KsmFile where
  | param (param : Param)
  | smartScan
  deriving DecidableEq, Repr

/-- An I/O error, from the system or for a file that could not be parsed. -/
inductive IoError (ε : Type) where
  | os (source : ε)
  | invalidData (message : String)
  deriving DecidableEq, Repr

/-- The errors of the controller. -/
inductive AnimaksmError (ε : Type) where
  | sysfs (path : KsmFile) (source : IoError ε)
  | snapshot (message : String)
  | io (source : IoError ε)
  deriving DecidableEq, Repr

/-- Minimum interval between KSM parameter updates. -/
def minUpdateIntervalMs : Nat := 500

/-- Safe parameter ranges for KSM tunables. -/
def paramRanges : List (Param × Nat × Nat) :=
  [(.run, 0, 2),
   (.pagesToScan, 100, 30000),
   (.sleepMillisecs, 5, 10000),
   (.maxPageSharing, 16, 4096),
   (.advisorTargetScanTime, 10, 3600),
   (.advisorMaxCpu, 10, 100),
   (.advisorMinPagesToScan, 100, 5000),
   (.advisorMaxPagesToScan, 1000, 100000)]

/-- KSM sysfs controller with validated writes and rate limiting. -/
structure KsmController where
  lastUpdate : Instant
  dryRun : Bool
  deriving DecidableEq

namespace KsmController

variable {ε D : Type}

/-- A controller for an existing KSM directory. -/
def new (now : Instant) : KsmController where
  lastUpdate := now - fromMillis minUpdateIntervalMs
  dryRun := false

/-- Enable dry-run mode (log writes without executing). -/
def setDryRun (ksm : KsmController) (dryRun : Bool) : KsmController :=
  { ksm with dryRun := dryRun }

/-- The value moved into the parameter's safe range; other parameters pass through. -/
def clampValue (param : Param) (value : Nat) : Nat :=
  match paramRanges.find? (fun range => range.1 = param) with
  | some (_, lo, hi) => max lo (min value hi)
  | none => value

/-- Write a text unless the rate limit or the dry run holds it back. -/
def writeParam (ksm : KsmController) (fs : Sysfs ε D) (now : Instant) (param : Param)
    (value : String) (dir : D) : Except (AnimaksmError ε) Unit × D :=
  if Instant.elapsed now ksm.lastUpdate / 1000000 < minUpdateIntervalMs then (.ok (), dir)
  else if ksm.dryRun then (.ok (), dir)
  else
    -- The read-back after a successful write only feeds log messages.
    match fs.write param value dir with
    | (.ok (), dir') => (.ok (), dir')
    | (.error source, dir') => (.error (.sysfs (.param param) (.os source)), dir')

/-- Write a validated integer parameter to sysfs. -/
def writeValidated (ksm : KsmController) (fs : Sysfs ε D) (now : Instant) (param : Param)
    (value : Nat) (dir : D) : Except (AnimaksmError ε) Unit × D :=
  ksm.writeParam fs now param (toString (clampValue param value)) dir

/-- Set KSM run mode (0=stop, 1=run, 2=unmerge). -/
def setRun (ksm : KsmController) (fs : Sysfs ε D) (now : Instant) (value : Nat) (dir : D) :
    Except (AnimaksmError ε) Unit × D :=
  ksm.writeValidated fs now .run value dir

def setPagesToScan (ksm : KsmController) (fs : Sysfs ε D) (now : Instant) (value : Nat)
    (dir : D) : Except (AnimaksmError ε) Unit × D :=
  ksm.writeValidated fs now .pagesToScan value dir

def setSleepMillisecs (ksm : KsmController) (fs : Sysfs ε D) (now : Instant) (value : Nat)
    (dir : D) : Except (AnimaksmError ε) Unit × D :=
  ksm.writeValidated fs now .sleepMillisecs value dir

def setMaxPageSharing (ksm : KsmController) (fs : Sysfs ε D) (now : Instant) (value : Nat)
    (dir : D) : Except (AnimaksmError ε) Unit × D :=
  ksm.writeValidated fs now .maxPageSharing value dir

/-- Write a string parameter to sysfs. -/
def writeString (ksm : KsmController) (fs : Sysfs ε D) (now : Instant) (param : Param)
    (value : String) (dir : D) : Except (AnimaksmError ε) Unit × D :=
  ksm.writeParam fs now param value dir

def setAdvisorMode (ksm : KsmController) (fs : Sysfs ε D) (now : Instant) (mode : String)
    (dir : D) : Except (AnimaksmError ε) Unit × D :=
  ksm.writeString fs now .advisorMode mode dir

def setAdvisorTargetScanTime (ksm : KsmController) (fs : Sysfs ε D) (now : Instant) (value : Nat)
    (dir : D) : Except (AnimaksmError ε) Unit × D :=
  ksm.writeValidated fs now .advisorTargetScanTime value dir

def setAdvisorMaxCpu (ksm : KsmController) (fs : Sysfs ε D) (now : Instant) (value : Nat)
    (dir : D) : Except (AnimaksmError ε) Unit × D :=
  ksm.writeValidated fs now .advisorMaxCpu value dir

/-- Neither the rate limit nor the dry run holds a write back at this time. -/
def Passes (ksm : KsmController) (now : Instant) : Prop :=
  minUpdateIntervalMs ≤ Instant.elapsed now ksm.lastUpdate / 1000000 ∧ ksm.dryRun = false

instance (ksm : KsmController) (now : Instant) : Decidable (ksm.Passes now) :=
  inferInstanceAs (Decidable (_ ∧ _))

/-- A property of the directory that every write keeps, but for a stop of KSM. -/
def KeptUnlessStopped (fs : Sysfs ε D) (P : D → Prop) : Prop :=
  ∀ param value dir, (param = .run → value ≠ "0") → P dir → P (fs.write param value dir).2

/-- A parameter with a range is clamped to it. -/
theorem clampValue_eq {param : Param} {lo hi : Nat} (h : (param, lo, hi) ∈ paramRanges)
    (value : Nat) : clampValue param value = max lo (min value hi) := by
  simp only [paramRanges, List.mem_cons, Prod.mk.injEq, List.not_mem_nil, or_false] at h
  rcases h with h | h | h | h | h | h | h | h <;> obtain ⟨rfl, rfl, rfl⟩ := h <;> rfl

/-- No range is empty. -/
theorem paramRanges_le {range : Param × Nat × Nat} (h : range ∈ paramRanges) :
    range.2.1 ≤ range.2.2 := by
  revert range
  decide

/-- A clamped value lies in the parameter's range. -/
theorem clampValue_mem {param : Param} {lo hi : Nat} (h : (param, lo, hi) ∈ paramRanges)
    (value : Nat) : lo ≤ clampValue param value ∧ clampValue param value ≤ hi := by
  have hle : lo ≤ hi := paramRanges_le h
  rw [clampValue_eq h]
  omega

/-- A new controller lets writes pass from its creation on. -/
theorem passes_new {created now : Int} (h : created ≤ now) : (new created).Passes now := by
  refine ⟨?_, rfl⟩
  have helapsed : Instant.elapsed now (new created).lastUpdate =
      (now - (created - (500 * 1000000 : Nat))).toNat := rfl
  rw [helapsed, minUpdateIntervalMs]
  omega

/-- A write that passes has the kernel's outcome. -/
theorem writeParam_of_passes {ksm : KsmController} {now : Instant} (h : ksm.Passes now)
    (fs : Sysfs ε D) (param : Param) (value : String) (dir : D) :
    ksm.writeParam fs now param value dir =
      ((fs.write param value dir).1.mapError fun e => .sysfs (.param param) (.os e),
        (fs.write param value dir).2) := by
  rw [writeParam, if_neg (Nat.not_lt.mpr h.1), if_neg (by rw [h.2]; exact Bool.false_ne_true)]
  rcases fs.write param value dir with ⟨_ | ⟨⟨⟩⟩, dir'⟩ <;> rfl

/-- A write that does not pass succeeds without a write. -/
theorem writeParam_of_not_passes {ksm : KsmController} {now : Instant} (h : ¬ ksm.Passes now)
    (fs : Sysfs ε D) (param : Param) (value : String) (dir : D) :
    ksm.writeParam fs now param value dir = (.ok (), dir) := by
  unfold writeParam
  split
  · rfl
  next hrate =>
    split
    · rfl
    next hdry => exact absurd ⟨Nat.not_lt.mp hrate, Bool.eq_false_iff.mpr hdry⟩ h

/-- A parameter write keeps what every write to the directory keeps. -/
theorem writeParam_keeps {fs : Sysfs ε D} {P : D → Prop}
    (h : ∀ param value dir, P dir → P (fs.write param value dir).2) (ksm : KsmController)
    (now : Instant) (param : Param) (value : String) {dir : D} (hP : P dir) :
    P (ksm.writeParam fs now param value dir).2 := by
  by_cases hpasses : ksm.Passes now
  · rw [writeParam_of_passes hpasses]
    exact h _ _ _ hP
  · rw [writeParam_of_not_passes hpasses]
    exact hP

/-- A validated write keeps what only a stop can break, unless it stops KSM. -/
theorem KeptUnlessStopped.writeValidated {fs : Sysfs ε D} {P : D → Prop}
    (h : KeptUnlessStopped fs P) (ksm : KsmController) (now : Instant) {param : Param} {value : Nat}
    {dir : D} (hrun : param = .run → toString (clampValue param value) ≠ "0") (hP : P dir) :
    P (ksm.writeValidated fs now param value dir).2 := by
  unfold KsmController.writeValidated
  by_cases hpasses : ksm.Passes now
  · rw [writeParam_of_passes hpasses]
    exact h _ _ _ hrun hP
  · rw [writeParam_of_not_passes hpasses]
    exact hP

end KsmController

end Animaksm.Common

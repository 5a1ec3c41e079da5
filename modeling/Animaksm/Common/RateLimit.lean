import Animaksm.Common.KsmWrites

/-!
# The rate limit over a sequence of calls

The setters share a controller whose last update is the one of its creation. The
limit has passed from the creation on, so every call writes, and two writes are as
far apart as the calls that made them.
-/

namespace Animaksm.Common

/-- A call of one of the setters. -/
inductive SetterCall where
  | setRun (value : Nat)
  | setPagesToScan (value : Nat)
  | setSleepMillisecs (value : Nat)
  | setMaxPageSharing (value : Nat)
  | setAdvisorMode (mode : String)
  | setAdvisorTargetScanTime (value : Nat)
  | setAdvisorMaxCpu (value : Nat)
  deriving DecidableEq

namespace SetterCall

variable {ε D : Type}

/-- Make the call at some time. -/
def perform (ksm : KsmController) (fs : Sysfs ε D) (now : Instant) (dir : D) :
    SetterCall → Except (AnimaksmError ε) Unit × D
  | setRun value => ksm.setRun fs now value dir
  | setPagesToScan value => ksm.setPagesToScan fs now value dir
  | setSleepMillisecs value => ksm.setSleepMillisecs fs now value dir
  | setMaxPageSharing value => ksm.setMaxPageSharing fs now value dir
  | setAdvisorMode mode => ksm.setAdvisorMode fs now mode dir
  | setAdvisorTargetScanTime value => ksm.setAdvisorTargetScanTime fs now value dir
  | setAdvisorMaxCpu value => ksm.setAdvisorMaxCpu fs now value dir

/-- The write of a call that is not held back. -/
def write : SetterCall → KsmWrite
  | setRun value => (.run, toString (KsmController.clampValue .run value))
  | setPagesToScan value => (.pagesToScan, toString (KsmController.clampValue .pagesToScan value))
  | setSleepMillisecs value =>
    (.sleepMillisecs, toString (KsmController.clampValue .sleepMillisecs value))
  | setMaxPageSharing value =>
    (.maxPageSharing, toString (KsmController.clampValue .maxPageSharing value))
  | setAdvisorMode mode => (.advisorMode, mode)
  | setAdvisorTargetScanTime value =>
    (.advisorTargetScanTime, toString (KsmController.clampValue .advisorTargetScanTime value))
  | setAdvisorMaxCpu value =>
    (.advisorMaxCpu, toString (KsmController.clampValue .advisorMaxCpu value))

/-- Every setter ends in the same write. -/
theorem perform_eq (ksm : KsmController) (fs : Sysfs ε D) (now : Instant) (dir : D)
    (call : SetterCall) :
    call.perform ksm fs now dir = ksm.writeParam fs now call.write.1 call.write.2 dir := by
  cases call <;> rfl

end SetterCall

/-- A write with its time. -/
abbrev TimedWrite := Instant × KsmWrite

namespace Sysfs

variable {ε D : Type}

/-- A directory next to the writes made to it, with the time that this one has. -/
def stamped (fs : Sysfs ε D) (now : Instant) : Sysfs ε (D × List TimedWrite) where
  write param value dir :=
    ((fs.write param value dir.1).1, (fs.write param value dir.1).2, dir.2 ++ [(now, (param, value))])

end Sysfs

namespace KsmController

variable {ε D : Type}

/-- Make these calls at their times, whatever the outcome of each. -/
def performAll (ksm : KsmController) (fs : Sysfs ε D) (calls : List (Instant × SetterCall))
    (dir : D × List TimedWrite) : D × List TimedWrite :=
  calls.foldl (fun dir call => (call.2.perform ksm (fs.stamped call.1) call.1 dir).2) dir

/-- The writes of some calls, from a directory on. -/
def timedWrites (ksm : KsmController) (fs : Sysfs ε D) (calls : List (Instant × SetterCall)) (dir : D) :
    List TimedWrite :=
  (ksm.performAll fs calls (dir, [])).2

/-- The minimum interval lies between two times. -/
def Apart (earlier later : Instant) : Prop := earlier + fromMillis minUpdateIntervalMs ≤ later

instance (earlier later : Instant) : Decidable (Apart earlier later) :=
  inferInstanceAs (Decidable (_ ≤ _))

variable {fs : Sysfs ε D} {calls : List (Instant × SetterCall)}

/-- Calls that pass write one after the other. -/
theorem performAll_passes {ksm : KsmController} (h : ∀ call ∈ calls, ksm.Passes call.1)
    (dir : D × List TimedWrite) :
    (ksm.performAll fs calls dir).2 = dir.2 ++ calls.map fun call => (call.1, call.2.write) := by
  induction calls generalizing dir with
  | nil => exact (List.append_nil _).symm
  | cons call calls ih =>
    obtain ⟨hcall, hcalls⟩ := List.forall_mem_cons.mp h
    change (ksm.performAll fs calls (call.2.perform ksm (fs.stamped call.1) call.1 dir).2).2 = _
    rw [ih hcalls, SetterCall.perform_eq, writeParam_of_passes hcall, List.map_cons]
    change dir.2 ++ [(call.1, call.2.write)] ++ _ = _
    rw [List.append_assoc, List.singleton_append]

/-- Every call on a new controller writes at its own time. -/
theorem timedWrites_new {created : Instant} (hcalls : ∀ call ∈ calls, created ≤ call.1) (fs : Sysfs ε D)
    (dir : D) :
    (timedWrites (new created) fs calls dir).map Prod.fst = calls.map Prod.fst := by
  have hpasses : ∀ call ∈ calls, (new created).Passes call.1 :=
    fun call hmem => passes_new (hcalls call hmem)
  rw [timedWrites, performAll_passes hpasses, List.nil_append, List.map_map]
  rfl

/-- The writes of calls in the order of time keep the minimum interval exactly when the calls do. -/
theorem timedWrites_apart_iff (fs : Sysfs ε D) (dir : D) {created : Instant}
    (htimes : (created :: calls.map Prod.fst).Pairwise (· ≤ ·)) :
    ((timedWrites (new created) fs calls dir).map Prod.fst).Pairwise Apart ↔
      (calls.map Prod.fst).Pairwise Apart := by
  have hcreated : ∀ call ∈ calls, created ≤ call.1 :=
    fun call hmem => (List.pairwise_cons.mp htimes).1 _ (List.mem_map_of_mem hmem)
  rw [timedWrites_new hcreated]

/-- Two calls half a second apart. -/
def spacedCalls : List (Instant × SetterCall) :=
  [(0, .setRun 1), (500000000, .setSleepMillisecs 20)]

theorem timedWrites_apart_iff_spacedCalls :
    ((timedWrites (new 0) (Sysfs.recorder (ε := Unit)) spacedCalls []).map Prod.fst).Pairwise Apart :=
  have htimes : ((0 : Instant) :: spacedCalls.map Prod.fst).Pairwise (· ≤ ·) := by decide
  (timedWrites_apart_iff Sysfs.recorder [] htimes).mpr (by decide)

/-- Two calls at one instant. -/
def twoCalls : List (Instant × SetterCall) := [(0, .setRun 1), (0, .setSleepMillisecs 20)]

/-- Both of them write. -/
theorem not_timedWrites_apart :
    (0 :: twoCalls.map Prod.fst).Pairwise (· ≤ ·) ∧
    ¬ ((timedWrites (new 0) (Sysfs.recorder (ε := Unit)) twoCalls []).map Prod.fst).Pairwise Apart := by
  refine ⟨by decide, ?_⟩
  rw [timedWrites_new (by decide)]
  decide

end KsmController

end Animaksm.Common

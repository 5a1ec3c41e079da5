import Animaksm.Daemon.LevelTracking

/-!
# What the governor decides

A tick decides about the level twice, at the stabilization gate and in the profit
monitor; the rest of the tick carries the decisions out. No decision depends on the
controller or on the directory. A profile is applied by attempting its writes, of
which the rate limit or a dry run can hold back each.
-/

namespace Animaksm.Common.KsmController

variable {ε D : Type}

/-- Attempt these writes in order, whatever the outcome of each. -/
def attempt (ksm : KsmController) (fs : Sysfs ε D) (now : Instant) (writes : List KsmWrite)
    (dir : D) : D :=
  writes.foldl (fun dir w => (ksm.writeParam fs now w.1 w.2 dir).2) dir

@[simp] theorem attempt_nil (ksm : KsmController) (fs : Sysfs ε D) (now : Instant) (dir : D) :
    ksm.attempt fs now [] dir = dir := rfl

@[simp] theorem attempt_cons (ksm : KsmController) (fs : Sysfs ε D) (now : Instant) (w : KsmWrite)
    (writes : List KsmWrite) (dir : D) :
    ksm.attempt fs now (w :: writes) dir =
      ksm.attempt fs now writes (ksm.writeParam fs now w.1 w.2 dir).2 := rfl

theorem attempt_append (ksm : KsmController) (fs : Sysfs ε D) (now : Instant)
    (writes writes' : List KsmWrite) (dir : D) :
    ksm.attempt fs now (writes ++ writes') dir =
      ksm.attempt fs now writes' (ksm.attempt fs now writes dir) := List.foldl_append

end Animaksm.Common.KsmController

namespace Animaksm.Daemon

open Animaksm.Common KsmController

/-- The writes that applying a profile attempts, in order. -/
def KsmProfile.writes (profile : KsmProfile) (useAdvisor : Bool) : List KsmWrite :=
  (if profile.run = 0 ∧ ¬ useAdvisor then [validated .run 0] else []) ++
    ([validated .sleepMillisecs profile.sleepMillisecs,
      validated .maxPageSharing profile.maxPageSharing] ++
      ((if useAdvisor then [] else [validated .pagesToScan profile.pagesToScan]) ++
        if profile.run ≠ 0 then [validated .run 1] else []))

namespace Governor

variable {K : Type}

/-- The governor with another controller. -/
def withKsm (gov : Governor K) (ksm : KsmController) : Governor K := { gov with ksm := ksm }

theorem observePsiStability_withKsm [Average K] (gov : Governor K) (ksm : KsmController)
    (psi : PsiStats K) :
    (gov.withKsm ksm).observePsiStability psi = (gov.observePsiStability psi).withKsm ksm := by
  unfold observePsiStability withKsm
  dsimp only
  cases gov.lastPsi with
  | none => rfl
  | some prev =>
    dsimp only
    split <;> rfl

theorem computeTransition_withKsm (gov : Governor K) (ksm : KsmController) (now : Instant)
    (target : Nat) : (gov.withKsm ksm).computeTransition now target =
      (gov.computeTransition now target).map fun r => (r.1, r.2.withKsm ksm) := by
  unfold computeTransition checkedSub withKsm
  dsimp only
  split_ifs <;> rfl

/-- The proposal of a tick does not depend on the controller. -/
theorem propose_withKsm [Average K] (gov : Governor K) (ksm : KsmController) (now : Instant)
    (psi : PsiStats K) : (gov.withKsm ksm).propose now psi =
      (gov.propose now psi).map fun r => (r.1, r.2.withKsm ksm) := by
  rw [propose, observePsiStability_withKsm]
  exact computeTransition_withKsm _ _ _ _

end Governor

namespace GovernorTier

variable {ε K D : Type}

/-- Writing a profile attempts its writes. -/
theorem writeProfile_eq_attempt (fs : Sysfs ε D) (gov : Governor K) (now : Instant)
    (profile : KsmProfile) (dir : D) : writeProfile fs gov now profile dir =
      gov.ksm.attempt fs now (profile.writes gov.config.useAdvisor) dir := by
  have hwrite : ∀ param value dir, (gov.ksm.writeValidated fs now param value dir).2 =
      gov.ksm.attempt fs now [validated param value] dir := fun _ _ _ => rfl
  simp only [writeProfile, KsmProfile.writes, setRun, setSleepMillisecs, setMaxPageSharing,
    setPagesToScan, hwrite, attempt_append, attempt_cons, attempt_nil]
  split <;> split <;> split <;> rfl

/-- Start-up attempts its writes. -/
theorem startUp_eq_attempt (fs : Sysfs ε D) (tier : GovernorTier K D) (now : Instant) :
    tier.startUp fs now = { tier with
      dir := tier.governor.ksm.attempt fs now (startUpWrites tier.governor.config.useAdvisor)
        tier.dir } := by
  unfold startUp setAdvisorMode writeString setRun startUpWrites
  dsimp only
  rw [attempt_append]
  split <;> rfl

end GovernorTier

end Animaksm.Daemon

import Animaksm.Daemon.LevelSafety

/-!
# Applied profiles

A tick decides about the level twice, at the stabilization gate and in the profit
monitor, and calls for a profile where it decides to apply one. A traced governor
keeps the calls of its run in order, with the time and the scan counter of the
reading that each of them acted on.
-/

namespace Animaksm.Daemon

open Animaksm.Common

/-- The two places of a tick that apply a profile. -/
inductive Path where
  | transition
  | backOff
  deriving DecidableEq, Repr

/-- An applied profile: where, when, at which scan counter, from which level and to which. -/
structure Application where
  path : Path
  now : Instant
  fullScans : Nat
  source : Nat
  target : Nat
  deriving DecidableEq, Repr

/-- A decision about the level. -/
inductive Decision where
  | keep
  | defer (level : Nat)
  | apply (level : Nat)
  deriving DecidableEq, Repr

namespace Governor

variable {K : Type}

/-- A proposed level is applied if it differs, unless inside the stabilization window. -/
def gate (gov : Governor K) (now lastGovernorAction : Instant) (newLevel : Nat) : Decision :=
  if newLevel ≠ gov.currentLevel then
    if Instant.elapsed now lastGovernorAction ≥ fromSecs gov.config.stabilizationSecs then
      .apply newLevel
    else .defer newLevel
  else .keep

/-- The profit monitor steps down when profit is negative after many scans. -/
def monitor (gov : Governor K) (ksmStats : KsmStats) : Except Panic Decision :=
  if gov.currentLevel > 0 ∧ ksmStats.generalProfit < 0 ∧
      ksmStats.fullScans > gov.fullScansAtLevel + 10 then
    if gov.currentLevel > 1 then
      match checkedSub gov.currentLevel 1 with
      | .error panic => .error panic
      | .ok level => .ok (.apply level)
    else .ok .keep
  else .ok .keep

end Governor

namespace GovernorTier

variable {ε K D : Type}

/-- Carry a decision out. -/
def carryOut (fs : Sysfs ε D) (tier : GovernorTier K D) (now : Instant) :
    Decision → Except Panic (GovernorTier K D)
  | .apply level => tier.applyProfile fs now level
  | _ => .ok tier

theorem applyTransition_eq_carryOut (fs : Sysfs ε D) (tier : GovernorTier K D) (now : Instant)
    (newLevel : Nat) : tier.applyTransition fs now newLevel =
      tier.carryOut fs now (tier.governor.gate now tier.state.lastGovernorAction newLevel) := by
  unfold applyTransition Governor.gate
  split
  · split <;> rfl
  · rfl

theorem profitBackOff_eq_carryOut (fs : Sysfs ε D) (tier : GovernorTier K D) (now : Instant)
    (ksmStats : KsmStats) : tier.profitBackOff fs now ksmStats =
      (tier.governor.monitor ksmStats).bind (tier.carryOut fs now) := by
  unfold profitBackOff Governor.monitor
  split
  · split
    · cases checkedSub tier.governor.currentLevel 1 <;> rfl
    · rfl
  · rfl

/-- The first part of a tick, up to the profit monitor. -/
def transition [Average K] (fs : Sysfs ε D) (tier : GovernorTier K D) (tick : Tick K) :
    Except Panic (GovernorTier K D) := do
  let (newLevel, governor) ← tier.governor.propose tick.now tick.psi
  { tier with governor := governor }.applyTransition fs tick.now newLevel

/-- The stabilization window has passed since the governor's last action. -/
def WindowOver (tier : GovernorTier K D) (tick : Tick K) : Prop :=
  fromSecs tier.governor.config.stabilizationSecs ≤
    Instant.elapsed tick.now tier.state.lastGovernorAction

instance (tier : GovernorTier K D) (tick : Tick K) : Decidable (tier.WindowOver tick) :=
  inferInstanceAs (Decidable (_ ≤ _))

/-- The profit monitor steps the level down. -/
def BacksOff (tier : GovernorTier K D) (ksmStats : KsmStats) : Prop :=
  1 < tier.governor.currentLevel ∧ ksmStats.generalProfit < 0 ∧
    ksmStats.fullScans > tier.governor.fullScansAtLevel + 10

instance (tier : GovernorTier K D) (ksmStats : KsmStats) : Decidable (tier.BacksOff ksmStats) :=
  inferInstanceAs (Decidable (_ ∧ _ ∧ _))

/-- A call for the profile of a level. -/
def call (tier : GovernorTier K D) (path : Path) (tick : Tick K) (level : Nat) : Application :=
  ⟨path, tick.now, tick.ksmStats.fullScans, tier.governor.currentLevel, level⟩

/-- The call that a decision makes, if any. -/
def called (tier : GovernorTier K D) (path : Path) (tick : Tick K) : Decision → List Application
  | .apply level => [tier.call path tick level]
  | _ => []

/-- The calls of a tick at the stabilization gate. -/
def transitionCalls [Average K] (tier : GovernorTier K D) (tick : Tick K) : List Application :=
  match tier.governor.propose tick.now tick.psi with
  | .error _ => []
  | .ok (newLevel, governor) => tier.called .transition tick
      (governor.gate tick.now tier.state.lastGovernorAction newLevel)

/-- The calls of a tick in the profit monitor. -/
def backOffCalls (tier : GovernorTier K D) (tick : Tick K) : List Application :=
  match tier.governor.monitor tick.ksmStats with
  | .error _ => []
  | .ok decision => tier.called .backOff tick decision

/-- The profiles a tick applies, in order. -/
def applications [Average K] (fs : Sysfs ε D) (tier : GovernorTier K D) (tick : Tick K) :
    List Application :=
  tier.transitionCalls tick ++
    match tier.transition fs tick with
    | .error _ => []
    | .ok tier₁ => tier₁.backOffCalls tick

variable {fs : Sysfs ε D} {tier tier' : GovernorTier K D} {now : Instant}

/-- A profile that was applied exists, and its level is the new one. -/
theorem applyProfile_eq_ok {level : Nat} (h : tier.applyProfile fs now level = .ok tier') :
    ∃ profile, profiles[level]? = some profile ∧ tier' =
      { governor := { tier.governor with currentLevel := level }
        state := { tier.state with lastGovernorAction := now, lastGlobalAction := now }
        dir := writeProfile fs tier.governor now profile tier.dir } := by
  unfold applyProfile at h
  split at h
  · cases h
  · next profile hprofile => exact ⟨profile, hprofile, (Except.ok.inj h).symm⟩

/-- A transition keeps everything but the observation and the counters, or applies a level other
than the current one after the stabilization window. -/
theorem transition_cases [Average K] {tick : Tick K} (h : tier.transition fs tick = .ok tier') :
    ∃ level gov, tier.governor.propose tick.now tick.psi = .ok (level, gov) ∧
      tier.governor.Unmoved gov ∧
      (tier' = { tier with governor := gov } ∧ tier.transitionCalls tick = [] ∧
          (tier.WindowOver tick → level = tier.governor.currentLevel) ∨
        level ≠ tier.governor.currentLevel ∧ tier.WindowOver tick ∧
          { tier with governor := gov }.applyProfile fs tick.now level = .ok tier' ∧
          tier.transitionCalls tick = [tier.call .transition tick level]) := by
  obtain ⟨level, gov, hpropose, -, hunmoved⟩ := tier.governor.propose_ok tick.now tick.psi
  refine ⟨level, gov, hpropose, hunmoved, ?_⟩
  have hcarry : { tier with governor := gov }.carryOut fs tick.now
      (gov.gate tick.now tier.state.lastGovernorAction level) = .ok tier' := by
    rw [transition, hpropose] at h
    exact (applyTransition_eq_carryOut fs _ _ _).symm.trans h
  have hcalls : tier.transitionCalls tick = tier.called .transition tick
      (gov.gate tick.now tier.state.lastGovernorAction level) := by
    rw [transitionCalls, hpropose]
  unfold Governor.gate at hcarry hcalls
  rw [hunmoved.currentLevel, hunmoved.config] at hcarry hcalls
  split at hcarry
  next hne =>
    rw [if_pos hne] at hcalls
    split at hcarry
    next hgate =>
      rw [if_pos hgate] at hcalls
      exact .inr ⟨hne, hgate, hcarry, hcalls⟩
    next hgate =>
      rw [if_neg hgate] at hcalls
      exact .inl ⟨(Except.ok.inj hcarry).symm, hcalls, fun hover => absurd hover hgate⟩
  next heq =>
    rw [if_neg heq] at hcalls
    exact .inl ⟨(Except.ok.inj hcarry).symm, hcalls, fun _ => not_not.mp heq⟩

/-- The monitor asks for the level below, or keeps the level. -/
theorem monitor_eq_ok (tier : GovernorTier K D) (ksmStats : KsmStats) :
    tier.governor.monitor ksmStats =
      .ok (if tier.BacksOff ksmStats then .apply (tier.governor.currentLevel - 1) else .keep) := by
  unfold Governor.monitor
  split
  next hmonitor =>
    split
    next hlevel =>
      rw [checkedSub_ok (by omega), if_pos ⟨hlevel, hmonitor.2⟩]
    next hlevel => rw [if_neg fun hback : tier.BacksOff ksmStats => hlevel hback.1]
  next hmonitor =>
    have hquiet : ¬ tier.BacksOff ksmStats := fun hback =>
      hmonitor ⟨lt_trans Nat.zero_lt_one hback.1, hback.2⟩
    rw [if_neg hquiet]

/-- The profit monitor does nothing or applies the level below, which it does not gate. -/
theorem profitBackOff_cases {tick : Tick K}
    (h : tier.profitBackOff fs tick.now tick.ksmStats = .ok tier') :
    ¬ tier.BacksOff tick.ksmStats ∧ tier' = tier ∧ tier.backOffCalls tick = [] ∨
      tier.BacksOff tick.ksmStats ∧
        tier.applyProfile fs tick.now (tier.governor.currentLevel - 1) = .ok tier' ∧
        tier.backOffCalls tick = [tier.call .backOff tick (tier.governor.currentLevel - 1)] := by
  rw [profitBackOff_eq_carryOut, monitor_eq_ok] at h
  rw [backOffCalls, monitor_eq_ok]
  split at h
  next hback => exact .inr ⟨hback, h, by rw [if_pos hback]; rfl⟩
  next hback => exact .inl ⟨hback, (Except.ok.inj h).symm, by rw [if_neg hback]; rfl⟩

/-- A tick is its transition, the profit monitor and the update of the shared state. -/
theorem tickWithReadings_eq_ok [Average K] {tick : Tick K}
    (h : tier.tickWithReadings fs tick = .ok tier') :
    ∃ tier₁ tier₂, tier.transition fs tick = .ok tier₁ ∧
      tier₁.profitBackOff fs tick.now tick.ksmStats = .ok tier₂ ∧
      tier' = tier₂.publish tick.now (tier.governor.pressure tick.psi) tick.ksmStats := by
  obtain ⟨level, gov, hpropose, -⟩ := tier.governor.propose_ok tick.now tick.psi
  rw [tickWithReadings, hpropose] at h
  rw [transition, hpropose]
  cases htransition : { tier with governor := gov }.applyTransition fs tick.now level with
  | error p => simp only [bind, Except.bind, htransition] at h; cases h
  | ok tier₁ =>
    cases hbackOff : tier₁.profitBackOff fs tick.now tick.ksmStats with
    | error p => simp only [bind, Except.bind, htransition, hbackOff] at h; cases h
    | ok tier₂ =>
      simp only [bind, Except.bind, htransition, hbackOff] at h
      exact ⟨tier₁, tier₂, htransition, hbackOff, (Except.ok.inj h).symm⟩

end GovernorTier

/-- A governor next to the time of its last tick and the calls for a profile in its run. -/
structure Traced (K D : Type) where
  tier : GovernorTier K D
  clock : Instant
  log : List Application

namespace Traced

variable {ε K D : Type} {fs : Sysfs ε D}

/-- One tick. -/
def tick [Average K] (fs : Sysfs ε D) (t : Traced K D) (tick : Tick K) : Except Panic (Traced K D) :=
  match t.tier.tickWithReadings fs tick with
  | .error p => .error p
  | .ok tier => .ok ⟨tier, tick.now, t.log ++ t.tier.applications fs tick⟩

/-- A new governor, which has applied nothing. -/
def start (config : GovernorConfig K) (ksm : KsmController) (now : Instant) (state : GovernorState)
    (dir : D) : Traced K D :=
  ⟨.start config ksm now state dir, now, []⟩

/-- A sequence of ticks. -/
def runTicks [Average K] (fs : Sysfs ε D) : Traced K D → List (Tick K) → Except Panic (Traced K D) :=
  Run.tryRun (tick fs)

/-- The tick times do not decrease from the start on. -/
def InOrder (now : Instant) (ticks : List (Tick K)) : Prop :=
  (now :: ticks.map Tick.now).Pairwise (· ≤ ·)

instance (now : Instant) (ticks : List (Tick K)) : Decidable (InOrder now ticks) :=
  inferInstanceAs (Decidable (List.Pairwise _ _))

/-- The trace runs with the governor. -/
theorem runTicks_tier [Average K] (t : Traced K D) (ticks : List (Tick K)) :
    (t.runTicks fs ticks).map tier = t.tier.runTicks fs ticks := by
  induction ticks generalizing t with
  | nil => rfl
  | cons tk ticks ih =>
    cases h : t.tier.tickWithReadings fs tk with
    | error p => simp only [runTicks, GovernorTier.runTicks, Run.tryRun, tick, h]; rfl
    | ok tier' =>
      have htick : t.tick fs tk = .ok ⟨tier', tk.now, t.log ++ t.tier.applications fs tk⟩ := by
        simp only [tick, h]
      rw [runTicks, GovernorTier.runTicks, Run.tryRun_cons_ok htick, Run.tryRun_cons_ok h]
      exact ih _

/-- A trace from a level with a profile does not panic. -/
theorem runTicks_ok [Average K] (t : Traced K D) (fs : Sysfs ε D) (ticks : List (Tick K))
    (h : t.tier.governor.currentLevel ≤ 5) : ∃ t', t.runTicks fs ticks = .ok t' := by
  have hall : KsmController.KeptUnlessStopped fs (fun _ => True) := fun _ _ _ _ _ => trivial
  obtain ⟨tier', hrun, -⟩ :=
    GovernorTier.runTicks_ok hall (Nat.zero_le 1) ⟨Nat.zero_le _, h, trivial⟩ ticks
  have htier : (t.runTicks fs ticks).map tier = t.tier.runTicks fs ticks := t.runTicks_tier ticks
  rw [hrun] at htier
  cases h : t.runTicks fs ticks with
  | error p => rw [h] at htier; cases htier
  | ok t' => exact ⟨t', rfl⟩

/-- What one tick of a trace consists of. -/
theorem tick_eq_ok [Average K] {t t' : Traced K D} {tk : Tick K} (h : t.tick fs tk = .ok t') :
    ∃ tier₁ tier₂, t.tier.transition fs tk = .ok tier₁ ∧
      tier₁.profitBackOff fs tk.now tk.ksmStats = .ok tier₂ ∧
      t' = ⟨tier₂.publish tk.now (t.tier.governor.pressure tk.psi) tk.ksmStats, tk.now,
        t.log ++ (t.tier.transitionCalls tk ++ tier₁.backOffCalls tk)⟩ := by
  cases hok : t.tier.tickWithReadings fs tk with
  | error p => simp only [tick, hok] at h; cases h
  | ok tier' =>
    obtain ⟨tier₁, tier₂, h₁, h₂, rfl⟩ := GovernorTier.tickWithReadings_eq_ok hok
    simp only [tick, hok, GovernorTier.applications, h₁] at h
    exact ⟨tier₁, tier₂, h₁, h₂, (Except.ok.inj h).symm⟩

/-- In a run with ordered times no tick comes before the clock. -/
theorem InOrder.along [Average K] {t : Traced K D} {ticks : List (Tick K)} (h : InOrder t.clock ticks) :
    Run.TryAlong (tick fs) (fun t tk => t.clock ≤ tk.now) t ticks := by
  induction ticks generalizing t with
  | nil => trivial
  | cons tk ticks ih =>
    obtain ⟨hclock, hrest⟩ := List.pairwise_cons.mp h
    refine ⟨hclock _ (List.mem_cons_self ..), ?_⟩
    cases htick : t.tick fs tk with
    | error p => trivial
    | ok t' =>
      obtain ⟨tier₁, tier₂, -, -, rfl⟩ := tick_eq_ok htick
      exact ih hrest

end Traced

end Animaksm.Daemon

import Animaksm.Lib.Log
import Animaksm.Daemon.Applications

/-!
# Consecutive readings

Transitions are computed for any targets at ordered times, with profiles applied in
between. A counter that is not 0 counts the last computations, all in its own
direction, and the cooldown that was over for the first of them is over for the
rest, since the entry time only moves when both counters are reset.
-/

namespace Animaksm.Daemon

open Animaksm.Common

namespace Governor

variable {K : Type}

/-- A governor that enters a level now, with its counters reset. -/
def entering (gov : Governor K) (now : Instant) : Governor K :=
  { gov with hysteresisCount := 0, rampUpCount := 0, levelEnteredAt := now, fullScansAtLevel := 0 }

/-- The branches of a transition, with the proposed level and the governor they leave. -/
inductive Branch (gov : Governor K) (now : Instant) (target : Nat) : Nat → Governor K → Prop
  /-- More than one level up. -/
  | jump (hup : gov.currentLevel < target) (hfar : saturatingAdd gov.currentLevel 2 ≤ target) :
    Branch gov now target target (gov.entering now)
  /-- One level up, after enough readings. -/
  | rampUp (hup : gov.currentLevel < target) (hnear : target < saturatingAdd gov.currentLevel 2)
    (henough : gov.config.hysteresisReadings ≤ gov.rampUpCount + 1) :
    Branch gov now target target (gov.entering now)
  /-- One level up, with more readings to come. -/
  | countUp (hup : gov.currentLevel < target) (hnear : target < saturatingAdd gov.currentLevel 2)
    (hfew : gov.rampUpCount + 1 < gov.config.hysteresisReadings) :
    Branch gov now target gov.currentLevel
      { gov with rampUpCount := gov.rampUpCount + 1, hysteresisCount := 0 }
  /-- Down, but the level was entered too recently. -/
  | cooling (hdown : target < gov.currentLevel)
    (hrecent : Instant.elapsed now gov.levelEnteredAt < fromSecs gov.config.minLevelDurationSecs) :
    Branch gov now target gov.currentLevel { gov with rampUpCount := 0 }
  /-- Down, after enough readings. -/
  | rampDown (hdown : target < gov.currentLevel)
    (hcooled : fromSecs gov.config.minLevelDurationSecs ≤ Instant.elapsed now gov.levelEnteredAt)
    (henough : gov.config.hysteresisReadings ≤ gov.hysteresisCount + 1) :
    Branch gov now target (gov.currentLevel - 1) (gov.entering now)
  /-- Down, with more readings to come. -/
  | countDown (hdown : target < gov.currentLevel)
    (hcooled : fromSecs gov.config.minLevelDurationSecs ≤ Instant.elapsed now gov.levelEnteredAt)
    (hfew : gov.hysteresisCount + 1 < gov.config.hysteresisReadings) :
    Branch gov now target gov.currentLevel
      { gov with rampUpCount := 0, hysteresisCount := gov.hysteresisCount + 1 }
  /-- At the target. -/
  | stay (hsame : target = gov.currentLevel) :
    Branch gov now target gov.currentLevel { gov with hysteresisCount := 0, rampUpCount := 0 }

/-- A transition takes one of its branches. -/
theorem computeTransition_branch (gov : Governor K) (now : Instant) (target : Nat) :
    ∃ proposed gov', gov.computeTransition now target = .ok (proposed, gov') ∧
      Branch gov now target proposed gov' := by
  unfold computeTransition
  dsimp only
  split
  next hup =>
    split
    next hfar => exact ⟨_, _, rfl, .jump hup hfar⟩
    next hnear =>
      have hnear := Nat.lt_of_not_le hnear
      split
      next henough => exact ⟨_, _, rfl, .rampUp hup hnear henough⟩
      next hfew => exact ⟨_, _, rfl, .countUp hup hnear (UInt32.not_le.mp hfew)⟩
  next hup =>
    split
    next hdown =>
      split
      next hrecent => exact ⟨_, _, rfl, .cooling hdown hrecent⟩
      next hcooled =>
        have hcooled := Nat.le_of_not_lt hcooled
        split
        next henough =>
          have hpos : 1 ≤ gov.currentLevel := by omega
          rw [checkedSub_ok hpos]
          exact ⟨_, _, rfl, .rampDown hdown hcooled henough⟩
        next hfew => exact ⟨_, _, rfl, .countDown hdown hcooled (UInt32.not_le.mp hfew)⟩
    next hdown => exact ⟨_, _, rfl, .stay (by omega)⟩

variable {gov gov' : Governor K} {now : Instant} {target level : Nat}

/-- A transition to another level has entered it, going up to the target or down by one. -/
theorem Branch.changes (h : gov.Branch now target level gov') (hne : level ≠ gov.currentLevel) :
    gov' = gov.entering now ∧
      (gov.currentLevel < target ∧ level = target ∧
        (saturatingAdd gov.currentLevel 2 ≤ target ∨
          gov.config.hysteresisReadings ≤ gov.rampUpCount + 1) ∨
        target < gov.currentLevel ∧ level = gov.currentLevel - 1 ∧
        fromSecs gov.config.minLevelDurationSecs ≤ Instant.elapsed now gov.levelEnteredAt ∧
        gov.config.hysteresisReadings ≤ gov.hysteresisCount + 1) := by
  cases h with
  | jump hup hfar => exact ⟨rfl, .inl ⟨hup, rfl, .inl hfar⟩⟩
  | rampUp hup hnear henough => exact ⟨rfl, .inl ⟨hup, rfl, .inr henough⟩⟩
  | countUp => exact absurd rfl hne
  | cooling => exact absurd rfl hne
  | rampDown hdown hcooled henough => exact ⟨rfl, .inr ⟨hdown, rfl, hcooled, henough⟩⟩
  | countDown => exact absurd rfl hne
  | stay => exact absurd rfl hne

/-- A transition that stays has asked for no higher level, or for the next one too few times. -/
theorem Branch.stays (h : gov.Branch now target level gov') (heq : level = gov.currentLevel) :
    (gov.currentLevel < target → ¬ saturatingAdd gov.currentLevel 2 ≤ target ∧
      ¬ gov.config.hysteresisReadings ≤ gov.rampUpCount + 1) ∧
    (target < gov.currentLevel →
      fromSecs gov.config.minLevelDurationSecs ≤ Instant.elapsed now gov.levelEnteredAt →
      ¬ gov.config.hysteresisReadings ≤ gov.hysteresisCount + 1) := by
  cases h with
  | jump hup => exact absurd heq (Nat.ne_of_gt hup)
  | rampUp hup => exact absurd heq (Nat.ne_of_gt hup)
  | countUp hup hnear hfew =>
    exact ⟨fun _ => ⟨Nat.not_le.mpr hnear, UInt32.not_le.mpr hfew⟩, fun hdown => absurd hdown (Nat.lt_asymm hup)⟩
  | cooling hdown hrecent =>
    exact ⟨fun hup => absurd hdown (Nat.lt_asymm hup), fun _ hcool => absurd hrecent (Nat.not_lt.mpr hcool)⟩
  | rampDown hdown => exact absurd heq (by omega)
  | countDown hdown hcooled hfew =>
    exact ⟨fun hup => absurd hdown (Nat.lt_asymm hup), fun _ _ => UInt32.not_le.mpr hfew⟩
  | stay hsame =>
    exact ⟨fun hup => absurd hsame (Nat.ne_of_gt hup), fun hdown => absurd hsame (Nat.ne_of_lt hdown)⟩

/-- A transition leaves the entry time or sets it to now. -/
theorem Branch.levelEnteredAt (h : gov.Branch now target level gov') :
    gov'.levelEnteredAt = gov.levelEnteredAt ∨ gov'.levelEnteredAt = now := by
  cases h with
  | jump => exact .inr rfl
  | rampUp => exact .inr rfl
  | countUp => exact .inl rfl
  | cooling => exact .inl rfl
  | rampDown => exact .inr rfl
  | countDown => exact .inl rfl
  | stay => exact .inl rfl

/-- A governor that has noted a PSI sample. -/
def noted (gov : Governor K) (psi : PsiStats K) (ticks : UInt32) : Governor K :=
  { gov with lastPsi := some psi, stablePsiTicks := ticks }

/-- What a tick proposes comes from a branch of the transition for its target, taken after the
sample was noted. -/
theorem propose_branch [Average K] {psi : PsiStats K} (h : gov.propose now psi = .ok (level, gov')) :
    ∃ ticks, (gov.noted psi ticks).Branch now (gov.targetLevel psi) level gov' := by
  obtain ⟨ticks, hobs⟩ := gov.observePsiStability_eq psi
  obtain ⟨proposed, gov₁, hok, hbranch⟩ :=
    (gov.observePsiStability psi).computeTransition_branch now (gov.targetLevel psi)
  rw [hobs] at hok hbranch
  rw [propose, hobs] at h
  cases hok.symm.trans h
  exact ⟨ticks, hbranch⟩

end Governor

/-- A computed transition: what it was asked, and where the governor stood. -/
structure TransitionCall where
  now : Instant
  target : Nat
  currentLevel : Nat
  levelEnteredAt : Instant
  proposed : Nat

/-- The level goes up by the single-step branch. -/
def TransitionCall.RaisesOnce (c : TransitionCall) : Prop :=
  c.currentLevel < c.proposed ∧ c.target < saturatingAdd c.currentLevel 2

/-- The target is exactly one above the level. -/
def TransitionCall.OneAbove (c : TransitionCall) : Prop := c.target = c.currentLevel + 1

/-- The target is below the level, which was entered long enough ago. -/
def TransitionCall.CooledBelow (secs : Nat) (c : TransitionCall) : Prop :=
  c.target < c.currentLevel ∧ fromSecs secs ≤ Instant.elapsed c.now c.levelEnteredAt

/-- A transition for a target, or an applied profile. -/
inductive LevelStep where
  | compute (now : Instant) (target : Nat)
  | apply (now : Instant) (level : Nat)

/-- When a step computes a transition. -/
def LevelStep.computedAt : LevelStep → Option Instant
  | .compute now _ => some now
  | .apply .. => none

/-- A governor with the transitions it computed and the time of the last one. -/
structure CountedGovernor (K D : Type) where
  tier : GovernorTier K D
  clock : Instant
  calls : List TransitionCall

namespace CountedGovernor

variable {ε K D : Type}

/-- One step. -/
def step (fs : Sysfs ε D) (s : CountedGovernor K D) : LevelStep → Except Panic (CountedGovernor K D)
  | .compute now target => do
    let (proposed, governor) ← s.tier.governor.computeTransition now target
    .ok ⟨{ s.tier with governor := governor }, now, s.calls ++ [⟨now, target,
      s.tier.governor.currentLevel, s.tier.governor.levelEnteredAt, proposed⟩]⟩
  | .apply now level => do
    let tier ← s.tier.applyProfile fs now level
    .ok ⟨tier, s.clock, s.calls⟩

/-- A new governor, which has computed nothing. -/
def start (config : GovernorConfig K) (ksm : KsmController) (now : Instant) (state : GovernorState)
    (dir : D) : CountedGovernor K D :=
  ⟨.start config ksm now state dir, now, []⟩

/-- A sequence of steps. -/
def run (fs : Sysfs ε D) : CountedGovernor K D → List LevelStep → Except Panic (CountedGovernor K D) :=
  Run.tryRun (step fs)

/-- The transitions are computed in order, none before the clock. -/
def InOrder (clock : Instant) (steps : List LevelStep) : Prop :=
  (clock :: steps.filterMap LevelStep.computedAt).Pairwise (· ≤ ·)

instance (clock : Instant) (steps : List LevelStep) : Decidable (InOrder clock steps) :=
  inferInstanceAs (Decidable (List.Pairwise _ _))

/-- The number of readings a change takes. -/
def readings (config : GovernorConfig K) : Nat := max 1 config.hysteresisReadings.toNat

/-- The calls end with so many targets one above the level. -/
def EndsAbove (n : Nat) (calls : List TransitionCall) : Prop :=
  Log.EndsWith n TransitionCall.OneAbove calls

/-- The calls end with so many targets below a level that had cooled down. -/
def EndsBelow (config : GovernorConfig K) (n : Nat) (calls : List TransitionCall) : Prop :=
  Log.EndsWith n (TransitionCall.CooledBelow config.minLevelDurationSecs) calls

/-- A change takes that many consecutive calls of its direction, and no counter goes beyond. -/
structure Consecutive (config : GovernorConfig K) (s : CountedGovernor K D) : Prop where
  raises : Log.Throughout (fun before c => c.RaisesOnce →
    EndsAbove (readings config) (before ++ [c])) s.calls
  lowers : Log.Throughout (fun before c => c.proposed < c.currentLevel →
    EndsBelow config (readings config) (before ++ [c])) s.calls
  rampUpCount_le : s.tier.governor.rampUpCount.toNat ≤ readings config
  hysteresisCount_le : s.tier.governor.hysteresisCount.toNat ≤ readings config

/-- Each counter is short of a change and counts the last calls. -/
structure Counts (config : GovernorConfig K) (clock : Instant) (calls : List TransitionCall)
    (gov : Governor K) : Prop where
  rampUp_lt : gov.rampUpCount.toNat < readings config
  rampUp : EndsAbove gov.rampUpCount.toNat calls
  hysteresis_lt : gov.hysteresisCount.toNat < readings config
  hysteresis : EndsBelow config gov.hysteresisCount.toNat calls
  cooled : gov.hysteresisCount ≠ 0 →
    fromSecs config.minLevelDurationSecs ≤ Instant.elapsed clock gov.levelEnteredAt
  config_eq : gov.config = config

/-- A computed call changes the level by one only after enough calls of its direction. -/
structure CallConsecutive (config : GovernorConfig K) (before : List TransitionCall)
    (c : TransitionCall) : Prop where
  raises : c.RaisesOnce → EndsAbove (readings config) (before ++ [c])
  lowers : c.proposed < c.currentLevel → EndsBelow config (readings config) (before ++ [c])

variable {config : GovernorConfig K} {gov gov' : Governor K} {clock now : Instant}
  {calls : List TransitionCall}

theorem readings_pos (config : GovernorConfig K) : 0 < readings config :=
  lt_of_lt_of_le Nat.zero_lt_one (Nat.le_max_left _ _)

/-- A counter short of a change does not wrap. -/
theorem toNat_succ {n : UInt32} (h : n.toNat < readings config) : (n + 1).toNat = n.toNat + 1 := by
  have hlt := config.hysteresisReadings.toNat_lt
  have hone : n.toNat + 1 < 2 ^ 32 := by
    rw [readings] at h
    omega
  rw [UInt32.toNat_add, UInt32.toNat_one, Nat.mod_eq_of_lt hone]

/-- A counter that reaches the threshold has counted all the readings. -/
theorem succ_eq_readings {n : UInt32} (h : n.toNat < readings config)
    (henough : config.hysteresisReadings ≤ n + 1) : n.toNat + 1 = readings config := by
  have henough := UInt32.le_iff_toNat_le.mp henough
  rw [toNat_succ h] at henough
  rw [readings] at h ⊢
  omega

/-- A counter that stays below the threshold is still short of a change. -/
theorem succ_lt_readings {n : UInt32} (hfew : n + 1 < config.hysteresisReadings) : (n + 1).toNat < readings config :=
  lt_of_lt_of_le (UInt32.lt_iff_toNat_lt.mp hfew) (Nat.le_max_right _ _)

/-- A target above the level and below the next but one is the next. -/
theorem oneAbove_of_near {target current : Nat} (hup : current < target)
    (hnear : target < saturatingAdd current 2) : target = current + 1 := by
  rw [saturatingAdd] at hnear
  omega

/-- Time only adds to what has elapsed. -/
theorem elapsed_mono {earlier : Instant} (h : clock ≤ now) :
    Instant.elapsed clock earlier ≤ Instant.elapsed now earlier :=
  Int.toNat_le_toNat (Int.sub_le_sub_right h earlier)

/-- A governor with both counters reset counts nothing. -/
theorem Counts.reset (hconfig : gov.config = config) (hup : gov.rampUpCount = 0)
    (hdown : gov.hysteresisCount = 0) : Counts config clock calls gov where
  rampUp_lt := by rw [hup]; exact readings_pos config
  rampUp := by rw [hup]; exact Log.endsWith_zero _ _
  hysteresis_lt := by rw [hdown]; exact readings_pos config
  hysteresis := by rw [hdown]; exact Log.endsWith_zero _ _
  cooled := fun h => absurd hdown h
  config_eq := hconfig

/-- What a counter does to the calls: one more of the direction it counts. -/
theorem Counts.compute (h : Counts config clock calls gov) (hclock : clock ≤ now)
    {target proposed : Nat} (hbranch : gov.Branch now target proposed gov') :
    CallConsecutive config calls
      ⟨now, target, gov.currentLevel, gov.levelEnteredAt, proposed⟩ ∧
    Counts config now
      (calls ++ [⟨now, target, gov.currentLevel, gov.levelEnteredAt, proposed⟩]) gov' := by
  obtain ⟨hupLt, hup, hdownLt, hdown, hcooled, rfl⟩ := h
  cases hbranch with
  | jump habove hfar =>
    refine ⟨⟨fun hraise => absurd hraise.2 (Nat.not_lt.mpr hfar), fun hlower => ?_⟩,
      .reset rfl rfl rfl⟩
    exact absurd hlower (Nat.lt_asymm habove)
  | rampUp habove hnear henough =>
    refine ⟨⟨fun _ => ?_, fun hlower => absurd hlower (Nat.lt_asymm habove)⟩, .reset rfl rfl rfl⟩
    rw [← succ_eq_readings hupLt henough]
    exact hup.concat (oneAbove_of_near habove hnear)
  | countUp habove hnear hfew =>
    refine ⟨⟨fun hraise => absurd hraise.1 (lt_irrefl _), fun hlower => absurd hlower (lt_irrefl _)⟩, ?_⟩
    refine ⟨succ_lt_readings hfew, ?_, readings_pos _, Log.endsWith_zero _ _,
      fun hne => absurd rfl hne, rfl⟩
    rw [toNat_succ hupLt]
    exact hup.concat (oneAbove_of_near habove hnear)
  | cooling hbelow hrecent =>
    -- The first of the counted calls had cooled down, and the entry time is still the same.
    have hzero : gov.hysteresisCount = 0 := by
      by_contra hne
      exact absurd (le_trans (hcooled hne) (elapsed_mono hclock)) (Nat.not_le.mpr hrecent)
    exact ⟨⟨fun hraise => absurd hraise.1 (lt_irrefl _), fun hlower => absurd hlower (lt_irrefl _)⟩,
      .reset rfl rfl hzero⟩
  | rampDown hbelow hcool henough =>
    refine ⟨⟨fun hraise => ?_, fun _ => ?_⟩, .reset rfl rfl rfl⟩
    · exact absurd hraise.1 (Nat.not_lt.mpr (Nat.sub_le _ _))
    · rw [← succ_eq_readings hdownLt henough]
      exact hdown.concat ⟨hbelow, hcool⟩
  | countDown hbelow hcool hfew =>
    refine ⟨⟨fun hraise => absurd hraise.1 (lt_irrefl _), fun hlower => absurd hlower (lt_irrefl _)⟩, ?_⟩
    refine ⟨readings_pos _, Log.endsWith_zero _ _, succ_lt_readings hfew, ?_,
      fun _ => hcool, rfl⟩
    rw [toNat_succ hdownLt]
    exact hdown.concat ⟨hbelow, hcool⟩
  | stay hsame =>
    exact ⟨⟨fun hraise => absurd hraise.1 (lt_irrefl _), fun hlower => absurd hlower (lt_irrefl _)⟩,
      .reset rfl rfl rfl⟩

variable {fs : Sysfs ε D} {s s' : CountedGovernor K D}

/-- The counters, and every call so far. -/
structure Sound (config : GovernorConfig K) (s : CountedGovernor K D) : Prop where
  counts : Counts config s.clock s.calls s.tier.governor
  calls : Log.Throughout (CallConsecutive config) s.calls

/-- A step does not compute before the clock. -/
def AfterClock (s : CountedGovernor K D) (a : LevelStep) : Prop :=
  ∀ now ∈ a.computedAt, s.clock ≤ now

/-- A computed transition takes a branch, and is noted. -/
theorem step_compute_ok {target : Nat} (h : s.step fs (.compute now target) = .ok s') :
    ∃ proposed gov', s.tier.governor.Branch now target proposed gov' ∧
      s' = ⟨{ s.tier with governor := gov' }, now, s.calls ++ [⟨now, target,
        s.tier.governor.currentLevel, s.tier.governor.levelEnteredAt, proposed⟩]⟩ := by
  obtain ⟨proposed, gov', hok, hbranch⟩ := s.tier.governor.computeTransition_branch now target
  simp only [step, hok, bind, Except.bind] at h
  exact ⟨proposed, gov', hbranch, (Except.ok.inj h).symm⟩

/-- An applied profile sets the level and leaves the counters. -/
theorem step_apply_ok {level : Nat} (h : s.step fs (.apply now level) = .ok s') :
    s'.tier.governor = { s.tier.governor with currentLevel := level } ∧ s'.clock = s.clock ∧
      s'.calls = s.calls := by
  cases happly : s.tier.applyProfile fs now level with
  | error p => simp only [step, happly, bind, Except.bind] at h; cases h
  | ok tier =>
    obtain ⟨profile, -, rfl⟩ := GovernorTier.applyProfile_eq_ok happly
    simp only [step, happly, bind, Except.bind] at h
    cases h
    exact ⟨rfl, rfl, rfl⟩

/-- Every step keeps the counters and the calls sound. -/
theorem Sound.step (h : Sound config s) {a : LevelStep} (hclock : AfterClock s a)
    (hstep : s.step fs a = .ok s') : Sound config s' := by
  obtain ⟨hcounts, hcalls⟩ := h
  cases a with
  | compute now target =>
    obtain ⟨proposed, gov', hbranch, rfl⟩ := step_compute_ok hstep
    obtain ⟨hcall, hcounts'⟩ := hcounts.compute (hclock now rfl) hbranch
    exact ⟨hcounts', Log.throughout_concat.mpr ⟨hcalls, hcall⟩⟩
  | apply now level =>
    obtain ⟨hgov, hclock', hcalls'⟩ := step_apply_ok hstep
    refine ⟨?_, hcalls' ▸ hcalls⟩
    rw [hgov, hclock', hcalls']
    exact ⟨hcounts.rampUp_lt, hcounts.rampUp, hcounts.hysteresis_lt, hcounts.hysteresis,
      hcounts.cooled, hcounts.config_eq⟩

/-- In an ordered run no transition is computed before the clock. -/
theorem InOrder.along {steps : List LevelStep} (h : InOrder s.clock steps) :
    Run.TryAlong (step fs) AfterClock s steps := by
  induction steps generalizing s with
  | nil => trivial
  | cons a steps ih =>
    cases a with
    | compute now target =>
      obtain ⟨hclock, hrest⟩ := List.pairwise_cons.mp h
      refine ⟨fun _ hnow => Option.some.inj hnow ▸ hclock now (List.mem_cons_self ..), ?_⟩
      cases hstep : s.step fs (.compute now target) with
      | error p => trivial
      | ok s' =>
        obtain ⟨proposed, gov', -, rfl⟩ := step_compute_ok hstep
        exact ih hrest
    | apply now level =>
      refine ⟨fun _ hnow => absurd hnow (by simp [LevelStep.computedAt]), ?_⟩
      cases hstep : s.step fs (.apply now level) with
      | error p => trivial
      | ok s' =>
        obtain ⟨-, hclock, -⟩ := step_apply_ok hstep
        exact ih (hclock.symm ▸ h)

/-- In every ordered run a change is made of consecutive readings of its direction. -/
theorem consecutiveReadings (fs : Sysfs ε D) (config : GovernorConfig K) (ksm : KsmController)
    (now : Instant) (state : GovernorState) (dir : D) (steps : List LevelStep)
    (s : CountedGovernor K D) (horder : InOrder now steps)
    (hrun : (start config ksm now state dir).run fs steps = .ok s) : s.Consecutive config := by
  have hstart : Sound config (start config ksm now state dir) :=
    ⟨.reset rfl rfl rfl, Log.throughout_nil⟩
  have halong : Run.TryAlong (step fs) AfterClock (start config ksm now state dir) steps :=
    InOrder.along horder
  obtain ⟨hcounts, hcalls⟩ := halong.invariant (fun _ _ _ hs hc hstep => hs.step hc hstep) hstart hrun
  exact {
    raises := fun before c after heq => (hcalls before c after heq).raises
    lowers := fun before c after heq => (hcalls before c after heq).lowers
    rampUpCount_le := le_of_lt hcounts.rampUp_lt
    hysteresisCount_le := le_of_lt hcounts.hysteresis_lt }

/-- Two readings up to level 1, an emergency jump, and two readings down after the cooldown, with a
profile applied after each change. -/
def upAndDown : List LevelStep :=
  [.compute 1 1, .compute 2 1, .apply 2 1, .compute 3 5, .apply 3 5,
   .compute (fromSecs 4) 3, .compute (fromSecs 40) 3, .compute (fromSecs 42) 2]

/-- Its governor, which takes two readings for a change and half a minute before going down. -/
def upAndDownStart : CountedGovernor ℚ String :=
  start ⟨true, 5, 2, 2, 30, 0⟩ (.new 0) 0 (newSharedState 0) "1"

/-- The run raises, jumps and lowers the level, each change at the last of its readings. -/
theorem consecutiveReadings_apply : ∃ s, upAndDownStart.run GovernorTier.runFile upAndDown = .ok s ∧
    s.calls.map (fun c => (c.currentLevel, c.proposed)) =
      [(0, 0), (0, 1), (1, 5), (5, 5), (5, 5), (5, 4)] ∧
    s.Consecutive ⟨true, 5, 2, 2, 30, 0⟩ := by
  have hcalls : (upAndDownStart.run GovernorTier.runFile upAndDown).map
      (fun s => s.calls.map (fun c => (c.currentLevel, c.proposed))) =
      .ok [(0, 0), (0, 1), (1, 5), (5, 5), (5, 5), (5, 4)] := by decide +kernel
  cases hrun : upAndDownStart.run GovernorTier.runFile upAndDown with
  | error p => rw [hrun] at hcalls; cases hcalls
  | ok s =>
    rw [hrun] at hcalls
    exact ⟨s, rfl, Except.ok.inj hcalls, consecutiveReadings GovernorTier.runFile _ (.new 0) 0
      (newSharedState 0) "1" upAndDown s (by decide) hrun⟩

end CountedGovernor

end Animaksm.Daemon

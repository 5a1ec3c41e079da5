import Animaksm.Daemon.Governor

/-!
# Levels of a governor run

The level stays in the profile table, moves one step down at most, and never comes
back to 0, where KSM would be stopped. Each stage of a tick keeps a lower bound of
0 or 1 next to the upper bound, so that one step lemma serves both.
-/

namespace Animaksm.Daemon

open Animaksm.Common

/-- A proposed level between the current one and the target, at most one below the current one. -/
structure StepsTowards (current target proposed : Nat) : Prop where
  lower : min current target ≤ proposed
  upper : proposed ≤ max current target
  oneDown : current ≤ proposed + 1

/-- Every level from 1 to 5 has a profile, and it runs KSM. -/
theorem profiles_running {level : Nat} (h₁ : 1 ≤ level) (h₅ : level ≤ 5) :
    ∃ profile, profiles[level]? = some profile ∧ profile.run = 1 := by
  obtain rfl | rfl | rfl | rfl | rfl : level = 1 ∨ level = 2 ∨ level = 3 ∨ level = 4 ∨ level = 5 := by
    omega
  all_goals exact ⟨_, rfl, rfl⟩

/-- No pressure asks for a stop or for a level without a profile. -/
theorem pressureToLevel_mem (pressure : PressureLevel) :
    1 ≤ pressureToLevel pressure ∧ pressureToLevel pressure ≤ 5 := by
  cases pressure <;> decide

theorem checkedSub_ok {a b : Nat} (h : b ≤ a) : checkedSub a b = .ok (a - b) := if_pos h

namespace Governor

variable {K : Type}

/-- Noting a PSI sample touches the sample and its stability count only. -/
theorem observePsiStability_eq [Average K] (gov : Governor K) (psi : PsiStats K) :
    ∃ ticks, gov.observePsiStability psi =
      { gov with lastPsi := some psi, stablePsiTicks := ticks } := by
  unfold observePsiStability
  cases gov.lastPsi with
  | none => exact ⟨_, rfl⟩
  | some prev =>
    dsimp only
    split
    · exact ⟨_, rfl⟩
    · exact ⟨_, rfl⟩

/-- The level, the configuration and the controller of a governor have not changed, nor has its
scan baseline, but for a reset. -/
structure Unmoved (gov gov' : Governor K) : Prop where
  currentLevel : gov'.currentLevel = gov.currentLevel
  config : gov'.config = gov.config
  ksm : gov'.ksm = gov.ksm
  fullScansAtLevel : gov.fullScansAtLevel = 0 → gov'.fullScansAtLevel = 0

/-- A transition always returns a level on the way to its target, and leaves the current level. -/
theorem computeTransition_ok (gov : Governor K) (now : Instant) (target : Nat) :
    ∃ proposed gov', gov.computeTransition now target = .ok (proposed, gov') ∧
      StepsTowards gov.currentLevel target proposed ∧ Unmoved gov gov' := by
  have hstay : StepsTowards gov.currentLevel target gov.currentLevel :=
    ⟨by omega, by omega, by omega⟩
  unfold computeTransition
  split
  next hup =>
    have hreach : StepsTowards gov.currentLevel target target := ⟨by omega, by omega, by omega⟩
    dsimp only
    split
    · exact ⟨_, _, rfl, hreach, ⟨rfl, rfl, rfl, fun _ => rfl⟩⟩
    · split
      · exact ⟨_, _, rfl, hreach, ⟨rfl, rfl, rfl, fun _ => rfl⟩⟩
      · exact ⟨_, _, rfl, hstay, ⟨rfl, rfl, rfl, id⟩⟩
  next hup =>
    split
    next hdown =>
      dsimp only
      split
      · exact ⟨_, _, rfl, hstay, ⟨rfl, rfl, rfl, id⟩⟩
      · split
        · -- The level is above the target, hence not 0.
          have hpos : 1 ≤ gov.currentLevel := by omega
          rw [checkedSub_ok hpos]
          exact ⟨_, _, rfl, ⟨by omega, by omega, by omega⟩, ⟨rfl, rfl, rfl, fun _ => rfl⟩⟩
        · exact ⟨_, _, rfl, hstay, ⟨rfl, rfl, rfl, id⟩⟩
    next hdown => exact ⟨_, _, rfl, hstay, ⟨rfl, rfl, rfl, id⟩⟩

/-- What a tick proposes for its readings. -/
theorem propose_ok [Average K] (gov : Governor K) (now : Instant) (psi : PsiStats K) :
    ∃ proposed gov', gov.propose now psi = .ok (proposed, gov') ∧
      StepsTowards gov.currentLevel (gov.targetLevel psi) proposed ∧ Unmoved gov gov' := by
  obtain ⟨ticks, hobs⟩ := gov.observePsiStability_eq psi
  obtain ⟨proposed, gov', hok, hsteps, hunmoved⟩ :=
    (gov.observePsiStability psi).computeTransition_ok now (gov.targetLevel psi)
  rw [hobs] at hok hsteps hunmoved
  refine ⟨proposed, gov', by rw [propose, hobs]; exact hok, hsteps, ?_⟩
  exact ⟨hunmoved.currentLevel, hunmoved.config, hunmoved.ksm, hunmoved.fullScansAtLevel⟩

/-- A proposal other than the current level is a level that runs KSM. -/
theorem propose_running [Average K] {gov gov' : Governor K} {now : Instant} {psi : PsiStats K}
    {level : Nat} (h : gov.propose now psi = .ok (level, gov')) (h₅ : gov.currentLevel ≤ 5)
    (hne : level ≠ gov.currentLevel) : 1 ≤ level ∧ level ≤ 5 := by
  obtain ⟨proposed, gov'', hok, ⟨hmin, hmax, -⟩, -⟩ := gov.propose_ok now psi
  obtain ⟨hlo, hhi⟩ : 1 ≤ gov.targetLevel psi ∧ gov.targetLevel psi ≤ 5 :=
    pressureToLevel_mem (gov.pressure psi)
  cases hok.symm.trans h
  omega

end Governor

namespace GovernorTier

variable {ε K D : Type} {fs : Sysfs ε D} {P : D → Prop} {lo : Nat} {tier : GovernorTier K D}

/-- The level is at least `lo` and has a profile, and the directory has the property. -/
structure LevelSafe (P : D → Prop) (lo : Nat) (tier : GovernorTier K D) : Prop where
  lower : lo ≤ tier.governor.currentLevel
  upper : tier.governor.currentLevel ≤ 5
  kept : P tier.dir

/-- The writes of a profile that runs KSM do not stop it. -/
theorem writeProfile_keeps (hP : KsmController.KeptUnlessStopped fs P) (gov : Governor K)
    (now : Instant) {profile : KsmProfile} (hrun : profile.run = 1) {dir : D} (hdir : P dir) :
    P (writeProfile fs gov now profile dir) := by
  -- A validated write keeps the property for every parameter but `run`, and for `run` at 1.
  have hother : ∀ {param value dir}, param ≠ .run → P dir →
      P (gov.ksm.writeValidated fs now param value dir).2 :=
    fun hparam hd => hP.writeValidated gov.ksm now (fun h => absurd h hparam) hd
  have hstart : ∀ {dir}, P dir → P (gov.ksm.setRun fs now 1 dir).2 :=
    fun hd => hP.writeValidated gov.ksm now (fun _ => by decide) hd
  have hbias : P (gov.ksm.setMaxPageSharing fs now profile.maxPageSharing
      (gov.ksm.setSleepMillisecs fs now profile.sleepMillisecs dir).2).2 :=
    hother (by decide) (hother (by decide) hdir)
  have hstop : ¬(profile.run = 0 ∧ ¬gov.config.useAdvisor) := by omega
  have hrun' : profile.run ≠ 0 := by omega
  simp only [writeProfile, if_neg hstop, if_pos hrun']
  apply hstart
  split
  · exact hbias
  · exact hother (by decide) hbias

/-- Applying a level from 1 to 5 finds its profile and keeps KSM running. -/
theorem applyProfile_ok (hP : KsmController.KeptUnlessStopped fs P) (hlo : lo ≤ 1)
    (h : LevelSafe P lo tier) (now : Instant) {level : Nat} (h₁ : 1 ≤ level) (h₅ : level ≤ 5) :
    ∃ tier', tier.applyProfile fs now level = .ok tier' ∧ LevelSafe P lo tier' := by
  obtain ⟨profile, hprofile, hrun⟩ := profiles_running h₁ h₅
  refine ⟨_, by rw [applyProfile, hprofile], ?_⟩
  exact ⟨le_trans hlo h₁, h₅, writeProfile_keeps hP _ now hrun h.kept⟩

/-- Applying a proposal for a target from 1 to 5. -/
theorem applyTransition_ok (hP : KsmController.KeptUnlessStopped fs P) (hlo : lo ≤ 1)
    (h : LevelSafe P lo tier) (now : Instant) {target proposed : Nat} (h₁ : 1 ≤ target)
    (h₅ : target ≤ 5) (hsteps : StepsTowards tier.governor.currentLevel target proposed) :
    ∃ tier', tier.applyTransition fs now proposed = .ok tier' ∧ LevelSafe P lo tier' := by
  have hupper := h.upper
  obtain ⟨hmin, hmax, -⟩ := hsteps
  unfold applyTransition
  split
  next hne =>
    split
    · -- From level 0 a proposal that differs is positive; from a higher one both bounds are.
      have hpos : 1 ≤ proposed := by omega
      exact applyProfile_ok hP hlo h now hpos (by omega)
    · exact ⟨_, rfl, h⟩
  next heq => exact ⟨_, rfl, h⟩

/-- The profit back-off only leaves levels above 1. -/
theorem profitBackOff_ok (hP : KsmController.KeptUnlessStopped fs P) (hlo : lo ≤ 1)
    (h : LevelSafe P lo tier) (now : Instant) (ksmStats : KsmStats) :
    ∃ tier', tier.profitBackOff fs now ksmStats = .ok tier' ∧ LevelSafe P lo tier' := by
  have hupper := h.upper
  unfold profitBackOff
  split
  · split
    next hlevel =>
      rw [checkedSub_ok (by omega)]
      exact applyProfile_ok hP hlo h now (by omega) (by omega)
    next hlevel => exact ⟨_, rfl, h⟩
  · exact ⟨_, rfl, h⟩

/-- One tick succeeds and keeps the levels safe. -/
theorem tickWithReadings_ok [Average K] (hP : KsmController.KeptUnlessStopped fs P) (hlo : lo ≤ 1)
    (h : LevelSafe P lo tier) (tick : Tick K) :
    ∃ tier', tier.tickWithReadings fs tick = .ok tier' ∧ LevelSafe P lo tier' := by
  obtain ⟨proposed, gov, hpropose, hsteps, hlevel, -⟩ := tier.governor.propose_ok tick.now tick.psi
  obtain ⟨h₁, h₅⟩ := pressureToLevel_mem (tier.governor.pressure tick.psi)
  rw [← hlevel] at hsteps
  have hobserved : LevelSafe P lo { tier with governor := gov } :=
    ⟨by rw [hlevel]; exact h.lower, by rw [hlevel]; exact h.upper, h.kept⟩
  obtain ⟨tier₁, htransition, hs₁⟩ :=
    applyTransition_ok hP hlo hobserved tick.now h₁ h₅ hsteps
  obtain ⟨tier₂, hbackOff, hs₂⟩ := profitBackOff_ok hP hlo hs₁ tick.now tick.ksmStats
  refine ⟨tier₂.publish tick.now (tier.governor.pressure tick.psi) tick.ksmStats, ?_,
    ⟨hs₂.lower, hs₂.upper, hs₂.kept⟩⟩
  rw [tickWithReadings, hpropose]
  simp only [bind, Except.bind, htransition, hbackOff]

/-- A run of ticks succeeds and keeps the levels safe. -/
theorem runTicks_ok [Average K] (hP : KsmController.KeptUnlessStopped fs P) (hlo : lo ≤ 1)
    (h : LevelSafe P lo tier) (ticks : List (Tick K)) :
    ∃ tier', tier.runTicks fs ticks = .ok tier' ∧ LevelSafe P lo tier' :=
  Run.tryRun_invariant (fun _ tick hs => tickWithReadings_ok hP hlo hs tick) h ticks

/-- From a new governor, no run panics and every level has a profile; what the next tick proposes
lies on the way to its target; a run that has left level 0 does not come back to it, and no run
stops KSM. -/
theorem levelSafety [Average K] (fs : Sysfs ε D) (config : GovernorConfig K) (ksm : KsmController)
    (now : Instant) (state : GovernorState) (dir : D) (ticks : List (Tick K)) :
    ∃ tier, (start config ksm now state dir).runTicks fs ticks = .ok tier ∧
      tier.governor.currentLevel ≤ 5 ∧
      (∀ tick : Tick K, ∃ proposed gov,
        tier.governor.propose tick.now tick.psi = .ok (proposed, gov) ∧
        StepsTowards tier.governor.currentLevel (tier.governor.targetLevel tick.psi) proposed) ∧
      (∀ later, 1 ≤ tier.governor.currentLevel → ∃ tier',
        (start config ksm now state dir).runTicks fs (ticks ++ later) = .ok tier' ∧
        1 ≤ tier'.governor.currentLevel) ∧
      (∀ P, KsmController.KeptUnlessStopped fs P → P dir → P tier.dir) := by
  have hall : KsmController.KeptUnlessStopped fs (fun _ => True) := fun _ _ _ _ _ => trivial
  have hstart : ∀ {P : D → Prop}, P dir → LevelSafe P 0 (start config ksm now state dir) :=
    fun hdir => ⟨Nat.zero_le _, Nat.zero_le _, hdir⟩
  obtain ⟨tier, hrun, hsafe⟩ := runTicks_ok hall (Nat.zero_le 1) (hstart trivial) ticks
  refine ⟨tier, hrun, hsafe.upper, fun tick => ?_, fun later hlevel => ?_, fun P hP hdir => ?_⟩
  · obtain ⟨proposed, gov, hok, hsteps, -⟩ := tier.governor.propose_ok tick.now tick.psi
    exact ⟨proposed, gov, hok, hsteps⟩
  · obtain ⟨tier', hrun', hsafe'⟩ :=
      runTicks_ok hall (le_refl 1) ⟨hlevel, hsafe.upper, trivial⟩ later
    exact ⟨tier', (Run.tryRun_append_ok hrun later).trans hrun', hsafe'.lower⟩
  · obtain ⟨tier', hrun', hsafe'⟩ := runTicks_ok hP (Nat.zero_le 1) (hstart hdir) ticks
    cases hrun.symm.trans hrun'
    exact hsafe'.kept

/-- A KSM directory that holds the `run` file alone. -/
def runFile : Sysfs Unit String where
  write param value dir := (.ok (), if param = .run then value else dir)

/-- A governor without damping over `runFile`, after start-up. -/
def undamped : GovernorTier ℚ String :=
  start ⟨true, 5, 2, 1, 0, 0⟩ (.new 0) 0 (newSharedState 0) "1"

/-- A tick at critical pressure. -/
def criticalTick : Tick ℚ :=
  ⟨fromSecs 2, ⟨⟨80, 0, 0, 0⟩, ⟨60, 0, 0, 0⟩⟩, ⟨0, 0, 0⟩⟩

/-- After a critical tick every further run stays above level 0 and KSM runs. -/
theorem levelSafety_apply : ∃ tier, undamped.runTicks runFile [criticalTick] = .ok tier ∧
    (∀ later, ∃ tier', undamped.runTicks runFile ([criticalTick] ++ later) = .ok tier' ∧
      1 ≤ tier'.governor.currentLevel) ∧ tier.dir ≠ "0" := by
  obtain ⟨tier, hrun, -, -, hlater, hkept⟩ := levelSafety runFile ⟨true, 5, 2, 1, 0, 0⟩ (.new 0) 0
    (newSharedState 0) "1" [criticalTick]
  have hlevel : (undamped.runTicks runFile [criticalTick]).map (·.governor.currentLevel) = .ok 5 := by
    decide +kernel
  rw [show undamped.runTicks runFile [criticalTick] = .ok tier from hrun] at hlevel
  have hfive : tier.governor.currentLevel = 5 := Except.ok.inj hlevel
  refine ⟨tier, hrun, fun later => hlater later (by omega), hkept (· ≠ "0") ?_ (by decide)⟩
  intro param value dir hvalue hdir
  by_cases hparam : param = .run
  · simpa [runFile, hparam] using hvalue hparam
  · simpa [runFile, hparam] using hdir

end GovernorTier

end Animaksm.Daemon

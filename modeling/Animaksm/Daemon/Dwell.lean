import Animaksm.Daemon.Stabilization

/-!
# Time spent at a level

The cooldown before a step down is measured from an entry time that only the
transition sets. A deferred change moves it past the last change of the level, a
profit back-off leaves it before: a transition that steps down soon after a
back-off is the one that comes too early.
-/

namespace Animaksm.Daemon

open Animaksm.Common

/-- Every step down by the transition comes this long after the last change of the level. -/
def CooledDown (secs : Nat) (log : List Application) : Prop :=
  Log.Throughout (fun before b => b.path = .transition → b.target < b.source →
    ∀ a ∈ before.getLast?, (a.now + fromSecs secs : Int) ≤ b.now) log

namespace GovernorTier

variable {ε K D : Type} {fs : Sysfs ε D} {tier tier' : GovernorTier K D} {tick : Tick K}
  {log : List Application} {clock : Instant} {secs : Nat}

/-- The last change of the level lies before the clock, and before the entry time if it was the
transition's; every step down so far had cooled down. -/
structure Dwells (secs : Nat) (clock : Instant) (log : List Application) (tier : GovernorTier K D) :
    Prop where
  config : tier.governor.config.minLevelDurationSecs = secs
  past : ∀ a ∈ log.getLast?, a.now ≤ clock
  entered : ∀ a ∈ log.getLast?, a.path = .transition → a.now ≤ tier.governor.levelEnteredAt
  cooled : CooledDown secs log

/-- A level that changed by the entry time and before now has cooled down with it. -/
theorem add_le_of_entered {changed entered now : Int} {nanos : Nat} (hpast : changed ≤ now)
    (hentered : changed ≤ entered) (h : nanos ≤ Instant.elapsed now entered) :
    changed + nanos ≤ now := by
  rw [Instant.elapsed] at h
  omega

/-- A transition steps down after the cooldown, if it does not follow a back-off too soon. -/
theorem Dwells.transition [Average K] (h : Dwells secs clock log tier) (hclock : clock ≤ tick.now)
    (hback : tier.StepsDown tick → ∀ a ∈ log.getLast?, a.path = .backOff →
      (a.now + fromSecs tier.governor.config.minLevelDurationSecs : Int) ≤ tick.now)
    (hok : tier.transition fs tick = .ok tier') :
    Dwells secs tick.now (log ++ tier.transitionCalls tick) tier' := by
  obtain ⟨hconfig, hpast, hentered, hcooled⟩ := h
  obtain ⟨level, gov, hpropose, hunmoved, hcases⟩ := transition_cases hok
  obtain ⟨ticks, hbranch⟩ := Governor.propose_branch hpropose
  have hpast' : ∀ a ∈ log.getLast?, a.now ≤ tick.now := fun a ha => le_trans (hpast a ha) hclock
  rcases hcases with ⟨rfl, hcalls, -⟩ | ⟨hne, hgate, happly, hcalls⟩
  · rw [hcalls, List.append_nil]
    refine ⟨by rw [hunmoved.config]; exact hconfig, hpast', fun a ha hpath => ?_, hcooled⟩
    rcases hbranch.levelEnteredAt with heq | heq
    · exact heq ▸ hentered a ha hpath
    · exact heq ▸ hpast' a ha
  · obtain ⟨rfl, hdirection⟩ := hbranch.changes hne
    rw [hcalls]
    obtain ⟨profile, -, rfl⟩ := applyProfile_eq_ok happly
    have hlast : ∀ a ∈ (log ++ [tier.call .transition tick level]).getLast?, a.now = tick.now := by
      intro a ha
      rw [List.getLast?_concat] at ha
      cases ha
      rfl
    refine ⟨hconfig, fun a ha => le_of_eq (hlast a ha), fun a ha _ => le_of_eq (hlast a ha), ?_⟩
    refine Log.throughout_concat.mpr ⟨hcooled, fun _ hlower a ha => ?_⟩
    rcases hdirection with ⟨hup, rfl, -⟩ | ⟨hdown, -, hcool, henough⟩
    · exact absurd hlower (Nat.lt_asymm hup)
    · rw [← hconfig]
      cases hpath : a.path with
      | transition => exact add_le_of_entered (hpast' a ha) (hentered a ha hpath) hcool
      | backOff => exact hback ⟨hdown, hcool, henough, hgate⟩ a ha hpath

/-- The profit back-off changes the level now, and leaves the entry time. -/
theorem Dwells.profitBackOff (h : Dwells secs tick.now log tier)
    (hok : tier.profitBackOff fs tick.now tick.ksmStats = .ok tier') :
    Dwells secs tick.now (log ++ tier.backOffCalls tick) tier' := by
  obtain ⟨-, rfl, hcalls⟩ | ⟨hback, happly, hcalls⟩ := profitBackOff_cases hok
  · rw [hcalls, List.append_nil]
    exact h
  · rw [hcalls]
    obtain ⟨profile, -, rfl⟩ := applyProfile_eq_ok happly
    refine ⟨h.config, fun a ha => ?_, fun a ha hpath => ?_, ?_⟩
    · rw [List.getLast?_concat] at ha
      cases ha
      exact le_refl _
    · rw [List.getLast?_concat] at ha
      cases ha
      cases hpath
    · exact Log.throughout_concat.mpr ⟨h.cooled, fun hpath => Path.noConfusion hpath⟩

end GovernorTier

namespace Traced

variable {ε K D : Type}

/-- A tick that may step down does not follow a profit back-off by less than the cooldown. -/
def BackOffCooled [Average K] (t : Traced K D) (tick : Tick K) : Prop :=
  t.tier.StepsDown tick → ∀ a ∈ t.log.getLast?, a.path = .backOff →
    (a.now + fromSecs t.tier.governor.config.minLevelDurationSecs : Int) ≤ tick.now

instance [Average K] (t : Traced K D) (tick : Tick K) : Decidable (t.BackOffCooled tick) :=
  have : Decidable (∀ a ∈ t.log.getLast?, a.path = .backOff →
      (a.now + fromSecs t.tier.governor.config.minLevelDurationSecs : Int) ≤ tick.now) :=
    Option.decidableForallMem _
  inferInstanceAs (Decidable (_ → _))

/-- One tick at or after the clock. -/
theorem dwells_tick [Average K] {fs : Sysfs ε D} {t t' : Traced K D} {tk : Tick K} {secs : Nat}
    (h : t.tier.Dwells secs t.clock t.log) (hclock : t.clock ≤ tk.now) (hback : t.BackOffCooled tk)
    (hok : t.tick fs tk = .ok t') : t'.tier.Dwells secs t'.clock t'.log := by
  obtain ⟨tier₁, tier₂, htransition, hbackOff, rfl⟩ := tick_eq_ok hok
  have hdwells := (h.transition hclock hback htransition).profitBackOff hbackOff
  rw [← List.append_assoc]
  exact ⟨hdwells.config, hdwells.past, hdwells.entered, hdwells.cooled⟩

/-- In a run where no tick that may step down follows a profit back-off too soon, every step down by
the transition comes at least the minimum duration after the last change of the level. -/
theorem cooledDown [Average K] (fs : Sysfs ε D) (config : GovernorConfig K) (ksm : KsmController)
    (now : Instant) (state : GovernorState) (dir : D) (ticks : List (Tick K))
    (horder : InOrder now ticks)
    (hback : Run.TryAlong (tick fs) BackOffCooled (start config ksm now state dir) ticks) :
    ∃ t, (start config ksm now state dir).runTicks fs ticks = .ok t ∧
      CooledDown config.minLevelDurationSecs t.log := by
  have hstart : (start config ksm now state dir).tier.Dwells config.minLevelDurationSecs now [] :=
    ⟨rfl, fun a ha => absurd ha (Option.not_mem_none a),
      fun a ha => absurd ha (Option.not_mem_none a), Log.throughout_nil⟩
  obtain ⟨t, hrun⟩ := (start config ksm now state dir).runTicks_ok fs ticks (Nat.zero_le 5)
  have hdwells : t.tier.Dwells config.minLevelDurationSecs t.clock t.log :=
    Run.TryAlong.invariant (fun _ _ _ hs hC hok => dwells_tick hs hC.1 hC.2 hok) hstart
      (horder.along.and hback) hrun
  exact ⟨t, hrun, hdwells.cooled⟩

theorem cooledDown_apply : ∃ t, (start (K := ℚ) ⟨true, 5, 2, 1, 30, 0⟩ (.new 0) 0
    (newSharedState 0) "1").runTicks GovernorTier.runFile
      [criticalReading 2 0 0, criticalReading 40 11 (-1), calmTick 70] = .ok t ∧
    CooledDown 30 t.log :=
  cooledDown GovernorTier.runFile ⟨true, 5, 2, 1, 30, 0⟩ (.new 0) 0 (newSharedState 0) "1" _ (by decide)
    (by decide +kernel)

/-- Two seconds after the profit monitor lowered level 5 to level 4, a calm tick lowers it to level
3, since level 5 was entered long ago. -/
theorem not_cooledDown_of_backOff :
    InOrder 0 [criticalReading 2 0 0, criticalReading 40 11 (-1), calmTick 42] ∧
    ∃ t, (start (K := ℚ) ⟨true, 5, 2, 1, 30, 0⟩ (.new 0) 0 (newSharedState 0) "1").runTicks
      GovernorTier.runFile [criticalReading 2 0 0, criticalReading 40 11 (-1), calmTick 42] = .ok t ∧
      ¬ CooledDown 30 t.log := by
  refine ⟨by decide, ?_⟩
  obtain ⟨t, hrun⟩ := (start (K := ℚ) ⟨true, 5, 2, 1, 30, 0⟩ (.new 0) 0 (newSharedState 0)
    "1").runTicks_ok GovernorTier.runFile
      [criticalReading 2 0 0, criticalReading 40 11 (-1), calmTick 42] (Nat.zero_le 5)
  have hlog : ((start (K := ℚ) ⟨true, 5, 2, 1, 30, 0⟩ (.new 0) 0 (newSharedState 0) "1").runTicks
      GovernorTier.runFile [criticalReading 2 0 0, criticalReading 40 11 (-1), calmTick 42]).map log =
      .ok [⟨.transition, fromSecs 2, 0, 0, 5⟩, ⟨.backOff, fromSecs 40, 11, 5, 4⟩,
        ⟨.transition, fromSecs 42, 0, 4, 3⟩] := by
    decide +kernel
  rw [hrun] at hlog
  refine ⟨t, hrun, ?_⟩
  rw [show t.log = _ from Except.ok.inj hlog]
  intro h
  have hearly := h [⟨.transition, fromSecs 2, 0, 0, 5⟩, ⟨.backOff, fromSecs 40, 11, 5, 4⟩] _ [] rfl
    rfl (by decide) _ rfl
  exact absurd hearly (by decide)

end Traced

end Animaksm.Daemon

import Animaksm.Daemon.Hysteresis
import Animaksm.Daemon.Stabilization

/-!
# Deferred level changes

A proposed change enters its level in the counters before the stabilization gate
looks at it. Inside the window the level stays, so the tick after the window
starts with empty counters from a level it has apparently just entered.
-/

namespace Animaksm.Daemon

open Animaksm.Common

namespace Governor

variable {K : Type} {gov gov' : Governor K} {now : Instant} {target level : Nat}

/-- With empty counters a transition to another level is a jump or takes one reading. -/
theorem Branch.far_or_single (h : gov.Branch now target level gov') (hne : level ≠ gov.currentLevel)
    (hup : gov.rampUpCount = 0) (hdown : gov.hysteresisCount = 0) :
    saturatingAdd gov.currentLevel 2 ≤ target ∨ gov.config.hysteresisReadings ≤ 1 := by
  cases h with
  | jump _ hfar => exact .inl hfar
  | rampUp _ _ henough => exact .inr (by rw [hup] at henough; exact henough)
  | countUp => exact absurd rfl hne
  | cooling => exact absurd rfl hne
  | rampDown _ _ henough => exact .inr (by rw [hdown] at henough; exact henough)
  | countDown => exact absurd rfl hne
  | stay => exact absurd rfl hne

/-- A single reading goes up to the target. -/
theorem Branch.up (h : gov.Branch now target level gov') (hup : gov.currentLevel < target)
    (hreads : saturatingAdd gov.currentLevel 2 ≤ target ∨
      gov.config.hysteresisReadings ≤ gov.rampUpCount + 1) : level = target := by
  cases h with
  | jump => rfl
  | rampUp => rfl
  | countUp _ hnear hfew =>
    rcases hreads with hfar | henough
    · exact absurd hnear (Nat.not_lt.mpr hfar)
    · exact absurd hfew (UInt32.not_lt.mpr henough)
  | cooling hdown => exact absurd hup (Nat.lt_asymm hdown)
  | rampDown hdown => exact absurd hup (Nat.lt_asymm hdown)
  | countDown hdown => exact absurd hup (Nat.lt_asymm hdown)
  | stay hsame => exact absurd hup (hsame ▸ lt_irrefl _)

/-- A single reading goes down by one from a level that has cooled down. -/
theorem Branch.down (h : gov.Branch now target level gov') (hdown : target < gov.currentLevel)
    (hcooled : fromSecs gov.config.minLevelDurationSecs ≤ Instant.elapsed now gov.levelEnteredAt)
    (hreads : gov.config.hysteresisReadings ≤ gov.hysteresisCount + 1) :
    level = gov.currentLevel - 1 := by
  cases h with
  | jump hup => exact absurd hup (Nat.lt_asymm hdown)
  | rampUp hup => exact absurd hup (Nat.lt_asymm hdown)
  | countUp hup => exact absurd hup (Nat.lt_asymm hdown)
  | cooling _ hrecent => exact absurd hrecent (Nat.not_lt.mpr hcooled)
  | rampDown => rfl
  | countDown _ _ hfew => exact absurd hfew (UInt32.not_lt.mpr hreads)
  | stay hsame => exact absurd hdown (hsame ▸ lt_irrefl _)

end Governor

namespace GovernorTier

variable {ε K D : Type}

/-- A tick proposes a change inside the stabilization window, and its profit monitor is quiet. -/
structure Defers [Average K] (tier : GovernorTier K D) (tick : Tick K) (level : Nat)
    (governor : Governor K) : Prop where
  proposes : tier.governor.propose tick.now tick.psi = .ok (level, governor)
  changes : level ≠ tier.governor.currentLevel
  inWindow : Instant.elapsed tick.now tier.state.lastGovernorAction <
    fromSecs tier.governor.config.stabilizationSecs
  quiet : ¬ { tier with governor := governor }.BacksOff tick.ksmStats

/-- The entry time has not moved, and the next tick with the same target after the window applies
the change. -/
def Remembers [Average K] (fs : Sysfs ε D) (tier : GovernorTier K D) (tick : Tick K) (level : Nat)
    (tier' : GovernorTier K D) : Prop :=
  tier'.governor.levelEnteredAt = tier.governor.levelEnteredAt ∧
  ∀ next : Tick K, tick.now ≤ next.now →
    tier'.governor.targetLevel next.psi = tier.governor.targetLevel tick.psi →
    fromSecs tier'.governor.config.stabilizationSecs ≤
      Instant.elapsed next.now tier'.state.lastGovernorAction →
    ∃ tier'', tier'.transition fs next = .ok tier'' ∧ tier''.governor.currentLevel = level

variable {fs : Sysfs ε D} {tier tier' : GovernorTier K D} {level : Nat} {gov : Governor K}

/-- A quiet profit monitor changes nothing. -/
theorem profitBackOff_of_quiet {now : Instant} {ksmStats : KsmStats} (h : ¬ tier.BacksOff ksmStats) :
    tier.profitBackOff fs now ksmStats = .ok tier := by
  rw [profitBackOff_eq_carryOut, monitor_eq_ok, if_neg h]
  rfl

variable [Average K] {tick : Tick K}

/-- A deferred change has entered its level, above or below. -/
theorem Defers.entered (h : tier.Defers tick level gov) :
    ∃ ticks, gov = (tier.governor.entering tick.now).noted tick.psi ticks ∧
      (tier.governor.currentLevel < tier.governor.targetLevel tick.psi ∧
          level = tier.governor.targetLevel tick.psi ∨
        tier.governor.targetLevel tick.psi < tier.governor.currentLevel ∧
          level = tier.governor.currentLevel - 1 ∧
          fromSecs tier.governor.config.minLevelDurationSecs ≤
            Instant.elapsed tick.now tier.governor.levelEnteredAt ∧
          tier.governor.config.hysteresisReadings ≤ tier.governor.hysteresisCount + 1) := by
  obtain ⟨ticks, hbranch⟩ := Governor.propose_branch h.proposes
  obtain ⟨rfl, hdirection⟩ := hbranch.changes h.changes
  exact ⟨ticks, rfl, hdirection.imp_left fun hup => ⟨hup.1, hup.2.1⟩⟩

/-- A deferring tick publishes its observation and nothing else. -/
theorem Defers.tick_ok (h : tier.Defers tick level gov) (fs : Sysfs ε D) :
    tier.tickWithReadings fs tick = .ok ({ tier with governor := gov }.publish tick.now
      (tier.governor.pressure tick.psi) tick.ksmStats) := by
  obtain ⟨ticks, hgov, -⟩ := h.entered
  have hlevel : gov.currentLevel = tier.governor.currentLevel := by rw [hgov]; rfl
  have hconfig : gov.config = tier.governor.config := by rw [hgov]; rfl
  have hdefer : { tier with governor := gov }.applyTransition fs tick.now level =
      .ok { tier with governor := gov } := by
    unfold applyTransition
    rw [if_pos (by rw [hlevel]; exact h.changes),
      if_neg (by rw [hconfig]; exact Nat.not_le.mpr h.inWindow)]
  rw [tickWithReadings, h.proposes]
  simp only [bind, Except.bind, hdefer, profitBackOff_of_quiet h.quiet]

/-- A transition that comes to another level has applied it. -/
theorem transition_changes (h : tier.transition fs tick = .ok tier')
    (hne : tier'.governor.currentLevel ≠ tier.governor.currentLevel) :
    ∃ gov, tier.governor.propose tick.now tick.psi = .ok (tier'.governor.currentLevel, gov) ∧
      tier'.governor.currentLevel ≤ 5 := by
  obtain ⟨proposed, gov, hpropose, hunmoved, ⟨rfl, -⟩ | ⟨-, -, happly, -⟩⟩ := transition_cases h
  · exact absurd hunmoved.currentLevel hne
  · obtain ⟨profile, hprofile, rfl⟩ := applyProfile_eq_ok happly
    refine ⟨gov, hpropose, ?_⟩
    exact Nat.le_of_lt_succ (List.getElem?_eq_some_iff.mp hprofile).1

/-- Outside the window a proposed level with a profile is applied. -/
theorem transition_applies (hpropose : tier.governor.propose tick.now tick.psi = .ok (level, gov))
    (hne : level ≠ tier.governor.currentLevel) (h₅ : level ≤ 5)
    (hgate : fromSecs tier.governor.config.stabilizationSecs ≤
      Instant.elapsed tick.now tier.state.lastGovernorAction) :
    ∃ tier', tier.transition fs tick = .ok tier' ∧ tier'.governor.currentLevel = level := by
  obtain ⟨proposed, gov', hok, -, hunmoved⟩ := tier.governor.propose_ok tick.now tick.psi
  cases hok.symm.trans hpropose
  have hprofile : profiles[level]? = some (profiles.get ⟨level, Nat.lt_succ_of_le h₅⟩) :=
    List.getElem?_eq_getElem _
  have happly : { tier with governor := gov }.applyProfile fs tick.now level = .ok
      { governor := { gov with currentLevel := level }
        state := { tier.state with lastGovernorAction := tick.now, lastGlobalAction := tick.now }
        dir := writeProfile fs gov tick.now (profiles.get ⟨level, Nat.lt_succ_of_le h₅⟩) tier.dir } := by
    rw [applyProfile, hprofile]
  refine ⟨_, Eq.trans ?_ happly, rfl⟩
  rw [transition, hpropose]
  simp only [bind, Except.bind]
  rw [applyTransition, if_pos (by rw [hunmoved.currentLevel]; exact hne),
    if_pos (by rw [hunmoved.config]; exact hgate)]

/-- After a deferral a tick at or past the end of the window, with the same readings. -/
def retry (tier : GovernorTier K D) (tick : Tick K) : Tick K :=
  { tick with now := max tick.now (tier.state.lastGovernorAction +
      fromSecs tier.governor.config.stabilizationSecs : Int) }

omit [Average K] in
theorem retry_gate : fromSecs tier.governor.config.stabilizationSecs ≤
    Instant.elapsed (tier.retry tick).now tier.state.lastGovernorAction := by
  have hlast := Int.le_max_right tick.now (tier.state.lastGovernorAction +
    fromSecs tier.governor.config.stabilizationSecs : Int)
  change fromSecs tier.governor.config.stabilizationSecs ≤
    (max tick.now _ - tier.state.lastGovernorAction : Int).toNat
  omega

/-- A deferred change is remembered by a tick at the very instant at which the level was entered,
for an emergency jump or a single reading, exactly. -/
theorem deferredChange (fs : Sysfs ε D) (tier : GovernorTier K D) (tick : Tick K) (level : Nat)
    (gov : Governor K) (h : tier.Defers tick level gov) :
    ∃ tier', tier.tickWithReadings fs tick = .ok tier' ∧
      (Remembers fs tier tick level tier' ↔
        tick.now = tier.governor.levelEnteredAt ∧
        (saturatingAdd tier.governor.currentLevel 2 ≤ tier.governor.targetLevel tick.psi ∨
          tier.governor.config.hysteresisReadings ≤ 1) ∧
        tier.governor.currentLevel ≤ 6) := by
  refine ⟨_, h.tick_ok fs, ?_⟩
  obtain ⟨ticks, rfl, hdirection⟩ := h.entered
  obtain ⟨-, htarget⟩ := pressureToLevel_mem (tier.governor.pressure tick.psi)
  constructor
  · rintro ⟨hentered, hnext⟩
    obtain ⟨tier'', htransition, rfl⟩ :=
      hnext (tier.retry tick) (Int.le_max_left _ _) rfl retry_gate
    obtain ⟨gov, hpropose, hfive⟩ := transition_changes htransition h.changes
    obtain ⟨ticks₂, hbranch⟩ := Governor.propose_branch hpropose
    refine ⟨hentered, hbranch.far_or_single h.changes rfl rfl, ?_⟩
    rcases hdirection with ⟨hup, -⟩ | ⟨-, hlevel, -⟩
    · exact le_trans (le_of_lt hup) (le_trans htarget (by decide))
    · omega
  · rintro ⟨hentered, hreads, hsix⟩
    refine ⟨hentered, fun next hnow hsame hgate => ?_⟩
    obtain ⟨proposed, gov, hpropose, -⟩ :=
      ((tier.governor.entering tick.now).noted tick.psi ticks).propose_ok next.now next.psi
    obtain ⟨ticks₂, hbranch⟩ := Governor.propose_branch hpropose
    change ((tier.governor.entering tick.now).noted tick.psi ticks).targetLevel next.psi =
      tier.governor.targetLevel tick.psi at hsame
    rw [hsame] at hbranch
    have hproposed : proposed = level ∧ level ≤ 5 := by
      rcases hdirection with ⟨hup, hlevel⟩ | ⟨hdown, hlevel, hcooled, -⟩
      · exact ⟨hlevel ▸ hbranch.up hup hreads, hlevel ▸ htarget⟩
      · -- The level had cooled down in no time, so it has again.
        have hzero : Instant.elapsed tick.now tier.governor.levelEnteredAt = 0 := by
          rw [hentered, Instant.elapsed, Int.sub_self, Int.toNat_zero]
        have hcooled' : fromSecs tier.governor.config.minLevelDurationSecs ≤
            Instant.elapsed next.now tick.now := le_trans hcooled (hzero ▸ Nat.zero_le _)
        -- A jump cannot be far to a target below.
        have hsingle : tier.governor.config.hysteresisReadings ≤ 1 :=
          hreads.resolve_left (by rw [saturatingAdd]; omega)
        exact ⟨hlevel ▸ hbranch.down hdown hcooled' hsingle, by omega⟩
    obtain ⟨rfl, hfive⟩ := hproposed
    exact transition_applies hpropose h.changes hfive hgate

/-- A new governor remembers the jump that its first tick, taken at once, defers. -/
theorem deferredChange_apply : ∃ tier',
    (start ⟨true, 5, 2, 4, 30, 30⟩ (.new 0) 0 (newSharedState 0) "1").tickWithReadings runFile
      (Traced.criticalReading 0 0 0) = .ok tier' ∧
    Remembers runFile (start ⟨true, 5, 2, 4, 30, 30⟩ (.new 0) 0 (newSharedState 0) "1")
      (Traced.criticalReading 0 0 0) 5 tier' := by
  obtain ⟨tier', hok, hiff⟩ := deferredChange runFile
    (start ⟨true, 5, 2, 4, 30, 30⟩ (.new 0) 0 (newSharedState 0) "1") (Traced.criticalReading 0 0 0) 5
    ((Governor.new ⟨true, 5, 2, 4, 30, 30⟩ (.new 0) 0).noted (Traced.criticalReading 0 0 0).psi 0)
    ⟨by decide +kernel, by decide, by decide, by decide⟩
  exact ⟨tier', hok, hiff.mpr (by decide +kernel)⟩

/-- A governor that changes at the first reading, after a jump to level 5. -/
def jumped : GovernorTier ℚ String where
  governor := {
    config := ⟨true, 5, 2, 1, 30, 60⟩
    ksm := .new 0
    currentLevel := 5
    hysteresisCount := 0
    rampUpCount := 0
    levelEnteredAt := fromSecs 61
    fullScansAtLevel := 0
    lastPsi := some (Traced.criticalReading 61 0 0).psi
    stablePsiTicks := 0 }
  state := { newSharedState 0 with
    currentPressure := .critical
    ksmLevel := 5
    lastAdjustment := fromSecs 61
    lastGlobalAction := fromSecs 61
    lastGovernorAction := fromSecs 61 }
  dir := "1"

/-- After the jump, a calm tick in the window defers the step to level 4 and enters it, so that the
calm tick at the end of the window finds the level in its cooldown. -/
theorem not_deferredChange :
    (start ⟨true, 5, 2, 1, 30, 60⟩ (.new 0) 0 (newSharedState 0) "1").runTicks runFile
      [Traced.criticalReading 61 0 0] = .ok jumped ∧
    ∃ gov tier', jumped.Defers (Traced.calmTick 95) 4 gov ∧
      jumped.tickWithReadings runFile (Traced.calmTick 95) = .ok tier' ∧
      tier'.governor.levelEnteredAt ≠ jumped.governor.levelEnteredAt ∧
      tier'.transition runFile (Traced.calmTick 121) = .ok { tier' with
        governor := { tier'.governor with stablePsiTicks := 1 } } ∧
      ¬ Remembers runFile jumped (Traced.calmTick 95) 4 tier' := by
  have hdefers : jumped.Defers (Traced.calmTick 95) 4
      ((jumped.governor.entering (fromSecs 95)).noted (Traced.calmTick 95).psi 0) :=
    ⟨by decide +kernel, by decide, by decide, by decide⟩
  refine ⟨by decide +kernel, _, _, hdefers, hdefers.tick_ok runFile, by decide, by decide +kernel, ?_⟩
  rintro ⟨hentered, -⟩
  exact absurd hentered (by decide)

end GovernorTier

end Animaksm.Daemon

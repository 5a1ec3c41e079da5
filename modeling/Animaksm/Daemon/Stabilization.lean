import Animaksm.Daemon.Hysteresis

/-!
# The stabilization window

Two applied profiles should lie at least the stabilization window apart. The
transition waits for the window, the profit back-off does not: a tick that backs
off inside the window breaks the spacing, and no other tick does. Whether one
will can be told before the tick, from its readings.
-/

namespace Animaksm.Daemon

open Animaksm.Common

namespace GovernorTier

variable {ε K D : Type} {fs : Sysfs ε D} {tier tier' : GovernorTier K D} {tick : Tick K}
  {log : List Application} {now : Instant} {secs : Nat}

/-- A tick asks for a higher level, far enough or often enough to enter it. -/
def Raises [Average K] (tier : GovernorTier K D) (tick : Tick K) : Prop :=
  tier.governor.currentLevel < tier.governor.targetLevel tick.psi ∧
  (saturatingAdd tier.governor.currentLevel 2 ≤ tier.governor.targetLevel tick.psi ∨
    tier.governor.config.hysteresisReadings ≤ tier.governor.rampUpCount + 1)

instance [Average K] (tier : GovernorTier K D) (tick : Tick K) : Decidable (tier.Raises tick) :=
  inferInstanceAs (Decidable (_ ∧ (_ ∨ _)))

/-- A tick asks for a lower level, and the cooldown, the readings and the window let it step down. -/
def StepsDown [Average K] (tier : GovernorTier K D) (tick : Tick K) : Prop :=
  tier.governor.targetLevel tick.psi < tier.governor.currentLevel ∧
  fromSecs tier.governor.config.minLevelDurationSecs ≤
    Instant.elapsed tick.now tier.governor.levelEnteredAt ∧
  tier.governor.config.hysteresisReadings ≤ tier.governor.hysteresisCount + 1 ∧
  fromSecs tier.governor.config.stabilizationSecs ≤
    Instant.elapsed tick.now tier.state.lastGovernorAction

instance [Average K] (tier : GovernorTier K D) (tick : Tick K) : Decidable (tier.StepsDown tick) :=
  inferInstanceAs (Decidable (_ ∧ _ ∧ _ ∧ _))

/-- A tick changes the level at the gate: after the window, up to its target or down by one. -/
def ChangesLevel [Average K] (tier : GovernorTier K D) (tick : Tick K) : Prop :=
  tier.WindowOver tick ∧ tier.Raises tick ∨ tier.StepsDown tick

instance [Average K] (tier : GovernorTier K D) (tick : Tick K) : Decidable (tier.ChangesLevel tick) :=
  inferInstanceAs (Decidable (_ ∧ _ ∨ _))

/-- A tick changes the level at the gate, to one that the profit monitor can lower. -/
def EntersAboveOne [Average K] (tier : GovernorTier K D) (tick : Tick K) : Prop :=
  tier.WindowOver tick ∧ tier.Raises tick ∧ 1 < tier.governor.targetLevel tick.psi ∨
    tier.StepsDown tick ∧ 2 < tier.governor.currentLevel

instance [Average K] (tier : GovernorTier K D) (tick : Tick K) :
    Decidable (tier.EntersAboveOne tick) :=
  inferInstanceAs (Decidable (_ ∧ _ ∧ _ ∨ _ ∧ _))

/-- What the gate does can be told before the tick: it keeps the level, or applies the level that
the readings lead to. -/
theorem gate_cases [Average K] (hok : tier.transition fs tick = .ok tier') :
    ∃ gov, tier.governor.Unmoved gov ∧
      (¬ tier.ChangesLevel tick ∧ tier' = { tier with governor := gov } ∧
          tier.transitionCalls tick = [] ∨
        ∃ level, tier.WindowOver tick ∧ level ≠ tier.governor.currentLevel ∧
          (tier.Raises tick ∧ level = tier.governor.targetLevel tick.psi ∨
            tier.StepsDown tick ∧ level = tier.governor.currentLevel - 1) ∧
          { tier with governor := gov }.applyProfile fs tick.now level = .ok tier' ∧
          tier.transitionCalls tick = [tier.call .transition tick level]) := by
  obtain ⟨level, gov, hpropose, hunmoved, hcases⟩ := transition_cases hok
  obtain ⟨ticks, hbranch⟩ := Governor.propose_branch hpropose
  refine ⟨gov, hunmoved, ?_⟩
  rcases hcases with ⟨rfl, hcalls, hstays⟩ | ⟨hne, hover, happly, hcalls⟩
  · refine .inl ⟨?_, rfl, hcalls⟩
    rintro (⟨hover, hup, henough⟩ | ⟨hdown, hcool, henough, hover⟩)
    · obtain ⟨hnear, hfew⟩ := (hbranch.stays (hstays hover)).1 hup
      exact henough.elim hnear hfew
    · exact (hbranch.stays (hstays hover)).2 hdown hcool henough
  · refine .inr ⟨level, hover, hne, ?_, happly, hcalls⟩
    obtain ⟨-, ⟨hup, htarget, henough⟩ | ⟨hdown, hlevel, hcool, henough⟩⟩ := hbranch.changes hne
    · exact .inl ⟨⟨hup, henough⟩, htarget⟩
    · exact .inr ⟨⟨hdown, hcool, henough, hover⟩, hlevel⟩

/-- A level above 1 that the gate applies was told before the tick. -/
theorem entersAboveOne_of_gate [Average K] {level : Nat} (hover : tier.WindowOver tick)
    (hdirection : tier.Raises tick ∧ level = tier.governor.targetLevel tick.psi ∨
      tier.StepsDown tick ∧ level = tier.governor.currentLevel - 1)
    (hlevel : 1 < level) : tier.EntersAboveOne tick := by
  rcases hdirection with ⟨hraises, rfl⟩ | ⟨hdown, rfl⟩
  · exact .inl ⟨hover, hraises, hlevel⟩
  · exact .inr ⟨hdown, by omega⟩

/-- The profiles applied up to now are spaced, and the last one left its time in the state. The scan
baseline is 0. -/
structure Spaced (secs : Nat) (now : Instant) (log : List Application) (tier : GovernorTier K D) :
    Prop where
  config : tier.governor.config.stabilizationSecs = secs
  baseline : tier.governor.fullScansAtLevel = 0
  spaced : log.Pairwise fun a b => (a.now + fromSecs secs : Int) ≤ b.now
  acted : ∀ a ∈ log, a.now ≤ tier.state.lastGovernorAction
  past : log ≠ [] → tier.state.lastGovernorAction ≤ now

theorem Spaced.later (h : Spaced secs now log tier) {later : Instant} (hle : now ≤ later) :
    Spaced secs later log tier :=
  ⟨h.config, h.baseline, h.spaced, h.acted, fun hlog => le_trans (h.past hlog) hle⟩

/-- The observation of a tick keeps the spacing. -/
theorem Spaced.observed (h : Spaced secs now log tier) {gov : Governor K}
    (hunmoved : tier.governor.Unmoved gov) : Spaced secs now log { tier with governor := gov } :=
  ⟨by rw [hunmoved.config]; exact h.config, hunmoved.fullScansAtLevel h.baseline, h.spaced, h.acted,
    h.past⟩

/-- An application outside the window keeps the spacing. -/
theorem Spaced.apply (h : Spaced secs now log tier) {level : Nat} {a : Application} (ha : a.now = now)
    (hgate : fromSecs secs ≤ Instant.elapsed now tier.state.lastGovernorAction)
    (happly : tier.applyProfile fs now level = .ok tier') : Spaced secs now (log ++ [a]) tier' := by
  obtain ⟨profile, -, rfl⟩ := applyProfile_eq_ok happly
  have hbefore : ∀ b ∈ log, (b.now + fromSecs secs : Int) ≤ now := fun b hb =>
    le_trans (Int.add_le_add_right (h.acted b hb) _)
      (Instant.add_le_of_le_elapsed (h.past (List.ne_nil_of_mem hb)) hgate)
  refine ⟨h.config, h.baseline, ?_, ?_, fun _ => le_refl now⟩
  · refine List.pairwise_append.mpr ⟨h.spaced, List.pairwise_singleton .., fun b hb c hc => ?_⟩
    rw [List.mem_singleton.mp hc, ha]
    exact hbefore b hb
  · intro b hb
    rcases List.mem_append.mp hb with hb | hb
    · exact le_trans (Int.le_add_of_nonneg_right (Int.natCast_nonneg _)) (hbefore b hb)
    · rw [List.mem_singleton.mp hb, ha]

/-- The transition waits for the window. -/
theorem Spaced.transition [Average K] (h : Spaced secs tick.now log tier)
    (hok : tier.transition fs tick = .ok tier') :
    Spaced secs tick.now (log ++ tier.transitionCalls tick) tier' := by
  obtain ⟨gov, hunmoved, ⟨-, rfl, hcalls⟩ | ⟨level, hover, -, -, happly, hcalls⟩⟩ := gate_cases hok
  · rw [hcalls, List.append_nil]
    exact h.observed hunmoved
  · rw [hcalls]
    rw [WindowOver, h.config] at hover
    exact (h.observed hunmoved).apply rfl hover happly

/-- The profit back-off keeps the spacing where it steps down outside the window. -/
theorem Spaced.profitBackOff (h : Spaced secs tick.now log tier)
    (hgate : tier.BacksOff tick.ksmStats → tier.WindowOver tick)
    (hok : tier.profitBackOff fs tick.now tick.ksmStats = .ok tier') :
    Spaced secs tick.now (log ++ tier.backOffCalls tick) tier' := by
  obtain ⟨-, rfl, hcalls⟩ | ⟨hback, happly, hcalls⟩ := profitBackOff_cases hok
  · rw [hcalls, List.append_nil]
    exact h
  · rw [hcalls]
    have hover := hgate hback
    rw [WindowOver, h.config] at hover
    exact h.apply rfl hover happly

end GovernorTier

namespace Traced

variable {ε K D : Type}

/-- A tick that reads a loss after ten full scans does not change the level to one above 1, unless
the window has no length, and finds a level above 1 only after the window. -/
def LossOutsideWindow [Average K] (t : Traced K D) (tick : Tick K) : Prop :=
  tick.ksmStats.generalProfit < 0 → 10 < tick.ksmStats.fullScans →
    (t.tier.EntersAboveOne tick → t.tier.governor.config.stabilizationSecs = 0) ∧
    (1 < t.tier.governor.currentLevel → t.tier.WindowOver tick)

instance [Average K] (t : Traced K D) (tick : Tick K) : Decidable (t.LossOutsideWindow tick) :=
  inferInstanceAs (Decidable (_ → _ → _ ∧ _))

/-- A loss outside the window leaves the profit monitor nothing to do inside it. -/
theorem LossOutsideWindow.windowOver [Average K] {fs : Sysfs ε D} {t : Traced K D} {tk : Tick K}
    {tier : GovernorTier K D} (h : t.LossOutsideWindow tk)
    (hbaseline : t.tier.governor.fullScansAtLevel = 0) (hok : t.tier.transition fs tk = .ok tier)
    (hback : tier.BacksOff tk.ksmStats) : tier.WindowOver tk := by
  obtain ⟨hlevel, hloss, hscans⟩ := hback
  obtain ⟨gov, hunmoved, ⟨-, rfl, -⟩ | ⟨level, hover, -, hdirection, happly, -⟩⟩ :=
    GovernorTier.gate_cases hok
  · rw [hunmoved.fullScansAtLevel hbaseline] at hscans
    rw [hunmoved.currentLevel] at hlevel
    have hover := (h hloss (by omega)).2 hlevel
    rw [GovernorTier.WindowOver] at hover ⊢
    rw [hunmoved.config]
    exact hover
  · obtain ⟨profile, -, rfl⟩ := GovernorTier.applyProfile_eq_ok happly
    have hbase : gov.fullScansAtLevel = 0 := hunmoved.fullScansAtLevel hbaseline
    simp only [hbase] at hscans
    -- The level just applied is the one to lower, so the window must have no length.
    have hzero := (h hloss (by omega)).1 (GovernorTier.entersAboveOne_of_gate hover hdirection hlevel)
    rw [GovernorTier.WindowOver]
    simp only [hunmoved.config, hzero]
    exact Nat.zero_le _

/-- One tick at or after the clock keeps the spacing if its losses lie outside the window. -/
theorem spaced_tick [Average K] {fs : Sysfs ε D} {t t' : Traced K D} {tk : Tick K} {secs : Nat}
    (h : t.tier.Spaced secs t.clock t.log) (hclock : t.clock ≤ tk.now)
    (hloss : t.LossOutsideWindow tk) (hok : t.tick fs tk = .ok t') :
    t'.tier.Spaced secs t'.clock t'.log := by
  obtain ⟨tier₁, tier₂, htransition, hbackOff, rfl⟩ := tick_eq_ok hok
  have hspaced := ((h.later hclock).transition htransition).profitBackOff
    (hloss.windowOver h.baseline htransition) hbackOff
  rw [← List.append_assoc]
  exact ⟨hspaced.config, hspaced.baseline, hspaced.spaced, hspaced.acted, hspaced.past⟩

/-- In a run whose losses after ten full scans lie outside the window, any two applied profiles are
at least the stabilization window apart. -/
theorem stabilized [Average K] (fs : Sysfs ε D) (config : GovernorConfig K) (ksm : KsmController)
    (now : Instant) (state : GovernorState) (dir : D) (ticks : List (Tick K))
    (horder : InOrder now ticks)
    (hloss : Run.TryAlong (tick fs) LossOutsideWindow (start config ksm now state dir) ticks) :
    ∃ t, (start config ksm now state dir).runTicks fs ticks = .ok t ∧
      t.log.Pairwise fun a b => (a.now + fromSecs config.stabilizationSecs : Int) ≤ b.now := by
  have hstart : (start config ksm now state dir).tier.Spaced config.stabilizationSecs now [] :=
    ⟨rfl, rfl, List.Pairwise.nil, fun a ha => absurd ha List.not_mem_nil, fun h => absurd rfl h⟩
  obtain ⟨t, hrun⟩ := (start config ksm now state dir).runTicks_ok fs ticks (Nat.zero_le 5)
  refine ⟨t, hrun, ?_⟩
  have hspaced : t.tier.Spaced config.stabilizationSecs t.clock t.log :=
    Run.TryAlong.invariant (fun _ _ _ hs hC hok => spaced_tick hs hC.1 hC.2 hok) hstart
      (horder.along.and hloss) hrun
  exact hspaced.spaced

/-- A tick without pressure. -/
def calmTick (secs : Nat) : Tick ℚ := ⟨fromSecs secs, ⟨⟨0, 0, 0, 0⟩, ⟨0, 0, 0, 0⟩⟩, ⟨0, 0, 0⟩⟩

/-- A tick at critical pressure, with this scan counter and profit. -/
def criticalReading (secs fullScans : Nat) (profit : Int) : Tick ℚ :=
  ⟨fromSecs secs, ⟨⟨80, 0, 0, 0⟩, ⟨60, 0, 0, 0⟩⟩, ⟨0, fullScans, profit⟩⟩

/-- The profit monitor lowers level 5 once the window is over. -/
theorem stabilized_apply : ∃ t, (start (K := ℚ) ⟨true, 5, 2, 1, 0, 30⟩ (.new 0) 0
    (newSharedState 0) "1").runTicks GovernorTier.runFile
      [criticalReading 40 0 0, calmTick 50, criticalReading 80 11 (-1)] = .ok t ∧
      t.log = [⟨.transition, fromSecs 40, 0, 0, 5⟩, ⟨.backOff, fromSecs 80, 11, 5, 4⟩] ∧
      t.log.Pairwise fun a b => (a.now + fromSecs 30 : Int) ≤ b.now := by
  obtain ⟨t, hrun, hspaced⟩ := stabilized GovernorTier.runFile ⟨true, 5, 2, 1, 0, 30⟩ (.new 0) 0
    (newSharedState 0) "1" [criticalReading 40 0 0, calmTick 50, criticalReading 80 11 (-1)] (by decide)
    (by decide +kernel)
  have hlog : ((start (K := ℚ) ⟨true, 5, 2, 1, 0, 30⟩ (.new 0) 0 (newSharedState 0) "1").runTicks
      GovernorTier.runFile [criticalReading 40 0 0, calmTick 50, criticalReading 80 11 (-1)]).map log =
      .ok [⟨.transition, fromSecs 40, 0, 0, 5⟩, ⟨.backOff, fromSecs 80, 11, 5, 4⟩] := by
    decide +kernel
  rw [hrun] at hlog
  exact ⟨t, hrun, Except.ok.inj hlog, hspaced⟩

/-- With negative profit after eleven full scans, one tick jumps to level 5 and backs off to 4. -/
theorem not_stabilized_of_backOff : InOrder 0 [criticalReading 40 11 (-1)] ∧
    ∃ t, (start (K := ℚ) ⟨true, 5, 2, 1, 0, 30⟩ (.new 0) 0 (newSharedState 0) "1").runTicks
      GovernorTier.runFile [criticalReading 40 11 (-1)] = .ok t ∧
      ¬ t.log.Pairwise fun a b => (a.now + fromSecs 30 : Int) ≤ b.now := by
  refine ⟨by decide, ?_⟩
  obtain ⟨t, hrun⟩ := (start (K := ℚ) ⟨true, 5, 2, 1, 0, 30⟩ (.new 0) 0 (newSharedState 0)
    "1").runTicks_ok GovernorTier.runFile [criticalReading 40 11 (-1)]
    (Nat.zero_le 5)
  have hlog : ((start (K := ℚ) ⟨true, 5, 2, 1, 0, 30⟩ (.new 0) 0 (newSharedState 0) "1").runTicks
      GovernorTier.runFile [criticalReading 40 11 (-1)]).map log =
      .ok [⟨.transition, fromSecs 40, 11, 0, 5⟩, ⟨.backOff, fromSecs 40, 11, 5, 4⟩] := by
    decide +kernel
  rw [hrun] at hlog
  refine ⟨t, hrun, ?_⟩
  rw [show t.log = _ from Except.ok.inj hlog]
  decide

end Traced

end Animaksm.Daemon

import Animaksm.Lib.Log
import Animaksm.Daemon.Stabilization

/-!
# The profit back-off

The profit monitor should lower a level only after more than ten full scans at
it. The baseline it compares the kernel's cumulative counter with is reset to 0
where a level is entered, never to the counter, so it fires as soon as profit is
negative after ten full scans since boot.
-/

namespace Animaksm.Daemon

open Animaksm.Common

/-- Each back-off leaves a level that was entered more than ten full scans before. -/
def BackOffsSustained (log : List Application) : Prop :=
  Log.Throughout (fun before b => b.path = .backOff →
    ∃ a ∈ before.getLast?, a.target = b.source ∧ a.fullScans + 10 < b.fullScans) log

namespace GovernorTier

variable {ε K D : Type} {fs : Sysfs ε D} {tier tier' : GovernorTier K D} {tick : Tick K}
  {log : List Application}

/-- The scan baseline is 0, the last application entered the current level, and every back-off up
to here was sustained. -/
structure Sustained (log : List Application) (tier : GovernorTier K D) : Prop where
  baseline : tier.governor.fullScansAtLevel = 0
  entered : 0 < tier.governor.currentLevel →
    ∃ a ∈ log.getLast?, a.target = tier.governor.currentLevel
  sustained : BackOffsSustained log

/-- The observation of a tick. -/
theorem Sustained.observed (h : Sustained log tier) {gov : Governor K}
    (hunmoved : tier.governor.Unmoved gov) : Sustained log { tier with governor := gov } := by
  refine ⟨hunmoved.fullScansAtLevel h.baseline, ?_, h.sustained⟩
  rw [hunmoved.currentLevel]
  exact h.entered

/-- An application enters its level. -/
theorem Sustained.apply (h : Sustained log tier) {a : Application} {level : Nat}
    (htarget : a.target = level)
    (hback : a.path = .backOff → ∃ b ∈ log.getLast?, b.target = a.source ∧ b.fullScans + 10 < a.fullScans)
    (happly : tier.applyProfile fs tick.now level = .ok tier') : Sustained (log ++ [a]) tier' := by
  obtain ⟨profile, -, rfl⟩ := applyProfile_eq_ok happly
  refine ⟨h.baseline, fun _ => ⟨a, ?_, htarget⟩, Log.throughout_concat.mpr ⟨h.sustained, hback⟩⟩
  rw [List.getLast?_concat]
  rfl

theorem Sustained.transition [Average K] (h : Sustained log tier)
    (hok : tier.transition fs tick = .ok tier') :
    Sustained (log ++ tier.transitionCalls tick) tier' := by
  obtain ⟨gov, hunmoved, ⟨-, rfl, hcalls⟩ | ⟨level, -, -, -, happly, hcalls⟩⟩ := gate_cases hok
  · rw [hcalls, List.append_nil]
    exact h.observed hunmoved
  · rw [hcalls]
    exact (h.observed hunmoved).apply rfl (fun hpath => Path.noConfusion hpath) happly

/-- The profit back-off is sustained where it comes more than ten full scans after the level was
entered. -/
theorem Sustained.profitBackOff (h : Sustained log tier)
    (hscans : tier.BacksOff tick.ksmStats →
      ∀ a ∈ log.getLast?, a.fullScans + 10 < tick.ksmStats.fullScans)
    (hok : tier.profitBackOff fs tick.now tick.ksmStats = .ok tier') :
    Sustained (log ++ tier.backOffCalls tick) tier' := by
  obtain ⟨-, rfl, hcalls⟩ | ⟨hback, happly, hcalls⟩ := profitBackOff_cases hok
  · rw [hcalls, List.append_nil]
    exact h
  · rw [hcalls]
    obtain ⟨a, ha, htarget⟩ := h.entered (lt_trans Nat.zero_lt_one hback.1)
    exact h.apply rfl (fun _ => ⟨a, ha, htarget, hscans hback a ha⟩) happly

end GovernorTier

namespace Traced

variable {ε K D : Type}

/-- A tick that reads a loss after ten full scans does not change the level to one above 1, and if
it leaves a level above 1 as it is, its counter is not in the gap between the ten scans that the
monitor asks for and those since the last change of the level. -/
def LossOutsideGap [Average K] (t : Traced K D) (tick : Tick K) : Prop :=
  tick.ksmStats.generalProfit < 0 → 10 < tick.ksmStats.fullScans →
    ¬ t.tier.EntersAboveOne tick ∧
    (¬ t.tier.ChangesLevel tick → 1 < t.tier.governor.currentLevel →
      ∀ a ∈ t.log.getLast?, a.fullScans + 10 < tick.ksmStats.fullScans)

instance [Average K] (t : Traced K D) (tick : Tick K) : Decidable (t.LossOutsideGap tick) :=
  have : Decidable (∀ a ∈ t.log.getLast?, a.fullScans + 10 < tick.ksmStats.fullScans) :=
    Option.decidableForallMem _
  inferInstanceAs (Decidable (_ → _ → _ ∧ (_ → _ → _)))

/-- A loss outside the gap leaves the profit monitor only levels that were entered more than ten
full scans before. -/
theorem LossOutsideGap.scanned [Average K] {fs : Sysfs ε D} {t : Traced K D} {tk : Tick K}
    {tier : GovernorTier K D} (h : t.LossOutsideGap tk)
    (hbaseline : t.tier.governor.fullScansAtLevel = 0) (hok : t.tier.transition fs tk = .ok tier)
    (hback : tier.BacksOff tk.ksmStats) :
    ∀ a ∈ (t.log ++ t.tier.transitionCalls tk).getLast?, a.fullScans + 10 < tk.ksmStats.fullScans := by
  obtain ⟨hlevel, hloss, hscans⟩ := hback
  obtain ⟨gov, hunmoved, ⟨hkept, rfl, hcalls⟩ | ⟨level, hover, -, hdirection, happly, -⟩⟩ :=
    GovernorTier.gate_cases hok
  · rw [hunmoved.fullScansAtLevel hbaseline] at hscans
    rw [hunmoved.currentLevel] at hlevel
    rw [hcalls, List.append_nil]
    exact (h hloss (by omega)).2 hkept hlevel
  · obtain ⟨profile, -, rfl⟩ := GovernorTier.applyProfile_eq_ok happly
    have hbase : gov.fullScansAtLevel = 0 := hunmoved.fullScansAtLevel hbaseline
    simp only [hbase] at hscans
    exact absurd (GovernorTier.entersAboveOne_of_gate hover hdirection hlevel) (h hloss (by omega)).1

/-- One tick. -/
theorem sustained_tick [Average K] {fs : Sysfs ε D} {t t' : Traced K D} {tk : Tick K}
    (h : t.tier.Sustained t.log) (hloss : t.LossOutsideGap tk)
    (hok : t.tick fs tk = .ok t') : t'.tier.Sustained t'.log := by
  obtain ⟨tier₁, tier₂, htransition, hbackOff, rfl⟩ := tick_eq_ok hok
  have hsustained := (h.transition htransition).profitBackOff
    (hloss.scanned h.baseline htransition) hbackOff
  rw [← List.append_assoc]
  exact ⟨hsustained.baseline, hsustained.entered, hsustained.sustained⟩

/-- In a run whose losses after ten full scans lie outside the gap, every back-off is sustained. -/
theorem backOffsSustained [Average K] (fs : Sysfs ε D) (config : GovernorConfig K)
    (ksm : KsmController) (now : Instant) (state : GovernorState) (dir : D) (ticks : List (Tick K))
    (hloss : Run.TryAlong (tick fs) LossOutsideGap (start config ksm now state dir) ticks) :
    ∃ t, (start config ksm now state dir).runTicks fs ticks = .ok t ∧ BackOffsSustained t.log := by
  obtain ⟨t, hrun⟩ := (start config ksm now state dir).runTicks_ok fs ticks (Nat.zero_le 5)
  have hstart : (start config ksm now state dir).tier.Sustained [] :=
    ⟨rfl, fun h => absurd h (lt_irrefl 0), Log.throughout_nil⟩
  have hsustained : t.tier.Sustained t.log :=
    hloss.invariant (fun _ _ _ hs hC hok => sustained_tick hs hC hok) hstart hrun
  exact ⟨t, hrun, hsustained.sustained⟩

/-- Eleven full scans after it was entered, level 5 is lowered. -/
theorem backOffsSustained_apply : ∃ t, (start (K := ℚ) ⟨true, 5, 2, 1, 0, 30⟩ (.new 0) 0
    (newSharedState 0) "1").runTicks GovernorTier.runFile
      [criticalReading 30 1000 0, criticalReading 32 1011 (-1)] = .ok t ∧
      t.log = [⟨.transition, fromSecs 30, 1000, 0, 5⟩, ⟨.backOff, fromSecs 32, 1011, 5, 4⟩] ∧
      BackOffsSustained t.log := by
  obtain ⟨t, hrun, hsustained⟩ := backOffsSustained GovernorTier.runFile ⟨true, 5, 2, 1, 0, 30⟩ (.new 0)
    0 (newSharedState 0) "1" [criticalReading 30 1000 0, criticalReading 32 1011 (-1)]
    (by decide +kernel)
  have hlog : ((start (K := ℚ) ⟨true, 5, 2, 1, 0, 30⟩ (.new 0) 0 (newSharedState 0) "1").runTicks
      GovernorTier.runFile [criticalReading 30 1000 0, criticalReading 32 1011 (-1)]).map log =
      .ok [⟨.transition, fromSecs 30, 1000, 0, 5⟩, ⟨.backOff, fromSecs 32, 1011, 5, 4⟩] := by
    decide +kernel
  rw [hrun] at hlog
  exact ⟨t, hrun, Except.ok.inj hlog, hsustained⟩

/-- The kernel has completed a thousand scans when the governor enters level 5, and no further one
when the profit monitor lowers it. -/
theorem not_backOffsSustained_of_scansSinceBoot :
    InOrder 0 [criticalReading 30 1000 0, criticalReading 32 1000 (-1)] ∧
    ∃ t, (start (K := ℚ) ⟨true, 5, 2, 1, 0, 30⟩ (.new 0) 0 (newSharedState 0) "1").runTicks
      GovernorTier.runFile [criticalReading 30 1000 0, criticalReading 32 1000 (-1)] = .ok t ∧
      ¬ BackOffsSustained t.log := by
  refine ⟨by decide, ?_⟩
  obtain ⟨t, hrun⟩ := (start (K := ℚ) ⟨true, 5, 2, 1, 0, 30⟩ (.new 0) 0 (newSharedState 0)
    "1").runTicks_ok GovernorTier.runFile [criticalReading 30 1000 0, criticalReading 32 1000 (-1)]
    (Nat.zero_le 5)
  have hlog : ((start (K := ℚ) ⟨true, 5, 2, 1, 0, 30⟩ (.new 0) 0 (newSharedState 0) "1").runTicks
      GovernorTier.runFile [criticalReading 30 1000 0, criticalReading 32 1000 (-1)]).map log =
      .ok [⟨.transition, fromSecs 30, 1000, 0, 5⟩, ⟨.backOff, fromSecs 32, 1000, 5, 4⟩] := by
    decide +kernel
  rw [hrun] at hlog
  refine ⟨t, hrun, ?_⟩
  rw [show t.log = _ from Except.ok.inj hlog]
  intro h
  obtain ⟨a, ha, -, hscans⟩ := h [⟨.transition, fromSecs 30, 1000, 0, 5⟩] _ [] rfl rfl
  cases ha
  exact absurd hscans (by decide)

end Traced

end Animaksm.Daemon

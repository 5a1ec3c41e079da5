import Mathlib.Data.Int.ConditionallyCompleteOrder
import Mathlib.Order.Filter.AtTopBot.Archimedean
import Animaksm.Lib.Progress
import Animaksm.Daemon.Hysteresis

/-!
# The level under a steady pressure

A run that never ends, whose times go beyond all bounds. Once the readings ask for one
level and show no loss, the distance to that level does not grow, so it settles, and
then no profile is applied any more. From then on the window is over and the entry
time stands still. A governor away from its target would count readings for ever.
-/

namespace Animaksm.Daemon

open Animaksm.Common Filter

namespace Governor

variable {K : Type} {gov gov' : Governor K} {now : Instant} {target : Nat}

/-- A transition that proposes the current level below its target counts a reading. -/
theorem Branch.counts_up (h : gov.Branch now target gov.currentLevel gov')
    (hup : gov.currentLevel < target) : gov'.rampUpCount = gov.rampUpCount + 1 ∧
      gov.rampUpCount + 1 < gov.config.hysteresisReadings := by
  generalize hlevel : gov.currentLevel = level at h
  cases h with
  | jump => omega
  | rampUp => omega
  | countUp _ _ hfew => exact ⟨rfl, hfew⟩
  | cooling hdown => omega
  | rampDown => omega
  | countDown hdown => omega
  | stay => omega

/-- A transition that proposes the current level above its target counts a reading, once the level
has cooled down. -/
theorem Branch.counts_down (h : gov.Branch now target gov.currentLevel gov')
    (hdown : target < gov.currentLevel)
    (hcooled : fromSecs gov.config.minLevelDurationSecs ≤ Instant.elapsed now gov.levelEnteredAt) :
    gov'.hysteresisCount = gov.hysteresisCount + 1 ∧
      gov.hysteresisCount + 1 < gov.config.hysteresisReadings := by
  generalize hlevel : gov.currentLevel = level at h
  cases h with
  | jump => omega
  | rampUp => omega
  | countUp => omega
  | cooling _ hrecent => exact absurd hrecent (Nat.not_lt.mpr hcooled)
  | rampDown => omega
  | countDown _ _ hfew => exact ⟨rfl, hfew⟩
  | stay => omega

/-- A transition that proposes the current level above its target leaves the entry time. -/
theorem Branch.keeps_entry (h : gov.Branch now target gov.currentLevel gov')
    (hdown : target < gov.currentLevel) : gov'.levelEnteredAt = gov.levelEnteredAt := by
  generalize hlevel : gov.currentLevel = level at h
  cases h with
  | jump => omega
  | rampUp => omega
  | countUp => rfl
  | cooling => rfl
  | rampDown => omega
  | countDown => rfl
  | stay => rfl

end Governor

namespace GovernorTier

variable {ε K D : Type} [Average K] {fs : Sysfs ε D} {tier tier' : GovernorTier K D} {tick : Tick K}

/-- A tick applies no profile: it leaves the governor of its proposal, and proposes the current
level once the window is over. -/
structure Rests (tick : Tick K) (tier tier' : GovernorTier K D) : Prop where
  proposes : ∃ level, tier.governor.propose tick.now tick.psi = .ok (level, tier'.governor) ∧
    (fromSecs tier.governor.config.stabilizationSecs ≤
      Instant.elapsed tick.now tier.state.lastGovernorAction → level = tier.governor.currentLevel)
  unmoved : tier.governor.Unmoved tier'.governor
  lastGovernorAction : tier'.state.lastGovernorAction = tier.state.lastGovernorAction
  dir : tier'.dir = tier.dir

/-- A tick without a loss rests, or comes to another level on the way to its target. -/
theorem tick_cases (h : tier.tickWithReadings fs tick = .ok tier')
    (hquiet : 0 ≤ tick.ksmStats.generalProfit) :
    tier'.governor.config = tier.governor.config ∧
    (Rests tick tier tier' ∨
      tier'.governor.currentLevel ≠ tier.governor.currentLevel ∧
        StepsTowards tier.governor.currentLevel (tier.governor.targetLevel tick.psi)
          tier'.governor.currentLevel) := by
  obtain ⟨tier₁, tier₂, htransition, hbackOff, rfl⟩ := tickWithReadings_eq_ok h
  have hnoLoss : ¬ tier₁.BacksOff tick.ksmStats := fun hback => absurd hback.2.1 (Int.not_lt.mpr hquiet)
  obtain ⟨-, rfl, -⟩ | ⟨hback, -⟩ := profitBackOff_cases hbackOff
  · obtain ⟨level, gov, hpropose, hunmoved, ⟨rfl, -, hstays⟩ | ⟨hne, -, happly, -⟩⟩ :=
      transition_cases htransition
    · exact ⟨hunmoved.config, .inl ⟨⟨level, hpropose, hstays⟩, hunmoved, rfl, rfl⟩⟩
    · obtain ⟨proposed, gov', hok, hsteps, -⟩ := tier.governor.propose_ok tick.now tick.psi
      cases hok.symm.trans hpropose
      obtain ⟨profile, -, rfl⟩ := applyProfile_eq_ok happly
      exact ⟨hunmoved.config, .inr ⟨hne, hsteps⟩⟩
  · exact absurd hback hnoLoss

/-- A tick keeps the configuration. -/
theorem config_tick (h : tier.tickWithReadings fs tick = .ok tier') :
    tier'.governor.config = tier.governor.config := by
  obtain ⟨tier₁, tier₂, htransition, hbackOff, rfl⟩ := tickWithReadings_eq_ok h
  have hfirst : tier₁.governor.config = tier.governor.config := by
    obtain ⟨level, gov, -, hunmoved, ⟨rfl, -⟩ | ⟨-, -, happly, -⟩⟩ := transition_cases htransition
    · exact hunmoved.config
    · obtain ⟨profile, -, rfl⟩ := applyProfile_eq_ok happly
      exact hunmoved.config
  obtain ⟨-, rfl, -⟩ | ⟨-, happly, -⟩ := profitBackOff_cases hbackOff
  · exact hfirst
  · obtain ⟨profile, -, rfl⟩ := applyProfile_eq_ok happly
    exact hfirst

/-! ## Runs without an end -/

/-- The times of the ticks go beyond all bounds, and from some tick on their readings ask for one
level and show no loss. -/
structure Steady (config : GovernorConfig K) (target : Nat) (ticks : ℕ → Tick K) : Prop where
  unbounded : Tendsto (fun n => (ticks n).now) atTop atTop
  target : ∀ᶠ n in atTop, pressureToLevel
    ((ticks n).psi.classify config.psiSomeThreshold config.psiFullThreshold) = target
  quiet : ∀ᶠ n in atTop, 0 ≤ (ticks n).ksmStats.generalProfit

theorem le_elapsed {now since : Int} {nanos : Nat} (h : since + nanos ≤ now) :
    nanos ≤ Instant.elapsed now since := by
  rw [Instant.elapsed]
  omega

/-- A tick finds a level and proposes it again under the target. -/
def StaysAt (target level : Nat) (tick : Tick K) (tier tier' : GovernorTier K D) : Prop :=
  tier.governor.currentLevel = level ∧ ∃ stable,
    (tier.governor.noted tick.psi stable).Branch tick.now target level tier'.governor

/-- How far the level is from a target. -/
def distance (target : Nat) (tier : GovernorTier K D) : Nat :=
  tier.governor.currentLevel - target + (target - tier.governor.currentLevel)

section

variable {config : GovernorConfig K} {target : Nat} {ticks : ℕ → Tick K}
  {tiers : ℕ → GovernorTier K D}

/-- Sooner or later a given time has passed since a given instant. -/
theorem Steady.eventually_elapsed (h : Steady config target ticks) (since : Instant) (nanos : Nat) :
    ∀ᶠ n in atTop, nanos ≤ Instant.elapsed (ticks n).now since :=
  (h.unbounded.eventually_ge_atTop (since + nanos : Int)).mono fun _ hn => le_elapsed hn

variable (hrun : ∀ n, (tiers n).tickWithReadings fs (ticks n) = .ok (tiers (n + 1)))
  (hconfig : (tiers 0).governor.config = config)

include hrun hconfig in
theorem config_run (n : ℕ) : (tiers n).governor.config = config := by
  induction n with
  | zero => exact hconfig
  | succ n ih => exact (config_tick (hrun n)).trans ih

include hrun hconfig in
/-- From some tick on, no profile is applied. -/
theorem eventually_rests (h : Steady config target ticks) :
    ∀ᶠ n in atTop, Rests (ticks n) (tiers n) (tiers (n + 1)) := by
  have hcases : ∀ᶠ n in atTop, Rests (ticks n) (tiers n) (tiers (n + 1)) ∨
      distance target (tiers (n + 1)) < distance target (tiers n) := by
    filter_upwards [h.target, h.quiet] with n htarget hquiet
    refine (tick_cases (hrun n) hquiet).2.imp_right fun ⟨hne, hlower, hupper, _⟩ => ?_
    have htarget' : (tiers n).governor.targetLevel (ticks n).psi = target := by
      rw [Governor.targetLevel, Governor.pressure, config_run hrun hconfig]
      exact htarget
    rw [htarget'] at hlower hupper
    unfold distance
    omega
  have hle : ∀ᶠ n in atTop, distance target (tiers (n + 1)) ≤ distance target (tiers n) :=
    hcases.mono fun n hn => hn.elim
      (fun hrests => le_of_eq (by rw [distance, distance, hrests.unmoved.currentLevel])) le_of_lt
  obtain ⟨rank, hrank⟩ : ∃ rank, ∀ᶠ n in atTop, distance target (tiers n) = rank :=
    Progress.eventually_const_of_le hle
  filter_upwards [hcases, hrank, (tendsto_add_atTop_nat 1).eventually hrank] with n hn hnow hnext
  refine hn.resolve_right fun hlt => ?_
  rw [hnow, hnext] at hlt
  exact lt_irrefl _ hlt

include hrun hconfig in
/-- From some tick on one level is proposed again and again. -/
theorem eventually_staysAt (h : Steady config target ticks) :
    ∃ level, ∀ᶠ n in atTop, StaysAt target level (ticks n) (tiers n) (tiers (n + 1)) := by
  have hrests := eventually_rests hrun hconfig h
  obtain ⟨level, hlevel⟩ : ∃ level, ∀ᶠ n in atTop, (tiers n).governor.currentLevel = level :=
    Progress.eventually_eq_const (hrests.mono fun _ hn => hn.unmoved.currentLevel)
  obtain ⟨action, haction⟩ : ∃ action, ∀ᶠ n in atTop, (tiers n).state.lastGovernorAction = action :=
    Progress.eventually_eq_const (hrests.mono fun _ hn => hn.lastGovernorAction)
  refine ⟨level, ?_⟩
  filter_upwards [hrests, hlevel, haction, h.target,
    h.eventually_elapsed action (fromSecs config.stabilizationSecs)] with n hn hlevel haction htarget hover
  obtain ⟨proposed, hpropose, hgate⟩ := hn.proposes
  rw [config_run hrun hconfig, haction] at hgate
  obtain ⟨stable, hbranch⟩ := Governor.propose_branch hpropose
  have htarget' : (tiers n).governor.targetLevel (ticks n).psi = target := by
    rw [Governor.targetLevel, Governor.pressure, config_run hrun hconfig]
    exact htarget
  rw [hgate hover, htarget', hlevel] at hbranch
  exact ⟨hlevel, stable, hbranch⟩

include hrun hconfig in
/-- The level does not stay below a target that is asked for again and again. -/
theorem not_below {level : Nat}
    (hstays : ∀ᶠ n in atTop, StaysAt target level (ticks n) (tiers n) (tiers (n + 1))) :
    ¬ level < target := by
  intro hup
  refine @Progress.not_counting_uint32 (fun n => (tiers n).governor.rampUpCount)
    config.hysteresisReadings ?_
  filter_upwards [hstays] with n ⟨hlevel, stable, hbranch⟩
  obtain rfl := hlevel
  rw [← config_run hrun hconfig n]
  exact hbranch.counts_up hup

include hrun hconfig in
/-- Nor does it stay above one. -/
theorem not_above (h : Steady config target ticks) {level : Nat}
    (hstays : ∀ᶠ n in atTop, StaysAt target level (ticks n) (tiers n) (tiers (n + 1))) :
    ¬ target < level := by
  intro hdown
  obtain ⟨entered, hentered⟩ : ∃ entered, ∀ᶠ n in atTop, (tiers n).governor.levelEnteredAt = entered := by
    refine Progress.eventually_eq_const ?_
    filter_upwards [hstays] with n ⟨hlevel, stable, hbranch⟩
    obtain rfl := hlevel
    exact hbranch.keeps_entry hdown
  refine @Progress.not_counting_uint32 (fun n => (tiers n).governor.hysteresisCount)
    config.hysteresisReadings ?_
  filter_upwards [hstays, hentered, h.eventually_elapsed entered (fromSecs config.minLevelDurationSecs)]
    with n ⟨hlevel, stable, hbranch⟩ hentered hcooled
  obtain rfl := hlevel
  rw [← config_run hrun hconfig n] at hcooled ⊢
  rw [← hentered] at hcooled
  exact hbranch.counts_down hdown hcooled

include hrun hconfig in
/-- The level comes to the target and stays there, and the directory is left alone. -/
theorem eventually_target (h : Steady config target ticks) :
    (∀ᶠ n in atTop, (tiers n).governor.currentLevel = target) ∧
      ∃ dir, ∀ᶠ n in atTop, (tiers n).dir = dir := by
  obtain ⟨level, hstays⟩ := eventually_staysAt hrun hconfig h
  have hbelow := not_below hrun hconfig hstays
  have habove := not_above hrun hconfig h hstays
  obtain rfl : level = target := Nat.le_antisymm (Nat.le_of_not_lt habove) (Nat.le_of_not_lt hbelow)
  exact ⟨hstays.mono fun _ hn => hn.1, Progress.eventually_eq_const
    ((eventually_rests hrun hconfig h).mono fun _ hn => hn.dir)⟩

end

/-- The states of a run without an end. -/
theorem exists_run (fs : Sysfs ε D) (config : GovernorConfig K) (ksm : KsmController)
    (now : Instant) (state : GovernorState) (dir : D) (ticks : ℕ → Tick K) :
    ∃ tiers : ℕ → GovernorTier K D, tiers 0 = start config ksm now state dir ∧
      (∀ n, (tiers n).tickWithReadings fs (ticks n) = .ok (tiers (n + 1))) ∧
      ∀ n, (start config ksm now state dir).runTicks fs ((List.range n).map ticks) = .ok (tiers n) := by
  have hruns : ∀ n, ∃ tier, (start config ksm now state dir).runTicks fs ((List.range n).map ticks) =
      .ok tier := fun n => by
    have hsafe : LevelSafe (fun _ => True) 0 (start config ksm now state dir) :=
      ⟨Nat.zero_le _, Nat.zero_le _, trivial⟩
    obtain ⟨tier, hrun, -⟩ := runTicks_ok (fun _ _ _ _ _ => trivial) (Nat.zero_le 1) hsafe
      ((List.range n).map ticks)
    exact ⟨tier, hrun⟩
  choose tiers htiers using hruns
  refine ⟨tiers, (Except.ok.inj (htiers 0)).symm, fun n => ?_, htiers⟩
  have hnext := htiers (n + 1)
  rw [List.range_succ, List.map_append] at hnext
  obtain ⟨tier, hrun, hstep⟩ := Run.tryRun_concat_eq_ok hnext
  cases (htiers n).symm.trans hrun
  exact hstep

/-- A governor whose readings ask for one level from some tick on, without a loss, comes to that level
and stays at it, whatever came before, and then writes no parameter any more. -/
theorem converges (fs : Sysfs ε D) (config : GovernorConfig K) (ksm : KsmController) (now : Instant)
    (state : GovernorState) (dir : D) {target : Nat} {ticks : ℕ → Tick K}
    (h : Steady config target ticks) :
    ∃ tiers : ℕ → GovernorTier K D,
      (∀ n, (start config ksm now state dir).runTicks fs ((List.range n).map ticks) = .ok (tiers n)) ∧
      (∀ᶠ n in atTop, (tiers n).governor.currentLevel = target) ∧
      ∃ dir', ∀ᶠ n in atTop, (tiers n).dir = dir' := by
  obtain ⟨tiers, hzero, hsteps, htiers⟩ := exists_run fs config ksm now state dir ticks
  obtain ⟨hlevel, hdir⟩ := eventually_target hsteps (by rw [hzero]; rfl) h
  exact ⟨tiers, htiers, hlevel, hdir⟩

/-- A calm reading. -/
def calmPsi : PsiStats ℚ := ⟨⟨1, 0, 0, 0⟩, ⟨0, 0, 0, 0⟩⟩

/-- A critical reading, and then a calm one every two seconds. -/
def calmAfterCritical (n : ℕ) : Tick ℚ :=
  if n = 0 then criticalTick else ⟨fromSecs (2 + 2 * n), calmPsi, ⟨0, 0, 0⟩⟩

theorem converges_calmAfterCritical : ∃ tiers : ℕ → GovernorTier ℚ String,
    (∀ n, undamped.runTicks runFile ((List.range n).map calmAfterCritical) = .ok (tiers n)) ∧
    (∀ᶠ n in atTop, (tiers n).governor.currentLevel = 1) ∧
    ∃ dir, ∀ᶠ n in atTop, (tiers n).dir = dir := by
  have hcalm : pressureToLevel (calmPsi.classify 5 2) = 1 := by decide +kernel
  have hlate : ∀ᶠ n in atTop, calmAfterCritical n = ⟨fromSecs (2 + 2 * n), calmPsi, ⟨0, 0, 0⟩⟩ := by
    filter_upwards [eventually_ge_atTop 1] with n hn
    exact if_neg (Nat.one_le_iff_ne_zero.mp hn)
  refine converges runFile ⟨true, 5, 2, 1, 0, 0⟩ (.new 0) 0 (newSharedState 0) "1" ⟨?_, ?_, ?_⟩
  · refine tendsto_atTop_mono' atTop ?_ tendsto_natCast_atTop_atTop
    filter_upwards [hlate] with n hn
    rw [hn]
    change (n : Int) ≤ ((2 + 2 * n) * 1000000000 : Nat)
    omega
  · filter_upwards [hlate] with n hn
    rw [hn]
    exact hcalm
  · filter_upwards [hlate] with n hn
    rw [hn]

end GovernorTier

end Animaksm.Daemon

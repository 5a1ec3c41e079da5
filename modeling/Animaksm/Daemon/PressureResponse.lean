import Animaksm.Daemon.Hysteresis

/-!
# The response to more pressure

Two readings are compared from one governor state. Every condition of the
classifier stays true under more pressure, so the classes and the targets are
ordered, and a transition is monotone in its target: only a target right above
the level can be held back, and a higher one is jumped to.
-/

namespace Animaksm.Common

/-- A reading shows at most the pressure of another one. -/
structure PsiStats.AtMost (calm strained : PsiStats ℚ) : Prop where
  some : calm.some.avg10 ≤ strained.some.avg10
  full : calm.full.avg10 ≤ strained.full.avg10

/-- The first condition that holds decides, so weaker conditions decide for a higher level. -/
theorem PressureLevel.cascade_mono {critical critical' high high' medium medium' low low' : Prop}
    [Decidable critical] [Decidable critical'] [Decidable high] [Decidable high']
    [Decidable medium] [Decidable medium'] [Decidable low] [Decidable low']
    (hcritical : critical → critical') (hhigh : high → high') (hmedium : medium → medium')
    (hlow : low → low') :
    (if critical then PressureLevel.critical else if high then .high else if medium then .medium
      else if low then .low else .idle) ≤
    (if critical' then PressureLevel.critical else if high' then .high else if medium' then .medium
      else if low' then .low else .idle) := by
  split_ifs
  all_goals first | decide | grind

variable {calm strained : PsiStats ℚ}

/-- Classes are ordered as their readings, whatever the thresholds. -/
theorem PsiStats.AtMost.classify_le (h : calm.AtMost strained) (someThreshold fullThreshold : ℚ) :
    calm.classify someThreshold fullThreshold ≤ strained.classify someThreshold fullThreshold := by
  have hscore : (0.7 : ℚ) * calm.full.avg10 + (0.3 : ℚ) * calm.some.avg10 ≤
      (0.7 : ℚ) * strained.full.avg10 + (0.3 : ℚ) * strained.some.avg10 :=
    add_le_add (mul_le_mul_of_nonneg_left h.full (by decide +kernel))
      (mul_le_mul_of_nonneg_left h.some (by decide +kernel))
  unfold PsiStats.classify
  exact PressureLevel.cascade_mono
    (fun hcritical => hcritical.trans hscore)
    (Or.imp (fun hhigh => hhigh.trans hscore) (fun hhigh => hhigh.trans h.full))
    (Or.imp (fun hmedium => hmedium.trans hscore) (fun hmedium => hmedium.trans h.some))
    (fun hlow => hlow.trans hscore)

end Animaksm.Common

namespace Animaksm.Daemon

open Animaksm.Common

/-- A higher class never asks for a lower level. -/
theorem pressureToLevel_mono {lower higher : PressureLevel} (h : lower ≤ higher) :
    pressureToLevel lower ≤ pressureToLevel higher := by
  cases lower <;> cases higher
  all_goals first | decide | exact absurd h (by decide)

namespace Governor

variable {K : Type} {gov gov₁ gov₂ : Governor K} {now : Instant} {target₁ target₂ level₁ level₂ : Nat}

/-- A transition up to a target proposes no level beyond it, nor one below the current level. -/
theorem Branch.le_of_up (h : gov.Branch now target₁ level₁ gov₁)
    (hup : gov.currentLevel ≤ target₁) : gov.currentLevel ≤ level₁ ∧ level₁ ≤ target₁ := by
  cases h <;> omega

/-- A transition down to a target does not raise the level. -/
theorem Branch.le_of_down (h : gov.Branch now target₁ level₁ gov₁)
    (hdown : target₁ ≤ gov.currentLevel) : level₁ ≤ gov.currentLevel := by
  cases h <;> omega

/-- A target further up than the next level is jumped to. -/
theorem Branch.eq_of_far (h : gov.Branch now target₁ level₁ gov₁)
    (hfar : gov.currentLevel + 2 ≤ target₁) : level₁ = target₁ := by
  have hsaturated : saturatingAdd gov.currentLevel 2 ≤ gov.currentLevel + 2 := Nat.min_le_left ..
  cases h <;> omega

/-- Below the current level the target does not matter. -/
theorem Branch.eq_of_down (h₁ : gov.Branch now target₁ level₁ gov₁)
    (h₂ : gov.Branch now target₂ level₂ gov₂) (hdown₁ : target₁ < gov.currentLevel)
    (hdown₂ : target₂ < gov.currentLevel) : level₁ = level₂ := by
  cases h₁ <;> cases h₂
  all_goals first | rfl | omega | exact absurd ‹_› (UInt32.not_le.mpr ‹_›)

/-- The level of a transition is determined by the target. -/
theorem Branch.level_unique (h₁ : gov.Branch now target₁ level₁ gov₁)
    (h₂ : gov.Branch now target₁ level₂ gov₂) : level₁ = level₂ := by
  cases h₁ <;> cases h₂
  all_goals first | rfl | omega | exact absurd ‹_› (UInt32.not_le.mpr ‹_›)

/-- From one state, a higher target is never answered by a lower level. -/
theorem Branch.level_mono (h₁ : gov.Branch now target₁ level₁ gov₁)
    (h₂ : gov.Branch now target₂ level₂ gov₂) (hle : target₁ ≤ target₂) : level₁ ≤ level₂ := by
  rcases lt_or_ge target₂ gov.currentLevel with hdown | hup
  · exact (h₁.eq_of_down h₂ (hle.trans_lt hdown) hdown).le
  · obtain ⟨hlow₂, -⟩ := h₂.le_of_up hup
    rcases le_or_gt target₁ gov.currentLevel with hdown | hup₁
    · exact (h₁.le_of_down hdown).trans hlow₂
    · obtain ⟨-, hhigh₁⟩ := h₁.le_of_up hup₁.le
      rcases hle.eq_or_lt with rfl | hlt
      · exact (h₁.level_unique h₂).le
      · -- The higher target is at least two levels up.
        have hfar : level₂ = target₂ := h₂.eq_of_far (by omega)
        exact hhigh₁.trans (hfar ▸ hle)

/-- More pressure is classified no lower, asks for no lower level, and is answered by no lower
proposal. -/
theorem response_mono {calm strained : PsiStats ℚ} (h : calm.AtMost strained) (gov : Governor ℚ)
    (now : Instant) :
    gov.pressure calm ≤ gov.pressure strained ∧ gov.targetLevel calm ≤ gov.targetLevel strained ∧
    ∃ level₁ gov₁ level₂ gov₂,
      gov.computeTransition now (gov.targetLevel calm) = .ok (level₁, gov₁) ∧
      gov.computeTransition now (gov.targetLevel strained) = .ok (level₂, gov₂) ∧
      level₁ ≤ level₂ := by
  have hpressure : gov.pressure calm ≤ gov.pressure strained := h.classify_le _ _
  have htarget : gov.targetLevel calm ≤ gov.targetLevel strained := pressureToLevel_mono hpressure
  obtain ⟨level₁, gov₁, hok₁, hbranch₁⟩ := gov.computeTransition_branch now (gov.targetLevel calm)
  obtain ⟨level₂, gov₂, hok₂, hbranch₂⟩ :=
    gov.computeTransition_branch now (gov.targetLevel strained)
  exact ⟨hpressure, htarget, level₁, gov₁, level₂, gov₂, hok₁, hok₂,
    hbranch₁.level_mono hbranch₂ htarget⟩

/-- A governor at level 3 that has entered it long ago. -/
def atLevelThree : Governor ℚ where
  config := ⟨true, 5, 2, 3, 60, 30⟩
  ksm := .new 0
  currentLevel := 3
  hysteresisCount := 0
  rampUpCount := 0
  levelEnteredAt := 0
  fullScansAtLevel := 0
  lastPsi := none
  stablePsiTicks := 0

/-- A reading with these averages over ten seconds. -/
def reading (some full : ℚ) : PsiStats ℚ := ⟨⟨some, 0, 0, 0⟩, ⟨full, 0, 0, 0⟩⟩

/-- The responses to a little pressure and to much of it. -/
theorem response_mono_atLevelThree :
    ∃ level₁ gov₁ level₂ gov₂,
      atLevelThree.computeTransition (fromSecs 100) (atLevelThree.targetLevel (reading 1 0)) =
        .ok (level₁, gov₁) ∧
      atLevelThree.computeTransition (fromSecs 100) (atLevelThree.targetLevel (reading 40 20)) =
        .ok (level₂, gov₂) ∧ level₁ ≤ level₂ :=
  have hmore : (reading 1 0).AtMost (reading 40 20) := ⟨by decide, by decide⟩
  (response_mono hmore atLevelThree (fromSecs 100)).2.2

end Governor

end Animaksm.Daemon

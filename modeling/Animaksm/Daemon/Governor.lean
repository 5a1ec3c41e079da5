import Animaksm.Common.Psi
import Animaksm.Common.Ksm
import Animaksm.Lib.Run

/-!
# The PSI-aware KSM governor

One tick of the governor: the pressure classification, the transition with
hysteresis and cooldown, the stabilization gate, the profit back-off and the
update of the shared state. Array accesses and `u8` subtractions are checked, so
that a panic is a result of its own. A tick reads its clock once.
-/

namespace Animaksm.Daemon

open Animaksm.Common

/-- The panics a governor tick could end in. -/
inductive Panic where
  | indexOutOfBounds (index len : Nat)
  | subtractWithOverflow
  deriving DecidableEq, Repr

/-- Checked subtraction of levels. -/
def checkedSub (a b : Nat) : Except Panic Nat :=
  if b ≤ a then .ok (a - b) else .error .subtractWithOverflow

/-- Addition of levels that stops at the largest `u8`. -/
def saturatingAdd (a b : Nat) : Nat := min (a + b) 255

/-- KSM profile for each aggressiveness level. -/
structure KsmProfile where
  run : Nat
  maxPageSharing : Nat
  sleepMillisecs : Nat
  /-- Only used when the advisor is off. -/
  pagesToScan : Nat

/-- The governor profiles table, by level. -/
def profiles : List KsmProfile :=
  [⟨0, 256, 500, 100⟩,
   ⟨1, 256, 100, 500⟩,
   ⟨1, 384, 50, 2000⟩,
   ⟨1, 512, 20, 5000⟩,
   ⟨1, 768, 10, 15000⟩,
   ⟨1, 1024, 5, 30000⟩]

/-- The configuration the governor reads. -/
structure GovernorConfig (K : Type) where
  useAdvisor : Bool
  psiSomeThreshold : K
  psiFullThreshold : K
  hysteresisReadings : UInt32
  minLevelDurationSecs : Nat
  /-- Minimum time between repeated actions within the same tier. -/
  stabilizationSecs : Nat
  deriving DecidableEq

/-- The KSM statistics the governor reads. -/
structure KsmStats where
  pagesSharing : Nat
  fullScans : Nat
  generalProfit : Int

/-- Shared state between governor and scanner tasks. -/
structure GovernorState where
  currentPressure : PressureLevel
  ksmLevel : Nat
  pagesSharing : Nat
  generalProfit : Int
  lastAdjustment : Instant
  lastGlobalAction : Instant
  lastGovernorAction : Instant
  lastScannerAction : Instant
  scannerEnabled : Bool
  deriving DecidableEq

/-- The shared state before any task has acted. -/
def newSharedState (now : Instant) : GovernorState where
  currentPressure := .idle
  ksmLevel := 0
  pagesSharing := 0
  generalProfit := 0
  lastAdjustment := now
  lastGlobalAction := now
  lastGovernorAction := now
  lastScannerAction := now
  scannerEnabled := false

/-- The governor state machine. -/
structure Governor (K : Type) where
  config : GovernorConfig K
  ksm : KsmController
  currentLevel : Nat
  hysteresisCount : UInt32
  /-- Consecutive ticks with target above current level (ramp-up damping). -/
  rampUpCount : UInt32
  levelEnteredAt : Instant
  fullScansAtLevel : Nat
  /-- Last PSI reading (for fallback stability check). -/
  lastPsi : Option (PsiStats K)
  /-- Consecutive ticks with stable PSI (for drift detection). -/
  stablePsiTicks : UInt32
  deriving DecidableEq

/-- Map pressure level to KSM aggressiveness level (1-5). -/
def pressureToLevel : PressureLevel → Nat
  | .idle => 1
  | .low => 1
  | .medium => 3
  | .high => 4
  | .critical => 5

namespace Governor

variable {K : Type}

def new (config : GovernorConfig K) (ksm : KsmController) (now : Instant) : Governor K where
  config := config
  ksm := ksm
  currentLevel := 0
  hysteresisCount := 0
  rampUpCount := 0
  levelEnteredAt := now
  fullScansAtLevel := 0
  lastPsi := none
  stablePsiTicks := 0

/-- PSI stability tracking (for drift detection). -/
def observePsiStability [Average K] (gov : Governor K) (psi : PsiStats K) : Governor K :=
  let gov := match gov.lastPsi with
    | some prev =>
      let someDiff := Average.abs (psi.some.avg10 - prev.some.avg10)
      let fullDiff := Average.abs (psi.full.avg10 - prev.full.avg10)
      if someDiff < (0.5 : K) ∧ fullDiff < (0.5 : K) then
        { gov with stablePsiTicks := gov.stablePsiTicks + 1 }
      else { gov with stablePsiTicks := 0 }
    | none => gov
  { gov with lastPsi := some psi }

/-- The pressure by the configured thresholds. -/
def pressure [Average K] (gov : Governor K) (psi : PsiStats K) : PressureLevel :=
  psi.classify gov.config.psiSomeThreshold gov.config.psiFullThreshold

/-- The level the pressure asks for. -/
def targetLevel [Average K] (gov : Governor K) (psi : PsiStats K) : Nat :=
  pressureToLevel (gov.pressure psi)

/-- Compute the actual transition with hysteresis and cooldown. -/
def computeTransition (gov : Governor K) (now : Instant) (targetLevel : Nat) :
    Except Panic (Nat × Governor K) :=
  if targetLevel > gov.currentLevel then
    -- Multi-level jump (emergency): ramp immediately.
    if targetLevel ≥ saturatingAdd gov.currentLevel 2 then
      .ok (targetLevel,
        { gov with
          hysteresisCount := 0, rampUpCount := 0, levelEnteredAt := now, fullScansAtLevel := 0 })
    else
      -- Single-level ramp-up with hysteresis.
      let gov := { gov with rampUpCount := gov.rampUpCount + 1, hysteresisCount := 0 }
      if gov.rampUpCount ≥ gov.config.hysteresisReadings then
        .ok (targetLevel,
          { gov with rampUpCount := 0, levelEnteredAt := now, fullScansAtLevel := 0 })
      else .ok (gov.currentLevel, gov)
  else if targetLevel < gov.currentLevel then
    -- Ramp down with hysteresis and cooldown.
    let gov := { gov with rampUpCount := 0 }
    if Instant.elapsed now gov.levelEnteredAt < fromSecs gov.config.minLevelDurationSecs then
      .ok (gov.currentLevel, gov)
    else
      let gov := { gov with hysteresisCount := gov.hysteresisCount + 1 }
      if gov.hysteresisCount ≥ gov.config.hysteresisReadings then do
        let level ← checkedSub gov.currentLevel 1
        .ok (level, { gov with hysteresisCount := 0, levelEnteredAt := now, fullScansAtLevel := 0 })
      else .ok (gov.currentLevel, gov)
  else .ok (gov.currentLevel, { gov with hysteresisCount := 0, rampUpCount := 0 })

/-- The readings' part of a tick: note the PSI sample, then propose a level. -/
def propose [Average K] (gov : Governor K) (now : Instant) (psi : PsiStats K) :
    Except Panic (Nat × Governor K) :=
  let gov := gov.observePsiStability psi
  gov.computeTransition now (gov.targetLevel psi)

end Governor

/-- The governor with the state it shares and the KSM directory it writes to. -/
structure GovernorTier (K D : Type) where
  governor : Governor K
  state : GovernorState
  dir : D
  deriving DecidableEq

/-- The readings and the clock of one tick. -/
structure Tick (K : Type) where
  now : Instant
  psi : PsiStats K
  ksmStats : KsmStats

namespace GovernorTier

variable {ε K D : Type}

/-- The sysfs writes of a profile; a failed write is ignored. -/
def writeProfile (fs : Sysfs ε D) (governor : Governor K) (now : Instant) (profile : KsmProfile)
    (dir : D) : D :=
  let ksm := governor.ksm
  let useAdvisor := governor.config.useAdvisor
  -- In advisor mode, never stop KSM: the advisor needs run=1 to function.
  let dir := if profile.run = 0 ∧ ¬ useAdvisor then (ksm.setRun fs now 0 dir).2 else dir
  let dir := (ksm.setSleepMillisecs fs now profile.sleepMillisecs dir).2
  let dir := (ksm.setMaxPageSharing fs now profile.maxPageSharing dir).2
  -- In advisor mode the kernel controls the scan rate.
  let dir := if useAdvisor then dir else (ksm.setPagesToScan fs now profile.pagesToScan dir).2
  if profile.run ≠ 0 then (ksm.setRun fs now 1 dir).2 else dir

/-- Apply a KSM profile by writing sysfs parameters. -/
def applyProfile (fs : Sysfs ε D) (tier : GovernorTier K D) (now : Instant) (level : Nat) :
    Except Panic (GovernorTier K D) :=
  match profiles[level]? with
  | none => .error (.indexOutOfBounds level profiles.length)
  | some profile =>
    .ok {
      governor := { tier.governor with currentLevel := level }
      state := { tier.state with lastGovernorAction := now, lastGlobalAction := now }
      dir := writeProfile fs tier.governor now profile tier.dir }

/-- Apply the proposed level if it differs, unless inside the stabilization window. -/
def applyTransition (fs : Sysfs ε D) (tier : GovernorTier K D) (now : Instant) (newLevel : Nat) :
    Except Panic (GovernorTier K D) :=
  if newLevel ≠ tier.governor.currentLevel then
    if Instant.elapsed now tier.state.lastGovernorAction
        ≥ fromSecs tier.governor.config.stabilizationSecs then
      tier.applyProfile fs now newLevel
    else .ok tier
  else .ok tier

/-- Profit monitoring: step down when profit is negative after many scans. -/
def profitBackOff (fs : Sysfs ε D) (tier : GovernorTier K D) (now : Instant) (ksmStats : KsmStats) :
    Except Panic (GovernorTier K D) :=
  if tier.governor.currentLevel > 0 ∧ ksmStats.generalProfit < 0 ∧
      ksmStats.fullScans > tier.governor.fullScansAtLevel + 10 then
    if tier.governor.currentLevel > 1 then do
      let level ← checkedSub tier.governor.currentLevel 1
      tier.applyProfile fs now level
    else .ok tier
  else .ok tier

/-- Update the shared state at the end of a tick. -/
def publish (tier : GovernorTier K D) (now : Instant) (pressure : PressureLevel)
    (ksmStats : KsmStats) : GovernorTier K D :=
  { tier with
    state := { tier.state with
      currentPressure := pressure
      ksmLevel := tier.governor.currentLevel
      pagesSharing := ksmStats.pagesSharing
      generalProfit := ksmStats.generalProfit
      lastAdjustment := now } }

/-- One tick on given readings. -/
def tickWithReadings [Average K] (fs : Sysfs ε D) (tier : GovernorTier K D) (tick : Tick K) :
    Except Panic (GovernorTier K D) := do
  let pressure := tier.governor.pressure tick.psi
  let (newLevel, governor) ← tier.governor.propose tick.now tick.psi
  let tier ← { tier with governor := governor }.applyTransition fs tick.now newLevel
  let tier ← tier.profitBackOff fs tick.now tick.ksmStats
  .ok (tier.publish tick.now pressure tick.ksmStats)

/-- A tier whose governor has just been created. -/
def start (config : GovernorConfig K) (ksm : KsmController) (now : Instant) (state : GovernorState)
    (dir : D) : GovernorTier K D :=
  ⟨.new config ksm now, state, dir⟩

/-- The writes of the governor task before its first tick; a failed write is ignored. -/
def startUp (fs : Sysfs ε D) (tier : GovernorTier K D) (now : Instant) : GovernorTier K D :=
  let ksm := tier.governor.ksm
  let dir := if tier.governor.config.useAdvisor then (ksm.setAdvisorMode fs now "scan-time" tier.dir).2
    else tier.dir
  { tier with dir := (ksm.setRun fs now 1 dir).2 }

/-- A sequence of ticks. -/
def runTicks [Average K] (fs : Sysfs ε D) : GovernorTier K D → List (Tick K) →
    Except Panic (GovernorTier K D) :=
  Run.tryRun (tickWithReadings fs)

end GovernorTier

end Animaksm.Daemon

import Animaksm.Daemon.Decisions
import Animaksm.Daemon.Scanner

/-!
# The tasks of the daemon

The governor and the scanner as tasks that take turns in any order. Between two
steps of one task the other may step: a step is one section on the locked shared
state, or one write to the KSM directory, with the work of its task that leads to
it. The steps of an undisturbed tick, and of an undisturbed scan cycle, are the tick
and the cycle.
-/

namespace Animaksm.Daemon

open Animaksm.Common

deriving instance DecidableEq for KsmStats
deriving instance DecidableEq for Tick

/-- The shared fields that only the governor writes. -/
structure GovernorFields where
  currentPressure : PressureLevel
  ksmLevel : Nat
  pagesSharing : Nat
  generalProfit : Int
  lastAdjustment : Instant
  lastGovernorAction : Instant
  deriving DecidableEq, Repr

def GovernorState.governorFields (state : GovernorState) : GovernorFields where
  currentPressure := state.currentPressure
  ksmLevel := state.ksmLevel
  pagesSharing := state.pagesSharing
  generalProfit := state.generalProfit
  lastAdjustment := state.lastAdjustment
  lastGovernorAction := state.lastGovernorAction

/-- Note the time of the last governor action. -/
def GovernorState.stampGovernor (state : GovernorState) (now : Instant) : GovernorState :=
  { state with lastGovernorAction := now, lastGlobalAction := now }

/-- Where the governor task stands. -/
inductive GovernorStage (K : Type) where
  /-- Before the first tick, with the start-up writes to come. -/
  | starting (pending : List KsmWrite)
  | idle
  /-- Applying a profile, with its writes to come. -/
  | applying (path : Path) (tick : Tick K) (pressure : PressureLevel) (level : Nat)
      (pending : List KsmWrite)
  | monitoring (tick : Tick K) (pressure : PressureLevel)
  | publishing (tick : Tick K) (pressure : PressureLevel)
  | stopped
  | panicked (panic : Panic)

/-- What follows a path of a tick. -/
def Path.next {K : Type} (tick : Tick K) (pressure : PressureLevel) : Path → GovernorStage K
  | .transition => .monitoring tick pressure
  | .backOff => .publishing tick pressure

/-- The steps of the governor task. -/
inductive GovernorAction (K : Type) where
  /-- Begin a tick whose readings succeeded; others do nothing. -/
  | tick (tick : Tick K)
  | step (now : Instant)
  | stop (now : Instant)
  deriving DecidableEq

/-- Where the scanner task stands. -/
inductive ScannerStage where
  | idle
  /-- After a cycle that marked something, before its time stamp. -/
  | stamping
  | stopped
  deriving DecidableEq, Repr

/-- The steps of the scanner task. -/
inductive ScannerAction where
  | cycle (cycle : Cycle)
  | step (now : Instant)
  | stop (now : Instant)

/-- What a scanner did, and when. -/
inductive ScannerEvent where
  | deferred (now : Instant)
  /-- A cycle that was not deferred, with the number of regions it marked. -/
  | scanned (now : Instant) (marked : Nat)
  | stamped (now : Instant)
  deriving DecidableEq, Repr

/-- A step of one of the tasks. -/
inductive Action (K : Type) where
  | governor (action : GovernorAction K)
  | scanner (action : ScannerAction)

/-- The tasks with what they share, and what they have decided and published so far. -/
structure System (K D W : Type) where
  governor : Governor K
  governorStage : GovernorStage K
  scanner : Scanner
  scannerStage : ScannerStage
  state : GovernorState
  dir : D
  world : W
  decisions : List Decision
  /-- The level and the governor's shared fields, at each change. -/
  history : List (Nat × GovernorFields)
  events : List ScannerEvent

namespace System

variable {ε E K D W : Type}

/-- The tasks when they are spawned. -/
def start (config : GovernorConfig K) (ksm : KsmController) (scanner : ScannerConfig) (dryRun : Bool)
    (now : Instant) (dir : D) (world : W) : System K D W where
  governor := .new config ksm now
  governorStage := .starting (GovernorTier.startUpWrites config.useAdvisor)
  scanner := .new scanner dryRun config.stabilizationSecs
  scannerStage := .idle
  state := newSharedState now
  dir := dir
  world := world
  decisions := []
  history := []
  events := []

/-- The governor with the state it shares and its directory. -/
def tier (s : System K D W) : GovernorTier K D := ⟨s.governor, s.state, s.dir⟩

/-- The scanner with the state it shares and its world. -/
def scannerTier (s : System K D W) : ScannerTier W := ⟨s.scanner, s.state, s.world⟩

/-- Attempt one write of the governor. -/
def attempt (fs : Sysfs ε D) (s : System K D W) (now : Instant) (w : KsmWrite) : System K D W :=
  { s with dir := s.governor.ksm.attempt fs now [w] s.dir }

/-- Note what the governor has published. -/
def note (s : System K D W) : System K D W :=
  { s with history := s.history ++ [(s.governor.currentLevel, s.state.governorFields)] }

/-- Take a decision on one path of a tick. -/
def decide (s : System K D W) (path : Path) (tick : Tick K) (pressure : PressureLevel)
    (decision : Decision) : System K D W :=
  let s := { s with decisions := s.decisions ++ [decision] }
  match decision with
  | .apply level =>
    match profiles[level]? with
    | none => { s with governorStage := .panicked (.indexOutOfBounds level profiles.length) }
    | some profile =>
      { s with
        governorStage :=
          .applying path tick pressure level (profile.writes s.governor.config.useAdvisor) }
  | _ => { s with governorStage := path.next tick pressure }

/-- A step of the governor task; a step it is not ready for does nothing. -/
def governorStep [Average K] (fs : Sysfs ε D) (s : System K D W) : GovernorAction K → System K D W
  | .tick tick =>
    match s.governorStage with
    | .idle =>
      match s.governor.propose tick.now tick.psi with
      | .error panic => { s with governorStage := .panicked panic }
      | .ok (newLevel, governor) =>
        { s with governor := governor }.decide .transition tick (s.governor.pressure tick.psi)
          (governor.gate tick.now s.state.lastGovernorAction newLevel)
    | _ => s
  | .step now =>
    match s.governorStage with
    | .starting [] => { s with governorStage := .idle }
    | .starting (w :: pending) => { s.attempt fs now w with governorStage := .starting pending }
    | .applying path tick pressure level (w :: pending) =>
      { s.attempt fs now w with governorStage := .applying path tick pressure level pending }
    | .applying path tick pressure level [] =>
      { s with
        governor := { s.governor with currentLevel := level }
        state := s.state.stampGovernor now
        governorStage := path.next tick pressure }.note
    | .monitoring tick pressure =>
      match s.governor.monitor tick.ksmStats with
      | .error panic => { s with governorStage := .panicked panic }
      | .ok decision => s.decide .backOff tick pressure decision
    | .publishing tick pressure =>
      { s with
        state := (s.tier.publish now pressure tick.ksmStats).state
        governorStage := .idle }.note
    | _ => s
  | .stop _ =>
    match s.governorStage with
    | .idle => { s with governorStage := .stopped }
    | _ => s

/-- A step of the scanner task; a step it is not ready for does nothing. -/
def scannerStep (H : Host E W) (s : System K D W) : ScannerAction → System K D W
  | .cycle cycle =>
    match s.scannerStage with
    | .idle =>
      if s.scanner.Deferred cycle.now s.state.lastScannerAction then
        { s with scanner := s.scanner.skip.count, events := s.events ++ [.deferred cycle.now] }
      else
        let scanned := s.scanner.scan H cycle s.world
        let s' : System K D W := { s with
          world := scanned.2
          events := s.events ++ [.scanned cycle.now (s.scanner.marked H cycle s.world)] }
        if scanned.1.stats.madviseCalls > s.scanner.stats.madviseCalls then
          { s' with scanner := scanned.1, scannerStage := .stamping }
        else { s' with scanner := scanned.1.count }
    | _ => s
  | .step now =>
    match s.scannerStage with
    | .stamping =>
      { s with
        scanner := s.scanner.count
        scannerStage := .idle
        state := s.state.stampScanner now
        events := s.events ++ [.stamped now] }
    | _ => s
  | .stop _ =>
    match s.scannerStage with
    | .idle => { s with scannerStage := .stopped }
    | _ => s

/-- An idle scanner has nothing to stamp. -/
theorem scannerStep_idle {H : Host E W} {s : System K D W} (hidle : s.scannerStage = .idle)
    (now : Instant) : s.scannerStep H (.step now) = s := by
  simp only [scannerStep, hidle]

/-- A step of either task. -/
def step [Average K] (fs : Sysfs ε D) (H : Host E W) (s : System K D W) : Action K → System K D W
  | .governor action => s.governorStep fs action
  | .scanner action => s.scannerStep H action

/-! ## Undisturbed ticks and cycles -/

variable [Average K] {fs : Sysfs ε D} {H : Host E W} {s : System K D W} {tick : Tick K}
  {tier' : GovernorTier K D}

/-- A profile is applied write by write, and then stamped. -/
theorem run_applying (s : System K D W) (path : Path) (tick : Tick K) (pressure : PressureLevel)
    (level : Nat) (pending : List KsmWrite) (now : Instant) :
    Run.run (step fs H) { s with governorStage := .applying path tick pressure level pending }
        (List.replicate (pending.length + 1) (.governor (.step now))) =
      { s with
        governor := { s.governor with currentLevel := level }
        state := s.state.stampGovernor now
        dir := s.governor.ksm.attempt fs now pending s.dir
        governorStage := path.next tick pressure }.note := by
  induction pending generalizing s with
  | nil => rfl
  | cons w pending ih => exact ih (s.attempt fs now w)

/-- The steps after a decision carry it out. -/
theorem run_decide {now : Instant} {decision : Decision}
    (h : s.tier.carryOut fs now decision = .ok tier') (path : Path) (tick : Tick K)
    (pressure : PressureLevel) :
    ∃ n s', Run.run (step fs H) (s.decide path tick pressure decision)
        (List.replicate n (.governor (.step now))) = s' ∧
      s'.tier = tier' ∧ s'.governorStage = path.next tick pressure := by
  cases decision with
  | keep => exact ⟨0, _, rfl, Except.ok.inj h, rfl⟩
  | defer level => exact ⟨0, _, rfl, Except.ok.inj h, rfl⟩
  | apply level =>
    obtain ⟨profile, hprofile, rfl⟩ := GovernorTier.applyProfile_eq_ok h
    have hdecide : s.decide path tick pressure (.apply level) =
        { { s with decisions := s.decisions ++ [Decision.apply level] } with
          governorStage := .applying path tick pressure level
            (profile.writes s.governor.config.useAdvisor) } := by
      rw [decide]
      simp only [hprofile]
    refine ⟨_, _, (congrArg (fun s => Run.run (step fs H) s _) hdecide).trans
      (run_applying _ path tick pressure level _ now), ?_, rfl⟩
    rw [GovernorTier.writeProfile_eq_attempt]
    rfl

/-- The steps of an undisturbed tick are the tick. -/
theorem run_tick (hidle : s.governorStage = .idle)
    (h : s.tier.tickWithReadings fs tick = .ok tier') :
    ∃ n s', Run.run (step fs H) s
        (.governor (.tick tick) :: List.replicate n (.governor (.step tick.now))) = s' ∧
      s'.tier = tier' ∧ s'.governorStage = .idle := by
  obtain ⟨tier₁, tier₂, h₁, h₂, rfl⟩ := GovernorTier.tickWithReadings_eq_ok h
  obtain ⟨level, gov, hpropose, hunmoved, -⟩ := GovernorTier.transition_cases h₁
  rw [GovernorTier.transition, hpropose] at h₁
  have hcarry : ({ s with governor := gov } : System K D W).tier.carryOut fs tick.now
      (gov.gate tick.now s.state.lastGovernorAction level) = .ok tier₁ :=
    (GovernorTier.applyTransition_eq_carryOut fs _ _ _).symm.trans h₁
  have hfirst : step fs H s (.governor (.tick tick)) =
      { s with governor := gov }.decide .transition tick (s.governor.pressure tick.psi)
        (gov.gate tick.now s.state.lastGovernorAction level) := by
    simp only [step, governorStep, hidle]
    rw [show s.governor.propose tick.now tick.psi = .ok (level, gov) from hpropose]
  obtain ⟨n₁, s₁, hrun₁, htier₁, hstage₁⟩ :=
    run_decide (H := H) hcarry .transition tick (s.governor.pressure tick.psi)
  rw [GovernorTier.profitBackOff_eq_carryOut] at h₂
  cases hmonitor : tier₁.governor.monitor tick.ksmStats with
  | error panic => rw [hmonitor] at h₂; cases h₂
  | ok decision =>
    rw [hmonitor] at h₂
    have hsecond : step fs H s₁ (.governor (.step tick.now)) =
        s₁.decide .backOff tick (s.governor.pressure tick.psi) decision := by
      simp only [step, governorStep, hstage₁, Path.next]
      rw [show s₁.governor = tier₁.governor from congrArg GovernorTier.governor htier₁, hmonitor]
    obtain ⟨n₂, s₂, hrun₂, htier₂, hstage₂⟩ :=
      run_decide (H := H) (s := s₁) (htier₁ ▸ h₂) .backOff tick (s.governor.pressure tick.psi)
    have hthird : step fs H s₂ (.governor (.step tick.now)) =
        { s₂ with
          state := (s₂.tier.publish tick.now (s.governor.pressure tick.psi) tick.ksmStats).state
          governorStage := .idle }.note := by
      simp only [step, governorStep, hstage₂, Path.next]
    refine ⟨n₁ + (1 + (n₂ + 1)), _, rfl, ?_⟩
    rw [Run.run_cons, hfirst, List.replicate_add, Run.run_append, hrun₁, List.replicate_add,
      Run.run_append, List.replicate_one, Run.run_cons, hsecond, Run.run_nil, List.replicate_add,
      Run.run_append, hrun₂, List.replicate_one, Run.run_cons, hthird, Run.run_nil, ← htier₂]
    exact ⟨rfl, rfl⟩

/-- The steps of an undisturbed cycle are the cycle, counted. -/
theorem run_scanCycle (hidle : s.scannerStage = .idle) (cycle : Cycle) (finished : Instant) :
    let tier := s.scannerTier.scanCycle H cycle finished
    let s' := Run.run (step fs H) s [.scanner (.cycle cycle), .scanner (.step finished)]
    s'.scannerTier = { tier with scanner := tier.scanner.count } ∧ s'.scannerStage = .idle := by
  intro tier s'
  have hrun : s' = (s.scannerStep H (.cycle cycle)).scannerStep H (.step finished) := rfl
  rw [hrun, scannerStep, hidle]
  by_cases hdeferred : s.scanner.Deferred cycle.now s.state.lastScannerAction
  · have htier : tier = ⟨s.scanner.skip, s.state, s.world⟩ := if_pos hdeferred
    simp only [if_pos hdeferred]
    rw [htier, scannerStep_idle rfl]
    exact ⟨rfl, rfl⟩
  · simp only [if_neg hdeferred]
    by_cases hmarked : (s.scanner.scan H cycle s.world).1.stats.madviseCalls >
        s.scanner.stats.madviseCalls
    · have htier : tier = ⟨(s.scanner.scan H cycle s.world).1, s.state.stampScanner finished,
          (s.scanner.scan H cycle s.world).2⟩ := (if_neg hdeferred).trans (if_pos hmarked)
      rw [htier, if_pos hmarked]
      exact ⟨rfl, rfl⟩
    · have htier : tier = ⟨(s.scanner.scan H cycle s.world).1, s.state,
          (s.scanner.scan H cycle s.world).2⟩ := (if_neg hdeferred).trans (if_neg hmarked)
      rw [htier, if_neg hmarked, scannerStep_idle rfl]
      exact ⟨rfl, rfl⟩

end System

end Animaksm.Daemon

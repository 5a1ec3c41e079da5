import Animaksm.Common.KsmWrites
import Animaksm.Daemon.Applications

/-!
# The directory tracks the level

On a directory that accepts every write, KSM runs from the end of start-up on and
the parameters of the governor are the entries of the profile it applied last. A
profile is written as a list of writes, of which the last to each parameter counts.
-/

namespace Animaksm.Daemon

open Animaksm.Common KsmController

namespace GovernorTier

variable {ε K D : Type}

/-- The writes of a profile, in order. -/
def profileWrites (gov : Governor K) (now : Instant) (profile : KsmProfile) : List KsmWrite :=
  let ksm := gov.ksm
  let useAdvisor := gov.config.useAdvisor
  (if profile.run = 0 ∧ ¬ useAdvisor then ksm.written now .run 0 else []) ++
    (ksm.written now .sleepMillisecs profile.sleepMillisecs ++
      (ksm.written now .maxPageSharing profile.maxPageSharing ++
        ((if useAdvisor then [] else ksm.written now .pagesToScan profile.pagesToScan) ++
          if profile.run ≠ 0 then ksm.written now .run 1 else [])))

/-- The writes of a profile that runs KSM, with its entries as they are. -/
def entryWrites (useAdvisor : Bool) (profile : KsmProfile) : List KsmWrite :=
  [(.sleepMillisecs, toString profile.sleepMillisecs),
    (.maxPageSharing, toString profile.maxPageSharing)] ++
    ((if useAdvisor then [] else [(.pagesToScan, toString profile.pagesToScan)]) ++ [(.run, "1")])

theorem writeProfile_eq_perform (fs : Sysfs ε D) (gov : Governor K) (now : Instant)
    (profile : KsmProfile) (dir : D) :
    writeProfile fs gov now profile dir = fs.perform (profileWrites gov now profile) dir := by
  have hwrite : ∀ param value dir, (gov.ksm.writeValidated fs now param value dir).2 =
      fs.perform (gov.ksm.written now param value) dir :=
    fun param value dir => writeValidated_eq_perform gov.ksm fs now param value dir
  simp only [writeProfile, profileWrites, setRun, setSleepMillisecs, setMaxPageSharing,
    setPagesToScan, hwrite, Sysfs.perform_append]
  split <;> split <;> split <;> rfl

/-- No entry of the table is clamped. -/
theorem profiles_unclamped {level : Nat} {profile : KsmProfile}
    (h : profiles[level]? = some profile) :
    clampValue .sleepMillisecs profile.sleepMillisecs = profile.sleepMillisecs ∧
      clampValue .maxPageSharing profile.maxPageSharing = profile.maxPageSharing ∧
      clampValue .pagesToScan profile.pagesToScan = profile.pagesToScan := by
  have hall : ∀ p ∈ profiles, clampValue .sleepMillisecs p.sleepMillisecs = p.sleepMillisecs ∧
      clampValue .maxPageSharing p.maxPageSharing = p.maxPageSharing ∧
      clampValue .pagesToScan p.pagesToScan = p.pagesToScan := by
    decide
  exact hall profile (List.mem_of_getElem? h)

/-- A controller that lets writes pass writes the entries unclamped. -/
theorem profileWrites_eq {gov : Governor K} {now : Instant} (hpasses : gov.ksm.Passes now)
    {level : Nat} {profile : KsmProfile} (h : profiles[level]? = some profile)
    (hrun : profile.run = 1) :
    profileWrites gov now profile = entryWrites gov.config.useAdvisor profile := by
  obtain ⟨hsleep, hsharing, hpages⟩ := profiles_unclamped h
  have hone : clampValue .run 1 = 1 := rfl
  simp only [profileWrites, entryWrites, written, if_pos hpasses, hsleep, hsharing, hpages, hone, hrun,
    one_ne_zero, false_and, if_false, ne_eq, not_false_eq_true, if_true, List.nil_append]
  rfl

/-- The writes of start-up. -/
def startUpWrites (useAdvisor : Bool) : List KsmWrite :=
  (if useAdvisor then [(.advisorMode, "scan-time")] else []) ++ [(.run, "1")]

/-- Start-up on a controller that lets writes pass. -/
theorem startUp_eq_perform (fs : Sysfs ε D) (tier : GovernorTier K D) {now : Instant}
    (hpasses : tier.governor.ksm.Passes now) :
    tier.startUp fs now =
      { tier with dir := fs.perform (startUpWrites tier.governor.config.useAdvisor) tier.dir } := by
  unfold startUp setAdvisorMode writeString setRun writeValidated startUpWrites
  simp only [writeParam_of_passes hpasses, Sysfs.perform_append]
  split <;> rfl

/-- Start-up starts KSM and leaves what the advisor controls alone. -/
theorem mem_startUpWrites {useAdvisor : Bool} {w : KsmWrite} (h : w ∈ startUpWrites useAdvisor) :
    (w.1 = .run → w.2 = "1") ∧ w.1 ≠ .pagesToScan ∧ w.1 ≠ .advisorTargetScanTime := by
  cases useAdvisor <;>
    simp only [startUpWrites, List.mem_append, List.mem_cons, List.not_mem_nil, or_false, if_true,
      Bool.false_eq_true, if_false, false_or] at h
  · subst h; simp
  · rcases h with rfl | rfl <;> simp

/-- The directory follows the level, since the first applied profile, and its log never stops KSM
nor, with the advisor, touches what the advisor controls. -/
structure Tracks (value : D → Param → String) (useAdvisor : Bool) (log : List Application)
    (tier : GovernorTier K (D × List KsmWrite)) : Prop where
  running : value tier.dir.1 .run = "1"
  neverStopped : ∀ w ∈ tier.dir.2, w.1 = .run → w.2 = "1"
  entries : log ≠ [] → ∃ profile, profiles[tier.governor.currentLevel]? = some profile ∧
    value tier.dir.1 .sleepMillisecs = toString profile.sleepMillisecs ∧
    value tier.dir.1 .maxPageSharing = toString profile.maxPageSharing ∧
    (useAdvisor = false → value tier.dir.1 .pagesToScan = toString profile.pagesToScan)
  advisor : useAdvisor = true →
    ∀ w ∈ tier.dir.2, w.1 ≠ .pagesToScan ∧ w.1 ≠ .advisorTargetScanTime

/-- A governor that can go on tracking: its writes pass and its level has a profile. -/
structure Tracking (value : D → Param → String) (useAdvisor : Bool) (created now : Instant)
    (log : List Application) (tier : GovernorTier K (D × List KsmWrite)) : Prop
    extends Tracks value useAdvisor log tier where
  config : tier.governor.config.useAdvisor = useAdvisor
  ksm : tier.governor.ksm = .new created
  past : created ≤ now
  upper : tier.governor.currentLevel ≤ 5

variable {fs : Sysfs ε D} {value : D → Param → String} {useAdvisor : Bool} {created now : Instant}
  {log : List Application} {tier tier' : GovernorTier K (D × List KsmWrite)} {tick : Tick K}

/-- The writes of a running profile neither stop KSM nor touch what the advisor controls. -/
theorem mem_entryWrites {profile : KsmProfile} {w : KsmWrite} (h : w ∈ entryWrites useAdvisor profile) :
    (w.1 = .run → w.2 = "1") ∧ w.1 ≠ .advisorTargetScanTime ∧
      (useAdvisor = true → w.1 ≠ .pagesToScan) := by
  cases useAdvisor <;>
    simp only [entryWrites, List.mem_append, List.mem_cons, List.not_mem_nil, or_false, if_true,
      Bool.false_eq_true, if_false, false_or] at h
  · rcases h with (rfl | rfl) | rfl | rfl <;> simp
  · rcases h with (rfl | rfl) | rfl <;> simp

/-- Applying a profile that runs KSM makes its entries the values. -/
theorem Tracking.apply (haccepts : fs.Accepts value) (h : Tracking value useAdvisor created now log tier)
    {level : Nat} (hlevel : 1 ≤ level ∧ level ≤ 5) (log' : List Application)
    (happly : tier.applyProfile fs.logged now level = .ok tier') :
    Tracking value useAdvisor created now log' tier' := by
  obtain ⟨profile, hprofile, rfl⟩ := applyProfile_eq_ok happly
  obtain ⟨profile', hprofile', hrun⟩ := profiles_running hlevel.1 hlevel.2
  cases hprofile.symm.trans hprofile'
  have hpasses : tier.governor.ksm.Passes now := by
    rw [h.ksm]
    exact passes_new h.past
  have hdir : writeProfile fs.logged tier.governor now profile tier.dir =
      (fs.perform (entryWrites useAdvisor profile) tier.dir.1,
        tier.dir.2 ++ entryWrites useAdvisor profile) := by
    rw [writeProfile_eq_perform, profileWrites_eq hpasses hprofile hrun, h.config,
      Sysfs.perform_logged]
  -- Each parameter is written once, so the one write to it is its value.
  have hvalue : ∀ param text, (param, text) ∈ entryWrites useAdvisor profile →
      value (fs.perform (entryWrites useAdvisor profile) tier.dir.1) param = text := by
    intro param text hmem
    refine haccepts.value_perform_of_mem hmem (fun w hw hparam => ?_) tier.dir.1
    cases useAdvisor <;>
      simp only [entryWrites, List.mem_append, List.mem_cons, List.not_mem_nil, or_false, if_true,
        Bool.false_eq_true, if_false, false_or] at hmem hw <;>
      grind
  refine ⟨⟨?_, ?_, fun _ => ⟨profile, hprofile, ?_, ?_, ?_⟩, ?_⟩, h.config, h.ksm, h.past, hlevel.2⟩
  · rw [hdir]
    exact hvalue .run "1" (by simp [entryWrites])
  · rw [hdir]
    intro w hw
    exact (List.mem_append.mp hw).elim (h.neverStopped w) fun hw => (mem_entryWrites hw).1
  · rw [hdir]
    exact hvalue _ _ (by simp [entryWrites])
  · rw [hdir]
    exact hvalue _ _ (by simp [entryWrites])
  · rintro rfl
    rw [hdir]
    exact hvalue _ _ (by simp [entryWrites])
  · rw [hdir]
    intro hadvisor w hw
    rcases List.mem_append.mp hw with hw | hw
    · exact h.advisor hadvisor w hw
    · obtain ⟨-, htarget, hpages⟩ := mem_entryWrites hw
      exact ⟨hpages hadvisor, htarget⟩

theorem Tracking.later (h : Tracking value useAdvisor created now log tier) {later : Instant}
    (hle : now ≤ later) : Tracking value useAdvisor created later log tier :=
  ⟨h.toTracks, h.config, h.ksm, le_trans h.past hle, h.upper⟩

/-- Start-up begins the tracking, before any profile. -/
theorem tracking_startUp (haccepts : fs.Accepts value) (config : GovernorConfig K)
    (hcreated : created ≤ now) (state : GovernorState) (dir : D) :
    Tracking value config.useAdvisor created now []
      ((start config (.new created) created state (dir, [])).startUp fs.logged now) := by
  rw [startUp_eq_perform fs.logged (start config (.new created) created state (dir, []))
    (passes_new hcreated), Sysfs.perform_logged]
  refine ⟨⟨?_, ?_, fun h => absurd rfl h, ?_⟩, rfl, rfl, hcreated, Nat.zero_le 5⟩
  · exact haccepts.value_perform_of_mem (List.mem_append_right _ (List.mem_singleton_self _))
      (fun w hw => (mem_startUpWrites hw).1) dir
  · exact fun w hw => (mem_startUpWrites hw).1
  · exact fun _ w hw => (mem_startUpWrites hw).2

/-- A transition keeps the tracking. -/
theorem Tracking.transition [Average K] (haccepts : fs.Accepts value)
    (h : Tracking value useAdvisor created tick.now log tier)
    (hok : tier.transition fs.logged tick = .ok tier') :
    Tracking value useAdvisor created tick.now (log ++ tier.transitionCalls tick) tier' := by
  obtain ⟨level, gov, hpropose, hunmoved, hcases⟩ := transition_cases hok
  have hobserved : Tracking value useAdvisor created tick.now log { tier with governor := gov } := by
    refine ⟨⟨h.running, h.neverStopped, ?_, h.advisor⟩, ?_, ?_, h.past, ?_⟩
    · rw [hunmoved.currentLevel]
      exact h.entries
    · rw [hunmoved.config]
      exact h.config
    · exact hunmoved.ksm.trans h.ksm
    · exact hunmoved.currentLevel.trans_le h.upper
  rcases hcases with ⟨rfl, hcalls, -⟩ | ⟨hne, -, happly, -⟩
  · rw [hcalls, List.append_nil]
    exact hobserved
  · exact hobserved.apply haccepts (Governor.propose_running hpropose h.upper hne) _ happly

/-- The profit back-off keeps the tracking. -/
theorem Tracking.profitBackOff (haccepts : fs.Accepts value)
    (h : Tracking value useAdvisor created tick.now log tier)
    (hok : tier.profitBackOff fs.logged tick.now tick.ksmStats = .ok tier') :
    Tracking value useAdvisor created tick.now (log ++ tier.backOffCalls tick) tier' := by
  obtain ⟨-, rfl, hcalls⟩ | ⟨hback, happly, -⟩ := profitBackOff_cases hok
  · rw [hcalls, List.append_nil]
    exact h
  · have hlevel := hback.1
    have hupper := h.upper
    exact h.apply haccepts ⟨by omega, by omega⟩ _ happly

end GovernorTier

namespace Traced

variable {ε K D : Type} {fs : Sysfs ε D} {value : D → Param → String} {useAdvisor : Bool}
  {created : Instant} {t t' : Traced K (D × List KsmWrite)}

/-- A new governor after the start-up writes. -/
def started (fs : Sysfs ε D) (config : GovernorConfig K) (created launched : Instant)
    (state : GovernorState) (dir : D) : Traced K D where
  tier := (GovernorTier.start config (.new created) created state dir).startUp fs launched
  clock := launched
  log := []

/-- One tick keeps the tracking. -/
theorem tracking_tick [Average K] (haccepts : fs.Accepts value) {tk : Tick K}
    (h : t.tier.Tracking value useAdvisor created t.clock t.log) (hclock : t.clock ≤ tk.now)
    (hok : t.tick fs.logged tk = .ok t') :
    t'.tier.Tracking value useAdvisor created t'.clock t'.log := by
  obtain ⟨tier₁, tier₂, htransition, hbackOff, rfl⟩ := tick_eq_ok hok
  have htracking := ((h.later hclock).transition haccepts htransition).profitBackOff haccepts hbackOff
  rw [← List.append_assoc]
  exact ⟨⟨htracking.running, htracking.neverStopped, htracking.entries, htracking.advisor⟩,
    htracking.config, htracking.ksm, htracking.past, htracking.upper⟩

/-- A completed tick has published the governor's level. -/
theorem ksmLevel_tick [Average K] {fs : Sysfs ε D} {t t' : Traced K D} {tk : Tick K}
    (h : t.tick fs tk = .ok t') : t'.tier.state.ksmLevel = t'.tier.governor.currentLevel := by
  obtain ⟨tier₁, tier₂, -, -, rfl⟩ := tick_eq_ok h
  rfl

/-- A run of ticks in order keeps the tracking. -/
theorem tracking_runTicks [Average K] (haccepts : fs.Accepts value) {ticks : List (Tick K)}
    (h : t.tier.Tracking value useAdvisor created t.clock t.log) (horder : InOrder t.clock ticks) :
    ∃ t', t.runTicks fs.logged ticks = .ok t' ∧
      t'.tier.Tracking value useAdvisor created t'.clock t'.log := by
  obtain ⟨t', hrun⟩ := t.runTicks_ok fs.logged ticks h.upper
  refine ⟨t', hrun, ?_⟩
  exact Run.TryAlong.invariant (I := fun t => t.tier.Tracking value useAdvisor created t.clock t.log)
    (fun _ _ _ hs hle hok => tracking_tick haccepts hs hle hok) h horder.along hrun

/-- On a directory that accepts writes and has no other writer, after start-up and any ticks in
order KSM runs, the written parameters are the unclamped entries of the level's profile, what the
advisor controls is not written, and the shared level is the governor's. -/
theorem tracksLevel [Average K] (haccepts : fs.Accepts value) (config : GovernorConfig K)
    {launched : Instant} (hcreated : created ≤ launched) (state : GovernorState) (dir : D)
    (ticks : List (Tick K)) (horder : InOrder launched ticks) :
    ∃ t, (started fs.logged config created launched state (dir, [])).runTicks fs.logged ticks = .ok t ∧
      t.tier.Tracks value config.useAdvisor t.log ∧
      (ticks ≠ [] → t.tier.state.ksmLevel = t.tier.governor.currentLevel) := by
  have hstart := GovernorTier.tracking_startUp haccepts config hcreated state dir
  obtain ⟨t, hrun, htracking⟩ :=
    tracking_runTicks (t := started fs.logged config created launched state (dir, []))
      haccepts hstart horder
  refine ⟨t, hrun, htracking.toTracks, fun hne => ?_⟩
  obtain ⟨init, last, rfl⟩ := (List.eq_nil_or_concat ticks).resolve_left hne
  rw [List.concat_eq_append] at hrun
  obtain ⟨t₁, -, htick⟩ := Run.tryRun_concat_eq_ok hrun
  exact ksmLevel_tick htick

/-- A directory that is its parameters' values. -/
def valuesDir : Sysfs Unit (Param → String) where
  write param text values := (.ok (), Function.update values param text)

/-- After a critical tick without the advisor, the level is 5 and every parameter is that of level
5, whatever it was before. -/
theorem tracksLevel_apply : ∃ t, (started (K := ℚ) valuesDir.logged ⟨false, 5, 2, 1, 0, 0⟩ 0 0
    (newSharedState 0) (fun _ => "0", [])).runTicks valuesDir.logged [GovernorTier.criticalTick] = .ok t ∧
      t.tier.Tracks id false t.log ∧ t.tier.state.ksmLevel = t.tier.governor.currentLevel ∧
      t.tier.governor.currentLevel = 5 ∧ t.tier.dir.1 .run = "1" ∧
      t.tier.dir.1 .sleepMillisecs = "5" ∧ t.tier.dir.1 .maxPageSharing = "1024" ∧
      t.tier.dir.1 .pagesToScan = "30000" := by
  have haccepts : valuesDir.Accepts id := ⟨fun _ _ _ => rfl, fun _ _ _ => rfl⟩
  obtain ⟨t, hrun, htracks, hlevel⟩ := tracksLevel (K := ℚ) haccepts ⟨false, 5, 2, 1, 0, 0⟩
    (le_refl 0) (newSharedState 0) (fun _ => "0") [GovernorTier.criticalTick] (by decide)
  have hcalls : ((started (K := ℚ) valuesDir.logged ⟨false, 5, 2, 1, 0, 0⟩ 0 0 (newSharedState 0)
      (fun _ => "0", [])).runTicks valuesDir.logged [GovernorTier.criticalTick]).map
        (fun t => (t.log, t.tier.governor.currentLevel)) =
      .ok ([⟨.transition, fromSecs 2, 0, 0, 5⟩], 5) := by
    decide +kernel
  rw [hrun] at hcalls
  obtain ⟨hlog, hfive⟩ := Prod.mk.inj (Except.ok.inj hcalls)
  obtain ⟨profile, hprofile, hsleep, hsharing, hpages⟩ :=
    htracks.entries (by rw [hlog]; exact List.cons_ne_nil _ _)
  rw [hfive] at hprofile
  cases hprofile
  exact ⟨t, hrun, htracks, hlevel (List.cons_ne_nil _ _), hfive, htracks.running, hsleep, hsharing,
    hpages rfl⟩

end Traced

end Animaksm.Daemon

import Animaksm.Common.Restore

/-!
# Restores that fail on the way

The kernel may reject any of the eight writes of a restore. The writes are numbered
in their order; a rejected mandatory write, number 1 to 4, ends the restore, so that
what comes after it keeps the value it had.
-/

namespace Animaksm.Common

open KsmController

/-- The values of the parameters, and how many writes have been attempted. -/
structure Attempted where
  values : Param → String
  attempts : Nat

variable {ε S : Type}

/-- The directory after a write with this outcome. -/
def Attempted.write (dir : Attempted) (outcome : Except ε Unit) (param : Param) (text : String) :
    Attempted where
  values := match outcome with
    | .ok () => Function.update dir.values param text
    | .error _ => dir.values
  attempts := dir.attempts + 1

/-- A directory whose writes are accepted or rejected by their number. -/
def scripted (outcome : Nat → Except ε Unit) : Sysfs ε Attempted where
  write param text dir := (outcome dir.attempts, dir.write (outcome dir.attempts) param text)

/-- The parameters a restore writes. -/
def restoredParams : List Param :=
  [.run, .pagesToScan, .sleepMillisecs, .maxPageSharing, .advisorMode, .advisorTargetScanTime,
    .advisorMaxCpu]

/-- The number of the write that restores a parameter; number 0 is the first write of the advisor
mode. -/
def ownWrite (param : Param) : Nat := restoredParams.idxOf param + 1

/-- The text a restore writes to a parameter. -/
def KsmConfig.restoredText (config : KsmConfig) : Param → String
  | .run => toString (clampValue .run config.run)
  | .pagesToScan => toString (clampValue .pagesToScan config.pagesToScan)
  | .sleepMillisecs => toString (clampValue .sleepMillisecs config.sleepMillisecs)
  | .maxPageSharing => toString (clampValue .maxPageSharing config.maxPageSharing)
  | .advisorMode => config.advisorMode
  | .advisorTargetScanTime => toString (clampValue .advisorTargetScanTime config.advisorTargetScanTime)
  | .advisorMaxCpu => toString (clampValue .advisorMaxCpu config.advisorMaxCpu)
  | .advisorMinPagesToScan => toString config.advisorMinPagesToScan
  | .advisorMaxPagesToScan => toString config.advisorMaxPagesToScan

/-- The advisor mode written first: the snapshot's, or `none` in place of `scan-time`. -/
def KsmConfig.firstMode (config : KsmConfig) : String :=
  if config.advisorMode ≠ "scan-time" then config.advisorMode else "none"

/-- No mandatory write before a parameter's own one is rejected. -/
def Reached (outcome : Nat → Except ε Unit) (param : Param) : Prop :=
  ∀ number < ownWrite param, 1 ≤ number → number ≤ 4 → outcome number = .ok ()

/-- A parameter that is not reached holds its snapshot value all the same: it did before the restore,
or, for the advisor mode, the first write left it there. -/
def HeldBefore (config : KsmConfig) (outcome : Nat → Except ε Unit) (values : Param → String)
    (param : Param) : Prop :=
  if param = .advisorMode then
    outcome 0 = .ok () ∧ config.advisorMode ≠ "scan-time" ∨
      outcome 0 ≠ .ok () ∧ values .advisorMode = config.advisorMode
  else values param = config.restoredText param

/-- Every parameter whose own write is accepted holds its snapshot value. -/
def Complete (config : KsmConfig) (outcome : Nat → Except ε Unit) (values : Param → String) : Prop :=
  ∀ param ∈ restoredParams, outcome (ownWrite param) = .ok () → values param = config.restoredText param

namespace Attempted

variable {dir : Attempted} {outcome : Except ε Unit} {param other : Param} {text : String}

@[simp] theorem attempts_write : (dir.write outcome param text).attempts = dir.attempts + 1 := rfl

theorem values_write_ok (h : outcome = .ok ()) : (dir.write outcome param text).values param = text := by
  subst h
  exact Function.update_self ..

theorem values_write_error (h : outcome ≠ .ok ()) : (dir.write outcome param text).values = dir.values := by
  rcases outcome with e | ⟨⟩
  · rfl
  · exact absurd rfl h

theorem values_write_of_ne (h : other ≠ param) :
    (dir.write outcome param text).values other = dir.values other := by
  rcases outcome with e | ⟨⟩
  · rfl
  · exact Function.update_of_ne h ..

end Attempted

section Script

variable {ksm : KsmController} {now : Instant} (outcome : Nat → Except ε Unit)

/-- A parameter write is the next write of the script. -/
theorem writeParam_scripted (hpasses : ksm.Passes now) (param : Param) (text : String) (dir : Attempted) :
    ksm.writeParam (scripted outcome) now param text dir =
      ((outcome dir.attempts).mapError fun e => .sysfs (.param param) (.os e),
        dir.write (outcome dir.attempts) param text) :=
  writeParam_of_passes hpasses _ _ _ _

/-- A loop of setters leaves what none of them sets. -/
theorem values_forEach_of_notMem (hpasses : ksm.Passes now) {writes : List (Param × Nat)} {param : Param}
    (hnot : ∀ w ∈ writes, w.1 ≠ param) (dir : Attempted) :
    (Loop.forEach (ksm.set (scripted outcome) now) writes dir).2.values param = dir.values param := by
  refine Loop.forEach_keeps (P := fun d : Attempted => d.values param = dir.values param) ?_ rfl
  intro w hw d hd
  rw [KsmController.set, writeValidated, writeParam_scripted outcome hpasses]
  exact (Attempted.values_write_of_ne (hnot w hw).symm).trans hd

/-- The writes with these numbers are accepted. -/
def AcceptedFrom (outcome : Nat → Except ε Unit) (start count : Nat) : Prop :=
  ∀ number, start ≤ number → number < start + count → outcome number = .ok ()

theorem acceptedFrom_succ {outcome : Nat → Except ε Unit} {start count : Nat} : AcceptedFrom outcome start (count + 1) ↔
    outcome start = .ok () ∧ AcceptedFrom outcome (start + 1) count := by
  constructor
  · intro h
    exact ⟨h start (le_refl _) (by omega), fun number hlo hhi => h number (by omega) (by omega)⟩
  · rintro ⟨hstart, hrest⟩ number hlo hhi
    rcases Nat.eq_or_lt_of_le hlo with rfl | hlt
    · exact hstart
    · exact hrest number hlt (by omega)

/-- A loop of setters succeeds when all of its writes are accepted, and then it has made them all. -/
theorem forEach_set_cases (hpasses : ksm.Passes now) (writes : List (Param × Nat)) (dir : Attempted) :
    (∃ e dir', Loop.forEach (ksm.set (scripted outcome) now) writes dir = (.error e, dir') ∧
      ¬ AcceptedFrom outcome dir.attempts writes.length) ∨
    ∃ dir', Loop.forEach (ksm.set (scripted outcome) now) writes dir = (.ok (), dir') ∧
      AcceptedFrom outcome dir.attempts writes.length ∧
      dir'.attempts = dir.attempts + writes.length := by
  induction writes generalizing dir with
  | nil => exact .inr ⟨dir, rfl, fun number hlo hhi => absurd hlo (Nat.not_le.mpr hhi), rfl⟩
  | cons w writes ih =>
    have hset : ksm.set (scripted outcome) now w dir =
        ((outcome dir.attempts).mapError fun e => .sysfs (.param w.1) (.os e),
          dir.write (outcome dir.attempts) w.1 (toString (clampValue w.1 w.2))) :=
      writeParam_scripted outcome hpasses _ _ dir
    rw [List.length_cons, acceptedFrom_succ]
    cases houtcome : outcome dir.attempts with
    | error e =>
      rw [houtcome] at hset
      exact .inl ⟨_, _, Loop.forEach_cons_error hset _, fun h => by cases h.1⟩
    | ok u =>
      rw [houtcome] at hset
      rw [Loop.forEach_cons_ok hset]
      rcases ih (dir.write (.ok u : Except ε Unit) w.1 (toString (clampValue w.1 w.2))) with
        ⟨e, dir', hloop, hnot⟩ | ⟨dir', hloop, haccepted, hattempts⟩
      · exact .inl ⟨e, dir', hloop, fun h => hnot h.2⟩
      · refine .inr ⟨dir', hloop, ⟨rfl, haccepted⟩, ?_⟩
        rw [hattempts, Attempted.attempts_write]
        omega

/-- A value that a loop sets once is set when its write and those before it are accepted. -/
theorem values_forEach_of_mem (hpasses : ksm.Passes now) {before after : List (Param × Nat)}
    {param : Param} (value : Nat) (hbefore : ∀ w ∈ before, w.1 ≠ param)
    (hafter : ∀ w ∈ after, w.1 ≠ param) (dir : Attempted) :
    (AcceptedFrom outcome dir.attempts (before.length + 1) →
      (Loop.forEach (ksm.set (scripted outcome) now) (before ++ (param, value) :: after) dir).2.values
        param = toString (clampValue param value)) ∧
    (¬ AcceptedFrom outcome dir.attempts (before.length + 1) →
      (Loop.forEach (ksm.set (scripted outcome) now) (before ++ (param, value) :: after) dir).2.values
        param = dir.values param) := by
  have hkept := values_forEach_of_notMem outcome hpasses hbefore dir
  rcases forEach_set_cases outcome hpasses before dir with
    ⟨e, dir', hloop, hnot⟩ | ⟨dir', hloop, haccepted, hattempts⟩
  · rw [hloop] at hkept
    rw [Loop.forEach_append_error hloop]
    refine ⟨fun h => absurd (fun number hlo hhi => h number hlo (by omega)) hnot, fun _ => hkept⟩
  · rw [hloop] at hkept
    rw [Loop.forEach_append_ok hloop]
    have hset : ksm.set (scripted outcome) now (param, value) dir' =
        ((outcome dir'.attempts).mapError fun e => .sysfs (.param param) (.os e),
          dir'.write (outcome dir'.attempts) param (toString (clampValue param value))) :=
      writeParam_scripted outcome hpasses _ _ dir'
    cases houtcome : outcome dir'.attempts with
    | error e =>
      rw [houtcome] at hset
      rw [Loop.forEach_cons_error hset]
      refine ⟨fun h => ?_, fun _ => hkept⟩
      have := h dir'.attempts (by omega) (by omega)
      rw [houtcome] at this
      cases this
    | ok u =>
      rw [houtcome] at hset
      rw [Loop.forEach_cons_ok hset, values_forEach_of_notMem outcome hpasses hafter]
      refine ⟨fun _ => Attempted.values_write_ok rfl, fun h => absurd (fun number hlo hhi => ?_) h⟩
      rcases Nat.eq_or_lt_of_le (show number ≤ dir'.attempts by omega) with rfl | hlt
      · exact houtcome
      · exact haccepted number hlo (by omega)

/-- The directory after the first write of a restore. -/
def afterFirst (config : KsmConfig) (outcome : Nat → Except ε Unit) (values : Param → String) :
    Attempted :=
  (⟨values, 0⟩ : Attempted).write (outcome 0) .advisorMode config.firstMode

/-- The last three writes of a restore. -/
def lastWrites (config : KsmConfig) (outcome : Nat → Except ε Unit) (dir : Attempted) : Attempted :=
  let dir := dir.write (outcome dir.attempts) .advisorMode config.advisorMode
  let dir := dir.write (outcome dir.attempts) .advisorTargetScanTime
    (config.restoredText .advisorTargetScanTime)
  dir.write (outcome dir.attempts) .advisorMaxCpu (config.restoredText .advisorMaxCpu)

/-- A restore is its first write, the mandatory ones, and the last three if these succeed. -/
theorem restoreConfig_scripted (hpasses : ksm.Passes now) (config : KsmConfig)
    (values : Param → String) :
    (ksm.restoreConfig (scripted outcome) now config ⟨values, 0⟩).2 =
      match Loop.forEach (ksm.set (scripted outcome) now) config.mandatory
        (afterFirst config outcome values) with
      | (.error _, dir) => dir
      | (.ok (), dir) => lastWrites config outcome dir := by
  have hfirst : (if config.advisorMode ≠ "scan-time" then
      (ksm.setAdvisorMode (scripted outcome) now config.advisorMode ⟨values, 0⟩).2
      else (ksm.setAdvisorMode (scripted outcome) now "none" ⟨values, 0⟩).2) =
      afterFirst config outcome values := by
    simp only [setAdvisorMode, writeString, writeParam_scripted outcome hpasses, afterFirst, KsmConfig.firstMode]
    split <;> rfl
  simp only [restoreConfig, hfirst, restoreMandatory_eq]
  rcases Loop.forEach (ksm.set (scripted outcome) now) config.mandatory
    (afterFirst config outcome values) with ⟨e | ⟨⟩, dir⟩
  · rfl
  · simp only [setAdvisorMode, setAdvisorTargetScanTime, setAdvisorMaxCpu, writeString, writeValidated,
      writeParam_scripted outcome hpasses]
    rfl

/-- A mandatory parameter holds its snapshot value if its write is reached and accepted, and the
value it had otherwise. -/
theorem values_restoreConfig_mandatory (hpasses : ksm.Passes now) (config : KsmConfig)
    (values : Param → String) {before after : List (Param × Nat)} {param : Param} {value : Nat}
    (hsplit : config.mandatory = before ++ (param, value) :: after)
    (hbefore : ∀ w ∈ before, w.1 ≠ param) (hafter : ∀ w ∈ after, w.1 ≠ param)
    (hlast : param ≠ .advisorMode ∧ param ≠ .advisorTargetScanTime ∧ param ≠ .advisorMaxCpu) :
    (AcceptedFrom outcome 1 (before.length + 1) →
      (ksm.restoreConfig (scripted outcome) now config ⟨values, 0⟩).2.values param =
        toString (clampValue param value)) ∧
    (¬ AcceptedFrom outcome 1 (before.length + 1) →
      (ksm.restoreConfig (scripted outcome) now config ⟨values, 0⟩).2.values param =
        (afterFirst config outcome values).values param) := by
  have hloop := values_forEach_of_mem outcome hpasses value hbefore hafter
    (afterFirst config outcome values)
  rw [← hsplit] at hloop
  rw [restoreConfig_scripted outcome hpasses]
  revert hloop
  rcases Loop.forEach (ksm.set (scripted outcome) now) config.mandatory
    (afterFirst config outcome values) with ⟨e | ⟨⟩, dir⟩
  · exact id
  · intro hloop
    dsimp only [lastWrites]
    rw [Attempted.values_write_of_ne hlast.2.2, Attempted.values_write_of_ne hlast.2.1,
      Attempted.values_write_of_ne hlast.1]
    exact hloop

/-- A parameter of the last three writes holds its snapshot value if all mandatory writes and its own
one are accepted, and the value it had otherwise. -/
theorem values_restoreConfig_last (hpasses : ksm.Passes now) (config : KsmConfig)
    (values : Param → String) {param : Param}
    (hparam : param ∈ [Param.advisorMode, .advisorTargetScanTime, .advisorMaxCpu]) :
    (AcceptedFrom outcome 1 4 ∧ outcome (ownWrite param) = .ok () →
      (ksm.restoreConfig (scripted outcome) now config ⟨values, 0⟩).2.values param =
        config.restoredText param) ∧
    (¬ (AcceptedFrom outcome 1 4 ∧ outcome (ownWrite param) = .ok ()) →
      (ksm.restoreConfig (scripted outcome) now config ⟨values, 0⟩).2.values param =
        (afterFirst config outcome values).values param) := by
  have hnot : ∀ w ∈ config.mandatory, w.1 ≠ param := by
    intro w hw heq
    simp only [KsmConfig.mandatory, List.mem_cons, List.not_mem_nil, or_false] at hw hparam
    rcases hw with rfl | rfl | rfl | rfl <;> subst heq <;> simp at hparam
  have hkept := values_forEach_of_notMem outcome hpasses hnot
    (afterFirst config outcome values)
  rw [restoreConfig_scripted outcome hpasses]
  rcases forEach_set_cases outcome hpasses config.mandatory
    (afterFirst config outcome values) with ⟨e, dir, hloop, hrejected⟩ | ⟨dir, hloop, haccepted, hattempts⟩
  · rw [hloop] at hkept ⊢
    exact ⟨fun h => absurd h.1 hrejected, fun _ => hkept⟩
  · rw [hloop] at hkept ⊢
    have hfive : dir.attempts = 5 := hattempts
    have hfour : AcceptedFrom outcome 1 4 := haccepted
    dsimp only at hkept ⊢
    rw [← hkept]
    simp only [hfour, true_and, lastWrites, hfive, Attempted.attempts_write]
    -- Each of the three is written once, by its own write.
    simp only [List.mem_cons, List.not_mem_nil, or_false] at hparam
    rcases hparam with rfl | rfl | rfl
    · rw [Attempted.values_write_of_ne (by decide), Attempted.values_write_of_ne (by decide)]
      exact ⟨Attempted.values_write_ok, fun h => congrFun (Attempted.values_write_error h) _⟩
    · rw [Attempted.values_write_of_ne (by decide)]
      exact ⟨Attempted.values_write_ok, fun h => (congrFun (Attempted.values_write_error h) _).trans
        (Attempted.values_write_of_ne (by decide))⟩
    · refine ⟨Attempted.values_write_ok, fun h => (congrFun (Attempted.values_write_error h) _).trans ?_⟩
      rw [Attempted.values_write_of_ne (by decide), Attempted.values_write_of_ne (by decide)]

/-- A parameter that a restore writes holds its snapshot value if its own write is reached and
accepted, and otherwise the value it had when the mandatory writes began. -/
theorem values_restoreConfig (hpasses : ksm.Passes now) (config : KsmConfig)
    (values : Param → String) {param : Param} (hparam : param ∈ restoredParams) :
    (Reached outcome param ∧ outcome (ownWrite param) = .ok () →
      (ksm.restoreConfig (scripted outcome) now config ⟨values, 0⟩).2.values param =
        config.restoredText param) ∧
    (¬ (Reached outcome param ∧ outcome (ownWrite param) = .ok ()) →
      (ksm.restoreConfig (scripted outcome) now config ⟨values, 0⟩).2.values param =
        (afterFirst config outcome values).values param) := by
  -- A mandatory write is the last one of those up to its number.
  have hmandatory : ∀ {p : Param}, ownWrite p ≤ 4 →
      (Reached outcome p ∧ outcome (ownWrite p) = .ok () ↔ AcceptedFrom outcome 1 (ownWrite p)) := by
    intro p hp
    have hpos : 1 ≤ ownWrite p := Nat.succ_le_succ (Nat.zero_le _)
    constructor
    · rintro ⟨hreached, hown⟩ number hlo hhi
      rcases Nat.eq_or_lt_of_le (show number ≤ ownWrite p by omega) with rfl | hlt
      · exact hown
      · exact hreached number hlt hlo (by omega)
    · intro h
      exact ⟨fun number hlt hlo _ => h number hlo (by omega), h _ hpos (by omega)⟩
  have hlast : ∀ {p : Param}, 4 < ownWrite p → (Reached outcome p ↔ AcceptedFrom outcome 1 4) :=
    fun hp => ⟨fun h number hlo hhi => h number (by omega) hlo (by omega),
      fun h number _ hlo hhi => h number hlo (by omega)⟩
  simp only [restoredParams, List.mem_cons, List.not_mem_nil, or_false] at hparam
  rcases hparam with rfl | rfl | rfl | rfl | hparam
  · rw [hmandatory (by decide)]
    exact values_restoreConfig_mandatory outcome hpasses config values (List.nil_append _).symm
      (by simp) (by simp) (by decide)
  · rw [hmandatory (by decide)]
    exact values_restoreConfig_mandatory outcome hpasses config values
      (List.singleton_append (x := (Param.run, config.run))).symm
      (by simp) (by simp) (by decide)
  · rw [hmandatory (by decide)]
    exact values_restoreConfig_mandatory outcome hpasses config values
      (show config.mandatory = [(.run, config.run), (.pagesToScan, config.pagesToScan)] ++ _ from rfl)
      (by simp) (by simp) (by decide)
  · rw [hmandatory (by decide)]
    exact values_restoreConfig_mandatory outcome hpasses config values
      (show config.mandatory = [(.run, config.run), (.pagesToScan, config.pagesToScan),
        (.sleepMillisecs, config.sleepMillisecs)] ++ _ from rfl)
      (by simp) (by simp) (by decide)
  · have hfour : 4 < ownWrite param := by
      rcases hparam with rfl | rfl | rfl <;> decide
    rw [hlast hfour]
    exact values_restoreConfig_last outcome hpasses config values (by simpa using hparam)

theorem afterFirst_iff_heldBefore (config : KsmConfig) (values : Param → String) (param : Param) :
    (afterFirst config outcome values).values param = config.restoredText param ↔
      HeldBefore config outcome values param := by
  unfold HeldBefore
  split
  next hmode =>
    subst hmode
    change _ = config.advisorMode ↔ _
    by_cases hfirst : outcome 0 = .ok ()
    · rw [afterFirst, Attempted.values_write_ok hfirst, KsmConfig.firstMode]
      split
      next hne => exact ⟨fun _ => .inl ⟨hfirst, hne⟩, fun _ => rfl⟩
      next heq =>
        rw [not_not.mp heq]
        simp [hfirst]
    · rw [afterFirst, Attempted.values_write_error hfirst]
      exact ⟨fun h => .inr ⟨hfirst, h⟩, fun h => (h.resolve_left fun h => hfirst h.1).2⟩
  next hmode =>
    rw [afterFirst, Attempted.values_write_of_ne hmode]

end Script

/-- A restore sets every parameter whose own write is accepted exactly when each of them is reached or
held its snapshot value before. -/
theorem restore_complete_iff (outcome : Nat → Except ε Unit) (values : Param → String)
    {files : StateDir ε S} {serde : Serde} {state : S} {saved : KsmSnapshot}
    (hload : loadSnapshot files serde state = .ok (some saved)) {created now : Instant}
    (hcreated : created ≤ now) :
    Complete saved.config outcome ((KsmController.new created).restore (scripted outcome) files serde
        now state ⟨values, 0⟩).2.values ↔
      ∀ param ∈ restoredParams, outcome (ownWrite param) = .ok () →
        Reached outcome param ∨ HeldBefore saved.config outcome values param := by
  have hrestore : (KsmController.new created).restore (scripted outcome) files serde now state
      ⟨values, 0⟩ = (KsmController.new created).restoreConfig (scripted outcome) now saved.config
        ⟨values, 0⟩ := by
    rw [restore, hload]
  rw [hrestore]
  refine forall_congr' fun param => imp_congr_right fun hparam => imp_congr_right fun hown => ?_
  obtain ⟨hset, hkept⟩ := values_restoreConfig outcome (passes_new hcreated) saved.config
    values hparam
  by_cases hreached : Reached outcome param
  · exact iff_of_true (hset ⟨hreached, hown⟩) (.inl hreached)
  · rw [hkept fun h => hreached h.1, afterFirst_iff_heldBefore]
    exact ⟨.inr, fun h => h.resolve_left hreached⟩

/-- A state directory that holds the text of this snapshot. -/
def savedFile (saved : KsmSnapshot) : String → Option String :=
  fun name => if name = snapshotFilename then some (prettyJson saved) else none

theorem loadSnapshot_savedFile (saved : KsmSnapshot) :
    loadSnapshot memoryFiles (serdeOf saved) (savedFile saved) = .ok (some saved) := by
  simp only [loadSnapshot, memoryFiles, savedFile, if_true, Option.isSome_some, fromStr_serdeOf]

/-- Every write of a restore is accepted but the one with this number. -/
def busyAt (rejected : Nat) : Nat → Except Unit Unit :=
  fun number => if number = rejected then .error () else .ok ()

theorem restore_complete_iff_apply : Complete (snapshotOf safeState).config (busyAt 7)
    ((KsmController.new 0).restore (scripted (busyAt 7)) memoryFiles (serdeOf (snapshotOf safeState)) 1
      (savedFile (snapshotOf safeState)) ⟨fun _ => "0", 0⟩).2.values := by
  refine (restore_complete_iff (busyAt 7) (fun _ => "0") (loadSnapshot_savedFile (snapshotOf safeState))
    (show (0 : Instant) ≤ 1 by decide)).mpr fun param _ _ => .inl fun number _ _ hfour => ?_
  exact if_neg (by omega)

/-- When `max_page_sharing` is busy, the write that would enable the scan-time advisor again is not
made, and the advisor stays off. -/
theorem not_restore_complete : busyAt 4 (ownWrite .advisorMode) = .ok () ∧
    (snapshotOf safeState).config.advisorMode = "scan-time" ∧
    ((KsmController.new 0).restore (scripted (busyAt 4)) memoryFiles (serdeOf (snapshotOf safeState)) 1
      (savedFile (snapshotOf safeState)) ⟨fun _ => "0", 0⟩).2.values .advisorMode = "none" ∧
    ¬ Complete (snapshotOf safeState).config (busyAt 4)
      ((KsmController.new 0).restore (scripted (busyAt 4)) memoryFiles
        (serdeOf (snapshotOf safeState)) 1 (savedFile (snapshotOf safeState))
        ⟨fun _ => "0", 0⟩).2.values := by
  have hrestore : (KsmController.new 0).restore (scripted (busyAt 4)) memoryFiles
      (serdeOf (snapshotOf safeState)) 1 (savedFile (snapshotOf safeState)) ⟨fun _ => "0", 0⟩ =
      (KsmController.new 0).restoreConfig (scripted (busyAt 4)) 1 (snapshotOf safeState).config
        ⟨fun _ => "0", 0⟩ := by
    rw [restore, loadSnapshot_savedFile]
  have hnone : ((KsmController.new 0).restoreConfig (scripted (busyAt 4)) 1 (snapshotOf safeState).config
      ⟨fun _ => "0", 0⟩).2.values .advisorMode = "none" := by
    refine ((values_restoreConfig (busyAt 4) (passes_new (by decide)) _ _ (by decide)).2 fun h => ?_).trans rfl
    exact absurd (h.1 4 (by decide) (by decide) (by decide)) (by decide)
  rw [hrestore]
  refine ⟨rfl, rfl, hnone, fun hcomplete => ?_⟩
  have hmode := (hcomplete .advisorMode (by decide) rfl).symm.trans hnone
  exact absurd hmode (by decide)

end Animaksm.Common

import Animaksm.Common.Restore
import Animaksm.Lib.Run

/-!
# Snapshots of a daemon that is killed

A snapshot goes to a temporary file that is renamed once it is complete. Killed at any
point, also in the middle of the write, an attempt leaves the saved snapshot as it
was or has replaced it as a whole, and what is loaded later was never half written.
-/

namespace Animaksm.Common

/-- Where an attempt is killed, if it is. -/
inductive Kill where
  | never
  /-- Before the first file operation. -/
  | atOnce
  | beforeWrite
  /-- After this much of the text. -/
  | duringWrite (length : Nat)
  | beforeRename
  | afterRename
  deriving DecidableEq, Repr

/-- What a write that is killed leaves of a file, when this much of the text was written. -/
abbrev Interrupted (S : Type) := String → String → Nat → S → S

namespace KsmController

variable {ε D S : Type}

/-- Write the temporary file and rename it. -/
def replaceUntil (files : StateDir ε S) (json : String) (kill : Kill) (state : S) :
    Option (Except (AnimaksmError ε) Unit) × S :=
  match files.write (snapshotFilename ++ ".tmp") json state with
  | (.error e, state) => (some (.error (.io (.os e))), state)
  | (.ok (), state) =>
    if kill = .beforeRename then (none, state)
    else
      match files.rename (snapshotFilename ++ ".tmp") snapshotFilename state with
      | (.error e, state) => (some (.error (.io (.os e))), state)
      | (.ok (), state) => (if kill = .afterRename then none else some (.ok ()), state)

/-- The file operations of a snapshot that may be killed, which then returns nothing. -/
def saveUntil (files : StateDir ε S) (interrupted : Interrupted S) (json : String) (kill : Kill)
    (state : S) : Option (Except (AnimaksmError ε) Unit) × S :=
  if kill = .atOnce then (none, state)
  else
    match files.createDirAll state with
    | (.error e, state) => (some (.error (.io (.os e))), state)
    | (.ok (), state) =>
      match kill with
      | .beforeWrite => (none, state)
      | .duringWrite length => (none, interrupted (snapshotFilename ++ ".tmp") json length state)
      | _ => replaceUntil files json kill state

/-- A snapshot that may be killed. -/
def snapshotUntil (fs : KsmDir ε D) (files : StateDir ε S) (interrupted : Interrupted S) (serde : Serde)
    (timestamp : String) (dir : D) (kill : Kill) (state : S) :
    Option (Except (AnimaksmError ε) Unit) × S :=
  match readConfig fs dir with
  | .error e => (some (.error e), state)
  | .ok config =>
    match serde.toStringPretty ⟨config, timestamp⟩ with
    | .error message => (some (.error (.snapshot message)), state)
    | .ok json => saveUntil files interrupted json kill state

/-- An attempt that is not killed is a snapshot. -/
theorem snapshotUntil_never (fs : KsmDir ε D) (files : StateDir ε S) (interrupted : Interrupted S)
    (serde : Serde) (timestamp : String) (dir : D) (state : S) :
    snapshotUntil fs files interrupted serde timestamp dir .never state =
      (some (snapshot fs files serde timestamp dir state).1,
        (snapshot fs files serde timestamp dir state).2) := by
  unfold snapshotUntil snapshot
  cases readConfig fs dir with
  | error e => rfl
  | ok config =>
    dsimp only
    cases serde.toStringPretty ⟨config, timestamp⟩ with
    | error message => rfl
    | ok json =>
      dsimp only [saveUntil, replaceUntil]
      rw [if_neg (by decide)]
      rcases files.createDirAll state with ⟨e | ⟨⟩, state₁⟩
      · rfl
      · dsimp only
        rcases files.write (snapshotFilename ++ ".tmp") json state₁ with ⟨e | ⟨⟩, state₂⟩
        · rfl
        · dsimp only
          rcases files.rename (snapshotFilename ++ ".tmp") snapshotFilename state₂ with ⟨e | ⟨⟩, state₃⟩
          · rfl
          · rfl

end KsmController

/-- The file operations touch the files they are for, and a rename that fails touches none. -/
structure StateDir.Atomic {ε S : Type} (files : StateDir ε S) (interrupted : Interrupted S)
    (contents : S → String → Option String) : Prop extends files.Durable contents where
  createDirAll : ∀ name state, contents (files.createDirAll state).2 name = contents state name
  write_other : ∀ name text other state, other ≠ name →
    contents (files.write name text state).2 other = contents state other
  interrupted_other : ∀ name text length other state, other ≠ name →
    contents (interrupted name text length state) other = contents state other
  rename_error : ∀ source target other state e, (files.rename source target state).1 = .error e →
    contents (files.rename source target state).2 other = contents state other
  missing : ∀ name state, contents state name = none → files.existsFile name state = false

namespace KsmController

variable {ε D S : Type} {fs : KsmDir ε D} {files : StateDir ε S} {interrupted : Interrupted S}
  {serde : Serde} {contents : S → String → Option String}

/-- The temporary file is not the snapshot. -/
theorem snapshotFilename_ne : snapshotFilename ≠ snapshotFilename ++ ".tmp" := by decide

/-- The saved snapshot is as it was, and the attempt did not succeed, or it is this text, and the attempt
did not fail. -/
def Whole (contents : S → String → Option String) (json : String) (state : S)
    (attempt : Option (Except (AnimaksmError ε) Unit) × S) : Prop :=
  (contents attempt.2 snapshotFilename = contents state snapshotFilename ∧
    attempt.1 ≠ some (.ok ())) ∨
  (contents attempt.2 snapshotFilename = some json ∧ ∀ e, attempt.1 ≠ some (.error e))

theorem replaceUntil_whole (h : files.Atomic interrupted contents) (json : String) (kill : Kill)
    (state : S) : Whole contents json state (replaceUntil files json kill state) := by
  have hwrite := h.write_other (snapshotFilename ++ ".tmp") json snapshotFilename state snapshotFilename_ne
  have hwritten := h.write (snapshotFilename ++ ".tmp") json state
  unfold replaceUntil
  rcases hresult : files.write (snapshotFilename ++ ".tmp") json state with ⟨e | ⟨⟩, state₁⟩
  · rw [hresult] at hwrite
    exact .inl ⟨hwrite, fun heq => by cases heq⟩
  rw [hresult] at hwrite hwritten
  have hrename := h.rename (snapshotFilename ++ ".tmp") snapshotFilename state₁
  have herror := h.rename_error (snapshotFilename ++ ".tmp") snapshotFilename snapshotFilename state₁
  dsimp only
  split
  · exact .inl ⟨hwrite, fun heq => by cases heq⟩
  rcases hrenamed : files.rename (snapshotFilename ++ ".tmp") snapshotFilename state₁ with
    ⟨e | ⟨⟩, state₂⟩
  · rw [hrenamed] at herror
    exact .inl ⟨(herror e rfl).trans hwrite, fun heq => by cases heq⟩
  · rw [hrenamed] at hrename
    refine .inr ⟨(hrename rfl).trans (hwritten rfl), fun e => ?_⟩
    dsimp only
    split
    · exact fun heq => by cases heq
    · exact fun heq => by cases heq

theorem saveUntil_whole (h : files.Atomic interrupted contents) (json : String) (kill : Kill) (state : S) :
    Whole (ε := ε) contents json state (saveUntil files interrupted json kill state) := by
  have hcreate := h.createDirAll snapshotFilename state
  unfold saveUntil
  split
  · exact .inl ⟨rfl, fun heq => by cases heq⟩
  rcases hcreated : files.createDirAll state with ⟨e | ⟨⟩, state₁⟩
  · rw [hcreated] at hcreate
    exact .inl ⟨hcreate, fun heq => by cases heq⟩
  rw [hcreated] at hcreate
  have hreplace := replaceUntil_whole h json kill state₁
  unfold Whole at hreplace
  rw [hcreate] at hreplace
  cases kill with
  | beforeWrite => exact .inl ⟨hcreate, fun heq => by cases heq⟩
  | duringWrite length =>
    refine .inl ⟨(h.interrupted_other _ json length _ state₁ snapshotFilename_ne).trans hcreate, ?_⟩
    exact fun heq => by cases heq
  | never => exact hreplace
  | atOnce => exact hreplace
  | beforeRename => exact hreplace
  | afterRename => exact hreplace

/-- An attempt leaves the saved snapshot as it was, and does not succeed, or replaces it by the
configuration, and does not fail. -/
theorem snapshotUntil_cases (h : files.Atomic interrupted contents) (timestamp : String) (dir : D)
    (kill : Kill) (state : S) :
    let attempt := snapshotUntil fs files interrupted serde timestamp dir kill state
    (contents attempt.2 snapshotFilename = contents state snapshotFilename ∧
      attempt.1 ≠ some (.ok ())) ∨
    ∃ config json, readConfig fs dir = .ok config ∧
      serde.toStringPretty ⟨config, timestamp⟩ = .ok json ∧
      contents attempt.2 snapshotFilename = some json ∧ ∀ e, attempt.1 ≠ some (.error e) := by
  unfold snapshotUntil
  cases hconfig : readConfig fs dir with
  | error e => exact .inl ⟨rfl, fun heq => by cases heq⟩
  | ok config =>
    dsimp only
    cases hjson : serde.toStringPretty ⟨config, timestamp⟩ with
    | error message => exact .inl ⟨rfl, fun heq => by cases heq⟩
    | ok json =>
      rcases saveUntil_whole h json kill state with hkept | ⟨hcontents, herror⟩
      · exact .inl hkept
      · exact .inr ⟨config, json, rfl, hjson, hcontents, herror⟩

/-! ## Loading -/

/-- What is loaded depends on the content of the saved snapshot. -/
theorem loadSnapshot_of_contents (h : files.Atomic interrupted contents) {state state' : S}
    (hcontents : contents state' snapshotFilename = contents state snapshotFilename) :
    loadSnapshot files serde state' = loadSnapshot files serde state := by
  unfold loadSnapshot
  cases hbefore : contents state snapshotFilename with
  | none =>
    rw [h.missing _ _ hbefore, h.missing _ _ (hcontents.trans hbefore)]
    rfl
  | some text =>
    have hafter := hcontents.trans hbefore
    rw [h.existsFile _ state (by rw [hbefore]; rfl), h.existsFile _ state' (by rw [hafter]; rfl),
      h.readToString _ _ _ hbefore, h.readToString _ _ _ hafter]

/-- A snapshot whose text parses back is loaded. -/
theorem loadSnapshot_of_text (h : files.Atomic interrupted contents) {state : S} {json : String}
    {snapshot : KsmSnapshot} (hcontents : contents state snapshotFilename = some json)
    (hserde : serde.fromStr json = .ok snapshot) :
    loadSnapshot files serde state = .ok (some snapshot) := by
  rw [loadSnapshot, h.existsFile _ _ (by rw [hcontents]; rfl), if_pos rfl,
    h.readToString _ _ _ hcontents]
  simp only [hserde]

end KsmController

/-! ## Attempt after attempt -/

/-- An attempt on a directory. -/
structure Attempt (D : Type) where
  dir : D
  timestamp : String
  kill : Kill

namespace Attempt

variable {ε D S : Type} (fs : KsmDir ε D) (files : StateDir ε S) (interrupted : Interrupted S)
  (serde : Serde)

/-- An attempt, with its result if it was not killed. -/
def run (attempt : Attempt D) (state : S) : Option (Except (AnimaksmError ε) Unit) × S :=
  KsmController.snapshotUntil fs files interrupted serde attempt.timestamp attempt.dir attempt.kill state

/-- A snapshot is the whole configuration that an attempt found. -/
def Found (attempt : Attempt D) (snapshot : KsmSnapshot) : Prop :=
  KsmController.readConfig fs attempt.dir = .ok snapshot.config ∧ snapshot.timestamp = attempt.timestamp

/-- The text of what an attempt found parses back. -/
def Readable (attempt : Attempt D) : Prop :=
  ∀ snapshot json, attempt.Found fs snapshot → serde.toStringPretty snapshot = .ok json →
    serde.fromStr json = .ok snapshot

variable {fs files interrupted serde} {contents : S → String → Option String}

/-- An attempt leaves the snapshot that is loaded, and does not succeed, or replaces it by the configuration
it found, and does not fail. -/
theorem loadSnapshot_run (h : files.Atomic interrupted contents) {attempt : Attempt D}
    (hserde : attempt.Readable fs serde) (state : S) :
    (KsmController.loadSnapshot files serde (attempt.run fs files interrupted serde state).2 =
        KsmController.loadSnapshot files serde state ∧
      (attempt.run fs files interrupted serde state).1 ≠ some (.ok ())) ∨
    ∃ snapshot, attempt.Found fs snapshot ∧
      KsmController.loadSnapshot files serde (attempt.run fs files interrupted serde state).2 =
        .ok (some snapshot) ∧
      ∀ e, (attempt.run fs files interrupted serde state).1 ≠ some (.error e) := by
  rcases @KsmController.snapshotUntil_cases _ _ _ fs _ _ serde _ h attempt.timestamp attempt.dir
      attempt.kill state with ⟨hkept, hresult⟩ | ⟨config, json, hconfig, hjson, hcontents, hresult⟩
  · exact .inl ⟨KsmController.loadSnapshot_of_contents h hkept, hresult⟩
  · refine .inr ⟨⟨config, attempt.timestamp⟩, ⟨hconfig, rfl⟩, ?_, hresult⟩
    exact KsmController.loadSnapshot_of_text h hcontents (hserde _ _ ⟨hconfig, rfl⟩ hjson)

/-- However many attempts are killed or fail, and wherever, what is loaded after them is what was loaded
before them or the configuration that one of them found, as a whole. An attempt that fails changes
nothing of it, and after one that succeeds its own configuration is loaded. -/
theorem loadSnapshot_attempts (h : files.Atomic interrupted contents) {attempts : List (Attempt D)}
    (hserde : ∀ attempt ∈ attempts, attempt.Readable fs serde) (state : S) :
    let state' := Run.run (fun state attempt => (attempt.run fs files interrupted serde state).2) state
      attempts
    (KsmController.loadSnapshot files serde state' = KsmController.loadSnapshot files serde state ∨
      ∃ attempt ∈ attempts, ∃ snapshot, attempt.Found fs snapshot ∧
        KsmController.loadSnapshot files serde state' = .ok (some snapshot)) ∧
    ∀ last : Attempt D, last.Readable fs serde →
      ((∃ e, (last.run fs files interrupted serde state').1 = some (.error e)) →
        KsmController.loadSnapshot files serde (last.run fs files interrupted serde state').2 =
          KsmController.loadSnapshot files serde state') ∧
      ((last.run fs files interrupted serde state').1 = some (.ok ()) →
        ∃ snapshot, last.Found fs snapshot ∧
          KsmController.loadSnapshot files serde (last.run fs files interrupted serde state').2 =
            .ok (some snapshot)) := by
  refine ⟨?_, fun last hlast => ⟨?_, fun hok => ?_⟩⟩
  · induction attempts generalizing state with
    | nil => exact .inl rfl
    | cons attempt attempts ih =>
      obtain ⟨hattempt, hrest⟩ := List.forall_mem_cons.mp hserde
      rcases ih hrest (attempt.run fs files interrupted serde state).2 with
        hsame | ⟨later, hlater, hloaded⟩
      · rcases loadSnapshot_run h hattempt state with ⟨hkept, -⟩ | ⟨snapshot, hfound, hloaded, -⟩
        · exact .inl (hsame.trans hkept)
        · exact .inr ⟨attempt, List.mem_cons_self, snapshot, hfound, hsame.trans hloaded⟩
      · exact .inr ⟨later, List.mem_cons_of_mem attempt hlater, hloaded⟩
  · rintro ⟨e, herror⟩
    rcases loadSnapshot_run h hlast _ with ⟨hkept, -⟩ | ⟨snapshot, -, -, hnot⟩
    · exact hkept
    · exact absurd herror (hnot e)
  · rcases loadSnapshot_run h hlast _ with ⟨-, hnot⟩ | ⟨snapshot, hfound, hloaded, -⟩
    · exact absurd hok hnot
    · exact ⟨snapshot, hfound, hloaded⟩

/-- A write in memory that is interrupted leaves the first part of its text. -/
def memoryInterrupted : Interrupted (String → Option String) := fun name text length files other =>
  if other = name then some (String.ofList (text.toList.take length)) else files other

theorem atomic_memoryFiles : memoryFiles.Atomic memoryInterrupted id where
  toDurable := durable_memoryFiles
  createDirAll _ _ := rfl
  write_other _ _ _ _ h := if_neg h
  interrupted_other _ _ _ _ _ h := if_neg h
  rename_error _ _ _ _ _ h := by cases h
  missing _ _ h := Bool.eq_false_iff.mpr (Option.not_isSome_iff_eq_none.mpr h)

/-- The serializer on the snapshots of the safe and of the slow kernel. -/
def twoSnapshots : Serde where
  toStringPretty snapshot := .ok (prettyJson snapshot)
  fromStr json :=
    if json = prettyJson (snapshotOf safeState) then .ok (snapshotOf safeState)
    else if json = prettyJson (snapshotOf slowState) then .ok (snapshotOf slowState)
    else .error "unexpected text"

/-- An attempt on a kernel in memory. -/
def attemptOn (state : KernelState) (kill : Kill) : Attempt KernelState := ⟨state, "1700000000", kill⟩

theorem found_attemptOn {state : KernelState} {kill : Kill} {snapshot : KsmSnapshot}
    (h : (attemptOn state kill).Found kernelDir snapshot) : snapshot = snapshotOf state := by
  obtain ⟨config, timestamp⟩ := snapshot
  obtain ⟨hconfig, rfl⟩ := h
  have hread : KsmController.readConfig kernelDir state = .ok (state.1.config 1) := by
    rw [kernel_kernelDir.readConfig_eq]
    rfl
  have hsame : state.1.config 1 = config := Except.ok.inj (hread.symm.trans hconfig)
  rw [← hsame]
  rfl

theorem readable_attemptOn {state : KernelState} (h : state = safeState ∨ state = slowState)
    (kill : Kill) : (attemptOn state kill).Readable kernelDir twoSnapshots := by
  intro snapshot json hfound hjson
  have hne : prettyJson (snapshotOf slowState) ≠ prettyJson (snapshotOf safeState) := by decide +kernel
  rw [← Except.ok.inj hjson, found_attemptOn hfound]
  rcases h with rfl | rfl
  · simp only [twoSnapshots, if_true]
  · simp only [twoSnapshots, if_neg hne, if_true]

/-- The safe kernel is saved, and then two attempts on the slow one are killed, in the write and before
the rename. -/
def killedTwice : List (Attempt KernelState) :=
  [attemptOn safeState .never, attemptOn slowState (.duringWrite 10), attemptOn slowState .beforeRename]

/-- The safe kernel is loaded after them, and the slow one after an attempt on it that succeeds. -/
theorem loadSnapshot_attempts_killedTwice :
    let run := fun state (attempt : Attempt KernelState) =>
      (attempt.run kernelDir memoryFiles memoryInterrupted twoSnapshots state).2
    let saved := Run.run run (fun _ => none) killedTwice
    KsmController.loadSnapshot memoryFiles twoSnapshots saved = .ok (some (snapshotOf safeState)) ∧
    KsmController.loadSnapshot memoryFiles twoSnapshots (run saved (attemptOn slowState .never)) =
      .ok (some (snapshotOf slowState)) := by
  intro run saved
  have hreadable : ∀ attempt ∈ killedTwice, attempt.Readable kernelDir twoSnapshots := by
    simp only [killedTwice, List.forall_mem_cons]
    exact ⟨readable_attemptOn (.inl rfl) _, readable_attemptOn (.inr rfl) _,
      readable_attemptOn (.inr rfl) _, fun _ h => absurd h List.not_mem_nil⟩
  have hok : ((attemptOn slowState .never).run kernelDir memoryFiles memoryInterrupted twoSnapshots
      saved).1 = some (.ok ()) := by decide +kernel
  refine ⟨by decide +kernel, ?_⟩
  obtain ⟨snapshot, hfound, hloaded⟩ := ((loadSnapshot_attempts atomic_memoryFiles hreadable
    fun _ => none).2 _ (readable_attemptOn (.inr rfl) .never)).2 hok
  rw [← found_attemptOn hfound]
  exact hloaded

end Attempt

end Animaksm.Common

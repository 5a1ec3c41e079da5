import Animaksm.Daemon.Signals

/-!
# Signals the injection loses

A request loses signals exactly where it is harmful: a wait that reports the stop for
a signal of another sender, which no later request carries on, and a detach that
leaves the tracer's own stop signal behind. The tally of a run says so of all its
requests. After the first reported stop the tracer's signal is not pending any more
unless the tally has failed already.
-/

namespace Animaksm.Daemon

/-! ## What a request does -/

namespace SignalWorld

/-- The process as the next request finds it. -/
def found (w : SignalWorld) : SignalTarget :=
  (w.turns.headD .quiet).happenings.foldl SignalTarget.happen w.target

/-- What one happening keeps, all that happen before a request keep. -/
theorem found_invariant {I : SignalTarget → Prop}
    (hI : ∀ {t t' : SignalTarget}, t.Becomes t' → I t → I t') {w : SignalWorld} (h : I w.target) :
    I w.found :=
  Run.run_invariant (fun t happening ht => hI (t.becomes_happen happening) ht) h _

theorem sameFate_found (w : SignalWorld) : w.target.SameFate w.found :=
  w.found_invariant (I := w.target.SameFate) (fun hbecomes h => h.trans hbecomes.sameFate) (.refl _)

/-- The signals are kept so far exactly if every request made was harmless. -/
def Tallied (w : SignalWorld) : Prop := w.target.Kept ↔ ∀ made ∈ w.made, made.Harmless

/-- A request keeps the tally when its answer loses signals exactly where it is harmful. -/
theorem Tallied.request {w : SignalWorld} (h : w.Tallied) {α : Type} {kind : RequestKind}
    {answer : Turn → SignalTarget → Except Int α × SignalTarget}
    (hanswer : ∀ turn, (answer turn w.found).2.Kept ↔
      w.found.Kept ∧ (⟨kind, w.found, none⟩ : Made).Harmless) :
    (w.request kind answer).2.Tallied := by
  have hfound : w.found.Kept ↔ w.target.Kept := w.sameFate_found.kept_iff
  have hall : ∀ m : Made, (∀ made ∈ w.made ++ [m], made.Harmless) ↔ w.target.Kept ∧ m.Harmless := by
    intro m
    rw [List.forall_mem_append, List.forall_mem_singleton]
    exact and_congr_left' h.symm
  unfold SignalWorld.request
  dsimp only
  cases hfailure : (w.turns.headD .quiet).failure with
  | none =>
    refine Iff.trans ?_ (hall _).symm
    exact (hanswer _).trans (and_congr_left' hfound)
  | some e =>
    refine Iff.trans ?_ (hall _).symm
    refine hfound.trans (iff_self_and.mpr fun _ => ?_)
    cases kind with
    | waitpid => exact fun hnone => absurd hnone (Option.some_ne_none e)
    | detach => exact fun hnone => absurd hnone (Option.some_ne_none e)
    | _ => trivial

/-- An answer that leaves the queue, and loses signals exactly where the request is harmful. -/
structure Answers (kind : RequestKind) (t t' : SignalTarget) : Prop where
  pending : t'.pending = t.pending
  delivered : t'.delivered = t.delivered
  kept_iff : t'.Kept ↔ t.Kept ∧ (⟨kind, t, none⟩ : Made).Harmless

variable {t : SignalTarget}

/-- An answer that changes none of the signals, to a request that never does harm. -/
theorem answers_of_harmless {kind : RequestKind} {t t' : SignalTarget} (hpending : t'.pending = t.pending)
    (hfate : t.SameFate t') (hharmless : (⟨kind, t, none⟩ : Made).Harmless) : Answers kind t t' :=
  ⟨hpending, hfate.delivered, hfate.kept_iff.trans (and_iff_left hharmless).symm⟩

theorem answers_getregs (turn : Turn) : Answers .getregs t (answerStopped t turn.regs t).2 := by
  rw [answerStopped]
  split
  · exact answers_of_harmless rfl (.refl t) trivial
  · exact answers_of_harmless rfl (.refl t) trivial

theorem answers_setregs : Answers .setregs t (answerStopped t () t).2 := by
  rw [answerStopped]
  split
  · exact answers_of_harmless rfl (.refl t) trivial
  · exact answers_of_harmless rfl (.refl t) trivial

/-- Nothing is delivered by a request that carries nothing. -/
theorem delivered_resume_none (t : SignalTarget) : (t.resume none).delivered = t.delivered := by
  rw [SignalTarget.resume]
  dsimp only
  split
  · rw [if_neg (fun h => absurd h.2.symm (Option.some_ne_none _)), List.append_nil]
  · exact List.append_nil _

theorem answers_syscall :
    Answers .syscall t (answerStopped t () { t.resume none with toSyscall := true }).2 := by
  rw [answerStopped]
  split
  · exact answers_of_harmless rfl (.refl t) trivial
  · exact answers_of_harmless rfl ⟨rfl, delivered_resume_none t, rfl⟩ trivial

/-- A detach leaves the tracer's stop signal behind when it is pending, which matters unless the
process has stopped for it or the signals are lost already. -/
theorem answers_detach (hside : t.Kept → t.stop ≠ none → ¬ t.StoppedByOther → t.tracerPending = false) :
    Answers .detach t (answerStopped t () { t.resume none with
      traced := false, toSyscall := false, leftStop := t.leftStop || t.tracerPending }).2 := by
  rw [answerStopped]
  split
  next hstop =>
    refine answers_of_harmless rfl (.refl t) fun _ hother => ?_
    obtain ⟨sent, hsome, -⟩ := hother
    rw [show t.stop = none from hstop] at hsome
    cases hsome
  next hstop =>
    refine ⟨rfl, delivered_resume_none t, ?_⟩
    simp only [SignalTarget.Kept, delivered_resume_none, Bool.or_eq_false_iff, ← and_assoc]
    refine and_congr_right fun hkept => ⟨fun hnone _ _ => hnone, fun hharmless => ?_⟩
    by_cases hother : t.StoppedByOther
    · exact hharmless rfl hother
    · exact hside hkept hstop hother

/-- A reported stop keeps the signals unless it is for a signal of another sender. -/
theorem reported_kept_iff {stop : Stop} (hstop : t.stop = some stop) (hnil : t.delivered = []) :
    SignalTarget.Kept { t with seen := true, reported := t.reported ++ stop.sents } ↔
      t.Kept ∧ ¬ t.StoppedByOther := by
  simp only [SignalTarget.Kept, hnil, List.filter_nil, List.filter_append, List.append_eq_nil_iff]
  rw [and_assoc, and_assoc, and_comm (b := t.leftStop = false)]
  refine and_congr_right fun _ => and_congr_right fun _ => ?_
  rw [List.filter_eq_nil_iff, SignalTarget.StoppedByOther]
  cases stop with
  | syscall =>
    refine iff_of_true (fun _ h => absurd h List.not_mem_nil) ?_
    rintro ⟨sent, hsome, -⟩
    cases hstop.symm.trans hsome
  | delivery sent =>
    rw [Stop.sents, List.forall_mem_singleton, decide_eq_true_eq]
    refine not_congr ⟨fun hother => ⟨sent, hstop, hother⟩, ?_⟩
    rintro ⟨sent', hsome, hother⟩
    cases hstop.symm.trans hsome
    exact hother

/-- A wait reports the signal of a new stop. -/
theorem answers_waitpid (pid : Pid) (turn : Turn) (hnil : t.delivered = []) :
    Answers .waitpid t (answerWaitpid pid turn t).2 := by
  unfold answerWaitpid
  split
  next hdead =>
    exact answers_of_harmless rfl (.refl t) fun _ halive => absurd halive hdead
  next hdead =>
    split
    next hstop =>
      refine answers_of_harmless rfl (.refl t) fun _ _ _ hother => ?_
      obtain ⟨sent, hsome, -⟩ := hother
      rw [show t.stop = none from hstop] at hsome
      cases hsome
    next stop hstop =>
      split
      next hseen =>
        refine answers_of_harmless rfl (.refl t) fun _ _ hunseen => ?_
        exact absurd (hseen.symm.trans hunseen) Bool.true_eq_false.mp
      next hseen =>
        refine ⟨rfl, rfl, ?_⟩
        rw [reported_kept_iff hstop hnil]
        refine and_congr_right fun _ => ⟨fun hnone _ _ _ => hnone, fun hharmless => ?_⟩
        exact hharmless rfl (not_not.mp hdead) (Bool.eq_false_iff.mpr hseen)

/-! ## Before and after the first wait -/

/-- What the answer to a request leaves and what an error leaves holds after it. -/
theorem request_target (I : SignalTarget → Prop) {w : SignalWorld} {α : Type} {kind : RequestKind}
    {answer : Turn → SignalTarget → Except Int α × SignalTarget} (hfound : I w.found)
    (hanswer : ∀ turn, I (answer turn w.found).2) : I (w.request kind answer).2.target := by
  unfold SignalWorld.request
  dsimp only
  cases (w.turns.headD .quiet).failure with
  | none => exact hanswer _
  | some e => exact hfound

/-- Up to the first stop that is reported, with at most `n` stop signals of the tracer. -/
structure Early (n : Nat) (w : SignalWorld) : Prop where
  fresh : w.target.Fresh n
  delivered : w.target.delivered = []
  tallied : w.Tallied

/-- From the first stop on, the tracer's stop signal is not pending unless signals are lost already. -/
structure Settled (w : SignalWorld) : Prop where
  delivered : w.target.delivered = []
  tracerPending : w.target.Kept → w.target.tracerPending = false
  tallied : w.Tallied

theorem early_start (alive : Bool) (pending : List Signal) (turns : List Turn) :
    (start alive pending turns).Early 0 := by
  refine ⟨⟨rfl, (Option.some_ne_none _).symm, ?_⟩, rfl, ?_⟩
  · change List.countP SignalTarget.fromTracer (pending.map (⟨·, .other⟩) ++ []) ≤ 0
    rw [List.append_nil, List.countP_map, Nat.le_zero, List.countP_eq_zero]
    exact fun _ _ => Bool.false_ne_true
  · exact iff_of_true ⟨rfl, rfl⟩ fun made hmade => absurd hmade List.not_mem_nil

variable {w : SignalWorld}

theorem Early.found {n : Nat} (h : w.Early n) : w.found.Fresh n :=
  w.found_invariant (fun hbecomes => hbecomes.fresh) h.fresh

theorem Early.found_delivered {n : Nat} (h : w.Early n) : w.found.delivered = [] :=
  w.sameFate_found.delivered.trans h.delivered

theorem Settled.found_delivered (h : w.Settled) : w.found.delivered = [] :=
  w.sameFate_found.delivered.trans h.delivered

theorem Settled.found_tracerPending (h : w.Settled) (hkept : w.found.Kept) :
    w.found.tracerPending = false :=
  w.found_invariant (fun hbecomes => hbecomes.tracerPending)
    (h.tracerPending (w.sameFate_found.kept_iff.mp hkept))

theorem fresh_attach {t : SignalTarget} (h : t.Fresh 0) (turn : Turn) :
    (answerAttach turn t).2.Fresh 1 := by
  have hone : t.Fresh 1 := ⟨h.toSyscall, h.stop, le_trans h.atMost zero_le_one⟩
  rw [answerAttach]
  split
  · exact hone
  · split
    · exact hone
    · refine ⟨h.toSyscall, h.stop, ?_⟩
      have hzero := h.atMost
      rw [SignalTarget.held, List.countP_append] at hzero ⊢
      rw [List.countP_append, add_right_comm]
      exact Nat.add_le_add_right hzero 1

theorem sameFate_attach (turn : Turn) (t : SignalTarget) : t.SameFate (answerAttach turn t).2 := by
  rw [answerAttach]
  split
  · exact ⟨rfl, rfl, rfl⟩
  · split
    · exact ⟨rfl, rfl, rfl⟩
    · exact ⟨rfl, rfl, rfl⟩

theorem Early.attach (h : w.Early 0) : (w.request .attach answerAttach).2.Early 1 where
  fresh := request_target _
    ⟨h.found.toSyscall, h.found.stop, le_trans h.found.atMost zero_le_one⟩ (fresh_attach h.found)
  delivered := request_target (·.delivered = []) h.found_delivered fun turn =>
    (sameFate_attach turn w.found).delivered.trans h.found_delivered
  tallied := h.tallied.request fun turn =>
    (sameFate_attach turn w.found).kept_iff.trans (and_iff_left trivial).symm

theorem fresh_waitpid {n : Nat} {t : SignalTarget} (h : t.Fresh n) (pid : Pid) (turn : Turn) :
    (answerWaitpid pid turn t).2.Fresh n := by
  unfold answerWaitpid
  split
  · exact h
  · split
    · exact h
    · split
      · exact h
      · exact ⟨h.toSyscall, h.stop, h.atMost⟩

theorem Early.waitpid {n : Nat} (h : w.Early n) (pid : Pid) :
    (w.request .waitpid (answerWaitpid pid)).2.Early n where
  fresh := request_target _ h.found (fresh_waitpid h.found pid)
  delivered := request_target (·.delivered = []) h.found_delivered fun turn =>
    (answers_waitpid pid turn h.found_delivered).delivered.trans h.found_delivered
  tallied := h.tallied.request fun turn => (answers_waitpid pid turn h.found_delivered).kept_iff

/-- A wait answers with a stop only for a living process that has newly stopped. -/
theorem stopped_answerWaitpid {pid stopped : Pid} {signal : Signal} {turn : Turn} {t : SignalTarget}
    (hstopped : (answerWaitpid pid turn t).1 = .ok (.stopped stopped signal)) :
    t.alive ∧ t.stop ≠ none ∧ t.seen = false := by
  unfold answerWaitpid at hstopped
  split at hstopped
  · cases hdeath : turn.death with
    | inl code => rw [hdeath] at hstopped; cases hstopped
    | inr signal => rw [hdeath] at hstopped; cases hstopped
  next halive =>
    split at hstopped
    · cases hstopped
    next stop hstop =>
      split at hstopped
      · cases hstopped
      next hseen =>
        refine ⟨not_not.mp halive, ?_, Bool.eq_false_iff.mpr hseen⟩
        rw [show t.stop = some stop from hstop]
        exact Option.some_ne_none stop

theorem tracerPending_waitpid {pid stopped : Pid} {signal : Signal} {turn : Turn} {t : SignalTarget}
    (hfresh : t.Fresh 1) (hnil : t.delivered = [])
    (hstopped : (answerWaitpid pid turn t).1 = .ok (.stopped stopped signal))
    (hkept : (answerWaitpid pid turn t).2.Kept) : (answerWaitpid pid turn t).2.tracerPending = false := by
  obtain ⟨halive, hstop, hseen⟩ := stopped_answerWaitpid hstopped
  have hanswers := answers_waitpid pid turn hnil
  have hharmless := (hanswers.kept_iff.mp hkept).2
  rw [SignalTarget.tracerPending, hanswers.pending]
  exact hfresh.tracerPending hstop (hharmless rfl halive hseen)

/-- The first stop that is reported settles what becomes of the tracer's stop signal. -/
theorem Early.settled (h : w.Early 1) {pid stopped : Pid} {signal : Signal}
    (hstopped : (w.request .waitpid (answerWaitpid pid)).1 = .ok (.stopped stopped signal)) :
    (w.request .waitpid (answerWaitpid pid)).2.Settled := by
  refine ⟨(h.waitpid pid).delivered, ?_, (h.waitpid pid).tallied⟩
  unfold SignalWorld.request at hstopped ⊢
  dsimp only at hstopped ⊢
  cases hfailure : (w.turns.headD .quiet).failure with
  | some e => rw [hfailure] at hstopped; cases hstopped
  | none =>
    rw [hfailure] at hstopped
    exact tracerPending_waitpid h.found h.found_delivered hstopped

/-- A detach after a first wait that failed may find the process stopped for any signal. -/
theorem Early.tallied_detach (h : w.Early 1) (debug : WaitStatus → String) (pid : Pid) :
    ((kernel debug).toPtrace.detach pid w).2.Tallied :=
  h.tallied.request fun _ =>
    (answers_detach fun _ hstop hother => h.found.tracerPending hstop hother).kept_iff

/-- After the first stop a request keeps the settlement when its answer does. -/
theorem Settled.request (h : w.Settled) {α : Type} {kind : RequestKind}
    {answer : Turn → SignalTarget → Except Int α × SignalTarget}
    (hanswer : ∀ turn, Answers kind w.found (answer turn w.found).2) :
    (w.request kind answer).2.Settled where
  delivered := request_target (·.delivered = []) h.found_delivered fun turn =>
    (hanswer turn).delivered.trans h.found_delivered
  tracerPending := request_target (fun t => t.Kept → t.tracerPending = false) h.found_tracerPending
    fun turn hkept => by
      rw [SignalTarget.tracerPending, (hanswer turn).pending]
      exact h.found_tracerPending ((hanswer turn).kept_iff.mp hkept).1
  tallied := h.tallied.request fun turn => (hanswer turn).kept_iff

theorem preserves_settled (debug : WaitStatus → String) (pid : Pid) :
    (kernel debug).toPtrace.Preserves pid Settled where
  waitpid _ h := h.request fun turn => answers_waitpid pid turn h.found_delivered
  getregs _ h := h.request answers_getregs
  setregs _ _ h := h.request fun _ => answers_setregs
  syscall _ h := h.request fun _ => answers_syscall
  detach _ h := h.request fun _ => answers_detach fun hkept _ _ => h.found_tracerPending hkept

/-- The injection loses no signal exactly if every request that it makes is harmless. -/
theorem keepsSignals_iff (debug : WaitStatus → String) (alive : Bool) (pending : List Signal)
    (turns : List Turn) (pid : UInt32) (addr len syscallAddr : UInt64) :
    let after := ((kernel debug).toPtrace.madviseViaPtrace pid addr len syscallAddr
      (start alive pending turns)).2
    after.target.Kept ↔ ∀ made ∈ after.made, made.Harmless := by
  have hattach : ((kernel debug).toPtrace.attach pid.toInt32 (start alive pending turns)).2.Early 1 :=
    (early_start alive pending turns).attach
  change ((kernel debug).toPtrace.madviseViaPtrace pid addr len syscallAddr
    (start alive pending turns)).2.Tallied
  unfold Ptrace.madviseViaPtrace
  dsimp only
  generalize (kernel debug).toPtrace.attach pid.toInt32 (start alive pending turns) = answered at hattach
  obtain ⟨e | ⟨⟩, w₁⟩ := answered
  · exact hattach.tallied
  · have hwait : ((kernel debug).toPtrace.waitpid pid.toInt32 w₁).2.Early 1 := hattach.waitpid pid.toInt32
    have hstopped : ∀ stopped signal,
        ((kernel debug).toPtrace.waitpid pid.toInt32 w₁).1 = .ok (.stopped stopped signal) →
          ((kernel debug).toPtrace.waitpid pid.toInt32 w₁).2.Settled := fun _ _ h => hattach.settled h
    dsimp only
    generalize (kernel debug).toPtrace.waitpid pid.toInt32 w₁ = answered at hwait hstopped
    obtain ⟨e | status, w₂⟩ := answered
    · exact hwait.tallied_detach debug pid.toInt32
    · cases status with
      | stopped stopped signal =>
        exact ((preserves_settled debug pid.toInt32).inject addr len syscallAddr
          (hstopped stopped signal rfl)).tallied
      | exited stopped code => exact hwait.tallied
      | _ => exact hwait.tallied

/-- A process that takes a signal sent before the attach first, and the tracer's stop signal at its
next stop. -/
def earlierSignal : SignalWorld :=
  start true [.sigterm]
    [.quiet, ⟨[.take 0], none, .inl 0, ⟨0, 0, 0, 0, 0, []⟩⟩, .quiet, .quiet, .quiet,
      ⟨[.take 0], none, .inl 0, ⟨0, 0, 0, 0, 0, []⟩⟩]

theorem not_keepsSignals :
    ¬ ((kernel fun _ => "").toPtrace.madviseViaPtrace 1 4096 4096 8192 earlierSignal).2.target.Kept := by
  decide +kernel

/-- When the first wait is interrupted before the process stops for a signal sent earlier, the
tracer's stop signal is left behind. -/
example : ((kernel fun _ => "").toPtrace.madviseViaPtrace 1 4096 4096 8192 (start true [.sigterm]
    [.quiet, ⟨[.take 0], some eintr, .inl 0, ⟨0, 0, 0, 0, 0, []⟩⟩])).2.target.leftStop = true := by
  decide +kernel

end SignalWorld

end Animaksm.Daemon

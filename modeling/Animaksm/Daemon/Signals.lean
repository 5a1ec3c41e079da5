import Animaksm.Lib.Run
import Animaksm.Daemon.Ptrace

/-!
# Signals of the injected process

Attaching sends a stop signal to a process that may receive others at any time. A
signal that stops the process for its tracer takes effect only if the request that
resumes the process carries it on. The injection takes whatever stops the process
first for its own stop signal, and its requests carry nothing.
-/

namespace Animaksm.Daemon

/-! ## Requests that carry a signal -/

/-- The requests to the kernel, where those that resume a process may carry a signal. -/
structure CarryingPtrace (E W : Type) where
  attach : Pid → W → Except E Unit × W
  waitpid : Pid → W → Except E WaitStatus × W
  getregs : Pid → W → Except E Regs × W
  setregs : Pid → Regs → W → Except E Unit × W
  syscall : Pid → Option Signal → W → Except E Unit × W
  detach : Pid → Option Signal → W → Except E Unit × W
  display : E → String
  debug : WaitStatus → String

/-- The requests as the injection makes them: none carries a signal. -/
def CarryingPtrace.toPtrace {E W : Type} (P : CarryingPtrace E W) : Ptrace E W where
  attach := P.attach
  waitpid := P.waitpid
  getregs := P.getregs
  setregs := P.setregs
  syscall pid := P.syscall pid none
  detach pid := P.detach pid none
  display := P.display
  debug := P.debug

/-! ## A process and its signals -/

/-- Who sent a signal: the tracer by attaching, or anyone else. -/
inductive Sender where
  | tracer
  | other
  deriving DecidableEq, Repr

/-- A signal on its way to a process. -/
structure Sent where
  signal : Signal
  sender : Sender
  deriving DecidableEq, Repr

/-- Why a traced process has stopped. -/
inductive Stop where
  /-- It is about to receive a signal. -/
  | delivery (sent : Sent)
  /-- It enters or leaves a system call. -/
  | syscall
  deriving DecidableEq, Repr

/-- The signal that a wait reports for a stop. -/
def Stop.signal : Stop → Signal
  | .delivery sent => sent.signal
  | .syscall => .sigtrap

/-- The signal that a stop holds back. -/
def Stop.sents : Stop → List Sent
  | .delivery sent => [sent]
  | .syscall => []

/-- A process with its queue of pending signals, and what has become of those before. -/
structure SignalTarget where
  alive : Bool
  traced : Bool
  pending : List Sent
  stop : Option Stop
  /-- A wait has reported the stop. -/
  seen : Bool
  /-- It was resumed up to its next system call stop. -/
  toSyscall : Bool
  /-- The signals whose stops were reported to the tracer. -/
  reported : List Sent
  /-- Those of them that a resuming request carried on. -/
  delivered : List Sent
  /-- The tracer's own stop signal was pending when it detached. -/
  leftStop : Bool
  deriving DecidableEq, Repr

/-- What happens to a process between two requests. -/
inductive Happening where
  | arrive (signal : Signal)
  /-- It takes a signal from its queue. -/
  | take (index : Nat)
  | reachSyscall
  | die
  deriving DecidableEq, Repr

namespace SignalTarget

/-- A process that is not traced, with these signals pending. -/
def running (alive : Bool) (pending : List Signal) : SignalTarget where
  alive := alive
  traced := false
  pending := pending.map (⟨·, .other⟩)
  stop := none
  seen := false
  toSyscall := false
  reported := []
  delivered := []
  leftStop := false

/-- A traced process stops for a signal that it takes, another one receives it. -/
def happen (t : SignalTarget) : Happening → SignalTarget
  | .arrive signal => if t.alive then { t with pending := t.pending ++ [⟨signal, .other⟩] } else t
  | .take index =>
    if t.alive ∧ t.stop = none then
      match t.pending[index]? with
      | none => t
      | some sent =>
        { t with
          pending := t.pending.eraseIdx index
          stop := if t.traced then some (.delivery sent) else none
          seen := false }
    else t
  | .reachSyscall =>
    if t.alive ∧ t.stop = none ∧ t.toSyscall then
      { t with stop := some .syscall, seen := false, toSyscall := false }
    else t
  | .die => { t with alive := false, stop := none }

/-- A resumed process receives the signal it was stopped for if the request carries it. -/
def resume (t : SignalTarget) (carried : Option Signal) : SignalTarget :=
  { t with
    stop := none
    delivered := t.delivered ++ match t.stop with
      | some (.delivery sent) => if t.seen ∧ carried = some sent.signal then [sent] else []
      | _ => [] }

/-- The tracer's own stop signal is pending. -/
def tracerPending (t : SignalTarget) : Bool := t.pending.any fun sent => decide (sent.sender = .tracer)

/-- It has stopped for a signal that someone else sent. -/
def StoppedByOther (t : SignalTarget) : Prop :=
  ∃ sent, t.stop = some (.delivery sent) ∧ sent.sender = .other

end SignalTarget

/-! ## The kernel -/

/-- What happens before a request, whether the kernel fails it, and what it answers otherwise. -/
structure Turn where
  happenings : List Happening
  failure : Option Int
  /-- How the death of the process is reported: by its code or by a signal. -/
  death : Int32 ⊕ Signal
  regs : Regs

/-- A turn in which nothing happens. -/
def Turn.quiet : Turn := ⟨[], none, .inl 0, ⟨0, 0, 0, 0, 0, []⟩⟩

/-- The kinds of requests. -/
inductive RequestKind where
  | attach
  | waitpid
  | getregs
  | setregs
  | syscall
  | detach
  deriving DecidableEq, Repr

/-- A request that was made: how it found the process, and the failure of its turn. -/
structure Made where
  kind : RequestKind
  found : SignalTarget
  failure : Option Int

/-- The process, the turns to come and the requests made so far. -/
structure SignalWorld where
  target : SignalTarget
  turns : List Turn
  made : List Made

namespace SignalWorld

/-- Make a request in the next turn. -/
def request {α : Type} (w : SignalWorld) (kind : RequestKind)
    (answer : Turn → SignalTarget → Except Int α × SignalTarget) : Except Int α × SignalWorld :=
  let turn := w.turns.headD .quiet
  let found := turn.happenings.foldl SignalTarget.happen w.target
  let answered : Except Int α × SignalTarget := match turn.failure with
    | some e => (.error e, found)
    | none => answer turn found
  (answered.1, ⟨answered.2, w.turns.tail, w.made ++ [⟨kind, found, turn.failure⟩]⟩)

/-- EPERM, ESRCH and EINTR. -/
def eperm : Int := 1
def esrch : Int := 3
def eintr : Int := 4

/-- Attaching sends a stop signal. -/
def answerAttach (_ : Turn) (t : SignalTarget) : Except Int Unit × SignalTarget :=
  if ¬ t.alive then (.error esrch, t)
  else if t.traced then (.error eperm, t)
  else (.ok (), { t with traced := true, pending := t.pending ++ [⟨.sigstop, .tracer⟩] })

/-- A wait reports a death or a new stop; without either it goes on until it is interrupted. -/
def answerWaitpid (pid : Pid) (turn : Turn) (t : SignalTarget) : Except Int WaitStatus × SignalTarget :=
  if ¬ t.alive then
    (.ok (turn.death.elim (.exited pid ·) (.signaled pid · false)), t)
  else match t.stop with
    | none => (.error eintr, t)
    | some stop =>
      if t.seen then (.error eintr, t)
      else
        (.ok (.stopped pid stop.signal), { t with
          seen := true
          reported := t.reported ++ stop.sents })

/-- A request on the stopped process. -/
def answerStopped {α : Type} (t : SignalTarget) (result : α) (target : SignalTarget) :
    Except Int α × SignalTarget :=
  if t.stop = none then (.error esrch, t) else (.ok result, target)

/-- The kernel, with a way to show wait statuses. -/
def kernel (debug : WaitStatus → String) : CarryingPtrace Int SignalWorld where
  attach _ w := w.request .attach answerAttach
  waitpid pid w := w.request .waitpid (answerWaitpid pid)
  getregs _ w := w.request .getregs fun turn t => answerStopped t turn.regs t
  setregs _ _ w := w.request .setregs fun _ t => answerStopped t () t
  syscall _ carried w := w.request .syscall fun _ t =>
    answerStopped t () { t.resume carried with toSyscall := true }
  detach _ carried w := w.request .detach fun _ t =>
    answerStopped t () { t.resume carried with
      traced := false, toSyscall := false, leftStop := t.leftStop || t.tracerPending }
  display := errnoToStr
  debug := debug

/-- A process that is not traced, before any request. -/
def start (alive : Bool) (pending : List Signal) (turns : List Turn) : SignalWorld :=
  ⟨.running alive pending, turns, []⟩

end SignalWorld

namespace SignalTarget

/-- Each signal of another sender that a wait reported was delivered, and the tracer's own stop signal
was not left behind. -/
def Kept (t : SignalTarget) : Prop :=
  t.reported.filter (fun sent => sent.sender = .other) =
    t.delivered.filter (fun sent => sent.sender = .other) ∧ t.leftStop = false

instance (t : SignalTarget) : Decidable t.Kept := inferInstanceAs (Decidable (_ ∧ _))

end SignalTarget

/-- No wait finds a process that has newly stopped for a signal of another sender, and no detach finds
one while the tracer's stop signal is pending. -/
def Made.Harmless (made : Made) : Prop :=
  match made.kind with
  | .waitpid =>
    made.failure = none → made.found.alive → made.found.seen = false → ¬ made.found.StoppedByOther
  | .detach => made.failure = none → made.found.StoppedByOther → made.found.tracerPending = false
  | _ => True

/-! ## What happens to the process between requests -/

namespace SignalTarget

/-- The signals pending and the one that the process is stopped for. -/
def held (t : SignalTarget) : List Sent :=
  t.pending ++ t.stop.elim [] Stop.sents

/-- The tracer sent the signal. -/
def fromTracer (sent : Sent) : Bool := decide (sent.sender = .tracer)

/-- The process was not resumed yet, and holds at most `n` stop signals of the tracer. -/
structure Fresh (n : Nat) (t : SignalTarget) : Prop where
  toSyscall : t.toSyscall = false
  stop : t.stop ≠ some .syscall
  atMost : t.held.countP fromTracer ≤ n

/-- Once the process has stopped for the only stop signal of the tracer, none is pending. -/
theorem Fresh.tracerPending {t : SignalTarget} (h : Fresh 1 t) (hstop : t.stop ≠ none)
    (hother : ¬ t.StoppedByOther) : t.tracerPending = false := by
  obtain ⟨stop, hsome⟩ := Option.ne_none_iff_exists'.mp hstop
  cases stop with
  | syscall => exact absurd hsome h.stop
  | delivery sent =>
    have htracer : fromTracer sent = true := by
      cases hsender : sent.sender with
      | tracer => exact decide_eq_true hsender
      | other => exact absurd ⟨sent, hsome, hsender⟩ hother
    have honce := h.atMost
    rw [held, hsome, Option.elim_some, Stop.sents, List.countP_append, List.countP_singleton,
      if_pos htracer] at honce
    have hzero := Nat.le_zero.mp (Nat.le_of_add_le_add_right honce)
    rw [SignalTarget.tracerPending, List.any_eq_false]
    exact List.countP_eq_zero.mp hzero

/-- The tracer has heard of the same signals, and passed on and left the same. -/
structure SameFate (t t' : SignalTarget) : Prop where
  reported : t'.reported = t.reported
  delivered : t'.delivered = t.delivered
  leftStop : t'.leftStop = t.leftStop

theorem SameFate.refl (t : SignalTarget) : SameFate t t := ⟨rfl, rfl, rfl⟩

theorem SameFate.trans {t u v : SignalTarget} (h : SameFate t u) (h' : SameFate u v) : SameFate t v :=
  ⟨h'.reported.trans h.reported, h'.delivered.trans h.delivered, h'.leftStop.trans h.leftStop⟩

theorem SameFate.kept_iff {t t' : SignalTarget} (h : SameFate t t') : t'.Kept ↔ t.Kept := by
  rw [Kept, Kept, h.reported, h.delivered, h.leftStop]

/-- What can become of a process between two requests. -/
inductive Becomes (t : SignalTarget) : SignalTarget → Prop
  | same : Becomes t t
  | arrived (signal : Signal) : Becomes t { t with pending := t.pending ++ [⟨signal, .other⟩] }
  | took (index : Nat) (sent : Sent) (hstop : t.stop = none) (hsent : t.pending[index]? = some sent) :
    Becomes t { t with
      pending := t.pending.eraseIdx index
      stop := if t.traced then some (.delivery sent) else none
      seen := false }
  | reached (hto : t.toSyscall = true) :
    Becomes t { t with stop := some .syscall, seen := false, toSyscall := false }
  | died : Becomes t { t with alive := false, stop := none }

theorem becomes_happen (t : SignalTarget) (happening : Happening) :
    Becomes t (t.happen happening) := by
  cases happening with
  | arrive signal =>
    rw [happen]
    split
    · exact .arrived signal
    · exact .same
  | take index =>
    rw [happen]
    split
    next halive =>
      split
      next hnone => exact .same
      next sent hsent => exact .took index sent halive.2 hsent
    next halive => exact .same
  | reachSyscall =>
    rw [happen]
    split
    next hreach => exact .reached hreach.2.2
    next hreach => exact .same
  | die => exact .died

namespace Becomes

variable {t t' : SignalTarget} (h : Becomes t t')
include h

theorem sameFate : SameFate t t' := by
  cases h with
  | same => exact ⟨rfl, rfl, rfl⟩
  | arrived signal => exact ⟨rfl, rfl, rfl⟩
  | took index sent hstop hsent => exact ⟨rfl, rfl, rfl⟩
  | reached hto => exact ⟨rfl, rfl, rfl⟩
  | died => exact ⟨rfl, rfl, rfl⟩

/-- Only attaching makes a stop signal of the tracer pending. -/
theorem tracerPending (hnone : t.tracerPending = false) : t'.tracerPending = false := by
  rw [SignalTarget.tracerPending, List.any_eq_false] at hnone ⊢
  cases h with
  | same => exact hnone
  | arrived signal =>
    intro sent hsent
    rcases List.mem_append.mp hsent with hsent | hsent
    · exact hnone sent hsent
    · rw [List.mem_singleton.mp hsent]
      exact Bool.false_ne_true
  | took index sent hstop hsent => exact fun other hother => hnone other (List.mem_of_mem_eraseIdx hother)
  | reached hto => exact hnone
  | died => exact hnone

theorem fresh {n : Nat} (hfresh : Fresh n t) : Fresh n t' := by
  obtain ⟨hto, hstop, honce⟩ := hfresh
  cases h with
  | same => exact ⟨hto, hstop, honce⟩
  | arrived signal =>
    refine ⟨hto, hstop, ?_⟩
    rw [held, List.countP_append, List.countP_append]
    rw [held, List.countP_append] at honce
    exact honce
  | took index sent hnone hsent =>
    refine ⟨hto, ?_, ?_⟩
    · dsimp only
      split
      · exact fun h => Stop.noConfusion (Option.some.inj h)
      · exact (Option.some_ne_none _).symm
    · -- The signal moves from the queue to the stop.
      obtain ⟨hindex, rfl⟩ := List.getElem?_eq_some_iff.mp hsent
      have hperm := (List.getElem_cons_eraseIdx_perm hindex).countP_eq fromTracer
      rw [held, hnone, Option.elim_none, List.append_nil, ← hperm, ← List.singleton_append,
        List.countP_append] at honce
      rw [held, List.countP_append]
      dsimp only
      by_cases htraced : t.traced = true
      · rw [if_pos htraced, Option.elim_some, Stop.sents, Nat.add_comm]
        exact honce
      · rw [if_neg htraced, Option.elim_none, List.countP_nil, Nat.add_zero]
        exact le_trans (Nat.le_add_left _ _) honce
  | reached hreach => exact absurd hreach (by rw [hto]; decide)
  | died =>
    refine ⟨hto, (Option.some_ne_none _).symm, le_trans ?_ honce⟩
    rw [held, held, List.countP_append, List.countP_append]
    exact Nat.le_add_right _ _

end Becomes

end SignalTarget

end Animaksm.Daemon

import Mathlib.Data.UInt

/-!
# Injecting madvise with ptrace

The injection of one `madvise` call into another process, with every cleanup of its
failure paths. The requests act on a world of any type and may fail at any time;
the text of an error and of a wait status are those of the request layer. What every
request preserves the injection into a stopped process preserves.
-/

namespace Animaksm.Daemon

/-- A process id as the kernel takes it. -/
abbrev Pid := Int32

/-- The signals. -/
inductive Signal where
  | sighup | sigint | sigquit | sigill | sigtrap | sigabrt | sigbus | sigfpe | sigkill | sigusr1
  | sigsegv | sigusr2 | sigpipe | sigalrm | sigterm | sigstkflt | sigchld | sigcont | sigstop
  | sigtstp | sigttin | sigttou | sigurg | sigxcpu | sigxfsz | sigvtalrm | sigprof | sigwinch
  | sigio | sigpwr | sigsys
  deriving DecidableEq, Repr

/-- What a wait reports about a process. -/
inductive WaitStatus where
  | exited (pid : Pid) (code : Int32)
  | signaled (pid : Pid) (signal : Signal) (coreDumped : Bool)
  | stopped (pid : Pid) (signal : Signal)
  | ptraceEvent (pid : Pid) (signal : Signal) (event : Int32)
  | ptraceSyscall (pid : Pid)
  | continued (pid : Pid)
  | stillAlive
  deriving DecidableEq, Repr

/-- The registers of a process: those an injection sets, and the others in their order. -/
structure Regs where
  rip : UInt64
  rax : UInt64
  rdi : UInt64
  rsi : UInt64
  rdx : UInt64
  others : List UInt64
  deriving DecidableEq, Repr

/-- The requests to the kernel, with errors of type `E`, and how errors and statuses are shown. -/
structure Ptrace (E W : Type) where
  attach : Pid → W → Except E Unit × W
  waitpid : Pid → W → Except E WaitStatus × W
  getregs : Pid → W → Except E Regs × W
  setregs : Pid → Regs → W → Except E Unit × W
  syscall : Pid → W → Except E Unit × W
  detach : Pid → W → Except E Unit × W
  display : E → String
  debug : WaitStatus → String

/-- `MADV_MERGEABLE` constant (from linux/mman.h). -/
def madvMergeable : UInt64 := 12

/-- madvise syscall number (x86_64). -/
def sysMadvise : UInt64 := 28

/-- Convert errno to human-readable string. -/
def errnoToStr : Int → String
  | 1 => "EPERM: Operation not permitted"
  | 3 => "ESRCH: No such process"
  | 22 => "EINVAL: Invalid argument"
  | 12 => "ENOMEM: Cannot allocate memory"
  | 9 => "EBADF: Bad file descriptor"
  | 38 => "ENOSYS: Function not implemented"
  | _ => "unknown"

/-- The outcome of the injected syscall: negative values of `rax` are errors. -/
def syscallResult (rax : UInt64) : Except String Unit :=
  let value := rax.toInt64.toInt
  if value < 0 ∧ value > -4096 then
    .error ("madvise failed: errno=" ++ toString (-value) ++ " (" ++ errnoToStr (-value) ++ ")")
  else .ok ()

namespace Ptrace

variable {E W : Type}

/-- The registers of the injected `madvise(addr, len, MADV_MERGEABLE)`. -/
def injectedRegs (orig : Regs) (addr len syscallAddr : UInt64) : Regs :=
  { orig with rip := syscallAddr, rax := sysMadvise, rdi := addr, rsi := len, rdx := madvMergeable }

/-- Put the registers back and detach, whatever the outcomes. -/
def release (P : Ptrace E W) (pid : Pid) (orig : Regs) (world : W) : W :=
  (P.detach pid (P.setregs pid orig world).2).2

/-- Continue until a syscall stop, the entry or the exit of the injected syscall. -/
def runToStop (P : Ptrace E W) (pid : Pid) (orig : Regs) (stop : String) (world : W) :
    Except String Unit × W :=
  match P.syscall pid world with
  | (.error e, world) =>
    (.error ("ptrace syscall (" ++ stop ++ ") failed: " ++ P.display e), P.release pid orig world)
  | (.ok (), world) =>
    match P.waitpid pid world with
    | (.ok (.stopped _ .sigtrap), world) => (.ok (), world)
    | (.ok other, world) =>
      (.error ("unexpected wait at syscall " ++ stop ++ ": " ++ P.debug other),
        P.release pid orig world)
    | (.error e, world) =>
      (.error ("waitpid at syscall " ++ stop ++ " failed: " ++ P.display e),
        P.release pid orig world)

/-- Read the result of the injected syscall, restore the registers and detach. -/
def finish (P : Ptrace E W) (pid : Pid) (orig : Regs) (world : W) : Except String Unit × W :=
  match P.getregs pid world with
  | (.error e, world) =>
    (.error ("getregs after syscall failed: " ++ P.display e), P.release pid orig world)
  | (.ok regsAfter, world) =>
    match P.setregs pid orig world with
    | (.error e, world) =>
      (.error ("failed to restore registers after ptrace injection: " ++ P.display e),
        (P.detach pid world).2)
    | (.ok (), world) =>
      match P.detach pid world with
      | (.error e, world) => (.error ("ptrace detach failed: " ++ P.display e), world)
      | (.ok (), world) => (syscallResult regsAfter.rax, world)

/-- The injection into a stopped process. -/
def inject (P : Ptrace E W) (pid : Pid) (addr len syscallAddr : UInt64) (world : W) :
    Except String Unit × W :=
  match P.getregs pid world with
  | (.error e, world) => (.error ("getregs failed: " ++ P.display e), (P.detach pid world).2)
  | (.ok orig, world) =>
    match P.setregs pid (injectedRegs orig addr len syscallAddr) world with
    | (.error e, world) => (.error ("setregs failed: " ++ P.display e), (P.detach pid world).2)
    | (.ok (), world) =>
      match P.runToStop pid orig "entry" world with
      | (.error message, world) => (.error message, world)
      | (.ok (), world) =>
        match P.runToStop pid orig "exit" world with
        | (.error message, world) => (.error message, world)
        | (.ok (), world) => P.finish pid orig world

/-- Inject `madvise(MADV_MERGEABLE)` into a target process via ptrace. -/
def madviseViaPtrace (P : Ptrace E W) (pid : UInt32) (addr len syscallAddr : UInt64) (world : W) :
    Except String Unit × W :=
  let nixPid := pid.toInt32
  match P.attach nixPid world with
  | (.error e, world) => (.error ("ptrace attach failed: " ++ P.display e), world)
  | (.ok (), world) =>
    match P.waitpid nixPid world with
    | (.ok (.stopped _ _), world) => P.inject nixPid addr len syscallAddr world
    | (.ok (.exited pid code), world) =>
      (.error ("target process " ++ toString pid.toInt ++ " exited with code " ++
        toString code.toInt), world)
    | (.ok other, world) => (.error ("unexpected wait status: " ++ P.debug other), world)
    | (.error e, world) =>
      (.error ("waitpid failed: " ++ P.display e), (P.detach nixPid world).2)

end Ptrace

/-! ## What every request preserves -/

/-- Every request on an attached process preserves a property. -/
structure Ptrace.Preserves {E W : Type} (P : Ptrace E W) (pid : Pid) (I : W → Prop) : Prop where
  waitpid : ∀ w, I w → I (P.waitpid pid w).2
  getregs : ∀ w, I w → I (P.getregs pid w).2
  setregs : ∀ regs w, I w → I (P.setregs pid regs w).2
  syscall : ∀ w, I w → I (P.syscall pid w).2
  detach : ∀ w, I w → I (P.detach pid w).2

namespace Ptrace.Preserves

variable {E W : Type} {P : Ptrace E W} {pid : Pid} {I : W → Prop} (h : P.Preserves pid I)
include h

theorem release (orig : Regs) {w : W} (hw : I w) : I (P.release pid orig w) :=
  h.detach _ (h.setregs orig w hw)

theorem runToStop (orig : Regs) (stop : String) {w : W} (hw : I w) :
    I (P.runToStop pid orig stop w).2 := by
  have hsyscall := h.syscall w hw
  unfold Ptrace.runToStop
  generalize P.syscall pid w = answered at hsyscall
  obtain ⟨e | ⟨⟩, w₁⟩ := answered
  · exact h.release orig hsyscall
  · have hwait := h.waitpid w₁ hsyscall
    dsimp only
    split
    next heq => rw [heq] at hwait; exact hwait
    next heq => rw [heq] at hwait; exact h.release orig hwait
    next heq => rw [heq] at hwait; exact h.release orig hwait

theorem finish (orig : Regs) {w : W} (hw : I w) : I (P.finish pid orig w).2 := by
  have hgetregs := h.getregs w hw
  unfold Ptrace.finish
  generalize P.getregs pid w = answered at hgetregs
  obtain ⟨e | regs, w₁⟩ := answered
  · exact h.release orig hgetregs
  · have hsetregs := h.setregs orig w₁ hgetregs
    dsimp only
    generalize P.setregs pid orig w₁ = answered at hsetregs
    obtain ⟨e | ⟨⟩, w₂⟩ := answered
    · exact h.detach w₂ hsetregs
    · have hdetach := h.detach w₂ hsetregs
      dsimp only
      generalize P.detach pid w₂ = answered at hdetach
      obtain ⟨e | ⟨⟩, w₃⟩ := answered
      · exact hdetach
      · exact hdetach

theorem inject (addr len syscallAddr : UInt64) {w : W} (hw : I w) :
    I (P.inject pid addr len syscallAddr w).2 := by
  have hgetregs := h.getregs w hw
  unfold Ptrace.inject
  generalize P.getregs pid w = answered at hgetregs
  obtain ⟨e | orig, w₁⟩ := answered
  · exact h.detach w₁ hgetregs
  · have hsetregs := h.setregs (Ptrace.injectedRegs orig addr len syscallAddr) w₁ hgetregs
    dsimp only
    generalize P.setregs pid (Ptrace.injectedRegs orig addr len syscallAddr) w₁ = answered at hsetregs
    obtain ⟨e | ⟨⟩, w₂⟩ := answered
    · exact h.detach w₂ hsetregs
    · have hentry := h.runToStop orig "entry" hsetregs
      dsimp only
      generalize P.runToStop pid orig "entry" w₂ = answered at hentry
      obtain ⟨e | ⟨⟩, w₃⟩ := answered
      · exact hentry
      · have hexit := h.runToStop orig "exit" hentry
        dsimp only
        generalize P.runToStop pid orig "exit" w₃ = answered at hexit
        obtain ⟨e | ⟨⟩, w₄⟩ := answered
        · exact hexit
        · exact h.finish orig hexit

end Ptrace.Preserves

end Animaksm.Daemon

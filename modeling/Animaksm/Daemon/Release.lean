import Animaksm.Daemon.Ptrace

/-!
# Releasing the injected process

The process behind the requests is seen as whether it lives, whether it is traced
and what its registers hold. As long as the restoring requests themselves succeed,
every failure path of an injection lets the process go with its own registers, but
for one: a first wait that reports anything but a stop returns without a detach.
-/

namespace Animaksm.Daemon

/-- The process that an injection attaches to. -/
structure Tracee where
  alive : Bool
  traced : Bool
  regs : Regs

/-- A finished request and its outcome. -/
inductive PtraceCall (E : Type) where
  | attach (outcome : Except E Unit)
  | waitpid (outcome : Except E WaitStatus)
  | getregs (outcome : Except E Regs)
  | setregs (regs : Regs) (outcome : Except E Unit)
  | syscall (outcome : Except E Unit)
  | detach (outcome : Except E Unit)

/-- The status of a process that is no more. -/
def WaitStatus.isFinal : WaitStatus → Bool
  | .exited _ _ => true
  | .signaled _ _ _ => true
  | _ => false

/-- The status of a stopped process. -/
def WaitStatus.isStopped : WaitStatus → Bool
  | .stopped _ _ => true
  | _ => false

variable {E W : Type}

/-- What the requests do to a process, which may die at any time. A request that fails has no effect,
and while the injected syscall runs only registers change. -/
structure Ptrace.Contract (P : Ptrace E W) (pid : Pid) (tracee : W → Tracee)
    (calls : W → List (PtraceCall E)) : Prop where
  calls_attach : ∀ w, calls (P.attach pid w).2 = calls w ++ [.attach (P.attach pid w).1]
  calls_waitpid : ∀ w, calls (P.waitpid pid w).2 = calls w ++ [.waitpid (P.waitpid pid w).1]
  calls_getregs : ∀ w, calls (P.getregs pid w).2 = calls w ++ [.getregs (P.getregs pid w).1]
  calls_setregs : ∀ regs w,
    calls (P.setregs pid regs w).2 = calls w ++ [.setregs regs (P.setregs pid regs w).1]
  calls_syscall : ∀ w, calls (P.syscall pid w).2 = calls w ++ [.syscall (P.syscall pid w).1]
  calls_detach : ∀ w, calls (P.detach pid w).2 = calls w ++ [.detach (P.detach pid w).1]
  attach : ∀ w, (P.attach pid w).1 = .ok () → (tracee (P.attach pid w).2).alive = true →
    (tracee (P.attach pid w).2).traced = true
  waitpid : ∀ w, (tracee (P.waitpid pid w).2).alive = true →
    (tracee w).alive = true ∧ (tracee (P.waitpid pid w).2).traced = (tracee w).traced
  waitpid_final : ∀ w status, (P.waitpid pid w).1 = .ok status → status.isFinal = true →
    (tracee (P.waitpid pid w).2).alive = false
  getregs : ∀ w, (tracee (P.getregs pid w).2).alive = true → tracee (P.getregs pid w).2 = tracee w
  getregs_ok : ∀ w regs, (P.getregs pid w).1 = .ok regs → regs = (tracee w).regs
  setregs_ok : ∀ regs w, (P.setregs pid regs w).1 = .ok () →
    (tracee (P.setregs pid regs w).2).alive = true → (tracee (P.setregs pid regs w).2).regs = regs
  setregs_error : ∀ regs w e, (P.setregs pid regs w).1 = .error e →
    (tracee (P.setregs pid regs w).2).alive = true → tracee (P.setregs pid regs w).2 = tracee w
  detach_ok : ∀ w, (P.detach pid w).1 = .ok () → (tracee (P.detach pid w).2).alive = true →
    tracee (P.detach pid w).2 = { tracee w with traced := false }

/-- If the process lives, it is not traced and has these registers. -/
def Released (tracee : W → Tracee) (orig : Regs) (world : W) : Prop :=
  (tracee world).alive = true → (tracee world).traced = false ∧ (tracee world).regs = orig

/-- The requests that put these registers back or detach have succeeded. -/
def Restoring (orig : Regs) (made : List (PtraceCall E)) : Prop :=
  (∀ outcome, .setregs orig outcome ∈ made → outcome = .ok ()) ∧
    ∀ outcome, .detach outcome ∈ made → outcome = .ok ()

/-- The request has not failed to set registers or to detach. -/
def PtraceCall.isRestored : PtraceCall E → Bool
  | .setregs _ outcome => outcome.isOk
  | .detach outcome => outcome.isOk
  | _ => true

theorem restoring_of_isRestored {orig : Regs} {made : List (PtraceCall E)}
    (h : made.all PtraceCall.isRestored = true) : Restoring orig made := by
  have hok : ∀ {outcome : Except E Unit}, outcome.isOk = true → outcome = .ok () := by
    rintro (e | ⟨⟩) hok
    · cases hok
    · rfl
  exact ⟨fun _ hmem => hok (List.all_eq_true.mp h _ hmem), fun _ hmem => hok (List.all_eq_true.mp h _ hmem)⟩

theorem Restoring.append {orig : Regs} {made made' : List (PtraceCall E)}
    (h : Restoring orig (made ++ made')) : Restoring orig made ∧ Restoring orig made' :=
  ⟨⟨fun o ho => h.1 o (List.mem_append_left _ ho), fun o ho => h.2 o (List.mem_append_left _ ho)⟩,
    fun o ho => h.1 o (List.mem_append_right _ ho), fun o ho => h.2 o (List.mem_append_right _ ho)⟩

/-- The requests made from one world to another release the process, if the restoring ones succeed. -/
def Releases (tracee : W → Tracee) (calls : W → List (PtraceCall E)) (orig : Regs) (w w' : W) : Prop :=
  ∃ made, calls w' = calls w ++ made ∧ (Restoring orig made → Released tracee orig w')

namespace Ptrace.Contract

variable {P : Ptrace E W} {pid : Pid} {tracee : W → Tracee} {calls : W → List (PtraceCall E)}
  (h : P.Contract pid tracee calls)

/-- Requests before a release do not matter. -/
theorem releases_of_calls {orig : Regs} {w w₁ w₂ : W} {made : List (PtraceCall E)}
    (hmade : calls w₁ = calls w ++ made) (hrel : Releases tracee calls orig w₁ w₂) :
    Releases tracee calls orig w w₂ := by
  obtain ⟨made', hmade', hreleased⟩ := hrel
  refine ⟨made ++ made', ?_, fun hr => hreleased hr.append.2⟩
  rw [hmade', hmade, List.append_assoc]

include h

/-- A detach releases a process that has its registers, if the requests before it restored them. -/
theorem releases_detach {orig : Regs} {w w₁ : W} {made : List (PtraceCall E)}
    (hmade : calls w₁ = calls w ++ made)
    (hregs : Restoring orig made → (tracee w₁).alive = true → (tracee w₁).regs = orig) :
    Releases tracee calls orig w (P.detach pid w₁).2 := by
  refine ⟨made ++ [.detach (P.detach pid w₁).1], ?_, fun hr halive => ?_⟩
  · rw [h.calls_detach, hmade, List.append_assoc]
  · have hdetach := h.detach_ok w₁ (hr.append.2.2 _ (List.mem_singleton_self _)) halive
    rw [hdetach] at halive ⊢
    exact ⟨rfl, hregs hr.append.1 halive⟩

/-- Registers put back and a detach release the process. -/
theorem releases_release (orig : Regs) (w : W) :
    Releases tracee calls orig w (P.release pid orig w) := by
  refine h.releases_detach (h.calls_setregs orig w) fun hr halive => ?_
  exact h.setregs_ok orig w (hr.1 _ (List.mem_singleton_self _)) halive

/-- A run to a syscall stop gets there or releases the process. -/
theorem runToStop_cases (orig : Regs) (stop : String) (w : W) :
    (∃ w' made, P.runToStop pid orig stop w = (.ok (), w') ∧ calls w' = calls w ++ made) ∨
    ∃ message w', P.runToStop pid orig stop w = (.error message, w') ∧
      Releases tracee calls orig w w' := by
  have hcalls := h.calls_syscall w
  unfold runToStop
  rcases hsyscall : P.syscall pid w with ⟨e | ⟨⟩, w₁⟩
  · rw [hsyscall] at hcalls
    exact .inr ⟨_, _, rfl, releases_of_calls hcalls (h.releases_release orig w₁)⟩
  · rw [hsyscall] at hcalls
    have hcalls' := h.calls_waitpid w₁
    dsimp only
    rcases hwait : P.waitpid pid w₁ with ⟨outcome, w₂⟩
    rw [hwait, hcalls, List.append_assoc] at hcalls'
    have hreleased := releases_of_calls hcalls' (h.releases_release orig w₂)
    split
    next heq => cases heq; exact .inl ⟨_, _, rfl, hcalls'⟩
    next heq => cases heq; exact .inr ⟨_, _, rfl, hreleased⟩
    next heq => cases heq; exact .inr ⟨_, _, rfl, hreleased⟩

/-- The end of an injection releases the process. -/
theorem releases_finish (orig : Regs) (w : W) :
    Releases tracee calls orig w (P.finish pid orig w).2 := by
  have hcalls := h.calls_getregs w
  unfold finish
  rcases hget : P.getregs pid w with ⟨e | regsAfter, w₁⟩
  · rw [hget] at hcalls
    exact releases_of_calls hcalls (h.releases_release orig w₁)
  · rw [hget] at hcalls
    have hcalls' := h.calls_setregs orig w₁
    have hset := h.setregs_ok orig w₁
    dsimp only
    rcases hsetregs : P.setregs pid orig w₁ with ⟨e | ⟨⟩, w₂⟩
    · rw [hsetregs] at hcalls'
      refine releases_of_calls hcalls (h.releases_detach hcalls' fun hr => ?_)
      cases hr.1 _ (List.mem_singleton_self _)
    · rw [hsetregs] at hcalls' hset
      have hreleased := releases_of_calls hcalls
        (h.releases_detach hcalls' fun _ halive => hset rfl halive)
      dsimp only at hreleased ⊢
      rcases hdetach : P.detach pid w₂ with ⟨e | ⟨⟩, w₃⟩
      · rw [hdetach] at hreleased
        exact hreleased
      · rw [hdetach] at hreleased
        exact hreleased

/-- An injection into a stopped process releases it with the registers it had. -/
theorem releases_inject (addr len syscallAddr : UInt64) (w : W) :
    Releases tracee calls (tracee w).regs w (P.inject pid addr len syscallAddr w).2 := by
  have hcalls := h.calls_getregs w
  have hkept := h.getregs w
  have hregs := h.getregs_ok w
  unfold inject
  rcases hget : P.getregs pid w with ⟨e | orig, w₁⟩
  · rw [hget] at hcalls hkept
    exact h.releases_detach hcalls fun _ halive => congrArg Tracee.regs (hkept halive)
  · rw [hget] at hcalls hkept hregs
    obtain rfl := hregs orig rfl
    have hcalls' := h.calls_setregs (injectedRegs (tracee w).regs addr len syscallAddr) w₁
    have herror := h.setregs_error (injectedRegs (tracee w).regs addr len syscallAddr) w₁
    dsimp only
    rcases hset : P.setregs pid (injectedRegs (tracee w).regs addr len syscallAddr) w₁ with
      ⟨e | ⟨⟩, w₂⟩
    · rw [hset] at hcalls' herror
      refine releases_of_calls hcalls (h.releases_detach hcalls' fun _ halive => ?_)
      have hsame := herror e rfl halive
      rw [hsame] at halive ⊢
      exact congrArg Tracee.regs (hkept halive)
    · rw [hset] at hcalls'
      refine releases_of_calls hcalls (releases_of_calls hcalls' ?_)
      dsimp only
      rcases h.runToStop_cases (tracee w).regs "entry" w₂ with
        ⟨w₃, made, hrun, hmade⟩ | ⟨message, w₃, hrun, hreleased⟩
      · rw [hrun]
        refine releases_of_calls hmade ?_
        dsimp only
        rcases h.runToStop_cases (tracee w).regs "exit" w₃ with
          ⟨w₄, made', hrun', hmade'⟩ | ⟨message, w₄, hrun', hreleased⟩
        · rw [hrun']
          exact releases_of_calls hmade' (h.releases_finish _ w₄)
        · rw [hrun']
          exact hreleased
      · rw [hrun]
        exact hreleased

end Ptrace.Contract

namespace Ptrace

/-- The first wait after an attach. -/
def firstWait (P : Ptrace E W) (pid : Pid) (world : W) : Except E WaitStatus × W :=
  P.waitpid pid (P.attach pid world).2

/-- The attach succeeds and the first wait reports something other than a stop of a process that
lives on. -/
def Abandons (P : Ptrace E W) (tracee : W → Tracee) (pid : Pid) (world : W) : Prop :=
  (P.attach pid world).1 = .ok () ∧
    (∃ status, (P.firstWait pid world).1 = .ok status ∧ status.isStopped = false) ∧
    (tracee (P.firstWait pid world).2).alive = true

/-- What an attached process that lives through the first wait is left as, by what that wait reports. -/
theorem Contract.madviseViaPtrace_cases {P : Ptrace E W} {pid : UInt32} {tracee : W → Tracee}
    {calls : W → List (PtraceCall E)} (h : P.Contract pid.toInt32 tracee calls)
    (addr len syscallAddr : UInt64) {world : W} (hattach : (P.attach pid.toInt32 world).1 = .ok ()) :
    (¬ P.Abandons tracee pid.toInt32 world ∧
      Releases tracee calls (tracee (P.firstWait pid.toInt32 world).2).regs world
        (P.madviseViaPtrace pid addr len syscallAddr world).2) ∨
    P.Abandons tracee pid.toInt32 world ∧
      (P.madviseViaPtrace pid addr len syscallAddr world).2 = (P.firstWait pid.toInt32 world).2 := by
  have hcalls := h.calls_attach world
  have hwaits := h.calls_waitpid (P.attach pid.toInt32 world).2
  have hfinal := h.waitpid_final (P.attach pid.toInt32 world).2
  rw [hcalls, List.append_assoc] at hwaits
  unfold madviseViaPtrace Abandons firstWait
  dsimp only
  rcases hattached : P.attach pid.toInt32 world with ⟨e | ⟨⟩, w₁⟩
  · rw [hattached] at hattach; cases hattach
  rw [hattached] at hwaits hfinal
  dsimp only at hwaits hfinal ⊢
  rcases hwait : P.waitpid pid.toInt32 w₁ with ⟨outcome, w₂⟩
  rw [hwait] at hwaits hfinal
  dsimp only at hwaits hfinal ⊢
  split
  next p signal world' heq =>
    cases heq
    refine .inl ⟨?_, releases_of_calls hwaits (h.releases_inject addr len syscallAddr w₂)⟩
    rintro ⟨-, ⟨status, hstatus, hnot⟩, -⟩
    cases hstatus
    cases hnot
  next p code world' heq =>
    cases heq
    have hdead := hfinal _ rfl rfl
    refine .inl ⟨fun hab => ?_, _, hwaits, fun _ halive => ?_⟩
    · rw [hdead] at hab
      exact Bool.false_ne_true hab.2.2
    · rw [hdead] at halive
      exact absurd halive Bool.false_ne_true
  next other world' hstopped hexited heq =>
    cases heq
    by_cases halive : (tracee w₂).alive = true
    · refine .inr ⟨⟨rfl, ⟨other, rfl, ?_⟩, halive⟩, rfl⟩
      cases other with
      | stopped p signal => exact absurd rfl (hstopped p signal)
      | _ => rfl
    · exact .inl ⟨fun hab => halive hab.2.2, _, hwaits, fun _ h => absurd h halive⟩
  next e world' heq =>
    cases heq
    refine .inl ⟨?_, h.releases_detach hwaits fun _ _ => rfl⟩
    rintro ⟨-, ⟨status, hstatus, -⟩, -⟩
    cases hstatus

/-- An injection whose restoring requests succeed releases the process, with the registers of its
first stop, exactly when it does not abandon it after the first wait. -/
theorem released_iff {P : Ptrace E W} {pid : UInt32} {tracee : W → Tracee}
    {calls : W → List (PtraceCall E)} (h : P.Contract pid.toInt32 tracee calls)
    (addr len syscallAddr : UInt64) (world : W)
    (hrestoring : ∀ made,
      calls (P.madviseViaPtrace pid addr len syscallAddr world).2 = calls world ++ made →
      Restoring (tracee (P.firstWait pid.toInt32 world).2).regs made) :
    ((P.attach pid.toInt32 world).1 = .ok () →
      Released tracee (tracee (P.firstWait pid.toInt32 world).2).regs
        (P.madviseViaPtrace pid addr len syscallAddr world).2) ↔
      ¬ P.Abandons tracee pid.toInt32 world := by
  by_cases hattach : (P.attach pid.toInt32 world).1 = .ok ()
  · rw [forall_prop_of_true hattach]
    rcases h.madviseViaPtrace_cases addr len syscallAddr hattach with
      ⟨hnot, made, hmade, hreleased⟩ | ⟨habandons, hworld⟩
    · exact iff_of_true (hreleased (hrestoring made hmade)) hnot
    · -- The process is still traced as the attach left it.
      refine iff_of_false (fun hreleased => ?_) (not_not_intro habandons)
      rw [hworld] at hreleased
      obtain ⟨hlived, htraced⟩ := h.waitpid (P.attach pid.toInt32 world).2 habandons.2.2
      have hstill := (hreleased habandons.2.2).1
      rw [firstWait, htraced, h.attach world hattach hlived] at hstill
      cases hstill
  · exact iff_of_true (fun hok => absurd hok hattach) (fun habandons => hattach habandons.1)

/-- A process that answers every request, and every wait with this status. -/
def answering (status : WaitStatus) : Ptrace Unit (Tracee × List (PtraceCall Unit)) where
  attach _ w := (.ok (), { w.1 with traced := true }, w.2 ++ [.attach (.ok ())])
  waitpid _ w := (.ok status, { w.1 with alive := w.1.alive && !status.isFinal },
    w.2 ++ [.waitpid (.ok status)])
  getregs _ w := (.ok w.1.regs, w.1, w.2 ++ [.getregs (.ok w.1.regs)])
  setregs _ regs w := (.ok (), { w.1 with regs := regs }, w.2 ++ [.setregs regs (.ok ())])
  syscall _ w := (.ok (), { w.1 with regs := { w.1.regs with rax := 0 } }, w.2 ++ [.syscall (.ok ())])
  detach _ w := (.ok (), { w.1 with traced := false }, w.2 ++ [.detach (.ok ())])
  display _ := "EPERM: Operation not permitted"
  debug status := toString (repr status)

theorem contract_answering (status : WaitStatus) (pid : Pid) :
    (answering status).Contract pid Prod.fst Prod.snd where
  calls_attach _ := rfl
  calls_waitpid _ := rfl
  calls_getregs _ := rfl
  calls_setregs _ _ := rfl
  calls_syscall _ := rfl
  calls_detach _ := rfl
  attach _ _ _ := rfl
  waitpid _ halive := ⟨(Bool.and_eq_true_iff.mp halive).1, rfl⟩
  waitpid_final w _ hok hfinal := by
    cases hok
    change (w.1.alive && !status.isFinal) = false
    rw [hfinal, Bool.not_true, Bool.and_false]
  getregs _ _ := rfl
  getregs_ok _ _ hok := (Except.ok.inj hok).symm
  setregs_ok _ _ _ _ := rfl
  setregs_error _ _ _ herror := nomatch herror
  detach_ok _ _ _ := rfl

/-- A living process that nobody traces. -/
def runningProcess : Tracee × List (PtraceCall Unit) :=
  (⟨true, false, ⟨0x401000, 1, 2, 3, 4, []⟩⟩, [])

theorem released_iff_apply : Released Prod.fst runningProcess.1.regs
    ((answering (.stopped 7 .sigtrap)).madviseViaPtrace 7 0x7000 4096 0x5000 runningProcess).2 := by
  refine (released_iff (contract_answering (.stopped 7 .sigtrap) 7) 0x7000 4096 0x5000 runningProcess
    fun made hmade => ?_).mpr ?_ rfl
  · rw [← show _ = made from hmade]
    exact restoring_of_isRestored rfl
  · rintro ⟨-, ⟨status, hstatus, hnot⟩, -⟩
    cases hstatus
    cases hnot

/-- After a first wait that reports a ptrace event the process is left traced. -/
theorem not_released : ((answering (.ptraceEvent 7 .sigtrap 4)).attach 7 runningProcess).1 = .ok () ∧
    ((answering (.ptraceEvent 7 .sigtrap 4)).madviseViaPtrace 7 0x7000 4096 0x5000 runningProcess).2.2 =
      [.attach (.ok ()), .waitpid (.ok (.ptraceEvent 7 .sigtrap 4))] ∧
    ¬ Released Prod.fst runningProcess.1.regs
      ((answering (.ptraceEvent 7 .sigtrap 4)).madviseViaPtrace 7 0x7000 4096 0x5000
        runningProcess).2 := by
  refine ⟨rfl, rfl, fun hreleased => ?_⟩
  cases (hreleased rfl).1

end Ptrace

end Animaksm.Daemon

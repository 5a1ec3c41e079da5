import Animaksm.Lib.Run
import Animaksm.Proxy.Memory

/-!
# Sequential sessions

A session is an engine that serves whole requests one after the other, next to
the memory that its successful writes and its discards stand for. Requests carry
the outcomes of their file accesses.
-/

namespace Animaksm.Proxy

/-- One request of a sequential run. -/
inductive Op where
  | write (v : UInt64) (io : WriteIo) (data : List UInt8)
  | read (v : UInt64) (io : IoOutcome)
  | discard (v : UInt64)
  | setPassthrough (on : Bool)

namespace Op

/-- The offset a request names. -/
def offset : Op → Option UInt64
  | .write v _ _ | .read v _ | .discard v => some v
  | .setPassthrough _ => none

/-- No verified duplicate of this request is counted on an entry whose count is at its limit. -/
def CountFits (fingerprintPage : Page → Fingerprint) (e : ProxyEngine) : Op → Prop
  | .write _ _ data => e.passthrough = false →
      e.RefCountFits (fingerprintPage (normalizePage data)) (normalizePage data)
  | .read _ _ | .discard _ | .setPassthrough _ => True

instance (fingerprintPage : Page → Fingerprint) (e : ProxyEngine) :
    ∀ op : Op, Decidable (op.CountFits fingerprintPage e)
  | .write _ _ data => inferInstanceAs (Decidable (e.passthrough = false →
      e.RefCountFits (fingerprintPage (normalizePage data)) (normalizePage data)))
  | .read _ _ | .discard _ | .setPassthrough _ => isTrue trivial

/-- A write of this request succeeds. -/
def Succeeds (fingerprintPage : Page → Fingerprint) (e : ProxyEngine) : Op → Prop
  | .write v io data => (e.handleWrite fingerprintPage io v data).1 = .ok ()
  | .read _ _ | .discard _ | .setPassthrough _ => True

instance (fingerprintPage : Page → Fingerprint) (e : ProxyEngine) :
    ∀ op : Op, Decidable (op.Succeeds fingerprintPage e)
  | .write v io data =>
    inferInstanceAs (Decidable ((e.handleWrite fingerprintPage io v data).1 = .ok ()))
  | .read _ _ | .discard _ | .setPassthrough _ => isTrue trivial

end Op

/-- The offset is among the first `n` pages of the device. -/
def InFirstPages (n : Nat) (v : UInt64) : Prop :=
  v.toNat % pageSize = 0 ∧ v.toNat < n * pageSize

instance (n : Nat) (v : UInt64) : Decidable (InFirstPages n v) :=
  inferInstanceAs (Decidable (_ ∧ _))

/-- An engine, and the pages its successful writes and discards left. -/
structure Session where
  engine : ProxyEngine
  memory : Memory

namespace Session

/-- A fresh engine and the empty memory. -/
def start (store : PageStore) (maxEntries bloomCapacity : Nat) : Session :=
  ⟨.ofStore store maxEntries bloomCapacity, .empty⟩

/-- The same with passthrough switched off before the first request. -/
def startDedup (store : PageStore) (maxEntries bloomCapacity : Nat) : Session :=
  ⟨(ProxyEngine.ofStore store maxEntries bloomCapacity).setPassthrough false, .empty⟩

/-- Serve one request. -/
def step (fingerprintPage : Page → Fingerprint) (s : Session) : Op → Session
  | .write v io data =>
    let (result, e) := s.engine.handleWrite fingerprintPage io v data
    ⟨e, if result = .ok () then s.memory.write v (normalizePage data) else s.memory⟩
  | .read v io => ⟨(s.engine.handleRead io v).2, s.memory⟩
  | .discard v => ⟨s.engine.handleDiscard v, s.memory.discard v⟩
  | .setPassthrough on => ⟨s.engine.setPassthrough on, s.memory⟩

theorem step_start_setPassthrough (fingerprintPage : Page → Fingerprint) (store : PageStore)
    (maxEntries bloomCapacity : Nat) :
    (start store maxEntries bloomCapacity).step fingerprintPage (.setPassthrough false) =
      startDedup store maxEntries bloomCapacity := rfl

/-- Every offset reads as the memory has it. -/
def ReadsBack (s : Session) : Prop :=
  ∀ v, (s.engine.handleRead .done v).1 = .ok (s.memory.read v)

/-- The engine backs the memory of its session. -/
def Sound (strict : Prop) (s : Session) : Prop := Backs strict s.engine 0 s.memory

variable {strict : Prop} {fingerprintPage : Page → Fingerprint} {s : Session} {op : Op}

/-- A write that finds a place for its page. -/
theorem step_write_of_place_ok {v : UInt64} {io : WriteIo} {data : List UInt8}
    {entry : TranslationEntry} {placed : ProxyEngine}
    (h : s.engine.place fingerprintPage io data = (.ok entry, placed)) :
    s.step fingerprintPage (.write v io data) =
      ⟨placed.replaceMapping v entry, s.memory.write v (normalizePage data)⟩ := by
  rw [step, ProxyEngine.handleWrite_eq, h, ProxyEngine.install]
  simp only [if_true]

/-- A write that finds none. -/
theorem step_write_of_place_error {v : UInt64} {io : WriteIo} {data : List UInt8}
    {err : EngineError} {placed : ProxyEngine}
    (h : s.engine.place fingerprintPage io data = (.error err, placed)) :
    s.step fingerprintPage (.write v io data) = ⟨placed, s.memory⟩ := by
  rw [step, ProxyEngine.handleWrite_eq, h, ProxyEngine.install]
  simp only [reduceCtorEq, if_false]

theorem sound_start (store : PageStore) (maxEntries bloomCapacity : Nat) :
    (start store maxEntries bloomCapacity).Sound strict := Backs.ofStore ..

theorem sound_startDedup (store : PageStore) (maxEntries bloomCapacity : Nat) :
    (startDedup store maxEntries bloomCapacity).Sound strict :=
  Backs.setPassthrough (Backs.ofStore ..) false

theorem Sound.readsBack (h : s.Sound strict) : s.ReadsBack := Backs.handleRead h

/-- A request leaves what the memory holds at every other offset. -/
theorem memory_step_of_ne {w : UInt64} (h : op.offset ≠ some w) :
    (s.step fingerprintPage op).memory.read w = s.memory.read w := by
  cases op with
  | write v io data =>
    have hwv : w ≠ v := fun hw => h (congrArg some hw.symm)
    simp only [step]
    split
    · exact Memory.read_write_of_ne _ _ hwv
    · rfl
  | discard v => exact Memory.read_discard_of_ne _ fun hw => h (congrArg some hw.symm)
  | read _ _ => rfl
  | setPassthrough _ => rfl

/-- Strictly, one request keeps the books as long as it evicts nothing and its count fits. -/
theorem Sound.strict_step (h : s.Sound True) (hfits : op.CountFits fingerprintPage s.engine)
    (hev : (s.step fingerprintPage op).engine.dedupTable.evictions =
      s.engine.dedupTable.evictions) : (s.step fingerprintPage op).Sound True := by
  cases op with
  | write v io data =>
    exact Backs.handleWrite h v hfits (fun _ => hev) fun hs => absurd trivial hs
  | read v io => exact Backs.recount h (ProxyEngine.recounts_handleRead ..)
  | discard v => exact Backs.handleDiscard h v fun hs => absurd trivial hs
  | setPassthrough on => exact Backs.setPassthrough h on

end Session

/-- A fingerprint that shows the first bytes of a page. -/
def firstBytes (page : Page) : Fingerprint := fun i => page.bytes.getD i 0

/-- A store of this many slots over an empty file. -/
def PageStore.blank (totalSlots : Nat) (h : totalSlots * pageSize < 2 ^ 64) : PageStore :=
  ⟨⟨0, fun _ => 0⟩, totalSlots, 0, 0, h⟩

end Animaksm.Proxy

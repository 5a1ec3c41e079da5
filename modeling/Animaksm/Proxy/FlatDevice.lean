import Animaksm.Lib.FlatMemory
import Animaksm.Proxy.BlockDevice
import Animaksm.Proxy.Session

/-!
# The block device as a flat byte array

In passthrough mode the device is a byte array that starts as zeros: writes
replace a range, discards and zero writes clear one, reads return one. The pages
that the engine backs and the bytes of the array agree after every page of every
request, so they agree after any sequence of requests that succeed.
-/

namespace Animaksm.Proxy

/-! ## Pages and bytes -/

/-- Every page of the memory holds the bytes at its offset. -/
def Memory.Agrees (m : Memory) (f : FlatMemory UInt8) : Prop :=
  ∀ v : UInt64, pageSize ∣ v.toNat → (m.read v).bytes = f.read v.toNat pageSize

/-- Different page offsets are at least a page apart. -/
theorem add_pageSize_le_of_lt {v w : Nat} (hv : pageSize ∣ v) (hw : pageSize ∣ w) (h : v < w) :
    v + pageSize ≤ w := by
  unfold pageSize at *
  omega

/-- Storing a page at its offset writes its bytes there. -/
theorem Memory.Agrees.write {m : Memory} {f : FlatMemory UInt8} (h : m.Agrees f) {v : UInt64}
    (hv : pageSize ∣ v.toNat) (page : Page) :
    (m.write v page).Agrees (f.write v.toNat page.bytes) := by
  intro w hw
  by_cases hwv : w = v
  · subst hwv
    have hself := f.read_write_self w.toNat page.bytes
    rw [page.length_bytes] at hself
    rw [Memory.read_write_self, hself]
  · rw [Memory.read_write_of_ne _ _ hwv, h w hw, FlatMemory.read_write_of_disjoint]
    rw [page.length_bytes]
    rcases Nat.lt_or_gt_of_ne fun heq => hwv (UInt64.toNat_inj.mp heq) with hlt | hgt
    · exact Or.inl (add_pageSize_le_of_lt hw hv hlt)
    · exact Or.inr (add_pageSize_le_of_lt hv hw hgt)

/-- The bytes of the page of zeros. -/
theorem bytes_zeroPage : zeroPage.bytes = List.replicate pageSize 0 := by
  simp [zeroPage, normalizePage]

/-- Forgetting a page reads as storing the page of zeros. -/
theorem Memory.read_discard_eq (m : Memory) (v w : UInt64) :
    (m.discard v).read w = (m.write v zeroPage).read w := by
  by_cases hwv : w = v
  · rw [hwv, Memory.read_discard_self, Memory.read_write_self]
  · rw [Memory.read_discard_of_ne _ hwv, Memory.read_write_of_ne _ _ hwv]

/-- Forgetting a page clears its bytes. -/
theorem Memory.Agrees.discard {m : Memory} {f : FlatMemory UInt8} (h : m.Agrees f) {v : UInt64}
    (hv : pageSize ∣ v.toNat) :
    (m.discard v).Agrees (f.write v.toNat (List.replicate pageSize 0)) := by
  intro w hw
  rw [Memory.read_discard_eq, ← bytes_zeroPage]
  exact h.write hv zeroPage w hw

/-! ## The engine behind the bytes -/

/-- The engine is in passthrough mode and backs a memory of these bytes. -/
def ProxyEngine.Shows (e : ProxyEngine) (f : FlatMemory UInt8) : Prop :=
  e.passthrough = true ∧ ∃ m, Backs True e 0 m ∧ m.Agrees f

/-- A fresh engine shows zeros, whatever its file holds. -/
theorem ProxyEngine.shows_ofStore (store : PageStore) (maxEntries bloomCapacity : Nat) :
    (ProxyEngine.ofStore store maxEntries bloomCapacity).Shows fun _ => 0 := by
  refine ⟨rfl, Memory.empty, Backs.ofStore .., fun v _ => ?_⟩
  rw [Memory.read, Memory.empty, Option.getD_none, bytes_zeroPage, FlatMemory.read,
    List.map_const', List.length_range']

/-- A write in passthrough mode evicts nothing and stays in that mode. -/
theorem ProxyEngine.handleWrite_of_passthrough {e : ProxyEngine} (hp : e.passthrough = true)
    (fingerprintPage : Page → Fingerprint) (io : WriteIo) (v : UInt64) (data : List UInt8) :
    (e.handleWrite fingerprintPage io v data).2.passthrough = true ∧
      (e.handleWrite fingerprintPage io v data).2.dedupTable.evictions =
        e.dedupTable.evictions := by
  have hframe := e.countWrite.placeDirect_frame io (normalizePage data)
  rw [ProxyEngine.handleWrite_eq, ProxyEngine.place, if_pos hp]
  rcases hplace : e.countWrite.placeDirect io (normalizePage data) with ⟨err | entry, placed⟩ <;>
    rw [hplace] at hframe
  · exact ⟨hframe.2.trans hp, congrArg DedupTable.evictions hframe.1⟩
  · rw [ProxyEngine.install, ProxyEngine.passthrough_replaceMapping,
      ProxyEngine.evictions_replaceMapping]
    exact ⟨hframe.2.trans hp, congrArg DedupTable.evictions hframe.1⟩

namespace ProxyEngine.Shows

variable {fingerprintPage : Page → Fingerprint} {e : ProxyEngine} {f : FlatMemory UInt8}
  {v : UInt64}

/-- A page write that succeeds writes its bytes. -/
theorem handleWrite (h : e.Shows f) (hv : pageSize ∣ v.toNat) {io : WriteIo} {data : List UInt8}
    (hdata : data.length = pageSize)
    (hok : (e.handleWrite fingerprintPage io v data).1 = .ok ()) :
    (e.handleWrite fingerprintPage io v data).2.Shows (f.write v.toNat data) := by
  obtain ⟨hp, m, hb, hm⟩ := h
  obtain ⟨hp', hev⟩ := handleWrite_of_passthrough hp fingerprintPage io v data
  have hbytes : (normalizePage data).bytes = data :=
    congrArg Page.bytes (normalizePage_bytes ⟨data, hdata⟩)
  have hoff : ¬ e.passthrough = false := by
    rw [hp]
    simp
  have hb' := hb.handleWrite v (fun h => absurd h hoff) (fun _ => hev) fun hs => absurd trivial hs
  rw [if_pos hok] at hb'
  refine ⟨hp', _, hb', ?_⟩
  have hagrees := hm.write hv (normalizePage data)
  rwa [hbytes] at hagrees

/-- A discard clears the bytes of its page. -/
theorem handleDiscard (h : e.Shows f) (hv : pageSize ∣ v.toNat) :
    (e.handleDiscard v).Shows (f.write v.toNat (List.replicate pageSize 0)) := by
  obtain ⟨hp, m, hb, hm⟩ := h
  have hswitch : (e.handleDiscard v).passthrough = e.passthrough := passthrough_releaseOld ..
  exact ⟨hswitch.trans hp, _, hb.handleDiscard v fun hs => absurd trivial hs, hm.discard hv⟩

/-- A page read that succeeds returns the bytes of its page. -/
theorem handleRead (h : e.Shows f) (hv : pageSize ∣ v.toNat) {io : IoOutcome} {page : Page}
    (hok : (e.handleRead io v).1 = .ok page) :
    page.bytes = f.read v.toNat pageSize ∧ (e.handleRead io v).2.Shows f := by
  obtain ⟨hp, m, hb, hm⟩ := h
  have hcount := e.recounts_handleRead io v
  refine ⟨?_, hcount.passthrough_eq.trans hp, m, hb.recount hcount, hm⟩
  have hread := hb.handleRead v
  rw [handleRead_done_of_ok hok] at hread
  cases hread
  exact hm v hv

end ProxyEngine.Shows

/-! ## Requests -/

/-- A request as it reaches the device: range, buffer and file accesses. -/
structure Submission where
  op : UblkOp
  startSector : UInt64
  nrSectors : UInt32
  buffer : List UInt8
  io : RequestIo

namespace Submission

/-- The request in bytes. -/
def request (r : Submission) : BlockRequest := .new r.op r.startSector r.nrSectors

/-- Carry out the request. -/
def execute (fingerprintPage : Page → Fingerprint) (e : ProxyEngine) (r : Submission) :
    Except Errno Nat × RequestState :=
  executeRequest fingerprintPage r.io r.request ⟨e, r.buffer⟩

/-- First byte of the range. -/
def first (r : Submission) : Nat := 512 * r.startSector.toNat

/-- Length of the range in bytes. -/
def length (r : Submission) : Nat := 512 * r.nrSectors.toNat

/-- Whole pages inside a device of this size, fewer than `2 ^ 22` sectors of them, and a
buffer that holds them where one is used. -/
def InDevice (size : Nat) (r : Submission) : Prop :=
  r.first % pageSize = 0 ∧ r.length % pageSize = 0 ∧ r.nrSectors.toNat < 2 ^ 22 ∧
    r.first + r.length ≤ size ∧ (r.op.usesBuffer = true → r.length ≤ r.buffer.length)

instance (size : Nat) (r : Submission) : Decidable (r.InDevice size) := by
  unfold InDevice
  infer_instance

/-- The request succeeds on this engine. -/
def Succeeds (fingerprintPage : Page → Fingerprint) (e : ProxyEngine) (r : Submission) : Prop :=
  (r.execute fingerprintPage e).1.isOk = true

instance (fingerprintPage : Page → Fingerprint) (e : ProxyEngine) (r : Submission) :
    Decidable (r.Succeeds fingerprintPage e) :=
  inferInstanceAs (Decidable (_ = true))

/-- What the request puts into its range: written bytes, or zeros. -/
def payload (r : Submission) : List UInt8 :=
  match r.op with
  | .write => r.buffer.take r.length
  | .discard | .writeZeroes => List.replicate r.length 0
  | .read | .flush | .unsupported _ => []

end Submission

/-- An engine, next to the byte array that its requests should have made. -/
structure FlatDevice where
  engine : ProxyEngine
  flat : FlatMemory UInt8

namespace FlatDevice

/-- A fresh engine in its first mode, passthrough, and zeros. -/
def start (store : PageStore) (maxEntries bloomCapacity : Nat) : FlatDevice :=
  ⟨.ofStore store maxEntries bloomCapacity, fun _ => 0⟩

/-- Carry out a request on both sides. -/
def step (fingerprintPage : Page → Fingerprint) (d : FlatDevice) (r : Submission) : FlatDevice :=
  ⟨(r.execute fingerprintPage d.engine).2.engine, d.flat.write r.first r.payload⟩

/-- A read fills the first part of its buffer with the bytes of its range. -/
def ReadsFlat (fingerprintPage : Page → Fingerprint) (d : FlatDevice) (r : Submission) : Prop :=
  r.op = .read → (r.execute fingerprintPage d.engine).2.buffer =
    d.flat.read r.first r.length ++ r.buffer.drop r.length

end FlatDevice

/-! ## Rounds of a request -/

namespace Submission

variable {fingerprintPage : Page → Fingerprint} {r : Submission} {size pageIdx : Nat}
  {e : ProxyEngine} {f : FlatMemory UInt8} {v : UInt64} {s s' : RequestState}

/-- A page of the range lies inside it. -/
theorem InDevice.page_le (h : r.InDevice size) (hi : pageIdx < r.length / pageSize) :
    pageIdx * pageSize + pageSize ≤ r.length := by
  have := h.2.1
  unfold pageSize at *
  omega

theorem InDevice.dvd_page (h : r.InDevice size) (pageIdx : Nat) :
    pageSize ∣ r.first + pageIdx * pageSize :=
  Nat.dvd_add (Nat.dvd_of_mod_eq_zero h.1) (Nat.dvd_mul_left _ _)

/-- The pages of the range are addressed without wrapping. -/
theorem InDevice.toNat_pageOffset (h : r.InDevice size) (hsize : size < 2 ^ 64)
    (hi : pageIdx < r.length / pageSize) :
    (r.request.pageOffset pageIdx).toNat = r.first + pageIdx * pageSize := by
  have hpage := h.page_le hi
  have hend := h.2.2.2.1
  unfold request
  rw [BlockRequest.toNat_pageOffset_new, first]
  · omega
  · unfold first at hend
    unfold pageSize at *
    omega

/-- The byte count of the request is its length. -/
theorem InDevice.bytes_request (h : r.InDevice size) : r.request.bytes = r.length := by
  have hsectors := h.2.2.1
  unfold request
  rw [BlockRequest.bytes_new, length]
  omega

/-- The payload of an operation that stores fills the range. -/
theorem InDevice.length_payload (h : r.InDevice size) (hop : r.op.isPaged = true)
    (hread : r.op ≠ .read) : r.payload.length = r.length := by
  have hbuffer := h.2.2.2.2
  unfold payload
  cases hk : r.op <;> rw [hk] at hbuffer hop
  case read => exact absurd hk hread
  case write => exact List.length_take_of_le (hbuffer rfl)
  case discard | writeZeroes => exact List.length_replicate ..
  case flush | unsupported => cases hop

/-- A round of an operation that stores puts its page of the payload in place. -/
theorem InDevice.storing_round (h : r.InDevice size) (hop : r.op.isPaged = true)
    (hread : r.op ≠ .read) (hi : pageIdx < r.length / pageSize) (hs : s.engine.Shows f)
    (hbuffer : s.buffer = r.buffer) (hv : pageSize ∣ v.toNat)
    (hok : r.op.processPage fingerprintPage r.io r.length pageIdx v s = (.ok (), s')) :
    s'.engine.Shows
        (f.write v.toNat ((r.payload.drop (pageIdx * pageSize)).take pageSize)) ∧
      s'.buffer = r.buffer := by
  have hpage := h.page_le hi
  have hlen : ((r.payload.drop (pageIdx * pageSize)).take pageSize).length = pageSize := by
    rw [List.length_take, List.length_drop, h.length_payload hop hread]
    omega
  unfold UblkOp.processPage at hok
  unfold payload at hlen ⊢
  cases hk : r.op <;> rw [hk] at hok hop <;> simp only [hk] at hlen ⊢
  case read => exact absurd hk hread
  case flush | unsupported => cases hop
  case write =>
    obtain ⟨hdone, rfl⟩ := writeData_ok hok
    rw [chunk, hbuffer] at *
    exact ⟨hs.handleWrite hv hlen hdone, rfl⟩
  case discard =>
    cases hok
    rw [List.drop_replicate, List.take_replicate, Nat.min_eq_left (by omega)]
    exact ⟨hs.handleDiscard hv, hbuffer⟩
  case writeZeroes =>
    obtain ⟨hdone, rfl⟩ := writeData_ok hok
    rw [List.drop_replicate, List.take_replicate, Nat.min_eq_left (by omega)]
    exact ⟨hs.handleWrite hv List.length_replicate hdone, hbuffer⟩

/-- A round of a read appends the bytes of its page to those already read. -/
theorem reading_round {done rest : List UInt8} (hs : s.engine.Shows f)
    (hbuffer : s.buffer = done ++ rest) (hdone : done.length = pageIdx * pageSize)
    (hv : pageSize ∣ v.toNat) (hok : readChunk r.io r.length pageIdx v s = (.ok (), s')) :
    s'.engine.Shows f ∧
      s'.buffer = done ++ f.read v.toNat pageSize ++ rest.drop pageSize := by
  obtain ⟨page, hpage, rfl⟩ := readChunk_ok hok
  obtain ⟨hbytes, hshows⟩ := hs.handleRead hv hpage
  refine ⟨hshows, ?_⟩
  rw [copyFromSlice, hbuffer, page.length_bytes, hbytes, ← hdone, List.take_left,
    List.drop_length_add_append]

/-- A request on pages that succeeds ran its loop to the end. -/
theorem InDevice.loop_ok (h : r.InDevice size) (hop : r.op.isPaged = true)
    (hok : r.Succeeds fingerprintPage e) :
    Loop.forEach (fun pageIdx => r.op.processPage fingerprintPage r.io r.length pageIdx
      (r.request.pageOffset pageIdx)) (List.range (r.length / pageSize)) ⟨e, r.buffer⟩ =
      (.ok (), (r.execute fingerprintPage e).2) := by
  unfold Succeeds execute at *
  by_cases hrefused : r.request.Refused r.buffer
  · rw [executeRequest_refused fingerprintPage r.io hop hrefused] at hok
    cases hok
  · rw [executeRequest_accepted fingerprintPage r.io hop hrefused, h.bytes_request] at *
    change (reportBytes _ (Loop.forEach (fun pageIdx => r.op.processPage _ _ _ _ _) _ _)).1.isOk =
      true at hok
    change Loop.forEach _ _ _ = (.ok (), (reportBytes _ (Loop.forEach
      (fun pageIdx => r.op.processPage _ _ _ _ _) _ _)).2)
    rcases hloop : Loop.forEach (fun pageIdx => r.op.processPage fingerprintPage r.io r.length
      pageIdx (r.request.pageOffset pageIdx)) (List.range (r.length / pageSize)) ⟨e, r.buffer⟩
      with ⟨errno | _, s'⟩
    · rw [hloop] at hok
      cases hok
    · rfl

/-- An operation that stores puts its payload in place. -/
theorem InDevice.stores (h : r.InDevice size) (hsize : size < 2 ^ 64)
    (hop : r.op.isPaged = true) (hread : r.op ≠ .read) (hs : e.Shows f)
    (hok : r.Succeeds fingerprintPage e) :
    (r.execute fingerprintPage e).2.engine.Shows (f.write r.first r.payload) := by
  have hpages : r.length / pageSize * pageSize = r.length :=
    Nat.div_mul_cancel (Nat.dvd_of_mod_eq_zero h.2.1)
  have hlen := h.length_payload hop hread
  -- after some rounds, that many pages of the payload are in place
  have hrun := Loop.forEach_range_ok
    (I := fun pageIdx s => s.engine.Shows
      (f.write r.first (r.payload.take (pageIdx * pageSize))) ∧ s.buffer = r.buffer)
    (fun pageIdx hi t t' ht hround => by
      have hv := h.toNat_pageOffset hsize hi
      have hround' := h.storing_round hop hread hi ht.1 ht.2 (hv ▸ h.dvd_page pageIdx) hround
      have hpage := h.page_le hi
      have htake : (r.payload.take (pageIdx * pageSize)).length = pageIdx * pageSize :=
        List.length_take_of_le (by omega)
      have hnext := f.write_append r.first (r.payload.take (pageIdx * pageSize))
        ((r.payload.drop (pageIdx * pageSize)).take pageSize)
      rw [← List.take_add, ← Nat.succ_mul, htake, ← hv] at hnext
      exact ⟨hnext ▸ hround'.1, hround'.2⟩)
    ⟨by simpa using hs, rfl⟩ (h.loop_ok hop hok)
  have hall := hrun.1
  rwa [hpages, ← hlen, List.take_length] at hall

/-- A read fills its part of the buffer, and leaves the engine as it shows. -/
theorem InDevice.reads (h : r.InDevice size) (hsize : size < 2 ^ 64) (hread : r.op = .read)
    (hs : e.Shows f) (hok : r.Succeeds fingerprintPage e) :
    (r.execute fingerprintPage e).2.engine.Shows f ∧
      (r.execute fingerprintPage e).2.buffer = f.read r.first r.length ++ r.buffer.drop r.length := by
  have hpages : r.length / pageSize * pageSize = r.length :=
    Nat.div_mul_cancel (Nat.dvd_of_mod_eq_zero h.2.1)
  have hloop := h.loop_ok (by rw [hread]; rfl) hok
  -- after some rounds, that many pages are read
  have hrun := Loop.forEach_range_ok
    (I := fun pageIdx s => s.engine.Shows f ∧ s.buffer =
      f.read r.first (pageIdx * pageSize) ++ r.buffer.drop (pageIdx * pageSize))
    (fun pageIdx hi t t' ht hround => by
      rw [hread] at hround
      have hv := h.toNat_pageOffset hsize hi
      have hround' := reading_round ht.1 ht.2 (f.length_read _ _) (hv ▸ h.dvd_page pageIdx) hround
      refine ⟨hround'.1, ?_⟩
      rw [hround'.2, hv, Nat.succ_mul, FlatMemory.read_add, List.drop_drop])
    ⟨hs, by simp⟩ hloop
  rwa [hpages] at hrun

end Submission

/-! ## Runs -/

/-- A request that succeeds leaves the engine showing the array, written in its range. -/
theorem FlatDevice.shows_step {fingerprintPage : Page → Fingerprint} {size : Nat}
    (hsize : size < 2 ^ 64) {d : FlatDevice} {r : Submission} (hs : d.engine.Shows d.flat)
    (h : r.InDevice size ∧ r.Succeeds fingerprintPage d.engine) :
    (d.step fingerprintPage r).engine.Shows (d.step fingerprintPage r).flat := by
  obtain ⟨hin, hok⟩ := h
  by_cases hop : r.op.isPaged = true
  · by_cases hread : r.op = .read
    · have hpayload : r.payload = [] := by
        rw [Submission.payload, hread]
      rw [FlatDevice.step, hpayload, FlatMemory.write_nil]
      exact (hin.reads hsize hread hs hok).1
    · exact hin.stores hsize hop hread hs hok
  · rw [FlatDevice.step]
    unfold Submission.payload Submission.execute executeRequest Submission.request
    cases hk : r.op with
    | read | write | discard | writeZeroes => exact absurd (by rw [hk]; rfl) hop
    | flush | unsupported =>
      simp only [BlockRequest.new, FlatMemory.write_nil]
      exact hs

/-- In every sequence of requests inside the device that all succeed, each read fills its
part of its buffer with what the byte array has after the requests before. -/
theorem FlatDevice.reads_flat (fingerprintPage : Page → Fingerprint) (store : PageStore)
    (maxEntries bloomCapacity size : Nat) (hsize : size < 2 ^ 64) (requests : List Submission)
    (h : Run.Along (FlatDevice.step fingerprintPage)
      (fun d r => r.InDevice size ∧ r.Succeeds fingerprintPage d.engine)
      (.start store maxEntries bloomCapacity) requests) :
    Run.Along (FlatDevice.step fingerprintPage) (FlatDevice.ReadsFlat fingerprintPage)
      (.start store maxEntries bloomCapacity) requests :=
  h.of_invariant (I := fun d => d.engine.Shows d.flat)
    (fun _ _ hs hr => FlatDevice.shows_step hsize hs hr)
    (fun _ _ hs hr hread => (hr.1.reads hsize hread hs hr.2).2)
    (ProxyEngine.shows_ofStore store maxEntries bloomCapacity)

/-- Two pages are written, and the second of them again. -/
def FlatDevice.overwritten : List Submission :=
  [⟨.write, 0, 16, List.replicate 8192 7, .done⟩, ⟨.write, 8, 8, List.replicate 4096 9, .done⟩]

/-- Both pages are read. -/
def FlatDevice.readBoth : Submission := ⟨.read, 0, 16, List.replicate 8192 1, .done⟩

theorem FlatDevice.reads_flat_apply :
    let d := Run.run (FlatDevice.step firstBytes) (.start (.blank 4 (by decide)) 1 1) overwritten
    (readBoth.execute firstBytes d.engine).2.buffer =
      List.replicate 4096 7 ++ List.replicate 4096 9 := by
  intro d
  have halong : Run.Along (FlatDevice.step firstBytes)
      (fun d r => r.InDevice 16384 ∧ r.Succeeds firstBytes d.engine)
      (.start (.blank 4 (by decide)) 1 1) (overwritten ++ [readBoth]) := by
    decide +kernel
  have hreads := FlatDevice.reads_flat firstBytes _ 1 1 16384 (by decide) _ halong
  have hbuffer := (Run.along_append.mp hreads).2.1 rfl
  have hfirst : readBoth.first = 0 := by decide
  have hlength : readBoth.length = 4096 + 4096 := by decide
  -- The second write stands over the first one, of which the first page is left.
  have hflat : d.flat = (FlatMemory.write (fun _ => 0) 0
      (List.replicate 4096 7 ++ List.replicate 4096 7)).write 4096 (List.replicate 4096 9) := by
    have hpayloads : overwritten.map Submission.payload =
        [List.replicate 8192 7, List.replicate 4096 9] := by
      simp only [overwritten, List.map_cons, List.map_nil, Submission.payload, Submission.length,
        List.take_replicate]
      rfl
    obtain ⟨hfirst, hrest⟩ := List.cons.inj hpayloads
    rw [List.replicate_append_replicate, ← hfirst, ← (List.cons.inj hrest).1]
    rfl
  rw [hfirst, hlength] at hbuffer
  change _ = d.flat.read 0 (4096 + 4096) ++ (List.replicate 8192 1).drop (4096 + 4096) at hbuffer
  have hsecond := FlatMemory.read_write_self (FlatMemory.write (fun _ => (0 : UInt8)) 0
    (List.replicate 4096 7 ++ List.replicate 4096 7)) 4096 (List.replicate 4096 9)
  rw [List.length_replicate] at hsecond
  have hkept : d.flat.read 0 4096 = List.replicate 4096 7 := by
    have hself := FlatMemory.read_write_self (fun _ => (0 : UInt8)) 0 (List.replicate 4096 7)
    rw [List.length_replicate] at hself
    have hbefore : 0 + 4096 ≤ 4096 := le_rfl
    have hbefore' : 0 + 4096 ≤ 0 + (List.replicate 4096 (7 : UInt8)).length := by
      rw [List.length_replicate]
    rw [hflat, FlatMemory.read_write_of_disjoint _ (.inl hbefore), FlatMemory.write_append,
      FlatMemory.read_write_of_disjoint _ (.inl hbefore'), hself]
  rw [hbuffer, FlatMemory.read_add, hkept, Nat.zero_add, hflat, hsecond, List.drop_replicate,
    List.replicate_zero, List.append_nil]

end Animaksm.Proxy

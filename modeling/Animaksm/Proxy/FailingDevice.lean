import Animaksm.Proxy.FlatDevice

/-!
# The block device when requests fail

A request may be refused, find the store full or meet failures of file accesses. It
then has processed a number of its pages, from the first on, and nothing else: the
device in passthrough mode is still a byte array, into which a request has put that
many pages of its payload.
-/

namespace Animaksm.Proxy

namespace ProxyEngine.Shows

variable {fingerprintPage : Page → Fingerprint} {e : ProxyEngine} {f : FlatMemory UInt8}

/-- A page write that fails leaves the bytes as they were. -/
theorem handleWrite_error (h : e.Shows f) {io : WriteIo} {v : UInt64} {data : List UInt8}
    (herr : (e.handleWrite fingerprintPage io v data).1 ≠ .ok ()) :
    (e.handleWrite fingerprintPage io v data).2.Shows f := by
  obtain ⟨hp, m, hb, hm⟩ := h
  obtain ⟨hp', hev⟩ := handleWrite_of_passthrough hp fingerprintPage io v data
  have hon : ¬ e.passthrough = false := by rw [hp]; exact Bool.true_eq_false_eq_False
  have hb' := hb.handleWrite v (fun h => absurd h hon) (fun _ => hev) fun hs => absurd trivial hs
  rw [if_neg herr] at hb'
  exact ⟨hp', m, hb', hm⟩

/-- A page read leaves the bytes as they were. -/
theorem handleRead_shows (h : e.Shows f) (io : IoOutcome) (v : UInt64) :
    (e.handleRead io v).2.Shows f := by
  obtain ⟨hp, m, hb, hm⟩ := h
  have hcount := e.recounts_handleRead io v
  exact ⟨hcount.passthrough_eq.trans hp, m, hb.recount hcount, hm⟩

end ProxyEngine.Shows

namespace Submission

/-- Fewer than `2 ^ 22` sectors inside a device of this size. -/
def Fits (size : Nat) (r : Submission) : Prop :=
  r.nrSectors.toNat < 2 ^ 22 ∧ r.first + r.length ≤ size

instance (size : Nat) (r : Submission) : Decidable (r.Fits size) :=
  inferInstanceAs (Decidable (_ ∧ _))

/-- The request goes through its pages. -/
def Accepted (r : Submission) : Prop := r.op.isPaged = true ∧ ¬ r.request.Refused r.buffer

instance (r : Submission) : Decidable r.Accepted :=
  inferInstanceAs (Decidable (_ ∧ ¬ (¬ _ ∨ _ ∧ _)))

/-- The number of its pages that a request processes. -/
def processed (fingerprintPage : Page → Fingerprint) (e : ProxyEngine) (r : Submission) : Nat :=
  if r.Accepted then
    Loop.completed (fun pageIdx => r.op.processPage fingerprintPage r.io r.request.bytes pageIdx
      (r.request.pageOffset pageIdx)) (List.range (r.request.bytes / pageSize)) ⟨e, r.buffer⟩
  else 0

/-- The payload of the processed pages. -/
def processedPayload (fingerprintPage : Page → Fingerprint) (e : ProxyEngine) (r : Submission) :
    List UInt8 :=
  r.payload.take (r.processed fingerprintPage e * pageSize)

variable {fingerprintPage : Page → Fingerprint} {r : Submission} {size pageIdx : Nat}
  {e : ProxyEngine} {f : FlatMemory UInt8} {s s' : RequestState}

/-- A request that goes through its pages is one of whole pages inside the device. -/
theorem Accepted.inDevice (h : r.Accepted) (hfits : r.Fits size) : r.InDevice size := by
  obtain ⟨haligned, hbuffer⟩ := not_or.mp h.2
  obtain ⟨hstart, hsectors⟩ := (BlockRequest.aligned_new ..).mp (not_not.mp haligned)
  have hbytes : r.request.bytes = r.length := by
    have hlt := hfits.1
    unfold request
    rw [BlockRequest.bytes_new, length]
    omega
  refine ⟨?_, ?_, hfits.1, hfits.2, fun huses => ?_⟩
  · rw [first, pageSize]
    omega
  · rw [length, pageSize]
    omega
  · rw [← hbytes]
    by_contra hlt
    exact hbuffer ⟨huses, Nat.not_le.mp hlt⟩

/-- A request that does not go through its pages leaves engine and buffer alone. -/
theorem execute_of_not_accepted (h : ¬ r.Accepted) :
    (r.execute fingerprintPage e).2 = ⟨e, r.buffer⟩ ∧
      ((r.execute fingerprintPage e).1.isOk = true ↔ r.op = .flush) := by
  unfold execute
  by_cases hop : r.op.isPaged = true
  · have hrefused : r.request.Refused r.buffer := by
      by_contra hnot
      exact h ⟨hop, hnot⟩
    rw [executeRequest_refused fingerprintPage r.io hop hrefused]
    exact ⟨rfl, iff_of_false (fun h => by cases h) fun hflush => by rw [hflush] at hop; cases hop⟩
  · cases hk : r.op with
    | read | write | discard | writeZeroes => exact absurd (by rw [hk]; rfl) hop
    | flush =>
      rw [executeRequest_flush hk]
      exact ⟨rfl, iff_of_true rfl rfl⟩
    | unsupported raw =>
      rw [executeRequest_unsupported hk]
      exact ⟨rfl, iff_of_false (fun h => by cases h) fun h => by cases h⟩

/-- A request that goes through its pages runs its loop. -/
theorem Accepted.execute_eq (h : r.Accepted) :
    let loop := Loop.forEach (fun pageIdx => r.op.processPage fingerprintPage r.io r.request.bytes
      pageIdx (r.request.pageOffset pageIdx)) (List.range (r.request.bytes / pageSize)) ⟨e, r.buffer⟩
    (r.execute fingerprintPage e).2 = loop.2 ∧
      ((r.execute fingerprintPage e).1.isOk = true ↔ loop.1.isOk = true) := by
  intro loop
  have hexecute : r.execute fingerprintPage e = reportBytes r.request.bytes loop :=
    executeRequest_accepted fingerprintPage r.io h.1 h.2
  rw [hexecute]
  rcases loop with ⟨errno | _, s⟩
  · exact ⟨rfl, iff_of_false (fun h => by cases h) fun h => by cases h⟩
  · exact ⟨rfl, iff_of_true rfl rfl⟩

/-- A round of an operation that stores which fails changes nothing. -/
theorem storing_round_error {v : UInt64} {errno : Errno} (hread : r.op ≠ .read)
    (hs : s.engine.Shows f)
    (herr : r.op.processPage fingerprintPage r.io r.length pageIdx v s = (.error errno, s')) :
    s'.engine.Shows f ∧ s'.buffer = s.buffer := by
  have hwrite : ∀ data, writeData fingerprintPage r.io pageIdx v data s = (.error errno, s') →
      s'.engine.Shows f ∧ s'.buffer = s.buffer := by
    intro data hdata
    unfold writeData at hdata
    rcases hw : s.engine.handleWrite fingerprintPage (r.io.write pageIdx) v data with ⟨err | _, e⟩ <;>
      rw [hw] at hdata <;> cases hdata
    have herror : (s.engine.handleWrite fingerprintPage (r.io.write pageIdx) v data).1 ≠ .ok () := by
      rw [hw]
      exact fun h => by cases h
    have hshows := hs.handleWrite_error herror
    rw [hw] at hshows
    exact ⟨hshows, rfl⟩
  unfold UblkOp.processPage at herr
  cases hk : r.op <;> rw [hk] at herr
  case read => exact absurd hk hread
  case write => exact hwrite _ herr
  case writeZeroes => exact hwrite _ herr
  case flush | unsupported | discard => cases herr

/-- A round of a read that fails changes nothing. -/
theorem reading_round_error {v : UInt64} {errno : Errno} (hs : s.engine.Shows f)
    (herr : readChunk r.io r.length pageIdx v s = (.error errno, s')) :
    s'.engine.Shows f ∧ s'.buffer = s.buffer := by
  have hshows := hs.handleRead_shows (r.io.read pageIdx) v
  unfold readChunk at herr
  rcases hr : s.engine.handleRead (r.io.read pageIdx) v with ⟨err | page, e⟩ <;> rw [hr] at herr hshows
  · cases herr
    exact ⟨hshows, rfl⟩
  · dsimp only at herr
    split at herr <;> cases herr
    exact ⟨hshows, rfl⟩

/-- An operation that stores puts the payload of the processed pages in place. -/
theorem Accepted.stores (h : r.Accepted) (hfits : r.Fits size) (hsize : size < 2 ^ 64)
    (hread : r.op ≠ .read) (hs : e.Shows f) :
    (r.execute fingerprintPage e).2.engine.Shows
        (f.write r.first (r.processedPayload fingerprintPage e)) ∧
      (r.execute fingerprintPage e).2.buffer = r.buffer := by
  have hin := h.inDevice hfits
  have hlen := hin.length_payload h.1 hread
  rw [h.execute_eq.1, processedPayload, processed, if_pos h, hin.bytes_request]
  refine Loop.forEach_range_completed
    (I := fun pageIdx (s : RequestState) => s.engine.Shows
      (f.write r.first (r.payload.take (pageIdx * pageSize))) ∧ s.buffer = r.buffer)
    (fun pageIdx hi t t' ht hround => ?_) (fun pageIdx hi t t' errno ht hround => ?_)
    ⟨by simpa using hs, rfl⟩
  · have hv := hin.toNat_pageOffset hsize hi
    have hround' := hin.storing_round h.1 hread hi ht.1 ht.2 (hv ▸ hin.dvd_page pageIdx) hround
    have hpage := hin.page_le hi
    have htake : (r.payload.take (pageIdx * pageSize)).length = pageIdx * pageSize :=
      List.length_take_of_le (by omega)
    have hnext := f.write_append r.first (r.payload.take (pageIdx * pageSize))
      ((r.payload.drop (pageIdx * pageSize)).take pageSize)
    rw [← List.take_add, ← Nat.succ_mul, htake, ← hv] at hnext
    exact ⟨hnext ▸ hround'.1, hround'.2⟩
  · obtain ⟨hshows, hbuffer⟩ := storing_round_error hread ht.1 hround
    exact ⟨hshows, hbuffer.trans ht.2⟩

/-- A read fills the processed part of its buffer. -/
theorem Accepted.reads (h : r.Accepted) (hfits : r.Fits size) (hsize : size < 2 ^ 64)
    (hread : r.op = .read) (hs : e.Shows f) :
    (r.execute fingerprintPage e).2.engine.Shows f ∧
      (r.execute fingerprintPage e).2.buffer =
        f.read r.first (r.processed fingerprintPage e * pageSize) ++
          r.buffer.drop (r.processed fingerprintPage e * pageSize) := by
  have hin := h.inDevice hfits
  rw [h.execute_eq.1, processed, if_pos h, hin.bytes_request]
  refine Loop.forEach_range_completed
    (I := fun pageIdx (s : RequestState) => s.engine.Shows f ∧ s.buffer =
      f.read r.first (pageIdx * pageSize) ++ r.buffer.drop (pageIdx * pageSize))
    (fun pageIdx hi t t' ht hround => ?_) (fun pageIdx hi t t' errno ht hround => ?_)
    ⟨hs, by simp⟩
  · rw [hread] at hround
    have hv := hin.toNat_pageOffset hsize hi
    obtain ⟨hshows, hbuffer⟩ :=
      reading_round ht.1 ht.2 (f.length_read _ _) (hv ▸ hin.dvd_page pageIdx) hround
    refine ⟨hshows, ?_⟩
    rw [hbuffer, hv, Nat.succ_mul, FlatMemory.read_add, List.drop_drop]
  · rw [hread] at hround
    obtain ⟨hshows, hbuffer⟩ := reading_round_error ht.1 hround
    exact ⟨hshows, hbuffer.trans ht.2⟩

/-- A request succeeds when it goes through all its pages; a flush has none. -/
theorem succeeds_iff (hfits : r.Fits size) : r.Succeeds fingerprintPage e ↔
    r.op = .flush ∨ r.Accepted ∧ r.processed fingerprintPage e = r.length / pageSize := by
  unfold Succeeds
  by_cases h : r.Accepted
  · have hflush : r.op ≠ .flush := by
      intro hk
      have hop := h.1
      rw [hk] at hop
      cases hop
    rw [h.execute_eq.2, Loop.forEach_isOk_iff, List.length_range, processed, if_pos h,
      (h.inDevice hfits).bytes_request]
    exact ⟨fun hall => .inr ⟨h, hall⟩, fun hor => (hor.resolve_left hflush).2⟩
  · rw [(execute_of_not_accepted h).2]
    exact ⟨.inl, fun hor => hor.resolve_right fun haccepted => h haccepted.1⟩

end Submission

/-! ## Runs -/

namespace FlatDevice

/-- Carry out a request, and put the payload of the pages it processed into the array. -/
def serve (fingerprintPage : Page → Fingerprint) (d : FlatDevice) (r : Submission) : FlatDevice :=
  ⟨(r.execute fingerprintPage d.engine).2.engine,
    d.flat.write r.first (r.processedPayload fingerprintPage d.engine)⟩

/-- A request succeeds when it goes through all its pages, a flush always. A read fills the processed part
of its buffer with the bytes of its range, and nothing else touches a buffer. -/
def Serves (fingerprintPage : Page → Fingerprint) (d : FlatDevice) (r : Submission) : Prop :=
  (r.Succeeds fingerprintPage d.engine ↔ r.op = .flush ∨
    r.Accepted ∧ r.processed fingerprintPage d.engine = r.length / pageSize) ∧
  (r.execute fingerprintPage d.engine).2.buffer =
    let filled := if r.op = .read then r.processed fingerprintPage d.engine * pageSize else 0
    d.flat.read r.first filled ++ r.buffer.drop filled

variable {fingerprintPage : Page → Fingerprint} {size : Nat} {d : FlatDevice} {r : Submission}

/-- Whatever becomes of a request, the engine shows the array after it. -/
theorem shows_serve (hsize : size < 2 ^ 64) (hs : d.engine.Shows d.flat) (hfits : r.Fits size) :
    (d.serve fingerprintPage r).engine.Shows (d.serve fingerprintPage r).flat := by
  rw [serve]
  by_cases h : r.Accepted
  · by_cases hread : r.op = .read
    · have hpayload : r.processedPayload fingerprintPage d.engine = [] := by
        rw [Submission.processedPayload, Submission.payload, hread, List.take_nil]
      rw [hpayload, FlatMemory.write_nil]
      exact (h.reads hfits hsize hread hs).1
    · exact (h.stores hfits hsize hread hs).1
  · rw [(Submission.execute_of_not_accepted h).1, Submission.processedPayload, Submission.processed,
      if_neg h, Nat.zero_mul, List.take_zero, FlatMemory.write_nil]
    exact hs

theorem serves_of_shows (hsize : size < 2 ^ 64) (hs : d.engine.Shows d.flat) (hfits : r.Fits size) :
    d.Serves fingerprintPage r := by
  refine ⟨Submission.succeeds_iff hfits, ?_⟩
  by_cases h : r.Accepted
  · by_cases hread : r.op = .read
    · rw [if_pos hread]
      exact (h.reads hfits hsize hread hs).2
    · rw [if_neg hread]
      exact (h.stores hfits hsize hread hs).2
  · rw [(Submission.execute_of_not_accepted h).1, Submission.processed, if_neg h, Nat.zero_mul, ite_self]
    rfl

/-- In every sequence of requests inside the device, whichever are refused or fail and wherever, each
has processed its first pages and no others, a read returns what the array has there, and the engine
goes on to show the array. -/
theorem serves_prefixes (fingerprintPage : Page → Fingerprint) (store : PageStore)
    (maxEntries bloomCapacity size : Nat) (hsize : size < 2 ^ 64) (requests : List Submission)
    (hfits : ∀ r ∈ requests, r.Fits size) :
    Run.Along (serve fingerprintPage) (Serves fingerprintPage)
        (.start store maxEntries bloomCapacity) requests ∧
      (Run.run (serve fingerprintPage) (.start store maxEntries bloomCapacity) requests).engine.Shows
        (Run.run (serve fingerprintPage) (.start store maxEntries bloomCapacity) requests).flat := by
  have hshows := ProxyEngine.shows_ofStore store maxEntries bloomCapacity
  have halong : Run.Along (serve fingerprintPage) (fun _ r => r.Fits size)
      (.start store maxEntries bloomCapacity) requests := Run.along_of_forall hfits _
  refine ⟨halong.of_invariant (I := fun d => d.engine.Shows d.flat) ?_ ?_ hshows,
    halong.invariant (I := fun d => d.engine.Shows d.flat) ?_ hshows⟩
  · exact fun _ _ hs hr => shows_serve hsize hs hr
  · exact fun _ _ hs hr => serves_of_shows hsize hs hr
  · exact fun _ _ hs hr => shows_serve hsize hs hr

/-- A write of two pages to a store of one slot, and a read of the first. -/
def cutShort : List Submission :=
  [⟨.write, 0, 16, List.replicate 8192 7, .done⟩, ⟨.read, 0, 8, List.replicate 4096 1, .done⟩]

theorem serves_prefixes_cutShort :
    Run.Along (serve firstBytes) (Serves firstBytes) (.start (.blank 1 (by decide)) 1 1) cutShort :=
  (serves_prefixes firstBytes (.blank 1 (by decide)) 1 1 8192 (by decide) cutShort
    (by decide +kernel)).1

/-- The write fails, and its first page stays. -/
example : ¬ (⟨.write, 0, 16, List.replicate 8192 7, .done⟩ : Submission).Succeeds firstBytes
    (.ofStore (.blank 1 (by decide)) 1 1) := by decide +kernel

end FlatDevice

end Animaksm.Proxy

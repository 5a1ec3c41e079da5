import Mathlib.Algebra.BigOperators.Pi
import Animaksm.Lib.Threads
import Animaksm.Proxy.Interleaving

/-!
# The statistics of any interleaving

A request is counted in one section and its outcome in another, while other queues
count theirs. In every interleaving, with any failures of file accesses and any
evictions, each counter is what the answers given so far and the requests in
progress add up to.
-/

namespace Animaksm.Proxy

namespace PageStore

theorem pagesWritten_readPage (s : PageStore) (io : IoOutcome) (slot : Nat) :
    (s.readPage io slot).2.pagesWritten = s.pagesWritten := by
  unfold readPage
  split
  · rfl
  · split <;> rfl

/-- A page is counted as written when the write succeeds. -/
theorem pagesWritten_writePage (s : PageStore) (io : IoOutcome) (slot : Nat) (data : List UInt8) :
    ((s.writePage io slot data).1 = .ok () ∧
      (s.writePage io slot data).2.pagesWritten = s.pagesWritten + 1) ∨
    (∃ err, (s.writePage io slot data).1 = .error err ∧
      (s.writePage io slot data).2.pagesWritten = s.pagesWritten) := by
  unfold writePage
  split
  · exact .inr ⟨_, rfl, rfl⟩
  · cases io with
    | done => exact .inl ⟨rfl, rfl⟩
    | failed written => exact .inr ⟨_, rfl, rfl⟩

end PageStore

/-- The answer to a request. -/
inductive Answer where
  | write (ok : Bool)
  | read
  | discard
  deriving DecidableEq

/-- What the statistics count. -/
inductive Counter where
  /-- Writes. -/
  | writes
  /-- Writes that stored a page or shared one. -/
  | served
  /-- Pages in the store that are not counted as unique writes yet. -/
  | stored
  | reads
  | discards
  deriving DecidableEq

namespace Counter

/-- What the counters show. -/
def value (c : Counter) (e : ProxyEngine) : UInt64 :=
  match c with
  | .writes => e.stats.totalWrites
  | .served => e.stats.uniqueWrites + e.stats.duplicateWrites
  | .stored => e.store.pagesWritten - e.stats.uniqueWrites
  | .reads => e.stats.totalReads
  | .discards => e.stats.discards

/-- What an answer adds. -/
def answered (c : Counter) (answer : Answer) : Nat :=
  match c, answer with
  | .writes, .write _ | .served, .write true | .reads, .read | .discards, .discard => 1
  | _, _ => 0

/-- What the stage of a write adds. -/
def staged (c : Counter) (stage : WriteStage) : Nat :=
  match c, stage with
  | .writes, .start => 0
  | .writes, _ | .served, .replace _ | .stored, .containsKey _ _ | .stored, .makeRoom _ _
  | .stored, .mapInsert _ _ | .stored, .index _ _ => 1
  | _, _ => 0

/-- What an update adds whose displaced entry is being released. -/
def updated (c : Counter) (u : Update) : Nat :=
  match u with
  | .write _ _ => c.answered (.write true)
  | .discard _ => c.answered .discard

/-- What a request in progress adds. -/
def pending (c : Counter) : Thread → Nat
  | .writing _ _ stage => c.staged stage
  | .releasing u _ | .freeing u _ => c.updated u
  | .readingSlot _ _ => c.answered .read
  | .idle | .discarding _ | .reading _ | .answered _ _ => 0

end Counter

/-- The answer that a section gives, from the thread before and after it and the update it completes. -/
def Thread.givesAnswer : Thread → Thread → Option Update → Option Answer
  | _, _, some (.write _ _) => some (.write true)
  | _, _, some (.discard _) => some .discard
  | .writing _ _ _, .idle, none => some (.write false)
  | .reading _, .answered _ _, none | .readingSlot _ _, .answered _ _, none => some .read
  | _, _, none => none

/-- Queues with the answers given so far. -/
structure LoggedQueues (n : Nat) where
  queues : Queues n
  log : List Answer

namespace LoggedQueues

variable {n : Nat}

/-- The answer that a step gives. -/
def answer (fingerprintPage : Page → Fingerprint) (s : Queues n) : Step n → Option Answer
  | .advance i io =>
    let (_, thread, done) := (s.threads i).advance fingerprintPage s.engine io
    (s.threads i).givesAnswer thread done
  | .begin _ _ | .setPassthrough _ => none

def step (fingerprintPage : Page → Fingerprint) (s : LoggedQueues n) (l : Step n) : LoggedQueues n :=
  ⟨s.queues.step fingerprintPage l, (answer fingerprintPage s.queues l).toList ++ s.log⟩

end LoggedQueues

namespace Counter

/-- What a section leaves balances what it found. -/
def Balances (c : Counter) (e : ProxyEngine) (t : Thread) (after : ProxyEngine × Thread × Option Update) :
    Prop :=
  c.value after.1 + UInt64.ofNat (c.pending t) = c.value e + UInt64.ofNat (c.pending after.2.1 +
    ((t.givesAnswer after.2.1 after.2.2).toList.map c.answered).sum)

variable {fingerprintPage : Page → Fingerprint} {e : ProxyEngine} {io : IoOutcome}

/-- A section balances when what it counts is what the request adds less than before. -/
theorem balances_of_count {c : Counter} {t : Thread} {after : ProxyEngine × Thread × Option Update}
    {less more : Nat} (hvalue : c.value after.1 + UInt64.ofNat less = c.value e + UInt64.ofNat more)
    (hpending : c.pending t + more = c.pending after.2.1 +
      ((t.givesAnswer after.2.1 after.2.2).toList.map c.answered).sum + less) : c.Balances e t after := by
  have hpending' := congrArg UInt64.ofNat hpending
  unfold Balances
  rw [UInt64.ofNat_add, UInt64.ofNat_add (_ + _)] at hpending'
  grind

theorem value_congr {c : Counter} {e' : ProxyEngine} (hstats : e'.stats = e.stats)
    (hpages : e'.store.pagesWritten = e.store.pagesWritten) : c.value e' = c.value e := by
  unfold value
  rw [hstats, hpages]

/-- A section that counts nothing passes on what the request adds. -/
theorem balances_of_eq {c : Counter} {t : Thread} {after : ProxyEngine × Thread × Option Update}
    (hstats : after.1.stats = e.stats) (hpages : after.1.store.pagesWritten = e.store.pagesWritten)
    (hpending : c.pending t = c.pending after.2.1 +
      ((t.givesAnswer after.2.1 after.2.2).toList.map c.answered).sum) : c.Balances e t after := by
  rw [Balances, value_congr hstats hpages, hpending]

/-- What one more of a counter is to a counter. -/
def unit (counted c : Counter) : Nat := if c = counted then 1 else 0

theorem value_countWrite (c : Counter) (e : ProxyEngine) :
    c.value e.countWrite = c.value e + UInt64.ofNat (unit .writes c) := by
  cases c with
  | writes => rfl
  | served | stored | reads | discards => exact (UInt64.add_zero _).symm

theorem value_countDuplicate (c : Counter) (e : ProxyEngine) :
    c.value e.countDuplicate = c.value e + UInt64.ofNat (unit .served c) := by
  cases c with
  | served => exact (UInt64.add_assoc ..).symm
  | writes | stored | reads | discards => exact (UInt64.add_zero _).symm

/-- A stored page that is counted as a unique write is no longer only stored. -/
theorem value_countUnique (c : Counter) (e : ProxyEngine) :
    c.value e.countUnique + UInt64.ofNat (unit .stored c) =
      c.value e + UInt64.ofNat (unit .served c) := by
  cases c with
  | served =>
    change e.stats.uniqueWrites + 1 + e.stats.duplicateWrites + 0 = _ + _ + 1
    grind
  | stored =>
    change e.store.pagesWritten - (e.stats.uniqueWrites + 1) + 1 = _ - _ + 0
    grind
  | writes | reads | discards => rfl

theorem value_stored {e' : ProxyEngine} (c : Counter) (hstats : e'.stats = e.stats)
    (hpages : e'.store.pagesWritten = e.store.pagesWritten + 1) :
    c.value e' = c.value e + UInt64.ofNat (unit .stored c) := by
  unfold value
  rw [hstats, hpages]
  cases c with
  | stored =>
    change e.store.pagesWritten + 1 - e.stats.uniqueWrites = _ - _ + 1
    grind
  | writes | served | reads | discards => exact (UInt64.add_zero _).symm

/-- What becomes of a displaced entry does not matter to the counters. -/
theorem pending_afterUpdate (c : Counter) (u : Update) (old : Option TranslationEntry) (t : Thread) :
    c.pending (Thread.afterUpdate u old).1 + ((t.givesAnswer (Thread.afterUpdate u old).1
      (Thread.afterUpdate u old).2).toList.map c.answered).sum = c.updated u := by
  cases old with
  | none =>
    cases u with
    | write v page => cases t <;> exact Nat.zero_add _
    | discard v => cases t <;> exact Nat.zero_add _
  | some entry => cases t <;> exact Nat.add_zero _

/-- A stored page is counted, and is then to be mapped. -/
theorem balances_countUnique (c : Counter) {v : UInt64} {page : Page} {stage : WriteStage}
    {entry : TranslationEntry} {e' : ProxyEngine} (hstats : e'.stats = e.stats)
    (hpages : e'.store.pagesWritten = e.store.pagesWritten)
    (hstage : c.staged stage + unit .served c = c.staged (.replace entry) + unit .stored c) :
    c.Balances e (.writing v page stage) (e'.countUnique, .writing v page (.replace entry), none) :=
  balances_of_count (value_congr (c := c) hstats hpages ▸ c.value_countUnique e') hstage

/-- Every section of a write balances. -/
theorem balances_advanceWrite (c : Counter) (v : UInt64) (page : Page) (stage : WriteStage) :
    c.Balances e (.writing v page stage) (Thread.advanceWrite fingerprintPage e io v page stage) := by
  cases stage with
  | start =>
    refine @balances_of_count _ _ _ _ 0 (unit .writes c)
      ((UInt64.add_zero _).trans (c.value_countWrite e)) ?_
    simp only [Thread.advanceWrite]
    split
    · cases c <;> rfl
    · cases c <;> rfl
  | lookup fp =>
    simp only [Thread.advanceWrite]
    split
    · exact balances_of_eq rfl rfl (by cases c <;> rfl)
    · exact balances_of_eq rfl rfl (by cases c <;> rfl)
  | readBack fp slot =>
    refine balances_of_eq rfl (PageStore.pagesWritten_readPage ..) ?_
    simp only [Thread.advanceWrite]
    split
    · cases c <;> rfl
    · split
      · cases c <;> rfl
      · cases c <;> rfl
  | addReference fp slot =>
    simp only [Thread.advanceWrite]
    split
    · exact @balances_of_count _ _ _ _ 0 (unit .served c)
        ((UInt64.add_zero _).trans (c.value_countDuplicate _)) (by cases c <;> rfl)
    · exact balances_of_eq rfl rfl (by cases c <;> rfl)
  | allocate fp =>
    simp only [Thread.advanceWrite]
    rcases e.allocateSlot_cases with ⟨slot, -, h⟩ | ⟨-, h⟩
    · rw [h]
      exact balances_of_eq rfl rfl (by cases c <;> rfl)
    · rw [h]
      exact balances_of_eq rfl rfl (by cases c <;> rfl)
  | store fp slot =>
    simp only [Thread.advanceWrite, ProxyEngine.writePageToSlot]
    rcases e.store.pagesWritten_writePage io slot page.bytes with ⟨hok, hpages⟩ | ⟨err, herr, hpages⟩
    · have hstored := @value_stored e
        { e with store := (e.store.writePage io slot page.bytes).2 } c rfl hpages
      rw [hok]
      cases fp with
      | none =>
        have hunique := c.value_countUnique
          { e with store := (e.store.writePage io slot page.bytes).2 }
        rw [hstored, UInt64.add_assoc, ← UInt64.ofNat_add] at hunique
        exact balances_of_count hunique (by cases c <;> rfl)
      | some fp =>
        exact @balances_of_count _ _ _ _ 0 (unit .stored c) ((UInt64.add_zero _).trans hstored)
          (by cases c <;> rfl)
    · rw [herr]
      exact balances_of_eq rfl hpages (by cases c <;> rfl)
  | giveBack slot => exact balances_of_eq rfl rfl (by cases c <;> rfl)
  | containsKey fp slot =>
    simp only [Thread.advanceWrite]
    split
    · exact c.balances_countUnique rfl rfl (by cases c <;> rfl)
    · exact balances_of_eq rfl rfl (by cases c <;> rfl)
  | makeRoom fp slot =>
    simp only [Thread.advanceWrite]
    split
    · split
      · exact c.balances_countUnique rfl rfl (by cases c <;> rfl)
      · exact balances_of_eq rfl rfl (by cases c <;> rfl)
    · exact balances_of_eq rfl rfl (by cases c <;> rfl)
  | mapInsert fp slot => exact balances_of_eq rfl rfl (by cases c <;> rfl)
  | index fp slot => exact c.balances_countUnique rfl rfl (by cases c <;> rfl)
  | replace entry =>
    refine balances_of_eq rfl rfl (Eq.trans ?_ (c.pending_afterUpdate (.write v page) _ _).symm)
    cases c <;> rfl

/-- Every section balances. -/
theorem balances_advance (c : Counter) (t : Thread) :
    c.Balances e t (t.advance fingerprintPage e io) := by
  cases t with
  | idle | answered => exact balances_of_eq rfl rfl (by cases c <;> rfl)
  | reading v =>
    have hvalue : ∀ e' : ProxyEngine, e'.store = e.store →
        e'.stats = { e.stats with totalReads := e.stats.totalReads + 1 } →
        c.value e' + UInt64.ofNat 0 = c.value e + UInt64.ofNat (unit .reads c) := by
      intro e' hstore hstats
      unfold value
      rw [hstore, hstats]
      cases c with
      | reads => exact UInt64.add_zero _
      | writes | served | stored | discards => rfl
    simp only [Thread.advance]
    split
    · exact balances_of_count (hvalue _ rfl rfl) (by cases c <;> rfl)
    · exact balances_of_count (hvalue _ rfl rfl) (by cases c <;> rfl)
  | readingSlot v slot =>
    exact balances_of_eq rfl (PageStore.pagesWritten_readPage ..) (by cases c <;> rfl)
  | discarding v =>
    have hupdated := c.pending_afterUpdate (.discard v) (e.translation.lookup v) (.discarding v)
    refine @balances_of_count _ _ _ _ 0 (unit .discards c) ?_ ?_
    · cases c with
      | discards => exact UInt64.add_zero _
      | writes | served | stored | reads => rfl
    · exact Eq.trans (by cases c <;> rfl) hupdated.symm
  | freeing u slot =>
    refine balances_of_eq rfl rfl ?_
    cases u <;> cases c <;> rfl
  | releasing u old =>
    have hdone : c.pending (.releasing u old) = c.pending .idle +
        (((Thread.releasing u old).givesAnswer .idle (some u)).toList.map c.answered).sum := by
      cases u <;> cases c <;> rfl
    simp only [Thread.advance]
    split
    · exact balances_of_eq rfl rfl hdone
    · split
      · exact balances_of_eq rfl rfl hdone
      · exact balances_of_eq rfl rfl (by cases c <;> rfl)
      · exact balances_of_eq rfl rfl (by cases c <;> rfl)
  | writing v page stage => exact c.balances_advanceWrite v page stage

end Counter

namespace LoggedQueues

variable {n : Nat} {fingerprintPage : Page → Fingerprint} {s : LoggedQueues n}

/-- A counter shows what it started from, the answers given and what is in progress. -/
def Accounted (first : UInt64) (c : Counter) (s : LoggedQueues n) : Prop :=
  c.value s.queues.engine = first + UInt64.ofNat
    ((s.log.map c.answered).sum + Threads.total c.pending s.queues.threads)

/-- A request begins uncounted. -/
theorem Accounted.begin {first : UInt64} {c : Counter} (h : s.Accounted first c) (i : Fin n)
    (request : Request) : (s.step fingerprintPage (.begin i request)).Accounted first c := by
  have hlog : (s.step fingerprintPage (.begin i request)).log = s.log := rfl
  unfold Accounted
  rw [hlog]
  simp only [step, Queues.step]
  split_ifs with hidle
  · have hpending : c.pending (.begin request) = c.pending (s.queues.threads i) := by
      cases ht : s.queues.threads i with
      | idle | answered => cases request <;> cases c <;> rfl
      | writing | discarding | reading | readingSlot | releasing | freeing =>
        rw [ht] at hidle
        cases hidle
    dsimp only
    rw [Threads.total_update_of_eq hpending]
    exact h
  · exact h

/-- A section that runs accounts for what it counts. -/
theorem Accounted.advance {first : UInt64} {c : Counter} (h : s.Accounted first c) (i : Fin n)
    (io : IoOutcome) : (s.step fingerprintPage (.advance i io)).Accounted first c := by
  have hbalance : c.Balances s.queues.engine (s.queues.threads i)
      ((s.queues.threads i).advance fingerprintPage s.queues.engine io) :=
    c.balances_advance (s.queues.threads i)
  unfold Accounted at h ⊢
  unfold Counter.Balances at hbalance
  rw [Threads.total_eq _ _ i] at h
  simp only [step, Queues.step, answer, Threads.total_update, List.map_append, List.sum_append]
  rw [UInt64.ofNat_add] at hbalance
  simp only [UInt64.ofNat_add] at h ⊢
  grind

def start (n : Nat) (store : PageStore) (maxEntries bloomCapacity : Nat) : LoggedQueues n :=
  ⟨.start n store maxEntries bloomCapacity, []⟩

theorem accounted_run (fingerprintPage : Page → Fingerprint) (store : PageStore)
    (maxEntries bloomCapacity : Nat) (labels : List (Step n)) (c : Counter) :
    (Run.run (step fingerprintPage) (start n store maxEntries bloomCapacity) labels).Accounted
      (c.value (.ofStore store maxEntries bloomCapacity)) c := by
  refine Run.run_invariant (fun s l h => ?_) ?_ labels
  · cases l with
    | begin i request => exact h.begin i request
    | advance i io => exact h.advance i io
    | setPassthrough on => cases c <;> exact h
  · have hpending : Threads.total c.pending (start n store maxEntries bloomCapacity).queues.threads = 0 :=
      Threads.total_eq_zero fun _ => rfl
    unfold Accounted
    rw [hpending]
    exact (UInt64.add_zero _).symm

/-- The answers that a counter counts. -/
theorem sum_answered (c : Counter) (log : List Answer) : (log.map c.answered).sum =
    match c with
    | .writes => log.count (.write true) + log.count (.write false)
    | .served => log.count (.write true)
    | .stored => 0
    | .reads => log.count .read
    | .discards => log.count .discard := by
  induction log with
  | nil => cases c <;> rfl
  | cons answer log ih =>
    rw [List.map_cons, List.sum_cons, ih]
    cases c <;> rcases answer with (_ | _) | _ | _ <;> simp [Counter.answered] <;> omega

/-- In every interleaving, with any failures and evictions, each counter shows the answers given so far
and the requests in progress. Once all queues are idle every write was counted, the successful ones as
unique or as duplicate, every page in the store as a unique write, and every read and discard. -/
theorem statistics_account (fingerprintPage : Page → Fingerprint) (store : PageStore)
    (maxEntries bloomCapacity : Nat) (labels : List (Step n)) :
    let s := Run.run (step fingerprintPage) (start n store maxEntries bloomCapacity) labels
    let e := s.queues.engine
    (∀ c : Counter, s.Accounted (c.value (.ofStore store maxEntries bloomCapacity)) c) ∧
    ((∀ i, (s.queues.threads i).offset = none) →
      e.stats.totalWrites =
        UInt64.ofNat (s.log.count (.write true) + s.log.count (.write false)) ∧
      e.stats.uniqueWrites + e.stats.duplicateWrites = UInt64.ofNat (s.log.count (.write true)) ∧
      e.store.pagesWritten = store.pagesWritten + e.stats.uniqueWrites ∧
      e.stats.totalReads = UInt64.ofNat (s.log.count .read) ∧
      e.stats.discards = UInt64.ofNat (s.log.count .discard)) := by
  intro s e
  have hs : ∀ c, s.Accounted (c.value (.ofStore store maxEntries bloomCapacity)) c :=
    accounted_run fingerprintPage store maxEntries bloomCapacity labels
  refine ⟨hs, fun hidle => ?_⟩
  have hpending : ∀ c : Counter, Threads.total c.pending s.queues.threads = 0 := by
    refine fun c => Threads.total_eq_zero fun i => ?_
    have hi := hidle i
    cases ht : s.queues.threads i with
    | idle | answered => rfl
    | writing | discarding | reading | readingSlot | releasing | freeing =>
      rw [ht] at hi
      cases hi
  have hcount : ∀ c : Counter, c.value e = c.value (.ofStore store maxEntries bloomCapacity) +
      UInt64.ofNat (s.log.map c.answered).sum := by
    intro c
    have h := hs c
    rwa [Accounted, hpending, Nat.add_zero] at h
  simp only [sum_answered] at hcount
  refine ⟨(hcount .writes).trans (UInt64.zero_add _), (hcount .served).trans (UInt64.zero_add _), ?_,
    (hcount .reads).trans (UInt64.zero_add _), (hcount .discards).trans (UInt64.zero_add _)⟩
  have hstored : e.store.pagesWritten - e.stats.uniqueWrites = store.pagesWritten - 0 + 0 := hcount .stored
  grind

end LoggedQueues

end Animaksm.Proxy

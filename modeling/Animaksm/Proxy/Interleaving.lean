import Mathlib.Data.Fintype.Basic
import Animaksm.Lib.Run
import Animaksm.Proxy.Session

/-!
# Requests of several queues

Every queue serves one request at a time, and all queues share the engine. A
request is a sequence of sections, each under one lock of the engine and so one
atomic step; between them the thread of the queue holds what it has read so far.
A step starts a request on an idle queue, runs the next section of a busy one,
or switches deduplication.
-/

namespace Animaksm.Proxy

namespace DedupTable

/-- The sections of `insert` after that: the Bloom filter, the counters, the access order. -/
def index (t : DedupTable) (fp : Fingerprint) : DedupTable :=
  { t with
    bloom := t.bloom.insert fp
    uniquePages := t.uniquePages + 1
    lru := t.lru ++ [(fp, t.tick)]
    tick := t.tick + 1 }

/-- The two sections of an insert, one after the other, track the page. -/
theorem index_mapInsert (t : DedupTable) (fp : Fingerprint) (pageData : List UInt8)
    (backendOffset : Nat) :
    (t.mapInsert fp pageData backendOffset).index fp = t.track fp pageData backendOffset := rfl

end DedupTable

/-- A request of the block layer to the engine. -/
inductive Request where
  | write (v : UInt64) (data : List UInt8)
  | read (v : UInt64)
  | discard (v : UInt64)

/-- The offset a request names. -/
def Request.offset : Request → UInt64
  | .write v _ | .read v | .discard v => v

/-- What a request does to a memory. -/
inductive Update where
  | write (v : UInt64) (page : Page)
  | discard (v : UInt64)

namespace Update

/-- The offset an update names. -/
def offset : Update → UInt64
  | .write v _ | .discard v => v

/-- The page an update leaves at its offset. -/
def outcome : Update → Option Page
  | .write _ page => some page
  | .discard _ => none

/-- Carry out an update. -/
def apply (u : Update) (m : Memory) : Memory := Function.update m u.offset u.outcome

@[simp] theorem apply_write (v : UInt64) (page : Page) (m : Memory) :
    (write v page).apply m = m.write v page := rfl

@[simp] theorem apply_discard (v : UInt64) (m : Memory) :
    (discard v).apply m = m.discard v := rfl

end Update

/-- The next section of a write. A page is to be shared under a fingerprint, or private. -/
inductive WriteStage where
  /-- Load the passthrough switch. -/
  | start
  /-- Look the fingerprint up. -/
  | lookup (fp : Fingerprint)
  /-- Read the slot of the duplicate back. -/
  | readBack (fp : Fingerprint) (slot : Nat)
  /-- Count a reference to the verified duplicate. -/
  | addReference (fp : Fingerprint) (slot : Nat)
  /-- Allocate a slot. -/
  | allocate (fp : Option Fingerprint)
  /-- Write the page into the slot. -/
  | store (fp : Option Fingerprint) (slot : Nat)
  /-- Free the slot of a write that failed. -/
  | giveBack (slot : Nat)
  /-- Ask whether the fingerprint is taken. -/
  | containsKey (fp : Fingerprint) (slot : Nat)
  /-- Check the capacity of the table, and evict. -/
  | makeRoom (fp : Fingerprint) (slot : Nat)
  /-- Enter the fingerprint. -/
  | mapInsert (fp : Fingerprint) (slot : Nat)
  /-- Enter the fingerprint into the Bloom filter and the access order. -/
  | index (fp : Fingerprint) (slot : Nat)
  /-- Map the offset. -/
  | replace (entry : TranslationEntry)

/-- What the thread of a queue does next. -/
inductive Thread where
  | idle
  /-- The next section of a write. -/
  | writing (v : UInt64) (page : Page) (stage : WriteStage)
  /-- Unmap the offset. -/
  | discarding (v : UInt64)
  /-- Copy the translation of the offset. -/
  | reading (v : UInt64)
  /-- Read the slot that was copied. -/
  | readingSlot (v : UInt64) (slot : Nat)
  /-- Release the entry that an update displaced. -/
  | releasing (u : Update) (old : TranslationEntry)
  /-- Free the slot that the released entry was the last to use. -/
  | freeing (u : Update) (slot : Nat)
  /-- A read returned. -/
  | answered (v : UInt64) (result : Except EngineError Page)

namespace Thread

/-- The offset of the request that is in progress. -/
def offset : Thread → Option UInt64
  | .idle | .answered _ _ => none
  | .writing v _ _ | .discarding v | .reading v | .readingSlot v _ => some v
  | .releasing u _ | .freeing u _ => some u.offset

/-- Take up a request. -/
def begin : Request → Thread
  | .write v data => .writing v (normalizePage data) .start
  | .read v => .reading v
  | .discard v => .discarding v

/-- The slot that is filled in the next section. -/
def target : Thread → Option Nat
  | .writing _ _ (.store _ slot) => some slot
  | _ => none

/-- The slot that a read has copied. -/
def copied : Thread → Option Nat
  | .readingSlot _ slot => some slot
  | _ => none

/-- The update that takes effect in the next section. -/
@[simp] def effect : Thread → Option Update
  | .writing v page (.replace _) => some (.write v page)
  | .discarding v => some (.discard v)
  | _ => none

/-- Release what an update displaced, or complete it. -/
@[simp] def afterUpdate (u : Update) : Option TranslationEntry → Thread × Option Update
  | some old => (.releasing u old, none)
  | none => (.idle, some u)

/-- The next section of a write. -/
def advanceWrite (fingerprintPage : Page → Fingerprint) (e : ProxyEngine) (io : IoOutcome)
    (v : UInt64) (page : Page) : WriteStage → ProxyEngine × Thread × Option Update
  | .start =>
    let next := if e.passthrough then .allocate none else .lookup (fingerprintPage page)
    (e.countWrite, .writing v page next, none)
  | .lookup fp =>
    let (found, table) := e.dedupTable.lookup fp page.bytes
    let next := match found with
      | .duplicate slot => .readBack fp slot
      | .miss => .allocate (some fp)
    ({ e with dedupTable := table }, .writing v page next, none)
  | .readBack fp slot =>
    let (stored, store) := e.store.readPage io slot
    let next := match stored with
      | .error _ => .idle
      | .ok stored =>
        .writing v page (if stored = page then .addReference fp slot else .allocate (some fp))
    ({ e with store := store }, next, none)
  | .addReference fp slot =>
    let (added, table) := e.dedupTable.addReference fp
    let e := { e with dedupTable := table }
    if added then
      (e.countDuplicate, .writing v page (.replace (.deduplicated fp slot)), none)
    else (e, .writing v page (.allocate (some fp)), none)
  | .allocate fp =>
    match e.allocateSlot with
    | (.error _, e) => (e, .idle, none)
    | (.ok slot, e) => (e, .writing v page (.store fp slot), none)
  | .store fp slot =>
    match e.writePageToSlot io slot page, fp with
    | (.error _, e), _ => (e, .writing v page (.giveBack slot), none)
    | (.ok (), e), none => (e.countUnique, .writing v page (.replace (.direct slot)), none)
    | (.ok (), e), some fp => (e, .writing v page (.containsKey fp slot), none)
  | .giveBack slot => (e.freeSlot slot, .idle, none)
  | .containsKey fp slot =>
    if (e.dedupTable.map.lookup fp).isSome then
      (e.countUnique, .writing v page (.replace (.direct slot)), none)
    else (e, .writing v page (.makeRoom fp slot), none)
  | .makeRoom fp slot =>
    if e.dedupTable.maxEntries ≤ e.dedupTable.len then
      match e.dedupTable.evictLruMetadata with
      | (false, table) =>
        ({ e with dedupTable := table }.countUnique,
          .writing v page (.replace (.direct slot)), none)
      | (true, table) =>
        ({ e with dedupTable := table }, .writing v page (.mapInsert fp slot), none)
    else (e, .writing v page (.mapInsert fp slot), none)
  | .mapInsert fp slot =>
    ({ e with dedupTable := e.dedupTable.mapInsert fp page.bytes slot },
      .writing v page (.index fp slot), none)
  | .index fp slot =>
    ({ e with dedupTable := e.dedupTable.index fp }.countUnique,
      .writing v page (.replace (.deduplicated fp slot)), none)
  | .replace entry =>
    let (old, e) := e.setTranslation v entry
    (e, afterUpdate (.write v page) old)

/-- What a thread has checked before still holds in the section that relies on it: a
fingerprint to be entered is not tracked; and a reference is counted on the entry of the slot
that was verified, which still holds the page, and not at the limit of its count. -/
def ChecksHold (e : ProxyEngine) : Thread → Prop
  | .writing _ _ (.mapInsert fp _) => e.dedupTable.map.lookup fp = none
  | .writing _ page (.addReference fp slot) =>
    ∀ entry, e.dedupTable.map.lookup fp = some entry →
      entry.backendOffset = slot ∧ e.store.pageAt slot = some page ∧
        entry.refCount.toNat + 1 < 2 ^ 32
  | _ => True

instance (e : ProxyEngine) (t : Thread) : Decidable (t.ChecksHold e) := by
  unfold ChecksHold
  split <;> infer_instance

/-- The next section of a thread: the engine and the thread after it, and the update whose
request it completes. -/
def advance (fingerprintPage : Page → Fingerprint) (e : ProxyEngine) (io : IoOutcome) :
    Thread → ProxyEngine × Thread × Option Update
  | .idle => (e, .idle, none)
  | .answered v result => (e, .answered v result, none)
  | .writing v page stage => advanceWrite fingerprintPage e io v page stage
  | .discarding v =>
    let (old, e) :=
      { e with stats := { e.stats with discards := e.stats.discards + 1 } }.removeTranslation v
    (e, afterUpdate (.discard v) old)
  | .reading v =>
    let e := { e with stats := { e.stats with totalReads := e.stats.totalReads + 1 } }
    match e.translation.lookup v with
    | none => (e, .answered v (.ok zeroPage), none)
    | some entry => (e, .readingSlot v entry.backendSlot, none)
  | .readingSlot v slot =>
    let (result, store) := e.store.readPage io slot
    ({ e with store := store }, .answered v result, none)
  | .releasing u old =>
    match old.kind with
    | .direct => (e.freeSlot old.backendSlot, .idle, some u)
    | .deduplicated fp =>
      match e.dedupTable.removeReference fp with
      | (.stillReferenced, table) => ({ e with dedupTable := table }, .idle, some u)
      | (.removed slot, table) => ({ e with dedupTable := table }, .freeing u slot, none)
      | (.notTracked, table) => ({ e with dedupTable := table }, .freeing u old.backendSlot, none)
  | .freeing u slot => (e.freeSlot slot, .idle, some u)

end Thread

/-- One step of the system of queues. -/
inductive Step (n : Nat) where
  /-- A queue takes up a request, if it has none in progress. -/
  | begin (queue : Fin n) (request : Request)
  /-- A queue runs its next section; a file access in it has this outcome. -/
  | advance (queue : Fin n) (io : IoOutcome)
  | setPassthrough (on : Bool)

/-- The shared engine and the thread of every queue, next to two memories: what the updates
that took effect make of the offsets, and what the completed ones make of them. -/
structure Queues (n : Nat) where
  engine : ProxyEngine
  threads : Fin n → Thread
  memory : Memory
  completed : Memory

namespace Queues

variable {n : Nat}

/-- A fresh engine and idle queues. -/
def start (n : Nat) (store : PageStore) (maxEntries bloomCapacity : Nat) : Queues n where
  engine := .ofStore store maxEntries bloomCapacity
  threads := fun _ => .idle
  memory := .empty
  completed := .empty

/-- One step. -/
def step (fingerprintPage : Page → Fingerprint) (s : Queues n) : Step n → Queues n
  | .begin i request =>
    if (s.threads i).offset = none then
      { s with threads := Function.update s.threads i (.begin request) }
    else s
  | .advance i io =>
    let (e, thread, done) := (s.threads i).advance fingerprintPage s.engine io
    { engine := e
      threads := Function.update s.threads i thread
      memory := (s.threads i).effect.elim s.memory fun u => u.apply s.memory
      completed := done.elim s.completed fun u => u.apply s.completed }
  | .setPassthrough on => { s with engine := s.engine.setPassthrough on }

/-- No metadata is evicted in the step. -/
def EvictsNothing (fingerprintPage : Page → Fingerprint) (s : Queues n) (l : Step n) : Prop :=
  (s.step fingerprintPage l).engine.dedupTable.evictions = s.engine.dedupTable.evictions

/-- Whatever the next section of a thread relies on still holds. -/
def ChecksHold (s : Queues n) : Step n → Prop
  | .advance i _ => (s.threads i).ChecksHold s.engine
  | .begin _ _ | .setPassthrough _ => True

/-- No request in progress names the offset of a request that starts. -/
def Separate (s : Queues n) : Step n → Prop
  | .begin i request =>
    (s.threads i).offset = none → ∀ j, (s.threads j).offset ≠ some request.offset
  | .advance _ _ | .setPassthrough _ => True

/-- No page is written to a slot that a read in progress has copied from its translation. -/
def SparesReads (s : Queues n) : Step n → Prop
  | .advance i _ => ∀ slot, (s.threads i).target = some slot →
      ∀ j, (s.threads j).copied ≠ some slot
  | .begin _ _ | .setPassthrough _ => True

instance (fingerprintPage : Page → Fingerprint) (s : Queues n) (l : Step n) :
    Decidable (s.EvictsNothing fingerprintPage l) :=
  inferInstanceAs (Decidable (_ = _))

instance (s : Queues n) : ∀ l : Step n, Decidable (s.ChecksHold l)
  | .advance i _ => inferInstanceAs (Decidable ((s.threads i).ChecksHold s.engine))
  | .begin _ _ | .setPassthrough _ => isTrue trivial

instance (s : Queues n) : ∀ l : Step n, Decidable (s.Separate l)
  | .begin i request => inferInstanceAs (Decidable
      ((s.threads i).offset = none → ∀ j, (s.threads j).offset ≠ some request.offset))
  | .advance _ _ | .setPassthrough _ => isTrue trivial

instance (s : Queues n) : ∀ l : Step n, Decidable (s.SparesReads l)
  | .advance i _ => inferInstanceAs (Decidable
      (∀ slot, (s.threads i).target = some slot → ∀ j, (s.threads j).copied ≠ some slot))
  | .begin _ _ | .setPassthrough _ => isTrue trivial

end Queues

end Animaksm.Proxy

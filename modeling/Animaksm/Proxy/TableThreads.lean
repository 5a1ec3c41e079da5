import Mathlib.Data.Fintype.Basic
import Animaksm.Proxy.LruRecords
import Animaksm.Proxy.TableCalls

/-!
# Threads that call the deduplication table

Each thread serves one call at a time. A call is a sequence of sections, one for
each operation of the concurrent map, each critical section of the recency records
and each atomic counter; a step runs the next section of one thread. The answer of
a call is decided by an operation of the map, and what it still owes to the records
after that operation is run later.
-/

namespace Animaksm.Proxy

/-- The page that a call inserts. -/
structure NewPage where
  fp : Fingerprint
  pageData : List UInt8
  backendOffset : Nat
  deriving DecidableEq

/-- The next section of a call. -/
inductive TableStage where
  | idle
  /-- Ask the Bloom filter. -/
  | mightContain (fp : Fingerprint) (pageData : List UInt8)
  /-- Consult the map. -/
  | get (fp : Fingerprint) (pageData : List UInt8)
  /-- Ask whether the fingerprint is taken. -/
  | containsKey (page : NewPage)
  /-- Compare the number of entries with the capacity. -/
  | checkCapacity (page : NewPage)
  /-- Sort the records, and copy their fingerprints. -/
  | listCandidates (page : NewPage)
  /-- Untrack the next candidate if it has a single reference. -/
  | evictNext (candidates : List Fingerprint) (page : NewPage)
  /-- Drop the records of the evicted fingerprint. -/
  | forgetEvicted (old : Fingerprint) (page : NewPage)
  /-- Enter the fingerprint. -/
  | mapInsert (page : NewPage)
  /-- Enter the fingerprint into the Bloom filter, count it and take a tick. -/
  | takeTick (fp : Fingerprint)
  /-- Append a record. -/
  | push (fp : Fingerprint) (tick : UInt64)
  /-- Count a reference. -/
  | increment (fp : Fingerprint)
  /-- Take a tick for the counted reference. -/
  | takeRefreshTick (fp : Fingerprint)
  /-- Refresh the record. -/
  | refresh (fp : Fingerprint) (tick : UInt64)
  /-- Drop a reference, and the entry with the last one. -/
  | decrement (fp : Fingerprint)
  /-- Drop the records of the removed fingerprint. -/
  | forget (fp : Fingerprint)
  deriving DecidableEq

/-- The answer of a call. -/
inductive TableAnswer where
  | lookup (fp : Fingerprint) (result : LookupResult)
  | insert (fp : Fingerprint) (accepted : Bool)
  | addReference (fp : Fingerprint) (found : Bool)
  | removeReference (fp : Fingerprint) (removal : ReferenceRemoval)
  deriving DecidableEq

/-- What a section leaves: the table, what the thread does next, and the answer if this section
decides it. -/
structure TableSection where
  table : DedupTable
  stage : TableStage
  answer : Option TableAnswer

namespace TableStage

/-- Take up a call. -/
def begin : TableCall → TableStage
  | .lookup fp pageData => .mightContain fp pageData
  | .insert fp pageData backendOffset => .containsKey ⟨fp, pageData, backendOffset⟩
  | .addReference fp => .increment fp
  | .removeReference fp => .decrement fp

/-- Run the next section. -/
def next (t : DedupTable) : TableStage → TableSection
  | .idle => ⟨t, .idle, none⟩
  | .mightContain fp pageData =>
    if t.bloom.mightContain fp then ⟨t, .get fp pageData, none⟩
    else ⟨t, .idle, some (.lookup fp .miss)⟩
  | .get fp pageData =>
    match t.map.lookup fp with
    | some entry =>
      if verifyPagePrefix entry.prefixBytes pageData then
        ⟨{ t with duplicateHits := t.duplicateHits + 1 }, .idle,
          some (.lookup fp (.duplicate entry.backendOffset))⟩
      else ⟨{ t with bloomFalsePositives := t.bloomFalsePositives + 1 }, .idle, some (.lookup fp .miss)⟩
    | none => ⟨{ t with bloomFalsePositives := t.bloomFalsePositives + 1 }, .idle, some (.lookup fp .miss)⟩
  | .containsKey page =>
    if (t.map.lookup page.fp).isSome then ⟨t, .idle, some (.insert page.fp false)⟩
    else ⟨t, .checkCapacity page, none⟩
  | .checkCapacity page =>
    if t.maxEntries ≤ t.len then ⟨t, .listCandidates page, none⟩ else ⟨t, .mapInsert page, none⟩
  | .listCandidates page =>
    if t.lru.isEmpty then ⟨t, .idle, some (.insert page.fp false)⟩
    else
      let sorted := t.lru.insertionSort fun a b => a.2 ≤ b.2
      ⟨{ t with lru := sorted }, .evictNext (sorted.map Prod.fst) page, none⟩
  | .evictNext [] page => ⟨t, .idle, some (.insert page.fp false)⟩
  | .evictNext (fp :: rest) page =>
    match t.map.lookup fp with
    | some entry =>
      if entry.refCount ≤ 1 then
        ⟨{ t with map := t.map.erase fp, evictions := t.evictions + 1 }, .forgetEvicted fp page, none⟩
      else ⟨t, .evictNext rest page, none⟩
    | none => ⟨t, .evictNext rest page, none⟩
  | .forgetEvicted old page =>
    ⟨{ t with lru := t.lru.filter fun item => item.1 ≠ old }, .mapInsert page, none⟩
  | .mapInsert page =>
    ⟨t.mapInsert page.fp page.pageData page.backendOffset, .takeTick page.fp, some (.insert page.fp true)⟩
  | .takeTick fp =>
    ⟨{ t with
      bloom := t.bloom.insert fp
      uniquePages := t.uniquePages + 1
      tick := t.tick + 1 }, .push fp t.tick, none⟩
  | .push fp tick => ⟨{ t with lru := t.lru ++ [(fp, tick)] }, .idle, none⟩
  | .increment fp =>
    match t.map.lookup fp with
    | some entry =>
      ⟨{ t with map := t.map.insert fp { entry with refCount := entry.refCount + 1 } },
        .takeRefreshTick fp, some (.addReference fp true)⟩
    | none => ⟨t, .idle, some (.addReference fp false)⟩
  | .takeRefreshTick fp => ⟨{ t with tick := t.tick + 1 }, .refresh fp t.tick, none⟩
  | .refresh fp tick => ⟨{ t with lru := touch fp tick t.lru }, .idle, none⟩
  | .decrement fp =>
    match t.map.lookup fp with
    | some entry =>
      if entry.refCount ≤ 1 then
        ⟨{ t with map := t.map.erase fp }, .forget fp,
          some (.removeReference fp (.removed entry.backendOffset))⟩
      else
        ⟨{ t with map := t.map.insert fp { entry with refCount := entry.refCount - 1 } }, .idle,
          some (.removeReference fp .stillReferenced)⟩
    | none => ⟨t, .idle, some (.removeReference fp .notTracked)⟩
  | .forget fp => ⟨{ t with lru := t.lru.filter fun item => item.1 ≠ fp }, .idle, none⟩

/-- The change of the records that is still due: a fingerprint entered, or else dropped. -/
def owes : TableStage → Option (Fingerprint × Bool)
  | .takeTick fp | .push fp _ => some (fp, true)
  | .forgetEvicted fp _ | .forget fp => some (fp, false)
  | _ => none

end TableStage

/-- The table with its threads, the changes of the records that are due, in the order of the map
operations before them, and the answers decided so far. -/
structure TableThreads (ι : Type) where
  table : DedupTable
  stage : ι → TableStage
  due : List (ι × Fingerprint × Bool)
  decided : List TableAnswer

/-- A thread takes up a call, or runs its next section. -/
inductive TableStep (ι : Type) where
  | begin (i : ι) (call : TableCall)
  | advance (i : ι)

namespace TableThreads

variable {ι : Type} [DecidableEq ι]

omit [DecidableEq ι] in
/-- Threads that have not called a table yet. -/
def start (ι : Type) (table : DedupTable) : TableThreads ι := ⟨table, fun _ => .idle, [], []⟩

/-- The changes due after a step of a thread. -/
def dueAfter (i : ι) (due : List (ι × Fingerprint × Bool)) (stage stage' : TableStage) :
    List (ι × Fingerprint × Bool) :=
  match stage.owes, stage'.owes with
  | none, some change => due ++ [(i, change)]
  | some change, none => due.erase (i, change)
  | _, _ => due

/-- One step; a busy thread takes up no call. -/
def step (s : TableThreads ι) : TableStep ι → TableThreads ι
  | .begin i call =>
    if s.stage i = .idle then { s with stage := Function.update s.stage i (.begin call) } else s
  | .advance i =>
    let ran := (s.stage i).next s.table
    { table := ran.table
      stage := Function.update s.stage i ran.stage
      due := dueAfter i s.due (s.stage i) ran.stage
      decided := s.decided ++ ran.answer.toList }

omit [DecidableEq ι] in
/-- No call is in progress. -/
def Quiet (s : TableThreads ι) : Prop := ∀ i, s.stage i = .idle

omit [DecidableEq ι] in
instance [Fintype ι] (s : TableThreads ι) : Decidable s.Quiet := inferInstanceAs (Decidable (∀ _, _))

end TableThreads

end Animaksm.Proxy

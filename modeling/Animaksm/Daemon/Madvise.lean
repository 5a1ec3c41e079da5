import Animaksm.Common.Procfs
import Animaksm.Daemon.Ptrace
import Animaksm.Lib.FiniteMap

/-!
# Marking and collapsing memory of processes

The batch of regions of one process under its byte cap, the injection of
`MADV_MERGEABLE` into each of them, and the opportunistic collapse of large
regions. A dry run marks its batch without any request.
-/

namespace Animaksm.Daemon

open Animaksm.Common

/-- What the daemon asks of the machine it runs on, with errno for a failed system call. -/
structure Host (E W : Type) extends Ptrace E W where
  /-- The address of a `syscall` instruction in the target's vDSO. -/
  findSyscallInVdso : UInt32 → W → Except String UInt64
  pidfdOpen : UInt32 → W → Except Int Int32 × W
  processMadvise : Int32 → UInt64 → UInt64 → UInt64 → W → Except Int Unit × W
  close : Int32 → W → W

/-- Result of a madvise operation on a process. -/
structure MadviseResult where
  pid : UInt32
  regionsAttempted : Nat
  regionsMerged : Nat
  totalBytesMarked : UInt64
  /-- (address, error description) -/
  errors : List (UInt64 × String)

/-- MADV_COLLAPSE constant (Linux 6.1+, collapses memory into THP). -/
def madvCollapse : UInt64 := 25

/-- The size of a transparent huge page. -/
def thpSize : UInt64 := 2 * 1024 * 1024

/-- The rest of the batch when some bytes are accumulated. -/
def buildBatchFrom (maxBytes : UInt64) : UInt64 → List MapsEntry → List (UInt64 × UInt64)
  | _, [] => []
  | bytesAccumulated, region :: regions =>
    if bytesAccumulated ≥ maxBytes then []
    else
      let len := min region.size (maxBytes - bytesAccumulated)
      if len = 0 then []
      else (region.start, len) :: buildBatchFrom maxBytes (bytesAccumulated + len) regions

/-- Build the batch of (addr, len) pairs from eligible regions, capping at `maxBytes` total. -/
def buildBatch (eligible : List MapsEntry) (maxBytes : UInt64) : List (UInt64 × UInt64) :=
  buildBatchFrom maxBytes 0 eligible

namespace Host

variable {E W : Type}

/-- Inject into each region of a batch, and note each outcome in the result. -/
def injectBatch (H : Host E W) (pid : UInt32) (syscallAddr : UInt64) :
    List (UInt64 × UInt64) → MadviseResult → W → MadviseResult × W
  | [], result, world => (result, world)
  | (addr, len) :: batch, result, world =>
    match H.madviseViaPtrace pid addr len syscallAddr world with
    | (.ok (), world) =>
      H.injectBatch pid syscallAddr batch
        { result with
          regionsMerged := result.regionsMerged + 1
          totalBytesMarked := result.totalBytesMarked + len } world
    | (.error e, world) =>
      H.injectBatch pid syscallAddr batch
        { result with errors := result.errors ++ [(addr, "ptrace madvise failed: " ++ e)] } world

/-- Apply MADV_MERGEABLE to anonymous RW regions of a target process. -/
def applyMergeable (H : Host E W) (pid : UInt32) (regions : List MapsEntry) (maxBytes : UInt64)
    (dryRun : Bool) (world : W) : MadviseResult × W :=
  let batch := buildBatch (regions.filter MapsEntry.eligible) maxBytes
  let result : MadviseResult := ⟨pid, batch.length, 0, 0, []⟩
  -- Without eligible regions the batch is empty too.
  if batch.isEmpty then (result, world)
  else if dryRun then
    ({ result with
      regionsMerged := batch.length
      totalBytesMarked := (batch.map Prod.snd).sum }, world)
  else
    match H.findSyscallInVdso pid world with
    | .error e =>
      ({ result with
        errors := batch.map fun region => (region.1, "cannot find syscall instruction: " ++ e) }, world)
    | .ok syscallAddr => H.injectBatch pid syscallAddr batch result world

/-- The results of marking each target, in order. -/
def applyTargets (H : Host E W) (maxBytes : UInt64) (dryRun : Bool) :
    List (UInt32 × List MapsEntry) → W → List MadviseResult × W
  | [], world => ([], world)
  | (pid, regions) :: targets, world =>
    let (result, world) := H.applyMergeable pid regions maxBytes dryRun world
    let (results, world) := H.applyTargets maxBytes dryRun targets world
    (result :: results, world)

/-- The results by process; the last one of a process stays. -/
def resultsByPid (results : List MadviseResult) : Finmap fun _ : UInt32 => MadviseResult :=
  results.foldl (fun byPid result => byPid.insert result.pid result) ∅

/-- Apply MADV_MERGEABLE to multiple processes at once. -/
def batchApplyMergeable (H : Host E W) (targets : List (UInt32 × List MapsEntry)) (maxBytes : UInt64)
    (dryRun : Bool) (world : W) : (Finmap fun _ : UInt32 => MadviseResult) × W :=
  let (results, world) := H.applyTargets maxBytes dryRun targets world
  (resultsByPid results, world)

/-- A failed system call, as a text. -/
def errnoText (errno : Int) : String :=
  "errno=" ++ toString errno ++ " (" ++ errnoToStr errno ++ ")"

/-- One `process_madvise` call; it does not take `MADV_MERGEABLE`. -/
def processMadviseSingle (H : Host E W) (pidfd : Int32) (addr len advice : UInt64) (world : W) :
    Except String Unit × W :=
  if advice = madvMergeable then
    (.error "MADV_MERGEABLE not supported by process_madvise; use ptrace", world)
  else
    match H.processMadvise pidfd addr len advice world with
    | (.error errno, world) => (.error (errnoText errno), world)
    | (.ok (), world) => (.ok (), world)

/-- Collapse the aligned part of each region, until the kernel does not know the advice. -/
def collapseEach (H : Host E W) (pidfd : Int32) : List MapsEntry → Nat → W → Nat × W
  | [], collapsed, world => (collapsed, world)
  | region :: regions, collapsed, world =>
    -- Align to 2MB boundary for THP.
    let start := (region.start + thpSize - 1) &&& ~~~(thpSize - 1)
    let stop := region.stop &&& ~~~(thpSize - 1)
    if start ≥ stop then H.collapseEach pidfd regions collapsed world
    else
      match H.processMadviseSingle pidfd start (stop - start) madvCollapse world with
      | (.ok (), world) => H.collapseEach pidfd regions (collapsed + 1) world
      | (.error e, world) =>
        if textContains e "ENOSYS" then (collapsed, world)
        else H.collapseEach pidfd regions collapsed world

/-- Opportunistically collapse memory regions into transparent huge pages. -/
def collapseRegions (H : Host E W) (pid : UInt32) (regions : List MapsEntry) (world : W) : Nat × W :=
  let largeRegions := regions.filter fun region => region.eligible && decide (region.size ≥ thpSize)
  if largeRegions.isEmpty then (0, world)
  else
    match H.pidfdOpen pid world with
    | (.error _, world) => (0, world)
    | (.ok pidfd, world) =>
      let (collapsed, world) := H.collapseEach pidfd largeRegions 0 world
      (collapsed, H.close pidfd world)

end Host

end Animaksm.Daemon

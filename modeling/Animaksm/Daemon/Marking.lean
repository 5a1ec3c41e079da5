import Animaksm.Daemon.Batch
import Animaksm.Daemon.Independence
import Animaksm.Lib.Log
import Mathlib.Algebra.Order.BigOperators.Group.List
import Mathlib.Algebra.Order.Group.Nat

/-!
# Accounting for marked memory

The injections of one process are listed with their outcomes. Each of them lies in
an entry that may be marked, no entry has two, and the result counts the successful
ones, their bytes and the failed ones. A dry run reports what the injections would
report if none of them failed.
-/

namespace Animaksm.Daemon

open Animaksm.Common

/-- A call of `madviseViaPtrace`, with its outcome. -/
structure MarkCall where
  addr : UInt64
  len : UInt64
  outcome : Except String Unit

namespace MarkCall

/-- The injection succeeded. -/
def succeeded (call : MarkCall) : Bool :=
  match call.outcome with
  | .ok _ => true
  | .error _ => false

/-- The range starts with an entry that may be marked, is not empty and ends inside the entry. -/
structure Inside (call : MarkCall) (entry : MapsEntry) : Prop where
  isAnonRw : entry.isAnonRw = true
  hasExec : entry.hasExec = false
  isSpecial : entry.isSpecial = false
  start : call.addr = entry.start
  pos : 0 < call.len.toNat
  stop : call.addr.toNat + call.len.toNat ≤ entry.stop.toNat

end MarkCall

namespace Host

variable {E W : Type} (H : Host E W)

/-- The injections of a batch, each with the outcome it has in its turn, and the world they leave. -/
def batchCalls (pid : UInt32) (syscallAddr : UInt64) :
    List (UInt64 × UInt64) → W → List MarkCall × W
  | [], world => ([], world)
  | (addr, len) :: batch, world =>
    let (outcome, world) := H.madviseViaPtrace pid addr len syscallAddr world
    let (calls, world) := batchCalls pid syscallAddr batch world
    (⟨addr, len, outcome⟩ :: calls, world)

/-- The injections into a process. -/
def mergeableCalls (pid : UInt32) (regions : List MapsEntry) (maxBytes : UInt64) (dryRun : Bool)
    (world : W) : List MarkCall :=
  let batch := buildBatch (regions.filter MapsEntry.eligible) maxBytes
  if dryRun then []
  else
    match H.findSyscallInVdso pid world with
    | .error _ => []
    | .ok syscallAddr => (H.batchCalls pid syscallAddr batch world).1

/-- These injections and nothing else lead from one world to the other, each with its outcome; without
a `syscall` instruction there are none. -/
def MarkedBy (pid : UInt32) (calls : List MarkCall) (world world' : W) : Prop :=
  match H.findSyscallInVdso pid world with
  | .error _ => calls = [] ∧ world' = world
  | .ok syscallAddr => Log.Leads (fun call before after =>
      H.madviseViaPtrace pid call.addr call.len syscallAddr before = (call.outcome, after))
    calls world world'

end Host

/-- Note the outcome of a call. -/
def MadviseResult.note (result : MadviseResult) (call : MarkCall) : MadviseResult :=
  match call.outcome with
  | .ok () =>
    { result with
      regionsMerged := result.regionsMerged + 1
      totalBytesMarked := result.totalBytesMarked + call.len }
  | .error e =>
    { result with errors := result.errors ++ [(call.addr, "ptrace madvise failed: " ++ e)] }

/-- The sum of some lengths, without a wrap. -/
def totalLen (lens : List UInt64) : Nat := (lens.map UInt64.toNat).sum

/-! ## What the calls add up to -/

section Notes

variable (calls : List MarkCall) (result : MadviseResult)

theorem foldl_note_regionsAttempted :
    (calls.foldl .note result).regionsAttempted = result.regionsAttempted := by
  induction calls generalizing result with
  | nil => rfl
  | cons call calls ih =>
    rw [List.foldl_cons, ih, MadviseResult.note]
    split <;> rfl

/-- Every call is noted as a success or as a failure. -/
theorem foldl_note_count : (calls.foldl .note result).regionsMerged +
    (calls.foldl .note result).errors.length =
      result.regionsMerged + result.errors.length + calls.length := by
  induction calls generalizing result with
  | nil => rfl
  | cons call calls ih =>
    rw [List.foldl_cons, ih, MadviseResult.note, List.length_cons]
    split
    · dsimp only
      omega
    · dsimp only
      rw [List.length_append, List.length_singleton]
      omega

/-- The bytes of the successful calls are marked. -/
theorem foldl_note_totalBytesMarked : (calls.foldl .note result).totalBytesMarked =
    result.totalBytesMarked + ((calls.filter MarkCall.succeeded).map MarkCall.len).sum := by
  induction calls generalizing result with
  | nil => exact (UInt64.add_zero _).symm
  | cons call calls ih =>
    rw [List.foldl_cons, ih, MadviseResult.note]
    obtain ⟨addr, len, _ | _⟩ := call
    · rfl
    · exact UInt64.add_assoc ..

/-- Calls that all succeed leave no error. -/
theorem foldl_note_succeeded (h : ∀ call ∈ calls, call.succeeded) :
    calls.foldl .note result = { result with
      regionsMerged := result.regionsMerged + calls.length
      totalBytesMarked := result.totalBytesMarked + (calls.map MarkCall.len).sum } := by
  induction calls generalizing result with
  | nil =>
    rw [List.map_nil, List.sum_nil, UInt64.add_zero]
    rfl
  | cons call calls ih =>
    obtain ⟨hcall, hcalls⟩ := List.forall_mem_cons.mp h
    obtain ⟨addr, len, _ | _⟩ := call
    · exact absurd hcall Bool.false_ne_true
    · rw [List.foldl_cons, ih _ hcalls, MadviseResult.note, List.length_cons, List.map_cons,
        List.sum_cons, ← UInt64.add_assoc, Nat.add_comm calls.length, ← Nat.add_assoc]

end Notes

/-- A sum that stays in 64 bits does not wrap. -/
theorem toNat_sum {lens : List UInt64} (h : totalLen lens < 2 ^ 64) :
    lens.sum.toNat = totalLen lens := by
  induction lens with
  | nil => rfl
  | cons len lens ih =>
    rw [totalLen, List.map_cons, List.sum_cons] at h ⊢
    have hrest : lens.sum.toNat = (lens.map UInt64.toNat).sum :=
      ih (lt_of_le_of_lt (Nat.le_add_left _ _) h)
    rw [List.sum_cons, UInt64.toNat_add, hrest, Nat.mod_eq_of_lt h]

/-- Elements that each have a counterpart at their place are related to a first part of the others. -/
theorem forall₂_take_of_getElem? {α β : Type} {R : α → β → Prop} {as : List α} {bs : List β}
    (h : ∀ (k : Nat) a, as[k]? = some a → ∃ b, bs[k]? = some b ∧ R a b) :
    List.Forall₂ R as (bs.take as.length) := by
  induction as generalizing bs with
  | nil => exact .nil
  | cons a as ih =>
    obtain ⟨b, hb, hab⟩ := h 0 a rfl
    cases bs with
    | nil => cases hb
    | cons b' bs =>
      cases hb
      exact .cons hab (ih fun k => h (k + 1))

namespace Host

variable {E W : Type} (H : Host E W)

/-- The result of a batch notes its calls one by one. -/
theorem injectBatch_eq (pid : UInt32) (syscallAddr : UInt64) (batch : List (UInt64 × UInt64))
    (result : MadviseResult) (world : W) :
    H.injectBatch pid syscallAddr batch result world =
      ((H.batchCalls pid syscallAddr batch world).1.foldl .note result,
        (H.batchCalls pid syscallAddr batch world).2) := by
  induction batch generalizing result world with
  | nil => rfl
  | cons range batch ih =>
    rw [injectBatch, batchCalls]
    rcases H.madviseViaPtrace pid range.1 range.2 syscallAddr world with ⟨e | ⟨⟩, world'⟩
    · exact ih _ _
    · exact ih _ _

/-- The calls of a batch are made on its ranges, in order. -/
theorem batchCalls_ranges (pid : UInt32) (syscallAddr : UInt64) (batch : List (UInt64 × UInt64))
    (world : W) :
    (H.batchCalls pid syscallAddr batch world).1.map (fun call => (call.addr, call.len)) = batch := by
  induction batch generalizing world with
  | nil => rfl
  | cons range batch ih => rw [batchCalls, List.map_cons, ih]

/-- The calls of a batch lead to the world it leaves. -/
theorem batchCalls_leads (pid : UInt32) (syscallAddr : UInt64) (batch : List (UInt64 × UInt64))
    (world : W) :
    Log.Leads (fun (call : MarkCall) before after =>
        H.madviseViaPtrace pid call.addr call.len syscallAddr before = (call.outcome, after))
      (H.batchCalls pid syscallAddr batch world).1 world (H.batchCalls pid syscallAddr batch world).2 := by
  induction batch generalizing world with
  | nil => rfl
  | cons range batch ih => exact ⟨_, rfl, ih _⟩

variable (pid : UInt32) (regions : List MapsEntry) (maxBytes : UInt64) (dryRun : Bool) (world : W)

/-- Marking leaves the world after its injections. -/
theorem applyMergeable_markedBy :
    H.MarkedBy pid (H.mergeableCalls pid regions maxBytes dryRun world) world
      (H.applyMergeable pid regions maxBytes dryRun world).2 := by
  unfold MarkedBy applyMergeable mergeableCalls
  cases dryRun with
  | true =>
    simp only [if_true]
    cases H.findSyscallInVdso pid world with
    | error e =>
      refine ⟨trivial, ?_⟩
      split <;> rfl
    | ok syscallAddr =>
      change Prod.snd _ = world
      split <;> rfl
  | false =>
    simp only [Bool.false_eq_true, if_false]
    cases H.findSyscallInVdso pid world with
    | error e => exact ⟨rfl, by split <;> rfl⟩
    | ok syscallAddr =>
      dsimp only
      split
      next hempty =>
        rw [List.isEmpty_iff.mp hempty]
        rfl
      next =>
        rw [injectBatch_eq]
        exact H.batchCalls_leads ..

/-- Every range of the batch is attempted. -/
theorem applyMergeable_regionsAttempted :
    (H.applyMergeable pid regions maxBytes dryRun world).1.regionsAttempted =
      (buildBatch (regions.filter MapsEntry.eligible) maxBytes).length := by
  unfold applyMergeable
  dsimp only
  split
  · rfl
  · split
    · rfl
    · split
      · rfl
      · rw [injectBatch_eq, foldl_note_regionsAttempted]

/-- Without a dry run and with a `syscall` instruction, the result notes the calls. -/
theorem applyMergeable_eq_note {syscallAddr : UInt64}
    (hsyscall : H.findSyscallInVdso pid world = .ok syscallAddr) :
    (H.applyMergeable pid regions maxBytes false world).1 =
      (H.mergeableCalls pid regions maxBytes false world).foldl .note
        ⟨pid, (buildBatch (regions.filter MapsEntry.eligible) maxBytes).length, 0, 0, []⟩ := by
  unfold applyMergeable mergeableCalls
  rw [hsyscall]
  dsimp only
  split
  next hempty =>
    rw [List.isEmpty_iff.mp hempty]
    rfl
  next =>
    rw [if_neg Bool.false_ne_true, if_neg Bool.false_ne_true, injectBatch_eq]

/-- Without a `syscall` instruction, every range has an error. -/
theorem applyMergeable_noSyscall {e : String} (hsyscall : H.findSyscallInVdso pid world = .error e) :
    (H.applyMergeable pid regions maxBytes false world).1 =
      ⟨pid, (buildBatch (regions.filter MapsEntry.eligible) maxBytes).length, 0, 0,
        (buildBatch (regions.filter MapsEntry.eligible) maxBytes).map fun range =>
          (range.1, "cannot find syscall instruction: " ++ e)⟩ := by
  unfold applyMergeable
  rw [hsyscall]
  dsimp only
  split
  next hempty =>
    rw [List.isEmpty_iff.mp hempty]
    rfl
  next => rw [if_neg Bool.false_ne_true]

/-- A dry run reports all bytes of the batch. -/
theorem applyMergeable_dryRun_result :
    (H.applyMergeable pid regions maxBytes true world).1 =
      ⟨pid, (buildBatch (regions.filter MapsEntry.eligible) maxBytes).length,
        (buildBatch (regions.filter MapsEntry.eligible) maxBytes).length,
        ((buildBatch (regions.filter MapsEntry.eligible) maxBytes).map Prod.snd).sum, []⟩ := by
  unfold applyMergeable
  dsimp only
  split
  next hempty =>
    rw [List.isEmpty_iff.mp hempty]
    rfl
  next => rw [if_pos rfl]

/-- With a `syscall` instruction, the calls go through the batch. -/
theorem mergeableCalls_batch {syscallAddr : UInt64}
    (hsyscall : H.findSyscallInVdso pid world = .ok syscallAddr) :
    (H.mergeableCalls pid regions maxBytes false world).map (fun call => (call.addr, call.len)) =
      buildBatch (regions.filter MapsEntry.eligible) maxBytes := by
  unfold mergeableCalls
  rw [if_neg Bool.false_ne_true, hsyscall]
  exact H.batchCalls_ranges ..

/-- The calls go through the batch, unless there is nothing to call. -/
theorem mergeableCalls_ranges :
    (H.mergeableCalls pid regions maxBytes dryRun world).map (fun call => (call.addr, call.len)) = [] ∨
    (H.mergeableCalls pid regions maxBytes dryRun world).map (fun call => (call.addr, call.len)) =
      buildBatch (regions.filter MapsEntry.eligible) maxBytes := by
  unfold mergeableCalls
  split
  · exact .inl rfl
  · split
    · exact .inl rfl
    · exact .inr (H.batchCalls_ranges ..)

variable {regions}

/-- The calls lie in entries that may be marked, in the order of the list. -/
theorem mergeableCalls_inside (hregions : ∀ region ∈ regions, region.start ≤ region.stop) :
    List.SublistForall₂ MarkCall.Inside (H.mergeableCalls pid regions maxBytes dryRun world)
      regions := by
  have hbounds : ∀ region ∈ regions.filter MapsEntry.eligible, region.start ≤ region.stop :=
    fun region hmem => hregions region (List.mem_of_mem_filter hmem)
  generalize hcalls : H.mergeableCalls pid regions maxBytes dryRun world = calls
  rcases hcalls ▸ H.mergeableCalls_ranges pid regions maxBytes dryRun world with hnone | hranges
  · rw [List.map_eq_nil_iff.mp hnone]
    exact .nil
  · refine List.sublistForall₂_iff.mpr ⟨(regions.filter MapsEntry.eligible).take calls.length,
      forall₂_take_of_getElem? fun k call hcall => ?_,
      (List.take_sublist _ _).trans List.filter_sublist⟩
    have hrange : (buildBatch (regions.filter MapsEntry.eligible) maxBytes)[k]? =
        some (call.addr, call.len) := by
      rw [← hranges, List.getElem?_map, hcall, Option.map_some]
    obtain ⟨region, hregion, hstart, hpos, hle, -⟩ := getElem?_buildBatch hbounds hrange
    have hmem := List.mem_of_getElem? hregion
    have heligible := List.of_mem_filter hmem
    have hbound := UInt64.le_iff_toNat_le.mp (hbounds region hmem)
    simp only [MapsEntry.eligible, Bool.and_eq_true, Bool.not_eq_true'] at heligible
    refine ⟨region, hregion, heligible.1.1, heligible.1.2, heligible.2, hstart, hpos, ?_⟩
    rw [bytes] at hle
    dsimp only at hstart hle
    rw [hstart]
    omega

/-- The bytes of a batch stay below its cap. -/
theorem totalLen_ranges_lt (hregions : ∀ region ∈ regions, region.start ≤ region.stop) :
    totalLen ((buildBatch (regions.filter MapsEntry.eligible) maxBytes).map Prod.snd) < 2 ^ 64 := by
  have hbounds : ∀ region ∈ regions.filter MapsEntry.eligible, region.start ≤ region.stop :=
    fun region hmem => hregions region (List.mem_of_mem_filter hmem)
  have hlengths := lengths_buildBatch hbounds maxBytes
  refine lt_of_le_of_lt ?_ maxBytes.toNat_lt
  rw [totalLen, List.map_map]
  exact hlengths ▸ Filling.sum_fill_le _ _

/-- The bytes of the successful calls do not wrap. -/
theorem totalLen_succeeded_lt (hregions : ∀ region ∈ regions, region.start ≤ region.stop) :
    totalLen (((H.mergeableCalls pid regions maxBytes dryRun world).filter MarkCall.succeeded).map
      MarkCall.len) < 2 ^ 64 := by
  generalize hcalls : H.mergeableCalls pid regions maxBytes dryRun world = calls
  have hle : totalLen ((calls.filter MarkCall.succeeded).map MarkCall.len) ≤
      totalLen ((calls.map fun call => (call.addr, call.len)).map Prod.snd) := by
    rw [List.map_map]
    exact ((List.filter_sublist.map MarkCall.len).map UInt64.toNat).sum_le_sum
      fun _ _ => Nat.zero_le _
  refine lt_of_le_of_lt hle ?_
  rcases hcalls ▸ H.mergeableCalls_ranges pid regions maxBytes dryRun world with hnone | hranges
  · rw [hnone]
    exact Nat.two_pow_pos 64
  · rw [hranges]
    exact totalLen_ranges_lt maxBytes hregions

variable (regions)

/-- Every range attempted is marked or has an error. -/
theorem applyMergeable_count :
    (H.applyMergeable pid regions maxBytes dryRun world).1.regionsAttempted =
      (H.applyMergeable pid regions maxBytes dryRun world).1.regionsMerged +
        (H.applyMergeable pid regions maxBytes dryRun world).1.errors.length := by
  cases dryRun with
  | true => rw [applyMergeable_dryRun_result, List.length_nil, Nat.add_zero]
  | false =>
    rw [applyMergeable_regionsAttempted]
    cases hsyscall : H.findSyscallInVdso pid world with
    | error e =>
      rw [H.applyMergeable_noSyscall pid regions maxBytes world hsyscall, List.length_map,
        Nat.zero_add]
    | ok syscallAddr =>
      rw [H.applyMergeable_eq_note pid regions maxBytes world hsyscall, foldl_note_count,
        ← H.mergeableCalls_batch pid regions maxBytes world hsyscall, List.length_map]
      exact (Nat.zero_add _).symm

/-- The bytes marked are those of the successful calls. -/
theorem applyMergeable_totalBytesMarked :
    (H.applyMergeable pid regions maxBytes false world).1.totalBytesMarked =
      (((H.mergeableCalls pid regions maxBytes false world).filter MarkCall.succeeded).map
        MarkCall.len).sum := by
  cases hsyscall : H.findSyscallInVdso pid world with
  | error e =>
    rw [H.applyMergeable_noSyscall pid regions maxBytes world hsyscall, mergeableCalls, hsyscall]
    rfl
  | ok syscallAddr =>
    rw [H.applyMergeable_eq_note pid regions maxBytes world hsyscall, foldl_note_totalBytesMarked,
      UInt64.zero_add]

/-- Where every range is injected successfully, a dry run has the same result. -/
theorem applyMergeable_dryRun_eq
    (h : ((H.mergeableCalls pid regions maxBytes false world).filter MarkCall.succeeded).map
      (fun call => (call.addr, call.len)) = buildBatch (regions.filter MapsEntry.eligible) maxBytes) :
    (H.applyMergeable pid regions maxBytes true world).1 =
      (H.applyMergeable pid regions maxBytes false world).1 := by
  cases hsyscall : H.findSyscallInVdso pid world with
  | error e =>
    -- Nothing is injected, so the batch is empty.
    have hnone : H.mergeableCalls pid regions maxBytes false world = [] := by
      rw [mergeableCalls, hsyscall]
      rfl
    rw [applyMergeable_dryRun_result, H.applyMergeable_noSyscall pid regions maxBytes world hsyscall,
      ← h, hnone]
    rfl
  | ok syscallAddr =>
    have hbatch := H.mergeableCalls_batch pid regions maxBytes world hsyscall
    have hcalls : ∀ call ∈ H.mergeableCalls pid regions maxBytes false world, call.succeeded := by
      have hlength := congrArg List.length (h.trans hbatch.symm)
      rw [List.length_map, List.length_map] at hlength
      exact List.length_filter_eq_length_iff.mp hlength
    rw [applyMergeable_dryRun_result, H.applyMergeable_eq_note pid regions maxBytes world hsyscall,
      foldl_note_succeeded _ _ hcalls, ← hbatch, List.map_map, List.length_map, Nat.zero_add,
      UInt64.zero_add]
    rfl

variable {regions}

/-- Marking leaves the world after its injections and nothing else. They lie in entries that may be
marked, each entry taking at most one of them; each range attempted is marked or has an error; the
bytes marked are those of the successful injections, or of all ranges in a dry run; and where every
range is injected successfully, a dry run has the same result. -/
theorem applyMergeable_accounts (hregions : ∀ region ∈ regions, region.start ≤ region.stop) :
    let marked := fun dryRun => H.applyMergeable pid regions maxBytes dryRun world
    let calls := fun dryRun => H.mergeableCalls pid regions maxBytes dryRun world
    let batch := buildBatch (regions.filter MapsEntry.eligible) maxBytes
    (∀ dryRun, H.MarkedBy pid (calls dryRun) world (marked dryRun).2) ∧
    (∀ dryRun, List.SublistForall₂ MarkCall.Inside (calls dryRun) regions) ∧
    (∀ dryRun, (marked dryRun).1.regionsAttempted =
      (marked dryRun).1.regionsMerged + (marked dryRun).1.errors.length) ∧
    (marked false).1.totalBytesMarked.toNat =
      totalLen (((calls false).filter MarkCall.succeeded).map MarkCall.len) ∧
    (marked true).1.totalBytesMarked.toNat = totalLen (batch.map Prod.snd) ∧
    (((calls false).filter MarkCall.succeeded).map (fun call => (call.addr, call.len)) = batch →
      (marked true).1 = (marked false).1) := by
  refine ⟨fun dryRun => H.applyMergeable_markedBy pid regions maxBytes dryRun world,
    fun dryRun => H.mergeableCalls_inside pid maxBytes dryRun world hregions,
    fun dryRun => H.applyMergeable_count pid regions maxBytes dryRun world, ?_, ?_,
    H.applyMergeable_dryRun_eq pid regions maxBytes world⟩
  · dsimp only
    rw [applyMergeable_totalBytesMarked]
    exact toNat_sum (H.totalLen_succeeded_lt pid maxBytes false world hregions)
  · dsimp only
    rw [applyMergeable_dryRun_result]
    exact toNat_sum (totalLen_ranges_lt maxBytes hregions)

/-- The cap falls inside the second of three regions: two ranges are injected, the requests for them
are in the world that is left, and none of them fails. -/
theorem applyMergeable_accounts_threeRegions :
    let marked := answeringHost.applyMergeable 7 threeRegions 0x3000 false Ptrace.runningProcess
    let calls := answeringHost.mergeableCalls 7 threeRegions 0x3000 false Ptrace.runningProcess
    answeringHost.MarkedBy 7 calls Ptrace.runningProcess marked.2 ∧
      calls.map (fun call => (call.addr, call.len)) = [(0x1000, 0x2000), (0x4000, 0x1000)] ∧
      marked.1.regionsAttempted = marked.1.regionsMerged + marked.1.errors.length ∧
      marked.1.regionsMerged = 2 ∧ marked.1.totalBytesMarked = 0x3000 ∧ marked.2.2.length = 22 := by
  obtain ⟨hmarked, -, hcount, -⟩ :=
    answeringHost.applyMergeable_accounts 7 0x3000 Ptrace.runningProcess
      (show ∀ region ∈ threeRegions, region.start ≤ region.stop by decide)
  exact ⟨hmarked false, by decide +kernel, hcount false, by decide +kernel⟩

end Host

end Animaksm.Daemon

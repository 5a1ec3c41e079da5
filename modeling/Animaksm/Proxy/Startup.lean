import Mathlib.Data.UInt
import Animaksm.Proxy.Engine

/-!
# Starting the proxy

The engine computes its number of slots with a multiplication that wraps, and
opens or creates its store, before the frontend computes the device size with one
that is checked. The answers of the operating system are inputs of the start, and
the start leaves a list of what it did to the store.
-/

namespace Animaksm.Proxy

/-- What the operating system answers to the start of the proxy. -/
structure StartIo where
  /-- The ublk control device exists. -/
  controlExists : Bool
  /-- The path of the store exists. -/
  storeExists : Bool
  /-- The file that opens at the path, if any. -/
  openStore : Option File
  /-- The directories above the store are there or can be created. -/
  createDirAll : Bool
  /-- The path can be opened for creation and truncation. -/
  createStore : Bool
  /-- The new file can be given a length. -/
  setLen : Bool
  /-- The ublk device can be built. -/
  buildControl : Bool

/-- An access of the start to the store. -/
inductive StoreAccess where
  | opened
  /-- The file is created, or truncated if it is there. -/
  | created
  | resized (bytes : UInt64)
  deriving DecidableEq, Repr

/-- Why a start is rejected. -/
inductive StartError where
  | controlMissing
  | sizeOverflow
  /-- The operating system failed a file access. -/
  | io
  /-- The ublk device cannot be built. -/
  | ublk
  deriving DecidableEq, Repr

/-- The text of an error; those of the operating system and of the ublk library are their own. -/
def StartError.message (osError ublkError : String) : StartError → String
  | .controlMissing =>
      "/dev/ublk-control is missing; load the kernel driver with `modprobe ublk_drv`"
  | .sizeOverflow => "device size overflows u64"
  | .io => osError
  | .ublk => ublkError

/-- Multiplication that fails where it would wrap. -/
def checkedMul (a b : UInt64) : Option UInt64 :=
  if a.toNat * b.toNat < 2 ^ 64 then some (a * b) else none

/-- The number of page slots of the engine. -/
def totalSlots (sizeGb : UInt64) : UInt64 := (sizeGb * 1024 * 1024 * 1024) / 4096

/-- The size in bytes of the device that the frontend advertises. -/
def totalBytes (sizeGb : UInt64) : Option UInt64 := checkedMul sizeGb (1024 * 1024 * 1024)

theorem toNat_totalSlots (sizeGb : UInt64) :
    (totalSlots sizeGb).toNat = sizeGb.toNat * 2 ^ 30 % 2 ^ 64 / pageSize := by
  rw [totalSlots, UInt64.toNat_div]
  simp only [UInt64.toNat_mul, UInt64.reduceToNat, pageSize]
  omega

/-- The slots of an engine make up less than `2 ^ 64` bytes. -/
theorem totalSlots_capacity (sizeGb : UInt64) : (totalSlots sizeGb).toNat * pageSize < 2 ^ 64 := by
  rw [toNat_totalSlots]
  exact lt_of_le_of_lt (Nat.div_mul_le_self _ _) (Nat.mod_lt _ (by decide))

variable (io : StartIo) (sizeGb : UInt64) (maxEntries bloomCapacity : Nat)

/-- Open a file as a page store. -/
def PageStore.open (totalSlots : UInt64) (hcapacity : totalSlots.toNat * pageSize < 2 ^ 64) :
    Except StartError PageStore × List StoreAccess :=
  match io.openStore with
  | none => (.error .io, [])
  | some file => (.ok ⟨file, totalSlots.toNat, 0, 0, hcapacity⟩, [.opened])

/-- Create a file-backed page store; a length past the largest `i64` is refused. -/
def PageStore.createFile (totalSlots : UInt64) (hcapacity : totalSlots.toNat * pageSize < 2 ^ 64) :
    Except StartError PageStore × List StoreAccess :=
  if io.createStore then
    let totalSize := totalSlots * 4096
    if io.setLen ∧ totalSize.toNat < 2 ^ 63 then
      (.ok ⟨⟨totalSize.toNat, fun _ => 0⟩, totalSlots.toNat, 0, 0, hcapacity⟩,
        [.created, .resized totalSize])
    else (.error .io, [.created])
  else (.error .io, [])

/-- A new engine, over the store at the path or over a new one. -/
def ProxyEngine.new : Except StartError ProxyEngine × List StoreAccess :=
  let store :=
    if io.storeExists then PageStore.open io (totalSlots sizeGb) (totalSlots_capacity sizeGb)
    else if io.createDirAll then
      PageStore.createFile io (totalSlots sizeGb) (totalSlots_capacity sizeGb)
    else (.error .io, [])
  (store.1.map (.ofStore · maxEntries bloomCapacity), store.2)

/-- Run the ublk frontend: the size of the device that it serves. -/
def ublkRun : Except StartError UInt64 :=
  (totalBytes sizeGb).elim (.error .sizeOverflow) fun bytes =>
    if io.buildControl then .ok bytes else .error .ublk

/-- Start the real proxy: its engine and its device size, and what it did to the store. -/
def runRealProxy : Except StartError (ProxyEngine × UInt64) × List StoreAccess :=
  if io.controlExists then
    match ProxyEngine.new io sizeGb maxEntries bloomCapacity with
    | (.error e, accesses) => (.error e, accesses)
    | (.ok engine, accesses) => ((ublkRun io sizeGb).map (engine, ·), accesses)
  else (.error .controlMissing, [])

/-- The start creates or truncates a store. -/
def StartIo.Creates : Prop :=
  io.controlExists ∧ ¬ io.storeExists ∧ io.createDirAll ∧ io.createStore

instance : Decidable io.Creates := inferInstanceAs (Decidable (_ ∧ _ ∧ _ ∧ _))

/-- The slots of the engine and the bytes of the device both make up the size, as they do in a
proxy that has started, and every slot has its byte offset. -/
structure SizesAgree : Prop where
  slots : (totalSlots sizeGb).toNat * pageSize = sizeGb.toNat * 2 ^ 30
  bytes : ∃ bytes, totalBytes sizeGb = some bytes ∧ bytes.toNat = sizeGb.toNat * 2 ^ 30
  started : ∀ engine bytes, (runRealProxy io sizeGb maxEntries bloomCapacity).1 = .ok (engine, bytes) →
    engine.store.totalSlots * pageSize = sizeGb.toNat * 2 ^ 30 ∧ bytes.toNat = sizeGb.toNat * 2 ^ 30
  offsets : ∀ slot < totalSlots sizeGb, slot.toNat * pageSize < 2 ^ 64

/-- The start is rejected before it touches a store, or its sizes agree. -/
def StartsSafely : Prop :=
  ((∃ e, (runRealProxy io sizeGb maxEntries bloomCapacity).1 = .error e) ∧
    .created ∉ (runRealProxy io sizeGb maxEntries bloomCapacity).2) ∨
  SizesAgree io sizeGb maxEntries bloomCapacity

variable {io sizeGb maxEntries bloomCapacity}

/-- Both multiplications are exact below `2 ^ 34` gigabytes. -/
theorem totalBytes_of_lt (h : sizeGb.toNat < 2 ^ 34) :
    ∃ bytes, totalBytes sizeGb = some bytes ∧ bytes.toNat = sizeGb.toNat * 2 ^ 30 := by
  have hgb : (1024 * 1024 * 1024 : UInt64).toNat = 2 ^ 30 := rfl
  have hfits : sizeGb.toNat * 2 ^ 30 < 2 ^ 64 := by omega
  refine ⟨sizeGb * (1024 * 1024 * 1024), ?_, ?_⟩
  · rw [totalBytes, checkedMul, hgb, if_pos hfits]
  · rw [UInt64.toNat_mul, hgb, Nat.mod_eq_of_lt hfits]

/-- From `2 ^ 34` gigabytes on the checked multiplication fails. -/
theorem totalBytes_of_le (h : 2 ^ 34 ≤ sizeGb.toNat) : totalBytes sizeGb = none := by
  have hgb : (1024 * 1024 * 1024 : UInt64).toNat = 2 ^ 30 := rfl
  rw [totalBytes, checkedMul, hgb, if_neg (by omega)]

theorem toNat_totalSlots_mul (h : sizeGb.toNat < 2 ^ 34) :
    (totalSlots sizeGb).toNat * pageSize = sizeGb.toNat * 2 ^ 30 := by
  rw [toNat_totalSlots, pageSize]
  omega

theorem PageStore.open_totalSlots {slots : UInt64} {hcapacity : slots.toNat * pageSize < 2 ^ 64}
    {store : PageStore} (h : (PageStore.open io slots hcapacity).1 = .ok store) :
    store.totalSlots = slots.toNat := by
  rw [PageStore.open] at h
  split at h
  · cases h
  · cases h
    rfl

theorem PageStore.createFile_totalSlots {slots : UInt64}
    {hcapacity : slots.toNat * pageSize < 2 ^ 64} {store : PageStore}
    (h : (PageStore.createFile io slots hcapacity).1 = .ok store) : store.totalSlots = slots.toNat := by
  rw [PageStore.createFile] at h
  split at h
  · dsimp only at h
    split at h
    · cases h
      rfl
    · cases h
  · cases h

/-- A store that opens or is created has the slots of the device. -/
theorem new_totalSlots {engine : ProxyEngine}
    (h : (ProxyEngine.new io sizeGb maxEntries bloomCapacity).1 = .ok engine) :
    engine.store.totalSlots = (totalSlots sizeGb).toNat := by
  have hstore : ∀ {result : Except StartError PageStore},
      result.map (ProxyEngine.ofStore · maxEntries bloomCapacity) = .ok engine →
      result = .ok engine.store := by
    intro result hmap
    cases result with
    | error e => cases hmap
    | ok store => cases hmap; rfl
  rw [ProxyEngine.new] at h
  have hopened := hstore h
  split at hopened
  · exact PageStore.open_totalSlots hopened
  · split at hopened
    · exact PageStore.createFile_totalSlots hopened
    · cases hopened

/-- A proxy that has started serves the device size with an engine of its own size. -/
theorem runRealProxy_ok {engine : ProxyEngine} {bytes : UInt64}
    (h : (runRealProxy io sizeGb maxEntries bloomCapacity).1 = .ok (engine, bytes)) :
    engine.store.totalSlots = (totalSlots sizeGb).toNat ∧ totalBytes sizeGb = some bytes := by
  rw [runRealProxy] at h
  split at h
  · split at h
    next heq => cases h
    next engine' accesses heq =>
      rw [ublkRun] at h
      cases hbytes : totalBytes sizeGb with
      | none => rw [hbytes] at h; cases h
      | some size =>
        rw [hbytes, Option.elim_some] at h
        split at h
        · cases h
          exact ⟨new_totalSlots (congrArg Prod.fst heq), rfl⟩
        · cases h
  · cases h

theorem sizesAgree_of_lt (h : sizeGb.toNat < 2 ^ 34) :
    SizesAgree io sizeGb maxEntries bloomCapacity where
  slots := toNat_totalSlots_mul h
  bytes := totalBytes_of_lt h
  started engine bytes hstarted := by
    obtain ⟨hslots, hbytes⟩ := runRealProxy_ok hstarted
    obtain ⟨bytes', hsome, hsize⟩ := totalBytes_of_lt h
    cases hbytes.symm.trans hsome
    exact ⟨hslots ▸ toNat_totalSlots_mul h, hsize⟩
  offsets slot hslot := by
    refine lt_of_le_of_lt ?_ (totalSlots_capacity sizeGb)
    exact Nat.mul_le_mul_right _ (le_of_lt (UInt64.lt_iff_toNat_lt.mp hslot))

/-- The accesses of a start that the control device lets through are those of its engine. -/
theorem runRealProxy_accesses (hcontrol : io.controlExists) :
    (runRealProxy io sizeGb maxEntries bloomCapacity).2 =
      (ProxyEngine.new io sizeGb maxEntries bloomCapacity).2 := by
  rw [runRealProxy, if_pos hcontrol]
  split
  next heq => rw [heq]
  next heq => rw [heq]

/-- A new engine creates or truncates its store where the path is free and can be created. -/
theorem new_created_mem_iff : .created ∈ (ProxyEngine.new io sizeGb maxEntries bloomCapacity).2 ↔
    ¬ io.storeExists ∧ io.createDirAll ∧ io.createStore := by
  rw [ProxyEngine.new]
  dsimp only
  split
  next hexists =>
    refine iff_of_false ?_ (fun h => h.1 hexists)
    rw [PageStore.open]
    split
    · exact List.not_mem_nil
    · simp
  next hexists =>
    rw [and_iff_right hexists]
    split
    next hdir =>
      rw [and_iff_right hdir, PageStore.createFile]
      split
      next hcreate =>
        refine iff_of_true ?_ hcreate
        dsimp only
        split
        · exact List.mem_cons_self ..
        · exact List.mem_cons_self ..
      next hcreate => exact iff_of_false List.not_mem_nil hcreate
    next hdir => exact iff_of_false List.not_mem_nil (fun h => hdir h.1)

/-- A start creates or truncates a store exactly under `Creates`. -/
theorem created_mem_iff : .created ∈ (runRealProxy io sizeGb maxEntries bloomCapacity).2 ↔ io.Creates := by
  by_cases hcontrol : io.controlExists
  · rw [runRealProxy_accesses hcontrol, new_created_mem_iff, StartIo.Creates, and_iff_right hcontrol]
  · rw [runRealProxy, if_neg hcontrol, StartIo.Creates]
    exact iff_of_false List.not_mem_nil (fun h => hcontrol h.1)

/-- A device that is too large is always rejected. -/
theorem runRealProxy_of_le (h : 2 ^ 34 ≤ sizeGb.toNat) :
    ∃ e, (runRealProxy io sizeGb maxEntries bloomCapacity).1 = .error e := by
  rw [runRealProxy]
  split
  · split
    · exact ⟨_, rfl⟩
    · refine ⟨.sizeOverflow, ?_⟩
      rw [ublkRun, totalBytes_of_le h]
      rfl
  · exact ⟨_, rfl⟩

/-- A start is safe for sizes below `2 ^ 34` gigabytes, and for larger ones where it creates no
store, exactly. -/
theorem startsSafely_iff (io : StartIo) (sizeGb : UInt64) (maxEntries bloomCapacity : Nat) :
    StartsSafely io sizeGb maxEntries bloomCapacity ↔ sizeGb.toNat < 2 ^ 34 ∨ ¬ io.Creates := by
  constructor
  · rintro (⟨-, huntouched⟩ | hagree)
    · exact .inr (fun h => huntouched (created_mem_iff.mpr h))
    · refine .inl (Nat.lt_of_not_le fun hlarge => ?_)
      obtain ⟨bytes, hsome, -⟩ := hagree.bytes
      rw [totalBytes_of_le hlarge] at hsome
      cases hsome
  · intro h
    by_cases hsize : sizeGb.toNat < 2 ^ 34
    · exact .inr (sizesAgree_of_lt hsize)
    · refine .inl ⟨runRealProxy_of_le (Nat.le_of_not_lt hsize), fun hcreated => ?_⟩
      exact h.resolve_left hsize (created_mem_iff.mp hcreated)

/-- Every answer is favourable, and the path of the store is free. -/
def StartIo.fresh : StartIo := ⟨true, false, none, true, true, true, true⟩

/-- At `2 ^ 34` gigabytes the number of slots wraps to 0 and a store of that size is created, before
the frontend rejects the size. -/
theorem not_startsSafely :
    (runRealProxy .fresh (2 ^ 34) 100 256).1 = .error .sizeOverflow ∧
    (runRealProxy .fresh (2 ^ 34) 100 256).2 = [.created, .resized 0] ∧
    ¬ StartsSafely .fresh (2 ^ 34) 100 256 := by
  refine ⟨rfl, rfl, ?_⟩
  rintro (⟨-, huntouched⟩ | hagree)
  · exact huntouched (by decide)
  · obtain ⟨bytes, hsome, -⟩ := hagree.bytes
    cases hsome

end Animaksm.Proxy

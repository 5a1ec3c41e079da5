import Animaksm.Common.Ksm

/-!
# Sequences of sysfs writes

The writes a task makes, in order: performed on a directory, recorded, or recorded
on the side of a directory. On a directory that accepts every write the last write
to a parameter is its value.
-/

namespace Animaksm.Common

/-- A write of a text to a parameter. -/
abbrev KsmWrite := Param × String

namespace Sysfs

variable {ε D : Type}

/-- Make these writes in order, whatever the outcome of each. -/
def perform (fs : Sysfs ε D) (writes : List KsmWrite) (dir : D) : D :=
  writes.foldl (fun dir w => (fs.write w.1 w.2 dir).2) dir

/-- A directory of which only the writes made to it are kept. -/
def recorder : Sysfs ε (List KsmWrite) where
  write param value writes := (.ok (), writes ++ [(param, value)])

/-- A directory next to the writes made to it. -/
def logged (fs : Sysfs ε D) : Sysfs ε (D × List KsmWrite) where
  write param value dir :=
    ((fs.write param value dir.1).1, (fs.write param value dir.1).2, dir.2 ++ [(param, value)])

/-- Every write is accepted and becomes the value of its parameter. -/
structure Accepts (fs : Sysfs ε D) (value : D → Param → String) : Prop where
  ok : ∀ param text dir, (fs.write param text dir).1 = .ok ()
  value_write : ∀ param text dir,
    value (fs.write param text dir).2 = Function.update (value dir) param text

variable {fs : Sysfs ε D}

@[simp] theorem perform_nil (dir : D) : fs.perform [] dir = dir := rfl

@[simp] theorem perform_cons (w : KsmWrite) (writes : List KsmWrite) (dir : D) :
    fs.perform (w :: writes) dir = fs.perform writes (fs.write w.1 w.2 dir).2 := rfl

theorem perform_append (writes writes' : List KsmWrite) (dir : D) :
    fs.perform (writes ++ writes') dir = fs.perform writes' (fs.perform writes dir) :=
  List.foldl_append

/-- A logged directory is the directory and the log. -/
theorem perform_logged (writes : List KsmWrite) (dir : D × List KsmWrite) :
    fs.logged.perform writes dir = (fs.perform writes dir.1, dir.2 ++ writes) := by
  induction writes generalizing dir with
  | nil => rw [perform_nil, perform_nil, List.append_nil]
  | cons w writes ih =>
    rw [perform_cons, ih, perform_cons]
    change (_, dir.2 ++ [(w.1, w.2)] ++ writes) = _
    rw [List.append_assoc, List.singleton_append]
    rfl

/-- A parameter that is not written keeps its value. -/
theorem Accepts.value_perform_of_notMem {value : D → Param → String} (h : fs.Accepts value)
    {param : Param} {writes : List KsmWrite} (hnot : ∀ w ∈ writes, w.1 ≠ param) (dir : D) :
    value (fs.perform writes dir) param = value dir param := by
  induction writes generalizing dir with
  | nil => rfl
  | cons w writes ih =>
    obtain ⟨hw, hrest⟩ := List.forall_mem_cons.mp hnot
    rw [perform_cons, ih hrest, h.value_write, Function.update_of_ne hw.symm]

/-- The last write to a parameter is its value. -/
theorem Accepts.value_perform_of_mem {value : D → Param → String} (h : fs.Accepts value)
    {param : Param} {text : String} {writes : List KsmWrite} (hmem : (param, text) ∈ writes)
    (honly : ∀ w ∈ writes, w.1 = param → w.2 = text) (dir : D) :
    value (fs.perform writes dir) param = text := by
  induction writes generalizing dir with
  | nil => exact absurd hmem List.not_mem_nil
  | cons w writes ih =>
    obtain ⟨hw, hrest⟩ := List.forall_mem_cons.mp honly
    rw [perform_cons]
    by_cases hin : (param, text) ∈ writes
    · exact ih hin hrest _
    · have hhead : (param, text) = w := (List.mem_cons.mp hmem).resolve_right hin
      have hnot : ∀ u ∈ writes, u.1 ≠ param := fun u hu hup => hin <| by
        rw [show (param, text) = u from Prod.ext hup.symm (hrest u hu hup).symm]
        exact hu
      rw [h.value_perform_of_notMem hnot, h.value_write, ← hhead, Function.update_self]

end Sysfs

namespace KsmController

variable {ε D : Type}

/-- The write of a validated value. -/
def validated (param : Param) (value : Nat) : KsmWrite :=
  (param, toString (clampValue param value))

/-- What a controller writes of a validated value. -/
def written (ksm : KsmController) (now : Instant) (param : Param) (value : Nat) : List KsmWrite :=
  if ksm.Passes now then [(param, toString (clampValue param value))] else []

theorem writeValidated_eq_perform (ksm : KsmController) (fs : Sysfs ε D) (now : Instant)
    (param : Param) (value : Nat) (dir : D) :
    (ksm.writeValidated fs now param value dir).2 =
      fs.perform (ksm.written now param value) dir := by
  unfold writeValidated written
  by_cases h : ksm.Passes now
  · rw [if_pos h, writeParam_of_passes h]
    rfl
  · rw [if_neg h, writeParam_of_not_passes h]
    rfl

end KsmController

end Animaksm.Common

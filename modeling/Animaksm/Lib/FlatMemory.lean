import Mathlib.Data.List.Basic
import Mathlib.Data.List.Range
import Mathlib.Logic.Function.Basic

/-!
# Flat memories

A flat memory gives every address a cell. Writing a list of cells replaces the
range it covers; reading a range lists its cells. Writes of adjacent lists are
one write of both, and a range apart from the written one reads as before. Cut into
cells of one size, a flat memory is an array: the cells that have been written stand
over a base memory, and the others show it.
-/

/-- A cell for every address. -/
abbrev FlatMemory (α : Type*) := Nat → α

namespace FlatMemory

variable {α : Type*}

/-- Replace the cells from an address on. -/
def write (f : FlatMemory α) (off : Nat) (data : List α) : FlatMemory α :=
  fun i => if off ≤ i then data[i - off]?.getD (f i) else f i

/-- The cells of a range, in order. -/
def read (f : FlatMemory α) (off len : Nat) : List α := (List.range' off len).map f

@[simp] theorem length_read (f : FlatMemory α) (off len : Nat) : (f.read off len).length = len := by
  simp [read]

@[simp] theorem read_zero (f : FlatMemory α) (off : Nat) : f.read off 0 = [] := rfl

/-- Adjacent ranges are read one after the other. -/
theorem read_add (f : FlatMemory α) (off m n : Nat) :
    f.read off (m + n) = f.read off m ++ f.read (off + m) n := by
  rw [read, read, read, ← List.map_append, List.range'_append_1]

@[simp] theorem write_nil (f : FlatMemory α) (off : Nat) : f.write off [] = f := by
  funext i
  simp [write]

/-- Inside the written range stands what was written. -/
theorem write_apply_inside (f : FlatMemory α) {off i : Nat} {data : List α}
    (h : i < data.length) : f.write off data (off + i) = data[i] := by
  simp [write, h]

/-- Outside of it nothing changes. -/
theorem write_apply_outside (f : FlatMemory α) {off i : Nat} {data : List α}
    (h : i < off ∨ off + data.length ≤ i) : f.write off data i = f i := by
  unfold write
  rcases h with h | h
  · rw [if_neg (Nat.not_le_of_lt h)]
  · rw [List.getElem?_eq_none (by omega), Option.getD_none, ite_self]

/-- A written range reads as what was written. -/
theorem read_write_self (f : FlatMemory α) (off : Nat) (data : List α) :
    (f.write off data).read off data.length = data := by
  apply List.ext_getElem
  · exact length_read ..
  · intro i _ hi
    simp only [read, List.getElem_map, List.getElem_range', Nat.one_mul]
    exact write_apply_inside f hi

/-- A range apart from the written one reads as before. -/
theorem read_write_of_disjoint (f : FlatMemory α) {off off' len : Nat} {data : List α}
    (h : off' + len ≤ off ∨ off + data.length ≤ off') :
    (f.write off data).read off' len = f.read off' len := by
  apply List.map_congr_left
  intro i hi
  rw [List.mem_range'_1] at hi
  apply write_apply_outside
  omega

/-- Adjacent lists are written one after the other. -/
theorem write_append (f : FlatMemory α) (off : Nat) (a b : List α) :
    f.write off (a ++ b) = (f.write off a).write (off + a.length) b := by
  funext i
  rcases Nat.lt_or_ge i (off + a.length) with hlt | hge
  · rw [write_apply_outside _ (Or.inl hlt)]
    rcases Nat.lt_or_ge i off with hbefore | hin
    · rw [write_apply_outside _ (Or.inl hbefore), write_apply_outside _ (Or.inl hbefore)]
    · obtain ⟨j, rfl⟩ := Nat.exists_eq_add_of_le hin
      have hj : j < a.length := by omega
      rw [write_apply_inside f hj, write_apply_inside f (by rw [List.length_append]; omega),
        List.getElem_append_left hj]
  · rcases Nat.lt_or_ge i (off + a.length + b.length) with hin | hafter
    · obtain ⟨j, rfl⟩ := Nat.exists_eq_add_of_le hge
      have hj : j < b.length := by omega
      rw [write_apply_inside _ hj, Nat.add_assoc,
        write_apply_inside f (by rw [List.length_append]; omega),
        List.getElem_append_right (Nat.le_add_right _ _)]
      simp
    · have hab : off + (a ++ b).length ≤ i := by
        rw [List.length_append]
        omega
      rw [write_apply_outside _ (Or.inr hab), write_apply_outside _ (Or.inr hafter),
        write_apply_outside _ (Or.inr hge)]

/-! ## Cells of one size -/

/-- The written cells over the base memory. -/
def overlay (size : Nat) (base : FlatMemory α) (cells : Nat → Option (List α)) : FlatMemory α :=
  fun i => ((cells (i / size)).bind fun data => data[i % size]?).getD (base i)

theorem overlay_none (size : Nat) (base : FlatMemory α) : overlay size base (fun _ => none) = base := rfl

section Cells

variable {size cell : Nat} {base : FlatMemory α} {cells : Nat → Option (List α)} {data : List α}

/-- An address inside a cell shows the cell, if it has been written. -/
theorem overlay_apply (cells : Nat → Option (List α)) {j : Nat} (hj : j < size) :
    overlay size base cells (cell * size + j) =
      ((cells cell).bind fun data => data[j]?).getD (base (cell * size + j)) := by
  have hdiv : (cell * size + j) / size = cell := by
    rw [Nat.add_comm, Nat.add_mul_div_right _ _ (Nat.zero_lt_of_lt hj), Nat.div_eq_of_lt hj,
      Nat.zero_add]
  have hmod : (cell * size + j) % size = j := by
    rw [Nat.add_comm, Nat.add_mul_mod_self_right, Nat.mod_eq_of_lt hj]
  rw [overlay, hdiv, hmod]

/-- An address of one cell is outside of the range of any other. -/
theorem outside_cell {other j : Nat} (hj : j < size) (hcell : other ≠ cell) :
    other * size + j < cell * size ∨ cell * size + size ≤ other * size + j := by
  rcases Nat.lt_or_gt_of_ne hcell with hlt | hgt
  · have hle := Nat.mul_le_mul_right size (Nat.succ_le_of_lt hlt)
    rw [Nat.succ_mul] at hle
    omega
  · have hle := Nat.mul_le_mul_right size (Nat.succ_le_of_lt hgt)
    rw [Nat.succ_mul] at hle
    omega

/-- Writing the range of a cell is writing the cell. -/
theorem write_overlay (hsize : 0 < size) (hdata : data.length = size) :
    (overlay size base cells).write (cell * size) data =
      overlay size base (Function.update cells cell (some data)) := by
  funext i
  obtain ⟨other, j, hj, rfl⟩ : ∃ other j, j < size ∧ i = other * size + j :=
    ⟨i / size, i % size, Nat.mod_lt i hsize, (Nat.div_add_mod' i size).symm⟩
  rw [overlay_apply _ hj]
  by_cases hcell : other = cell
  · subst hcell
    have hlt : j < data.length := hdata ▸ hj
    rw [write_apply_inside _ hlt, Function.update_self, Option.bind_some, List.getElem?_eq_getElem hlt,
      Option.getD_some]
  · have houtside := outside_cell hj hcell
    rw [Function.update_of_ne hcell, write_apply_outside _ (by rwa [hdata]), overlay_apply _ hj]

/-- A cell that has been written reads as what was written. -/
theorem read_overlay_some (hdata : data.length = size) (h : cells cell = some data) :
    (overlay size base cells).read (cell * size) size = data := by
  apply List.ext_getElem
  · rw [length_read, hdata]
  · intro j hj hj'
    simp only [read, List.getElem_map, List.getElem_range', Nat.one_mul]
    rw [overlay_apply _ (hdata ▸ hj'), h, Option.bind_some, List.getElem?_eq_getElem hj',
      Option.getD_some]

/-- A cell that has not been written reads as the base memory. -/
theorem read_overlay_none (h : cells cell = none) :
    (overlay size base cells).read (cell * size) size = base.read (cell * size) size := by
  apply List.map_congr_left
  intro i hi
  rw [List.mem_range'_1] at hi
  obtain ⟨j, rfl⟩ := Nat.exists_eq_add_of_le hi.1
  rw [overlay_apply _ (Nat.lt_of_add_lt_add_left hi.2), h, Option.bind_none, Option.getD_none]

end Cells

end FlatMemory

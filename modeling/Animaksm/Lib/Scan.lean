import Mathlib.Order.Lattice.Nat

/-!
# Scanning a range of memory

A range of memory is read cell by cell, and the cells are searched for two adjacent
values. A read succeeds when every cell of the range can be read, and the search finds
the least address in the range with both values inside it.
-/

namespace Scan

variable {ε α : Type*}

/-- Read consecutive cells. -/
def readExact (memory : Nat → Except ε α) (start : Nat) : Nat → Except ε (List α)
  | 0 => .ok []
  | size + 1 =>
    match memory start with
    | .error e => .error e
    | .ok cell =>
      match readExact memory (start + 1) size with
      | .error e => .error e
      | .ok cells => .ok (cell :: cells)

/-- The position of the first two adjacent cells with some values. -/
def position [DecidableEq α] (first second : α) (cells : List α) : Option Nat :=
  (cells.zip cells.tail).findIdx? fun window => decide (window = (first, second))

/-- The addresses of two adjacent values in a range. -/
def pairs (memory : Nat → Except ε α) (first second : α) (start stop : Nat) : Set Nat :=
  {a | start ≤ a ∧ a + 1 < stop ∧ memory a = .ok first ∧ memory (a + 1) = .ok second}

variable {memory : Nat → Except ε α} {first second cell : α} {cells : List α} {start size off : Nat}

/-! ## Reading -/

theorem readExact_succ_eq_ok :
    readExact memory start (size + 1) = .ok cells ↔
      ∃ cell rest, memory start = .ok cell ∧ readExact memory (start + 1) size = .ok rest ∧
        cells = cell :: rest := by
  rw [readExact]
  cases memory start with
  | error e => simp
  | ok cell =>
    cases readExact memory (start + 1) size with
    | error e => simp
    | ok rest => simp [eq_comm]

/-- A range is read when each of its cells can be. -/
theorem exists_readExact_iff :
    (∃ cells, readExact memory start size = .ok cells) ↔
      ∀ a, start ≤ a → a < start + size → ∃ cell, memory a = .ok cell := by
  induction size generalizing start with
  | zero => exact iff_of_true ⟨[], rfl⟩ fun a hlow hhigh => absurd hhigh (Nat.not_lt.mpr hlow)
  | succ size ih =>
    constructor
    · rintro ⟨cells, h⟩ a hlow hhigh
      obtain ⟨cell, rest, hcell, hrest, -⟩ := readExact_succ_eq_ok.mp h
      have hlater := ih.mp ⟨rest, hrest⟩
      rcases Nat.eq_or_lt_of_le hlow with rfl | hlow
      · exact ⟨cell, hcell⟩
      · exact hlater a hlow (by omega)
    · intro h
      obtain ⟨cell, hcell⟩ := h start le_rfl (by omega)
      obtain ⟨rest, hrest⟩ : ∃ rest, readExact memory (start + 1) size = .ok rest :=
        ih.mpr fun a hlow hhigh => h a (by omega) (by omega)
      exact ⟨cell :: rest, readExact_succ_eq_ok.mpr ⟨cell, rest, hcell, hrest, rfl⟩⟩

/-- The cells that were read are those of the range. -/
theorem getElem?_readExact (h : readExact memory start size = .ok cells) (i : Nat) :
    cells[i]? = some cell ↔ i < size ∧ memory (start + i) = .ok cell := by
  induction size generalizing start cells i with
  | zero =>
    cases h
    exact iff_of_false (by simp) fun h => absurd h.1 (Nat.not_lt_zero i)
  | succ size ih =>
    obtain ⟨head, rest, hhead, hrest, rfl⟩ := readExact_succ_eq_ok.mp h
    cases i with
    | zero => simp [hhead]
    | succ i => rw [List.getElem?_cons_succ, ih hrest, Nat.add_lt_add_iff_right, Nat.add_right_comm, Nat.add_assoc start]

/-! ## Searching -/

/-- Two adjacent cells of a range stand at an address of the pair. -/
theorem getElem?_zip_tail (h : readExact memory start size = .ok cells) (i : Nat) :
    (cells.zip cells.tail)[i]? = some (first, second) ↔
      start + i ∈ pairs memory first second start (start + size) := by
  rw [List.getElem?_zip_eq_some, List.getElem?_tail, getElem?_readExact h, getElem?_readExact h]
  constructor
  · rintro ⟨⟨-, hfirst⟩, hlt, hsecond⟩
    exact ⟨Nat.le_add_right _ _, Nat.add_lt_add_left hlt start, hfirst, hsecond⟩
  · rintro ⟨-, hlt, hfirst, hsecond⟩
    have hsucc : i + 1 < size := by omega
    exact ⟨⟨Nat.lt_of_succ_lt hsucc, hfirst⟩, hsucc, hsecond⟩

/-- The search finds the first pair of the range. -/
theorem position_eq_some_iff [DecidableEq α] (h : readExact memory start size = .ok cells) :
    position first second cells = some off ↔
      IsLeast (pairs memory first second start (start + size)) (start + off) := by
  have hwindow : ∀ i (hi : i < (cells.zip cells.tail).length),
      decide ((cells.zip cells.tail)[i] = (first, second)) = true ↔
        start + i ∈ pairs memory first second start (start + size) := by
    intro i hi
    rw [decide_eq_true_iff, ← getElem?_zip_tail h, List.getElem?_eq_getElem hi, Option.some_inj]
  rw [position, List.findIdx?_eq_some_iff_getElem]
  constructor
  · rintro ⟨hoff, hmem, hbefore⟩
    refine ⟨(hwindow off hoff).mp hmem, fun a ha => ?_⟩
    obtain ⟨i, rfl⟩ := Nat.exists_eq_add_of_le ha.1
    by_contra hlt
    have hi : i < off := by omega
    exact hbefore i hi ((hwindow i (hi.trans hoff)).mpr ha)
  · rintro ⟨hmem, hleast⟩
    obtain ⟨hoff, -⟩ := List.getElem?_eq_some_iff.mp ((getElem?_zip_tail h off).mpr hmem)
    refine ⟨hoff, (hwindow off hoff).mpr hmem, fun i hi hpair => ?_⟩
    have hle := hleast ((hwindow i (hi.trans hoff)).mp hpair)
    omega

end Scan

import Mathlib.Data.List.Basic

/-!
# The last assignment wins

A record is filled by a fold over a list, in which some elements assign a field and
the others leave it. Whatever the other fields do, a field ends with the value of the
last element that assigns it.
-/

namespace LastWins

variable {σ α β : Type*} {step : σ → α → σ} {field : σ → β} {value : α → Option β}

/-- A field has the last value assigned to it, or still its first one. -/
theorem foldl_field (h : ∀ s a, field (step s a) = (value a).getD (field s)) (s : σ) (as : List α) :
    field (as.foldl step s) = (as.filterMap value).getLast?.getD (field s) := by
  induction as generalizing s with
  | nil => rfl
  | cons a as ih =>
    rw [List.foldl_cons, ih, h, List.filterMap_cons]
    cases value a with
    | none => rfl
    | some b =>
      dsimp only
      rw [List.getLast?_cons, Option.getD_some, Option.getD_some]

end LastWins

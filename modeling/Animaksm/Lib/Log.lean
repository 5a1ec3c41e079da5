import Mathlib.Data.List.Basic

/-!
# Logs

A log grows at its end. A relation between an entry and what was logged before it
holds throughout a log when it holds at every entry, and appending one entry adds
one instance of it. A log accounts for a change of state when its entries, one after
the other, lead from the one state to the other.
-/

namespace Log

universe u v

variable {α : Type u} {R S : List α → α → Prop} {log : List α} {entry : α}

/-- Every entry of the log is related to the entries before it. -/
def Throughout (R : List α → α → Prop) (log : List α) : Prop :=
  ∀ before entry after, log = before ++ entry :: after → R before entry

theorem throughout_nil : Throughout R [] := by
  intro before entry after h
  exact absurd h.symm (List.append_ne_nil_of_right_ne_nil _ (List.cons_ne_nil _ _))

/-- Appending an entry adds its own instance of the relation. -/
theorem throughout_concat : Throughout R (log ++ [entry]) ↔ Throughout R log ∧ R log entry := by
  constructor
  · intro h
    refine ⟨fun before e after heq => ?_, h log entry [] rfl⟩
    exact h before e (after ++ [entry]) (by rw [heq, List.append_assoc, List.cons_append])
  · rintro ⟨h, hentry⟩ before e after heq
    rcases List.eq_nil_or_concat after with rfl | ⟨init, last, rfl⟩
    · obtain ⟨rfl, hlast⟩ := List.append_inj' heq rfl
      cases hlast
      exact hentry
    · rw [List.concat_eq_append, ← List.cons_append, ← List.append_assoc] at heq
      obtain ⟨rfl, -⟩ := List.append_inj' heq rfl
      exact h before e init rfl

/-- The log ends with this many entries of a kind. -/
def EndsWith (n : Nat) (P : α → Prop) (log : List α) : Prop :=
  ∃ earlier last, log = earlier ++ last ∧ last.length = n ∧ ∀ e ∈ last, P e

theorem endsWith_zero (P : α → Prop) (log : List α) : EndsWith 0 P log :=
  ⟨log, [], (List.append_nil log).symm, rfl, fun _ he => absurd he List.not_mem_nil⟩

/-- One more entry of the kind. -/
theorem EndsWith.concat {n : Nat} {P : α → Prop} (h : EndsWith n P log) (hentry : P entry) :
    EndsWith (n + 1) P (log ++ [entry]) := by
  obtain ⟨earlier, last, rfl, hlength, hlast⟩ := h
  refine ⟨earlier, last ++ [entry], List.append_assoc .., ?_, fun e he => ?_⟩
  · rw [List.length_append, hlength, List.length_singleton]
  · rcases List.mem_append.mp he with he | he
    · exact hlast e he
    · rw [List.mem_singleton.mp he]
      exact hentry

/-- What holds throughout a log holds throughout its beginning. -/
theorem Throughout.of_append {later : List α} (h : Throughout R (log ++ later)) : Throughout R log :=
  fun before e after heq => h before e (after ++ later) (by rw [heq, List.append_assoc, List.cons_append])

/-- The entries, each a step that was taken, lead from one state to another. -/
def Leads {σ : Type v} (T : α → σ → σ → Prop) : List α → σ → σ → Prop
  | [], s, t => t = s
  | a :: as, s, u => ∃ t, T a s t ∧ Leads T as t u

end Log

import Mathlib.Data.List.Basic

/-!
# Runs of a deterministic machine

A run folds a total step function over a list of labels. A condition on single
steps holds along a run when it holds at each label in the state that label is
taken from; invariants that steps of this kind preserve hold in the final state,
and through prefixes in every state on the way. Steps that can fail have a run
rule of their own: from an invariant under which no step fails, no run fails. A party
that owns some of the labels, and sees a part of the state that the others leave
alone, sees nothing of them.
-/

namespace Run

universe u v w

variable {σ : Type u} {α : Type v}

/-- Fold the step function over a list of labels. -/
def run (step : σ → α → σ) : σ → List α → σ := List.foldl step

@[simp] theorem run_nil (step : σ → α → σ) (s : σ) : run step s [] = s := rfl

@[simp] theorem run_cons (step : σ → α → σ) (s : σ) (a : α) (as : List α) :
    run step s (a :: as) = run step (step s a) as := rfl

/-- Running a concatenation runs its two parts in order. -/
theorem run_append (step : σ → α → σ) (s : σ) (as bs : List α) :
    run step s (as ++ bs) = run step (run step s as) bs := List.foldl_append

/-- What every step preserves holds after the run. -/
theorem run_invariant {step : σ → α → σ} {I : σ → Prop} (hstep : ∀ s a, I s → I (step s a)) {s : σ}
    (hs : I s) (as : List α) : I (run step s as) := by
  induction as generalizing s with
  | nil => exact hs
  | cons a as ih => exact ih (hstep s a hs)

/-- Every label of the run meets the condition in the state it is taken from. -/
def Along (step : σ → α → σ) (C : σ → α → Prop) : σ → List α → Prop
  | _, [] => True
  | s, a :: as => C s a ∧ Along step C (step s a) as

@[simp] theorem along_nil (step : σ → α → σ) (C : σ → α → Prop) (s : σ) :
    Along step C s [] := trivial

@[simp] theorem along_cons (step : σ → α → σ) (C : σ → α → Prop) (s : σ) (a : α)
    (as : List α) : Along step C s (a :: as) ↔ C s a ∧ Along step C (step s a) as := Iff.rfl

instance Along.decidable (step : σ → α → σ) (C : σ → α → Prop) [∀ s a, Decidable (C s a)] :
    ∀ s as, Decidable (Along step C s as)
  | _, [] => isTrue trivial
  | s, a :: as =>
    have := Along.decidable step C (step s a) as
    inferInstanceAs (Decidable (C s a ∧ Along step C (step s a) as))

/-- A condition holds along a concatenation when it holds along both parts. -/
theorem along_append {step : σ → α → σ} {C : σ → α → Prop} {s : σ} {as bs : List α} :
    Along step C s (as ++ bs) ↔ Along step C s as ∧ Along step C (run step s as) bs := by
  induction as generalizing s with
  | nil => simp
  | cons a as ih => simp only [List.cons_append, along_cons, run_cons, ih, and_assoc]

/-- A condition on labels alone holds along every run of such labels. -/
theorem along_of_forall {step : σ → α → σ} {P : α → Prop} {as : List α} (h : ∀ a ∈ as, P a) (s : σ) :
    Along step (fun _ a => P a) s as := by
  induction as generalizing s with
  | nil => trivial
  | cons a as ih => exact ⟨h a List.mem_cons_self, ih (fun b hb => h b (List.mem_cons_of_mem a hb)) _⟩

/-- A stronger step condition holds along fewer runs. -/
theorem Along.mono {step : σ → α → σ} {C D : σ → α → Prop} (h : ∀ s a, C s a → D s a)
    {s : σ} {as : List α} (ha : Along step C s as) : Along step D s as := by
  induction as generalizing s with
  | nil => trivial
  | cons a as ih => exact ⟨h s a ha.1, ih ha.2⟩

theorem Along.and {step : σ → α → σ} {C D : σ → α → Prop} {s : σ} {as : List α}
    (hC : Along step C s as) (hD : Along step D s as) : Along step (fun s a => C s a ∧ D s a) s as := by
  induction as generalizing s with
  | nil => trivial
  | cons a as ih => exact ⟨⟨hC.1, hD.1⟩, ih hC.2 hD.2⟩

/-- A condition that every step meets from states of an invariant holds along the run. -/
theorem Along.of_invariant {step : σ → α → σ} {C D : σ → α → Prop} {I : σ → Prop}
    (hstep : ∀ s a, I s → C s a → I (step s a)) (hD : ∀ s a, I s → C s a → D s a)
    {s : σ} {as : List α} (hs : I s) (ha : Along step C s as) : Along step D s as := by
  induction as generalizing s with
  | nil => trivial
  | cons a as ih => exact ⟨hD s a hs ha.1, ih (hstep s a hs ha.1) ha.2⟩

/-- The run rule: what each admitted step preserves holds after the run. -/
theorem Along.invariant {step : σ → α → σ} {C : σ → α → Prop} {I : σ → Prop}
    (hstep : ∀ s a, I s → C s a → I (step s a)) {s : σ} {as : List α}
    (hs : I s) (ha : Along step C s as) : I (run step s as) := by
  induction as generalizing s with
  | nil => exact hs
  | cons a as ih => exact ih (hstep s a hs ha.1) ha.2

/-! ## What one party sees of a run -/

section Unwinding

variable {ν : Type w}

/-- Labels a party does not own leave its view alone, and its own labels act on its view only. -/
structure Unwinds (step : σ → α → σ) (view : σ → ν) (own : α → Prop) : Prop where
  silent : ∀ s a, ¬ own a → view (step s a) = view s
  determined : ∀ s t a, own a → view s = view t → view (step s a) = view (step t a)

variable {step : σ → α → σ} {view : σ → ν} {own : α → Prop} [DecidablePred own]

/-- A party sees of a run what it sees of its own labels run alone. -/
theorem Unwinds.view_run_filter (h : Unwinds step view own) {s t : σ} (hview : view s = view t)
    (as : List α) : view (run step s as) = view (run step t (as.filter own)) := by
  induction as generalizing s t with
  | nil => exact hview
  | cons a as ih =>
    by_cases ha : own a
    · rw [List.filter_cons_of_pos (by simpa using ha)]
      exact ih (h.determined s t a ha hview)
    · rw [List.filter_cons_of_neg (by simpa using ha)]
      exact ih ((h.silent s a ha).trans hview)

/-- Runs that differ in the labels of others only look the same. -/
theorem Unwinds.view_run (h : Unwinds step view own) {s t : σ} (hview : view s = view t)
    {as bs : List α} (hown : as.filter own = bs.filter own) :
    view (run step s as) = view (run step t bs) := by
  rw [h.view_run_filter hview as, hown, ← h.view_run_filter rfl bs]

end Unwinding

/-! ## Steps that can fail -/

section Fallible

variable {ε : Type w}

/-- Fold a fallible step over a list of labels, up to the first failure. -/
def tryRun (step : σ → α → Except ε σ) : σ → List α → Except ε σ
  | s, [] => .ok s
  | s, a :: as => match step s a with
    | .ok s' => tryRun step s' as
    | .error e => .error e

@[simp] theorem tryRun_nil (step : σ → α → Except ε σ) (s : σ) : tryRun step s [] = .ok s := rfl

theorem tryRun_cons_ok {step : σ → α → Except ε σ} {s s' : σ} {a : α} (h : step s a = .ok s')
    (as : List α) : tryRun step s (a :: as) = tryRun step s' as := by
  rw [tryRun, h]

/-- Running a concatenation runs its second part from where the first one ends. -/
theorem tryRun_append_ok {step : σ → α → Except ε σ} {s s' : σ} {as : List α}
    (h : tryRun step s as = .ok s') (bs : List α) :
    tryRun step s (as ++ bs) = tryRun step s' bs := by
  induction as generalizing s with
  | nil => cases h; rfl
  | cons a as ih =>
    cases hstep : step s a with
    | error e => rw [tryRun, hstep] at h; cases h
    | ok s₁ =>
      rw [tryRun_cons_ok hstep] at h
      rw [List.cons_append, tryRun_cons_ok hstep, ih h]

/-- A run that ends with a last step has come to the state that step is taken from. -/
theorem tryRun_concat_eq_ok {step : σ → α → Except ε σ} {s s' : σ} {as : List α} {a : α}
    (h : tryRun step s (as ++ [a]) = .ok s') :
    ∃ s₁, tryRun step s as = .ok s₁ ∧ step s₁ a = .ok s' := by
  induction as generalizing s with
  | nil =>
    refine ⟨s, rfl, ?_⟩
    cases hstep : step s a with
    | error e => rw [List.nil_append, tryRun, hstep] at h; cases h
    | ok s₁ => rw [List.nil_append, tryRun_cons_ok hstep, tryRun_nil] at h; exact h
  | cons b as ih =>
    rw [List.cons_append] at h
    cases hstep : step s b with
    | error e => rw [tryRun, hstep] at h; cases h
    | ok s₁ =>
      rw [tryRun_cons_ok hstep] at h ⊢
      exact ih h

/-- Labels that stand for no step are left out of the run. -/
theorem tryRun_filterMap {β : Type*} (step : σ → α → Except ε σ) (label : β → Option α) (s : σ)
    (bs : List β) : tryRun (fun s b => (label b).elim (.ok s) (step s)) s bs =
      tryRun step s (bs.filterMap label) := by
  induction bs generalizing s with
  | nil => rfl
  | cons b bs ih =>
    rw [List.filterMap_cons]
    cases hb : label b with
    | none =>
      rw [tryRun, hb, Option.elim_none]
      exact ih s
    | some a =>
      simp only [tryRun, hb, Option.elim_some]
      cases step s a with
      | error e => rfl
      | ok s' => exact ih s'

/-- The run rule: an invariant under which every step succeeds carries the run through. -/
theorem tryRun_invariant {step : σ → α → Except ε σ} {I : σ → Prop}
    (hstep : ∀ s a, I s → ∃ s', step s a = .ok s' ∧ I s') {s : σ} (hs : I s) (as : List α) :
    ∃ s', tryRun step s as = .ok s' ∧ I s' := by
  induction as generalizing s with
  | nil => exact ⟨s, rfl, hs⟩
  | cons a as ih =>
    obtain ⟨s₁, h₁, hI⟩ := hstep s a hs
    rw [tryRun_cons_ok h₁]
    exact ih hI

/-- Every label up to the first failure meets the condition in the state it is taken from. -/
def TryAlong (step : σ → α → Except ε σ) (C : σ → α → Prop) : σ → List α → Prop
  | _, [] => True
  | s, a :: as => C s a ∧ match step s a with
    | .ok s' => TryAlong step C s' as
    | .error _ => True

instance TryAlong.decidable (step : σ → α → Except ε σ) (C : σ → α → Prop)
    [∀ s a, Decidable (C s a)] : ∀ s as, Decidable (TryAlong step C s as)
  | _, [] => isTrue trivial
  | s, a :: as =>
    have : Decidable (match step s a with
        | .ok s' => TryAlong step C s' as
        | .error _ => True) :=
      match step s a with
      | .ok s' => TryAlong.decidable step C s' as
      | .error _ => isTrue trivial
    inferInstanceAs (Decidable (C s a ∧ _))

/-- The run rule under a step condition, for runs that end. -/
theorem TryAlong.invariant {step : σ → α → Except ε σ} {C : σ → α → Prop} {I : σ → Prop}
    (hstep : ∀ s a s', I s → C s a → step s a = .ok s' → I s') {s s' : σ} {as : List α}
    (hs : I s) (ha : TryAlong step C s as) (hrun : tryRun step s as = .ok s') : I s' := by
  induction as generalizing s with
  | nil => cases hrun; exact hs
  | cons a as ih =>
    obtain ⟨hC, hrest⟩ := ha
    cases h : step s a with
    | error e => rw [tryRun, h] at hrun; cases hrun
    | ok s₁ =>
      rw [tryRun_cons_ok h] at hrun
      rw [h] at hrest
      exact ih (hstep s a s₁ hs hC h) hrest hrun

/-- A condition that holds along a run together with another one. -/
theorem TryAlong.and {step : σ → α → Except ε σ} {C D : σ → α → Prop} {s : σ} {as : List α}
    (hC : TryAlong step C s as) (hD : TryAlong step D s as) :
    TryAlong step (fun s a => C s a ∧ D s a) s as := by
  induction as generalizing s with
  | nil => trivial
  | cons a as ih =>
    refine ⟨⟨hC.1, hD.1⟩, ?_⟩
    have hC' := hC.2
    have hD' := hD.2
    cases h : step s a with
    | error e => trivial
    | ok s₁ => rw [h] at hC' hD'; exact ih hC' hD'

end Fallible

end Run

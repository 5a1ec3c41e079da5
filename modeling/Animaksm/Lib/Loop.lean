import Mathlib.Data.List.Basic

/-!
# Loops that stop at the first failure

A loop runs a fallible body on each item of a list and passes a state along. It
ends with the first failure, in the state that failure left. What the successful
rounds of a counted loop establish one by one holds when the loop succeeds.
-/

namespace Loop

universe u v w

variable {ε : Type u} {σ : Type v} {α β : Type w}

/-- Run the body on each item in turn, until one fails. -/
def forEach (body : α → σ → Except ε Unit × σ) : List α → σ → Except ε Unit × σ
  | [], s => (.ok (), s)
  | a :: as, s =>
    match body a s with
    | (.ok (), s) => forEach body as s
    | (.error err, s) => (.error err, s)

@[simp] theorem forEach_nil (body : α → σ → Except ε Unit × σ) (s : σ) :
    forEach body [] s = (.ok (), s) := rfl

theorem forEach_cons_ok {body : α → σ → Except ε Unit × σ} {a : α} {s s' : σ}
    (h : body a s = (.ok (), s')) (as : List α) :
    forEach body (a :: as) s = forEach body as s' := by
  rw [forEach, h]

theorem forEach_cons_error {body : α → σ → Except ε Unit × σ} {a : α} {s s' : σ} {err : ε}
    (h : body a s = (.error err, s')) (as : List α) :
    forEach body (a :: as) s = (.error err, s') := by
  rw [forEach, h]

/-- A loop over transformed items transforms each item in its body. -/
theorem forEach_map (body : β → σ → Except ε Unit × σ) (f : α → β) (as : List α) (s : σ) :
    forEach body (as.map f) s = forEach (fun a => body (f a)) as s := by
  induction as generalizing s with
  | nil => rfl
  | cons a as ih =>
    rw [List.map_cons]
    simp only [forEach]
    rcases body (f a) s with ⟨err | _, s'⟩
    · rfl
    · exact ih s'

/-- A loop that succeeds on its first items goes on with the others. -/
theorem forEach_append_ok {body : α → σ → Except ε Unit × σ} {as : List α} {s s' : σ}
    (h : forEach body as s = (.ok (), s')) (bs : List α) :
    forEach body (as ++ bs) s = forEach body bs s' := by
  induction as generalizing s with
  | nil =>
    rw [forEach_nil, Prod.mk.injEq] at h
    rw [List.nil_append, h.2]
  | cons a as ih =>
    rw [List.cons_append]
    rcases hb : body a s with ⟨err | _, s₁⟩
    · rw [forEach_cons_error hb] at h
      cases h
    · rw [forEach_cons_ok hb] at h ⊢
      exact ih h

/-- A loop that fails on its first items fails. -/
theorem forEach_append_error {body : α → σ → Except ε Unit × σ} {as : List α} {s s' : σ}
    {err : ε} (h : forEach body as s = (.error err, s')) (bs : List α) :
    forEach body (as ++ bs) s = (.error err, s') := by
  induction as generalizing s with
  | nil => cases h
  | cons a as ih =>
    rw [List.cons_append]
    rcases hb : body a s with ⟨err' | _, s₁⟩
    · rw [forEach_cons_error hb] at h ⊢
      exact h
    · rw [forEach_cons_ok hb] at h ⊢
      exact ih h

/-- The rounds before some round succeed and that round fails, exactly when the loop fails. -/
theorem forEach_error_iff {body : Nat → σ → Except ε Unit × σ} {n : Nat} {s : σ} {err : ε} :
    (forEach body (List.range n) s).1 = .error err ↔
      ∃ i < n, ∃ sᵢ, forEach body (List.range i) s = (.ok (), sᵢ) ∧
        (body i sᵢ).1 = .error err := by
  induction n with
  | zero => simp
  | succ n ih =>
    rw [List.range_succ]
    rcases h : forEach body (List.range n) s with ⟨err' | _, s'⟩
    · rw [forEach_append_error h]
      rw [h] at ih
      rw [ih]
      constructor
      · rintro ⟨i, hi, hfail⟩
        exact ⟨i, Nat.lt_succ_of_lt hi, hfail⟩
      · rintro ⟨i, hi, sᵢ, hok, hfail⟩
        rcases Nat.lt_succ_iff_lt_or_eq.mp hi with hi | rfl
        · exact ⟨i, hi, sᵢ, hok, hfail⟩
        · rw [h] at hok
          cases hok
    · rw [forEach_append_ok h]
      rcases hb : body n s' with ⟨err' | _, s''⟩
      · rw [forEach_cons_error hb]
        constructor
        · intro herr
          exact ⟨n, Nat.lt_succ_self n, s', h, by rw [hb]; exact herr⟩
        · rintro ⟨i, hi, sᵢ, hok, hfail⟩
          rcases Nat.lt_succ_iff_lt_or_eq.mp hi with hi | rfl
          · have hn := ih.mpr ⟨i, hi, sᵢ, hok, hfail⟩
            rw [h] at hn
            cases hn
          · rw [h, Prod.mk.injEq] at hok
            rw [← hok.2, hb] at hfail
            exact hfail
      · rw [forEach_cons_ok hb, forEach_nil]
        constructor
        · intro herr
          cases herr
        · rintro ⟨i, hi, sᵢ, hok, hfail⟩
          rcases Nat.lt_succ_iff_lt_or_eq.mp hi with hi | rfl
          · have hn := ih.mpr ⟨i, hi, sᵢ, hok, hfail⟩
            rw [h] at hn
            cases hn
          · rw [h, Prod.mk.injEq] at hok
            rw [← hok.2, hb] at hfail
            cases hfail

/-- The rule for counted loops: what each successful round moves one step further holds
for the whole count when the loop succeeds. -/
theorem forEach_range_ok {body : Nat → σ → Except ε Unit × σ} {I : Nat → σ → Prop} {n : Nat}
    {s s' : σ} (hstep : ∀ i < n, ∀ t t', I i t → body i t = (.ok (), t') → I (i + 1) t')
    (hs : I 0 s) (h : forEach body (List.range n) s = (.ok (), s')) : I n s' := by
  induction n generalizing s' with
  | zero =>
    rw [List.range_zero, forEach_nil, Prod.mk.injEq] at h
    rwa [← h.2]
  | succ n ih =>
    rw [List.range_succ] at h
    rcases hn : forEach body (List.range n) s with ⟨err | _, t⟩
    · rw [forEach_append_error hn] at h
      cases h
    · rw [forEach_append_ok hn] at h
      rcases hb : body n t with ⟨err | _, t'⟩
      · rw [forEach_cons_error hb] at h
        cases h
      · rw [forEach_cons_ok hb, forEach_nil, Prod.mk.injEq] at h
        have hI := ih (fun i hi => hstep i (Nat.lt_succ_of_lt hi)) hn
        rw [← h.2]
        exact hstep n (Nat.lt_succ_self n) t t' hI hb

/-- What every round keeps, successful or not, the loop keeps. -/
theorem forEach_keeps {body : α → σ → Except ε Unit × σ} {P : σ → Prop} {as : List α}
    (h : ∀ a ∈ as, ∀ s, P s → P (body a s).2) {s : σ} (hs : P s) : P (forEach body as s).2 := by
  induction as generalizing s with
  | nil => exact hs
  | cons a as ih =>
    have ha := h a List.mem_cons_self s hs
    rcases hb : body a s with ⟨err | _, s'⟩
    · rw [forEach_cons_error hb]
      rwa [hb] at ha
    · rw [forEach_cons_ok hb]
      rw [hb] at ha
      exact ih (fun b hb => h b (List.mem_cons_of_mem a hb)) ha

/-! ## The rounds before a failure -/

/-- Number of items on which the body succeeds before the loop ends. -/
def completed (body : α → σ → Except ε Unit × σ) : List α → σ → Nat
  | [], _ => 0
  | a :: as, s =>
    match body a s with
    | (.ok (), s) => completed body as s + 1
    | (.error _, _) => 0

theorem completed_cons_ok {body : α → σ → Except ε Unit × σ} {a : α} {s s' : σ}
    (h : body a s = (.ok (), s')) (as : List α) :
    completed body (a :: as) s = completed body as s' + 1 := by
  rw [completed, h]

theorem completed_cons_error {body : α → σ → Except ε Unit × σ} {a : α} {s s' : σ} {err : ε}
    (h : body a s = (.error err, s')) (as : List α) : completed body (a :: as) s = 0 := by
  rw [completed, h]

/-- A loop succeeds when it completes all its items. -/
theorem forEach_isOk_iff (body : α → σ → Except ε Unit × σ) (as : List α) (s : σ) :
    (forEach body as s).1.isOk = true ↔ completed body as s = as.length := by
  induction as generalizing s with
  | nil => exact iff_of_true rfl rfl
  | cons a as ih =>
    rcases hb : body a s with ⟨err | _, s'⟩
    · rw [forEach_cons_error hb, completed_cons_error hb, List.length_cons]
      exact iff_of_false (fun h => by cases h) (Nat.succ_ne_zero _).symm
    · rw [forEach_cons_ok hb, completed_cons_ok hb, List.length_cons, Nat.succ_inj]
      exact ih s'

/-- The rule for counted loops that may fail: what each successful round moves one step further and a
failing one keeps holds in the end for the completed rounds. -/
theorem forEach_range'_completed {body : Nat → σ → Except ε Unit × σ} {I : Nat → σ → Prop}
    {first n : Nat} {s : σ}
    (hstep : ∀ i < first + n, ∀ t t', I i t → body i t = (.ok (), t') → I (i + 1) t')
    (hfail : ∀ i < first + n, ∀ t t' err, I i t → body i t = (.error err, t') → I i t')
    (hs : I first s) :
    I (first + completed body (List.range' first n) s) (forEach body (List.range' first n) s).2 := by
  induction n generalizing first s with
  | zero => exact hs
  | succ n ih =>
    rw [List.range'_succ]
    have hfirst : first < first + (n + 1) := by omega
    rcases hb : body first s with ⟨err | _, s'⟩
    · rw [forEach_cons_error hb, completed_cons_error hb]
      exact hfail first hfirst s s' err hs hb
    · have hrest := @ih (first + 1) s' (fun i hi => hstep i (by omega))
        (fun i hi => hfail i (by omega)) (hstep first hfirst s s' hs hb)
      rw [forEach_cons_ok hb, completed_cons_ok hb]
      rwa [Nat.add_assoc, Nat.add_comm 1] at hrest

theorem forEach_range_completed {body : Nat → σ → Except ε Unit × σ} {I : Nat → σ → Prop} {n : Nat}
    {s : σ} (hstep : ∀ i < n, ∀ t t', I i t → body i t = (.ok (), t') → I (i + 1) t')
    (hfail : ∀ i < n, ∀ t t' err, I i t → body i t = (.error err, t') → I i t') (hs : I 0 s) :
    I (completed body (List.range n) s) (forEach body (List.range n) s).2 := by
  have h := @forEach_range'_completed ε σ body I 0 n s (fun i hi => hstep i (by omega))
    (fun i hi => hfail i (by omega)) hs
  rwa [← List.range_eq_range', Nat.zero_add] at h

end Loop

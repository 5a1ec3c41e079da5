import Animaksm.Lib.Run
import Mathlib.Logic.Function.Basic

/-!
# A grow-only set shared by threads

Elements are only ever added to a store. A key stands for several elements, and any
number of threads add keys and ask for keys element by element. An answer lies
between those of two stores that were filled key by key: one with the keys that were
added when the question began, one with those begun when it was answered.
-/

namespace GrowOnly

/-- A store of elements, with the elements that a key stands for. -/
structure Ops (σ κ α : Type*) where
  parts : σ → κ → List α
  set : σ → α → σ
  test : σ → α → Bool

variable {σ κ α : Type*}

/-- An element of a key that is added is what changes. -/
structure Lawful (ops : Ops σ κ α) : Prop where
  parts_set : ∀ s a k, ops.parts (ops.set s a) k = ops.parts s k
  test_set : ∀ {s k a} b, a ∈ ops.parts s k →
    (ops.test (ops.set s a) b = true ↔ b = a ∨ ops.test s b = true)

/-! ## One key at a time -/

namespace Ops

variable (ops : Ops σ κ α)

/-- Add the elements of a key. -/
def add (s : σ) (k : κ) : σ := (ops.parts s k).foldl ops.set s

/-- Ask for the elements of a key. -/
def has (s : σ) (k : κ) : Bool := (ops.parts s k).all (ops.test s)

def addAll (s : σ) (ks : List κ) : σ := ks.foldl ops.add s

end Ops

namespace Lawful

variable {ops : Ops σ κ α} (h : Lawful ops)

include h

theorem parts_foldl (s : σ) (k : κ) (as : List α) :
    ops.parts (as.foldl ops.set s) k = ops.parts s k := by
  induction as generalizing s with
  | nil => rfl
  | cons a as ih => rw [List.foldl_cons, ih, h.parts_set]

theorem test_foldl {s : σ} {k : κ} {as : List α} (has : ∀ a ∈ as, a ∈ ops.parts s k) (b : α) :
    ops.test (as.foldl ops.set s) b = true ↔ b ∈ as ∨ ops.test s b = true := by
  induction as generalizing s with
  | nil => simp only [List.foldl_nil, List.not_mem_nil, false_or]
  | cons a as ih =>
    have hrest : ∀ c ∈ as, c ∈ ops.parts (ops.set s a) k := fun c hc => by
      rw [h.parts_set]
      exact has c (List.mem_cons_of_mem a hc)
    rw [List.foldl_cons, ih hrest, h.test_set b (has a List.mem_cons_self), List.mem_cons, or_left_comm,
      or_assoc]

theorem parts_add (s : σ) (k l : κ) : ops.parts (ops.add s k) l = ops.parts s l := h.parts_foldl ..

theorem parts_addAll (s : σ) (ks : List κ) (l : κ) :
    ops.parts (ops.addAll s ks) l = ops.parts s l := by
  induction ks generalizing s with
  | nil => rfl
  | cons k ks ih => exact (ih _).trans (h.parts_add s k l)

/-- A store that was filled key by key holds the elements of the keys. -/
theorem test_addAll (s : σ) (ks : List κ) (b : α) :
    ops.test (ops.addAll s ks) b = true ↔ (∃ k ∈ ks, b ∈ ops.parts s k) ∨ ops.test s b = true := by
  induction ks generalizing s with
  | nil => simp [Ops.addAll]
  | cons k ks ih =>
    have hcons : ops.addAll s (k :: ks) = ops.addAll (ops.add s k) ks := rfl
    rw [hcons, ih, Ops.add, h.test_foldl (fun _ ha => ha)]
    simp only [h.parts_foldl, List.exists_mem_cons_iff, or_left_comm, or_assoc]

theorem has_addAll (s : σ) (ks : List κ) (k : κ) : ops.has (ops.addAll s ks) k = true ↔
    ∀ a ∈ ops.parts s k, (∃ l ∈ ks, a ∈ ops.parts s l) ∨ ops.test s a = true := by
  rw [Ops.has, List.all_eq_true, h.parts_addAll]
  exact forall₂_congr fun a _ => h.test_addAll s ks a

end Lawful

/-! ## Threads -/

/-- What a thread has still to do. -/
inductive Task (κ α : Type*) where
  | idle
  /-- Add these elements of the key. -/
  | adding (k : κ) (rest : List α)
  /-- Ask for these elements of the key; when the question began these keys had been added. -/
  | asking (k : κ) (before : List κ) (rest : List α)

/-- An answer, with the keys that had been added when the question began and those whose addition
had begun when it was answered. -/
structure Answer (κ : Type*) where
  key : κ
  before : List κ
  begun : List κ
  has : Bool

/-- Threads that share a store. -/
structure State (n : Nat) (σ κ α : Type*) where
  store : σ
  tasks : Fin n → Task κ α
  /-- The keys whose addition has begun. -/
  begun : List κ
  /-- The keys whose addition has ended. -/
  finished : List κ
  answers : List (Answer κ)

inductive Label (n : Nat) (κ : Type*) where
  | add (i : Fin n) (k : κ)
  | ask (i : Fin n) (k : κ)
  | advance (i : Fin n)

variable {n : Nat}

def start (n : Nat) (κ α : Type*) (store : σ) : State n σ κ α :=
  ⟨store, fun _ => .idle, [], [], []⟩

/-- An idle thread begins to add or to ask for a key. -/
def State.begin (ops : Ops σ κ α) (s : State n σ κ α) (i : Fin n) (k : κ) (asks : Bool) :
    State n σ κ α :=
  match s.tasks i, asks with
  | .idle, true =>
    { s with tasks := Function.update s.tasks i (.asking k s.finished (ops.parts s.store k)) }
  | .idle, false =>
    { s with
      tasks := Function.update s.tasks i (.adding k (ops.parts s.store k))
      begun := k :: s.begun }
  | _, _ => s

/-- A thread goes on with its next element, or ends. -/
def State.advance (ops : Ops σ κ α) (s : State n σ κ α) (i : Fin n) : State n σ κ α :=
  match s.tasks i with
  | .idle => s
  | .adding k (a :: rest) =>
    { s with
      store := ops.set s.store a
      tasks := Function.update s.tasks i (.adding k rest) }
  | .adding k [] =>
    { s with
      tasks := Function.update s.tasks i .idle
      finished := k :: s.finished }
  | .asking k before (a :: rest) =>
    if ops.test s.store a then
      { s with tasks := Function.update s.tasks i (.asking k before rest) }
    else
      { s with
        tasks := Function.update s.tasks i .idle
        answers := ⟨k, before, s.begun, false⟩ :: s.answers }
  | .asking k before [] =>
    { s with
      tasks := Function.update s.tasks i .idle
      answers := ⟨k, before, s.begun, true⟩ :: s.answers }

def step (ops : Ops σ κ α) (s : State n σ κ α) : Label n κ → State n σ κ α
  | .add i k => s.begin ops i k false
  | .ask i k => s.begin ops i k true
  | .advance i => s.advance ops i

theorem store_begin (ops : Ops σ κ α) (s : State n σ κ α) (i : Fin n) (k : κ) (asks : Bool) :
    (s.begin ops i k asks).store = s.store := by
  unfold State.begin
  split <;> rfl

/-- A thread that goes on sets at most one element. -/
theorem store_advance (ops : Ops σ κ α) (s : State n σ κ α) (i : Fin n) :
    (s.advance ops i).store = s.store ∨ ∃ a, (s.advance ops i).store = ops.set s.store a := by
  unfold State.advance
  split
  · exact .inl rfl
  · next a rest _ => exact .inr ⟨a, rfl⟩
  · exact .inl rfl
  · split
    · exact .inl rfl
    · exact .inl rfl
  · exact .inl rfl

/-- What setting an element keeps holds of the store in every interleaving. -/
theorem run_store {ops : Ops σ κ α} {P : σ → Prop} (hset : ∀ s a, P s → P (ops.set s a)) {first : σ}
    (hfirst : P first) (labels : List (Label n κ)) :
    P (Run.run (step ops) (start n κ α first) labels).store := by
  refine Run.run_invariant (I := fun s : State n σ κ α => P s.store) (fun s label hs => ?_) hfirst labels
  cases label with
  | add i k => exact (store_begin ops s i k false).symm ▸ hs
  | ask i k => exact (store_begin ops s i k true).symm ▸ hs
  | advance i =>
    change P (s.advance ops i).store
    rcases store_advance ops s i with h | ⟨a, h⟩
    · rwa [h]
    · rw [h]
      exact hset _ a hs

/-! ## What holds in every interleaving -/

/-- The elements of the key are still to be handled or in the store. -/
def Handled (ops : Ops σ κ α) (first : σ) (store : σ) (k : κ) (rest : List α) : Prop :=
  (∀ a ∈ rest, a ∈ ops.parts first k) ∧
    ∀ a ∈ ops.parts first k, a ∈ rest ∨ ops.test store a = true

/-- What holds of a task. -/
def Task.Sound (ops : Ops σ κ α) (first : σ) (s : State n σ κ α) : Task κ α → Prop
  | .idle => True
  | .adding k rest => k ∈ s.begun ∧ Handled ops first s.store k rest
  | .asking k before rest => (∀ l ∈ before, l ∈ s.finished) ∧ Handled ops first s.store k rest

/-- An answer lies between those of two stores that were filled key by key. -/
def Answer.Between (ops : Ops σ κ α) (first : σ) (answer : Answer κ) : Prop :=
  (ops.has (ops.addAll first answer.before) answer.key = true → answer.has = true) ∧
    (answer.has = true → ops.has (ops.addAll first answer.begun) answer.key = true)

/-- The store holds what was finished and nothing that was not begun. -/
structure Sound (ops : Ops σ κ α) (first : σ) (s : State n σ κ α) : Prop where
  parts : ∀ k, ops.parts s.store k = ops.parts first k
  kept : ∀ a, ops.test first a = true → ops.test s.store a = true
  finished : ∀ k ∈ s.finished, ∀ a ∈ ops.parts first k, ops.test s.store a = true
  begun : ∀ a, ops.test s.store a = true →
    (∃ k ∈ s.begun, a ∈ ops.parts first k) ∨ ops.test first a = true
  pending : ∀ k ∈ s.begun, k ∈ s.finished ∨ ∃ i rest, s.tasks i = .adding k rest
  tasks : ∀ i, (s.tasks i).Sound ops first s
  answers : ∀ answer ∈ s.answers, answer.Between ops first

theorem sound_start (ops : Ops σ κ α) (first : σ) : Sound ops first (start n κ α first) where
  parts _ := rfl
  kept _ h := h
  finished _ h := absurd h List.not_mem_nil
  begun _ h := .inr h
  pending _ h := absurd h List.not_mem_nil
  tasks _ := trivial
  answers _ h := absurd h List.not_mem_nil

variable {ops : Ops σ κ α} {first : σ} {s : State n σ κ α}

theorem Handled.mono {store store' : σ} {k : κ} {rest : List α} (h : Handled ops first store k rest)
    (hstore : ∀ a, ops.test store a = true → ops.test store' a = true) :
    Handled ops first store' k rest :=
  ⟨h.1, fun a ha => (h.2 a ha).imp_right (hstore a)⟩

/-- The next element has been handled. -/
theorem Handled.tail {store : σ} {k : κ} {a : α} {rest : List α}
    (h : Handled ops first store k (a :: rest)) (ha : ops.test store a = true) :
    Handled ops first store k rest := by
  refine ⟨fun b hb => h.1 b (List.mem_cons_of_mem a hb), fun b hb => ?_⟩
  rcases h.2 b hb with hmem | hset
  · rcases List.mem_cons.mp hmem with rfl | hmem
    · exact .inr ha
    · exact .inl hmem
  · exact .inr hset

/-- What holds of a task goes on to hold while elements and keys are only added. -/
theorem Task.Sound.mono {t : Task κ α} {s' : State n σ κ α} (h : t.Sound ops first s)
    (hstore : ∀ a, ops.test s.store a = true → ops.test s'.store a = true)
    (hbegun : ∀ k ∈ s.begun, k ∈ s'.begun) (hfinished : ∀ k ∈ s.finished, k ∈ s'.finished) :
    t.Sound ops first s' := by
  cases t with
  | idle => trivial
  | adding k rest => exact ⟨hbegun k h.1, h.2.mono hstore⟩
  | asking k before rest => exact ⟨fun l hl => hfinished l (h.1 l hl), h.2.mono hstore⟩

/-- A thread moves on, and the tasks of the others go on to hold. -/
theorem tasks_update {i : Fin n} {t : Task κ α} {s' : State n σ κ α}
    (h : ∀ j, (s.tasks j).Sound ops first s')
    (ht : t.Sound ops first s') : ∀ j, (Function.update s.tasks i t j).Sound ops first s' := by
  intro j
  by_cases hj : j = i
  · subst hj
    rw [Function.update_self]
    exact ht
  · rw [Function.update_of_ne hj]
    exact h j

/-- A key that is being added goes on to be, unless its thread moves on. -/
theorem pending_update {i : Fin n} {t : Task κ α} {k : κ}
    (h : k ∈ s.finished ∨ ∃ j rest, s.tasks j = .adding k rest)
    (hi : ∀ rest, s.tasks i = .adding k rest → k ∈ s.finished ∨ ∃ rest', t = .adding k rest') :
    k ∈ s.finished ∨ ∃ j rest, Function.update s.tasks i t j = .adding k rest := by
  rcases h with hfinished | ⟨j, rest, hj⟩
  · exact .inl hfinished
  · by_cases hij : j = i
    · subst hij
      rcases hi rest hj with hfinished | ⟨rest', rfl⟩
      · exact .inl hfinished
      · exact .inr ⟨j, rest', Function.update_self ..⟩
    · exact .inr ⟨j, rest, (Function.update_of_ne hij ..).trans hj⟩

/-- An addition begins. -/
theorem Sound.beginAdd (h : Sound ops first s) {i : Fin n} (hi : s.tasks i = .idle) (k : κ) :
    Sound ops first (s.begin ops i k false) := by
  have hbegin : s.begin ops i k false = { s with
      tasks := Function.update s.tasks i (.adding k (ops.parts s.store k))
      begun := k :: s.begun } := by
    unfold State.begin
    rw [hi]
  rw [hbegin]
  refine ⟨h.parts, h.kept, h.finished, fun a ha => ?_, fun l hl => ?_, ?_, h.answers⟩
  · refine (h.begun a ha).imp_left ?_
    rintro ⟨l, hl, hmem⟩
    exact ⟨l, List.mem_cons_of_mem k hl, hmem⟩
  · rcases List.mem_cons.mp hl with rfl | hl
    · exact .inr ⟨i, _, Function.update_self ..⟩
    · exact pending_update (h.pending l hl) fun rest hrest => by rw [hi] at hrest; cases hrest
  · refine tasks_update (fun j => ?_) ⟨List.mem_cons_self, ?_⟩
    · exact (h.tasks j).mono (fun _ => id) (fun _ => List.mem_cons_of_mem k) (fun _ => id)
    · rw [h.parts]
      exact ⟨fun _ => id, fun _ ha => .inl ha⟩

/-- A question begins. -/
theorem Sound.beginAsk (h : Sound ops first s) {i : Fin n} (hi : s.tasks i = .idle) (k : κ) :
    Sound ops first (s.begin ops i k true) := by
  have hbegin : s.begin ops i k true = { s with
      tasks := Function.update s.tasks i (.asking k s.finished (ops.parts s.store k)) } := by
    unfold State.begin
    rw [hi]
  rw [hbegin]
  refine ⟨h.parts, h.kept, h.finished, h.begun, fun l hl => ?_, ?_, h.answers⟩
  · exact pending_update (h.pending l hl) fun rest hrest => by rw [hi] at hrest; cases hrest
  · refine tasks_update h.tasks ⟨fun _ => id, ?_⟩
    rw [h.parts]
    exact ⟨fun _ => id, fun _ ha => .inl ha⟩

theorem Sound.begin (h : Sound ops first s) (i : Fin n) (k : κ) (asks : Bool) :
    Sound ops first (s.begin ops i k asks) := by
  cases hi : s.tasks i with
  | idle =>
    cases asks with
    | false => exact h.beginAdd hi k
    | true => exact h.beginAsk hi k
  | adding l rest =>
    unfold State.begin
    rwa [hi]
  | asking l before rest =>
    unfold State.begin
    rwa [hi]

/-- An element is added. -/
theorem Sound.set (hlawful : Lawful ops) (h : Sound ops first s) {i : Fin n} {k : κ} {a : α}
    {rest : List α} (hi : s.tasks i = .adding k (a :: rest)) : Sound ops first (s.advance ops i) := by
  have hadvance : s.advance ops i = { s with
      store := ops.set s.store a
      tasks := Function.update s.tasks i (.adding k rest) } := by rw [State.advance, hi]
  have htask := h.tasks i
  rw [hi] at htask
  obtain ⟨hbegun, hhandled⟩ := htask
  have hpart : a ∈ ops.parts first k := hhandled.1 a List.mem_cons_self
  have htest : ∀ b, ops.test (ops.set s.store a) b = true ↔ b = a ∨ ops.test s.store b = true :=
    fun b => hlawful.test_set b (by rw [h.parts]; exact hpart)
  have hgrows : ∀ b, ops.test s.store b = true → ops.test (ops.set s.store a) b = true :=
    fun b hb => (htest b).mpr (.inr hb)
  rw [hadvance]
  refine ⟨fun l => ?_, fun b hb => hgrows b (h.kept b hb), fun l hl b hb => hgrows b (h.finished l hl b hb),
    fun b hb => ?_, fun l hl => ?_, ?_, h.answers⟩
  · rw [hlawful.parts_set, h.parts]
  · rcases (htest b).mp hb with rfl | hb
    · exact .inl ⟨k, hbegun, hpart⟩
    · exact h.begun b hb
  · refine pending_update (h.pending l hl) fun rest' hrest' => ?_
    rw [hi] at hrest'
    cases hrest'
    exact .inr ⟨rest, rfl⟩
  · refine tasks_update (fun j => (h.tasks j).mono hgrows (fun _ => id) (fun _ => id)) ⟨hbegun, ?_⟩
    exact (hhandled.mono hgrows).tail ((htest a).mpr (.inl rfl))

/-- An addition ends. -/
theorem Sound.finish (h : Sound ops first s) {i : Fin n} {k : κ} (hi : s.tasks i = .adding k []) :
    Sound ops first (s.advance ops i) := by
  have hadvance : s.advance ops i = { s with
      tasks := Function.update s.tasks i .idle
      finished := k :: s.finished } := by rw [State.advance, hi]
  have htask := h.tasks i
  rw [hi] at htask
  rw [hadvance]
  refine ⟨h.parts, h.kept, fun l hl a ha => ?_, h.begun, fun l hl => ?_, ?_, h.answers⟩
  · rcases List.mem_cons.mp hl with rfl | hl
    · exact (htask.2.2 a ha).resolve_left List.not_mem_nil
    · exact h.finished l hl a ha
  · refine @pending_update σ κ α n { s with finished := k :: s.finished } i .idle l
      ((h.pending l hl).imp_left (List.mem_cons_of_mem k)) fun rest hrest => ?_
    rw [hi] at hrest
    cases hrest
    exact .inl List.mem_cons_self
  · refine tasks_update (fun j => ?_) trivial
    exact (h.tasks j).mono (fun _ => id) (fun _ => id) (fun _ => List.mem_cons_of_mem k)

/-- A question goes on. -/
theorem Sound.asked (h : Sound ops first s) {i : Fin n} {k : κ} {before : List κ} {a : α}
    {rest : List α} (hi : s.tasks i = .asking k before (a :: rest)) (ha : ops.test s.store a = true) :
    Sound ops first (s.advance ops i) := by
  have hadvance : s.advance ops i = { s with
      tasks := Function.update s.tasks i (.asking k before rest) } := by
    rw [State.advance, hi]
    exact if_pos ha
  have htask := h.tasks i
  rw [hi] at htask
  rw [hadvance]
  refine ⟨h.parts, h.kept, h.finished, h.begun, fun l hl => ?_, ?_, h.answers⟩
  · exact pending_update (h.pending l hl) fun rest hrest => by rw [hi] at hrest; cases hrest
  · exact tasks_update h.tasks ⟨htask.1, htask.2.tail ha⟩

/-- A question is answered. -/
theorem Sound.answered (h : Sound ops first s) {i : Fin n} {k : κ} {before : List κ} {rest : List α}
    (hi : s.tasks i = .asking k before rest) {has : Bool}
    (hbetween : Answer.Between ops first ⟨k, before, s.begun, has⟩) :
    Sound ops first { s with
      tasks := Function.update s.tasks i .idle
      answers := ⟨k, before, s.begun, has⟩ :: s.answers } := by
  refine ⟨h.parts, h.kept, h.finished, h.begun, fun l hl => ?_, tasks_update h.tasks trivial,
    List.forall_mem_cons.mpr ⟨hbetween, h.answers⟩⟩
  exact pending_update (h.pending l hl) fun rest hrest => by rw [hi] at hrest; cases hrest

/-- An element that is missing was in no store of the keys added before. -/
theorem Sound.between_false (hlawful : Lawful ops) (h : Sound ops first s) {k : κ} {before : List κ}
    {a : α} (hbefore : ∀ l ∈ before, l ∈ s.finished) (hpart : a ∈ ops.parts first k)
    (ha : ops.test s.store a = false) : Answer.Between ops first ⟨k, before, s.begun, false⟩ := by
  refine ⟨fun hhas => absurd ha (Bool.not_eq_false _ ▸ ?_), fun hfalse => by cases hfalse⟩
  rcases (hlawful.has_addAll first before k).mp hhas a hpart with ⟨l, hl, hmem⟩ | hfirst
  · exact h.finished l (hbefore l hl) a hmem
  · exact h.kept a hfirst

/-- Elements that have all been found are in the store of the keys begun so far. -/
theorem Sound.between_true (hlawful : Lawful ops) (h : Sound ops first s) {k : κ} {before : List κ}
    (hhandled : Handled ops first s.store k []) :
    Answer.Between ops first ⟨k, before, s.begun, true⟩ := by
  refine ⟨fun _ => rfl, fun _ => (hlawful.has_addAll first s.begun k).mpr fun a ha => ?_⟩
  exact h.begun a ((hhandled.2 a ha).resolve_left List.not_mem_nil)

theorem Sound.advance (hlawful : Lawful ops) (h : Sound ops first s) (i : Fin n) :
    Sound ops first (s.advance ops i) := by
  have htask := h.tasks i
  cases hi : s.tasks i with
  | idle => rwa [State.advance, hi]
  | adding k rest =>
    cases rest with
    | nil => exact h.finish hi
    | cons a rest => exact h.set hlawful hi
  | asking k before rest =>
    rw [hi] at htask
    cases rest with
    | nil =>
      rw [State.advance, hi]
      exact h.answered hi (h.between_true hlawful htask.2)
    | cons a rest =>
      cases ha : ops.test s.store a with
      | true => exact h.asked hi ha
      | false =>
        have hpart := htask.2.1 a List.mem_cons_self
        rw [State.advance, hi]
        dsimp only
        rw [if_neg (by rw [ha]; exact Bool.false_ne_true)]
        exact h.answered hi (h.between_false hlawful htask.1 hpart ha)

theorem Sound.step (hlawful : Lawful ops) (h : Sound ops first s) (label : Label n κ) :
    Sound ops first (step ops s label) := by
  cases label with
  | add i k => exact h.begin i k false
  | ask i k => exact h.begin i k true
  | advance i => exact h.advance hlawful i

/-- In every interleaving each answer lies between those of two stores that were filled key by key. -/
theorem run_sound (hlawful : Lawful ops) (first : σ) (labels : List (Label n κ)) :
    Sound ops first (Run.run (step ops) (start n κ α first) labels) :=
  Run.run_invariant (fun _ label h => h.step hlawful label) (sound_start ops first) labels

/-- When nothing is being added the store is as if it had been filled key by key. -/
theorem Sound.test_eq (hlawful : Lawful ops) (h : Sound ops first s)
    (hidle : ∀ i k rest, s.tasks i ≠ .adding k rest) (a : α) :
    ops.test s.store a = ops.test (ops.addAll first s.begun) a := by
  rw [Bool.eq_iff_iff, hlawful.test_addAll]
  refine ⟨h.begun a, ?_⟩
  rintro (⟨k, hk, hmem⟩ | hfirst)
  · rcases h.pending k hk with hfinished | ⟨i, rest, hi⟩
    · exact h.finished k hfinished a hmem
    · exact absurd hi (hidle i k rest)
  · exact h.kept a hfirst

end GrowOnly

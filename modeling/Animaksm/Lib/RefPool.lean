import Mathlib.Data.Multiset.Filter
import Mathlib.Data.Multiset.Range
import Mathlib.Data.Multiset.Replicate
import Mathlib.Data.Multiset.UnionInter
import Mathlib.Logic.Function.Basic

/-!
# Reference-counted cells

A pool hands out storage cells. A claim owns its cell alone, or is one of the
counted users of a cell that a table shares under a key. The accounts say that
the cells handed out are exactly the ones some claim names, that a shared cell
has exactly as many users as its count, and that every other claimed cell has a
single user. A shared claim whose key the table has dropped, or shares at some
other cell, is such a single user: the table may forget a key without asking
the claims.
-/

namespace RefPool

universe u

variable {K : Type u}

/-- A right to a cell: sole ownership, or one counted use of a shared cell. -/
inductive Claim (K : Type u) where
  | sole (cell : Nat)
  | shared (key : K) (cell : Nat)
  deriving DecidableEq

/-- The cell a claim names. -/
def Claim.cell : Claim K → Nat
  | .sole c => c
  | .shared _ c => c

@[simp] theorem Claim.cell_sole (c : Nat) : (Claim.sole c : Claim K).cell = c := rfl

@[simp] theorem Claim.cell_shared (k : K) (c : Nat) : (Claim.shared k c).cell = c := rfl

/-- Recycled cells, the first cell never handed out, and the shared cells with their counts. -/
structure Pool (K : Type u) where
  /-- Cells given back and not handed out again. -/
  free : List Nat
  /-- Every cell from here on is untouched. -/
  next : Nat
  /-- The count and the cell shared under a key. -/
  table : K → Option (Nat × Nat)

/-- The table currently counts this claim. -/
def Pool.Counts (p : Pool K) (x : Claim K) : Prop :=
  ∃ k n, x = .shared k x.cell ∧ p.table k = some (n, x.cell)

/-- The claims on one cell. -/
def users (E : Multiset (Claim K)) (c : Nat) : Multiset (Claim K) := E.filter fun x => x.cell = c

@[simp] theorem users_cons_self (x : Claim K) (E : Multiset (Claim K)) :
    users (x ::ₘ E) x.cell = x ::ₘ users E x.cell := by
  simp [users]

theorem users_cons_of_ne {x : Claim K} {c : Nat} (h : x.cell ≠ c) (E : Multiset (Claim K)) :
    users (x ::ₘ E) c = users E c := by
  simp [users, h]

theorem mem_users {E : Multiset (Claim K)} {c : Nat} {x : Claim K} :
    x ∈ users E c ↔ x ∈ E ∧ x.cell = c := Multiset.mem_filter

/-- A cell without users is named by no claim. -/
theorem users_eq_zero {E : Multiset (Claim K)} {c : Nat} :
    users E c = 0 ↔ ∀ x ∈ E, x.cell ≠ c := Multiset.filter_eq_nil

/-- The books of a pool against the multiset of all outstanding claims. -/
structure Accounts (p : Pool K) (E : Multiset (Claim K)) : Prop where
  /-- No cell is given back twice. -/
  free_nodup : p.free.Nodup
  /-- Only cells that were handed out come back. -/
  free_lt : ∀ c ∈ p.free, c < p.next
  /-- Claims name handed-out cells. -/
  claim_lt : ∀ x ∈ E, x.cell < p.next
  /-- A claimed cell is not free. -/
  claim_not_free : ∀ x ∈ E, x.cell ∉ p.free
  /-- No handed-out cell is lost. -/
  covered : ∀ c < p.next, c ∈ p.free ∨ ∃ x ∈ E, x.cell = c
  /-- A shared cell has exactly its counted users, and at least one. -/
  counted : ∀ k n c, p.table k = some (n, c) → 0 < n ∧ users E c = Multiset.replicate n (.shared k c)
  /-- Every claim the table does not count is the only user of its cell. -/
  alone : ∀ x ∈ E, ¬ p.Counts x → users E x.cell = {x}

section Rules

variable {p : Pool K} {E : Multiset (Claim K)}

/-- Nothing is claimed of an untouched pool. -/
theorem Accounts.fresh : Accounts (⟨[], 0, fun _ => none⟩ : Pool K) 0 where
  free_nodup := List.nodup_nil
  free_lt := by simp
  claim_lt := by simp
  claim_not_free := by simp
  covered := by simp
  counted := by simp
  alone := by simp

/-- A sole claim is the only user of its cell. -/
theorem Accounts.users_sole {c : Nat} (h : Accounts p (.sole c ::ₘ E)) : users E c = 0 := by
  have hnot : ¬ p.Counts (.sole c) := by
    rintro ⟨k, n, hk, -⟩
    cases hk
  have halone := h.alone (.sole c) (Multiset.mem_cons_self _ _) hnot
  rw [users_cons_self, ← Multiset.cons_zero (Claim.sole c), Multiset.cons_inj_right] at halone
  exact halone

/-- A sole claim shares its cell with no other claim. -/
theorem Accounts.cell_ne_of_sole {c : Nat} (h : Accounts p (.sole c ::ₘ E)) {x : Claim K}
    (hx : x ∈ E) : x.cell ≠ c := users_eq_zero.mp h.users_sole x hx

/-- A cell that is free or untouched has no user. -/
theorem Accounts.users_eq_zero_of_available (h : Accounts p E) {c : Nat}
    (hc : c ∈ p.free ∨ p.next ≤ c) : users E c = 0 := by
  rw [users_eq_zero]
  rintro x hx rfl
  rcases hc with hc | hc
  · exact h.claim_not_free x hx hc
  · exact absurd (h.claim_lt x hx) (by omega)

/-- Handing out a fresh cell to a sole owner only touches the books of that cell. -/
private theorem Accounts.add_sole (h : Accounts p E) {c : Nat} {free : List Nat} {next : Nat}
    (hzero : users E c = 0) (hnodup : free.Nodup) (hfree : ∀ d ∈ free, d < next)
    (hsub : ∀ d ∈ free, d ∈ p.free) (hc : c < next) (hcf : c ∉ free) (hnext : p.next ≤ next)
    (hcov : ∀ d < next, d = c ∨ d ∈ free ∨ (d < p.next ∧ d ∉ p.free)) :
    Accounts { p with free := free, next := next } (.sole c ::ₘ E) where
  free_nodup := hnodup
  free_lt := hfree
  claim_lt x hx := by
    rcases Multiset.mem_cons.mp hx with rfl | hx
    · exact hc
    · exact lt_of_lt_of_le (h.claim_lt x hx) hnext
  claim_not_free x hx := by
    rcases Multiset.mem_cons.mp hx with rfl | hx
    · exact hcf
    · exact fun hf => h.claim_not_free x hx (hsub _ hf)
  covered d hd := by
    rcases hcov d hd with rfl | hf | ⟨hlt, hnf⟩
    · exact Or.inr ⟨.sole d, Multiset.mem_cons_self _ _, rfl⟩
    · exact Or.inl hf
    · obtain ⟨x, hx, hxc⟩ := (h.covered d hlt).resolve_left hnf
      exact Or.inr ⟨x, Multiset.mem_cons_of_mem hx, hxc⟩
  counted k n d ht := by
    obtain ⟨hn, hu⟩ := h.counted k n d ht
    refine ⟨hn, ?_⟩
    by_cases hcd : c = d
    · subst hcd
      rw [hzero] at hu
      exact absurd (congrArg Multiset.card hu) (by simp; omega)
    · rw [users_cons_of_ne (by simpa using hcd), hu]
  alone x hx hnot := by
    rcases Multiset.mem_cons.mp hx with rfl | hx
    · rw [users_cons_self, Claim.cell_sole, hzero]
      rfl
    · have hne : c ≠ x.cell := fun he => users_eq_zero.mp hzero x hx he.symm
      rw [users_cons_of_ne (by simpa using hne), h.alone x hx hnot]

/-- A recycled cell goes to a sole owner. -/
theorem Accounts.take_free {c : Nat} {rest : List Nat} (h : Accounts p E)
    (hp : p.free = c :: rest) : Accounts { p with free := rest } (.sole c ::ₘ E) := by
  have hnd : (c :: rest).Nodup := hp ▸ h.free_nodup
  have hsub : ∀ d ∈ rest, d ∈ p.free := fun d hd => hp ▸ List.mem_cons_of_mem c hd
  have hc : c ∈ p.free := hp ▸ List.mem_cons_self
  refine h.add_sole (h.users_eq_zero_of_available (Or.inl hc)) (List.nodup_cons.mp hnd).2
    (fun d hd => h.free_lt d (hsub d hd)) hsub (h.free_lt c hc) (List.nodup_cons.mp hnd).1 le_rfl ?_
  intro d hd
  by_cases hdc : d = c
  · exact Or.inl hdc
  · by_cases hf : d ∈ p.free
    · rw [hp] at hf
      exact Or.inr (Or.inl ((List.mem_cons.mp hf).resolve_left hdc))
    · exact Or.inr (Or.inr ⟨hd, hf⟩)

/-- With nothing to recycle, the next untouched cell goes to a sole owner. -/
theorem Accounts.take_next (h : Accounts p E) (hp : p.free = []) :
    Accounts { p with next := p.next + 1 } (.sole p.next ::ₘ E) := by
  have hres : Accounts ⟨p.free, p.next + 1, p.table⟩ (.sole p.next ::ₘ E) := h.add_sole
    (h.users_eq_zero_of_available (Or.inr le_rfl)) h.free_nodup
    (fun d hd => Nat.lt_succ_of_lt (h.free_lt d hd)) (fun d hd => hd) (Nat.lt_succ_self _)
    (by simp [hp]) (Nat.le_succ _) (by
      intro d hd
      by_cases hdn : d = p.next
      · exact Or.inl hdn
      · exact Or.inr (Or.inr ⟨by omega, by simp [hp]⟩))
  exact hres

/-- A sole owner gives its cell back. -/
theorem Accounts.give_back {c : Nat} (h : Accounts p (.sole c ::ₘ E)) :
    Accounts { p with free := p.free ++ [c] } E where
  free_nodup := by
    have hc := h.claim_not_free (.sole c) (Multiset.mem_cons_self _ _)
    rw [List.nodup_append]
    refine ⟨h.free_nodup, List.nodup_singleton c, ?_⟩
    rintro a ha b hb rfl
    rw [List.mem_singleton.mp hb] at ha
    exact hc ha
  free_lt d hd := by
    rcases List.mem_append.mp hd with hd | hd
    · exact h.free_lt d hd
    · rw [List.mem_singleton.mp hd]
      exact h.claim_lt (.sole c) (Multiset.mem_cons_self _ _)
  claim_lt x hx := h.claim_lt x (Multiset.mem_cons_of_mem hx)
  claim_not_free x hx hd := by
    rcases List.mem_append.mp hd with hd | hd
    · exact h.claim_not_free x (Multiset.mem_cons_of_mem hx) hd
    · exact h.cell_ne_of_sole hx (List.mem_singleton.mp hd)
  covered d hd := by
    rcases h.covered d hd with hf | ⟨x, hx, rfl⟩
    · exact Or.inl (List.mem_append_left _ hf)
    · rcases Multiset.mem_cons.mp hx with rfl | hx
      · exact Or.inl (List.mem_append_right _ (List.mem_singleton.mpr rfl))
      · exact Or.inr ⟨x, hx, rfl⟩
  counted k n d ht := by
    obtain ⟨hn, hu⟩ := h.counted k n d ht
    refine ⟨hn, ?_⟩
    by_cases hcd : c = d
    · subst hcd
      have hmem : Claim.sole c ∈ Multiset.replicate n (Claim.shared k c) := by
        rw [← hu, mem_users]
        exact ⟨Multiset.mem_cons_self _ _, rfl⟩
      cases Multiset.eq_of_mem_replicate hmem
    · rwa [users_cons_of_ne (by simpa using hcd)] at hu
  alone x hx hnot := by
    have hu := h.alone x (Multiset.mem_cons_of_mem hx) hnot
    rwa [users_cons_of_ne (by simpa using (h.cell_ne_of_sole hx).symm)] at hu

/-- A cell is shared under at most one key. -/
theorem Accounts.key_unique (h : Accounts p E) {k l : K} {n m c : Nat}
    (hk : p.table k = some (n, c)) (hl : p.table l = some (m, c)) : k = l := by
  obtain ⟨hn, hu⟩ := h.counted k n c hk
  have hmem : Claim.shared k c ∈ users E c := by
    rw [hu]
    exact Multiset.mem_replicate.mpr ⟨by omega, rfl⟩
  rw [(h.counted l m c hl).2] at hmem
  cases Multiset.eq_of_mem_replicate hmem
  rfl

/-- A solely owned cell is not shared. -/
theorem Accounts.table_ne_of_sole {c n : Nat} {k : K} (h : Accounts p (.sole c ::ₘ E)) :
    p.table k ≠ some (n, c) := by
  intro ht
  have hmem : Claim.sole c ∈ users (.sole c ::ₘ E) c :=
    mem_users.mpr ⟨Multiset.mem_cons_self _ _, rfl⟩
  rw [(h.counted k n c ht).2] at hmem
  cases Multiset.eq_of_mem_replicate hmem

/-- Books may change at one handed-out cell, as long as that cell's own books are right. -/
private theorem Accounts.change_cell (h : Accounts p E) {c : Nat} {E' : Multiset (Claim K)}
    {table : K → Option (Nat × Nat)} (hlt : c < p.next) (hfree : c ∉ p.free)
    (husers : ∀ d, d ≠ c → users E' d = users E d) (hcov : ∃ x ∈ E', x.cell = c)
    (htable : ∀ k n d, d ≠ c → (table k = some (n, d) ↔ p.table k = some (n, d)))
    (hcounted : ∀ k n, table k = some (n, c) →
      0 < n ∧ users E' c = Multiset.replicate n (.shared k c))
    (halone : ∀ x ∈ users E' c, (∀ k n, x = .shared k c → table k ≠ some (n, c)) →
      users E' c = {x}) : Accounts { p with table := table } E' := by
  have hmem : ∀ x, x.cell ≠ c → (x ∈ E' ↔ x ∈ E) := by
    intro x hx
    have hu := husers x.cell hx
    constructor
    · intro hxe
      exact (mem_users.mp (hu ▸ mem_users.mpr ⟨hxe, rfl⟩)).1
    · intro hxe
      exact (mem_users.mp (hu.symm ▸ mem_users.mpr ⟨hxe, rfl⟩)).1
  refine ⟨h.free_nodup, h.free_lt, ?_, ?_, ?_, ?_, ?_⟩
  · intro x hx
    by_cases hc : x.cell = c
    · exact hc ▸ hlt
    · exact h.claim_lt x ((hmem x hc).mp hx)
  · intro x hx
    by_cases hc : x.cell = c
    · exact hc ▸ hfree
    · exact h.claim_not_free x ((hmem x hc).mp hx)
  · intro d hd
    by_cases hdc : d = c
    · exact Or.inr (hdc ▸ hcov)
    · refine (h.covered d hd).imp_right ?_
      rintro ⟨x, hx, rfl⟩
      exact ⟨x, (hmem x hdc).mpr hx, rfl⟩
  · intro k n d ht
    by_cases hdc : d = c
    · subst hdc
      exact hcounted k n ht
    · rw [husers d hdc]
      exact h.counted k n d ((htable k n d hdc).mp ht)
  · intro x hx hnot
    by_cases hc : x.cell = c
    · rw [hc]
      refine halone x (mem_users.mpr ⟨hx, hc⟩) fun k n hk ht => hnot ⟨k, n, ?_, ?_⟩
      · rw [hc, hk]
      · rw [hc]
        exact ht
    · rw [husers _ hc]
      refine h.alone x ((hmem x hc).mp hx) fun ⟨k, n, hk, ht⟩ => hnot ⟨k, n, hk, ?_⟩
      exact (htable k n _ hc).mpr ht

/-- A claim the table does not count may be held as sole ownership instead. -/
theorem Accounts.own {k : K} {c : Nat} (h : Accounts p (.shared k c ::ₘ E))
    (hnot : ∀ n, p.table k ≠ some (n, c)) : Accounts p (.sole c ::ₘ E) := by
  have hmem := Multiset.mem_cons_self (Claim.shared k c) E
  have hzero : users E c = 0 := by
    have halone := h.alone _ hmem (by rintro ⟨l, n, hl, ht⟩; cases hl; exact hnot n ht)
    rw [users_cons_self, ← Multiset.cons_zero (Claim.shared k c), Multiset.cons_inj_right] at halone
    exact halone
  have huser : users (.sole c ::ₘ E) c = {.sole c} := by
    have hcons := users_cons_self (.sole c) E
    rw [Claim.cell_sole, hzero] at hcons
    exact hcons
  refine h.change_cell (c := c) (h.claim_lt _ hmem) (h.claim_not_free _ hmem)
    ?_ ⟨.sole c, Multiset.mem_cons_self _ _, rfl⟩ (fun k n d hd => Iff.rfl) ?_ ?_
  · intro d hd
    rw [users_cons_of_ne (by simpa using hd.symm), users_cons_of_ne (by simpa using hd.symm)]
  · intro l n ht
    have hu := (h.counted l n c ht).2
    have hx : Claim.shared k c ∈ Multiset.replicate n (Claim.shared l c) := by
      rw [← hu]
      exact mem_users.mpr ⟨hmem, rfl⟩
    cases Multiset.eq_of_mem_replicate hx
    exact absurd ht (hnot n)
  · intro x hx _
    rw [huser] at hx ⊢
    rw [Multiset.mem_singleton.mp hx]

end Rules

section Sharing

variable [DecidableEq K] {p : Pool K} {E : Multiset (Claim K)}

/-- Replace what the table holds under one key. -/
def Pool.set (p : Pool K) (k : K) (entry : Option (Nat × Nat)) : Pool K :=
  { p with table := Function.update p.table k entry }

theorem Pool.set_table (p : Pool K) (k l : K) (entry : Option (Nat × Nat)) :
    (p.set k entry).table l = if l = k then entry else p.table l := Function.update_apply ..

/-- Rewriting a key's entry within one cell leaves every other cell's entries alone. -/
private theorem Pool.set_table_other {k : K} {c : Nat} {entry : Option (Nat × Nat)}
    (hold : ∀ n d, p.table k = some (n, d) → d = c) (hnew : ∀ n d, entry = some (n, d) → d = c)
    (l : K) (n d : Nat) (hd : d ≠ c) :
    (p.set k entry).table l = some (n, d) ↔ p.table l = some (n, d) := by
  rw [Pool.set_table]
  by_cases hl : l = k
  · subst hl
    rw [if_pos rfl]
    exact ⟨fun he => absurd (hnew n d he) hd, fun he => absurd (hold n d he) hd⟩
  · rw [if_neg hl]

/-- A sole owner shares its cell under a new key, as the first counted user. -/
theorem Accounts.track {k : K} {c : Nat} (h : Accounts p (.sole c ::ₘ E))
    (hk : p.table k = none) : Accounts (p.set k (some (1, c))) (.shared k c ::ₘ E) := by
  have hmem := Multiset.mem_cons_self (Claim.sole c) E
  have huser : users (.shared k c ::ₘ E) c = {.shared k c} := by
    have hcons := users_cons_self (.shared k c) E
    rw [Claim.cell_shared, h.users_sole] at hcons
    exact hcons
  refine h.change_cell (c := c) (h.claim_lt _ hmem) (h.claim_not_free _ hmem) ?_
    ⟨.shared k c, Multiset.mem_cons_self _ _, rfl⟩
    (Pool.set_table_other (by simp [hk]) (by simp)) ?_ ?_
  · intro d hd
    rw [users_cons_of_ne (by simpa using hd.symm), users_cons_of_ne (by simpa using hd.symm)]
  · intro l n ht
    change (p.set k _).table l = _ at ht
    rw [Pool.set_table] at ht
    split at ht
    · next hl =>
      cases ht
      exact ⟨Nat.one_pos, by rw [huser, hl]; rfl⟩
    · exact absurd ht h.table_ne_of_sole
  · intro x hx hnot
    rw [huser] at hx
    exact absurd (if_pos rfl) (hnot k 1 (Multiset.mem_singleton.mp hx))

/-- One more use of a shared cell is counted. -/
theorem Accounts.join {k : K} {n c : Nat} (h : Accounts p E) (hk : p.table k = some (n, c)) :
    Accounts (p.set k (some (n + 1, c))) (.shared k c ::ₘ E) := by
  obtain ⟨hn, hu⟩ := h.counted k n c hk
  have huser : users (.shared k c ::ₘ E) c = Multiset.replicate (n + 1) (.shared k c) := by
    have hcons := users_cons_self (.shared k c) E
    rw [Claim.cell_shared, hu] at hcons
    exact hcons
  have hmem : Claim.shared k c ∈ E := by
    have hx : Claim.shared k c ∈ users E c := by
      rw [hu]
      exact Multiset.mem_replicate.mpr ⟨by omega, rfl⟩
    exact (mem_users.mp hx).1
  refine h.change_cell (c := c) (h.claim_lt _ hmem) (h.claim_not_free _ hmem) ?_
    ⟨.shared k c, Multiset.mem_cons_self _ _, rfl⟩
    (Pool.set_table_other (by simp [hk]) (by simp)) ?_ ?_
  · intro d hd
    rw [users_cons_of_ne (by simpa using hd.symm)]
  · intro l m ht
    change (p.set k _).table l = _ at ht
    rw [Pool.set_table] at ht
    split at ht
    · next hl =>
      cases ht
      exact ⟨Nat.succ_pos n, by rw [huser, hl]⟩
    · next hl => exact absurd (h.key_unique ht hk) hl
  · intro x hx hnot
    rw [huser] at hx
    exact absurd (if_pos rfl) (hnot k (n + 1) (Multiset.eq_of_mem_replicate hx))

/-- One use of a cell that keeps other users is given up. -/
theorem Accounts.leave {k : K} {n c : Nat} (h : Accounts p (.shared k c ::ₘ E))
    (hk : p.table k = some (n + 1, c)) (hn : 0 < n) : Accounts (p.set k (some (n, c))) E := by
  have hu := (h.counted k (n + 1) c hk).2
  have huser : users E c = Multiset.replicate n (.shared k c) := by
    have hcons := users_cons_self (.shared k c) E
    rw [Claim.cell_shared, hu, Multiset.replicate_succ, Multiset.cons_inj_right] at hcons
    exact hcons.symm
  have hmem := Multiset.mem_cons_self (Claim.shared k c) E
  refine h.change_cell (c := c) (h.claim_lt _ hmem) (h.claim_not_free _ hmem) ?_ ?_
    (Pool.set_table_other (by simp [hk]) (by simp)) ?_ ?_
  · intro d hd
    rw [users_cons_of_ne (by simpa using hd.symm)]
  · have hx : Claim.shared k c ∈ users E c := by
      rw [huser]
      exact Multiset.mem_replicate.mpr ⟨by omega, rfl⟩
    exact ⟨_, mem_users.mp hx⟩
  · intro l m ht
    change (p.set k _).table l = _ at ht
    rw [Pool.set_table] at ht
    split at ht
    · next hl =>
      cases ht
      exact ⟨hn, by rw [huser, hl]⟩
    · next hl => exact absurd (h.key_unique ht hk) hl
  · intro x hx hnot
    rw [huser] at hx
    exact absurd (if_pos rfl) (hnot k n (Multiset.eq_of_mem_replicate hx))

/-- A key with a single counted user may be forgotten; that user then owns the cell alone. -/
theorem Accounts.untrack {k : K} {n c : Nat} (h : Accounts p E) (hk : p.table k = some (n, c))
    (hn : n ≤ 1) : Accounts (p.set k none) E := by
  obtain ⟨hpos, hu⟩ := h.counted k n c hk
  obtain rfl : n = 1 := by omega
  have hmem : Claim.shared k c ∈ users E c := by
    rw [hu]
    exact Multiset.mem_singleton_self _
  refine h.change_cell (c := c) (h.claim_lt _ (mem_users.mp hmem).1) (h.claim_not_free _ (mem_users.mp hmem).1)
    (fun d hd => rfl) ⟨_, mem_users.mp hmem⟩ (Pool.set_table_other (by simp [hk]) (by simp)) ?_ ?_
  · intro l m ht
    change (p.set k _).table l = _ at ht
    rw [Pool.set_table] at ht
    split at ht
    · cases ht
    · next hl => exact absurd (h.key_unique ht hk) hl
  · intro x hx _
    rw [hu] at hx ⊢
    rw [Multiset.eq_of_mem_replicate hx]
    rfl

/-- The last counted user takes the cell over when the key is dropped. -/
theorem Accounts.leave_last {k : K} {n c : Nat} (h : Accounts p (.shared k c ::ₘ E))
    (hk : p.table k = some (n, c)) (hn : n ≤ 1) :
    Accounts (p.set k none) (.sole c ::ₘ E) :=
  (h.untrack hk hn).own fun m => by simp [Pool.set_table]

end Sharing

end RefPool

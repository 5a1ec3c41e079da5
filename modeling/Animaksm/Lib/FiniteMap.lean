import Mathlib.Data.Finmap
import Mathlib.Data.Multiset.Filter

/-!
# Values of a finite map

Non-dependent finite maps are read through the multiset of their values. Writing
a key moves exactly one value in, and the value it displaces out, so quantities
counted over the values of a map follow every update by cancellation.
-/

namespace Finmap

universe u v

variable {K : Type u} {V : Type v} [DecidableEq K]

/-- Every stored value, once for each key that stores it. -/
def values (m : Finmap fun _ : K => V) : Multiset V := m.entries.map Sigma.snd

omit [DecidableEq K] in
@[simp] theorem values_empty : (∅ : Finmap fun _ : K => V).values = 0 := rfl

omit [DecidableEq K] in
/-- There are as many values as keys. -/
theorem card_values (m : Finmap fun _ : K => V) : m.values.card = m.keys.card := by
  simp only [values, Finmap.keys, Finset.card, Multiset.keys, Multiset.card_map]

/-- Lookup after a write, at any key. -/
theorem lookup_insert_eq (m : Finmap fun _ : K => V) (a k : K) (x : V) :
    (m.insert k x).lookup a = if a = k then some x else m.lookup a := by
  by_cases h : a = k
  · subst h
    simp
  · simp [h, lookup_insert_of_ne m h]

/-- Lookup after a removal, at any key. -/
theorem lookup_erase_eq (m : Finmap fun _ : K => V) (a k : K) :
    (m.erase k).lookup a = if a = k then none else m.lookup a := by
  by_cases h : a = k
  · subst h
    simp
  · simp [h, lookup_erase_ne h]

/-- A write at an absent key adds one value. -/
theorem values_insert_of_lookup_none {m : Finmap fun _ : K => V} {k : K}
    (h : m.lookup k = none) (x : V) : (m.insert k x).values = x ::ₘ m.values := by
  rw [values, entries_insert_of_notMem (lookup_eq_none.mp h), Multiset.map_cons, values]

/-- A present key splits its value off the rest. -/
theorem values_eq_cons_erase {m : Finmap fun _ : K => V} {k : K} {x : V}
    (h : m.lookup k = some x) : m.values = x ::ₘ (m.erase k).values := by
  have hm : m = (m.erase k).insert k x := by
    apply ext_lookup
    intro a
    rw [lookup_insert_eq, lookup_erase_eq]
    split
    · next ha => rw [ha, h]
    · rfl
  conv_lhs => rw [hm]
  exact values_insert_of_lookup_none (lookup_erase k m) x

/-- Erasing an absent key changes nothing. -/
theorem erase_of_lookup_none {m : Finmap fun _ : K => V} {k : K} (h : m.lookup k = none) :
    m.erase k = m := by
  apply ext_lookup
  intro a
  rw [lookup_erase_eq]
  split
  · next ha => rw [ha, h]
  · rfl

/-- Erasing a present key leaves one key less. -/
theorem card_keys_of_lookup_some {m : Finmap fun _ : K => V} {k : K} {x : V}
    (h : m.lookup k = some x) : m.keys.card = (m.erase k).keys.card + 1 := by
  rw [← card_values, values_eq_cons_erase h, Multiset.card_cons, card_values]

/-- A write at a present key displaces exactly the old value. -/
theorem cons_values_insert {m : Finmap fun _ : K => V} {k : K} {old : V}
    (h : m.lookup k = some old) (x : V) :
    old ::ₘ (m.insert k x).values = x ::ₘ m.values := by
  have hm : m.insert k x = (m.erase k).insert k x := by
    apply ext_lookup
    intro a
    simp only [lookup_insert_eq, lookup_erase_eq]
    split <;> rfl
  rw [hm, values_insert_of_lookup_none (lookup_erase k m), values_eq_cons_erase h,
    Multiset.cons_swap]

/-- The values are exactly what some key looks up. -/
theorem mem_values {m : Finmap fun _ : K => V} {x : V} :
    x ∈ m.values ↔ ∃ k, m.lookup k = some x := by
  simp only [values, Multiset.mem_map, Sigma.exists, exists_eq_right]
  exact exists_congr fun k => lookup_eq_some_iff.symm

/-- Writing a key makes it present and forgets no other key. -/
@[simp] theorem keys_insert (m : Finmap fun _ : K => V) (k : K) (x : V) :
    (m.insert k x).keys = Insert.insert k m.keys := by
  ext a
  simp only [mem_keys, mem_insert, Finset.mem_insert]

/-- What is asked of a looked-up value alone can be decided. -/
instance decidableForallEqSome {p : V → Prop} [DecidablePred p] :
    ∀ o : Option V, Decidable (∀ x, o = some x → p x)
  | none => isTrue fun _ h => nomatch h
  | some x => decidable_of_iff (p x) ⟨fun h _ hx => Option.some.inj hx ▸ h, fun h => h x rfl⟩

end Finmap

import Mathlib.Algebra.BigOperators.Group.Finset.Basic
import Mathlib.Algebra.Ring.Int.Defs
import Mathlib.Data.Finmap

/-!
# What a finite map holds in total

Each entry of a map is worth an integer, and the total of the map is the sum.
A change to the map changes the total by what it changes under the keys it
touches: `total_change` over a set of keys, `total_change_one` under one key.
-/

namespace Finmap

variable {κ ν : Type} (worth : κ → ν → Int)

/-- What stands under a key is worth.  Nothing is worth nothing. -/
def slotWorth (key : κ) (slot : Option ν) : Int := (slot.map (worth key)).getD 0

@[simp] theorem slotWorth_none (key : κ) : slotWorth worth key none = 0 := rfl

@[simp] theorem slotWorth_some (key : κ) (v : ν) : slotWorth worth key (some v) = worth key v := rfl

variable [DecidableEq κ]

/-- What the whole map is worth. -/
def total (m : Finmap fun _ : κ => ν) : Int :=
  m.keys.sum fun key => slotWorth worth key (m.lookup key)

variable {worth} {m m' : Finmap fun _ : κ => ν}

/-- The total is the sum over any set of keys that has all of the map's. -/
theorem total_eq_sum {s : Finset κ} (h : m.keys ⊆ s) :
    m.total worth = s.sum fun key => slotWorth worth key (m.lookup key) := by
  refine Finset.sum_subset h fun key _ hkey => ?_
  rw [Finmap.mem_keys] at hkey
  rw [Finmap.lookup_eq_none.mpr hkey, slotWorth_none]

/-- Two maps that agree outside a set of keys differ in total by what they
differ in on the set. -/
theorem total_change (s : Finset κ) (h : ∀ key, key ∉ s → m'.lookup key = m.lookup key) :
    m'.total worth - m.total worth =
      s.sum fun key => slotWorth worth key (m'.lookup key) - slotWorth worth key (m.lookup key) := by
  let all := m.keys ∪ m'.keys ∪ s
  have hm : m.keys ⊆ all := fun key hkey =>
    Finset.mem_union_left _ (Finset.mem_union_left _ hkey)
  have hm' : m'.keys ⊆ all := fun key hkey =>
    Finset.mem_union_left _ (Finset.mem_union_right _ hkey)
  have hs : s ⊆ all := fun key hkey => Finset.mem_union_right _ hkey
  rw [total_eq_sum hm, total_eq_sum hm', ← Finset.sum_sub_distrib]
  symm
  refine Finset.sum_subset hs fun key _ hkey => ?_
  rw [h key hkey, sub_self]

theorem total_change_one (key : κ) (h : ∀ other, other ≠ key → m'.lookup other = m.lookup other) :
    m'.total worth - m.total worth =
      slotWorth worth key (m'.lookup key) - slotWorth worth key (m.lookup key) := by
  rw [total_change {key} fun other hother => h other (by simpa using hother), Finset.sum_singleton]

/-- Maps whose entries are worth the same key by key are worth the same. -/
theorem total_eq (h : ∀ key, slotWorth worth key (m'.lookup key) =
    slotWorth worth key (m.lookup key)) : m'.total worth = m.total worth := by
  have houtside : ∀ key, key ∉ m.keys ∪ m'.keys → m'.lookup key = m.lookup key := by
    intro key hkey
    rw [Finset.mem_union, not_or, Finmap.mem_keys, Finmap.mem_keys] at hkey
    rw [Finmap.lookup_eq_none.mpr hkey.1, Finmap.lookup_eq_none.mpr hkey.2]
  apply sub_eq_zero.mp
  rw [total_change _ houtside]
  exact Finset.sum_eq_zero fun key _ => by rw [h key, sub_self]

end Finmap

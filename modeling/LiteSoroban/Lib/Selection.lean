import Mathlib.Data.List.Nodup
import Mathlib.Data.List.Perm.Basic

/-!
# Selecting by key

A `Selector` picks something of some keys, and what it picks of a key belongs
to that key.  Two loops that select by one selector agree once their lists of
keys do.  The lemmas here say how far the lists may differ.

* `select_perm`: the order of the keys is the order of the picks.
* `select_selected`: selecting from the selected keys selects them all again.
* `select_congr`: selectors that agree on the keys select the same.
* `nodup_selected`: each selected key is selected once, if it is listed once.
-/

/-- A partial function from keys whose values know their key. -/
structure Selector (κ μ : Type*) where
  pick : κ → Option μ
  key : μ → κ
  key_pick : ∀ {k m}, pick k = some m → key m = k

namespace Selector

variable {κ μ : Type*} (s : Selector κ μ)

/-- The picks of a list of keys. -/
def select (keys : List κ) : List μ := keys.filterMap s.pick

/-- The keys something is picked of. -/
def selected (keys : List κ) : List κ := (s.select keys).map s.key

@[simp] theorem select_nil : s.select [] = [] := rfl

theorem select_cons_of_none {k : κ} (h : s.pick k = none) (keys : List κ) :
    s.select (k :: keys) = s.select keys :=
  List.filterMap_cons_none h

theorem select_cons_of_some {k : κ} {m : μ} (h : s.pick k = some m) (keys : List κ) :
    s.select (k :: keys) = m :: s.select keys :=
  List.filterMap_cons_some h

variable {s}

theorem mem_select {keys : List κ} {m : μ} :
    m ∈ s.select keys ↔ s.key m ∈ keys ∧ s.pick (s.key m) = some m := by
  rw [select, List.mem_filterMap]
  constructor
  · rintro ⟨k, hk, hm⟩
    rw [s.key_pick hm]
    exact ⟨hk, hm⟩
  · rintro ⟨hk, hm⟩
    exact ⟨s.key m, hk, hm⟩

theorem mem_selected {keys : List κ} {k : κ} :
    k ∈ s.selected keys ↔ ∃ m, s.pick k = some m ∧ m ∈ s.select keys := by
  rw [selected, List.mem_map]
  constructor
  · rintro ⟨m, hm, rfl⟩
    exact ⟨m, (mem_select.mp hm).2, hm⟩
  · rintro ⟨m, hk, hm⟩
    exact ⟨m, hm, s.key_pick hk⟩

theorem select_perm {keys keys' : List κ} (h : keys.Perm keys') :
    (s.select keys).Perm (s.select keys') :=
  h.filterMap s.pick

theorem select_selected (keys : List κ) : s.select (s.selected keys) = s.select keys := by
  induction keys with
  | nil => rfl
  | cons k keys ih =>
    cases hk : s.pick k with
    | none => rw [selected, select_cons_of_none s hk, ← selected, ih]
    | some m =>
      have hkey : s.pick (s.key m) = some m := by rw [s.key_pick hk, hk]
      rw [selected, select_cons_of_some s hk, List.map_cons, ← selected,
        select_cons_of_some s hkey, ih]

/-- The selected keys are the listed ones that something is picked of. -/
theorem selected_eq_filter (keys : List κ) :
    s.selected keys = keys.filter fun k => (s.pick k).isSome := by
  induction keys with
  | nil => rfl
  | cons k keys ih =>
    cases hk : s.pick k with
    | none =>
      rw [selected, select_cons_of_none s hk, ← selected, ih, List.filter_cons_of_neg]
      simp only [hk, Option.isSome_none, Bool.false_eq_true, not_false_eq_true]
    | some m =>
      rw [selected, select_cons_of_some s hk, List.map_cons, ← selected, ih, s.key_pick hk,
        List.filter_cons_of_pos]
      simp only [hk, Option.isSome_some]

/-- No key is selected twice when the keys something is picked of are listed
once.  How often the others are listed does not matter. -/
theorem nodup_selected [DecidableEq κ] {keys : List κ} :
    (s.selected keys).Nodup ↔ ∀ k, (s.pick k).isSome → keys.count k ≤ 1 := by
  rw [selected_eq_filter, List.nodup_iff_count_le_one]
  refine forall_congr' fun k => ?_
  by_cases hk : (s.pick k).isSome
  · rw [List.count_filter (by exact hk)]
    simp only [hk, forall_const]
  · have hnot : k ∉ keys.filter fun k => (s.pick k).isSome := by
      intro hmem
      exact hk (List.mem_filter.mp hmem).2
    rw [List.count_eq_zero_of_not_mem hnot]
    simp only [hk, Nat.zero_le, Bool.false_eq_true, IsEmpty.forall_iff]

theorem select_congr {s' : Selector κ μ} {keys : List κ}
    (h : ∀ k ∈ keys, s.pick k = s'.pick k) : s.select keys = s'.select keys :=
  List.filterMap_congr h

/-- What is selected from the selected keys in any order, or from the first
keys in any order, is what was selected at first, in some order. -/
theorem select_perm_of_covers {keys keys' : List κ}
    (h : keys'.Perm (s.selected keys) ∨ keys'.Perm keys) :
    (s.select keys').Perm (s.select keys) := by
  rcases h with h | h
  · rw [← select_selected keys]
    exact select_perm h
  · exact select_perm h

end Selector

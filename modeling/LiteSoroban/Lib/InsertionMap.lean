import Mathlib.Data.List.Nodup

/-!
# Maps that remember insertion order

A map that iterates in the order its keys were first set, as the `Map` of
JavaScript does.  Setting a key that is there replaces its value in place.

The keys of a map are distinct, and the structure carries the proof.
-/

/-- An association list with distinct keys, oldest key first. -/
@[ext]
structure InsertionMap (κ α : Type*) where
  entries : List (κ × α)
  nodup : (entries.map Prod.fst).Nodup

namespace InsertionMap

variable {κ α : Type*} [DecidableEq κ]

/-- The map with no keys. -/
def empty : InsertionMap κ α := ⟨[], List.nodup_nil⟩

def keys (m : InsertionMap κ α) : List κ := m.entries.map Prod.fst

/-- The values, in insertion order. -/
def values (m : InsertionMap κ α) : List α := m.entries.map Prod.snd

/-- The value under a key. -/
def get (m : InsertionMap κ α) (key : κ) : Option α :=
  (m.entries.find? (fun e => e.1 = key)).map Prod.snd

/-- The entries after `set`. -/
def setEntries (entries : List (κ × α)) (key : κ) (value : α) : List (κ × α) :=
  if key ∈ entries.map Prod.fst then
    entries.map fun e => if e.1 = key then (key, value) else e
  else entries ++ [(key, value)]

theorem setEntries_nodup {entries : List (κ × α)} (h : (entries.map Prod.fst).Nodup)
    (key : κ) (value : α) : ((setEntries entries key value).map Prod.fst).Nodup := by
  simp only [setEntries]
  split
  · have hsame : (entries.map fun e => if e.1 = key then (key, value) else e).map Prod.fst =
        entries.map Prod.fst := by
      rw [List.map_map]
      refine List.map_congr_left fun e _ => ?_
      by_cases he : e.1 = key <;> simp [he]
    rw [hsame]
    exact h
  · next hfresh =>
    rw [List.map_append]
    refine List.Nodup.append h (List.nodup_singleton key) ?_
    rw [List.map_singleton, List.disjoint_singleton]
    exact hfresh

/-- Set the value under a key. -/
def set (m : InsertionMap κ α) (key : κ) (value : α) : InsertionMap κ α :=
  ⟨setEntries m.entries key value, setEntries_nodup m.nodup key value⟩

@[simp] theorem get_empty (key : κ) : (empty : InsertionMap κ α).get key = none := rfl

theorem get_eq_none {m : InsertionMap κ α} {key : κ} : m.get key = none ↔ key ∉ m.keys := by
  simp only [get, keys, Option.map_eq_none_iff, List.find?_eq_none, List.mem_map, not_exists,
    not_and, decide_eq_true_eq]

/-- A fresh key goes to the end. -/
theorem entries_set_of_get_eq_none {m : InsertionMap κ α} {key : κ} (h : m.get key = none)
    (value : α) : (m.set key value).entries = m.entries ++ [(key, value)] := by
  have hfresh : key ∉ m.entries.map Prod.fst := get_eq_none.mp h
  simp only [set, setEntries, hfresh, if_false]

theorem values_set_of_get_eq_none {m : InsertionMap κ α} {key : κ} (h : m.get key = none)
    (value : α) : (m.set key value).values = m.values ++ [value] := by
  simp only [values, entries_set_of_get_eq_none h, List.map_append, List.map_cons, List.map_nil]

/-- Setting a fresh key leaves the other keys alone. -/
theorem get_set_of_get_eq_none {m : InsertionMap κ α} {key : κ} (h : m.get key = none)
    (value : α) (key' : κ) :
    (m.set key value).get key' = if key' = key then some value else m.get key' := by
  simp only [get, entries_set_of_get_eq_none h, List.find?_append, List.find?_singleton]
  by_cases hkey : key' = key
  · subst hkey
    have hnone : m.entries.find? (fun e => e.1 = key') = none := by
      simpa [get, Option.map_eq_none_iff] using h
    simp [hnone]
  · have hne : ¬ key = key' := fun heq => hkey heq.symm
    simp [hkey, hne]

/-- What is found under a key is an entry. -/
theorem mem_entries_of_get {m : InsertionMap κ α} {key : κ} {value : α}
    (h : m.get key = some value) : (key, value) ∈ m.entries := by
  obtain ⟨entry, hfound, rfl⟩ := Option.map_eq_some_iff.mp h
  have hkey : entry.1 = key := by simpa using List.find?_some hfound
  rw [← hkey]
  exact List.mem_of_find?_eq_some hfound

/-- An entry is found under its key. -/
theorem get_of_mem_entries {m : InsertionMap κ α} {key : κ} {value : α}
    (h : (key, value) ∈ m.entries) : m.get key = some value := by
  have hfound : (m.entries.find? (fun e => e.1 = key)).isSome := by
    rw [List.find?_isSome]
    exact ⟨(key, value), h, decide_eq_true rfl⟩
  obtain ⟨entry, hentry⟩ := Option.isSome_iff_exists.mp hfound
  have hkey : entry.1 = key := by simpa using List.find?_some hentry
  have hsame : entry = (key, value) :=
    List.inj_on_of_nodup_map m.nodup (List.mem_of_find?_eq_some hentry) h hkey
  simp only [get, hentry, hsame, Option.map_some]

/-- A value that is found is one of the values. -/
theorem mem_values_of_get {m : InsertionMap κ α} {key : κ} {value : α}
    (h : m.get key = some value) : value ∈ m.values :=
  List.mem_map_of_mem (mem_entries_of_get h)

/-- The only value that setting a key can add is the one it sets. -/
theorem mem_values_set {m : InsertionMap κ α} {key : κ} {value value' : α}
    (h : value' ∈ (m.set key value).values) : value' ∈ m.values ∨ value' = value := by
  simp only [values, set, setEntries] at h
  split at h
  · rw [List.map_map, List.mem_map] at h
    obtain ⟨entry, hentry, rfl⟩ := h
    simp only [Function.comp]
    split
    · exact .inr rfl
    · exact .inl (List.mem_map_of_mem hentry)
  · rw [List.map_append, List.mem_append] at h
    exact h.imp id fun hnew => List.mem_singleton.mp hnew

end InsertionMap

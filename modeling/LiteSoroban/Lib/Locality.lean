import Mathlib.Data.Set.Basic
import LiteSoroban.Lib.Effect
import LiteSoroban.Lib.Machine

/-!
# Programs that touch part of a table

A state often holds a table, and a program often reads a few of its keys and
writes fewer still.  Such a program is *local*.  What it answers, and what it
leaves under the keys it touches, depend on those keys alone.

There are three groups.

* `Table` says where a state keeps its table, when two states agree beside it,
  and which entries a program may count on.  `AgreeOn` compares two states on
  some of the keys.
* `Local` is the property of a program, given the keys it reads and the keys it
  writes.
* `run_independent` is about programs none of which writes what another one
  touches.  In a run, one after the other, each answers what it answers alone,
  and leaves under its keys what it leaves there alone.  So the order of the
  run does not matter: `run_perm`.
-/

open Effect

/-- Where a state keeps its table.  `Beside` compares two states in everything
else.  It need not be reflexive, so that it can say of both of them that they
are sound. -/
structure Table (σ κ ν : Type) where
  lookup : σ → κ → ν
  Beside : σ → σ → Prop
  /-- What may stand under a key. -/
  Good : κ → ν → Prop
  symm : ∀ {s t}, Beside s t → Beside t s
  trans : ∀ {s t u}, Beside s t → Beside t u → Beside s u

/-- The keys a program reads, and those of them it writes. -/
structure Access (κ : Type) where
  reads : Set κ
  writes : Set κ
  sub : writes ⊆ reads

/-- Neither writes what the other touches. -/
structure Access.Independent {κ : Type} (a b : Access κ) : Prop where
  left : ∀ key ∈ a.writes, key ∉ b.reads
  right : ∀ key ∈ b.writes, key ∉ a.reads

theorem Access.Independent.symm {κ : Type} {a b : Access κ} (h : a.Independent b) :
    b.Independent a :=
  ⟨h.right, h.left⟩

namespace Table

variable {ε σ κ ν α ι : Type} (T : Table σ κ ν)

/-- The states agree beside the table, and under these keys. -/
structure AgreeOn (keys : Set κ) (s t : σ) : Prop where
  beside : T.Beside s t
  lookup : ∀ key ∈ keys, T.lookup s key = T.lookup t key

/-- What stands under these keys may stand there. -/
def Sound (keys : Set κ) (s : σ) : Prop := ∀ key ∈ keys, T.Good key (T.lookup s key)

/-- The states agree beside the table and under every key. -/
abbrev Same (s t : σ) : Prop := T.AgreeOn Set.univ s t

variable {T}

theorem AgreeOn.sound {keys : Set κ} {s t : σ} (h : T.AgreeOn keys s t) (hs : T.Sound keys s) :
    T.Sound keys t := by
  intro key hkey
  rw [← h.lookup key hkey]
  exact hs key hkey

theorem AgreeOn.mono {keys keys' : Set κ} (hsub : keys ⊆ keys') {s t : σ}
    (h : T.AgreeOn keys' s t) : T.AgreeOn keys s t :=
  ⟨h.beside, fun key hkey => h.lookup key (hsub hkey)⟩

variable (T)

/-- The program reads and writes these keys at most.  From two states that
agree on what it reads it answers alike, and leaves states that agree there. -/
structure Local (access : Access κ) (x : EStateM ε σ α) : Prop where
  reads : ∀ s t, T.AgreeOn access.reads s t → T.Sound access.reads s →
    Agree (T.AgreeOn access.reads) (x s) (x t)
  beside : ∀ s, T.Beside s s → T.Sound access.reads s → T.Beside s (finalState (x s))
  frame : ∀ s, T.Beside s s → ∀ key, key ∉ access.writes →
    T.lookup (finalState (x s)) key = T.lookup s key

variable {T} in
/-- A pure function after a program reads and writes nothing. -/
theorem Local.map {a : Access κ} {x : EStateM ε σ α} (hx : T.Local a x) {β : Type} (f : α → β) :
    T.Local a (do return f (← x)) := by
  have hend : ∀ s, finalState ((do return f (← x) : EStateM ε σ β) s) = finalState (x s) :=
    finalState_map x f
  refine ⟨fun s t h hsound => .bind (hx.reads s t h hsound) fun _ _ _ _ hmid => ⟨rfl, hmid⟩,
    fun s hs hsound => ?_, fun s hs key hkey => ?_⟩
  · rw [hend]
    exact hx.beside s hs hsound
  · rw [hend]
    exact hx.frame s hs key hkey

variable {T} in
/-- A local program keeps two states in agreement wherever they agree, as long
as they agree on what it reads. -/
theorem Local.agree {a : Access κ} {x : EStateM ε σ α} (hx : T.Local a x) {keys : Set κ}
    (hsub : a.reads ⊆ keys) {s t : σ} (h : T.AgreeOn keys s t) (hsound : T.Sound a.reads s) :
    Agree (T.AgreeOn keys) (x s) (x t) := by
  have hread := hx.reads s t (h.mono hsub) hsound
  refine ⟨hread.answers, hread.ends.beside, fun key hkey => ?_⟩
  by_cases hmem : key ∈ a.reads
  · exact hread.ends.lookup key hmem
  · have hnot : key ∉ a.writes := fun hwrites => hmem (a.sub hwrites)
    have hs : T.Beside s s := T.trans h.beside (T.symm h.beside)
    have ht : T.Beside t t := T.trans (T.symm h.beside) h.beside
    rw [hx.frame s hs key hnot, hx.frame t ht key hnot]
    exact h.lookup key hkey

/-! ## Independent programs -/

/-- The machine whose inputs name programs, and run them. -/
def programs (program : ι → EStateM ε σ α) : Machine σ ι (Except ε α) where
  step s i := (answer (program i s), finalState (program i s))

/-- `t` is `s` with what each of the programs, run from `s`, writes. -/
structure Effects (access : ι → Access κ) (program : ι → EStateM ε σ α) (s : σ) (is : List ι)
    (t : σ) : Prop where
  beside : T.Beside s t
  written : ∀ i ∈ is, ∀ key ∈ (access i).writes,
    T.lookup t key = T.lookup (finalState (program i s)) key
  untouched : ∀ key, (∀ i ∈ is, key ∉ (access i).writes) → T.lookup t key = T.lookup s key

variable {T} {access : ι → Access κ} {program : ι → EStateM ε σ α}

/-- The writes of the same programs, in whatever order they are listed, make
the same state. -/
theorem Effects.unique {s t t' : σ} {is js : List ι} (h : T.Effects access program s is t)
    (h' : T.Effects access program s js t') (hsame : ∀ i, i ∈ is ↔ i ∈ js) : T.Same t t' := by
  refine ⟨T.trans (T.symm h.beside) h'.beside, fun key _ => ?_⟩
  by_cases hkey : ∃ i ∈ is, key ∈ (access i).writes
  · obtain ⟨i, hi, hwrites⟩ := hkey
    rw [h.written i hi key hwrites, h'.written i ((hsame i).mp hi) key hwrites]
  · have hnone : ∀ i ∈ is, key ∉ (access i).writes := fun i hi hmem => hkey ⟨i, hi, hmem⟩
    rw [h.untouched key hnone, h'.untouched key fun i hi => hnone i ((hsame i).mpr hi)]

/-- What an independent program leaves is, to this one, what it found. -/
theorem Local.agreeOn {a b : Access κ} {x : EStateM ε σ α} (hx : T.Local a x)
    (hind : a.Independent b) {s : σ} (hs : T.Beside s s) (hsound : T.Sound a.reads s) :
    T.AgreeOn b.reads s (finalState (x s)) := by
  refine ⟨hx.beside s hs hsound, fun key hkey => (hx.frame s hs key fun hwrites => ?_).symm⟩
  exact hind.left _ hwrites hkey

/-- Independent programs, run one after the other, do not see one another.
Each answers what it answers alone, and the run leaves what they leave
alone. -/
theorem run_independent {is : List ι} (hlocal : ∀ i ∈ is, T.Local (access i) (program i))
    (hind : is.Pairwise fun i j => (access i).Independent (access j)) {s : σ}
    (hs : T.Beside s s) (hsound : ∀ i ∈ is, T.Sound (access i).reads s) :
    (programs program).outs s is = is.map (fun i => answer (program i s)) ∧
      T.Effects access program s is ((programs program).run s is) := by
  induction is generalizing s with
  | nil => exact ⟨rfl, hs, by simp, fun _ _ => rfl⟩
  | cons i is ih =>
    obtain ⟨hfirst, hrest⟩ := List.pairwise_cons.mp hind
    have hi : T.Local (access i) (program i) := hlocal i List.mem_cons_self
    let s₁ := finalState (program i s)
    have hsoundᵢ : T.Sound (access i).reads s := hsound i List.mem_cons_self
    have hbeside : T.Beside s s₁ := hi.beside s hs hsoundᵢ
    -- To each later program the state after `i` is the state before it.
    have hagree : ∀ j ∈ is, T.AgreeOn (access j).reads s s₁ :=
      fun j hj => hi.agreeOn (hfirst j hj) hs hsoundᵢ
    have hruns : ∀ j ∈ is, Agree (T.AgreeOn (access j).reads) (program j s) (program j s₁) :=
      fun j hj => (hlocal j (List.mem_cons_of_mem i hj)).reads s s₁ (hagree j hj)
        (hsound j (List.mem_cons_of_mem i hj))
    obtain ⟨houts, heffects⟩ := ih (fun j hj => hlocal j (List.mem_cons_of_mem i hj)) hrest
      (T.trans (T.symm hbeside) hbeside)
      fun j hj => (hagree j hj).sound (hsound j (List.mem_cons_of_mem i hj))
    refine ⟨?_, T.trans hbeside heffects.beside, fun j hj key hkey => ?_, fun key hkey => ?_⟩
    · show answer (program i s) :: (programs program).outs s₁ is = _
      rw [houts, List.map_cons]
      congr 1
      exact List.map_congr_left fun j hj => (hruns j hj).answers
    · show T.lookup ((programs program).run s₁ is) key = _
      rcases List.mem_cons.mp hj with rfl | hj
      · apply heffects.untouched
        intro k hk hwrites
        exact (hfirst k hk).left _ hkey ((access k).sub hwrites)
      · rw [heffects.written j hj key hkey]
        exact ((hruns j hj).ends.lookup key ((access j).sub hkey)).symm
    · show T.lookup ((programs program).run s₁ is) key = _
      rw [heffects.untouched key fun j hj => hkey j (List.mem_cons_of_mem i hj)]
      exact hi.frame s hs key (hkey i List.mem_cons_self)

/-- The order of independent programs does not matter: the runs end in the
same state, and each program answers the same. -/
theorem run_perm {is js : List ι} (hperm : is.Perm js)
    (hlocal : ∀ i ∈ is, T.Local (access i) (program i))
    (hind : is.Pairwise fun i j => (access i).Independent (access j)) {s : σ}
    (hs : T.Beside s s) (hsound : ∀ i ∈ is, T.Sound (access i).reads s) :
    T.Same ((programs program).run s is) ((programs program).run s js) ∧
      (programs program).outs s is = is.map (fun i => answer (program i s)) ∧
      (programs program).outs s js = js.map (fun i => answer (program i s)) := by
  have hsymm : ∀ {i j : ι}, (access i).Independent (access j) →
      (access j).Independent (access i) := fun h => h.symm
  obtain ⟨houts, heffects⟩ := run_independent hlocal hind hs hsound
  obtain ⟨houts', heffects'⟩ := run_independent
    (fun i hi => hlocal i (hperm.mem_iff.mpr hi)) (hperm.pairwise hind hsymm) hs
    fun i hi => hsound i (hperm.mem_iff.mpr hi)
  exact ⟨heffects.unique heffects' fun i => hperm.mem_iff, houts, houts'⟩

end Table

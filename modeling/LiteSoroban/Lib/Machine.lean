import Mathlib.Data.List.Chain
import Mathlib.Order.Basic

/-!
# Deterministic machines and their runs

A `Machine` takes a state and an input to an output and the next state.  The
rules below carry a fact about one step to a fact about a whole run, and every
run-level result of the development goes through one of them.

* `invariant_run` for a predicate on states, and `AllSteps.of_invariant` for
  what it says of each step.
* `states_isChain` for a relation between each state and the next.
* `related_run` for a preorder between the first and the last state.
* `lockstep_outs` and `lockstep_run` for two runs over the same inputs from
  related states: the outputs agree and the last states are related.
  `lockstep_map` is for outputs that agree up to a function.

Each rule is stated for runs whose steps all meet a condition, which
`AllSteps` collects along the run.  `allSteps_of_mem` discharges it where it
is about the inputs, and `allSteps_of_forall` where there is none.

`comap` is a machine under other inputs, which name its own.

`collect` is what a function says of each step of a run, and `collect_run` is
about a log that the steps append to.  A machine `Works` another when each of
its steps is a run of the other one, and `Works.run` carries that to its runs.

`noting` adds to the state the states in which some inputs were taken, for
results that compare a state with an earlier one.

The last section is the replay guard: a machine that keeps one counter for
each account and accepts an input only above the counter accepts no input
twice.
-/

/-- One step takes a state and an input to an output and the next state. -/
structure Machine (σ ι ο : Type*) where
  step : σ → ι → ο × σ

namespace Machine

variable {σ ι ο : Type*} (m : Machine σ ι ο)

/-- The state after one input. -/
def next (s : σ) (i : ι) : σ := (m.step s i).2

/-- What one input answers. -/
def out (s : σ) (i : ι) : ο := (m.step s i).1

/-- The state after a list of inputs. -/
def run : σ → List ι → σ
  | s, [] => s
  | s, i :: is => run (m.next s i) is

/-- What a list of inputs answers. -/
def outs : σ → List ι → List ο
  | _, [] => []
  | s, i :: is => m.out s i :: outs (m.next s i) is

/-- The states a list of inputs goes through, the first one included. -/
def states : σ → List ι → List σ
  | s, [] => [s]
  | s, i :: is => s :: states (m.next s i) is

/-- Every step of the run meets `P`, which may look at the state before it. -/
def AllSteps (P : σ → ι → Prop) : σ → List ι → Prop
  | _, [] => True
  | s, i :: is => P s i ∧ AllSteps P (m.next s i) is

@[simp] theorem run_nil (s : σ) : m.run s [] = s := rfl

@[simp] theorem run_cons (s : σ) (i : ι) (is : List ι) :
    m.run s (i :: is) = m.run (m.next s i) is := rfl

theorem run_append (s : σ) (is js : List ι) :
    m.run s (is ++ js) = m.run (m.run s is) js := by
  induction is generalizing s with
  | nil => rfl
  | cons i is ih => exact ih (m.next s i)

theorem run_concat (s : σ) (is : List ι) (i : ι) :
    m.run s (is ++ [i]) = m.next (m.run s is) i := by
  rw [run_append]
  rfl

theorem allSteps_append {P : σ → ι → Prop} {s : σ} {is js : List ι} :
    m.AllSteps P s (is ++ js) ↔ m.AllSteps P s is ∧ m.AllSteps P (m.run s is) js := by
  induction is generalizing s with
  | nil => simp [AllSteps]
  | cons i is ih => simp [AllSteps, ih, and_assoc]

theorem allSteps_of_mem {P : σ → ι → Prop} (s : σ) {is : List ι} (h : ∀ i ∈ is, ∀ s, P s i) :
    m.AllSteps P s is := by
  induction is generalizing s with
  | nil => trivial
  | cons i is ih =>
    exact ⟨h i List.mem_cons_self s, ih (m.next s i) fun j hj => h j (List.mem_cons_of_mem i hj)⟩

theorem AllSteps.and_mem {P : σ → ι → Prop} {s : σ} {is : List ι} (h : m.AllSteps P s is)
    {Q : ι → Prop} (hQ : ∀ i ∈ is, Q i) : m.AllSteps (fun s i => Q i ∧ P s i) s is := by
  induction is generalizing s with
  | nil => trivial
  | cons i is ih =>
    exact ⟨⟨hQ i List.mem_cons_self, h.1⟩, ih h.2 fun j hj => hQ j (List.mem_cons_of_mem i hj)⟩

/-- What every answer of a run is, it is step by step. -/
theorem forall_outs_iff {P : ο → Prop} {s : σ} {is : List ι} :
    (∀ o ∈ m.outs s is, P o) ↔ m.AllSteps (fun s i => P (m.out s i)) s is := by
  induction is generalizing s with
  | nil => simp [outs, AllSteps]
  | cons i is ih =>
    simp only [outs, AllSteps, List.forall_mem_cons]
    exact and_congr_right fun _ => ih

theorem AllSteps.imp {P Q : σ → ι → Prop} (h : ∀ s i, P s i → Q s i) {s : σ} {is : List ι}
    (hP : m.AllSteps P s is) : m.AllSteps Q s is := by
  induction is generalizing s with
  | nil => trivial
  | cons i is ih => exact ⟨h s i hP.1, ih hP.2⟩

theorem allSteps_of_forall {P : σ → ι → Prop} (h : ∀ s i, P s i) (s : σ) (is : List ι) :
    m.AllSteps P s is :=
  m.allSteps_of_mem s fun i _ s => h s i

/-! ## From one step to a run -/

/-- A relation that each step keeps to links the states of a run. -/
theorem states_isChain {R : σ → σ → Prop} {s : σ} {is : List ι}
    (h : m.AllSteps (fun s i => R s (m.next s i)) s is) : (m.states s is).IsChain R := by
  induction is generalizing s with
  | nil => exact .singleton s
  | cons i is ih =>
    have hrest := ih h.2
    cases is with
    | nil => exact .cons_cons h.1 hrest
    | cons j is => exact .cons_cons h.1 hrest

/-- What each step of a run keeps, the run keeps. -/
theorem invariant_run {Inv : σ → Prop} {P : σ → ι → Prop}
    (hstep : ∀ s i, Inv s → P s i → Inv (m.next s i))
    {s : σ} {is : List ι} (hs : Inv s) (hP : m.AllSteps P s is) :
    Inv (m.run s is) := by
  induction is generalizing s with
  | nil => exact hs
  | cons i is ih => exact ih (hstep s i hs hP.1) hP.2

/-- What holds of a step from a state that meets an invariant holds of every
step of a run. -/
theorem AllSteps.of_invariant {Inv : σ → Prop} {P Q : σ → ι → Prop}
    (hInv : ∀ s i, Inv s → P s i → Inv (m.next s i)) (hQ : ∀ s i, Inv s → P s i → Q s i)
    {s : σ} {is : List ι} (hs : Inv s) (hP : m.AllSteps P s is) : m.AllSteps Q s is := by
  induction is generalizing s with
  | nil => trivial
  | cons i is ih => exact ⟨hQ s i hs hP.1, ih (hInv s i hs hP.1) hP.2⟩

/-- A preorder that each step climbs relates the ends of a run. -/
theorem related_run {Inv : σ → Prop} {P : σ → ι → Prop} {R : σ → σ → Prop}
    (hrefl : ∀ s, R s s) (htrans : ∀ a b c, R a b → R b c → R a c)
    (hInv : ∀ s i, Inv s → P s i → Inv (m.next s i))
    (hstep : ∀ s i, Inv s → P s i → R s (m.next s i))
    {s : σ} {is : List ι} (hs : Inv s) (hP : m.AllSteps P s is) :
    R s (m.run s is) := by
  induction is generalizing s with
  | nil => exact hrefl s
  | cons i is ih =>
    exact htrans _ _ _ (hstep s i hs hP.1) (ih (hInv s i hs hP.1) hP.2)

section Lockstep

variable {τ : Type*} (n : Machine τ ι ο) {R : σ → τ → Prop} {P : σ → ι → Prop}

/-- Two machines in step, from related states, stay related. -/
theorem lockstep_run (hstep : ∀ s t i, R s t → P s i → R (m.next s i) (n.next t i))
    {s : σ} {t : τ} {is : List ι} (hst : R s t) (hP : m.AllSteps P s is) :
    R (m.run s is) (n.run t is) := by
  induction is generalizing s t with
  | nil => exact hst
  | cons i is ih => exact ih (hstep s t i hst hP.1) hP.2

/-- Two machines in step, from related states, answer alike up to `f`. -/
theorem lockstep_map (f : ο → ο) (hstep : ∀ s t i, R s t → P s i → R (m.next s i) (n.next t i))
    (hout : ∀ s t i, R s t → P s i → n.out t i = f (m.out s i))
    {s : σ} {t : τ} {is : List ι} (hst : R s t) (hP : m.AllSteps P s is) :
    n.outs t is = (m.outs s is).map f := by
  induction is generalizing s t with
  | nil => rfl
  | cons i is ih =>
    simp only [outs, List.map_cons]
    rw [hout s t i hst hP.1, ih (hstep s t i hst hP.1) hP.2]

/-- Two machines in step, from related states, answer alike. -/
theorem lockstep_outs (hstep : ∀ s t i, R s t → P s i → R (m.next s i) (n.next t i))
    (hout : ∀ s t i, R s t → P s i → m.out s i = n.out t i)
    {s : σ} {t : τ} {is : List ι} (hst : R s t) (hP : m.AllSteps P s is) :
    m.outs s is = n.outs t is := by
  have hsame := lockstep_map m n id hstep (fun s t i hst hi => (hout s t i hst hi).symm) hst hP
  rw [hsame, List.map_id]

end Lockstep

/-! ## Other names for the inputs -/

section Comap

variable {κ : Type*} (f : κ → ι)

/-- The machine under inputs that name inputs of it. -/
def comap : Machine σ κ ο where
  step s k := m.step s (f k)

theorem run_comap (s : σ) (ks : List κ) : (m.comap f).run s ks = m.run s (ks.map f) := by
  induction ks generalizing s with
  | nil => rfl
  | cons k ks ih => exact ih _

theorem outs_comap (s : σ) (ks : List κ) : (m.comap f).outs s ks = m.outs s (ks.map f) := by
  induction ks generalizing s with
  | nil => rfl
  | cons k ks ih =>
    simp only [outs, List.map_cons]
    exact congrArg _ (ih _)

end Comap

/-! ## States taken note of -/

section Noting

variable (marks : σ → ι → Bool)

/-- The machine, and beside its state every state that was marked for the input
it took. -/
def noting : Machine (σ × List σ) ι ο where
  step s i := (m.out s.1 i, m.next s.1 i, if marks s.1 i then s.2 ++ [s.1] else s.2)

end Noting

/-! ## What a run collects -/

section Collect

variable {α : Type*} (f : σ → ι → List α)

/-- What `f` says of each step of a run, one after the other. -/
def collect : σ → List ι → List α
  | _, [] => []
  | s, i :: is => f s i ++ collect (m.next s i) is

/-- A log that each step appends to has at the end what the run collects. -/
theorem collect_run {Inv : σ → List α → Prop} {P : σ → ι → Prop}
    (hstep : ∀ s i log, Inv s log → P s i → Inv (m.next s i) (log ++ f s i))
    {s : σ} {log : List α} (hs : Inv s log) {is : List ι} (hP : m.AllSteps P s is) :
    Inv (m.run s is) (log ++ m.collect f s is) := by
  induction is generalizing s log with
  | nil =>
    rw [collect, List.append_nil]
    exact hs
  | cons i is ih =>
    rw [collect, ← List.append_assoc]
    exact ih (hstep s i log hs hP.1) hP.2

/-- What a run collects comes from one of its steps. -/
theorem mem_collect {s : σ} {is : List ι} {a : α} :
    a ∈ m.collect f s is ↔ ∃ before i after, is = before ++ i :: after ∧ a ∈ f (m.run s before) i := by
  induction is generalizing s with
  | nil => simp [collect]
  | cons j js ih =>
    rw [collect, List.mem_append, ih]
    constructor
    · rintro (hfirst | ⟨before, i, after, rfl, hlater⟩)
      · exact ⟨[], j, js, rfl, hfirst⟩
      · exact ⟨j :: before, i, after, rfl, hlater⟩
    · rintro ⟨before, i, after, hsplit, hmem⟩
      cases before with
      | nil =>
        cases hsplit
        exact .inl hmem
      | cons k before =>
        cases hsplit
        exact .inr ⟨before, i, after, rfl, hmem⟩

end Collect

/-! ## Machines that work another -/

section Works

variable {τ κ π : Type*} (n : Machine τ κ π) (f : σ → τ) (g : σ → ι → List κ)

/-- Each step of `m` puts the inputs that `g` names to `n`, whose state is
where `f` finds it. -/
def Works : Prop := ∀ s i, f (m.next s i) = n.run (f s) (g s i)

variable {m n f g}

/-- A run of `m` is then a run of `n`. -/
theorem Works.run (h : m.Works n f g) (s : σ) (is : List ι) :
    f (m.run s is) = n.run (f s) (m.collect g s is) := by
  induction is generalizing s with
  | nil => rfl
  | cons i is ih => rw [run_cons, ih, h s i, collect, run_append]

/-- The steps of `n` meet what those of each step of `m` meet. -/
theorem Works.allSteps (h : m.Works n f g) {P : σ → ι → Prop} {Q : τ → κ → Prop}
    (hstep : ∀ s i, P s i → n.AllSteps Q (f s) (g s i)) {s : σ} {is : List ι}
    (hP : m.AllSteps P s is) : n.AllSteps Q (f s) (m.collect g s is) := by
  induction is generalizing s with
  | nil => trivial
  | cons i is ih =>
    rw [collect, allSteps_append, ← h s i]
    exact ⟨hstep s i hP.1, ih hP.2⟩

end Works

/-! ## The replay guard -/

section ReplayGuard

variable {α β : Type*} [Preorder β]

/-- `m` guards against replays while `Inv` holds and the steps meet `P`.
`counter s a` is the counter of account `a`, if there is one, and
`spends s i = some (a, b)` says that input `i` uses up the number `b` of
account `a`.  No step loses or lowers a counter, and a step that spends a
number finds the counter below it and leaves the counter at it. -/
structure ReplayGuard (Inv : σ → Prop) (P : σ → ι → Prop)
    (counter : σ → α → Option β) (spends : σ → ι → Option (α × β)) : Prop where
  inv : ∀ s i, Inv s → P s i → Inv (m.next s i)
  climbs : ∀ s i a b, Inv s → P s i → counter s a = some b →
    ∃ b', counter (m.next s i) a = some b' ∧ b ≤ b'
  below : ∀ s i a b, Inv s → P s i → spends s i = some (a, b) →
    ∃ b₀, counter s a = some b₀ ∧ b₀ < b
  lands : ∀ s i a b, Inv s → P s i → spends s i = some (a, b) →
    counter (m.next s i) a = some b

variable {m} {Inv : σ → Prop} {P : σ → ι → Prop}
  {counter : σ → α → Option β} {spends : σ → ι → Option (α × β)}

/-- No run loses or lowers a counter. -/
theorem ReplayGuard.climbs_run (h : m.ReplayGuard Inv P counter spends)
    {s : σ} {is : List ι} (hs : Inv s) (hP : m.AllSteps P s is)
    {a : α} {b : β} (hb : counter s a = some b) :
    ∃ b', counter (m.run s is) a = some b' ∧ b ≤ b' := by
  induction is generalizing s b with
  | nil => exact ⟨b, hb, le_refl b⟩
  | cons i is ih =>
    obtain ⟨b₁, hb₁, hle₁⟩ := h.climbs s i a b hs hP.1 hb
    obtain ⟨b₂, hb₂, hle₂⟩ := ih (h.inv s i hs hP.1) hP.2 hb₁
    exact ⟨b₂, hb₂, le_trans hle₁ hle₂⟩

/-- A number spent at one step of a run is not spent at a later one. -/
theorem ReplayGuard.spends_once (h : m.ReplayGuard Inv P counter spends)
    {s : σ} {i j : ι} {is : List ι} (hs : Inv s) (hi : P s i)
    (his : m.AllSteps P (m.next s i) is) (hj : P (m.run (m.next s i) is) j)
    {x : α × β} (hx : spends s i = some x) :
    spends (m.run (m.next s i) is) j ≠ some x := by
  obtain ⟨a, b⟩ := x
  intro hagain
  have hInv : Inv (m.next s i) := h.inv s i hs hi
  have hInv' : Inv (m.run (m.next s i) is) := m.invariant_run h.inv hInv his
  have hland : counter (m.next s i) a = some b := h.lands s i a b hs hi hx
  obtain ⟨b', hb', hle⟩ := h.climbs_run hInv his hland
  obtain ⟨b₀, hb₀, hlt⟩ := h.below _ j a b hInv' hj hagain
  -- The counter reached `b` at the first spending, so it cannot be below it now.
  have : b' = b₀ := Option.some.inj (hb'.symm.trans hb₀)
  subst this
  exact absurd (lt_of_le_of_lt hle hlt) (lt_irrefl b)

end ReplayGuard

end Machine

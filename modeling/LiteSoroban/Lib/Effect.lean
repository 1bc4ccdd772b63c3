import Mathlib.Data.List.Forall2
import Mathlib.Order.Defs.Unbundled

/-!
# State and exceptions

`EStateM ε σ` is the monad of a program that mutates a state and may throw:
a thrown exception keeps the state as it stood at the throw, as in a language
whose exceptions do not roll anything back.  The core library has the monad
and its laws.  This module adds what proofs about such programs need.

* `bind_eq_ok` and `bind_eq_error` invert a sequence of two programs.
* `finalState` is the state a run ends in, whether it returns or throws.
  `finalState_bind` composes what two programs do to it.  `answer` is what the
  run returns or throws.
* `Throws` says that a run ends with an exception, and `throws_bind` finds the
  half of a sequence that throws.
* `mapState` is a run over states that went through a function.
* `Within` bounds what a program can do to the state, whether it returns or
  throws, by a preorder on states.
* `Respects` compares two runs of a program from related states: they answer
  alike and end in related states.
* `Except.bind_eq_ok` is the inversion for programs without a state, and
  `Except.forM_eq_ok`, `Except.mapM_ok_forall₂` and `Except.mapM_eq_self` are
  for such programs over a list.
-/

namespace Effect

variable {ε σ α β : Type}

/-- The state a run ends in, by a value or by an exception. -/
def finalState : EStateM.Result ε σ α → σ
  | .ok _ s => s
  | .error _ s => s

/-- What a run ends with, a value or an exception. -/
def answer : EStateM.Result ε σ α → Except ε α
  | .ok a _ => .ok a
  | .error e _ => .error e

theorem get_run (s : σ) : (MonadStateOf.get : EStateM ε σ σ) s = .ok s s := rfl

@[simp] theorem finalState_ok (a : α) (s : σ) :
    finalState (.ok a s : EStateM.Result ε σ α) = s := rfl

@[simp] theorem finalState_error (e : ε) (s : σ) :
    finalState (.error e s : EStateM.Result ε σ α) = s := rfl

/-- A sequence returns when both halves do. -/
theorem bind_eq_ok {x : EStateM ε σ α} {f : α → EStateM ε σ β} {s s' : σ} {b : β} :
    (x >>= f) s = .ok b s' ↔ ∃ a s₁, x s = .ok a s₁ ∧ f a s₁ = .ok b s' := by
  simp only [bind, EStateM.bind]
  cases x s with
  | ok a s₁ =>
    constructor
    · exact fun h => ⟨a, s₁, rfl, h⟩
    · rintro ⟨_, _, ⟨⟩, h⟩
      exact h
  | error e s₁ => simp

/-- A sequence throws when the first half does, or the second after it. -/
theorem bind_eq_error {x : EStateM ε σ α} {f : α → EStateM ε σ β} {s s' : σ} {e : ε} :
    (x >>= f) s = .error e s' ↔
      x s = .error e s' ∨ ∃ a s₁, x s = .ok a s₁ ∧ f a s₁ = .error e s' := by
  simp only [bind, EStateM.bind]
  cases x s with
  | ok a s₁ =>
    constructor
    · exact fun h => .inr ⟨a, s₁, rfl, h⟩
    · rintro (⟨⟨⟩⟩ | ⟨_, _, ⟨⟩, h⟩)
      exact h
  | error e s₁ => simp

@[simp] theorem pure_eq_ok {a b : α} {s s' : σ} :
    (pure a : EStateM ε σ α) s = .ok b s' ↔ a = b ∧ s = s' := by
  simp [pure, EStateM.pure]

@[simp] theorem pure_ne_error {a : α} {e : ε} {s s' : σ} :
    (pure a : EStateM ε σ α) s ≠ .error e s' := by
  simp [pure, EStateM.pure]

/-! ## Programs that throw -/

/-- The run ends with an exception. -/
def Throws (x : EStateM ε σ α) (s : σ) : Prop := ∃ e s', x s = .error e s'

theorem not_throws_pure (a : α) (s : σ) : ¬ Throws (pure a : EStateM ε σ α) s := by
  rintro ⟨e, s', h⟩
  exact pure_ne_error h

/-- A sequence throws when its first half does, or when its second half throws
where the first one ends. -/
theorem throws_bind {x : EStateM ε σ α} {f : α → EStateM ε σ β} {s : σ} :
    Throws (x >>= f) s ↔ Throws x s ∨ ∃ a s₁, x s = .ok a s₁ ∧ Throws (f a) s₁ := by
  simp only [Throws, bind_eq_error]
  constructor
  · rintro ⟨e, s', hx | ⟨a, s₁, hx, hf⟩⟩
    · exact .inl ⟨e, s', hx⟩
    · exact .inr ⟨a, s₁, hx, e, s', hf⟩
  · rintro (⟨e, s', hx⟩ | ⟨a, s₁, hx, e, s', hf⟩)
    · exact ⟨e, s', .inl hx⟩
    · exact ⟨e, s', .inr ⟨a, s₁, hx, hf⟩⟩

/-- A pure function after a program does not make it throw. -/
theorem throws_map {x : EStateM ε σ α} {f : α → β} {s : σ} :
    Throws (x >>= fun a => pure (f a)) s ↔ Throws x s := by
  rw [throws_bind]
  constructor
  · rintro (hx | ⟨a, s₁, -, hf⟩)
    · exact hx
    · exact absurd hf (not_throws_pure (f a) s₁)
  · exact .inl

/-! ## Where a run ends -/

/-- A pure function after a program does not change where it ends. -/
theorem finalState_map (x : EStateM ε σ α) (f : α → β) (s : σ) :
    finalState ((x >>= fun a => pure (f a)) s) = finalState (x s) := by
  simp only [bind, EStateM.bind]
  cases x s <;> rfl

/-- The same run over states that went through `f`. -/
def mapState (f : σ → σ) : EStateM.Result ε σ α → EStateM.Result ε σ α
  | .ok a s => .ok a (f s)
  | .error e s => .error e (f s)

@[simp] theorem finalState_mapState (f : σ → σ) (result : EStateM.Result ε σ α) :
    finalState (mapState f result) = f (finalState result) := by
  cases result <;> rfl

@[simp] theorem answer_mapState (f : σ → σ) (result : EStateM.Result ε σ α) :
    answer (mapState f result) = answer result := by
  cases result <;> rfl

/-- Where a sequence ends is related to where it starts when each half relates
its own ends, whether it returns or throws. -/
theorem finalState_bind {R : σ → σ → Prop} (htrans : ∀ {a b c}, R a b → R b c → R a c)
    {x : EStateM ε σ α} {f : α → EStateM ε σ β} {s : σ} (hx : R s (finalState (x s)))
    (hf : ∀ a s₁, x s = .ok a s₁ → R s₁ (finalState (f a s₁))) :
    R s (finalState ((x >>= f) s)) := by
  simp only [bind, EStateM.bind]
  cases hxs : x s with
  | ok a s₁ =>
    rw [hxs] at hx
    exact htrans hx (hf a s₁ hxs)
  | error e s₁ =>
    rw [hxs] at hx
    exact hx

/-! ## Programs within a preorder -/

/-- Every run of the program ends in a state that `R` relates to the one it
starts in. -/
def Within (R : σ → σ → Prop) (x : EStateM ε σ α) : Prop :=
  ∀ s, R s (finalState (x s))

namespace Within

variable {R : σ → σ → Prop} [IsPreorder σ R]

/-- A program that changes nothing is within every preorder. -/
theorem of_eq {x : EStateM ε σ α} (h : ∀ s, finalState (x s) = s) : Within R x := by
  intro s
  rw [h s]
  exact refl_of R s

theorem pure (a : α) : Within R (Pure.pure a : EStateM ε σ α) := of_eq fun _ => rfl

theorem throw (e : ε) : Within R (throw e : EStateM ε σ α) := of_eq fun _ => rfl

theorem get : Within R (MonadState.get : EStateM ε σ σ) := of_eq fun _ => rfl

theorem bind {x : EStateM ε σ α} {f : α → EStateM ε σ β} (hx : Within R x)
    (hf : ∀ a, Within R (f a)) : Within R (x >>= f) :=
  fun s => finalState_bind (R := R) (trans_of R) (hx s) fun a s₁ _ => hf a s₁

end Within

/-! ## Two runs of a program -/

/-- Two runs answer alike and end in related states. -/
structure Agree (R : σ → σ → Prop) (r r' : EStateM.Result ε σ α) : Prop where
  answers : answer r' = answer r
  ends : R (finalState r) (finalState r')

/-- Two runs that agree return the same or throw the same. -/
theorem Agree.cases {R : σ → σ → Prop} {r r' : EStateM.Result ε σ α} (h : Agree R r r') :
    (∃ a s s', r = .ok a s ∧ r' = .ok a s' ∧ R s s') ∨
      ∃ e s s', r = .error e s ∧ r' = .error e s' ∧ R s s' := by
  obtain ⟨hanswers, hends⟩ := h
  cases r with
  | ok a s =>
    cases r' with
    | ok a' s' =>
      cases hanswers
      exact .inl ⟨a, s, s', rfl, rfl, hends⟩
    | error e s' => cases hanswers
  | error e s =>
    cases r' with
    | ok a s' => cases hanswers
    | error e' s' =>
      cases hanswers
      exact .inr ⟨e, s, s', rfl, rfl, hends⟩

theorem Agree.mapState {R : σ → σ → Prop} {r : EStateM.Result ε σ α} {f : σ → σ}
    (h : R (finalState r) (f (finalState r))) : Agree R r (mapState f r) :=
  ⟨answer_mapState f r, by rw [finalState_mapState]; exact h⟩

/-- Two runs of a sequence agree when the runs of its first half do, and then
those of its second half. -/
theorem Agree.bind {R : σ → σ → Prop} {x : EStateM ε σ α} {f : α → EStateM ε σ β} {s s' : σ}
    (hx : Agree R (x s) (x s'))
    (hf : ∀ a s₁ s₁', x s = .ok a s₁ → R s₁ s₁' → Agree R (f a s₁) (f a s₁')) :
    Agree R ((x >>= f) s) ((x >>= f) s') := by
  simp only [Bind.bind, EStateM.bind]
  rcases hx.cases with ⟨a, s₁, s₁', hxs, hxs', hends⟩ | ⟨e, s₁, s₁', hxs, hxs', hends⟩
  · rw [hxs, hxs']
    exact hf a s₁ s₁' hxs hends
  · rw [hxs, hxs']
    exact ⟨rfl, hends⟩

/-- From related states the program answers alike, and ends in related
states. -/
def Respects (R : σ → σ → Prop) (x : EStateM ε σ α) : Prop :=
  ∀ s s', R s s' → Agree R (x s) (x s')

namespace Respects

variable {R : σ → σ → Prop}

theorem pure (a : α) : Respects R (Pure.pure a : EStateM ε σ α) := fun _ _ h => ⟨rfl, h⟩

theorem throw (e : ε) : Respects R (throw e : EStateM ε σ α) := fun _ _ h => ⟨rfl, h⟩

theorem bind {x : EStateM ε σ α} {f : α → EStateM ε σ β} (hx : Respects R x)
    (hf : ∀ a, Respects R (f a)) : Respects R (x >>= f) := by
  intro s s' h
  simp only [Bind.bind, EStateM.bind]
  rcases (hx s s' h).cases with ⟨a, s₁, s₁', hxs, hxs', hends⟩ | ⟨e, s₁, s₁', hxs, hxs', hends⟩
  · rw [hxs, hxs']
    exact hf a s₁ s₁' hends
  · rw [hxs, hxs']
    exact ⟨rfl, hends⟩

/-- A program that reads the state, and goes on alike in related ones. -/
theorem get_bind {f : σ → EStateM ε σ α} (hsame : ∀ s s', R s s' → f s' = f s)
    (hf : ∀ s, Respects R (f s)) : Respects R (MonadState.get >>= f) := by
  intro s s' h
  show Agree R (f s s) (f s' s')
  rw [hsame s s' h]
  exact hf s s s' h

end Respects

end Effect

namespace Except

variable {ε α β : Type}

/-- A sequence of two checks passes when both pass. -/
theorem bind_eq_ok {x : Except ε α} {f : α → Except ε β} {b : β} :
    (x >>= f) = .ok b ↔ ∃ a, x = .ok a ∧ f a = .ok b := by
  cases x with
  | ok a => simp [bind, Except.bind]
  | error e => simp [bind, Except.bind]

/-- A check of every element of a list passes when each of them does. -/
theorem forM_eq_ok {f : α → Except ε Unit} {as : List α} :
    as.forM f = .ok () ↔ ∀ a ∈ as, f a = .ok () := by
  induction as with
  | nil => simp [List.forM_eq_forM, pure, Except.pure]
  | cons a as ih =>
    rw [List.forM_eq_forM] at ih ⊢
    rw [List.forM_cons, bind_eq_ok, List.forall_mem_cons, ← ih]
    constructor
    · rintro ⟨⟨⟩, ha, has⟩
      exact ⟨ha, has⟩
    · rintro ⟨ha, has⟩
      exact ⟨(), ha, has⟩

/-- Steps that each answer, and whose answers relate to their inputs, answer a
list that relates to the inputs, in order. -/
theorem mapM_ok_forall₂ {f : α → Except ε β} {R : α → β → Prop} {as : List α}
    (h : ∀ a ∈ as, ∃ b, f a = .ok b ∧ R a b) :
    ∃ bs, as.mapM f = .ok bs ∧ List.Forall₂ R as bs := by
  induction as with
  | nil => exact ⟨[], rfl, .nil⟩
  | cons a as ih =>
    obtain ⟨ha, has⟩ := List.forall_mem_cons.mp h
    obtain ⟨b, hb, hab⟩ := ha
    obtain ⟨bs, hbs, habs⟩ := ih has
    refine ⟨b :: bs, ?_, .cons hab habs⟩
    simp only [List.mapM_cons, hb, hbs, bind, Except.bind, pure, Except.pure]

/-- Steps that each hand back their input hand back the list. -/
theorem mapM_eq_self {f : α → Except ε α} {as : List α} (h : ∀ a ∈ as, f a = .ok a) :
    as.mapM f = .ok as := by
  induction as with
  | nil => rfl
  | cons a as ih =>
    obtain ⟨ha, has⟩ := List.forall_mem_cons.mp h
    simp only [List.mapM_cons, ha, ih has, bind, Except.bind, pure, Except.pure]

end Except

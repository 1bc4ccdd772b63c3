import LiteSoroban.Lib.Machine
import Mathlib.Data.Finmap

/-!
# Answers kept

A memo keeps answers it has computed and gives them again.  It may keep some
and not others.  As long as everything it keeps is right, `Coherent`, no list
of questions tells it from the function it computes: `memo_outs`.

A machine may keep more in its state than its answers depend on.
`outs_forgetting` is about one that drops such a part of its state whenever it
likes.  It answers as before if dropping keeps the states related.
-/

namespace Machine

/-! ## A memo -/

section Memo

variable {α β : Type*} [DecidableEq α] (f : α → β) (keeps : β → Bool)

/-- Everything kept is what the function answers. -/
def Coherent (kept : Finmap fun _ : α => β) : Prop :=
  ∀ a b, kept.lookup a = some b → b = f a

/-- What is kept for the question, or else its answer, kept if it is one to
keep. -/
def consult (kept : Finmap fun _ : α => β) (a : α) : β × Finmap fun _ : α => β :=
  match kept.lookup a with
  | some b => (b, kept)
  | none => (f a, if keeps (f a) then kept.insert a (f a) else kept)

/-- A memo of `f`. -/
def memo : Machine (Finmap fun _ : α => β) α β := ⟨consult f keeps⟩

variable {f}

theorem Coherent.empty : Coherent f ∅ := by
  intro a b h
  rw [Finmap.lookup_empty] at h
  cases h

theorem Coherent.insert {kept : Finmap fun _ : α => β} (h : Coherent f kept) (a : α) :
    Coherent f (kept.insert a (f a)) := by
  intro a' b hb
  by_cases ha : a' = a
  · subst ha
    rw [Finmap.lookup_insert] at hb
    exact (Option.some.inj hb).symm
  · rw [Finmap.lookup_insert_of_ne _ ha] at hb
    exact h a' b hb

theorem Coherent.consult {kept : Finmap fun _ : α => β} (h : Coherent f kept) (a : α) :
    (consult f keeps kept a).1 = f a ∧ Coherent f (consult f keeps kept a).2 := by
  unfold Machine.consult
  cases hkept : kept.lookup a with
  | some b => exact ⟨h a b hkept, h⟩
  | none =>
    refine ⟨rfl, ?_⟩
    show Coherent f (if keeps (f a) then kept.insert a (f a) else kept)
    by_cases hkeep : keeps (f a) = true
    · rw [if_pos hkeep]
      exact h.insert a
    · rw [if_neg hkeep]
      exact h

/-- A memo answers what its function answers. -/
theorem memo_outs {kept : Finmap fun _ : α => β} (h : Coherent f kept) (as : List α) :
    (memo f keeps).outs kept as = as.map f := by
  induction as generalizing kept with
  | nil => rfl
  | cons a as ih =>
    obtain ⟨hanswer, hkept⟩ := h.consult keeps a
    simp only [outs, List.map_cons]
    exact congrArg₂ _ hanswer (ih hkept)

end Memo

/-! ## A part of the state dropped -/

section Forgetting

variable {σ ι ο : Type*} (m : Machine σ ι ο) (forget : σ → σ)

/-- The machine that drops a part of its state before the inputs that say
so. -/
def forgetting : Machine σ (Bool × ι) ο where
  step s i := m.step (if i.1 then forget s else s) i.2

/-- A machine answers the same whatever it forgets and when, if forgetting
relates the states and related states answer alike. -/
theorem outs_forgetting {R : σ → σ → Prop} {P : σ → ι → Prop}
    (hforget : ∀ s t, R s t → R s (forget t))
    (hnext : ∀ s t i, R s t → P s i → R (m.next s i) (m.next t i))
    (hout : ∀ s t i, R s t → P s i → m.out s i = m.out t i)
    {s t : σ} (hst : R s t) {is : List (Bool × ι)} (hP : m.AllSteps P s (is.map Prod.snd)) :
    (m.forgetting forget).outs t is = m.outs s (is.map Prod.snd) := by
  induction is generalizing s t with
  | nil => rfl
  | cons i is ih =>
    have hdropped : R s (if i.1 then forget t else t) := by
      by_cases hi : i.1 = true
      · rw [if_pos hi]
        exact hforget s t hst
      · rw [if_neg hi]
        exact hst
    simp only [outs, List.map_cons]
    exact congrArg₂ _ (hout s _ i.2 hdropped hP.1).symm (ih (hnext s _ i.2 hdropped hP.1) hP.2)

end Forgetting

end Machine

import Mathlib.Data.List.Basic

/-!
# Phases of a run

A run is a list of states in which `R` relates every state to every later one.
A predicate that is never met again once it has failed holds of a front part
of the run, and of no state after it.  Two such cuts divide a run into three
phases, the first of which may come back from neither of the others.
-/

namespace Phases

variable {σ : Type*} {R : σ → σ → Prop}

/-- A predicate that `R` carries back holds up to some state, and not from
there on. -/
theorem exists_front {p : σ → Prop} (hp : ∀ a b, R a b → p b → p a) {run : List σ}
    (hrun : run.Pairwise R) :
    ∃ front rest, run = front ++ rest ∧ (∀ s ∈ front, p s) ∧ ∀ s ∈ rest, ¬ p s := by
  induction run with
  | nil => exact ⟨[], [], rfl, by simp, by simp⟩
  | cons a run ih =>
    obtain ⟨hlater, hrest⟩ := List.pairwise_cons.mp hrun
    by_cases ha : p a
    · obtain ⟨front, rest, rfl, hfront, hnone⟩ := ih hrest
      refine ⟨a :: front, rest, rfl, ?_, hnone⟩
      intro s hs
      rcases List.mem_cons.mp hs with rfl | hs
      · exact ha
      · exact hfront s hs
    · refine ⟨[], a :: run, rfl, by simp, ?_⟩
      intro s hs
      rcases List.mem_cons.mp hs with rfl | hs
      · exact ha
      · exact fun hps => ha (hp a s (hlater s hs) hps)

/-- A run goes through three phases: while `p` holds, which `R` carries back,
then while neither holds, and once `q` does, which `R` carries on. -/
theorem exists_three {p q : σ → Prop} (hp : ∀ a b, R a b → p b → p a)
    (hq : ∀ a b, R a b → q a → q b) {run : List σ} (hrun : run.Pairwise R) :
    ∃ early between late, run = early ++ (between ++ late) ∧ (∀ s ∈ early, p s) ∧
      (∀ s ∈ between, ¬ p s ∧ ¬ q s) ∧ ∀ s ∈ late, ¬ p s ∧ q s := by
  obtain ⟨early, rest, rfl, hearly, hrest⟩ := exists_front hp hrun
  obtain ⟨between, late, rfl, hbetween, hlate⟩ :=
    exists_front (p := fun s => ¬ q s) (fun a b hab hb ha => hb (hq a b hab ha))
      (List.pairwise_append.mp hrun).2.1
  refine ⟨early, between, late, rfl, hearly, fun s hs => ?_, fun s hs => ?_⟩
  · exact ⟨hrest s (List.mem_append_left late hs), hbetween s hs⟩
  · exact ⟨hrest s (List.mem_append_right between hs), not_not.mp (hlate s hs)⟩

end Phases

import Mathlib.Data.List.Basic
import Mathlib.Logic.Function.Basic

/-!
# Objects filled field by field

An object starts empty and is filled by assignments that come from elsewhere,
in an order of their own and some of them more than once.  `fill` makes them
one after the other, and a later one wins.

Two facts are enough to know what it ends as.  `isSome_fill` says which fields
it has.  `fill_of_target` says what they hold, when all assignments agree with
one target.
-/

namespace Filling

variable {κ α : Type*} [DecidableEq κ]

/-- The object with the assignments made, in their order. -/
def fill (out : κ → Option α) : List (κ × α) → κ → Option α
  | [] => out
  | (field, value) :: rest => fill (Function.update out field (some value)) rest

theorem isSome_fill {out : κ → Option α} {fields : List (κ × α)} {field : κ} :
    (fill out fields field).isSome ↔ (out field).isSome ∨ field ∈ fields.map Prod.fst := by
  induction fields generalizing out with
  | nil => simp [fill]
  | cons assigned rest ih =>
    obtain ⟨first, value⟩ := assigned
    rw [fill, ih, List.map_cons, List.mem_cons]
    by_cases hfield : field = first
    · subst hfield
      simp
    · simp [hfield]

/-- Assignments that agree with a target leave an object that does. -/
theorem fill_of_target {target : κ → α} {fields : List (κ × α)}
    (hfields : ∀ assigned ∈ fields, assigned.2 = target assigned.1) {out : κ → Option α}
    (hout : ∀ field value, out field = some value → value = target field) {field : κ} {value : α}
    (h : fill out fields field = some value) : value = target field := by
  induction fields generalizing out with
  | nil => exact hout field value h
  | cons assigned rest ih =>
    obtain ⟨first, set⟩ := assigned
    refine ih (fun later hlater => hfields later (List.mem_cons_of_mem _ hlater)) ?_ h
    intro other value' hother
    by_cases hsame : other = first
    · subst hsame
      rw [Function.update_self] at hother
      rw [← Option.some.inj hother]
      exact hfields (other, set) List.mem_cons_self
    · rw [Function.update_of_ne hsame] at hother
      exact hout other value' hother

end Filling

import Mathlib.Data.Set.Basic
import Mathlib.Order.Basic

/-!
# Reading a collection page by page

A `Pager` answers a request with a page and the request to make next, or with
nothing when the read is over.  `Reads` relates a request to the pages of a
complete read and to the request that ended it.  The rules below are about
every pager.

* `reads_of_measure` for termination, and `not_reads_of_invariant` for its
  failure.
* `Reads.invariant` for what the requests of a read keep, up to the last one.
* `Reads.flatten_eq` for what a read delivers: all there was to read, if each
  page is the first part of what was left.
* `Reads.forall_page` for what holds of each page, by its place in the read.
-/

/-- `next req` is a page and the request that follows it. -/
structure Pager (ρ α : Type*) where
  next : ρ → Option (List α × ρ)

namespace Pager

variable {ρ α : Type*} (p : Pager ρ α)

/-- The pages of a read from a request, and the request that nothing is
answered to. -/
inductive Reads : ρ → List (List α) → ρ → Prop
  | done {req : ρ} (h : p.next req = none) : Reads req [] req
  | page {req req' last : ρ} {xs : List α} {pages : List (List α)}
      (h : p.next req = some (xs, req')) (rest : Reads req' pages last) :
      Reads req (xs :: pages) last

variable {p}

/-! ## Termination -/

/-- A read ends when each page brings a natural number down. -/
theorem reads_of_measure {Inv : ρ → Prop} (μ : ρ → Nat)
    (hInv : ∀ req xs req', Inv req → p.next req = some (xs, req') → Inv req')
    (hμ : ∀ req xs req', Inv req → p.next req = some (xs, req') → μ req' < μ req)
    {req : ρ} (hreq : Inv req) : ∃ pages last, p.Reads req pages last := by
  induction hn : μ req using Nat.strong_induction_on generalizing req with
  | _ n ih =>
    cases hnext : p.next req with
    | none => exact ⟨[], req, .done hnext⟩
    | some found =>
      have hlt : μ found.2 < n := by
        rw [← hn]
        exact hμ req found.1 found.2 hreq hnext
      have hfound : Inv found.2 := hInv req found.1 found.2 hreq hnext
      obtain ⟨pages, last, hpages⟩ := ih (μ found.2) hlt hfound rfl
      exact ⟨found.1 :: pages, last, .page hnext hpages⟩

/-- A read does not end when every request of some kind is answered with a page
and followed by one of that kind. -/
theorem not_reads_of_invariant (Inv : ρ → Prop)
    (hInv : ∀ req, Inv req → ∃ xs req', p.next req = some (xs, req') ∧ Inv req')
    {req last : ρ} {pages : List (List α)} (h : Inv req) : ¬ p.Reads req pages last := by
  intro hreads
  induction hreads with
  | done hnone =>
    obtain ⟨xs, req', hnext, -⟩ := hInv _ h
    rw [hnone] at hnext
    cases hnext
  | page hsome _ ih =>
    obtain ⟨xs, req', hnext, hreq'⟩ := hInv _ h
    rw [hsome] at hnext
    cases hnext
    exact ih hreq'

/-! ## What a read delivers -/

/-- The last request of a read is answered with nothing. -/
theorem Reads.next_last {req last : ρ} {pages : List (List α)} (h : p.Reads req pages last) :
    p.next last = none := by
  induction h with
  | done h => exact h
  | page _ _ ih => exact ih

/-- What each request of a read hands on to the next, the last one has. -/
theorem Reads.invariant {Inv : ρ → Prop}
    (hInv : ∀ req xs req', Inv req → p.next req = some (xs, req') → Inv req')
    {req last : ρ} {pages : List (List α)} (h : p.Reads req pages last) (hreq : Inv req) :
    Inv last := by
  induction h with
  | done _ => exact hreq
  | page h _ ih => exact ih (hInv _ _ _ hreq h)

/-- If each page is the first part of what was left to read, and nothing is
left at the end, the pages together are what there was to read. -/
theorem Reads.flatten_eq {Inv : ρ → Prop} (rest : ρ → List α)
    (hInv : ∀ req xs req', Inv req → p.next req = some (xs, req') → Inv req')
    (hdone : ∀ req, Inv req → p.next req = none → rest req = [])
    (hpage : ∀ req xs req', Inv req → p.next req = some (xs, req') → rest req = xs ++ rest req')
    {req last : ρ} {pages : List (List α)} (h : p.Reads req pages last) (hreq : Inv req) :
    pages.flatten = rest req := by
  induction h with
  | done h => exact (hdone _ hreq h).symm
  | page h _ ih =>
    rw [hpage _ _ _ hreq h, List.flatten_cons, ih (hInv _ _ _ hreq h)]

/-- What holds of the page that each request of a read brings, by its place in
the read. -/
theorem Reads.forall_page {Inv : ρ → Prop} (place : ρ → Nat) (P : Nat → List α → Prop)
    (hInv : ∀ req xs req', Inv req → p.next req = some (xs, req') → Inv req')
    (hplace : ∀ req xs req', Inv req → p.next req = some (xs, req') → place req' = place req + 1)
    (hP : ∀ req xs req', Inv req → p.next req = some (xs, req') → P (place req) xs)
    {req last : ρ} {pages : List (List α)} (h : p.Reads req pages last) (hreq : Inv req)
    (i : Nat) (hi : i < pages.length) : P (place req + i) pages[i] := by
  induction h generalizing i with
  | done h => simp at hi
  | page h _ ih =>
    cases i with
    | zero => exact hP _ _ _ hreq h
    | succ i =>
      have hrest := ih (hInv _ _ _ hreq h) i (by simpa using hi)
      rw [hplace _ _ _ hreq h] at hrest
      simpa [Nat.add_assoc, Nat.add_comm 1 i] using hrest

end Pager

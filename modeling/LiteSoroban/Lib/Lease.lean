import Mathlib.Order.Bounds.Basic
import LiteSoroban.Lib.Machine

/-!
# Leases

A lease is in force up to some time.  Time passes, a lease that is in force
can be extended, and one that has run out can be renewed.  An extension of a
lease that has run out does nothing, and so does a renewal of one in force.

The rules are about a lease over any list of such events.

* `ends_run` says when it ends: at the latest time it was ever given.
* `lapsed_run` is about a lease that has run out and is not renewed.
* `ends_le_run` bounds a lease that is only given short terms.
-/

/-- A lease at some time, and the last time at which it is in force. -/
structure Lease where
  now : Nat
  ends : Nat

namespace Lease

def Live (lease : Lease) : Prop := lease.now ≤ lease.ends

instance (lease : Lease) : Decidable lease.Live := inferInstanceAs (Decidable (_ ≤ _))

/-- What happens to a lease.  A term counts the current time in when it is a
renewal, and from the next time on when it is an extension. -/
inductive Event where
  | pass (n : Nat)
  | extend (n : Nat)
  | renew (n : Nat)
  deriving DecidableEq

/-- The end an event gives the lease, if it is for a lease in this state. -/
def granted (lease : Lease) : Event → Option Nat
  | .pass _ => none
  | .extend n => if lease.Live then some (lease.now + n) else none
  | .renew n => if lease.Live then none else some (lease.now + n - 1)

/-- One event. -/
def step (lease : Lease) (event : Event) : Lease :=
  match event with
  | .pass n => { lease with now := lease.now + n }
  | .extend n => if lease.Live then { lease with ends := max lease.ends (lease.now + n) } else lease
  | .renew n => if lease.Live then lease else { lease with ends := lease.now + n - 1 }

/-- The machine of a lease. -/
def leases : Machine Lease Event Unit where
  step lease event := ((), lease.step event)

@[simp] theorem leases_next (lease : Lease) (event : Event) :
    leases.next lease event = lease.step event := rfl

/-- A renewal is for one time at least. -/
def Event.Proper : Event → Prop
  | .renew n => 1 ≤ n
  | _ => True

/-- The event gives terms of at most this length, the current time included. -/
def Event.Within (limit : Nat) : Event → Prop
  | .pass _ => True
  | .extend n => n + 1 ≤ limit
  | .renew n => n ≤ limit

/-- What a run of events gives, in order. -/
def grants (lease : Lease) (events : List Event) : List Nat :=
  leases.collect (fun lease event => (lease.granted event).toList) lease events

/-- An event moves the end to what it gives, when that is later. -/
theorem ends_step {lease : Lease} {event : Event} (h : event.Proper) :
    (lease.step event).ends = ((lease.granted event).toList).foldl max lease.ends := by
  unfold step granted
  cases event with
  | pass n => rfl
  | extend n =>
    by_cases hlive : lease.Live
    · simp [hlive]
    · simp [hlive]
  | renew n =>
    by_cases hlive : lease.Live
    · simp [hlive]
    · have hproper : 1 ≤ n := h
      have hlapsed : ¬ lease.now ≤ lease.ends := hlive
      simp only [if_neg hlive, Option.toList_some, List.foldl_cons, List.foldl_nil]
      omega

/-- The end of a lease after a run, from what the run gave. -/
theorem ends_run_foldl {lease : Lease} {events : List Event} (h : ∀ event ∈ events, event.Proper) :
    (leases.run lease events).ends = (lease.grants events).foldl max lease.ends := by
  induction events generalizing lease with
  | nil => rfl
  | cons event events ih =>
    obtain ⟨hevent, hevents⟩ := List.forall_mem_cons.mp h
    show (leases.run (lease.step event) events).ends =
      ((lease.granted event).toList ++ (lease.step event).grants events).foldl max lease.ends
    rw [ih hevents, ends_step hevent, List.foldl_append]

theorem isGreatest_foldl_max (ends : Nat) (given : List Nat) :
    IsGreatest {t | t = ends ∨ t ∈ given} (given.foldl max ends) := by
  induction given generalizing ends with
  | nil => exact ⟨.inl rfl, fun t ht => ht.elim (fun h => h.le) fun h => by cases h⟩
  | cons first given ih =>
    obtain ⟨hmem, hupper⟩ := ih (max ends first)
    refine ⟨?_, fun t ht => ?_⟩
    · rcases hmem with hmax | hlater
      · rw [List.foldl_cons, hmax]
        rcases Nat.le_total first ends with h | h
        · exact .inl (Nat.max_eq_left h)
        · rw [Nat.max_eq_right h]
          exact .inr List.mem_cons_self
      · exact .inr (List.mem_cons_of_mem _ hlater)
    · rcases ht with rfl | ht
      · exact (le_max_left t first).trans (hupper (.inl rfl))
      · rcases List.mem_cons.mp ht with rfl | ht
        · exact (le_max_right ends t).trans (hupper (.inl rfl))
        · exact hupper (.inr ht)

/-- A lease ends at the latest time it was ever given, the one it started with
included. -/
theorem ends_run {lease : Lease} {events : List Event} (h : ∀ event ∈ events, event.Proper) :
    IsGreatest {t | t = lease.ends ∨ t ∈ lease.grants events} (leases.run lease events).ends := by
  rw [ends_run_foldl h]
  exact isGreatest_foldl_max lease.ends _

/-- A lease that has run out stays as it is until it is renewed. -/
theorem lapsed_run {lease : Lease} {events : List Event} (hlapsed : ¬ lease.Live)
    (h : ∀ event ∈ events, ∀ n, event ≠ .renew n) :
    (leases.run lease events).ends = lease.ends ∧ ¬ (leases.run lease events).Live := by
  refine @Machine.invariant_run _ _ _ leases (fun l => l.ends = lease.ends ∧ ¬ l.Live)
    (fun _ event => ∀ n, event ≠ .renew n) (fun l event hl hevent => ?_) _ _ ⟨rfl, hlapsed⟩
    (leases.allSteps_of_mem lease fun event hmem _ => h event hmem)
  obtain ⟨hends, hout⟩ := hl
  cases event with
  | pass n =>
    have hlate : ¬ l.now ≤ l.ends := hout
    refine ⟨hends, ?_⟩
    show ¬ l.now + n ≤ l.ends
    omega
  | extend n =>
    rw [leases_next, step, if_neg hout]
    exact ⟨hends, hout⟩
  | renew n => exact absurd rfl (hevent n)

/-- A lease that is given terms of at most `limit` ends when it would have
ended anyway, or within `limit` of the current time. -/
theorem ends_le_run {lease : Lease} {events : List Event} {limit : Nat}
    (h : ∀ event ∈ events, event.Within limit) :
    (leases.run lease events).ends ≤ max lease.ends ((leases.run lease events).now + limit - 1) := by
  refine @Machine.invariant_run _ _ _ leases
    (fun l => l.ends ≤ max lease.ends (l.now + limit - 1))
    (fun _ event => event.Within limit) (fun l event hl hevent => ?_) _ _ (le_max_left _ _)
    (leases.allSteps_of_mem lease fun event hmem _ => h event hmem)
  cases event with
  | pass n =>
    show l.ends ≤ max lease.ends (l.now + n + limit - 1)
    omega
  | extend n =>
    have hterm : n + 1 ≤ limit := hevent
    by_cases hlive : l.Live
    · rw [leases_next, step, if_pos hlive]
      show max l.ends (l.now + n) ≤ max lease.ends (l.now + limit - 1)
      omega
    · rw [leases_next, step, if_neg hlive]
      exact hl
  | renew n =>
    have hterm : n ≤ limit := hevent
    by_cases hlive : l.Live
    · rw [leases_next, step, if_pos hlive]
      exact hl
    · rw [leases_next, step, if_neg hlive]
      show l.now + n - 1 ≤ max lease.ends (l.now + limit - 1)
      omega

end Lease

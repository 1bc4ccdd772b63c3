import Mathlib.Algebra.GroupWithZero.Nat
import Mathlib.Algebra.Order.BigOperators.Group.List
import Mathlib.Algebra.Order.Ring.Nat

/-!
# How long an XDR value is

XDR encodes every value in a multiple of four bytes.  A variable-length value
has its length in front, an optional value a flag, and a union its
discriminant, each a word of four bytes.  The functions below give the length
of an encoding from the lengths of its parts, and the lemmas bound it when the
parts are bounded.  The last two bound the total length of what a list names.
-/

namespace Xdr

/-- A length rounded up to whole words. -/
def padded (n : Nat) : Nat := (n + 3) / 4 * 4

/-- Bytes of variable length, `n` of them. -/
def varBytes (n : Nat) : Nat := 4 + padded n

/-- An array of variable length, given the lengths of its items. -/
def varArray (sizes : List Nat) : Nat := 4 + sizes.sum

/-- An optional value, given the length of the value when it is there. -/
def optionalField : Option Nat → Nat
  | none => 4
  | some n => 4 + n

theorem padded_mono {m n : Nat} (h : m ≤ n) : padded m ≤ padded n := by
  simp only [padded]
  omega

theorem varBytes_mono {m n : Nat} (h : m ≤ n) : varBytes m ≤ varBytes n :=
  Nat.add_le_add_left (padded_mono h) 4

/-- An optional value of at most `n` bytes. -/
theorem optionalField_le {α : Type*} {o : Option α} {size : α → Nat} {n : Nat}
    (hsize : ∀ a, o = some a → size a ≤ n) : optionalField (o.map size) ≤ 4 + n := by
  cases o with
  | none => simp [optionalField]
  | some a => exact Nat.add_le_add_left (hsize a rfl) 4

/-- An array of at most `k` items of at most `n` bytes each. -/
theorem varArray_le {α : Type*} {items : List α} {size : α → Nat} {k n : Nat}
    (hlength : items.length ≤ k) (hsize : ∀ a ∈ items, size a ≤ n) :
    varArray (items.map size) ≤ 4 + k * n := by
  have hsum : (items.map size).sum ≤ items.length * n := by
    have h := List.sum_le_card_nsmul (items.map size) n (by simpa using hsize)
    simpa using h
  have hcount : items.length * n ≤ k * n := Nat.mul_le_mul_right n hlength
  unfold varArray
  omega

/-- What one list names once and another names too adds up to no more there. -/
theorem sum_le_of_nodup_subset {α : Type*} [DecidableEq α] (size : α → Nat) {xs ys : List α}
    (hnodup : xs.Nodup) (hsubset : xs ⊆ ys) : (xs.map size).sum ≤ (ys.map size).sum := by
  obtain ⟨zs, hperm, hsublist⟩ := List.subperm_of_subset hnodup hsubset
  rw [← (hperm.map size).sum_eq]
  exact (hsublist.map size).sum_le_sum fun _ _ => Nat.zero_le _

/-- What is of one kind or on a list, where each is named once: the sizes of
the kind and of the list cover it. -/
theorem sum_le_of_kind_or_listed {α : Type*} [DecidableEq α] (size : α → Nat) (kind : α → Bool)
    {xs listed : List α} (hnodup : xs.Nodup) {read : α → Nat}
    (hread : ∀ a, read a ≤ if kind a = true ∨ a ∈ listed then size a else 0) :
    (xs.map read).sum ≤ ((xs.filter kind).map size).sum + (listed.map size).sum := by
  have hlisted : ((xs.filter fun a => !kind a && decide (a ∈ listed)).map size).sum ≤
      (listed.map size).sum := by
    apply sum_le_of_nodup_subset size (hnodup.filter _)
    intro a ha
    have hboth := (List.mem_filter.mp ha).2
    simp only [Bool.and_eq_true, decide_eq_true_eq] at hboth
    exact hboth.2
  have hsplit : (xs.map read).sum ≤ ((xs.filter kind).map size).sum +
      ((xs.filter fun a => !kind a && decide (a ∈ listed)).map size).sum := by
    clear hnodup hlisted
    induction xs with
    | nil => exact Nat.zero_le _
    | cons a xs ih =>
      have ha := hread a
      by_cases hkind : kind a = true
      · rw [if_pos (.inl hkind)] at ha
        simp [hkind]
        omega
      · by_cases hmem : a ∈ listed
        · rw [if_pos (.inr hmem)] at ha
          simp [hkind, hmem]
          omega
        · rw [if_neg (not_or.mpr ⟨hkind, hmem⟩)] at ha
          simp [hkind, hmem]
          omega
  omega

end Xdr

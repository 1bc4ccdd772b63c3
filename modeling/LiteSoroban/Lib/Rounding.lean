import Mathlib.Algebra.GroupWithZero.Nat
import Mathlib.Order.Nat
import Mathlib.Tactic.SplitIfs

/-!
# Rounding to a multiple

`roundEven` rounds a natural number to a multiple of a unit, halves to the
even multiple.  It keeps the order of the numbers, and it does not cross a
multiple of the unit.  The second fact compares numbers that are rounded to
different units.
-/

namespace Rounding

/-- The nearest multiple of the unit, ties to an even one. -/
def roundEven (unit n : Nat) : Nat :=
  let quotient := n / unit
  let rest := n % unit
  if 2 * rest < unit then quotient * unit
  else if 2 * rest = unit ∧ quotient % 2 = 0 then quotient * unit
  else (quotient + 1) * unit

/-- Rounding stays between the multiples around a number. -/
theorem roundEven_bounds (unit n : Nat) :
    n / unit * unit ≤ roundEven unit n ∧ roundEven unit n ≤ (n / unit + 1) * unit := by
  have hstep : n / unit * unit ≤ (n / unit + 1) * unit :=
    Nat.mul_le_mul_right unit (Nat.le_succ _)
  unfold roundEven
  dsimp only
  split_ifs
  · exact ⟨le_rfl, hstep⟩
  · exact ⟨le_rfl, hstep⟩
  · exact ⟨hstep, le_rfl⟩

theorem roundEven_mono (unit : Nat) {m n : Nat} (h : m ≤ n) :
    roundEven unit m ≤ roundEven unit n := by
  have hdiv : m / unit ≤ n / unit := Nat.div_le_div_right h
  rcases Nat.lt_or_eq_of_le hdiv with hlt | heq
  · calc roundEven unit m ≤ (m / unit + 1) * unit := (roundEven_bounds unit m).2
      _ ≤ n / unit * unit := Nat.mul_le_mul_right unit hlt
      _ ≤ roundEven unit n := (roundEven_bounds unit n).1
  · -- Between the same two multiples, the larger remainder rounds up first.
    have hrest : m % unit ≤ n % unit := by
      have hm := Nat.div_add_mod m unit
      have hn := Nat.div_add_mod n unit
      rw [heq] at hm
      omega
    have hstep : n / unit * unit ≤ (n / unit + 1) * unit :=
      Nat.mul_le_mul_right unit (Nat.le_succ _)
    unfold roundEven
    simp only [heq]
    split_ifs <;> first | exact le_rfl | exact hstep | omega

/-- A multiple of the unit above a number is not below its rounding. -/
theorem roundEven_le_of_lt {unit n bound : Nat} (hdvd : unit ∣ bound) (h : n < bound) :
    roundEven unit n ≤ bound := by
  obtain ⟨k, rfl⟩ := hdvd
  have hquotient : n / unit + 1 ≤ k := Nat.div_lt_of_lt_mul h
  calc roundEven unit n ≤ (n / unit + 1) * unit := (roundEven_bounds unit n).2
    _ ≤ k * unit := Nat.mul_le_mul_right unit hquotient
    _ = unit * k := Nat.mul_comm k unit

/-- A multiple of the unit below a number is not above its rounding. -/
theorem le_roundEven {unit n bound : Nat} (hdvd : unit ∣ bound) (h : bound ≤ n) :
    bound ≤ roundEven unit n :=
  calc bound = bound / unit * unit := (Nat.div_mul_cancel hdvd).symm
    _ ≤ n / unit * unit := Nat.mul_le_mul_right unit (Nat.div_le_div_right h)
    _ ≤ roundEven unit n := (roundEven_bounds unit n).1

/-- Rounding to a number of leading bits keeps the order, although larger
numbers are rounded to larger units. -/
theorem roundEven_log2_mono (bits : Nat) {m n : Nat} (h : m ≤ n) :
    roundEven (2 ^ (Nat.log2 m - bits)) m ≤ roundEven (2 ^ (Nat.log2 n - bits)) n := by
  by_cases hm : m = 0
  · subst hm
    have hzero : roundEven (2 ^ (Nat.log2 0 - bits)) 0 = 0 := by
      simp [roundEven]
    rw [hzero]
    exact Nat.zero_le _
  have hn : n ≠ 0 := fun hn => hm (Nat.le_zero.mp (hn ▸ h))
  by_cases hunit : Nat.log2 m - bits = Nat.log2 n - bits
  · rw [hunit]
    exact roundEven_mono _ h
  · -- A power of two lies between the numbers, and both units divide it.
    have hlog : Nat.log2 m ≤ Nat.log2 n :=
      (Nat.le_log2 hn).mpr (le_trans (Nat.log2_self_le hm) h)
    have hbelow : m < 2 ^ Nat.log2 n := (Nat.log2_lt hm).mp (by omega)
    calc roundEven (2 ^ (Nat.log2 m - bits)) m ≤ 2 ^ Nat.log2 n :=
          roundEven_le_of_lt (Nat.pow_dvd_pow 2 (by omega)) hbelow
      _ ≤ roundEven (2 ^ (Nat.log2 n - bits)) n :=
          le_roundEven (Nat.pow_dvd_pow 2 (by omega)) (Nat.log2_self_le hn)

end Rounding

import Mathlib.Algebra.GroupWithZero.Nat
import Mathlib.Data.List.Shortlex
import Mathlib.Data.Set.Function
import Mathlib.Order.Basic

/-!
# Encodings and the order of their words

Encoded values can be compared by their encodings.  An encoding is `OrderedOn`
a set of values for a relation if this comparison, whatever follows the
encodings, is the relation on the values, and then the comparison of what
follows.

* `OrderedOn.tag`, `OrderedOn.flatMap` and `OrderedOn.lengthPrefixed` are for
  encodings behind a fixed word, for sequences of one length, and for sequences
  behind their length.  A sequence that is encoded behind its length compares
  by its length first, and then by its elements: that is `List.Shortlex`.
* `beBytes32` is a word of 32 bits, greatest byte first, and compares as the
  number does.
* The last section compares `List.Shortlex` with `List.Lex`, for sequences of
  sequences.  The two agree on a pair exactly if the first difference between
  its parts is not in a part that is longer in the lesser one
  (`shortlex_of_lex_iff`).
* `pairwise_iff_imp` says when a list that ascends in one order ascends in
  another.
-/

namespace OrderedCode

variable {α ι : Type*}

/-! ## Comparing from the front -/

section Front

variable {lt : α → α → Prop}

/-- Words behind fronts of one length: the fronts compare first. -/
theorem lex_append_iff {p q : List α} (h : p.length = q.length) {u v : List α} :
    List.Lex lt (p ++ u) (q ++ v) ↔ List.Lex lt p q ∨ p = q ∧ List.Lex lt u v := by
  induction p generalizing q with
  | nil =>
    have hq : q = [] := List.length_eq_zero_iff.mp h.symm
    subst hq
    simp
  | cons a p ih =>
    cases q with
    | nil => simp at h
    | cons b q =>
      have hlength : p.length = q.length := by simpa using h
      rw [List.cons_append, List.cons_append, List.cons_lex_cons_iff, List.cons_lex_cons_iff,
        ih hlength, List.cons.injEq]
      tauto

/-- A common front does not matter. -/
theorem lex_append_left_iff [Std.Irrefl lt] (w : List α) {u v : List α} :
    List.Lex lt (w ++ u) (w ++ v) ↔ List.Lex lt u v := by
  induction w with
  | nil => rfl
  | cons a w ih => rw [List.cons_append, List.cons_append, List.lex_cons_iff, ih]

end Front

/-! ## Ordered encodings -/

/-- On a set of values, encodings compare as the values do, and encodings of
one value as what follows them. -/
def OrderedOn (lt : α → α → Prop) (s : Set ι) (r : ι → ι → Prop) (encode : ι → List α) : Prop :=
  ∀ a ∈ s, ∀ b ∈ s, ∀ u v : List α,
    List.Lex lt (encode a ++ u) (encode b ++ v) ↔ r a b ∨ a = b ∧ List.Lex lt u v

namespace OrderedOn

variable {lt : α → α → Prop} {s : Set ι} {r : ι → ι → Prop} {encode : ι → List α}

/-- A single letter. -/
theorem letter : OrderedOn lt Set.univ lt fun a : α => [a] := by
  intro a _ b _ u v
  exact List.cons_lex_cons_iff

/-- Encodings of one length. -/
theorem of_length {n : Nat} (hlength : ∀ a ∈ s, (encode a).length = n)
    (hinj : Set.InjOn encode s)
    (hlex : ∀ a ∈ s, ∀ b ∈ s, List.Lex lt (encode a) (encode b) ↔ r a b) :
    OrderedOn lt s r encode := by
  intro a ha b hb u v
  rw [lex_append_iff ((hlength a ha).trans (hlength b hb).symm), hlex a ha b hb]
  refine or_congr_right (and_congr_left fun _ => ?_)
  constructor
  · exact hinj ha hb
  · exact congrArg encode

/-- A fixed word in front. -/
theorem tag [Std.Irrefl lt] (h : OrderedOn lt s r encode) (w : List α) :
    OrderedOn lt s r fun a => w ++ encode a := by
  intro a ha b hb u v
  rw [List.append_assoc, List.append_assoc, lex_append_left_iff]
  exact h a ha b hb u v

/-- Sequences of one length, joined. -/
theorem flatMap (h : OrderedOn lt s r encode) {as bs : List ι} (has : ∀ a ∈ as, a ∈ s)
    (hbs : ∀ b ∈ bs, b ∈ s) (hlength : as.length = bs.length) (u v : List α) :
    List.Lex lt (as.flatMap encode ++ u) (bs.flatMap encode ++ v) ↔
      List.Lex r as bs ∨ as = bs ∧ List.Lex lt u v := by
  induction as generalizing bs with
  | nil =>
    have hbs : bs = [] := List.length_eq_zero_iff.mp hlength.symm
    subst hbs
    simp
  | cons a as ih =>
    cases bs with
    | nil => simp at hlength
    | cons b bs =>
      obtain ⟨ha, has⟩ := List.forall_mem_cons.mp has
      obtain ⟨hb, hbs⟩ := List.forall_mem_cons.mp hbs
      have hrest := ih has hbs (by simpa using hlength)
      rw [List.flatMap_cons, List.flatMap_cons, List.append_assoc, List.append_assoc,
        h a ha b hb, hrest, List.cons_lex_cons_iff, List.cons.injEq]
      tauto

/-- A sequence behind its length, and behind it a word that only depends on the
length. -/
theorem lengthPrefixed [Std.Irrefl lt] {bound : Nat} {count : Nat → List α}
    (hcount : OrderedOn lt {n | n < bound} (· < ·) count) (h : OrderedOn lt s r encode)
    (pad : Nat → List α) :
    OrderedOn lt {as | as.length < bound ∧ ∀ a ∈ as, a ∈ s} (List.Shortlex r)
      fun as => count as.length ++ (as.flatMap encode ++ pad as.length) := by
  rintro as ⟨hasBound, has⟩ bs ⟨hbsBound, hbs⟩ u v
  simp only [List.append_assoc]
  rw [hcount as.length hasBound bs.length hbsBound, List.shortlex_def]
  by_cases hlength : as.length = bs.length
  · rw [h.flatMap has hbs hlength, hlength, lex_append_left_iff]
    simp
  · have hne : as ≠ bs := fun heq => hlength (congrArg List.length heq)
    simp [hlength, hne]

end OrderedOn

/-! ## Words -/

/-- `u32::to_be_bytes`. -/
def beBytes32 (n : Nat) : List UInt8 :=
  [UInt8.ofNat (n / 2 ^ 24), UInt8.ofNat (n / 2 ^ 16), UInt8.ofNat (n / 2 ^ 8), UInt8.ofNat n]

@[simp] theorem beBytes32_length (n : Nat) : (beBytes32 n).length = 4 := rfl

theorem beBytes32_injOn : Set.InjOn beBytes32 {n | n < 2 ^ 32} := by
  intro m hm n hn heq
  rw [Set.mem_ofPred_eq] at hm hn
  unfold beBytes32 at heq
  simp only [List.cons.injEq, and_true, ← UInt8.toNat_inj, UInt8.toNat_ofNat'] at heq
  omega

/-- Words compare as their numbers. -/
theorem beBytes32_lex_iff {m n : Nat} (hm : m < 2 ^ 32) (hn : n < 2 ^ 32) :
    List.Lex (· < ·) (beBytes32 m) (beBytes32 n) ↔ m < n := by
  unfold beBytes32
  simp only [List.cons_lex_cons_iff, UInt8.lt_iff_toNat_lt, ← UInt8.toNat_inj,
    UInt8.toNat_ofNat', List.not_lex_nil, and_false, or_false]
  -- The upper digits are what is left of a number once its lower ones are cut off.
  have hm₁ : m / 2 ^ 8 / 2 ^ 8 = m / 2 ^ 16 := Nat.div_div_eq_div_mul _ _ _
  have hm₂ : m / 2 ^ 16 / 2 ^ 8 = m / 2 ^ 24 := Nat.div_div_eq_div_mul _ _ _
  have hn₁ : n / 2 ^ 8 / 2 ^ 8 = n / 2 ^ 16 := Nat.div_div_eq_div_mul _ _ _
  have hn₂ : n / 2 ^ 16 / 2 ^ 8 = n / 2 ^ 24 := Nat.div_div_eq_div_mul _ _ _
  have hm₃ : m / 2 ^ 24 < 2 ^ 8 := by omega
  have hn₃ : n / 2 ^ 24 < 2 ^ 8 := by omega
  rw [Nat.mod_eq_of_lt hm₃, Nat.mod_eq_of_lt hn₃]
  omega

theorem beBytes32_orderedOn :
    OrderedOn (· < ·) {n | n < 2 ^ 32} (· < ·) beBytes32 :=
  OrderedOn.of_length (fun n _ => beBytes32_length n) beBytes32_injOn
    fun _ hm _ hn => beBytes32_lex_iff hm hn

/-! ## By length first -/

section Shortlex

variable {lt : α → α → Prop} [DecidableEq α]

omit [DecidableEq α] in
/-- Sequences that neither order puts first are equal. -/
theorem shortlex_trichotomous [Std.Trichotomous lt] {x y : List α} (h : ¬ List.Shortlex lt x y)
    (h' : ¬ List.Shortlex lt y x) : x = y := by
  rw [List.shortlex_def, not_or, not_and] at h h'
  have hlength : x.length = y.length := by omega
  exact Std.Trichotomous.trichotomous (r := List.Lex lt) x y (h.2 hlength) (h'.2 hlength.symm)

omit [DecidableEq α] in
instance shortlexTrichotomous [Std.Trichotomous lt] : Std.Trichotomous (List.Shortlex lt) where
  trichotomous _ _ := shortlex_trichotomous

/-- At the first difference between two sequences, the part of the first is not
the longer one. -/
def FirstNotLonger : List (List α) → List (List α) → Prop
  | x :: xs, y :: ys => if x = y then FirstNotLonger xs ys else x.length ≤ y.length
  | _, _ => True

instance FirstNotLonger.decide : (xs ys : List (List α)) → Decidable (FirstNotLonger xs ys)
  | x :: xs, y :: ys =>
    haveI := FirstNotLonger.decide xs ys
    inferInstanceAs (Decidable (if x = y then FirstNotLonger xs ys else x.length ≤ y.length))
  | [], _ => isTrue trivial
  | _ :: _, [] => isTrue trivial

/-- Parts none of which is longer than its counterpart. -/
theorem FirstNotLonger.of_forall {xs ys : List (List α)}
    (h : List.Forall₂ (fun x y => x.length ≤ y.length) xs ys) : FirstNotLonger xs ys := by
  induction h with
  | nil => trivial
  | cons hle _ ih =>
    rw [FirstNotLonger]
    split
    · exact ih
    · exact hle

/-- What is less in the order of the contents is less in the order of lengths
first, if it has fewer parts, or as many, and at the first difference not the
longer one. -/
theorem shortlex_of_lex_iff [Std.Asymm lt] {xs ys : List (List α)}
    (h : List.Lex (List.Lex lt) xs ys) :
    List.Shortlex (List.Shortlex lt) xs ys ↔
      xs.length < ys.length ∨ xs.length = ys.length ∧ FirstNotLonger xs ys := by
  rw [List.shortlex_def]
  refine or_congr_right (and_congr_right fun hlength => ?_)
  induction xs generalizing ys with
  | nil =>
    have hys : ys = [] := List.length_eq_zero_iff.mp hlength.symm
    subst hys
    simp at h
  | cons x xs ih =>
    cases ys with
    | nil => simp at hlength
    | cons y ys =>
      have hrest : xs.length = ys.length := by simpa using hlength
      rw [List.cons_lex_cons_iff] at h
      rw [List.cons_lex_cons_iff, FirstNotLonger, List.shortlex_def]
      by_cases hxy : x = y
      · subst hxy
        have hirrefl : ¬ List.Lex lt x x := irrefl x
        have hlex : List.Lex (List.Lex lt) xs ys := by simpa [hirrefl] using h
        simpa [hirrefl] using ih hlex hrest
      · have hlex : List.Lex lt x y := by simpa [hxy] using h
        simp only [hxy, ↓reduceIte, hlex, and_true, false_and, or_false]
        omega

end Shortlex

/-! ## Two orders of one list -/

/-- A list that ascends in one order ascends in another exactly if the second
order, on the elements of the list, implies the first. -/
theorem pairwise_iff_imp {r r' : ι → ι → Prop} [Std.Asymm r] [Std.Asymm r'] [Std.Trichotomous r']
    {l : List ι} (h : l.Pairwise r) :
    l.Pairwise r' ↔ ∀ a ∈ l, ∀ b ∈ l, r' a b → r a b := by
  induction l with
  | nil => simp
  | cons c l ih =>
    obtain ⟨hc, hl⟩ := List.pairwise_cons.mp h
    rw [List.pairwise_cons, ih hl]
    constructor
    · intro hpairs a ha b hb hab
      rcases List.mem_cons.mp ha with rfl | hal <;> rcases List.mem_cons.mp hb with rfl | hbl
      · exact absurd hab (irrefl _)
      · exact hc b hbl
      · exact absurd hab (asymm (hpairs.1 a hal))
      · exact hpairs.2 a hal b hbl hab
    · intro himp
      refine ⟨fun y hy => ?_, fun a ha b hb => himp a (.tail c ha) b (.tail c hb)⟩
      have hcy : r c y := hc y hy
      rcases trichotomous_of r' c y with hlt | heq | hgt
      · exact hlt
      · subst heq
        exact absurd hcy (irrefl c)
      · exact absurd (himp y (.tail c hy) c (.head l) hgt) (asymm hcy)

end OrderedCode

import Mathlib.Algebra.GroupWithZero.Nat
import Mathlib.Data.Set.Prod
import Mathlib.InformationTheory.Coding.UniquelyDecodable

/-!
# Encodings that need no framing

Values that are encoded one after the other, with nothing between them, can be
told apart again if no encoding is a prefix of another.  `PrefixFreeOn` is that
property on a set of values; it includes that different values have different
encodings.

* `PrefixFreeOn.append_inj` takes one encoding off the front.
* `PrefixFreeOn.of_length` and `PrefixFreeOn.prod` build such encodings: of
  one length, and of pairs, the parts side by side.
* `PrefixFreeOn.uniquelyDecodable` says that a prefix-free code without the
  empty word is uniquely decodable, and `PrefixFreeOn.flatMap_inj` reads a
  sequence back from its encodings, joined.
* `leBytes32` is a word of 32 bits, least byte first.
-/

namespace PrefixCode

open InformationTheory

variable {α ι κ : Type*}

/-- On a set of values, no encoding is a prefix of another value's. -/
def PrefixFreeOn (s : Set ι) (encode : ι → List α) : Prop :=
  ∀ a ∈ s, ∀ b ∈ s, encode a <+: encode b → a = b

namespace PrefixFreeOn

variable {s : Set ι} {encode : ι → List α}

theorem injOn (h : PrefixFreeOn s encode) : Set.InjOn encode s := by
  intro a ha b hb heq
  have hprefix : encode a <+: encode b := heq ▸ List.prefix_rfl
  exact h a ha b hb hprefix

/-- What begins with an encoding begins with no other. -/
theorem append_inj (h : PrefixFreeOn s encode) {a b : ι} (ha : a ∈ s) (hb : b ∈ s)
    {u v : List α} (heq : encode a ++ u = encode b ++ v) : a = b ∧ u = v := by
  have hfront : encode a <+: encode b ++ v := heq ▸ List.prefix_append _ _
  have hab : a = b := by
    rcases List.prefix_or_prefix_of_prefix hfront (List.prefix_append _ _) with hle | hle
    · exact h a ha b hb hle
    · exact (h b hb a ha hle).symm
  subst hab
  exact ⟨rfl, List.append_cancel_left heq⟩

/-- Different encodings of one length. -/
theorem of_length {n : Nat} (hlength : ∀ a ∈ s, (encode a).length = n)
    (hinj : Set.InjOn encode s) : PrefixFreeOn s encode := by
  intro a ha b hb hle
  apply hinj ha hb
  exact hle.eq_of_length ((hlength a ha).trans (hlength b hb).symm)

/-- Two encodings side by side. -/
theorem prod {t : Set κ} {encode' : κ → List α} (h : PrefixFreeOn s encode)
    (h' : PrefixFreeOn t encode') :
    PrefixFreeOn (s ×ˢ t) fun p => encode p.1 ++ encode' p.2 := by
  rintro ⟨a, c⟩ ⟨ha, hc⟩ ⟨b, e⟩ ⟨hb, he⟩ ⟨rest, heq⟩
  rw [List.append_assoc] at heq
  obtain ⟨rfl, hrest⟩ := h.append_inj ha hb heq
  have hce : c = e := h' c hc e he ⟨rest, hrest⟩
  rw [hce]

/-- Codewords that are not empty, none of them a prefix of another. -/
theorem uniquelyDecodable (h : PrefixFreeOn s encode) (hne : ∀ a ∈ s, encode a ≠ []) :
    UniquelyDecodable (encode '' s) := by
  intro words
  induction words with
  | nil =>
    intro words' _ hwords' heq
    cases words' with
    | nil => rfl
    | cons word' words' =>
      obtain ⟨b, hb, rfl⟩ := hwords' word' List.mem_cons_self
      exact absurd (List.append_eq_nil_iff.mp heq.symm).1 (hne b hb)
  | cons word words ih =>
    intro words' hwords hwords' heq
    obtain ⟨a, ha, rfl⟩ := hwords word List.mem_cons_self
    cases words' with
    | nil => exact absurd (List.append_eq_nil_iff.mp heq).1 (hne a ha)
    | cons word' words' =>
      obtain ⟨b, hb, rfl⟩ := hwords' word' List.mem_cons_self
      obtain ⟨rfl, hrest⟩ := h.append_inj ha hb heq
      rw [ih words' (fun w hw => hwords w (List.mem_cons_of_mem _ hw))
        (fun w hw => hwords' w (List.mem_cons_of_mem _ hw)) hrest]

/-- A sequence is read back from its encodings. -/
theorem map_inj (h : PrefixFreeOn s encode) {as bs : List ι} (has : ∀ a ∈ as, a ∈ s)
    (hbs : ∀ b ∈ bs, b ∈ s) (heq : as.map encode = bs.map encode) : as = bs := by
  induction as generalizing bs with
  | nil => exact (List.map_eq_nil_iff.mp heq.symm).symm
  | cons a as ih =>
    cases bs with
    | nil => cases heq
    | cons b bs =>
      obtain ⟨ha, has⟩ := List.forall_mem_cons.mp has
      obtain ⟨hb, hbs⟩ := List.forall_mem_cons.mp hbs
      obtain ⟨hhead, htail⟩ := List.cons.inj heq
      rw [h.injOn ha hb hhead, ih has hbs htail]

/-- A sequence is read back from its encodings, joined. -/
theorem flatMap_inj (h : PrefixFreeOn s encode) (hne : ∀ a ∈ s, encode a ≠ []) {as bs : List ι}
    (has : ∀ a ∈ as, a ∈ s) (hbs : ∀ b ∈ bs, b ∈ s)
    (heq : as.flatMap encode = bs.flatMap encode) : as = bs := by
  have hwords : as.map encode = bs.map encode := by
    apply h.uniquelyDecodable hne
    · exact List.forall_mem_map.mpr fun a ha => ⟨a, has a ha, rfl⟩
    · exact List.forall_mem_map.mpr fun b hb => ⟨b, hbs b hb, rfl⟩
    · rw [← List.flatMap_def, ← List.flatMap_def, heq]
  exact h.map_inj has hbs hwords

end PrefixFreeOn

/-! ## Words -/

/-- `u32::to_le_bytes`. -/
def leBytes32 (n : Nat) : List UInt8 :=
  [UInt8.ofNat n, UInt8.ofNat (n / 2 ^ 8), UInt8.ofNat (n / 2 ^ 16), UInt8.ofNat (n / 2 ^ 24)]

@[simp] theorem leBytes32_length (n : Nat) : (leBytes32 n).length = 4 := rfl

theorem leBytes32_injOn : Set.InjOn leBytes32 {n | n < 2 ^ 32} := by
  intro m hm n hn heq
  rw [Set.mem_ofPred_eq] at hm hn
  unfold leBytes32 at heq
  simp only [List.cons.injEq, and_true, ← UInt8.toNat_inj, UInt8.toNat_ofNat'] at heq
  omega

/-- Words of 32 bits need no framing. -/
theorem leBytes32_prefixFreeOn : PrefixFreeOn {n | n < 2 ^ 32} leBytes32 :=
  PrefixFreeOn.of_length (fun n _ => leBytes32_length n) leBytes32_injOn

end PrefixCode

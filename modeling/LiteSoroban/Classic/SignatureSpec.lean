import Mathlib.Algebra.GroupWithZero.Nat
import Mathlib.Data.List.Forall2
import Mathlib.Data.List.Perm.Subperm
import LiteSoroban.Classic.Signatures

/-!
# What a signature check establishes

`Matching` says which signers a set of signatures stands for, without saying
how they were found: a pre-authorized transaction by the hash alone, and
within each other type every signer by a signature of its own.  `Reaches` says
that some such signers, at least one, carry a weight.

`checkSignature_reaches` is that a check that passes has found a matching.
`checkSignature_marks` is that a signature it consumed was matched.  Both come
from one spec of the loop, `verifyAll_spec`, whose induction is on the
signatures, with the candidates that are left generalised.
-/

namespace LiteSoroban

/-! ## Matchings -/

/-- The weight of a list of signers. -/
def weightOf (signers : List WeightedSigner) : Nat := (signers.map WeightedSigner.cap).sum

theorem weightOf_cons (s : WeightedSigner) (signers : List WeightedSigner) :
    weightOf (s :: signers) = s.cap + weightOf signers := rfl

theorem weightOf_append (xs ys : List WeightedSigner) :
    weightOf (xs ++ ys) = weightOf xs + weightOf ys := by
  simp only [weightOf, List.map_append, List.sum_append]

/-- `matched` are signers, and `used` has a signature of each of them. -/
structure SignedOneByOne (verify : DecoratedSignature → WeightedSigner → Bool)
    (signatures : List DecoratedSignature) (signers matched : List WeightedSigner) : Prop where
  among : matched.Subperm signers
  signed : ∃ used, used.Sublist signatures ∧
    List.Forall₂ (fun sig s => verify sig s = true) used matched

/-- The signatures over `contentsHash` stand for the signers `matched`. -/
structure Matching (d : Deps) (contentsHash : Hash) (signatures : List DecoratedSignature)
    (signers matched : List WeightedSigner) : Prop where
  among : matched.Subperm signers
  preAuth : ∀ s ∈ ofType .preAuthTx matched, isPreAuthOf contentsHash s = true
  signed : ∀ type, type ≠ .preAuthTx →
    SignedOneByOne (verifySignature d contentsHash) signatures (ofType type signers)
      (ofType type matched)

/-- At least one signer is matched, and those that are carry the weight. -/
def Reaches (d : Deps) (contentsHash : Hash) (signatures : List DecoratedSignature)
    (signers : List WeightedSigner) (neededWeight : Nat) : Prop :=
  ∃ matched, Matching d contentsHash signatures signers matched ∧ matched ≠ [] ∧
    neededWeight ≤ weightOf matched

/-- A signer is matched on its own. -/
def SignedBy (d : Deps) (contentsHash : Hash) (signatures : List DecoratedSignature)
    (s : WeightedSigner) : Prop :=
  isPreAuthOf contentsHash s = true ∨
    ∃ sig ∈ signatures, verifySignature d contentsHash sig s = true

theorem mem_ofType {type : SignerType} {signers : List WeightedSigner} {s : WeightedSigner} :
    s ∈ ofType type signers ↔ s ∈ signers ∧ s.key.type = type := by
  simp [ofType]

/-- Every signer of a matching is matched on its own. -/
theorem Matching.signedBy {d : Deps} {contentsHash : Hash} {signatures : List DecoratedSignature}
    {signers matched : List WeightedSigner} (h : Matching d contentsHash signatures signers matched)
    {s : WeightedSigner} (hs : s ∈ matched) : SignedBy d contentsHash signatures s := by
  by_cases htype : s.key.type = .preAuthTx
  · exact .inl (h.preAuth s (mem_ofType.mpr ⟨hs, htype⟩))
  · obtain ⟨used, hused, hsigned⟩ := (h.signed s.key.type htype).signed
    obtain ⟨i, hi, hget⟩ := List.mem_iff_getElem.mp (mem_ofType.mpr ⟨hs, rfl⟩)
    have hi' : i < used.length := hsigned.length_eq ▸ hi
    have hverify := (List.forall₂_iff_get.mp hsigned).2 i hi' hi
    refine .inr ⟨used[i], hused.subset (List.getElem_mem hi'), ?_⟩
    rw [← hget]
    exact hverify

/-! ## The loops -/

/-- The loop over the pre-authorized signers. -/
theorem preAuth_spec {contentsHash : Hash} {neededWeight : Nat} {signers : List WeightedSigner}
    {total total' : Nat} {ok : Bool}
    (h : SignatureChecker.preAuth contentsHash neededWeight signers total = (ok, total')) :
    ∃ matched : List WeightedSigner, matched.Sublist signers ∧
      (∀ s ∈ matched, isPreAuthOf contentsHash s = true) ∧
      total' = total + weightOf matched ∧ (ok = true → matched ≠ [] ∧ neededWeight ≤ total') := by
  induction signers generalizing total with
  | nil =>
    cases h
    exact ⟨[], .slnil, by simp, rfl, by simp⟩
  | cons s rest ih =>
    simp only [SignatureChecker.preAuth] at h
    split at h
    · next hs =>
      split at h
      · next hreached =>
        cases h
        exact ⟨[s], (List.nil_sublist rest).cons_cons s, by simpa using hs, rfl,
          fun _ => ⟨List.cons_ne_nil _ _, hreached⟩⟩
      · obtain ⟨matched, hsub, hall, htotal, hok⟩ := ih h
        refine ⟨s :: matched, hsub.cons_cons s, ?_, ?_,
          fun hok' => ⟨List.cons_ne_nil _ _, (hok hok').2⟩⟩
        · simpa using ⟨hs, hall⟩
        · rw [htotal, weightOf_cons]
          omega
    · obtain ⟨matched, hsub, hall, htotal, hok⟩ := ih h
      exact ⟨matched, hsub.cons s, hall, htotal, hok⟩

/-- What `verifyAll` leaves: the signers it matched one by one, their weight on
top of the total, and the marks of the signatures it consumed. -/
structure VerifiedAll (verify : DecoratedSignature → WeightedSigner → Bool) (neededWeight : Nat)
    (marks : List (DecoratedSignature × Bool)) (candidates matched : List WeightedSigner)
    (total : Nat) (state : Bool × Nat × List (DecoratedSignature × Bool)) : Prop where
  matching : SignedOneByOne verify (marks.map (·.1)) candidates matched
  total : state.2.1 = total + weightOf matched
  reached : state.1 = true → matched ≠ [] ∧ neededWeight ≤ state.2.1
  signatures : state.2.2.map (·.1) = marks.map (·.1)
  marked : ∀ sig, (sig, true) ∈ state.2.2 →
    (sig, true) ∈ marks ∨ ∃ s ∈ candidates, verify sig s = true

theorem verifyAll_spec (verify : DecoratedSignature → WeightedSigner → Bool) (neededWeight : Nat)
    (marks : List (DecoratedSignature × Bool)) (candidates : List WeightedSigner) (total : Nat) :
    ∃ matched, VerifiedAll verify neededWeight marks candidates matched total
      (SignatureChecker.verifyAll verify neededWeight marks candidates total) := by
  induction marks generalizing candidates total with
  | nil =>
    exact ⟨[], ⟨List.nil_subperm, [], .slnil, .nil⟩, rfl, by simp [SignatureChecker.verifyAll], rfl,
      by simp [SignatureChecker.verifyAll]⟩
  | cons mark rest ih =>
    obtain ⟨sig, used⟩ := mark
    simp only [SignatureChecker.verifyAll]
    cases hfind : candidates.findIdx? (verify sig) with
    | none =>
      obtain ⟨matched, ⟨hamong, sigs, hsigs, hsigned⟩, htotal, hreached, hsignatures, hmarked⟩ :=
        ih candidates total
      refine ⟨matched, ⟨hamong, sigs, hsigs.cons sig, hsigned⟩, htotal, hreached, ?_, ?_⟩
      · simp only [List.map_cons, hsignatures]
      · intro sig' hmem
        rcases List.mem_cons.mp hmem with heq | hmem
        · exact .inl (heq ▸ List.mem_cons_self)
        · exact (hmarked sig' hmem).imp_left (List.mem_cons_of_mem _)
    | some i =>
      obtain ⟨hi, hverify, -⟩ := List.findIdx?_eq_some_iff_getElem.mp hfind
      have hcap : (candidates[i]?.map WeightedSigner.cap).getD 0 = candidates[i].cap := by
        simp [hi]
      have hmine : ∀ {s : DecoratedSignature}, s = sig → ∃ c ∈ candidates, verify s c = true :=
        fun heq => ⟨candidates[i], List.getElem_mem hi, heq ▸ hverify⟩
      simp only [hcap]
      split
      · next hreached =>
        refine ⟨[candidates[i]], ⟨?_, [sig], (List.nil_sublist _).cons_cons sig,
          .cons hverify .nil⟩, rfl, fun _ => ⟨List.cons_ne_nil _ _, hreached⟩, rfl, ?_⟩
        · exact List.singleton_subperm_iff.mpr (List.getElem_mem hi)
        · intro sig' hmem
          rcases List.mem_cons.mp hmem with heq | hmem
          · exact .inr (hmine (Prod.mk.inj heq).1)
          · exact .inl (List.mem_cons_of_mem _ hmem)
      · obtain ⟨matched, ⟨hamong, sigs, hsigs, hsigned⟩, htotal, hreached, hsignatures, hmarked⟩ :=
          ih (candidates.eraseIdx i) (total + candidates[i].cap)
        refine ⟨candidates[i] :: matched, ⟨?_, sig :: sigs, hsigs.cons_cons sig,
          .cons hverify hsigned⟩, ?_, fun hok => ⟨List.cons_ne_nil _ _, (hreached hok).2⟩, ?_, ?_⟩
        · exact ((List.subperm_cons _).mpr hamong).trans
            (List.getElem_cons_eraseIdx_perm hi).subperm
        · rw [htotal, weightOf_cons]
          omega
        · simp only [List.map_cons, hsignatures]
        · intro sig' hmem
          rcases List.mem_cons.mp hmem with heq | hmem
          · exact .inr (hmine (Prod.mk.inj heq).1)
          · rcases hmarked sig' hmem with hmark | ⟨s, hs, hsig⟩
            · exact .inl (List.mem_cons_of_mem _ hmark)
            · exact .inr ⟨s, List.mem_of_mem_eraseIdx hs, hsig⟩

/-! ## The check -/

/-- What one signer type adds to a check. -/
structure TypeVerified (d : Deps) (checker : SignatureChecker) (signers : List WeightedSigner)
    (neededWeight : Nat) (type : SignerType)
    (before after : Bool × Nat × List (DecoratedSignature × Bool))
    (matched : List WeightedSigner) : Prop where
  matching : SignedOneByOne (verifySignature d checker.contentsHash) (before.2.2.map (·.1))
    (ofType type signers) matched
  total : after.2.1 = before.2.1 + weightOf matched
  reached : after.1 = true → before.1 = true ∨ (matched ≠ [] ∧ neededWeight ≤ after.2.1)
  signatures : after.2.2.map (·.1) = before.2.2.map (·.1)
  marked : ∀ sig, (sig, true) ∈ after.2.2 →
    (sig, true) ∈ before.2.2 ∨ ∃ s ∈ signers, verifySignature d checker.contentsHash sig s = true

theorem verifyType_spec (d : Deps) (checker : SignatureChecker) (signers : List WeightedSigner)
    (neededWeight : Nat) (type : SignerType)
    (state : Bool × Nat × List (DecoratedSignature × Bool)) :
    ∃ matched, TypeVerified d checker signers neededWeight type state
      (checker.verifyType d signers neededWeight type state) matched := by
  obtain ⟨ok, total, marks⟩ := state
  cases ok with
  | true =>
    exact ⟨[], ⟨List.nil_subperm, [], List.nil_sublist _, .nil⟩, rfl, fun _ => .inl rfl, rfl,
      fun _ hmem => .inl hmem⟩
  | false =>
    obtain ⟨matched, hmatching, htotal, hreached, hsignatures, hmarked⟩ :=
      verifyAll_spec (verifySignature d checker.contentsHash) neededWeight marks
        (ofType type signers) total
    refine ⟨matched, hmatching, htotal, fun hok => .inr (hreached hok), hsignatures,
      fun sig hmem => (hmarked sig hmem).imp_right ?_⟩
    rintro ⟨s, hs, hsig⟩
    exact ⟨s, (mem_ofType.mp hs).1, hsig⟩

/-- The signers, sorted by type. -/
theorem ofType_perm (signers : List WeightedSigner) :
    (ofType .preAuthTx signers ++ (ofType .hashX signers ++
      (ofType .ed25519 signers ++ ofType .signedPayload signers))).Perm signers := by
  refine List.perm_iff_count.mpr fun s => ?_
  have hcount : ∀ type, (ofType type signers).count s =
      if s.key.type = type then signers.count s else 0 := by
    intro type
    split
    · next htype => exact List.count_filter (by simpa using htype)
    · next htype =>
      exact List.count_eq_zero_of_not_mem fun hmem => htype (mem_ofType.mp hmem).2
  simp only [List.count_append, hcount]
  cases s.key.type <;> simp

/-- Signers of one type, sorted by type. -/
theorem ofType_of_subperm {type type' : SignerType} {signers matched : List WeightedSigner}
    (h : matched.Subperm (ofType type signers)) :
    ofType type' matched = if type = type' then matched else [] := by
  have htype : ∀ s ∈ matched, s.key.type = type := fun s hs => (mem_ofType.mp (h.subset hs)).2
  split
  · next heq =>
    exact List.filter_eq_self.mpr fun s hs => by simpa [heq] using htype s hs
  · next hne =>
    refine List.filter_eq_nil_iff.mpr fun s hs => ?_
    rw [htype s hs]
    simpa using hne

theorem ofType_append (type : SignerType) (xs ys : List WeightedSigner) :
    ofType type (xs ++ ys) = ofType type xs ++ ofType type ys :=
  List.filter_append ..

/-- A checker that has gone on from `before` to `after`, and has consumed only
signatures of `signers` on the way. -/
structure Marks (d : Deps) (before after : SignatureChecker) (signers : List WeightedSigner) :
    Prop where
  contentsHash : after.contentsHash = before.contentsHash
  signatures : after.signatures.map (·.1) = before.signatures.map (·.1)
  marked : ∀ sig, (sig, true) ∈ after.signatures →
    (sig, true) ∈ before.signatures ∨
      ∃ s ∈ signers, verifySignature d before.contentsHash sig s = true

theorem Marks.refl (d : Deps) (checker : SignatureChecker) (signers : List WeightedSigner) :
    Marks d checker checker signers :=
  ⟨rfl, rfl, fun _ hmem => .inl hmem⟩

theorem Marks.trans {d : Deps} {a b c : SignatureChecker} {xs ys : List WeightedSigner}
    (hab : Marks d a b xs) (hbc : Marks d b c ys) : Marks d a c (xs ++ ys) := by
  refine ⟨hbc.contentsHash.trans hab.contentsHash, hbc.signatures.trans hab.signatures,
    fun sig hmem => ?_⟩
  rcases hbc.marked sig hmem with hmem | ⟨s, hs, hsig⟩
  · rcases hab.marked sig hmem with hmem | ⟨s, hs, hsig⟩
    · exact .inl hmem
    · exact .inr ⟨s, List.mem_append_left ys hs, hsig⟩
  · rw [hab.contentsHash] at hsig
    exact .inr ⟨s, List.mem_append_right xs hs, hsig⟩

/-- The signatures a checker has, whether consumed or not. -/
def SignatureChecker.all (checker : SignatureChecker) : List DecoratedSignature :=
  checker.signatures.map (·.1)

/-- What a check does: it passes only when the signatures reach the weight,
and it consumes only signatures of its signers. -/
structure Checked (d : Deps) (checker : SignatureChecker) (signers : List WeightedSigner)
    (neededWeight : Nat) (ok : Bool) (checker' : SignatureChecker) : Prop
    extends Marks d checker checker' signers where
  reaches : ok = true → Reaches d checker.contentsHash checker.all signers neededWeight

theorem checkSignature_spec (d : Deps) (checker : SignatureChecker)
    (signers : List WeightedSigner) (neededWeight : Nat) :
    Checked d checker signers neededWeight (checker.checkSignature d signers neededWeight).1
      (checker.checkSignature d signers neededWeight).2 := by
  -- The four types in the order they are tried, each from the state the last one left.
  obtain ⟨⟨ok, total⟩, hpre⟩ : ∃ state, SignatureChecker.preAuth checker.contentsHash neededWeight
      (ofType .preAuthTx signers) 0 = state := ⟨_, rfl⟩
  obtain ⟨pre, hpreSub, hpreAll, hpreTotal, hpreOk⟩ := preAuth_spec hpre
  obtain ⟨state₁, hstate₁⟩ : ∃ state, checker.verifyType d signers neededWeight .hashX
      (ok, total, checker.signatures) = state := ⟨_, rfl⟩
  obtain ⟨state₂, hstate₂⟩ : ∃ state, checker.verifyType d signers neededWeight .ed25519
      state₁ = state := ⟨_, rfl⟩
  obtain ⟨state₃, hstate₃⟩ : ∃ state, checker.verifyType d signers neededWeight .signedPayload
      state₂ = state := ⟨_, rfl⟩
  have hcheck : checker.checkSignature d signers neededWeight =
      (state₃.1, { checker with signatures := state₃.2.2 }) := by
    simp only [SignatureChecker.checkSignature, hpre, hstate₁, hstate₂, hstate₃]
  rw [hcheck]
  obtain ⟨hashX, h₁⟩ := verifyType_spec d checker signers neededWeight .hashX
    (ok, total, checker.signatures)
  rw [hstate₁] at h₁
  obtain ⟨ed25519, h₂⟩ := verifyType_spec d checker signers neededWeight .ed25519 state₁
  rw [hstate₂] at h₂
  obtain ⟨payload, h₃⟩ := verifyType_spec d checker signers neededWeight .signedPayload state₂
  rw [hstate₃] at h₃
  have hsigs₁ : state₁.2.2.map (·.1) = checker.all := h₁.signatures
  have hsigs₂ := h₂.signatures.trans hsigs₁
  have hsigs₃ := h₃.signatures.trans hsigs₂
  refine ⟨⟨rfl, hsigs₃, fun sig hmem => ?_⟩, fun hok => ?_⟩
  · rcases h₃.marked sig hmem with hmem | hsig
    · rcases h₂.marked sig hmem with hmem | hsig
      · exact h₁.marked sig hmem
      · exact .inr hsig
    · exact .inr hsig
  · have hm₁ : SignedOneByOne (verifySignature d checker.contentsHash) checker.all
        (ofType .hashX signers) hashX := h₁.matching
    have hm₂ := h₂.matching
    have hm₃ := h₃.matching
    rw [hsigs₁] at hm₂
    rw [hsigs₂] at hm₃
    refine ⟨pre ++ (hashX ++ (ed25519 ++ payload)), ⟨?_, ?_, fun type htype => ?_⟩, ?_⟩
    · exact (hpreSub.subperm.append (hm₁.among.append (hm₂.among.append hm₃.among))).trans
        (ofType_perm signers).subperm
    · simp only [ofType_append, ofType_of_subperm hpreSub.subperm, ofType_of_subperm hm₁.among,
        ofType_of_subperm hm₂.among, ofType_of_subperm hm₃.among]
      simpa using hpreAll
    · simp only [ofType_append, ofType_of_subperm hpreSub.subperm, ofType_of_subperm hm₁.among,
        ofType_of_subperm hm₂.among, ofType_of_subperm hm₃.among]
      cases type with
      | preAuthTx => exact absurd rfl htype
      | hashX => simpa using hm₁
      | ed25519 => simpa using hm₂
      | signedPayload => simpa using hm₃
    · have htotal₁ := h₁.total
      have htotal₂ := h₂.total
      have htotal₃ := h₃.total
      simp only [weightOf_append, ne_eq, List.append_eq_nil_iff, not_and_or]
      dsimp only at htotal₁
      rcases h₃.reached hok with hok₂ | ⟨hne, hle⟩
      · rcases h₂.reached hok₂ with hok₁ | ⟨hne, hle⟩
        · rcases h₁.reached hok₁ with hok₀ | ⟨hne, hle⟩
          · obtain ⟨hne, hle⟩ := hpreOk hok₀
            exact ⟨.inl hne, by omega⟩
          · exact ⟨.inr (.inl hne), by omega⟩
        · exact ⟨.inr (.inr (.inl hne)), by omega⟩
      · exact ⟨.inr (.inr (.inr hne)), by omega⟩

/-! ## Extra signers -/

/-- The extra signers of `PRECOND_V2`. -/
def Transaction.extraSigners (raw : Transaction) : List SignerKey :=
  match raw.cond with
  | .precondV2 v2 => v2.extraSigners
  | _ => []

/-- A matching that is as long as a list of signers of weight 1 has them
all. -/
theorem signedBy_of_reaches_length {d : Deps} {contentsHash : Hash}
    {signatures : List DecoratedSignature} {keys : List SignerKey}
    (h : Reaches d contentsHash signatures (keys.map fun key => ⟨key, 1⟩) keys.length) :
    ∀ key ∈ keys, SignedBy d contentsHash signatures ⟨key, 1⟩ := by
  obtain ⟨matched, hmatching, -, hweight⟩ := h
  have hone : ∀ s ∈ matched, s.cap = 1 := by
    intro s hs
    obtain ⟨key, -, rfl⟩ := List.mem_map.mp (hmatching.among.subset hs)
    rfl
  have hlength : weightOf matched = matched.length := by
    rw [weightOf, List.map_congr_left hone, List.map_const', List.sum_replicate]
    simp
  have hperm : matched.Perm (keys.map fun key => ⟨key, 1⟩) := by
    refine hmatching.among.perm_of_length_le ?_
    rw [List.length_map]
    omega
  intro key hkey
  exact hmatching.signedBy (hperm.mem_iff.mpr (List.mem_map_of_mem hkey))

theorem checkExtraSigners_spec (d : Deps) (checker : SignatureChecker) (raw : Transaction) :
    Marks d checker (checkExtraSigners d checker raw).2
        (raw.extraSigners.map fun key => ⟨key, 1⟩) ∧
      ((checkExtraSigners d checker raw).1 = true →
        ∀ key ∈ raw.extraSigners, SignedBy d checker.contentsHash checker.all ⟨key, 1⟩) := by
  simp only [checkExtraSigners, Transaction.extraSigners]
  cases raw.cond with
  | precondNone => exact ⟨.refl .., by simp⟩
  | precondTime timeBounds => exact ⟨.refl .., by simp⟩
  | precondV2 v2 =>
    dsimp only
    split
    · next hnone =>
      refine ⟨.refl .., ?_⟩
      rw [List.length_eq_zero_iff.mp hnone]
      simp
    · have hchecked := checkSignature_spec d checker (v2.extraSigners.map fun key => ⟨key, 1⟩)
        v2.extraSigners.length
      exact ⟨hchecked.toMarks, fun hok => signedBy_of_reaches_length (hchecked.reaches hok)⟩

/-- Once every signature is consumed, every one is of one of the signers. -/
theorem Marks.allUsed {d : Deps} {signatures : List DecoratedSignature} {contentsHash : Hash}
    {checker : SignatureChecker} {signers : List WeightedSigner}
    (h : Marks d (.new signatures contentsHash) checker signers)
    (hused : checker.checkAllSignaturesUsed = true) :
    ∀ sig ∈ signatures, ∃ s ∈ signers, verifySignature d contentsHash sig s = true := by
  intro sig hsig
  have hall : checker.signatures.map (·.1) = signatures := by
    rw [h.signatures, SignatureChecker.new, List.map_map]
    exact List.map_id _
  rw [← hall] at hsig
  obtain ⟨⟨sig', used⟩, hmem, rfl⟩ := List.mem_map.mp hsig
  have : used = true := by
    simp only [SignatureChecker.checkAllSignaturesUsed, List.all_eq_true] at hused
    exact hused _ hmem
  subst this
  rcases h.marked sig' hmem with hbefore | hsigned
  · obtain ⟨_, -, heq⟩ := List.mem_map.mp hbefore
    cases heq
  · exact hsigned

end LiteSoroban

import LiteSoroban.Classic.Atomicity
import LiteSoroban.Classic.SignatureSpec

/-!
# What a signature check decides

`matchedSigners` are the signers that some signature matches, each of them
once.  While every signature matches at most one signer of a type, a check
passes exactly when there is such a signer and they carry the needed weight:
which signature the loop gave to which signer, and where it stopped, do not
show.

The loops keep a `Tally` of the signers they have matched so far.  Each of
them takes a tally of what came before it to a tally that counts its own
signers as well.
-/

namespace LiteSoroban

/-! ## Tallies -/

theorem weightOf_perm {xs ys : List WeightedSigner} (h : xs.Perm ys) : weightOf xs = weightOf ys :=
  (h.map WeightedSigner.cap).sum_eq

/-- What a check knows after some of its signers: that it has passed, or how
far the matched ones have got. -/
structure Tally (neededWeight : Nat) (matched : List WeightedSigner) (ok : Bool) (total : Nat) :
    Prop where
  passed : ok = true → matched ≠ [] ∧ neededWeight ≤ weightOf matched
  pending : ok = false →
    total = weightOf matched ∧ (matched = [] ∨ weightOf matched < neededWeight)

namespace Tally

variable {neededWeight total : Nat} {matched matched' : List WeightedSigner} {ok : Bool}

theorem empty (neededWeight : Nat) : Tally neededWeight [] false 0 :=
  ⟨fun h => (by cases h), fun _ => ⟨rfl, .inl rfl⟩⟩

theorem perm (h : Tally neededWeight matched ok total) (hperm : matched.Perm matched') :
    Tally neededWeight matched' ok total := by
  have hweight := weightOf_perm hperm
  refine ⟨fun hok => ?_, fun hok => ?_⟩
  · obtain ⟨hne, hle⟩ := h.passed hok
    refine ⟨?_, hweight ▸ hle⟩
    rintro rfl
    exact hne hperm.eq_nil
  · obtain ⟨htotal, hlow⟩ := h.pending hok
    refine ⟨hweight ▸ htotal, hlow.imp ?_ (hweight ▸ ·)⟩
    rintro rfl
    exact hperm.nil_eq.symm

/-- A check that has passed has passed, whatever signers come after. -/
theorem passed_append (h : Tally neededWeight matched true total) (more : List WeightedSigner)
    (total' : Nat) : Tally neededWeight (matched ++ more) true total' := by
  obtain ⟨hne, hle⟩ := h.passed rfl
  refine ⟨fun _ => ⟨fun hnil => hne (List.append_eq_nil_iff.mp hnil).1, ?_⟩, fun h => (by cases h)⟩
  rw [weightOf_append]
  omega

/-- One more matched signer, with which the check passes. -/
theorem reach (h : Tally neededWeight matched false total) {s : WeightedSigner}
    (hreached : neededWeight ≤ total + s.cap) : Tally neededWeight (matched ++ [s]) true total := by
  have htotal := (h.pending rfl).1
  refine ⟨fun _ => ⟨by simp, ?_⟩, fun h => (by cases h)⟩
  rw [weightOf_append, weightOf_cons]
  omega

/-- One more matched signer, with which it does not. -/
theorem count (h : Tally neededWeight matched false total) {s : WeightedSigner}
    (hlow : ¬ neededWeight ≤ total + s.cap) :
    Tally neededWeight (matched ++ [s]) false (total + s.cap) := by
  have htotal := (h.pending rfl).1
  have hweight : weightOf (matched ++ [s]) = total + s.cap := by
    rw [weightOf_append, weightOf_cons, htotal]
    rfl
  exact ⟨fun h => (by cases h), fun _ => ⟨hweight.symm, .inr (by omega)⟩⟩

/-- The verdict of a tally. -/
theorem iff (h : Tally neededWeight matched ok total) :
    ok = true ↔ matched ≠ [] ∧ neededWeight ≤ weightOf matched := by
  refine ⟨h.passed, fun ⟨hne, hle⟩ => ?_⟩
  by_contra hok
  rcases (h.pending (Bool.eq_false_iff.mpr hok)).2 with hnil | hlow
  · exact hne hnil
  · omega

end Tally

/-! ## The loops -/

/-- The loop over the pre-authorized signers counts those that are the
contents hash. -/
theorem preAuth_tally (contentsHash : Hash) {neededWeight total : Nat}
    {matched : List WeightedSigner} (h : Tally neededWeight matched false total)
    (signers : List WeightedSigner) :
    Tally neededWeight (matched ++ signers.filter (isPreAuthOf contentsHash))
      (SignatureChecker.preAuth contentsHash neededWeight signers total).1
      (SignatureChecker.preAuth contentsHash neededWeight signers total).2 := by
  induction signers generalizing matched total with
  | nil => simpa [SignatureChecker.preAuth] using h
  | cons s rest ih =>
    unfold SignatureChecker.preAuth
    by_cases hs : isPreAuthOf contentsHash s = true
    · rw [if_pos hs, List.filter_cons_of_pos hs, List.append_cons]
      dsimp only
      split
      · next hreached => exact (h.reach hreached).passed_append _ _
      · next hlow => exact ih (h.count hlow)
    · rw [if_neg hs, List.filter_cons_of_neg hs]
      exact ih h

/-- Whether some signature is one of the signer's. -/
def signedByAny (verify : DecoratedSignature → WeightedSigner → Bool)
    (signatures : List DecoratedSignature) (s : WeightedSigner) : Bool :=
  signatures.any (verify · s)

/-- Every signature is one of at most one of the signers. -/
def MatchesOnce (verify : DecoratedSignature → WeightedSigner → Bool)
    (signatures : List DecoratedSignature) (signers : List WeightedSigner) : Prop :=
  ∀ sig ∈ signatures, ∀ s ∈ signers, ∀ s' ∈ signers, verify sig s = true → verify sig s' = true →
    s = s'

/-- The candidate a signature is spent on is the one it matches.  The rest of
the signatures match the rest of the candidates as before. -/
theorem filter_signedByAny_perm {verify : DecoratedSignature → WeightedSigner → Bool}
    {sig : DecoratedSignature} {rest : List DecoratedSignature} {candidates : List WeightedSigner}
    (hnodup : candidates.Nodup) (honce : MatchesOnce verify (sig :: rest) candidates) {i : Nat}
    (hi : i < candidates.length) (hverify : verify sig candidates[i] = true) :
    (candidates[i] :: (candidates.eraseIdx i).filter (signedByAny verify rest)).Perm
      (candidates.filter (signedByAny verify (sig :: rest))) := by
  have hperm := List.getElem_cons_eraseIdx_perm hi
  have hsplit := hperm.filter (signedByAny verify (sig :: rest))
  rw [List.filter_cons_of_pos (by simp [signedByAny, hverify])] at hsplit
  refine List.Perm.trans ?_ hsplit
  refine (List.Perm.of_eq (List.filter_congr fun s hs => ?_)).cons _
  -- The candidates are distinct, so no other one is matched by `sig`.
  have hother : verify sig s = false := by
    rw [Bool.eq_false_iff]
    intro hs'
    have heq := honce sig List.mem_cons_self _ (List.getElem_mem hi) s
      (List.mem_of_mem_eraseIdx hs) hverify hs'
    have hdistinct := (hperm.nodup_iff.mpr hnodup)
    exact (List.nodup_cons.mp hdistinct).1 (heq ▸ hs)
  simp [signedByAny, hother]

/-- `verifyAll` counts the candidates that some signature matches. -/
theorem verifyAll_tally {verify : DecoratedSignature → WeightedSigner → Bool}
    {neededWeight total : Nat} {matched : List WeightedSigner}
    (h : Tally neededWeight matched false total) {marks : List (DecoratedSignature × Bool)}
    {candidates : List WeightedSigner} (hnodup : candidates.Nodup)
    (honce : MatchesOnce verify (marks.map (·.1)) candidates) :
    Tally neededWeight (matched ++ candidates.filter (signedByAny verify (marks.map (·.1))))
      (SignatureChecker.verifyAll verify neededWeight marks candidates total).1
      (SignatureChecker.verifyAll verify neededWeight marks candidates total).2.1 := by
  induction marks generalizing matched total candidates with
  | nil =>
    have hnone : candidates.filter (signedByAny verify []) = [] :=
      List.filter_eq_nil_iff.mpr (by simp [signedByAny])
    rw [List.map_nil, hnone, List.append_nil]
    exact h
  | cons mark rest ih =>
    obtain ⟨sig, used⟩ := mark
    simp only [SignatureChecker.verifyAll]
    cases hfind : candidates.findIdx? (verify sig) with
    | none =>
      have hnone := List.findIdx?_eq_none_iff.mp hfind
      have hfilter : candidates.filter (signedByAny verify (sig :: rest.map (·.1))) =
          candidates.filter (signedByAny verify (rest.map (·.1))) :=
        List.filter_congr fun s hs => by simp [signedByAny, hnone s hs]
      rw [List.map_cons, hfilter]
      exact ih h hnodup fun sig' hsig => honce sig' (List.mem_cons_of_mem _ hsig)
    | some i =>
      obtain ⟨hi, hverify, -⟩ := List.findIdx?_eq_some_iff_getElem.mp hfind
      have hcap : (candidates[i]?.map WeightedSigner.cap).getD 0 = candidates[i].cap := by
        simp [hi]
      have hperm := (filter_signedByAny_perm hnodup honce hi hverify).append_left matched
      simp only [hcap]
      refine Tally.perm ?_ hperm
      rw [List.append_cons]
      split
      · next hreached => exact (h.reach hreached).passed_append _ _
      · next hlow =>
        refine ih (h.count hlow) (hnodup.eraseIdx i) fun sig' hsig s hs s' hs' => ?_
        exact honce sig' (List.mem_cons_of_mem _ hsig) s (List.mem_of_mem_eraseIdx hs) s'
          (List.mem_of_mem_eraseIdx hs')

/-- `verifyAll` keeps the signatures and only adds marks. -/
def MarksAdded (before after : List (DecoratedSignature × Bool)) : Prop :=
  List.Forall₂ (fun m m' => m'.1 = m.1 ∧ (m.2 = true → m'.2 = true)) before after

theorem marksAdded_refl (marks : List (DecoratedSignature × Bool)) : MarksAdded marks marks :=
  List.forall₂_same.mpr fun _ _ => ⟨rfl, id⟩

theorem MarksAdded.trans {a b c : List (DecoratedSignature × Bool)} (hab : MarksAdded a b)
    (hbc : MarksAdded b c) : MarksAdded a c := by
  induction hab generalizing c with
  | nil => exact hbc
  | cons hm _ ih =>
    cases hbc with
    | cons hm' hrest => exact .cons ⟨hm'.1.trans hm.1, hm'.2 ∘ hm.2⟩ (ih hrest)

theorem MarksAdded.signatures {a b : List (DecoratedSignature × Bool)} (h : MarksAdded a b) :
    b.map (·.1) = a.map (·.1) := by
  induction h with
  | nil => rfl
  | cons hm _ ih => rw [List.map_cons, List.map_cons, hm.1, ih]

theorem verifyAll_marksAdded (verify : DecoratedSignature → WeightedSigner → Bool)
    (neededWeight : Nat) (marks : List (DecoratedSignature × Bool))
    (candidates : List WeightedSigner) (total : Nat) :
    MarksAdded marks
      (SignatureChecker.verifyAll verify neededWeight marks candidates total).2.2 := by
  induction marks generalizing candidates total with
  | nil => exact .nil
  | cons mark rest ih =>
    obtain ⟨sig, used⟩ := mark
    simp only [SignatureChecker.verifyAll]
    cases candidates.findIdx? (verify sig) with
    | none => exact .cons ⟨rfl, id⟩ (ih candidates total)
    | some i =>
      dsimp only
      split
      · exact .cons ⟨rfl, fun _ => rfl⟩ (marksAdded_refl rest)
      · exact .cons ⟨rfl, fun _ => rfl⟩ (ih _ _)

theorem verifyType_marksAdded (d : Deps) (checker : SignatureChecker)
    (signers : List WeightedSigner) (neededWeight : Nat) (type : SignerType)
    (state : Bool × Nat × List (DecoratedSignature × Bool)) :
    MarksAdded state.2.2 (checker.verifyType d signers neededWeight type state).2.2 := by
  obtain ⟨ok, total, marks⟩ := state
  cases ok with
  | true => exact marksAdded_refl marks
  | false => exact verifyAll_marksAdded _ _ _ _ _

/-! ## The check -/

instance (d : Deps) (contentsHash : Hash) (signatures : List DecoratedSignature) :
    DecidablePred (SignedBy d contentsHash signatures) := fun s =>
  inferInstanceAs (Decidable (isPreAuthOf contentsHash s = true ∨
    ∃ sig ∈ signatures, verifySignature d contentsHash sig s = true))

/-- The signers a check can match: a pre-authorized transaction by the hash
and any other signer by some signature. -/
def matchedSigners (d : Deps) (contentsHash : Hash) (signatures : List DecoratedSignature)
    (signers : List WeightedSigner) : List WeightedSigner :=
  signers.filter (SignedBy d contentsHash signatures ·)

/-- Every signature is one of at most one signer of each type. -/
def MatchesOnceByType (d : Deps) (contentsHash : Hash) (signatures : List DecoratedSignature)
    (signers : List WeightedSigner) : Prop :=
  ∀ sig ∈ signatures, ∀ s ∈ signers, ∀ s' ∈ signers, s.key.type = s'.key.type →
    verifySignature d contentsHash sig s = true → verifySignature d contentsHash sig s' = true →
    s = s'

theorem MatchesOnceByType.ofType {d : Deps} {contentsHash : Hash}
    {signatures : List DecoratedSignature} {signers : List WeightedSigner}
    (h : MatchesOnceByType d contentsHash signatures signers) (type : SignerType) :
    MatchesOnce (verifySignature d contentsHash) signatures (ofType type signers) := by
  intro sig hsig s hs s' hs'
  obtain ⟨hs, htype⟩ := mem_ofType.mp hs
  obtain ⟨hs', htype'⟩ := mem_ofType.mp hs'
  exact h sig hsig s hs s' hs' (htype.trans htype'.symm)

/-- What the check has counted before it tries the next type. -/
structure Counted (neededWeight : Nat) (signatures : List DecoratedSignature)
    (matched : List WeightedSigner) (state : Bool × Nat × List (DecoratedSignature × Bool)) :
    Prop where
  tally : Tally neededWeight matched state.1 state.2.1
  signatures : state.2.2.map (·.1) = signatures

/-- One signer type counts those of its signers that some signature matches. -/
theorem Counted.verifyType {d : Deps} {signers : List WeightedSigner} {neededWeight : Nat}
    {signatures : List DecoratedSignature} {matched : List WeightedSigner}
    {state : Bool × Nat × List (DecoratedSignature × Bool)}
    (h : Counted neededWeight signatures matched state) (checker : SignatureChecker)
    (hnodup : signers.Nodup)
    (honce : MatchesOnceByType d checker.contentsHash signatures signers) (type : SignerType) :
    Counted neededWeight signatures (matched ++ (ofType type signers).filter
        (signedByAny (verifySignature d checker.contentsHash) signatures))
      (checker.verifyType d signers neededWeight type state) := by
  refine ⟨?_, (verifyType_marksAdded ..).signatures.trans h.signatures⟩
  obtain ⟨htally, rfl⟩ := h
  obtain ⟨ok, total, marks⟩ := state
  cases ok with
  | true => exact htally.passed_append _ _
  | false => exact verifyAll_tally htally (hnodup.filter _) (honce.ofType type)

/-- No signature is a pre-authorized transaction's. -/
theorem verifySignature_preAuth {d : Deps} {contentsHash : Hash} {sig : DecoratedSignature}
    {s : WeightedSigner} (h : s.key.type = .preAuthTx) :
    verifySignature d contentsHash sig s = false := by
  obtain ⟨key, weight⟩ := s
  cases key with
  | signerKeyTypePreAuthTx preAuthTx => rfl
  | signerKeyTypeEd25519 ed25519 => cases h
  | signerKeyTypeHashX hashX => cases h
  | signerKeyTypeEd25519SignedPayload ed25519 payload => cases h

/-- Only a pre-authorized transaction is the contents hash. -/
theorem isPreAuthOf_type {contentsHash : Hash} {s : WeightedSigner}
    (h : isPreAuthOf contentsHash s = true) : s.key.type = .preAuthTx := by
  obtain ⟨key, weight⟩ := s
  cases key with
  | signerKeyTypePreAuthTx preAuthTx => rfl
  | signerKeyTypeEd25519 ed25519 => cases h
  | signerKeyTypeHashX hashX => cases h
  | signerKeyTypeEd25519SignedPayload ed25519 payload => cases h

theorem filter_signedBy_preAuth (d : Deps) (contentsHash : Hash)
    (signatures : List DecoratedSignature) (signers : List WeightedSigner) :
    (ofType .preAuthTx signers).filter (SignedBy d contentsHash signatures ·) =
      (ofType .preAuthTx signers).filter (isPreAuthOf contentsHash) := by
  refine List.filter_congr fun s hs => ?_
  have hunsigned : ∀ sig, verifySignature d contentsHash sig s = false :=
    fun sig => verifySignature_preAuth (mem_ofType.mp hs).2
  simp [SignedBy, hunsigned]

theorem filter_signedBy_ofType (d : Deps) (contentsHash : Hash)
    (signatures : List DecoratedSignature) (signers : List WeightedSigner) {type : SignerType}
    (htype : type ≠ .preAuthTx) :
    (ofType type signers).filter (SignedBy d contentsHash signatures ·) =
      (ofType type signers).filter (signedByAny (verifySignature d contentsHash) signatures) := by
  refine List.filter_congr fun s hs => ?_
  have hother : ¬ isPreAuthOf contentsHash s = true :=
    fun h => htype ((mem_ofType.mp hs).2.symm.trans (isPreAuthOf_type h))
  rw [Bool.eq_iff_iff]
  simp [SignedBy, hother, signedByAny]

/-- The matched signers, sorted by type, are what the loops count. -/
theorem matchedSigners_perm (d : Deps) (contentsHash : Hash)
    (signatures : List DecoratedSignature) (signers : List WeightedSigner) :
    (((([] ++ (ofType .preAuthTx signers).filter (isPreAuthOf contentsHash)) ++
      (ofType .hashX signers).filter
        (signedByAny (verifySignature d contentsHash) signatures)) ++
      (ofType .ed25519 signers).filter
        (signedByAny (verifySignature d contentsHash) signatures)) ++
      (ofType .signedPayload signers).filter
        (signedByAny (verifySignature d contentsHash) signatures)).Perm
      (matchedSigners d contentsHash signatures signers) := by
  have hperm := (ofType_perm signers).filter (SignedBy d contentsHash signatures ·)
  simp only [List.filter_append, filter_signedBy_preAuth,
    filter_signedBy_ofType d contentsHash signatures signers (by decide : SignerType.hashX ≠ _),
    filter_signedBy_ofType d contentsHash signatures signers (by decide : SignerType.ed25519 ≠ _),
    filter_signedBy_ofType d contentsHash signatures signers
      (by decide : SignerType.signedPayload ≠ _)] at hperm
  simp only [List.nil_append, List.append_assoc]
  exact hperm

theorem checkSignature_eq (d : Deps) (checker : SignatureChecker) (signers : List WeightedSigner)
    (neededWeight : Nat) : checker.checkSignature d signers neededWeight =
      let pre := SignatureChecker.preAuth checker.contentsHash neededWeight
        (ofType .preAuthTx signers) 0
      let state := checker.verifyType d signers neededWeight .signedPayload
        (checker.verifyType d signers neededWeight .ed25519
          (checker.verifyType d signers neededWeight .hashX (pre.1, pre.2, checker.signatures)))
      (state.1, { checker with signatures := state.2.2 }) := rfl

/-- A check of any checker only ever adds marks. -/
theorem checkSignature_marksAdded (d : Deps) (checker : SignatureChecker)
    (signers : List WeightedSigner) (neededWeight : Nat) :
    MarksAdded checker.signatures
      (checker.checkSignature d signers neededWeight).2.signatures := by
  rw [checkSignature_eq]
  have hadds := verifyType_marksAdded d checker signers neededWeight
  exact ((hadds .hashX (_, _, checker.signatures)).trans (hadds .ed25519 _)).trans
    (hadds .signedPayload _)

/-- The verdict of a fresh checker. -/
def passes (d : Deps) (contentsHash : Hash) (signatures : List DecoratedSignature)
    (signers : List WeightedSigner) (neededWeight : Nat) : Bool :=
  ((SignatureChecker.new signatures contentsHash).checkSignature d signers neededWeight).1

theorem passes_iff {d : Deps} {contentsHash : Hash} {signatures : List DecoratedSignature}
    {signers : List WeightedSigner} (hnodup : signers.Nodup)
    (honce : MatchesOnceByType d contentsHash signatures signers) (neededWeight : Nat) :
    passes d contentsHash signatures signers neededWeight = true ↔
      matchedSigners d contentsHash signatures signers ≠ [] ∧
        neededWeight ≤ weightOf (matchedSigners d contentsHash signatures signers) := by
  have hfresh : (SignatureChecker.new signatures contentsHash).signatures.map (·.1) =
      signatures := by
    simp only [SignatureChecker.new, List.map_map, Function.comp_def, List.map_id']
  let checker := SignatureChecker.new signatures contentsHash
  have hpre : Counted neededWeight signatures _ (_, _, checker.signatures) :=
    ⟨preAuth_tally contentsHash (.empty neededWeight) (ofType .preAuthTx signers), hfresh⟩
  have hhashX := hpre.verifyType checker hnodup honce .hashX
  have hed25519 := hhashX.verifyType checker hnodup honce .ed25519
  have htypes := hed25519.verifyType checker hnodup honce .signedPayload
  have htally := htypes.tally.perm (matchedSigners_perm d contentsHash signatures signers)
  unfold passes
  rw [checkSignature_eq]
  exact htally.iff

/-- While every signature is one of at most one signer of each type, a fresh
check passes exactly when some signer is matched and the matched signers carry
the needed weight.  So neither the order of the signatures nor that of the
signers shows, a lower weight is easier, and nothing passes without a match.
A check of any checker only adds marks. -/
theorem checkSignature_iff {d : Deps} {contentsHash : Hash} {signatures : List DecoratedSignature}
    {signers : List WeightedSigner} (hkeys : (signers.map (·.key)).Nodup)
    (honce : MatchesOnceByType d contentsHash signatures signers) :
    (∀ neededWeight, passes d contentsHash signatures signers neededWeight = true ↔
      matchedSigners d contentsHash signatures signers ≠ [] ∧
        neededWeight ≤ weightOf (matchedSigners d contentsHash signatures signers)) ∧
    (∀ signatures' signers' neededWeight, signatures'.Perm signatures → signers'.Perm signers →
      passes d contentsHash signatures' signers' neededWeight =
        passes d contentsHash signatures signers neededWeight) ∧
    (∀ neededWeight lower, lower ≤ neededWeight →
      passes d contentsHash signatures signers neededWeight = true →
      passes d contentsHash signatures signers lower = true) ∧
    ((∀ s ∈ signers, ¬ SignedBy d contentsHash signatures s) →
      ∀ neededWeight, passes d contentsHash signatures signers neededWeight = false) ∧
    ∀ (checker : SignatureChecker) (neededWeight : Nat), MarksAdded checker.signatures
      (checker.checkSignature d signers neededWeight).2.signatures := by
  have hnodup : signers.Nodup := hkeys.of_map _
  have hiff := passes_iff hnodup honce
  refine ⟨hiff, fun signatures' signers' neededWeight hsignatures hsigners => ?_,
    fun neededWeight lower hle hpasses => ?_, fun hnone neededWeight => ?_,
    fun checker neededWeight => checkSignature_marksAdded d checker signers neededWeight⟩
  · have honce' : MatchesOnceByType d contentsHash signatures' signers' :=
      fun sig hsig s hs s' hs' => honce sig (hsignatures.mem_iff.mp hsig) s
        (hsigners.mem_iff.mp hs) s' (hsigners.mem_iff.mp hs')
    have hsame : ∀ s, SignedBy d contentsHash signatures' s ↔
        SignedBy d contentsHash signatures s := by
      intro s
      simp only [SignedBy, hsignatures.mem_iff]
    have hmatched : (matchedSigners d contentsHash signatures' signers').Perm
        (matchedSigners d contentsHash signatures signers) := by
      unfold matchedSigners
      simp only [hsame]
      exact hsigners.filter _
    have hnil : matchedSigners d contentsHash signatures' signers' = [] ↔
        matchedSigners d contentsHash signatures signers = [] := by
      rw [← List.length_eq_zero_iff, hmatched.length_eq, List.length_eq_zero_iff]
    rw [Bool.eq_iff_iff, hiff, passes_iff (hsigners.nodup_iff.mpr hnodup) honce', ne_eq, hnil,
      weightOf_perm hmatched]
  · obtain ⟨hne, hweight⟩ := (hiff neededWeight).mp hpasses
    exact (hiff lower).mpr ⟨hne, le_trans hle hweight⟩
  · rw [Bool.eq_false_iff]
    intro hpasses
    refine ((hiff neededWeight).mp hpasses).1 (List.filter_eq_nil_iff.mpr fun s hs => ?_)
    simpa using hnone s hs

/-- Two signers of one account, and a signature of each. -/
def sampleSigners : List WeightedSigner :=
  [⟨.signerKeyTypeEd25519 (List.replicate 32 7), 1⟩, ⟨.signerKeyTypeEd25519 (List.replicate 32 8), 2⟩]

/-- The two signatures carry the weight of three, in either order, and not of
four. -/
theorem checkSignature_iff_sample :
    passes .idle [] [sampleSignature 7, sampleSignature 8] sampleSigners 3 = true ∧
    passes .idle [] [sampleSignature 8, sampleSignature 7] sampleSigners 3 = true ∧
    passes .idle [] [sampleSignature 7, sampleSignature 8] sampleSigners 4 ≠ true := by
  have honce : MatchesOnceByType .idle [] [sampleSignature 7, sampleSignature 8] sampleSigners := by
    unfold MatchesOnceByType
    decide
  obtain ⟨hiff, horder, -⟩ := checkSignature_iff (by decide) honce
  have hthree : passes .idle [] [sampleSignature 7, sampleSignature 8] sampleSigners 3 = true :=
    (hiff 3).mpr (by decide)
  refine ⟨hthree, ?_, fun h => absurd ((hiff 4).mp h) (by decide)⟩
  rw [horder _ _ 3 (List.Perm.swap _ _ _) (List.Perm.refl _), hthree]

end LiteSoroban

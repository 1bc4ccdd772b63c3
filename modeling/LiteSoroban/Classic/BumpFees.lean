import Mathlib.Tactic.Linarith
import LiteSoroban.Classic.Atomicity

/-!
# The least fee of a fee bump

`checkBumpFees` asks three things of the total fee: that the inclusion fee in
it is not negative, that it covers one operation more than the inner
transaction's, and that it raises the inner transaction's rate.  Each of them
is a lower bound, so one least total fee passes all three.

`checkBumpFees_cases` says which of the checks rejects.  The rate is compared
by cross-multiplication, and `neededInclusion` is the least inclusion fee for
which the comparison comes out.
-/

namespace LiteSoroban

/-! ## The least inclusion fee -/

/-- The ceiling of a quotient is the least factor that reaches the dividend. -/
theorem ceil_le_iff {v unit x : Int} (hunit : 0 < unit) :
    (v + unit - 1) / unit ≤ x ↔ v ≤ x * unit := by
  have hlt : (v + unit - 1) / unit < x + 1 ↔ v + unit - 1 < (x + 1) * unit :=
    Int.ediv_lt_iff_lt_mul hunit
  rw [← Int.lt_add_one_iff, hlt, Int.add_mul, Int.one_mul]
  omega

theorem minInclusion_pos (operations : Nat) : 0 < minInclusion operations := by
  unfold minInclusion baseFee
  omega

namespace TransactionV1Envelope

/-- What the inner transaction bids beside its resource fee. -/
def innerInclusion (inner : TransactionV1Envelope) : Int :=
  inner.tx.fee - declaredResourceFee inner.tx

/-- The least inclusion fee a fee bump may have: one operation more. -/
def minBumpInclusion (inner : TransactionV1Envelope) : Int :=
  minInclusion (inner.tx.operations.length + 1)

/-- An inclusion fee whose rate is no lower than the inner transaction's. -/
def RateRaised (inner : TransactionV1Envelope) (inclusionFee : Int) : Prop :=
  inner.innerInclusion * inner.minBumpInclusion ≤
    inclusionFee * minInclusion inner.tx.operations.length

/-- The inclusion fee a rejected fee bump is told to offer. -/
def neededInclusion (inner : TransactionV1Envelope) : Int :=
  (inner.innerInclusion * inner.minBumpInclusion + minInclusion inner.tx.operations.length - 1) /
    minInclusion inner.tx.operations.length

theorem rateRaised_iff (inner : TransactionV1Envelope) (inclusionFee : Int) :
    inner.RateRaised inclusionFee ↔ inner.neededInclusion ≤ inclusionFee :=
  (ceil_le_iff (minInclusion_pos _)).symm

end TransactionV1Envelope

/-! ## The three checks -/

/-- The text of the rate check. -/
def bumpRateDetail : String := "the fee bump does not raise the per-operation inclusion fee"

/-- No text that begins with another letter is the rate check's. -/
theorem append_ne_bumpRateDetail {opening rest : String} {c : Char}
    (hopening : opening.toList.head? = some c) (hc : c ≠ 't') :
    opening ++ rest ≠ bumpRateDetail := by
  intro h
  have hhead := congrArg (fun s : String => s.toList.head?) h
  simp only [String.toList_append, List.head?_append, hopening, Option.some_or] at hhead
  exact hc (Option.some.inj hhead)

/-- The three checks in their order. -/
theorem checkBumpFees_eq (feeSource : MuxedAccount) (fee : Int) (inner : TransactionV1Envelope) :
    checkBumpFees ⟨feeSource, fee, inner⟩ =
      let resourceFee := declaredResourceFee inner.tx
      let inclusionFee := fee - resourceFee
      let needed := inner.minBumpInclusion
      if fee < 0 ∨ inclusionFee < 0 then
        .error (.reject (malformed
          s!"inclusion fee {inclusionFee} is negative: resource fee {resourceFee} exceeds the full fee {fee}"))
      else if inclusionFee < needed then
        .error (.reject (fail .txINSUFFICIENT_FEE (some
          s!"fee bump inclusion fee {inclusionFee} below baseFee * (innerOps + 1) = {needed}") 0))
      else if 0 ≤ inner.innerInclusion ∧ inclusionFee * minInclusion inner.tx.operations.length <
          inner.innerInclusion * needed then
        .error (.reject (fail .txINSUFFICIENT_FEE (some bumpRateDetail) inner.neededInclusion))
      else .ok () := by
  unfold checkBumpFees
  simp only [negativeInclusionFee]
  by_cases hqueue : fee < 0 ∨ fee - declaredResourceFee inner.tx < 0
  · rw [if_pos hqueue, if_pos hqueue]
  · rw [if_neg hqueue, if_neg hqueue]
    by_cases hlow : fee - declaredResourceFee inner.tx < inner.minBumpInclusion
    · rw [if_pos hlow]
      exact congrArg (· >>= _) (congrArg _ (if_pos hlow))
    · rw [if_neg hlow]
      exact congrArg (· >>= _) (congrArg _ (if_neg hlow))

/-- What the three checks answer: one of them rejects, or the fee passes. -/
theorem checkBumpFees_cases (feeSource : MuxedAccount) (fee : Int)
    (inner : TransactionV1Envelope) :
    ((fee < 0 ∨ fee - declaredResourceFee inner.tx < 0) ∧
      ∃ detail, detail ≠ bumpRateDetail ∧
        checkBumpFees ⟨feeSource, fee, inner⟩ = .error (.reject (malformed detail))) ∨
    (fee - declaredResourceFee inner.tx < inner.minBumpInclusion ∧
      ∃ detail, detail ≠ bumpRateDetail ∧ checkBumpFees ⟨feeSource, fee, inner⟩ =
        .error (.reject (fail .txINSUFFICIENT_FEE (some detail) 0))) ∨
    (0 ≤ fee ∧ inner.minBumpInclusion ≤ fee - declaredResourceFee inner.tx ∧
      0 ≤ inner.innerInclusion ∧ ¬ inner.RateRaised (fee - declaredResourceFee inner.tx) ∧
      checkBumpFees ⟨feeSource, fee, inner⟩ = .error (.reject
        (fail .txINSUFFICIENT_FEE (some bumpRateDetail) inner.neededInclusion))) ∨
    (0 ≤ fee ∧ inner.minBumpInclusion ≤ fee - declaredResourceFee inner.tx ∧
      (0 ≤ inner.innerInclusion → inner.RateRaised (fee - declaredResourceFee inner.tx)) ∧
      checkBumpFees ⟨feeSource, fee, inner⟩ = .ok ()) := by
  rw [checkBumpFees_eq]
  dsimp only
  split_ifs with hqueue hlow hslow
  · refine .inl ⟨hqueue, _, ?_, rfl⟩
    simp only [String.append_assoc]
    exact append_ne_bumpRateDetail (c := 'i') rfl (by decide)
  · refine .inr (.inl ⟨hlow, _, ?_, rfl⟩)
    simp only [String.append_assoc]
    exact append_ne_bumpRateDetail (c := 'f') rfl (by decide)
  · exact .inr (.inr (.inl ⟨by omega, by omega, hslow.1, not_le.mpr hslow.2, rfl⟩))
  · refine .inr (.inr (.inr ⟨by omega, by omega, fun hinner => ?_, rfl⟩))
    exact not_lt.mp fun hlt => hslow ⟨hinner, hlt⟩

/-! ## The least total fee -/

/-- The least total fee that passes the three checks. -/
def TransactionV1Envelope.leastBumpFee (inner : TransactionV1Envelope) : Int :=
  max 0 (declaredResourceFee inner.tx +
    if 0 ≤ inner.innerInclusion then max inner.minBumpInclusion inner.neededInclusion
    else inner.minBumpInclusion)

theorem checkBumpFees_iff (feeSource : MuxedAccount) (fee : Int) (inner : TransactionV1Envelope) :
    checkBumpFees ⟨feeSource, fee, inner⟩ = .ok () ↔ inner.leastBumpFee ≤ fee := by
  have hmin : 0 < inner.minBumpInclusion := minInclusion_pos _
  have hrate := inner.rateRaised_iff (fee - declaredResourceFee inner.tx)
  unfold TransactionV1Envelope.leastBumpFee
  rcases checkBumpFees_cases feeSource fee inner with ⟨hlow, detail, -, hcheck⟩ |
    ⟨hlow, detail, -, hcheck⟩ | ⟨hfee, hle, hinner, hslow, hcheck⟩ |
    ⟨hfee, hle, hraised, hcheck⟩
  · simp only [hcheck, reduceCtorEq, false_iff]
    split <;> omega
  · simp only [hcheck, reduceCtorEq, false_iff]
    split <;> omega
  · simp only [hcheck, reduceCtorEq, false_iff, if_pos hinner]
    rw [hrate] at hslow
    omega
  · simp only [hcheck, true_iff]
    split
    · next hinner =>
      have hneeded := hrate.mp (hraised hinner)
      omega
    · omega

/-! ## The rate check -/

/-- The rate check rejects a total fee. -/
structure RateRejects (feeSource : MuxedAccount) (inner : TransactionV1Envelope) (fee : Int)
    (outcome : TxOutcome) : Prop where
  rejects : checkBumpFees ⟨feeSource, fee, inner⟩ = .error (.reject outcome)
  detail : outcome.detail = some bumpRateDetail

theorem rateRejects_iff {feeSource : MuxedAccount} {inner : TransactionV1Envelope} {fee : Int}
    {outcome : TxOutcome} : RateRejects feeSource inner fee outcome ↔
      0 ≤ fee ∧ inner.minBumpInclusion ≤ fee - declaredResourceFee inner.tx ∧
      0 ≤ inner.innerInclusion ∧ fee - declaredResourceFee inner.tx < inner.neededInclusion ∧
      outcome = fail .txINSUFFICIENT_FEE (some bumpRateDetail) inner.neededInclusion := by
  have hrate := inner.rateRaised_iff (fee - declaredResourceFee inner.tx)
  have hmin : 0 < inner.minBumpInclusion := minInclusion_pos _
  rcases checkBumpFees_cases feeSource fee inner with ⟨hlow, detail, hdetail, hcheck⟩ |
    ⟨hlow, detail, hdetail, hcheck⟩ | ⟨hfee, hle, hinner, hslow, hcheck⟩ |
    ⟨hfee, hle, hraised, hcheck⟩
  · refine ⟨fun h => ?_, fun h => by omega⟩
    cases hcheck.symm.trans h.rejects
    exact absurd (Option.some.inj h.detail) hdetail
  · refine ⟨fun h => ?_, fun h => by omega⟩
    cases hcheck.symm.trans h.rejects
    exact absurd (Option.some.inj h.detail) hdetail
  · have hlt : fee - declaredResourceFee inner.tx < inner.neededInclusion :=
      not_le.mp (hrate.not.mp hslow)
    refine ⟨fun h => ⟨hfee, hle, hinner, hlt, ?_⟩, ?_⟩
    · cases hcheck.symm.trans h.rejects
      rfl
    · rintro ⟨-, -, -, -, rfl⟩
      exact ⟨hcheck, rfl⟩
  · refine ⟨fun h => ?_, fun h => ?_⟩
    · cases hcheck.symm.trans h.rejects
    · exact absurd (hrate.mp (hraised h.2.2.1)) (not_le.mpr h.2.2.2.1)

/-- What the rate check answers is what the envelope's result reports, since
the fee it asks for is not zero. -/
theorem RateRejects.applyTransaction {feeSource : MuxedAccount} {inner : TransactionV1Envelope}
    {fee : Int} {outcome : TxOutcome} (h : RateRejects feeSource inner fee outcome) {d : Deps}
    {signatures : List DecoratedSignature}
    (hbump : d.newFeeBumpTransaction ⟨⟨feeSource, fee, inner⟩, signatures⟩ = .ok ())
    (hinner : d.newTransaction inner = .ok ()) (hvalid : xdrProvidesValidFee inner.tx = none)
    (passphrase : String) (validation : ValidationOptions) (ledger : Ledger) :
    LiteSoroban.applyTransaction d (.envelopeTypeTxFeeBump ⟨⟨feeSource, fee, inner⟩, signatures⟩)
      passphrase validation ledger = .ok outcome ledger := by
  obtain ⟨hfee, hle, -, hlt, houtcome⟩ := rateRejects_iff.mp h
  have hmin : 0 < inner.minBumpInclusion := minInclusion_pos _
  have happlication : feeBumpApplication d ledger passphrase validation
      ⟨⟨feeSource, fee, inner⟩, signatures⟩ = .error (.reject outcome) := by
    simp only [feeBumpApplication, hbump, hinner, hvalid, h.rejects]
    rw [if_neg (not_lt.mpr hfee)]
    rfl
  have hseed : seedFee (.envelopeTypeTxFeeBump ⟨⟨feeSource, fee, inner⟩, signatures⟩) outcome =
      outcome := by
    have hcharged : ¬ inner.neededInclusion = 0 := by omega
    rw [houtcome]
    simp [seedFee, fail, hcharged]
  simp only [LiteSoroban.applyTransaction, applyEnvelope, envelopeApplication, happlication, hseed]

/-- One least total fee passes the three checks of a fee bump.  When the rate
check rejects, the result reports the least inclusion fee that raises the
rate, so that the resource fee and that much passes, and one stroop less is
rejected again.  An inner inclusion fee below zero is not compared. -/
theorem checkBumpFees_leastFee (inner : TransactionV1Envelope) (feeSource : MuxedAccount) :
    (∃ leastFee, ∀ fee, checkBumpFees ⟨feeSource, fee, inner⟩ = .ok () ↔ leastFee ≤ fee) ∧
    (∀ fee outcome, RateRejects feeSource inner fee outcome →
      (∀ inclusionFee, inner.RateRaised inclusionFee ↔ outcome.feeCharged ≤ inclusionFee) ∧
      checkBumpFees ⟨feeSource, declaredResourceFee inner.tx + outcome.feeCharged, inner⟩ =
        .ok () ∧
      RateRejects feeSource inner (declaredResourceFee inner.tx + outcome.feeCharged - 1) outcome ∧
      ∀ d signatures passphrase validation ledger,
        d.newFeeBumpTransaction ⟨⟨feeSource, fee, inner⟩, signatures⟩ = .ok () →
        d.newTransaction inner = .ok () → xdrProvidesValidFee inner.tx = none →
        applyTransaction d (.envelopeTypeTxFeeBump ⟨⟨feeSource, fee, inner⟩, signatures⟩)
          passphrase validation ledger = .ok outcome ledger) ∧
    (inner.innerInclusion < 0 → ∀ fee, (∀ outcome, ¬ RateRejects feeSource inner fee outcome) ∧
      (checkBumpFees ⟨feeSource, fee, inner⟩ = .ok () ↔
        0 ≤ fee ∧ inner.minBumpInclusion ≤ fee - declaredResourceFee inner.tx)) := by
  refine ⟨⟨inner.leastBumpFee, fun fee => checkBumpFees_iff feeSource fee inner⟩,
    fun fee outcome h => ?_, fun hinner fee => ⟨fun outcome h => ?_, ?_⟩⟩
  · obtain ⟨hfee, hle, hinner, hlt, houtcome⟩ := rateRejects_iff.mp h
    have hcharged : outcome.feeCharged = inner.neededInclusion := by rw [houtcome, fail]
    refine ⟨fun inclusionFee => ?_, ?_, ?_, fun d signatures passphrase validation ledger hbump
      hdecodes hvalid => h.applyTransaction hbump hdecodes hvalid passphrase validation ledger⟩
    · rw [hcharged]
      exact inner.rateRaised_iff inclusionFee
    · rw [checkBumpFees_iff, hcharged]
      unfold TransactionV1Envelope.leastBumpFee
      rw [if_pos hinner]
      omega
    · exact rateRejects_iff.mpr ⟨by omega, by omega, hinner, by omega, houtcome⟩
  · exact absurd (rateRejects_iff.mp h).2.2.1 (not_le.mpr hinner)
  · rw [checkBumpFees_iff]
    unfold TransactionV1Envelope.leastBumpFee
    rw [if_neg (not_le.mpr hinner)]
    omega

/-- An inner transaction that bids 1000 beside its resource fee. -/
def sampleBid : TransactionV1Envelope :=
  { sampleEnvelope 7 1 none with tx := { (sampleEnvelope 7 1 none).tx with fee := 1000 } }

/-- A fee bump of 1500 over it is told to offer 2000, which is the least that
passes. -/
theorem checkBumpFees_leastFee_sample :
    ∃ outcome, RateRejects (.keyTypeEd25519 []) sampleBid 1500 outcome ∧
      outcome.feeCharged = 2000 ∧
      checkBumpFees ⟨.keyTypeEd25519 [], 0 + 2000, sampleBid⟩ = .ok () ∧
      RateRejects (.keyTypeEd25519 []) sampleBid (0 + 2000 - 1) outcome := by
  have h : RateRejects (.keyTypeEd25519 []) sampleBid 1500
      (fail .txINSUFFICIENT_FEE (some bumpRateDetail) 2000) := ⟨rfl, rfl⟩
  obtain ⟨-, hpasses, hrejects, -⟩ :=
    (checkBumpFees_leastFee sampleBid (.keyTypeEd25519 [])).2.1 1500 _ h
  exact ⟨_, h, rfl, hpasses, hrejects⟩

end LiteSoroban

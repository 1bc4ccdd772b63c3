import LiteSoroban.Classic.ApplySpec

/-!
# A transaction applies as a whole or not at all

A rejection leaves the ledger as it was.  A transaction that was accepted and
then failed leaves nothing behind but its sequence number and its fee.

The commit point is a single line of the source, and `applyTransaction_ok` is
where the two sides part.  What is left is the arithmetic of one account that
may be rewritten three times: by the bump, by the debit, and by the refund.
`ClassicCommitted` and `ClassicSettled` say what each rewrite does to every
sequence number and every balance, so the case of one account that is both
source and payer needs no argument of its own.
-/

namespace LiteSoroban

open Effect

/-- What the host charges for events is nothing when there are none. -/
def Deps.NoEventsNoFee (d : Deps) : Prop :=
  ∀ resources fees, resources.contractEventsSizeBytes = 0 →
    (d.computeTransactionResourceFee resources fees).2 = 0

/-! ## A failed transaction -/

/-- The refundable part of the declared fee is not negative. -/
theorem maxRefundable_nonneg {d : Deps} (hfee : d.NoEventsNoFee) {ledger : Ledger}
    {a : Application} {v : Validated} {charge : FeeCharge} (hcharge : a.charge = some charge)
    (h : checkDeclaredFee d ledger a v.toShaped = .ok v.nonRefundable) : 0 ≤ v.maxRefundable := by
  obtain ⟨refundable, hcompute, hle⟩ := checkDeclaredFee_ok hcharge h
  obtain ⟨settings, resources, -, hzero, heq⟩ := computeResourceFee_ok hcompute
  have hrefundable : refundable = 0 := by
    have := hfee resources settings.feeConfiguration hzero
    rwa [← heq] at this
  simp only [Validated.maxRefundable]
  omega

/-- The fee an outcome reports, with the rewrite of a fee bump undone. -/
theorem Accepted.feeCharged {d : Deps} {ledger ledger' debitedLedger operatedLedger : Ledger}
    {envelope : TransactionEnvelope} {passphrase : String} {validation : ValidationOptions}
    {outcome : TxOutcome} {a : Application} {v : Validated} {op : Operated}
    (h : Accepted d ledger envelope passphrase validation outcome ledger' a v debitedLedger
      operatedLedger op) :
    outcome.ok = op.outcome.ok ∧
      outcome.feeCharged = (match a.charge with
        | some charge => charge.upfront - refundOf v op
        | none => 0) ∧
      outcome.sorobanFee = (match a.charge with
        | some _ => some ⟨v.nonRefundable, op.refundable, op.rent⟩
        | none => op.outcome.sorobanFee) := by
  obtain ⟨inner, hsettle, rfl⟩ := h.settled
  have hrejected : inner.rejected = false :=
    (settle_outcome hsettle).1.trans (runOperation_rejected h.operated)
  have hok : (if a.feeBumped then bumpOutcome inner else inner).ok = inner.ok := by
    split
    · exact bumpOutcome_ok inner
    · rfl
  have hfee : (if a.feeBumped then bumpOutcome inner else inner).feeCharged =
      inner.feeCharged := by
    split
    · exact bumpOutcome_feeCharged hrejected
    · rfl
  have hsoroban : (if a.feeBumped then bumpOutcome inner else inner).sorobanFee =
      inner.sorobanFee := by
    split
    · simp [bumpOutcome, hrejected]
    · rfl
  rw [hok, hfee, hsoroban]
  refine ⟨(settle_outcome hsettle).2.1, ?_⟩
  cases hcharge : a.charge with
  | none =>
    rw [hcharge] at hsettle
    obtain ⟨rfl, -⟩ := settle_none hsettle
    exact ⟨rfl, rfl⟩
  | some charge =>
    rw [hcharge] at hsettle
    obtain ⟨-, rfl⟩ := settle_some hsettle
    exact ⟨rfl, rfl⟩

/-- An operation that did not succeed has failed. -/
theorem operationFailed_of_not_ok {d : Deps} {v : Validated} {cap : Option Int}
    {ledger ledger' : Ledger} {op : Operated}
    (h : runOperation d v cap ledger = .ok op ledger') (hok : op.outcome.ok = false) :
    OperationFailed ledger op ledger' := by
  rcases runOperation_ok h with hfailed | ⟨_, _, hmoved⟩ | ⟨_, _, sent, _, hinvoked⟩
  · exact hfailed
  · rw [hmoved.ok] at hok
    cases hok
  · rw [hinvoked.operated] at hok
    have := hinvoked.ok.symm.trans hok
    cases this

/-- **Atomicity.**  A rejection changes nothing.  A transaction that was
accepted and failed has raised its source's sequence number, has taken exactly
the fee it reports from its payer, and has changed no other key. -/
theorem applyTransaction_atomic {d : Deps} (hfee : d.NoEventsNoFee)
    {ledger ledger' : Ledger} (hkeyed : ledger.store.Keyed) {envelope : TransactionEnvelope}
    {passphrase : String} {validation : ValidationOptions} {outcome : TxOutcome}
    (h : applyTransaction d envelope passphrase validation ledger = .ok outcome ledger') :
    (outcome.rejected = true →
      ledger'.env.store = ledger.env.store ∧ ledger'.env.ledgerSeq = ledger.env.ledgerSeq ∧
        ledger'.env.timestamp = ledger.env.timestamp) ∧
    (outcome.rejected = false → outcome.ok = false →
      ∃ raw payer, envelope.innerTx? = some raw ∧ envelope.feePayer? = some payer ∧
        (∀ key, key ≠ .account raw.sourceId → key ≠ .account payer →
          ledger'.env.store.lookup key = ledger.env.store.lookup key) ∧
        (∃ before after, ledger.env.store.seqNum? raw.sourceId = some before ∧
          ledger'.env.store.seqNum? raw.sourceId = some after ∧ before < after) ∧
        (validation.feeCharging = true →
          ∃ before, ledger.env.store.balance? payer = some before ∧
            ledger'.env.store.balance? payer = some (before - outcome.feeCharged)) ∧
        (validation.feeCharging = false → outcome.feeCharged = 0 ∧
          ledger'.env.store.balance? payer = ledger.env.store.balance? payer)) := by
  rcases applyTransaction_ok h with ⟨hrejected, rfl⟩ | ⟨haccepted, a, v, l₁, l₂, op, hstages⟩
  · refine ⟨fun _ => ⟨rfl, rfl, rfl⟩, fun hfalse => ?_⟩
    rw [hrejected] at hfalse
    cases hfalse
  refine ⟨fun htrue => ?_, fun _ hok => ?_⟩
  · rw [haccepted] at htrue
    cases htrue
  have henvelope := envelopeApplication_ok hstages.application
  obtain ⟨payer, hpayer, hcharge⟩ := henvelope.charge
  obtain ⟨c₁, c₂, hpassed⟩ := validate_ok hstages.validated
  obtain ⟨hokeq, hcharged, -⟩ := hstages.feeCharged
  -- The three stages, account by account.
  have hcommitted := commitClassic_effect hkeyed hstages.classic
  have hfailed := operationFailed_of_not_ok hstages.operated (hokeq.symm.trans hok)
  obtain ⟨cache, hframe⟩ := hfailed.frame
  have hsame : l₂.store = l₁.store := by rw [hframe]; rfl
  obtain ⟨inner, hsettle, -⟩ := hstages.settled
  have hsettled := settle_effect (hsame ▸ hcommitted.keyed) hsettle
  have hsource : ledger.store.account? a.raw.sourceId = some v.account :=
    loadSources_account hkeyed hpassed.sources
  refine ⟨a.raw, payer, henvelope.innerTx, hpayer, fun key hne₁ hne₂ => ?_, ?_, ?_, ?_⟩
  · have hpayerKey : ∀ charge, a.charge = some charge → key ≠ .account charge.payer := by
      intro charge heq
      rw [hcharge] at heq
      split at heq
      · cases heq
        exact hne₂
      · cases heq
    rw [← Ledger.store, hsettled.others key hpayerKey, hsame,
      hcommitted.others key hne₁ hpayerKey]
    rfl
  · refine ⟨v.account.seqNum, a.nextSeqNum v.account, ?_, ?_, lt_nextSeqNum hpassed.sequence⟩
    · rw [← Ledger.store, Store.seqNum?, hsource]
      rfl
    · rw [← Ledger.store, hsettled.seqNum, hsame, hcommitted.seqNum, if_pos rfl]
  · intro hcharging
    rw [if_pos hcharging] at hcharge
    have hpresent := hcommitted.payer _ hcharge
    obtain ⟨account, haccount⟩ := Option.isSome_iff_exists.mp hpresent
    have hrefund : 0 ≤ refundOf v op := by
      rw [refundOf, hfailed.refundable, sub_zero]
      exact maxRefundable_nonneg hfee hcharge hpassed.declaredFee
    refine ⟨account.balance, ?_, ?_⟩
    · rw [← Ledger.store, Store.balance?, haccount]
      rfl
    · rw [← Ledger.store, hsettled.balance, hsame, hcommitted.balance, Store.balance?, haccount,
        hcharged]
      simp only [Application.upfrontOf, Application.refundTo, hcharge, if_true,
        max_eq_right hrefund, Option.map_some]
      congr 1
      omega
  · intro hfree
    rw [hfree] at hcharge
    simp only [Bool.false_eq_true, if_false] at hcharge
    refine ⟨by rw [hcharged, hcharge], ?_⟩
    rw [← Ledger.store, ← Ledger.store, hsettled.balance, hsame, hcommitted.balance]
    simp only [Application.upfrontOf, Application.refundTo, hcharge, map_sub_zero, map_add_zero]

/-! ## One account, one envelope -/

/-- The fee settings of the concrete runs: everything is free, and every limit
is `limit`. -/
def sampleSettings (limit : Nat) : NetworkFeeSettings where
  feeRatePerInstructionsIncrement := 0
  txMaxInstructions := limit
  txMemoryLimit := limit
  feeDiskReadLedgerEntry := 0
  feeWriteLedgerEntry := 0
  feeDiskRead1kb := 0
  sorobanStateTargetSizeBytes := 0
  rentFee1kbSorobanStateSizeLow := 0
  rentFee1kbSorobanStateSizeHigh := 0
  sorobanStateRentFeeGrowthFactor := 0
  feeWrite1kb := 0
  feeHistorical1kb := 0
  txMaxContractEventsSizeBytes := limit
  feeContractEvents1kb := 0
  feeTxSize1kb := 0
  maxContractSizeBytes := limit
  maxContractDataEntrySizeBytes := limit
  persistentRentRateDenominator := 1
  tempRentRateDenominator := 1
  averageSorobanStateSize := 0
  txMaxDiskReadEntries := limit
  txMaxDiskReadBytes := limit
  txMaxWriteLedgerEntries := limit
  txMaxWriteBytes := limit
  txMaxFootprintEntries := limit
  txMaxSizeBytes := limit
  maxContractDataKeySizeBytes := limit

/-- The account of a key of one byte, repeated. -/
def sampleAccount (seed : UInt8) : AccountEntry where
  accountId := ⟨List.replicate 32 seed⟩
  balance := 100000000000
  seqNum := 0
  numSubEntries := 0
  inflationDest := none
  flags := 0
  homeDomain := []
  thresholds := ⟨1, 0, 0, 0⟩
  signers := []
  ext := .v0

/-- A ledger with nothing in it. -/
def emptyLedger : Ledger where
  env := { SorobanEnv.new 29 1000 with
    feeSettings := some (sampleSettings 1000).toNetworkFeeSettings }
  fees := sampleSettings 1000
  networkPassphrase := "Test SDF Network ; September 2015"

/-- A ledger with one account. -/
def sampleLedger (seed : UInt8) : Ledger := emptyLedger.withAccount (sampleAccount seed)

theorem sampleLedger_keyed (seed : UInt8) : (sampleLedger seed).store.Keyed :=
  @Ledger.withAccount_keyed emptyLedger Store.Keyed.empty _

/-- A signature of a sample key. -/
def sampleSignature (seed : UInt8) : DecoratedSignature :=
  ⟨List.replicate 4 seed, List.replicate 64 seed⟩

/-- An `ExtendFootprintTTL` over nothing, from one account, and possibly as
another. -/
def sampleEnvelope (seed : UInt8) (seqNum : Int) (opSeed : Option UInt8) : TransactionV1Envelope where
  tx :=
    { sourceAccount := .keyTypeEd25519 (List.replicate 32 seed)
      fee := 100
      seqNum := seqNum
      cond := .precondNone
      memo := .memoNone
      operations :=
        [⟨opSeed.map fun s => .keyTypeEd25519 (List.replicate 32 s), .extendFootprintTtl 100⟩]
      ext := .sorobanData ⟨.v0, ⟨⟨[], []⟩, 0, 0, 0⟩, 0⟩ }
  signatures := (seed :: opSeed.toList).map sampleSignature

/-- A fee bump over `sampleEnvelope`, paid from another account. -/
def sampleFeeBump (seed feeSeed : UInt8) (fee : Int) : FeeBumpTransactionEnvelope where
  tx :=
    { feeSource := .keyTypeEd25519 (List.replicate 32 feeSeed)
      fee := fee
      innerTx := sampleEnvelope seed 1 none }
  signatures := [sampleSignature feeSeed]

/-- The operation source does not exist, so the transaction fails after the
commit. -/
theorem applyTransaction_atomic_ghost :
    ∃ outcome ledger',
      applyTransaction .idle (.envelopeTypeTx (sampleEnvelope 7 1 (some 8))) "" {}
        (sampleLedger 7) = .ok outcome ledger' ∧
      outcome.opCode = some .opNO_ACCOUNT ∧
      ∃ before,
        (sampleLedger 7).env.store.balance? (sampleAccount 7).accountId = some before ∧
        ledger'.env.store.balance? (sampleAccount 7).accountId =
          some (before - outcome.feeCharged) := by
  have hfee : Deps.idle.NoEventsNoFee := fun _ _ _ => rfl
  obtain ⟨outcome, ledger', hrun, hrejected, hok, hop⟩ : ∃ outcome ledger',
      applyTransaction .idle (.envelopeTypeTx (sampleEnvelope 7 1 (some 8))) "" {}
        (sampleLedger 7) = .ok outcome ledger' ∧
      outcome.rejected = false ∧ outcome.ok = false ∧ outcome.opCode = some .opNO_ACCOUNT :=
    ⟨_, _, rfl, rfl, rfl, rfl⟩
  obtain ⟨_, _, -, hpayer, -, -, hbalance, -⟩ :=
    (applyTransaction_atomic hfee (sampleLedger_keyed 7) hrun).2 hrejected hok
  cases hpayer
  exact ⟨outcome, ledger', hrun, hop, hbalance rfl⟩

end LiteSoroban

import LiteSoroban.Classic.Outcome

/-!
# Preconditions and fees

What `src/classic.ts` checks of a transaction by itself: its extra signers,
its time and ledger bounds, its sequence number against the account's, and
the arithmetic of its fees.
-/

namespace LiteSoroban

/-! ## Preconditions -/

/-- `preconditionsV2`. -/
def preconditionsV2 (raw : Transaction) : Option PreconditionsV2 :=
  match raw.cond with
  | .precondV2 v2 => some v2
  | _ => none

/-- `timeBounds`: of `PRECOND_TIME`, or the optional ones of `PRECOND_V2`. -/
def timeBounds (raw : Transaction) : Option TimeBounds :=
  match raw.cond with
  | .precondTime timeBounds => some timeBounds
  | _ => (preconditionsV2 raw).bind (·.timeBounds)

/-- Whether a signer is a signed payload with nothing in it. -/
def SignerKey.hasEmptyPayload : SignerKey → Bool
  | .signerKeyTypeEd25519SignedPayload _ payload => payload.length == 0
  | _ => false

/-- `extraSignersMalformed`. -/
def extraSignersMalformed (raw : Transaction) : Option String :=
  let extra := ((preconditionsV2 raw).map (·.extraSigners)).getD []
  if extra.length = 2 ∧ extra[0]? = extra[1]? then
    some "the two PRECOND_V2 extraSigners are identical"
  else if extra.any SignerKey.hasEmptyPayload then
    some "a PRECOND_V2 ed25519SignedPayload extraSigner has an empty payload"
  else none

/-- `boundsProblem`: too early and then too late, each by time first and by
ledger second.  A zero bound means none, and `maxLedger` is exclusive. -/
def boundsProblem (ledger : Ledger) (raw : Transaction) : Option (TxResultCode × String) :=
  let now := ledger.timestamp
  let seq := ledger.ledgerSeq
  let minTime := ((timeBounds raw).map (·.minTime)).getD 0
  let maxTime := ((timeBounds raw).map (·.maxTime)).getD 0
  let bounds := (preconditionsV2 raw).bind (·.ledgerBounds)
  let minLedger := (bounds.map (·.minLedger)).getD 0
  let maxLedger := (bounds.map (·.maxLedger)).getD 0
  if minTime ≠ 0 ∧ minTime > now then
    some (.txTOO_EARLY, s!"minTime {minTime} is after the close time {now}")
  else if minLedger > seq then
    some (.txTOO_EARLY, s!"minLedger {minLedger} is after ledger {seq}")
  else if maxTime ≠ 0 ∧ maxTime < now then
    some (.txTOO_LATE, s!"maxTime {maxTime} is before the close time {now}")
  else if maxLedger ≠ 0 ∧ maxLedger ≤ seq then
    some (.txTOO_LATE, s!"maxLedger {maxLedger} is not after ledger {seq}")
  else none

/-- `badSequence`.  A `minSeqNum` relaxes the strict rule, also when it is
zero. -/
def badSequence (raw : Transaction) (currentSeq txSeq : Int) : Option String :=
  match (preconditionsV2 raw).bind (·.minSeqNum) with
  | some min =>
    if currentSeq < min ∨ currentSeq ≥ txSeq then
      some s!"minSeqNum {min} needs the account sequence {currentSeq} in [{min}, {txSeq})"
    else none
  | none =>
    let expected := currentSeq + 1
    if txSeq = expected then none
    else some s!"expected sequence {expected}, got {txSeq}"

/-- `tooEarlyForAccount`: the age and the ledger gap since the account's
sequence last moved. -/
def tooEarlyForAccount (ledger : Ledger) (raw : Transaction) (account : AccountEntry) :
    Option String :=
  let minSeqAge := ((preconditionsV2 raw).map (·.minSeqAge)).getD 0
  let minSeqLedgerGap := ((preconditionsV2 raw).map (·.minSeqLedgerGap)).getD 0
  let v3 := accountEntryExtensionV3 account
  let seqTime := (v3.map (·.seqTime)).getD 0
  let seqLedger := (v3.map (·.seqLedger)).getD 0
  let closeTime := ledger.timestamp
  let seq := ledger.ledgerSeq
  if minSeqAge > closeTime ∨ closeTime - minSeqAge < seqTime then
    some s!"minSeqAge {minSeqAge}: the sequence last moved at {seqTime}, close time is {closeTime}"
  else if minSeqLedgerGap > seq ∨ seq - minSeqLedgerGap < seqLedger then
    some s!"minSeqLedgerGap {minSeqLedgerGap}: the sequence last moved in ledger {seqLedger}, this is {seq}"
  else none

/-- A sequence number that passes is above the account's. -/
theorem lt_of_badSequence {raw : Transaction} {currentSeq txSeq : Int}
    (h : badSequence raw currentSeq txSeq = none) : currentSeq < txSeq := by
  simp only [badSequence] at h
  split at h
  · split at h
    · cases h
    · next hmin => omega
  · split at h
    · next heq => omega
    · cases h

/-! ## Fees -/

/-- `SOROBAN_OP_TYPES.has(..)`. -/
def OperationBody.isSoroban : OperationBody → Bool
  | .invokeHostFunction _ _ => true
  | .extendFootprintTtl _ => true
  | .restoreFootprint => true
  | .classic _ => false

/-- The Soroban data of a transaction, if it carries any. -/
def Transaction.sorobanData? (raw : Transaction) : Option SorobanTransactionData :=
  match raw.ext with
  | .v0 => none
  | .sorobanData data => some data

/-- `MAX_RESOURCE_FEE`. -/
def maxResourceFee : Int := 2 ^ 50

/-- `xdrProvidesValidFee`: a Soroban transaction, judged by its first
operation, carries Soroban data with a resource fee in range. -/
def xdrProvidesValidFee (raw : Transaction) : Option String :=
  match raw.operations.head? with
  | none => none
  | some first =>
    if !first.body.isSoroban then none
    else match raw.sorobanData? with
      | none => some "a Soroban transaction must carry SorobanTransactionData"
      | some data =>
        let resourceFee := data.resourceFee
        if resourceFee < 0 ∨ resourceFee > maxResourceFee then
          some s!"resource fee {resourceFee} outside [0, 2^50]"
        else none

/-- `declaredResourceFee`. -/
def declaredResourceFee (raw : Transaction) : Int :=
  match raw.sorobanData? with
  | some data => data.resourceFee
  | none => 0

/-- `negativeInclusionFee`. -/
def negativeInclusionFee (fullFee resourceFee : Int) : Option String :=
  let inclusionFee := fullFee - resourceFee
  if fullFee < 0 ∨ inclusionFee < 0 then
    some s!"inclusion fee {inclusionFee} is negative: resource fee {resourceFee} exceeds the full fee {fullFee}"
  else none

/-- The inclusion fee a ledger that is not surge pricing charges. -/
def minInclusion (operations : Nat) : Int := baseFee * max 1 operations

/-- `feeToCharge`: the declared resource fee and the inclusion fee, which is a
bid and is capped. -/
def feeToCharge (fullFee resourceFee : Int) (operations : Nat) : Int :=
  let inclusionFee := fullFee - resourceFee
  let cap := minInclusion operations
  resourceFee + (if inclusionFee < cap then inclusionFee else cap)

/-- `FeeCharge`: who pays, and what leaves the payer before the operation
runs. -/
structure FeeCharge where
  payer : AccountId
  upfront : Int

/-- `nominalFee`: what the result of a rejected envelope reports as charged. -/
def nominalFee : TransactionEnvelope → Option Int
  | .envelopeTypeTxV0 _ => none
  | .envelopeTypeTx v1 =>
    some (declaredResourceFee v1.tx + minInclusion v1.tx.operations.length)
  | .envelopeTypeTxFeeBump feeBump =>
    let raw := feeBump.tx.innerTx.tx
    some (declaredResourceFee raw + minInclusion (raw.operations.length + 1))

end LiteSoroban

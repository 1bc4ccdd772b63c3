import LiteSoroban.Classic.FootprintOps

/-!
# Applying a transaction

`applyTransaction` of `src/classic.ts` and the functions under it.

`applyInner` has two halves.  `validate` runs every check, in the order of
the source, and writes nothing: it either stops, with a rejection or an
exception, or it hands over what the second half needs.  `commit` then bumps
the sequence and debits the fee, runs the operation, and settles the refund.

The source keeps the two halves in one function.  The line between them is
the comment `commit the classic side, then run the host`.
-/

namespace LiteSoroban

/-- The arguments of `applyInner`: the transaction with its signatures and its
hash, whether a fee bump wraps it, the switches, the size it is priced on, and
who pays. -/
structure Application where
  raw : Transaction
  signatures : List DecoratedSignature
  hash : Hash
  feeBumped : Bool
  validation : ValidationOptions
  txSize : Nat
  charge : Option FeeCharge

/-! ## The checks before the source account is loaded -/

/-- The one operation of a transaction, and its Soroban data. -/
structure Shaped where
  op : Operation
  sorobanData : SorobanTransactionData

def OperationBody.isRestore : OperationBody → Bool
  | .restoreFootprint => true
  | _ => false

def OperationBody.isInvoke : OperationBody → Bool
  | .invokeHostFunction _ _ => true
  | _ => false

/-- Whether the memo or a muxed source bars an `InvokeHostFunction`. -/
def hasMemoOrMuxed (raw : Transaction) (op : Operation) : Bool :=
  raw.memo != .memoNone || isMuxed raw.sourceAccount || op.sourceAccount.any isMuxed

/-- The envelope's shape: one Soroban operation, with its data. -/
def checkShape (raw : Transaction) : Check Shaped := do
  Check.problem .txMALFORMED (extraSignersMalformed raw)
  match raw.operations with
  | [] => .error (.reject (fail .txMISSING_OPERATION none 0))
  | op :: rest => do
    let sorobanOps := (op :: rest).filter (·.body.isSoroban)
    Check.problem .txMALFORMED <|
      if sorobanOps.length = 0 then some "classic operations are out of scope for this harness"
      else if sorobanOps.length ≠ (op :: rest).length ∨ (op :: rest).length ≠ 1 then
        some "a Soroban transaction must contain exactly one operation"
      else none
    Check.problem .txSOROBAN_INVALID <|
      if op.body.isInvoke && hasMemoOrMuxed raw op then
        some "Soroban transactions are not allowed to use memo or muxed source account"
      else none
    match raw.sorobanData? with
    | none => Check.reject .txSOROBAN_INVALID "missing SorobanTransactionData"
    | some sorobanData => return ⟨op, sorobanData⟩

/-- The declared resource fee against what the declared resources cost.
Returns the non-refundable part, which is 0 while fees are not charged. -/
def checkDeclaredFee (d : Deps) (ledger : Ledger) (a : Application) (s : Shaped) : Check Int :=
  match a.charge with
  | none => .ok 0
  | some _ => do
    let (nonRefundable, refundable) ← Check.ofExcept <|
      ledger.computeResourceFee d s.sorobanData a.txSize 0 s.op.body.isRestore
    let resourceFee := s.sorobanData.resourceFee
    let actual := nonRefundable + refundable
    Check.problem .txSOROBAN_INVALID <|
      if resourceFee < actual then
        some ("transaction `sorobanData.resourceFee` is lower than the actual Soroban resource fee: "
          ++ s!"{resourceFee} < {actual}")
      else none
    return nonRefundable

/-- `isTooEarly` and `isTooLate`. -/
def checkBounds (ledger : Ledger) (a : Application) : Check Unit :=
  if a.validation.timebounds then
    match boundsProblem ledger a.raw with
    | some (code, detail) => Check.reject code detail
    | none => .ok ()
  else .ok ()

/-! ## The checks against the accounts -/

/-- The transaction source, and the account the operation runs as.  An
operation may name a source that does not exist. -/
structure Sources where
  account : AccountEntry
  invokerId : AccountId
  opAccount : Option AccountEntry

/-- The id of the transaction source. -/
def Transaction.sourceId (raw : Transaction) : AccountId := muxedToAccountId raw.sourceAccount

def loadSources (ledger : Ledger) (raw : Transaction) (op : Operation) : Check Sources := do
  match ← Check.ofExcept (loadAccount ledger raw.sourceId) with
  | none => Check.reject .txNO_ACCOUNT "source account does not exist"
  | some account =>
    match op.sourceAccount with
    | none => return ⟨account, raw.sourceId, some account⟩
    | some opSource => do
      let opAccount ← Check.ofExcept (loadAccount ledger (muxedToAccountId opSource))
      return ⟨account, muxedToAccountId opSource, opAccount⟩

/-- The sequence number.  The first rule holds with the check switched off:
no transaction may use the number `CreateAccount` would hand out now. -/
def checkSequence (ledger : Ledger) (a : Application) (account : AccountEntry) : Check Unit := do
  Check.problem .txBAD_SEQ <|
    if a.raw.seqNum = ledger.ledgerSeq * 2 ^ 32 then
      some "sequence equals getStartingSequenceNumber(currentLedger)"
    else none
  Check.problem .txBAD_SEQ <|
    if a.validation.sequenceCheck then badSequence a.raw account.seqNum a.raw.seqNum else none

/-- `minSeqAge` and `minSeqLedgerGap`. -/
def checkAge (ledger : Ledger) (a : Application) (account : AccountEntry) : Check Unit :=
  Check.problem .txBAD_MIN_SEQ_AGE_OR_GAP <|
    if a.validation.timebounds then tooEarlyForAccount ledger a.raw account else none

/-- Signatures, part 1: the transaction source at its low threshold, and the
extra signers. -/
def signTransaction (d : Deps) (raw : Transaction) (account : AccountEntry) :
    Option SignatureChecker → Check (Option SignatureChecker)
  | none => .ok none
  | some checker => do
    let low := account.thresholds.low
    let source := d.encodeEd25519PublicKey account.accountId.ed25519
    let (signed, checker) := checker.checkSignature d (accountSigners account) low.toNat
    Check.problem .txBAD_AUTH <|
      if signed then none
      else some s!"transaction source signatures do not satisfy low threshold {low} for {source}"
    let (extraSigned, checker) := checkExtraSigners d checker raw
    Check.problem .txBAD_AUTH <|
      if extraSigned then none else some "not every PRECOND_V2 extraSigner signed"
    return some checker

/-- The inclusion fee, and the payer's balance.  A fee bump has checked both
for itself. -/
def checkFees (ledger : Ledger) (a : Application) (s : Shaped) : Check Unit := do
  let totalFee : Int := a.raw.fee
  let inclusionFee := totalFee - s.sorobanData.resourceFee
  let base := baseFee
  Check.problem .txINSUFFICIENT_FEE <|
    if !a.feeBumped && inclusionFee < base then
      some s!"inclusion fee {inclusionFee} below {base}"
    else none
  match a.charge with
  | none => return ()
  | some charge =>
    if a.feeBumped then return ()
    else do
      let payerAccount ← Check.ofExcept (loadAccount! ledger charge.payer)
      Check.problem .txINSUFFICIENT_BALANCE <|
        if availableBalance payerAccount < totalFee then some "source cannot cover the fee"
        else none

/-- The operation's threshold: medium for `InvokeHostFunction`, low for the
footprint operations. -/
def OperationBody.threshold (body : OperationBody) (thresholds : Thresholds) : UInt8 :=
  if body.isInvoke then thresholds.medium else thresholds.low

def OperationBody.thresholdName (body : OperationBody) : String :=
  if body.isInvoke then "medium" else "low"

/-- The signers and the weight the operation's check asks for.  An account
that does not exist signs with its own key, and any match will do. -/
def operationSigners (op : Operation) (src : Sources) : List WeightedSigner × Nat :=
  match src.opAccount with
  | some opAccount =>
    (accountSigners opAccount, (op.body.threshold opAccount.thresholds).toNat)
  | none => ([⟨.signerKeyTypeEd25519 src.invokerId.ed25519, 1⟩], 0)

/-- Signatures, part 2: the operation source at the operation's threshold. -/
def signOperation (d : Deps) (op : Operation) (src : Sources) :
    Option SignatureChecker → Check (Option SignatureChecker)
  | none => .ok none
  | some checker =>
    let (signers, neededWeight) := operationSigners op src
    let (signed, checker) := checker.checkSignature d signers neededWeight
    if signed then .ok (some checker)
    else
      let level := op.body.thresholdName
      let source := d.encodeEd25519PublicKey src.invokerId.ed25519
      let detail :=
        s!"operation source signatures do not satisfy its {level} threshold for {source} (opBAD_AUTH)"
      .error (.reject { fail .txFAILED (some detail) 0 with opCode := some .opBAD_AUTH })

/-- The shape of a footprint operation. -/
def checkFootprintOp (ledger : Ledger) (s : Shaped) : Check Unit :=
  match footprintOpMalformed ledger s.op s.sorobanData with
  | none => .ok ()
  | some (code, detail) =>
    .error (.reject { fail .txFAILED (some detail) 0 with footprintOpResult := some code })

/-- `checkAllSignaturesUsed`. -/
def checkAllUsed (detail : String) : Option SignatureChecker → Check Unit
  | none => .ok ()
  | some checker =>
    Check.problem .txBAD_AUTH_EXTRA <|
      if checker.checkAllSignaturesUsed then none else some detail

/-- What the checks hand over to the commit. -/
structure Validated extends Shaped, Sources where
  nonRefundable : Int

/-- Every check of `applyInner`, in its order. -/
def validate (d : Deps) (ledger : Ledger) (a : Application) : Check Validated := do
  let s ← checkShape a.raw
  Check.problem .txSOROBAN_INVALID <|
    sorobanResourcesProblem d ledger.fees s.sorobanData a.txSize s.op.body.isRestore
  let nonRefundable ← checkDeclaredFee d ledger a s
  checkBounds ledger a
  let src ← loadSources ledger a.raw s.op
  checkSequence ledger a src.account
  checkAge ledger a src.account
  let checker := if a.validation.sigverify then some (SignatureChecker.new a.signatures a.hash)
    else none
  let checker ← signTransaction d a.raw src.account checker
  checkFees ledger a s
  let checker ← signOperation d s.op src checker
  checkFootprintOp ledger s
  checkAllUsed "the envelope carries a signature no check consumed" checker
  return { s, src with nonRefundable := nonRefundable }

/-! ## The commit -/

/-- The most rent and events may cost. -/
def Validated.maxRefundable (v : Validated) : Int :=
  v.sorobanData.resourceFee - v.nonRefundable

/-- The sequence number the source is left with. -/
def Application.nextSeqNum (a : Application) (account : AccountEntry) : Int :=
  if a.validation.sequenceCheck then a.raw.seqNum else account.seqNum + 1

/-- The sequence bump and the debit, before the operation runs. -/
def commitClassic (d : Deps) (a : Application) (v : Validated) : LedgerM Unit := do
  bumpSequence d a.raw.sourceId (a.nextSeqNum v.account)
  match a.charge with
  | some charge => debit d charge.payer charge.upfront
  | none => pure ()

/-- What an operation leaves to settle: its outcome, but for the fee, and what
it consumed. -/
structure Operated where
  outcome : TxOutcome
  refundable : Int
  rent : Int

/-- A failed operation consumes nothing. -/
def Operated.failed (outcome : TxOutcome) : Operated := ⟨outcome, 0, 0⟩

def opNoAccount : Operated :=
  .failed
    { code := .txFAILED
      ok := false
      feeCharged := 0
      opCode := some .opNO_ACCOUNT
      detail := some "operation source account does not exist (opNO_ACCOUNT)" }

/-- The result arms of one of the footprint operations. -/
structure FootprintArms where
  success : FootprintOpResult
  overLimit : FootprintOpResult
  short : FootprintOpResult

def extendArms : FootprintArms where
  success := .extendFootprintTtlSuccess
  overLimit := .extendFootprintTtlResourceLimitExceeded
  short := .extendFootprintTtlInsufficientRefundableFee

def restoreArms : FootprintArms where
  success := .restoreFootprintSuccess
  overLimit := .restoreFootprintResourceLimitExceeded
  short := .restoreFootprintInsufficientRefundableFee

/-- What a footprint operation leaves to settle. -/
def footprintOperated (arms : FootprintArms) (applied : FootprintOpApplied) : Operated :=
  match applied.overLimit, applied.short with
  | some detail, _ => .failed
      { code := .txFAILED
        ok := false
        feeCharged := 0
        footprintOpResult := some arms.overLimit
        detail := some detail }
  | none, some detail => .failed
      { code := .txFAILED
        ok := false
        feeCharged := 0
        footprintOpResult := some arms.short
        detail := some detail }
  | none, none =>
    -- No events, so the refundable fee consumed is the rent alone.
    { outcome :=
        { code := .txSUCCESS
          ok := true
          feeCharged := 0
          footprintOpResult := some arms.success
          changedKeys := some applied.changed }
      refundable := applied.rent
      rent := applied.rent }

/-- What a host call leaves to settle. -/
def invokeOperated (sent : SendResult) : Operated where
  outcome :=
    { code := if sent.ok then .txSUCCESS else .txFAILED
      ok := sent.ok
      feeCharged := 0
      returnValue := sent.returnValue
      events := some sent.events
      changedKeys := some sent.changedKeys
      removedKeys := some sent.removedKeys
      invokeResult := if sent.ok then none else sent.resultCode
      error := sent.error
      detail := sent.detail
      diagnosticEvents := some sent.diagnosticEvents }
  refundable := if sent.ok then sent.refundableFeeConsumed else 0
  rent := if sent.ok then sent.rentFee else 0

/-- The arguments `applyInner` gives `send`.  The list of restored indexes is
empty, whatever the envelope declares. -/
def invokeArgs (v : Validated) (hostFunction : HostFunction)
    (auth : List SorobanAuthorizationEntry) (refundableCap : Option Int) : SendArgs where
  hostFunction := hostFunction
  source := v.invokerId
  resources := v.sorobanData.resources
  auth := auth
  restoredRwEntryIndices := []
  maxRefundableFee := refundableCap

/-- The operation.  The checks let no classic operation through. -/
def runOperation (d : Deps) (v : Validated) (refundableCap : Option Int) : LedgerM Operated :=
  match v.opAccount with
  | none => pure opNoAccount
  | some _ =>
    match v.op.body with
    | .extendFootprintTtl extendTo => do
      let applied ← applyExtendFootprintTtl d extendTo v.sorobanData refundableCap
      return footprintOperated extendArms applied
    | .restoreFootprint => do
      let applied ← applyRestoreFootprint d v.sorobanData refundableCap
      return footprintOperated restoreArms applied
    | .invokeHostFunction hostFunction auth => do
      let sent ← Ledger.send d (invokeArgs v hostFunction auth refundableCap)
      return invokeOperated sent
    | .classic _ => throw ⟨"expected the invokeHostFunction arm"⟩

/-- A refund goes back to the payer when there is one. -/
def giveBack (d : Deps) (payer : AccountId) (refund : Int) : LedgerM Unit :=
  if refund > 0 then debit d payer (-refund) else pure ()

/-- `settle`: the payer gets back the refundable fee the operation did not
consume. -/
def settle (d : Deps) (v : Validated) (charge : Option FeeCharge) (op : Operated) :
    LedgerM TxOutcome :=
  match charge with
  | none => return { op.outcome with feeCharged := 0 }
  | some charge => do
    let refund := v.maxRefundable - op.refundable
    giveBack d charge.payer refund
    return { op.outcome with
      feeCharged := charge.upfront - refund
      sorobanFee := some ⟨v.nonRefundable, op.refundable, op.rent⟩ }

/-- The second half of `applyInner`. -/
def commit (d : Deps) (a : Application) (v : Validated) : LedgerM TxOutcome := do
  commitClassic d a v
  let op ← runOperation d v (a.charge.map fun _ => v.maxRefundable)
  settle d v a.charge op

/-- `applyInner`. -/
def applyInner (d : Deps) (a : Application) : LedgerM TxOutcome := fun ledger =>
  match validate d ledger a with
  | .error (.reject outcome) => .ok outcome ledger
  | .error (.throws e) => .error e ledger
  | .ok v => commit d a v ledger

/-! ## Envelopes -/

/-- The size of the envelope a v1 transaction travels in: the union's tag and
its v1 arm. -/
def v1EnvelopeSize (d : Deps) (v1 : TransactionV1Envelope) : Nat := d.envelopeSize v1 + 4

/-- The checks of `applyEnvelope` on a plain v1 envelope. -/
def plainApplication (d : Deps) (passphrase : String) (validation : ValidationOptions)
    (v1 : TransactionV1Envelope) : Check Application := do
  Check.ofExcept (d.newTransaction v1)
  let raw := v1.tx
  match xdrProvidesValidFee raw with
  | some badFee => .error (.reject (malformed badFee))
  | none =>
    match negativeInclusionFee raw.fee (declaredResourceFee raw) with
    | some queueFee => .error (.reject (malformed queueFee))
    | none =>
      return {
        raw := raw
        signatures := v1.signatures
        hash := d.transactionHash passphrase raw
        feeBumped := false
        validation := validation
        txSize := v1EnvelopeSize d v1
        charge :=
          if validation.feeCharging then
            some ⟨raw.sourceId, feeToCharge raw.fee (declaredResourceFee raw) raw.operations.length⟩
          else none }

/-- The fees of a fee bump: the inclusion fee covers one operation more than
the inner transaction's, and raises its rate. -/
def checkBumpFees (fb : FeeBumpTransaction) : Check Unit := do
  let innerRaw := fb.innerTx.tx
  let resourceFee := declaredResourceFee innerRaw
  let innerOps := innerRaw.operations.length
  let inclusionFee := fb.fee - resourceFee
  let needed := minInclusion (innerOps + 1)
  match negativeInclusionFee fb.fee resourceFee with
  | some queueFee => .error (.reject (malformed queueFee))
  | none => do
    Check.problem .txINSUFFICIENT_FEE <|
      if inclusionFee < needed then
        some s!"fee bump inclusion fee {inclusionFee} below baseFee * (innerOps + 1) = {needed}"
      else none
    let innerInclusion := innerRaw.fee - resourceFee
    let v1 := inclusionFee * minInclusion innerOps
    let v2 := innerInclusion * needed
    if 0 ≤ innerInclusion ∧ v1 < v2 then
      .error (.reject (fail .txINSUFFICIENT_FEE
        (some "the fee bump does not raise the per-operation inclusion fee")
        ((v2 + minInclusion innerOps - 1) / minInclusion innerOps)))
    else return ()

/-- The fee source signs at its low threshold, with the outer signatures. -/
def signFeeBump (d : Deps) (feeAccount : AccountEntry) :
    Option SignatureChecker → Check (Option SignatureChecker)
  | none => .ok none
  | some checker => do
    let (signed, checker) := checker.checkSignature d (accountSigners feeAccount)
      feeAccount.thresholds.low.toNat
    Check.problem .txBAD_AUTH <|
      if signed then none
      else some "fee bump signatures do not satisfy the fee source low threshold"
    return some checker

/-- The checks of `applyFeeBump`, up to the inner transaction's own. -/
def feeBumpApplication (d : Deps) (ledger : Ledger) (passphrase : String)
    (validation : ValidationOptions) (feeBump : FeeBumpTransactionEnvelope) :
    Check Application := do
  let fb := feeBump.tx
  let innerRaw := fb.innerTx.tx
  Check.ofExcept (d.newFeeBumpTransaction feeBump)
  Check.ofExcept (d.newTransaction fb.innerTx)
  if fb.fee < 0 then .error (.reject (malformed "negative fee bump fee"))
  else match xdrProvidesValidFee innerRaw with
  | some badInnerFee => .error (.reject (malformed ("inner transaction: " ++ badInnerFee)))
  | none => do
    checkBumpFees fb
    let feeSourceId := muxedToAccountId fb.feeSource
    match ← Check.ofExcept (loadAccount ledger feeSourceId) with
    | none => Check.reject .txNO_ACCOUNT "fee source account does not exist"
    | some feeAccount => do
      let checker :=
        if validation.sigverify then
          some (SignatureChecker.new feeBump.signatures (d.feeBumpTransactionHash passphrase fb))
        else none
      let checker ← signFeeBump d feeAccount checker
      Check.problem .txINSUFFICIENT_BALANCE <|
        if validation.feeCharging && availableBalance feeAccount < fb.fee then
          some "fee source cannot cover the fee bump"
        else none
      checkAllUsed "the fee bump envelope carries a signature no check consumed" checker
      return {
        raw := innerRaw
        signatures := fb.innerTx.signatures
        hash := d.transactionHash passphrase innerRaw
        feeBumped := true
        validation := validation
        txSize := v1EnvelopeSize d fb.innerTx
        charge :=
          if validation.feeCharging then
            some ⟨feeSourceId, feeToCharge fb.fee (declaredResourceFee innerRaw)
              (innerRaw.operations.length + 1)⟩
          else none }

/-- The outcome of a fee bump, from the inner transaction's. -/
def bumpOutcome (inner : TxOutcome) : TxOutcome :=
  if inner.rejected then
    { inner with
      code := .txFEE_BUMP_INNER_FAILED
      innerCode := some inner.code
      feeCharged := 0 }
  else
    { inner with
      code := if inner.ok then .txFEE_BUMP_INNER_SUCCESS else .txFEE_BUMP_INNER_FAILED
      innerCode := some inner.code }

/-- The checks of an envelope, up to the inner transaction's own. -/
def envelopeApplication (d : Deps) (ledger : Ledger) (envelope : TransactionEnvelope)
    (passphrase : String) (validation : ValidationOptions) : Check Application :=
  match envelope with
  | .envelopeTypeTxV0 _ =>
    .error (.reject (malformed "only v1 and fee-bump envelopes are supported"))
  | .envelopeTypeTx v1 => plainApplication d passphrase validation v1
  | .envelopeTypeTxFeeBump feeBump => feeBumpApplication d ledger passphrase validation feeBump

/-- `applyEnvelope`, with `applyFeeBump` as its fee-bump arm. -/
def applyEnvelope (d : Deps) (envelope : TransactionEnvelope) (passphrase : String)
    (validation : ValidationOptions) : LedgerM TxOutcome := fun ledger =>
  match envelopeApplication d ledger envelope passphrase validation with
  | .error (.reject outcome) => .ok outcome ledger
  | .error (.throws e) => .error e ledger
  | .ok a =>
    match applyInner d a ledger with
    | .error e ledger' => .error e ledger'
    | .ok inner ledger' => .ok (if a.feeBumped then bumpOutcome inner else inner) ledger'

/-- The nominal fee a rejection reports, unless it already has one or was made
before a result was seeded. -/
def seedFee (envelope : TransactionEnvelope) (outcome : TxOutcome) : TxOutcome :=
  if outcome.rejected && !outcome.unseeded && outcome.feeCharged == 0 then
    { outcome with feeCharged := (nominalFee envelope).getD 0 }
  else outcome

/-- `applyTransaction`. -/
def applyTransaction (d : Deps) (envelope : TransactionEnvelope) (passphrase : String)
    (validation : ValidationOptions) : LedgerM TxOutcome := fun ledger =>
  match applyEnvelope d envelope passphrase validation ledger with
  | .error e ledger' => .error e ledger'
  | .ok outcome ledger' => .ok (seedFee envelope outcome) ledger'

end LiteSoroban

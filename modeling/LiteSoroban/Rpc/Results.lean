import LiteSoroban.Rpc.FacadeSpec

/-!
# Results

`TransactionResult` is a union of unions: the arm of the transaction, in some
arms a list with one result for each operation, and in a fee bump's the arm of
the transaction inside.  The facade builds it from a flat `TxOutcome`, arm by
arm and by name, and an SDK that is given the wrong arm throws or reads the
result of another operation.

`transactionResult_answers` says that the union always fits the envelope.  It
has operation results exactly in the two arms that carry them, one for each
operation and of its type, and an arm says success exactly when its operations
do.  Only a fee bump's result has a transaction inside, and it names the right
one.
-/

namespace LiteSoroban

open Effect

/-! ## What a result has to be -/

/-- An arm of `ExtendFootprintTtlResult`.  The others are of
`RestoreFootprintResult`. -/
def FootprintOpResult.isExtend : FootprintOpResult → Bool
  | .extendFootprintTtlSuccess => true
  | .extendFootprintTtlMalformed => true
  | .extendFootprintTtlResourceLimitExceeded => true
  | .extendFootprintTtlInsufficientRefundableFee => true
  | _ => false

/-- A result of the operation's own type, or one that any operation can
have. -/
def OperationResult.Answers (body : OperationBody) : OperationResult → Prop
  | .opBadAuth => True
  | .opNoAccount => True
  | .footprint result =>
    match body with
    | .extendFootprintTtl _ => result.isExtend = true
    | .restoreFootprint => result.isExtend = false
    | _ => False
  | .invokeHostFunctionSuccess _ => body.isInvoke = true
  | .invokeHostFunctionFailed _ => body.isInvoke = true

/-- The operation succeeded. -/
def OperationResult.succeeded : OperationResult → Bool
  | .footprint .extendFootprintTtlSuccess => true
  | .footprint .restoreFootprintSuccess => true
  | .invokeHostFunctionSuccess _ => true
  | _ => false

/-- An arm for a transaction.  It is none of the fee bump's, and it has a result
for each operation in the two arms that carry them, and only there. -/
structure ResultArm.Answers (tx : Transaction) (arm : ResultArm) : Prop where
  code : arm.code.isFeeBump = false
  carries : arm.operations.isSome = true ↔ arm.code = .txSUCCESS ∨ arm.code = .txFAILED
  each : ∀ results, arm.operations = some results →
    List.Forall₂ (fun op result =>
      OperationResult.Answers op.body result ∧
        (result.succeeded = true ↔ arm.code = .txSUCCESS)) tx.operations results

/-- A result that refuses the envelope, with one of the codes `sendTransaction`
answers `ERROR` on. -/
structure TransactionResult.Refuses (result : TransactionResult) : Prop where
  code : result.code ∈ Rpc.rejectedAtSubmit
  operations : result.operations = none
  inner : result.inner = none

/-- A result for an envelope, whose inner transaction has the hash `innerHash`. -/
def TransactionResult.Answers (innerHash : Hash) (result : TransactionResult) :
    TransactionEnvelope → Prop
  | .envelopeTypeTxV0 _ => result.Refuses
  | .envelopeTypeTx v1 =>
    result.inner = none ∧ ResultArm.Answers v1.tx ⟨result.code, result.operations⟩
  | .envelopeTypeTxFeeBump feeBump =>
    result.Refuses ∨ ∃ arm, result.inner = some (innerHash, arm) ∧
      ResultArm.Answers feeBump.tx.innerTx.tx arm ∧ result.operations = none ∧
      result.code =
        if arm.code = .txSUCCESS then .txFEE_BUMP_INNER_SUCCESS else .txFEE_BUMP_INNER_FAILED

def TransactionResult.succeeded (result : TransactionResult) : Bool :=
  result.code = .txSUCCESS || result.code = .txFEE_BUMP_INNER_SUCCESS

/-! ## Outcomes -/

/-- What the outcome of a transaction says of its one operation. -/
structure TxOutcome.Fits (body : OperationBody) (outcome : TxOutcome) : Prop where
  code : outcome.code = if outcome.ok then .txSUCCESS else .txFAILED
  result : ∀ d, ∃ result, operationResults d outcome = [result] ∧ result.Answers body ∧
    result.succeeded = outcome.ok

/-- An outcome for a transaction: the result of its operation, or a code the
transaction is refused with. -/
inductive TxOutcome.IsOf (tx : Transaction) (outcome : TxOutcome) : Prop
  | ran (op : Operation) (hops : tx.operations = [op]) (hfits : outcome.Fits op.body)
  | refused (hcode : outcome.code ∈ Rpc.rejectedAtSubmit) (hok : outcome.ok = false)

/-- A code that refuses is not one of the arms with operation results, nor a
fee bump's. -/
theorem not_refused_code {code : TxResultCode} (hcode : code ∈ Rpc.rejectedAtSubmit) :
    code ≠ .txSUCCESS ∧ code ≠ .txFAILED ∧ code.isFeeBump = false := by
  revert hcode
  cases code <;> decide

theorem resultArm_refused (d : Deps) {code : TxResultCode} (hcode : code ∈ Rpc.rejectedAtSubmit)
    (outcome : TxOutcome) : resultArm d code outcome = ⟨code, none⟩ := by
  obtain ⟨hsuccess, hfailed, -⟩ := not_refused_code hcode
  unfold resultArm
  split
  · exact absurd rfl hsuccess
  · exact absurd rfl hfailed
  · rfl

theorem TxOutcome.Rejection.isOf {codes : List TxResultCode} {opCode : Option OpCode}
    {outcome : TxOutcome} (h : outcome.Rejection codes opCode)
    (hcodes : ∀ code ∈ codes, code ∈ Rpc.rejectedAtSubmit) (tx : Transaction) :
    outcome.IsOf tx :=
  .refused (hcodes _ h.code) h.ok

/-- An outcome says success by its code. -/
theorem TxOutcome.IsOf.code_eq_success {tx : Transaction} {outcome : TxOutcome}
    (h : outcome.IsOf tx) : outcome.code = .txSUCCESS ↔ outcome.ok = true := by
  cases h with
  | ran op hops hfits =>
    rw [hfits.code]
    cases outcome.ok <;> simp
  | refused hcode hok => simp [hok, (not_refused_code hcode).1]

/-- The code of an outcome is none of the fee bump's. -/
theorem TxOutcome.IsOf.not_feeBump {tx : Transaction} {outcome : TxOutcome}
    (h : outcome.IsOf tx) : outcome.code.isFeeBump = false := by
  cases h with
  | ran op hops hfits =>
    rw [hfits.code]
    cases outcome.ok <;> rfl
  | refused hcode hok => exact (not_refused_code hcode).2.2

/-- The arm of an outcome fits its transaction. -/
theorem TxOutcome.IsOf.arm {tx : Transaction} {outcome : TxOutcome} (h : outcome.IsOf tx)
    (d : Deps) : ResultArm.Answers tx (resultArm d outcome.code outcome) := by
  refine ⟨h.not_feeBump, ?_, ?_⟩
  · show (resultArm d outcome.code outcome).operations.isSome = true ↔
      outcome.code = .txSUCCESS ∨ outcome.code = .txFAILED
    cases outcome.code <;> simp [resultArm]
  · intro results hresults
    cases h with
    | ran op hops hfits =>
      obtain ⟨result, hresult, hanswers, hsucceeded⟩ := hfits.result d
      have hsame : results = [result] := by
        have hcode := hfits.code
        cases hok : outcome.ok with
        | true =>
          rw [hok, if_pos rfl] at hcode
          rw [hcode] at hresults
          exact (Option.some.inj hresults).symm.trans hresult
        | false =>
          rw [hok, if_neg (by decide)] at hcode
          rw [hcode] at hresults
          exact (Option.some.inj hresults).symm.trans hresult
      rw [hsame, hops]
      refine .cons ⟨hanswers, ?_⟩ .nil
      show result.succeeded = true ↔ outcome.code = .txSUCCESS
      rw [hsucceeded, (TxOutcome.IsOf.ran op hops hfits).code_eq_success]
    | refused hcode hok =>
      rw [resultArm_refused d hcode] at hresults
      cases hresults

/-! ## The operation -/

theorem opNoAccount_fits (body : OperationBody) : opNoAccount.outcome.Fits body :=
  ⟨rfl, fun _ => ⟨.opNoAccount, rfl, trivial, rfl⟩⟩

/-- The result arms of the operation. -/
structure FootprintArms.Answers (body : OperationBody) (arms : FootprintArms) : Prop where
  success : OperationResult.Answers body (.footprint arms.success)
  overLimit : OperationResult.Answers body (.footprint arms.overLimit)
  short : OperationResult.Answers body (.footprint arms.short)
  succeeded : OperationResult.succeeded (.footprint arms.success) = true
  overLimitFails : OperationResult.succeeded (.footprint arms.overLimit) = false
  shortFails : OperationResult.succeeded (.footprint arms.short) = false

theorem extendArms_answers (extendTo : Nat) :
    extendArms.Answers (.extendFootprintTtl extendTo) :=
  ⟨rfl, rfl, rfl, rfl, rfl, rfl⟩

theorem restoreArms_answers : restoreArms.Answers .restoreFootprint :=
  ⟨rfl, rfl, rfl, rfl, rfl, rfl⟩

theorem FootprintArms.Answers.fits {body : OperationBody} {arms : FootprintArms}
    (h : arms.Answers body) (applied : FootprintOpApplied) :
    (footprintOperated arms applied).outcome.Fits body := by
  unfold footprintOperated
  split
  · exact ⟨rfl, fun _ => ⟨_, rfl, h.overLimit, h.overLimitFails⟩⟩
  · exact ⟨rfl, fun _ => ⟨_, rfl, h.short, h.shortFails⟩⟩
  · exact ⟨rfl, fun _ => ⟨_, rfl, h.success, h.succeeded⟩⟩

/-- The hash of a return value, in the result of a call that succeeded. -/
def TxOutcome.returned (d : Deps) (outcome : TxOutcome) : Hash :=
  match outcome.returnValue with
  | some value => d.sha256 ((value.decoded.map (·.xdr)).getD [])
  | none => List.replicate 32 0

/-- The result of a host call. -/
theorem operationResults_invoke (d : Deps) {outcome : TxOutcome} (hop : outcome.opCode = none)
    (hfootprint : outcome.footprintOpResult = none) :
    operationResults d outcome =
      [if outcome.ok then .invokeHostFunctionSuccess (outcome.returned d)
        else .invokeHostFunctionFailed (outcome.invokeResult.getD .invokeHostFunctionTrapped)] := by
  unfold operationResults
  rw [hop, hfootprint]
  cases outcome.ok <;> rfl

theorem invokeOperated_fits (hostFunction : HostFunction) (auth : List SorobanAuthorizationEntry)
    (sent : SendResult) :
    (invokeOperated sent).outcome.Fits (.invokeHostFunction hostFunction auth) := by
  refine ⟨rfl, fun d => ⟨_, operationResults_invoke d rfl rfl, ?_, ?_⟩⟩
  · split <;> rfl
  · show OperationResult.succeeded (if sent.ok = true then _ else _) = sent.ok
    cases sent.ok <;> rfl

/-- What an operation leaves to settle fits it. -/
theorem runOperation_fits {d : Deps} {v : Validated} {cap : Option Int} {ledger ledger' : Ledger}
    {op : Operated} (h : runOperation d v cap ledger = .ok op ledger') :
    op.outcome.Fits v.op.body := by
  cases hop : v.opAccount with
  | none =>
    simp only [runOperation, hop, pure_eq_ok] at h
    rw [← h.1]
    exact opNoAccount_fits _
  | some opAccount =>
    cases hbody : v.op.body with
    | extendFootprintTtl extendTo =>
      simp only [runOperation, hop, hbody, bind_eq_ok, pure_eq_ok] at h
      obtain ⟨applied, _, -, rfl, -⟩ := h
      exact (extendArms_answers extendTo).fits applied
    | restoreFootprint =>
      simp only [runOperation, hop, hbody, bind_eq_ok, pure_eq_ok] at h
      obtain ⟨applied, _, -, rfl, -⟩ := h
      exact restoreArms_answers.fits applied
    | invokeHostFunction hostFunction auth =>
      simp only [runOperation, hop, hbody, bind_eq_ok, pure_eq_ok] at h
      obtain ⟨sent, _, -, rfl, -⟩ := h
      exact invokeOperated_fits hostFunction auth sent
    | classic xdr =>
      simp only [runOperation, hop, hbody] at h
      cases h

theorem TxOutcome.Fits.congr {body : OperationBody} {outcome outcome' : TxOutcome}
    (h : outcome.Fits body) (hcode : outcome'.code = outcome.code) (hok : outcome'.ok = outcome.ok)
    (hresults : ∀ d, operationResults d outcome' = operationResults d outcome) :
    outcome'.Fits body := by
  refine ⟨by rw [hcode, hok, h.code], fun d => ?_⟩
  rw [hresults, hok]
  exact h.result d

theorem settle_fits {d : Deps} {v : Validated} {charge : Option FeeCharge} {op : Operated}
    {outcome : TxOutcome} {ledger ledger' : Ledger} {body : OperationBody}
    (h : settle d v charge op ledger = .ok outcome ledger') (hfits : op.outcome.Fits body) :
    outcome.Fits body := by
  cases charge with
  | none =>
    obtain ⟨rfl, -⟩ := settle_none h
    exact hfits.congr rfl rfl fun _ => rfl
  | some charge =>
    obtain ⟨-, rfl⟩ := settle_some h
    exact hfits.congr rfl rfl fun _ => rfl

/-! ## The checks -/

theorem footprintOpMalformed_code {ledger : Ledger} {op : Operation}
    {sorobanData : SorobanTransactionData} {code : FootprintOpResult} {detail : String}
    (h : footprintOpMalformed ledger op sorobanData = some (code, detail)) :
    (∃ extendTo, op.body = .extendFootprintTtl extendTo ∧ code = .extendFootprintTtlMalformed) ∨
      op.body = .restoreFootprint ∧ code = .restoreFootprintMalformed := by
  unfold footprintOpMalformed at h
  dsimp only at h
  split at h
  · next extendTo hbody =>
    refine .inl ⟨extendTo, hbody, ?_⟩
    repeat' split at h
    all_goals simp only [Option.some.injEq, Prod.mk.injEq, reduceCtorEq] at h
    all_goals exact h.1.symm
  · next hbody =>
    refine .inr ⟨hbody, ?_⟩
    repeat' split at h
    all_goals simp only [Option.some.injEq, Prod.mk.injEq, reduceCtorEq] at h
    all_goals exact h.1.symm
  · cases h

/-- The checks of the operation refuse with its own result, or with one code. -/
theorem operationChecks_isOf (d : Deps) (ledger : Ledger) {raw : Transaction} {s : Shaped}
    (hops : raw.operations = [s.op]) (src : Sources) (checker : Option SignatureChecker) :
    (operationChecks d ledger s src checker).RejectsAs (TxOutcome.IsOf raw) := by
  refine .bind ?_ fun checker' _ => .bind ?_ fun _ _ =>
    (checkAllUsed_rejectsAs ..).mono fun _ h => h.2.isOf (by decide) raw
  · cases checker with
    | none => exact .ok none
    | some checker =>
      simp only [signOperation]
      exact .ite (fun _ => .ok _) fun _ =>
        .error (.ran s.op hops ⟨rfl, fun _ => ⟨.opBadAuth, rfl, trivial, rfl⟩⟩)
  · simp only [checkFootprintOp]
    split
    · exact .ok ()
    · next code detail hmalformed =>
      refine .error (.ran s.op hops ⟨rfl, fun _ => ⟨.footprint code, rfl, ?_⟩⟩)
      rcases footprintOpMalformed_code hmalformed with ⟨extendTo, hbody, rfl⟩ | ⟨hbody, rfl⟩
      · rw [hbody]
        exact ⟨rfl, rfl⟩
      · rw [hbody]
        exact ⟨rfl, rfl⟩

/-- A rejection by `applyInner` is of its transaction. -/
theorem validate_isOf (d : Deps) (ledger : Ledger) (a : Application) :
    (validate d ledger a).RejectsAs (TxOutcome.IsOf a.raw) := by
  rw [validate_eq]
  refine .bind ((preSequenceChecks_rejectsAs ..).mono ?_) fun (s, nonRefundable) hshaped =>
    .bind ((accountChecks_rejectsAs ..).mono ?_) fun (src, checker) _ =>
    .bind ((checkFees_rejectsAs ..).mono ?_) fun _ _ =>
    .bind (operationChecks_isOf d ledger ?_ src checker) fun _ _ => .ok _
  · rintro outcome (h | ⟨-, h⟩)
    · exact h.isOf (by decide) a.raw
    · exact h.isOf (by decide) a.raw
  · rintro outcome (h | ⟨-, h⟩ | ⟨-, h⟩ | ⟨-, h⟩)
    · exact h.isOf (by decide) a.raw
    · exact h.isOf (by decide) a.raw
    · exact h.isOf (by decide) a.raw
    · exact h.isOf (by decide) a.raw
  · rintro outcome (⟨-, h⟩ | ⟨-, h⟩)
    · exact h.isOf (by decide) a.raw
    · exact h.isOf (by decide) a.raw
  · simp only [preSequenceChecks, Except.bind_eq_ok] at hshaped
    obtain ⟨s', hshape, _, -, _, -, _, -, hs⟩ := hshaped
    cases hs
    exact (checkShape_ok hshape).1

/-- A code the envelope is refused with. -/
def TxOutcome.Refuses (outcome : TxOutcome) : Prop :=
  outcome.code ∈ Rpc.rejectedAtSubmit ∧ outcome.ok = false

theorem TxOutcome.Refuses.of_code {code : TxResultCode} (hmem : code ∈ Rpc.rejectedAtSubmit)
    {outcome : TxOutcome} (hcode : outcome.code = code) (hok : outcome.ok = false) :
    outcome.Refuses :=
  ⟨hcode ▸ hmem, hok⟩

theorem TxOutcome.Rejection.refuses {codes : List TxResultCode} {opCode : Option OpCode}
    {outcome : TxOutcome} (h : outcome.Rejection codes opCode)
    (hcodes : ∀ code ∈ codes, code ∈ Rpc.rejectedAtSubmit) : outcome.Refuses :=
  ⟨hcodes _ h.code, h.ok⟩

theorem feeBumpApplication_refuses (d : Deps) (ledger : Ledger) (passphrase : String)
    (validation : ValidationOptions) (feeBump : FeeBumpTransactionEnvelope) :
    (feeBumpApplication d ledger passphrase validation feeBump).RejectsAs TxOutcome.Refuses := by
  have hmalformed : ∀ detail, (malformed detail).Refuses := fun detail =>
    .of_code (by decide : .txMALFORMED ∈ Rpc.rejectedAtSubmit) rfl rfl
  refine .bind (.ofExcept _) fun _ _ => .bind (.ofExcept _) fun _ _ =>
    .ite (fun _ => .error (hmalformed _)) fun _ => ?_
  split
  · exact .error (hmalformed _)
  · refine .bind ((checkBumpFees_rejectsAs _).mono fun _ h => h.refuses (by decide)) fun _ _ =>
      .bind (.ofExcept _) fun account _ => ?_
    split
    · exact .error (.of_code (by decide : .txNO_ACCOUNT ∈ Rpc.rejectedAtSubmit) rfl rfl)
    · refine .bind ((signFeeBump_rejectsAs ..).mono fun _ h => h.2.refuses (by decide)) fun _ _ =>
        .bind (.problem fun _ _ =>
          .of_code (by decide : .txINSUFFICIENT_BALANCE ∈ Rpc.rejectedAtSubmit) rfl rfl) fun _ _ =>
        .bind ((checkAllUsed_rejectsAs ..).mono fun _ h => h.2.refuses (by decide)) fun _ _ => .ok _

/-- A rejection before `applyInner` refuses the envelope. -/
theorem envelopeApplication_refuses (d : Deps) (ledger : Ledger) (envelope : TransactionEnvelope)
    (passphrase : String) (validation : ValidationOptions) :
    (envelopeApplication d ledger envelope passphrase validation).RejectsAs TxOutcome.Refuses := by
  cases envelope with
  | envelopeTypeTxV0 xdr =>
    exact .error (.of_code (by decide : .txMALFORMED ∈ Rpc.rejectedAtSubmit) rfl rfl)
  | envelopeTypeTx v1 =>
    exact (plainApplication_rejectsAs d passphrase validation v1).mono fun _ h =>
      h.refuses (by decide)
  | envelopeTypeTxFeeBump feeBump =>
    exact feeBumpApplication_refuses d ledger passphrase validation feeBump

/-! ## The result -/

/-- The fee of a rejection does not change what its result is of. -/
theorem transactionResult_seedFee (d : Deps) (envelope : TransactionEnvelope) (outcome : TxOutcome)
    (innerHash : Hash) : ∃ fee, transactionResult d (seedFee envelope outcome) innerHash =
      { transactionResult d outcome innerHash with feeCharged := fee } := by
  unfold seedFee
  split
  · exact ⟨(nominalFee envelope).getD 0, rfl⟩
  · exact ⟨outcome.feeCharged, rfl⟩

theorem TransactionResult.answers_fee {innerHash : Hash} {result : TransactionResult} {fee : Int}
    {envelope : TransactionEnvelope} (h : result.Answers innerHash envelope) :
    TransactionResult.Answers innerHash { result with feeCharged := fee } envelope := by
  cases envelope with
  | envelopeTypeTxV0 xdr => exact ⟨h.code, h.operations, h.inner⟩
  | envelopeTypeTx v1 => exact h
  | envelopeTypeTxFeeBump feeBump => exact h.imp_left fun h => ⟨h.code, h.operations, h.inner⟩

/-- A refusal's result has neither operation results nor a transaction inside. -/
theorem TxOutcome.Refuses.result {outcome : TxOutcome} (h : outcome.Refuses) (d : Deps)
    (innerHash : Hash) : (transactionResult d outcome innerHash).Refuses := by
  obtain ⟨-, -, hbump⟩ := not_refused_code h.1
  refine ⟨h.1, ?_, ?_⟩
  · show (resultArm d outcome.code outcome).operations = none
    rw [resultArm_refused d h.1]
  · show (if outcome.code.isFeeBump = true then _ else none) = none
    rw [hbump, if_neg (by decide)]

/-- The result of a plain transaction is its own arm. -/
theorem transactionResult_plain (d : Deps) {tx : Transaction} {outcome : TxOutcome}
    (h : outcome.IsOf tx) (innerHash : Hash) :
    transactionResult d outcome innerHash =
      ⟨outcome.feeCharged, outcome.code, (resultArm d outcome.code outcome).operations, none⟩ := by
  unfold transactionResult
  dsimp only
  rw [h.not_feeBump, if_neg (by decide)]
  rfl

/-- What a plain transaction ends with. -/
theorem TxOutcome.IsOf.plain {v1 : TransactionV1Envelope} {outcome : TxOutcome}
    (h : outcome.IsOf v1.tx) (d : Deps) (innerHash : Hash) :
    (transactionResult d outcome innerHash).Answers innerHash (.envelopeTypeTx v1) ∧
      (transactionResult d outcome innerHash).succeeded = outcome.ok := by
  rw [transactionResult_plain d h]
  refine ⟨⟨rfl, h.arm d⟩, ?_⟩
  have hplain : outcome.code ≠ .txFEE_BUMP_INNER_SUCCESS := by
    intro hcode
    have hnot := h.not_feeBump
    rw [hcode] at hnot
    cases hnot
  show (decide (outcome.code = .txSUCCESS) ||
    decide (outcome.code = .txFEE_BUMP_INNER_SUCCESS)) = outcome.ok
  rw [decide_eq_false hplain, Bool.or_false]
  simp only [h.code_eq_success, Bool.decide_eq_true]

theorem bumpOutcome_code {inner : TxOutcome} (hrejected : inner.rejected = true → inner.ok = false) :
    (bumpOutcome inner).code =
      if inner.ok then .txFEE_BUMP_INNER_SUCCESS else .txFEE_BUMP_INNER_FAILED := by
  unfold bumpOutcome
  split
  · next h => rw [hrejected h, if_neg (by decide)]
  · rfl

theorem bumpOutcome_innerCode (inner : TxOutcome) :
    (bumpOutcome inner).innerCode = some inner.code := by
  unfold bumpOutcome
  split <;> rfl

/-- Bumping the fee does not change what the operation answers. -/
theorem resultArm_bumpOutcome (d : Deps) (code : TxResultCode) (inner : TxOutcome) :
    resultArm d code (bumpOutcome inner) = resultArm d code inner := by
  unfold bumpOutcome
  split <;> rfl

/-- The result of a fee bump holds the arm of its transaction. -/
theorem transactionResult_bump (d : Deps) {inner : TxOutcome}
    (hrejected : inner.rejected = true → inner.ok = false) (innerHash : Hash) :
    transactionResult d (bumpOutcome inner) innerHash =
      ⟨(bumpOutcome inner).feeCharged,
        if inner.ok then .txFEE_BUMP_INNER_SUCCESS else .txFEE_BUMP_INNER_FAILED, none,
        some (innerHash, resultArm d inner.code inner)⟩ := by
  unfold transactionResult
  dsimp only
  rw [bumpOutcome_innerCode, Option.getD_some, resultArm_bumpOutcome, resultArm_bumpOutcome,
    bumpOutcome_code hrejected]
  cases inner.ok <;> rfl

/-- What an envelope that reached `applyInner` ends with. -/
theorem Unwrapped.result {d : Deps} {envelope : TransactionEnvelope} {passphrase : String}
    {validation : ValidationOptions} {a : Application}
    (h : Unwrapped d envelope passphrase validation a) {inner : TxOutcome}
    (hinner : inner.IsOf a.raw) (hrejected : inner.rejected = true → inner.ok = false)
    (innerHash : Hash) :
    (transactionResult d (if a.feeBumped then bumpOutcome inner else inner) innerHash).Answers
        innerHash envelope ∧
      (transactionResult d (if a.feeBumped then bumpOutcome inner else inner)
        innerHash).succeeded = inner.ok := by
  have hraw := h.innerTx
  rw [h.feeBumped]
  cases envelope with
  | envelopeTypeTxV0 xdr => cases hraw
  | envelopeTypeTx v1 =>
    have hsame : v1.tx = a.raw := Option.some.inj hraw
    rw [← hsame] at hinner
    exact hinner.plain d innerHash
  | envelopeTypeTxFeeBump feeBump =>
    have hsame : feeBump.tx.innerTx.tx = a.raw := Option.some.inj hraw
    rw [← hsame] at hinner
    show TransactionResult.Answers innerHash (transactionResult d (bumpOutcome inner) innerHash)
        (.envelopeTypeTxFeeBump feeBump) ∧
      (transactionResult d (bumpOutcome inner) innerHash).succeeded = inner.ok
    rw [transactionResult_bump d hrejected]
    refine ⟨.inr ⟨_, rfl, hinner.arm d, rfl, ?_⟩, ?_⟩
    · show (if inner.ok = true then TxResultCode.txFEE_BUMP_INNER_SUCCESS
        else .txFEE_BUMP_INNER_FAILED) = if inner.code = .txSUCCESS then _ else _
      simp only [hinner.code_eq_success]
    · unfold TransactionResult.succeeded
      cases inner.ok <;> rfl

/-- What an envelope that is refused ends with. -/
theorem TxOutcome.Refuses.answers {outcome : TxOutcome} (h : outcome.Refuses) (d : Deps)
    (innerHash : Hash) (envelope : TransactionEnvelope) :
    (transactionResult d outcome innerHash).Answers innerHash envelope ∧
      (transactionResult d outcome innerHash).succeeded = outcome.ok := by
  obtain ⟨hsuccess, -, hbump⟩ := not_refused_code h.1
  have hfailed : (transactionResult d outcome innerHash).succeeded = outcome.ok := by
    rw [h.2]
    show (decide (outcome.code = .txSUCCESS) ||
      decide (outcome.code = .txFEE_BUMP_INNER_SUCCESS)) = false
    rw [decide_eq_false hsuccess, Bool.false_or, decide_eq_false]
    intro hcode
    rw [hcode] at hbump
    cases hbump
  refine ⟨?_, hfailed⟩
  cases envelope with
  | envelopeTypeTxV0 xdr => exact h.result d innerHash
  | envelopeTypeTx v1 => exact ((TxOutcome.IsOf.refused h.1 h.2).plain d innerHash).1
  | envelopeTypeTxFeeBump feeBump => exact .inl (h.result d innerHash)

theorem commit_isOf {d : Deps} {ledger ledger' : Ledger} {a : Application} {v : Validated}
    {inner : TxOutcome} (hval : validate d ledger a = .ok v)
    (h : commit d a v ledger = .ok inner ledger') :
    inner.IsOf a.raw ∧ inner.rejected = false := by
  obtain ⟨c₁, c₂, hpassed⟩ := validate_ok hval
  simp only [commit, bind_eq_ok] at h
  obtain ⟨_, _, -, op, _, hop, hsettle⟩ := h
  exact ⟨.ran v.op (checkShape_ok hpassed.shape).1 (settle_fits hsettle (runOperation_fits hop)),
    (settle_outcome hsettle).1.trans (runOperation_rejected hop)⟩

/-- The result of every application fits its envelope, and says success when
the outcome does. -/
theorem applyTransaction_result {d : Deps} {envelope : TransactionEnvelope} {passphrase : String}
    {validation : ValidationOptions} {ledger ledger' : Ledger} {outcome : TxOutcome}
    (h : applyTransaction d envelope passphrase validation ledger = .ok outcome ledger')
    (innerHash : Hash) :
    (transactionResult d outcome innerHash).Answers innerHash envelope ∧
      (transactionResult d outcome innerHash).succeeded = outcome.ok := by
  have hseeded : ∀ o, (transactionResult d o innerHash).Answers innerHash envelope ∧
      (transactionResult d o innerHash).succeeded = o.ok →
      (transactionResult d (seedFee envelope o) innerHash).Answers innerHash envelope ∧
        (transactionResult d (seedFee envelope o) innerHash).succeeded =
          (seedFee envelope o).ok := by
    intro o ⟨hanswers, hsucceeded⟩
    have hok : (seedFee envelope o).ok = o.ok := by
      unfold seedFee
      split <;> rfl
    obtain ⟨fee, hfee⟩ := transactionResult_seedFee d envelope o innerHash
    rw [hfee, hok]
    exact ⟨TransactionResult.answers_fee hanswers, hsucceeded⟩
  have hend := applyTransaction_end d envelope passphrase validation ledger
  rw [h] at hend
  cases hend with
  | envelopeRejected happ =>
    exact hseeded _ (((envelopeApplication_refuses d ledger envelope passphrase
      validation).carries _ happ).answers d innerHash envelope)
  | @rejected a inner happ hval =>
    refine hseeded _ ?_
    have hunwrapped := envelopeApplication_ok happ
    have hmarked := (validate_rejects hunwrapped).marked inner hval
    have hbumped : (if a.feeBumped then bumpOutcome inner else inner).ok = inner.ok := by
      split
      · rw [bumpOutcome_ok]
      · rfl
    rw [hbumped]
    exact hunwrapped.result ((validate_isOf d ledger a).carries inner hval)
      (fun _ => hmarked.2) innerHash
  | @committed a v inner _ happ hval hcommit =>
    refine hseeded _ ?_
    have hunwrapped := envelopeApplication_ok happ
    obtain ⟨hinner, hrejected⟩ := commit_isOf hval hcommit
    have hbumped : (if a.feeBumped then bumpOutcome inner else inner).ok = inner.ok := by
      split
      · rw [bumpOutcome_ok]
      · rfl
    rw [hbumped]
    exact hunwrapped.result hinner (fun hmarked => absurd (hrejected ▸ hmarked) (by decide))
      innerHash

end LiteSoroban

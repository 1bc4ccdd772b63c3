import LiteSoroban.Classic.ChecksSpec

/-!
# Verdicts

Which code a rejection carries, and which checks ran before it.

`applyInner` runs its checks in three stages.  The first looks at the envelope
and the network's settings, and reads no account.  The second loads the source
and ends with the signatures of the transaction.  The third holds the fees,
the operation's own checks, and the signatures left over.  `validate_eq` cuts
`validate` at these two points, and each stage has its codes.

`Verdict` lists the codes of all three, each with the switch that has to be on
for it.
-/

namespace LiteSoroban

/-! ## The stages -/

/-- The checks before the source account is loaded.  Returns the
non-refundable part of the resource fee with the shape. -/
def preSequenceChecks (d : Deps) (ledger : Ledger) (a : Application) : Check (Shaped × Int) := do
  let s ← checkShape a.raw
  Check.problem .txSOROBAN_INVALID <|
    sorobanResourcesProblem d ledger.fees s.sorobanData a.txSize s.op.body.isRestore
  let nonRefundable ← checkDeclaredFee d ledger a s
  checkBounds ledger a
  return (s, nonRefundable)

theorem preSequenceChecks_shape {d : Deps} {ledger : Ledger} {a : Application} {s : Shaped}
    {nonRefundable : Int} (h : preSequenceChecks d ledger a = .ok (s, nonRefundable)) :
    checkShape a.raw = .ok s := by
  simp only [preSequenceChecks, Except.bind_eq_ok] at h
  obtain ⟨_, hshape, _, -, _, -, _, -, h⟩ := h
  cases h
  exact hshape

/-- The checks of the source account: that it exists, its sequence number, its
age, and the transaction's signatures. -/
def accountChecks (d : Deps) (ledger : Ledger) (a : Application) (op : Operation) :
    Check (Sources × Option SignatureChecker) := do
  let src ← loadSources ledger a.raw op
  checkSequence ledger a src.account
  checkAge ledger a src.account
  let checker ← signTransaction d a.raw src.account a.checker
  return (src, checker)

/-- The checks after the fees. -/
def operationChecks (d : Deps) (ledger : Ledger) (s : Shaped) (src : Sources)
    (checker : Option SignatureChecker) : Check Unit := do
  let checker ← signOperation d s.op src checker
  checkFootprintOp ledger s
  checkAllUsed "the envelope carries a signature no check consumed" checker

theorem validate_eq (d : Deps) (ledger : Ledger) (a : Application) :
    validate d ledger a = (do
      let (s, nonRefundable) ← preSequenceChecks d ledger a
      let (src, checker) ← accountChecks d ledger a s.op
      checkFees ledger a s
      operationChecks d ledger s src checker
      return { s, src with nonRefundable := nonRefundable }) := by
  simp only [validate, preSequenceChecks, accountChecks, operationChecks, bind_assoc, pure_bind]
  rfl

theorem preSequenceChecks_rejectsAs (d : Deps) (ledger : Ledger) (a : Application) :
    (preSequenceChecks d ledger a).RejectsAs fun outcome =>
      outcome.Rejection [.txMALFORMED, .txMISSING_OPERATION, .txSOROBAN_INVALID] none ∨
        a.validation.timebounds = true ∧ outcome.Rejection [.txTOO_EARLY, .txTOO_LATE] none := by
  refine .bind ((checkShape_rejectsAs _).mono fun _ h => .inl h) fun s _ =>
    .bind (.problem fun _ _ => .inl (fail_rejection (by decide) _ _)) fun _ _ =>
    .bind ((checkDeclaredFee_rejectsAs ..).mono fun outcome h => .inl ?_) fun _ _ =>
    .bind ((checkBounds_rejectsAs ..).mono fun _ h => .inr h) fun _ _ => .ok _
  exact { h.2 with code := List.mem_of_mem_tail (List.mem_of_mem_tail h.2.code) }

theorem accountChecks_rejectsAs (d : Deps) (ledger : Ledger) (a : Application) (op : Operation) :
    (accountChecks d ledger a op).RejectsAs fun outcome =>
      outcome.Rejection [.txNO_ACCOUNT] none ∨
      ((a.validation.sequenceCheck = true ∨ a.raw.seqNum = ledger.ledgerSeq * 2 ^ 32) ∧
        outcome.Rejection [.txBAD_SEQ] none) ∨
      (a.validation.timebounds = true ∧ outcome.Rejection [.txBAD_MIN_SEQ_AGE_OR_GAP] none) ∨
      a.checker.isSome ∧ outcome.Rejection [.txBAD_AUTH] none :=
  .bind ((loadSources_rejectsAs ..).mono fun _ h => .inl h) fun _ _ =>
  .bind ((checkSequence_rejectsAs ..).mono fun _ h => .inr (.inl h)) fun _ _ =>
  .bind ((checkAge_rejectsAs ..).mono fun _ h => .inr (.inr (.inl h))) fun _ _ =>
  .bind ((signTransaction_rejectsAs ..).mono fun _ h => .inr (.inr (.inr h))) fun _ _ => .ok _

theorem signOperation_isSome {d : Deps} {op : Operation} {src : Sources}
    {checker checker' : Option SignatureChecker}
    (h : signOperation d op src checker = .ok checker') : checker'.isSome = checker.isSome := by
  cases checker with
  | none =>
    cases h
    rfl
  | some c =>
    simp only [signOperation] at h
    split at h
    · cases h
      rfl
    · cases h

theorem signTransaction_isSome {d : Deps} {raw : Transaction} {account : AccountEntry}
    {checker checker' : Option SignatureChecker}
    (h : signTransaction d raw account checker = .ok checker') :
    checker'.isSome = checker.isSome := by
  cases checker with
  | none =>
    cases h
    rfl
  | some c =>
    simp only [signTransaction, Except.bind_eq_ok] at h
    obtain ⟨_, -, _, -, h⟩ := h
    cases h
    rfl

theorem signFeeBump_isSome {d : Deps} {feeAccount : AccountEntry}
    {checker checker' : Option SignatureChecker}
    (h : signFeeBump d feeAccount checker = .ok checker') : checker'.isSome = checker.isSome := by
  cases checker with
  | none =>
    cases h
    rfl
  | some c =>
    simp only [signFeeBump, Except.bind_eq_ok] at h
    obtain ⟨_, -, h⟩ := h
    cases h
    rfl

theorem accountChecks_isSome {d : Deps} {ledger : Ledger} {a : Application} {op : Operation}
    {src : Sources} {checker : Option SignatureChecker}
    (h : accountChecks d ledger a op = .ok (src, checker)) :
    checker.isSome = a.checker.isSome := by
  simp only [accountChecks, Except.bind_eq_ok] at h
  obtain ⟨_, -, _, -, _, -, _, hsigned, h⟩ := h
  cases h
  exact signTransaction_isSome hsigned

theorem operationChecks_rejectsAs (d : Deps) (ledger : Ledger) (s : Shaped) (src : Sources)
    (checker : Option SignatureChecker) :
    (operationChecks d ledger s src checker).RejectsAs fun outcome =>
      (checker.isSome ∧ outcome.Rejection [.txFAILED] (some .opBAD_AUTH)) ∨
      outcome.Rejection [.txFAILED] none ∨
      checker.isSome ∧ outcome.Rejection [.txBAD_AUTH_EXTRA] none := by
  refine .bind ((signOperation_rejectsAs ..).mono fun _ h => .inl h) fun checker' hsigned =>
    .bind ((checkFootprintOp_rejectsAs ..).mono fun _ h => .inr (.inl h)) fun _ _ =>
    (checkAllUsed_rejectsAs ..).mono fun _ h => .inr (.inr ⟨?_, h.2⟩)
  rw [← signOperation_isSome hsigned]
  exact h.1

/-! ## The codes -/

/-- The codes a rejection can carry, with the code of its operation, under the
switches `validation`.  `start` says that the transaction uses the number
`CreateAccount` would hand out in this ledger, which no switch allows. -/
inductive Verdict (validation : ValidationOptions) (start : Prop) :
    TxResultCode → Option OpCode → Prop
  | malformed : Verdict validation start .txMALFORMED none
  | missingOperation : Verdict validation start .txMISSING_OPERATION none
  | sorobanInvalid : Verdict validation start .txSOROBAN_INVALID none
  | tooEarly (h : validation.timebounds = true) : Verdict validation start .txTOO_EARLY none
  | tooLate (h : validation.timebounds = true) : Verdict validation start .txTOO_LATE none
  | noAccount : Verdict validation start .txNO_ACCOUNT none
  | badSeq (h : validation.sequenceCheck = true ∨ start) :
      Verdict validation start .txBAD_SEQ none
  | badMinSeqAgeOrGap (h : validation.timebounds = true) :
      Verdict validation start .txBAD_MIN_SEQ_AGE_OR_GAP none
  | badAuth (h : validation.sigverify = true) : Verdict validation start .txBAD_AUTH none
  | insufficientFee : Verdict validation start .txINSUFFICIENT_FEE none
  | insufficientBalance (h : validation.feeCharging = true) :
      Verdict validation start .txINSUFFICIENT_BALANCE none
  | opBadAuth (h : validation.sigverify = true) :
      Verdict validation start .txFAILED (some .opBAD_AUTH)
  | malformedOp : Verdict validation start .txFAILED none
  | badAuthExtra (h : validation.sigverify = true) :
      Verdict validation start .txBAD_AUTH_EXTRA none

/-- An outcome marked as a rejection, with a code its switches allow. -/
structure TxOutcome.Judged (validation : ValidationOptions) (start : Prop)
    (outcome : TxOutcome) : Prop where
  rejected : outcome.rejected = true
  ok : outcome.ok = false
  innerCode : outcome.innerCode = none
  verdict : Verdict validation start outcome.code outcome.opCode

theorem TxOutcome.Rejection.judged {codes : List TxResultCode} {opCode : Option OpCode}
    {outcome : TxOutcome} (h : outcome.Rejection codes opCode) {validation : ValidationOptions}
    {start : Prop} (hcodes : ∀ code ∈ codes, Verdict validation start code opCode) :
    outcome.Judged validation start :=
  ⟨h.rejected, h.ok, h.innerCode, h.opCode ▸ hcodes _ h.code⟩

theorem TxOutcome.Rejection.judged_of_single {code : TxResultCode} {opCode : Option OpCode}
    {outcome : TxOutcome} (h : outcome.Rejection [code] opCode) {validation : ValidationOptions}
    {start : Prop} (hcode : Verdict validation start code opCode) :
    outcome.Judged validation start :=
  h.judged fun _ hmem => List.mem_singleton.mp hmem ▸ hcode

theorem Verdict.mono {validation : ValidationOptions} {start start' : Prop} {code : TxResultCode}
    {opCode : Option OpCode} (h : Verdict validation start code opCode)
    (hstart : start → start') : Verdict validation start' code opCode := by
  cases h with
  | badSeq h => exact .badSeq (h.imp_right hstart)
  | malformed => exact .malformed
  | missingOperation => exact .missingOperation
  | sorobanInvalid => exact .sorobanInvalid
  | tooEarly h => exact .tooEarly h
  | tooLate h => exact .tooLate h
  | noAccount => exact .noAccount
  | badMinSeqAgeOrGap h => exact .badMinSeqAgeOrGap h
  | badAuth h => exact .badAuth h
  | insufficientFee => exact .insufficientFee
  | insufficientBalance h => exact .insufficientBalance h
  | opBadAuth h => exact .opBadAuth h
  | malformedOp => exact .malformedOp
  | badAuthExtra h => exact .badAuthExtra h

theorem TxOutcome.Judged.mono {validation : ValidationOptions} {start start' : Prop}
    {outcome : TxOutcome} (h : outcome.Judged validation start) (hstart : start → start') :
    outcome.Judged validation start' :=
  ⟨h.rejected, h.ok, h.innerCode, h.verdict.mono hstart⟩

theorem Application.checker_isSome (a : Application) :
    a.checker.isSome = a.validation.sigverify := by
  rw [Application.checker]
  cases a.validation.sigverify <;> rfl

/-- A rejection by `applyInner`. -/
theorem validate_rejectsAs (d : Deps) (ledger : Ledger) {a : Application}
    (hcharge : a.charge.isSome → a.validation.feeCharging = true) :
    (validate d ledger a).RejectsAs
      (TxOutcome.Judged a.validation (a.raw.seqNum = ledger.ledgerSeq * 2 ^ 32)) := by
  rw [validate_eq]
  refine .bind ((preSequenceChecks_rejectsAs ..).mono ?_) fun (s, nonRefundable) _ =>
    .bind ((accountChecks_rejectsAs ..).mono ?_) fun (src, checker) haccount =>
    .bind ((checkFees_rejectsAs ..).mono ?_) fun _ _ =>
    .bind ((operationChecks_rejectsAs ..).mono ?_) fun _ _ => .ok _
  · rintro outcome (h | ⟨htimebounds, h⟩)
    · exact h.judged (by simp [Verdict.malformed, Verdict.missingOperation, Verdict.sorobanInvalid])
    · exact h.judged (by simp [Verdict.tooEarly htimebounds, Verdict.tooLate htimebounds])
  · rintro outcome (h | ⟨hsequence, h⟩ | ⟨htimebounds, h⟩ | ⟨hchecker, h⟩)
    · exact h.judged_of_single .noAccount
    · exact h.judged_of_single (.badSeq hsequence)
    · exact h.judged_of_single (.badMinSeqAgeOrGap htimebounds)
    · rw [a.checker_isSome] at hchecker
      exact h.judged_of_single (.badAuth hchecker)
  · rintro outcome (⟨-, h⟩ | ⟨hcharged, h⟩)
    · exact h.judged_of_single .insufficientFee
    · exact h.judged_of_single (.insufficientBalance (hcharge hcharged))
  · have hsigverify : checker.isSome → a.validation.sigverify = true := by
      rw [accountChecks_isSome haccount, a.checker_isSome]
      exact id
    rintro outcome (⟨hchecker, h⟩ | h | ⟨hchecker, h⟩)
    · exact h.judged_of_single (.opBadAuth (hsigverify hchecker))
    · exact h.judged_of_single .malformedOp
    · exact h.judged_of_single (.badAuthExtra (hsigverify hchecker))

theorem feeBumpApplication_rejectsAs (d : Deps) (ledger : Ledger) (passphrase : String)
    (validation : ValidationOptions) (feeBump : FeeBumpTransactionEnvelope) (start : Prop) :
    (feeBumpApplication d ledger passphrase validation feeBump).RejectsAs
      (TxOutcome.Judged validation start) := by
  have hmalformed : ∀ detail, (malformed detail).Judged validation start := fun detail =>
    ⟨rfl, rfl, rfl, .malformed⟩
  refine .bind (.ofExcept _) fun _ _ => .bind (.ofExcept _) fun _ _ =>
    .ite (fun _ => .error (hmalformed _)) fun _ => ?_
  split
  · exact .error (hmalformed _)
  · refine .bind ((checkBumpFees_rejectsAs _).mono fun _ h => h.judged ?_) fun _ _ =>
      .bind (.ofExcept _) fun account _ => ?_
    · simp [Verdict.malformed, Verdict.insufficientFee]
    · split
      · exact .error ⟨rfl, rfl, rfl, .noAccount⟩
      · next feeAccount =>
        have hsigverify : (if validation.sigverify then
            some (SignatureChecker.new feeBump.signatures
              (d.feeBumpTransactionHash passphrase feeBump.tx)) else none).isSome →
            validation.sigverify = true := by
          cases validation.sigverify <;> simp
        refine .bind ((signFeeBump_rejectsAs ..).mono fun _ h =>
            h.2.judged_of_single (.badAuth (hsigverify h.1))) fun checker hsigned =>
          .bind (.problem fun _ hproblem => ⟨rfl, rfl, rfl, .insufficientBalance ?_⟩) fun _ _ =>
          .bind ((checkAllUsed_rejectsAs ..).mono fun _ h =>
            h.2.judged_of_single (.badAuthExtra ?_)) fun _ _ => .ok _
        · cases hcharging : validation.feeCharging with
          | true => rfl
          | false => simp [hcharging] at hproblem
        · exact hsigverify (signFeeBump_isSome hsigned ▸ h.1)

/-- A rejection before `applyInner`. -/
theorem envelopeApplication_rejectsAs (d : Deps) (ledger : Ledger)
    (envelope : TransactionEnvelope) (passphrase : String) (validation : ValidationOptions)
    (start : Prop) : (envelopeApplication d ledger envelope passphrase validation).RejectsAs
      (TxOutcome.Judged validation start) := by
  cases envelope with
  | envelopeTypeTxV0 xdr => exact .error ⟨rfl, rfl, rfl, .malformed⟩
  | envelopeTypeTx v1 =>
    exact (plainApplication_rejectsAs d passphrase validation v1).mono fun _ h =>
      h.judged_of_single .malformed
  | envelopeTypeTxFeeBump feeBump =>
    exact feeBumpApplication_rejectsAs d ledger passphrase validation feeBump start

/-- A rejection before `applyInner` is marked as one. -/
theorem envelopeApplication_rejects (d : Deps) (ledger : Ledger)
    (envelope : TransactionEnvelope) (passphrase : String) (validation : ValidationOptions) :
    (envelopeApplication d ledger envelope passphrase validation).Rejects :=
  (envelopeApplication_rejectsAs d ledger envelope passphrase validation True).rejects
    fun _ h => ⟨h.rejected, h.ok⟩

/-- Nobody is charged while fees are not. -/
theorem Unwrapped.charging {d : Deps} {envelope : TransactionEnvelope} {passphrase : String}
    {validation : ValidationOptions} {a : Application}
    (h : Unwrapped d envelope passphrase validation a) (hcharge : a.charge.isSome) :
    a.validation.feeCharging = true := by
  obtain ⟨payer, -, heq⟩ := h.charge
  rw [h.switches]
  cases hcharging : validation.feeCharging with
  | true => rfl
  | false => simp [heq, hcharging] at hcharge

/-- A rejection by `applyInner` is marked as one. -/
theorem validate_rejects {d : Deps} {ledger : Ledger} {envelope : TransactionEnvelope}
    {passphrase : String} {validation : ValidationOptions} {a : Application}
    (h : Unwrapped d envelope passphrase validation a) : (validate d ledger a).Rejects :=
  (validate_rejectsAs d ledger h.charging).rejects fun _ h => ⟨h.rejected, h.ok⟩

end LiteSoroban

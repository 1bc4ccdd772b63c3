import LiteSoroban.Classic.Apply

/-!
# What the checks establish

`validate_ok` lists what the checks of `applyInner` found when they all
passed, and `envelopeApplication_ok` what the checks of the envelope found.
The `_rejects` lemmas say that a check that stops without throwing has marked
its outcome as a rejection.

The last section reads single facts off the checks: what the sequence check
leaves of the sequence numbers, and what the fee checks leave of the fees.
-/

namespace LiteSoroban

/-! ## The checks -/

/-- The checker `validate` starts with. -/
def Application.checker (a : Application) : Option SignatureChecker :=
  if a.validation.sigverify then some (.new a.signatures a.hash) else none

/-- Every check passed, with `c₁` and `c₂` the checkers after the transaction's
and the operation's signatures. -/
structure Passed (d : Deps) (ledger : Ledger) (a : Application) (v : Validated)
    (c₁ c₂ : Option SignatureChecker) : Prop where
  shape : checkShape a.raw = .ok v.toShaped
  resources : sorobanResourcesProblem d ledger.fees v.sorobanData a.txSize
    v.op.body.isRestore = none
  declaredFee : checkDeclaredFee d ledger a v.toShaped = .ok v.nonRefundable
  bounds : checkBounds ledger a = .ok ()
  sources : loadSources ledger a.raw v.op = .ok v.toSources
  sequence : checkSequence ledger a v.account = .ok ()
  age : checkAge ledger a v.account = .ok ()
  signedTransaction : signTransaction d a.raw v.account a.checker = .ok c₁
  fees : checkFees ledger a v.toShaped = .ok ()
  signedOperation : signOperation d v.op v.toSources c₁ = .ok c₂
  footprintOp : checkFootprintOp ledger v.toShaped = .ok ()
  allUsed : checkAllUsed "the envelope carries a signature no check consumed" c₂ = .ok ()

theorem validate_ok {d : Deps} {ledger : Ledger} {a : Application} {v : Validated}
    (h : validate d ledger a = .ok v) : ∃ c₁ c₂, Passed d ledger a v c₁ c₂ := by
  simp only [validate, Except.bind_eq_ok, Check.problem_eq_ok] at h
  obtain ⟨s, hshape, _, hresources, nonRefundable, hfee, _, hbounds, src, hsources, _,
    hsequence, _, hage, c₁, hsigned₁, _, hfees, c₂, hsigned₂, _, hfootprint, _, hused, hv⟩ := h
  cases hv
  exact ⟨c₁, c₂, hshape, hresources, hfee, hbounds, hsources, hsequence, hage, hsigned₁, hfees,
    hsigned₂, hfootprint, hused⟩

/-! ## What each check rejects with -/

theorem checkShape_rejectsAs (raw : Transaction) : (checkShape raw).RejectsAs
    (TxOutcome.Rejection [.txMALFORMED, .txMISSING_OPERATION, .txSOROBAN_INVALID] none) := by
  refine .bind (.problem fun _ _ => fail_rejection (by decide) _ _) fun _ _ => ?_
  split
  · exact .error (fail_rejection (by decide) _ _)
  · refine .bind (.problem fun _ _ => fail_rejection (by decide) _ _) fun _ _ =>
      .bind (.problem fun _ _ => fail_rejection (by decide) _ _) fun _ _ => ?_
    split
    · exact .error (fail_rejection (by decide) _ _)
    · exact .ok _

theorem checkDeclaredFee_rejectsAs (d : Deps) (ledger : Ledger) (a : Application) (s : Shaped) :
    (checkDeclaredFee d ledger a s).RejectsAs fun outcome =>
      a.charge.isSome ∧ outcome.Rejection [.txSOROBAN_INVALID] none := by
  cases hcharge : a.charge with
  | none =>
    simp only [checkDeclaredFee, hcharge]
    exact .ok 0
  | some charge =>
    simp only [checkDeclaredFee, hcharge]
    exact .bind (.ofExcept _) fun _ _ =>
      .bind (.problem fun _ _ => ⟨rfl, fail_rejection (by decide) _ _⟩) fun _ _ => .ok _

theorem boundsProblem_code {ledger : Ledger} {raw : Transaction} {code : TxResultCode}
    {detail : String} (h : boundsProblem ledger raw = some (code, detail)) :
    code ∈ [.txTOO_EARLY, .txTOO_LATE] := by
  simp only [boundsProblem] at h
  repeat' split at h
  all_goals simp only [Option.some.injEq, Prod.mk.injEq, reduceCtorEq] at h
  all_goals
    obtain ⟨rfl, -⟩ := h
    decide

theorem checkBounds_rejectsAs (ledger : Ledger) (a : Application) :
    (checkBounds ledger a).RejectsAs fun outcome =>
      a.validation.timebounds = true ∧ outcome.Rejection [.txTOO_EARLY, .txTOO_LATE] none := by
  refine .ite (fun htimebounds => ?_) fun _ => .ok ()
  split
  · next hproblem =>
      exact .error ⟨htimebounds, fail_rejection (boundsProblem_code hproblem) _ _⟩
  · exact .ok ()

theorem loadSources_rejectsAs (ledger : Ledger) (raw : Transaction) (op : Operation) :
    (loadSources ledger raw op).RejectsAs (TxOutcome.Rejection [.txNO_ACCOUNT] none) := by
  refine .bind (.ofExcept _) fun account _ => ?_
  split
  · exact .error (fail_rejection (by decide) _ _)
  · split
    · exact .ok _
    · exact .bind (.ofExcept _) fun _ _ => .ok _

theorem checkSequence_rejectsAs (ledger : Ledger) (a : Application) (account : AccountEntry) :
    (checkSequence ledger a account).RejectsAs fun outcome =>
      (a.validation.sequenceCheck = true ∨ a.raw.seqNum = ledger.ledgerSeq * 2 ^ 32) ∧
        outcome.Rejection [.txBAD_SEQ] none := by
  refine .bind (.problem fun text hproblem => ⟨.inr ?_, fail_rejection (by decide) _ _⟩)
    fun _ _ => .problem fun text hproblem => ⟨.inl ?_, fail_rejection (by decide) _ _⟩
  · split at hproblem
    · assumption
    · cases hproblem
  · split at hproblem
    · assumption
    · cases hproblem

theorem checkAge_rejectsAs (ledger : Ledger) (a : Application) (account : AccountEntry) :
    (checkAge ledger a account).RejectsAs fun outcome =>
      a.validation.timebounds = true ∧ outcome.Rejection [.txBAD_MIN_SEQ_AGE_OR_GAP] none := by
  refine .problem fun text hproblem => ⟨?_, fail_rejection (by decide) _ _⟩
  split at hproblem
  · assumption
  · cases hproblem

theorem signTransaction_rejectsAs (d : Deps) (raw : Transaction) (account : AccountEntry)
    (checker : Option SignatureChecker) :
    (signTransaction d raw account checker).RejectsAs fun outcome =>
      checker.isSome ∧ outcome.Rejection [.txBAD_AUTH] none := by
  cases checker with
  | none => exact .ok none
  | some checker =>
    exact .bind (.problem fun _ _ => ⟨rfl, fail_rejection (by decide) _ _⟩) fun _ _ =>
      .bind (.problem fun _ _ => ⟨rfl, fail_rejection (by decide) _ _⟩) fun _ _ => .ok _

theorem checkFees_rejectsAs (ledger : Ledger) (a : Application) (s : Shaped) :
    (checkFees ledger a s).RejectsAs fun outcome =>
      ((a.feeBumped = false ∧ a.raw.fee - s.sorobanData.resourceFee < baseFee) ∧
        outcome.Rejection [.txINSUFFICIENT_FEE] none) ∨
      a.charge.isSome ∧ outcome.Rejection [.txINSUFFICIENT_BALANCE] none := by
  refine .bind (.problem fun _ hproblem => .inl ⟨?_, fail_rejection (by decide) _ _⟩) fun _ _ => ?_
  · split at hproblem
    · next hunder => simpa using hunder
    · cases hproblem
  · cases a.charge with
    | none => exact .ok ()
    | some charge =>
      exact .ite (fun _ => .ok ()) fun _ => .bind (.ofExcept _) fun _ _ =>
        .problem fun _ _ => .inr ⟨rfl, fail_rejection (by decide) _ _⟩

theorem signOperation_rejectsAs (d : Deps) (op : Operation) (src : Sources)
    (checker : Option SignatureChecker) : (signOperation d op src checker).RejectsAs fun outcome =>
      checker.isSome ∧ outcome.Rejection [.txFAILED] (some .opBAD_AUTH) := by
  cases checker with
  | none => exact .ok none
  | some checker =>
    simp only [signOperation]
    exact .ite (fun _ => .ok _) fun _ => .error ⟨rfl, rfl, rfl, rfl, by simp [fail], rfl⟩

theorem checkFootprintOp_rejectsAs (ledger : Ledger) (s : Shaped) :
    (checkFootprintOp ledger s).RejectsAs (TxOutcome.Rejection [.txFAILED] none) := by
  simp only [checkFootprintOp]
  split
  · exact .ok ()
  · exact .error ⟨rfl, rfl, rfl, by simp [fail], rfl⟩

theorem checkAllUsed_rejectsAs (detail : String) (checker : Option SignatureChecker) :
    (checkAllUsed detail checker).RejectsAs fun outcome =>
      checker.isSome ∧ outcome.Rejection [.txBAD_AUTH_EXTRA] none := by
  cases checker with
  | none => exact .ok ()
  | some checker => exact .problem fun _ _ => ⟨rfl, fail_rejection (by decide) _ _⟩

theorem plainApplication_rejectsAs (d : Deps) (passphrase : String)
    (validation : ValidationOptions) (v1 : TransactionV1Envelope) :
    (plainApplication d passphrase validation v1).RejectsAs
      (TxOutcome.Rejection [.txMALFORMED] none) := by
  refine .bind (.ofExcept _) fun _ _ => ?_
  dsimp only
  split
  · exact .error (malformed_rejection (by decide) _)
  · split
    · exact .error (malformed_rejection (by decide) _)
    · exact .ok _

theorem checkBumpFees_rejectsAs (fb : FeeBumpTransaction) : (checkBumpFees fb).RejectsAs
    (TxOutcome.Rejection [.txMALFORMED, .txINSUFFICIENT_FEE] none) := by
  simp only [checkBumpFees]
  split
  · exact .error (malformed_rejection (by decide) _)
  · exact .bind (.problem fun _ _ => fail_rejection (by decide) _ _) fun _ _ =>
      .ite (fun _ => .error (fail_rejection (by decide) _ _)) fun _ => .ok ()

theorem signFeeBump_rejectsAs (d : Deps) (feeAccount : AccountEntry)
    (checker : Option SignatureChecker) :
    (signFeeBump d feeAccount checker).RejectsAs fun outcome =>
      checker.isSome ∧ outcome.Rejection [.txBAD_AUTH] none := by
  cases checker with
  | none => exact .ok none
  | some checker =>
    exact .bind (.problem fun _ _ => ⟨rfl, fail_rejection (by decide) _ _⟩) fun _ _ => .ok _

/-! ## The envelope -/

/-- Who pays for an envelope. -/
def TransactionEnvelope.feePayer? : TransactionEnvelope → Option AccountId
  | .envelopeTypeTxV0 _ => none
  | .envelopeTypeTx v1 => some v1.tx.sourceId
  | .envelopeTypeTxFeeBump feeBump => some (muxedToAccountId feeBump.tx.feeSource)

/-- The full fee of an envelope: its whole bid. -/
def TransactionEnvelope.fullFee : TransactionEnvelope → Int
  | .envelopeTypeTxV0 _ => 0
  | .envelopeTypeTx v1 => v1.tx.fee
  | .envelopeTypeTxFeeBump feeBump => feeBump.tx.fee

def TransactionEnvelope.isFeeBump : TransactionEnvelope → Bool
  | .envelopeTypeTxFeeBump _ => true
  | _ => false

/-- How many operations the inclusion fee covers: the transaction's own, and
one more for a fee bump. -/
def chargedOperations (envelope : TransactionEnvelope) (raw : Transaction) : Nat :=
  raw.operations.length + if envelope.isFeeBump then 1 else 0

/-- What `applyInner` is called with, for an envelope that reaches it. -/
structure Unwrapped (d : Deps) (envelope : TransactionEnvelope) (passphrase : String)
    (validation : ValidationOptions) (a : Application) : Prop where
  innerTx : envelope.innerTx? = some a.raw
  hash : a.hash = d.transactionHash passphrase a.raw
  feeBumped : a.feeBumped = envelope.isFeeBump
  switches : a.validation = validation
  validFee : xdrProvidesValidFee a.raw = none
  inclusionFee : negativeInclusionFee envelope.fullFee (declaredResourceFee a.raw) = none
  charge : ∃ payer, envelope.feePayer? = some payer ∧
    a.charge = if validation.feeCharging then
      some ⟨payer, feeToCharge envelope.fullFee (declaredResourceFee a.raw)
        (chargedOperations envelope a.raw)⟩
      else none

/-- A fee bump passed its own checks: its fee source, and the checker its
signatures left. -/
structure BumpPassed (d : Deps) (ledger : Ledger) (passphrase : String)
    (validation : ValidationOptions) (feeBump : FeeBumpTransactionEnvelope)
    (feeAccount : AccountEntry) (checker : Option SignatureChecker) : Prop where
  fees : checkBumpFees feeBump.tx = .ok ()
  loaded : loadAccount ledger (muxedToAccountId feeBump.tx.feeSource) = .ok (some feeAccount)
  signed : signFeeBump d feeAccount
    (if validation.sigverify then
      some (.new feeBump.signatures (d.feeBumpTransactionHash passphrase feeBump.tx)) else none) =
    .ok checker
  balance : validation.feeCharging = true → feeBump.tx.fee ≤ availableBalance feeAccount
  allUsed : checkAllUsed "the fee bump envelope carries a signature no check consumed" checker =
    .ok ()

theorem plainApplication_ok {d : Deps} {passphrase : String} {validation : ValidationOptions}
    {v1 : TransactionV1Envelope} {a : Application}
    (h : plainApplication d passphrase validation v1 = .ok a) :
    Unwrapped d (.envelopeTypeTx v1) passphrase validation a ∧ a.signatures = v1.signatures := by
  simp only [plainApplication, Except.bind_eq_ok] at h
  obtain ⟨_, _, h⟩ := h
  split at h
  · cases h
  · next hfee =>
    split at h
    · cases h
    · next hqueue =>
      cases h
      exact ⟨⟨rfl, rfl, rfl, rfl, hfee, hqueue, v1.tx.sourceId, rfl, rfl⟩, rfl⟩

theorem checkBumpFees_ok {fb : FeeBumpTransaction} {u : Unit} (h : checkBumpFees fb = .ok u) :
    negativeInclusionFee fb.fee (declaredResourceFee fb.innerTx.tx) = none ∧
      minInclusion (fb.innerTx.tx.operations.length + 1) ≤
        fb.fee - declaredResourceFee fb.innerTx.tx := by
  simp only [checkBumpFees] at h
  split at h
  · cases h
  · next hqueue =>
    simp only [Except.bind_eq_ok, Check.problem_eq_ok] at h
    obtain ⟨_, hmin, _⟩ := h
    refine ⟨hqueue, ?_⟩
    split at hmin
    · cases hmin
    · next hle => exact not_lt.mp hle

theorem feeBumpApplication_ok {d : Deps} {ledger : Ledger} {passphrase : String}
    {validation : ValidationOptions} {feeBump : FeeBumpTransactionEnvelope} {a : Application}
    (h : feeBumpApplication d ledger passphrase validation feeBump = .ok a) :
    Unwrapped d (.envelopeTypeTxFeeBump feeBump) passphrase validation a ∧
      a.signatures = feeBump.tx.innerTx.signatures ∧
      ∃ feeAccount checker, BumpPassed d ledger passphrase validation feeBump feeAccount checker := by
  simp only [feeBumpApplication, Except.bind_eq_ok] at h
  obtain ⟨_, _, _, _, h⟩ := h
  split at h
  · cases h
  · split at h
    · cases h
    · next hfee =>
      simp only [Except.bind_eq_ok, Check.ofExcept_eq_ok] at h
      obtain ⟨_, hfees, account, hload, h⟩ := h
      split at h
      · cases h
      · next feeAccount =>
        simp only [Except.bind_eq_ok, Check.problem_eq_ok] at h
        obtain ⟨checker, hsigned, _, hbalance, _, hused, h⟩ := h
        cases h
        refine ⟨⟨rfl, rfl, rfl, rfl, hfee, (checkBumpFees_ok hfees).1, _, rfl, rfl⟩, rfl,
          feeAccount, checker, hfees, hload, hsigned, fun hcharging => ?_, hused⟩
        simpa [hcharging] using hbalance

/-- An envelope that reaches `applyInner` carries the transaction it is called
with. -/
theorem envelopeApplication_ok {d : Deps} {ledger : Ledger} {envelope : TransactionEnvelope}
    {passphrase : String} {validation : ValidationOptions} {a : Application}
    (h : envelopeApplication d ledger envelope passphrase validation = .ok a) :
    Unwrapped d envelope passphrase validation a := by
  cases envelope with
  | envelopeTypeTxV0 xdr => cases h
  | envelopeTypeTx v1 => exact (plainApplication_ok h).1
  | envelopeTypeTxFeeBump feeBump => exact (feeBumpApplication_ok h).1

/-! ## What the checks establish -/

/-- The account an operation runs as. -/
def Operation.sourceId (op : Operation) (raw : Transaction) : AccountId :=
  match op.sourceAccount with
  | some source => muxedToAccountId source
  | none => raw.sourceId

/-- The accounts the checks run against are the stored ones. -/
theorem loadSources_ok {ledger : Ledger} {raw : Transaction} {op : Operation} {src : Sources}
    (h : loadSources ledger raw op = .ok src) :
    loadAccount ledger raw.sourceId = .ok (some src.account) ∧
      src.invokerId = op.sourceId raw ∧ loadAccount ledger (op.sourceId raw) = .ok src.opAccount := by
  simp only [loadSources, Except.bind_eq_ok, Check.ofExcept_eq_ok] at h
  obtain ⟨account, haccount, h⟩ := h
  simp only [Operation.sourceId]
  split at h
  · cases h
  · split at h
    · next hnone =>
      cases h
      exact ⟨haccount, by rw [hnone], by rw [hnone]; exact haccount⟩
    · next source hsome =>
      simp only [Except.bind_eq_ok, Check.ofExcept_eq_ok] at h
      obtain ⟨opAccount, hop, h⟩ := h
      cases h
      exact ⟨haccount, by rw [hsome], by rw [hsome]; exact hop⟩

/-- The source account the checks hand over is the stored one. -/
theorem loadSources_account {ledger : Ledger} (hkeyed : ledger.store.Keyed) {raw : Transaction}
    {op : Operation} {src : Sources} (h : loadSources ledger raw op = .ok src) :
    ledger.store.account? raw.sourceId = some src.account := by
  have hload := (loadSources_ok h).1
  rw [loadAccount_keyed hkeyed] at hload
  exact Except.ok.inj hload

/-- The next sequence number is above the account's. -/
theorem lt_nextSeqNum {ledger : Ledger} {a : Application} {account : AccountEntry} {u : Unit}
    (h : checkSequence ledger a account = .ok u) : account.seqNum < a.nextSeqNum account := by
  simp only [checkSequence, Except.bind_eq_ok, Check.problem_eq_ok] at h
  obtain ⟨_, _, hseq⟩ := h
  simp only [Application.nextSeqNum]
  split
  · next hcheck =>
    rw [if_pos hcheck] at hseq
    exact lt_of_badSequence hseq
  · omega

/-- While fees are charged, the declared fee covers both parts of what the
declared resources cost. -/
theorem checkDeclaredFee_ok {d : Deps} {ledger : Ledger} {a : Application} {s : Shaped}
    {nonRefundable : Int} {charge : FeeCharge} (hcharge : a.charge = some charge)
    (h : checkDeclaredFee d ledger a s = .ok nonRefundable) :
    ∃ refundable, ledger.computeResourceFee d s.sorobanData a.txSize 0 s.op.body.isRestore =
        .ok (nonRefundable, refundable) ∧
      nonRefundable + refundable ≤ s.sorobanData.resourceFee := by
  simp only [checkDeclaredFee, hcharge, Except.bind_eq_ok, Check.ofExcept_eq_ok,
    Check.problem_eq_ok] at h
  obtain ⟨⟨n, refundable⟩, hfee, _, hle, h⟩ := h
  cases h
  refine ⟨refundable, hfee, ?_⟩
  split at hle
  · cases hle
  · next hlt => exact not_lt.mp hlt

/-- Both parts of the resource fee are the host's, under the installed
settings. -/
theorem computeResourceFee_ok {d : Deps} {ledger : Ledger} {data : SorobanTransactionData}
    {txSize eventsSize : Nat} {isRestore : Bool} {fee : Int × Int}
    (h : ledger.computeResourceFee d data txSize eventsSize isRestore = .ok fee) :
    ∃ settings resources, ledger.env.feeSettings = some settings ∧
      resources.contractEventsSizeBytes = eventsSize ∧
      fee = d.computeTransactionResourceFee resources settings.feeConfiguration := by
  simp only [Ledger.computeResourceFee, SorobanEnv.computeResourceFee, SorobanEnv.fees,
    Except.bind_eq_ok] at h
  obtain ⟨settings, hsettings, h⟩ := h
  cases h
  split at hsettings
  · next hsome =>
    cases hsettings
    exact ⟨settings, _, hsome, rfl, rfl⟩
  · cases hsettings

/-- The transaction is its one Soroban operation and its Soroban data. -/
theorem checkShape_ok {raw : Transaction} {s : Shaped} (h : checkShape raw = .ok s) :
    raw.operations = [s.op] ∧ s.op.body.isSoroban = true ∧
      raw.sorobanData? = some s.sorobanData ∧
      (s.op.body.isInvoke = true → hasMemoOrMuxed raw s.op = false) := by
  simp only [checkShape, Except.bind_eq_ok, Check.problem_eq_ok] at h
  obtain ⟨_, _, h⟩ := h
  split at h
  · cases h
  · next op rest hops =>
    simp only [Except.bind_eq_ok, Check.problem_eq_ok] at h
    obtain ⟨_, hone, _, hmemo, h⟩ := h
    split at h
    · cases h
    · next data hdata =>
      cases h
      split at hone
      · cases hone
      · next hsome =>
        split at hone
        · cases hone
        · next hall =>
          have hrest : rest = [] := by
            have : (op :: rest).length = 1 := by
              by_contra hlength
              exact hall (.inr hlength)
            simpa using this
          subst hrest
          refine ⟨hops, ?_, hdata, fun hinvoke => ?_⟩
          · by_contra hclassic
            exact hsome (by simp [hclassic])
          · simpa [hinvoke] using hmemo

/-- The bid of a plain envelope is at least the base fee over its resource
fee. -/
theorem checkFees_ok {ledger : Ledger} {a : Application} {s : Shaped} {u : Unit}
    (h : checkFees ledger a s = .ok u) (hplain : a.feeBumped = false) :
    baseFee ≤ a.raw.fee - s.sorobanData.resourceFee := by
  simp only [checkFees, Except.bind_eq_ok, Check.problem_eq_ok] at h
  obtain ⟨_, hmin, _⟩ := h
  simpa [hplain] using hmin

/-- A Soroban transaction's resource fee is in range. -/
theorem xdrProvidesValidFee_ok {raw : Transaction} {s : Shaped}
    (hshape : checkShape raw = .ok s) (h : xdrProvidesValidFee raw = none) :
    0 ≤ s.sorobanData.resourceFee ∧ s.sorobanData.resourceFee ≤ maxResourceFee := by
  obtain ⟨hops, hsoroban, hdata, -⟩ := checkShape_ok hshape
  simp only [xdrProvidesValidFee, hops, List.head?_cons, hsoroban, hdata] at h
  simpa using h

end LiteSoroban

import LiteSoroban.Classic.Switches
import LiteSoroban.Classic.Steps
import LiteSoroban.LiteStellar
import LiteSoroban.Rpc.FacadeSpec

/-!
# Submissions with nothing checked

`withoutClassicChecks` is meant to turn every switch off, and it forgets one:
fees are still charged.  With that one off as well, the range of the declared
resource fee and what it leaves for inclusion are still checked.  Where they
fit, a run of submissions, made directly or through an attached server, checks
no signature, no sequence number, no clock, no declared fee and no balance, and
it moves no balance but what the host moves.
-/

namespace LiteSoroban

open Effect

/-! ## Submissions -/

/-- What one `attachInProcessRpc` keeps: its two logs. -/
structure RpcServer where
  submitted : InsertionMap Hash SubmittedTx
  eventLog : List BufferedEvent

/-- A `LiteStellar` and the servers that `rpcServer` made for it. -/
structure Served where
  svm : LiteStellar
  servers : List RpcServer

/-- The RPC of a server, over the ledger and the switches as they are now. -/
def Served.rpc (w : Served) (server : RpcServer) : Rpc where
  ledger := w.svm.ledger
  validation := w.svm.validation
  submitted := server.submitted
  eventLog := server.eventLog

/-- What a request to a server leaves. -/
def Served.answered (w : Served) (place : Nat) (rpc : Rpc) : Served where
  svm := { w.svm with ledger := rpc.ledger }
  servers := w.servers.set place ⟨rpc.submitted, rpc.eventLog⟩

inductive SubmitOp where
  /-- `rpcServer()`. -/
  | rpcServer
  | sendTransaction (envelope : TransactionEnvelope)
  /-- `sendTransaction` of the server at a place among those made. -/
  | serverSendTransaction (place : Nat) (envelope : TransactionEnvelope)

inductive SubmitAnswer where
  | done
  | outcome (outcome : TxOutcome)
  | response (response : RpcResponse)
  | threw (e : Thrown)

/-- One operation. -/
def submitStep (d : Deps) (w : Served) : SubmitOp → SubmitAnswer × Served
  | .rpcServer => (.done, { w with servers := w.servers ++ [⟨.empty, []⟩] })
  | .sendTransaction envelope =>
    match LiteStellar.sendTransaction d envelope w.svm with
    | .ok outcome svm => (.outcome outcome, { w with svm := svm })
    | .error e svm => (.threw e, { w with svm := svm })
  | .serverSendTransaction place envelope =>
    match w.servers[place]? with
    | none => (.done, w)
    | some server =>
      match Rpc.sendTransaction d envelope (w.rpc server) with
      | .ok response rpc => (.response response, w.answered place rpc)
      | .error e rpc => (.threw (.error e), w.answered place rpc)

/-- The machine of a run of submissions. -/
def submissions (d : Deps) : Machine Served SubmitOp SubmitAnswer := ⟨submitStep d⟩

/-- The envelope an operation submits. -/
def SubmitOp.envelope? : SubmitOp → Option TransactionEnvelope
  | .rpcServer => none
  | .sendTransaction envelope => some envelope
  | .serverSendTransaction _ envelope => some envelope

/-! ## What the classic layer moves -/

/-- Every account has the balance it had. -/
def Store.SameBalances (store store' : Store) : Prop :=
  ∀ id, store'.balance? id = store.balance? id

/-- Every balance is what it was, or what one call of the host has made of it.
The call is made on the ledger with a sequence number bumped, and the bump
moves no balance. -/
def MovesNoBalance (d : Deps) (ledger : Ledger) (store' : Store) : Prop :=
  ledger.store.SameBalances store' ∨ ∃ id seqNum args,
    let bumped := finalState (bumpSequence d id seqNum ledger)
    ledger.store.SameBalances bumped.store ∧ store' = (finalState (bumped.env.send d args)).store

theorem Store.SameBalances.refl (store : Store) : store.SameBalances store := fun _ => rfl

/-- Without a charge, a bump is the one rewrite of an account. -/
theorem commit_movesNoBalance {d : Deps} {ledger : Ledger} (hkeyed : ledger.store.Keyed)
    {a : Application} {v : Validated} (hcharge : a.charge = none)
    (hvalid : validate d ledger a = .ok v) :
    MovesNoBalance d ledger (finalState (commit d a v ledger)).store := by
  obtain ⟨c₁, c₂, hpassed⟩ := validate_ok hvalid
  obtain ⟨-, hsoroban, -⟩ := checkShape_ok hpassed.shape
  -- Nothing is debited before the operation, and nothing settled after it.
  have hrun : finalState (commit d a v ledger) =
      finalState ((bumpSequence d a.raw.sourceId (a.nextSeqNum v.account) >>= fun _ =>
        runOperation d v none) ledger) := by
    simp only [commit, commitClassic, hcharge, settle, Option.map_none, bind_assoc, pure_bind]
    simp only [bind, EStateM.bind]
    cases bumpSequence d a.raw.sourceId (a.nextSeqNum v.account) ledger with
    | error e mid => rfl
    | ok u mid =>
      simp only
      cases runOperation d v none mid <;> rfl
  rw [hrun]
  simp only [bind, EStateM.bind]
  cases hbump : bumpSequence d a.raw.sourceId (a.nextSeqNum v.account) ledger with
  | error e mid =>
    rw [rewriteAccount_error hbump]
    exact .inl (.refl _)
  | ok u mid =>
    have hmid := bumpSequence_ok hkeyed hbump
    have hsame : ledger.store.SameBalances mid.store := hmid.balance_bumped
    simp only
    rcases runOperation_final d v none mid with hstay | ⟨hinvoke, moves, hselected, hput⟩ |
      ⟨hostFunction, auth, -, hcall⟩
    · rw [hstay]
      exact .inl hsame
    · obtain ⟨moved, hok, hmoved⟩ :=
        putMoves_selected hmid.keyed hinvoke hsoroban hpassed.footprintOp hselected
      rw [hput, hok]
      refine .inl fun id => ?_
      rw [finalState_ok, Store.balance?, hmoved.account?]
      exact hsame id
    · rw [hcall]
      refine .inr ⟨a.raw.sourceId, a.nextSeqNum v.account, invokeArgs v hostFunction auth none, ?_,
        ?_⟩
      · rw [hbump]
        exact hsame
      · rw [hbump]
        rfl

/-! ## Refusals -/

/-- The declared resource fee is in the range of the XDR, the full fee covers
it, and leaves the least inclusion fee, unless it is below that by itself. -/
structure TransactionEnvelope.ResourceFeeFits (envelope : TransactionEnvelope) : Prop where
  range : ∀ raw, envelope.innerTx? = some raw →
    0 ≤ declaredResourceFee raw ∧ declaredResourceFee raw ≤ maxResourceFee
  covered : ∀ raw, envelope.innerTx? = some raw → 0 ≤ envelope.fullFee →
    declaredResourceFee raw ≤ envelope.fullFee
  inclusion : ∀ raw, envelope.innerTx? = some raw →
    minInclusion (chargedOperations envelope raw) ≤ envelope.fullFee →
    minInclusion (chargedOperations envelope raw) ≤ envelope.fullFee - declaredResourceFee raw

/-- What refuses an envelope while every switch is off.  None of it is the
declared resource fee. -/
inductive StillRefused (d : Deps) (ledger : Ledger) (envelope : TransactionEnvelope)
    (refusal : TxOutcome) : Prop
  | version (xdr : Bytes) : envelope = .envelopeTypeTxV0 xdr → refusal.code = .txMALFORMED →
      StillRefused d ledger envelope refusal
  | negativeFee : envelope.fullFee < 0 → refusal.code = .txMALFORMED →
      StillRefused d ledger envelope refusal
  | noSorobanData (raw : Transaction) : envelope.innerTx? = some raw → raw.sorobanData? = none →
      refusal.code = .txMALFORMED → StillRefused d ledger envelope refusal
  /-- The full fee is too low whatever the resource fee is. -/
  | lowFee (raw : Transaction) : envelope.innerTx? = some raw →
      envelope.fullFee < minInclusion (chargedOperations envelope raw) →
      refusal.code = .txINSUFFICIENT_FEE → StillRefused d ledger envelope refusal
  /-- The full fees do not raise the rate. -/
  | lowRate (feeBump : FeeBumpTransactionEnvelope) (operations : Nat) :
      envelope = .envelopeTypeTxFeeBump feeBump →
      feeBump.tx.innerTx.tx.operations.length = operations →
      feeBump.tx.fee * minInclusion operations <
        feeBump.tx.innerTx.tx.fee * minInclusion (operations + 1) →
      refusal.code = .txINSUFFICIENT_FEE → StillRefused d ledger envelope refusal
  | shape (raw : Transaction) : envelope.innerTx? = some raw →
      checkShape raw = .error (.reject refusal) → StillRefused d ledger envelope refusal
  | resources (raw : Transaction) (s : Shaped) (txSize : Nat) (problem : String) :
      envelope.innerTx? = some raw → checkShape raw = .ok s →
      sorobanResourcesProblem d ledger.fees s.sorobanData txSize s.op.body.isRestore =
        some problem →
      refusal = fail .txSOROBAN_INVALID (some problem) 0 → StillRefused d ledger envelope refusal
  | noAccount : refusal.code = .txNO_ACCOUNT → StillRefused d ledger envelope refusal
  | startingSequence : StartsSequence ledger envelope → refusal.code = .txBAD_SEQ →
      StillRefused d ledger envelope refusal
  | footprintOp (raw : Transaction) (s : Shaped) : envelope.innerTx? = some raw →
      checkShape raw = .ok s → checkFootprintOp ledger s = .error (.reject refusal) →
      StillRefused d ledger envelope refusal

/-- Every switch is off. -/
structure ValidationOptions.AllOff (validation : ValidationOptions) : Prop where
  sigverify : validation.sigverify = false
  sequenceCheck : validation.sequenceCheck = false
  feeCharging : validation.feeCharging = false
  timebounds : validation.timebounds = false

section Refusals

variable {d : Deps} {ledger : Ledger} {passphrase : String} {validation : ValidationOptions}

/-- With a fee in range, what `xdrProvidesValidFee` misses is the data. -/
theorem sorobanData?_of_badFee {raw : Transaction} {problem : String}
    (h : xdrProvidesValidFee raw = some problem)
    (hrange : 0 ≤ declaredResourceFee raw ∧ declaredResourceFee raw ≤ maxResourceFee) :
    raw.sorobanData? = none := by
  cases hdata : raw.sorobanData? with
  | none => rfl
  | some data =>
    simp only [declaredResourceFee, hdata] at hrange
    unfold xdrProvidesValidFee at h
    rw [hdata] at h
    cases hfirst : raw.operations.head? with
    | none =>
      rw [hfirst] at h
      cases h
    | some first =>
      rw [hfirst] at h
      dsimp only at h
      split at h
      · cases h
      · rw [if_neg (by omega)] at h
        cases h

/-- With a fee that is covered, an inclusion fee is negative with the full
fee. -/
theorem negative_of_queueFee {fullFee resourceFee : Int} {problem : String}
    (h : negativeInclusionFee fullFee resourceFee = some problem)
    (hcovered : 0 ≤ fullFee → resourceFee ≤ fullFee) : fullFee < 0 := by
  unfold negativeInclusionFee at h
  dsimp only at h
  split at h
  · omega
  · cases h

theorem plainApplication_stillRefuses (ledger : Ledger) {v1 : TransactionV1Envelope}
    (hfits : (TransactionEnvelope.envelopeTypeTx v1).ResourceFeeFits) :
    (plainApplication d passphrase validation v1).RejectsAs
      (StillRefused d ledger (.envelopeTypeTx v1)) := by
  refine .bind (.ofExcept _) fun _ _ => ?_
  dsimp only
  split
  · next hfee =>
    exact .error (.noSorobanData v1.tx rfl (sorobanData?_of_badFee hfee (hfits.range _ rfl)) rfl)
  · split
    · next hqueue =>
      exact .error (.negativeFee (negative_of_queueFee hqueue (hfits.covered _ rfl)) rfl)
    · exact .ok _

/-- A resource fee lowers both inclusion fees of a fee bump, and the rate of
the inner transaction more. -/
theorem rate_of_inclusionRate {operations : Nat} {fee innerFee resourceFee : Int}
    (h : (fee - resourceFee) * minInclusion operations <
      (innerFee - resourceFee) * minInclusion (operations + 1)) (hfee : 0 ≤ resourceFee) :
    fee * minInclusion operations < innerFee * minInclusion (operations + 1) := by
  have hmore : minInclusion operations ≤ minInclusion (operations + 1) := by
    unfold minInclusion baseFee
    omega
  have hlowered := Int.mul_le_mul_of_nonneg_left hmore hfee
  rw [Int.sub_mul, Int.sub_mul] at h
  omega

theorem checkBumpFees_stillRefuses (ledger : Ledger) {feeBump : FeeBumpTransactionEnvelope}
    (hfits : (TransactionEnvelope.envelopeTypeTxFeeBump feeBump).ResourceFeeFits) :
    (checkBumpFees feeBump.tx).RejectsAs
      (StillRefused d ledger (.envelopeTypeTxFeeBump feeBump)) := by
  simp only [checkBumpFees]
  split
  · next hqueue =>
    exact .error (.negativeFee (negative_of_queueFee hqueue (hfits.covered _ rfl)) rfl)
  · refine .bind (.problem fun _ hproblem => .lowFee _ rfl ?_ rfl) fun _ _ =>
      .ite (fun hrate => .error (.lowRate feeBump _ rfl rfl ?_ rfl)) fun _ => .ok ()
    · by_contra henough
      have hleft : minInclusion (feeBump.tx.innerTx.tx.operations.length + 1) ≤
          feeBump.tx.fee - declaredResourceFee feeBump.tx.innerTx.tx :=
        hfits.inclusion _ rfl (not_lt.mp henough)
      rw [if_neg (not_lt.mpr hleft)] at hproblem
      cases hproblem
    · exact rate_of_inclusionRate hrate.2 (hfits.range _ rfl).1

theorem feeBumpApplication_stillRefuses (hoff : validation.AllOff)
    {feeBump : FeeBumpTransactionEnvelope}
    (hfits : (TransactionEnvelope.envelopeTypeTxFeeBump feeBump).ResourceFeeFits) :
    (feeBumpApplication d ledger passphrase validation feeBump).RejectsAs
      (StillRefused d ledger (.envelopeTypeTxFeeBump feeBump)) := by
  simp only [feeBumpApplication, hoff.sigverify, hoff.feeCharging]
  refine .bind (.ofExcept _) fun _ _ => .bind (.ofExcept _) fun _ _ =>
    .ite (fun hnegative => .error (.negativeFee hnegative rfl)) fun _ => ?_
  split
  · next hfee =>
    exact .error (.noSorobanData _ rfl (sorobanData?_of_badFee hfee (hfits.range _ rfl)) rfl)
  · refine .bind (checkBumpFees_stillRefuses ledger hfits) fun _ _ =>
      .bind (.ofExcept _) fun account _ => ?_
    split
    · exact .error (.noAccount rfl)
    · exact .bind (.ok none) fun checker hsigned => .bind (.ok ()) fun _ _ =>
        .bind ((checkAllUsed_rejectsAs ..).mono fun _ h => by
          cases hsigned
          cases h.1) fun _ _ => .ok _

theorem envelopeApplication_stillRefuses (hoff : validation.AllOff)
    {envelope : TransactionEnvelope} (hfits : envelope.ResourceFeeFits) :
    (envelopeApplication d ledger envelope passphrase validation).RejectsAs
      (StillRefused d ledger envelope) := by
  cases envelope with
  | envelopeTypeTxV0 xdr => exact .error (.version xdr rfl rfl)
  | envelopeTypeTx v1 => exact plainApplication_stillRefuses ledger hfits
  | envelopeTypeTxFeeBump feeBump => exact feeBumpApplication_stillRefuses hoff hfits

/-- The bid of a plain transaction that is checked has one operation to cover. -/
theorem Unwrapped.lowFee {envelope : TransactionEnvelope} {a : Application}
    (h : Unwrapped d envelope passphrase validation a) {s : Shaped}
    (hshape : checkShape a.raw = .ok s) (hfits : envelope.ResourceFeeFits)
    (hplain : a.feeBumped = false) (hunder : a.raw.fee - s.sorobanData.resourceFee < baseFee) :
    envelope.fullFee < minInclusion (chargedOperations envelope a.raw) := by
  obtain ⟨hops, -, hdata, -⟩ := checkShape_ok hshape
  have hinner := h.innerTx
  have hbumped := h.feeBumped
  have hresourceFee : declaredResourceFee a.raw = s.sorobanData.resourceFee := by
    unfold declaredResourceFee
    rw [hdata]
  rw [hplain] at hbumped
  have hone : minInclusion (chargedOperations envelope a.raw) = baseFee := by
    unfold chargedOperations
    rw [← hbumped, hops]
    rfl
  have hfull : envelope.fullFee = a.raw.fee := by
    cases envelope with
    | envelopeTypeTxV0 xdr => cases hinner
    | envelopeTypeTx v1 =>
      rw [← Option.some.inj hinner]
      rfl
    | envelopeTypeTxFeeBump feeBump => cases hbumped
  by_contra henough
  have hleft := hfits.inclusion a.raw hinner (not_lt.mp henough)
  rw [hone, hresourceFee, hfull] at hleft
  omega

theorem validate_stillRefuses (hoff : validation.AllOff) {envelope : TransactionEnvelope}
    (hfits : envelope.ResourceFeeFits) {a : Application}
    (h : Unwrapped d envelope passphrase validation a) (hcharge : a.charge = none) :
    (validate d ledger a).RejectsAs (StillRefused d ledger envelope) := by
  have hchecker : ¬ a.checker.isSome := by
    rw [a.checker_isSome, h.switches, hoff.sigverify]
    decide
  have hbounds : a.validation.timebounds = false := by rw [h.switches, hoff.timebounds]
  have hsequence : a.validation.sequenceCheck = false := by rw [h.switches, hoff.sequenceCheck]
  rw [validate_eq]
  refine .bind (.bind ⟨fun _ hshape => .shape a.raw h.innerTx hshape⟩ fun s hshape =>
      .bind (.problem fun problem hproblem => .resources a.raw s _ problem h.innerTx hshape hproblem
        rfl) fun _ _ =>
      .bind ((checkDeclaredFee_rejectsAs ..).mono ?_) fun _ _ =>
      .bind ((checkBounds_rejectsAs ..).mono ?_) fun _ _ => .ok _) fun (s, nonRefundable) hpre =>
    .bind ((accountChecks_rejectsAs ..).mono ?_) fun (src, checker) haccount =>
    .bind ((checkFees_rejectsAs ..).mono ?_) fun _ _ =>
    .bind ?_ fun _ _ => .ok _
  · rintro refusal ⟨hcharged, -⟩
    rw [hcharge] at hcharged
    cases hcharged
  · rintro refusal ⟨hon, -⟩
    rw [hbounds] at hon
    cases hon
  · rintro refusal (hrejects | ⟨hon | hstart, hrejects⟩ | ⟨hon, -⟩ | ⟨hon, -⟩)
    · exact .noAccount (List.mem_singleton.mp hrejects.code)
    · rw [hsequence] at hon
      cases hon
    · exact .startingSequence ⟨a.raw, h.innerTx, hstart⟩ (List.mem_singleton.mp hrejects.code)
    · rw [hbounds] at hon
      cases hon
    · exact absurd hon hchecker
  · have hshape := preSequenceChecks_shape hpre
    rintro refusal (⟨⟨hplain, hunder⟩, hrejects⟩ | ⟨hcharged, -⟩)
    · exact .lowFee a.raw h.innerTx (h.lowFee hshape hfits hplain hunder)
        (List.mem_singleton.mp hrejects.code)
    · rw [hcharge] at hcharged
      cases hcharged
  · have hshape := preSequenceChecks_shape hpre
    have hnone : ¬ checker.isSome := by
      rw [accountChecks_isSome haccount]
      exact hchecker
    refine .bind ((signOperation_rejectsAs ..).mono fun _ hrejects => absurd hrejects.1 hnone)
      fun checker' hsigned =>
      .bind ⟨fun _ hfootprint => .footprintOp a.raw s h.innerTx hshape hfootprint⟩ fun _ _ =>
      (checkAllUsed_rejectsAs ..).mono fun _ hrejects => absurd hrejects.1 ?_
    rw [signOperation_isSome hsigned]
    exact hnone

end Refusals

/-! ## One submission -/

/-- The checks and the charges that are off.  The sequence number that
`CreateAccount` would hand out is no question of range, and stays refused. -/
structure UncheckedSubmission (d : Deps) (ledger : Ledger) (envelope : TransactionEnvelope)
    (passphrase : String) (validation : ValidationOptions) : Prop where
  /-- Not rejected for signatures, sequence, clock or balance. -/
  verdict : ∀ outcome ledger',
    applyTransaction d envelope passphrase validation ledger = .ok outcome ledger' →
    HeedsSwitches ⟨false, false, false, false⟩ (StartsSequence ledger envelope) outcome.codes
      outcome.opCode
  /-- Not rejected for the declared resource fee: something else refuses the
  envelope, or its inner transaction. -/
  refusal : ∀ outcome ledger',
    applyTransaction d envelope passphrase validation ledger = .ok outcome ledger' →
    outcome.rejected = true → ∃ refusal, StillRefused d ledger envelope refusal ∧
      (outcome = seedFee envelope refusal ∨
        envelope.isFeeBump = true ∧ outcome = seedFee envelope (bumpOutcome refusal))
  feeCharged : ∀ outcome ledger',
    applyTransaction d envelope passphrase validation ledger = .ok outcome ledger' →
    outcome.rejected = false → outcome.feeCharged = 0
  balances : MovesNoBalance d ledger
    (finalState (applyTransaction d envelope passphrase validation ledger)).store

theorem ValidationOptions.AllOff.eq {validation : ValidationOptions} (h : validation.AllOff) :
    validation = ⟨false, false, false, false⟩ := by
  obtain ⟨sigverify, sequenceCheck, feeCharging, timebounds⟩ := validation
  obtain ⟨rfl, rfl, rfl, rfl⟩ := h
  rfl

/-- Nobody is charged. -/
theorem ValidationOptions.AllOff.charge {validation : ValidationOptions} (h : validation.AllOff)
    {d : Deps} {ledger : Ledger} {envelope : TransactionEnvelope} {passphrase : String}
    {a : Application} (happ : envelopeApplication d ledger envelope passphrase validation = .ok a) :
    a.charge = none := by
  obtain ⟨payer, -, hcharge⟩ := (envelopeApplication_ok happ).charge
  rw [hcharge, h.feeCharging]
  rfl

theorem applyTransaction_movesNoBalance {d : Deps} {ledger : Ledger} (hkeyed : ledger.store.Keyed)
    (envelope : TransactionEnvelope) (passphrase : String) {validation : ValidationOptions}
    (hoff : validation.AllOff) :
    MovesNoBalance d ledger
      (finalState (applyTransaction d envelope passphrase validation ledger)).store := by
  have hend := applyTransaction_end d envelope passphrase validation ledger
  generalize applyTransaction d envelope passphrase validation ledger = run at hend ⊢
  cases hend with
  | envelopeRejected happ => exact .inl (.refl _)
  | envelopeThrew happ => exact .inl (.refl _)
  | rejected happ hval => exact .inl (.refl _)
  | threw happ hval => exact .inl (.refl _)
  | committed happ hval hcommit =>
    have hmoves := commit_movesNoBalance hkeyed (hoff.charge happ) hval
    rw [hcommit] at hmoves
    exact hmoves
  | commitThrew happ hval hcommit =>
    have hmoves := commit_movesNoBalance hkeyed (hoff.charge happ) hval
    rw [hcommit] at hmoves
    exact hmoves

theorem uncheckedSubmission {d : Deps} {ledger : Ledger} (hkeyed : ledger.store.Keyed)
    {envelope : TransactionEnvelope} (hfits : envelope.ResourceFeeFits) (passphrase : String)
    {validation : ValidationOptions} (hoff : validation.AllOff) :
    UncheckedSubmission d ledger envelope passphrase validation := by
  refine ⟨fun outcome ledger' h => ?_, fun outcome ledger' h hrejected => ?_,
    fun outcome ledger' h haccepted => ?_,
    applyTransaction_movesNoBalance hkeyed envelope passphrase hoff⟩
  · have hheeds := applyTransaction_heeds h
    rw [hoff.eq] at hheeds
    exact hheeds
  · rcases applyTransaction_rejected h hrejected with
      ⟨refusal, happ, hreport⟩ | ⟨a, refusal, happ, hval, hreport⟩
    · exact ⟨refusal, (envelopeApplication_stillRefuses hoff hfits).carries refusal happ,
        .inl hreport⟩
    · refine ⟨refusal, ?_, ?_⟩
      · exact (validate_stillRefuses hoff hfits (envelopeApplication_ok happ)
          (hoff.charge happ)).carries refusal hval
      · by_cases hbumped : a.feeBumped = true
        · rw [if_pos hbumped] at hreport
          refine .inr ⟨?_, hreport⟩
          rw [← (envelopeApplication_ok happ).feeBumped, hbumped]
        · rw [if_neg hbumped] at hreport
          exact .inl hreport
  · rcases applyTransaction_ok h with ⟨hrejected, -⟩ | ⟨-, a, v, l₁, l₂, op, hstages⟩
    · rw [haccepted] at hrejected
      cases hrejected
    · rw [hstages.feeCharged.2.1, hoff.charge hstages.application]

/-! ## Runs -/

/-- An operation that submits an envelope submits it unchecked, and the ledger
it leaves has the balances the application left. -/
structure UncheckedStep (d : Deps) (w : Served) (op : SubmitOp) : Prop where
  submission : ∀ envelope, op.envelope? = some envelope →
    UncheckedSubmission d w.svm.ledger envelope w.svm.ledger.networkPassphrase w.svm.validation
  balances : MovesNoBalance d w.svm.ledger ((submissions d).next w op).svm.ledger.store

/-- The ledger after a submission to a server is the one it was, or the one the
application left, which may be a ledger further on. -/
theorem serverSendTransaction_store (d : Deps) (envelope : TransactionEnvelope) (rpc : Rpc) :
    let final := finalState (Rpc.sendTransaction d envelope rpc)
    final.ledger.store = rpc.ledger.store ∨
      final.ledger.store = (finalState (applyTransaction d envelope rpc.ledger.networkPassphrase
        rpc.validation rpc.ledger)).store := by
  intro final
  show (finalState (Rpc.sendTransaction d envelope rpc)).ledger.store = _ ∨
    (finalState (Rpc.sendTransaction d envelope rpc)).ledger.store = _
  cases hsend : Rpc.sendTransaction d envelope rpc with
  | error e rpc' =>
    rcases sendTransaction_error hsend with ⟨rfl, -⟩ | ⟨logged, rfl⟩
    · exact .inl rfl
    · exact .inr rfl
  | ok response rpc' =>
    obtain ⟨_, _, outcome, ledger, -, happly, hdone⟩ := sendTransaction_ok hsend
    rcases hdone with ⟨-, -, rfl, -⟩ | ⟨-, hrecorded, -⟩
    · exact .inl rfl
    · refine .inr ?_
      rw [happly, finalState_ok, finalState_ok, hrecorded.ledger]
      rfl

/-- An operation moves the ledger and nothing else of the facade.  The store is
as it was, or as an application leaves it. -/
theorem submissions_next (d : Deps) (w : Served) (op : SubmitOp) :
    ∃ ledger, ((submissions d).next w op).svm = { w.svm with ledger := ledger } ∧
      (ledger.store = w.svm.ledger.store ∨ ∃ envelope, op.envelope? = some envelope ∧
        ledger.store = (finalState (applyTransaction d envelope
          w.svm.ledger.networkPassphrase w.svm.validation w.svm.ledger)).store) := by
  cases op with
  | rpcServer => exact ⟨w.svm.ledger, rfl, .inl rfl⟩
  | sendTransaction envelope =>
    refine ⟨_, ?_, .inr ⟨envelope, rfl, rfl⟩⟩
    simp only [Machine.next, submissions, submitStep, LiteStellar.sendTransaction,
      LiteStellarM.ofLedger, bind, EStateM.bind, get, getThe, Effect.get_run]
    cases applyTransaction d envelope w.svm.ledger.networkPassphrase w.svm.validation
      w.svm.ledger <;> rfl
  | serverSendTransaction place envelope =>
    simp only [Machine.next, submissions, submitStep]
    cases w.servers[place]? with
    | none => exact ⟨w.svm.ledger, rfl, .inl rfl⟩
    | some server =>
      have hstore := serverSendTransaction_store d envelope (w.rpc server)
      simp only
      cases hsend : Rpc.sendTransaction d envelope (w.rpc server) with
      | ok response rpc =>
        rw [hsend] at hstore
        exact ⟨rpc.ledger, rfl, hstore.imp_right fun h => ⟨envelope, rfl, h⟩⟩
      | error e rpc =>
        rw [hsend] at hstore
        exact ⟨rpc.ledger, rfl, hstore.imp_right fun h => ⟨envelope, rfl, h⟩⟩

/-- The envelope that is submitted, if one is, declares a resource fee that
fits. -/
def SubmitOp.Fits (op : SubmitOp) : Prop :=
  ∀ envelope, op.envelope? = some envelope → envelope.ResourceFeeFits

/-- With every switch off, over a keyed store, an operation is unchecked. -/
theorem uncheckedStep {d : Deps} {w : Served} (hkeyed : w.svm.ledger.store.Keyed)
    (hoff : w.svm.validation.AllOff) {op : SubmitOp} (hop : op.Fits) : UncheckedStep d w op := by
  refine ⟨fun envelope henvelope => uncheckedSubmission hkeyed (hop envelope henvelope) _ hoff, ?_⟩
  obtain ⟨ledger, hnext, hsame | ⟨envelope, -, happlied⟩⟩ := submissions_next d w op
  · rw [hnext, hsame]
    exact .inl (.refl _)
  · rw [hnext, happlied]
    exact applyTransaction_movesNoBalance hkeyed envelope _ hoff

/-- On a `LiteStellar` that checks nothing and charges nothing, every
submission of a run whose resource fees fit goes unchecked and moves no balance
of its own. -/
theorem withoutClassicChecks_unchecked {d : Deps} (hhost : d.ReturnsKeyed) {svm : LiteStellar}
    (hkeyed : svm.ledger.store.Keyed) (hfees : svm.validation.feeCharging = false)
    {ops : List SubmitOp} (hops : ∀ op ∈ ops, op.Fits) :
    (submissions d).AllSteps (UncheckedStep d) ⟨svm.withoutClassicChecks, []⟩ ops := by
  refine @Machine.AllSteps.of_invariant _ _ _ (submissions d)
    (fun w => w.svm.ledger.store.Keyed ∧ w.svm.validation.AllOff) (fun _ op => op.Fits) _
    (fun w op hw _ => ⟨?_, ?_⟩) (fun w op hw hop => uncheckedStep hw.1 hw.2 hop) _ _
    ⟨hkeyed, ⟨rfl, rfl, hfees, rfl⟩⟩
    ((submissions d).allSteps_of_mem _ fun op hop _ => hops op hop)
  · obtain ⟨ledger, hnext, hsame | ⟨envelope, -, happlied⟩⟩ := submissions_next d w op
    · rw [hnext, hsame]
      exact hw.1
    · rw [hnext, happlied]
      exact applyTransaction_keyed hhost hw.1 envelope _ _
  · obtain ⟨ledger, hnext, -⟩ := submissions_next d w op
    rw [hnext]
    exact hw.2

/-- `sampleEnvelope` with a bid and a declared resource fee. -/
def sampleDeclared (fee : Nat) (resourceFee seqNum : Int) : TransactionV1Envelope :=
  let envelope := sampleEnvelope 7 seqNum none
  { envelope with
    tx := { envelope.tx with
      fee := fee
      ext := .sorobanData ⟨.v0, ⟨⟨[], []⟩, 0, 0, 0⟩, resourceFee⟩ } }

theorem sampleDeclared_fits {fee : Nat} {resourceFee : Int} (seqNum : Int)
    (hrange : 0 ≤ resourceFee ∧ resourceFee ≤ maxResourceFee)
    (hleaves : baseFee ≤ fee - resourceFee) :
    TransactionEnvelope.ResourceFeeFits
      (.envelopeTypeTx (sampleDeclared fee resourceFee seqNum)) where
  range raw hraw := by
    cases hraw
    exact hrange
  covered raw hraw _ := by
    cases hraw
    show resourceFee ≤ (fee : Int)
    unfold baseFee at hleaves
    omega
  inclusion raw hraw _ := by
    cases hraw
    exact hleaves

/-- With fees still charged, the first envelope that is accepted pays.  With
every switch off, a bid below the resource fee is refused for it. -/
theorem withoutClassicChecks_charges :
    (¬ ∀ (svm : LiteStellar) (ops : List SubmitOp), svm.ledger.store.Keyed →
      (submissions .idle).AllSteps (UncheckedStep .idle) ⟨svm.withoutClassicChecks, []⟩ ops) ∧
    ¬ ∀ (svm : LiteStellar) (ops : List SubmitOp), svm.ledger.store.Keyed →
      svm.validation.feeCharging = false →
      (submissions .idle).AllSteps (UncheckedStep .idle) ⟨svm.withoutClassicChecks, []⟩ ops := by
  constructor
  · intro hclaim
    have hstep := (hclaim ⟨sampleLedger 7, {}, none, 0, 0⟩
      [.sendTransaction (.envelopeTypeTx (sampleEnvelope 7 1 none))] (sampleLedger_keyed 7)).1
    have hfree := (hstep.submission _ rfl).feeCharged _ _ rfl rfl
    revert hfree
    decide
  · intro hclaim
    have hstep := (hclaim (.withFeeCharging false ⟨sampleLedger 7, {}, none, 0, 0⟩)
      [.sendTransaction (.envelopeTypeTx (sampleDeclared 100 101 1))] (sampleLedger_keyed 7) rfl).1
    obtain ⟨refusal, hrefused, hreport⟩ := (hstep.submission _ rfl).refusal _ _ rfl (by decide)
    have hcode : refusal.code = .txMALFORMED := by
      rcases hreport with hseeded | ⟨hbumped, -⟩
      · rw [← seedFee_code, ← hseeded]
        rfl
      · cases hbumped
    -- Nothing but its resource fee is wrong with the envelope.
    cases hrefused with
    | version xdr henvelope => cases henvelope
    | negativeFee hnegative => exact absurd hnegative (by decide)
    | noSorobanData raw hraw hdata =>
      cases hraw
      cases hdata
    | lowFee raw hraw hlow =>
      cases hraw
      exact absurd hlow (by decide)
    | lowRate feeBump operations henvelope => cases henvelope
    | shape raw hraw hshape =>
      cases hraw
      cases hshape
    | resources raw s txSize problem hraw hshape hproblem hrefusal =>
      rw [hrefusal] at hcode
      cases hcode
    | noAccount hnone =>
      rw [hnone] at hcode
      cases hcode
    | startingSequence hstart hsequence =>
      rw [hsequence] at hcode
      cases hcode
    | footprintOp raw s hraw hshape hfootprint =>
      cases hraw
      cases hshape
      cases hfootprint

/-- One envelope, directly and through a server, with fees off as well. -/
theorem withoutClassicChecks_unchecked_free :
    (submissions .idle).AllSteps (UncheckedStep .idle)
      ⟨(LiteStellar.withFeeCharging false
        ⟨sampleLedger 7, {}, none, 0, 0⟩).withoutClassicChecks, []⟩
      [.sendTransaction (.envelopeTypeTx (sampleDeclared 1100 1000 1)), .rpcServer,
        .serverSendTransaction 0 (.envelopeTypeTx (sampleDeclared 1100 1000 2))] :=
  withoutClassicChecks_unchecked idle_returnsKeyed (sampleLedger_keyed 7) rfl
    (by
      intro op hop envelope henvelope
      have hsample : ∃ seqNum, .envelopeTypeTx (sampleDeclared 1100 1000 seqNum) = envelope := by
        simp only [List.mem_cons, List.not_mem_nil, or_false] at hop
        rcases hop with rfl | rfl | rfl
        · exact ⟨1, Option.some.inj henvelope⟩
        · cases henvelope
        · exact ⟨2, Option.some.inj henvelope⟩
      obtain ⟨seqNum, rfl⟩ := hsample
      exact sampleDeclared_fits seqNum (by decide) (by decide))

end LiteSoroban

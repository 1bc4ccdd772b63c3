import LiteSoroban.Classic.FootprintApplied
import LiteSoroban.Rpc.Results
import LiteSoroban.Session.Steps

/-!
# The results of a session

`sendTransaction` keeps the result, the metadata and the envelope of a
transaction side by side, and `getTransaction` and `getTransactions` answer
them later, whatever has happened to the ledger since.

`session_results` is about every answer of every run.  A record's parts agree
with each other: its result fits its envelope and names its hashes, its status
is what its result says, and the hash of the call's result is that of the
return value in the metadata.  An `ERROR` carries a result that fits the
envelope too, and never says success.
-/

namespace LiteSoroban

open Effect

/-! ## A record -/

/-- The results of the operations, for a fee bump those of the transaction
inside. -/
def TransactionResult.operationResults (result : TransactionResult) : List OperationResult :=
  match result.inner with
  | some (_, arm) => arm.operations.getD []
  | none => result.operations.getD []

/-- The hash of the return value in the metadata. -/
def TransactionMeta.returned (d : Deps) (resultMeta : TransactionMeta) : Hash :=
  match resultMeta.returnValue with
  | some value => d.sha256 value.xdr
  | none => List.replicate 32 0

/-- The parts of a record agree. -/
structure RawTransaction.Consistent (d : Deps) (passphrase : String) (tx : RawTransaction) :
    Prop where
  result : ∃ innerHash, Rpc.envelopeHashes d passphrase tx.envelope = .ok (tx.txHash, innerHash) ∧
    tx.result.Answers innerHash tx.envelope
  applied : ¬ tx.result.Refuses
  succeeded : tx.succeeded = tx.result.succeeded
  feeBump : tx.feeBump = tx.envelope.isFeeBump
  returned : ∀ hash, .invokeHostFunctionSuccess hash ∈ tx.result.operationResults →
    hash = tx.resultMeta.returned d

/-- Only a fee bump that was applied has a fee bump's code. -/
theorem TransactionResult.Answers.isFeeBump {innerHash : Hash} {result : TransactionResult}
    {envelope : TransactionEnvelope} (h : result.Answers innerHash envelope)
    (happlied : ¬ result.Refuses) : result.code.isFeeBump = envelope.isFeeBump := by
  cases envelope with
  | envelopeTypeTxV0 xdr => exact absurd h happlied
  | envelopeTypeTx v1 => exact h.2.code
  | envelopeTypeTxFeeBump feeBump =>
    obtain ⟨arm, -, -, -, hcode⟩ := h.resolve_left happlied
    rw [hcode]
    split <;> rfl

/-- A call that succeeded answers the hash of its return value. -/
theorem operationResults_returned {d : Deps} {outcome : TxOutcome} {hash : Hash}
    (h : .invokeHostFunctionSuccess hash ∈ operationResults d outcome) :
    hash = outcome.returned d := by
  unfold operationResults at h
  split at h
  · simp at h
  · simp at h
  · simp at h
  · dsimp only at h
    split at h
    · exact OperationResult.invokeHostFunctionSuccess.inj (List.mem_singleton.mp h)
    · simp at h

theorem transactionResult_returned {d : Deps} {outcome : TxOutcome} {innerHash hash : Hash}
    (h : .invokeHostFunctionSuccess hash ∈
      (transactionResult d outcome innerHash).operationResults) : hash = outcome.returned d := by
  have harm : ∀ code, .invokeHostFunctionSuccess hash ∈
      (resultArm d code outcome).operations.getD [] → hash = outcome.returned d := by
    intro code hmem
    unfold resultArm at hmem
    dsimp only at hmem
    split at hmem
    · exact operationResults_returned hmem
    · exact operationResults_returned hmem
    · cases hmem
  unfold TransactionResult.operationResults transactionResult at h
  dsimp only at h
  by_cases hbump : outcome.code.isFeeBump = true
  · rw [if_pos hbump] at h
    exact harm _ h
  · rw [if_neg hbump] at h
    exact harm _ h

/-- The metadata holds the return value of the outcome. -/
theorem transactionMeta_returned {outcome : TxOutcome} {resultMeta : TransactionMeta}
    (h : transactionMeta outcome = .ok resultMeta) (d : Deps) :
    outcome.returned d = resultMeta.returned d := by
  unfold transactionMeta at h
  unfold TxOutcome.returned
  split at h
  · next hvalue =>
    cases h
    rw [hvalue]
    rfl
  · next value hvalue =>
    cases h
    rw [hvalue]
    rfl
  · cases h

/-- The record of a submission agrees with itself. -/
theorem Submission.consistent {d : Deps} {rpc rpc' : Rpc} {envelope : TransactionEnvelope}
    {txHash innerHash : Hash} {outcome : TxOutcome} {ledger : Ledger}
    (h : Submission d rpc envelope txHash innerHash outcome ledger rpc') :
    ∃ tx, rpc'.submitted = rpc.submitted.set txHash tx ∧
      (rawTransaction tx).Consistent d rpc.ledger.networkPassphrase := by
  obtain ⟨resultMeta, hmeta, hsubmitted⟩ := h.recorded.submitted
  refine ⟨_, hsubmitted, ?_⟩
  obtain ⟨hanswers, -⟩ := applyTransaction_result h.applied innerHash
  have happlied : ¬ (transactionResult d outcome innerHash).Refuses := by
    intro hrefuses
    rcases applyTransaction_ok h.applied with ⟨hrejected, -⟩ | ⟨-, _, _, _, _, _, haccepted⟩
    · rw [h.accepted] at hrejected
      cases hrejected
    · exact haccepted.not_refused hrefuses.code
  exact {
    result := ⟨innerHash, h.hashes, hanswers⟩
    applied := happlied
    succeeded := rfl
    feeBump := TransactionResult.Answers.isFeeBump hanswers happlied
    returned := fun hash hmem =>
      (transactionResult_returned hmem).trans (transactionMeta_returned hmeta d) }

/-! ## Runs -/

/-- Every record of the map agrees with itself, and the passphrase is still the
one the hashes were made with. -/
structure Rpc.Consistent (d : Deps) (passphrase : String) (rpc : Rpc) : Prop where
  network : rpc.ledger.networkPassphrase = passphrase
  submitted : ∀ tx ∈ rpc.submitted.values, (rawTransaction tx).Consistent d passphrase

/-- Every operation keeps the records. -/
theorem Rpc.Consistent.next {d : Deps} {passphrase : String} {rpc : Rpc}
    (h : rpc.Consistent d passphrase) (op : SessionOp) :
    ((session d).next rpc op).Consistent d passphrase := by
  rcases session_next_cases d rpc op with
    ⟨envelope, txHash, innerHash, outcome, ledger, -, hsubmission⟩ | ⟨-, hnext⟩ |
      ⟨id, snap, -, -, hnext⟩ | ⟨-, hquiet⟩
  · obtain ⟨tx, hsubmitted, hconsistent⟩ := hsubmission.consistent
    rw [h.network] at hconsistent
    refine ⟨?_, fun tx' htx' => ?_⟩
    · rw [hsubmission.recorded.ledger]
      obtain ⟨store, cache, rfl⟩ := hsubmission.storeOnly
      exact h.network
    · rw [hsubmitted] at htx'
      rcases InsertionMap.mem_values_set htx' with hold | rfl
      · exact h.submitted tx' hold
      · exact hconsistent
  · rw [hnext]
    exact ⟨h.network, h.submitted⟩
  · rw [hnext]
    exact ⟨h.network, h.submitted⟩
  · refine ⟨hquiet.passphrase.trans h.network, ?_⟩
    rw [hquiet.submitted]
    exact h.submitted

/-- What an operation answers is about the envelope it says it is about. -/
def SessionAnswer.Consistent (d : Deps) (passphrase : String) (answer : SessionAnswer) :
    SessionOp → Prop
  | .request (.sendTransaction envelope) => ∀ hash latestLedger closeTime result,
    answer = .response (.error hash latestLedger closeTime result) →
      result.succeeded = false ∧
      ∃ innerHash, Rpc.envelopeHashes d passphrase envelope = .ok (hash, innerHash) ∧
        result.Answers innerHash envelope
  | .request (.getTransaction _) => ∀ latestLedger closeTime tx,
    answer = .response (.transaction latestLedger closeTime (some tx)) → tx.Consistent d passphrase
  | .request (.getTransactions _) => ∀ txs latestLedger closeTime,
    answer = .response (.transactions txs latestLedger closeTime) →
      ∀ tx ∈ txs, tx.Consistent d passphrase
  | .applyTransaction envelope _ _ => ∀ outcome, answer = .outcome outcome → ∀ innerHash,
    (transactionResult d outcome innerHash).Answers innerHash envelope ∧
      (transactionResult d outcome innerHash).succeeded = outcome.ok
  | _ => True

theorem Rpc.Consistent.out {d : Deps} {passphrase : String} {rpc : Rpc}
    (h : rpc.Consistent d passphrase) (op : SessionOp) :
    ((session d).out rpc op).Consistent d passphrase op := by
  cases op with
  | request request =>
    cases request with
    | sendTransaction envelope =>
      intro hash latestLedger closeTime result hout
      have hsent : (answerOf .response (Rpc.sendTransaction d envelope rpc)).1 =
        .response (.error hash latestLedger closeTime result) := hout
      cases hsend : Rpc.sendTransaction d envelope rpc with
      | error e rpc' =>
        rw [hsend] at hsent
        cases hsent
      | ok response rpc' =>
        rw [hsend] at hsent
        cases hsent
        obtain ⟨txHash, innerHash, outcome, ledger, hhashes, happly, hdone⟩ :=
          sendTransaction_ok hsend
        rcases hdone with ⟨hrejected, -, -, hresponse⟩ | ⟨-, -, hresponse⟩
        · cases hresponse
          obtain ⟨hanswers, hsucceeded⟩ := applyTransaction_result happly innerHash
          rw [h.network] at hhashes
          refine ⟨?_, innerHash, hhashes, hanswers⟩
          rw [hsucceeded]
          exact ok_of_rejected happly hrejected
        · cases hresponse
    | getTransaction hash =>
      intro latestLedger closeTime tx hout
      have hfound : SessionAnswer.response (rpc.getTransaction hash) =
        .response (.transaction latestLedger closeTime (some tx)) := hout
      simp only [Rpc.getTransaction, SessionAnswer.response.injEq, RpcResponse.transaction.injEq,
        Option.map_eq_some_iff] at hfound
      obtain ⟨-, -, record, hrecord, rfl⟩ := hfound
      exact h.submitted record (InsertionMap.mem_values_of_get hrecord)
    | getTransactions startLedger =>
      intro txs latestLedger closeTime hout tx htx
      cases hout
      obtain ⟨record, hrecord, rfl⟩ := List.mem_map.mp htx
      exact h.submitted record (List.mem_filter.mp hrecord).1
    | _ => trivial
  | applyTransaction envelope passphrase validation =>
    intro outcome hout innerHash
    have happlied : (answerOf .outcome
        (RpcM.ofLedger (applyTransaction d envelope passphrase validation) rpc)).1 =
      .outcome outcome := hout
    cases happly : applyTransaction d envelope passphrase validation rpc.ledger with
    | error e ledger =>
      simp only [RpcM.ofLedger, happly, answerOf] at happlied
      cases happlied
    | ok outcome' ledger =>
      simp only [RpcM.ofLedger, happly, answerOf] at happlied
      cases happlied
      exact applyTransaction_result happly innerHash
  | _ => trivial

/-- **Results.**  Every answer of every run fits the envelope it is about, and
the parts of every record agree. -/
theorem session_results (d : Deps) (ledger : Ledger) (validation : ValidationOptions)
    (ops : List SessionOp) :
    (session d).AllSteps
      (fun rpc op => ((session d).out rpc op).Consistent d ledger.networkPassphrase op)
      (attachInProcessRpc ledger validation) ops := by
  refine @Machine.AllSteps.of_invariant _ _ _ (session d)
    (Rpc.Consistent d ledger.networkPassphrase) (fun _ _ => True) _
    (fun rpc op hrpc _ => hrpc.next op) (fun rpc op hrpc _ => hrpc.out op) _ _ ⟨rfl, ?_⟩
    ((session d).allSteps_of_forall (fun _ _ => trivial) _ _)
  intro tx htx
  cases htx

end LiteSoroban

import LiteSoroban.Classic.Atomicity
import LiteSoroban.Env.SendTtl
import LiteSoroban.Rpc.FacadeSpec

/-!
# Where restored entries get lost

A simulation says which archived entries a call would restore.  The answer to
a client and the call of a submitted transaction are meant to carry that on.
Neither does: the transaction data of an answer is always v0, and an
application calls the host with no indexes at all.

`autoRestore_iff` is the exact extent of it.  The answer declares what the
simulation restored when that is nothing, and an application does what `send`
does with the declared indexes when there are none.
-/

namespace LiteSoroban

open Effect

/-! ## The simulation's answer -/

/-- The facade answered `answer` to an invocation's simulation, and `sim` is
what the ledger simulated for it. -/
structure AnsweredFrom (d : Deps) (rpc : Rpc) (params : SimulateTransactionParams)
    (sim : SimulateResult) (answer : SimulationAnswer) : Prop where
  response : ∃ latestLedger rpc', Rpc.simulateTransaction d params rpc =
    .ok (.simulation latestLedger (.ok answer)) rpc'
  simulated : ∃ v1 hostFunction auth leeway useUpgradedAuth ledger,
    params.transaction = .envelopeTypeTx v1 ∧
      v1.tx.operations.head?.map Operation.body = some (.invokeHostFunction hostFunction auth) ∧
      Rpc.upgradedAuth params.useUpgradedAuth = .ok useUpgradedAuth ∧
      Rpc.leewayOf rpc.lastClosed params.instructionLeeway = .ok leeway ∧
      Ledger.simulate d (rpc.simulateArgs v1.tx hostFunction auth leeway useUpgradedAuth)
        rpc.ledger = .ok sim ledger

/-- An answer's transaction data is the simulation's resources and fee, and
nothing else of it. -/
theorem AnsweredFrom.transactionData {d : Deps} {rpc : Rpc} {params : SimulateTransactionParams}
    {sim : SimulateResult} {answer : SimulationAnswer} (h : AnsweredFrom d rpc params sim answer) :
    ∃ resources, sim.resources = some resources ∧
      answer.transactionData = Rpc.simulatedData resources sim.minResourceFee := by
  obtain ⟨latestLedger, rpc', hresponse⟩ := h.response
  obtain ⟨v1, hostFunction, auth, leeway, useUpgradedAuth, ledger, htx, hop, hupgraded, hleeway,
    hsim⟩ := h.simulated
  have hget : ∀ {α : Type} (f : Rpc → RpcM α), (do let rpc ← get; f rpc) rpc = f rpc rpc :=
    fun _ => rfl
  simp only [Rpc.simulateTransaction, hupgraded, htx, Rpc.simulateOperation, hget, hop, hleeway,
    bind_eq_ok, ofLedger_ok, lift_ok] at hresponse
  obtain ⟨sim', _, ⟨_, hsim', rfl⟩, _, ⟨hanswer, -⟩, -⟩ := hresponse
  cases hsim.symm.trans hsim'
  simp only [Rpc.invocationAnswer] at hanswer
  split at hanswer
  · cases hanswer
  · cases hresources : sim.resources with
    | none => simp [hresources] at hanswer
    | some resources =>
      simp only [hresources] at hanswer
      cases hanswer
      exact ⟨resources, rfl, rfl⟩

/-! ## The call of an application -/

/-- The call an application makes into the ledger: that of an invocation whose
operation source exists. -/
def Validated.hostCall (v : Validated) (refundableCap : Option Int) : Option SendArgs :=
  match v.opAccount, v.op.body with
  | some _, .invokeHostFunction hostFunction auth =>
    some (invokeArgs v hostFunction auth refundableCap)
  | _, _ => none

/-- An invocation is its call, or nothing at all. -/
theorem runOperation_hostCall {d : Deps} {v : Validated} {cap : Option Int}
    (hinvoke : v.op.body.isInvoke = true) :
    runOperation d v cap = match v.hostCall cap with
      | some call => do return invokeOperated (← Ledger.send d call)
      | none => pure opNoAccount := by
  simp only [runOperation, Validated.hostCall]
  cases hbody : v.op.body with
  | invokeHostFunction hostFunction auth => cases v.opAccount <;> rfl
  | extendFootprintTtl => simp [hbody, OperationBody.isInvoke] at hinvoke
  | restoreFootprint => simp [hbody, OperationBody.isInvoke] at hinvoke
  | classic => simp [hbody, OperationBody.isInvoke] at hinvoke

/-- The read-write indexes an envelope marks for restoring. -/
def TransactionEnvelope.archivedSorobanEntries (envelope : TransactionEnvelope) : List Nat :=
  match envelope.innerTx?.bind Transaction.sorobanData? with
  | some data => data.archivedSorobanEntries
  | none => []

/-- What the code owes an accepted invocation: a call with the indexes the
envelope declares, and the contract entries `send` leaves with them, from the
ledger the bump and the debit have left. -/
structure RestoresDeclared (d : Deps) (envelope : TransactionEnvelope) (v : Validated)
    (cap : Option Int) (debitedLedger ledger' : Ledger) : Prop where
  call : ∃ call, v.hostCall cap = some call ∧
    call.restoredRwEntryIndices = envelope.archivedSorobanEntries
  effect : ∀ hostFunction auth, v.op.body = .invokeHostFunction hostFunction auth →
    ∃ sent sentLedger,
      Ledger.send d
        { hostFunction := hostFunction
          source := v.invokerId
          resources := v.sorobanData.resources
          auth := auth
          restoredRwEntryIndices := envelope.archivedSorobanEntries
          maxRefundableFee := cap } debitedLedger = .ok sent sentLedger ∧
      ∀ key, needsTtl key = true → ledger'.store.lookup key = sentLedger.store.lookup key

/-- An application does what is declared when nothing is, and the operation
source exists. -/
theorem Accepted.restoresDeclared_iff {d : Deps} {ledger ledger' l₁ l₂ : Ledger}
    {envelope : TransactionEnvelope} {passphrase : String} {validation : ValidationOptions}
    {outcome : TxOutcome} {a : Application} {v : Validated} {op : Operated}
    (h : Accepted d ledger envelope passphrase validation outcome ledger' a v l₁ l₂ op)
    (hinvoke : v.op.body.isInvoke = true) :
    RestoresDeclared d envelope v (a.charge.map fun _ => v.maxRefundable) l₁ ledger' ↔
      OperationSourceExists ledger envelope ∧ envelope.archivedSorobanEntries = [] := by
  rw [h.operationSource]
  constructor
  · rintro ⟨⟨call, hcall, hindexes⟩, -⟩
    simp only [Validated.hostCall] at hcall
    split at hcall
    · next hsome _ =>
      cases hcall
      exact ⟨by rw [hsome]; rfl, hindexes.symm⟩
    · cases hcall
  · rintro ⟨hsome, hnothing⟩
    obtain ⟨opAccount, hopAccount⟩ := Option.isSome_iff_exists.mp hsome
    have hrun := h.operated
    rw [runOperation_hostCall hinvoke] at hrun
    obtain ⟨inner, hsettle, -⟩ := h.settled
    refine ⟨?_, fun hostFunction auth hbody => ?_⟩
    · cases hbody : v.op.body with
      | invokeHostFunction hostFunction auth =>
        exact ⟨_, by simp only [Validated.hostCall, hopAccount, hbody]; rfl, hnothing.symm⟩
      | extendFootprintTtl => simp [hbody, OperationBody.isInvoke] at hinvoke
      | restoreFootprint => simp [hbody, OperationBody.isInvoke] at hinvoke
      | classic => simp [hbody, OperationBody.isInvoke] at hinvoke
    · simp only [Validated.hostCall, hopAccount, hbody, bind_eq_ok, pure_eq_ok] at hrun
      obtain ⟨sent, sentLedger, hsend, -, rfl⟩ := hrun
      rw [hnothing]
      exact ⟨sent, sentLedger, hsend, fun key hkey => (settle_classicOnly hsettle).contracts key hkey⟩

/-! ## An archived balance -/

/-- A host whose simulations restore the one entry of their footprint. -/
def restoringHost : Deps :=
  { Deps.idle with
    recordHostFunction := fun _ =>
      { result := .ok
          { invokeResult := .ok ⟨[]⟩
            resources := ⟨⟨[], [balanceKey .persistent]⟩, 0, 0, 0⟩
            auth := []
            restoredRwEntryIndices := [0]
            ledgerChanges := []
            contractEvents := []
            contractEventsAndReturnValueSize := 0 }
        cpuInsnsConsumed := 0
        memBytesConsumed := 0
        diagnostics := [] } }

/-- An invocation over the balance, with the indexes it declares. -/
def invokeEnvelope (ext : SorobanTransactionDataExt) : TransactionV1Envelope :=
  let envelope := sampleEnvelope 7 1 none
  { envelope with tx := { envelope.tx with
      operations := [⟨none, .invokeHostFunction ⟨[]⟩ []⟩]
      ext := .sorobanData ⟨ext, ⟨⟨[], [balanceKey .persistent]⟩, 0, 0, 0⟩, 0⟩ } }

def simulateParams : SimulateTransactionParams where
  transaction := .envelopeTypeTx (invokeEnvelope .v0)
  useUpgradedAuth := none
  instructionLeeway := none

theorem restoringHost_answers : ∃ sim answer,
    AnsweredFrom restoringHost (attachInProcessRpc (sampleLedger 7) {}) simulateParams sim answer ∧
      sim.restoredRwEntryIndices = [0] :=
  ⟨_, _, ⟨⟨_, _, rfl⟩, _, _, _, _, _, _, rfl, rfl, rfl, rfl, rfl⟩, rfl⟩

/-- Every check lets the declared index through. -/
theorem restoringHost_accepts : ∃ outcome ledger' a v l₁ l₂ op,
    Accepted restoringHost (sampleLedger 7)
      (.envelopeTypeTx (invokeEnvelope (.resourceExt [0]))) "" {} outcome ledger' a v l₁ l₂ op ∧
      v.op.body.isInvoke = true :=
  ⟨_, _, _, _, _, _, _, ⟨rfl, rfl, rfl, rfl, _, rfl, rfl⟩, rfl⟩

/-- The answer to a simulation that restores entry 0 declares nothing, and an
envelope that declares entry 0 is not applied with it. -/
theorem autoRestore_lost :
    (∃ sim answer,
      AnsweredFrom restoringHost (attachInProcessRpc (sampleLedger 7) {}) simulateParams
        sim answer ∧
      answer.transactionData.archivedSorobanEntries ≠ sim.restoredRwEntryIndices) ∧
    ∃ outcome ledger' a v l₁ l₂ op,
      Accepted restoringHost (sampleLedger 7)
        (.envelopeTypeTx (invokeEnvelope (.resourceExt [0]))) "" {} outcome ledger' a v l₁ l₂ op ∧
      v.op.body.isInvoke = true ∧
      ¬ RestoresDeclared restoringHost (.envelopeTypeTx (invokeEnvelope (.resourceExt [0]))) v
        (a.charge.map fun _ => v.maxRefundable) l₁ ledger' := by
  constructor
  · obtain ⟨sim, answer, hanswer, hrestored⟩ := restoringHost_answers
    refine ⟨sim, answer, hanswer, ?_⟩
    obtain ⟨resources, -, hdata⟩ := hanswer.transactionData
    rw [hdata, hrestored]
    rintro ⟨⟩
  · obtain ⟨outcome, ledger', a, v, l₁, l₂, op, haccepted, hinvoke⟩ := restoringHost_accepts
    refine ⟨outcome, ledger', a, v, l₁, l₂, op, haccepted, hinvoke, fun hdeclared => ?_⟩
    have hnothing := ((haccepted.restoresDeclared_iff hinvoke).mp hdeclared).2
    cases hnothing

/-! ## The result -/

/-- **Auto-restore.**  The transaction data of an answer declares what the
simulation restores exactly when it restores nothing.  An accepted invocation
is applied with what it declares exactly when it declares nothing, and its
operation source exists. -/
theorem autoRestore_iff (d : Deps) :
    (∀ rpc params sim answer, AnsweredFrom d rpc params sim answer →
      (answer.transactionData.archivedSorobanEntries = sim.restoredRwEntryIndices ↔
        sim.restoredRwEntryIndices = [])) ∧
    ∀ ledger envelope passphrase validation outcome ledger' a v l₁ l₂ op,
      Accepted d ledger envelope passphrase validation outcome ledger' a v l₁ l₂ op →
      v.op.body.isInvoke = true →
      (RestoresDeclared d envelope v (a.charge.map fun _ => v.maxRefundable) l₁ ledger' ↔
        OperationSourceExists ledger envelope ∧ envelope.archivedSorobanEntries = []) := by
  constructor
  · intro rpc params sim answer h
    obtain ⟨resources, -, hdata⟩ := h.transactionData
    have hdeclares : answer.transactionData.archivedSorobanEntries = [] := by
      rw [hdata]
      rfl
    rw [hdeclares]
    exact eq_comm
  · intro ledger envelope passphrase validation outcome ledger' a v l₁ l₂ op h hinvoke
    exact h.restoresDeclared_iff hinvoke

theorem autoRestore_iff_balance :
    (∃ sim answer,
      AnsweredFrom restoringHost (attachInProcessRpc (sampleLedger 7) {}) simulateParams
        sim answer ∧
      (answer.transactionData.archivedSorobanEntries = sim.restoredRwEntryIndices ↔
        sim.restoredRwEntryIndices = [])) ∧
    ∃ outcome ledger' a v l₁ l₂ op,
      Accepted restoringHost (sampleLedger 7)
        (.envelopeTypeTx (invokeEnvelope (.resourceExt [0]))) "" {} outcome ledger' a v l₁ l₂ op ∧
      (RestoresDeclared restoringHost (.envelopeTypeTx (invokeEnvelope (.resourceExt [0]))) v
          (a.charge.map fun _ => v.maxRefundable) l₁ ledger' ↔
        OperationSourceExists (sampleLedger 7)
            (.envelopeTypeTx (invokeEnvelope (.resourceExt [0]))) ∧
          TransactionEnvelope.archivedSorobanEntries
            (.envelopeTypeTx (invokeEnvelope (.resourceExt [0]))) = []) := by
  obtain ⟨hsimulated, happlied⟩ := autoRestore_iff restoringHost
  constructor
  · obtain ⟨sim, answer, hanswer, -⟩ := restoringHost_answers
    exact ⟨sim, answer, hanswer, hsimulated _ _ _ _ hanswer⟩
  · obtain ⟨outcome, ledger', a, v, l₁, l₂, op, haccepted, hinvoke⟩ := restoringHost_accepts
    exact ⟨outcome, ledger', a, v, l₁, l₂, op, haccepted,
      happlied _ _ _ _ _ _ _ _ _ _ _ haccepted hinvoke⟩

end LiteSoroban

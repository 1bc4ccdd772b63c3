import Mathlib.Algebra.GroupWithZero.Nat
import LiteSoroban.Ledger.Supply
import LiteSoroban.Session.Machine

/-!
# A session works a ledger

Behind the requests of a session is one ledger.  `SessionOp.ledgerOps` says
which of its methods an operation calls, and `session_ledger` that a session
does nothing else to it.  A session is a run of the ledger, and what holds of
every such run holds of every session.

`session_supply` is an example.  The lumens of a session come from friendbot,
and go into fees.
-/

namespace LiteSoroban

open Effect

/-! ## The calls of an operation -/

/-- What `simulateTransaction` simulates. -/
def SimulateTransactionParams.simulated (params : SimulateTransactionParams) (rpc : Rpc) :
    Option SimulateArgs :=
  match Rpc.upgradedAuth params.useUpgradedAuth, params.transaction with
  | .ok useUpgradedAuth, .envelopeTypeTx v1 =>
    match v1.tx.operations.head?.map Operation.body with
    | some (.invokeHostFunction hostFunction auth) =>
      match Rpc.leewayOf rpc.lastClosed params.instructionLeeway with
      | .ok leeway => some (rpc.simulateArgs v1.tx hostFunction auth leeway useUpgradedAuth)
      | .error _ => none
    | _ => none
  | _, _ => none

/-- Whether a submission answers `PENDING`. -/
def pends : EStateM.Result JsError Rpc RpcResponse → Bool
  | .ok (.pending _ _ _) _ => true
  | _ => false

/-- The calls of a request. -/
def RpcRequest.ledgerOps (d : Deps) (rpc : Rpc) : RpcRequest → List LedgerOp
  | .friendbot addr =>
    if (rpc.ledger.getEntry (.account addr)).isSome then []
    else [.fund addr { balance := 100000000000 }]
  | .simulateTransaction params => (params.simulated rpc).toList.map .simulate
  | .sendTransaction envelope =>
    match Rpc.envelopeHashes d rpc.ledger.networkPassphrase envelope with
    | .error _ => []
    | .ok _ =>
      .applyTransaction envelope rpc.ledger.networkPassphrase rpc.validation ::
        if pends (Rpc.sendTransaction d envelope rpc) then [.advanceLedgers 1] else []
  | _ => []

/-- The calls of an operation. -/
def SessionOp.ledgerOps (d : Deps) (rpc : Rpc) : SessionOp → List LedgerOp
  | .request r => r.ledgerOps d rpc
  | .applyTransaction envelope passphrase validation =>
    [.applyTransaction envelope passphrase validation]
  | .advanceLedgers n => [.advanceLedgers n]
  | .setTimestamp t => [.setTimestamp t]
  | .snapshot => [.snapshot]
  | .restore id => [.restore id]

/-! ## One operation -/

section works

theorem lift_ledger {α : Type} (x : Ledger → Except JsError α) (rpc : Rpc) :
    (finalState (RpcM.ofLedger (LedgerM.lift x) rpc)).ledger = rpc.ledger := by
  rw [ofLedger_final]
  simp only [LedgerM.lift]
  cases x rpc.ledger <;> rfl

theorem bind_ledger {α β : Type} {x : RpcM α} {f : α → RpcM β} {rpc : Rpc}
    (h : ∀ a r, (finalState (f a r)).ledger = r.ledger) :
    (finalState ((x >>= f) rpc)).ledger = (finalState (x rpc)).ledger := by
  simp only [bind, EStateM.bind]
  cases x rpc with
  | error e r => rfl
  | ok a r => exact h a r

variable (d : Deps) (rpc : Rpc)

/-- A simulation request simulates one call and answers from it, or touches
nothing. -/
theorem simulateTransaction_cases (params : SimulateTransactionParams) :
    (params.simulated rpc = none ∧
      (finalState (Rpc.simulateTransaction d params rpc)).ledger = rpc.ledger) ∨
    ∃ args answer, params.simulated rpc = some args ∧
      Rpc.simulateTransaction d params rpc =
        (RpcM.ofLedger (Ledger.simulate d args) >>= answer) rpc ∧
      ∀ sim r, (finalState (answer sim r)).ledger = r.ledger := by
  simp only [SimulateTransactionParams.simulated, Rpc.simulateTransaction]
  cases Rpc.upgradedAuth params.useUpgradedAuth with
  | error response => exact .inl ⟨rfl, rfl⟩
  | ok useUpgradedAuth =>
    cases params.transaction with
    | envelopeTypeTxV0 xdr => exact .inl ⟨rfl, rfl⟩
    | envelopeTypeTxFeeBump feeBump => exact .inl ⟨rfl, rfl⟩
    | envelopeTypeTx v1 =>
      simp only [Rpc.simulateOperation, bind, EStateM.bind, get, getThe, Effect.get_run]
      cases v1.tx.operations.head?.map Operation.body with
      | none => exact .inl ⟨rfl, rfl⟩
      | some body =>
        cases body with
        | extendFootprintTtl extendTo => exact .inl ⟨rfl, lift_ledger _ rpc⟩
        | restoreFootprint => exact .inl ⟨rfl, lift_ledger _ rpc⟩
        | classic xdr => exact .inl ⟨rfl, rfl⟩
        | invokeHostFunction hostFunction auth =>
          simp only
          cases Rpc.leewayOf rpc.lastClosed params.instructionLeeway with
          | error response => exact .inl ⟨rfl, rfl⟩
          | ok leeway => exact .inr ⟨_, _, rfl, rfl, fun sim r => lift_ledger _ r⟩

theorem simulateTransaction_ledger (params : SimulateTransactionParams) :
    (finalState (Rpc.simulateTransaction d params rpc)).ledger =
      (ledgerMachine d).run rpc.ledger (RpcRequest.ledgerOps d rpc (.simulateTransaction params)) := by
  simp only [RpcRequest.ledgerOps]
  rcases simulateTransaction_cases d rpc params with
    ⟨hnone, hsame⟩ | ⟨args, answer, hsome, hrun, hanswer⟩
  · rw [hnone, hsame]
    rfl
  · rw [hsome, hrun, bind_ledger hanswer, ofLedger_final]
    simp only [Option.toList_some, List.map_cons, List.map_nil, Machine.run_cons,
      Machine.run_nil, ledgerMachine_next, LedgerOp.perform, finalState_map]

theorem friendbot_ledger (addr : AccountId) :
    (finalState (Rpc.friendbot d addr rpc)).ledger =
      (ledgerMachine d).run rpc.ledger (RpcRequest.ledgerOps d rpc (.friendbot addr)) := by
  cases hentry : rpc.ledger.getEntry (.account addr) with
  | some entry =>
    simp only [RpcRequest.ledgerOps, hentry, Option.isSome_some, if_true, Rpc.friendbot, bind,
      EStateM.bind, get, getThe, Effect.get_run]
    rfl
  | none =>
    simp only [RpcRequest.ledgerOps, hentry, Option.isSome_none, Bool.false_eq_true, if_false,
      Machine.run_cons, Machine.run_nil, ledgerMachine_next, LedgerOp.perform, finalState_map,
      Ledger.fund]
    simp only [Rpc.friendbot, bind, EStateM.bind, get, getThe, Effect.get_run, hentry,
      Option.isSome_none, Bool.false_eq_true, if_false, RpcM.ofLedger]
    cases fundAccount d addr { balance := 100000000000 } rpc.ledger <;> rfl

theorem sendTransaction_ledger (envelope : TransactionEnvelope) :
    (finalState (Rpc.sendTransaction d envelope rpc)).ledger =
      (ledgerMachine d).run rpc.ledger (RpcRequest.ledgerOps d rpc (.sendTransaction envelope)) := by
  cases hhashes : Rpc.envelopeHashes d rpc.ledger.networkPassphrase envelope with
  | error e =>
    have hsend : Rpc.sendTransaction d envelope rpc = .error e rpc := by
      simp only [Rpc.sendTransaction, hhashes]
    simp only [RpcRequest.ledgerOps, hhashes, hsend]
    rfl
  | ok hashes =>
    have happlied : (ledgerMachine d).next rpc.ledger
        (.applyTransaction envelope rpc.ledger.networkPassphrase rpc.validation) =
        finalState (applyTransaction d envelope rpc.ledger.networkPassphrase rpc.validation
          rpc.ledger) := by
      rw [ledgerMachine_next, LedgerOp.perform, finalState_map]
    simp only [RpcRequest.ledgerOps, hhashes, Machine.run_cons, happlied]
    cases hsend : Rpc.sendTransaction d envelope rpc with
    | error e rpc' =>
      rcases sendTransaction_error hsend with ⟨-, hthrew⟩ | ⟨logged, rfl⟩
      · cases hhashes.symm.trans hthrew
      · rfl
    | ok response rpc' =>
      obtain ⟨txHash, innerHash, outcome, ledger, -, happly, hdone⟩ := sendTransaction_ok hsend
      rw [happly]
      rcases hdone with ⟨-, rfl, rfl, rfl⟩ | ⟨-, hrecorded, rfl⟩
      · rfl
      · exact hrecorded.ledger

/-- An operation does to the ledger what its calls do. -/
theorem session_works : (session d).Works (ledgerMachine d) Rpc.ledger (SessionOp.ledgerOps d) := by
  intro rpc op
  cases op with
  | advanceLedgers n => rfl
  | setTimestamp t => rfl
  | snapshot =>
    rw [session_next_snapshot]
    simp only [SessionOp.ledgerOps, Machine.run_cons, Machine.run_nil, ledgerMachine_next,
      LedgerOp.perform, finalState_map]
  | applyTransaction envelope passphrase validation =>
    rw [session_next_applyTransaction]
    simp only [SessionOp.ledgerOps, Machine.run_cons, Machine.run_nil, ledgerMachine_next,
      LedgerOp.perform, finalState_map]
  | restore id =>
    rw [session_next_restore]
    simp only [SessionOp.ledgerOps, Machine.run_cons, Machine.run_nil, ledgerMachine_next,
      LedgerOp.perform, finalState_map]
  | request r =>
    rw [session_next_request]
    cases r with
    | friendbot addr => exact friendbot_ledger d rpc addr
    | simulateTransaction params => exact simulateTransaction_ledger d rpc params
    | sendTransaction envelope => exact sendTransaction_ledger d rpc envelope
    | getHealth => rfl
    | getNetwork => rfl
    | getLatestLedger => exact lift_ledger _ rpc
    | getFeeStats => rfl
    | getEvents startLedger filters limit => rfl
    | getTransactions startLedger => rfl
    | getLedgers startLedger limit => exact lift_ledger _ rpc
    | getLedgerEntries keys => rfl
    | getTransaction hash => rfl
    | unimplemented method => rfl

/-- A session is a run of its ledger. -/
theorem session_ledger (ops : List SessionOp) :
    ((session d).run rpc ops).ledger =
      (ledgerMachine d).run rpc.ledger ((session d).collect (SessionOp.ledgerOps d) rpc ops) :=
  (session_works d).run rpc ops

end works

/-! ## The lumens of a session -/

section supply

variable {d : Deps} {rpc : Rpc}

def SessionOp.isRollback : SessionOp → Bool
  | .restore _ => true
  | _ => false

def SessionOp.isFriendbot : SessionOp → Bool
  | .request (.friendbot _) => true
  | _ => false

def SessionAnswer.isThrow : SessionAnswer → Bool
  | .threw _ => true
  | _ => false

/-- An operation that throws nothing, and rolls nothing back. -/
structure SessionOp.Returns (d : Deps) (rpc : Rpc) (op : SessionOp) : Prop where
  forward : op.isRollback = false
  returns : ((session d).out rpc op).isThrow = false

/-- A call of a ledger that returns. -/
def LedgerOp.Pays (d : Deps) (ledger : Ledger) (op : LedgerOp) : Prop :=
  op.Circulates ledger ∧ ((ledgerMachine d).out ledger op).isOk = true

theorem LedgerOp.pays_of_ok {ledger ledger' : Ledger} {op : LedgerOp} {a : LedgerAnswer}
    (hop : op.Circulates ledger) (h : op.perform d ledger = .ok a ledger') :
    op.Pays d ledger := by
  refine ⟨hop, ?_⟩
  show (answer (op.perform d ledger)).isOk = true
  rw [h]
  rfl

theorem request_out (r : RpcRequest) :
    (session d).out rpc (.request r) = (answerOf .response (Rpc.handle d r rpc)).1 := rfl

theorem friendbot_pays (addr : AccountId)
    (h : ((session d).out rpc (.request (.friendbot addr))).isThrow = false) :
    (ledgerMachine d).AllSteps (LedgerOp.Pays d) rpc.ledger
      (RpcRequest.ledgerOps d rpc (.friendbot addr)) := by
  cases hentry : rpc.ledger.getEntry (.account addr) with
  | some entry =>
    simp only [RpcRequest.ledgerOps, hentry, Option.isSome_some, if_true]
    trivial
  | none =>
    simp only [RpcRequest.ledgerOps, hentry, Option.isSome_none, Bool.false_eq_true, if_false]
    refine ⟨?_, trivial⟩
    cases hfund : fundAccount d addr { balance := 100000000000 } rpc.ledger with
    | ok u ledger =>
      refine LedgerOp.pays_of_ok (Ledger.getEntry_eq_none.mp hentry)
        (bind_eq_ok.mpr ⟨u, ledger, hfund, pure_eq_ok.mpr ⟨rfl, rfl⟩⟩)
    | error e ledger =>
      have hthrew : Rpc.friendbot d addr rpc = .error e { rpc with ledger := ledger } := by
        simp only [Rpc.friendbot, bind, EStateM.bind, get, getThe, Effect.get_run, hentry,
          Option.isSome_none, Bool.false_eq_true, if_false, RpcM.ofLedger, hfund]
      rw [request_out, Rpc.handle_friendbot, hthrew] at h
      cases h

theorem simulateTransaction_pays (params : SimulateTransactionParams)
    (h : ((session d).out rpc (.request (.simulateTransaction params))).isThrow = false) :
    (ledgerMachine d).AllSteps (LedgerOp.Pays d) rpc.ledger
      (RpcRequest.ledgerOps d rpc (.simulateTransaction params)) := by
  simp only [RpcRequest.ledgerOps]
  rcases simulateTransaction_cases d rpc params with
    ⟨hnone, -⟩ | ⟨args, answer, hsome, hrun, -⟩
  · rw [hnone]
    trivial
  · rw [hsome]
    refine ⟨?_, trivial⟩
    cases hsimulate : Ledger.simulate d args rpc.ledger with
    | ok sim ledger =>
      exact LedgerOp.pays_of_ok trivial
        (bind_eq_ok.mpr ⟨sim, ledger, hsimulate, pure_eq_ok.mpr ⟨rfl, rfl⟩⟩)
    | error e ledger =>
      have hthrew : Rpc.handle d (.simulateTransaction params) rpc =
          .error e { rpc with ledger := ledger } := by
        show Rpc.simulateTransaction d params rpc = _
        rw [hrun]
        simp only [bind, EStateM.bind, RpcM.ofLedger, hsimulate]
      rw [request_out, hthrew] at h
      cases h

theorem sendTransaction_pays (envelope : TransactionEnvelope)
    (h : ((session d).out rpc (.request (.sendTransaction envelope))).isThrow = false) :
    (ledgerMachine d).AllSteps (LedgerOp.Pays d) rpc.ledger
      (RpcRequest.ledgerOps d rpc (.sendTransaction envelope)) := by
  cases hsend : Rpc.sendTransaction d envelope rpc with
  | error e rpc' =>
    rw [request_out, Rpc.handle_sendTransaction, hsend] at h
    cases h
  | ok response rpc' =>
    obtain ⟨txHash, innerHash, outcome, ledger, hhashes, happly, -⟩ := sendTransaction_ok hsend
    simp only [RpcRequest.ledgerOps, hhashes]
    refine ⟨LedgerOp.pays_of_ok trivial
      (bind_eq_ok.mpr ⟨outcome, ledger, happly, pure_eq_ok.mpr ⟨rfl, rfl⟩⟩), ?_⟩
    split
    · exact ⟨LedgerOp.pays_of_ok trivial rfl, trivial⟩
    · trivial

/-- The calls of an operation that throws nothing return. -/
theorem SessionOp.Returns.pays {op : SessionOp} (h : op.Returns d rpc) :
    (ledgerMachine d).AllSteps (LedgerOp.Pays d) rpc.ledger (op.ledgerOps d rpc) := by
  obtain ⟨hforward, hreturns⟩ := h
  cases op with
  | advanceLedgers n => exact ⟨LedgerOp.pays_of_ok trivial rfl, trivial⟩
  | setTimestamp t => exact ⟨LedgerOp.pays_of_ok trivial rfl, trivial⟩
  | snapshot =>
    refine ⟨?_, trivial⟩
    rcases rpc.ledger.snapshot_cases with ⟨e, hfull⟩ | ⟨-, htaken⟩
    · have hout : (session d).out rpc .snapshot = .threw e := by
        show (answerOf .snapshotId (RpcM.ofLedger Ledger.snapshot rpc)).1 = .threw e
        simp only [RpcM.ofLedger, hfull, answerOf]
      rw [hout] at hreturns
      cases hreturns
    · exact LedgerOp.pays_of_ok trivial
        (bind_eq_ok.mpr ⟨_, _, htaken, pure_eq_ok.mpr ⟨rfl, rfl⟩⟩)
  | restore id => cases hforward
  | applyTransaction envelope passphrase validation =>
    refine ⟨?_, trivial⟩
    cases happly : LiteSoroban.applyTransaction d envelope passphrase validation rpc.ledger with
    | ok outcome ledger =>
      exact LedgerOp.pays_of_ok trivial
        (bind_eq_ok.mpr ⟨outcome, ledger, happly, pure_eq_ok.mpr ⟨rfl, rfl⟩⟩)
    | error e ledger =>
      have hout : (session d).out rpc (.applyTransaction envelope passphrase validation) =
          .threw e := by
        show (answerOf .outcome (RpcM.ofLedger
          (LiteSoroban.applyTransaction d envelope passphrase validation) rpc)).1 = .threw e
        simp only [RpcM.ofLedger, happly, answerOf]
      rw [hout] at hreturns
      cases hreturns
  | request r =>
    cases r with
    | friendbot addr => exact friendbot_pays addr hreturns
    | simulateTransaction params => exact simulateTransaction_pays params hreturns
    | sendTransaction envelope => exact sendTransaction_pays envelope hreturns
    | getHealth => trivial
    | getNetwork => trivial
    | getLatestLedger => trivial
    | getFeeStats => trivial
    | getEvents startLedger filters limit => trivial
    | getTransactions startLedger => trivial
    | getLedgers startLedger limit => trivial
    | getLedgerEntries keys => trivial
    | getTransaction hash => trivial
    | unimplemented method => trivial

/-- An operation that throws nothing hands out lumens exactly when it asks
friendbot for them. -/
theorem SessionOp.Returns.minted {op : SessionOp} (h : op.Returns d rpc) :
    ((op.ledgerOps d rpc).map LedgerOp.minted).sum =
      if op.isFriendbot then 100000000000 else 0 := by
  cases op with
  | advanceLedgers n => rfl
  | setTimestamp t => rfl
  | snapshot => rfl
  | restore id => rfl
  | applyTransaction envelope passphrase validation => rfl
  | request r =>
    cases r with
    | simulateTransaction params =>
      simp only [SessionOp.ledgerOps, RpcRequest.ledgerOps]
      cases params.simulated rpc <;> rfl
    | sendTransaction envelope =>
      simp only [SessionOp.ledgerOps, RpcRequest.ledgerOps]
      split
      · rfl
      · split <;> rfl
    | friendbot addr =>
      cases hentry : rpc.ledger.getEntry (.account addr) with
      | none =>
        simp only [SessionOp.ledgerOps, RpcRequest.ledgerOps, hentry]
        rfl
      | some entry =>
        -- Friendbot refuses an account that exists.
        have hthrew : Rpc.friendbot d addr rpc =
            .error ⟨"Request failed with status code 400"⟩ rpc := by
          simp only [Rpc.friendbot, bind, EStateM.bind, get, getThe, Effect.get_run, hentry,
            Option.isSome_some, if_true]
          rfl
        have hreturns := h.returns
        rw [request_out, Rpc.handle_friendbot, hthrew] at hreturns
        cases hreturns
    | getHealth => rfl
    | getNetwork => rfl
    | getLatestLedger => rfl
    | getFeeStats => rfl
    | getEvents startLedger filters limit => rfl
    | getTransactions startLedger => rfl
    | getLedgers startLedger limit => rfl
    | getLedgerEntries keys => rfl
    | getTransaction hash => rfl
    | unimplemented method => rfl

theorem minted_collect {ops : List SessionOp}
    (hops : (session d).AllSteps (SessionOp.Returns d) rpc ops) :
    (((session d).collect (SessionOp.ledgerOps d) rpc ops).map LedgerOp.minted).sum =
      100000000000 * (ops.countP SessionOp.isFriendbot : Int) := by
  induction ops generalizing rpc with
  | nil => rfl
  | cons op ops ih =>
    rw [Machine.collect, List.map_append, List.sum_append, hops.1.minted, ih hops.2,
      List.countP_cons]
    split <;> push_cast <;> omega

/-- The lumens of a session, over any operations that throw nothing and roll
nothing back.  What its ledger holds at the end, and the fees of what it
applied, are what it held at the start and what friendbot handed out. -/
theorem session_supply {n : NativeValue} (hkeyed : d.ReturnsKeyed) (hhost : d.Conserves n)
    (hledger : rpc.ledger.Priced d) {ops : List SessionOp}
    (hops : (session d).AllSteps (SessionOp.Returns d) rpc ops) :
    let calls := (session d).collect (SessionOp.ledgerOps d) rpc ops
    n.supply ((session d).run rpc ops).ledger +
        feesTaken ((ledgerMachine d).outs rpc.ledger calls) =
      n.supply rpc.ledger + 100000000000 * (ops.countP SessionOp.isFriendbot : Int) := by
  intro calls
  have hpays : (ledgerMachine d).AllSteps (LedgerOp.Pays d) rpc.ledger calls :=
    (session_works d).allSteps (fun _ _ hop => hop.pays) hops
  have hcirculates : (ledgerMachine d).AllSteps (fun l op => op.Circulates l) rpc.ledger calls :=
    hpays.imp _ fun _ _ hop => hop.1
  have hreturned : ∀ out ∈ (ledgerMachine d).outs rpc.ledger calls, out.isOk = true :=
    (ledgerMachine d).forall_outs_iff.mpr (hpays.imp _ fun _ _ hop => hop.2)
  rw [(session_works d).run, circulates_run hkeyed hhost hledger hcirculates hreturned,
    minted_collect hops]

/-- A payment, a new account, a payment of the other account, and a read. -/
def paymentSession : List SessionOp :=
  [.snapshot, .request (.sendTransaction (.envelopeTypeTx (paymentEnvelope 7 8))),
    .request (.friendbot ⟨List.replicate 32 9⟩),
    .applyTransaction (.envelopeTypeTx (paymentEnvelope 8 7)) "" {},
    .request (.getTransaction [])]

theorem session_supply_payments :
    let calls := (session payingDeps).collect (SessionOp.ledgerOps payingDeps)
      (attachInProcessRpc payLedger {}) paymentSession
    accountsOnly.supply ((session payingDeps).run (attachInProcessRpc payLedger {})
        paymentSession).ledger +
        feesTaken ((ledgerMachine payingDeps).outs payLedger calls) =
      accountsOnly.supply payLedger +
        100000000000 * (paymentSession.countP SessionOp.isFriendbot : Int) :=
  session_supply payingDeps_returnsKeyed payingDeps_conserves payLedger_priced
    ⟨⟨rfl, rfl⟩, ⟨rfl, by decide +kernel⟩, ⟨rfl, by decide +kernel⟩, ⟨rfl, by decide +kernel⟩,
      ⟨rfl, by decide +kernel⟩, trivial⟩

end supply

end LiteSoroban

import LiteSoroban.Classic.SequenceSpec
import LiteSoroban.Lib.Machine
import LiteSoroban.Rpc.FacadeSpec

/-!
# Sessions

A session is one `LiteStellar` with an attached in-process RPC, and a test
that works on it: requests, envelopes applied directly, ledgers that pass,
the clock, snapshots and rollbacks.  The machine takes one such operation at a
time.  A call that throws answers with its exception and leaves the session as
it stood at the throw, so that a run goes on after it.
-/

namespace LiteSoroban

open Effect

inductive SessionOp where
  | request (request : RpcRequest)
  /-- `applyTransaction`, under any switches. -/
  | applyTransaction (envelope : TransactionEnvelope) (passphrase : String)
      (validation : ValidationOptions)
  | advanceLedgers (n : Nat)
  | setTimestamp (t : Nat)
  | snapshot
  | restore (id : Nat)

inductive SessionAnswer where
  | response (response : RpcResponse)
  | outcome (outcome : TxOutcome)
  | snapshotId (id : Nat)
  | done
  | threw (e : JsError)

/-- A program's answer and where it ends. -/
def answerOf {α : Type} (answer : α → SessionAnswer) :
    EStateM.Result JsError Rpc α → SessionAnswer × Rpc
  | .ok a rpc => (answer a, rpc)
  | .error e rpc => (.threw e, rpc)

/-- One operation. -/
def sessionStep (d : Deps) (rpc : Rpc) : SessionOp → SessionAnswer × Rpc
  | .request request => answerOf .response (Rpc.handle d request rpc)
  | .applyTransaction envelope passphrase validation =>
    answerOf .outcome
      (RpcM.ofLedger (applyTransaction d envelope passphrase validation) rpc)
  | .advanceLedgers n => (.done, { rpc with ledger := rpc.ledger.advanceLedgers n })
  | .setTimestamp t => (.done, { rpc with ledger := rpc.ledger.setTimestamp t })
  | .snapshot => answerOf .snapshotId (RpcM.ofLedger Ledger.snapshot rpc)
  | .restore id => answerOf (fun _ => .done) (RpcM.ofLedger (Ledger.restore id) rpc)

/-- The session machine. -/
def session (d : Deps) : Machine Rpc SessionOp SessionAnswer := ⟨sessionStep d⟩

theorem answerOf_snd {α : Type} (answer : α → SessionAnswer)
    (result : EStateM.Result JsError Rpc α) : (answerOf answer result).2 = finalState result := by
  cases result <;> rfl

theorem session_next_request (d : Deps) (rpc : Rpc) (request : RpcRequest) :
    (session d).next rpc (.request request) = finalState (Rpc.handle d request rpc) :=
  answerOf_snd ..

theorem session_next_applyTransaction (d : Deps) (rpc : Rpc) (envelope : TransactionEnvelope)
    (passphrase : String) (validation : ValidationOptions) :
    (session d).next rpc (.applyTransaction envelope passphrase validation) = { rpc with
      ledger := finalState (applyTransaction d envelope passphrase validation rpc.ledger) } :=
  (answerOf_snd ..).trans (ofLedger_final ..)

theorem session_next_snapshot (d : Deps) (rpc : Rpc) :
    (session d).next rpc .snapshot =
      { rpc with ledger := finalState (Ledger.snapshot rpc.ledger) } :=
  (answerOf_snd ..).trans (ofLedger_final ..)

theorem session_next_restore (d : Deps) (rpc : Rpc) (id : Nat) :
    (session d).next rpc (.restore id) =
      { rpc with ledger := finalState (Ledger.restore id rpc.ledger) } :=
  (answerOf_snd ..).trans (ofLedger_final ..)

end LiteSoroban

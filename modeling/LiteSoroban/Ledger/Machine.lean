import LiteSoroban.Classic.Apply
import LiteSoroban.Lib.Machine

/-!
# The ledger as a machine

The methods of `Ledger` that write, as the operations of a machine.  `fund`
and `sendTransaction` go through the classic layer, and the others cross into
the environment.

A test calls them in any order.  A call that throws ends with the exception as
its answer, and the run goes on from the ledger it has left.
-/

namespace LiteSoroban

open Effect

namespace Ledger

/-- A call of the environment that throws before it writes. -/
def call {α : Type} (x : SorobanEnv → Except JsError (α × SorobanEnv)) : LedgerM α := fun ledger =>
  match x ledger.env with
  | .ok (a, env) => .ok a { ledger with env := env }
  | .error e => .error e ledger

/-- `fundAccount`. -/
def fundAccount (d : Deps) (seed : UInt8) : LedgerM AccountId :=
  call fun env => env.fundAccount d seed

/-- `fund`. -/
def fund (d : Deps) (id : AccountId) (opts : FundOptions) : LedgerM Unit :=
  LiteSoroban.fundAccount d id opts

/-- `seedWasm`. -/
def seedWasm (d : Deps) (code : Bytes) : LedgerM Hash :=
  call fun env => env.seedWasm d code

/-- `removeEntry`. -/
def removeEntry (key : LedgerKey) : LedgerM Bool :=
  call fun env => .ok (env.removeEntry key)

/-- `sendTransaction`. -/
def sendTransaction (d : Deps) (envelope : TransactionEnvelope) : LedgerM TxOutcome := fun ledger =>
  applyTransaction d envelope ledger.networkPassphrase {} ledger

end Ledger

inductive LedgerOp where
  | fundAccount (seed : UInt8)
  | fund (id : AccountId) (opts : FundOptions)
  | seedWasm (code : Bytes)
  | putEntry (entry : LedgerEntry) (liveUntil : Option Nat)
  | removeEntry (key : LedgerKey)
  | simulate (args : SimulateArgs)
  | send (args : SendArgs)
  | applyTransaction (envelope : TransactionEnvelope) (passphrase : String)
      (validation : ValidationOptions)
  | advanceLedgers (n : Nat)
  | setTimestamp (t : Nat)
  | snapshot
  | restore (id : Nat)

inductive LedgerAnswer where
  | done
  | funded (id : AccountId)
  | seeded (hash : Hash)
  | removed (there : Bool)
  | simulated (result : SimulateResult)
  | sent (result : SendResult)
  | applied (outcome : TxOutcome)
  | snapshot (id : Nat)

/-- One call. -/
def LedgerOp.perform (d : Deps) : LedgerOp → LedgerM LedgerAnswer
  | .fundAccount seed => do return .funded (← Ledger.fundAccount d seed)
  | .fund id opts => do
    Ledger.fund d id opts
    return .done
  | .seedWasm code => do return .seeded (← Ledger.seedWasm d code)
  | .putEntry entry liveUntil => do
    Ledger.putEntry entry liveUntil
    return .done
  | .removeEntry key => do return .removed (← Ledger.removeEntry key)
  | .simulate args => do return .simulated (← Ledger.simulate d args)
  | .send args => do return .sent (← Ledger.send d args)
  | .applyTransaction envelope passphrase validation => do
    return .applied (← LiteSoroban.applyTransaction d envelope passphrase validation)
  | .advanceLedgers n => do
    modify (·.advanceLedgers n)
    return .done
  | .setTimestamp t => do
    modify (·.setTimestamp t)
    return .done
  | .snapshot => do return .snapshot (← Ledger.snapshot)
  | .restore id => do
    Ledger.restore id
    return .done

/-- The machine of a ledger. -/
def ledgerMachine (d : Deps) : Machine Ledger LedgerOp (Except JsError LedgerAnswer) where
  step ledger op := (answer (op.perform d ledger), finalState (op.perform d ledger))

theorem ledgerMachine_next (d : Deps) (ledger : Ledger) (op : LedgerOp) :
    (ledgerMachine d).next ledger op = finalState (op.perform d ledger) := rfl

end LiteSoroban

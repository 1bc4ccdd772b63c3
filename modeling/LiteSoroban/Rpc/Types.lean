import LiteSoroban.Classic.Apply
import LiteSoroban.Lib.InsertionMap

/-!
# The in-process RPC's records

The facade of `src/fake-rpc.ts` keeps two logs beside the ledger: a map of the
transactions it has submitted and a list of the events they emitted.  This
module has their entries, the XDR results the facade builds from an outcome,
and the requests and answers.

JSON-RPC parameters are as the handlers read them.  A field that only echoes a
constant is left out of an answer.
-/

namespace LiteSoroban

/-! ## Dates -/

/-- A number, zero-padded to a width. -/
def padStart (width n : Nat) : String :=
  let digits := toString n
  String.ofList (List.replicate (width - digits.length) '0') ++ digits

/-- Year, month and day of a count of days since 1970. -/
def civilFromDays (days : Nat) : Nat × Nat × Nat :=
  let z := days + 719468
  let era := z / 146097
  let doe := z % 146097
  let yoe := (doe - doe / 1460 + doe / 36524 - doe / 146096) / 365
  let doy := doe - (365 * yoe + yoe / 4 - yoe / 100)
  let mp := (5 * doy + 2) / 153
  let day := doy - (153 * mp + 2) / 5 + 1
  let month := if mp < 10 then mp + 3 else mp - 9
  let year := yoe + era * 400 + (if month ≤ 2 then 1 else 0)
  (year, month, day)

/-- `new Date(timestamp * 1000).toISOString()`, which throws past the largest
date JavaScript has. -/
@[irreducible] def toISOString (timestamp : Nat) : Except JsError String :=
  if timestamp * 1000 > 8640000000000000 then .error ⟨"Invalid time value"⟩
  else
    let (year, month, day) := civilFromDays (timestamp / 86400)
    let second := timestamp % 86400
    let yearText := if year ≤ 9999 then padStart 4 year else "+" ++ padStart 6 year
    .ok (yearText ++ "-" ++ padStart 2 month ++ "-" ++ padStart 2 day ++ "T" ++
      padStart 2 (second / 3600) ++ ":" ++ padStart 2 (second / 60 % 60) ++ ":" ++
      padStart 2 (second % 60) ++ ".000Z")

/-! ## Results -/

/-- `xdr.OperationResult`, the arms the facade builds. -/
inductive OperationResult where
  | opBadAuth
  | opNoAccount
  | footprint (result : FootprintOpResult)
  | invokeHostFunctionSuccess (returned : Hash)
  | invokeHostFunctionFailed (result : InvokeResult)
  deriving DecidableEq

/-- A result arm, with the operation results where the code has them. -/
structure ResultArm where
  code : TxResultCode
  operations : Option (List OperationResult)
  deriving DecidableEq

/-- `xdr.TransactionResult`.  A fee bump's result names the inner transaction
and holds its arm. -/
structure TransactionResult where
  feeCharged : Int
  code : TxResultCode
  operations : Option (List OperationResult)
  inner : Option (Hash × ResultArm)
  deriving DecidableEq

/-- The parts of the `TransactionMetaV4` that depend on the outcome. -/
structure TransactionMeta where
  sorobanFee : Option SorobanFee
  returnValue : Option ScVal
  diagnosticEvents : List DiagnosticEvent
  deriving DecidableEq

/-- `operationResults`. -/
def operationResults (d : Deps) (outcome : TxOutcome) : List OperationResult :=
  match outcome.opCode, outcome.footprintOpResult with
  | some .opBAD_AUTH, _ => [.opBadAuth]
  | some .opNO_ACCOUNT, _ => [.opNoAccount]
  | none, some result => [.footprint result]
  | none, none =>
    let returned := match outcome.returnValue with
      | some value => d.sha256 ((value.decoded.map (·.xdr)).getD [])
      | none => List.replicate 32 0
    if outcome.ok then [.invokeHostFunctionSuccess returned]
    else [.invokeHostFunctionFailed (outcome.invokeResult.getD .invokeHostFunctionTrapped)]

/-- The arm of a code, with the operation results if it is one of the two
arms that carry them. -/
def resultArm (d : Deps) (code : TxResultCode) (outcome : TxOutcome) : ResultArm where
  code := code
  operations := match code with
    | .txSUCCESS => some (operationResults d outcome)
    | .txFAILED => some (operationResults d outcome)
    | _ => none

def TxResultCode.isFeeBump : TxResultCode → Bool
  | .txFEE_BUMP_INNER_SUCCESS => true
  | .txFEE_BUMP_INNER_FAILED => true
  | _ => false

/-- `transactionResult`. -/
def transactionResult (d : Deps) (outcome : TxOutcome) (innerHash : Hash) : TransactionResult :=
  let arm := resultArm d outcome.code outcome
  { feeCharged := outcome.feeCharged
    code := arm.code
    operations := arm.operations
    inner :=
      if outcome.code.isFeeBump then
        let innerCode := outcome.innerCode.getD (if outcome.ok then .txSUCCESS else .txFAILED)
        some (innerHash, resultArm d innerCode outcome)
      else none }

/-- `transactionMeta`.  A return value that does not decode throws. -/
def transactionMeta (outcome : TxOutcome) : Except JsError TransactionMeta :=
  let build := fun returnValue =>
    { sorobanFee := outcome.sorobanFee
      returnValue := returnValue
      diagnosticEvents := outcome.diagnosticEvents.getD [] }
  match outcome.returnValue with
  | none => .ok (build none)
  | some ⟨_, some value⟩ => .ok (build (some value))
  | some ⟨_, none⟩ => .error ⟨"xdr"⟩

/-! ## The two logs -/

/-- `BufferedEvent`. -/
structure BufferedEvent where
  type : String
  ledger : Nat
  ledgerClosedAt : String
  contractId : String
  id : String
  pagingToken : String
  topic : List ScVal
  value : ScVal
  txHash : Hash
  txIndex : Nat
  deriving DecidableEq

/-- `SubmittedTx`. -/
structure SubmittedTx where
  hash : Hash
  outcome : TxOutcome
  envelope : TransactionEnvelope
  result : TransactionResult
  resultMeta : TransactionMeta
  ledger : Nat
  createdAt : Nat
  feeBump : Bool
  deriving DecidableEq

/-- `rawTransaction`: what `getTransaction` and `getTransactions` answer. -/
structure RawTransaction where
  succeeded : Bool
  txHash : Hash
  feeBump : Bool
  envelope : TransactionEnvelope
  result : TransactionResult
  resultMeta : TransactionMeta
  diagnosticEvents : Option (List DiagnosticEvent)
  ledger : Nat
  createdAt : Nat
  contractEvents : List (Encoded ContractEvent)
  deriving DecidableEq

/-- `rawTransaction`.  An empty list of diagnostic events is left out. -/
def rawTransaction (tx : SubmittedTx) : RawTransaction where
  succeeded := tx.outcome.code = .txSUCCESS || tx.outcome.code = .txFEE_BUMP_INNER_SUCCESS
  txHash := tx.hash
  feeBump := tx.feeBump
  envelope := tx.envelope
  result := tx.result
  resultMeta := tx.resultMeta
  diagnosticEvents :=
    if (tx.outcome.diagnosticEvents.getD []).isEmpty then none else tx.outcome.diagnosticEvents
  ledger := tx.ledger
  createdAt := tx.createdAt
  contractEvents := tx.outcome.events.getD []

/-! ## Requests and answers -/

/-- One filter of `getEvents`. -/
structure EventFilter where
  contractIds : List String
  type : Option String

/-- A JSON value where a boolean was expected. -/
inductive JsonFlag where
  | bool (value : Bool)
  | number
  | string
  | array
  | object

/-- A JSON number, as the leeway is read: the integer it is, if it is one, and
how JavaScript writes it. -/
structure JsonNumber where
  integer : Option Int
  text : String

structure SimulateTransactionParams where
  transaction : TransactionEnvelope
  useUpgradedAuth : Option JsonFlag
  instructionLeeway : Option JsonNumber

inductive RpcRequest where
  | friendbot (addr : AccountId)
  | getHealth
  | getNetwork
  | getLatestLedger
  | getFeeStats
  | getEvents (startLedger : Option Int) (filters : List EventFilter) (limit : Option Int)
  | getTransactions (startLedger : Option Int)
  | getLedgers (startLedger : Option Int) (limit : Option Int)
  | getLedgerEntries (keys : List LedgerKey)
  | simulateTransaction (params : SimulateTransactionParams)
  | sendTransaction (envelope : TransactionEnvelope)
  | getTransaction (hash : Hash)
  | unimplemented (method : String)

structure LedgerEntryAnswer where
  key : LedgerKey
  data : LedgerEntryData
  lastModifiedLedgerSeq : Int
  liveUntilLedgerSeq : Option Nat

/-- The body of a successful simulation. -/
structure SimulationAnswer where
  minResourceFee : Int
  transactionData : SorobanTransactionData
  events : List ContractEvent
  results : List (Option ScVal × List SorobanAuthorizationEntry)
  cost : Option (Nat × Nat)

inductive RpcResponse where
  | friendbot (created : Option LedgerEntry)
  | health (latestLedger ledgerRetentionWindow : Int)
  | network (passphrase : String) (protocolVersion : Nat)
  | latestLedger (protocolVersion : Nat) (sequence : Int) (closeTime : Nat)
  | feeStats (latestLedger : Int)
  | events (events : List BufferedEvent) (latestLedger : Int) (latestLedgerCloseTime : Nat)
      (cursor : String)
  | transactions (transactions : List RawTransaction) (latestLedger : Int)
      (latestLedgerCloseTimestamp : Nat)
  | ledgers (sequences : List Int) (latestLedger : Int) (latestLedgerCloseTime : Nat)
      (cursor : String)
  | ledgerEntries (entries : List LedgerEntryAnswer) (latestLedger : Int)
  | simulation (latestLedger : Int) (answer : Except String SimulationAnswer)
  /-- `status: 'PENDING'`. -/
  | pending (hash : Hash) (latestLedger : Int) (latestLedgerCloseTime : Nat)
  /-- `status: 'ERROR'`. -/
  | error (hash : Hash) (latestLedger : Int) (latestLedgerCloseTime : Nat)
      (errorResult : TransactionResult)
  | transaction (latestLedger : Int) (latestLedgerCloseTime : Nat) (tx : Option RawTransaction)
  /-- A JSON-RPC error. -/
  | rpcError (code : Int) (message : String) (data : Option String)

end LiteSoroban

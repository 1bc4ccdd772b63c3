import LiteSoroban.Rpc.Types

/-!
# The in-process RPC

`attachInProcessRpc` of `src/fake-rpc.ts`.  The facade answers requests from
the ledger and from its two logs.  `sendTransaction` and `friendbot` are the
only requests that write, but for the PRNG counter a simulation draws from.

`ledgerSeq` is the open ledger, the one a submission is validated against and
applied in.  A node reports the last closed ledger, one before it, as latest.
-/

namespace LiteSoroban

/-- A ledger with an attached RPC: the ledger, the switches `submit` validates
with, and the two logs. -/
structure Rpc where
  ledger : Ledger
  validation : ValidationOptions
  submitted : InsertionMap Hash SubmittedTx
  eventLog : List BufferedEvent

abbrev RpcM := EStateM JsError Rpc

/-- `attachInProcessRpc` on a ledger. -/
def attachInProcessRpc (ledger : Ledger) (validation : ValidationOptions) : Rpc where
  ledger := ledger
  validation := validation
  submitted := .empty
  eventLog := []

/-- A call into the ledger. -/
def RpcM.ofLedger {α : Type} (x : LedgerM α) : RpcM α := fun rpc =>
  match x rpc.ledger with
  | .ok a ledger => .ok a { rpc with ledger := ledger }
  | .error e ledger => .error e { rpc with ledger := ledger }

/-- Whether an event passes one filter. -/
def EventFilter.accepts (f : EventFilter) (e : BufferedEvent) : Bool :=
  (f.contractIds.isEmpty || f.contractIds.contains e.contractId) &&
    (match f.type with
      | none => true
      | some type => type = "" || type = e.type)

/-- The JSON type a Go decoder names. -/
def JsonFlag.typeName : JsonFlag → String
  | .bool _ => "boolean"
  | .number => "number"
  | .string => "string"
  | .array => "array"
  | .object => "object"

namespace Rpc

/-- `lastClosed`. -/
def lastClosed (rpc : Rpc) : Int := (rpc.ledger.ledgerSeq : Int) - 1

/-- `lastClosed` as the crate receives it, a `u32`. -/
def lastClosed32 (rpc : Rpc) : Nat := (rpc.lastClosed % 2 ^ 32).toNat

/-! ## Requests that only read -/

/-- `slice(0, limit)`, where a missing or zero limit is none and a negative
one counts from the end. -/
def page {α : Type} (limit : Option Int) (xs : List α) : List α :=
  match limit with
  | none => xs
  | some limit =>
    if limit = 0 then xs
    else if 0 < limit then xs.take limit.toNat
    else xs.take (xs.length - (-limit).toNat)

/-- `getEvents`. -/
def getEvents (rpc : Rpc) (startLedger : Option Int) (filters : List EventFilter)
    (limit : Option Int) : RpcResponse :=
  let start := startLedger.getD 0
  let found := rpc.eventLog.filter fun e =>
    start ≤ e.ledger && (filters.isEmpty || filters.any (EventFilter.accepts · e))
  let events := page limit found
  .events events rpc.lastClosed rpc.ledger.timestamp
    ((events.getLast?.map (·.pagingToken)).getD "")

/-- `getTransactions`. -/
def getTransactions (rpc : Rpc) (startLedger : Option Int) : RpcResponse :=
  let start := startLedger.getD 0
  .transactions ((rpc.submitted.values.filter (start ≤ ·.ledger)).map rawTransaction)
    rpc.lastClosed rpc.ledger.timestamp

/-- `getTransaction`. -/
def getTransaction (rpc : Rpc) (hash : Hash) : RpcResponse :=
  .transaction rpc.lastClosed rpc.ledger.timestamp ((rpc.submitted.get hash).map rawTransaction)

/-- `getLedgers`.  Only closed ledgers exist.  A page holds a header for each of
its ledgers, and the cursor is the last of them. -/
def getLedgers (d : Deps) (rpc : Rpc) (startLedger limit : Option Int) :
    Except JsError RpcResponse :=
  let latest := rpc.lastClosed
  let start := startLedger.getD latest
  if start < 1 ∨ start > latest then
    .ok (.rpcError (-32600)
      s!"start ledger ({start}) must be between the oldest ledger: 1 and the latest ledger: {latest} for this rpc instance"
      none)
  else do
    let count := min (min (limit.getD 1) 200) (latest - start + 1)
    let sequences := (List.range count.toNat).map fun i : Nat => start + i
    sequences.forM (d.encodeHeader · rpc.ledger.timestamp)
    return .ledgers sequences latest rpc.ledger.timestamp (toString (start + count - 1))

/-- `getLedgerEntries`.  Keys with no entry are left out. -/
def getLedgerEntries (rpc : Rpc) (keys : List LedgerKey) : RpcResponse :=
  .ledgerEntries
    (keys.filterMap fun key => (rpc.ledger.getEntry key).map fun entry =>
      { key := key
        data := entry.data
        lastModifiedLedgerSeq := rpc.lastClosed
        liveUntilLedgerSeq := rpc.ledger.getEntryTtl key })
    rpc.lastClosed

/-- `getLatestLedger`, with the header of the last closed ledger. -/
def getLatestLedger (d : Deps) (rpc : Rpc) : Except JsError RpcResponse := do
  d.encodeHeader rpc.lastClosed rpc.ledger.timestamp
  return .latestLedger rpc.ledger.env.protocolVersion rpc.lastClosed rpc.ledger.timestamp

/-! ## simulateTransaction -/

/-- `useUpgradedAuth`: omitted means false, and any other JSON type fails the
request. -/
def upgradedAuth : Option JsonFlag → Except RpcResponse Bool
  | none => .ok false
  | some (.bool b) => .ok b
  | some flag =>
    let jsonType := flag.typeName
    .error (.rpcError (-32602) "invalid parameters" (some
      (s!"json: cannot unmarshal {jsonType} into Go struct field " ++
        "SimulateTransactionRequest.useUpgradedAuth of type bool")))

/-- A leeway that is no unsigned 64-bit number. -/
def unmarshalLeeway (text : String) : RpcResponse :=
  .rpcError (-32602) "invalid parameters" (some
    (s!"json: cannot unmarshal number {text} into Go struct field " ++
      "ResourceConfig.resourceConfig.instructionLeeway of type uint64"))

/-- `resourceConfig.instructionLeeway`, an unsigned number that has to fit 32
bits. -/
def leewayOf (latestLedger : Int) : Option JsonNumber → Except RpcResponse Nat
  | none => .ok 0
  | some rawLeeway =>
    match rawLeeway.integer with
    | none => .error (unmarshalLeeway rawLeeway.text)
    | some leeway =>
      if leeway < 0 ∨ leeway > 2 ^ 53 - 1 then .error (unmarshalLeeway rawLeeway.text)
      else if leeway > 0xffffffff then
        .error (.simulation latestLedger (.error "number too large to fit in target type"))
      else .ok leeway.toNat

/-- The transaction data a simulation answers.  Its `ext` is always v0. -/
def simulatedData (resources : SorobanResources) (resourceFee : Int) : SorobanTransactionData where
  ext := .v0
  resources := resources
  resourceFee := resourceFee

/-- The answer to a footprint simulation. -/
def footprintAnswer (latestLedger : Int) (sim : FootprintSimulation) :
    Except JsError RpcResponse :=
  if !sim.ok then .ok (.simulation latestLedger (.error (sim.error.getD "")))
  else match sim.resources, sim.minResourceFee with
    | some resources, some fee =>
      .ok (.simulation latestLedger (.ok
        { minResourceFee := fee
          transactionData := simulatedData resources fee
          events := []
          results := []
          cost := none }))
    -- `Int64.fromString("undefined")`
    | _, _ => .error ⟨"Invalid Int64"⟩

/-- The answer to an invocation's simulation. -/
def invocationAnswer (latestLedger : Int) (suppliedAuth : List SorobanAuthorizationEntry)
    (sim : SimulateResult) : Except JsError RpcResponse :=
  if !sim.ok then .ok (.simulation latestLedger (.error (sim.error.getD "")))
  else match sim.resources with
    | none => .error ⟨"xdr"⟩
    | some resources =>
      .ok (.simulation latestLedger (.ok
        { minResourceFee := sim.minResourceFee
          transactionData := simulatedData resources sim.minResourceFee
          events := sim.events
          results := [(sim.returnValue, if suppliedAuth.isEmpty then sim.auth else suppliedAuth)]
          cost := some (sim.cpuInsns, sim.memBytes) }))

/-- The keys of a footprint operation's transaction. -/
def footprintKeys (tx : Transaction) (side : LedgerFootprint → List LedgerKey) : List LedgerKey :=
  match tx.sorobanData? with
  | some data => side data.resources.footprint
  | none => []

/-- What the facade asks `simulate` or `simulateWithAuth`: the last closed
ledger, and the envelope's own auth entries when it carries any. -/
def simulateArgs (rpc : Rpc) (tx : Transaction) (hostFunction : HostFunction)
    (auth : List SorobanAuthorizationEntry) (leeway : Nat) (useUpgradedAuth : Bool) :
    SimulateArgs where
  hostFunction := hostFunction
  source := tx.sourceId
  auth := if auth.isEmpty then none else some auth
  instructionLeeway := leeway
  ledgerSeq := some rpc.lastClosed32
  useAddressV2 := if auth.isEmpty then useUpgradedAuth else false

/-- `simulateTransaction`, once the switch is read. -/
def simulateOperation (d : Deps) (tx : Transaction) (leeway : Option JsonNumber)
    (useUpgradedAuth : Bool) : RpcM RpcResponse := do
  let rpc ← get
  match tx.operations.head?.map Operation.body with
  | some (.extendFootprintTtl extendTo) =>
    RpcM.ofLedger <| LedgerM.lift fun ledger => do
      let sim ← ledger.env.simulateExtendTtl d (footprintKeys tx (·.readOnly)) extendTo
        (some rpc.lastClosed32)
      footprintAnswer rpc.lastClosed sim
  | some .restoreFootprint =>
    RpcM.ofLedger <| LedgerM.lift fun ledger => do
      let sim ← ledger.env.simulateRestore d (footprintKeys tx (·.readWrite))
        (some rpc.lastClosed32)
      footprintAnswer rpc.lastClosed sim
  | some (.invokeHostFunction hostFunction auth) =>
    match leewayOf rpc.lastClosed leeway with
    | .error response => return response
    | .ok leeway => do
      let sim ← RpcM.ofLedger
        (Ledger.simulate d (rpc.simulateArgs tx hostFunction auth leeway useUpgradedAuth))
      RpcM.ofLedger (LedgerM.lift fun _ => invocationAnswer rpc.lastClosed auth sim)
  | _ => throw ⟨"expected the invokeHostFunction arm"⟩

/-- `simulateTransaction`. -/
def simulateTransaction (d : Deps) (params : SimulateTransactionParams) : RpcM RpcResponse := do
  match upgradedAuth params.useUpgradedAuth with
  | .error response => return response
  | .ok useUpgradedAuth =>
    match params.transaction with
    | .envelopeTypeTx v1 => simulateOperation d v1.tx params.instructionLeeway useUpgradedAuth
    | _ => throw ⟨"expected the envelopeTypeTx arm"⟩

/-! ## sendTransaction -/

/-- `REJECTED_AT_SUBMIT`. -/
def rejectedAtSubmit : List TxResultCode :=
  [.txNO_ACCOUNT, .txBAD_SEQ, .txBAD_AUTH, .txBAD_AUTH_EXTRA, .txTOO_EARLY, .txTOO_LATE,
    .txBAD_MIN_SEQ_AGE_OR_GAP, .txMISSING_OPERATION, .txMALFORMED, .txSOROBAN_INVALID,
    .txINSUFFICIENT_FEE, .txINSUFFICIENT_BALANCE]

/-- The hashes of an envelope: its own, and that of the inner transaction,
which for a plain one is the same. -/
def envelopeHashes (d : Deps) (passphrase : String) :
    TransactionEnvelope → Except JsError (Hash × Hash)
  | .envelopeTypeTxV0 xdr => do
    let hash ← d.v0TransactionHash passphrase xdr
    return (hash, hash)
  | .envelopeTypeTx v1 => do
    d.newTransaction v1
    return (d.transactionHash passphrase v1.tx, d.transactionHash passphrase v1.tx)
  | .envelopeTypeTxFeeBump feeBump => do
    d.newFeeBumpTransaction feeBump
    return (d.feeBumpTransactionHash passphrase feeBump.tx,
      d.transactionHash passphrase feeBump.tx.innerTx.tx)

/-- The event `sendTransaction` pushes for the `i`-th contract event of a
transaction. -/
def bufferedEvent (d : Deps) (rpc : Rpc) (txHash : Hash) (i : Nat) (closedAt : String)
    (evt : ContractEvent) : BufferedEvent :=
  let seq := rpc.ledger.ledgerSeq
  let position := rpc.eventLog.length
  { type := "contract"
    ledger := seq
    ledgerClosedAt := closedAt
    contractId := match evt.contractId with
      | some cid => d.contractStrKey cid
      | none => ""
    id := s!"{seq}-{position}"
    pagingToken := s!"{seq}-{position}"
    topic := evt.topics
    value := evt.data
    txHash := txHash
    txIndex := i }

/-- The loop that buffers the contract events.  One that does not decode
throws, and those before it stay. -/
def pushEvents (d : Deps) (txHash : Hash) : List (Encoded ContractEvent) → Nat → RpcM Unit
  | [], _ => pure ()
  | encoded :: rest, i => fun rpc =>
    match encoded.decoded with
    | none => .error ⟨"xdr"⟩ rpc
    | some evt =>
      match toISOString rpc.ledger.timestamp with
      | .error e => .error e rpc
      | .ok closedAt =>
        pushEvents d txHash rest (i + 1)
          { rpc with eventLog := rpc.eventLog ++ [bufferedEvent d rpc txHash i closedAt evt] }

/-- The record `sendTransaction` sets. -/
def submittedTx (rpc : Rpc) (envelope : TransactionEnvelope) (hash : Hash) (outcome : TxOutcome)
    (result : TransactionResult) (resultMeta : TransactionMeta) : SubmittedTx where
  hash := hash
  outcome := outcome
  envelope := envelope
  result := result
  resultMeta := resultMeta
  ledger := rpc.ledger.ledgerSeq
  createdAt := rpc.ledger.timestamp
  feeBump := outcome.code.isFeeBump

/-- What `sendTransaction` does with a transaction that was not rejected:
buffer its events, record it, and close the ledger it applied in. -/
def recordTransaction (d : Deps) (envelope : TransactionEnvelope) (hash : Hash)
    (outcome : TxOutcome) (result : TransactionResult) : RpcM Unit := do
  pushEvents d hash (outcome.events.getD []) 0
  let resultMeta ← RpcM.ofLedger (LedgerM.lift fun _ => transactionMeta outcome)
  modify fun rpc =>
    { rpc with
      submitted := rpc.submitted.set hash (rpc.submittedTx envelope hash outcome result resultMeta)
      ledger := rpc.ledger.advanceLedgers 1 }

/-- `sendTransaction`. -/
def sendTransaction (d : Deps) (envelope : TransactionEnvelope) : RpcM RpcResponse := fun rpc =>
  let passphrase := rpc.ledger.networkPassphrase
  match envelopeHashes d passphrase envelope with
  | .error e => .error e rpc
  | .ok (hash, innerHash) =>
    match applyTransaction d envelope passphrase rpc.validation rpc.ledger with
    | .error e ledger => .error e { rpc with ledger := ledger }
    | .ok outcome ledger =>
      let submittedRpc := { rpc with ledger := ledger }
      let result := transactionResult d outcome innerHash
      if outcome.rejected || outcome.code ∈ rejectedAtSubmit then
        .ok (.error hash rpc.lastClosed rpc.ledger.timestamp result) submittedRpc
      else
        match recordTransaction d envelope hash outcome result submittedRpc with
        | .error e rpc' => .error e rpc'
        | .ok () rpc' => .ok (.pending hash rpc.lastClosed rpc.ledger.timestamp) rpc'

/-! ## friendbot -/

/-- Friendbot creates new accounts, and refuses an existing one. -/
def friendbot (d : Deps) (addr : AccountId) : RpcM RpcResponse := do
  let rpc ← get
  if (rpc.ledger.getEntry (.account addr)).isSome then
    throw ⟨"Request failed with status code 400"⟩
  RpcM.ofLedger (fundAccount d addr { balance := 100000000000 })
  let rpc ← get
  return .friendbot (rpc.ledger.getEntry (.account addr))

/-! ## The adapter -/

/-- One request. -/
def handle (d : Deps) (request : RpcRequest) : RpcM RpcResponse := do
  let rpc ← get
  match request with
  | .friendbot addr => friendbot d addr
  | .getHealth => return .health rpc.lastClosed rpc.lastClosed
  | .getNetwork => return .network rpc.ledger.networkPassphrase rpc.ledger.env.protocolVersion
  | .getLatestLedger => RpcM.ofLedger (LedgerM.lift fun _ => rpc.getLatestLedger d)
  | .getFeeStats => return .feeStats rpc.lastClosed
  | .getEvents startLedger filters limit => return rpc.getEvents startLedger filters limit
  | .getTransactions startLedger => return rpc.getTransactions startLedger
  | .getLedgers startLedger limit =>
    RpcM.ofLedger (LedgerM.lift fun _ => rpc.getLedgers d startLedger limit)
  | .getLedgerEntries keys => return rpc.getLedgerEntries keys
  | .simulateTransaction params => simulateTransaction d params
  | .sendTransaction envelope => sendTransaction d envelope
  | .getTransaction hash => return rpc.getTransaction hash
  | .unimplemented method => throw ⟨s!"in-process rpc: unimplemented method {method}"⟩

end Rpc

end LiteSoroban

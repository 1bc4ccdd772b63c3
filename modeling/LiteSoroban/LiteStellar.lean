import LiteSoroban.Env.StateHash
import LiteSoroban.Fixtures
import LiteSoroban.Rpc.Facade

/-!
# LiteStellar

The class of `src/litestellar.ts`: a ledger, the switches its submissions are
validated under, the account that pays when a call names none, and a counter
that default salts are made of.

The last two are state of the facade, beside the ledger.  `snapshot` and
`restore` go to the ledger and leave them as they are.

`drawn` is no field of the class.  It is how far the program has read in the
keypairs that `Keypair.random` hands out.
-/

namespace LiteSoroban

open Effect

/-! ## Failures -/

/-- `HostFailure`: the message, and the host's output in full. -/
structure HostFailure where
  message : String
  raw : String
  deriving DecidableEq

/-- `hostFailure`. -/
def hostFailure (context : String) (raw : Option String) : HostFailure :=
  let text := raw.getD "(no diagnostics)"
  let first := (text.splitOn "\n").headD ""
  ⟨context ++ ": " ++ first, text⟩

/-- What a call of the facade throws. -/
inductive Thrown where
  | error (e : JsError)
  | hostFailure (failure : HostFailure)
  deriving DecidableEq

/-! ## The class -/

structure LiteStellar where
  ledger : Ledger
  validation : ValidationOptions
  payerWallet : Option Wallet
  saltCounter : Nat
  drawn : Nat

abbrev LiteStellarM := EStateM Thrown LiteStellar

/-- A call into the ledger. -/
def LiteStellarM.ofLedger {α : Type} (x : LedgerM α) : LiteStellarM α := fun svm =>
  match x svm.ledger with
  | .ok a ledger => .ok a { svm with ledger := ledger }
  | .error e ledger => .error (.error e) { svm with ledger := ledger }

/-- A fallible call of the SDK. -/
def LiteStellarM.ofExcept {α : Type} (x : Except JsError α) : LiteStellarM α :=
  .ofLedger (LedgerM.lift fun _ => x)

/-- `InvokeOptions`. -/
structure InvokeOptions where
  /-- `as`: the source account. -/
  source : Option Wallet := none
  /-- `signAuth`: the proof builder, from a payload to its proof. -/
  signAuth : Option (Bytes → ScVal) := none
  validUntilLedger : Option Nat := none

/-- `DeployOptions`. -/
structure DeployOptions extends InvokeOptions where
  constructorArgs : List ScVal := []
  salt : Option Bytes := none

/-- What `applyHostFn` returns. -/
structure HostFnResult where
  ok : Bool
  rawReturn : Option (Encoded ScVal) := none
  error : Option HostFailure := none
  events : List (Encoded ContractEvent) := []
  diagnostics : List DiagnosticEvent := []
  changedKeys : List LedgerKey := []
  removedKeys : List LedgerKey := []
  sim : SimulateResult

/-- `InvokeResult`.  `value` is what `scValToNative` was given. -/
structure LiteStellar.InvokeResult where
  ok : Bool
  value : Option ScVal
  error : Option HostFailure
  events : List ContractEvent
  diagnostics : List DiagnosticEvent
  instructions : Nat
  readBytes : Nat
  writeBytes : Nat
  readOnly : List LedgerKey
  readWrite : List LedgerKey
  changedKeys : List LedgerKey
  removedKeys : List LedgerKey

/-- `writeUInt32BE` at the end of 32 zero bytes. -/
def saltOf (n : Nat) : Except JsError Bytes :=
  if n < 2 ^ 32 then
    .ok (List.replicate 28 0 ++ [n / 2 ^ 24, n / 2 ^ 16, n / 2 ^ 8, n].map UInt8.ofNat)
  else .error ⟨"The value of \"value\" is out of range."⟩

/-- `signAuthEntriesSync`. -/
def signAuthEntriesSync (s : Sdk) (entries : List SorobanAuthorizationEntry)
    (sign : Bytes → ScVal) (networkPassphrase : String) (validUntilLedgerSeq : Nat) :
    Except JsError (List SorobanAuthorizationEntry) :=
  entries.mapM fun entry => do
    match ← s.authPayload entry validUntilLedgerSeq networkPassphrase with
    | none => return entry
    | some payload => s.signedEntry entry validUntilLedgerSeq (sign payload)

namespace LiteStellar

/-! ## Fluent configuration -/

/-- `withSigverify`. -/
def withSigverify (on : Bool) (svm : LiteStellar) : LiteStellar :=
  { svm with validation := { svm.validation with sigverify := on } }

/-- `withSequenceCheck`. -/
def withSequenceCheck (on : Bool) (svm : LiteStellar) : LiteStellar :=
  { svm with validation := { svm.validation with sequenceCheck := on } }

/-- `withFeeCharging`. -/
def withFeeCharging (on : Bool) (svm : LiteStellar) : LiteStellar :=
  { svm with validation := { svm.validation with feeCharging := on } }

/-- `withTimebounds`. -/
def withTimebounds (on : Bool) (svm : LiteStellar) : LiteStellar :=
  { svm with validation := { svm.validation with timebounds := on } }

/-- `withoutClassicChecks`. -/
def withoutClassicChecks (svm : LiteStellar) : LiteStellar :=
  ((svm.withSigverify false).withSequenceCheck false).withTimebounds false

/-- `withPayer`. -/
def withPayer (wallet : Wallet) (svm : LiteStellar) : LiteStellar :=
  { svm with payerWallet := some wallet }

/-! ## Accounts -/

/-- `stateHash`. -/
def stateHash {d : Deps} (horder : d.OrdersKeys) (x : XdrEncoder) (svm : LiteStellar) : Bytes :=
  svm.ledger.env.stateHash horder x

/-- `Keypair.random`. -/
def randomKeypair (s : Sdk) : LiteStellarM AccountId :=
  modifyGet fun svm => (s.randomKeypair svm.drawn, { svm with drawn := svm.drawn + 1 })

/-- `airdrop`. -/
def airdrop (s : Sdk) (opts : FundOptions) : LiteStellarM Wallet := do
  let keypair ← randomKeypair s
  .ofLedger (LiteSoroban.preFundedWallet s keypair opts)

/-- `payer`: created on first use. -/
def payer (s : Sdk) : LiteStellarM Wallet := do
  match (← get).payerWallet with
  | some wallet => return wallet
  | none => do
    let wallet ← airdrop s {}
    modify (·.withPayer wallet)
    return wallet

/-- `sourceOf`. -/
def sourceOf (s : Sdk) (opts : InvokeOptions) : LiteStellarM AccountId := do
  match opts.source with
  | some wallet => return wallet.accountId
  | none => return (← payer s).accountId

/-- `nextSalt`.  The counter is up before the write that can throw. -/
def nextSalt : LiteStellarM Bytes := do
  let n ← modifyGet fun svm => (svm.saltCounter, { svm with saltCounter := svm.saltCounter + 1 })
  .ofExcept (saltOf n)

/-- `opts.salt ?? this.nextSalt()`. -/
def saltFor (salt : Option Bytes) : LiteStellarM Bytes :=
  match salt with
  | some salt => return salt
  | none => nextSalt

/-! ## Calls -/

/-- The failure of a simulation. -/
def HostFnResult.failed (context : String) (sim : SimulateResult)
    (diagnostics : List DiagnosticEvent) : HostFnResult where
  ok := false
  error := some (hostFailure context sim.error)
  diagnostics := diagnostics
  sim := sim

/-- What `applyHostFn` makes of the enforcing call. -/
def HostFnResult.sent (sim : SimulateResult) (sent : SendResult) : HostFnResult :=
  if !sent.ok then
    { ok := false
      error := some (hostFailure "invocation failed" sent.error)
      diagnostics := sent.diagnosticEvents
      sim := sim }
  else
    { ok := true
      rawReturn := sent.returnValue
      events := sent.events
      diagnostics := sent.diagnosticEvents
      changedKeys := sent.changedKeys
      removedKeys := sent.removedKeys
      sim := sim }

/-- The end of `applyHostFn`. -/
def sendHostFn (s : Sdk) (hostFunction : HostFunction) (source : AccountId)
    (auth : List SorobanAuthorizationEntry) (sim : SimulateResult) : LedgerM HostFnResult := do
  let sent ← sendSimulated s hostFunction source auth sim
  return HostFnResult.sent sim sent

/-- `applyHostFn`: simulate, sign the recorded entries and simulate again
where there is a builder, and send. -/
def applyHostFn (s : Sdk) (hostFunction : HostFunction) (source : AccountId)
    (opts : InvokeOptions) : LedgerM HostFnResult := do
  let recorded ← Ledger.simulate s.toDeps (simulateCall hostFunction source none)
  if !recorded.ok then
    return HostFnResult.failed "simulation failed" recorded recorded.diagnosticEvents
  match opts.signAuth, recorded.auth with
  | some sign, _ :: _ => do
    let signed ← LedgerM.lift fun ledger =>
      signAuthEntriesSync s recorded.auth sign ledger.networkPassphrase
        (opts.validUntilLedger.getD (ledger.ledgerSeq + 100))
    let enforced ← Ledger.simulate s.toDeps (simulateCall hostFunction source (some signed))
    if !enforced.ok then return HostFnResult.failed "authorization failed" enforced []
    sendHostFn s hostFunction source signed enforced
  | _, _ => sendHostFn s hostFunction source recorded.auth recorded

/-- The events of a result, decoded. -/
def decodeEvents (events : List (Encoded ContractEvent)) : Except JsError (List ContractEvent) :=
  events.mapM fun encoded =>
    match encoded.decoded with
    | some event => .ok event
    | none => .error ⟨"xdr"⟩

/-- `scValToNative(xdr.ScVal.fromXdr(raw))`. -/
def nativeValue (s : Sdk) (raw : Encoded ScVal) : Except JsError ScVal :=
  match raw.decoded with
  | none => .error ⟨"xdr"⟩
  | some value => do
    s.scValToNative value
    return value

/-- The value of a call that succeeded. -/
def returned (s : Sdk) (r : HostFnResult) : Except JsError (Option ScVal) :=
  match r.ok, r.rawReturn with
  | true, some raw => some <$> nativeValue s raw
  | _, _ => .ok none

/-- What `invokeContract` makes of `applyHostFn`'s result. -/
def invokeResult (s : Sdk) (r : HostFnResult) : Except JsError InvokeResult := do
  let value ← returned s r
  let events ← decodeEvents r.events
  return {
    ok := r.ok
    value := value
    error := r.error
    events := events
    diagnostics := r.diagnostics
    instructions := r.sim.instructions
    readBytes := r.sim.readBytes
    writeBytes := r.sim.writeBytes
    readOnly := r.sim.readOnlyKeys
    readWrite := r.sim.readWriteKeys
    changedKeys := r.changedKeys
    removedKeys := r.removedKeys }

/-- `invokeContract`. -/
def invokeContract (s : Sdk) (address : ScAddress) (fn : String) (args : List ScVal)
    (opts : InvokeOptions) : LiteStellarM InvokeResult := do
  let source ← sourceOf s opts
  let hostFunction ← .ofExcept (s.invokeHostFn address fn args)
  let r ← .ofLedger (applyHostFn s hostFunction source opts)
  .ofExcept (invokeResult s r)

/-- `throw r.error`. -/
def throwFailure {α : Type} (error : Option HostFailure) : LiteStellarM α :=
  match error with
  | some failure => throw (.hostFailure failure)
  | none => throw (.error ⟨"undefined"⟩)

/-- `Contract.invoke`. -/
def invoke (s : Sdk) (address : ScAddress) (fn : String) (args : List ScVal)
    (opts : InvokeOptions) : LiteStellarM (Option ScVal) := do
  let r ← invokeContract s address fn args opts
  if !r.ok then throwFailure r.error
  return r.value

/-! ## Contracts -/

/-- The address `deployFromHash` reads off the return value. -/
def deployedAddress (s : Sdk) (r : HostFnResult) : Except JsError ScAddress :=
  match r.rawReturn.bind (·.decoded) with
  | none => .error ⟨"xdr"⟩
  | some value =>
    match s.scvAddress? value with
    | some address => .ok address
    | none => .error ⟨"expected the scvAddress arm"⟩

/-- `deployFromHash`. -/
def deployFromHash (s : Sdk) (wasmHash : Hash) (opts : DeployOptions) : LiteStellarM ScAddress := do
  let source ← sourceOf s opts.toInvokeOptions
  let salt ← saltFor opts.salt
  let hostFunction ← .ofExcept (s.createContractHostFn source wasmHash salt opts.constructorArgs)
  let r ← .ofLedger (applyHostFn s hostFunction source opts.toInvokeOptions)
  if !r.ok then throwFailure r.error
  .ofExcept (deployedAddress s r)

/-- `deployContract`. -/
def deployContract (s : Sdk) (wasm : Bytes) (opts : DeployOptions) : LiteStellarM ScAddress := do
  let wasmHash ← .ofLedger (Ledger.seedWasm s.toDeps wasm)
  deployFromHash s wasmHash opts

/-! ## Trustlines, time and submissions -/

/-- `trust`.  Its options have no balance. -/
def trust (s : Sdk) (holder : Wallet) (asset : Asset) (limit : Option Int)
    (authorized : Option Bool) : LiteStellarM Unit :=
  .ofLedger (establishTrustline s holder asset { limit := limit, authorized := authorized })

/-- `advanceLedgers`. -/
def advanceLedgers (n : Nat) : LiteStellarM Unit :=
  modify fun svm => { svm with ledger := svm.ledger.advanceLedgers n }

/-- `sendTransaction`. -/
def sendTransaction (d : Deps) (envelope : TransactionEnvelope) : LiteStellarM TxOutcome := do
  let svm ← get
  .ofLedger (applyTransaction d envelope svm.ledger.networkPassphrase svm.validation)

/-! ## Isolation -/

/-- `snapshot`. -/
def snapshot : LiteStellarM Nat := .ofLedger Ledger.snapshot

/-- `restore`. -/
def restore (id : Nat) : LiteStellarM Unit := .ofLedger (Ledger.restore id)

end LiteStellar

end LiteSoroban

import LiteSoroban.Env.Fees
import LiteSoroban.Lib.Effect

/-!
# The enforcing call

`SorobanEnv::send`, in the order the source works in.

* `loadKey` is one turn of the loop over the footprint: what the host is
  handed for the key, or why the call fails before the host runs.
* `prepareModuleCache` tops up the module cache for one call.
* `prepareSend` puts together everything the host is called with.
* `settleCall` is what follows the host's return: the checks that can still
  fail the operation, and the result.
* `mergeChange` is one turn of the loop that writes the host's changes back.

An exception leaves the environment as it stood when it was thrown.  The
module cache is the one field a failed call can change.
-/

namespace LiteSoroban

/-! ## Arguments and results -/

structure SendArgs where
  hostFunction : HostFunction
  source : AccountId
  resources : SorobanResources
  auth : List SorobanAuthorizationEntry
  restoredRwEntryIndices : List Nat
  maxRefundableFee : Option Int

/-- The `InvokeHostFunctionResult` arm of a failed call. -/
inductive InvokeResult where
  | invokeHostFunctionTrapped
  | invokeHostFunctionResourceLimitExceeded
  | invokeHostFunctionInsufficientRefundableFee
  deriving DecidableEq

structure SendResult where
  ok : Bool
  error : Option String
  returnValue : Option (Encoded ScVal)
  changedKeys : List LedgerKey
  removedKeys : List LedgerKey
  events : List (Encoded ContractEvent)
  diagnosticEvents : List DiagnosticEvent
  cpuInsns : Nat
  memBytes : Nat
  ttlChangedKeys : List LedgerKey
  resultCode : Option InvokeResult
  detail : Option String
  rentFee : Int
  contractEventsSizeBytes : Nat
  refundableFeeConsumed : Int
  deriving DecidableEq

/-- The read-write keys the call restores.  An index past the end names
none. -/
def SendArgs.restored (args : SendArgs) : List LedgerKey :=
  args.restoredRwEntryIndices.filterMap (fun i => args.resources.footprint.readWrite[i]?)

/-- `checks_declared_bytes`. -/
def SorobanEnv.checksDeclaredBytes (env : SorobanEnv) : Bool :=
  env.enforceDeclaredResources && env.enforceDeclaredBytes

/-- The TTL a restored entry is handed to the host with. -/
def SorobanEnv.restoredLiveUntil (env : SorobanEnv) : Nat :=
  saturatingAdd32 env.ledgerSeq env.minPersistentEntryTtl - 1

/-! ## Loading the footprint -/

/-- Why a call ends before the host runs: it fails with a message, or it
throws. -/
inductive SendStop where
  | failed (message : String)
  | thrown (e : JsError)

/-- What the loop over the footprint has gathered. -/
structure Loaded where
  entries : List (Option (Encoded LedgerEntry) × Option TtlLedgerEntryMeta)
  liveCode : List (Hash × LedgerEntry)
  restoredCode : List Hash
  diskReadBytes : Nat

def Loaded.empty : Loaded := ⟨[], [], [], 0⟩

/-- Hand the host one more item. -/
def Loaded.push (acc : Loaded)
    (item : Option (Encoded LedgerEntry) × Option TtlLedgerEntryMeta) : Loaded :=
  { acc with entries := acc.entries ++ [item] }

/-- An entry whose TTL ends before the current ledger. -/
def SorobanEnv.expired (env : SorobanEnv) (liveUntil : Option Nat) : Bool :=
  match liveUntil with
  | some t => t < env.ledgerSeq
  | none => false

/-- Contract code goes to the restored or to the live code.  Archived code the
call does not restore goes to neither. -/
def Loaded.noteCode (env : SorobanEnv) (args : SendArgs) (key : LedgerKey)
    (e : EntryWithLiveUntil) (acc : Loaded) : Loaded :=
  match key with
  | .contractCode hash =>
    if key ∈ args.restored then { acc with restoredCode := acc.restoredCode ++ [hash] }
    else if env.expired e.liveUntil then acc
    else { acc with liveCode := acc.liveCode ++ [(hash, e.entry)] }
  | _ => acc

/-- The size limit on a loaded entry.  An archived entry the call does not
restore fails later, in the host, and is not sized. -/
def checkLoadedSize (env : SorobanEnv) (args : SendArgs) (key : LedgerKey)
    (e : EntryWithLiveUntil) (size : Nat) : Except SendStop Unit :=
  let archived := needsTtl key && !(key ∈ args.restored) && env.expired e.liveUntil
  match env.feeSettings with
  | some fees =>
    if archived then .ok ()
    else match fees.validateContractLedgerEntry key size with
      | some message => .error (.failed message)
      | none => .ok ()
  | none => .ok ()

/-- The running total of disk reads: classic entries and restored ones. -/
def meterDiskRead (env : SorobanEnv) (args : SendArgs) (key : LedgerKey)
    (size diskReadBytes : Nat) : Except SendStop Nat :=
  if env.checksDeclaredBytes && (!needsTtl key || key ∈ args.restored) then
    let read := saturatingAdd32 diskReadBytes (clamp32 size)
    let declared := args.resources.diskReadBytes
    if declared < read then
      .error (.failed
        s!"operation byte-read resources exceeds amount specified: {read} > {declared}")
    else .ok read
  else .ok diskReadBytes

/-- The TTL the host is handed for a stored key: the rewritten one for a key
the call restores, and the current ledger for an entry without one. -/
def SorobanEnv.handedLiveUntil (env : SorobanEnv) (args : SendArgs) (key : LedgerKey)
    (liveUntil : Option Nat) : Nat :=
  if key ∈ args.restored then env.restoredLiveUntil else liveUntil.getD env.ledgerSeq

/-- The TTL entry the host is handed beside a stored entry. -/
def ttlMeta (d : Deps) (env : SorobanEnv) (args : SendArgs) (budget : Budget)
    (key : LedgerKey) (e : EntryWithLiveUntil) (size : Nat) :
    Except SendStop (Option TtlLedgerEntryMeta) :=
  if needsTtl key then
    match d.entrySizeForRent budget e.entry (clamp32 size) with
    | .ok rentSize => .ok (some ⟨env.handedLiveUntil args key e.liveUntil, rentSize⟩)
    | .error err => .error (.thrown (hostErr err))
  else .ok none

/-- One turn of the loop over the footprint. -/
def loadKey (d : Deps) (env : SorobanEnv) (args : SendArgs) (budget : Budget)
    (acc : Loaded) (key : LedgerKey) : Except SendStop Loaded :=
  match env.store.lookup key with
  | none => .ok (acc.push (none, none))
  | some e =>
    -- An expired temporary entry does not exist as far as the protocol goes.
    if isTemporary key && env.expired e.liveUntil then .ok (acc.push (none, none))
    else do
      let size := d.entrySize e.entry
      let noted := acc.noteCode env args key e
      checkLoadedSize env args key e size
      let read ← meterDiskRead env args key size noted.diskReadBytes
      let ttl ← ttlMeta d env args budget key e size
      return { noted with diskReadBytes := read }.push (some ⟨size, some e.entry⟩, ttl)

/-- The loop over the footprint, read-only keys first. -/
def loadFootprint (d : Deps) (env : SorobanEnv) (args : SendArgs) (budget : Budget) :
    Except SendStop Loaded :=
  args.resources.footprint.keys.foldlM (loadKey d env args budget) Loaded.empty

/-! ## The module cache -/

/-- File one live module, unless its hash is there.  Code that does not
compile is left out, and so is an entry that is not code. -/
def cacheModule (d : Deps) (protocolVersion : Nat) (cache : ModuleCache)
    (live : Hash × LedgerEntry) : ModuleCache :=
  if live.1 ∈ cache then cache
  else match live.2.data with
    | .contractCode code =>
      match d.parseModule protocolVersion code.code with
      | some hash => insert hash cache
      | none => cache
    | _ => cache

/-- `prepare_module_cache`: the cache kept from earlier calls, topped up with
the live code and without the restored code. -/
def SorobanEnv.prepareModuleCache (d : Deps) (env : SorobanEnv)
    (liveCode : List (Hash × LedgerEntry)) (restoredCode : List Hash) : ModuleCache :=
  let cache := liveCode.foldl (cacheModule d env.protocolVersion) (env.moduleCache.getD ∅)
  restoredCode.foldl Finset.erase cache

/-- Everything before the host runs. -/
def prepareSend (d : Deps) (env : SorobanEnv) (args : SendArgs) : Except SendStop HostInput :=
  match env.enforcingBudget d args.resources.instructions with
  | .error e => .error (.thrown e)
  | .ok budget =>
    match loadFootprint d env args budget with
    | .error stop => .error stop
    | .ok loaded =>
      .ok
        { budget := budget
          hostFunction := args.hostFunction
          resources := args.resources
          restoredRwEntryIndices := args.restoredRwEntryIndices
          source := args.source
          auth := args.auth
          ledgerInfo := env.ledgerInfo
          entries := loaded.entries
          basePrngSeed := List.replicate 32 0
          moduleCache := env.prepareModuleCache d loaded.liveCode loaded.restoredCode }

/-! ## After the host -/

/-- `failed_call`: the result code of a call the host failed, core's
diagnostic text and core's own diagnostic event. -/
def failedCall (d : Deps) (env : SorobanEnv) (resources : SorobanResources)
    (cpuInsns memBytes : Nat) : InvokeResult × Option String × List DiagnosticEvent :=
  let declared := resources.instructions
  let memoryLimit := (env.txLimits d).2
  let exceeded := fun (message : String) (consumed limit : Nat) =>
    (.invokeHostFunctionResourceLimitExceeded, some s!"{message}: {consumed} > {limit}",
      [DiagnosticEvent.coreError message [consumed, limit]])
  if declared < cpuInsns then
    exceeded "operation instructions exceeds amount specified" cpuInsns declared
  else if memoryLimit < memBytes then
    exceeded "operation memory usage exceeds network config limit" memBytes memoryLimit
  else (.invokeHostFunctionTrapped, none, [])

/-- `check_written_entries`, from `writeBytes` bytes written so far. -/
def checkWrittenEntries (env : SorobanEnv) (resources : SorobanResources) :
    List LedgerEntryChange → Nat → Except (InvokeResult × String) Unit
  | [], _ => .ok ()
  | ch :: chs, writeBytes =>
    let limit := InvokeResult.invokeHostFunctionResourceLimitExceeded
    match ch.readOnly, ch.encodedNewValue with
    | false, some newValue => do
      match env.feeSettings with
      | some fees =>
        match ch.encodedKey.decoded with
        | none => throw (limit, "xdr")
        | some key =>
          match fees.validateContractLedgerEntry key newValue.len with
          | some message => throw (limit, message)
          | none => pure ()
      | none => pure ()
      if env.checksDeclaredBytes then
        let written := saturatingAdd32 writeBytes (clamp32 newValue.len)
        let declared := resources.writeBytes
        if declared < written then
          throw (limit,
            s!"operation byte-write resources exceeds amount specified: {written} > {declared}")
        checkWrittenEntries env resources chs written
      else
        checkWrittenEntries env resources chs writeBytes
    | _, _ => checkWrittenEntries env resources chs writeBytes

/-- The contract events against the network's cap: their total size. -/
def sumEventSizes (maxEvents : Nat) :
    List (Encoded ContractEvent) → Nat → Except (InvokeResult × String) Nat
  | [], eventsSize => .ok eventsSize
  | e :: es, eventsSize =>
    let eventsSize := saturatingAdd32 eventsSize (clamp32 e.len)
    if maxEvents < eventsSize then
      .error (.invokeHostFunctionResourceLimitExceeded,
        s!"total events size exceeds network config maximum: {eventsSize} > {maxEvents}")
    else sumEventSizes maxEvents es eventsSize

/-- What a successful call consumed. -/
structure Consumed where
  rent : Int
  eventsSize : Nat
  refundable : Int

/-- `consume_refundable`. -/
def consumeRefundable (d : Deps) (env : SorobanEnv) (res : InvokeHostFunctionResult)
    (returnValueSize : Nat) (maxRefundableFee : Option Int) :
    Except (InvokeResult × String) Consumed :=
  match env.feeSettings with
  -- Without fee settings there is nothing to price or enforce.
  | none => .ok ⟨0, 0, 0⟩
  | some fees => do
    let maxEvents := fees.txMaxContractEventsSizeBytes
    let contractEvents ← sumEventSizes maxEvents res.encodedContractEvents 0
    let eventsSize := saturatingAdd32 contractEvents (clamp32 returnValueSize)
    if maxEvents < eventsSize then
      throw (.invokeHostFunctionResourceLimitExceeded,
        s!"return value pushes events size above network config maximum: {eventsSize} > {maxEvents}")
    let rent := d.computeRentFee (d.extractRentChanges res.ledgerChanges)
      (fees.rentFeeConfiguration d) env.ledgerSeq
    let eventsFee := fees.eventsFee d eventsSize
    match maxRefundableFee with
    | some max =>
      if max < rent then
        throw (.invokeHostFunctionInsufficientRefundableFee,
          s!"refundable resource fee was not sufficient to cover the ledger storage rent: {rent} > {max}")
      if max < saturatingAddI64 rent eventsFee then
        let left := max - rent
        throw (.invokeHostFunctionInsufficientRefundableFee,
          s!"refundable resource fee was not sufficient to cover the events fee after paying for ledger storage rent: {eventsFee} > {left}")
    | none => pure ()
    return ⟨rent, eventsSize, saturatingAddI64 rent eventsFee⟩

/-! ## Writing the changes back -/

/-- The store and the key lists of the result, as the merge loop builds
them. -/
structure Merged where
  store : Store
  changedKeys : List LedgerKey
  removedKeys : List LedgerKey
  ttlChangedKeys : List LedgerKey

/-- One turn of the merge loop.  XDR that does not decode throws, and the
changes before it stay. -/
def mergeChange (ch : LedgerEntryChange) : EStateM JsError Merged Unit := fun m =>
  match ch.encodedKey.decoded with
  | none => .error ⟨"xdr"⟩ m
  | some key =>
    let ttl := ch.ttlChange.map (·.newLiveUntilLedger)
    match ch.encodedNewValue, ch.readOnly with
    | some newValue, _ =>
      match newValue.decoded with
      | none => .error ⟨"xdr"⟩ m
      | some entry => .ok ()
        { m with
          store := m.store.insert key ⟨entry, ttl⟩
          changedKeys := m.changedKeys ++ [key] }
    -- A read-only entry can still have its TTL moved.
    | none, true =>
      match ttl, m.store.lookup key with
      | some t, some slot => .ok ()
        { m with
          store := m.store.insert key ⟨slot.entry, some t⟩
          ttlChangedKeys :=
            if slot.liveUntil = some t then m.ttlChangedKeys else m.ttlChangedKeys ++ [key] }
      | _, _ => .ok () m
    -- A read-write entry without a new value is removed.
    | none, false => .ok ()
      { m with
        store := m.store.erase key
        removedKeys := m.removedKeys ++ [key] }

/-- The merge loop. -/
def mergeChanges : List LedgerEntryChange → EStateM JsError Merged Unit
  | [] => pure ()
  | ch :: chs => do
    mergeChange ch
    mergeChanges chs

/-! ## The call -/

/-- `serde_wasm_bindgen::to_value` on a result. -/
def SendResult.toValue (d : Deps) (out : SendResult) (env : SorobanEnv) :
    EStateM.Result JsError SorobanEnv SendResult :=
  match d.toValue [out.cpuInsns, out.memBytes, out.rentFee, out.refundableFeeConsumed] with
  | .ok () => .ok out env
  | .error e => .error e env

/-- `failed_before_host`. -/
def failedBeforeHost (message : String) : SendResult where
  ok := false
  error := some message
  returnValue := none
  changedKeys := []
  removedKeys := []
  events := []
  diagnosticEvents := []
  cpuInsns := 0
  memBytes := 0
  ttlChangedKeys := []
  resultCode := some .invokeHostFunctionResourceLimitExceeded
  detail := none
  rentFee := 0
  contractEventsSizeBytes := 0
  refundableFeeConsumed := 0

/-- The result of a call the host failed. -/
def failedInHost (d : Deps) (env : SorobanEnv) (args : SendArgs) (out : HostOutput)
    (e : HostError) (events : List (Encoded ContractEvent)) : SendResult :=
  let (code, detail, pushed) :=
    failedCall d env args.resources out.cpuInsnsConsumed out.memBytesConsumed
  { ok := false
    error := some e.debug
    returnValue := none
    changedKeys := []
    removedKeys := []
    events := events
    diagnosticEvents := out.diagnostics ++ pushed
    cpuInsns := out.cpuInsnsConsumed
    memBytes := out.memBytesConsumed
    ttlChangedKeys := []
    resultCode := some code
    detail := detail
    rentFee := 0
    contractEventsSizeBytes := 0
    refundableFeeConsumed := 0 }

/-- The result of a call the host completed and a check after it failed. -/
def failedAfterHost (out : HostOutput) (code : InvokeResult) (message : String) : SendResult where
  ok := false
  error := some message
  returnValue := none
  changedKeys := []
  removedKeys := []
  events := []
  diagnosticEvents := out.diagnostics
  cpuInsns := out.cpuInsnsConsumed
  memBytes := out.memBytesConsumed
  ttlChangedKeys := []
  resultCode := some code
  detail := none
  rentFee := 0
  contractEventsSizeBytes := 0
  refundableFeeConsumed := 0

/-- The result of a call that succeeded. -/
def completed (out : HostOutput) (res : InvokeHostFunctionResult) (value : Encoded ScVal)
    (consumed : Consumed) (m : Merged) : SendResult where
  ok := true
  error := none
  returnValue := some value
  changedKeys := m.changedKeys
  removedKeys := m.removedKeys
  events := res.encodedContractEvents
  diagnosticEvents := out.diagnostics
  cpuInsns := out.cpuInsnsConsumed
  memBytes := out.memBytesConsumed
  ttlChangedKeys := m.ttlChangedKeys
  resultCode := none
  detail := none
  rentFee := consumed.rent
  contractEventsSizeBytes := consumed.eventsSize
  refundableFeeConsumed := consumed.refundable

/-- What follows the host's return.  `env` already keeps the module cache the
host was handed. -/
def settleCall (d : Deps) (env : SorobanEnv) (args : SendArgs) (out : HostOutput) :
    EStateM.Result JsError SorobanEnv SendResult :=
  match out.result with
  | .error e => (failedInHost d env args out e []).toValue d env
  | .ok res =>
    match res.encodedInvokeResult with
    | .error e => (failedInHost d env args out e res.encodedContractEvents).toValue d env
    | .ok value =>
      match (do
        checkWrittenEntries env args.resources res.ledgerChanges 0
        consumeRefundable d env res value.len args.maxRefundableFee) with
      | .error (code, message) => (failedAfterHost out code message).toValue d env
      | .ok consumed =>
        match mergeChanges res.ledgerChanges ⟨env.store, [], [], []⟩ with
        | .error e m => .error e { env with store := m.store }
        | .ok () m => (completed out res value consumed m).toValue d { env with store := m.store }

/-- `send`. -/
def SorobanEnv.send (d : Deps) (args : SendArgs) : EStateM JsError SorobanEnv SendResult :=
  fun env =>
    match prepareSend d env args with
    | .error (.thrown e) => .error e env
    | .error (.failed message) => (failedBeforeHost message).toValue d env
    | .ok input =>
      settleCall d { env with moduleCache := some input.moduleCache } args
        (d.invokeHostFunction input)

end LiteSoroban

import LiteSoroban.Env.Fees
import LiteSoroban.Lib.Effect

/-!
# The recording call and the footprint simulations

Two kinds of preflight, neither of which writes to the store.

* `simulate` and `simulateWithAuth` run the host in recording mode.  The host
  reads the ledger through `simulationSnapshot`, which hands it every account
  as the next sequence bump will leave it.  The only field a simulation
  changes is the PRNG counter.
* `simulateExtendTtl` and `simulateRestore` select the keys an
  `ExtendFootprintTTL` or a `RestoreFootprint` would move, and price them.
-/

namespace LiteSoroban

open Effect

/-! ## Accounts as a transaction will leave them -/

/-- `fill_v3` of `update_account_entry`. -/
def AccountEntryExtensionV2.fillV3 (v2 : AccountEntryExtensionV2) : AccountEntryExtensionV2 :=
  match v2.ext with
  | .v0 => { v2 with ext := .v3 ⟨0, 0⟩ }
  | .v3 _ => v2

/-- `fill_v2` of `update_account_entry`.  XDR bounds an account's signers and
its sponsors alike, so the `unwrap_or_default` of the source is never taken. -/
def AccountEntryExtensionV1.fillV2 (signers : Nat) (v1 : AccountEntryExtensionV1) :
    AccountEntryExtensionV1 :=
  match v1.ext with
  | .v0 => { v1 with ext := .v2 (AccountEntryExtensionV2.fillV3
      ⟨0, 0, List.replicate signers none, .v0⟩) }
  | .v2 v2 => { v1 with ext := .v2 v2.fillV3 }

/-- `update_account_entry`: whatever part of the v1 → v2 → v3 chain is missing
is filled in, zeroed. -/
def updateAccountEntry (acc : AccountEntry) : AccountEntry :=
  match acc.ext with
  | .v0 => { acc with ext := .v1 (AccountEntryExtensionV1.fillV2 acc.signers.length ⟨⟨0, 0⟩, .v0⟩) }
  | .v1 v1 => { acc with ext := .v1 (v1.fillV2 acc.signers.length) }

/-- `SimulationSnapshot`: what the host reads the store through. -/
def SorobanEnv.simulationSnapshot (env : SorobanEnv) (key : LedgerKey) :
    Option EntryWithLiveUntil :=
  match env.store.lookup key with
  | none => none
  | some e =>
    match e.entry.data with
    | .account acc => some ⟨{ e.entry with data := .account (updateAccountEntry acc) }, e.liveUntil⟩
    | _ => some e

/-! ## Recording mode -/

/-- `adjust_instructions`. -/
def adjustInstructions (d : Deps) (raw instructionLeeway : Nat) : Nat :=
  if raw = 0 then 0
  else max (saturatingAdd32 raw (max 50000 instructionLeeway))
    (d.adjust .instructions104 raw).toNat

structure SimulateArgs where
  hostFunction : HostFunction
  source : AccountId
  /-- The signed entries of `simulate_with_auth`. -/
  auth : Option (List SorobanAuthorizationEntry)
  instructionLeeway : Nat
  /-- The ledger to simulate in; the open one when absent. -/
  ledgerSeq : Option Nat
  useAddressV2 : Bool

structure SimulateResult where
  ok : Bool
  error : Option String
  returnValue : Option ScVal
  resources : Option SorobanResources
  auth : List SorobanAuthorizationEntry
  restoredRwEntryIndices : List Nat
  instructions : Nat
  adjustedInstructions : Nat
  minResourceFee : Int
  readBytes : Nat
  writeBytes : Nat
  cpuInsns : Nat
  memBytes : Nat
  readOnlyKeys : List LedgerKey
  readWriteKeys : List LedgerKey
  events : List ContractEvent
  diagnosticEvents : List DiagnosticEvent

/-- The ledger a simulation runs in. -/
def SimulateArgs.ledger (args : SimulateArgs) (env : SorobanEnv) : Nat :=
  args.ledgerSeq.getD env.ledgerSeq

/-- Everything the host is called with in recording mode. -/
def recordingInput (env : SorobanEnv) (args : SimulateArgs) (budget : Budget) :
    RecordingInput where
  budget := budget
  hostFunction := args.hostFunction
  source := args.source
  authMode := match args.auth with
    | some auth => .enforcing auth
    | none => .recording args.useAddressV2
  ledgerInfo := { env.ledgerInfo with sequenceNumber := args.ledger env }
  snapshot := env.simulationSnapshot
  prngSeed := env.prngCounter

/-- `next_prng_seed` leaves the counter one up, wrapping at 64 bits. -/
def SorobanEnv.bumpPrng (env : SorobanEnv) : SorobanEnv :=
  { env with prngCounter := (env.prngCounter + 1) % 2 ^ 64 }

/-- A top-level host error: an observable failed simulation. -/
def SimulateResult.failed (out : RecordingOutput) (e : HostError) : SimulateResult where
  ok := false
  error := some e.debug
  returnValue := none
  resources := none
  auth := []
  restoredRwEntryIndices := []
  instructions := 0
  adjustedInstructions := 0
  minResourceFee := 0
  readBytes := 0
  writeBytes := 0
  cpuInsns := out.cpuInsnsConsumed
  memBytes := out.memBytesConsumed
  readOnlyKeys := []
  readWriteKeys := []
  events := []
  diagnosticEvents := out.diagnostics

/-- The resources the simulation hands back to be submitted. -/
def submittedResources (d : Deps) (args : SimulateArgs)
    (res : InvokeHostFunctionRecordingModeResult) : SorobanResources :=
  { res.resources with
    instructions := adjustInstructions d res.resources.instructions args.instructionLeeway }

/-- The quoted fee: only a successful invocation is priced, and only under
fee settings. -/
def simulatedFee (d : Deps) (env : SorobanEnv) (args : SimulateArgs)
    (res : InvokeHostFunctionRecordingModeResult) : Except JsError Int :=
  match res.invokeResult, env.feeSettings with
  | .ok _, some settings =>
    match preflightResourceFee d settings (.invokeHostFunction args.hostFunction res.auth)
        (submittedResources d args res) res.restoredRwEntryIndices
        res.contractEventsAndReturnValueSize (d.extractRentChanges res.ledgerChanges)
        (args.ledger env) with
    | .ok fee => .ok fee
    | .error message => .error ⟨message⟩
  | _, _ => .ok 0

/-- The result of a recording the host completed. -/
def SimulateResult.recorded (d : Deps) (args : SimulateArgs) (out : RecordingOutput)
    (res : InvokeHostFunctionRecordingModeResult) (fee : Int) : SimulateResult where
  ok := res.invokeResult.toBool
  error := match res.invokeResult with
    | .ok _ => none
    | .error e => some e.debug
  returnValue := res.invokeResult.toOption
  resources := some (submittedResources d args res)
  auth := res.auth
  restoredRwEntryIndices := res.restoredRwEntryIndices
  instructions := res.resources.instructions
  adjustedInstructions := (submittedResources d args res).instructions
  minResourceFee := fee
  readBytes := res.resources.diskReadBytes
  writeBytes := res.resources.writeBytes
  cpuInsns := out.cpuInsnsConsumed
  memBytes := out.memBytesConsumed
  readOnlyKeys := res.resources.footprint.readOnly
  readWriteKeys := res.resources.footprint.readWrite
  events := res.contractEvents
  diagnosticEvents := out.diagnostics

/-- What a simulation answers after the host returns. -/
def settleSimulation (d : Deps) (env : SorobanEnv) (args : SimulateArgs)
    (out : RecordingOutput) : Except JsError SimulateResult := do
  let result ← match out.result with
    | .error e => pure (SimulateResult.failed out e)
    | .ok res => do
      let fee ← simulatedFee d env args res
      pure (SimulateResult.recorded d args out res fee)
  d.toValue [result.minResourceFee, result.cpuInsns, result.memBytes]
  return result

/-- `simulate` and `simulate_with_auth`. -/
def SorobanEnv.simulate (d : Deps) (args : SimulateArgs) :
    EStateM JsError SorobanEnv SimulateResult := fun env =>
  match env.simulationBudget d with
  | .error e => .error e env
  | .ok budget =>
    match settleSimulation d env args (d.recordHostFunction (recordingInput env args budget)) with
    | .error e => .error e env.bumpPrng
    | .ok result => .ok result env.bumpPrng

/-- A simulation changes the PRNG counter and nothing else. -/
theorem simulate_frame (d : Deps) (env : SorobanEnv) (args : SimulateArgs) :
    ∃ prng, finalState (env.simulate d args) = { env with prngCounter := prng } := by
  simp only [SorobanEnv.simulate]
  split
  · exact ⟨env.prngCounter, rfl⟩
  · split
    · exact ⟨_, rfl⟩
    · exact ⟨_, rfl⟩

/-- What a simulation that returns answers: a top-level host error, or a
recording with its quote. -/
theorem simulate_ok_cases {d : Deps} {env env' : SorobanEnv} {args : SimulateArgs}
    {result : SimulateResult} (h : env.simulate d args = .ok result env') :
    ∃ budget out, out = d.recordHostFunction (recordingInput env args budget) ∧
      ((∃ e, out.result = .error e ∧ result = SimulateResult.failed out e) ∨
        ∃ res fee, out.result = .ok res ∧ simulatedFee d env args res = .ok fee ∧
          result = SimulateResult.recorded d args out res fee) := by
  unfold SorobanEnv.simulate at h
  cases hbudget : env.simulationBudget d with
  | error e => simp [hbudget] at h
  | ok budget =>
    refine ⟨budget, _, rfl, ?_⟩
    simp only [hbudget] at h
    cases hsettled : settleSimulation d env args
        (d.recordHostFunction (recordingInput env args budget)) with
    | error e => simp [hsettled] at h
    | ok answered =>
      simp only [hsettled, EStateM.Result.ok.injEq] at h
      rw [h.1] at hsettled
      unfold settleSimulation at hsettled
      cases hout : (d.recordHostFunction (recordingInput env args budget)).result with
      | error e =>
        simp only [hout, Except.bind_eq_ok, pure, Except.pure, Except.ok.injEq] at hsettled
        obtain ⟨_, rfl, _, -, hresult⟩ := hsettled
        exact .inl ⟨e, rfl, hresult.symm⟩
      | ok res =>
        simp only [hout, Except.bind_eq_ok, pure, Except.pure, Except.ok.injEq] at hsettled
        obtain ⟨fee, hfee, _, rfl, _, -, hresult⟩ := hsettled
        exact .inr ⟨res, fee, rfl, hfee, hresult.symm⟩

/-! ## The footprint simulations -/

/-- What a footprint simulation has selected: the keys and their rent
changes, in the order they were asked for, and their total size. -/
structure Selected where
  keys : List LedgerKey
  rentChanges : List LedgerEntryRentChange
  bytes : Nat

def Selected.empty : Selected := ⟨[], [], 0⟩

def Selected.push (acc : Selected) (key : LedgerKey) (change : LedgerEntryRentChange)
    (bytes : Nat) : Selected :=
  ⟨acc.keys ++ [key], acc.rentChanges ++ [change], bytes⟩

/-- The text both footprint simulations answer for an entry without a TTL. -/
def missingTtl (d : Deps) (key : LedgerKey) : String :=
  "Internal error: missing TTL for ledger key that must have TTL: `" ++ d.keyDebug key ++ "`"

/-- One turn of the loop of `extend_ttl_resources`. -/
def extendKey (d : Deps) (env : SorobanEnv) (current newLiveUntil : Nat) (acc : Selected)
    (key : LedgerKey) : Except String Selected :=
  if !needsTtl key then
    .error ("Can't extend TTL for ledger entry with key `" ++ d.keyDebug key ++
      "`. Only entries with TTL (contract data or code entries) can have it extended")
  else match env.store.lookup key with
    | none => .ok acc
    | some e =>
      match e.liveUntil with
      | none => .error (missingTtl d key)
      | some liveUntil =>
        -- An expired temporary entry does not exist as far as the protocol goes.
        if isTemporary key && liveUntil < current then .ok acc
        else if newLiveUntil ≤ liveUntil then .ok acc
        else if liveUntil < current then
          .error ("Can't extend for an expired entry with key: " ++ d.keyDebug key ++
            ". The entry must be restored before it can be extended.")
        else match env.entrySizeForRentOf d e.entry with
          | .error _ => .error "entry size for rent"
          | .ok size => .ok (acc.push key
              (rentChangeWithoutModification key size (some liveUntil) newLiveUntil) acc.bytes)

/-- `extend_ttl_resources`: the extended keys, sorted, as a read-only
footprint, and their rent changes. -/
def extendTtlResources (d : Deps) (env : SorobanEnv) (keys : List LedgerKey)
    (extendTo current : Nat) : Except String (SorobanResources × List LedgerEntryRentChange) := do
  let newLiveUntil := saturatingAdd32 current extendTo
  let selected ← keys.foldlM (extendKey d env current newLiveUntil) Selected.empty
  if u32Max < selected.keys.length then throw "too many keys"
  let footprint : LedgerFootprint := ⟨selected.keys.mergeSort d.keyLe, []⟩
  return (⟨footprint, 0, 0, 0⟩, selected.rentChanges)

/-- Contract code, and contract data that is not temporary. -/
def isPersistent : LedgerKey → Bool
  | .contractCode _ => true
  | .contractData _ _ .persistent => true
  | _ => false

/-- One turn of the loop of `restore_resources`. -/
def restoreKey (d : Deps) (env : SorobanEnv) (current restoredLiveUntil : Nat) (acc : Selected)
    (key : LedgerKey) : Except String Selected :=
  if !isPersistent key then
    .error ("Can't restore a ledger entry with key: " ++ d.keyDebug key ++
      ". Only persistent ledger entries with TTL can be restored.")
  else match env.store.lookup key with
    | none => .error ("Missing entry to restore for key " ++ d.keyDebug key)
    | some e =>
      match e.liveUntil with
      | none => .error (missingTtl d key)
      | some liveUntil =>
        if current ≤ liveUntil then .ok acc
        else match env.entrySizeForRentOf d e.entry with
          | .error _ => .error "entry size for rent"
          | .ok size => .ok (acc.push key
              (rentChangeWithoutModification key size none restoredLiveUntil)
              (saturatingAdd32 acc.bytes (clamp32 (d.entrySize e.entry))))

/-- `restore_resources`: the archived keys, sorted, as a read-write
footprint, with their total size as both byte counts. -/
def restoreResources (d : Deps) (env : SorobanEnv) (keys : List LedgerKey) (current : Nat) :
    Except String (SorobanResources × List LedgerEntryRentChange) :=
  match { env.ledgerInfo with sequenceNumber := current }.minLiveUntilLedgerChecked with
  | none => .error "minimum persistent live until ledger overflows"
  | some restoredLiveUntil => do
    let selected ← keys.foldlM (restoreKey d env current restoredLiveUntil) Selected.empty
    if u32Max < selected.keys.length then throw "too many keys"
    let footprint : LedgerFootprint := ⟨[], selected.keys.mergeSort d.keyLe⟩
    return (⟨footprint, 0, selected.bytes, selected.bytes⟩, selected.rentChanges)

structure FootprintSimulation where
  ok : Bool
  error : Option String
  resources : Option SorobanResources
  minResourceFee : Option Int

/-- `footprint_simulation`. -/
def footprintSimulation (d : Deps) (env : SorobanEnv)
    (res : Except String (SorobanResources × List LedgerEntryRentChange))
    (operation : OperationBody) (ledgerSeq : Nat) : Except JsError FootprintSimulation :=
  match res with
  | .error e => .ok ⟨false, some e, none, none⟩
  | .ok (resources, rentChanges) =>
    match env.feeSettings with
    | none => .ok ⟨true, none, some resources, none⟩
    | some settings =>
      match preflightResourceFee d settings operation resources [] 0 rentChanges ledgerSeq with
      | .error message => .error ⟨message⟩
      | .ok fee => do
        d.toValue [fee]
        return ⟨true, none, some resources, some fee⟩

/-- `simulate_extend_ttl`. -/
def SorobanEnv.simulateExtendTtl (d : Deps) (env : SorobanEnv) (keys : List LedgerKey)
    (extendTo : Nat) (ledgerSeq : Option Nat) : Except JsError FootprintSimulation :=
  let current := ledgerSeq.getD env.ledgerSeq
  footprintSimulation d env (extendTtlResources d env keys extendTo current)
    (.extendFootprintTtl extendTo) current

/-- `simulate_restore`. -/
def SorobanEnv.simulateRestore (d : Deps) (env : SorobanEnv) (keys : List LedgerKey)
    (ledgerSeq : Option Nat) : Except JsError FootprintSimulation :=
  let current := ledgerSeq.getD env.ledgerSeq
  footprintSimulation d env (restoreResources d env keys current) .restoreFootprint current

end LiteSoroban

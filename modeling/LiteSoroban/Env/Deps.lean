import Mathlib.Data.Finmap
import LiteSoroban.Xdr.Types

/-!
# What the repository imports

Most of what a Soroban ledger computes is computed by code that is not in
this repository: `soroban-env-host` runs contracts and prices resources, the
XDR crates and the Stellar SDK encode and hash values, and `wasm-bindgen`
carries results into JavaScript.  `Deps` collects those functions, and every
definition of the model that calls one of them takes a `Deps`.

Nothing is assumed about a `Deps`.  A result that needs a property of one of
its functions takes that property as a hypothesis with a name.

`EntryWithLiveUntil` and `Store` are here as well, because the host reads the
ledger through them.
-/

namespace LiteSoroban

/-- What a failed host call carries; the code only ever prints it. -/
structure HostError where
  debug : String
  deriving DecidableEq

/-- An exception: a `JsError` of the Rust crate, or an error thrown by the
TypeScript layer. -/
structure JsError where
  message : String
  deriving DecidableEq

/-- `host_err`. -/
def hostErr (e : HostError) : JsError := ⟨"host: " ++ e.debug⟩

/-! ## The ledger's entries -/

/-- A stored entry and the last ledger it is live in, if it has a TTL. -/
structure EntryWithLiveUntil where
  entry : LedgerEntry
  liveUntil : Option Nat
  deriving DecidableEq

/-- `BTreeMap<Rc<LedgerKey>, EntryWithLiveUntil>`. -/
abbrev Store := Finmap (fun _ : LedgerKey => EntryWithLiveUntil)

/-! ## Budgets and ledger info -/

structure ContractCostParams where
  xdr : Bytes
  deriving DecidableEq

/-- A budget the host was asked to build: its limits, its shadow limits where
they were set, and the cost tables where they were installed. -/
structure Budget where
  cpuLimit : Nat
  memLimit : Nat
  shadow : Option (Nat × Nat)
  costParams : Option (ContractCostParams × ContractCostParams)
  deriving DecidableEq

structure LedgerInfo where
  protocolVersion : Nat
  sequenceNumber : Nat
  timestamp : Nat
  networkId : Bytes
  baseReserve : Nat
  minTempEntryTtl : Nat
  minPersistentEntryTtl : Nat
  maxEntryTtl : Nat
  deriving DecidableEq

/-- `LedgerInfo::min_live_until_ledger_checked` of a persistent entry. -/
def LedgerInfo.minLiveUntilLedgerChecked (info : LedgerInfo) : Option Nat :=
  let ledger := info.sequenceNumber + (info.minPersistentEntryTtl - 1)
  if ledger < 2 ^ 32 then some ledger else none

theorem LedgerInfo.minLiveUntilLedgerChecked_eq_some {info : LedgerInfo} {ttl : Nat}
    (h : info.minLiveUntilLedgerChecked = some ttl) :
    ttl = info.sequenceNumber + (info.minPersistentEntryTtl - 1) ∧ ttl < 2 ^ 32 := by
  simp only [minLiveUntilLedgerChecked, Option.ite_none_right_eq_some, Option.some.injEq] at h
  exact ⟨h.2.symm, h.2 ▸ h.1⟩

/-! ## The enforcing call -/

structure TtlLedgerEntryMeta where
  liveUntilLedger : Nat
  entrySizeForRent : Nat
  deriving DecidableEq

/-- The parsed modules a cache holds, by the hash they are filed under. -/
abbrev ModuleCache := Finset Hash

/-- Everything `send` passes to `invoke_host_function`. -/
structure HostInput where
  budget : Budget
  hostFunction : HostFunction
  resources : SorobanResources
  restoredRwEntryIndices : List Nat
  source : AccountId
  auth : List SorobanAuthorizationEntry
  ledgerInfo : LedgerInfo
  entries : List (Option (Encoded LedgerEntry) × Option TtlLedgerEntryMeta)
  basePrngSeed : Bytes
  moduleCache : ModuleCache
  deriving DecidableEq

structure LedgerEntryLiveUntilChange where
  oldLiveUntilLedger : Nat
  newLiveUntilLedger : Nat
  deriving DecidableEq

structure LedgerEntryChange where
  readOnly : Bool
  encodedKey : Encoded LedgerKey
  oldEntrySizeBytesForRent : Nat
  encodedNewValue : Option (Encoded LedgerEntry)
  newEntrySizeBytesForRent : Nat
  ttlChange : Option LedgerEntryLiveUntilChange
  deriving DecidableEq

/-- The parts of a contract event the code reads. -/
structure ContractEvent where
  contractId : Option Hash
  topics : List ScVal
  data : ScVal
  deriving DecidableEq

/-- A diagnostic event: one the host wrote, or one `core_error_event` builds
out of a message and the numbers after it. -/
inductive DiagnosticEvent where
  | host (xdr : Bytes)
  | coreError (message : String) (args : List Nat)
  deriving DecidableEq

structure InvokeHostFunctionResult where
  encodedInvokeResult : Except HostError (Encoded ScVal)
  ledgerChanges : List LedgerEntryChange
  encodedContractEvents : List (Encoded ContractEvent)

/-- What `invoke_host_function` leaves behind: its result, what the budget
consumed, and the diagnostics. -/
structure HostOutput where
  result : Except HostError InvokeHostFunctionResult
  cpuInsnsConsumed : Nat
  memBytesConsumed : Nat
  diagnostics : List DiagnosticEvent

/-! ## The recording call -/

inductive RecordingInvocationAuthMode where
  | enforcing (auth : List SorobanAuthorizationEntry)
  | recording (useAddressV2 : Bool)

/-- Everything `simulate` passes to `invoke_host_function_in_recording_mode`.
The snapshot is the `SnapshotSource` the host reads through, and the seed is
the counter that `next_prng_seed` writes into it. -/
structure RecordingInput where
  budget : Budget
  hostFunction : HostFunction
  source : AccountId
  authMode : RecordingInvocationAuthMode
  ledgerInfo : LedgerInfo
  snapshot : LedgerKey → Option EntryWithLiveUntil
  prngSeed : Nat

structure InvokeHostFunctionRecordingModeResult where
  invokeResult : Except HostError ScVal
  resources : SorobanResources
  auth : List SorobanAuthorizationEntry
  restoredRwEntryIndices : List Nat
  ledgerChanges : List LedgerEntryChange
  contractEvents : List ContractEvent
  contractEventsAndReturnValueSize : Nat

structure RecordingOutput where
  result : Except HostError InvokeHostFunctionRecordingModeResult
  cpuInsnsConsumed : Nat
  memBytesConsumed : Nat
  diagnostics : List DiagnosticEvent

/-! ## Fees -/

structure TransactionResources where
  instructions : Nat
  diskReadEntries : Nat
  writeEntries : Nat
  diskReadBytes : Nat
  writeBytes : Nat
  contractEventsSizeBytes : Nat
  transactionSizeBytes : Nat
  deriving DecidableEq

structure FeeConfiguration where
  feePerInstructionIncrement : Int
  feePerDiskReadEntry : Int
  feePerWriteEntry : Int
  feePerDiskRead1kb : Int
  feePerWrite1kb : Int
  feePerHistorical1kb : Int
  feePerContractEvent1kb : Int
  feePerTransactionSize1kb : Int
  deriving DecidableEq

structure RentWriteFeeConfiguration where
  stateTargetSizeBytes : Int
  rentFee1kbStateSizeLow : Int
  rentFee1kbStateSizeHigh : Int
  stateSizeRentFeeGrowthFactor : Nat
  deriving DecidableEq

structure RentFeeConfiguration where
  feePerWrite1kb : Int
  feePerRent1kb : Int
  feePerWriteEntry : Int
  persistentRentRateDenominator : Int
  temporaryRentRateDenominator : Int
  deriving DecidableEq

structure LedgerEntryRentChange where
  isPersistent : Bool
  isCodeEntry : Bool
  oldSizeBytes : Nat
  newSizeBytes : Nat
  oldLiveUntilLedger : Nat
  newLiveUntilLedger : Nat
  deriving DecidableEq

/-- The three factors the code multiplies by in `f64`. -/
inductive AdjustmentFactor where
  | instructions104
  | txSize110
  | refundable115
  deriving DecidableEq

/-! ## The functions -/

/-- The code outside the repository, as the repository calls it. -/
structure Deps where
  /-- `soroban_env_host::e2e_invoke::invoke_host_function`. -/
  invokeHostFunction : HostInput → HostOutput
  /-- `invoke_host_function_in_recording_mode`. -/
  recordHostFunction : RecordingInput → RecordingOutput
  /-- Whether the host builds the budget: it refuses some cost tables. -/
  newBudget : Budget → Except HostError Unit
  /-- `Budget::default()`'s instruction and memory limits. -/
  defaultLimits : Nat × Nat
  /-- `entry_size_for_rent`, given the entry's XDR size. -/
  entrySizeForRent : Budget → LedgerEntry → Nat → Except HostError Nat
  extractRentChanges : List LedgerEntryChange → List LedgerEntryRentChange
  computeRentFee : List LedgerEntryRentChange → RentFeeConfiguration → Nat → Int
  computeRentWriteFeePer1kb : Int → RentWriteFeeConfiguration → Int
  /-- `compute_transaction_resource_fee`: non-refundable, refundable. -/
  computeTransactionResourceFee : TransactionResources → FeeConfiguration → Int × Int
  /-- `ModuleCache::parse_and_cache_module_simple`: the hash the module is
  filed under, when the code compiles at that protocol. -/
  parseModule : Nat → Bytes → Option Hash
  /-- `get_wasm_hash`. -/
  getWasmHash : Bytes → Hash
  /-- `wasm_entry`. -/
  wasmEntry : Bytes → LedgerEntry
  /-- `get_account_id` of a seed byte repeated. -/
  getAccountId : UInt8 → AccountId
  /-- `account_entry`. -/
  accountEntry : AccountId → LedgerEntry
  /-- The XDR size of a `LedgerKey`. -/
  keySize : LedgerKey → Nat
  /-- The XDR size of a `LedgerEntry`. -/
  entrySize : LedgerEntry → Nat
  /-- The XDR size of a v1 envelope. -/
  envelopeSize : TransactionV1Envelope → Nat
  /-- The derived `Debug` of `LedgerKey`. -/
  keyDebug : LedgerKey → String
  /-- The derived `Ord` of `LedgerKey`. -/
  keyLe : LedgerKey → LedgerKey → Bool
  /-- `((value as f64) * factor)`, clamped and floored. -/
  adjust : AdjustmentFactor → Int → Int
  /-- `serde_wasm_bindgen::to_value` on the 64-bit numbers of a result: it
  refuses one that no JS number holds. -/
  toValue : List Int → Except JsError Unit
  sha256 : Bytes → Bytes
  /-- `StrKey.encodeEd25519PublicKey`. -/
  encodeEd25519PublicKey : Bytes → String
  /-- `Keypair.verify`: public key, signature, message. -/
  verify : Bytes → Bytes → Bytes → Bool
  /-- Whether the SDK's encoder takes the account entry: it refuses a number
  outside the range of its field. -/
  encodeAccount : AccountEntry → Except JsError Unit
  /-- Whether the SDK's encoder takes a ledger header of that sequence and close
  time. -/
  encodeHeader : Int → Nat → Except JsError Unit
  /-- `Transaction.hash()` under a network passphrase. -/
  transactionHash : String → Transaction → Hash
  feeBumpTransactionHash : String → FeeBumpTransaction → Hash
  /-- `TransactionBuilder.fromXdr(..).hash()` of an envelope from before
  protocol 13, if it parses. -/
  v0TransactionHash : String → Bytes → Except JsError Hash
  /-- `Address.contract(..).toString()`. -/
  contractStrKey : Hash → String
  /-- Whether the SDK's `Transaction` constructor takes the envelope. -/
  newTransaction : TransactionV1Envelope → Except JsError Unit
  /-- Whether the SDK's `FeeBumpTransaction` constructor takes the envelope. -/
  newFeeBumpTransaction : FeeBumpTransactionEnvelope → Except JsError Unit

/-- The least host: it traps every call, prices everything at nothing, and
takes every value and every signature it is shown.  Concrete runs start from
it and override what they are about. -/
def Deps.idle : Deps where
  invokeHostFunction _ := ⟨.error ⟨"trapped"⟩, 0, 0, []⟩
  recordHostFunction _ := ⟨.error ⟨"trapped"⟩, 0, 0, []⟩
  newBudget _ := .ok ()
  defaultLimits := (100000000, 41943040)
  entrySizeForRent _ _ size := .ok size
  extractRentChanges _ := []
  computeRentFee _ _ _ := 0
  computeRentWriteFeePer1kb _ _ := 0
  computeTransactionResourceFee _ _ := (0, 0)
  parseModule _ _ := none
  getWasmHash code := code
  wasmEntry code := ⟨0, .contractCode ⟨code, code, []⟩, .v0⟩
  getAccountId seed := ⟨List.replicate 32 seed⟩
  accountEntry id := ⟨0, .account ⟨id, 0, 0, 0, none, 0, [], ⟨1, 0, 0, 0⟩, [], .v0⟩, .v0⟩
  keySize _ := 0
  entrySize _ := 0
  envelopeSize _ := 0
  keyDebug _ := ""
  keyLe _ _ := true
  adjust _ _ := 0
  toValue _ := .ok ()
  sha256 bytes := bytes
  encodeEd25519PublicKey _ := ""
  verify _ _ _ := true
  encodeAccount _ := .ok ()
  encodeHeader _ _ := .ok ()
  transactionHash _ _ := []
  feeBumpTransactionHash _ _ := []
  v0TransactionHash _ _ := .ok []
  contractStrKey _ := ""
  newTransaction _ := .ok ()
  newFeeBumpTransaction _ := .ok ()

end LiteSoroban

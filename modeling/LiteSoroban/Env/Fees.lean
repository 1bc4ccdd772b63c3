import LiteSoroban.Env.State

/-!
# Budgets, fees and rent

The budget half of `crates/host-wasm/src/lib.rs` and all of `fees.rs`.  The
arithmetic itself is the host's.  What is here assembles its inputs: the two
budgets, the fee configurations, the resources a transaction is priced on,
and the rent changes of an entry whose TTL moves.
-/

namespace LiteSoroban

/-! ## Budgets -/

namespace SorobanEnv

/-- `tx_limits`: instructions and memory, from the fee settings or the host's
defaults. -/
def txLimits (d : Deps) (env : SorobanEnv) : Nat × Nat :=
  match env.feeSettings with
  | some f => (f.txMaxInstructions.toNat, f.txMemoryLimit)
  | none => d.defaultLimits

/-- `budget`: the cost tables count only when both are installed, and the
shadow limits only with them. -/
def budget (d : Deps) (env : SorobanEnv) (cpu mem : Nat) (shadow : Option (Nat × Nat)) :
    Except JsError Budget := do
  let b : Budget :=
    match env.cpuCostParams, env.memCostParams with
    | some cpuParams, some memParams => ⟨cpu, mem, shadow, some (cpuParams, memParams)⟩
    | _, _ => ⟨cpu, mem, none, none⟩
  match d.newBudget b with
  | .ok () => return b
  | .error e => throw (hostErr e)

/-- `simulation_budget`: ten times the instructions and twice the memory as
shadow limits. -/
def simulationBudget (d : Deps) (env : SorobanEnv) : Except JsError Budget :=
  let (cpu, mem) := env.txLimits d
  env.budget d cpu mem (some (min (cpu * 10) (2 ^ 64 - 1), min (mem * 2) (2 ^ 64 - 1)))

/-- `enforcing_budget`: the declared instructions, capped at the network's. -/
def enforcingBudget (d : Deps) (env : SorobanEnv) (declaredInstructions : Nat) :
    Except JsError Budget :=
  let (cpu, mem) := env.txLimits d
  let cpu := if env.enforceDeclaredResources then min declaredInstructions cpu else cpu
  env.budget d cpu mem none

end SorobanEnv

/-! ## Fee settings -/

namespace Fees.NetworkFeeSettings

/-- `fee_configuration`. -/
def feeConfiguration (s : Fees.NetworkFeeSettings) : FeeConfiguration where
  feePerInstructionIncrement := s.feeRatePerInstructionsIncrement
  feePerDiskReadEntry := s.feeDiskReadLedgerEntry
  feePerWriteEntry := s.feeWriteLedgerEntry
  feePerDiskRead1kb := s.feeDiskRead1kb
  feePerWrite1kb := s.feeWrite1kb
  feePerHistorical1kb := s.feeHistorical1kb
  feePerContractEvent1kb := s.feeContractEvents1kb
  feePerTransactionSize1kb := s.feeTxSize1kb

/-- `fee_per_rent_1kb`. -/
def feePerRent1kb (d : Deps) (s : Fees.NetworkFeeSettings) : Int :=
  d.computeRentWriteFeePer1kb s.averageSorobanStateSize
    { stateTargetSizeBytes := s.sorobanStateTargetSizeBytes
      rentFee1kbStateSizeLow := s.rentFee1kbSorobanStateSizeLow
      rentFee1kbStateSizeHigh := s.rentFee1kbSorobanStateSizeHigh
      stateSizeRentFeeGrowthFactor := s.sorobanStateRentFeeGrowthFactor }

/-- `rent_fee_configuration`. -/
def rentFeeConfiguration (d : Deps) (s : Fees.NetworkFeeSettings) : RentFeeConfiguration where
  feePerWrite1kb := s.feeWrite1kb
  feePerRent1kb := s.feePerRent1kb d
  feePerWriteEntry := s.feeWriteLedgerEntry
  persistentRentRateDenominator := s.persistentRentRateDenominator
  temporaryRentRateDenominator := s.tempRentRateDenominator

/-- `validate_contract_ledger_entry`: the diagnostic, or `none` when the entry
fits the network's limit. -/
def validateContractLedgerEntry (s : Fees.NetworkFeeSettings) (key : LedgerKey)
    (entrySize : Nat) : Option String :=
  let maxCode := s.maxContractSizeBytes
  let maxData := s.maxContractDataEntrySizeBytes
  match key with
  | .contractCode _ =>
    if maxCode < entrySize then
      some s!"Wasm size exceeds network config maximum contract size: {entrySize} > {maxCode}"
    else none
  | .contractData _ _ _ =>
    if maxData < entrySize then
      some s!"ContractData size exceeds network config maximum size: {entrySize} > {maxData}"
    else none
  | _ => none

/-- `events_fee`: the refundable half of the fee for that many bytes. -/
def eventsFee (d : Deps) (s : Fees.NetworkFeeSettings) (eventsSize : Nat) : Int :=
  (d.computeTransactionResourceFee
    { instructions := 0
      diskReadEntries := 0
      writeEntries := 0
      diskReadBytes := 0
      writeBytes := 0
      contractEventsSizeBytes := eventsSize
      transactionSizeBytes := 0 }
    s.feeConfiguration).2

end Fees.NetworkFeeSettings

/-! ## The declared resources -/

/-- `num_disk_read_entries`: every entry of a restore, otherwise the classic
keys and the archived entries marked for restoring. -/
def numDiskReadEntries (data : SorobanTransactionData) (isRestore : Bool) : Nat :=
  let fp := data.resources.footprint
  if isRestore then fp.readWrite.length
  else (fp.keys.filter (fun k => !needsTtl k)).length + data.archivedSorobanEntries.length

namespace SorobanEnv

/-- `fees`. -/
def fees (env : SorobanEnv) : Except JsError Fees.NetworkFeeSettings :=
  match env.feeSettings with
  | some s => .ok s
  | none => .error ⟨"no network fee settings installed (setFeeSettings)"⟩

/-- `compute_resource_fee`: non-refundable, refundable. -/
def computeResourceFee (d : Deps) (env : SorobanEnv) (data : SorobanTransactionData)
    (txSize eventsSize : Nat) (isRestore : Bool) : Except JsError (Int × Int) := do
  let fees ← env.fees
  let r := data.resources
  return d.computeTransactionResourceFee
    { instructions := r.instructions
      diskReadEntries := numDiskReadEntries data isRestore
      writeEntries := r.footprint.readWrite.length
      diskReadBytes := r.diskReadBytes
      writeBytes := r.writeBytes
      contractEventsSizeBytes := eventsSize
      transactionSizeBytes := txSize }
    fees.feeConfiguration

/-! ## Rent -/

/-- `entry_size_for_rent_of`, under the simulation's budget. -/
def entrySizeForRentOf (d : Deps) (env : SorobanEnv) (entry : LedgerEntry) :
    Except JsError Nat := do
  let budget ← env.simulationBudget d
  match d.entrySizeForRent budget entry (clamp32 (d.entrySize entry)) with
  | .ok size => return size
  | .error e => throw (hostErr e)

/-- `entry_size_for_rent`: of the entry under a key, if there is one. -/
def entrySizeForRent (d : Deps) (env : SorobanEnv) (key : LedgerKey) :
    Except JsError (Option Nat) :=
  match env.store.lookup key with
  | some e => do return some (← env.entrySizeForRentOf d e.entry)
  | none => .ok none

end SorobanEnv

/-- `rent_change_without_modification`: an entry whose TTL moves and whose
bytes do not, or that comes back from the archive. -/
def rentChangeWithoutModification (key : LedgerKey) (entrySizeForRent : Nat)
    (oldLiveUntil : Option Nat) (newLiveUntil : Nat) : LedgerEntryRentChange where
  isPersistent := !isTemporary key
  isCodeEntry := match key with
    | .contractCode _ => true
    | _ => false
  oldSizeBytes := if oldLiveUntil.isSome then entrySizeForRent else 0
  newSizeBytes := entrySizeForRent
  oldLiveUntilLedger := oldLiveUntil.getD 0
  newLiveUntilLedger := newLiveUntil

/-- One row of the four parallel arrays `compute_rent_fee_for` takes. -/
structure RentChange where
  key : LedgerKey
  size : Nat
  oldLiveUntil : Nat
  newLiveUntil : Nat
  deriving DecidableEq

/-- The rent change of a row; an old TTL of 0 stands for an archived entry. -/
def RentChange.toHost (c : RentChange) : LedgerEntryRentChange :=
  rentChangeWithoutModification c.key c.size
    (if c.oldLiveUntil ≠ 0 then some c.oldLiveUntil else none) c.newLiveUntil

/-- `compute_rent_fee_for`, at the current ledger. -/
def SorobanEnv.computeRentFeeFor (d : Deps) (env : SorobanEnv) (changes : List RentChange) :
    Except JsError Int := do
  let fees ← env.fees
  return d.computeRentFee (changes.map RentChange.toHost) (fees.rentFeeConfiguration d)
    env.ledgerSeq

/-! ## The quote -/

/-- `adjust_u32`. -/
def adjust32 (d : Deps) (factor : AdjustmentFactor) (value additive : Nat) : Nat :=
  if value = 0 then 0
  else max (saturatingAdd32 value additive) (d.adjust factor value).toNat

/-- `adjust_i64`. -/
def adjustI64 (d : Deps) (factor : AdjustmentFactor) (value : Int) (additive : Nat) : Int :=
  if value = 0 then 0
  else max (saturatingAddI64 value additive) (d.adjust factor value)

/-- The envelope the quote is made for: everything around the operation is as
large as XDR lets it be. -/
def maxEnvelope (operation : OperationBody) (footprint : LedgerFootprint)
    (restoredRwEntryIds : List Nat) : TransactionV1Envelope :=
  let source := MuxedAccount.keyTypeMuxedEd25519 0 (List.replicate 32 0)
  let bytes64 : Bytes := List.replicate 64 0
  let signerKey := SignerKey.signerKeyTypeEd25519SignedPayload (List.replicate 32 0) bytes64
  { tx :=
      { sourceAccount := source
        fee := 0
        seqNum := 0
        cond := .precondV2
          { timeBounds := some ⟨0, 0⟩
            ledgerBounds := some ⟨0, 0⟩
            minSeqNum := some 0
            minSeqAge := 0
            minSeqLedgerGap := 0
            extraSigners := [signerKey, signerKey] }
        memo := .memoValue (List.replicate 32 0)
        operations := [⟨some source, operation⟩]
        ext := .sorobanData
          { ext := .resourceExt restoredRwEntryIds
            resources := ⟨footprint, 0, 0, 0⟩
            resourceFee := 0 } }
    signatures := List.replicate 20 ⟨List.replicate 4 0, bytes64⟩ }

/-- `estimate_max_transaction_size`: the operation in the largest envelope it
could ship in.  A size past `u32` is an error. -/
def estimateMaxTransactionSize (d : Deps) (operation : OperationBody)
    (footprint : LedgerFootprint) (restoredRwEntryIds : List Nat) : Except String Nat :=
  let size := d.envelopeSize (maxEnvelope operation footprint restoredRwEntryIds)
  if size ≤ u32Max then .ok size else .error "out of range integral type conversion attempted"

/-- `preflight_resource_fee`: what preflight quotes as `minResourceFee`. -/
def preflightResourceFee (d : Deps) (settings : Fees.NetworkFeeSettings)
    (operation : OperationBody) (resources : SorobanResources) (restoredRwEntryIds : List Nat)
    (contractEventsAndReturnValueSize : Nat) (rentChanges : List LedgerEntryRentChange)
    (ledgerSeq : Nat) : Except String Int := do
  let fp := resources.footprint
  let diskReadEntries :=
    (fp.keys.filter (fun k => !needsTtl k)).length + restoredRwEntryIds.length
  let txSize ← estimateMaxTransactionSize d operation fp restoredRwEntryIds
  let (nonRefundable, refundable) := d.computeTransactionResourceFee
    { instructions := resources.instructions
      diskReadEntries := diskReadEntries
      writeEntries := fp.readWrite.length
      diskReadBytes := resources.diskReadBytes
      writeBytes := resources.writeBytes
      contractEventsSizeBytes := contractEventsAndReturnValueSize
      transactionSizeBytes := adjust32 d .txSize110 txSize 500 }
    settings.feeConfiguration
  let rent := d.computeRentFee rentChanges (settings.rentFeeConfiguration d) ledgerSeq
  return saturatingAddI64 nonRefundable
    (adjustI64 d .refundable115 (saturatingAddI64 refundable rent) 0)

end LiteSoroban

import LiteSoroban.Lib.Filling
import LiteSoroban.LiteStellar.Settings

/-!
# Settings read off a node

`loadFeeSettingsFromRpc`, `loadCostParamsFromRpc` and
`loadArchivalSettingsFromRpc` ask a node for its configuration entries, and
what they answer goes into the setters.  A node answers the entries it has, in
an order of its own.

* `loadFeeSettings_spec` is about every answer.  The settings are loaded if the
  node has returned every setting asked for.  Otherwise the exception names the
  fields that are missing, all of them and in the order of the settings object.
* `network_configures` is about a node that answers with the configuration of
  its network.  Whatever the order of its answers, and in whatever order and
  however often what was loaded is installed, the ledger ends with the
  network's configuration, and no setter throws.
-/

namespace LiteSoroban

open Effect

/-! ## Configuration entries -/

/-- `ConfigSettingContractComputeV0`. -/
structure ContractComputeV0 where
  txMaxInstructions : Int
  feeRatePerInstructionsIncrement : Int
  txMemoryLimit : Nat

/-- `ConfigSettingContractLedgerCostV0`. -/
structure ContractLedgerCostV0 where
  txMaxDiskReadEntries : Nat
  txMaxDiskReadBytes : Nat
  txMaxWriteLedgerEntries : Nat
  txMaxWriteBytes : Nat
  feeDiskReadLedgerEntry : Int
  feeWriteLedgerEntry : Int
  feeDiskRead1Kb : Int
  sorobanStateTargetSizeBytes : Int
  rentFee1KbSorobanStateSizeLow : Int
  rentFee1KbSorobanStateSizeHigh : Int
  sorobanStateRentFeeGrowthFactor : Nat

/-- `StateArchivalSettings`. -/
structure StateArchivalSettings where
  maxEntryTtl : Nat
  minTemporaryTtl : Nat
  minPersistentTtl : Nat
  persistentRentRateDenominator : Int
  tempRentRateDenominator : Int

/-- `ConfigSettingId`, the settings the loaders ask for. -/
inductive ConfigSettingId where
  | contractComputeV0
  | contractLedgerCostV0
  | contractLedgerCostExtV0
  | contractHistoricalDataV0
  | contractEventsV0
  | contractBandwidthV0
  | contractMaxSizeBytes
  | contractDataKeySizeBytes
  | contractDataEntrySizeBytes
  | stateArchival
  | liveSorobanStateSizeWindow
  | contractCostParamsCpuInstructions
  | contractCostParamsMemoryBytes
  | other
  deriving DecidableEq

/-- `ConfigSettingEntry`.  The settings the loaders do not look at are one
arm. -/
inductive ConfigSetting where
  | contractComputeV0 (v : ContractComputeV0)
  | contractLedgerCostV0 (v : ContractLedgerCostV0)
  | contractLedgerCostExtV0 (txMaxFootprintEntries : Nat) (feeWrite1Kb : Int)
  | contractHistoricalDataV0 (feeHistorical1Kb : Int)
  | contractEventsV0 (txMaxContractEventsSizeBytes : Nat) (feeContractEvents1Kb : Int)
  | contractBandwidthV0 (txMaxSizeBytes : Nat) (feeTxSize1Kb : Int)
  | contractMaxSizeBytes (v : Nat)
  | contractDataKeySizeBytes (v : Nat)
  | contractDataEntrySizeBytes (v : Nat)
  | stateArchival (v : StateArchivalSettings)
  | liveSorobanStateSizeWindow (sizes : List Nat)
  | contractCostParamsCpuInstructions (params : ContractCostParams)
  | contractCostParamsMemoryBytes (params : ContractCostParams)
  | other

def ConfigSetting.id : ConfigSetting → ConfigSettingId
  | .contractComputeV0 _ => .contractComputeV0
  | .contractLedgerCostV0 _ => .contractLedgerCostV0
  | .contractLedgerCostExtV0 _ _ => .contractLedgerCostExtV0
  | .contractHistoricalDataV0 _ => .contractHistoricalDataV0
  | .contractEventsV0 _ _ => .contractEventsV0
  | .contractBandwidthV0 _ _ => .contractBandwidthV0
  | .contractMaxSizeBytes _ => .contractMaxSizeBytes
  | .contractDataKeySizeBytes _ => .contractDataKeySizeBytes
  | .contractDataEntrySizeBytes _ => .contractDataEntrySizeBytes
  | .stateArchival _ => .stateArchival
  | .liveSorobanStateSizeWindow _ => .liveSorobanStateSizeWindow
  | .contractCostParamsCpuInstructions _ => .contractCostParamsCpuInstructions
  | .contractCostParamsMemoryBytes _ => .contractCostParamsMemoryBytes
  | .other => .other

/-- An entry of a node's answer: a configuration entry, or one of another
type. -/
inductive NodeEntry where
  | configSetting (setting : ConfigSetting)
  | other

/-- `expectUnionVariant(e.val, 'configSetting')`. -/
def NodeEntry.expectConfigSetting : NodeEntry → Except JsError ConfigSetting
  | .configSetting setting => .ok setting
  | .other => .error ⟨"expected the configSetting arm"⟩

/-! ## The fee settings -/

namespace FeeField

/-- `Object.keys(TESTNET_FEE_SETTINGS)`. -/
def keys : List FeeField :=
  [.feeRatePerInstructionsIncrement, .txMaxInstructions, .txMemoryLimit, .txMaxDiskReadEntries,
    .txMaxDiskReadBytes, .txMaxWriteLedgerEntries, .txMaxWriteBytes, .feeDiskReadLedgerEntry,
    .feeWriteLedgerEntry, .feeDiskRead1kb, .sorobanStateTargetSizeBytes,
    .rentFee1kbSorobanStateSizeLow, .rentFee1kbSorobanStateSizeHigh,
    .sorobanStateRentFeeGrowthFactor, .txMaxFootprintEntries, .feeWrite1kb, .feeHistorical1kb,
    .txMaxContractEventsSizeBytes, .feeContractEvents1kb, .txMaxSizeBytes, .feeTxSize1kb,
    .maxContractSizeBytes, .maxContractDataKeySizeBytes, .maxContractDataEntrySizeBytes,
    .persistentRentRateDenominator, .tempRentRateDenominator, .averageSorobanStateSize]

def name : FeeField → String
  | .feeRatePerInstructionsIncrement => "feeRatePerInstructionsIncrement"
  | .txMaxInstructions => "txMaxInstructions"
  | .txMemoryLimit => "txMemoryLimit"
  | .txMaxDiskReadEntries => "txMaxDiskReadEntries"
  | .txMaxDiskReadBytes => "txMaxDiskReadBytes"
  | .txMaxWriteLedgerEntries => "txMaxWriteLedgerEntries"
  | .txMaxWriteBytes => "txMaxWriteBytes"
  | .feeDiskReadLedgerEntry => "feeDiskReadLedgerEntry"
  | .feeWriteLedgerEntry => "feeWriteLedgerEntry"
  | .feeDiskRead1kb => "feeDiskRead1kb"
  | .sorobanStateTargetSizeBytes => "sorobanStateTargetSizeBytes"
  | .rentFee1kbSorobanStateSizeLow => "rentFee1kbSorobanStateSizeLow"
  | .rentFee1kbSorobanStateSizeHigh => "rentFee1kbSorobanStateSizeHigh"
  | .sorobanStateRentFeeGrowthFactor => "sorobanStateRentFeeGrowthFactor"
  | .txMaxFootprintEntries => "txMaxFootprintEntries"
  | .feeWrite1kb => "feeWrite1kb"
  | .feeHistorical1kb => "feeHistorical1kb"
  | .txMaxContractEventsSizeBytes => "txMaxContractEventsSizeBytes"
  | .feeContractEvents1kb => "feeContractEvents1kb"
  | .txMaxSizeBytes => "txMaxSizeBytes"
  | .feeTxSize1kb => "feeTxSize1kb"
  | .maxContractSizeBytes => "maxContractSizeBytes"
  | .maxContractDataKeySizeBytes => "maxContractDataKeySizeBytes"
  | .maxContractDataEntrySizeBytes => "maxContractDataEntrySizeBytes"
  | .persistentRentRateDenominator => "persistentRentRateDenominator"
  | .tempRentRateDenominator => "tempRentRateDenominator"
  | .averageSorobanStateSize => "averageSorobanStateSize"

end FeeField

/-- The assignments of the `switch`.  64-bit numbers come as bigints, 32-bit
ones as numbers. -/
def ConfigSetting.feeFields : ConfigSetting → Except JsError (List (FeeField × JsValue))
  | .contractComputeV0 v => .ok
    [(.feeRatePerInstructionsIncrement, .number v.feeRatePerInstructionsIncrement),
      (.txMaxInstructions, .number v.txMaxInstructions),
      (.txMemoryLimit, .integer v.txMemoryLimit)]
  | .contractLedgerCostV0 v => .ok
    [(.txMaxDiskReadEntries, .integer v.txMaxDiskReadEntries),
      (.txMaxDiskReadBytes, .integer v.txMaxDiskReadBytes),
      (.txMaxWriteLedgerEntries, .integer v.txMaxWriteLedgerEntries),
      (.txMaxWriteBytes, .integer v.txMaxWriteBytes),
      (.feeDiskReadLedgerEntry, .number v.feeDiskReadLedgerEntry),
      (.feeWriteLedgerEntry, .number v.feeWriteLedgerEntry),
      (.feeDiskRead1kb, .number v.feeDiskRead1Kb),
      (.sorobanStateTargetSizeBytes, .number v.sorobanStateTargetSizeBytes),
      (.rentFee1kbSorobanStateSizeLow, .number v.rentFee1KbSorobanStateSizeLow),
      (.rentFee1kbSorobanStateSizeHigh, .number v.rentFee1KbSorobanStateSizeHigh),
      (.sorobanStateRentFeeGrowthFactor, .integer v.sorobanStateRentFeeGrowthFactor)]
  | .contractLedgerCostExtV0 txMaxFootprintEntries feeWrite1Kb => .ok
    [(.txMaxFootprintEntries, .integer txMaxFootprintEntries), (.feeWrite1kb, .number feeWrite1Kb)]
  | .contractHistoricalDataV0 feeHistorical1Kb => .ok
    [(.feeHistorical1kb, .number feeHistorical1Kb)]
  | .contractEventsV0 txMaxContractEventsSizeBytes feeContractEvents1Kb => .ok
    [(.txMaxContractEventsSizeBytes, .integer txMaxContractEventsSizeBytes),
      (.feeContractEvents1kb, .number feeContractEvents1Kb)]
  | .contractBandwidthV0 txMaxSizeBytes feeTxSize1Kb => .ok
    [(.txMaxSizeBytes, .integer txMaxSizeBytes), (.feeTxSize1kb, .number feeTxSize1Kb)]
  | .contractMaxSizeBytes v => .ok [(.maxContractSizeBytes, .integer v)]
  | .contractDataKeySizeBytes v => .ok [(.maxContractDataKeySizeBytes, .integer v)]
  | .contractDataEntrySizeBytes v => .ok [(.maxContractDataEntrySizeBytes, .integer v)]
  | .stateArchival v => .ok
    [(.persistentRentRateDenominator, .number v.persistentRentRateDenominator),
      (.tempRentRateDenominator, .number v.tempRentRateDenominator)]
  | .liveSorobanStateSizeWindow sizes =>
    if sizes.isEmpty then .error ⟨"live Soroban state size window is empty"⟩
    else
      let average : Nat := sizes.sum / sizes.length
      .ok [(.averageSorobanStateSize, .number average)]
  | _ => .ok []

/-- The loop over the entries. -/
def fillFeeSettings :
    List NodeEntry → (FeeField → Option JsValue) → Except JsError (FeeField → Option JsValue)
  | [], out => .ok out
  | entry :: rest, out => do
    let setting ← entry.expectConfigSetting
    let fields ← setting.feeFields
    fillFeeSettings rest (Filling.fill out fields)

/-- The exception for fields no entry has set. -/
def missingFeeSettings (missing : List FeeField) : JsError :=
  let names := ", ".intercalate (missing.map FeeField.name)
  ⟨s!"node returned no fee setting for {names}: is it running protocol 23+?"⟩

/-- `loadFeeSettingsFromRpc`, from the node's answer.  No field of what it
returns is missing. -/
def loadFeeSettingsFromRpc (entries : List NodeEntry) : Except JsError JsObject := do
  let out ← fillFeeSettings entries fun _ => none
  let missing := FeeField.keys.filter fun field => (out field).isNone
  if missing.length > 0 then throw (missingFeeSettings missing)
  return .plain fun field => (out field).getD .nonFinite

/-! ## The cost tables -/

/-- `CostParams`. -/
structure CostParams where
  cpuInstructions : Encoded ContractCostParams
  memoryBytes : Encoded ContractCostParams
  cpuLimit : Option Int
  memLimit : Option Int

/-- `encodeParams`. -/
def encodeParams (params : ContractCostParams) : Encoded ContractCostParams :=
  ⟨params.xdr.length, some params⟩

/-- The variables of `loadCostParamsFromRpc`. -/
structure CostsFound where
  cpuInstructions : Option (Encoded ContractCostParams) := none
  memoryBytes : Option (Encoded ContractCostParams) := none
  cpuLimit : Option Int := none
  memLimit : Option Int := none

/-- A turn of the loop. -/
def CostsFound.take (found : CostsFound) : ConfigSetting → CostsFound
  | .contractCostParamsCpuInstructions params =>
    { found with cpuInstructions := some (encodeParams params) }
  | .contractCostParamsMemoryBytes params =>
    { found with memoryBytes := some (encodeParams params) }
  | .contractComputeV0 v =>
    { found with cpuLimit := some v.txMaxInstructions, memLimit := some v.txMemoryLimit }
  | _ => found

def takeCosts : List NodeEntry → CostsFound → Except JsError CostsFound
  | [], found => .ok found
  | entry :: rest, found => do
    let setting ← entry.expectConfigSetting
    takeCosts rest (found.take setting)

/-- `loadCostParamsFromRpc`, from the node's answer. -/
def loadCostParamsFromRpc (entries : List NodeEntry) : Except JsError CostParams := do
  let found ← takeCosts entries {}
  match found.cpuInstructions, found.memoryBytes with
  | some cpuInstructions, some memoryBytes =>
    return ⟨cpuInstructions, memoryBytes, found.cpuLimit, found.memLimit⟩
  | _, _ =>
    throw ⟨"node returned no ContractCostParams ConfigSetting entries — is it running Soroban?"⟩

/-! ## The TTLs -/

/-- `loadArchivalSettingsFromRpc`, from the node's answer. -/
def loadArchivalSettingsFromRpc (entries : List NodeEntry) : Except JsError ArchivalValues :=
  match entries.head? with
  | some (.configSetting (.stateArchival s)) =>
    .ok ⟨.integer s.minTemporaryTtl, .integer s.minPersistentTtl, .integer s.maxEntryTtl⟩
  | _ => .error ⟨"node returned no ConfigSettingStateArchival entry — is it running Soroban?"⟩

/-! ## Every answer of a node -/

/-- The setting a field comes from. -/
def FeeField.setting : FeeField → ConfigSettingId
  | .feeRatePerInstructionsIncrement => .contractComputeV0
  | .txMaxInstructions => .contractComputeV0
  | .txMemoryLimit => .contractComputeV0
  | .txMaxDiskReadEntries => .contractLedgerCostV0
  | .txMaxDiskReadBytes => .contractLedgerCostV0
  | .txMaxWriteLedgerEntries => .contractLedgerCostV0
  | .txMaxWriteBytes => .contractLedgerCostV0
  | .feeDiskReadLedgerEntry => .contractLedgerCostV0
  | .feeWriteLedgerEntry => .contractLedgerCostV0
  | .feeDiskRead1kb => .contractLedgerCostV0
  | .sorobanStateTargetSizeBytes => .contractLedgerCostV0
  | .rentFee1kbSorobanStateSizeLow => .contractLedgerCostV0
  | .rentFee1kbSorobanStateSizeHigh => .contractLedgerCostV0
  | .sorobanStateRentFeeGrowthFactor => .contractLedgerCostV0
  | .txMaxFootprintEntries => .contractLedgerCostExtV0
  | .feeWrite1kb => .contractLedgerCostExtV0
  | .feeHistorical1kb => .contractHistoricalDataV0
  | .txMaxContractEventsSizeBytes => .contractEventsV0
  | .feeContractEvents1kb => .contractEventsV0
  | .txMaxSizeBytes => .contractBandwidthV0
  | .feeTxSize1kb => .contractBandwidthV0
  | .maxContractSizeBytes => .contractMaxSizeBytes
  | .maxContractDataKeySizeBytes => .contractDataKeySizeBytes
  | .maxContractDataEntrySizeBytes => .contractDataEntrySizeBytes
  | .persistentRentRateDenominator => .stateArchival
  | .tempRentRateDenominator => .stateArchival
  | .averageSorobanStateSize => .liveSorobanStateSizeWindow

theorem FeeField.mem_keys (field : FeeField) : field ∈ FeeField.keys := by
  cases field <;> decide

/-- A setting assigns its own fields, all of them. -/
theorem ConfigSetting.map_feeFields {setting : ConfigSetting} {fields : List (FeeField × JsValue)}
    (h : setting.feeFields = .ok fields) :
    fields.map Prod.fst = FeeField.keys.filter fun field => field.setting = setting.id := by
  cases setting with
  | liveSorobanStateSizeWindow sizes =>
    unfold ConfigSetting.feeFields at h
    dsimp only at h
    split at h
    · cases h
    · cases h
      rfl
  | _ =>
    cases h
    rfl

theorem ConfigSetting.mem_feeFields {setting : ConfigSetting} {fields : List (FeeField × JsValue)}
    (h : setting.feeFields = .ok fields) {field : FeeField} :
    field ∈ fields.map Prod.fst ↔ field.setting = setting.id := by
  rw [ConfigSetting.map_feeFields h, List.mem_filter, decide_eq_true_eq]
  exact and_iff_right field.mem_keys

/-- What the loop throws on at an entry. -/
def NodeEntry.feeProblem (entry : NodeEntry) : Option JsError :=
  match entry.expectConfigSetting >>= ConfigSetting.feeFields with
  | .error e => some e
  | .ok _ => none

/-- The setting an entry is of. -/
def NodeEntry.id : NodeEntry → ConfigSettingId
  | .configSetting setting => setting.id
  | .other => .other

/-- The loop throws at the first entry it throws on. -/
theorem fillFeeSettings_problem {entries : List NodeEntry} {e : JsError}
    (h : entries.findSome? NodeEntry.feeProblem = some e) (out : FeeField → Option JsValue) :
    fillFeeSettings entries out = .error e := by
  induction entries generalizing out with
  | nil => cases h
  | cons entry rest ih =>
    rw [List.findSome?_cons] at h
    unfold fillFeeSettings
    cases hsetting : entry.expectConfigSetting with
    | error e' =>
      simp only [NodeEntry.feeProblem, hsetting] at h
      cases h
      rfl
    | ok setting =>
      cases hfields : setting.feeFields with
      | error e' =>
        simp only [NodeEntry.feeProblem, hsetting, bind, Except.bind, hfields] at h
        cases h
        simp only [bind, Except.bind, hfields]
      | ok fields =>
        simp only [NodeEntry.feeProblem, hsetting, bind, Except.bind, hfields] at h
        simp only [bind, Except.bind, hfields]
        exact ih h _

/-- Otherwise it fills the fields of the settings that were returned. -/
theorem fillFeeSettings_filled {entries : List NodeEntry}
    (h : entries.findSome? NodeEntry.feeProblem = none) (out : FeeField → Option JsValue) :
    ∃ out', fillFeeSettings entries out = .ok out' ∧
      (∀ field, (out' field).isSome ↔
        (out field).isSome ∨ field.setting ∈ entries.map NodeEntry.id) ∧
      ∀ target : FeeField → JsValue,
        (∀ setting, .configSetting setting ∈ entries → ∀ fields, setting.feeFields = .ok fields →
          ∀ assigned ∈ fields, assigned.2 = target assigned.1) →
        (∀ field value, out field = some value → value = target field) →
        ∀ field value, out' field = some value → value = target field := by
  induction entries generalizing out with
  | nil => exact ⟨out, rfl, by simp, fun target _ hout => hout⟩
  | cons entry rest ih =>
    rw [List.findSome?_cons] at h
    cases entry with
    | other => cases h
    | configSetting setting =>
      cases hfields : setting.feeFields with
      | error e =>
        simp only [NodeEntry.feeProblem, NodeEntry.expectConfigSetting, bind, Except.bind,
          hfields] at h
        cases h
      | ok fields =>
        simp only [NodeEntry.feeProblem, NodeEntry.expectConfigSetting, bind, Except.bind,
          hfields] at h
        obtain ⟨out', hrun, hsome, htarget⟩ := ih h (Filling.fill out fields)
        refine ⟨out', ?_, fun field => ?_, fun target hsettings hout => ?_⟩
        · simp only [fillFeeSettings, NodeEntry.expectConfigSetting, bind, Except.bind, hfields]
          exact hrun
        · rw [hsome, Filling.isSome_fill, ConfigSetting.mem_feeFields hfields, List.map_cons,
            List.mem_cons, or_assoc]
          rfl
        · refine htarget target
            (fun later hlater => hsettings later (List.mem_cons_of_mem _ hlater)) ?_
          intro field value hvalue
          exact Filling.fill_of_target (hsettings setting List.mem_cons_self fields hfields) hout
            hvalue

/-- **Loading the fee settings.**  An answer with an entry that is not a
configuration entry, or with an empty window of state sizes, is refused at the
first of them.  Any other answer is loaded if it has all the settings, and
otherwise the exception names the fields of the others. -/
theorem loadFeeSettings_spec (entries : List NodeEntry) :
    match entries.findSome? NodeEntry.feeProblem with
    | some e => loadFeeSettingsFromRpc entries = .error e
    | none =>
      let missing := FeeField.keys.filter fun field =>
        field.setting ∉ entries.map NodeEntry.id
      if missing = [] then ∃ o, loadFeeSettingsFromRpc entries = .ok o
      else loadFeeSettingsFromRpc entries = .error (missingFeeSettings missing) := by
  cases hproblem : entries.findSome? NodeEntry.feeProblem with
  | some e =>
    show loadFeeSettingsFromRpc entries = .error e
    unfold loadFeeSettingsFromRpc
    rw [fillFeeSettings_problem hproblem]
    rfl
  | none =>
    obtain ⟨out, hrun, hsome, -⟩ := fillFeeSettings_filled hproblem fun _ => none
    have hmissing : (FeeField.keys.filter fun field => (out field).isNone) =
        FeeField.keys.filter fun field => field.setting ∉ entries.map NodeEntry.id := by
      refine List.filter_congr fun field _ => ?_
      have hfield := hsome field
      simp only [Option.isSome_none, Bool.false_eq_true, false_or] at hfield
      rw [← Option.not_isSome]
      by_cases hthere : field.setting ∈ entries.map NodeEntry.id
      · rw [hfield.mpr hthere, decide_eq_false (not_not.mpr hthere)]
        rfl
      · rw [Bool.eq_false_iff.mpr (fun h => hthere (hfield.mp h)), decide_eq_true hthere]
        rfl
    simp only
    unfold loadFeeSettingsFromRpc
    rw [hrun]
    simp only [bind, Except.bind, hmissing]
    split
    · next hnone =>
      rw [hnone]
      exact ⟨_, rfl⟩
    · next hsome' =>
      rw [if_pos (List.length_pos_iff.mpr hsome')]
      rfl

/-! ## The configuration of a network -/

/-- What the configuration entries of a network hold. -/
structure Network where
  compute : ContractComputeV0
  ledgerCost : ContractLedgerCostV0
  txMaxFootprintEntries : Nat
  feeWrite1Kb : Int
  feeHistorical1Kb : Int
  txMaxContractEventsSizeBytes : Nat
  feeContractEvents1Kb : Int
  txMaxSizeBytes : Nat
  feeTxSize1Kb : Int
  contractMaxSizeBytes : Nat
  contractDataKeySizeBytes : Nat
  contractDataEntrySizeBytes : Nat
  archival : StateArchivalSettings
  liveSorobanStateSizes : List Nat
  cpuParams : ContractCostParams
  memParams : ContractCostParams

namespace Network

variable (network : Network)

def settings : List ConfigSetting :=
  [.contractComputeV0 network.compute, .contractLedgerCostV0 network.ledgerCost,
    .contractLedgerCostExtV0 network.txMaxFootprintEntries network.feeWrite1Kb,
    .contractHistoricalDataV0 network.feeHistorical1Kb,
    .contractEventsV0 network.txMaxContractEventsSizeBytes network.feeContractEvents1Kb,
    .contractBandwidthV0 network.txMaxSizeBytes network.feeTxSize1Kb,
    .contractMaxSizeBytes network.contractMaxSizeBytes,
    .contractDataKeySizeBytes network.contractDataKeySizeBytes,
    .contractDataEntrySizeBytes network.contractDataEntrySizeBytes,
    .stateArchival network.archival,
    .liveSorobanStateSizeWindow network.liveSorobanStateSizes,
    .contractCostParamsCpuInstructions network.cpuParams,
    .contractCostParamsMemoryBytes network.memParams]

/-- The fee settings of the network, with the average of its state sizes. -/
def feeSettings : NetworkFeeSettings where
  feeRatePerInstructionsIncrement := network.compute.feeRatePerInstructionsIncrement
  txMaxInstructions := network.compute.txMaxInstructions
  txMemoryLimit := network.compute.txMemoryLimit
  feeDiskReadLedgerEntry := network.ledgerCost.feeDiskReadLedgerEntry
  feeWriteLedgerEntry := network.ledgerCost.feeWriteLedgerEntry
  feeDiskRead1kb := network.ledgerCost.feeDiskRead1Kb
  sorobanStateTargetSizeBytes := network.ledgerCost.sorobanStateTargetSizeBytes
  rentFee1kbSorobanStateSizeLow := network.ledgerCost.rentFee1KbSorobanStateSizeLow
  rentFee1kbSorobanStateSizeHigh := network.ledgerCost.rentFee1KbSorobanStateSizeHigh
  sorobanStateRentFeeGrowthFactor := network.ledgerCost.sorobanStateRentFeeGrowthFactor
  feeWrite1kb := network.feeWrite1Kb
  feeHistorical1kb := network.feeHistorical1Kb
  txMaxContractEventsSizeBytes := network.txMaxContractEventsSizeBytes
  feeContractEvents1kb := network.feeContractEvents1Kb
  feeTxSize1kb := network.feeTxSize1Kb
  maxContractSizeBytes := network.contractMaxSizeBytes
  maxContractDataEntrySizeBytes := network.contractDataEntrySizeBytes
  persistentRentRateDenominator := network.archival.persistentRentRateDenominator
  tempRentRateDenominator := network.archival.tempRentRateDenominator
  averageSorobanStateSize :=
    ((network.liveSorobanStateSizes.sum / network.liveSorobanStateSizes.length : Nat) : Int)
  txMaxDiskReadEntries := network.ledgerCost.txMaxDiskReadEntries
  txMaxDiskReadBytes := network.ledgerCost.txMaxDiskReadBytes
  txMaxWriteLedgerEntries := network.ledgerCost.txMaxWriteLedgerEntries
  txMaxWriteBytes := network.ledgerCost.txMaxWriteBytes
  txMaxFootprintEntries := network.txMaxFootprintEntries
  txMaxSizeBytes := network.txMaxSizeBytes
  maxContractDataKeySizeBytes := network.contractDataKeySizeBytes

/-- The fee settings as JavaScript numbers. -/
def values (field : FeeField) : JsValue := .integer (network.feeSettings.value field)

/-- A network whose numbers JavaScript can hold and whose 32-bit ones fit. -/
structure Fits : Prop where
  window : network.liveSorobanStateSizes ≠ []
  safe : ∀ field, (network.feeSettings.value field).natAbs < 2 ^ 53
  txMemoryLimit : network.compute.txMemoryLimit < 2 ^ 32
  growthFactor : network.ledgerCost.sorobanStateRentFeeGrowthFactor < 2 ^ 32
  eventsSize : network.txMaxContractEventsSizeBytes < 2 ^ 32
  contractSize : network.contractMaxSizeBytes < 2 ^ 32
  dataEntrySize : network.contractDataEntrySizeBytes < 2 ^ 32
  minTemporaryTtl : 0 < network.archival.minTemporaryTtl ∧ network.archival.minTemporaryTtl < 2 ^ 32
  minPersistentTtl :
    0 < network.archival.minPersistentTtl ∧ network.archival.minPersistentTtl < 2 ^ 32
  maxEntryTtl : 0 < network.archival.maxEntryTtl ∧ network.archival.maxEntryTtl < 2 ^ 32

/-- A node's answer to a request for some settings.  It has all of them, and
whatever else it has is of the same network or not looked at. -/
structure Answers (wanted : List ConfigSettingId) (entries : List NodeEntry) : Prop where
  complete : ∀ setting ∈ network.settings, setting.id ∈ wanted → .configSetting setting ∈ entries
  own : ∀ entry ∈ entries, ∃ setting, entry = .configSetting setting ∧
    (setting ∈ network.settings ∨ setting = .other)

end Network

/-- `SETTINGS`, what `loadFeeSettingsFromRpc` asks for. -/
def feeSettingIds : List ConfigSettingId :=
  [.contractComputeV0, .contractLedgerCostV0, .contractLedgerCostExtV0, .contractHistoricalDataV0,
    .contractEventsV0, .contractBandwidthV0, .contractMaxSizeBytes, .contractDataKeySizeBytes,
    .contractDataEntrySizeBytes, .stateArchival, .liveSorobanStateSizeWindow]

/-- What `loadCostParamsFromRpc` asks for. -/
def costSettingIds : List ConfigSettingId :=
  [.contractCostParamsCpuInstructions, .contractCostParamsMemoryBytes, .contractComputeV0]

/-! ### Numbers -/

/-- `Number(n)` of a safe integer is that integer. -/
theorem JsValue.number_of_safe {n : Int} (h : n.natAbs < 2 ^ 53) :
    JsValue.number n = .integer n := by
  have hlog : Nat.log2 n.natAbs - 52 = 0 := by
    rcases Nat.eq_zero_or_pos n.natAbs with hzero | hpos
    · rw [hzero]
      rfl
    · have := (Nat.log2_lt (Nat.pos_iff_ne_zero.mp hpos)).mpr h
      omega
  have hsame : jsNumber n.natAbs = n.natAbs := by
    unfold jsNumber Rounding.roundEven
    dsimp only
    rw [hlog, if_pos (by rw [pow_zero, Nat.mod_one]; decide), pow_zero, Nat.div_one, Nat.mul_one]
  have hpow : ∀ k, 53 < k → 2 ^ 53 < 2 ^ k := fun k hk => Nat.pow_lt_pow_right (by decide) hk
  have hfinite : ¬ 2 ^ 1024 ≤ n.natAbs := not_le.mpr (h.trans (hpow 1024 (by decide)))
  unfold JsValue.number
  dsimp only
  rw [hsame, if_neg hfinite]
  split
  · congr 1
    omega
  · congr 1
    omega

/-- `serde_wasm_bindgen` reads the integers that fit. -/
structure FromValue.ReadsIntegers (fv : FromValue) : Prop where
  i64 : ∀ n : Int, n.natAbs < 2 ^ 53 → (fv.i64 (.integer n)).isSome
  u32 : ∀ n : Nat, n < 2 ^ 32 → (fv.u32 (.integer n)).isSome

theorem FromValue.safe_readsIntegers : FromValue.safe.ReadsIntegers where
  i64 n h := by
    simp only [FromValue.safe, if_pos h, Option.isSome_some]
  u32 n h := by
    have hfits : (0 : Int) ≤ n ∧ (n : Int) < 2 ^ 32 := by omega
    simp only [FromValue.safe, if_pos hfits, Option.isSome_some]

/-! ### Loading -/

namespace Network

variable {network : Network}

theorem feeFields_ok (h : network.Fits) {setting : ConfigSetting}
    (hown : setting ∈ network.settings ∨ setting = .other) :
    ∃ fields, setting.feeFields = .ok fields ∧
      ∀ assigned ∈ fields, assigned.2 = network.values assigned.1 := by
  have hnumber : ∀ (field : FeeField) (n : Int), network.values field = .integer n →
      JsValue.number n = network.values field := by
    intro field n hn
    rw [hn, JsValue.number_of_safe]
    rw [← JsValue.integer.inj hn]
    exact h.safe field
  rcases hown with hown | rfl
  · simp only [settings, List.mem_cons, List.not_mem_nil, or_false] at hown
    rcases hown with rfl | rfl | rfl | rfl | rfl | rfl | rfl | rfl | rfl | rfl | rfl | rfl | rfl
    case inr.inr.inr.inr.inr.inr.inr.inr.inr.inr.inl =>
      refine ⟨_, if_neg (by simpa using h.window), fun assigned hassigned => ?_⟩
      rw [List.mem_singleton.mp hassigned]
      exact hnumber _ _ rfl
    -- Each assignment is of a 32-bit number or of a safe 64-bit one.
    all_goals
      refine ⟨_, rfl, ?_⟩
      repeat' first | exact List.forall_mem_nil _ | refine List.forall_mem_cons.mpr ⟨?_, ?_⟩
      all_goals first | rfl | exact hnumber _ _ rfl
  · exact ⟨[], rfl, fun assigned hassigned => by cases hassigned⟩

/-- A network has every setting the loaders ask for. -/
theorem exists_setting (network : Network) {id : ConfigSettingId}
    (h : id ∈ feeSettingIds ++ costSettingIds) : ∃ setting ∈ network.settings, setting.id = id := by
  have hids : ∀ id ∈ feeSettingIds ++ costSettingIds, id ∈ network.settings.map ConfigSetting.id := by
    show ∀ id ∈ feeSettingIds ++ costSettingIds, id ∈ feeSettingIds ++
      [.contractCostParamsCpuInstructions, .contractCostParamsMemoryBytes]
    decide
  exact List.mem_map.mp (hids id h)

/-- The fee settings of a network are loaded as they are. -/
theorem loadFeeSettings_eq (h : network.Fits) {entries : List NodeEntry}
    (hentries : network.Answers feeSettingIds entries) :
    loadFeeSettingsFromRpc entries = .ok (.plain network.values) := by
  have hproblem : entries.findSome? NodeEntry.feeProblem = none := by
    refine List.findSome?_eq_none_iff.mpr fun entry hentry => ?_
    obtain ⟨setting, rfl, hown⟩ := hentries.own entry hentry
    obtain ⟨fields, hfields, -⟩ := feeFields_ok h hown
    simp only [NodeEntry.feeProblem, NodeEntry.expectConfigSetting, bind, Except.bind, hfields]
  obtain ⟨out, hrun, hsome, htarget⟩ := fillFeeSettings_filled hproblem fun _ => none
  have hvalue : ∀ field value, out field = some value → value = network.values field := by
    refine htarget network.values (fun setting hsetting fields hfields => ?_)
      (fun _ _ hnone => by cases hnone)
    obtain ⟨_, ⟨⟩, hown⟩ := hentries.own _ hsetting
    obtain ⟨fields', hfields', hassigned⟩ := feeFields_ok h hown
    cases hfields.symm.trans hfields'
    exact hassigned
  have hall : ∀ field, out field = some (network.values field) := by
    intro field
    have hthere : field.setting ∈ entries.map NodeEntry.id := by
      have hasked : field.setting ∈ feeSettingIds := by
        cases field <;> decide
      obtain ⟨setting, hsetting, hid⟩ := network.exists_setting (List.mem_append_left _ hasked)
      rw [← hid] at hasked ⊢
      exact List.mem_map.mpr ⟨_, hentries.complete setting hsetting hasked, rfl⟩
    obtain ⟨value, hfield⟩ := Option.isSome_iff_exists.mp ((hsome field).mpr (.inr hthere))
    rw [hfield, hvalue field value hfield]
  unfold loadFeeSettingsFromRpc
  rw [hrun]
  simp only [bind, Except.bind, hall, Option.isNone_some, List.filter_false, List.length_nil,
    Nat.lt_irrefl, if_false, Option.getD_some]
  rfl

/-- What is found after the settings `ids` of a network. -/
structure Found (network : Network) (ids : List ConfigSettingId) (found : CostsFound) : Prop where
  cpuInstructions : found.cpuInstructions =
    if .contractCostParamsCpuInstructions ∈ ids then some (encodeParams network.cpuParams) else none
  memoryBytes : found.memoryBytes =
    if .contractCostParamsMemoryBytes ∈ ids then some (encodeParams network.memParams) else none
  cpuLimit : found.cpuLimit =
    if .contractComputeV0 ∈ ids then some network.compute.txMaxInstructions else none
  memLimit : found.memLimit =
    if .contractComputeV0 ∈ ids then some (network.compute.txMemoryLimit : Int) else none

/-- A turn of the loop finds what its setting holds. -/
theorem Found.take {ids : List ConfigSettingId} {found : CostsFound}
    (h : network.Found ids found) {setting : ConfigSetting}
    (hown : setting ∈ network.settings ∨ setting = .other) :
    network.Found (ids ++ [setting.id]) (found.take setting) := by
  have hcpu := h.cpuInstructions
  have hmem := h.memoryBytes
  have hcpuLimit := h.cpuLimit
  have hmemLimit := h.memLimit
  rcases hown with hown | rfl
  · simp only [settings, List.mem_cons, List.not_mem_nil, or_false] at hown
    rcases hown with rfl | rfl | rfl | rfl | rfl | rfl | rfl | rfl | rfl | rfl | rfl | rfl | rfl
    all_goals
      constructor <;>
        simp [CostsFound.take, ConfigSetting.id, hcpu, hmem, hcpuLimit, hmemLimit]
  · constructor <;>
      simp [CostsFound.take, ConfigSetting.id, hcpu, hmem, hcpuLimit, hmemLimit]

theorem takeCosts_found {entries : List NodeEntry}
    (hown : ∀ entry ∈ entries, ∃ setting, entry = .configSetting setting ∧
      (setting ∈ network.settings ∨ setting = .other)) {ids : List ConfigSettingId}
    {found : CostsFound} (h : network.Found ids found) :
    ∃ found', takeCosts entries found = .ok found' ∧
      network.Found (ids ++ entries.map NodeEntry.id) found' := by
  induction entries generalizing ids found with
  | nil => exact ⟨found, rfl, by rwa [List.map_nil, List.append_nil]⟩
  | cons entry rest ih =>
    obtain ⟨setting, rfl, hsetting⟩ := hown entry List.mem_cons_self
    obtain ⟨found', hrun, hfound'⟩ := ih
      (fun later hlater => hown later (List.mem_cons_of_mem _ hlater)) (h.take hsetting)
    refine ⟨found', hrun, ?_⟩
    rw [List.append_assoc] at hfound'
    exact hfound'

/-- The cost tables of a network, with its limits. -/
def costParams (network : Network) : CostParams where
  cpuInstructions := encodeParams network.cpuParams
  memoryBytes := encodeParams network.memParams
  cpuLimit := some network.compute.txMaxInstructions
  memLimit := some network.compute.txMemoryLimit

/-- The cost tables of a network are loaded as they are, with its limits. -/
theorem loadCostParams_eq {entries : List NodeEntry}
    (hentries : network.Answers costSettingIds entries) :
    loadCostParamsFromRpc entries = .ok network.costParams := by
  have hstart : network.Found [] {} := ⟨rfl, rfl, rfl, rfl⟩
  obtain ⟨found, hrun, hfound⟩ := takeCosts_found hentries.own hstart
  have hthere : ∀ id ∈ costSettingIds, id ∈ [] ++ entries.map NodeEntry.id := by
    intro id hasked
    obtain ⟨setting, hsetting, rfl⟩ := network.exists_setting (List.mem_append_right _ hasked)
    exact List.mem_map.mpr ⟨_, hentries.complete setting hsetting hasked, rfl⟩
  have hcpu := hfound.cpuInstructions
  have hmem := hfound.memoryBytes
  have hcpuLimit := hfound.cpuLimit
  have hmemLimit := hfound.memLimit
  rw [if_pos (hthere _ (by decide))] at hcpu hmem hcpuLimit hmemLimit
  unfold loadCostParamsFromRpc
  rw [hrun]
  simp only [bind, Except.bind, hcpu, hmem, hcpuLimit, hmemLimit]
  rfl

/-- The TTLs of a network. -/
def archivalValues (network : Network) : ArchivalValues where
  minTemporaryTtl := .integer network.archival.minTemporaryTtl
  minPersistentTtl := .integer network.archival.minPersistentTtl
  maxEntryTtl := .integer network.archival.maxEntryTtl

theorem loadArchivalSettings_eq {entries : List NodeEntry}
    (h : entries.head? = some (.configSetting (.stateArchival network.archival))) :
    loadArchivalSettingsFromRpc entries = .ok network.archivalValues := by
  unfold loadArchivalSettingsFromRpc
  rw [h]
  rfl

/-! ### Installing -/

/-- What was loaded, as calls of the setters. -/
def feeCall (network : Network) : SettingsCall := .feeSettings (some (.plain network.values))

def costCall (network : Network) : SettingsCall :=
  .costParams network.costParams.cpuInstructions network.costParams.memoryBytes
    network.costParams.cpuLimit network.costParams.memLimit

def archivalCall (network : Network) : SettingsCall := .archivalSettings network.archivalValues

def calls (network : Network) : List SettingsCall :=
  [network.feeCall, network.costCall, network.archivalCall]

/-- What is installed after the calls `made`. -/
structure Installed (network : Network) (fv : FromValue) (made : List SettingsCall)
    (ledger : ConfiguredLedger) : Prop where
  copy : OneCopy fv ledger
  fees : network.feeCall ∈ made → ledger.fees = network.values
  costs : network.costCall ∈ made → ledger.env.cpuCostParams = some network.cpuParams ∧
    ledger.env.memCostParams = some network.memParams
  archival : network.archivalCall ∈ made →
    ledger.env.minTempEntryTtl = network.archival.minTemporaryTtl ∧
    ledger.env.minPersistentEntryTtl = network.archival.minPersistentTtl ∧
    ledger.env.maxEntryTtl = network.archival.maxEntryTtl

section Install

variable {fv : FromValue} {made : List SettingsCall} {ledger : ConfiguredLedger}

/-- The fee settings of a network that fits parse. -/
theorem values_parse (h : network.Fits) (hreads : fv.ReadsIntegers) :
    ∃ parsed, Fees.NetworkFeeSettings.parse fv network.values = some parsed := by
  refine Option.isSome_iff_exists.mp (parse_isSome_iff.mpr fun field hfield => ?_)
  have hi64 := hreads.i64 (network.feeSettings.value field) (h.safe field)
  have hu32 : ∀ n : Nat, n < 2 ^ 32 →
      ((fv.u32 (.integer n)).map fun n : Nat => (n : Int)).isSome := by
    intro n hn
    rw [Option.isSome_map]
    exact hreads.u32 n hn
  cases field <;>
    first
    | exact hi64
    | exact hu32 _ h.txMemoryLimit
    | exact hu32 _ h.growthFactor
    | exact hu32 _ h.eventsSize
    | exact hu32 _ h.contractSize
    | exact hu32 _ h.dataEntrySize
    | (exfalso; revert hfield; decide)

theorem Installed.feeCall (h : network.Installed fv made ledger) (hfits : network.Fits)
    (hreads : fv.ReadsIntegers) :
    ∃ ledger', network.feeCall.perform fv ledger = .ok () ledger' ∧
      network.Installed fv (made ++ [network.feeCall]) ledger' := by
  obtain ⟨parsed, hparsed⟩ := values_parse hfits hreads
  refine ⟨{ env := ledger.env.setFeeSettings parsed, fees := network.values }, ?_, ?_⟩
  · simp only [Network.feeCall, SettingsCall.perform, ConfiguredLedger.setFeeSettings,
      JsObject.plain, hparsed]
  · refine ⟨⟨parsed, rfl, hparsed⟩, fun _ => rfl, fun hmade => h.costs ?_,
      fun hmade => h.archival ?_⟩
    · simpa [Network.costCall, Network.feeCall] using hmade
    · simpa [Network.archivalCall, Network.feeCall] using hmade

theorem Installed.costCall (h : network.Installed fv made ledger) (hfits : network.Fits)
    (hreads : fv.ReadsIntegers) :
    ∃ ledger', network.costCall.perform fv ledger = .ok () ledger' ∧
      network.Installed fv (made ++ [network.costCall]) ledger' := by
  have hcpuLimit : JsValue.number network.compute.txMaxInstructions =
      .integer network.compute.txMaxInstructions :=
    JsValue.number_of_safe (hfits.safe .txMaxInstructions)
  have hmemLimit : JsValue.number network.compute.txMemoryLimit =
      .integer network.compute.txMemoryLimit :=
    JsValue.number_of_safe (hfits.safe .txMemoryLimit)
  obtain ⟨old, hold, hcopy⟩ := h.copy
  have hparses : (Fees.NetworkFeeSettings.parse fv (ledger.limitedFees
      network.costParams.cpuLimit network.costParams.memLimit)).isSome := by
    refine limitedFees_parses (by rw [hcopy]; rfl) (fun n hn => ?_) fun n hn => ?_
    · cases hn
      rw [hcpuLimit]
      exact hreads.i64 _ (hfits.safe .txMaxInstructions)
    · cases hn
      rw [hmemLimit]
      exact hreads.u32 _ hfits.txMemoryLimit
  obtain ⟨parsed, hparsed⟩ := Option.isSome_iff_exists.mp hparses
  refine ⟨_, ConfiguredLedger.setCostParams_ok rfl rfl hparsed, ?_⟩
  have hlimits : (network.costParams.cpuLimit.isSome || network.costParams.memLimit.isSome) = true :=
    rfl
  rw [if_pos hlimits]
  refine ⟨⟨parsed, rfl, hparsed⟩, fun hmade => ?_, fun _ => ⟨rfl, rfl⟩, fun hmade => h.archival ?_⟩
  · -- The limits are the ones of the fee settings.
    have hfees := h.fees (by simpa [Network.costCall, Network.feeCall] using hmade)
    funext field
    have hfield := congrFun hfees field
    cases field <;> first | exact hfield | exact hcpuLimit | exact hmemLimit
  · simpa [Network.archivalCall, Network.costCall] using hmade

theorem Installed.archivalCall (h : network.Installed fv made ledger) (hfits : network.Fits) :
    ∃ ledger', network.archivalCall.perform fv ledger = .ok () ledger' ∧
      network.Installed fv (made ++ [network.archivalCall]) ledger' := by
  have huint32 : ∀ n : Nat, n < 2 ^ 32 → (JsValue.integer n).uint32 = .ok n := by
    intro n hn
    show Except.ok ((n : Int) % 2 ^ 32).toNat = .ok n
    congr 1
    omega
  obtain ⟨htemp, htempWord⟩ := hfits.minTemporaryTtl
  obtain ⟨hpersistent, hpersistentWord⟩ := hfits.minPersistentTtl
  obtain ⟨hmax, hmaxWord⟩ := hfits.maxEntryTtl
  have hset : network.archivalValues.install ledger.env = .ok { ledger.env with
      minTempEntryTtl := network.archival.minTemporaryTtl
      minPersistentEntryTtl := network.archival.minPersistentTtl
      maxEntryTtl := network.archival.maxEntryTtl } := by
    simp only [ArchivalValues.install, archivalValues, huint32 _ htempWord,
      huint32 _ hpersistentWord, huint32 _ hmaxWord, bind, Except.bind,
      SorobanEnv.setArchivalSettings]
    rw [if_neg (by omega)]
  refine ⟨{ ledger with env := { ledger.env with
      minTempEntryTtl := network.archival.minTemporaryTtl
      minPersistentEntryTtl := network.archival.minPersistentTtl
      maxEntryTtl := network.archival.maxEntryTtl } }, ?_, ?_⟩
  · simp only [Network.archivalCall, SettingsCall.perform, ConfiguredLedger.setArchivalSettings,
      hset]
  · refine ⟨h.copy, fun hmade => h.fees ?_, fun hmade => h.costs ?_, fun _ => ⟨rfl, rfl, rfl⟩⟩
    · simpa [Network.archivalCall, Network.feeCall] using hmade
    · simpa [Network.archivalCall, Network.costCall] using hmade

/-- A call installs what it was loaded with. -/
theorem Installed.step (h : network.Installed fv made ledger) (hfits : network.Fits)
    (hreads : fv.ReadsIntegers) {call : SettingsCall} (hcall : call ∈ network.calls) :
    (settingsMachine fv).out ledger call = .ok () ∧
      network.Installed fv (made ++ [call]) ((settingsMachine fv).next ledger call) := by
  have hrun : ∃ ledger', call.perform fv ledger = .ok () ledger' ∧
      network.Installed fv (made ++ [call]) ledger' := by
    simp only [calls, List.mem_cons, List.not_mem_nil, or_false] at hcall
    rcases hcall with rfl | rfl | rfl
    · exact h.feeCall hfits hreads
    · exact h.costCall hfits hreads
    · exact h.archivalCall hfits
  obtain ⟨ledger', hperform, hinstalled⟩ := hrun
  show answer (call.perform fv ledger) = .ok () ∧
    network.Installed fv (made ++ [call]) (finalState (call.perform fv ledger))
  rw [hperform]
  exact ⟨rfl, hinstalled⟩

theorem Installed.run (h : network.Installed fv made ledger) (hfits : network.Fits)
    (hreads : fv.ReadsIntegers) {later : List SettingsCall}
    (hlater : ∀ call ∈ later, call ∈ network.calls) :
    (settingsMachine fv).outs ledger later = later.map (fun _ => .ok ()) ∧
      network.Installed fv (made ++ later) ((settingsMachine fv).run ledger later) := by
  induction later generalizing made ledger with
  | nil => exact ⟨rfl, by rwa [List.append_nil]⟩
  | cons call rest ih =>
    obtain ⟨hout, hnext⟩ := h.step hfits hreads (hlater call List.mem_cons_self)
    obtain ⟨houts, hend⟩ := ih hnext fun other hother => hlater other (List.mem_cons_of_mem _ hother)
    refine ⟨?_, ?_⟩
    · simp only [Machine.outs, List.map_cons, hout, houts]
    · rw [List.append_assoc] at hend
      exact hend

end Install

/-- The ledger is configured as the network is, on both sides. -/
structure Configures (network : Network) (ledger : ConfiguredLedger) : Prop where
  crate : ledger.env.feeSettings = some network.feeSettings.toNetworkFeeSettings
  fees : ∀ field, ledger.fees field = .integer (network.feeSettings.value field)
  cpuCostParams : ledger.env.cpuCostParams = some network.cpuParams
  memCostParams : ledger.env.memCostParams = some network.memParams
  minTempEntryTtl : ledger.env.minTempEntryTtl = network.archival.minTemporaryTtl
  minPersistentEntryTtl : ledger.env.minPersistentEntryTtl = network.archival.minPersistentTtl
  maxEntryTtl : ledger.env.maxEntryTtl = network.archival.maxEntryTtl

/-- Once all three are installed, the ledger is the network's. -/
theorem Installed.configures {fv : FromValue} (hexact : fv.Exact) {made : List SettingsCall}
    {ledger : ConfiguredLedger} (h : network.Installed fv made ledger)
    (hall : ∀ call ∈ network.calls, call ∈ made) : network.Configures ledger := by
  have hfees : ledger.fees = network.values := h.fees (hall _ (by simp [calls]))
  obtain ⟨hcpu, hmem⟩ := h.costs (hall _ (by simp [calls]))
  obtain ⟨htemp, hpersistent, hmax⟩ := h.archival (hall _ (by simp [calls]))
  obtain ⟨parsed, hparsed, hcopy⟩ := h.copy
  have hsame : parsed = network.feeSettings.toNetworkFeeSettings := by
    refine parse_eq_of_values hexact (fun field => ?_) hcopy
    rw [hfees]
    exact .inl rfl
  exact ⟨by rw [hparsed, hsame], fun field => congrFun hfees field, hcpu, hmem, htemp, hpersistent,
    hmax⟩

end Network

/-- **Configured from a node.**  A network whose numbers fit is loaded from any
answers that have its settings.  What was loaded is installed without an
exception, in any order and any number of times, and once each of the three was
installed the ledger has the network's configuration. -/
theorem network_configures {fv : FromValue} (hexact : fv.Exact) (hreads : fv.ReadsIntegers)
    {network : Network} (hfits : network.Fits)
    {feeEntries costEntries archivalEntries : List NodeEntry}
    (hfees : network.Answers feeSettingIds feeEntries)
    (hcosts : network.Answers costSettingIds costEntries)
    (harchival : archivalEntries.head? = some (.configSetting (.stateArchival network.archival)))
    {ledger : ConfiguredLedger} (hcopy : OneCopy fv ledger) :
    ∃ fees costs archival, loadFeeSettingsFromRpc feeEntries = .ok fees ∧
      loadCostParamsFromRpc costEntries = .ok costs ∧
      loadArchivalSettingsFromRpc archivalEntries = .ok archival ∧
      ∀ calls : List SettingsCall,
        let loaded : List SettingsCall := [.feeSettings (some fees),
          .costParams costs.cpuInstructions costs.memoryBytes costs.cpuLimit costs.memLimit,
          .archivalSettings archival]
        (∀ call ∈ calls, call ∈ loaded) →
        (settingsMachine fv).outs ledger calls = calls.map (fun _ => .ok ()) ∧
          ((∀ call ∈ loaded, call ∈ calls) →
            network.Configures ((settingsMachine fv).run ledger calls)) := by
  refine ⟨_, _, _, Network.loadFeeSettings_eq hfits hfees, Network.loadCostParams_eq hcosts,
    Network.loadArchivalSettings_eq harchival, fun calls hcalls => ?_⟩
  have hstart : network.Installed fv [] ledger :=
    ⟨hcopy, fun hmade => absurd hmade List.not_mem_nil, fun hmade => absurd hmade List.not_mem_nil,
      fun hmade => absurd hmade List.not_mem_nil⟩
  obtain ⟨houts, hend⟩ := hstart.run hfits hreads hcalls
  exact ⟨houts, fun hall => hend.configures hexact hall⟩

/-- A small network. -/
def sampleNetwork : Network where
  compute := ⟨400, 25, 41⟩
  ledgerCost := ⟨10, 2000, 5, 1000, 63, 100, 17, 3000, -17, 100, 5⟩
  txMaxFootprintEntries := 20
  feeWrite1Kb := 36
  feeHistorical1Kb := 162
  txMaxContractEventsSizeBytes := 163
  feeContractEvents1Kb := 100
  txMaxSizeBytes := 1320
  feeTxSize1Kb := 16
  contractMaxSizeBytes := 1310
  contractDataKeySizeBytes := 250
  contractDataEntrySizeBytes := 655
  archival := ⟨3110, 17, 120, 1215, 2430⟩
  liveSorobanStateSizes := [1000, 1500]
  cpuParams := ⟨[1]⟩
  memParams := ⟨[2]⟩

/-- The node answers in an order of its own, and the tables go in first. -/
theorem network_configures_sample :
    ∃ fees costs archival,
      loadFeeSettingsFromRpc (sampleNetwork.settings.reverse.map .configSetting) = .ok fees ∧
      loadCostParamsFromRpc (sampleNetwork.settings.map .configSetting) = .ok costs ∧
      loadArchivalSettingsFromRpc [.configSetting (.stateArchival sampleNetwork.archival)] =
        .ok archival ∧
      sampleNetwork.Configures ((settingsMachine .safe).run configuredLedger
        [.costParams costs.cpuInstructions costs.memoryBytes costs.cpuLimit costs.memLimit,
          .feeSettings (some fees), .archivalSettings archival]) := by
  have hfits : sampleNetwork.Fits :=
    ⟨by decide, fun field => by cases field <;> decide, by decide, by decide, by decide, by decide,
      by decide, by decide, by decide, by decide⟩
  have hown : ∀ settings : List ConfigSetting, settings ⊆ sampleNetwork.settings →
      ∀ entry ∈ settings.map NodeEntry.configSetting, ∃ setting, entry = .configSetting setting ∧
        (setting ∈ sampleNetwork.settings ∨ setting = .other) := by
    intro settings hsub entry hentry
    obtain ⟨setting, hsetting, rfl⟩ := List.mem_map.mp hentry
    exact ⟨setting, rfl, .inl (hsub hsetting)⟩
  have hfees : sampleNetwork.Answers feeSettingIds
      (sampleNetwork.settings.reverse.map .configSetting) :=
    ⟨fun _ h _ => List.mem_map_of_mem (List.mem_reverse.mpr h),
      hown _ fun _ h => List.mem_reverse.mp h⟩
  have hcosts : sampleNetwork.Answers costSettingIds
      (sampleNetwork.settings.map .configSetting) :=
    ⟨fun _ h _ => List.mem_map_of_mem h, hown _ fun _ h => h⟩
  have harchival : [NodeEntry.configSetting (.stateArchival sampleNetwork.archival)].head? =
      some (.configSetting (.stateArchival sampleNetwork.archival)) := rfl
  have hcopy : OneCopy .safe configuredLedger := ⟨_, rfl, rfl⟩
  obtain ⟨fees, costs, archival, hfee, hcost, harchive, hruns⟩ := network_configures
    FromValue.safe_exact FromValue.safe_readsIntegers hfits hfees hcosts harchival hcopy
  refine ⟨fees, costs, archival, hfee, hcost, harchive, (hruns _ fun call hcall => ?_).2
    fun call hcall => ?_⟩
  · simp only [List.mem_cons, List.not_mem_nil, or_false] at hcall ⊢
    rcases hcall with rfl | rfl | rfl <;> simp
  · simp only [List.mem_cons, List.not_mem_nil, or_false] at hcall ⊢
    rcases hcall with rfl | rfl | rfl <;> simp

end LiteSoroban

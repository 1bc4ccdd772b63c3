import LiteSoroban.LiteStellar.Sandbox

/-!
# The setters as JavaScript calls them

`setFeeSettings`, `setCostParams` and `setArchivalSettings` of `src/index.ts`,
on the arguments JavaScript hands over: settings objects with any values in
them, cost tables that may not decode, limits of any size.

A setting crosses into the crate in steps, and some of the steps can throw.
The crate parses the settings and keeps the twenty numbers it uses, and the
TypeScript layer keeps a copy of the whole object.  `Settled` is what the calls
keep: the copy parses to what the crate has, and the two cost tables are those
of one call.

* `step_settled` and `step_atomic` are the two step lemmas: a call that `Fits`
  keeps `Settled`, and if it throws it changes nothing.
* `configuration_settled` carries them to every run.
* `step_represents` connects the setters with those of `LiteStellar.Sandbox`,
  which take numbers that fit.
-/

namespace LiteSoroban

open Effect

/-! ## Values and objects -/

/-- A JavaScript value, as far as the setters tell values apart. -/
inductive JsValue where
  /-- A number that is an integer. -/
  | integer (n : Int)
  /-- Another finite number, by its integer part. -/
  | fraction (integerPart : Int)
  /-- `NaN` or an infinity. -/
  | nonFinite
  | bigint (n : Int)
  /-- Anything else, by the `u32` it becomes, if the conversion does not
  throw. -/
  | other (uint32 : Option Nat)
  deriving DecidableEq

namespace JsValue

/-- The value is an integer, as a number or as a bigint. -/
def IsInt (v : JsValue) (n : Int) : Prop := v = integer n ∨ v = bigint n

theorem IsInt.unique {v : JsValue} {m n : Int} (hm : v.IsInt m) (hn : v.IsInt n) : m = n := by
  rcases hm with rfl | rfl <;> rcases hn with h | h <;> cases h <;> rfl

/-- A JavaScript value as a `u32` argument: a number wraps around, and a bigint
is refused. -/
def uint32 : JsValue → Except JsError Nat
  | integer n => .ok (n % 2 ^ 32).toNat
  | fraction integerPart => .ok (integerPart % 2 ^ 32).toNat
  | nonFinite => .ok 0
  | bigint _ => .error ⟨"Cannot convert a BigInt value to a number"⟩
  | other (some n) => .ok (toUint32 n)
  | other none => .error ⟨"Cannot convert to a number"⟩

/-- `Number(n)` of a bigint. -/
@[irreducible] def number (n : Int) : JsValue :=
  let magnitude := jsNumber n.natAbs
  if 2 ^ 1024 ≤ magnitude then nonFinite
  else if n < 0 then integer (-magnitude)
  else integer magnitude

end JsValue

/-- The fields of `NetworkFeeSettings`. -/
inductive FeeField where
  | feeRatePerInstructionsIncrement
  | txMaxInstructions
  | txMemoryLimit
  | txMaxDiskReadEntries
  | txMaxDiskReadBytes
  | txMaxWriteLedgerEntries
  | txMaxWriteBytes
  | feeDiskReadLedgerEntry
  | feeWriteLedgerEntry
  | feeDiskRead1kb
  | sorobanStateTargetSizeBytes
  | rentFee1kbSorobanStateSizeLow
  | rentFee1kbSorobanStateSizeHigh
  | sorobanStateRentFeeGrowthFactor
  | txMaxFootprintEntries
  | feeWrite1kb
  | feeHistorical1kb
  | txMaxContractEventsSizeBytes
  | feeContractEvents1kb
  | txMaxSizeBytes
  | feeTxSize1kb
  | maxContractSizeBytes
  | maxContractDataKeySizeBytes
  | maxContractDataEntrySizeBytes
  | persistentRentRateDenominator
  | tempRentRateDenominator
  | averageSorobanStateSize
  deriving DecidableEq

/-- A settings object: what reading a field answers, and what `{ ...object }`
copies of it, which is only what the object has itself.  The copy reads every
such property, with those the setters do not know, and a getter of one of them
can throw. -/
structure JsObject where
  get : FeeField → JsValue
  spread : Except JsError (FeeField → JsValue)

/-- An object that holds its fields itself. -/
def JsObject.plain (fields : FeeField → JsValue) : JsObject := ⟨fields, .ok fields⟩

/-! ## Parsing -/

/-- `serde_wasm_bindgen::from_value` on a value, where the crate has an `i64`
or a `u32`. -/
structure FromValue where
  i64 : JsValue → Option Int
  u32 : JsValue → Option Nat

/-- A number is read as what it is. -/
structure FromValue.Exact (fv : FromValue) : Prop where
  i64 : ∀ {v n}, fv.i64 v = some n → v.IsInt n
  u32 : ∀ {v n}, fv.u32 v = some n → v.IsInt n

/-- A field of the settings the crate has parsed.  It does not read the limits
that only the classic layer checks. -/
def Fees.NetworkFeeSettings.value (s : Fees.NetworkFeeSettings) : FeeField → Option Int
  | .feeRatePerInstructionsIncrement => some s.feeRatePerInstructionsIncrement
  | .txMaxInstructions => some s.txMaxInstructions
  | .txMemoryLimit => some s.txMemoryLimit
  | .feeDiskReadLedgerEntry => some s.feeDiskReadLedgerEntry
  | .feeWriteLedgerEntry => some s.feeWriteLedgerEntry
  | .feeDiskRead1kb => some s.feeDiskRead1kb
  | .sorobanStateTargetSizeBytes => some s.sorobanStateTargetSizeBytes
  | .rentFee1kbSorobanStateSizeLow => some s.rentFee1kbSorobanStateSizeLow
  | .rentFee1kbSorobanStateSizeHigh => some s.rentFee1kbSorobanStateSizeHigh
  | .sorobanStateRentFeeGrowthFactor => some s.sorobanStateRentFeeGrowthFactor
  | .feeWrite1kb => some s.feeWrite1kb
  | .feeHistorical1kb => some s.feeHistorical1kb
  | .txMaxContractEventsSizeBytes => some s.txMaxContractEventsSizeBytes
  | .feeContractEvents1kb => some s.feeContractEvents1kb
  | .feeTxSize1kb => some s.feeTxSize1kb
  | .maxContractSizeBytes => some s.maxContractSizeBytes
  | .maxContractDataEntrySizeBytes => some s.maxContractDataEntrySizeBytes
  | .persistentRentRateDenominator => some s.persistentRentRateDenominator
  | .tempRentRateDenominator => some s.tempRentRateDenominator
  | .averageSorobanStateSize => some s.averageSorobanStateSize
  | _ => none

/-- A field, read as the type the crate has it in. -/
def FromValue.read (fv : FromValue) (field : FeeField) (v : JsValue) : Option Int :=
  match field with
  | .feeRatePerInstructionsIncrement => fv.i64 v
  | .txMaxInstructions => fv.i64 v
  | .txMemoryLimit => (fv.u32 v).map fun n : Nat => (n : Int)
  | .feeDiskReadLedgerEntry => fv.i64 v
  | .feeWriteLedgerEntry => fv.i64 v
  | .feeDiskRead1kb => fv.i64 v
  | .sorobanStateTargetSizeBytes => fv.i64 v
  | .rentFee1kbSorobanStateSizeLow => fv.i64 v
  | .rentFee1kbSorobanStateSizeHigh => fv.i64 v
  | .sorobanStateRentFeeGrowthFactor => (fv.u32 v).map fun n : Nat => (n : Int)
  | .feeWrite1kb => fv.i64 v
  | .feeHistorical1kb => fv.i64 v
  | .txMaxContractEventsSizeBytes => (fv.u32 v).map fun n : Nat => (n : Int)
  | .feeContractEvents1kb => fv.i64 v
  | .feeTxSize1kb => fv.i64 v
  | .maxContractSizeBytes => (fv.u32 v).map fun n : Nat => (n : Int)
  | .maxContractDataEntrySizeBytes => (fv.u32 v).map fun n : Nat => (n : Int)
  | .persistentRentRateDenominator => fv.i64 v
  | .tempRentRateDenominator => fv.i64 v
  | .averageSorobanStateSize => fv.i64 v
  | _ => none

/-- The fields the crate reads. -/
def Fees.NetworkFeeSettings.fields : List FeeField :=
  [.feeRatePerInstructionsIncrement, .txMaxInstructions, .txMemoryLimit,
    .feeDiskReadLedgerEntry, .feeWriteLedgerEntry, .feeDiskRead1kb,
    .sorobanStateTargetSizeBytes, .rentFee1kbSorobanStateSizeLow,
    .rentFee1kbSorobanStateSizeHigh, .sorobanStateRentFeeGrowthFactor, .feeWrite1kb,
    .feeHistorical1kb, .txMaxContractEventsSizeBytes, .feeContractEvents1kb, .feeTxSize1kb,
    .maxContractSizeBytes, .maxContractDataEntrySizeBytes, .persistentRentRateDenominator,
    .tempRentRateDenominator, .averageSorobanStateSize]

/-- The settings the crate reads from an object: every field is read, and the
settings are built if none is missing. -/
def Fees.NetworkFeeSettings.parse (fv : FromValue) (o : FeeField → JsValue) :
    Option Fees.NetworkFeeSettings :=
  if Fees.NetworkFeeSettings.fields.all fun field => (fv.read field (o field)).isSome then some {
    feeRatePerInstructionsIncrement := (fv.i64 (o .feeRatePerInstructionsIncrement)).getD 0
    txMaxInstructions := (fv.i64 (o .txMaxInstructions)).getD 0
    txMemoryLimit := (fv.u32 (o .txMemoryLimit)).getD 0
    feeDiskReadLedgerEntry := (fv.i64 (o .feeDiskReadLedgerEntry)).getD 0
    feeWriteLedgerEntry := (fv.i64 (o .feeWriteLedgerEntry)).getD 0
    feeDiskRead1kb := (fv.i64 (o .feeDiskRead1kb)).getD 0
    sorobanStateTargetSizeBytes := (fv.i64 (o .sorobanStateTargetSizeBytes)).getD 0
    rentFee1kbSorobanStateSizeLow := (fv.i64 (o .rentFee1kbSorobanStateSizeLow)).getD 0
    rentFee1kbSorobanStateSizeHigh := (fv.i64 (o .rentFee1kbSorobanStateSizeHigh)).getD 0
    sorobanStateRentFeeGrowthFactor := (fv.u32 (o .sorobanStateRentFeeGrowthFactor)).getD 0
    feeWrite1kb := (fv.i64 (o .feeWrite1kb)).getD 0
    feeHistorical1kb := (fv.i64 (o .feeHistorical1kb)).getD 0
    txMaxContractEventsSizeBytes := (fv.u32 (o .txMaxContractEventsSizeBytes)).getD 0
    feeContractEvents1kb := (fv.i64 (o .feeContractEvents1kb)).getD 0
    feeTxSize1kb := (fv.i64 (o .feeTxSize1kb)).getD 0
    maxContractSizeBytes := (fv.u32 (o .maxContractSizeBytes)).getD 0
    maxContractDataEntrySizeBytes := (fv.u32 (o .maxContractDataEntrySizeBytes)).getD 0
    persistentRentRateDenominator := (fv.i64 (o .persistentRentRateDenominator)).getD 0
    tempRentRateDenominator := (fv.i64 (o .tempRentRateDenominator)).getD 0
    averageSorobanStateSize := (fv.i64 (o .averageSorobanStateSize)).getD 0 }
  else none

/-- The settings of the TypeScript layer, field by field. -/
def NetworkFeeSettings.value (s : NetworkFeeSettings) : FeeField → Int
  | .feeRatePerInstructionsIncrement => s.feeRatePerInstructionsIncrement
  | .txMaxInstructions => s.txMaxInstructions
  | .txMemoryLimit => s.txMemoryLimit
  | .txMaxDiskReadEntries => s.txMaxDiskReadEntries
  | .txMaxDiskReadBytes => s.txMaxDiskReadBytes
  | .txMaxWriteLedgerEntries => s.txMaxWriteLedgerEntries
  | .txMaxWriteBytes => s.txMaxWriteBytes
  | .feeDiskReadLedgerEntry => s.feeDiskReadLedgerEntry
  | .feeWriteLedgerEntry => s.feeWriteLedgerEntry
  | .feeDiskRead1kb => s.feeDiskRead1kb
  | .sorobanStateTargetSizeBytes => s.sorobanStateTargetSizeBytes
  | .rentFee1kbSorobanStateSizeLow => s.rentFee1kbSorobanStateSizeLow
  | .rentFee1kbSorobanStateSizeHigh => s.rentFee1kbSorobanStateSizeHigh
  | .sorobanStateRentFeeGrowthFactor => s.sorobanStateRentFeeGrowthFactor
  | .txMaxFootprintEntries => s.txMaxFootprintEntries
  | .feeWrite1kb => s.feeWrite1kb
  | .feeHistorical1kb => s.feeHistorical1kb
  | .txMaxContractEventsSizeBytes => s.txMaxContractEventsSizeBytes
  | .feeContractEvents1kb => s.feeContractEvents1kb
  | .txMaxSizeBytes => s.txMaxSizeBytes
  | .feeTxSize1kb => s.feeTxSize1kb
  | .maxContractSizeBytes => s.maxContractSizeBytes
  | .maxContractDataKeySizeBytes => s.maxContractDataKeySizeBytes
  | .maxContractDataEntrySizeBytes => s.maxContractDataEntrySizeBytes
  | .persistentRentRateDenominator => s.persistentRentRateDenominator
  | .tempRentRateDenominator => s.tempRentRateDenominator
  | .averageSorobanStateSize => s.averageSorobanStateSize

theorem mem_fields {s : Fees.NetworkFeeSettings} {field : FeeField} :
    field ∈ Fees.NetworkFeeSettings.fields ↔ (s.value field).isSome := by
  cases field <;> simp [Fees.NetworkFeeSettings.fields, Fees.NetworkFeeSettings.value]

theorem parse_isSome_iff {fv : FromValue} {o : FeeField → JsValue} :
    (Fees.NetworkFeeSettings.parse fv o).isSome ↔
      ∀ field ∈ Fees.NetworkFeeSettings.fields, (fv.read field (o field)).isSome := by
  unfold Fees.NetworkFeeSettings.parse
  split
  · next hall => simpa using hall
  · next hall => simpa using hall

/-- A field that was read is built from what was read. -/
theorem i64_eq_getD {fv : FromValue} {v : JsValue} (h : (fv.i64 v).isSome) :
    fv.i64 v = some ((fv.i64 v).getD 0) := by
  cases hv : fv.i64 v with
  | none => simp [hv] at h
  | some n => rfl

theorem u32_eq_getD {fv : FromValue} {v : JsValue}
    (h : ((fv.u32 v).map fun n : Nat => (n : Int)).isSome) :
    ((fv.u32 v).map fun n : Nat => (n : Int)) = some (((fv.u32 v).getD 0 : Nat) : Int) := by
  cases hv : fv.u32 v with
  | none => simp [hv] at h
  | some n => rfl

/-- Parsed settings hold what the fields of the object are read as. -/
theorem value_of_parse {fv : FromValue} {o : FeeField → JsValue} {s : Fees.NetworkFeeSettings}
    (h : Fees.NetworkFeeSettings.parse fv o = some s) {field : FeeField}
    (hfield : field ∈ Fees.NetworkFeeSettings.fields) :
    fv.read field (o field) = s.value field := by
  have hread : (fv.read field (o field)).isSome :=
    parse_isSome_iff.mp (by rw [h]; rfl) field hfield
  unfold Fees.NetworkFeeSettings.parse at h
  split at h
  · cases h
    cases field <;> first | exact i64_eq_getD hread | exact u32_eq_getD hread | cases hread
  · cases h

/-- What a field is read as is what it holds. -/
theorem FromValue.Exact.read {fv : FromValue} (hexact : fv.Exact) {field : FeeField} {v : JsValue}
    {n : Int} (h : fv.read field v = some n) : v.IsInt n := by
  have hu32 : ∀ {n}, (fv.u32 v).map (fun n : Nat => (n : Int)) = some n → v.IsInt n := by
    intro n h
    obtain ⟨m, hm, rfl⟩ := Option.map_eq_some_iff.mp h
    exact hexact.u32 hm
  cases field <;> first | exact hexact.i64 h | exact hu32 h | cases h

/-! ## The setters -/

/-- `set_cost_params`, from the texts of the tables.  The first table is
installed before the second is read. -/
def SorobanEnv.installCostParams (cpuParams memParams : Encoded ContractCostParams) :
    EStateM JsError SorobanEnv Unit := fun env =>
  match cpuParams.decoded with
  | none => .error ⟨"xdr"⟩ env
  | some cpu =>
    let halfway := { env with cpuCostParams := some cpu }
    match memParams.decoded with
    | none => .error ⟨"xdr"⟩ halfway
    | some mem => .ok () { halfway with memCostParams := some mem }

/-- `ArchivalSettings`, as `setArchivalSettings` reads it. -/
structure ArchivalValues where
  minTemporaryTtl : JsValue
  minPersistentTtl : JsValue
  maxEntryTtl : JsValue

/-- The three numbers cross before the crate looks at them. -/
def ArchivalValues.install (s : ArchivalValues) (env : SorobanEnv) : Except JsError SorobanEnv := do
  let minTemporaryTtl ← s.minTemporaryTtl.uint32
  let minPersistentTtl ← s.minPersistentTtl.uint32
  let maxEntryTtl ← s.maxEntryTtl.uint32
  env.setArchivalSettings minTemporaryTtl minPersistentTtl maxEntryTtl

/-- A ledger whose copy of the fee settings is the object it was given. -/
structure ConfiguredLedger where
  env : SorobanEnv
  fees : FeeField → JsValue

abbrev ConfiguredM := EStateM JsError ConfiguredLedger

namespace ConfiguredLedger

/-- A call into the environment. -/
def ofEnv {α : Type} (x : EStateM JsError SorobanEnv α) : ConfiguredM α := fun ledger =>
  match x ledger.env with
  | .ok a env => .ok a { ledger with env := env }
  | .error e env => .error e { ledger with env := env }

/-- `setFeeSettings`.  An argument that is no object is refused.  The crate has
the settings before the object is copied. -/
def setFeeSettings (fv : FromValue) (settings : Option JsObject) : ConfiguredM Unit := fun ledger =>
  match settings with
  | none => .error ⟨"fee settings"⟩ ledger
  | some settings =>
    match Fees.NetworkFeeSettings.parse fv settings.get with
    | none => .error ⟨"fee settings"⟩ ledger
    | some parsed =>
      let env := ledger.env.setFeeSettings parsed
      match settings.spread with
      | .error e => .error e { ledger with env := env }
      | .ok fees => .ok () { env := env, fees := fees }

/-- The copy of the settings with the limits `setCostParams` was given. -/
def limitedFees (ledger : ConfiguredLedger) (cpuLimit memLimit : Option Int) : FeeField → JsValue
  | .txMaxInstructions => (cpuLimit.map JsValue.number).getD (ledger.fees .txMaxInstructions)
  | .txMemoryLimit => (memLimit.map JsValue.number).getD (ledger.fees .txMemoryLimit)
  | field => ledger.fees field

/-- `setCostParams`. -/
def setCostParams (fv : FromValue) (cpuParams memParams : Encoded ContractCostParams)
    (cpuLimit memLimit : Option Int) : ConfiguredM Unit := do
  ofEnv (SorobanEnv.installCostParams cpuParams memParams)
  let ledger ← get
  if cpuLimit.isSome || memLimit.isSome then
    setFeeSettings fv (some (.plain (ledger.limitedFees cpuLimit memLimit)))

/-- `setArchivalSettings`. -/
def setArchivalSettings (s : ArchivalValues) : ConfiguredM Unit := fun ledger =>
  match s.install ledger.env with
  | .error e => .error e ledger
  | .ok env => .ok () { ledger with env := env }

/-- The ledger before it has settings. -/
def bare (protocolVersion ledgerSeq : Nat) (networkId : Bytes) : ConfiguredLedger where
  env := { SorobanEnv.new protocolVersion ledgerSeq with networkId := networkId }
  fees := fun _ => .other (some 0)

/-- The constructor: a new environment, and the first settings.  An exception
leaves no ledger. -/
def construct (fv : FromValue) (protocolVersion ledgerSeq : Nat) (networkId : Bytes)
    (settings : JsObject) : Except JsError ConfiguredLedger :=
  match setFeeSettings fv (some settings) (bare protocolVersion ledgerSeq networkId) with
  | .ok () ledger => .ok ledger
  | .error e _ => .error e

end ConfiguredLedger

/-- A call of a setter. -/
inductive SettingsCall where
  | feeSettings (settings : Option JsObject)
  | costParams (cpuParams memParams : Encoded ContractCostParams) (cpuLimit memLimit : Option Int)
  | archivalSettings (settings : ArchivalValues)

/-- One call. -/
def SettingsCall.perform (fv : FromValue) : SettingsCall → ConfiguredM Unit
  | feeSettings settings => ConfiguredLedger.setFeeSettings fv settings
  | costParams cpuParams memParams cpuLimit memLimit =>
    ConfiguredLedger.setCostParams fv cpuParams memParams cpuLimit memLimit
  | archivalSettings settings => ConfiguredLedger.setArchivalSettings settings

/-- The machine of the setters. -/
def settingsMachine (fv : FromValue) :
    Machine ConfiguredLedger SettingsCall (Except JsError Unit) where
  step ledger call := (answer (call.perform fv ledger), finalState (call.perform fv ledger))

/-! ## One copy of the settings -/

/-- The crate reads objects alike that have the same in the fields it reads. -/
theorem parse_congr {fv : FromValue} {o o' : FeeField → JsValue}
    (h : ∀ field ∈ Fees.NetworkFeeSettings.fields, o field = o' field) :
    Fees.NetworkFeeSettings.parse fv o = Fees.NetworkFeeSettings.parse fv o' := by
  let shared (o : FeeField → JsValue) (field : FeeField) : JsValue :=
    if field ∈ Fees.NetworkFeeSettings.fields then o field else .other none
  have hshared : shared o = shared o' := by
    funext field
    simp only [shared]
    split
    · next hfield => exact h field hfield
    · rfl
  have hparse : ∀ o, Fees.NetworkFeeSettings.parse fv o =
      Fees.NetworkFeeSettings.parse fv (shared o) := fun o => rfl
  rw [hparse o, hparse o', hshared]

/-- The limits of a call parse with the rest of the settings. -/
theorem limitedFees_parses {fv : FromValue} {ledger : ConfiguredLedger}
    (hfees : (Fees.NetworkFeeSettings.parse fv ledger.fees).isSome) {cpuLimit memLimit : Option Int}
    (hcpu : ∀ n ∈ cpuLimit, (fv.i64 (.number n)).isSome)
    (hmem : ∀ n ∈ memLimit, (fv.u32 (.number n)).isSome) :
    (Fees.NetworkFeeSettings.parse fv (ledger.limitedFees cpuLimit memLimit)).isSome := by
  rw [parse_isSome_iff] at hfees ⊢
  intro field hfield
  have hold := hfees field hfield
  cases field <;> try exact hold
  case txMaxInstructions =>
    cases cpuLimit with
    | none => exact hold
    | some n => exact hcpu n rfl
  case txMemoryLimit =>
    cases memLimit with
    | none => exact hold
    | some n =>
      show ((fv.u32 (JsValue.number n)).map _).isSome
      rw [Option.isSome_map]
      exact hmem n rfl

/-- The copy of the settings parses to what the crate has. -/
def OneCopy (fv : FromValue) (ledger : ConfiguredLedger) : Prop :=
  ∃ parsed, ledger.env.feeSettings = some parsed ∧
    Fees.NetworkFeeSettings.parse fv ledger.fees = some parsed

/-- Both cost tables are those of one call. -/
def InstalledBy (call : SettingsCall) (ledger : ConfiguredLedger) : Prop :=
  ∃ cpuParams memParams cpuLimit memLimit cpu mem,
    call = .costParams cpuParams memParams cpuLimit memLimit ∧
    cpuParams.decoded = some cpu ∧ ledger.env.cpuCostParams = some cpu ∧
    memParams.decoded = some mem ∧ ledger.env.memCostParams = some mem

/-- There are no cost tables, or both are those of one of the calls. -/
def TablesOf (calls : List SettingsCall) (ledger : ConfiguredLedger) : Prop :=
  ledger.env.cpuCostParams = none ∧ ledger.env.memCostParams = none ∨
    ∃ call ∈ calls, InstalledBy call ledger

/-- What the calls keep. -/
structure Settled (fv : FromValue) (calls : List SettingsCall) (ledger : ConfiguredLedger) :
    Prop where
  oneCopy : OneCopy fv ledger
  tables : TablesOf calls ledger

/-- The fee settings of the classic layer are those of the crate, in every field
the crate has. -/
def FeesAgree (ledger : ConfiguredLedger) : Prop :=
  ∃ parsed, ledger.env.feeSettings = some parsed ∧
    ∀ field n, parsed.value field = some n → (ledger.fees field).IsInt n

theorem OneCopy.feesAgree {fv : FromValue} (hexact : fv.Exact) {ledger : ConfiguredLedger}
    (h : OneCopy fv ledger) : FeesAgree ledger := by
  obtain ⟨parsed, hparsed, hcopy⟩ := h
  refine ⟨parsed, hparsed, fun field n hvalue => ?_⟩
  have hfield : field ∈ Fees.NetworkFeeSettings.fields := by
    rw [mem_fields, hvalue]
    rfl
  rw [← value_of_parse hcopy hfield] at hvalue
  exact hexact.read hvalue

/-- The object can be copied, and the copy holds what the crate reads. -/
def JsObject.Copies (o : JsObject) : Prop :=
  ∃ fields, o.spread = .ok fields ∧
    ∀ field ∈ Fees.NetworkFeeSettings.fields, o.get field = fields field

/-- What a call has to be for the setters to keep the configuration: a settings
object that the crate reads can be copied, and holds what the crate reads
itself; and when a call's CPU table decodes, so does its memory table, and its
limits are numbers that the crate reads. -/
def SettingsCall.Fits (fv : FromValue) : SettingsCall → Prop
  | feeSettings settings =>
    ∀ o ∈ settings, (Fees.NetworkFeeSettings.parse fv o.get).isSome → o.Copies
  | costParams cpuParams memParams cpuLimit memLimit =>
    cpuParams.decoded.isSome →
      memParams.decoded.isSome ∧ (∀ n ∈ cpuLimit, (fv.i64 (.number n)).isSome) ∧
        ∀ n ∈ memLimit, (fv.u32 (.number n)).isSome
  | archivalSettings _ => True

/-! ## One call -/

namespace ConfiguredLedger

variable {fv : FromValue} {ledger : ConfiguredLedger}

/-- `setFeeSettings` throws and changes nothing, or the crate has the settings
and the object is copied. -/
theorem setFeeSettings_cases (fv : FromValue) (settings : Option JsObject)
    (ledger : ConfiguredLedger) :
    (∃ e, setFeeSettings fv settings ledger = .error e ledger) ∨
    ∃ o parsed, settings = some o ∧ Fees.NetworkFeeSettings.parse fv o.get = some parsed ∧
      setFeeSettings fv settings ledger = match o.spread with
        | .error e => .error e { ledger with env := ledger.env.setFeeSettings parsed }
        | .ok fees => .ok () { env := ledger.env.setFeeSettings parsed, fees := fees } := by
  cases settings with
  | none => exact .inl ⟨_, rfl⟩
  | some o =>
    cases hparse : Fees.NetworkFeeSettings.parse fv o.get with
    | none =>
      left
      exact ⟨⟨"fee settings"⟩, by simp only [setFeeSettings, hparse]⟩
    | some parsed =>
      right
      exact ⟨o, parsed, rfl, hparse, by simp only [setFeeSettings, hparse]⟩

/-- With settings that fit it throws and changes nothing, or both sides have
them. -/
theorem setFeeSettings_fits {settings : Option JsObject}
    (hfits : (SettingsCall.feeSettings settings).Fits fv) (ledger : ConfiguredLedger) :
    (∃ e, setFeeSettings fv settings ledger = .error e ledger) ∨
    ∃ parsed fees, Fees.NetworkFeeSettings.parse fv fees = some parsed ∧
      setFeeSettings fv settings ledger =
        .ok () { env := ledger.env.setFeeSettings parsed, fees := fees } := by
  rcases setFeeSettings_cases fv settings ledger with
    hthrew | ⟨o, parsed, hsettings, hparse, hset⟩
  · exact .inl hthrew
  · obtain ⟨fees, hspread, hsame⟩ := hfits o hsettings (by rw [hparse]; rfl)
    right
    refine ⟨parsed, fees, ?_, ?_⟩
    · rw [← parse_congr hsame]
      exact hparse
    · rw [hset, hspread]

/-- `setArchivalSettings` throws and changes nothing, or the three TTLs are
set. -/
theorem setArchivalSettings_cases (s : ArchivalValues) (ledger : ConfiguredLedger) :
    (∃ e, setArchivalSettings s ledger = .error e ledger) ∨
    ∃ minTemp minPersistent maxEntry,
      setArchivalSettings s ledger = .ok () { ledger with
        env := { ledger.env with
          minTempEntryTtl := minTemp
          minPersistentEntryTtl := minPersistent
          maxEntryTtl := maxEntry } } := by
  cases hinstall : s.install ledger.env with
  | error e =>
    left
    exact ⟨e, by simp only [setArchivalSettings, hinstall]⟩
  | ok env =>
    right
    have hset := hinstall
    unfold ArchivalValues.install at hset
    obtain ⟨minTemp, -, hset⟩ := Except.bind_eq_ok.mp hset
    obtain ⟨minPersistent, -, hset⟩ := Except.bind_eq_ok.mp hset
    obtain ⟨maxEntry, -, hset⟩ := Except.bind_eq_ok.mp hset
    unfold SorobanEnv.setArchivalSettings at hset
    by_cases hzero : minTemp = 0 ∨ minPersistent = 0 ∨ maxEntry = 0
    · rw [if_pos hzero] at hset
      cases hset
    · rw [if_neg hzero] at hset
      cases hset
      exact ⟨minTemp, minPersistent, maxEntry, by simp only [setArchivalSettings, hinstall]⟩

/-- `setCostParams` with a CPU table that does not decode throws and changes
nothing. -/
theorem setCostParams_undecoded {cpuParams memParams : Encoded ContractCostParams}
    {cpuLimit memLimit : Option Int} (hcpu : cpuParams.decoded = none) :
    setCostParams fv cpuParams memParams cpuLimit memLimit ledger = .error ⟨"xdr"⟩ ledger := by
  have hinstall : SorobanEnv.installCostParams cpuParams memParams ledger.env =
      .error ⟨"xdr"⟩ ledger.env := by
    simp only [SorobanEnv.installCostParams, hcpu]
  simp only [setCostParams, bind, EStateM.bind, ofEnv, hinstall]

/-- With tables that decode it installs both, and then the limits, if there are
any. -/
theorem setCostParams_decoded {cpuParams memParams : Encoded ContractCostParams}
    {cpuLimit memLimit : Option Int} {cpu mem : ContractCostParams}
    (hcpu : cpuParams.decoded = some cpu) (hmem : memParams.decoded = some mem) :
    setCostParams fv cpuParams memParams cpuLimit memLimit ledger =
      if cpuLimit.isSome || memLimit.isSome then
        setFeeSettings fv (some (.plain (ledger.limitedFees cpuLimit memLimit)))
          { ledger with env := ledger.env.setCostParams cpu mem }
      else .ok () { ledger with env := ledger.env.setCostParams cpu mem } := by
  have hinstall : SorobanEnv.installCostParams cpuParams memParams ledger.env =
      .ok () (ledger.env.setCostParams cpu mem) := by
    simp only [SorobanEnv.installCostParams, hcpu, hmem, SorobanEnv.setCostParams]
  have hlimited : ({ ledger with env := ledger.env.setCostParams cpu mem } :
      ConfiguredLedger).limitedFees cpuLimit memLimit = ledger.limitedFees cpuLimit memLimit := by
    funext field
    cases field <;> rfl
  simp only [setCostParams, bind, EStateM.bind, ofEnv, hinstall, get_run, MonadState.get, getThe]
  by_cases hlimits : (cpuLimit.isSome || memLimit.isSome) = true
  · rw [if_pos hlimits, if_pos hlimits, hlimited]
  · rw [if_neg hlimits, if_neg hlimits]
    rfl

/-- With limits that parse it returns, with the limits on both sides. -/
theorem setCostParams_ok {cpuParams memParams : Encoded ContractCostParams}
    {cpuLimit memLimit : Option Int} {cpu mem : ContractCostParams}
    (hcpu : cpuParams.decoded = some cpu) (hmem : memParams.decoded = some mem)
    {parsed : Fees.NetworkFeeSettings}
    (hparse : Fees.NetworkFeeSettings.parse fv (ledger.limitedFees cpuLimit memLimit) =
      some parsed) :
    setCostParams fv cpuParams memParams cpuLimit memLimit ledger = .ok ()
      (if cpuLimit.isSome || memLimit.isSome then
        { env := (ledger.env.setCostParams cpu mem).setFeeSettings parsed
          fees := ledger.limitedFees cpuLimit memLimit }
      else { ledger with env := ledger.env.setCostParams cpu mem }) := by
  rw [setCostParams_decoded hcpu hmem]
  by_cases hlimits : (cpuLimit.isSome || memLimit.isSome) = true
  · rw [if_pos hlimits, if_pos hlimits]
    simp only [setFeeSettings, JsObject.plain, hparse]
  · rw [if_neg hlimits, if_neg hlimits]

end ConfiguredLedger

section Step

variable {fv : FromValue} {ledger : ConfiguredLedger} {call : SettingsCall}

/-- A call that fits throws and changes nothing, or keeps the two copies of the
settings alike and the cost tables, if it does not install its own. -/
theorem perform_cases (hcopy : OneCopy fv ledger) (hfits : call.Fits fv) :
    (∃ e, call.perform fv ledger = .error e ledger) ∨
    ∃ ledger', call.perform fv ledger = .ok () ledger' ∧ OneCopy fv ledger' ∧
      (ledger'.env.cpuCostParams = ledger.env.cpuCostParams ∧
          ledger'.env.memCostParams = ledger.env.memCostParams ∨
        InstalledBy call ledger') := by
  cases call with
  | feeSettings settings =>
    rcases ConfiguredLedger.setFeeSettings_fits hfits ledger with
      hthrew | ⟨parsed, fees, hparse, hset⟩
    · exact .inl hthrew
    · exact .inr ⟨_, hset, ⟨parsed, rfl, hparse⟩, .inl ⟨rfl, rfl⟩⟩
  | archivalSettings settings =>
    rcases ConfiguredLedger.setArchivalSettings_cases settings ledger with
      hthrew | ⟨minTemp, minPersistent, maxEntry, hset⟩
    · exact .inl hthrew
    · exact .inr ⟨_, hset, hcopy, .inl ⟨rfl, rfl⟩⟩
  | costParams cpuParams memParams cpuLimit memLimit =>
    cases hcpu : cpuParams.decoded with
    | none => exact .inl ⟨_, ConfiguredLedger.setCostParams_undecoded hcpu⟩
    | some cpu =>
      obtain ⟨hmem, hcpuLimit, hmemLimit⟩ := hfits (by rw [hcpu]; rfl)
      obtain ⟨mem, hmem⟩ := Option.isSome_iff_exists.mp hmem
      obtain ⟨old, hold, hfees⟩ := hcopy
      obtain ⟨parsed, hparse⟩ := Option.isSome_iff_exists.mp
        (limitedFees_parses (by rw [hfees]; rfl) hcpuLimit hmemLimit)
      have hset := ConfiguredLedger.setCostParams_ok hcpu hmem hparse
      right
      refine ⟨_, hset, ?_, .inr ⟨cpuParams, memParams, cpuLimit, memLimit, cpu, mem, rfl, hcpu, ?_,
        hmem, ?_⟩⟩
      · split
        · exact ⟨parsed, rfl, hparse⟩
        · exact ⟨old, hold, hfees⟩
      · split <;> rfl
      · split <;> rfl

/-- A call that fits keeps what the calls keep. -/
theorem step_settled {calls : List SettingsCall} (h : Settled fv calls ledger)
    (hcall : call ∈ calls) (hfits : call.Fits fv) :
    Settled fv calls ((settingsMachine fv).next ledger call) := by
  show Settled fv calls (finalState (call.perform fv ledger))
  rcases perform_cases h.oneCopy hfits with ⟨e, hrun⟩ | ⟨ledger', hrun, hcopy, htables⟩
  · rw [hrun]
    exact h
  · rw [hrun]
    refine ⟨hcopy, ?_⟩
    rcases htables with ⟨hcpu, hmem⟩ | hinstalled
    · unfold TablesOf InstalledBy
      simp only [finalState_ok, hcpu, hmem]
      exact h.tables
    · exact .inr ⟨call, hcall, hinstalled⟩

/-- A call that fits and throws changes nothing. -/
theorem step_atomic (hcopy : OneCopy fv ledger) (hfits : call.Fits fv) {e : JsError}
    (hthrew : (settingsMachine fv).out ledger call = .error e) :
    (settingsMachine fv).next ledger call = ledger := by
  have hout : answer (call.perform fv ledger) = .error e := hthrew
  show finalState (call.perform fv ledger) = ledger
  rcases perform_cases hcopy hfits with ⟨e', hrun⟩ | ⟨ledger', hrun, -⟩
  · rw [hrun]
    rfl
  · rw [hrun] at hout
    cases hout

end Step

/-! ## A run -/

/-- A new ledger is settled. -/
theorem construct_settled {fv : FromValue} {protocolVersion ledgerSeq : Nat} {networkId : Bytes}
    {settings : JsObject} {ledger : ConfiguredLedger}
    (hfits : (SettingsCall.feeSettings (some settings)).Fits fv)
    (h : ConfiguredLedger.construct fv protocolVersion ledgerSeq networkId settings = .ok ledger)
    (calls : List SettingsCall) : Settled fv calls ledger := by
  unfold ConfiguredLedger.construct at h
  rcases ConfiguredLedger.setFeeSettings_fits hfits
      (.bare protocolVersion ledgerSeq networkId) with
    ⟨e, hthrew⟩ | ⟨parsed, fees, hparse, hset⟩
  · rw [hthrew] at h
    cases h
  · rw [hset] at h
    cases h
    exact ⟨⟨parsed, rfl, hparse⟩, .inl ⟨rfl, rfl⟩⟩

/-- **One configuration.**  On a new ledger, and after any calls of the setters
that fit, the fee settings of the two sides agree and the cost tables are those
of one call or absent.  A call on the way that throws changes nothing. -/
theorem configuration_settled {fv : FromValue} (hexact : fv.Exact) {protocolVersion ledgerSeq : Nat}
    {networkId : Bytes} {settings : JsObject} {ledger : ConfiguredLedger}
    (hsettings : (SettingsCall.feeSettings (some settings)).Fits fv)
    (hnew : ConfiguredLedger.construct fv protocolVersion ledgerSeq networkId settings = .ok ledger)
    {calls : List SettingsCall} (hfits : ∀ call ∈ calls, call.Fits fv) :
    (settingsMachine fv).AllSteps
      (fun ledger call => ∀ e, (settingsMachine fv).out ledger call = .error e →
        (settingsMachine fv).next ledger call = ledger) ledger calls ∧
    FeesAgree ((settingsMachine fv).run ledger calls) ∧
    TablesOf calls ((settingsMachine fv).run ledger calls) := by
  have hstart : Settled fv calls ledger := construct_settled hsettings hnew calls
  have hcalls : (settingsMachine fv).AllSteps
      (fun _ call => call ∈ calls ∧ call.Fits fv) ledger calls :=
    Machine.allSteps_of_mem _ ledger fun call hcall _ => ⟨hcall, hfits call hcall⟩
  have hstep : ∀ ledger call, Settled fv calls ledger → call ∈ calls ∧ call.Fits fv →
      Settled fv calls ((settingsMachine fv).next ledger call) :=
    fun _ _ h hcall => step_settled h hcall.1 hcall.2
  have hend : Settled fv calls ((settingsMachine fv).run ledger calls) :=
    Machine.invariant_run _ hstep hstart hcalls
  refine ⟨?_, hend.oneCopy.feesAgree hexact, hend.tables⟩
  exact Machine.AllSteps.of_invariant _ hstep
    (fun _ _ h hcall _ hthrew => step_atomic h.oneCopy hcall.2 hthrew) hstart hcalls

/-! ## Numbers that fit -/

/-- Settings are what their fields hold. -/
theorem eq_of_value_eq {s t : Fees.NetworkFeeSettings} (h : s.value = t.value) : s = t := by
  -- Reading the fields back gives the settings they are of.
  let echo : FromValue :=
    { i64 := fun v => match v with
        | .integer n => some n
        | _ => none
      u32 := fun v => match v with
        | .integer n => some n.toNat
        | _ => none }
  have hecho : ∀ s : Fees.NetworkFeeSettings, Fees.NetworkFeeSettings.parse echo
      (fun field => .integer ((s.value field).getD 0)) = some s := fun s => rfl
  have hs := hecho s
  rw [h, hecho t] at hs
  exact (Option.some.inj hs).symm

/-- The crate's part of settings has their values. -/
theorem value_toNetworkFeeSettings (s : NetworkFeeSettings) {field : FeeField}
    (hfield : field ∈ Fees.NetworkFeeSettings.fields) :
    s.toNetworkFeeSettings.value field = some (s.value field) := by
  cases field <;> first | rfl | (exfalso; revert hfield; decide)

/-- An object that holds the values of settings parses to the crate's part of
them, if it parses. -/
theorem parse_eq_of_values {fv : FromValue} (hexact : fv.Exact) {o : FeeField → JsValue}
    {s : NetworkFeeSettings} (ho : ∀ field, (o field).IsInt (s.value field))
    {parsed : Fees.NetworkFeeSettings} (h : Fees.NetworkFeeSettings.parse fv o = some parsed) :
    parsed = s.toNetworkFeeSettings := by
  apply eq_of_value_eq
  funext field
  by_cases hfield : field ∈ Fees.NetworkFeeSettings.fields
  · obtain ⟨n, hn⟩ := Option.isSome_iff_exists.mp (mem_fields.mp hfield)
    rw [hn, value_toNetworkFeeSettings s hfield]
    rw [← value_of_parse h hfield] at hn
    rw [(hexact.read hn).unique (ho field)]
  · have hnone : ∀ t : Fees.NetworkFeeSettings, t.value field = none := by
      intro t
      by_contra hsome
      exact hfield (mem_fields.mpr (Option.isSome_iff_ne_none.mpr hsome))
    rw [hnone, hnone]

/-- A ledger whose settings are numbers. -/
structure Represents (configured : ConfiguredLedger) (ledger : Ledger) : Prop where
  env : configured.env = ledger.env
  fees : ∀ field, (configured.fees field).IsInt (ledger.fees.value field)

/-- A call whose arguments are numbers, and the setter it calls. -/
inductive SettingsCall.Calls : SettingsCall → LedgerSetting → Prop
  | feeSettings {o : JsObject} {fields : FeeField → JsValue} {settings : NetworkFeeSettings}
      (hget : ∀ field, (o.get field).IsInt (settings.value field))
      (hspread : o.spread = .ok fields)
      (hfields : ∀ field, (fields field).IsInt (settings.value field)) :
      Calls (.feeSettings (some o)) (.feeSettings settings)
  | costParams {cpuParams memParams : Encoded ContractCostParams} {cpu mem : ContractCostParams}
      {cpuLimit memLimit cpuNumber : Option Int} {memNumber : Option Nat}
      (hcpu : cpuParams.decoded = some cpu) (hmem : memParams.decoded = some mem)
      (hcpuLimit : cpuLimit.map JsValue.number = cpuNumber.map JsValue.integer)
      (hmemLimit : memLimit.map JsValue.number = memNumber.map fun n : Nat => JsValue.integer n) :
      Calls (.costParams cpuParams memParams cpuLimit memLimit)
        (.costParams cpu mem cpuNumber memNumber)
  | archivalSettings {values : ArchivalValues} {minTemporaryTtl minPersistentTtl maxEntryTtl : Nat}
      (htemp : values.minTemporaryTtl.uint32 = .ok minTemporaryTtl)
      (hpersistent : values.minPersistentTtl.uint32 = .ok minPersistentTtl)
      (hmax : values.maxEntryTtl.uint32 = .ok maxEntryTtl) :
      Calls (.archivalSettings values)
        (.archivalSettings minTemporaryTtl minPersistentTtl maxEntryTtl)

section Represents

variable {fv : FromValue} {configured configured' : ConfiguredLedger} {ledger : Ledger}

/-- The limits of a call are those of the setter. -/
theorem Represents.limitedFees (h : Represents configured ledger)
    {cpuLimit memLimit cpuNumber : Option Int} {memNumber : Option Nat}
    (hcpuLimit : cpuLimit.map JsValue.number = cpuNumber.map JsValue.integer)
    (hmemLimit : memLimit.map JsValue.number = memNumber.map fun n : Nat => JsValue.integer n)
    (field : FeeField) :
    (configured.limitedFees cpuLimit memLimit field).IsInt
      ((ledger.limitedFees cpuNumber memNumber).value field) := by
  have hold := h.fees field
  cases field <;> try exact hold
  case txMaxInstructions =>
    simp only [ConfiguredLedger.limitedFees, hcpuLimit, NetworkFeeSettings.value,
      Ledger.limitedFees]
    cases cpuNumber with
    | none => exact hold
    | some n => exact .inl rfl
  case txMemoryLimit =>
    simp only [ConfiguredLedger.limitedFees, hmemLimit, NetworkFeeSettings.value,
      Ledger.limitedFees]
    cases memNumber with
    | none => exact hold
    | some n => exact .inl rfl

/-- Settings that hold the same numbers are installed alike. -/
theorem Represents.setFeeSettings (hexact : fv.Exact) (h : Represents configured ledger)
    {o : JsObject} {fields : FeeField → JsValue} {settings : NetworkFeeSettings}
    (hget : ∀ field, (o.get field).IsInt (settings.value field))
    (hspread : o.spread = .ok fields)
    (hfields : ∀ field, (fields field).IsInt (settings.value field))
    (hrun : ConfiguredLedger.setFeeSettings fv (some o) configured = .ok () configured') :
    Represents configured' (ledger.setFeeSettings settings) := by
  rcases ConfiguredLedger.setFeeSettings_cases fv (some o) configured with
    ⟨e, hthrew⟩ | ⟨_, parsed, ⟨⟩, hparse, hset⟩
  · rw [hthrew] at hrun
    cases hrun
  · rw [hset, hspread] at hrun
    cases hrun
    refine ⟨?_, hfields⟩
    show configured.env.setFeeSettings parsed =
      ledger.env.setFeeSettings settings.toNetworkFeeSettings
    rw [h.env, parse_eq_of_values hexact hget hparse]

/-- Cost tables are installed alike, and so are the limits. -/
theorem Represents.setCostParams (hexact : fv.Exact) (h : Represents configured ledger)
    {cpuParams memParams : Encoded ContractCostParams} {cpu mem : ContractCostParams}
    {cpuLimit memLimit cpuNumber : Option Int} {memNumber : Option Nat}
    (hcpu : cpuParams.decoded = some cpu) (hmem : memParams.decoded = some mem)
    (hcpuLimit : cpuLimit.map JsValue.number = cpuNumber.map JsValue.integer)
    (hmemLimit : memLimit.map JsValue.number = memNumber.map fun n : Nat => JsValue.integer n)
    (hrun : ConfiguredLedger.setCostParams fv cpuParams memParams cpuLimit memLimit configured =
      .ok () configured') :
    Represents configured' (ledger.setCostParams cpu mem cpuNumber memNumber) := by
  have hpriced : Represents { configured with env := configured.env.setCostParams cpu mem }
      { ledger with env := ledger.env.setCostParams cpu mem } :=
    ⟨by rw [h.env], h.fees⟩
  have hcpuSome : cpuLimit.isSome = cpuNumber.isSome := by
    have hsome := congrArg Option.isSome hcpuLimit
    rwa [Option.isSome_map, Option.isSome_map] at hsome
  have hmemSome : memLimit.isSome = memNumber.isSome := by
    have hsome := congrArg Option.isSome hmemLimit
    rwa [Option.isSome_map, Option.isSome_map] at hsome
  have hlimited := h.limitedFees hcpuLimit hmemLimit
  rw [ConfiguredLedger.setCostParams_decoded hcpu hmem, hcpuSome, hmemSome] at hrun
  unfold Ledger.setCostParams
  by_cases hlimits : (cpuNumber.isSome || memNumber.isSome) = true
  · rw [if_pos hlimits] at hrun ⊢
    exact hpriced.setFeeSettings hexact hlimited rfl hlimited hrun
  · rw [if_neg hlimits] at hrun ⊢
    cases hrun
    exact hpriced

/-- TTLs are installed alike. -/
theorem Represents.setArchivalSettings (h : Represents configured ledger) {values : ArchivalValues}
    {minTemporaryTtl minPersistentTtl maxEntryTtl : Nat}
    (htemp : values.minTemporaryTtl.uint32 = .ok minTemporaryTtl)
    (hpersistent : values.minPersistentTtl.uint32 = .ok minPersistentTtl)
    (hmax : values.maxEntryTtl.uint32 = .ok maxEntryTtl)
    (hrun : ConfiguredLedger.setArchivalSettings values configured = .ok () configured') :
    ∃ ledger', Ledger.configure
        (.archivalSettings minTemporaryTtl minPersistentTtl maxEntryTtl) ledger = .ok () ledger' ∧
      Represents configured' ledger' := by
  have hinstall : values.install configured.env =
      ledger.env.setArchivalSettings minTemporaryTtl minPersistentTtl maxEntryTtl := by
    simp only [ArchivalValues.install, htemp, hpersistent, hmax, h.env, bind, Except.bind]
  simp only [ConfiguredLedger.setArchivalSettings, hinstall] at hrun
  simp only [Ledger.configure, Ledger.call]
  cases hset : ledger.env.setArchivalSettings minTemporaryTtl minPersistentTtl maxEntryTtl with
  | error e =>
    rw [hset] at hrun
    cases hrun
  | ok env =>
    rw [hset] at hrun
    cases hrun
    exact ⟨_, rfl, rfl, h.fees⟩

/-- A call that returns does what the setter does. -/
theorem step_represents (hexact : fv.Exact) (h : Represents configured ledger)
    {call : SettingsCall} {setting : LedgerSetting} (hcalls : call.Calls setting)
    (hrun : call.perform fv configured = .ok () configured') :
    ∃ ledger', Ledger.configure setting ledger = .ok () ledger' ∧
      Represents configured' ledger' := by
  cases hcalls with
  | feeSettings hget hspread hfields =>
    exact ⟨_, rfl, h.setFeeSettings hexact hget hspread hfields hrun⟩
  | costParams hcpu hmem hcpuLimit hmemLimit =>
    exact ⟨_, rfl, h.setCostParams hexact hcpu hmem hcpuLimit hmemLimit hrun⟩
  | archivalSettings htemp hpersistent hmax =>
    exact h.setArchivalSettings htemp hpersistent hmax hrun

end Represents

/-! ## Sample runs -/

/-- The numbers of `serde_wasm_bindgen`: a safe integer, or a bigint that fits. -/
def FromValue.safe : FromValue where
  i64 v := match v with
    | .integer n => if n.natAbs < 2 ^ 53 then some n else none
    | .bigint n => if -2 ^ 63 ≤ n ∧ n < 2 ^ 63 then some n else none
    | _ => none
  u32 v := match v with
    | .integer n => if 0 ≤ n ∧ n < 2 ^ 32 then some n.toNat else none
    | _ => none

theorem FromValue.safe_exact : FromValue.safe.Exact where
  i64 := by
    intro v n h
    cases v <;> simp only [FromValue.safe, Option.ite_none_right_eq_some, Option.some.injEq,
      reduceCtorEq] at h
    · exact .inl (congrArg JsValue.integer h.2)
    · exact .inr (congrArg JsValue.bigint h.2)
  u32 := by
    intro v n h
    cases v <;> simp only [FromValue.safe, Option.ite_none_right_eq_some, Option.some.injEq,
      reduceCtorEq] at h
    · exact .inl (congrArg JsValue.integer (by omega))

/-- Settings as an object. -/
def NetworkFeeSettings.toJs (s : NetworkFeeSettings) : JsObject :=
  .plain fun field => .integer (s.value field)

theorem plain_fits (fv : FromValue) (fields : FeeField → JsValue) :
    (SettingsCall.feeSettings (some (.plain fields))).Fits fv := by
  intro o ho _
  cases ho
  exact ⟨fields, rfl, fun _ _ => rfl⟩

/-- A new ledger. -/
def configuredLedger : ConfiguredLedger where
  env := { SorobanEnv.new 29 1000 with
    feeSettings := some (sampleSettings 1000).toNetworkFeeSettings }
  fees := (sampleSettings 1000).toJs.get

theorem configuredLedger_construct :
    ConfiguredLedger.construct .safe 29 1000 (List.replicate 32 0) (sampleSettings 1000).toJs =
      .ok configuredLedger := rfl

/-- Two tables, and then settings that are no object. -/
def settingCalls : List SettingsCall :=
  [.costParams ⟨4, some ⟨[1]⟩⟩ ⟨4, some ⟨[2]⟩⟩ none none, .feeSettings none]

theorem configuration_settled_sample :
    (settingsMachine .safe).AllSteps
      (fun ledger call => ∀ e, (settingsMachine .safe).out ledger call = .error e →
        (settingsMachine .safe).next ledger call = ledger) configuredLedger settingCalls ∧
    FeesAgree ((settingsMachine .safe).run configuredLedger settingCalls) ∧
    TablesOf settingCalls ((settingsMachine .safe).run configuredLedger settingCalls) :=
  configuration_settled FromValue.safe_exact (plain_fits .safe _) configuredLedger_construct
    (by simp [settingCalls, SettingsCall.Fits])

/-- A memory table that does not decode: the call throws, and the CPU table
stays. -/
theorem setCostParams_halfway :
    let call : SettingsCall := .costParams ⟨4, some ⟨[1]⟩⟩ ⟨4, none⟩ none none
    let after := (settingsMachine .safe).next configuredLedger call
    (settingsMachine .safe).out configuredLedger call = .error ⟨"xdr"⟩ ∧
      after.env.cpuCostParams = some ⟨[1]⟩ ∧ after.env.memCostParams = none ∧
      after ≠ configuredLedger ∧ ¬ TablesOf [call] after := by
  intro call after
  have hcpu : after.env.cpuCostParams = some ⟨[1]⟩ := rfl
  have hmem : after.env.memCostParams = none := rfl
  refine ⟨rfl, hcpu, hmem, ?_, ?_⟩
  · intro hsame
    rw [hsame] at hcpu
    cases hcpu
  · intro htables
    rcases htables with ⟨hnone, -⟩ | ⟨other, -, _, _, _, _, _, mem, -, -, -, -, hsome⟩
    · rw [hcpu] at hnone
      cases hnone
    · rw [hmem] at hsome
      cases hsome

end LiteSoroban

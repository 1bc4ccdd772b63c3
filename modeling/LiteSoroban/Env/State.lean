import LiteSoroban.Env.Deps

/-!
# The environment

`SorobanEnv` of `crates/host-wasm/src/lib.rs`: its fields, the accessors and
setters, the direct writes to the store, and snapshots.  `send` and
`simulate` have modules of their own.

A method that cannot fail is a function to the next environment.  A method
that can fail before it writes anything returns an `Except`.

The second half is about the store.  `Store.Keyed` says that every entry sits
under the key `key_of` derives from it, which is how every reader of an
account finds it again, and the lemmas below say which writes keep it.
-/

namespace LiteSoroban

/-! ## Words -/

/-- The largest `u32`. -/
def u32Max : Nat := 2 ^ 32 - 1

/-- `u32::saturating_add`. -/
def saturatingAdd32 (a b : Nat) : Nat := min (a + b) u32Max

/-- `u64::saturating_add`. -/
def saturatingAdd64 (a b : Nat) : Nat := min (a + b) (2 ^ 64 - 1)

/-- `i64::saturating_add`. -/
def saturatingAddI64 (a b : Int) : Int := max (-2 ^ 63) (min (a + b) (2 ^ 63 - 1))

/-- `u32::try_from(len).unwrap_or(u32::MAX)`. -/
def clamp32 (len : Nat) : Nat := min len u32Max

/-- A saturating counter is the sum it has counted, clamped. -/
theorem saturatingAdd32_clamp32 (a b : Nat) :
    saturatingAdd32 (clamp32 a) (clamp32 b) = clamp32 (a + b) := by
  unfold saturatingAdd32 clamp32
  omega

theorem clamp32_mono {a b : Nat} (h : a ≤ b) : clamp32 a ≤ clamp32 b := by
  unfold clamp32
  omega

/-- A sum that fits a word is not cut off. -/
theorem saturatingAdd32_of_lt {a b : Nat} (h : a + b < 2 ^ 32) : saturatingAdd32 a b = a + b := by
  unfold saturatingAdd32 u32Max
  omega

theorem saturatingAdd32_clamp32_of_lt {a b : Nat} (h : a + b < 2 ^ 32) :
    saturatingAdd32 a (clamp32 b) = a + b := by
  unfold saturatingAdd32 clamp32 u32Max
  omega

theorem le_saturatingAddI64 {a b : Int} (hb : 0 ≤ b) (ha : a ≤ 2 ^ 63 - 1) :
    a ≤ saturatingAddI64 a b := by
  simp only [saturatingAddI64]
  omega

/-! ## Keys -/

/-- `key_of`: the key an entry is stored under. -/
def keyOf (e : LedgerEntry) : Except JsError LedgerKey :=
  match e.data with
  | .account a => .ok (.account a.accountId)
  | .trustline t => .ok (.trustline t.accountId t.asset)
  | .contractData d => .ok (.contractData d.contract d.key d.durability)
  | .contractCode c => .ok (.contractCode c.hash)
  | .unsupported _ _ => .error ⟨"unsupported ledger entry type for key derivation"⟩

/-- `is_temporary`. -/
def isTemporary : LedgerKey → Bool
  | .contractData _ _ .temporary => true
  | _ => false

/-- `needs_ttl`: only contract data and contract code carry a TTL. -/
def needsTtl : LedgerKey → Bool
  | .contractData _ _ _ => true
  | .contractCode _ => true
  | _ => false

/-! ## The environment -/

/-- `fees::NetworkFeeSettings`, the settings as the Rust crate parses them. -/
structure Fees.NetworkFeeSettings where
  feeRatePerInstructionsIncrement : Int
  txMaxInstructions : Int
  txMemoryLimit : Nat
  feeDiskReadLedgerEntry : Int
  feeWriteLedgerEntry : Int
  feeDiskRead1kb : Int
  sorobanStateTargetSizeBytes : Int
  rentFee1kbSorobanStateSizeLow : Int
  rentFee1kbSorobanStateSizeHigh : Int
  sorobanStateRentFeeGrowthFactor : Nat
  feeWrite1kb : Int
  feeHistorical1kb : Int
  txMaxContractEventsSizeBytes : Nat
  feeContractEvents1kb : Int
  feeTxSize1kb : Int
  maxContractSizeBytes : Nat
  maxContractDataEntrySizeBytes : Nat
  persistentRentRateDenominator : Int
  tempRentRateDenominator : Int
  averageSorobanStateSize : Int
  deriving DecidableEq

structure LedgerSnapshot where
  store : Store
  ledgerSeq : Nat
  timestamp : Nat
  prngCounter : Nat
  deriving DecidableEq

structure SorobanEnv where
  store : Store
  snapshots : List LedgerSnapshot
  ledgerSeq : Nat
  timestamp : Nat
  protocolVersion : Nat
  networkId : Bytes
  prngCounter : Nat
  cpuCostParams : Option ContractCostParams
  memCostParams : Option ContractCostParams
  minTempEntryTtl : Nat
  minPersistentEntryTtl : Nat
  maxEntryTtl : Nat
  enforceDeclaredResources : Bool
  enforceDeclaredBytes : Bool
  moduleCache : Option ModuleCache
  feeSettings : Option Fees.NetworkFeeSettings

namespace SorobanEnv

/-- `SorobanEnv::new`, with testnet's state-archival TTLs. -/
def new (protocolVersion ledgerSeq : Nat) : SorobanEnv where
  store := ∅
  snapshots := []
  ledgerSeq := ledgerSeq
  timestamp := 1700000000
  protocolVersion := protocolVersion
  networkId := List.replicate 32 0
  prngCounter := 0
  cpuCostParams := none
  memCostParams := none
  minTempEntryTtl := 720
  minPersistentEntryTtl := 120960
  maxEntryTtl := 3110400
  enforceDeclaredResources := true
  enforceDeclaredBytes := true
  moduleCache := none
  feeSettings := none

/-- The environment with another store. -/
def withStore (env : SorobanEnv) (store : Store) : SorobanEnv :=
  { env with store := store }

/-- `ledger_info`. -/
def ledgerInfo (env : SorobanEnv) : LedgerInfo where
  protocolVersion := env.protocolVersion
  sequenceNumber := env.ledgerSeq
  timestamp := env.timestamp
  networkId := env.networkId
  baseReserve := 5000000
  minTempEntryTtl := env.minTempEntryTtl
  minPersistentEntryTtl := env.minPersistentEntryTtl
  maxEntryTtl := env.maxEntryTtl

/-- `advance_ledgers`. -/
def advanceLedgers (env : SorobanEnv) (n : Nat) : SorobanEnv :=
  { env with
    ledgerSeq := saturatingAdd32 env.ledgerSeq n
    timestamp := saturatingAdd64 env.timestamp (n * 5) }

/-- `set_timestamp`. -/
def setTimestamp (env : SorobanEnv) (t : Nat) : SorobanEnv :=
  { env with timestamp := t }

/-- `reset_prng`. -/
def resetPrng (env : SorobanEnv) : SorobanEnv :=
  { env with prngCounter := 0 }

/-- `set_cost_params`. -/
def setCostParams (env : SorobanEnv) (cpuParams memParams : ContractCostParams) : SorobanEnv :=
  { env with cpuCostParams := some cpuParams, memCostParams := some memParams }

/-- `set_archival_settings`.  None of the three may be 0. -/
def setArchivalSettings (env : SorobanEnv)
    (minTempEntryTtl minPersistentEntryTtl maxEntryTtl : Nat) : Except JsError SorobanEnv :=
  if minTempEntryTtl = 0 ∨ minPersistentEntryTtl = 0 ∨ maxEntryTtl = 0 then
    .error ⟨"state-archival TTLs must be at least 1"⟩
  else .ok { env with
    minTempEntryTtl := minTempEntryTtl
    minPersistentEntryTtl := minPersistentEntryTtl
    maxEntryTtl := maxEntryTtl }

/-- `set_network_id`. -/
def setNetworkId (env : SorobanEnv) (id : Bytes) : Except JsError SorobanEnv :=
  if id.length ≠ 32 then .error ⟨"network id must be 32 bytes"⟩
  else .ok { env with networkId := id }

/-- `set_fee_settings`, once the settings are parsed. -/
def setFeeSettings (env : SorobanEnv) (settings : Fees.NetworkFeeSettings) : SorobanEnv :=
  { env with feeSettings := some settings }

/-- `put_entry`: the entry goes in under the key it derives. -/
def putEntry (env : SorobanEnv) (entry : LedgerEntry) (liveUntil : Option Nat) :
    Except JsError SorobanEnv := do
  let key ← keyOf entry
  return { env with store := env.store.insert key ⟨entry, liveUntil⟩ }

/-- `remove_entry`. -/
def removeEntry (env : SorobanEnv) (key : LedgerKey) : Bool × SorobanEnv :=
  ((env.store.lookup key).isSome, { env with store := env.store.erase key })

/-- `fund_account`: the account of a seed byte repeated. -/
def fundAccount (d : Deps) (env : SorobanEnv) (seed : UInt8) :
    Except JsError (AccountId × SorobanEnv) := do
  let entry := d.accountEntry (d.getAccountId seed)
  let key ← keyOf entry
  return (d.getAccountId seed, { env with store := env.store.insert key ⟨entry, none⟩ })

/-- `seed_wasm`: the code gets the TTL an upload at this ledger would give it. -/
def seedWasm (d : Deps) (env : SorobanEnv) (code : Bytes) : Except JsError (Hash × SorobanEnv) :=
  match env.ledgerInfo.minLiveUntilLedgerChecked with
  | none => .error ⟨"persistent TTL overflows the ledger sequence"⟩
  | some ttl =>
    let key := .contractCode (d.getWasmHash code)
    .ok (d.getWasmHash code,
      { env with store := env.store.insert key ⟨d.wasmEntry code, some ttl⟩ })

/-- `get_entry`. -/
def getEntry (env : SorobanEnv) (key : LedgerKey) : Option LedgerEntry :=
  (env.store.lookup key).map (·.entry)

/-- `get_entry_ttl`. -/
def getEntryTtl (env : SorobanEnv) (key : LedgerKey) : Option Nat :=
  (env.store.lookup key).bind (·.liveUntil)

/-- `snapshot`: the id is the snapshot's place in the list.  It fits the `u32`
as long as the `Vec` fits the memory of a 32-bit target. -/
def snapshot (env : SorobanEnv) : Nat × SorobanEnv :=
  let snap : LedgerSnapshot :=
    { store := env.store
      ledgerSeq := env.ledgerSeq
      timestamp := env.timestamp
      prngCounter := env.prngCounter }
  (env.snapshots.length, { env with snapshots := env.snapshots ++ [snap] })

/-- The environment with a snapshot's four fields put back. -/
def restoreFrom (env : SorobanEnv) (snap : LedgerSnapshot) : SorobanEnv :=
  { env with
    store := snap.store
    ledgerSeq := snap.ledgerSeq
    timestamp := snap.timestamp
    prngCounter := snap.prngCounter }

/-- `restore`.  The snapshots stay, and so does the module cache. -/
def restore (env : SorobanEnv) (id : Nat) : Except JsError SorobanEnv :=
  match env.snapshots[id]? with
  | none => .error ⟨"no such snapshot"⟩
  | some snap => .ok (env.restoreFrom snap)

end SorobanEnv

/-! ## Stores keyed by their entries -/

/-- Every entry of the store sits under the key `keyOf` derives from it. -/
def Store.Keyed (store : Store) : Prop :=
  ∀ k e, store.lookup k = some e → keyOf e.entry = .ok k

theorem Store.Keyed.empty : Store.Keyed ∅ := by
  intro k e h
  rw [Finmap.lookup_empty] at h
  cases h

/-- What holds of a written entry and of every stored one holds afterwards. -/
theorem Store.forall_insert {P : LedgerKey → EntryWithLiveUntil → Prop} {store : Store}
    (h : ∀ k e, store.lookup k = some e → P k e) {key : LedgerKey} {e : EntryWithLiveUntil}
    (he : P key e) : ∀ k e', Finmap.lookup k (store.insert key e) = some e' → P k e' := by
  intro k e' he'
  by_cases hk : k = key
  · subst hk
    rw [Finmap.lookup_insert] at he'
    cases he'
    exact he
  · rw [Finmap.lookup_insert_of_ne _ hk] at he'
    exact h k e' he'

theorem Store.forall_erase {P : LedgerKey → EntryWithLiveUntil → Prop} {store : Store}
    (h : ∀ k e, store.lookup k = some e → P k e) (key : LedgerKey) :
    ∀ k e, Finmap.lookup k (store.erase key) = some e → P k e := by
  intro k e he
  by_cases hk : k = key
  · subst hk
    rw [Finmap.lookup_erase] at he
    cases he
  · rw [Finmap.lookup_erase_ne hk] at he
    exact h k e he

/-- Writing an entry under its own key keeps the store keyed. -/
theorem Store.Keyed.insert {store : Store} (h : store.Keyed) {key : LedgerKey}
    {e : EntryWithLiveUntil} (hkey : keyOf e.entry = .ok key) :
    Store.Keyed (store.insert key e) :=
  Store.forall_insert (P := fun key e => keyOf e.entry = .ok key) h hkey

theorem Store.Keyed.erase {store : Store} (h : store.Keyed) (key : LedgerKey) :
    Store.Keyed (store.erase key) :=
  Store.forall_erase h key

/-- In a keyed store, an account key holds that account. -/
theorem Store.Keyed.account {store : Store} (h : store.Keyed) {id : AccountId}
    {e : EntryWithLiveUntil} (he : store.lookup (.account id) = some e) :
    ∃ a, e.entry.data = .account a ∧ a.accountId = id := by
  have hk := h _ _ he
  simp only [keyOf] at hk
  cases hd : e.entry.data with
  | account a =>
    rw [hd] at hk
    exact ⟨a, rfl, by simpa using hk⟩
  | trustline t => rw [hd] at hk; cases hk
  | contractData c => rw [hd] at hk; cases hk
  | contractCode c => rw [hd] at hk; cases hk
  | unsupported t x => rw [hd] at hk; cases hk

end LiteSoroban

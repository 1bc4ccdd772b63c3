import LiteSoroban.Classic.Preconditions

/-!
# The network's resource limits

`sorobanResourcesProblem` of `src/classic.ts`: the declared resources, the
footprint, the envelope's size and the archived indexes against the network's
per-transaction limits.  And `footprintOpMalformed`, the shape rules of the
two footprint operations.
-/

namespace LiteSoroban

/-- `isAsciiAlphaNumeric`. -/
def isAsciiAlphaNumeric (b : UInt8) : Bool :=
  (0x61 ≤ b && b ≤ 0x7a) || (0x41 ≤ b && b ≤ 0x5a) || (0x30 ≤ b && b ≤ 0x39)

/-- The loop of `trustLineAssetValid`: how many characters the code has, if it
is letters and digits with zeros at the end only. -/
def assetCodeChars : Bytes → Bool → Nat → Option Nat
  | [], _, chars => some chars
  | b :: rest, zeros, chars =>
    if b = 0 then assetCodeChars rest true chars
    else if zeros || b > 0x7f || !isAsciiAlphaNumeric b then none
    else assetCodeChars rest zeros (chars + 1)

/-- `trustLineAssetValid`. -/
def trustLineAssetValid : TrustLineAsset → Bool
  | .assetTypeNative => true
  | .assetTypePoolShare _ => true
  | .assetTypeCreditAlphanum4 code _ => (assetCodeChars code false 0).any (0 < ·)
  | .assetTypeCreditAlphanum12 code _ => (assetCodeChars code false 0).any (4 < ·)

/-- `isIssuerOf`. -/
def isIssuerOf (account : AccountId) : TrustLineAsset → Bool
  | .assetTypeCreditAlphanum4 _ issuer => issuer == account
  | .assetTypeCreditAlphanum12 _ issuer => issuer == account
  | _ => false

/-- One of the limits: the diagnostic when the value is above it. -/
def overLimit (what : String) (value limit : Int) : Option String :=
  if value > limit then some s!"{what}: {value} > {limit}" else none

/-- The checks on one footprint key. -/
def footprintKeyProblem (d : Deps) (limits : NetworkFeeSettings) (key : LedgerKey) :
    Option String :=
  let size := overLimit "transaction footprint key exceeds network config limit" (d.keySize key)
    limits.maxContractDataKeySizeBytes
  match key with
  | .account _ => size
  | .contractData _ _ _ => size
  | .contractCode _ => size
  | .trustline accountId asset =>
    if !trustLineAssetValid asset || asset == .assetTypeNative || isIssuerOf accountId asset then
      some "transaction footprint contains invalid trustline asset"
    else size
  | .unsupported _ _ =>
    let type := key.typeValue
    some s!"transaction footprint contains unsupported ledger key type: {type}"

/-- The loop over the archived indexes: strictly ascending, in bounds, and
each of a persistent entry. -/
def archivedIndexProblem (readWrite : List LedgerKey) : Option Nat → List Nat → Option String
  | _, [] => none
  | last, index :: rest =>
    if last.any (index ≤ ·) then
      some "archivedSorobanEntries must be sorted in ascending order"
    else match readWrite[index]? with
      | none =>
        let length := readWrite.length
        some s!"archivedSorobanEntries index is out of bounds: {index} >= {length}"
      | some key =>
        if !isPersistent key then
          let type := key.typeValue
          some s!"archivedSorobanEntries index points to a non-persistent entry: {index}, key type {type}"
        else archivedIndexProblem readWrite (some index) rest

/-- `sorobanResourcesProblem`. -/
def sorobanResourcesProblem (d : Deps) (limits : NetworkFeeSettings)
    (data : SorobanTransactionData) (txSize : Nat) (isRestore : Bool) : Option String :=
  let r := data.resources
  let fp := r.footprint
  (overLimit "transaction instructions resources exceed network config limit"
    r.instructions limits.txMaxInstructions).orElse fun _ =>
  (overLimit "transaction byte-read resources exceed network config limit"
    r.diskReadBytes limits.txMaxDiskReadBytes).orElse fun _ =>
  (overLimit "transaction byte-write resources exceed network config limit"
    r.writeBytes limits.txMaxWriteBytes).orElse fun _ =>
  (overLimit "the number of entries in transaction footprint exceeds the network config limit"
    fp.keys.length limits.txMaxFootprintEntries).orElse fun _ =>
  (overLimit "transaction entry-disk-read resources exceed network config limit"
    (numDiskReadEntries data isRestore) limits.txMaxDiskReadEntries).orElse fun _ =>
  (overLimit "transaction entry-write resources exceed network config limit"
    fp.readWrite.length limits.txMaxWriteLedgerEntries).orElse fun _ =>
  (fp.keys.findSome? (footprintKeyProblem d limits)).orElse fun _ =>
  (overLimit "total transaction size exceeds network config limit"
    txSize limits.txMaxSizeBytes).orElse fun _ =>
  archivedIndexProblem fp.readWrite none data.archivedSorobanEntries

/-- `contractEntryTooLarge`, the same rule as `validate_contract_ledger_entry`
over the TypeScript copy of the limits. -/
def contractEntryTooLarge (limits : NetworkFeeSettings) (key : LedgerKey) (entrySize : Nat) :
    Option String :=
  limits.toNetworkFeeSettings.validateContractLedgerEntry key entrySize

/-! ## The shape of a footprint operation -/

/-- `footprintOpMalformed`: the malformed result and core's diagnostic. -/
def footprintOpMalformed (ledger : Ledger) (op : Operation)
    (sorobanData : SorobanTransactionData) : Option (FootprintOpResult × String) :=
  let fp := sorobanData.resources.footprint
  match op.body with
  | .extendFootprintTtl extendTo =>
    let max := (ledger.env.maxEntryTtl : Int) - 1
    if fp.readWrite.length > 0 then
      some (.extendFootprintTtlMalformed,
        "read-write footprint must be empty for ExtendFootprintTTL operation")
    else if !fp.readOnly.all needsTtl then
      some (.extendFootprintTtlMalformed,
        "only entries with TTL (contract data or code entries) can have it extended")
    else if extendTo > max then
      some (.extendFootprintTtlMalformed, s!"TTL extension is too large: {extendTo} > {max}")
    else none
  | .restoreFootprint =>
    if fp.readOnly.length > 0 then
      some (.restoreFootprintMalformed,
        "read-only footprint must be empty for RestoreFootprint operation")
    else if !fp.readWrite.all isPersistent then
      some (.restoreFootprintMalformed, "only persistent Soroban entries can be restored")
    else none
  | _ => none

end LiteSoroban

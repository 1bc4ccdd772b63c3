/-!
# The XDR values the ledger is made of

The TypeScript layer and the Rust crate pass each other base64 XDR.  Both
decode it before they look inside, so the model passes the decoded values.
This module holds those values, under the names of the XDR unions and with
the fields that some function of the repository reads or writes.

Three kinds of value stay opaque, as the bytes of their encoding: `ScVal`,
`ScAddress` and `HostFunction`.  The code hands them on and compares them for
equality, and never looks inside.

`u32` and `u64` fields are `Nat` and `i64` fields are `Int`.  Where a
function of the source adds, wraps or clamps at a width, its definition says
so.
-/

namespace LiteSoroban

/-- A byte string, opaque or not. -/
abbrev Bytes := List UInt8

/-- A 32-byte hash: of contract code, of a transaction, or a network id. -/
abbrev Hash := Bytes

/-! ## Accounts and their signers -/

/-- `AccountId`, a public key of the one type there is. -/
structure AccountId where
  ed25519 : Bytes
  deriving DecidableEq

/-- `MuxedAccount`: a key, or a key with a multiplexing id. -/
inductive MuxedAccount where
  | keyTypeEd25519 (ed25519 : Bytes)
  | keyTypeMuxedEd25519 (id : Nat) (ed25519 : Bytes)
  deriving DecidableEq

/-- `SignerKey`: the four things a signer of an account can be. -/
inductive SignerKey where
  | signerKeyTypeEd25519 (ed25519 : Bytes)
  | signerKeyTypePreAuthTx (preAuthTx : Hash)
  | signerKeyTypeHashX (hashX : Hash)
  | signerKeyTypeEd25519SignedPayload (ed25519 payload : Bytes)
  deriving DecidableEq

structure Signer where
  key : SignerKey
  weight : Nat
  deriving DecidableEq

/-- The four threshold bytes of an account. -/
structure Thresholds where
  master : UInt8
  low : UInt8
  medium : UInt8
  high : UInt8
  deriving DecidableEq

structure Liabilities where
  buying : Int
  selling : Int
  deriving DecidableEq

structure AccountEntryExtensionV3 where
  seqLedger : Nat
  seqTime : Nat
  deriving DecidableEq

inductive AccountEntryExtensionV2Ext where
  | v0
  | v3 (v3 : AccountEntryExtensionV3)
  deriving DecidableEq

structure AccountEntryExtensionV2 where
  numSponsored : Nat
  numSponsoring : Nat
  signerSponsoringIDs : List (Option AccountId)
  ext : AccountEntryExtensionV2Ext
  deriving DecidableEq

inductive AccountEntryExtensionV1Ext where
  | v0
  | v2 (v2 : AccountEntryExtensionV2)
  deriving DecidableEq

structure AccountEntryExtensionV1 where
  liabilities : Liabilities
  ext : AccountEntryExtensionV1Ext
  deriving DecidableEq

inductive AccountEntryExt where
  | v0
  | v1 (v1 : AccountEntryExtensionV1)
  deriving DecidableEq

/-- `AccountEntry`, with the whole v1 → v2 → v3 extension chain. -/
structure AccountEntry where
  accountId : AccountId
  balance : Int
  seqNum : Int
  numSubEntries : Nat
  inflationDest : Option AccountId
  flags : Nat
  homeDomain : Bytes
  thresholds : Thresholds
  signers : List Signer
  ext : AccountEntryExt
  deriving DecidableEq

/-! ## Ledger entries and their keys -/

structure ScAddress where
  xdr : Bytes
  deriving DecidableEq

structure ScVal where
  xdr : Bytes
  deriving DecidableEq

inductive ContractDataDurability where
  | temporary
  | persistent
  deriving DecidableEq

inductive TrustLineAsset where
  | assetTypeNative
  | assetTypeCreditAlphanum4 (assetCode : Bytes) (issuer : AccountId)
  | assetTypeCreditAlphanum12 (assetCode : Bytes) (issuer : AccountId)
  | assetTypePoolShare (liquidityPoolId : Hash)
  deriving DecidableEq

/-- The entry types the harness stores nothing of and derives no key for. -/
inductive UnsupportedEntryType where
  | offer
  | data
  | claimableBalance
  | liquidityPool
  | configSetting
  | ttl
  deriving DecidableEq

/-- `LedgerKey`. -/
inductive LedgerKey where
  | account (accountId : AccountId)
  | trustline (accountId : AccountId) (asset : TrustLineAsset)
  | contractData (contract : ScAddress) (key : ScVal) (durability : ContractDataDurability)
  | contractCode (hash : Hash)
  | unsupported (type : UnsupportedEntryType) (xdr : Bytes)
  deriving DecidableEq

/-- `xdr.LedgerEntryType[key.type].value`. -/
def LedgerKey.typeValue : LedgerKey → Nat
  | .account _ => 0
  | .trustline _ _ => 1
  | .contractData _ _ _ => 6
  | .contractCode _ => 7
  | .unsupported .offer _ => 2
  | .unsupported .data _ => 3
  | .unsupported .claimableBalance _ => 4
  | .unsupported .liquidityPool _ => 5
  | .unsupported .configSetting _ => 8
  | .unsupported .ttl _ => 9

structure TrustLineEntry where
  accountId : AccountId
  asset : TrustLineAsset
  balance : Int
  limit : Int
  flags : Nat
  ext : Bytes
  deriving DecidableEq

structure ContractDataEntry where
  contract : ScAddress
  key : ScVal
  durability : ContractDataDurability
  val : ScVal
  deriving DecidableEq

structure ContractCodeEntry where
  hash : Hash
  code : Bytes
  ext : Bytes
  deriving DecidableEq

inductive LedgerEntryData where
  | account (account : AccountEntry)
  | trustline (trustLine : TrustLineEntry)
  | contractData (contractData : ContractDataEntry)
  | contractCode (contractCode : ContractCodeEntry)
  | unsupported (type : UnsupportedEntryType) (xdr : Bytes)
  deriving DecidableEq

/-- `LedgerEntryExt`: v1 names the account that sponsors the entry. -/
inductive LedgerEntryExt where
  | v0
  | v1 (sponsoringId : Option AccountId)
  deriving DecidableEq

structure LedgerEntry where
  lastModifiedLedgerSeq : Nat
  data : LedgerEntryData
  ext : LedgerEntryExt
  deriving DecidableEq

/-! ## Transactions -/

structure HostFunction where
  xdr : Bytes
  deriving DecidableEq

structure SorobanAuthorizationEntry where
  xdr : Bytes
  deriving DecidableEq

inductive OperationBody where
  | invokeHostFunction (hostFunction : HostFunction) (auth : List SorobanAuthorizationEntry)
  | extendFootprintTtl (extendTo : Nat)
  | restoreFootprint
  /-- Any operation that is not a Soroban one. -/
  | classic (xdr : Bytes)
  deriving DecidableEq

structure Operation where
  sourceAccount : Option MuxedAccount
  body : OperationBody
  deriving DecidableEq

structure LedgerFootprint where
  readOnly : List LedgerKey
  readWrite : List LedgerKey
  deriving DecidableEq

/-- The footprint's keys in the order the host zips them with the entries. -/
def LedgerFootprint.keys (footprint : LedgerFootprint) : List LedgerKey :=
  footprint.readOnly ++ footprint.readWrite

structure SorobanResources where
  footprint : LedgerFootprint
  instructions : Nat
  diskReadBytes : Nat
  writeBytes : Nat
  deriving DecidableEq

inductive SorobanTransactionDataExt where
  | v0
  | resourceExt (archivedSorobanEntries : List Nat)
  deriving DecidableEq

structure SorobanTransactionData where
  ext : SorobanTransactionDataExt
  resources : SorobanResources
  resourceFee : Int
  deriving DecidableEq

/-- The read-write indexes the data marks for restoring. -/
def SorobanTransactionData.archivedSorobanEntries (data : SorobanTransactionData) : List Nat :=
  match data.ext with
  | .v0 => []
  | .resourceExt archived => archived

structure TimeBounds where
  minTime : Nat
  maxTime : Nat
  deriving DecidableEq

structure LedgerBounds where
  minLedger : Nat
  maxLedger : Nat
  deriving DecidableEq

structure PreconditionsV2 where
  timeBounds : Option TimeBounds
  ledgerBounds : Option LedgerBounds
  minSeqNum : Option Int
  minSeqAge : Nat
  minSeqLedgerGap : Nat
  extraSigners : List SignerKey
  deriving DecidableEq

inductive Preconditions where
  | precondNone
  | precondTime (timeBounds : TimeBounds)
  | precondV2 (v2 : PreconditionsV2)
  deriving DecidableEq

inductive Memo where
  | memoNone
  /-- Any of the four memos that carry a value. -/
  | memoValue (xdr : Bytes)
  deriving DecidableEq

inductive TransactionExt where
  | v0
  | sorobanData (sorobanData : SorobanTransactionData)
  deriving DecidableEq

structure Transaction where
  sourceAccount : MuxedAccount
  fee : Nat
  seqNum : Int
  cond : Preconditions
  memo : Memo
  operations : List Operation
  ext : TransactionExt
  deriving DecidableEq

structure DecoratedSignature where
  hint : Bytes
  signature : Bytes
  deriving DecidableEq

structure TransactionV1Envelope where
  tx : Transaction
  signatures : List DecoratedSignature
  deriving DecidableEq

structure FeeBumpTransaction where
  feeSource : MuxedAccount
  fee : Int
  innerTx : TransactionV1Envelope
  deriving DecidableEq

structure FeeBumpTransactionEnvelope where
  tx : FeeBumpTransaction
  signatures : List DecoratedSignature
  deriving DecidableEq

inductive TransactionEnvelope where
  /-- The envelope of protocols before 13. -/
  | envelopeTypeTxV0 (xdr : Bytes)
  | envelopeTypeTx (v1 : TransactionV1Envelope)
  | envelopeTypeTxFeeBump (feeBump : FeeBumpTransactionEnvelope)
  deriving DecidableEq

/-- The transaction an envelope applies: its own, or the one a fee bump wraps. -/
def TransactionEnvelope.innerTx? : TransactionEnvelope → Option Transaction
  | .envelopeTypeTxV0 _ => none
  | .envelopeTypeTx v1 => some v1.tx
  | .envelopeTypeTxFeeBump feeBump => some feeBump.tx.innerTx.tx

/-! ## Encoded values -/

/-- XDR bytes as the code looks at them: how many there are, and the value
they decode to, if they decode. -/
structure Encoded (α : Type) where
  len : Nat
  decoded : Option α
  deriving DecidableEq

end LiteSoroban

import LiteSoroban.Ledger.Machine

/-!
# Fixtures

`src/fixtures.ts`: wallets, trustlines and tokens, written straight into a
ledger or applied to it through the host.

A trustline is two writes, the entry and then the counter of its account, and
a token's `mint` and `transfer` make both before they call the host.  None of
this is undone when what follows throws.

`Sdk` adds to `Deps` what this file and `src/litestellar.ts` call of the
Stellar SDK.
-/

namespace LiteSoroban

/-! ## Assets -/

/-- `Asset`: the native one, or a code and its issuer. -/
inductive Asset where
  | native
  | credit (code : Bytes) (issuer : AccountId)
  deriving DecidableEq

/-- `Buffer.concat([code, Buffer.alloc(n)], n)`. -/
def padCode (n : Nat) (code : Bytes) : Bytes := (code ++ List.replicate n 0).take n

/-- The asset of a trustline, by the length of its code. -/
def trustLineAsset (code : Bytes) (issuer : AccountId) : TrustLineAsset :=
  if code.length ≤ 4 then .assetTypeCreditAlphanum4 (padCode 4 code) issuer
  else .assetTypeCreditAlphanum12 (padCode 12 code) issuer

/-- `asset.isNative()` of a trustline's asset, and its issuer. -/
def TrustLineAsset.issuer? : TrustLineAsset → Option AccountId
  | .assetTypeCreditAlphanum4 _ issuer => some issuer
  | .assetTypeCreditAlphanum12 _ issuer => some issuer
  | .assetTypeNative => none
  | .assetTypePoolShare _ => none

theorem trustLineAsset_issuer (code : Bytes) (issuer : AccountId) :
    (trustLineAsset code issuer).issuer? = some issuer := by
  unfold trustLineAsset
  split <;> rfl

/-! ## The SDK -/

/-- The SDK's functions beside those of `Deps`.  A builder that encodes is
fallible: the encoder refuses a value outside the range of its field. -/
structure Sdk extends Deps where
  /-- The public keys `Keypair.random` hands out, in order. -/
  randomKeypair : Nat → AccountId
  /-- Whether the encoder takes the trustline entry. -/
  encodeTrustLine : TrustLineEntry → Except JsError Unit
  /-- `xdr.ScAddress.scAddressTypeAccount`. -/
  scAddressTypeAccount : AccountId → ScAddress
  /-- `xdr.ScVal.scvAddress`. -/
  scvAddress : ScAddress → ScVal
  /-- The address in an `scvAddress`. -/
  scvAddress? : ScVal → Option ScAddress
  /-- `nativeToScVal(n, { type: 'i128' })`. -/
  i128 : Int → Except JsError ScVal
  /-- Whether `scValToNative` takes the value. -/
  scValToNative : ScVal → Except JsError Unit
  /-- `invokeHostFn`, encoded. -/
  invokeHostFn : ScAddress → String → List ScVal → Except JsError HostFunction
  /-- `createContractHostFn`, encoded: deployer, code, salt, arguments. -/
  createContractHostFn : AccountId → Hash → Bytes → List ScVal → Except JsError HostFunction
  /-- `buildAuthorizationEntryPreimage`, hashed: what is signed for an entry
  that is valid until a ledger.  An entry of the source account is not
  signed. -/
  authPayload : SorobanAuthorizationEntry → Nat → String → Except JsError (Option Bytes)
  /-- The entry with its expiration and its signature. -/
  signedEntry : SorobanAuthorizationEntry → Nat → ScVal → Except JsError SorobanAuthorizationEntry

/-- The SDK around the idle host: it hands out one key after the other, encodes
what it is given, and builds every call alike. -/
def Sdk.idle : Sdk where
  toDeps := .idle
  randomKeypair n := ⟨List.replicate 32 (UInt8.ofNat n)⟩
  encodeTrustLine _ := .ok ()
  scAddressTypeAccount id := ⟨id.ed25519⟩
  scvAddress address := ⟨address.xdr⟩
  scvAddress? value := some ⟨value.xdr⟩
  i128 _ := .ok ⟨[]⟩
  scValToNative _ := .ok ()
  invokeHostFn _ _ _ := .ok ⟨[]⟩
  createContractHostFn _ _ _ _ := .ok ⟨[]⟩
  authPayload _ _ _ := .ok none
  signedEntry entry _ _ := .ok entry

/-! ## Wallets -/

/-- `Wallet`: a keypair, by its public key.  The rest of the source's fields
are read off it. -/
structure Wallet where
  accountId : AccountId
  deriving DecidableEq

/-- The address of a wallet. -/
def Wallet.address (s : Sdk) (w : Wallet) : ScAddress := s.scAddressTypeAccount w.accountId

/-- `preFundedWallet`, on the keypair that `Keypair.random` handed out. -/
def preFundedWallet (s : Sdk) (keypair : AccountId) (opts : FundOptions) : LedgerM Wallet := do
  Ledger.fund s.toDeps keypair opts
  return ⟨keypair⟩

/-! ## Trustlines -/

/-- The options of `establishTrustline`. -/
structure TrustlineOptions where
  limit : Option Int := none
  balance : Option Int := none
  authorized : Option Bool := none

/-- `9_223_372_036_854_775_807n`. -/
def maxLimit : Int := 2 ^ 63 - 1

/-- The XDR of `TrustLineEntryExt.v0()`. -/
def trustLineExtV0 : Bytes := [0, 0, 0, 0]

/-- `trustlineKey`. -/
def trustlineKey (holder : Wallet) (code : Bytes) (issuer : AccountId) : LedgerKey :=
  .trustline holder.accountId (trustLineAsset code issuer)

/-- The entry `establishTrustline` builds before it looks for one. -/
def newTrustline (holder : Wallet) (code : Bytes) (issuer : AccountId) (opts : TrustlineOptions) :
    TrustLineEntry where
  accountId := holder.accountId
  asset := trustLineAsset code issuer
  balance := opts.balance.getD 0
  limit := opts.limit.getD maxLimit
  flags := if opts.authorized.getD true then 1 else 0
  ext := trustLineExtV0

/-- The balance that is written: a stored one is kept unless the caller gives
another. -/
def keptBalance (existing : Option LedgerEntry) (opts : TrustlineOptions)
    (entry : TrustLineEntry) : Except JsError Int :=
  match existing, opts.balance with
  | some stored, none =>
    match stored.data with
    | .trustline trustLine => .ok trustLine.balance
    | _ => .error ⟨"expected the trustline arm"⟩
  | _, _ => .ok entry.balance

/-- The ledger entry of a trustline. -/
def trustlineLedgerEntry (ledgerSeq : Nat) (trustLine : TrustLineEntry) : LedgerEntry where
  lastModifiedLedgerSeq := ledgerSeq
  data := .trustline trustLine
  ext := .v0

/-- Write a trustline entry. -/
def putTrustline (s : Sdk) (trustLine : TrustLineEntry) : LedgerM Unit := do
  LedgerM.lift fun _ => s.encodeTrustLine trustLine
  let ledger ← get
  Ledger.putEntry (trustlineLedgerEntry ledger.ledgerSeq trustLine) none

/-- One sub-entry more for an account, if it is there. -/
def countSubEntry (s : Sdk) (id : AccountId) : LedgerM Unit := do
  match ← LedgerM.lift (loadAccount · id) with
  | some account =>
    storeAccount s.toDeps { account with numSubEntries := account.numSubEntries + 1 }
  | none => return ()

/-- `establishTrustline`. -/
def establishTrustline (s : Sdk) (holder : Wallet) (asset : Asset) (opts : TrustlineOptions) :
    LedgerM Unit :=
  match asset with
  | .native => return ()
  | .credit code issuer => do
    let entry := newTrustline holder code issuer opts
    let existing := (← get).getEntry (trustlineKey holder code issuer)
    let balance ← LedgerM.lift fun _ => keptBalance existing opts entry
    putTrustline s { entry with balance := balance }
    -- Only a trustline that is new counts.
    if existing.isNone then countSubEntry s holder.accountId

/-- `establishTrustlineIfMissing`. -/
def establishTrustlineIfMissing (s : Sdk) (holder : Wallet) (asset : Asset) : LedgerM Unit :=
  match asset with
  | .native => return ()
  | .credit code issuer => do
    if ((← get).getEntry (trustlineKey holder code issuer)).isSome then return ()
    else establishTrustline s holder asset {}

/-! ## Tokens -/

/-- How the facade and the fixtures call `simulate`. -/
def simulateCall (hostFunction : HostFunction) (source : AccountId)
    (auth : Option (List SorobanAuthorizationEntry)) : SimulateArgs where
  hostFunction := hostFunction
  source := source
  auth := auth
  instructionLeeway := 0
  ledgerSeq := none
  useAddressV2 := false

/-- How they call `send`, with what a simulation found. -/
def sendCall (hostFunction : HostFunction) (source : AccountId) (resources : SorobanResources)
    (auth : List SorobanAuthorizationEntry) (sim : SimulateResult) : SendArgs where
  hostFunction := hostFunction
  source := source
  resources := resources
  auth := auth
  restoredRwEntryIndices := sim.restoredRwEntryIndices
  maxRefundableFee := none

/-- `ledger.send` on what `sim` found.  A simulation that succeeded always has
resources. -/
def sendSimulated (s : Sdk) (hostFunction : HostFunction) (source : AccountId)
    (auth : List SorobanAuthorizationEntry) (sim : SimulateResult) : LedgerM SendResult :=
  match sim.resources with
  | none => throw ⟨"xdr"⟩
  | some resources => Ledger.send s.toDeps (sendCall hostFunction source resources auth sim)

/-- `apply`: simulate, send, and throw with the host's own diagnostics. -/
def apply (s : Sdk) (hostFunction : HostFunction) (source : AccountId) : LedgerM SendResult := do
  let sim ← Ledger.simulate s.toDeps (simulateCall hostFunction source none)
  if !sim.ok then throw ⟨"simulate failed: " ++ sim.error.getD "undefined"⟩
  let sent ← sendSimulated s hostFunction source sim.auth sim
  if !sent.ok then throw ⟨"send failed: " ++ sent.error.getD "undefined"⟩
  return sent

/-- `Wallet | xdr.ScAddress`. -/
inductive Recipient where
  | wallet (w : Wallet)
  | address (a : ScAddress)
  deriving DecidableEq

/-- `addrOf`. -/
def Recipient.addrOf (s : Sdk) : Recipient → ScAddress
  | .wallet w => w.address s
  | .address a => a

/-- `if (isWallet(to)) establishTrustlineIfMissing(..)`. -/
def Recipient.establishTrustline (s : Sdk) (recipient : Recipient) (asset : Asset) : LedgerM Unit :=
  match recipient with
  | .wallet w => establishTrustlineIfMissing s w asset
  | .address _ => return ()

/-- `Token`: the handle `buildToken` returns. -/
structure Token where
  asset : Asset
  issuer : Wallet
  address : ScAddress
  deriving DecidableEq

namespace Token

/-- `call`: apply one function of the token's contract. -/
def call (s : Sdk) (token : Token) (fn : String) (args : List ScVal) (source : Wallet) :
    LedgerM SendResult := do
  let hostFunction ← LedgerM.lift fun _ => s.invokeHostFn token.address fn args
  apply s hostFunction source.accountId

/-- `trust`. -/
def trust (s : Sdk) (token : Token) (holder : Wallet) : LedgerM Unit :=
  establishTrustlineIfMissing s holder token.asset

/-- `mint`.  The issuer is the source of the call. -/
def mint (s : Sdk) (token : Token) (recipient : Recipient) (amount : Int) : LedgerM Unit := do
  recipient.establishTrustline s token.asset
  let value ← LedgerM.lift fun _ => s.i128 amount
  let _ ← token.call s "mint" [s.scvAddress (recipient.addrOf s), value] token.issuer

/-- `transfer`.  The sender is the source of the call. -/
def transfer (s : Sdk) (token : Token) (sender : Wallet) (recipient : Recipient) (amount : Int) :
    LedgerM Unit := do
  recipient.establishTrustline s token.asset
  let value ← LedgerM.lift fun _ => s.i128 amount
  let _ ← token.call s "transfer"
    [s.scvAddress (sender.address s), s.scvAddress (recipient.addrOf s), value] sender

end Token

end LiteSoroban

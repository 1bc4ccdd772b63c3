import Mathlib.Algebra.GroupWithZero.Nat
import LiteSoroban.Lib.Effect
import LiteSoroban.Lib.OrderedCode
import LiteSoroban.LiteStellar

/-!
# Authorization entries

`signAuthEntriesSync` of `src/litestellar.ts`, on entries that are decoded,
rebuilt with a signature, and encoded again.

The XDR codec and `buildAuthorizationEntryPreimage` are the SDK's; `AuthSdk` has
them, and `AuthSdk.Lawful` says what the code relies on.  `Signed` relates an
entry to what signing makes of it.  A signature is over the preimage of the
entry before it is rebuilt, and the rebuilt entry has the same preimage
(`signedEntry_preimage`): that makes the signature valid, and signing again
changes nothing.

`signAuthEntriesSync_toSdk` says that this is the `signAuthEntriesSync` of
`LiteStellar`, for an SDK that has these functions.
-/

namespace LiteSoroban.Auth

open OrderedCode

/-! ## Entries -/

structure SorobanAddressCredentials where
  address : ScAddress
  nonce : Int
  signatureExpirationLedger : Nat
  signature : ScVal
  deriving DecidableEq

/-- The delegates stay encoded. -/
structure SorobanAddressCredentialsWithDelegates where
  addressCredentials : SorobanAddressCredentials
  delegates : List Bytes
  deriving DecidableEq

inductive SorobanCredentials where
  | sorobanCredentialsSourceAccount
  | sorobanCredentialsAddress (address : SorobanAddressCredentials)
  | sorobanCredentialsAddressV2 (addressV2 : SorobanAddressCredentials)
  | sorobanCredentialsAddressWithDelegates
      (addressWithDelegates : SorobanAddressCredentialsWithDelegates)
  deriving DecidableEq

/-- `xdr.SorobanAuthorizationEntry`, decoded.  The root invocation stays
encoded. -/
structure AuthorizationEntry where
  credentials : SorobanCredentials
  rootInvocation : Bytes
  deriving DecidableEq

/-- The arms of `SorobanCredentials`. -/
inductive CredentialsArm where
  | sourceAccount
  | address
  | addressV2
  | addressWithDelegates
  deriving DecidableEq

namespace SorobanCredentials

def arm : SorobanCredentials → CredentialsArm
  | sorobanCredentialsSourceAccount => .sourceAccount
  | sorobanCredentialsAddress _ => .address
  | sorobanCredentialsAddressV2 _ => .addressV2
  | sorobanCredentialsAddressWithDelegates _ => .addressWithDelegates

/-- The address credentials of an arm that has them. -/
def address? : SorobanCredentials → Option SorobanAddressCredentials
  | sorobanCredentialsSourceAccount => none
  | sorobanCredentialsAddress address => some address
  | sorobanCredentialsAddressV2 address => some address
  | sorobanCredentialsAddressWithDelegates withDelegates => some withDelegates.addressCredentials

/-- The delegates of the arm that has them. -/
def delegates : SorobanCredentials → List Bytes
  | sorobanCredentialsAddressWithDelegates withDelegates => withDelegates.delegates
  | _ => []

/-- The `switch` over the arms: the address credentials are replaced, and the
rest stays. -/
def mapAddress (signed : SorobanAddressCredentials → SorobanAddressCredentials) :
    SorobanCredentials → Except JsError SorobanCredentials
  | sorobanCredentialsAddress address => .ok (sorobanCredentialsAddress (signed address))
  | sorobanCredentialsAddressV2 addressV2 => .ok (sorobanCredentialsAddressV2 (signed addressV2))
  | sorobanCredentialsAddressWithDelegates withDelegates =>
    .ok (sorobanCredentialsAddressWithDelegates
      { addressCredentials := signed withDelegates.addressCredentials
        delegates := withDelegates.delegates })
  | sorobanCredentialsSourceAccount =>
    .error ⟨"unsupported credential type sorobanCredentialsSourceAccount"⟩

end SorobanCredentials

/-! ## Signing -/

/-- What `signAuthEntriesSync` calls of the SDK. -/
structure AuthSdk where
  /-- `xdr.SorobanAuthorizationEntry.fromXdr`. -/
  fromXdr : SorobanAuthorizationEntry → Except JsError AuthorizationEntry
  /-- `toXdr` of an entry: it refuses a number outside the range of its field. -/
  toXdr : AuthorizationEntry → Except JsError SorobanAuthorizationEntry
  /-- `buildAuthorizationEntryPreimage`, encoded. -/
  buildAuthorizationEntryPreimage : AuthorizationEntry → Nat → String → Except JsError Bytes
  sha256 : Bytes → Bytes
  /-- The encodings of the values of `xdr.ScVal`, which is what a signer
  returns. -/
  IsScVal : ScVal → Prop

structure SignOptions where
  sign : Bytes → ScVal
  networkPassphrase : String
  validUntilLedgerSeq : Nat

/-- The address credentials with the expiration and a signature. -/
def SignOptions.signed (opts : SignOptions) (signature : ScVal) (addr : SorobanAddressCredentials) :
    SorobanAddressCredentials where
  address := addr.address
  nonce := addr.nonce
  signatureExpirationLedger := opts.validUntilLedgerSeq
  signature := signature

/-- The entry with its credentials signed. -/
def SignOptions.signedEntry (opts : SignOptions) (signature : ScVal) (entry : AuthorizationEntry) :
    Except JsError AuthorizationEntry := do
  let credentials ← entry.credentials.mapAddress (opts.signed signature)
  return { rootInvocation := entry.rootInvocation, credentials := credentials }

namespace AuthSdk

/-- One entry.  That of the source account carries no signature. -/
def signEntry (sdk : AuthSdk) (opts : SignOptions) (encoded : SorobanAuthorizationEntry) :
    Except JsError SorobanAuthorizationEntry := do
  let entry ← sdk.fromXdr encoded
  if entry.credentials.arm = .sourceAccount then return encoded
  let preimage ← sdk.buildAuthorizationEntryPreimage entry opts.validUntilLedgerSeq
    opts.networkPassphrase
  let signature := opts.sign (sdk.sha256 preimage)
  let signed ← opts.signedEntry signature entry
  sdk.toXdr signed

/-- `signAuthEntriesSync`. -/
def signAuthEntriesSync (sdk : AuthSdk) (entries : List SorobanAuthorizationEntry)
    (opts : SignOptions) : Except JsError (List SorobanAuthorizationEntry) :=
  entries.mapM (sdk.signEntry opts)

/-- What the code relies on.  The preimage is that of the arm, the address, the
nonce, the invocation, the expiration and the passphrase. -/
structure Lawful (sdk : AuthSdk) : Prop where
  preimage_congr : ∀ {entry entry' : AuthorizationEntry} (validUntil : Nat) (passphrase : String),
    entry.credentials.arm = entry'.credentials.arm →
    entry.credentials.address?.map (fun a => (a.address, a.nonce)) =
      entry'.credentials.address?.map (fun a => (a.address, a.nonce)) →
    entry.rootInvocation = entry'.rootInvocation →
    sdk.buildAuthorizationEntryPreimage entry validUntil passphrase =
      sdk.buildAuthorizationEntryPreimage entry' validUntil passphrase
  /-- An entry that was decoded, and has credentials, has a preimage up to any
  ledger. -/
  preimage_ok : ∀ {encoded entry}, sdk.fromXdr encoded = .ok entry →
    entry.credentials.arm ≠ .sourceAccount → ∀ {validUntil}, validUntil < 2 ^ 32 → ∀ passphrase,
    ∃ preimage, sdk.buildAuthorizationEntryPreimage entry validUntil passphrase = .ok preimage
  /-- With a value as its signature, and valid up to a ledger, it is encoded
  again, and read back. -/
  fromXdr_toXdr : ∀ {encoded entry}, sdk.fromXdr encoded = .ok entry →
    ∀ {opts : SignOptions}, opts.validUntilLedgerSeq < 2 ^ 32 →
    ∀ {signature}, sdk.IsScVal signature →
    ∀ {signed}, opts.signedEntry signature entry = .ok signed →
    ∃ encoded', sdk.toXdr signed = .ok encoded' ∧ sdk.fromXdr encoded' = .ok signed

end AuthSdk

/-! ## Signed entries -/

/-- What signing makes of an entry with credentials. -/
structure Signed (sdk : AuthSdk) (opts : SignOptions) (entry entry' : AuthorizationEntry) :
    Prop where
  arm : entry'.credentials.arm = entry.credentials.arm
  rootInvocation : entry'.rootInvocation = entry.rootInvocation
  delegates : entry'.credentials.delegates = entry.credentials.delegates
  /-- The address and the nonce stay, and the signature is over the entry as it
  is now. -/
  address : ∃ a a' preimage, entry.credentials.address? = some a ∧
    entry'.credentials.address? = some a' ∧ a'.address = a.address ∧ a'.nonce = a.nonce ∧
    a'.signatureExpirationLedger = opts.validUntilLedgerSeq ∧
    sdk.buildAuthorizationEntryPreimage entry' a'.signatureExpirationLedger
      opts.networkPassphrase = .ok preimage ∧
    a'.signature = opts.sign (sdk.sha256 preimage)

/-- What signing makes of an encoded entry. -/
def SignedAs (sdk : AuthSdk) (opts : SignOptions) (encoded encoded' : SorobanAuthorizationEntry) :
    Prop :=
  ∃ entry, sdk.fromXdr encoded = .ok entry ∧
    (entry.credentials.arm = .sourceAccount ∧ encoded' = encoded ∨
      entry.credentials.arm ≠ .sourceAccount ∧
        ∃ entry', sdk.fromXdr encoded' = .ok entry' ∧ Signed sdk opts entry entry')

theorem address?_eq_some {credentials : SorobanCredentials}
    (h : credentials.arm ≠ .sourceAccount) : ∃ a, credentials.address? = some a := by
  cases credentials with
  | sorobanCredentialsSourceAccount => exact absurd rfl h
  | sorobanCredentialsAddress address => exact ⟨address, rfl⟩
  | sorobanCredentialsAddressV2 addressV2 => exact ⟨addressV2, rfl⟩
  | sorobanCredentialsAddressWithDelegates withDelegates =>
    exact ⟨withDelegates.addressCredentials, rfl⟩

section Entry

variable {opts : SignOptions} {signature : ScVal} {entry signed : AuthorizationEntry}

/-- Any arm but the source account's can be signed, and only its address
credentials change. -/
theorem signedEntry_ok (opts : SignOptions) (signature : ScVal)
    (h : entry.credentials.arm ≠ .sourceAccount) :
    ∃ signed, opts.signedEntry signature entry = .ok signed ∧
      signed.credentials.arm = entry.credentials.arm ∧
      signed.credentials.address? = entry.credentials.address?.map (opts.signed signature) ∧
      signed.credentials.delegates = entry.credentials.delegates ∧
      signed.rootInvocation = entry.rootInvocation := by
  obtain ⟨credentials, rootInvocation⟩ := entry
  cases credentials with
  | sorobanCredentialsSourceAccount => exact absurd rfl h
  | sorobanCredentialsAddress address => exact ⟨_, rfl, rfl, rfl, rfl, rfl⟩
  | sorobanCredentialsAddressV2 addressV2 => exact ⟨_, rfl, rfl, rfl, rfl, rfl⟩
  | sorobanCredentialsAddressWithDelegates withDelegates => exact ⟨_, rfl, rfl, rfl, rfl, rfl⟩

/-- A signed entry, signed alike again, is itself. -/
theorem signedEntry_again (h : opts.signedEntry signature entry = .ok signed) :
    opts.signedEntry signature signed = .ok signed := by
  obtain ⟨credentials, rootInvocation⟩ := entry
  cases credentials <;> cases h <;> rfl

/-- The rebuilt entry has the preimage of the entry it was rebuilt from. -/
theorem signedEntry_preimage {sdk : AuthSdk} (hsdk : sdk.Lawful)
    (harm : entry.credentials.arm ≠ .sourceAccount)
    (h : opts.signedEntry signature entry = .ok signed) (validUntil : Nat) (passphrase : String) :
    sdk.buildAuthorizationEntryPreimage signed validUntil passphrase =
      sdk.buildAuthorizationEntryPreimage entry validUntil passphrase := by
  obtain ⟨signed', hsigned, harm', haddress, -, hroot⟩ := signedEntry_ok opts signature harm
  rw [h] at hsigned
  cases hsigned
  refine hsdk.preimage_congr validUntil passphrase harm' ?_ hroot
  rw [haddress, Option.map_map]
  rfl

end Entry

section Sign

variable {sdk : AuthSdk} {opts : SignOptions} {encoded encoded' : SorobanAuthorizationEntry}
  {entry signed : AuthorizationEntry}

/-- An entry of the source account is handed back. -/
theorem signEntry_source (hdecode : sdk.fromXdr encoded = .ok entry)
    (harm : entry.credentials.arm = .sourceAccount) :
    sdk.signEntry opts encoded = .ok encoded := by
  simp only [AuthSdk.signEntry, hdecode, bind, Except.bind, harm, ↓reduceIte]
  rfl

/-- Any other entry is signed over its preimage and encoded again. -/
theorem signEntry_signed {preimage : Bytes} (hdecode : sdk.fromXdr encoded = .ok entry)
    (harm : entry.credentials.arm ≠ .sourceAccount)
    (hpreimage : sdk.buildAuthorizationEntryPreimage entry opts.validUntilLedgerSeq
      opts.networkPassphrase = .ok preimage)
    (hsigned : opts.signedEntry (opts.sign (sdk.sha256 preimage)) entry = .ok signed) :
    sdk.signEntry opts encoded = sdk.toXdr signed := by
  simp only [AuthSdk.signEntry, hdecode, bind, Except.bind, harm, ↓reduceIte, hpreimage, hsigned]

/-- Signing one entry does what it should, and doing it again changes
nothing. -/
theorem signEntry_ok (hsdk : sdk.Lawful) (hvalid : opts.validUntilLedgerSeq < 2 ^ 32)
    (hsign : ∀ payload, sdk.IsScVal (opts.sign payload))
    (hdecode : sdk.fromXdr encoded = .ok entry) :
    ∃ encoded', sdk.signEntry opts encoded = .ok encoded' ∧ SignedAs sdk opts encoded encoded' ∧
      sdk.signEntry opts encoded' = .ok encoded' := by
  by_cases harm : entry.credentials.arm = .sourceAccount
  · have hsource : sdk.signEntry opts encoded = .ok encoded := signEntry_source hdecode harm
    exact ⟨encoded, hsource, ⟨entry, hdecode, .inl ⟨harm, rfl⟩⟩, hsource⟩
  · obtain ⟨preimage, hpreimage⟩ := hsdk.preimage_ok hdecode harm hvalid opts.networkPassphrase
    obtain ⟨signed, hsigned, harm', haddress, hdelegates, hroot⟩ :=
      signedEntry_ok opts (opts.sign (sdk.sha256 preimage)) harm
    obtain ⟨encoded', hencode, hdecode'⟩ :=
      hsdk.fromXdr_toXdr hdecode hvalid (hsign (sdk.sha256 preimage)) hsigned
    -- What was hashed before the entry was rebuilt is what the rebuilt one says.
    have hpreimage' : sdk.buildAuthorizationEntryPreimage signed opts.validUntilLedgerSeq
        opts.networkPassphrase = .ok preimage := by
      rw [signedEntry_preimage hsdk harm hsigned]
      exact hpreimage
    obtain ⟨a, ha⟩ := address?_eq_some harm
    have ha' : signed.credentials.address? =
        some (opts.signed (opts.sign (sdk.sha256 preimage)) a) := by
      rw [haddress, ha]
      rfl
    refine ⟨encoded', ?_, ⟨entry, hdecode, .inr ⟨harm, signed, hdecode', ?_⟩⟩, ?_⟩
    · rw [signEntry_signed hdecode harm hpreimage hsigned, hencode]
    · exact ⟨harm', hroot, hdelegates, a, _, preimage, ha, ha', rfl, rfl, rfl, hpreimage', rfl⟩
    · rw [signEntry_signed hdecode' (harm' ▸ harm) hpreimage' (signedEntry_again hsigned), hencode]

end Sign

/-! ## A list of entries -/

/-- **Signing.**  Entries of any arms are signed one by one, in order: that of
the source account is handed back, and any other keeps all but its expiration
and its signature, which is over the entry that is handed back.  Signing what
was handed back hands it back. -/
theorem signAuthEntriesSync_signed {sdk : AuthSdk} (hsdk : sdk.Lawful) {opts : SignOptions}
    (hvalid : opts.validUntilLedgerSeq < 2 ^ 32)
    (hsign : ∀ payload, sdk.IsScVal (opts.sign payload)) (entries : List SorobanAuthorizationEntry)
    (hdecode : ∀ encoded ∈ entries, ∃ entry, sdk.fromXdr encoded = .ok entry) :
    ∃ signed, sdk.signAuthEntriesSync entries opts = .ok signed ∧
      List.Forall₂ (SignedAs sdk opts) entries signed ∧
      sdk.signAuthEntriesSync signed opts = .ok signed := by
  have hentries : ∀ encoded ∈ entries, ∃ encoded', sdk.signEntry opts encoded = .ok encoded' ∧
      (sdk.signEntry opts encoded' = .ok encoded' ∧ SignedAs sdk opts encoded encoded') := by
    intro encoded hmem
    obtain ⟨entry, hentry⟩ := hdecode encoded hmem
    obtain ⟨encoded', hsign, hsigned, hagain⟩ := signEntry_ok hsdk hvalid hsign hentry
    exact ⟨encoded', hsign, hagain, hsigned⟩
  obtain ⟨signed, hsign, hrelated⟩ := Except.mapM_ok_forall₂ hentries
  obtain ⟨hagain, hsigned⟩ := (List.forall₂_and_left _ _).mp hrelated.flip
  exact ⟨signed, hsign, hsigned.flip, Except.mapM_eq_self hagain⟩

/-! ## The model of the sandbox -/

namespace AuthSdk

/-- The hash that is signed of an encoded entry, if it has credentials. -/
def authPayload (sdk : AuthSdk) (encoded : SorobanAuthorizationEntry) (validUntil : Nat)
    (passphrase : String) : Except JsError (Option Bytes) := do
  let entry ← sdk.fromXdr encoded
  if entry.credentials.arm = .sourceAccount then return none
  let preimage ← sdk.buildAuthorizationEntryPreimage entry validUntil passphrase
  return some (sdk.sha256 preimage)

/-- An encoded entry with its expiration and a signature. -/
def signedEntry (sdk : AuthSdk) (encoded : SorobanAuthorizationEntry) (validUntil : Nat)
    (signature : ScVal) : Except JsError SorobanAuthorizationEntry := do
  let entry ← sdk.fromXdr encoded
  let signed ← SignOptions.signedEntry ⟨fun _ => signature, "", validUntil⟩ signature entry
  sdk.toXdr signed

/-- The SDK of the sandbox, with these functions. -/
def toSdk (sdk : AuthSdk) (s : Sdk) : Sdk :=
  { s with authPayload := sdk.authPayload, signedEntry := sdk.signedEntry }

end AuthSdk

/-- What the sandbox signs entries with is the function of this module. -/
theorem signAuthEntriesSync_toSdk (sdk : AuthSdk) (s : Sdk)
    (entries : List SorobanAuthorizationEntry) (opts : SignOptions) :
    LiteSoroban.signAuthEntriesSync (sdk.toSdk s) entries opts.sign opts.networkPassphrase
      opts.validUntilLedgerSeq = sdk.signAuthEntriesSync entries opts := by
  unfold LiteSoroban.signAuthEntriesSync AuthSdk.signAuthEntriesSync
  congr 1
  funext encoded
  simp only [AuthSdk.toSdk, AuthSdk.authPayload, AuthSdk.signedEntry, AuthSdk.signEntry]
  cases hdecode : sdk.fromXdr encoded with
  | error e => rfl
  | ok entry =>
    by_cases harm : entry.credentials.arm = .sourceAccount
    · simp only [bind, Except.bind, harm, ↓reduceIte, pure, Except.pure]
    · simp only [bind, Except.bind, harm, ↓reduceIte, pure, Except.pure]
      cases sdk.buildAuthorizationEntryPreimage entry opts.validUntilLedgerSeq
        opts.networkPassphrase with
      | error e => rfl
      | ok preimage => rfl

/-! ## A sample codec -/

/-- The encoding of the address of a sample key. -/
def sampleAddress (seed : UInt8) : ScAddress :=
  ⟨beBytes32 0 ++ (beBytes32 0 ++ List.replicate 32 seed)⟩

/-- A call of a function without a name or arguments, and nothing under it. -/
def sampleInvocation : Bytes :=
  beBytes32 0 ++ (beBytes32 1 ++ (List.replicate 32 3 ++ List.replicate 12 0))

/-- A delegate that carries a signature of its own, and has no delegates. -/
def sampleDelegate : Bytes :=
  (sampleAddress 8).xdr ++ (beBytes32 13 ++ (beBytes32 4 ++ (List.replicate 4 9 ++ beBytes32 0)))

def CredentialsArm.tag : CredentialsArm → Nat
  | .sourceAccount => 0
  | .address => 1
  | .addressV2 => 2
  | .addressWithDelegates => 3

/-- What stands before the expiration: the arm, the address, and the nonce 7. -/
def samplePrefix (arm : CredentialsArm) : Bytes :=
  beBytes32 arm.tag ++ ((sampleAddress 7).xdr ++ (beBytes32 0 ++ beBytes32 7))

/-- What stands after the signature. -/
def sampleSuffix : CredentialsArm → Bytes
  | .addressWithDelegates => beBytes32 1 ++ (sampleDelegate ++ sampleInvocation)
  | _ => sampleInvocation

/-- The number of four bytes. -/
def readBe32 : Bytes → Nat
  | [a, b, c, d] => ((a.toNat * 256 + b.toNat) * 256 + c.toNat) * 256 + d.toNat
  | _ => 0

theorem readBe32_beBytes32 {n : Nat} (h : n < 2 ^ 32) : readBe32 (beBytes32 n) = n := by
  simp only [readBe32, beBytes32, UInt8.toNat_ofNat']
  omega

/-- The credentials of the sample address, in an arm. -/
def sampleCredentials (validUntil : Nat) (signature : ScVal) : CredentialsArm → SorobanCredentials
  | .sourceAccount => .sorobanCredentialsSourceAccount
  | .address => .sorobanCredentialsAddress ⟨sampleAddress 7, 7, validUntil, signature⟩
  | .addressV2 => .sorobanCredentialsAddressV2 ⟨sampleAddress 7, 7, validUntil, signature⟩
  | .addressWithDelegates => .sorobanCredentialsAddressWithDelegates
    ⟨⟨sampleAddress 7, 7, validUntil, signature⟩, [sampleDelegate]⟩

def sampleEntry (validUntil : Nat) (signature : ScVal) (arm : CredentialsArm) :
    AuthorizationEntry where
  credentials := sampleCredentials validUntil signature arm
  rootInvocation := sampleInvocation

def sampleEncoding (validUntil : Nat) (signature : ScVal) (arm : CredentialsArm) :
    SorobanAuthorizationEntry :=
  if arm = .sourceAccount then ⟨beBytes32 0 ++ sampleInvocation⟩
  else ⟨samplePrefix arm ++ (beBytes32 validUntil ++ (signature.xdr ++ sampleSuffix arm))⟩

/-- No value. -/
def scvVoid : ScVal := ⟨beBytes32 1⟩

/-- Bytes of the length of a hash. -/
def scvHash (hash : Bytes) : ScVal := ⟨beBytes32 13 ++ (beBytes32 32 ++ hash)⟩

/-- The values of the sample codec. -/
def SampleScVal (value : ScVal) : Prop :=
  value = scvVoid ∨ value = scvHash (value.xdr.drop 8) ∧ value.xdr.length = 40

instance (value : ScVal) : Decidable (SampleScVal value) :=
  inferInstanceAs (Decidable (_ ∨ _))

/-- The sample signer signs a hash with the hash. -/
def sampleSign (payload : Bytes) : ScVal :=
  if payload.length = 32 then scvHash payload else scvVoid

theorem sampleScVal_sampleSign (payload : Bytes) : SampleScVal (sampleSign payload) := by
  unfold sampleSign
  split
  · next hlength =>
    refine .inr ⟨rfl, ?_⟩
    simp only [scvHash, List.length_append, beBytes32_length, hlength]
  · exact .inl rfl

def samplePassphrase : String := "Test SDF Network ; September 2015"

/-- The hash of the sample passphrase. -/
def sampleNetworkId : Bytes :=
  [206, 224, 48, 45, 89, 132, 77, 50, 189, 202, 145, 92, 130, 3, 221, 68, 179, 63, 187, 126, 220,
    25, 5, 30, 163, 122, 190, 223, 40, 236, 212, 114]

/-- The preimage of an arm: that of legacy credentials names no address. -/
def samplePreimage (arm : CredentialsArm) (address : ScAddress) (nonce : Int) (validUntil : Nat)
    (passphrase : String) (rootInvocation : Bytes) : Bytes :=
  let networkId := if passphrase = samplePassphrase then sampleNetworkId else []
  let (tag, addressed) := if arm = .address then (9, []) else (10, address.xdr)
  beBytes32 tag ++ (networkId ++ (beBytes32 (nonce / 2 ^ 32 % 2 ^ 32).toNat ++
    (beBytes32 (nonce % 2 ^ 32).toNat ++ (beBytes32 validUntil ++ (addressed ++ rootInvocation)))))

/-- The hashes of the sample preimages, up to ledger 1100. -/
def sampleSha256 (bytes : Bytes) : Bytes :=
  let preimage arm := samplePreimage arm (sampleAddress 7) 7 1100 samplePassphrase sampleInvocation
  if bytes = preimage .address then
    [248, 6, 152, 191, 27, 130, 231, 169, 8, 83, 61, 9, 55, 105, 240, 10, 69, 215, 222, 150, 220,
      147, 127, 34, 81, 142, 147, 140, 231, 97, 242, 84]
  else if bytes = preimage .addressV2 then
    [6, 88, 138, 15, 16, 211, 13, 82, 182, 187, 164, 10, 64, 236, 37, 200, 121, 179, 125, 17, 48,
      55, 108, 99, 51, 71, 105, 73, 209, 88, 44, 160]
  else []

/-- What a sample entry of an arm is read as. -/
def sampleRead (arm : CredentialsArm) (encoded : SorobanAuthorizationEntry) :
    Except JsError AuthorizationEntry :=
  let rest := encoded.xdr.drop (samplePrefix arm).length
  let validUntil := readBe32 (rest.take 4)
  let signature : ScVal := ⟨(rest.drop 4).take (rest.length - 4 - (sampleSuffix arm).length)⟩
  if SampleScVal signature ∧ encoded = sampleEncoding validUntil signature arm then
    .ok (sampleEntry validUntil signature arm)
  else .error ⟨"xdr"⟩

/-- The XDR codec, on the entries of the source account and of the sample
address that authorize the sample invocation. -/
def sampleSdk : AuthSdk where
  fromXdr encoded :=
    if encoded = sampleEncoding 0 scvVoid .sourceAccount then
      .ok (sampleEntry 0 scvVoid .sourceAccount)
    else if encoded.xdr.take 4 = beBytes32 1 then sampleRead .address encoded
    else if encoded.xdr.take 4 = beBytes32 2 then sampleRead .addressV2 encoded
    else if encoded.xdr.take 4 = beBytes32 3 then sampleRead .addressWithDelegates encoded
    else .error ⟨"xdr"⟩
  toXdr entry :=
    let arm := entry.credentials.arm
    let (validUntil, signature) :=
      (entry.credentials.address?.map fun a => (a.signatureExpirationLedger, a.signature)).getD
        (0, scvVoid)
    if entry = sampleEntry validUntil signature arm ∧ validUntil < 2 ^ 32 ∧
        SampleScVal signature then
      .ok (sampleEncoding validUntil signature arm)
    else .error ⟨"xdr"⟩
  buildAuthorizationEntryPreimage entry validUntil passphrase :=
    match entry.credentials.address? with
    | none => .error ⟨"unsupported credentials"⟩
    | some a => .ok (samplePreimage entry.credentials.arm a.address a.nonce validUntil passphrase
      entry.rootInvocation)
  sha256 := sampleSha256
  IsScVal := SampleScVal

/-- What the sample codec reads is a sample entry. -/
theorem sampleSdk_fromXdr_cases {encoded : SorobanAuthorizationEntry} {entry : AuthorizationEntry}
    (h : sampleSdk.fromXdr encoded = .ok entry) :
    ∃ validUntil signature arm, entry = sampleEntry validUntil signature arm := by
  have hread : ∀ arm, sampleRead arm encoded = .ok entry →
      ∃ validUntil signature arm, entry = sampleEntry validUntil signature arm := by
    intro arm h
    simp only [sampleRead] at h
    split at h
    · cases h
      exact ⟨_, _, arm, rfl⟩
    · cases h
  simp only [sampleSdk] at h
  split at h
  · cases h
    exact ⟨_, _, _, rfl⟩
  · split at h
    · exact hread _ h
    · split at h
      · exact hread _ h
      · split at h
        · exact hread _ h
        · cases h

/-- An encoding of an arm with credentials is read back. -/
theorem sampleRead_encoding {arm : CredentialsArm} (harm : arm ≠ .sourceAccount) {validUntil : Nat}
    (hvalid : validUntil < 2 ^ 32) {signature : ScVal} (hvalue : SampleScVal signature) :
    sampleRead arm (sampleEncoding validUntil signature arm) =
      .ok (sampleEntry validUntil signature arm) := by
  have hencoding : (sampleEncoding validUntil signature arm).xdr =
      samplePrefix arm ++ (beBytes32 validUntil ++ (signature.xdr ++ sampleSuffix arm)) := by
    rw [sampleEncoding, if_neg harm]
  have hexpiration (rest : Bytes) : (beBytes32 validUntil ++ rest).take 4 = beBytes32 validUntil :=
    List.take_left' rfl
  have hrest (rest : Bytes) : (beBytes32 validUntil ++ rest).drop 4 = rest :=
    List.drop_left' rfl
  have hlength : (beBytes32 validUntil ++ (signature.xdr ++ sampleSuffix arm)).length - 4 -
      (sampleSuffix arm).length = signature.xdr.length := by
    simp only [List.length_append, beBytes32_length]
    omega
  simp only [sampleRead, hencoding, List.drop_left, hexpiration, hrest, hlength, List.take_left,
    readBe32_beBytes32 hvalid, hvalue, true_and, ↓reduceIte]

theorem sampleSdk_fromXdr_encoding {validUntil : Nat} (hvalid : validUntil < 2 ^ 32)
    {signature : ScVal} (hvalue : SampleScVal signature) {arm : CredentialsArm}
    (harm : arm ≠ .sourceAccount) :
    sampleSdk.fromXdr (sampleEncoding validUntil signature arm) =
      .ok (sampleEntry validUntil signature arm) := by
  have htag : (sampleEncoding validUntil signature arm).xdr.take 4 = beBytes32 arm.tag := by
    rw [sampleEncoding, if_neg harm, samplePrefix, List.append_assoc]
    exact List.take_left' rfl
  have hsource : sampleEncoding validUntil signature arm ≠
      sampleEncoding 0 scvVoid .sourceAccount := by
    intro heq
    rw [heq] at htag
    have hzero : beBytes32 0 = beBytes32 arm.tag := htag
    cases arm with
    | sourceAccount => exact harm rfl
    | address => exact absurd hzero (by decide)
    | addressV2 => exact absurd hzero (by decide)
    | addressWithDelegates => exact absurd hzero (by decide)
  have hread := sampleRead_encoding harm hvalid hvalue
  simp only [sampleSdk, hsource, ↓reduceIte, htag]
  cases arm with
  | sourceAccount => exact absurd rfl harm
  | address => exact (if_pos rfl).trans hread
  | addressV2 =>
    rw [if_neg (by decide)]
    exact (if_pos rfl).trans hread
  | addressWithDelegates =>
    rw [if_neg (by decide), if_neg (by decide)]
    exact (if_pos rfl).trans hread

theorem sampleSdk_lawful : sampleSdk.Lawful where
  preimage_congr := by
    intro entry entry' validUntil passphrase harm haddress hroot
    simp only [sampleSdk, harm, hroot]
    cases h : entry.credentials.address? with
    | none =>
      rw [h, Option.map_none, eq_comm, Option.map_eq_none_iff] at haddress
      rw [haddress]
    | some a =>
      rw [h, Option.map_some, eq_comm, Option.map_eq_some_iff] at haddress
      obtain ⟨a', h', hsame⟩ := haddress
      obtain ⟨haddr, hnonce⟩ := Prod.mk.inj hsame
      simp only [h', haddr, hnonce]
  preimage_ok := by
    intro encoded entry _ harm validUntil _ passphrase
    obtain ⟨a, ha⟩ := address?_eq_some harm
    simp only [sampleSdk, ha]
    exact ⟨_, rfl⟩
  fromXdr_toXdr := by
    intro encoded entry hdecode opts hvalid signature hvalue signed hsigned
    obtain ⟨validUntil, old, arm, rfl⟩ := sampleSdk_fromXdr_cases hdecode
    have hentry : arm ≠ .sourceAccount ∧
        signed = sampleEntry opts.validUntilLedgerSeq signature arm := by
      cases arm <;> cases hsigned <;> exact ⟨by decide, rfl⟩
    obtain ⟨harm, rfl⟩ := hentry
    refine ⟨_, ?_, sampleSdk_fromXdr_encoding hvalid hvalue harm⟩
    cases arm with
    | sourceAccount => exact absurd rfl harm
    | address => exact if_pos ⟨rfl, hvalid, hvalue⟩
    | addressV2 => exact if_pos ⟨rfl, hvalid, hvalue⟩
    | addressWithDelegates => exact if_pos ⟨rfl, hvalid, hvalue⟩

/-- An entry of each arm, none of them signed yet. -/
theorem signAuthEntriesSync_signed_sample :
    let entries := [.sourceAccount, .address, .addressV2, .addressWithDelegates].map
      (sampleEncoding 0 scvVoid)
    let opts : SignOptions := ⟨sampleSign, samplePassphrase, 1100⟩
    ∃ signed, sampleSdk.signAuthEntriesSync entries opts = .ok signed ∧
      List.Forall₂ (SignedAs sampleSdk opts) entries signed ∧
      sampleSdk.signAuthEntriesSync signed opts = .ok signed := by
  intro entries opts
  have hvalid : opts.validUntilLedgerSeq < 2 ^ 32 := by
    show 1100 < 2 ^ 32
    decide
  refine signAuthEntriesSync_signed sampleSdk_lawful hvalid sampleScVal_sampleSign entries ?_
  intro encoded hmem
  obtain ⟨arm, -, rfl⟩ := List.mem_map.mp hmem
  by_cases harm : arm = .sourceAccount
  · exact ⟨sampleEntry 0 scvVoid .sourceAccount, by rw [harm]; rfl⟩
  · exact ⟨sampleEntry 0 scvVoid arm,
      sampleSdk_fromXdr_encoding (by decide) (.inl rfl) harm⟩

end LiteSoroban.Auth

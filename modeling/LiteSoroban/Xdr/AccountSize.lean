import LiteSoroban.Xdr.Size

/-!
# The size of an account's entry

The XDR length of an `AccountEntry` with its extension chain, and of the
ledger entry around it.  An `AccountID` is a public key behind its type, and a
`SponsorshipDescriptor` is an optional one.  Every extension level ends in an
`ExtensionPoint` or in the union of the next level, whose discriminant is one
word.
-/

namespace LiteSoroban

open Xdr

/-- `AccountID`. -/
def AccountId.xdrSize : Nat := 4 + 32

/-- `SponsorshipDescriptor`. -/
def sponsorshipSize (id : Option AccountId) : Nat :=
  optionalField (id.map fun _ => AccountId.xdrSize)

def Signer.xdrSize (signer : Signer) : Nat := signer.key.xdrSize + 4

def AccountEntryExtensionV2Ext.xdrSize : AccountEntryExtensionV2Ext → Nat
  | .v0 => 4
  | .v3 _ => 4 + (4 + 4 + 8)

def AccountEntryExtensionV2.xdrSize (v2 : AccountEntryExtensionV2) : Nat :=
  4 + 4 + varArray (v2.signerSponsoringIDs.map sponsorshipSize) + v2.ext.xdrSize

def AccountEntryExtensionV1Ext.xdrSize : AccountEntryExtensionV1Ext → Nat
  | .v0 => 4
  | .v2 level => 4 + level.xdrSize

def AccountEntryExtensionV1.xdrSize (v1 : AccountEntryExtensionV1) : Nat :=
  8 + 8 + v1.ext.xdrSize

def AccountEntryExt.xdrSize : AccountEntryExt → Nat
  | .v0 => 4
  | .v1 level => 4 + level.xdrSize

/-- `AccountEntry`, in the order of its fields. -/
def AccountEntry.xdrSize (account : AccountEntry) : Nat :=
  AccountId.xdrSize + 8 + 8 + 4 +
    optionalField (account.inflationDest.map fun _ => AccountId.xdrSize) +
    4 + varBytes account.homeDomain.length + 4 + varArray (account.signers.map Signer.xdrSize) +
    account.ext.xdrSize

def LedgerEntryExt.xdrSize : LedgerEntryExt → Nat
  | .v0 => 4
  | .v1 sponsoringId => 4 + (sponsorshipSize sponsoringId + 4)

/-- A `LedgerEntry` that holds an account. -/
def accountEntrySize (account : AccountEntry) (ext : LedgerEntryExt) : Nat :=
  4 + (4 + account.xdrSize) + ext.xdrSize

/-- No wrapper is smaller than the one without a sponsor. -/
theorem LedgerEntryExt.xdrSize_ge (ext : LedgerEntryExt) : 4 ≤ ext.xdrSize := by
  cases ext with
  | v0 => exact le_rfl
  | v1 sponsoringId => exact Nat.le_add_right 4 _

/-- Only the extension chain tells the sizes of two accounts with the same
signers, home domain and inflation destination apart. -/
theorem AccountEntry.xdrSize_le_of_ext {a b : AccountEntry}
    (hdest : a.inflationDest = b.inflationDest) (hdomain : a.homeDomain = b.homeDomain)
    (hsigners : a.signers = b.signers) (hext : a.ext.xdrSize ≤ b.ext.xdrSize) :
    a.xdrSize ≤ b.xdrSize := by
  unfold AccountEntry.xdrSize
  rw [hdest, hdomain, hsigners]
  exact Nat.add_le_add_left hext _

/-- The entry of an account is no longer than another's if neither the account
nor the wrapper is. -/
theorem accountEntrySize_mono {a b : AccountEntry} {ext ext' : LedgerEntryExt}
    (hab : a.xdrSize ≤ b.xdrSize) (hext : ext.xdrSize ≤ ext'.xdrSize) :
    accountEntrySize a ext ≤ accountEntrySize b ext' := by
  unfold accountEntrySize
  omega

end LiteSoroban

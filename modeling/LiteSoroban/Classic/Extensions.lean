import Mathlib.Algebra.GroupWithZero.Nat
import LiteSoroban.Classic.Account
import LiteSoroban.Env.Simulate
import LiteSoroban.Xdr.AccountSize

/-!
# The extension chain of an account

An account grows its v1, v2 and v3 extensions when its sequence number is
first bumped.  Two functions build the missing levels: `updateAccountEntry`,
which is how a simulation sees every account, and
`withAccountEntryExtensionV3`, which is how a bump leaves one.

`FullChain` is a chain with all three levels, and `AccountEntry.fullChain` the
one that an account's own chain completes to.  Both functions write it, and
differ in what they put on the last level.  `FullChain.Completes` says what
completing means, level by level.
-/

namespace LiteSoroban

open Xdr

/-! ## Complete chains -/

/-- A chain with all three levels. -/
structure FullChain where
  liabilities : Liabilities
  numSponsored : Nat
  numSponsoring : Nat
  signerSponsoringIDs : List (Option AccountId)
  v3 : AccountEntryExtensionV3
  deriving DecidableEq

namespace FullChain

/-- The chain as an account holds it. -/
def toExt (c : FullChain) : AccountEntryExt :=
  .v1 ⟨c.liabilities,
    .v2 ⟨c.numSponsored, c.numSponsoring, c.signerSponsoringIDs, .v3 c.v3⟩⟩

/-- The chain with another last level. -/
def stamp (c : FullChain) (v3 : AccountEntryExtensionV3) : FullChain := { c with v3 := v3 }

@[simp] theorem stamp_stamp (c : FullChain) (v3 v3' : AccountEntryExtensionV3) :
    (c.stamp v3).stamp v3' = c.stamp v3' := rfl

/-- The chain keeps what an account's own chain says, and has zeroes and no
sponsors where that ends. -/
structure Completes (c : FullChain) (account : AccountEntry) : Prop where
  v1Kept : ∀ v1, account.ext = .v1 v1 → c.liabilities = v1.liabilities
  v1Created : account.ext = .v0 → c.liabilities = ⟨0, 0⟩
  v2Kept : ∀ v1 v2, account.ext = .v1 v1 → v1.ext = .v2 v2 →
    c.numSponsored = v2.numSponsored ∧ c.numSponsoring = v2.numSponsoring ∧
      c.signerSponsoringIDs = v2.signerSponsoringIDs
  v2Created : (∀ v1 v2, account.ext = .v1 v1 → v1.ext ≠ .v2 v2) →
    c.numSponsored = 0 ∧ c.numSponsoring = 0 ∧
      c.signerSponsoringIDs = List.replicate account.signers.length none
  v3Kept : ∀ v3, accountEntryExtensionV3 account = some v3 → c.v3 = v3
  v3Created : accountEntryExtensionV3 account = none → c.v3 = ⟨0, 0⟩

end FullChain

/-- The chain an account's own chain completes to. -/
def AccountEntry.fullChain (account : AccountEntry) : FullChain :=
  let (v1, v2) := accountEntryExtensionChain account
  { liabilities := v1.liabilities
    numSponsored := v2.numSponsored
    numSponsoring := v2.numSponsoring
    signerSponsoringIDs := v2.signerSponsoringIDs
    v3 := (accountEntryExtensionV3 account).getD ⟨0, 0⟩ }

theorem AccountEntry.fullChain_completes (account : AccountEntry) :
    account.fullChain.Completes account := by
  unfold AccountEntry.fullChain accountEntryExtensionChain
  refine ⟨?_, ?_, ?_, ?_, ?_, ?_⟩
  · intro v1 hext
    simp only [hext]
  · intro hext
    simp only [hext]
  · intro v1 v2 hext hv1
    simp only [hext, hv1, and_self]
  · intro hnone
    cases hext : account.ext with
    | v0 => simp only [List.map_const', and_self]
    | v1 v1 =>
      cases hv1 : v1.ext with
      | v0 => simp only [hv1, List.map_const', and_self]
      | v2 v2 => exact absurd hv1 (hnone v1 v2 hext)
  · intro v3 hv3
    simp only [hv3, Option.getD_some]
  · intro hv3
    simp only [hv3, Option.getD_none]

/-- A complete chain completes to itself. -/
theorem FullChain.fullChain_eq (c : FullChain) {account : AccountEntry}
    (h : account.ext = c.toExt) : account.fullChain = c := by
  unfold AccountEntry.fullChain accountEntryExtensionChain accountEntryExtensionV3
  rw [h]
  rfl

/-! ## The two promotions -/

/-- What a bump leaves: the complete chain, stamped. -/
theorem withAccountEntryExtensionV3_eq (account : AccountEntry) (v3 : AccountEntryExtensionV3) :
    withAccountEntryExtensionV3 account v3 = (account.fullChain.stamp v3).toExt := rfl

theorem bumped_ext (ledger : Ledger) (seqNum : Int) (account : AccountEntry) :
    (bumped ledger seqNum account).ext =
      (account.fullChain.stamp ⟨ledger.ledgerSeq, ledger.timestamp⟩).toExt := rfl

/-- What a simulation reads: the complete chain, as it is. -/
theorem updateAccountEntry_eq (account : AccountEntry) :
    updateAccountEntry account = { account with ext := account.fullChain.toExt } := by
  unfold updateAccountEntry AccountEntry.fullChain accountEntryExtensionChain
    accountEntryExtensionV3
  cases hext : account.ext with
  | v0 =>
    simp only [AccountEntryExtensionV1.fillV2, AccountEntryExtensionV2.fillV3, FullChain.toExt,
      List.map_const', Option.getD_none]
  | v1 v1 =>
    obtain ⟨liabilities, v1ext⟩ := v1
    cases v1ext with
    | v0 =>
      simp only [AccountEntryExtensionV1.fillV2, AccountEntryExtensionV2.fillV3, FullChain.toExt,
        List.map_const', Option.getD_none]
    | v2 v2 =>
      obtain ⟨numSponsored, numSponsoring, sponsors, v2ext⟩ := v2
      cases v2ext with
      | v0 => rfl
      | v3 v3 => rfl

theorem fullChain_updateAccountEntry (account : AccountEntry) :
    (updateAccountEntry account).fullChain = account.fullChain := by
  apply FullChain.fullChain_eq
  rw [updateAccountEntry_eq]

theorem fullChain_bumped (ledger : Ledger) (seqNum : Int) (account : AccountEntry) :
    (bumped ledger seqNum account).fullChain =
      account.fullChain.stamp ⟨ledger.ledgerSeq, ledger.timestamp⟩ :=
  FullChain.fullChain_eq _ (bumped_ext ledger seqNum account)

/-! ## Sizes -/

/-- What is stamped on the last level takes no room. -/
theorem FullChain.xdrSize_stamp (c : FullChain) (v3 : AccountEntryExtensionV3) :
    (c.stamp v3).toExt.xdrSize = c.toExt.xdrSize := rfl

/-- Completing a chain never shortens it. -/
theorem AccountEntry.ext_le_fullChain (account : AccountEntry) :
    account.ext.xdrSize ≤ account.fullChain.toExt.xdrSize := by
  have hcompletes := account.fullChain_completes
  unfold FullChain.toExt
  cases hext : account.ext with
  | v0 =>
    simp only [AccountEntryExt.xdrSize]
    omega
  | v1 v1 =>
    simp only [AccountEntryExt.xdrSize, AccountEntryExtensionV1.xdrSize]
    cases hv1 : v1.ext with
    | v0 =>
      simp only [AccountEntryExtensionV1Ext.xdrSize]
      omega
    | v2 v2 =>
      obtain ⟨-, -, hsponsors⟩ := hcompletes.v2Kept v1 v2 hext hv1
      have hlast :
          v2.ext.xdrSize ≤ (AccountEntryExtensionV2Ext.v3 account.fullChain.v3).xdrSize := by
        cases v2.ext with
        | v0 => exact Nat.le_add_right 4 _
        | v3 v3 => exact le_rfl
      simp only [AccountEntryExtensionV1Ext.xdrSize, AccountEntryExtensionV2.xdrSize, hsponsors]
      omega

theorem xdrSize_updateAccountEntry (account : AccountEntry) :
    account.xdrSize ≤ (updateAccountEntry account).xdrSize := by
  rw [updateAccountEntry_eq]
  exact AccountEntry.xdrSize_le_of_ext rfl rfl rfl account.ext_le_fullChain

theorem xdrSize_bumped (ledger : Ledger) (seqNum : Int) (account : AccountEntry) :
    (bumped ledger seqNum account).xdrSize = (updateAccountEntry account).xdrSize := by
  rw [updateAccountEntry_eq]
  rfl

/-! ## The two agree -/

/-- **The promotions agree.**  A simulation and a bump complete an account's
chain alike, differ on its last level at most, leave every other field alone,
and give accounts of one size. -/
theorem promotions_agree (ledger : Ledger) (seqNum : Int) (account : AccountEntry) :
    (∃ c : FullChain, ∃ v3, c.Completes account ∧
      updateAccountEntry account = { account with ext := c.toExt } ∧
      bumped ledger seqNum account =
        { account with seqNum := seqNum, ext := { c with v3 := v3 }.toExt }) ∧
    (bumped ledger seqNum account).xdrSize = (updateAccountEntry account).xdrSize ∧
    account.xdrSize ≤ (updateAccountEntry account).xdrSize ∧
    updateAccountEntry (updateAccountEntry account) = updateAccountEntry account ∧
    ∀ ledger' seqNum', (bumped ledger' seqNum' (bumped ledger seqNum account)).ext =
      (bumped ledger' seqNum' account).ext := by
  refine ⟨⟨account.fullChain, ⟨ledger.ledgerSeq, ledger.timestamp⟩, account.fullChain_completes,
    updateAccountEntry_eq account, rfl⟩, xdrSize_bumped ledger seqNum account,
    xdrSize_updateAccountEntry account, ?_, fun ledger' seqNum' => ?_⟩
  · rw [updateAccountEntry_eq (updateAccountEntry account), fullChain_updateAccountEntry,
      updateAccountEntry_eq]
  · rw [bumped_ext, fullChain_bumped, FullChain.stamp_stamp, ← bumped_ext]

end LiteSoroban

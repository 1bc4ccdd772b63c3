import Mathlib.Tactic.Ring
import LiteSoroban.Classic.Extensions
import LiteSoroban.Classic.FeeAccounting

/-!
# The payer's reserve

An account has to keep a minimum balance: a base reserve for itself, twice,
and one for each subentry and each entry it sponsors, less those others
sponsor for it.  What it has offered to sell it has to keep as well.

`availableBalance`, which the fee checks ask, counts the subentries and
nothing else.  `uncheckedReserve` is the rest.  Between the check and the
debit nothing changes what an account has to keep, so the payer is left with
it exactly if the rest fits in what the check leaves.
-/

namespace LiteSoroban

open Effect

/-! ## What an account has to keep -/

namespace AccountEntry

/-- The minimum balance and the selling liabilities. -/
def minBalance (account : AccountEntry) : Int :=
  (2 + account.numSubEntries + account.fullChain.numSponsoring -
    account.fullChain.numSponsored) * baseReserve + account.fullChain.liabilities.selling

/-- The part of it that `availableBalance` does not count. -/
def uncheckedReserve (account : AccountEntry) : Int :=
  (account.fullChain.numSponsoring - account.fullChain.numSponsored) * baseReserve +
    account.fullChain.liabilities.selling

theorem balance_sub_minBalance (account : AccountEntry) :
    account.balance - account.minBalance = availableBalance account - account.uncheckedReserve := by
  unfold minBalance uncheckedReserve availableBalance
  ring

theorem minBalance_bumped (ledger : Ledger) (seqNum : Int) (account : AccountEntry) :
    (bumped ledger seqNum account).minBalance = account.minBalance := by
  unfold minBalance
  rw [fullChain_bumped]
  rfl

theorem minBalance_debited (amount : Int) (account : AccountEntry) :
    (debited amount account).minBalance = account.minBalance := rfl

end AccountEntry

/-! ## The payer, before and after -/

/-- The bump and the debit leave what the payer has to keep as it was. -/
theorem commitClassic_payer {d : Deps} {a : Application} {v : Validated} {charge : FeeCharge}
    (hcharge : a.charge = some charge) {ledger ledger' : Ledger} (hkeyed : ledger.store.Keyed)
    (h : commitClassic d a v ledger = .ok () ledger') :
    ∃ account account', ledger.store.account? charge.payer = some account ∧
      ledger'.store.account? charge.payer = some account' ∧
      account'.balance = account.balance - charge.upfront ∧
      account'.minBalance = account.minBalance := by
  obtain ⟨mid, hbump, hdebit⟩ := commitClassic_ok hkeyed h
  simp only [hcharge] at hdebit
  have hpresent := hdebit.present
  have hafter := hdebit.accounts charge.payer
  rw [if_pos rfl] at hafter
  rw [hbump.accounts] at hpresent hafter
  by_cases hsource : charge.payer = a.raw.sourceId
  · obtain ⟨account, haccount⟩ := Option.isSome_iff_exists.mp hbump.present
    rw [hsource, if_pos rfl, haccount] at hafter
    rw [hsource]
    refine ⟨account, _, haccount, hafter, rfl, ?_⟩
    rw [AccountEntry.minBalance_debited, AccountEntry.minBalance_bumped]
  · rw [if_neg hsource] at hpresent hafter
    obtain ⟨account, haccount⟩ := Option.isSome_iff_exists.mp hpresent
    rw [haccount] at hafter
    exact ⟨account, _, haccount, hafter, rfl, AccountEntry.minBalance_debited _ _⟩

/-- The fee check of a plain transaction, on the stored payer. -/
theorem checkFees_available {ledger : Ledger} (hkeyed : ledger.store.Keyed) {a : Application}
    {s : Shaped} {u : Unit} (h : checkFees ledger a s = .ok u) (hplain : a.feeBumped = false)
    {charge : FeeCharge} (hcharge : a.charge = some charge) {account : AccountEntry}
    (haccount : ledger.store.account? charge.payer = some account) :
    (a.raw.fee : Int) ≤ availableBalance account := by
  simp only [checkFees, hcharge, hplain, (loadAccount!_eq_ok hkeyed).mpr haccount, Except.bind_eq_ok,
    Bool.false_eq_true, if_false, Check.ofExcept_eq_ok, Except.ok.injEq] at h
  obtain ⟨_, -, _, rfl, hbalance⟩ := h
  have hnone := Check.problem_eq_ok.mp hbalance
  by_cases hlow : availableBalance account < a.raw.fee
  · rw [if_pos hlow] at hnone
    cases hnone
  · exact not_lt.mp hlow

/-- What the fee checks ask of the payer, plain or fee bump: the whole bid. -/
theorem payer_available {d : Deps} {ledger : Ledger} (hkeyed : ledger.store.Keyed)
    {envelope : TransactionEnvelope} {passphrase : String} {validation : ValidationOptions}
    {a : Application} {v : Validated} {c₁ c₂ : Option SignatureChecker}
    (hcharging : validation.feeCharging = true)
    (happ : envelopeApplication d ledger envelope passphrase validation = .ok a)
    (hpassed : Passed d ledger a v c₁ c₂) {charge : FeeCharge} (hcharge : a.charge = some charge)
    {account : AccountEntry} (haccount : ledger.store.account? charge.payer = some account) :
    envelope.fullFee ≤ availableBalance account := by
  cases envelope with
  | envelopeTypeTxV0 xdr => cases happ
  | envelopeTypeTx v1 =>
    have hplain := (plainApplication_ok happ).1
    have hraw : v1.tx = a.raw := by simpa [TransactionEnvelope.innerTx?] using hplain.innerTx
    have hbid := checkFees_available hkeyed hpassed.fees hplain.feeBumped hcharge haccount
    rw [← hraw] at hbid
    exact hbid
  | envelopeTypeTxFeeBump feeBump =>
    obtain ⟨hunwrapped, -, feeAccount, checker, hbump⟩ := feeBumpApplication_ok happ
    obtain ⟨payer, hpayer, hcharged⟩ := hunwrapped.charge
    rw [hcharge, if_pos hcharging] at hcharged
    cases hcharged
    cases hpayer
    have hloaded := hbump.loaded
    rw [loadAccount_keyed hkeyed, haccount] at hloaded
    cases hloaded
    exact hbump.balance hcharging

/-! ## What the payer is left with -/

/-- The payer of an accepted transaction, before it and right after the
up-front debit. -/
structure PayerDebited (envelope : TransactionEnvelope) (raw : Transaction)
    (ledger debitedLedger : Ledger) (account account' : AccountEntry) : Prop where
  before : ∃ payer, envelope.feePayer? = some payer ∧
    ledger.store.account? payer = some account ∧
    debitedLedger.store.account? payer = some account'
  balance : account'.balance = account.balance - (declaredResourceFee raw + envelope.baseFees)
  minBalance : account'.minBalance = account.minBalance
  available : declaredResourceFee raw + envelope.baseFees ≤ availableBalance account

theorem Accepted.payerDebited {d : Deps} {ledger ledger' debitedLedger operatedLedger : Ledger}
    {envelope : TransactionEnvelope} {passphrase : String} {validation : ValidationOptions}
    {outcome : TxOutcome} {a : Application} {v : Validated} {op : Operated}
    (hcharging : validation.feeCharging = true) (hkeyed : ledger.store.Keyed)
    (h : Accepted d ledger envelope passphrase validation outcome ledger' a v debitedLedger
      operatedLedger op) :
    ∃ account account', PayerDebited envelope a.raw ledger debitedLedger account account' := by
  obtain ⟨payer, hpayer, hcharge⟩ := (envelopeApplication_ok h.application).charge
  obtain ⟨c₁, c₂, hpassed⟩ := validate_ok h.validated
  have hdata := (checkShape_ok hpassed.shape).2.2.1
  have hdeclared : declaredResourceFee a.raw = v.sorobanData.resourceFee := by
    simp only [declaredResourceFee, hdata]
  rw [if_pos hcharging, upfront_eq h.application hpassed, ← hdeclared] at hcharge
  obtain ⟨account, account', hbefore, hafter, hbalance, hmin⟩ :=
    commitClassic_payer hcharge hkeyed h.classic
  have hbid := baseFees_le_bid h.application hpassed
  have havailable := payer_available hkeyed hcharging h.application hpassed hcharge hbefore
  rw [← hdeclared] at hbid
  exact ⟨account, account', ⟨payer, hpayer, hbefore, hafter⟩, hbalance, hmin,
    hbid.trans havailable⟩

/-- What is left is enough exactly if the part of the reserve that no check
counts fits in what the checks leave. -/
theorem PayerDebited.minBalance_le_iff {envelope : TransactionEnvelope} {raw : Transaction}
    {ledger debitedLedger : Ledger} {account account' : AccountEntry}
    (h : PayerDebited envelope raw ledger debitedLedger account account') :
    account'.minBalance ≤ account'.balance ↔
      account.uncheckedReserve ≤
        availableBalance account - (declaredResourceFee raw + envelope.baseFees) := by
  have hsplit := account.balance_sub_minBalance
  rw [h.balance, h.minBalance]
  omega

/-- **The payer's reserve.**  The payer of an accepted transaction is left with
its minimum balance and its selling liabilities exactly if its sponsorships
and liabilities, which no check counts, fit in what its available balance has
above the fee put down.  An account that sponsors no more entries than others
sponsor for it, and has nothing on offer, always is. -/
theorem payer_reserve_iff {d : Deps} {ledger ledger' : Ledger} (hkeyed : ledger.store.Keyed)
    {envelope : TransactionEnvelope} {passphrase : String} {validation : ValidationOptions}
    {outcome : TxOutcome} (hcharging : validation.feeCharging = true)
    (h : applyTransaction d envelope passphrase validation ledger = .ok outcome ledger')
    (haccepted : outcome.rejected = false) :
    ∃ a v debitedLedger operatedLedger op account account',
      Accepted d ledger envelope passphrase validation outcome ledger' a v debitedLedger
        operatedLedger op ∧
      PayerDebited envelope a.raw ledger debitedLedger account account' ∧
      (account'.minBalance ≤ account'.balance ↔
        account.uncheckedReserve ≤
          availableBalance account - (declaredResourceFee a.raw + envelope.baseFees)) ∧
      (account.uncheckedReserve ≤ 0 → account'.minBalance ≤ account'.balance) := by
  rcases applyTransaction_ok h with ⟨hrejected, -⟩ | ⟨-, a, v, l₁, l₂, op, hstages⟩
  · rw [hrejected] at haccepted
    cases haccepted
  obtain ⟨account, account', hpayer⟩ := hstages.payerDebited hcharging hkeyed
  refine ⟨a, v, l₁, l₂, op, account, account', hstages, hpayer, hpayer.minBalance_le_iff,
    fun hnone => ?_⟩
  have havailable := hpayer.available
  rw [hpayer.minBalance_le_iff]
  omega

/-- An account that sponsors entries, with two base reserves and the base fee. -/
def sponsoringAccount (seed : UInt8) (numSponsoring : Nat) : AccountEntry :=
  { sampleAccount seed with
    balance := 2 * baseReserve + 100
    ext := .v1 ⟨⟨0, 0⟩, .v2 ⟨0, numSponsoring, [], .v0⟩⟩ }

/-- A ledger with such an account. -/
def sponsoringLedger (numSponsoring : Nat) : Ledger :=
  emptyLedger.withAccount (sponsoringAccount 7 numSponsoring)

theorem sponsoringLedger_keyed (numSponsoring : Nat) :
    (sponsoringLedger numSponsoring).store.Keyed :=
  @Ledger.withAccount_keyed emptyLedger Store.Keyed.empty _

/-- The sample transaction's payer there is the account. -/
theorem PayerDebited.sponsoring {numSponsoring : Nat} {raw : Transaction} {debitedLedger : Ledger}
    {account account' : AccountEntry}
    (h : PayerDebited (.envelopeTypeTx (sampleEnvelope 7 1 none)) raw
      (sponsoringLedger numSponsoring) debitedLedger account account') :
    account = sponsoringAccount 7 numSponsoring := by
  obtain ⟨payer, hpayer, hbefore, -⟩ := h.before
  cases hpayer
  have hstored : (sponsoringLedger numSponsoring).store.account?
      (sampleEnvelope 7 1 none).tx.sourceId = some (sponsoringAccount 7 numSponsoring) := by
    unfold sponsoringLedger
    rw [Ledger.account?_withAccount]
    rfl
  exact Option.some.inj (hbefore.symm.trans hstored)

theorem payer_reserve_sample :
    ∃ outcome ledger', applyTransaction .idle (.envelopeTypeTx (sampleEnvelope 7 1 none)) "" {}
        (sponsoringLedger 0) = .ok outcome ledger' ∧
      ∃ a v debitedLedger operatedLedger op account account',
        Accepted .idle (sponsoringLedger 0) (.envelopeTypeTx (sampleEnvelope 7 1 none)) "" {}
          outcome ledger' a v debitedLedger operatedLedger op ∧
        PayerDebited (.envelopeTypeTx (sampleEnvelope 7 1 none)) a.raw (sponsoringLedger 0)
          debitedLedger account account' ∧
        account'.minBalance ≤ account'.balance := by
  obtain ⟨outcome, ledger', hrun, haccepted⟩ : ∃ outcome ledger',
      applyTransaction .idle (.envelopeTypeTx (sampleEnvelope 7 1 none)) "" {}
        (sponsoringLedger 0) = .ok outcome ledger' ∧ outcome.rejected = false :=
    ⟨_, _, rfl, rfl⟩
  obtain ⟨a, v, l₁, l₂, op, account, account', hstages, hpayer, -, hleft⟩ :=
    payer_reserve_iff (sponsoringLedger_keyed 0) rfl hrun haccepted
  refine ⟨outcome, ledger', hrun, a, v, l₁, l₂, op, account, account', hstages, hpayer,
    hleft ?_⟩
  rw [hpayer.sponsoring]
  decide

/-- One sponsored entry is enough: the payer is accepted with two base reserves
and the fee, and is left with less than the three it has to keep. -/
theorem payer_reserve_sponsoring :
    ∃ outcome ledger', applyTransaction .idle (.envelopeTypeTx (sampleEnvelope 7 1 none)) "" {}
        (sponsoringLedger 1) = .ok outcome ledger' ∧ outcome.rejected = false ∧
      ∃ a v debitedLedger operatedLedger op account account',
        Accepted .idle (sponsoringLedger 1) (.envelopeTypeTx (sampleEnvelope 7 1 none)) "" {}
          outcome ledger' a v debitedLedger operatedLedger op ∧
        PayerDebited (.envelopeTypeTx (sampleEnvelope 7 1 none)) a.raw (sponsoringLedger 1)
          debitedLedger account account' ∧
        account'.balance < account'.minBalance := by
  obtain ⟨outcome, ledger', hrun, haccepted⟩ : ∃ outcome ledger',
      applyTransaction .idle (.envelopeTypeTx (sampleEnvelope 7 1 none)) "" {}
        (sponsoringLedger 1) = .ok outcome ledger' ∧ outcome.rejected = false :=
    ⟨_, _, rfl, rfl⟩
  rcases applyTransaction_ok hrun with ⟨hrejected, -⟩ | ⟨-, a, v, l₁, l₂, op, hstages⟩
  · rw [hrejected] at haccepted
    cases haccepted
  obtain ⟨account, account', hpayer⟩ := hstages.payerDebited rfl (sponsoringLedger_keyed 1)
  refine ⟨outcome, ledger', hrun, haccepted, a, v, l₁, l₂, op, account, account', hstages, hpayer,
    ?_⟩
  have hraw : (sampleEnvelope 7 1 none).tx = a.raw :=
    Option.some.inj (envelopeApplication_ok hstages.application).innerTx
  rw [← not_le, hpayer.minBalance_le_iff, hpayer.sponsoring, ← hraw]
  decide

end LiteSoroban

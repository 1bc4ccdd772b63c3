import LiteSoroban.Classic.Atomicity
import LiteSoroban.Classic.FootprintSpec
import LiteSoroban.Env.SendTtl

/-!
# Where the fee goes

The payer puts down the declared resource fee and the base fee, the operation
consumes some of what is refundable, and the rest goes back.

Three checks in two languages hold the sum together.  The queue and the fee
bump make the bid cover the base fee, so what is put down does not depend on
the bid.  The declared fee covers the part that is not refundable.  And `send`
and `moveTtls` stop an operation that would consume more than is left.
-/

namespace LiteSoroban

open Effect

/-! ## What is put down -/

/-- The base fees of an envelope: one, and one more for a fee bump. -/
def TransactionEnvelope.baseFees (envelope : TransactionEnvelope) : Int :=
  baseFee * if envelope.isFeeBump then 2 else 1

/-- An envelope's bid covers its resource fee and its base fees. -/
theorem baseFees_le_bid {d : Deps} {ledger : Ledger} {envelope : TransactionEnvelope}
    {passphrase : String} {validation : ValidationOptions} {a : Application} {v : Validated}
    {c₁ c₂ : Option SignatureChecker}
    (happ : envelopeApplication d ledger envelope passphrase validation = .ok a)
    (hpassed : Passed d ledger a v c₁ c₂) :
    v.sorobanData.resourceFee + envelope.baseFees ≤ envelope.fullFee := by
  obtain ⟨hops, -, hdata, -⟩ := checkShape_ok hpassed.shape
  cases envelope with
  | envelopeTypeTxV0 xdr => cases happ
  | envelopeTypeTx v1 =>
    have hplain := (plainApplication_ok happ).1
    have hraw : v1.tx = a.raw := by simpa [TransactionEnvelope.innerTx?] using hplain.innerTx
    have hbid := checkFees_ok hpassed.fees hplain.feeBumped
    simp only [TransactionEnvelope.baseFees, TransactionEnvelope.isFeeBump,
      TransactionEnvelope.fullFee, hraw, Bool.false_eq_true, if_false]
    omega
  | envelopeTypeTxFeeBump feeBump =>
    obtain ⟨hunwrapped, -, feeAccount, checker, hbump⟩ := feeBumpApplication_ok happ
    have hraw : feeBump.tx.innerTx.tx = a.raw := by
      simpa [TransactionEnvelope.innerTx?] using hunwrapped.innerTx
    obtain ⟨-, hbid⟩ := checkBumpFees_ok hbump.fees
    rw [hraw, hops] at hbid
    simp only [declaredResourceFee, hdata, minInclusion, List.length_singleton] at hbid
    have htwo : ((max 1 (1 + 1) : Nat) : Int) = 2 := rfl
    rw [htwo] at hbid
    simp only [TransactionEnvelope.baseFees, TransactionEnvelope.isFeeBump,
      TransactionEnvelope.fullFee, if_true]
    omega

/-- What the payer puts down does not depend on the bid. -/
theorem upfront_eq {d : Deps} {ledger : Ledger} {envelope : TransactionEnvelope}
    {passphrase : String} {validation : ValidationOptions} {a : Application} {v : Validated}
    {c₁ c₂ : Option SignatureChecker}
    (happ : envelopeApplication d ledger envelope passphrase validation = .ok a)
    (hpassed : Passed d ledger a v c₁ c₂) :
    feeToCharge envelope.fullFee (declaredResourceFee a.raw) (chargedOperations envelope a.raw) =
      v.sorobanData.resourceFee + envelope.baseFees := by
  obtain ⟨hops, -, hdata, -⟩ := checkShape_ok hpassed.shape
  have hbid := baseFees_le_bid happ hpassed
  have hcap : minInclusion (chargedOperations envelope a.raw) = envelope.baseFees := by
    simp only [minInclusion, chargedOperations, hops, TransactionEnvelope.baseFees,
      List.length_singleton]
    split
    · rfl
    · rfl
  simp only [feeToCharge, hcap, declaredResourceFee, hdata]
  split <;> omega

/-! ## What is consumed -/

/-- What an operation consumed, under its cap. -/
structure Operated.Within (op : Operated) (max : Int) : Prop where
  rent_nonneg : 0 ≤ op.rent
  rent_le : op.rent ≤ op.refundable
  refundable_le : op.refundable ≤ max

/-- The rent of a footprint operation is the host's, under the installed
settings. -/
theorem computeRentFee_nonneg {d : Deps} {ledger : Ledger} {rows : List RentChange} {rent : Int}
    (hprices : ledger.env.PricesNonneg d) (h : ledger.computeRentFee d rows = .ok rent) :
    0 ≤ rent := by
  simp only [Ledger.computeRentFee, SorobanEnv.computeRentFeeFor, SorobanEnv.fees] at h
  cases hsettings : ledger.env.feeSettings with
  | none => simp [hsettings, bind, Except.bind] at h
  | some settings =>
    simp only [hsettings, bind, Except.bind, pure, Except.pure, Except.ok.injEq] at h
    rw [← h]
    exact hprices.rent settings hsettings _ _

/-- Whatever the operation is and however it ends, it consumes its rent and no
more than is refundable. -/
theorem runOperation_within {d : Deps} {v : Validated} {ledger ledger' : Ledger} {op : Operated}
    (hprices : ledger.env.PricesNonneg d) (hmax : 0 ≤ v.maxRefundable)
    (hword : v.maxRefundable ≤ 2 ^ 63 - 1)
    (h : runOperation d v (some v.maxRefundable) ledger = .ok op ledger') :
    op.Within v.maxRefundable := by
  rcases runOperation_ok h with hfailed | ⟨moves, rows, hmoved⟩ | ⟨_, _, sent, env, hinvoked⟩
  · refine ⟨?_, ?_, ?_⟩
    · rw [hfailed.rent]
    · rw [hfailed.rent, hfailed.refundable]
    · rw [hfailed.refundable]
      exact hmax
  · refine ⟨computeRentFee_nonneg hprices hmoved.rent, hmoved.refundable.ge, ?_⟩
    rw [hmoved.refundable]
    exact hmoved.covered _ rfl
  · rcases send_ok hinvoked.call with hfailed | ⟨_, _, _, consumed, _, hdone, _, hsent, _⟩
    · have := hfailed.ok.symm.trans hinvoked.ok
      cases this
    · obtain ⟨h₀, h₁, h₂⟩ := consumeRefundable_ok hprices hmax hword hdone.consumed
      rw [hinvoked.operated, hsent]
      exact ⟨h₀, h₁, h₂⟩

/-- The operation keeps the store keyed. -/
theorem runOperation_keyed {d : Deps} (hhost : d.ReturnsKeyed) {v : Validated}
    {cap : Option Int} {first ledger ledger' : Ledger} {op : Operated} {u : Unit}
    (hsoroban : v.op.body.isSoroban = true) (hshape : checkFootprintOp first v.toShaped = .ok u)
    (hkeyed : ledger.store.Keyed) (h : runOperation d v cap ledger = .ok op ledger') :
    ledger'.store.Keyed := by
  rcases runOperation_ok h with hfailed | ⟨moves, rows, hmoved⟩ |
    ⟨hostFunction, auth, sent, env, hinvoked⟩
  · obtain ⟨cache, hframe⟩ := hfailed.frame
    rw [hframe]
    exact hkeyed
  · exact (operationMoved_effect hkeyed hsoroban hshape hmoved).keyed
  · have hsent : (finalState (ledger.env.send d
        (invokeArgs v hostFunction auth cap))).store.Keyed := send_keyed hhost hkeyed
    rw [hinvoked.call] at hsent
    rw [hinvoked.frame]
    exact hsent

/-- An operation other than a host call that succeeded touches no account. -/
theorem runOperation_account? {d : Deps} {v : Validated} {cap : Option Int}
    {first ledger ledger' : Ledger} {op : Operated} {u : Unit}
    (hsoroban : v.op.body.isSoroban = true) (hshape : checkFootprintOp first v.toShaped = .ok u)
    (hkeyed : ledger.store.Keyed) (h : runOperation d v cap ledger = .ok op ledger')
    (hclassic : v.op.body.isInvoke = false ∨ op.outcome.ok = false) (id : AccountId) :
    ledger'.store.account? id = ledger.store.account? id := by
  rcases runOperation_ok h with hfailed | ⟨moves, rows, hmoved⟩ | ⟨_, _, sent, env, hinvoked⟩
  · obtain ⟨cache, hframe⟩ := hfailed.frame
    rw [hframe]
    rfl
  · exact (operationMoved_effect hkeyed hsoroban hshape hmoved).account? id
  · rcases hclassic with hbody | hok
    · rw [hinvoked.body] at hbody
      cases hbody
    · rw [hinvoked.operated] at hok
      have := hinvoked.ok.symm.trans hok
      cases this

/-- The operation of an accepted transaction consumes no more than its fee
covers. -/
theorem Accepted.refund_nonneg {d : Deps} {ledger ledger' l₁ l₂ : Ledger}
    {envelope : TransactionEnvelope} {passphrase : String} {validation : ValidationOptions}
    {outcome : TxOutcome} {a : Application} {v : Validated} {op : Operated} {charge : FeeCharge}
    (hprices : ledger.env.PricesNonneg d)
    (h : Accepted d ledger envelope passphrase validation outcome ledger' a v l₁ l₂ op)
    (hcharge : a.charge = some charge) : 0 ≤ refundOf v op := by
  obtain ⟨c₁, c₂, hpassed⟩ := validate_ok h.validated
  obtain ⟨refundable, hcompute, hcover⟩ := checkDeclaredFee_ok hcharge hpassed.declaredFee
  obtain ⟨settings, resources, hsettings, -, hfee⟩ := computeResourceFee_ok hcompute
  have hparts := hprices.resources settings hsettings resources
  rw [← hfee] at hparts
  obtain ⟨hnon, href⟩ : 0 ≤ v.nonRefundable ∧ 0 ≤ refundable := hparts
  have hrange := (xdrProvidesValidFee_ok hpassed.shape
    (envelopeApplication_ok h.application).validFee).2
  have hprices₁ : l₁.env.PricesNonneg d := by
    rw [(commitClassic_classicOnly h.classic).frame]
    exact ⟨hprices.resources, hprices.rent⟩
  have hoperated := h.operated
  rw [hcharge] at hoperated
  simp only [Validated.maxRefundable, maxResourceFee, refundOf] at hrange ⊢
  have hwithin := runOperation_within hprices₁ (by rw [Validated.maxRefundable]; omega)
    (by rw [Validated.maxRefundable]; omega) hoperated
  have hle := hwithin.refundable_le
  simp only [Validated.maxRefundable] at hle
  omega

/-! ## What is charged -/

/-- Every account's balance moves by what `change` says. -/
def BalancesMoved (ledger ledger' : Ledger) (change : AccountId → Int) : Prop :=
  ∀ id, ledger'.store.balance? id = (ledger.store.balance? id).map (· + change id)

/-- The fee of an accepted transaction, with `debitedLedger` and
`operatedLedger` the ledgers around its operation. -/
structure FeesSettled (d : Deps) (ledger : Ledger) (envelope : TransactionEnvelope)
    (outcome : TxOutcome) (ledger' : Ledger) (a : Application) (v : Validated)
    (debitedLedger operatedLedger : Ledger) (op : Operated) (payer : AccountId) : Prop where
  feePayer : envelope.feePayer? = some payer
  declared : declaredResourceFee a.raw = v.sorobanData.resourceFee
  /-- The part of the resource fee that is not refundable is the host's. -/
  nonRefundable : ∃ refundable, ledger.computeResourceFee d v.sorobanData a.txSize 0
    v.op.body.isRestore = .ok (v.nonRefundable, refundable)
  reported : outcome.sorobanFee = some ⟨v.nonRefundable, op.refundable, op.rent⟩
  refund_nonneg : 0 ≤ v.sorobanData.resourceFee - v.nonRefundable - op.refundable
  consumed : op.Within (v.sorobanData.resourceFee - v.nonRefundable)
  consumed_of_failed : outcome.ok = false → op.refundable = 0
  feeCharged : outcome.feeCharged = v.nonRefundable + op.refundable + envelope.baseFees
  feeCharged_le : outcome.feeCharged ≤ envelope.fullFee
  /-- The changes around the operation sum to the fee for the payer, and there
  are none for anyone else. -/
  balances : ∃ before after, BalancesMoved ledger debitedLedger before ∧
    BalancesMoved operatedLedger ledger' after ∧
    before payer + after payer = -outcome.feeCharged ∧
    ∀ id, id ≠ payer → before id = 0 ∧ after id = 0
  payerPresent : (ledger.store.balance? payer).isSome
  /-- Unless a host call succeeded, the operation in between moves no
  balance. -/
  unmoved : v.op.body.isInvoke = false ∨ outcome.ok = false →
    ∀ id, operatedLedger.store.balance? id = debitedLedger.store.balance? id

/-- **Fee accounting.**  An accepted transaction pays its non-refundable fee,
what its operation consumed, and its base fees, whatever it bid. -/
theorem applyTransaction_feesSettled {d : Deps} (hhost : d.ReturnsKeyed)
    {ledger ledger' : Ledger} (hkeyed : ledger.store.Keyed)
    (hprices : ledger.env.PricesNonneg d) {envelope : TransactionEnvelope} {passphrase : String}
    {validation : ValidationOptions} {outcome : TxOutcome}
    (hcharging : validation.feeCharging = true)
    (h : applyTransaction d envelope passphrase validation ledger = .ok outcome ledger')
    (haccepted : outcome.rejected = false) :
    ∃ a v debitedLedger operatedLedger op payer,
      Accepted d ledger envelope passphrase validation outcome ledger' a v debitedLedger
        operatedLedger op ∧
      FeesSettled d ledger envelope outcome ledger' a v debitedLedger operatedLedger op payer := by
  rcases applyTransaction_ok h with ⟨hrejected, -⟩ | ⟨-, a, v, l₁, l₂, op, hstages⟩
  · rw [hrejected] at haccepted
    cases haccepted
  have henvelope := envelopeApplication_ok hstages.application
  obtain ⟨payer, hpayer, hcharge⟩ := henvelope.charge
  rw [if_pos hcharging] at hcharge
  obtain ⟨c₁, c₂, hpassed⟩ := validate_ok hstages.validated
  obtain ⟨-, hsoroban, hdata, -⟩ := checkShape_ok hpassed.shape
  rw [upfront_eq hstages.application hpassed] at hcharge
  -- The declared fee covers the non-refundable part, and what is left is a word.
  obtain ⟨refundable, hcompute, hcover⟩ := checkDeclaredFee_ok hcharge hpassed.declaredFee
  obtain ⟨settings, resources, hsettings, -, hfee⟩ := computeResourceFee_ok hcompute
  have hparts := hprices.resources settings hsettings resources
  rw [← hfee] at hparts
  obtain ⟨hnon, href⟩ : 0 ≤ v.nonRefundable ∧ 0 ≤ refundable := hparts
  have hrange := (xdrProvidesValidFee_ok hpassed.shape henvelope.validFee).2
  have hmax : 0 ≤ v.maxRefundable := by
    simp only [Validated.maxRefundable]
    omega
  have hword : v.maxRefundable ≤ 2 ^ 63 - 1 := by
    simp only [Validated.maxRefundable, maxResourceFee] at hrange ⊢
    omega
  -- The three stages.
  have hcommitted := commitClassic_effect hkeyed hstages.classic
  have hprices₁ : l₁.env.PricesNonneg d := by
    rw [hcommitted.frame]
    exact ⟨hprices.resources, hprices.rent⟩
  have hoperated := hstages.operated
  rw [hcharge] at hoperated
  have hwithin := runOperation_within hprices₁ hmax hword hoperated
  have hkeyed₂ := runOperation_keyed hhost hsoroban hpassed.footprintOp hcommitted.keyed hoperated
  obtain ⟨inner, hsettle, -⟩ := hstages.settled
  have hsettled := settle_effect hkeyed₂ hsettle
  obtain ⟨hok, hcharged, hreported⟩ := hstages.feeCharged
  rw [hcharge] at hcharged hreported
  have hrefund : 0 ≤ refundOf v op := by
    have := hwithin.refundable_le
    simp only [refundOf]
    omega
  have hpays : outcome.feeCharged = v.nonRefundable + op.refundable + envelope.baseFees := by
    rw [hcharged]
    simp only [refundOf, Validated.maxRefundable]
    omega
  refine ⟨a, v, l₁, l₂, op, payer, hstages, hpayer, ?_, ⟨refundable, hcompute⟩, hreported, ?_,
    hwithin, fun hfailed => ?_, hpays, ?_, ?_, ?_, fun hclassic id => ?_⟩
  · simp only [declaredResourceFee, hdata]
  · exact hrefund
  · exact (operationFailed_of_not_ok hoperated (hok.symm.trans hfailed)).refundable
  · have hbid := baseFees_le_bid hstages.application hpassed
    have := hwithin.refundable_le
    simp only [Validated.maxRefundable] at this
    omega
  · refine ⟨fun id => -a.upfrontOf id, a.refundTo v op, fun id => ?_, hsettled.balance, ?_,
      fun id hid => ?_⟩
    · rw [hcommitted.balance]
      rfl
    · simp only [hcharged, Application.upfrontOf, Application.refundTo, hcharge, if_true,
        max_eq_right hrefund]
      omega
    · simp only [Application.upfrontOf, Application.refundTo, hcharge, if_neg hid, neg_zero,
        and_self]
  · have := hcommitted.payer _ hcharge
    rw [Store.balance?, Option.isSome_map]
    exact this
  · rw [hok] at hclassic
    rw [Store.balance?, Store.balance?,
      runOperation_account? hsoroban hpassed.footprintOp hcommitted.keyed hoperated hclassic]

/-! ## A bump that is refunded -/

/-- A host that asks for ten stroops whatever the resources are, and for thirty
for each entry that is rented. -/
def pricedHost : Deps :=
  { Deps.idle with
    entrySize := fun _ => 100
    computeTransactionResourceFee := fun _ _ => (10, 0)
    computeRentFee := fun changes _ _ => 30 * changes.length }

/-- Two accounts, and a balance that has fifty ledgers left. -/
def rentedLedger : Ledger :=
  let ledger := (sampleLedger 7).withAccount (sampleAccount 8)
  ledger.withStore (ledger.store.insert (balanceKey .persistent)
    ⟨⟨900, .contractData ⟨⟨[1]⟩, ⟨[2]⟩, .persistent, ⟨[3]⟩⟩, .v0⟩, some 1050⟩)

/-- A fee bump over an extension of that balance, which declares a resource fee
of sixty stroops. -/
def rentedFeeBump : FeeBumpTransactionEnvelope :=
  let feeBump := sampleFeeBump 7 8 5000
  let innerTx := feeBump.tx.innerTx
  { feeBump with tx := { feeBump.tx with innerTx := { innerTx with tx := { innerTx.tx with
      fee := 160
      ext := .sorobanData ⟨.v0, ⟨⟨[balanceKey .persistent], []⟩, 0, 100, 0⟩, 60⟩ } } } }

/-- Ten stroops stay and thirty are rent.  Twenty go back, and the base fee is
paid twice, however high the bids. -/
theorem applyTransaction_feesSettled_bump :
    ∃ outcome ledger',
      applyTransaction pricedHost (.envelopeTypeTxFeeBump rentedFeeBump) "" {} rentedLedger =
        .ok outcome ledger' ∧
      outcome.sorobanFee = some ⟨10, 30, 30⟩ ∧ outcome.feeCharged = 240 := by
  have hhost : pricedHost.ReturnsKeyed := fun input ch h => absurd h (idle_returns input ch)
  have hkeyed : rentedLedger.store.Keyed :=
    Store.Keyed.insert (Ledger.withAccount_keyed (sampleLedger_keyed 7) _) rfl
  have hprices : rentedLedger.env.PricesNonneg pricedHost :=
    ⟨fun _ _ _ => ⟨(by decide : (0 : Int) ≤ 10), le_rfl⟩, fun _ _ changes _ => by
      show 0 ≤ 30 * (changes.length : Int)
      omega⟩
  obtain ⟨outcome, ledger', hrun, haccepted, hfee⟩ : ∃ outcome ledger',
      applyTransaction pricedHost (.envelopeTypeTxFeeBump rentedFeeBump) "" {} rentedLedger =
        .ok outcome ledger' ∧
      outcome.rejected = false ∧ outcome.sorobanFee = some ⟨10, 30, 30⟩ :=
    ⟨_, _, rfl, rfl, rfl⟩
  obtain ⟨a, v, _, _, op, payer, -, hsettled⟩ :=
    applyTransaction_feesSettled hhost hkeyed hprices rfl hrun haccepted
  have hparts := hsettled.reported.symm.trans hfee
  simp only [Option.some.injEq, SorobanFee.mk.injEq] at hparts
  refine ⟨outcome, ledger', hrun, hfee, ?_⟩
  rw [hsettled.feeCharged, hparts.1, hparts.2.1]
  rfl

end LiteSoroban

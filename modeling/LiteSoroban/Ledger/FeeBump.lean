import LiteSoroban.Classic.FeeAccounting
import LiteSoroban.Ledger.Independent

/-!
# A fee bump and the transaction it wraps

A fee bump says who pays for a transaction, and bids for it.  `applyFeeBump`
has checks of its own, and then hands the inner transaction to the same
`applyInner` a plain envelope goes to.

`feeBump_transparent` compares the two on one ledger, for a transaction that is
accepted on its own.

* If its fee bump is rejected, one of the fee bump's own checks rejects it.
* If its fee bump is accepted, the operation does the same.  The outcome is the
  same but for the codes and the fee, which is one base fee more, and so is the
  ledger once both fees are given back.

The operation must not see who pays, so the two payers stay out of the
footprint.
-/

namespace LiteSoroban

open Effect

/-- The transaction a fee bump wraps, on its own. -/
def FeeBumpTransactionEnvelope.inner (feeBump : FeeBumpTransactionEnvelope) :
    TransactionEnvelope :=
  .envelopeTypeTx feeBump.tx.innerTx

/-- The account that pays for the inner transaction on its own. -/
def FeeBumpTransactionEnvelope.sourceId (feeBump : FeeBumpTransactionEnvelope) : AccountId :=
  feeBump.tx.innerTx.tx.sourceId

/-- The account that pays for the fee bump. -/
def FeeBumpTransactionEnvelope.feeSourceId (feeBump : FeeBumpTransactionEnvelope) : AccountId :=
  muxedToAccountId feeBump.tx.feeSource

/-! ## The checks -/

theorem validate_of_passed {d : Deps} {ledger : Ledger} {a : Application} {v : Validated}
    {c₁ c₂ : Option SignatureChecker} (h : Passed d ledger a v c₁ c₂) :
    validate d ledger a = .ok v := by
  simp only [validate, Except.bind_eq_ok, Check.problem_eq_ok]
  exact ⟨_, h.shape, (), h.resources, _, h.declaredFee, (), h.bounds, _, h.sources, (),
    h.sequence, (), h.age, _, h.signedTransaction, (), h.fees, _, h.signedOperation, (),
    h.footprintOp, (), h.allUsed, rfl⟩

/-- What `applyInner` is given for a fee bump and for what it wraps. -/
theorem feeBumpApplication_inner {d : Deps} {ledger : Ledger} {passphrase : String}
    {validation : ValidationOptions} {feeBump : FeeBumpTransactionEnvelope} {a b : Application}
    (hinner : plainApplication d passphrase validation feeBump.tx.innerTx = .ok a)
    (hbump : feeBumpApplication d ledger passphrase validation feeBump = .ok b) :
    b = { a with feeBumped := true, charge := b.charge } ∧
      b.charge.isSome = a.charge.isSome := by
  simp only [plainApplication, Except.bind_eq_ok] at hinner
  obtain ⟨_, -, hinner⟩ := hinner
  split at hinner
  · cases hinner
  split at hinner
  · cases hinner
  cases hinner
  simp only [feeBumpApplication, Except.bind_eq_ok] at hbump
  obtain ⟨_, -, _, -, hbump⟩ := hbump
  split at hbump
  · cases hbump
  split at hbump
  · cases hbump
  simp only [Except.bind_eq_ok] at hbump
  obtain ⟨_, -, feeAccount, -, hbump⟩ := hbump
  cases feeAccount with
  | none => cases hbump
  | some feeAccount =>
    simp only [Except.bind_eq_ok] at hbump
    obtain ⟨_, -, _, -, _, -, hbump⟩ := hbump
    cases hbump
    refine ⟨rfl, ?_⟩
    cases validation.feeCharging <;> rfl

/-- Who pays is no part of what the checks hand over. -/
theorem Passed.bumped {d : Deps} {ledger : Ledger} {a : Application} {v : Validated}
    {c₁ c₂ : Option SignatureChecker} (h : Passed d ledger a v c₁ c₂)
    {charge : Option FeeCharge} (hcharge : charge.isSome = a.charge.isSome) :
    Passed d ledger { a with feeBumped := true, charge := charge } v c₁ c₂ where
  shape := h.shape
  resources := h.resources
  declaredFee := by
    have hfee := h.declaredFee
    unfold checkDeclaredFee at hfee ⊢
    cases hbefore : a.charge with
    | none =>
      rw [hbefore] at hcharge hfee
      obtain rfl : charge = none := by simpa using hcharge
      exact hfee
    | some before =>
      rw [hbefore] at hcharge hfee
      obtain ⟨after, rfl⟩ := Option.isSome_iff_exists.mp hcharge
      exact hfee
  bounds := h.bounds
  sources := h.sources
  sequence := h.sequence
  age := h.age
  signedTransaction := h.signedTransaction
  fees := by
    unfold checkFees
    cases charge <;> rfl
  signedOperation := h.signedOperation
  footprintOp := h.footprintOp
  allUsed := h.allUsed

/-! ## What an accepted transaction does to its accounts -/

/-- The account with an amount on top. -/
def credited (amount : Int) (account : AccountEntry) : AccountEntry :=
  { account with balance := account.balance + amount }

theorem map_credited_zero (slot : Option AccountEntry) : slot.map (credited 0) = slot := by
  cases slot with
  | none => rfl
  | some account =>
    show some { account with balance := account.balance + 0 } = some account
    rw [add_zero]

theorem map_debited_zero (slot : Option AccountEntry) : slot.map (debited 0) = slot := by
  cases slot with
  | none => rfl
  | some account =>
    show some { account with balance := account.balance - 0 } = some account
    rw [sub_zero]

/-- A fee given back after its debit and its refund. -/
theorem map_credited_debited (slot : Option AccountEntry) (upfront refund : Int) :
    ((slot.map (debited upfront)).map (debited (-refund))).map (credited (upfront - refund)) =
      slot := by
  cases slot with
  | none => rfl
  | some account =>
    simp only [Option.map_some, credited, debited, Option.some.injEq]
    congr 1
    omega

/-- What an account has paid for a transaction. -/
def TransactionEnvelope.paidBy (envelope : TransactionEnvelope) (outcome : TxOutcome)
    (id : AccountId) : Int :=
  if envelope.feePayer? = some id then outcome.feeCharged else 0

/-- Whom an application charges. -/
theorem Unwrapped.payer_eq {d : Deps} {envelope : TransactionEnvelope} {passphrase : String}
    {validation : ValidationOptions} {a : Application}
    (h : Unwrapped d envelope passphrase validation a) {payer : AccountId}
    (hpayer : envelope.feePayer? = some payer) {charge : FeeCharge}
    (hcharge : a.charge = some charge) : payer = charge.payer := by
  obtain ⟨payer', hpayer', hpays⟩ := h.charge
  cases hpayer.symm.trans hpayer'
  rw [hcharge] at hpays
  split at hpays
  · cases hpays
    rfl
  · cases hpays

section Accounts

variable {d : Deps} {codes : Set Bytes} {ledger ledger' debitedLedger operatedLedger : Ledger}
  {envelope : TransactionEnvelope} {passphrase : String} {validation : ValidationOptions}
  {outcome : TxOutcome} {a : Application} {v : Validated} {op : Operated}

/-- The operation leaves an account outside its footprint alone. -/
theorem Accepted.operated_account?
    (h : Accepted d ledger envelope passphrase validation outcome ledger' a v debitedLedger
      operatedLedger op)
    (hkeyedHost : d.ReturnsKeyed) (hreturns : d.ReturnsFootprint)
    (hkeyed : debitedLedger.store.Keyed) {id : AccountId}
    (hid : .account id ∉ v.sorobanData.resources.footprint.keys) :
    operatedLedger.store.Keyed ∧
      operatedLedger.store.account? id = debitedLedger.store.account? id := by
  obtain ⟨_, _, hpassed⟩ := validate_ok h.validated
  have hsoroban := (checkShape_ok hpassed.shape).2.1
  have hwrites := runOperation_writesOnly hkeyedHost hreturns (a.charge.map fun _ => v.maxRefundable)
    hsoroban hpassed.footprintOp debitedLedger hkeyed
  rw [h.operated] at hwrites
  refine ⟨hwrites.1, ?_⟩
  unfold Store.account?
  rw [← finalState_ok (a := op) (s := operatedLedger), hwrites.2 _ fun hmem =>
    hid (v.sorobanData.resources.footprint.access.sub hmem)]

/-- An account outside the footprint, once it has back what it has paid, is
what it was, with its sequence number bumped if it is the source. -/
theorem Accepted.account?
    (h : Accepted d ledger envelope passphrase validation outcome ledger' a v debitedLedger
      operatedLedger op)
    (hkeyedHost : d.ReturnsKeyed) (hreturns : d.ReturnsFootprint) (hkeyed : ledger.store.Keyed)
    (hprices : ledger.env.PricesNonneg d) {id : AccountId}
    (hid : .account id ∉ v.sorobanData.resources.footprint.keys) :
    (ledger'.store.account? id).map (credited (envelope.paidBy outcome id)) =
      if id = a.raw.sourceId then
        (ledger.store.account? id).map (bumped ledger (a.nextSeqNum v.account))
      else ledger.store.account? id := by
  obtain ⟨mid, hmid, hdebit⟩ := commitClassic_ok hkeyed h.classic
  obtain ⟨hkeyed₂, hop⟩ := h.operated_account? hkeyedHost hreturns
    (commitClassic_effect hkeyed h.classic).keyed hid
  obtain ⟨-, hfee, -⟩ := h.feeCharged
  obtain ⟨inner, hsettle, -⟩ := h.settled
  rw [← hmid.accounts]
  cases hcase : a.charge with
  | none =>
    rw [hcase] at hdebit hfee hsettle
    have hzero : envelope.paidBy outcome id = 0 := by
      unfold TransactionEnvelope.paidBy
      rw [hfee, ite_self]
    rw [hzero, map_credited_zero, (settle_none hsettle).2, hop, hdebit]
  | some charge =>
    have hunwrapped := envelopeApplication_ok h.application
    obtain ⟨payer, hpayer, -⟩ := hunwrapped.charge
    have hpays := hunwrapped.payer_eq hpayer hcase
    have hrefund := h.refund_nonneg hprices hcase
    rw [hcase] at hdebit hfee hsettle
    unfold TransactionEnvelope.paidBy
    rw [hpayer, hpays, hfee]
    -- The refund, the operation and the debit, from the last to the first.
    have hend : ledger'.store.account? id = if id = charge.payer then
        (operatedLedger.store.account? id).map (debited (-refundOf v op))
        else operatedLedger.store.account? id := by
      rcases giveBack_ok hkeyed₂ (settle_some hsettle).1 with ⟨-, hgive⟩ | ⟨hnone, hsame⟩
      · exact hgive.accounts id
      · have hzero : refundOf v op = 0 := le_antisymm hnone hrefund
        rw [hsame, hzero, neg_zero, map_debited_zero, ite_self]
    rw [hend, hop, hdebit.accounts]
    by_cases hpaid : id = charge.payer
    · rw [if_pos hpaid, if_pos hpaid, if_pos (by rw [hpaid])]
      exact map_credited_debited _ _ _
    · rw [if_neg hpaid, if_neg hpaid, if_neg fun heq => hpaid (Option.some.inj heq).symm,
        map_credited_zero]

end Accounts

/-! ## The two applications -/

/-- Settling for one payer or another changes the fee. -/
theorem settle_alike {d : Deps} {v : Validated} {charge charge' : Option FeeCharge}
    {op : Operated} {outcome outcome' : TxOutcome} {ledger after ledger' after' : Ledger}
    (hcharge : charge'.isSome = charge.isSome)
    (h : settle d v charge op ledger = .ok outcome after)
    (h' : settle d v charge' op ledger' = .ok outcome' after') :
    outcome' = { outcome with feeCharged := outcome'.feeCharged } := by
  cases charge with
  | none =>
    obtain rfl : charge' = none := by simpa using hcharge
    obtain ⟨rfl, -⟩ := settle_none h
    obtain ⟨rfl, -⟩ := settle_none h'
    rfl
  | some charge =>
    obtain ⟨charge', rfl⟩ := Option.isSome_iff_exists.mp hcharge
    obtain ⟨-, rfl⟩ := settle_some h
    obtain ⟨-, rfl⟩ := settle_some h'
    rfl

/-- An accepted fee bump, beside the transaction it wraps on its own. -/
structure FeeBumpTransactionEnvelope.Transparent (feeBump : FeeBumpTransactionEnvelope)
    (validation : ValidationOptions) (plain bump : TxOutcome) (after afterBump : Ledger) :
    Prop where
  outcome : bump = { plain with
    code := if plain.ok then .txFEE_BUMP_INNER_SUCCESS else .txFEE_BUMP_INNER_FAILED
    innerCode := some plain.code
    feeCharged := bump.feeCharged }
  fee : bump.feeCharged = plain.feeCharged + if validation.feeCharging then baseFee else 0
  /-- The ledgers differ in the store and the module cache at most. -/
  beside : after.StoreOnly afterBump
  others : ∀ key, key ≠ .account feeBump.sourceId → key ≠ .account feeBump.feeSourceId →
    afterBump.store.lookup key = after.store.lookup key
  /-- Once both payers have their fee back, the accounts are the same. -/
  accounts : ∀ id,
    (afterBump.store.account? id).map
        (credited ((TransactionEnvelope.envelopeTypeTxFeeBump feeBump).paidBy bump id)) =
      (after.store.account? id).map (credited (feeBump.inner.paidBy plain id))

section Compared

variable {d : Deps} {codes : Set Bytes} {ledger after afterBump l₁ l₂ m₁ m₂ : Ledger}
  {feeBump : FeeBumpTransactionEnvelope} {passphrase : String} {validation : ValidationOptions}
  {plain bump : TxOutcome} {a b : Application} {v : Validated} {op op' : Operated}

/-- A step that writes the store leaves a ledger that agrees under the keys it
does not write. -/
theorem Ledger.agreeOn_withStore {ledger' : Ledger} {keys : Set LedgerKey}
    (h : ledger.store.Keyed ∧ ledger.env.CacheParsed d codes) (hkeyed : ledger'.store.Keyed)
    (hframe : ledger' = ledger.withStore ledger'.store)
    (hothers : ∀ key ∈ keys, ledger'.store.lookup key = ledger.store.lookup key) :
    (d.ledgerTable codes).AgreeOn keys ledger ledger' := by
  have hcache : ledger'.env.CacheParsed d codes := by
    rw [hframe]
    exact h.2
  exact ⟨⟨⟨ledger'.store, ledger.env.moduleCache, hframe⟩, h, hkeyed, hcache⟩,
    fun key hkey => (hothers key hkey).symm⟩

/-- The keys of everything but the two payers. -/
def FeeBumpTransactionEnvelope.unpaid (feeBump : FeeBumpTransactionEnvelope) : Set LedgerKey :=
  {key | key ≠ .account feeBump.sourceId ∧ key ≠ .account feeBump.feeSourceId}

/-- The operation does the same under a fee bump. -/
theorem Accepted.operated_alike (hd : d.CallsLocally codes) (hledger : ledger.Addressed d codes)
    (hplain : Accepted d ledger feeBump.inner passphrase validation plain after a v l₁ l₂ op)
    (hbump : Accepted d ledger (.envelopeTypeTxFeeBump feeBump) passphrase validation bump
      afterBump b v m₁ m₂ op')
    (hapart : ∀ key ∈ v.sorobanData.resources.footprint.keys, key ∈ feeBump.unpaid) :
    op' = op ∧ (d.ledgerTable codes).AgreeOn feeBump.unpaid l₂ m₂ := by
  obtain ⟨-, hsome⟩ := feeBumpApplication_inner hplain.application hbump.application
  have hunwrapped := envelopeApplication_ok hplain.application
  have hunwrapped' := envelopeApplication_ok hbump.application
  have hraw : feeBump.tx.innerTx.tx = a.raw := Option.some.inj hunwrapped.innerTx
  have hraw' : feeBump.tx.innerTx.tx = b.raw := Option.some.inj hunwrapped'.innerTx
  have hcommitted := commitClassic_effect hledger.keyed hplain.classic
  have hcommitted' := commitClassic_effect hledger.keyed hbump.classic
  have hstart : (d.ledgerTable codes).AgreeOn feeBump.unpaid ledger l₁ := by
    refine Ledger.agreeOn_withStore ⟨hledger.keyed, hledger.cache⟩ hcommitted.keyed
      hcommitted.frame fun key hkey => hcommitted.others key ?_ fun charge hcharge => ?_
    · rw [← hraw]
      exact hkey.1
    · rw [← hunwrapped.payer_eq rfl hcharge]
      exact hkey.1
  have hstart' : (d.ledgerTable codes).AgreeOn feeBump.unpaid ledger m₁ := by
    refine Ledger.agreeOn_withStore ⟨hledger.keyed, hledger.cache⟩ hcommitted'.keyed
      hcommitted'.frame fun key hkey => hcommitted'.others key ?_ fun charge hcharge => ?_
    · rw [← hraw']
      exact hkey.1
    · rw [← hunwrapped'.payer_eq rfl hcharge]
      exact hkey.2
  have hagree : (d.ledgerTable codes).AgreeOn feeBump.unpaid l₁ m₁ :=
    ⟨(d.ledgerTable codes).trans ((d.ledgerTable codes).symm hstart.beside) hstart'.beside,
      fun key hkey => (hstart.lookup key hkey).symm.trans (hstart'.lookup key hkey)⟩
  have hcap : (b.charge.map fun _ => v.maxRefundable) = a.charge.map fun _ => v.maxRefundable := by
    cases hcharge : a.charge with
    | none =>
      rw [hcharge] at hsome
      obtain hnone : b.charge = none := by simpa using hsome
      rw [hnone, Option.map_none]
    | some charge =>
      rw [hcharge] at hsome
      obtain ⟨charge', hcharge'⟩ := Option.isSome_iff_exists.mp hsome
      rw [hcharge', Option.map_some]
      rfl
  have hops := runOperation_agreeOn hd.reads hd.hashes hd.keyed hd.footprint hagree
    (hstart.sound fun key _ => hledger.code key) v (a.charge.map fun _ => v.maxRefundable) hapart
  have hoperated := hbump.operated
  rw [hcap] at hoperated
  rw [hplain.operated, hoperated] at hops
  exact ⟨Except.ok.inj hops.answers, hops.ends⟩

/-- Two base fees are put down for a fee bump, and one for what it wraps. -/
theorem Accepted.fee_bumped
    (hplain : Accepted d ledger feeBump.inner passphrase validation plain after a v l₁ l₂ op)
    (hbump : Accepted d ledger (.envelopeTypeTxFeeBump feeBump) passphrase validation bump
      afterBump b v m₁ m₂ op) :
    bump.feeCharged = plain.feeCharged + if validation.feeCharging then baseFee else 0 := by
  obtain ⟨_, _, hpassed⟩ := validate_ok hplain.validated
  obtain ⟨_, _, hpassed'⟩ := validate_ok hbump.validated
  obtain ⟨_, -, hcharge⟩ := (envelopeApplication_ok hplain.application).charge
  obtain ⟨_, -, hcharge'⟩ := (envelopeApplication_ok hbump.application).charge
  rw [upfront_eq hplain.application hpassed] at hcharge
  rw [upfront_eq hbump.application hpassed'] at hcharge'
  rw [hplain.feeCharged.2.1, hbump.feeCharged.2.1, hcharge, hcharge']
  cases validation.feeCharging with
  | false => rfl
  | true =>
    have hone : feeBump.inner.baseFees = baseFee := mul_one _
    have htwo : (TransactionEnvelope.envelopeTypeTxFeeBump feeBump).baseFees = baseFee * 2 := rfl
    simp only [if_true, hone, htwo]
    omega

/-- An accepted fee bump of a transaction that is accepted on its own. -/
theorem Accepted.transparent (hd : d.CallsLocally codes) (hledger : ledger.Addressed d codes)
    (hprices : ledger.env.PricesNonneg d)
    (hplain : Accepted d ledger feeBump.inner passphrase validation plain after a v l₁ l₂ op)
    (hbump : Accepted d ledger (.envelopeTypeTxFeeBump feeBump) passphrase validation bump
      afterBump b v m₁ m₂ op')
    (hapart : ∀ key ∈ v.sorobanData.resources.footprint.keys, key ∈ feeBump.unpaid) :
    feeBump.Transparent validation plain bump after afterBump := by
  obtain ⟨rfl, hagree⟩ := hplain.operated_alike hd hledger hbump hapart
  obtain ⟨hb, hsome⟩ := feeBumpApplication_inner hplain.application hbump.application
  have hunwrapped := envelopeApplication_ok hplain.application
  have hunwrapped' := envelopeApplication_ok hbump.application
  obtain ⟨inner, hsettle, hinner⟩ := hplain.settled
  obtain ⟨inner', hsettle', hinner'⟩ := hbump.settled
  have hsettled := settle_effect hagree.beside.2.1.1 hsettle
  have hsettled' := settle_effect hagree.beside.2.2.1 hsettle'
  have hback : (d.ledgerTable codes).AgreeOn feeBump.unpaid l₂ after := by
    refine Ledger.agreeOn_withStore hagree.beside.2.1 hsettled.keyed hsettled.frame fun key hkey =>
      hsettled.others key fun charge hcharge => ?_
    rw [← hunwrapped.payer_eq rfl hcharge]
    exact hkey.1
  have hback' : (d.ledgerTable codes).AgreeOn feeBump.unpaid m₂ afterBump := by
    refine Ledger.agreeOn_withStore hagree.beside.2.2 hsettled'.keyed hsettled'.frame
      fun key hkey => hsettled'.others key fun charge hcharge => ?_
    rw [← hunwrapped'.payer_eq rfl hcharge]
    exact hkey.2
  have hend : (d.ledgerTable codes).Beside after afterBump :=
    (d.ledgerTable codes).trans ((d.ledgerTable codes).symm hback.beside)
      ((d.ledgerTable codes).trans hagree.beside hback'.beside)
  have hlookup : ∀ key ∈ feeBump.unpaid,
      after.store.lookup key = afterBump.store.lookup key := fun key hkey =>
    (hback.lookup key hkey).symm.trans ((hagree.lookup key hkey).trans (hback'.lookup key hkey))
  refine ⟨?_, hplain.fee_bumped hbump, hend.1,
    fun key hsource hpayer => (hlookup key ⟨hsource, hpayer⟩).symm, fun id => ?_⟩
  · have halike := settle_alike hsome hsettle hsettle'
    have hplainly : a.feeBumped = false := hunwrapped.feeBumped
    have hbumped : b.feeBumped = true := hunwrapped'.feeBumped
    have hkept : inner'.rejected = false :=
      (settle_outcome hsettle').1.trans (runOperation_rejected hbump.operated)
    rw [hplainly, if_neg Bool.false_ne_true] at hinner
    rw [hbumped, if_pos rfl] at hinner'
    rw [hinner', hinner, bumpOutcome, if_neg (by rw [hkept]; exact Bool.false_ne_true), halike]
  · by_cases hid : .account id ∈ v.sorobanData.resources.footprint.keys
    · obtain ⟨hsource, hpayer⟩ := hapart _ hid
      have hzero : (TransactionEnvelope.envelopeTypeTxFeeBump feeBump).paidBy bump id = 0 :=
        if_neg fun heq => hpayer (congrArg _ (Option.some.inj heq).symm)
      have hzero' : feeBump.inner.paidBy plain id = 0 :=
        if_neg fun heq => hsource (congrArg _ (Option.some.inj heq).symm)
      unfold Store.account?
      rw [hzero, hzero', hlookup _ (hapart _ hid)]
    · rw [hplain.account? hd.keyed hd.footprint hledger.keyed hprices hid,
        hbump.account? hd.keyed hd.footprint hledger.keyed hprices hid, hb]
      rfl

end Compared

/-- **Fee bumps.**  Take a transaction that is accepted on its own, whose
footprint has neither payer in it.  Its fee bump is rejected by a check of the
fee bump alone, or it does what the transaction does on its own, for one base
fee more and at the expense of another account. -/
theorem feeBump_transparent {d : Deps} {codes : Set Bytes} (hd : d.CallsLocally codes)
    {ledger after afterBump : Ledger} (hledger : ledger.Addressed d codes)
    (hprices : ledger.env.PricesNonneg d)
    {feeBump : FeeBumpTransactionEnvelope} {passphrase : String} {validation : ValidationOptions}
    {plain bump : TxOutcome}
    (hplain : applyTransaction d feeBump.inner passphrase validation ledger = .ok plain after)
    (haccepted : plain.rejected = false)
    (hapart : ∀ key ∈ feeBump.inner.footprint.keys, key ∈ feeBump.unpaid)
    (hbump : applyTransaction d (.envelopeTypeTxFeeBump feeBump) passphrase validation ledger =
      .ok bump afterBump) :
    (bump.rejected = true → ∃ own,
      feeBumpApplication d ledger passphrase validation feeBump = .error (.reject own) ∧
        bump = seedFee (.envelopeTypeTxFeeBump feeBump) own) ∧
      (bump.rejected = false → feeBump.Transparent validation plain bump after afterBump) := by
  rcases applyTransaction_ok hplain with ⟨hrejected, -⟩ | ⟨-, a, v, l₁, l₂, op, hstages⟩
  · rw [haccepted] at hrejected
    cases hrejected
  obtain ⟨_, _, hpassed⟩ := validate_ok hstages.validated
  -- What a fee bump hands to `applyInner` passes there as it does on its own.
  have hvalidated : ∀ b, feeBumpApplication d ledger passphrase validation feeBump = .ok b →
      validate d ledger b = .ok v := by
    intro b happ
    obtain ⟨hb, hsome⟩ := feeBumpApplication_inner hstages.application happ
    rw [hb]
    exact validate_of_passed (hpassed.bumped hsome)
  constructor
  · intro hrejected
    rcases applyTransaction_rejected hbump hrejected with hown | ⟨b, inner, happ, hval, -⟩
    · exact hown
    · rw [hvalidated b happ] at hval
      cases hval
  · intro haccepted'
    rcases applyTransaction_ok hbump with ⟨hrejected, -⟩ | ⟨-, b, w, m₁, m₂, op', hstages'⟩
    · rw [haccepted'] at hrejected
      cases hrejected
    · cases (hvalidated b hstages'.application).symm.trans hstages'.validated
      refine hstages.transparent hd hledger hprices hstages' fun key hkey => hapart key ?_
      have hfootprint := (envelopeApplication_ok hstages.application).named.footprint _
        (checkShape_ok hpassed.shape).2.2.1
      rw [hfootprint]
      exact hkey

/-- A fee bump over `slotEnvelope`, paid from another account. -/
def slotFeeBump : FeeBumpTransactionEnvelope where
  tx :=
    { feeSource := .keyTypeEd25519 (List.replicate 32 8)
      fee := 5000
      innerTx := slotEnvelope 7 1 }
  signatures := [sampleSignature 8]

theorem feeBump_transparent_slot :
    ∃ plain bump after afterBump,
      applyTransaction stampingDeps slotFeeBump.inner "" {} twoAccounts = .ok plain after ∧
      applyTransaction stampingDeps (.envelopeTypeTxFeeBump slotFeeBump) "" {} twoAccounts =
        .ok bump afterBump ∧
      plain.ok = true ∧ bump.feeCharged = 200 ∧
      slotFeeBump.Transparent {} plain bump after afterBump := by
  obtain ⟨plain, after, hplain, haccepted, hok⟩ : ∃ plain after,
      applyTransaction stampingDeps slotFeeBump.inner "" {} twoAccounts = .ok plain after ∧
        plain.rejected = false ∧ plain.ok = true := ⟨_, _, rfl, rfl, rfl⟩
  obtain ⟨bump, afterBump, hbump, haccepted', hfee⟩ : ∃ bump afterBump,
      applyTransaction stampingDeps (.envelopeTypeTxFeeBump slotFeeBump) "" {} twoAccounts =
        .ok bump afterBump ∧ bump.rejected = false ∧ bump.feeCharged = 200 :=
    ⟨_, _, rfl, rfl, rfl⟩
  have hprices : twoAccounts.env.PricesNonneg stampingDeps :=
    ⟨fun _ _ _ => ⟨le_rfl, le_rfl⟩, fun _ _ _ _ => le_rfl⟩
  have hapart : ∀ key ∈ slotFeeBump.inner.footprint.keys, key ∈ slotFeeBump.unpaid := by
    show ∀ key ∈ [LedgerKey.account ⟨List.replicate 32 9⟩, .contractData ⟨[1]⟩ ⟨[1]⟩ .persistent],
      key ≠ .account ⟨List.replicate 32 7⟩ ∧ key ≠ .account ⟨List.replicate 32 8⟩
    decide
  exact ⟨plain, bump, after, afterBump, hplain, hbump, hok, hfee,
    (feeBump_transparent (stampingDeps_callsLocally ∅) (twoAccounts_addressed _ _) hprices hplain
      haccepted hapart hbump).2 haccepted'⟩

end LiteSoroban

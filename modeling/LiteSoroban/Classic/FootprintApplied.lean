import LiteSoroban.Classic.FootprintRefinement
import LiteSoroban.Classic.Frame

/-!
# What a footprint transaction does

An accepted `ExtendFootprintTTL` or `RestoreFootprint` that succeeds has put
the selected entries back with one new TTL, and done nothing else to an entry
that is not an account.  `FootprintApplied` says so of a whole transaction.

* `rewriteAccount_gainsNoTtl`: what is written beside the moves has no TTL.
* `footprint_applied` and `footprint_failed`: the transaction that succeeded,
  and the one that did not.
-/

namespace LiteSoroban

open Effect

/-! ## The store after the moves -/

/-- What moves leave under a key depends on that key alone. -/
theorem lookup_putStore_congr {store store' : Store} {key : LedgerKey}
    (h : store.lookup key = store'.lookup key) (moves : List TtlMove) :
    (putStore store moves).lookup key = (putStore store' moves).lookup key := by
  induction moves generalizing store store' with
  | nil => exact h
  | cons m ms ih =>
    apply ih
    by_cases hkey : key = m.key
    · rw [hkey, Finmap.lookup_insert, Finmap.lookup_insert]
    · rw [Finmap.lookup_insert_of_ne _ hkey, Finmap.lookup_insert_of_ne _ hkey, h]

/-! ## No account gains a TTL -/

/-- What has a TTL in `ledger'` had it in `ledger`. -/
def Ledger.GainsNoTtl (ledger ledger' : Ledger) : Prop :=
  ∀ key ttl, ledger'.getEntryTtl key = some ttl → ledger.getEntryTtl key = some ttl

instance : IsPreorder Ledger Ledger.GainsNoTtl where
  refl _ := fun _ _ h => h
  trans _ _ _ h h' := fun key ttl httl => h key ttl (h' key ttl httl)

theorem rewriteAccount_gainsNoTtl (d : Deps) (id : AccountId)
    (f : Ledger → AccountEntry → AccountEntry) :
    Within Ledger.GainsNoTtl (rewriteAccount d id f) := by
  intro ledger
  rcases rewriteAccount_cases d id f ledger with ⟨e, hthrew⟩ | ⟨account, -, hstored⟩
  · rw [hthrew]
    exact refl_of Ledger.GainsNoTtl ledger
  · rw [hstored]
    intro key ttl httl
    by_cases hkey : key = .account (f ledger account).accountId
    · -- An account is stored without a TTL.
      have hnone := (getEntry_eq (ledger.withAccount (f ledger account)) key).2
      rw [hkey, Ledger.store, Ledger.withAccount, Finmap.lookup_insert] at hnone
      rw [finalState_ok, hkey] at httl
      cases hnone.symm.trans httl
    · rw [finalState_ok, (getEntry_eq _ key).2, ledger.lookup_withAccount_of_ne hkey] at httl
      exact httl

theorem commitClassic_gainsNoTtl (d : Deps) (a : Application) (v : Validated) :
    Within Ledger.GainsNoTtl (commitClassic d a v) :=
  commitClassic_within (fun _ _ => rewriteAccount_gainsNoTtl d _ _)
    (fun _ _ => rewriteAccount_gainsNoTtl d _ _) a v

theorem settle_gainsNoTtl (d : Deps) (v : Validated) (charge : Option FeeCharge) (op : Operated) :
    Within Ledger.GainsNoTtl (settle d v charge op) :=
  settle_within (fun _ _ => rewriteAccount_gainsNoTtl d _ _) v charge op

/-! ## The transaction -/

/-- The one operation of an envelope is a footprint operation that declares
these resources. -/
structure FootprintTransaction (envelope : TransactionEnvelope) (body : OperationBody)
    (resources : SorobanResources) : Prop where
  footprintOp : body.isInvoke = false
  contents : ∃ raw op data, envelope.innerTx? = some raw ∧ raw.operations = [op] ∧
    op.body = body ∧ raw.sorobanData? = some data ∧ data.resources = resources

section accepted

variable {d : Deps} {ledger ledger' l₁ l₂ : Ledger} {envelope : TransactionEnvelope}
  {passphrase : String} {validation : ValidationOptions} {outcome : TxOutcome} {a : Application}
  {v : Validated} {op : Operated} {body : OperationBody} {resources : SorobanResources}

theorem Accepted.contents
    (h : Accepted d ledger envelope passphrase validation outcome ledger' a v l₁ l₂ op)
    (htx : FootprintTransaction envelope body resources) :
    v.op.body = body ∧ v.sorobanData.resources = resources := by
  obtain ⟨raw, operation, data, hraw, hops, hbody, hdata, hresources⟩ := htx.contents
  obtain ⟨c₁, c₂, hpassed⟩ := validate_ok h.validated
  obtain ⟨hone, -, hsoroban, -⟩ := checkShape_ok hpassed.shape
  cases (envelopeApplication_ok h.application).innerTx.symm.trans hraw
  cases hone.symm.trans hops
  cases hsoroban.symm.trans hdata
  exact ⟨hbody, hresources⟩

theorem runOperation_sorobanFee {cap : Option Int}
    (h : runOperation d v cap l₁ = .ok op l₂) : op.outcome.sorobanFee = none := by
  rcases runOperation_answers h with rfl | ⟨arms, applied, rfl⟩ | ⟨_, sent, _, -, rfl⟩
  · rfl
  · unfold footprintOperated
    split <;> rfl
  · rfl

theorem Accepted.changedKeys
    (h : Accepted d ledger envelope passphrase validation outcome ledger' a v l₁ l₂ op) :
    outcome.changedKeys = op.outcome.changedKeys := by
  obtain ⟨inner, hsettle, rfl⟩ := h.settled
  have hinner : inner.changedKeys = op.outcome.changedKeys := by
    cases hcharge : a.charge with
    | none =>
      rw [hcharge] at hsettle
      rw [(settle_none hsettle).1]
    | some charge =>
      rw [hcharge] at hsettle
      rw [(settle_some hsettle).2]
  split
  · unfold bumpOutcome
    split <;> exact hinner
  · exact hinner

/-- What a footprint transaction that succeeded has done, key by key: the
moves of the footprint's selected keys, made once each and priced as they
are listed. -/
structure FootprintApplied (d : Deps) (ledger : Ledger) (body : OperationBody)
    (keys : List LedgerKey) (outcome : TxOutcome) (ledger' : Ledger) : Prop where
  needsTtl : ∀ key ∈ keys, needsTtl key = true
  fit : MovesFit d ledger ((body.moves ledger).select keys)
  lookup : ∀ key, (∀ id, key ≠ .account id) → ledger'.store.lookup key =
    (putStore ledger.store ((body.moves ledger).select keys)).lookup key
  /-- The accounts that were bumped and debited have no TTL. -/
  accounts : ∀ id ttl, ledger'.getEntryTtl (.account id) = some ttl →
    ledger.getEntryTtl (.account id) = some ttl
  changed : outcome.changedKeys = some ((body.moves ledger).selected keys)
  priced : ∃ rows rent, rentChangesOf d ledger ((body.moves ledger).select keys) = .ok rows ∧
    ledger.computeRentFee d rows = .ok rent ∧
    ∀ fee, outcome.sorobanFee = some fee → fee.rent = rent ∧ fee.refundable = rent

/-- A key of the footprint is no account. -/
theorem FootprintApplied.not_account {keys : List LedgerKey}
    (h : FootprintApplied d ledger body keys outcome ledger') {key : LedgerKey} (hkey : key ∈ keys)
    (id : AccountId) : key ≠ .account id := by
  rintro rfl
  cases h.needsTtl _ hkey

/-- A footprint operation that succeeded made the moves of the selection. -/
theorem selectedMoves_ok {s : Shaped} {moves : List TtlMove}
    (hinvoke : s.op.body.isInvoke = false) (hsoroban : s.op.body.isSoroban = true)
    (h : selectedMoves d ledger s = .ok moves) :
    moves = (s.op.body.moves ledger).select (s.op.body.side s.sorobanData.resources.footprint) ∧
      MovesFit d ledger moves := by
  unfold selectedMoves at h
  cases hbody : s.op.body with
  | extendFootprintTtl extendTo =>
    simp only [hbody] at h
    exact extendMoves_ok_iff.mp h
  | restoreFootprint =>
    simp only [hbody] at h
    have hrestored := (restoreMoves_ok_iff (Nat.zero_le _) (Nat.zero_le _)).mp h
    exact ⟨hrestored.1, hrestored.2.1⟩
  | invokeHostFunction hostFunction auth => simp [hbody, OperationBody.isInvoke] at hinvoke
  | classic xdr => simp [hbody, OperationBody.isSoroban] at hsoroban

/-- The fee an accepted transaction reports is what its operation consumed. -/
theorem Accepted.sorobanFee
    (h : Accepted d ledger envelope passphrase validation outcome ledger' a v l₁ l₂ op)
    {fee : SorobanFee} (hfee : outcome.sorobanFee = some fee) :
    fee.rent = op.rent ∧ fee.refundable = op.refundable := by
  have hreported := h.feeCharged.2.2
  rw [hfee] at hreported
  cases hcharge : a.charge with
  | none =>
    simp only [hcharge, runOperation_sorobanFee h.operated] at hreported
    cases hreported
  | some charge =>
    simp only [hcharge] at hreported
    cases hreported
    exact ⟨rfl, rfl⟩

/-- What the moves leave under a key, seen from before the bump and the debit
to after the refund. -/
theorem Accepted.lookup_moved (hkeyed : ledger.store.Keyed)
    (h : Accepted d ledger envelope passphrase validation outcome ledger' a v l₁ l₂ op)
    {moves : List TtlMove} (hmoved : FootprintMoved l₁ l₂ moves) {key : LedgerKey}
    (hkey : ∀ id, key ≠ .account id) :
    ledger'.store.lookup key = (putStore ledger.store moves).lookup key := by
  have hcommitted := commitClassic_effect hkeyed h.classic
  obtain ⟨inner, hsettle, -⟩ := h.settled
  have hsettled := settle_effect hmoved.keyed hsettle
  have hstore : l₂.store = putStore l₁.store moves := congrArg Ledger.store hmoved.frame
  rw [hsettled.others key fun _ _ => hkey _, hstore]
  apply lookup_putStore_congr
  exact hcommitted.others key (hkey _) fun _ _ => hkey _

/-- No account has gained a TTL. -/
theorem Accepted.account_ttl
    (h : Accepted d ledger envelope passphrase validation outcome ledger' a v l₁ l₂ op)
    {moves : List TtlMove} (hmoved : FootprintMoved l₁ l₂ moves) {id : AccountId} {ttl : Nat}
    (httl : ledger'.getEntryTtl (.account id) = some ttl) :
    ledger.getEntryTtl (.account id) = some ttl := by
  obtain ⟨inner, hsettle, -⟩ := h.settled
  have hgained := settle_gainsNoTtl d v a.charge op l₂ (.account id) ttl
  rw [hsettle] at hgained
  have hstore : l₂.store = putStore l₁.store moves := congrArg Ledger.store hmoved.frame
  have hunmoved : l₂.getEntryTtl (.account id) = l₁.getEntryTtl (.account id) := by
    rw [(getEntry_eq l₂ _).2, (getEntry_eq l₁ _).2, hstore, lookup_putStore_of_not_mem]
    intro m hm heq
    have hneeds := hmoved.ttl m hm
    rw [heq] at hneeds
    cases hneeds
  have hbefore := commitClassic_gainsNoTtl d a v ledger (.account id) ttl
  rw [h.classic] at hbefore
  exact hbefore (hunmoved.symm.trans (hgained httl))

/-- **A footprint transaction that succeeded.**  The bump, the debit and the
refund touch accounts only, so the moves are those of the ledger the
transaction found. -/
theorem Accepted.footprintApplied (hkeyed : ledger.store.Keyed)
    (h : Accepted d ledger envelope passphrase validation outcome ledger' a v l₁ l₂ op)
    (hinvoke : v.op.body.isInvoke = false) (hok : outcome.ok = true) :
    FootprintApplied d ledger v.op.body (v.op.body.side v.sorobanData.resources.footprint)
      outcome ledger' := by
  obtain ⟨c₁, c₂, hpassed⟩ := validate_ok h.validated
  have hsoroban := (checkShape_ok hpassed.shape).2.1
  have hclassic := commitClassic_classicOnly h.classic
  have hneeds : ∀ key ∈ v.op.body.side v.sorobanData.resources.footprint,
      LiteSoroban.needsTtl key = true := by
    intro key hkey
    apply checkFootprintOp_needsTtl hpassed.footprintOp hinvoke hsoroban
    cases hbody : v.op.body <;> simpa [OperationBody.side, hbody] using hkey
  rcases runOperation_ok h.operated with hfailed | ⟨moves, rows, hmoved⟩ |
    ⟨hostFunction, auth, sent, env, hinvoked⟩
  · rw [h.feeCharged.1, hfailed.ok] at hok
    cases hok
  · have heffect := operationMoved_effect (commitClassic_effect hkeyed h.classic).keyed hsoroban
      hpassed.footprintOp hmoved
    -- The operation saw the ledger after the bump and the debit.
    have hsame : (v.op.body.moves l₁).select
        (v.op.body.side v.sorobanData.resources.footprint) =
        (v.op.body.moves ledger).select (v.op.body.side v.sorobanData.resources.footprint) :=
      Selector.select_congr fun key hkey => hclassic.moveOf v.op.body (hneeds key hkey)
    obtain ⟨hselect, hfit⟩ := selectedMoves_ok hinvoke hsoroban hmoved.selected
    rw [hsame] at hselect
    subst hselect
    have hpriced := hmoved.priced
    have hrent := hmoved.rent
    rw [hclassic.rentChangesOf fun m hm => hneeds m.key (Selector.mem_select.mp hm).1] at hpriced
    rw [hclassic.frame] at hrent hfit
    refine ⟨hneeds, hfit, fun key hkey => h.lookup_moved hkeyed heffect hkey,
      fun id ttl httl => h.account_ttl heffect httl, ?_, rows, op.rent, hpriced, hrent,
      fun fee hfee => ?_⟩
    · rw [h.changedKeys, hmoved.changed]
      rfl
    · obtain ⟨hrentOf, hrefundable⟩ := h.sorobanFee hfee
      exact ⟨hrentOf, hrefundable.trans hmoved.refundable⟩
  · rw [hinvoked.body] at hinvoke
    cases hinvoke

/-- A footprint transaction that did not succeed rewrote accounts at most. -/
theorem footprint_failed (hkeyed : ledger.store.Keyed)
    (htx : FootprintTransaction envelope body resources)
    (h : applyTransaction d envelope passphrase validation ledger = .ok outcome ledger')
    (hok : outcome.ok = false) {key : LedgerKey} (hkey : ∀ id, key ≠ .account id) :
    ledger'.store.lookup key = ledger.store.lookup key := by
  rcases applyTransaction_ok h with ⟨-, rfl⟩ | ⟨-, a, v, l₁, l₂, op, haccepted⟩
  · rfl
  · have hcommitted := commitClassic_effect hkeyed haccepted.classic
    obtain ⟨inner, hsettle, -⟩ := haccepted.settled
    rcases runOperation_ok haccepted.operated with hfailed | ⟨moves, rows, hmoved⟩ |
      ⟨hostFunction, auth, sent, env, hinvoked⟩
    · obtain ⟨cache, hframe⟩ := hfailed.frame
      have hstore : l₂.store = l₁.store := by
        rw [hframe]
        rfl
      have hsettled := settle_effect (hstore ▸ hcommitted.keyed) hsettle
      rw [hsettled.others key fun _ _ => hkey _, hstore]
      exact hcommitted.others key (hkey _) fun _ _ => hkey _
    · rw [haccepted.feeCharged.1, hmoved.ok] at hok
      cases hok
    · have hinvoke := htx.footprintOp
      rw [← (haccepted.contents htx).1, hinvoked.body] at hinvoke
      cases hinvoke

/-- A rejected transaction has not succeeded. -/
theorem ok_of_rejected
    (h : applyTransaction d envelope passphrase validation ledger = .ok outcome ledger')
    (hrejected : outcome.rejected = true) : outcome.ok = false := by
  have hseed : ∀ o : TxOutcome, (seedFee envelope o).ok = o.ok := by
    intro o
    unfold seedFee
    split <;> rfl
  rcases applyTransaction_rejected h hrejected with ⟨o, happ, rfl⟩ | ⟨a, inner, happ, hval, rfl⟩
  · rw [hseed]
    exact ((envelopeApplication_rejects ..).marked o happ).2
  · have hinner : inner.ok = false :=
      ((validate_rejects (envelopeApplication_ok happ)).marked inner hval).2
    rw [hseed]
    split
    · rw [bumpOutcome_ok, hinner]
    · exact hinner

/-- What a footprint transaction that succeeded has done, from its run. -/
theorem footprint_applied (hkeyed : ledger.store.Keyed)
    (htx : FootprintTransaction envelope body resources)
    (h : applyTransaction d envelope passphrase validation ledger = .ok outcome ledger')
    (hok : outcome.ok = true) :
    FootprintApplied d ledger body (body.side resources.footprint) outcome ledger' := by
  rcases applyTransaction_ok h with ⟨hrejected, -⟩ | ⟨-, a, v, l₁, l₂, op, haccepted⟩
  · rw [ok_of_rejected h hrejected] at hok
    cases hok
  · obtain ⟨hbody, hresources⟩ := haccepted.contents htx
    rw [← hbody, ← hresources]
    apply haccepted.footprintApplied hkeyed _ hok
    rw [hbody]
    exact htx.footprintOp

end accepted

theorem restoreEnvelope_footprint : FootprintTransaction (.envelopeTypeTx restoreEnvelope)
    .restoreFootprint ⟨⟨[], [balanceKey .persistent]⟩, 0, 100, 100⟩ :=
  ⟨rfl, _, _, _, rfl, rfl, rfl, rfl, rfl⟩

end LiteSoroban

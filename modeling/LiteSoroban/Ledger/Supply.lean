import LiteSoroban.Lib.Total
import LiteSoroban.Classic.FeeAccounting
import LiteSoroban.Classic.Steps
import LiteSoroban.Env.SendTtl
import LiteSoroban.Ledger.Machine

/-!
# The supply of lumens

The lumens of a ledger are in its accounts, and in the entries of contracts
that hold some.  A contract call moves them about, a sequence bump and a moved
TTL leave them where they are, and a fee takes them out.

`ledgerMachine_supply` says that nothing else happens to them.  In any run of
calls, simulations and transactions, what the ledger holds at the end and the
fees of the outcomes add up to what it held at the start.
-/

namespace LiteSoroban

open Effect Finmap

/-- What an entry holds in stroops.  An account holds its balance, and an entry
that may vanish holds nothing.  What other entries hold is for the contracts
to say. -/
structure NativeValue where
  value : LedgerKey → LedgerEntry → Int
  account : ∀ id entry account, entry.data = .account account →
    value (.account id) entry = account.balance
  temporary : ∀ key entry, isTemporary key = true → value key entry = 0

namespace NativeValue

variable (n : NativeValue)

/-- What a stored entry holds.  Its TTL is no part of it. -/
def worth (key : LedgerKey) (e : EntryWithLiveUntil) : Int := n.value key e.entry

/-- What the whole ledger holds. -/
def supply (ledger : Ledger) : Int := ledger.store.total n.worth

end NativeValue

/-! ## The host's changes -/

/-- The entry the host is handed for a key. -/
def HostInput.handedEntry (input : HostInput) (key : LedgerKey) : Option LedgerEntry :=
  (input.handed.find? (·.1 = key)).bind fun item => item.2.1.bind (·.decoded)

/-- The entry a change leaves under its key, given the one the host was
handed. -/
def LedgerEntryChange.leaves (ch : LedgerEntryChange) (handed : Option LedgerEntry) :
    Option LedgerEntry :=
  match ch.encodedNewValue, ch.readOnly with
  | some newValue, _ => newValue.decoded
  | none, true => handed
  | none, false => none

/-- What a change adds to what its key holds. -/
def LedgerEntryChange.moves (n : NativeValue) (ch : LedgerEntryChange) (key : LedgerKey)
    (handed : Option LedgerEntry) : Int :=
  slotWorth n.value key (ch.leaves handed) - slotWorth n.value key handed

/-- What the host is handed under a key derives that key. -/
def HostInput.HandsKeyed (input : HostInput) : Prop :=
  ∀ key value ttl entry, (key, some value, ttl) ∈ input.handed → value.decoded = some entry →
    keyOf entry = .ok key

/-- A host that is handed entries under their own keys returns one change for
each of some distinct keys of the footprint, and what the changes add they take
elsewhere. -/
def Deps.Conserves (d : Deps) (n : NativeValue) : Prop :=
  ∀ input res, input.HandsKeyed → (d.invokeHostFunction input).result = .ok res →
    ∃ keys : List LedgerKey, keys.Nodup ∧
      (∀ key ∈ keys, key ∈ input.resources.footprint.keys) ∧
      List.Forall₂ (fun key ch => ch.encodedKey.decoded = some key) keys res.ledgerChanges ∧
      (List.zipWith (fun key ch => ch.moves n key (input.handedEntry key)) keys
        res.ledgerChanges).sum = 0

theorem LedgerEntryChange.entry_leaves (ch : LedgerEntryChange)
    (slot : Option EntryWithLiveUntil) :
    (ch.applyTo slot).map (·.entry) = ch.leaves (slot.map (·.entry)) := by
  simp only [applyTo, leaves]
  cases ch.encodedNewValue with
  | some newValue =>
    simp only [Option.map_map]
    exact Option.map_id'
  | none =>
    cases ch.readOnly with
    | false => rfl
    | true =>
      cases ch.ttlChange with
      | none => rfl
      | some ttl => cases slot <;> rfl

theorem slotWorth_entry (n : NativeValue) (key : LedgerKey) (slot : Option EntryWithLiveUntil) :
    slotWorth n.worth key slot = slotWorth n.value key (slot.map (·.entry)) := by
  cases slot <;> rfl

theorem slotWorth_temporary (n : NativeValue) {key : LedgerKey} (hkey : isTemporary key = true)
    (slot : Option LedgerEntry) : slotWorth n.value key slot = 0 := by
  cases slot with
  | none => rfl
  | some entry => exact n.temporary key entry hkey

/-- The host is handed what the store holds, but for a temporary entry that
has expired. -/
theorem Prepared.handedEntry {d : Deps} {env : SorobanEnv} {args : SendArgs} {input : HostInput}
    {loaded : Loaded} (h : Prepared d env args input loaded) {key : LedgerKey}
    (hkey : key ∈ input.resources.footprint.keys) :
    isTemporary key = true ∨
      input.handedEntry key = (env.store.lookup key).map (·.entry) := by
  obtain ⟨-, hzip⟩ := List.forall₂_iff_zip.mp h.handed
  obtain ⟨item, hmem, -⟩ := h.exists_handed hkey
  cases hfind : input.handed.find? (·.1 = key) with
  | none =>
    have hne := List.find?_eq_none.mp hfind _ hmem
    simp at hne
  | some found =>
    obtain ⟨key', item'⟩ := found
    have hsame : key' = key := by simpa using List.find?_some hfind
    subst hsame
    have hhanded := hzip (List.mem_of_find?_eq_some hfind)
    simp only [HostInput.handedEntry, hfind, Option.bind_some]
    simp only [SorobanEnv.Handed] at hhanded
    cases hlookup : env.store.lookup key' with
    | none =>
      rw [hlookup] at hhanded
      simp only at hhanded
      rw [hhanded]
      exact .inr rfl
    | some e =>
      rw [hlookup] at hhanded
      simp only at hhanded
      by_cases hexpired : (isTemporary key' && env.expired e.liveUntil) = true
      · exact .inl (Bool.and_eq_true_iff.mp hexpired).1
      · rw [if_neg hexpired] at hhanded
        rw [hhanded.1]
        exact .inr rfl

/-- A keyed store hands its entries over under their own keys. -/
theorem Prepared.handsKeyed {d : Deps} {env : SorobanEnv} {args : SendArgs} {input : HostInput}
    {loaded : Loaded} (h : Prepared d env args input loaded) (hkeyed : env.store.Keyed) :
    input.HandsKeyed := by
  intro key value ttl entry hmem hentry
  obtain ⟨e, hlookup, hdecoded⟩ := h.stored_of_handed hmem
  rw [Option.some.inj (hentry.symm.trans hdecoded)]
  exact hkeyed key e hlookup

/-- What a change adds to the store is what it adds to what the host was
handed. -/
theorem moves_eq (n : NativeValue) (ch : LedgerEntryChange) {key : LedgerKey}
    {slot : Option EntryWithLiveUntil} {handed : Option LedgerEntry}
    (h : isTemporary key = true ∨ handed = slot.map (·.entry)) :
    slotWorth n.worth key (ch.applyTo slot) - slotWorth n.worth key slot =
      ch.moves n key handed := by
  rw [slotWorth_entry, slotWorth_entry, ch.entry_leaves, LedgerEntryChange.moves]
  rcases h with htemporary | rfl
  · simp only [slotWorth_temporary n htemporary]
  · rfl

/-- The merge loop adds to the store what its changes add. -/
theorem mergeChanges_supply {n : NativeValue} {moved : LedgerKey → LedgerEntryChange → Int}
    {keys : List LedgerKey} {changes : List LedgerEntryChange} {m m' : Merged} {u : Unit}
    (hnodup : keys.Nodup)
    (hchanges : List.Forall₂ (fun key ch => ch.encodedKey.decoded = some key) keys changes)
    (hmoved : ∀ key ∈ keys, ∀ ch : LedgerEntryChange,
      slotWorth n.worth key (ch.applyTo (m.store.lookup key)) -
        slotWorth n.worth key (m.store.lookup key) = moved key ch)
    (h : mergeChanges changes m = .ok u m') :
    m'.store.total n.worth - m.store.total n.worth = (List.zipWith moved keys changes).sum := by
  induction hchanges generalizing m with
  | nil =>
    cases h
    simp
  | @cons key ch keys changes hch _ ih =>
    obtain ⟨hfresh, hnodup⟩ := List.nodup_cons.mp hnodup
    obtain ⟨_, mid, hone, hrest⟩ := bind_eq_ok.mp h
    obtain ⟨hmine, hothers⟩ := mergeChange_ok hch hone
    have hlater : m'.store.total n.worth - mid.store.total n.worth =
        (List.zipWith moved keys changes).sum := by
      refine ih hnodup (fun k hk c => ?_) hrest
      have hne : k ≠ key := fun heq => hfresh (heq ▸ hk)
      rw [hothers k hne]
      exact hmoved k (List.mem_cons_of_mem key hk) c
    have hfirst : mid.store.total n.worth - m.store.total n.worth = moved key ch := by
      rw [total_change_one key hothers, hmine]
      exact hmoved key List.mem_cons_self ch
    rw [List.zipWith_cons_cons, List.sum_cons, ← hlater, ← hfirst]
    omega

/-- A call that returns keeps the supply. -/
theorem send_supply {d : Deps} {n : NativeValue} (hhost : d.Conserves n) {args : SendArgs}
    {env env' : SorobanEnv} {out : SendResult} (hkeyed : env.store.Keyed)
    (h : env.send d args = .ok out env') :
    env'.store.total n.worth = env.store.total n.worth := by
  rcases send_ok h with hfailed | ⟨input, res, value, consumed, m, hdone, hmerge, -, rfl⟩
  · obtain ⟨cache, hframe⟩ := hfailed.frame
    rw [hframe]
  · obtain ⟨loaded, hprepared⟩ := prepareSend_ok hdone.prepared
    obtain ⟨keys, hnodup, hfootprint, hchanges, hsum⟩ := hhost input res
      (hprepared.handsKeyed hkeyed) hdone.returned
    have htotal := mergeChanges_supply (n := n) hnodup hchanges
      (fun key hkey ch => moves_eq n ch (hprepared.handedEntry (hfootprint key hkey))) hmerge
    rw [hsum] at htotal
    exact sub_eq_zero.mp htotal

/-! ## An application -/

section Application

variable {n : NativeValue}

theorem slotWorth_account (n : NativeValue) {store : Store} (hkeyed : store.Keyed)
    (id : AccountId) :
    slotWorth n.worth (.account id) (store.lookup (.account id)) = (store.balance? id).getD 0 := by
  unfold Store.balance? Store.account?
  cases hlookup : store.lookup (.account id) with
  | none => rfl
  | some e =>
    obtain ⟨account, hdata, -⟩ := hkeyed.account hlookup
    simp only [slotWorth_some, NativeValue.worth, n.account id e.entry account hdata, hdata,
      Option.bind_some, LedgerEntryData.account?, Option.map_some, Option.getD_some]

/-- A rewrite changes the supply by what it changes the balance. -/
theorem Rewritten.supply {id : AccountId} {f : AccountEntry → AccountEntry}
    {ledger ledger' : Ledger} (h : Rewritten id f ledger ledger') (hkeyed : ledger.store.Keyed) :
    n.supply ledger' - n.supply ledger =
      (ledger'.store.balance? id).getD 0 - (ledger.store.balance? id).getD 0 := by
  rw [NativeValue.supply, NativeValue.supply, total_change_one (.account id) h.others,
    slotWorth_account n h.keyed, slotWorth_account n hkeyed]

theorem Rewritten.supply_bumped {id : AccountId} {seqNum : Int} {ledger ledger' : Ledger}
    (h : Rewritten id (bumped ledger seqNum) ledger ledger') (hkeyed : ledger.store.Keyed) :
    n.supply ledger' = n.supply ledger := by
  have hchange := h.supply (n := n) hkeyed
  rw [h.balance_bumped, sub_self] at hchange
  exact sub_eq_zero.mp hchange

theorem Rewritten.supply_debited {id : AccountId} {amount : Int} {ledger ledger' : Ledger}
    (h : Rewritten id (debited amount) ledger ledger') (hkeyed : ledger.store.Keyed) :
    n.supply ledger' = n.supply ledger - amount := by
  have hchange := h.supply (n := n) hkeyed
  obtain ⟨account, haccount⟩ := Option.isSome_iff_exists.mp h.present
  have hbalance : ledger.store.balance? id = some account.balance := by
    rw [Store.balance?, haccount]
    rfl
  rw [h.balance_debited, if_pos rfl, hbalance] at hchange
  simp only [Option.map_some, Option.getD_some] at hchange
  omega

/-- What is put down leaves the supply. -/
theorem commitClassic_supply {d : Deps} {a : Application} {v : Validated} {ledger mid : Ledger}
    (hkeyed : ledger.store.Keyed) (h : commitClassic d a v ledger = .ok () mid) :
    n.supply mid = n.supply ledger - (a.charge.map (·.upfront)).getD 0 := by
  obtain ⟨bumpedLedger, hbumped, hdebited⟩ := commitClassic_ok hkeyed h
  have hbump := hbumped.supply_bumped (n := n) hkeyed
  cases hcharge : a.charge with
  | none =>
    simp only [hcharge] at hdebited
    subst hdebited
    simp only [hbump, Option.map_none, Option.getD_none, sub_zero]
  | some charge =>
    simp only [hcharge] at hdebited
    rw [hdebited.supply_debited hbumped.keyed, hbump]
    rfl

/-- A TTL is no lumen. -/
theorem putMoves_supply {ledger ledger' : Ledger} {moves : List TtlMove}
    (hstored : ∀ m ∈ moves, ∃ ttl, ledger.store.lookup m.key = some ⟨m.entry, some ttl⟩)
    (h : FootprintMoved ledger ledger' moves) : n.supply ledger' = n.supply ledger := by
  have hentry : ∀ (ms : List TtlMove) (store : Store),
      (∀ m ∈ ms, (store.lookup m.key).map (·.entry) = some m.entry) → ∀ key,
      ((putStore store ms).lookup key).map (·.entry) = (store.lookup key).map (·.entry) := by
    intro ms
    induction ms with
    | nil => exact fun _ _ _ => rfl
    | cons m ms ih =>
      intro store hms key
      obtain ⟨hm, hrest⟩ := List.forall_mem_cons.mp hms
      let put := store.insert m.key ⟨m.entry, some (toUint32 m.newLiveUntil)⟩
      have hput : ∀ k, (put.lookup k).map (·.entry) = (store.lookup k).map (·.entry) := by
        intro k
        by_cases hk : k = m.key
        · rw [hk, hm, Finmap.lookup_insert]
          rfl
        · rw [Finmap.lookup_insert_of_ne _ hk]
      exact (ih put (fun m' hm' => by rw [hput]; exact hrest m' hm') key).trans (hput key)
  rw [NativeValue.supply, NativeValue.supply, h.frame]
  refine total_eq fun key => ?_
  rw [slotWorth_entry, slotWorth_entry]
  refine congrArg _ (hentry moves ledger.store (fun m hm => ?_) key)
  obtain ⟨ttl, hlookup⟩ := hstored m hm
  rw [hlookup]
  rfl

theorem runOperation_supply {d : Deps} (hhost : d.Conserves n) {v : Validated} {cap : Option Int}
    {first ledger ledger' : Ledger} {op : Operated} {u : Unit} (hkeyed : ledger.store.Keyed)
    (hsoroban : v.op.body.isSoroban = true) (hshape : checkFootprintOp first v.toShaped = .ok u)
    (h : runOperation d v cap ledger = .ok op ledger') : n.supply ledger' = n.supply ledger := by
  rcases runOperation_ok h with hfailed | ⟨moves, rows, hmoved⟩ |
    ⟨hostFunction, auth, sent, env, hinvoked⟩
  · obtain ⟨cache, hframe⟩ := hfailed.frame
    rw [hframe]
    rfl
  · refine putMoves_supply (fun m hm => ?_) (operationMoved_effect hkeyed hsoroban hshape hmoved)
    exact (selectedMoves_of hmoved.selected m hm).stored
  · rw [hinvoked.frame]
    exact send_supply hhost hkeyed hinvoked.call

/-- An accepted transaction takes its fee out of the supply. -/
theorem Accepted.supply {d : Deps} (hkeyedHost : d.ReturnsKeyed) (hhost : d.Conserves n)
    {ledger ledger' l₁ l₂ : Ledger} {envelope : TransactionEnvelope} {passphrase : String}
    {validation : ValidationOptions} {outcome : TxOutcome} {a : Application} {v : Validated}
    {op : Operated} (hkeyed : ledger.store.Keyed) (hprices : ledger.env.PricesNonneg d)
    (h : Accepted d ledger envelope passphrase validation outcome ledger' a v l₁ l₂ op) :
    n.supply ledger' + outcome.feeCharged = n.supply ledger := by
  obtain ⟨c₁, c₂, hpassed⟩ := validate_ok h.validated
  obtain ⟨-, hsoroban, -⟩ := checkShape_ok hpassed.shape
  have hcommitted := commitClassic_effect hkeyed h.classic
  have hcommit := commitClassic_supply (n := n) hkeyed h.classic
  have hoperation := runOperation_supply hhost hcommitted.keyed hsoroban hpassed.footprintOp
    h.operated
  have hkeyed₂ := runOperation_keyed hkeyedHost hsoroban hpassed.footprintOp hcommitted.keyed
    h.operated
  obtain ⟨inner, hsettle, -⟩ := h.settled
  obtain ⟨-, hfee, -⟩ := h.feeCharged
  cases hcharge : a.charge with
  | none =>
    rw [hcharge] at hcommit hsettle hfee
    obtain ⟨-, rfl⟩ := settle_none hsettle
    simp only [Option.map_none, Option.getD_none] at hcommit hfee
    omega
  | some charge =>
    rw [hcharge] at hcommit hsettle hfee
    have hrefund := h.refund_nonneg hprices hcharge
    simp only [Option.map_some, Option.getD_some] at hcommit hfee
    rcases giveBack_ok hkeyed₂ (settle_some hsettle).1 with ⟨-, hback⟩ | ⟨hnone, rfl⟩
    · have hdebit := hback.supply_debited (n := n) hkeyed₂
      omega
    · omega

end Application

/-! ## Runs -/

/-- The calls that neither hand out lumens nor put back an earlier ledger. -/
def LedgerOp.Trades : LedgerOp → Prop
  | .simulate _ => True
  | .send _ => True
  | .applyTransaction _ _ _ => True
  | .advanceLedgers _ => True
  | .setTimestamp _ => True
  | .snapshot => True
  | _ => False

/-- The fee of an answer.  A rejected transaction reports one and pays none. -/
def LedgerAnswer.fee : LedgerAnswer → Int
  | .applied outcome => if outcome.rejected then 0 else outcome.feeCharged
  | _ => 0

/-- The fees of what a run answers.  An exception reports none. -/
def feesTaken (outs : List (Except JsError LedgerAnswer)) : Int :=
  (outs.map fun out => (out.toOption.map (·.fee)).getD 0).sum

/-- What every such call keeps, whether it returns or throws: a keyed store,
and prices that are not negative. -/
structure Ledger.Priced (d : Deps) (ledger : Ledger) : Prop where
  keyed : ledger.store.Keyed
  prices : ledger.env.PricesNonneg d

theorem Ledger.Priced.of_storeOnly {d : Deps} {ledger ledger' : Ledger} (h : ledger.Priced d)
    (hframe : ledger.StoreOnly ledger') (hkeyed : ledger'.store.Keyed) : ledger'.Priced d := by
  obtain ⟨store, cache, rfl⟩ := hframe
  exact ⟨hkeyed, h.prices.resources, h.prices.rent⟩

theorem LedgerOp.perform_priced {d : Deps} (hhost : d.ReturnsKeyed) {ledger : Ledger}
    (h : ledger.Priced d) {op : LedgerOp} (hop : op.Trades) :
    (finalState (op.perform d ledger)).Priced d := by
  cases op with
  | simulate args =>
    obtain ⟨prng, hframe⟩ := simulate_frame d ledger.env args
    rw [perform, finalState_map, Ledger.finalState_simulate, hframe]
    exact ⟨h.keyed, h.prices.resources, h.prices.rent⟩
  | send args =>
    rw [perform, finalState_map]
    refine h.of_storeOnly (send_storesOnly d args ledger) ?_
    rw [Ledger.finalState_send]
    exact send_keyed hhost h.keyed
  | applyTransaction envelope passphrase validation =>
    rw [perform, finalState_map]
    exact h.of_storeOnly (applyTransaction_storesOnly d envelope passphrase validation ledger)
      (applyTransaction_keyed hhost h.keyed envelope passphrase validation)
  | advanceLedgers n => exact ⟨h.keyed, h.prices.resources, h.prices.rent⟩
  | setTimestamp t => exact ⟨h.keyed, h.prices.resources, h.prices.rent⟩
  | snapshot =>
    rw [perform, finalState_map]
    rcases ledger.snapshot_final with hfinal | hfinal
    · rw [hfinal]
      exact h
    · rw [hfinal]
      exact ⟨h.keyed, h.prices.resources, h.prices.rent⟩
  | fundAccount seed => cases hop
  | fund id opts => cases hop
  | seedWasm code => cases hop
  | putEntry entry liveUntil => cases hop
  | removeEntry key => cases hop
  | restore id => cases hop

/-- One call that returns. -/
theorem LedgerOp.perform_supply {d : Deps} {n : NativeValue} (hkeyed : d.ReturnsKeyed)
    (hhost : d.Conserves n) {ledger ledger' : Ledger} (hledger : ledger.Priced d) {op : LedgerOp}
    (hop : op.Trades) {answer : LedgerAnswer} (h : op.perform d ledger = .ok answer ledger') :
    n.supply ledger' + answer.fee = n.supply ledger := by
  cases op with
  | simulate args =>
    obtain ⟨out, mid, hrun, hanswer⟩ := bind_eq_ok.mp h
    obtain ⟨rfl, rfl⟩ := pure_eq_ok.mp hanswer
    have hend := Ledger.finalState_simulate d args ledger
    obtain ⟨prng, hframe⟩ := simulate_frame d ledger.env args
    rw [hrun, hframe, finalState_ok] at hend
    rw [hend]
    exact add_zero _
  | send args =>
    obtain ⟨out, mid, hrun, hanswer⟩ := bind_eq_ok.mp h
    obtain ⟨rfl, rfl⟩ := pure_eq_ok.mp hanswer
    unfold Ledger.send at hrun
    cases hsend : ledger.env.send d
        { args with restoredRwEntryIndices := args.restoredRwEntryIndices.map toUint32 } with
    | error e env =>
      rw [hsend] at hrun
      cases hrun
    | ok sent env =>
      rw [hsend] at hrun
      cases hrun
      exact (add_zero _).trans (send_supply hhost hledger.keyed hsend)
  | applyTransaction envelope passphrase validation =>
    obtain ⟨outcome, mid, hrun, hanswer⟩ := bind_eq_ok.mp h
    obtain ⟨rfl, rfl⟩ := pure_eq_ok.mp hanswer
    rcases applyTransaction_ok hrun with ⟨hrejected, rfl⟩ | ⟨haccepted, a, v, l₁, l₂, op, hstages⟩
    · simp only [LedgerAnswer.fee, hrejected, if_true, add_zero]
    · simp only [LedgerAnswer.fee, haccepted, Bool.false_eq_true, if_false]
      exact hstages.supply hkeyed hhost hledger.keyed hledger.prices
  | advanceLedgers k =>
    cases h
    exact add_zero _
  | setTimestamp t =>
    cases h
    exact add_zero _
  | snapshot =>
    obtain ⟨id, mid, htaken, hanswer⟩ := bind_eq_ok.mp h
    obtain ⟨rfl, rfl⟩ := pure_eq_ok.mp hanswer
    rcases ledger.snapshot_cases with ⟨e, hfull⟩ | ⟨-, hsnapshot⟩
    · cases hfull.symm.trans htaken
    · cases hsnapshot.symm.trans htaken
      exact add_zero _
  | fundAccount seed => cases hop
  | fund id opts => cases hop
  | seedWasm code => cases hop
  | putEntry entry liveUntil => cases hop
  | removeEntry key => cases hop
  | restore id => cases hop

/-! ### Calls that hand out lumens -/

/-- The lumens a call hands out. -/
def LedgerOp.minted : LedgerOp → Int
  | .fund _ opts => opts.balance
  | _ => 0

/-- The call trades, or it funds an account that is not there. -/
def LedgerOp.Circulates (ledger : Ledger) : LedgerOp → Prop
  | .fund id _ => ledger.store.lookup (.account id) = none
  | op => op.Trades

theorem LedgerOp.Circulates.cases {ledger : Ledger} {op : LedgerOp} (h : op.Circulates ledger) :
    (∃ id opts, op = .fund id opts ∧ ledger.store.lookup (.account id) = none) ∨
      op.Trades ∧ op.minted = 0 := by
  cases op with
  | fund id opts => exact .inl ⟨id, opts, rfl, h⟩
  | fundAccount seed => cases h
  | seedWasm code => cases h
  | putEntry entry liveUntil => cases h
  | removeEntry key => cases h
  | restore id => cases h
  | simulate args => exact .inr ⟨h, rfl⟩
  | send args => exact .inr ⟨h, rfl⟩
  | applyTransaction envelope passphrase validation => exact .inr ⟨h, rfl⟩
  | advanceLedgers n => exact .inr ⟨h, rfl⟩
  | setTimestamp t => exact .inr ⟨h, rfl⟩
  | snapshot => exact .inr ⟨h, rfl⟩

/-- A new account holds what it is funded with. -/
theorem fund_supply {d : Deps} {n : NativeValue} {ledger ledger' : Ledger} {id : AccountId}
    {opts : FundOptions} {u : Unit} (hledger : ledger.Priced d)
    (hfresh : ledger.store.lookup (.account id) = none)
    (h : Ledger.fund d id opts ledger = .ok u ledger') :
    n.supply ledger' = n.supply ledger + opts.balance := by
  simp only [Ledger.fund, fundAccount, storeAccount_eq] at h
  split at h
  · cases h
    let account : AccountEntry := ⟨id, opts.balance, opts.seqNum, 0, none, 0, [], opts.thresholds,
      opts.signers, .v0⟩
    have hkeyed : (ledger.withAccount account).store.Keyed := ledger.withAccount_keyed hledger.keyed _
    have hlookup : (ledger.withAccount account).store.lookup (.account id) =
        some ⟨accountLedgerEntry ledger.ledgerSeq account, none⟩ := Finmap.lookup_insert _
    have hchange : n.supply (ledger.withAccount account) - n.supply ledger = opts.balance - 0 := by
      rw [NativeValue.supply, NativeValue.supply,
        total_change_one (.account id) fun other hne => ledger.lookup_withAccount_of_ne hne,
        hfresh, hlookup, slotWorth_some, slotWorth_none]
      rw [NativeValue.worth, n.account id _ account rfl]
    rw [sub_zero] at hchange
    exact sub_eq_iff_eq_add'.mp hchange
  · cases h

theorem LedgerOp.circulates_priced {d : Deps} (hhost : d.ReturnsKeyed) {ledger : Ledger}
    (h : ledger.Priced d) {op : LedgerOp} (hop : op.Circulates ledger) :
    (finalState (op.perform d ledger)).Priced d := by
  rcases hop.cases with ⟨id, opts, rfl, -⟩ | ⟨htrades, -⟩
  · rw [perform, finalState_map]
    simp only [Ledger.fund, LiteSoroban.fundAccount, storeAccount_eq]
    split
    · exact ⟨ledger.withAccount_keyed h.keyed _, h.prices.resources, h.prices.rent⟩
    · exact h
  · exact perform_priced hhost h htrades

/-- One call that returns, and hands out lumens or not. -/
theorem LedgerOp.circulates_supply {d : Deps} {n : NativeValue} (hkeyed : d.ReturnsKeyed)
    (hhost : d.Conserves n) {ledger ledger' : Ledger} (hledger : ledger.Priced d) {op : LedgerOp}
    (hop : op.Circulates ledger) {answer : LedgerAnswer}
    (h : op.perform d ledger = .ok answer ledger') :
    n.supply ledger' + answer.fee = n.supply ledger + op.minted := by
  rcases hop.cases with ⟨id, opts, rfl, hfresh⟩ | ⟨htrades, hnone⟩
  · obtain ⟨_, mid, hfund, hanswer⟩ := bind_eq_ok.mp h
    obtain ⟨rfl, rfl⟩ := pure_eq_ok.mp hanswer
    rw [fund_supply hledger hfresh hfund]
    exact add_zero _
  · rw [perform_supply hkeyed hhost hledger htrades h, hnone, add_zero]

/-- In a run whose calls all return, what the ledger holds at the end and the
fees of the run add up to what it held at the start and what was handed
out. -/
theorem circulates_run {d : Deps} {n : NativeValue} (hkeyed : d.ReturnsKeyed)
    (hhost : d.Conserves n) {ledger : Ledger} (hledger : ledger.Priced d) {ops : List LedgerOp}
    (hops : (ledgerMachine d).AllSteps (fun l op => op.Circulates l) ledger ops)
    (hreturned : ∀ out ∈ (ledgerMachine d).outs ledger ops, out.isOk = true) :
    n.supply ((ledgerMachine d).run ledger ops) + feesTaken ((ledgerMachine d).outs ledger ops) =
      n.supply ledger + (ops.map LedgerOp.minted).sum := by
  induction ops generalizing ledger with
  | nil => rfl
  | cons op ops ih =>
    obtain ⟨hop, hrest⟩ := hops
    obtain ⟨hfirst, hlater⟩ := List.forall_mem_cons.mp hreturned
    have hmore := ih (LedgerOp.circulates_priced hkeyed hledger hop) hrest hlater
    have hone : n.supply (finalState (op.perform d ledger)) +
        (((ledgerMachine d).out ledger op).toOption.map (·.fee)).getD 0 =
          n.supply ledger + op.minted := by
      have hanswer : (answer (op.perform d ledger)).isOk = true := hfirst
      show _ + ((answer (op.perform d ledger)).toOption.map (·.fee)).getD 0 = _
      cases hperform : op.perform d ledger with
      | ok found after => exact op.circulates_supply hkeyed hhost hledger hop hperform
      | error e after =>
        rw [hperform] at hanswer
        cases hanswer
    simp only [feesTaken, Machine.outs, Machine.run_cons, ledgerMachine_next, List.map_cons,
      List.sum_cons] at hmore ⊢
    omega

/-- **The supply.**  In a run whose calls all return, what the ledger holds at
the end and the fees of the run add up to what it held at the start. -/
theorem ledgerMachine_supply {d : Deps} {n : NativeValue} (hkeyed : d.ReturnsKeyed)
    (hhost : d.Conserves n) {ledger : Ledger} (hledger : ledger.Priced d) {ops : List LedgerOp}
    (hops : ∀ op ∈ ops, op.Trades)
    (hreturned : ∀ out ∈ (ledgerMachine d).outs ledger ops, out.isOk = true) :
    n.supply ((ledgerMachine d).run ledger ops) + feesTaken ((ledgerMachine d).outs ledger ops) =
      n.supply ledger := by
  have hcirculates : (ledgerMachine d).AllSteps (fun l op => op.Circulates l) ledger ops := by
    refine (ledgerMachine d).allSteps_of_mem ledger fun op hop l => ?_
    have htrades := hops op hop
    cases op <;> first | exact htrades | cases htrades
  have hminted : (ops.map LedgerOp.minted).sum = 0 := by
    refine List.sum_eq_zero fun minted hmem => ?_
    obtain ⟨op, hop, rfl⟩ := List.mem_map.mp hmem
    have htrades := hops op hop
    cases op <;> first | rfl | cases htrades
  rw [circulates_run hkeyed hhost hledger hcirculates hreturned, hminted, add_zero]

/-! ## A payment -/

/-- Lumens in accounts, and nowhere else. -/
def accountsOnly : NativeValue where
  value key entry := match key, entry.data with
    | .account _, .account account => account.balance
    | _, _ => 0
  account id entry account hdata := by simp only [hdata]
  temporary key entry hkey := by
    cases key with
    | account id => cases hkey
    | contractData contract key durability => rfl
    | contractCode hash => rfl
    | trustline id asset => rfl
    | unsupported type xdr => rfl

/-- The account under an id, with another balance. -/
def balanceChange (id : AccountId) (account : AccountEntry) (balance : Int) : LedgerEntryChange :=
  ⟨false, ⟨8, some (.account id)⟩, 0,
    some ⟨12, some (accountLedgerEntry 1000 { account with accountId := id, balance := balance })⟩,
    0, none⟩

/-- The changes of a payment of five stroops from the first account of the
read-write footprint to the second. -/
def paymentChanges (input : HostInput) : List LedgerEntryChange :=
  match input.resources.footprint.readWrite with
  | [.account payer, .account payee] =>
    match (input.handedEntry (.account payer)).bind (·.data.account?),
      (input.handedEntry (.account payee)).bind (·.data.account?) with
    | some before, some before' =>
      if payer = payee then []
      else [balanceChange payer before (before.balance - 5),
        balanceChange payee before' (before'.balance + 5)]
    | _, _ => []
  | _ => []

def payingDeps : Deps :=
  { Deps.idle with
    invokeHostFunction := fun input =>
      ⟨.ok ⟨.ok ⟨4, some ⟨[]⟩⟩, paymentChanges input, []⟩, 0, 0, []⟩ }

/-- The payment pays nothing, or moves five stroops between two accounts. -/
theorem paymentChanges_cases (input : HostInput) : paymentChanges input = [] ∨
    ∃ payer payee entry entry' account account', payer ≠ payee ∧
      input.resources.footprint.readWrite = [.account payer, .account payee] ∧
      input.handedEntry (.account payer) = some entry ∧ entry.data = .account account ∧
      input.handedEntry (.account payee) = some entry' ∧ entry'.data = .account account' ∧
      paymentChanges input = [balanceChange payer account (account.balance - 5),
        balanceChange payee account' (account'.balance + 5)] := by
  have haccount : ∀ {slot : Option LedgerEntry} {account : AccountEntry},
      slot.bind (·.data.account?) = some account →
        ∃ entry, slot = some entry ∧ entry.data = .account account := by
    intro slot account h
    obtain ⟨entry, rfl, hdata⟩ := Option.bind_eq_some_iff.mp h
    refine ⟨entry, rfl, ?_⟩
    unfold LedgerEntryData.account? at hdata
    split at hdata
    · next found hfound =>
      cases hdata
      exact hfound
    · cases hdata
  unfold paymentChanges
  split
  · next payer payee hfootprint =>
    split
    · next account account' hpayer hpayee =>
      obtain ⟨entry, hentry, hdata⟩ := haccount hpayer
      obtain ⟨entry', hentry', hdata'⟩ := haccount hpayee
      by_cases hsame : payer = payee
      · exact .inl (if_pos hsame)
      · exact .inr ⟨payer, payee, entry, entry', account, account', hsame, hfootprint, hentry, hdata,
          hentry', hdata', if_neg hsame⟩
    · exact .inl rfl
  · exact .inl rfl

theorem payingDeps_conserves : payingDeps.Conserves accountsOnly := by
  intro input res _ hres
  cases hres
  rcases paymentChanges_cases input with hnone | ⟨payer, payee, entry, entry', account, account',
    hne, hfootprint, hentry, hdata, hentry', hdata', hpaid⟩
  · exact ⟨[], .nil, by simp, by rw [hnone]; exact .nil, by rw [hnone]; rfl⟩
  · have hkeys : (LedgerKey.account payer) ≠ .account payee := by simpa using hne
    refine ⟨[.account payer, .account payee], by simpa using hkeys, fun key hkey => ?_, ?_, ?_⟩
    · refine List.mem_append_right _ ?_
      rw [hfootprint]
      exact hkey
    · rw [hpaid]
      exact .cons rfl (.cons rfl .nil)
    · rw [hpaid]
      simp only [List.zipWith_cons_cons, List.zipWith_nil_left, List.sum_cons, List.sum_nil,
        LedgerEntryChange.moves, LedgerEntryChange.leaves, balanceChange, hentry, hentry',
        slotWorth_some, accountsOnly, accountLedgerEntry, hdata, hdata']
      omega

theorem payingDeps_returnsKeyed : payingDeps.ReturnsKeyed := by
  intro input ch hreturns key newValue entry hkey hnew hentry
  obtain ⟨res, hres, hch⟩ := hreturns
  cases hres
  have hrebalanced : ∃ id account balance, ch = balanceChange id account balance := by
    rcases paymentChanges_cases input with hnone | ⟨payer, payee, _, _, account, account', -, -, -,
      -, -, -, hpaid⟩
    · rw [hnone] at hch
      cases hch
    · rw [hpaid] at hch
      rcases List.mem_cons.mp hch with rfl | hch
      · exact ⟨payer, account, _, rfl⟩
      · rw [List.mem_singleton.mp hch]
        exact ⟨payee, account', _, rfl⟩
  obtain ⟨id, account, balance, rfl⟩ := hrebalanced
  cases hkey
  cases hnew
  cases hentry
  rfl

/-- A call by one account that pays another. -/
def paymentEnvelope (seed payee : UInt8) : TransactionV1Envelope where
  tx :=
    { sourceAccount := .keyTypeEd25519 (List.replicate 32 seed)
      fee := 100
      seqNum := 1
      cond := .precondNone
      memo := .memoNone
      operations := [⟨none, .invokeHostFunction ⟨[]⟩ []⟩]
      ext := .sorobanData ⟨.v0, ⟨⟨[], [.account ⟨List.replicate 32 seed⟩,
        .account ⟨List.replicate 32 payee⟩]⟩, 0, 100, 100⟩, 0⟩ }
  signatures := [sampleSignature seed]

def paymentOps : List LedgerOp :=
  [.snapshot, .applyTransaction (.envelopeTypeTx (paymentEnvelope 7 8)) "" {}, .advanceLedgers 1,
    .applyTransaction (.envelopeTypeTx (paymentEnvelope 8 7)) "" {}]

def payLedger : Ledger := (sampleLedger 7).withAccount (sampleAccount 8)

theorem payLedger_priced : payLedger.Priced payingDeps where
  keyed := Ledger.withAccount_keyed (sampleLedger_keyed 7) _
  prices := ⟨fun _ _ _ => ⟨le_rfl, le_rfl⟩, fun _ _ _ _ => le_rfl⟩

theorem ledgerMachine_supply_payments :
    accountsOnly.supply ((ledgerMachine payingDeps).run payLedger paymentOps) +
      feesTaken ((ledgerMachine payingDeps).outs payLedger paymentOps) =
        accountsOnly.supply payLedger :=
  ledgerMachine_supply payingDeps_returnsKeyed payingDeps_conserves payLedger_priced
    (by simp [paymentOps, LedgerOp.Trades]) (by decide +kernel)

end LiteSoroban

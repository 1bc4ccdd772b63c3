import LiteSoroban.Classic.Atomicity
import LiteSoroban.Classic.Frame
import LiteSoroban.Classic.Steps
import LiteSoroban.Env.Client
import LiteSoroban.Ledger.Machine

/-!
# Well-formed stores

Every reader of the store looks an entry up under the key it would derive, and
takes a TTL for granted where the protocol says there is one.  A store is
well-formed when both hold: every entry sits under its own key, and has a TTL
exactly when its key bears one.

A dozen writers put entries into the store, under keys they come by in
different ways.  `ledgerMachine_wellFormed` says that none of them breaks it,
and that an application neither creates nor removes an account.
-/

namespace LiteSoroban

open Effect

/-- An entry may be stored under a key: it is the entry's own, and the entry
has a TTL exactly when the key bears one. -/
structure EntryWithLiveUntil.Fits (e : EntryWithLiveUntil) (key : LedgerKey) : Prop where
  keyed : keyOf e.entry = .ok key
  ttl : e.liveUntil.isSome = needsTtl key

/-- Every stored entry fits its key. -/
def Store.WellFormed (store : Store) : Prop :=
  ∀ key e, store.lookup key = some e → e.Fits key

theorem Store.WellFormed.keyed {store : Store} (h : store.WellFormed) : store.Keyed :=
  fun key e he => (h key e he).keyed

theorem Store.WellFormed.empty : Store.WellFormed ∅ := by
  intro key e he
  rw [Finmap.lookup_empty] at he
  cases he

theorem Store.WellFormed.insert {store : Store} (h : store.WellFormed) {key : LedgerKey}
    {e : EntryWithLiveUntil} (he : e.Fits key) : Store.WellFormed (store.insert key e) :=
  Store.forall_insert (P := fun key e => e.Fits key) h he

theorem Store.WellFormed.erase {store : Store} (h : store.WellFormed) (key : LedgerKey) :
    Store.WellFormed (store.erase key) :=
  Store.forall_erase h key

/-- An account is stored without a TTL. -/
theorem accountLedgerEntry_fits (ledgerSeq : Nat) (account : AccountEntry) :
    EntryWithLiveUntil.Fits ⟨accountLedgerEntry ledgerSeq account, none⟩
      (.account account.accountId) :=
  ⟨rfl, rfl⟩

/-! ## The accounts of a store -/

/-- The keys that hold an account. -/
def Store.accountKeys (store : Store) : Finset LedgerKey :=
  store.keys.filter fun key => ((store.lookup key).bind (·.entry.data.account?)).isSome

/-- How many account entries there are. -/
def Store.accountCount (store : Store) : Nat := store.accountKeys.card

/-- Two stores have entries for the same accounts. -/
def Store.SameAccounts (store store' : Store) : Prop :=
  ∀ id, (store'.lookup (.account id)).isSome = (store.lookup (.account id)).isSome

theorem Store.SameAccounts.refl (store : Store) : store.SameAccounts store := fun _ => rfl

theorem Store.SameAccounts.trans {a b c : Store} (hab : a.SameAccounts b)
    (hbc : b.SameAccounts c) : a.SameAccounts c := fun id => (hbc id).trans (hab id)

/-- Writing over an account, or under no account's key, keeps the accounts. -/
theorem Store.SameAccounts.insert {store : Store} {key : LedgerKey} (e : EntryWithLiveUntil)
    (hkey : ∀ id, key = .account id → (store.lookup key).isSome) :
    store.SameAccounts (store.insert key e) := by
  intro id
  by_cases heq : .account id = key
  · rw [heq, Finmap.lookup_insert, hkey id heq.symm]
    rfl
  · rw [Finmap.lookup_insert_of_ne _ heq]

/-- Erasing what is no account keeps the accounts. -/
theorem Store.SameAccounts.erase {store : Store} {key : LedgerKey}
    (hkey : ∀ id, key = .account id → store.lookup key = none) :
    store.SameAccounts (store.erase key) := by
  intro id
  by_cases heq : .account id = key
  · rw [heq, Finmap.lookup_erase, hkey id heq.symm]
  · rw [Finmap.lookup_erase_ne heq]

/-- In a well-formed store the accounts sit under the account keys. -/
theorem Store.WellFormed.mem_accountKeys {store : Store} (h : store.WellFormed)
    {key : LedgerKey} :
    key ∈ store.accountKeys ↔ ∃ id, key = .account id ∧ (store.lookup key).isSome := by
  simp only [accountKeys, Finset.mem_filter, Finmap.mem_keys, ← Finmap.lookup_isSome]
  constructor
  · rintro ⟨hsome, haccount⟩
    obtain ⟨e, he⟩ := Option.isSome_iff_exists.mp hsome
    have hkey := (h key e he).keyed
    rw [he, Option.bind_some] at haccount
    cases hdata : e.entry.data with
    | account a =>
      simp only [keyOf, hdata, Except.ok.injEq] at hkey
      exact ⟨a.accountId, hkey.symm, hsome⟩
    | trustline t => simp [hdata, LedgerEntryData.account?] at haccount
    | contractData c => simp [hdata, LedgerEntryData.account?] at haccount
    | contractCode c => simp [hdata, LedgerEntryData.account?] at haccount
    | unsupported t x => simp [hdata, LedgerEntryData.account?] at haccount
  · rintro ⟨id, rfl, hsome⟩
    obtain ⟨e, he⟩ := Option.isSome_iff_exists.mp hsome
    obtain ⟨a, ha, -⟩ := h.keyed.account he
    exact ⟨hsome, by simp [he, ha, LedgerEntryData.account?]⟩

theorem Store.SameAccounts.accountCount {store store' : Store} (h : store.SameAccounts store')
    (hstore : store.WellFormed) (hstore' : store'.WellFormed) :
    store'.accountCount = store.accountCount := by
  have hkeys : store'.accountKeys = store.accountKeys := by
    ext key
    rw [hstore'.mem_accountKeys, hstore.mem_accountKeys]
    refine exists_congr fun id => and_congr_right fun hkey => ?_
    rw [hkey, h id]
  rw [Store.accountCount, hkeys, Store.accountCount]

/-! ## The host -/

/-- A new value comes with a TTL where the key bears one, and no other key is
given a TTL. -/
structure Deps.ReturnsTtls (d : Deps) : Prop where
  written : ∀ input ch key, d.Returns input ch → ch.encodedKey.decoded = some key →
    ch.encodedNewValue.isSome → needsTtl key = true → ch.ttlChange.isSome
  borne : ∀ input ch key, d.Returns input ch → ch.encodedKey.decoded = some key →
    ch.ttlChange.isSome → needsTtl key = true

/-- A change of an account that was handed over, or was not: it does not create
one, and does not remove one. -/
structure LedgerEntryChange.KeepsPresence (ch : LedgerEntryChange) (handed : Bool) : Prop where
  created : ch.encodedNewValue.isSome → handed = true
  removed : ch.encodedNewValue = none → ch.readOnly = false → handed = false

/-- The host changes accounts of the footprint only, and creates and removes
none. -/
def Deps.KeepsAccounts (d : Deps) : Prop :=
  ∀ input ch id, d.Returns input ch → ch.encodedKey.decoded = some (.account id) →
    .account id ∈ input.resources.footprint.keys ∧
    ∀ item, (.account id, item) ∈ input.handed → ch.KeepsPresence item.1.isSome

/-- The entries the environment makes up itself: an account under an account's
key, and code under its hash. -/
structure Deps.SeedsEntries (d : Deps) : Prop where
  account : ∀ id, ∃ account, (d.accountEntry id).data = .account account
  code : d.SeedsKeyed

/-! ## One call of the host -/

/-- A turn of the merge loop keeps the store well-formed. -/
theorem mergeChange_wellFormed {d : Deps} (hhost : d.ReturnsKeyed) (httl : d.ReturnsTtls)
    {input : HostInput} {ch : LedgerEntryChange} (hch : d.Returns input ch) {m : Merged}
    (hm : m.store.WellFormed) : (finalState (mergeChange ch m)).store.WellFormed := by
  refine mergeChange_forall (P := fun key e => e.Fits key) ?_ ?_ hm
  · intro key newValue entry hkey hnew hentry
    refine ⟨hhost input ch hch key newValue entry hkey hnew hentry, ?_⟩
    rw [Option.isSome_map]
    cases hneeds : needsTtl key with
    | true => exact httl.written input ch key hch hkey (by rw [hnew]; rfl) hneeds
    | false =>
      cases hchange : ch.ttlChange with
      | none => rfl
      | some ttl =>
        have hborne := httl.borne input ch key hch hkey (by rw [hchange]; rfl)
        rw [hneeds] at hborne
        cases hborne
  · intro key slot ttl hkey hmoved hslot
    exact ⟨hslot.keyed, (httl.borne input ch key hch hkey (by rw [hmoved]; rfl)).symm⟩

/-- A turn of the merge loop keeps the accounts, when the host was handed what
is stored. -/
theorem mergeChange_sameAccounts {store : Store} {ch : LedgerEntryChange}
    (hch : ∀ id, ch.encodedKey.decoded = some (.account id) →
      ch.KeepsPresence (store.lookup (.account id)).isSome)
    {m : Merged} (hm : store.SameAccounts m.store) :
    store.SameAccounts (finalState (mergeChange ch m)).store := by
  rcases mergeChange_cases ch m with hsame | ⟨key, newValue, entry, hkey, hnew, -, hstore⟩ |
    ⟨key, slot, ttl, -, -, -, -, hslot, hstore⟩ | ⟨key, hkey, hnone, hro, hstore⟩
  · rw [hsame]
    exact hm
  · rw [hstore]
    refine hm.trans (.insert _ ?_)
    rintro id rfl
    rw [hm id]
    exact (hch id hkey).created (by rw [hnew]; rfl)
  · rw [hstore]
    refine hm.trans (.insert _ fun id _ => ?_)
    rw [hslot]
    rfl
  · rw [hstore]
    refine hm.trans (.erase ?_)
    rintro id rfl
    have hgone := (hch id hkey).removed hnone hro
    rw [← hm id] at hgone
    exact Option.not_isSome_iff_eq_none.mp (by rw [hgone]; decide)

/-- What is handed over under a key that is not temporary is what is stored. -/
theorem Prepared.handed_stored {d : Deps} {env : SorobanEnv} {args : SendArgs}
    {input : HostInput} {loaded : Loaded} (h : Prepared d env args input loaded)
    {key : LedgerKey} (hlasting : isTemporary key = false)
    (hkey : key ∈ input.resources.footprint.keys) :
    ∃ item, (key, item) ∈ input.handed ∧ item.1.isSome = (env.store.lookup key).isSome ∧
      item.1.bind (·.decoded) = (env.store.lookup key).map (·.entry) := by
  obtain ⟨item, hmem, hhanded⟩ := h.exists_handed hkey
  refine ⟨item, hmem, ?_⟩
  unfold SorobanEnv.Handed at hhanded
  cases hstored : env.store.lookup key with
  | none =>
    simp only [hstored] at hhanded
    rw [hhanded]
    exact ⟨rfl, rfl⟩
  | some e =>
    simp only [hstored, hlasting, Bool.false_and, Bool.false_eq_true, if_false] at hhanded
    rw [hhanded.1]
    exact ⟨rfl, rfl⟩

/-- The assumptions on the code outside the repository that the results of
this module share. -/
structure Deps.WritesWell (d : Deps) : Prop where
  keyed : d.ReturnsKeyed
  ttls : d.ReturnsTtls
  accounts : d.KeepsAccounts

/-- An enforcing call keeps the accounts. -/
theorem send_sameAccounts {d : Deps} (hhost : d.KeepsAccounts) (args : SendArgs)
    (env : SorobanEnv) : env.store.SameAccounts (finalState (env.send d args)).store := by
  rcases send_frame d args env with ⟨cache, hframe⟩ | ⟨input, res, _, _, hdone, hframe⟩
  · rw [hframe]
    exact .refl _
  · rw [hframe]
    obtain ⟨loaded, hprepared⟩ := prepareSend_ok hdone.prepared
    refine mergeChanges_induction (P := fun m => env.store.SameAccounts m.store)
      (fun ch hch m hm => mergeChange_sameAccounts (fun id hkey => ?_) hm) (.refl _)
    obtain ⟨hmem, hkeeps⟩ := hhost input ch id ⟨res, hdone.returned, hch⟩ hkey
    obtain ⟨item, hhanded, hpresent, -⟩ := hprepared.handed_stored rfl hmem
    rw [← hpresent]
    exact hkeeps item hhanded

/-- An enforcing call keeps the store well-formed, and its accounts. -/
theorem send_wellFormed {d : Deps} (hhost : d.WritesWell) (args : SendArgs) {env : SorobanEnv}
    (h : env.store.WellFormed) :
    (finalState (env.send d args)).store.WellFormed ∧
      env.store.SameAccounts (finalState (env.send d args)).store := by
  refine ⟨?_, send_sameAccounts hhost.accounts args env⟩
  rcases send_frame d args env with ⟨cache, hframe⟩ | ⟨input, res, _, _, hdone, hframe⟩
  · rw [hframe]
    exact h
  · rw [hframe]
    exact mergeChanges_induction (P := fun m => m.store.WellFormed)
      (fun ch hch m hm =>
        mergeChange_wellFormed hhost.keyed hhost.ttls ⟨res, hdone.returned, hch⟩ hm) h

/-! ## One step of an application -/

/-- The moves of a footprint operation keep the store well-formed, and its
accounts. -/
theorem putStore_wellFormed {moves : List TtlMove}
    (hkeys : ∀ m ∈ moves, keyOf m.entry = .ok m.key) (httl : ∀ m ∈ moves, needsTtl m.key = true)
    {store : Store} (h : store.WellFormed) :
    (putStore store moves).WellFormed ∧ store.SameAccounts (putStore store moves) := by
  constructor
  · induction moves generalizing store with
    | nil => exact h
    | cons m moves ih =>
      have hm : m ∈ m :: moves := List.mem_cons_self
      exact ih (fun m' hm' => hkeys m' (List.mem_cons_of_mem m hm'))
        (fun m' hm' => httl m' (List.mem_cons_of_mem m hm'))
        (h.insert ⟨hkeys m hm, (httl m hm).symm⟩)
  · intro id
    rw [lookup_putStore_of_not_mem fun m hm heq => ?_]
    have hneeds := httl m hm
    rw [heq] at hneeds
    cases hneeds

/-- An account that is there is rewritten in place. -/
theorem withAccount_wellFormed {ledger : Ledger} (h : ledger.store.WellFormed) {id : AccountId}
    {account account' : AccountEntry} (hload : loadAccount! ledger id = .ok account)
    (hid : account'.accountId = account.accountId) :
    (ledger.withAccount account').store.WellFormed ∧
      ledger.store.SameAccounts (ledger.withAccount account').store := by
  refine ⟨h.insert (accountLedgerEntry_fits _ _), .insert _ fun id' heq => ?_⟩
  have haccount := (loadAccount!_eq_ok h.keyed).mp hload
  rw [hid, h.keyed.accountId_eq haccount]
  unfold Store.account? at haccount
  obtain ⟨e, he, -⟩ := Option.bind_eq_some_iff.mp haccount
  exact Option.isSome_iff_exists.mpr ⟨e, he⟩

theorem ClassicStep.wellFormed {d : Deps} (hhost : d.WritesWell) {ledger ledger' : Ledger}
    (hstep : ClassicStep d ledger ledger') (h : ledger.store.WellFormed) :
    ledger'.store.WellFormed ∧ ledger.store.SameAccounts ledger'.store := by
  cases hstep with
  | bump seqNum hload => exact withAccount_wellFormed h hload rfl
  | debit amount hload => exact withAccount_wellFormed h hload rfl
  | @move moves hstored httl =>
    have hkeys : ∀ m ∈ moves, keyOf m.entry = .ok m.key := by
      intro m hm
      obtain ⟨ttl, hlookup⟩ := hstored m hm
      exact (h _ _ hlookup).keyed
    rw [putMoves_eq hkeys]
    exact putStore_wellFormed hkeys httl h
  | call args => exact send_wellFormed hhost args h

/-- An application keeps the store well-formed, and its accounts, whether it
returns or throws. -/
theorem applyTransaction_wellFormed {d : Deps} (hhost : d.WritesWell) {ledger : Ledger}
    (h : ledger.store.WellFormed) (envelope : TransactionEnvelope) (passphrase : String)
    (validation : ValidationOptions) :
    let final := finalState (applyTransaction d envelope passphrase validation ledger)
    final.store.WellFormed ∧ ledger.store.SameAccounts final.store :=
  applyTransaction_induction
    (P := fun final => final.store.WellFormed ∧ ledger.store.SameAccounts final.store)
    (fun _ _ hmid hnext =>
      have hkept := hnext.wellFormed hhost hmid.1
      ⟨hkept.1, hmid.2.trans hkept.2⟩)
    ⟨h, .refl _⟩ envelope passphrase validation

/-! ## Runs -/

/-- The store and every snapshot of it are well-formed. -/
structure Ledger.WellFormed (ledger : Ledger) : Prop where
  store : ledger.store.WellFormed
  snapshots : ∀ snap ∈ ledger.env.snapshots, snap.store.WellFormed

/-- An entry is put with a TTL exactly when it needs one. -/
def LedgerOp.GivesTtl : LedgerOp → Prop
  | .putEntry entry liveUntil => ∀ key, keyOf entry = .ok key → liveUntil.isSome = needsTtl key
  | _ => True

theorem Ledger.WellFormed.insert {ledger : Ledger} (h : ledger.WellFormed) {key : LedgerKey}
    {e : EntryWithLiveUntil} (he : e.Fits key) :
    (ledger.withStore (ledger.store.insert key e)).WellFormed :=
  ⟨h.store.insert he, h.snapshots⟩

theorem putEntry_wellFormed {ledger : Ledger} (h : ledger.WellFormed) {entry : LedgerEntry}
    {liveUntil : Option Nat} (httl : ∀ key, keyOf entry = .ok key → liveUntil.isSome = needsTtl key) :
    (finalState (Ledger.putEntry entry liveUntil ledger)).WellFormed := by
  simp only [Ledger.putEntry, SorobanEnv.putEntry]
  cases hkey : keyOf entry with
  | error e => exact h
  | ok key => exact h.insert ⟨hkey, by rw [Option.isSome_map, httl key hkey]⟩

theorem fundAccount_wellFormed {d : Deps} (hseeds : d.SeedsEntries) {ledger : Ledger}
    (h : ledger.WellFormed) (seed : UInt8) :
    (finalState (Ledger.fundAccount d seed ledger)).WellFormed := by
  obtain ⟨account, haccount⟩ := hseeds.account (d.getAccountId seed)
  have hkey : keyOf (d.accountEntry (d.getAccountId seed)) = .ok (.account account.accountId) := by
    simp only [keyOf, haccount]
  simp only [Ledger.fundAccount, Ledger.call, SorobanEnv.fundAccount, hkey]
  exact h.insert ⟨hkey, rfl⟩

theorem fund_wellFormed (d : Deps) {ledger : Ledger} (h : ledger.WellFormed) (id : AccountId)
    (opts : FundOptions) : (finalState (Ledger.fund d id opts ledger)).WellFormed := by
  simp only [Ledger.fund, fundAccount, storeAccount_eq]
  split
  · exact h.insert (accountLedgerEntry_fits _ _)
  · exact h

theorem seedWasm_wellFormed {d : Deps} (hseeds : d.SeedsEntries) {ledger : Ledger}
    (h : ledger.WellFormed) (code : Bytes) :
    (finalState (Ledger.seedWasm d code ledger)).WellFormed := by
  simp only [Ledger.seedWasm, Ledger.call, SorobanEnv.seedWasm]
  cases ledger.env.ledgerInfo.minLiveUntilLedgerChecked with
  | none => exact h
  | some ttl => exact h.insert ⟨hseeds.code code, rfl⟩

/-- A program that leaves the snapshots alone, and the store well-formed. -/
theorem Ledger.WellFormed.of_storeOnly {ledger ledger' : Ledger} (h : ledger.WellFormed)
    (hframe : ledger.StoreOnly ledger') (hstore : ledger'.store.WellFormed) :
    ledger'.WellFormed := by
  obtain ⟨store, cache, rfl⟩ := hframe
  exact ⟨hstore, h.snapshots⟩

theorem simulate_wellFormed (d : Deps) {ledger : Ledger} (h : ledger.WellFormed)
    (args : SimulateArgs) : (finalState (Ledger.simulate d args ledger)).WellFormed := by
  obtain ⟨prng, hframe⟩ := simulate_frame d ledger.env args
  rw [Ledger.finalState_simulate, hframe]
  exact ⟨h.store, h.snapshots⟩

theorem snapshot_wellFormed {ledger : Ledger} (h : ledger.WellFormed) :
    (finalState ledger.snapshot).WellFormed := by
  rcases ledger.snapshot_final with hfinal | hfinal
  · rw [hfinal]
    exact h
  · rw [hfinal]
    refine ⟨h.store, fun snap hsnap => ?_⟩
    rcases List.mem_append.mp hsnap with hold | hnew
    · exact h.snapshots snap hold
    · rw [List.mem_singleton.mp hnew]
      exact h.store

theorem restore_wellFormed {ledger : Ledger} (h : ledger.WellFormed) (id : Nat) :
    (finalState (Ledger.restore id ledger)).WellFormed := by
  simp only [Ledger.restore, SorobanEnv.restore]
  cases hsnap : ledger.env.snapshots[toUint32 id]? with
  | none => exact h
  | some snap => exact ⟨h.snapshots snap (List.mem_of_getElem? hsnap), h.snapshots⟩

/-- No operation breaks a well-formed ledger, whether it returns or throws. -/
theorem LedgerOp.perform_wellFormed {d : Deps} (hhost : d.WritesWell) (hseeds : d.SeedsEntries)
    {ledger : Ledger} (h : ledger.WellFormed) {op : LedgerOp} (hop : op.GivesTtl) :
    (finalState (op.perform d ledger)).WellFormed := by
  cases op with
  | fundAccount seed =>
    rw [perform, finalState_map]
    exact fundAccount_wellFormed hseeds h seed
  | fund id opts =>
    rw [perform, finalState_map]
    exact fund_wellFormed d h id opts
  | seedWasm code =>
    rw [perform, finalState_map]
    exact seedWasm_wellFormed hseeds h code
  | putEntry entry liveUntil =>
    rw [perform, finalState_map]
    exact putEntry_wellFormed h hop
  | removeEntry key =>
    rw [perform, finalState_map]
    exact ⟨h.store.erase key, h.snapshots⟩
  | simulate args =>
    rw [perform, finalState_map]
    exact simulate_wellFormed d h args
  | send args =>
    rw [perform, finalState_map]
    refine h.of_storeOnly (send_storesOnly d args ledger) ?_
    rw [Ledger.finalState_send]
    exact (send_wellFormed hhost _ h.store).1
  | applyTransaction envelope passphrase validation =>
    rw [perform, finalState_map]
    exact h.of_storeOnly (applyTransaction_storesOnly d envelope passphrase validation ledger)
      (applyTransaction_wellFormed hhost h.store envelope passphrase validation).1
  | advanceLedgers n => exact ⟨h.store, h.snapshots⟩
  | setTimestamp t => exact ⟨h.store, h.snapshots⟩
  | snapshot =>
    rw [perform, finalState_map]
    exact snapshot_wellFormed h
  | restore id =>
    rw [perform, finalState_map]
    exact restore_wellFormed h id

/-- Every run keeps the store well-formed, and in no state a run reaches does
an application change the number of accounts. -/
theorem ledgerMachine_wellFormed {d : Deps} (hhost : d.WritesWell) (hseeds : d.SeedsEntries)
    {ledger : Ledger} (h : ledger.WellFormed) {ops : List LedgerOp}
    (hops : ∀ op ∈ ops, op.GivesTtl) :
    ((ledgerMachine d).run ledger ops).store.WellFormed ∧
      ∀ envelope passphrase validation,
        (finalState (applyTransaction d envelope passphrase validation
          ((ledgerMachine d).run ledger ops))).store.accountCount =
        ((ledgerMachine d).run ledger ops).store.accountCount := by
  have hrun : ((ledgerMachine d).run ledger ops).WellFormed := by
    refine (ledgerMachine d).invariant_run (P := fun _ op => op.GivesTtl)
      (fun ledger op hledger hop => ?_) h
      ((ledgerMachine d).allSteps_of_mem ledger fun op hop _ => hops op hop)
    rw [ledgerMachine_next]
    exact LedgerOp.perform_wellFormed hhost hseeds hledger hop
  refine ⟨hrun.store, fun envelope passphrase validation => ?_⟩
  obtain ⟨hfinal, hsame⟩ :=
    applyTransaction_wellFormed hhost hrun.store envelope passphrase validation
  exact hsame.accountCount hrun.store hfinal

theorem idle_writesWell : Deps.idle.WritesWell where
  keyed input ch h := absurd h (idle_returns input ch)
  ttls :=
    { written := fun input ch _ h => absurd h (idle_returns input ch)
      borne := fun input ch _ h => absurd h (idle_returns input ch) }
  accounts input ch _ h := absurd h (idle_returns input ch)

theorem idle_seedsEntries : Deps.idle.SeedsEntries where
  account _ := ⟨_, rfl⟩
  code _ := rfl

theorem emptyLedger_wellFormed : emptyLedger.WellFormed where
  store := Store.WellFormed.empty
  snapshots := by simp [emptyLedger, SorobanEnv.new]

/-- An account, code and a contract's data, a transaction between a snapshot
and its restore, and another account. -/
def sampleOps : List LedgerOp :=
  [.fundAccount 7, .seedWasm [0],
    .putEntry ⟨1000, .contractData ⟨⟨[]⟩, ⟨[]⟩, .persistent, ⟨[]⟩⟩, .v0⟩ (some 2000), .snapshot,
    .applyTransaction (.envelopeTypeTx (sampleEnvelope 7 1 none)) "" {}, .advanceLedgers 5,
    .restore 0, .fund ⟨List.replicate 32 8⟩ {}]

theorem ledgerMachine_wellFormed_sample :
    ((ledgerMachine .idle).run emptyLedger sampleOps).store.WellFormed ∧
      ∀ envelope passphrase validation,
        (finalState (applyTransaction .idle envelope passphrase validation
          ((ledgerMachine .idle).run emptyLedger sampleOps))).store.accountCount =
        ((ledgerMachine .idle).run emptyLedger sampleOps).store.accountCount :=
  ledgerMachine_wellFormed idle_writesWell idle_seedsEntries emptyLedger_wellFormed
    (by simp [sampleOps, LedgerOp.GivesTtl, keyOf, needsTtl])

end LiteSoroban

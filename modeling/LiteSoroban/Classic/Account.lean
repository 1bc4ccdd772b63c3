import LiteSoroban.Ledger

/-!
# Accounts

The account helpers of `src/classic.ts`.  The classic state lives in ordinary
account entries, which this layer reads, rebuilds and writes whole.

`loadAccount` throws on an entry that is not an account.  `storeAccount`
throws on an account the encoder refuses.  In a store that is keyed by its
entries the first cannot happen, and `loadAccount_keyed` says what is read
instead.

The lemmas of the last section say what one rewrite of an account does to the
store, and that it does nothing else.
-/

namespace LiteSoroban

/-- `BASE_FEE`: the base inclusion fee per operation, in stroops. -/
def baseFee : Int := 100

/-- `BASE_RESERVE`: the base reserve of the host's ledger info. -/
def baseReserve : Int := 5000000

/-- `muxedToAccountId`: the account under a multiplexed one. -/
def muxedToAccountId : MuxedAccount → AccountId
  | .keyTypeEd25519 ed25519 => ⟨ed25519⟩
  | .keyTypeMuxedEd25519 _ ed25519 => ⟨ed25519⟩

/-- `isMuxed`. -/
def isMuxed : MuxedAccount → Bool
  | .keyTypeEd25519 _ => false
  | .keyTypeMuxedEd25519 _ _ => true

/-- `loadAccount`. -/
def loadAccount (ledger : Ledger) (id : AccountId) : Except JsError (Option AccountEntry) :=
  match ledger.getEntry (.account id) with
  | none => .ok none
  | some entry =>
    match entry.data with
    | .account account => .ok (some account)
    | _ => .error ⟨"expected the account arm"⟩

/-- `loadAccount(..)!`: an account that is not there makes the caller throw on
the first field it reads. -/
def loadAccount! (ledger : Ledger) (id : AccountId) : Except JsError AccountEntry := do
  match ← loadAccount ledger id with
  | some account => return account
  | none => throw ⟨"Cannot read properties of null"⟩

/-- The entry `storeAccount` writes an account in. -/
def accountLedgerEntry (ledgerSeq : Nat) (account : AccountEntry) : LedgerEntry where
  lastModifiedLedgerSeq := ledgerSeq
  data := .account account
  ext := .v0

/-- `storeAccount`. -/
def storeAccount (d : Deps) (account : AccountEntry) : LedgerM Unit := do
  LedgerM.lift fun _ => d.encodeAccount account
  let ledger ← get
  Ledger.putEntry (accountLedgerEntry ledger.ledgerSeq account) none

/-- `FundOptions`, with the defaults of `fundAccount`. -/
structure FundOptions where
  balance : Int := 100000000000
  seqNum : Int := 0
  thresholds : Thresholds := ⟨1, 0, 0, 0⟩
  signers : List Signer := []

/-- `fundAccount`. -/
def fundAccount (d : Deps) (id : AccountId) (opts : FundOptions) : LedgerM Unit :=
  storeAccount d
    { accountId := id
      balance := opts.balance
      seqNum := opts.seqNum
      numSubEntries := 0
      inflationDest := none
      flags := 0
      homeDomain := []
      thresholds := opts.thresholds
      signers := opts.signers
      ext := .v0 }

/-- `availableBalance`: net of the base reserve. -/
def availableBalance (account : AccountEntry) : Int :=
  account.balance - (2 + account.numSubEntries) * baseReserve

/-! ## The extension chain -/

/-- `accountEntryExtensionV3`: the v3 extension, if the chain reaches it. -/
def accountEntryExtensionV3 (account : AccountEntry) : Option AccountEntryExtensionV3 :=
  match account.ext with
  | .v1 ⟨_, .v2 ⟨_, _, _, .v3 v3⟩⟩ => some v3
  | _ => none

/-- `accountEntryExtensionChain`: the v1 and v2 levels as they are, or created
zeroed where missing. -/
def accountEntryExtensionChain (account : AccountEntry) :
    AccountEntryExtensionV1 × AccountEntryExtensionV2 :=
  let v1 : AccountEntryExtensionV1 :=
    match account.ext with
    | .v1 v1 => v1
    | .v0 => ⟨⟨0, 0⟩, .v0⟩
  let v2 : AccountEntryExtensionV2 :=
    match v1.ext with
    | .v2 v2 => v2
    | .v0 => ⟨0, 0, account.signers.map fun _ => none, .v0⟩
  (v1, v2)

/-- `withAccountEntryExtensionV3`: the chain, ending in `v3`. -/
def withAccountEntryExtensionV3 (account : AccountEntry) (v3 : AccountEntryExtensionV3) :
    AccountEntryExt :=
  let (v1, v2) := accountEntryExtensionChain account
  .v1 { v1 with ext := .v2 { v2 with ext := .v3 v3 } }

/-! ## The two rewrites of the apply path -/

/-- The account `bumpSequence` stores.  `prepareAccountEntryExtensionV3` only
feeds the two fields that are stamped over here. -/
def bumped (ledger : Ledger) (seqNum : Int) (account : AccountEntry) : AccountEntry :=
  { account with
    seqNum := seqNum
    ext := withAccountEntryExtensionV3 account ⟨ledger.ledgerSeq, ledger.timestamp⟩ }

/-- The account `debit` stores. -/
def debited (amount : Int) (account : AccountEntry) : AccountEntry :=
  { account with balance := account.balance - amount }

/-- Read an account, rewrite it, and store it back. -/
def rewriteAccount (d : Deps) (id : AccountId) (f : Ledger → AccountEntry → AccountEntry) :
    LedgerM Unit := do
  let account ← LedgerM.lift fun ledger => loadAccount! ledger id
  let ledger ← get
  storeAccount d (f ledger account)

/-- `bumpSequence`. -/
def bumpSequence (d : Deps) (id : AccountId) (seqNum : Int) : LedgerM Unit :=
  rewriteAccount d id fun ledger => bumped ledger seqNum

/-- `debit`. -/
def debit (d : Deps) (id : AccountId) (amount : Int) : LedgerM Unit :=
  rewriteAccount d id fun _ => debited amount

/-! ## What a rewrite does to the store -/

/-- The account of an account entry. -/
def LedgerEntryData.account? : LedgerEntryData → Option AccountEntry
  | .account a => some a
  | _ => none

/-- The account a store holds under an id. -/
def Store.account? (store : Store) (id : AccountId) : Option AccountEntry :=
  (store.lookup (.account id)).bind fun e => e.entry.data.account?

/-- The ledger with an account stored, as `storeAccount` stores it. -/
def Ledger.withAccount (ledger : Ledger) (account : AccountEntry) : Ledger :=
  { ledger with env := { ledger.env with
      store := ledger.env.store.insert (.account account.accountId)
        ⟨accountLedgerEntry ledger.env.ledgerSeq account, none⟩ } }

theorem Store.Keyed.accountId_eq {store : Store} (h : store.Keyed) {id : AccountId}
    {account : AccountEntry} (ha : store.account? id = some account) :
    account.accountId = id := by
  simp only [Store.account?, Option.bind_eq_some_iff] at ha
  obtain ⟨e, he, hdata⟩ := ha
  obtain ⟨a, ha, hid⟩ := h.account he
  rw [ha] at hdata
  cases hdata
  exact hid

/-- In a keyed store `loadAccount` never throws. -/
theorem loadAccount_keyed {ledger : Ledger} (h : ledger.store.Keyed) (id : AccountId) :
    loadAccount ledger id = .ok (ledger.store.account? id) := by
  simp only [loadAccount, Ledger.getEntry, SorobanEnv.getEntry, Store.account?, Ledger.store]
  cases he : ledger.env.store.lookup (.account id) with
  | none => rfl
  | some e =>
    obtain ⟨a, ha, _⟩ := h.account he
    simp [ha, LedgerEntryData.account?]

theorem loadAccount!_eq_ok {ledger : Ledger} (h : ledger.store.Keyed) {id : AccountId}
    {account : AccountEntry} :
    loadAccount! ledger id = .ok account ↔ ledger.store.account? id = some account := by
  simp only [loadAccount!, loadAccount_keyed h, bind, Except.bind]
  cases ledger.store.account? id with
  | none => simp [throw, throwThe, MonadExceptOf.throw]
  | some stored => simp [pure, Except.pure]

theorem Ledger.withAccount_keyed {ledger : Ledger} (h : ledger.store.Keyed)
    (account : AccountEntry) : (ledger.withAccount account).store.Keyed :=
  h.insert rfl

/-- A stored account is what is read back under its id, and no other id reads
anything new. -/
theorem Ledger.account?_withAccount (ledger : Ledger) (account : AccountEntry)
    (id : AccountId) :
    (ledger.withAccount account).store.account? id =
      if id = account.accountId then some account else ledger.store.account? id := by
  simp only [Store.account?, Ledger.withAccount, Ledger.store]
  split
  · next h =>
    subst h
    rw [Finmap.lookup_insert]
    rfl
  · next h =>
    have hne : LedgerKey.account id ≠ .account account.accountId := by simpa using h
    rw [Finmap.lookup_insert_of_ne _ hne]

/-- Storing an account leaves every other key alone. -/
theorem Ledger.lookup_withAccount_of_ne (ledger : Ledger) {account : AccountEntry}
    {key : LedgerKey} (h : key ≠ .account account.accountId) :
    (ledger.withAccount account).store.lookup key = ledger.store.lookup key :=
  Finmap.lookup_insert_of_ne _ h

theorem storeAccount_eq (d : Deps) (account : AccountEntry) (ledger : Ledger) :
    storeAccount d account ledger =
      match d.encodeAccount account with
      | .ok () => .ok () (ledger.withAccount account)
      | .error e => .error e ledger := by
  simp only [storeAccount, LedgerM.lift, bind, EStateM.bind]
  cases d.encodeAccount account <;> rfl

theorem rewriteAccount_eq (d : Deps) (id : AccountId) (f : Ledger → AccountEntry → AccountEntry)
    (ledger : Ledger) :
    rewriteAccount d id f ledger =
      match loadAccount! ledger id with
      | .ok account => storeAccount d (f ledger account) ledger
      | .error e => .error e ledger := by
  simp only [rewriteAccount, LedgerM.lift, bind, EStateM.bind]
  cases loadAccount! ledger id <;> rfl

/-- A rewrite throws and stores nothing, or stores the rewritten account. -/
theorem rewriteAccount_cases (d : Deps) (id : AccountId)
    (f : Ledger → AccountEntry → AccountEntry) (ledger : Ledger) :
    (∃ e, rewriteAccount d id f ledger = .error e ledger) ∨
      ∃ account, loadAccount! ledger id = .ok account ∧
        rewriteAccount d id f ledger = .ok () (ledger.withAccount (f ledger account)) := by
  rw [rewriteAccount_eq]
  cases hload : loadAccount! ledger id with
  | error e => exact .inl ⟨e, rfl⟩
  | ok account =>
    simp only [storeAccount_eq]
    cases d.encodeAccount (f ledger account) with
    | error e => exact .inl ⟨e, rfl⟩
    | ok u => exact .inr ⟨account, rfl, rfl⟩

/-- The ledger with another store. -/
def Ledger.withStore (ledger : Ledger) (store : Store) : Ledger :=
  { ledger with env := ledger.env.withStore store }

@[simp] theorem Ledger.withStore_store (ledger : Ledger) (store : Store) :
    (ledger.withStore store).store = store := rfl

/-- The account under an id was there, and is now `f` of what it was.  Nothing
else has changed. -/
structure Rewritten (id : AccountId) (f : AccountEntry → AccountEntry)
    (ledger ledger' : Ledger) : Prop where
  keyed : ledger'.store.Keyed
  frame : ledger' = ledger.withStore ledger'.store
  present : (ledger.store.account? id).isSome
  accounts : ∀ id', ledger'.store.account? id' =
    if id' = id then (ledger.store.account? id').map f else ledger.store.account? id'
  others : ∀ key, key ≠ .account id → ledger'.store.lookup key = ledger.store.lookup key

/-- A rewrite that returns has rewritten the account, and nothing else. -/
theorem rewriteAccount_ok {d : Deps} {id : AccountId}
    {f : Ledger → AccountEntry → AccountEntry} (hid : ∀ l a, (f l a).accountId = a.accountId)
    {ledger ledger' : Ledger} (hkeyed : ledger.store.Keyed)
    (h : rewriteAccount d id f ledger = .ok () ledger') :
    Rewritten id (f ledger) ledger ledger' := by
  rcases rewriteAccount_cases d id f ledger with ⟨e, hthrew⟩ | ⟨account, hload, hstored⟩
  · cases hthrew.symm.trans h
  · cases hstored.symm.trans h
    have ha := (loadAccount!_eq_ok hkeyed).mp hload
    have hkey : (f ledger account).accountId = id :=
      (hid ledger account).trans (hkeyed.accountId_eq ha)
    refine ⟨ledger.withAccount_keyed hkeyed _, rfl, by rw [ha]; rfl, fun id' => ?_,
      fun key hne => ?_⟩
    · rw [ledger.account?_withAccount, hkey]
      by_cases hid' : id' = id
      · subst hid'
        rw [if_pos rfl, if_pos rfl, ha]
        rfl
      · rw [if_neg hid', if_neg hid']
    · exact ledger.lookup_withAccount_of_ne (by rwa [hkey])

/-- A rewrite that throws has stored nothing. -/
theorem rewriteAccount_error {d : Deps} {id : AccountId}
    {f : Ledger → AccountEntry → AccountEntry} {ledger ledger' : Ledger} {e : JsError}
    (h : rewriteAccount d id f ledger = .error e ledger') : ledger' = ledger := by
  rcases rewriteAccount_cases d id f ledger with ⟨e', hthrew⟩ | ⟨account, -, hstored⟩
  · cases hthrew.symm.trans h
    rfl
  · cases hstored.symm.trans h

/-- `ledger'` differs from `ledger` in the store, and there under the keys of
accounts and trustlines at most. -/
structure ClassicOnly (ledger ledger' : Ledger) : Prop where
  frame : ledger' = ledger.withStore ledger'.store
  contracts : ∀ key, needsTtl key = true → ledger'.store.lookup key = ledger.store.lookup key

theorem ClassicOnly.refl (ledger : Ledger) : ClassicOnly ledger ledger := ⟨rfl, fun _ _ => rfl⟩

theorem ClassicOnly.trans {l₁ l₂ l₃ : Ledger} (h : ClassicOnly l₁ l₂) (h' : ClassicOnly l₂ l₃) :
    ClassicOnly l₁ l₃ := by
  refine ⟨?_, fun key hkey => (h'.contracts key hkey).trans (h.contracts key hkey)⟩
  rw [h'.frame, h.frame]
  rfl

theorem rewriteAccount_classicOnly {d : Deps} {id : AccountId}
    {f : Ledger → AccountEntry → AccountEntry} {ledger ledger' : Ledger} {u : Unit}
    (h : rewriteAccount d id f ledger = .ok u ledger') : ClassicOnly ledger ledger' := by
  rcases rewriteAccount_cases d id f ledger with ⟨e, hthrew⟩ | ⟨account, -, hstored⟩
  · cases hthrew.symm.trans h
  · cases hstored.symm.trans h
    refine ⟨rfl, fun key hkey => ledger.lookup_withAccount_of_ne ?_⟩
    rintro rfl
    cases hkey

/-! ## Sequence numbers and balances -/

/-- The sequence number of an account, if there is one. -/
def Store.seqNum? (store : Store) (id : AccountId) : Option Int :=
  (store.account? id).map (·.seqNum)

/-- The balance of an account, if there is one. -/
def Store.balance? (store : Store) (id : AccountId) : Option Int :=
  (store.account? id).map (·.balance)

/-- A bump sets one sequence number and moves no balance. -/
theorem Rewritten.seqNum_bumped {id : AccountId} {seqNum : Int} {ledger ledger' : Ledger}
    (h : Rewritten id (bumped ledger seqNum) ledger ledger') (id' : AccountId) :
    ledger'.store.seqNum? id' =
      if id' = id then some seqNum else ledger.store.seqNum? id' := by
  simp only [Store.seqNum?, h.accounts]
  split
  · next hid =>
    subst hid
    obtain ⟨a, ha⟩ := Option.isSome_iff_exists.mp h.present
    simp [ha, bumped]
  · rfl

theorem Rewritten.balance_bumped {id : AccountId} {seqNum : Int} {ledger ledger' : Ledger}
    (h : Rewritten id (bumped ledger seqNum) ledger ledger') (id' : AccountId) :
    ledger'.store.balance? id' = ledger.store.balance? id' := by
  simp only [Store.balance?, h.accounts]
  split
  · rw [Option.map_map]
    rfl
  · rfl

/-- A debit moves one balance and no sequence number. -/
theorem Rewritten.seqNum_debited {id : AccountId} {amount : Int} {ledger ledger' : Ledger}
    (h : Rewritten id (debited amount) ledger ledger') (id' : AccountId) :
    ledger'.store.seqNum? id' = ledger.store.seqNum? id' := by
  simp only [Store.seqNum?, h.accounts]
  split
  · rw [Option.map_map]
    rfl
  · rfl

theorem Rewritten.balance_debited {id : AccountId} {amount : Int} {ledger ledger' : Ledger}
    (h : Rewritten id (debited amount) ledger ledger') (id' : AccountId) :
    ledger'.store.balance? id' =
      if id' = id then (ledger.store.balance? id').map (· - amount)
      else ledger.store.balance? id' := by
  simp only [Store.balance?, h.accounts]
  split
  · rw [Option.map_map, Option.map_map]
    rfl
  · rfl

theorem bumpSequence_ok {d : Deps} {id : AccountId} {seqNum : Int} {ledger ledger' : Ledger}
    (hkeyed : ledger.store.Keyed) (h : bumpSequence d id seqNum ledger = .ok () ledger') :
    Rewritten id (bumped ledger seqNum) ledger ledger' :=
  rewriteAccount_ok (f := fun l => bumped l seqNum) (fun _ _ => rfl) hkeyed h

theorem debit_ok {d : Deps} {id : AccountId} {amount : Int} {ledger ledger' : Ledger}
    (hkeyed : ledger.store.Keyed) (h : debit d id amount ledger = .ok () ledger') :
    Rewritten id (debited amount) ledger ledger' :=
  rewriteAccount_ok (f := fun _ => debited amount) (fun _ _ => rfl) hkeyed h

end LiteSoroban

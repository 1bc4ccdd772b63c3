import LiteSoroban.Env.Rollback
import LiteSoroban.Ledger.WellFormed
import LiteSoroban.LiteStellar

/-!
# Replaying a setup

A test calls the facade, restores the snapshot it took before, and calls the
facade again in the same way.  The ledger is back where it was, but the facade
is not: the counter of default salts stays where the first run has left it,
and a payer that the first run created stays the payer.

`replay_rebuilds` says what is the same in the second run, for calls that draw
no default salt and, where there is no payer, name their source.  It compares
the two runs step by step.  `Ledger.Replays` relates the two ledgers, and every
program of the facade respects it.
-/

namespace LiteSoroban

open Effect

/-! ## The code of a store -/

/-- Code that is stored under this key is one of these codes, under its
hash. -/
def EntryWithLiveUntil.CodeHashed (d : Deps) (codes : Set Bytes) (key : LedgerKey)
    (e : EntryWithLiveUntil) : Prop :=
  ∀ hash, key = .contractCode hash → d.IsCode codes hash e.entry

/-- All code of a store is one of these codes, under its hash. -/
def Store.CodeHashed (d : Deps) (codes : Set Bytes) (store : Store) : Prop :=
  ∀ key e, store.lookup key = some e → e.CodeHashed d codes key

section

variable {d : Deps} {codes : Set Bytes}

theorem Store.CodeHashed.insert {store : Store} (h : store.CodeHashed d codes) {key : LedgerKey}
    {e : EntryWithLiveUntil} (he : e.CodeHashed d codes key) :
    Store.CodeHashed d codes (store.insert key e) :=
  Store.forall_insert (P := fun key e => e.CodeHashed d codes key) h he

theorem Store.CodeHashed.addressed {env : SorobanEnv} (h : env.store.CodeHashed d codes)
    (args : SendArgs) : CodeAddressed d codes env args :=
  fun hash e hfinds => h _ e hfinds.stored hash rfl

/-- The code a call hands over is one of these codes, under its hash. -/
def HostInput.HandsCode (d : Deps) (codes : Set Bytes) (input : HostInput) : Prop :=
  ∀ hash value ttl entry, (.contractCode hash, some value, ttl) ∈ input.handed →
    value.decoded = some entry → d.IsCode codes hash entry

/-- A store that has its code under its hash hands it over so. -/
theorem Prepared.handsCode {env : SorobanEnv} {args : SendArgs} {input : HostInput}
    {loaded : Loaded} (h : Prepared d env args input loaded)
    (hstore : env.store.CodeHashed d codes) : input.HandsCode d codes := by
  intro hash value ttl entry hmem hentry
  obtain ⟨e, hlookup, hdecoded⟩ := h.stored_of_handed hmem
  cases hdecoded.symm.trans hentry
  exact hstore _ e hlookup hash rfl

/-- What the host writes as code in this change is one of these codes, under
its hash. -/
def LedgerEntryChange.WritesCode (d : Deps) (codes : Set Bytes) (ch : LedgerEntryChange) : Prop :=
  ∀ hash newValue entry, ch.encodedKey.decoded = some (.contractCode hash) →
    ch.encodedNewValue = some newValue → newValue.decoded = some entry → d.IsCode codes hash entry

/-- What the environment seeds as one of these codes is that code, under its
hash. -/
def Deps.SeedsCode (d : Deps) (codes : Set Bytes) : Prop :=
  ∀ wasm ∈ codes, d.IsCode codes (d.getWasmHash wasm) (d.wasmEntry wasm)

/-- The host that is handed code under its hash writes it so, and so does the
environment. -/
structure Deps.WritesCode (d : Deps) (codes : Set Bytes) : Prop where
  changed : ∀ input ch, input.HandsCode d codes → d.Returns input ch → ch.WritesCode d codes
  seeded : d.SeedsCode codes

theorem mergeChange_codeHashed {ch : LedgerEntryChange} (hch : ch.WritesCode d codes) {m : Merged}
    (hm : m.store.CodeHashed d codes) :
    (finalState (mergeChange ch m)).store.CodeHashed d codes := by
  apply mergeChange_forall (P := fun key e => e.CodeHashed d codes key) ?_ (fun _ _ _ _ _ h => h) hm
  rintro _ newValue entry hkey hnew hentry hash rfl
  exact hch hash newValue entry hkey hnew hentry

/-- A call writes code under its hash, if what the host returns for it does. -/
theorem send_codeHashed_of {args : SendArgs} {env : SorobanEnv}
    (hwrites : ∀ input, prepareSend d env args = .ok input →
      ∀ ch, d.Returns input ch → ch.WritesCode d codes)
    (h : env.store.CodeHashed d codes) :
    (finalState (env.send d args)).store.CodeHashed d codes := by
  rcases send_frame d args env with ⟨cache, hframe⟩ | ⟨input, res, _, _, hdone, hframe⟩
  · rw [hframe]
    exact h
  · rw [hframe]
    exact mergeChanges_induction (P := fun m => m.store.CodeHashed d codes)
      (fun ch hch _ hm => mergeChange_codeHashed
        (hwrites input hdone.prepared ch ⟨res, hdone.returned, hch⟩) hm) h

theorem send_codeHashed (hhost : d.WritesCode codes) (args : SendArgs) {env : SorobanEnv}
    (h : env.store.CodeHashed d codes) :
    (finalState (env.send d args)).store.CodeHashed d codes := by
  refine send_codeHashed_of (fun input hprep ch hch => ?_) h
  obtain ⟨loaded, hprepared⟩ := prepareSend_ok hprep
  exact hhost.changed input ch (hprepared.handsCode h) hch

end

/-! ## Two ledgers of two runs -/

/-- The ledger with another module cache and other snapshots. -/
def Ledger.setAside (ledger : Ledger) (moduleCache : Option ModuleCache)
    (snapshots : List LedgerSnapshot) : Ledger :=
  { ledger with env := ledger.env.setAside moduleCache snapshots }

/-- The same settings, passphrase and snapshots. -/
def Ledger.SameSetup (start ledger : Ledger) : Prop :=
  ∃ store ledgerSeq timestamp prngCounter moduleCache, ledger = { start with
    env := { start.env with
      store := store
      ledgerSeq := ledgerSeq
      timestamp := timestamp
      prngCounter := prngCounter
      moduleCache := moduleCache } }

/-- No account of the store is missing in the other. -/
def Store.AccountsStay (store store' : Store) : Prop :=
  ∀ id, (store.lookup (.account id)).isSome → (store'.lookup (.account id)).isSome

theorem Store.AccountsStay.insert {store store' : Store} (h : store.AccountsStay store')
    (key : LedgerKey) (e : EntryWithLiveUntil) : store.AccountsStay (store'.insert key e) := by
  intro id hid
  by_cases hkey : .account id = key
  · rw [hkey, Finmap.lookup_insert]
    rfl
  · rw [Finmap.lookup_insert_of_ne _ hkey]
    exact h id hid

theorem Store.AccountsStay.erase {store store' : Store} (h : store.AccountsStay store')
    {key : LedgerKey} (hkey : ∀ id, key = .account id → store.lookup key = none) :
    store.AccountsStay (store'.erase key) := by
  intro id hid
  by_cases heq : .account id = key
  · rw [heq, hkey id heq.symm] at hid
    cases hid
  · rw [Finmap.lookup_erase_ne heq]
    exact h id hid

/-- The host removes no account: one that it removes was not handed over. -/
def Deps.RemovesNoAccount (d : Deps) : Prop :=
  ∀ input ch id, d.Returns input ch → ch.encodedKey.decoded = some (.account id) →
    ch.encodedNewValue = none → ch.readOnly = false →
    ∃ ttl, (.account id, none, ttl) ∈ input.handed

/-- An enforcing call leaves every account there is. -/
theorem send_accountsStay {d : Deps} (hhost : d.RemovesNoAccount) (args : SendArgs)
    (env : SorobanEnv) : env.store.AccountsStay (finalState (env.send d args)).store := by
  rcases send_frame d args env with ⟨cache, hframe⟩ | ⟨input, res, _, _, hdone, hframe⟩
  · rw [hframe]
    exact fun _ hid => hid
  · rw [hframe]
    obtain ⟨loaded, hprepared⟩ := prepareSend_ok hdone.prepared
    refine mergeChanges_induction (P := fun m => env.store.AccountsStay m.store)
      (fun ch hch m hm => ?_) fun _ hid => hid
    rcases mergeChange_cases ch m with hsame | ⟨key, newValue, entry, -, -, -, hstore⟩ |
      ⟨key, slot, ttl, -, -, -, -, -, hstore⟩ | ⟨key, hkey, hnone, hro, hstore⟩
    · rw [hsame]
      exact hm
    · rw [hstore]
      exact hm.insert _ _
    · rw [hstore]
      exact hm.insert _ _
    · rw [hstore]
      refine hm.erase ?_
      rintro id rfl
      obtain ⟨ttl, hhanded⟩ := hhost input ch id ⟨res, hdone.returned, hch⟩ hkey hnone hro
      exact hprepared.missing_of_handed rfl hhanded

/-- The ledgers of two runs that began in `start`: they differ in the module
cache and the snapshots. -/
structure Ledger.Replays (d : Deps) (codes : Set Bytes) (start ledger ledger' : Ledger) :
    Prop where
  setup : start.SameSetup ledger
  accounts : start.store.AccountsStay ledger.store
  code : ledger.store.CodeHashed d codes
  cache : ledger.env.CacheParsed d codes
  cache' : ledger'.env.CacheParsed d codes
  aside : ∃ moduleCache snapshots, ledger' = ledger.setAside moduleCache snapshots

/-- The assumptions on the code outside the repository, where the contracts are
these codes. -/
structure Deps.Replayable (d : Deps) (codes : Set Bytes) : Prop where
  reads : d.ReadsUsedCode
  hashes : d.HashesCode codes
  accounts : d.RemovesNoAccount
  code : d.WritesCode codes

section

variable {d : Deps} {codes : Set Bytes} {start : Ledger}

/-- The same store written in both. -/
theorem Ledger.Replays.withStore {ledger ledger' : Ledger}
    (h : Replays d codes start ledger ledger')
    (store : Store) (haccounts : start.store.AccountsStay store)
    (hcode : store.CodeHashed d codes) :
    Replays d codes start (ledger.withStore store) (ledger'.withStore store) := by
  obtain ⟨⟨_, ledgerSeq, timestamp, prngCounter, moduleCache, rfl⟩, -, -, hcache, hcache',
    moduleCache', snapshots, rfl⟩ := h
  exact ⟨⟨store, ledgerSeq, timestamp, prngCounter, moduleCache, rfl⟩, haccounts, hcode, hcache,
    hcache', moduleCache', snapshots, rfl⟩

theorem lift_respects {α : Type} {x : Ledger → Except JsError α}
    (hx : ∀ ledger moduleCache snapshots,
      x (Ledger.setAside ledger moduleCache snapshots) = x ledger) :
    Respects (Ledger.Replays d codes start) (LedgerM.lift x) := by
  intro ledger ledger' h
  obtain ⟨moduleCache, snapshots, hledger'⟩ := h.aside
  have hsame : x ledger' = x ledger := by
    rw [hledger']
    exact hx ledger moduleCache snapshots
  unfold LedgerM.lift
  rw [hsame]
  cases x ledger with
  | ok a => exact ⟨rfl, h⟩
  | error e => exact ⟨rfl, h⟩

/-- A program that reads the ledger, but neither the cache nor the snapshots. -/
theorem get_respects {α : Type} {f : Ledger → LedgerM α}
    (hsame : ∀ ledger moduleCache snapshots,
      f (Ledger.setAside ledger moduleCache snapshots) = f ledger)
    (hf : ∀ ledger, Respects (Ledger.Replays d codes start) (f ledger)) :
    Respects (Ledger.Replays d codes start) (get >>= f) := by
  refine .get_bind (fun ledger ledger' h => ?_) hf
  obtain ⟨moduleCache, snapshots, rfl⟩ := h.aside
  exact hsame ledger moduleCache snapshots

theorem putEntry_respects {entry : LedgerEntry} (key : LedgerKey) (hkey : keyOf entry = .ok key)
    (hcode : ∀ hash, key ≠ .contractCode hash) (liveUntil : Option Nat) :
    Respects (Ledger.Replays d codes start) (Ledger.putEntry entry liveUntil) := by
  intro ledger ledger' h
  have hwritten := h.withStore (ledger.store.insert key ⟨entry, liveUntil.map toUint32⟩)
    (h.accounts.insert key _) (h.code.insert fun hash heq => absurd heq (hcode hash))
  obtain ⟨moduleCache, snapshots, rfl⟩ := h.aside
  unfold Ledger.putEntry SorobanEnv.putEntry
  rw [hkey]
  exact ⟨rfl, hwritten⟩

theorem Ledger.simulate_setAside (args : SimulateArgs) (ledger : Ledger)
    (moduleCache : Option ModuleCache) (snapshots : List LedgerSnapshot) :
    Ledger.simulate d args (ledger.setAside moduleCache snapshots) =
      mapState (·.setAside moduleCache snapshots) (Ledger.simulate d args ledger) := by
  simp only [Ledger.simulate, Ledger.setAside, LiteSoroban.simulate_setAside]
  cases ledger.env.simulate d args <;> rfl

theorem simulate_respects (args : SimulateArgs) :
    Respects (Ledger.Replays d codes start) (Ledger.simulate d args) := by
  intro ledger ledger' h
  obtain ⟨moduleCache', snapshots, rfl⟩ := h.aside
  rw [Ledger.simulate_setAside]
  refine .mapState ?_
  obtain ⟨prng, hframe⟩ := simulate_frame d ledger.env args
  rw [Ledger.finalState_simulate, hframe]
  obtain ⟨⟨store, ledgerSeq, timestamp, _, moduleCache, rfl⟩, haccounts, hcode, hcache, hcache',
    -⟩ := h
  exact ⟨⟨store, ledgerSeq, timestamp, prng, moduleCache, rfl⟩, haccounts, hcode, hcache, hcache',
    moduleCache', snapshots, rfl⟩

theorem send_respects (hhost : d.Replayable codes) (args : SendArgs) :
    Respects (Ledger.Replays d codes start) (Ledger.send d args) := by
  intro ledger ledger' h
  obtain ⟨moduleCache, snapshots, rfl⟩ := h.aside
  let crossed : SendArgs :=
    { args with restoredRwEntryIndices := args.restoredRwEntryIndices.map toUint32 }
  obtain ⟨moduleCache', hsend⟩ := send_setAside hhost.reads hhost.hashes h.cache h.cache'
    (h.code.addressed crossed)
  have hmapped : Ledger.send d args (ledger.setAside moduleCache snapshots) =
      mapState (·.setAside moduleCache' snapshots) (Ledger.send d args ledger) := by
    simp only [Ledger.send, Ledger.setAside]
    rw [hsend]
    cases ledger.env.send d crossed <;> rfl
  have hparsed : (finalState ((ledger.env.setAside moduleCache snapshots).send d
      crossed)).CacheParsed d codes :=
    send_cacheParsed h.cache' ((h.code.addressed crossed).setAside _ _).among
  rw [hsend, finalState_mapState] at hparsed
  rw [hmapped]
  refine .mapState ?_
  have hframe := send_storesOnly d args ledger
  rw [Ledger.finalState_send] at hframe ⊢
  have hstay := send_accountsStay hhost.accounts crossed ledger.env
  refine ⟨?_, fun id hid => ?_, send_codeHashed hhost.code crossed h.code,
    send_cacheParsed h.cache
      (h.code.addressed crossed).among, hparsed, moduleCache', snapshots, rfl⟩
  · obtain ⟨⟨_, ledgerSeq, timestamp, prngCounter, _, rfl⟩, -⟩ := h
    obtain ⟨store, cache, hstore⟩ := hframe
    exact ⟨store, ledgerSeq, timestamp, prngCounter, cache, hstore⟩
  · exact hstay id (h.accounts id hid)

theorem seedWasm_respects (hhost : d.WritesCode codes) {code : Bytes} (hcode : code ∈ codes) :
    Respects (Ledger.Replays d codes start) (Ledger.seedWasm d code) := by
  intro ledger ledger' h
  obtain ⟨moduleCache, snapshots, hledger'⟩ := h.aside
  have hinfo : ledger'.env.ledgerInfo = ledger.env.ledgerInfo := by
    rw [hledger']
    rfl
  simp only [Ledger.seedWasm, Ledger.call, SorobanEnv.seedWasm, hinfo]
  cases ledger.env.ledgerInfo.minLiveUntilLedgerChecked with
  | none => exact ⟨rfl, h⟩
  | some ttl =>
    have hwritten := h.withStore
      (ledger.store.insert (.contractCode (d.getWasmHash code)) ⟨d.wasmEntry code, some ttl⟩)
      (h.accounts.insert _ _) (h.code.insert fun hash heq => by
        cases heq
        exact hhost.seeded code hcode)
    subst hledger'
    exact ⟨rfl, hwritten⟩

/-! ## The programs of a ledger -/

theorem storeAccount_respects (account : AccountEntry) :
    Respects (Ledger.Replays d codes start) (storeAccount d account) := by
  unfold storeAccount
  refine .bind (lift_respects fun _ _ _ => rfl) fun _ =>
    get_respects (fun _ _ _ => rfl) fun ledger => ?_
  exact putEntry_respects (.account account.accountId) rfl (by simp) none

end

section

variable {s : Sdk} {codes : Set Bytes} {start : Ledger}

theorem putTrustline_respects (trustLine : TrustLineEntry) :
    Respects (Ledger.Replays s.toDeps codes start) (putTrustline s trustLine) := by
  unfold putTrustline
  refine .bind (lift_respects fun _ _ _ => rfl) fun _ =>
    get_respects (fun _ _ _ => rfl) fun ledger => ?_
  exact putEntry_respects (.trustline trustLine.accountId trustLine.asset) rfl (by simp) none

theorem countSubEntry_respects (id : AccountId) :
    Respects (Ledger.Replays s.toDeps codes start) (countSubEntry s id) := by
  unfold countSubEntry
  refine .bind (lift_respects fun _ _ _ => rfl) fun found => ?_
  cases found with
  | none => exact .pure ()
  | some account => exact storeAccount_respects _

theorem establishTrustline_respects (holder : Wallet) (asset : Asset) (opts : TrustlineOptions) :
    Respects (Ledger.Replays s.toDeps codes start) (establishTrustline s holder asset opts) := by
  cases asset with
  | native => exact .pure ()
  | credit code issuer =>
    unfold establishTrustline
    refine get_respects (fun _ _ _ => rfl) fun ledger =>
      .bind (lift_respects fun _ _ _ => rfl) fun balance =>
        .bind (putTrustline_respects _) fun _ => ?_
    split
    · exact countSubEntry_respects holder.accountId
    · exact .pure ()

theorem establishTrustlineIfMissing_respects (holder : Wallet) (asset : Asset) :
    Respects (Ledger.Replays s.toDeps codes start)
      (establishTrustlineIfMissing s holder asset) := by
  cases asset with
  | native => exact .pure ()
  | credit code issuer =>
    unfold establishTrustlineIfMissing
    refine get_respects (fun _ _ _ => rfl) fun ledger => ?_
    split
    · exact .pure ()
    · exact establishTrustline_respects holder _ {}

theorem Recipient.establishTrustline_respects (recipient : Recipient) (asset : Asset) :
    Respects (Ledger.Replays s.toDeps codes start) (recipient.establishTrustline s asset) := by
  cases recipient with
  | wallet w => exact establishTrustlineIfMissing_respects w asset
  | address a => exact .pure ()

variable (hhost : s.toDeps.Replayable codes)

include hhost

theorem sendSimulated_respects (hostFunction : HostFunction) (source : AccountId)
    (auth : List SorobanAuthorizationEntry) (sim : SimulateResult) :
    Respects (Ledger.Replays s.toDeps codes start)
      (sendSimulated s hostFunction source auth sim) := by
  unfold sendSimulated
  split
  · exact .throw _
  · exact send_respects hhost _

theorem apply_respects (hostFunction : HostFunction) (source : AccountId) :
    Respects (Ledger.Replays s.toDeps codes start) (apply s hostFunction source) := by
  unfold apply
  refine .bind (simulate_respects _) fun sim => ?_
  have hsend : Respects (Ledger.Replays s.toDeps codes start) (do
      let sent ← sendSimulated s hostFunction source sim.auth sim
      if !sent.ok then throw ⟨"send failed: " ++ sent.error.getD "undefined"⟩
      return sent) := by
    refine .bind (sendSimulated_respects hhost _ _ _ _) fun sent => ?_
    dsimp only
    split
    · exact .bind (.throw _) fun _ => .pure sent
    · exact .pure sent
  dsimp only
  split
  · exact .bind (.throw _) fun _ => hsend
  · exact hsend

theorem Token.call_respects (token : Token) (fn : String) (args : List ScVal) (source : Wallet) :
    Respects (Ledger.Replays s.toDeps codes start) (token.call s fn args source) :=
  .bind (lift_respects fun _ _ _ => rfl) fun _ => apply_respects hhost _ _

theorem Token.mint_respects (token : Token) (recipient : Recipient) (amount : Int) :
    Respects (Ledger.Replays s.toDeps codes start) (token.mint s recipient amount) :=
  .bind (recipient.establishTrustline_respects token.asset) fun _ =>
    .bind (lift_respects fun _ _ _ => rfl) fun _ =>
      .bind (token.call_respects hhost _ _ _) fun _ => .pure ()

theorem Token.transfer_respects (token : Token) (sender : Wallet) (recipient : Recipient)
    (amount : Int) :
    Respects (Ledger.Replays s.toDeps codes start) (token.transfer s sender recipient amount) :=
  .bind (recipient.establishTrustline_respects token.asset) fun _ =>
    .bind (lift_respects fun _ _ _ => rfl) fun _ =>
      .bind (token.call_respects hhost _ _ _) fun _ => .pure ()

theorem sendHostFn_respects (hostFunction : HostFunction) (source : AccountId)
    (auth : List SorobanAuthorizationEntry) (sim : SimulateResult) :
    Respects (Ledger.Replays s.toDeps codes start)
      (LiteStellar.sendHostFn s hostFunction source auth sim) :=
  .bind (sendSimulated_respects hhost _ _ _ _) fun _ => .pure _

theorem applyHostFn_respects (hostFunction : HostFunction) (source : AccountId)
    (opts : InvokeOptions) :
    Respects (Ledger.Replays s.toDeps codes start)
      (LiteStellar.applyHostFn s hostFunction source opts) := by
  unfold LiteStellar.applyHostFn
  refine .bind (simulate_respects _) fun recorded => ?_
  split
  · exact .pure _
  · split
    · refine .bind (lift_respects fun _ _ _ => rfl) fun signed =>
        .bind (simulate_respects _) fun enforced => ?_
      split
      · exact .pure _
      · exact sendHostFn_respects hhost _ _ _ _
    · exact sendHostFn_respects hhost _ _ _ _

end

/-! ## The calls of the facade -/

/-- The calls that set a world up. -/
inductive FacadeCall where
  | airdrop (opts : FundOptions)
  | deployContract (wasm : Bytes) (opts : DeployOptions)
  | deployFromHash (wasmHash : Hash) (opts : DeployOptions)
  | invoke (address : ScAddress) (fn : String) (args : List ScVal) (opts : InvokeOptions)
  | trust (holder : Wallet) (asset : Asset) (limit : Option Int) (authorized : Option Bool)
  | mint (token : Token) (recipient : Recipient) (amount : Int)
  | transfer (token : Token) (sender : Wallet) (recipient : Recipient) (amount : Int)
  | advanceLedgers (n : Nat)

inductive FacadeAnswer where
  | funded (wallet : Wallet)
  | deployed (address : ScAddress)
  | returned (value : Option ScVal)
  | done
  deriving DecidableEq

namespace FacadeCall

/-- One call. -/
def perform (s : Sdk) : FacadeCall → LiteStellarM FacadeAnswer
  | .airdrop opts => do return .funded (← LiteStellar.airdrop s opts)
  | .deployContract wasm opts => do return .deployed (← LiteStellar.deployContract s wasm opts)
  | .deployFromHash wasmHash opts => do
    return .deployed (← LiteStellar.deployFromHash s wasmHash opts)
  | .invoke address fn args opts => do
    return .returned (← LiteStellar.invoke s address fn args opts)
  | .trust holder asset limit authorized => do
    LiteStellar.trust s holder asset limit authorized
    return .done
  | .mint token recipient amount => do
    LiteStellarM.ofLedger (token.mint s recipient amount)
    return .done
  | .transfer token sender recipient amount => do
    LiteStellarM.ofLedger (token.transfer s sender recipient amount)
    return .done
  | .advanceLedgers n => do
    LiteStellar.advanceLedgers n
    return .done

/-- The options of a deployment. -/
def deploys? : FacadeCall → Option DeployOptions
  | .deployContract _ opts => some opts
  | .deployFromHash _ opts => some opts
  | _ => none

/-- The options of a call that has a source. -/
def invokes? : FacadeCall → Option InvokeOptions
  | .invoke _ _ _ opts => some opts
  | call => call.deploys?.map (·.toInvokeOptions)

/-- The call leaves nothing to the state of the facade that a run may change:
it draws no default salt, and no payer has to be created for it.  What it
deploys is one of these codes. -/
structure Settled (codes : Set Bytes) (payerWallet : Option Wallet) (call : FacadeCall) : Prop where
  code : ∀ wasm opts, call = .deployContract wasm opts → wasm ∈ codes
  salt : ∀ opts, call.deploys? = some opts → opts.salt.isSome
  source : ∀ opts, call.invokes? = some opts → opts.source.isSome ∨ payerWallet.isSome

end FacadeCall

/-- The machine of such calls. -/
def facade (s : Sdk) : Machine LiteStellar FacadeCall (Except Thrown FacadeAnswer) where
  step svm call := (answer (call.perform s svm), finalState (call.perform s svm))

/-- The facades of two runs that began in `start`.  They have read as many
keypairs, and have the payer they began with. -/
structure LiteStellar.Replays (d : Deps) (codes : Set Bytes) (start svm svm' : LiteStellar) :
    Prop where
  ledger : Ledger.Replays d codes start.ledger svm.ledger svm'.ledger
  drawn : svm'.drawn = svm.drawn
  payer : svm.payerWallet = start.payerWallet
  payer' : svm'.payerWallet = start.payerWallet

section

variable {s : Sdk} {codes : Set Bytes} {start : LiteStellar}

theorem ofLedger_respects {α : Type} {x : LedgerM α}
    (hx : Respects (Ledger.Replays s.toDeps codes start.ledger) x) :
    Respects (LiteStellar.Replays s.toDeps codes start) (LiteStellarM.ofLedger x) := by
  intro svm svm' h
  unfold LiteStellarM.ofLedger
  rcases (hx _ _ h.ledger).cases with ⟨a, ledger, ledger', hrun, hrun', hends⟩ |
    ⟨e, ledger, ledger', hrun, hrun', hends⟩
  · rw [hrun, hrun']
    exact ⟨rfl, hends, h.drawn, h.payer, h.payer'⟩
  · rw [hrun, hrun']
    exact ⟨rfl, hends, h.drawn, h.payer, h.payer'⟩

theorem ofExcept_respects {α : Type} (x : Except JsError α) :
    Respects (LiteStellar.Replays s.toDeps codes start) (LiteStellarM.ofExcept x) :=
  ofLedger_respects (lift_respects fun _ _ _ => rfl)

theorem airdrop_respects (opts : FundOptions) :
    Respects (LiteStellar.Replays s.toDeps codes start) (LiteStellar.airdrop s opts) := by
  unfold LiteStellar.airdrop
  refine .bind ?_ fun keypair =>
    ofLedger_respects (.bind (storeAccount_respects _) fun _ => .pure _)
  intro svm svm' h
  refine ⟨?_, h.ledger, congrArg (· + 1) h.drawn, h.payer, h.payer'⟩
  show Except.ok (s.randomKeypair svm'.drawn) = .ok (s.randomKeypair svm.drawn)
  rw [h.drawn]

theorem LiteStellar.payer_some {svm : LiteStellar} {wallet : Wallet}
    (h : svm.payerWallet = some wallet) : LiteStellar.payer s svm = .ok wallet svm := by
  unfold LiteStellar.payer
  simp only [bind, EStateM.bind, get, getThe, Effect.get_run, h]
  rfl

theorem sourceOf_respects {opts : InvokeOptions}
    (hsource : opts.source.isSome ∨ start.payerWallet.isSome) :
    Respects (LiteStellar.Replays s.toDeps codes start) (LiteStellar.sourceOf s opts) := by
  unfold LiteStellar.sourceOf
  cases hgiven : opts.source with
  | some wallet => exact .pure _
  | none =>
    rw [hgiven] at hsource
    obtain ⟨wallet, hwallet⟩ := Option.isSome_iff_exists.mp (hsource.resolve_left (by simp))
    refine .bind (fun svm svm' h => ?_) fun _ => .pure _
    rw [LiteStellar.payer_some (h.payer.trans hwallet),
      LiteStellar.payer_some (h.payer'.trans hwallet)]
    exact ⟨rfl, h⟩

theorem throwFailure_respects {α : Type} (error : Option HostFailure) :
    Respects (LiteStellar.Replays s.toDeps codes start)
      (LiteStellar.throwFailure (α := α) error) := by
  cases error with
  | none => exact .throw _
  | some failure => exact .throw _

theorem advanceLedgers_respects (n : Nat) :
    Respects (LiteStellar.Replays s.toDeps codes start) (LiteStellar.advanceLedgers n) := by
  intro svm svm' h
  refine ⟨rfl, ?_, h.drawn, h.payer, h.payer'⟩
  obtain ⟨⟨⟨store, ledgerSeq, timestamp, prngCounter, moduleCache, hsetup⟩, haccounts, hcode,
    hcache, hcache', moduleCache', snapshots, haside⟩, -, -, -⟩ := h
  refine ⟨?_, haccounts, hcode, hcache, hcache', moduleCache', snapshots, ?_⟩
  · show start.ledger.SameSetup (svm.ledger.advanceLedgers n)
    rw [hsetup]
    exact ⟨store, _, _, prngCounter, moduleCache, rfl⟩
  · show svm'.ledger.advanceLedgers n =
      (svm.ledger.advanceLedgers n).setAside moduleCache' snapshots
    rw [haside]
    rfl

variable (hhost : s.toDeps.Replayable codes)

include hhost

theorem invoke_respects (address : ScAddress) (fn : String) (args : List ScVal)
    {opts : InvokeOptions} (hsource : opts.source.isSome ∨ start.payerWallet.isSome) :
    Respects (LiteStellar.Replays s.toDeps codes start)
      (LiteStellar.invoke s address fn args opts) := by
  unfold LiteStellar.invoke
  refine .bind (.bind (sourceOf_respects hsource) fun source => .bind (ofExcept_respects _) fun _ =>
    .bind (ofLedger_respects (applyHostFn_respects hhost _ _ _)) fun _ =>
      ofExcept_respects _) fun r => ?_
  dsimp only
  split
  · exact .bind (throwFailure_respects _) fun _ => .pure _
  · exact .pure _

theorem deployFromHash_respects (wasmHash : Hash) {opts : DeployOptions} (hsalt : opts.salt.isSome)
    (hsource : opts.source.isSome ∨ start.payerWallet.isSome) :
    Respects (LiteStellar.Replays s.toDeps codes start)
      (LiteStellar.deployFromHash s wasmHash opts) := by
  unfold LiteStellar.deployFromHash
  refine .bind (sourceOf_respects hsource) fun source => .bind ?_ fun salt =>
    .bind (ofExcept_respects _) fun _ =>
      .bind (ofLedger_respects (applyHostFn_respects hhost _ _ _)) fun r => ?_
  · obtain ⟨salt, hgiven⟩ := Option.isSome_iff_exists.mp hsalt
    rw [hgiven]
    exact .pure salt
  · dsimp only
    split
    · exact .bind (throwFailure_respects _) fun _ => ofExcept_respects _
    · exact ofExcept_respects _

/-- A settled call answers alike in two runs, and leaves them related. -/
theorem FacadeCall.perform_respects {call : FacadeCall}
    (hcall : call.Settled codes start.payerWallet) :
    Respects (LiteStellar.Replays s.toDeps codes start) (call.perform s) := by
  cases call with
  | airdrop opts => exact .bind (airdrop_respects opts) fun _ => .pure _
  | deployContract wasm opts =>
    exact .bind (.bind (ofLedger_respects (seedWasm_respects hhost.code
      (hcall.code wasm opts rfl))) fun wasmHash =>
      deployFromHash_respects hhost wasmHash (hcall.salt opts rfl) (hcall.source _ rfl)) fun _ =>
      .pure _
  | deployFromHash wasmHash opts =>
    exact .bind (deployFromHash_respects hhost wasmHash (hcall.salt opts rfl)
      (hcall.source _ rfl)) fun _ => .pure _
  | invoke address fn args opts =>
    exact .bind (invoke_respects hhost address fn args (hcall.source opts rfl)) fun _ => .pure _
  | trust holder asset limit authorized =>
    exact .bind (ofLedger_respects (establishTrustline_respects holder asset _)) fun _ => .pure _
  | mint token recipient amount =>
    exact .bind (ofLedger_respects (token.mint_respects hhost recipient amount)) fun _ => .pure _
  | transfer token sender recipient amount =>
    exact .bind (ofLedger_respects (token.transfer_respects hhost sender recipient amount))
      fun _ => .pure _
  | advanceLedgers n => exact .bind (advanceLedgers_respects n) fun _ => .pure _

end

/-! ## The second run -/

/-- The account that the getter of the payer names is in the store. -/
def LiteStellar.PayerStored (s : Sdk) (svm : LiteStellar) : Prop :=
  ∀ wallet svm', LiteStellar.payer s svm = .ok wallet svm' →
    (svm'.ledger.store.lookup (.account wallet.accountId)).isSome

/-- `restore` of a snapshot after some calls. -/
def LiteStellar.rollback (s : Sdk) (taken : LiteStellar) (id : Nat) (calls : List FacadeCall) :
    EStateM.Result Thrown LiteStellar Unit :=
  LiteStellar.restore id ((facade s).run taken calls)

/-- The facade that is rolled back, with the keypairs read again from where
the first calls read them. -/
def LiteStellar.again (s : Sdk) (taken : LiteStellar) (id : Nat) (calls : List FacadeCall) :
    LiteStellar :=
  { finalState (taken.rollback s id calls) with drawn := taken.drawn }

/-- Calls after a snapshot, a restore of it, and the same calls again: the
second run is as the first. -/
structure LiteStellar.Rebuilds (s : Sdk) (taken : LiteStellar) (id : Nat)
    (calls : List FacadeCall) : Prop where
  restores : answer (taken.rollback s id calls) = .ok ()
  answers : (facade s).outs (taken.again s id calls) calls = (facade s).outs taken calls
  stateHash : ∀ (horder : s.toDeps.OrdersKeys) (x : XdrEncoder),
    ((facade s).run (taken.again s id calls) calls).stateHash horder x =
      ((facade s).run taken calls).stateHash horder x
  payer : ∀ done, done <+: calls → ((facade s).run taken done).PayerStored s ∧
    ((facade s).run (taken.again s id calls) done).PayerStored s

/-- The module cache holds modules that were parsed, the code is stored under
its hash, and the payer, if there is one, is in the store. -/
structure LiteStellar.Sound (d : Deps) (codes : Set Bytes) (svm : LiteStellar) : Prop where
  cache : svm.ledger.env.CacheParsed d codes
  code : svm.ledger.store.CodeHashed d codes
  payer : ∀ wallet, svm.payerWallet = some wallet →
    (svm.ledger.store.lookup (.account wallet.accountId)).isSome

theorem LiteStellar.Sound.replays {d : Deps} {codes : Set Bytes} {svm svm' : LiteStellar}
    (h : svm.Sound d codes)
    (moduleCache : Option ModuleCache) (snapshots : List LedgerSnapshot)
    (hledger : svm'.ledger = svm.ledger.setAside moduleCache snapshots)
    (hcache : svm'.ledger.env.CacheParsed d codes) (hdrawn : svm'.drawn = svm.drawn)
    (hpayer : svm'.payerWallet = svm.payerWallet) :
    LiteStellar.Replays d codes svm svm svm' :=
  ⟨⟨⟨_, _, _, _, _, rfl⟩, fun _ hid => hid, h.code, h.cache, hcache, moduleCache, snapshots,
    hledger⟩, hdrawn, rfl, hpayer⟩

theorem fund_stored {d : Deps} {id : AccountId} {opts : FundOptions} {ledger ledger' : Ledger}
    (h : Ledger.fund d id opts ledger = .ok () ledger') :
    (ledger'.store.lookup (.account id)).isSome := by
  unfold Ledger.fund fundAccount at h
  rw [storeAccount_eq] at h
  split at h
  · cases h
    exact Option.isSome_iff_exists.mpr ⟨_, Finmap.lookup_insert _⟩
  · cases h

theorem airdrop_stored {s : Sdk} {opts : FundOptions} {svm svm' : LiteStellar} {wallet : Wallet}
    (h : LiteStellar.airdrop s opts svm = .ok wallet svm') :
    (svm'.ledger.store.lookup (.account wallet.accountId)).isSome := by
  unfold LiteStellar.airdrop at h
  obtain ⟨keypair, mid, -, hwallet⟩ := bind_eq_ok.mp h
  unfold LiteStellarM.ofLedger at hwallet
  cases hrun : preFundedWallet s keypair opts mid.ledger with
  | error e ledger =>
    rw [hrun] at hwallet
    cases hwallet
  | ok funded ledger =>
    rw [hrun] at hwallet
    cases hwallet
    obtain ⟨_, _, hfund, hpure⟩ := bind_eq_ok.mp hrun
    cases hpure
    exact fund_stored hfund

theorem LiteStellar.payerStored_of {s : Sdk} {svm : LiteStellar}
    (h : ∀ wallet, svm.payerWallet = some wallet →
      (svm.ledger.store.lookup (.account wallet.accountId)).isSome) : svm.PayerStored s := by
  intro wallet svm' hpayer
  cases hwallet : svm.payerWallet with
  | some stored =>
    rw [LiteStellar.payer_some hwallet] at hpayer
    cases hpayer
    exact h wallet hwallet
  | none =>
    -- The getter creates the payer, which funds its account.
    unfold LiteStellar.payer at hpayer
    simp only [bind_eq_ok] at hpayer
    obtain ⟨_, _, hget, hpayer⟩ := hpayer
    cases hget
    simp only [hwallet, bind_eq_ok] at hpayer
    obtain ⟨created, mid, hairdrop, _, _, hmodify, hpure⟩ := hpayer
    cases hmodify
    cases hpure
    have hstored := airdrop_stored hairdrop
    exact hstored

/-- In two runs from a sound facade the payer is in the store. -/
theorem LiteStellar.Replays.payerStored {s : Sdk} {codes : Set Bytes}
    {start svm svm' : LiteStellar} (hstart : start.Sound s.toDeps codes)
    (h : LiteStellar.Replays s.toDeps codes start svm svm') :
    svm.PayerStored s ∧ svm'.PayerStored s := by
  obtain ⟨moduleCache, snapshots, haside⟩ := h.ledger.aside
  constructor
  · refine LiteStellar.payerStored_of fun wallet hwallet => h.ledger.accounts _ ?_
    exact hstart.payer wallet (h.payer.symm.trans hwallet)
  · refine LiteStellar.payerStored_of fun wallet hwallet => ?_
    rw [haside]
    refine h.ledger.accounts _ ?_
    exact hstart.payer wallet (h.payer'.symm.trans hwallet)

/-- Two runs of settled calls from related facades stay related. -/
theorem LiteStellar.Replays.run {s : Sdk} {codes : Set Bytes}
    (hhost : s.toDeps.Replayable codes) {start svm svm' : LiteStellar}
    (h : LiteStellar.Replays s.toDeps codes start svm svm')
    {calls : List FacadeCall} (hcalls : ∀ call ∈ calls, call.Settled codes start.payerWallet) :
    (facade s).outs svm calls = (facade s).outs svm' calls ∧
      LiteStellar.Replays s.toDeps codes start ((facade s).run svm calls)
        ((facade s).run svm' calls) := by
  have hall := (facade s).allSteps_of_mem
    (P := fun _ call => call.Settled codes start.payerWallet) svm
    fun call hmem _ => hcalls call hmem
  constructor
  · exact (facade s).lockstep_outs (facade s) (R := LiteStellar.Replays s.toDeps codes start)
      (fun _ _ _ hpair hcall => (FacadeCall.perform_respects hhost hcall _ _ hpair).ends)
      (fun _ _ _ hpair hcall => (FacadeCall.perform_respects hhost hcall _ _ hpair).answers.symm)
      h hall
  · exact (facade s).lockstep_run (facade s) (R := LiteStellar.Replays s.toDeps codes start)
      (fun _ _ _ hpair hcall => (FacadeCall.perform_respects hhost hcall _ _ hpair).ends) h hall

/-- The facade after a snapshot that was taken, and its id, which crosses as it
is. -/
theorem snapshot_ok {svm taken : LiteStellar} {id : Nat}
    (h : LiteStellar.snapshot svm = .ok id taken) :
    id = svm.ledger.env.snapshots.length ∧ toUint32 id = id ∧
      taken = { svm with ledger := svm.ledger.withSnapshot } := by
  unfold LiteStellar.snapshot LiteStellarM.ofLedger at h
  rcases svm.ledger.snapshot_cases with ⟨e, hfull⟩ | ⟨hid, htaken⟩
  · rw [hfull] at h
    cases h
  · rw [htaken] at h
    cases h
    exact ⟨rfl, hid, rfl⟩

/-- Calls that draw no default salt, and name their source where there is no
payer, rebuild after a rollback what they built before it. -/
theorem replay_rebuilds {s : Sdk} {codes : Set Bytes} (hhost : s.toDeps.Replayable codes)
    {svm taken : LiteStellar} {id : Nat} (hsnapshot : LiteStellar.snapshot svm = .ok id taken)
    (hsvm : svm.Sound s.toDeps codes) {calls : List FacadeCall}
    (hcalls : ∀ call ∈ calls, call.Settled codes svm.payerWallet) :
    taken.Rebuilds s id calls := by
  obtain ⟨rfl, hid, rfl⟩ := snapshot_ok hsnapshot
  let id := svm.ledger.env.snapshots.length
  let taken : LiteStellar := { svm with ledger := svm.ledger.withSnapshot }
  let later := (facade s).run taken calls
  let snap : LedgerSnapshot := ⟨svm.ledger.env.store, svm.ledger.env.ledgerSeq,
    svm.ledger.env.timestamp, svm.ledger.env.prngCounter⟩
  have htaken : taken.Sound s.toDeps codes := ⟨hsvm.cache, hsvm.code, hsvm.payer⟩
  have hself : LiteStellar.Replays s.toDeps codes taken taken taken :=
    htaken.replays svm.ledger.env.moduleCache taken.ledger.env.snapshots rfl htaken.cache rfl rfl
  have hlater : LiteStellar.Replays s.toDeps codes taken later later := (hself.run hhost hcalls).2
  obtain ⟨store, ledgerSeq, timestamp, prngCounter, moduleCache, hsetup⟩ := hlater.ledger.setup
  have hsnap : later.ledger.env.snapshots[toUint32 id]? = some snap := by
    rw [hid, hsetup]
    exact List.getElem?_concat_length
  have hrestore : taken.rollback s id calls = .ok () { later with
      ledger := { later.ledger with env := later.ledger.env.restoreFrom snap } } := by
    unfold LiteStellar.rollback LiteStellar.restore LiteStellarM.ofLedger
    rw [Ledger.restore_ok.mpr ⟨snap, hsnap, rfl⟩]
  -- The second run starts where the first did, over the module cache it left.
  have hagain : LiteStellar.Replays s.toDeps codes taken taken (taken.again s id calls) := by
    unfold LiteStellar.again
    rw [hrestore]
    refine htaken.replays moduleCache taken.ledger.env.snapshots ?_ hlater.ledger.cache rfl
      hlater.payer
    show { later.ledger with env := later.ledger.env.restoreFrom snap } = _
    rw [hsetup]
    rfl
  have hreplay := hagain.run hhost hcalls
  refine ⟨by rw [hrestore]; rfl, hreplay.1.symm, fun horder x => ?_, fun done hdone => ?_⟩
  · obtain ⟨_, _, haside⟩ := hreplay.2.ledger.aside
    unfold LiteStellar.stateHash
    rw [haside]
    rfl
  · exact (hagain.run hhost fun call hcall => hcalls call (hdone.subset hcall)).2.payerStored htaken

/-- Where the host puts a contract: at an address made of its deployer and its
salt. -/
def Sdk.NamesContracts (s : Sdk) (contractId : AccountId → Bytes → ScAddress) : Prop :=
  ∀ deployer wasmHash salt args hostFunction,
    s.createContractHostFn deployer wasmHash salt args = .ok hostFunction →
    ∀ input res value, input.hostFunction = hostFunction →
      (s.invokeHostFunction input).result = .ok res → res.encodedInvokeResult = .ok value →
      ∃ returned, value.decoded = some returned ∧
        s.scvAddress? returned = some (contractId deployer salt)

/-- The bytes of a deployer and a salt. -/
def deploymentBytes (deployer salt : Bytes) : Bytes :=
  deployer.flatMap (fun byte => [1, byte]) ++ 0 :: salt

theorem deploymentBytes_injective : Function.Injective2 deploymentBytes := by
  intro deployer deployer' salt salt' h
  induction deployer generalizing deployer' with
  | nil =>
    cases deployer' with
    | nil => simpa [deploymentBytes] using h
    | cons byte deployer' => simp [deploymentBytes] at h
  | cons byte deployer ih =>
    cases deployer' with
    | nil => simp [deploymentBytes] at h
    | cons byte' deployer' =>
      simp only [deploymentBytes, List.flatMap_cons, List.cons_append, List.nil_append,
        List.cons.injEq, true_and] at h
      obtain ⟨rfl, hrest⟩ := h
      obtain ⟨rfl, rfl⟩ := ih hrest
      exact ⟨rfl, rfl⟩

/-- A host that returns what it is called with. -/
def echoDeps : Deps :=
  { Deps.ordering with
    invokeHostFunction := fun input =>
      ⟨.ok ⟨.ok ⟨0, some ⟨input.hostFunction.xdr⟩⟩, [], []⟩, 0, 0, []⟩
    recordHostFunction := fun input =>
      ⟨.ok ⟨.ok ⟨input.hostFunction.xdr⟩, ⟨⟨[], []⟩, 0, 0, 0⟩, [], [], [], [], 0⟩, 0, 0, []⟩ }

/-- The SDK around it: a deployment is its deployer and its salt. -/
def echoSdk : Sdk :=
  { Sdk.idle with
    toDeps := echoDeps
    createContractHostFn := fun deployer _ salt _ =>
      .ok ⟨deploymentBytes deployer.ed25519 salt⟩ }

theorem echo_returns (input : HostInput) (ch : LedgerEntryChange) :
    ¬ echoDeps.Returns input ch := by
  rintro ⟨res, hres, hmem⟩
  cases hres
  cases hmem

theorem echo_replayable (codes : Set Bytes) : echoDeps.Replayable codes where
  reads input input' h := by
    have hsame : input.hostFunction = input'.hostFunction := congrArg (·.hostFunction) h
    simp only [echoDeps, hsame]
  hashes := ⟨fun _ _ _ h => (by cases h), fun _ _ _ _ h => h⟩
  accounts input ch _ h := absurd h (echo_returns input ch)
  code := ⟨fun input ch _ h => absurd h (echo_returns input ch), fun _ hmem => ⟨_, rfl, hmem, rfl⟩⟩

theorem echo_namesContracts :
    echoSdk.NamesContracts fun deployer salt => ⟨deploymentBytes deployer.ed25519 salt⟩ := by
  rintro deployer wasmHash salt args _ ⟨⟩ input res value hinput hres hvalue
  cases hres
  cases hvalue
  exact ⟨⟨input.hostFunction.xdr⟩, rfl, by rw [hinput]; rfl⟩

/-- A facade whose one account is 7, with a payer or without. -/
def payingStellar (payerWallet : Option Wallet) : LiteStellar :=
  ⟨sampleLedger 7, {}, payerWallet, 0, 0⟩

/-- The same after its first snapshot. -/
def takenStellar (payerWallet : Option Wallet) : LiteStellar :=
  ⟨(sampleLedger 7).withSnapshot, {}, payerWallet, 0, 0⟩

/-- The wallet of account 7. -/
def payingWallet : Wallet := ⟨(sampleAccount 7).accountId⟩

theorem payingStellar_sound (d : Deps) (codes : Set Bytes) {payerWallet : Option Wallet}
    (h : ∀ wallet, payerWallet = some wallet → wallet = payingWallet) :
    (payingStellar payerWallet).Sound d codes where
  cache hash hhash := absurd hhash (Finset.notMem_empty hash)
  code := by
    refine @Store.CodeHashed.insert d codes ∅ (fun key e he => ?_) _ _ fun hash heq => ?_
    · rw [Finmap.lookup_empty] at he
      cases he
    · cases heq
  payer wallet hwallet := by
    cases h wallet hwallet
    rfl

/-- One deployment by account 7 with a default salt, and one with a salt and
the default payer. -/
def defaultSalt : List FacadeCall := [.deployFromHash [] { source := some payingWallet }]

def defaultPayer : List FacadeCall := [.deployFromHash [] { salt := some [] }]

/-- The second deployment gets the next salt. -/
theorem defaultSalt_differs :
    ¬ (takenStellar (some payingWallet)).Rebuilds echoSdk 0 defaultSalt := by
  have hfirst : (facade echoSdk).outs (takenStellar (some payingWallet)) defaultSalt =
      [.ok (.deployed
        ⟨deploymentBytes payingWallet.accountId.ed25519 (List.replicate 32 0)⟩)] := rfl
  have hsecond : (facade echoSdk).outs
      ((takenStellar (some payingWallet)).again echoSdk 0 defaultSalt) defaultSalt =
      [.ok (.deployed
        ⟨deploymentBytes payingWallet.accountId.ed25519 (List.replicate 31 0 ++ [1])⟩)] := rfl
  intro h
  have hsalts := hsecond.symm.trans (h.answers.trans hfirst)
  revert hsalts
  decide

/-- The payer of the first run is the payer of the second, and has no
account. -/
theorem defaultPayer_differs : ¬ (takenStellar none).Rebuilds echoSdk 0 defaultPayer := by
  have hpayer : ((takenStellar none).again echoSdk 0 defaultPayer).payerWallet =
      some ⟨echoSdk.randomKeypair 0⟩ := rfl
  have hmissing : (((takenStellar none).again echoSdk 0 defaultPayer).ledger.store.lookup
      (.account (echoSdk.randomKeypair 0))).isSome = false := rfl
  intro h
  have hstored := (h.payer [] List.nil_prefix).2 _ _ (LiteStellar.payer_some hpayer)
  exact absurd (hmissing.symm.trans hstored) (by decide)

/-- Over a host and contract addresses as they should be, default salts break a
replay, and so does the default payer. -/
theorem replay_differs :
    (¬ ∀ (s : Sdk) (contractId : AccountId → Bytes → ScAddress), s.toDeps.Replayable Set.univ →
      Function.Injective2 contractId → s.NamesContracts contractId →
      ∀ (svm taken : LiteStellar) (id : Nat) (calls : List FacadeCall),
        LiteStellar.snapshot svm = .ok id taken → svm.Sound s.toDeps Set.univ →
          taken.Rebuilds s id calls) ∧
    ¬ (takenStellar none).Rebuilds echoSdk 0 defaultPayer := by
  refine ⟨fun hclaim => ?_, defaultPayer_differs⟩
  have hinjective : Function.Injective2 fun (deployer : AccountId) (salt : Bytes) =>
      (⟨deploymentBytes deployer.ed25519 salt⟩ : ScAddress) := by
    rintro ⟨deployer⟩ ⟨deployer'⟩ salt salt' h
    obtain ⟨rfl, rfl⟩ := deploymentBytes_injective (ScAddress.mk.inj h)
    exact ⟨rfl, rfl⟩
  exact defaultSalt_differs (hclaim echoSdk _ (echo_replayable _) hinjective echo_namesContracts
    (payingStellar (some payingWallet)) _ 0 _ rfl (payingStellar_sound _ _ (by simp)))

/-- Wallets, a deployment that names its salt and its source, and time. -/
def settledCalls : List FacadeCall :=
  [.airdrop {}, .deployContract [7] { salt := some [5], source := some payingWallet },
    .invoke ⟨[]⟩ "f" [] { source := some payingWallet }, .advanceLedgers 5]

theorem settledCalls_rebuild : (takenStellar none).Rebuilds echoSdk 0 settledCalls := by
  refine @replay_rebuilds echoSdk {[7]} (echo_replayable _) (payingStellar none) (takenStellar none)
    0 rfl (payingStellar_sound _ _ (by simp)) settledCalls fun call hcall => ?_
  simp only [settledCalls, List.mem_cons, List.not_mem_nil, or_false] at hcall
  rcases hcall with rfl | rfl | rfl | rfl
  · exact ⟨by rintro _ _ ⟨⟩, by rintro _ ⟨⟩, by rintro _ ⟨⟩⟩
  · exact ⟨by rintro _ _ ⟨⟩; rfl, by rintro _ ⟨⟩; rfl, by rintro _ ⟨⟩; exact .inl rfl⟩
  · exact ⟨by rintro _ _ ⟨⟩, by rintro _ ⟨⟩, by rintro _ ⟨⟩; exact .inl rfl⟩
  · exact ⟨by rintro _ _ ⟨⟩, by rintro _ ⟨⟩, by rintro _ ⟨⟩⟩

end LiteSoroban

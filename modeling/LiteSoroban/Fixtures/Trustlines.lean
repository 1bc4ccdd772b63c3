import LiteSoroban.Classic.SequenceSpec
import LiteSoroban.Ledger.WellFormed
import LiteSoroban.LiteStellar

/-!
# What the trustline calls do

Five calls give trustlines: a token's `trust`, `mint` and `transfer`, the
facade's `trust`, and `establishTrustline` itself.  The last is under all of
them, and `mint` and `transfer` call the host afterwards.

`TrustlineWrite` says all that `establishTrustline` can do to a ledger, and
`HostCalled` all that a token's call can.  `TrustlineOp.perform_final` puts
every one of the five together from the two.
-/

namespace LiteSoroban

open Effect

/-! ## The trustlines of a store -/

/-- Whether a key is a trustline's of an account. -/
def LedgerKey.isTrustlineOf (id : AccountId) : LedgerKey → Bool
  | .trustline holder _ => holder == id
  | _ => false

/-- The keys of the trustlines an account holds. -/
def Store.trustlineKeys (store : Store) (id : AccountId) : Finset LedgerKey :=
  store.keys.filter fun key => key.isTrustlineOf id

/-- The number of trustlines an account holds. -/
def Store.trustlineCount (store : Store) (id : AccountId) : Nat := (store.trustlineKeys id).card

def LedgerEntryData.trustline? : LedgerEntryData → Option TrustLineEntry
  | .trustline trustLine => some trustLine
  | _ => none

/-- The trustline an account holds in an asset. -/
def Store.trustline? (store : Store) (id : AccountId) (asset : TrustLineAsset) :
    Option TrustLineEntry :=
  (store.lookup (.trustline id asset)).bind fun e => e.entry.data.trustline?

theorem Store.mem_trustlineKeys {store : Store} {id : AccountId} {key : LedgerKey} :
    key ∈ store.trustlineKeys id ↔ key.isTrustlineOf id = true ∧ (store.lookup key).isSome := by
  unfold Store.trustlineKeys
  rw [Finset.mem_filter, Finmap.mem_keys, ← Finmap.lookup_isSome, and_comm]

/-- Two stores with entries under the same trustline keys count alike. -/
theorem Store.trustlineCount_congr {store store' : Store}
    (h : ∀ id asset, (store'.lookup (.trustline id asset)).isSome =
      (store.lookup (.trustline id asset)).isSome) (id : AccountId) :
    store'.trustlineCount id = store.trustlineCount id := by
  have hkeys : store'.trustlineKeys id = store.trustlineKeys id := by
    ext key
    rw [Store.mem_trustlineKeys, Store.mem_trustlineKeys]
    refine and_congr_right fun hkey => ?_
    cases key with
    | trustline holder asset => rw [h holder asset]
    | _ => cases hkey
  unfold Store.trustlineCount
  rw [hkeys]

/-- A trustline that was not there is one more of its holder's. -/
theorem Store.trustlineCount_insert {store : Store} {id : AccountId} {asset : TrustLineAsset}
    (hnew : store.lookup (.trustline id asset) = none) (e : EntryWithLiveUntil)
    (id' : AccountId) :
    Store.trustlineCount (store.insert (.trustline id asset) e) id' =
      store.trustlineCount id' + (if id' = id then 1 else 0) := by
  have hkeys : Store.trustlineKeys (store.insert (.trustline id asset) e) id' =
      if id' = id then insert (.trustline id asset) (store.trustlineKeys id')
      else store.trustlineKeys id' := by
    ext key
    rw [Store.mem_trustlineKeys]
    by_cases hkey : key = .trustline id asset
    · subst hkey
      rw [Finmap.lookup_insert]
      by_cases hid : id' = id
      · subst hid
        simp [LedgerKey.isTrustlineOf]
      · rw [if_neg hid, Store.mem_trustlineKeys]
        simp [LedgerKey.isTrustlineOf, Ne.symm hid]
    · rw [Finmap.lookup_insert_of_ne _ hkey, ← Store.mem_trustlineKeys]
      split
      · rw [Finset.mem_insert, or_iff_right hkey]
      · rfl
  unfold Store.trustlineCount
  rw [hkeys]
  split
  · refine Finset.card_insert_of_notMem fun hmem => ?_
    have hsome := (Store.mem_trustlineKeys.mp hmem).2
    rw [hnew] at hsome
    cases hsome
  · rfl

/-! ## What the fixtures write -/

/-- The ledger with a trustline written. -/
def Ledger.withTrustline (ledger : Ledger) (trustLine : TrustLineEntry) : Ledger :=
  ledger.withStore (ledger.store.insert (.trustline trustLine.accountId trustLine.asset)
    ⟨trustlineLedgerEntry ledger.ledgerSeq trustLine, none⟩)

/-- The ledger after `establishTrustline`: as it was, with a stored trustline
written over, or with one more trustline and then its account counted. -/
inductive TrustlineWrite (s : Sdk) (holder : Wallet) (asset : Asset) (opts : TrustlineOptions)
    (ledger : Ledger) : Ledger → Prop where
  | untouched : TrustlineWrite s holder asset opts ledger ledger
  | rewritten {code : Bytes} {issuer : AccountId} {stored : LedgerEntry}
      {trustLine : TrustLineEntry} (hasset : asset = .credit code issuer)
      (hstored : ledger.getEntry (trustlineKey holder code issuer) = some stored)
      (hholder : trustLine.accountId = holder.accountId)
      (hline : trustLine.asset = trustLineAsset code issuer)
      (hbalance : ∀ old, stored.data.trustline? = some old →
        trustLine.balance = opts.balance.getD old.balance) :
      TrustlineWrite s holder asset opts ledger (ledger.withTrustline trustLine)
  | created {code : Bytes} {issuer : AccountId} (hasset : asset = .credit code issuer)
      (hmissing : ledger.getEntry (trustlineKey holder code issuer) = none)
      (hencoded : s.encodeTrustLine (newTrustline holder code issuer opts) = .ok ()) :
      TrustlineWrite s holder asset opts ledger (finalState (countSubEntry s holder.accountId
        (ledger.withTrustline (newTrustline holder code issuer opts))))

theorem putTrustline_eq (s : Sdk) (trustLine : TrustLineEntry) (ledger : Ledger) :
    putTrustline s trustLine ledger = match s.encodeTrustLine trustLine with
      | .ok () => .ok () (ledger.withTrustline trustLine)
      | .error e => .error e ledger := by
  unfold putTrustline LedgerM.lift
  simp only [bind, EStateM.bind]
  cases s.encodeTrustLine trustLine <;> rfl

/-- The balance written over a stored trustline is the one given, or the stored
one. -/
theorem keptBalance_ok {stored : LedgerEntry} {opts : TrustlineOptions} {entry : TrustLineEntry}
    {balance : Int} (hentry : entry.balance = opts.balance.getD 0)
    (h : keptBalance (some stored) opts entry = .ok balance) :
    ∀ old, stored.data.trustline? = some old → balance = opts.balance.getD old.balance := by
  intro old hold
  unfold keptBalance at h
  cases hgiven : opts.balance with
  | some given =>
    simp only [hgiven] at h hentry
    cases h
    exact hentry
  | none =>
    simp only [hgiven] at h
    cases hdata : stored.data with
    | trustline trustLine =>
      simp only [hdata] at h hold
      cases h
      cases hold
      rfl
    | _ => simp only [hdata] at h; cases h

theorem establishTrustline_final (s : Sdk) (holder : Wallet) (asset : Asset)
    (opts : TrustlineOptions) (ledger : Ledger) :
    TrustlineWrite s holder asset opts ledger
      (finalState (establishTrustline s holder asset opts ledger)) := by
  cases asset with
  | native => exact .untouched
  | credit code issuer =>
    cases hexisting : ledger.getEntry (trustlineKey holder code issuer) with
    | none =>
      have hrun : establishTrustline s holder (.credit code issuer) opts ledger =
          match s.encodeTrustLine (newTrustline holder code issuer opts) with
          | .ok () => countSubEntry s holder.accountId
            (ledger.withTrustline (newTrustline holder code issuer opts))
          | .error e => .error e ledger := by
        simp only [establishTrustline, bind, EStateM.bind, get, getThe, Effect.get_run, hexisting,
          LedgerM.lift, keptBalance, putTrustline_eq]
        cases s.encodeTrustLine (newTrustline holder code issuer opts) <;> rfl
      rw [hrun]
      cases hencoded : s.encodeTrustLine (newTrustline holder code issuer opts) with
      | error e => exact .untouched
      | ok u => exact .created rfl hexisting hencoded
    | some stored =>
      cases hbalance : keptBalance (some stored) opts (newTrustline holder code issuer opts) with
      | error e =>
        have hrun : establishTrustline s holder (.credit code issuer) opts ledger =
            .error e ledger := by
          simp only [establishTrustline, bind, EStateM.bind, get, getThe, Effect.get_run, hexisting,
            LedgerM.lift, hbalance]
        rw [hrun]
        exact .untouched
      | ok balance =>
        have hrun : establishTrustline s holder (.credit code issuer) opts ledger =
            putTrustline s { newTrustline holder code issuer opts with balance := balance }
              ledger := by
          simp only [establishTrustline, bind, EStateM.bind, get, getThe, Effect.get_run, hexisting,
            LedgerM.lift, hbalance, Option.isNone_some, Bool.false_eq_true, if_false]
          cases putTrustline s { newTrustline holder code issuer opts with balance := balance }
            ledger <;> rfl
        rw [hrun, putTrustline_eq]
        cases s.encodeTrustLine { newTrustline holder code issuer opts with balance := balance } with
        | error e => exact .untouched
        | ok u => exact .rewritten rfl hexisting rfl rfl (keptBalance_ok rfl hbalance)

/-- Where a trustline is missing one is created, and nothing else is done. -/
theorem establishTrustlineIfMissing_cases (s : Sdk) (holder : Wallet) (asset : Asset)
    (ledger : Ledger) :
    finalState (establishTrustlineIfMissing s holder asset ledger) = ledger ∨
    ∃ code issuer, asset = .credit code issuer ∧
      ledger.getEntry (trustlineKey holder code issuer) = none ∧
      s.encodeTrustLine (newTrustline holder code issuer {}) = .ok () ∧
      finalState (establishTrustlineIfMissing s holder asset ledger) =
        finalState (countSubEntry s holder.accountId
          (ledger.withTrustline (newTrustline holder code issuer {}))) := by
  cases asset with
  | native => exact .inl rfl
  | credit code issuer =>
    have hrun : establishTrustlineIfMissing s holder (.credit code issuer) ledger =
        if (ledger.getEntry (trustlineKey holder code issuer)).isSome then .ok () ledger
        else establishTrustline s holder (.credit code issuer) {} ledger := by
      simp only [establishTrustlineIfMissing, bind, EStateM.bind, get, getThe, Effect.get_run]
      split <;> rfl
    rw [hrun]
    split
    · exact .inl rfl
    · next hmissing =>
      rw [Option.not_isSome_iff_eq_none] at hmissing
      have hwrite := establishTrustline_final s holder (.credit code issuer) {} ledger
      generalize finalState (establishTrustline s holder (.credit code issuer) {} ledger) = final
        at hwrite ⊢
      cases hwrite with
      | untouched => exact .inl rfl
      | rewritten hasset hstored =>
        cases hasset
        cases hmissing.symm.trans hstored
      | created hasset _ hencoded =>
        cases hasset
        exact .inr ⟨code, issuer, rfl, hmissing, hencoded, rfl⟩

theorem establishTrustlineIfMissing_final (s : Sdk) (holder : Wallet) (asset : Asset)
    (ledger : Ledger) :
    TrustlineWrite s holder asset {} ledger
      (finalState (establishTrustlineIfMissing s holder asset ledger)) := by
  rcases establishTrustlineIfMissing_cases s holder asset ledger with hsame |
    ⟨code, issuer, hasset, hmissing, hencoded, hfinal⟩
  · rw [hsame]
    exact .untouched
  · rw [hfinal]
    exact .created hasset hmissing hencoded

/-! ## A token's call -/

/-- `mint` or `transfer` of an asset's contract. -/
def Sdk.IsAssetCall (s : Sdk) (sac : ScAddress → Prop) (hostFunction : HostFunction) : Prop :=
  ∃ address fn args, sac address ∧ (fn = "mint" ∨ fn = "transfer") ∧
    s.invokeHostFn address fn args = .ok hostFunction

/-- What a call of the host can do to the store: nothing, or one merge of the
changes of a call that the host completed. -/
def HostCalled (d : Deps) (calls : HostFunction → Prop) (store store' : Store) : Prop :=
  store' = store ∨ ∃ env args input res value consumed, env.store = store ∧
    calls args.hostFunction ∧ HostCompleted d env args input res value consumed ∧
    store' = mergedStore store res.ledgerChanges

theorem send_hostCalled (d : Deps) (args : SendArgs) (ledger : Ledger) :
    HostCalled d (· = args.hostFunction) ledger.store
      (finalState (Ledger.send d args ledger)).store := by
  rw [Ledger.finalState_send]
  rcases send_frame d _ ledger.env with ⟨cache, hframe⟩ | ⟨_, _, _, _, hdone, hframe⟩
  · rw [hframe]
    exact .inl rfl
  · rw [hframe]
    exact .inr ⟨ledger.env,
      { args with restoredRwEntryIndices := args.restoredRwEntryIndices.map toUint32 },
      _, _, _, _, rfl, rfl, hdone, rfl⟩

theorem simulate_store (d : Deps) (args : SimulateArgs) (ledger : Ledger) :
    (finalState (Ledger.simulate d args ledger)).store = ledger.store := by
  obtain ⟨prng, hframe⟩ := simulate_frame d ledger.env args
  rw [Ledger.finalState_simulate, hframe]
  rfl

/-- `apply` stops before it sends and leaves the store as it was, or it ends in
the ledger that `send` leaves, and throws when `send` throws or fails. -/
theorem apply_cases (s : Sdk) (hostFunction : HostFunction) (source : AccountId)
    (ledger : Ledger) :
    (∃ e ledger', apply s hostFunction source ledger = .error e ledger' ∧
      ledger'.store = ledger.store) ∨
    ∃ sim mid resources,
      Ledger.simulate s.toDeps (simulateCall hostFunction source none) ledger = .ok sim mid ∧
      sim.ok = true ∧ sim.resources = some resources ∧ mid.store = ledger.store ∧
      apply s hostFunction source ledger =
        match Ledger.send s.toDeps (sendCall hostFunction source resources sim.auth sim) mid with
        | .error e ledger' => .error e ledger'
        | .ok sent ledger' =>
          if sent.ok then .ok sent ledger'
          else .error ⟨"send failed: " ++ sent.error.getD "undefined"⟩ ledger' := by
  have hstore := simulate_store s.toDeps (simulateCall hostFunction source none) ledger
  unfold apply
  simp only [bind, EStateM.bind]
  cases hsim : Ledger.simulate s.toDeps (simulateCall hostFunction source none) ledger with
  | error e mid =>
    rw [hsim] at hstore
    exact .inl ⟨e, mid, rfl, hstore⟩
  | ok sim mid =>
    rw [hsim] at hstore
    cases hok : sim.ok with
    | false =>
      exact .inl ⟨⟨"simulate failed: " ++ sim.error.getD "undefined"⟩, mid,
        by simp only [hok]; rfl, hstore⟩
    | true =>
      cases hresources : sim.resources with
      | none =>
        unfold sendSimulated
        simp only [hresources]
        exact .inl ⟨⟨"xdr"⟩, mid, by simp only [hok]; rfl, hstore⟩
      | some resources =>
        refine .inr ⟨sim, mid, resources, rfl, hok, hresources, hstore, ?_⟩
        simp only [hok, sendSimulated, hresources, Bool.not_true, Bool.false_eq_true, if_false]
        cases hsend : Ledger.send s.toDeps
            (sendCall hostFunction source resources sim.auth sim) mid with
        | error e ledger' => simp only [EStateM.bind, hsend]
        | ok sent ledger' =>
          simp only [EStateM.bind, hsend]
          cases sent.ok <;> rfl

theorem HostCalled.mono {d : Deps} {calls calls' : HostFunction → Prop} {store store' : Store}
    (hcalls : ∀ hostFunction, calls hostFunction → calls' hostFunction)
    (h : HostCalled d calls store store') : HostCalled d calls' store store' := by
  rcases h with hsame | ⟨env, args, input, res, value, consumed, henv, hcall, hdone, hstore⟩
  · exact .inl hsame
  · exact .inr ⟨env, args, input, res, value, consumed, henv, hcalls _ hcall, hdone, hstore⟩

theorem apply_hostCalled (s : Sdk) (hostFunction : HostFunction) (source : AccountId)
    (ledger : Ledger) :
    HostCalled s.toDeps (· = hostFunction) ledger.store
      (finalState (apply s hostFunction source ledger)).store := by
  rcases apply_cases s hostFunction source ledger with ⟨e, ledger', happly, hstore⟩ |
    ⟨sim, mid, resources, -, -, -, hmid, happly⟩
  · rw [happly]
    exact .inl hstore
  · have hsent := send_hostCalled s.toDeps
      (sendCall hostFunction source resources sim.auth sim) mid
    rw [hmid] at hsent
    rw [happly]
    cases hsend : Ledger.send s.toDeps
        (sendCall hostFunction source resources sim.auth sim) mid with
    | error e ledger' =>
      rw [hsend] at hsent
      exact hsent
    | ok sent ledger' =>
      rw [hsend] at hsent
      simp only
      split <;> exact hsent

/-- The calls that `mint` and `transfer` make, with the amount encoded first. -/
theorem Token.call_hostCalled (s : Sdk) (token : Token) {fn : String}
    (hfn : fn = "mint" ∨ fn = "transfer") (args : ScVal → List ScVal) (amount : Int)
    (source : Wallet) (ledger : Ledger) :
    HostCalled s.toDeps (s.IsAssetCall (· = token.address)) ledger.store
      (finalState ((do
        let value ← LedgerM.lift fun _ => s.i128 amount
        let _ ← token.call s fn (args value) source : LedgerM Unit) ledger)).store := by
  simp only [Token.call, LedgerM.lift, bind, EStateM.bind]
  cases s.i128 amount with
  | error e => exact .inl rfl
  | ok value =>
    simp only
    cases hencode : s.invokeHostFn token.address fn (args value) with
    | error e => exact .inl rfl
    | ok hostFunction =>
      have hcalled := apply_hostCalled s hostFunction source.accountId ledger
      simp only
      cases happly : apply s hostFunction source.accountId ledger with
      | error e ledger' =>
        rw [happly] at hcalled
        exact hcalled.mono fun _ heq => ⟨_, fn, _, rfl, hfn, heq ▸ hencode⟩
      | ok sent ledger' =>
        rw [happly] at hcalled
        exact hcalled.mono fun _ heq => ⟨_, fn, _, rfl, hfn, heq ▸ hencode⟩

/-! ## The five calls -/

/-- The calls that give trustlines, of tokens, of the facade, and of the
fixtures. -/
inductive TrustlineOp where
  /-- `Token.trust`. -/
  | trust (token : Token) (holder : Wallet)
  /-- `Token.mint`. -/
  | mint (token : Token) (recipient : Recipient) (amount : Int)
  /-- `Token.transfer`. -/
  | transfer (token : Token) (sender : Wallet) (recipient : Recipient) (amount : Int)
  /-- `LiteStellar.trust`. -/
  | facadeTrust (holder : Wallet) (asset : Asset) (limit : Option Int) (authorized : Option Bool)
  | establishTrustline (holder : Wallet) (asset : Asset) (opts : TrustlineOptions)

/-- One call. -/
def TrustlineOp.perform (s : Sdk) : TrustlineOp → LiteStellarM Unit
  | .trust token holder => .ofLedger (token.trust s holder)
  | .mint token recipient amount => .ofLedger (token.mint s recipient amount)
  | .transfer token sender recipient amount =>
    .ofLedger (token.transfer s sender recipient amount)
  | .facadeTrust holder asset limit authorized => LiteStellar.trust s holder asset limit authorized
  | .establishTrustline holder asset opts =>
    .ofLedger (LiteSoroban.establishTrustline s holder asset opts)

/-- The machine of a run of such calls. -/
def trustlineCalls (s : Sdk) : Machine LiteStellar TrustlineOp (Except Thrown Unit) where
  step svm op := (answer (op.perform s svm), finalState (op.perform s svm))

/-- The trustline a call asks for: its holder, its asset and its options. -/
structure Grant where
  holder : Wallet
  asset : Asset
  opts : TrustlineOptions

def Recipient.grant? (asset : Asset) : Recipient → Option Grant
  | .wallet w => some ⟨w, asset, {}⟩
  | .address _ => none

def TrustlineOp.grant? : TrustlineOp → Option Grant
  | .trust token holder => some ⟨holder, token.asset, {}⟩
  | .mint token recipient _ => recipient.grant? token.asset
  | .transfer token _ recipient _ => recipient.grant? token.asset
  | .facadeTrust holder asset limit authorized =>
    some ⟨holder, asset, { limit := limit, authorized := authorized }⟩
  | .establishTrustline holder asset opts => some ⟨holder, asset, opts⟩

/-- The token whose contract a call goes to. -/
def TrustlineOp.called? : TrustlineOp → Option Token
  | .mint token _ _ => some token
  | .transfer token _ _ _ => some token
  | _ => none

/-- The host function a call may send. -/
def TrustlineOp.Sends (s : Sdk) (op : TrustlineOp) (hostFunction : HostFunction) : Prop :=
  ∃ token, op.called? = some token ∧ s.IsAssetCall (· = token.address) hostFunction

/-- The ledger of a call's own writes: as it was, or with the trustline it asks
for written. -/
def TrustlineOp.Writes (s : Sdk) (op : TrustlineOp) (ledger ledger' : Ledger) : Prop :=
  ledger' = ledger ∨ ∃ g, op.grant? = some g ∧
    TrustlineWrite s g.holder g.asset g.opts ledger ledger'

/-- A recipient's trustline, and then a call of the host. -/
theorem Recipient.establishTrustline_then {s : Sdk} {op : TrustlineOp} (recipient : Recipient)
    {asset : Asset} (hgrant : op.grant? = recipient.grant? asset) {x : LedgerM Unit}
    (hx : ∀ ledger, HostCalled s.toDeps (op.Sends s) ledger.store (finalState (x ledger)).store)
    (ledger : Ledger) :
    ∃ mid, op.Writes s ledger mid ∧ HostCalled s.toDeps (op.Sends s) mid.store
      (finalState ((recipient.establishTrustline s asset >>= fun _ => x) ledger)).store := by
  refine ⟨finalState (recipient.establishTrustline s asset ledger), ?_, ?_⟩
  · cases recipient with
    | address a => exact .inl rfl
    | wallet w => exact .inr ⟨_, hgrant, establishTrustlineIfMissing_final s w asset ledger⟩
  · simp only [bind, EStateM.bind]
    cases recipient.establishTrustline s asset ledger with
    | error e mid => exact .inl rfl
    | ok u mid => exact hx mid

theorem finalState_ofLedger {α : Type} (x : LedgerM α) (svm : LiteStellar) :
    finalState (LiteStellarM.ofLedger x svm) = { svm with ledger := finalState (x svm.ledger) } := by
  unfold LiteStellarM.ofLedger
  cases x svm.ledger <;> rfl

/-- What a call does: it writes the trustline it asks for, if it asks for one,
and then calls the host, if it does. -/
theorem TrustlineOp.perform_final (s : Sdk) (op : TrustlineOp) (svm : LiteStellar) :
    ∃ mid, op.Writes s svm.ledger mid ∧
      HostCalled s.toDeps (op.Sends s) mid.store (finalState (op.perform s svm)).ledger.store := by
  cases op with
  | trust token holder =>
    simp only [TrustlineOp.perform, finalState_ofLedger]
    exact ⟨_, .inr ⟨_, rfl, establishTrustlineIfMissing_final s holder token.asset svm.ledger⟩,
      .inl rfl⟩
  | mint token recipient amount =>
    simp only [TrustlineOp.perform, finalState_ofLedger]
    refine recipient.establishTrustline_then rfl (fun ledger => ?_) svm.ledger
    exact (token.call_hostCalled s (.inl rfl) _ amount token.issuer ledger).mono
      fun _ hcall => ⟨token, rfl, hcall⟩
  | transfer token sender recipient amount =>
    simp only [TrustlineOp.perform, finalState_ofLedger]
    refine recipient.establishTrustline_then rfl (fun ledger => ?_) svm.ledger
    exact (token.call_hostCalled s (.inr rfl) _ amount sender ledger).mono
      fun _ hcall => ⟨token, rfl, hcall⟩
  | facadeTrust holder asset limit authorized =>
    simp only [TrustlineOp.perform, LiteStellar.trust, finalState_ofLedger]
    exact ⟨_, .inr ⟨_, rfl, establishTrustline_final s holder asset _ svm.ledger⟩, .inl rfl⟩
  | establishTrustline holder asset opts =>
    simp only [TrustlineOp.perform, finalState_ofLedger]
    exact ⟨_, .inr ⟨_, rfl, establishTrustline_final s holder asset opts svm.ledger⟩, .inl rfl⟩

/-- The asset of the trustlines in an asset.  The native one has none. -/
def Asset.line? : Asset → Option TrustLineAsset
  | .native => none
  | .credit code issuer => some (trustLineAsset code issuer)

/-- Every trustline there was is still there.  Its balance is the one it had,
or the one given for its holder and its asset. -/
def TrustlineOp.KeepsBalances (op : TrustlineOp) (store store' : Store) : Prop :=
  ∀ id asset trustLine, store.trustline? id asset = some trustLine →
    ∃ trustLine', store'.trustline? id asset = some trustLine' ∧
      (trustLine'.balance = trustLine.balance ∨ ∃ g, op.grant? = some g ∧ g.holder.accountId = id ∧
        g.asset.line? = some asset ∧ g.opts.balance = some trustLine'.balance)

theorem countSubEntry_trustline? (s : Sdk) (counted : AccountId) (ledger : Ledger) (id : AccountId)
    (asset : TrustLineAsset) :
    (finalState (countSubEntry s counted ledger)).store.trustline? id asset =
      ledger.store.trustline? id asset := by
  unfold countSubEntry LedgerM.lift
  simp only [bind, EStateM.bind]
  cases loadAccount ledger counted with
  | error e => rfl
  | ok found =>
    cases found with
    | none => rfl
    | some account =>
      simp only [storeAccount_eq]
      cases s.encodeAccount { account with numSubEntries := account.numSubEntries + 1 } with
      | error e => rfl
      | ok u =>
        unfold Store.trustline?
        rw [finalState_ok, ledger.lookup_withAccount_of_ne (by simp)]

/-- The writes of a call keep the balances. -/
theorem TrustlineOp.Writes.keepsBalances {s : Sdk} {op : TrustlineOp} {ledger ledger' : Ledger}
    (h : op.Writes s ledger ledger') : op.KeepsBalances ledger.store ledger'.store := by
  intro id asset old hold
  rcases h with rfl | ⟨g, hgrant, hwrite⟩
  · exact ⟨old, hold, .inl rfl⟩
  have hother : ∀ trustLine : TrustLineEntry,
      LedgerKey.trustline id asset ≠ .trustline trustLine.accountId trustLine.asset →
      (ledger.withTrustline trustLine).store.trustline? id asset = some old := by
    intro trustLine hne
    rw [← hold]
    unfold Store.trustline? Ledger.withTrustline
    rw [Ledger.withStore_store, Finmap.lookup_insert_of_ne _ hne]
  cases hwrite with
  | untouched => exact ⟨old, hold, .inl rfl⟩
  | @rewritten code issuer stored trustLine hasset hstored hholder hline hbalance =>
    by_cases hkey : LedgerKey.trustline id asset = .trustline trustLine.accountId trustLine.asset
    · have hnew : (ledger.withTrustline trustLine).store.trustline? id asset = some trustLine := by
        unfold Store.trustline? Ledger.withTrustline
        rw [Ledger.withStore_store, hkey, Finmap.lookup_insert]
        rfl
      have hdata : stored.data.trustline? = some old := by
        unfold Store.trustline? at hold
        rw [hkey, hholder, hline] at hold
        obtain ⟨e, he, rfl⟩ := Ledger.getEntry_eq_some.mp hstored
        rw [show LedgerKey.trustline g.holder.accountId (trustLineAsset code issuer) =
          trustlineKey g.holder code issuer from rfl, he] at hold
        exact hold
      refine ⟨trustLine, hnew, ?_⟩
      have hkept := hbalance old hdata
      cases hgiven : g.opts.balance with
      | none =>
        rw [hgiven] at hkept
        exact .inl hkept
      | some given =>
        rw [hgiven] at hkept
        cases hkey
        refine .inr ⟨g, hgrant, hholder.symm, ?_, ?_⟩
        · rw [hasset, hline]
          rfl
        · rw [hgiven, hkept]
          rfl
    · exact ⟨old, hother trustLine hkey, .inl rfl⟩
  | @created code issuer hasset hmissing _ =>
    refine ⟨old, ?_, .inl rfl⟩
    rw [countSubEntry_trustline?]
    refine hother _ fun hkey => ?_
    -- The key is missing, and `old` is stored under it.
    have hmissing : ledger.getEntry (.trustline id asset) = none := by
      rw [hkey]
      exact hmissing
    unfold Store.trustline? at hold
    rw [Ledger.getEntry_eq_none.mp hmissing] at hold
    cases hold

end LiteSoroban

import LiteSoroban.Fixtures.SubEntries

/-!
# What a token's call leaves when it throws

`mint` and `transfer` give a wallet the trustline it lacks before they
simulate, and nothing takes it back.  So a call that throws leaves the store as
it was but for that trustline and its count, or, if `send` throws once the host
has completed the call, what `send` has left.
-/

namespace LiteSoroban

open Effect

/-! ## The two calls -/

/-- The calls of a token that may write a trustline and then call the host. -/
inductive TokenCall where
  | mint (recipient : Recipient) (amount : Int)
  | transfer (sender : Wallet) (recipient : Recipient) (amount : Int)

namespace TokenCall

def perform (s : Sdk) (token : Token) : TokenCall → LedgerM Unit
  | .mint recipient amount => token.mint s recipient amount
  | .transfer sender recipient amount => token.transfer s sender recipient amount

def recipient : TokenCall → Recipient
  | .mint recipient _ => recipient
  | .transfer _ recipient _ => recipient

def amount : TokenCall → Int
  | .mint _ amount => amount
  | .transfer _ _ amount => amount

def fn : TokenCall → String
  | .mint _ _ => "mint"
  | .transfer _ _ _ => "transfer"

/-- The source of the host call. -/
def source (token : Token) : TokenCall → Wallet
  | .mint _ _ => token.issuer
  | .transfer sender _ _ => sender

def args (s : Sdk) (value : ScVal) : TokenCall → List ScVal
  | .mint recipient _ => [s.scvAddress (recipient.addrOf s), value]
  | .transfer sender recipient _ =>
    [s.scvAddress (sender.address s), s.scvAddress (recipient.addrOf s), value]

/-- The ledger with the recipient's trustline, if it lacked one. -/
def granted (s : Sdk) (token : Token) (call : TokenCall) (ledger : Ledger) : Ledger :=
  finalState (call.recipient.establishTrustline s token.asset ledger)

/-- The arguments of `send`, with the restore indexes in their `Uint32Array`. -/
def crossed (hostFunction : HostFunction) (source : AccountId) (sim : SimulateResult)
    (resources : SorobanResources) : SendArgs :=
  let sent := sendCall hostFunction source resources sim.auth sim
  { sent with restoredRwEntryIndices := sent.restoredRwEntryIndices.map toUint32 }

/-- The exception is one that `ledger.send` threw of a call the host had
completed: a change that is not XDR, or a number of the answer. -/
def SendThrew (s : Sdk) (token : Token) (call : TokenCall) (ledger : Ledger) (e : JsError)
    (ledger' : Ledger) : Prop :=
  ∃ value hostFunction sim mid resources,
    s.i128 call.amount = .ok value ∧
    s.invokeHostFn token.address call.fn (call.args s value) = .ok hostFunction ∧
    Ledger.simulate s.toDeps (simulateCall hostFunction (call.source token).accountId none)
      (call.granted s token ledger) = .ok sim mid ∧
    sim.resources = some resources ∧
    Ledger.send s.toDeps
      (sendCall hostFunction (call.source token).accountId resources sim.auth sim) mid =
        .error e ledger' ∧
    ∃ input res value consumed, HostCompleted s.toDeps mid.env
      (crossed hostFunction (call.source token).accountId sim resources) input res value consumed

theorem perform_eq (s : Sdk) (token : Token) (call : TokenCall) :
    call.perform s token = (do
      call.recipient.establishTrustline s token.asset
      let value ← LedgerM.lift fun _ => s.i128 call.amount
      let _ ← token.call s call.fn (call.args s value) (call.source token)) := by
  cases call <;> rfl

end TokenCall

/-! ## The host call -/

/-- An enforcing call that fails without an exception leaves the store as it
was. -/
theorem send_failed_store {d : Deps} {args : SendArgs} {ledger ledger' : Ledger}
    {sent : SendResult} (h : Ledger.send d args ledger = .ok sent ledger')
    (hfailed : sent.ok = false) : ledger'.store = ledger.store := by
  unfold Ledger.send at h
  cases hsend : ledger.env.send d
      { args with restoredRwEntryIndices := args.restoredRwEntryIndices.map toUint32 } with
  | error e env => simp [hsend] at h
  | ok out env =>
    simp only [hsend, EStateM.Result.ok.injEq] at h
    obtain ⟨rfl, rfl⟩ := h
    rcases send_ok hsend with hfail | ⟨_, _, _, _, _, _, _, rfl, _⟩
    · obtain ⟨cache, rfl⟩ := hfail.frame
      rfl
    · cases hfailed

/-- An enforcing call that throws leaves the store as it was, unless the host
had completed it. -/
theorem send_threw_store {d : Deps} {args : SendArgs} {ledger ledger' : Ledger} {e : JsError}
    (h : Ledger.send d args ledger = .error e ledger') :
    ledger'.store = ledger.store ∨ ∃ input res value consumed, HostCompleted d ledger.env
      { args with restoredRwEntryIndices := args.restoredRwEntryIndices.map toUint32 }
      input res value consumed := by
  unfold Ledger.send at h
  cases hsend : ledger.env.send d
      { args with restoredRwEntryIndices := args.restoredRwEntryIndices.map toUint32 } with
  | ok out env => simp [hsend] at h
  | error e' env =>
    simp only [hsend, EStateM.Result.error.injEq] at h
    obtain ⟨-, rfl⟩ := h
    rcases send_error hsend with ⟨cache, rfl⟩ | ⟨input, res, value, consumed, hdone, -⟩
    · exact .inl rfl
    · exact .inr ⟨input, res, value, consumed, hdone⟩

/-- `apply` leaves the store as it was when it throws, unless `send` threw of a
call the host had completed. -/
theorem apply_error {s : Sdk} {hostFunction : HostFunction} {source : AccountId}
    {ledger ledger' : Ledger} {e : JsError}
    (h : apply s hostFunction source ledger = .error e ledger') :
    ledger'.store = ledger.store ∨ ∃ sim mid resources,
      Ledger.simulate s.toDeps (simulateCall hostFunction source none) ledger = .ok sim mid ∧
      sim.resources = some resources ∧
      Ledger.send s.toDeps (sendCall hostFunction source resources sim.auth sim) mid =
        .error e ledger' ∧
      ∃ input res value consumed, HostCompleted s.toDeps mid.env
        (TokenCall.crossed hostFunction source sim resources) input res value consumed := by
  rcases apply_cases s hostFunction source ledger with ⟨e', ledger₁, happly, hstore⟩ |
    ⟨sim, mid, resources, hsim, -, hresources, hmid, happly⟩
  · cases happly.symm.trans h
    exact .inl hstore
  · rw [happly] at h
    cases hsend : Ledger.send s.toDeps
        (sendCall hostFunction source resources sim.auth sim) mid with
    | error e' ledger₁ =>
      simp only [hsend] at h
      cases h
      rcases send_threw_store hsend with hkept | hdone
      · exact .inl (hkept.trans hmid)
      · exact .inr ⟨sim, mid, resources, hsim, hresources, hsend, hdone⟩
    | ok sent ledger₁ =>
      simp only [hsend] at h
      cases hok : sent.ok with
      | true => simp [hok] at h
      | false =>
        simp only [hok, Bool.false_eq_true, if_false] at h
        cases h
        exact .inl ((send_failed_store hsend hok).trans hmid)

/-- A call that throws has left the store of the ledger with the trustline,
unless `send` threw of a call the host had completed. -/
theorem TokenCall.throws_granted {s : Sdk} {token : Token} {call : TokenCall}
    {ledger ledger' : Ledger} {e : JsError} (h : call.perform s token ledger = .error e ledger')
    (hsend : ¬ call.SendThrew s token ledger e ledger') :
    ledger'.store = (call.granted s token ledger).store := by
  rw [TokenCall.perform_eq, bind_eq_error] at h
  unfold TokenCall.SendThrew at hsend
  unfold TokenCall.granted at hsend ⊢
  rcases h with htrustline | ⟨u, mid, htrustline, h⟩
  · rw [htrustline]
    rfl
  · rw [htrustline, finalState_ok] at hsend
    rw [htrustline, finalState_ok]
    rcases bind_eq_error.mp h with hvalue | ⟨value, mid₁, hvalue, hcall⟩
    · rw [lift_error hvalue]
    obtain ⟨hencoded, hmid₁⟩ := lift_ok.mp hvalue
    rw [hmid₁] at hcall
    rcases bind_eq_error.mp hcall with hcall | ⟨_, _, -, hpure⟩
    · unfold Token.call at hcall
      rcases bind_eq_error.mp hcall with hhost | ⟨hostFunction, mid₂, hhost, happly⟩
      · rw [lift_error hhost]
      obtain ⟨hinvoke, hmid₂⟩ := lift_ok.mp hhost
      rw [hmid₂] at happly
      rcases apply_error happly with hstore |
        ⟨sim, mid₃, resources, hsim, hresources, hsent, hdone⟩
      · exact hstore
      · exact absurd ⟨value, hostFunction, sim, mid₃, resources, hencoded, hinvoke, hsim,
          hresources, hsent, hdone⟩ hsend
    · exact absurd hpure pure_ne_error

/-! ## The trustline that stays -/

/-- The trustline a wallet lacked is there, its account counts it, if it can,
and nothing else has changed. -/
structure TrustlineLeft (s : Sdk) (holder : Wallet) (code : Bytes) (issuer : AccountId)
    (ledger : Ledger) (store' : Store) : Prop where
  missing : ledger.store.lookup (trustlineKey holder code issuer) = none
  created : store'.lookup (trustlineKey holder code issuer) =
    some ⟨trustlineLedgerEntry ledger.ledgerSeq (newTrustline holder code issuer {}), none⟩
  counted : ∀ account, ledger.store.account? holder.accountId = some account →
    s.encodeAccount { account with numSubEntries := account.numSubEntries + 1 } = .ok () →
    store'.account? holder.accountId =
      some { account with numSubEntries := account.numSubEntries + 1 }
  uncounted : (∀ account, ledger.store.account? holder.accountId = some account →
      s.encodeAccount { account with numSubEntries := account.numSubEntries + 1 } ≠ .ok ()) →
    store'.lookup (.account holder.accountId) = ledger.store.lookup (.account holder.accountId)
  others : ∀ key, key ≠ trustlineKey holder code issuer → key ≠ .account holder.accountId →
    store'.lookup key = ledger.store.lookup key

theorem countSubEntry_left {s : Sdk} {holder : Wallet} {code : Bytes} {issuer : AccountId}
    {ledger : Ledger} (hkeyed : ledger.store.Keyed)
    (hmissing : ledger.getEntry (trustlineKey holder code issuer) = none) :
    TrustlineLeft s holder code issuer ledger (finalState (countSubEntry s holder.accountId
      (ledger.withTrustline (newTrustline holder code issuer {})))).store := by
  let line := newTrustline holder code issuer {}
  have hline : (ledger.withTrustline line).store.Keyed := ledger.withTrustline_keyed hkeyed line
  have hnew : ledger.store.lookup (trustlineKey holder code issuer) = none :=
    Ledger.getEntry_eq_none.mp hmissing
  have hcreated : (ledger.withTrustline line).store.lookup (trustlineKey holder code issuer) =
      some ⟨trustlineLedgerEntry ledger.ledgerSeq line, none⟩ := Finmap.lookup_insert _
  have hothers : ∀ key, key ≠ trustlineKey holder code issuer →
      (ledger.withTrustline line).store.lookup key = ledger.store.lookup key :=
    fun key hne => Finmap.lookup_insert_of_ne _ hne
  show TrustlineLeft s holder code issuer ledger
    (finalState (countSubEntry s holder.accountId (ledger.withTrustline line))).store
  rw [countSubEntry_eq hline, ledger.account?_withTrustline]
  cases haccount : ledger.store.account? holder.accountId with
  | none =>
    refine ⟨hnew, hcreated, fun account h => ?_, fun _ => hothers _ (by simp [trustlineKey]),
      fun key hne _ => hothers key hne⟩
    rw [haccount] at h
    cases h
  | some account =>
    have hid : account.accountId = holder.accountId := hkeyed.accountId_eq haccount
    simp only [storeAccount_eq]
    cases hencode :
        s.encodeAccount { account with numSubEntries := account.numSubEntries + 1 } with
    | error e =>
      refine ⟨hnew, hcreated, fun account' h hcount => ?_,
        fun _ => hothers _ (by simp [trustlineKey]), fun key hne _ => hothers key hne⟩
      cases haccount.symm.trans h
      cases hencode.symm.trans hcount
    | ok u =>
      refine ⟨hnew, ?_, fun account' h _ => ?_,
        fun hrefused => absurd hencode (hrefused _ haccount), fun key hne hne' => ?_⟩
      · rw [finalState_ok, Ledger.lookup_withAccount_of_ne _ (by simp [trustlineKey])]
        exact hcreated
      · cases haccount.symm.trans h
        rw [finalState_ok, Ledger.account?_withAccount, if_pos hid.symm]
      · rw [finalState_ok, Ledger.lookup_withAccount_of_ne _ (by rw [hid]; exact hne')]
        exact hothers key hne

/-- A `mint` or a `transfer` that throws leaves the store as it was, or with the
trustline its recipient lacked, unless it is `send` that threw of a call the
host had completed. -/
theorem TokenCall.throws_leaves {s : Sdk} {token : Token} {call : TokenCall}
    {ledger ledger' : Ledger} {e : JsError} (hkeyed : ledger.store.Keyed)
    (h : call.perform s token ledger = .error e ledger')
    (hsend : ¬ call.SendThrew s token ledger e ledger') :
    ledger'.store = ledger.store ∨ ∃ holder code issuer,
      call.recipient = .wallet holder ∧ token.asset = .credit code issuer ∧
      TrustlineLeft s holder code issuer ledger ledger'.store := by
  rw [TokenCall.throws_granted h hsend]
  unfold TokenCall.granted
  cases hrecipient : call.recipient with
  | address a => exact .inl rfl
  | wallet holder =>
    rcases establishTrustlineIfMissing_cases s holder token.asset ledger with hsame |
      ⟨code, issuer, hasset, hmissing, -, hfinal⟩
    · refine .inl ?_
      show (finalState (establishTrustlineIfMissing s holder token.asset ledger)).store = _
      rw [hsame]
    · refine .inr ⟨holder, code, issuer, rfl, hasset, ?_⟩
      show TrustlineLeft s holder code issuer ledger
        (finalState (establishTrustlineIfMissing s holder token.asset ledger)).store
      rw [hfinal]
      exact countSubEntry_left hkeyed hmissing

/-- The asset `T` of account 8, and a handle on its contract. -/
def sampleToken : Token := ⟨sampleAsset 8, sampleWallet 8, ⟨[]⟩⟩

/-- A mint to account 7, which has no trustline in the asset. -/
def sampleMint : TokenCall := .mint (.wallet (sampleWallet 7)) 3

/-- A mint that the simulation refuses has given its recipient a trustline. -/
theorem mint_throws_trusted :
    ¬ ∀ (s : Sdk) (token : Token) (call : TokenCall) (ledger ledger' : Ledger) (e : JsError),
      ledger.store.Keyed → call.perform s token ledger = .error e ledger' →
      ledger'.store = ledger.store := by
  intro hclaim
  have hstore := hclaim .idle sampleToken sampleMint (sampleLedger 7) _ _
    (sampleLedger_keyed 7) rfl
  have hcount : 1 = 0 :=
    congrArg (fun store : Store => store.trustlineCount (sampleAccount 7).accountId) hstore
  cases hcount

/-- The SDK around a host that refuses what it has recorded. -/
def refusingSdk : Sdk :=
  { mintingSdk with
    invokeHostFunction := fun _ =>
      ⟨.ok ⟨.error ⟨"HostError: Error(Contract, #1)"⟩, [], []⟩, 0, 0, []⟩ }

/-- The mint gets as far as `send`, which answers that it failed. -/
theorem sampleMint_leaves :
    (finalState (sampleMint.perform refusingSdk sampleToken (sampleLedger 7))).store =
      (sampleLedger 7).store ∨ ∃ holder code issuer,
      sampleMint.recipient = .wallet holder ∧ sampleToken.asset = .credit code issuer ∧
      TrustlineLeft refusingSdk holder code issuer (sampleLedger 7)
        (finalState (sampleMint.perform refusingSdk sampleToken (sampleLedger 7))).store := by
  refine TokenCall.throws_leaves (sampleLedger_keyed 7) rfl ?_
  rintro ⟨value, hostFunction, sim, mid, resources, hvalue, hinvoke, hsim, hresources, hsend, -⟩
  cases hvalue
  cases hinvoke
  cases hsim
  cases hresources
  cases hsend

end LiteSoroban

import Mathlib.Algebra.GroupWithZero.Nat
import LiteSoroban.Ledger.FeeBump
import LiteSoroban.LiteStellar

/-!
# A call and the transaction that carries it

The facade has two ways to the host.  `invoke` simulates a call and hands what
the simulation found to `send`.  A client puts the same call into an envelope,
and `applyTransaction` checks it, bumps the source, debits the payer and then
hands it to `send`.

`submitted_agrees` compares the two on one ledger.  An accepted envelope that
carries the call tells of the same result, and both ledgers hold the same under
every key but those of the accounts the envelope writes.  There is one
exception: an envelope that pays can fail because its refundable fee does not
cover the rent and the events, and then the call itself has succeeded.

The host must not see the bump and the debit, so the accounts the envelope
writes stay out of the footprint.  And `applyTransaction` restores nothing
while it invokes, so the simulation must not have restored anything.
-/

namespace LiteSoroban

open Effect LiteStellar

/-! ## The cap on the refundable fee -/

/-- A cap refuses a call that fits the limits without it, or does nothing. -/
theorem consumeRefundable_capped (d : Deps) (env : SorobanEnv) (res : InvokeHostFunctionResult)
    (size : Nat) (cap : Option Int) :
    consumeRefundable d env res size cap = consumeRefundable d env res size none ∨
      (∃ message, consumeRefundable d env res size cap =
        .error (.invokeHostFunctionInsufficientRefundableFee, message)) ∧
      ∃ consumed, consumeRefundable d env res size none = .ok consumed := by
  unfold consumeRefundable
  cases cap with
  | none => exact .inl rfl
  | some max =>
    cases env.feeSettings with
    | none => exact .inl rfl
    | some fees =>
      simp only
      cases sumEventSizes fees.txMaxContractEventsSizeBytes res.encodedContractEvents 0 with
      | error failure => exact .inl rfl
      | ok contractEvents =>
        simp only [bind, Except.bind]
        by_cases hsize : fees.txMaxContractEventsSizeBytes <
            saturatingAdd32 contractEvents (clamp32 size)
        · rw [if_pos hsize, if_pos hsize]
          exact .inl rfl
        · rw [if_neg hsize, if_neg hsize]
          split
          · exact .inr ⟨⟨_, rfl⟩, _, rfl⟩
          · split
            · exact .inr ⟨⟨_, rfl⟩, _, rfl⟩
            · exact .inl rfl

/-- What `send` is called with, under a cap. -/
def SendArgs.capped (args : SendArgs) (cap : Option Int) : SendArgs :=
  { args with maxRefundableFee := cap }

/-- Under a cap a call does what it does without one, or it fails after the
host has completed it. -/
theorem send_capped (d : Deps) (args : SendArgs) (cap : Option Int) (env : SorobanEnv) :
    env.send d (args.capped cap) = env.send d (args.capped none) ∨
      ∃ input res value consumed message,
        HostCompleted d env (args.capped none) input res value consumed ∧
        env.send d (args.capped cap) =
          (failedAfterHost (d.invokeHostFunction input) .invokeHostFunctionInsufficientRefundableFee
            message).toValue d { env with moduleCache := some input.moduleCache } := by
  have hprepare : prepareSend d env (args.capped cap) = prepareSend d env (args.capped none) := rfl
  unfold SorobanEnv.send
  rw [hprepare]
  cases hprep : prepareSend d env (args.capped none) with
  | error stop => cases stop <;> exact .inl rfl
  | ok input =>
    show settleCall d { env with moduleCache := some input.moduleCache } (args.capped cap) _ =
        settleCall d { env with moduleCache := some input.moduleCache } (args.capped none) _ ∨ _
    unfold settleCall
    cases hres : (d.invokeHostFunction input).result with
    | error e => exact .inl rfl
    | ok res =>
      cases hvalue : res.encodedInvokeResult with
      | error e =>
        simp only [hvalue]
        exact .inl rfl
      | ok value =>
        simp only [hvalue]
        have hwritten : checkWrittenEntries { env with moduleCache := some input.moduleCache } =
            checkWrittenEntries env := checkWrittenEntries_cache env _
        have hconsume : consumeRefundable d { env with moduleCache := some input.moduleCache } =
            consumeRefundable d env := rfl
        simp only [hwritten, hconsume, SendArgs.capped]
        cases hfits : checkWrittenEntries env args.resources res.ledgerChanges 0 with
        | error failure => exact .inl rfl
        | ok u =>
          rcases consumeRefundable_capped d env res value.len cap with
            hsame | ⟨⟨message, hshort⟩, consumed, hconsumed⟩
          · rw [hsame]
            exact .inl rfl
          · refine .inr ⟨input, res, value, consumed, message,
              ⟨hprep, hres, hvalue, hfits, hconsumed⟩, ?_⟩
            simp only [hres, hvalue, hfits, hshort]
            rfl

/-! ## What the two answer -/

/-- The facade's result, as the outcome of a transaction tells of it. -/
def TxOutcome.hostFnResult (outcome : TxOutcome) (sim : SimulateResult) : HostFnResult :=
  if outcome.ok then
    { ok := true
      rawReturn := outcome.returnValue
      events := outcome.events.getD []
      diagnostics := outcome.diagnosticEvents.getD []
      changedKeys := outcome.changedKeys.getD []
      removedKeys := outcome.removedKeys.getD []
      sim := sim }
  else
    { ok := false
      error := some (hostFailure "invocation failed" outcome.error)
      diagnostics := outcome.diagnosticEvents.getD []
      sim := sim }

theorem TxOutcome.hostFnResult_ok (outcome : TxOutcome) (sim : SimulateResult) :
    (outcome.hostFnResult sim).ok = outcome.ok := by
  unfold TxOutcome.hostFnResult
  cases outcome.ok <;> rfl

theorem HostFnResult.sent_ok (sim : SimulateResult) (sent : SendResult) :
    (HostFnResult.sent sim sent).ok = sent.ok := by
  unfold HostFnResult.sent
  cases sent.ok <;> rfl

theorem HostFnResult.sent_sim (sim : SimulateResult) (sent : SendResult) :
    (HostFnResult.sent sim sent).sim = sim := by
  unfold HostFnResult.sent
  cases sent.ok <;> rfl

theorem invokeOperated_hostFnResult (sent : SendResult) (sim : SimulateResult) :
    (invokeOperated sent).outcome.hostFnResult sim = HostFnResult.sent sim sent := by
  unfold TxOutcome.hostFnResult HostFnResult.sent invokeOperated
  cases sent.ok <;> rfl

/-- The keys of everything but the accounts an envelope writes. -/
def TransactionEnvelope.unwritten (envelope : TransactionEnvelope) : Set LedgerKey :=
  {key | ∀ id ∈ envelope.writtenAccounts, key ≠ .account id}

/-- The envelope's one operation is the call of the facade, under the resources
it is sent with. -/
def TransactionEnvelope.CarriesCall (envelope : TransactionEnvelope) (hostFunction : HostFunction)
    (source : AccountId) (auth : List SorobanAuthorizationEntry) (resources : SorobanResources) :
    Prop :=
  ∃ raw op data, envelope.innerTx? = some raw ∧ raw.operations = [op] ∧
    op.sourceId raw = source ∧ op.body = .invokeHostFunction hostFunction auth ∧
    raw.sorobanData? = some data ∧ data.resources = resources

section Applied

variable {d : Deps} {codes : Set Bytes} {ledger ledger' l₁ l₂ : Ledger}
  {envelope : TransactionEnvelope}
  {passphrase : String} {validation : ValidationOptions} {outcome : TxOutcome} {a : Application}
  {v : Validated} {op : Operated} {hostFunction : HostFunction} {source : AccountId}
  {auth : List SorobanAuthorizationEntry} {resources : SorobanResources}

/-- Settling and wrapping leave what the host answered. -/
theorem Accepted.hostFnResult
    (h : Accepted d ledger envelope passphrase validation outcome ledger' a v l₁ l₂ op)
    (sim : SimulateResult) :
    outcome.hostFnResult sim = op.outcome.hostFnResult sim ∧
      outcome.invokeResult = op.outcome.invokeResult := by
  obtain ⟨inner, hsettle, rfl⟩ := h.settled
  have hinner : inner.hostFnResult sim = op.outcome.hostFnResult sim ∧
      inner.invokeResult = op.outcome.invokeResult := by
    cases hcharge : a.charge with
    | none =>
      rw [hcharge] at hsettle
      obtain ⟨rfl, -⟩ := settle_none hsettle
      exact ⟨rfl, rfl⟩
    | some charge =>
      rw [hcharge] at hsettle
      obtain ⟨-, rfl⟩ := settle_some hsettle
      exact ⟨rfl, rfl⟩
  by_cases hbumped : a.feeBumped = true
  · rw [if_pos hbumped, ← hinner.1, ← hinner.2]
    unfold bumpOutcome
    split <;> exact ⟨rfl, rfl⟩
  · rw [if_neg hbumped]
    exact hinner

/-- What the checks hand over for an envelope that carries a call. -/
theorem Accepted.carried
    (h : Accepted d ledger envelope passphrase validation outcome ledger' a v l₁ l₂ op)
    (hcall : envelope.CarriesCall hostFunction source auth resources) :
    v.op.body = .invokeHostFunction hostFunction auth ∧ v.invokerId = source ∧
      v.sorobanData.resources = resources ∧ loadAccount ledger source = .ok v.opAccount := by
  obtain ⟨_, _, hpassed⟩ := validate_ok h.validated
  obtain ⟨raw, carried, data, hraw, hops, hsource, hbody, hdata, hresources⟩ := hcall
  obtain rfl : raw = a.raw :=
    Option.some.inj (hraw.symm.trans (envelopeApplication_ok h.application).innerTx)
  obtain ⟨hone, -, hsoroban, -⟩ := checkShape_ok hpassed.shape
  obtain ⟨-, hinvoker, hopAccount⟩ := loadSources_ok hpassed.sources
  obtain rfl : carried = v.op := by
    rw [hone] at hops
    exact (List.cons.inj hops).1.symm
  obtain rfl : data = v.sorobanData := Option.some.inj (hdata.symm.trans hsoroban)
  rw [hsource] at hinvoker hopAccount
  exact ⟨hbody, hinvoker, hresources, hopAccount⟩

/-- The bump, the debit and the refund write the accounts of the envelope. -/
theorem Accepted.agreeOn_unwritten (hledger : ledger.Addressed d codes)
    (h : Accepted d ledger envelope passphrase validation outcome ledger' a v l₁ l₂ op) :
    (d.ledgerTable codes).AgreeOn envelope.unwritten ledger l₁ ∧
      (l₂.store.Keyed ∧ l₂.env.CacheParsed d codes →
        (d.ledgerTable codes).AgreeOn envelope.unwritten l₂ ledger') := by
  have hunwrapped := envelopeApplication_ok h.application
  obtain ⟨payer, hpayer, -⟩ := hunwrapped.charge
  have hwritten : envelope.writtenAccounts = [a.raw.sourceId, payer] := by
    unfold TransactionEnvelope.writtenAccounts
    rw [hunwrapped.innerTx, hpayer]
    rfl
  have hsource : ∀ key ∈ envelope.unwritten, key ≠ .account a.raw.sourceId := by
    intro key hkey
    exact hkey _ (by rw [hwritten]; exact List.mem_cons_self)
  have hpays : ∀ key ∈ envelope.unwritten, ∀ charge, a.charge = some charge →
      key ≠ .account charge.payer := by
    intro key hkey charge hcharge
    rw [← hunwrapped.payer_eq hpayer hcharge]
    exact hkey _ (by rw [hwritten]; exact List.mem_cons_of_mem _ List.mem_cons_self)
  obtain ⟨inner, hsettle, -⟩ := h.settled
  have hcommitted := commitClassic_effect hledger.keyed h.classic
  refine ⟨Ledger.agreeOn_withStore ⟨hledger.keyed, hledger.cache⟩ hcommitted.keyed hcommitted.frame
    fun key hkey => hcommitted.others key (hsource key hkey) (hpays key hkey), fun hoperated => ?_⟩
  have hsettled := settle_effect hoperated.1 hsettle
  exact Ledger.agreeOn_withStore hoperated hsettled.keyed hsettled.frame
    fun key hkey => hsettled.others key (hpays key hkey)

/-- An application makes the call it carries as it would be made on the ledger
the envelope found. -/
theorem Accepted.calls (hd : d.CallsLocally codes) (hledger : ledger.Addressed d codes)
    (h : Accepted d ledger envelope passphrase validation outcome ledger' a v l₁ l₂ op)
    (hbody : v.op.body = .invokeHostFunction hostFunction auth) (hexists : v.opAccount.isSome)
    (hapart : ∀ key ∈ v.sorobanData.resources.footprint.keys, key ∈ envelope.unwritten) :
    ∃ sent env, ledger.env.send d (invokeArgs v hostFunction auth
        (a.charge.map fun _ => v.maxRefundable)) = .ok sent env ∧
      op = invokeOperated sent ∧
      (d.ledgerTable codes).AgreeOn envelope.unwritten { ledger with env := env } ledger' := by
  obtain ⟨hstart, hback⟩ := h.agreeOn_unwritten hledger
  obtain ⟨opAccount, hopAccount⟩ := Option.isSome_iff_exists.mp hexists
  have hops := runOperation_agreeOn hd.reads hd.hashes hd.keyed hd.footprint hstart
    (fun key _ => hledger.code key) v (a.charge.map fun _ => v.maxRefundable) hapart
  rw [h.operated] at hops
  rcases hops.cases with ⟨op', mid, _, hrun, hrun', hends⟩ | ⟨e, mid, _, -, hrun', -⟩
  · cases hrun'
    simp only [runOperation, hopAccount, hbody, bind_eq_ok, pure_eq_ok] at hrun
    obtain ⟨sent, _, hsend, rfl, rfl⟩ := hrun
    obtain ⟨env, henv, rfl⟩ := send_invokeArgs_ok hsend
    have hlast := hback hends.beside.2.2
    exact ⟨sent, env, henv, rfl, (d.ledgerTable codes).trans hends.beside hlast.beside,
      fun key hkey => (hends.lookup key hkey).trans (hlast.lookup key hkey)⟩
  · cases hrun'

end Applied

/-! ## What the facade sends -/

/-- `mid` is the ledger but for the PRNG counter, which simulations draw
from. -/
def Ledger.Drawn (ledger mid : Ledger) : Prop :=
  ∃ counter, mid = { ledger with env := { ledger.env with prngCounter := counter } }

theorem Ledger.Drawn.trans {ledger mid mid' : Ledger} (h : ledger.Drawn mid)
    (h' : mid.Drawn mid') : ledger.Drawn mid' := by
  obtain ⟨_, rfl⟩ := h
  obtain ⟨counter, rfl⟩ := h'
  exact ⟨counter, rfl⟩

theorem Ledger.Drawn.addressed {d : Deps} {ledger mid : Ledger} (h : ledger.Drawn mid)
    (hledger : ledger.Addressed d codes) : mid.Addressed d codes := by
  obtain ⟨counter, rfl⟩ := h
  exact ⟨hledger.keyed, hledger.cache, hledger.code⟩

theorem Ledger.simulate_drawn {d : Deps} {args : SimulateArgs} {ledger mid : Ledger}
    {sim : SimulateResult} (h : Ledger.simulate d args ledger = .ok sim mid) :
    ledger.Drawn mid := by
  have hend := Ledger.finalState_simulate d args ledger
  obtain ⟨counter, hframe⟩ := simulate_frame d ledger.env args
  rw [h, hframe, finalState_ok] at hend
  exact ⟨counter, hend⟩

/-- The entries and the simulation that a call of the facade is sent with, and
the ledger it is sent from: what was recorded, or the recorded entries signed
and what they simulate. -/
inductive HostFnPrepared (s : Sdk) (hostFunction : HostFunction) (source : AccountId)
    (opts : InvokeOptions) (ledger : Ledger) :
    Ledger → List SorobanAuthorizationEntry → SimulateResult → Prop
  | recorded {mid : Ledger} {sim : SimulateResult} :
      Ledger.simulate s.toDeps (simulateCall hostFunction source none) ledger = .ok sim mid →
      opts.signAuth = none ∨ sim.auth = [] →
      HostFnPrepared s hostFunction source opts ledger mid sim.auth sim
  | signed {recordedLedger mid : Ledger} {recorded sim : SimulateResult} {sign : Bytes → ScVal}
      {auth : List SorobanAuthorizationEntry} :
      Ledger.simulate s.toDeps (simulateCall hostFunction source none) ledger =
        .ok recorded recordedLedger →
      opts.signAuth = some sign →
      signAuthEntriesSync s recorded.auth sign recordedLedger.networkPassphrase
        (opts.validUntilLedger.getD (recordedLedger.ledgerSeq + 100)) = .ok auth →
      Ledger.simulate s.toDeps (simulateCall hostFunction source (some auth)) recordedLedger =
        .ok sim mid →
      HostFnPrepared s hostFunction source opts ledger mid auth sim

theorem HostFnPrepared.drawn {s : Sdk} {hostFunction : HostFunction} {source : AccountId}
    {opts : InvokeOptions} {ledger mid : Ledger} {auth : List SorobanAuthorizationEntry}
    {sim : SimulateResult} (h : HostFnPrepared s hostFunction source opts ledger mid auth sim) :
    ledger.Drawn mid := by
  cases h with
  | recorded hsim _ => exact Ledger.simulate_drawn hsim
  | signed hrecorded _ _ hsim =>
    exact (Ledger.simulate_drawn hrecorded).trans (Ledger.simulate_drawn hsim)

/-- Without a builder the recorded entries are sent. -/
theorem HostFnPrepared.auth_of_none {s : Sdk} {hostFunction : HostFunction} {source : AccountId}
    {opts : InvokeOptions} {ledger mid : Ledger} {auth : List SorobanAuthorizationEntry}
    {sim : SimulateResult} (h : HostFnPrepared s hostFunction source opts ledger mid auth sim)
    (hnone : opts.signAuth = none) : auth = sim.auth := by
  cases h with
  | recorded _ _ => rfl
  | signed _ hsign _ _ => cases hnone.symm.trans hsign

/-- A call of the facade that returns has failed in a simulation, or it has
sent what it prepared. -/
theorem applyHostFn_ok {s : Sdk} {hostFunction : HostFunction} {source : AccountId}
    {opts : InvokeOptions} {ledger after : Ledger} {r : HostFnResult}
    (h : applyHostFn s hostFunction source opts ledger = .ok r after) :
    (r.ok = false ∧ r.sim.ok = false ∧ ledger.Drawn after) ∨
      ∃ mid auth sim, HostFnPrepared s hostFunction source opts ledger mid auth sim ∧
        sendHostFn s hostFunction source auth sim mid = .ok r after := by
  unfold applyHostFn at h
  simp only [bind_eq_ok] at h
  obtain ⟨recorded, mid, hrecorded, h⟩ := h
  by_cases hok : recorded.ok = true
  · simp only [hok, Bool.not_true, Bool.false_eq_true, if_false] at h
    cases hsign : opts.signAuth with
    | none =>
      simp only [hsign] at h
      exact .inr ⟨mid, recorded.auth, recorded, .recorded hrecorded (.inl hsign), h⟩
    | some sign =>
      cases hauth : recorded.auth with
      | nil =>
        simp only [hsign, hauth] at h
        rw [← hauth] at h
        exact .inr ⟨mid, recorded.auth, recorded, .recorded hrecorded (.inr hauth), h⟩
      | cons entry rest =>
        simp only [hsign, hauth, bind_eq_ok, lift_ok] at h
        rw [← hauth] at h
        obtain ⟨auth, _, ⟨hsigned, rfl⟩, sim, mid', hsim, h⟩ := h
        have hprepared : HostFnPrepared s hostFunction source opts ledger mid' auth sim :=
          .signed hrecorded hsign hsigned hsim
        by_cases henforced : sim.ok = true
        · simp only [henforced, Bool.not_true, Bool.false_eq_true, if_false] at h
          exact .inr ⟨mid', auth, sim, hprepared, h⟩
        · simp only [Bool.not_eq_true] at henforced
          simp only [henforced, Bool.not_false, if_true, pure_eq_ok] at h
          obtain ⟨rfl, rfl⟩ := h
          exact .inl ⟨rfl, henforced, hprepared.drawn⟩
  · simp only [Bool.not_eq_true] at hok
    simp only [hok, Bool.not_false, if_true, pure_eq_ok] at h
    obtain ⟨rfl, rfl⟩ := h
    exact .inl ⟨rfl, hok, Ledger.simulate_drawn hrecorded⟩

/-! ## The result -/

/-- What the facade did with a call, beside a transaction that carries it: the
same, or the transaction alone has failed, because it pays. -/
inductive HostFnResult.Submitted (r : HostFnResult) (after : Ledger)
    (envelope : TransactionEnvelope) (validation : ValidationOptions) (ledger : Ledger)
    (outcome : TxOutcome) (after' : Ledger) : Prop
  | same :
      r = outcome.hostFnResult r.sim →
      (∀ key ∈ envelope.unwritten, after'.store.lookup key = after.store.lookup key) →
      HostFnResult.Submitted r after envelope validation ledger outcome after'
  | short :
      validation.feeCharging = true → r.ok = true → outcome.ok = false →
      outcome.invokeResult = some .invokeHostFunctionInsufficientRefundableFee →
      (∀ key ∈ envelope.unwritten, after'.store.lookup key = ledger.store.lookup key) →
      HostFnResult.Submitted r after envelope validation ledger outcome after'

theorem sendHostFn_ok {s : Sdk} {hostFunction : HostFunction} {source : AccountId}
    {auth : List SorobanAuthorizationEntry} {sim : SimulateResult} {ledger ledger' : Ledger}
    {r : HostFnResult} (hnothing : sim.restoredRwEntryIndices = [])
    (h : sendHostFn s hostFunction source auth sim ledger = .ok r ledger') :
    ∃ resources sent env, sim.resources = some resources ∧
      ledger.env.send s.toDeps ⟨hostFunction, source, resources, auth, [], none⟩ = .ok sent env ∧
      ledger' = { ledger with env := env } ∧ r = HostFnResult.sent sim sent := by
  unfold sendHostFn sendSimulated at h
  simp only [bind_eq_ok, pure_eq_ok] at h
  obtain ⟨sent, mid, hsend, rfl, rfl⟩ := h
  cases hresources : sim.resources with
  | none =>
    simp only [hresources] at hsend
    cases hsend
  | some resources =>
    simp only [hresources, Ledger.send, sendCall, hnothing, List.map_nil] at hsend
    refine ⟨resources, ?_⟩
    cases hrun : ledger.env.send s.toDeps ⟨hostFunction, source, resources, auth, [], none⟩ with
    | error e env =>
      rw [hrun] at hsend
      cases hsend
    | ok out env =>
      rw [hrun] at hsend
      cases hsend
      exact ⟨_, env, rfl, rfl, rfl, rfl⟩

/-- An accepted transaction beside the call that the facade sends from the same
ledger. -/
theorem Accepted.submitted {s : Sdk} {codes : Set Bytes} (hd : s.toDeps.CallsLocally codes)
    {ledger after after' l₁ l₂ : Ledger} (hledger : ledger.Addressed s.toDeps codes)
    {hostFunction : HostFunction} {source : AccountId}
    {auth : List SorobanAuthorizationEntry} {sim : SimulateResult} {r : HostFnResult}
    (hnothing : sim.restoredRwEntryIndices = [])
    (hsent : sendHostFn s hostFunction source auth sim ledger = .ok r after)
    {resources : SorobanResources} (hresources : sim.resources = some resources)
    {envelope : TransactionEnvelope} {passphrase : String} {validation : ValidationOptions}
    {outcome : TxOutcome} {a : Application} {v : Validated} {op : Operated}
    (h : Accepted s.toDeps ledger envelope passphrase validation outcome after' a v l₁ l₂ op)
    (hcall : envelope.CarriesCall hostFunction source auth resources)
    (hexists : (ledger.store.account? source).isSome)
    (hapart : ∀ key ∈ resources.footprint.keys, key ∈ envelope.unwritten) :
    r.Submitted after envelope validation ledger outcome after' := by
  obtain ⟨hbody, hinvoker, hsame, hload⟩ := h.carried hcall
  obtain ⟨resources', sent, env, hresources', hsend, rfl, rfl⟩ := sendHostFn_ok hnothing hsent
  cases hresources.symm.trans hresources'
  have hop : v.opAccount.isSome := by
    rw [loadAccount_keyed hledger.keyed] at hload
    rwa [← Except.ok.inj hload]
  obtain ⟨sent', env', hsend', rfl, hagree⟩ := h.calls hd hledger hbody hop (by rwa [hsame])
  obtain ⟨hanswers, hinvoked⟩ := h.hostFnResult sim
  rw [invokeOperated_hostFnResult] at hanswers
  let args : SendArgs := ⟨hostFunction, source, resources, auth, [], none⟩
  have hargs : invokeArgs v hostFunction auth (a.charge.map fun _ => v.maxRefundable) =
      args.capped (a.charge.map fun _ => v.maxRefundable) := by
    unfold invokeArgs
    rw [hinvoker, hsame]
    rfl
  rw [hargs] at hsend'
  rcases send_capped s.toDeps args (a.charge.map fun _ => v.maxRefundable) ledger.env with
    huncapped | ⟨input, res, value, consumed, message, hcompleted, hshort⟩
  · rw [huncapped] at hsend'
    cases hsend.symm.trans hsend'
    refine .same ?_ fun key hkey => (hagree.lookup key hkey).symm
    rw [HostFnResult.sent_sim, hanswers]
  · rw [hshort] at hsend'
    obtain ⟨rfl, rfl⟩ := toValue_ok hsend'
    have hok : sent.ok = true := by
      have hdone := hcompleted.send_eq
      rw [show args.capped none = args from rfl, hsend] at hdone
      cases hmerge : mergeChanges res.ledgerChanges ⟨ledger.env.store, [], [], []⟩ with
      | error e m =>
        rw [hmerge] at hdone
        cases hdone
      | ok u m =>
        rw [hmerge] at hdone
        obtain ⟨rfl, -⟩ := toValue_ok hdone.symm
        rfl
    refine .short ?_ (by rw [HostFnResult.sent_ok, hok]) ?_ hinvoked
      fun key hkey => (hagree.lookup key hkey).symm
    · by_contra hfree
      have hcharge : a.charge = none := by
        obtain ⟨_, -, hpays⟩ := (envelopeApplication_ok h.application).charge
        rw [hpays, if_neg hfree]
      rw [hcharge, Option.map_none, show args.capped none = args from rfl, hsend] at hshort
      obtain ⟨rfl, -⟩ := toValue_ok hshort.symm
      cases hok
    · rw [← outcome.hostFnResult_ok sim, hanswers, HostFnResult.sent_ok]
      rfl

/-- **Submitting a call.**  A call of the facade that returns has failed in a
simulation and changed nothing but the PRNG counter, or it was sent from a
ledger that differs from the first in that alone.  If the simulation had nothing
to restore, every accepted envelope that carries the same call does the same on
that ledger, but for the accounts it writes and for what it cannot pay. -/
theorem submitted_agrees {s : Sdk} {codes : Set Bytes} (hd : s.toDeps.CallsLocally codes)
    {ledger after : Ledger} (hledger : ledger.Addressed s.toDeps codes)
    {hostFunction : HostFunction} {source : AccountId} {opts : InvokeOptions} {r : HostFnResult}
    (h : applyHostFn s hostFunction source opts ledger = .ok r after) :
    (r.ok = false ∧ r.sim.ok = false ∧ ledger.Drawn after) ∨
      ∃ mid auth, ledger.Drawn mid ∧
        HostFnPrepared s hostFunction source opts ledger mid auth r.sim ∧
        (r.sim.restoredRwEntryIndices = [] → ∀ resources, r.sim.resources = some resources →
          ∀ envelope passphrase validation outcome after',
            envelope.CarriesCall hostFunction source auth resources →
            applyTransaction s.toDeps envelope passphrase validation mid = .ok outcome after' →
            outcome.rejected = false → (mid.store.account? source).isSome →
            (∀ key ∈ resources.footprint.keys, key ∈ envelope.unwritten) →
            r.Submitted after envelope validation mid outcome after') := by
  rcases applyHostFn_ok h with hfailed | ⟨mid, auth, sim, hprepared, hsent⟩
  · exact .inl hfailed
  · have hsim : r.sim = sim := by
      unfold sendHostFn at hsent
      simp only [bind_eq_ok, pure_eq_ok] at hsent
      obtain ⟨sent, _, -, rfl, -⟩ := hsent
      exact HostFnResult.sent_sim sim sent
    rw [hsim]
    refine .inr ⟨mid, auth, hprepared.drawn, hprepared, fun hnothing resources hresources envelope
      passphrase validation outcome after' hcall happly haccepted hexists hapart => ?_⟩
    rcases applyTransaction_ok happly with ⟨hrejected, -⟩ | ⟨-, a, v, l₁, l₂, op, hstages⟩
    · rw [haccepted] at hrejected
      cases hrejected
    · exact hstages.submitted hd (hprepared.drawn.addressed hledger) hnothing hsent hresources hcall
        hexists hapart

/-! ## A call that writes one entry -/

def slotResources : SorobanResources :=
  ⟨⟨[.account ⟨List.replicate 32 9⟩], [.contractData ⟨[1]⟩ ⟨[1]⟩ .persistent]⟩, 0, 100, 100⟩

/-- The stamping host, whose simulations find the footprint of
`slotEnvelope`. -/
def slotSdk : Sdk :=
  { Sdk.idle with
    toDeps := { stampingDeps with
      recordHostFunction := fun _ => ⟨.ok ⟨.ok ⟨[]⟩, slotResources, [], [], [], [], 0⟩, 0, 0, []⟩ } }

theorem slotSdk_callsLocally (codes : Set Bytes) : slotSdk.toDeps.CallsLocally codes :=
  have hcalls := stampingDeps_callsLocally codes
  ⟨hcalls.reads, ⟨hcalls.hashes.filed, hcalls.hashes.injective⟩, hcalls.keyed, hcalls.footprint⟩

theorem submitted_agrees_slot :
    ∃ r after mid outcome after',
      applyHostFn slotSdk ⟨[]⟩ ⟨List.replicate 32 7⟩ {} twoAccounts = .ok r after ∧
      applyTransaction slotSdk.toDeps (.envelopeTypeTx (slotEnvelope 7 1)) "" {} mid =
        .ok outcome after' ∧
      outcome.ok = true ∧
      r.Submitted after (.envelopeTypeTx (slotEnvelope 7 1)) {} mid outcome after' := by
  obtain ⟨r, after, hsent, hok, hrestored, hresources, hauth⟩ : ∃ r after,
      applyHostFn slotSdk ⟨[]⟩ ⟨List.replicate 32 7⟩ {} twoAccounts = .ok r after ∧
        r.ok = true ∧ r.sim.restoredRwEntryIndices = [] ∧ r.sim.resources = some slotResources ∧
        r.sim.auth = [] := ⟨_, _, rfl, rfl, rfl, rfl, rfl⟩
  rcases submitted_agrees (slotSdk_callsLocally ∅) (twoAccounts_addressed _ _) hsent with
    ⟨hfailed, -⟩ | ⟨mid, auth, ⟨counter, rfl⟩, hprepared, hagrees⟩
  · rw [hok] at hfailed
    cases hfailed
  · obtain rfl : auth = [] := (hprepared.auth_of_none rfl).trans hauth
    obtain ⟨outcome, after', happly, haccepted, hsucceeded⟩ : ∃ outcome after',
        applyTransaction slotSdk.toDeps (.envelopeTypeTx (slotEnvelope 7 1)) "" {}
            { twoAccounts with env := { twoAccounts.env with prngCounter := counter } } =
          .ok outcome after' ∧ outcome.rejected = false ∧ outcome.ok = true :=
      ⟨_, _, rfl, rfl, rfl⟩
    have hapart : ∀ key ∈ slotResources.footprint.keys,
        key ∈ (TransactionEnvelope.envelopeTypeTx (slotEnvelope 7 1)).unwritten := by
      show ∀ key ∈ slotResources.footprint.keys,
        ∀ id ∈ [(⟨List.replicate 32 7⟩ : AccountId), ⟨List.replicate 32 7⟩], key ≠ .account id
      decide
    exact ⟨r, after, _, outcome, after', hsent, happly, hsucceeded,
      hagrees hrestored slotResources hresources _ _ _ outcome after'
        ⟨_, _, _, rfl, rfl, rfl, rfl, rfl, rfl⟩ happly haccepted rfl hapart⟩

end LiteSoroban

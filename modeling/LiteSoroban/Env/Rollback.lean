import LiteSoroban.Env.Client
import LiteSoroban.Env.SendTtl

/-!
# Rollback

`snapshot` and `restore` put back the store, the ledger sequence, the
timestamp and the PRNG counter.  Two fields stay as they are: the snapshots
taken since, and the module cache.  The cache can then hold modules whose code
is gone from the ledger, or has expired in it.

A call tops the cache up with the live code of its footprint and takes out the
code it restores, so that for code the call can use, the cache it hands over
does not depend on what was cached before: `mem_moduleCache`.  That rests on
code being stored under its hash.

`replay_after_rollback` is the result: for a host that looks at the modules of
code it can use, nothing a client does after a rollback tells it from the same
done at the snapshot, but for the ids of the snapshots it takes.
-/

namespace LiteSoroban

open Effect

/-! ## The cache a call hands over -/

/-- A module is filed under the hash of its code, and no two of these codes
have one hash. -/
structure Deps.HashesCode (d : Deps) (codes : Set Bytes) : Prop where
  filed : ∀ protocolVersion code hash, d.parseModule protocolVersion code = some hash →
    hash = d.getWasmHash code
  injective : Set.InjOn d.getWasmHash codes

/-- The entry is one of these codes, and this is its hash. -/
def Deps.IsCode (d : Deps) (codes : Set Bytes) (hash : Hash) (entry : LedgerEntry) : Prop :=
  ∃ code, entry.data = .contractCode code ∧ code.code ∈ codes ∧ d.getWasmHash code.code = hash

/-- The live code the call finds is one of these codes, and stands under its
hash.  `seedWasm` and uploads store it so, and `putEntry` does not look. -/
def CodeAddressed (d : Deps) (codes : Set Bytes) (env : SorobanEnv) (args : SendArgs) : Prop :=
  ∀ hash e, FindsCode env args hash e → d.IsCode codes hash e.entry

theorem CodeAddressed.among {d : Deps} {codes : Set Bytes} {env : SorobanEnv} {args : SendArgs}
    (h : CodeAddressed d codes env args) : CodeAmong codes env args := by
  intro hash e code hfinds hdata
  obtain ⟨stored, hstored, hmem, -⟩ := h hash e hfinds
  rw [hstored] at hdata
  cases hdata
  exact hmem

/-- Code that a call can use is stored, and the call restores it or it is
live. -/
theorem exists_of_usesCode {d : Deps} {env : SorobanEnv} {args : SendArgs} {input : HostInput}
    {loaded : Loaded} (h : Prepared d env args input loaded) {hash : Hash}
    (huses : input.usesCode hash = true) :
    .contractCode hash ∈ args.resources.footprint.keys ∧
      ∃ e, env.store.lookup (.contractCode hash) = some e ∧
        (.contractCode hash ∈ args.restored ∨ env.expired e.liveUntil = false) := by
  simp only [HostInput.usesCode, List.any_eq_true, Prod.exists, Bool.and_eq_true,
    Bool.or_eq_true, decide_eq_true_eq] at huses
  obtain ⟨key, value, ttl, hmem, ⟨rfl, hvalue⟩, hlive⟩ := huses
  have hhanded := (List.forall₂_iff_zip.mp h.handed).2 hmem
  have hkey := (List.of_mem_zip hmem).1
  rw [h.resources_eq] at hkey
  have hrestored : input.restored = args.restored := by
    rw [h.input_eq]
    rfl
  have hsequence : input.ledgerInfo.sequenceNumber = env.ledgerSeq := by
    rw [h.input_eq]
    rfl
  rw [hrestored, hsequence] at hlive
  refine ⟨hkey, ?_⟩
  simp only [SorobanEnv.Handed] at hhanded
  cases hlookup : env.store.lookup (.contractCode hash) with
  | none =>
    simp only [hlookup, Prod.mk.injEq] at hhanded
    simp [hhanded.1] at hvalue
  | some e =>
    refine ⟨e, rfl, ?_⟩
    by_cases hin : .contractCode hash ∈ args.restored
    · exact .inl hin
    · have httl := hlive.resolve_left hin
      simp only [hlookup, isTemporary, Bool.false_and, Bool.false_eq_true, if_false, ttlMeta,
        needsTtl, if_true, SorobanEnv.handedLiveUntil, if_neg hin] at hhanded
      have hmeta := hhanded.2
      split at hmeta
      · rw [← Except.ok.inj hmeta] at httl
        refine .inr ?_
        cases hlast : e.liveUntil with
        | none => rfl
        | some t => simpa [SorobanEnv.expired, hlast] using httl
      · cases hmeta

/-- Only code the call restores counts as restored. -/
theorem mem_restored_of_codeOf {env : SorobanEnv} {args : SendArgs} {key : LedgerKey} {hash : Hash}
    (h : hash ∈ (env.codeOf args key).2) : .contractCode hash ∈ args.restored := by
  simp only [SorobanEnv.codeOf] at h
  split at h
  · split at h
    · next hin =>
      rw [List.mem_singleton.mp h]
      exact hin
    · split at h <;> cases h
  · cases h

/-- Filing a module keeps the modules that are there. -/
theorem subset_cacheModule (d : Deps) (protocolVersion : Nat) (cache : ModuleCache)
    (live : Hash × LedgerEntry) : cache ⊆ cacheModule d protocolVersion cache live := by
  simp only [cacheModule]
  split
  · exact Finset.Subset.refl cache
  · split
    · split
      · exact Finset.subset_insert _ cache
      · exact Finset.Subset.refl cache
    · exact Finset.Subset.refl cache

theorem subset_foldl_cacheModule (d : Deps) (protocolVersion : Nat)
    (liveCode : List (Hash × LedgerEntry)) (cache : ModuleCache) :
    cache ⊆ liveCode.foldl (cacheModule d protocolVersion) cache := by
  induction liveCode generalizing cache with
  | nil => exact Finset.Subset.refl cache
  | cons live liveCode ih =>
    exact (subset_cacheModule d protocolVersion cache live).trans (ih _)

/-- Live code that compiles to its hash is in the cache. -/
theorem mem_of_live {d : Deps} {protocolVersion : Nat} {liveCode : List (Hash × LedgerEntry)}
    {cache : ModuleCache} {hash : Hash} {entry : LedgerEntry} {code : ContractCodeEntry}
    (hlive : (hash, entry) ∈ liveCode) (hdata : entry.data = .contractCode code)
    (hparse : d.parseModule protocolVersion code.code = some hash) :
    hash ∈ liveCode.foldl (cacheModule d protocolVersion) cache := by
  induction liveCode generalizing cache with
  | nil => cases hlive
  | cons live liveCode ih =>
    rcases List.mem_cons.mp hlive with rfl | hlater
    · refine subset_foldl_cacheModule d protocolVersion liveCode _ ?_
      simp only [cacheModule]
      split
      · next hthere => exact hthere
      · simp [hdata, hparse]
    · exact ih hlater

/-- For code the call can use, the cache it hands over holds the module exactly
when the call does not restore the code and the code compiles. -/
theorem mem_moduleCache {d : Deps} {codes : Set Bytes} (hhash : d.HashesCode codes)
    {env : SorobanEnv} (hcache : env.CacheParsed d codes) {args : SendArgs}
    (hcode : CodeAddressed d codes env args) {input : HostInput}
    (h : prepareSend d env args = .ok input) {hash : Hash} (huses : input.usesCode hash = true) :
    hash ∈ input.moduleCache ↔ .contractCode hash ∉ args.restored ∧
      ∃ code ∈ codes, d.parseModule env.protocolVersion code = some hash := by
  obtain ⟨loaded, hprepared⟩ := prepareSend_ok h
  obtain ⟨hkey, e, hlookup, hlive⟩ := exists_of_usesCode hprepared huses
  obtain ⟨hliveCode, hrestoredCode⟩ := loadFootprint_code hprepared.footprint
  have hprep : input.moduleCache =
      env.prepareModuleCache d loaded.liveCode loaded.restoredCode := by
    rw [hprepared.input_eq]
  constructor
  · intro hmem
    rw [hprep] at hmem
    refine ⟨fun hin => ?_, hcache.prepared hcode.among hprepared.footprint hmem⟩
    refine (mem_foldl_erase.mp hmem).1 ?_
    rw [hrestoredCode, List.mem_flatMap]
    exact ⟨_, hkey, by simp [SorobanEnv.codeOf, hlookup, hin]⟩
  · rintro ⟨hin, code, hmem, hparse⟩
    have hnotExpired := hlive.resolve_left hin
    obtain ⟨stored, hdata, hstoredMem, hstored⟩ := hcode hash e ⟨hkey, hin, hlookup, hnotExpired⟩
    have hsame : stored.code = code :=
      hhash.injective hstoredMem hmem (hstored.trans (hhash.filed _ _ _ hparse))
    rw [hprep]
    refine mem_foldl_erase.mpr ⟨fun hrestored => ?_, ?_⟩
    · rw [hrestoredCode, List.mem_flatMap] at hrestored
      obtain ⟨key, -, hcodeOf⟩ := hrestored
      exact hin (mem_restored_of_codeOf hcodeOf)
    · have hfound : (hash, e.entry) ∈ loaded.liveCode := by
        rw [hliveCode, List.mem_flatMap]
        exact ⟨_, hkey, by simp [SorobanEnv.codeOf, hlookup, hin, hnotExpired]⟩
      exact mem_of_live hfound hdata (hsame ▸ hparse)

/-! ## Two environments that differ in what a rollback leaves -/

/-- The environment with another module cache and other snapshots. -/
def SorobanEnv.setAside (env : SorobanEnv) (moduleCache : Option ModuleCache)
    (snapshots : List LedgerSnapshot) : SorobanEnv :=
  { env with moduleCache := moduleCache, snapshots := snapshots }

theorem checkWrittenEntries_setAside (env : SorobanEnv) (moduleCache : Option ModuleCache)
    (snapshots : List LedgerSnapshot) :
    checkWrittenEntries (env.setAside moduleCache snapshots) = checkWrittenEntries env :=
  checkWrittenEntries_congr rfl rfl

theorem toValue_setAside (d : Deps) (env : SorobanEnv) (moduleCache : Option ModuleCache)
    (snapshots : List LedgerSnapshot) (out : SendResult) :
    out.toValue d (env.setAside moduleCache snapshots) =
      mapState (·.setAside moduleCache snapshots) (out.toValue d env) := by
  simp only [SendResult.toValue]
  split <;> rfl

/-- What follows the host's return does not look at the cache or the
snapshots. -/
theorem settleCall_setAside (d : Deps) (env : SorobanEnv) (moduleCache : Option ModuleCache)
    (snapshots : List LedgerSnapshot) (args : SendArgs) (out : HostOutput) :
    settleCall d (env.setAside moduleCache snapshots) args out =
      mapState (·.setAside moduleCache snapshots) (settleCall d env args out) := by
  have hconsumed : consumeRefundable d (env.setAside moduleCache snapshots) =
      consumeRefundable d env := rfl
  simp only [settleCall, checkWrittenEntries_setAside, hconsumed]
  cases out.result with
  | error e => exact toValue_setAside ..
  | ok res =>
    cases hvalue : res.encodedInvokeResult with
    | error e =>
      simp only [hvalue]
      exact toValue_setAside ..
    | ok value =>
      simp only [hvalue]
      cases (do
          checkWrittenEntries env args.resources res.ledgerChanges 0
          consumeRefundable d env res value.len args.maxRefundableFee) with
      | error failure => exact toValue_setAside ..
      | ok consumed =>
        simp only
        cases hmerge : mergeChanges res.ledgerChanges ⟨env.store, [], [], []⟩ with
        | error e m =>
          simp only [SorobanEnv.setAside] at hmerge ⊢
          simp only [hmerge]
          rfl
        | ok u m =>
          simp only [SorobanEnv.setAside] at hmerge ⊢
          simp only [hmerge]
          exact toValue_setAside d { env with store := m.store } moduleCache snapshots _

/-- A host that looks at the modules of code it can use, and at no others. -/
def Deps.ReadsUsedCode (d : Deps) : Prop :=
  ∀ input input' : HostInput, input.seen = input'.seen →
    d.invokeHostFunction input = d.invokeHostFunction input'

theorem CodeAddressed.setAside {d : Deps} {codes : Set Bytes} {env : SorobanEnv} {args : SendArgs}
    (h : CodeAddressed d codes env args) (moduleCache : Option ModuleCache)
    (snapshots : List LedgerSnapshot) :
    CodeAddressed d codes (env.setAside moduleCache snapshots) args := by
  intro hash e hfinds
  exact h hash e ⟨hfinds.named, hfinds.kept, hfinds.stored, hfinds.live⟩

/-- Over parsed caches and code stored under its hash, the host is handed what
looks the same to it. -/
theorem prepareSend_setAside {d : Deps} {codes : Set Bytes} (hhash : d.HashesCode codes)
    {env : SorobanEnv} {moduleCache : Option ModuleCache} {snapshots : List LedgerSnapshot}
    {args : SendArgs} (hcache : env.CacheParsed d codes)
    (hcache' : (env.setAside moduleCache snapshots).CacheParsed d codes)
    (hcode : CodeAddressed d codes env args) {input : HostInput}
    (h : prepareSend d env args = .ok input) :
    ∃ input', prepareSend d (env.setAside moduleCache snapshots) args = .ok input' ∧
      input'.seen = input.seen := by
  obtain ⟨loaded, hprepared⟩ := prepareSend_ok h
  let input' : HostInput := { input with
    moduleCache := (env.setAside moduleCache snapshots).prepareModuleCache d loaded.liveCode
      loaded.restoredCode }
  have hinput' : prepareSend d (env.setAside moduleCache snapshots) args = .ok input' := by
    have hbudget : (env.setAside moduleCache snapshots).enforcingBudget d
        args.resources.instructions = .ok input.budget := hprepared.budget
    have hloaded : loadFootprint d (env.setAside moduleCache snapshots) args input.budget =
        .ok loaded := hprepared.footprint
    simp only [prepareSend, hbudget, hloaded, input']
    rw [hprepared.input_eq]
    rfl
  refine ⟨input', hinput', ?_⟩
  have huses : input'.usesCode = input.usesCode := rfl
  have hcode' := hcode.setAside moduleCache snapshots
  have hmodules : input'.moduleCache.filter (input'.usesCode ·) =
      input.moduleCache.filter (input.usesCode ·) := by
    ext hash
    simp only [Finset.mem_filter, huses]
    constructor
    · rintro ⟨hmem, hused⟩
      have hfiled := (mem_moduleCache hhash hcache' hcode' hinput' (huses ▸ hused)).mp hmem
      exact ⟨(mem_moduleCache hhash hcache hcode h hused).mpr hfiled, hused⟩
    · rintro ⟨hmem, hused⟩
      have hfiled := (mem_moduleCache hhash hcache hcode h hused).mp hmem
      exact ⟨(mem_moduleCache hhash hcache' hcode' hinput' (huses ▸ hused)).mpr hfiled, hused⟩
  simp only [HostInput.seen, hmodules]
  rfl

/-- A call that stops before the host stops the same way. -/
theorem prepareSend_setAside_error {d : Deps} {env : SorobanEnv}
    {moduleCache : Option ModuleCache} {snapshots : List LedgerSnapshot} {args : SendArgs}
    {stop : SendStop} (h : prepareSend d env args = .error stop) :
    prepareSend d (env.setAside moduleCache snapshots) args = .error stop := by
  have hbudgets : (env.setAside moduleCache snapshots).enforcingBudget d =
      env.enforcingBudget d := rfl
  have hloads : loadFootprint d (env.setAside moduleCache snapshots) args =
      loadFootprint d env args := rfl
  simp only [prepareSend] at h
  simp only [prepareSend, hbudgets, hloads]
  cases hbudget : env.enforcingBudget d args.resources.instructions with
  | error e =>
    simp only [hbudget] at h
    exact h
  | ok budget =>
    simp only [hbudget] at h
    cases hloaded : loadFootprint d env args budget with
    | error stop' =>
      simp only [hloaded] at h ⊢
      exact h
    | ok loaded => simp [hloaded] at h

/-- A call does the same over another module cache and other snapshots. -/
theorem send_setAside {d : Deps} {codes : Set Bytes} (hhost : d.ReadsUsedCode)
    (hhash : d.HashesCode codes) {env : SorobanEnv} {moduleCache : Option ModuleCache}
    {snapshots : List LedgerSnapshot} {args : SendArgs} (hcache : env.CacheParsed d codes)
    (hcache' : (env.setAside moduleCache snapshots).CacheParsed d codes)
    (hcode : CodeAddressed d codes env args) :
    ∃ moduleCache', (env.setAside moduleCache snapshots).send d args =
      mapState (·.setAside moduleCache' snapshots) (env.send d args) := by
  simp only [SorobanEnv.send]
  cases hprep : prepareSend d env args with
  | error stop =>
    rw [prepareSend_setAside_error hprep]
    cases stop with
    | thrown e => exact ⟨moduleCache, rfl⟩
    | failed message => exact ⟨moduleCache, toValue_setAside ..⟩
  | ok input =>
    obtain ⟨input', hinput', hseen⟩ := prepareSend_setAside hhash hcache hcache' hcode hprep
    rw [hinput']
    simp only
    rw [hhost input' input hseen]
    exact ⟨some input'.moduleCache, settleCall_setAside d
      { env with moduleCache := some input.moduleCache } _ snapshots args _⟩

/-- A simulation does not look at the cache or the snapshots. -/
theorem simulate_setAside (d : Deps) (env : SorobanEnv) (moduleCache : Option ModuleCache)
    (snapshots : List LedgerSnapshot) (args : SimulateArgs) :
    (env.setAside moduleCache snapshots).simulate d args =
      mapState (·.setAside moduleCache snapshots) (env.simulate d args) := by
  have hbudgets : (env.setAside moduleCache snapshots).simulationBudget d =
      env.simulationBudget d := rfl
  have hinputs : recordingInput (env.setAside moduleCache snapshots) args =
      recordingInput env args := rfl
  have hsettles : settleSimulation d (env.setAside moduleCache snapshots) args =
      settleSimulation d env args := rfl
  simp only [SorobanEnv.simulate, hbudgets, hinputs, hsettles]
  cases env.simulationBudget d with
  | error e => rfl
  | ok budget =>
    simp only
    cases settleSimulation d env args (d.recordHostFunction (recordingInput env args budget)) with
    | error e => rfl
    | ok result => rfl

/-! ## Two clients that differ in what a rollback leaves -/

theorem Client.called_mapState {α : Type} (c c' : Client) (answer : α → EnvAnswer)
    (f : SorobanEnv → SorobanEnv) (result : EStateM.Result JsError SorobanEnv α) :
    c'.called answer (mapState f result) =
      ((c.called answer result).1, ⟨f (c.called answer result).2.env, c'.held⟩) := by
  cases result <;> rfl

/-- Two clients over the same ledger state and configuration, holding the same
snapshots.  There are `since` more snapshots under the second one. -/
structure Alike (d : Deps) (codes : Set Bytes) (since : Nat) (c c' : Client) : Prop where
  left : c.Sound d codes
  right : c'.Sound d codes
  env : c'.env = c.env.setAside c'.env.moduleCache c'.env.snapshots
  held : c'.held.map (c'.env.snapshots[·]?) = c.held.map (c.env.snapshots[·]?)
  later : c'.env.snapshots.length = c.env.snapshots.length + since

/-- The live code a call finds is one of these codes, under its hash.  Nothing
is asked of the other operations. -/
def EnvOp.CodeAddressed (d : Deps) (codes : Set Bytes) (c : Client) : EnvOp → Prop
  | .send args => LiteSoroban.CodeAddressed d codes c.env args
  | _ => True

theorem EnvOp.CodeAddressed.among {d : Deps} {codes : Set Bytes} {c : Client} {op : EnvOp}
    (h : op.CodeAddressed d codes c) : op.CodeAmong codes c := by
  cases op with
  | send args => exact LiteSoroban.CodeAddressed.among h
  | _ => trivial

/-- Clients that are alike find the same code. -/
theorem Alike.codeAmong {d : Deps} {codes : Set Bytes} {since : Nat} {c c' : Client}
    (h : Alike d codes since c c') {op : EnvOp} (hop : op.CodeAmong codes c) :
    op.CodeAmong codes c' := by
  cases op with
  | send args =>
    intro hash e code hfinds hdata
    obtain ⟨hnamed, hkept, hstored, hlive⟩ := hfinds
    rw [h.env] at hstored hlive
    exact hop hash e code ⟨hnamed, hkept, hstored, hlive⟩ hdata
  | _ => trivial

/-- The answer over `since` more snapshots: a new one has that much greater an
id. -/
def EnvAnswer.after (since : Nat) : EnvAnswer → EnvAnswer
  | .taken id => .taken (id + since)
  | answer => answer

theorem Client.called_after {α : Type} (c : Client) {answer : α → EnvAnswer} {since : Nat}
    (hanswer : ∀ a, (answer a).after since = answer a)
    (result : EStateM.Result JsError SorobanEnv α) :
    (c.called answer result).1.after since = (c.called answer result).1 := by
  cases result with
  | ok a env => exact hanswer a
  | error e env => rfl

/-- What an operation answers, over another module cache and other
snapshots. -/
theorem Alike.perform {d : Deps} {codes : Set Bytes} (hhost : d.ReadsUsedCode)
    (hhash : d.HashesCode codes) {since : Nat} {c c' : Client} (h : Alike d codes since c c')
    {op : EnvOp} (hop : op.CodeAddressed d codes c) :
    (c'.perform d op).1 = (c.perform d op).1.after since ∧
      ∃ moduleCache snapshots, (c'.perform d op).2.env =
        (c.perform d op).2.env.setAside moduleCache snapshots := by
  obtain ⟨env', held'⟩ := c'
  obtain ⟨hleft, hright, henv, hheld, hlater⟩ := h
  simp only at henv hheld hlater
  generalize hcache : env'.moduleCache = moduleCache at henv
  generalize hsnapshots : env'.snapshots = snapshots at henv hheld hlater
  subst henv
  cases op with
  | send args =>
    obtain ⟨moduleCache', hsend⟩ := send_setAside hhost hhash hleft.cache hright.cache hop
    simp only [Client.perform, hsend, c.called_mapState]
    exact ⟨(c.called_after (fun _ => rfl) _).symm, _, _, rfl⟩
  | simulate args =>
    simp only [Client.perform, simulate_setAside, c.called_mapState]
    exact ⟨(c.called_after (fun _ => rfl) _).symm, _, _, rfl⟩
  | putEntry entry liveUntil =>
    simp only [Client.perform, SorobanEnv.putEntry]
    cases keyOf entry with
    | error e => exact ⟨rfl, _, _, rfl⟩
    | ok key => exact ⟨rfl, _, _, rfl⟩
  | fundAccount seed =>
    simp only [Client.perform, SorobanEnv.fundAccount]
    cases keyOf (d.accountEntry (d.getAccountId seed)) with
    | error e => exact ⟨rfl, _, _, rfl⟩
    | ok key => exact ⟨rfl, _, _, rfl⟩
  | seedWasm code =>
    have hinfo : (c.env.setAside moduleCache snapshots).ledgerInfo = c.env.ledgerInfo := rfl
    simp only [Client.perform, SorobanEnv.seedWasm, hinfo]
    cases c.env.ledgerInfo.minLiveUntilLedgerChecked with
    | none => exact ⟨rfl, _, _, rfl⟩
    | some ttl => exact ⟨rfl, _, _, rfl⟩
  | restore place =>
    have hplace : held'[place]?.map (snapshots[·]?) = c.held[place]?.map (c.env.snapshots[·]?) := by
      rw [← List.getElem?_map, ← List.getElem?_map, hheld]
    simp only [Client.perform]
    cases hid : c.held[place]? with
    | none =>
      rw [hid, Option.map_none, Option.map_eq_none_iff] at hplace
      rw [hplace]
      exact ⟨rfl, _, _, rfl⟩
    | some id =>
      rw [hid, Option.map_some, Option.map_eq_some_iff] at hplace
      obtain ⟨id', hid', hsnap⟩ := hplace
      rw [hid']
      have hsame : (c.env.setAside moduleCache snapshots).snapshots[id']? = c.env.snapshots[id]? :=
        hsnap
      simp only [SorobanEnv.restore, hsame]
      cases c.env.snapshots[id]? with
      | none => exact ⟨rfl, _, _, rfl⟩
      | some snap => exact ⟨rfl, _, _, rfl⟩
  | configure setting =>
    simp only [Client.perform]
    cases setting with
    | archivalSettings minTemp minPersistent max =>
      simp only [SorobanEnv.configure, SorobanEnv.setArchivalSettings]
      split
      · exact ⟨rfl, _, _, rfl⟩
      · exact ⟨rfl, _, _, rfl⟩
    | networkId id =>
      simp only [SorobanEnv.configure, SorobanEnv.setNetworkId]
      split
      · exact ⟨rfl, _, _, rfl⟩
      · exact ⟨rfl, _, _, rfl⟩
    | enforceDeclaredResources on => exact ⟨rfl, _, _, rfl⟩
    | enforceDeclaredBytes on => exact ⟨rfl, _, _, rfl⟩
    | costParams cpuParams memParams => exact ⟨rfl, _, _, rfl⟩
    | feeSettings settings => exact ⟨rfl, _, _, rfl⟩
  | removeEntry key => exact ⟨rfl, _, _, rfl⟩
  | snapshot => exact ⟨congrArg EnvAnswer.taken hlater, _, _, rfl⟩
  | advanceLedgers n => exact ⟨rfl, _, _, rfl⟩
  | setTimestamp t => exact ⟨rfl, _, _, rfl⟩
  | resetPrng => exact ⟨rfl, _, _, rfl⟩

/-- Only `snapshot` changes what snapshots there are, and which are held. -/
theorem Client.perform_held (d : Deps) (c : Client) {op : EnvOp} (hop : op ≠ .snapshot) :
    (c.perform d op).2.held = c.held ∧ (c.perform d op).2.env.snapshots = c.env.snapshots := by
  rcases c.perform_cases d op with ⟨args, -, hnext⟩ | ⟨hsnap, -⟩ | ⟨setting, env, -, hset, hnext⟩ |
    ⟨_, ⟨_, _, _, _, rfl⟩, hnext⟩
  · rw [hnext]
    exact ⟨rfl, send_snapshots d c.env args⟩
  · exact absurd hsnap hop
  · rw [hnext]
    exact ⟨rfl, (configure_frame hset).2.1⟩
  · rw [hnext]
    exact ⟨rfl, rfl⟩

/-- Each `snapshot` adds one. -/
theorem Client.perform_snapshots (d : Deps) (c : Client) (op : EnvOp) :
    (c.perform d op).2.env.snapshots.length =
      c.env.snapshots.length + [op].countP EnvOp.takes := by
  cases op with
  | snapshot => exact List.length_append
  | _ => exact congrArg List.length (c.perform_held d EnvOp.noConfusion).2

/-- The snapshots a client holds stay what they are when one is added. -/
theorem Client.Sound.held_append {d : Deps} {codes : Set Bytes} {c : Client} (h : c.Sound d codes)
    (snap : LedgerSnapshot) :
    (c.held ++ [c.env.snapshots.length]).map ((c.env.snapshots ++ [snap])[·]?) =
      c.held.map (c.env.snapshots[·]?) ++ [some snap] := by
  rw [List.map_append, List.map_singleton, List.getElem?_concat_length]
  congr 1
  exact List.map_congr_left fun id hid => List.getElem?_append_left (h.held id hid)

/-- Two clients that are alike hand the host what looks the same to it. -/
theorem Alike.hostInput? {d : Deps} {codes : Set Bytes} (hhash : d.HashesCode codes) {since : Nat}
    {c c' : Client} (h : Alike d codes since c c') {op : EnvOp} (hop : op.CodeAddressed d codes c) :
    c'.env.hostInput? d op = c.env.hostInput? d op := by
  cases op with
  | send args =>
    have hcache := h.right.cache
    rw [h.env] at hcache ⊢
    simp only [SorobanEnv.hostInput?]
    cases hprep : prepareSend d c.env args with
    | error stop => rw [prepareSend_setAside_error hprep]
    | ok input =>
      obtain ⟨input', hinput', hseen⟩ := prepareSend_setAside hhash h.left.cache hcache hop hprep
      rw [hinput']
      exact congrArg some hseen
  | _ => rfl

/-- What is shown over `since` more snapshots. -/
def Observed.after (since : Nat) (shown : Observed) : Observed :=
  { shown with answer := shown.answer.after since }

/-- One operation shows the same to two clients that are alike, but for the id
of a new snapshot, and leaves them alike. -/
theorem Alike.step {d : Deps} {codes : Set Bytes} (hhost : d.ReadsUsedCode)
    (hhash : d.HashesCode codes) {since : Nat} {c c' : Client} (h : Alike d codes since c c')
    {op : EnvOp} (hop : op.CodeAddressed d codes c) :
    (client d).out c' op = ((client d).out c op).after since ∧
      Alike d codes since ((client d).next c op) ((client d).next c' op) := by
  obtain ⟨hanswer, moduleCache, snapshots, henv⟩ := h.perform hhost hhash hop
  have hend : Alike d codes since ((client d).next c op) ((client d).next c' op) := by
    refine ⟨c.perform_sound h.left hop.among, c'.perform_sound h.right (h.codeAmong hop.among),
      ?_, ?_, ?_⟩
    · simp only [client_next]
      rw [henv]
      rfl
    · simp only [client_next]
      by_cases hsnap : op = .snapshot
      · subst hsnap
        let snap : LedgerSnapshot :=
          ⟨c.env.store, c.env.ledgerSeq, c.env.timestamp, c.env.prngCounter⟩
        have hsame : c'.env.snapshot.2.snapshots = c'.env.snapshots ++ [snap] := by
          rw [h.env]
          rfl
        show (c'.held ++ [c'.env.snapshots.length]).map (c'.env.snapshot.2.snapshots[·]?) =
          (c.held ++ [c.env.snapshots.length]).map ((c.env.snapshots ++ [snap])[·]?)
        rw [hsame, h.right.held_append, h.left.held_append, h.held]
      · obtain ⟨hheld, hsnapshots⟩ := c.perform_held d hsnap
        obtain ⟨hheld', hsnapshots'⟩ := c'.perform_held d hsnap
        rw [hheld, hsnapshots, hheld', hsnapshots']
        exact h.held
    · simp only [client_next]
      rw [c.perform_snapshots, c'.perform_snapshots, h.later]
      omega
  refine ⟨?_, hend⟩
  have hrecording : c'.env.recordingInput? d op = c.env.recordingInput? d op := by
    rw [h.env]
    rfl
  simp only [Machine.out, client, clientStep, hanswer, henv, h.hostInput? hhash hop, hrecording]
  rfl

/-! ## Rolling back -/

/-- `c'` can follow `c` without a network setter in between: the configuration
is the same, and the snapshots of `c` are where they were. -/
structure Client.Follows (c c' : Client) : Prop where
  config : c'.env = { c.env with
    store := c'.env.store
    snapshots := c'.env.snapshots
    ledgerSeq := c'.env.ledgerSeq
    timestamp := c'.env.timestamp
    prngCounter := c'.env.prngCounter
    moduleCache := c'.env.moduleCache }
  snapshots : c.env.snapshots <+: c'.env.snapshots
  held : c.held <+: c'.held

theorem Client.Follows.refl (c : Client) : c.Follows c :=
  ⟨rfl, List.prefix_rfl, List.prefix_rfl⟩

theorem Client.Follows.trans {a b c : Client} (h : a.Follows b) (h' : b.Follows c) :
    a.Follows c := by
  refine ⟨?_, h.snapshots.trans h'.snapshots, h.held.trans h'.held⟩
  have hc := h'.config
  rw [h.config] at hc
  exact hc

theorem Client.perform_follows (d : Deps) (c : Client) {op : EnvOp} (hop : op.configures = false) :
    c.Follows (c.perform d op).2 := by
  rcases c.perform_cases d op with ⟨args, -, hnext⟩ | ⟨-, hnext⟩ | ⟨setting, env, rfl, -, -⟩ |
    ⟨_, ⟨_, _, _, _, rfl⟩, hnext⟩
  · rw [hnext]
    rcases send_frame d args c.env with ⟨cache, hframe⟩ | ⟨_, _, _, _, _, hframe⟩
    · rw [hframe]
      exact ⟨rfl, List.prefix_rfl, List.prefix_rfl⟩
    · rw [hframe]
      exact ⟨rfl, List.prefix_rfl, List.prefix_rfl⟩
  · rw [hnext]
    exact ⟨rfl, List.prefix_append _ _, List.prefix_append _ _⟩
  · cases hop
  · rw [hnext]
    exact ⟨rfl, List.prefix_rfl, List.prefix_rfl⟩

theorem client_follows {d : Deps} {c : Client} {ops : List EnvOp}
    (hops : ∀ op ∈ ops, op.configures = false) : c.Follows ((client d).run c ops) := by
  refine (client d).related_run (R := Client.Follows) (P := fun _ op => op.configures = false)
    Client.Follows.refl (fun _ _ _ => Client.Follows.trans) (fun _ _ (_ : True) _ => trivial)
    (fun c op _ hop => ?_) trivial ((client d).allSteps_of_mem c fun op hop _ => hops op hop)
  rw [client_next]
  exact c.perform_follows d hop

/-- The snapshot taken is still there, and restoring it puts everything back
but the module cache and the snapshots. -/
theorem perform_restore {d : Deps} {c c' : Client} (h : (c.perform d .snapshot).2.Follows c') :
    c'.perform d (.restore c.held.length) = (.done,
      { c' with env := c.env.setAside c'.env.moduleCache c'.env.snapshots }) := by
  obtain ⟨hconfig, ⟨snapshots, hsnapshots⟩, ⟨held, hheld⟩⟩ := h
  have hplace : c'.held[c.held.length]? = some c.env.snapshots.length := by
    rw [← hheld]
    simp [Client.perform, SorobanEnv.snapshot]
  have hsnap : c'.env.snapshots[c.env.snapshots.length]? =
      some ⟨c.env.store, c.env.ledgerSeq, c.env.timestamp, c.env.prngCounter⟩ := by
    rw [← hsnapshots]
    simp [Client.perform, SorobanEnv.snapshot]
  simp only [Client.perform, hplace, SorobanEnv.restore, hsnap]
  rw [hconfig]
  rfl

/-- A client that took a snapshot, called `p`, restored the snapshot, and
forgets the snapshots it took since. -/
def Client.rolledBack (d : Deps) (c : Client) (p : List EnvOp) : Client :=
  { (client d).run c (.snapshot :: p ++ [.restore c.held.length]) with held := c.held }

/-- The calls of a run add as many snapshots as they take. -/
theorem client_snapshots (d : Deps) (c : Client) (ops : List EnvOp) :
    ((client d).run c ops).env.snapshots.length =
      c.env.snapshots.length + ops.countP EnvOp.takes := by
  induction ops generalizing c with
  | nil => rfl
  | cons op ops ih =>
    have hsplit : (op :: ops).countP EnvOp.takes =
        [op].countP EnvOp.takes + ops.countP EnvOp.takes := by
      show ([op] ++ ops).countP EnvOp.takes = _
      exact List.countP_append
    rw [Machine.run_cons, ih, client_next, c.perform_snapshots, hsplit]
    omega

theorem Client.Sound.alike_rolledBack {d : Deps} {codes : Set Bytes} {c : Client}
    (h : c.Sound d codes) {p : List EnvOp} (hp : ∀ op ∈ p, op.configures = false)
    (hcodes : (client d).AllSteps (EnvOp.CodeAmong codes) c (.snapshot :: p)) :
    Alike d codes (1 + p.countP EnvOp.takes) c (c.rolledBack d p) := by
  let taken := (c.perform d .snapshot).2
  let later := (client d).run taken p
  have hfollows : taken.Follows later := client_follows hp
  have hlater : later.Sound d codes := (c.perform_sound h hcodes.1).run hcodes.2
  have hback : c.rolledBack d p =
      ⟨c.env.setAside later.env.moduleCache later.env.snapshots, c.held⟩ := by
    have hrestore := perform_restore hfollows
    simp only [Client.rolledBack, Machine.run_concat, Machine.run_cons, client_next]
    rw [hrestore]
  rw [hback]
  have hgrown : c.env.snapshots <+: later.env.snapshots :=
    (List.prefix_append _ _).trans hfollows.snapshots
  have hkept : ∀ id ∈ c.held, later.env.snapshots[id]? = c.env.snapshots[id]? := by
    intro id hid
    obtain ⟨since, hsince⟩ := hgrown
    rw [← hsince]
    exact List.getElem?_append_left (h.held id hid)
  refine ⟨h, ⟨fun id hid => (h.held id hid).trans_le hgrown.length_le, fun hash hhash => ?_⟩, rfl,
    List.map_congr_left hkept, ?_⟩
  · have hparsed := hlater.cache hash hhash
    rw [hfollows.config] at hparsed
    exact hparsed
  · show later.env.snapshots.length = c.env.snapshots.length + (1 + p.countP EnvOp.takes)
    have htaken : taken.env.snapshots.length = c.env.snapshots.length + 1 := List.length_append
    rw [client_snapshots, htaken]
    omega

/-- Replay after rollback.  A client that takes a snapshot, calls whatever it
likes but the network's setters, restores the snapshot and goes on, is shown
at every step what it would have been shown had it gone on at once.  Only the
ids of the snapshots it takes from there on are greater, by the number of those
it took before. -/
theorem replay_after_rollback {d : Deps} {codes : Set Bytes} (hhost : d.ReadsUsedCode)
    (hhash : d.HashesCode codes) {c : Client} (hc : c.Sound d codes) {p q : List EnvOp}
    (hp : ∀ op ∈ p, op.configures = false)
    (hcodes : (client d).AllSteps (EnvOp.CodeAmong codes) c (.snapshot :: p))
    (hq : (client d).AllSteps (EnvOp.CodeAddressed d codes) c q) :
    (client d).outs (c.rolledBack d p) q =
      ((client d).outs c q).map (Observed.after (1 + p.countP EnvOp.takes)) :=
  (client d).lockstep_map (client d) _
    (fun _ _ _ halike hop => (halike.step hhost hhash hop).2)
    (fun _ _ _ halike hop => (halike.step hhost hhash hop).1)
    (hc.alike_rolledBack hp hcodes) hq

/-! ## What a rollback can be told by

A call whose footprint names code that is not in the ledger is handed a cache
that holds its module, or one that does not, by what was cached before.  So is
a call that names code stored under another code's hash.
-/

/-- The host of these runs compiles all code but one, and hashes code to
itself. -/
def compilingDeps : Deps :=
  { Deps.idle with parseModule := fun _ code => if code = [8] then none else some code }

theorem compilingDeps_hashesCode (codes : Set Bytes) : compilingDeps.HashesCode codes := by
  refine ⟨fun protocolVersion code hash hparse => ?_, fun _ _ _ _ h => h⟩
  simp only [compilingDeps, Option.ite_none_left_eq_some, Option.some.injEq] at hparse
  exact hparse.2.symm

/-- A call that names the code of one module. -/
def moduleCall : SendArgs := balanceCall ⟨[.contractCode [7]], []⟩ []

def moduleClient : Client := ⟨.new 23 1000, []⟩

theorem moduleClient_sound (codes : Set Bytes) : moduleClient.Sound compilingDeps codes :=
  @client_sound compilingDeps codes 23 1000 [] trivial

/-- Seed the module and call it, so that it is cached. -/
def cacheModuleOps : List EnvOp := [.seedWasm [7], .send moduleCall]

/-- The input with its module cache cut down to the code the footprint
names. -/
def HostInput.named (input : HostInput) : HostInput :=
  { input with
    moduleCache := input.moduleCache.filter (.contractCode · ∈ input.resources.footprint.keys) }

/-- A rollback shows in the cache, at code that is not in the ledger, and at
code stored under the hash of another. -/
theorem rollback_shows :
    (prepareSend compilingDeps (moduleClient.rolledBack compilingDeps cacheModuleOps).env
        moduleCall).toOption.map HostInput.named ≠
      (prepareSend compilingDeps moduleClient.env moduleCall).toOption.map HostInput.named ∧
    (client compilingDeps).outs (moduleClient.rolledBack compilingDeps cacheModuleOps)
        [.putEntry ⟨0, .contractCode ⟨[7], [8], []⟩, .v0⟩ (some 2000), .send moduleCall] ≠
      (client compilingDeps).outs moduleClient
        [.putEntry ⟨0, .contractCode ⟨[7], [8], []⟩, .v0⟩ (some 2000), .send moduleCall] := by
  constructor
  · decide
  · intro hsame
    have hinputs := congrArg (List.map Observed.hostInput) hsame
    revert hinputs
    decide

/-- The call of the module finds it once it is seeded. -/
theorem moduleCall_addressed {env : SorobanEnv} (store : Store) {liveUntil : Option Nat}
    (hstore : env.store =
      store.insert (.contractCode [7]) ⟨compilingDeps.wasmEntry [7], liveUntil⟩) :
    CodeAddressed compilingDeps {[7]} env moduleCall := by
  intro hash e hfinds
  have hhash : hash = [7] := by
    simpa [moduleCall, balanceCall, LedgerFootprint.keys] using hfinds.named
  have hlookup := hfinds.stored
  rw [hhash, hstore, Finmap.lookup_insert] at hlookup
  cases hlookup
  exact ⟨_, rfl, rfl, hhash.symm⟩

theorem replay_after_rollback_module :
    (client compilingDeps).outs (moduleClient.rolledBack compilingDeps cacheModuleOps)
        (.snapshot :: cacheModuleOps) =
      ((client compilingDeps).outs moduleClient (.snapshot :: cacheModuleOps)).map
        (Observed.after (1 + cacheModuleOps.countP EnvOp.takes)) :=
  replay_after_rollback (fun _ _ _ => rfl) (compilingDeps_hashesCode {[7]})
    (moduleClient_sound _) (by decide)
    ⟨trivial, trivial, (moduleCall_addressed ∅ rfl).among, trivial⟩
    ⟨trivial, trivial, moduleCall_addressed ∅ rfl, trivial⟩

end LiteSoroban

import LiteSoroban.Env.HostContract
import LiteSoroban.Env.Simulate
import LiteSoroban.Lib.Machine

/-!
# An environment and its client

The machine of `SorobanEnv`: a client calls its methods one at a time, and
holds the ids of the snapshots it has taken.  It restores with an id it was
answered, named by the call that answered it, and never with a number it made
up, so that a run means the same wherever its snapshots end up in the list.

Beside its answer, a step shows what the client could read afterwards, and
what the host was called with.

`client_sound` is what every run keeps: the client holds snapshots that are
there, and every module of the cache is some code that compiled, one of those
the calls of the run have found.
`client_keyed` is what every run keeps under a host that returns entries under
their own keys: the store and every snapshot are keyed by their entries.
-/

namespace LiteSoroban

open Effect

/-! ## What the host sees of the module cache -/

/-- The read-write keys the call restores. -/
def HostInput.restored (input : HostInput) : List LedgerKey :=
  input.restoredRwEntryIndices.filterMap (fun i => input.resources.footprint.readWrite[i]?)

/-- The code under a hash is handed over, and is live or restored by the call. -/
def HostInput.usesCode (input : HostInput) (hash : Hash) : Bool :=
  input.handed.any fun (key, value, ttl) =>
    key = .contractCode hash && value.isSome &&
      (key ∈ input.restored || ttl.any (input.ledgerInfo.sequenceNumber ≤ ·.liveUntilLedger))

/-- The input with its module cache cut down to the code the call can use. -/
def HostInput.seen (input : HostInput) : HostInput :=
  { input with moduleCache := input.moduleCache.filter (input.usesCode ·) }

/-! ## The machine -/

/-- The setters of the network's configuration. -/
inductive NetworkSetting where
  | enforceDeclaredResources (on : Bool)
  | enforceDeclaredBytes (on : Bool)
  | costParams (cpuParams memParams : ContractCostParams)
  | archivalSettings (minTempEntryTtl minPersistentEntryTtl maxEntryTtl : Nat)
  | networkId (id : Bytes)
  | feeSettings (settings : Fees.NetworkFeeSettings)

def SorobanEnv.configure (env : SorobanEnv) : NetworkSetting → Except JsError SorobanEnv
  | .enforceDeclaredResources on => .ok { env with enforceDeclaredResources := on }
  | .enforceDeclaredBytes on => .ok { env with enforceDeclaredBytes := on }
  | .costParams cpuParams memParams => .ok (env.setCostParams cpuParams memParams)
  | .archivalSettings minTemp minPersistent max =>
    env.setArchivalSettings minTemp minPersistent max
  | .networkId id => env.setNetworkId id
  | .feeSettings settings => .ok (env.setFeeSettings settings)

inductive EnvOp where
  | send (args : SendArgs)
  | simulate (args : SimulateArgs)
  | putEntry (entry : LedgerEntry) (liveUntil : Option Nat)
  | removeEntry (key : LedgerKey)
  | fundAccount (seed : UInt8)
  | seedWasm (code : Bytes)
  | advanceLedgers (n : Nat)
  | setTimestamp (t : Nat)
  | resetPrng
  | snapshot
  /-- Restore with the id at a place among those held. -/
  | restore (place : Nat)
  | configure (setting : NetworkSetting)

def EnvOp.configures : EnvOp → Bool
  | .configure _ => true
  | _ => false

def EnvOp.takes : EnvOp → Bool
  | .snapshot => true
  | _ => false

inductive EnvAnswer where
  | sent (result : SendResult)
  | simulated (result : SimulateResult)
  | removed (there : Bool)
  | funded (id : AccountId)
  | seeded (hash : Hash)
  | taken (id : Nat)
  | done
  | threw (e : JsError)

/-- An environment, and the ids of the snapshots the client holds. -/
structure Client where
  env : SorobanEnv
  held : List Nat

namespace Client

/-- The client after a call that may throw with something written. -/
def called {α : Type} (c : Client) (answer : α → EnvAnswer) :
    EStateM.Result JsError SorobanEnv α → EnvAnswer × Client
  | .ok a env => (answer a, { c with env := env })
  | .error e env => (.threw e, { c with env := env })

/-- The client after a call that throws before it writes. -/
def tried {α : Type} (c : Client) (answer : α → EnvAnswer) :
    Except JsError (α × SorobanEnv) → EnvAnswer × Client
  | .ok (a, env) => (answer a, { c with env := env })
  | .error e => (.threw e, c)

/-- One call. -/
def perform (d : Deps) (c : Client) : EnvOp → EnvAnswer × Client
  | .send args => c.called .sent (c.env.send d args)
  | .simulate args => c.called .simulated (c.env.simulate d args)
  | .putEntry entry liveUntil =>
    c.tried (fun _ : Unit => .done) ((c.env.putEntry entry liveUntil).map ((), ·))
  | .removeEntry key => c.tried .removed (.ok (c.env.removeEntry key))
  | .fundAccount seed => c.tried .funded (c.env.fundAccount d seed)
  | .seedWasm code => c.tried .seeded (c.env.seedWasm d code)
  | .advanceLedgers n => (.done, { c with env := c.env.advanceLedgers n })
  | .setTimestamp t => (.done, { c with env := c.env.setTimestamp t })
  | .resetPrng => (.done, { c with env := c.env.resetPrng })
  | .snapshot =>
    let (id, env) := c.env.snapshot
    (.taken id, ⟨env, c.held ++ [id]⟩)
  | .restore place =>
    match c.held[place]? with
    | none => (.threw ⟨"no such snapshot"⟩, c)
    | some id => c.tried (fun _ : Unit => .done) ((c.env.restore id).map ((), ·))
  | .configure setting =>
    c.tried (fun _ : Unit => .done) ((c.env.configure setting).map ((), ·))

end Client

/-- What a step shows: its answer, the readable state after it, and what the
host was called with. -/
structure Observed where
  answer : EnvAnswer
  store : Store
  ledgerSeq : Nat
  timestamp : Nat
  prngCounter : Nat
  hostInput : Option HostInput
  recordingInput : Option RecordingInput

/-- What a call hands the enforcing host, as far as the host can see it. -/
def SorobanEnv.hostInput? (d : Deps) (env : SorobanEnv) : EnvOp → Option HostInput
  | .send args => (prepareSend d env args).toOption.map HostInput.seen
  | _ => none

/-- What a call hands the recording host. -/
def SorobanEnv.recordingInput? (d : Deps) (env : SorobanEnv) : EnvOp → Option RecordingInput
  | .simulate args => (env.simulationBudget d).toOption.map (recordingInput env args)
  | _ => none

/-- One step of a client. -/
def clientStep (d : Deps) (c : Client) (op : EnvOp) : Observed × Client :=
  let (answer, c') := c.perform d op
  ({ answer := answer
     store := c'.env.store
     ledgerSeq := c'.env.ledgerSeq
     timestamp := c'.env.timestamp
     prngCounter := c'.env.prngCounter
     hostInput := c.env.hostInput? d op
     recordingInput := c.env.recordingInput? d op }, c')

/-- The machine of a client. -/
def client (d : Deps) : Machine Client EnvOp Observed := ⟨clientStep d⟩

theorem client_next (d : Deps) (c : Client) (op : EnvOp) :
    (client d).next c op = (c.perform d op).2 := rfl

/-! ## The code a call finds -/

/-- What a key of the footprint adds to the live and to the restored code. -/
def SorobanEnv.codeOf (env : SorobanEnv) (args : SendArgs) (key : LedgerKey) :
    List (Hash × LedgerEntry) × List Hash :=
  match key, env.store.lookup key with
  | .contractCode hash, some e =>
    if key ∈ args.restored then ([], [hash])
    else if env.expired e.liveUntil then ([], [])
    else ([(hash, e.entry)], [])
  | _, _ => ([], [])

/-- One turn of the loop over the footprint adds the code of its key. -/
theorem loadKey_code {d : Deps} {env : SorobanEnv} {args : SendArgs} {budget : Budget}
    {acc acc' : Loaded} {key : LedgerKey} (h : loadKey d env args budget acc key = .ok acc') :
    acc'.liveCode = acc.liveCode ++ (env.codeOf args key).1 ∧
      acc'.restoredCode = acc.restoredCode ++ (env.codeOf args key).2 := by
  simp only [loadKey] at h
  simp only [SorobanEnv.codeOf]
  cases hlookup : env.store.lookup key with
  | none =>
    simp only [hlookup] at h
    cases h
    simp [Loaded.push]
  | some e =>
    simp only [hlookup] at h
    split at h
    · next hexpired =>
      cases h
      cases key with
      | contractCode hash => simp [isTemporary] at hexpired
      | account => simp [Loaded.push]
      | trustline => simp [Loaded.push]
      | contractData => simp [Loaded.push]
      | unsupported => simp [Loaded.push]
    · simp only [Except.bind_eq_ok] at h
      obtain ⟨_, -, read, -, ttl, -, h⟩ := h
      cases h
      cases key with
      | contractCode hash =>
        simp only [Loaded.noteCode, Loaded.push]
        split
        · simp
        · split <;> simp
      | account => simp [Loaded.push, Loaded.noteCode]
      | trustline => simp [Loaded.push, Loaded.noteCode]
      | contractData => simp [Loaded.push, Loaded.noteCode]
      | unsupported => simp [Loaded.push, Loaded.noteCode]

/-- The loop gathers the code of the footprint's keys, in order. -/
theorem loadFootprint_code {d : Deps} {env : SorobanEnv} {args : SendArgs} {budget : Budget}
    {loaded : Loaded} (h : loadFootprint d env args budget = .ok loaded) :
    loaded.liveCode = args.resources.footprint.keys.flatMap (fun k => (env.codeOf args k).1) ∧
      loaded.restoredCode =
        args.resources.footprint.keys.flatMap (fun k => (env.codeOf args k).2) := by
  have hloop : ∀ (keys : List LedgerKey) (acc : Loaded),
      keys.foldlM (loadKey d env args budget) acc = .ok loaded →
      loaded.liveCode = acc.liveCode ++ keys.flatMap (fun k => (env.codeOf args k).1) ∧
        loaded.restoredCode = acc.restoredCode ++ keys.flatMap
          (fun k => (env.codeOf args k).2) := by
    intro keys
    induction keys with
    | nil =>
      intro acc hacc
      cases hacc
      simp
    | cons key keys ih =>
      intro acc hacc
      rw [List.foldlM_cons, Except.bind_eq_ok] at hacc
      obtain ⟨acc', hkey, hrest⟩ := hacc
      obtain ⟨hlive, hrestored⟩ := loadKey_code hkey
      obtain ⟨hlives, hrestoreds⟩ := ih acc' hrest
      rw [hlives, hrestoreds, hlive, hrestored, List.flatMap_cons, List.flatMap_cons,
        List.append_assoc, List.append_assoc]
      exact ⟨rfl, rfl⟩
  exact hloop _ Loaded.empty h

/-- The call names the code under a hash, does not restore it, and finds it
live. -/
structure FindsCode (env : SorobanEnv) (args : SendArgs) (hash : Hash) (e : EntryWithLiveUntil) :
    Prop where
  named : .contractCode hash ∈ args.resources.footprint.keys
  kept : .contractCode hash ∉ args.restored
  stored : env.store.lookup (.contractCode hash) = some e
  live : env.expired e.liveUntil = false

/-- The live code is what the call finds. -/
theorem mem_liveCode {d : Deps} {env : SorobanEnv} {args : SendArgs} {budget : Budget}
    {loaded : Loaded} (h : loadFootprint d env args budget = .ok loaded) {hash : Hash}
    {entry : LedgerEntry} (hmem : (hash, entry) ∈ loaded.liveCode) :
    ∃ e, FindsCode env args hash e ∧ e.entry = entry := by
  rw [(loadFootprint_code h).1, List.mem_flatMap] at hmem
  obtain ⟨key, hkey, hfound⟩ := hmem
  simp only [SorobanEnv.codeOf] at hfound
  split at hfound
  · next found e hlookup =>
    split at hfound
    · cases hfound
    · next hkept =>
      split at hfound
      · cases hfound
      · next hlive =>
        cases List.mem_singleton.mp hfound
        exact ⟨e, ⟨hkey, hkept, hlookup, Bool.eq_false_iff.mpr hlive⟩, rfl⟩
  · cases hfound

/-- The live code a call finds is one of these codes. -/
def CodeAmong (codes : Set Bytes) (env : SorobanEnv) (args : SendArgs) : Prop :=
  ∀ hash e code, FindsCode env args hash e → e.entry.data = .contractCode code → code.code ∈ codes

/-! ## What every run keeps -/

/-- Every module of the cache is one of these codes, compiled. -/
def SorobanEnv.CacheParsed (d : Deps) (codes : Set Bytes) (env : SorobanEnv) : Prop :=
  ∀ hash ∈ env.moduleCache.getD ∅,
    ∃ code ∈ codes, d.parseModule env.protocolVersion code = some hash

/-- A client that holds snapshots that are there, over a cache of parsed
modules. -/
structure Client.Sound (d : Deps) (codes : Set Bytes) (c : Client) : Prop where
  held : ∀ id ∈ c.held, id < c.env.snapshots.length
  cache : c.env.CacheParsed d codes

/-- Filing a module files what the code compiles to. -/
theorem mem_cacheModule {d : Deps} {protocolVersion : Nat} {cache : ModuleCache}
    {live : Hash × LedgerEntry} {hash : Hash}
    (h : hash ∈ cacheModule d protocolVersion cache live) :
    hash ∈ cache ∨ ∃ code, live.2.data = .contractCode code ∧
      d.parseModule protocolVersion code.code = some hash := by
  simp only [cacheModule] at h
  split at h
  · exact .inl h
  · split at h
    · next code hdata =>
      cases hparse : d.parseModule protocolVersion code.code with
      | none =>
        simp only [hparse] at h
        exact .inl h
      | some filed =>
        simp only [hparse, Finset.mem_insert] at h
        rcases h with rfl | h
        · exact .inr ⟨code, hdata, hparse⟩
        · exact .inl h
    · exact .inl h

theorem mem_foldl_cacheModule {d : Deps} {protocolVersion : Nat}
    {liveCode : List (Hash × LedgerEntry)} {cache : ModuleCache} {hash : Hash}
    (h : hash ∈ liveCode.foldl (cacheModule d protocolVersion) cache) :
    hash ∈ cache ∨ ∃ live ∈ liveCode, ∃ code, live.2.data = .contractCode code ∧
      d.parseModule protocolVersion code.code = some hash := by
  induction liveCode generalizing cache with
  | nil => exact .inl h
  | cons live liveCode ih =>
    rcases ih h with hmem | ⟨later, hlater, hparsed⟩
    · rcases mem_cacheModule hmem with hmem | hparsed
      · exact .inl hmem
      · exact .inr ⟨live, List.mem_cons_self, hparsed⟩
    · exact .inr ⟨later, List.mem_cons_of_mem live hlater, hparsed⟩

/-- Taking the restored code out takes out that code and no other. -/
theorem mem_foldl_erase {restoredCode : List Hash} {cache : ModuleCache} {hash : Hash} :
    hash ∈ restoredCode.foldl Finset.erase cache ↔ hash ∉ restoredCode ∧ hash ∈ cache := by
  induction restoredCode generalizing cache with
  | nil => simp
  | cons restored restoredCode ih =>
    rw [List.foldl_cons, ih, Finset.mem_erase, List.mem_cons, not_or]
    tauto

/-- The cache of a call is parsed when the one kept from earlier calls is. -/
theorem SorobanEnv.CacheParsed.prepared {d : Deps} {codes : Set Bytes} {env : SorobanEnv}
    (h : env.CacheParsed d codes) {args : SendArgs} (hcode : CodeAmong codes env args)
    {budget : Budget} {loaded : Loaded} (hloaded : loadFootprint d env args budget = .ok loaded)
    {hash : Hash} (hhash : hash ∈ env.prepareModuleCache d loaded.liveCode loaded.restoredCode) :
    ∃ code ∈ codes, d.parseModule env.protocolVersion code = some hash := by
  rcases mem_foldl_cacheModule (mem_foldl_erase.mp hhash).2 with
    hmem | ⟨⟨found, entry⟩, hlive, code, hdata, hparse⟩
  · exact h hash hmem
  · obtain ⟨e, hfinds, rfl⟩ := mem_liveCode hloaded hlive
    exact ⟨code.code, hcode found e code hfinds hdata, hparse⟩

/-- What follows the host's return writes the store and nothing else. -/
theorem settleCall_frame (d : Deps) (env : SorobanEnv) (args : SendArgs) (out : HostOutput) :
    ∃ store, finalState (settleCall d env args out) = { env with store := store } := by
  have hvalue : ∀ (result : SendResult) (env : SorobanEnv),
      finalState (result.toValue d env) = env := by
    intro result env
    simp only [SendResult.toValue]
    split <;> rfl
  simp only [settleCall]
  split
  · exact ⟨env.store, hvalue _ _⟩
  · split
    · exact ⟨env.store, hvalue _ _⟩
    · split
      · exact ⟨env.store, hvalue _ _⟩
      · split
        · exact ⟨_, rfl⟩
        · exact ⟨_, hvalue _ _⟩

/-- A call keeps the cache parsed. -/
theorem send_cacheParsed {d : Deps} {codes : Set Bytes} {env : SorobanEnv}
    (h : env.CacheParsed d codes) {args : SendArgs} (hcode : CodeAmong codes env args) :
    (finalState (env.send d args)).CacheParsed d codes := by
  simp only [SorobanEnv.send]
  cases hprep : prepareSend d env args with
  | error stop =>
    cases stop with
    | thrown e => exact h
    | failed message =>
      simp only [SendResult.toValue]
      split <;> exact h
  | ok input =>
    obtain ⟨loaded, hprepared⟩ := prepareSend_ok hprep
    obtain ⟨store, hframe⟩ := settleCall_frame d { env with moduleCache := some input.moduleCache }
      args (d.invokeHostFunction input)
    simp only [hframe]
    intro hash hhash
    rw [hprepared.input_eq] at hhash
    exact h.prepared hcode hprepared.footprint hhash

/-- The live code a call finds is one of these codes.  Nothing is asked of the
other operations. -/
def EnvOp.CodeAmong (codes : Set Bytes) (c : Client) : EnvOp → Prop
  | .send args => LiteSoroban.CodeAmong codes c.env args
  | _ => True

/-- A call keeps the snapshots. -/
theorem send_snapshots (d : Deps) (env : SorobanEnv) (args : SendArgs) :
    (finalState (env.send d args)).snapshots = env.snapshots := by
  rcases send_frame d args env with ⟨cache, hframe⟩ | ⟨_, _, _, _, _, hframe⟩
  · rw [hframe]
  · rw [hframe]

/-- `env'` is `env` with another ledger state. -/
def SorobanEnv.Writes (env env' : SorobanEnv) : Prop :=
  ∃ store ledgerSeq timestamp prngCounter, env' = { env with
    store := store
    ledgerSeq := ledgerSeq
    timestamp := timestamp
    prngCounter := prngCounter }

/-- A setter keeps the store, the snapshots, the cache and the protocol. -/
theorem configure_frame {env env' : SorobanEnv} {setting : NetworkSetting}
    (h : env.configure setting = .ok env') :
    env'.store = env.store ∧ env'.snapshots = env.snapshots ∧
      env'.moduleCache = env.moduleCache ∧ env'.protocolVersion = env.protocolVersion := by
  cases setting with
  | enforceDeclaredResources on =>
    cases h
    exact ⟨rfl, rfl, rfl, rfl⟩
  | enforceDeclaredBytes on =>
    cases h
    exact ⟨rfl, rfl, rfl, rfl⟩
  | costParams cpuParams memParams =>
    cases h
    exact ⟨rfl, rfl, rfl, rfl⟩
  | archivalSettings minTemp minPersistent max =>
    simp only [SorobanEnv.configure, SorobanEnv.setArchivalSettings] at h
    split at h
    · cases h
    · cases h
      exact ⟨rfl, rfl, rfl, rfl⟩
  | networkId id =>
    simp only [SorobanEnv.configure, SorobanEnv.setNetworkId] at h
    split at h
    · cases h
    · cases h
      exact ⟨rfl, rfl, rfl, rfl⟩
  | feeSettings settings =>
    cases h
    exact ⟨rfl, rfl, rfl, rfl⟩

namespace Client

theorem called_snd {α : Type} (c : Client) (answer : α → EnvAnswer)
    (result : EStateM.Result JsError SorobanEnv α) :
    (c.called answer result).2 = { c with env := finalState result } := by
  cases result <;> rfl

/-- Every call but `send`, `snapshot` and the setters writes the ledger state
and nothing else. -/
theorem perform_cases (d : Deps) (c : Client) (op : EnvOp) :
    (∃ args, op = .send args ∧
      (c.perform d op).2 = { c with env := finalState (c.env.send d args) }) ∨
    (op = .snapshot ∧
      (c.perform d op).2 = ⟨c.env.snapshot.2, c.held ++ [c.env.snapshots.length]⟩) ∨
    (∃ setting env, op = .configure setting ∧ c.env.configure setting = .ok env ∧
      (c.perform d op).2 = { c with env := env }) ∨
    (∃ env, c.env.Writes env ∧ (c.perform d op).2 = { c with env := env }) := by
  have hsame : ∃ env, c.env.Writes env ∧ c = { c with env := env } :=
    ⟨c.env, ⟨_, _, _, _, rfl⟩, rfl⟩
  cases op with
  | send args => exact .inl ⟨args, rfl, c.called_snd _ _⟩
  | snapshot => exact .inr (.inl ⟨rfl, rfl⟩)
  | configure setting =>
    simp only [perform]
    cases hset : c.env.configure setting with
    | error e => exact .inr (.inr (.inr hsame))
    | ok env => exact .inr (.inr (.inl ⟨setting, env, rfl, hset, rfl⟩))
  | simulate args =>
    obtain ⟨prng, hframe⟩ := simulate_frame d c.env args
    refine .inr (.inr (.inr ⟨_, ⟨c.env.store, c.env.ledgerSeq, c.env.timestamp, prng, rfl⟩, ?_⟩))
    rw [← hframe]
    exact c.called_snd _ _
  | putEntry entry liveUntil =>
    simp only [perform, SorobanEnv.putEntry]
    cases keyOf entry with
    | error e => exact .inr (.inr (.inr hsame))
    | ok key => exact .inr (.inr (.inr ⟨_, ⟨_, _, _, _, rfl⟩, rfl⟩))
  | fundAccount seed =>
    simp only [perform, SorobanEnv.fundAccount]
    cases keyOf (d.accountEntry (d.getAccountId seed)) with
    | error e => exact .inr (.inr (.inr hsame))
    | ok key => exact .inr (.inr (.inr ⟨_, ⟨_, _, _, _, rfl⟩, rfl⟩))
  | seedWasm code =>
    simp only [perform, SorobanEnv.seedWasm]
    cases c.env.ledgerInfo.minLiveUntilLedgerChecked with
    | none => exact .inr (.inr (.inr hsame))
    | some ttl => exact .inr (.inr (.inr ⟨_, ⟨_, _, _, _, rfl⟩, rfl⟩))
  | restore place =>
    simp only [perform]
    cases c.held[place]? with
    | none => exact .inr (.inr (.inr hsame))
    | some id =>
      simp only [SorobanEnv.restore]
      cases c.env.snapshots[id]? with
      | none => exact .inr (.inr (.inr hsame))
      | some snap => exact .inr (.inr (.inr ⟨_, ⟨_, _, _, _, rfl⟩, rfl⟩))
  | removeEntry key => exact .inr (.inr (.inr ⟨_, ⟨_, _, _, _, rfl⟩, rfl⟩))
  | advanceLedgers n => exact .inr (.inr (.inr ⟨_, ⟨_, _, _, _, rfl⟩, rfl⟩))
  | setTimestamp t => exact .inr (.inr (.inr ⟨_, ⟨_, _, _, _, rfl⟩, rfl⟩))
  | resetPrng => exact .inr (.inr (.inr ⟨_, ⟨_, _, _, _, rfl⟩, rfl⟩))

/-- Every call keeps a client sound, as long as it finds code among these
codes. -/
theorem perform_sound {d : Deps} {codes : Set Bytes} {c : Client} (h : c.Sound d codes)
    {op : EnvOp} (hop : op.CodeAmong codes c) : (c.perform d op).2.Sound d codes := by
  rcases c.perform_cases d op with ⟨args, rfl, hnext⟩ | ⟨-, hnext⟩ | ⟨setting, env, -, hset, hnext⟩ |
    ⟨_, ⟨_, _, _, _, rfl⟩, hnext⟩
  · rw [hnext]
    refine ⟨fun id hid => ?_, send_cacheParsed h.cache hop⟩
    show id < (finalState (c.env.send d args)).snapshots.length
    rw [send_snapshots]
    exact h.held id hid
  · rw [hnext]
    refine ⟨fun id hid => ?_, h.cache⟩
    simp only [SorobanEnv.snapshot, List.length_append, List.length_singleton]
    rcases List.mem_append.mp hid with hold | hnew
    · exact (h.held id hold).trans (Nat.lt_succ_self _)
    · rw [List.mem_singleton.mp hnew]
      exact Nat.lt_succ_self _
  · obtain ⟨-, hsnapshots, hcache, hprotocol⟩ := configure_frame hset
    rw [hnext]
    refine ⟨fun id hid => ?_, fun hash hhash => ?_⟩
    · show id < env.snapshots.length
      rw [hsnapshots]
      exact h.held id hid
    · simp only [hcache] at hhash
      simp only [hprotocol]
      exact h.cache hash hhash
  · rw [hnext]
    exact ⟨h.held, h.cache⟩

end Client

/-- Every run whose calls find code among these codes keeps a client sound. -/
theorem Client.Sound.run {d : Deps} {codes : Set Bytes} {c : Client} (h : c.Sound d codes)
    {ops : List EnvOp} (hops : (client d).AllSteps (EnvOp.CodeAmong codes) c ops) :
    ((client d).run c ops).Sound d codes := by
  refine (client d).invariant_run (P := EnvOp.CodeAmong codes) (fun c op hc hop => ?_) h hops
  rw [client_next]
  exact c.perform_sound hc hop

/-- A client is sound on every run from a new environment whose calls find code
among these codes. -/
theorem client_sound {d : Deps} {codes : Set Bytes} {protocolVersion ledgerSeq : Nat}
    {ops : List EnvOp}
    (hops : (client d).AllSteps (EnvOp.CodeAmong codes) ⟨.new protocolVersion ledgerSeq, []⟩ ops) :
    ((client d).run ⟨.new protocolVersion ledgerSeq, []⟩ ops).Sound d codes := by
  refine Client.Sound.run ⟨by simp, fun hash hhash => ?_⟩ hops
  exact absurd hhash (Finset.notMem_empty hash)

/-! ## Keyed stores -/

/-- The code `seedWasm` writes goes under its own key. -/
def Deps.SeedsKeyed (d : Deps) : Prop :=
  ∀ code, keyOf (d.wasmEntry code) = .ok (.contractCode (d.getWasmHash code))

/-- The store and every snapshot are keyed by their entries. -/
structure Client.Keyed (c : Client) : Prop where
  store : c.env.store.Keyed
  snapshots : ∀ snap ∈ c.env.snapshots, snap.store.Keyed

theorem Client.Keyed.insert {c : Client} (h : c.Keyed) {key : LedgerKey}
    {e : EntryWithLiveUntil} (hkey : keyOf e.entry = .ok key) :
    Client.Keyed { c with env := { c.env with store := c.env.store.insert key e } } :=
  ⟨h.store.insert hkey, h.snapshots⟩

/-- Every call keeps the stores keyed. -/
theorem Client.perform_keyed {d : Deps} (hhost : d.ReturnsKeyed) (hseeds : d.SeedsKeyed)
    {c : Client} (h : c.Keyed) (op : EnvOp) : (c.perform d op).2.Keyed := by
  cases op with
  | send args =>
    simp only [perform, called_snd]
    refine ⟨send_keyed hhost h.store, fun snap hsnap => h.snapshots snap ?_⟩
    rw [← send_snapshots d c.env args]
    exact hsnap
  | simulate args =>
    simp only [perform, called_snd]
    obtain ⟨prng, hframe⟩ := simulate_frame d c.env args
    rw [hframe]
    exact ⟨h.store, h.snapshots⟩
  | putEntry entry liveUntil =>
    simp only [perform, SorobanEnv.putEntry]
    cases hkey : keyOf entry with
    | error e => exact h
    | ok key => exact h.insert hkey
  | removeEntry key => exact ⟨h.store.erase key, h.snapshots⟩
  | fundAccount seed =>
    simp only [perform, SorobanEnv.fundAccount]
    cases hkey : keyOf (d.accountEntry (d.getAccountId seed)) with
    | error e => exact h
    | ok key => exact h.insert hkey
  | seedWasm code =>
    simp only [perform, SorobanEnv.seedWasm]
    cases c.env.ledgerInfo.minLiveUntilLedgerChecked with
    | none => exact h
    | some ttl => exact h.insert (hseeds code)
  | snapshot =>
    refine ⟨h.store, fun snap hsnap => ?_⟩
    rcases List.mem_append.mp hsnap with hold | hnew
    · exact h.snapshots snap hold
    · rw [List.mem_singleton.mp hnew]
      exact h.store
  | restore place =>
    simp only [perform]
    cases c.held[place]? with
    | none => exact h
    | some id =>
      simp only [SorobanEnv.restore]
      cases hsnap : c.env.snapshots[id]? with
      | none => exact h
      | some snap => exact ⟨h.snapshots snap (List.mem_of_getElem? hsnap), h.snapshots⟩
  | configure setting =>
    simp only [perform]
    cases hset : c.env.configure setting with
    | error e => exact h
    | ok env =>
      obtain ⟨hstore, hsnapshots, -, -⟩ := configure_frame hset
      refine ⟨?_, fun snap hsnap => h.snapshots snap (hsnapshots ▸ hsnap)⟩
      show env.store.Keyed
      rw [hstore]
      exact h.store
  | advanceLedgers n => exact ⟨h.store, h.snapshots⟩
  | setTimestamp t => exact ⟨h.store, h.snapshots⟩
  | resetPrng => exact ⟨h.store, h.snapshots⟩

/-- The stores are keyed on every run from a new environment. -/
theorem client_keyed {d : Deps} (hhost : d.ReturnsKeyed) (hseeds : d.SeedsKeyed)
    (protocolVersion ledgerSeq : Nat) (ops : List EnvOp) :
    ((client d).run ⟨.new protocolVersion ledgerSeq, []⟩ ops).Keyed := by
  refine (client d).invariant_run (P := fun _ _ => True) (fun c op hc _ => ?_)
    ⟨Store.Keyed.empty, by simp [SorobanEnv.new]⟩
    ((client d).allSteps_of_forall (fun _ _ => trivial) _ _)
  rw [client_next]
  exact c.perform_keyed hhost hseeds hc op

end LiteSoroban

import LiteSoroban.Classic.DiskReads
import LiteSoroban.Lib.Memo
import LiteSoroban.LiteStellar.Replay

/-!
# Caches

The environment keeps two caches.  A simulation keeps the accounts it has
promoted, for the reads after.  The environment keeps the modules it has
parsed, for the calls after, across rollbacks, removals and changes of the
network's settings.

Neither shows.  `simulationSnapshot_gets` says it of the first: whatever the
host reads in whatever order, it reads the promoted store.
`client_forgetting` says it of the second: a client that throws the module
cache away whenever it likes is shown at every step what it would have been
shown otherwise, as long as code is stored under its hash at the start and by
every step.
-/

namespace LiteSoroban

open Effect

/-! ## The accounts a simulation has promoted -/

/-- `SimulationSnapshot` as the source has it: the store, and the accounts
promoted so far. -/
structure SimulationSnapshot where
  inner : Store
  updated : Finmap fun _ : LedgerKey => Option EntryWithLiveUntil

/-- `SimulationSnapshot::get`. -/
def SimulationSnapshot.get (snapshot : SimulationSnapshot) (key : LedgerKey) :
    Option EntryWithLiveUntil × SimulationSnapshot :=
  match snapshot.updated.lookup key with
  | some e => (e, snapshot)
  | none =>
    match snapshot.inner.lookup key with
    | none => (none, snapshot)
    | some e =>
      match e.entry.data with
      | .account acc =>
        let v : Option EntryWithLiveUntil :=
          some ⟨{ e.entry with data := .account (updateAccountEntry acc) }, e.liveUntil⟩
        (v, { snapshot with updated := snapshot.updated.insert key v })
      | _ => (some e, snapshot)

/-- The host reading one key after another. -/
def simulationReads : Machine SimulationSnapshot LedgerKey (Option EntryWithLiveUntil) :=
  ⟨SimulationSnapshot.get⟩

/-- The answers a simulation keeps: the accounts. -/
def isPromoted (e : Option EntryWithLiveUntil) : Bool :=
  e.any fun e => match e.entry.data with
    | .account _ => true
    | _ => false

/-- A read is a question to the memo of the promoted store. -/
theorem SimulationSnapshot.get_eq (env : SorobanEnv)
    (updated : Finmap fun _ : LedgerKey => Option EntryWithLiveUntil) (key : LedgerKey) :
    SimulationSnapshot.get ⟨env.store, updated⟩ key =
      ((Machine.consult env.simulationSnapshot isPromoted updated key).1,
        ⟨env.store, (Machine.consult env.simulationSnapshot isPromoted updated key).2⟩) := by
  unfold SimulationSnapshot.get Machine.consult SorobanEnv.simulationSnapshot
  cases updated.lookup key with
  | some e => rfl
  | none =>
    cases env.store.lookup key with
    | none => rfl
    | some e =>
      obtain ⟨⟨lastModified, data, ext⟩, liveUntil⟩ := e
      cases data <;> rfl

/-- Whatever the host reads in whatever order, it reads the promoted store. -/
theorem simulationSnapshot_gets (env : SorobanEnv) (keys : List LedgerKey) :
    simulationReads.outs ⟨env.store, ∅⟩ keys = keys.map env.simulationSnapshot := by
  have hreads : ∀ updated, simulationReads.outs ⟨env.store, updated⟩ keys =
      (Machine.memo env.simulationSnapshot isPromoted).outs updated keys := by
    intro updated
    refine Machine.lockstep_outs _ _
      (R := fun (s : SimulationSnapshot) kept => s = ⟨env.store, kept⟩) (P := fun _ _ => True)
      ?_ ?_ rfl (Machine.allSteps_of_forall _ (fun _ _ => trivial) _ _)
    · rintro _ kept key rfl -
      exact congrArg Prod.snd (SimulationSnapshot.get_eq env kept key)
    · rintro _ kept key rfl -
      exact congrArg Prod.fst (SimulationSnapshot.get_eq env kept key)
  rw [hreads]
  exact Machine.memo_outs _ Machine.Coherent.empty keys

/-! ## The modules the environment has parsed -/

/-- The store and every snapshot have their code under its hash. -/
structure Client.CodeHashed (d : Deps) (codes : Set Bytes) (c : Client) : Prop where
  store : c.env.store.CodeHashed d codes
  snapshots : ∀ snap ∈ c.env.snapshots, Store.CodeHashed d codes snap.store

/-- What the operation writes as code is one of these codes, under its hash:
what the host returns for a call, an entry that is put, code that is seeded. -/
def EnvOp.PutsCode (d : Deps) (codes : Set Bytes) (c : Client) : EnvOp → Prop
  | .send args => ∀ input, prepareSend d c.env args = .ok input →
      ∀ ch, d.Returns input ch → ch.WritesCode d codes
  | .putEntry entry liveUntil => ∀ key, keyOf entry = .ok key →
      EntryWithLiveUntil.CodeHashed d codes key ⟨entry, liveUntil⟩
  | .seedWasm code => code ∈ codes
  | _ => True

theorem Client.CodeHashed.insert {d : Deps} {codes : Set Bytes} {c : Client}
    (h : c.CodeHashed d codes) {key : LedgerKey} {e : EntryWithLiveUntil}
    (he : e.CodeHashed d codes key) :
    Client.CodeHashed d codes { c with env := { c.env with store := c.env.store.insert key e } } :=
  ⟨h.store.insert he, h.snapshots⟩

/-- Every call that puts code under its hash keeps it there. -/
theorem Client.perform_codeHashed {d : Deps} {codes : Set Bytes} (hcodes : d.SeedsCode codes)
    (hseeds : d.SeedsEntries) {c : Client} (h : c.CodeHashed d codes) {op : EnvOp}
    (hop : op.PutsCode d codes c) : (c.perform d op).2.CodeHashed d codes := by
  cases op with
  | send args =>
    simp only [perform, called_snd]
    refine ⟨send_codeHashed_of hop h.store, fun snap hsnap => h.snapshots snap ?_⟩
    rw [← send_snapshots d c.env args]
    exact hsnap
  | simulate args =>
    simp only [perform, called_snd]
    obtain ⟨prng, hframe⟩ := simulate_frame d c.env args
    rw [hframe]
    exact ⟨h.store, h.snapshots⟩
  | putEntry entry liveUntil =>
    simp only [perform, SorobanEnv.putEntry]
    cases hkey : keyOf entry with
    | error e => exact h
    | ok key => exact h.insert fun hash heq => hop key hkey hash heq
  | removeEntry key =>
    exact ⟨Store.forall_erase (P := fun key e => e.CodeHashed d codes key) h.store key,
      h.snapshots⟩
  | fundAccount seed =>
    obtain ⟨account, haccount⟩ := hseeds.account (d.getAccountId seed)
    have hkey : keyOf (d.accountEntry (d.getAccountId seed)) =
        .ok (.account account.accountId) := by
      simp only [keyOf, haccount]
    simp only [perform, SorobanEnv.fundAccount, hkey]
    exact h.insert fun hash heq => by cases heq
  | seedWasm code =>
    simp only [perform, SorobanEnv.seedWasm]
    cases c.env.ledgerInfo.minLiveUntilLedgerChecked with
    | none => exact h
    | some ttl =>
      refine h.insert fun hash heq => ?_
      cases heq
      exact hcodes code hop
  | snapshot =>
    refine ⟨h.store, fun snap hsnap => ?_⟩
    rcases List.mem_append.mp hsnap with hold | hnew
    · exact h.snapshots snap hold
    · rw [List.mem_singleton.mp hnew]
      exact h.store
  | restore place =>
    simp only [perform]
    cases c.held[place]? with
    | none => exact h
    | some id =>
      simp only [SorobanEnv.restore]
      cases hsnap : c.env.snapshots[id]? with
      | none => exact h
      | some snap => exact ⟨h.snapshots snap (List.mem_of_getElem? hsnap), h.snapshots⟩
  | configure setting =>
    simp only [perform]
    cases hset : c.env.configure setting with
    | error e => exact h
    | ok env =>
      obtain ⟨hstore, hsnapshots, -, -⟩ := configure_frame hset
      refine ⟨?_, fun snap hsnap => h.snapshots snap (hsnapshots ▸ hsnap)⟩
      show env.store.CodeHashed d codes
      rw [hstore]
      exact h.store
  | advanceLedgers n => exact ⟨h.store, h.snapshots⟩
  | setTimestamp t => exact ⟨h.store, h.snapshots⟩
  | resetPrng => exact ⟨h.store, h.snapshots⟩

/-- The client without its module cache. -/
def Client.dropModules (c : Client) : Client := { c with env := { c.env with moduleCache := none } }

theorem Alike.refl {d : Deps} {codes : Set Bytes} {c : Client} (h : c.Sound d codes) :
    Alike d codes 0 c c :=
  ⟨h, h, rfl, rfl, rfl⟩

theorem Alike.dropModules {d : Deps} {codes : Set Bytes} {since : Nat} {c c' : Client}
    (h : Alike d codes since c c') : Alike d codes since c c'.dropModules := by
  obtain ⟨hleft, hright, henv, hheld, hlater⟩ := h
  refine ⟨hleft, ⟨hright.held, fun hash hhash => ?_⟩, ?_, hheld, hlater⟩
  · exact absurd hhash (Finset.notMem_empty hash)
  · unfold Client.dropModules
    rw [henv]
    rfl

/-- No more snapshots, no other ids. -/
theorem Observed.after_zero (shown : Observed) : shown.after 0 = shown := by
  unfold Observed.after
  cases shown with
  | mk answer => cases answer <;> rfl

/-- Along a run that puts code under its hash, every call finds it there. -/
theorem Client.CodeHashed.allSteps {d : Deps} {codes : Set Bytes} (hcodes : d.SeedsCode codes)
    (hseeds : d.SeedsEntries) {c : Client} (h : c.CodeHashed d codes) {ops : List EnvOp}
    (hops : (client d).AllSteps (EnvOp.PutsCode d codes) c ops) :
    (client d).AllSteps (EnvOp.CodeAddressed d codes) c ops := by
  refine @Machine.AllSteps.of_invariant _ _ _ (client d) (fun c => c.CodeHashed d codes)
    (EnvOp.PutsCode d codes) _
    (fun c op hc hop => c.perform_codeHashed hcodes hseeds hc hop) (fun c op hc _ => ?_) _ _ h hops
  cases op with
  | send args => exact hc.store.addressed args
  | _ => trivial

/-- A client that throws the module cache away whenever it likes is shown at
every step what it would have been shown otherwise, as long as code is under
its hash at the start and is put there by every step. -/
theorem client_forgetting {d : Deps} {codes : Set Bytes} (hreads : d.ReadsUsedCode)
    (hhash : d.HashesCode codes) (hcodes : d.SeedsCode codes) (hseeds : d.SeedsEntries)
    {c : Client} (hc : c.Sound d codes) (hcode : c.CodeHashed d codes) {ops : List (Bool × EnvOp)}
    (hops : (client d).AllSteps (EnvOp.PutsCode d codes) c (ops.map Prod.snd)) :
    ((client d).forgetting Client.dropModules).outs c ops =
      (client d).outs c (ops.map Prod.snd) := by
  refine (client d).outs_forgetting Client.dropModules (R := Alike d codes 0)
    (P := EnvOp.CodeAddressed d codes)
    (fun _ _ halike => halike.dropModules)
    (fun _ _ _ halike hop => (halike.step hreads hhash hop).2)
    (fun _ _ _ halike hop => ?_)
    (Alike.refl hc) (hcode.allSteps hcodes hseeds hops)
  rw [(halike.step hreads hhash hop).1, Observed.after_zero]

/-- A module seeded, called, called again without the cache, and the same after
a rollback. -/
def forgettingOps : List (Bool × EnvOp) :=
  [(false, .snapshot), (false, .seedWasm [7]), (false, .send moduleCall), (true, .send moduleCall),
    (false, .restore 0), (false, .seedWasm [7]), (true, .send moduleCall)]

theorem client_forgetting_module :
    ((client compilingDeps).forgetting Client.dropModules).outs moduleClient forgettingOps =
      (client compilingDeps).outs moduleClient (forgettingOps.map Prod.snd) := by
  have hcall : ∀ c, EnvOp.PutsCode compilingDeps {[7]} c (.send moduleCall) := by
    rintro c input hprep ch ⟨res, hres, hmem⟩
    cases hres
  refine client_forgetting (fun _ _ _ => rfl) (compilingDeps_hashesCode {[7]})
    (fun wasm hwasm => ⟨_, rfl, hwasm, rfl⟩) ⟨fun _ => ⟨_, rfl⟩, fun _ => rfl⟩
    (moduleClient_sound _) ⟨fun key e h => ?_, fun snap hsnap => ?_⟩
    ⟨trivial, rfl, hcall _, hcall _, trivial, rfl, hcall _, trivial⟩
  · cases (Finmap.lookup_empty key).symm.trans h
  · cases hsnap

end LiteSoroban

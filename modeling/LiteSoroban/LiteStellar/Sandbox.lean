import LiteSoroban.Classic.Atomicity
import LiteSoroban.Classic.Frame
import LiteSoroban.Ledger.Machine

/-!
# Sandboxes

`sandboxed` of `src/litestellar.ts` takes a snapshot, runs a body, and restores
the snapshot in a `finally`.

A body is any program over the ledger.  It may nest sandboxes and throw
anywhere, and it may be async: then the call of the body returns a promise at
the first `await`, the `finally` restores, and the rest of the body runs on
the restored ledger, after the rollback.

`Body.exec` runs a body up to that point and hands back what it has left for
later.  `tasks` is the machine that resumes what was left, in any order.
-/

namespace LiteSoroban

open Effect

/-! ## Settings -/

/-- The setters of `Ledger`. -/
inductive LedgerSetting where
  | feeSettings (settings : NetworkFeeSettings)
  | costParams (cpuParams memParams : ContractCostParams) (cpuLimit : Option Int)
      (memLimit : Option Nat)
  | archivalSettings (minTemporaryTtl minPersistentTtl maxEntryTtl : Nat)
  | enforceDeclaredResources (on : Bool)
  | enforceDeclaredBytes (on : Bool)

namespace Ledger

/-- `setFeeSettings`: the environment's, and the copy of the classic layer. -/
def setFeeSettings (ledger : Ledger) (settings : NetworkFeeSettings) : Ledger :=
  { ledger with
    env := ledger.env.setFeeSettings settings.toNetworkFeeSettings
    fees := settings }

/-- The fee settings with the limits `setCostParams` was given. -/
def limitedFees (ledger : Ledger) (cpuLimit : Option Int) (memLimit : Option Nat) :
    NetworkFeeSettings :=
  { ledger.fees with
    txMaxInstructions := cpuLimit.getD ledger.fees.txMaxInstructions
    txMemoryLimit := memLimit.getD ledger.fees.txMemoryLimit }

/-- `setCostParams`. -/
def setCostParams (ledger : Ledger) (cpuParams memParams : ContractCostParams)
    (cpuLimit : Option Int) (memLimit : Option Nat) : Ledger :=
  let priced := { ledger with env := ledger.env.setCostParams cpuParams memParams }
  if cpuLimit.isSome || memLimit.isSome then
    priced.setFeeSettings (ledger.limitedFees cpuLimit memLimit)
  else priced

/-- One setter. -/
def configure (setting : LedgerSetting) : LedgerM Unit :=
  match setting with
  | .feeSettings settings => modify (·.setFeeSettings settings)
  | .costParams cpuParams memParams cpuLimit memLimit =>
    modify (·.setCostParams cpuParams memParams cpuLimit memLimit)
  | .archivalSettings minTemporaryTtl minPersistentTtl maxEntryTtl =>
    call fun env =>
      (env.setArchivalSettings minTemporaryTtl minPersistentTtl maxEntryTtl).map ((), ·)
  | .enforceDeclaredResources on =>
    modify fun ledger => { ledger with env := { ledger.env with enforceDeclaredResources := on } }
  | .enforceDeclaredBytes on =>
    modify fun ledger => { ledger with env := { ledger.env with enforceDeclaredBytes := on } }

end Ledger

/-! ## Bodies -/

/-- How the call of a body ends: with a value, with an exception, or with a
promise. -/
inductive Exit where
  | returned
  | threw (e : JsError)
  | promised

/-- A body.  What it does next may depend on all it has seen, and it may catch
what its calls throw. -/
inductive Body where
  | done
  | throw (e : JsError)
  /-- Read the ledger. -/
  | look (next : Ledger → Body)
  | call (op : LedgerOp) (next : Except JsError LedgerAnswer → Body)
  | configure (setting : LedgerSetting) (next : Except JsError Unit → Body)
  | sandboxed (body : Body) (next : Exit → Body)
  /-- Leave the rest for later, and return a promise. -/
  | await (rest : Body)

/-- What a call leaves: how it ended, the ledger, and the bodies that still
have something to do. -/
structure Ran where
  exit : Exit
  ledger : Ledger
  pending : List Body

/-- `sandboxed`, around the call of a body. -/
def bracket (body : Ledger → Ran) (ledger : Ledger) : Ran :=
  match ledger.snapshot with
  | .error e left => ⟨.threw e, left, []⟩
  | .ok snap taken =>
    let ran := body taken
    match Ledger.restore snap ran.ledger with
    | .ok () restored => { ran with ledger := restored }
    | .error e left => { ran with exit := .threw e, ledger := left }

/-- Run a body up to where it returns, throws or awaits. -/
def Body.exec (d : Deps) : Body → Ledger → Ran
  | .done, ledger => ⟨.returned, ledger, []⟩
  | .throw e, ledger => ⟨.threw e, ledger, []⟩
  | .look next, ledger => (next ledger).exec d ledger
  | .call op next, ledger =>
    (next (answer (op.perform d ledger))).exec d (finalState (op.perform d ledger))
  | .configure setting next, ledger =>
    (next (answer (Ledger.configure setting ledger))).exec d
      (finalState (Ledger.configure setting ledger))
  | .sandboxed body next, ledger =>
    let ran := bracket (body.exec d) ledger
    let after := (next ran.exit).exec d ran.ledger
    { after with pending := ran.pending ++ after.pending }
  | .await rest, ledger => ⟨.promised, ledger, [rest]⟩

/-- `sandboxed`. -/
def sandboxed (d : Deps) (body : Body) (ledger : Ledger) : Ran := bracket (body.exec d) ledger

/-- Resume the body at a place among those pending.  What it leaves in turn
queues behind the others. -/
def resume (d : Deps) (ran : Ran) (place : Nat) : Ran :=
  match ran.pending[place]? with
  | none => ran
  | some body =>
    let after := body.exec d ran.ledger
    { after with pending := ran.pending.eraseIdx place ++ after.pending }

/-- The machine that settles what a call has left, in the order its inputs
give. -/
def tasks (d : Deps) : Machine Ran Nat Exit where
  step ran place := ((resume d ran place).exit, resume d ran place)

/-! ## What a rollback is -/

/-- The four fields of a snapshot are the same. -/
structure Ledger.SameState (ledger ledger' : Ledger) : Prop where
  store : ledger'.env.store = ledger.env.store
  ledgerSeq : ledger'.env.ledgerSeq = ledger.env.ledgerSeq
  timestamp : ledger'.env.timestamp = ledger.env.timestamp
  prngCounter : ledger'.env.prngCounter = ledger.env.prngCounter

theorem Ledger.SameState.refl (ledger : Ledger) : ledger.SameState ledger := ⟨rfl, rfl, rfl, rfl⟩

theorem Ledger.SameState.trans {a b c : Ledger} (h : a.SameState b) (h' : b.SameState c) :
    a.SameState c :=
  ⟨h'.store.trans h.store, h'.ledgerSeq.trans h.ledgerSeq, h'.timestamp.trans h.timestamp,
    h'.prngCounter.trans h.prngCounter⟩

/-- Every id restores what it restored before. -/
def Ledger.KeepsSnapshots (ledger ledger' : Ledger) : Prop :=
  ∀ id restored, Ledger.restore id ledger = .ok () restored →
    ∃ restored', Ledger.restore id ledger' = .ok () restored' ∧ restored.SameState restored'

/-- The snapshots of a ledger are where they were.  Others may have come
behind them. -/
def Ledger.Grows (ledger ledger' : Ledger) : Prop :=
  ledger.env.snapshots <+: ledger'.env.snapshots

instance : IsPreorder Ledger Ledger.Grows where
  refl _ := List.prefix_rfl
  trans _ _ _ := List.IsPrefix.trans

theorem Ledger.Grows.of_eq {ledger ledger' : Ledger}
    (h : ledger'.env.snapshots = ledger.env.snapshots) : ledger.Grows ledger' := by
  unfold Ledger.Grows
  rw [h]

theorem Ledger.Grows.of_storeOnly {ledger ledger' : Ledger} (h : ledger.StoreOnly ledger') :
    ledger.Grows ledger' := by
  obtain ⟨store, cache, rfl⟩ := h
  exact .of_eq rfl

theorem Ledger.Grows.getElem? {ledger ledger' : Ledger} (h : ledger.Grows ledger') {id : Nat}
    {snap : LedgerSnapshot} (hsnap : ledger.env.snapshots[id]? = some snap) :
    ledger'.env.snapshots[id]? = some snap := by
  obtain ⟨since, hsince⟩ := h
  rw [← hsince, List.getElem?_append_left (List.getElem?_eq_some_iff.mp hsnap).1]
  exact hsnap

theorem Ledger.Grows.keepsSnapshots {ledger ledger' : Ledger} (h : ledger.Grows ledger') :
    ledger.KeepsSnapshots ledger' := by
  intro id restored hrestored
  obtain ⟨snap, hsnap, rfl⟩ := Ledger.restore_ok.mp hrestored
  exact ⟨_, Ledger.restore_ok.mpr ⟨snap, h.getElem? hsnap, rfl⟩, rfl, rfl, rfl, rfl⟩

/-! ## No call takes a snapshot away -/

theorem call_grows {α : Type} {x : SorobanEnv → Except JsError (α × SorobanEnv)}
    (hx : ∀ env a env', x env = .ok (a, env') → env'.snapshots = env.snapshots) :
    Within Ledger.Grows (Ledger.call x) := by
  intro ledger
  unfold Ledger.call
  cases h : x ledger.env with
  | error e => exact refl_of Ledger.Grows ledger
  | ok out => exact .of_eq (hx _ _ _ h)

theorem snapshot_grows : Within Ledger.Grows Ledger.snapshot := by
  intro ledger
  rcases ledger.snapshot_final with hfinal | hfinal
  · rw [hfinal]
    exact refl_of Ledger.Grows ledger
  · rw [hfinal]
    exact List.prefix_append _ _

/-- A call of the ledger keeps the snapshots there are. -/
theorem LedgerOp.perform_grows (d : Deps) (op : LedgerOp) :
    Within Ledger.Grows (op.perform d) := by
  cases op with
  | fundAccount seed =>
    refine .bind (call_grows fun env a env' h => ?_) fun _ => .pure _
    simp only [SorobanEnv.fundAccount, Except.bind_eq_ok] at h
    obtain ⟨key, -, h⟩ := h
    cases h
    rfl
  | fund id opts =>
    exact .bind (fun ledger => .of_storeOnly (storeAccount_storesOnly d _ ledger)) fun _ => .pure _
  | seedWasm code =>
    refine .bind (call_grows fun env a env' h => ?_) fun _ => .pure _
    unfold SorobanEnv.seedWasm at h
    split at h
    · cases h
    · cases h
      rfl
  | putEntry entry liveUntil =>
    exact .bind (fun ledger => .of_storeOnly (putEntry_storesOnly entry liveUntil ledger))
      fun _ => .pure _
  | removeEntry key =>
    refine .bind (call_grows fun env a env' h => ?_) fun _ => .pure _
    cases h
    rfl
  | simulate args =>
    refine .bind (fun ledger => ?_) fun _ => .pure _
    obtain ⟨prng, hframe⟩ := simulate_frame d ledger.env args
    rw [Ledger.finalState_simulate, hframe]
    exact .of_eq rfl
  | send args =>
    exact .bind (fun ledger => .of_storeOnly (send_storesOnly d args ledger)) fun _ => .pure _
  | applyTransaction envelope passphrase validation =>
    exact .bind (fun ledger => .of_storeOnly
      (applyTransaction_storesOnly d envelope passphrase validation ledger)) fun _ => .pure _
  | advanceLedgers n => exact fun ledger => .of_eq rfl
  | setTimestamp t => exact fun ledger => .of_eq rfl
  | snapshot => exact .bind snapshot_grows fun _ => .pure _
  | restore id =>
    refine .bind (fun ledger => ?_) fun _ => .pure _
    simp only [Ledger.restore, SorobanEnv.restore]
    cases ledger.env.snapshots[toUint32 id]? with
    | none => exact refl_of Ledger.Grows ledger
    | some snap => exact .of_eq rfl

theorem Ledger.configure_grows (setting : LedgerSetting) :
    Within Ledger.Grows (Ledger.configure setting) := by
  cases setting with
  | feeSettings settings => exact fun ledger => .of_eq rfl
  | costParams cpuParams memParams cpuLimit memLimit =>
    intro ledger
    refine .of_eq ?_
    show (ledger.setCostParams cpuParams memParams cpuLimit memLimit).env.snapshots = _
    unfold Ledger.setCostParams
    split <;> rfl
  | archivalSettings minTemporaryTtl minPersistentTtl maxEntryTtl =>
    unfold Ledger.configure
    refine call_grows fun env a env' h => ?_
    unfold SorobanEnv.setArchivalSettings at h
    split at h
    · cases h
    · cases h
      rfl
  | enforceDeclaredResources on => exact fun ledger => .of_eq rfl
  | enforceDeclaredBytes on => exact fun ledger => .of_eq rfl

/-! ## The bracket -/

/-- Whatever runs inside, a bracket around it ends in the state it began in,
if only the snapshots are kept. -/
theorem bracket_spec {body : Ledger → Ran}
    (hbody : ∀ ledger : Ledger, ledger.Grows (body ledger).ledger) (ledger : Ledger) :
    ledger.SameState (bracket body ledger).ledger ∧
      ledger.Grows (bracket body ledger).ledger := by
  unfold bracket
  rcases ledger.snapshot_cases with ⟨e, hfull⟩ | ⟨hid, htaken⟩
  · rw [hfull]
    exact ⟨.refl ledger, refl_of Ledger.Grows ledger⟩
  · let snap : LedgerSnapshot :=
      ⟨ledger.env.store, ledger.env.ledgerSeq, ledger.env.timestamp, ledger.env.prngCounter⟩
    let ran := body ledger.withSnapshot
    have hgrown : ledger.withSnapshot.Grows ran.ledger := hbody _
    have hsnap : ran.ledger.env.snapshots[ledger.env.snapshots.length]? = some snap :=
      hgrown.getElem? List.getElem?_concat_length
    have hrestore : Ledger.restore ledger.env.snapshots.length ran.ledger =
        .ok () { ran.ledger with env := ran.ledger.env.restoreFrom snap } :=
      Ledger.restore_ok.mpr ⟨snap, hid.symm ▸ hsnap, rfl⟩
    rw [htaken]
    simp only [ran] at hrestore
    simp only [hrestore]
    have hpushed : ledger.Grows ledger.withSnapshot := List.prefix_append _ _
    exact ⟨⟨rfl, rfl, rfl, rfl⟩, trans_of Ledger.Grows hpushed hgrown⟩

/-- A body keeps the snapshots there are. -/
theorem Body.exec_grows (d : Deps) (body : Body) (ledger : Ledger) :
    ledger.Grows (body.exec d ledger).ledger := by
  induction body generalizing ledger with
  | done => exact refl_of Ledger.Grows ledger
  | throw e => exact refl_of Ledger.Grows ledger
  | look next ih => exact ih ledger ledger
  | call op next ih =>
    exact trans_of Ledger.Grows (op.perform_grows d ledger) (ih _ _)
  | configure setting next ih =>
    exact trans_of Ledger.Grows (Ledger.configure_grows setting ledger) (ih _ _)
  | sandboxed body next ihBody ihNext =>
    exact trans_of Ledger.Grows (bracket_spec ihBody ledger).2 (ihNext _ _)
  | await rest ih => exact refl_of Ledger.Grows ledger

/-! ## What is left for later -/

/-- The operations of a body, up to where it awaits, leave the four fields as
they are.  Nothing is asked of what it runs in a sandbox. -/
def Body.Quiet (d : Deps) : Body → Ledger → Prop
  | .done, _ => True
  | .throw _, _ => True
  | .look next, ledger => (next ledger).Quiet d ledger
  | .call op next, ledger =>
    ledger.SameState (finalState (op.perform d ledger)) ∧
      (next (answer (op.perform d ledger))).Quiet d (finalState (op.perform d ledger))
  | .configure setting next, ledger =>
    (next (answer (Ledger.configure setting ledger))).Quiet d
      (finalState (Ledger.configure setting ledger))
  | .sandboxed body next, ledger =>
    (next (bracket (body.exec d) ledger).exit).Quiet d (bracket (body.exec d) ledger).ledger
  | .await _, _ => True

theorem Ledger.configure_sameState (setting : LedgerSetting) (ledger : Ledger) :
    ledger.SameState (finalState (Ledger.configure setting ledger)) := by
  cases setting with
  | feeSettings settings => exact ⟨rfl, rfl, rfl, rfl⟩
  | costParams cpuParams memParams cpuLimit memLimit =>
    show ledger.SameState (ledger.setCostParams cpuParams memParams cpuLimit memLimit)
    unfold Ledger.setCostParams
    split <;> exact ⟨rfl, rfl, rfl, rfl⟩
  | archivalSettings minTemporaryTtl minPersistentTtl maxEntryTtl =>
    simp only [Ledger.configure, Ledger.call, SorobanEnv.setArchivalSettings]
    by_cases hzero : minTemporaryTtl = 0 ∨ minPersistentTtl = 0 ∨ maxEntryTtl = 0
    · rw [if_pos hzero]
      exact .refl ledger
    · rw [if_neg hzero]
      exact ⟨rfl, rfl, rfl, rfl⟩
  | enforceDeclaredResources on => exact ⟨rfl, rfl, rfl, rfl⟩
  | enforceDeclaredBytes on => exact ⟨rfl, rfl, rfl, rfl⟩

theorem Body.Quiet.sameState {d : Deps} {body : Body} {ledger : Ledger} (h : body.Quiet d ledger) :
    ledger.SameState (body.exec d ledger).ledger := by
  induction body generalizing ledger with
  | done => exact .refl ledger
  | throw e => exact .refl ledger
  | look next ih => exact ih ledger h
  | call op next ih => exact h.1.trans (ih _ h.2)
  | configure setting next ih =>
    exact (Ledger.configure_sameState setting ledger).trans (ih _ h)
  | sandboxed body next _ ih =>
    exact (bracket_spec (body.exec_grows d) ledger).1.trans (ih _ h)
  | await rest ih => exact .refl ledger

/-- What is resumed at a step is quiet on the ledger it finds. -/
def QuietTask (d : Deps) (ran : Ran) (place : Nat) : Prop :=
  ∀ body, ran.pending[place]? = some body → body.Quiet d ran.ledger

theorem resume_spec {d : Deps} {ran : Ran} {place : Nat} (hquiet : QuietTask d ran place) :
    ran.ledger.SameState (resume d ran place).ledger ∧
      ran.ledger.Grows (resume d ran place).ledger := by
  unfold resume
  cases hbody : ran.pending[place]? with
  | none => exact ⟨.refl _, refl_of Ledger.Grows ran.ledger⟩
  | some body => exact ⟨(hquiet body hbody).sameState, body.exec_grows d ran.ledger⟩

/-- A sandbox rolls back what its body did up to its return, its exception or
its first `await`.  It stays rolled back through whatever the body left for
later, in any order, as long as that leaves the four fields alone. -/
theorem sandboxed_rollsBack {d : Deps} (body : Body) (ledger : Ledger) {places : List Nat}
    (hquiet : (tasks d).AllSteps (QuietTask d) (sandboxed d body ledger) places) :
    ledger.SameState ((tasks d).run (sandboxed d body ledger) places).ledger ∧
      ledger.KeepsSnapshots ((tasks d).run (sandboxed d body ledger) places).ledger := by
  obtain ⟨hsame, hgrows⟩ := bracket_spec (body.exec_grows d) ledger
  have hsettled := @Machine.related_run _ _ _ (tasks d) (fun _ => True) (QuietTask d)
    (fun ran ran' => ran.ledger.SameState ran'.ledger ∧ ran.ledger.Grows ran'.ledger)
    (fun ran => ⟨.refl _, refl_of Ledger.Grows ran.ledger⟩)
    (fun _ _ _ h h' => ⟨h.1.trans h'.1, trans_of Ledger.Grows h.2 h'.2⟩)
    (fun _ _ _ _ => trivial) (fun _ _ _ hstep => resume_spec hstep) _ _ trivial hquiet
  exact ⟨hsame.trans hsettled.1, (trans_of Ledger.Grows hgrows hsettled.2).keepsSnapshots⟩

/-- A body that awaits and then closes a ledger closes it for good. -/
theorem sandboxed_leaks :
    ¬ ∀ (body : Body) (ledger : Ledger) (places : List Nat),
      ((tasks .idle).run (sandboxed .idle body ledger) places).pending = [] →
      ledger.SameState ((tasks .idle).run (sandboxed .idle body ledger) places).ledger := by
  intro hclaim
  have hsame := (hclaim (.await (.call (.advanceLedgers 1) fun _ => .done)) (sampleLedger 7) [0]
    rfl).ledgerSeq
  revert hsame
  decide

/-- A body that nests a sandbox, catches what it throws, awaits, and takes a
snapshot. -/
theorem sandboxed_rollsBack_nested :
    (sampleLedger 7).SameState ((tasks .idle).run (sandboxed .idle
      (.call (.advanceLedgers 5) fun _ => .sandboxed (.call (.setTimestamp 3) fun _ => .throw ⟨"no"⟩)
        fun _ => .await (.call .snapshot fun _ => .done)) (sampleLedger 7)) [0]).ledger ∧
    (sampleLedger 7).KeepsSnapshots ((tasks .idle).run (sandboxed .idle
      (.call (.advanceLedgers 5) fun _ => .sandboxed (.call (.setTimestamp 3) fun _ => .throw ⟨"no"⟩)
        fun _ => .await (.call .snapshot fun _ => .done)) (sampleLedger 7)) [0]).ledger := by
  refine sandboxed_rollsBack _ _ ⟨fun body hbody => ?_, trivial⟩
  cases hbody
  exact ⟨⟨rfl, rfl, rfl, rfl⟩, trivial⟩

end LiteSoroban

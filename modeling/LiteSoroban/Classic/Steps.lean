import Mathlib.Logic.Relation
import LiteSoroban.Classic.FootprintSpec
import LiteSoroban.Classic.Frame
import LiteSoroban.Env.HostContract

/-!
# An application, step by step

An application writes to the ledger in four ways.  It bumps a sequence number,
it moves a balance, it puts stored entries back with other TTLs, and it calls
the host.  `ClassicStep` has a constructor for each.

`applyTransaction_steps` says that whatever an application has done when it
returns or throws, it has done in such steps.  A property that each step keeps
is therefore one that every application keeps.
-/

namespace LiteSoroban

open Effect Relation

/-- One write of an application. -/
inductive ClassicStep (d : Deps) (ledger : Ledger) : Ledger → Prop where
  | bump {id : AccountId} {account : AccountEntry} (seqNum : Int)
      (hload : loadAccount! ledger id = .ok account) :
      ClassicStep d ledger (ledger.withAccount (bumped ledger seqNum account))
  | debit {id : AccountId} {account : AccountEntry} (amount : Int)
      (hload : loadAccount! ledger id = .ok account) :
      ClassicStep d ledger (ledger.withAccount (debited amount account))
  | move {moves : List TtlMove}
      (hstored : ∀ m ∈ moves, ∃ ttl, ledger.store.lookup m.key = some ⟨m.entry, some ttl⟩)
      (httl : ∀ m ∈ moves, needsTtl m.key = true) :
      ClassicStep d ledger (finalState (putMoves moves ledger))
  | call (args : SendArgs) :
      ClassicStep d ledger { ledger with env := finalState (ledger.env.send d args) }

/-- A ledger that some steps lead to. -/
abbrev ClassicSteps (d : Deps) : Ledger → Ledger → Prop := ReflTransGen (ClassicStep d)

/-- A rewrite stores the rewritten account, or nothing when it throws. -/
theorem rewriteAccount_steps {d : Deps} {f : Ledger → AccountEntry → AccountEntry}
    (hstep : ∀ ledger id account, loadAccount! ledger id = .ok account →
      ClassicStep d ledger (ledger.withAccount (f ledger account))) (id : AccountId) :
    Within (ClassicSteps d) (rewriteAccount d id f) := by
  intro ledger
  rcases rewriteAccount_cases d id f ledger with ⟨e, hthrew⟩ | ⟨account, hload, hstored⟩
  · rw [hthrew]
    exact .refl
  · rw [hstored]
    exact .single (hstep ledger id account hload)

theorem bumpSequence_steps (d : Deps) (id : AccountId) (seqNum : Int) :
    Within (ClassicSteps d) (bumpSequence d id seqNum) :=
  rewriteAccount_steps (fun _ _ _ hload => .bump seqNum hload) id

theorem debit_steps (d : Deps) (id : AccountId) (amount : Int) :
    Within (ClassicSteps d) (debit d id amount) :=
  rewriteAccount_steps (fun _ _ _ hload => .debit amount hload) id

theorem commitClassic_steps (d : Deps) (a : Application) (v : Validated) :
    Within (ClassicSteps d) (commitClassic d a v) :=
  commitClassic_within (bumpSequence_steps d) (debit_steps d) a v

/-- The operation moves TTLs or calls the host, once. -/
theorem runOperation_steps (d : Deps) {v : Validated} (cap : Option Int) {first : Ledger}
    {u : Unit} (hsoroban : v.op.body.isSoroban = true)
    (hshape : checkFootprintOp first v.toShaped = .ok u) :
    Within (ClassicSteps d) (runOperation d v cap) := by
  intro ledger
  rcases runOperation_final d v cap ledger with hsame | ⟨hinvoke, moves, hselected, hput⟩ |
    ⟨hostFunction, auth, -, hcall⟩
  · rw [hsame]
  · rw [hput]
    have hof := selectedMoves_of hselected
    exact .single (.move (fun m hm => (hof m hm).stored) fun m hm =>
      checkFootprintOp_needsTtl hshape hinvoke hsoroban m.key (hof m hm).mem)
  · rw [hcall]
    exact .single (.call _)

theorem settle_steps (d : Deps) (v : Validated) (charge : Option FeeCharge) (op : Operated) :
    Within (ClassicSteps d) (settle d v charge op) :=
  settle_within (debit_steps d) v charge op

/-- The commit of a transaction that passed its checks. -/
theorem commit_steps {d : Deps} {first : Ledger} {a : Application} {v : Validated}
    (hvalid : validate d first a = .ok v) : Within (ClassicSteps d) (commit d a v) := by
  obtain ⟨c₁, c₂, hpassed⟩ := validate_ok hvalid
  obtain ⟨-, hsoroban, -⟩ := checkShape_ok hpassed.shape
  exact .bind (commitClassic_steps d a v) fun _ =>
    .bind (runOperation_steps d _ hsoroban hpassed.footprintOp) fun _ => settle_steps d v _ _

/-- An application writes in classic steps, whether it returns or throws. -/
theorem applyTransaction_steps (d : Deps) (envelope : TransactionEnvelope) (passphrase : String)
    (validation : ValidationOptions) :
    Within (ClassicSteps d) (applyTransaction d envelope passphrase validation) := by
  intro ledger
  have hend := applyTransaction_end d envelope passphrase validation ledger
  generalize applyTransaction d envelope passphrase validation ledger = run at hend ⊢
  cases hend with
  | envelopeRejected happ => exact .refl
  | envelopeThrew happ => exact .refl
  | rejected happ hval => exact .refl
  | threw happ hval => exact .refl
  | committed happ hval hcommit =>
    have hsteps := commit_steps hval ledger
    rw [hcommit] at hsteps
    exact hsteps
  | commitThrew happ hval hcommit =>
    have hsteps := commit_steps hval ledger
    rw [hcommit] at hsteps
    exact hsteps

/-- What every classic step keeps, an application keeps. -/
theorem applyTransaction_induction {d : Deps} {P : Ledger → Prop}
    (hstep : ∀ ledger ledger', P ledger → ClassicStep d ledger ledger' → P ledger')
    {ledger : Ledger} (h : P ledger) (envelope : TransactionEnvelope) (passphrase : String)
    (validation : ValidationOptions) :
    P (finalState (applyTransaction d envelope passphrase validation ledger)) := by
  have hsteps := applyTransaction_steps d envelope passphrase validation ledger
  generalize finalState (applyTransaction d envelope passphrase validation ledger) = final at hsteps ⊢
  induction hsteps with
  | refl => exact h
  | tail _ hnext ih => exact hstep _ _ ih hnext

/-- A classic step keeps the store keyed by its entries. -/
theorem ClassicStep.keyed {d : Deps} (hhost : d.ReturnsKeyed) {ledger ledger' : Ledger}
    (hkeyed : ledger.store.Keyed) (hstep : ClassicStep d ledger ledger') :
    ledger'.store.Keyed := by
  cases hstep with
  | bump seqNum hload => exact ledger.withAccount_keyed hkeyed _
  | debit amount hload => exact ledger.withAccount_keyed hkeyed _
  | @move moves hstored httl =>
    have hkeys : ∀ m ∈ moves, keyOf m.entry = .ok m.key := by
      intro m hm
      obtain ⟨ttl, hlookup⟩ := hstored m hm
      exact hkeyed _ _ hlookup
    rw [putMoves_eq hkeys]
    exact putStore_keyed hkeys hkeyed
  | call args => exact send_keyed hhost hkeyed

/-- An application keeps the store keyed, whether it returns or throws. -/
theorem applyTransaction_keyed {d : Deps} (hhost : d.ReturnsKeyed) {ledger : Ledger}
    (hkeyed : ledger.store.Keyed) (envelope : TransactionEnvelope) (passphrase : String)
    (validation : ValidationOptions) :
    (finalState (applyTransaction d envelope passphrase validation ledger)).store.Keyed :=
  applyTransaction_induction (P := fun final => final.store.Keyed)
    (fun _ _ hmid hnext => hnext.keyed hhost hmid) hkeyed envelope passphrase validation

end LiteSoroban

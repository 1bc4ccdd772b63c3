import LiteSoroban.Classic.Verdicts
import LiteSoroban.Env.HostContract

/-!
# What applying a transaction can do

The lemmas every result about `applyTransaction` starts from.

* `runOperation_ok` says what the operation can do: fail, move TTLs, or call
  the host.
* `commitClassic_effect` and `settle_effect` say what the bump, the debit and
  the refund do to every sequence number and every balance.
* `applyTransaction_ok` and `applyTransaction_error` split an application at
  the commit point.  Before it the ledger is untouched.  After it the outcome
  is never a rejection, and the ledger goes through the three stages above.
-/

namespace LiteSoroban

open Effect

/-! ## The operation -/

@[simp] theorem lift_ok {α : Type} {x : Ledger → Except JsError α} {ledger ledger' : Ledger}
    {a : α} : LedgerM.lift x ledger = .ok a ledger' ↔ x ledger = .ok a ∧ ledger' = ledger := by
  simp only [LedgerM.lift]
  cases x ledger <;> simp [eq_comm]

theorem lift_error {α : Type} {x : Ledger → Except JsError α} {ledger ledger' : Ledger}
    {e : JsError} (h : LedgerM.lift x ledger = .error e ledger') : ledger' = ledger := by
  simp only [LedgerM.lift] at h
  cases hx : x ledger with
  | ok a => simp [hx] at h
  | error e' =>
    simp only [hx, EStateM.Result.error.injEq] at h
    exact h.2.symm

/-- A priced move of TTLs that returns: either the rent is above the cap and
nothing is written, or every move is made. -/
theorem moveTtls_ok {d : Deps} {moves : List TtlMove} {cap : Option Int}
    {ledger ledger' : Ledger} {applied : FootprintOpApplied}
    (h : moveTtls d moves cap ledger = .ok applied ledger') :
    ∃ rows rent, rentChangesOf d ledger moves = .ok rows ∧
      ledger.computeRentFee d rows = .ok rent ∧
      ((ledger' = ledger ∧ applied.overLimit = none ∧ applied.short.isSome ∧
          ∃ max, cap = some max ∧ max < rent) ∨
        ((∀ max, cap = some max → rent ≤ max) ∧ putMoves moves ledger = .ok () ledger' ∧
          applied = { changed := moves.map (·.key), rent := rent })) := by
  simp only [moveTtls, bind_eq_ok, lift_ok, Except.bind_eq_ok] at h
  obtain ⟨rent, _, ⟨⟨rows, hrows, hrent⟩, rfl⟩, h⟩ := h
  refine ⟨rows, rent, hrows, hrent, ?_⟩
  cases cap with
  | none =>
    simp only [bind_eq_ok, pure_eq_ok] at h
    obtain ⟨_, _, hput, rfl, rfl⟩ := h
    exact .inr ⟨by simp, hput, rfl⟩
  | some max =>
    dsimp only at h
    split at h
    · next hlt =>
      simp only [pure_eq_ok] at h
      obtain ⟨rfl, rfl⟩ := h
      exact .inl ⟨rfl, rfl, rfl, max, rfl, hlt⟩
    · next hle =>
      simp only [bind_eq_ok, pure_eq_ok] at h
      obtain ⟨_, _, hput, rfl, rfl⟩ := h
      refine .inr ⟨?_, hput, rfl⟩
      rintro _ ⟨⟩
      omega

/-- The moves of a footprint operation, whichever of the two it is. -/
def selectedMoves (d : Deps) (ledger : Ledger) (s : Shaped) : Except String (List TtlMove) :=
  let resources := s.sorobanData.resources
  match s.op.body with
  | .extendFootprintTtl extendTo =>
    extendMoves d ledger (ledger.ledgerSeq + extendTo) resources.footprint.readOnly
  | .restoreFootprint =>
    restoreMoves d ledger resources (ledger.ledgerSeq + ledger.env.minPersistentEntryTtl - 1)
      resources.footprint.readWrite 0
  | _ => .ok []

/-- An operation that failed consumed nothing, and wrote nothing but the
module cache. -/
structure OperationFailed (ledger : Ledger) (op : Operated) (ledger' : Ledger) : Prop where
  ok : op.outcome.ok = false
  rejected : op.outcome.rejected = false
  code : op.outcome.code = .txFAILED
  refundable : op.refundable = 0
  rent : op.rent = 0
  frame : ∃ cache, ledger' = { ledger with env := { ledger.env with moduleCache := cache } }

/-- A footprint operation that succeeded made its moves, and consumed the
rent. -/
structure OperationMoved (d : Deps) (v : Validated) (cap : Option Int) (ledger : Ledger)
    (op : Operated) (ledger' : Ledger) (moves : List TtlMove) (rows : List RentChange) :
    Prop where
  footprintOp : v.op.body.isInvoke = false
  selected : selectedMoves d ledger v.toShaped = .ok moves
  priced : rentChangesOf d ledger moves = .ok rows
  rent : ledger.computeRentFee d rows = .ok op.rent
  covered : ∀ max, cap = some max → op.rent ≤ max
  put : putMoves moves ledger = .ok () ledger'
  refundable : op.refundable = op.rent
  ok : op.outcome.ok = true
  rejected : op.outcome.rejected = false
  code : op.outcome.code = .txSUCCESS
  changed : op.outcome.changedKeys = some (moves.map (·.key))

/-- A host call that succeeded. -/
structure OperationInvoked (d : Deps) (v : Validated) (cap : Option Int) (ledger : Ledger)
    (op : Operated) (ledger' : Ledger) (hostFunction : HostFunction)
    (auth : List SorobanAuthorizationEntry) (sent : SendResult) (env : SorobanEnv) : Prop where
  body : v.op.body = .invokeHostFunction hostFunction auth
  call : ledger.env.send d (invokeArgs v hostFunction auth cap) = .ok sent env
  ok : sent.ok = true
  operated : op = invokeOperated sent
  frame : ledger' = { ledger with env := env }

theorem applyExtendFootprintTtl_eq (d : Deps) (extendTo : Nat) (data : SorobanTransactionData)
    (cap : Option Int) (ledger : Ledger) :
    applyExtendFootprintTtl d extendTo data cap ledger =
      match extendMoves d ledger (ledger.ledgerSeq + extendTo) data.resources.footprint.readOnly with
      | .error overLimit => .ok { changed := [], rent := 0, overLimit := some overLimit } ledger
      | .ok moves => moveTtls d moves cap ledger := by
  simp only [applyExtendFootprintTtl, bind, EStateM.bind, get, getThe, Effect.get_run]
  cases extendMoves d ledger (ledger.ledgerSeq + extendTo) data.resources.footprint.readOnly <;> rfl

theorem applyRestoreFootprint_eq (d : Deps) (data : SorobanTransactionData) (cap : Option Int)
    (ledger : Ledger) :
    applyRestoreFootprint d data cap ledger =
      match restoreMoves d ledger data.resources
        (ledger.ledgerSeq + ledger.env.minPersistentEntryTtl - 1)
        data.resources.footprint.readWrite 0 with
      | .error overLimit => .ok { changed := [], rent := 0, overLimit := some overLimit } ledger
      | .ok moves => moveTtls d moves cap ledger := by
  simp only [applyRestoreFootprint, bind, EStateM.bind, get, getThe, Effect.get_run]
  cases restoreMoves d ledger data.resources
    (ledger.ledgerSeq + ledger.env.minPersistentEntryTtl - 1)
    data.resources.footprint.readWrite 0 <;> rfl

/-- What one of the footprint operations leaves, given how it selects its
moves.  It fails on a selection only when the fee does not cover the rent. -/
theorem footprintOp_ok {d : Deps} {v : Validated} {cap : Option Int} {arms : FootprintArms}
    {apply : LedgerM FootprintOpApplied} {ledger ledger' : Ledger} {op : Operated}
    (hbody : v.op.body.isInvoke = false)
    (happly : apply ledger = match selectedMoves d ledger v.toShaped with
      | .error overLimit => .ok { changed := [], rent := 0, overLimit := some overLimit } ledger
      | .ok moves => moveTtls d moves cap ledger)
    (h : (do return footprintOperated arms (← apply)) ledger = .ok op ledger') :
    (OperationFailed ledger op ledger' ∧
      ∀ moves, selectedMoves d ledger v.toShaped = .ok moves →
        ∃ rows rent max, rentChangesOf d ledger moves = .ok rows ∧
          ledger.computeRentFee d rows = .ok rent ∧ cap = some max ∧ max < rent) ∨
      ∃ moves rows, OperationMoved d v cap ledger op ledger' moves rows := by
  simp only [bind_eq_ok, pure_eq_ok] at h
  obtain ⟨applied, _, h, rfl, rfl⟩ := h
  rw [happly] at h
  cases hmoves : selectedMoves d ledger v.toShaped with
  | error overLimit =>
    simp only [hmoves, EStateM.Result.ok.injEq] at h
    obtain ⟨rfl, rfl⟩ := h
    refine .inl ⟨⟨rfl, rfl, rfl, rfl, rfl, ledger.env.moduleCache, rfl⟩, ?_⟩
    rintro _ ⟨⟩
  | ok moves =>
    simp only [hmoves] at h
    obtain ⟨rows, rent, hrows, hrent, hcase⟩ := moveTtls_ok h
    rcases hcase with ⟨rfl, hover, hshort, max, hmax, hlt⟩ | ⟨hcap, hput, rfl⟩
    · obtain ⟨short, hshort⟩ := Option.isSome_iff_exists.mp hshort
      simp only [footprintOperated, hover, hshort]
      refine .inl ⟨⟨rfl, rfl, rfl, rfl, rfl, _, rfl⟩, ?_⟩
      rintro _ ⟨⟩
      exact ⟨rows, rent, max, hrows, hrent, hmax, hlt⟩
    · exact .inr ⟨moves, rows, hbody, hmoves, hrows, hrent, hcap, hput, rfl, rfl, rfl, rfl, rfl⟩

/-- A footprint operation whose source exists selects its moves and makes
them. -/
theorem runOperation_footprint (d : Deps) {v : Validated} (cap : Option Int)
    {opAccount : AccountEntry} (hsource : v.opAccount = some opAccount)
    (hinvoke : v.op.body.isInvoke = false) (hsoroban : v.op.body.isSoroban = true) :
    ∃ arms apply, runOperation d v cap = (do return footprintOperated arms (← apply)) ∧
      ∀ ledger, apply ledger = match selectedMoves d ledger v.toShaped with
        | .error overLimit => .ok { changed := [], rent := 0, overLimit := some overLimit } ledger
        | .ok moves => moveTtls d moves cap ledger := by
  cases hbody : v.op.body with
  | extendFootprintTtl extendTo =>
    refine ⟨extendArms, applyExtendFootprintTtl d extendTo v.sorobanData cap,
      by simp only [runOperation, hsource, hbody], fun ledger => ?_⟩
    simp only [selectedMoves, hbody, applyExtendFootprintTtl_eq]
  | restoreFootprint =>
    refine ⟨restoreArms, applyRestoreFootprint d v.sorobanData cap,
      by simp only [runOperation, hsource, hbody], fun ledger => ?_⟩
    simp only [selectedMoves, hbody, applyRestoreFootprint_eq]
  | invokeHostFunction hostFunction auth => simp [hbody, OperationBody.isInvoke] at hinvoke
  | classic xdr => simp [hbody, OperationBody.isSoroban] at hsoroban

/-- The call `applyInner` makes restores nothing, so nothing crosses. -/
theorem send_invokeArgs (d : Deps) (v : Validated) (hostFunction : HostFunction)
    (auth : List SorobanAuthorizationEntry) (cap : Option Int) (ledger : Ledger) :
    Ledger.send d (invokeArgs v hostFunction auth cap) ledger =
      match ledger.env.send d (invokeArgs v hostFunction auth cap) with
      | .ok out env => .ok out { ledger with env := env }
      | .error e env => .error e { ledger with env := env } :=
  rfl

theorem send_invokeArgs_ok {d : Deps} {v : Validated} {hostFunction : HostFunction}
    {auth : List SorobanAuthorizationEntry} {cap : Option Int} {ledger ledger' : Ledger}
    {out : SendResult}
    (h : Ledger.send d (invokeArgs v hostFunction auth cap) ledger = .ok out ledger') :
    ∃ env, ledger.env.send d (invokeArgs v hostFunction auth cap) = .ok out env ∧
      ledger' = { ledger with env := env } := by
  rw [send_invokeArgs] at h
  cases henv : ledger.env.send d (invokeArgs v hostFunction auth cap) with
  | error e env => simp [henv] at h
  | ok out' env =>
    simp only [henv, EStateM.Result.ok.injEq] at h
    obtain ⟨rfl, rfl⟩ := h
    exact ⟨env, rfl, rfl⟩

/-- An operation that returns has failed, has moved TTLs, or has called the
host. -/
theorem runOperation_ok {d : Deps} {v : Validated} {cap : Option Int} {ledger ledger' : Ledger}
    {op : Operated} (h : runOperation d v cap ledger = .ok op ledger') :
    OperationFailed ledger op ledger' ∨
      (∃ moves rows, OperationMoved d v cap ledger op ledger' moves rows) ∨
      ∃ hostFunction auth sent env,
        OperationInvoked d v cap ledger op ledger' hostFunction auth sent env := by
  cases hop : v.opAccount with
  | none =>
    simp only [runOperation, hop, pure_eq_ok] at h
    obtain ⟨rfl, rfl⟩ := h
    exact .inl ⟨rfl, rfl, rfl, rfl, rfl, ledger.env.moduleCache, rfl⟩
  | some opAccount =>
    have hfootprint : v.op.body.isInvoke = false → v.op.body.isSoroban = true →
        OperationFailed ledger op ledger' ∨
          ∃ moves rows, OperationMoved d v cap ledger op ledger' moves rows := by
      intro hinvoke hsoroban
      obtain ⟨arms, apply, hrun, happly⟩ := runOperation_footprint d cap hop hinvoke hsoroban
      rw [hrun] at h
      exact (footprintOp_ok hinvoke (happly ledger) h).imp_left And.left
    cases hbody : v.op.body with
    | classic xdr =>
      simp only [runOperation, hop, hbody] at h
      cases h
    | extendFootprintTtl extendTo =>
      exact (hfootprint (by rw [hbody]; rfl) (by rw [hbody]; rfl)).imp_right .inl
    | restoreFootprint =>
      exact (hfootprint (by rw [hbody]; rfl) (by rw [hbody]; rfl)).imp_right .inl
    | invokeHostFunction hostFunction auth =>
      simp only [runOperation, hop, hbody, bind_eq_ok, pure_eq_ok] at h
      obtain ⟨out, _, hsend, rfl, rfl⟩ := h
      obtain ⟨env, henv, rfl⟩ := send_invokeArgs_ok hsend
      cases hok : out.ok with
      | true => exact .inr (.inr ⟨hostFunction, auth, out, env, hbody, henv, hok, rfl, rfl⟩)
      | false =>
        have hfailed : SendFailed d ledger.env out env := by
          rcases send_ok henv with hfailed | ⟨_, _, _, _, _, _, _, rfl, _⟩
          · exact hfailed
          · cases hok
        obtain ⟨cache, hcache⟩ := hfailed.frame
        refine .inl ⟨hok, rfl, ?_, ?_, ?_, cache, by rw [hcache]⟩ <;>
          simp [invokeOperated, hok]

/-- Moving TTLs leaves the ledger alone or makes the moves, also when it
throws. -/
theorem moveTtls_final (d : Deps) (moves : List TtlMove) (cap : Option Int) (ledger : Ledger) :
    finalState (moveTtls d moves cap ledger) = ledger ∨
      finalState (moveTtls d moves cap ledger) = finalState (putMoves moves ledger) := by
  cases h : moveTtls d moves cap ledger with
  | ok applied ledger' =>
    obtain ⟨_, _, _, _, ⟨hsame, -⟩ | ⟨-, hput, -⟩⟩ := moveTtls_ok h
    · exact .inl hsame
    · exact .inr (by rw [hput]; rfl)
  | error e ledger' =>
    simp only [moveTtls, bind_eq_error] at h
    rcases h with hlift | ⟨rent, l, hlift, h⟩
    · exact .inl (lift_error hlift)
    · rw [(lift_ok.mp hlift).2] at h
      have hput : ∀ {f : Unit → LedgerM FootprintOpApplied}, (∀ u l, ∃ b, f u l = .ok b l) →
          (putMoves moves >>= f) ledger = .error e ledger' →
          ledger' = finalState (putMoves moves ledger) := by
        intro f hf h
        rcases bind_eq_error.mp h with hput | ⟨u, l', -, hpure⟩
        · rw [hput]
          rfl
        · obtain ⟨b, hb⟩ := hf u l'
          rw [hb] at hpure
          cases hpure
      cases cap with
      | none => exact .inr (hput (fun _ _ => ⟨_, rfl⟩) h)
      | some max =>
        dsimp only at h
        split at h
        · cases h
        · exact .inr (hput (fun _ _ => ⟨_, rfl⟩) h)

theorem footprintOp_final {d : Deps} {v : Validated} (cap : Option Int) {arms : FootprintArms}
    {apply : LedgerM FootprintOpApplied} {ledger : Ledger}
    (happly : apply ledger = match selectedMoves d ledger v.toShaped with
      | .error overLimit => .ok { changed := [], rent := 0, overLimit := some overLimit } ledger
      | .ok moves => moveTtls d moves cap ledger) :
    finalState ((do return footprintOperated arms (← apply)) ledger) = ledger ∨
      ∃ moves, selectedMoves d ledger v.toShaped = .ok moves ∧
        finalState ((do return footprintOperated arms (← apply)) ledger) =
          finalState (putMoves moves ledger) := by
  rw [finalState_map, happly]
  cases hmoves : selectedMoves d ledger v.toShaped with
  | error overLimit => exact .inl rfl
  | ok moves =>
    rcases moveTtls_final d moves cap ledger with hsame | hput
    · exact .inl hsame
    · exact .inr ⟨moves, rfl, hput⟩

/-- What an operation can do to the ledger, also when it throws: nothing, the
moves of a footprint operation, or a host call. -/
theorem runOperation_final (d : Deps) (v : Validated) (cap : Option Int) (ledger : Ledger) :
    finalState (runOperation d v cap ledger) = ledger ∨
      (v.op.body.isInvoke = false ∧ ∃ moves, selectedMoves d ledger v.toShaped = .ok moves ∧
        finalState (runOperation d v cap ledger) = finalState (putMoves moves ledger)) ∨
      ∃ hostFunction auth, v.op.body = .invokeHostFunction hostFunction auth ∧
        finalState (runOperation d v cap ledger) = { ledger with
          env := finalState (ledger.env.send d (invokeArgs v hostFunction auth cap)) } := by
  cases hop : v.opAccount with
  | none =>
    have hrun : runOperation d v cap ledger = .ok opNoAccount ledger := by
      simp only [runOperation, hop]
      rfl
    exact .inl (by rw [hrun]; rfl)
  | some opAccount =>
    have hfootprint : v.op.body.isInvoke = false → v.op.body.isSoroban = true →
        finalState (runOperation d v cap ledger) = ledger ∨
          ∃ moves, selectedMoves d ledger v.toShaped = .ok moves ∧
            finalState (runOperation d v cap ledger) = finalState (putMoves moves ledger) := by
      intro hinvoke hsoroban
      obtain ⟨arms, apply, hrun, happly⟩ := runOperation_footprint d cap hop hinvoke hsoroban
      rw [hrun]
      exact footprintOp_final cap (happly ledger)
    cases hbody : v.op.body with
    | classic xdr =>
      have hrun : runOperation d v cap ledger =
          .error ⟨"expected the invokeHostFunction arm"⟩ ledger := by
        simp only [runOperation, hop, hbody]
        rfl
      exact .inl (by rw [hrun]; rfl)
    | extendFootprintTtl extendTo =>
      exact (hfootprint (by rw [hbody]; rfl) (by rw [hbody]; rfl)).imp_right fun h => .inl ⟨rfl, h⟩
    | restoreFootprint =>
      exact (hfootprint (by rw [hbody]; rfl) (by rw [hbody]; rfl)).imp_right fun h => .inl ⟨rfl, h⟩
    | invokeHostFunction hostFunction auth =>
      have hrun : runOperation d v cap ledger = (do
          return invokeOperated
            (← Ledger.send d (invokeArgs v hostFunction auth cap))) ledger := by
        simp only [runOperation, hop, hbody]
      refine .inr (.inr ⟨hostFunction, auth, rfl, ?_⟩)
      rw [hrun, finalState_map, send_invokeArgs]
      cases ledger.env.send d (invokeArgs v hostFunction auth cap) <;> rfl

/-! ## The stages of a commit -/

/-- The bump and the debit.  When source and payer are one account, the debit
rewrites what the bump has stored. -/
theorem commitClassic_ok {d : Deps} {a : Application} {v : Validated} {ledger ledger' : Ledger}
    (hkeyed : ledger.store.Keyed) (h : commitClassic d a v ledger = .ok () ledger') :
    ∃ mid, Rewritten a.raw.sourceId (bumped ledger (a.nextSeqNum v.account)) ledger mid ∧
      match a.charge with
      | some charge => Rewritten charge.payer (debited charge.upfront) mid ledger'
      | none => ledger' = mid := by
  simp only [commitClassic, bind_eq_ok] at h
  obtain ⟨_, mid, hbump, h⟩ := h
  have hmid := bumpSequence_ok hkeyed hbump
  refine ⟨mid, hmid, ?_⟩
  cases hcharge : a.charge with
  | none =>
    simp only [hcharge, pure_eq_ok, true_and] at h
    exact h.symm
  | some charge =>
    simp only [hcharge] at h
    exact debit_ok hmid.keyed h

theorem commitClassic_classicOnly {d : Deps} {a : Application} {v : Validated}
    {ledger ledger' : Ledger} {u : Unit} (h : commitClassic d a v ledger = .ok u ledger') :
    ClassicOnly ledger ledger' := by
  simp only [commitClassic, bind_eq_ok] at h
  obtain ⟨_, mid, hbump, h⟩ := h
  refine (rewriteAccount_classicOnly hbump).trans ?_
  cases hcharge : a.charge with
  | none =>
    simp only [hcharge, pure_eq_ok, true_and] at h
    rw [h]
    exact .refl _
  | some charge =>
    simp only [hcharge] at h
    exact rewriteAccount_classicOnly h

/-- What leaves an account before the operation runs. -/
def Application.upfrontOf (a : Application) (id : AccountId) : Int :=
  match a.charge with
  | some charge => if id = charge.payer then charge.upfront else 0
  | none => 0

/-- The bump and the debit, account by account: the source has its next
sequence number, the payer is the upfront fee down, and nothing else has
changed. -/
structure ClassicCommitted (a : Application) (account : AccountEntry) (ledger ledger' : Ledger) :
    Prop where
  keyed : ledger'.store.Keyed
  frame : ledger' = ledger.withStore ledger'.store
  source : (ledger.store.account? a.raw.sourceId).isSome
  payer : ∀ charge, a.charge = some charge → (ledger.store.account? charge.payer).isSome
  seqNum : ∀ id, ledger'.store.seqNum? id =
    if id = a.raw.sourceId then some (a.nextSeqNum account) else ledger.store.seqNum? id
  balance : ∀ id, ledger'.store.balance? id =
    (ledger.store.balance? id).map (· - a.upfrontOf id)
  others : ∀ key, key ≠ .account a.raw.sourceId →
    (∀ charge, a.charge = some charge → key ≠ .account charge.payer) →
    ledger'.store.lookup key = ledger.store.lookup key

theorem map_sub_zero (b : Option Int) : b.map (· - (0 : Int)) = b := by
  cases b <;> simp

theorem commitClassic_effect {d : Deps} {a : Application} {v : Validated}
    {ledger ledger' : Ledger} (hkeyed : ledger.store.Keyed)
    (h : commitClassic d a v ledger = .ok () ledger') :
    ClassicCommitted a v.account ledger ledger' := by
  obtain ⟨mid, hmid, h⟩ := commitClassic_ok hkeyed h
  cases hcharge : a.charge with
  | none =>
    simp only [hcharge] at h
    subst h
    refine ⟨hmid.keyed, hmid.frame, hmid.present, by simp [hcharge], hmid.seqNum_bumped,
      fun id => ?_, fun key hsource _ => hmid.others key hsource⟩
    rw [hmid.balance_bumped, Application.upfrontOf, hcharge, map_sub_zero]
  | some charge =>
    simp only [hcharge] at h
    refine ⟨h.keyed, by rw [h.frame, hmid.frame]; rfl, hmid.present, ?_, fun id => ?_,
      fun id => ?_, fun key hsource hpayer => ?_⟩
    · rintro _ heq
      rw [hcharge] at heq
      cases heq
      have hpresent := h.present
      rw [hmid.accounts] at hpresent
      split at hpresent
      · next hid =>
        rw [hid]
        exact hmid.present
      · exact hpresent
    · rw [h.seqNum_debited, hmid.seqNum_bumped]
    · rw [h.balance_debited, hmid.balance_bumped, Application.upfrontOf, hcharge]
      split
      · next hid => simp [hid]
      · next hid => simp [hid]
    · rw [h.others key (hpayer charge hcharge), hmid.others key hsource]

/-- What the operation leaves of the refundable fee. -/
def refundOf (v : Validated) (op : Operated) : Int := v.maxRefundable - op.refundable

/-- While fees are not charged there is nothing to settle. -/
theorem settle_none {d : Deps} {v : Validated} {op : Operated} {outcome : TxOutcome}
    {ledger ledger' : Ledger} (h : settle d v none op ledger = .ok outcome ledger') :
    outcome = { op.outcome with feeCharged := 0 } ∧ ledger' = ledger := by
  simp only [settle, pure_eq_ok] at h
  exact ⟨h.1.symm, h.2.symm⟩

/-- The refund. -/
theorem settle_some {d : Deps} {v : Validated} {charge : FeeCharge} {op : Operated}
    {outcome : TxOutcome} {ledger ledger' : Ledger}
    (h : settle d v (some charge) op ledger = .ok outcome ledger') :
    giveBack d charge.payer (refundOf v op) ledger = .ok () ledger' ∧
      outcome = { op.outcome with
        feeCharged := charge.upfront - refundOf v op
        sorobanFee := some ⟨v.nonRefundable, op.refundable, op.rent⟩ } := by
  simp only [settle, bind_eq_ok, pure_eq_ok] at h
  obtain ⟨_, _, hgive, rfl, rfl⟩ := h
  exact ⟨hgive, rfl⟩

theorem giveBack_ok {d : Deps} {payer : AccountId} {refund : Int} {ledger ledger' : Ledger}
    (hkeyed : ledger.store.Keyed) (h : giveBack d payer refund ledger = .ok () ledger') :
    (0 < refund ∧ Rewritten payer (debited (-refund)) ledger ledger') ∨
      (refund ≤ 0 ∧ ledger' = ledger) := by
  simp only [giveBack] at h
  split at h
  · next hpos => exact .inl ⟨hpos, debit_ok hkeyed h⟩
  · next hneg =>
    simp only [pure_eq_ok, true_and] at h
    exact .inr ⟨not_lt.mp hneg, h.symm⟩

/-- What an account gets back. -/
def Application.refundTo (a : Application) (v : Validated) (op : Operated) (id : AccountId) :
    Int :=
  match a.charge with
  | some charge => if id = charge.payer then max 0 (refundOf v op) else 0
  | none => 0

/-- The refund, account by account: the payer is the refund up, and nothing
else has changed. -/
structure ClassicSettled (a : Application) (v : Validated) (op : Operated)
    (ledger ledger' : Ledger) : Prop where
  keyed : ledger'.store.Keyed
  frame : ledger' = ledger.withStore ledger'.store
  seqNum : ∀ id, ledger'.store.seqNum? id = ledger.store.seqNum? id
  balance : ∀ id, ledger'.store.balance? id =
    (ledger.store.balance? id).map (· + a.refundTo v op id)
  others : ∀ key, (∀ charge, a.charge = some charge → key ≠ .account charge.payer) →
    ledger'.store.lookup key = ledger.store.lookup key

theorem map_add_zero (b : Option Int) : b.map (· + (0 : Int)) = b := by
  cases b <;> simp

theorem settle_effect {d : Deps} {a : Application} {v : Validated} {op : Operated}
    {outcome : TxOutcome} {ledger ledger' : Ledger} (hkeyed : ledger.store.Keyed)
    (h : settle d v a.charge op ledger = .ok outcome ledger') :
    ClassicSettled a v op ledger ledger' := by
  cases hcharge : a.charge with
  | none =>
    rw [hcharge] at h
    obtain ⟨-, rfl⟩ := settle_none h
    refine ⟨hkeyed, rfl, fun _ => rfl, fun id => ?_, fun _ _ => rfl⟩
    rw [Application.refundTo, hcharge, map_add_zero]
  | some charge =>
    rw [hcharge] at h
    rcases giveBack_ok hkeyed (settle_some h).1 with ⟨hpos, hdebit⟩ | ⟨hneg, rfl⟩
    · refine ⟨hdebit.keyed, hdebit.frame, hdebit.seqNum_debited, fun id => ?_,
        fun key hpayer => hdebit.others key (hpayer charge hcharge)⟩
      rw [hdebit.balance_debited, Application.refundTo, hcharge]
      split
      · next hid =>
        subst hid
        simp only [if_true, max_eq_right hpos.le, sub_neg_eq_add]
      · next hid => simp only [hid, if_false, map_add_zero]
    · refine ⟨hkeyed, rfl, fun _ => rfl, fun id => ?_, fun _ _ => rfl⟩
      simp only [Application.refundTo, hcharge, max_eq_left hneg, ite_self, map_add_zero]

theorem settle_classicOnly {d : Deps} {v : Validated} {charge : Option FeeCharge} {op : Operated}
    {outcome : TxOutcome} {ledger ledger' : Ledger}
    (h : settle d v charge op ledger = .ok outcome ledger') : ClassicOnly ledger ledger' := by
  cases charge with
  | none =>
    obtain ⟨-, rfl⟩ := settle_none h
    exact .refl _
  | some charge =>
    obtain ⟨hback, -⟩ := settle_some h
    simp only [giveBack] at hback
    split at hback
    · exact rewriteAccount_classicOnly hback
    · rw [(pure_eq_ok.mp hback).2]
      exact .refl _

/-- An outcome keeps the mark of a rejection, its success, its events and its
return value through `settle`. -/
theorem settle_outcome {d : Deps} {v : Validated} {charge : Option FeeCharge} {op : Operated}
    {outcome : TxOutcome} {ledger ledger' : Ledger}
    (h : settle d v charge op ledger = .ok outcome ledger') :
    outcome.rejected = op.outcome.rejected ∧ outcome.ok = op.outcome.ok ∧
      outcome.code = op.outcome.code ∧ outcome.events = op.outcome.events ∧
      outcome.returnValue = op.outcome.returnValue := by
  cases charge with
  | none =>
    obtain ⟨rfl, -⟩ := settle_none h
    exact ⟨rfl, rfl, rfl, rfl, rfl⟩
  | some charge =>
    obtain ⟨-, rfl⟩ := settle_some h
    exact ⟨rfl, rfl, rfl, rfl, rfl⟩

theorem runOperation_rejected {d : Deps} {v : Validated} {cap : Option Int}
    {ledger ledger' : Ledger} {op : Operated}
    (h : runOperation d v cap ledger = .ok op ledger') : op.outcome.rejected = false := by
  rcases runOperation_ok h with hfailed | ⟨_, _, hmoved⟩ | ⟨_, _, sent, _, hinvoked⟩
  · exact hfailed.rejected
  · exact hmoved.rejected
  · rw [hinvoked.operated]
    rfl

/-! ## The application -/

/-- The stages of an application that was not rejected: the ledger after the
bump and the debit, the ledger after the operation, and what the operation
left to settle. -/
structure Accepted (d : Deps) (ledger : Ledger) (envelope : TransactionEnvelope)
    (passphrase : String) (validation : ValidationOptions) (outcome : TxOutcome)
    (ledger' : Ledger) (a : Application) (v : Validated) (debitedLedger operatedLedger : Ledger)
    (op : Operated) : Prop where
  application : envelopeApplication d ledger envelope passphrase validation = .ok a
  validated : validate d ledger a = .ok v
  classic : commitClassic d a v ledger = .ok () debitedLedger
  operated : runOperation d v (a.charge.map fun _ => v.maxRefundable) debitedLedger =
    .ok op operatedLedger
  settled : ∃ inner, settle d v a.charge op operatedLedger = .ok inner ledger' ∧
    outcome = if a.feeBumped then bumpOutcome inner else inner

@[simp] theorem seedFee_code (envelope : TransactionEnvelope) (outcome : TxOutcome) :
    (seedFee envelope outcome).code = outcome.code := by
  simp only [seedFee]
  split <;> rfl

@[simp] theorem seedFee_rejected (envelope : TransactionEnvelope) (outcome : TxOutcome) :
    (seedFee envelope outcome).rejected = outcome.rejected := by
  simp only [seedFee]
  split <;> rfl

theorem seedFee_of_not_rejected (envelope : TransactionEnvelope) {outcome : TxOutcome}
    (h : outcome.rejected = false) : seedFee envelope outcome = outcome := by
  simp [seedFee, h]

@[simp] theorem bumpOutcome_rejected (inner : TxOutcome) :
    (bumpOutcome inner).rejected = inner.rejected := by
  simp only [bumpOutcome]
  split <;> rfl

@[simp] theorem bumpOutcome_ok (inner : TxOutcome) : (bumpOutcome inner).ok = inner.ok := by
  simp only [bumpOutcome]
  split <;> rfl

theorem bumpOutcome_feeCharged {inner : TxOutcome} (h : inner.rejected = false) :
    (bumpOutcome inner).feeCharged = inner.feeCharged := by
  simp [bumpOutcome, h]

/-- The stages of an application, one after the other. -/
theorem applyTransaction_eq (d : Deps) (envelope : TransactionEnvelope) (passphrase : String)
    (validation : ValidationOptions) (ledger : Ledger) :
    applyTransaction d envelope passphrase validation ledger =
      match envelopeApplication d ledger envelope passphrase validation with
      | .error (.reject outcome) => .ok (seedFee envelope outcome) ledger
      | .error (.throws e) => .error e ledger
      | .ok a =>
        match validate d ledger a with
        | .error (.reject inner) =>
          .ok (seedFee envelope (if a.feeBumped then bumpOutcome inner else inner)) ledger
        | .error (.throws e) => .error e ledger
        | .ok v =>
          match commit d a v ledger with
          | .ok inner ledger' =>
            .ok (seedFee envelope (if a.feeBumped then bumpOutcome inner else inner)) ledger'
          | .error e ledger' => .error e ledger' := by
  simp only [applyTransaction, applyEnvelope, applyInner]
  cases envelopeApplication d ledger envelope passphrase validation with
  | error stop => cases stop <;> rfl
  | ok a =>
    simp only
    cases validate d ledger a with
    | error stop => cases stop <;> rfl
    | ok v =>
      simp only
      cases commit d a v ledger <;> rfl

/-- How an application ends: at a check of the envelope, at one of
`applyInner`'s, or in the commit. -/
inductive ApplicationEnd (d : Deps) (ledger : Ledger) (envelope : TransactionEnvelope)
    (passphrase : String) (validation : ValidationOptions) :
    EStateM.Result JsError Ledger TxOutcome → Prop
  | envelopeRejected {o : TxOutcome}
      (happ : envelopeApplication d ledger envelope passphrase validation = .error (.reject o)) :
      ApplicationEnd d ledger envelope passphrase validation (.ok (seedFee envelope o) ledger)
  | envelopeThrew {e : JsError}
      (happ : envelopeApplication d ledger envelope passphrase validation = .error (.throws e)) :
      ApplicationEnd d ledger envelope passphrase validation (.error e ledger)
  | rejected {a : Application} {inner : TxOutcome}
      (happ : envelopeApplication d ledger envelope passphrase validation = .ok a)
      (hval : validate d ledger a = .error (.reject inner)) :
      ApplicationEnd d ledger envelope passphrase validation
        (.ok (seedFee envelope (if a.feeBumped then bumpOutcome inner else inner)) ledger)
  | threw {a : Application} {e : JsError}
      (happ : envelopeApplication d ledger envelope passphrase validation = .ok a)
      (hval : validate d ledger a = .error (.throws e)) :
      ApplicationEnd d ledger envelope passphrase validation (.error e ledger)
  | committed {a : Application} {v : Validated} {inner : TxOutcome} {ledger' : Ledger}
      (happ : envelopeApplication d ledger envelope passphrase validation = .ok a)
      (hval : validate d ledger a = .ok v) (hcommit : commit d a v ledger = .ok inner ledger') :
      ApplicationEnd d ledger envelope passphrase validation
        (.ok (seedFee envelope (if a.feeBumped then bumpOutcome inner else inner)) ledger')
  | commitThrew {a : Application} {v : Validated} {e : JsError} {ledger' : Ledger}
      (happ : envelopeApplication d ledger envelope passphrase validation = .ok a)
      (hval : validate d ledger a = .ok v) (hcommit : commit d a v ledger = .error e ledger') :
      ApplicationEnd d ledger envelope passphrase validation (.error e ledger')

theorem applyTransaction_end (d : Deps) (envelope : TransactionEnvelope) (passphrase : String)
    (validation : ValidationOptions) (ledger : Ledger) :
    ApplicationEnd d ledger envelope passphrase validation
      (applyTransaction d envelope passphrase validation ledger) := by
  rw [applyTransaction_eq]
  cases happ : envelopeApplication d ledger envelope passphrase validation with
  | error stop =>
    cases stop with
    | reject o => exact .envelopeRejected happ
    | throws e => exact .envelopeThrew happ
  | ok a =>
    simp only
    cases hval : validate d ledger a with
    | error stop =>
      cases stop with
      | reject inner => exact .rejected happ hval
      | throws e => exact .threw happ hval
    | ok v =>
      simp only
      cases hcommit : commit d a v ledger with
      | ok inner ledger' => exact .committed happ hval hcommit
      | error e ledger' => exact .commitThrew happ hval hcommit

/-- A commit that returns does not reject. -/
theorem commit_not_rejected {d : Deps} {a : Application} {v : Validated} {ledger ledger' : Ledger}
    {inner : TxOutcome} (h : commit d a v ledger = .ok inner ledger') :
    (if a.feeBumped then bumpOutcome inner else inner).rejected = false := by
  simp only [commit, bind_eq_ok] at h
  obtain ⟨_, _, -, op, _, hop, hsettle⟩ := h
  have hinner : inner.rejected = false :=
    (settle_outcome hsettle).1.trans (runOperation_rejected hop)
  split
  · rw [bumpOutcome_rejected, hinner]
  · exact hinner

/-- A rejection comes from the checks of the envelope or from those of
`applyInner`. -/
theorem applyTransaction_rejected {d : Deps} {ledger ledger' : Ledger}
    {envelope : TransactionEnvelope} {passphrase : String} {validation : ValidationOptions}
    {outcome : TxOutcome}
    (h : applyTransaction d envelope passphrase validation ledger = .ok outcome ledger')
    (hrejected : outcome.rejected = true) :
    (∃ o, envelopeApplication d ledger envelope passphrase validation = .error (.reject o) ∧
      outcome = seedFee envelope o) ∨
    ∃ a inner, envelopeApplication d ledger envelope passphrase validation = .ok a ∧
      validate d ledger a = .error (.reject inner) ∧
      outcome = seedFee envelope (if a.feeBumped then bumpOutcome inner else inner) := by
  have hend := applyTransaction_end d envelope passphrase validation ledger
  rw [h] at hend
  cases hend with
  | envelopeRejected happ => exact .inl ⟨_, happ, rfl⟩
  | rejected happ hval => exact .inr ⟨_, _, happ, hval, rfl⟩
  | committed happ hval hcommit =>
    rw [seedFee_rejected, commit_not_rejected hcommit] at hrejected
    cases hrejected

/-- An application that returns has rejected the envelope and left the ledger
as it was, or it has gone through every stage. -/
theorem applyTransaction_ok {d : Deps} {ledger ledger' : Ledger}
    {envelope : TransactionEnvelope} {passphrase : String} {validation : ValidationOptions}
    {outcome : TxOutcome}
    (h : applyTransaction d envelope passphrase validation ledger = .ok outcome ledger') :
    (outcome.rejected = true ∧ ledger' = ledger) ∨
      (outcome.rejected = false ∧ ∃ a v debitedLedger operatedLedger op,
        Accepted d ledger envelope passphrase validation outcome ledger' a v debitedLedger
          operatedLedger op) := by
  have hend := applyTransaction_end d envelope passphrase validation ledger
  rw [h] at hend
  cases hend with
  | envelopeRejected happ =>
    have hmarked := ((envelopeApplication_rejects ..).marked _ happ).1
    exact .inl ⟨by rw [seedFee_rejected, hmarked], rfl⟩
  | @rejected a inner happ hval =>
    have hmarked : inner.rejected = true :=
      ((validate_rejects (envelopeApplication_ok happ)).marked inner hval).1
    refine .inl ⟨?_, rfl⟩
    rw [seedFee_rejected]
    split
    · rw [bumpOutcome_rejected, hmarked]
    · exact hmarked
  | @committed a v inner _ happ hval hcommit =>
    have hrej := commit_not_rejected hcommit
    simp only [commit, bind_eq_ok] at hcommit
    obtain ⟨_, l₁, hclassic, op, l₂, hop, hsettle⟩ := hcommit
    rw [seedFee_of_not_rejected envelope hrej]
    exact .inr ⟨hrej, a, v, l₁, l₂, op, happ, hval, hclassic, hop, inner, hsettle, rfl⟩

/-! ## XDR -/

/-- The events and the return value of an outcome decode. -/
structure TxOutcome.Decodes (outcome : TxOutcome) : Prop where
  events : ∀ event ∈ outcome.events.getD [], event.decoded.isSome
  returnValue : ∀ value, outcome.returnValue = some value → value.decoded.isSome

theorem TxOutcome.Decodes.of_none {outcome : TxOutcome} (hevents : outcome.events = none)
    (hvalue : outcome.returnValue = none) : outcome.Decodes := by
  refine ⟨fun event hevent => ?_, fun value hreturned => ?_⟩
  · rw [hevents] at hevent
    cases hevent
  · rw [hvalue] at hreturned
    cases hreturned

/-- A footprint operation has no events and no return value. -/
theorem footprintOperated_decodes (arms : FootprintArms) (applied : FootprintOpApplied) :
    (footprintOperated arms applied).outcome.Decodes := by
  simp only [footprintOperated]
  split <;> exact .of_none rfl rfl

/-- What an operation answers: that its source does not exist, the result of a
footprint operation, or that of a host call. -/
theorem runOperation_answers {d : Deps} {v : Validated} {cap : Option Int}
    {ledger ledger' : Ledger} {op : Operated}
    (h : runOperation d v cap ledger = .ok op ledger') :
    op = opNoAccount ∨ (∃ arms applied, op = footprintOperated arms applied) ∨
      ∃ args sent env, ledger.env.send d args = .ok sent env ∧ op = invokeOperated sent := by
  cases hop : v.opAccount with
  | none =>
    simp only [runOperation, hop, pure_eq_ok] at h
    exact .inl h.1.symm
  | some opAccount =>
    cases hbody : v.op.body with
    | classic xdr =>
      simp only [runOperation, hop, hbody] at h
      cases h
    | extendFootprintTtl extendTo =>
      simp only [runOperation, hop, hbody, bind_eq_ok, pure_eq_ok] at h
      obtain ⟨applied, _, -, rfl, -⟩ := h
      exact .inr (.inl ⟨extendArms, applied, rfl⟩)
    | restoreFootprint =>
      simp only [runOperation, hop, hbody, bind_eq_ok, pure_eq_ok] at h
      obtain ⟨applied, _, -, rfl, -⟩ := h
      exact .inr (.inl ⟨restoreArms, applied, rfl⟩)
    | invokeHostFunction hostFunction auth =>
      simp only [runOperation, hop, hbody, bind_eq_ok, pure_eq_ok] at h
      obtain ⟨out, _, hsend, rfl, -⟩ := h
      obtain ⟨env, henv, -⟩ := send_invokeArgs_ok hsend
      exact .inr (.inr ⟨_, out, env, henv, rfl⟩)

theorem runOperation_decodes {d : Deps} (hhost : d.ReturnsXdr) {v : Validated} {cap : Option Int}
    {ledger ledger' : Ledger} {op : Operated}
    (h : runOperation d v cap ledger = .ok op ledger') : op.outcome.Decodes := by
  rcases runOperation_answers h with rfl | ⟨arms, applied, rfl⟩ | ⟨_, sent, _, hsend, rfl⟩
  · exact .of_none rfl rfl
  · exact footprintOperated_decodes arms applied
  · obtain ⟨hevents, hvalue⟩ := send_decodes hhost hsend
    exact ⟨hevents, hvalue⟩

/-- What an accepted transaction leaves to log decodes. -/
theorem Accepted.decodes {d : Deps} (hhost : d.ReturnsXdr) {ledger ledger' l₁ l₂ : Ledger}
    {envelope : TransactionEnvelope} {passphrase : String} {validation : ValidationOptions}
    {outcome : TxOutcome} {a : Application} {v : Validated} {op : Operated}
    (h : Accepted d ledger envelope passphrase validation outcome ledger' a v l₁ l₂ op) :
    outcome.Decodes := by
  obtain ⟨inner, hsettle, rfl⟩ := h.settled
  obtain ⟨-, -, -, hevents, hvalue⟩ := settle_outcome hsettle
  have hop := runOperation_decodes hhost h.operated
  have hinner : inner.Decodes := ⟨by rw [hevents]; exact hop.events,
    by rw [hvalue]; exact hop.returnValue⟩
  split
  · simp only [bumpOutcome]
    split
    · exact ⟨hinner.events, hinner.returnValue⟩
    · exact ⟨hinner.events, hinner.returnValue⟩
  · exact hinner

/-- The account the one operation of an envelope runs as is on the ledger. -/
def OperationSourceExists (ledger : Ledger) (envelope : TransactionEnvelope) : Prop :=
  ∃ raw op account, envelope.innerTx? = some raw ∧ raw.operations = [op] ∧
    loadAccount ledger ((op.sourceAccount.map muxedToAccountId).getD raw.sourceId) =
      .ok (some account)

/-- The operation source the checks hand over is the stored one. -/
theorem Accepted.operationSource {d : Deps} {ledger ledger' l₁ l₂ : Ledger}
    {envelope : TransactionEnvelope} {passphrase : String} {validation : ValidationOptions}
    {outcome : TxOutcome} {a : Application} {v : Validated} {op : Operated}
    (h : Accepted d ledger envelope passphrase validation outcome ledger' a v l₁ l₂ op) :
    OperationSourceExists ledger envelope ↔ v.opAccount.isSome := by
  obtain ⟨c₁, c₂, hpassed⟩ := validate_ok h.validated
  have hinner := (envelopeApplication_ok h.application).innerTx
  have hone := (checkShape_ok hpassed.shape).1
  have hload : loadAccount ledger
      ((v.op.sourceAccount.map muxedToAccountId).getD a.raw.sourceId) = .ok v.opAccount := by
    have hsource := (loadSources_ok hpassed.sources).2.2
    unfold Operation.sourceId at hsource
    cases hop : v.op.sourceAccount with
    | none => simpa [hop] using hsource
    | some source => simpa [hop] using hsource
  constructor
  · rintro ⟨raw, op, account, hraw, hop, haccount⟩
    cases hinner.symm.trans hraw
    cases hone.symm.trans hop
    rw [Except.ok.inj (hload.symm.trans haccount)]
    rfl
  · intro hsome
    obtain ⟨account, haccount⟩ := Option.isSome_iff_exists.mp hsome
    exact ⟨a.raw, v.op, account, hinner, hone, by rw [hload, haccount]⟩

/-- An application that throws has left the ledger as it was, or every check
had passed. -/
theorem applyTransaction_error {d : Deps} {ledger ledger' : Ledger}
    {envelope : TransactionEnvelope} {passphrase : String} {validation : ValidationOptions}
    {e : JsError}
    (h : applyTransaction d envelope passphrase validation ledger = .error e ledger') :
    ledger' = ledger ∨ ∃ a v,
      envelopeApplication d ledger envelope passphrase validation = .ok a ∧
      validate d ledger a = .ok v ∧ commit d a v ledger = .error e ledger' := by
  have hend := applyTransaction_end d envelope passphrase validation ledger
  rw [h] at hend
  cases hend with
  | envelopeThrew happ => exact .inl rfl
  | threw happ hval => exact .inl rfl
  | commitThrew happ hval hcommit => exact .inr ⟨_, _, happ, hval, hcommit⟩

end LiteSoroban

import Mathlib.Data.Int.ConditionallyCompleteOrder
import Mathlib.Order.ConditionallyCompleteLattice.Finset
import LiteSoroban.Classic.Atomicity
import LiteSoroban.Session.Machine

/-!
# No transaction is applied twice

In a session that checks sequence numbers and rolls nothing back, the sequence
number of an account is a counter that only climbs.  A transaction that is
accepted finds the counter of its source below its own number and leaves it
there, so the same transaction is not accepted again, in whatever envelope it
travels.

The argument itself is `Machine.ReplayGuard`.  This module shows that a
session is one.
-/

namespace LiteSoroban

open Effect

/-- What an operation applies: the envelope, the passphrase and the
switches. -/
def SessionOp.application (d : Deps) (rpc : Rpc) :
    SessionOp → Option (TransactionEnvelope × String × ValidationOptions)
  | .applyTransaction envelope passphrase validation => some (envelope, passphrase, validation)
  | .request (.sendTransaction envelope) =>
    match Rpc.envelopeHashes d rpc.ledger.networkPassphrase envelope with
    | .ok _ => some (envelope, rpc.ledger.networkPassphrase, rpc.validation)
    | .error _ => none
  | _ => none

/-- The transaction an operation applies and the ledger accepts: the inner
one, when a fee bump wraps it. -/
def accepted (d : Deps) (rpc : Rpc) (op : SessionOp) : Option Transaction :=
  match op.application d rpc with
  | none => none
  | some (envelope, passphrase, validation) =>
    match applyTransaction d envelope passphrase validation rpc.ledger with
    | .ok outcome _ => if outcome.rejected then none else envelope.innerTx?
    | .error _ _ => none

/-- The sequence number an operation uses up. -/
def spends (d : Deps) (rpc : Rpc) (op : SessionOp) : Option (AccountId × Int) :=
  (accepted d rpc op).map fun raw => (raw.sourceId, raw.seqNum)

/-- The operation checks sequence numbers, and is not a rollback. -/
def SequenceChecked (rpc : Rpc) : SessionOp → Prop
  | .applyTransaction _ _ validation => validation.sequenceCheck = true
  | .request (.sendTransaction _) => rpc.validation.sequenceCheck = true
  | .restore _ => False
  | _ => True

/-- What an application leaves of the store, whether it was called directly or
by a submission. -/
theorem next_application {d : Deps} {rpc : Rpc} {op : SessionOp} {envelope : TransactionEnvelope}
    {passphrase : String} {validation : ValidationOptions}
    (h : op.application d rpc = some (envelope, passphrase, validation)) :
    ((session d).next rpc op).ledger.store =
      (finalState (applyTransaction d envelope passphrase validation rpc.ledger)).store := by
  cases op with
  | applyTransaction e p v =>
    cases h
    rw [session_next_applyTransaction]
  | request request =>
    cases request with
    | sendTransaction e =>
      simp only [SessionOp.application] at h
      cases hhashes : Rpc.envelopeHashes d rpc.ledger.networkPassphrase e with
      | error err => simp [hhashes] at h
      | ok hashes =>
        simp only [hhashes] at h
        cases h
        rw [session_next_request, Rpc.handle_sendTransaction]
        cases hsend : Rpc.sendTransaction d envelope rpc with
        | ok response rpc' =>
          obtain ⟨_, _, outcome, ledger, _, happly, ⟨_, rfl, rfl, _⟩ | ⟨_, hrecorded, _⟩⟩ :=
            sendTransaction_ok hsend
          · rw [happly]
            rfl
          · rw [happly, finalState_ok, finalState_ok, hrecorded.ledger]
            rfl
        | error err rpc' =>
          rcases sendTransaction_error hsend with ⟨_, hthrew⟩ | ⟨logged, rfl⟩
          · rw [hhashes] at hthrew
            cases hthrew
          · rfl
    | _ => cases h
  | _ => cases h

/-- An operation that applies nothing keeps every sequence number, unless it
rolls back. -/
theorem next_seqKept {d : Deps} {rpc : Rpc} {op : SessionOp} (hkeyed : rpc.ledger.store.Keyed)
    (hop : SequenceChecked rpc op) (h : op.application d rpc = none) :
    SeqKept rpc.ledger ((session d).next rpc op).ledger := by
  cases op with
  | applyTransaction e p v => cases h
  | advanceLedgers n => exact .of_store hkeyed rfl
  | setTimestamp t => exact .of_store hkeyed rfl
  | snapshot =>
    rw [session_next_snapshot]
    rcases rpc.ledger.snapshot_final with hfinal | hfinal
    · rw [hfinal]
      exact .of_store hkeyed rfl
    · rw [hfinal]
      exact .of_store hkeyed rfl
  | restore id => exact hop.elim
  | request request =>
    rw [session_next_request]
    cases hwrites : request.writes with
    | false =>
      obtain ⟨counter, hsame⟩ := handle_read d hwrites rpc
      rw [hsame]
      exact .of_store hkeyed rfl
    | true =>
      cases request with
      | friendbot addr =>
        rw [Rpc.handle_friendbot]
        rcases friendbot_final d addr rpc with hsame | ⟨hnew, hfunded⟩
        · rw [hsame]
          exact .of_store hkeyed rfl
        · rw [hfunded]
          refine ⟨rpc.ledger.withAccount_keyed hkeyed _, fun id b hb => ?_⟩
          have hne : id ≠ (friendbotAccount addr).accountId := by
            intro hid
            have hid : id = addr := hid
            rw [hid, Store.seqNum?, hnew] at hb
            cases hb
          simp only [Store.seqNum?, Ledger.account?_withAccount, if_neg hne]
          exact hb
      | sendTransaction e =>
        simp only [SessionOp.application] at h
        rw [Rpc.handle_sendTransaction]
        cases hhashes : Rpc.envelopeHashes d rpc.ledger.networkPassphrase e with
        | ok hashes => simp [hhashes] at h
        | error err =>
          have hsend : Rpc.sendTransaction d e rpc = .error err rpc := by
            simp only [Rpc.sendTransaction, hhashes]
          rw [hsend]
          exact .of_store hkeyed rfl
      | _ => cases hwrites

/-- The switches of an application are those its operation is checked for. -/
theorem SequenceChecked.validation {d : Deps} {rpc : Rpc} {op : SessionOp}
    {envelope : TransactionEnvelope} {passphrase : String} {validation : ValidationOptions}
    (hop : SequenceChecked rpc op)
    (h : op.application d rpc = some (envelope, passphrase, validation)) :
    validation.sequenceCheck = true := by
  cases op with
  | applyTransaction e p v =>
    cases h
    exact hop
  | request request =>
    cases request with
    | sendTransaction e =>
      simp only [SessionOp.application] at h
      split at h
      · cases h
        exact hop
      · cases h
    | _ => cases h
  | _ => cases h

/-- An operation loses and lowers no sequence number. -/
theorem next_climbs {d : Deps} (hhost : d.ReturnsKeyed) (hseq : d.KeepsSequences) {rpc : Rpc}
    {op : SessionOp} (hkeyed : rpc.ledger.store.Keyed) (hop : SequenceChecked rpc op) :
    SeqClimbs rpc.ledger ((session d).next rpc op).ledger := by
  cases h : op.application d rpc with
  | none => exact (next_seqKept hkeyed hop h).climbs
  | some application =>
    obtain ⟨envelope, passphrase, validation⟩ := application
    have hclimbs := applyTransaction_climbs hhost hseq hkeyed envelope passphrase validation
    have hstore := next_application h
    exact ⟨hstore ▸ hclimbs.keyed, fun id b hb => hstore ▸ hclimbs.climbs id b hb⟩

/-- An operation that has a transaction accepted uses up its sequence
number. -/
theorem next_seqSpent {d : Deps} (hhost : d.ReturnsKeyed) (hseq : d.KeepsSequences) {rpc : Rpc}
    {op : SessionOp} (hkeyed : rpc.ledger.store.Keyed) (hop : SequenceChecked rpc op)
    {raw : Transaction} (h : accepted d rpc op = some raw) :
    SeqSpent rpc.ledger ((session d).next rpc op).ledger raw := by
  simp only [accepted] at h
  cases happlication : op.application d rpc with
  | none => simp [happlication] at h
  | some application =>
    obtain ⟨envelope, passphrase, validation⟩ := application
    simp only [happlication] at h
    cases happly : applyTransaction d envelope passphrase validation rpc.ledger with
    | error e ledger => simp [happly] at h
    | ok outcome ledger =>
      simp only [happly] at h
      cases hrejected : outcome.rejected with
      | true => simp [hrejected] at h
      | false =>
        rw [hrejected] at h
        obtain ⟨raw', hraw, hspent⟩ := applyTransaction_seqSpent hhost hseq hkeyed
          (hop.validation happlication) happly hrejected
        have : raw' = raw := Option.some.inj (hraw.symm.trans h)
        subst this
        have hstore := next_application happlication
        rw [happly, finalState_ok] at hstore
        exact ⟨hspent.below, hstore ▸ hspent.lands, fun id b hid hb =>
          hstore ▸ hspent.others id b hid hb⟩

/-- A session is a replay guard: its counters are the sequence numbers. -/
theorem session_replayGuard {d : Deps} (hhost : d.ReturnsKeyed) (hseq : d.KeepsSequences) :
    (session d).ReplayGuard (fun rpc => rpc.ledger.store.Keyed) SequenceChecked
      (fun rpc id => rpc.ledger.store.seqNum? id) (spends d) where
  inv _ _ hkeyed hop := (next_climbs hhost hseq hkeyed hop).keyed
  climbs _ _ id b hkeyed hop hb := (next_climbs hhost hseq hkeyed hop).climbs id b hb
  below rpc op id b hkeyed hop hspends := by
    obtain ⟨raw, hraw, hpair⟩ := Option.map_eq_some_iff.mp hspends
    cases hpair
    exact (next_seqSpent hhost hseq hkeyed hop hraw).below
  lands rpc op id b hkeyed hop hspends := by
    obtain ⟨raw, hraw, hpair⟩ := Option.map_eq_some_iff.mp hspends
    cases hpair
    exact (next_seqSpent hhost hseq hkeyed hop hraw).lands

/-- **Replay safety.**  In a session that checks sequence numbers, no sequence
number is ever lost or lower, an accepted transaction spends exactly its own,
and no transaction is accepted twice. -/
theorem session_replaySafe {d : Deps} (hhost : d.ReturnsKeyed) (hseq : d.KeepsSequences)
    {rpc : Rpc} (hkeyed : rpc.ledger.store.Keyed) {ops : List SessionOp}
    (hops : (session d).AllSteps SequenceChecked rpc ops) :
    (∀ before after, ops = before ++ after → ∀ id b,
      ((session d).run rpc before).ledger.store.seqNum? id = some b →
      ∃ b', ((session d).run rpc ops).ledger.store.seqNum? id = some b' ∧ b ≤ b') ∧
    (∀ before op after raw, ops = before ++ op :: after →
      accepted d ((session d).run rpc before) op = some raw →
      SeqSpent ((session d).run rpc before).ledger
        ((session d).next ((session d).run rpc before) op).ledger raw) ∧
    (∀ before op between again after raw, ops = before ++ op :: between ++ again :: after →
      accepted d ((session d).run rpc before) op = some raw →
      accepted d ((session d).run rpc (before ++ op :: between)) again ≠ some raw) := by
  have hguard := session_replayGuard hhost hseq
  have hsplit : ∀ {before after}, ops = before ++ after →
      ((session d).run rpc before).ledger.store.Keyed ∧
        (session d).AllSteps SequenceChecked ((session d).run rpc before) after := by
    rintro before after rfl
    obtain ⟨hbefore, hafter⟩ := (Machine.allSteps_append _).mp hops
    exact ⟨Machine.invariant_run _ hguard.inv hkeyed hbefore, hafter⟩
  refine ⟨fun before after heq id b hb => ?_, fun before op after raw heq hraw => ?_,
    fun before op between again after raw heq hraw hagain => ?_⟩
  · obtain ⟨hkeyed', hafter⟩ := hsplit heq
    rw [heq, Machine.run_append]
    exact hguard.climbs_run hkeyed' hafter hb
  · obtain ⟨hkeyed', hop, -⟩ := hsplit heq
    exact next_seqSpent hhost hseq hkeyed' hop hraw
  · obtain ⟨hkeyed', hop, hrest⟩ := hsplit (heq.trans (List.append_assoc ..))
    obtain ⟨hbetween, hagainOp, -⟩ := (Machine.allSteps_append _).mp hrest
    rw [Machine.run_append] at hagain
    refine hguard.spends_once hkeyed' hop hbetween hagainOp (x := (raw.sourceId, raw.seqNum)) ?_ ?_
    · rw [spends, hraw]
      rfl
    · rw [spends]
      exact congrArg _ hagain

/-- Applied plainly, and then submitted again in a fee bump. -/
theorem session_replaySafe_bump :
    accepted .idle
      ((session .idle).run (attachInProcessRpc ((sampleLedger 7).withAccount (sampleAccount 8)) {})
        [.applyTransaction (.envelopeTypeTx (sampleEnvelope 7 1 none)) "" {}])
      (.request (.sendTransaction (.envelopeTypeTxFeeBump (sampleFeeBump 7 8 5000)))) ≠
        some (sampleEnvelope 7 1 none).tx := by
  have hseq : Deps.idle.KeepsSequences := fun input ch _ h => absurd h (idle_returns input ch)
  have hkeyed : (attachInProcessRpc ((sampleLedger 7).withAccount (sampleAccount 8))
      {}).ledger.store.Keyed := Ledger.withAccount_keyed (sampleLedger_keyed 7) _
  have hops : (session .idle).AllSteps SequenceChecked
      (attachInProcessRpc ((sampleLedger 7).withAccount (sampleAccount 8)) {})
      [.applyTransaction (.envelopeTypeTx (sampleEnvelope 7 1 none)) "" {},
        .request (.sendTransaction (.envelopeTypeTxFeeBump (sampleFeeBump 7 8 5000)))] :=
    ⟨rfl, rfl, trivial⟩
  exact (session_replaySafe idle_returnsKeyed hseq hkeyed hops).2.2 [] _ [] _ [] _ rfl rfl

end LiteSoroban

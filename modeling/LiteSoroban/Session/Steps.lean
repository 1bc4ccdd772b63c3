import LiteSoroban.Classic.Frame
import LiteSoroban.Session.Machine

/-!
# What an operation of a session can do

`session_next_cases` says it once: an operation records one transaction, takes
a snapshot, restores one, or is quiet.  A quiet operation can still write the
store, the clock and the PRNG counter.
-/

namespace LiteSoroban

open Effect

/-- Nothing is recorded, the snapshots are what they were, and the ledger
sequence is not lower. -/
structure Rpc.Quiet (d : Deps) (rpc rpc' : Rpc) : Prop where
  submitted : rpc'.submitted = rpc.submitted
  /-- A submission that throws on XDR that does not decode has logged the
  events before it. -/
  eventLog : d.ReturnsXdr → rpc'.eventLog = rpc.eventLog
  validation : rpc'.validation = rpc.validation
  passphrase : rpc'.ledger.networkPassphrase = rpc.ledger.networkPassphrase
  snapshots : rpc'.ledger.env.snapshots = rpc.ledger.env.snapshots
  ledgerSeq : rpc.ledger.ledgerSeq ≤ u32Max →
    rpc.ledger.ledgerSeq ≤ rpc'.ledger.ledgerSeq ∧ rpc'.ledger.ledgerSeq ≤ u32Max

/-- A ledger with another store and module cache leaves the logs quiet. -/
theorem Rpc.Quiet.of_storeOnly {d : Deps} {rpc : Rpc} {ledger : Ledger}
    (h : rpc.ledger.StoreOnly ledger) : rpc.Quiet d { rpc with ledger := ledger } := by
  obtain ⟨store, cache, rfl⟩ := h
  exact ⟨rfl, fun _ => rfl, rfl, rfl, rfl, fun hword => ⟨le_rfl, hword⟩⟩

theorem Rpc.Quiet.refl (d : Deps) (rpc : Rpc) : rpc.Quiet d rpc :=
  .of_storeOnly (refl_of Ledger.StoreOnly rpc.ledger)

/-- The operation takes a snapshot, for which there is room. -/
def Rpc.takesSnapshot (rpc : Rpc) : SessionOp → Bool
  | .snapshot => rpc.ledger.env.snapshots.length < u32Max
  | _ => false

/-- A submission that was applied and recorded. -/
structure Submission (d : Deps) (rpc : Rpc) (envelope : TransactionEnvelope) (txHash innerHash : Hash)
    (outcome : TxOutcome) (ledger : Ledger) (rpc' : Rpc) : Prop where
  hashes : Rpc.envelopeHashes d rpc.ledger.networkPassphrase envelope = .ok (txHash, innerHash)
  applied : applyTransaction d envelope rpc.ledger.networkPassphrase rpc.validation rpc.ledger =
    .ok outcome ledger
  accepted : outcome.rejected = false
  recorded : Recorded d { rpc with ledger := ledger } envelope txHash outcome
    (transactionResult d outcome innerHash) rpc'

/-- What was applied wrote the store and the module cache at most. -/
theorem Submission.storeOnly {d : Deps} {rpc rpc' : Rpc} {envelope : TransactionEnvelope}
    {txHash innerHash : Hash} {outcome : TxOutcome} {ledger : Ledger}
    (h : Submission d rpc envelope txHash innerHash outcome ledger rpc') :
    rpc.ledger.StoreOnly ledger := by
  have hstores := applyTransaction_storesOnly d envelope rpc.ledger.networkPassphrase
    rpc.validation rpc.ledger
  rwa [h.applied] at hstores

/-- The ledger the transaction applied in closes, unless it is the last there
is. -/
theorem Submission.ledgerSeq {d : Deps} {rpc rpc' : Rpc} {envelope : TransactionEnvelope}
    {txHash innerHash : Hash} {outcome : TxOutcome} {ledger : Ledger}
    (h : Submission d rpc envelope txHash innerHash outcome ledger rpc')
    (hword : rpc.ledger.ledgerSeq < u32Max) :
    rpc'.ledger.ledgerSeq = rpc.ledger.ledgerSeq + 1 := by
  rw [h.recorded.ledger]
  obtain ⟨store, cache, rfl⟩ := h.storeOnly
  exact min_eq_left hword

/-- The record of a submission and its events are of the ledger it applied
in. -/
theorem Submission.logs {d : Deps} {rpc rpc' : Rpc} {envelope : TransactionEnvelope}
    {txHash innerHash : Hash} {outcome : TxOutcome} {ledger : Ledger}
    (h : Submission d rpc envelope txHash innerHash outcome ledger rpc') :
    ∃ tx logged, rpc'.submitted = rpc.submitted.set txHash tx ∧ tx.hash = txHash ∧
      tx.envelope = envelope ∧ tx.outcome = outcome ∧ tx.ledger = rpc.ledger.ledgerSeq ∧
      rpc'.eventLog = rpc.eventLog ++ logged ∧
      LogsAll d rpc.ledger.ledgerSeq txHash 0 (outcome.events.getD []) logged := by
  obtain ⟨logged, hlogged, hevents⟩ := h.recorded.events
  obtain ⟨resultMeta, -, hsubmitted⟩ := h.recorded.submitted
  obtain ⟨store, cache, rfl⟩ := h.storeOnly
  exact ⟨_, logged, hsubmitted, rfl, rfl, rfl, rfl, hevents, hlogged⟩

/-- An operation records a transaction, takes a snapshot, restores one, or
leaves the logs quiet. -/
theorem session_next_cases (d : Deps) (rpc : Rpc) (op : SessionOp) :
    (∃ envelope txHash innerHash outcome ledger, op = .request (.sendTransaction envelope) ∧
      Submission d rpc envelope txHash innerHash outcome ledger ((session d).next rpc op)) ∨
    (rpc.takesSnapshot op = true ∧
      (session d).next rpc op = { rpc with ledger := rpc.ledger.withSnapshot }) ∨
    (∃ id snap, op = .restore id ∧ rpc.ledger.env.snapshots[toUint32 id]? = some snap ∧
      (session d).next rpc op =
        { rpc with ledger := { rpc.ledger with env := rpc.ledger.env.restoreFrom snap } }) ∨
    (rpc.takesSnapshot op = false ∧ rpc.Quiet d ((session d).next rpc op)) := by
  cases op with
  | snapshot =>
    rw [session_next_snapshot]
    unfold Rpc.takesSnapshot Ledger.snapshot
    split
    · next hroom => exact .inr (.inl ⟨decide_eq_true hroom, rfl⟩)
    · next hfull => exact .inr (.inr (.inr ⟨decide_eq_false hfull, .refl d rpc⟩))
  | advanceLedgers n =>
    refine .inr (.inr (.inr ⟨rfl, rfl, fun _ => rfl, rfl, rfl, rfl, fun hword => ?_⟩))
    have hle : rpc.ledger.env.ledgerSeq ≤ rpc.ledger.env.ledgerSeq + toUint32 n :=
      Nat.le_add_right _ _
    exact ⟨le_min hle hword, min_le_right _ _⟩
  | setTimestamp t =>
    exact .inr (.inr (.inr ⟨rfl, rfl, fun _ => rfl, rfl, rfl, rfl, fun hword => ⟨le_rfl, hword⟩⟩))
  | applyTransaction envelope passphrase validation =>
    rw [session_next_applyTransaction]
    exact .inr (.inr (.inr ⟨rfl, .of_storeOnly
      (applyTransaction_storesOnly d envelope passphrase validation rpc.ledger)⟩))
  | restore id =>
    rw [session_next_restore]
    simp only [Ledger.restore, SorobanEnv.restore]
    cases hsnap : rpc.ledger.env.snapshots[toUint32 id]? with
    | none => exact .inr (.inr (.inr ⟨rfl, .refl d rpc⟩))
    | some snap => exact .inr (.inr (.inl ⟨id, snap, rfl, hsnap, rfl⟩))
  | request request =>
    rw [session_next_request]
    cases hwrites : request.writes with
    | false =>
      obtain ⟨counter, hsame⟩ := handle_read d hwrites rpc
      rw [hsame]
      exact .inr (.inr (.inr ⟨rfl, rfl, fun _ => rfl, rfl, rfl, rfl, fun hword => ⟨le_rfl, hword⟩⟩))
    | true =>
      cases request with
      | friendbot addr =>
        rw [Rpc.handle_friendbot]
        rcases friendbot_final d addr rpc with hsame | ⟨-, hfunded⟩
        · rw [hsame]
          exact .inr (.inr (.inr ⟨rfl, .refl d rpc⟩))
        · rw [hfunded]
          exact .inr (.inr (.inr ⟨rfl, rfl, fun _ => rfl, rfl, rfl, rfl, fun hword => ⟨le_rfl, hword⟩⟩))
      | sendTransaction envelope =>
        rw [Rpc.handle_sendTransaction]
        cases hsend : Rpc.sendTransaction d envelope rpc with
        | ok response rpc' =>
          obtain ⟨txHash, innerHash, outcome, ledger, hhashes, happly, hdone⟩ :=
            sendTransaction_ok hsend
          rcases hdone with ⟨-, -, rfl, -⟩ | ⟨haccepted, hrecorded, -⟩
          · exact .inr (.inr (.inr ⟨rfl, .refl d _⟩))
          · exact .inl ⟨envelope, txHash, innerHash, outcome, ledger, rfl, hhashes, happly,
              haccepted, hrecorded⟩
        | error e rpc' =>
          refine .inr (.inr (.inr ⟨rfl, ?_⟩))
          have hlogged : d.ReturnsXdr → rpc'.eventLog = rpc.eventLog := by
            intro hhost
            rcases sendTransaction_error_of_decodes hhost hsend with rfl | rfl <;> rfl
          rcases sendTransaction_error hsend with ⟨rfl, -⟩ | ⟨logged, rfl⟩
          · exact .refl d _
          · have hquiet : rpc.Quiet d _ := .of_storeOnly
              (applyTransaction_storesOnly d envelope rpc.ledger.networkPassphrase rpc.validation
                rpc.ledger)
            exact ⟨rfl, hlogged, rfl, hquiet.passphrase, hquiet.snapshots, hquiet.ledgerSeq⟩
      | _ => cases hwrites

end LiteSoroban

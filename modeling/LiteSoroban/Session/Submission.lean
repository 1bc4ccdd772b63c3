import LiteSoroban.Session.Replay
import LiteSoroban.Session.Steps

/-!
# Submissions

What a client of `sendTransaction` can rely on, over a whole run.  A submission
is refused and leaves no trace, or it is recorded once, under its hash, in the
ledger that then closes.

That no record is ever written over is replay protection.  A hash is of a
transaction, a transaction carries a sequence number of its source, and the
counter of the source has reached the number of every recorded transaction:
`Recorder` is that invariant.

`session_submissions` is the result.
-/

namespace LiteSoroban

open Effect

/-! ## Hashes -/

/-- What the hash of an envelope is of.  Signatures are not part of it.  An
envelope from before protocol 13 has the hash of the envelope it would be
today, and is never accepted. -/
def TransactionEnvelope.payload? :
    TransactionEnvelope → Option (Transaction ⊕ FeeBumpTransaction)
  | .envelopeTypeTxV0 _ => none
  | .envelopeTypeTx v1 => some (.inl v1.tx)
  | .envelopeTypeTxFeeBump feeBump => some (.inr feeBump.tx)

/-- The hashes of the submitted transactions do not collide. -/
def HashesApart (d : Deps) (passphrase : String) (ops : List SessionOp) : Prop :=
  ∀ e e' payload payload' hash inner inner',
    .request (.sendTransaction e) ∈ ops → .request (.sendTransaction e') ∈ ops →
    e.payload? = some payload → e'.payload? = some payload' →
    Rpc.envelopeHashes d passphrase e = .ok (hash, inner) →
    Rpc.envelopeHashes d passphrase e' = .ok (hash, inner') → payload = payload'

/-- The transaction a payload applies. -/
def payloadTx : Transaction ⊕ FeeBumpTransaction → Transaction :=
  Sum.elim id fun feeBump => feeBump.innerTx.tx

theorem innerTx?_eq_payload? (e : TransactionEnvelope) : e.innerTx? = e.payload?.map payloadTx := by
  cases e <;> rfl

/-! ## The records -/

/-- The operation checks sequence numbers, is not a rollback, and finds a
ledger that can close. -/
def Submitting (rpc : Rpc) (op : SessionOp) : Prop :=
  SequenceChecked rpc op ∧ rpc.ledger.ledgerSeq < u32Max

/-- A record of the transaction map: its transaction was submitted in the run,
hashes to its key, and has spent its sequence number. -/
structure RecordSound (d : Deps) (passphrase : String) (ops : List SessionOp) (rpc : Rpc)
    (hash : Hash) (tx : SubmittedTx) : Prop where
  named : tx.hash = hash
  submitted : .request (.sendTransaction tx.envelope) ∈ ops
  hashes : ∃ inner, Rpc.envelopeHashes d passphrase tx.envelope = .ok (hash, inner)
  spent : ∃ raw b, tx.envelope.innerTx? = some raw ∧
    rpc.ledger.store.seqNum? raw.sourceId = some b ∧ raw.seqNum ≤ b
  closed : tx.ledger < rpc.ledger.ledgerSeq

/-- What every run of submissions keeps. -/
structure Recorder (d : Deps) (passphrase : String) (ops : List SessionOp) (rpc : Rpc) : Prop where
  keyed : rpc.ledger.store.Keyed
  network : rpc.ledger.networkPassphrase = passphrase
  word : rpc.ledger.ledgerSeq ≤ u32Max
  records : ∀ hash tx, (hash, tx) ∈ rpc.submitted.entries →
    RecordSound d passphrase ops rpc hash tx
  ledgers : (rpc.submitted.values.map (·.ledger)).Pairwise (· < ·)

/-- A transaction that can still be applied is not recorded. -/
theorem Recorder.fresh {d : Deps} {passphrase : String} {ops : List SessionOp} {rpc : Rpc}
    (h : Recorder d passphrase ops rpc) (hapart : HashesApart d passphrase ops)
    {envelope : TransactionEnvelope} {hash inner : Hash} {raw : Transaction}
    (hin : .request (.sendTransaction envelope) ∈ ops)
    (hhashes : Rpc.envelopeHashes d passphrase envelope = .ok (hash, inner))
    (hraw : envelope.innerTx? = some raw)
    (hbelow : ∃ before, rpc.ledger.store.seqNum? raw.sourceId = some before ∧ before < raw.seqNum) :
    rpc.submitted.get hash = none := by
  cases hget : rpc.submitted.get hash with
  | none => rfl
  | some tx =>
    obtain ⟨-, hin', ⟨inner', hhashes'⟩, ⟨raw', b, hraw', hb, hle⟩, -⟩ :=
      h.records hash tx (InsertionMap.mem_entries_of_get hget)
    rw [innerTx?_eq_payload?] at hraw hraw'
    obtain ⟨payload, hpayload, rfl⟩ := Option.map_eq_some_iff.mp hraw
    obtain ⟨payload', hpayload', rfl⟩ := Option.map_eq_some_iff.mp hraw'
    have hsame : payload = payload' :=
      hapart _ _ _ _ _ _ _ hin hin' hpayload hpayload' hhashes hhashes'
    subst hsame
    obtain ⟨before, hbefore, hlt⟩ := hbelow
    cases hb.symm.trans hbefore
    exact absurd hlt (not_lt.mpr hle)

/-- A submission that is recorded has spent the sequence number of its
transaction. -/
theorem Submission.seqSpent {d : Deps} (hhost : d.ReturnsKeyed) (hseq : d.KeepsSequences)
    {rpc : Rpc} (hkeyed : rpc.ledger.store.Keyed) {envelope : TransactionEnvelope}
    {txHash innerHash : Hash} {outcome : TxOutcome} {ledger : Ledger} {rpc' : Rpc}
    (hcheck : rpc.validation.sequenceCheck = true)
    (h : Submission d rpc envelope txHash innerHash outcome ledger rpc') :
    ∃ raw, envelope.innerTx? = some raw ∧ SeqSpent rpc.ledger rpc'.ledger raw := by
  obtain ⟨raw, hraw, hspent⟩ :=
    applyTransaction_seqSpent hhost hseq hkeyed hcheck h.applied h.accepted
  have hstore : rpc'.ledger.store = ledger.store := by
    rw [h.recorded.ledger]
    rfl
  exact ⟨raw, hraw, hspent.below, hstore ▸ hspent.lands,
    fun id b hid hb => hstore ▸ hspent.others id b hid hb⟩

/-- A record stays sound while sequence numbers and ledgers climb. -/
theorem RecordSound.climbs {d : Deps} {passphrase : String} {ops : List SessionOp} {rpc rpc' : Rpc}
    {hash : Hash} {tx : SubmittedTx} (h : RecordSound d passphrase ops rpc hash tx)
    (hclimbs : SeqClimbs rpc.ledger rpc'.ledger)
    (hle : rpc.ledger.ledgerSeq ≤ rpc'.ledger.ledgerSeq) :
    RecordSound d passphrase ops rpc' hash tx := by
  obtain ⟨raw, b, hraw, hb, hspent⟩ := h.spent
  obtain ⟨b', hb', hb_le⟩ := hclimbs.climbs raw.sourceId b hb
  exact ⟨h.named, h.submitted, h.hashes, ⟨raw, b', hraw, hb', hspent.trans hb_le⟩,
    h.closed.trans_le hle⟩

/-- A submission that is recorded goes to the end of the map. -/
theorem Recorder.appended {d : Deps} (hhost : d.ReturnsKeyed) (hseq : d.KeepsSequences)
    {passphrase : String} {ops : List SessionOp} (hapart : HashesApart d passphrase ops)
    {rpc : Rpc} (h : Recorder d passphrase ops rpc)
    (hcheck : rpc.validation.sequenceCheck = true) {envelope : TransactionEnvelope}
    (hin : .request (.sendTransaction envelope) ∈ ops)
    {txHash innerHash : Hash} {outcome : TxOutcome} {ledger : Ledger} {rpc' : Rpc}
    (hsubmission : Submission d rpc envelope txHash innerHash outcome ledger rpc') :
    rpc.submitted.get txHash = none := by
  obtain ⟨raw, hraw, hspent⟩ := hsubmission.seqSpent hhost hseq h.keyed hcheck
  have hhashes := hsubmission.hashes
  rw [h.network] at hhashes
  exact h.fresh hapart hin hhashes hraw hspent.below

/-- Every operation of a run keeps the records. -/
theorem Recorder.next {d : Deps} (hhost : d.ReturnsKeyed) (hseq : d.KeepsSequences)
    {passphrase : String} {ops : List SessionOp} (hapart : HashesApart d passphrase ops)
    {rpc : Rpc} (h : Recorder d passphrase ops rpc) {op : SessionOp} (hin : op ∈ ops)
    (hop : Submitting rpc op) : Recorder d passphrase ops ((session d).next rpc op) := by
  have hclimbs := next_climbs hhost hseq h.keyed hop.1
  rcases session_next_cases d rpc op with
    ⟨envelope, txHash, innerHash, outcome, ledger, rfl, hsubmission⟩ | ⟨-, hsnapshot⟩ |
    ⟨id, snap, rfl, -, -⟩ | ⟨-, hquiet⟩
  · have hledgerSeq := hsubmission.ledgerSeq hop.2
    have hfresh := h.appended hhost hseq hapart hop.1 hin hsubmission
    obtain ⟨raw, hraw, hspent⟩ := hsubmission.seqSpent hhost hseq h.keyed hop.1
    obtain ⟨tx, logged, hsubmitted, hhash, henvelope, -, htx, -, -⟩ := hsubmission.logs
    refine ⟨hclimbs.keyed, ?_, by rw [hledgerSeq]; exact hop.2, fun hash tx' htx' => ?_, ?_⟩
    · rw [hsubmission.recorded.ledger]
      obtain ⟨store, cache, rfl⟩ := hsubmission.storeOnly
      exact h.network
    · rw [hsubmitted, InsertionMap.entries_set_of_get_eq_none hfresh, List.mem_append] at htx'
      rcases htx' with hold | hnew
      · exact (h.records hash tx' hold).climbs hclimbs (by rw [hledgerSeq]; exact Nat.le_succ _)
      · cases List.mem_singleton.mp hnew
        have hhashes := hsubmission.hashes
        rw [h.network] at hhashes
        refine ⟨hhash, henvelope ▸ hin, ⟨innerHash, henvelope ▸ hhashes⟩,
          ⟨raw, raw.seqNum, henvelope ▸ hraw, hspent.lands, le_rfl⟩, ?_⟩
        rw [htx, hledgerSeq]
        exact Nat.lt_succ_self _
    · rw [hsubmitted, InsertionMap.values_set_of_get_eq_none hfresh, List.map_append,
        List.pairwise_append]
      refine ⟨h.ledgers, List.pairwise_singleton _ _, fun b hb b' hb' => ?_⟩
      obtain ⟨old, hold, rfl⟩ := List.mem_map.mp hb
      obtain ⟨⟨hash, _⟩, hentry, rfl⟩ := List.mem_map.mp hold
      rw [List.mem_singleton.mp hb']
      show _ < tx.ledger
      rw [htx]
      exact (h.records hash _ hentry).closed
  · rw [hsnapshot] at hclimbs ⊢
    exact ⟨hclimbs.keyed, h.network, h.word,
      fun hash tx htx => (h.records hash tx htx).climbs hclimbs le_rfl, h.ledgers⟩
  · exact hop.1.elim
  · obtain ⟨hle, hword⟩ := hquiet.ledgerSeq h.word
    refine ⟨hclimbs.keyed, hquiet.passphrase.trans h.network, hword, fun hash tx htx => ?_, ?_⟩
    · rw [hquiet.submitted] at htx
      exact (h.records hash tx htx).climbs hclimbs hle
    · rw [hquiet.submitted]
      exact h.ledgers

/-- The recorded hashes are the keys of the map. -/
theorem Recorder.hashes_nodup {d : Deps} {passphrase : String} {ops : List SessionOp} {rpc : Rpc}
    (h : Recorder d passphrase ops rpc) : (rpc.submitted.values.map (·.hash)).Nodup := by
  have hkeys : rpc.submitted.values.map (·.hash) = rpc.submitted.keys := by
    simp only [InsertionMap.values, InsertionMap.keys, List.map_map]
    exact List.map_congr_left fun entry hentry => (h.records entry.1 entry.2 hentry).named
  rw [hkeys]
  exact rpc.submitted.nodup

/-- Nothing is recorded in a fresh RPC. -/
theorem attachInProcessRpc_recorder (d : Deps) (ops : List SessionOp) {ledger : Ledger}
    (hkeyed : ledger.store.Keyed) (hword : ledger.ledgerSeq ≤ u32Max)
    (validation : ValidationOptions) :
    Recorder d ledger.networkPassphrase ops (attachInProcessRpc ledger validation) := by
  refine ⟨hkeyed, rfl, hword, fun hash tx htx => ?_, .nil⟩
  cases htx

/-- The records of one state are those of a later one. -/
def Rpc.KeepsRecords (rpc rpc' : Rpc) : Prop :=
  ∀ hash tx, rpc.submitted.get hash = some tx → rpc'.submitted.get hash = some tx

/-- No operation of a run writes over a record. -/
theorem Recorder.keepsRecords {d : Deps} (hhost : d.ReturnsKeyed) (hseq : d.KeepsSequences)
    {passphrase : String} {ops : List SessionOp} (hapart : HashesApart d passphrase ops)
    {rpc : Rpc} (h : Recorder d passphrase ops rpc) {op : SessionOp} (hin : op ∈ ops)
    (hop : Submitting rpc op) : rpc.KeepsRecords ((session d).next rpc op) := by
  intro hash tx hget
  rcases session_next_cases d rpc op with
    ⟨envelope, txHash, innerHash, outcome, ledger, rfl, hsubmission⟩ | ⟨-, hsnapshot⟩ |
    ⟨id, snap, rfl, -, -⟩ | ⟨-, hquiet⟩
  · have hfresh := h.appended hhost hseq hapart hop.1 hin hsubmission
    obtain ⟨tx', logged, hsubmitted, -⟩ := hsubmission.logs
    have hne : hash ≠ txHash := by
      rintro rfl
      rw [hfresh] at hget
      cases hget
    rw [hsubmitted, InsertionMap.get_set_of_get_eq_none hfresh, if_neg hne]
    exact hget
  · rw [hsnapshot]
    exact hget
  · exact hop.1.elim
  · rw [hquiet.submitted]
    exact hget

/-! ## Runs -/

section Runs

variable {d : Deps} {passphrase : String} {ops is : List SessionOp} {rpc : Rpc}

/-- Every run over operations of `ops` keeps the records. -/
theorem Recorder.run (hhost : d.ReturnsKeyed) (hseq : d.KeepsSequences)
    (hapart : HashesApart d passphrase ops) (h : Recorder d passphrase ops rpc)
    (his : (session d).AllSteps (fun rpc op => op ∈ ops ∧ Submitting rpc op) rpc is) :
    Recorder d passphrase ops ((session d).run rpc is) :=
  (session d).invariant_run (fun _ _ hrpc hop => hrpc.next hhost hseq hapart hop.1 hop.2) h his

/-- No run over operations of `ops` writes over a record. -/
theorem Recorder.keepsRecords_run (hhost : d.ReturnsKeyed) (hseq : d.KeepsSequences)
    (hapart : HashesApart d passphrase ops) (h : Recorder d passphrase ops rpc)
    (his : (session d).AllSteps (fun rpc op => op ∈ ops ∧ Submitting rpc op) rpc is) :
    rpc.KeepsRecords ((session d).run rpc is) :=
  (session d).related_run (R := Rpc.KeepsRecords) (fun _ _ _ hget => hget)
    (fun _ _ _ hab hbc hash tx hget => hbc hash tx (hab hash tx hget))
    (fun _ _ hrpc hop => hrpc.next hhost hseq hapart hop.1 hop.2)
    (fun _ _ hrpc hop => hrpc.keepsRecords hhost hseq hapart hop.1 hop.2) h his

end Runs

/-! ## The answers -/

/-- What a submission that answers has done.  An `ERROR` has changed nothing
at all. -/
inductive SubmissionAnswered (d : Deps) (rpc : Rpc) (envelope : TransactionEnvelope) :
    RpcResponse → Rpc → Prop
  | error {hash : Hash} {result : TransactionResult} :
      SubmissionAnswered d rpc envelope
        (.error hash rpc.lastClosed rpc.ledger.timestamp result) rpc
  | pending {hash : Hash} {outcome : TxOutcome} {ledger : Ledger} {tx : SubmittedTx}
      {logged : List BufferedEvent} {rpc' : Rpc} :
      applyTransaction d envelope rpc.ledger.networkPassphrase rpc.validation rpc.ledger =
        .ok outcome ledger →
      rpc'.submitted.entries = rpc.submitted.entries ++ [(hash, tx)] →
      tx.hash = hash → tx.outcome = outcome → tx.ledger = rpc.lastClosed + 1 →
      rpc'.eventLog = rpc.eventLog ++ logged →
      LogsAll d tx.ledger hash 0 (outcome.events.getD []) logged →
      rpc'.ledger.ledgerSeq = rpc.ledger.ledgerSeq + 1 →
      SubmissionAnswered d rpc envelope (.pending hash rpc.lastClosed rpc.ledger.timestamp) rpc'

/-- A pending submission is in the map. -/
theorem SubmissionAnswered.recorded {d : Deps} {rpc rpc' : Rpc} {envelope : TransactionEnvelope}
    {hash : Hash} {latest : Int} {time : Nat}
    (h : SubmissionAnswered d rpc envelope (.pending hash latest time) rpc') :
    ∃ tx, rpc'.submitted.get hash = some tx := by
  cases h with
  | @pending _ _ _ tx _ _ _ hentries =>
    refine ⟨tx, InsertionMap.get_of_mem_entries ?_⟩
    rw [hentries]
    exact List.mem_append_right _ List.mem_cons_self

/-- A recorded transaction is what `getTransaction` answers. -/
theorem session_out_getTransaction {d : Deps} {rpc : Rpc} {hash : Hash} {tx : SubmittedTx}
    (h : rpc.submitted.get hash = some tx) :
    ∃ latest time, (session d).out rpc (.request (.getTransaction hash)) =
      .response (.transaction latest time (some (rawTransaction tx))) := by
  refine ⟨rpc.lastClosed, rpc.ledger.timestamp, ?_⟩
  show SessionAnswer.response (rpc.getTransaction hash) = _
  rw [Rpc.getTransaction, h]
  rfl

theorem session_out_response {d : Deps} {rpc : Rpc} {request : RpcRequest} {response : RpcResponse}
    (h : (session d).out rpc (.request request) = .response response) :
    Rpc.handle d request rpc = .ok response ((session d).next rpc (.request request)) := by
  rw [session_next_request]
  have hout : (answerOf .response (Rpc.handle d request rpc)).1 = .response response := h
  cases hhandle : Rpc.handle d request rpc with
  | ok response' rpc' =>
    rw [hhandle] at hout
    cases hout
    rfl
  | error e rpc' =>
    rw [hhandle] at hout
    cases hout

/-- A submission that answers in a run has done one of the two. -/
theorem Recorder.answered {d : Deps} (hhost : d.ReturnsKeyed) (hseq : d.KeepsSequences)
    {passphrase : String} {ops : List SessionOp} (hapart : HashesApart d passphrase ops)
    {rpc : Rpc} (h : Recorder d passphrase ops rpc) {envelope : TransactionEnvelope}
    (hin : .request (.sendTransaction envelope) ∈ ops)
    (hop : Submitting rpc (.request (.sendTransaction envelope))) {response : RpcResponse}
    (hout : (session d).out rpc (.request (.sendTransaction envelope)) = .response response) :
    SubmissionAnswered d rpc envelope response
      ((session d).next rpc (.request (.sendTransaction envelope))) := by
  have hsend := session_out_response hout
  generalize (session d).next rpc (.request (.sendTransaction envelope)) = rpc' at hsend
  rw [Rpc.handle_sendTransaction] at hsend
  obtain ⟨txHash, innerHash, outcome, ledger, hhashes, happly, hdone⟩ := sendTransaction_ok hsend
  rcases hdone with ⟨-, -, rfl, rfl⟩ | ⟨haccepted, hrecorded, rfl⟩
  · exact .error
  · have hsubmission : Submission d rpc envelope txHash innerHash outcome ledger rpc' :=
      ⟨hhashes, happly, haccepted, hrecorded⟩
    have hfresh := h.appended hhost hseq hapart hop.1 hin hsubmission
    obtain ⟨tx, logged, hsubmitted, hhash, -, houtcome, htx, hevents, hlogged⟩ := hsubmission.logs
    refine .pending happly ?_ hhash houtcome ?_ hevents (htx ▸ hlogged)
      (hsubmission.ledgerSeq hop.2)
    · rw [hsubmitted, InsertionMap.entries_set_of_get_eq_none hfresh]
    · rw [htx, Rpc.lastClosed]
      omega

/-- Each submission along a run is answered as one submission is. -/
theorem Recorder.answered_run {d : Deps} (hhost : d.ReturnsKeyed) (hseq : d.KeepsSequences)
    {passphrase : String} {ops : List SessionOp} (hapart : HashesApart d passphrase ops)
    {rpc : Rpc} (h : Recorder d passphrase ops rpc)
    (hops : (session d).AllSteps (fun rpc op => op ∈ ops ∧ Submitting rpc op) rpc ops)
    {before after : List SessionOp} {envelope : TransactionEnvelope} {response : RpcResponse}
    (heq : ops = before ++ .request (.sendTransaction envelope) :: after)
    (hout : (session d).out ((session d).run rpc before)
      (.request (.sendTransaction envelope)) = .response response) :
    SubmissionAnswered d ((session d).run rpc before) envelope response
      ((session d).run rpc (before ++ [.request (.sendTransaction envelope)])) := by
  have hsplit := hops
  rw [heq, Machine.allSteps_append] at hsplit
  obtain ⟨hbefore, hop, -⟩ := hsplit
  rw [← heq] at hbefore hop
  have hrecorder := h.run hhost hseq hapart hbefore
  rw [Machine.run_concat]
  exact hrecorder.answered hhost hseq hapart hop.1 hop.2 hout

/-! ## The result -/

/-- **Submissions.**  In a run of a session that checks sequence numbers, rolls
nothing back and stays below the last ledger there is, over envelopes whose
hashes do not collide:

* a submission that answers has answered `ERROR` and changed nothing, or
  `PENDING` and recorded itself once, in the ledger it closed;
* the recorded hashes are distinct, and the recorded ledgers increase;
* the record of a `PENDING` hash is what `getTransaction` answers from then
  on. -/
theorem session_submissions {d : Deps} (hhost : d.ReturnsKeyed) (hseq : d.KeepsSequences)
    {ledger : Ledger} (hkeyed : ledger.store.Keyed) (hword : ledger.ledgerSeq ≤ u32Max)
    {validation : ValidationOptions} {ops : List SessionOp}
    (hops : (session d).AllSteps Submitting (attachInProcessRpc ledger validation) ops)
    (hapart : HashesApart d ledger.networkPassphrase ops) :
    (∀ before envelope after response,
      ops = before ++ .request (.sendTransaction envelope) :: after →
      (session d).out ((session d).run (attachInProcessRpc ledger validation) before)
        (.request (.sendTransaction envelope)) = .response response →
      SubmissionAnswered d ((session d).run (attachInProcessRpc ledger validation) before) envelope
        response ((session d).run (attachInProcessRpc ledger validation)
          (before ++ [.request (.sendTransaction envelope)]))) ∧
    (((session d).run (attachInProcessRpc ledger validation) ops).submitted.values.map
      (·.hash)).Nodup ∧
    (((session d).run (attachInProcessRpc ledger validation) ops).submitted.values.map
      (·.ledger)).Pairwise (· < ·) ∧
    (∀ before envelope between after hash latest time,
      ops = before ++ .request (.sendTransaction envelope) :: between ++ after →
      (session d).out ((session d).run (attachInProcessRpc ledger validation) before)
        (.request (.sendTransaction envelope)) = .response (.pending hash latest time) →
      ∃ tx, ((session d).run (attachInProcessRpc ledger validation)
          (before ++ [.request (.sendTransaction envelope)])).submitted.get hash = some tx ∧
        ∃ latest' time', (session d).out ((session d).run (attachInProcessRpc ledger validation)
          (before ++ .request (.sendTransaction envelope) :: between))
          (.request (.getTransaction hash)) =
            .response (.transaction latest' time' (some (rawTransaction tx)))) := by
  have hsteps : (session d).AllSteps (fun rpc op => op ∈ ops ∧ Submitting rpc op)
      (attachInProcessRpc ledger validation) ops := Machine.AllSteps.and_mem _ hops fun _ hin => hin
  have hstart := attachInProcessRpc_recorder d ops hkeyed hword validation
  have hend := hstart.run hhost hseq hapart hsteps
  refine ⟨fun before envelope after response heq hout =>
    hstart.answered_run hhost hseq hapart hsteps heq hout, hend.hashes_nodup, hend.ledgers, ?_⟩
  intro before envelope between after hash latest time heq hout
  have hsent : ops = before ++ .request (.sendTransaction envelope) :: (between ++ after) := by
    rw [heq, List.append_assoc]
    rfl
  have hanswer := hstart.answered_run hhost hseq hapart hsteps hsent hout
  obtain ⟨tx, hget⟩ := hanswer.recorded
  refine ⟨tx, hget, ?_⟩
  have hsplit : before ++ .request (.sendTransaction envelope) :: between =
      (before ++ [.request (.sendTransaction envelope)]) ++ between := by simp
  have hbetween := hsteps
  rw [heq, hsplit, Machine.allSteps_append, Machine.allSteps_append] at hbetween
  obtain ⟨⟨hupTo, hbetween⟩, -⟩ := hbetween
  rw [← hsplit, ← heq] at hupTo hbetween
  have hsentRecorder := hstart.run hhost hseq hapart hupTo
  rw [hsplit, Machine.run_append]
  exact session_out_getTransaction
    (hsentRecorder.keepsRecords_run hhost hseq hapart hbetween hash tx hget)

/-- A host that hashes a transaction to its sequence number. -/
def numberingDeps : Deps :=
  { Deps.idle with transactionHash := fun _ tx => [UInt8.ofNat tx.seqNum.toNat] }

def submit (seqNum : Int) : SessionOp :=
  .request (.sendTransaction (.envelopeTypeTx (sampleEnvelope 7 seqNum none)))

/-- Two transactions of one account, and the first one again. -/
def submitTwice : List SessionOp := [submit 1, .advanceLedgers 2, submit 2, submit 1]

theorem submitTwice_apart (passphrase : String) :
    HashesApart numberingDeps passphrase submitTwice := by
  have hwhich : ∀ e, .request (.sendTransaction e) ∈ submitTwice →
      e = .envelopeTypeTx (sampleEnvelope 7 1 none) ∨
        e = .envelopeTypeTx (sampleEnvelope 7 2 none) := by
    intro e he
    simp only [submitTwice, submit, List.mem_cons, SessionOp.request.injEq,
      RpcRequest.sendTransaction.injEq, reduceCtorEq, List.not_mem_nil, or_false, false_or] at he
    rcases he with rfl | rfl | rfl
    · exact .inl rfl
    · exact .inr rfl
    · exact .inl rfl
  intro e e' payload payload' hash inner inner' he he' hpayload hpayload' hhashes hhashes'
  rcases hwhich e he with rfl | rfl <;> rcases hwhich e' he' with rfl | rfl
  · exact Option.some.inj (hpayload.symm.trans hpayload')
  · cases hhashes
    cases hhashes'
  · cases hhashes
    cases hhashes'
  · exact Option.some.inj (hpayload.symm.trans hpayload')

theorem session_submissions_twice :
    (((session numberingDeps).run (attachInProcessRpc (sampleLedger 7) {})
      submitTwice).submitted.values.map (·.hash)).Nodup ∧
    (((session numberingDeps).run (attachInProcessRpc (sampleLedger 7) {})
      submitTwice).submitted.values.map (·.ledger)).Pairwise (· < ·) := by
  have hhost : numberingDeps.ReturnsKeyed := by
    rintro input ch ⟨res, hres, -⟩
    cases hres
  have hseq : numberingDeps.KeepsSequences := by
    rintro input ch id ⟨res, hres, -⟩
    cases hres
  have hops : (session numberingDeps).AllSteps Submitting
      (attachInProcessRpc (sampleLedger 7) {}) submitTwice :=
    ⟨⟨rfl, by decide⟩, ⟨trivial, by decide⟩, ⟨rfl, by decide⟩, ⟨rfl, by decide⟩, trivial⟩
  have hall := session_submissions hhost hseq (sampleLedger_keyed 7) (by decide) hops
    (submitTwice_apart _)
  exact ⟨hall.2.1, hall.2.2.1⟩

end LiteSoroban

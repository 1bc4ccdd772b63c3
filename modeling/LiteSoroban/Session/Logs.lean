import LiteSoroban.Classic.Atomicity
import LiteSoroban.Session.Steps

/-!
# The logs of the RPC

The facade keeps a map of the transactions it has submitted and a log of their
events beside the ledger.  A submission writes the ledger it applied in into
both, and then closes that ledger.

Two things can part the logs from the ledger.  `restore` moves the ledger back
and leaves the logs where they are.  And the ledger sequence stops at the last
number its word holds, so that a ledger there is never closed.

`session_logs` is the result: in a run that does neither, every logged ledger
is closed, and a rollback answers every read of the logs as the snapshot's
moment did.
-/

namespace LiteSoroban

open Effect

/-! ## Reading the logs -/

/-- The requests that read the logs. -/
def RpcRequest.readsLogs : RpcRequest → Bool
  | .getTransaction _ => true
  | .getTransactions _ => true
  | .getEvents _ _ _ => true
  | _ => false

/-- No transaction and no event of the answer is of a ledger past the one the
answer reports as latest. -/
def RpcResponse.LedgersClosed : RpcResponse → Prop
  | .transaction latest _ tx => ∀ raw, tx = some raw → (raw.ledger : Int) ≤ latest
  | .transactions txs latest _ => ∀ raw ∈ txs, (raw.ledger : Int) ≤ latest
  | .events found latest _ _ => ∀ e ∈ found, (e.ledger : Int) ≤ latest
  | _ => True

/-- Every ledger in the logs is closed. -/
structure Rpc.Closed (rpc : Rpc) : Prop where
  submitted : ∀ tx ∈ rpc.submitted.values, tx.ledger < rpc.ledger.ledgerSeq
  eventLog : ∀ e ∈ rpc.eventLog, e.ledger < rpc.ledger.ledgerSeq
  word : rpc.ledger.ledgerSeq ≤ u32Max

theorem Rpc.mem_page {α : Type} {limit : Option Int} {xs : List α} {x : α}
    (h : x ∈ Rpc.page limit xs) : x ∈ xs := by
  simp only [Rpc.page] at h
  split at h
  · exact h
  · split at h
    · exact h
    · split at h
      · exact List.mem_of_mem_take h
      · exact List.mem_of_mem_take h

/-- Over closed logs, every read of them answers closed ledgers. -/
theorem Rpc.Closed.ledgersClosed {d : Deps} {rpc : Rpc} (h : rpc.Closed) {request : RpcRequest}
    (hreads : request.readsLogs = true) {response : RpcResponse}
    (hout : (session d).out rpc (.request request) = .response response) :
    response.LedgersClosed := by
  cases request with
  | getTransaction hash =>
    cases hout
    intro raw hraw
    obtain ⟨tx, htx, rfl⟩ := Option.map_eq_some_iff.mp hraw
    have := h.submitted tx (InsertionMap.mem_values_of_get htx)
    simp only [rawTransaction, Rpc.lastClosed]
    omega
  | getTransactions startLedger =>
    cases hout
    intro raw hraw
    obtain ⟨tx, htx, rfl⟩ := List.mem_map.mp hraw
    have := h.submitted tx (List.mem_filter.mp htx).1
    simp only [rawTransaction, Rpc.lastClosed]
    omega
  | getEvents startLedger filters limit =>
    cases hout
    intro e he
    have := h.eventLog e (List.mem_filter.mp (Rpc.mem_page he)).1
    simp only [Rpc.lastClosed]
    omega
  | _ => cases hreads

/-- The reads of the logs look at the logs, the ledger sequence and the
clock. -/
theorem session_out_readsLogs {d : Deps} {rpc rpc' : Rpc} {request : RpcRequest}
    (hreads : request.readsLogs = true) (hsubmitted : rpc'.submitted = rpc.submitted)
    (hevents : rpc'.eventLog = rpc.eventLog) (hseq : rpc'.ledger.ledgerSeq = rpc.ledger.ledgerSeq)
    (htime : rpc'.ledger.timestamp = rpc.ledger.timestamp) :
    (session d).out rpc' (.request request) = (session d).out rpc (.request request) := by
  cases request with
  | getTransaction hash =>
    show SessionAnswer.response (rpc'.getTransaction hash) = .response (rpc.getTransaction hash)
    simp only [Rpc.getTransaction, Rpc.lastClosed, hsubmitted, hseq, htime]
  | getTransactions startLedger =>
    show SessionAnswer.response (rpc'.getTransactions startLedger) =
      .response (rpc.getTransactions startLedger)
    simp only [Rpc.getTransactions, Rpc.lastClosed, hsubmitted, hseq, htime]
  | getEvents startLedger filters limit =>
    show SessionAnswer.response (rpc'.getEvents startLedger filters limit) =
      .response (rpc.getEvents startLedger filters limit)
    simp only [Rpc.getEvents, Rpc.lastClosed, hevents, hseq, htime]
  | _ => cases hreads

/-! ## Runs -/

/-- A session, and beside it the facade as it was when each snapshot was
taken. -/
def notedSession (d : Deps) : Machine (Rpc × List Rpc) SessionOp SessionAnswer :=
  (session d).noting Rpc.takesSnapshot

/-- A fresh RPC on a ledger.  For snapshots taken before it was attached, the
logs it would have had are empty. -/
def attached (ledger : Ledger) (validation : ValidationOptions) : Rpc × List Rpc :=
  (attachInProcessRpc ledger validation, ledger.env.snapshots.map fun snap =>
    attachInProcessRpc { ledger with env := ledger.env.restoreFrom snap } validation)

/-- The operation does not part the logs from the ledger: a rollback finds the
logs as they were when the snapshot was taken, and a transaction that is not
rejected finds a ledger that can close. -/
def Undisturbed (d : Deps) (s : Rpc × List Rpc) : SessionOp → Prop
  | .restore id => ∀ rpc, s.2[toUint32 id]? = some rpc →
    s.1.submitted = rpc.submitted ∧ s.1.eventLog = rpc.eventLog
  | .request (.sendTransaction envelope) => ∀ outcome ledger,
    applyTransaction d envelope s.1.ledger.networkPassphrase s.1.validation s.1.ledger =
      .ok outcome ledger → outcome.rejected = false → s.1.ledger.ledgerSeq < u32Max
  | _ => True

/-- The logs are closed, now and at every snapshot, and the snapshots are of
the ledgers noted beside them. -/
structure LogsInStep (s : Rpc × List Rpc) : Prop where
  now : s.1.Closed
  noted : ∀ rpc ∈ s.2, rpc.Closed
  snapshots : s.1.ledger.env.snapshots.map (fun snap => (snap.ledgerSeq, snap.timestamp)) =
    s.2.map (fun rpc => (rpc.ledger.env.ledgerSeq, rpc.ledger.env.timestamp))

/-- A ledger whose sequence numbers are words. -/
structure Ledger.Words (ledger : Ledger) : Prop where
  now : ledger.ledgerSeq ≤ u32Max
  snapshots : ∀ snap ∈ ledger.env.snapshots, snap.ledgerSeq ≤ u32Max

theorem attachInProcessRpc_closed {ledger : Ledger} (h : ledger.ledgerSeq ≤ u32Max)
    (validation : ValidationOptions) : (attachInProcessRpc ledger validation).Closed := by
  refine ⟨fun tx htx => ?_, fun e he => ?_, h⟩
  · cases htx
  · cases he

theorem attached_inStep {ledger : Ledger} (h : ledger.Words) (validation : ValidationOptions) :
    LogsInStep (attached ledger validation) := by
  refine ⟨attachInProcessRpc_closed h.now validation, fun rpc hrpc => ?_, ?_⟩
  · obtain ⟨snap, hsnap, rfl⟩ := List.mem_map.mp hrpc
    refine attachInProcessRpc_closed ?_ validation
    exact h.snapshots snap hsnap
  · simp only [attached, List.map_map]
    rfl

/-- Logs that are quiet stay closed. -/
theorem Rpc.Closed.quiet {d : Deps} (hhost : d.ReturnsXdr) {rpc rpc' : Rpc} (h : rpc.Closed)
    (hquiet : rpc.Quiet d rpc') : rpc'.Closed := by
  obtain ⟨hle, hword⟩ := hquiet.ledgerSeq h.word
  refine ⟨fun tx htx => ?_, fun e he => ?_, hword⟩
  · rw [hquiet.submitted] at htx
    exact (h.submitted tx htx).trans_le hle
  · rw [hquiet.eventLog hhost] at he
    exact (h.eventLog e he).trans_le hle

/-- Every event logged for a transaction is of its ledger. -/
theorem LogsAll.ledger {d : Deps} {ledger : Nat} {txHash : Hash} {i : Nat}
    {events : List (Encoded ContractEvent)} {logged : List BufferedEvent}
    (h : LogsAll d ledger txHash i events logged) : ∀ e ∈ logged, e.ledger = ledger := by
  induction h with
  | nil => simp
  | cons _ hlogs _ ih =>
    intro e he
    rcases List.mem_cons.mp he with rfl | he
    · exact hlogs.ledger
    · exact ih e he

/-- Recording a transaction in a ledger that can close keeps the logs
closed. -/
theorem Rpc.Closed.recorded {d : Deps} {rpc rpc' : Rpc} (h : rpc.Closed)
    (hword : rpc.ledger.ledgerSeq < u32Max) {envelope : TransactionEnvelope}
    {txHash innerHash : Hash} {outcome : TxOutcome} {ledger : Ledger}
    (hsubmission : Submission d rpc envelope txHash innerHash outcome ledger rpc') :
    rpc'.Closed := by
  have hseq := hsubmission.ledgerSeq hword
  obtain ⟨tx, logged, hsubmitted, -, -, -, htx, hevents, hlogged⟩ := hsubmission.logs
  refine ⟨fun tx' htx' => ?_, fun e he => ?_, by rw [hseq]; exact hword⟩
  · rw [hseq]
    rw [hsubmitted] at htx'
    rcases InsertionMap.mem_values_set htx' with hold | rfl
    · exact (h.submitted tx' hold).trans (Nat.lt_succ_self _)
    · rw [htx]
      exact Nat.lt_succ_self _
  · rw [hseq]
    rw [hevents] at he
    rcases List.mem_append.mp he with hold | hnew
    · exact (h.eventLog e hold).trans (Nat.lt_succ_self _)
    · rw [hlogged.ledger e hnew]
      exact Nat.lt_succ_self _

/-- The facade noted for a snapshot had its ledger sequence and its clock. -/
theorem LogsInStep.exists_noted {s : Rpc × List Rpc} (h : LogsInStep s) {id : Nat}
    {snap : LedgerSnapshot} (hsnap : s.1.ledger.env.snapshots[id]? = some snap) :
    ∃ rpc, s.2[id]? = some rpc ∧ rpc.ledger.env.ledgerSeq = snap.ledgerSeq ∧
      rpc.ledger.env.timestamp = snap.timestamp := by
  have hid := congrArg (·[id]?) h.snapshots
  simp only [List.getElem?_map, hsnap, Option.map_some] at hid
  obtain ⟨rpc, hrpc, heq⟩ := Option.map_eq_some_iff.mp hid.symm
  exact ⟨rpc, hrpc, congrArg Prod.fst heq, congrArg Prod.snd heq⟩

/-- The snapshot a facade was noted for has its ledger sequence and its
clock. -/
theorem LogsInStep.exists_snapshot {s : Rpc × List Rpc} (h : LogsInStep s) {id : Nat} {rpc : Rpc}
    (hrpc : s.2[id]? = some rpc) :
    ∃ snap, s.1.ledger.env.snapshots[id]? = some snap ∧
      snap.ledgerSeq = rpc.ledger.env.ledgerSeq ∧ snap.timestamp = rpc.ledger.env.timestamp := by
  have hid := congrArg (·[id]?) h.snapshots
  simp only [List.getElem?_map, hrpc, Option.map_some] at hid
  obtain ⟨snap, hsnap, heq⟩ := Option.map_eq_some_iff.mp hid
  exact ⟨snap, hsnap, congrArg Prod.fst heq, congrArg Prod.snd heq⟩

/-- Every undisturbed operation keeps the logs in step. -/
theorem LogsInStep.next {d : Deps} (hhost : d.ReturnsXdr) {s : Rpc × List Rpc}
    (h : LogsInStep s) {op : SessionOp} (hop : Undisturbed d s op) :
    LogsInStep ((notedSession d).next s op) := by
  obtain ⟨rpc, noted⟩ := s
  have hnext : (notedSession d).next (rpc, noted) op =
      ((session d).next rpc op, if rpc.takesSnapshot op then noted ++ [rpc] else noted) := rfl
  rw [hnext]
  rcases session_next_cases d rpc op with
    ⟨envelope, txHash, innerHash, outcome, ledger, rfl, hsubmission⟩ |
    ⟨htakes, hsnapshot⟩ | ⟨id, snap, rfl, hsnap, hrestored⟩ | ⟨hno, hquiet⟩
  · have hword := hop outcome ledger hsubmission.applied hsubmission.accepted
    have hsnapshots : ((session d).next rpc
        (.request (.sendTransaction envelope))).ledger.env.snapshots = rpc.ledger.env.snapshots := by
      rw [hsubmission.recorded.ledger]
      obtain ⟨store, cache, rfl⟩ := hsubmission.storeOnly
      rfl
    refine ⟨h.now.recorded hword hsubmission, h.noted, ?_⟩
    simp only [hsnapshots]
    exact h.snapshots
  · rw [hsnapshot, if_pos htakes]
    refine ⟨⟨h.now.submitted, h.now.eventLog, h.now.word⟩, fun old hold => ?_, ?_⟩
    · rcases List.mem_append.mp hold with hold | hnew
      · exact h.noted old hold
      · rw [List.mem_singleton.mp hnew]
        exact h.now
    · simp only [Ledger.withSnapshot, SorobanEnv.snapshot, List.map_append, h.snapshots]
      rfl
  · obtain ⟨old, hold, hseq, htime⟩ := h.exists_noted hsnap
    obtain ⟨hsubmitted, hevents⟩ := hop old hold
    have hclosed := h.noted old (List.mem_of_getElem? hold)
    rw [hrestored]
    refine ⟨⟨fun tx htx => ?_, fun e he => ?_, ?_⟩, h.noted, h.snapshots⟩
    · show tx.ledger < snap.ledgerSeq
      rw [← hseq]
      exact hclosed.submitted tx (hsubmitted ▸ htx)
    · show e.ledger < snap.ledgerSeq
      rw [← hseq]
      exact hclosed.eventLog e (hevents ▸ he)
    · show snap.ledgerSeq ≤ u32Max
      rw [← hseq]
      exact hclosed.word
  · refine ⟨h.now.quiet hhost hquiet, ?_, ?_⟩
    · simp only [hno]
      exact h.noted
    · simp only [hno, hquiet.snapshots]
      exact h.snapshots

/-- The reads of the logs after a rollback are those of the snapshot's
moment. -/
theorem LogsInStep.restored {d : Deps} {s : Rpc × List Rpc} (h : LogsInStep s) {id : Nat}
    {rpc : Rpc} (hrpc : s.2[toUint32 id]? = some rpc) (hop : Undisturbed d s (.restore id))
    {request : RpcRequest} (hreads : request.readsLogs = true) :
    (session d).out ((session d).next s.1 (.restore id)) (.request request) =
      (session d).out rpc (.request request) := by
  obtain ⟨snap, hsnap, hseq, htime⟩ := h.exists_snapshot hrpc
  obtain ⟨hsubmitted, hevents⟩ := hop rpc hrpc
  have hnext : (session d).next s.1 (.restore id) = { s.1 with
      ledger := { s.1.ledger with env := s.1.ledger.env.restoreFrom snap } } := by
    rw [session_next_restore]
    simp only [Ledger.restore, SorobanEnv.restore, hsnap]
    rfl
  rw [hnext]
  refine session_out_readsLogs hreads hsubmitted hevents ?_ ?_
  · exact hseq
  · exact congrArg jsNumber htime

/-- **The logs and the ledger.**  In a run that is not disturbed, every
transaction and every event that is read is of a closed ledger, and a rollback
answers every read as the facade did when the snapshot was taken. -/
theorem session_logs {d : Deps} (hhost : d.ReturnsXdr) {ledger : Ledger} (hwords : ledger.Words)
    {validation : ValidationOptions} {ops : List SessionOp}
    (hops : (notedSession d).AllSteps (Undisturbed d) (attached ledger validation) ops) :
    (∀ request response, request.readsLogs = true →
      (session d).out ((notedSession d).run (attached ledger validation) ops).1
        (.request request) = .response response → response.LedgersClosed) ∧
    ∀ id rpc, ((notedSession d).run (attached ledger validation) ops).2[toUint32 id]? = some rpc →
      Undisturbed d ((notedSession d).run (attached ledger validation) ops) (.restore id) →
      ∀ request, request.readsLogs = true →
        (session d).out ((session d).next
          ((notedSession d).run (attached ledger validation) ops).1 (.restore id))
          (.request request) = (session d).out rpc (.request request) := by
  have hstep : LogsInStep ((notedSession d).run (attached ledger validation) ops) :=
    (notedSession d).invariant_run (fun s op hs hop => hs.next hhost hop)
      (attached_inStep hwords validation) hops
  exact ⟨fun request response hreads hout => hstep.now.ledgersClosed hreads hout,
    fun id rpc hrpc hop request hreads => hstep.restored hrpc hop hreads⟩

/-! ## Two runs that part the logs from the ledger -/

/-- Submit the transaction of one account. -/
def submitSample : SessionOp :=
  .request (.sendTransaction (.envelopeTypeTx (sampleEnvelope 7 1 none)))

def sampleRpc : Rpc := attachInProcessRpc (sampleLedger 7) {}

/-- After a rollback over a submission, the transaction is still there, in a
ledger past the latest.  And in the last ledger there is, a transaction is
never of a closed one. -/
theorem logs_outrun_ledger :
    (∃ raw, (session .idle).out
        ((session .idle).run sampleRpc [.snapshot, submitSample, .restore 0])
        (.request (.getTransaction [])) =
          .response (.transaction 999 1700000000 (some raw)) ∧ raw.ledger = 1000 ∧
      (session .idle).out sampleRpc (.request (.getTransaction [])) =
        .response (.transaction 999 1700000000 none)) ∧
    ∃ latest time raw, (session .idle).out
        ((session .idle).run sampleRpc [.advanceLedgers 4294966295, submitSample])
        (.request (.getTransaction [])) = .response (.transaction latest time (some raw)) ∧
      latest < (raw.ledger : Int) :=
  ⟨⟨_, rfl, rfl, rfl⟩, _, _, _, rfl, by decide⟩

/-- A rollback over ledgers that passed, and a submission after it. -/
theorem session_logs_sample :
    (∀ request response, request.readsLogs = true →
      (session .idle).out ((notedSession .idle).run (attached (sampleLedger 7) {})
        [.snapshot, .advanceLedgers 5, .restore 0, submitSample]).1
        (.request request) = .response response → response.LedgersClosed) ∧
    ∀ id rpc, ((notedSession .idle).run (attached (sampleLedger 7) {})
        [.snapshot, .advanceLedgers 5, .restore 0, submitSample]).2[toUint32 id]? = some rpc →
      Undisturbed .idle ((notedSession .idle).run (attached (sampleLedger 7) {})
        [.snapshot, .advanceLedgers 5, .restore 0, submitSample]) (.restore id) →
      ∀ request, request.readsLogs = true →
        (session .idle).out ((session .idle).next
          ((notedSession .idle).run (attached (sampleLedger 7) {})
            [.snapshot, .advanceLedgers 5, .restore 0, submitSample]).1 (.restore id))
          (.request request) = (session .idle).out rpc (.request request) := by
  refine session_logs ?_ ⟨by decide, by rintro snap ⟨⟩⟩ ⟨trivial, trivial, ?_, ?_, trivial⟩
  · rintro input res ⟨⟩
  · rintro rpc ⟨⟩
    exact ⟨rfl, rfl⟩
  · intro outcome ledger _ _
    exact by decide

end LiteSoroban

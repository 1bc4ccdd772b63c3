import Mathlib.Algebra.GroupWithZero.Nat
import LiteSoroban.Env.SendVerdict
import LiteSoroban.Ledger.Supply
import LiteSoroban.Session.Submission

/-!
# The event log

`sendTransaction` buffers the contract events of what it applied, and
`getEvents` answers from the buffer.  The buffer is never cut: a rollback
leaves it as it is.

`Published` is a contract event of a submission as the network would tell of
it.  The history of a run is what its submissions published, and the log is a
function of the history: each entry is a published event with an id made of its
ledger and of its place in the log.  `session_events` is the result.
-/

namespace LiteSoroban

open Effect

/-! ## The history -/

/-- A contract event of an applied transaction. -/
structure Published where
  ledger : Nat
  closedAt : String
  txHash : Hash
  txIndex : Nat
  event : ContractEvent

/-- The entry of an event, at its place in the log. -/
def Published.buffered (d : Deps) (position : Nat) (p : Published) : BufferedEvent where
  type := "contract"
  ledger := p.ledger
  ledgerClosedAt := p.closedAt
  contractId := match p.event.contractId with
    | some cid => d.contractStrKey cid
    | none => ""
  id := s!"{p.ledger}-{position}"
  pagingToken := s!"{p.ledger}-{position}"
  topic := p.event.topics
  value := p.event.data
  txHash := p.txHash
  txIndex := p.txIndex

/-- The log of a history. -/
def bufferedLog (d : Deps) (history : List Published) : List BufferedEvent :=
  history.mapIdx (Published.buffered d)

/-- The events of a transaction that was applied in the open ledger. -/
def Rpc.publish (rpc : Rpc) (txHash : Hash) (events : List ContractEvent) : List Published :=
  events.mapIdx fun i evt =>
    { ledger := rpc.ledger.ledgerSeq
      closedAt := (toISOString rpc.ledger.timestamp).toOption.getD ""
      txHash := txHash
      txIndex := i
      event := evt }

/-- The contract events of an outcome that decode. -/
def TxOutcome.contractEvents (outcome : TxOutcome) : List ContractEvent :=
  (outcome.events.getD []).filterMap (·.decoded)

/-- What an operation publishes: the events of a submission that is answered
`PENDING`. -/
def SessionOp.published (d : Deps) (rpc : Rpc) (op : SessionOp) : List Published :=
  match op, (session d).out rpc op with
  | .request (.sendTransaction envelope), .response (.pending txHash _ _) =>
    match LiteSoroban.applyTransaction d envelope rpc.ledger.networkPassphrase rpc.validation rpc.ledger with
    | .ok outcome _ => rpc.publish txHash outcome.contractEvents
    | .error _ _ => []
  | _, _ => []

/-- What the operations of a run publish. -/
def history (d : Deps) : Rpc → List SessionOp → List Published :=
  (session d).collect (SessionOp.published d)

@[simp] theorem bufferedLog_length (d : Deps) (history : List Published) :
    (bufferedLog d history).length = history.length := List.length_mapIdx

theorem bufferedLog_append (d : Deps) (history later : List Published) :
    bufferedLog d (history ++ later) = bufferedLog d history ++
      later.mapIdx fun i p => p.buffered d (i + history.length) :=
  List.mapIdx_append

/-! ## One submission -/

/-- The loop logs what is published, behind what was logged. -/
theorem pushEvents_buffered {d : Deps} {txHash : Hash} {events : List (Encoded ContractEvent)}
    {first : Nat} {rpc rpc' : Rpc} {u : Unit}
    (h : Rpc.pushEvents d txHash events first rpc = .ok u rpc') :
    rpc'.eventLog = rpc.eventLog ++ (events.filterMap (·.decoded)).mapIdx fun i evt =>
      (Published.mk rpc.ledger.ledgerSeq ((toISOString rpc.ledger.timestamp).toOption.getD "")
        txHash (i + first) evt).buffered d (i + rpc.eventLog.length) := by
  induction events generalizing first rpc with
  | nil =>
    cases h
    exact (List.append_nil _).symm
  | cons encoded rest ih =>
    unfold Rpc.pushEvents at h
    cases hdecoded : encoded.decoded with
    | none =>
      simp only [hdecoded] at h
      cases h
    | some evt =>
      cases hdate : toISOString rpc.ledger.timestamp with
      | error e =>
        simp only [hdecoded, hdate] at h
        cases h
      | ok closedAt =>
        simp only [hdecoded, hdate] at h
        rw [ih h, List.filterMap_cons, hdecoded, List.mapIdx_cons, List.append_assoc,
          List.singleton_append]
        refine congrArg (rpc.eventLog ++ ·) (congr (congrArg List.cons ?_) ?_)
        · simp only [Published.buffered, Rpc.bufferedEvent, Nat.zero_add]
          rfl
        · refine congrArg (List.mapIdx · _) (funext fun i => funext fun evt' => ?_)
          have hshift : ∀ n, i + (n + 1) = i + 1 + n := fun n => by omega
          rw [List.length_append, List.length_singleton, hshift first, hshift rpc.eventLog.length,
            hdate]

/-- What is recorded is logged. -/
theorem recordTransaction_published {d : Deps} {rpc rpc' : Rpc} {envelope : TransactionEnvelope}
    {txHash : Hash} {outcome : TxOutcome} {result : TransactionResult} {u : Unit}
    (h : Rpc.recordTransaction d envelope txHash outcome result rpc = .ok u rpc') :
    rpc'.eventLog = rpc.eventLog ++ (rpc.publish txHash outcome.contractEvents).mapIdx
      fun i p => p.buffered d (i + rpc.eventLog.length) := by
  simp only [Rpc.recordTransaction, bind_eq_ok, ofLedger_ok, lift_ok] at h
  obtain ⟨_, mid, hpush, resultMeta, _, ⟨_, ⟨hmeta, rfl⟩, rfl⟩, h⟩ := h
  have hlog := pushEvents_buffered hpush
  cases h
  rw [Rpc.publish, List.mapIdx_mapIdx]
  exact hlog

/-- A submission that is answered `PENDING` was applied, and what it published
is logged. -/
theorem sendTransaction_published {d : Deps} {rpc rpc' : Rpc} {envelope : TransactionEnvelope}
    {txHash : Hash} {latestLedger : Int} {closeTime : Nat}
    (h : Rpc.sendTransaction d envelope rpc = .ok (.pending txHash latestLedger closeTime) rpc') :
    ∃ outcome ledger,
      applyTransaction d envelope rpc.ledger.networkPassphrase rpc.validation rpc.ledger =
        .ok outcome ledger ∧
      rpc'.eventLog = rpc.eventLog ++ (rpc.publish txHash outcome.contractEvents).mapIdx
        fun i p => p.buffered d (i + rpc.eventLog.length) := by
  unfold Rpc.sendTransaction at h
  cases hhashes : Rpc.envelopeHashes d rpc.ledger.networkPassphrase envelope with
  | error e =>
    simp only [hhashes] at h
    cases h
  | ok hashes =>
    cases happly : applyTransaction d envelope rpc.ledger.networkPassphrase rpc.validation
        rpc.ledger with
    | error e ledger =>
      simp only [hhashes, happly] at h
      cases h
    | ok outcome ledger =>
      simp only [hhashes, happly] at h
      split at h
      · cases h
      · cases hrecord : Rpc.recordTransaction d envelope hashes.1 outcome
            (transactionResult d outcome hashes.2) { rpc with ledger := ledger } with
        | error e rpc₁ =>
          simp only [hrecord] at h
          cases h
        | ok u rpc₁ =>
          simp only [hrecord] at h
          cases h
          have hstores := applyTransaction_storesOnly d envelope rpc.ledger.networkPassphrase
            rpc.validation rpc.ledger
          rw [happly] at hstores
          obtain ⟨store, cache, rfl⟩ := hstores
          have hlog := recordTransaction_published hrecord
          exact ⟨outcome, _, rfl, hlog⟩

/-- A submission appends what it publishes. -/
theorem sendTransaction_appends {d : Deps} (hhost : d.ReturnsXdr) (rpc : Rpc)
    (envelope : TransactionEnvelope) :
    ((session d).next rpc (.request (.sendTransaction envelope))).eventLog = rpc.eventLog ++
      ((SessionOp.request (.sendTransaction envelope)).published d rpc).mapIdx
        fun i p => p.buffered d (i + rpc.eventLog.length) := by
  rw [session_next_request, Rpc.handle_sendTransaction]
  have hanswer : (session d).out rpc (.request (.sendTransaction envelope)) =
      (answerOf .response (Rpc.sendTransaction d envelope rpc)).1 := rfl
  unfold SessionOp.published
  rw [hanswer]
  cases hsend : Rpc.sendTransaction d envelope rpc with
  | error e rpc' =>
    have hsame : rpc'.eventLog = rpc.eventLog := by
      rcases sendTransaction_error_of_decodes hhost hsend with rfl | rfl
      · rfl
      · rfl
    exact hsame.trans (List.append_nil _).symm
  | ok response rpc' =>
    obtain ⟨txHash, innerHash, outcome, ledger, -, happly, hdone⟩ := sendTransaction_ok hsend
    rcases hdone with ⟨-, -, rfl, rfl⟩ | ⟨-, -, rfl⟩
    · exact (List.append_nil _).symm
    · obtain ⟨outcome', ledger', happly', hlog⟩ := sendTransaction_published hsend
      simp only [answerOf, happly']
      exact hlog

/-- Every operation appends what it publishes. -/
theorem session_next_published {d : Deps} (hhost : d.ReturnsXdr) (rpc : Rpc) (op : SessionOp) :
    ((session d).next rpc op).eventLog = rpc.eventLog ++
      (op.published d rpc).mapIdx fun i p => p.buffered d (i + rpc.eventLog.length) := by
  by_cases hsubmits : ∃ envelope, op = .request (.sendTransaction envelope)
  · obtain ⟨envelope, rfl⟩ := hsubmits
    exact sendTransaction_appends hhost rpc envelope
  · have hnone : op.published d rpc = [] := by
      unfold SessionOp.published
      split
      · next envelope _ _ _ _ =>
        exact absurd ⟨envelope, rfl⟩ hsubmits
      · rfl
    rw [hnone, List.mapIdx_nil, List.append_nil]
    rcases session_next_cases d rpc op with
      ⟨envelope, _, _, _, _, rfl, -⟩ | ⟨-, hsnapshot⟩ | ⟨_, _, -, -, hrestored⟩ | ⟨-, hquiet⟩
    · exact absurd ⟨envelope, rfl⟩ hsubmits
    · rw [hsnapshot]
    · rw [hrestored]
    · exact hquiet.eventLog hhost

/-! ## Only what succeeds is published -/

/-- A call of the host that fails has no contract events. -/
def Deps.FailsSilently (d : Deps) : Prop :=
  ∀ input res e, (d.invokeHostFunction input).result = .ok res →
    res.encodedInvokeResult = .error e → res.encodedContractEvents = []

/-- An operation that fails has no contract events. -/
theorem runOperation_silent {d : Deps} (hhost : d.FailsSilently) {v : Validated}
    {cap : Option Int} {ledger ledger' : Ledger} {op : Operated}
    (h : runOperation d v cap ledger = .ok op ledger') (hok : op.outcome.ok = false) :
    op.outcome.events.getD [] = [] := by
  rcases runOperation_answers h with rfl | ⟨arms, applied, rfl⟩ | ⟨args, sent, env, hsend, rfl⟩
  · rfl
  · unfold footprintOperated
    split <;> rfl
  · obtain ⟨-, hnone | ⟨res, e, hreturned, herror, hevents⟩⟩ := send_failed_lists hsend hok
    · exact hnone
    · obtain ⟨input, -, hres⟩ := hreturned
      exact hevents.trans (hhost input res e hres herror)

/-- A transaction that fails has no contract events. -/
theorem Accepted.silent {d : Deps} (hhost : d.FailsSilently) {ledger ledger' l₁ l₂ : Ledger}
    {envelope : TransactionEnvelope} {passphrase : String} {validation : ValidationOptions}
    {outcome : TxOutcome} {a : Application} {v : Validated} {op : Operated}
    (h : Accepted d ledger envelope passphrase validation outcome ledger' a v l₁ l₂ op)
    (hok : outcome.ok = false) : outcome.contractEvents = [] := by
  obtain ⟨inner, hsettle, rfl⟩ := h.settled
  obtain ⟨-, hinner, -, hevents, -⟩ := settle_outcome hsettle
  have hnone : inner.ok = false → inner.contractEvents = [] := by
    intro hfailed
    unfold TxOutcome.contractEvents
    rw [hevents, runOperation_silent hhost h.operated (hinner.symm.trans hfailed)]
    rfl
  by_cases hbumped : a.feeBumped = true
  · rw [if_pos hbumped] at hok ⊢
    have hsame : (bumpOutcome inner).contractEvents = inner.contractEvents := by
      unfold bumpOutcome
      split <;> rfl
    rw [hsame]
    exact hnone (by rwa [bumpOutcome_ok] at hok)
  · rw [if_neg hbumped] at hok ⊢
    exact hnone hok

/-! ## The ids -/

/-- The id of an event names its place in the log. -/
theorem eventId_position {ledger other position place : Nat}
    (h : s!"{ledger}-{position}" = s!"{other}-{place}") : position = place := by
  have hdigits : ∀ (n : Nat), ∀ c ∈ n.repr.toList, (c != '-') = true := by
    intro n c hc
    rw [Nat.toList_repr] at hc
    have hdigit := Nat.isDigit_of_mem_toDigits (by omega) (by omega) hc
    by_contra hdash
    simp only [bne_iff_ne, ne_eq, Decidable.not_not] at hdash
    subst hdash
    cases hdigit
  have hrest : ∀ ledger position : Nat,
      (s!"{ledger}-{position}".toList).dropWhile (· != '-') = '-' :: position.repr.toList := by
    intro ledger position
    have hlist : s!"{ledger}-{position}".toList =
        ledger.repr.toList ++ '-' :: position.repr.toList := by
      simp [toString]
    rw [hlist, List.dropWhile_append_of_pos (hdigits ledger)]
    rfl
  have hlists := hrest ledger position
  rw [h, hrest other place] at hlists
  have hplaces : Nat.toDigits 10 position = Nat.toDigits 10 place := by
    rw [← Nat.toList_repr, ← Nat.toList_repr]
    exact (List.cons.inj hlists).2.symm
  rw [← Nat.ofDigitChars_ten_toDigits (n := position), hplaces, Nat.ofDigitChars_ten_toDigits]

/-- No two entries of a log have the same id. -/
theorem bufferedLog_ids (d : Deps) (history : List Published) :
    ((bufferedLog d history).map (·.id)).Nodup := by
  rw [List.Nodup, List.pairwise_iff_getElem]
  intro i j hi hj hlt hsame
  simp only [bufferedLog, List.getElem_map, List.getElem_mapIdx, Published.buffered] at hsame
  exact absurd (eventId_position hsame) (Nat.ne_of_lt hlt)

/-! ## The result -/

/-- The submission a published event is of. -/
structure Published.Of (d : Deps) (p : Published) (rpc : Rpc) (envelope : TransactionEnvelope) :
    Prop where
  pending : ∃ latestLedger closeTime, (session d).out rpc (.request (.sendTransaction envelope)) =
    .response (.pending p.txHash latestLedger closeTime)
  applied : ∃ outcome ledger,
    applyTransaction d envelope rpc.ledger.networkPassphrase rpc.validation rpc.ledger =
      .ok outcome ledger ∧
    outcome.ok = true ∧ outcome.contractEvents[p.txIndex]? = some p.event
  ledger : p.ledger = rpc.ledger.ledgerSeq

/-- What is published is of a transaction that succeeded. -/
theorem SessionOp.published_of {d : Deps} (hsilent : d.FailsSilently) {rpc : Rpc} {op : SessionOp}
    {p : Published} (h : p ∈ op.published d rpc) :
    ∃ envelope, op = .request (.sendTransaction envelope) ∧ p.Of d rpc envelope := by
  unfold SessionOp.published at h
  split at h
  · next envelope txHash latestLedger closeTime hpending =>
    split at h
    · next outcome ledger happly =>
      obtain ⟨i, hi, rfl⟩ := List.mem_mapIdx.mp h
      refine ⟨envelope, rfl, ⟨latestLedger, closeTime, hpending⟩, ⟨outcome, ledger, happly, ?_,
        List.getElem?_eq_getElem hi⟩, rfl⟩
      by_contra hfailed
      rw [Bool.not_eq_true] at hfailed
      rcases applyTransaction_ok happly with ⟨hrejected, -⟩ | ⟨-, _, _, _, _, _, hstages⟩
      · have hsend := session_out_response hpending
        rw [Rpc.handle_sendTransaction] at hsend
        obtain ⟨_, _, _, _, -, happly', hdone⟩ := sendTransaction_ok hsend
        rw [happly] at happly'
        cases happly'
        rcases hdone with ⟨-, -, -, hanswer⟩ | ⟨haccepted, -, -⟩
        · cases hanswer
        · rw [hrejected] at haccepted
          cases haccepted
      · have hnone := hstages.silent hsilent hfailed
        rw [hnone] at hi
        exact absurd hi (Nat.not_lt_zero i)
    · cases h
  · cases h

/-- **The event log.**  In every run of a session, rollbacks included, the log
is the history: one entry for each event that a submission answered `PENDING`
has published, in that order, under an id of its own.  Only transactions that
succeeded have entries. -/
theorem session_events {d : Deps} (hhost : d.ReturnsXdr) (hsilent : d.FailsSilently)
    (ledger : Ledger) (validation : ValidationOptions) (ops : List SessionOp) :
    let rpc := (session d).run (attachInProcessRpc ledger validation) ops
    let events := history d (attachInProcessRpc ledger validation) ops
    rpc.eventLog = bufferedLog d events ∧ (rpc.eventLog.map (·.id)).Nodup ∧
      ∀ p ∈ events, ∃ before envelope after,
        ops = before ++ .request (.sendTransaction envelope) :: after ∧
        p.Of d ((session d).run (attachInProcessRpc ledger validation) before) envelope := by
  have hlog : ((session d).run (attachInProcessRpc ledger validation) ops).eventLog =
      bufferedLog d ([] ++ history d (attachInProcessRpc ledger validation) ops) := by
    refine @Machine.collect_run _ _ _ (session d) _ (SessionOp.published d)
      (fun rpc events => rpc.eventLog = bufferedLog d events) (fun _ _ => True)
      (fun rpc op events hrpc _ => ?_) _ _ rfl _
      ((session d).allSteps_of_forall (fun _ _ => trivial) _ ops)
    rw [session_next_published hhost, bufferedLog_append, hrpc, bufferedLog_length]
  rw [List.nil_append] at hlog
  refine ⟨hlog, by rw [hlog]; exact bufferedLog_ids d _, fun p hp => ?_⟩
  obtain ⟨before, op, after, hsplit, hpublished⟩ := (Machine.mem_collect _ _).mp hp
  obtain ⟨envelope, rfl, hof⟩ := SessionOp.published_of hsilent hpublished
  exact ⟨before, envelope, after, hsplit, hof⟩

/-- A host whose every call publishes one event. -/
def publishingDeps : Deps :=
  { Deps.idle with
    invokeHostFunction := fun _ =>
      ⟨.ok ⟨.ok ⟨4, some ⟨[]⟩⟩, [], [⟨8, some ⟨none, [], ⟨[1]⟩⟩⟩]⟩, 0, 0, []⟩ }

/-- A call, a rollback over it, and the call again: both are in the log. -/
def publishTwice : List SessionOp :=
  [.snapshot, .request (.sendTransaction (.envelopeTypeTx (paymentEnvelope 7 8))), .restore 0,
    .request (.sendTransaction (.envelopeTypeTx (paymentEnvelope 7 8)))]

theorem session_events_twice :
    let rpc := (session publishingDeps).run (attachInProcessRpc payLedger {}) publishTwice
    let events := history publishingDeps (attachInProcessRpc payLedger {}) publishTwice
    events.length = 2 ∧ rpc.eventLog = bufferedLog publishingDeps events ∧
      (rpc.eventLog.map (·.id)).Nodup := by
  have hhost : publishingDeps.ReturnsXdr := by
    intro input res hres
    cases hres
    refine ⟨fun event hevent => ?_, fun value hvalue => ?_⟩
    · rw [List.mem_singleton.mp hevent]
      rfl
    · cases hvalue
      rfl
  have hsilent : publishingDeps.FailsSilently := by
    intro input res e hres hfailed
    cases hres
    cases hfailed
  have hall := session_events hhost hsilent payLedger {} publishTwice
  exact ⟨by decide +kernel, hall.1, hall.2.1⟩

end LiteSoroban

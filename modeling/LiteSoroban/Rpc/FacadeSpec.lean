import LiteSoroban.Classic.ApplySpec
import LiteSoroban.Rpc.Facade

/-!
# What a request can do

`sendTransaction` and `friendbot` are the only requests that write.  Every
other request leaves the ledger and the logs as they were, but for the PRNG
counter a simulation draws from: that is `handle_read`.

`sendTransaction_ok` splits a submission that answers.  It answers `ERROR` and
has changed nothing, or it answers `PENDING` and has applied the transaction,
logged its events, recorded it and closed the ledger.  `sendTransaction_error`
is about a submission that throws.
-/

namespace LiteSoroban

open Effect

/-! ## Calls into the ledger -/

theorem ofLedger_final {α : Type} (x : LedgerM α) (rpc : Rpc) :
    finalState (RpcM.ofLedger x rpc) = { rpc with ledger := finalState (x rpc.ledger) } := by
  simp only [RpcM.ofLedger]
  cases x rpc.ledger <;> rfl

theorem ofLedger_ok {α : Type} {x : LedgerM α} {rpc rpc' : Rpc} {a : α} :
    RpcM.ofLedger x rpc = .ok a rpc' ↔
      ∃ ledger, x rpc.ledger = .ok a ledger ∧ rpc' = { rpc with ledger := ledger } := by
  simp only [RpcM.ofLedger]
  cases x rpc.ledger <;> simp [eq_comm]

/-! ## Requests that only read -/

/-- The requests that write. -/
def RpcRequest.writes : RpcRequest → Bool
  | .sendTransaction _ => true
  | .friendbot _ => true
  | _ => false

/-- The facade with another PRNG counter. -/
def Rpc.withPrng (rpc : Rpc) (counter : Nat) : Rpc :=
  { rpc with ledger := { rpc.ledger with env := { rpc.ledger.env with prngCounter := counter } } }

/-- `rpc'` is `rpc` but for the PRNG counter. -/
def Rpc.Drawn (rpc rpc' : Rpc) : Prop := ∃ counter, rpc' = rpc.withPrng counter

instance : IsPreorder Rpc Rpc.Drawn where
  refl rpc := ⟨rpc.ledger.env.prngCounter, rfl⟩
  trans := by
    rintro _ _ _ ⟨_, rfl⟩ ⟨counter, rfl⟩
    exact ⟨counter, rfl⟩

/-- A program that changes nothing but the PRNG counter. -/
abbrev DrawsOnly {α : Type} (x : RpcM α) : Prop := Within Rpc.Drawn x

theorem lift_drawsOnly {α : Type} (x : Ledger → Except JsError α) :
    DrawsOnly (RpcM.ofLedger (LedgerM.lift x)) := by
  refine .of_eq fun rpc => ?_
  rw [ofLedger_final]
  simp only [LedgerM.lift]
  cases x rpc.ledger <;> rfl

theorem simulate_drawsOnly (d : Deps) (args : SimulateArgs) :
    DrawsOnly (RpcM.ofLedger (Ledger.simulate d args)) := by
  intro rpc
  obtain ⟨counter, hframe⟩ := simulate_frame d rpc.ledger.env args
  have hsame : finalState (Ledger.simulate d args rpc.ledger) =
      { rpc.ledger with env := finalState (rpc.ledger.env.simulate d args) } := by
    simp only [Ledger.simulate]
    cases rpc.ledger.env.simulate d args <;> rfl
  refine ⟨counter, ?_⟩
  rw [ofLedger_final, hsame, hframe]
  rfl

theorem simulateTransaction_drawsOnly (d : Deps) (params : SimulateTransactionParams) :
    DrawsOnly (Rpc.simulateTransaction d params) := by
  simp only [Rpc.simulateTransaction]
  split
  · exact .pure _
  · split
    · refine .bind .get fun rpc => ?_
      split
      · exact lift_drawsOnly _
      · exact lift_drawsOnly _
      · split
        · exact .pure _
        · exact .bind (simulate_drawsOnly d _) fun _ => lift_drawsOnly _
      · exact .throw _
    · exact .throw _

/-- A request other than a submission and friendbot changes nothing but the
PRNG counter. -/
theorem handle_read (d : Deps) {request : RpcRequest} (h : request.writes = false) :
    DrawsOnly (Rpc.handle d request) := by
  refine .bind .get fun rpc => ?_
  cases request with
  | friendbot addr => cases h
  | sendTransaction envelope => cases h
  | simulateTransaction params => exact simulateTransaction_drawsOnly d params
  | getLatestLedger => exact lift_drawsOnly _
  | unimplemented method => exact .throw _
  | getHealth => exact .pure _
  | getNetwork => exact .pure _
  | getFeeStats => exact .pure _
  | getEvents startLedger filters limit => exact .pure _
  | getTransactions startLedger => exact .pure _
  | getLedgers startLedger limit => exact lift_drawsOnly _
  | getLedgerEntries keys => exact .pure _
  | getTransaction hash => exact .pure _

theorem Rpc.handle_friendbot (d : Deps) (addr : AccountId) (rpc : Rpc) :
    Rpc.handle d (.friendbot addr) rpc = Rpc.friendbot d addr rpc := rfl

theorem Rpc.handle_sendTransaction (d : Deps) (envelope : TransactionEnvelope) (rpc : Rpc) :
    Rpc.handle d (.sendTransaction envelope) rpc = Rpc.sendTransaction d envelope rpc := rfl

/-! ## friendbot -/

/-- The account friendbot creates. -/
def friendbotAccount (addr : AccountId) : AccountEntry where
  accountId := addr
  balance := 100000000000
  seqNum := 0
  numSubEntries := 0
  inflationDest := none
  flags := 0
  homeDomain := []
  thresholds := ⟨1, 0, 0, 0⟩
  signers := []
  ext := .v0

/-- Friendbot changes nothing, or it stores an account that was not there. -/
theorem friendbot_final (d : Deps) (addr : AccountId) (rpc : Rpc) :
    finalState (Rpc.friendbot d addr rpc) = rpc ∨
      rpc.ledger.store.account? addr = none ∧
        finalState (Rpc.friendbot d addr rpc) =
          { rpc with ledger := rpc.ledger.withAccount (friendbotAccount addr) } := by
  cases hentry : rpc.ledger.getEntry (.account addr) with
  | some entry =>
    refine .inl ?_
    simp only [Rpc.friendbot, bind, EStateM.bind, get, getThe, Effect.get_run,
      hentry, Option.isSome_some, if_true]
    rfl
  | none =>
    have hnone : rpc.ledger.store.account? addr = none := by
      rw [Store.account?, Ledger.getEntry_eq_none.mp hentry]
      rfl
    have hrun : finalState (Rpc.friendbot d addr rpc) =
        { rpc with ledger := finalState (storeAccount d (friendbotAccount addr) rpc.ledger) } := by
      have hfund : fundAccount d addr { balance := 100000000000 } rpc.ledger =
          storeAccount d (friendbotAccount addr) rpc.ledger := rfl
      simp only [Rpc.friendbot, bind, EStateM.bind, get, getThe, Effect.get_run,
        hentry, Option.isSome_none, Bool.false_eq_true, if_false, RpcM.ofLedger, hfund]
      cases storeAccount d (friendbotAccount addr) rpc.ledger <;> rfl
    rw [hrun, storeAccount_eq]
    cases d.encodeAccount (friendbotAccount addr) with
    | ok u => exact .inr ⟨hnone, rfl⟩
    | error e => exact .inl rfl

/-! ## sendTransaction -/

/-- The event logged for the `i`-th contract event of a transaction. -/
structure BufferedEvent.Logs (d : Deps) (ledger : Nat) (txHash : Hash) (e : BufferedEvent)
    (evt : ContractEvent) (i : Nat) : Prop where
  contractId : e.contractId = (match evt.contractId with
    | some cid => d.contractStrKey cid
    | none => "")
  topic : e.topic = evt.topics
  value : e.value = evt.data
  ledger : e.ledger = ledger
  txHash : e.txHash = txHash
  txIndex : e.txIndex = i

/-- `logged` holds one entry for each of the encoded events, in their order,
counted from `i`. -/
inductive LogsAll (d : Deps) (ledger : Nat) (txHash : Hash) :
    Nat → List (Encoded ContractEvent) → List BufferedEvent → Prop
  | nil {i : Nat} : LogsAll d ledger txHash i [] []
  | cons {i : Nat} {encoded : Encoded ContractEvent} {rest : List (Encoded ContractEvent)}
      {evt : ContractEvent} {e : BufferedEvent} {logged : List BufferedEvent} :
      encoded.decoded = some evt → e.Logs d ledger txHash evt i →
      LogsAll d ledger txHash (i + 1) rest logged →
      LogsAll d ledger txHash i (encoded :: rest) (e :: logged)

/-- Buffering the events of a transaction appends one entry for each, and
touches nothing else. -/
theorem pushEvents_ok {d : Deps} {txHash : Hash} {events : List (Encoded ContractEvent)} {i : Nat}
    {rpc rpc' : Rpc} {u : Unit} (h : Rpc.pushEvents d txHash events i rpc = .ok u rpc') :
    ∃ logged, LogsAll d rpc.ledger.ledgerSeq txHash i events logged ∧
      rpc' = { rpc with eventLog := rpc.eventLog ++ logged } := by
  induction events generalizing i rpc with
  | nil =>
    cases h
    exact ⟨[], .nil, by rw [List.append_nil]⟩
  | cons encoded rest ih =>
    simp only [Rpc.pushEvents] at h
    cases hdecoded : encoded.decoded with
    | none => simp [hdecoded] at h
    | some evt =>
      cases hdate : toISOString rpc.ledger.timestamp with
      | error e => simp [hdecoded, hdate] at h
      | ok closedAt =>
        simp only [hdecoded, hdate] at h
        obtain ⟨logged, hlogged, hrpc'⟩ := ih h
        refine ⟨Rpc.bufferedEvent d rpc txHash i closedAt evt :: logged,
          .cons hdecoded ⟨rfl, rfl, rfl, rfl, rfl, rfl⟩ hlogged, ?_⟩
        rw [hrpc', List.append_assoc]
        rfl

/-- Buffering that throws has appended some events, and touched nothing
else. -/
theorem pushEvents_error {d : Deps} {txHash : Hash} {events : List (Encoded ContractEvent)}
    {i : Nat} {rpc rpc' : Rpc} {e : JsError}
    (h : Rpc.pushEvents d txHash events i rpc = .error e rpc') :
    ∃ logged, rpc' = { rpc with eventLog := rpc.eventLog ++ logged } := by
  induction events generalizing i rpc with
  | nil =>
    simp only [Rpc.pushEvents] at h
    cases h
  | cons encoded rest ih =>
    simp only [Rpc.pushEvents] at h
    have hsame : ∃ logged, rpc = { rpc with eventLog := rpc.eventLog ++ logged } :=
      ⟨[], by rw [List.append_nil]⟩
    cases hdecoded : encoded.decoded with
    | none =>
      simp only [hdecoded, EStateM.Result.error.injEq] at h
      rw [← h.2]
      exact hsame
    | some evt =>
      cases hdate : toISOString rpc.ledger.timestamp with
      | error e' =>
        simp only [hdecoded, hdate, EStateM.Result.error.injEq] at h
        rw [← h.2]
        exact hsame
      | ok closedAt =>
        simp only [hdecoded, hdate] at h
        obtain ⟨logged, hrpc'⟩ := ih h
        refine ⟨Rpc.bufferedEvent d rpc txHash i closedAt evt :: logged, ?_⟩
        rw [hrpc', List.append_assoc]
        rfl

/-- The facade after a transaction was logged, recorded and its ledger
closed. -/
structure Recorded (d : Deps) (rpc : Rpc) (envelope : TransactionEnvelope) (txHash : Hash)
    (outcome : TxOutcome) (result : TransactionResult) (rpc' : Rpc) : Prop where
  ledger : rpc'.ledger = rpc.ledger.advanceLedgers 1
  validation : rpc'.validation = rpc.validation
  events : ∃ logged, LogsAll d rpc.ledger.ledgerSeq txHash 0 (outcome.events.getD []) logged ∧
    rpc'.eventLog = rpc.eventLog ++ logged
  submitted : ∃ resultMeta, transactionMeta outcome = .ok resultMeta ∧
    rpc'.submitted = rpc.submitted.set txHash
      (rpc.submittedTx envelope txHash outcome result resultMeta)

theorem recordTransaction_ok {d : Deps} {rpc rpc' : Rpc} {envelope : TransactionEnvelope}
    {txHash : Hash} {outcome : TxOutcome} {result : TransactionResult} {u : Unit}
    (h : Rpc.recordTransaction d envelope txHash outcome result rpc = .ok u rpc') :
    Recorded d rpc envelope txHash outcome result rpc' := by
  simp only [Rpc.recordTransaction, bind_eq_ok, ofLedger_ok, lift_ok] at h
  obtain ⟨_, mid, hpush, resultMeta, _, ⟨_, ⟨hmeta, rfl⟩, rfl⟩, h⟩ := h
  obtain ⟨logged, hlogged, rfl⟩ := pushEvents_ok hpush
  cases h
  exact ⟨rfl, rfl, ⟨logged, hlogged, rfl⟩, resultMeta, hmeta, rfl⟩

theorem recordTransaction_error {d : Deps} {rpc rpc' : Rpc} {envelope : TransactionEnvelope}
    {txHash : Hash} {outcome : TxOutcome} {result : TransactionResult} {e : JsError}
    (h : Rpc.recordTransaction d envelope txHash outcome result rpc = .error e rpc') :
    ∃ logged, rpc' = { rpc with eventLog := rpc.eventLog ++ logged } := by
  simp only [Rpc.recordTransaction, bind_eq_error] at h
  rcases h with hpush | ⟨_, mid, hpush, hmeta | ⟨_, _, _, hmodify⟩⟩
  · exact pushEvents_error hpush
  · obtain ⟨logged, -, rfl⟩ := pushEvents_ok hpush
    have hfinal := ofLedger_final (LedgerM.lift fun _ => transactionMeta outcome)
      { rpc with eventLog := rpc.eventLog ++ logged }
    rw [hmeta] at hfinal
    refine ⟨logged, hfinal.trans ?_⟩
    simp only [LedgerM.lift]
    cases transactionMeta outcome <;> rfl
  · cases hmodify

/-- The code of a transaction that was accepted is not one of those a
submission is refused with. -/
theorem Accepted.not_refused {d : Deps} {ledger ledger' debitedLedger operatedLedger : Ledger}
    {envelope : TransactionEnvelope} {passphrase : String} {validation : ValidationOptions}
    {outcome : TxOutcome} {a : Application} {v : Validated} {op : Operated}
    (h : Accepted d ledger envelope passphrase validation outcome ledger' a v debitedLedger
      operatedLedger op) : outcome.code ∉ Rpc.rejectedAtSubmit := by
  obtain ⟨inner, hsettle, rfl⟩ := h.settled
  obtain ⟨hrejected, -, hcode, -⟩ := settle_outcome hsettle
  have hop : op.outcome.code = .txSUCCESS ∨ op.outcome.code = .txFAILED := by
    rcases runOperation_ok h.operated with hfailed | ⟨_, _, hmoved⟩ | ⟨_, _, sent, _, hinvoked⟩
    · exact .inr hfailed.code
    · exact .inl hmoved.code
    · rw [hinvoked.operated, invokeOperated, hinvoked.ok]
      exact .inl rfl
  rw [runOperation_rejected h.operated] at hrejected
  split
  · simp only [bumpOutcome, hrejected, Bool.false_eq_true, if_false]
    split <;> decide
  · rw [hcode]
    rcases hop with hop | hop <;> rw [hop] <;> decide

/-- What a submission that answers has done: refused the envelope and changed
nothing, or applied it and recorded it. -/
theorem sendTransaction_ok {d : Deps} {rpc rpc' : Rpc} {envelope : TransactionEnvelope}
    {response : RpcResponse}
    (h : Rpc.sendTransaction d envelope rpc = .ok response rpc') :
    ∃ txHash innerHash outcome ledger,
      Rpc.envelopeHashes d rpc.ledger.networkPassphrase envelope = .ok (txHash, innerHash) ∧
      applyTransaction d envelope rpc.ledger.networkPassphrase rpc.validation rpc.ledger =
        .ok outcome ledger ∧
      ((outcome.rejected = true ∧ ledger = rpc.ledger ∧ rpc' = rpc ∧
          response = .error txHash rpc.lastClosed rpc.ledger.timestamp
            (transactionResult d outcome innerHash)) ∨
        (outcome.rejected = false ∧
          Recorded d { rpc with ledger := ledger } envelope txHash outcome
            (transactionResult d outcome innerHash) rpc' ∧
          response = .pending txHash rpc.lastClosed rpc.ledger.timestamp)) := by
  simp only [Rpc.sendTransaction] at h
  cases hhashes : Rpc.envelopeHashes d rpc.ledger.networkPassphrase envelope with
  | error e => simp [hhashes] at h
  | ok hashes =>
    simp only [hhashes] at h
    cases happly : applyTransaction d envelope rpc.ledger.networkPassphrase rpc.validation
        rpc.ledger with
    | error e ledger => simp [happly] at h
    | ok outcome ledger =>
      simp only [happly] at h
      refine ⟨hashes.1, hashes.2, outcome, ledger, rfl, rfl, ?_⟩
      rcases applyTransaction_ok happly with ⟨hrejected, rfl⟩ | ⟨haccepted, a, v, l₁, l₂, op, hop⟩
      · rw [if_pos (by simp [hrejected])] at h
        cases h
        exact .inl ⟨hrejected, rfl, rfl, rfl⟩
      · rw [if_neg (by simp [haccepted, hop.not_refused])] at h
        cases hrecord : Rpc.recordTransaction d envelope hashes.1 outcome
            (transactionResult d outcome hashes.2) { rpc with ledger := ledger } with
        | error e rpc₁ => simp [hrecord] at h
        | ok u rpc₁ =>
          simp only [hrecord] at h
          cases h
          exact .inr ⟨haccepted, recordTransaction_ok hrecord, rfl⟩

/-- Where a submission can throw: at the hashes, in the application, or while it
is recorded. -/
theorem sendTransaction_error_cases {d : Deps} {rpc rpc' : Rpc} {envelope : TransactionEnvelope}
    {e : JsError} (h : Rpc.sendTransaction d envelope rpc = .error e rpc') :
    (rpc' = rpc ∧ Rpc.envelopeHashes d rpc.ledger.networkPassphrase envelope = .error e) ∨
      ∃ ledger, ledger = finalState (applyTransaction d envelope rpc.ledger.networkPassphrase
          rpc.validation rpc.ledger) ∧
        (rpc' = { rpc with ledger := ledger } ∨
          ∃ txHash outcome result, outcome.rejected = false ∧
            applyTransaction d envelope rpc.ledger.networkPassphrase rpc.validation rpc.ledger =
              .ok outcome ledger ∧
            Rpc.recordTransaction d envelope txHash outcome result { rpc with ledger := ledger } =
              .error e rpc') := by
  simp only [Rpc.sendTransaction] at h
  cases hhashes : Rpc.envelopeHashes d rpc.ledger.networkPassphrase envelope with
  | error e' =>
    simp only [hhashes, EStateM.Result.error.injEq] at h
    exact .inl ⟨h.2.symm, by rw [h.1]⟩
  | ok hashes =>
    simp only [hhashes] at h
    refine .inr ⟨_, rfl, ?_⟩
    cases happly : applyTransaction d envelope rpc.ledger.networkPassphrase rpc.validation
        rpc.ledger with
    | error e' ledger =>
      simp only [happly, EStateM.Result.error.injEq] at h
      exact .inl h.2.symm
    | ok outcome ledger =>
      simp only [happly] at h
      split at h
      · cases h
      · next hnot =>
        have hrejected : outcome.rejected = false := by
          simp only [Bool.or_eq_true, not_or, Bool.not_eq_true] at hnot
          exact hnot.1
        cases hrecord : Rpc.recordTransaction d envelope hashes.1 outcome
            (transactionResult d outcome hashes.2) { rpc with ledger := ledger } with
        | ok u rpc₁ => simp [hrecord] at h
        | error e' rpc₁ =>
          simp only [hrecord, EStateM.Result.error.injEq] at h
          obtain ⟨rfl, rfl⟩ := h
          exact .inr ⟨_, outcome, _, hrejected, rfl, hrecord⟩

/-- A submission that throws has applied the transaction as far as it goes,
and may have logged some of its events.  It has recorded nothing. -/
theorem sendTransaction_error {d : Deps} {rpc rpc' : Rpc} {envelope : TransactionEnvelope}
    {e : JsError} (h : Rpc.sendTransaction d envelope rpc = .error e rpc') :
    (rpc' = rpc ∧ Rpc.envelopeHashes d rpc.ledger.networkPassphrase envelope = .error e) ∨
      ∃ logged, rpc' = { rpc with
        ledger := finalState (applyTransaction d envelope rpc.ledger.networkPassphrase
          rpc.validation rpc.ledger)
        eventLog := rpc.eventLog ++ logged } := by
  refine (sendTransaction_error_cases h).imp_right ?_
  rintro ⟨_, rfl, rfl | ⟨_, _, _, -, -, hrecord⟩⟩
  · exact ⟨[], by rw [List.append_nil]⟩
  · obtain ⟨logged, rfl⟩ := recordTransaction_error hrecord
    exact ⟨logged, rfl⟩

/-! ## Submissions over XDR that decodes -/

/-- On a date JavaScript has, events that decode are all buffered. -/
theorem pushEvents_total {d : Deps} {txHash : Hash} {events : List (Encoded ContractEvent)}
    (hevents : ∀ event ∈ events, event.decoded.isSome) {i : Nat} {rpc : Rpc} {closedAt : String}
    (hdate : toISOString rpc.ledger.timestamp = .ok closedAt) :
    ∃ rpc', Rpc.pushEvents d txHash events i rpc = .ok () rpc' := by
  induction events generalizing i rpc with
  | nil => exact ⟨rpc, rfl⟩
  | cons encoded rest ih =>
    obtain ⟨evt, hevt⟩ := Option.isSome_iff_exists.mp (hevents encoded List.mem_cons_self)
    simp only [Rpc.pushEvents, hevt, hdate]
    exact ih (fun event hevent => hevents event (List.mem_cons_of_mem encoded hevent)) hdate

/-- Buffering events that decode throws before the first one or not at all. -/
theorem pushEvents_error_of_decodes {d : Deps} {txHash : Hash}
    {events : List (Encoded ContractEvent)} (hevents : ∀ event ∈ events, event.decoded.isSome)
    {i : Nat} {rpc rpc' : Rpc} {e : JsError}
    (h : Rpc.pushEvents d txHash events i rpc = .error e rpc') : rpc' = rpc := by
  cases hdate : toISOString rpc.ledger.timestamp with
  | ok closedAt =>
    obtain ⟨_, htotal⟩ := pushEvents_total hevents hdate
    rw [htotal] at h
    cases h
  | error e' =>
    cases events with
    | nil => cases h
    | cons encoded rest =>
      obtain ⟨evt, hevt⟩ := Option.isSome_iff_exists.mp (hevents encoded List.mem_cons_self)
      simp only [Rpc.pushEvents, hevt, hdate, EStateM.Result.error.injEq] at h
      exact h.2.symm

/-- Recording a transaction whose answer decodes logs all of it or nothing. -/
theorem recordTransaction_error_of_decodes {d : Deps} {rpc rpc' : Rpc}
    {envelope : TransactionEnvelope} {txHash : Hash} {outcome : TxOutcome}
    (hdecodes : outcome.Decodes) {result : TransactionResult} {e : JsError}
    (h : Rpc.recordTransaction d envelope txHash outcome result rpc = .error e rpc') :
    rpc' = rpc := by
  simp only [Rpc.recordTransaction, bind_eq_error] at h
  rcases h with hpush | ⟨_, mid, -, hmeta | ⟨_, _, _, hmodify⟩⟩
  · exact pushEvents_error_of_decodes hdecodes.events hpush
  · have htotal : ∃ resultMeta, transactionMeta outcome = .ok resultMeta := by
      simp only [transactionMeta]
      split
      · exact ⟨_, rfl⟩
      · exact ⟨_, rfl⟩
      · next hreturned =>
        have := hdecodes.returnValue _ hreturned
        cases this
    obtain ⟨resultMeta, htotal⟩ := htotal
    simp only [RpcM.ofLedger, LedgerM.lift, htotal] at hmeta
    cases hmeta
  · cases hmodify

/-- Under a host whose XDR decodes, a submission that throws has logged
nothing. -/
theorem sendTransaction_error_of_decodes {d : Deps} (hhost : d.ReturnsXdr) {rpc rpc' : Rpc}
    {envelope : TransactionEnvelope} {e : JsError}
    (h : Rpc.sendTransaction d envelope rpc = .error e rpc') :
    rpc' = rpc ∨ rpc' = { rpc with
      ledger := finalState (applyTransaction d envelope rpc.ledger.networkPassphrase
        rpc.validation rpc.ledger) } := by
  rcases sendTransaction_error_cases h with
    ⟨rfl, -⟩ | ⟨_, rfl, rfl | ⟨_, _, _, hrejected, happly, hrecord⟩⟩
  · exact .inl rfl
  · exact .inr rfl
  · rcases applyTransaction_ok happly with ⟨hrejected', -⟩ | ⟨-, _, _, _, _, _, hstages⟩
    · cases hrejected.symm.trans hrejected'
    · exact .inr (recordTransaction_error_of_decodes (hstages.decodes hhost) hrecord)

end LiteSoroban

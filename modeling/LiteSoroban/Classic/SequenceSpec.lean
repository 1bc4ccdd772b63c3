import LiteSoroban.Classic.FootprintSpec
import LiteSoroban.Env.HostContract

/-!
# Sequence numbers

What an application does to the sequence numbers, also when it throws.  The
bump raises one of them, and nothing after it moves any: the debit and the
refund rewrite a balance, a footprint operation moves TTLs, and the host is
assumed to keep the sequence number of every account it was handed.

`SeqKept` and `SeqClimbs` are the two relations between the ledgers before and
after.  Both carry `Store.Keyed` along, which every stage needs of the one
before it.
-/

namespace LiteSoroban

open Effect

/-! ## One key at a time -/

theorem Store.account?_insert (store : Store) (key : LedgerKey) (e : EntryWithLiveUntil)
    (id : AccountId) :
    Store.account? (store.insert key e) id =
      if key = .account id then e.entry.data.account? else store.account? id := by
  simp only [Store.account?]
  split
  · next h =>
    subst h
    rw [Finmap.lookup_insert]
    rfl
  · next h => rw [Finmap.lookup_insert_of_ne _ (Ne.symm h)]

theorem Store.account?_erase_of_ne (store : Store) {key : LedgerKey} {id : AccountId}
    (h : key ≠ .account id) : Store.account? (store.erase key) id = store.account? id := by
  simp only [Store.account?, Finmap.lookup_erase_ne (Ne.symm h)]

/-! ## The host -/

/-- A change of an account the host was handed: the account stays, and keeps
its sequence number. -/
structure LedgerEntryChange.KeepsSequence (ch : LedgerEntryChange) (account : AccountEntry) :
    Prop where
  stays : ch.encodedNewValue = none → ch.readOnly = true
  seqNum : ∀ newValue entry, ch.encodedNewValue = some newValue → newValue.decoded = some entry →
    entry.data.account?.map (·.seqNum) = some account.seqNum

/-- The host changes accounts of the footprint only, moves no sequence number
and removes no account. -/
def Deps.KeepsSequences (d : Deps) : Prop :=
  ∀ input ch id, d.Returns input ch → ch.encodedKey.decoded = some (.account id) →
    .account id ∈ input.resources.footprint.keys ∧
    ∀ item encoded entry account, (.account id, item) ∈ input.handed → item.1 = some encoded →
      encoded.decoded = some entry → entry.data.account? = some account → ch.KeepsSequence account

/-- An account of the footprint is handed over as it is stored. -/
theorem Prepared.handed_account {d : Deps} {env : SorobanEnv} {args : SendArgs}
    {input : HostInput} {loaded : Loaded} (h : Prepared d env args input loaded)
    {id : AccountId} {account : AccountEntry} (haccount : env.store.account? id = some account)
    (hkey : .account id ∈ input.resources.footprint.keys) :
    ∃ item encoded entry, (.account id, item) ∈ input.handed ∧ item.1 = some encoded ∧
      encoded.decoded = some entry ∧ entry.data.account? = some account := by
  obtain ⟨item, hmem, hhanded⟩ := h.exists_handed hkey
  simp only [Store.account?, Option.bind_eq_some_iff] at haccount
  obtain ⟨e, he, hdata⟩ := haccount
  simp only [SorobanEnv.Handed, he, isTemporary, Bool.false_and, Bool.false_eq_true,
    if_false] at hhanded
  exact ⟨_, _, e.entry, hmem, hhanded.1, rfl, hdata⟩

/-- One turn of the merge loop keeps the sequence numbers of `store`. -/
theorem mergeChange_seqNum {store : Store} {ch : LedgerEntryChange}
    (hch : ∀ id account, ch.encodedKey.decoded = some (.account id) →
      store.account? id = some account → ch.KeepsSequence account)
    {m : Merged} (hm : ∀ id b, store.seqNum? id = some b → m.store.seqNum? id = some b)
    (id : AccountId) (b : Int) (hb : store.seqNum? id = some b) :
    (finalState (mergeChange ch m)).store.seqNum? id = some b := by
  have hbefore := hm id b hb
  simp only [Store.seqNum?, Option.map_eq_some_iff] at hb
  obtain ⟨account, haccount, rfl⟩ := hb
  rcases mergeChange_cases ch m with hsame | ⟨key, newValue, entry, hkey, hnew, hentry, hstore⟩ |
    ⟨key, slot, ttl, -, -, -, -, hslot, hstore⟩ | ⟨key, hkey, hnone, hro, hstore⟩
  · rw [hsame]
    exact hbefore
  · rw [hstore, Store.seqNum?, Store.account?_insert]
    split
    · next h =>
      subst h
      exact (hch id account hkey haccount).seqNum newValue entry hnew hentry
    · exact hbefore
  · rw [hstore, Store.seqNum?, Store.account?_insert]
    split
    · next h =>
      subst h
      rw [Store.seqNum?, Store.account?, hslot] at hbefore
      exact hbefore
    · exact hbefore
  · have hne : key ≠ .account id := by
      rintro rfl
      have := (hch id account hkey haccount).stays hnone
      rw [hro] at this
      cases this
    rw [hstore, Store.seqNum?, Store.account?_erase_of_ne _ hne]
    exact hbefore

/-- A call keeps every sequence number, also when it throws. -/
theorem send_seqNum {d : Deps} (hhost : d.KeepsSequences) {args : SendArgs} {env : SorobanEnv}
    {id : AccountId} {b : Int} (hb : env.store.seqNum? id = some b) :
    (finalState (env.send d args)).store.seqNum? id = some b := by
  rcases send_frame d args env with ⟨cache, hframe⟩ | ⟨input, res, _, _, hdone, hframe⟩
  · rw [hframe]
    exact hb
  · rw [hframe]
    obtain ⟨loaded, hprepared⟩ := prepareSend_ok hdone.prepared
    have hkept : ∀ id b, env.store.seqNum? id = some b →
        (mergedStore env.store res.ledgerChanges).seqNum? id = some b := by
      refine mergeChanges_induction
        (P := fun m => ∀ id b, env.store.seqNum? id = some b → m.store.seqNum? id = some b)
        (fun ch hch m hm => mergeChange_seqNum (fun id account hkey haccount => ?_) hm)
        (fun _ _ h => h)
      obtain ⟨hmem, hkeeps⟩ := hhost input ch id ⟨res, hdone.returned, hch⟩ hkey
      obtain ⟨item, encoded, entry, hhanded, hitem, hdecoded, hdata⟩ :=
        hprepared.handed_account haccount hmem
      exact hkeeps item encoded entry account hhanded hitem hdecoded hdata
    exact hkept id b hb

/-! ## The stages of an application -/

/-- Every sequence number is where it was. -/
structure SeqKept (ledger ledger' : Ledger) : Prop where
  keyed : ledger'.store.Keyed
  kept : ∀ id b, ledger.store.seqNum? id = some b → ledger'.store.seqNum? id = some b

/-- No sequence number is lost or lower. -/
structure SeqClimbs (ledger ledger' : Ledger) : Prop where
  keyed : ledger'.store.Keyed
  climbs : ∀ id b, ledger.store.seqNum? id = some b →
    ∃ b', ledger'.store.seqNum? id = some b' ∧ b ≤ b'

theorem SeqKept.trans {a b c : Ledger} (hab : SeqKept a b) (hbc : SeqKept b c) : SeqKept a c :=
  ⟨hbc.keyed, fun id n hn => hbc.kept id n (hab.kept id n hn)⟩

/-- Sequence numbers and keys are read from the store alone. -/
theorem SeqKept.of_store {ledger ledger' : Ledger} (hkeyed : ledger.store.Keyed)
    (h : ledger'.store = ledger.store) : SeqKept ledger ledger' :=
  ⟨h ▸ hkeyed, fun _ _ hb => h ▸ hb⟩

theorem SeqKept.climbs {a b : Ledger} (h : SeqKept a b) : SeqClimbs a b :=
  ⟨h.keyed, fun id n hn => ⟨n, h.kept id n hn, le_rfl⟩⟩

theorem SeqClimbs.trans {a b c : Ledger} (hab : SeqClimbs a b) (hbc : SeqClimbs b c) :
    SeqClimbs a c := by
  refine ⟨hbc.keyed, fun id n hn => ?_⟩
  obtain ⟨n₁, hn₁, hle₁⟩ := hab.climbs id n hn
  obtain ⟨n₂, hn₂, hle₂⟩ := hbc.climbs id n₁ hn₁
  exact ⟨n₂, hn₂, hle₁.trans hle₂⟩

/-- A debit keeps every sequence number, also when it throws. -/
theorem debit_seqKept (d : Deps) (payer : AccountId) (amount : Int) {ledger : Ledger}
    (hkeyed : ledger.store.Keyed) : SeqKept ledger (finalState (debit d payer amount ledger)) := by
  cases h : debit d payer amount ledger with
  | ok u ledger' =>
    have hdebit := debit_ok hkeyed h
    exact ⟨hdebit.keyed, fun id b hb => (hdebit.seqNum_debited id).trans hb⟩
  | error e ledger' => exact .of_store hkeyed (by rw [finalState_error, rewriteAccount_error h])

/-- The operation keeps every sequence number, also when it throws. -/
theorem runOperation_seqKept {d : Deps} (hhost : d.ReturnsKeyed) (hseq : d.KeepsSequences)
    {v : Validated} (cap : Option Int) {first ledger : Ledger} {u : Unit}
    (hsoroban : v.op.body.isSoroban = true) (hshape : checkFootprintOp first v.toShaped = .ok u)
    (hkeyed : ledger.store.Keyed) :
    SeqKept ledger (finalState (runOperation d v cap ledger)) := by
  rcases runOperation_final d v cap ledger with hsame | ⟨hinvoke, moves, hselected, hput⟩ |
    ⟨hostFunction, auth, -, hcall⟩
  · rw [hsame]
    exact .of_store hkeyed rfl
  · obtain ⟨ledger', hok, hmoved⟩ := putMoves_selected hkeyed hinvoke hsoroban hshape hselected
    rw [hput, hok]
    refine ⟨hmoved.keyed, fun id b hb => ?_⟩
    rw [finalState_ok, Store.seqNum?, hmoved.account?]
    exact hb
  · rw [hcall]
    exact ⟨send_keyed hhost hkeyed, fun id b hb => send_seqNum hseq hb⟩

/-- The refund keeps every sequence number, also when it throws. -/
theorem settle_seqKept (d : Deps) (v : Validated) (charge : Option FeeCharge) (op : Operated)
    {ledger : Ledger} (hkeyed : ledger.store.Keyed) :
    SeqKept ledger (finalState (settle d v charge op ledger)) := by
  cases charge with
  | none => exact .of_store hkeyed rfl
  | some charge =>
    simp only [settle]
    rw [finalState_map]
    simp only [giveBack]
    split
    · exact debit_seqKept d charge.payer _ hkeyed
    · exact .of_store hkeyed rfl

/-- The bump and the debit, also when one of them throws: the source's
sequence number is its next one, or nothing has changed. -/
theorem commitClassic_climbs {d : Deps} {a : Application} {v : Validated} {ledger : Ledger}
    (hkeyed : ledger.store.Keyed) (hsource : ledger.store.account? a.raw.sourceId = some v.account)
    (hnext : v.account.seqNum < a.nextSeqNum v.account) :
    SeqClimbs ledger (finalState (commitClassic d a v ledger)) := by
  have hbumped : SeqClimbs ledger
      (finalState (bumpSequence d a.raw.sourceId (a.nextSeqNum v.account) ledger)) := by
    cases hbump : bumpSequence d a.raw.sourceId (a.nextSeqNum v.account) ledger with
    | error e ledger' =>
      exact (SeqKept.of_store hkeyed (by rw [finalState_error, rewriteAccount_error hbump])).climbs
    | ok u mid =>
      have hmid := bumpSequence_ok hkeyed hbump
      refine ⟨hmid.keyed, fun id b hb => ?_⟩
      rw [finalState_ok, hmid.seqNum_bumped]
      split
      · next hid =>
        rw [hid, Store.seqNum?, hsource] at hb
        cases hb
        exact ⟨_, rfl, hnext.le⟩
      · exact ⟨b, hb, le_rfl⟩
  refine finalState_bind (R := SeqClimbs) SeqClimbs.trans hbumped fun u mid hbump => ?_
  have hmid := bumpSequence_ok hkeyed hbump
  cases a.charge with
  | none => exact (SeqKept.of_store hmid.keyed rfl).climbs
  | some charge => exact (debit_seqKept d charge.payer charge.upfront hmid.keyed).climbs

/-! ## The application -/

/-- The source whose sequence number an application raises is stored, and its
next number is above the stored one. -/
theorem Passed.source {d : Deps} {ledger : Ledger} {a : Application} {v : Validated}
    {c₁ c₂ : Option SignatureChecker} (h : Passed d ledger a v c₁ c₂)
    (hkeyed : ledger.store.Keyed) :
    ledger.store.account? a.raw.sourceId = some v.account ∧
      v.account.seqNum < a.nextSeqNum v.account :=
  ⟨loadSources_account hkeyed h.sources, lt_nextSeqNum h.sequence⟩

/-- The commit of a transaction that passed its checks loses and lowers no
sequence number, also when it throws. -/
theorem commit_climbs {d : Deps} (hhost : d.ReturnsKeyed) (hseq : d.KeepsSequences)
    {ledger : Ledger} {a : Application} {v : Validated} (hkeyed : ledger.store.Keyed)
    (hvalid : validate d ledger a = .ok v) :
    SeqClimbs ledger (finalState (commit d a v ledger)) := by
  obtain ⟨c₁, c₂, hpassed⟩ := validate_ok hvalid
  obtain ⟨-, hsoroban, -⟩ := checkShape_ok hpassed.shape
  obtain ⟨hsource, hnext⟩ := hpassed.source hkeyed
  refine finalState_bind (R := SeqClimbs) SeqClimbs.trans (commitClassic_climbs hkeyed hsource hnext)
    fun u l₁ hclassic => ?_
  have hcommitted := commitClassic_effect hkeyed hclassic
  have hoperation := runOperation_seqKept hhost hseq (a.charge.map fun _ => v.maxRefundable)
    hsoroban hpassed.footprintOp hcommitted.keyed
  refine finalState_bind (R := SeqClimbs) SeqClimbs.trans hoperation.climbs fun op l₂ hop => ?_
  rw [hop] at hoperation
  exact (settle_seqKept d v a.charge op hoperation.keyed).climbs

/-- No application loses or lowers a sequence number, whether it rejects,
succeeds, fails or throws. -/
theorem applyTransaction_climbs {d : Deps} (hhost : d.ReturnsKeyed) (hseq : d.KeepsSequences)
    {ledger : Ledger} (hkeyed : ledger.store.Keyed) (envelope : TransactionEnvelope)
    (passphrase : String) (validation : ValidationOptions) :
    SeqClimbs ledger
      (finalState (applyTransaction d envelope passphrase validation ledger)) := by
  have hcommit : ∀ {a v ledger'}, validate d ledger a = .ok v →
      finalState (commit d a v ledger) = ledger' → SeqClimbs ledger ledger' := by
    intro a v ledger' hvalid hfinal
    rw [← hfinal]
    exact commit_climbs hhost hseq hkeyed hvalid
  cases h : applyTransaction d envelope passphrase validation ledger with
  | ok outcome ledger' =>
    rcases applyTransaction_ok h with ⟨-, rfl⟩ | ⟨-, a, v, l₁, l₂, op, hstages⟩
    · exact (SeqKept.of_store hkeyed rfl).climbs
    · obtain ⟨inner, hsettle, -⟩ := hstages.settled
      refine hcommit hstages.validated ?_
      have hrun : commit d a v ledger = .ok inner ledger' :=
        bind_eq_ok.mpr ⟨(), l₁, hstages.classic, bind_eq_ok.mpr ⟨op, l₂, hstages.operated, hsettle⟩⟩
      rw [hrun]
      rfl
  | error e ledger' =>
    rcases applyTransaction_error h with rfl | ⟨a, v, -, hvalid, hcommitted⟩
    · exact (SeqKept.of_store hkeyed rfl).climbs
    · exact hcommit hvalid (by rw [hcommitted, finalState_error])

/-- The sequence numbers after a transaction that was accepted with the
sequence check on: the source's is the transaction's, and was below it.  Every
other account has kept its own. -/
structure SeqSpent (ledger ledger' : Ledger) (raw : Transaction) : Prop where
  below : ∃ before, ledger.store.seqNum? raw.sourceId = some before ∧ before < raw.seqNum
  lands : ledger'.store.seqNum? raw.sourceId = some raw.seqNum
  others : ∀ id b, id ≠ raw.sourceId → ledger.store.seqNum? id = some b →
    ledger'.store.seqNum? id = some b

theorem applyTransaction_seqSpent {d : Deps} (hhost : d.ReturnsKeyed) (hseq : d.KeepsSequences)
    {ledger ledger' : Ledger} (hkeyed : ledger.store.Keyed) {envelope : TransactionEnvelope}
    {passphrase : String} {validation : ValidationOptions} {outcome : TxOutcome}
    (hcheck : validation.sequenceCheck = true)
    (h : applyTransaction d envelope passphrase validation ledger = .ok outcome ledger')
    (haccepted : outcome.rejected = false) :
    ∃ raw, envelope.innerTx? = some raw ∧ SeqSpent ledger ledger' raw := by
  rcases applyTransaction_ok h with ⟨hrejected, -⟩ | ⟨-, a, v, l₁, l₂, op, hstages⟩
  · rw [hrejected] at haccepted
    cases haccepted
  obtain ⟨c₁, c₂, hpassed⟩ := validate_ok hstages.validated
  obtain ⟨-, hsoroban, -⟩ := checkShape_ok hpassed.shape
  obtain ⟨hsource, hnext⟩ := hpassed.source hkeyed
  have henvelope := envelopeApplication_ok hstages.application
  have hnextSeqNum : a.nextSeqNum v.account = a.raw.seqNum := by
    rw [Application.nextSeqNum, henvelope.switches, if_pos hcheck]
  -- The bump sets the number, and the later stages keep it.
  have hcommitted := commitClassic_effect hkeyed hstages.classic
  have hoperation := runOperation_seqKept hhost hseq (a.charge.map fun _ => v.maxRefundable)
    hsoroban hpassed.footprintOp hcommitted.keyed
  rw [hstages.operated] at hoperation
  obtain ⟨inner, hsettle, -⟩ := hstages.settled
  have hsettled := settle_seqKept d v a.charge op hoperation.keyed
  rw [finalState_ok, hsettle] at hsettled
  have hkept := hoperation.trans hsettled
  refine ⟨a.raw, henvelope.innerTx, ⟨v.account.seqNum, ?_, ?_⟩, ?_, fun id b hid hb => ?_⟩
  · rw [Store.seqNum?, hsource]
    rfl
  · rw [← hnextSeqNum]
    exact hnext
  · refine hkept.kept _ _ ?_
    rw [hcommitted.seqNum, if_pos rfl, hnextSeqNum]
  · refine hkept.kept _ _ ?_
    rw [hcommitted.seqNum, if_neg hid]
    exact hb

end LiteSoroban

import LiteSoroban.Classic.SequenceSpec
import LiteSoroban.Classic.FeeAccounting
import LiteSoroban.Classic.Frame
import LiteSoroban.Env.SendThrows

/-!
# Exceptions and the commit point

An exception keeps the ledger as it stood when it was thrown.  Before the
sequence bump that is the ledger of the caller, and after it, it is not: the
bump is stored, and so is the debit.

`CommitThrows` lists what can throw after the bump, each place with what it
converts there.  `applyTransaction_throws_unchanged_iff` says that an exception
leaves the ledger as it was if and only if none of them is reached.
-/

namespace LiteSoroban

open Effect

/-! ## Account rewrites -/

/-- The encoder refuses the account of `id` with `amount` less in it. -/
def DebitRefused (d : Deps) (id : AccountId) (amount : Int) (ledger : Ledger) : Prop :=
  ∀ account, ledger.store.account? id = some account →
    ∃ e, d.encodeAccount (debited amount account) = .error e

/-- The ledger with `amount` taken from an account. -/
def Ledger.withDebit (ledger : Ledger) (id : AccountId) (amount : Int) : Ledger :=
  match ledger.store.account? id with
  | some account => ledger.withAccount (debited amount account)
  | none => ledger

theorem rewriteAccount_of_present {d : Deps} {id : AccountId}
    {f : Ledger → AccountEntry → AccountEntry} {ledger : Ledger} (hkeyed : ledger.store.Keyed)
    {account : AccountEntry} (haccount : ledger.store.account? id = some account) :
    rewriteAccount d id f ledger = match d.encodeAccount (f ledger account) with
      | .ok () => .ok () (ledger.withAccount (f ledger account))
      | .error e => .error e ledger := by
  rw [rewriteAccount_eq, (loadAccount!_eq_ok hkeyed).mpr haccount]
  exact storeAccount_eq d _ ledger

/-- A debit throws when the encoder refuses what it would store. -/
theorem debit_throws_iff {d : Deps} {id : AccountId} {amount : Int} {ledger : Ledger}
    (hkeyed : ledger.store.Keyed) :
    Throws (debit d id amount) ledger ↔ DebitRefused d id amount ledger := by
  unfold Throws DebitRefused debit
  cases haccount : ledger.store.account? id with
  | none =>
    rw [rewriteAccount_eq, loadAccount!, loadAccount_keyed hkeyed, haccount]
    exact iff_of_true ⟨_, _, rfl⟩ fun account h => by cases h
  | some account =>
    rw [rewriteAccount_of_present hkeyed haccount]
    cases hencode : d.encodeAccount (debited amount account) with
    | ok u => simp [hencode]
    | error e => simp [hencode]

theorem debit_withDebit {d : Deps} {id : AccountId} {amount : Int} {ledger ledger' : Ledger}
    (hkeyed : ledger.store.Keyed) (h : debit d id amount ledger = .ok () ledger') :
    ledger' = ledger.withDebit id amount := by
  unfold debit at h
  rcases rewriteAccount_cases d id (fun _ => debited amount) ledger with
    ⟨e, hthrew⟩ | ⟨account, hload, hstored⟩
  · cases hthrew.symm.trans h
  · cases hstored.symm.trans h
    unfold Ledger.withDebit
    rw [(loadAccount!_eq_ok hkeyed).mp hload]

/-! ## The operation -/

/-- What can throw while the operation runs. -/
inductive OperationThrows (d : Deps) (v : Validated) (cap : Option Int) (ledger : Ledger) :
    Prop where
  /-- The host call. -/
  | host {opAccount : AccountEntry} {hostFunction : HostFunction}
      {auth : List SorobanAuthorizationEntry} (hsource : v.opAccount = some opAccount)
      (hbody : v.op.body = .invokeHostFunction hostFunction auth)
      (h : SendThrows d (invokeArgs v hostFunction auth cap) ledger.env)
  /-- A footprint operation: the host refuses to size an entry it moves. -/
  | rentSize {opAccount : AccountEntry} {moves : List TtlMove} {m : TtlMove} {e : JsError}
      (hsource : v.opAccount = some opAccount) (hbody : v.op.body.isInvoke = false)
      (hmoves : selectedMoves d ledger v.toShaped = .ok moves) (hm : m ∈ moves)
      (h : ledger.env.entrySizeForRent d m.key = .error e)
  /-- A footprint operation: there are no settings to price its moves with. -/
  | unpriced {opAccount : AccountEntry} {moves : List TtlMove}
      (hsource : v.opAccount = some opAccount) (hbody : v.op.body.isInvoke = false)
      (hmoves : selectedMoves d ledger v.toShaped = .ok moves)
      (h : ledger.env.feeSettings = none)

theorem lift_throws_iff {α : Type} {x : Ledger → Except JsError α} {ledger : Ledger} :
    Throws (LedgerM.lift x) ledger ↔ ∃ e, x ledger = .error e := by
  unfold Throws LedgerM.lift
  cases x ledger <;> simp

/-- The rows of the moves are not made when the size of one is refused. -/
theorem rentChangesOf_error_iff {d : Deps} {ledger : Ledger} {moves : List TtlMove} :
    (∃ e, rentChangesOf d ledger moves = .error e) ↔
      ∃ m ∈ moves, ∃ e, ledger.env.entrySizeForRent d m.key = .error e := by
  induction moves with
  | nil => simp [rentChangesOf]
  | cons m moves ih =>
    rw [List.exists_mem_cons_iff, ← ih]
    simp only [rentChangesOf]
    cases ledger.env.entrySizeForRent d m.key with
    | error e => simp [bind, Except.bind]
    | ok size =>
      cases rentChangesOf d ledger moves with
      | error e => simp [bind, Except.bind]
      | ok rows => simp [bind, Except.bind, pure, Except.pure]

/-- Pricing throws on a size the host refuses, and without settings. -/
theorem rent_error_iff {d : Deps} {moves : List TtlMove} {ledger : Ledger} :
    (∃ e, (do ledger.computeRentFee d (← rentChangesOf d ledger moves)) = .error e) ↔
      (∃ m ∈ moves, ∃ e, ledger.env.entrySizeForRent d m.key = .error e) ∨
        ledger.env.feeSettings = none := by
  rw [← rentChangesOf_error_iff]
  cases rentChangesOf d ledger moves with
  | error e => simp [bind, Except.bind]
  | ok rows =>
    unfold Ledger.computeRentFee SorobanEnv.computeRentFeeFor SorobanEnv.fees
    cases ledger.env.feeSettings with
    | none => simp [bind, Except.bind]
    | some settings => simp [bind, Except.bind, pure, Except.pure]

/-- Moves that can be made throw only while they are priced. -/
theorem moveTtls_throws_iff {d : Deps} {moves : List TtlMove} {cap : Option Int}
    {ledger : Ledger} (hkeys : ∀ m ∈ moves, keyOf m.entry = .ok m.key) :
    Throws (moveTtls d moves cap) ledger ↔
      (∃ m ∈ moves, ∃ e, ledger.env.entrySizeForRent d m.key = .error e) ∨
        ledger.env.feeSettings = none := by
  have hput : ∀ changed rent, ¬ Throws (do
      putMoves moves
      return ({ changed := changed, rent := rent } : FootprintOpApplied)) ledger := by
    intro changed rent
    rw [throws_map]
    rintro ⟨e, ledger', h⟩
    cases (putMoves_eq hkeys ledger).symm.trans h
  unfold moveTtls
  rw [throws_bind, lift_throws_iff, rent_error_iff]
  refine or_iff_left ?_
  rintro ⟨rent, ledger', hlift, hthrows⟩
  rw [(lift_ok.mp hlift).2] at hthrows
  cases cap with
  | none => exact hput _ _ hthrows
  | some max =>
    dsimp only at hthrows
    split at hthrows
    · exact not_throws_pure _ _ hthrows
    · exact hput _ _ hthrows

/-- A host call throws when `send` does. -/
theorem runOperation_throws_invoke {d : Deps} {v : Validated} {cap : Option Int} {ledger : Ledger}
    {opAccount : AccountEntry} {hostFunction : HostFunction}
    {auth : List SorobanAuthorizationEntry} (hsource : v.opAccount = some opAccount)
    (hbody : v.op.body = .invokeHostFunction hostFunction auth) :
    Throws (runOperation d v cap) ledger ↔
      SendThrows d (invokeArgs v hostFunction auth cap) ledger.env := by
  have hrun : runOperation d v cap =
      (do return invokeOperated (← Ledger.send d (invokeArgs v hostFunction auth cap))) := by
    unfold runOperation
    rw [hsource, hbody]
  rw [hrun, throws_map, ← send_throws_iff]
  unfold Throws
  rw [send_invokeArgs]
  cases ledger.env.send d (invokeArgs v hostFunction auth cap) <;> simp

/-- A footprint operation that passed the checks throws when its moves cannot
be priced. -/
theorem runOperation_throws_footprint {d : Deps} {v : Validated} {cap : Option Int}
    {first ledger : Ledger} {u : Unit} {opAccount : AccountEntry} (hkeyed : ledger.store.Keyed)
    (hsource : v.opAccount = some opAccount) (hinvoke : v.op.body.isInvoke = false)
    (hsoroban : v.op.body.isSoroban = true) (hshape : checkFootprintOp first v.toShaped = .ok u) :
    Throws (runOperation d v cap) ledger ↔ ∃ moves, selectedMoves d ledger v.toShaped = .ok moves ∧
      ((∃ m ∈ moves, ∃ e, ledger.env.entrySizeForRent d m.key = .error e) ∨
        ledger.env.feeSettings = none) := by
  obtain ⟨arms, apply, hrun, happly⟩ := runOperation_footprint d cap hsource hinvoke hsoroban
  rw [hrun, throws_map]
  unfold Throws
  rw [happly]
  cases hmoves : selectedMoves d ledger v.toShaped with
  | error overLimit => simp
  | ok moves =>
    obtain ⟨_, -, hmoved⟩ := putMoves_selected hkeyed hinvoke hsoroban hshape hmoves
    refine Iff.trans (moveTtls_throws_iff hmoved.keys) ?_
    simp

/-- An operation that passed the checks throws for the reasons listed, and for
no other. -/
theorem runOperation_throws_iff {d : Deps} {v : Validated} {cap : Option Int}
    {first ledger : Ledger} {u : Unit} (hkeyed : ledger.store.Keyed)
    (hsoroban : v.op.body.isSoroban = true) (hshape : checkFootprintOp first v.toShaped = .ok u) :
    Throws (runOperation d v cap) ledger ↔ OperationThrows d v cap ledger := by
  constructor
  · intro h
    cases hsource : v.opAccount with
    | none =>
      have hrun : runOperation d v cap = pure opNoAccount := by
        unfold runOperation
        rw [hsource]
      rw [hrun] at h
      exact absurd h (not_throws_pure _ _)
    | some opAccount =>
      cases hinvoke : v.op.body.isInvoke with
      | true =>
        obtain ⟨hostFunction, auth, hbody⟩ : ∃ hostFunction auth,
            v.op.body = .invokeHostFunction hostFunction auth := by
          cases hbody : v.op.body with
          | invokeHostFunction hostFunction auth => exact ⟨hostFunction, auth, rfl⟩
          | _ => rw [hbody] at hinvoke; cases hinvoke
        exact .host hsource hbody ((runOperation_throws_invoke hsource hbody).mp h)
      | false =>
        obtain ⟨moves, hmoves, ⟨m, hm, e, hsize⟩ | hfees⟩ :=
          (runOperation_throws_footprint hkeyed hsource hinvoke hsoroban hshape).mp h
        · exact .rentSize hsource hinvoke hmoves hm hsize
        · exact .unpriced hsource hinvoke hmoves hfees
  · intro h
    cases h with
    | host hsource hbody h => exact (runOperation_throws_invoke hsource hbody).mpr h
    | rentSize hsource hinvoke hmoves hm h =>
      exact (runOperation_throws_footprint hkeyed hsource hinvoke hsoroban hshape).mpr
        ⟨_, hmoves, .inl ⟨_, hm, _, h⟩⟩
    | unpriced hsource hinvoke hmoves h =>
      exact (runOperation_throws_footprint hkeyed hsource hinvoke hsoroban hshape).mpr
        ⟨_, hmoves, .inr h⟩

/-! ## The commit -/

/-- The ledger with the sequence bumped. -/
def Application.bumpedLedger (a : Application) (v : Validated) (ledger : Ledger) : Ledger :=
  ledger.withAccount (bumped ledger (a.nextSeqNum v.account) v.account)

/-- The ledger the operation runs on: bumped, and with the fee taken. -/
def Application.debitedLedger (a : Application) (v : Validated) (ledger : Ledger) : Ledger :=
  match a.charge with
  | some charge => (a.bumpedLedger v ledger).withDebit charge.payer charge.upfront
  | none => a.bumpedLedger v ledger

/-- The cap on the refundable fee, while fees are charged. -/
def Application.refundableCap (a : Application) (v : Validated) : Option Int :=
  a.charge.map fun _ => v.maxRefundable

/-- What can throw after the sequence is bumped. -/
inductive CommitThrows (d : Deps) (a : Application) (v : Validated) (ledger : Ledger) : Prop where
  /-- The encoder refuses the payer's account with the fee taken. -/
  | debit {charge : FeeCharge} (hcharge : a.charge = some charge)
      (h : DebitRefused d charge.payer charge.upfront (a.bumpedLedger v ledger))
  /-- A conversion of the operation. -/
  | operation (h : OperationThrows d v (a.refundableCap v) (a.debitedLedger v ledger))
  /-- The encoder refuses the payer's account with the refund given back. -/
  | refund {charge : FeeCharge} {op : Operated} {operatedLedger : Ledger}
      (hcharge : a.charge = some charge)
      (hop : runOperation d v (a.refundableCap v) (a.debitedLedger v ledger) = .ok op operatedLedger)
      (hpos : 0 < refundOf v op)
      (h : DebitRefused d charge.payer (-refundOf v op) operatedLedger)

/-- The bump of an application whose source is stored. -/
theorem bumpSequence_eq {d : Deps} {a : Application} {v : Validated} {ledger : Ledger}
    (hkeyed : ledger.store.Keyed)
    (hsource : ledger.store.account? a.raw.sourceId = some v.account) :
    bumpSequence d a.raw.sourceId (a.nextSeqNum v.account) ledger =
      match d.encodeAccount (bumped ledger (a.nextSeqNum v.account) v.account) with
      | .ok () => .ok () (a.bumpedLedger v ledger)
      | .error e => .error e ledger :=
  rewriteAccount_of_present hkeyed hsource

/-- The bump is stored, and the debit throws or leaves the ledger with the fee
taken. -/
theorem commitClassic_throws_iff {d : Deps} {a : Application} {v : Validated} {ledger : Ledger}
    (hkeyed : ledger.store.Keyed)
    (hbump : bumpSequence d a.raw.sourceId (a.nextSeqNum v.account) ledger =
      .ok () (a.bumpedLedger v ledger)) :
    Throws (commitClassic d a v) ledger ↔ ∃ charge, a.charge = some charge ∧
      DebitRefused d charge.payer charge.upfront (a.bumpedLedger v ledger) := by
  have hbumped := (bumpSequence_ok hkeyed hbump).keyed
  unfold commitClassic
  rw [throws_bind]
  cases a.charge with
  | none => simp [Throws, hbump, pure, EStateM.pure]
  | some charge =>
    simp only [Option.some.injEq, exists_eq_left']
    rw [← debit_throws_iff hbumped]
    constructor
    · rintro (⟨e, ledger', h⟩ | ⟨u, ledger', h, hthrows⟩)
      · cases hbump.symm.trans h
      · cases hbump.symm.trans h
        exact hthrows
    · exact fun h => .inr ⟨(), _, hbump, h⟩

theorem commitClassic_debitedLedger {d : Deps} {a : Application} {v : Validated}
    {ledger ledger' : Ledger} (hkeyed : ledger.store.Keyed)
    (hbump : bumpSequence d a.raw.sourceId (a.nextSeqNum v.account) ledger =
      .ok () (a.bumpedLedger v ledger)) (h : commitClassic d a v ledger = .ok () ledger') :
    ledger' = a.debitedLedger v ledger := by
  simp only [commitClassic, bind_eq_ok] at h
  obtain ⟨_, mid, hmid, h⟩ := h
  cases hbump.symm.trans hmid
  unfold Application.debitedLedger
  cases hcharge : a.charge with
  | none =>
    simp only [hcharge, pure_eq_ok, true_and] at h
    exact h.symm
  | some charge =>
    simp only [hcharge] at h
    exact debit_withDebit (bumpSequence_ok hkeyed hbump).keyed h

/-- The refund throws when there is one and the encoder refuses what it would
store. -/
theorem settle_throws_iff {d : Deps} {v : Validated} {charge : Option FeeCharge} {op : Operated}
    {ledger : Ledger} (hkeyed : ledger.store.Keyed) :
    Throws (settle d v charge op) ledger ↔ ∃ c, charge = some c ∧ 0 < refundOf v op ∧
      DebitRefused d c.payer (-refundOf v op) ledger := by
  cases charge with
  | none => simp [settle, not_throws_pure]
  | some c =>
    simp only [Option.some.injEq, exists_eq_left']
    unfold settle
    dsimp only
    rw [throws_map]
    unfold giveBack refundOf
    split
    · next hpos => rw [debit_throws_iff hkeyed, and_iff_right hpos]
    · next hnot => exact iff_of_false (not_throws_pure _ _) fun h => hnot h.1

/-- With the bump stored, a commit throws for the reasons listed, and for no
other. -/
theorem commit_throws_iff {d : Deps} (hhost : d.ReturnsKeyed) {a : Application} {v : Validated}
    {ledger : Ledger} (hkeyed : ledger.store.Keyed) (hvalid : validate d ledger a = .ok v)
    (hbump : bumpSequence d a.raw.sourceId (a.nextSeqNum v.account) ledger =
      .ok () (a.bumpedLedger v ledger)) :
    Throws (commit d a v) ledger ↔ CommitThrows d a v ledger := by
  obtain ⟨c₁, c₂, hpassed⟩ := validate_ok hvalid
  obtain ⟨-, hsoroban, -⟩ := checkShape_ok hpassed.shape
  unfold commit
  rw [throws_bind, commitClassic_throws_iff hkeyed hbump]
  cases hclassic : commitClassic d a v ledger with
  | error e ledger' =>
    obtain ⟨charge, hcharge, hrefused⟩ :=
      (commitClassic_throws_iff hkeyed hbump).mp ⟨e, ledger', hclassic⟩
    exact iff_of_true (.inl ⟨charge, hcharge, hrefused⟩) (.debit hcharge hrefused)
  | ok u ledger₁ =>
    have hcommitted := commitClassic_effect hkeyed hclassic
    cases commitClassic_debitedLedger hkeyed hbump hclassic
    have hoperation : Throws (runOperation d v (a.refundableCap v)) (a.debitedLedger v ledger) ↔
        OperationThrows d v (a.refundableCap v) (a.debitedLedger v ledger) :=
      runOperation_throws_iff hcommitted.keyed hsoroban hpassed.footprintOp
    have hrun : ∀ op ledger₂, runOperation d v (a.refundableCap v) (a.debitedLedger v ledger) =
        .ok op ledger₂ → ledger₂.store.Keyed := by
      intro op ledger₂ hop
      exact runOperation_keyed hhost hsoroban hpassed.footprintOp hcommitted.keyed hop
    constructor
    · rintro (⟨charge, hcharge, hrefused⟩ | ⟨_, _, hok, hthrows⟩)
      · exact .debit hcharge hrefused
      · cases hok
        rcases throws_bind.mp hthrows with hthrows | ⟨op, ledger₂, hop, hthrows⟩
        · exact .operation (hoperation.mp hthrows)
        · obtain ⟨charge, hcharge, hpos, hrefused⟩ := (settle_throws_iff (hrun op _ hop)).mp hthrows
          exact .refund hcharge hop hpos hrefused
    · intro h
      cases h with
      | debit hcharge hrefused => exact .inl ⟨_, hcharge, hrefused⟩
      | operation hthrows =>
        exact .inr ⟨(), _, rfl, throws_bind.mpr (.inl (hoperation.mpr hthrows))⟩
      | refund hcharge hop hpos hrefused =>
        refine .inr ⟨(), _, rfl, throws_bind.mpr (.inr ⟨_, _, hop, ?_⟩)⟩
        exact (settle_throws_iff (hrun _ _ hop)).mpr ⟨_, hcharge, hpos, hrefused⟩

/-- The sequence number of the source stays up after the bump, also when the
commit throws. -/
theorem commit_raises {d : Deps} (hhost : d.ReturnsKeyed) (hseq : d.KeepsSequences)
    {a : Application} {v : Validated} {ledger : Ledger} (hkeyed : ledger.store.Keyed)
    (hvalid : validate d ledger a = .ok v)
    (hbump : bumpSequence d a.raw.sourceId (a.nextSeqNum v.account) ledger =
      .ok () (a.bumpedLedger v ledger)) :
    (finalState (commit d a v ledger)).store.seqNum? a.raw.sourceId =
      some (a.nextSeqNum v.account) := by
  obtain ⟨c₁, c₂, hpassed⟩ := validate_ok hvalid
  obtain ⟨-, hsoroban, -⟩ := checkShape_ok hpassed.shape
  have hmid := bumpSequence_ok hkeyed hbump
  have hclassic : SeqKept (a.bumpedLedger v ledger) (finalState (commitClassic d a v ledger)) := by
    cases hcharge : a.charge with
    | none =>
      have hrun : commitClassic d a v ledger = .ok () (a.bumpedLedger v ledger) := by
        simp [commitClassic, bind, EStateM.bind, hbump, hcharge, pure, EStateM.pure]
      rw [hrun]
      exact .of_store hmid.keyed rfl
    | some charge =>
      have hrun : commitClassic d a v ledger =
          debit d charge.payer charge.upfront (a.bumpedLedger v ledger) := by
        simp [commitClassic, bind, EStateM.bind, hbump, hcharge]
      rw [hrun]
      exact debit_seqKept d charge.payer charge.upfront hmid.keyed
  have hcommit : SeqKept (a.bumpedLedger v ledger) (finalState (commit d a v ledger)) := by
    simp only [commit, bind, EStateM.bind]
    cases hrun : commitClassic d a v ledger with
    | error e ledger₁ =>
      rw [hrun] at hclassic
      exact hclassic
    | ok u ledger₁ =>
      rw [hrun] at hclassic
      refine hclassic.trans ?_
      have hoperation := runOperation_seqKept hhost hseq (a.charge.map fun _ => v.maxRefundable)
        hsoroban hpassed.footprintOp hclassic.keyed
      refine finalState_bind (R := SeqKept) SeqKept.trans hoperation fun op ledger₂ hop => ?_
      rw [hop] at hoperation
      exact settle_seqKept d v a.charge op hoperation.keyed
  refine hcommit.kept _ _ ?_
  rw [hmid.seqNum_bumped, if_pos rfl]

/-! ## The application -/

/-- An exception leaves the store, the ledger sequence and the clock as they
were if and only if nothing throws once the bump is stored. -/
theorem applyTransaction_throws_unchanged_iff {d : Deps} (hhost : d.ReturnsKeyed)
    (hseq : d.KeepsSequences) {ledger : Ledger} (hkeyed : ledger.store.Keyed)
    (envelope : TransactionEnvelope) (passphrase : String) (validation : ValidationOptions) :
    (∀ e ledger', applyTransaction d envelope passphrase validation ledger = .error e ledger' →
      ledger'.env.store = ledger.env.store ∧ ledger'.env.ledgerSeq = ledger.env.ledgerSeq ∧
        ledger'.env.timestamp = ledger.env.timestamp) ↔
    ∀ a v, envelopeApplication d ledger envelope passphrase validation = .ok a →
      validate d ledger a = .ok v →
      d.encodeAccount (bumped ledger (a.nextSeqNum v.account) v.account) = .ok () →
      ¬ CommitThrows d a v ledger := by
  have hbump : ∀ {a v}, validate d ledger a = .ok v →
      bumpSequence d a.raw.sourceId (a.nextSeqNum v.account) ledger =
        match d.encodeAccount (bumped ledger (a.nextSeqNum v.account) v.account) with
        | .ok () => .ok () (a.bumpedLedger v ledger)
        | .error e => .error e ledger := by
    intro a v hvalid
    obtain ⟨c₁, c₂, hpassed⟩ := validate_ok hvalid
    exact bumpSequence_eq hkeyed (hpassed.source hkeyed).1
  constructor
  · intro hunchanged a v happ hvalid hencode hthrows
    have hstored := hbump hvalid
    rw [hencode] at hstored
    obtain ⟨e, ledger', hcommit⟩ := (commit_throws_iff hhost hkeyed hvalid hstored).mpr hthrows
    have hthrown : applyTransaction d envelope passphrase validation ledger = .error e ledger' := by
      rw [applyTransaction_eq, happ]
      simp only [hvalid, hcommit]
    obtain ⟨c₁, c₂, hpassed⟩ := validate_ok hvalid
    obtain ⟨hsource, hnext⟩ := hpassed.source hkeyed
    have hraised := commit_raises hhost hseq hkeyed hvalid hstored
    rw [hcommit, finalState_error, Ledger.store, (hunchanged e ledger' hthrown).1, Store.seqNum?,
      ← Ledger.store, hsource] at hraised
    exact hnext.ne (Option.some.inj hraised)
  · intro hnone e ledger' hthrown
    obtain ⟨store, cache, hframe⟩ :=
      applyTransaction_storesOnly d envelope passphrase validation ledger
    rw [hthrown, finalState_error] at hframe
    refine ⟨?_, by rw [hframe], by rw [hframe]⟩
    rcases applyTransaction_error hthrown with rfl | ⟨a, v, happ, hvalid, hcommit⟩
    · rfl
    have hrun := hbump hvalid
    cases hencode : d.encodeAccount (bumped ledger (a.nextSeqNum v.account) v.account) with
    | ok u =>
      rw [hencode] at hrun
      exact absurd ((commit_throws_iff hhost hkeyed hvalid hrun).mp ⟨e, ledger', hcommit⟩)
        (hnone a v happ hvalid hencode)
    | error e' =>
      -- The bump itself throws, and has stored nothing.
      rw [hencode] at hrun
      simp only [commit, commitClassic, bind, EStateM.bind, hrun, EStateM.Result.error.injEq]
        at hcommit
      rw [hcommit.2]

/-! ## A table the host refuses -/

/-- A host that refuses to build a budget from installed cost tables. -/
def pickyHost : Deps :=
  { Deps.idle with
    newBudget := fun budget =>
      match budget.costParams with
      | some _ => .error ⟨"cost table has a negative term"⟩
      | none => .ok () }

/-- A ledger with one account, and cost tables installed. -/
def tabledLedger (seed : UInt8) : Ledger :=
  { sampleLedger seed with env := (sampleLedger seed).env.setCostParams ⟨[255]⟩ ⟨[255]⟩ }

/-- An `InvokeHostFunction` of one account. -/
def sampleInvoke (seed : UInt8) : TransactionEnvelope :=
  .envelopeTypeTx
    { sampleEnvelope seed 1 none with
      tx := { (sampleEnvelope seed 1 none).tx with
        operations := [⟨none, .invokeHostFunction ⟨[0, 0, 0, 0]⟩ []⟩] } }

/-- The budget is refused when the sequence is bumped and the fee taken. -/
theorem applyTransaction_throws_committed :
    ¬ ∀ (d : Deps) (ledger : Ledger) (envelope : TransactionEnvelope) (passphrase : String)
      (validation : ValidationOptions) (e : JsError) (ledger' : Ledger), ledger.store.Keyed →
      applyTransaction d envelope passphrase validation ledger = .error e ledger' →
      ledger'.env.store = ledger.env.store ∧ ledger'.env.ledgerSeq = ledger.env.ledgerSeq ∧
        ledger'.env.timestamp = ledger.env.timestamp := by
  intro hclaim
  have hstore := (hclaim pickyHost (tabledLedger 7) (sampleInvoke 7) "" {} _ _
    (sampleLedger_keyed 7) rfl).1
  have hseq : (some 1 : Option Int) = some 0 :=
    congrArg (fun store : Store => store.seqNum? (sampleAccount 7).accountId) hstore
  cases hseq

/-- An encoder that refuses every account stops the bump, and nothing is
stored. -/
theorem applyTransaction_throws_unchanged_refused :
    ∃ e ledger', applyTransaction { Deps.idle with encodeAccount := fun _ => .error ⟨"range"⟩ }
      (sampleInvoke 7) "" {} (sampleLedger 7) = .error e ledger' ∧
      ledger'.env.store = (sampleLedger 7).env.store := by
  refine ⟨_, _, rfl, ?_⟩
  refine ((applyTransaction_throws_unchanged_iff
    (d := { Deps.idle with encodeAccount := fun _ => .error ⟨"range"⟩ }) idle_returnsKeyed
    (fun input ch _ h => absurd h (idle_returns input ch)) (sampleLedger_keyed 7)
    (sampleInvoke 7) "" {}).mpr ?_ _ _ rfl).1
  intro a v _ _ hencode
  cases hencode

end LiteSoroban

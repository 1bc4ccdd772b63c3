import LiteSoroban.Classic.Precedence
import LiteSoroban.Classic.Steps
import LiteSoroban.Env.Locality

/-!
# What a transaction touches

An envelope names a few accounts and the keys of its footprint.  The
transaction reads the store under the keys of these and under no others.  It
writes its source account, the account that pays, and what its footprint lets
it write.

`applyTransaction_local` says so of `applyTransaction`, whether it rejects the
envelope, applies it, fails it or throws.
-/

namespace LiteSoroban

open Effect

/-! ## The keys an envelope names -/

/-- The accounts an envelope names: its source, the sources of its operations,
and the account that pays. -/
def TransactionEnvelope.accounts (envelope : TransactionEnvelope) : List AccountId :=
  match envelope.innerTx? with
  | none => []
  | some raw =>
    raw.sourceId :: raw.operations.map (·.sourceId raw) ++ envelope.feePayer?.toList

/-- The accounts a transaction writes: its source, whose sequence number
moves, and the account that pays. -/
def TransactionEnvelope.writtenAccounts (envelope : TransactionEnvelope) : List AccountId :=
  match envelope.innerTx? with
  | none => []
  | some raw => raw.sourceId :: envelope.feePayer?.toList

/-- The footprint of a transaction, which is empty without Soroban data. -/
def TransactionEnvelope.footprint (envelope : TransactionEnvelope) : LedgerFootprint :=
  match envelope.innerTx?.bind (·.sorobanData?) with
  | none => ⟨[], []⟩
  | some data => data.resources.footprint

theorem TransactionEnvelope.writtenAccounts_sub (envelope : TransactionEnvelope) :
    envelope.writtenAccounts ⊆ envelope.accounts := by
  unfold writtenAccounts accounts
  cases envelope.innerTx? with
  | none => simp
  | some raw =>
    intro id hid
    rcases List.mem_cons.mp hid with rfl | hid
    · exact List.mem_append_left _ List.mem_cons_self
    · exact List.mem_append_right _ hid

/-- What an envelope lets its transaction do. -/
def TransactionEnvelope.access (envelope : TransactionEnvelope) : Access LedgerKey where
  reads := {key | (∃ id ∈ envelope.accounts, key = .account id) ∨
    key ∈ envelope.footprint.access.reads}
  writes := {key | (∃ id ∈ envelope.writtenAccounts, key = .account id) ∨
    key ∈ envelope.footprint.access.writes}
  sub := by
    rintro key (⟨id, hid, hkey⟩ | hkey)
    · exact .inl ⟨id, envelope.writtenAccounts_sub hid, hkey⟩
    · exact .inr (envelope.footprint.access.sub hkey)

/-- The store of a ledger.  Two ledgers agree beside it when they differ at
most in the module cache.  Both are keyed by their entries, and both caches
hold parsed modules. -/
def Deps.ledgerTable (d : Deps) (codes : Set Bytes) :
    Table Ledger LedgerKey (Option EntryWithLiveUntil) where
  lookup ledger key := ledger.store.lookup key
  Beside ledger ledger' :=
    ledger.StoreOnly ledger' ∧
      (ledger.store.Keyed ∧ ledger.env.CacheParsed d codes) ∧
      ledger'.store.Keyed ∧ ledger'.env.CacheParsed d codes
  Good := d.StandsUnderHash codes
  symm := by
    rintro ledger _ ⟨⟨store, cache, rfl⟩, hsound, hsound'⟩
    exact ⟨⟨ledger.env.store, ledger.env.moduleCache, rfl⟩, hsound', hsound⟩
  trans := by
    rintro ledger ledger' ledger'' ⟨hframe, hsound, -⟩ ⟨hframe', -, hsound'⟩
    exact ⟨trans_of Ledger.StoreOnly hframe hframe', hsound, hsound'⟩

/-! ## The checks -/

section Checks

variable {d : Deps} {codes : Set Bytes} {keys : Set LedgerKey} {ledger ledger' : Ledger}

theorem Ledger.StoreOnly.sameSettings (h : ledger.StoreOnly ledger') :
    ledger.SameSettings ledger' := by
  obtain ⟨store, cache, rfl⟩ := h
  exact ⟨rfl, rfl, rfl, rfl⟩

theorem loadAccount_agreeOn (h : (d.ledgerTable codes).AgreeOn keys ledger ledger') {id : AccountId}
    (hid : LedgerKey.account id ∈ keys) : loadAccount ledger' id = loadAccount ledger id := by
  have hlookup : ledger.env.store.lookup (.account id) = ledger'.env.store.lookup (.account id) :=
    h.lookup _ hid
  simp only [loadAccount, Ledger.getEntry, SorobanEnv.getEntry, hlookup]

theorem loadAccount!_agreeOn (h : (d.ledgerTable codes).AgreeOn keys ledger ledger')
    {id : AccountId}
    (hid : LedgerKey.account id ∈ keys) : loadAccount! ledger' id = loadAccount! ledger id := by
  simp only [loadAccount!, loadAccount_agreeOn h hid]

/-- The checks of the fee bump read its fee source. -/
theorem envelopeApplication_agreeOn (h : (d.ledgerTable codes).AgreeOn keys ledger ledger')
    (envelope : TransactionEnvelope) (passphrase : String) (validation : ValidationOptions)
    (hpayer : ∀ id, envelope.feePayer? = some id → LedgerKey.account id ∈ keys) :
    envelopeApplication d ledger' envelope passphrase validation =
      envelopeApplication d ledger envelope passphrase validation := by
  cases envelope with
  | envelopeTypeTxV0 xdr => rfl
  | envelopeTypeTx v1 => rfl
  | envelopeTypeTxFeeBump feeBump =>
    simp only [envelopeApplication, feeBumpApplication, loadAccount_agreeOn h (hpayer _ rfl)]

theorem accountChecks_agreeOn (h : (d.ledgerTable codes).AgreeOn keys ledger ledger')
    (a : Application)
    (op : Operation) (hsource : LedgerKey.account a.raw.sourceId ∈ keys)
    (hop : LedgerKey.account (op.sourceId a.raw) ∈ keys) :
    accountChecks d ledger' a op = accountChecks d ledger a op := by
  obtain ⟨hseq, htime, -, -⟩ := h.beside.1.sameSettings
  have hsources : loadSources ledger' a.raw op = loadSources ledger a.raw op := by
    unfold Operation.sourceId at hop
    simp only [loadSources, loadAccount_agreeOn h hsource]
    cases hopSource : op.sourceAccount with
    | none => rfl
    | some opSource =>
      simp only [hopSource] at hop
      simp only [loadAccount_agreeOn h hop]
  simp only [accountChecks, hsources, checkSequence, checkAge, tooEarlyForAccount, hseq, htime]

theorem checkFees_agreeOn (h : (d.ledgerTable codes).AgreeOn keys ledger ledger') (a : Application)
    (s : Shaped) (hpayer : ∀ charge, a.charge = some charge → LedgerKey.account charge.payer ∈ keys) :
    checkFees ledger' a s = checkFees ledger a s := by
  unfold checkFees
  cases hcharge : a.charge with
  | none => rfl
  | some charge => simp only [loadAccount!_agreeOn h (hpayer charge hcharge)]

theorem operationChecks_agreeOn (h : (d.ledgerTable codes).AgreeOn keys ledger ledger') (s : Shaped)
    (src : Sources) (checker : Option SignatureChecker) :
    operationChecks d ledger' s src checker = operationChecks d ledger s src checker := by
  obtain ⟨⟨store, cache, rfl⟩, -⟩ := h.beside
  rfl

/-- The checks read the accounts the transaction names, and no other entry. -/
theorem validate_agreeOn (h : (d.ledgerTable codes).AgreeOn keys ledger ledger') (a : Application)
    (hsource : LedgerKey.account a.raw.sourceId ∈ keys)
    (hops : ∀ op ∈ a.raw.operations, LedgerKey.account (op.sourceId a.raw) ∈ keys)
    (hpayer : ∀ charge, a.charge = some charge → LedgerKey.account charge.payer ∈ keys) :
    validate d ledger' a = validate d ledger a := by
  rw [validate_eq, validate_eq, preSequenceChecks_congr d h.beside.1.sameSettings]
  cases hpre : preSequenceChecks d ledger a with
  | error stop => rfl
  | ok checked =>
    obtain ⟨s, nonRefundable⟩ := checked
    have hshape : checkShape a.raw = .ok s := by
      simp only [preSequenceChecks, Except.bind_eq_ok] at hpre
      obtain ⟨s', hshape, _, -, _, -, _, -, hs⟩ := hpre
      cases hs
      exact hshape
    have hop : LedgerKey.account (s.op.sourceId a.raw) ∈ keys :=
      hops s.op (by rw [(checkShape_ok hshape).1]; exact List.mem_singleton_self s.op)
    simp only [bind, Except.bind, accountChecks_agreeOn h a s.op hsource hop,
      checkFees_agreeOn h a s hpayer, operationChecks_agreeOn h]

end Checks

/-! ## The commit -/

section Commit

variable {d : Deps} {codes : Set Bytes} {keys : Set LedgerKey} {ledger ledger' : Ledger}

/-- The same entry under the same key, in two ledgers that agree. -/
theorem insert_agreeOn (h : (d.ledgerTable codes).AgreeOn keys ledger ledger') {key : LedgerKey}
    {e : EntryWithLiveUntil} (hkey : keyOf e.entry = .ok key) :
    (d.ledgerTable codes).AgreeOn keys (ledger.withStore (ledger.store.insert key e))
      (ledger'.withStore (ledger'.store.insert key e)) := by
  obtain ⟨⟨hframe, ⟨hkeyed, hcache⟩, hkeyed', hcache'⟩, hlookup⟩ := h
  refine ⟨⟨?_, ⟨hkeyed.insert hkey, hcache⟩, hkeyed'.insert hkey, hcache'⟩, fun k hk => ?_⟩
  · obtain ⟨store, cache, rfl⟩ := hframe
    exact ⟨_, cache, rfl⟩
  · exact Store.lookup_insert_congr (hlookup k hk) e

theorem putEntry_agreeOn (h : (d.ledgerTable codes).AgreeOn keys ledger ledger')
    (entry : LedgerEntry)
    (liveUntil : Option Nat) :
    Agree ((d.ledgerTable codes).AgreeOn keys) (Ledger.putEntry entry liveUntil ledger)
      (Ledger.putEntry entry liveUntil ledger') := by
  simp only [Ledger.putEntry, SorobanEnv.putEntry]
  cases hkey : keyOf entry with
  | error e => exact ⟨rfl, h⟩
  | ok key => exact ⟨rfl, insert_agreeOn h hkey⟩

theorem lift_agreeOn {α : Type} (h : (d.ledgerTable codes).AgreeOn keys ledger ledger')
    {x : Ledger → Except JsError α} (hx : x ledger' = x ledger) :
    Agree ((d.ledgerTable codes).AgreeOn keys) (LedgerM.lift x ledger)
      (LedgerM.lift x ledger') := by
  simp only [LedgerM.lift, hx]
  cases x ledger with
  | error e => exact ⟨rfl, h⟩
  | ok a => exact ⟨rfl, h⟩

/-- A rewrite reads the account it rewrites. -/
theorem rewriteAccount_agreeOn (h : (d.ledgerTable codes).AgreeOn keys ledger ledger')
    {id : AccountId}
    (hid : LedgerKey.account id ∈ keys) {f : Ledger → AccountEntry → AccountEntry}
    (hf : f ledger' = f ledger) :
    Agree ((d.ledgerTable codes).AgreeOn keys) (rewriteAccount d id f ledger)
      (rewriteAccount d id f ledger') := by
  rw [rewriteAccount_eq, rewriteAccount_eq, loadAccount!_agreeOn h hid, hf]
  cases loadAccount! ledger id with
  | error e => exact ⟨rfl, h⟩
  | ok account =>
    simp only [storeAccount_eq]
    cases d.encodeAccount (f ledger account) with
    | error e => exact ⟨rfl, h⟩
    | ok u =>
      have hseq : ledger'.env.ledgerSeq = ledger.env.ledgerSeq := h.beside.1.sameSettings.ledgerSeq
      let e : EntryWithLiveUntil :=
        ⟨accountLedgerEntry ledger.env.ledgerSeq (f ledger account), none⟩
      have hright : ledger'.withAccount (f ledger account) = ledger'.withStore
          (ledger'.store.insert (.account (f ledger account).accountId) e) := by
        show _ = ledger'.withStore (ledger'.store.insert _
          ⟨accountLedgerEntry ledger.env.ledgerSeq (f ledger account), none⟩)
        rw [← hseq]
        rfl
      refine ⟨rfl, ?_⟩
      simp only [finalState_ok, hright]
      exact insert_agreeOn (e := e) h rfl

theorem bumpSequence_agreeOn (h : (d.ledgerTable codes).AgreeOn keys ledger ledger')
    {id : AccountId}
    (hid : LedgerKey.account id ∈ keys) (seqNum : Int) :
    Agree ((d.ledgerTable codes).AgreeOn keys) (bumpSequence d id seqNum ledger)
      (bumpSequence d id seqNum ledger') := by
  refine rewriteAccount_agreeOn h hid ?_
  obtain ⟨hseq, htime, -, -⟩ := h.beside.1.sameSettings
  funext account
  simp only [bumped, hseq, htime]

theorem debit_agreeOn (h : (d.ledgerTable codes).AgreeOn keys ledger ledger') {id : AccountId}
    (hid : LedgerKey.account id ∈ keys) (amount : Int) :
    Agree ((d.ledgerTable codes).AgreeOn keys) (debit d id amount ledger)
      (debit d id amount ledger') :=
  rewriteAccount_agreeOn h hid rfl

theorem commitClassic_agreeOn (h : (d.ledgerTable codes).AgreeOn keys ledger ledger')
    (a : Application)
    (v : Validated) (hsource : LedgerKey.account a.raw.sourceId ∈ keys)
    (hpayer : ∀ charge, a.charge = some charge → LedgerKey.account charge.payer ∈ keys) :
    Agree ((d.ledgerTable codes).AgreeOn keys) (commitClassic d a v ledger)
      (commitClassic d a v ledger') := by
  refine .bind (bumpSequence_agreeOn h hsource _) fun _ mid mid' _ hmid => ?_
  cases hcharge : a.charge with
  | none => exact ⟨rfl, hmid⟩
  | some charge => exact debit_agreeOn hmid (hpayer charge hcharge) _

/-! ### The operation -/

theorem getEntry_agreeOn (h : (d.ledgerTable codes).AgreeOn keys ledger ledger') {key : LedgerKey}
    (hkey : key ∈ keys) : ledger'.getEntry key = ledger.getEntry key ∧
      ledger'.getEntryTtl key = ledger.getEntryTtl key := by
  have hlookup : ledger.env.store.lookup key = ledger'.env.store.lookup key := h.lookup key hkey
  constructor
  · simp only [Ledger.getEntry, SorobanEnv.getEntry, hlookup]
  · simp only [Ledger.getEntryTtl, SorobanEnv.getEntryTtl, hlookup]

theorem extendMoves_agreeOn (h : (d.ledgerTable codes).AgreeOn keys ledger ledger')
    (newLiveUntil : Nat)
    {ks : List LedgerKey} (hks : ∀ key ∈ ks, key ∈ keys) :
    extendMoves d ledger' newLiveUntil ks = extendMoves d ledger newLiveUntil ks := by
  obtain ⟨hseq, -, hfees, -⟩ := h.beside.1.sameSettings
  induction ks with
  | nil => rfl
  | cons key ks ih =>
    obtain ⟨hkey, hrest⟩ := List.forall_mem_cons.mp hks
    obtain ⟨hentry, httl⟩ := getEntry_agreeOn h hkey
    simp only [extendMoves, extendMove, hentry, httl, hseq, hfees, ih hrest]

theorem restoreMoves_agreeOn (h : (d.ledgerTable codes).AgreeOn keys ledger ledger')
    (resources : SorobanResources) (restoredLiveUntil : Nat) {ks : List LedgerKey}
    (hks : ∀ key ∈ ks, key ∈ keys) (bytes : Nat) :
    restoreMoves d ledger' resources restoredLiveUntil ks bytes =
      restoreMoves d ledger resources restoredLiveUntil ks bytes := by
  obtain ⟨hseq, -, hfees, -⟩ := h.beside.1.sameSettings
  induction ks generalizing bytes with
  | nil => rfl
  | cons key ks ih =>
    obtain ⟨hkey, hrest⟩ := List.forall_mem_cons.mp hks
    obtain ⟨hentry, httl⟩ := getEntry_agreeOn h hkey
    simp only [restoreMoves, restoreOverLimit, hentry, httl, hseq, hfees, ih hrest]

theorem selectedMoves_agreeOn (h : (d.ledgerTable codes).AgreeOn keys ledger ledger') (s : Shaped)
    (hfootprint : ∀ key ∈ s.sorobanData.resources.footprint.keys, key ∈ keys) :
    selectedMoves d ledger' s = selectedMoves d ledger s := by
  have hro := fun key hkey => hfootprint key (List.mem_append_left _ hkey)
  have hrw := fun key hkey => hfootprint key (List.mem_append_right _ hkey)
  have hseq := h.beside.1.sameSettings.ledgerSeq
  have hmin : ledger'.env.minPersistentEntryTtl = ledger.env.minPersistentEntryTtl := by
    obtain ⟨⟨store, cache, rfl⟩, -⟩ := h.beside
    rfl
  unfold selectedMoves
  cases s.op.body with
  | extendFootprintTtl extendTo => simp only [hseq, extendMoves_agreeOn h _ hro]
  | restoreFootprint => simp only [hseq, hmin, restoreMoves_agreeOn h _ _ hrw]
  | invokeHostFunction hostFunction auth => rfl
  | classic xdr => rfl

theorem rentChangesOf_agreeOn (h : (d.ledgerTable codes).AgreeOn keys ledger ledger')
    {moves : List TtlMove} (hmoves : ∀ m ∈ moves, m.key ∈ keys) :
    rentChangesOf d ledger' moves = rentChangesOf d ledger moves := by
  induction moves with
  | nil => rfl
  | cons m ms ih =>
    obtain ⟨hm, hms⟩ := List.forall_mem_cons.mp hmoves
    have hsize : ledger'.env.entrySizeForRent d m.key = ledger.env.entrySizeForRent d m.key := by
      have hlookup : ledger.env.store.lookup m.key = ledger'.env.store.lookup m.key :=
        h.lookup _ hm
      unfold SorobanEnv.entrySizeForRent
      rw [← hlookup]
      obtain ⟨⟨store, cache, rfl⟩, -⟩ := h.beside
      rfl
    simp only [rentChangesOf, hsize, ih hms]

theorem putMoves_agreeOn (moves : List TtlMove)
    (h : (d.ledgerTable codes).AgreeOn keys ledger ledger') :
    Agree ((d.ledgerTable codes).AgreeOn keys) (putMoves moves ledger)
      (putMoves moves ledger') := by
  induction moves generalizing ledger ledger' with
  | nil => exact ⟨rfl, h⟩
  | cons m ms ih => exact .bind (putEntry_agreeOn h _ _) fun _ _ _ _ hmid => ih hmid

theorem moveTtls_agreeOn (h : (d.ledgerTable codes).AgreeOn keys ledger ledger')
    {moves : List TtlMove}
    (hmoves : ∀ m ∈ moves, m.key ∈ keys) (cap : Option Int) :
    Agree ((d.ledgerTable codes).AgreeOn keys) (moveTtls d moves cap ledger)
      (moveTtls d moves cap ledger') := by
  have hput : ∀ {l l' : Ledger} (applied : FootprintOpApplied),
      (d.ledgerTable codes).AgreeOn keys l l' → Agree ((d.ledgerTable codes).AgreeOn keys)
        ((do putMoves moves; return applied : LedgerM FootprintOpApplied) l)
        ((do putMoves moves; return applied : LedgerM FootprintOpApplied) l') :=
    fun applied hl => .bind (putMoves_agreeOn moves hl) fun _ _ _ _ hmid => ⟨rfl, hmid⟩
  refine .bind (lift_agreeOn h ?_) fun rent l l' _ hl => ?_
  · rw [rentChangesOf_agreeOn h hmoves]
    obtain ⟨⟨store, cache, rfl⟩, -⟩ := h.beside
    rfl
  · cases cap with
    | none => exact hput _ hl
    | some max =>
      simp only
      by_cases hshort : max < rent
      · rw [if_pos hshort]
        exact ⟨rfl, hl⟩
      · rw [if_neg hshort]
        exact hput _ hl

/-- A footprint operation reads its footprint. -/
theorem footprintOp_agreeOn (h : (d.ledgerTable codes).AgreeOn keys ledger ledger') {v : Validated}
    (cap : Option Int) (hfootprint : ∀ key ∈ v.sorobanData.resources.footprint.keys, key ∈ keys)
    {arms : FootprintArms} {apply : LedgerM FootprintOpApplied}
    (happly : ∀ l, apply l = match selectedMoves d l v.toShaped with
      | .error overLimit => .ok { changed := [], rent := 0, overLimit := some overLimit } l
      | .ok moves => moveTtls d moves cap l) :
    Agree ((d.ledgerTable codes).AgreeOn keys) ((do return footprintOperated arms (← apply)) ledger)
      ((do return footprintOperated arms (← apply)) ledger') := by
  refine .bind ?_ fun _ _ _ _ hmid => ⟨rfl, hmid⟩
  rw [happly ledger, happly ledger', selectedMoves_agreeOn h v.toShaped hfootprint]
  cases hselected : selectedMoves d ledger v.toShaped with
  | error overLimit => exact ⟨rfl, h⟩
  | ok moves =>
    refine moveTtls_agreeOn h (fun m hm => hfootprint _ ?_) cap
    have hmem := (selectedMoves_of hselected m hm).mem
    cases hbody : v.op.body with
    | extendFootprintTtl extendTo =>
      simp only [hbody] at hmem
      exact List.mem_append_left _ hmem
    | restoreFootprint =>
      simp only [hbody] at hmem
      exact List.mem_append_right _ hmem
    | invokeHostFunction hostFunction auth =>
      simp only [hbody] at hmem
      exact List.mem_append_right _ hmem
    | classic xdr =>
      simp only [hbody] at hmem
      exact List.mem_append_right _ hmem

/-- A host call reads its footprint, over code that is stored under its
hash. -/
theorem sendInvoke_agreeOn (hhost : d.ReadsUsedCode) (hhash : d.HashesCode codes)
    (hkeyed : d.ReturnsKeyed) (hreturns : d.ReturnsFootprint)
    (h : (d.ledgerTable codes).AgreeOn keys ledger ledger')
    (hsound : (d.ledgerTable codes).Sound keys ledger)
    {v : Validated} (hostFunction : HostFunction) (auth : List SorobanAuthorizationEntry)
    (cap : Option Int)
    (hfootprint : ∀ key ∈ v.sorobanData.resources.footprint.keys, key ∈ keys) :
    Agree ((d.ledgerTable codes).AgreeOn keys)
      (Ledger.send d (invokeArgs v hostFunction auth cap) ledger)
      (Ledger.send d (invokeArgs v hostFunction auth cap) ledger') := by
  obtain ⟨⟨hframe, ⟨hstore, hcache⟩, hstore', hcache'⟩, hlookup⟩ := h
  obtain ⟨store, cache, rfl⟩ := hframe
  have hagree := (send_local hhost hhash hreturns (invokeArgs v hostFunction auth cap)).agree
    hfootprint (t := { ledger.env with store := store, moduleCache := cache })
    ⟨⟨rfl, hcache, hcache'⟩, hlookup⟩ fun key hkey => hsound key (hfootprint key hkey)
  have hend : ∀ {l : Ledger}, l.store.Keyed →
      (finalState (l.env.send d (invokeArgs v hostFunction auth cap))).store.Keyed :=
    fun hl => send_keyed hkeyed hl
  have hleft := hend hstore
  have hright := hend hstore'
  rw [send_invokeArgs, send_invokeArgs]
  rcases hagree.cases with ⟨out, env, env', henv, henv', hends⟩ | ⟨e, env, env', henv, henv', hends⟩
  · rw [henv] at hleft
    rw [henv'] at hright
    obtain ⟨⟨hframe, hparsed, hparsed'⟩, hsame⟩ := hends
    rw [henv, henv']
    exact ⟨rfl, ⟨⟨env'.store, env'.moduleCache, by rw [finalState_ok, finalState_ok, hframe]⟩,
      ⟨hleft, hparsed⟩, hright, hparsed'⟩, hsame⟩
  · rw [henv] at hleft
    rw [henv'] at hright
    obtain ⟨⟨hframe, hparsed, hparsed'⟩, hsame⟩ := hends
    rw [henv, henv']
    exact ⟨rfl, ⟨⟨env'.store, env'.moduleCache, by rw [finalState_error, finalState_error, hframe]⟩,
      ⟨hleft, hparsed⟩, hright, hparsed'⟩, hsame⟩

theorem runOperation_agreeOn (hhost : d.ReadsUsedCode) (hhash : d.HashesCode codes)
    (hkeyed : d.ReturnsKeyed) (hreturns : d.ReturnsFootprint)
    (h : (d.ledgerTable codes).AgreeOn keys ledger ledger')
    (hsound : (d.ledgerTable codes).Sound keys ledger)
    (v : Validated) (cap : Option Int)
    (hfootprint : ∀ key ∈ v.sorobanData.resources.footprint.keys, key ∈ keys) :
    Agree ((d.ledgerTable codes).AgreeOn keys) (runOperation d v cap ledger)
      (runOperation d v cap ledger') := by
  cases hop : v.opAccount with
  | none =>
    simp only [runOperation, hop]
    exact ⟨rfl, h⟩
  | some opAccount =>
    have hmoves : v.op.body.isInvoke = false → v.op.body.isSoroban = true →
        Agree ((d.ledgerTable codes).AgreeOn keys) (runOperation d v cap ledger)
          (runOperation d v cap ledger') := by
      intro hinvoke hsoroban
      obtain ⟨arms, apply, hrun, happly⟩ := runOperation_footprint d cap hop hinvoke hsoroban
      rw [hrun]
      exact footprintOp_agreeOn h cap hfootprint happly
    cases hbody : v.op.body with
    | extendFootprintTtl extendTo => exact hmoves (by rw [hbody]; rfl) (by rw [hbody]; rfl)
    | restoreFootprint => exact hmoves (by rw [hbody]; rfl) (by rw [hbody]; rfl)
    | invokeHostFunction hostFunction auth =>
      simp only [runOperation, hop, hbody]
      exact .bind (sendInvoke_agreeOn hhost hhash hkeyed hreturns h hsound hostFunction auth cap
        hfootprint) fun _ _ _ _ hmid => ⟨rfl, hmid⟩
    | classic xdr =>
      simp only [runOperation, hop, hbody]
      exact ⟨rfl, h⟩

theorem settle_agreeOn (h : (d.ledgerTable codes).AgreeOn keys ledger ledger') (v : Validated)
    (charge : Option FeeCharge) (op : Operated)
    (hpayer : ∀ c, charge = some c → LedgerKey.account c.payer ∈ keys) :
    Agree ((d.ledgerTable codes).AgreeOn keys) (settle d v charge op ledger)
      (settle d v charge op ledger') := by
  cases charge with
  | none => exact ⟨rfl, h⟩
  | some c =>
    refine .bind ?_ fun _ _ _ _ hmid => ⟨rfl, hmid⟩
    unfold giveBack
    by_cases hrefund : v.maxRefundable - op.refundable > 0
    · rw [if_pos hrefund]
      exact debit_agreeOn h (hpayer c rfl) _
    · rw [if_neg hrefund]
      exact ⟨rfl, h⟩

/-- The commit moves a sequence number and a balance before the operation
runs.  Neither is code. -/
theorem commitClassic_sound {a : Application} {v : Validated} {mid : Ledger} {u : Unit}
    (hclassic : commitClassic d a v ledger = .ok u mid)
    (hsound : (d.ledgerTable codes).Sound keys ledger) : (d.ledgerTable codes).Sound keys mid := by
  intro key hkey
  by_cases hneeds : needsTtl key = true
  · have hsame : mid.store.lookup key = ledger.store.lookup key :=
      (commitClassic_classicOnly hclassic).contracts key hneeds
    show d.StandsUnderHash codes key (mid.store.lookup key)
    rw [hsame]
    exact hsound key hkey
  · cases key with
    | contractCode hash => exact absurd rfl hneeds
    | contractData contract k durability => exact absurd rfl hneeds
    | account id => trivial
    | trustline id asset => trivial
    | unsupported bytes => trivial

theorem commit_agreeOn (hhost : d.ReadsUsedCode) (hhash : d.HashesCode codes)
    (hkeyed : d.ReturnsKeyed) (hreturns : d.ReturnsFootprint)
    (h : (d.ledgerTable codes).AgreeOn keys ledger ledger')
    (hsound : (d.ledgerTable codes).Sound keys ledger)
    (a : Application) (v : Validated) (hsource : LedgerKey.account a.raw.sourceId ∈ keys)
    (hpayer : ∀ charge, a.charge = some charge → LedgerKey.account charge.payer ∈ keys)
    (hfootprint : ∀ key ∈ v.sorobanData.resources.footprint.keys, key ∈ keys) :
    Agree ((d.ledgerTable codes).AgreeOn keys) (commit d a v ledger) (commit d a v ledger') := by
  refine .bind (commitClassic_agreeOn h a v hsource hpayer) fun _ mid mid' hclassic hmid => ?_
  refine .bind (runOperation_agreeOn hhost hhash hkeyed hreturns hmid
    (commitClassic_sound hclassic hsound) v _ hfootprint) fun op _ _ _ hend => ?_
  exact settle_agreeOn hend v a.charge op hpayer

end Commit

/-! ## What an application writes -/

section Writes

variable {d : Deps} {keys : Set LedgerKey}

/-- A keyed store stays keyed, and is written under these keys at most. -/
def Ledger.WritesOnly (keys : Set LedgerKey) (ledger ledger' : Ledger) : Prop :=
  ledger.store.Keyed → ledger'.store.Keyed ∧
    ∀ key, key ∉ keys → ledger'.store.lookup key = ledger.store.lookup key

instance Ledger.writesOnly_preorder : IsPreorder Ledger (Ledger.WritesOnly keys) where
  refl _ hkeyed := ⟨hkeyed, fun _ _ => rfl⟩
  trans := by
    intro a b c hab hbc hkeyed
    obtain ⟨hb, hlookup⟩ := hab hkeyed
    obtain ⟨hc, hlookup'⟩ := hbc hb
    exact ⟨hc, fun key hkey => (hlookup' key hkey).trans (hlookup key hkey)⟩

theorem rewriteAccount_writesOnly {id : AccountId} (hid : LedgerKey.account id ∈ keys)
    {f : Ledger → AccountEntry → AccountEntry} (hf : ∀ l a, (f l a).accountId = a.accountId) :
    Within (Ledger.WritesOnly keys) (rewriteAccount d id f) := by
  intro ledger hkeyed
  rcases rewriteAccount_cases d id f ledger with ⟨e, hthrew⟩ | ⟨account, hload, hstored⟩
  · rw [hthrew]
    exact ⟨hkeyed, fun _ _ => rfl⟩
  · have haccount : account.accountId = id :=
      hkeyed.accountId_eq ((loadAccount!_eq_ok hkeyed).mp hload)
    rw [hstored]
    refine ⟨ledger.withAccount_keyed hkeyed _, fun key hkey => ?_⟩
    apply ledger.lookup_withAccount_of_ne
    rintro rfl
    rw [hf, haccount] at hkey
    exact hkey hid

theorem commitClassic_writesOnly (a : Application) (v : Validated)
    (hsource : LedgerKey.account a.raw.sourceId ∈ keys)
    (hpayer : ∀ charge, a.charge = some charge → LedgerKey.account charge.payer ∈ keys) :
    Within (Ledger.WritesOnly keys) (commitClassic d a v) := by
  refine .bind (rewriteAccount_writesOnly hsource fun _ _ => rfl) fun _ => ?_
  cases hcharge : a.charge with
  | none => exact .pure _
  | some charge => exact rewriteAccount_writesOnly (hpayer charge hcharge) fun _ _ => rfl

/-- An operation writes what its footprint lets it write. -/
theorem runOperation_writesOnly (hkeyed : d.ReturnsKeyed) (hreturns : d.ReturnsFootprint)
    {v : Validated} (cap : Option Int) {first : Ledger} {u : Unit}
    (hsoroban : v.op.body.isSoroban = true)
    (hshape : checkFootprintOp first v.toShaped = .ok u) :
    Within (Ledger.WritesOnly v.sorobanData.resources.footprint.access.writes)
      (runOperation d v cap) := by
  intro ledger hstore
  rcases runOperation_final d v cap ledger with hsame | ⟨hinvoke, moves, hselected, hput⟩ |
    ⟨hostFunction, auth, -, hcall⟩
  · rw [hsame]
    exact ⟨hstore, fun _ _ => rfl⟩
  · obtain ⟨mid, hmid, hmoved⟩ := putMoves_selected hstore hinvoke hsoroban hshape hselected
    rw [hput, hmid, finalState_ok]
    refine ⟨hmoved.keyed, fun key hkey => ?_⟩
    rw [hmoved.frame]
    refine lookup_putStore_of_not_mem (fun m hm heq => hkey ?_) _
    have hmem := (selectedMoves_of hselected m hm).mem
    have hneeds := hmoved.ttl m hm
    rw [heq] at hmem hneeds
    split at hmem
    · exact .inr ⟨hmem, hneeds⟩
    · exact .inl hmem
  · rw [hcall]
    exact ⟨send_keyed hkeyed hstore,
      fun key hkey => send_lookup hreturns (invokeArgs v hostFunction auth cap) ledger.env hkey⟩

theorem settle_writesOnly (v : Validated) (charge : Option FeeCharge) (op : Operated)
    (hpayer : ∀ c, charge = some c → LedgerKey.account c.payer ∈ keys) :
    Within (Ledger.WritesOnly keys) (settle d v charge op) := by
  cases charge with
  | none => exact .pure _
  | some c =>
    refine .bind ?_ fun _ => .pure _
    unfold giveBack
    by_cases hrefund : v.maxRefundable - op.refundable > 0
    · rw [if_pos hrefund]
      exact rewriteAccount_writesOnly (hpayer c rfl) fun _ _ => rfl
    · rw [if_neg hrefund]
      exact .pure _

theorem Ledger.WritesOnly.mono {keys' : Set LedgerKey} (hsub : keys ⊆ keys') {ledger ledger' : Ledger}
    (h : ledger.WritesOnly keys ledger') : ledger.WritesOnly keys' ledger' :=
  fun hkeyed => ⟨(h hkeyed).1, fun key hkey => (h hkeyed).2 key fun hmem => hkey (hsub hmem)⟩

end Writes

/-! ## An application is local -/

/-- What an envelope that reaches `applyInner` has made of itself lies within
what it names. -/
structure Application.Named (envelope : TransactionEnvelope) (a : Application) : Prop where
  source : a.raw.sourceId ∈ envelope.writtenAccounts
  operations : ∀ op ∈ a.raw.operations, op.sourceId a.raw ∈ envelope.accounts
  payer : ∀ charge, a.charge = some charge → charge.payer ∈ envelope.writtenAccounts
  footprint : ∀ data, a.raw.sorobanData? = some data →
    envelope.footprint = data.resources.footprint

theorem Unwrapped.named {d : Deps} {envelope : TransactionEnvelope} {passphrase : String}
    {validation : ValidationOptions} {a : Application}
    (h : Unwrapped d envelope passphrase validation a) : a.Named envelope := by
  obtain ⟨payer, hpayer, hcharge⟩ := h.charge
  have hwritten : envelope.writtenAccounts = [a.raw.sourceId, payer] := by
    simp only [TransactionEnvelope.writtenAccounts, h.innerTx, hpayer, Option.toList_some]
  refine ⟨?_, fun op hop => ?_, fun charge hsome => ?_, fun data hdata => ?_⟩
  · rw [hwritten]
    exact List.mem_cons_self
  · simp only [TransactionEnvelope.accounts, h.innerTx]
    exact List.mem_append_left _ (List.mem_cons_of_mem _ (List.mem_map_of_mem hop))
  · rw [hcharge] at hsome
    split at hsome
    · cases hsome
      rw [hwritten]
      exact List.mem_cons_of_mem _ List.mem_cons_self
    · cases hsome
  · simp only [TransactionEnvelope.footprint, h.innerTx, Option.bind_some, hdata]

theorem TransactionEnvelope.feePayer?_mem {envelope : TransactionEnvelope} {id : AccountId}
    (h : envelope.feePayer? = some id) : id ∈ envelope.writtenAccounts := by
  cases envelope with
  | envelopeTypeTxV0 xdr => cases h
  | envelopeTypeTx v1 =>
    cases h
    exact List.mem_cons_self
  | envelopeTypeTxFeeBump feeBump =>
    cases h
    exact List.mem_cons_of_mem _ List.mem_cons_self

theorem commit_writesOnly {d : Deps} (hkeyed : d.ReturnsKeyed) (hreturns : d.ReturnsFootprint)
    {ledger : Ledger} {envelope : TransactionEnvelope} {a : Application} {v : Validated}
    (hnamed : a.Named envelope) (hval : validate d ledger a = .ok v) :
    Within (Ledger.WritesOnly envelope.access.writes) (commit d a v) := by
  obtain ⟨_, _, hpassed⟩ := validate_ok hval
  obtain ⟨-, hsoroban, hdata, -⟩ := checkShape_ok hpassed.shape
  have hwritten : ∀ id ∈ envelope.writtenAccounts,
      LedgerKey.account id ∈ envelope.access.writes := fun id hid => .inl ⟨id, hid, rfl⟩
  have hpayer : ∀ charge, a.charge = some charge →
      LedgerKey.account charge.payer ∈ envelope.access.writes :=
    fun charge hcharge => hwritten _ (hnamed.payer charge hcharge)
  refine .bind (commitClassic_writesOnly a v (hwritten _ hnamed.source) hpayer) fun _ =>
    .bind (fun l => ?_) fun op => settle_writesOnly v a.charge op hpayer
  refine (runOperation_writesOnly hkeyed hreturns _ hsoroban hpassed.footprintOp l).mono ?_
  intro key hkey
  exact .inr (by rw [hnamed.footprint _ hdata]; exact hkey)

/-- An application writes what its envelope lets it write, whether it returns
or throws. -/
theorem applyTransaction_writesOnly {d : Deps} (hkeyed : d.ReturnsKeyed)
    (hreturns : d.ReturnsFootprint) (envelope : TransactionEnvelope) (passphrase : String)
    (validation : ValidationOptions) :
    Within (Ledger.WritesOnly envelope.access.writes)
      (applyTransaction d envelope passphrase validation) := by
  intro ledger
  have hsame : ledger.WritesOnly envelope.access.writes ledger :=
    refl_of (Ledger.WritesOnly envelope.access.writes) ledger
  have hend := applyTransaction_end d envelope passphrase validation ledger
  generalize applyTransaction d envelope passphrase validation ledger = run at hend ⊢
  cases hend with
  | envelopeRejected happ => exact hsame
  | envelopeThrew happ => exact hsame
  | rejected happ hval => exact hsame
  | threw happ hval => exact hsame
  | committed happ hval hcommit =>
    have hwrites := commit_writesOnly hkeyed hreturns (envelopeApplication_ok happ).named hval ledger
    rw [hcommit] at hwrites
    exact hwrites
  | commitThrew happ hval hcommit =>
    have hwrites := commit_writesOnly hkeyed hreturns
      (envelopeApplication_ok happ).named hval ledger
    rw [hcommit] at hwrites
    exact hwrites

/-- What a transaction answers, and what it leaves under the keys it names,
depend on what stands under those keys.  It writes its source account, the
account that pays and what its footprint lets it write, and nothing else. -/
theorem applyTransaction_local {d : Deps} {codes : Set Bytes} (hhost : d.ReadsUsedCode)
    (hhash : d.HashesCode codes) (hkeyed : d.ReturnsKeyed) (hreturns : d.ReturnsFootprint)
    (envelope : TransactionEnvelope) (passphrase : String) (validation : ValidationOptions) :
    (d.ledgerTable codes).Local envelope.access
      (applyTransaction d envelope passphrase validation) := by
  have hread : ∀ id ∈ envelope.writtenAccounts, LedgerKey.account id ∈ envelope.access.reads :=
    fun id hid => .inl ⟨id, envelope.writtenAccounts_sub hid, rfl⟩
  have hreads : ∀ ledger ledger' : Ledger,
      (d.ledgerTable codes).AgreeOn envelope.access.reads ledger ledger' →
      (d.ledgerTable codes).Sound envelope.access.reads ledger →
      Agree ((d.ledgerTable codes).AgreeOn envelope.access.reads)
        (applyTransaction d envelope passphrase validation ledger)
        (applyTransaction d envelope passphrase validation ledger') := by
    intro ledger ledger' h hsound
    rw [applyTransaction_eq, applyTransaction_eq, envelopeApplication_agreeOn h envelope
      passphrase validation fun id hid => hread id (envelope.feePayer?_mem hid)]
    cases happ : envelopeApplication d ledger envelope passphrase validation with
    | error stop => cases stop <;> exact ⟨rfl, h⟩
    | ok a =>
      have hnamed := (envelopeApplication_ok happ).named
      have hsource := hread _ hnamed.source
      have hpayer := fun charge hcharge => hread _ (hnamed.payer charge hcharge)
      simp only
      rw [validate_agreeOn h a hsource (fun op hop => .inl ⟨_, hnamed.operations op hop, rfl⟩)
        hpayer]
      cases hval : validate d ledger a with
      | error stop => cases stop <;> exact ⟨rfl, h⟩
      | ok v =>
        obtain ⟨_, _, hpassed⟩ := validate_ok hval
        have hfootprint := hnamed.footprint _ (checkShape_ok hpassed.shape).2.2.1
        have hcommit := commit_agreeOn hhost hhash hkeyed hreturns h hsound a v hsource hpayer
          fun key hkey => .inr (by rw [hfootprint]; exact hkey)
        simp only
        rcases hcommit.cases with ⟨inner, l, l', hl, hl', hends⟩ | ⟨e, l, l', hl, hl', hends⟩
        · rw [hl, hl']
          exact ⟨rfl, hends⟩
        · rw [hl, hl']
          exact ⟨rfl, hends⟩
  refine ⟨hreads, fun ledger h hsound => ?_, fun ledger h key hkey => ?_⟩
  · -- beside itself, the ledger ends beside itself
    have hend := (hreads ledger ledger ⟨h, fun _ _ => rfl⟩ hsound).ends.beside
    exact ⟨applyTransaction_storesOnly d envelope passphrase validation ledger, h.2.1, hend.2.1⟩
  · exact (applyTransaction_writesOnly hkeyed hreturns envelope passphrase validation ledger
      h.2.1.1).2 key hkey

end LiteSoroban

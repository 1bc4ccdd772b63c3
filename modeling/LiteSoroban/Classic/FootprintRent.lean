import LiteSoroban.Classic.FootprintApplied
import LiteSoroban.Env.StateHash

/-!
# The rent of a footprint transaction

A footprint transaction pays for the entries whose TTL it changes, and reports
their keys.  `PricesOnce` asks that each of them be priced and reported once,
whatever the footprint lists, and `footprintRent_iff` says when that is so.

The loop over the footprint reads every TTL before any is written, so it finds
an entry that is listed twice to be moved twice.  And a new TTL that has
wrapped can be the old one, so that nothing changes and the entry is still
priced.
-/

namespace LiteSoroban

open Effect

/-- The entry under a key has another TTL than before. -/
def TtlDiffers (ledger ledger' : Ledger) (key : LedgerKey) : Prop :=
  ∃ ttl, ledger'.getEntryTtl key = some ttl ∧ ledger.getEntryTtl key ≠ some ttl

/-- The rent change of an entry whose TTL is moved: at its rent size, from its
old TTL, or as a new entry when it is restored, to its new TTL. -/
structure RentChangeOf (d : Deps) (ledger : Ledger) (body : OperationBody) (ledger' : Ledger)
    (key : LedgerKey) (change : LedgerEntryRentChange) : Prop where
  moved : ∃ entry oldLiveUntil newLiveUntil size,
    ledger.store.lookup key = some ⟨entry, some oldLiveUntil⟩ ∧
    ledger'.getEntryTtl key = some newLiveUntil ∧
    ledger.env.entrySizeForRentOf d entry = .ok size ∧
    change = rentChangeWithoutModification key size
      (if body.isRestore then none else some oldLiveUntil) newLiveUntil

/-- A footprint transaction prices and reports each entry whose TTL it changes
once, and holds its bytes against what is declared once. -/
structure PricesOnce (d : Deps) (ledger : Ledger) (body : OperationBody)
    (resources : SorobanResources) (outcome : TxOutcome) (ledger' : Ledger)
    (keys : List LedgerKey) : Prop where
  changed : outcome.changedKeys = some keys
  once : keys.Nodup
  differs : ∀ key, key ∈ keys ↔ TtlDiffers ledger ledger' key
  rent : ∃ settings changes, ledger.env.feeSettings = some settings ∧
    List.Forall₂ (RentChangeOf d ledger body ledger') keys changes ∧
    ∀ fee, outcome.sorobanFee = some fee →
      fee.rent = d.computeRentFee changes (settings.rentFeeConfiguration d) ledger.ledgerSeq ∧
      fee.refundable = fee.rent
  /-- The declared bytes a restore passes under are those that cover each
  entry once. -/
  held : body = .restoreFootprint → ∀ diskReadBytes writeBytes,
    (∃ moves, restoreMoves d ledger
      { resources with diskReadBytes := diskReadBytes, writeBytes := writeBytes }
      (ledger.ledgerSeq + ledger.env.minPersistentEntryTtl - 1)
      resources.footprint.readWrite 0 = .ok moves) ↔
    (keys.map (storedBytes d ledger)).sum ≤ diskReadBytes ∧
      (keys.map (storedBytes d ledger)).sum ≤ writeBytes

/-! ## The rent changes -/

/-- What a row is once its TTLs have crossed in their `Uint32Array`s. -/
def RentChange.crossed (row : RentChange) : RentChange :=
  { row with
    oldLiveUntil := toUint32 row.oldLiveUntil
    newLiveUntil := toUint32 row.newLiveUntil }

theorem computeRentFee_crossed {d : Deps} {ledger : Ledger} {rows : List RentChange} {rent : Int}
    (h : ledger.computeRentFee d rows = .ok rent) :
    ∃ settings, ledger.env.feeSettings = some settings ∧
      rent = d.computeRentFee (rows.map fun row => row.crossed.toHost)
        (settings.rentFeeConfiguration d) ledger.ledgerSeq := by
  have hcrossed : ∀ row ∈ rows.map RentChange.crossed,
      row.oldLiveUntil < 2 ^ 32 ∧ row.newLiveUntil < 2 ^ 32 := by
    intro row hrow
    obtain ⟨row, -, rfl⟩ := List.mem_map.mp hrow
    exact ⟨Nat.mod_lt _ (by decide), Nat.mod_lt _ (by decide)⟩
  have htwice : ledger.computeRentFee d (rows.map RentChange.crossed) = .ok rent := by
    rw [← h]
    unfold Ledger.computeRentFee
    rw [List.map_map]
    refine congrArg _ (List.map_congr_left fun row _ => ?_)
    show RentChange.crossed (RentChange.crossed row) = RentChange.crossed row
    unfold RentChange.crossed toUint32
    simp only [Nat.mod_mod]
  obtain ⟨settings, hsettings, hrent⟩ := computeRentFee_words hcrossed htwice
  rw [List.map_map] at hrent
  exact ⟨settings, hsettings, hrent⟩

section rent

variable {d : Deps} {ledger ledger' : Ledger} {body : OperationBody} {keys : List LedgerKey}
  {key : LedgerKey} {m : TtlMove}

/-- The TTL a move is priced from. -/
theorem moveOf_oldLiveUntil (h : body.moveOf ledger key = some m) :
    ∃ ttl, ledger.store.lookup key = some ⟨m.entry, some ttl⟩ ∧
      if body.isRestore then m.oldLiveUntil = 0
      else m.oldLiveUntil = ttl ∧ ledger.ledgerSeq ≤ ttl := by
  obtain ⟨entry, ttl, hstored, ⟨extendTo, rfl, hlive, -, rfl⟩ | ⟨rfl, -, rfl⟩⟩ := moveOf_cases h
  · exact ⟨ttl, hstored, rfl, hlive⟩
  · exact ⟨ttl, hstored, rfl⟩

/-- The rent change of one moved entry. -/
theorem rentChangeOf_row (hwords : ledger.store.WordTtls) (hseq : 1 ≤ ledger.ledgerSeq)
    (hpick : body.moveOf ledger key = some m)
    (hafter : ledger'.getEntryTtl key = some (toUint32 m.newLiveUntil)) {size : Option Nat}
    (hsize : ledger.env.entrySizeForRent d key = .ok size) :
    RentChangeOf d ledger body ledger' key
      (RentChange.crossed ⟨key, size.getD 0, m.oldLiveUntil, m.newLiveUntil⟩).toHost := by
  obtain ⟨ttl, hstored, hold⟩ := moveOf_oldLiveUntil hpick
  have hlookup : ledger.env.store.lookup key = some ⟨m.entry, some ttl⟩ := hstored
  simp only [SorobanEnv.entrySizeForRent, hlookup, Except.bind_eq_ok] at hsize
  obtain ⟨bytes, hbytes, hsome⟩ := hsize
  cases hsome
  refine ⟨m.entry, ttl, _, bytes, hstored, hafter, hbytes, ?_⟩
  have hword : ttl < 2 ^ 32 := hwords key _ ttl hstored rfl
  unfold RentChange.toHost RentChange.crossed
  cases hrestore : body.isRestore with
  | true =>
    simp only [hrestore, if_true] at hold
    simp [hold, toUint32]
  | false =>
    simp only [hrestore, Bool.false_eq_true, if_false] at hold
    have hne : ttl ≠ 0 := by omega
    simp [hold.1, toUint32_of_lt hword, hne]

/-- The moves of the footprint are priced one by one, in their order. -/
theorem rentChangesOf_moved (hwords : ledger.store.WordTtls) (hseq : 1 ≤ ledger.ledgerSeq)
    {moves : List TtlMove} {rows : List RentChange}
    (hmoves : ∀ m ∈ moves, body.moveOf ledger m.key = some m ∧
      ledger'.getEntryTtl m.key = some (toUint32 m.newLiveUntil))
    (h : rentChangesOf d ledger moves = .ok rows) :
    List.Forall₂ (RentChangeOf d ledger body ledger') (moves.map (·.key))
      (rows.map fun row => row.crossed.toHost) := by
  have hrows := rentChangesOf_forall₂.mp h
  clear h
  induction hrows with
  | nil => exact .nil
  | cons hone _ ih =>
    obtain ⟨hfirst, hrest⟩ := List.forall_mem_cons.mp hmoves
    obtain ⟨size, hsize, rfl⟩ := hone
    exact .cons (rentChangeOf_row hwords hseq hfirst.1 hfirst.2 hsize) (ih hrest)

/-- The bytes of the moves, from the keys they are of. -/
theorem movedBytes_selected (d : Deps) (keys : List LedgerKey) :
    movedBytes d ((body.moves ledger).select keys) =
      (((body.moves ledger).selected keys).map (storedBytes d ledger)).sum := by
  unfold movedBytes Selector.selected
  rw [List.map_map]
  refine congrArg _ (List.map_congr_left fun m hm => ?_)
  have hpick : body.moveOf ledger m.key = some m := (Selector.mem_select.mp hm).2
  obtain ⟨ttl, hstored, -⟩ := (moveOf_some hpick).stored
  show d.entrySize m.entry = storedBytes d ledger m.key
  simp only [storedBytes, hstored]

/-! ## The transaction -/

variable {envelope : TransactionEnvelope} {passphrase : String} {validation : ValidationOptions}
  {outcome : TxOutcome} {resources : SorobanResources}

/-- A moved entry has the new TTL, cut to a word. -/
theorem FootprintApplied.ttl_moved (h : FootprintApplied d ledger body keys outcome ledger')
    (hkey : key ∈ keys) (hpick : body.moveOf ledger key = some m) :
    ledger'.getEntryTtl key = some (toUint32 (body.newLiveUntil ledger)) := by
  rw [(getEntry_eq ledger' key).2, h.lookup key (h.not_account hkey),
    lookup_putStore_moved hkey hpick]
  rfl

/-- Only a moved entry has another TTL than before. -/
theorem FootprintApplied.moved_of_differs (h : FootprintApplied d ledger body keys outcome ledger')
    (hdiffers : TtlDiffers ledger ledger' key) :
    key ∈ keys ∧ (body.moveOf ledger key).isSome := by
  obtain ⟨ttl, hafter, hbefore⟩ := hdiffers
  by_contra hunmoved
  apply hbefore
  by_cases haccount : ∃ id, key = .account id
  · obtain ⟨id, rfl⟩ := haccount
    exact h.accounts id ttl hafter
  · rw [(getEntry_eq ledger' key).2, h.lookup key fun id hid => haccount ⟨id, hid⟩,
      lookup_putStore_unmoved] at hafter
    · exact hafter
    · intro hkey
      cases hpick : body.moveOf ledger key with
      | none => rfl
      | some m => exact absurd ⟨hkey, by rw [hpick]; rfl⟩ hunmoved

/-- **The rent of a footprint transaction.**  Each entry whose TTL differs is
priced, reported and held against the declared bytes once, exactly when every
entry that is moved is listed once and does not have its new TTL already. -/
theorem footprintRent_iff (hkeyed : ledger.store.Keyed) (hwords : ledger.store.WordTtls)
    (hseq : 1 ≤ ledger.ledgerSeq) (htx : FootprintTransaction envelope body resources)
    (h : applyTransaction d envelope passphrase validation ledger = .ok outcome ledger')
    (hok : outcome.ok = true) :
    (∃ keys, PricesOnce d ledger body resources outcome ledger' keys) ↔
      ∀ key ∈ body.side resources.footprint, (body.moveOf ledger key).isSome →
        (body.side resources.footprint).count key ≤ 1 ∧
        ledger.getEntryTtl key ≠ some (toUint32 (body.newLiveUntil ledger)) := by
  have happlied := footprint_applied hkeyed htx h hok
  constructor
  · rintro ⟨keys, hprices⟩ key hkey hsome
    cases happlied.changed.symm.trans hprices.changed
    refine ⟨Selector.nodup_selected.mp hprices.once key hsome, ?_⟩
    obtain ⟨m, hpick⟩ := Option.isSome_iff_exists.mp hsome
    have hmem : key ∈ (body.moves ledger).selected (body.side resources.footprint) := by
      rw [Selector.selected_eq_filter]
      exact List.mem_filter.mpr ⟨hkey, hsome⟩
    obtain ⟨ttl, hafter, hbefore⟩ := (hprices.differs key).mp hmem
    cases (happlied.ttl_moved hkey hpick).symm.trans hafter
    exact hbefore
  · intro hlisted
    obtain ⟨rows, rent, hrows, hrent, hfee⟩ := happlied.priced
    obtain ⟨settings, hsettings, hrent⟩ := computeRentFee_crossed hrent
    refine ⟨_, happlied.changed, Selector.nodup_selected.mpr fun key hsome => ?_, fun key => ?_,
      ⟨settings, _, hsettings, rentChangesOf_moved hwords hseq (fun m hm => ?_) hrows,
        fun fee hreported => ?_⟩, fun hrestore diskReadBytes writeBytes => ?_⟩
    · by_cases hkey : key ∈ body.side resources.footprint
      · exact (hlisted key hkey hsome).1
      · rw [List.count_eq_zero_of_not_mem hkey]
        exact Nat.zero_le 1
    · rw [Selector.selected_eq_filter, List.mem_filter]
      constructor
      · rintro ⟨hkey, hsome⟩
        obtain ⟨m, hpick⟩ := Option.isSome_iff_exists.mp hsome
        exact ⟨_, happlied.ttl_moved hkey hpick, (hlisted key hkey hsome).2⟩
      · exact happlied.moved_of_differs
    · obtain ⟨hkey, hpick⟩ := Selector.mem_select.mp hm
      have hpick : body.moveOf ledger m.key = some m := hpick
      refine ⟨hpick, ?_⟩
      rw [(moveOf_some hpick).newLiveUntil]
      exact happlied.ttl_moved hkey hpick
    · rw [(hfee fee hreported).1, (hfee fee hreported).2]
      exact ⟨hrent, rfl⟩
    · subst hrestore
      rw [← movedBytes_selected]
      constructor
      · rintro ⟨moves, hmoves⟩
        obtain ⟨rfl, -, hread, hwrite⟩ :=
          (restoreMoves_ok_iff (Nat.zero_le _) (Nat.zero_le _)).mp hmoves
        rw [Nat.zero_add] at hread hwrite
        exact ⟨hread, hwrite⟩
      · rintro ⟨hread, hwrite⟩
        refine ⟨_, (restoreMoves_ok_iff (Nat.zero_le _) (Nat.zero_le _)).mpr
          ⟨rfl, happlied.fit, ?_, ?_⟩⟩
        · rwa [Nat.zero_add]
        · rwa [Nat.zero_add]

end rent

/-! ## An archived balance, listed once and twice -/

/-- A balance of the same contract. -/
def heldKey (holder : UInt8) : LedgerKey := .contractData ⟨[1]⟩ ⟨[holder]⟩ .persistent

/-- The archived balance beside one that lives longer than a restore would make
it live. -/
def mixedLedger : Ledger :=
  archivedLedger.withStore (archivedLedger.store.insert (heldKey 4)
    ⟨⟨900, .contractData ⟨⟨[1]⟩, ⟨[4]⟩, .persistent, ⟨[3]⟩⟩, .v0⟩, some 200000⟩)

/-- A restore of the archived balance, of the live one, twice, and of one that
is not there. -/
def restoreMixedEnvelope : TransactionV1Envelope :=
  { restoreEnvelope with tx := { restoreEnvelope.tx with
      ext := .sorobanData ⟨.v0,
        ⟨⟨[], [heldKey 4, balanceKey .persistent, heldKey 5, heldKey 4]⟩, 0, 100, 100⟩, 0⟩ } }

theorem mixedLedger_wordTtls : mixedLedger.store.WordTtls := by
  have haccount : (sampleLedger 7).store.WordTtls :=
    Store.WordTtls.empty.insert _ fun t ht => by cases ht
  have harchived : archivedLedger.store.WordTtls :=
    haccount.insert _ fun t ht => by
      cases ht
      decide
  exact harchived.insert _ fun t ht => by
    cases ht
    decide

/-- Of the three keys one is moved, and the one that is listed twice is not. -/
theorem footprintRent_iff_balance : ∃ outcome ledger' keys,
    applyTransaction sizedHost (.envelopeTypeTx restoreMixedEnvelope) "" {} mixedLedger =
      .ok outcome ledger' ∧
    outcome.changedKeys = some [balanceKey .persistent] ∧
    PricesOnce sizedHost mixedLedger .restoreFootprint
      ⟨⟨[], [heldKey 4, balanceKey .persistent, heldKey 5, heldKey 4]⟩, 0, 100, 100⟩
      outcome ledger' keys := by
  obtain ⟨outcome, ledger', hrun, hok, hchanged⟩ : ∃ outcome ledger',
      applyTransaction sizedHost (.envelopeTypeTx restoreMixedEnvelope) "" {} mixedLedger =
        .ok outcome ledger' ∧ outcome.ok = true ∧
      outcome.changedKeys = some [balanceKey .persistent] := ⟨_, _, rfl, rfl, rfl⟩
  have hkeyed : mixedLedger.store.Keyed := archivedLedger_premises.keyed.insert rfl
  have htx : FootprintTransaction (.envelopeTypeTx restoreMixedEnvelope) .restoreFootprint
      ⟨⟨[], [heldKey 4, balanceKey .persistent, heldKey 5, heldKey 4]⟩, 0, 100, 100⟩ :=
    ⟨rfl, _, _, _, rfl, rfl, rfl, rfl, rfl⟩
  obtain ⟨keys, hprices⟩ := (footprintRent_iff hkeyed mixedLedger_wordTtls
    archivedLedger_premises.started htx hrun hok).mpr (by decide)
  exact ⟨outcome, ledger', keys, hrun, hchanged, hprices⟩

/-- `restoreEnvelope` with its one key listed twice. -/
def restoreTwiceEnvelope : TransactionV1Envelope :=
  { restoreEnvelope with tx := { restoreEnvelope.tx with
      ext := .sorobanData ⟨.v0,
        ⟨⟨[], [balanceKey .persistent, balanceKey .persistent]⟩, 0, 200, 200⟩, 0⟩ } }

/-- One restored entry is reported twice, and its bytes are counted twice: what
covers them once is refused. -/
theorem footprintRent_twice : ∃ outcome ledger',
    applyTransaction sizedHost (.envelopeTypeTx restoreTwiceEnvelope) "" {} archivedLedger =
      .ok outcome ledger' ∧
    outcome.ok = true ∧
    outcome.changedKeys = some [balanceKey .persistent, balanceKey .persistent] ∧
    restoreMoves sizedHost archivedLedger
      ⟨⟨[], [balanceKey .persistent, balanceKey .persistent]⟩, 0, 100, 100⟩ 121959
      [balanceKey .persistent, balanceKey .persistent] 0 =
      .error "operation byte-read resources exceeds amount specified: 200 > 100" ∧
    ¬ ∃ keys, PricesOnce sizedHost archivedLedger .restoreFootprint
      ⟨⟨[], [balanceKey .persistent, balanceKey .persistent]⟩, 0, 200, 200⟩ outcome ledger'
      keys := by
  obtain ⟨outcome, ledger', hrun, hok, hchanged⟩ : ∃ outcome ledger',
      applyTransaction sizedHost (.envelopeTypeTx restoreTwiceEnvelope) "" {} archivedLedger =
        .ok outcome ledger' ∧
      outcome.ok = true ∧
      outcome.changedKeys = some [balanceKey .persistent, balanceKey .persistent] :=
    ⟨_, _, rfl, rfl, rfl⟩
  refine ⟨outcome, ledger', hrun, hok, hchanged, rfl, ?_⟩
  rintro ⟨keys, hprices⟩
  cases hchanged.symm.trans hprices.changed
  have honce := hprices.once
  exact (List.nodup_cons.mp honce).1 List.mem_cons_self

end LiteSoroban

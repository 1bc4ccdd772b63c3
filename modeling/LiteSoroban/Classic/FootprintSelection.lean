import Mathlib.Algebra.GroupWithZero.Nat
import LiteSoroban.Classic.Atomicity
import LiteSoroban.Classic.FootprintSpec
import LiteSoroban.Env.SendTtl
import LiteSoroban.Lib.Selection

/-!
# The selection of a footprint operation

`OperationBody.moves` selects the entries a footprint operation moves, of the
keys it is given.  The loops of the TypeScript layer make that selection:

* `extendMoves_ok_iff` and `restoreMoves_ok_iff` say when each loop returns,
  and that it then returns the selection.
* `rentChangesOf_forall₂` gives the row each move is priced by.
* `lookup_putStore_moved` and `lookup_putStore_unmoved` give the store after
  the selection has been moved.
-/

namespace LiteSoroban

open Effect

/-! ## The selection -/

/-- The TTL a footprint operation gives the entries it moves. -/
def OperationBody.newLiveUntil (ledger : Ledger) : OperationBody → Nat
  | .extendFootprintTtl extendTo => ledger.ledgerSeq + extendTo
  | _ => ledger.ledgerSeq + ledger.env.minPersistentEntryTtl - 1

/-- The side of the footprint a footprint operation works on. -/
def OperationBody.side : OperationBody → LedgerFootprint → List LedgerKey
  | .extendFootprintTtl _, footprint => footprint.readOnly
  | _, footprint => footprint.readWrite

/-- What a footprint operation does with a key.  An extension raises the TTL
of a live entry, and a restore gives an archived one the TTL of a new entry. -/
def OperationBody.moveOf (ledger : Ledger) (body : OperationBody) (key : LedgerKey) :
    Option TtlMove :=
  match ledger.store.lookup key with
  | some ⟨entry, some ttl⟩ =>
    match body with
    | .extendFootprintTtl extendTo =>
      if ledger.ledgerSeq ≤ ttl ∧ ttl < ledger.ledgerSeq + extendTo then
        some ⟨key, entry, ttl, ledger.ledgerSeq + extendTo⟩
      else none
    | .restoreFootprint =>
      if ttl < ledger.ledgerSeq then
        some ⟨key, entry, 0, ledger.ledgerSeq + ledger.env.minPersistentEntryTtl - 1⟩
      else none
    | _ => none
  | _ => none

/-- The two ways a key is moved. -/
theorem moveOf_cases {ledger : Ledger} {body : OperationBody} {key : LedgerKey} {m : TtlMove}
    (h : body.moveOf ledger key = some m) :
    ∃ entry ttl, ledger.store.lookup key = some ⟨entry, some ttl⟩ ∧
      ((∃ extendTo, body = .extendFootprintTtl extendTo ∧ ledger.ledgerSeq ≤ ttl ∧
          ttl < ledger.ledgerSeq + extendTo ∧
          m = ⟨key, entry, ttl, ledger.ledgerSeq + extendTo⟩) ∨
        (body = .restoreFootprint ∧ ttl < ledger.ledgerSeq ∧
          m = ⟨key, entry, 0, ledger.ledgerSeq + ledger.env.minPersistentEntryTtl - 1⟩)) := by
  unfold OperationBody.moveOf at h
  split at h
  · next entry ttl hstored =>
    refine ⟨entry, ttl, hstored, ?_⟩
    cases body with
    | extendFootprintTtl extendTo =>
      simp only at h
      split at h
      · next hmoves =>
        cases h
        exact .inl ⟨extendTo, rfl, hmoves.1, hmoves.2, rfl⟩
      · cases h
    | restoreFootprint =>
      simp only at h
      split at h
      · next harchived =>
        cases h
        exact .inr ⟨rfl, harchived, rfl⟩
      · cases h
    | invokeHostFunction hostFunction auth => cases h
    | classic xdr => cases h
  · cases h

/-- What a footprint operation makes of a key, when it moves it. -/
structure MoveOf (ledger : Ledger) (body : OperationBody) (k : LedgerKey) (m : TtlMove) :
    Prop where
  key : m.key = k
  newLiveUntil : m.newLiveUntil = body.newLiveUntil ledger
  oldLiveUntil : m.oldLiveUntil = 0 ∨ m.oldLiveUntil < body.newLiveUntil ledger
  stored : ∃ ttl, ledger.store.lookup k = some ⟨m.entry, some ttl⟩ ∧
    (0 < ledger.env.minPersistentEntryTtl → ttl < body.newLiveUntil ledger)

theorem moveOf_some {ledger : Ledger} {body : OperationBody} {key : LedgerKey} {m : TtlMove}
    (h : body.moveOf ledger key = some m) : MoveOf ledger body key m := by
  obtain ⟨entry, ttl, hstored, ⟨extendTo, rfl, -, hshort, rfl⟩ | ⟨rfl, harchived, rfl⟩⟩ :=
    moveOf_cases h
  · exact ⟨rfl, rfl, .inr hshort, ttl, hstored, fun _ => hshort⟩
  · refine ⟨rfl, rfl, .inl rfl, ttl, hstored, fun hpos => ?_⟩
    show ttl < ledger.ledgerSeq + ledger.env.minPersistentEntryTtl - 1
    omega

/-- The moves of a footprint operation. -/
def OperationBody.moves (ledger : Ledger) (body : OperationBody) :
    Selector LedgerKey TtlMove where
  pick := body.moveOf ledger
  key := TtlMove.key
  key_pick h := (moveOf_some h).key

/-- The bumps and debits before an operation change none of its moves. -/
theorem ClassicOnly.moveOf {ledger ledger' : Ledger} (h : ClassicOnly ledger ledger')
    (body : OperationBody) {key : LedgerKey} (hkey : needsTtl key = true) :
    body.moveOf ledger' key = body.moveOf ledger key := by
  simp only [OperationBody.moveOf, h.contracts key hkey]
  rw [h.frame]
  rfl

/-! ## The application's selection -/

/-- The stored entries under the keys fit the network's limits. -/
def WithinLimits (d : Deps) (ledger : Ledger) (keys : List LedgerKey) : Prop :=
  ∀ key ∈ keys, ∀ e, ledger.store.lookup key = some e →
    contractEntryTooLarge ledger.fees key (d.entrySize e.entry) = none

/-- The bytes of the entries some moves put back. -/
def movedBytes (d : Deps) (moves : List TtlMove) : Nat :=
  (moves.map fun m => d.entrySize m.entry).sum

theorem movedBytes_perm (d : Deps) {moves moves' : List TtlMove} (h : moves.Perm moves') :
    movedBytes d moves = movedBytes d moves' :=
  (h.map _).sum_eq

/-- The entry and the TTL a key is read with. -/
theorem getEntry_eq (ledger : Ledger) (key : LedgerKey) :
    ledger.getEntry key = (ledger.store.lookup key).map (·.entry) ∧
      ledger.getEntryTtl key = (ledger.store.lookup key).bind (·.liveUntil) :=
  ⟨rfl, rfl⟩

/-- One turn of an extension: the move of the key, if its entry fits. -/
theorem extendMove_eq (d : Deps) (ledger : Ledger) (extendTo : Nat) (key : LedgerKey) :
    extendMove d ledger (ledger.ledgerSeq + extendTo) key =
      match (OperationBody.extendFootprintTtl extendTo).moveOf ledger key with
      | none => .ok none
      | some m =>
        match contractEntryTooLarge ledger.fees key (d.entrySize m.entry) with
        | some overLimit => .error overLimit
        | none => .ok (some m) := by
  obtain ⟨hentry, httl⟩ := getEntry_eq ledger key
  simp only [extendMove, OperationBody.moveOf, hentry, httl]
  cases hstored : ledger.store.lookup key with
  | none => rfl
  | some e =>
    obtain ⟨entry, liveUntil⟩ := e
    cases liveUntil with
    | none => rfl
    | some ttl =>
      simp only [Option.map_some, Option.bind_some]
      by_cases hlive : ttl < ledger.ledgerSeq
      · rw [if_pos hlive, if_neg (by omega)]
      · by_cases hlong : ledger.ledgerSeq + extendTo ≤ ttl
        · rw [if_neg hlive, if_pos hlong, if_neg (by omega)]
        · have hmoved : ledger.ledgerSeq ≤ ttl ∧ ttl < ledger.ledgerSeq + extendTo := by omega
          cases hlarge : contractEntryTooLarge ledger.fees key (d.entrySize entry) with
          | some overLimit => simp only [if_neg hlive, if_neg hlong, if_pos hmoved, hlarge]
          | none => simp only [if_neg hlive, if_neg hlong, if_pos hmoved, hlarge]

/-- The entries of some moves fit the network's limit. -/
def MovesFit (d : Deps) (ledger : Ledger) (moves : List TtlMove) : Prop :=
  ∀ m ∈ moves, contractEntryTooLarge ledger.fees m.key (d.entrySize m.entry) = none

/-- Entries within the limits fit when they are moved. -/
theorem WithinLimits.movesFit {d : Deps} {ledger : Ledger} {keys : List LedgerKey}
    (h : WithinLimits d ledger keys) (body : OperationBody) :
    MovesFit d ledger ((body.moves ledger).select keys) := by
  intro m hm
  obtain ⟨hkey, hpick⟩ := Selector.mem_select.mp hm
  obtain ⟨ttl, hstored, -⟩ := (moveOf_some hpick).stored
  exact h m.key hkey _ hstored

/-- The loop of an extension returns the selection when every selected entry
fits. -/
theorem extendMoves_ok_iff {d : Deps} {ledger : Ledger} {extendTo : Nat} {keys : List LedgerKey}
    {moves : List TtlMove} :
    extendMoves d ledger (ledger.ledgerSeq + extendTo) keys = .ok moves ↔
      moves = ((OperationBody.extendFootprintTtl extendTo).moves ledger).select keys ∧
        MovesFit d ledger moves := by
  induction keys generalizing moves with
  | nil =>
    simp only [extendMoves, Selector.select_nil, Except.ok.injEq]
    constructor
    · rintro rfl
      refine ⟨rfl, ?_⟩
      intro m hm
      cases hm
    · exact fun h => h.1.symm
  | cons key keys ih =>
    simp only [extendMoves, extendMove_eq, Except.bind_eq_ok]
    cases hpick : (OperationBody.extendFootprintTtl extendTo).moveOf ledger key with
    | none =>
      rw [Selector.select_cons_of_none _ hpick, ← ih]
      constructor
      · rintro ⟨move, hmove, rest, hrest, h⟩
        cases hmove
        cases h
        exact hrest
      · intro h
        exact ⟨none, rfl, moves, h, rfl⟩
    | some m =>
      rw [Selector.select_cons_of_some _ hpick]
      have hkey : m.key = key := (moveOf_some hpick).key
      simp only
      cases hlarge : contractEntryTooLarge ledger.fees key (d.entrySize m.entry) with
      | some overLimit =>
        constructor
        · rintro ⟨move, hmove, -⟩
          cases hmove
        · rintro ⟨rfl, hfit⟩
          have hnone := hfit m List.mem_cons_self
          rw [hkey, hlarge] at hnone
          cases hnone
      | none =>
        constructor
        · rintro ⟨move, hmove, rest, hrest, h⟩
          cases hmove
          cases h
          obtain ⟨rfl, hfit⟩ := ih.mp hrest
          exact ⟨rfl, List.forall_mem_cons.mpr ⟨by rw [hkey, hlarge], hfit⟩⟩
        · rintro ⟨rfl, hfit⟩
          exact ⟨some m, rfl, _, ih.mpr ⟨rfl, (List.forall_mem_cons.mp hfit).2⟩, rfl⟩

/-- What is declared covers the bytes restored so far and those of one entry
more, and the entry fits the network's limit. -/
theorem restoreOverLimit_eq_none {ledger : Ledger} {resources : SorobanResources}
    {key : LedgerKey} {entrySize bytes : Nat} :
    restoreOverLimit ledger resources key entrySize bytes = none ↔
      contractEntryTooLarge ledger.fees key entrySize = none ∧
        bytes + entrySize ≤ resources.diskReadBytes ∧ bytes + entrySize ≤ resources.writeBytes := by
  unfold restoreOverLimit
  dsimp only
  by_cases hread : resources.diskReadBytes < bytes + entrySize
  · rw [if_pos hread]
    simp only [reduceCtorEq, false_iff]
    omega
  · rw [if_neg hread]
    cases contractEntryTooLarge ledger.fees key entrySize with
    | some overLimit => simp only [reduceCtorEq, false_and]
    | none =>
      by_cases hwrite : resources.writeBytes < bytes + entrySize
      · simp only [if_pos hwrite, reduceCtorEq, false_iff]
        omega
      · simp only [if_neg hwrite, true_iff, true_and]
        omega

/-- One turn of a restore: the move of the key, if nothing stops it. -/
theorem restoreMoves_cons (d : Deps) (ledger : Ledger) (resources : SorobanResources)
    (key : LedgerKey) (keys : List LedgerKey) (bytes : Nat) :
    restoreMoves d ledger resources (ledger.ledgerSeq + ledger.env.minPersistentEntryTtl - 1)
        (key :: keys) bytes =
      match OperationBody.restoreFootprint.moveOf ledger key with
      | none => restoreMoves d ledger resources
          (ledger.ledgerSeq + ledger.env.minPersistentEntryTtl - 1) keys bytes
      | some m =>
        match restoreOverLimit ledger resources key (d.entrySize m.entry) bytes with
        | some overLimit => .error overLimit
        | none => do
          let moves ← restoreMoves d ledger resources
            (ledger.ledgerSeq + ledger.env.minPersistentEntryTtl - 1) keys
            (bytes + d.entrySize m.entry)
          return m :: moves := by
  obtain ⟨hentry, httl⟩ := getEntry_eq ledger key
  simp only [restoreMoves, OperationBody.moveOf, hentry, httl]
  cases hstored : ledger.store.lookup key with
  | none => rfl
  | some e =>
    obtain ⟨entry, liveUntil⟩ := e
    cases liveUntil with
    | none => rfl
    | some ttl =>
      simp only [Option.map_some, Option.bind_some]
      by_cases hlive : ledger.ledgerSeq ≤ ttl
      · simp only [if_pos hlive, if_neg (not_lt.mpr hlive)]
      · have harchived : ttl < ledger.ledgerSeq := not_le.mp hlive
        cases hover : restoreOverLimit ledger resources key (d.entrySize entry) bytes with
        | some overLimit => simp only [if_neg hlive, if_pos harchived, hover]
        | none => simp only [if_neg hlive, if_pos harchived, hover]

/-- The loop of a restore returns the selection when every selected entry fits
and what is declared covers their bytes. -/
theorem restoreMoves_ok_iff {d : Deps} {ledger : Ledger} {resources : SorobanResources}
    {keys : List LedgerKey} {bytes : Nat} {moves : List TtlMove}
    (hread : bytes ≤ resources.diskReadBytes) (hwrite : bytes ≤ resources.writeBytes) :
    restoreMoves d ledger resources (ledger.ledgerSeq + ledger.env.minPersistentEntryTtl - 1)
        keys bytes = .ok moves ↔
      moves = (OperationBody.restoreFootprint.moves ledger).select keys ∧
        MovesFit d ledger moves ∧ bytes + movedBytes d moves ≤ resources.diskReadBytes ∧
        bytes + movedBytes d moves ≤ resources.writeBytes := by
  induction keys generalizing bytes moves with
  | nil =>
    simp only [restoreMoves, Selector.select_nil, Except.ok.injEq]
    constructor
    · rintro rfl
      refine ⟨rfl, ?_, hread, hwrite⟩
      intro m hm
      cases hm
    · exact fun h => h.1.symm
  | cons key keys ih =>
    rw [restoreMoves_cons]
    cases hpick : OperationBody.restoreFootprint.moveOf ledger key with
    | none =>
      -- A key that is not archived adds nothing to the moves or the bytes.
      rw [Selector.select_cons_of_none _ hpick]
      exact ih hread hwrite
    | some m =>
      rw [Selector.select_cons_of_some _ hpick]
      have hkey : m.key = key := (moveOf_some hpick).key
      simp only
      cases hover : restoreOverLimit ledger resources key (d.entrySize m.entry) bytes with
      | some overLimit =>
        constructor
        · intro h
          cases h
        · rintro ⟨rfl, hfit, hmoved⟩
          have hone := hfit m List.mem_cons_self
          rw [hkey] at hone
          simp only [movedBytes, List.map_cons, List.sum_cons] at hmoved
          cases hover.symm.trans (restoreOverLimit_eq_none.mpr ⟨hone, by omega, by omega⟩)
      | none =>
        obtain ⟨hone, hread', hwrite'⟩ := restoreOverLimit_eq_none.mp hover
        simp only [Except.bind_eq_ok]
        constructor
        · rintro ⟨rest, hrest, h⟩
          cases h
          obtain ⟨rfl, hfit, hmoved⟩ := (ih hread' hwrite').mp hrest
          refine ⟨rfl, List.forall_mem_cons.mpr ⟨by rw [hkey, hone], hfit⟩, ?_⟩
          simp only [movedBytes, List.map_cons, List.sum_cons] at hmoved ⊢
          omega
        · rintro ⟨rfl, hfit, hmoved⟩
          have hrest := (ih hread' hwrite').mpr ⟨rfl, (List.forall_mem_cons.mp hfit).2, by
            simp only [movedBytes, List.map_cons, List.sum_cons] at hmoved ⊢
            omega⟩
          exact ⟨_, hrest, rfl⟩

/-! ## The rows that are priced -/

/-- The rows of a list of moves are one for each, in their order. -/
theorem rentChangesOf_forall₂ {d : Deps} {ledger : Ledger} {moves : List TtlMove}
    {rows : List RentChange} :
    rentChangesOf d ledger moves = .ok rows ↔
      List.Forall₂ (fun m row => ∃ size, ledger.env.entrySizeForRent d m.key = .ok size ∧
        row = ⟨m.key, size.getD 0, m.oldLiveUntil, m.newLiveUntil⟩) moves rows := by
  induction moves generalizing rows with
  | nil =>
    rw [List.forall₂_nil_left_iff]
    simp only [rentChangesOf, Except.ok.injEq]
    exact eq_comm
  | cons m ms ih =>
    simp only [rentChangesOf, Except.bind_eq_ok, List.forall₂_cons_left_iff]
    constructor
    · rintro ⟨size, hsize, rest, hrest, ⟨⟩⟩
      exact ⟨_, rest, ⟨size, hsize, rfl⟩, ih.mp hrest, rfl⟩
    · rintro ⟨_, rest, ⟨size, hsize, rfl⟩, hrest, rfl⟩
      exact ⟨size, hsize, rest, ih.mpr hrest, rfl⟩

/-- Moves in another order have their rows in that order. -/
theorem rentChangesOf_perm {d : Deps} {ledger : Ledger} {moves moves' : List TtlMove}
    {rows : List RentChange} (hperm : moves'.Perm moves)
    (h : rentChangesOf d ledger moves = .ok rows) :
    ∃ rows', rentChangesOf d ledger moves' = .ok rows' ∧ rows'.Perm rows := by
  obtain ⟨rows', hrows', hperm'⟩ :=
    List.perm_comp_forall₂ hperm (rentChangesOf_forall₂.mp h)
  exact ⟨rows', rentChangesOf_forall₂.mpr hrows', hperm'⟩

/-- Rows whose TTLs are words cross into the crate as they are. -/
theorem computeRentFee_words {d : Deps} {ledger : Ledger} {rows : List RentChange} {rent : Int}
    (hwords : ∀ row ∈ rows, row.oldLiveUntil < 2 ^ 32 ∧ row.newLiveUntil < 2 ^ 32)
    (h : ledger.computeRentFee d rows = .ok rent) :
    ∃ settings, ledger.env.feeSettings = some settings ∧
      rent = d.computeRentFee (rows.map RentChange.toHost) (settings.rentFeeConfiguration d)
        ledger.ledgerSeq := by
  have hcross : rows.map (fun c => { c with
      oldLiveUntil := toUint32 c.oldLiveUntil
      newLiveUntil := toUint32 c.newLiveUntil }) = rows := by
    refine (List.map_congr_left fun row hrow => ?_).trans (List.map_id rows)
    rw [toUint32_of_lt (hwords row hrow).1, toUint32_of_lt (hwords row hrow).2]
    rfl
  rw [Ledger.computeRentFee, hcross] at h
  simp only [SorobanEnv.computeRentFeeFor, SorobanEnv.fees] at h
  cases hsettings : ledger.env.feeSettings with
  | none => simp [hsettings] at h
  | some settings =>
    simp only [hsettings] at h
    cases h
    exact ⟨settings, rfl, rfl⟩

/-! ## The store after the moves -/

/-- A move is what its key holds afterwards. -/
theorem lookup_putStore_of_mem {moves : List TtlMove} {m : TtlMove} (hm : m ∈ moves)
    (hunique : ∀ m' ∈ moves, m'.key = m.key → m' = m) (store : Store) :
    (putStore store moves).lookup m.key = some ⟨m.entry, some (toUint32 m.newLiveUntil)⟩ := by
  induction moves generalizing store with
  | nil => cases hm
  | cons first rest ih =>
    rw [putStore, List.foldl_cons]
    have hrest : ∀ m' ∈ rest, m'.key = m.key → m' = m :=
      fun m' hm' => hunique m' (List.mem_cons_of_mem first hm')
    by_cases hlater : m ∈ rest
    · exact ih hlater hrest _
    · have hfirst : m = first := (List.mem_cons.mp hm).resolve_right hlater
      subst hfirst
      have hnone : ∀ m' ∈ rest, m'.key ≠ m.key := by
        intro m' hm' hkey
        exact hlater (hrest m' hm' hkey ▸ hm')
      exact (lookup_putStore_of_not_mem hnone _).trans (Finmap.lookup_insert _)

section putStore

variable {ledger : Ledger} {body : OperationBody} {keys : List LedgerKey} {key : LedgerKey}

/-- Each moved entry is back under its key, with the one new TTL. -/
theorem lookup_putStore_moved {m : TtlMove} (hkey : key ∈ keys)
    (hpick : body.moveOf ledger key = some m) (store : Store) :
    (putStore store ((body.moves ledger).select keys)).lookup key =
      some ⟨m.entry, some (toUint32 (body.newLiveUntil ledger))⟩ := by
  have hof := moveOf_some hpick
  have hm : m ∈ (body.moves ledger).select keys := by
    refine Selector.mem_select.mpr ⟨?_, ?_⟩
    · show m.key ∈ keys
      rwa [hof.key]
    · show body.moveOf ledger m.key = some m
      rwa [hof.key]
  have hunique : ∀ m' ∈ (body.moves ledger).select keys, m'.key = m.key → m' = m := by
    intro m' hm' heq
    have hpick' : body.moveOf ledger m'.key = some m' := (Selector.mem_select.mp hm').2
    rw [heq, hof.key, hpick] at hpick'
    exact (Option.some.inj hpick').symm
  have hput := lookup_putStore_of_mem hm hunique store
  rwa [hof.key, hof.newLiveUntil] at hput

/-- Every other key is left alone. -/
theorem lookup_putStore_unmoved (h : key ∈ keys → body.moveOf ledger key = none) (store : Store) :
    (putStore store ((body.moves ledger).select keys)).lookup key = store.lookup key := by
  apply lookup_putStore_of_not_mem
  rintro m hm rfl
  obtain ⟨hkey, hpick⟩ := Selector.mem_select.mp hm
  have hpick : body.moveOf ledger m.key = some m := hpick
  rw [h hkey] at hpick
  cases hpick

end putStore

/-- The priced rows have the TTLs of the moves. -/
theorem rentChangesOf_mem {d : Deps} {ledger : Ledger} {moves : List TtlMove}
    {rows : List RentChange} (h : rentChangesOf d ledger moves = .ok rows) {row : RentChange}
    (hrow : row ∈ rows) :
    ∃ m ∈ moves, row.oldLiveUntil = m.oldLiveUntil ∧ row.newLiveUntil = m.newLiveUntil := by
  have hall := rentChangesOf_forall₂.mp h
  induction hall with
  | nil => cases hrow
  | @cons m row' moves rows hone hrest ih =>
    rcases List.mem_cons.mp hrow with rfl | hrow
    · obtain ⟨size, -, rfl⟩ := hone
      exact ⟨m, List.mem_cons_self, rfl, rfl⟩
    · obtain ⟨m', hm', hsame⟩ := ih (rentChangesOf_forall₂.mpr hrest) hrow
      exact ⟨m', List.mem_cons_of_mem m hm', hsame⟩

/-- Bumps and debits change no rent size of a key with a TTL. -/
theorem ClassicOnly.rentChangesOf {d : Deps} {ledger ledger' : Ledger}
    (h : ClassicOnly ledger ledger') {moves : List TtlMove}
    (hmoves : ∀ m ∈ moves, needsTtl m.key = true) :
    rentChangesOf d ledger' moves = LiteSoroban.rentChangesOf d ledger moves := by
  induction moves with
  | nil => rfl
  | cons m ms ih =>
    have hlookup : ledger'.env.store.lookup m.key = ledger.env.store.lookup m.key :=
      h.contracts m.key (hmoves m List.mem_cons_self)
    have hof : ∀ entry, ledger'.env.entrySizeForRentOf d entry =
        ledger.env.entrySizeForRentOf d entry := by
      intro entry
      rw [h.frame]
      rfl
    have hsize : ledger'.env.entrySizeForRent d m.key = ledger.env.entrySizeForRent d m.key := by
      simp only [SorobanEnv.entrySizeForRent, hlookup, hof]
    simp only [LiteSoroban.rentChangesOf, hsize,
      ih fun m' hm' => hmoves m' (List.mem_cons_of_mem m hm')]

end LiteSoroban

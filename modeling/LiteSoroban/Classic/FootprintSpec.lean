import LiteSoroban.Classic.ApplySpec

/-!
# What a footprint operation moves

Both footprint operations select their moves from the stored entries of the
footprint and then put each entry back with another TTL.  In a keyed store an
entry that is put back lands where it came from.  So the moves rewrite TTLs
and nothing else, and no account is among them.
-/

namespace LiteSoroban

open Effect

/-- A move puts back a stored entry of one of `keys`. -/
structure TtlMove.Of (ledger : Ledger) (keys : List LedgerKey) (m : TtlMove) : Prop where
  mem : m.key ∈ keys
  stored : ∃ ttl, ledger.store.lookup m.key = some ⟨m.entry, some ttl⟩

/-- The stored entry behind `getEntry` and `getEntryTtl`. -/
theorem lookup_of_getEntry {ledger : Ledger} {key : LedgerKey} {entry : LedgerEntry} {ttl : Nat}
    (hentry : ledger.getEntry key = some entry) (httl : ledger.getEntryTtl key = some ttl) :
    ledger.store.lookup key = some ⟨entry, some ttl⟩ := by
  obtain ⟨e, he, rfl⟩ := Ledger.getEntry_eq_some.mp hentry
  rw [Ledger.store] at he
  simp only [Ledger.getEntryTtl, SorobanEnv.getEntryTtl, he, Option.bind_some] at httl
  rw [Ledger.store, he, ← httl]

theorem extendMoves_of {d : Deps} {ledger : Ledger} {newLiveUntil : Nat} {keys : List LedgerKey}
    {moves : List TtlMove} (h : extendMoves d ledger newLiveUntil keys = .ok moves) :
    ∀ m ∈ moves, m.Of ledger keys := by
  induction keys generalizing moves with
  | nil =>
    cases h
    simp
  | cons key keys ih =>
    simp only [extendMoves, Except.bind_eq_ok] at h
    obtain ⟨move, hmove, rest, hrest, h⟩ := h
    cases h
    intro m hm
    rcases List.mem_append.mp hm with hm | hm
    · have hm : move = some m := by simpa [eq_comm] using hm
      subst hm
      simp only [extendMove] at hmove
      split at hmove
      · next entry ttl hentry httl =>
        split at hmove
        · cases hmove
        · split at hmove
          · cases hmove
          · split at hmove
            · cases hmove
            · cases hmove
              exact ⟨List.mem_cons_self, ttl, lookup_of_getEntry hentry httl⟩
      · cases hmove
    · have hof := ih hrest m hm
      exact ⟨List.mem_cons_of_mem key hof.mem, hof.stored⟩

theorem restoreMoves_of {d : Deps} {ledger : Ledger} {resources : SorobanResources}
    {restoredLiveUntil : Nat} {keys : List LedgerKey} {bytes : Nat} {moves : List TtlMove}
    (h : restoreMoves d ledger resources restoredLiveUntil keys bytes = .ok moves) :
    ∀ m ∈ moves, m.Of ledger keys := by
  induction keys generalizing moves bytes with
  | nil =>
    cases h
    simp
  | cons key keys ih =>
    have hlater : ∀ {bytes moves}, restoreMoves d ledger resources restoredLiveUntil keys bytes =
        .ok moves → ∀ m ∈ moves, m.Of ledger (key :: keys) := by
      intro bytes moves h m hm
      have hof := ih h m hm
      exact ⟨List.mem_cons_of_mem key hof.mem, hof.stored⟩
    simp only [restoreMoves] at h
    split at h
    · next entry ttl hentry httl =>
      split at h
      · exact hlater h
      · split at h
        · cases h
        · simp only [Except.bind_eq_ok] at h
          obtain ⟨rest, hrest, h⟩ := h
          cases h
          intro m hm
          rcases List.mem_cons.mp hm with rfl | hm
          · exact ⟨List.mem_cons_self, ttl, lookup_of_getEntry hentry httl⟩
          · exact hlater hrest m hm
    · exact hlater h

/-- Every move is of a footprint key. -/
theorem selectedMoves_of {d : Deps} {ledger : Ledger} {s : Shaped} {moves : List TtlMove}
    (h : selectedMoves d ledger s = .ok moves) :
    ∀ m ∈ moves, m.Of ledger (match s.op.body with
      | .extendFootprintTtl _ => s.sorobanData.resources.footprint.readOnly
      | _ => s.sorobanData.resources.footprint.readWrite) := by
  simp only [selectedMoves] at h
  cases hbody : s.op.body with
  | extendFootprintTtl extendTo =>
    simp only [hbody] at h
    exact extendMoves_of h
  | restoreFootprint =>
    simp only [hbody] at h
    exact restoreMoves_of h
  | invokeHostFunction hostFunction auth =>
    simp only [hbody] at h
    cases h
    simp
  | classic xdr =>
    simp only [hbody] at h
    cases h
    simp

theorem needsTtl_of_isPersistent {key : LedgerKey} (h : isPersistent key = true) :
    needsTtl key = true := by
  cases key with
  | contractData => rfl
  | contractCode => rfl
  | account => cases h
  | trustline => cases h
  | unsupported => cases h

/-- The shape rules leave only keys with a TTL to move. -/
theorem checkFootprintOp_needsTtl {ledger : Ledger} {s : Shaped} {u : Unit}
    (h : checkFootprintOp ledger s = .ok u) (hbody : s.op.body.isInvoke = false)
    (hsoroban : s.op.body.isSoroban = true) :
    ∀ key ∈ (match s.op.body with
      | .extendFootprintTtl _ => s.sorobanData.resources.footprint.readOnly
      | _ => s.sorobanData.resources.footprint.readWrite), needsTtl key = true := by
  simp only [checkFootprintOp] at h
  split at h
  · next hnone =>
    simp only [footprintOpMalformed] at hnone
    cases hop : s.op.body with
    | extendFootprintTtl extendTo =>
      simp only [hop] at hnone
      split at hnone
      · cases hnone
      · split at hnone
        · cases hnone
        · next hall => simpa using hall
    | restoreFootprint =>
      simp only [hop] at hnone
      split at hnone
      · cases hnone
      · split at hnone
        · cases hnone
        · next hall =>
          have hall : ∀ key ∈ s.sorobanData.resources.footprint.readWrite,
              isPersistent key = true := by simpa using hall
          exact fun key hkey => needsTtl_of_isPersistent (hall key hkey)
    | invokeHostFunction hostFunction auth =>
      rw [hop] at hbody
      cases hbody
    | classic xdr =>
      rw [hop] at hsoroban
      cases hsoroban
  · cases h

/-! ## Making the moves -/

/-- The store after a list of moves. -/
def putStore (store : Store) (moves : List TtlMove) : Store :=
  moves.foldl (fun store m => store.insert m.key ⟨m.entry, some (toUint32 m.newLiveUntil)⟩) store

/-- Moves that put entries back under their keys always succeed. -/
theorem putMoves_eq {moves : List TtlMove} (hkeys : ∀ m ∈ moves, keyOf m.entry = .ok m.key)
    (ledger : Ledger) :
    putMoves moves ledger = .ok () (ledger.withStore (putStore ledger.store moves)) := by
  induction moves generalizing ledger with
  | nil => rfl
  | cons m ms ih =>
    have hkey : keyOf m.entry = .ok m.key := hkeys m List.mem_cons_self
    have hput : Ledger.putEntry m.entry (some m.newLiveUntil) ledger =
        .ok () (ledger.withStore
          (ledger.store.insert m.key ⟨m.entry, some (toUint32 m.newLiveUntil)⟩)) := by
      simp only [Ledger.putEntry, SorobanEnv.putEntry, hkey, bind, Except.bind, pure,
        Except.pure, Option.map_some]
      rfl
    simp only [putMoves, bind, EStateM.bind, hput]
    exact ih (fun m' hm' => hkeys m' (List.mem_cons_of_mem m hm')) _

theorem putStore_keyed {moves : List TtlMove} (hkeys : ∀ m ∈ moves, keyOf m.entry = .ok m.key)
    {store : Store} (hstore : store.Keyed) : (putStore store moves).Keyed := by
  induction moves generalizing store with
  | nil => exact hstore
  | cons m ms ih =>
    exact ih (fun m' hm' => hkeys m' (List.mem_cons_of_mem m hm'))
      (hstore.insert (hkeys m List.mem_cons_self))

/-- A key no move is of is left alone. -/
theorem lookup_putStore_of_not_mem {moves : List TtlMove} {key : LedgerKey}
    (hkey : ∀ m ∈ moves, m.key ≠ key) (store : Store) :
    (putStore store moves).lookup key = store.lookup key := by
  induction moves generalizing store with
  | nil => rfl
  | cons m ms ih =>
    rw [putStore, List.foldl_cons]
    refine (ih (fun m' hm' => hkey m' (List.mem_cons_of_mem m hm')) _).trans ?_
    exact Finmap.lookup_insert_of_ne _ (hkey m List.mem_cons_self).symm

/-- What a footprint operation that succeeded did to the ledger. -/
structure FootprintMoved (ledger ledger' : Ledger) (moves : List TtlMove) : Prop where
  frame : ledger' = ledger.withStore (putStore ledger.store moves)
  keyed : ledger'.store.Keyed
  keys : ∀ m ∈ moves, keyOf m.entry = .ok m.key
  ttl : ∀ m ∈ moves, needsTtl m.key = true

/-- The moves a footprint operation selects can all be made. -/
theorem putMoves_selected {d : Deps} {s : Shaped} {first ledger : Ledger} {moves : List TtlMove}
    {u : Unit} (hkeyed : ledger.store.Keyed) (hinvoke : s.op.body.isInvoke = false)
    (hsoroban : s.op.body.isSoroban = true) (hshape : checkFootprintOp first s = .ok u)
    (hselected : selectedMoves d ledger s = .ok moves) :
    ∃ ledger', putMoves moves ledger = .ok () ledger' ∧ FootprintMoved ledger ledger' moves := by
  have hof := selectedMoves_of hselected
  have hkeys : ∀ m ∈ moves, keyOf m.entry = .ok m.key := by
    intro m hm
    obtain ⟨ttl, hstored⟩ := (hof m hm).stored
    exact hkeyed _ _ hstored
  refine ⟨_, putMoves_eq hkeys ledger, rfl, putStore_keyed hkeys hkeyed, hkeys, fun m hm => ?_⟩
  exact checkFootprintOp_needsTtl hshape hinvoke hsoroban m.key (hof m hm).mem

theorem operationMoved_effect {d : Deps} {v : Validated} {cap : Option Int}
    {first ledger ledger' : Ledger} {op : Operated} {moves : List TtlMove}
    {rows : List RentChange} (hkeyed : ledger.store.Keyed)
    (hsoroban : v.op.body.isSoroban = true) {u : Unit}
    (hshape : checkFootprintOp first v.toShaped = .ok u)
    (h : OperationMoved d v cap ledger op ledger' moves rows) :
    FootprintMoved ledger ledger' moves := by
  obtain ⟨l, hput, hmoved⟩ := putMoves_selected hkeyed h.footprintOp hsoroban hshape h.selected
  have hsame := hput.symm.trans h.put
  cases hsame
  exact hmoved

/-- Moving TTLs touches no account. -/
theorem FootprintMoved.account? {ledger ledger' : Ledger} {moves : List TtlMove}
    (h : FootprintMoved ledger ledger' moves) (id : AccountId) :
    ledger'.store.account? id = ledger.store.account? id := by
  have hne : ∀ m ∈ moves, m.key ≠ .account id := by
    intro m hm heq
    have := h.ttl m hm
    rw [heq] at this
    cases this
  rw [h.frame]
  simp only [Ledger.withStore_store, Store.account?, lookup_putStore_of_not_mem hne]

end LiteSoroban

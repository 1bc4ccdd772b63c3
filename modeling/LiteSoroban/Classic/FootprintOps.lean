import LiteSoroban.Classic.Resources

/-!
# ExtendFootprintTTL and RestoreFootprint

`applyExtendFootprintTtl` and `applyRestoreFootprint` of `src/classic.ts`.
Each selects the TTLs it moves in a loop over the footprint, and `moveTtls`
prices the moves and then makes them, if the refundable fee covers the rent.
-/

namespace LiteSoroban

/-- One TTL a footprint operation moves. -/
structure TtlMove where
  key : LedgerKey
  entry : LedgerEntry
  oldLiveUntil : Nat
  newLiveUntil : Nat
  deriving DecidableEq

/-- `FootprintOpApplied`: what the operation did, or why it did nothing. -/
structure FootprintOpApplied where
  changed : List LedgerKey
  rent : Int
  short : Option String := none
  overLimit : Option String := none
  deriving DecidableEq

/-- The rows `moveTtls` prices. -/
def rentChangesOf (d : Deps) (ledger : Ledger) :
    List TtlMove → Except JsError (List RentChange)
  | [] => .ok []
  | m :: ms => do
    -- A key without an entry has no size, which crosses as 0.
    let size ← ledger.env.entrySizeForRent d m.key
    let rest ← rentChangesOf d ledger ms
    return ⟨m.key, size.getD 0, m.oldLiveUntil, m.newLiveUntil⟩ :: rest

/-- The loop that makes the moves. -/
def putMoves : List TtlMove → LedgerM Unit
  | [] => pure ()
  | m :: ms => do
    Ledger.putEntry m.entry (some m.newLiveUntil)
    putMoves ms

/-- `moveTtls`.  Without a `maxRefundable` fees are not being charged. -/
def moveTtls (d : Deps) (moves : List TtlMove) (maxRefundable : Option Int) :
    LedgerM FootprintOpApplied := do
  let rent ← LedgerM.lift fun ledger => do
    ledger.computeRentFee d (← rentChangesOf d ledger moves)
  match maxRefundable with
  | some max =>
    if max < rent then
      let short :=
        s!"refundable resource fee was not sufficient to cover the ledger storage rent: {rent} > {max}"
      return { changed := [], rent := 0, short := some short }
  | none => pure ()
  putMoves moves
  return { changed := moves.map (·.key), rent := rent }

/-! ## ExtendFootprintTTL -/

/-- One turn of the loop of `applyExtendFootprintTtl`: the move for a key, if
there is one, or the size limit it breaks. -/
def extendMove (d : Deps) (ledger : Ledger) (newLiveUntil : Nat) (key : LedgerKey) :
    Except String (Option TtlMove) :=
  match ledger.getEntry key, ledger.getEntryTtl key with
  | some entry, some ttl =>
    if ttl < ledger.ledgerSeq then .ok none
    else if newLiveUntil ≤ ttl then .ok none
    else match contractEntryTooLarge ledger.fees key (d.entrySize entry) with
      | some overLimit => .error overLimit
      | none => .ok (some ⟨key, entry, ttl, newLiveUntil⟩)
  | _, _ => .ok none

/-- The loop of `applyExtendFootprintTtl`. -/
def extendMoves (d : Deps) (ledger : Ledger) (newLiveUntil : Nat) :
    List LedgerKey → Except String (List TtlMove)
  | [] => .ok []
  | key :: keys => do
    let move ← extendMove d ledger newLiveUntil key
    let moves ← extendMoves d ledger newLiveUntil keys
    return move.toList ++ moves

/-- `applyExtendFootprintTtl`. -/
def applyExtendFootprintTtl (d : Deps) (extendTo : Nat) (sorobanData : SorobanTransactionData)
    (maxRefundable : Option Int) : LedgerM FootprintOpApplied := do
  let ledger ← get
  match extendMoves d ledger (ledger.ledgerSeq + extendTo)
      sorobanData.resources.footprint.readOnly with
  | .error overLimit => return { changed := [], rent := 0, overLimit := some overLimit }
  | .ok moves => moveTtls d moves maxRefundable

/-! ## RestoreFootprint -/

/-- The bytes restored so far, against the declared bytes and the size limit:
why an entry of `entrySize` bytes cannot be restored. -/
def restoreOverLimit (ledger : Ledger) (resources : SorobanResources) (key : LedgerKey)
    (entrySize bytes : Nat) : Option String :=
  let total := bytes + entrySize
  let declaredRead := resources.diskReadBytes
  let declaredWrite := resources.writeBytes
  if declaredRead < total then
    some s!"operation byte-read resources exceeds amount specified: {total} > {declaredRead}"
  else match contractEntryTooLarge ledger.fees key entrySize with
    | some overLimit => some overLimit
    | none =>
      if declaredWrite < total then
        some s!"operation byte-write resources exceeds amount specified: {total} > {declaredWrite}"
      else none

/-- The loop of `applyRestoreFootprint`.  The bytes read and the bytes written
grow together. -/
def restoreMoves (d : Deps) (ledger : Ledger) (resources : SorobanResources)
    (restoredLiveUntil : Nat) : List LedgerKey → Nat → Except String (List TtlMove)
  | [], _ => .ok []
  | key :: keys, bytes =>
    match ledger.getEntry key, ledger.getEntryTtl key with
    | some entry, some ttl =>
      if ledger.ledgerSeq ≤ ttl then
        restoreMoves d ledger resources restoredLiveUntil keys bytes
      else
        let entrySize := d.entrySize entry
        match restoreOverLimit ledger resources key entrySize bytes with
        | some overLimit => .error overLimit
        | none => do
          let moves ← restoreMoves d ledger resources restoredLiveUntil keys (bytes + entrySize)
          return ⟨key, entry, 0, restoredLiveUntil⟩ :: moves
    | _, _ => restoreMoves d ledger resources restoredLiveUntil keys bytes

/-- `applyRestoreFootprint`. -/
def applyRestoreFootprint (d : Deps) (sorobanData : SorobanTransactionData)
    (maxRefundable : Option Int) : LedgerM FootprintOpApplied := do
  let ledger ← get
  let restoredLiveUntil := ledger.ledgerSeq + ledger.env.minPersistentEntryTtl - 1
  let resources := sorobanData.resources
  match restoreMoves d ledger resources restoredLiveUntil resources.footprint.readWrite 0 with
  | .error overLimit => return { changed := [], rent := 0, overLimit := some overLimit }
  | .ok moves => moveTtls d moves maxRefundable

end LiteSoroban

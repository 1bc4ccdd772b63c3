import LiteSoroban.Env.Send
import LiteSoroban.Env.Simulate
import LiteSoroban.Lib.Rounding

/-!
# The ledger

`Ledger` of `src/index.ts`: the environment, the TypeScript layer's own copy
of the fee settings, and the network passphrase.  Its methods forward to the
environment.  What they add is the crossing from JavaScript numbers to the
crate's `u32` and `u64`, and that is where this module is careful.

`LedgerM` is the monad of the TypeScript layer.  An exception keeps the
ledger as it stood when it was thrown.
-/

namespace LiteSoroban

open Effect

/-! ## Numbers across the boundary -/

/-- `Number(n)` of a 64-bit integer: the nearest double, ties to even. -/
def jsNumber (n : Nat) : Nat :=
  Rounding.roundEven (2 ^ (Nat.log2 n - 52)) n

/-- `Number` keeps the order of the integers. -/
theorem jsNumber_mono {m n : Nat} (h : m ≤ n) : jsNumber m ≤ jsNumber n :=
  Rounding.roundEven_log2_mono 52 h

/-- `ToUint32` of a non-negative integer, which is how a JavaScript number
becomes a `u32`. -/
def toUint32 (n : Nat) : Nat := n % 2 ^ 32

theorem toUint32_of_lt {n : Nat} (h : n < 2 ^ 32) : toUint32 n = n :=
  Nat.mod_eq_of_lt h

/-! ## The ledger -/

/-- `NetworkFeeSettings` of `src/fee-settings.ts`: what the Rust crate parses,
and the limits only the classic layer checks. -/
structure NetworkFeeSettings extends Fees.NetworkFeeSettings where
  txMaxDiskReadEntries : Nat
  txMaxDiskReadBytes : Nat
  txMaxWriteLedgerEntries : Nat
  txMaxWriteBytes : Nat
  txMaxFootprintEntries : Nat
  txMaxSizeBytes : Nat
  maxContractDataKeySizeBytes : Nat

structure Ledger where
  env : SorobanEnv
  fees : NetworkFeeSettings
  networkPassphrase : String

abbrev LedgerM := EStateM JsError Ledger

/-- A check that reads the ledger and does not write it. -/
def LedgerM.lift {α : Type} (x : Ledger → Except JsError α) : LedgerM α := fun ledger =>
  match x ledger with
  | .ok a => .ok a ledger
  | .error e => .error e ledger

namespace Ledger

def ledgerSeq (ledger : Ledger) : Nat := ledger.env.ledgerSeq

def timestamp (ledger : Ledger) : Nat := jsNumber ledger.env.timestamp

def store (ledger : Ledger) : Store := ledger.env.store

def getEntry (ledger : Ledger) (key : LedgerKey) : Option LedgerEntry :=
  ledger.env.getEntry key

theorem getEntry_eq_some {ledger : Ledger} {key : LedgerKey} {e : LedgerEntry} :
    ledger.getEntry key = some e ↔
      ∃ slot, ledger.store.lookup key = some slot ∧ slot.entry = e :=
  Option.map_eq_some_iff

theorem getEntry_eq_none {ledger : Ledger} {key : LedgerKey} :
    ledger.getEntry key = none ↔ ledger.store.lookup key = none :=
  Option.map_eq_none_iff

def getEntryTtl (ledger : Ledger) (key : LedgerKey) : Option Nat :=
  ledger.env.getEntryTtl key

def advanceLedgers (ledger : Ledger) (n : Nat) : Ledger :=
  { ledger with env := ledger.env.advanceLedgers (toUint32 n) }

def setTimestamp (ledger : Ledger) (t : Nat) : Ledger :=
  { ledger with env := ledger.env.setTimestamp (t % 2 ^ 64) }

/-- `computeResourceFee`: non-refundable, refundable. -/
def computeResourceFee (d : Deps) (ledger : Ledger) (data : SorobanTransactionData)
    (txSize eventsSize : Nat) (isRestore : Bool) : Except JsError (Int × Int) :=
  ledger.env.computeResourceFee d data txSize eventsSize isRestore

/-- `computeRentFee`.  The TTLs cross in `Uint32Array`s. -/
def computeRentFee (d : Deps) (ledger : Ledger) (changes : List RentChange) :
    Except JsError Int :=
  ledger.env.computeRentFeeFor d
    (changes.map fun c =>
      { c with oldLiveUntil := toUint32 c.oldLiveUntil, newLiveUntil := toUint32 c.newLiveUntil })

/-- `putEntry`. -/
def putEntry (entry : LedgerEntry) (liveUntil : Option Nat) : LedgerM Unit := fun ledger =>
  match ledger.env.putEntry entry (liveUntil.map toUint32) with
  | .ok env => .ok () { ledger with env := env }
  | .error e => .error e ledger

/-- `send`.  The restore indexes cross in a `Uint32Array`. -/
def send (d : Deps) (args : SendArgs) : LedgerM SendResult := fun ledger =>
  match ledger.env.send d
      { args with restoredRwEntryIndices := args.restoredRwEntryIndices.map toUint32 } with
  | .ok out env => .ok out { ledger with env := env }
  | .error e env => .error e { ledger with env := env }

/-- `simulate` and `simulateWithAuth`. -/
def simulate (d : Deps) (args : SimulateArgs) : LedgerM SimulateResult := fun ledger =>
  match ledger.env.simulate d args with
  | .ok out env => .ok out { ledger with env := env }
  | .error e env => .error e { ledger with env := env }

theorem finalState_send (d : Deps) (args : SendArgs) (ledger : Ledger) :
    finalState (send d args ledger) = { ledger with
      env := finalState (ledger.env.send d
        { args with restoredRwEntryIndices := args.restoredRwEntryIndices.map toUint32 }) } := by
  unfold send
  cases ledger.env.send d _ <;> rfl

theorem finalState_simulate (d : Deps) (args : SimulateArgs) (ledger : Ledger) :
    finalState (simulate d args ledger) =
      { ledger with env := finalState (ledger.env.simulate d args) } := by
  unfold simulate
  cases ledger.env.simulate d args <;> rfl

/-- The ledger with a snapshot of it taken. -/
def withSnapshot (ledger : Ledger) : Ledger := { ledger with env := ledger.env.snapshot.2 }

/-- `snapshot`.  The snapshots are a `Vec` of a target with words of 32 bits: to
push onto one that can grow no more traps. -/
def snapshot : LedgerM Nat := fun ledger =>
  if ledger.env.snapshots.length < u32Max then .ok ledger.env.snapshot.1 ledger.withSnapshot
  else .error ⟨"unreachable"⟩ ledger

/-- A snapshot that is taken has an id that crosses as it is. -/
theorem snapshot_cases (ledger : Ledger) :
    (∃ e, ledger.snapshot = .error e ledger) ∨
      toUint32 ledger.env.snapshots.length = ledger.env.snapshots.length ∧
        ledger.snapshot = .ok ledger.env.snapshots.length ledger.withSnapshot := by
  unfold snapshot
  by_cases hroom : ledger.env.snapshots.length < u32Max
  · rw [if_pos hroom]
    exact .inr ⟨toUint32_of_lt (hroom.trans (by decide)), rfl⟩
  · rw [if_neg hroom]
    exact .inl ⟨_, rfl⟩

theorem snapshot_final (ledger : Ledger) :
    finalState ledger.snapshot = ledger ∨ finalState ledger.snapshot = ledger.withSnapshot := by
  rcases ledger.snapshot_cases with ⟨e, hfull⟩ | ⟨-, htaken⟩
  · rw [hfull]
    exact .inl rfl
  · rw [htaken]
    exact .inr rfl

/-- `restore`.  The id crosses as a `u32`. -/
def restore (id : Nat) : LedgerM Unit := fun ledger =>
  match ledger.env.restore (toUint32 id) with
  | .ok env => .ok () { ledger with env := env }
  | .error e => .error e ledger

theorem restore_ok {id : Nat} {ledger restored : Ledger} :
    restore id ledger = .ok () restored ↔
      ∃ snap, ledger.env.snapshots[toUint32 id]? = some snap ∧
        restored = { ledger with env := ledger.env.restoreFrom snap } := by
  simp only [restore, SorobanEnv.restore]
  cases ledger.env.snapshots[toUint32 id]? <;> simp [eq_comm]

end Ledger

end LiteSoroban

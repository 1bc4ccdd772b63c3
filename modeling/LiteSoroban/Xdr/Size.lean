import LiteSoroban.Lib.XdrSize
import LiteSoroban.Xdr.Types

/-!
# The size of an envelope

The XDR length of a v1 envelope and of its parts, and the limits the XDR
declarations put on them.  A key and its hash have their fixed 32 bytes, and
the length of a ledger key is taken as a function, because what is inside one
stays closed here.
-/

namespace LiteSoroban

open Xdr

variable (keySize : LedgerKey → Nat)

def MuxedAccount.xdrSize : MuxedAccount → Nat
  | .keyTypeEd25519 _ => 4 + 32
  | .keyTypeMuxedEd25519 _ _ => 4 + (8 + 32)

def SignerKey.xdrSize : SignerKey → Nat
  | .signerKeyTypeEd25519 _ => 4 + 32
  | .signerKeyTypePreAuthTx _ => 4 + 32
  | .signerKeyTypeHashX _ => 4 + 32
  | .signerKeyTypeEd25519SignedPayload _ payload => 4 + (32 + varBytes payload.length)

def PreconditionsV2.xdrSize (v2 : PreconditionsV2) : Nat :=
  optionalField (v2.timeBounds.map fun _ => 16) + optionalField (v2.ledgerBounds.map fun _ => 8) +
    optionalField (v2.minSeqNum.map fun _ => 8) + 8 + 4 +
    varArray (v2.extraSigners.map SignerKey.xdrSize)

def Preconditions.xdrSize : Preconditions → Nat
  | .precondNone => 4
  | .precondTime _ => 4 + 16
  | .precondV2 v2 => 4 + v2.xdrSize

def Memo.xdrSize : Memo → Nat
  | .memoNone => 4
  | .memoValue xdr => 4 + xdr.length

def OperationBody.xdrSize : OperationBody → Nat
  | .invokeHostFunction hostFunction auth =>
    4 + (hostFunction.xdr.length + varArray (auth.map (·.xdr.length)))
  | .extendFootprintTtl _ => 4 + (4 + 4)
  | .restoreFootprint => 4 + 4
  | .classic xdr => 4 + xdr.length

def Operation.xdrSize (op : Operation) : Nat :=
  optionalField (op.sourceAccount.map MuxedAccount.xdrSize) + op.body.xdrSize

def LedgerFootprint.xdrSize (footprint : LedgerFootprint) : Nat :=
  varArray (footprint.readOnly.map keySize) + varArray (footprint.readWrite.map keySize)

def SorobanTransactionDataExt.xdrSize : SorobanTransactionDataExt → Nat
  | .v0 => 4
  | .resourceExt archived => 4 + varArray (archived.map fun _ => 4)

def SorobanTransactionData.xdrSize (data : SorobanTransactionData) : Nat :=
  data.ext.xdrSize + (data.resources.footprint.xdrSize keySize + 4 + 4 + 4) + 8

def TransactionExt.xdrSize : TransactionExt → Nat
  | .v0 => 4
  | .sorobanData data => 4 + data.xdrSize keySize

def Transaction.xdrSize (raw : Transaction) : Nat :=
  raw.sourceAccount.xdrSize + 4 + 8 + raw.cond.xdrSize + raw.memo.xdrSize +
    varArray (raw.operations.map Operation.xdrSize) + raw.ext.xdrSize keySize

def DecoratedSignature.xdrSize (sig : DecoratedSignature) : Nat :=
  4 + varBytes sig.signature.length

def TransactionV1Envelope.xdrSize (v1 : TransactionV1Envelope) : Nat :=
  v1.tx.xdrSize keySize + varArray (v1.signatures.map DecoratedSignature.xdrSize)

/-! ## The limits of the declarations -/

/-- A signed payload is of at most 64 bytes. -/
def SignerKey.FitsXdr : SignerKey → Prop
  | .signerKeyTypeEd25519SignedPayload _ payload => payload.length ≤ 64
  | _ => True

/-- At most two extra signers. -/
def Preconditions.FitsXdr : Preconditions → Prop
  | .precondV2 v2 => v2.extraSigners.length ≤ 2 ∧ ∀ key ∈ v2.extraSigners, key.FitsXdr
  | _ => True

/-- The longest memos are a hash, and a text of 28 bytes with its length. -/
def Memo.FitsXdr : Memo → Prop
  | .memoNone => True
  | .memoValue xdr => xdr.length ≤ 32

/-- The limits the XDR declarations put on the parts of an envelope. -/
structure TransactionV1Envelope.FitsXdr (v1 : TransactionV1Envelope) : Prop where
  cond : v1.tx.cond.FitsXdr
  memo : v1.tx.memo.FitsXdr
  signatures : v1.signatures.length ≤ 20
  signature : ∀ sig ∈ v1.signatures, sig.signature.length ≤ 64

/-! ## The longest of each part -/

theorem MuxedAccount.xdrSize_le (account : MuxedAccount) : account.xdrSize ≤ 44 := by
  cases account <;> simp [MuxedAccount.xdrSize]

theorem SignerKey.xdrSize_le {key : SignerKey} (h : key.FitsXdr) : key.xdrSize ≤ 104 := by
  cases key with
  | signerKeyTypeEd25519 => simp [SignerKey.xdrSize]
  | signerKeyTypePreAuthTx => simp [SignerKey.xdrSize]
  | signerKeyTypeHashX => simp [SignerKey.xdrSize]
  | signerKeyTypeEd25519SignedPayload _ payload =>
    have hpayload := varBytes_mono h
    have hlongest : varBytes 64 = 68 := rfl
    simp only [SignerKey.xdrSize]
    omega

theorem Preconditions.xdrSize_le {cond : Preconditions} (h : cond.FitsXdr) :
    cond.xdrSize ≤ 272 := by
  cases cond with
  | precondNone => decide
  | precondTime => simp [Preconditions.xdrSize]
  | precondV2 v2 =>
    obtain ⟨hcount, hkeys⟩ := h
    have htime : optionalField (v2.timeBounds.map fun _ => 16) ≤ 4 + 16 :=
      optionalField_le fun _ _ => le_rfl
    have hledger : optionalField (v2.ledgerBounds.map fun _ => 8) ≤ 4 + 8 :=
      optionalField_le fun _ _ => le_rfl
    have hseq : optionalField (v2.minSeqNum.map fun _ => 8) ≤ 4 + 8 :=
      optionalField_le fun _ _ => le_rfl
    have hsigners : varArray (v2.extraSigners.map SignerKey.xdrSize) ≤ 4 + 2 * 104 :=
      varArray_le hcount fun key hkey => SignerKey.xdrSize_le (hkeys key hkey)
    simp only [Preconditions.xdrSize, PreconditionsV2.xdrSize]
    omega

theorem Memo.xdrSize_le {memo : Memo} (h : memo.FitsXdr) : memo.xdrSize ≤ 36 := by
  cases memo with
  | memoNone => decide
  | memoValue xdr => exact Nat.add_le_add_left h 4

theorem DecoratedSignature.xdrSize_le {sig : DecoratedSignature} (h : sig.signature.length ≤ 64) :
    sig.xdrSize ≤ 72 :=
  Nat.add_le_add_left (varBytes_mono h) 4

theorem Operation.xdrSize_le (op : Operation) : op.xdrSize ≤ 48 + op.body.xdrSize := by
  have hsource : optionalField (op.sourceAccount.map MuxedAccount.xdrSize) ≤ 4 + 44 :=
    optionalField_le fun account _ => account.xdrSize_le
  unfold Operation.xdrSize
  omega

/-- An envelope of one operation is longest when everything around the
operation and its Soroban data is. -/
theorem TransactionV1Envelope.xdrSize_le {v1 : TransactionV1Envelope} (h : v1.FitsXdr)
    {op : Operation} (hop : v1.tx.operations = [op]) :
    v1.xdrSize keySize ≤
      44 + 4 + 8 + 272 + 36 + (4 + (48 + op.body.xdrSize)) + v1.tx.ext.xdrSize keySize +
        (4 + 20 * 72) := by
  have hsource := v1.tx.sourceAccount.xdrSize_le
  have hcond := Preconditions.xdrSize_le h.cond
  have hmemo := Memo.xdrSize_le h.memo
  have hoperation := op.xdrSize_le
  have hsignatures : varArray (v1.signatures.map DecoratedSignature.xdrSize) ≤ 4 + 20 * 72 :=
    varArray_le h.signatures fun sig hsig => DecoratedSignature.xdrSize_le (h.signature sig hsig)
  have hops : varArray (v1.tx.operations.map Operation.xdrSize) = 4 + op.xdrSize := by
    simp [hop, varArray]
  unfold TransactionV1Envelope.xdrSize Transaction.xdrSize
  omega

end LiteSoroban

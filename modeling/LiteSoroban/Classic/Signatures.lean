import LiteSoroban.Classic.Account

/-!
# Signature checking

The `SignatureChecker` of `src/classic.ts`.  One checker serves every check on
an envelope, because it remembers which signatures were consumed.  The model
passes it along: a check takes a checker and returns whether it passed and
the checker it leaves.

A check tries the signer types in a fixed order.  Each signature is matched
against at most one signer of a type, each signer is matched once, and the
check returns the moment the needed weight is reached.
-/

namespace LiteSoroban

/-- `WeightedSigner`: a signer as a check sees it. -/
structure WeightedSigner where
  key : SignerKey
  weight : Nat
  deriving DecidableEq

/-- The weight a match counts for, which is capped at 255. -/
def WeightedSigner.cap (s : WeightedSigner) : Nat := min s.weight 255

/-- `accountSigners`: the master key, unless its weight is zero, and every
signer of the account. -/
def accountSigners (account : AccountEntry) : List WeightedSigner :=
  let master := account.thresholds.master
  (if master ≠ 0 then [⟨.signerKeyTypeEd25519 account.accountId.ed25519, master.toNat⟩] else []) ++
    account.signers.map fun s => ⟨s.key, s.weight⟩

/-- `hintOf`: the last four bytes, or all of them zero-padded if fewer. -/
def hintOf (bytes : Bytes) : Bytes :=
  if bytes.length < 4 then bytes ++ List.replicate (4 - bytes.length) 0
  else bytes.drop (bytes.length - 4)

/-- `hintMatches`: needs at least four bytes and compares the last four. -/
def hintMatches (bytes hint : Bytes) : Bool :=
  4 ≤ bytes.length && bytes.drop (bytes.length - 4) == hint

/-- Whether a signature is one of the signer's over the contents hash.  A
pre-authorized transaction signs nothing, so no signature is its. -/
def verifySignature (d : Deps) (contentsHash : Hash) (sig : DecoratedSignature)
    (s : WeightedSigner) : Bool :=
  match s.key with
  | .signerKeyTypePreAuthTx _ => false
  | .signerKeyTypeHashX hashX =>
    hintMatches hashX sig.hint && d.sha256 sig.signature == hashX
  | .signerKeyTypeEd25519 ed25519 =>
    hintMatches ed25519 sig.hint && d.verify ed25519 sig.signature contentsHash
  | .signerKeyTypeEd25519SignedPayload ed25519 payload =>
    List.zipWith (· ^^^ ·) (hintOf ed25519) (hintOf payload) == sig.hint &&
      d.verify ed25519 sig.signature payload

/-- Whether a signer is the envelope's own contents hash. -/
def isPreAuthOf (contentsHash : Hash) (s : WeightedSigner) : Bool :=
  match s.key with
  | .signerKeyTypePreAuthTx preAuthTx => preAuthTx == contentsHash
  | _ => false

/-- The four signer types, as `ofType` filters by them. -/
inductive SignerType where
  | preAuthTx
  | hashX
  | ed25519
  | signedPayload
  deriving DecidableEq

def SignerKey.type : SignerKey → SignerType
  | .signerKeyTypePreAuthTx _ => .preAuthTx
  | .signerKeyTypeHashX _ => .hashX
  | .signerKeyTypeEd25519 _ => .ed25519
  | .signerKeyTypeEd25519SignedPayload _ _ => .signedPayload

/-- `ofType`. -/
def ofType (type : SignerType) (signers : List WeightedSigner) : List WeightedSigner :=
  signers.filter fun s => s.key.type == type

/-- `SignatureChecker`: the signatures of an envelope, each with whether a
check has consumed it, and the hash they are over. -/
structure SignatureChecker where
  signatures : List (DecoratedSignature × Bool)
  contentsHash : Hash

namespace SignatureChecker

def new (signatures : List DecoratedSignature) (contentsHash : Hash) : SignatureChecker :=
  ⟨signatures.map (·, false), contentsHash⟩

/-- The loop over the pre-authorized signers: the weight so far, and whether
it got there. -/
def preAuth (contentsHash : Hash) (neededWeight : Nat) :
    List WeightedSigner → Nat → Bool × Nat
  | [], total => (false, total)
  | s :: rest, total =>
    if isPreAuthOf contentsHash s then
      let total := total + s.cap
      if neededWeight ≤ total then (true, total)
      else preAuth contentsHash neededWeight rest total
    else preAuth contentsHash neededWeight rest total

/-- `verifyAll`: match each signature against the first remaining candidate
that it is a signature of. -/
def verifyAll (verify : DecoratedSignature → WeightedSigner → Bool) (neededWeight : Nat) :
    List (DecoratedSignature × Bool) → List WeightedSigner → Nat →
      Bool × Nat × List (DecoratedSignature × Bool)
  | [], _, total => (false, total, [])
  | (sig, used) :: rest, candidates, total =>
    match candidates.findIdx? (verify sig) with
    | none =>
      let (ok, total, rest) := verifyAll verify neededWeight rest candidates total
      (ok, total, (sig, used) :: rest)
    | some i =>
      let total := total + (candidates[i]?.map WeightedSigner.cap).getD 0
      if neededWeight ≤ total then (true, total, (sig, true) :: rest)
      else
        let (ok, total, rest) := verifyAll verify neededWeight rest (candidates.eraseIdx i) total
        (ok, total, (sig, true) :: rest)

/-- `verifyAll` over the signers of one type, unless the check is over. -/
def verifyType (d : Deps) (checker : SignatureChecker) (signers : List WeightedSigner)
    (neededWeight : Nat) (type : SignerType) (state : Bool × Nat × List (DecoratedSignature × Bool)) :
    Bool × Nat × List (DecoratedSignature × Bool) :=
  match state with
  | (true, total, marks) => (true, total, marks)
  | (false, total, marks) =>
    verifyAll (verifySignature d checker.contentsHash) neededWeight marks (ofType type signers) total

/-- `checkSignature`: whether the check passed, and the checker it leaves. -/
def checkSignature (d : Deps) (checker : SignatureChecker) (signers : List WeightedSigner)
    (neededWeight : Nat) : Bool × SignatureChecker :=
  let (ok, total) := preAuth checker.contentsHash neededWeight (ofType .preAuthTx signers) 0
  let state := (ok, total, checker.signatures)
  let state := checker.verifyType d signers neededWeight .hashX state
  let state := checker.verifyType d signers neededWeight .ed25519 state
  let state := checker.verifyType d signers neededWeight .signedPayload state
  (state.1, { checker with signatures := state.2.2 })

/-- `checkAllSignaturesUsed`. -/
def checkAllSignaturesUsed (checker : SignatureChecker) : Bool :=
  checker.signatures.all (·.2)

end SignatureChecker

/-- `checkExtraSigners`: every one of them must sign. -/
def checkExtraSigners (d : Deps) (checker : SignatureChecker) (raw : Transaction) :
    Bool × SignatureChecker :=
  match raw.cond with
  | .precondV2 v2 =>
    if v2.extraSigners.length = 0 then (true, checker)
    else checker.checkSignature d (v2.extraSigners.map fun key => ⟨key, 1⟩)
      v2.extraSigners.length
  | _ => (true, checker)

end LiteSoroban

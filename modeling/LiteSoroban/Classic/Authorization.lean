import LiteSoroban.Classic.Atomicity
import LiteSoroban.Classic.SignatureSpec

/-!
# No change without authorization

`Authorized` is what an envelope needs to be let through: who has to have
signed it, at which threshold, and that nobody else has.  It is stated over
the stored accounts and the envelope, without a checker.

`applyTransaction_authorized` says that an envelope that is accepted has it,
and that the store does not change for one that lacks it, also when the
application throws.  The checker is shared by the checks of one envelope, so
the proof follows it from one check to the next with `Marks`.
-/

namespace LiteSoroban

open Effect

/-! ## What an envelope needs -/

/-- The key of an account, as a signer of its own. -/
def AccountId.asSigner (id : AccountId) : WeightedSigner :=
  ⟨.signerKeyTypeEd25519 id.ed25519, 1⟩

/-- The signers of an operation's source: the account's, or its key when there
is no account. -/
def sourceSigners (id : AccountId) : Option AccountEntry → List WeightedSigner
  | some account => accountSigners account
  | none => [id.asSigner]

/-- The transaction is authorized by its source, its extra signers and the
source of its operation, and carries no other signature. -/
structure AuthorizedBy (d : Deps) (ledger : Ledger) (v1 : TransactionV1Envelope) (hash : Hash)
    (account : AccountEntry) (op : Operation) (opAccount : Option AccountEntry) : Prop where
  loaded : loadAccount ledger v1.tx.sourceId = .ok (some account)
  operation : v1.tx.operations = [op]
  opLoaded : loadAccount ledger (op.sourceId v1.tx) = .ok opAccount
  source : Reaches d hash v1.signatures (accountSigners account) account.thresholds.low.toNat
  extraSigners : ∀ key ∈ v1.tx.extraSigners, SignedBy d hash v1.signatures ⟨key, 1⟩
  opSource : ∀ a, opAccount = some a → Reaches d hash v1.signatures (accountSigners a)
    (if op.body.isInvoke then a.thresholds.medium else a.thresholds.low).toNat
  /-- An account that does not exist signs with its own key. -/
  opSourceKey : opAccount = none → ∃ sig ∈ v1.signatures,
    verifySignature d hash sig (op.sourceId v1.tx).asSigner = true
  allUsed : ∀ sig ∈ v1.signatures, ∃ s ∈ accountSigners account ++
      (v1.tx.extraSigners.map fun key => ⟨key, 1⟩) ++ sourceSigners (op.sourceId v1.tx) opAccount,
    verifySignature d hash sig s = true

/-- The fee bump is authorized by its fee source, and carries no other
signature. -/
structure BumpAuthorizedBy (d : Deps) (ledger : Ledger) (feeBump : FeeBumpTransactionEnvelope)
    (hash : Hash) (feeAccount : AccountEntry) : Prop where
  loaded : loadAccount ledger (muxedToAccountId feeBump.tx.feeSource) = .ok (some feeAccount)
  feeSource : Reaches d hash feeBump.signatures (accountSigners feeAccount)
    feeAccount.thresholds.low.toNat
  allUsed : ∀ sig ∈ feeBump.signatures, ∃ s ∈ accountSigners feeAccount,
    verifySignature d hash sig s = true

/-- The transaction of a v1 envelope is authorized, over its own hash. -/
def TransactionV1Envelope.Authorized (d : Deps) (ledger : Ledger) (passphrase : String)
    (v1 : TransactionV1Envelope) : Prop :=
  ∃ account op opAccount,
    AuthorizedBy d ledger v1 (d.transactionHash passphrase v1.tx) account op opAccount

/-- An envelope is authorized: a fee bump also over the outer hash, with the
outer signatures. -/
def Authorized (d : Deps) (ledger : Ledger) (passphrase : String) : TransactionEnvelope → Prop
  | .envelopeTypeTxV0 _ => False
  | .envelopeTypeTx v1 => v1.Authorized d ledger passphrase
  | .envelopeTypeTxFeeBump feeBump =>
    feeBump.tx.innerTx.Authorized d ledger passphrase ∧
      ∃ feeAccount, BumpAuthorizedBy d ledger feeBump
        (d.feeBumpTransactionHash passphrase feeBump.tx) feeAccount

/-! ## The checks, one after the other -/

/-- The transaction source and the extra signers. -/
theorem signTransaction_ok {d : Deps} {raw : Transaction} {account : AccountEntry}
    {checker : SignatureChecker} {checker' : Option SignatureChecker}
    (h : signTransaction d raw account (some checker) = .ok checker') :
    ∃ after, checker' = some after ∧
      Marks d checker after
        (accountSigners account ++ raw.extraSigners.map fun key => ⟨key, 1⟩) ∧
      Reaches d checker.contentsHash checker.all (accountSigners account)
        account.thresholds.low.toNat ∧
      ∀ key ∈ raw.extraSigners, SignedBy d checker.contentsHash checker.all ⟨key, 1⟩ := by
  have hchecked := checkSignature_spec d checker (accountSigners account)
    account.thresholds.low.toNat
  simp only [signTransaction, Except.bind_eq_ok, Check.problem_eq_ok] at h
  obtain ⟨_, hsigned, _, hextra, h⟩ := h
  cases h
  obtain ⟨hmarks, hall⟩ := checkExtraSigners_spec d
    (checker.checkSignature d (accountSigners account) account.thresholds.low.toNat).2 raw
  have hall' : (checker.checkSignature d (accountSigners account)
      account.thresholds.low.toNat).2.all = checker.all := hchecked.signatures
  rw [hchecked.contentsHash, hall'] at hall
  refine ⟨_, rfl, hchecked.toMarks.trans hmarks, hchecked.reaches ?_, hall ?_⟩
  · by_contra hfalse
    simp [hfalse] at hsigned
  · by_contra hfalse
    simp [hfalse] at hextra

/-- The source of the operation. -/
theorem signOperation_ok {d : Deps} {op : Operation} {src : Sources}
    {checker : SignatureChecker} {checker' : Option SignatureChecker}
    (h : signOperation d op src (some checker) = .ok checker') :
    ∃ after, checker' = some after ∧ Marks d checker after (operationSigners op src).1 ∧
      Reaches d checker.contentsHash checker.all (operationSigners op src).1
        (operationSigners op src).2 := by
  have hchecked := checkSignature_spec d checker (operationSigners op src).1
    (operationSigners op src).2
  simp only [signOperation] at h
  split at h
  · next hsigned =>
    cases h
    exact ⟨_, rfl, hchecked.toMarks, hchecked.reaches hsigned⟩
  · cases h

/-- The fee source. -/
theorem signFeeBump_ok {d : Deps} {feeAccount : AccountEntry} {checker : SignatureChecker}
    {checker' : Option SignatureChecker}
    (h : signFeeBump d feeAccount (some checker) = .ok checker') :
    ∃ after, checker' = some after ∧ Marks d checker after (accountSigners feeAccount) ∧
      Reaches d checker.contentsHash checker.all (accountSigners feeAccount)
        feeAccount.thresholds.low.toNat := by
  have hchecked := checkSignature_spec d checker (accountSigners feeAccount)
    feeAccount.thresholds.low.toNat
  simp only [signFeeBump, Except.bind_eq_ok, Check.problem_eq_ok] at h
  obtain ⟨_, hsigned, h⟩ := h
  cases h
  refine ⟨_, rfl, hchecked.toMarks, hchecked.reaches ?_⟩
  by_contra hfalse
  simp [hfalse] at hsigned

theorem checkAllUsed_ok {detail : String} {checker : SignatureChecker} {u : Unit}
    (h : checkAllUsed detail (some checker) = .ok u) : checker.checkAllSignaturesUsed = true := by
  simp only [checkAllUsed, Check.problem_eq_ok] at h
  by_contra hfalse
  simp [hfalse] at h

theorem SignatureChecker.all_new (signatures : List DecoratedSignature) (contentsHash : Hash) :
    (SignatureChecker.new signatures contentsHash).all = signatures := by
  rw [SignatureChecker.all, SignatureChecker.new, List.map_map]
  exact List.map_id _

/-- A transaction whose checks passed is authorized. -/
theorem Passed.authorized {d : Deps} {ledger : Ledger} {a : Application} {v : Validated}
    {c₁ c₂ : Option SignatureChecker} (h : Passed d ledger a v c₁ c₂)
    (hsig : a.validation.sigverify = true) :
    AuthorizedBy d ledger ⟨a.raw, a.signatures⟩ a.hash v.account v.op v.opAccount := by
  have hstart : a.checker = some (.new a.signatures a.hash) := by
    rw [Application.checker, if_pos hsig]
  obtain ⟨haccount, hinvoker, hopAccount⟩ := loadSources_ok h.sources
  have hsigned₁ := h.signedTransaction
  rw [hstart] at hsigned₁
  obtain ⟨after₁, rfl, hmarks₁, hsource, hextra⟩ := signTransaction_ok hsigned₁
  obtain ⟨after₂, rfl, hmarks₂, hopSource⟩ := signOperation_ok h.signedOperation
  have hall : after₁.all = a.signatures :=
    (hmarks₁.signatures).trans (SignatureChecker.all_new a.signatures a.hash)
  have hhash : after₁.contentsHash = a.hash := hmarks₁.contentsHash
  rw [SignatureChecker.all_new] at hsource hextra
  rw [hall, hhash] at hopSource
  have hsigners : (operationSigners v.op v.toSources).1 =
      sourceSigners (v.op.sourceId a.raw) v.opAccount := by
    simp only [operationSigners, sourceSigners, hinvoker]
    cases v.opAccount <;> rfl
  refine ⟨haccount, (checkShape_ok h.shape).1, hopAccount, hsource, hextra, fun opAccount hop => ?_,
    fun hghost => ?_, ?_⟩
  · simpa only [operationSigners, OperationBody.threshold, hop] using hopSource
  · -- A matching that is not empty has the one signer there is.
    obtain ⟨matched, hmatching, hne, -⟩ := hopSource
    rw [hsigners, hghost] at hmatching
    obtain ⟨s, hs⟩ := List.exists_mem_of_ne_nil matched hne
    have hkey : s = (v.op.sourceId a.raw).asSigner :=
      List.mem_singleton.mp (hmatching.among.subset hs)
    subst hkey
    rcases hmatching.signedBy hs with hpre | hsigned
    · cases hpre
    · exact hsigned
  · have hused := (hmarks₁.trans hmarks₂).allUsed (checkAllUsed_ok h.allUsed)
    rwa [hsigners] at hused

/-- An envelope that passed every check is authorized. -/
theorem authorized_of_validated {d : Deps} {ledger : Ledger} {envelope : TransactionEnvelope}
    {passphrase : String} {validation : ValidationOptions} {a : Application} {v : Validated}
    (hsig : validation.sigverify = true)
    (happ : envelopeApplication d ledger envelope passphrase validation = .ok a)
    (hvalid : validate d ledger a = .ok v) : Authorized d ledger passphrase envelope := by
  obtain ⟨c₁, c₂, hpassed⟩ := validate_ok hvalid
  cases envelope with
  | envelopeTypeTxV0 xdr => cases happ
  | envelopeTypeTx v1 =>
    obtain ⟨hplain, hsignatures⟩ := plainApplication_ok happ
    have hraw : v1.tx = a.raw := by simpa [TransactionEnvelope.innerTx?] using hplain.innerTx
    have hauthorized := hpassed.authorized (by rw [hplain.switches]; exact hsig)
    rw [hsignatures, hplain.hash, ← hraw] at hauthorized
    exact ⟨v.account, v.op, v.opAccount, hauthorized⟩
  | envelopeTypeTxFeeBump feeBump =>
    obtain ⟨hunwrapped, hsignatures, feeAccount, checker, hbump⟩ := feeBumpApplication_ok happ
    have hraw : feeBump.tx.innerTx.tx = a.raw := by
      simpa [TransactionEnvelope.innerTx?] using hunwrapped.innerTx
    have hauthorized := hpassed.authorized (by rw [hunwrapped.switches]; exact hsig)
    rw [hsignatures, hunwrapped.hash, ← hraw] at hauthorized
    have hsigned := hbump.signed
    rw [if_pos hsig] at hsigned
    obtain ⟨after, rfl, hmarks, hfeeSource⟩ := signFeeBump_ok hsigned
    rw [SignatureChecker.all_new] at hfeeSource
    exact ⟨⟨v.account, v.op, v.opAccount, hauthorized⟩, feeAccount, hbump.loaded, hfeeSource,
      hmarks.allUsed (checkAllUsed_ok hbump.allUsed)⟩

/-- **Authorization.**  With signatures verified, an envelope that is accepted
is authorized, and no other envelope changes the store. -/
theorem applyTransaction_authorized {d : Deps} (ledger : Ledger) (envelope : TransactionEnvelope)
    (passphrase : String) {validation : ValidationOptions} (hsig : validation.sigverify = true) :
    (∀ outcome ledger',
      applyTransaction d envelope passphrase validation ledger = .ok outcome ledger' →
      outcome.rejected = false → Authorized d ledger passphrase envelope) ∧
    ((finalState (applyTransaction d envelope passphrase validation ledger)).store ≠ ledger.store →
      Authorized d ledger passphrase envelope) := by
  have haccepted : ∀ outcome ledger',
      applyTransaction d envelope passphrase validation ledger = .ok outcome ledger' →
      outcome.rejected = false → Authorized d ledger passphrase envelope := by
    intro outcome ledger' h hfalse
    rcases applyTransaction_ok h with ⟨hrejected, -⟩ | ⟨-, a, v, _, _, _, hstages⟩
    · rw [hrejected] at hfalse
      cases hfalse
    · exact authorized_of_validated hsig hstages.application hstages.validated
  refine ⟨haccepted, fun hchanged => ?_⟩
  cases h : applyTransaction d envelope passphrase validation ledger with
  | ok outcome ledger' =>
    rw [h] at hchanged
    rcases applyTransaction_ok h with ⟨-, hsame⟩ | ⟨hfalse, -⟩
    · exact absurd (by rw [finalState_ok, hsame]) hchanged
    · exact haccepted outcome ledger' h hfalse
  | error e ledger' =>
    rw [h] at hchanged
    rcases applyTransaction_error h with hsame | ⟨a, v, happ, hvalid, -⟩
    · exact absurd (by rw [finalState_error, hsame]) hchanged
    · exact authorized_of_validated hsig happ hvalid

/-- The transaction of `applyTransaction_atomic_ghost`: its operation source
does not exist, and has signed. -/
theorem applyTransaction_authorized_ghost :
    ∃ sig ∈ (sampleEnvelope 7 1 (some 8)).signatures,
      verifySignature .idle [] sig (AccountId.asSigner ⟨List.replicate 32 8⟩) = true := by
  obtain ⟨outcome, ledger', hrun, hrejected⟩ : ∃ outcome ledger',
      applyTransaction .idle (.envelopeTypeTx (sampleEnvelope 7 1 (some 8))) "" {}
        (sampleLedger 7) = .ok outcome ledger' ∧ outcome.rejected = false :=
    ⟨_, _, rfl, rfl⟩
  obtain ⟨account, op, opAccount, hauthorized⟩ :=
    (applyTransaction_authorized (sampleLedger 7) _ "" rfl).1 outcome ledger' hrun hrejected
  have hop := hauthorized.operation
  cases hop
  have hghost := hauthorized.opLoaded
  cases hghost
  exact hauthorized.opSourceKey rfl

end LiteSoroban

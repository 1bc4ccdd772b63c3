import LiteSoroban.Classic.Atomicity

/-!
# The validation switches

A switch of `ValidationOptions` turns some checks off.  The checks share
state: one signature checker goes through three of them, and one charge
decides several branches of two validators.  So it takes an argument that a
check that is off never makes a later one fail.

`Check.Follows` relates two runs of the checks: where the first passes or
throws, the second does the same.  Each check with a switch follows itself
when the switch goes off, and the rules for sequences carry that to both
validators, for plain envelopes and for fee bumps.
-/

namespace LiteSoroban

open Effect

/-- The second validation makes no check that the first leaves out. -/
structure ValidationOptions.LaxerThan (lax strict : ValidationOptions) : Prop where
  sigverify : lax.sigverify = true → strict.sigverify = true
  sequenceCheck : lax.sequenceCheck = true → strict.sequenceCheck = true
  feeCharging : lax.feeCharging = true → strict.feeCharging = true
  timebounds : lax.timebounds = true → strict.timebounds = true

/-! ## Two runs of the checks -/

/-- A check that passes or rejects. -/
structure Check.NeverThrows {α : Type} (x : Check α) : Prop where
  not_throws : ∀ e, x ≠ .error (.throws e)

namespace Check.NeverThrows

variable {α β : Type}

theorem ok (a : α) : NeverThrows (.ok a : Check α) := ⟨fun e h => by cases h⟩

theorem reject (outcome : TxOutcome) : NeverThrows (.error (.reject outcome) : Check α) :=
  ⟨fun e h => by cases h⟩

theorem problem (code : TxResultCode) (detail : Option String) :
    NeverThrows (Check.problem code detail) := by
  cases detail with
  | none => exact ok ()
  | some text => exact reject _

theorem bind {x : Check α} {f : α → Check β} (hx : NeverThrows x) (hf : ∀ a, NeverThrows (f a)) :
    NeverThrows (x >>= f) := by
  cases x with
  | ok a => exact hf a
  | error stop =>
    cases stop with
    | reject outcome => exact reject outcome
    | throws e => exact absurd rfl (hx.not_throws e)

end Check.NeverThrows

/-- The second check passes where the first does, with a related result.  And
when `T` holds, it throws where the first does. -/
structure Check.Follows {α β : Type} (T : Prop) (R : α → β → Prop) (x : Check α) (y : Check β) :
    Prop where
  ok : ∀ a, x = .ok a → ∃ b, y = .ok b ∧ R a b
  throws : T → ∀ e, x = .error (.throws e) → y = .error (.throws e)

namespace Check.Follows

variable {α β γ δ : Type} {T : Prop} {R : α → β → Prop} {S : γ → δ → Prop}

theorem refl (x : Check α) : Follows T Eq x x :=
  ⟨fun a h => ⟨a, h, rfl⟩, fun _ _ h => h⟩

theorem pure {a : α} {b : β} (h : R a b) : Follows T R (.ok a : Check α) (.ok b : Check β) := by
  refine ⟨fun a' ha' => ?_, fun _ e he => by cases he⟩
  cases ha'
  exact ⟨b, rfl, h⟩

theorem mono {R' : α → β → Prop} {x : Check α} {y : Check β} (h : Follows T R x y)
    (hR : ∀ a b, R a b → R' a b) : Follows T R' x y := by
  refine ⟨fun a ha => ?_, h.throws⟩
  obtain ⟨b, hb, hab⟩ := h.ok a ha
  exact ⟨b, hb, hR a b hab⟩

/-- A rejection is followed by anything. -/
theorem reject {outcome : TxOutcome} {y : Check β} :
    Follows T R (.error (.reject outcome) : Check α) y :=
  ⟨fun a ha => (by cases ha), fun _ e he => (by cases he)⟩

/-- A check that does not throw is followed by no check at all. -/
theorem skip {x : Check α} {b : β} (hR : ∀ a, x = .ok a → R a b) (hx : T → x.NeverThrows) :
    Follows T R x (.ok b : Check β) :=
  ⟨fun a h => ⟨b, rfl, hR a h⟩, fun hT e h => absurd h ((hx hT).not_throws e)⟩

theorem bind {x : Check α} {y : Check β} {f : α → Check γ} {g : β → Check δ}
    (hxy : Follows T R x y) (hfg : ∀ a b, x = .ok a → R a b → Follows T S (f a) (g b)) :
    Follows T S (x >>= f) (y >>= g) := by
  cases x with
  | ok a =>
    obtain ⟨b, rfl, hR⟩ := hxy.ok a rfl
    exact hfg a b rfl hR
  | error stop =>
    cases stop with
    | reject outcome => exact reject
    | throws e =>
      refine ⟨fun c h => (by cases h), fun hT e' h => ?_⟩
      cases h
      rw [hxy.throws hT e rfl]
      rfl

/-- Nothing to report stays nothing to report. -/
theorem problem {code : TxResultCode} {detail detail' : Option String}
    (h : detail = none → detail' = none) :
    Follows T Eq (Check.problem code detail) (Check.problem code detail') := by
  cases detail with
  | none =>
    rw [h rfl]
    exact refl _
  | some text => exact reject

end Check.Follows

/-! ## The checks of a transaction -/

/-- The same application with no check more: nobody is charged who was not,
and whoever pays for a plain envelope is its source. -/
structure Application.LaxerThan (lax strict : Application) : Prop where
  raw : lax.raw = strict.raw
  signatures : lax.signatures = strict.signatures
  hash : lax.hash = strict.hash
  feeBumped : lax.feeBumped = strict.feeBumped
  txSize : lax.txSize = strict.txSize
  validation : lax.validation.LaxerThan strict.validation
  charge : lax.charge = none ∨ lax.charge = strict.charge
  payer : ∀ charge, strict.charge = some charge → strict.feeBumped = false →
    charge.payer = strict.raw.sourceId

/-- A checker that was there may be gone. -/
def CheckerDropped (strict lax : Option SignatureChecker) : Prop := lax = none ∨ lax = strict

theorem checker_dropped (signatures : List DecoratedSignature) (hash : Hash)
    {lax strict : Bool} (h : lax = true → strict = true) :
    CheckerDropped (if strict then some (SignatureChecker.new signatures hash) else none)
      (if lax then some (SignatureChecker.new signatures hash) else none) := by
  cases lax with
  | false => exact .inl rfl
  | true =>
    rw [h rfl]
    exact .inr rfl

section

variable (d : Deps) {ledger : Ledger} {lax strict : Application}

/-- Under installed settings the declared resources have a price. -/
theorem checkDeclaredFee_neverThrows (a : Application) (s : Shaped)
    (hsettings : ledger.env.feeSettings.isSome) :
    (checkDeclaredFee d ledger a s).NeverThrows := by
  obtain ⟨settings, hsettings⟩ := Option.isSome_iff_exists.mp hsettings
  unfold checkDeclaredFee
  cases a.charge with
  | none => exact .ok 0
  | some charge =>
    simp only [Ledger.computeResourceFee, SorobanEnv.computeResourceFee, SorobanEnv.fees,
      hsettings]
    exact .bind (.ok _) fun _ => .bind (.problem _ _) fun _ => .ok _

theorem checkDeclaredFee_follows (h : lax.LaxerThan strict) (s : Shaped) :
    Check.Follows ledger.env.feeSettings.isSome (fun _ _ => True)
      (checkDeclaredFee d ledger strict s) (checkDeclaredFee d ledger lax s) := by
  rcases h.charge with hnone | hsame
  · have hfree : checkDeclaredFee d ledger lax s = .ok 0 := by
      unfold checkDeclaredFee
      rw [hnone]
    rw [hfree]
    exact .skip (fun _ _ => trivial) (checkDeclaredFee_neverThrows d strict s)
  · have hsame : checkDeclaredFee d ledger lax s = checkDeclaredFee d ledger strict s := by
      unfold checkDeclaredFee
      rw [hsame, h.txSize]
    rw [hsame]
    exact (Check.Follows.refl _).mono fun _ _ _ => trivial

theorem checkBounds_follows (T : Prop) (h : lax.LaxerThan strict) :
    Check.Follows T Eq (checkBounds ledger strict) (checkBounds ledger lax) := by
  unfold checkBounds
  cases hlax : lax.validation.timebounds with
  | true =>
    rw [h.validation.timebounds hlax, h.raw]
    exact .refl _
  | false =>
    refine .skip (fun _ _ => rfl) fun _ => ?_
    split
    · split
      · exact .reject _
      · exact .ok ()
    · exact .ok ()

theorem checkSequence_follows (T : Prop) (h : lax.LaxerThan strict) (account : AccountEntry) :
    Check.Follows T Eq (checkSequence ledger strict account) (checkSequence ledger lax account) := by
  unfold checkSequence
  rw [h.raw]
  refine .bind (.refl _) fun _ _ _ _ => .problem fun hnone => ?_
  cases hlax : lax.validation.sequenceCheck with
  | true => simpa [h.validation.sequenceCheck hlax] using hnone
  | false => rfl

theorem checkAge_follows (T : Prop) (h : lax.LaxerThan strict) (account : AccountEntry) :
    Check.Follows T Eq (checkAge ledger strict account) (checkAge ledger lax account) := by
  unfold checkAge
  rw [h.raw]
  refine .problem fun hnone => ?_
  cases hlax : lax.validation.timebounds with
  | true => simpa [h.validation.timebounds hlax] using hnone
  | false => rfl

/-- A check of signatures, without its checker, checks nothing. -/
theorem signatures_follow (T : Prop)
    (check : Option SignatureChecker → Check (Option SignatureChecker))
    (hnone : check none = .ok none)
    (hsome : ∀ checker, (check (some checker)).NeverThrows)
    {checker checker' : Option SignatureChecker} (h : CheckerDropped checker checker') :
    Check.Follows T CheckerDropped (check checker) (check checker') := by
  rcases h with rfl | rfl
  · rw [hnone]
    refine .skip (fun _ _ => .inl rfl) fun _ => ?_
    cases checker with
    | none =>
      rw [hnone]
      exact .ok none
    | some checker => exact hsome checker
  · exact (Check.Follows.refl _).mono fun _ _ heq => .inr heq.symm

theorem signTransaction_follows (T : Prop) (raw : Transaction) (account : AccountEntry)
    {checker checker' : Option SignatureChecker} (h : CheckerDropped checker checker') :
    Check.Follows T CheckerDropped (signTransaction d raw account checker)
      (signTransaction d raw account checker') :=
  signatures_follow T (signTransaction d raw account) rfl
    (fun _ => .bind (.problem _ _) fun _ => .bind (.problem _ _) fun _ => .ok _) h

theorem signOperation_follows (T : Prop) (op : Operation) (src : Sources)
    {checker checker' : Option SignatureChecker} (h : CheckerDropped checker checker') :
    Check.Follows T CheckerDropped (signOperation d op src checker)
      (signOperation d op src checker') := by
  refine signatures_follow T (signOperation d op src) rfl (fun checker => ?_) h
  simp only [signOperation]
  split
  · exact .ok _
  · exact .reject _

theorem signFeeBump_follows (T : Prop) (feeAccount : AccountEntry)
    {checker checker' : Option SignatureChecker} (h : CheckerDropped checker checker') :
    Check.Follows T CheckerDropped (signFeeBump d feeAccount checker)
      (signFeeBump d feeAccount checker') :=
  signatures_follow T (signFeeBump d feeAccount) rfl
    (fun _ => .bind (.problem _ _) fun _ => .ok _) h

theorem checkAllUsed_follows (T : Prop) (detail : String)
    {checker checker' : Option SignatureChecker} (h : CheckerDropped checker checker') :
    Check.Follows T Eq (checkAllUsed detail checker) (checkAllUsed detail checker') := by
  rcases h with rfl | rfl
  · refine .skip (fun _ _ => rfl) fun _ => ?_
    cases checker with
    | none => exact .ok ()
    | some checker => exact .problem _ _
  · exact .refl _

/-- The payer of a plain envelope is its source, and that has been loaded. -/
theorem checkFees_follows (T : Prop) (h : lax.LaxerThan strict) (s : Shaped)
    {account : AccountEntry} (hsource : loadAccount ledger strict.raw.sourceId = .ok (some account)) :
    Check.Follows T Eq (checkFees ledger strict s) (checkFees ledger lax s) := by
  rcases h.charge with hnone | hsame
  · unfold checkFees
    rw [h.raw, h.feeBumped, hnone]
    refine .bind (.refl _) fun _ _ _ _ => .skip (fun _ _ => rfl) fun _ => ?_
    cases hcharge : strict.charge with
    | none => exact .ok ()
    | some charge =>
      cases hbumped : strict.feeBumped with
      | true => exact .ok ()
      | false =>
        have hload : loadAccount! ledger charge.payer = .ok account := by
          rw [h.payer charge hcharge hbumped, loadAccount!, hsource]
          rfl
        simp only [hload]
        exact .bind (.ok _) fun _ => .problem _ _
  · have hsame : checkFees ledger lax s = checkFees ledger strict s := by
      unfold checkFees
      rw [h.raw, h.feeBumped, hsame]
    rw [hsame]
    exact .refl _

/-- `applyInner`'s checks with some of them off. -/
theorem validate_follows (h : lax.LaxerThan strict) :
    Check.Follows ledger.env.feeSettings.isSome (fun _ _ => True)
      (validate d ledger strict) (validate d ledger lax) := by
  have hchecker : CheckerDropped strict.checker lax.checker := by
    unfold Application.checker
    rw [h.signatures, h.hash]
    exact checker_dropped _ _ h.validation.sigverify
  unfold validate
  rw [h.raw, h.txSize]
  refine .bind (.refl _) fun s _ _ heq => ?_
  subst heq
  refine .bind (.refl _) fun _ _ _ _ => .bind (checkDeclaredFee_follows d h s) fun _ _ _ _ =>
    .bind (checkBounds_follows _ h) fun _ _ _ _ => .bind (.refl _) fun src _ hsrc heq => ?_
  subst heq
  refine .bind (checkSequence_follows _ h _) fun _ _ _ _ =>
    .bind (checkAge_follows _ h _) fun _ _ _ _ =>
    .bind (signTransaction_follows d _ _ _ hchecker) fun _ _ _ hsigned =>
    .bind (checkFees_follows _ h s (loadSources_ok hsrc).1) fun _ _ _ _ =>
    .bind (signOperation_follows d _ _ _ hsigned) fun _ _ _ hsigned =>
    .bind (.refl _) fun _ _ _ _ => .bind (checkAllUsed_follows _ _ hsigned) fun _ _ _ _ =>
    .pure trivial

end

/-! ## The checks of an envelope -/

section

variable (d : Deps) (ledger : Ledger) (passphrase : String) {lax strict : ValidationOptions}

/-- Nobody is charged when fees are off, and otherwise whoever was. -/
theorem charge_follows (h : lax.LaxerThan strict) (charge : FeeCharge) :
    (if lax.feeCharging then some charge else none) = none ∨
      (if lax.feeCharging then some charge else none) =
        if strict.feeCharging then some charge else none := by
  cases hlax : lax.feeCharging with
  | false => exact .inl rfl
  | true =>
    rw [h.feeCharging hlax]
    exact .inr rfl

theorem plainApplication_follows (T : Prop) (h : lax.LaxerThan strict)
    (v1 : TransactionV1Envelope) :
    Check.Follows T (fun strict lax => Application.LaxerThan lax strict)
      (plainApplication d passphrase strict v1) (plainApplication d passphrase lax v1) := by
  unfold plainApplication
  refine .bind (.refl _) fun _ _ _ _ => ?_
  dsimp only
  split
  · exact .reject
  · split
    · exact .reject
    · refine .pure ⟨rfl, rfl, rfl, rfl, rfl, h, charge_follows h _, fun charge hcharge _ => ?_⟩
      split at hcharge
      · cases hcharge
        rfl
      · cases hcharge

theorem feeBumpApplication_follows (T : Prop) (h : lax.LaxerThan strict)
    (feeBump : FeeBumpTransactionEnvelope) :
    Check.Follows T (fun strict lax => Application.LaxerThan lax strict)
      (feeBumpApplication d ledger passphrase strict feeBump)
      (feeBumpApplication d ledger passphrase lax feeBump) := by
  unfold feeBumpApplication
  refine .bind (.refl _) fun _ _ _ _ => .bind (.refl _) fun _ _ _ _ => ?_
  split
  · exact .reject
  · split
    · exact .reject
    · refine .bind (.refl _) fun _ _ _ _ => .bind (.refl _) fun account _ _ heq => ?_
      subst heq
      split
      · exact .reject
      · refine .bind (signFeeBump_follows d T _ (checker_dropped _ _ h.sigverify))
            fun checker checker' _ hsigned =>
          .bind (.problem fun hnone => ?_) fun _ _ _ _ =>
          .bind (checkAllUsed_follows T _ hsigned) fun _ _ _ _ =>
          .pure ⟨rfl, rfl, rfl, rfl, rfl, h, charge_follows h _, fun _ _ hbumped => ?_⟩
        · cases hlax : lax.feeCharging with
          | false => rfl
          | true => simpa [h.feeCharging hlax] using hnone
        · cases hbumped

theorem envelopeApplication_follows (T : Prop) (h : lax.LaxerThan strict)
    (envelope : TransactionEnvelope) :
    Check.Follows T (fun strict lax => Application.LaxerThan lax strict)
      (envelopeApplication d ledger envelope passphrase strict)
      (envelopeApplication d ledger envelope passphrase lax) := by
  cases envelope with
  | envelopeTypeTxV0 xdr => exact .reject
  | envelopeTypeTx v1 => exact plainApplication_follows d passphrase T h v1
  | envelopeTypeTxFeeBump feeBump =>
    exact feeBumpApplication_follows d ledger passphrase T h feeBump

end

/-! ## Applications -/

/-- An application ends with a rejection. -/
def Rejects (result : EStateM.Result JsError Ledger TxOutcome) : Prop :=
  ∃ outcome ledger, result = .ok outcome ledger ∧ outcome.rejected = true

section

variable (d : Deps) (ledger : Ledger) (envelope : TransactionEnvelope) (passphrase : String)

/-- Every check passes. -/
def ChecksPass (validation : ValidationOptions) : Prop :=
  ∃ a v, envelopeApplication d ledger envelope passphrase validation = .ok a ∧
    validate d ledger a = .ok v

/-- A check throws. -/
def ChecksThrow (validation : ValidationOptions) : Prop :=
  ∃ e, envelopeApplication d ledger envelope passphrase validation = .error (.throws e) ∨
    ∃ a, envelopeApplication d ledger envelope passphrase validation = .ok a ∧
      validate d ledger a = .error (.throws e)

/-- An application is not rejected exactly when its checks pass or throw. -/
theorem not_rejects_iff (validation : ValidationOptions) :
    ¬ Rejects (applyTransaction d envelope passphrase validation ledger) ↔
      ChecksPass d ledger envelope passphrase validation ∨
        ChecksThrow d ledger envelope passphrase validation := by
  unfold ChecksPass ChecksThrow
  have hend := applyTransaction_end d envelope passphrase validation ledger
  generalize applyTransaction d envelope passphrase validation ledger = run at hend ⊢
  cases hend with
  | envelopeThrew happ => simp [Rejects, happ]
  | envelopeRejected happ =>
    have hmarked := ((envelopeApplication_rejects ..).marked _ happ).1
    simp [Rejects, happ, hmarked]
  | threw happ hval => simp [Rejects, happ, hval]
  | @rejected a inner happ hval =>
    have hmarked := ((validate_rejects (envelopeApplication_ok happ)).marked inner hval).1
    have hbumped : (if a.feeBumped then bumpOutcome inner else inner).rejected = true := by
      split
      · rw [bumpOutcome_rejected, hmarked]
      · exact hmarked
    simp [Rejects, happ, hval, hbumped]
  | commitThrew happ hval hcommit => simp [Rejects, happ, hval]
  | committed happ hval hcommit => simp [Rejects, happ, hval, commit_not_rejected hcommit]

variable {d ledger envelope passphrase} {lax strict : ValidationOptions}

theorem ChecksPass.of_laxer (hlax : lax.LaxerThan strict)
    (h : ChecksPass d ledger envelope passphrase strict) :
    ChecksPass d ledger envelope passphrase lax := by
  obtain ⟨a, v, happ, hval⟩ := h
  obtain ⟨a', happ', hlaxer⟩ :=
    (envelopeApplication_follows d ledger passphrase True hlax envelope).ok a happ
  obtain ⟨v', hval', -⟩ := (validate_follows d hlaxer).ok v hval
  exact ⟨a', v', happ', hval'⟩

/-- Under installed settings what throws is a check that no switch turns
off. -/
theorem ChecksThrow.of_laxer (hsettings : ledger.env.feeSettings.isSome) (hlax : lax.LaxerThan strict)
    (h : ChecksThrow d ledger envelope passphrase strict) :
    ChecksThrow d ledger envelope passphrase lax := by
  obtain ⟨e, happ | ⟨a, happ, hval⟩⟩ := h
  · exact ⟨e, .inl ((envelopeApplication_follows d ledger passphrase True hlax envelope).throws
      trivial e happ)⟩
  · obtain ⟨a', happ', hlaxer⟩ :=
      (envelopeApplication_follows d ledger passphrase True hlax envelope).ok a happ
    exact ⟨e, .inr ⟨a', happ', (validate_follows d hlaxer).throws hsettings e hval⟩⟩

end

/-! ## The codes of a switch -/

/-- The codes of an outcome, outer and inner. -/
def TxOutcome.codes (outcome : TxOutcome) : List TxResultCode :=
  outcome.code :: outcome.innerCode.toList

/-- No code belongs to a switch that is off.  `start` says that the sequence
number is the one `CreateAccount` would hand out, which is rejected whatever
the switches are. -/
structure HeedsSwitches (validation : ValidationOptions) (start : Prop)
    (codes : List TxResultCode) (opCode : Option OpCode) : Prop where
  sigverify : validation.sigverify = false → opCode ≠ some .opBAD_AUTH ∧
    ∀ code ∈ codes, code ≠ .txBAD_AUTH ∧ code ≠ .txBAD_AUTH_EXTRA
  timebounds : validation.timebounds = false → ∀ code ∈ codes,
    code ≠ .txTOO_EARLY ∧ code ≠ .txTOO_LATE ∧ code ≠ .txBAD_MIN_SEQ_AGE_OR_GAP
  feeCharging : validation.feeCharging = false → ∀ code ∈ codes, code ≠ .txINSUFFICIENT_BALANCE
  sequenceCheck : validation.sequenceCheck = false → .txBAD_SEQ ∈ codes → start

namespace HeedsSwitches

variable {validation : ValidationOptions} {start : Prop} {codes : List TxResultCode}
  {opCode : Option OpCode}

theorem nil (hop : opCode ≠ some .opBAD_AUTH) : HeedsSwitches validation start [] opCode :=
  ⟨fun _ => ⟨hop, by simp⟩, fun _ => by simp, fun _ => by simp, fun _ => by simp⟩

/-- The codes of an application that was not rejected, and of a fee bump,
belong to no switch. -/
theorem cons {code : TxResultCode} (h : HeedsSwitches validation start codes opCode)
    (hcode : code ∈ [.txSUCCESS, .txFAILED, .txFEE_BUMP_INNER_SUCCESS, .txFEE_BUMP_INNER_FAILED]) :
    HeedsSwitches validation start (code :: codes) opCode := by
  simp only [List.mem_cons, List.not_mem_nil, or_false] at hcode
  refine ⟨fun hoff => ⟨(h.sigverify hoff).1, List.forall_mem_cons.mpr ⟨?_, (h.sigverify hoff).2⟩⟩,
    fun hoff => List.forall_mem_cons.mpr ⟨?_, h.timebounds hoff⟩,
    fun hoff => List.forall_mem_cons.mpr ⟨?_, h.feeCharging hoff⟩,
    fun hoff hmem => h.sequenceCheck hoff ?_⟩
  · rcases hcode with rfl | rfl | rfl | rfl <;> decide
  · rcases hcode with rfl | rfl | rfl | rfl <;> decide
  · rcases hcode with rfl | rfl | rfl | rfl <;> decide
  · rcases List.mem_cons.mp hmem with rfl | hmem
    · simp at hcode
    · exact hmem

end HeedsSwitches

/-- A verdict comes with the switch that is on for it. -/
theorem Verdict.heeds {validation : ValidationOptions} {start : Prop} {code : TxResultCode}
    {opCode : Option OpCode} (h : Verdict validation start code opCode) :
    HeedsSwitches validation start [code] opCode := by
  refine ⟨fun hoff => ?_, fun hoff => ?_, fun hoff => ?_, fun hoff hmem => ?_⟩
  · cases h <;> simp_all
  · cases h <;> simp_all
  · cases h <;> simp_all
  · cases h <;> simp_all

/-- What the operation of a transaction answers. -/
theorem runOperation_codes {d : Deps} {v : Validated} {cap : Option Int}
    {ledger ledger' : Ledger} {op : Operated}
    (h : runOperation d v cap ledger = .ok op ledger') :
    op.outcome.code ∈ [.txSUCCESS, .txFAILED] ∧ op.outcome.innerCode = none ∧
      op.outcome.opCode ≠ some .opBAD_AUTH := by
  rcases runOperation_answers h with rfl | ⟨arms, applied, rfl⟩ | ⟨_, sent, _, -, rfl⟩
  · simp [opNoAccount, Operated.failed]
  · unfold footprintOperated
    split <;> simp [Operated.failed]
  · unfold invokeOperated
    cases sent.ok <;> simp

/-- The codes of a transaction that was accepted belong to no switch. -/
theorem Accepted.heeds {d : Deps} {ledger ledger' l₁ l₂ : Ledger} {envelope : TransactionEnvelope}
    {passphrase : String} {validation : ValidationOptions} {outcome : TxOutcome}
    {a : Application} {v : Validated} {op : Operated}
    (h : Accepted d ledger envelope passphrase validation outcome ledger' a v l₁ l₂ op)
    (start : Prop) : HeedsSwitches validation start outcome.codes outcome.opCode := by
  obtain ⟨inner, hsettle, rfl⟩ := h.settled
  obtain ⟨hcode, hinnerCode, hop⟩ := runOperation_codes h.operated
  have hrejected := runOperation_rejected h.operated
  have hinner : inner.code = op.outcome.code ∧ inner.innerCode = op.outcome.innerCode ∧
      inner.opCode = op.outcome.opCode ∧ inner.rejected = op.outcome.rejected := by
    cases hcharge : a.charge with
    | none =>
      rw [hcharge] at hsettle
      obtain ⟨rfl, -⟩ := settle_none hsettle
      exact ⟨rfl, rfl, rfl, rfl⟩
    | some charge =>
      rw [hcharge] at hsettle
      obtain ⟨-, rfl⟩ := settle_some hsettle
      exact ⟨rfl, rfl, rfl, rfl⟩
  obtain ⟨hcode', hinnerCode', hop', hrejected'⟩ := hinner
  have hsame : inner.codes = [inner.code] := by
    rw [TxOutcome.codes, hinnerCode', hinnerCode]
    rfl
  have hmem : inner.code ∈ [.txSUCCESS, .txFAILED, .txFEE_BUMP_INNER_SUCCESS,
      .txFEE_BUMP_INNER_FAILED] := by
    rw [hcode']
    exact List.mem_append_left _ hcode
  have hplain : HeedsSwitches validation start [inner.code] inner.opCode :=
    .cons (.nil (hop' ▸ hop)) hmem
  split
  · rw [hrejected] at hrejected'
    unfold bumpOutcome TxOutcome.codes
    rw [hrejected']
    refine hplain.cons ?_
    cases inner.ok <;> simp
  · rw [hsame]
    exact hplain

/-- A rejection by `applyInner` keeps its code inside a fee bump. -/
theorem TxOutcome.Judged.heeds {validation : ValidationOptions} {start : Prop} {inner : TxOutcome}
    (h : inner.Judged validation start) (bumped : Bool) :
    HeedsSwitches validation start (if bumped then bumpOutcome inner else inner).codes
      (if bumped then bumpOutcome inner else inner).opCode := by
  cases bumped with
  | false =>
    simp only [Bool.false_eq_true, if_false, TxOutcome.codes, h.innerCode]
    exact h.verdict.heeds
  | true =>
    simp only [if_true, bumpOutcome, h.rejected, TxOutcome.codes]
    exact h.verdict.heeds.cons (by simp)

theorem seedFee_codes (envelope : TransactionEnvelope) (outcome : TxOutcome) :
    (seedFee envelope outcome).codes = outcome.codes ∧
      (seedFee envelope outcome).opCode = outcome.opCode := by
  unfold seedFee
  split
  · exact ⟨rfl, rfl⟩
  · exact ⟨rfl, rfl⟩

/-- The sequence number of an envelope's transaction is the one
`CreateAccount` would hand out now. -/
def StartsSequence (ledger : Ledger) (envelope : TransactionEnvelope) : Prop :=
  ∃ raw, envelope.innerTx? = some raw ∧ raw.seqNum = ledger.ledgerSeq * 2 ^ 32

/-- Whatever the outcome is, its codes heed the switches. -/
theorem applyTransaction_heeds {d : Deps} {ledger ledger' : Ledger}
    {envelope : TransactionEnvelope} {passphrase : String} {validation : ValidationOptions}
    {outcome : TxOutcome}
    (h : applyTransaction d envelope passphrase validation ledger = .ok outcome ledger') :
    HeedsSwitches validation (StartsSequence ledger envelope) outcome.codes outcome.opCode := by
  cases hrejected : outcome.rejected with
  | false =>
    rcases applyTransaction_ok h with ⟨hmarked, -⟩ | ⟨-, a, v, l₁, l₂, op, haccepted⟩
    · rw [hrejected] at hmarked
      cases hmarked
    · exact haccepted.heeds _
  | true =>
    rcases applyTransaction_rejected h hrejected with ⟨o, happ, rfl⟩ | ⟨a, inner, happ, hval, rfl⟩
    · rw [(seedFee_codes envelope o).1, (seedFee_codes envelope o).2]
      have hjudged := (envelopeApplication_rejectsAs d ledger envelope passphrase validation
        (StartsSequence ledger envelope)).carries o happ
      exact hjudged.heeds false
    · rw [(seedFee_codes envelope _).1, (seedFee_codes envelope _).2]
      have hunwrapped := envelopeApplication_ok happ
      have hjudged := (validate_rejectsAs d ledger hunwrapped.charging).carries inner hval
      rw [hunwrapped.switches] at hjudged
      have hstart : inner.Judged validation (StartsSequence ledger envelope) :=
        hjudged.mono fun heq => ⟨a.raw, hunwrapped.innerTx, heq⟩
      exact hstart.heeds a.feeBumped

/-- Turning checks off never makes an application fail that did not, and a
check that is off is never the verdict.

A check that is off does not throw either: the price of the declared resources
is the one thing that can be missing, and a `Ledger` installs its fee settings
when it is made. -/
theorem applyTransaction_switches (d : Deps) (ledger : Ledger) (envelope : TransactionEnvelope)
    (passphrase : String) {strict lax : ValidationOptions} (hlax : lax.LaxerThan strict) :
    (ledger.env.feeSettings.isSome →
      ¬ Rejects (applyTransaction d envelope passphrase strict ledger) →
      ¬ Rejects (applyTransaction d envelope passphrase lax ledger)) ∧
    (∀ outcome ledger', applyTransaction d envelope passphrase strict ledger = .ok outcome ledger' →
      outcome.rejected = false →
      ¬ Rejects (applyTransaction d envelope passphrase lax ledger)) ∧
    ∀ outcome ledger', applyTransaction d envelope passphrase lax ledger = .ok outcome ledger' →
      HeedsSwitches lax (StartsSequence ledger envelope) outcome.codes outcome.opCode := by
  refine ⟨fun hsettings hstrict => ?_, fun outcome ledger' hstrict haccepted => ?_,
    fun outcome ledger' h => applyTransaction_heeds h⟩
  · rw [not_rejects_iff] at hstrict ⊢
    exact hstrict.imp (ChecksPass.of_laxer hlax) (ChecksThrow.of_laxer hsettings hlax)
  · rw [not_rejects_iff]
    rcases applyTransaction_ok hstrict with ⟨hmarked, -⟩ | ⟨-, a, v, _, _, _, hstages⟩
    · rw [haccepted] at hmarked
      cases hmarked
    · exact .inl (ChecksPass.of_laxer hlax ⟨a, v, hstages.application, hstages.validated⟩)

/-- An envelope that passes every check, sent again with the four switches
off. -/
theorem applyTransaction_switches_off :
    ¬ Rejects (applyTransaction .idle (.envelopeTypeTx (sampleEnvelope 7 1 none)) ""
      ⟨false, false, false, false⟩ (sampleLedger 7)) ∧
    ∀ outcome ledger', applyTransaction .idle (.envelopeTypeTx (sampleEnvelope 7 1 none)) ""
      ⟨false, false, false, false⟩ (sampleLedger 7) = .ok outcome ledger' →
      HeedsSwitches ⟨false, false, false, false⟩
        (StartsSequence (sampleLedger 7) (.envelopeTypeTx (sampleEnvelope 7 1 none)))
        outcome.codes outcome.opCode := by
  have hlax : ValidationOptions.LaxerThan ⟨false, false, false, false⟩ {} :=
    ⟨by decide, by decide, by decide, by decide⟩
  have hstrict : ¬ Rejects (applyTransaction .idle (.envelopeTypeTx (sampleEnvelope 7 1 none)) ""
      {} (sampleLedger 7)) := by
    rintro ⟨outcome, ledger', hrun, hrejected⟩
    cases hrun
    cases hrejected
  obtain ⟨hmono, -, hheeds⟩ := applyTransaction_switches .idle (sampleLedger 7)
    (.envelopeTypeTx (sampleEnvelope 7 1 none)) "" hlax
  exact ⟨hmono rfl hstrict, hheeds⟩

end LiteSoroban

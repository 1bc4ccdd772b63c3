import LiteSoroban.Classic.Atomicity

/-!
# Which rejection wins

Several checks may fail at once, and the code that is reported is decided by
their order alone.  The checks before the sequence number read no account, so
what they say must be the same on every ledger with the same clock and the
same settings.

They keep to that but for one.  The inclusion fee belongs to the first stage
and is checked in the last, so an envelope that bids too little is told so only
where its account lets it through.  `applyTransaction_precedence` says for
which envelopes and ledgers the order shows.
-/

namespace LiteSoroban

/-- The codes of the checks before the sequence number. -/
def TxResultCode.preSequence : List TxResultCode :=
  [.txMALFORMED, .txMISSING_OPERATION, .txSOROBAN_INVALID, .txTOO_EARLY, .txTOO_LATE,
    .txINSUFFICIENT_FEE]

/-- Two ledgers with one clock and the same settings, and any two stores. -/
structure Ledger.SameSettings (ledger other : Ledger) : Prop where
  ledgerSeq : other.ledgerSeq = ledger.ledgerSeq
  timestamp : other.timestamp = ledger.timestamp
  fees : other.fees = ledger.fees
  feeSettings : other.env.feeSettings = ledger.env.feeSettings

/-- The envelope is rejected with the code. -/
def RejectedWith (code : TxResultCode) (result : EStateM.Result JsError Ledger TxOutcome) : Prop :=
  ∃ outcome ledger, result = .ok outcome ledger ∧ outcome.rejected = true ∧ outcome.code = code

/-- The account checks let the transaction through. -/
def Ledger.Admits (d : Deps) (ledger : Ledger) (a : Application) (op : Operation) : Prop :=
  ∃ checked, accountChecks d ledger a op = .ok checked

/-- The inclusion fee of a plain transaction is below the base fee. -/
def Application.Underbids (a : Application) (s : Shaped) : Prop :=
  a.raw.fee - s.sorobanData.resourceFee < baseFee

/-! ## The first stage -/

theorem boundsProblem_congr {ledger other : Ledger} (h : ledger.SameSettings other)
    (raw : Transaction) : boundsProblem other raw = boundsProblem ledger raw := by
  simp only [boundsProblem, h.ledgerSeq, h.timestamp]

theorem checkDeclaredFee_congr (d : Deps) {ledger other : Ledger} (h : ledger.SameSettings other)
    (a : Application) (s : Shaped) :
    checkDeclaredFee d other a s = checkDeclaredFee d ledger a s := by
  simp only [checkDeclaredFee, Ledger.computeResourceFee, SorobanEnv.computeResourceFee,
    SorobanEnv.fees, h.feeSettings]

/-- The first stage reads no account. -/
theorem preSequenceChecks_congr (d : Deps) {ledger other : Ledger} (h : ledger.SameSettings other)
    (a : Application) : preSequenceChecks d other a = preSequenceChecks d ledger a := by
  simp only [preSequenceChecks, checkBounds, boundsProblem_congr h, checkDeclaredFee_congr d h,
    h.fees]

/-! ## What `validate` rejects with -/

section Stages

variable {d : Deps} {ledger : Ledger} {a : Application} {s : Shaped} {nonRefundable : Int}

/-- What stops the first stage stops the checks. -/
theorem validate_of_preSequence_error {stop : Stop}
    (h : preSequenceChecks d ledger a = .error stop) : validate d ledger a = .error stop := by
  rw [validate_eq, h]
  rfl

/-- What stops the account checks stops the checks. -/
theorem validate_of_account_error {stop : Stop}
    (hpre : preSequenceChecks d ledger a = .ok (s, nonRefundable))
    (h : accountChecks d ledger a s.op = .error stop) : validate d ledger a = .error stop := by
  rw [validate_eq, hpre]
  simp only [bind, Except.bind, h]

/-- A transaction that underbids is rejected for it once its account lets it
through. -/
theorem validate_of_underbids (hplain : a.feeBumped = false)
    (hpre : preSequenceChecks d ledger a = .ok (s, nonRefundable))
    (hadmits : ledger.Admits d a s.op) (hunder : a.Underbids s) :
    ∃ outcome, validate d ledger a = .error (.reject outcome) ∧
      outcome.code = .txINSUFFICIENT_FEE := by
  obtain ⟨checked, haccount⟩ := hadmits
  rw [Application.Underbids] at hunder
  obtain ⟨text, hfees⟩ : ∃ text, checkFees ledger a s =
      .error (.reject (fail .txINSUFFICIENT_FEE (some text) 0)) := by
    simp only [checkFees, hplain, Bool.not_false, Bool.true_and, decide_eq_true_eq, if_pos hunder]
    exact ⟨_, rfl⟩
  refine ⟨fail .txINSUFFICIENT_FEE (some text) 0, ?_, rfl⟩
  rw [validate_eq, hpre]
  simp only [bind, Except.bind, haccount, hfees]

/-- A rejection with one of some late codes has no early one. -/
theorem TxOutcome.Rejection.late {codes : List TxResultCode} {opCode : Option OpCode}
    {outcome : TxOutcome} (h : outcome.Rejection codes opCode)
    (hcodes : ∀ code ∈ codes, code ∉ TxResultCode.preSequence) :
    outcome.code ∉ TxResultCode.preSequence :=
  hcodes _ h.code

/-- A rejection by an account check has none of the early codes. -/
theorem accountChecks_late {op : Operation} {outcome : TxOutcome}
    (h : accountChecks d ledger a op = .error (.reject outcome)) :
    outcome.code ∉ TxResultCode.preSequence := by
  rcases (accountChecks_rejectsAs d ledger a op).carries outcome h with
    h | ⟨-, h⟩ | ⟨-, h⟩ | ⟨-, h⟩ <;> exact h.late (by decide)

/-- Once the fee is enough, only the first stage rejects with an early code. -/
theorem validate_late (hpre : preSequenceChecks d ledger a = .ok (s, nonRefundable))
    (hbids : ¬a.Underbids s) {outcome : TxOutcome}
    (h : validate d ledger a = .error (.reject outcome)) :
    outcome.code ∉ TxResultCode.preSequence := by
  have hrejects : (validate d ledger a).RejectsAs
      fun outcome => outcome.code ∉ TxResultCode.preSequence := by
    rw [validate_eq, hpre]
    refine .bind (.ok _) fun stage hstage => ?_
    cases hstage
    refine .bind ⟨fun _ => accountChecks_late⟩ fun (src, checker) _ =>
      .bind ((checkFees_rejectsAs ..).mono ?_) fun _ _ =>
      .bind ((operationChecks_rejectsAs ..).mono ?_) fun _ _ => .ok _
    · rintro outcome (⟨hunder, -⟩ | ⟨-, h⟩)
      · exact absurd hunder.2 hbids
      · exact h.late (by decide)
    · rintro outcome (⟨-, h⟩ | h | ⟨-, h⟩) <;> exact h.late (by decide)
  exact hrejects.carries outcome h

end Stages

/-! ## Plain envelopes -/

/-- A plain envelope that reaches `applyInner` is rejected with what `validate`
rejects with. -/
theorem rejectedWith_plain {d : Deps} {v1 : TransactionV1Envelope} {passphrase : String}
    {validation : ValidationOptions} {a : Application}
    (happ : plainApplication d passphrase validation v1 = .ok a) (ledger : Ledger)
    (code : TxResultCode) :
    RejectedWith code (applyTransaction d (.envelopeTypeTx v1) passphrase validation ledger) ↔
      ∃ outcome, validate d ledger a = .error (.reject outcome) ∧ outcome.code = code := by
  have henvelope : envelopeApplication d ledger (.envelopeTypeTx v1) passphrase validation =
      .ok a := happ
  have hplain : a.feeBumped = false := (plainApplication_ok happ).1.feeBumped
  constructor
  · rintro ⟨outcome, ledger', happly, hrejected, rfl⟩
    rcases applyTransaction_rejected happly hrejected with
      ⟨o, hstop, -⟩ | ⟨a', inner, hok, hval, rfl⟩
    · rw [henvelope] at hstop
      cases hstop
    · rw [henvelope] at hok
      cases hok
      exact ⟨inner, hval, by simp [hplain]⟩
  · rintro ⟨outcome, hval, rfl⟩
    have hrejected := ((validate_rejects (plainApplication_ok happ).1).marked outcome hval).1
    refine ⟨seedFee (.envelopeTypeTx v1) outcome, ledger, ?_, by rw [seedFee_rejected, hrejected],
      by rw [seedFee_code]⟩
    simp [applyTransaction_eq, henvelope, hval, hplain]

/-- The order of the checks shows on a pair of ledgers exactly when the
envelope passes the first stage, underbids, and is let through by its account
on the first ledger and not on the second. -/
theorem applyTransaction_precedence (d : Deps) (v1 : TransactionV1Envelope) (passphrase : String)
    (validation : ValidationOptions) {ledger other : Ledger} (hsame : ledger.SameSettings other) :
    (∀ code ∈ TxResultCode.preSequence,
      RejectedWith code (applyTransaction d (.envelopeTypeTx v1) passphrase validation ledger) →
      RejectedWith code (applyTransaction d (.envelopeTypeTx v1) passphrase validation other)) ↔
    ∀ a s nonRefundable, plainApplication d passphrase validation v1 = .ok a →
      preSequenceChecks d ledger a = .ok (s, nonRefundable) → a.Underbids s →
      ledger.Admits d a s.op → other.Admits d a s.op := by
  constructor
  · intro hcarries a s nonRefundable happ hpre hunder hadmits
    have hplain : a.feeBumped = false := (plainApplication_ok happ).1.feeBumped
    obtain ⟨outcome, hval, hcode⟩ := validate_of_underbids hplain hpre hadmits hunder
    have hother := hcarries .txINSUFFICIENT_FEE (by decide)
      ((rejectedWith_plain happ ledger _).mpr ⟨outcome, hval, hcode⟩)
    obtain ⟨outcome', hval', hcode'⟩ := (rejectedWith_plain happ other _).mp hother
    rw [← preSequenceChecks_congr d hsame] at hpre
    cases haccount : accountChecks d other a s.op with
    | ok checked => exact ⟨checked, haccount⟩
    | error stop =>
      rw [validate_of_account_error hpre haccount] at hval'
      cases hval'
      exact absurd (hcode' ▸ by decide) (accountChecks_late haccount)
  · intro hunder code hcode hrejected
    cases happ : plainApplication d passphrase validation v1 with
    | error stop =>
      have henvelope : ∀ l, envelopeApplication d l (.envelopeTypeTx v1) passphrase validation =
          .error stop := fun _ => happ
      obtain ⟨outcome, _, happly, hmarked⟩ := hrejected
      rw [applyTransaction_eq, henvelope] at happly
      cases stop with
      | throws e => cases happly
      | reject o =>
        cases happly
        exact ⟨_, other, by rw [applyTransaction_eq, henvelope], hmarked⟩
    | ok a =>
      have hplain : a.feeBumped = false := (plainApplication_ok happ).1.feeBumped
      obtain ⟨outcome, hval, rfl⟩ := (rejectedWith_plain happ ledger _).mp hrejected
      refine (rejectedWith_plain happ other _).mpr ?_
      cases hpre : preSequenceChecks d ledger a with
      | error stop =>
        rw [validate_of_preSequence_error hpre] at hval
        cases hval
        rw [← preSequenceChecks_congr d hsame] at hpre
        exact ⟨outcome, validate_of_preSequence_error hpre, rfl⟩
      | ok stage =>
        obtain ⟨s, nonRefundable⟩ := stage
        by_cases hbids : a.Underbids s
        · cases haccount : accountChecks d ledger a s.op with
          | error stop =>
            rw [validate_of_account_error hpre haccount] at hval
            cases hval
            exact absurd hcode (accountChecks_late haccount)
          | ok checked =>
            have hadmits : ledger.Admits d a s.op := ⟨checked, haccount⟩
            obtain ⟨outcome₁, hval₁, hcode₁⟩ := validate_of_underbids hplain hpre hadmits hbids
            have hother := hunder a s nonRefundable happ hpre hbids hadmits
            rw [← preSequenceChecks_congr d hsame] at hpre
            obtain ⟨outcome₂, hval₂, hcode₂⟩ := validate_of_underbids hplain hpre hother hbids
            rw [hval] at hval₁
            cases hval₁
            exact ⟨outcome₂, hval₂, hcode₂.trans hcode₁.symm⟩
        · exact absurd hcode (validate_late hpre hbids hval)

/-! ## A cheap envelope and its account -/

/-- A bid of one stroop less than the base fee. -/
def cheapEnvelope : TransactionV1Envelope :=
  let v1 := sampleEnvelope 7 1 none
  { v1 with tx := { v1.tx with fee := 99 } }

theorem sampleLedger_sameSettings (seed : UInt8) :
    (sampleLedger seed).SameSettings emptyLedger :=
  ⟨rfl, rfl, rfl, rfl⟩

/-- An envelope whose time has passed. -/
def lateEnvelope : TransactionV1Envelope :=
  let v1 := sampleEnvelope 7 1 none
  { v1 with tx := { v1.tx with cond := .precondTime ⟨0, 1⟩ } }

theorem applyTransaction_precedence_late :
    RejectedWith .txTOO_LATE
      (applyTransaction .idle (.envelopeTypeTx lateEnvelope) "" {} emptyLedger) := by
  refine (applyTransaction_precedence .idle lateEnvelope "" {}
    (sampleLedger_sameSettings 7)).mpr ?_ .txTOO_LATE (by decide) ⟨_, _, rfl, rfl, rfl⟩
  intro a s nonRefundable happ hpre
  cases happ
  cases hpre

/-- The same envelope is told of its fee where its source exists, and of its
source where it does not. -/
theorem cheap_envelope_hidden :
    (sampleLedger 7).SameSettings emptyLedger ∧
    RejectedWith .txINSUFFICIENT_FEE
      (applyTransaction .idle (.envelopeTypeTx cheapEnvelope) "" {} (sampleLedger 7)) ∧
    RejectedWith .txNO_ACCOUNT
      (applyTransaction .idle (.envelopeTypeTx cheapEnvelope) "" {} emptyLedger) ∧
    ¬ RejectedWith .txINSUFFICIENT_FEE
      (applyTransaction .idle (.envelopeTypeTx cheapEnvelope) "" {} emptyLedger) := by
  refine ⟨sampleLedger_sameSettings 7, ⟨_, _, rfl, rfl, rfl⟩, ⟨_, _, rfl, rfl, rfl⟩, ?_⟩
  rintro ⟨outcome, ledger, happly, -, hcode⟩
  cases happly
  cases hcode

end LiteSoroban

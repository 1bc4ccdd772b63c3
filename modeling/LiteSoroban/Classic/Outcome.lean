import LiteSoroban.Classic.Signatures

/-!
# Outcomes

`TxOutcome` of `src/classic.ts`, the switches of a validation, and the two
ways a check ends an application early.
-/

namespace LiteSoroban

/-- `TxResultCode`. -/
inductive TxResultCode where
  | txSUCCESS
  | txFAILED
  | txNO_ACCOUNT
  | txBAD_SEQ
  | txBAD_AUTH
  | txBAD_AUTH_EXTRA
  | txTOO_EARLY
  | txTOO_LATE
  | txBAD_MIN_SEQ_AGE_OR_GAP
  | txMISSING_OPERATION
  | txMALFORMED
  | txSOROBAN_INVALID
  | txINSUFFICIENT_FEE
  | txINSUFFICIENT_BALANCE
  | txFEE_BUMP_INNER_SUCCESS
  | txFEE_BUMP_INNER_FAILED
  deriving DecidableEq

inductive OpCode where
  | opBAD_AUTH
  | opNO_ACCOUNT
  deriving DecidableEq

inductive FootprintOpResult where
  | extendFootprintTtlSuccess
  | extendFootprintTtlMalformed
  | extendFootprintTtlResourceLimitExceeded
  | extendFootprintTtlInsufficientRefundableFee
  | restoreFootprintSuccess
  | restoreFootprintMalformed
  | restoreFootprintResourceLimitExceeded
  | restoreFootprintInsufficientRefundableFee
  deriving DecidableEq

/-- The Soroban part of the fee charged.  `refundable` includes `rent`. -/
structure SorobanFee where
  nonRefundable : Int
  refundable : Int
  rent : Int
  deriving DecidableEq

/-- `TxOutcome`.  `unseeded` is membership in the `WeakSet` of that name: a
rejection made before a result is seeded, which keeps its zero fee. -/
structure TxOutcome where
  code : TxResultCode
  ok : Bool
  returnValue : Option (Encoded ScVal) := none
  events : Option (List (Encoded ContractEvent)) := none
  changedKeys : Option (List LedgerKey) := none
  removedKeys : Option (List LedgerKey) := none
  feeCharged : Int
  sorobanFee : Option SorobanFee := none
  invokeResult : Option InvokeResult := none
  innerCode : Option TxResultCode := none
  error : Option String := none
  detail : Option String := none
  diagnosticEvents : Option (List DiagnosticEvent) := none
  rejected : Bool := false
  opCode : Option OpCode := none
  footprintOpResult : Option FootprintOpResult := none
  unseeded : Bool := false
  deriving DecidableEq

/-- `ValidationOptions`.  Every switch is on by default. -/
structure ValidationOptions where
  sigverify : Bool := true
  sequenceCheck : Bool := true
  feeCharging : Bool := true
  timebounds : Bool := true
  deriving DecidableEq

/-- `fail`: a validation rejection, with nothing in the ledger changed. -/
def fail (code : TxResultCode) (detail : Option String) (feeCharged : Int) : TxOutcome where
  code := code
  ok := false
  feeCharged := feeCharged
  detail := detail
  rejected := true

/-- `malformed`: a rejection made before a result is seeded. -/
def malformed (detail : String) : TxOutcome :=
  { fail .txMALFORMED (some detail) 0 with unseeded := true }

/-- How a check ends an application before it commits: it rejects the
envelope, or it throws. -/
inductive Stop where
  | reject (outcome : TxOutcome)
  | throws (e : JsError)

/-- A check that stops at the first problem, having written nothing. -/
abbrev Check := Except Stop

/-- Reject with a code and a text. -/
def Check.reject {α : Type} (code : TxResultCode) (detail : String) : Check α :=
  .error (.reject (fail code (some detail) 0))

/-- A call that may throw, inside a check. -/
def Check.ofExcept {α : Type} : Except JsError α → Check α
  | .ok a => .ok a
  | .error e => .error (.throws e)

/-- Reject with a code when there is a problem to report. -/
def Check.problem (code : TxResultCode) : Option String → Check Unit
  | none => .ok ()
  | some detail => Check.reject code detail

/-! ## Rejections -/

/-- Every rejection of a check is marked as one. -/
structure Check.Rejects {α : Type} (x : Check α) : Prop where
  marked : ∀ outcome, x = .error (.reject outcome) → outcome.rejected = true ∧ outcome.ok = false

/-- A rejection with one of the codes, and with that operation code. -/
structure TxOutcome.Rejection (codes : List TxResultCode) (opCode : Option OpCode)
    (outcome : TxOutcome) : Prop where
  rejected : outcome.rejected = true
  ok : outcome.ok = false
  innerCode : outcome.innerCode = none
  code : outcome.code ∈ codes
  opCode : outcome.opCode = opCode

theorem fail_rejection {codes : List TxResultCode} {code : TxResultCode} (hcode : code ∈ codes)
    (detail : Option String) (feeCharged : Int) :
    (fail code detail feeCharged).Rejection codes none :=
  ⟨rfl, rfl, rfl, hcode, rfl⟩

theorem malformed_rejection {codes : List TxResultCode} (hcode : .txMALFORMED ∈ codes)
    (detail : String) : (malformed detail).Rejection codes none :=
  ⟨rfl, rfl, rfl, hcode, rfl⟩

/-- Every rejection of a check is a `P`. -/
structure Check.RejectsAs {α : Type} (P : TxOutcome → Prop) (x : Check α) : Prop where
  carries : ∀ outcome, x = .error (.reject outcome) → P outcome

namespace Check.RejectsAs

variable {α β : Type} {P Q : TxOutcome → Prop}

theorem mono {x : Check α} (h : RejectsAs P x) (hPQ : ∀ outcome, P outcome → Q outcome) :
    RejectsAs Q x :=
  ⟨fun outcome hx => hPQ outcome (h.carries outcome hx)⟩

theorem rejects {x : Check α} (h : RejectsAs P x)
    (hmarked : ∀ outcome, P outcome → outcome.rejected = true ∧ outcome.ok = false) :
    x.Rejects :=
  ⟨(h.mono hmarked).carries⟩

theorem ok (a : α) : RejectsAs P (.ok a : Check α) := by
  refine ⟨fun outcome h => ?_⟩
  cases h

theorem error {outcome : TxOutcome} (houtcome : P outcome) :
    RejectsAs P (.error (.reject outcome) : Check α) := by
  refine ⟨fun outcome' h => ?_⟩
  cases h
  exact houtcome

theorem ofExcept (x : Except JsError α) : RejectsAs P (Check.ofExcept x) := by
  refine ⟨fun outcome h => ?_⟩
  cases x <;> cases h

/-- A problem to report is rejected with its code. -/
theorem problem {code : TxResultCode} {detail : Option String}
    (h : ∀ text, detail = some text → P (fail code (some text) 0)) :
    RejectsAs P (Check.problem code detail) := by
  cases detail with
  | none => exact ok ()
  | some text => exact error (h text rfl)

theorem bind {x : Check α} {f : α → Check β} (hx : RejectsAs P x)
    (hf : ∀ a, x = .ok a → RejectsAs P (f a)) : RejectsAs P (x >>= f) := by
  refine ⟨fun outcome h => ?_⟩
  cases x with
  | error stop =>
    cases h
    exact hx.carries outcome rfl
  | ok a => exact (hf a rfl).carries outcome h

theorem ite {p : Prop} [Decidable p] {x y : Check α} (hx : p → RejectsAs P x)
    (hy : ¬p → RejectsAs P y) : RejectsAs P (if p then x else y) := by
  split
  · next h => exact hx h
  · next h => exact hy h

end Check.RejectsAs

theorem Check.ofExcept_eq_ok {α : Type} {x : Except JsError α} {a : α} :
    Check.ofExcept x = .ok a ↔ x = .ok a := by
  cases x <;> simp [Check.ofExcept]

theorem Check.problem_eq_ok {code : TxResultCode} {detail : Option String} {u : Unit} :
    Check.problem code detail = .ok u ↔ detail = none := by
  cases detail <;> simp [Check.problem, Check.reject]

end LiteSoroban

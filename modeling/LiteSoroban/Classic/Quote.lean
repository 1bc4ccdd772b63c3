import LiteSoroban.Env.HostContract
import LiteSoroban.Xdr.Size
import LiteSoroban.Classic.Atomicity

/-!
# The quote covers the submission

A simulation quotes a resource fee before there is an envelope, so it prices
the operation in the largest envelope it could travel in, with room on top.
The submission prices the envelope that came.

`quote_covers` says that the first price is never below the second.  Three
things meet in it: the size of the quoted envelope bounds the size of every
envelope around the operation, each declared resource is at most the quoted
one, and the part of the fee that only the quote has is not negative.
-/

namespace LiteSoroban

/-! ## Resources and their prices -/

/-- No resource is above the other's. -/
structure TransactionResources.AtMost (r bound : TransactionResources) : Prop where
  instructions : r.instructions ≤ bound.instructions
  diskReadEntries : r.diskReadEntries ≤ bound.diskReadEntries
  writeEntries : r.writeEntries ≤ bound.writeEntries
  diskReadBytes : r.diskReadBytes ≤ bound.diskReadBytes
  writeBytes : r.writeBytes ≤ bound.writeBytes
  contractEventsSizeBytes : r.contractEventsSizeBytes ≤ bound.contractEventsSizeBytes
  transactionSizeBytes : r.transactionSizeBytes ≤ bound.transactionSizeBytes

/-- Under the environment's fee settings more of a resource never costs less. -/
structure SorobanEnv.PricesMonotone (d : Deps) (env : SorobanEnv) : Prop where
  resources : ∀ settings, env.feeSettings = some settings → ∀ r bound, r.AtMost bound →
    (d.computeTransactionResourceFee r settings.feeConfiguration).1 ≤
        (d.computeTransactionResourceFee bound settings.feeConfiguration).1 ∧
      (d.computeTransactionResourceFee r settings.feeConfiguration).2 ≤
        (d.computeTransactionResourceFee bound settings.feeConfiguration).2

/-- The encoder writes XDR: an envelope within the declared limits has the
length its parts add up to. -/
structure Deps.SizesXdr (d : Deps) : Prop where
  envelopeSize : ∀ v1 : TransactionV1Envelope, v1.FitsXdr →
    d.envelopeSize v1 = v1.xdrSize d.keySize

/-! ## Saturation -/

/-- A sum that did not saturate is at least the exact sum. -/
theorem add_le_saturatingAddI64 {a b : Int} (h : saturatingAddI64 a b < 2 ^ 63 - 1) :
    a + b ≤ saturatingAddI64 a b := by
  unfold saturatingAddI64 at h ⊢
  omega

theorem le_adjustI64 (d : Deps) (factor : AdjustmentFactor) {value : Int} (additive : Nat)
    (hword : value ≤ 2 ^ 63 - 1) : value ≤ adjustI64 d factor value additive := by
  unfold adjustI64
  split
  · next hzero =>
    rw [hzero]
  · exact le_max_of_le_left (le_saturatingAddI64 (Int.natCast_nonneg additive) hword)

theorem saturatingAddI64_le (a b : Int) : saturatingAddI64 a b ≤ 2 ^ 63 - 1 := by
  unfold saturatingAddI64
  omega

/-- Room on top of a size that is not nothing. -/
theorem le_adjust32 (d : Deps) (factor : AdjustmentFactor) {size value additive : Nat}
    (hsize : size ≤ u32Max) (hle : size ≤ value + additive) (hvalue : 0 < value) :
    size ≤ adjust32 d factor value additive := by
  unfold adjust32
  rw [if_neg hvalue.ne']
  exact le_max_of_le_left (le_min hle hsize)

/-- The quote holds the non-refundable part and the refundable part in full. -/
theorem quoted_sum_le (d : Deps) {nonRefundable refundable rent : Int}
    (hnonRefundable : 0 ≤ nonRefundable) (hrent : 0 ≤ rent)
    (hword : saturatingAddI64 nonRefundable
      (adjustI64 d .refundable115 (saturatingAddI64 refundable rent) 0) < 2 ^ 63 - 1) :
    nonRefundable + refundable ≤ saturatingAddI64 nonRefundable
      (adjustI64 d .refundable115 (saturatingAddI64 refundable rent) 0) := by
  have hsum := add_le_saturatingAddI64 hword
  have hadjusted := le_adjustI64 d .refundable115 0 (saturatingAddI64_le refundable rent)
  -- the refundable part did not saturate either, since it is below the whole
  have hpart : saturatingAddI64 refundable rent < 2 ^ 63 - 1 := by
    omega
  have hrefunded := add_le_saturatingAddI64 hpart
  omega

/-! ## The quoted envelope -/

theorem estimateMaxTransactionSize_eq (d : Deps) (operation : OperationBody)
    (footprint : LedgerFootprint) (restored : List Nat) :
    estimateMaxTransactionSize d operation footprint restored =
      if d.envelopeSize (maxEnvelope operation footprint restored) ≤ u32Max then
        .ok (d.envelopeSize (maxEnvelope operation footprint restored))
      else .error "out of range integral type conversion attempted" :=
  rfl

theorem maxEnvelope_fitsXdr (operation : OperationBody) (footprint : LedgerFootprint)
    (restored : List Nat) : (maxEnvelope operation footprint restored).FitsXdr where
  cond := by simp [maxEnvelope, Preconditions.FitsXdr, SignerKey.FitsXdr]
  memo := by simp [maxEnvelope, Memo.FitsXdr]
  signatures := by simp [maxEnvelope]
  signature := by simp [maxEnvelope]

theorem maxEnvelope_xdrSize (keySize : LedgerKey → Nat) (operation : OperationBody)
    (footprint : LedgerFootprint) (restored : List Nat) :
    (maxEnvelope operation footprint restored).xdrSize keySize =
      44 + 4 + 8 + 272 + 36 + (4 + (48 + operation.xdrSize)) +
        (maxEnvelope operation footprint restored).tx.ext.xdrSize keySize + (4 + 20 * 72) := by
  simp [maxEnvelope, TransactionV1Envelope.xdrSize, Transaction.xdrSize, MuxedAccount.xdrSize,
    Preconditions.xdrSize, PreconditionsV2.xdrSize, SignerKey.xdrSize, Memo.xdrSize,
    Operation.xdrSize, DecoratedSignature.xdrSize, Xdr.varArray, Xdr.varBytes, Xdr.padded,
    Xdr.optionalField]

/-- An envelope around the operation, with the quoted footprint and no more
archived indexes, is no longer than the quoted envelope. -/
theorem xdrSize_le_maxEnvelope (keySize : LedgerKey → Nat) {v1 : TransactionV1Envelope}
    (hfits : v1.FitsXdr) {op : Operation} (hop : v1.tx.operations = [op])
    {data : SorobanTransactionData} (hdata : v1.tx.ext = .sorobanData data)
    {restored : List Nat} (harchived : data.archivedSorobanEntries.length ≤ restored.length) :
    v1.xdrSize keySize ≤
      (maxEnvelope op.body data.resources.footprint restored).xdrSize keySize := by
  have hsize := TransactionV1Envelope.xdrSize_le keySize hfits hop
  have hext : data.ext.xdrSize ≤ (SorobanTransactionDataExt.resourceExt restored).xdrSize := by
    cases hshape : data.ext with
    | v0 => simp [SorobanTransactionDataExt.xdrSize]
    | resourceExt archived =>
      have hcount : archived.length ≤ restored.length := by
        simpa [SorobanTransactionData.archivedSorobanEntries, hshape] using harchived
      simp [SorobanTransactionDataExt.xdrSize, Xdr.varArray]
      omega
  rw [maxEnvelope_xdrSize]
  refine hsize.trans ?_
  rw [hdata]
  simp only [maxEnvelope, TransactionExt.xdrSize, SorobanTransactionData.xdrSize]
  omega

/-! ## The quote -/

/-- A successful simulation quotes its operation with the resources it hands
back. -/
theorem simulate_quoted {d : Deps} {env env' : SorobanEnv} {args : SimulateArgs}
    {sim : SimulateResult} (h : env.simulate d args = .ok sim env') (hok : sim.ok = true)
    {settings : Fees.NetworkFeeSettings} (hsettings : env.feeSettings = some settings) :
    ∃ resources eventsSize rentChanges ledgerSeq, sim.resources = some resources ∧
      preflightResourceFee d settings (.invokeHostFunction args.hostFunction sim.auth) resources
        sim.restoredRwEntryIndices eventsSize rentChanges ledgerSeq = .ok sim.minResourceFee := by
  obtain ⟨_, out, -, ⟨e, -, rfl⟩ | ⟨res, fee, -, hfee, rfl⟩⟩ := simulate_ok_cases h
  · -- a host error is not a success
    cases hok
  · simp only [SimulateResult.recorded] at hok
    cases hinvoked : res.invokeResult with
    | error e => simp [hinvoked, Except.toBool] at hok
    | ok value =>
      simp only [simulatedFee, hinvoked, hsettings] at hfee
      split at hfee
      · next hpriced =>
        cases hfee
        exact ⟨_, _, _, _, rfl, hpriced⟩
      · cases hfee

/-- A quote and its estimate of the size cover whatever is declared within
them. -/
theorem preflight_covers {d : Deps} {env : SorobanEnv} (hprices : env.PricesNonneg d)
    (hmono : env.PricesMonotone d) {settings : Fees.NetworkFeeSettings}
    (hsettings : env.feeSettings = some settings) {operation : OperationBody}
    {resources : SorobanResources} {restored : List Nat} {eventsSize ledgerSeq : Nat}
    {rentChanges : List LedgerEntryRentChange} {fee : Int}
    (h : preflightResourceFee d settings operation resources restored eventsSize rentChanges
      ledgerSeq = .ok fee) (hword : fee < 2 ^ 63 - 1) :
    ∃ estimate,
      estimateMaxTransactionSize d operation resources.footprint restored = .ok estimate ∧
      ∀ r : TransactionResources, r.AtMost
          { instructions := resources.instructions
            diskReadEntries :=
              (resources.footprint.keys.filter (fun k => !needsTtl k)).length + restored.length
            writeEntries := resources.footprint.readWrite.length
            diskReadBytes := resources.diskReadBytes
            writeBytes := resources.writeBytes
            contractEventsSizeBytes := eventsSize
            transactionSizeBytes := adjust32 d .txSize110 estimate 500 } →
        (d.computeTransactionResourceFee r settings.feeConfiguration).1 +
          (d.computeTransactionResourceFee r settings.feeConfiguration).2 ≤ fee := by
  simp only [preflightResourceFee, Except.bind_eq_ok] at h
  obtain ⟨estimate, hestimate, h⟩ := h
  cases h
  refine ⟨estimate, hestimate, fun r hr => ?_⟩
  obtain ⟨hnonRefundable, hrefundable⟩ := hmono.resources settings hsettings r _ hr
  have hquoted := quoted_sum_le d (hprices.resources settings hsettings _).1
    (hprices.rent settings hsettings rentChanges ledgerSeq) hword
  exact (Int.add_le_add hnonRefundable hrefundable).trans hquoted

/-- What the check of the declared fee prices. -/
def declaredResources (a : Application) (s : Shaped) : TransactionResources where
  instructions := s.sorobanData.resources.instructions
  diskReadEntries := numDiskReadEntries s.sorobanData s.op.body.isRestore
  writeEntries := s.sorobanData.resources.footprint.readWrite.length
  diskReadBytes := s.sorobanData.resources.diskReadBytes
  writeBytes := s.sorobanData.resources.writeBytes
  contractEventsSizeBytes := 0
  transactionSizeBytes := a.txSize

/-- A fee that covers the declared resources passes. -/
theorem checkDeclaredFee_covered {d : Deps} {ledger : Ledger} {a : Application} {s : Shaped}
    {settings : Fees.NetworkFeeSettings} (hsettings : ledger.env.feeSettings = some settings)
    (hcovered : (d.computeTransactionResourceFee (declaredResources a s)
        settings.feeConfiguration).1 +
      (d.computeTransactionResourceFee (declaredResources a s) settings.feeConfiguration).2 ≤
        s.sorobanData.resourceFee) :
    ∃ nonRefundable, checkDeclaredFee d ledger a s = .ok nonRefundable := by
  unfold checkDeclaredFee
  cases a.charge with
  | none => exact ⟨0, rfl⟩
  | some charge =>
    have hcomputed : ledger.computeResourceFee d s.sorobanData a.txSize 0 s.op.body.isRestore =
        .ok (d.computeTransactionResourceFee (declaredResources a s)
          settings.feeConfiguration) := by
      simp only [Ledger.computeResourceFee, SorobanEnv.computeResourceFee, SorobanEnv.fees,
        hsettings]
      rfl
    rw [hcomputed]
    refine ⟨(d.computeTransactionResourceFee (declaredResources a s)
      settings.feeConfiguration).1, ?_⟩
    simp only [Check.ofExcept, Except.bind_eq_ok, Check.problem_eq_ok, ite_eq_right_iff]
    exact ⟨_, rfl, (), fun h => absurd h (not_lt.mpr hcovered), rfl⟩

/-- An envelope carries what a simulation handed back: its one operation has
the simulated body, and its data the simulated resources, fee and archived
indexes, or none of the indexes. -/
structure SimulateResult.CarriedBy (sim : SimulateResult) (args : SimulateArgs)
    (v1 : TransactionV1Envelope) (s : Shaped) : Prop where
  operations : v1.tx.operations = [s.op]
  body : s.op.body = .invokeHostFunction args.hostFunction sim.auth
  data : v1.tx.ext = .sorobanData s.sorobanData
  resources : sim.resources = some s.sorobanData.resources
  archived : s.sorobanData.archivedSorobanEntries = [] ∨
    s.sorobanData.archivedSorobanEntries = sim.restoredRwEntryIndices
  resourceFee : s.sorobanData.resourceFee = sim.minResourceFee

theorem SimulateResult.CarriedBy.archived_length {sim : SimulateResult} {args : SimulateArgs}
    {v1 : TransactionV1Envelope} {s : Shaped} (h : sim.CarriedBy args v1 s) :
    s.sorobanData.archivedSorobanEntries.length ≤ sim.restoredRwEntryIndices.length := by
  rcases h.archived with hnone | hall
  · simp [hnone]
  · rw [hall]

/-- The quoted fee passes the check of the declared resource fee, whatever
envelope carries the simulated operation. -/
theorem quote_covers {d : Deps} (hxdr : d.SizesXdr) {ledger ledger' : Ledger}
    (hprices : ledger.env.PricesNonneg d) (hmono : ledger.env.PricesMonotone d)
    {settings : Fees.NetworkFeeSettings} (hsettings : ledger.env.feeSettings = some settings)
    {args : SimulateArgs} {sim : SimulateResult}
    (hsim : ledger.simulate d args = .ok sim ledger') (hok : sim.ok = true)
    (hword : sim.minResourceFee < 2 ^ 63 - 1) {v1 : TransactionV1Envelope} (hfits : v1.FitsXdr)
    {s : Shaped} (hcarried : sim.CarriedBy args v1 s) (hsize : v1EnvelopeSize d v1 ≤ u32Max) :
    ∃ estimate,
      estimateMaxTransactionSize d s.op.body s.sorobanData.resources.footprint
        sim.restoredRwEntryIndices = .ok estimate ∧
      v1EnvelopeSize d v1 ≤ adjust32 d .txSize110 estimate 500 ∧
      ∀ (later : Ledger) (a : Application), later.env.feeSettings = some settings →
        a.txSize = v1EnvelopeSize d v1 →
        ∃ nonRefundable, checkDeclaredFee d later a s = .ok nonRefundable := by
  have hsimulated : ∃ env', ledger.env.simulate d args = .ok sim env' := by
    unfold Ledger.simulate at hsim
    split at hsim
    · next env' h =>
      cases hsim
      exact ⟨env', h⟩
    · cases hsim
  obtain ⟨env', hsimulated⟩ := hsimulated
  obtain ⟨resources, eventsSize, rentChanges, ledgerSeq, hresources, hpriced⟩ :=
    simulate_quoted hsimulated hok hsettings
  obtain rfl : resources = s.sorobanData.resources :=
    Option.some.inj (hresources.symm.trans hcarried.resources)
  rw [← hcarried.body] at hpriced
  obtain ⟨estimate, hestimate, hcovers⟩ := preflight_covers hprices hmono hsettings hpriced hword
  have hquoted : v1EnvelopeSize d v1 ≤ adjust32 d .txSize110 estimate 500 := by
    have hbound := xdrSize_le_maxEnvelope d.keySize hfits hcarried.operations hcarried.data
      hcarried.archived_length
    rw [estimateMaxTransactionSize_eq] at hestimate
    split at hestimate
    · cases hestimate
      rw [hxdr.envelopeSize _ (maxEnvelope_fitsXdr ..)]
      unfold v1EnvelopeSize at hsize ⊢
      rw [hxdr.envelopeSize v1 hfits] at hsize ⊢
      exact le_adjust32 d .txSize110 hsize (by omega) (by rw [maxEnvelope_xdrSize]; omega)
    · cases hestimate
  refine ⟨estimate, hestimate, hquoted, fun later a hlater htxSize => ?_⟩
  have hnoRestore : s.op.body.isRestore = false := by
    rw [hcarried.body]
    rfl
  have hdiskReads : numDiskReadEntries s.sorobanData s.op.body.isRestore ≤
      (s.sorobanData.resources.footprint.keys.filter (fun k => !needsTtl k)).length +
        sim.restoredRwEntryIndices.length := by
    simp only [numDiskReadEntries, hnoRestore, Bool.false_eq_true, if_false]
    exact Nat.add_le_add_left hcarried.archived_length _
  refine checkDeclaredFee_covered hlater ?_
  rw [hcarried.resourceFee]
  exact hcovers (declaredResources a s)
    ⟨le_rfl, hdiskReads, le_rfl, le_rfl, le_rfl, Nat.zero_le _, htxSize.trans_le hquoted⟩

/-! ## A quote and a plain envelope -/

/-- A host that records any call with one key in its footprint, an encoder
that measures envelopes, and prices of one stroop for each instruction and
each byte of the envelope. -/
def quotingHost : Deps :=
  { Deps.idle with
    recordHostFunction := fun input =>
      { result := .ok
          { invokeResult := .ok ⟨[]⟩
            resources :=
              { footprint := ⟨[.account input.source], []⟩
                instructions := 1000
                diskReadBytes := 100
                writeBytes := 0 }
            auth := []
            restoredRwEntryIndices := []
            ledgerChanges := []
            contractEvents := []
            contractEventsAndReturnValueSize := 8 }
        cpuInsnsConsumed := 1000
        memBytesConsumed := 0
        diagnostics := [] }
    keySize := fun _ => 40
    envelopeSize := fun v1 => v1.xdrSize fun _ => 40
    computeTransactionResourceFee := fun r _ =>
      (r.instructions + r.transactionSizeBytes, r.contractEventsSizeBytes) }

def quotedCall : SimulateArgs where
  hostFunction := ⟨[0, 0, 0, 0]⟩
  source := ⟨List.replicate 32 7⟩
  auth := none
  instructionLeeway := 0
  ledgerSeq := none
  useAddressV2 := false

def quotedData : SorobanTransactionData where
  ext := .v0
  resources := ⟨⟨[.account ⟨List.replicate 32 7⟩], []⟩, 51000, 100, 0⟩
  resourceFee := 53460

def quotedEnvelope : TransactionV1Envelope where
  tx :=
    { sourceAccount := .keyTypeEd25519 (List.replicate 32 7)
      fee := 53560
      seqNum := 1
      cond := .precondTime ⟨0, 0⟩
      memo := .memoNone
      operations := [⟨none, .invokeHostFunction ⟨[0, 0, 0, 0]⟩ []⟩]
      ext := .sorobanData quotedData }
  signatures := [⟨[7, 7, 7, 7], List.replicate 64 1⟩]

theorem quotingHost_sizesXdr : quotingHost.SizesXdr := ⟨fun _ _ => rfl⟩

theorem quotingHost_pricesNonneg (env : SorobanEnv) : env.PricesNonneg quotingHost where
  resources _ _ r := by
    simp only [quotingHost]
    omega
  rent _ _ _ _ := le_rfl

theorem quotingHost_pricesMonotone (env : SorobanEnv) : env.PricesMonotone quotingHost where
  resources _ _ r bound h := by
    have hinstructions := h.instructions
    have hsize := h.transactionSizeBytes
    have hevents := h.contractEventsSizeBytes
    simp only [quotingHost]
    omega

/-- The simulated answer of the call. -/
def quotedSimulation : SimulateResult where
  ok := true
  error := none
  returnValue := some ⟨[]⟩
  resources := some quotedData.resources
  auth := []
  restoredRwEntryIndices := []
  instructions := 1000
  adjustedInstructions := 51000
  minResourceFee := 53460
  readBytes := 100
  writeBytes := 0
  cpuInsns := 1000
  memBytes := 0
  readOnlyKeys := [.account ⟨List.replicate 32 7⟩]
  readWriteKeys := []
  events := []
  diagnosticEvents := []

theorem quotedCall_simulates :
    ∃ ledger', (sampleLedger 7).simulate quotingHost quotedCall = .ok quotedSimulation ledger' :=
  ⟨_, rfl⟩

theorem quotedEnvelope_carries : quotedSimulation.CarriedBy quotedCall quotedEnvelope
    ⟨⟨none, .invokeHostFunction ⟨[0, 0, 0, 0]⟩ []⟩, quotedData⟩ :=
  ⟨rfl, rfl, rfl, rfl, .inl rfl, rfl⟩

theorem quotedEnvelope_fitsXdr : quotedEnvelope.FitsXdr where
  cond := trivial
  memo := trivial
  signatures := by decide
  signature := by decide

theorem quotedEnvelope_size : v1EnvelopeSize quotingHost quotedEnvelope ≤ u32Max := by
  decide

/-- The quote of the call covers the envelope that carries it. -/
theorem quote_covers_quotedEnvelope :
    ∃ estimate,
      estimateMaxTransactionSize quotingHost (.invokeHostFunction ⟨[0, 0, 0, 0]⟩ [])
        quotedData.resources.footprint [] = .ok estimate ∧
      v1EnvelopeSize quotingHost quotedEnvelope ≤
        adjust32 quotingHost .txSize110 estimate 500 ∧
      ∀ (later : Ledger) (a : Application),
        later.env.feeSettings = some (sampleSettings 1000).toNetworkFeeSettings →
        a.txSize = v1EnvelopeSize quotingHost quotedEnvelope →
        ∃ nonRefundable, checkDeclaredFee quotingHost later a
          ⟨⟨none, .invokeHostFunction ⟨[0, 0, 0, 0]⟩ []⟩, quotedData⟩ = .ok nonRefundable := by
  obtain ⟨ledger', hsim⟩ := quotedCall_simulates
  have hsettings : (sampleLedger 7).env.feeSettings =
      some (sampleSettings 1000).toNetworkFeeSettings := rfl
  have hword : quotedSimulation.minResourceFee < 2 ^ 63 - 1 := by decide
  have hcovers := @quote_covers quotingHost quotingHost_sizesXdr (sampleLedger 7) ledger'
    (quotingHost_pricesNonneg _) (quotingHost_pricesMonotone _) _ hsettings quotedCall
    quotedSimulation hsim rfl hword quotedEnvelope quotedEnvelope_fitsXdr _ quotedEnvelope_carries
    quotedEnvelope_size
  exact hcovers

end LiteSoroban

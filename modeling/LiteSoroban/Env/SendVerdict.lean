import Mathlib.Algebra.GroupWithZero.Nat
import LiteSoroban.Env.SendEntries

/-!
# When a call succeeds

The host has returned, and two passes over its result can still fail the
call: one over the entries it wrote, one over its events and its fees.  Each
keeps a counter and stops where the counter passes a limit.

`Succeeds` is what the two passes come to, with sums in place of counters.
`checkWrittenEntries_eq_ok` and `consumeRefundable_eq_ok` say that they do,
and `send_verdict` that a call which returns reports success exactly then, and
that one which reports failure has left nothing behind.
-/

namespace LiteSoroban

open Effect

/-! ## What a result has to keep to -/

/-- The network's limit on the size of an entry; classic entries have none. -/
def Fees.NetworkFeeSettings.sizeLimit (settings : Fees.NetworkFeeSettings) :
    LedgerKey → Option Nat
  | .contractCode _ => some settings.maxContractSizeBytes
  | .contractData _ _ _ => some settings.maxContractDataEntrySizeBytes
  | _ => none

/-- The value a change leaves under a read-write key. -/
def LedgerEntryChange.written (ch : LedgerEntryChange) : Option (Encoded LedgerEntry) :=
  if ch.readOnly then none else ch.encodedNewValue

/-- The bytes the changes write. -/
def writtenBytes (changes : List LedgerEntryChange) : Nat :=
  ((changes.filterMap LedgerEntryChange.written).map (·.len)).sum

/-- What a change writes is within its size limit. -/
def LedgerEntryChange.FitsLimit (settings : Fees.NetworkFeeSettings) (ch : LedgerEntryChange) :
    Prop :=
  ∀ key newValue limit, ch.encodedKey.decoded = some key → ch.written = some newValue →
    settings.sizeLimit key = some limit → newValue.len ≤ limit

namespace InvokeHostFunctionResult

/-- The bytes of the contract events and the return value. -/
def eventsSize (res : InvokeHostFunctionResult) (value : Encoded ScVal) : Nat :=
  (res.encodedContractEvents.map (·.len)).sum + value.len

/-- The rent of the changes, at a ledger. -/
def rent (d : Deps) (settings : Fees.NetworkFeeSettings) (ledgerSeq : Nat)
    (res : InvokeHostFunctionResult) : Int :=
  d.computeRentFee (d.extractRentChanges res.ledgerChanges) (settings.rentFeeConfiguration d)
    ledgerSeq

end InvokeHostFunctionResult

/-- What the host has to return for a call to succeed: the four limits. -/
structure Succeeds (d : Deps) (env : SorobanEnv) (args : SendArgs)
    (settings : Fees.NetworkFeeSettings) (res : InvokeHostFunctionResult)
    (value : Encoded ScVal) : Prop where
  entries : ∀ ch ∈ res.ledgerChanges, ch.FitsLimit settings
  written : env.checksDeclaredBytes = true →
    writtenBytes res.ledgerChanges ≤ args.resources.writeBytes
  events : res.eventsSize value ≤ settings.txMaxContractEventsSizeBytes
  refundable : ∀ max, args.maxRefundableFee = some max →
    res.rent d settings env.ledgerSeq + settings.eventsFee d (res.eventsSize value) ≤ max

/-- The host ran, and returned. -/
def HostReturned (d : Deps) (env : SorobanEnv) (args : SendArgs)
    (res : InvokeHostFunctionResult) : Prop :=
  ∃ input, prepareSend d env args = .ok input ∧ (d.invokeHostFunction input).result = .ok res

/-- What is assumed of a result of the host. -/
structure SoundResult (d : Deps) (env : SorobanEnv) (settings : Fees.NetworkFeeSettings)
    (res : InvokeHostFunctionResult) : Prop where
  decodes : ∀ ch ∈ res.ledgerChanges, ch.Decodes
  sizes : ∀ value, res.encodedInvokeResult = .ok value →
    writtenBytes res.ledgerChanges + res.eventsSize value < 2 ^ 32
  rent : 0 ≤ res.rent d settings env.ledgerSeq
  eventsFee : ∀ value, res.encodedInvokeResult = .ok value →
    0 ≤ settings.eventsFee d (res.eventsSize value)
  fees : ∀ value, res.encodedInvokeResult = .ok value →
    res.rent d settings env.ledgerSeq + settings.eventsFee d (res.eventsSize value) ≤ 2 ^ 63 - 1
  noEvents : ∀ e, res.encodedInvokeResult = .error e → res.encodedContractEvents = []

/-! ## The entries written -/

theorem validateContractLedgerEntry_eq_none {settings : Fees.NetworkFeeSettings} {key : LedgerKey}
    {size : Nat} : settings.validateContractLedgerEntry key size = none ↔
      ∀ limit, settings.sizeLimit key = some limit → size ≤ limit := by
  cases key with
  | contractCode hash =>
    simp [Fees.NetworkFeeSettings.validateContractLedgerEntry, Fees.NetworkFeeSettings.sizeLimit]
  | contractData contract k durability =>
    simp [Fees.NetworkFeeSettings.validateContractLedgerEntry, Fees.NetworkFeeSettings.sizeLimit]
  | account id => exact ⟨fun _ _ h => (by cases h), fun _ => rfl⟩
  | trustline id asset => exact ⟨fun _ _ h => (by cases h), fun _ => rfl⟩
  | unsupported type xdr => exact ⟨fun _ _ h => (by cases h), fun _ => rfl⟩

theorem writtenBytes_cons (ch : LedgerEntryChange) (changes : List LedgerEntryChange) :
    writtenBytes (ch :: changes) =
      ((ch.written.map (·.len)).getD 0) + writtenBytes changes := by
  unfold writtenBytes
  rw [List.filterMap_cons]
  cases ch.written with
  | none => exact (Nat.zero_add _).symm
  | some newValue => rfl

/-- A change that writes nothing is passed over. -/
theorem checkWrittenEntries_cons_of_none {env : SorobanEnv} {resources : SorobanResources}
    {ch : LedgerEntryChange} (h : ch.written = none) (changes : List LedgerEntryChange)
    (bytes : Nat) :
    checkWrittenEntries env resources (ch :: changes) bytes =
      checkWrittenEntries env resources changes bytes := by
  unfold LedgerEntryChange.written at h
  rw [checkWrittenEntries]
  cases hro : ch.readOnly with
  | true => rfl
  | false =>
    rw [if_neg (by simp [hro])] at h
    simp only [h]

/-- A change that writes an entry is passed exactly if the entry is within its
limit and the total still within what is declared. -/
theorem checkWrittenEntries_cons_of_some {env : SorobanEnv} {resources : SorobanResources}
    {settings : Fees.NetworkFeeSettings} (hfees : env.feeSettings = some settings)
    {ch : LedgerEntryChange} (hch : ch.Decodes) {newValue : Encoded LedgerEntry}
    (h : ch.written = some newValue) {bytes : Nat} (hbytes : bytes + newValue.len < 2 ^ 32)
    (changes : List LedgerEntryChange) :
    checkWrittenEntries env resources (ch :: changes) bytes = .ok () ↔
      ch.FitsLimit settings ∧
      (env.checksDeclaredBytes = true → bytes + newValue.len ≤ resources.writeBytes) ∧
      checkWrittenEntries env resources changes
        (if env.checksDeclaredBytes then bytes + newValue.len else bytes) = .ok () := by
  obtain ⟨key, hkey⟩ := Option.isSome_iff_exists.mp hch.key
  have hfits : ch.FitsLimit settings ↔
      settings.validateContractLedgerEntry key newValue.len = none := by
    rw [validateContractLedgerEntry_eq_none]
    constructor
    · exact fun hall limit => hall key newValue limit hkey h
    · intro hlimit key' newValue' limit hkey' h'
      cases hkey.symm.trans hkey'
      cases h.symm.trans h'
      exact hlimit limit
  have hvalue : ch.readOnly = false ∧ ch.encodedNewValue = some newValue := by
    unfold LedgerEntryChange.written at h
    split at h
    · cases h
    · next hro => exact ⟨Bool.eq_false_iff.mpr hro, h⟩
  rw [hfits, checkWrittenEntries]
  simp only [hvalue, hfees, hkey, saturatingAdd32_clamp32_of_lt hbytes]
  cases settings.validateContractLedgerEntry key newValue.len with
  | some message => simp [throw, throwThe, MonadExceptOf.throw, bind, Except.bind]
  | none =>
    by_cases hchecks : env.checksDeclaredBytes = true
    · by_cases hlow : resources.writeBytes < bytes + newValue.len
      · simp [hchecks, hlow, throw, throwThe, MonadExceptOf.throw, bind, Except.bind,
          not_le.mpr hlow]
      · simp [hchecks, hlow, not_lt.mp hlow]
    · simp [hchecks]

/-- The pass over the changes, as a sum. -/
theorem checkWrittenEntries_eq_ok {env : SorobanEnv} {resources : SorobanResources}
    {settings : Fees.NetworkFeeSettings} (hfees : env.feeSettings = some settings)
    {changes : List LedgerEntryChange} (hdecodes : ∀ ch ∈ changes, ch.Decodes) {bytes : Nat}
    (hsizes : bytes + writtenBytes changes < 2 ^ 32)
    (hbytes : env.checksDeclaredBytes = true → bytes ≤ resources.writeBytes) :
    checkWrittenEntries env resources changes bytes = .ok () ↔
      (∀ ch ∈ changes, ch.FitsLimit settings) ∧
      (env.checksDeclaredBytes = true →
        bytes + writtenBytes changes ≤ resources.writeBytes) := by
  induction changes generalizing bytes with
  | nil => exact ⟨fun _ => ⟨by simp, hbytes⟩, fun _ => rfl⟩
  | cons ch changes ih =>
    obtain ⟨hch, hdecodes⟩ := List.forall_mem_cons.mp hdecodes
    rw [List.forall_mem_cons]
    rw [writtenBytes_cons] at hsizes ⊢
    cases hwritten : ch.written with
    | none =>
      have hfits : ch.FitsLimit settings := by
        intro key newValue limit _ h
        cases hwritten.symm.trans h
      rw [hwritten, Option.map_none, Option.getD_none, Nat.zero_add] at hsizes
      rw [checkWrittenEntries_cons_of_none hwritten, ih hdecodes hsizes hbytes, Option.map_none,
        Option.getD_none, Nat.zero_add]
      exact ⟨fun h => ⟨⟨hfits, h.1⟩, h.2⟩, fun h => ⟨h.1.2, h.2⟩⟩
    | some newValue =>
      rw [hwritten, Option.map_some, Option.getD_some, ← Nat.add_assoc] at hsizes
      rw [checkWrittenEntries_cons_of_some hfees hch hwritten
        (lt_of_le_of_lt (Nat.le_add_right _ _) hsizes), Option.map_some, Option.getD_some,
        ← Nat.add_assoc]
      by_cases hchecks : env.checksDeclaredBytes = true
      · simp only [hchecks, if_true, forall_const] at ih ⊢
        constructor
        · rintro ⟨hfits, hle, hrest⟩
          obtain ⟨hall, hsum⟩ := (ih hdecodes hsizes hle).mp hrest
          exact ⟨⟨hfits, hall⟩, hsum⟩
        · rintro ⟨⟨hfits, hall⟩, hsum⟩
          have hle : bytes + newValue.len ≤ resources.writeBytes :=
            (Nat.le_add_right _ _).trans hsum
          exact ⟨hfits, hle, (ih hdecodes hsizes hle).mpr ⟨hall, hsum⟩⟩
      · have hsizes' : bytes + writtenBytes changes < 2 ^ 32 := by omega
        rw [if_neg hchecks, ih hdecodes hsizes' hbytes]
        simp [hchecks]

/-! ## Events and fees -/

/-- The pass over the events, as a sum. -/
theorem sumEventSizes_eq_ok {maxEvents : Nat} {events : List (Encoded ContractEvent)}
    {bytes total : Nat} (hsizes : bytes + (events.map (·.len)).sum < 2 ^ 32)
    (hbytes : bytes ≤ maxEvents) :
    sumEventSizes maxEvents events bytes = .ok total ↔
      bytes + (events.map (·.len)).sum ≤ maxEvents ∧ total = bytes + (events.map (·.len)).sum := by
  induction events generalizing bytes with
  | nil =>
    rw [List.map_nil, List.sum_nil, Nat.add_zero, sumEventSizes, Except.ok.injEq]
    exact ⟨fun h => ⟨hbytes, h.symm⟩, fun h => h.2.symm⟩
  | cons event events ih =>
    rw [List.map_cons, List.sum_cons, ← Nat.add_assoc] at hsizes ⊢
    unfold sumEventSizes
    rw [saturatingAdd32_clamp32_of_lt (lt_of_le_of_lt (Nat.le_add_right _ _) hsizes)]
    dsimp only
    split
    · next hlow =>
      refine ⟨fun h => (by cases h), fun h => ?_⟩
      exact absurd ((Nat.le_add_right _ _).trans h.1) (not_le.mpr hlow)
    · next hfits => exact ih hsizes (not_lt.mp hfits)

/-- The pass over the events and the fees, with sums and without saturation. -/
theorem consumeRefundable_eq_ok {d : Deps} {env : SorobanEnv}
    {settings : Fees.NetworkFeeSettings} (hfees : env.feeSettings = some settings)
    {res : InvokeHostFunctionResult} {value : Encoded ScVal} {maxRefundableFee : Option Int}
    {consumed : Consumed} (hsizes : res.eventsSize value < 2 ^ 32)
    (hrent : 0 ≤ res.rent d settings env.ledgerSeq)
    (hevents : 0 ≤ settings.eventsFee d (res.eventsSize value))
    (hsum : res.rent d settings env.ledgerSeq + settings.eventsFee d (res.eventsSize value) ≤
      2 ^ 63 - 1) :
    consumeRefundable d env res value.len maxRefundableFee = .ok consumed ↔
      res.eventsSize value ≤ settings.txMaxContractEventsSizeBytes ∧
      (∀ max, maxRefundableFee = some max →
        res.rent d settings env.ledgerSeq + settings.eventsFee d (res.eventsSize value) ≤ max) ∧
      consumed = ⟨res.rent d settings env.ledgerSeq, res.eventsSize value,
        res.rent d settings env.ledgerSeq + settings.eventsFee d (res.eventsSize value)⟩ := by
  have hadd : saturatingAdd32 (res.encodedContractEvents.map (·.len)).sum (clamp32 value.len) =
      res.eventsSize value := saturatingAdd32_clamp32_of_lt hsizes
  have hsaturated : saturatingAddI64 (res.rent d settings env.ledgerSeq)
      (settings.eventsFee d (res.eventsSize value)) =
        res.rent d settings env.ledgerSeq + settings.eventsFee d (res.eventsSize value) := by
    unfold saturatingAddI64
    omega
  have hloop : ∀ total, sumEventSizes settings.txMaxContractEventsSizeBytes
      res.encodedContractEvents 0 = .ok total ↔
        (res.encodedContractEvents.map (·.len)).sum ≤ settings.txMaxContractEventsSizeBytes ∧
          total = (res.encodedContractEvents.map (·.len)).sum := by
    intro total
    have hevents : (res.encodedContractEvents.map (·.len)).sum < 2 ^ 32 :=
      lt_of_le_of_lt (Nat.le_add_right _ _) hsizes
    rw [sumEventSizes_eq_ok (by rwa [Nat.zero_add]) (Nat.zero_le _), Nat.zero_add]
  have hrentOf : d.computeRentFee (d.extractRentChanges res.ledgerChanges)
      (settings.rentFeeConfiguration d) env.ledgerSeq = res.rent d settings env.ledgerSeq := rfl
  unfold consumeRefundable
  simp only [hfees, Except.bind_eq_ok, hloop, hrentOf]
  constructor
  · rintro ⟨_, ⟨-, rfl⟩, h⟩
    rw [hadd] at h
    split at h
    · cases h
    next hfits =>
    refine ⟨not_lt.mp hfits, ?_⟩
    rw [hsaturated] at h
    cases hmax : maxRefundableFee with
    | none =>
      rw [hmax] at h
      exact ⟨by simp, (Except.ok.inj h).symm⟩
    | some max =>
      rw [hmax] at h
      dsimp only at h
      split at h
      · cases h
      split at h
      · cases h
      next hcovered =>
      refine ⟨fun _ heq => ?_, (Except.ok.inj h).symm⟩
      cases heq
      exact not_lt.mp hcovered
  · rintro ⟨hfits, hcovered, rfl⟩
    refine ⟨_, ⟨(Nat.le_add_right _ _).trans hfits, rfl⟩, ?_⟩
    rw [hadd, if_neg (not_lt.mpr hfits), hsaturated]
    cases hmax : maxRefundableFee with
    | none => rfl
    | some max =>
      have hle := hcovered max hmax
      dsimp only
      rw [if_neg (by omega), if_neg (by omega)]
      rfl

/-! ## The call -/

theorem SoundResult.written_iff {d : Deps} {env : SorobanEnv} {settings : Fees.NetworkFeeSettings}
    (hfees : env.feeSettings = some settings) {res : InvokeHostFunctionResult}
    (hsound : SoundResult d env settings res) {value : Encoded ScVal}
    (hvalue : res.encodedInvokeResult = .ok value) (resources : SorobanResources) :
    checkWrittenEntries env resources res.ledgerChanges 0 = .ok () ↔
      (∀ ch ∈ res.ledgerChanges, ch.FitsLimit settings) ∧
      (env.checksDeclaredBytes = true →
        writtenBytes res.ledgerChanges ≤ resources.writeBytes) := by
  have hsizes := hsound.sizes value hvalue
  rw [checkWrittenEntries_eq_ok hfees hsound.decodes (by omega) fun _ => Nat.zero_le _,
    Nat.zero_add]

/-- The host completed a call, and the checks after it passed, exactly if what
it returned is within the limits. -/
theorem hostCompleted_iff {d : Deps} {env : SorobanEnv} {args : SendArgs}
    {settings : Fees.NetworkFeeSettings} (hfees : env.feeSettings = some settings)
    {input : HostInput} {res : InvokeHostFunctionResult}
    (hinput : prepareSend d env args = .ok input)
    (hres : (d.invokeHostFunction input).result = .ok res)
    (hsound : SoundResult d env settings res) {value : Encoded ScVal} {consumed : Consumed} :
    HostCompleted d env args input res value consumed ↔
      res.encodedInvokeResult = .ok value ∧ Succeeds d env args settings res value ∧
      consumed = ⟨res.rent d settings env.ledgerSeq, res.eventsSize value,
        res.rent d settings env.ledgerSeq + settings.eventsFee d (res.eventsSize value)⟩ := by
  by_cases hvalue : res.encodedInvokeResult = .ok value
  · have hsizes := hsound.sizes value hvalue
    have hwritten := hsound.written_iff hfees hvalue args.resources
    have hconsumed := @consumeRefundable_eq_ok d env settings hfees res value
      args.maxRefundableFee consumed (by omega) hsound.rent (hsound.eventsFee value hvalue)
      (hsound.fees value hvalue)
    constructor
    · intro hdone
      cases hres.symm.trans hdone.returned
      obtain ⟨hentries, hbytes⟩ := hwritten.mp hdone.written
      obtain ⟨hevents, hcovered, hpriced⟩ := hconsumed.mp hdone.consumed
      exact ⟨hvalue, ⟨hentries, hbytes, hevents, hcovered⟩, hpriced⟩
    · rintro ⟨-, hsucceeds, hpriced⟩
      exact ⟨hinput, hres, hvalue, hwritten.mpr ⟨hsucceeds.entries, hsucceeds.written⟩,
        hconsumed.mpr ⟨hsucceeds.events, hsucceeds.refundable, hpriced⟩⟩
  · refine ⟨fun hdone => ?_, fun h => absurd h.1 hvalue⟩
    cases hres.symm.trans hdone.returned
    exact absurd hdone.succeeded hvalue

/-- A call that reports failure names no key whose TTL moved, and no event
unless the invocation failed and the host returned some. -/
theorem send_failed_lists {d : Deps} {args : SendArgs} {env env' : SorobanEnv} {out : SendResult}
    (h : env.send d args = .ok out env') (hok : out.ok = false) :
    out.ttlChangedKeys = [] ∧
      (out.events = [] ∨ ∃ res e, HostReturned d env args res ∧
        res.encodedInvokeResult = .error e ∧ out.events = res.encodedContractEvents) := by
  unfold SorobanEnv.send settleCall at h
  split at h
  · cases h
  · obtain ⟨rfl, -⟩ := toValue_ok h
    exact ⟨rfl, .inl rfl⟩
  next input hinput =>
  split at h
  · obtain ⟨rfl, -⟩ := toValue_ok h
    exact ⟨rfl, .inl rfl⟩
  next res hres =>
  split at h
  · next e he =>
    obtain ⟨rfl, -⟩ := toValue_ok h
    exact ⟨rfl, .inr ⟨res, e, ⟨input, hinput, hres⟩, he, rfl⟩⟩
  split at h
  · obtain ⟨rfl, -⟩ := toValue_ok h
    exact ⟨rfl, .inl rfl⟩
  split at h
  · cases h
  · obtain ⟨rfl, -⟩ := toValue_ok h
    cases hok

/-- A call that reports failure has left nothing behind: the store is as it
was, and the answer names no key, no event and no value. -/
structure LeftNothing (env : SorobanEnv) (out : SendResult) (env' : SorobanEnv) : Prop where
  store : env'.store = env.store
  events : out.events = []
  returnValue : out.returnValue = none
  changed : out.changedKeys = []
  removed : out.removedKeys = []
  ttlChanged : out.ttlChangedKeys = []

/-- A call returns unless an entry or the budget throws before the host, or a
number of the answer is refused. -/
theorem send_returns {d : Deps} {args : SendArgs} {env : SorobanEnv}
    (hthrown : ∀ e, prepareSend d env args ≠ .error (.thrown e))
    (hdecodes : ∀ res, HostReturned d env args res → ∀ ch ∈ res.ledgerChanges, ch.Decodes)
    (hnumbers : ∀ numbers, d.toValue numbers = .ok ()) :
    ∃ out env', env.send d args = .ok out env' := by
  have hvalue : ∀ (out : SendResult) (env' : SorobanEnv), out.toValue d env' = .ok out env' := by
    intro out env'
    unfold SendResult.toValue
    rw [hnumbers]
  rcases send_cases d args env with ⟨e, hprep, -⟩ | ⟨message, -, hsend⟩ |
    ⟨input, out, -, -, -, -, hsend⟩ | ⟨input, res, value, consumed, hdone, -⟩
  · exact absurd hprep (hthrown e)
  · exact ⟨_, _, hsend.trans (hvalue _ _)⟩
  · exact ⟨_, _, hsend.trans (hvalue _ _)⟩
  · obtain ⟨m, hmerge⟩ := mergeChanges_total
      (hdecodes res ⟨input, hdone.prepared, hdone.returned⟩) ⟨env.store, [], [], []⟩
    exact ⟨_, _, hdone.send hmerge hvalue⟩

/-- A call the host completed within the limits reports success. -/
theorem send_ok_of_succeeds {d : Deps} {env env' : SorobanEnv} {args : SendArgs}
    {settings : Fees.NetworkFeeSettings} (hfees : env.feeSettings = some settings)
    {res : InvokeHostFunctionResult} (hreturned : HostReturned d env args res)
    (hsound : SoundResult d env settings res) {value : Encoded ScVal}
    (hvalue : res.encodedInvokeResult = .ok value)
    (hsucceeds : Succeeds d env args settings res value) {out : SendResult}
    (hsend : env.send d args = .ok out env') : out.ok = true := by
  obtain ⟨input, hinput, hres⟩ := hreturned
  have hdone := (hostCompleted_iff hfees hinput hres hsound).mpr ⟨hvalue, hsucceeds, rfl⟩
  obtain ⟨m, hmerge⟩ := mergeChanges_total hsound.decodes ⟨env.store, [], [], []⟩
  rw [hdone.send_eq, hmerge] at hsend
  obtain ⟨rfl, -⟩ := toValue_ok hsend
  rfl

/-- A call that returns reports success exactly if the host completed it within
the four limits.  What it then has consumed is the rent and the events fee, and
no more than the maximum.  A call that reports failure has left nothing behind. -/
theorem send_verdict {d : Deps} {env : SorobanEnv} {args : SendArgs}
    {settings : Fees.NetworkFeeSettings} (hfees : env.feeSettings = some settings)
    (hsound : ∀ res, HostReturned d env args res → SoundResult d env settings res) :
    (∀ out env', env.send d args = .ok out env' →
      (out.ok = true ↔ ∃ res value, HostReturned d env args res ∧
        res.encodedInvokeResult = .ok value ∧ Succeeds d env args settings res value) ∧
      (out.ok = true → ∃ res value, HostReturned d env args res ∧
        res.encodedInvokeResult = .ok value ∧
        out.refundableFeeConsumed =
          res.rent d settings env.ledgerSeq + settings.eventsFee d (res.eventsSize value) ∧
        ∀ max, args.maxRefundableFee = some max → out.refundableFeeConsumed ≤ max) ∧
      (out.ok = false → LeftNothing env out env')) ∧
    ((∀ e, prepareSend d env args ≠ .error (.thrown e)) →
      (∀ numbers, d.toValue numbers = .ok ()) → ∃ out env', env.send d args = .ok out env') := by
  refine ⟨fun out env' hsend => ?_, fun hthrown hnumbers =>
    send_returns hthrown (fun res hres => (hsound res hres).decodes) hnumbers⟩
  rcases send_ok hsend with hfailed | ⟨input, res, value, consumed, m, hdone, -, rfl, -⟩
  · obtain ⟨httl, hevents⟩ := send_failed_lists hsend hfailed.ok
    refine ⟨⟨fun h => ?_, ?_⟩, fun h => ?_, fun _ => ?_⟩
    · cases hfailed.ok.symm.trans h
    · rintro ⟨res, value, hres, hvalue, hsucceeds⟩
      exact send_ok_of_succeeds hfees hres (hsound res hres) hvalue hsucceeds hsend
    · cases hfailed.ok.symm.trans h
    · obtain ⟨cache, rfl⟩ := hfailed.frame
      refine ⟨rfl, ?_, hfailed.returnValue, hfailed.changed, hfailed.removed, httl⟩
      rcases hevents with hnone | ⟨res, e, hres, he, heq⟩
      · exact hnone
      · exact heq.trans ((hsound res hres).noEvents e he)
  · have hres : HostReturned d env args res := ⟨input, hdone.prepared, hdone.returned⟩
    obtain ⟨hvalue, hsucceeds, hconsumed⟩ :=
      (hostCompleted_iff hfees hdone.prepared hdone.returned (hsound res hres)).mp hdone
    have hfee : consumed.refundable =
        res.rent d settings env.ledgerSeq + settings.eventsFee d (res.eventsSize value) := by
      rw [hconsumed]
    refine ⟨⟨fun _ => ⟨res, value, hres, hvalue, hsucceeds⟩, fun _ => rfl⟩, fun _ => ?_,
      fun h => by cases h⟩
    refine ⟨res, value, hres, hvalue, hfee, fun max hmax => ?_⟩
    exact hfee.trans_le (hsucceeds.refundable max hmax)

/-- A host that writes one entry of twelve bytes, and prices it at 5. -/
def Deps.writing : Deps :=
  { Deps.idle with
    invokeHostFunction := fun _ =>
      ⟨.ok ⟨.ok ⟨4, some ⟨[]⟩⟩,
        [⟨false, ⟨8, some (balanceKey .persistent)⟩, 0,
          some ⟨12, some ⟨900, .contractData ⟨⟨[1]⟩, ⟨[2]⟩, .persistent, ⟨[3]⟩⟩, .v0⟩⟩, 0, none⟩],
        []⟩, 0, 0, []⟩
    computeRentFee := fun _ _ _ => 5 }

/-- Settings with a limit of 16 bytes on data, and of 8 on events. -/
def tightSettings : Fees.NetworkFeeSettings :=
  ⟨0, 100000000, 41943040, 0, 0, 0, 0, 0, 0, 0, 0, 0, 8, 0, 0, 64, 16, 1, 1, 0⟩

theorem send_verdict_writing :
    (∀ out env', SorobanEnv.send .writing (balanceCall ⟨[], [balanceKey .persistent]⟩ [])
        { balanceEnv .persistent 2000 with feeSettings := some tightSettings } = .ok out env' →
      (out.ok = true ↔ ∃ res value,
        HostReturned .writing
          { balanceEnv .persistent 2000 with feeSettings := some tightSettings }
          (balanceCall ⟨[], [balanceKey .persistent]⟩ []) res ∧
        res.encodedInvokeResult = .ok value ∧
        Succeeds .writing { balanceEnv .persistent 2000 with feeSettings := some tightSettings }
          (balanceCall ⟨[], [balanceKey .persistent]⟩ []) tightSettings res value) ∧
      (out.ok = true → ∃ res value,
        HostReturned .writing
          { balanceEnv .persistent 2000 with feeSettings := some tightSettings }
          (balanceCall ⟨[], [balanceKey .persistent]⟩ []) res ∧
        res.encodedInvokeResult = .ok value ∧
        out.refundableFeeConsumed = res.rent .writing tightSettings 1000 +
          tightSettings.eventsFee .writing (res.eventsSize value) ∧
        ∀ max, (none : Option Int) = some max → out.refundableFeeConsumed ≤ max) ∧
      (out.ok = false → LeftNothing
        { balanceEnv .persistent 2000 with feeSettings := some tightSettings } out env')) ∧
    ((∀ e, prepareSend .writing
        { balanceEnv .persistent 2000 with feeSettings := some tightSettings }
        (balanceCall ⟨[], [balanceKey .persistent]⟩ []) ≠ .error (.thrown e)) →
      (∀ numbers, Deps.writing.toValue numbers = .ok ()) → ∃ out env',
        SorobanEnv.send .writing (balanceCall ⟨[], [balanceKey .persistent]⟩ [])
          { balanceEnv .persistent 2000 with feeSettings := some tightSettings } =
            .ok out env') := by
  refine @send_verdict .writing
    { balanceEnv .persistent 2000 with feeSettings := some tightSettings } _ tightSettings rfl ?_
  rintro res ⟨input, -, hres⟩
  cases hres
  exact
    { decodes := by
        intro ch hch
        cases List.mem_singleton.mp hch
        exact ⟨rfl, fun newValue h => by cases h; rfl⟩
      sizes := by
        rintro value ⟨⟩
        decide
      rent := by decide
      eventsFee := by
        rintro value ⟨⟩
        decide
      fees := by
        rintro value ⟨⟩
        decide
      noEvents := by
        rintro e ⟨⟩ }

end LiteSoroban

import LiteSoroban.Env.SendSpec

/-!
# What is assumed of the host

The host is a parameter.  Where a result depends on what the host returns, it
takes one of the predicates here as a hypothesis.

* `ReturnsKeyed`: a changed entry goes back under its own key.
* `PricesNonneg`: under the installed settings, no fee function is negative.
* `ReturnsXdr`: events and return values decode.

The lemmas carry each of them to the whole call.
-/

namespace LiteSoroban

open Effect

/-- A change the host can return for a call. -/
def Deps.Returns (d : Deps) (input : HostInput) (ch : LedgerEntryChange) : Prop :=
  ∃ res, (d.invokeHostFunction input).result = .ok res ∧ ch ∈ res.ledgerChanges

/-- The idle host changes nothing. -/
theorem idle_returns (input : HostInput) (ch : LedgerEntryChange) :
    ¬ Deps.idle.Returns input ch := by
  rintro ⟨res, hres, -⟩
  cases hres

/-- An entry the host changed goes back under the key it derives. -/
def Deps.ReturnsKeyed (d : Deps) : Prop :=
  ∀ input ch, d.Returns input ch → ∀ key newValue entry, ch.encodedKey.decoded = some key →
    ch.encodedNewValue = some newValue → newValue.decoded = some entry → keyOf entry = .ok key

theorem idle_returnsKeyed : Deps.idle.ReturnsKeyed :=
  fun input ch h => absurd h (idle_returns input ch)

theorem mergeChange_keyed {ch : LedgerEntryChange}
    (hch : ∀ key newValue entry, ch.encodedKey.decoded = some key →
      ch.encodedNewValue = some newValue → newValue.decoded = some entry → keyOf entry = .ok key)
    {m : Merged} (hm : m.store.Keyed) : (finalState (mergeChange ch m)).store.Keyed :=
  mergeChange_forall (P := fun key e => keyOf e.entry = .ok key) hch (fun _ _ _ _ _ h => h) hm

/-- A call keeps the store keyed. -/
theorem mergedStore_keyed {d : Deps} (hhost : d.ReturnsKeyed) {input : HostInput}
    {res : InvokeHostFunctionResult} (hres : (d.invokeHostFunction input).result = .ok res)
    {store : Store} (hstore : store.Keyed) : (mergedStore store res.ledgerChanges).Keyed :=
  mergeChanges_induction (P := fun m => m.store.Keyed)
    (fun ch hch _ hm => mergeChange_keyed (hhost input ch ⟨res, hres, hch⟩) hm) hstore

theorem send_keyed {d : Deps} (hhost : d.ReturnsKeyed) {args : SendArgs} {env : SorobanEnv}
    (hstore : env.store.Keyed) : (finalState (env.send d args)).store.Keyed := by
  rcases send_frame d args env with ⟨cache, hframe⟩ | ⟨input, res, _, _, hdone, hframe⟩
  · rw [hframe]
    exact hstore
  · rw [hframe]
    exact mergedStore_keyed hhost hdone.returned hstore

/-! ## Prices -/

/-- Under the environment's fee settings the host's fee functions do not
return negative numbers. -/
structure SorobanEnv.PricesNonneg (d : Deps) (env : SorobanEnv) : Prop where
  resources : ∀ settings, env.feeSettings = some settings → ∀ resources,
    0 ≤ (d.computeTransactionResourceFee resources settings.feeConfiguration).1 ∧
      0 ≤ (d.computeTransactionResourceFee resources settings.feeConfiguration).2
  rent : ∀ settings, env.feeSettings = some settings → ∀ changes ledgerSeq,
    0 ≤ d.computeRentFee changes (settings.rentFeeConfiguration d) ledgerSeq

/-- What a call consumed of a capped refundable fee: the rent, and the events
on top, under the cap. -/
theorem consumeRefundable_ok {d : Deps} {env : SorobanEnv} (hprices : env.PricesNonneg d)
    {res : InvokeHostFunctionResult} {size : Nat} {max : Int} (hmax : 0 ≤ max)
    (hword : max ≤ 2 ^ 63 - 1) {consumed : Consumed}
    (h : consumeRefundable d env res size (some max) = .ok consumed) :
    0 ≤ consumed.rent ∧ consumed.rent ≤ consumed.refundable ∧ consumed.refundable ≤ max := by
  simp only [consumeRefundable] at h
  cases hsettings : env.feeSettings with
  | none =>
    simp only [hsettings] at h
    cases h
    exact ⟨le_rfl, le_rfl, hmax⟩
  | some settings =>
    simp only [hsettings, Except.bind_eq_ok] at h
    obtain ⟨contractEvents, -, h⟩ := h
    split at h
    · cases h
    · split at h
      · cases h
      · next hrent =>
        split at h
        · cases h
        · next htotal =>
          cases h
          have hevents := (hprices.resources settings hsettings
            { instructions := 0
              diskReadEntries := 0
              writeEntries := 0
              diskReadBytes := 0
              writeBytes := 0
              contractEventsSizeBytes := saturatingAdd32 contractEvents (clamp32 size)
              transactionSizeBytes := 0 }).2
          refine ⟨hprices.rent settings hsettings _ _, ?_, not_lt.mp htotal⟩
          exact le_saturatingAddI64 hevents ((not_lt.mp hrent).trans hword)

/-! ## XDR -/

/-- The events and the return value of a call the host completed decode. -/
def Deps.ReturnsXdr (d : Deps) : Prop :=
  ∀ input res, (d.invokeHostFunction input).result = .ok res →
    (∀ event ∈ res.encodedContractEvents, event.decoded.isSome) ∧
      ∀ value, res.encodedInvokeResult = .ok value → value.decoded.isSome

/-- What a call answers decodes. -/
theorem send_decodes {d : Deps} (hhost : d.ReturnsXdr) {args : SendArgs} {env env' : SorobanEnv}
    {out : SendResult} (h : env.send d args = .ok out env') :
    (∀ event ∈ out.events, event.decoded.isSome) ∧
      ∀ value, out.returnValue = some value → value.decoded.isSome := by
  rcases send_ok h with hfailed | ⟨input, res, value, _, _, hdone, -, rfl, -⟩
  · refine ⟨fun event hevent => ?_, fun value hvalue => ?_⟩
    · rcases hfailed.events with hnone | ⟨input, res, hres, hevents⟩
      · rw [hnone] at hevent
        cases hevent
      · rw [hevents] at hevent
        exact (hhost input res hres).1 event hevent
    · rw [hfailed.returnValue] at hvalue
      cases hvalue
  · obtain ⟨hevents, hvalue⟩ := hhost input res hdone.returned
    refine ⟨hevents, fun _ hreturned => ?_⟩
    cases hreturned
    exact hvalue value hdone.succeeded

end LiteSoroban

import LiteSoroban.Env.SendSpec

/-!
# When an enforcing call throws

`send` answers a failed call with a result.  It throws where it converts
something: the budget is built from the installed tables, the footprint's
entries are sized for rent, the changes of the host are decoded, and the
numbers of the answer are made JavaScript numbers.

`SendThrows` lists these places, each with what it converts.  `send_throws_iff`
says that there are no others.
-/

namespace LiteSoroban

open Effect

/-- The numbers of an answer are refused as JavaScript numbers. -/
def Deps.RefusesNumbers (d : Deps) (cpuInsns memBytes : Nat) (rent refundable : Int) : Prop :=
  ∃ e, d.toValue [cpuInsns, memBytes, rent, refundable] = .error e

/-- Why an enforcing call throws. -/
inductive SendThrows (d : Deps) (args : SendArgs) (env : SorobanEnv) : Prop where
  /-- The host refuses to build the budget. -/
  | budget {e : JsError} (h : env.enforcingBudget d args.resources.instructions = .error e)
  /-- The host refuses to size an entry of the footprint. -/
  | rentSize {budget : Budget} {e : JsError}
      (hbudget : env.enforcingBudget d args.resources.instructions = .ok budget)
      (h : loadFootprint d env args budget = .error (.thrown e))
  /-- The four zeros of an answer from before the host. -/
  | stopped {message : String} (hprepared : prepareSend d env args = .error (.failed message))
      (h : d.RefusesNumbers 0 0 0 0)
  /-- The numbers of a call that failed in the host or after it. -/
  | failed {input : HostInput} (hprepared : prepareSend d env args = .ok input)
      (hfailed : ∀ res value consumed, ¬ HostCompleted d env args input res value consumed)
      (h : d.RefusesNumbers (d.invokeHostFunction input).cpuInsnsConsumed
        (d.invokeHostFunction input).memBytesConsumed 0 0)
  /-- A change of the host that is not XDR. -/
  | change {input : HostInput} {res : InvokeHostFunctionResult} {value : Encoded ScVal}
      {consumed : Consumed} (hdone : HostCompleted d env args input res value consumed)
      {ch : LedgerEntryChange} (hch : ch ∈ res.ledgerChanges) (h : ¬ ch.Decodes)
  /-- The numbers of a call that succeeded. -/
  | completed {input : HostInput} {res : InvokeHostFunctionResult} {value : Encoded ScVal}
      {consumed : Consumed} (hdone : HostCompleted d env args input res value consumed)
      (h : d.RefusesNumbers (d.invokeHostFunction input).cpuInsnsConsumed
        (d.invokeHostFunction input).memBytesConsumed consumed.rent consumed.refundable)

theorem toValue_throws_iff {d : Deps} {out : SendResult} {env : SorobanEnv} :
    Throws (out.toValue d) env ↔ ∃ e, d.toValue out.numbers = .error e := by
  unfold Throws SendResult.toValue SendResult.numbers
  cases d.toValue [(out.cpuInsns : Int), out.memBytes, out.rentFee, out.refundableFeeConsumed] with
  | ok u => simp
  | error e => simp

/-- A call stops with an exception before the host for one of two reasons. -/
theorem prepareSend_thrown_iff {d : Deps} {env : SorobanEnv} {args : SendArgs} :
    (∃ e, prepareSend d env args = .error (.thrown e)) ↔
      (∃ e, env.enforcingBudget d args.resources.instructions = .error e) ∨
      ∃ budget e, env.enforcingBudget d args.resources.instructions = .ok budget ∧
        loadFootprint d env args budget = .error (.thrown e) := by
  unfold prepareSend
  cases hbudget : env.enforcingBudget d args.resources.instructions with
  | error e => simp
  | ok budget =>
    cases hloaded : loadFootprint d env args budget with
    | error stop => simp [hloaded]
    | ok loaded => simp [hloaded]

theorem send_throws_of_completed {d : Deps} {args : SendArgs} {env : SorobanEnv}
    {input : HostInput} {res : InvokeHostFunctionResult} {value : Encoded ScVal}
    {consumed : Consumed} (hdone : HostCompleted d env args input res value consumed) :
    Throws (SorobanEnv.send d args) env ↔
      (∃ ch ∈ res.ledgerChanges, ¬ ch.Decodes) ∨
      d.RefusesNumbers (d.invokeHostFunction input).cpuInsnsConsumed
        (d.invokeHostFunction input).memBytesConsumed consumed.rent consumed.refundable := by
  rw [← mergeChanges_throws_iff (m := ⟨env.store, [], [], []⟩)]
  unfold Throws
  rw [hdone.send_eq]
  cases mergeChanges res.ledgerChanges ⟨env.store, [], [], []⟩ with
  | error e m => simp
  | ok u m =>
    simp only [reduceCtorEq, exists_false, false_or]
    exact toValue_throws_iff

/-- A call throws for each of the reasons listed. -/
theorem SendThrows.throws {d : Deps} {args : SendArgs} {env : SorobanEnv}
    (h : SendThrows d args env) : Throws (SorobanEnv.send d args) env := by
  have hthrown : (∃ e, prepareSend d env args = .error (.thrown e)) →
      Throws (SorobanEnv.send d args) env := by
    rintro ⟨e, hprep⟩
    exact ⟨e, env, by unfold SorobanEnv.send; rw [hprep]⟩
  cases h with
  | budget hbudget => exact hthrown (prepareSend_thrown_iff.mpr (.inl ⟨_, hbudget⟩))
  | rentSize hbudget hload =>
    exact hthrown (prepareSend_thrown_iff.mpr (.inr ⟨_, _, hbudget, hload⟩))
  | @stopped message hprep hrefused =>
    unfold Throws SorobanEnv.send
    rw [hprep]
    exact toValue_throws_iff.mpr hrefused
  | @failed input hprep hfailed hrefused =>
    unfold Throws SorobanEnv.send
    rw [hprep]
    rcases settleCall_cases hprep with ⟨out, -, -, hnumbers, hsettle⟩ | ⟨_, _, _, hdone, -⟩
    · simp only [hsettle]
      exact toValue_throws_iff.mpr (hnumbers ▸ hrefused)
    · exact absurd hdone (hfailed _ _ _)
  | change hdone hch hxdr => exact (send_throws_of_completed hdone).mpr (.inl ⟨_, hch, hxdr⟩)
  | completed hdone hrefused => exact (send_throws_of_completed hdone).mpr (.inr hrefused)

/-- A call throws for the reasons listed, and for no other. -/
theorem send_throws_iff {d : Deps} {args : SendArgs} {env : SorobanEnv} :
    Throws (SorobanEnv.send d args) env ↔ SendThrows d args env := by
  refine ⟨fun hthrows => ?_, SendThrows.throws⟩
  rcases send_cases d args env with ⟨e, hprep, -⟩ | ⟨message, hprep, hsend⟩ |
    ⟨input, out, hprep, hfailed, -, hnumbers, hsend⟩ | ⟨input, res, value, consumed, hdone, -⟩
  · rcases prepareSend_thrown_iff.mp ⟨e, hprep⟩ with ⟨e', hbudget⟩ | ⟨budget, e', hbudget, hload⟩
    · exact .budget hbudget
    · exact .rentSize hbudget hload
  · unfold Throws at hthrows
    rw [hsend] at hthrows
    exact .stopped hprep (toValue_throws_iff.mp hthrows)
  · unfold Throws at hthrows
    rw [hsend] at hthrows
    have hrefused := toValue_throws_iff.mp hthrows
    rw [hnumbers] at hrefused
    exact .failed hprep hfailed hrefused
  · rcases (send_throws_of_completed hdone).mp hthrows with ⟨ch, hch, hxdr⟩ | hrefused
    · exact .change hdone hch hxdr
    · exact .completed hdone hrefused

end LiteSoroban

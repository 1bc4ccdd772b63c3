import Mathlib.Data.List.Forall2
import LiteSoroban.Env.Send

/-!
# What a call can do

`prepareSend_ok` says what the host is handed.  `Handed` is what it is handed
for one key of the footprint.

`send_ok` and `send_error` say everything an enforcing call can do to the
environment, so that no later proof unfolds `send`.  Either the call changes
the module cache and nothing else, or the host completed it, every check
passed, and the store is what the merge loop made of the host's changes.

`mergeChange_cases` says the same of one turn of the merge loop: it does one
of four things to the store.  `mergeChanges_induction` carries a fact about
one turn to the loop.
-/

namespace LiteSoroban

open Effect

/-! ## What the host is handed -/

/-- What the host is handed for a key: nothing for an entry that is not there
or is temporary and expired, and otherwise the stored entry. -/
def SorobanEnv.Handed (d : Deps) (env : SorobanEnv) (args : SendArgs) (budget : Budget)
    (key : LedgerKey) (item : Option (Encoded LedgerEntry) × Option TtlLedgerEntryMeta) : Prop :=
  match env.store.lookup key with
  | none => item = (none, none)
  | some e =>
    if isTemporary key && env.expired e.liveUntil then item = (none, none)
    else item.1 = some ⟨d.entrySize e.entry, some e.entry⟩ ∧
      ttlMeta d env args budget key e (d.entrySize e.entry) = .ok item.2

/-- Noting code meters nothing and hands nothing over. -/
theorem Loaded.noteCode_frame (env : SorobanEnv) (args : SendArgs) (key : LedgerKey)
    (e : EntryWithLiveUntil) (acc : Loaded) :
    ∃ restoredCode liveCode, acc.noteCode env args key e =
      { acc with restoredCode := restoredCode, liveCode := liveCode } := by
  unfold Loaded.noteCode
  split
  · split
    · exact ⟨_, _, rfl⟩
    · split
      · exact ⟨_, _, rfl⟩
      · exact ⟨_, _, rfl⟩
  · exact ⟨_, _, rfl⟩

theorem Loaded.noteCode_entries (env : SorobanEnv) (args : SendArgs) (key : LedgerKey)
    (e : EntryWithLiveUntil) (acc : Loaded) :
    (acc.noteCode env args key e).entries = acc.entries := by
  obtain ⟨_, _, h⟩ := acc.noteCode_frame env args key e
  rw [h]

theorem Loaded.noteCode_diskReadBytes (env : SorobanEnv) (args : SendArgs) (key : LedgerKey)
    (e : EntryWithLiveUntil) (acc : Loaded) :
    (acc.noteCode env args key e).diskReadBytes = acc.diskReadBytes := by
  obtain ⟨_, _, h⟩ := acc.noteCode_frame env args key e
  rw [h]

/-- One turn of the loop over the footprint hands over one item. -/
theorem loadKey_ok {d : Deps} {env : SorobanEnv} {args : SendArgs} {budget : Budget}
    {acc acc' : Loaded} {key : LedgerKey} (h : loadKey d env args budget acc key = .ok acc') :
    ∃ item, env.Handed d args budget key item ∧ acc'.entries = acc.entries ++ [item] := by
  simp only [loadKey] at h
  simp only [SorobanEnv.Handed]
  cases hlookup : env.store.lookup key with
  | none =>
    simp only [hlookup] at h
    cases h
    exact ⟨(none, none), rfl, rfl⟩
  | some e =>
    simp only [hlookup] at h ⊢
    split at h
    · next hexpired =>
      cases h
      exact ⟨(none, none), by rw [if_pos hexpired], rfl⟩
    · next hlive =>
      simp only [Except.bind_eq_ok] at h
      obtain ⟨_, -, read, -, ttl, httl, h⟩ := h
      cases h
      refine ⟨(some ⟨d.entrySize e.entry, some e.entry⟩, ttl), ?_, ?_⟩
      · rw [if_neg hlive]
        exact ⟨rfl, httl⟩
      · simp only [Loaded.push, acc.noteCode_entries env args key e]

/-- The loop hands over one item for each key, in the footprint's order. -/
theorem loadFootprint_ok {d : Deps} {env : SorobanEnv} {args : SendArgs} {budget : Budget}
    {loaded : Loaded} (h : loadFootprint d env args budget = .ok loaded) :
    List.Forall₂ (env.Handed d args budget) args.resources.footprint.keys loaded.entries := by
  have hloop : ∀ (keys : List LedgerKey) (acc : Loaded),
      keys.foldlM (loadKey d env args budget) acc = .ok loaded →
      ∃ items, loaded.entries = acc.entries ++ items ∧
        List.Forall₂ (env.Handed d args budget) keys items := by
    intro keys
    induction keys with
    | nil =>
      intro acc hacc
      cases hacc
      exact ⟨[], (List.append_nil _).symm, .nil⟩
    | cons key keys ih =>
      intro acc hacc
      rw [List.foldlM_cons, Except.bind_eq_ok] at hacc
      obtain ⟨acc', hkey, hrest⟩ := hacc
      obtain ⟨item, hitem, hentries⟩ := loadKey_ok hkey
      obtain ⟨items, hloaded, hitems⟩ := ih acc' hrest
      exact ⟨item :: items, by rw [hloaded, hentries, List.append_assoc]; rfl, .cons hitem hitems⟩
  obtain ⟨items, hloaded, hitems⟩ := hloop _ _ h
  rw [hloaded]
  exact hitems

/-- What the host is called with. -/
structure Prepared (d : Deps) (env : SorobanEnv) (args : SendArgs) (input : HostInput)
    (loaded : Loaded) : Prop where
  budget : env.enforcingBudget d args.resources.instructions = .ok input.budget
  footprint : loadFootprint d env args input.budget = .ok loaded
  input_eq : input =
    { budget := input.budget
      hostFunction := args.hostFunction
      resources := args.resources
      restoredRwEntryIndices := args.restoredRwEntryIndices
      source := args.source
      auth := args.auth
      ledgerInfo := env.ledgerInfo
      entries := loaded.entries
      basePrngSeed := List.replicate 32 0
      moduleCache := env.prepareModuleCache d loaded.liveCode loaded.restoredCode }

theorem prepareSend_ok {d : Deps} {env : SorobanEnv} {args : SendArgs} {input : HostInput}
    (h : prepareSend d env args = .ok input) : ∃ loaded, Prepared d env args input loaded := by
  simp only [prepareSend] at h
  cases hbudget : env.enforcingBudget d args.resources.instructions with
  | error e => simp [hbudget] at h
  | ok budget =>
    simp only [hbudget] at h
    cases hloaded : loadFootprint d env args budget with
    | error stop => simp [hloaded] at h
    | ok loaded =>
      simp only [hloaded] at h
      cases h
      exact ⟨loaded, hbudget, hloaded, rfl⟩

/-- Every key of the footprint with the item the host is handed for it. -/
def HostInput.handed (input : HostInput) :
    List (LedgerKey × Option (Encoded LedgerEntry) × Option TtlLedgerEntryMeta) :=
  input.resources.footprint.keys.zip input.entries

theorem Prepared.handed {d : Deps} {env : SorobanEnv} {args : SendArgs} {input : HostInput}
    {loaded : Loaded} (h : Prepared d env args input loaded) :
    List.Forall₂ (env.Handed d args input.budget) input.resources.footprint.keys input.entries := by
  rw [h.input_eq]
  exact loadFootprint_ok h.footprint

/-- The host is handed something for every key of the footprint. -/
theorem Prepared.exists_handed {d : Deps} {env : SorobanEnv} {args : SendArgs}
    {input : HostInput} {loaded : Loaded} (h : Prepared d env args input loaded) {key : LedgerKey}
    (hkey : key ∈ input.resources.footprint.keys) :
    ∃ item, (key, item) ∈ input.handed ∧ env.Handed d args input.budget key item := by
  obtain ⟨hlength, hzip⟩ := List.forall₂_iff_zip.mp h.handed
  obtain ⟨i, hi, hget⟩ := List.mem_iff_getElem.mp hkey
  have hi' : i < input.entries.length := hlength ▸ hi
  have hmem : (key, input.entries[i]) ∈ input.handed := by
    rw [← hget]
    exact List.mem_iff_getElem.mpr ⟨i, by simp [HostInput.handed, hi, hi'], by
      simp [HostInput.handed]⟩
  exact ⟨input.entries[i], hmem, hzip hmem⟩

/-- What is handed over under a key is what is stored there. -/
theorem Prepared.stored_of_handed {d : Deps} {env : SorobanEnv} {args : SendArgs}
    {input : HostInput} {loaded : Loaded} (h : Prepared d env args input loaded) {key : LedgerKey}
    {value : Encoded LedgerEntry} {ttl : Option TtlLedgerEntryMeta}
    (hmem : (key, some value, ttl) ∈ input.handed) :
    ∃ e, env.store.lookup key = some e ∧ value.decoded = some e.entry := by
  have hhanded := (List.forall₂_iff_zip.mp h.handed).2 hmem
  unfold SorobanEnv.Handed at hhanded
  cases hstored : env.store.lookup key with
  | none =>
    simp only [hstored] at hhanded
    cases hhanded
  | some e =>
    simp only [hstored] at hhanded
    split at hhanded
    · cases hhanded
    · cases hhanded.1
      exact ⟨e, rfl, rfl⟩

/-- A key that is handed over without an entry, and is not temporary, has
none. -/
theorem Prepared.missing_of_handed {d : Deps} {env : SorobanEnv} {args : SendArgs}
    {input : HostInput} {loaded : Loaded} (h : Prepared d env args input loaded) {key : LedgerKey}
    (hlasting : isTemporary key = false) {ttl : Option TtlLedgerEntryMeta}
    (hmem : (key, none, ttl) ∈ input.handed) : env.store.lookup key = none := by
  have hhanded := (List.forall₂_iff_zip.mp h.handed).2 hmem
  unfold SorobanEnv.Handed at hhanded
  cases hstored : env.store.lookup key with
  | none => rfl
  | some e =>
    simp only [hstored, hlasting, Bool.false_and, Bool.false_eq_true, if_false] at hhanded
    cases hhanded.1

theorem Prepared.resources_eq {d : Deps} {env : SorobanEnv} {args : SendArgs}
    {input : HostInput} {loaded : Loaded} (h : Prepared d env args input loaded) :
    input.resources = args.resources := by
  rw [h.input_eq]

/-! ## One turn of the merge loop -/

/-- What one of the host's changes does to the store: nothing, a new value, a
moved TTL, or a removal. -/
theorem mergeChange_cases (ch : LedgerEntryChange) (m : Merged) :
    (finalState (mergeChange ch m)).store = m.store ∨
    (∃ key newValue entry, ch.encodedKey.decoded = some key ∧
      ch.encodedNewValue = some newValue ∧ newValue.decoded = some entry ∧
      (finalState (mergeChange ch m)).store =
        m.store.insert key ⟨entry, ch.ttlChange.map (·.newLiveUntilLedger)⟩) ∨
    (∃ key slot ttl, ch.encodedKey.decoded = some key ∧ ch.encodedNewValue = none ∧
      ch.readOnly = true ∧ ch.ttlChange = some ttl ∧ m.store.lookup key = some slot ∧
      (finalState (mergeChange ch m)).store =
        m.store.insert key ⟨slot.entry, some ttl.newLiveUntilLedger⟩) ∨
    (∃ key, ch.encodedKey.decoded = some key ∧ ch.encodedNewValue = none ∧
      ch.readOnly = false ∧ (finalState (mergeChange ch m)).store = m.store.erase key) := by
  simp only [mergeChange]
  cases hkey : ch.encodedKey.decoded with
  | none => exact .inl rfl
  | some key =>
    cases hvalue : ch.encodedNewValue with
    | some newValue =>
      cases hentry : newValue.decoded with
      | none => exact .inl (by simp [hentry])
      | some entry =>
        exact .inr (.inl ⟨key, newValue, entry, rfl, rfl, hentry, by simp [hentry]⟩)
    | none =>
      cases hro : ch.readOnly with
      | false => exact .inr (.inr (.inr ⟨key, rfl, rfl, rfl, rfl⟩))
      | true =>
        cases httl : ch.ttlChange with
        | none => exact .inl rfl
        | some ttl =>
          cases hslot : m.store.lookup key with
          | none => exact .inl (by simp [hslot])
          | some slot =>
            refine .inr (.inr (.inl ⟨key, slot, ttl, rfl, rfl, rfl, rfl, hslot, ?_⟩))
            simp [hslot]

/-- What holds of every stored entry holds of them after a turn, if it holds of
what the change writes and does not depend on the TTL the change moves. -/
theorem mergeChange_forall {P : LedgerKey → EntryWithLiveUntil → Prop} {ch : LedgerEntryChange}
    (hwritten : ∀ key newValue entry, ch.encodedKey.decoded = some key →
      ch.encodedNewValue = some newValue → newValue.decoded = some entry →
      P key ⟨entry, ch.ttlChange.map (·.newLiveUntilLedger)⟩)
    (hmoved : ∀ key slot ttl, ch.encodedKey.decoded = some key → ch.ttlChange = some ttl →
      P key slot → P key ⟨slot.entry, some ttl.newLiveUntilLedger⟩)
    {m : Merged} (hm : ∀ key e, m.store.lookup key = some e → P key e) :
    ∀ key e, (finalState (mergeChange ch m)).store.lookup key = some e → P key e := by
  rcases mergeChange_cases ch m with hsame | ⟨key, newValue, entry, hkey, hnew, hentry, hstore⟩ |
    ⟨key, slot, ttl, hkey, -, -, httl, hslot, hstore⟩ | ⟨key, -, -, -, hstore⟩
  · rw [hsame]
    exact hm
  · rw [hstore]
    exact Store.forall_insert hm (hwritten key newValue entry hkey hnew hentry)
  · rw [hstore]
    exact Store.forall_insert hm (hmoved key slot ttl hkey httl (hm key slot hslot))
  · rw [hstore]
    exact Store.forall_erase hm key

/-- What every turn of the merge loop keeps, the loop keeps, also when it
throws on the way. -/
theorem mergeChanges_induction {P : Merged → Prop} {changes : List LedgerEntryChange}
    (hstep : ∀ ch ∈ changes, ∀ m, P m → P (finalState (mergeChange ch m)))
    {m : Merged} (hm : P m) : P (finalState (mergeChanges changes m)) := by
  induction changes generalizing m with
  | nil => exact hm
  | cons ch chs ih =>
    have hone : P (finalState (mergeChange ch m)) := hstep ch List.mem_cons_self m hm
    simp only [mergeChanges, bind, EStateM.bind]
    cases hch : mergeChange ch m with
    | error e m₁ =>
      rw [hch] at hone
      exact hone
    | ok u m₁ =>
      rw [hch] at hone
      exact ih (fun ch' hch' => hstep ch' (List.mem_cons_of_mem ch hch')) hone

/-- A change whose key and new value decode, so that the loop does not throw on
it. -/
structure LedgerEntryChange.Decodes (ch : LedgerEntryChange) : Prop where
  key : ch.encodedKey.decoded.isSome
  newValue : ∀ newValue, ch.encodedNewValue = some newValue → newValue.decoded.isSome

theorem mergeChange_total {ch : LedgerEntryChange} (hch : ch.Decodes) (m : Merged) :
    ∃ m', mergeChange ch m = .ok () m' := by
  obtain ⟨key, hkey⟩ := Option.isSome_iff_exists.mp hch.key
  simp only [mergeChange, hkey]
  split
  · next newValue hvalue =>
    obtain ⟨entry, hentry⟩ := Option.isSome_iff_exists.mp (hch.newValue newValue hvalue)
    simp only [hentry]
    exact ⟨_, rfl⟩
  · split
    · exact ⟨_, rfl⟩
    · exact ⟨_, rfl⟩
  · exact ⟨_, rfl⟩

/-- The loop does not throw on changes that decode. -/
theorem mergeChanges_total {changes : List LedgerEntryChange}
    (hchanges : ∀ ch ∈ changes, ch.Decodes) (m : Merged) :
    ∃ m', mergeChanges changes m = .ok () m' := by
  induction changes generalizing m with
  | nil => exact ⟨m, rfl⟩
  | cons ch changes ih =>
    obtain ⟨mid, hone⟩ := mergeChange_total (hchanges ch List.mem_cons_self) m
    obtain ⟨m', hrest⟩ := ih (fun ch' hch' => hchanges ch' (List.mem_cons_of_mem ch hch')) mid
    exact ⟨m', bind_eq_ok.mpr ⟨(), mid, hone, hrest⟩⟩

theorem mergeChange_throws_iff {ch : LedgerEntryChange} {m : Merged} :
    Throws (mergeChange ch) m ↔ ¬ ch.Decodes := by
  constructor
  · rintro ⟨e, m', h⟩ hch
    obtain ⟨m'', hok⟩ := mergeChange_total hch m
    cases hok.symm.trans h
  · intro hch
    unfold mergeChange Throws
    cases hkey : ch.encodedKey.decoded with
    | none => exact ⟨_, _, rfl⟩
    | some key =>
      cases hvalue : ch.encodedNewValue with
      | none => exact absurd ⟨by rw [hkey]; rfl, by simp [hvalue]⟩ hch
      | some newValue =>
        cases hentry : newValue.decoded with
        | none => exact ⟨_, _, by simp only [hentry]; rfl⟩
        | some entry =>
          refine absurd ⟨by rw [hkey]; rfl, fun value hv => ?_⟩ hch
          cases hvalue.symm.trans hv
          rw [hentry]
          rfl

/-- The loop throws on changes that do not all decode. -/
theorem mergeChanges_throws_iff {changes : List LedgerEntryChange} {m : Merged} :
    Throws (mergeChanges changes) m ↔ ∃ ch ∈ changes, ¬ ch.Decodes := by
  induction changes generalizing m with
  | nil => simp [mergeChanges, not_throws_pure]
  | cons ch changes ih =>
    unfold mergeChanges
    rw [throws_bind, mergeChange_throws_iff, List.exists_mem_cons_iff]
    by_cases hch : ch.Decodes
    · obtain ⟨m', hone⟩ := mergeChange_total hch m
      simp [hch, hone, ih]
    · simp [hch]

/-- The store after the host's changes. -/
def mergedStore (store : Store) (changes : List LedgerEntryChange) : Store :=
  (finalState (mergeChanges changes ⟨store, [], [], []⟩)).store

/-! ## The call -/

/-- The host was called with `input` and returned `res` with the value
`value`, and the checks after it passed and priced it at `consumed`. -/
structure HostCompleted (d : Deps) (env : SorobanEnv) (args : SendArgs) (input : HostInput)
    (res : InvokeHostFunctionResult) (value : Encoded ScVal) (consumed : Consumed) : Prop where
  prepared : prepareSend d env args = .ok input
  returned : (d.invokeHostFunction input).result = .ok res
  succeeded : res.encodedInvokeResult = .ok value
  written : checkWrittenEntries env args.resources res.ledgerChanges 0 = .ok ()
  consumed : consumeRefundable d env res value.len args.maxRefundableFee = .ok consumed

/-- A call that did not succeed: what it answers, and that it has written
nothing. -/
structure SendFailed (d : Deps) (env : SorobanEnv) (out : SendResult) (env' : SorobanEnv) :
    Prop where
  ok : out.ok = false
  changed : out.changedKeys = []
  removed : out.removedKeys = []
  returnValue : out.returnValue = none
  /-- A call that trapped keeps the events the host returned. -/
  events : out.events = [] ∨ ∃ input res,
    (d.invokeHostFunction input).result = .ok res ∧ out.events = res.encodedContractEvents
  frame : ∃ cache, env' = { env with moduleCache := cache }

/-- The numbers of an answer that cross into JavaScript. -/
def SendResult.numbers (out : SendResult) : List Int :=
  [out.cpuInsns, out.memBytes, out.rentFee, out.refundableFeeConsumed]

theorem toValue_ok {d : Deps} {out out' : SendResult} {env env' : SorobanEnv}
    (h : out.toValue d env = .ok out' env') : out' = out ∧ env' = env := by
  simp only [SendResult.toValue] at h
  split at h
  · cases h
    exact ⟨rfl, rfl⟩
  · cases h

theorem toValue_error {d : Deps} {out : SendResult} {env env' : SorobanEnv} {e : JsError}
    (h : out.toValue d env = .error e env') : env' = env := by
  simp only [SendResult.toValue] at h
  split at h
  · cases h
  · cases h
    rfl

/-- The written entries are checked against two settings. -/
theorem checkWrittenEntries_congr {env env' : SorobanEnv}
    (hfees : env'.feeSettings = env.feeSettings)
    (hdeclared : env'.checksDeclaredBytes = env.checksDeclaredBytes) :
    checkWrittenEntries env' = checkWrittenEntries env := by
  funext resources changes
  induction changes with
  | nil => rfl
  | cons ch chs ih =>
    funext bytes
    simp only [checkWrittenEntries, ih, hfees, hdeclared]

/-- A send does not touch them. -/
theorem checkWrittenEntries_cache (env : SorobanEnv) (cache : Option ModuleCache) :
    checkWrittenEntries { env with moduleCache := cache } = checkWrittenEntries env :=
  checkWrittenEntries_congr rfl rfl

/-- What follows the host's return: the call has failed, or the host completed
it and its changes are merged. -/
theorem settleCall_cases {d : Deps} {args : SendArgs} {env : SorobanEnv} {input : HostInput}
    (hprep : prepareSend d env args = .ok input) :
    (∃ out, (∀ res value consumed, ¬ HostCompleted d env args input res value consumed) ∧
      SendFailed d env out { env with moduleCache := some input.moduleCache } ∧
      out.numbers = [((d.invokeHostFunction input).cpuInsnsConsumed : Int),
        (d.invokeHostFunction input).memBytesConsumed, 0, 0] ∧
      settleCall d { env with moduleCache := some input.moduleCache } args
        (d.invokeHostFunction input) =
          out.toValue d { env with moduleCache := some input.moduleCache }) ∨
    ∃ res value consumed, HostCompleted d env args input res value consumed ∧
      settleCall d { env with moduleCache := some input.moduleCache } args
        (d.invokeHostFunction input) =
          match mergeChanges res.ledgerChanges ⟨env.store, [], [], []⟩ with
          | .error e m =>
            .error e { env with moduleCache := some input.moduleCache, store := m.store }
          | .ok () m => (completed (d.invokeHostFunction input) res value consumed m).toValue d
            { env with moduleCache := some input.moduleCache, store := m.store } := by
  unfold settleCall
  cases hres : (d.invokeHostFunction input).result with
  | error e =>
    refine .inl ⟨_, fun res value consumed hdone => ?_, ⟨rfl, rfl, rfl, rfl, .inl rfl, _, rfl⟩,
      rfl, rfl⟩
    cases hres.symm.trans hdone.returned
  | ok res =>
    cases hvalue : res.encodedInvokeResult with
    | error e =>
      simp only [hvalue]
      refine .inl ⟨_, fun res' value consumed hdone => ?_,
        ⟨rfl, rfl, rfl, rfl, .inr ⟨input, res, hres, rfl⟩, _, rfl⟩, rfl, rfl⟩
      cases hres.symm.trans hdone.returned
      cases hvalue.symm.trans hdone.succeeded
    | ok value =>
      simp only [hvalue, checkWrittenEntries_cache]
      cases hchecks : (do
          checkWrittenEntries env args.resources res.ledgerChanges 0
          consumeRefundable d { env with moduleCache := some input.moduleCache } res value.len
            args.maxRefundableFee) with
      | error failure =>
        refine .inl ⟨_, fun res' value' consumed hdone => ?_,
          ⟨rfl, rfl, rfl, rfl, .inl rfl, _, rfl⟩, rfl, rfl⟩
        cases hres.symm.trans hdone.returned
        cases hvalue.symm.trans hdone.succeeded
        cases hchecks.symm.trans (Except.bind_eq_ok.mpr ⟨(), hdone.written, hdone.consumed⟩)
      | ok consumed =>
        obtain ⟨_, hwritten, hconsumed⟩ := Except.bind_eq_ok.mp hchecks
        exact .inr ⟨res, value, consumed, ⟨hprep, hres, hvalue, hwritten, hconsumed⟩, rfl⟩

/-- The four ways a call goes: it throws before the host runs, it fails before
the host runs, it fails in the host or in a check after it, or the host
completed it and its changes are merged. -/
theorem send_cases (d : Deps) (args : SendArgs) (env : SorobanEnv) :
    (∃ e, prepareSend d env args = .error (.thrown e) ∧ env.send d args = .error e env) ∨
    (∃ message, prepareSend d env args = .error (.failed message) ∧
      env.send d args = (failedBeforeHost message).toValue d env) ∨
    (∃ input out, prepareSend d env args = .ok input ∧
      (∀ res value consumed, ¬ HostCompleted d env args input res value consumed) ∧
      SendFailed d env out { env with moduleCache := some input.moduleCache } ∧
      out.numbers = [((d.invokeHostFunction input).cpuInsnsConsumed : Int),
        (d.invokeHostFunction input).memBytesConsumed, 0, 0] ∧
      env.send d args = out.toValue d { env with moduleCache := some input.moduleCache }) ∨
    ∃ input res value consumed, HostCompleted d env args input res value consumed ∧
      env.send d args = match mergeChanges res.ledgerChanges ⟨env.store, [], [], []⟩ with
        | .error e m =>
          .error e { env with moduleCache := some input.moduleCache, store := m.store }
        | .ok () m => (completed (d.invokeHostFunction input) res value consumed m).toValue d
          { env with moduleCache := some input.moduleCache, store := m.store } := by
  unfold SorobanEnv.send
  cases hprep : prepareSend d env args with
  | error stop =>
    cases stop with
    | thrown e => exact .inl ⟨e, rfl, rfl⟩
    | failed message => exact .inr (.inl ⟨message, rfl, rfl⟩)
  | ok input =>
    rcases settleCall_cases hprep with ⟨out, hnot, hout, hnumbers, hsettle⟩ |
      ⟨res, value, consumed, hdone, hsettle⟩
    · exact .inr (.inr (.inl ⟨input, out, rfl, hnot, hout, hnumbers, hsettle⟩))
    · exact .inr (.inr (.inr ⟨input, res, value, consumed, hdone, hsettle⟩))

/-- A call that returns has failed and written nothing, or it has succeeded
and merged the host's changes. -/
theorem send_ok {d : Deps} {args : SendArgs} {env env' : SorobanEnv} {out : SendResult}
    (h : env.send d args = .ok out env') :
    SendFailed d env out env' ∨
    ∃ input res value consumed m, HostCompleted d env args input res value consumed ∧
      mergeChanges res.ledgerChanges ⟨env.store, [], [], []⟩ = .ok () m ∧
      out = completed (d.invokeHostFunction input) res value consumed m ∧
      env' = { env with moduleCache := some input.moduleCache, store := m.store } := by
  rcases send_cases d args env with ⟨e, -, hsend⟩ | ⟨message, -, hsend⟩ |
    ⟨input, failed, -, -, hfailed, -, hsend⟩ | ⟨input, res, value, consumed, hdone, hsend⟩
  · rw [hsend] at h
    cases h
  · rw [hsend] at h
    obtain ⟨rfl, rfl⟩ := toValue_ok h
    exact .inl ⟨rfl, rfl, rfl, rfl, .inl rfl, env'.moduleCache, rfl⟩
  · rw [hsend] at h
    obtain ⟨rfl, rfl⟩ := toValue_ok h
    exact .inl hfailed
  · rw [hsend] at h
    cases hmerge : mergeChanges res.ledgerChanges ⟨env.store, [], [], []⟩ with
    | error e m => simp [hmerge] at h
    | ok u m =>
      simp only [hmerge] at h
      obtain ⟨rfl, rfl⟩ := toValue_ok h
      exact .inr ⟨input, res, value, consumed, m, hdone, hmerge, rfl, rfl⟩

/-- A call has one input, and one result if the host completed it. -/
theorem HostCompleted.unique {d : Deps} {env : SorobanEnv} {args : SendArgs}
    {input input' : HostInput} {res res' : InvokeHostFunctionResult} {value value' : Encoded ScVal}
    {consumed consumed' : Consumed} (h : HostCompleted d env args input res value consumed)
    (h' : HostCompleted d env args input' res' value' consumed') :
    input' = input ∧ res' = res ∧ value' = value ∧ consumed' = consumed := by
  cases h.prepared.symm.trans h'.prepared
  cases h.returned.symm.trans h'.returned
  cases h.succeeded.symm.trans h'.succeeded
  cases h.consumed.symm.trans h'.consumed
  exact ⟨rfl, rfl, rfl, rfl⟩

/-- A call the host completed merges its changes and answers. -/
theorem HostCompleted.send_eq {d : Deps} {args : SendArgs} {env : SorobanEnv} {input : HostInput}
    {res : InvokeHostFunctionResult} {value : Encoded ScVal} {consumed : Consumed}
    (h : HostCompleted d env args input res value consumed) :
    env.send d args = match mergeChanges res.ledgerChanges ⟨env.store, [], [], []⟩ with
      | .error e m =>
        .error e { env with moduleCache := some input.moduleCache, store := m.store }
      | .ok () m => (completed (d.invokeHostFunction input) res value consumed m).toValue d
        { env with moduleCache := some input.moduleCache, store := m.store } := by
  unfold SorobanEnv.send
  rw [h.prepared]
  rcases settleCall_cases h.prepared with ⟨out, hnot, -⟩ | ⟨res', value', consumed', hdone, hsettle⟩
  · exact absurd h (hnot res value consumed)
  · obtain ⟨-, rfl, rfl, rfl⟩ := h.unique hdone
    exact hsettle

/-- A call the host completed, with changes that merge and a result that JS
numbers hold, succeeds. -/
theorem HostCompleted.send {d : Deps} {args : SendArgs} {env : SorobanEnv} {input : HostInput}
    {res : InvokeHostFunctionResult} {value : Encoded ScVal} {consumed : Consumed} {m : Merged}
    (h : HostCompleted d env args input res value consumed)
    (hmerge : mergeChanges res.ledgerChanges ⟨env.store, [], [], []⟩ = .ok () m)
    (hvalue : ∀ out env₁, SendResult.toValue d out env₁ = .ok out env₁) :
    env.send d args = .ok (completed (d.invokeHostFunction input) res value consumed m)
      { env with moduleCache := some input.moduleCache, store := m.store } := by
  rw [h.send_eq, hmerge]
  exact hvalue _ _

/-- A call that throws has written nothing, or has merged the host's changes
up to the one it threw on. -/
theorem send_error {d : Deps} {args : SendArgs} {env env' : SorobanEnv} {e : JsError}
    (h : env.send d args = .error e env') :
    (∃ cache, env' = { env with moduleCache := cache }) ∨
    ∃ input res value consumed, HostCompleted d env args input res value consumed ∧
      env' = { env with
        moduleCache := some input.moduleCache
        store := mergedStore env.store res.ledgerChanges } := by
  rcases send_cases d args env with ⟨e', -, hsend⟩ | ⟨message, -, hsend⟩ |
    ⟨input, failed, -, -, -, -, hsend⟩ | ⟨input, res, value, consumed, hdone, hsend⟩
  · rw [hsend] at h
    cases h
    exact .inl ⟨env.moduleCache, rfl⟩
  · rw [hsend] at h
    exact .inl ⟨env.moduleCache, toValue_error h⟩
  · rw [hsend] at h
    exact .inl ⟨_, toValue_error h⟩
  · rw [hsend] at h
    refine .inr ⟨input, res, value, consumed, hdone, ?_⟩
    cases hmerge : mergeChanges res.ledgerChanges ⟨env.store, [], [], []⟩ with
    | error e' m =>
      simp only [hmerge, EStateM.Result.error.injEq] at h
      rw [← h.2, mergedStore, hmerge]
      rfl
    | ok u m =>
      simp only [hmerge] at h
      rw [toValue_error h, mergedStore, hmerge]
      rfl

/-- A successful call leaves the store the merge loop makes of the host's
changes. -/
theorem mergedStore_of_ok {store : Store} {changes : List LedgerEntryChange} {m : Merged}
    (h : mergeChanges changes ⟨store, [], [], []⟩ = .ok () m) :
    mergedStore store changes = m.store := by
  rw [mergedStore, h]
  rfl

/-- What a call can do to the store and to nothing else but the module cache:
nothing, or the host's changes. -/
theorem send_frame (d : Deps) (args : SendArgs) (env : SorobanEnv) :
    (∃ cache, finalState (env.send d args) = { env with moduleCache := cache }) ∨
    ∃ input res value consumed, HostCompleted d env args input res value consumed ∧
      finalState (env.send d args) = { env with
        moduleCache := some input.moduleCache
        store := mergedStore env.store res.ledgerChanges } := by
  cases hsend : env.send d args with
  | ok out env' =>
    rcases send_ok hsend with hfailed | ⟨input, res, value, consumed, m, hdone, hmerge, _, rfl⟩
    · exact .inl hfailed.frame
    · refine .inr ⟨input, res, value, consumed, hdone, ?_⟩
      rw [mergedStore_of_ok hmerge]
      rfl
  | error e env' => exact send_error hsend

end LiteSoroban

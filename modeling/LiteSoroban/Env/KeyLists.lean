import LiteSoroban.Env.SendVerdict

/-!
# The keys a call reports

A successful call reports three lists of keys.  They are not read off two
stores: the merge loop fills them from the host's changes, and the host
returns one change for every key of the footprint, changed or not.

`DescribesChange` is what the lists have to be to describe the step from one
store to another.  `LedgerEntryChange.list` is where the loop puts a key, and
`mergeChanges_listed` that it puts it nowhere else.

One list says too much.  A read-write key without a new value is reported as
removed also if there never was an entry under it, and
`send_describesChange_iff` is the exact condition.
-/

namespace LiteSoroban

open Effect

/-! ## What the lists say -/

/-- The three lists of a result. -/
inductive KeyList where
  | changed
  | removed
  | ttlChanged
  deriving DecidableEq

def SendResult.keys (out : SendResult) : KeyList → List LedgerKey
  | .changed => out.changedKeys
  | .removed => out.removedKeys
  | .ttlChanged => out.ttlChangedKeys

def Merged.keys (m : Merged) : KeyList → List LedgerKey
  | .changed => m.changedKeys
  | .removed => m.removedKeys
  | .ttlChanged => m.ttlChangedKeys

/-- The lists describe the step from one store to another. -/
structure DescribesChange (keys : KeyList → List LedgerKey) (store store' : Store) : Prop where
  /-- A key whose entry or TTL differs is in exactly one of them. -/
  differs : ∀ key, store'.lookup key ≠ store.lookup key → ∃! list, key ∈ keys list
  /-- What is removed was there and is not. -/
  removed : ∀ key ∈ keys .removed, (store.lookup key).isSome ∧ store'.lookup key = none
  /-- Where only the TTL changed, the entry did not and the TTL did. -/
  ttlChanged : ∀ key ∈ keys .ttlChanged, ∃ e e', store.lookup key = some e ∧
    store'.lookup key = some e' ∧ e'.entry = e.entry ∧ e'.liveUntil ≠ e.liveUntil
  nodup : ∀ list, (keys list).Nodup

/-- One change for each of distinct keys. -/
def DistinctKeys (changes : List LedgerEntryChange) : Prop :=
  ∃ keys : List LedgerKey, keys.Nodup ∧
    List.Forall₂ (fun key ch => ch.encodedKey.decoded = some key) keys changes

/-- What the changes remove is in the store. -/
def RemovesStored (store : Store) (changes : List LedgerEntryChange) : Prop :=
  ∀ ch ∈ changes, ch.readOnly = false → ch.encodedNewValue = none →
    ∀ key, ch.encodedKey.decoded = some key → (store.lookup key).isSome

/-! ## Where the loop puts a key -/

/-- The list a change puts its key on, given what is stored under the key. -/
def LedgerEntryChange.list (ch : LedgerEntryChange) (slot : Option EntryWithLiveUntil) :
    Option KeyList :=
  match ch.encodedNewValue, ch.readOnly with
  | some _, _ => some .changed
  | none, true =>
    match ch.ttlChange.map (·.newLiveUntilLedger), slot with
    | some t, some slot => if slot.liveUntil = some t then none else some .ttlChanged
    | _, _ => none
  | none, false => some .removed

/-- A change that changes the entry puts its key on a list. -/
theorem LedgerEntryChange.list_of_applyTo_ne {ch : LedgerEntryChange}
    {slot : Option EntryWithLiveUntil} (h : ch.applyTo slot ≠ slot) :
    ∃ list, ch.list slot = some list := by
  cases hvalue : ch.encodedNewValue with
  | some newValue => exact ⟨.changed, by simp only [LedgerEntryChange.list, hvalue]⟩
  | none =>
    cases hro : ch.readOnly with
    | false => exact ⟨.removed, by simp only [LedgerEntryChange.list, hvalue, hro]⟩
    | true =>
      simp only [LedgerEntryChange.applyTo, hvalue, hro] at h
      simp only [LedgerEntryChange.list, hvalue, hro]
      cases httl : ch.ttlChange with
      | none =>
        simp only [httl, Option.map_none] at h
        exact absurd rfl h
      | some ttlChange =>
        cases slot with
        | none =>
          simp only [httl, Option.map_some] at h
          exact absurd rfl h
        | some e =>
          simp only [httl, Option.map_some] at h ⊢
          by_cases hsame : e.liveUntil = some ttlChange.newLiveUntilLedger
          · rw [← hsame] at h
            exact absurd rfl h
          · exact ⟨.ttlChanged, if_neg hsame⟩

theorem LedgerEntryChange.list_eq_removed {ch : LedgerEntryChange}
    {slot : Option EntryWithLiveUntil} :
    ch.list slot = some .removed ↔ ch.readOnly = false ∧ ch.encodedNewValue = none := by
  cases hvalue : ch.encodedNewValue with
  | some newValue => simp [LedgerEntryChange.list, hvalue]
  | none =>
    cases hro : ch.readOnly with
    | false => simp [LedgerEntryChange.list, hvalue, hro]
    | true =>
      simp only [LedgerEntryChange.list, hvalue, hro]
      cases ch.ttlChange with
      | none => simp
      | some ttlChange =>
        cases slot with
        | none => simp
        | some e =>
          by_cases hsame : e.liveUntil = some ttlChange.newLiveUntilLedger
          · simp [hsame]
          · simp [hsame]

theorem LedgerEntryChange.list_eq_ttlChanged {ch : LedgerEntryChange}
    {slot : Option EntryWithLiveUntil} (h : ch.list slot = some .ttlChanged) :
    ∃ e e', slot = some e ∧ ch.applyTo slot = some e' ∧ e'.entry = e.entry ∧
      e'.liveUntil ≠ e.liveUntil := by
  cases hvalue : ch.encodedNewValue with
  | some newValue =>
    simp only [LedgerEntryChange.list, hvalue] at h
    cases h
  | none =>
    cases hro : ch.readOnly with
    | false =>
      simp only [LedgerEntryChange.list, hvalue, hro] at h
      cases h
    | true =>
      simp only [LedgerEntryChange.list, hvalue, hro] at h
      simp only [LedgerEntryChange.applyTo, hvalue, hro]
      cases httl : ch.ttlChange with
      | none =>
        simp only [httl, Option.map_none] at h
        cases h
      | some ttlChange =>
        cases slot with
        | none =>
          simp only [httl, Option.map_some] at h
          cases h
        | some e =>
          simp only [httl, Option.map_some] at h
          by_cases hsame : e.liveUntil = some ttlChange.newLiveUntilLedger
          · rw [if_pos hsame] at h
            cases h
          · exact ⟨e, _, rfl, rfl, rfl, fun heq => hsame heq.symm⟩

/-- One turn of the merge loop puts the key on its list. -/
theorem mergeChange_keys {ch : LedgerEntryChange} {key : LedgerKey} {m m' : Merged} {u : Unit}
    (hkey : ch.encodedKey.decoded = some key) (h : mergeChange ch m = .ok u m') (list : KeyList) :
    m'.keys list =
      m.keys list ++ if ch.list (m.store.lookup key) = some list then [key] else [] := by
  cases hvalue : ch.encodedNewValue with
  | some newValue =>
    simp only [mergeChange, hkey, hvalue] at h
    simp only [LedgerEntryChange.list, hvalue]
    cases hentry : newValue.decoded with
    | none =>
      simp only [hentry] at h
      cases h
    | some entry =>
      simp only [hentry] at h
      cases h
      cases list <;> simp [Merged.keys]
  | none =>
    cases hro : ch.readOnly with
    | false =>
      simp only [mergeChange, hkey, hvalue, hro] at h
      simp only [LedgerEntryChange.list, hvalue, hro]
      cases h
      cases list <;> simp [Merged.keys]
    | true =>
      simp only [mergeChange, hkey, hvalue, hro] at h
      simp only [LedgerEntryChange.list, hvalue, hro]
      cases httl : ch.ttlChange with
      | none =>
        simp only [httl, Option.map_none] at h
        cases h
        simp
      | some ttlChange =>
        cases hslot : m.store.lookup key with
        | none =>
          simp only [httl, hslot, Option.map_some] at h
          cases h
          simp
        | some e =>
          simp only [httl, hslot, Option.map_some] at h
          cases h
          by_cases hsame : e.liveUntil = some ttlChange.newLiveUntilLedger
          · cases list <;> simp [Merged.keys, hsame]
          · cases list <;> simp [Merged.keys, hsame]

/-- The merge loop adds to each list the keys whose change puts them there. -/
theorem mergeChanges_listed {keys : List LedgerKey} {changes : List LedgerEntryChange}
    {m m' : Merged} {u : Unit} (hnodup : keys.Nodup)
    (hkeys : List.Forall₂ (fun key ch => ch.encodedKey.decoded = some key) keys changes)
    (h : mergeChanges changes m = .ok u m') (list : KeyList) :
    ∃ added, m'.keys list = m.keys list ++ added ∧ added.Sublist keys ∧
      ∀ key ch, (key, ch) ∈ keys.zip changes →
        (key ∈ added ↔ ch.list (m.store.lookup key) = some list) := by
  induction hkeys generalizing m with
  | nil =>
    cases h
    exact ⟨[], (List.append_nil _).symm, .slnil, by simp⟩
  | @cons key ch keys changes hkey _ ih =>
    obtain ⟨hfresh, hnodup⟩ := List.nodup_cons.mp hnodup
    obtain ⟨_, mid, hone, hrest⟩ := bind_eq_ok.mp h
    obtain ⟨added, hadded, hsub, hall⟩ := ih hnodup hrest
    have hothers := (mergeChange_ok hkey hone).2
    have hnot : key ∉ added := fun hmem => hfresh (hsub.subset hmem)
    rw [mergeChange_keys hkey hone list, List.append_assoc] at hadded
    refine ⟨_, hadded, ?_, fun k c hmem => ?_⟩
    · split
      · exact hsub.cons_cons key
      · exact hsub.cons key
    · rcases List.mem_cons.mp hmem with heq | hmem
      · cases heq
        split
        · next hlist => simp [hlist]
        · next hlist => simp [hlist, hnot]
      · -- A later key still has what was stored under it before the loop.
        have hne : k ≠ key := fun heq => hfresh (heq ▸ (List.of_mem_zip hmem).1)
        rw [← hothers k hne, ← hall k c hmem, List.mem_append]
        split
        · simp [hne]
        · simp

/-! ## The condition -/

/-- The lists of a merge describe the step it makes exactly if everything it
removes was there. -/
theorem mergeChanges_describesChange_iff {changes : List LedgerEntryChange} {store : Store}
    {m : Merged} {u : Unit} (hdistinct : DistinctKeys changes)
    (h : mergeChanges changes ⟨store, [], [], []⟩ = .ok u m) :
    DescribesChange m.keys store m.store ↔ RemovesStored store changes := by
  obtain ⟨keys, hnodup, hkeys⟩ := hdistinct
  obtain ⟨hlength, hzip⟩ := List.forall₂_iff_zip.mp hkeys
  have hlisted : ∀ list, (m.keys list).Sublist keys ∧ ∀ key ch, (key, ch) ∈ keys.zip changes →
      (key ∈ m.keys list ↔ ch.list (store.lookup key) = some list) := by
    intro list
    obtain ⟨added, hadded, hsub, hall⟩ := mergeChanges_listed hnodup hkeys h list
    have hempty : (Merged.mk store [] [] []).keys list = [] := by cases list <;> rfl
    rw [hempty, List.nil_append] at hadded
    rw [hadded]
    exact ⟨hsub, hall⟩
  have hpaired : List.Forall₂ (fun key ch => ch.encodedKey.decoded = some key ∧
      (key, ch) ∈ keys.zip changes) keys changes :=
    List.forall₂_iff_zip.mpr ⟨hlength, fun hmem => ⟨hzip hmem, hmem⟩⟩
  obtain ⟨hkept, happlied⟩ := mergeChanges_lookup (fun _ _ h => h.1) hnodup hpaired h
  constructor
  · intro hdescribes ch hch hro hvalue key hkey
    rw [← List.map_snd_zip hlength.ge, List.mem_map] at hch
    obtain ⟨⟨key', _⟩, hpair, rfl⟩ := hch
    cases (hzip hpair).symm.trans hkey
    refine (hdescribes.removed key (((hlisted .removed).2 key _ hpair).mpr ?_)).1
    exact LedgerEntryChange.list_eq_removed.mpr ⟨hro, hvalue⟩
  · intro hstored
    refine ⟨fun key hne => ?_, fun key hkey => ?_, fun key hkey => ?_, fun list => ?_⟩
    · have hmem : key ∈ keys := by
        by_contra hnot
        exact hne (hkept key hnot)
      obtain ⟨ch, ⟨-, hpair⟩, hlookup⟩ := happlied key hmem
      rw [hlookup] at hne
      obtain ⟨list, hlist⟩ := LedgerEntryChange.list_of_applyTo_ne hne
      refine ⟨list, ((hlisted list).2 key ch hpair).mpr hlist, fun list' hlist' => ?_⟩
      have hsame := ((hlisted list').2 key ch hpair).mp hlist'
      exact Option.some.inj (hsame.symm.trans hlist)
    · obtain ⟨ch, ⟨hdecoded, hpair⟩, hlookup⟩ :=
        happlied key ((hlisted .removed).1.subset hkey)
      obtain ⟨hro, hvalue⟩ := LedgerEntryChange.list_eq_removed.mp
        (((hlisted .removed).2 key ch hpair).mp hkey)
      refine ⟨hstored ch (List.of_mem_zip hpair).2 hro hvalue key hdecoded, ?_⟩
      rw [hlookup]
      unfold LedgerEntryChange.applyTo
      rw [hvalue, hro]
    · obtain ⟨ch, ⟨-, hpair⟩, hlookup⟩ := happlied key ((hlisted .ttlChanged).1.subset hkey)
      obtain ⟨e, e', hslot, happly, hentry, hne⟩ := LedgerEntryChange.list_eq_ttlChanged
        (((hlisted .ttlChanged).2 key ch hpair).mp hkey)
      exact ⟨e, e', hslot, hlookup.trans happly, hentry, hne⟩
    · exact hnodup.sublist (hlisted list).1

theorem HostReturned.unique {d : Deps} {env : SorobanEnv} {args : SendArgs}
    {res res' : InvokeHostFunctionResult} (h : HostReturned d env args res)
    (h' : HostReturned d env args res') : res' = res := by
  obtain ⟨input, hinput, hres⟩ := h
  obtain ⟨input', hinput', hres'⟩ := h'
  cases hinput.symm.trans hinput'
  cases hres.symm.trans hres'
  rfl

/-- A host that leaves no entry under a key it is told.  What it returns for
the key is the same whether or not it had found one. -/
def Deps.deleting (key : LedgerKey) : Deps :=
  { Deps.idle with
    invokeHostFunction := fun _ =>
      ⟨.ok ⟨.ok ⟨4, some ⟨[]⟩⟩, [⟨false, ⟨8, some key⟩, 0, none, 0, some ⟨0, 0⟩⟩], []⟩, 0, 0, []⟩ }

/-- What is documented of the host holds of the call. -/
theorem deleting_reportsAll {env : SorobanEnv} (hempty : env.store = ∅) {input : HostInput}
    {res : InvokeHostFunctionResult}
    (hinput : prepareSend (.deleting (balanceKey .persistent)) env
      (balanceCall ⟨[], [balanceKey .persistent]⟩ []) = .ok input)
    (hres : ((Deps.deleting (balanceKey .persistent)).invokeHostFunction input).result = .ok res) :
    ReportsAll input res.ledgerChanges := by
  cases hres
  obtain ⟨loaded, hprepared⟩ := prepareSend_ok hinput
  have hfootprint : input.resources.footprint = ⟨[], [balanceKey .persistent]⟩ := by
    rw [hprepared.resources_eq]
    rfl
  have habsent : ∀ item, (balanceKey .persistent, item) ∈ input.handed → item = (none, none) := by
    intro item hitem
    have hhanded := (List.forall₂_iff_zip.mp hprepared.handed).2 hitem
    unfold SorobanEnv.Handed at hhanded
    rw [hempty, Finmap.lookup_empty] at hhanded
    exact hhanded
  refine ⟨[balanceKey .persistent], List.nodup_singleton _, fun key => ?_, .cons ?_ .nil⟩
  · rw [hfootprint]
    exact Iff.rfl
  · exact
      { encodedKey := rfl
        readOnly := by
          rw [hfootprint]
          rfl
        noNewValue := fun _ => rfl
        ttl := by
          refine fun _ =>
            ⟨⟨0, 0⟩, rfl, fun item hitem => ⟨fun handed hhanded => ?_, fun _ _ => rfl⟩⟩
          rw [habsent item hitem] at hhanded
          cases hhanded
        noTtl := fun h => (by cases h) }

/-- The call deletes an entry that never was, on a host that does what is
documented.  The ledger is empty before and after, and the answer reports the
key as removed. -/
theorem send_removes_absent :
    ¬ ∀ (d : Deps) (env env' : SorobanEnv) (args : SendArgs) (out : SendResult),
      (∀ input res, prepareSend d env args = .ok input →
        (d.invokeHostFunction input).result = .ok res → ReportsAll input res.ledgerChanges) →
      env.send d args = .ok out env' → out.ok = true →
      DescribesChange out.keys env.store env'.store := by
  intro hall
  have hdescribes := hall (.deleting (balanceKey .persistent)) (SorobanEnv.new 23 1000) _
    (balanceCall ⟨[], [balanceKey .persistent]⟩ []) _
    (fun _ _ hinput hres => deleting_reportsAll rfl hinput hres) rfl rfl
  have hstored := (hdescribes.removed (balanceKey .persistent) List.mem_cons_self).1
  exact absurd hstored (by decide)

/-- A successful call whose changes have distinct keys describes what it did to
the store exactly if every read-write key it leaves without an entry had
one. -/
theorem send_describesChange_iff {d : Deps} {env env' : SorobanEnv} {args : SendArgs}
    {out : SendResult}
    (hdistinct : ∀ res, HostReturned d env args res → DistinctKeys res.ledgerChanges)
    (hsend : env.send d args = .ok out env') (hok : out.ok = true) :
    DescribesChange out.keys env.store env'.store ↔
      ∀ res, HostReturned d env args res → RemovesStored env.store res.ledgerChanges := by
  rcases send_ok hsend with hfailed | ⟨input, res, value, consumed, m, hdone, hmerge, rfl, rfl⟩
  · cases hfailed.ok.symm.trans hok
  have hres : HostReturned d env args res := ⟨input, hdone.prepared, hdone.returned⟩
  have hkeys : (completed (d.invokeHostFunction input) res value consumed m).keys = m.keys := by
    funext list
    cases list <;> rfl
  rw [hkeys, mergeChanges_describesChange_iff (hdistinct res hres) hmerge]
  constructor
  · intro hstored res' hres'
    rw [hres.unique hres']
    exact hstored
  · exact fun hall => hall res hres

theorem send_describesChange_iff_balance :
    ∃ out env', SorobanEnv.send (.deleting (balanceKey .persistent))
        (balanceCall ⟨[], [balanceKey .persistent]⟩ []) (balanceEnv .persistent 2000) =
          .ok out env' ∧ out.ok = true ∧
      (DescribesChange out.keys (balanceEnv .persistent 2000).store env'.store ↔
        ∀ res, HostReturned (.deleting (balanceKey .persistent)) (balanceEnv .persistent 2000)
          (balanceCall ⟨[], [balanceKey .persistent]⟩ []) res →
          RemovesStored (balanceEnv .persistent 2000).store res.ledgerChanges) := by
  refine ⟨_, _, rfl, rfl, send_describesChange_iff ?_ rfl rfl⟩
  rintro res ⟨input, -, hres⟩
  cases hres
  exact ⟨[balanceKey .persistent], List.nodup_singleton _, .cons rfl .nil⟩

end LiteSoroban

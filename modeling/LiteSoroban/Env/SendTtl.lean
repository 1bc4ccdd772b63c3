import LiteSoroban.Env.SendSpec

/-!
# When a call keeps the TTLs

A successful call writes the host's TTLs back over the stored ones.  Nothing
compares the two: that no TTL falls rests on the host being handed the stored
TTL, or a lower one.  Two kinds of entries are handed over with something
else.  An expired temporary entry is handed over as absent, and an entry the
call restores with the TTL of a fresh one, whether or not it is archived.

`send_keepsTtls_iff` is the exact condition: for the hosts that do what is
documented of them, calls keep every TTL when no stored TTL of the footprint
is above what is handed over.
-/

namespace LiteSoroban

open Effect

/-! ## What is documented of the host -/

/-- The change the host returns for a key of the footprint. -/
structure ReportsKey (input : HostInput) (key : LedgerKey) (ch : LedgerEntryChange) : Prop where
  encodedKey : ch.encodedKey.decoded = some key
  readOnly : ch.readOnly = decide (key ∈ input.resources.footprint.readOnly)
  /-- A read-only key has no new value. -/
  noNewValue : key ∈ input.resources.footprint.readOnly → ch.encodedNewValue = none
  /-- A TTL is at least the one handed over, and 0 for an entry that was and
  is absent. -/
  ttl : needsTtl key = true → ∃ ttlChange, ch.ttlChange = some ttlChange ∧
    ∀ item, (key, item) ∈ input.handed →
      (∀ handed, item.2 = some handed → handed.liveUntilLedger ≤ ttlChange.newLiveUntilLedger) ∧
      (item.1 = none → ch.encodedNewValue = none → ttlChange.newLiveUntilLedger = 0)
  noTtl : needsTtl key = false → ch.ttlChange = none

/-- One change for each key of the footprint, in any order. -/
def ReportsAll (input : HostInput) (changes : List LedgerEntryChange) : Prop :=
  ∃ keys : List LedgerKey, keys.Nodup ∧ (∀ key, key ∈ keys ↔ key ∈ input.resources.footprint.keys) ∧
    List.Forall₂ (ReportsKey input) keys changes

/-- The host reports every key of the footprint of a call it completes. -/
def Deps.ReportsTtls (d : Deps) : Prop :=
  ∀ input res, (d.invokeHostFunction input).result = .ok res → ReportsAll input res.ledgerChanges

/-! ## The merge loop, key by key -/

/-- What a change makes of the entry under its key. -/
def LedgerEntryChange.applyTo (ch : LedgerEntryChange) (slot : Option EntryWithLiveUntil) :
    Option EntryWithLiveUntil :=
  let ttl := ch.ttlChange.map (·.newLiveUntilLedger)
  match ch.encodedNewValue, ch.readOnly with
  | some newValue, _ => newValue.decoded.map (⟨·, ttl⟩)
  | none, true =>
    match ttl, slot with
    | some t, some slot => some ⟨slot.entry, some t⟩
    | _, _ => slot
  | none, false => none

/-- A change with a TTL leaves that TTL. -/
theorem LedgerEntryChange.liveUntil_applyTo {ch : LedgerEntryChange}
    {ttlChange : LedgerEntryLiveUntilChange} (httl : ch.ttlChange = some ttlChange)
    {e e' : EntryWithLiveUntil} (h : ch.applyTo (some e) = some e') :
    e'.liveUntil = some ttlChange.newLiveUntilLedger := by
  simp only [LedgerEntryChange.applyTo, httl, Option.map_some] at h
  split at h
  · obtain ⟨entry, -, rfl⟩ := Option.map_eq_some_iff.mp h
    rfl
  · cases h
    rfl
  · cases h

/-- A change without a TTL leaves the one there was, or none. -/
theorem LedgerEntryChange.liveUntil_applyTo_of_none {ch : LedgerEntryChange}
    (httl : ch.ttlChange = none) {e e' : EntryWithLiveUntil} (h : ch.applyTo (some e) = some e') :
    e'.liveUntil = none ∨ e'.liveUntil = e.liveUntil := by
  simp only [LedgerEntryChange.applyTo, httl, Option.map_none] at h
  split at h
  · obtain ⟨entry, -, rfl⟩ := Option.map_eq_some_iff.mp h
    exact .inl rfl
  · cases h
    exact .inr rfl
  · cases h

/-- A read-only change without a new value leaves the entry. -/
theorem LedgerEntryChange.entry_applyTo {ch : LedgerEntryChange}
    (hvalue : ch.encodedNewValue = none) (hro : ch.readOnly = true)
    (slot : Option EntryWithLiveUntil) :
    (ch.applyTo slot).map (·.entry) = slot.map (·.entry) := by
  simp only [LedgerEntryChange.applyTo, hvalue, hro]
  split
  · rfl
  · rfl

/-- One turn of the merge loop applies the change to its key and to no
other. -/
theorem mergeChange_ok {ch : LedgerEntryChange} {key : LedgerKey} {m m' : Merged} {u : Unit}
    (hkey : ch.encodedKey.decoded = some key) (h : mergeChange ch m = .ok u m') :
    m'.store.lookup key = ch.applyTo (m.store.lookup key) ∧
      ∀ other, other ≠ key → m'.store.lookup other = m.store.lookup other := by
  simp only [mergeChange, hkey] at h
  simp only [LedgerEntryChange.applyTo]
  cases hvalue : ch.encodedNewValue with
  | some newValue =>
    simp only [hvalue] at h
    cases hentry : newValue.decoded with
    | none => simp [hentry] at h
    | some entry =>
      simp only [hentry, EStateM.Result.ok.injEq] at h
      rw [← h.2]
      refine ⟨?_, fun other hne => Finmap.lookup_insert_of_ne _ hne⟩
      simp only [hentry, Option.map_some]
      exact Finmap.lookup_insert _
  | none =>
    cases hro : ch.readOnly with
    | false =>
      simp only [hvalue, hro, EStateM.Result.ok.injEq] at h
      rw [← h.2]
      exact ⟨Finmap.lookup_erase _ _, fun other hne => Finmap.lookup_erase_ne hne⟩
    | true =>
      simp only [hvalue, hro] at h
      cases httl : ch.ttlChange with
      | none =>
        simp only [httl, Option.map_none, EStateM.Result.ok.injEq] at h
        rw [← h.2]
        exact ⟨rfl, fun _ _ => rfl⟩
      | some ttl =>
        cases hslot : m.store.lookup key with
        | none =>
          simp only [httl, Option.map_some, hslot, EStateM.Result.ok.injEq] at h
          rw [← h.2]
          exact ⟨hslot, fun _ _ => rfl⟩
        | some slot =>
          simp only [httl, Option.map_some, hslot, EStateM.Result.ok.injEq] at h
          rw [← h.2]
          exact ⟨Finmap.lookup_insert _, fun other hne => Finmap.lookup_insert_of_ne _ hne⟩

/-- The merge loop applies to each key the one change it has. -/
theorem mergeChanges_lookup {R : LedgerKey → LedgerEntryChange → Prop}
    (hkey : ∀ key ch, R key ch → ch.encodedKey.decoded = some key) {keys : List LedgerKey}
    {changes : List LedgerEntryChange} {m m' : Merged} {u : Unit} (hnodup : keys.Nodup)
    (hchanges : List.Forall₂ R keys changes) (h : mergeChanges changes m = .ok u m') :
    (∀ key, key ∉ keys → m'.store.lookup key = m.store.lookup key) ∧
      ∀ key, key ∈ keys → ∃ ch, R key ch ∧
        m'.store.lookup key = ch.applyTo (m.store.lookup key) := by
  induction hchanges generalizing m with
  | nil =>
    cases h
    exact ⟨fun _ _ => rfl, by simp⟩
  | @cons key ch keys changes hch _ ih =>
    obtain ⟨hfresh, hnodup⟩ := List.nodup_cons.mp hnodup
    obtain ⟨_, mid, hone, hrest⟩ := bind_eq_ok.mp h
    obtain ⟨hmine, hothers⟩ := mergeChange_ok (hkey key ch hch) hone
    obtain ⟨hkept, happlied⟩ := ih hnodup hrest
    refine ⟨fun k hk => ?_, fun k hk => ?_⟩
    · rw [List.mem_cons, not_or] at hk
      rw [hkept k hk.2, hothers k hk.1]
    · rcases List.mem_cons.mp hk with rfl | hk
      · exact ⟨ch, hch, by rw [hkept k hfresh, hmine]⟩
      · have hne : k ≠ key := fun heq => hfresh (heq ▸ hk)
        obtain ⟨ch', hch', hlookup⟩ := happlied k hk
        exact ⟨ch', hch', by rw [hlookup, hothers k hne]⟩

/-! ## The condition -/

/-- The TTL below which the host cannot report one for a stored entry: the one
it is handed, and 0 for an entry it is handed as absent. -/
def SorobanEnv.ttlFloor (env : SorobanEnv) (args : SendArgs) (key : LedgerKey)
    (e : EntryWithLiveUntil) : Nat :=
  if isTemporary key && env.expired e.liveUntil then 0
  else env.handedLiveUntil args key e.liveUntil

/-- No stored TTL of the footprint is above its floor. -/
def TtlsCovered (env : SorobanEnv) (args : SendArgs) : Prop :=
  ∀ key ∈ args.resources.footprint.keys, needsTtl key = true →
    ∀ e t, env.store.lookup key = some e → e.liveUntil = some t → t ≤ env.ttlFloor args key e

/-- What a call keeps: the TTL of every entry it leaves in the store, and the
entry of every read-only key. -/
structure KeepsTtls (args : SendArgs) (env env' : SorobanEnv) : Prop where
  ttl : ∀ key e t e', env.store.lookup key = some e → e.liveUntil = some t →
    env'.store.lookup key = some e' →
    (∀ t', e'.liveUntil = some t' → t ≤ t') ∧ (needsTtl key = true → e'.liveUntil.isSome)
  readOnly : ∀ key ∈ args.resources.footprint.readOnly,
    (env'.store.lookup key).map (·.entry) = (env.store.lookup key).map (·.entry)

/-- What the host is handed for a stored entry has its floor as TTL. -/
theorem Prepared.floor {d : Deps} {env : SorobanEnv} {args : SendArgs} {input : HostInput}
    {loaded : Loaded} (h : Prepared d env args input loaded) {key : LedgerKey}
    (hkey : key ∈ args.resources.footprint.keys) (httl : needsTtl key = true)
    {e : EntryWithLiveUntil} (he : env.store.lookup key = some e)
    {ch : LedgerEntryChange} (hch : ReportsKey input key ch) :
    ∃ ttlChange, ch.ttlChange = some ttlChange ∧
      env.ttlFloor args key e ≤ ttlChange.newLiveUntilLedger := by
  obtain ⟨ttlChange, httlChange, hitems⟩ := hch.ttl httl
  refine ⟨ttlChange, httlChange, ?_⟩
  simp only [SorobanEnv.ttlFloor]
  split
  · exact Nat.zero_le _
  · next hlive =>
    rw [← h.resources_eq] at hkey
    obtain ⟨item, hmem, hhanded⟩ := h.exists_handed hkey
    simp only [SorobanEnv.Handed, he, if_neg hlive, ttlMeta, httl, if_true] at hhanded
    have hmeta := hhanded.2
    split at hmeta
    · next rentSize _ =>
      exact (hitems item hmem).1 _ (Except.ok.inj hmeta).symm
    · cases hmeta

/-- Under the condition, a call of a host that does what is documented keeps
what it should. -/
theorem keepsTtls_of_covered {d : Deps} (hhost : d.ReportsTtls) {env env' : SorobanEnv}
    {args : SendArgs} {out : SendResult} (hcovered : TtlsCovered env args)
    (h : env.send d args = .ok out env') (hok : out.ok = true) : KeepsTtls args env env' := by
  rcases send_ok h with hfailed | ⟨input, res, _, _, m, hdone, hmerge, -, rfl⟩
  · have := hfailed.ok.symm.trans hok
    cases this
  obtain ⟨loaded, hprepared⟩ := prepareSend_ok hdone.prepared
  obtain ⟨keys, hnodup, hkeys, hreports⟩ := hhost input res hdone.returned
  rw [hprepared.resources_eq] at hkeys
  obtain ⟨hkept, happlied⟩ := mergeChanges_lookup (fun _ _ h => h.encodedKey) hnodup hreports hmerge
  refine ⟨fun key e t e' he ht he' => ?_, fun key hkey => ?_⟩
  · by_cases hmem : key ∈ keys
    · obtain ⟨ch, hch, hlookup⟩ := happlied key hmem
      have hafter : ch.applyTo (some e) = some e' := by
        rw [← he, ← hlookup]
        exact he'
      cases hneeds : needsTtl key with
      | true =>
        obtain ⟨ttlChange, httlChange, hfloor⟩ :=
          hprepared.floor ((hkeys key).mp hmem) hneeds he hch
        have hnew := LedgerEntryChange.liveUntil_applyTo httlChange hafter
        refine ⟨fun t' ht' => ?_, fun _ => by rw [hnew]; rfl⟩
        rw [hnew] at ht'
        cases ht'
        exact (hcovered key ((hkeys key).mp hmem) hneeds e t he ht).trans hfloor
      | false =>
        refine ⟨fun t' ht' => ?_, by simp⟩
        rcases LedgerEntryChange.liveUntil_applyTo_of_none (hch.noTtl hneeds) hafter with
          hnone | hsame
        · rw [hnone] at ht'
          cases ht'
        · exact (Option.some.inj (ht.symm.trans (hsame.symm.trans ht'))).le
    · have hsame : e = e' := Option.some.inj (he.symm.trans ((hkept key hmem).symm.trans he'))
      subst hsame
      exact ⟨fun t' ht' => (Option.some.inj (ht.symm.trans ht')).le, fun _ => by rw [ht]; rfl⟩
  · have hmem : key ∈ keys := (hkeys key).mpr (List.mem_append_left _ hkey)
    obtain ⟨ch, hch, hlookup⟩ := happlied key hmem
    rw [← hprepared.resources_eq] at hkey
    have hro : ch.readOnly = true := by
      rw [hch.readOnly]
      exact decide_eq_true hkey
    show (m.store.lookup key).map (·.entry) = _
    rw [hlookup]
    exact LedgerEntryChange.entry_applyTo (hch.noNewValue hkey) hro _

/-! ## The condition is needed

`Deps.echo` is a host that does what is documented and no more: it puts every
read-write entry back as it was handed, creates the contract data it was
handed as absent, and leaves every TTL where it was handed.
-/

/-- What an item hands over is determined by its key. -/
theorem SorobanEnv.Handed.unique {d : Deps} {env : SorobanEnv} {args : SendArgs} {budget : Budget}
    {key : LedgerKey} {item item' : Option (Encoded LedgerEntry) × Option TtlLedgerEntryMeta}
    (h : env.Handed d args budget key item) (h' : env.Handed d args budget key item') :
    item = item' := by
  simp only [SorobanEnv.Handed] at h h'
  cases hlookup : env.store.lookup key with
  | none =>
    simp only [hlookup] at h h'
    exact h.trans h'.symm
  | some e =>
    simp only [hlookup] at h h'
    split at h
    · next hexpired =>
      rw [if_pos hexpired] at h'
      exact h.trans h'.symm
    · next hlive =>
      rw [if_neg hlive] at h'
      exact Prod.ext (h.1.trans h'.1.symm) (Except.ok.inj (h.2.symm.trans h'.2))

/-- The item the host is handed for a key. -/
def HostInput.item (input : HostInput) (key : LedgerKey) :
    Option (Encoded LedgerEntry) × Option TtlLedgerEntryMeta :=
  ((input.handed.find? (·.1 = key)).map (·.2)).getD (none, none)

/-- Every item of a key of the footprint is the one `item` finds. -/
theorem Prepared.item {d : Deps} {env : SorobanEnv} {args : SendArgs} {input : HostInput}
    {loaded : Loaded} (h : Prepared d env args input loaded) {key : LedgerKey}
    (hkey : key ∈ input.resources.footprint.keys) :
    env.Handed d args input.budget key (input.item key) ∧
      ∀ item, (key, item) ∈ input.handed → item = input.item key := by
  have hall : ∀ k item, (k, item) ∈ input.handed → env.Handed d args input.budget k item :=
    fun k item hmem => (List.forall₂_iff_zip.mp h.handed).2 hmem
  obtain ⟨item₀, hmem₀, hhanded₀⟩ := h.exists_handed hkey
  have hfound : (input.handed.find? (·.1 = key)).isSome := by
    rw [List.find?_isSome]
    exact ⟨(key, item₀), hmem₀, decide_eq_true rfl⟩
  obtain ⟨⟨k, item⟩, hfind⟩ := Option.isSome_iff_exists.mp hfound
  have hk : k = key := by simpa using List.find?_some hfind
  subst hk
  have hitem : input.item k = item := by
    simp only [HostInput.item, hfind]
    rfl
  have hhanded := hall k item (List.mem_of_find?_eq_some hfind)
  rw [hitem]
  exact ⟨hhanded, fun item' hmem' => (hall k item' hmem').unique hhanded⟩

/-- The value a read-write key of an echoed call is left with. -/
def echoValue (key : LedgerKey) (handed : Option (Encoded LedgerEntry)) :
    Option (Encoded LedgerEntry) :=
  match handed, key with
  | some value, _ => some value
  | none, .contractData contract k durability =>
    some ⟨0, some ⟨0, .contractData ⟨contract, k, durability, ⟨[]⟩⟩, .v0⟩⟩
  | none, _ => none

/-- The TTL in an item, 0 where there is none. -/
def handedTtl (item : Option (Encoded LedgerEntry) × Option TtlLedgerEntryMeta) : Nat :=
  (item.2.map (·.liveUntilLedger)).getD 0

def echoChange (input : HostInput) (key : LedgerKey) : LedgerEntryChange where
  readOnly := key ∈ input.resources.footprint.readOnly
  encodedKey := ⟨0, some key⟩
  oldEntrySizeBytesForRent := 0
  encodedNewValue :=
    if key ∈ input.resources.footprint.readOnly then none
    else echoValue key (input.item key).1
  newEntrySizeBytesForRent := 0
  ttlChange :=
    if needsTtl key then some ⟨handedTtl (input.item key), handedTtl (input.item key)⟩ else none

def echoChanges (input : HostInput) : List LedgerEntryChange :=
  input.resources.footprint.keys.dedup.map (echoChange input)

open Classical in
/-- The host that echoes a call whose items are consistent, and traps any
other.  Its rent is the least there is, so that every refundable fee covers
it. -/
noncomputable def Deps.echo : Deps :=
  { Deps.idle with
    invokeHostFunction := fun input =>
      if ReportsAll input (echoChanges input) then
        ⟨.ok ⟨.ok ⟨0, some ⟨[]⟩⟩, echoChanges input, []⟩, 0, 0, []⟩
      else ⟨.error ⟨"trapped"⟩, 0, 0, []⟩
    computeRentFee := fun _ _ _ => -2 ^ 63 }

theorem Deps.echo_reportsTtls : Deps.echo.ReportsTtls := by
  intro input res hres
  simp only [Deps.echo] at hres
  split at hres
  · next hreports =>
    cases hres
    exact hreports
  · cases hres

/-- The settings' limits on a size let an empty entry through. -/
theorem validateContractLedgerEntry_zero (settings : Fees.NetworkFeeSettings) (key : LedgerKey) :
    settings.validateContractLedgerEntry key 0 = none := by
  cases key with
  | contractCode hash => simp [Fees.NetworkFeeSettings.validateContractLedgerEntry]
  | contractData contract k durability =>
    simp [Fees.NetworkFeeSettings.validateContractLedgerEntry]
  | account => rfl
  | trustline => rfl
  | unsupported => rfl

/-- Loading never stops a call of the echoing host: no entry has a size. -/
theorem echo_loadKey (env : SorobanEnv) (args : SendArgs) (budget : Budget) {acc : Loaded}
    (hread : acc.diskReadBytes = 0) (key : LedgerKey) :
    ∃ acc', loadKey Deps.echo env args budget acc key = .ok acc' ∧ acc'.diskReadBytes = 0 := by
  simp only [loadKey]
  cases env.store.lookup key with
  | none => exact ⟨_, rfl, hread⟩
  | some e =>
    have hsize : checkLoadedSize env args key e 0 = .ok () := by
      simp only [checkLoadedSize, validateContractLedgerEntry_zero]
      split
      · split <;> rfl
      · rfl
    have hmeter : meterDiskRead env args key 0 0 = .ok 0 := by
      simp only [meterDiskRead]
      split
      · simp [saturatingAdd32, clamp32]
      · rfl
    have httl : ∃ ttl, ttlMeta Deps.echo env args budget key e 0 = .ok ttl := by
      simp only [ttlMeta, Deps.echo, Deps.idle]
      split
      · exact ⟨_, rfl⟩
      · exact ⟨_, rfl⟩
    have hnoted : (acc.noteCode env args key e).diskReadBytes = 0 := by
      rw [acc.noteCode_diskReadBytes, hread]
    obtain ⟨ttl, httl⟩ := httl
    dsimp only
    split
    · exact ⟨_, rfl, hread⟩
    · have hentry : Deps.echo.entrySize e.entry = 0 := rfl
      simp only [hentry, hsize, hnoted, hmeter, httl]
      exact ⟨_, rfl, rfl⟩

theorem echo_loadFootprint (env : SorobanEnv) (args : SendArgs) (budget : Budget) :
    ∃ loaded, loadFootprint Deps.echo env args budget = .ok loaded := by
  have hloop : ∀ (keys : List LedgerKey) (acc : Loaded), acc.diskReadBytes = 0 →
      ∃ loaded, keys.foldlM (loadKey Deps.echo env args budget) acc = .ok loaded := by
    intro keys
    induction keys with
    | nil => exact fun acc _ => ⟨acc, rfl⟩
    | cons key keys ih =>
      intro acc hread
      obtain ⟨acc', hkey, hread'⟩ := echo_loadKey env args budget hread key
      obtain ⟨loaded, hrest⟩ := ih acc' hread'
      exact ⟨loaded, by rw [List.foldlM_cons, Except.bind_eq_ok]; exact ⟨acc', hkey, hrest⟩⟩
  exact hloop _ _ rfl

theorem echo_prepareSend (env : SorobanEnv) (args : SendArgs) :
    ∃ input, prepareSend Deps.echo env args = .ok input := by
  have hbudget : ∃ budget,
      env.enforcingBudget Deps.echo args.resources.instructions = .ok budget :=
    ⟨_, rfl⟩
  obtain ⟨budget, hbudget⟩ := hbudget
  obtain ⟨loaded, hloaded⟩ := echo_loadFootprint env args budget
  simp only [prepareSend, hbudget, hloaded]
  exact ⟨_, rfl⟩

/-- The echoed changes are what is documented of a host. -/
theorem Prepared.reportsAll {d : Deps} {env : SorobanEnv} {args : SendArgs} {input : HostInput}
    {loaded : Loaded} (h : Prepared d env args input loaded) :
    ReportsAll input (echoChanges input) := by
  refine ⟨input.resources.footprint.keys.dedup, List.nodup_dedup _, fun key => List.mem_dedup, ?_⟩
  rw [echoChanges, List.forall₂_map_right_iff, List.forall₂_same]
  intro key hkey
  obtain ⟨hhanded, hunique⟩ := h.item (List.mem_dedup.mp hkey)
  refine ⟨rfl, rfl, fun hro => if_pos hro, fun httl => ⟨_, if_pos httl, fun item hmem => ?_⟩,
    fun httl => if_neg (by simp [httl])⟩
  rw [hunique item hmem]
  refine ⟨fun handed hitem => ?_, fun habsent _ => ?_⟩
  · simp only [handedTtl, hitem]
    rfl
  · have hnone : input.item key = (none, none) := by
      simp only [SorobanEnv.Handed] at hhanded
      split at hhanded
      · exact hhanded
      · split at hhanded
        · exact hhanded
        · rw [habsent] at hhanded
          cases hhanded.1
    simp only [hnone]
    rfl

/-- Every value the echoing host writes decodes, and has no size under it. -/
theorem Prepared.decodes_echoValue {env : SorobanEnv} {args : SendArgs} {input : HostInput}
    {loaded : Loaded} (h : Prepared Deps.echo env args input loaded) {key : LedgerKey}
    (hkey : key ∈ input.resources.footprint.keys) {newValue : Encoded LedgerEntry}
    (hvalue : (echoChange input key).encodedNewValue = some newValue) :
    newValue.len = 0 ∧ newValue.decoded.isSome := by
  obtain ⟨hhanded, -⟩ := h.item hkey
  simp only [echoChange] at hvalue
  split at hvalue
  · cases hvalue
  · cases hitem : (input.item key).1 with
    | some value =>
      rw [hitem] at hvalue
      cases hvalue
      simp only [SorobanEnv.Handed] at hhanded
      split at hhanded
      · rw [hhanded] at hitem
        cases hitem
      · split at hhanded
        · rw [hhanded] at hitem
          cases hitem
        · cases hitem.symm.trans hhanded.1
          exact ⟨rfl, rfl⟩
    | none =>
      rw [hitem] at hvalue
      cases key with
      | contractData contract k durability =>
        cases hvalue
        exact ⟨rfl, rfl⟩
      | account => cases hvalue
      | trustline => cases hvalue
      | contractCode => cases hvalue
      | unsupported => cases hvalue

/-- The checks on the written entries let empty entries through. -/
theorem checkWrittenEntries_zero {env : SorobanEnv} {resources : SorobanResources}
    {changes : List LedgerEntryChange}
    (hchanges : ∀ ch ∈ changes, ch.Decodes ∧
      ∀ newValue, ch.encodedNewValue = some newValue → newValue.len = 0) :
    checkWrittenEntries env resources changes 0 = .ok () := by
  induction changes with
  | nil => rfl
  | cons ch changes ih =>
    obtain ⟨hdecodes, hlen⟩ := hchanges ch List.mem_cons_self
    have hrest := ih fun ch' hch' => hchanges ch' (List.mem_cons_of_mem ch hch')
    obtain ⟨key, hkey⟩ := Option.isSome_iff_exists.mp hdecodes.key
    simp only [checkWrittenEntries]
    split
    · next newValue _ hvalue =>
      have hwritten : saturatingAdd32 0 (clamp32 0) = 0 := by simp [saturatingAdd32, clamp32]
      simp only [hlen newValue hvalue, hkey, validateContractLedgerEntry_zero, hwritten,
        Nat.not_lt_zero, if_false, hrest, ite_self]
      cases env.feeSettings <;> rfl
    · exact hrest

/-- Its rent being the least there is, every refundable fee covers what a call
of the echoing host consumes. -/
theorem echo_consumeRefundable {args : SendArgs}
    (hword : ∀ max, args.maxRefundableFee = some max → -2 ^ 63 ≤ max) (env : SorobanEnv)
    (input : HostInput) :
    ∃ consumed, consumeRefundable Deps.echo env ⟨.ok ⟨0, some ⟨[]⟩⟩, echoChanges input, []⟩ 0
      args.maxRefundableFee = .ok consumed := by
  have hsize : saturatingAdd32 0 (clamp32 0) = 0 := by simp [saturatingAdd32, clamp32]
  have hevents : ∀ settings : Fees.NetworkFeeSettings, settings.eventsFee Deps.echo 0 = 0 :=
    fun _ => rfl
  have hrent : ∀ changes config ledgerSeq,
      Deps.echo.computeRentFee changes config ledgerSeq = -2 ^ 63 := fun _ _ _ => rfl
  have htotal : saturatingAddI64 (-2 ^ 63) 0 = -2 ^ 63 := by decide
  simp only [consumeRefundable]
  cases env.feeSettings with
  | none => exact ⟨_, rfl⟩
  | some settings =>
    have hsum : sumEventSizes settings.txMaxContractEventsSizeBytes [] 0 = .ok 0 := rfl
    refine ⟨⟨-2 ^ 63, 0, -2 ^ 63⟩, Except.bind_eq_ok.mpr ⟨0, hsum, ?_⟩⟩
    simp only [hsize, hrent, hevents, htotal, Nat.not_lt_zero, if_false]
    cases hmax : args.maxRefundableFee with
    | none => rfl
    | some max =>
      have hcovers : ¬ max < -2 ^ 63 := not_lt.mpr (hword max hmax)
      simp only [hcovers, if_false]
      rfl

/-- A call of the echoing host succeeds, and merges the echoed changes. -/
theorem echo_send {env : SorobanEnv} {args : SendArgs}
    (hword : ∀ max, args.maxRefundableFee = some max → -2 ^ 63 ≤ max) :
    ∃ input loaded m out env', Prepared Deps.echo env args input loaded ∧
      mergeChanges (echoChanges input) ⟨env.store, [], [], []⟩ = .ok () m ∧
      env.send Deps.echo args = .ok out env' ∧ out.ok = true ∧ env'.store = m.store := by
  obtain ⟨input, hinput⟩ := echo_prepareSend env args
  obtain ⟨loaded, hprepared⟩ := prepareSend_ok hinput
  have hreturned : (Deps.echo.invokeHostFunction input).result =
      .ok ⟨.ok ⟨0, some ⟨[]⟩⟩, echoChanges input, []⟩ := by
    simp only [Deps.echo, if_pos hprepared.reportsAll]
  have hchanges : ∀ ch ∈ echoChanges input, ch.Decodes ∧
      ∀ newValue, ch.encodedNewValue = some newValue → newValue.len = 0 := by
    intro ch hch
    obtain ⟨key, hkey, rfl⟩ := List.mem_map.mp hch
    have hvalue : ∀ newValue, (echoChange input key).encodedNewValue = some newValue →
        newValue.len = 0 ∧ newValue.decoded.isSome :=
      fun _ h => hprepared.decodes_echoValue (List.mem_dedup.mp hkey) h
    exact ⟨⟨rfl, fun newValue h => (hvalue newValue h).2⟩, fun newValue h => (hvalue newValue h).1⟩
  obtain ⟨m, hmerge⟩ := mergeChanges_total (fun ch hch => (hchanges ch hch).1)
    ⟨env.store, [], [], []⟩
  obtain ⟨consumed, hconsumed⟩ := echo_consumeRefundable hword env input
  have hdone : HostCompleted Deps.echo env args input _ _ consumed :=
    ⟨hinput, hreturned, rfl, checkWrittenEntries_zero hchanges, hconsumed⟩
  exact ⟨input, loaded, m, _, _, hprepared, hmerge, hdone.send hmerge fun _ _ => rfl, rfl, rfl⟩

/-- The echoed change of a stored entry leaves it in the store, at its floor. -/
theorem Prepared.echoed {env : SorobanEnv} {args : SendArgs} {input : HostInput}
    {loaded : Loaded} (h : Prepared Deps.echo env args input loaded) {key : LedgerKey}
    (hkey : key ∈ input.resources.footprint.keys) (httl : needsTtl key = true)
    {e : EntryWithLiveUntil} (he : env.store.lookup key = some e) :
    ∃ e', (echoChange input key).applyTo (some e) = some e' ∧
      e'.liveUntil = some (env.ttlFloor args key e) := by
  obtain ⟨hhanded, -⟩ := h.item hkey
  simp only [SorobanEnv.Handed, he] at hhanded
  have hfloor : handedTtl (input.item key) = env.ttlFloor args key e := by
    simp only [SorobanEnv.ttlFloor]
    split at hhanded
    · next hexpired =>
      rw [hhanded, if_pos hexpired]
      rfl
    · next hlive =>
      rw [if_neg hlive]
      have hmeta := hhanded.2
      simp only [ttlMeta, httl, if_true] at hmeta
      split at hmeta
      · rw [handedTtl, ← Except.ok.inj hmeta]
        rfl
      · cases hmeta
  have hvalue : ∃ newValue, echoValue key (input.item key).1 = some newValue := by
    split at hhanded
    · next hexpired =>
      rw [Bool.and_eq_true] at hexpired
      rw [hhanded]
      cases key with
      | contractData contract k durability => exact ⟨_, rfl⟩
      | account => cases httl
      | trustline => cases httl
      | contractCode => cases hexpired.1
      | unsupported => cases httl
    · rw [hhanded.1]
      exact ⟨_, rfl⟩
  obtain ⟨newValue, hvalue⟩ := hvalue
  have hchange : (echoChange input key).ttlChange =
      some ⟨env.ttlFloor args key e, env.ttlFloor args key e⟩ := by
    simp only [echoChange, httl, if_true, hfloor]
  have hstays : ∃ e', (echoChange input key).applyTo (some e) = some e' := by
    by_cases hro : key ∈ input.resources.footprint.readOnly
    · simp only [LedgerEntryChange.applyTo, echoChange, hro, httl, if_true, decide_true]
      exact ⟨_, rfl⟩
    · have hdecoded : newValue.decoded.isSome := by
        have hwritten : (echoChange input key).encodedNewValue = some newValue := by
          simp only [echoChange, if_neg hro, hvalue]
        exact (h.decodes_echoValue hkey hwritten).2
      obtain ⟨entry, hentry⟩ := Option.isSome_iff_exists.mp hdecoded
      simp only [LedgerEntryChange.applyTo, echoChange, if_neg hro, hvalue, hentry]
      exact ⟨_, rfl⟩
  obtain ⟨e', hafter⟩ := hstays
  exact ⟨e', hafter, LedgerEntryChange.liveUntil_applyTo hchange hafter⟩

/-- Where some TTL is above its floor, the echoing host lowers it. -/
theorem covered_of_keepsTtls {env : SorobanEnv} {args : SendArgs}
    (hword : ∀ max, args.maxRefundableFee = some max → -2 ^ 63 ≤ max)
    (hkeeps : ∀ out env', env.send Deps.echo args = .ok out env' → out.ok = true →
      KeepsTtls args env env') : TtlsCovered env args := by
  intro key hkey httl e t he ht
  obtain ⟨input, loaded, m, out, env', hprepared, hmerge, hsend, hok, hstore⟩ := echo_send hword
  rw [← hprepared.resources_eq] at hkey
  obtain ⟨e', hafter, hfloor⟩ := hprepared.echoed hkey httl he
  have hechoed : List.Forall₂ (fun key ch => ch = echoChange input key)
      input.resources.footprint.keys.dedup (echoChanges input) := by
    rw [echoChanges, List.forall₂_map_right_iff, List.forall₂_same]
    exact fun _ _ => rfl
  obtain ⟨-, happlied⟩ := mergeChanges_lookup (fun key ch h => by rw [h]; rfl)
    (List.nodup_dedup _) hechoed hmerge
  obtain ⟨ch, rfl, hlookup⟩ := happlied key (List.mem_dedup.mpr hkey)
  have he' : env'.store.lookup key = some e' := by
    rw [hstore, hlookup]
    exact (congrArg _ he).trans hafter
  exact ((hkeeps out env' hsend hok).ttl key e t e' he ht he').1 _ hfloor

/-! ## Two calls that lower a TTL -/

/-- Contract data, and the call that has it in its footprint. -/
def balanceKey (durability : ContractDataDurability) : LedgerKey :=
  .contractData ⟨[1]⟩ ⟨[2]⟩ durability

def balanceEnv (durability : ContractDataDurability) (liveUntil : Nat) : SorobanEnv :=
  { SorobanEnv.new 23 1000 with
    store := Finmap.singleton (balanceKey durability)
      ⟨⟨900, .contractData ⟨⟨[1]⟩, ⟨[2]⟩, durability, ⟨[3]⟩⟩, .v0⟩, some liveUntil⟩ }

def balanceCall (footprint : LedgerFootprint) (restoredRwEntryIndices : List Nat) : SendArgs where
  hostFunction := ⟨[]⟩
  source := ⟨[]⟩
  resources := ⟨footprint, 0, 0, 0⟩
  auth := []
  restoredRwEntryIndices := restoredRwEntryIndices
  maxRefundableFee := none

/-- The call that reads an expired temporary entry drops its TTL from 500 to 0,
and the call that restores an entry live until 2000000 drops its TTL to that
of a fresh one. -/
theorem send_lowers_ttls :
    (¬ ∀ d : Deps, d.ReportsTtls → ∀ out env',
      (balanceEnv .temporary 500).send d (balanceCall ⟨[balanceKey .temporary], []⟩ []) =
        .ok out env' → out.ok = true →
      KeepsTtls (balanceCall ⟨[balanceKey .temporary], []⟩ []) (balanceEnv .temporary 500) env') ∧
    ¬ ∀ d : Deps, d.ReportsTtls → ∀ out env',
      (balanceEnv .persistent 2000000).send d (balanceCall ⟨[], [balanceKey .persistent]⟩ [0]) =
        .ok out env' → out.ok = true →
      KeepsTtls (balanceCall ⟨[], [balanceKey .persistent]⟩ [0])
        (balanceEnv .persistent 2000000) env' := by
  constructor
  · intro hkeeps
    have hcovered := covered_of_keepsTtls (by rintro _ ⟨⟩)
      (hkeeps Deps.echo Deps.echo_reportsTtls)
    have hle := hcovered (balanceKey .temporary) List.mem_cons_self rfl _ 500
      Finmap.lookup_singleton_eq rfl
    exact absurd hle (by decide)
  · intro hkeeps
    have hcovered := covered_of_keepsTtls (by rintro _ ⟨⟩)
      (hkeeps Deps.echo Deps.echo_reportsTtls)
    have hle := hcovered (balanceKey .persistent) List.mem_cons_self rfl _ 2000000
      Finmap.lookup_singleton_eq rfl
    exact absurd hle (by decide)

/-! ## The result -/

/-- Calls of every host that does what is documented keep the stored TTLs and
the read-only entries, exactly when no stored TTL of the footprint is above
what the host is handed. -/
theorem send_keepsTtls_iff {env : SorobanEnv} {args : SendArgs}
    (hword : ∀ max, args.maxRefundableFee = some max → -2 ^ 63 ≤ max) :
    (∀ d : Deps, d.ReportsTtls → ∀ out env', env.send d args = .ok out env' → out.ok = true →
      KeepsTtls args env env') ↔ TtlsCovered env args := by
  constructor
  · intro hkeeps
    exact covered_of_keepsTtls hword (hkeeps Deps.echo Deps.echo_reportsTtls)
  · intro hcovered d hhost out env' hsend hok
    exact keepsTtls_of_covered hhost hcovered hsend hok

theorem send_keepsTtls_iff_balance :
    (∀ d : Deps, d.ReportsTtls → ∀ out env',
      (balanceEnv .persistent 2000).send d
        { balanceCall ⟨[], [balanceKey .persistent]⟩ [] with maxRefundableFee := some 100 } =
          .ok out env' → out.ok = true →
      KeepsTtls { balanceCall ⟨[], [balanceKey .persistent]⟩ [] with maxRefundableFee := some 100 }
        (balanceEnv .persistent 2000) env') ↔
    TtlsCovered (balanceEnv .persistent 2000)
      { balanceCall ⟨[], [balanceKey .persistent]⟩ [] with maxRefundableFee := some 100 } :=
  send_keepsTtls_iff (by rintro max ⟨⟩; decide)

end LiteSoroban

import LiteSoroban.Fixtures.Trustlines

/-!
# Trustlines and their counter

An account counts its trustlines in `numSubEntries`, and the fixtures write the
two apart: first the entry, then the account.

`Store.InStep` is the invariant of a run: every counter is the number of
trustlines, no trustline is in an asset of its own holder, and none is without
an account.  `Store.InStep.create` is the one step that moves a counter, and
everything else is within `Store.SubEntriesKept`.
-/

namespace LiteSoroban

open Effect

/-! ## The host -/

/-- The account of an item that is handed over. -/
def handedAccount (item : Option (Encoded LedgerEntry) × Option TtlLedgerEntryMeta) :
    Option AccountEntry :=
  (item.1.bind (·.decoded)).bind (·.data.account?)

/-- A change of an account that was handed over, or was not: it removes none,
keeps the counter, and starts a new account's at zero. -/
structure LedgerEntryChange.KeepsCounter (ch : LedgerEntryChange) (handed : Option AccountEntry) :
    Prop where
  stays : handed.isSome → ch.encodedNewValue = none → ch.readOnly = true
  counter : ∀ newValue entry, ch.encodedNewValue = some newValue → newValue.decoded = some entry →
    entry.data.account?.map (·.numSubEntries) = some (handed.elim 0 (·.numSubEntries))

/-- `mint` and `transfer` of the asset contracts, which sit at `sac`, create and
remove no trustline, and change what they change of the footprint. -/
structure Sdk.AssetContracts (s : Sdk) (sac : ScAddress → Prop) : Prop where
  trustlines : ∀ input ch id asset, s.IsAssetCall sac input.hostFunction → s.Returns input ch →
    ch.encodedKey.decoded = some (.trustline id asset) →
    .trustline id asset ∈ input.resources.footprint.keys ∧
    ∀ item, (.trustline id asset, item) ∈ input.handed → ch.KeepsPresence item.1.isSome
  accounts : ∀ input ch id, s.IsAssetCall sac input.hostFunction → s.Returns input ch →
    ch.encodedKey.decoded = some (.account id) →
    .account id ∈ input.resources.footprint.keys ∧
    ∀ item, (.account id, item) ∈ input.handed → ch.KeepsCounter (handedAccount item)

/-- The trustlines are those there were, every account keeps its counter, and a
new one's is zero. -/
structure Store.SubEntriesKept (store store' : Store) : Prop where
  trustlines : ∀ id asset, (store'.lookup (.trustline id asset)).isSome =
    (store.lookup (.trustline id asset)).isSome
  stored : ∀ id account, store.account? id = some account →
    ∃ account', store'.account? id = some account' ∧ account'.numSubEntries = account.numSubEntries
  created : ∀ id account', store'.account? id = some account' → store.account? id = none →
    account'.numSubEntries = 0

theorem Store.SubEntriesKept.trans {a b c : Store} (hab : a.SubEntriesKept b)
    (hbc : b.SubEntriesKept c) : a.SubEntriesKept c := by
  refine ⟨fun id asset => (hbc.trustlines id asset).trans (hab.trustlines id asset),
    fun id account ha => ?_, fun id account'' hc ha => ?_⟩
  · obtain ⟨account', hb, hnum⟩ := hab.stored id account ha
    obtain ⟨account'', hc, hnum'⟩ := hbc.stored id account' hb
    exact ⟨account'', hc, hnum'.trans hnum⟩
  · cases hb : b.account? id with
    | none => exact hbc.created id account'' hc hb
    | some account' =>
      obtain ⟨_, hc', hnum⟩ := hbc.stored id account' hb
      cases hc.symm.trans hc'
      rw [hnum, hab.created id account' hb ha]

/-- Stores that read alike. -/
theorem Store.SubEntriesKept.of_reads {store store' : Store}
    (htrustlines : ∀ id asset, (store'.lookup (.trustline id asset)).isSome =
      (store.lookup (.trustline id asset)).isSome)
    (haccounts : ∀ id, store'.account? id = store.account? id) : store.SubEntriesKept store' := by
  refine ⟨htrustlines, fun id account h => ⟨account, by rw [haccounts, h], rfl⟩,
    fun id account' h hnone => ?_⟩
  rw [haccounts, hnone] at h
  cases h

theorem Store.SubEntriesKept.refl (store : Store) : store.SubEntriesKept store :=
  .of_reads (fun _ _ => rfl) fun _ => rfl

theorem Store.isSome_lookup_insert {store : Store} {key key' : LedgerKey} (e : EntryWithLiveUntil)
    (hkey : key' = key → (store.lookup key).isSome) :
    (Finmap.lookup key' (store.insert key e)).isSome = (store.lookup key').isSome := by
  by_cases heq : key' = key
  · subst heq
    rw [Finmap.lookup_insert, hkey rfl]
    rfl
  · rw [Finmap.lookup_insert_of_ne _ heq]

/-- Writing over an entry with one that has the same account keeps the
counters. -/
theorem Store.SubEntriesKept.insert {store : Store} {key : LedgerKey} (e : EntryWithLiveUntil)
    (hkey : (store.lookup key).isSome)
    (haccount : ∀ id, key = .account id → e.entry.data.account? = store.account? id) :
    store.SubEntriesKept (store.insert key e) := by
  refine .of_reads (fun id asset => Store.isSome_lookup_insert e fun _ => hkey) fun id => ?_
  rw [Store.account?_insert]
  split
  · next h => exact haccount id h
  · rfl

/-- A turn of the merge loop keeps the counters, when the host was handed what
is stored. -/
theorem mergeChange_subEntriesKept {store : Store} {ch : LedgerEntryChange}
    (htrustline : ∀ id asset, ch.encodedKey.decoded = some (.trustline id asset) →
      ch.KeepsPresence (store.lookup (.trustline id asset)).isSome)
    (haccount : ∀ id, ch.encodedKey.decoded = some (.account id) →
      ch.KeepsCounter (store.account? id))
    {m : Merged} (hm : store.SubEntriesKept m.store) :
    store.SubEntriesKept (finalState (mergeChange ch m)).store := by
  rcases mergeChange_cases ch m with hsame | ⟨key, newValue, entry, hkey, hnew, hentry, hstore⟩ |
    ⟨key, slot, ttl, -, -, -, -, hslot, hstore⟩ | ⟨key, hkey, hnone, hro, hstore⟩
  · rw [hsame]
    exact hm
  · rw [hstore]
    refine ⟨fun id asset => ?_, fun id account hstored => ?_, fun id account' hafter hbefore => ?_⟩
    · rw [← hm.trustlines id asset]
      refine Store.isSome_lookup_insert _ fun heq => ?_
      subst heq
      rw [hm.trustlines]
      exact (htrustline id asset hkey).created (by rw [hnew]; rfl)
    · rw [Store.account?_insert]
      split
      · next heq =>
        subst heq
        have hcounter := (haccount id hkey).counter newValue entry hnew hentry
        rw [hstored] at hcounter
        exact Option.map_eq_some_iff.mp hcounter
      · exact hm.stored id account hstored
    · rw [Store.account?_insert] at hafter
      split at hafter
      · next heq =>
        subst heq
        have hcounter := (haccount id hkey).counter newValue entry hnew hentry
        rw [hbefore, hafter] at hcounter
        exact Option.some.inj hcounter
      · exact hm.created id account' hafter hbefore
  · rw [hstore]
    refine hm.trans (.insert _ (by rw [hslot]; rfl) fun id heq => ?_)
    subst heq
    unfold Store.account?
    rw [hslot]
    rfl
  · rw [hstore]
    refine ⟨fun id asset => ?_, fun id account hstored => ?_, fun id account' hafter hbefore => ?_⟩
    · by_cases heq : key = .trustline id asset
      · subst heq
        rw [Finmap.lookup_erase, (htrustline id asset hkey).removed hnone hro]
        rfl
      · rw [Finmap.lookup_erase_ne (Ne.symm heq), hm.trustlines]
    · have hne : key ≠ .account id := by
        rintro rfl
        have := (haccount id hkey).stays (by rw [hstored]; rfl) hnone
        rw [hro] at this
        cases this
      rw [Store.account?_erase_of_ne _ hne]
      exact hm.stored id account hstored
    · by_cases heq : key = .account id
      · subst heq
        unfold Store.account? at hafter
        rw [Finmap.lookup_erase] at hafter
        cases hafter
      · rw [Store.account?_erase_of_ne _ heq] at hafter
        exact hm.created id account' hafter hbefore

/-! ## The invariant -/

/-- Every counter is the number of trustlines of its account, no trustline is
in an asset its holder issues, and every trustline has an account. -/
structure Store.InStep (store : Store) : Prop where
  keyed : store.Keyed
  counted : ∀ id account, store.account? id = some account →
    account.numSubEntries = store.trustlineCount id
  foreign : ∀ id asset, (store.lookup (.trustline id asset)).isSome → asset.issuer? ≠ some id
  funded : ∀ id asset, (store.lookup (.trustline id asset)).isSome → (store.account? id).isSome

/-- An account that is not there has no trustlines. -/
theorem Store.InStep.trustlineCount_eq_zero {store : Store} (h : store.InStep) {id : AccountId}
    (hnone : store.account? id = none) : store.trustlineCount id = 0 := by
  unfold Store.trustlineCount
  rw [Finset.card_eq_zero, Finset.eq_empty_iff_forall_notMem]
  intro key hmem
  obtain ⟨hkey, hsome⟩ := Store.mem_trustlineKeys.mp hmem
  cases key with
  | trustline holder asset =>
    have hid : holder = id := by simpa [LedgerKey.isTrustlineOf] using hkey
    have hfunded := h.funded holder asset hsome
    rw [hid, hnone] at hfunded
    cases hfunded
  | _ => cases hkey

theorem Store.InStep.of_kept {store store' : Store} (h : store.InStep)
    (hkept : store.SubEntriesKept store') (hkeyed : store'.Keyed) : store'.InStep := by
  have hcount := Store.trustlineCount_congr hkept.trustlines
  refine ⟨hkeyed, fun id account' hafter => ?_, fun id asset hsome => ?_, fun id asset hsome => ?_⟩
  · rw [hcount]
    cases hbefore : store.account? id with
    | none => rw [hkept.created id account' hafter hbefore, h.trustlineCount_eq_zero hbefore]
    | some account =>
      obtain ⟨_, hafter', hnum⟩ := hkept.stored id account hbefore
      cases hafter.symm.trans hafter'
      rw [hnum, h.counted id account hbefore]
  · rw [hkept.trustlines] at hsome
    exact h.foreign id asset hsome
  · rw [hkept.trustlines] at hsome
    obtain ⟨account, hbefore⟩ := Option.isSome_iff_exists.mp (h.funded id asset hsome)
    obtain ⟨account', hafter, -⟩ := hkept.stored id account hbefore
    rw [hafter]
    rfl

theorem Ledger.withTrustline_keyed {ledger : Ledger} (h : ledger.store.Keyed)
    (trustLine : TrustLineEntry) : (ledger.withTrustline trustLine).store.Keyed :=
  h.insert rfl

theorem Ledger.account?_withTrustline (ledger : Ledger) (trustLine : TrustLineEntry)
    (id : AccountId) :
    (ledger.withTrustline trustLine).store.account? id = ledger.store.account? id := by
  unfold Ledger.withTrustline
  rw [Ledger.withStore_store, Store.account?_insert, if_neg (by simp)]

theorem countSubEntry_eq {s : Sdk} {id : AccountId} {ledger : Ledger}
    (hkeyed : ledger.store.Keyed) :
    countSubEntry s id ledger = match ledger.store.account? id with
      | some account =>
        storeAccount s.toDeps { account with numSubEntries := account.numSubEntries + 1 } ledger
      | none => .ok () ledger := by
  unfold countSubEntry LedgerM.lift
  simp only [bind, EStateM.bind, loadAccount_keyed hkeyed]
  cases ledger.store.account? id <;> rfl

/-- A trustline may be created for a holder: in an asset of somebody else, with
its account in the store and a counter that can go up. -/
structure CanGrant (s : Sdk) (ledger : Ledger) (holder : Wallet) (issuer : AccountId) : Prop where
  foreign : holder.accountId ≠ issuer
  counts : ∃ account, ledger.store.account? holder.accountId = some account ∧
    s.encodeAccount { account with numSubEntries := account.numSubEntries + 1 } = .ok ()

/-- A new trustline and its count keep the counters in step. -/
theorem Store.InStep.create {s : Sdk} {ledger : Ledger} (h : ledger.store.InStep) {holder : Wallet}
    {code : Bytes} {issuer : AccountId} {opts : TrustlineOptions}
    (hmissing : ledger.getEntry (trustlineKey holder code issuer) = none)
    (hgrant : CanGrant s ledger holder issuer) :
    (finalState (countSubEntry s holder.accountId
      (ledger.withTrustline (newTrustline holder code issuer opts)))).store.InStep := by
  obtain ⟨account, haccount, hencode⟩ := hgrant.counts
  let created := ledger.withTrustline (newTrustline holder code issuer opts)
  let counted : AccountEntry := { account with numSubEntries := account.numSubEntries + 1 }
  have hkeyed : created.store.Keyed := Ledger.withTrustline_keyed h.keyed _
  have haccounts : ∀ id, created.store.account? id = ledger.store.account? id :=
    Ledger.account?_withTrustline ledger _
  have hid : account.accountId = holder.accountId := h.keyed.accountId_eq haccount
  have hcounted : counted.accountId = holder.accountId := hid
  have hfinal : finalState (countSubEntry s holder.accountId created) =
      created.withAccount counted := by
    rw [countSubEntry_eq hkeyed, haccounts, haccount]
    simp only [storeAccount_eq, hencode]
    rfl
  have hnew : ledger.store.lookup (trustlineKey holder code issuer) = none :=
    Ledger.getEntry_eq_none.mp hmissing
  have htrustlines : ∀ id asset, (created.withAccount counted).store.lookup (.trustline id asset) =
      created.store.lookup (.trustline id asset) :=
    fun id asset => created.lookup_withAccount_of_ne (by simp)
  have hcount : ∀ id, (created.withAccount counted).store.trustlineCount id =
      ledger.store.trustlineCount id + (if id = holder.accountId then 1 else 0) := by
    intro id
    have hsame : (created.withAccount counted).store.trustlineCount id =
        created.store.trustlineCount id :=
      Store.trustlineCount_congr (fun id asset => by rw [htrustlines id asset]) id
    rw [hsame]
    exact Store.trustlineCount_insert hnew _ id
  have hlookup : ∀ id asset, (created.store.lookup (.trustline id asset)).isSome →
      (id = holder.accountId ∧ asset = trustLineAsset code issuer) ∨
        (ledger.store.lookup (.trustline id asset)).isSome := by
    intro id asset hsome
    by_cases hkey : LedgerKey.trustline id asset = trustlineKey holder code issuer
    · exact .inl (by simpa [trustlineKey] using hkey)
    · have hother : created.store.lookup (.trustline id asset) =
          ledger.store.lookup (.trustline id asset) := Finmap.lookup_insert_of_ne _ hkey
      exact .inr (hother ▸ hsome)
  show (finalState (countSubEntry s holder.accountId created)).store.InStep
  rw [hfinal]
  refine ⟨created.withAccount_keyed hkeyed _, fun id account' hstored => ?_,
    fun id asset hsome => ?_, fun id asset hsome => ?_⟩
  · rw [created.account?_withAccount, hcounted, haccounts] at hstored
    rw [hcount]
    split at hstored
    · next heq =>
      cases hstored
      rw [if_pos heq, heq, ← h.counted _ _ haccount]
    · next hne => rw [if_neg hne, h.counted _ _ hstored, Nat.add_zero]
  · rw [htrustlines] at hsome
    rcases hlookup id asset hsome with ⟨rfl, rfl⟩ | hbefore
    · rw [trustLineAsset_issuer]
      exact fun heq => hgrant.foreign (Option.some.inj heq).symm
    · exact h.foreign id asset hbefore
  · rw [created.account?_withAccount, hcounted, haccounts]
    rw [htrustlines] at hsome
    split
    · rfl
    · rcases hlookup id asset hsome with ⟨rfl, -⟩ | hbefore
      · contradiction
      · exact h.funded id asset hbefore

/-- What `establishTrustline` writes keeps the counters in step, when a new
trustline is one that may be created. -/
theorem TrustlineWrite.inStep {s : Sdk} {holder : Wallet} {asset : Asset} {opts : TrustlineOptions}
    {ledger ledger' : Ledger} (hwrite : TrustlineWrite s holder asset opts ledger ledger')
    (h : ledger.store.InStep)
    (hgrant : ∀ code issuer, asset = .credit code issuer →
      ledger.getEntry (trustlineKey holder code issuer) = none →
      s.encodeTrustLine (newTrustline holder code issuer opts) = .ok () →
      CanGrant s ledger holder issuer) : ledger'.store.InStep := by
  cases hwrite with
  | untouched => exact h
  | @rewritten code issuer stored trustLine hasset hstored hholder hline _ =>
    refine h.of_kept (.insert _ ?_ fun id heq => by cases heq)
      (Ledger.withTrustline_keyed h.keyed trustLine)
    rw [hholder, hline]
    obtain ⟨e, he, -⟩ := Ledger.getEntry_eq_some.mp hstored
    exact Option.isSome_iff_exists.mpr ⟨e, he⟩
  | created hasset hmissing hencoded =>
    exact h.create hmissing (hgrant _ _ hasset hmissing hencoded)

/-- A call of an asset's contract keeps the counters in step. -/
theorem HostCalled.inStep {s : Sdk} (hkeyed : s.ReturnsKeyed) {sac : ScAddress → Prop}
    (hhost : s.AssetContracts sac) {store store' : Store}
    (hcall : HostCalled s.toDeps (s.IsAssetCall sac) store store') (h : store.InStep) :
    store'.InStep := by
  rcases hcall with rfl | ⟨env, args, input, res, value, consumed, rfl, hasset, hdone, rfl⟩
  · exact h
  · obtain ⟨loaded, hprepared⟩ := prepareSend_ok hdone.prepared
    have hcalled : s.IsAssetCall sac input.hostFunction := by
      rw [hprepared.input_eq]
      exact hasset
    refine h.of_kept ?_ (mergedStore_keyed hkeyed hdone.returned h.keyed)
    refine mergeChanges_induction (P := fun m => env.store.SubEntriesKept m.store)
      (fun ch hch m hm => mergeChange_subEntriesKept (fun id asset hkey => ?_)
        (fun id hkey => ?_) hm) (.refl _)
    · obtain ⟨hmem, hkeeps⟩ :=
        hhost.trustlines input ch id asset hcalled ⟨res, hdone.returned, hch⟩ hkey
      obtain ⟨item, hhanded, hpresent, -⟩ := hprepared.handed_stored rfl hmem
      rw [← hpresent]
      exact hkeeps item hhanded
    · obtain ⟨hmem, hkeeps⟩ := hhost.accounts input ch id hcalled ⟨res, hdone.returned, hch⟩ hkey
      obtain ⟨item, hhanded, -, hentry⟩ := hprepared.handed_stored rfl hmem
      have haccount : handedAccount item = env.store.account? id := by
        unfold handedAccount Store.account?
        rw [hentry, Option.bind_map]
        rfl
      rw [← haccount]
      exact hkeeps item hhanded

/-! ## Runs -/

/-- Every account is as it was funded, and there are no trustlines. -/
structure Store.FreshlyFunded (store : Store) : Prop where
  keyed : store.Keyed
  uncounted : ∀ id account, store.account? id = some account → account.numSubEntries = 0
  trustless : ∀ id asset, store.lookup (.trustline id asset) = none

theorem Store.FreshlyFunded.inStep {store : Store} (h : store.FreshlyFunded) : store.InStep := by
  refine ⟨h.keyed, fun id account haccount => ?_, fun id asset hsome => ?_,
    fun id asset hsome => ?_⟩
  · have hnone : store.trustlineKeys id = ∅ := by
      rw [Finset.eq_empty_iff_forall_notMem]
      intro key hmem
      obtain ⟨hkey, hsome⟩ := Store.mem_trustlineKeys.mp hmem
      cases key with
      | trustline holder asset =>
        rw [h.trustless] at hsome
        cases hsome
      | _ => cases hkey
    rw [h.uncounted id account haccount, Store.trustlineCount, hnone, Finset.card_empty]
  · rw [h.trustless] at hsome
    cases hsome
  · rw [h.trustless] at hsome
    cases hsome

/-- Where a call would create a trustline, it may. -/
def MayGrant (s : Sdk) (svm : LiteStellar) (op : TrustlineOp) : Prop :=
  ∀ g code issuer, op.grant? = some g → g.asset = .credit code issuer →
    svm.ledger.getEntry (trustlineKey g.holder code issuer) = none →
    s.encodeTrustLine (newTrustline g.holder code issuer g.opts) = .ok () →
    CanGrant s svm.ledger g.holder issuer

/-- The token of a call is a handle on an asset's contract. -/
def TrustlineOp.CallsAsset (sac : ScAddress → Prop) (op : TrustlineOp) : Prop :=
  ∀ token, op.called? = some token → sac token.address

/-- One call keeps the counters in step. -/
theorem TrustlineOp.perform_inStep {s : Sdk} (hkeyed : s.ReturnsKeyed) {sac : ScAddress → Prop}
    (hhost : s.AssetContracts sac) {op : TrustlineOp} (hasset : op.CallsAsset sac)
    {svm : LiteStellar} (hgrant : MayGrant s svm op) (h : svm.ledger.store.InStep) :
    (finalState (op.perform s svm)).ledger.store.InStep := by
  obtain ⟨mid, hwrites, hcall⟩ := op.perform_final s svm
  have hmid : mid.store.InStep := by
    rcases hwrites with rfl | ⟨g, hg, hwrite⟩
    · exact h
    · exact hwrite.inStep h fun code issuer => hgrant g code issuer hg
  refine (hcall.mono ?_).inStep hkeyed hhost hmid
  rintro hostFunction ⟨token, htoken, address, fn, args, rfl, hfn, hencode⟩
  exact ⟨token.address, fn, args, hasset token htoken, hfn, hencode⟩

/-- From freshly funded accounts, a run of calls that create trustlines only
where they may keeps every counter at the number of trustlines and no issuer
holds its own asset.  Beside the host call it makes, a call changes no balance
but one it is given. -/
theorem trustlineCalls_inStep {s : Sdk} (hkeyed : s.ReturnsKeyed) {sac : ScAddress → Prop}
    (hhost : s.AssetContracts sac) {svm : LiteStellar}
    (hfresh : svm.ledger.store.FreshlyFunded) {ops : List TrustlineOp}
    (hassets : ∀ op ∈ ops, op.CallsAsset sac)
    (hgrants : (trustlineCalls s).AllSteps (MayGrant s) svm ops) :
    let after := (trustlineCalls s).run svm ops
    (∀ id account, after.ledger.store.account? id = some account →
      account.numSubEntries = after.ledger.store.trustlineCount id) ∧
    (∀ id asset, (after.ledger.store.trustline? id asset).isSome → asset.issuer? ≠ some id) ∧
    ∀ op : TrustlineOp, ∃ mid, op.KeepsBalances after.ledger.store mid ∧
      HostCalled s.toDeps (op.Sends s) mid (finalState (op.perform s after)).ledger.store := by
  intro after
  have hstep : after.ledger.store.InStep :=
    @Machine.invariant_run _ _ _ (trustlineCalls s) (fun svm => svm.ledger.store.InStep)
      (fun svm op => op.CallsAsset sac ∧ MayGrant s svm op)
      (fun svm op h hop => op.perform_inStep hkeyed hhost hop.1 hop.2 h) _ _ hfresh.inStep
      (hgrants.and_mem (trustlineCalls s) hassets)
  refine ⟨hstep.counted, fun id asset hsome => hstep.foreign id asset ?_, fun op => ?_⟩
  · unfold Store.trustline? at hsome
    cases hlookup : after.ledger.store.lookup (.trustline id asset) with
    | none =>
      rw [hlookup] at hsome
      cases hsome
    | some e => rfl
  · obtain ⟨mid, hwrites, hcall⟩ := op.perform_final s after
    exact ⟨mid.store, hwrites.keepsBalances, hcall⟩

/-! ## An issuer and a holder -/

/-- A facade over one account. -/
def sampleStellar (seed : UInt8) : LiteStellar := ⟨sampleLedger seed, {}, none, 0, 0⟩

theorem sampleStellar_freshlyFunded (seed : UInt8) :
    (sampleStellar seed).ledger.store.FreshlyFunded := by
  refine ⟨sampleLedger_keyed seed, fun id account h => ?_, fun id asset => ?_⟩
  · have hread := emptyLedger.account?_withAccount (sampleAccount seed) id
    rw [show (sampleStellar seed).ledger = emptyLedger.withAccount (sampleAccount seed) from rfl,
      hread] at h
    split at h
    · cases h
      rfl
    · cases h
  · exact emptyLedger.lookup_withAccount_of_ne (by simp)

/-- The asset `T` of an account. -/
def sampleAsset (seed : UInt8) : Asset := .credit [84] (sampleAccount seed).accountId

def sampleWallet (seed : UInt8) : Wallet := ⟨(sampleAccount seed).accountId⟩

/-- The facade gives an issuer a trustline in its own asset. -/
theorem trustlineCalls_issuer :
    ¬ ∀ (s : Sdk) (svm : LiteStellar) (ops : List TrustlineOp),
      svm.ledger.store.FreshlyFunded → ∀ id asset,
      (((trustlineCalls s).run svm ops).ledger.store.trustline? id asset).isSome →
      asset.issuer? ≠ some id := by
  intro hclaim
  exact hclaim .idle (sampleStellar 7) [.facadeTrust (sampleWallet 7) (sampleAsset 7) none none]
    (sampleStellar_freshlyFunded 7) (sampleAccount 7).accountId
    (trustLineAsset [84] (sampleAccount 7).accountId) rfl rfl

/-- A trustline of another's asset, given twice and then minted to. -/
def sampleCalls : List TrustlineOp :=
  [.facadeTrust (sampleWallet 7) (sampleAsset 8) none none,
    .establishTrustline (sampleWallet 7) (sampleAsset 8) { balance := some 5 },
    .mint ⟨sampleAsset 8, sampleWallet 8, ⟨[]⟩⟩ (.wallet (sampleWallet 7)) 3]

/-- The trustline under an id and an asset, written. -/
def trustlineChange (id : AccountId) (asset : TrustLineAsset) (line : TrustLineEntry) :
    LedgerEntryChange :=
  ⟨false, ⟨8, some (.trustline id asset)⟩, 0,
    some ⟨12, some (trustlineLedgerEntry 1000 { line with accountId := id, asset := asset })⟩,
    0, none⟩

/-- The changes of a mint: the one trustline that is handed over holds as much
more as the call says. -/
def mintChanges (input : HostInput) : List LedgerEntryChange :=
  match input.handed with
  | [(.trustline id asset, some value, _)] =>
    match value.decoded.bind (·.data.trustline?) with
    | some line =>
      let amount := (input.hostFunction.xdr.headD 0).toNat
      [trustlineChange id asset { line with balance := line.balance + amount }]
    | none => []
  | _ => []

/-- An SDK around a host that mints the asset `T` of account 8 to account 7.  A
call is encoded as its amount. -/
def mintingSdk : Sdk :=
  let line : LedgerKey := trustlineKey (sampleWallet 7) [84] (sampleAccount 8).accountId
  { Sdk.idle with
    recordHostFunction := fun _ =>
      ⟨.ok ⟨.ok ⟨[]⟩, ⟨⟨[], [line]⟩, 0, 100, 100⟩, [], [], [], [], 0⟩, 0, 0, []⟩
    invokeHostFunction := fun input => ⟨.ok ⟨.ok ⟨0, some ⟨[]⟩⟩, mintChanges input, []⟩, 0, 0, []⟩
    i128 := fun amount => .ok ⟨[UInt8.ofNat amount.toNat]⟩
    invokeHostFn := fun _ _ args => .ok ⟨(args.getLast?.map (·.xdr)).getD []⟩ }

theorem mintChanges_cases {input : HostInput} {ch : LedgerEntryChange}
    (hch : ch ∈ mintChanges input) : ∃ id asset value ttl line,
      input.handed = [(.trustline id asset, some value, ttl)] ∧
      ch = trustlineChange id asset line := by
  unfold mintChanges at hch
  split at hch
  · next id asset value ttl hhanded =>
    split at hch
    · next line _ =>
      rw [List.mem_singleton.mp hch]
      exact ⟨id, asset, value, ttl, _, hhanded, rfl⟩
    · cases hch
  · cases hch

theorem mintingSdk_returns {input : HostInput} {ch : LedgerEntryChange}
    (h : mintingSdk.Returns input ch) : ch ∈ mintChanges input := by
  obtain ⟨res, hres, hch⟩ := h
  cases hres
  exact hch

theorem mintingSdk_returnsKeyed : mintingSdk.ReturnsKeyed := by
  intro input ch hreturns key newValue entry hkey hnew hentry
  obtain ⟨id, asset, value, ttl, line, -, rfl⟩ := mintChanges_cases (mintingSdk_returns hreturns)
  cases hkey
  cases hnew
  cases hentry
  rfl

/-- A mint keeps the trustline it is handed, and touches no account. -/
theorem mintingSdk_assetContracts (sac : ScAddress → Prop) : mintingSdk.AssetContracts sac where
  trustlines input ch id asset _ hreturns hkey := by
    obtain ⟨id', asset', value, ttl, line, hhanded, rfl⟩ :=
      mintChanges_cases (mintingSdk_returns hreturns)
    cases hkey
    have hmem : (.trustline id asset, some value, ttl) ∈ input.handed := by
      rw [hhanded]
      exact List.mem_cons_self
    refine ⟨(List.of_mem_zip hmem).1, fun item hitem => ?_⟩
    rw [hhanded] at hitem
    cases List.mem_singleton.mp hitem
    exact ⟨fun _ => rfl, fun hnone => by cases hnone⟩
  accounts input ch id _ hreturns hkey := by
    obtain ⟨id', asset', value, ttl, line, -, rfl⟩ :=
      mintChanges_cases (mintingSdk_returns hreturns)
    cases hkey

theorem trustlineCalls_inStep_holder :
    let after := (trustlineCalls mintingSdk).run (sampleStellar 7) sampleCalls
    (after.ledger.store.trustline? (sampleAccount 7).accountId
      (trustLineAsset [84] (sampleAccount 8).accountId)).map (·.balance) = some 8 ∧
    after.ledger.store.trustlineCount (sampleAccount 7).accountId = 1 := by
  have hfirst : MayGrant mintingSdk (sampleStellar 7)
      (.facadeTrust (sampleWallet 7) (sampleAsset 8) none none) := by
    rintro g code issuer ⟨⟩ ⟨⟩ - -
    exact ⟨by decide, _, rfl, rfl⟩
  have hrun := @trustlineCalls_inStep mintingSdk mintingSdk_returnsKeyed (fun _ => True)
    (mintingSdk_assetContracts _) _ (sampleStellar_freshlyFunded 7) sampleCalls (fun _ _ _ _ => trivial)
    ⟨hfirst, by rintro g code issuer ⟨⟩ ⟨⟩ ⟨⟩, by rintro g code issuer ⟨⟩ ⟨⟩ ⟨⟩, trivial⟩
  exact ⟨by decide +kernel, (hrun.1 (sampleAccount 7).accountId _ rfl).symm⟩

end LiteSoroban

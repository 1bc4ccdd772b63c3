import LiteSoroban.Env.Rollback
import LiteSoroban.Lib.Locality

/-!
# What a call touches

A call reads the store under the keys of its footprint and under no others,
and writes it under the keys it may write and under no others.  `send_local`
says so of `send`, of calls that fail or throw as well, for a host that
returns changes to its own footprint.

The module cache is shared by all calls.  Over code that is stored under its
hash no call can tell what earlier calls have left in it.
-/

namespace LiteSoroban

open Effect

/-! ## Footprints -/

/-- What the keys of a footprint let a call do: read all of them, write the
read-write ones, and move the TTL of the read-only ones that have one. -/
def LedgerFootprint.access (footprint : LedgerFootprint) : Access LedgerKey where
  reads := {key | key ∈ footprint.keys}
  writes := {key | key ∈ footprint.readWrite ∨ key ∈ footprint.readOnly ∧ needsTtl key = true}
  sub := by
    rintro key (hkey | ⟨hkey, -⟩)
    · exact List.mem_append_right _ hkey
    · exact List.mem_append_left _ hkey

/-- A change within a footprint.  Its key is one of the footprint's.  Only a
read-write entry is written or removed, and only an entry that has a TTL has
it moved. -/
structure LedgerEntryChange.Within (footprint : LedgerFootprint) (ch : LedgerEntryChange) :
    Prop where
  named : ∀ key, ch.encodedKey.decoded = some key → key ∈ footprint.keys
  written : ∀ key, ch.encodedKey.decoded = some key →
    ch.readOnly = false ∨ ch.encodedNewValue.isSome = true → key ∈ footprint.readWrite
  moved : ∀ key, ch.encodedKey.decoded = some key → ch.ttlChange.isSome = true →
    needsTtl key = true

/-- The host changes nothing outside the footprint it is called with. -/
def Deps.ReturnsFootprint (d : Deps) : Prop :=
  ∀ input ch, d.Returns input ch → ch.Within input.resources.footprint

/-! ## The merge loop -/

theorem Store.lookup_insert_congr {store store' : Store} {k key : LedgerKey}
    (h : store.lookup k = store'.lookup k) (e : EntryWithLiveUntil) :
    (store.insert key e).lookup k = (store'.insert key e).lookup k := by
  by_cases hk : k = key
  · subst hk
    rw [Finmap.lookup_insert, Finmap.lookup_insert]
  · rw [Finmap.lookup_insert_of_ne _ hk, Finmap.lookup_insert_of_ne _ hk]
    exact h

theorem Store.lookup_erase_congr {store store' : Store} {k : LedgerKey}
    (h : store.lookup k = store'.lookup k) (key : LedgerKey) :
    Finmap.lookup k (store.erase key) = Finmap.lookup k (store'.erase key) := by
  by_cases hk : k = key
  · subst hk
    rw [Finmap.lookup_erase, Finmap.lookup_erase]
  · rw [Finmap.lookup_erase_ne hk, Finmap.lookup_erase_ne hk]
    exact h

/-- The same key lists, over stores that agree under these keys. -/
structure Merged.AgreeOn (keys : Set LedgerKey) (m m' : Merged) : Prop where
  changedKeys : m'.changedKeys = m.changedKeys
  removedKeys : m'.removedKeys = m.removedKeys
  ttlChangedKeys : m'.ttlChangedKeys = m.ttlChangedKeys
  store : ∀ key ∈ keys, m.store.lookup key = m'.store.lookup key

/-- One turn of the merge loop looks at the key it changes. -/
theorem mergeChange_respects {keys : Set LedgerKey} {ch : LedgerEntryChange}
    (hch : ∀ key, ch.encodedKey.decoded = some key → key ∈ keys) :
    Respects (Merged.AgreeOn keys) (mergeChange ch) := by
  intro m m' h
  obtain ⟨hchanged, hremoved, httls, hstore⟩ := h
  simp only [mergeChange]
  cases hkey : ch.encodedKey.decoded with
  | none => exact ⟨rfl, hchanged, hremoved, httls, hstore⟩
  | some key =>
    have hslot : m.store.lookup key = m'.store.lookup key := hstore key (hch key hkey)
    cases hvalue : ch.encodedNewValue with
    | some newValue =>
      cases hentry : newValue.decoded with
      | none => simpa only [hentry] using ⟨rfl, hchanged, hremoved, httls, hstore⟩
      | some entry =>
        simp only [hentry]
        exact ⟨rfl, by rw [finalState_ok, finalState_ok, hchanged], hremoved, httls,
          fun k hk => Store.lookup_insert_congr (hstore k hk) _⟩
    | none =>
      cases hro : ch.readOnly with
      | false =>
        exact ⟨rfl, hchanged, by rw [finalState_ok, finalState_ok, hremoved], httls,
          fun k hk => Store.lookup_erase_congr (hstore k hk) key⟩
      | true =>
        cases httl : ch.ttlChange with
        | none => exact ⟨rfl, hchanged, hremoved, httls, hstore⟩
        | some ttl =>
          simp only [Option.map_some, ← hslot]
          cases hfound : m.store.lookup key with
          | none => simpa only using ⟨rfl, hchanged, hremoved, httls, hstore⟩
          | some slot =>
            simp only
            exact ⟨rfl, hchanged, hremoved, by rw [finalState_ok, finalState_ok, httls],
              fun k hk => Store.lookup_insert_congr (hstore k hk) _⟩

theorem mergeChanges_respects {keys : Set LedgerKey} {changes : List LedgerEntryChange}
    (hchanges : ∀ ch ∈ changes, ∀ key, ch.encodedKey.decoded = some key → key ∈ keys) :
    Respects (Merged.AgreeOn keys) (mergeChanges changes) := by
  induction changes with
  | nil => exact .pure ()
  | cons ch changes ih =>
    exact .bind (mergeChange_respects (hchanges ch List.mem_cons_self)) fun _ =>
      ih fun ch' hch' => hchanges ch' (List.mem_cons_of_mem ch hch')

/-- The merge loop writes what the footprint lets it write. -/
theorem mergedStore_frame {footprint : LedgerFootprint} {changes : List LedgerEntryChange}
    (hchanges : ∀ ch ∈ changes, ch.Within footprint) (store : Store) {key : LedgerKey}
    (hkey : key ∉ footprint.access.writes) :
    (mergedStore store changes).lookup key = store.lookup key := by
  have hnot : ∀ k, k ∈ footprint.access.writes → key ≠ k := by
    rintro k hk rfl
    exact hkey hk
  refine mergeChanges_induction (P := fun m => m.store.lookup key = store.lookup key)
    (fun ch hch m hm => ?_) rfl
  have hwithin := hchanges ch hch
  rcases mergeChange_cases ch m with hsame | ⟨k, newValue, entry, hk, hnew, -, hstore⟩ |
    ⟨k, slot, ttl, hk, -, -, httl, -, hstore⟩ | ⟨k, hk, -, hro, hstore⟩
  · rw [hsame]
    exact hm
  · have hwrites := hwithin.written k hk (.inr (by rw [hnew]; rfl))
    rw [hstore, Finmap.lookup_insert_of_ne _ (hnot k (.inl hwrites))]
    exact hm
  · have hmoves := hwithin.moved k hk (by rw [httl]; rfl)
    have hwrites : k ∈ footprint.access.writes :=
      (List.mem_append.mp (hwithin.named k hk)).elim (fun h => .inr ⟨h, hmoves⟩) .inl
    rw [hstore, Finmap.lookup_insert_of_ne _ (hnot k hwrites)]
    exact hm
  · have hwrites := hwithin.written k hk (.inl hro)
    rw [hstore, Finmap.lookup_erase_ne (hnot k (.inl hwrites))]
    exact hm

/-! ## Two environments that differ in the store -/

/-- `env'` is `env` with another store, which agrees under these keys. -/
structure SorobanEnv.StoresAgree (keys : Set LedgerKey) (env env' : SorobanEnv) : Prop where
  frame : env' = env.withStore env'.store
  store : ∀ key ∈ keys, env.store.lookup key = env'.store.lookup key

/-- The loop over the footprint reads the footprint's keys. -/
theorem loadFootprint_congr {d : Deps} {env : SorobanEnv} {store : Store} {args : SendArgs}
    (h : ∀ key ∈ args.resources.footprint.keys, env.store.lookup key = store.lookup key)
    (budget : Budget) :
    loadFootprint d (env.withStore store) args budget = loadFootprint d env args budget := by
  have hloop : ∀ (keys : List LedgerKey),
      (∀ key ∈ keys, env.store.lookup key = store.lookup key) → ∀ acc : Loaded,
      keys.foldlM (loadKey d (env.withStore store) args budget) acc =
        keys.foldlM (loadKey d env args budget) acc := by
    intro keys
    induction keys with
    | nil => exact fun _ _ => rfl
    | cons key keys ih =>
      intro hkeys acc
      obtain ⟨hkey, hrest⟩ := List.forall_mem_cons.mp hkeys
      have hone : loadKey d (env.withStore store) args budget acc key =
          loadKey d env args budget acc key := by
        simp only [loadKey, SorobanEnv.withStore, ← hkey]
        rfl
      rw [List.foldlM_cons, List.foldlM_cons, hone]
      congr 1
      funext acc'
      exact ih hrest acc'
  exact hloop _ h _

/-- The host is handed what stands under the footprint's keys. -/
theorem prepareSend_congr {d : Deps} {env : SorobanEnv} {store : Store} {args : SendArgs}
    (h : ∀ key ∈ args.resources.footprint.keys, env.store.lookup key = store.lookup key) :
    prepareSend d (env.withStore store) args = prepareSend d env args := by
  have hbudget : (env.withStore store).enforcingBudget d = env.enforcingBudget d := rfl
  simp only [prepareSend, hbudget, loadFootprint_congr h]
  rfl

theorem toValue_storesAgree (d : Deps) (out : SendResult) {keys : Set LedgerKey}
    {env env' : SorobanEnv} (h : SorobanEnv.StoresAgree keys env env') :
    Agree (SorobanEnv.StoresAgree keys) (out.toValue d env) (out.toValue d env') := by
  unfold SendResult.toValue
  cases d.toValue [out.cpuInsns, out.memBytes, out.rentFee, out.refundableFeeConsumed] with
  | ok u => exact ⟨rfl, h⟩
  | error e => exact ⟨rfl, h⟩

/-- What follows the host's return looks at the store under the keys of the
host's changes. -/
theorem settleCall_storesAgree (d : Deps) (args : SendArgs) {out : HostOutput}
    {keys : Set LedgerKey} {env env' : SorobanEnv} (h : SorobanEnv.StoresAgree keys env env')
    (hout : ∀ res, out.result = .ok res → ∀ ch ∈ res.ledgerChanges,
      ∀ key, ch.encodedKey.decoded = some key → key ∈ keys) :
    Agree (SorobanEnv.StoresAgree keys) (settleCall d env args out)
      (settleCall d env' args out) := by
  obtain ⟨hframe, hstore⟩ := h
  rw [hframe] at hstore ⊢
  generalize env'.store = store at hstore
  have hagree : SorobanEnv.StoresAgree keys env (env.withStore store) := ⟨rfl, hstore⟩
  have hwritten : checkWrittenEntries (env.withStore store) = checkWrittenEntries env :=
    checkWrittenEntries_congr rfl rfl
  have hconsumed : consumeRefundable d (env.withStore store) = consumeRefundable d env := rfl
  have hfailed : failedInHost d (env.withStore store) = failedInHost d env := rfl
  simp only [settleCall, hwritten, hconsumed, hfailed]
  cases hres : out.result with
  | error e => exact toValue_storesAgree d _ hagree
  | ok res =>
    cases hvalue : res.encodedInvokeResult with
    | error e =>
      simp only [hvalue]
      exact toValue_storesAgree d _ hagree
    | ok value =>
      simp only [hvalue]
      cases (do
          checkWrittenEntries env args.resources res.ledgerChanges 0
          consumeRefundable d env res value.len args.maxRefundableFee) with
      | error failure => exact toValue_storesAgree d _ hagree
      | ok consumed =>
        simp only
        have hmerged := mergeChanges_respects (hout res hres) ⟨env.store, [], [], []⟩
          ⟨(env.withStore store).store, [], [], []⟩ ⟨rfl, rfl, rfl, hstore⟩
        rcases hmerged.cases with ⟨u, m, m', hm, hm', hends⟩ | ⟨e, m, m', hm, hm', hends⟩
        · rw [hm, hm']
          have hsame : completed out res value consumed m' = completed out res value consumed m := by
            simp only [completed, hends.changedKeys, hends.removedKeys, hends.ttlChangedKeys]
          simp only [hsame]
          exact toValue_storesAgree d _ ⟨rfl, hends.store⟩
        · rw [hm, hm']
          exact ⟨rfl, rfl, hends.store⟩

/-- A call reads the store under the keys of its footprint. -/
theorem send_storesAgree {d : Deps} (hfootprint : d.ReturnsFootprint) (args : SendArgs)
    {env env' : SorobanEnv}
    (h : SorobanEnv.StoresAgree args.resources.footprint.access.reads env env') :
    Agree (SorobanEnv.StoresAgree args.resources.footprint.access.reads) (env.send d args)
      (env'.send d args) := by
  have hprepare : prepareSend d env' args = prepareSend d env args := by
    rw [h.frame]
    exact prepareSend_congr h.store
  simp only [SorobanEnv.send, hprepare]
  cases hprep : prepareSend d env args with
  | error stop =>
    cases stop with
    | thrown e => exact ⟨rfl, h⟩
    | failed message => exact toValue_storesAgree d _ h
  | ok input =>
    refine settleCall_storesAgree d args ⟨?_, h.store⟩ fun res hres ch hch key hkey => ?_
    · rw [h.frame]
      rfl
    · obtain ⟨loaded, hprepared⟩ := prepareSend_ok hprep
      have hnamed := (hfootprint input ch ⟨res, hres, hch⟩).named key hkey
      rwa [hprepared.resources_eq] at hnamed

/-- A call writes the store under the keys its footprint lets it write. -/
theorem send_lookup {d : Deps} (hfootprint : d.ReturnsFootprint) (args : SendArgs)
    (env : SorobanEnv) {key : LedgerKey} (hkey : key ∉ args.resources.footprint.access.writes) :
    (finalState (env.send d args)).store.lookup key = env.store.lookup key := by
  rcases send_frame d args env with ⟨cache, hframe⟩ | ⟨input, res, _, _, hdone, hframe⟩
  · rw [hframe]
  · rw [hframe]
    obtain ⟨loaded, hprepared⟩ := prepareSend_ok hdone.prepared
    refine mergedStore_frame (fun ch hch => ?_) env.store hkey
    rw [← hprepared.resources_eq]
    exact hfootprint input ch ⟨res, hdone.returned, hch⟩

/-! ## A call is local -/

/-- Code is one of these, and stands under its hash.  Nothing is asked of other
keys. -/
def Deps.StandsUnderHash (d : Deps) (codes : Set Bytes) :
    LedgerKey → Option EntryWithLiveUntil → Prop
  | .contractCode hash, some e => d.IsCode codes hash e.entry
  | _, _ => True

/-- The store of an environment.  Two environments agree beside it when they
differ at most in the module cache, and both caches hold parsed modules. -/
def Deps.storeTable (d : Deps) (codes : Set Bytes) :
    Table SorobanEnv LedgerKey (Option EntryWithLiveUntil) where
  lookup env key := env.store.lookup key
  Beside env env' := env' = { env with store := env'.store, moduleCache := env'.moduleCache } ∧
    env.CacheParsed d codes ∧ env'.CacheParsed d codes
  Good := d.StandsUnderHash codes
  symm := by
    rintro env env' ⟨hframe, hcache, hcache'⟩
    exact ⟨by rw [hframe], hcache', hcache⟩
  trans := by
    rintro env env' env'' ⟨hframe, hcache, -⟩ ⟨hframe', -, hcache'⟩
    exact ⟨by rw [hframe', hframe], hcache, hcache'⟩

theorem codeAddressed_of_sound {d : Deps} {codes : Set Bytes} {env : SorobanEnv} {args : SendArgs}
    (h : (d.storeTable codes).Sound args.resources.footprint.access.reads env) :
    CodeAddressed d codes env args := by
  intro hash e hfinds
  have hgood := h (.contractCode hash) hfinds.named
  simp only [Deps.storeTable, hfinds.stored, Deps.StandsUnderHash] at hgood
  exact hgood

/-- What a call answers and what it leaves under the keys of its footprint
depend on what stands under those keys, and the call writes no others. -/
theorem send_local {d : Deps} {codes : Set Bytes} (hhost : d.ReadsUsedCode)
    (hhash : d.HashesCode codes) (hfootprint : d.ReturnsFootprint) (args : SendArgs) :
    (d.storeTable codes).Local args.resources.footprint.access (SorobanEnv.send d args) := by
  refine ⟨fun env env' h hsound => ?_, fun env henv hsound => ?_, fun env _ key hkey => ?_⟩
  · have hsound' := h.sound hsound
    obtain ⟨⟨hframe, hcache, hcache'⟩, hstore⟩ := h
    -- Change the store first, and then the cache.
    have hstep : SorobanEnv.StoresAgree args.resources.footprint.access.reads env
        (env.withStore env'.store) := ⟨rfl, hstore⟩
    have hset : env' = (env.withStore env'.store).setAside env'.moduleCache env'.snapshots := by
      rw [hframe]
      rfl
    have hsame : (d.storeTable codes).AgreeOn args.resources.footprint.access.reads env
        (env.withStore env'.store) := ⟨⟨rfl, hcache, hcache⟩, hstore⟩
    have hcode : CodeAddressed d codes (env.withStore env'.store) args :=
      codeAddressed_of_sound (hsame.sound hsound)
    have haside : ∃ cache, ((env.withStore env'.store).setAside env'.moduleCache
        env'.snapshots).send d args =
          mapState (·.setAside cache env'.snapshots) ((env.withStore env'.store).send d args) :=
      send_setAside hhost hhash hcache (hset ▸ hcache') hcode
    obtain ⟨cache, hsend⟩ := haside
    have hagree := send_storesAgree hfootprint args hstep
    have hend := send_cacheParsed hcache (codeAddressed_of_sound hsound).among
    have hend' : (finalState (env'.send d args)).CacheParsed d codes :=
      send_cacheParsed hcache' (codeAddressed_of_sound hsound').among
    have hsend' : env'.send d args =
        mapState (·.setAside cache env'.snapshots) ((env.withStore env'.store).send d args) := by
      rw [← hsend, ← hset]
    have hsnapshots : (finalState (env.send d args)).snapshots = env'.snapshots := by
      rw [send_snapshots, hframe]
    refine ⟨?_, ⟨?_, hend, hend'⟩, fun key hkey => ?_⟩
    · rw [hsend', answer_mapState]
      exact hagree.answers
    · rw [hsend', finalState_mapState, hagree.ends.frame, ← hsnapshots]
      rfl
    · rw [hsend', finalState_mapState]
      exact hagree.ends.store key hkey
  · refine ⟨?_, henv.2.1, send_cacheParsed henv.2.1 (codeAddressed_of_sound hsound).among⟩
    rcases send_frame d args env with ⟨cache, hframe⟩ | ⟨_, _, _, _, _, hframe⟩
    · rw [hframe]
    · rw [hframe]
  · exact send_lookup hfootprint args env hkey

end LiteSoroban

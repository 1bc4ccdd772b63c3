import Mathlib.Algebra.GroupWithZero.Nat
import Mathlib.Algebra.Order.BigOperators.Group.List
import LiteSoroban.Classic.AccountFrame
import LiteSoroban.Env.SendEntries

/-!
# Declared disk reads

A simulation reports how many bytes the call will read from disk, and `send`
stops a call that reads more than it declares.  The simulation sizes every
account as the next bump will leave it.  By the time of the call one account
has been bumped and one debited, and both have lost the sponsor of their
entry.

`Store.FitsIn` says that a store holds nothing a simulation would size larger
than what another store holds, and each rewrite of the apply path keeps it.
So what was simulated is enough, in the same ledger and after the commit.
-/

namespace LiteSoroban

open Effect

/-! ## Sizes as a simulation sees them -/

/-- The XDR size of an entry, where it holds an account. -/
structure Deps.SizesAccounts (d : Deps) : Prop where
  account : ∀ lastModified account ext,
    d.entrySize ⟨lastModified, .account account, ext⟩ = accountEntrySize account ext

/-- An entry as a simulation reads it. -/
def LedgerEntry.promoted (e : LedgerEntry) : LedgerEntry :=
  match e.data with
  | .account account => { e with data := .account (updateAccountEntry account) }
  | _ => e

theorem simulationSnapshot_eq (env : SorobanEnv) (key : LedgerKey) :
    env.simulationSnapshot key =
      (env.store.lookup key).map fun e => ⟨e.entry.promoted, e.liveUntil⟩ := by
  unfold SorobanEnv.simulationSnapshot LedgerEntry.promoted
  cases env.store.lookup key with
  | none => rfl
  | some e =>
    simp only [Option.map_some]
    cases e.entry.data <;> rfl

/-- No entry is smaller to a simulation than it is. -/
theorem Deps.SizesAccounts.le_promoted {d : Deps} (h : d.SizesAccounts) (e : LedgerEntry) :
    d.entrySize e ≤ d.entrySize e.promoted := by
  obtain ⟨lastModified, data, ext⟩ := e
  unfold LedgerEntry.promoted
  cases data with
  | account account =>
    dsimp only
    rw [h.account, h.account]
    exact accountEntrySize_mono (xdrSize_updateAccountEntry account) le_rfl
  | trustline trustLine => exact le_rfl
  | contractData contractData => exact le_rfl
  | contractCode contractCode => exact le_rfl
  | unsupported type xdr => exact le_rfl

/-- Whatever a store holds, the other holds too, and a simulation sizes it no
smaller there. -/
def Store.FitsIn (d : Deps) (store bound : Store) : Prop :=
  ∀ key e, store.lookup key = some e → ∃ e', bound.lookup key = some e' ∧
    d.entrySize e.entry.promoted ≤ d.entrySize e'.entry.promoted

theorem Store.FitsIn.refl (d : Deps) (store : Store) : store.FitsIn d store :=
  fun _ e he => ⟨e, he, le_rfl⟩

theorem Store.FitsIn.trans {d : Deps} {a b c : Store} (hab : a.FitsIn d b) (hbc : b.FitsIn d c) :
    a.FitsIn d c := by
  intro key e he
  obtain ⟨e', he', hle⟩ := hab key e he
  obtain ⟨e'', he'', hle'⟩ := hbc key e' he'
  exact ⟨e'', he'', hle.trans hle'⟩

namespace AccountOp

/-- A simulation sizes an account alike before and after a rewrite. -/
theorem xdrSize_effect (ledger : Ledger) (op : AccountOp) (account : AccountEntry) :
    (updateAccountEntry (op.effect ledger account)).xdrSize =
      (updateAccountEntry account).xdrSize := by
  rw [updateAccountEntry_eq, updateAccountEntry_eq]
  cases op with
  | bump seqNum =>
    unfold AccountOp.effect AccountEntry.xdrSize
    dsimp only
    rw [fullChain_bumped, FullChain.xdrSize_stamp]
    rfl
  | debit amount => rfl

/-- A rewrite stores no larger account, in the smallest wrapper there is. -/
theorem perform_fitsIn {d : Deps} (op : AccountOp) (hsizes : d.SizesAccounts) {id : AccountId}
    {ledger ledger' : Ledger} (hkeyed : ledger.store.Keyed)
    (h : op.perform d id ledger = .ok () ledger') :
    ledger'.store.Keyed ∧ ledger'.store.FitsIn d ledger.store := by
  have hrewritten : Rewritten id (op.effect ledger) ledger ledger' := by
    rw [perform_eq] at h
    exact rewriteAccount_ok (fun l a => effect_accountId l op a) hkeyed h
  obtain ⟨account, haccount⟩ := Option.isSome_iff_exists.mp hrewritten.present
  have hstored := perform_ok hkeyed haccount h
  have hid : (op.effect ledger account).accountId = id :=
    (op.effect_accountId ledger account).trans (hkeyed.accountId_eq haccount)
  refine ⟨hrewritten.keyed, fun key e he => ?_⟩
  by_cases hkey : key = .account id
  · subst hkey
    obtain ⟨⟨⟨lastModified, data, ext⟩, liveUntil⟩, hold, hdata⟩ :=
      Option.bind_eq_some_iff.mp haccount
    refine ⟨_, hold, ?_⟩
    rw [hstored, Ledger.withAccount, Ledger.store, hid, Finmap.lookup_insert] at he
    cases he
    cases data with
    | account stored =>
      cases hdata
      unfold LedgerEntry.promoted accountLedgerEntry
      dsimp only
      rw [hsizes.account, hsizes.account]
      exact accountEntrySize_mono (op.xdrSize_effect ledger account).le ext.xdrSize_ge
    | trustline trustLine => cases hdata
    | contractData contractData => cases hdata
    | contractCode contractCode => cases hdata
    | unsupported type xdr => cases hdata
  · exact ⟨e, (hrewritten.others key hkey) ▸ he, le_rfl⟩

end AccountOp

/-- The bump and the debit of a commit. -/
theorem commitClassic_fitsIn {d : Deps} (hsizes : d.SizesAccounts) {a : Application}
    {v : Validated} {ledger ledger' : Ledger} (hkeyed : ledger.store.Keyed)
    (h : commitClassic d a v ledger = .ok () ledger') : ledger'.store.FitsIn d ledger.store := by
  simp only [commitClassic, bind_eq_ok] at h
  obtain ⟨_, mid, hbump, h⟩ := h
  obtain ⟨hkeyed', hfits⟩ := AccountOp.perform_fitsIn (.bump _) hsizes hkeyed hbump
  cases hcharge : a.charge with
  | none =>
    simp only [hcharge, pure_eq_ok, true_and] at h
    rw [← h]
    exact hfits
  | some charge =>
    simp only [hcharge] at h
    exact (AccountOp.perform_fitsIn (.debit _) hsizes hkeyed' h).2.trans hfits

/-! ## The recording host -/

/-- The entries at the restored indexes. -/
def LedgerFootprint.restored (footprint : LedgerFootprint) (indices : List Nat) : List LedgerKey :=
  indices.filterMap fun i => footprint.readWrite[i]?

/-- The total size of the classic entries of a footprint and of its restored
entries, as a snapshot source returns them. -/
def diskReadsThrough (entrySize : LedgerEntry → Nat)
    (snapshot : LedgerKey → Option EntryWithLiveUntil) (footprint : LedgerFootprint)
    (indices : List Nat) : Nat :=
  let size := fun key => ((snapshot key).map fun e => entrySize e.entry).getD 0
  ((footprint.keys.filter fun key => !needsTtl key).map size).sum +
    ((footprint.restored indices).map size).sum

/-- The disk reads a recording reports: the sizes of what it has read, while
they fit a word.  A footprint lists each key once. -/
structure Deps.RecordsDiskReads (d : Deps) : Prop where
  footprint : ∀ input res, (d.recordHostFunction input).result = .ok res →
    res.resources.footprint.keys.Nodup
  reported : ∀ input res, (d.recordHostFunction input).result = .ok res →
    diskReadsThrough d.entrySize input.snapshot res.resources.footprint
      res.restoredRwEntryIndices < 2 ^ 32 →
    res.resources.diskReadBytes = diskReadsThrough d.entrySize input.snapshot
      res.resources.footprint res.restoredRwEntryIndices

/-- The resources of a simulation are the host's, but for the instructions. -/
theorem simulate_resources {d : Deps} {env env' : SorobanEnv} {args : SimulateArgs}
    {result : SimulateResult} {resources : SorobanResources}
    (h : env.simulate d args = .ok result env') (hresources : result.resources = some resources) :
    ∃ budget res, (d.recordHostFunction (recordingInput env args budget)).result = .ok res ∧
      resources = submittedResources d args res ∧
      result.restoredRwEntryIndices = res.restoredRwEntryIndices := by
  obtain ⟨budget, out, rfl, ⟨e, -, rfl⟩ | ⟨res, fee, hout, -, rfl⟩⟩ := simulate_ok_cases h
  · cases hresources
  · cases hresources
    exact ⟨budget, res, hout, rfl, rfl⟩

/-- What a call meters is what a simulation of the store has sized, where the
store has not grown since. -/
theorem sum_diskRead_le {d : Deps} (hsizes : d.SizesAccounts) {env env' : SorobanEnv}
    (hfits : env'.store.FitsIn d env.store) {args : SendArgs} {indices : List Nat}
    (hrestored : args.restored ⊆ args.resources.footprint.restored indices)
    (hnodup : args.resources.footprint.keys.Nodup) :
    (args.resources.footprint.keys.map (env'.diskRead d args)).sum ≤
      diskReadsThrough d.entrySize env.simulationSnapshot args.resources.footprint indices := by
  apply Xdr.sum_le_of_kind_or_listed _ _ hnodup
  intro key
  unfold SorobanEnv.diskRead
  cases hfound : env'.found key with
  | none => exact Nat.zero_le _
  | some e =>
    obtain ⟨e', hlookup, hle⟩ := hfits key e (found_eq_some hfound).1
    dsimp only
    rw [simulationSnapshot_eq, hlookup]
    by_cases hmetered : (!needsTtl key || decide (key ∈ args.restored)) = true
    · have hlisted : (!needsTtl key) = true ∨
          key ∈ args.resources.footprint.restored indices := by
        simp only [Bool.or_eq_true, decide_eq_true_eq] at hmetered
        exact hmetered.imp_right fun hmem => hrestored hmem
      rw [if_pos hmetered, if_pos hlisted]
      exact (hsizes.le_promoted e.entry).trans hle
    · rw [if_neg hmetered]
      exact Nat.zero_le _

/-! ## Calls refused for their reads -/

/-- The text of the refusal. -/
def diskReadRefusal (read declared : Nat) : String :=
  s!"operation byte-read resources exceeds amount specified: {read} > {declared}"

/-- The call is refused before the host for exceeding its declared disk
reads. -/
def RefusedForDiskReads (d : Deps) (env : SorobanEnv) (args : SendArgs) : Prop :=
  ∃ read declared, prepareSend d env args = .error (.failed (diskReadRefusal read declared))

theorem head?_toList_append {opening : String} {c : Char} (h : opening.toList.head? = some c)
    (rest : String) : (opening ++ rest).toList.head? = some c := by
  rw [String.toList_append, List.head?_append, h]
  rfl

/-- The size limits are refused in other words. -/
theorem validateContractLedgerEntry_ne {settings : Fees.NetworkFeeSettings} {key : LedgerKey}
    {size : Nat} {message : String}
    (h : settings.validateContractLedgerEntry key size = some message) (read declared : Nat) :
    message ≠ diskReadRefusal read declared := by
  have hrefusal : (diskReadRefusal read declared).toList.head? = some 'o' :=
    head?_toList_append (head?_toList_append (head?_toList_append rfl _) _) _
  have hother : ∃ c, c ≠ 'o' ∧ message.toList.head? = some c := by
    unfold Fees.NetworkFeeSettings.validateContractLedgerEntry at h
    cases key with
    | contractCode hash =>
      by_cases hlarge : settings.maxContractSizeBytes < size
      · simp only [if_pos hlarge, Option.some.injEq] at h
        rw [← h]
        exact ⟨'W', by decide,
          head?_toList_append (head?_toList_append (head?_toList_append rfl _) _) _⟩
      · simp [hlarge] at h
    | contractData contract data durability =>
      by_cases hlarge : settings.maxContractDataEntrySizeBytes < size
      · simp only [if_pos hlarge, Option.some.injEq] at h
        rw [← h]
        exact ⟨'C', by decide,
          head?_toList_append (head?_toList_append (head?_toList_append rfl _) _) _⟩
      · simp [hlarge] at h
    | account id => cases h
    | trustline holder asset => cases h
    | unsupported type xdr => cases h
  rintro rfl
  obtain ⟨c, hc, hhead⟩ := hother
  exact hc (Option.some.inj (hhead.symm.trans hrefusal))

theorem checkLoadedSize_failed {env : SorobanEnv} {args : SendArgs} {key : LedgerKey}
    {e : EntryWithLiveUntil} {size : Nat} {stop : SendStop}
    (h : checkLoadedSize env args key e size = .error stop) :
    ∃ settings message, Fees.NetworkFeeSettings.validateContractLedgerEntry settings key size =
      some message ∧ stop = .failed message := by
  unfold checkLoadedSize at h
  cases hfees : env.feeSettings with
  | none => simp [hfees] at h
  | some settings =>
    simp only [hfees] at h
    split at h
    · cases h
    · cases hvalid : settings.validateContractLedgerEntry key size with
      | none => simp [hvalid] at h
      | some message =>
        simp only [hvalid, Except.error.injEq] at h
        exact ⟨settings, message, hvalid, h.symm⟩

/-- A key that fails the call does so for its size or for the total. -/
theorem loadKey_failed {d : Deps} {env : SorobanEnv} {args : SendArgs} {budget : Budget}
    {acc : Loaded} {read : Nat} (hacc : acc.Metered env args read) {key : LedgerKey}
    {message : String} (h : loadKey d env args budget acc key = .error (.failed message)) :
    (∃ settings size, Fees.NetworkFeeSettings.validateContractLedgerEntry settings key size =
        some message) ∨
      env.checksDeclaredBytes = true ∧
        args.resources.diskReadBytes < clamp32 (read + env.diskRead d args key) := by
  cases hfound : env.found key with
  | none =>
    rw [loadKey_not_found hfound] at h
    cases h
  | some e =>
    have hnoted := hacc.noteCode key e
    rw [loadKey_found budget acc hfound] at h
    cases hsize : checkLoadedSize env args key e (d.entrySize e.entry) with
    | error stop =>
      obtain ⟨settings, text, hvalid, rfl⟩ := checkLoadedSize_failed hsize
      rw [hsize] at h
      cases h
      exact .inl ⟨settings, _, hvalid⟩
    | ok u =>
      rw [hsize] at h
      rcases meterDiskRead_cases (d := d) hnoted hfound with
        ⟨_, _, hchecks, hlow⟩ | ⟨total, hread, _⟩
      · exact .inr ⟨hchecks, hlow⟩
      · cases httl : ttlMeta d env args budget key e (d.entrySize e.entry) with
        | error stop =>
          obtain ⟨err, rfl⟩ := ttlMeta_error httl
          rw [hread, httl] at h
          cases h
        | ok ttl =>
          rw [hread, httl] at h
          cases h

/-- While the total fits, only a size limit refuses a call. -/
theorem loadKeys_failed {d : Deps} {env : SorobanEnv} {args : SendArgs} {budget : Budget}
    (keys : List LedgerKey) {acc : Loaded} {read : Nat} (hacc : acc.Metered env args read)
    (hfits : clamp32 (read + (keys.map (env.diskRead d args)).sum) ≤ args.resources.diskReadBytes)
    {message : String}
    (h : keys.foldlM (loadKey d env args budget) acc = .error (.failed message)) :
    ∃ settings key size, Fees.NetworkFeeSettings.validateContractLedgerEntry settings key size =
      some message := by
  induction keys generalizing acc read with
  | nil => cases h
  | cons key keys ih =>
    rw [List.map_cons, List.sum_cons, ← Nat.add_assoc] at hfits
    rw [List.foldlM_cons] at h
    cases hkey : loadKey d env args budget acc key with
    | error stop =>
      rw [hkey] at h
      cases h
      rcases loadKey_failed hacc hkey with ⟨settings, size, hvalid⟩ | ⟨-, hlow⟩
      · exact ⟨settings, key, size, hvalid⟩
      · have hprefix := clamp32_mono (Nat.le_add_right (read + env.diskRead d args key)
          (keys.map (env.diskRead d args)).sum)
        omega
    | ok acc' =>
      rw [hkey] at h
      rcases loadKey_cases budget hacc key with ⟨e, hthrown⟩ | ⟨text, hfailed, -⟩ |
        ⟨acc'', hok, -, hacc''⟩
      · cases hkey.symm.trans hthrown
      · cases hkey.symm.trans hfailed
      · cases hkey.symm.trans hok
        exact ih hacc'' hfits h

theorem not_refusedForDiskReads {d : Deps} {env : SorobanEnv} {args : SendArgs}
    (hfits : (args.resources.footprint.keys.map (env.diskRead d args)).sum ≤
      args.resources.diskReadBytes) : ¬ RefusedForDiskReads d env args := by
  rintro ⟨read, declared, h⟩
  have hempty : Loaded.empty.Metered env args 0 := fun _ => ⟨rfl, Nat.zero_le _⟩
  unfold prepareSend at h
  cases hbudget : env.enforcingBudget d args.resources.instructions with
  | error e => simp [hbudget] at h
  | ok budget =>
    simp only [hbudget] at h
    cases hload : loadFootprint d env args budget with
    | ok loaded => simp [hload] at h
    | error stop =>
      simp only [hload, Except.error.injEq] at h
      subst h
      have hclamp : clamp32 (0 + (args.resources.footprint.keys.map (env.diskRead d args)).sum) ≤
          args.resources.diskReadBytes := by
        unfold clamp32
        omega
      obtain ⟨settings, key, size, hvalid⟩ := loadKeys_failed _ hempty hclamp hload
      exact validateContractLedgerEntry_ne hvalid read declared rfl

/-! ## What was simulated is enough -/

/-- **Simulated disk reads suffice.**  Sent with the resources of a simulation,
in a store that holds what was simulated, a call is not refused for reading
more than it declares: neither directly, with the restored indexes of the
simulation, nor in an envelope, after its bump and its debit. -/
theorem simulated_diskReads_suffice {d : Deps} (hsizes : d.SizesAccounts)
    (hrecords : d.RecordsDiskReads) {env env' : SorobanEnv} (hkeyed : env.store.Keyed)
    {sim : SimulateArgs} {result : SimulateResult} {resources : SorobanResources}
    (hsim : env.simulate d sim = .ok result env') (hresources : result.resources = some resources)
    (hword : diskReadsThrough d.entrySize env.simulationSnapshot resources.footprint
      result.restoredRwEntryIndices < 2 ^ 32) :
    (∀ sendEnv args, sendEnv.store = env.store → args.hostFunction = sim.hostFunction →
      args.resources = resources →
      args.restoredRwEntryIndices = result.restoredRwEntryIndices →
      ¬ RefusedForDiskReads d sendEnv args) ∧
    ∀ ledger envelope passphrase validation outcome ledger' a v debitedLedger operatedLedger op
        auth cap, ledger.store = env.store →
      Accepted d ledger envelope passphrase validation outcome ledger' a v debitedLedger
        operatedLedger op →
      v.op.body = .invokeHostFunction sim.hostFunction auth →
      v.sorobanData.resources = resources →
      ¬ RefusedForDiskReads d debitedLedger.env (invokeArgs v sim.hostFunction auth cap) := by
  obtain ⟨budget, res, hrecorded, rfl, hindices⟩ := simulate_resources hsim hresources
  have hnodup := hrecords.footprint _ _ hrecorded
  have hreported := hrecords.reported _ _ hrecorded (by rw [← hindices]; exact hword)
  rw [← hindices] at hreported
  have hmetered : ∀ (sendEnv : SorobanEnv) (args : SendArgs),
      sendEnv.store.FitsIn d env.store → args.resources = submittedResources d sim res →
      args.restored ⊆ args.resources.footprint.restored result.restoredRwEntryIndices →
      ¬ RefusedForDiskReads d sendEnv args := by
    intro sendEnv args hfits hargs hrestored
    apply not_refusedForDiskReads
    have hle := sum_diskRead_le hsizes hfits hrestored (by rw [hargs]; exact hnodup)
    rw [hargs] at hle ⊢
    exact hle.trans_eq hreported.symm
  refine ⟨fun sendEnv args hstore _ hargs hrestored => ?_, ?_⟩
  · apply hmetered sendEnv args (hstore ▸ Store.FitsIn.refl d sendEnv.store) hargs
    rw [← hrestored]
    exact fun key hkey => hkey
  · intro ledger envelope passphrase validation outcome ledger' a v debitedLedger operatedLedger
      op auth cap hstore haccepted hbody hdata
    apply hmetered
    · have hfits := commitClassic_fitsIn hsizes (hstore ▸ hkeyed) haccepted.classic
      rw [hstore] at hfits
      exact hfits
    · exact hdata
    -- the envelope restores nothing, whatever it declares
    · exact fun key hkey => absurd hkey (List.not_mem_nil)

/-- A host whose recordings read one account, and report its size. -/
def accountReader (id : AccountId) : Deps :=
  let entrySize := fun e : LedgerEntry =>
    match e.data with
    | .account account => accountEntrySize account e.ext
    | _ => 0
  { Deps.idle with
    entrySize := entrySize
    recordHostFunction := fun input =>
      { result := .ok
          { invokeResult := .ok ⟨[]⟩
            resources :=
              { footprint := ⟨[.account id], []⟩
                instructions := 0
                diskReadBytes := diskReadsThrough entrySize input.snapshot ⟨[.account id], []⟩ []
                writeBytes := 0 }
            auth := []
            restoredRwEntryIndices := []
            ledgerChanges := []
            contractEvents := []
            contractEventsAndReturnValueSize := 0 }
        cpuInsnsConsumed := 0
        memBytesConsumed := 0
        diagnostics := [] } }

theorem accountReader_sizesAccounts (id : AccountId) : (accountReader id).SizesAccounts :=
  ⟨fun _ _ _ => rfl⟩

theorem accountReader_recordsDiskReads (id : AccountId) : (accountReader id).RecordsDiskReads where
  footprint := by
    rintro _ _ ⟨⟩
    exact List.nodup_singleton _
  reported := by
    rintro _ _ ⟨⟩ -
    rfl

/-- The simulation and the call of the sample run. -/
def accountSimulation : SimulateArgs where
  hostFunction := ⟨[]⟩
  source := (sampleAccount 7).accountId
  auth := none
  instructionLeeway := 0
  ledgerSeq := none
  useAddressV2 := false

/-- An account that was never bumped: 144 bytes to the simulation, and 92 when
it is read. -/
theorem simulated_diskReads_account :
    ¬ RefusedForDiskReads (accountReader (sampleAccount 7).accountId) (sampleLedger 7).env
      { hostFunction := ⟨[]⟩
        source := (sampleAccount 7).accountId
        resources := ⟨⟨[.account (sampleAccount 7).accountId], []⟩, 0, 144, 0⟩
        auth := []
        restoredRwEntryIndices := []
        maxRefundableFee := none } := by
  obtain ⟨result, env', hsim, hresources, hindices⟩ : ∃ result env',
      (sampleLedger 7).env.simulate (accountReader (sampleAccount 7).accountId)
        accountSimulation = .ok result env' ∧
      result.resources = some ⟨⟨[.account (sampleAccount 7).accountId], []⟩, 0, 144, 0⟩ ∧
      result.restoredRwEntryIndices = [] := ⟨_, _, rfl, rfl, rfl⟩
  have hword : diskReadsThrough (accountReader (sampleAccount 7).accountId).entrySize
      (sampleLedger 7).env.simulationSnapshot ⟨[.account (sampleAccount 7).accountId], []⟩
      result.restoredRwEntryIndices < 2 ^ 32 := by
    rw [hindices]
    decide
  exact (simulated_diskReads_suffice (accountReader_sizesAccounts _)
    (accountReader_recordsDiskReads _) (sampleLedger_keyed 7) hsim hresources hword).1
    _ _ rfl rfl rfl hindices.symm

end LiteSoroban

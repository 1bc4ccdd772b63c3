import Mathlib.Algebra.GroupWithZero.Nat
import LiteSoroban.Env.SendTtl
import LiteSoroban.Env.Simulate

/-!
# What a call hands the host

The host zips the entries it is handed with the keys of the footprint, and
nothing but their order says which is which.  `HandedAt` is what the item at
one position has to be.

The second half is about calls that end before the host runs.  `Refused` says
when: an entry is too large, or the disk reads come to more than is declared.
`loadKey_cases` is one turn of the loop against it, and the loop's own lemmas
carry the running total.
-/

namespace LiteSoroban

/-! ## What the host is handed -/

/-- What the host is handed at the position of a key. -/
structure HandedAt (d : Deps) (env : SorobanEnv) (args : SendArgs) (key : LedgerKey)
    (item : Option (Encoded LedgerEntry) × Option TtlLedgerEntryMeta) : Prop where
  /-- Nothing, exactly for a key without an entry or with one that was
  temporary and has expired. -/
  absent : item = (none, none) ↔ env.store.lookup key = none ∨
    ∃ e, env.store.lookup key = some e ∧ isTemporary key = true ∧ env.expired e.liveUntil = true
  /-- And otherwise the key's own entry. -/
  entry : item ≠ (none, none) → ∃ e, env.store.lookup key = some e ∧
    item.1 = some ⟨d.entrySize e.entry, some e.entry⟩
  /-- Beside it a TTL, exactly for contract data and code. -/
  ttl : item ≠ (none, none) → (item.2.isSome = true ↔ needsTtl key = true)
  /-- The TTL is past only for an archived entry the call does not restore. -/
  past : ∀ m, item.2 = some m → m.liveUntilLedger < env.ledgerSeq →
    isPersistent key = true ∧ key ∉ args.restored ∧
      ∃ e, env.store.lookup key = some e ∧ env.expired e.liveUntil = true

theorem isPersistent_of_needsTtl {key : LedgerKey} (httl : needsTtl key = true)
    (htemporary : isTemporary key = false) : isPersistent key = true := by
  cases key with
  | contractData contract data durability =>
    cases durability with
    | temporary => cases htemporary
    | persistent => rfl
  | contractCode hash => rfl
  | account id => cases httl
  | trustline holder asset => cases httl
  | unsupported type xdr => cases httl

/-- A restored entry is handed over live. -/
theorem restoredLiveUntil_ge {env : SorobanEnv}
    (hrestore : env.ledgerSeq + env.minPersistentEntryTtl ≤ u32Max)
    (harchival : 1 ≤ env.minPersistentEntryTtl) : env.ledgerSeq ≤ env.restoredLiveUntil := by
  unfold SorobanEnv.restoredLiveUntil saturatingAdd32
  omega

theorem ttlMeta_ok {d : Deps} {env : SorobanEnv} {args : SendArgs} {budget : Budget}
    {key : LedgerKey} {e : EntryWithLiveUntil} {size : Nat} {ttl : Option TtlLedgerEntryMeta}
    (h : ttlMeta d env args budget key e size = .ok ttl) :
    (needsTtl key = false ∧ ttl = none) ∨ (needsTtl key = true ∧
      ∃ rentSize, ttl = some ⟨env.handedLiveUntil args key e.liveUntil, rentSize⟩) := by
  unfold ttlMeta at h
  split at h
  · next hneeds =>
    split at h
    · next rentSize _ =>
      cases h
      exact .inr ⟨hneeds, rentSize, rfl⟩
    · cases h
  · next hneeds =>
    cases h
    exact .inl ⟨Bool.eq_false_iff.mpr hneeds, rfl⟩

/-- An entry that cannot be sized for rent throws. -/
theorem ttlMeta_error {d : Deps} {env : SorobanEnv} {args : SendArgs} {budget : Budget}
    {key : LedgerKey} {e : EntryWithLiveUntil} {size : Nat} {stop : SendStop}
    (h : ttlMeta d env args budget key e size = .error stop) : ∃ err, stop = .thrown err := by
  unfold ttlMeta at h
  split at h
  · split at h
    · cases h
    · cases h
      exact ⟨_, rfl⟩
  · cases h

/-- Only an entry that has expired and is not restored is handed over with a
TTL that is past. -/
theorem handedLiveUntil_past {env : SorobanEnv} {args : SendArgs} {key : LedgerKey}
    {liveUntil : Option Nat} (hrestore : env.ledgerSeq + env.minPersistentEntryTtl ≤ u32Max)
    (harchival : 1 ≤ env.minPersistentEntryTtl)
    (h : env.handedLiveUntil args key liveUntil < env.ledgerSeq) :
    key ∉ args.restored ∧ env.expired liveUntil = true := by
  unfold SorobanEnv.handedLiveUntil at h
  split at h
  · exact absurd (restoredLiveUntil_ge hrestore harchival) (not_le.mpr h)
  · next hrestored =>
    cases liveUntil with
    | none => exact absurd h (lt_irrefl _)
    | some t => exact ⟨hrestored, decide_eq_true h⟩

theorem SorobanEnv.Handed.handedAt {d : Deps} {env : SorobanEnv} {args : SendArgs}
    {budget : Budget} {key : LedgerKey}
    {item : Option (Encoded LedgerEntry) × Option TtlLedgerEntryMeta}
    (h : env.Handed d args budget key item)
    (hrestore : env.ledgerSeq + env.minPersistentEntryTtl ≤ u32Max)
    (harchival : 1 ≤ env.minPersistentEntryTtl) : HandedAt d env args key item := by
  unfold SorobanEnv.Handed at h
  cases hlookup : env.store.lookup key with
  | none =>
    simp only [hlookup] at h
    subst h
    exact ⟨by simp [hlookup], by simp, by simp, by simp⟩
  | some e =>
    simp only [hlookup] at h
    split at h
    · next hexpired =>
      subst h
      rw [Bool.and_eq_true] at hexpired
      exact ⟨by simp [hlookup, hexpired], by simp, by simp, by simp⟩
    · next hlive =>
      obtain ⟨hitem, httl⟩ := h
      have hstored : item ≠ (none, none) := by
        rintro rfl
        cases hitem
      refine ⟨?_, fun _ => ⟨e, hlookup, hitem⟩, fun _ => ?_, fun m hm hpast => ?_⟩
      · refine ⟨fun h => absurd h hstored, ?_⟩
        rintro (hnone | ⟨e', he', htemporary, hexpired⟩)
        · cases hlookup.symm.trans hnone
        · cases hlookup.symm.trans he'
          exact absurd (by rw [htemporary, hexpired]; rfl) hlive
      · rcases ttlMeta_ok httl with ⟨hneeds, hmeta⟩ | ⟨hneeds, rentSize, hmeta⟩
        · simp [hmeta, hneeds]
        · simp [hmeta, hneeds]
      · rcases ttlMeta_ok httl with ⟨hneeds, hmeta⟩ | ⟨hneeds, rentSize, hmeta⟩
        · cases hm.symm.trans hmeta
        · cases hm.symm.trans hmeta
          obtain ⟨hrestored, hexpired⟩ := handedLiveUntil_past hrestore harchival hpast
          rw [hexpired, Bool.and_true] at hlive
          exact ⟨isPersistent_of_needsTtl hneeds (Bool.eq_false_iff.mpr hlive), hrestored, e,
            hlookup, hexpired⟩

/-! ## Calls that are refused -/

/-- The entry a call finds under a key: none if the store has none, or it is
temporary and has expired. -/
def SorobanEnv.found (env : SorobanEnv) (key : LedgerKey) : Option EntryWithLiveUntil :=
  (env.store.lookup key).filter fun e => !(isTemporary key && env.expired e.liveUntil)

/-- An archived entry the call does not restore. -/
def SorobanEnv.archived (env : SorobanEnv) (args : SendArgs) (key : LedgerKey)
    (e : EntryWithLiveUntil) : Bool :=
  needsTtl key && !(key ∈ args.restored) && env.expired e.liveUntil

/-- An entry the call finds, and that exceeds its size limit.  Archived entries
are not sized. -/
def SorobanEnv.TooLarge (d : Deps) (env : SorobanEnv) (args : SendArgs) (key : LedgerKey) : Prop :=
  ∃ e fees message, env.found key = some e ∧ env.archived args key e = false ∧
    env.feeSettings = some fees ∧
    fees.validateContractLedgerEntry key (d.entrySize e.entry) = some message

/-- The bytes a key costs against the declared disk reads: the size of a
classic entry or of one the call restores. -/
def SorobanEnv.diskRead (d : Deps) (env : SorobanEnv) (args : SendArgs) (key : LedgerKey) : Nat :=
  match env.found key with
  | some e => if !needsTtl key || key ∈ args.restored then d.entrySize e.entry else 0
  | none => 0

/-- The call reads more bytes from disk than it declares, while that is
checked.  The total is a `u32`. -/
def SorobanEnv.ReadsTooMuch (d : Deps) (env : SorobanEnv) (args : SendArgs)
    (keys : List LedgerKey) : Prop :=
  env.checksDeclaredBytes = true ∧
    args.resources.diskReadBytes < clamp32 ((keys.map (env.diskRead d args)).sum)

/-- The call is refused before the host runs. -/
def SorobanEnv.Refused (d : Deps) (env : SorobanEnv) (args : SendArgs) : Prop :=
  (∃ key ∈ args.resources.footprint.keys, env.TooLarge d args key) ∨
    env.ReadsTooMuch d args args.resources.footprint.keys

/-- The total the loop keeps, after disk reads of that many bytes. -/
def Loaded.Metered (env : SorobanEnv) (args : SendArgs) (read : Nat) (acc : Loaded) : Prop :=
  env.checksDeclaredBytes = true →
    acc.diskReadBytes = clamp32 read ∧ clamp32 read ≤ args.resources.diskReadBytes

theorem checkLoadedSize_cases {d : Deps} {env : SorobanEnv} {args : SendArgs} {key : LedgerKey}
    {e : EntryWithLiveUntil} (hfound : env.found key = some e) :
    (∃ message, checkLoadedSize env args key e (d.entrySize e.entry) = .error (.failed message) ∧
      env.TooLarge d args key) ∨
    checkLoadedSize env args key e (d.entrySize e.entry) = .ok () ∧
      ¬ env.TooLarge d args key := by
  unfold checkLoadedSize
  cases hfees : env.feeSettings with
  | none =>
    refine .inr ⟨rfl, ?_⟩
    rintro ⟨_, fees, _, -, -, hsome, -⟩
    cases hfees.symm.trans hsome
  | some fees =>
    by_cases harchived : env.archived args key e = true
    · refine .inr ⟨if_pos harchived, ?_⟩
      rintro ⟨_, _, _, hfound', hnot, -, -⟩
      cases hfound.symm.trans hfound'
      cases harchived.symm.trans hnot
    · have hnot : env.archived args key e = false := Bool.eq_false_iff.mpr harchived
      cases hsize : fees.validateContractLedgerEntry key (d.entrySize e.entry) with
      | some message =>
        refine .inl ⟨message, ?_, e, fees, message, hfound, hnot, hfees, hsize⟩
        exact (if_neg harchived).trans (by rw [hsize])
      | none =>
        refine .inr ⟨(if_neg harchived).trans (by rw [hsize]), ?_⟩
        rintro ⟨_, fees', message, hfound', -, hsome, hlarge⟩
        cases hfound.symm.trans hfound'
        cases hfees.symm.trans hsome
        cases hsize.symm.trans hlarge

theorem meterDiskRead_cases {d : Deps} {env : SorobanEnv} {args : SendArgs} {acc : Loaded}
    {read : Nat} (hacc : acc.Metered env args read) {key : LedgerKey} {e : EntryWithLiveUntil}
    (hfound : env.found key = some e) :
    (∃ message, meterDiskRead env args key (d.entrySize e.entry) acc.diskReadBytes =
        .error (.failed message) ∧ env.checksDeclaredBytes = true ∧
        args.resources.diskReadBytes < clamp32 (read + env.diskRead d args key)) ∨
    ∃ total, meterDiskRead env args key (d.entrySize e.entry) acc.diskReadBytes = .ok total ∧
      (env.checksDeclaredBytes = true → total = clamp32 (read + env.diskRead d args key) ∧
        clamp32 (read + env.diskRead d args key) ≤ args.resources.diskReadBytes) := by
  unfold meterDiskRead SorobanEnv.diskRead
  rw [hfound]
  dsimp only
  by_cases hchecks : env.checksDeclaredBytes = true
  · obtain ⟨htotal, hle⟩ := hacc hchecks
    by_cases hmetered : (!needsTtl key || decide (key ∈ args.restored)) = true
    · rw [if_pos (by rw [hchecks, hmetered]; rfl), if_pos hmetered, htotal,
        saturatingAdd32_clamp32]
      by_cases hlow : args.resources.diskReadBytes < clamp32 (read + d.entrySize e.entry)
      · rw [if_pos hlow]
        exact .inl ⟨_, rfl, hchecks, hlow⟩
      · rw [if_neg hlow]
        exact .inr ⟨_, rfl, fun _ => ⟨rfl, not_lt.mp hlow⟩⟩
    · rw [if_neg (by simp [hmetered]), if_neg hmetered, htotal, Nat.add_zero]
      exact .inr ⟨_, rfl, fun _ => ⟨rfl, hle⟩⟩
  · rw [if_neg (by simp [hchecks])]
    exact .inr ⟨_, rfl, fun h => absurd h hchecks⟩

/-- A key under which the call finds nothing is handed over as nothing. -/
theorem loadKey_not_found {d : Deps} {env : SorobanEnv} {args : SendArgs} {budget : Budget}
    {acc : Loaded} {key : LedgerKey} (h : env.found key = none) :
    loadKey d env args budget acc key = .ok (acc.push (none, none)) := by
  unfold loadKey
  cases hlookup : env.store.lookup key with
  | none => rfl
  | some e =>
    have hexpired : (isTemporary key && env.expired e.liveUntil) = true := by
      simpa [SorobanEnv.found, hlookup, Option.filter] using h
    exact if_pos hexpired

theorem found_eq_some {env : SorobanEnv} {key : LedgerKey} {e : EntryWithLiveUntil}
    (h : env.found key = some e) : env.store.lookup key = some e ∧
      ¬ (isTemporary key && env.expired e.liveUntil) = true := by
  obtain ⟨hlookup, hlive⟩ := Option.filter_eq_some_iff.mp h
  exact ⟨hlookup, by simpa only [Bool.not_eq_true', Bool.not_eq_true] using hlive⟩

theorem Loaded.Metered.noteCode {env : SorobanEnv} {args : SendArgs} {read : Nat} {acc : Loaded}
    (h : acc.Metered env args read) (key : LedgerKey) (e : EntryWithLiveUntil) :
    (acc.noteCode env args key e).Metered env args read := by
  unfold Loaded.Metered
  rw [acc.noteCode_diskReadBytes]
  exact h

/-- The stages of a turn that finds an entry. -/
theorem loadKey_found {d : Deps} {env : SorobanEnv} {args : SendArgs} (budget : Budget)
    (acc : Loaded) {key : LedgerKey} {e : EntryWithLiveUntil} (hfound : env.found key = some e) :
    loadKey d env args budget acc key = (do
      checkLoadedSize env args key e (d.entrySize e.entry)
      let total ← meterDiskRead env args key (d.entrySize e.entry)
        (acc.noteCode env args key e).diskReadBytes
      let ttl ← ttlMeta d env args budget key e (d.entrySize e.entry)
      return { acc.noteCode env args key e with diskReadBytes := total }.push
        (some ⟨d.entrySize e.entry, some e.entry⟩, ttl)) := by
  obtain ⟨hlookup, hlive⟩ := found_eq_some hfound
  unfold loadKey
  rw [hlookup]
  exact if_neg hlive

/-- One turn of the loop: it throws, it fails for the key's size or for the
total, or it goes on. -/
theorem loadKey_cases {d : Deps} {env : SorobanEnv} {args : SendArgs} (budget : Budget)
    {acc : Loaded} {read : Nat} (hacc : acc.Metered env args read) (key : LedgerKey) :
    (∃ e, loadKey d env args budget acc key = .error (.thrown e)) ∨
    (∃ message, loadKey d env args budget acc key = .error (.failed message) ∧
      (env.TooLarge d args key ∨ env.checksDeclaredBytes = true ∧
        args.resources.diskReadBytes < clamp32 (read + env.diskRead d args key))) ∨
    ∃ acc', loadKey d env args budget acc key = .ok acc' ∧ ¬ env.TooLarge d args key ∧
      acc'.Metered env args (read + env.diskRead d args key) := by
  cases hfound : env.found key with
  | none =>
    refine .inr (.inr ⟨_, loadKey_not_found hfound, ?_, ?_⟩)
    · rintro ⟨_, _, _, hsome, -⟩
      cases hfound.symm.trans hsome
    · unfold SorobanEnv.diskRead
      rw [hfound]
      exact hacc
  | some e =>
    obtain ⟨hlookup, hlive⟩ := found_eq_some hfound
    have hnoted := hacc.noteCode key e
    rw [loadKey_found budget acc hfound]
    rcases checkLoadedSize_cases (d := d) hfound with ⟨message, hsize, hlarge⟩ | ⟨hsize, hfits⟩
    · rw [hsize]
      exact .inr (.inl ⟨message, rfl, .inl hlarge⟩)
    rw [hsize]
    rcases meterDiskRead_cases (d := d) hnoted hfound with
      ⟨message, hread, hlow⟩ | ⟨total, hread, htotal⟩
    · exact .inr (.inl ⟨message, by rw [hread]; rfl, .inr hlow⟩)
    cases httl : ttlMeta d env args budget key e (d.entrySize e.entry) with
    | error stop =>
      obtain ⟨err, rfl⟩ := ttlMeta_error httl
      exact .inl ⟨err, by rw [hread]; rfl⟩
    | ok ttl =>
      refine .inr (.inr ⟨_, by rw [hread]; rfl, hfits, ?_⟩)
      exact htotal

/-- The loop: it throws, it fails for some key's size or for the total, or it
goes through every key. -/
theorem loadKeys_cases {d : Deps} {env : SorobanEnv} {args : SendArgs} (budget : Budget)
    (keys : List LedgerKey) {acc : Loaded} {read : Nat} (hacc : acc.Metered env args read) :
    (∃ e, keys.foldlM (loadKey d env args budget) acc = .error (.thrown e)) ∨
    (∃ message, keys.foldlM (loadKey d env args budget) acc = .error (.failed message) ∧
      ((∃ key ∈ keys, env.TooLarge d args key) ∨ env.checksDeclaredBytes = true ∧
        args.resources.diskReadBytes < clamp32 (read + (keys.map (env.diskRead d args)).sum))) ∨
    ∃ acc', keys.foldlM (loadKey d env args budget) acc = .ok acc' ∧
      (∀ key ∈ keys, ¬ env.TooLarge d args key) ∧
      acc'.Metered env args (read + (keys.map (env.diskRead d args)).sum) := by
  induction keys generalizing acc read with
  | nil => exact .inr (.inr ⟨acc, rfl, by simp, by simpa using hacc⟩)
  | cons key keys ih =>
    rw [List.foldlM_cons, List.map_cons, List.sum_cons, ← Nat.add_assoc]
    rcases loadKey_cases budget hacc key with ⟨e, hkey⟩ | ⟨message, hkey, hwhy⟩ |
      ⟨acc', hkey, hfits, hacc'⟩
    · rw [hkey]
      exact .inl ⟨e, rfl⟩
    · rw [hkey]
      refine .inr (.inl ⟨message, rfl, hwhy.imp ?_ ?_⟩)
      · exact fun hlarge => ⟨key, List.mem_cons_self, hlarge⟩
      · exact fun h => ⟨h.1, lt_of_lt_of_le h.2 (clamp32_mono (Nat.le_add_right _ _))⟩
    · rw [hkey]
      rcases ih hacc' with ⟨e, hrest⟩ | ⟨message, hrest, hwhy⟩ | ⟨acc'', hrest, hall, hacc''⟩
      · exact .inl ⟨e, hrest⟩
      · refine .inr (.inl ⟨message, hrest, hwhy.imp_left ?_⟩)
        rintro ⟨key', hkey', hlarge⟩
        exact ⟨key', List.mem_cons_of_mem key hkey', hlarge⟩
      · refine .inr (.inr ⟨acc'', hrest, ?_, hacc''⟩)
        exact List.forall_mem_cons.mpr ⟨hfits, hall⟩

/-- A call is refused before the host runs exactly where `Refused` says so,
unless it throws. -/
theorem prepareSend_failed_iff (d : Deps) (env : SorobanEnv) (args : SendArgs) :
    (∃ message, prepareSend d env args = .error (.failed message)) ↔
      env.Refused d args ∧ ∀ e, prepareSend d env args ≠ .error (.thrown e) := by
  have hempty : Loaded.empty.Metered env args 0 := fun _ => ⟨rfl, Nat.zero_le _⟩
  unfold prepareSend
  cases hbudget : env.enforcingBudget d args.resources.instructions with
  | error e => simp
  | ok budget =>
    dsimp only
    unfold loadFootprint
    rcases loadKeys_cases (d := d) budget args.resources.footprint.keys hempty with
      ⟨e, hload⟩ | ⟨message, hload, hwhy⟩ | ⟨loaded, hload, hfits, htotal⟩
    · simp [hload]
    · rw [Nat.zero_add] at hwhy
      simp only [hload]
      exact ⟨fun _ => ⟨hwhy, by simp⟩, fun _ => ⟨message, rfl⟩⟩
    · rw [Nat.zero_add] at htotal
      have hnot : ¬ env.Refused d args := by
        rintro (⟨key, hkey, hlarge⟩ | ⟨hchecks, hlow⟩)
        · exact hfits key hkey hlarge
        · exact absurd (htotal hchecks).2 (not_le.mpr hlow)
      simp [hload, hnot]

/-- While restoring does not pass the end of the sequence, the host is handed
one item for each key of the footprint, read-only keys first, and each item is
what its key asks for.  The call is refused before the host exactly for an
entry that is too large or for disk reads beyond those declared, unless it
throws. -/
theorem prepareSend_positional (d : Deps) {env : SorobanEnv} (args : SendArgs)
    (hrestore : env.ledgerSeq + env.minPersistentEntryTtl ≤ u32Max)
    (harchival : 1 ≤ env.minPersistentEntryTtl) :
    (∀ input, prepareSend d env args = .ok input →
      input.entries.length =
        (args.resources.footprint.readOnly ++ args.resources.footprint.readWrite).length ∧
      ∀ (i : Nat) (key : LedgerKey)
          (item : Option (Encoded LedgerEntry) × Option TtlLedgerEntryMeta),
        (args.resources.footprint.readOnly ++ args.resources.footprint.readWrite)[i]? = some key →
        input.entries[i]? = some item → HandedAt d env args key item) ∧
    ((∃ message, prepareSend d env args = .error (.failed message)) ↔
      env.Refused d args ∧ ∀ e, prepareSend d env args ≠ .error (.thrown e)) := by
  refine ⟨fun input hinput => ?_, prepareSend_failed_iff d env args⟩
  obtain ⟨loaded, hprepared⟩ := prepareSend_ok hinput
  have hhanded := hprepared.handed
  rw [hprepared.resources_eq] at hhanded
  refine ⟨hhanded.length_eq.symm, fun i key item hkey hitem => ?_⟩
  obtain ⟨hi, rfl⟩ := List.getElem?_eq_some_iff.mp hkey
  obtain ⟨hi', rfl⟩ := List.getElem?_eq_some_iff.mp hitem
  have hat := (List.forall₂_iff_get.mp hhanded).2 i hi hi'
  exact SorobanEnv.Handed.handedAt hat hrestore harchival

theorem prepareSend_positional_balance :
    (∀ input, prepareSend .idle (balanceEnv .persistent 500)
        (balanceCall ⟨[balanceKey .temporary], [balanceKey .persistent]⟩ [0]) = .ok input →
      input.entries.length = [balanceKey .temporary, balanceKey .persistent].length ∧
      ∀ (i : Nat) (key : LedgerKey)
          (item : Option (Encoded LedgerEntry) × Option TtlLedgerEntryMeta),
        [balanceKey .temporary, balanceKey .persistent][i]? = some key →
        input.entries[i]? = some item →
        HandedAt .idle (balanceEnv .persistent 500)
          (balanceCall ⟨[balanceKey .temporary], [balanceKey .persistent]⟩ [0]) key item) ∧
    ((∃ message, prepareSend .idle (balanceEnv .persistent 500)
        (balanceCall ⟨[balanceKey .temporary], [balanceKey .persistent]⟩ [0]) =
          .error (.failed message)) ↔
      (balanceEnv .persistent 500).Refused .idle
          (balanceCall ⟨[balanceKey .temporary], [balanceKey .persistent]⟩ [0]) ∧
        ∀ e, prepareSend .idle (balanceEnv .persistent 500)
          (balanceCall ⟨[balanceKey .temporary], [balanceKey .persistent]⟩ [0]) ≠
            .error (.thrown e)) :=
  prepareSend_positional .idle
    (balanceCall ⟨[balanceKey .temporary], [balanceKey .persistent]⟩ [0]) (by decide) (by decide)

end LiteSoroban

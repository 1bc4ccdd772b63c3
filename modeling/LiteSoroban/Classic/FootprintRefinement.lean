import Mathlib.Algebra.GroupWithZero.Nat
import LiteSoroban.Classic.FootprintSelection
import LiteSoroban.Env.Simulate

/-!
# The simulation and the operation select the same keys

The crate simulates the two footprint operations, and the TypeScript layer
applies them.  Each has its own loop over the keys, with its own order of
checks.  `OperationBody.moves` is the selection both are meant to make, and
each loop is proved to make it.

* `extendTtlResources_ok` and `restoreResources_ok` for the simulation: the
  footprint is the selected keys, and the rent changes are those of the moves.
* `selectedMoves_select` for the application: the moves are the selection,
  from the simulated footprint or from the keys it was simulated for.

`footprintOp_refines` puts the two together across the sequence bump and the
fee debit, which touch no key with a TTL.
-/

namespace LiteSoroban

open Effect

/-! ## The simulation's selection -/

/-- What a footprint simulation has gathered over a list of keys: the selected
keys and their rent changes, in order, and a count of their bytes. -/
structure Gathered (d : Deps) (ledger : Ledger) (body : OperationBody)
    (grow : Nat → TtlMove → Nat) (asked : List LedgerKey) (acc acc' : Selected) : Prop where
  needsTtl : ∀ key ∈ asked, needsTtl key = true
  keys : acc'.keys = acc.keys ++ (body.moves ledger).selected asked
  priced : ∃ rows, rentChangesOf d ledger ((body.moves ledger).select asked) = .ok rows ∧
    acc'.rentChanges = acc.rentChanges ++ rows.map RentChange.toHost
  bytes : acc'.bytes = ((body.moves ledger).select asked).foldl grow acc.bytes

/-- What one turn of a footprint simulation does: skip the key, or push its
move. -/
def GathersOne (d : Deps) (ledger : Ledger) (body : OperationBody)
    (grow : Nat → TtlMove → Nat) (key : LedgerKey) (acc acc' : Selected) : Prop :=
  needsTtl key = true ∧
    (body.moveOf ledger key = none ∧ acc' = acc ∨
      ∃ m size, body.moveOf ledger key = some m ∧
        ledger.env.entrySizeForRent d key = .ok (some size) ∧
        acc' = acc.push key
          (RentChange.toHost ⟨key, size, m.oldLiveUntil, m.newLiveUntil⟩) (grow acc.bytes m))

/-- A loop whose turns gather one key each gathers them all. -/
theorem gathered_of_foldlM {d : Deps} {ledger : Ledger} {body : OperationBody}
    {grow : Nat → TtlMove → Nat} {step : Selected → LedgerKey → Except String Selected}
    (hstep : ∀ acc key acc', step acc key = .ok acc' → GathersOne d ledger body grow key acc acc')
    {keys : List LedgerKey} {acc acc' : Selected} (h : keys.foldlM step acc = .ok acc') :
    Gathered d ledger body grow keys acc acc' := by
  induction keys generalizing acc with
  | nil =>
    cases h
    refine ⟨by simp, by simp [Selector.selected], ⟨[], rfl, by simp⟩, rfl⟩
  | cons key keys ih =>
    rw [List.foldlM_cons, Except.bind_eq_ok] at h
    obtain ⟨mid, hone, hrest⟩ := h
    obtain ⟨hneeds, hkeys, ⟨rows, hrows, hchanges⟩, hbytes⟩ := ih hrest
    obtain ⟨httl, ⟨hnone, rfl⟩ | ⟨m, size, hsome, hsize, rfl⟩⟩ := hstep acc key mid hone
    · refine ⟨?_, ?_, ⟨rows, ?_, hchanges⟩, ?_⟩
      · exact List.forall_mem_cons.mpr ⟨httl, hneeds⟩
      · rw [hkeys, Selector.selected, Selector.selected,
          Selector.select_cons_of_none (body.moves ledger) hnone]
      · rw [Selector.select_cons_of_none (body.moves ledger) hnone, hrows]
      · rw [Selector.select_cons_of_none (body.moves ledger) hnone, hbytes]
    · have hkey : m.key = key := (moveOf_some hsome).key
      refine ⟨?_, ?_, ⟨⟨key, size, m.oldLiveUntil, m.newLiveUntil⟩ :: rows, ?_, ?_⟩, ?_⟩
      · exact List.forall_mem_cons.mpr ⟨httl, hneeds⟩
      · rw [hkeys, Selector.selected, Selector.selected,
          Selector.select_cons_of_some (body.moves ledger) hsome]
        simp [Selected.push, OperationBody.moves, hkey]
      · rw [Selector.select_cons_of_some (body.moves ledger) hsome]
        simp only [rentChangesOf, hkey, hsize, hrows]
        rfl
      · rw [hchanges]
        simp [Selected.push]
      · rw [Selector.select_cons_of_some (body.moves ledger) hsome, hbytes]
        rfl

/-- The rent size of a stored entry. -/
theorem entrySizeForRent_of_stored {d : Deps} {env : SorobanEnv} {key : LedgerKey}
    {e : EntryWithLiveUntil} {size : Nat} (hstored : env.store.lookup key = some e)
    (hsize : env.entrySizeForRentOf d e.entry = .ok size) :
    env.entrySizeForRent d key = .ok (some size) := by
  simp only [SorobanEnv.entrySizeForRent, hstored, hsize]
  rfl

/-- One turn of the simulation of an extension. -/
theorem extendKey_gathers {d : Deps} {ledger : Ledger} {extendTo : Nat}
    (hseq : 1 ≤ ledger.ledgerSeq) {acc acc' : Selected} {key : LedgerKey}
    (h : extendKey d ledger.env ledger.ledgerSeq (ledger.ledgerSeq + extendTo) acc key =
      .ok acc') :
    GathersOne d ledger (.extendFootprintTtl extendTo) (fun bytes _ => bytes) key acc acc' := by
  simp only [extendKey] at h
  split at h
  · cases h
  · next hneeds =>
    refine ⟨by simpa using hneeds, ?_⟩
    cases hstored : ledger.store.lookup key with
    | none =>
      have hstored' : ledger.env.store.lookup key = none := hstored
      simp only [hstored'] at h
      cases h
      exact .inl ⟨by simp only [OperationBody.moveOf, hstored], rfl⟩
    | some e =>
      obtain ⟨entry, liveUntil⟩ := e
      have hstored' : ledger.env.store.lookup key = some ⟨entry, liveUntil⟩ := hstored
      simp only [hstored'] at h
      cases liveUntil with
      | none => simp at h
      | some ttl =>
        simp only [OperationBody.moveOf, hstored]
        dsimp only at h
        split at h
        · next hexpired =>
          cases h
          simp only [Bool.and_eq_true, decide_eq_true_eq] at hexpired
          exact .inl ⟨if_neg (by omega), rfl⟩
        · split at h
          · cases h
            exact .inl ⟨if_neg (by omega), rfl⟩
          · split at h
            · cases h
            · next hshort hlive =>
              split at h
              · cases h
              · next size hsize =>
                cases h
                refine .inr ⟨⟨key, entry, ttl, ledger.ledgerSeq + extendTo⟩, size,
                  if_pos ⟨by omega, by omega⟩, entrySizeForRent_of_stored hstored' hsize, ?_⟩
                have hne : ttl ≠ 0 := by omega
                simp only [RentChange.toHost, if_pos hne]

/-- One turn of the simulation of a restore. -/
theorem restoreKey_gathers {d : Deps} {ledger : Ledger} {acc acc' : Selected} {key : LedgerKey}
    (h : restoreKey d ledger.env ledger.ledgerSeq
      (ledger.ledgerSeq + ledger.env.minPersistentEntryTtl - 1) acc key = .ok acc') :
    GathersOne d ledger .restoreFootprint
      (fun bytes m => saturatingAdd32 bytes (clamp32 (d.entrySize m.entry))) key acc acc' := by
  simp only [restoreKey] at h
  split at h
  · cases h
  · next hpersistent =>
    refine ⟨needsTtl_of_isPersistent (by simpa using hpersistent), ?_⟩
    cases hstored : ledger.store.lookup key with
    | none =>
      have hstored' : ledger.env.store.lookup key = none := hstored
      simp [hstored'] at h
    | some e =>
      obtain ⟨entry, liveUntil⟩ := e
      have hstored' : ledger.env.store.lookup key = some ⟨entry, liveUntil⟩ := hstored
      simp only [hstored'] at h
      cases liveUntil with
      | none => simp at h
      | some ttl =>
        simp only [OperationBody.moveOf, hstored]
        dsimp only at h
        split at h
        · cases h
          exact .inl ⟨if_neg (by omega), rfl⟩
        · split at h
          · cases h
          · next hlive _ size hsize =>
            cases h
            exact .inr ⟨_, size, if_pos (by omega), entrySizeForRent_of_stored hstored' hsize, rfl⟩

/-- The simulation of a footprint operation. -/
def OperationBody.simulate (d : Deps) (env : SorobanEnv) (keys : List LedgerKey)
    (ledgerSeq : Option Nat) : OperationBody → Except JsError FootprintSimulation
  | .extendFootprintTtl extendTo => env.simulateExtendTtl d keys extendTo ledgerSeq
  | _ => env.simulateRestore d keys ledgerSeq

/-- The resources and the rent changes it prices them by. -/
def OperationBody.resources (d : Deps) (env : SorobanEnv) (keys : List LedgerKey)
    (current : Nat) : OperationBody → Except String (SorobanResources × List LedgerEntryRentChange)
  | .extendFootprintTtl extendTo => extendTtlResources d env keys extendTo current
  | _ => restoreResources d env keys current

/-- The bytes a simulation declares: those of the entries a restore brings
back, and none for an extension. -/
def OperationBody.declaredBytes (d : Deps) (body : OperationBody) (moves : List TtlMove) : Nat :=
  match body with
  | .restoreFootprint => movedBytes d moves
  | _ => 0

/-- A simulation has selected the keys of the moves, and prices the moves. -/
structure Simulated (d : Deps) (ledger : Ledger) (body : OperationBody) (keys : List LedgerKey)
    (resources : SorobanResources) (rentChanges : List LedgerEntryRentChange) : Prop where
  needsTtl : ∀ key ∈ keys, needsTtl key = true
  footprint : (body.side resources.footprint).Perm ((body.moves ledger).selected keys)
  priced : ∃ rows, rentChangesOf d ledger ((body.moves ledger).select keys) = .ok rows ∧
    rentChanges = rows.map RentChange.toHost
  bytes : movedBytes d ((body.moves ledger).select keys) < 2 ^ 32 →
    resources.diskReadBytes = body.declaredBytes d ((body.moves ledger).select keys) ∧
      resources.writeBytes = body.declaredBytes d ((body.moves ledger).select keys)

/-- A count of bytes that fits a word is not cut off. -/
theorem foldl_saturatingAdd32 {d : Deps} {moves : List TtlMove} {bytes : Nat}
    (h : bytes + movedBytes d moves < 2 ^ 32) :
    moves.foldl (fun bytes m => saturatingAdd32 bytes (clamp32 (d.entrySize m.entry))) bytes =
      bytes + movedBytes d moves := by
  induction moves generalizing bytes with
  | nil => rfl
  | cons m ms ih =>
    simp only [movedBytes, List.map_cons, List.sum_cons] at h ⊢
    have hone : saturatingAdd32 bytes (clamp32 (d.entrySize m.entry)) =
        bytes + d.entrySize m.entry := saturatingAdd32_clamp32_of_lt (by omega)
    rw [List.foldl_cons, hone, ih (by simp only [movedBytes]; omega), movedBytes, Nat.add_assoc]

theorem extendTtlResources_ok {d : Deps} {ledger : Ledger} {keys : List LedgerKey}
    {extendTo : Nat} {resources : SorobanResources} {rentChanges : List LedgerEntryRentChange}
    (hseq : 1 ≤ ledger.ledgerSeq) (hword : ledger.ledgerSeq + extendTo < 2 ^ 32)
    (h : extendTtlResources d ledger.env keys extendTo ledger.ledgerSeq =
      .ok (resources, rentChanges)) :
    Simulated d ledger (.extendFootprintTtl extendTo) keys resources rentChanges := by
  have hsum : saturatingAdd32 ledger.ledgerSeq extendTo = ledger.ledgerSeq + extendTo :=
    saturatingAdd32_of_lt hword
  simp only [extendTtlResources, hsum, Except.bind_eq_ok] at h
  obtain ⟨selected, hfold, h⟩ := h
  split at h
  · cases h
  · cases h
    obtain ⟨hneeds, hkeys, ⟨rows, hrows, hchanges⟩, -⟩ :=
      gathered_of_foldlM (fun _ _ _ hone => extendKey_gathers hseq hone) hfold
    refine ⟨hneeds, ?_, ⟨rows, hrows, by simpa [Selected.empty] using hchanges⟩,
      fun _ => ⟨rfl, rfl⟩⟩
    have hkeys : selected.keys = _ := hkeys.trans (List.nil_append _)
    rw [← hkeys]
    exact List.mergeSort_perm _ _

theorem restoreResources_ok {d : Deps} {ledger : Ledger} {keys : List LedgerKey}
    {resources : SorobanResources} {rentChanges : List LedgerEntryRentChange}
    (hsettings : 0 < ledger.env.minPersistentEntryTtl)
    (h : restoreResources d ledger.env keys ledger.ledgerSeq = .ok (resources, rentChanges)) :
    Simulated d ledger .restoreFootprint keys resources rentChanges := by
  simp only [restoreResources] at h
  split at h
  · cases h
  · next restoredLiveUntil hchecked =>
    have hlive : restoredLiveUntil =
        ledger.ledgerSeq + ledger.env.minPersistentEntryTtl - 1 := by
      have hsum : restoredLiveUntil =
          ledger.ledgerSeq + (ledger.env.minPersistentEntryTtl - 1) :=
        (LedgerInfo.minLiveUntilLedgerChecked_eq_some hchecked).1
      omega
    subst hlive
    simp only [Except.bind_eq_ok] at h
    obtain ⟨selected, hfold, h⟩ := h
    split at h
    · cases h
    · cases h
      obtain ⟨hneeds, hkeys, ⟨rows, hrows, hchanges⟩, hbytes⟩ :=
        gathered_of_foldlM (fun _ _ _ hone => restoreKey_gathers hone) hfold
      refine ⟨hneeds, ?_, ⟨rows, hrows, by simpa [Selected.empty] using hchanges⟩, fun hword => ?_⟩
      · have hkeys : selected.keys = _ := hkeys.trans (List.nil_append _)
        rw [← hkeys]
        exact List.mergeSort_perm _ _
      · have hcount : selected.bytes = movedBytes d _ :=
          (hbytes.trans (foldl_saturatingAdd32 (by rwa [Selected.empty, Nat.zero_add]))).trans
            (Nat.zero_add _)
        exact ⟨hcount, hcount⟩

/-- A simulation that answers resources has gathered them. -/
theorem simulate_ok {d : Deps} {ledger : Ledger} {body : OperationBody} {keys : List LedgerKey}
    {ledgerSeq : Option Nat} {sim : FootprintSimulation} {resources : SorobanResources}
    (hat : ledgerSeq.getD ledger.ledgerSeq = ledger.ledgerSeq)
    (h : body.simulate d ledger.env keys ledgerSeq = .ok sim)
    (hresources : sim.resources = some resources) :
    ∃ rentChanges,
      body.resources d ledger.env keys ledger.ledgerSeq = .ok (resources, rentChanges) := by
  have hanswer : ∀ {res operation current},
      footprintSimulation d ledger.env res operation current = .ok sim →
      ∃ rentChanges, res = .ok (resources, rentChanges) := by
    intro res operation current h
    simp only [footprintSimulation] at h
    split at h
    · cases h
      cases hresources
    · next res rentChanges =>
      refine ⟨rentChanges, ?_⟩
      split at h
      · cases h
        cases hresources
        rfl
      · split at h
        · cases h
        · rw [Except.bind_eq_ok] at h
          obtain ⟨_, -, h⟩ := h
          cases h
          cases hresources
          rfl
  have hat' : ledgerSeq.getD ledger.env.ledgerSeq = ledger.ledgerSeq := hat
  cases body with
  | extendFootprintTtl extendTo =>
    simp only [OperationBody.simulate, SorobanEnv.simulateExtendTtl, hat'] at h
    exact hanswer h
  | restoreFootprint =>
    simp only [OperationBody.simulate, SorobanEnv.simulateRestore, hat'] at h
    exact hanswer h
  | invokeHostFunction hostFunction auth =>
    simp only [OperationBody.simulate, SorobanEnv.simulateRestore, hat'] at h
    exact hanswer h
  | classic xdr =>
    simp only [OperationBody.simulate, SorobanEnv.simulateRestore, hat'] at h
    exact hanswer h

/-! ## The application -/

/-- The application selects the moves, when the entries fit the limits and the
declared bytes. -/
theorem selectedMoves_select {d : Deps} {ledger : Ledger} {s : Shaped}
    (hinvoke : s.op.body.isInvoke = false) (hsoroban : s.op.body.isSoroban = true)
    (hlimits : WithinLimits d ledger (s.op.body.side s.sorobanData.resources.footprint))
    (hread : s.op.body.declaredBytes d ((s.op.body.moves ledger).select
      (s.op.body.side s.sorobanData.resources.footprint)) ≤ s.sorobanData.resources.diskReadBytes)
    (hwrite : s.op.body.declaredBytes d ((s.op.body.moves ledger).select
      (s.op.body.side s.sorobanData.resources.footprint)) ≤ s.sorobanData.resources.writeBytes) :
    selectedMoves d ledger s = .ok ((s.op.body.moves ledger).select
      (s.op.body.side s.sorobanData.resources.footprint)) := by
  simp only [selectedMoves]
  cases hbody : s.op.body with
  | extendFootprintTtl extendTo =>
    rw [hbody] at hlimits
    exact extendMoves_ok_iff.mpr ⟨rfl, hlimits.movesFit _⟩
  | restoreFootprint =>
    rw [hbody] at hlimits hread hwrite
    refine (restoreMoves_ok_iff (Nat.zero_le _) (Nat.zero_le _)).mpr
      ⟨rfl, hlimits.movesFit _, ?_, ?_⟩
    · rwa [Nat.zero_add]
    · rwa [Nat.zero_add]
  | invokeHostFunction hostFunction auth => simp [hbody, OperationBody.isInvoke] at hinvoke
  | classic xdr => simp [hbody, OperationBody.isSoroban] at hsoroban

/-! ## The refinement -/

/-- The bytes of the entry stored under a key. -/
def storedBytes (d : Deps) (ledger : Ledger) (key : LedgerKey) : Nat :=
  match ledger.store.lookup key with
  | some e => d.entrySize e.entry
  | none => 0

theorem movedBytes_select_le {d : Deps} {ledger : Ledger} {body : OperationBody}
    (keys : List LedgerKey) :
    movedBytes d ((body.moves ledger).select keys) ≤ (keys.map (storedBytes d ledger)).sum := by
  induction keys with
  | nil => exact Nat.zero_le _
  | cons key keys ih =>
    rw [List.map_cons, List.sum_cons]
    cases hpick : body.moveOf ledger key with
    | none =>
      rw [Selector.select_cons_of_none (body.moves ledger) hpick]
      omega
    | some m =>
      obtain ⟨ttl, hstored, -⟩ := (moveOf_some hpick).stored
      have hsize : storedBytes d ledger key = d.entrySize m.entry := by
        simp only [storedBytes, hstored]
      rw [Selector.select_cons_of_some (body.moves ledger) hpick, movedBytes, List.map_cons,
        List.sum_cons, ← movedBytes, hsize]
      omega

/-- What the simulated keys and the ledger they are moved on must be like. -/
structure FootprintPremises (d : Deps) (ledger : Ledger) (body : OperationBody)
    (keys : List LedgerKey) : Prop where
  keyed : ledger.store.Keyed
  /-- `setArchivalSettings` lets no other setting in. -/
  archival : 0 < ledger.env.minPersistentEntryTtl
  started : 1 ≤ ledger.ledgerSeq
  fits : body.newLiveUntil ledger < 2 ^ 32
  limits : WithinLimits d ledger keys
  bytes : (keys.map (storedBytes d ledger)).sum < 2 ^ 32

/-- A transaction declares what a simulation answered: its footprint, or the
keys that were asked for, and at least its bytes. -/
structure DeclaresSimulated (body : OperationBody) (keys : List LedgerKey)
    (simulated declared : SorobanResources) : Prop where
  footprint : declared.footprint = simulated.footprint ∨ (body.side declared.footprint).Perm keys
  diskReadBytes : simulated.diskReadBytes ≤ declared.diskReadBytes
  writeBytes : simulated.writeBytes ≤ declared.writeBytes

/-- The refundable fee, while fees are charged, covers the rent, whichever
order the rent changes are priced in. -/
def RentCovered (d : Deps) (ledger : Ledger) (a : Application) (v : Validated)
    (rentChanges : List LedgerEntryRentChange) : Prop :=
  ∀ changes settings, changes.Perm rentChanges → ledger.env.feeSettings = some settings →
    a.charge.isSome → d.computeRentFee changes (settings.rentFeeConfiguration d) ledger.ledgerSeq ≤
      v.maxRefundable

/-- Exactly the selected keys have a new TTL. -/
structure MovedExactly (ledger ledger' : Ledger) (selected : List LedgerKey)
    (liveUntil : Nat) : Prop where
  moved : ∀ key ∈ selected, ∃ entry ttl, ledger.store.lookup key = some ⟨entry, some ttl⟩ ∧
    ttl < liveUntil ∧ ledger'.store.lookup key = some ⟨entry, some liveUntil⟩
  others : ∀ key, key ∉ selected → needsTtl key = true →
    ledger'.store.lookup key = ledger.store.lookup key

/-- A footprint simulation that answers is `Simulated`. -/
theorem simulated_of_answer {d : Deps} {ledger : Ledger} {body : OperationBody}
    {keys : List LedgerKey} {resources : SorobanResources}
    {rentChanges : List LedgerEntryRentChange} (hinvoke : body.isInvoke = false)
    (hsoroban : body.isSoroban = true) (hpremises : FootprintPremises d ledger body keys)
    (h : body.resources d ledger.env keys ledger.ledgerSeq = .ok (resources, rentChanges)) :
    Simulated d ledger body keys resources rentChanges := by
  cases body with
  | extendFootprintTtl extendTo =>
    exact extendTtlResources_ok hpremises.started hpremises.fits h
  | restoreFootprint => exact restoreResources_ok hpremises.archival h
  | invokeHostFunction hostFunction auth => cases hinvoke
  | classic xdr => cases hsoroban

/-- The keys an application goes over, and what it selects of them. -/
structure SameSelection (d : Deps) (ledger : Ledger) (body : OperationBody)
    (keys : List LedgerKey) (declared : SorobanResources) : Prop where
  perm : ((body.moves ledger).select (body.side declared.footprint)).Perm
    ((body.moves ledger).select keys)
  needsTtl : ∀ key ∈ body.side declared.footprint, needsTtl key = true
  limits : WithinLimits d ledger (body.side declared.footprint)
  read : body.declaredBytes d ((body.moves ledger).select (body.side declared.footprint)) ≤
    declared.diskReadBytes
  write : body.declaredBytes d ((body.moves ledger).select (body.side declared.footprint)) ≤
    declared.writeBytes

theorem sameSelection {d : Deps} {ledger : Ledger} {body : OperationBody}
    {keys : List LedgerKey} {resources declared : SorobanResources}
    {rentChanges : List LedgerEntryRentChange}
    (hpremises : FootprintPremises d ledger body keys)
    (hsimulated : Simulated d ledger body keys resources rentChanges)
    (hdeclares : DeclaresSimulated body keys resources declared) :
    SameSelection d ledger body keys declared := by
  have hcovers : (body.side declared.footprint).Perm ((body.moves ledger).selected keys) ∨
      (body.side declared.footprint).Perm keys := by
    rcases hdeclares.footprint with hsame | hasked
    · rw [hsame]
      exact .inl hsimulated.footprint
    · exact .inr hasked
  have hsubset : ∀ key ∈ body.side declared.footprint, key ∈ keys := by
    intro key hkey
    rcases hcovers with hperm | hperm
    · obtain ⟨m, hpick, hm⟩ := Selector.mem_selected.mp (hperm.mem_iff.mp hkey)
      rw [← (body.moves ledger).key_pick hpick]
      exact (Selector.mem_select.mp hm).1
    · exact hperm.mem_iff.mp hkey
  have hperm := Selector.select_perm_of_covers hcovers
  have hbytes : body.declaredBytes d ((body.moves ledger).select (body.side declared.footprint)) =
      body.declaredBytes d ((body.moves ledger).select keys) := by
    simp only [OperationBody.declaredBytes, movedBytes_perm d hperm]
  obtain ⟨hread, hwrite⟩ := hsimulated.bytes
    ((movedBytes_select_le keys).trans_lt hpremises.bytes)
  refine ⟨hperm, fun key hkey => hsimulated.needsTtl key (hsubset key hkey),
    fun key hkey => hpremises.limits key (hsubset key hkey), ?_, ?_⟩
  · rw [hbytes, ← hread]
    exact hdeclares.diskReadBytes
  · rw [hbytes, ← hwrite]
    exact hdeclares.writeBytes

/-- The rows of selected moves hold words, and the new TTL. -/
theorem rentChangesOf_select {d : Deps} {ledger : Ledger} {body : OperationBody}
    {keys : List LedgerKey} {rows : List RentChange} (hfits : body.newLiveUntil ledger < 2 ^ 32)
    (h : rentChangesOf d ledger ((body.moves ledger).select keys) = .ok rows) :
    ∀ row ∈ rows, row.oldLiveUntil < 2 ^ 32 ∧ row.newLiveUntil = body.newLiveUntil ledger := by
  intro row hrow
  obtain ⟨m, hm, hold, hnew⟩ := rentChangesOf_mem h hrow
  have hof := moveOf_some (Selector.mem_select.mp hm).2
  rw [hold, hnew]
  refine ⟨?_, hof.newLiveUntil⟩
  rcases hof.oldLiveUntil with hzero | hlt
  · rw [hzero]
    exact Nat.two_pow_pos 32
  · exact hlt.trans hfits

/-- The operation makes the selected moves, and prices the rows of the
simulation in its own order. -/
theorem runOperation_refines {d : Deps} {ledger l₁ l₂ : Ledger} {keys : List LedgerKey}
    {a : Application} {v : Validated} {op : Operated} {rows₀ : List RentChange}
    (hinvoke : v.op.body.isInvoke = false) (hsoroban : v.op.body.isSoroban = true)
    (hclassic : ClassicOnly ledger l₁) (hfits : v.op.body.newLiveUntil ledger < 2 ^ 32)
    (hsame : SameSelection d ledger v.op.body keys v.sorobanData.resources)
    (hpriced : rentChangesOf d ledger ((v.op.body.moves ledger).select keys) = .ok rows₀)
    (hcovered : RentCovered d ledger a v (rows₀.map RentChange.toHost))
    (hsource : v.opAccount.isSome = true)
    (h : runOperation d v (a.charge.map fun _ => v.maxRefundable) l₁ = .ok op l₂) :
    ∃ rows settings,
      OperationMoved d v (a.charge.map fun _ => v.maxRefundable) l₁ op l₂
        ((v.op.body.moves ledger).select (v.op.body.side v.sorobanData.resources.footprint))
        rows ∧
      (rows.map RentChange.toHost).Perm (rows₀.map RentChange.toHost) ∧
      ledger.env.feeSettings = some settings ∧
      op.rent = d.computeRentFee (rows.map RentChange.toHost)
        (settings.rentFeeConfiguration d) ledger.ledgerSeq := by
  have hmoves : (v.op.body.moves l₁).select (v.op.body.side v.sorobanData.resources.footprint) =
      (v.op.body.moves ledger).select (v.op.body.side v.sorobanData.resources.footprint) :=
    Selector.select_congr fun key hkey => hclassic.moveOf v.op.body (hsame.needsTtl key hkey)
  have hlimits : WithinLimits d l₁ (v.op.body.side v.sorobanData.resources.footprint) := by
    intro key hkey e he
    rw [hclassic.contracts key (hsame.needsTtl key hkey)] at he
    rw [hclassic.frame]
    exact hsame.limits key hkey e he
  have hselected : selectedMoves d l₁ v.toShaped = .ok
      ((v.op.body.moves ledger).select (v.op.body.side v.sorobanData.resources.footprint)) := by
    rw [← hmoves]
    refine selectedMoves_select hinvoke hsoroban hlimits ?_ ?_ <;> rw [hmoves]
    · exact hsame.read
    · exact hsame.write
  -- Whatever rows the operation prices are those of the simulation in another order.
  have hrows : ∀ rows rent,
      rentChangesOf d l₁ ((v.op.body.moves ledger).select
        (v.op.body.side v.sorobanData.resources.footprint)) = .ok rows →
      l₁.computeRentFee d rows = .ok rent →
      (rows.map RentChange.toHost).Perm (rows₀.map RentChange.toHost) ∧
        ∃ settings, ledger.env.feeSettings = some settings ∧
          rent = d.computeRentFee (rows.map RentChange.toHost)
            (settings.rentFeeConfiguration d) ledger.ledgerSeq := by
    intro rows rent hrows hrent
    rw [hclassic.rentChangesOf fun m hm => hsame.needsTtl m.key (Selector.mem_select.mp hm).1]
      at hrows
    have hwords := rentChangesOf_select hfits hrows
    obtain ⟨rows', hrows', hperm⟩ := rentChangesOf_perm hsame.perm hpriced
    cases hrows.symm.trans hrows'
    obtain ⟨settings, hsettings, hfee⟩ := computeRentFee_words
      (fun row hrow => ⟨(hwords row hrow).1, (hwords row hrow).2 ▸ hfits⟩) hrent
    rw [hclassic.frame] at hsettings hfee
    exact ⟨hperm.map _, settings, hsettings, hfee⟩
  obtain ⟨opAccount, hopAccount⟩ := Option.isSome_iff_exists.mp hsource
  obtain ⟨arms, apply, hrun, happly⟩ :=
    runOperation_footprint d (a.charge.map fun _ => v.maxRefundable) hopAccount hinvoke hsoroban
  rw [hrun] at h
  rcases footprintOp_ok hinvoke (happly l₁) h with ⟨-, hshort⟩ | ⟨moves, rows, hmoved⟩
  · obtain ⟨rows, rent, max, hpriced', hrent, hmax, hlt⟩ := hshort _ hselected
    obtain ⟨hperm, settings, hsettings, rfl⟩ := hrows rows rent hpriced' hrent
    cases hcharge : a.charge with
    | none => simp [hcharge] at hmax
    | some charge =>
      have hle := hcovered _ settings hperm hsettings (by rw [hcharge]; rfl)
      simp only [hcharge, Option.map_some, Option.some.injEq] at hmax
      omega
  · cases hselected.symm.trans hmoved.selected
    obtain ⟨hperm, settings, hsettings, hfee⟩ := hrows rows op.rent hmoved.priced hmoved.rent
    exact ⟨rows, settings, hmoved, hperm, hsettings, hfee⟩

/-- Making selected moves moves exactly the selected keys. -/
theorem movedExactly_select {ledger l₁ l₂ ledger' : Ledger} {body : OperationBody}
    {keys selected : List LedgerKey} (hclassic : ClassicOnly ledger l₁)
    (hsettled : ClassicOnly l₂ ledger') (hfits : body.newLiveUntil ledger < 2 ^ 32)
    (harchival : 0 < ledger.env.minPersistentEntryTtl)
    (hneeds : ∀ key ∈ keys, needsTtl key = true)
    (hselected : selected.Perm ((body.moves ledger).selected keys))
    (hmoved : FootprintMoved l₁ l₂ ((body.moves ledger).select keys)) :
    MovedExactly ledger ledger' selected (body.newLiveUntil ledger) := by
  have hstore : l₂.store = putStore l₁.store ((body.moves ledger).select keys) := by
    rw [hmoved.frame]
    rfl
  constructor
  · intro key hkey
    obtain ⟨m, hpick, hm⟩ := Selector.mem_selected.mp (hselected.mem_iff.mp hkey)
    have hof : MoveOf ledger body key m := moveOf_some hpick
    obtain ⟨ttl, hstored, hlt⟩ := hof.stored
    have hkeyTtl : needsTtl key = true := by
      rw [← hof.key]
      exact hneeds m.key (Selector.mem_select.mp hm).1
    have hlisted : key ∈ keys := by
      rw [← hof.key]
      exact (Selector.mem_select.mp hm).1
    have hput := lookup_putStore_moved hlisted hpick l₁.store
    rw [toUint32_of_lt hfits] at hput
    refine ⟨m.entry, ttl, hstored, hlt harchival, ?_⟩
    rw [hsettled.contracts key hkeyTtl, hstore, hput]
  · intro key hkey hkeyTtl
    have hnone : key ∈ keys → body.moveOf ledger key = none := by
      intro hlisted
      by_contra hmoved
      apply hkey
      rw [hselected.mem_iff, Selector.selected_eq_filter]
      exact List.mem_filter.mpr ⟨hlisted, Option.isSome_iff_ne_none.mpr hmoved⟩
    rw [hsettled.contracts key hkeyTtl, hstore, lookup_putStore_unmoved hnone,
      hclassic.contracts key hkeyTtl]

/-- **Simulation and application agree.**  When a footprint simulation answers
at a ledger, an accepted operation applied at that ledger over what it
answered moves exactly the keys it selected, to the TTL it priced, and prices
the same rent changes. -/
theorem footprintOp_refines {d : Deps} {ledger ledger' l₁ l₂ : Ledger} {body : OperationBody}
    {keys : List LedgerKey} {ledgerSeq : Option Nat} {sim : FootprintSimulation}
    {resources : SorobanResources} {envelope : TransactionEnvelope} {passphrase : String}
    {validation : ValidationOptions} {outcome : TxOutcome} {a : Application} {v : Validated}
    {op : Operated} (hinvoke : body.isInvoke = false)
    (hpremises : FootprintPremises d ledger body keys)
    (hat : ledgerSeq.getD ledger.ledgerSeq = ledger.ledgerSeq)
    (hsim : body.simulate d ledger.env keys ledgerSeq = .ok sim)
    (hresources : sim.resources = some resources)
    (haccepted : Accepted d ledger envelope passphrase validation outcome ledger' a v l₁ l₂ op)
    (hbody : v.op.body = body) (hsource : OperationSourceExists ledger envelope)
    (hdeclares : DeclaresSimulated body keys resources v.sorobanData.resources) :
    ∃ rentChanges,
      body.resources d ledger.env keys ledger.ledgerSeq = .ok (resources, rentChanges) ∧
      (∀ change ∈ rentChanges, change.newLiveUntilLedger = body.newLiveUntil ledger) ∧
      (RentCovered d ledger a v rentChanges →
        outcome.ok = true ∧
        MovedExactly ledger ledger' (body.side resources.footprint) (body.newLiveUntil ledger) ∧
        ∃ moves rows settings,
          OperationMoved d v (a.charge.map fun _ => v.maxRefundable) l₁ op l₂ moves rows ∧
          (rows.map RentChange.toHost).Perm rentChanges ∧
          ledger.env.feeSettings = some settings ∧
          op.rent = d.computeRentFee (rows.map RentChange.toHost)
            (settings.rentFeeConfiguration d) ledger.ledgerSeq) := by
  subst hbody
  obtain ⟨c₁, c₂, hpassed⟩ := validate_ok haccepted.validated
  have hsoroban := (checkShape_ok hpassed.shape).2.1
  obtain ⟨rentChanges, hanswer⟩ := simulate_ok hat hsim hresources
  have hsimulated := simulated_of_answer hinvoke hsoroban hpremises hanswer
  obtain ⟨rows₀, hrows₀, hpriced⟩ := hsimulated.priced
  have hwords := rentChangesOf_select hpremises.fits hrows₀
  refine ⟨rentChanges, hanswer, fun change hchange => ?_, fun hcovered => ?_⟩
  · rw [hpriced] at hchange
    obtain ⟨row, hrow, rfl⟩ := List.mem_map.mp hchange
    exact (hwords row hrow).2
  subst hpriced
  have hclassic := commitClassic_classicOnly haccepted.classic
  have hsame := sameSelection hpremises hsimulated hdeclares
  obtain ⟨rows, settings, hmoved, hperm, hsettings, hrent⟩ :=
    runOperation_refines hinvoke hsoroban hclassic hpremises.fits hsame hrows₀ hcovered
      (haccepted.operationSource.mp hsource) haccepted.operated
  obtain ⟨inner, hsettle, -⟩ := haccepted.settled
  have hcommitted := commitClassic_effect hpremises.keyed haccepted.classic
  have heffect := operationMoved_effect hcommitted.keyed hsoroban hpassed.footprintOp hmoved
  have hselected : (v.op.body.side resources.footprint).Perm ((v.op.body.moves ledger).selected
      (v.op.body.side v.sorobanData.resources.footprint)) :=
    hsimulated.footprint.trans (hsame.perm.map _).symm
  exact ⟨haccepted.feeCharged.1.trans hmoved.ok,
    movedExactly_select hclassic (settle_classicOnly hsettle) hpremises.fits hpremises.archival
      hsame.needsTtl hselected heffect,
    _, rows, settings, hmoved, hperm, hsettings, hrent⟩

/-! ## One archived balance -/

/-- A host under which every entry has 100 bytes. -/
def sizedHost : Deps := { Deps.idle with entrySize := fun _ => 100 }

/-- A balance whose TTL has run out, beside the account that restores it. -/
def archivedLedger : Ledger :=
  (sampleLedger 7).withStore ((sampleLedger 7).store.insert (balanceKey .persistent)
    ⟨⟨900, .contractData ⟨⟨[1]⟩, ⟨[2]⟩, .persistent, ⟨[3]⟩⟩, .v0⟩, some 900⟩)

def restoreEnvelope : TransactionV1Envelope :=
  let envelope := sampleEnvelope 7 1 none
  { envelope with tx := { envelope.tx with
      operations := [⟨none, .restoreFootprint⟩]
      ext := .sorobanData ⟨.v0, ⟨⟨[], [balanceKey .persistent]⟩, 0, 100, 100⟩, 0⟩ } }

theorem archivedLedger_premises :
    FootprintPremises sizedHost archivedLedger .restoreFootprint [balanceKey .persistent] where
  keyed := (sampleLedger_keyed 7).insert rfl
  archival := by decide
  started := by decide
  fits := by decide
  limits := by
    intro key hkey e _
    rw [List.mem_singleton.mp hkey]
    rfl
  bytes := by decide

theorem footprintOp_refines_balance : ∃ sim resources outcome ledger' a v l₁ l₂ op,
    OperationBody.restoreFootprint.simulate sizedHost archivedLedger.env
      [balanceKey .persistent] none = .ok sim ∧
    sim.resources = some resources ∧
    Accepted sizedHost archivedLedger (.envelopeTypeTx restoreEnvelope) "" {} outcome ledger' a v
      l₁ l₂ op ∧
    MovedExactly archivedLedger ledger' resources.footprint.readWrite 121959 := by
  obtain ⟨sim, resources, hsim, hresources, hread, hwrite⟩ : ∃ sim resources,
      OperationBody.restoreFootprint.simulate sizedHost archivedLedger.env
        [balanceKey .persistent] none = .ok sim ∧
      sim.resources = some resources ∧ resources.diskReadBytes ≤ 100 ∧
      resources.writeBytes ≤ 100 :=
    ⟨_, _, rfl, rfl, by decide, by decide⟩
  obtain ⟨outcome, ledger', a, v, l₁, l₂, op, haccepted, hbody, hdeclared, hfree⟩ :
      ∃ outcome ledger' a v l₁ l₂ op,
        Accepted sizedHost archivedLedger (.envelopeTypeTx restoreEnvelope) "" {} outcome ledger'
          a v l₁ l₂ op ∧
        v.op.body = .restoreFootprint ∧
        v.sorobanData.resources = ⟨⟨[], [balanceKey .persistent]⟩, 0, 100, 100⟩ ∧
        v.maxRefundable = 0 :=
    ⟨_, _, _, _, _, _, _, ⟨rfl, rfl, rfl, rfl, _, rfl, rfl⟩, rfl, rfl, rfl⟩
  have hdeclares : DeclaresSimulated .restoreFootprint [balanceKey .persistent] resources
      v.sorobanData.resources := by
    rw [hdeclared]
    exact ⟨.inr (.refl _), hread, hwrite⟩
  obtain ⟨rentChanges, -, -, hrefines⟩ := footprintOp_refines rfl archivedLedger_premises rfl hsim
    hresources haccepted hbody ⟨_, _, _, rfl, rfl, rfl⟩ hdeclares
  obtain ⟨-, hmoved, -⟩ := hrefines fun _ _ _ _ _ => by rw [hfree]; exact le_rfl
  exact ⟨sim, resources, outcome, ledger', a, v, l₁, l₂, op, hsim, hresources, haccepted, hmoved⟩

/-- `restoreEnvelope`, from an account that signed and does not exist. -/
def ghostRestoreEnvelope : TransactionV1Envelope where
  tx := { restoreEnvelope.tx with
    operations := [⟨some (.keyTypeEd25519 (List.replicate 32 8)), .restoreFootprint⟩] }
  signatures := [sampleSignature 7, sampleSignature 8]

/-- An operation whose source does not exist is accepted and moves nothing,
whatever was simulated for it. -/
theorem footprintOp_ghost : ∃ sim resources outcome ledger' a v l₁ l₂ op,
    FootprintPremises sizedHost archivedLedger .restoreFootprint [balanceKey .persistent] ∧
    OperationBody.restoreFootprint.simulate sizedHost archivedLedger.env
      [balanceKey .persistent] none = .ok sim ∧
    sim.resources = some resources ∧
    Accepted sizedHost archivedLedger (.envelopeTypeTx ghostRestoreEnvelope) "" {} outcome ledger'
      a v l₁ l₂ op ∧
    v.op.body = .restoreFootprint ∧
    DeclaresSimulated .restoreFootprint [balanceKey .persistent] resources
      v.sorobanData.resources ∧
    (∀ rentChanges, RentCovered sizedHost archivedLedger a v rentChanges) ∧
    outcome.ok = false ∧ outcome.opCode = some .opNO_ACCOUNT ∧
    ¬ MovedExactly archivedLedger ledger' resources.footprint.readWrite 121959 := by
  obtain ⟨sim, resources, hsim, hresources, hread, hwrite, hlisted⟩ : ∃ sim resources,
      OperationBody.restoreFootprint.simulate sizedHost archivedLedger.env
        [balanceKey .persistent] none = .ok sim ∧
      sim.resources = some resources ∧ resources.diskReadBytes ≤ 100 ∧
      resources.writeBytes ≤ 100 ∧ resources.footprint.readWrite = [balanceKey .persistent] :=
    ⟨_, _, rfl, rfl, by decide, by decide, List.mergeSort_singleton _⟩
  obtain ⟨outcome, ledger', a, v, l₁, l₂, op, haccepted, hbody, hdeclared, hfree, hok, hcode,
      hkept⟩ : ∃ outcome ledger' a v l₁ l₂ op,
        Accepted sizedHost archivedLedger (.envelopeTypeTx ghostRestoreEnvelope) "" {} outcome
          ledger' a v l₁ l₂ op ∧
        v.op.body = .restoreFootprint ∧
        v.sorobanData.resources = ⟨⟨[], [balanceKey .persistent]⟩, 0, 100, 100⟩ ∧
        v.maxRefundable = 0 ∧ outcome.ok = false ∧ outcome.opCode = some .opNO_ACCOUNT ∧
        ledger'.store.lookup (balanceKey .persistent) =
          archivedLedger.store.lookup (balanceKey .persistent) :=
    ⟨_, _, _, _, _, _, _, ⟨rfl, rfl, rfl, rfl, _, rfl, rfl⟩, rfl, rfl, rfl, rfl, rfl, rfl⟩
  have hdeclares : DeclaresSimulated .restoreFootprint [balanceKey .persistent] resources
      v.sorobanData.resources := by
    rw [hdeclared]
    exact ⟨.inr (.refl _), hread, hwrite⟩
  have hcovered : ∀ rentChanges, RentCovered sizedHost archivedLedger a v rentChanges := by
    intro rentChanges _ _ _ _ _
    rw [hfree]
    exact le_rfl
  refine ⟨sim, resources, outcome, ledger', a, v, l₁, l₂, op, archivedLedger_premises, hsim,
    hresources, haccepted, hbody, hdeclares, hcovered, hok, hcode, ?_⟩
  intro hmoved
  -- The entry of the one selected key is the one that was stored.
  obtain ⟨entry, ttl, hstored, hlt, hnow⟩ := hmoved.moved (balanceKey .persistent)
    (hlisted ▸ List.mem_cons_self)
  rw [hkept, hstored] at hnow
  cases hnow
  exact lt_irrefl _ hlt

end LiteSoroban

import LiteSoroban.Lib.Lease
import LiteSoroban.Classic.FootprintTtls
import LiteSoroban.Classic.Locality
import LiteSoroban.Ledger.Machine

/-!
# The life of an entry

An entry with a TTL is on a lease.  Ledgers close, an `ExtendFootprintTTL`
extends the leases of the live entries it lists, and a `RestoreFootprint`
renews the ones that have run out.

`ledgerMachine_leases` is about a run of the ledger that touches an entry
through footprint operations only, whatever else it does.  It leaves the entry
as it was, on the lease that the successful operations over it have made.
-/

namespace LiteSoroban

open Effect

/-! ## The events of a lease -/

/-- The one operation of an envelope. -/
def TransactionEnvelope.body? (envelope : TransactionEnvelope) : Option OperationBody :=
  match envelope.innerTx? with
  | none => none
  | some raw =>
    match raw.operations with
    | [op] => some op.body
    | _ => none

/-- What a successful operation is to the leases of the entries it lists. -/
def OperationBody.leaseEvents (ledger : Ledger) : OperationBody → List Lease.Event
  | .extendFootprintTtl extendTo => [.extend extendTo]
  | .restoreFootprint => [.renew ledger.env.minPersistentEntryTtl]
  | _ => []

def LedgerAnswer.succeeded : Except JsError LedgerAnswer → Bool
  | .ok (.applied outcome) => outcome.ok
  | _ => false

/-- What one call is to the lease of the entry under `key`. -/
def leaseEvents (d : Deps) (key : LedgerKey) (ledger : Ledger) (op : LedgerOp) :
    List Lease.Event :=
  match op with
  | .advanceLedgers n => [.pass (toUint32 n)]
  | .applyTransaction envelope _ _ =>
    match envelope.body? with
    | none => []
    | some body =>
      if LedgerAnswer.succeeded ((ledgerMachine d).out ledger op) = true ∧
          key ∈ body.side envelope.footprint then
        body.leaseEvents ledger
      else []
  | _ => []

/-- The longest term an entry is given at once. -/
def Ledger.longestTtl (ledger : Ledger) : Nat :=
  max ledger.env.minPersistentEntryTtl ledger.env.maxEntryTtl

/-- The TTLs the ledger gives are words. -/
def Ledger.HasRoom (ledger : Ledger) : Prop := ledger.ledgerSeq + ledger.longestTtl < 2 ^ 32

/-- The call closes no ledger, and cannot touch the entry under `key`. -/
def LedgerOp.LeavesAlone (d : Deps) (key : LedgerKey) : LedgerOp → Prop
  | .fundAccount seed => keyOf (d.accountEntry (d.getAccountId seed)) ≠ .ok key
  | .seedWasm code => key ≠ .contractCode (d.getWasmHash code)
  | .putEntry entry _ => keyOf entry ≠ .ok key
  | .removeEntry key' => key ≠ key'
  | .send args => key ∉ args.resources.footprint.access.writes
  | .applyTransaction envelope _ _ => key ∉ envelope.access.writes
  | .advanceLedgers _ => False
  | .restore _ => False
  | _ => True

/-- The call is a footprint transaction, and it returns. -/
def LedgerOp.MovesTtls (d : Deps) (ledger : Ledger) : LedgerOp → Prop
  | .applyTransaction envelope passphrase validation =>
    (∃ body, envelope.body? = some body ∧ body.isInvoke = false) ∧
      ∃ outcome ledger',
        LiteSoroban.applyTransaction d envelope passphrase validation ledger = .ok outcome ledger'
  | _ => False

/-- A call in the life of the entry under `key`.  A rollback is no part of
it. -/
def LedgerOp.Ordinary (d : Deps) (key : LedgerKey) (ledger : Ledger) (op : LedgerOp) : Prop :=
  op.LeavesAlone d key ∨ op.MovesTtls d ledger ∨ ∃ n, op = .advanceLedgers n

/-! ## The calls that leave an entry alone -/

/-- The ledger goes on under the same archival settings. -/
structure Ledger.Carries (ledger ledger' : Ledger) : Prop where
  ledgerSeq : ledger.ledgerSeq ≤ ledger'.ledgerSeq
  minTtl : ledger'.env.minPersistentEntryTtl = ledger.env.minPersistentEntryTtl
  maxTtl : ledger'.env.maxEntryTtl = ledger.env.maxEntryTtl

theorem Ledger.Carries.refl (ledger : Ledger) : ledger.Carries ledger := ⟨le_rfl, rfl, rfl⟩

theorem Ledger.Carries.longestTtl {ledger ledger' : Ledger} (h : ledger.Carries ledger') :
    ledger'.longestTtl = ledger.longestTtl := by
  simp only [Ledger.longestTtl, h.minTtl, h.maxTtl]

/-- The ledger keeps its number and its settings, and the entry under `key`
stays as it is. -/
structure Ledger.Spares (key : LedgerKey) (ledger ledger' : Ledger) : Prop where
  ledgerSeq : ledger'.ledgerSeq = ledger.ledgerSeq
  carries : ledger.Carries ledger'
  keyed : ledger'.store.Keyed
  lookup : ledger'.store.lookup key = ledger.store.lookup key

theorem Ledger.Spares.refl {key : LedgerKey} {ledger : Ledger} (hkeyed : ledger.store.Keyed) :
    ledger.Spares key ledger :=
  ⟨rfl, .refl ledger, hkeyed, rfl⟩

/-- Another entry is written under its own key. -/
theorem Ledger.Spares.insert {key key' : LedgerKey} {ledger : Ledger}
    (hkeyed : ledger.store.Keyed) {e : EntryWithLiveUntil} (he : keyOf e.entry = .ok key')
    (hne : key ≠ key') : ledger.Spares key (ledger.withStore (ledger.store.insert key' e)) :=
  ⟨rfl, ⟨le_rfl, rfl, rfl⟩, hkeyed.insert he, Finmap.lookup_insert_of_ne _ hne⟩

theorem Ledger.StoreOnly.spares {key : LedgerKey} {ledger ledger' : Ledger}
    (h : ledger.StoreOnly ledger') (hkeyed : ledger'.store.Keyed)
    (hlookup : ledger'.store.lookup key = ledger.store.lookup key) : ledger.Spares key ledger' := by
  obtain ⟨store, cache, rfl⟩ := h
  exact ⟨rfl, ⟨le_rfl, rfl, rfl⟩, hkeyed, hlookup⟩

section spares

variable {d : Deps} {key : LedgerKey} {ledger : Ledger}

theorem LedgerOp.LeavesAlone.spares (hkeyed : d.ReturnsKeyed) (hreturns : d.ReturnsFootprint)
    (hseeds : d.SeedsKeyed) (hstore : ledger.store.Keyed) (hkey : needsTtl key = true)
    {op : LedgerOp} (h : op.LeavesAlone d key) :
    ledger.Spares key ((ledgerMachine d).next ledger op) := by
  have haccount : ∀ id, key ≠ .account id := by
    intro id heq
    rw [heq] at hkey
    cases hkey
  rw [ledgerMachine_next]
  cases op with
  | fundAccount seed =>
    rw [perform, finalState_map]
    simp only [Ledger.fundAccount, Ledger.call, SorobanEnv.fundAccount]
    cases hentry : keyOf (d.accountEntry (d.getAccountId seed)) with
    | error e => exact .refl hstore
    | ok key' => exact .insert hstore hentry fun heq => h (by rw [heq]; exact hentry)
  | fund id opts =>
    rw [perform, finalState_map]
    simp only [Ledger.fund, LiteSoroban.fundAccount, storeAccount_eq]
    split
    · exact .insert hstore rfl (haccount _)
    · exact .refl hstore
  | seedWasm code =>
    rw [perform, finalState_map]
    simp only [Ledger.seedWasm, Ledger.call, SorobanEnv.seedWasm]
    cases ledger.env.ledgerInfo.minLiveUntilLedgerChecked with
    | none => exact .refl hstore
    | some ttl => exact .insert hstore (hseeds code) h
  | putEntry entry liveUntil =>
    rw [perform, finalState_map]
    simp only [Ledger.putEntry, SorobanEnv.putEntry]
    cases hentry : keyOf entry with
    | error e => exact .refl hstore
    | ok key' => exact .insert hstore hentry fun heq => h (by rw [heq]; exact hentry)
  | removeEntry key' =>
    rw [perform, finalState_map]
    exact ⟨rfl, ⟨le_rfl, rfl, rfl⟩, hstore.erase key', Finmap.lookup_erase_ne h⟩
  | simulate args =>
    obtain ⟨prng, hframe⟩ := simulate_frame d ledger.env args
    rw [perform, finalState_map, Ledger.finalState_simulate, hframe]
    exact ⟨rfl, ⟨le_rfl, rfl, rfl⟩, hstore, rfl⟩
  | send args =>
    rw [perform, finalState_map]
    refine (send_storesOnly d args ledger).spares ?_ ?_
    · rw [Ledger.finalState_send]
      exact send_keyed hkeyed hstore
    · rw [Ledger.finalState_send]
      exact send_lookup hreturns _ ledger.env h
  | applyTransaction envelope passphrase validation =>
    rw [perform, finalState_map]
    have hwrites := applyTransaction_writesOnly hkeyed hreturns envelope passphrase validation
      ledger hstore
    exact (applyTransaction_storesOnly d envelope passphrase validation ledger).spares hwrites.1
      (hwrites.2 key h)
  | advanceLedgers n => cases h
  | setTimestamp t => exact ⟨rfl, ⟨le_rfl, rfl, rfl⟩, hstore, rfl⟩
  | snapshot =>
    rw [perform, finalState_map]
    rcases ledger.snapshot_final with hfinal | hfinal
    · rw [hfinal]
      exact .refl hstore
    · rw [hfinal]
      exact ⟨rfl, ⟨le_rfl, rfl, rfl⟩, hstore, rfl⟩
  | restore id => cases h

/-! ## The footprint operations -/

section accepted

variable {ledger' l₁ l₂ : Ledger} {envelope : TransactionEnvelope} {passphrase : String}
  {validation : ValidationOptions} {outcome : TxOutcome} {a : Application} {v : Validated}
  {op : Operated}

theorem Accepted.body?_eq
    (h : Accepted d ledger envelope passphrase validation outcome ledger' a v l₁ l₂ op) :
    envelope.body? = some v.op.body ∧ envelope.footprint = v.sorobanData.resources.footprint := by
  obtain ⟨c₁, c₂, hpassed⟩ := validate_ok h.validated
  obtain ⟨hone, -, hsoroban, -⟩ := checkShape_ok hpassed.shape
  have hraw := (envelopeApplication_ok h.application).innerTx
  constructor
  · simp only [TransactionEnvelope.body?, hraw, hone]
  · simp only [TransactionEnvelope.footprint, hraw, Option.bind_some, hsoroban]

theorem Accepted.footprintTransaction
    (h : Accepted d ledger envelope passphrase validation outcome ledger' a v l₁ l₂ op)
    (hinvoke : v.op.body.isInvoke = false) :
    FootprintTransaction envelope v.op.body v.sorobanData.resources := by
  obtain ⟨c₁, c₂, hpassed⟩ := validate_ok h.validated
  obtain ⟨hone, -, hsoroban, -⟩ := checkShape_ok hpassed.shape
  exact ⟨hinvoke, a.raw, v.op, v.sorobanData, (envelopeApplication_ok h.application).innerTx, hone,
    rfl, hsoroban, rfl⟩

/-- An accepted extension is no longer than the longest term. -/
theorem Accepted.extendTo_lt
    (h : Accepted d ledger envelope passphrase validation outcome ledger' a v l₁ l₂ op)
    {extendTo : Nat} (hbody : v.op.body = .extendFootprintTtl extendTo) :
    extendTo + 1 ≤ ledger.longestTtl := by
  obtain ⟨c₁, c₂, hpassed⟩ := validate_ok h.validated
  have hshape := hpassed.footprintOp
  have hterm : (extendTo : Int) ≤ (ledger.env.maxEntryTtl : Int) - 1 := by
    by_contra hlong
    simp only [checkFootprintOp, footprintOpMalformed, hbody] at hshape
    split_ifs at hshape with _ _ hlarge
    omega
  have hmax : ledger.env.maxEntryTtl ≤ ledger.longestTtl := le_max_right _ _
  omega

/-- What an accepted footprint operation gives is no longer than the longest
term, and a word. -/
theorem Accepted.leaseEvents_short
    (h : Accepted d ledger envelope passphrase validation outcome ledger' a v l₁ l₂ op) :
    ∀ event ∈ v.op.body.leaseEvents ledger, event.Within ledger.longestTtl := by
  intro event hevent
  cases hbody : v.op.body with
  | extendFootprintTtl extendTo =>
    simp only [hbody, OperationBody.leaseEvents, List.mem_singleton] at hevent
    subst hevent
    exact h.extendTo_lt hbody
  | restoreFootprint =>
    simp only [hbody, OperationBody.leaseEvents, List.mem_singleton] at hevent
    subst hevent
    exact le_max_left _ _
  | invokeHostFunction hostFunction auth => simp [hbody, OperationBody.leaseEvents] at hevent
  | classic xdr => simp [hbody, OperationBody.leaseEvents] at hevent

theorem Accepted.newLiveUntil_lt
    (h : Accepted d ledger envelope passphrase validation outcome ledger' a v l₁ l₂ op)
    (hroom : ledger.HasRoom) : v.op.body.newLiveUntil ledger < 2 ^ 32 := by
  have hlong : ledger.env.minPersistentEntryTtl ≤ ledger.longestTtl := le_max_left _ _
  have hlast : ledger.ledgerSeq + ledger.longestTtl < 2 ^ 32 := hroom
  cases hbody : v.op.body with
  | extendFootprintTtl extendTo =>
    have hterm := h.extendTo_lt hbody
    show ledger.ledgerSeq + extendTo < 2 ^ 32
    omega
  | restoreFootprint =>
    show ledger.ledgerSeq + ledger.env.minPersistentEntryTtl - 1 < 2 ^ 32
    omega
  | invokeHostFunction hostFunction auth =>
    show ledger.ledgerSeq + ledger.env.minPersistentEntryTtl - 1 < 2 ^ 32
    omega
  | classic xdr =>
    show ledger.ledgerSeq + ledger.env.minPersistentEntryTtl - 1 < 2 ^ 32
    omega

/-- An entry that the operation lists is left on the lease the operation makes
of its own. -/
theorem TtlLaw.onLease {body : OperationBody} {keys : List LedgerKey} {entry : LedgerEntry}
    {ttl : Nat} (h : TtlLaw ledger body keys ledger') (hlisted : key ∈ keys)
    (hkey : ∀ id, key ≠ .account id) (hstored : ledger.store.lookup key = some ⟨entry, some ttl⟩) :
    ledger'.store.lookup key = some ⟨entry,
      some (Lease.leases.run ⟨ledger.ledgerSeq, ttl⟩ (body.leaseEvents ledger)).ends⟩ := by
  have hnone : ¬ body.Targets ledger ttl → ledger'.store.lookup key = some ⟨entry, some ttl⟩ := by
    intro hnot
    rw [h.others key hkey, hstored]
    intro entry' ttl' htarget
    cases hstored.symm.trans htarget.stored
    exact hnot htarget.targets
  cases body with
  | extendFootprintTtl extendTo =>
    simp only [OperationBody.leaseEvents, Machine.run_cons, Machine.run_nil, Lease.leases_next]
    by_cases hlive : Lease.Live ⟨ledger.ledgerSeq, ttl⟩
    · rw [Lease.step, if_pos hlive]
      exact h.given key entry ttl ⟨hlisted, hstored, hlive⟩
    · rw [Lease.step, if_neg hlive]
      exact hnone hlive
  | restoreFootprint =>
    simp only [OperationBody.leaseEvents, Machine.run_cons, Machine.run_nil, Lease.leases_next]
    by_cases hlive : Lease.Live ⟨ledger.ledgerSeq, ttl⟩
    · rw [Lease.step, if_pos hlive]
      exact hnone (not_lt.mpr hlive)
    · rw [Lease.step, if_neg hlive]
      exact h.given key entry ttl ⟨hlisted, hstored, not_le.mp hlive⟩
  | invokeHostFunction hostFunction auth => exact hnone id
  | classic xdr => exact hnone id

end accepted

/-! ## One call -/

/-- The entry under `key` is on this lease. -/
structure Ledger.OnLease (key : LedgerKey) (entry : LedgerEntry) (ledger : Ledger) (lease : Lease) :
    Prop where
  keyed : ledger.store.Keyed
  archival : 1 ≤ ledger.env.minPersistentEntryTtl
  now : ledger.ledgerSeq = lease.now
  stored : ledger.store.lookup key = some ⟨entry, some lease.ends⟩

/-- A call leaves an entry on the lease that these events make of its own. -/
structure LeaseStep (key : LedgerKey) (entry : LedgerEntry) (ledger ledger' : Ledger)
    (lease : Lease) (events : List Lease.Event) : Prop where
  carries : ledger.Carries ledger'
  onLease : ledger'.OnLease key entry (Lease.leases.run lease events)
  proper : ∀ event ∈ events, event.Proper
  short : ∀ event ∈ events, event.Within ledger.longestTtl

variable {entry : LedgerEntry} {lease : Lease}

/-- A call that leaves the entry alone is nothing to its lease. -/
theorem Ledger.Spares.leaseStep {ledger' : Ledger} (h : ledger.Spares key ledger')
    (hlease : ledger.OnLease key entry lease) : LeaseStep key entry ledger ledger' lease [] where
  carries := h.carries
  onLease := ⟨h.keyed, by rw [h.carries.minTtl]; exact hlease.archival,
    h.ledgerSeq.trans hlease.now, h.lookup.trans hlease.stored⟩
  proper := by simp
  short := by simp

/-- Ledgers close, and time passes for the entry. -/
theorem Ledger.OnLease.advance (hlease : ledger.OnLease key entry lease) (n : Nat)
    (hroom : ((ledgerMachine d).next ledger (.advanceLedgers n)).HasRoom) :
    LeaseStep key entry ledger ((ledgerMachine d).next ledger (.advanceLedgers n)) lease
      [.pass (toUint32 n)] := by
  have hseq : ((ledgerMachine d).next ledger (.advanceLedgers n)).ledgerSeq =
      ledger.ledgerSeq + toUint32 n := by
    have hlast : saturatingAdd32 ledger.env.ledgerSeq (toUint32 n) + ledger.longestTtl < 2 ^ 32 :=
      hroom
    have hlong : ledger.env.minPersistentEntryTtl ≤ ledger.longestTtl := le_max_left _ _
    have harchival := hlease.archival
    show saturatingAdd32 ledger.env.ledgerSeq (toUint32 n) = ledger.env.ledgerSeq + toUint32 n
    unfold saturatingAdd32 u32Max at hlast ⊢
    omega
  have hnow : ((ledgerMachine d).next ledger (.advanceLedgers n)).ledgerSeq =
      lease.now + toUint32 n := by rw [hseq, hlease.now]
  exact ⟨⟨hseq ▸ Nat.le_add_right _ _, rfl, rfl⟩,
    ⟨hlease.keyed, hlease.archival, hnow, hlease.stored⟩, by simp [Lease.Event.Proper],
    by simp [Lease.Event.Within]⟩

/-- What a footprint operation lists, it may write. -/
theorem side_subset_writes (hkey : needsTtl key = true) {body : OperationBody}
    {envelope : TransactionEnvelope} (h : key ∈ body.side envelope.footprint) :
    key ∈ envelope.access.writes := by
  refine .inr ?_
  cases body with
  | extendFootprintTtl extendTo => exact .inr ⟨h, hkey⟩
  | restoreFootprint => exact .inl h
  | invokeHostFunction hostFunction auth => exact .inl h
  | classic xdr => exact .inl h

theorem leaseEvents_leavesAlone (hkey : needsTtl key = true) {op : LedgerOp}
    (h : op.LeavesAlone d key) : leaseEvents d key ledger op = [] := by
  cases op with
  | advanceLedgers n => cases h
  | applyTransaction envelope passphrase validation =>
    simp only [leaseEvents]
    cases envelope.body? with
    | none => rfl
    | some body => exact if_neg fun hlisted => h (side_subset_writes hkey hlisted.2)
  | fundAccount seed => rfl
  | fund id opts => rfl
  | seedWasm code => rfl
  | putEntry entry liveUntil => rfl
  | removeEntry key' => rfl
  | simulate args => rfl
  | send args => rfl
  | setTimestamp t => rfl
  | snapshot => rfl
  | restore id => rfl

theorem OperationBody.leaseEvents_proper (harchival : 1 ≤ ledger.env.minPersistentEntryTtl)
    (body : OperationBody) : ∀ event ∈ body.leaseEvents ledger, event.Proper := by
  intro event hevent
  cases body with
  | extendFootprintTtl extendTo =>
    rw [List.mem_singleton.mp hevent]
    trivial
  | restoreFootprint =>
    rw [List.mem_singleton.mp hevent]
    exact harchival
  | invokeHostFunction hostFunction auth => cases hevent
  | classic xdr => cases hevent

theorem OperationBody.leaseEvents_now (body : OperationBody) (lease : Lease) :
    (Lease.leases.run lease (body.leaseEvents ledger)).now = lease.now := by
  cases body with
  | extendFootprintTtl extendTo =>
    simp only [leaseEvents, Machine.run_cons, Machine.run_nil, Lease.leases_next, Lease.step]
    split <;> rfl
  | restoreFootprint =>
    simp only [leaseEvents, Machine.run_cons, Machine.run_nil, Lease.leases_next, Lease.step]
    split <;> rfl
  | invokeHostFunction hostFunction auth => rfl
  | classic xdr => rfl

/-- A footprint transaction that returns leaves the entry on the lease its
operation makes of it, if it lists the entry and succeeds. -/
theorem Ledger.OnLease.applied (hkeyed : d.ReturnsKeyed) (hkey : needsTtl key = true)
    (hlease : ledger.OnLease key entry lease) (hroom : ledger.HasRoom) {op : LedgerOp}
    (h : op.MovesTtls d ledger) :
    LeaseStep key entry ledger ((ledgerMachine d).next ledger op) lease
      (leaseEvents d key ledger op) := by
  have haccount : ∀ id, key ≠ .account id := by
    intro id heq
    rw [heq] at hkey
    cases hkey
  cases op with
  | applyTransaction envelope passphrase validation =>
    obtain ⟨⟨body, hbody, hinvoke⟩, outcome, ledger', hrun⟩ := h
    have hnext : (ledgerMachine d).next ledger (.applyTransaction envelope passphrase validation) =
        ledger' := by
      rw [ledgerMachine_next, LedgerOp.perform, finalState_map, hrun]
      rfl
    have hevents : leaseEvents d key ledger (.applyTransaction envelope passphrase validation) =
        if outcome.ok = true ∧ key ∈ body.side envelope.footprint then body.leaseEvents ledger
        else [] := by
      have hout : (ledgerMachine d).out ledger
          (.applyTransaction envelope passphrase validation) = .ok (.applied outcome) := by
        show answer (LedgerOp.perform d (.applyTransaction envelope passphrase validation) ledger) =
          .ok (.applied outcome)
        simp only [LedgerOp.perform, bind, EStateM.bind, hrun]
        rfl
      simp only [leaseEvents, hbody, hout, LedgerAnswer.succeeded]
    have hframe := applyTransaction_storesOnly d envelope passphrase validation ledger
    have hstore := applyTransaction_keyed hkeyed hlease.keyed envelope passphrase validation
    rw [hrun, finalState_ok] at hframe hstore
    rw [hnext, hevents]
    rcases applyTransaction_ok hrun with ⟨hrejected, rfl⟩ | ⟨-, a, v, l₁, l₂, op, haccepted⟩
    · rw [if_neg fun hok => Bool.false_ne_true ((ok_of_rejected hrun hrejected).symm.trans hok.1)]
      exact (Ledger.Spares.refl hlease.keyed).leaseStep hlease
    · obtain ⟨hsame, hfootprint⟩ := haccepted.body?_eq
      cases hbody.symm.trans hsame
      have htx := haccepted.footprintTransaction hinvoke
      have hlaw : outcome.ok = true →
          TtlLaw ledger v.op.body (v.op.body.side envelope.footprint) ledger' := by
        intro hok
        rw [hfootprint]
        exact (footprint_applied hlease.keyed htx hrun hok).ttlLaw hlease.archival
          fun _ _ _ => haccepted.newLiveUntil_lt hroom
      by_cases hlisted : outcome.ok = true ∧ key ∈ v.op.body.side envelope.footprint
      · rw [if_pos hlisted]
        have hstored := (hlaw hlisted.1).onLease hlisted.2 haccount hlease.stored
        rw [hlease.now] at hstored
        obtain ⟨store, cache, rfl⟩ := hframe
        exact ⟨⟨le_rfl, rfl, rfl⟩, ⟨hstore, hlease.archival,
          hlease.now.trans (v.op.body.leaseEvents_now lease).symm, hstored⟩,
          v.op.body.leaseEvents_proper hlease.archival, haccepted.leaseEvents_short⟩
      · rw [if_neg hlisted]
        refine (hframe.spares hstore ?_).leaseStep hlease
        cases hok : outcome.ok with
        | false => exact footprint_failed hlease.keyed htx hrun hok haccount
        | true =>
          exact (hlaw hok).others key haccount fun _ _ htarget => hlisted ⟨hok, htarget.listed⟩
  | _ => cases h

/-- Every call of an entry's life is a step of its lease. -/
theorem Ledger.OnLease.step (hkeyed : d.ReturnsKeyed) (hreturns : d.ReturnsFootprint)
    (hseeds : d.SeedsKeyed) (hkey : needsTtl key = true) (hlease : ledger.OnLease key entry lease)
    {op : LedgerOp} (h : op.Ordinary d key ledger) (hroom : ledger.HasRoom)
    (hroom' : ((ledgerMachine d).next ledger op).HasRoom) :
    LeaseStep key entry ledger ((ledgerMachine d).next ledger op) lease
      (leaseEvents d key ledger op) := by
  rcases h with halone | hmoves | ⟨n, rfl⟩
  · rw [leaseEvents_leavesAlone hkey halone]
    exact (halone.spares hkeyed hreturns hseeds hlease.keyed hkey).leaseStep hlease
  · exact hlease.applied hkeyed hkey hroom hmoves
  · exact hlease.advance n hroom'

/-! ## Runs -/

/-- A run from the lease `start` has come to this ledger through these events,
none of which gave a longer term than `longest`. -/
structure Ledger.Lived (key : LedgerKey) (entry : LedgerEntry) (start : Lease) (longest : Nat)
    (ledger : Ledger) (events : List Lease.Event) : Prop where
  hasRoom : ledger.HasRoom
  longestTtl : ledger.longestTtl = longest
  onLease : ledger.OnLease key entry (Lease.leases.run start events)
  given : ∀ event ∈ events, event.Proper ∧ event.Within longest

theorem Ledger.Lived.step {start : Lease} {longest : Nat} {events : List Lease.Event}
    (hkeyed : d.ReturnsKeyed) (hreturns : d.ReturnsFootprint) (hseeds : d.SeedsKeyed)
    (hkey : needsTtl key = true) (h : Ledger.Lived key entry start longest ledger events)
    {op : LedgerOp} (hop : op.Ordinary d key ledger)
    (hroom : ((ledgerMachine d).next ledger op).HasRoom) :
    Ledger.Lived key entry start longest ((ledgerMachine d).next ledger op)
      (events ++ leaseEvents d key ledger op) := by
  have hstep := h.onLease.step hkeyed hreturns hseeds hkey hop h.hasRoom hroom
  refine ⟨hroom, hstep.carries.longestTtl.trans h.longestTtl, ?_, fun event hevent => ?_⟩
  · rw [Machine.run_append]
    exact hstep.onLease
  · rcases List.mem_append.mp hevent with hold | hnew
    · exact h.given event hold
    · exact ⟨hstep.proper event hnew, h.longestTtl ▸ hstep.short event hnew⟩

/-- The life of an entry, over a run of the ledger that touches it through
footprint operations only.  The entry stays as it is.  Its TTL is the latest
it was ever given, no more than the longest term away unless it was from the
start, and it moves no more once it has run out and nobody restores it. -/
theorem ledgerMachine_leases (hkeyed : d.ReturnsKeyed) (hreturns : d.ReturnsFootprint)
    (hseeds : d.SeedsKeyed) {ttl : Nat} (hkey : needsTtl key = true)
    (hstore : ledger.store.Keyed) (harchival : 1 ≤ ledger.env.minPersistentEntryTtl)
    (hstored : ledger.store.lookup key = some ⟨entry, some ttl⟩) (hroom : ledger.HasRoom)
    {ops : List LedgerOp} (hops : (ledgerMachine d).AllSteps
      (fun l op => op.Ordinary d key l ∧ ((ledgerMachine d).next l op).HasRoom) ledger ops) :
    let final := (ledgerMachine d).run ledger ops
    let events := (ledgerMachine d).collect (leaseEvents d key) ledger ops
    let lease := Lease.leases.run ⟨ledger.ledgerSeq, ttl⟩ events
    (final.ledgerSeq = lease.now ∧ final.store.lookup key = some ⟨entry, some lease.ends⟩) ∧
      IsGreatest {t | t = ttl ∨ t ∈ Lease.grants ⟨ledger.ledgerSeq, ttl⟩ events} lease.ends ∧
      lease.ends ≤ max ttl (final.ledgerSeq + ledger.longestTtl - 1) ∧
      (ttl < ledger.ledgerSeq → (∀ event ∈ events, ∀ n, event ≠ .renew n) → lease.ends = ttl) := by
  intro final events lease
  have hstart : Ledger.Lived key entry ⟨ledger.ledgerSeq, ttl⟩ ledger.longestTtl ledger [] :=
    ⟨hroom, rfl, ⟨hstore, harchival, rfl, hstored⟩, by simp⟩
  have hrun : Ledger.Lived key entry ⟨ledger.ledgerSeq, ttl⟩ ledger.longestTtl final
      ([] ++ events) :=
    (ledgerMachine d).collect_run (leaseEvents d key)
      (fun _ _ _ hl hop => hl.step hkeyed hreturns hseeds hkey hop.1 hop.2) hstart hops
  rw [List.nil_append] at hrun
  refine ⟨⟨hrun.onLease.now, hrun.onLease.stored⟩,
    Lease.ends_run fun event hevent => (hrun.given event hevent).1, ?_,
    fun harchived hnone => (Lease.lapsed_run (not_le.mpr harchived) hnone).1⟩
  rw [hrun.onLease.now]
  exact Lease.ends_le_run fun event hevent => (hrun.given event hevent).2

end spares

/-! ## A balance -/

def laterExtendEnvelope : TransactionV1Envelope :=
  let envelope := sampleEnvelope 7 2 none
  { envelope with tx := { envelope.tx with
      operations := [⟨none, .extendFootprintTtl 200000⟩]
      ext := .sorobanData ⟨.v0, ⟨⟨[balanceKey .persistent], []⟩, 0, 100, 0⟩, 0⟩ } }

/-- A balance is restored, and extended fifty ledgers later. -/
def balanceLife : List LedgerOp :=
  [.applyTransaction (.envelopeTypeTx restoreEnvelope) "" {}, .advanceLedgers 50,
    .applyTransaction (.envelopeTypeTx laterExtendEnvelope) "" {}]

theorem balanceLife_ordinary : (ledgerMachine sizedHost).AllSteps
    (fun l op => op.Ordinary sizedHost (balanceKey .persistent) l ∧
      ((ledgerMachine sizedHost).next l op).HasRoom) archivedLedger balanceLife := by
  unfold Ledger.HasRoom
  exact ⟨⟨.inr (.inl ⟨⟨_, rfl, rfl⟩, _, _, rfl⟩), by decide +kernel⟩,
    ⟨.inr (.inr ⟨50, rfl⟩), by decide +kernel⟩,
    ⟨.inr (.inl ⟨⟨_, rfl, rfl⟩, _, _, rfl⟩), by decide +kernel⟩, trivial⟩

/-- The balance is renewed for the shortest term, and extended from there. -/
theorem ledgerMachine_leases_balance :
    let final := (ledgerMachine sizedHost).run archivedLedger balanceLife
    let events := (ledgerMachine sizedHost).collect
      (leaseEvents sizedHost (balanceKey .persistent)) archivedLedger balanceLife
    events = [.renew 120960, .pass 50, .extend 200000] ∧
      final.getEntryTtl (balanceKey .persistent) = some 201050 := by
  intro final events
  have hevents : events = [.renew 120960, .pass 50, .extend 200000] := by decide +kernel
  have hbefore : archivedLedger.store.lookup (balanceKey .persistent) = some
      ⟨⟨900, .contractData ⟨⟨[1]⟩, ⟨[2]⟩, .persistent, ⟨[3]⟩⟩, .v0⟩, some 900⟩ := rfl
  obtain ⟨⟨-, hstored⟩, -⟩ := ledgerMachine_leases (d := sizedHost)
    (fun input ch h => absurd h (idle_returns input ch))
    (fun input ch h => absurd h (idle_returns input ch)) (fun _ => rfl) rfl
    archivedLedger_premises.keyed (by decide) hbefore (by unfold Ledger.HasRoom; decide)
    balanceLife_ordinary
  refine ⟨hevents, ?_⟩
  rw [(getEntry_eq final _).2, hstored]
  exact congrArg (fun evs => some (Lease.leases.run ⟨1000, 900⟩ evs).ends) hevents

end LiteSoroban

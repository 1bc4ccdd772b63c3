import LiteSoroban.Classic.FootprintApplied

/-!
# The TTLs a footprint transaction leaves

The comments on the two operations say which TTL each leaves.  `TtlLaw` is
that, for every entry of the store.  The TTL is a sum of JavaScript numbers and
is stored in a `u32`, so it wraps at the end of the ledger numbers, and
`footprintTtls_iff` says that nothing else keeps a transaction from the law.
-/

namespace LiteSoroban

section ttlLaw

variable {d : Deps} {ledger ledger' : Ledger} {envelope : TransactionEnvelope}
  {passphrase : String} {validation : ValidationOptions} {outcome : TxOutcome}
  {body : OperationBody} {resources : SorobanResources}

/-! ## The documented TTLs -/

/-- Whether a footprint operation is for an entry with this TTL: an extension
for a live one, a restore for an archived one. -/
def OperationBody.Targets (ledger : Ledger) (body : OperationBody) (ttl : Nat) : Prop :=
  match body with
  | .extendFootprintTtl _ => ledger.ledgerSeq ≤ ttl
  | .restoreFootprint => ttl < ledger.ledgerSeq
  | _ => False

/-- The TTL it is to leave such an entry with. -/
def OperationBody.finalTtl (ledger : Ledger) (body : OperationBody) (ttl : Nat) : Nat :=
  match body with
  | .extendFootprintTtl extendTo => max ttl (ledger.ledgerSeq + extendTo)
  | _ => ledger.ledgerSeq + ledger.env.minPersistentEntryTtl - 1

/-- A stored entry that a footprint operation over `keys` is for. -/
structure TtlTarget (ledger : Ledger) (body : OperationBody) (keys : List LedgerKey)
    (key : LedgerKey) (entry : LedgerEntry) (ttl : Nat) : Prop where
  listed : key ∈ keys
  stored : ledger.store.lookup key = some ⟨entry, some ttl⟩
  targets : body.Targets ledger ttl

/-- What the two operations are documented to do to the TTLs.  Accounts have
none, and are rewritten by the fee and the sequence number. -/
structure TtlLaw (ledger : Ledger) (body : OperationBody) (keys : List LedgerKey)
    (ledger' : Ledger) : Prop where
  given : ∀ key entry ttl, TtlTarget ledger body keys key entry ttl →
    ledger'.store.lookup key = some ⟨entry, some (body.finalTtl ledger ttl)⟩
  notLowered : ∀ key entry ttl, (∀ id, key ≠ .account id) →
    ledger.store.lookup key = some ⟨entry, some ttl⟩ →
    ∃ ttl', ledger'.store.lookup key = some ⟨entry, some ttl'⟩ ∧ ttl ≤ ttl'
  current : ∀ key entry ttl ttl', TtlTarget ledger body keys key entry ttl →
    ledger'.getEntryTtl key = some ttl' → ledger.ledgerSeq ≤ ttl'
  others : ∀ key, (∀ id, key ≠ .account id) →
    (∀ entry ttl, ¬ TtlTarget ledger body keys key entry ttl) →
    ledger'.store.lookup key = ledger.store.lookup key
  entries : ∀ key, (∀ id, key ≠ .account id) → ledger'.getEntry key = ledger.getEntry key

/-- A moved entry is a target, and its new TTL the documented one. -/
theorem moveOf_target {key : LedgerKey} {m : TtlMove} (h : body.moveOf ledger key = some m) :
    ∃ ttl, ledger.store.lookup key = some ⟨m.entry, some ttl⟩ ∧ body.Targets ledger ttl ∧
      body.finalTtl ledger ttl = body.newLiveUntil ledger := by
  obtain ⟨entry, ttl, hstored, ⟨extendTo, rfl, hlive, hshort, rfl⟩ | ⟨rfl, harchived, rfl⟩⟩ :=
    moveOf_cases h
  · exact ⟨ttl, hstored, hlive, Nat.max_eq_right hshort.le⟩
  · exact ⟨ttl, hstored, harchived, rfl⟩

/-- A target is moved, or it has the documented TTL already. -/
theorem TtlTarget.moved {keys : List LedgerKey} {key : LedgerKey} {entry : LedgerEntry} {ttl : Nat}
    (h : TtlTarget ledger body keys key entry ttl) :
    (∃ m, body.moveOf ledger key = some m ∧ m.entry = entry ∧
        body.finalTtl ledger ttl = body.newLiveUntil ledger) ∨
      (body.moveOf ledger key = none ∧ body.finalTtl ledger ttl = ttl) := by
  have htargets := h.targets
  simp only [OperationBody.moveOf, h.stored]
  cases body with
  | extendFootprintTtl extendTo =>
    have hlive : ledger.ledgerSeq ≤ ttl := htargets
    by_cases hlong : ledger.ledgerSeq + extendTo ≤ ttl
    · exact .inr ⟨if_neg (by omega), Nat.max_eq_left hlong⟩
    · exact .inl ⟨_, if_pos ⟨hlive, not_le.mp hlong⟩, rfl, Nat.max_eq_right (by omega)⟩
  | restoreFootprint =>
    have harchived : ttl < ledger.ledgerSeq := htargets
    exact .inl ⟨_, if_pos harchived, rfl, rfl⟩
  | invokeHostFunction hostFunction auth => cases htargets
  | classic xdr => cases htargets

/-- No TTL the documentation gives an entry is below the entry's, or below the
current ledger. -/
theorem finalTtl_ge (harchival : 1 ≤ ledger.env.minPersistentEntryTtl) {ttl : Nat}
    (h : body.Targets ledger ttl) :
    ttl ≤ body.finalTtl ledger ttl ∧ ledger.ledgerSeq ≤ body.finalTtl ledger ttl := by
  cases body with
  | extendFootprintTtl extendTo =>
    have hlive : ledger.ledgerSeq ≤ ttl := h
    exact ⟨le_max_left _ _, hlive.trans (le_max_left _ _)⟩
  | restoreFootprint =>
    have harchived : ttl < ledger.ledgerSeq := h
    show ttl ≤ ledger.ledgerSeq + ledger.env.minPersistentEntryTtl - 1 ∧
      ledger.ledgerSeq ≤ ledger.ledgerSeq + ledger.env.minPersistentEntryTtl - 1
    omega
  | invokeHostFunction hostFunction auth => cases h
  | classic xdr => cases h

/-- Moves whose new TTL fits a word leave the documented TTLs. -/
theorem FootprintApplied.ttlLaw {keys : List LedgerKey}
    (harchival : 1 ≤ ledger.env.minPersistentEntryTtl)
    (h : FootprintApplied d ledger body keys outcome ledger')
    (hfits : ∀ key ∈ keys, (body.moveOf ledger key).isSome →
      body.newLiveUntil ledger < 2 ^ 32) :
    TtlLaw ledger body keys ledger' := by
  have hgiven : ∀ key entry ttl, TtlTarget ledger body keys key entry ttl →
      ledger'.store.lookup key = some ⟨entry, some (body.finalTtl ledger ttl)⟩ := by
    intro key entry ttl htarget
    rw [h.lookup key (h.not_account htarget.listed)]
    rcases htarget.moved with ⟨m, hpick, rfl, hfinal⟩ | ⟨hnone, hfinal⟩
    · have hword := hfits key htarget.listed (by rw [hpick]; rfl)
      rw [lookup_putStore_moved htarget.listed hpick, toUint32_of_lt hword, hfinal]
    · rw [lookup_putStore_unmoved fun _ => hnone, htarget.stored, hfinal]
  have hothers : ∀ key, (∀ id, key ≠ .account id) →
      (∀ entry ttl, ¬ TtlTarget ledger body keys key entry ttl) →
      ledger'.store.lookup key = ledger.store.lookup key := by
    intro key haccount hnone
    rw [h.lookup key haccount, lookup_putStore_unmoved]
    intro hkey
    cases hpick : body.moveOf ledger key with
    | none => rfl
    | some m =>
      obtain ⟨ttl, hstored, htargets, -⟩ := moveOf_target hpick
      exact absurd ⟨hkey, hstored, htargets⟩ (hnone m.entry ttl)
  refine ⟨hgiven, fun key entry ttl haccount hstored => ?_,
    fun key entry ttl ttl' htarget httl => ?_, hothers, fun key haccount => ?_⟩
  · by_cases htarget : TtlTarget ledger body keys key entry ttl
    · exact ⟨_, hgiven key entry ttl htarget, (finalTtl_ge harchival htarget.targets).1⟩
    · refine ⟨ttl, ?_, le_rfl⟩
      rw [hothers key haccount, hstored]
      intro entry' ttl' htarget'
      cases hstored.symm.trans htarget'.stored
      exact htarget htarget'
  · rw [(getEntry_eq ledger' key).2, hgiven key entry ttl htarget] at httl
    cases httl
    exact (finalTtl_ge harchival htarget.targets).2
  · rw [(getEntry_eq ledger' key).1, (getEntry_eq ledger key).1]
    by_cases htarget : ∃ entry ttl, TtlTarget ledger body keys key entry ttl
    · obtain ⟨entry, ttl, htarget⟩ := htarget
      rw [hgiven key entry ttl htarget, htarget.stored]
      rfl
    · rw [hothers key haccount fun entry ttl ht => htarget ⟨entry, ttl, ht⟩]

/-- **The TTLs of a footprint transaction.**  One that fails rewrites accounts
at most.  One that succeeds leaves the documented TTLs exactly when the new
TTL fits the `u32` it is stored in, or nothing is given it. -/
theorem footprintTtls_iff (hkeyed : ledger.store.Keyed)
    (harchival : 1 ≤ ledger.env.minPersistentEntryTtl)
    (htx : FootprintTransaction envelope body resources)
    (h : applyTransaction d envelope passphrase validation ledger = .ok outcome ledger') :
    (outcome.ok = true → (TtlLaw ledger body (body.side resources.footprint) ledger' ↔
      ∀ key ∈ body.side resources.footprint, (body.moveOf ledger key).isSome →
        body.newLiveUntil ledger < 2 ^ 32)) ∧
    (outcome.ok = false → ∀ key, (∀ id, key ≠ .account id) →
      ledger'.store.lookup key = ledger.store.lookup key) := by
  refine ⟨fun hok => ?_, fun hok key hkey => footprint_failed hkeyed htx h hok hkey⟩
  have happlied := footprint_applied hkeyed htx h hok
  refine ⟨fun hlaw key hkey hsome => ?_, happlied.ttlLaw harchival⟩
  -- The stored TTL is a word, so a documented TTL that is stored is one too.
  obtain ⟨m, hpick⟩ := Option.isSome_iff_exists.mp hsome
  obtain ⟨ttl, hstored, htargets, hfinal⟩ := moveOf_target hpick
  have hgiven := hlaw.given key m.entry ttl ⟨hkey, hstored, htargets⟩
  rw [happlied.lookup key (happlied.not_account hkey), lookup_putStore_moved hkey hpick,
    hfinal] at hgiven
  have hword : toUint32 (body.newLiveUntil ledger) = body.newLiveUntil ledger := by
    simpa using hgiven
  rw [← hword]
  exact Nat.mod_lt _ (by decide)

end ttlLaw

/-! ## Two balances -/

/-- The archived balance comes back with the TTL of a new entry. -/
theorem footprintTtls_iff_balance : ∃ outcome ledger',
    applyTransaction sizedHost (.envelopeTypeTx restoreEnvelope) "" {} archivedLedger =
      .ok outcome ledger' ∧
    TtlLaw archivedLedger .restoreFootprint [balanceKey .persistent] ledger' := by
  obtain ⟨outcome, ledger', hrun, hok⟩ : ∃ outcome ledger',
      applyTransaction sizedHost (.envelopeTypeTx restoreEnvelope) "" {} archivedLedger =
        .ok outcome ledger' ∧ outcome.ok = true := ⟨_, _, rfl, rfl⟩
  refine ⟨outcome, ledger', hrun, ?_⟩
  apply ((footprintTtls_iff archivedLedger_premises.keyed archivedLedger_premises.archival
    restoreEnvelope_footprint hrun).1 hok).mpr
  intro _ _ _
  decide

/-- A live balance near the end of the ledger numbers. -/
def lastLedger : Ledger :=
  let ledger := (sampleLedger 7).withStore ((sampleLedger 7).store.insert (balanceKey .persistent)
    ⟨⟨900, .contractData ⟨⟨[1]⟩, ⟨[2]⟩, .persistent, ⟨[3]⟩⟩, .v0⟩, some 4294967100⟩)
  { ledger with env := { ledger.env with ledgerSeq := 4294967000 } }

def extendEnvelope : TransactionV1Envelope :=
  let envelope := sampleEnvelope 7 1 none
  { envelope with tx := { envelope.tx with
      operations := [⟨none, .extendFootprintTtl 1000⟩]
      ext := .sorobanData ⟨.v0, ⟨⟨[balanceKey .persistent], []⟩, 0, 0, 0⟩, 0⟩ } }

/-- An extension past the last `u32` takes its balance's TTL round to the
first ledgers. -/
theorem footprintTtls_lowered : ∃ outcome ledger',
    applyTransaction sizedHost (.envelopeTypeTx extendEnvelope) "" {} lastLedger =
      .ok outcome ledger' ∧
    outcome.ok = true ∧
    lastLedger.getEntryTtl (balanceKey .persistent) = some 4294967100 ∧
    ledger'.getEntryTtl (balanceKey .persistent) = some 704 ∧
    ¬ TtlLaw lastLedger (.extendFootprintTtl 1000) [balanceKey .persistent] ledger' := by
  obtain ⟨outcome, ledger', hrun, hok, hbefore, hafter⟩ : ∃ outcome ledger',
      applyTransaction sizedHost (.envelopeTypeTx extendEnvelope) "" {} lastLedger =
        .ok outcome ledger' ∧
      outcome.ok = true ∧
      lastLedger.store.lookup (balanceKey .persistent) = some
        ⟨⟨900, .contractData ⟨⟨[1]⟩, ⟨[2]⟩, .persistent, ⟨[3]⟩⟩, .v0⟩, some 4294967100⟩ ∧
      ledger'.getEntryTtl (balanceKey .persistent) = some 704 := ⟨_, _, rfl, rfl, rfl, rfl⟩
  refine ⟨outcome, ledger', hrun, hok, ?_, hafter, fun hlaw => ?_⟩
  · rw [(getEntry_eq lastLedger _).2, hbefore]
    rfl
  · have hlive : 4294967000 ≤ 4294967100 := by decide
    have hcurrent := hlaw.current _ _ _ _ ⟨List.mem_singleton_self _, hbefore, hlive⟩ hafter
    exact absurd hcurrent (by decide)

end LiteSoroban

import LiteSoroban.Classic.Locality
import LiteSoroban.Ledger.Machine

/-!
# Transactions in any order

Two transactions are independent when neither writes what the other touches:
no account of one is the source or the payer of the other, and their
footprints overlap in nothing that either may write.

`ledgerMachine_independent` is about a run of such transactions.  Each answers
what it answers on its own, and leaves under its keys what it leaves there on
its own.  `ledgerMachine_perm` says that their order does not matter.  In any
order they answer the same, and the ledger ends with the same store.
-/

namespace LiteSoroban

open Effect

/-- A transaction as a test submits it. -/
structure Submitted where
  envelope : TransactionEnvelope
  passphrase : String
  validation : ValidationOptions

namespace Submitted

def op (tx : Submitted) : LedgerOp := .applyTransaction tx.envelope tx.passphrase tx.validation

/-- What the transaction answers on this ledger, on its own. -/
def answer (d : Deps) (ledger : Ledger) (tx : Submitted) : Except JsError LedgerAnswer :=
  (ledgerMachine d).out ledger tx.op

/-- The ledger after this transaction, on its own. -/
def final (d : Deps) (ledger : Ledger) (tx : Submitted) : Ledger :=
  (ledgerMachine d).next ledger tx.op

end Submitted

/-- No transaction of the list writes what another one touches. -/
def Independent (txs : List Submitted) : Prop :=
  txs.Pairwise fun tx tx' => tx.envelope.access.Independent tx'.envelope.access

/-- What the host and the code cache may be relied on for: the host looks at
code it can use, the hash of code tells it apart, and what the host returns is
keyed by its entries and within the footprint of the call. -/
structure Deps.CallsLocally (d : Deps) (codes : Set Bytes) : Prop where
  reads : d.ReadsUsedCode
  hashes : d.HashesCode codes
  keyed : d.ReturnsKeyed
  footprint : d.ReturnsFootprint

/-- A ledger whose store is keyed by its entries, whose cache holds parsed
modules, and whose code stands under its hash. -/
structure Ledger.Addressed (d : Deps) (codes : Set Bytes) (ledger : Ledger) : Prop where
  keyed : ledger.store.Keyed
  cache : ledger.env.CacheParsed d codes
  code : ∀ key, d.StandsUnderHash codes key (ledger.store.lookup key)

section Programs

variable {d : Deps} {codes : Set Bytes}

theorem Ledger.Addressed.beside {ledger : Ledger} (h : ledger.Addressed d codes) :
    (d.ledgerTable codes).Beside ledger ledger :=
  ⟨refl_of Ledger.StoreOnly ledger, ⟨h.keyed, h.cache⟩, h.keyed, h.cache⟩

/-- An account is no code. -/
theorem Ledger.Addressed.withAccount {ledger : Ledger} (h : ledger.Addressed d codes)
    (account : AccountEntry) : (ledger.withAccount account).Addressed d codes where
  keyed := ledger.withAccount_keyed h.keyed account
  cache := h.cache
  code key := by
    by_cases hkey : key = .account account.accountId
    · rw [hkey]
      trivial
    · rw [ledger.lookup_withAccount_of_ne hkey]
      exact h.code key

theorem Submitted.isLocal (hd : d.CallsLocally codes) (tx : Submitted) :
    (d.ledgerTable codes).Local tx.envelope.access (tx.op.perform d) :=
  (applyTransaction_local hd.reads hd.hashes hd.keyed hd.footprint tx.envelope tx.passphrase
    tx.validation).map LedgerAnswer.applied

/-- A transaction sees the entries it names.  On two ledgers that agree on
these, whatever else they store, it answers the same and leaves the same under
the keys it names.  Under any other key it leaves each ledger as it was. -/
theorem applyTransaction_sees (hd : d.CallsLocally codes) {ledger ledger' : Ledger}
    (hledger : ledger.Addressed d codes) (hledger' : ledger'.Addressed d codes)
    (hframe : ledger.StoreOnly ledger') (tx : Submitted)
    (hsame : ∀ key ∈ tx.envelope.access.reads, ledger.store.lookup key = ledger'.store.lookup key) :
    tx.answer d ledger' = tx.answer d ledger ∧
      (∀ key ∈ tx.envelope.access.reads,
        (tx.final d ledger).store.lookup key = (tx.final d ledger').store.lookup key) ∧
      ∀ key, key ∉ tx.envelope.access.reads →
        (tx.final d ledger).store.lookup key = ledger.store.lookup key ∧
        (tx.final d ledger').store.lookup key = ledger'.store.lookup key := by
  have hlocal := tx.isLocal hd
  have hagree := hlocal.reads ledger ledger'
    ⟨⟨hframe, ⟨hledger.keyed, hledger.cache⟩, hledger'.keyed, hledger'.cache⟩, hsame⟩
    fun key _ => hledger.code key
  refine ⟨hagree.answers, hagree.ends.lookup, fun key hkey => ?_⟩
  have hnot : key ∉ tx.envelope.access.writes := fun hwrites => hkey (tx.envelope.access.sub hwrites)
  exact ⟨hlocal.frame ledger hledger.beside key hnot, hlocal.frame ledger' hledger'.beside key hnot⟩

/-- A run of transactions is a run of the programs that apply them. -/
theorem ledgerMachine_comap (d : Deps) :
    Table.programs (fun tx : Submitted => tx.op.perform d) = (ledgerMachine d).comap (·.op) := rfl

/-- Independent transactions do not see one another.  Each answers what it
answers on its own, and the run leaves what they leave on their own: under the
keys that one of them writes what that one leaves there, and under every other
key what was there. -/
theorem ledgerMachine_independent (hd : d.CallsLocally codes) {ledger : Ledger}
    (hledger : ledger.Addressed d codes) {txs : List Submitted} (hind : Independent txs) :
    (ledgerMachine d).outs ledger (txs.map (·.op)) = txs.map (·.answer d ledger) ∧
      ledger.StoreOnly ((ledgerMachine d).run ledger (txs.map (·.op))) ∧
      ∀ key,
        (∀ tx ∈ txs, key ∈ tx.envelope.access.writes →
          ((ledgerMachine d).run ledger (txs.map (·.op))).store.lookup key =
            (tx.final d ledger).store.lookup key) ∧
        ((∀ tx ∈ txs, key ∉ tx.envelope.access.writes) →
          ((ledgerMachine d).run ledger (txs.map (·.op))).store.lookup key =
            ledger.store.lookup key) := by
  have hlocal : ∀ tx ∈ txs, (d.ledgerTable codes).Local tx.envelope.access (tx.op.perform d) :=
    fun tx _ => tx.isLocal hd
  obtain ⟨houts, heffects⟩ := Table.run_independent hlocal hind hledger.beside
    fun tx _ key _ => hledger.code key
  rw [ledgerMachine_comap, Machine.outs_comap] at houts
  rw [ledgerMachine_comap, Machine.run_comap] at heffects
  exact ⟨houts, heffects.beside.1, fun key =>
    ⟨fun tx htx hkey => heffects.written tx htx key hkey, heffects.untouched key⟩⟩

/-- Two ledgers that agree under every key, and beside the store, differ at
most in the module cache. -/
theorem ledgerTable_same {ledger ledger' : Ledger}
    (h : (d.ledgerTable codes).Same ledger ledger') :
    ∃ cache, ledger' = { ledger with env := { ledger.env with moduleCache := cache } } := by
  obtain ⟨⟨⟨store, cache, rfl⟩, -⟩, hlookup⟩ := h
  have hstore : ledger.env.store = store := Finmap.ext_lookup fun key => hlookup key trivial
  subst hstore
  exact ⟨cache, rfl⟩

/-- The order of independent transactions does not matter.  In any order each
answers what it answers on its own, and the ledger ends the same, but for the
module cache. -/
theorem ledgerMachine_perm (hd : d.CallsLocally codes) {ledger : Ledger}
    (hledger : ledger.Addressed d codes) {txs txs' : List Submitted} (hperm : txs.Perm txs')
    (hind : Independent txs) :
    (ledgerMachine d).outs ledger (txs.map (·.op)) = txs.map (·.answer d ledger) ∧
      (ledgerMachine d).outs ledger (txs'.map (·.op)) = txs'.map (·.answer d ledger) ∧
      ∃ cache, (ledgerMachine d).run ledger (txs'.map (·.op)) =
        { (ledgerMachine d).run ledger (txs.map (·.op)) with
          env := { ((ledgerMachine d).run ledger (txs.map (·.op))).env with
            moduleCache := cache } } := by
  have hlocal : ∀ tx ∈ txs, (d.ledgerTable codes).Local tx.envelope.access (tx.op.perform d) :=
    fun tx _ => tx.isLocal hd
  obtain ⟨hsame, houts, houts'⟩ := Table.run_perm hperm hlocal hind hledger.beside
    fun tx _ key _ => hledger.code key
  rw [ledgerMachine_comap, Machine.outs_comap] at houts houts'
  rw [ledgerMachine_comap, Machine.run_comap, Machine.run_comap] at hsame
  exact ⟨houts, houts', ledgerTable_same hsame⟩

end Programs

/-! ## Two calls -/

/-- A data entry written anew, whatever it was. -/
def stampedChange : LedgerKey → Option LedgerEntryChange
  | .contractData contract key durability =>
    some ⟨false, ⟨8, some (.contractData contract key durability)⟩, 0,
      some ⟨12, some ⟨900, .contractData ⟨contract, key, durability, ⟨[3]⟩⟩, .v0⟩⟩, 0, none⟩
  | _ => none

/-- A host that compiles code, and writes every data entry it may write. -/
def stampingDeps : Deps :=
  { compilingDeps with
    invokeHostFunction := fun input =>
      ⟨.ok ⟨.ok ⟨4, some ⟨[]⟩⟩, input.resources.footprint.readWrite.filterMap stampedChange, []⟩,
        0, 0, []⟩ }

theorem stampingDeps_returns {input : HostInput} {ch : LedgerEntryChange}
    (h : stampingDeps.Returns input ch) : ∃ contract key durability,
      .contractData contract key durability ∈ input.resources.footprint.readWrite ∧
        stampedChange (.contractData contract key durability) = some ch := by
  obtain ⟨res, hres, hch⟩ := h
  cases hres
  obtain ⟨k, hk, hstamped⟩ := List.mem_filterMap.mp hch
  cases k with
  | contractData contract key durability => exact ⟨contract, key, durability, hk, hstamped⟩
  | account id => cases hstamped
  | trustline id asset => cases hstamped
  | contractCode hash => cases hstamped
  | unsupported type xdr => cases hstamped

theorem stampingDeps_callsLocally (codes : Set Bytes) : stampingDeps.CallsLocally codes where
  reads input input' hseen := by
    have hresources : input.resources = input'.resources := congrArg (fun seen => seen.resources) hseen
    simp only [stampingDeps, hresources]
  hashes := ⟨(compilingDeps_hashesCode codes).filed, (compilingDeps_hashesCode codes).injective⟩
  keyed input ch h key newValue entry hkey hnew hentry := by
    obtain ⟨contract, k, durability, -, hstamped⟩ := stampingDeps_returns h
    cases hstamped
    cases hkey
    cases hnew
    cases hentry
    rfl
  footprint input ch h := by
    obtain ⟨contract, k, durability, hmem, hstamped⟩ := stampingDeps_returns h
    cases hstamped
    refine ⟨fun key hkey => ?_, fun key hkey _ => ?_, fun key _ hmoved => ?_⟩
    · cases hkey
      exact List.mem_append_right _ hmem
    · cases hkey
      exact hmem
    · cases hmoved

/-- A call by one account that writes one entry of a contract, and reads the
account of another key. -/
def slotEnvelope (seed slot : UInt8) : TransactionV1Envelope where
  tx :=
    { sourceAccount := .keyTypeEd25519 (List.replicate 32 seed)
      fee := 100
      seqNum := 1
      cond := .precondNone
      memo := .memoNone
      operations := [⟨none, .invokeHostFunction ⟨[]⟩ []⟩]
      ext := .sorobanData ⟨.v0, ⟨⟨[.account ⟨List.replicate 32 9⟩],
        [.contractData ⟨[1]⟩ ⟨[slot]⟩ .persistent]⟩, 0, 100, 100⟩, 0⟩ }
  signatures := [sampleSignature seed]

def slotCall (seed slot : UInt8) : Submitted := ⟨.envelopeTypeTx (slotEnvelope seed slot), "", {}⟩

def twoAccounts : Ledger := (sampleLedger 7).withAccount (sampleAccount 8)

theorem emptyLedger_addressed (d : Deps) (codes : Set Bytes) : emptyLedger.Addressed d codes where
  keyed := Store.Keyed.empty
  cache := by
    intro hash hmem
    cases hmem
  code key := by
    have hnone : emptyLedger.store.lookup key = none := Finmap.lookup_empty key
    rw [hnone]
    cases key <;> trivial

theorem sampleLedger_addressed (d : Deps) (codes : Set Bytes) :
    (sampleLedger 7).Addressed d codes :=
  (emptyLedger_addressed d codes).withAccount _

theorem twoAccounts_addressed (d : Deps) (codes : Set Bytes) : twoAccounts.Addressed d codes :=
  (sampleLedger_addressed d codes).withAccount _

/-- A call writes its account and its entry, and reads one account more. -/
theorem slotCall_access (seed slot : UInt8) (key : LedgerKey) :
    (key ∈ (slotCall seed slot).envelope.access.writes →
      key ∈ [.account ⟨List.replicate 32 seed⟩, .contractData ⟨[1]⟩ ⟨[slot]⟩ .persistent]) ∧
    (key ∈ (slotCall seed slot).envelope.access.reads →
      key ∈ [.account ⟨List.replicate 32 seed⟩, .contractData ⟨[1]⟩ ⟨[slot]⟩ .persistent,
        .account ⟨List.replicate 32 9⟩]) := by
  have haccount : ∀ id ∈ (slotCall seed slot).envelope.accounts, id = ⟨List.replicate 32 seed⟩ := by
    intro id hid
    have hthree : id ∈ List.replicate 3 (⟨List.replicate 32 seed⟩ : AccountId) := hid
    exact List.eq_of_mem_replicate hthree
  constructor
  · rintro (⟨id, hid, rfl⟩ | hrw | ⟨hro, hneeds⟩)
    · rw [haccount id ((slotCall seed slot).envelope.writtenAccounts_sub hid)]
      exact List.mem_cons_self
    · exact List.mem_cons_of_mem _ hrw
    · cases List.mem_singleton.mp hro
      cases hneeds
  · rintro (⟨id, hid, rfl⟩ | hkey)
    · rw [haccount id hid]
      exact List.mem_cons_self
    · refine List.mem_cons_of_mem _ ?_
      exact List.Perm.subset (.swap _ _ []) hkey

theorem slotCalls_independent : Independent [slotCall 7 1, slotCall 8 2] := by
  have hapart : ∀ key ∈ [LedgerKey.account ⟨List.replicate 32 7⟩,
      .contractData ⟨[1]⟩ ⟨[1]⟩ .persistent], key ∉ [LedgerKey.account ⟨List.replicate 32 8⟩,
        .contractData ⟨[1]⟩ ⟨[2]⟩ .persistent, .account ⟨List.replicate 32 9⟩] := by decide
  have hapart' : ∀ key ∈ [LedgerKey.account ⟨List.replicate 32 8⟩,
      .contractData ⟨[1]⟩ ⟨[2]⟩ .persistent], key ∉ [LedgerKey.account ⟨List.replicate 32 7⟩,
        .contractData ⟨[1]⟩ ⟨[1]⟩ .persistent, .account ⟨List.replicate 32 9⟩] := by decide
  refine List.pairwise_pair.mpr ⟨fun key hw hr => ?_, fun key hw hr => ?_⟩
  · exact hapart key ((slotCall_access 7 1 key).1 hw) ((slotCall_access 8 2 key).2 hr)
  · exact hapart' key ((slotCall_access 8 2 key).1 hw) ((slotCall_access 7 1 key).2 hr)

theorem applyTransaction_sees_slot :
    (slotCall 7 1).answer stampingDeps (sampleLedger 7) =
        (slotCall 7 1).answer stampingDeps twoAccounts ∧
      (∀ key ∈ (slotCall 7 1).envelope.access.reads,
        ((slotCall 7 1).final stampingDeps twoAccounts).store.lookup key =
          ((slotCall 7 1).final stampingDeps (sampleLedger 7)).store.lookup key) ∧
      ∀ key, key ∉ (slotCall 7 1).envelope.access.reads →
        ((slotCall 7 1).final stampingDeps twoAccounts).store.lookup key =
          twoAccounts.store.lookup key ∧
        ((slotCall 7 1).final stampingDeps (sampleLedger 7)).store.lookup key =
          (sampleLedger 7).store.lookup key := by
  refine applyTransaction_sees (stampingDeps_callsLocally ∅) (twoAccounts_addressed _ _)
    (sampleLedger_addressed _ _) ⟨(sampleLedger 7).env.store, (sampleLedger 7).env.moduleCache, rfl⟩
    (slotCall 7 1) fun key hkey => ?_
  refine Ledger.lookup_withAccount_of_ne _ ?_
  rintro rfl
  have hread := (slotCall_access 7 1 _).2 hkey
  revert hread
  decide

theorem ledgerMachine_perm_slots :
    (ledgerMachine stampingDeps).outs twoAccounts [(slotCall 7 1).op, (slotCall 8 2).op] =
        [(slotCall 7 1).answer stampingDeps twoAccounts,
          (slotCall 8 2).answer stampingDeps twoAccounts] ∧
      (ledgerMachine stampingDeps).outs twoAccounts [(slotCall 8 2).op, (slotCall 7 1).op] =
        [(slotCall 8 2).answer stampingDeps twoAccounts,
          (slotCall 7 1).answer stampingDeps twoAccounts] ∧
      ∃ cache, (ledgerMachine stampingDeps).run twoAccounts [(slotCall 8 2).op, (slotCall 7 1).op] =
        { (ledgerMachine stampingDeps).run twoAccounts [(slotCall 7 1).op, (slotCall 8 2).op] with
          env := { ((ledgerMachine stampingDeps).run twoAccounts
            [(slotCall 7 1).op, (slotCall 8 2).op]).env with moduleCache := cache } } :=
  ledgerMachine_perm (stampingDeps_callsLocally ∅) (twoAccounts_addressed _ _) (.swap _ _ [])
    slotCalls_independent

theorem ledgerMachine_independent_slots :
    (ledgerMachine stampingDeps).outs twoAccounts ([slotCall 7 1, slotCall 8 2].map (·.op)) =
        [slotCall 7 1, slotCall 8 2].map (·.answer stampingDeps twoAccounts) ∧
      twoAccounts.StoreOnly
        ((ledgerMachine stampingDeps).run twoAccounts ([slotCall 7 1, slotCall 8 2].map (·.op))) ∧
      ∀ key,
        (∀ tx ∈ [slotCall 7 1, slotCall 8 2], key ∈ tx.envelope.access.writes →
          ((ledgerMachine stampingDeps).run twoAccounts
            ([slotCall 7 1, slotCall 8 2].map (·.op))).store.lookup key =
              (tx.final stampingDeps twoAccounts).store.lookup key) ∧
        ((∀ tx ∈ [slotCall 7 1, slotCall 8 2], key ∉ tx.envelope.access.writes) →
          ((ledgerMachine stampingDeps).run twoAccounts
            ([slotCall 7 1, slotCall 8 2].map (·.op))).store.lookup key =
              twoAccounts.store.lookup key) :=
  ledgerMachine_independent (stampingDeps_callsLocally ∅) (twoAccounts_addressed _ _)
    slotCalls_independent

end LiteSoroban

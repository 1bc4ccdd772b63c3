import Mathlib.Algebra.GroupWithZero.Nat
import Mathlib.Algebra.BigOperators.Group.List.Basic
import Mathlib.Algebra.Ring.Int.Defs
import LiteSoroban.Classic.Atomicity
import LiteSoroban.Classic.Extensions

/-!
# What the bump and the debit leave alone

Both rewrites of the apply path decode a stored entry, rebuild the account in
it, and store the account in an entry of its own.  `AccountOp.Frame` says what
a rewrite may change of the entry it has read.  The account is rebuilt from
all of its fields.  The entry around it is not: `storeAccount` gives every
entry the extension without a sponsor.

Any number of rewrites of one account come to one, whose account
`AccountOp.effects_eq` writes down field by field.  How two runs of the same
rewrites compare is read off it.
-/

namespace LiteSoroban

open Effect

/-- One of the two rewrites. -/
inductive AccountOp where
  | bump (seqNum : Int)
  | debit (amount : Int)

namespace AccountOp

/-- The rewrite of the account under an id. -/
def perform (d : Deps) (id : AccountId) : AccountOp → LedgerM Unit
  | .bump seqNum => bumpSequence d id seqNum
  | .debit amount => LiteSoroban.debit d id amount

/-- One rewrite after the other. -/
def performAll (d : Deps) (id : AccountId) : List AccountOp → LedgerM Unit
  | [] => pure ()
  | op :: ops => do
    op.perform d id
    performAll d id ops

/-! ## The frame -/

/-- What a rewrite writes in an account, and nothing else. -/
def Writes (ledger : Ledger) (op : AccountOp) (account account' : AccountEntry) : Prop :=
  match op with
  | .bump seqNum => ∃ c : FullChain, c.Completes account ∧
      account' = { account with
        seqNum := seqNum
        ext := { c with v3 := ⟨ledger.ledgerSeq, ledger.timestamp⟩ }.toExt }
  | .debit amount => account' = { account with balance := account.balance - amount }

/-- What a rewrite may change of an entry: what it writes in the account, and
the ledger the entry was last modified in. -/
def Frame (ledger : Ledger) (op : AccountOp) (e e' : LedgerEntry) : Prop :=
  ∃ account account', e.data = .account account ∧ op.Writes ledger account account' ∧
    e' = { e with lastModifiedLedgerSeq := ledger.ledgerSeq, data := .account account' }

/-- Along a run, each rewrite keeps to its frame. -/
def FramedRun (d : Deps) (id : AccountId) : List AccountOp → Ledger → Prop
  | [], _ => True
  | op :: ops, ledger => ∃ e e' ledger', ledger.getEntry (.account id) = some e ∧
      op.perform d id ledger = .ok () ledger' ∧ ledger'.getEntry (.account id) = some e' ∧
      op.Frame ledger e e' ∧ FramedRun d id ops ledger'

/-! ## One rewrite -/

/-- The account a rewrite stores. -/
def effect (ledger : Ledger) (op : AccountOp) (account : AccountEntry) : AccountEntry :=
  match op with
  | .bump seqNum => bumped ledger seqNum account
  | .debit amount => debited amount account

theorem effect_accountId (ledger : Ledger) (op : AccountOp) (account : AccountEntry) :
    (op.effect ledger account).accountId = account.accountId := by
  cases op <;> rfl

theorem effect_writes (ledger : Ledger) (op : AccountOp) (account : AccountEntry) :
    op.Writes ledger account (op.effect ledger account) := by
  cases op with
  | bump seqNum => exact ⟨account.fullChain, account.fullChain_completes, rfl⟩
  | debit amount => rfl

/-- A rewrite reads the clock of the ledger, and not its accounts. -/
theorem effect_withAccount (ledger : Ledger) (stored : AccountEntry) (op : AccountOp)
    (account : AccountEntry) :
    op.effect (ledger.withAccount stored) account = op.effect ledger account := by
  cases op <;> rfl

theorem perform_eq (d : Deps) (id : AccountId) (op : AccountOp) :
    op.perform d id = rewriteAccount d id fun ledger => op.effect ledger := by
  cases op <;> rfl

/-- A rewrite that returns has stored its account. -/
theorem perform_ok {d : Deps} {id : AccountId} {op : AccountOp} {ledger ledger' : Ledger}
    (hkeyed : ledger.store.Keyed) {account : AccountEntry}
    (haccount : ledger.store.account? id = some account)
    (h : op.perform d id ledger = .ok () ledger') :
    ledger' = ledger.withAccount (op.effect ledger account) := by
  rw [perform_eq] at h
  rcases rewriteAccount_cases d id (fun ledger => op.effect ledger) ledger with
    ⟨e, hthrew⟩ | ⟨stored, hload, hstored⟩
  · cases hthrew.symm.trans h
  · cases hstored.symm.trans h
    have hsame := (loadAccount!_eq_ok hkeyed).mp hload
    rw [Option.some.inj (haccount.symm.trans hsame)]

end AccountOp

theorem Ledger.getEntry_withAccount (ledger : Ledger) (account : AccountEntry) :
    (ledger.withAccount account).getEntry (.account account.accountId) =
      some (accountLedgerEntry ledger.ledgerSeq account) := by
  unfold Ledger.getEntry SorobanEnv.getEntry Ledger.withAccount
  rw [Finmap.lookup_insert]
  rfl

/-- Of two accounts stored under one id, the second is left. -/
theorem Ledger.withAccount_withAccount (ledger : Ledger) {first second : AccountEntry}
    (h : second.accountId = first.accountId) :
    (ledger.withAccount first).withAccount second = ledger.withAccount second := by
  unfold Ledger.withAccount
  simp only [h, Finmap.insert_insert]

/-- The account of a stored entry. -/
theorem Store.account?_of_getEntry {ledger : Ledger} {id : AccountId} {e : LedgerEntry}
    {account : AccountEntry} (hentry : ledger.getEntry (.account id) = some e)
    (hdata : e.data = .account account) : ledger.store.account? id = some account := by
  obtain ⟨slot, hlookup, rfl⟩ := Ledger.getEntry_eq_some.mp hentry
  unfold Store.account?
  rw [hlookup]
  simp only [Option.bind_some, hdata, LedgerEntryData.account?]

/-- What is stored under the id of an account is an account of that id. -/
theorem Store.Keyed.getEntry {ledger : Ledger} (hkeyed : ledger.store.Keyed) {id : AccountId}
    {e : LedgerEntry} (hentry : ledger.getEntry (.account id) = some e) :
    ∃ account, e.data = .account account ∧ account.accountId = id := by
  obtain ⟨slot, hlookup, rfl⟩ := Ledger.getEntry_eq_some.mp hentry
  exact hkeyed.account hlookup

namespace AccountOp

/-- A rewrite keeps to its frame exactly on an entry that names no sponsor. -/
theorem frame_iff (ledger : Ledger) (op : AccountOp) {e : LedgerEntry} {account : AccountEntry}
    (hdata : e.data = .account account) :
    op.Frame ledger e (accountLedgerEntry ledger.ledgerSeq (op.effect ledger account)) ↔
      e.ext = .v0 := by
  constructor
  · rintro ⟨_, account', -, -, heq⟩
    exact (congrArg LedgerEntry.ext heq).symm
  · intro hext
    refine ⟨account, op.effect ledger account, hdata, op.effect_writes ledger account, ?_⟩
    rw [accountLedgerEntry, hext]

/-! ## Any number of rewrites -/

/-- The account that is left. -/
def effects (ledger : Ledger) (ops : List AccountOp) (account : AccountEntry) : AccountEntry :=
  ops.foldl (fun account op => op.effect ledger account) account

/-- The sequence numbers that a run sets. -/
def bumps (ops : List AccountOp) : List Int :=
  ops.filterMap fun
    | .bump seqNum => some seqNum
    | .debit _ => none

/-- The amounts that a run takes. -/
def debits (ops : List AccountOp) : List Int :=
  ops.filterMap fun
    | .bump _ => none
    | .debit amount => some amount

theorem effects_append (ledger : Ledger) (ops : List AccountOp) (op : AccountOp)
    (account : AccountEntry) :
    effects ledger (ops ++ [op]) account = op.effect ledger (effects ledger ops account) := by
  simp [effects]

theorem effects_accountId (ledger : Ledger) (ops : List AccountOp) (account : AccountEntry) :
    (effects ledger ops account).accountId = account.accountId := by
  induction ops using List.reverseRecOn with
  | nil => rfl
  | append_singleton ops op ih =>
    rw [effects_append, effect_accountId, ih]

theorem effects_withAccount (ledger : Ledger) (stored : AccountEntry) (ops : List AccountOp)
    (account : AccountEntry) :
    effects (ledger.withAccount stored) ops account = effects ledger ops account := by
  unfold effects
  simp only [effect_withAccount]

/-- A run changes nothing of a chain but its stamp. -/
theorem fullChain_effects (ledger : Ledger) (ops : List AccountOp) (account : AccountEntry)
    (v3 : AccountEntryExtensionV3) :
    (effects ledger ops account).fullChain.stamp v3 = account.fullChain.stamp v3 := by
  induction ops using List.reverseRecOn with
  | nil => rfl
  | append_singleton ops op ih =>
    rw [effects_append]
    cases op with
    | bump seqNum =>
      rw [effect, fullChain_bumped, FullChain.stamp_stamp]
      exact ih
    | debit amount => exact ih

/-- The last bump sets the sequence number, every debit takes its amount, and
one bump is enough to complete and stamp the chain. -/
theorem effects_eq (ledger : Ledger) (ops : List AccountOp) (account : AccountEntry) :
    effects ledger ops account =
      { account with
        balance := account.balance - (debits ops).sum
        seqNum := (bumps ops).getLast?.getD account.seqNum
        ext := if bumps ops = [] then account.ext
          else (account.fullChain.stamp ⟨ledger.ledgerSeq, ledger.timestamp⟩).toExt } := by
  induction ops using List.reverseRecOn with
  | nil => simp [effects, bumps, debits]
  | append_singleton ops op ih =>
    rw [effects_append]
    cases op with
    | bump seqNum =>
      have hbumps : bumps (ops ++ [.bump seqNum]) = bumps ops ++ [seqNum] := by simp [bumps]
      have hdebits : debits (ops ++ [.bump seqNum]) = debits ops := by simp [debits]
      rw [effect, bumped, withAccountEntryExtensionV3_eq, fullChain_effects, ih, hbumps, hdebits]
      simp
    | debit amount =>
      have hbumps : bumps (ops ++ [.debit amount]) = bumps ops := by simp [bumps]
      have hdebits : debits (ops ++ [.debit amount]) = debits ops ++ [amount] := by simp [debits]
      have hsum : account.balance - (debits ops).sum - amount =
          account.balance - (debits ops ++ [amount]).sum := by
        rw [List.sum_append, List.sum_singleton]
        omega
      rw [effect, debited, ih, hbumps, hdebits, ← hsum]

/-- The same rewrites in another order leave the same account, but for the
sequence number. -/
theorem effects_perm (ledger : Ledger) {ops ops' : List AccountOp} (h : ops.Perm ops')
    (account : AccountEntry) :
    effects ledger ops' account = { effects ledger ops account with
      seqNum := (bumps ops').getLast?.getD account.seqNum } := by
  have hbumps : bumps ops = [] ↔ bumps ops' = [] := by
    have hperm : (bumps ops).Perm (bumps ops') := h.filterMap _
    exact ⟨fun hnil => (hnil ▸ hperm).nil_eq.symm, fun hnil => (hnil ▸ hperm).eq_nil⟩
  have hsum : (debits ops).sum = (debits ops').sum := (h.filterMap _).sum_eq
  rw [effects_eq, effects_eq, hsum]
  simp only [hbumps]

/-- The account a rewrite has stored is what the next one reads. -/
theorem perform_stored {d : Deps} {id : AccountId} {op : AccountOp} {ledger ledger' : Ledger}
    (hkeyed : ledger.store.Keyed) {account : AccountEntry}
    (haccount : ledger.store.account? id = some account)
    (h : op.perform d id ledger = .ok () ledger') :
    ledger'.store.Keyed ∧ ledger'.store.account? id = some (op.effect ledger account) ∧
      ledger'.getEntry (.account id) =
        some (accountLedgerEntry ledger.ledgerSeq (op.effect ledger account)) := by
  have hid : (op.effect ledger account).accountId = id :=
    (op.effect_accountId ledger account).trans (hkeyed.accountId_eq haccount)
  rw [perform_ok hkeyed haccount h]
  refine ⟨ledger.withAccount_keyed hkeyed _, ?_, ?_⟩
  · rw [Ledger.account?_withAccount, if_pos hid.symm]
  · have hentry := ledger.getEntry_withAccount (op.effect ledger account)
    rw [hid] at hentry
    exact hentry

/-- A run that returns has stored the account that is left. -/
theorem performAll_ok {d : Deps} {id : AccountId} {ops : List AccountOp} (hne : ops ≠ [])
    {ledger ledger' : Ledger} (hkeyed : ledger.store.Keyed) {account : AccountEntry}
    (haccount : ledger.store.account? id = some account)
    (h : performAll d id ops ledger = .ok () ledger') :
    ledger' = ledger.withAccount (effects ledger ops account) := by
  induction ops generalizing ledger account with
  | nil => exact absurd rfl hne
  | cons op ops ih =>
    simp only [performAll, bind_eq_ok] at h
    obtain ⟨_, mid, hop, hrest⟩ := h
    obtain ⟨hkeyed', hstored, -⟩ := perform_stored hkeyed haccount hop
    have hmid := perform_ok hkeyed haccount hop
    by_cases hops : ops = []
    · simp only [hops, performAll, pure_eq_ok, true_and] at hrest
      rw [← hrest, hmid, hops]
      rfl
    · have hfinal := ih hops hkeyed' hstored hrest
      have hid : (effects ledger ops (op.effect ledger account)).accountId =
          (op.effect ledger account).accountId := effects_accountId ledger ops _
      rw [hmid, effects_withAccount, Ledger.withAccount_withAccount ledger hid] at hfinal
      exact hfinal

/-- A run keeps to the frames of its rewrites exactly if it does nothing, or
begins with an entry that names no sponsor. -/
theorem framedRun_iff {d : Deps} {id : AccountId} {ops : List AccountOp} {ledger ledger' : Ledger}
    (hkeyed : ledger.store.Keyed) {e : LedgerEntry}
    (hentry : ledger.getEntry (.account id) = some e)
    (h : performAll d id ops ledger = .ok () ledger') :
    FramedRun d id ops ledger ↔ ops = [] ∨ e.ext = .v0 := by
  induction ops generalizing ledger e with
  | nil => simp [FramedRun]
  | cons op ops ih =>
    simp only [performAll, bind_eq_ok] at h
    obtain ⟨_, mid, hop, hrest⟩ := h
    obtain ⟨account, hdata, -⟩ := hkeyed.getEntry hentry
    have haccount := Store.account?_of_getEntry hentry hdata
    obtain ⟨hkeyed', -, hentry'⟩ := perform_stored hkeyed haccount hop
    have hframe := op.frame_iff ledger hdata
    have hne : ¬ op :: ops = [] := List.cons_ne_nil op ops
    constructor
    · rintro ⟨e₁, e₂, ledger₂, he₁, hop₂, he₂, hframed, -⟩
      cases hentry.symm.trans he₁
      cases hop.symm.trans hop₂
      cases hentry'.symm.trans he₂
      exact .inr (hframe.mp hframed)
    · rintro (hnil | hext)
      · exact absurd hnil hne
      · exact ⟨e, _, mid, hentry, hop, hentry', hframe.mpr hext,
          (ih hkeyed' hentry' hrest).mpr (.inr rfl)⟩

/-! ## Runs of the same rewrites -/

/-- Two ledgers hold the same, but for the sequence number of one account. -/
def SameButSequence (id : AccountId) (ledger ledger' : Ledger) : Prop :=
  ledger' = ledger.withStore ledger'.store ∧
    (∀ key, key ≠ .account id → ledger'.store.lookup key = ledger.store.lookup key) ∧
    ∃ e account seqNum, ledger.getEntry (.account id) = some e ∧ e.data = .account account ∧
      ledger'.getEntry (.account id) =
        some { e with data := .account { account with seqNum := seqNum } }

theorem performAll_perm {d : Deps} {id : AccountId} {ops ops' : List AccountOp}
    (hperm : ops.Perm ops') {ledger ledger₁ ledger₂ : Ledger} (hkeyed : ledger.store.Keyed)
    {e : LedgerEntry} (hentry : ledger.getEntry (.account id) = some e)
    (h₁ : performAll d id ops ledger = .ok () ledger₁)
    (h₂ : performAll d id ops' ledger = .ok () ledger₂) :
    SameButSequence id ledger₁ ledger₂ ∧
      ((bumps ops).getLast? = (bumps ops').getLast? → ledger₁ = ledger₂) := by
  obtain ⟨account, hdata, hid⟩ := hkeyed.getEntry hentry
  have haccount := Store.account?_of_getEntry hentry hdata
  by_cases hnil : ops = []
  · have hnil' : ops' = [] := (hnil ▸ hperm).nil_eq.symm
    subst hnil hnil'
    simp only [performAll, pure_eq_ok, true_and] at h₁ h₂
    subst h₁ h₂
    have hsame : ledger.getEntry (.account id) = some { e with data := .account account } := by
      rw [hentry, ← hdata]
    exact ⟨⟨rfl, fun _ _ => rfl, e, account, account.seqNum, hentry, hdata, hsame⟩, fun _ => rfl⟩
  · have hnil' : ops' ≠ [] := fun h => hnil (h ▸ hperm).eq_nil
    have hleft := performAll_ok hnil hkeyed haccount h₁
    have hright := performAll_ok hnil' hkeyed haccount h₂
    have hid₁ : (effects ledger ops account).accountId = id :=
      (effects_accountId ledger ops account).trans hid
    have hid₂ : (effects ledger ops' account).accountId = id :=
      (effects_accountId ledger ops' account).trans hid
    have hsame := effects_perm ledger hperm account
    refine ⟨⟨by rw [hleft, hright]; rfl, fun key hkey => ?_,
      accountLedgerEntry ledger.ledgerSeq (effects ledger ops account), effects ledger ops account,
      (bumps ops').getLast?.getD account.seqNum, ?_, rfl, ?_⟩, fun hlast => ?_⟩
    · rw [hleft, hright, Ledger.lookup_withAccount_of_ne _ (hid₂ ▸ hkey),
        Ledger.lookup_withAccount_of_ne _ (hid₁ ▸ hkey)]
    · rw [hleft, ← hid₁]
      exact ledger.getEntry_withAccount _
    · rw [hright, ← hsame, ← hid₂]
      exact ledger.getEntry_withAccount _
    · rw [hleft, hright, hsame, ← hlast]
      congr 1
      rw [effects_eq]

end AccountOp

open AccountOp

/-- **Frame.**  A run of bumps and debits on one account keeps to their frames
exactly if it does nothing or the entry it begins with names no sponsor.  The
order of a run matters to the sequence number alone, and there only through
the last bump. -/
theorem accountOps_frame_iff {d : Deps} {id : AccountId} {ops : List AccountOp}
    {ledger ledger' : Ledger} (hkeyed : ledger.store.Keyed) {e : LedgerEntry}
    (hentry : ledger.getEntry (.account id) = some e)
    (h : performAll d id ops ledger = .ok () ledger') :
    (FramedRun d id ops ledger ↔ ops = [] ∨ e.ext = .v0) ∧
    ∀ ops' ledger'', ops.Perm ops' → performAll d id ops' ledger = .ok () ledger'' →
      SameButSequence id ledger' ledger'' ∧
        ((bumps ops).getLast? = (bumps ops').getLast? → ledger' = ledger'') :=
  ⟨framedRun_iff hkeyed hentry h, fun _ _ hperm h' => performAll_perm hperm hkeyed hentry h h'⟩

/-- A ledger with the entry of one account, under an extension. -/
def extendedLedger (seed : UInt8) (ext : LedgerEntryExt) : Ledger :=
  { emptyLedger with env := { emptyLedger.env with
      store := emptyLedger.env.store.insert (.account (sampleAccount seed).accountId)
        ⟨{ accountLedgerEntry 1 (sampleAccount seed) with ext := ext }, none⟩ } }

theorem extendedLedger_keyed (seed : UInt8) (ext : LedgerEntryExt) :
    (extendedLedger seed ext).store.Keyed :=
  Store.Keyed.empty.insert rfl

theorem accountOps_frame_sample :
    FramedRun .idle (sampleAccount 7).accountId [.bump 5, .debit 3] (extendedLedger 7 .v0) :=
  (accountOps_frame_iff (extendedLedger_keyed 7 .v0) rfl rfl).1.mpr (.inr rfl)

/-- An account whose entry another one sponsors: the debit drops the sponsor. -/
theorem debit_drops_sponsor :
    (∃ ledger', performAll .idle (sampleAccount 7).accountId [.debit 3]
      (extendedLedger 7 (.v1 (some (sampleAccount 8).accountId))) = .ok () ledger' ∧
      (ledger'.getEntry (.account (sampleAccount 7).accountId)).map (·.ext) = some .v0) ∧
    ¬ FramedRun .idle (sampleAccount 7).accountId [.debit 3]
      (extendedLedger 7 (.v1 (some (sampleAccount 8).accountId))) := by
  refine ⟨⟨_, rfl, rfl⟩, ?_⟩
  rw [framedRun_iff (extendedLedger_keyed 7 _) rfl rfl]
  rintro (h | h)
  · cases h
  · cases h

end LiteSoroban

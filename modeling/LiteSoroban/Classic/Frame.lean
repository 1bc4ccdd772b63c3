import LiteSoroban.Classic.Apply
import LiteSoroban.Env.SendSpec

/-!
# What an application leaves alone

Applying a transaction writes the store and the module cache, and nothing
else: not the ledger sequence, not the clock, not the snapshots and not the
configuration.  That holds whether it returns or throws, and of every program
on the way to it.
-/

namespace LiteSoroban

open Effect

/-- `ledger'` is `ledger` but for the store and the module cache. -/
def Ledger.StoreOnly (ledger ledger' : Ledger) : Prop :=
  ∃ store cache, ledger' =
    { ledger with env := { ledger.env with store := store, moduleCache := cache } }

instance : IsPreorder Ledger Ledger.StoreOnly where
  refl ledger := ⟨ledger.env.store, ledger.env.moduleCache, rfl⟩
  trans := by
    rintro _ _ _ ⟨_, _, rfl⟩ ⟨store, cache, rfl⟩
    exact ⟨store, cache, rfl⟩

/-- A program that writes the store and the module cache at most. -/
abbrev StoresOnly {α : Type} (x : LedgerM α) : Prop := Within Ledger.StoreOnly x

theorem lift_storesOnly {α : Type} (x : Ledger → Except JsError α) :
    StoresOnly (LedgerM.lift x) := by
  refine .of_eq fun ledger => ?_
  simp only [LedgerM.lift]
  cases x ledger <;> rfl

theorem putEntry_storesOnly (entry : LedgerEntry) (liveUntil : Option Nat) :
    StoresOnly (Ledger.putEntry entry liveUntil) := by
  intro ledger
  simp only [Ledger.putEntry, SorobanEnv.putEntry]
  cases keyOf entry with
  | error e => exact refl_of Ledger.StoreOnly ledger
  | ok key => exact ⟨_, ledger.env.moduleCache, rfl⟩

theorem send_storesOnly (d : Deps) (args : SendArgs) : StoresOnly (Ledger.send d args) := by
  intro ledger
  rw [Ledger.finalState_send]
  rcases send_frame d _ ledger.env with ⟨cache, hframe⟩ | ⟨_, _, _, _, _, hframe⟩
  · rw [hframe]
    exact ⟨ledger.env.store, cache, rfl⟩
  · rw [hframe]
    exact ⟨_, _, rfl⟩

/-! ## The stages -/

section rewrites

variable {R : Ledger → Ledger → Prop} [IsPreorder Ledger R]

/-- What bumps and debits keep, the commit keeps before the operation. -/
theorem commitClassic_within {d : Deps}
    (hbump : ∀ id seqNum, Within R (bumpSequence d id seqNum))
    (hdebit : ∀ id amount, Within R (debit d id amount)) (a : Application) (v : Validated) :
    Within R (commitClassic d a v) := by
  refine .bind (hbump _ _) fun _ => ?_
  split
  · exact hdebit _ _
  · exact .pure _

/-- What debits keep, a refund keeps. -/
theorem settle_within {d : Deps} (hdebit : ∀ id amount, Within R (debit d id amount))
    (v : Validated) (charge : Option FeeCharge) (op : Operated) :
    Within R (settle d v charge op) := by
  cases charge with
  | none => exact .pure _
  | some charge =>
    refine .bind ?_ fun _ => .pure _
    unfold giveBack
    split
    · exact hdebit _ _
    · exact .pure _

end rewrites

theorem storeAccount_storesOnly (d : Deps) (account : AccountEntry) :
    StoresOnly (storeAccount d account) :=
  .bind (lift_storesOnly _) fun _ => .bind .get fun _ => putEntry_storesOnly _ _

theorem rewriteAccount_storesOnly (d : Deps) (id : AccountId)
    (f : Ledger → AccountEntry → AccountEntry) : StoresOnly (rewriteAccount d id f) :=
  .bind (lift_storesOnly _) fun _ => .bind .get fun _ => storeAccount_storesOnly d _

theorem commitClassic_storesOnly (d : Deps) (a : Application) (v : Validated) :
    StoresOnly (commitClassic d a v) :=
  commitClassic_within (fun _ _ => rewriteAccount_storesOnly d _ _)
    (fun _ _ => rewriteAccount_storesOnly d _ _) a v

theorem putMoves_storesOnly (moves : List TtlMove) : StoresOnly (putMoves moves) := by
  induction moves with
  | nil => exact .pure _
  | cons move moves ih => exact .bind (putEntry_storesOnly _ _) fun _ => ih

theorem moveTtls_storesOnly (d : Deps) (moves : List TtlMove) (cap : Option Int) :
    StoresOnly (moveTtls d moves cap) := by
  have hput : ∀ changed rent, StoresOnly (do
      putMoves moves
      return ({ changed := changed, rent := rent } : FootprintOpApplied)) :=
    fun _ _ => .bind (putMoves_storesOnly moves) fun _ => .pure _
  refine .bind (lift_storesOnly _) fun rent => ?_
  cases cap with
  | none => exact hput _ _
  | some max =>
    simp only
    split
    · exact .pure _
    · exact hput _ _

theorem runOperation_storesOnly (d : Deps) (v : Validated) (cap : Option Int) :
    StoresOnly (runOperation d v cap) := by
  simp only [runOperation]
  split
  · exact .pure _
  · split
    · refine .bind (.bind .get fun ledger => ?_) fun _ => .pure _
      split
      · exact .pure _
      · exact moveTtls_storesOnly d _ _
    · refine .bind (.bind .get fun ledger => ?_) fun _ => .pure _
      simp only
      split
      · exact .pure _
      · exact moveTtls_storesOnly d _ _
    · exact .bind (send_storesOnly d _) fun _ => .pure _
    · exact .throw _

theorem settle_storesOnly (d : Deps) (v : Validated) (charge : Option FeeCharge) (op : Operated) :
    StoresOnly (settle d v charge op) :=
  settle_within (fun _ _ => rewriteAccount_storesOnly d _ _) v charge op

theorem commit_storesOnly (d : Deps) (a : Application) (v : Validated) :
    StoresOnly (commit d a v) :=
  .bind (commitClassic_storesOnly d a v) fun _ =>
    .bind (runOperation_storesOnly d v _) fun _ => settle_storesOnly d v _ _

/-- An application writes the store and the module cache at most, whether it
returns or throws. -/
theorem applyTransaction_storesOnly (d : Deps) (envelope : TransactionEnvelope)
    (passphrase : String) (validation : ValidationOptions) :
    StoresOnly (applyTransaction d envelope passphrase validation) := by
  intro ledger
  simp only [applyTransaction, applyEnvelope, applyInner]
  cases envelopeApplication d ledger envelope passphrase validation with
  | error stop => cases stop <;> exact refl_of Ledger.StoreOnly ledger
  | ok a =>
    simp only
    cases validate d ledger a with
    | error stop => cases stop <;> exact refl_of Ledger.StoreOnly ledger
    | ok v =>
      have hcommit := commit_storesOnly d a v ledger
      simp only
      cases hrun : commit d a v ledger with
      | ok outcome ledger' =>
        rw [hrun] at hcommit
        exact hcommit
      | error e ledger' =>
        rw [hrun] at hcommit
        exact hcommit

end LiteSoroban

import LiteSoroban.Classic.Atomicity
import LiteSoroban.Ledger.Machine
import LiteSoroban.Lib.Phases

/-!
# The window of a transaction

The bounds of a transaction leave a window of ledgers that accept it.
`boundsProblem_none` says which ledgers are in it.  Over a run in which
neither the ledger sequence nor the clock goes back, the verdicts are first
too early, then accepted, and then too late.  None of the three comes back.

The age of an account's sequence number only has a lower bound, so that a
check of it that passes keeps passing.
-/

namespace LiteSoroban

/-! ## Ledgers that go on -/

/-- Neither the ledger sequence nor the clock goes back. -/
structure Ledger.Onward (before after : Ledger) : Prop where
  ledgerSeq : before.env.ledgerSeq ≤ after.env.ledgerSeq
  timestamp : before.env.timestamp ≤ after.env.timestamp

instance : IsTrans Ledger Ledger.Onward where
  trans _ _ _ hab hbc :=
    ⟨hab.ledgerSeq.trans hbc.ledgerSeq, hab.timestamp.trans hbc.timestamp⟩

/-- The clock does not go back as JavaScript sees it either. -/
theorem Ledger.Onward.closeTime {before after : Ledger} (h : before.Onward after) :
    before.timestamp ≤ after.timestamp :=
  jsNumber_mono h.timestamp

/-! ## The bounds -/

namespace Transaction

def minTime (raw : Transaction) : Nat := ((timeBounds raw).map (·.minTime)).getD 0

def maxTime (raw : Transaction) : Nat := ((timeBounds raw).map (·.maxTime)).getD 0

def ledgerBounds (raw : Transaction) : Option LedgerBounds :=
  (preconditionsV2 raw).bind (·.ledgerBounds)

def minLedger (raw : Transaction) : Nat := (raw.ledgerBounds.map (·.minLedger)).getD 0

def maxLedger (raw : Transaction) : Nat := (raw.ledgerBounds.map (·.maxLedger)).getD 0

/-- The ledger is before the window. -/
def TooEarly (raw : Transaction) (ledger : Ledger) : Prop :=
  ledger.timestamp < raw.minTime ∨ ledger.ledgerSeq < raw.minLedger

/-- The ledger is past the window.  A bound of zero is none. -/
def TooLate (raw : Transaction) (ledger : Ledger) : Prop :=
  raw.maxTime ≠ 0 ∧ raw.maxTime < ledger.timestamp ∨
    raw.maxLedger ≠ 0 ∧ raw.maxLedger ≤ ledger.ledgerSeq

/-- The code of the verdict, or none for a transaction that is accepted. -/
def boundsVerdict (raw : Transaction) (ledger : Ledger) : Option TxResultCode :=
  (boundsProblem ledger raw).map (·.1)

end Transaction

/-! ## One verdict -/

/-- The three verdicts.  Too early goes before too late. -/
theorem boundsVerdict_cases (raw : Transaction) (ledger : Ledger) :
    raw.TooEarly ledger ∧ raw.boundsVerdict ledger = some .txTOO_EARLY ∨
    ¬ raw.TooEarly ledger ∧ raw.TooLate ledger ∧ raw.boundsVerdict ledger = some .txTOO_LATE ∨
    ¬ raw.TooEarly ledger ∧ ¬ raw.TooLate ledger ∧ boundsProblem ledger raw = none := by
  have hbounds : boundsProblem ledger raw =
      if raw.minTime ≠ 0 ∧ raw.minTime > ledger.timestamp then
        some (.txTOO_EARLY, s!"minTime {raw.minTime} is after the close time {ledger.timestamp}")
      else if raw.minLedger > ledger.ledgerSeq then
        some (.txTOO_EARLY, s!"minLedger {raw.minLedger} is after ledger {ledger.ledgerSeq}")
      else if raw.maxTime ≠ 0 ∧ raw.maxTime < ledger.timestamp then
        some (.txTOO_LATE, s!"maxTime {raw.maxTime} is before the close time {ledger.timestamp}")
      else if raw.maxLedger ≠ 0 ∧ raw.maxLedger ≤ ledger.ledgerSeq then
        some (.txTOO_LATE, s!"maxLedger {raw.maxLedger} is not after ledger {ledger.ledgerSeq}")
      else none := rfl
  unfold Transaction.boundsVerdict Transaction.TooEarly Transaction.TooLate
  rw [hbounds]
  split_ifs with hminTime hminLedger hmaxTime hmaxLedger
  · exact .inl ⟨.inl hminTime.2, rfl⟩
  · exact .inl ⟨.inr hminLedger, rfl⟩
  · exact .inr (.inl ⟨by omega, .inl hmaxTime, rfl⟩)
  · exact .inr (.inl ⟨by omega, .inr hmaxLedger, rfl⟩)
  · exact .inr (.inr ⟨by omega, by omega, rfl⟩)

/-- The window: a zero upper bound is none, and `maxLedger` is exclusive. -/
theorem boundsProblem_eq_none {raw : Transaction} {ledger : Ledger} :
    boundsProblem ledger raw = none ↔
      raw.minTime ≤ ledger.timestamp ∧ raw.minLedger ≤ ledger.ledgerSeq ∧
      (raw.maxTime = 0 ∨ ledger.timestamp ≤ raw.maxTime) ∧
      (raw.maxLedger = 0 ∨ ledger.ledgerSeq < raw.maxLedger) := by
  have hwindow : (¬ raw.TooEarly ledger ∧ ¬ raw.TooLate ledger) ↔
      raw.minTime ≤ ledger.timestamp ∧ raw.minLedger ≤ ledger.ledgerSeq ∧
      (raw.maxTime = 0 ∨ ledger.timestamp ≤ raw.maxTime) ∧
      (raw.maxLedger = 0 ∨ ledger.ledgerSeq < raw.maxLedger) := by
    unfold Transaction.TooEarly Transaction.TooLate
    omega
  rw [← hwindow]
  rcases boundsVerdict_cases raw ledger with ⟨hearly, hverdict⟩ | ⟨-, hlate, hverdict⟩ | h
  · have hsome : boundsProblem ledger raw ≠ none := by
      intro hnone
      rw [Transaction.boundsVerdict, hnone] at hverdict
      cases hverdict
    exact ⟨fun hnone => absurd hnone hsome, fun hwindow => absurd hearly hwindow.1⟩
  · have hsome : boundsProblem ledger raw ≠ none := by
      intro hnone
      rw [Transaction.boundsVerdict, hnone] at hverdict
      cases hverdict
    exact ⟨fun hnone => absurd hnone hsome, fun hwindow => absurd hlate hwindow.2⟩
  · exact ⟨fun _ => ⟨h.1, h.2.1⟩, fun _ => h.2.2⟩

/-! ## Over a run -/

/-- A ledger that goes on leaves the time before the window at most once. -/
theorem Transaction.TooEarly.before {raw : Transaction} {before after : Ledger}
    (h : before.Onward after) (hafter : raw.TooEarly after) : raw.TooEarly before :=
  hafter.imp (lt_of_le_of_lt h.closeTime) (lt_of_le_of_lt h.ledgerSeq)

/-- Past the window there is no way back into it. -/
theorem Transaction.TooLate.after {raw : Transaction} {before after : Ledger}
    (h : before.Onward after) (hbefore : raw.TooLate before) : raw.TooLate after :=
  hbefore.imp (fun hmax => ⟨hmax.1, lt_of_lt_of_le hmax.2 h.closeTime⟩)
    fun hmax => ⟨hmax.1, le_trans hmax.2 h.ledgerSeq⟩

/-- An account whose stamps stay, once old enough, stays old enough. -/
theorem tooEarlyForAccount_after {raw : Transaction} {before after : Ledger}
    (h : before.Onward after) {account account' : AccountEntry}
    (hstamps : accountEntryExtensionV3 account' = accountEntryExtensionV3 account)
    (hpassed : tooEarlyForAccount before raw account = none) :
    tooEarlyForAccount after raw account' = none := by
  have htime := h.closeTime
  have hseq : before.ledgerSeq ≤ after.ledgerSeq := h.ledgerSeq
  simp only [tooEarlyForAccount, hstamps] at hpassed ⊢
  split at hpassed
  · cases hpassed
  · next hage =>
    split at hpassed
    · cases hpassed
    · next hgap =>
      rw [if_neg (by omega), if_neg (by omega)]

/-- The verdicts of a run: too early, then accepted, then too late. -/
theorem boundsVerdict_phases (raw : Transaction) {run : List Ledger}
    (hrun : run.IsChain Ledger.Onward) :
    ∃ early accepted late, run.map raw.boundsVerdict =
      List.replicate early (some .txTOO_EARLY) ++
        (List.replicate accepted none ++ List.replicate late (some .txTOO_LATE)) := by
  obtain ⟨early, accepted, late, rfl, hearly, haccepted, hlate⟩ :=
    Phases.exists_three (p := raw.TooEarly) (q := raw.TooLate)
      (fun _ _ h => .before h) (fun _ _ h => .after h) (List.isChain_iff_pairwise.mp hrun)
  refine ⟨early.length, accepted.length, late.length, ?_⟩
  have hverdict := boundsVerdict_cases raw
  rw [List.map_append, List.map_append]
  congr 1
  · refine List.map_eq_replicate_iff.mpr fun ledger hledger => ?_
    rcases hverdict ledger with h | h | h
    · exact h.2
    · exact absurd (hearly ledger hledger) h.1
    · exact absurd (hearly ledger hledger) h.1
  · congr 1
    · refine List.map_eq_replicate_iff.mpr fun ledger hledger => ?_
      rcases hverdict ledger with h | h | h
      · exact absurd h.1 (haccepted ledger hledger).1
      · exact absurd h.2.1 (haccepted ledger hledger).2
      · rw [Transaction.boundsVerdict, h.2.2]
        rfl
    · refine List.map_eq_replicate_iff.mpr fun ledger hledger => ?_
      rcases hverdict ledger with h | h | h
      · exact absurd h.1 (hlate ledger hledger).1
      · exact h.2.2
      · exact absurd (hlate ledger hledger).2 h.2.1

/-- The same of the states a run of the ledger goes through. -/
theorem ledgerMachine_boundsVerdict_phases (d : Deps) (raw : Transaction) {ledger : Ledger}
    {ops : List LedgerOp} (hops : (ledgerMachine d).AllSteps
      (fun ledger op => ledger.Onward ((ledgerMachine d).next ledger op)) ledger ops) :
    ∃ early accepted late, ((ledgerMachine d).states ledger ops).map raw.boundsVerdict =
      List.replicate early (some .txTOO_EARLY) ++
        (List.replicate accepted none ++ List.replicate late (some .txTOO_LATE)) :=
  boundsVerdict_phases raw ((ledgerMachine d).states_isChain hops)

/-- Over a run in which neither the ledger sequence nor the clock goes back, a
transaction is too early, then in its window, and then too late, and it is
accepted exactly in its window.  The check of an account whose stamps stay
passes for good once it passes. -/
theorem boundsProblem_phases (raw : Transaction) {run : List Ledger}
    (hrun : run.IsChain Ledger.Onward) :
    (∃ early accepted late, run.map raw.boundsVerdict =
      List.replicate early (some .txTOO_EARLY) ++
        (List.replicate accepted none ++ List.replicate late (some .txTOO_LATE))) ∧
    (∀ ledger ∈ run, boundsProblem ledger raw = none ↔
      raw.minTime ≤ ledger.timestamp ∧ raw.minLedger ≤ ledger.ledgerSeq ∧
      (raw.maxTime = 0 ∨ ledger.timestamp ≤ raw.maxTime) ∧
      (raw.maxLedger = 0 ∨ ledger.ledgerSeq < raw.maxLedger)) ∧
    run.Pairwise fun before after => ∀ account account' : AccountEntry,
      accountEntryExtensionV3 account' = accountEntryExtensionV3 account →
      tooEarlyForAccount before raw account = none →
      tooEarlyForAccount after raw account' = none := by
  refine ⟨boundsVerdict_phases raw hrun, fun _ _ => boundsProblem_eq_none, ?_⟩
  exact (List.isChain_iff_pairwise.mp hrun).imp fun h _ _ => tooEarlyForAccount_after h

/-- A transaction that ledger 1005 is the first to accept, and ledger 1010 the
first to find too late. -/
def sampleBounded : Transaction :=
  { (sampleEnvelope 7 1 none).tx with
    cond := .precondV2 ⟨none, some ⟨1005, 1010⟩, none, 0, 0, []⟩ }

/-- Four ledgers, five apart. -/
def sampleRun : List Ledger := [0, 5, 10, 15].map (sampleLedger 7).advanceLedgers

/-- The run is before the window once, in it once, and past it twice. -/
theorem boundsProblem_phases_sample :
    sampleRun.map sampleBounded.boundsVerdict =
      [some .txTOO_EARLY, none, some .txTOO_LATE, some .txTOO_LATE] ∧
    ∃ early accepted late, sampleRun.map sampleBounded.boundsVerdict =
      List.replicate early (some .txTOO_EARLY) ++
        (List.replicate accepted none ++ List.replicate late (some .txTOO_LATE)) := by
  have hrun : sampleRun.IsChain Ledger.Onward := by
    refine .cons_cons ⟨by decide, by decide⟩ ?_
    refine .cons_cons ⟨by decide, by decide⟩ ?_
    exact .cons_cons ⟨by decide, by decide⟩ (.singleton _)
  exact ⟨by decide, (boundsProblem_phases sampleBounded hrun).1⟩

end LiteSoroban

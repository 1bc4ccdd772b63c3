import Mathlib.Data.List.Basic
import LiteSoroban.Classic.Atomicity

/-!
# What the resource limits accept

`ResourcesAccepted` says which declared resources pass, limit by limit, and
`sorobanResourcesProblem_eq_none` that the checks of `src/classic.ts` accept
exactly those.  Each loop of the checks has a lemma of its own: the scanner of
an asset code, the footprint's keys, and the archived indexes.
-/

namespace LiteSoroban

/-! ## Asset codes -/

/-- Letters and digits, `n` of them, and then zeros only. -/
def CodeChars (n : Nat) (code : Bytes) : Prop :=
  ∃ (chars : Bytes) (zeros : Nat), code = chars ++ List.replicate zeros 0 ∧
    (∀ b ∈ chars, isAsciiAlphaNumeric b = true) ∧ chars.length = n

theorem isAsciiAlphaNumeric_range {b : UInt8} (h : isAsciiAlphaNumeric b = true) :
    b ≠ 0 ∧ ¬ b > 0x7f := by
  unfold isAsciiAlphaNumeric at h
  simp only [Bool.or_eq_true, Bool.and_eq_true, decide_eq_true_eq] at h
  constructor
  · rintro rfl
    revert h
    decide
  · intro hb
    have hlow : 0x7f < b.toNat := UInt8.lt_iff_toNat_lt.mp hb
    have hhigh : b.toNat ≤ 0x7a := by
      rcases h with (⟨-, h⟩ | ⟨-, h⟩) | ⟨-, h⟩
      · exact UInt8.le_iff_toNat_le.mp h
      · exact le_trans (UInt8.le_iff_toNat_le.mp h) (by decide)
      · exact le_trans (UInt8.le_iff_toNat_le.mp h) (by decide)
    omega

theorem codeChars_nil {n : Nat} : CodeChars n [] ↔ n = 0 := by
  constructor
  · rintro ⟨chars, zeros, hcode, -, rfl⟩
    rw [(List.append_eq_nil_iff.mp hcode.symm).1]
    rfl
  · rintro rfl
    exact ⟨[], 0, rfl, by simp, rfl⟩

/-- A code that begins with a zero has no characters and only zeros. -/
theorem codeChars_zero {n : Nat} {rest : Bytes} :
    CodeChars n (0 :: rest) ↔ n = 0 ∧ ∀ b ∈ rest, b = 0 := by
  constructor
  · rintro ⟨chars, zeros, hcode, hchars, rfl⟩
    cases chars with
    | cons c chars =>
      have hc : (0 : UInt8) = c := (List.cons.inj hcode).1
      exact absurd hc.symm (isAsciiAlphaNumeric_range (hchars c List.mem_cons_self)).1
    | nil =>
      refine ⟨rfl, fun b hb => List.eq_of_mem_replicate (n := zeros) ?_⟩
      rw [← List.nil_append (List.replicate zeros 0), ← hcode]
      exact List.mem_cons_of_mem 0 hb
  · rintro ⟨rfl, hzeros⟩
    refine ⟨[], rest.length + 1, ?_, by simp, rfl⟩
    rw [List.nil_append, List.replicate_succ, ← List.eq_replicate_of_mem hzeros]

/-- A code that begins with another byte has it as its first character. -/
theorem codeChars_cons {n : Nat} {b : UInt8} (hb : b ≠ 0) {rest : Bytes} :
    CodeChars n (b :: rest) ↔ isAsciiAlphaNumeric b = true ∧ ∃ m, n = m + 1 ∧ CodeChars m rest := by
  constructor
  · rintro ⟨chars, zeros, hcode, hchars, rfl⟩
    cases chars with
    | nil =>
      have hmem : b ∈ List.replicate zeros 0 := by
        rw [← List.nil_append (List.replicate zeros 0), ← hcode]
        exact List.mem_cons_self
      exact absurd (List.eq_of_mem_replicate hmem) hb
    | cons c chars =>
      obtain ⟨rfl, rfl⟩ := List.cons.inj hcode
      exact ⟨hchars b List.mem_cons_self, chars.length, rfl, chars, zeros, rfl,
        fun c hc => hchars c (List.mem_cons_of_mem b hc), rfl⟩
  · rintro ⟨halnum, m, rfl, chars, zeros, rfl, hchars, rfl⟩
    refine ⟨b :: chars, zeros, rfl, fun c hc => ?_, rfl⟩
    rcases List.mem_cons.mp hc with rfl | hc
    · exact halnum
    · exact hchars c hc

/-- After the first zero the scanner takes zeros only. -/
theorem assetCodeChars_true {code : Bytes} {seen n : Nat} :
    assetCodeChars code true seen = some n ↔ n = seen ∧ ∀ b ∈ code, b = 0 := by
  induction code with
  | nil => simp [assetCodeChars, eq_comm]
  | cons b rest ih =>
    unfold assetCodeChars
    by_cases hb : b = 0
    · simp [hb, ih]
    · simp [hb]

/-- The scanner counts the characters before the zeros. -/
theorem assetCodeChars_false {code : Bytes} {seen n : Nat} :
    assetCodeChars code false seen = some n ↔ ∃ m, n = seen + m ∧ CodeChars m code := by
  induction code generalizing seen with
  | nil => simp [assetCodeChars, codeChars_nil, eq_comm]
  | cons b rest ih =>
    unfold assetCodeChars
    by_cases hb : b = 0
    · subst hb
      rw [if_pos rfl, assetCodeChars_true]
      constructor
      · rintro ⟨rfl, hzeros⟩
        exact ⟨0, rfl, codeChars_zero.mpr ⟨rfl, hzeros⟩⟩
      · rintro ⟨m, rfl, hcode⟩
        obtain ⟨rfl, hzeros⟩ := codeChars_zero.mp hcode
        exact ⟨rfl, hzeros⟩
    · rw [if_neg hb]
      by_cases halnum : isAsciiAlphaNumeric b = true
      · have hrange := (isAsciiAlphaNumeric_range halnum).2
        rw [if_neg (by simp [halnum, hrange]), ih]
        constructor
        · rintro ⟨m, rfl, hrest⟩
          exact ⟨m + 1, by omega, (codeChars_cons hb).mpr ⟨halnum, m, rfl, hrest⟩⟩
        · rintro ⟨_, rfl, hcode⟩
          obtain ⟨-, m, rfl, hrest⟩ := (codeChars_cons hb).mp hcode
          exact ⟨m, by omega, hrest⟩
      · rw [if_pos (by simp [halnum])]
        constructor
        · intro h
          cases h
        · rintro ⟨_, rfl, hcode⟩
          exact absurd ((codeChars_cons hb).mp hcode).1 halnum

/-! ## Footprint keys -/

/-- The asset of a trustline a footprint may name: a pool share, or a valid
credit asset that its holder does not issue. -/
def FootprintAsset (holder : AccountId) : TrustLineAsset → Prop
  | .assetTypeNative => False
  | .assetTypePoolShare _ => True
  | .assetTypeCreditAlphanum4 code issuer => (∃ n, 0 < n ∧ CodeChars n code) ∧ issuer ≠ holder
  | .assetTypeCreditAlphanum12 code issuer => (∃ n, 4 < n ∧ CodeChars n code) ∧ issuer ≠ holder

/-- The keys a footprint may name. -/
def FootprintKey : LedgerKey → Prop
  | .account _ => True
  | .contractData _ _ _ => True
  | .contractCode _ => True
  | .trustline holder asset => FootprintAsset holder asset
  | .unsupported _ _ => False

/-- The scanner's count against a least length. -/
theorem assetCodeChars_any {code : Bytes} {least : Nat} :
    (assetCodeChars code false 0).any (least < ·) = true ↔ ∃ n, least < n ∧ CodeChars n code := by
  rw [Option.any_eq_true]
  constructor
  · rintro ⟨n, hn, hlt⟩
    obtain ⟨m, rfl, hcode⟩ := assetCodeChars_false.mp hn
    exact ⟨m, by simpa using hlt, hcode⟩
  · rintro ⟨n, hlt, hcode⟩
    exact ⟨n, assetCodeChars_false.mpr ⟨n, by omega, hcode⟩, by simpa using hlt⟩

theorem footprintAsset_iff {holder : AccountId} {asset : TrustLineAsset} :
    (!trustLineAssetValid asset || asset == .assetTypeNative || isIssuerOf holder asset) = false ↔
      FootprintAsset holder asset := by
  cases asset with
  | assetTypeNative => simp [FootprintAsset]
  | assetTypePoolShare pool => simp [FootprintAsset, trustLineAssetValid, isIssuerOf]
  | assetTypeCreditAlphanum4 code issuer =>
    simp [FootprintAsset, trustLineAssetValid, isIssuerOf, assetCodeChars_any]
  | assetTypeCreditAlphanum12 code issuer =>
    simp [FootprintAsset, trustLineAssetValid, isIssuerOf, assetCodeChars_any]

/-- One limit. -/
theorem overLimit_eq_none {what : String} {value limit : Int} :
    overLimit what value limit = none ↔ value ≤ limit := by
  unfold overLimit
  split
  · next h => simp [h]
  · next h => simpa using h

theorem footprintKeyProblem_eq_none {d : Deps} {limits : NetworkFeeSettings} {key : LedgerKey} :
    footprintKeyProblem d limits key = none ↔
      FootprintKey key ∧ d.keySize key ≤ limits.maxContractDataKeySizeBytes := by
  have hsize := @overLimit_eq_none "transaction footprint key exceeds network config limit"
    (d.keySize key) limits.maxContractDataKeySizeBytes
  rw [Int.ofNat_le] at hsize
  cases key with
  | account id => simp [footprintKeyProblem, FootprintKey, hsize]
  | contractData contract key durability => simp [footprintKeyProblem, FootprintKey, hsize]
  | contractCode hash => simp [footprintKeyProblem, FootprintKey, hsize]
  | unsupported type xdr => simp [footprintKeyProblem, FootprintKey]
  | trustline holder asset =>
    dsimp only [footprintKeyProblem, FootprintKey]
    rw [← footprintAsset_iff]
    split
    · next h => simp [h]
    · next h => simpa [h] using hsize

/-! ## Archived indexes -/

theorem archivedIndexProblem_eq_none {readWrite : List LedgerKey} {last : Option Nat}
    {indexes : List Nat} :
    archivedIndexProblem readWrite last indexes = none ↔
      (∀ l ∈ last, ∀ i ∈ indexes, l < i) ∧ indexes.Pairwise (· < ·) ∧
      ∀ i ∈ indexes, ∃ key, readWrite[i]? = some key ∧ isPersistent key = true := by
  induction indexes generalizing last with
  | nil => simp [archivedIndexProblem]
  | cons index rest ih =>
    unfold archivedIndexProblem
    by_cases hlast : last.any (index ≤ ·) = true
    · rw [if_pos hlast]
      obtain ⟨l, hl, hle⟩ := (Option.any_eq_true ..).mp hlast
      have hle : index ≤ l := by simpa using hle
      refine ⟨fun h => (by cases h), fun h => ?_⟩
      exact absurd (h.1 l hl index List.mem_cons_self) (not_lt.mpr hle)
    · rw [if_neg hlast]
      have hbelow : ∀ l ∈ last, l < index := by
        intro l hl
        exact not_le.mp fun hle => hlast ((Option.any_eq_true ..).mpr ⟨l, hl, by simpa using hle⟩)
      cases hkey : readWrite[index]? with
      | none => simp [hkey]
      | some key =>
        by_cases hpersistent : isPersistent key = true
        · simp only [hpersistent, Bool.not_true, Bool.false_eq_true, if_false, ih,
            List.pairwise_cons, List.forall_mem_cons, hkey, Option.mem_def, Option.some.injEq]
          constructor
          · rintro ⟨habove, hsorted, hrest⟩
            refine ⟨fun l hl => ⟨hbelow l hl, fun i hi => ?_⟩, ⟨fun i hi => ?_, hsorted⟩,
              ⟨key, rfl, hpersistent⟩, hrest⟩
            · exact lt_trans (hbelow l hl) (habove index rfl i hi)
            · exact habove index rfl i hi
          · rintro ⟨-, ⟨habove, hsorted⟩, -, hrest⟩
            refine ⟨?_, hsorted, hrest⟩
            rintro _ rfl
            exact habove
        · simp [hkey, hpersistent]

/-! ## The limits -/

/-- The declared resources, footprint and archived indexes the network
accepts, for an envelope of that size. -/
structure ResourcesAccepted (d : Deps) (limits : NetworkFeeSettings)
    (data : SorobanTransactionData) (txSize : Nat) (isRestore : Bool) : Prop where
  instructions : data.resources.instructions ≤ limits.txMaxInstructions
  diskReadBytes : data.resources.diskReadBytes ≤ limits.txMaxDiskReadBytes
  writeBytes : data.resources.writeBytes ≤ limits.txMaxWriteBytes
  footprint : data.resources.footprint.keys.length ≤ limits.txMaxFootprintEntries
  diskReads : numDiskReadEntries data isRestore ≤ limits.txMaxDiskReadEntries
  readWrite : data.resources.footprint.readWrite.length ≤ limits.txMaxWriteLedgerEntries
  size : txSize ≤ limits.txMaxSizeBytes
  keys : ∀ key ∈ data.resources.footprint.keys,
    FootprintKey key ∧ d.keySize key ≤ limits.maxContractDataKeySizeBytes
  ascending : data.archivedSorobanEntries.Pairwise (· < ·)
  archived : ∀ i ∈ data.archivedSorobanEntries, ∃ key,
    data.resources.footprint.readWrite[i]? = some key ∧ isPersistent key = true

theorem orElse_eq_none {o : Option String} {f : Unit → Option String} :
    o.orElse f = none ↔ o = none ∧ f () = none := by
  cases o <;> simp [Option.orElse]

/-- The checks find no problem exactly where the network accepts the
resources, whether or not a simulation declared them. -/
theorem sorobanResourcesProblem_eq_none (d : Deps) (limits : NetworkFeeSettings)
    (data : SorobanTransactionData) (txSize : Nat) (isRestore : Bool) :
    sorobanResourcesProblem d limits data txSize isRestore = none ↔
      ResourcesAccepted d limits data txSize isRestore := by
  have hkeys : data.resources.footprint.keys.findSome? (footprintKeyProblem d limits) = none ↔
      ∀ key ∈ data.resources.footprint.keys,
        FootprintKey key ∧ d.keySize key ≤ limits.maxContractDataKeySizeBytes := by
    simp only [List.findSome?_eq_none_iff, footprintKeyProblem_eq_none]
  have harchived := @archivedIndexProblem_eq_none data.resources.footprint.readWrite none
    data.archivedSorobanEntries
  unfold sorobanResourcesProblem
  simp only [orElse_eq_none, overLimit_eq_none, Int.ofNat_le, hkeys, harchived]
  constructor
  · rintro ⟨hinstructions, hread, hwrite, hfootprint, hdisk, hentries, hkeys, hsize, -, hsorted,
      hpersistent⟩
    exact ⟨hinstructions, hread, hwrite, hfootprint, hdisk, hentries, hsize, hkeys, hsorted,
      hpersistent⟩
  · rintro ⟨hinstructions, hread, hwrite, hfootprint, hdisk, hentries, hsize, hkeys, hsorted,
      hpersistent⟩
    exact ⟨hinstructions, hread, hwrite, hfootprint, hdisk, hentries, hkeys, hsize,
      by simp, hsorted, hpersistent⟩

end LiteSoroban

import Mathlib.Data.Finset.Sort
import Mathlib.Data.List.Lex
import LiteSoroban.Env.State
import LiteSoroban.Lib.PrefixCode

/-!
# What the state hash covers

`state_hash` feeds SHA-256 the key, the entry and the TTL of every slot, in
the order of the keys and with nothing between them.  A slot without a TTL is
fed a TTL of 0.

`stateBytes_eq_iff` says what the bytes determine: with encodings that need no
framing, the keys, the entries, and the TTLs up to that 0.
`stateBytes_identifies_iff` says which stores the hash fails to tell apart.
-/

namespace LiteSoroban

open PrefixCode

/-! ## The bytes -/

/-- The XDR encodings of keys and entries. -/
structure XdrEncoder where
  key : LedgerKey → Bytes
  entry : LedgerEntry → Bytes

/-- The derived order of the keys is a total order. -/
structure Deps.OrdersKeys (d : Deps) : Prop where
  trans : ∀ a b c, d.keyLe a b = true → d.keyLe b c = true → d.keyLe a c = true
  antisymm : ∀ a b, d.keyLe a b = true → d.keyLe b a = true → a = b
  total : ∀ a b, d.keyLe a b = true ∨ d.keyLe b a = true

/-- What is fed to the hash of one slot: key, entry, TTL. -/
abbrev HashRecord := LedgerKey × LedgerEntry × Nat

/-- A slot's entry and TTL as they are fed to the hash. -/
def EntryWithLiveUntil.hashed (e : EntryWithLiveUntil) : LedgerEntry × Nat :=
  (e.entry, e.liveUntil.getD 0)

namespace Store

/-- The keys in the order of the `BTreeMap`. -/
def sortedKeys {d : Deps} (horder : d.OrdersKeys) (store : Store) : List LedgerKey :=
  haveI : IsTrans LedgerKey fun a b => d.keyLe a b = true := ⟨horder.trans⟩
  haveI : Std.Antisymm fun a b : LedgerKey => d.keyLe a b = true := ⟨horder.antisymm⟩
  haveI : Std.Total fun a b : LedgerKey => d.keyLe a b = true := ⟨horder.total⟩
  store.keys.sort fun a b => d.keyLe a b = true

/-- The slots of the store, in that order. -/
def records {d : Deps} (horder : d.OrdersKeys) (store : Store) : List HashRecord :=
  (store.sortedKeys horder).filterMap fun key =>
    (store.lookup key).map fun e => (key, e.hashed)

end Store

/-- What one slot adds to the bytes. -/
def recordBytes (x : XdrEncoder) (r : HashRecord) : Bytes :=
  x.key r.1 ++ (x.entry r.2.1 ++ leBytes32 r.2.2)

/-- The bytes `state_hash` feeds to the hash. -/
def SorobanEnv.stateBytes {d : Deps} (horder : d.OrdersKeys) (x : XdrEncoder) (env : SorobanEnv) :
    Bytes :=
  (env.store.records horder).flatMap (recordBytes x)

/-- `state_hash`. -/
def SorobanEnv.stateHash {d : Deps} (horder : d.OrdersKeys) (x : XdrEncoder) (env : SorobanEnv) :
    Bytes :=
  d.sha256 (env.stateBytes horder x)

/-! ## What the slots determine -/

theorem Store.mem_sortedKeys {d : Deps} (horder : d.OrdersKeys) {store : Store} {key : LedgerKey} :
    key ∈ store.sortedKeys horder ↔ (store.lookup key).isSome := by
  unfold Store.sortedKeys
  rw [Finset.mem_sort, Finmap.mem_keys, Finmap.lookup_isSome]

theorem Store.mem_records {d : Deps} (horder : d.OrdersKeys) {store : Store} {r : HashRecord} :
    r ∈ store.records horder ↔ (store.lookup r.1).map (·.hashed) = some r.2 := by
  unfold Store.records
  rw [List.mem_filterMap]
  constructor
  · rintro ⟨key, -, hr⟩
    obtain ⟨e, he, rfl⟩ := Option.map_eq_some_iff.mp hr
    rw [he]
    rfl
  · intro h
    obtain ⟨e, he, hr⟩ := Option.map_eq_some_iff.mp h
    refine ⟨r.1, (Store.mem_sortedKeys horder).mpr (by rw [he]; rfl), ?_⟩
    rw [he, Option.map_some, hr]

/-- Two stores have the same records exactly if they agree key by key. -/
theorem Store.records_eq_iff {d : Deps} (horder : d.OrdersKeys) {s₁ s₂ : Store} :
    s₁.records horder = s₂.records horder ↔
      ∀ key, (s₁.lookup key).map (·.hashed) = (s₂.lookup key).map (·.hashed) := by
  constructor
  · intro h key
    ext hashed
    rw [← Store.mem_records horder (r := (key, hashed)), h, Store.mem_records horder]
  · intro h
    have hkeys : s₁.keys = s₂.keys := by
      ext key
      rw [Finmap.mem_keys, Finmap.mem_keys, ← Finmap.lookup_isSome, ← Finmap.lookup_isSome,
        ← Option.isSome_map (f := (·.hashed)), h key, Option.isSome_map]
    unfold Store.records Store.sortedKeys
    rw [hkeys]
    apply List.filterMap_congr
    intro key _
    have hmap := congrArg (Option.map fun hashed => ((key, hashed) : HashRecord)) (h key)
    rw [Option.map_map, Option.map_map] at hmap
    exact hmap

/-! ## What the bytes determine -/

/-- The encodings in a store need no framing. -/
structure XdrEncoder.SeparatesIn (x : XdrEncoder) (stores : Set Store) : Prop where
  key : PrefixFreeOn {key | ∃ s ∈ stores, (Finmap.lookup key s).isSome} x.key
  entry : PrefixFreeOn {entry | ∃ s ∈ stores, ∃ key e, Finmap.lookup key s = some e ∧
    e.entry = entry} x.entry

/-- Every TTL of the store is a `u32`. -/
def Store.WordTtls (store : Store) : Prop :=
  ∀ key e t, store.lookup key = some e → e.liveUntil = some t → t < 2 ^ 32

theorem Store.WordTtls.empty : Store.WordTtls ∅ := by
  intro key e t he _
  rw [Finmap.lookup_empty] at he
  cases he

theorem Store.WordTtls.insert {store : Store} (h : store.WordTtls) (key : LedgerKey)
    {e : EntryWithLiveUntil} (he : ∀ t, e.liveUntil = some t → t < 2 ^ 32) :
    Store.WordTtls (store.insert key e) := by
  intro k e' t he'
  exact Store.forall_insert (P := fun _ e => ∀ t, e.liveUntil = some t → t < 2 ^ 32)
    (fun k e he t => h k e t he) he k e' he' t

theorem recordBytes_ne_nil (x : XdrEncoder) (r : HashRecord) : recordBytes x r ≠ [] := by
  intro h
  have hlength := congrArg List.length h
  unfold recordBytes at hlength
  rw [List.length_append, List.length_append, leBytes32_length, List.length_nil] at hlength
  omega

/-- A TTL that is fed to the hash is a `u32`. -/
theorem Store.WordTtls.hashed {store : Store} (h : store.WordTtls) {key : LedgerKey}
    {e : EntryWithLiveUntil} (he : store.lookup key = some e) : e.hashed.2 < 2 ^ 32 := by
  unfold EntryWithLiveUntil.hashed
  cases httl : e.liveUntil with
  | none => exact Nat.two_pow_pos 32
  | some t => exact h key e t he httl

/-- The bytes of two environments are equal exactly if their stores agree, up
to the 0 that stands for no TTL. -/
theorem stateBytes_eq_iff {d : Deps} (horder : d.OrdersKeys) {x : XdrEncoder}
    {env₁ env₂ : SorobanEnv} (hx : x.SeparatesIn {env₁.store, env₂.store})
    (h₁ : env₁.store.WordTtls) (h₂ : env₂.store.WordTtls) :
    env₁.stateBytes horder x = env₂.stateBytes horder x ↔
      ∀ key, (env₁.store.lookup key).map (·.hashed) = (env₂.store.lookup key).map (·.hashed) := by
  rw [← Store.records_eq_iff horder]
  have hcode := hx.key.prod (hx.entry.prod leBytes32_prefixFreeOn)
  have hmem : ∀ store ∈ ({env₁.store, env₂.store} : Set Store), store.WordTtls →
      ∀ r ∈ store.records horder, r ∈ {key | ∃ s ∈ ({env₁.store, env₂.store} : Set Store),
          (Finmap.lookup key s).isSome} ×ˢ
        {entry | ∃ s ∈ ({env₁.store, env₂.store} : Set Store), ∃ key e,
          Finmap.lookup key s = some e ∧ e.entry = entry} ×ˢ {n | n < 2 ^ 32} := by
    intro store hstore hword r hr
    obtain ⟨e, he, hhashed⟩ := Option.map_eq_some_iff.mp ((Store.mem_records horder).mp hr)
    refine ⟨⟨store, hstore, by rw [he]; rfl⟩, ⟨store, hstore, r.1, e, he, ?_⟩, ?_⟩
    · exact congrArg Prod.fst hhashed
    · rw [← hhashed]
      exact hword.hashed he
  constructor
  · intro h
    exact hcode.flatMap_inj (fun r _ => recordBytes_ne_nil x r)
      (hmem env₁.store (.inl rfl) h₁) (hmem env₂.store (.inr rfl) h₂) h
  · intro h
    unfold SorobanEnv.stateBytes
    rw [h]

/-! ## What the hash identifies -/

/-- Two stores that differ, and only where one has no TTL and the other a TTL
of 0. -/
structure OnlyZeroTtlsDiffer (s₁ s₂ : Store) : Prop where
  ne : s₁ ≠ s₂
  agree : ∀ key, s₁.lookup key = s₂.lookup key ∨ ∃ entry,
    (s₁.lookup key = some ⟨entry, none⟩ ∧ s₂.lookup key = some ⟨entry, some 0⟩) ∨
    (s₁.lookup key = some ⟨entry, some 0⟩ ∧ s₂.lookup key = some ⟨entry, none⟩)

/-- Two slots are fed to the hash alike exactly if they are equal, or one has
no TTL where the other has 0. -/
theorem hashed_eq_iff {slot₁ slot₂ : Option EntryWithLiveUntil} :
    slot₁.map (·.hashed) = slot₂.map (·.hashed) ↔ slot₁ = slot₂ ∨ ∃ entry,
      (slot₁ = some ⟨entry, none⟩ ∧ slot₂ = some ⟨entry, some 0⟩) ∨
      (slot₁ = some ⟨entry, some 0⟩ ∧ slot₂ = some ⟨entry, none⟩) := by
  constructor
  · intro h
    rcases slot₁ with _ | ⟨entry₁, ttl₁⟩
    · cases slot₂ with
      | none => exact .inl rfl
      | some e₂ => cases h
    · rcases slot₂ with _ | ⟨entry₂, ttl₂⟩
      · cases h
      · simp only [Option.map_some, EntryWithLiveUntil.hashed, Option.some.injEq,
          Prod.mk.injEq] at h
        obtain ⟨rfl, httl⟩ := h
        cases ttl₁ with
        | none =>
          cases ttl₂ with
          | none => exact .inl rfl
          | some t₂ =>
            cases httl
            exact .inr ⟨entry₁, .inl ⟨rfl, rfl⟩⟩
        | some t₁ =>
          cases ttl₂ with
          | none =>
            cases httl
            exact .inr ⟨entry₁, .inr ⟨rfl, rfl⟩⟩
          | some t₂ =>
            cases httl
            exact .inl rfl
  · rintro (rfl | ⟨entry, ⟨rfl, rfl⟩ | ⟨rfl, rfl⟩⟩)
    · rfl
    · rfl
    · rfl

/-- An entry put without a TTL and the same entry put with a TTL of 0 make two
stores that differ, and nowhere else. -/
theorem putEntry_onlyZeroTtlsDiffer {env env₁ env₂ : SorobanEnv} {entry : LedgerEntry}
    (h₁ : env.putEntry entry none = .ok env₁) (h₂ : env.putEntry entry (some 0) = .ok env₂) :
    OnlyZeroTtlsDiffer env₁.store env₂.store := by
  unfold SorobanEnv.putEntry at h₁ h₂
  cases hkey : keyOf entry with
  | error e =>
    rw [hkey] at h₁
    cases h₁
  | ok key =>
    rw [hkey] at h₁ h₂
    cases h₁
    cases h₂
    constructor
    · intro heq
      have hslot := congrArg (Finmap.lookup key) heq
      rw [Finmap.lookup_insert, Finmap.lookup_insert] at hslot
      cases hslot
    · intro key'
      by_cases hsame : key' = key
      · subst hsame
        exact .inr ⟨entry, .inl ⟨Finmap.lookup_insert _, Finmap.lookup_insert _⟩⟩
      · exact .inl ((Finmap.lookup_insert_of_ne _ hsame).trans
          (Finmap.lookup_insert_of_ne _ hsame).symm)

/-- Whatever the encodings, such stores are fed to the hash alike. -/
theorem OnlyZeroTtlsDiffer.stateBytes {d : Deps} (horder : d.OrdersKeys) (x : XdrEncoder)
    {env₁ env₂ : SorobanEnv} (h : OnlyZeroTtlsDiffer env₁.store env₂.store) :
    env₁.stateBytes horder x = env₂.stateBytes horder x := by
  unfold SorobanEnv.stateBytes
  rw [(Store.records_eq_iff horder).mpr fun key => hashed_eq_iff.mpr (h.agree key)]

/-- Contract data as a test may put it. -/
def counterEntry (durability : ContractDataDurability) : LedgerEntry :=
  ⟨900, .contractData ⟨⟨[0, 0, 0, 1, 7]⟩, ⟨[0, 0, 0, 1]⟩, durability, ⟨[0, 0, 0, 3, 0, 0, 0, 5]⟩⟩,
    .v0⟩

/-- Two stores that differ and that no encoding tells apart. -/
theorem stateBytes_absent_eq_zero :
    ∃ env₁ env₂, (SorobanEnv.new 23 1000).putEntry (counterEntry .persistent) none = .ok env₁ ∧
      (SorobanEnv.new 23 1000).putEntry (counterEntry .persistent) (some 0) = .ok env₂ ∧
      env₁.store ≠ env₂.store ∧
      ∀ (d : Deps) (horder : d.OrdersKeys) (x : XdrEncoder),
        env₁.stateBytes horder x = env₂.stateBytes horder x := by
  have hdiffer := @putEntry_onlyZeroTtlsDiffer (SorobanEnv.new 23 1000) _ _
    (counterEntry .persistent) rfl rfl
  exact ⟨_, _, rfl, rfl, hdiffer.ne, fun d horder x => hdiffer.stateBytes horder x⟩

/-- The bytes identify two stores exactly unless these differ, and only where
one has no TTL and the other a TTL of 0. -/
theorem stateBytes_identifies_iff {d : Deps} (horder : d.OrdersKeys) {x : XdrEncoder}
    {env₁ env₂ : SorobanEnv} (hx : x.SeparatesIn {env₁.store, env₂.store})
    (h₁ : env₁.store.WordTtls) (h₂ : env₂.store.WordTtls) :
    (env₁.stateBytes horder x = env₂.stateBytes horder x → env₁.store = env₂.store) ↔
      ¬ OnlyZeroTtlsDiffer env₁.store env₂.store := by
  have hbytes : env₁.stateBytes horder x = env₂.stateBytes horder x ↔ ∀ key, _ :=
    (stateBytes_eq_iff horder hx h₁ h₂).trans (forall_congr' fun key => hashed_eq_iff)
  constructor
  · exact fun hidentifies hdiffer => hdiffer.ne (hidentifies (hbytes.mpr hdiffer.agree))
  · intro hnot h
    by_contra hne
    exact hnot ⟨hne, hbytes.mp h⟩

/-! ## A concrete order and encoding -/

/-- Bytes as numbers, which are ordered. -/
def bytesWords (bytes : Bytes) : List Nat := bytes.map UInt8.toNat

theorem bytesWords_injective : Function.Injective bytesWords :=
  List.map_injective_iff.mpr fun _ _ => UInt8.toNat_inj.mp

def TrustLineAsset.words : TrustLineAsset → List (List Nat)
  | .assetTypeNative => [[0]]
  | .assetTypeCreditAlphanum4 code issuer => [[1], bytesWords code, bytesWords issuer.ed25519]
  | .assetTypeCreditAlphanum12 code issuer => [[2], bytesWords code, bytesWords issuer.ed25519]
  | .assetTypePoolShare pool => [[3], bytesWords pool]

theorem AccountId.ed25519_inj {a b : AccountId} : a.ed25519 = b.ed25519 ↔ a = b := by
  rw [AccountId.mk.injEq]

theorem TrustLineAsset.words_injective : Function.Injective TrustLineAsset.words := by
  intro a b h
  cases a <;> cases b <;>
    simp_all [TrustLineAsset.words, bytesWords_injective.eq_iff, AccountId.ed25519_inj]

/-- The fields of a key in the order the derived `Ord` compares them, the
number of the variant first. -/
def LedgerKey.words : LedgerKey → List (List Nat)
  | .account id => [[0], bytesWords id.ed25519]
  | .trustline id asset => [1] :: bytesWords id.ed25519 :: asset.words
  | .contractData contract k durability =>
    [[2], bytesWords contract.xdr, bytesWords k.xdr, [durability.ctorIdx]]
  | .contractCode hash => [[3], bytesWords hash]
  | .unsupported type xdr => [[4], [type.ctorIdx], bytesWords xdr]

theorem ScAddress.xdr_inj {a b : ScAddress} : a.xdr = b.xdr ↔ a = b := by
  rw [ScAddress.mk.injEq]

theorem ScVal.xdr_inj {a b : ScVal} : a.xdr = b.xdr ↔ a = b := by
  rw [ScVal.mk.injEq]

theorem LedgerKey.words_injective : Function.Injective LedgerKey.words := by
  have hdurability : ∀ d e : ContractDataDurability, d.ctorIdx = e.ctorIdx → d = e := by
    intro d e
    cases d <;> cases e <;> decide
  have htype : ∀ t u : UnsupportedEntryType, t.ctorIdx = u.ctorIdx → t = u := by
    intro t u
    cases t <;> cases u <;> decide
  intro a b h
  cases a <;> cases b <;>
    simp_all [LedgerKey.words, bytesWords_injective.eq_iff, AccountId.ed25519_inj,
      ScAddress.xdr_inj, ScVal.xdr_inj, TrustLineAsset.words_injective.eq_iff]
  · exact hdurability _ _ h.2.2
  · exact htype _ _ h.1

/-- The idle host with the derived order of the keys. -/
def Deps.ordering : Deps :=
  { Deps.idle with keyLe := fun a b => decide (a.words ≤ b.words) }

theorem Deps.ordering_ordersKeys : Deps.ordering.OrdersKeys where
  trans _ _ _ hab hbc := decide_eq_true ((of_decide_eq_true hab).trans (of_decide_eq_true hbc))
  antisymm _ _ hab hba := LedgerKey.words_injective
    (le_antisymm (of_decide_eq_true hab) (of_decide_eq_true hba))
  total a b := (le_total a.words b.words).imp decide_eq_true decide_eq_true

/-- The XDR of contract data, and of nothing else. -/
def contractDataXdr : XdrEncoder where
  key
    | .contractData contract k durability =>
      [0, 0, 0, 6] ++ contract.xdr ++ k.xdr ++ [0, 0, 0, UInt8.ofNat durability.ctorIdx]
    | _ => []
  entry e := match e.data with
    | .contractData c =>
      (leBytes32 e.lastModifiedLedgerSeq).reverse ++ [0, 0, 0, 6, 0, 0, 0, 0] ++ c.contract.xdr ++
        c.key.xdr ++ [0, 0, 0, UInt8.ofNat c.durability.ctorIdx] ++ c.val.xdr ++ [0, 0, 0, 0]
    | _ => []

/-- A ledger with one counter. -/
def counterEnv (durability : ContractDataDurability) (liveUntil : Option Nat) : SorobanEnv :=
  { SorobanEnv.new 23 1000 with
    store := Finmap.singleton
      (.contractData ⟨[0, 0, 0, 1, 7]⟩ ⟨[0, 0, 0, 1]⟩ durability)
      ⟨counterEntry durability, liveUntil⟩ }

theorem counterEnv_lookup {durability : ContractDataDurability} {liveUntil : Option Nat}
    {key : LedgerKey} {e : EntryWithLiveUntil}
    (h : (counterEnv durability liveUntil).store.lookup key = some e) :
    key = .contractData ⟨[0, 0, 0, 1, 7]⟩ ⟨[0, 0, 0, 1]⟩ durability ∧
      e = ⟨counterEntry durability, liveUntil⟩ := by
  by_cases hkey : key = .contractData ⟨[0, 0, 0, 1, 7]⟩ ⟨[0, 0, 0, 1]⟩ durability
  · subst hkey
    exact ⟨rfl, (Option.some.inj (Finmap.lookup_singleton_eq.symm.trans h)).symm⟩
  · have hnone : (counterEnv durability liveUntil).store.lookup key = none := by
      rw [Finmap.lookup_eq_none]
      exact fun hmem => hkey (Finmap.mem_singleton _ _ _ |>.mp hmem)
    cases hnone.symm.trans h

theorem counterEnv_wordTtls {durability : ContractDataDurability} {liveUntil : Option Nat}
    (h : ∀ t, liveUntil = some t → t < 2 ^ 32) :
    (counterEnv durability liveUntil).store.WordTtls := by
  intro key e t he ht
  rw [(counterEnv_lookup he).2] at ht
  exact h t ht

theorem counterEntry_not_prefix :
    (¬ contractDataXdr.entry (counterEntry .persistent) <+:
      contractDataXdr.entry (counterEntry .temporary)) ∧
    ¬ contractDataXdr.entry (counterEntry .temporary) <+:
      contractDataXdr.entry (counterEntry .persistent) := by
  decide

/-- Neither of the two counters is encoded as a prefix of the other. -/
theorem contractDataXdr_separates (live₁ live₂ : Option Nat) :
    contractDataXdr.SeparatesIn
      {(counterEnv .persistent live₁).store, (counterEnv .temporary live₂).store} := by
  constructor
  · rintro a ⟨s, rfl | rfl, ha⟩ b ⟨t, rfl | rfl, hb⟩ hle <;>
      obtain ⟨e, he⟩ := Option.isSome_iff_exists.mp ha <;>
      obtain ⟨e', he'⟩ := Option.isSome_iff_exists.mp hb <;>
      obtain ⟨rfl, -⟩ := counterEnv_lookup he <;>
      obtain ⟨rfl, -⟩ := counterEnv_lookup he'
    · rfl
    · exact absurd hle (by decide)
    · exact absurd hle (by decide)
    · rfl
  · rintro a ⟨s, rfl | rfl, _, _, he, rfl⟩ b ⟨t, rfl | rfl, _, _, he', rfl⟩ hle <;>
      obtain ⟨-, rfl⟩ := counterEnv_lookup he <;>
      obtain ⟨-, rfl⟩ := counterEnv_lookup he'
    · rfl
    · exact absurd hle counterEntry_not_prefix.1
    · exact absurd hle counterEntry_not_prefix.2
    · rfl

theorem stateBytes_identifies_iff_counter :
    ((counterEnv .persistent (some 500)).stateBytes Deps.ordering_ordersKeys contractDataXdr =
        (counterEnv .temporary none).stateBytes Deps.ordering_ordersKeys contractDataXdr →
      (counterEnv .persistent (some 500)).store = (counterEnv .temporary none).store) ↔
    ¬ OnlyZeroTtlsDiffer (counterEnv .persistent (some 500)).store
      (counterEnv .temporary none).store :=
  stateBytes_identifies_iff Deps.ordering_ordersKeys (contractDataXdr_separates _ _)
    (counterEnv_wordTtls (by rintro t ⟨⟩; decide)) (counterEnv_wordTtls (by rintro t ⟨⟩))

end LiteSoroban

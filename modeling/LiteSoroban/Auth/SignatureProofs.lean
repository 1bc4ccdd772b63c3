import LiteSoroban.Lib.OrderedCode
import LiteSoroban.Xdr.Types

/-!
# Signature proofs

`signatureProofs` of `src/auth.ts` wraps the proofs of a smart account's
signers as a map.  The host takes a map only if its keys ascend in the host's
order, which compares the contents of symbols and byte strings.  The code sorts
the keys by their encodings, which have a length before every content.

* `toXdr_orderedOn` says what that order is: by the number of parts, then by
  the parts, and those by their lengths first.
* `sorted_hostLt_iff` says on which keys it is the host's order.
* `smartAccountMixed_ascending` is the case of the signers the file has.
-/

namespace LiteSoroban.Auth

open OrderedCode

/-! ## Encodings -/

/-- The zeros that fill the last word of a content. -/
def xdrPadding (length : Nat) : Bytes := List.replicate ((4 - length % 4) % 4) 0

/-- A content of variable length. -/
def xdrOpaque (content : Bytes) : Bytes :=
  beBytes32 content.length ++ (content ++ xdrPadding content.length)

/-- `ScVal.scvBytes`, encoded. -/
def scvBytes (content : Bytes) : Bytes := beBytes32 13 ++ xdrOpaque content

/-- `ScVal.scvSymbol`, encoded. -/
def scvSymbol (name : Bytes) : Bytes := beBytes32 15 ++ xdrOpaque name

/-- `ScVal.scvVec` of a symbol and byte strings, encoded: the arm, the flag of
the optional vector, its length, and its elements. -/
def scvCase (name : Bytes) (fields : List Bytes) : Bytes :=
  beBytes32 16 ++ (beBytes32 1 ++ (beBytes32 (fields.length + 1) ++
    (scvSymbol name ++ fields.flatMap scvBytes)))

/-- The contents an XDR length can be given for. -/
def xdrContents : Set Bytes := {content | content.length < 2 ^ 32}

/-- Contents compare by their lengths first. -/
theorem xdrOpaque_orderedOn :
    OrderedOn (· < ·) xdrContents (List.Shortlex (· < ·)) xdrOpaque := by
  have h := beBytes32_orderedOn.lengthPrefixed OrderedOn.letter xdrPadding
  intro a ha b hb u v
  have hab := h a ⟨ha, fun _ _ => trivial⟩ b ⟨hb, fun _ _ => trivial⟩ u v
  simpa only [List.flatMap_singleton', xdrOpaque] using hab

theorem scvBytes_orderedOn :
    OrderedOn (· < ·) xdrContents (List.Shortlex (· < ·)) scvBytes :=
  xdrOpaque_orderedOn.tag (beBytes32 13)

theorem scvSymbol_orderedOn :
    OrderedOn (· < ·) xdrContents (List.Shortlex (· < ·)) scvSymbol :=
  xdrOpaque_orderedOn.tag (beBytes32 15)

/-! ## Keys -/

/-- A `SignerKey`: the symbol of its case, and the byte strings behind it. -/
structure SignerKey where
  name : Bytes
  fields : List Bytes
  /-- A symbol has at most 32 characters. -/
  name_length : name.length ≤ 32
  fields_length : ∀ field ∈ fields, field.length < 2 ^ 32
  count : fields.length + 1 < 2 ^ 32
  deriving DecidableEq

namespace SignerKey

/-- The elements of the key's vector. -/
def parts (key : SignerKey) : List Bytes := key.name :: key.fields

theorem ext_parts {k k' : SignerKey} (h : k.parts = k'.parts) : k = k' := by
  cases k
  cases k'
  simp only [parts, List.cons.injEq] at h
  simp only [h]

/-- `key.toXdr()`. -/
def toXdr (key : SignerKey) : Bytes := scvCase key.name key.fields

/-- The host's order: the vectors element by element, and the elements by their
contents. -/
def HostLt (k k' : SignerKey) : Prop := List.Lex (List.Lex (· < ·)) k.parts k'.parts

/-- The order of the encodings. -/
def XdrLt (k k' : SignerKey) : Prop := List.Lex (· < ·) k.toXdr k'.toXdr

/-- `k` has fewer parts than `k'`, or as many, and at their first difference not
the longer one. -/
def SizesFollow (k k' : SignerKey) : Prop :=
  k.parts.length < k'.parts.length ∨
    k.parts.length = k'.parts.length ∧ FirstNotLonger k.parts k'.parts

instance (k k' : SignerKey) : Decidable (k.HostLt k') :=
  inferInstanceAs (Decidable (List.Lex (List.Lex (· < ·)) k.parts k'.parts))

instance (k k' : SignerKey) : Decidable (k.SizesFollow k') :=
  inferInstanceAs (Decidable (_ ∨ _ ∧ _))

instance : Std.Asymm HostLt where
  asymm _ _ h := asymm (r := List.Lex (List.Lex fun a b : UInt8 => a < b)) h

instance : Std.Trichotomous HostLt where
  trichotomous _ _ h h' := ext_parts <|
    Std.Trichotomous.trichotomous (r := List.Lex (List.Lex fun a b : UInt8 => a < b)) _ _ h h'

instance : Std.Asymm XdrLt where
  asymm _ _ h := asymm (r := List.Lex fun a b : UInt8 => a < b) h

theorem name_mem (k : SignerKey) : k.name ∈ xdrContents :=
  lt_of_le_of_lt k.name_length (by decide)

/-- The encodings compare by the number of parts, then by the parts, and those
by their lengths first. -/
theorem toXdr_lex_iff (k k' : SignerKey) :
    k.XdrLt k' ↔ List.Shortlex (List.Shortlex (· < ·)) k.parts k'.parts := by
  have hfields := scvBytes_orderedOn.flatMap k.fields_length k'.fields_length
  unfold XdrLt toXdr scvCase
  rw [lex_append_left_iff, lex_append_left_iff,
    beBytes32_orderedOn _ k.count _ k'.count,
    scvSymbol_orderedOn _ k.name_mem _ k'.name_mem, List.shortlex_def (s := k.parts), parts, parts,
    List.length_cons, List.length_cons, List.cons_lex_cons_iff]
  refine or_congr_right (and_congr_right fun hcount => ?_)
  refine or_congr_right (and_congr_right fun _ => ?_)
  have hnil := hfields (Nat.succ.inj hcount) [] []
  simpa using hnil

/-- Where the host has one key before another, so have the encodings if the
sizes follow. -/
theorem xdrLt_iff_of_hostLt {k k' : SignerKey} (h : k.HostLt k') :
    k.XdrLt k' ↔ k.SizesFollow k' := by
  rw [toXdr_lex_iff]
  exact shortlex_of_lex_iff h

/-- Different keys have different encodings. -/
theorem xdrLt_total {k k' : SignerKey} (h : k ≠ k') : k.XdrLt k' ∨ k'.XdrLt k := by
  by_contra hnone
  rw [not_or, toXdr_lex_iff, toXdr_lex_iff] at hnone
  exact h (ext_parts (shortlex_trichotomous hnone.1 hnone.2))

end SignerKey

/-! ## The map -/

/-- A signer's key and its proof. -/
structure SignerEntry where
  key : SignerKey
  proof : ScVal

/-- `xdr.ScMapEntry`. -/
structure ScMapEntry where
  key : SignerKey
  val : ScVal

/-- `ScVal.scvVec` of one `ScVal.scvMap`. -/
structure SignatureProofs where
  map : List ScMapEntry

def SignerEntry.mapEntry (e : SignerEntry) : ScMapEntry := ⟨e.key, e.proof⟩

/-- `Buffer.compare` of the encoded keys is not positive. -/
def SignerEntry.le (a b : SignerEntry) : Bool := a.key.toXdr ≤ b.key.toXdr

/-- The entries, sorted by their encoded keys. -/
def sortedEntries (entries : List SignerEntry) : List SignerEntry :=
  entries.mergeSort SignerEntry.le

/-- `signatureProofs`. -/
def signatureProofs (entries : List SignerEntry) : SignatureProofs where
  map := (sortedEntries entries).map SignerEntry.mapEntry

/-- The map has the pairs of the entries, and its keys ascend in the host's
order. -/
def ReturnsAscendingMap (entries : List SignerEntry) : Prop :=
  (signatureProofs entries).map.Perm (entries.map SignerEntry.mapEntry) ∧
    ((signatureProofs entries).map.map ScMapEntry.key).Pairwise SignerKey.HostLt

theorem sortedEntries_perm (entries : List SignerEntry) :
    (sortedEntries entries).Perm entries :=
  List.mergeSort_perm entries _

theorem SignerEntry.le_trans (a b c : SignerEntry) (hab : a.le b) (hbc : b.le c) : a.le c := by
  simp only [SignerEntry.le, decide_eq_true_eq] at hab hbc ⊢
  exact List.le_trans hab hbc

theorem SignerEntry.le_total (a b : SignerEntry) : a.le b || b.le a := by
  simp only [SignerEntry.le, Bool.or_eq_true, decide_eq_true_eq]
  exact List.le_total a.key.toXdr b.key.toXdr

/-- The sorted keys ascend in the order of their encodings. -/
theorem sortedEntries_xdrLt {entries : List SignerEntry}
    (hdistinct : (entries.map SignerEntry.key).Nodup) :
    ((sortedEntries entries).map SignerEntry.key).Pairwise SignerKey.XdrLt := by
  have hsorted : (sortedEntries entries).Pairwise fun a b => a.le b :=
    List.pairwise_mergeSort SignerEntry.le_trans SignerEntry.le_total entries
  have hapart : ((sortedEntries entries).map SignerEntry.key).Nodup :=
    ((sortedEntries_perm entries).map SignerEntry.key).nodup_iff.mpr hdistinct
  rw [List.pairwise_map]
  rw [List.Nodup, List.pairwise_map] at hapart
  refine (hsorted.and hapart).imp fun {a b} hab => ?_
  have hle : a.key.toXdr ≤ b.key.toXdr := of_decide_eq_true hab.1
  rcases SignerKey.xdrLt_total hab.2 with hlt | hgt
  · exact hlt
  · exact absurd hgt hle

/-- They ascend in the host's order exactly if the sizes of their parts
follow. -/
theorem sorted_hostLt_iff {entries : List SignerEntry}
    (hdistinct : (entries.map SignerEntry.key).Nodup) :
    ((sortedEntries entries).map SignerEntry.key).Pairwise SignerKey.HostLt ↔
      ∀ a ∈ entries, ∀ b ∈ entries, a.key.HostLt b.key → a.key.SizesFollow b.key := by
  have hmem : ∀ k, k ∈ (sortedEntries entries).map SignerEntry.key ↔
      k ∈ entries.map SignerEntry.key := fun k =>
    ((sortedEntries_perm entries).map SignerEntry.key).mem_iff
  rw [pairwise_iff_imp (sortedEntries_xdrLt hdistinct)]
  simp only [hmem, List.forall_mem_map]
  constructor
  · intro h a ha b hb hab
    exact (SignerKey.xdrLt_iff_of_hostLt hab).mp (h a ha b hb hab)
  · intro h a ha b hb hab
    exact (SignerKey.xdrLt_iff_of_hostLt hab).mpr (h a ha b hb hab)

/-- The pairs are always there. -/
theorem returnsAscendingMap_iff {entries : List SignerEntry} :
    ReturnsAscendingMap entries ↔
      ((sortedEntries entries).map SignerEntry.key).Pairwise SignerKey.HostLt := by
  have hkeys : (signatureProofs entries).map.map ScMapEntry.key =
      (sortedEntries entries).map SignerEntry.key := by
    simp only [signatureProofs, List.map_map]
    rfl
  unfold ReturnsAscendingMap
  rw [hkeys]
  exact and_iff_right ((sortedEntries_perm entries).map SignerEntry.mapEntry)

/-- **Signature proofs.**  For entries with different keys, the map has exactly
their pairs with the keys in the host's order if and only if, of every two keys,
the one the host has first has fewer parts, or as many, and is not the longer
one in the first part in which they differ. -/
theorem signatureProofs_ascending_iff (entries : List SignerEntry)
    (hdistinct : (entries.map SignerEntry.key).Nodup) :
    ReturnsAscendingMap entries ↔
      ∀ a ∈ entries, ∀ b ∈ entries, a.key.HostLt b.key → a.key.SizesFollow b.key := by
  rw [returnsAscendingMap_iff, sorted_hostLt_iff hdistinct]

/-! ## The signers of the file -/

/-- `'Ed25519'`. -/
def ed25519Case : Bytes := [0x45, 0x64, 0x32, 0x35, 0x35, 0x31, 0x39]

/-- `'Secp256r1'`. -/
def secp256r1Case : Bytes := [0x53, 0x65, 0x63, 0x70, 0x32, 0x35, 0x36, 0x72, 0x31]

/-- A key with one byte string of a length. -/
def caseKey (name : Bytes) (hname : name.length ≤ 32) (content : Bytes)
    (hcontent : content.length < 2 ^ 32) : SignerKey where
  name := name
  fields := [content]
  name_length := hname
  fields_length := by simpa using hcontent
  count := by simp

/-- Keys of one content follow by their sizes, if the case and the content of
the first are not the longer ones. -/
theorem sizesFollow_caseKey {name name' content content' : Bytes} {hname : name.length ≤ 32}
    {hname' : name'.length ≤ 32} {hcontent : content.length < 2 ^ 32}
    {hcontent' : content'.length < 2 ^ 32} (hnames : name.length ≤ name'.length)
    (hcontents : content.length ≤ content'.length) :
    (caseKey name hname content hcontent).SizesFollow (caseKey name' hname' content' hcontent') :=
  .inr ⟨rfl, .of_forall (.cons hnames (.cons hcontents .nil))⟩

/-- A signer: its public key, and its signature of a payload. -/
structure Signer (width : Nat) where
  publicKey : Bytes
  sign : Bytes → Bytes
  width_eq : publicKey.length = width

/-- `ed25519SignerKey`. -/
def ed25519SignerKey (signer : Signer 32) : SignerKey :=
  caseKey ed25519Case (by decide) signer.publicKey (by rw [signer.width_eq]; decide)

/-- `secp256r1SignerKey`. -/
def secp256r1SignerKey (signer : Signer 65) : SignerKey :=
  caseKey secp256r1Case (by decide) signer.publicKey (by rw [signer.width_eq]; decide)

/-- The entries of `smartAccountMixed`. -/
def mixedEntries (ed : List (Signer 32)) (p256 : List (Signer 65)) (payload : Bytes) :
    List SignerEntry :=
  (ed.map fun s => ⟨ed25519SignerKey s, ⟨scvCase ed25519Case [s.sign payload]⟩⟩) ++
    p256.map fun s => ⟨secp256r1SignerKey s, ⟨scvCase secp256r1Case [s.sign payload]⟩⟩

/-- `smartAccountMixed`. -/
def smartAccountMixed (ed : List (Signer 32)) (p256 : List (Signer 65)) (payload : Bytes) :
    SignatureProofs :=
  signatureProofs (mixedEntries ed p256 payload)

theorem mem_mixedEntries {ed : List (Signer 32)} {p256 : List (Signer 65)} {payload : Bytes}
    {e : SignerEntry} (h : e ∈ mixedEntries ed p256 payload) :
    (∃ s, e.key = ed25519SignerKey s) ∨ ∃ s, e.key = secp256r1SignerKey s := by
  rcases List.mem_append.mp h with h | h
  · obtain ⟨s, -, rfl⟩ := List.mem_map.mp h
    exact .inl ⟨s, rfl⟩
  · obtain ⟨s, -, rfl⟩ := List.mem_map.mp h
    exact .inr ⟨s, rfl⟩

/-- The host has the keys of the longer case last. -/
theorem not_secp256r1_hostLt_ed25519 (s : Signer 65) (s' : Signer 32) :
    ¬ (secp256r1SignerKey s).HostLt (ed25519SignerKey s') := by
  intro h
  have hnames : List.Lex (· < ·) secp256r1Case ed25519Case ∨ secp256r1Case = ed25519Case ∧ _ :=
    List.cons_lex_cons_iff.mp h
  rcases hnames with hlt | ⟨heq, -⟩
  · revert hlt
    decide
  · revert heq
    decide

/-- The keys of the file's signers ascend in the host's order. -/
theorem smartAccountMixed_ascending {ed : List (Signer 32)} {p256 : List (Signer 65)}
    {payload : Bytes} (hdistinct : ((mixedEntries ed p256 payload).map SignerEntry.key).Nodup) :
    ReturnsAscendingMap (mixedEntries ed p256 payload) := by
  rw [returnsAscendingMap_iff, sorted_hostLt_iff hdistinct]
  intro a ha b hb hab
  rcases mem_mixedEntries ha with ⟨s, hs⟩ | ⟨s, hs⟩ <;>
    rcases mem_mixedEntries hb with ⟨s', hs'⟩ | ⟨s', hs'⟩ <;> rw [hs, hs'] at hab ⊢
  · exact sizesFollow_caseKey le_rfl (by rw [s.width_eq, s'.width_eq])
  · exact sizesFollow_caseKey (by decide) (by rw [s.width_eq, s'.width_eq]; decide)
  · exact absurd hab (not_secp256r1_hostLt_ed25519 s s')
  · exact sizesFollow_caseKey le_rfl (by rw [s.width_eq, s'.width_eq])

/-! ## Sample maps -/

/-- `'WebAuthn'`, a case that is shorter than `'Secp256r1'`. -/
def webAuthnCase : Bytes := [0x57, 0x65, 0x62, 0x41, 0x75, 0x74, 0x68, 0x6e]

/-- The entry of a key with no bytes in it. -/
def emptyEntry (name : Bytes) (hname : name.length ≤ 32) : SignerEntry where
  key := caseKey name hname [] (by decide)
  proof := ⟨[]⟩

theorem signatureProofs_ascending_sample :
    ReturnsAscendingMap
      [emptyEntry secp256r1Case (by decide), emptyEntry ed25519Case (by decide)] :=
  (signatureProofs_ascending_iff _ (by decide)).mpr (by decide)

/-- The host has `'Secp256r1'` before `'WebAuthn'`, and the encodings have it
behind. -/
theorem signatureProofs_unsorted :
    ¬ ReturnsAscendingMap
      [emptyEntry secp256r1Case (by decide), emptyEntry webAuthnCase (by decide)] := by
  rw [returnsAscendingMap_iff, sorted_hostLt_iff (by decide)]
  decide

end LiteSoroban.Auth

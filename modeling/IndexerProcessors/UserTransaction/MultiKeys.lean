import IndexerProcessors.UserTransaction.Model

/-!
# The keys of multi signatures

A multi key account signs with some of its keys, and every signature says with which:
it has the index of the key. A multi ed25519 account has the indices in a list beside
the signatures. The row of a signature is to have the key the signature was made with.

For multi ed25519 signatures it has. For multi key signatures the source takes the key
in the place of the signature, whatever index the signature has, so that the keys are
right exactly if the key in the place is the key with the index
(`rows_carry_keys_iff`). The account restoration processor reads the indices.
-/

namespace IndexerProcessors.UserTransaction

open IndexerProcessors.AccountRestoration
open IndexerProcessors.Lib
open IndexerProcessors.WriteSet (Bytes AnyPublicKey)

/-- The signature as the account restoration processor reads it. -/
def MultiKeySignature.toRestoration (s : MultiKeySignature) : WriteSet.MultiKeySignature where
  publicKeys := s.publicKeys
  signatures := s.signatures.map (·.index)
  signaturesRequired := s.signaturesRequired

/-- The row of a signature has a key and its type. -/
def HasKey (row : Signature) (key : AnyPublicKey) : Prop :=
  row.publicKey = hex0x key.publicKey ∧ row.publicKeyType = some (getAnyPublicKeyType key)

/-- The keys that the account restoration processor says were used are those of the
rows. -/
def FlagsMatch (s : MultiKeySignature) (rows : List Signature) : Prop :=
  ∀ helper, PublicKeyAuthKeyHelper.createHelperFromMultiKeySig s.toRestoration = some helper →
    ∀ publicKey publicKeyType,
      (∃ key ∈ helper.keys, key.isPublicKeyUsed = true ∧ key.publicKey = publicKey ∧
        key.publicKeyType = publicKeyType) ↔
      ∃ row ∈ rows, row.publicKey = publicKey ∧ row.publicKeyType = some publicKeyType

/-- The rows of a multi key signature: each has the key its signature was made with. -/
structure CarriesKeys (s : MultiKeySignature) (rows : List Signature) : Prop where
  keys : List.Forall₂ (fun (row : Signature) (signature : IndexedSignature) =>
    ∃ key, s.publicKeys[signature.index.toNat]? = some key ∧ HasKey row key) rows s.signatures
  flags : FlagsMatch s rows

/-- The rows of a multi ed25519 signature: the `i`-th has the key with the `i`-th
index. -/
def CarriesIndexedKeys (s : MultiEd25519Signature) (rows : List Signature) : Prop :=
  rows.length = s.signatures.length ∧ ∀ (i : ℕ) (row : Signature), rows[i]? = some row →
    ∃ (index : UInt32) (key : Bytes), s.publicKeyIndices[i]? = some index ∧
      s.publicKeys[index.toNat]? = some key ∧ row.publicKey = hex0x key

/-- Every signature is there and stands in the place of a key that is the one it was
made with. -/
def SignedInPlace (s : MultiKeySignature) : Prop :=
  ∀ (i : ℕ) (signature : IndexedSignature), s.signatures[i]? = some signature →
    signature.signature.isSome ∧
      ∃ key key' : AnyPublicKey, s.publicKeys[i]? = some key ∧
        s.publicKeys[signature.index.toNat]? = some key' ∧
        key.publicKey = key'.publicKey ∧ key.type = key'.type

/-- Every signature has an index, of a key that is there. -/
def EveryKeyThere (s : MultiEd25519Signature) : Prop :=
  ∀ i < s.signatures.length, ∃ (index : UInt32) (key : Bytes),
    s.publicKeyIndices[i]? = some index ∧ s.publicKeys[index.toNat]? = some key

theorem forall₂_iff_getElem? {α β : Type} {R : α → β → Prop} {as : List α} {bs : List β} :
    List.Forall₂ R as bs ↔ as.length = bs.length ∧
      ∀ (i : ℕ) (a : α) (b : β), as[i]? = some a → bs[i]? = some b → R a b := by
  rw [List.forall₂_iff_get]
  refine and_congr_right fun hlength => ?_
  constructor
  · intro h i a b ha hb
    obtain ⟨hi, rfl⟩ := List.getElem?_eq_some_iff.mp ha
    obtain ⟨hi', rfl⟩ := List.getElem?_eq_some_iff.mp hb
    exact h i hi hi'
  · intro h i hi hi'
    exact h i _ _ (List.getElem?_eq_getElem hi) (List.getElem?_eq_getElem hi')

theorem getAnyPublicKeyType_injective {key key' : AnyPublicKey}
    (h : getAnyPublicKeyType key = getAnyPublicKeyType key') : key.type = key'.type := by
  unfold getAnyPublicKeyType at h
  revert h
  generalize key.type = type
  generalize key'.type = type'
  cases type <;> cases type' <;> decide

section

variable {sdk : Sdk} {accountSignatureType sender : String} {version blockHeight : Int64}
  {isSenderPrimary : Bool} {multiAgentIndex : ℕ} {overrideAddress : Option String}
  {blockTimestamp : NaiveDateTime}

/-- The row in a place has the key in the place. -/
theorem hasKey_of_parse {s : MultiKeySignature} {rows : List Signature}
    (h : parseMultiKeySignature sdk s accountSignatureType sender version blockHeight
      isSenderPrimary multiAgentIndex overrideAddress blockTimestamp = some rows) :
    rows.length = s.signatures.length ∧ ∀ (i : ℕ) (row : Signature), rows[i]? = some row →
      ∃ (signature : IndexedSignature) (key : AnyPublicKey), s.signatures[i]? = some signature ∧
        signature.signature.isSome ∧ s.publicKeys[i]? = some key ∧ HasKey row key := by
  have hforall := forall₂_of_mapM h
  rw [forall₂_iff_getElem?, List.length_zipIdx] at hforall
  refine ⟨hforall.1, ?_⟩
  intro i row hrow
  have hi : i < s.signatures.length := hforall.1 ▸ (List.getElem?_eq_some_iff.mp hrow).1
  have hstep := hforall.2 i row (s.signatures[i], i) hrow (by simp [hi])
  obtain ⟨key, hkey, hstep⟩ := Option.bind_eq_some_iff.mp hstep
  obtain ⟨anySignature, hsignature, hstep⟩ := Option.bind_eq_some_iff.mp hstep
  obtain rfl := Option.some.inj hstep
  exact ⟨s.signatures[i], key, List.getElem?_eq_getElem hi,
    Option.isSome_iff_exists.mpr ⟨anySignature, hsignature⟩, hkey, rfl, rfl⟩

/-- There are rows if every signature is there, with a key in its place. -/
theorem exists_parse {s : MultiKeySignature}
    (h : ∀ (i : ℕ) (signature : IndexedSignature), s.signatures[i]? = some signature →
      signature.signature.isSome ∧ ∃ key : AnyPublicKey, s.publicKeys[i]? = some key) :
    ∃ rows, parseMultiKeySignature sdk s accountSignatureType sender version blockHeight
      isSenderPrimary multiAgentIndex overrideAddress blockTimestamp = some rows := by
  rw [← Option.isSome_iff_exists]
  unfold parseMultiKeySignature
  rw [isSome_mapM_iff]
  rintro ⟨signature, i⟩ hp
  obtain ⟨hsignature, key, hkey⟩ := h i signature (List.mem_zipIdx_iff_getElem?.mp hp)
  obtain ⟨anySignature, hsignature⟩ := Option.isSome_iff_exists.mp hsignature
  simp only [hkey, hsignature]
  rfl

/-- The used keys of the helper are those with the index of a signature. -/
theorem used_iff {s : MultiKeySignature} {helper : PublicKeyAuthKeyHelper}
    (h : PublicKeyAuthKeyHelper.createHelperFromMultiKeySig s.toRestoration = some helper)
    (publicKey publicKeyType : String) :
    (∃ key ∈ helper.keys, key.isPublicKeyUsed = true ∧ key.publicKey = publicKey ∧
        key.publicKeyType = publicKeyType) ↔
      ∃ signature ∈ s.signatures, ∃ key, s.publicKeys[signature.index.toNat]? = some key ∧
        hex0x key.publicKey = publicKey ∧ getAnyPublicKeyType key = publicKeyType := by
  have hkeys : helper.keys = PublicKeyAuthKeyHelper.keysOf (fun key => hex0x key.publicKey)
      getAnyPublicKeyType ((s.signatures.map (·.index)).map (·.toNat)) s.publicKeys := by
    unfold PublicKeyAuthKeyHelper.createHelperFromMultiKeySig at h
    simp only at h
    split at h
    next => cases h
    next =>
      split at h
      next => cases h
      next =>
        obtain rfl := Option.some.inj h
        rfl
  rw [hkeys]
  unfold PublicKeyAuthKeyHelper.keysOf
  constructor
  · rintro ⟨inner, hinner, hused, htext, htype⟩
    obtain ⟨⟨key, i⟩, hp, rfl⟩ := List.mem_map.mp hinner
    rw [List.map_map, List.contains_iff_mem] at hused
    obtain ⟨signature, hsignature, rfl⟩ := List.mem_map.mp hused
    exact ⟨signature, hsignature, key, List.mem_zipIdx_iff_getElem?.mp hp, htext, htype⟩
  · rintro ⟨signature, hsignature, key, hkey, htext, htype⟩
    refine ⟨_, List.mem_map.mpr ⟨(key, signature.index.toNat),
      List.mem_zipIdx_iff_getElem?.mpr hkey, rfl⟩, ?_, htext, htype⟩
    rw [List.map_map, List.contains_iff_mem]
    exact List.mem_map_of_mem hsignature

/-- If the rows have the keys of the indices, the flags match. -/
theorem flagsMatch_of_keys {s : MultiKeySignature} {rows : List Signature}
    (h : List.Forall₂ (fun (row : Signature) (signature : IndexedSignature) =>
      ∃ key, s.publicKeys[signature.index.toNat]? = some key ∧ HasKey row key) rows s.signatures) :
    FlagsMatch s rows := by
  rw [forall₂_iff_getElem?] at h
  intro helper hhelper publicKey publicKeyType
  rw [used_iff hhelper]
  constructor
  · rintro ⟨signature, hsignature, key, hkey, rfl, rfl⟩
    obtain ⟨i, hi, rfl⟩ := List.getElem_of_mem hsignature
    have hi' : i < rows.length := h.1 ▸ hi
    obtain ⟨key', hkey', htext, htype⟩ := h.2 i _ _ (List.getElem?_eq_getElem hi')
      (List.getElem?_eq_getElem hi)
    obtain rfl := Option.some.inj (hkey.symm.trans hkey')
    exact ⟨rows[i], List.getElem_mem hi', htext, htype⟩
  · rintro ⟨row, hrow, rfl, htype⟩
    obtain ⟨i, hi, rfl⟩ := List.getElem_of_mem hrow
    have hi' : i < s.signatures.length := h.1 ▸ hi
    obtain ⟨key, hkey, htext, htype'⟩ := h.2 i _ _ (List.getElem?_eq_getElem hi)
      (List.getElem?_eq_getElem hi')
    exact ⟨_, List.getElem_mem hi', key, hkey, htext.symm,
      Option.some.inj (htype'.symm.trans htype)⟩

/-- The rows of a multi ed25519 signature have the keys of the indices. -/
theorem carriesIndexedKeys_of_parse {s : MultiEd25519Signature} {rows : List Signature}
    (h : parseMultiEd25519Signature sdk s accountSignatureType sender version blockHeight
      isSenderPrimary multiAgentIndex overrideAddress blockTimestamp = some rows) :
    CarriesIndexedKeys s rows := by
  have hforall := forall₂_of_mapM h
  rw [forall₂_iff_getElem?, List.length_zipIdx] at hforall
  refine ⟨hforall.1, ?_⟩
  intro i row hrow
  have hi : i < s.signatures.length := hforall.1 ▸ (List.getElem?_eq_some_iff.mp hrow).1
  have hstep := hforall.2 i row (s.signatures[i], i) hrow (by simp [hi])
  obtain ⟨keyIndex, hindex, hstep⟩ := Option.bind_eq_some_iff.mp hstep
  obtain ⟨key, hkey, hstep⟩ := Option.bind_eq_some_iff.mp hstep
  obtain rfl := Option.some.inj hstep
  unfold getPublicKeyIndicesFromMultiEd25519Signature at hindex
  rw [List.getElem?_map, Option.map_eq_some_iff] at hindex
  obtain ⟨index, hindex, rfl⟩ := hindex
  exact ⟨index, key, hindex, hkey, rfl⟩

/-- There are rows of a multi ed25519 signature if its keys are there. -/
theorem exists_parse_multiEd25519 {s : MultiEd25519Signature} (h : EveryKeyThere s) :
    ∃ rows, parseMultiEd25519Signature sdk s accountSignatureType sender version blockHeight
      isSenderPrimary multiAgentIndex overrideAddress blockTimestamp = some rows := by
  rw [← Option.isSome_iff_exists]
  unfold parseMultiEd25519Signature
  rw [isSome_mapM_iff]
  rintro ⟨signature, i⟩ hp
  have hi := (List.getElem?_eq_some_iff.mp (List.mem_zipIdx_iff_getElem?.mp hp)).1
  obtain ⟨index, key, hindex, hkey⟩ := h i hi
  simp only [getPublicKeyIndicesFromMultiEd25519Signature, List.getElem?_map, hindex,
    Option.map_some, Option.bind_eq_bind, Option.bind_some, hkey]
  rfl

end

/-- **The rows of a multi key signature carry the keys it was made with** exactly if
every signature stands in the place of its key; those of a multi ed25519 signature
do so whenever there are any. -/
theorem rows_carry_keys_iff (sdk : Sdk) (accountSignatureType sender : String)
    (version blockHeight : Int64) (isSenderPrimary : Bool) (multiAgentIndex : ℕ)
    (overrideAddress : Option String) (blockTimestamp : NaiveDateTime) :
    (∀ s : MultiKeySignature,
      (∃ rows, parseMultiKeySignature sdk s accountSignatureType sender version blockHeight
          isSenderPrimary multiAgentIndex overrideAddress blockTimestamp = some rows ∧
        CarriesKeys s rows) ↔ SignedInPlace s) ∧
    ∀ s : MultiEd25519Signature,
      (∃ rows, parseMultiEd25519Signature sdk s accountSignatureType sender version blockHeight
          isSenderPrimary multiAgentIndex overrideAddress blockTimestamp = some rows ∧
        CarriesIndexedKeys s rows) ↔ EveryKeyThere s := by
  refine ⟨?_, ?_⟩
  · intro s
    constructor
    -- A row has the key at its place among the rows, the signature that at its index: the texts
    -- are equal, so the keys are.
    · rintro ⟨rows, hrows, hcarries⟩ i signature hsignature
      obtain ⟨hlength, hplace⟩ := hasKey_of_parse hrows
      have hkeys := (forall₂_iff_getElem?.mp hcarries.keys).2
      have hi : i < rows.length := hlength ▸ (List.getElem?_eq_some_iff.mp hsignature).1
      have hrow : rows[i]? = some rows[i] := List.getElem?_eq_getElem hi
      obtain ⟨signature', key, hsignature', hsome, hkey, htext, htype⟩ := hplace i _ hrow
      obtain rfl := Option.some.inj (hsignature.symm.trans hsignature')
      obtain ⟨key', hkey', htext', htype'⟩ := hkeys i _ _ hrow hsignature
      exact ⟨hsome, key, key', hkey, hkey', hex0x_injective (htext.symm.trans htext'),
        getAnyPublicKeyType_injective (Option.some.inj (htype.symm.trans htype'))⟩
    · intro hplace
      -- Keys in place are in particular there, so nothing panics.
      have hthere (i : ℕ) (signature : IndexedSignature)
          (hsignature : s.signatures[i]? = some signature) : signature.signature.isSome ∧
            ∃ key : AnyPublicKey, s.publicKeys[i]? = some key := by
        obtain ⟨hsome, key, -, hkey, -⟩ := hplace i signature hsignature
        exact ⟨hsome, key, hkey⟩
      obtain ⟨rows, hrows⟩ : ∃ rows, parseMultiKeySignature sdk s accountSignatureType sender
        version blockHeight isSenderPrimary multiAgentIndex overrideAddress blockTimestamp =
          some rows := exists_parse hthere
      obtain ⟨hlength, hrow⟩ := hasKey_of_parse hrows
      have hkeys : List.Forall₂ (fun (row : Signature) (signature : IndexedSignature) =>
          ∃ key, s.publicKeys[signature.index.toNat]? = some key ∧ HasKey row key)
            rows s.signatures := by
        rw [forall₂_iff_getElem?]
        refine ⟨hlength, ?_⟩
        intro i row signature hi hsignature
        obtain ⟨-, key, -, -, hkey, htext, htype⟩ := hrow i row hi
        obtain ⟨-, key', key'', hkey', hkey'', hsame, hsameType⟩ := hplace i signature hsignature
        obtain rfl := Option.some.inj (hkey.symm.trans hkey')
        refine ⟨key'', hkey'', hsame ▸ htext, ?_⟩
        rw [htype]
        unfold getAnyPublicKeyType
        rw [hsameType]
      exact ⟨rows, hrows, hkeys, flagsMatch_of_keys hkeys⟩
  · intro s
    constructor
    · rintro ⟨rows, -, hlength, hkeys⟩ i hi
      obtain ⟨index, key, hindex, hkey, -⟩ := hkeys i rows[i]
        (List.getElem?_eq_getElem (hlength ▸ hi))
      exact ⟨index, key, hindex, hkey⟩
    · intro hthere
      obtain ⟨rows, hrows⟩ : ∃ rows, parseMultiEd25519Signature sdk s accountSignatureType sender
        version blockHeight isSenderPrimary multiAgentIndex overrideAddress blockTimestamp =
          some rows := exists_parse_multiEd25519 hthere
      exact ⟨rows, hrows, carriesIndexedKeys_of_parse hrows⟩

/-- Three ed25519 keys, of which the first and the last signed. -/
def firstAndLast : MultiKeySignature where
  publicKeys := [⟨1, .ed25519, [1]⟩, ⟨1, .ed25519, [2]⟩, ⟨1, .ed25519, [3]⟩]
  signatures :=
    [⟨0, some ⟨.ed25519, [], some (.ed25519 [7])⟩⟩, ⟨2, some ⟨.ed25519, [], some (.ed25519 [8])⟩⟩]
  signaturesRequired := 2

/-- The row of the last key's signature has the second key, and the account restoration
processor says that the last one was used. -/
theorem last_key_signed :
    (∃ rows, parseMultiKeySignature plainSdk.toSdk firstAndLast "multi_key_signature" "0xa" 1 1 true
        0 none 0 = some rows ∧ rows.map (·.publicKey) = ["0x01", "0x02"] ∧
      ¬ CarriesKeys firstAndLast rows) ∧
    (PublicKeyAuthKeyHelper.createHelperFromMultiKeySig firstAndLast.toRestoration).map
        (fun helper => helper.keys.map (·.isPublicKeyUsed)) = some [true, false, true] := by
  refine ⟨?_, by decide +kernel⟩
  obtain ⟨rows, hrows, hkeys⟩ : ∃ rows, parseMultiKeySignature plainSdk.toSdk firstAndLast
      "multi_key_signature" "0xa" 1 1 true 0 none 0 = some rows ∧
        rows.map (·.publicKey) = ["0x01", "0x02"] := ⟨_, rfl, by decide⟩
  refine ⟨rows, hrows, hkeys, ?_⟩
  intro hcarries
  obtain ⟨hlength, hright⟩ := forall₂_iff_getElem?.mp hcarries.keys
  have hsecond : rows[1]?.map (·.publicKey) = some "0x02" := by
    rw [← List.getElem?_map, hkeys]
    rfl
  obtain ⟨row, hrow, htext⟩ := Option.map_eq_some_iff.mp hsecond
  obtain ⟨key, hkey, hkeyText, -⟩ := hright 1 row _ hrow rfl
  obtain rfl := Option.some.inj hkey
  exact absurd (htext.symm.trans hkeyText) (by decide)

end IndexerProcessors.UserTransaction

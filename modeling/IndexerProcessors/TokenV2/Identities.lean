import IndexerProcessors.FungibleAsset.Spelling
import IndexerProcessors.TokenV2.Utils

/-!
# Identities of V1 tokens

A V1 token is named by its creator, its collection and its name. Its `token_data_id`, under
which every table keeps it, is the hash of the three joined with `::`; the `collection_id`
is that of the first two. The creator is an address of fixed length, but a collection and a
name are any text and may have the separator in them.

`ids_tell_apart_iff` — two tokens have different ids exactly if one's text is not that of
the other cut at another separator. Collections always have.
-/

namespace IndexerProcessors.TokenV2

open IndexerProcessors.FungibleAsset (standardAddress isAddress)

/-! ## Texts joined with a separator -/

section Joined

variable {α : Type} {sep : α}

/-- A separator of two equal letters: two ways to cut a text at one are the same, or they
are apart by one letter or more than the separator. -/
theorem append_sep_sep_eq_iff {c n c' n' : List α} :
    c ++ sep :: sep :: n = c' ++ sep :: sep :: n' ↔
      (c = c' ∧ n = n') ∨
      ((c' = c ++ [sep] ∧ n = sep :: n') ∨
        ∃ middle, c' = c ++ sep :: sep :: middle ∧ n = middle ++ sep :: sep :: n') ∨
      ((c = c' ++ [sep] ∧ n' = sep :: n) ∨
        ∃ middle, c = c' ++ sep :: sep :: middle ∧ n' = middle ++ sep :: sep :: n) := by
  -- `d` is what the one first part has over the other; it ends before the separator, between
  -- its two letters, or after it.
  have hcut : ∀ {d n n' : List α}, sep :: sep :: n = d ++ sep :: sep :: n' →
      (d = [] ∧ n = n') ∨ (d = [sep] ∧ n = sep :: n') ∨
        ∃ middle, d = sep :: sep :: middle ∧ n = middle ++ sep :: sep :: n' := by
    intro d n n' h
    match d with
    | [] =>
      rw [List.nil_append, List.cons_inj_right, List.cons_inj_right] at h
      exact Or.inl ⟨rfl, h⟩
    | [a] =>
      rw [List.singleton_append, List.cons.injEq, List.cons_inj_right] at h
      exact Or.inr (Or.inl ⟨by rw [h.1], h.2⟩)
    | a :: b :: middle =>
      rw [List.cons_append, List.cons_append, List.cons.injEq, List.cons.injEq] at h
      exact Or.inr (Or.inr ⟨middle, by rw [← h.1, ← h.2.1], h.2.2⟩)
  constructor
  · intro h
    rcases List.append_eq_append_iff.mp h with ⟨d, rfl, hd⟩ | ⟨d, rfl, hd⟩
    · rcases hcut hd with ⟨rfl, rfl⟩ | ⟨rfl, rfl⟩ | ⟨middle, rfl, rfl⟩
      · exact Or.inl ⟨(List.append_nil c).symm, rfl⟩
      · exact Or.inr (Or.inl (Or.inl ⟨rfl, rfl⟩))
      · exact Or.inr (Or.inl (Or.inr ⟨middle, rfl, rfl⟩))
    · rcases hcut hd with ⟨rfl, rfl⟩ | ⟨rfl, rfl⟩ | ⟨middle, rfl, rfl⟩
      · exact Or.inl ⟨List.append_nil c', rfl⟩
      · exact Or.inr (Or.inr (Or.inl ⟨rfl, rfl⟩))
      · exact Or.inr (Or.inr (Or.inr ⟨middle, rfl, rfl⟩))
  · rintro (⟨rfl, rfl⟩ | (⟨rfl, rfl⟩ | ⟨middle, rfl, rfl⟩) | ⟨rfl, rfl⟩ | ⟨middle, rfl, rfl⟩)
    · rfl
    · simp
    · simp
    · simp
    · simp

end Joined

/-! ## Names -/

/-- The same creator, collection and name. -/
structure SameToken (sdk : TokenSdk) (t t' : TokenDataIdType) : Prop where
  creator : sdk.standardizeAddress t.creator = sdk.standardizeAddress t'.creator
  collection : t.collection = t'.collection
  name : t.name = t'.name

/-- Equal ids are those of the same token and of the same collection. -/
structure IdsTellApart (sdk : TokenSdk) (t t' : TokenDataIdType) : Prop where
  token : t.toId sdk = t'.toId sdk → SameToken sdk t t'
  collection : t.getCollectionId sdk = t'.getCollectionId sdk →
    sdk.standardizeAddress t.creator = sdk.standardizeAddress t'.creator ∧
      t.collection = t'.collection

/-- The collection of the second goes on where the first has a separator: up to another one
in the name of the first, or by one colon of three. -/
def CutsLater (t t' : TokenDataIdType) : Prop :=
  (t'.collection = t.collection ++ ":" ∧ t.name = ":" ++ t'.name) ∨
    ∃ middle, t'.collection = t.collection ++ "::" ++ middle ∧
      t.name = middle ++ "::" ++ t'.name

theorem cutsLater_iff {t t' : TokenDataIdType} :
    CutsLater t t' ↔
      (t'.collection.toList = t.collection.toList ++ [':'] ∧
        t.name.toList = ':' :: t'.name.toList) ∨
      ∃ middle, t'.collection.toList = t.collection.toList ++ ':' :: ':' :: middle ∧
        t.name.toList = middle ++ ':' :: ':' :: t'.name.toList := by
  unfold CutsLater
  simp only [← String.toList_inj, String.toList_append]
  refine or_congr Iff.rfl ?_
  constructor
  · rintro ⟨middle, hcollection, hname⟩
    refine ⟨middle.toList, ?_, ?_⟩
    · simpa using hcollection
    · simpa using hname
  · rintro ⟨middle, hcollection, hname⟩
    refine ⟨String.ofList middle, ?_, ?_⟩
    · simpa using hcollection
    · simpa using hname

/-! ## Ids -/

section Ids

variable {sdk : TokenSdk}

theorem length_standardizeAddress (hstd : ∀ a, sdk.standardizeAddress a = standardAddress a)
    {a : String} (ha : isAddress a = true) : (sdk.standardizeAddress a).toList.length = 66 := by
  obtain ⟨digits, htext, -, hle, -⟩ := (FungibleAsset.isAddress_iff a).mp ha
  rw [hstd, standardAddress, String.toList_ofList, FungibleAsset.addressDigits_of_toList htext,
    List.length_cons, List.length_cons, List.length_append, List.length_replicate]
  omega

/-- The creator ends at a fixed place. -/
theorem creator_append_inj (hstd : ∀ a, sdk.standardizeAddress a = standardAddress a)
    {a a' r r' : String} (ha : isAddress a = true) (ha' : isAddress a' = true) :
    sdk.standardizeAddress a ++ r = sdk.standardizeAddress a' ++ r' ↔
      sdk.standardizeAddress a = sdk.standardizeAddress a' ∧ r = r' := by
  constructor
  · intro h
    rw [← String.toList_inj, String.toList_append, String.toList_append] at h
    obtain ⟨haddress, hrest⟩ := List.append_inj h
      ((length_standardizeAddress hstd ha).trans (length_standardizeAddress hstd ha').symm)
    exact ⟨String.toList_inj.mp haddress, String.toList_inj.mp hrest⟩
  · rintro ⟨haddress, rfl⟩
    rw [haddress]

theorem toId_inj (hhash : Function.Injective sdk.hashStr)
    (hstd : ∀ a, sdk.standardizeAddress a = standardAddress a) {t t' : TokenDataIdType}
    (ht : isAddress t.creator = true) (ht' : isAddress t'.creator = true) :
    t.toId sdk = t'.toId sdk ↔
      sdk.standardizeAddress t.creator = sdk.standardizeAddress t'.creator ∧
        t.collection.toList ++ ':' :: ':' :: t.name.toList =
          t'.collection.toList ++ ':' :: ':' :: t'.name.toList := by
  unfold TokenDataIdType.toId
  rw [String.append_right_inj, hhash.eq_iff, String.append_assoc, String.append_assoc,
    String.append_assoc, String.append_assoc, String.append_assoc, String.append_assoc,
    creator_append_inj hstd ht ht', String.append_right_inj]
  refine and_congr_right fun _ => ?_
  simp only [← String.toList_inj, String.toList_append]
  rfl

theorem getCollectionId_inj (hhash : Function.Injective sdk.hashStr)
    (hstd : ∀ a, sdk.standardizeAddress a = standardAddress a) {t t' : TokenDataIdType}
    (ht : isAddress t.creator = true) (ht' : isAddress t'.creator = true) :
    t.getCollectionId sdk = t'.getCollectionId sdk ↔
      sdk.standardizeAddress t.creator = sdk.standardizeAddress t'.creator ∧
        t.collection = t'.collection := by
  unfold TokenDataIdType.getCollectionId
  rw [String.append_right_inj, hhash.eq_iff, String.append_assoc, String.append_assoc,
    creator_append_inj hstd ht ht', String.append_right_inj]

/-- The separator is cut at different places. -/
theorem CutsLater.collection_ne {t t' : TokenDataIdType} (h : CutsLater t t') :
    t.collection ≠ t'.collection := by
  intro heq
  rcases h with ⟨hcollection, -⟩ | ⟨middle, hcollection, -⟩
  · rw [← heq] at hcollection
    simpa using congrArg String.length hcollection
  · rw [← heq] at hcollection
    have hlength := congrArg String.length hcollection
    rw [String.length_append, String.length_append] at hlength
    have hsep : ("::" : String).length = 2 := rfl
    omega

/-- **Which V1 tokens their ids tell apart.** For two creators that are addresses and any
collections and names, and a hash without collisions, equal ids mean the same token and the
same collection, exactly if the creators differ or neither token's text is the other's cut
at a later separator. -/
theorem ids_tell_apart_iff (sdk : TokenSdk) (hhash : Function.Injective sdk.hashStr)
    (hstd : ∀ a, sdk.standardizeAddress a = standardAddress a) (t t' : TokenDataIdType)
    (ht : isAddress t.creator = true) (ht' : isAddress t'.creator = true) :
    IdsTellApart sdk t t' ↔
      ¬ (sdk.standardizeAddress t.creator = sdk.standardizeAddress t'.creator ∧
        (CutsLater t t' ∨ CutsLater t' t)) := by
  have hids : t.toId sdk = t'.toId sdk ↔ SameToken sdk t t' ∨
      (sdk.standardizeAddress t.creator = sdk.standardizeAddress t'.creator ∧
        (CutsLater t t' ∨ CutsLater t' t)) := by
    rw [toId_inj hhash hstd ht ht', append_sep_sep_eq_iff, ← cutsLater_iff, ← cutsLater_iff,
      String.toList_inj, String.toList_inj]
    constructor
    · rintro ⟨hcreator, ⟨hcollection, hname⟩ | hcut⟩
      · exact Or.inl ⟨hcreator, hcollection, hname⟩
      · exact Or.inr ⟨hcreator, hcut⟩
    · rintro (⟨hcreator, hcollection, hname⟩ | ⟨hcreator, hcut⟩)
      · exact ⟨hcreator, Or.inl ⟨hcollection, hname⟩⟩
      · exact ⟨hcreator, Or.inr hcut⟩
  constructor
  · rintro htell ⟨hcreator, hcut⟩
    have hsame := htell.token (hids.mpr (Or.inr ⟨hcreator, hcut⟩))
    rcases hcut with hcut | hcut
    · exact hcut.collection_ne hsame.collection
    · exact hcut.collection_ne hsame.collection.symm
  · intro hcut
    refine ⟨?_, (getCollectionId_inj hhash hstd ht ht').mp⟩
    intro heq
    exact (hids.mp heq).resolve_right hcut

end Ids

/-- An `Sdk` whose hash is the text itself. -/
def namesSdk : TokenSdk where
  standardizeAddress := standardAddress
  fromStr _ := none
  bigDecimal _ := none
  parseTimestamp _ _ := 0
  truncateStr text _ := text
  hashStr := id
  ensureNotNegative x := x
  propertyMap _ := none
  tokenObjectPropertyMap _ := none
  aggregatorSnapshot _ := none
  derivedStringSnapshot _ := none
  i32 _ := none

/-- Two tokens of one collection. -/
theorem ids_tell_apart_one_two :
    IdsTellApart namesSdk ⟨"0xa", "Art", "One"⟩ ⟨"0xa", "Art", "Two"⟩ := by
  refine (ids_tell_apart_iff namesSdk Function.injective_id (fun _ => rfl) _ _ (by decide)
    (by decide)).mpr ?_
  rintro ⟨-, hcut | hcut⟩
  · exact hcut.collection_ne rfl
  · exact hcut.collection_ne rfl

/-- The token `2022::One` of the collection `Art` and the token `One` of `Art::2022`. -/
theorem ids_of_two_collections_equal :
    Function.Injective namesSdk.hashStr ∧
    TokenDataIdType.toId namesSdk ⟨"0xa", "Art", "2022::One"⟩ =
      TokenDataIdType.toId namesSdk ⟨"0xa", "Art::2022", "One"⟩ ∧
    ¬ IdsTellApart namesSdk ⟨"0xa", "Art", "2022::One"⟩ ⟨"0xa", "Art::2022", "One"⟩ := by
  have heq : TokenDataIdType.toId namesSdk ⟨"0xa", "Art", "2022::One"⟩ =
      TokenDataIdType.toId namesSdk ⟨"0xa", "Art::2022", "One"⟩ := by
    decide +kernel
  refine ⟨Function.injective_id, heq, ?_⟩
  intro htell
  exact absurd (htell.token heq).collection (by decide)

end IndexerProcessors.TokenV2

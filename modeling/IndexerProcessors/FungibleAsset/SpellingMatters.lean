import IndexerProcessors.FungibleAsset.Respell

/-!
# Where the spelling of addresses shows

The rows of a batch are the same in every spelling of its addresses exactly if the addresses
that can show have only one, `spelling_immaterial_iff`. Most of them are standardized as soon
as they are read; the map of deletion events is keyed by the store as the event spells it
and asked by the standardized one, an activity has the owner and the asset of the event as
they are, and the metadata of a coin has the handle and the key of its aggregator as they
are.
-/

namespace IndexerProcessors.FungibleAsset

open IndexerProcessors.Lib
open IndexerProcessors.Protos

/-- The rows of a batch are the same in every spelling. -/
def SpellingImmaterial (sdk : AssetSdk) (getAssetTypeV1 : String → Option String)
    (transactions : List Stream.Transaction) : Prop :=
  ∀ transactions', List.Forall₂ (TxnRespelled sdk.toSdk) transactions transactions' →
    parseV2Coin sdk getAssetTypeV1 transactions' = parseV2Coin sdk getAssetTypeV1 transactions

/-- Two maps of deletion events with the same activities and balances. -/
structure SameRows (sdk : AssetSdk) (ctx : TxnContext) (deleted deleted' : DeletedStores) :
    Prop where
  activities : ∃ rows, activitiesWith sdk ctx deleted = some rows ∧
    activitiesWith sdk ctx deleted' = some rows
  balances : ∃ rows, balancesWith sdk.toCoinSdk ctx deleted = some rows ∧
    balancesWith sdk.toCoinSdk ctx deleted' = some rows

variable {sdk : AssetSdk} {ctx : TxnContext} {getAssetTypeV1 : String → Option String}
  {transactions : List Stream.Transaction}

/-! ## One transaction in another spelling -/

theorem contextOf_eq_some {txn : Stream.Transaction} :
    contextOf sdk txn = some ctx ↔ txnContextOf sdk txn = some (some ctx) :=
  Option.join_eq_some_iff

/-- The rows of a transaction with data, in parts. -/
theorem rows_of_contextOf {txn : Stream.Transaction} (hctx : contextOf sdk txn = some ctx)
    {rows : TransactionRows} (h : parseTransaction sdk txn = some rows) :
    ∃ deleted, (∀ storageId, deleted.lookup storageId =
        lastDeletion (deletionsOf sdk ctx) storageId) ∧ rowsWith sdk ctx deleted = some rows := by
  rw [contextOf_eq_some] at hctx
  rcases parseTransaction_cases h with ⟨hnone, -⟩ | ⟨other, deleted, hother, hdeleted, hrows⟩
  · rw [hctx] at hnone
    cases hnone
  · obtain rfl := Option.some.inj (Option.some.inj (hctx.symm.trans hother))
    exact ⟨deleted, lookup_deletedStores hdeleted, hrows⟩

/-- If no spelling shows, the deletion events of a transaction in any spelling make the same
rows. -/
theorem sameRows_of_immaterial (hsdk : StandardSdk sdk)
    (h : SpellingImmaterial sdk getAssetTypeV1 transactions)
    (hsome : (parseV2Coin sdk getAssetTypeV1 transactions).isSome) {txn : Stream.Transaction}
    (htxn : txn ∈ transactions) (hctx : contextOf sdk txn = some ctx) (spelling : Spelling) :
    ∃ deleted deleted', (∀ storageId, deleted.lookup storageId =
        lastDeletion (deletionsOf sdk ctx) storageId) ∧
      (∀ storageId, deleted'.lookup storageId =
        lastDeletion ((deletionsOf sdk ctx).map (respellDeletion spelling)) storageId) ∧
      SameRows sdk ctx deleted deleted' := by
  -- Only this transaction is respelled, in its place among the others.
  obtain ⟨before, after, rfl⟩ := List.append_of_mem htxn
  have hrespelled : List.Forall₂ (TxnRespelled sdk.toSdk) (before ++ txn :: after)
      (before ++ respellTxn spelling sdk.toSdk txn :: after) :=
    List.rel_append (List.forall₂_same.mpr fun _ _ => txnRespelled_refl _ _)
      (.cons (txnRespelled_respellTxn spelling hsdk txn)
        (List.forall₂_same.mpr fun _ _ => txnRespelled_refl _ _))
  have hsame := h _ hrespelled
  obtain ⟨coinRows, hparse⟩ := Option.isSome_iff_exists.mp hsome
  rw [hparse] at hsame
  obtain ⟨parsed, hparsed, hcoin⟩ := Option.bind_eq_some_iff.mp hparse
  obtain ⟨parsed', hparsed', hcoin'⟩ := Option.bind_eq_some_iff.mp hsame
  -- Both batches are parsed one transaction at a time; only the rows of this one can differ.
  rw [List.mapM_append] at hparsed hparsed'
  obtain ⟨first, hfirst, hparsed⟩ := Option.bind_eq_some_iff.mp hparsed
  obtain ⟨first', hfirst', hparsed'⟩ := Option.bind_eq_some_iff.mp hparsed'
  obtain rfl := Option.some.inj (hfirst.symm.trans hfirst')
  obtain ⟨rest, hrest, hparsed⟩ := Option.bind_eq_some_iff.mp hparsed
  obtain ⟨rest', hrest', hparsed'⟩ := Option.bind_eq_some_iff.mp hparsed'
  obtain rfl := Option.some.inj hparsed
  obtain rfl := Option.some.inj hparsed'
  rw [List.mapM_cons] at hrest hrest'
  obtain ⟨rows, hrows, hrest⟩ := Option.bind_eq_some_iff.mp hrest
  obtain ⟨rows', hrows', hrest'⟩ := Option.bind_eq_some_iff.mp hrest'
  obtain ⟨last, hlast, hrest⟩ := Option.bind_eq_some_iff.mp hrest
  obtain ⟨last', hlast', hrest'⟩ := Option.bind_eq_some_iff.mp hrest'
  obtain rfl := Option.some.inj (hlast.symm.trans hlast')
  obtain rfl := Option.some.inj hrest
  obtain rfl := Option.some.inj hrest'
  have hout := (Option.some.inj hcoin').trans (Option.some.inj hcoin).symm
  -- The rows of the other transactions cancel.
  have hcancel : ∀ {ρ : Type} {f : TransactionRows → List ρ},
      (first ++ rows' :: last).flatMap f = (first ++ rows :: last).flatMap f → f rows' = f rows := by
    intro ρ f hf
    rw [List.flatMap_append, List.flatMap_append, List.append_cancel_left_eq, List.flatMap_cons,
      List.flatMap_cons, List.append_cancel_right_eq] at hf
    exact hf
  have hactivities : rows'.activities = rows.activities :=
    hcancel (congrArg CoinRows.activities hout)
  have hbalances : rows'.balances = rows.balances := hcancel (congrArg CoinRows.balances hout)
  have hctx' : contextOf sdk (respellTxn spelling sdk.toSdk txn) =
      some (respellCtx spelling sdk.toSdk ctx) := by
    rw [contextOf_respellTxn, hctx]
    rfl
  -- The rows are those of the context with the map of the deletion events. The map of the
  -- respelled events gives the context as it was the same rows, since nothing else of a
  -- spelling shows.
  obtain ⟨deleted, hlookup, hrowsWith⟩ := rows_of_contextOf hctx hrows
  obtain ⟨deleted', hlookup', hrowsWith'⟩ := rows_of_contextOf hctx' hrows'
  rw [deletionsOf_respellCtx spelling hsdk] at hlookup'
  have hrel := rel_rowsWith hsdk (ctxRespelled_respellCtx spelling hsdk ctx) deleted'
  rw [hrowsWith'] at hrel
  cases hours : rowsWith sdk ctx deleted' with
  | none =>
    rw [hours] at hrel
    cases hrel
  | some ours =>
    rw [hours] at hrel
    cases hrel with
    | some hrel =>
      obtain ⟨hb, ha, -⟩ := rowsWith_parts hrowsWith
      obtain ⟨hb', ha', -⟩ := rowsWith_parts hours
      rw [hrel.activities, hactivities] at ha'
      rw [hrel.balances, hbalances] at hb'
      exact ⟨deleted, deleted', hlookup, hlookup', ⟨rows.activities, ha, ha'⟩,
        ⟨rows.balances, hb, hb'⟩⟩

/-! ## Deletion events -/

/-- Respelled events, where the same ones have the store. -/
theorem lastDeletion_respelled {spelling : Spelling}
    {deletions : List FungibleAssetStoreDeletionEvent} {storageId : String}
    (h : ∀ event ∈ deletions, spelling.spell event.store = storageId ↔ event.store = storageId) :
    lastDeletion (deletions.map (respellDeletion spelling)) storageId =
      (lastDeletion deletions storageId).map (respellDeletion spelling) := by
  have hfilter : (deletions.map (respellDeletion spelling)).filter
        (fun event => event.store = storageId) =
      (deletions.filter fun event => event.store = storageId).map (respellDeletion spelling) := by
    rw [List.filter_map]
    refine congrArg _ (List.filter_congr fun event hevent => ?_)
    exact decide_eq_decide.mpr (h event hevent)
  rw [lastDeletion, lastDeletion, hfilter, List.getLast?_map]

/-- A store that is neither spelling keeps its events. -/
theorem lastDeletion_replaced {a b : String} (hab : SameAddress a b)
    {deletions : List FungibleAssetStoreDeletionEvent} {storageId : String} (ha : storageId ≠ a)
    (hb : storageId ≠ b) :
    lastDeletion (deletions.map (respellDeletion (Spelling.replace a b hab))) storageId =
      (lastDeletion deletions storageId).map (respellDeletion (Spelling.replace a b hab)) := by
  refine lastDeletion_respelled fun event _ => ?_
  -- Only `a` is spelled anew, and as `b`.
  by_cases hstore : event.store = a
  · rw [hstore, Spelling.replace_self]
    exact iff_of_false hb.symm ha.symm
  · rw [Spelling.replace_ne hab hstore]

theorem lastDeletion_eq_none {deletions : List FungibleAssetStoreDeletionEvent}
    {storageId : String} :
    lastDeletion deletions storageId = none ↔ ∀ event ∈ deletions, event.store ≠ storageId := by
  rw [lastDeletion, List.getLast?_eq_none_iff, List.filter_eq_nil_iff]
  simp only [decide_eq_true_eq]

/-- What a balance takes of a deletion event is the same in any spelling. -/
theorem standardOwnerAndAsset_respelled (hsdk : StandardSdk sdk) (spelling : Spelling)
    (event : Option FungibleAssetStoreDeletionEvent) :
    (event.map (respellDeletion spelling)).map (standardOwnerAndAsset sdk) =
      event.map (standardOwnerAndAsset sdk) := by
  rw [Option.map_map]
  refine congrArg (fun f => Option.map f event) (funext fun event => ?_)
  rw [Function.comp_apply, standardOwnerAndAsset, standardOwnerAndAsset, respellDeletion,
    ← hsdk.standardize_eq (spelling.same event.owner),
    ← hsdk.standardize_eq (spelling.same event.metadata)]

/-- A spelling that is not the standard one is not asked for. -/
theorem ne_of_asked (hsdk : StandardSdk sdk) {storageId other : String}
    (hasks : AsksOwner sdk ctx other ∨ AsksBalance sdk ctx other)
    (h : standardAddress storageId ≠ storageId) : other ≠ storageId := by
  rintro rfl
  exact h (standard_of_asked hsdk hasks)

/-- Two maps of deletion events with the same rows have the same stores that are asked for, if
one has no other than the other. -/
theorem SameRows.eq_none {deleted deleted' : DeletedStores} (h : SameRows sdk ctx deleted deleted')
    (hfewer : ∀ storageId, AsksBalance sdk ctx storageId →
      (deleted'.lookup storageId).map (standardOwnerAndAsset sdk) =
          (deleted.lookup storageId).map (standardOwnerAndAsset sdk) ∨
        deleted'.lookup storageId = none)
    {storageId : String} (hasks : AsksOwner sdk ctx storageId ∨ AsksBalance sdk ctx storageId)
    (hnone : deleted'.lookup storageId = none) : deleted.lookup storageId = none := by
  -- An activity shows whether its store was found by its owner, a balance by being there.
  rcases hasks with hasks | hasks
  · obtain ⟨rows, hrows, hrows'⟩ := h.activities
    have hsame := owner_of_activities hrows hrows' hasks
    rw [hnone, ownerAndAssetOf, ownerAndAssetOf, Prod.mk.injEq, Option.map_none,
      Option.map_eq_none_iff] at hsame
    exact hsame.1
  · obtain ⟨rows, hrows, hrows'⟩ := h.balances
    exact deleted_of_balances hrows hrows' hfewer hasks hnone

theorem SameRows.symm {deleted deleted' : DeletedStores} (h : SameRows sdk ctx deleted deleted') :
    SameRows sdk ctx deleted' deleted := by
  obtain ⟨⟨rows, hrows, hrows'⟩, ⟨balances, hbalances, hbalances'⟩⟩ := h
  exact ⟨⟨rows, hrows', hrows⟩, ⟨balances, hbalances', hbalances⟩⟩

section

variable (hsdk : StandardSdk sdk) (h : SpellingImmaterial sdk getAssetTypeV1 transactions)
  (hsome : (parseV2Coin sdk getAssetTypeV1 transactions).isSome) {txn : Stream.Transaction}
  (htxn : txn ∈ transactions) (hctx : contextOf sdk txn = some ctx)

include hsdk h hsome htxn hctx

/-- A store with another spelling is not found by an event that has it in standard form. -/
theorem notFound_of_immaterial {storageId spelled : String}
    (hasks : AsksOwner sdk ctx storageId ∨ AsksBalance sdk ctx storageId)
    (hspelled : SameAddress storageId spelled) (hne : spelled ≠ storageId) :
    lastDeletion (deletionsOf sdk ctx) storageId = none := by
  have hother : standardAddress spelled ≠ spelled := by
    rw [← hspelled.standard_eq, standard_of_asked hsdk hasks]
    exact hne.symm
  obtain ⟨deleted, deleted', hlookup, hlookup', hrows⟩ := sameRows_of_immaterial hsdk h hsome htxn
    hctx (Spelling.replace storageId spelled hspelled)
  -- Spelled in the other way everywhere, the store is not found.
  have hnone : deleted'.lookup storageId = none := by
    rw [hlookup', lastDeletion_eq_none]
    intro event hevent
    obtain ⟨event, -, rfl⟩ := List.mem_map.mp hevent
    show (Spelling.replace storageId spelled hspelled).spell event.store ≠ storageId
    by_cases hstore : event.store = storageId
    · rw [hstore, Spelling.replace_self]
      exact hne
    · rw [Spelling.replace_ne hspelled hstore]
      exact hstore
  -- Every other store that is asked for keeps its events, so the rows show this one.
  rw [← hlookup]
  refine hrows.eq_none ?_ hasks hnone
  intro other hasksOther
  by_cases hsame : other = storageId
  · rw [hsame]
    exact Or.inr hnone
  · rw [hlookup, hlookup', lastDeletion_replaced hspelled hsame
      (ne_of_asked hsdk (Or.inr hasksOther) hother), standardOwnerAndAsset_respelled hsdk]
    exact Or.inl rfl

/-- A store of which there is an event in some spelling is found. -/
theorem found_of_immaterial {event : FungibleAssetStoreDeletionEvent} {storageId : String}
    (hasks : AsksOwner sdk ctx storageId ∨ AsksBalance sdk ctx storageId)
    (hevent : event ∈ deletionsOf sdk ctx) (hspelled : SameAddress event.store storageId) :
    lastDeletion (deletionsOf sdk ctx) storageId ≠ none := by
  intro hnone
  -- The event is then spelled otherwise, in a form that nothing asks for.
  have hne : event.store ≠ storageId := lastDeletion_eq_none.mp hnone event hevent
  have hother : standardAddress event.store ≠ event.store := by
    rw [hspelled.standard_eq, standard_of_asked hsdk hasks]
    exact hne.symm
  obtain ⟨deleted, deleted', hlookup, hlookup', hrows⟩ := sameRows_of_immaterial hsdk h hsome htxn
    hctx (Spelling.replace event.store storageId hspelled)
  rw [← hlookup] at hnone
  have hnone' : deleted'.lookup storageId = none := by
    refine hrows.symm.eq_none ?_ hasks hnone
    intro other hasksOther
    by_cases hsame : other = storageId
    · rw [hsame]
      exact Or.inr hnone
    · rw [hlookup, hlookup', lastDeletion_replaced hspelled
        (ne_of_asked hsdk (Or.inr hasksOther) hother) hsame, standardOwnerAndAsset_respelled hsdk]
      exact Or.inl rfl
  -- Spelled in the standard form, the event has the store.
  rw [hlookup', lastDeletion_eq_none] at hnone'
  exact hnone' _ (List.mem_map_of_mem hevent) (Spelling.replace_self hspelled)

theorem deletionsSpelledOnce_of_immaterial : DeletionsSpelledOnce sdk ctx := by
  have hstore : ∀ storageId, AsksOwner sdk ctx storageId ∨ AsksBalance sdk ctx storageId →
      ∀ event ∈ deletionsOf sdk ctx, standardAddress event.store = storageId →
        OneSpelling event.store := by
    -- With two spellings, the store is found because the event is about it, and not found
    -- because it has a spelling that is not asked for.
    rintro storageId hasks event hevent rfl spelled hspelled
    by_contra hne
    have hstandard := hspelled.of_ne hne
    refine found_of_immaterial hsdk h hsome htxn hctx hasks hevent hstandard ?_
    by_cases hsame : event.store = standardAddress event.store
    · refine notFound_of_immaterial hsdk h hsome htxn hctx hasks (hstandard.symm.trans hspelled) ?_
      rw [← hsame]
      exact hne
    · exact notFound_of_immaterial hsdk h hsome htxn hctx hasks hstandard.symm hsame
  refine ⟨hstore, ?_⟩
  intro storageId event hasks hlast
  -- The event that is found says its owner and its asset as it spells them.
  have hsaid : ∀ spelling : Spelling, spelling.spell event.owner = event.owner ∧
      spelling.spell event.metadata = event.metadata := by
    intro spelling
    obtain ⟨deleted, deleted', hlookup, hlookup', hrows⟩ :=
      sameRows_of_immaterial hsdk h hsome htxn hctx spelling
    obtain ⟨rows, hrows, hrows'⟩ := hrows.activities
    have hsame := owner_of_activities hrows hrows' hasks
    -- The store has one spelling by the first part, so it is found in any.
    have hkept : ∀ other ∈ deletionsOf sdk ctx,
        spelling.spell other.store = storageId ↔ other.store = storageId := by
      intro other hother
      have hstandard := standard_of_asked hsdk (Or.inl hasks)
      have honce : standardAddress other.store = storageId →
          spelling.spell other.store = other.store := fun heq =>
        hstore storageId (Or.inl hasks) other hother heq _ (spelling.same other.store)
      constructor
      · intro heq
        rw [← honce ?_, heq]
        rw [(spelling.same other.store).standard_eq, heq, hstandard]
      · intro heq
        rw [honce ?_, heq]
        rw [heq, hstandard]
    rw [hlookup, hlookup', lastDeletion_respelled hkept, hlast] at hsame
    obtain ⟨howner, hmetadata⟩ := Prod.mk.inj hsame
    exact ⟨(Option.some.inj howner).symm, (Option.some.inj hmetadata).symm⟩
  constructor
  · intro spelled hspelled
    rw [← Spelling.replace_self hspelled]
    exact (hsaid _).1
  · intro spelled hspelled
    rw [← Spelling.replace_self hspelled]
    exact (hsaid _).2

end

/-! ## Aggregators -/

/-- Metadata is in the map under its asset type. -/
theorem assetType_of_lookup {parsed : List TransactionRows} {assetType : String}
    {fam : FungibleAssetMetadataModel} (h : (metadataMapping parsed).lookup assetType = some fam) :
    fam.assetType = assetType := by
  rw [lookup_metadataMapping] at h
  exact of_decide_eq_true (List.mem_filter.mp (List.mem_of_mem_getLast? h)).2

theorem aggregators_of_immaterial (hsdk : StandardSdk sdk)
    (h : SpellingImmaterial sdk getAssetTypeV1 transactions)
    (hsome : (parseV2Coin sdk getAssetTypeV1 transactions).isSome) {assetType : String}
    {aggregator : AggregatorResource}
    (hlast : lastMetadataWrite (metadataWrites sdk transactions) assetType =
      some (assetType, some aggregator)) :
    OneSpelling aggregator.handle ∧ OneSpelling aggregator.key := by
  have hsaid : ∀ spelling : Spelling, spelling.spell aggregator.handle = aggregator.handle ∧
      spelling.spell aggregator.key = aggregator.key := by
    intro spelling
    -- Here the whole batch is respelled: the last write to the metadata can be anywhere.
    have hsame := h (transactions.map (respellTxn spelling sdk.toSdk)) (by
      rw [List.forall₂_map_right_iff]
      exact List.forall₂_same.mpr fun txn _ => txnRespelled_respellTxn spelling hsdk txn)
    obtain ⟨coinRows, hparse⟩ := Option.isSome_iff_exists.mp hsome
    rw [hparse] at hsame
    obtain ⟨parsed, hparsed, hcoin⟩ := Option.bind_eq_some_iff.mp hparse
    obtain ⟨parsed', hparsed', hcoin'⟩ := Option.bind_eq_some_iff.mp hsame
    have hout := (Option.some.inj hcoin').trans (Option.some.inj hcoin).symm
    have hmetadata : sortedValues (metadataMapping parsed') = sortedValues (metadataMapping parsed) :=
      congrArg CoinRows.metadata hout
    have hlast' : lastMetadataWrite (metadataWrites sdk
          (transactions.map (respellTxn spelling sdk.toSdk))) assetType =
        some (respellWrite spelling (assetType, some aggregator)) := by
      rw [metadataWrites_respellTxn spelling hsdk, lastMetadataWrite, List.filter_map,
        List.getLast?_map]
      show (lastMetadataWrite (metadataWrites sdk transactions) assetType).map _ = _
      rw [hlast]
      rfl
    -- A row of the metadata has the handle and the key of its last write as they are spelled.
    have hwrite := rel_lastMetadataWrite hparsed assetType
    have hwrite' := rel_lastMetadataWrite hparsed' assetType
    rw [hlast] at hwrite
    rw [hlast'] at hwrite'
    generalize hfam : (metadataMapping parsed).lookup assetType = fam at hwrite
    generalize hfam' : (metadataMapping parsed').lookup assetType = fam' at hwrite'
    cases hwrite with
    | @some fam _ hwrite =>
      cases hwrite' with
      | @some fam' _ hwrite' =>
        -- The row of the other batch is in the map of this one, under its asset type.
        obtain ⟨k, hk⟩ := mem_sortedValues.mp (hmetadata ▸ mem_sortedValues.mpr ⟨assetType, hfam'⟩)
        have hkey : k = assetType := by
          rw [← assetType_of_lookup hk, assetType_of_lookup hfam']
        rw [hkey] at hk
        obtain rfl := Option.some.inj (hfam.symm.trans hk)
        have hhandle := hwrite.handle.symm.trans hwrite'.handle
        have hkey := hwrite.key.symm.trans hwrite'.key
        exact ⟨(Option.some.inj hhandle).symm, (Option.some.inj hkey).symm⟩
  constructor
  · intro spelled hspelled
    rw [← Spelling.replace_self hspelled]
    exact (hsaid _).1
  · intro spelled hspelled
    rw [← Spelling.replace_self hspelled]
    exact (hsaid _).2

/-- **Where the spelling shows.** Every spelling of the addresses of a batch has the same rows
exactly if the batch panics or none of the addresses that show has two spellings. -/
theorem spelling_immaterial_iff (sdk : AssetSdk) (hsdk : StandardSdk sdk)
    (getAssetTypeV1 : String → Option String) (transactions : List Stream.Transaction) :
    SpellingImmaterial sdk getAssetTypeV1 transactions ↔
      ((parseV2Coin sdk getAssetTypeV1 transactions).isSome → SpelledOnce sdk transactions) := by
  constructor
  · intro h hsome
    exact ⟨fun txn htxn ctx hctx => deletionsSpelledOnce_of_immaterial hsdk h hsome htxn hctx,
      fun assetType aggregator hlast => aggregators_of_immaterial hsdk h hsome hlast⟩
  · intro honce transactions' hrespelled
    -- A batch that panics does so in every spelling.
    cases hparse : parseV2Coin sdk getAssetTypeV1 transactions with
    | none =>
      have hboth := parseV2Coin_bothRun hsdk getAssetTypeV1 hrespelled
      rw [hparse] at hboth
      generalize parseV2Coin sdk getAssetTypeV1 transactions' = o at hboth
      cases hboth with
      | none => rfl
    | some rows =>
      rw [← hparse]
      exact (parseV2Coin_respelled hsdk getAssetTypeV1 (honce (by rw [hparse]; rfl))
        hrespelled).symm

/-! ## Flat objects -/

/-- The character around texts. -/
def quotes : Char := Char.ofNat 34

/-- The members of an object of texts, from what stands between quotes and what does not. -/
def flatMembers : List (List Char) → Option (List (String × String))
  | key :: colon :: value :: separator :: rest =>
    if colon ≠ [':'] then none
    else if separator = "\x7d".toList ∧ rest = [] then
      some [(String.ofList key, String.ofList value)]
    else if separator = [','] then
      (flatMembers rest).map fun members => (String.ofList key, String.ofList value) :: members
    else none
  | _ => none

/-- An object of texts. -/
def flatObject (members : List (String × String)) : Json :=
  .object (members.map fun member => (member.1, .string member.2))

/-- `serde_json::from_str`, of objects of texts that are written without blanks and escapes. -/
def flatFromStr (text : String) : Option Json :=
  match text.toList.splitOn quotes with
  | [] => none
  | opening :: pieces =>
    if opening = "\x7b".toList then (flatMembers pieces).map flatObject else none

/-- What stands between the quotes of an object of texts. -/
def flatPieces : List (String × String) → List (List Char)
  | [] => []
  | [(key, value)] => [key.toList, [':'], value.toList, "\x7d".toList]
  | (key, value) :: member :: members =>
    key.toList :: [':'] :: value.toList :: [','] :: flatPieces (member :: members)

/-- The text of an object of texts. -/
def flatText (members : List (String × String)) : String :=
  String.ofList ([quotes].intercalate ("\x7b".toList :: flatPieces members))

/-- No text in the object has quotes. -/
def QuoteFree (members : List (String × String)) : Prop :=
  ∀ member ∈ members, quotes ∉ member.1.toList ∧ quotes ∉ member.2.toList

theorem flatMembers_flatPieces : ∀ {members : List (String × String)}, members ≠ [] →
    flatMembers (flatPieces members) = some members := by
  intro members
  induction members with
  | nil =>
    intro h
    exact absurd rfl h
  | cons member members ih =>
    intro _
    obtain ⟨key, value⟩ := member
    -- The last member is followed by the closing brace, each other one by a comma.
    cases members with
    | nil =>
      rw [flatPieces, flatMembers, if_neg (not_not.mpr rfl), if_pos ⟨rfl, rfl⟩, String.ofList_toList,
        String.ofList_toList]
    | cons next rest =>
      rw [flatPieces, flatMembers, if_neg (not_not.mpr rfl), if_neg (fun h => absurd h.1 (by decide)),
        if_pos rfl, ih (List.cons_ne_nil _ _), String.ofList_toList, String.ofList_toList]
      rfl

theorem quotes_notMem_flatPieces : ∀ {members : List (String × String)}, QuoteFree members →
    ∀ piece ∈ flatPieces members, quotes ∉ piece := by
  intro members
  induction members with
  | nil =>
    intro _ piece hpiece
    cases hpiece
  | cons member members ih =>
    intro hfree
    obtain ⟨key, value⟩ := member
    obtain ⟨hkey, hvalue⟩ := hfree (key, value) List.mem_cons_self
    have hrest := ih fun other hother => hfree other (List.mem_cons_of_mem _ hother)
    cases members with
    | nil =>
      rw [flatPieces]
      simp only [List.forall_mem_cons]
      exact ⟨hkey, by decide, hvalue, by decide, fun _ h => absurd h List.not_mem_nil⟩
    | cons next rest =>
      rw [flatPieces]
      simp only [List.forall_mem_cons]
      exact ⟨hkey, by decide, hvalue, by decide, hrest⟩

/-- An object of texts is read back from its text. -/
theorem flatFromStr_flatText {members : List (String × String)} (hne : members ≠ [])
    (hfree : QuoteFree members) : flatFromStr (flatText members) = some (flatObject members) := by
  unfold flatFromStr flatText
  -- Splitting at the quotes gives the pieces back, as none of them has quotes.
  rw [String.toList_ofList, List.splitOn_intercalate]
  · show (if "\x7b".toList = "\x7b".toList then _ else _) = _
    rw [if_pos rfl, flatMembers_flatPieces hne]
    rfl
  · rw [List.forall_mem_cons]
    exact ⟨by decide, quotes_notMem_flatPieces hfree⟩
  · exact List.cons_ne_nil _ _

/-- No piece of a split has the character. -/
theorem notMem_of_mem_splitOn {c : Char} :
    ∀ {text : List Char}, ∀ piece ∈ text.splitOn c, c ∉ piece := by
  intro text
  induction text with
  | nil =>
    intro piece hpiece
    rw [List.splitOn_nil, List.mem_singleton] at hpiece
    rw [hpiece]
    exact List.not_mem_nil
  | cons d text ih =>
    rw [List.splitOn_cons_eq_if_modifyHead]
    -- A character that is not split at goes to the front of the first piece.
    by_cases hd : d = c
    · rw [if_pos (beq_iff_eq.mpr hd), List.forall_mem_cons]
      exact ⟨List.not_mem_nil, ih⟩
    · rw [if_neg (by simpa using hd)]
      cases hsplit : text.splitOn c with
      | nil => exact absurd hsplit (List.splitOn_ne_nil c text)
      | cons first rest =>
        rw [hsplit, List.forall_mem_cons] at ih
        rw [List.modifyHead_cons, List.forall_mem_cons]
        refine ⟨?_, ih.2⟩
        rw [List.mem_cons, not_or]
        exact ⟨fun h => hd h.symm, ih.1⟩

/-- What is read between quotes has none. -/
theorem flatMembers_eq_some {pieces : List (List Char)} :
    ∀ {members : List (String × String)}, flatMembers pieces = some members →
      (∀ piece ∈ pieces, quotes ∉ piece) → members ≠ [] ∧ QuoteFree members := by
  -- The cases are those of `flatMembers`: no colon, the last member, a member with more to
  -- come, another separator, and too few pieces.
  induction pieces using flatMembers.induct with
  | case1 key colon value separator rest hcolon =>
    intro members h
    rw [flatMembers, if_pos hcolon] at h
    cases h
  | case2 key colon value separator rest hcolon hlast =>
    intro members h hfree
    rw [flatMembers, if_neg hcolon, if_pos hlast] at h
    obtain rfl := Option.some.inj h
    simp only [List.forall_mem_cons] at hfree
    refine ⟨List.cons_ne_nil _ _, ?_⟩
    intro member hmember
    rw [List.mem_singleton.mp hmember, String.toList_ofList, String.toList_ofList]
    exact ⟨hfree.1, hfree.2.2.1⟩
  | case3 key colon value rest hcolon hlast ih =>
    intro members h hfree
    rw [flatMembers, if_neg hcolon, if_neg hlast, if_pos rfl] at h
    obtain ⟨later, hlater, rfl⟩ := Option.map_eq_some_iff.mp h
    simp only [List.forall_mem_cons] at hfree
    obtain ⟨-, hrest⟩ := ih hlater hfree.2.2.2.2
    refine ⟨List.cons_ne_nil _ _, ?_⟩
    intro member hmember
    rcases List.mem_cons.mp hmember with rfl | hmember
    · rw [String.toList_ofList, String.toList_ofList]
      exact ⟨hfree.1, hfree.2.2.1⟩
    · exact hrest member hmember
  | case4 key colon value separator rest hcolon hlast hseparator =>
    intro members h
    rw [flatMembers, if_neg hcolon, if_neg hlast, if_neg hseparator] at h
    cases h
  | case5 pieces hshort =>
    intro members h
    rw [flatMembers.eq_2 pieces hshort] at h
    cases h

theorem flatFromStr_eq_some {text : String} {v : Json} (h : flatFromStr text = some v) :
    ∃ members, v = flatObject members ∧ members ≠ [] ∧ QuoteFree members := by
  unfold flatFromStr at h
  have hfree : ∀ piece ∈ text.toList.splitOn quotes, quotes ∉ piece := notMem_of_mem_splitOn
  cases hsplit : text.toList.splitOn quotes with
  | nil =>
    rw [hsplit] at h
    cases h
  | cons opening pieces =>
    rw [hsplit] at h hfree
    dsimp only at h
    by_cases hopening : opening = "\x7b".toList
    · rw [if_pos hopening] at h
      obtain ⟨members, hmembers, rfl⟩ := Option.map_eq_some_iff.mp h
      exact ⟨members, rfl, flatMembers_eq_some hmembers fun piece hpiece =>
        hfree piece (List.mem_cons_of_mem _ hpiece)⟩
    · rw [if_neg hopening] at h
      cases h

theorem quotes_notMem_of_isAddress {text : String} (h : isAddress text = true) :
    quotes ∉ text.toList := by
  obtain ⟨digits, htext, -, -, hhex⟩ := (isAddress_iff text).mp h
  rw [htext, List.mem_cons, List.mem_cons, not_or, not_or]
  refine ⟨by decide, by decide, ?_⟩
  intro hmem
  exact absurd (List.all_eq_true.mp hhex quotes hmem) (by decide)

/-- An address in place of a text. -/
theorem respelled_string {places : Places} {text : String} {v : Json}
    (h : JsonRespelled places (.string text) v) (hfree : quotes ∉ text.toList) :
    ∃ text', v = .string text' ∧ quotes ∉ text'.toList := by
  have hkept : ∀ {v : Json}, .string text = v → ∃ text', v = .string text' ∧ quotes ∉ text'.toList :=
    fun heq => ⟨text, heq.symm, hfree⟩
  -- A text that is no address is never respelled; an address has no quotes either.
  cases places with
  | nothing => exact hkept h
  | address =>
    rcases h with heq | ⟨a, b, ha, rfl, hsame⟩
    · exact hkept heq
    · refine ⟨b, rfl, ?_⟩
      rcases hsame with rfl | ⟨-, hb, -⟩
      · rw [← Json.string.inj ha]
        exact hfree
      · exact quotes_notMem_of_isAddress hb
  | members of =>
    rcases h with heq | ⟨fields, fields', hobject, -⟩
    · exact hkept heq
    · cases hobject
  | items of =>
    rcases h with heq | ⟨items, items', harray, -⟩
    · exact hkept heq
    · cases harray

theorem respelled_members {of : String → Places} {members : List (String × String)} :
    ∀ {fields : List (String × Json)},
      List.Forall₂ (fun field field' =>
        field.1 = field'.1 ∧ JsonRespelled (of field.1) field.2 field'.2)
        (members.map fun member => (member.1, Json.string member.2)) fields →
      QuoteFree members → ∃ members', fields = members'.map (fun member =>
        (member.1, Json.string member.2)) ∧ QuoteFree members' ∧
          members'.length = members.length := by
  induction members with
  | nil =>
    intro fields h _
    cases h
    exact ⟨[], rfl, List.forall_mem_nil _, rfl⟩
  | cons member members ih =>
    intro fields h hfree
    cases h with
    | @cons _ field _ fields hfield hrest =>
      obtain ⟨members', rfl, hfree', hlength⟩ :=
        ih hrest fun other hother => hfree other (List.mem_cons_of_mem _ hother)
      obtain ⟨hkey, hvalue⟩ := hfree member List.mem_cons_self
      obtain ⟨text', htext', hfreeText⟩ := respelled_string hfield.2 hvalue
      obtain ⟨name, w⟩ := field
      obtain rfl : w = .string text' := htext'
      refine ⟨(name, text') :: members', rfl, ?_, by rw [List.length_cons, List.length_cons, hlength]⟩
      intro other hother
      rcases List.mem_cons.mp hother with rfl | hother
      · exact ⟨hfield.1 ▸ hkey, hfreeText⟩
      · exact hfree' other hother

/-- An object of texts with other spellings is an object of texts. -/
theorem respelled_flatObject {places : Places} {members : List (String × String)} {v : Json}
    (h : JsonRespelled places (flatObject members) v) (hne : members ≠ [])
    (hfree : QuoteFree members) :
    ∃ members', v = flatObject members' ∧ members' ≠ [] ∧ QuoteFree members' := by
  have hkept : ∀ {v : Json}, flatObject members = v →
      ∃ members', v = flatObject members' ∧ members' ≠ [] ∧ QuoteFree members' :=
    fun heq => ⟨members, heq.symm, hne, hfree⟩
  cases places with
  | nothing => exact hkept h
  | address =>
    rcases h with heq | ⟨a, b, ha, -⟩
    · exact hkept heq
    · cases ha
  | members of =>
    rcases h with heq | ⟨fields, fields', hobject, rfl, hfields⟩
    · exact hkept heq
    · obtain rfl := (Json.object.inj hobject).symm
      obtain ⟨members', rfl, hfree', hlength⟩ := respelled_members hfields hfree
      refine ⟨members', rfl, ?_, hfree'⟩
      rintro rfl
      exact hne (List.length_eq_zero_iff.mp hlength.symm)
  | items of =>
    rcases h with heq | ⟨items, items', harray, -⟩
    · exact hkept heq
    · cases harray

/-- The outside functions, with the JSON of flat objects. -/
def flatSdk : AssetSdk :=
  { eventSdk with standardizeAddress := standardAddress, fromStr := flatFromStr }

theorem standardSdk_flatSdk : StandardSdk flatSdk where
  standardizes _ := rfl
  writes := by
    intro places text v v' hv h
    obtain ⟨members, rfl, hne, hfree⟩ := flatFromStr_eq_some hv
    obtain ⟨members', rfl, hne', hfree'⟩ := respelled_flatObject h hne hfree
    exact ⟨flatText members', flatFromStr_flatText hne' hfree'⟩

/-! ## A store that is emptied and deleted -/

/-- The deletion event of a store of the account, with the store spelled so. -/
def deletionMembers (spelled : String) : List (String × String) :=
  [("metadata", moonMetadata), ("owner", holder), ("store", spelled)]

def deletionEvent (spelled : String) : Stream.Event where
  key := some ⟨holder, 0⟩
  typeStr := deletionType
  data := flatText (deletionMembers spelled)

/-- What was in the store is withdrawn. -/
def emptiedEvent (store : String) : Stream.Event where
  key := some ⟨holder, 0⟩
  typeStr := "0x1::fungible_asset::Withdraw"
  data := flatText [("store", store), ("amount", "4")]

/-- A user transaction that empties and deletes a store. -/
def deletionTxn (store spelled : String) : Stream.Transaction :=
  ⟨9, 1, 1, some ⟨9, 0⟩,
    some ⟨100, true, [.deleteResource
      ⟨store, ⟨coinAddr, "object", "ObjectGroup"⟩, "0x1::object::ObjectGroup"⟩ []]⟩,
    some (.user (some ⟨holder, 0, 0, 100, none, none, none, none, none, none, none⟩)
      [emptiedEvent store, deletionEvent spelled])⟩

/-- The transaction as the parser has it. -/
def deletionCtx (store spelled : String) : TxnContext where
  txnVersion := 9
  blockHeight := 1
  txnTimestamp := 9000000
  txnEpoch := 1
  transactionInfo := ((deletionTxn store spelled).info).getD ⟨0, false, []⟩
  events := [emptiedEvent store, deletionEvent spelled]
  userRequest := some ⟨holder, 0, 0, 100, none, none, none, none, none, none, none⟩

/-- The addresses of a deletion event. -/
def deletionPlaces : Places :=
  .fields [("metadata", .address), ("owner", .address), ("store", .address)]

theorem fromStr_deletionEvent {spelled : String} (h : quotes ∉ spelled.toList) :
    flatSdk.fromStr (deletionEvent spelled).data = some (flatObject (deletionMembers spelled)) := by
  have hfree : QuoteFree (deletionMembers spelled) := by
    unfold QuoteFree deletionMembers
    simp only [List.forall_mem_cons]
    exact ⟨by decide +kernel, by decide +kernel, ⟨by decide +kernel, h⟩,
      List.forall_mem_nil _⟩
  have hfrom : flatSdk.fromStr = flatFromStr := rfl
  have hdata : (deletionEvent spelled).data = flatText (deletionMembers spelled) := rfl
  have hne : deletionMembers spelled ≠ [] := List.cons_ne_nil _ _
  rw [hfrom, hdata, flatFromStr_flatText hne hfree]

theorem respelled_deletionMembers {store store' : String} (h : SameAddress store store') :
    JsonRespelled deletionPlaces (flatObject (deletionMembers store))
      (flatObject (deletionMembers store')) := by
  refine Or.inr ⟨_, _, rfl, rfl,
    .cons ⟨rfl, Or.inl rfl⟩ (.cons ⟨rfl, Or.inl rfl⟩ (.cons ⟨rfl, ?_⟩ .nil))⟩
  exact Or.inr ⟨store, store', rfl, rfl, h⟩

/-- The deletion event, with the store spelled in another way. -/
theorem respelled_deletionEvent {store store' : String} (h : SameAddress store store')
    (hfree : quotes ∉ store.toList) (hfree' : quotes ∉ store'.toList) :
    EventRespelled flatSdk.toSdk (deletionEvent store) (deletionEvent store') where
  key := .some ⟨SameAddress.refl _, rfl⟩
  typeStr := rfl
  data := by
    have hplaces : eventPlaces.lookup (deletionEvent store).typeStr = some deletionPlaces := rfl
    rw [hplaces]
    exact Or.inr ⟨_, _, fromStr_deletionEvent hfree, fromStr_deletionEvent hfree',
      respelled_deletionMembers h⟩

section

variable {spelled : String} (hfree : quotes ∉ spelled.toList)

include hfree

theorem fromEvent_deletionEvent :
    FungibleAssetStoreDeletionEvent.fromEvent flatSdk.toSdk (deletionEvent spelled).toProtos =
      some (some ⟨moonMetadata, holder, spelled⟩) := by
  have htype : (deletionEvent spelled).typeStr = deletionType := rfl
  rw [deletionEvent_eq, if_pos htype, fromStr_deletionEvent hfree]
  rfl

omit hfree in
theorem fromEvent_emptiedEvent (store : String) :
    FungibleAssetStoreDeletionEvent.fromEvent flatSdk.toSdk (emptiedEvent store).toProtos =
      some none := by
  have htype : (emptiedEvent store).typeStr ≠ deletionType := by
    show "0x1::fungible_asset::Withdraw" ≠ deletionType
    decide +kernel
  rw [deletionEvent_eq, if_neg htype]

theorem deletionsOf_deletionCtx (store : String) :
    deletionsOf flatSdk (deletionCtx store spelled) = [⟨moonMetadata, holder, spelled⟩] := by
  show [emptiedEvent store, deletionEvent spelled].filterMap _ = _
  rw [List.filterMap_cons, List.filterMap_cons, fromEvent_emptiedEvent,
    fromEvent_deletionEvent hfree]
  rfl

/-- The rows of the transaction, from the map with its one deletion event. -/
theorem parseV2Coin_deletionTxn (store : String) :
    parseV2Coin flatSdk (fun _ => none) [deletionTxn store spelled] =
      (rowsWith flatSdk (deletionCtx store spelled)
        (Table.insertAll ∅ [(spelled, ⟨moonMetadata, holder, spelled⟩)])).map fun rows =>
          coinRowsOf (fun _ => none) [rows] := by
  have hdeleted : deletedStores flatSdk (deletionCtx store spelled) =
      some (Table.insertAll ∅ [(spelled, ⟨moonMetadata, holder, spelled⟩)]) := by
    have hparsed : [(emptiedEvent store).toProtos, (deletionEvent spelled).toProtos].mapM
        (FungibleAssetStoreDeletionEvent.fromEvent flatSdk.toSdk) =
          some [none, some ⟨moonMetadata, holder, spelled⟩] := by
      rw [List.mapM_cons, List.mapM_cons, fromEvent_emptiedEvent, fromEvent_deletionEvent hfree]
      rfl
    have hevents : (deletionCtx store spelled).events.map Stream.Event.toProtos =
        [(emptiedEvent store).toProtos, (deletionEvent spelled).toProtos] := rfl
    unfold deletedStores deletedStoresOf
    rw [hevents, hparsed]
    rfl
  have hctx : txnContextOf flatSdk (deletionTxn store spelled) =
      some (some (deletionCtx store spelled)) := rfl
  unfold parseV2Coin
  rw [List.mapM_cons, parseTransaction_eq, hctx]
  dsimp only
  -- The rest does not depend on how the store is spelled.
  rw [hdeleted, Option.bind_some]
  cases rowsWith flatSdk (deletionCtx store spelled)
      (Table.insertAll ∅ [(spelled, ⟨moonMetadata, holder, spelled⟩)]) with
  | none => rfl
  | some rows => rfl

end

/-- The owners of the activities and the number of the balances. -/
def ownersAndBalances (rows : CoinRows) : List (Option String) × ℕ :=
  (rows.activities.map (·.ownerAddress), rows.balances.length)

/-- A store whose first digit is not zero is spelled in one way. -/
theorem spelling_immaterial_moonStore :
    SpellingImmaterial flatSdk (fun _ => none) [deletionTxn moonStore moonStore] := by
  have honce : ∀ address ∈ [moonMetadata, holder, moonStore], OneSpelling address := by
    simp only [List.forall_mem_cons, oneSpelling_iff]
    exact ⟨fun _ => by decide +kernel, fun _ => by decide +kernel, fun _ => by decide +kernel,
      fun _ h => absurd h List.not_mem_nil⟩
  refine (spelling_immaterial_iff flatSdk standardSdk_flatSdk (fun _ => none)
    [deletionTxn moonStore moonStore]).mpr fun _ => ⟨?_, ?_⟩
  · intro txn htxn ctx hctx
    obtain rfl := List.mem_singleton.mp htxn
    obtain rfl : deletionCtx moonStore moonStore = ctx := Option.some.inj hctx
    have hfree : quotes ∉ moonStore.toList := by decide +kernel
    have hdeletions := deletionsOf_deletionCtx hfree moonStore
    refine ⟨?_, ?_⟩
    · intro storageId _ event hevent _
      rw [hdeletions, List.mem_singleton] at hevent
      rw [hevent]
      exact honce moonStore (by simp)
    · intro storageId event _ hlast
      rw [hdeletions] at hlast
      have hmem := List.mem_of_mem_filter (List.mem_of_mem_getLast? hlast)
      rw [List.mem_singleton.mp hmem]
      exact ⟨honce holder (by simp), honce moonMetadata (by simp)⟩
  · intro assetType aggregator hlast
    cases hlast

/-- A store whose address begins with a zero, and without the zero. -/
def zeroStore : String := "0x0e22fe5b0f5dccba7978d3d0b53a6281a6da628f23087b3bf79d27fff44e1463"

def trimmedStore : String := "0xe22fe5b0f5dccba7978d3d0b53a6281a6da628f23087b3bf79d27fff44e1463"

/-- Without the zero in the deletion event, the activity has no owner and there is no
balance. -/
theorem spelling_shows_zeroStore :
    ¬ SpellingImmaterial flatSdk (fun _ => none) [deletionTxn zeroStore zeroStore] := by
  intro h
  have hsame : SameAddress zeroStore trimmedStore :=
    Or.inr ⟨by decide +kernel, by decide +kernel, by decide +kernel⟩
  have hzero : quotes ∉ zeroStore.toList := by decide +kernel
  have htrimmed : quotes ∉ trimmedStore.toList := by decide +kernel
  have hrespelled : TxnRespelled flatSdk.toSdk (deletionTxn zeroStore zeroStore)
      (deletionTxn zeroStore trimmedStore) := by
    refine ⟨rfl, rfl, rfl, rfl, ?_, ?_⟩
    · exact (txnRespelled_refl flatSdk.toSdk (deletionTxn zeroStore zeroStore)).info
    · exact .some (.user _ (.cons (eventRespelled_refl _ _)
        (.cons (respelled_deletionEvent hsame hzero htrimmed) .nil)))
  -- The two spellings have different rows: the activity loses its owner, the balance is gone.
  have hrows := h _ (.cons hrespelled .nil)
  have hfull : (parseV2Coin flatSdk (fun _ => none) [deletionTxn zeroStore zeroStore]).map
      ownersAndBalances = some ([some holder, some holder], 1) := by
    rw [parseV2Coin_deletionTxn hzero]
    decide +kernel
  have hless : (parseV2Coin flatSdk (fun _ => none) [deletionTxn zeroStore trimmedStore]).map
      ownersAndBalances = some ([some holder, none], 0) := by
    rw [parseV2Coin_deletionTxn htrimmed]
    decide +kernel
  rw [hrows, hfull] at hless
  exact absurd hless (by decide)

end IndexerProcessors.FungibleAsset

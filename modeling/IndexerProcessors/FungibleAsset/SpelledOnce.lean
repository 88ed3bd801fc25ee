import IndexerProcessors.FungibleAsset.AskedStores
import IndexerProcessors.Lib.RowNumber

/-!
# Addresses that are spelled in one way

Where the spelling of addresses shows in the rows of a batch: in the deletion events of the
stores that rows ask for, and in the aggregators of the coins whose metadata is written
last. `parseV2Coin_respelled` — if those addresses have one spelling, no spelling of the
others shows.
-/

namespace IndexerProcessors.FungibleAsset

open IndexerProcessors.Lib
open IndexerProcessors.Protos

/-! ## Deletion events -/

/-- The deletion events of a transaction. -/
def deletionsOf (sdk : AssetSdk) (ctx : TxnContext) : List FungibleAssetStoreDeletionEvent :=
  ctx.events.filterMap fun event =>
    (FungibleAssetStoreDeletionEvent.fromEvent sdk.toSdk event.toProtos).join

/-- The last deletion event whose store is spelled so. -/
def lastDeletion (deletions : List FungibleAssetStoreDeletionEvent) (storageId : String) :
    Option FungibleAssetStoreDeletionEvent :=
  (deletions.filter fun event => event.store = storageId).getLast?

/-- Where the spelling of the deletion events of a transaction shows: the store of any event of
a store that a row asks for, and the owner and the asset of the last one of a store whose
owner a row asks for. -/
structure DeletionsSpelledOnce (sdk : AssetSdk) (ctx : TxnContext) : Prop where
  store : ∀ storageId, AsksOwner sdk ctx storageId ∨ AsksBalance sdk ctx storageId →
    ∀ event ∈ deletionsOf sdk ctx, standardAddress event.store = storageId →
      OneSpelling event.store
  ownerAndAsset : ∀ storageId event, AsksOwner sdk ctx storageId →
    lastDeletion (deletionsOf sdk ctx) storageId = some event →
      OneSpelling event.owner ∧ OneSpelling event.metadata

variable {sdk : AssetSdk} {ctx ctx' : TxnContext}

/-- The map of deletion events has the last one of each store. -/
theorem lookup_deletedStores {deleted : DeletedStores} (h : deletedStores sdk ctx = some deleted)
    (storageId : String) :
    deleted.lookup storageId = lastDeletion (deletionsOf sdk ctx) storageId := by
  unfold deletedStores deletedStoresOf at h
  obtain ⟨deletions, hdeletions, h⟩ := Option.bind_eq_some_iff.mp h
  obtain rfl := Option.some.inj h
  have hreduce : deletions.reduceOption = deletionsOf sdk ctx := by
    rw [reduceOption_of_mapM hdeletions, List.filterMap_map, deletionsOf]
    rfl
  rw [Table.lookup_insertAll, AList.lookup_empty, Option.or_none, hreduce, lastDeletion, proj_map,
    List.map_id']

theorem fungibleEventStore_standard {event : Stream.Event} {faEvent : FungibleAssetEvent}
    {store : String × Option Bool × Option ℚ}
    (h : fungibleEventStore sdk event faEvent = some store) :
    ∃ address, sdk.standardizeAddress address = store.1 := by
  cases faEvent with
  | depositEvent inner =>
    obtain ⟨key, -, rfl⟩ := Option.map_eq_some_iff.mp h
    exact ⟨key.accountAddress, rfl⟩
  | withdrawEvent inner =>
    obtain ⟨key, -, rfl⟩ := Option.map_eq_some_iff.mp h
    exact ⟨key.accountAddress, rfl⟩
  | frozenEvent inner =>
    obtain ⟨key, -, rfl⟩ := Option.map_eq_some_iff.mp h
    exact ⟨key.accountAddress, rfl⟩
  | depositEventV2 inner =>
    obtain rfl := Option.some.inj h
    exact ⟨inner.store, rfl⟩
  | withdrawEventV2 inner =>
    obtain rfl := Option.some.inj h
    exact ⟨inner.store, rfl⟩
  | frozenEventV2 inner =>
    obtain rfl := Option.some.inj h
    exact ⟨inner.store, rfl⟩

/-- A store that a row asks for is asked for by its standard address. -/
theorem standard_of_asked (hsdk : StandardSdk sdk) {storageId : String}
    (h : AsksOwner sdk ctx storageId ∨ AsksBalance sdk ctx storageId) :
    standardAddress storageId = storageId := by
  have hfrom : ∃ address, sdk.standardizeAddress address = storageId := by
    rcases h with ⟨⟨event, -, hstore⟩, -⟩ | ⟨dr, params, -, -, hdr⟩
    · obtain ⟨store, hevent, rfl⟩ := Option.map_eq_some_iff.mp hstore
      obtain ⟨faEvent, -, hevent⟩ := Option.bind_eq_some_iff.mp hevent
      exact fungibleEventStore_standard hevent
    · exact ⟨dr.address, hdr⟩
  obtain ⟨address, rfl⟩ := hfrom
  rw [hsdk.standardizes, standardAddress_idem]

theorem deletionsOf_respelled (hctx : CtxRespelled sdk.toSdk ctx ctx') :
    List.Forall₂ DeletionEventRespelled (deletionsOf sdk ctx) (deletionsOf sdk ctx') :=
  forall₂_filterMap hctx.events fun _ _ hevent =>
    rel_bind (rel_deletionEvent hevent) fun _ _ h => h

/-- If the addresses of a store in deletion events have one spelling, its last event is found
in any spelling of the others. -/
theorem rel_lastDeletion {deletions deletions' : List FungibleAssetStoreDeletionEvent}
    (h : List.Forall₂ DeletionEventRespelled deletions deletions') {storageId : String}
    (hstandard : standardAddress storageId = storageId)
    (honce : ∀ event ∈ deletions, standardAddress event.store = storageId →
      OneSpelling event.store) :
    Option.Rel DeletionEventRespelled (lastDeletion deletions storageId)
      (lastDeletion deletions' storageId) := by
  refine rel_getLast? (forall₂_filter ?_)
  have hmem : List.Forall₂ (fun event event' => event ∈ deletions ∧
      DeletionEventRespelled event event') deletions deletions' := by
    rw [List.forall₂_and_left]
    exact ⟨fun event hevent => hevent, h⟩
  refine hmem.imp ?_
  rintro event event' ⟨hevent, hrel⟩
  refine ⟨hrel, decide_eq_decide.mpr ⟨?_, ?_⟩⟩
  · intro hstore
    rw [← hstore]
    refine honce event hevent ?_ _ hrel.store
    rw [hstore, hstandard]
  · intro hstore
    have hsame : event'.store = event.store := by
      refine honce event hevent ?_ _ hrel.store
      rw [hrel.store.standard_eq, hstore, hstandard]
    rw [← hsame, hstore]

/-- Deletion events in another spelling answer the same, if the spelling does not show. -/
theorem storesAgree (hsdk : StandardSdk sdk) (hctx : CtxRespelled sdk.toSdk ctx ctx')
    (honce : DeletionsSpelledOnce sdk ctx) {deleted deleted' : DeletedStores}
    (h : deletedStores sdk ctx = some deleted) (h' : deletedStores sdk ctx' = some deleted') :
    StoresAgree sdk ctx deleted deleted' := by
  have hlast : ∀ storageId, AsksOwner sdk ctx storageId ∨ AsksBalance sdk ctx storageId →
      Option.Rel DeletionEventRespelled (deleted.lookup storageId) (deleted'.lookup storageId) := by
    intro storageId hasks
    rw [lookup_deletedStores h, lookup_deletedStores h']
    exact rel_lastDeletion (deletionsOf_respelled hctx) (standard_of_asked hsdk hasks)
      (honce.store storageId hasks)
  constructor
  · intro storageId hasks
    have hrel := hlast storageId (Or.inl hasks)
    cases hlookup : deleted.lookup storageId with
    | none =>
      rw [hlookup] at hrel
      cases hlookup' : deleted'.lookup storageId with
      | none => rfl
      | some event' =>
        rw [hlookup'] at hrel
        cases hrel
    | some event =>
      rw [hlookup] at hrel
      obtain ⟨event', hlookup', hevent⟩ := exists_of_rel_some hrel
      rw [lookup_deletedStores h] at hlookup
      obtain ⟨howner, hmetadata⟩ := honce.ownerAndAsset storageId event hasks hlookup
      rw [hlookup', ownerAndAssetOf, ownerAndAssetOf, Option.map_some, Option.map_some,
        Option.map_some, Option.map_some, howner _ hevent.owner, hmetadata _ hevent.metadata]
  · intro storageId hasks
    refine map_congr_rel (hlast storageId (Or.inr hasks)) ?_
    intro event event' hevent
    rw [standardOwnerAndAsset, standardOwnerAndAsset, hsdk.standardize_eq hevent.owner,
      hsdk.standardize_eq hevent.metadata]

/-- Neither map of deletion events is a panic, or both are. -/
theorem deletedStores_bothRun (hctx : CtxRespelled sdk.toSdk ctx ctx') :
    BothRun (deletedStores sdk ctx) (deletedStores sdk ctx') := by
  unfold deletedStores deletedStoresOf
  rw [List.mapM_map, List.mapM_map]
  refine (BothRun.mapM_of_rel hctx.events ?_).bind fun _ _ => .some trivial
  intro event event' hevent
  exact BothRun.of_rel (rel_deletionEvent hevent)

/-! ## Metadata -/

/-- The asset type and the aggregator of the metadata of a coin. -/
def coinInfoWrite (sdk : AssetSdk) (wr : WriteResource) (params : List MoveType) :
    Option (String × Option AggregatorResource) := do
  let inner ← (fromWriteResource sdk.toSdk typeCoinInfo (CoinInfoResource.ofJson sdk) wr).join
  let assetType ← (coinTypeFromMoveType params wr.typeStr).bind getCoinTypeBelowMax
  return (assetType, inner.getAggregatorMetadata)

/-- The asset type of the metadata of a fungible asset whose object is written. -/
def assetMetadataWrite (sdk : AssetSdk) (ctx : TxnContext) (wr : WriteResource) :
    Option (String × Option AggregatorResource) := do
  let _ ← (fromWriteResource sdk.toSdk typeFungibleAssetMetadata
    (FungibleAssetMetadata.ofJson sdk) wr).join
  if sdk.standardizeAddress wr.address ∈ objectAddresses sdk ctx then
    return (sdk.standardizeAddress wr.address, none)
  else none

/-- The metadata that a change writes: its asset types and their aggregators. -/
def metadataWritesOf (sdk : AssetSdk) (ctx : TxnContext) (change : Protos.Change) :
    List (String × Option AggregatorResource) :=
  match change with
  | .writeResource wr params =>
    (coinInfoWrite sdk wr params).toList ++ (assetMetadataWrite sdk ctx wr).toList
  | _ => []

/-- The transaction as the parser has it, if it has data. -/
def contextOf (sdk : AssetSdk) (txn : Stream.Transaction) : Option TxnContext :=
  (txnContextOf sdk txn).join

/-- The metadata that a batch writes, in order. -/
def metadataWrites (sdk : AssetSdk) (transactions : List Stream.Transaction) :
    List (String × Option AggregatorResource) :=
  transactions.flatMap fun txn => (contextOf sdk txn).elim [] fun ctx =>
    ctx.transactionInfo.changes.flatMap (metadataWritesOf sdk ctx)

/-- The metadata of an asset type that is written last. -/
def lastMetadataWrite (writes : List (String × Option AggregatorResource)) (assetType : String) :
    Option (String × Option AggregatorResource) :=
  (writes.filter fun write => write.1 = assetType).getLast?

/-- No address of which the spelling shows in the rows of a batch has two spellings. -/
structure SpelledOnce (sdk : AssetSdk) (transactions : List Stream.Transaction) : Prop where
  deletions : ∀ txn ∈ transactions, ∀ ctx, contextOf sdk txn = some ctx →
    DeletionsSpelledOnce sdk ctx
  aggregators : ∀ assetType aggregator,
    lastMetadataWrite (metadataWrites sdk transactions) assetType =
      some (assetType, some aggregator) →
        OneSpelling aggregator.handle ∧ OneSpelling aggregator.key

/-- The row of a write. -/
structure IsWrite (fam : FungibleAssetMetadataModel) (write : String × Option AggregatorResource) :
    Prop where
  assetType : fam.assetType = write.1
  handle : fam.supplyAggregatorTableHandleV1 = write.2.map (·.handle)
  key : fam.supplyAggregatorTableKeyV1 = write.2.map (·.key)

theorem coinInfoWrite_of_row {wr : WriteResource} {params : List MoveType} {txnVersion : Int64}
    {txnTimestamp : NaiveDateTime} {out : Option FungibleAssetMetadataModel}
    (h : FungibleAssetMetadataModel.getV1FromWriteResource sdk wr params txnVersion txnTimestamp =
      some out) : Option.Rel IsWrite out (coinInfoWrite sdk wr params) := by
  unfold FungibleAssetMetadataModel.getV1FromWriteResource at h
  unfold coinInfoWrite
  obtain ⟨inner, hinner, h⟩ := Option.bind_eq_some_iff.mp h
  rw [hinner]
  cases inner with
  | none =>
    obtain rfl := Option.some.inj h
    exact .none
  | some inner =>
    obtain ⟨coinType, htype, h⟩ := Option.bind_eq_some_iff.mp h
    obtain ⟨creatorAddress, -, h⟩ := Option.bind_eq_some_iff.mp h
    rw [htype]
    show Option.Rel IsWrite out ((getCoinTypeBelowMax coinType).bind _)
    cases hshort : getCoinTypeBelowMax coinType with
    | none =>
      rw [hshort] at h
      obtain rfl := Option.some.inj h
      exact .none
    | some assetType =>
      rw [hshort] at h
      obtain rfl := Option.some.inj h
      exact .some ⟨rfl, rfl, rfl⟩

theorem assetMetadataWrite_of_row {wr : WriteResource} {objects : FungibleObjectMapping}
    (hobjects : fungibleAssetObjectHelper sdk ctx.transactionInfo.changes = some objects)
    {out : Option FungibleAssetMetadataModel}
    (h : FungibleAssetMetadataModel.getV2FromWriteResource sdk wr ctx.txnVersion ctx.txnTimestamp
      objects = some out) : Option.Rel IsWrite out (assetMetadataWrite sdk ctx wr) := by
  unfold FungibleAssetMetadataModel.getV2FromWriteResource at h
  unfold assetMetadataWrite
  obtain ⟨inner, hinner, h⟩ := Option.bind_eq_some_iff.mp h
  rw [hinner]
  cases inner with
  | none =>
    obtain rfl := Option.some.inj h
    exact .none
  | some inner =>
    show Option.Rel IsWrite out (if _ then _ else _)
    have hdomain := fungibleAssetObjectHelper_domain hobjects (sdk.standardizeAddress wr.address)
    dsimp only at h
    cases hlookup : objects.lookup (sdk.standardizeAddress wr.address) with
    | none =>
      rw [hlookup] at h hdomain
      obtain rfl := Option.some.inj h
      rw [if_neg (hdomain.not.mp Bool.false_ne_true)]
      exact .none
    | some data =>
      rw [hlookup] at h hdomain
      obtain rfl := Option.some.inj h
      rw [if_pos (hdomain.mp rfl)]
      exact .some ⟨rfl, rfl, rfl⟩

/-- The metadata of a transaction is that of its writes. -/
theorem metadataRows_writes {rows : List FungibleAssetMetadataModel}
    (h : metadataRows sdk ctx = some rows) :
    List.Forall₂ IsWrite rows (ctx.transactionInfo.changes.flatMap (metadataWritesOf sdk ctx)) := by
  unfold metadataRows at h
  obtain ⟨objects, hobjects, h⟩ := Option.bind_eq_some_iff.mp h
  unfold transactionMetadata at h
  obtain ⟨metadata, hmetadata, h⟩ := Option.bind_eq_some_iff.mp h
  obtain rfl := Option.some.inj h
  rw [List.flatMap_def]
  refine List.rel_flatten ?_
  rw [List.forall₂_map_right_iff]
  refine (forall₂_of_mapM hmetadata).imp ?_
  intro out change hout
  cases change with
  | writeResource wr params =>
    obtain ⟨v1, hv1, hout⟩ := Option.bind_eq_some_iff.mp hout
    obtain ⟨v2, hv2, hout⟩ := Option.bind_eq_some_iff.mp hout
    obtain rfl := Option.some.inj hout
    exact List.rel_append (forall₂_toList (coinInfoWrite_of_row hv1))
      (forall₂_toList (assetMetadataWrite_of_row hobjects hv2))
  | deleteResource dr params =>
    obtain rfl := Option.some.inj hout
    exact .nil
  | writeTableItem item =>
    obtain rfl := Option.some.inj hout
    exact .nil
  | deleteTableItem item =>
    obtain rfl := Option.some.inj hout
    exact .nil
  | other =>
    obtain rfl := Option.some.inj hout
    exact .nil

/-- What a transaction of which the rows are parsed has. -/
theorem parseTransaction_cases {txn : Stream.Transaction} {rows : TransactionRows}
    (h : parseTransaction sdk txn = some rows) :
    (txnContextOf sdk txn = some none ∧ rows = ⟨[], [], [], [], []⟩) ∨
      ∃ ctx deleted, txnContextOf sdk txn = some (some ctx) ∧
        deletedStores sdk ctx = some deleted ∧ rowsWith sdk ctx deleted = some rows := by
  rw [parseTransaction_eq] at h
  cases hctx : txnContextOf sdk txn with
  | none =>
    rw [hctx] at h
    cases h
  | some context =>
    rw [hctx] at h
    cases context with
    | none => exact Or.inl ⟨rfl, (Option.some.inj h).symm⟩
    | some ctx =>
      obtain ⟨deleted, hdeleted, h⟩ := Option.bind_eq_some_iff.mp h
      exact Or.inr ⟨ctx, deleted, rfl, hdeleted, h⟩

/-- The parts of the rows. -/
theorem rowsWith_parts {deleted : DeletedStores} {rows : TransactionRows}
    (h : rowsWith sdk ctx deleted = some rows) :
    balancesWith sdk.toCoinSdk ctx deleted = some rows.balances ∧
      activitiesWith sdk ctx deleted = some rows.activities ∧
      metadataRows sdk ctx = some rows.metadata := by
  unfold rowsWith at h
  obtain ⟨balances, hbalances, h⟩ := Option.bind_eq_some_iff.mp h
  obtain ⟨activities, hactivities, h⟩ := Option.bind_eq_some_iff.mp h
  obtain ⟨metadata, hmetadata, h⟩ := Option.bind_eq_some_iff.mp h
  obtain ⟨mappings, -, h⟩ := Option.bind_eq_some_iff.mp h
  obtain ⟨coinSupply, -, h⟩ := Option.bind_eq_some_iff.mp h
  obtain rfl := Option.some.inj h
  exact ⟨hbalances, hactivities, hmetadata⟩

/-- The metadata of a batch is that of its writes. -/
theorem metadata_writes {transactions : List Stream.Transaction} {parsed : List TransactionRows}
    (h : transactions.mapM (parseTransaction sdk) = some parsed) :
    List.Forall₂ IsWrite (parsed.flatMap (·.metadata)) (metadataWrites sdk transactions) := by
  unfold metadataWrites
  rw [List.flatMap_def, List.flatMap_def]
  refine List.rel_flatten ?_
  rw [List.forall₂_map_left_iff, List.forall₂_map_right_iff]
  refine (forall₂_of_mapM h).imp ?_
  intro rows txn hrows
  rcases parseTransaction_cases hrows with ⟨hctx, rfl⟩ | ⟨ctx, deleted, hctx, -, hrows⟩
  · rw [contextOf, hctx]
    exact .nil
  · rw [contextOf, hctx]
    exact metadataRows_writes (rowsWith_parts hrows).2.2

/-! ## Maps of metadata -/

/-- What leaves a map depends on its entries alone. -/
theorem sortedValues_congr {ρ : Type} {t t' : Table String ρ}
    (h : ∀ k, t.lookup k = t'.lookup k) : sortedValues t = sortedValues t' := by
  have hperm : t.rows.Perm t'.rows := by
    rw [List.perm_ext_iff_of_nodup (List.Nodup.of_map _ (Table.nodup_rows_keys t))
      (List.Nodup.of_map _ (Table.nodup_rows_keys t'))]
    rintro ⟨k, row⟩
    rw [Table.mem_rows, Table.mem_rows, h]
  have hsorted : sortBy Prod.fst t.rows = sortBy Prod.fst t'.rows := by
    refine sortBy_eq_of_perm hperm ?_
    rintro ⟨k, row⟩ hrow ⟨_, row'⟩ hrow' rfl
    rw [Table.mem_rows] at hrow hrow'
    rw [Option.some.inj (hrow.symm.trans hrow')]
  exact congrArg (List.map Prod.snd) hsorted

theorem mem_sortedValues {ρ : Type} {t : Table String ρ} {row : ρ} :
    row ∈ sortedValues t ↔ ∃ k, t.lookup k = some row := by
  unfold sortedValues
  rw [List.mem_map]
  constructor
  · rintro ⟨⟨k, _⟩, hmem, rfl⟩
    exact ⟨k, Table.mem_rows.mp ((List.perm_insertionSort _ _).mem_iff.mp hmem)⟩
  · rintro ⟨k, hk⟩
    exact ⟨(k, row), (List.perm_insertionSort _ _).mem_iff.mpr (Table.mem_rows.mpr hk), rfl⟩

theorem lookup_metadataMapping (parsed : List TransactionRows) (assetType : String) :
    (metadataMapping parsed).lookup assetType =
      ((parsed.flatMap (·.metadata)).filter fun fam => fam.assetType = assetType).getLast? := by
  rw [metadataMapping, Table.lookup_insertAll, AList.lookup_empty, Option.or_none, proj_map,
    List.map_id']

/-- The metadata in the map is the write that is last. -/
theorem rel_lastMetadataWrite {transactions : List Stream.Transaction}
    {parsed : List TransactionRows}
    (h : transactions.mapM (parseTransaction sdk) = some parsed) (assetType : String) :
    Option.Rel IsWrite ((metadataMapping parsed).lookup assetType)
      (lastMetadataWrite (metadataWrites sdk transactions) assetType) := by
  rw [lookup_metadataMapping]
  refine rel_getLast? (forall₂_filter ((metadata_writes h).imp ?_))
  intro fam write hwrite
  exact ⟨hwrite, by rw [hwrite.assetType]⟩

/-- A write that is last is of the asset type. -/
theorem lastMetadataWrite_assetType {writes : List (String × Option AggregatorResource)}
    {assetType : String} {write : String × Option AggregatorResource}
    (h : lastMetadataWrite writes assetType = some write) : write.1 = assetType := by
  have hmem := List.mem_of_mem_getLast? h
  exact of_decide_eq_true (List.mem_filter.mp hmem).2

/-- Metadata whose aggregator has one spelling is the same in any. -/
theorem MetadataRespelled.eq {fam fam' : FungibleAssetMetadataModel}
    (h : MetadataRespelled fam fam')
    (hhandle : ∀ handle, fam.supplyAggregatorTableHandleV1 = some handle → OneSpelling handle)
    (hkey : ∀ key, fam.supplyAggregatorTableKeyV1 = some key → OneSpelling key) : fam' = fam := by
  have hsame : ∀ {o o' : Option String}, Option.Rel SameAddress o o' →
      (∀ a, o = some a → OneSpelling a) → o' = o := by
    intro o o' hrel honce
    cases hrel with
    | none => rfl
    | some hrel => rw [honce _ rfl _ hrel]
  rw [h.others, hsame h.handle hhandle, hsame h.key hkey]

/-- The row of a write, in any spelling. -/
theorem eq_of_write {fam fam' : Option FungibleAssetMetadataModel}
    {write : Option (String × Option AggregatorResource)}
    (h : Option.Rel MetadataRespelled fam fam') (hwrite : Option.Rel IsWrite fam write)
    (honce : ∀ assetType aggregator, write = some (assetType, some aggregator) →
      OneSpelling aggregator.handle ∧ OneSpelling aggregator.key) : fam = fam' := by
  cases h with
  | none => rfl
  | @some fam fam' hfam =>
    cases hwrite with
    | @some _ write hwrite =>
      obtain ⟨assetType, aggregator⟩ := write
      refine congrArg some (hfam.eq ?_ ?_).symm
      · intro handle hhandle
        rw [hwrite.handle] at hhandle
        obtain ⟨aggregator, rfl, rfl⟩ := Option.map_eq_some_iff.mp hhandle
        exact (honce assetType aggregator rfl).1
      · intro key hkey
        rw [hwrite.key] at hkey
        obtain ⟨aggregator, rfl, rfl⟩ := Option.map_eq_some_iff.mp hkey
        exact (honce assetType aggregator rfl).2

/-- If the aggregators that are written last have one spelling, no other shows. -/
theorem coinRowsOf_respelled {transactions : List Stream.Transaction}
    (honce : SpelledOnce sdk transactions) {parsed parsed' : List TransactionRows}
    (hparsed : transactions.mapM (parseTransaction sdk) = some parsed)
    (h : List.Forall₂ RowsRespelled parsed parsed') (getAssetTypeV1 : String → Option String) :
    coinRowsOf getAssetTypeV1 parsed = coinRowsOf getAssetTypeV1 parsed' := by
  have hflat : ∀ {ρ : Type} {f : TransactionRows → List ρ},
      (∀ rows rows', RowsRespelled rows rows' → f rows = f rows') →
        parsed.flatMap f = parsed'.flatMap f := by
    intro ρ f hf
    have hmap : parsed.map f = parsed'.map f := by
      rw [← List.forall₂_eq_eq_eq, List.forall₂_map_left_iff, List.forall₂_map_right_iff]
      exact h.imp hf
    rw [List.flatMap_def, List.flatMap_def, hmap]
  have hmetadata : List.Forall₂ MetadataRespelled (parsed.flatMap (·.metadata))
      (parsed'.flatMap (·.metadata)) := by
    rw [List.flatMap_def, List.flatMap_def]
    refine List.rel_flatten ?_
    rw [List.forall₂_map_left_iff, List.forall₂_map_right_iff]
    exact h.imp fun _ _ hrows => hrows.metadata
  have hlookup : ∀ assetType, (metadataMapping parsed).lookup assetType =
      (metadataMapping parsed').lookup assetType := by
    intro assetType
    have hwrite := rel_lastMetadataWrite hparsed assetType
    rw [lookup_metadataMapping] at hwrite
    rw [lookup_metadataMapping, lookup_metadataMapping]
    have hrel : Option.Rel MetadataRespelled
        ((parsed.flatMap (·.metadata)).filter fun fam => fam.assetType = assetType).getLast?
        ((parsed'.flatMap (·.metadata)).filter fun fam => fam.assetType = assetType).getLast? := by
      refine rel_getLast? (forall₂_filter (hmetadata.imp ?_))
      intro fam fam' hfam
      refine ⟨hfam, ?_⟩
      rw [hfam.others]
    refine eq_of_write hrel hwrite ?_
    intro other aggregator hlast
    obtain rfl : other = assetType := lastMetadataWrite_assetType hlast
    exact honce.aggregators other aggregator hlast
  unfold coinRowsOf
  rw [hflat fun _ _ hrows => hrows.activities, hflat fun _ _ hrows => hrows.balances,
    hflat fun _ _ hrows => hrows.coinSupply, sortedValues_congr hlookup, mappingsForDB,
    mappingsForDB, hflat fun _ _ hrows => hrows.mappings]

/-! ## Batches -/

/-- The rows of a transaction of which the spelling of deletion events does not show. -/
theorem rel_parseTransaction (hsdk : StandardSdk sdk) {txn txn' : Stream.Transaction}
    (h : TxnRespelled sdk.toSdk txn txn')
    (honce : ∀ ctx, contextOf sdk txn = some ctx → DeletionsSpelledOnce sdk ctx) :
    Option.Rel RowsRespelled (parseTransaction sdk txn) (parseTransaction sdk txn') := by
  rw [parseTransaction_eq, parseTransaction_eq]
  have hcontext := rel_txnContextOf h
  unfold contextOf at honce
  generalize txnContextOf sdk txn = o at hcontext honce
  generalize txnContextOf sdk txn' = o' at hcontext
  cases hcontext with
  | none => exact .none
  | some hcontext =>
    cases hcontext with
    | none => exact .some ⟨rfl, .nil, rfl, rfl, rfl⟩
    | @some ctx ctx' hctx =>
      have hboth := deletedStores_bothRun hctx
      show Option.Rel RowsRespelled ((deletedStores sdk ctx).bind (rowsWith sdk ctx))
        ((deletedStores sdk ctx').bind (rowsWith sdk ctx'))
      cases hdeleted : deletedStores sdk ctx with
      | none =>
        rw [hdeleted] at hboth
        cases hdeleted' : deletedStores sdk ctx' with
        | none => exact .none
        | some deleted' =>
          rw [hdeleted'] at hboth
          cases hboth
      | some deleted =>
        rw [hdeleted] at hboth
        obtain ⟨deleted', hdeleted', -⟩ := exists_of_rel_some hboth
        rw [hdeleted', Option.bind_some, Option.bind_some,
          rowsWith_congr (storesAgree hsdk hctx (honce ctx rfl) hdeleted hdeleted')]
        exact rel_rowsWith hsdk hctx deleted'

/-- No spelling is a panic. -/
theorem parseTransaction_bothRun (hsdk : StandardSdk sdk) {txn txn' : Stream.Transaction}
    (h : TxnRespelled sdk.toSdk txn txn') :
    BothRun (parseTransaction sdk txn) (parseTransaction sdk txn') := by
  rw [parseTransaction_eq, parseTransaction_eq]
  have hcontext := rel_txnContextOf h
  generalize txnContextOf sdk txn = o at hcontext
  generalize txnContextOf sdk txn' = o' at hcontext
  cases hcontext with
  | none => exact .none
  | some hcontext =>
    cases hcontext with
    | none => exact .some trivial
    | @some ctx ctx' hctx =>
      refine (deletedStores_bothRun hctx).bind fun deleted deleted' => ?_
      refine (rowsWith_bothRun sdk ctx deleted deleted').trans ?_
      exact BothRun.of_rel (rel_rowsWith hsdk hctx deleted')

theorem parseV2Coin_bothRun (hsdk : StandardSdk sdk) (getAssetTypeV1 : String → Option String)
    {transactions transactions' : List Stream.Transaction}
    (h : List.Forall₂ (TxnRespelled sdk.toSdk) transactions transactions') :
    BothRun (parseV2Coin sdk getAssetTypeV1 transactions)
      (parseV2Coin sdk getAssetTypeV1 transactions') :=
  (BothRun.mapM_of_rel h fun _ _ => parseTransaction_bothRun hsdk).bind fun _ _ => .some trivial

/-- **No spelling shows** where the addresses that could show it have only one. -/
theorem parseV2Coin_respelled (hsdk : StandardSdk sdk) (getAssetTypeV1 : String → Option String)
    {transactions transactions' : List Stream.Transaction}
    (honce : SpelledOnce sdk transactions)
    (h : List.Forall₂ (TxnRespelled sdk.toSdk) transactions transactions') :
    parseV2Coin sdk getAssetTypeV1 transactions = parseV2Coin sdk getAssetTypeV1 transactions' := by
  have hmem : List.Forall₂ (fun txn txn' => txn ∈ transactions ∧ TxnRespelled sdk.toSdk txn txn')
      transactions transactions' := by
    rw [List.forall₂_and_left]
    exact ⟨fun txn htxn => htxn, h⟩
  have hrel := mapM_rel hmem fun txn txn' htxn =>
    rel_parseTransaction hsdk htxn.2 (honce.deletions txn htxn.1)
  unfold parseV2Coin
  cases hparsed : transactions.mapM (parseTransaction sdk) with
  | none =>
    rw [hparsed] at hrel
    cases hparsed' : transactions'.mapM (parseTransaction sdk) with
    | none => rfl
    | some parsed' =>
      rw [hparsed'] at hrel
      cases hrel
  | some parsed =>
    rw [hparsed] at hrel
    obtain ⟨parsed', hparsed', hrows⟩ := exists_of_rel_some hrel
    rw [hparsed']
    exact congrArg some (coinRowsOf_respelled honce hparsed hrows getAssetTypeV1)

end IndexerProcessors.FungibleAsset

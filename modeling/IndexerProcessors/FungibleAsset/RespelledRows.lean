import IndexerProcessors.FungibleAsset.Respelling

/-!
# The rows of a transaction in another spelling

The rows of a transaction as a function of the map of its deletion events, `rowsWith`, and
what the spelling of the other addresses does to them: nothing but to the aggregators of
the metadata of coins (`rel_rowsWith`).
-/

namespace IndexerProcessors.FungibleAsset

open IndexerProcessors.Lib
open IndexerProcessors.Protos

/-! ## Rows from a map of deletion events -/

abbrev DeletedStores := Table String FungibleAssetStoreDeletionEvent

/-- The balances of `transactionBalances`, with this map. -/
def balancesWith (sdk : CoinSdk) (ctx : TxnContext) (deleted : DeletedStores) :
    Option (List FungibleAssetBalance) := do
  let objects ← objectsOf sdk ctx.transactionInfo.changes
  let v1 ← ctx.transactionInfo.changes.zipIdx.mapM
    (v1BalanceOf sdk ctx.txnVersion ctx.txnTimestamp)
  let objects ← ctx.transactionInfo.changes.foldlM (withConcurrentBalance sdk) objects
  let v2 ← ctx.transactionInfo.changes.zipIdx.mapM
    (v2BalanceOf sdk ctx.txnVersion ctx.txnTimestamp objects deleted)
  return v1.reduceOption ++ v2.reduceOption

/-- The activities of `transactionActivities`, with this map. -/
def activitiesWith (sdk : AssetSdk) (ctx : TxnContext) (deleted : DeletedStores) :
    Option (List FungibleAssetActivity) := do
  let objects ← fungibleAssetObjectHelper sdk ctx.transactionInfo.changes
  let coinTypes ← eventToV1CoinType sdk.toCoinSdk ctx.transactionInfo.changes
  let deletedCoinTypes ← ownerAddressToDeletedCoinType sdk.toCoinSdk ctx.transactionInfo.changes
  transactionActivities sdk ctx ⟨objects, deleted, coinTypes, deletedCoinTypes⟩

/-- The metadata of a transaction. -/
def metadataRows (sdk : AssetSdk) (ctx : TxnContext) : Option (List FungibleAssetMetadataModel) := do
  let objects ← fungibleAssetObjectHelper sdk ctx.transactionInfo.changes
  transactionMetadata sdk ctx objects

/-- The rows of a transaction, with this map. -/
def rowsWith (sdk : AssetSdk) (ctx : TxnContext) (deleted : DeletedStores) :
    Option TransactionRows := do
  let balances ← balancesWith sdk.toCoinSdk ctx deleted
  let activities ← activitiesWith sdk ctx deleted
  let metadata ← metadataRows sdk ctx
  let mappings ← transactionMappings sdk ctx
  let coinSupply ← transactionCoinSupply sdk ctx
  return { activities, metadata, balances, coinSupply, mappings }

/-- The map of the deletion events of a transaction. -/
def deletedStores (sdk : AssetSdk) (ctx : TxnContext) : Option DeletedStores :=
  deletedStoresOf sdk.toCoinSdk (ctx.events.map Stream.Event.toProtos)

variable {sdk : AssetSdk}

theorem eventsOf_toProtos (txnData : Stream.TxnData) :
    eventsOf txnData.toProtos =
      txnData.eventsAndRequest.map fun parts => parts.1.map Stream.Event.toProtos := by
  cases txnData with
  | blockMetadata events => rfl
  | genesis events => rfl
  | user request events =>
    cases request with
    | none => rfl
    | some request => rfl
  | validator events => rfl
  | other => rfl

/-- The balances of a transaction are those with the map of its own deletion events. -/
theorem transactionBalances_eq {txn : Stream.Transaction} {ctx : TxnContext}
    (h : txnContextOf sdk txn = some (some ctx)) :
    transactionBalances sdk.toCoinSdk txn.toProtos =
      (deletedStores sdk ctx).bind (balancesWith sdk.toCoinSdk ctx) := by
  obtain ⟨version, height, epoch, timestamp, info, txnData⟩ := txn
  cases txnData with
  | none => cases h
  | some txnData =>
    obtain ⟨info, rfl, h⟩ := Option.bind_eq_some_iff.mp h
    obtain ⟨timestamp, rfl, h⟩ := Option.bind_eq_some_iff.mp h
    obtain ⟨txnTimestamp, htime, h⟩ := Option.bind_eq_some_iff.mp h
    obtain ⟨⟨events, userRequest⟩, hevents, h⟩ := Option.bind_eq_some_iff.mp h
    obtain rfl := Option.some.inj (Option.some.inj h)
    show ((sdk.fromTimestampOpt timestamp.seconds 0).bind fun txnTimestamp =>
      (eventsOf txnData.toProtos).bind fun events =>
        (objectsOf sdk.toCoinSdk info.changes).bind fun objects =>
          (deletedStoresOf sdk.toCoinSdk events).bind fun deleted => _) = _
    rw [htime, eventsOf_toProtos, hevents]
    show (objectsOf sdk.toCoinSdk info.changes).bind (fun objects =>
        (deletedStoresOf sdk.toCoinSdk (events.map Stream.Event.toProtos)).bind fun deleted => _) =
      (deletedStoresOf sdk.toCoinSdk (events.map Stream.Event.toProtos)).bind fun deleted =>
        (objectsOf sdk.toCoinSdk info.changes).bind fun objects => _
    exact Option.bind_comm _ _

/-- The rows of a transaction are those with the map of its own deletion events. -/
theorem parseTransaction_eq (txn : Stream.Transaction) :
    parseTransaction sdk txn =
      match txnContextOf sdk txn with
      | none => none
      | some none => some ⟨[], [], [], [], []⟩
      | some (some ctx) => (deletedStores sdk ctx).bind (rowsWith sdk ctx) := by
  unfold parseTransaction
  cases hctx : txnContextOf sdk txn with
  | none => cases transactionBalances sdk.toCoinSdk txn.toProtos <;> rfl
  | some context =>
    cases context with
    | none =>
      have hnone : txn.txnData = none := by
        cases hdata : txn.txnData with
        | none => rfl
        | some txnData =>
          rw [txnContextOf, hdata] at hctx
          obtain ⟨info, -, hctx⟩ := Option.bind_eq_some_iff.mp hctx
          obtain ⟨timestamp, -, hctx⟩ := Option.bind_eq_some_iff.mp hctx
          obtain ⟨txnTimestamp, -, hctx⟩ := Option.bind_eq_some_iff.mp hctx
          obtain ⟨parts, -, hctx⟩ := Option.bind_eq_some_iff.mp hctx
          cases hctx
      have hbalances : transactionBalances sdk.toCoinSdk txn.toProtos = some [] := by
        rw [transactionBalances, Stream.Transaction.toProtos, hnone]
        rfl
      rw [hbalances]
      rfl
    | some ctx =>
      -- Balances and activities read the deletion events each for itself, into the same map.
      rw [transactionBalances_eq hctx]
      show ((deletedStores sdk ctx).bind (balancesWith sdk.toCoinSdk ctx)).bind _ =
        (deletedStores sdk ctx).bind (rowsWith sdk ctx)
      cases hdeleted : deletedStores sdk ctx with
      | none => rfl
      | some deleted =>
        show (balancesWith sdk.toCoinSdk ctx deleted).bind _ =
          (balancesWith sdk.toCoinSdk ctx deleted).bind _
        -- What is left are the three maps the activities are made from.
        refine congrArg _ (funext fun balances => ?_)
        unfold deletedStores at hdeleted
        show (collect sdk ctx).bind _ = (activitiesWith sdk ctx deleted).bind _
        unfold collect activitiesWith metadataRows
        rw [hdeleted]
        cases fungibleAssetObjectHelper sdk ctx.transactionInfo.changes with
        | none => rfl
        | some objects =>
          cases eventToV1CoinType sdk.toCoinSdk ctx.transactionInfo.changes with
          | none => rfl
          | some coinTypes =>
            cases ownerAddressToDeletedCoinType sdk.toCoinSdk ctx.transactionInfo.changes with
            | none => rfl
            | some deletedCoinTypes => rfl

/-! ## Objects -/

section

variable (hsdk : StandardSdk sdk)

include hsdk

theorem rel_newObjectOf {change change' : Protos.Change}
    (h : ChangeRespelled sdk.toSdk change change') :
    Option.Rel (Option.Rel fun entry entry' : String × FungibleObject =>
        entry.1 = entry'.1 ∧ FungibleObjectRespelled entry.2 entry'.2)
      (newObjectOf sdk change) (newObjectOf sdk change') := by
  cases h with
  | writeResource params h =>
    refine rel_map (rel_objectCore h) ?_
    intro core core' hcore
    refine rel_map hcore ?_
    intro core core' howner
    exact ⟨hsdk.standardize_eq h.address, ⟨howner, rfl⟩, rfl, rfl, rfl⟩
  | deleteResource params h => exact .some .none
  | writeTableItem item => exact .some .none
  | deleteTableItem item => exact .some .none
  | other => exact .some .none

omit hsdk in
theorem FungibleObjectRespelled.aggregate {data data' : FungibleObject}
    (h : FungibleObjectRespelled data data') (resource : V2FungibleAssetResource) :
    FungibleObjectRespelled (data.aggregate resource) (data'.aggregate resource) := by
  cases resource with
  | concurrentFungibleAssetBalance balance =>
    exact ⟨⟨h.base.owner, rfl⟩, h.store, h.supply, h.concurrentSupply⟩
  | concurrentFungibleAssetSupply current => exact ⟨h.base, h.store, h.supply, rfl⟩
  | fungibleAssetMetadata metadata => exact h
  | fungibleAssetStore store => exact ⟨h.base, rfl, h.supply, h.concurrentSupply⟩
  | fungibleAssetSupply supply => exact ⟨h.base, h.store, rfl, h.concurrentSupply⟩

theorem rel_withResource {change change' : Protos.Change}
    (h : ChangeRespelled sdk.toSdk change change') {objects objects' : FungibleObjectMapping}
    (hobjects : TablesRel FungibleObjectRespelled objects objects') :
    Option.Rel (TablesRel FungibleObjectRespelled) (withResource sdk objects change)
      (withResource sdk objects' change') := by
  cases h with
  | @writeResource wr wr' params h =>
    rw [withResource, withResource, ← hsdk.standardize_eq h.address, ← v2Resource_respelled hsdk h]
    cases hlookup : objects.lookup (sdk.standardizeAddress wr.address) with
    | none =>
      rw [hobjects.lookup_none hlookup]
      exact .some hobjects
    | some data =>
      obtain ⟨data', hlookup', hrel⟩ := hobjects.lookup_some hlookup
      rw [hlookup']
      refine rel_bind (rel_refl (fun _ => rfl) _) ?_
      rintro resource _ rfl
      cases resource with
      | none => exact .some hobjects
      | some resource => exact .some (tablesRel_insert hobjects _ (hrel.aggregate resource))
  | deleteResource params h => exact .some hobjects
  | writeTableItem item => exact .some hobjects
  | deleteTableItem item => exact .some hobjects
  | other => exact .some hobjects

theorem rel_fungibleAssetObjectHelper {changes changes' : List Protos.Change}
    (h : List.Forall₂ (ChangeRespelled sdk.toSdk) changes changes') :
    Option.Rel (TablesRel FungibleObjectRespelled) (fungibleAssetObjectHelper sdk changes)
      (fungibleAssetObjectHelper sdk changes') := by
  unfold fungibleAssetObjectHelper
  refine rel_bind (mapM_rel h fun _ _ => rel_newObjectOf hsdk) ?_
  intro entries entries' hentries
  exact foldlM_rel h (fun _ _ _ _ hobjects hchange => rel_withResource hsdk hchange hobjects)
    (tablesRel_insertAll (forall₂_reduceOption hentries))

/-! ## Balances -/

theorem rel_objectsOf {changes changes' : List Protos.Change}
    (h : List.Forall₂ (ChangeRespelled sdk.toSdk) changes changes') :
    Option.Rel (TablesRel ObjectRespelled) (objectsOf sdk.toCoinSdk changes)
      (objectsOf sdk.toCoinSdk changes') := by
  unfold objectsOf
  refine rel_bind (mapM_rel h ?_) fun entries entries' hentries =>
    .some (tablesRel_insertAll (forall₂_reduceOption hentries))
  intro change change' hchange
  cases hchange with
  | writeResource params h =>
    refine rel_map (rel_objectCore h) ?_
    intro core core' hcore
    refine rel_map hcore ?_
    intro core core' howner
    exact ⟨hsdk.standardize_eq h.address, howner, rfl⟩
  | deleteResource params h => exact .some .none
  | writeTableItem item => exact .some .none
  | deleteTableItem item => exact .some .none
  | other => exact .some .none

theorem rel_withConcurrentBalance {change change' : Protos.Change}
    (h : ChangeRespelled sdk.toSdk change change') {objects objects' : ObjectAggregatedDataMapping}
    (hobjects : TablesRel ObjectRespelled objects objects') :
    Option.Rel (TablesRel ObjectRespelled) (withConcurrentBalance sdk.toCoinSdk objects change)
      (withConcurrentBalance sdk.toCoinSdk objects' change') := by
  cases h with
  | @writeResource wr wr' params h =>
    rw [withConcurrentBalance, withConcurrentBalance, ← hsdk.standardize_eq h.address,
      ← fromWriteResource_respelled h rfl]
    cases hlookup : objects.lookup (sdk.standardizeAddress wr.address) with
    | none =>
      rw [hobjects.lookup_none hlookup]
      exact .some hobjects
    | some data =>
      obtain ⟨data', hlookup', hrel⟩ := hobjects.lookup_some hlookup
      rw [hlookup']
      refine rel_bind (rel_refl (fun _ => rfl) _) ?_
      rintro balance _ rfl
      cases balance with
      | none => exact .some hobjects
      | some balance => exact .some (tablesRel_insert hobjects _ ⟨hrel.owner, rfl⟩)
  | deleteResource params h => exact .some hobjects
  | writeTableItem item => exact .some hobjects
  | deleteTableItem item => exact .some hobjects
  | other => exact .some hobjects

omit hsdk in
theorem outerTypeFromDeleteResource_respelled {dr dr' : DeleteResource}
    (h : DeletionRespelled dr dr') :
    getOuterTypeFromDeleteResource sdk.toSdk dr = getOuterTypeFromDeleteResource sdk.toSdk dr' := by
  rw [getOuterTypeFromDeleteResource, getOuterTypeFromDeleteResource, h.typ]

theorem getV1FromDeleteResource_respelled {dr dr' : DeleteResource} (h : DeletionRespelled dr dr')
    (params : List MoveType) (writeSetChangeIndex txnVersion : Int64)
    (txnTimestamp : NaiveDateTime) :
    getV1FromDeleteResource sdk.toCoinSdk dr params writeSetChangeIndex txnVersion txnTimestamp =
      getV1FromDeleteResource sdk.toCoinSdk dr' params writeSetChangeIndex txnVersion
        txnTimestamp := by
  unfold getV1FromDeleteResource coinBalance
  simp only [outerTypeFromDeleteResource_respelled h, h.typeStr, hsdk.standardize_eq h.address]

theorem v1BalanceOf_respelled {change change' : Protos.Change}
    (h : ChangeRespelled sdk.toSdk change change') (txnVersion : Int64)
    (txnTimestamp : NaiveDateTime) (index : ℕ) :
    v1BalanceOf sdk.toCoinSdk txnVersion txnTimestamp (change, index) =
      v1BalanceOf sdk.toCoinSdk txnVersion txnTimestamp (change', index) := by
  cases h with
  | writeResource params h => exact getV1FromWriteResource_respelled hsdk h params _ _ _
  | deleteResource params h => exact getV1FromDeleteResource_respelled hsdk h params _ _ _
  | writeTableItem item => rfl
  | deleteTableItem item => rfl
  | other => rfl

theorem v2BalanceOf_respelled {change change' : Protos.Change}
    (h : ChangeRespelled sdk.toSdk change change') {objects objects' : ObjectAggregatedDataMapping}
    (hobjects : TablesRel ObjectRespelled objects objects') (deleted : DeletedStores)
    (txnVersion : Int64) (txnTimestamp : NaiveDateTime) (index : ℕ) :
    v2BalanceOf sdk.toCoinSdk txnVersion txnTimestamp objects deleted (change, index) =
      v2BalanceOf sdk.toCoinSdk txnVersion txnTimestamp objects' deleted (change', index) := by
  cases h with
  | @writeResource wr wr' params h =>
    show getV2FromWriteResource _ _ _ _ _ _ = getV2FromWriteResource _ _ _ _ _ _
    unfold getV2FromWriteResource
    rw [storeFromWriteResource_respelled hsdk h]
    refine congrArg _ (funext fun inner => ?_)
    cases inner with
    | none => rfl
    | some inner =>
      rw [← hsdk.standardize_eq h.address]
      dsimp only
      cases hlookup : objects.lookup (sdk.standardizeAddress wr.address) with
      | none =>
        rw [hobjects.lookup_none hlookup]
      | some data =>
        obtain ⟨data', hlookup', hrel⟩ := hobjects.lookup_some hlookup
        rw [hlookup']
        simp only [ownerAddress_eq hsdk hrel, hrel.balance]
  | deleteResource params h =>
    show some (getV2FromDeleteResource _ _ _ _ _ _) = some (getV2FromDeleteResource _ _ _ _ _ _)
    unfold getV2FromDeleteResource
    rw [h.typeStr, hsdk.standardize_eq h.address]
  | writeTableItem item => rfl
  | deleteTableItem item => rfl
  | other => rfl

/-! ## Metadata -/

/-- Aggregators that are the same but for the spelling of their place. -/
structure AggregatorResource.Respelled (agg agg' : AggregatorResource) : Prop where
  handle : SameAddress agg.handle agg'.handle
  key : SameAddress agg.key agg'.key

/-- Coin infos that are the same but for the spelling of their aggregators' places. -/
structure CoinInfoResource.Respelled (info info' : CoinInfoResource) : Prop where
  name : info.name = info'.name
  symbol : info.symbol = info'.symbol
  decimals : info.decimals = info'.decimals
  supply : List.Forall₂ (fun item item' : OptionalAggregatorResource =>
    List.Forall₂ AggregatorResource.Respelled item.aggregator item'.aggregator) info.supply
      info'.supply

/-- Metadata that is the same but for the spelling of the aggregator's place. -/
structure MetadataRespelled (fam fam' : FungibleAssetMetadataModel) : Prop where
  handle : Option.Rel SameAddress fam.supplyAggregatorTableHandleV1
    fam'.supplyAggregatorTableHandleV1
  key : Option.Rel SameAddress fam.supplyAggregatorTableKeyV1 fam'.supplyAggregatorTableKeyV1
  others : fam' = { fam with
    supplyAggregatorTableHandleV1 := fam'.supplyAggregatorTableHandleV1
    supplyAggregatorTableKeyV1 := fam'.supplyAggregatorTableKeyV1 }

omit hsdk in
theorem MetadataRespelled.refl (fam : FungibleAssetMetadataModel) : MetadataRespelled fam fam :=
  ⟨rel_refl SameAddress.refl _, rel_refl SameAddress.refl _, rfl⟩

omit hsdk in
theorem AggregatorResource.Respelled.refl (agg : AggregatorResource) : agg.Respelled agg :=
  ⟨SameAddress.refl _, SameAddress.refl _⟩

omit hsdk in
theorem CoinInfoResource.Respelled.refl (info : CoinInfoResource) : info.Respelled info :=
  ⟨rfl, rfl, rfl, List.forall₂_same.mpr fun _ _ =>
    List.forall₂_same.mpr fun _ _ => AggregatorResource.Respelled.refl _⟩

omit hsdk in
theorem rel_vecItems {places : Places} {v v' : Json} (h : JsonRespelled (vecPlaces places) v v') :
    Option.Rel (List.Forall₂ (JsonRespelled places)) (vecItems v) (vecItems v') :=
  rel_bind (rel_get_of h rfl) fun _ _ => rel_asArray

omit hsdk in
theorem AggregatorResource.rel_ofJson {v v' : Json} (h : JsonRespelled aggregatorPlaces v v') :
    Option.Rel AggregatorResource.Respelled (AggregatorResource.ofJson v)
      (AggregatorResource.ofJson v') := by
  unfold AggregatorResource.ofJson
  refine rel_bind (rel_getStr h rfl) ?_
  intro handle handle' hhandle
  refine rel_bind (rel_getStr h rfl) ?_
  intro key key' hkey
  exact .some ⟨hhandle, hkey⟩

/-- The places of the items of a supply. -/
def supplyItemPlaces : Places := .fields [("aggregator", vecPlaces aggregatorPlaces)]

omit hsdk in
theorem OptionalAggregatorResource.rel_ofJson {v v' : Json}
    (h : JsonRespelled supplyItemPlaces v v') :
    Option.Rel (fun item item' : OptionalAggregatorResource =>
        List.Forall₂ AggregatorResource.Respelled item.aggregator item'.aggregator)
      (OptionalAggregatorResource.ofJson sdk.toSdk v)
      (OptionalAggregatorResource.ofJson sdk.toSdk v') := by
  unfold OptionalAggregatorResource.ofJson
  refine rel_bind (rel_get_of h rfl) ?_
  intro w w' hw
  refine rel_bind (rel_vecItems hw) ?_
  intro items items' hitems
  refine rel_bind (mapM_rel hitems fun _ _ => AggregatorResource.rel_ofJson) ?_
  intro aggs aggs' haggs
  rw [get_eq h rfl]
  refine rel_bind (rel_refl (fun _ => rfl) _) ?_
  rintro integer _ rfl
  refine rel_bind (rel_refl (fun _ => rfl) _) ?_
  rintro integers _ rfl
  refine rel_bind (rel_refl (fun _ => rfl) _) ?_
  rintro values _ rfl
  exact .some haggs

/-- The places of a coin info. -/
def coinInfoPlaces : Places := .fields [("supply", vecPlaces supplyItemPlaces)]

omit hsdk in
theorem CoinInfoResource.rel_ofJson {v v' : Json} (h : JsonRespelled coinInfoPlaces v v') :
    Option.Rel CoinInfoResource.Respelled (CoinInfoResource.ofJson sdk v)
      (CoinInfoResource.ofJson sdk v') := by
  unfold CoinInfoResource.ofJson
  have hname : v.getStr "name" = v'.getStr "name" := getStr_eq h rfl
  have hsymbol : v.getStr "symbol" = v'.getStr "symbol" := getStr_eq h rfl
  have hdecimals : v.get "decimals" = v'.get "decimals" := get_eq h rfl
  rw [hname, hsymbol, hdecimals]
  refine rel_bind (rel_refl (fun _ => rfl) _) ?_
  rintro name _ rfl
  refine rel_bind (rel_refl (fun _ => rfl) _) ?_
  rintro symbol _ rfl
  refine rel_bind (rel_refl (fun _ => rfl) _) ?_
  rintro decimals _ rfl
  refine rel_bind (rel_get_of h rfl) ?_
  intro w w' hw
  refine rel_bind (rel_vecItems hw) ?_
  intro items items' hitems
  refine rel_bind (mapM_rel hitems fun _ _ => OptionalAggregatorResource.rel_ofJson) ?_
  intro supply supply' hsupply
  exact .some ⟨rfl, rfl, rfl, hsupply⟩

omit hsdk in
theorem OptionalAggregatorResource.rel_head {item item' : OptionalAggregatorResource}
    (h : List.Forall₂ AggregatorResource.Respelled item.aggregator item'.aggregator) :
    Option.Rel AggregatorResource.Respelled item.aggregator.head? item'.aggregator.head? := by
  obtain ⟨aggregator⟩ := item
  obtain ⟨aggregator'⟩ := item'
  cases h with
  | nil => exact .none
  | cons hagg _ => exact .some hagg

omit hsdk in
theorem CoinInfoResource.Respelled.rel_aggregator {info info' : CoinInfoResource}
    (h : info.Respelled info') :
    Option.Rel AggregatorResource.Respelled info.getAggregatorMetadata
      info'.getAggregatorMetadata := by
  obtain ⟨name, symbol, decimals, supply⟩ := info
  obtain ⟨name', symbol', decimals', supply'⟩ := info'
  cases h.supply with
  | nil => exact .none
  | cons hitem _ => exact OptionalAggregatorResource.rel_head hitem

omit hsdk in
/-- The metadata of a coin. -/
theorem rel_metadataV1 {wr wr' : WriteResource} (h : ResourceRespelled sdk.toSdk wr wr')
    (params : List MoveType) (txnVersion : Int64) (txnTimestamp : NaiveDateTime) :
    Option.Rel (Option.Rel MetadataRespelled)
      (FungibleAssetMetadataModel.getV1FromWriteResource sdk wr params txnVersion txnTimestamp)
      (FungibleAssetMetadataModel.getV1FromWriteResource sdk wr' params txnVersion
        txnTimestamp) := by
  unfold FungibleAssetMetadataModel.getV1FromWriteResource
  have hinfo : Option.Rel (Option.Rel CoinInfoResource.Respelled)
      (fromWriteResource sdk.toSdk typeCoinInfo (CoinInfoResource.ofJson sdk) wr)
      (fromWriteResource sdk.toSdk typeCoinInfo (CoinInfoResource.ofJson sdk) wr') :=
    rel_fromWriteResource h rfl CoinInfoResource.Respelled.refl
      fun _ _ => CoinInfoResource.rel_ofJson
  refine rel_bind hinfo ?_
  intro inner inner' hinner
  cases hinner with
  | none => exact .some .none
  | @some info info' hinner =>
    rw [h.typeStr]
    refine rel_bind (rel_refl (fun _ => rfl) _) ?_
    rintro coinType _ rfl
    refine rel_bind (rel_refl (fun _ => rfl) _) ?_
    rintro creatorAddress _ rfl
    cases getCoinTypeBelowMax coinType with
    | none => exact .some .none
    | some assetType =>
      have hagg := hinner.rel_aggregator
      refine .some (.some ⟨rel_map hagg fun _ _ hagg => hagg.handle,
        rel_map hagg fun _ _ hagg => hagg.key, ?_⟩)
      show FungibleAssetMetadataModel.mk _ _ _ _ _ _ _ _ _ _ _ _ _ _ =
        FungibleAssetMetadataModel.mk _ _ _ _ _ _ _ _ _ _ _ _ _ _
      rw [hinner.name, hinner.symbol, hinner.decimals]

/-- The metadata of a fungible asset has no place of an aggregator. -/
theorem metadataV2_respelled {wr wr' : WriteResource} (h : ResourceRespelled sdk.toSdk wr wr')
    {objects objects' : FungibleObjectMapping}
    (hobjects : TablesRel FungibleObjectRespelled objects objects') (txnVersion : Int64)
    (txnTimestamp : NaiveDateTime) :
    FungibleAssetMetadataModel.getV2FromWriteResource sdk wr txnVersion txnTimestamp objects =
      FungibleAssetMetadataModel.getV2FromWriteResource sdk wr' txnVersion txnTimestamp
        objects' := by
  unfold FungibleAssetMetadataModel.getV2FromWriteResource
  rw [fromWriteResource_respelled h rfl]
  refine congrArg _ (funext fun inner => ?_)
  cases inner with
  | none => rfl
  | some inner =>
    rw [← hsdk.standardize_eq h.address]
    dsimp only
    cases hlookup : objects.lookup (sdk.standardizeAddress wr.address) with
    | none =>
      rw [hobjects.lookup_none hlookup]
    | some data =>
      obtain ⟨data', hlookup', hrel⟩ := hobjects.lookup_some hlookup
      rw [hlookup']
      simp only [ownerAddress_eq hsdk hrel.base, FungibleObject.maximumAndSupply, hrel.supply,
        hrel.concurrentSupply]

variable {ctx ctx' : TxnContext} (hctx : CtxRespelled sdk.toSdk ctx ctx')

include hctx

theorem rel_metadataOf {change change' : Protos.Change}
    (h : ChangeRespelled sdk.toSdk change change') {objects objects' : FungibleObjectMapping}
    (hobjects : TablesRel FungibleObjectRespelled objects objects') :
    Option.Rel (List.Forall₂ MetadataRespelled) (metadataOf sdk ctx objects change)
      (metadataOf sdk ctx' objects' change') := by
  cases h with
  | @writeResource wr wr' params h =>
    rw [metadataOf, metadataOf, ← hctx.txnVersion, ← hctx.txnTimestamp]
    refine rel_bind (rel_metadataV1 h params ctx.txnVersion ctx.txnTimestamp) ?_
    intro v1 v1' hv1
    rw [metadataV2_respelled hsdk h hobjects]
    refine rel_bind (rel_refl (fun _ => rfl) _) ?_
    rintro v2 _ rfl
    exact .some (List.rel_append (forall₂_toList hv1)
      (List.forall₂_same.mpr fun _ _ => MetadataRespelled.refl _))
  | deleteResource params h => exact .some .nil
  | writeTableItem item => exact .some .nil
  | deleteTableItem item => exact .some .nil
  | other => exact .some .nil

theorem rel_metadataRows :
    Option.Rel (List.Forall₂ MetadataRespelled) (metadataRows sdk ctx) (metadataRows sdk ctx') := by
  unfold metadataRows
  refine rel_bind (rel_fungibleAssetObjectHelper hsdk hctx.transactionInfo.changes) ?_
  intro objects objects' hobjects
  unfold transactionMetadata
  refine rel_bind (mapM_rel hctx.transactionInfo.changes fun _ _ hchange =>
    rel_metadataOf hsdk hctx hchange hobjects) ?_
  intro metadata metadata' hmetadata
  exact .some (List.rel_flatten hmetadata)

/-! ## The other rows -/

omit hsdk in
theorem mappingOf_respelled {change change' : Protos.Change}
    (h : ChangeRespelled sdk.toSdk change change') :
    mappingOf sdk ctx change = mappingOf sdk ctx' change' := by
  cases h with
  | @writeResource wr wr' params h =>
    rw [mappingOf, mappingOf, ← hctx.txnVersion, ← hctx.txnTimestamp]
    refine map_congr_rel (rel_metadataV1 h params ctx.txnVersion ctx.txnTimestamp) ?_
    intro fam fam' hfam
    refine map_congr_rel hfam ?_
    intro fam fam' hfam
    rw [hfam.others]
    rfl
  | deleteResource params h => rfl
  | writeTableItem item => rfl
  | deleteTableItem item => rfl
  | other => rfl

omit hsdk in
theorem transactionMappings_respelled :
    transactionMappings sdk ctx = transactionMappings sdk ctx' := by
  unfold transactionMappings
  rw [mapM_congr_rel hctx.transactionInfo.changes fun _ _ => mappingOf_respelled hctx]

omit hsdk in
theorem transactionCoinSupply_respelled :
    transactionCoinSupply sdk ctx = transactionCoinSupply sdk ctx' := by
  have hchange : ∀ change change', ChangeRespelled sdk.toSdk change change' →
      coinSupplyOf sdk ctx change = coinSupplyOf sdk ctx' change' := by
    intro change change' h
    cases h with
    | writeResource params h => rfl
    | deleteResource params h => rfl
    | writeTableItem item =>
      rw [coinSupplyOf, coinSupplyOf, hctx.txnVersion, hctx.txnTimestamp, hctx.txnEpoch]
    | deleteTableItem item => rfl
    | other => rfl
  unfold transactionCoinSupply
  rw [mapM_congr_rel hctx.transactionInfo.changes hchange]

omit hctx in
theorem coinTypes_respelled {changes changes' : List Protos.Change}
    (h : List.Forall₂ (ChangeRespelled sdk.toSdk) changes changes') :
    eventToV1CoinType sdk.toCoinSdk changes = eventToV1CoinType sdk.toCoinSdk changes' := by
  have hchange : ∀ change change', ChangeRespelled sdk.toSdk change change' →
      eventCoinTypesOf sdk.toCoinSdk change = eventCoinTypesOf sdk.toCoinSdk change' := by
    intro change change' h
    cases h with
    | writeResource params h => exact eventToCoinMapping_respelled hsdk h params
    | deleteResource params h => rfl
    | writeTableItem item => rfl
    | deleteTableItem item => rfl
    | other => rfl
  unfold eventToV1CoinType
  rw [mapM_congr_rel h hchange]

omit hctx in
theorem deletedCoinTypes_respelled {changes changes' : List Protos.Change}
    (h : List.Forall₂ (ChangeRespelled sdk.toSdk) changes changes') :
    ownerAddressToDeletedCoinType sdk.toCoinSdk changes =
      ownerAddressToDeletedCoinType sdk.toCoinSdk changes' := by
  have hchange : ∀ change change', ChangeRespelled sdk.toSdk change change' →
      deletedCoinTypeOf sdk.toCoinSdk change = deletedCoinTypeOf sdk.toCoinSdk change' := by
    intro change change' h
    cases h with
    | writeResource params h => rfl
    | deleteResource params h =>
      rw [deletedCoinTypeOf, deletedCoinTypeOf, addressToCoinType, addressToCoinType,
        getV1FromDeleteResource_respelled hsdk h]
    | writeTableItem item => rfl
    | deleteTableItem item => rfl
    | other => rfl
  unfold ownerAddressToDeletedCoinType
  rw [mapM_congr_rel h hchange]

/-! ## The rows of a transaction -/

/-- With the same map of deletion events the balances are the same. -/
theorem balancesWith_respelled (deleted : DeletedStores) :
    balancesWith sdk.toCoinSdk ctx deleted = balancesWith sdk.toCoinSdk ctx' deleted := by
  have hchanges := hctx.transactionInfo.changes
  unfold balancesWith
  rw [← hctx.txnVersion, ← hctx.txnTimestamp]
  refine bind_congr_rel (rel_objectsOf hsdk hchanges) ?_
  intro objects objects' hobjects
  have hv1 : ctx.transactionInfo.changes.zipIdx.mapM
        (v1BalanceOf sdk.toCoinSdk ctx.txnVersion ctx.txnTimestamp) =
      ctx'.transactionInfo.changes.zipIdx.mapM
        (v1BalanceOf sdk.toCoinSdk ctx.txnVersion ctx.txnTimestamp) := by
    refine mapM_congr_rel (forall₂_zipIdx hchanges 0) ?_
    rintro ⟨change, index⟩ ⟨change', index'⟩ ⟨hchange, rfl⟩
    exact v1BalanceOf_respelled hsdk hchange _ _ _
  rw [hv1]
  refine congrArg _ (funext fun v1 => ?_)
  refine bind_congr_rel (foldlM_rel hchanges
    (fun _ _ _ _ hobjects hchange => rel_withConcurrentBalance hsdk hchange hobjects) hobjects) ?_
  intro objects objects' hobjects
  have hv2 : ctx.transactionInfo.changes.zipIdx.mapM
        (v2BalanceOf sdk.toCoinSdk ctx.txnVersion ctx.txnTimestamp objects deleted) =
      ctx'.transactionInfo.changes.zipIdx.mapM
        (v2BalanceOf sdk.toCoinSdk ctx.txnVersion ctx.txnTimestamp objects' deleted) := by
    refine mapM_congr_rel (forall₂_zipIdx hchanges 0) ?_
    rintro ⟨change, index⟩ ⟨change', index'⟩ ⟨hchange, rfl⟩
    exact v2BalanceOf_respelled hsdk hchange hobjects deleted _ _ _
  rw [hv2]

/-- With the same map of deletion events the activities are the same. -/
theorem activitiesWith_respelled (deleted : DeletedStores) :
    activitiesWith sdk ctx deleted = activitiesWith sdk ctx' deleted := by
  unfold activitiesWith
  rw [coinTypes_respelled hsdk hctx.transactionInfo.changes,
    deletedCoinTypes_respelled hsdk hctx.transactionInfo.changes]
  refine bind_congr_rel (rel_fungibleAssetObjectHelper hsdk hctx.transactionInfo.changes) ?_
  intro objects objects' hobjects
  refine congrArg _ (funext fun coinTypes => ?_)
  refine congrArg _ (funext fun deletedCoinTypes => ?_)
  exact transactionActivities_respelled hsdk hctx hobjects deleted coinTypes deletedCoinTypes

/-- Rows that are the same but for the aggregators of the metadata. -/
structure RowsRespelled (rows rows' : TransactionRows) : Prop where
  activities : rows.activities = rows'.activities
  metadata : List.Forall₂ MetadataRespelled rows.metadata rows'.metadata
  balances : rows.balances = rows'.balances
  coinSupply : rows.coinSupply = rows'.coinSupply
  mappings : rows.mappings = rows'.mappings

/-- With the same map of deletion events the rows are the same but for the aggregators of the
metadata. -/
theorem rel_rowsWith (deleted : DeletedStores) :
    Option.Rel RowsRespelled (rowsWith sdk ctx deleted) (rowsWith sdk ctx' deleted) := by
  unfold rowsWith
  rw [balancesWith_respelled hsdk hctx, activitiesWith_respelled hsdk hctx,
    transactionMappings_respelled hctx, transactionCoinSupply_respelled hctx]
  refine rel_bind (rel_refl (fun _ => rfl) _) ?_
  rintro balances _ rfl
  refine rel_bind (rel_refl (fun _ => rfl) _) ?_
  rintro activities _ rfl
  refine rel_bind (rel_metadataRows hsdk hctx) ?_
  intro metadata metadata' hmetadata
  refine rel_bind (rel_refl (fun _ => rfl) _) ?_
  rintro mappings _ rfl
  refine rel_bind (rel_refl (fun _ => rfl) _) ?_
  rintro coinSupply _ rfl
  exact .some ⟨rfl, hmetadata, rfl, rfl, rfl⟩

omit hsdk hctx in
/-- What is parsed first is not spelled. -/
theorem rel_txnContextOf {txn txn' : Stream.Transaction} (h : TxnRespelled sdk.toSdk txn txn') :
    Option.Rel (Option.Rel (CtxRespelled sdk.toSdk)) (txnContextOf sdk txn)
      (txnContextOf sdk txn') := by
  obtain ⟨version, height, epoch, timestamp, info, txnData⟩ := txn
  obtain ⟨version', height', epoch', timestamp', info', txnData'⟩ := txn'
  obtain rfl : version = version' := h.version
  obtain rfl : height = height' := h.blockHeight
  obtain rfl : epoch = epoch' := h.epoch
  obtain rfl : timestamp = timestamp' := h.timestamp
  have hinfo : Option.Rel (InfoRespelled sdk.toSdk) info info' := h.info
  have htxnData : Option.Rel (TxnDataRespelled sdk.toSdk) txnData txnData' := h.txnData
  cases htxnData with
  | none => exact .some .none
  | @some data data' hdata =>
    refine rel_bind hinfo ?_
    intro info info' hinfo
    refine rel_bind (rel_refl (fun _ => rfl) _) ?_
    rintro timestamp _ rfl
    refine rel_bind (rel_refl (fun _ => rfl) _) ?_
    rintro txnTimestamp _ rfl
    have hparts : Option.Rel (fun parts parts' =>
        List.Forall₂ (EventRespelled sdk.toSdk) parts.1 parts'.1 ∧ parts.2 = parts'.2)
        data.eventsAndRequest data'.eventsAndRequest := by
      cases hdata with
      | blockMetadata hevents => exact .some ⟨hevents, rfl⟩
      | genesis hevents => exact .some ⟨hevents, rfl⟩
      | user request hevents =>
        cases request with
        | none => exact .none
        | some request => exact .some ⟨hevents, rfl⟩
      | validator hevents => exact .some ⟨hevents, rfl⟩
      | other => exact .some ⟨.nil, rfl⟩
    refine rel_bind hparts ?_
    rintro ⟨events, request⟩ ⟨events', request'⟩ ⟨hevents, hrequest⟩
    exact .some (.some ⟨rfl, rfl, rfl, rfl, hinfo, hevents, hrequest⟩)

end

end IndexerProcessors.FungibleAsset

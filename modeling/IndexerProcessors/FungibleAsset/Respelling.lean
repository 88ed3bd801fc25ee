import IndexerProcessors.FungibleAsset.Spelling

/-!
# `parse_v2_coin` on addresses in another spelling

Nearly all addresses are standardized before they are used. The results of the parsers on
events and changes that are the same but for the spelling of addresses are the same, but
for two: the events of deleted stores keep their addresses as they are, and so does the
aggregator of a coin's metadata. `rel_rowsWith` says so of a transaction, for any map of
deletion events.
-/

namespace IndexerProcessors.FungibleAsset

open IndexerProcessors.Lib
open IndexerProcessors.Protos

variable {sdk : AssetSdk}

theorem StandardSdk.standardize_eq (hsdk : StandardSdk sdk) {a b : String} (h : SameAddress a b) :
    sdk.standardizeAddress a = sdk.standardizeAddress b := by
  rw [hsdk.standardizes, hsdk.standardizes, h.standard_eq]

/-! ## Parsing -/

section

variable {of : String → Places} {v v' : Json}

theorem getStr_eq (h : JsonRespelled (.members of) v v') {key : String}
    (hof : of key = .nothing) : v.getStr key = v'.getStr key := by
  rw [Json.getStr, Json.getStr, get_eq h hof]

theorem getBool_eq (h : JsonRespelled (.members of) v v') {key : String}
    (hof : of key = .nothing) : v.getBool key = v'.getBool key := by
  rw [Json.getBool, Json.getBool, get_eq h hof]

theorem getBigDecimal_eq (sdk : Sdk) (h : JsonRespelled (.members of) v v') {key : String}
    (hof : of key = .nothing) : v.getBigDecimal sdk key = v'.getBigDecimal sdk key := by
  rw [Json.getBigDecimal, Json.getBigDecimal, getStr_eq h hof]

end

variable {α β : Type} {R : α → α → Prop} {ofJson : Json → Option α} {places : Places}

/-- Nothing but the same value is the same but for the spelling of no addresses. -/
theorem rel_ofJson_nothing (hrefl : ∀ a, R a a) {v v' : Json} (h : JsonRespelled .nothing v v') :
    Option.Rel R (ofJson v) (ofJson v') := by
  obtain rfl : v = v' := h
  exact rel_refl hrefl _

theorem rel_ofText {sdk : Sdk} {text text' : String} (hrefl : ∀ a, R a a)
    (hof : ∀ v v', JsonRespelled places v v' → Option.Rel R (ofJson v) (ofJson v'))
    (h : TextRespelled sdk (some places) text text') :
    Option.Rel R ((sdk.fromStr text).bind ofJson) ((sdk.fromStr text').bind ofJson) := by
  rcases h with rfl | ⟨v, v', hv, hv', h⟩
  · exact rel_refl hrefl _
  · rw [hv, hv']
    exact hof v v' h

theorem rel_fromWriteResource {sdk : Sdk} {typeStr : String} {wr wr' : WriteResource}
    (h : ResourceRespelled sdk wr wr') (hplaces : resourcePlaces.lookup typeStr = some places)
    (hrefl : ∀ a, R a a)
    (hof : ∀ v v', JsonRespelled places v v' → Option.Rel R (ofJson v) (ofJson v')) :
    Option.Rel (Option.Rel R) (fromWriteResource sdk typeStr ofJson wr)
      (fromWriteResource sdk typeStr ofJson wr') := by
  have houter : getOuterTypeFromWriteResource sdk wr = getOuterTypeFromWriteResource sdk wr' := by
    rw [getOuterTypeFromWriteResource, getOuterTypeFromWriteResource, h.typ]
  unfold fromWriteResource
  by_cases htype : getOuterTypeFromWriteResource sdk wr = typeStr
  · rw [if_pos htype, if_pos (houter ▸ htype)]
    have hdata := h.data
    rw [htype, hplaces] at hdata
    exact rel_map (rel_ofText hrefl hof hdata) fun _ _ => .some
  · rw [if_neg htype, if_neg (houter ▸ htype)]
    exact .some .none

theorem rel_parsedAs {S : β → β → Prop} {sdk : Sdk} {data data' : String} {variant : α → β}
    (h : TextRespelled sdk (some places) data data') (hrefl : ∀ a, R a a)
    (hof : ∀ v v', JsonRespelled places v v' → Option.Rel R (ofJson v) (ofJson v'))
    (hvariant : ∀ a a', R a a' → S (variant a) (variant a')) :
    Option.Rel (Option.Rel S) (parsedAs sdk data ofJson variant)
      (parsedAs sdk data' ofJson variant) :=
  rel_map (rel_ofText hrefl hof h) fun _ _ ha => .some (hvariant _ _ ha)

/-- A text without addresses. -/
theorem parsedAs_respelled {sdk : Sdk} {data data' : String}
    (h : TextRespelled sdk (some .nothing) data data') (ofJson : Json → Option α)
    (variant : α → β) : parsedAs sdk data ofJson variant = parsedAs sdk data' ofJson variant := by
  refine eq_of_rel_rel (rel_parsedAs h (fun _ => rfl) ?_ fun _ _ => congrArg _)
  intro v v' hv
  exact rel_ofJson_nothing (fun _ => rfl) hv

/-! ## Events -/

/-- Coin events that are the same but for the spelling of the account. -/
structure CoinAmountData.Respelled (inner inner' : CoinAmountData) : Prop where
  coinType : inner.coinType = inner'.coinType
  account : SameAddress inner.account inner'.account
  amount : inner.amount = inner'.amount

theorem CoinAmountData.rel_ofJson {sdk : Sdk} {v v' : Json}
    (h : JsonRespelled (.fields [("account", .address)]) v v') :
    Option.Rel CoinAmountData.Respelled (CoinAmountData.ofJson sdk v)
      (CoinAmountData.ofJson sdk v') := by
  unfold CoinAmountData.ofJson
  rw [getStr_eq h rfl, getBigDecimal_eq sdk h rfl]
  refine rel_bind (rel_refl (fun _ => rfl) _) ?_
  rintro coinType _ rfl
  refine rel_bind (rel_getStr h rfl) ?_
  intro account account' haccount
  refine rel_bind (rel_refl (fun _ => rfl) _) ?_
  rintro amount _ rfl
  exact .some ⟨rfl, haccount, rfl⟩

/-- Events of a store that are the same but for its spelling. -/
structure StoreAmountData.Respelled (inner inner' : StoreAmountData) : Prop where
  store : SameAddress inner.store inner'.store
  amount : inner.amount = inner'.amount

theorem StoreAmountData.rel_ofJson {sdk : Sdk} {v v' : Json}
    (h : JsonRespelled (.fields [("store", .address)]) v v') :
    Option.Rel StoreAmountData.Respelled (StoreAmountData.ofJson sdk v)
      (StoreAmountData.ofJson sdk v') := by
  unfold StoreAmountData.ofJson
  rw [getBigDecimal_eq sdk h rfl]
  refine rel_bind (rel_getStr h rfl) ?_
  intro store store' hstore
  refine rel_bind (rel_refl (fun _ => rfl) _) ?_
  rintro amount _ rfl
  exact .some ⟨hstore, rfl⟩

structure StoreFrozenData.Respelled (inner inner' : StoreFrozenData) : Prop where
  store : SameAddress inner.store inner'.store
  frozen : inner.frozen = inner'.frozen

theorem StoreFrozenData.rel_ofJson {v v' : Json}
    (h : JsonRespelled (.fields [("store", .address)]) v v') :
    Option.Rel StoreFrozenData.Respelled (StoreFrozenData.ofJson v) (StoreFrozenData.ofJson v') := by
  unfold StoreFrozenData.ofJson
  rw [getBool_eq h rfl]
  refine rel_bind (rel_getStr h rfl) ?_
  intro store store' hstore
  refine rel_bind (rel_refl (fun _ => rfl) _) ?_
  rintro frozen _ rfl
  exact .some ⟨hstore, rfl⟩

/-- Deletion events that are the same but for the spelling of their addresses. -/
structure DeletionEventRespelled (event event' : FungibleAssetStoreDeletionEvent) : Prop where
  metadata : SameAddress event.metadata event'.metadata
  owner : SameAddress event.owner event'.owner
  store : SameAddress event.store event'.store

theorem DeletionEventRespelled.refl (event : FungibleAssetStoreDeletionEvent) :
    DeletionEventRespelled event event :=
  ⟨SameAddress.refl _, SameAddress.refl _, SameAddress.refl _⟩

section

variable {event event' : Stream.Event}

/-- The data of an event of a type that is read. -/
theorem EventRespelled.text {sdk : Sdk} (h : EventRespelled sdk event event') {typeStr : String}
    (htype : event.typeStr = typeStr) (hplaces : eventPlaces.lookup typeStr = some places) :
    TextRespelled sdk (some places) event.data event'.data := by
  have hdata := h.data
  rw [htype, hplaces] at hdata
  exact hdata

theorem deletionEvent_eq (sdk : Sdk) (event : Stream.Event) :
    FungibleAssetStoreDeletionEvent.fromEvent sdk event.toProtos =
      if event.typeStr = deletionType then
        ((sdk.fromStr event.data).bind FungibleAssetStoreDeletionEvent.ofJson).map some
      else some none := rfl

theorem rel_deletionEvent_ofJson {v v' : Json}
    (h : JsonRespelled (.fields [("metadata", .address), ("owner", .address), ("store", .address)])
      v v') : Option.Rel DeletionEventRespelled (FungibleAssetStoreDeletionEvent.ofJson v)
        (FungibleAssetStoreDeletionEvent.ofJson v') := by
  unfold FungibleAssetStoreDeletionEvent.ofJson
  refine rel_bind (rel_getStr h rfl) ?_
  intro metadata metadata' hmetadata
  refine rel_bind (rel_getStr h rfl) ?_
  intro owner owner' howner
  refine rel_bind (rel_getStr h rfl) ?_
  intro store store' hstore
  exact .some ⟨hmetadata, howner, hstore⟩

theorem rel_deletionEvent {sdk : Sdk} (h : EventRespelled sdk event event') :
    Option.Rel (Option.Rel DeletionEventRespelled)
      (FungibleAssetStoreDeletionEvent.fromEvent sdk event.toProtos)
      (FungibleAssetStoreDeletionEvent.fromEvent sdk event'.toProtos) := by
  rw [deletionEvent_eq, deletionEvent_eq, ← h.typeStr]
  by_cases htype : event.typeStr = deletionType
  · rw [if_pos htype, if_pos htype]
    have hdata : TextRespelled sdk (some (.fields [("metadata", .address), ("owner", .address),
        ("store", .address)])) event.data event'.data := h.text htype rfl
    exact rel_map (rel_ofText DeletionEventRespelled.refl (fun _ _ => rel_deletionEvent_ofJson) hdata)
      fun _ _ => .some
  · rw [if_neg htype, if_neg htype]
    exact .some .none

/-- The first fee statement has no addresses. -/
theorem findFeeStatement_respelled {sdk : Sdk} {events events' : List Stream.Event}
    (h : List.Forall₂ (EventRespelled sdk) events events') :
    findFeeStatement sdk (events.map fun event => (event.typeStr, event.data)) =
      findFeeStatement sdk (events'.map fun event => (event.typeStr, event.data)) := by
  induction h with
  | nil => rfl
  | @cons event event' events events' hevent _ ih =>
    have hfee : FeeStatement.fromEvent sdk event.typeStr event.data =
        FeeStatement.fromEvent sdk event'.typeStr event'.data := by
      unfold FeeStatement.fromEvent eventOfType
      rw [← hevent.typeStr]
      by_cases htype : event.typeStr = "0x1::transaction_fee::FeeStatement"
      · rw [if_pos htype, if_pos htype]
        have hdata : TextRespelled sdk (some .nothing) event.data event'.data :=
          hevent.text htype rfl
        exact congrArg (Option.map some) (eq_of_rel
          (rel_ofText (fun _ => rfl) (fun _ _ => rel_ofJson_nothing fun _ => rfl) hdata))
      · rw [if_neg htype, if_neg htype]
    rw [List.map_cons, List.map_cons, findFeeStatement, findFeeStatement, hfee, ih]

variable (hsdk : StandardSdk sdk) (h : EventRespelled sdk.toSdk event event')

include hsdk h

/-- The account of the key. -/
theorem key_map_eq {f g : Stream.EventKey → β}
    (hfg : ∀ key key', sdk.standardizeAddress key.accountAddress =
      sdk.standardizeAddress key'.accountAddress → key.creationNumber = key'.creationNumber →
      f key = g key') : event.key.map f = event'.key.map g :=
  map_congr_rel h.key fun key key' hkey =>
    hfg key key' (hsdk.standardize_eq hkey.1) hkey.2

theorem rel_coinEvent :
    Option.Rel (Option.Rel fun e e' => coinEventAccount sdk event e = coinEventAccount sdk event' e')
      (CoinEvent.fromEvent sdk.toSdk event.typeStr event.data)
      (CoinEvent.fromEvent sdk.toSdk event'.typeStr event'.data) := by
  have hkey : ∀ amount : ℚ, event.key.map (fun key =>
      (sdk.standardizeAddress key.accountAddress, amount, (none : Option String))) =
      event'.key.map fun key => (sdk.standardizeAddress key.accountAddress, amount, none) := by
    intro amount
    refine key_map_eq hsdk h ?_
    intro key key' haccount _
    rw [haccount]
  -- A V1 event names no account: it is the one of the event's key.
  have hold : ∀ inner inner' : AmountData, inner = inner' →
      coinEventAccount sdk event (.withdrawCoinEvent inner) =
        coinEventAccount sdk event' (.withdrawCoinEvent inner') := by
    rintro inner _ rfl
    exact hkey inner.amount
  -- A module event names it, and it is standardized before it is used.
  have hnew : ∀ inner inner' : CoinAmountData, inner.Respelled inner' →
      coinEventAccount sdk event (.withdrawCoinEventV2 inner) =
        coinEventAccount sdk event' (.withdrawCoinEventV2 inner') := by
    intro inner inner' hinner
    rw [coinEventAccount, coinEventAccount, hsdk.standardize_eq hinner.account, hinner.amount,
      hinner.coinType]
  have hrefl (inner : CoinAmountData) : inner.Respelled inner := ⟨rfl, SameAddress.refl _, rfl⟩
  -- One case for each event type; the type itself is no address and is the same.
  unfold CoinEvent.fromEvent
  rw [← h.typeStr]
  split
  next htype =>
    exact rel_parsedAs (h.text htype rfl) (fun _ => rfl)
      (fun _ _ => rel_ofJson_nothing fun _ => rfl) hold
  next =>
    split
    next htype =>
      exact rel_parsedAs (h.text htype rfl) (fun _ => rfl)
        (fun _ _ => rel_ofJson_nothing fun _ => rfl) hold
    next =>
      split
      next htype =>
        exact rel_parsedAs (h.text htype rfl) hrefl (fun _ _ => CoinAmountData.rel_ofJson) hnew
      next =>
        split
        next htype =>
          exact rel_parsedAs (h.text htype rfl) hrefl (fun _ _ => CoinAmountData.rel_ofJson) hnew
        next => exact .some .none

theorem rel_fungibleAssetEvent :
    Option.Rel (Option.Rel fun e e' =>
        fungibleEventStore sdk event e = fungibleEventStore sdk event' e')
      (FungibleAssetEvent.fromEvent sdk.toSdk event.typeStr event.data)
      (FungibleAssetEvent.fromEvent sdk.toSdk event'.typeStr event'.data) := by
  have hkey : ∀ (frozen : Option Bool) (amount : Option ℚ), event.key.map (fun key =>
      (sdk.standardizeAddress key.accountAddress, frozen, amount)) =
      event'.key.map fun key => (sdk.standardizeAddress key.accountAddress, frozen, amount) := by
    intro frozen amount
    refine key_map_eq hsdk h ?_
    intro key key' haccount _
    rw [haccount]
  -- The store of a V1 event is the address of its key.
  have hamount : ∀ inner inner' : AmountData, inner = inner' →
      fungibleEventStore sdk event (.withdrawEvent inner) =
        fungibleEventStore sdk event' (.withdrawEvent inner') := by
    rintro inner _ rfl
    exact hkey none (some inner.amount)
  have hfrozen : ∀ inner inner' : FrozenData, inner = inner' →
      fungibleEventStore sdk event (.frozenEvent inner) =
        fungibleEventStore sdk event' (.frozenEvent inner') := by
    rintro inner _ rfl
    exact hkey (some inner.frozen) none
  -- A module event names the store, which is standardized.
  have hamountV2 : ∀ inner inner' : StoreAmountData, inner.Respelled inner' →
      fungibleEventStore sdk event (.withdrawEventV2 inner) =
        fungibleEventStore sdk event' (.withdrawEventV2 inner') := by
    intro inner inner' hinner
    rw [fungibleEventStore, fungibleEventStore, hsdk.standardize_eq hinner.store, hinner.amount]
  have hfrozenV2 : ∀ inner inner' : StoreFrozenData, inner.Respelled inner' →
      fungibleEventStore sdk event (.frozenEventV2 inner) =
        fungibleEventStore sdk event' (.frozenEventV2 inner') := by
    intro inner inner' hinner
    rw [fungibleEventStore, fungibleEventStore, hsdk.standardize_eq hinner.store, hinner.frozen]
  have hreflAmount (inner : StoreAmountData) : inner.Respelled inner := ⟨SameAddress.refl _, rfl⟩
  have hreflFrozen (inner : StoreFrozenData) : inner.Respelled inner := ⟨SameAddress.refl _, rfl⟩
  -- One case for each event type, in the order of the source.
  unfold FungibleAssetEvent.fromEvent
  rw [← h.typeStr]
  split
  next htype =>
    exact rel_parsedAs (h.text htype rfl) (fun _ => rfl)
      (fun _ _ => rel_ofJson_nothing fun _ => rfl) hamount
  next =>
    split
    next htype =>
      exact rel_parsedAs (h.text htype rfl) (fun _ => rfl)
        (fun _ _ => rel_ofJson_nothing fun _ => rfl) hamount
    next =>
      split
      next htype =>
        exact rel_parsedAs (h.text htype rfl) (fun _ => rfl)
          (fun _ _ => rel_ofJson_nothing fun _ => rfl) hfrozen
      next =>
        split
        next htype =>
          exact rel_parsedAs (h.text htype rfl) hreflAmount (fun _ _ => StoreAmountData.rel_ofJson)
            hamountV2
        next =>
          split
          next htype =>
            exact rel_parsedAs (h.text htype rfl) hreflAmount
              (fun _ _ => StoreAmountData.rel_ofJson) hamountV2
          next =>
            split
            next htype =>
              exact rel_parsedAs (h.text htype rfl) hreflFrozen
                (fun _ _ => StoreFrozenData.rel_ofJson) hfrozenV2
            next => exact .some .none

end

/-! ## Rows of events -/

/-- Transactions as the parser has them that are the same but for the spelling of addresses. -/
structure CtxRespelled (sdk : Sdk) (ctx ctx' : TxnContext) : Prop where
  txnVersion : ctx.txnVersion = ctx'.txnVersion
  blockHeight : ctx.blockHeight = ctx'.blockHeight
  txnTimestamp : ctx.txnTimestamp = ctx'.txnTimestamp
  txnEpoch : ctx.txnEpoch = ctx'.txnEpoch
  transactionInfo : InfoRespelled sdk ctx.transactionInfo ctx'.transactionInfo
  events : List.Forall₂ (EventRespelled sdk) ctx.events ctx'.events
  userRequest : ctx.userRequest = ctx'.userRequest

theorem CtxRespelled.entryFunctionIdStr {sdk : Sdk} {ctx ctx' : TxnContext}
    (h : CtxRespelled sdk ctx ctx') : ctx.entryFunctionIdStr = ctx'.entryFunctionIdStr := by
  rw [TxnContext.entryFunctionIdStr, TxnContext.entryFunctionIdStr, h.userRequest]

/-- Objects that are the same but for the spelling of the owner. -/
structure ObjectRespelled (data data' : ObjectAggregatedData) : Prop where
  owner : SameAddress data.objectCore.owner data'.objectCore.owner
  balance : data.concurrentFungibleAssetBalance = data'.concurrentFungibleAssetBalance

/-- The same, of all that is kept of an object. -/
structure FungibleObjectRespelled (data data' : FungibleObject) : Prop where
  base : ObjectRespelled data.toObjectAggregatedData data'.toObjectAggregatedData
  store : data.fungibleAssetStore = data'.fungibleAssetStore
  supply : data.fungibleAssetSupply = data'.fungibleAssetSupply
  concurrentSupply : data.concurrentFungibleAssetSupply = data'.concurrentFungibleAssetSupply

section

variable {ctx ctx' : TxnContext} (hsdk : StandardSdk sdk) (hctx : CtxRespelled sdk.toSdk ctx ctx')

include hsdk

theorem ownerAddress_eq {data data' : ObjectAggregatedData} (h : ObjectRespelled data data') :
    data.objectCore.getOwnerAddress sdk.toSdk = data'.objectCore.getOwnerAddress sdk.toSdk :=
  hsdk.standardize_eq h.owner

theorem coinTypeOfEvent_respelled {event event' : Stream.Event}
    (h : EventRespelled sdk.toSdk event event') (coinTypeOption : Option String)
    (eventToCoinType : EventToCoinType) (addressToCoinType : OwnerAddressToCoinType) :
    coinTypeOfEvent sdk event coinTypeOption eventToCoinType addressToCoinType =
      coinTypeOfEvent sdk event' coinTypeOption eventToCoinType addressToCoinType := by
  cases coinTypeOption with
  | some coinType => rfl
  | none =>
    refine key_map_eq hsdk h ?_
    intro key key' haccount hnumber
    rw [eventMoveGuid, eventMoveGuid, haccount, hnumber]

theorem storeOwnerAndAsset_respelled {objects objects' : FungibleObjectMapping}
    (h : TablesRel FungibleObjectRespelled objects objects')
    (deletedFaStoreEvents : Table String FungibleAssetStoreDeletionEvent) (storageId : String) :
    storeOwnerAndAsset sdk objects deletedFaStoreEvents storageId =
      storeOwnerAndAsset sdk objects' deletedFaStoreEvents storageId := by
  have hobject := h storageId
  unfold storeOwnerAndAsset
  cases hdata : objects.lookup storageId with
  | none =>
    rw [hdata] at hobject
    cases hdata' : objects'.lookup storageId with
    | none => rfl
    | some data' =>
      rw [hdata'] at hobject
      cases hobject
  | some data =>
    rw [hdata] at hobject
    obtain ⟨data', hdata', hrel⟩ := exists_of_rel_some hobject
    rw [hdata']
    show (some _, _) = (some _, _)
    rw [ownerAddress_eq hsdk hrel.base, hrel.store]

include hctx

theorem getV1FromEvent_respelled {event event' : Stream.Event}
    (h : EventRespelled sdk.toSdk event event') (eventIndex : ℕ)
    (eventToCoinType : EventToCoinType) (addressToCoinType : OwnerAddressToCoinType) :
    getV1FromEvent sdk ctx event eventIndex eventToCoinType addressToCoinType =
      getV1FromEvent sdk ctx' event' eventIndex eventToCoinType addressToCoinType := by
  unfold getV1FromEvent
  refine bind_congr_rel (rel_coinEvent hsdk h) ?_
  intro e e' he
  cases he with
  | none => rfl
  | some he =>
    show (coinEventAccount sdk event _).bind _ = (coinEventAccount sdk event' _).bind _
    rw [he]
    refine congrArg _ (funext fun account => ?_)
    show (coinTypeOfEvent sdk event _ _ _).bind _ = (coinTypeOfEvent sdk event' _ _ _).bind _
    rw [coinTypeOfEvent_respelled hsdk h, h.typeStr, hctx.txnVersion, hctx.blockHeight,
      hctx.txnTimestamp, hctx.entryFunctionIdStr]

theorem getV2FromEvent_respelled {event event' : Stream.Event}
    (h : EventRespelled sdk.toSdk event event') (eventIndex : ℕ)
    {objects objects' : FungibleObjectMapping}
    (hobjects : TablesRel FungibleObjectRespelled objects objects')
    (deletedFaStoreEvents : Table String FungibleAssetStoreDeletionEvent) :
    getV2FromEvent sdk ctx event eventIndex objects deletedFaStoreEvents =
      getV2FromEvent sdk ctx' event' eventIndex objects' deletedFaStoreEvents := by
  unfold getV2FromEvent
  refine bind_congr_rel (rel_fungibleAssetEvent hsdk h) ?_
  intro e e' he
  cases he with
  | none => rfl
  | some he =>
    show (fungibleEventStore sdk event _).bind _ = (fungibleEventStore sdk event' _).bind _
    rw [he]
    refine congrArg _ (funext fun store => ?_)
    obtain ⟨storageId, isFrozen, amount⟩ := store
    simp only [storeOwnerAndAsset_respelled hsdk hobjects, h.typeStr, hctx.txnVersion,
      hctx.blockHeight, hctx.txnTimestamp, hctx.entryFunctionIdStr]

omit hsdk in
theorem gasActivities_respelled : gasActivities sdk ctx = gasActivities sdk ctx' := by
  unfold gasActivities
  rw [← hctx.userRequest]
  cases ctx.userRequest with
  | none => rfl
  | some request =>
    show (findFeeStatement _ _).bind _ = (findFeeStatement _ _).bind _
    rw [findFeeStatement_respelled hctx.events]
    refine congrArg _ (funext fun feeStatement => ?_)
    show (getGasEvent sdk ctx request feeStatement).bind _ =
      (getGasEvent sdk ctx' request feeStatement).bind _
    unfold getGasEvent
    rw [hctx.transactionInfo.gasUsed, hctx.transactionInfo.success, hctx.txnVersion,
      hctx.blockHeight, hctx.txnTimestamp, hctx.entryFunctionIdStr]

/-- The activities, with the same maps and objects that are the same but for spelling. -/
theorem transactionActivities_respelled {objects objects' : FungibleObjectMapping}
    (hobjects : TablesRel FungibleObjectRespelled objects objects')
    (deletedFaStoreEvents : Table String FungibleAssetStoreDeletionEvent)
    (coinTypes : EventToCoinType) (deletedCoinTypes : OwnerAddressToCoinType) :
    transactionActivities sdk ctx ⟨objects, deletedFaStoreEvents, coinTypes, deletedCoinTypes⟩ =
      transactionActivities sdk ctx'
        ⟨objects', deletedFaStoreEvents, coinTypes, deletedCoinTypes⟩ := by
  unfold transactionActivities
  rw [gasActivities_respelled hctx]
  have hevents : ctx.events.zipIdx.mapM (eventActivities sdk ctx
        ⟨objects, deletedFaStoreEvents, coinTypes, deletedCoinTypes⟩) =
      ctx'.events.zipIdx.mapM (eventActivities sdk ctx'
        ⟨objects', deletedFaStoreEvents, coinTypes, deletedCoinTypes⟩) := by
    refine mapM_congr_rel (forall₂_zipIdx hctx.events 0) ?_
    rintro ⟨event, index⟩ ⟨event', index'⟩ ⟨hevent, rfl⟩
    rw [eventActivities, eventActivities, getV1FromEvent_respelled hsdk hctx hevent,
      getV2FromEvent_respelled hsdk hctx hevent _ hobjects]
  rw [hevents]

end

/-! ## Resources -/

section

variable (hsdk : StandardSdk sdk) {wr wr' : WriteResource}
  (h : ResourceRespelled sdk.toSdk wr wr')

include h

theorem rel_objectCore :
    Option.Rel (Option.Rel fun core core' => SameAddress core.owner core'.owner)
      (objectCoreFromWriteResource sdk.toSdk wr) (objectCoreFromWriteResource sdk.toSdk wr') := by
  unfold objectCoreFromWriteResource
  refine rel_fromWriteResource h rfl (fun core => SameAddress.refl _) ?_
  intro v v' hv
  unfold ObjectCore.ofJson
  rw [getBool_eq hv rfl, getBigDecimal_eq sdk.toSdk hv rfl]
  refine rel_bind (rel_refl (fun _ => rfl) _) ?_
  rintro allow _ rfl
  refine rel_bind (rel_refl (fun _ => rfl) _) ?_
  rintro guid _ rfl
  refine rel_bind (rel_getStr hv rfl) ?_
  intro owner owner' howner
  exact .some howner

/-- A coin store's balance and flag are not among its addresses. -/
theorem coinStore_respelled :
    fromWriteResource sdk.toSdk typeCoinStore (CoinStoreResource.ofJson sdk.toSdk) wr =
      fromWriteResource sdk.toSdk typeCoinStore (CoinStoreResource.ofJson sdk.toSdk) wr' := by
  refine eq_of_rel_rel (rel_fromWriteResource h rfl (fun _ => rfl) ?_)
  intro v v' hv
  refine rel_of_eq ?_
  rw [CoinStoreResource.ofJson, CoinStoreResource.ofJson, get_eq hv rfl, getBool_eq hv rfl]

/-- Resources without addresses. -/
theorem fromWriteResource_respelled {typeStr : String} {ofJson : Json → Option α}
    (hplaces : resourcePlaces.lookup typeStr = some .nothing) :
    fromWriteResource sdk.toSdk typeStr ofJson wr = fromWriteResource sdk.toSdk typeStr ofJson wr' :=
  eq_of_rel_rel (rel_fromWriteResource h hplaces (fun _ => rfl)
    fun _ _ => rel_ofJson_nothing fun _ => rfl)

include hsdk

omit h in
/-- The guid of a handle, standardized. -/
theorem ofHandle_standardized {of : String → Places} {v v' : Json}
    (hv : JsonRespelled (.members of) v v') {handle : String} (hof : of handle = handlePlaces) :
    Option.Rel (fun guid guid' : EventGuidResource =>
        guid.getStandardized sdk.toSdk = guid'.getStandardized sdk.toSdk)
      (EventGuidResource.ofHandle v handle) (EventGuidResource.ofHandle v' handle) := by
  unfold EventGuidResource.ofHandle
  refine rel_bind (rel_get_of hv hof) ?_
  intro w w' hw
  refine rel_bind (rel_get_of hw rfl) ?_
  intro guid guid' hguid
  refine rel_bind (rel_get_of hguid rfl) ?_
  intro id id' hid
  refine rel_bind (rel_getStr hid rfl) ?_
  intro addr addr' haddr
  rw [getStr_eq hid rfl]
  refine rel_bind (rel_refl (fun _ => rfl) _) ?_
  rintro text _ rfl
  refine rel_bind (rel_refl (fun _ => rfl) _) ?_
  rintro number _ rfl
  refine .some ?_
  rw [EventGuidResource.getStandardized, EventGuidResource.getStandardized,
    hsdk.standardize_eq haddr]

theorem eventToCoinMapping_respelled (params : List MoveType) :
    eventToCoinMapping sdk.toCoinSdk wr params = eventToCoinMapping sdk.toCoinSdk wr' params := by
  have hstore : Option.Rel (Option.Rel fun inner inner' : CoinStoreGuids =>
      inner.withdrawEvents.getStandardized sdk.toSdk =
          inner'.withdrawEvents.getStandardized sdk.toSdk ∧
        inner.depositEvents.getStandardized sdk.toSdk =
          inner'.depositEvents.getStandardized sdk.toSdk)
      (fromWriteResource sdk.toSdk typeCoinStore CoinStoreGuids.ofJson wr)
      (fromWriteResource sdk.toSdk typeCoinStore CoinStoreGuids.ofJson wr') := by
    refine rel_fromWriteResource h rfl (fun _ => ⟨rfl, rfl⟩) ?_
    intro v v' hv
    unfold CoinStoreGuids.ofJson
    refine rel_bind (ofHandle_standardized hsdk hv rfl) ?_
    intro deposit deposit' hdeposit
    refine rel_bind (ofHandle_standardized hsdk hv rfl) ?_
    intro withdraw withdraw' hwithdraw
    exact .some ⟨hwithdraw, hdeposit⟩
  unfold eventToCoinMapping
  refine bind_congr_rel hstore ?_
  intro inner inner' hinner
  cases hinner with
  | none => rfl
  | some hinner => simp only [hinner.1, hinner.2, h.typeStr]

theorem getV1FromWriteResource_respelled (params : List MoveType)
    (writeSetChangeIndex txnVersion : Int64) (txnTimestamp : NaiveDateTime) :
    getV1FromWriteResource sdk.toCoinSdk wr params writeSetChangeIndex txnVersion txnTimestamp =
      getV1FromWriteResource sdk.toCoinSdk wr' params writeSetChangeIndex txnVersion
        txnTimestamp := by
  unfold getV1FromWriteResource coinBalance
  simp only [coinStore_respelled h, h.typeStr, hsdk.standardize_eq h.address]

omit h in
/-- A store's metadata is standardized where it is read. -/
theorem fungibleAssetStore_respelled {v v' : Json}
    (hv : JsonRespelled (.fields [("metadata", .fields [("inner", .address)])]) v v') :
    FungibleAssetStore.ofJson sdk.toSdk v = FungibleAssetStore.ofJson sdk.toSdk v' := by
  have hmetadata : v.getReferenceAddress sdk.toSdk "metadata" =
      v'.getReferenceAddress sdk.toSdk "metadata" := by
    have haddress : Option.Rel SameAddress ((v.get "metadata").bind (Json.getStr · "inner"))
        ((v'.get "metadata").bind (Json.getStr · "inner")) :=
      rel_bind (rel_get_of hv rfl) fun w w' hw => rel_getStr hw rfl
    exact map_congr_rel haddress fun a b => hsdk.standardize_eq
  rw [FungibleAssetStore.ofJson, FungibleAssetStore.ofJson, hmetadata,
    getBigDecimal_eq sdk.toSdk hv rfl, getBool_eq hv rfl]

theorem storeFromWriteResource_respelled :
    fromWriteResource sdk.toSdk typeFungibleAssetStore (FungibleAssetStore.ofJson sdk.toSdk) wr =
      fromWriteResource sdk.toSdk typeFungibleAssetStore (FungibleAssetStore.ofJson sdk.toSdk)
        wr' := by
  refine eq_of_rel_rel (rel_fromWriteResource h rfl (fun _ => rfl) ?_)
  intro v v' hv
  exact rel_of_eq (fungibleAssetStore_respelled hsdk hv)

theorem v2Resource_respelled :
    V2FungibleAssetResource.fromWriteResource sdk wr =
      V2FungibleAssetResource.fromWriteResource sdk wr' := by
  have houter : getOuterTypeFromWriteResource sdk.toSdk wr =
      getOuterTypeFromWriteResource sdk.toSdk wr' := by
    rw [getOuterTypeFromWriteResource, getOuterTypeFromWriteResource, h.typ]
  have htext : ∀ {typeStr : String} {places : Places},
      getOuterTypeFromWriteResource sdk.toSdk wr = typeStr →
      resourcePlaces.lookup typeStr = some places →
      TextRespelled sdk.toSdk (some places) wr.data wr'.data := by
    intro typeStr places htype hplaces
    have hdata := h.data
    rwa [htype, hplaces] at hdata
  unfold V2FungibleAssetResource.fromWriteResource
  simp only
  rw [← houter]
  split
  next htype =>
    exact parsedAs_respelled (htext htype rfl) _ _
  next =>
    split
    next htype =>
      exact parsedAs_respelled (htext htype rfl) _ _
    next =>
      split
      next htype =>
        exact parsedAs_respelled (htext htype rfl) _ _
      next =>
        split
        next htype =>
          exact eq_of_rel_rel (rel_parsedAs (htext htype rfl) (fun _ => rfl)
            (fun v v' hv => rel_of_eq (fungibleAssetStore_respelled hsdk hv))
            fun _ _ => congrArg _)
        next =>
          split
          next htype =>
            exact parsedAs_respelled (htext htype rfl) _ _
          next => rfl

end

end IndexerProcessors.FungibleAsset

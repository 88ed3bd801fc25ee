import IndexerProcessors.FungibleAsset.ActivityKeys

/-!
# The coin type of an older coin event

The older events of coins have a guid and no coin type. The parser looks for a written coin
store with the guid and else takes the coin type of the coin store of the owner that is
deleted last; both only know coin types that are not too long. `coinType_right_iff` — the
row of an event says the coin type of the store its guid belongs to exactly if a written
store of that type has the guid, or the store that is deleted last is of that type too, or
none is deleted, and then there is no row.
-/

namespace IndexerProcessors.FungibleAsset

open IndexerProcessors.Lib
open IndexerProcessors.Protos

/-! ## What the write set says of coin stores -/

/-- A coin type that is not too long to be indexed. -/
def isShort (coinType : String) : Bool := coinType.utf8ByteSize ≤ 1000

theorem getCoinTypeBelowMax_eq (coinType : String) :
    getCoinTypeBelowMax coinType = if isShort coinType then some coinType else none := by
  unfold getCoinTypeBelowMax isShort
  by_cases h : coinType.utf8ByteSize > 1000
  · rw [if_pos h, if_neg (by simpa using h)]
  · rw [if_neg h, if_pos (by simpa using h)]

/-- The guids of a written coin store, with its coin type of whatever length. -/
def storeGuidsOf (sdk : CoinSdk) (change : Protos.Change) : List (EventGuidResource × String) :=
  match change with
  | .writeResource wr params =>
    ((fromWriteResource sdk.toSdk typeCoinStore CoinStoreGuids.ofJson wr).join.bind fun inner =>
      (coinTypeFromMoveType params wr.typeStr).map fun coinType =>
        [(inner.withdrawEvents.getStandardized sdk.toSdk, coinType),
          (inner.depositEvents.getStandardized sdk.toSdk, coinType)]).getD []
  | _ => []

/-- The owner and the coin type, of whatever length, of a deleted coin store. -/
def deletedStoreOf (sdk : CoinSdk) (change : Protos.Change) : Option (String × String) :=
  match change with
  | .deleteResource dr params =>
    if getOuterTypeFromDeleteResource sdk.toSdk dr = typeCoinStore then
      (coinTypeFromMoveType params dr.typeStr).map fun coinType =>
        (sdk.standardizeAddress dr.address, coinType)
    else none
  | _ => none

/-- The coin type of the coin store of an owner that is deleted last, of those whose coin
types are not too long. -/
def lastDeletedCoinType (sdk : CoinSdk) (changes : List Protos.Change) (owner : String) :
    Option String :=
  (proj owner ((changes.filterMap (deletedStoreOf sdk)).filter fun entry =>
    isShort entry.2)).getLast?

section

variable {sdk : CoinSdk}

/-- The entries of a change are those of its store, if the coin type is short. -/
theorem eventCoinTypesOf_eq {change : Protos.Change} {entries : List (EventGuidResource × String)}
    (h : eventCoinTypesOf sdk change = some entries) :
    entries = (storeGuidsOf sdk change).filter fun entry => isShort entry.2 := by
  cases change with
  | writeResource wr params =>
    rw [eventCoinTypesOf, eventToCoinMapping] at h
    obtain ⟨store, hstore, h⟩ := Option.bind_eq_some_iff.mp h
    cases store with
    | none =>
      obtain rfl := Option.some.inj h
      rw [storeGuidsOf, hstore]
      rfl
    | some inner =>
      obtain ⟨coinType, htype, h⟩ := Option.bind_eq_some_iff.mp h
      rw [storeGuidsOf, hstore, htype]
      rw [getCoinTypeBelowMax_eq] at h
      by_cases hshort : isShort coinType = true
      · rw [if_pos hshort] at h
        obtain rfl := Option.some.inj h
        simp [hshort]
      · rw [if_neg hshort] at h
        obtain rfl := Option.some.inj h
        simp [hshort]
  | deleteResource dr params => exact (Option.some.inj h).symm
  | writeTableItem item => exact (Option.some.inj h).symm
  | deleteTableItem item => exact (Option.some.inj h).symm
  | other => exact (Option.some.inj h).symm

/-- The entry of a change is that of its deleted store, if the coin type is short. -/
theorem deletedCoinTypeOf_eq {change : Protos.Change} {entry : Option (String × String)}
    (h : deletedCoinTypeOf sdk change = some entry) :
    entry = (deletedStoreOf sdk change).filter fun entry => isShort entry.2 := by
  cases change with
  | deleteResource dr params =>
    rw [deletedCoinTypeOf, addressToCoinType] at h
    obtain ⟨balance, hbalance, rfl⟩ := Option.map_eq_some_iff.mp h
    unfold getV1FromDeleteResource at hbalance
    rw [deletedStoreOf]
    by_cases htype : getOuterTypeFromDeleteResource sdk.toSdk dr = typeCoinStore
    · rw [if_neg (not_not.mpr htype)] at hbalance
      obtain ⟨coinType, hcoin, hbalance⟩ := Option.bind_eq_some_iff.mp hbalance
      rw [if_pos htype, hcoin, Option.map_some, Option.filter_some]
      rw [getCoinTypeBelowMax_eq] at hbalance
      by_cases hshort : isShort coinType = true
      · rw [if_pos hshort] at hbalance
        obtain ⟨row, hrow, hbalance⟩ := Option.bind_eq_some_iff.mp hbalance
        obtain rfl := Option.some.inj hbalance
        unfold coinBalance at hrow
        obtain ⟨storageId, -, hrow⟩ := Option.bind_eq_some_iff.mp hrow
        obtain rfl := Option.some.inj hrow
        rw [if_pos hshort]
        rfl
      · rw [if_neg hshort] at hbalance
        obtain rfl := Option.some.inj hbalance
        rw [if_neg hshort]
        rfl
    · rw [if_pos htype] at hbalance
      obtain rfl := Option.some.inj hbalance
      rw [if_neg htype]
      rfl
  | writeResource wr params => exact (Option.some.inj h).symm
  | writeTableItem item => exact (Option.some.inj h).symm
  | deleteTableItem item => exact (Option.some.inj h).symm
  | other => exact (Option.some.inj h).symm

/-- The first map: where a guid belongs to one coin type, that type or nothing. -/
theorem lookup_eventToV1CoinType {changes : List Protos.Change} {t : EventToCoinType}
    {guid : EventGuidResource} {coinType : String} (h : eventToV1CoinType sdk changes = some t)
    (hbelongs : ∀ other, (guid, other) ∈ changes.flatMap (storeGuidsOf sdk) → other = coinType) :
    t.lookup guid =
      if (guid, coinType) ∈ changes.flatMap (storeGuidsOf sdk) ∧ isShort coinType = true then
        some coinType else none := by
  unfold eventToV1CoinType at h
  obtain ⟨entries, hentries, h⟩ := Option.bind_eq_some_iff.mp h
  obtain rfl := Option.some.inj h
  have hflat : entries.flatten =
      (changes.flatMap (storeGuidsOf sdk)).filter fun entry => isShort entry.2 := by
    rw [List.filter_flatMap, ← List.flatMap_id]
    exact flatMap_of_mapM hentries fun change out hout => eventCoinTypesOf_eq hout
  rw [Table.lookup_insertAll, hflat, AList.lookup_empty, Option.or_none]
  have hall : ∀ other ∈ proj guid ((changes.flatMap (storeGuidsOf sdk)).filter fun entry =>
      isShort entry.2), other = coinType ∧ isShort coinType = true ∧
        (guid, coinType) ∈ changes.flatMap (storeGuidsOf sdk) := by
    intro other hother
    obtain ⟨hmem, hshort⟩ := List.mem_filter.mp (mem_proj.mp hother)
    obtain rfl := hbelongs other hmem
    exact ⟨rfl, hshort, hmem⟩
  cases hlast : (proj guid ((changes.flatMap (storeGuidsOf sdk)).filter fun entry =>
      isShort entry.2)).getLast? with
  | none =>
    rw [if_neg]
    intro hin
    have hmem : coinType ∈ proj guid ((changes.flatMap (storeGuidsOf sdk)).filter fun entry =>
        isShort entry.2) := mem_proj.mpr (List.mem_filter.mpr hin)
    rw [List.getLast?_eq_none_iff.mp hlast] at hmem
    exact List.not_mem_nil hmem
  | some other =>
    obtain ⟨rfl, hshort, hmem⟩ := hall other (List.mem_of_getLast? hlast)
    rw [if_pos ⟨hmem, hshort⟩]

/-- The second map: the coin type of the store that is deleted last. -/
theorem lookup_ownerAddressToDeletedCoinType {changes : List Protos.Change}
    {t : OwnerAddressToCoinType} (h : ownerAddressToDeletedCoinType sdk changes = some t)
    (owner : String) : t.lookup owner = lastDeletedCoinType sdk changes owner := by
  unfold ownerAddressToDeletedCoinType at h
  obtain ⟨entries, hentries, h⟩ := Option.bind_eq_some_iff.mp h
  obtain rfl := Option.some.inj h
  have hreduce : entries.reduceOption =
      (changes.filterMap (deletedStoreOf sdk)).filter fun entry => isShort entry.2 := by
    rw [List.filter_filterMap]
    exact filterMap_of_mapM hentries fun change out hout => deletedCoinTypeOf_eq hout
  rw [Table.lookup_insertAll, hreduce, AList.lookup_empty, Option.or_none]
  rfl

end

/-! ## The row of an event -/

variable {sdk : AssetSdk} {ctx : TxnContext}

/-- The types of the events that do not say their coin. -/
def legacyCoinEventTypes : List String := ["0x1::coin::WithdrawEvent", "0x1::coin::DepositEvent"]

/-- A row says a coin type and has the storage id that is derived from it. -/
structure SaysCoin (sdk : AssetSdk) (owner coinType : String) (row : FungibleAssetActivity) :
    Prop where
  assetType : row.assetType = some coinType
  storageId : getPrimaryFungibleStoreAddress sdk.toCoinSdk owner
    (getPairedMetadataAddress sdk.toCoinSdk coinType) = some row.storageId

/-- An older coin event is parsed as one, or is a panic. -/
theorem fromEvent_legacy {typeStr data : String} {coinEvent : Option CoinEvent}
    (hlegacy : typeStr ∈ legacyCoinEventTypes)
    (h : CoinEvent.fromEvent sdk.toSdk typeStr data = some coinEvent) :
    ∃ inner, coinEvent = some (.withdrawCoinEvent inner) ∨
      coinEvent = some (.depositCoinEvent inner) := by
  unfold CoinEvent.fromEvent parsedAs at h
  rcases List.mem_pair.mp hlegacy with rfl | rfl
  · rw [if_pos rfl] at h
    obtain ⟨inner, -, rfl⟩ := Option.map_eq_some_iff.mp h
    exact ⟨inner, Or.inl rfl⟩
  · rw [if_neg (by decide), if_pos rfl] at h
    obtain ⟨inner, -, rfl⟩ := Option.map_eq_some_iff.mp h
    exact ⟨inner, Or.inr rfl⟩

/-- The row of an older coin event says the coin type that the maps have for its guid. -/
theorem getV1FromEvent_legacy {event : Stream.Event} {key : Stream.EventKey} {eventIndex : ℕ}
    {eventToCoinType : EventToCoinType} {addressToCoinType : OwnerAddressToCoinType}
    {out : Option FungibleAssetActivity} (hlegacy : event.typeStr ∈ legacyCoinEventTypes)
    (hkey : event.key = some key)
    (h : getV1FromEvent sdk ctx event eventIndex eventToCoinType addressToCoinType = some out) :
    match coinTypeOfGuid eventToCoinType addressToCoinType (eventMoveGuid sdk key) with
    | none => out = none
    | some coinType =>
      ∃ row, out = some row ∧ SaysCoin sdk (sdk.standardizeAddress key.accountAddress) coinType row := by
  unfold getV1FromEvent at h
  obtain ⟨coinEvent, hcoin, h⟩ := Option.bind_eq_some_iff.mp h
  have haccount : ∃ amount, ∃ inner, coinEvent = some inner ∧ coinEventAccount sdk event inner =
      some (sdk.standardizeAddress key.accountAddress, amount, none) := by
    obtain ⟨inner, rfl | rfl⟩ := fromEvent_legacy hlegacy hcoin
    · exact ⟨inner.amount, _, rfl, by rw [coinEventAccount, hkey]; rfl⟩
    · exact ⟨inner.amount, _, rfl, by rw [coinEventAccount, hkey]; rfl⟩
  obtain ⟨amount, inner, rfl, haccount⟩ := haccount
  obtain ⟨account, hsome, h⟩ := Option.bind_eq_some_iff.mp h
  obtain rfl := Option.some.inj (haccount.symm.trans hsome)
  obtain ⟨coinType, htype, h⟩ := Option.bind_eq_some_iff.mp h
  rw [coinTypeOfEvent, hkey, Option.map_some, Option.some_inj] at htype
  rw [htype]
  cases coinType with
  | none => exact (Option.some.inj h).symm
  | some coinType =>
    obtain ⟨storageId, hstorage, h⟩ := Option.bind_eq_some_iff.mp h
    obtain rfl := Option.some.inj h
    exact ⟨_, rfl, rfl, hstorage⟩

theorem legacy_mem_coinEventTypes {typeStr : String} (h : typeStr ∈ legacyCoinEventTypes) :
    typeStr ∈ coinEventTypes := by
  rcases List.mem_pair.mp h with rfl | rfl
  · decide
  · decide

/-- The rows of a transaction with the index of an event are the event's. -/
theorem mem_transactionActivities_of_index {collected : Collected}
    {rows : List FungibleAssetActivity} {event : Stream.Event} {index : ℕ}
    (h : transactionActivities sdk ctx collected = some rows)
    (hevent : ctx.events[index]? = some event) :
    ∃ out, eventActivities sdk ctx collected (event, index) = some out ∧
      ∀ row, row ∈ rows ∧ row.eventIndex = (index : ℤ) ↔ row ∈ out := by
  unfold transactionActivities at h
  obtain ⟨gas, hgas, h⟩ := Option.bind_eq_some_iff.mp h
  obtain ⟨eventRows, hrows, h⟩ := Option.bind_eq_some_iff.mp h
  obtain rfl := Option.some.inj h
  have hmem : (event, index) ∈ ctx.events.zipIdx := by
    rw [List.mem_zipIdx_iff_getElem?]
    exact hevent
  obtain ⟨out, hout, hparsed⟩ := exists_of_mapM hrows hmem
  refine ⟨out, hparsed, ?_⟩
  intro row
  constructor
  · rintro ⟨hrow, hindex⟩
    rcases List.mem_append.mp hrow with hrow | hrow
    · rcases gasActivities_cases hgas with rfl | ⟨gasRow, rfl, hpk⟩
      · exact absurd hrow List.not_mem_nil
      · rw [List.mem_singleton.mp hrow] at hindex
        -- The gas row has an index of its own, which is negative.
        have hburn : gasRow.eventIndex = burnGasEventIndex := congrArg Prod.snd hpk
        rw [hburn, burnGasEventIndex] at hindex
        exact absurd hindex (by omega)
    · obtain ⟨other, hother, hrow⟩ := List.mem_flatten.mp hrow
      obtain ⟨⟨event', index'⟩, hmem', hparsed'⟩ := (mem_of_mapM hrows).mp hother
      have hrowIndex : row.eventIndex = (index' : ℤ) := by
        rcases eventActivities_cases hparsed' with rfl | ⟨only, rfl, hpk⟩
        · exact absurd hrow List.not_mem_nil
        · rw [List.mem_singleton.mp hrow]
          exact congrArg Prod.snd hpk
      -- A row has the index of its event, so with this index it is of this event.
      obtain rfl : index' = index := Int.ofNat_inj.mp (hrowIndex.symm.trans hindex)
      rw [List.mem_zipIdx_iff_getElem?] at hmem'
      obtain rfl := Option.some.inj (hevent.symm.trans hmem')
      obtain rfl := Option.some.inj (hparsed.symm.trans hparsed')
      exact hrow
  · intro hrow
    refine ⟨List.mem_append_right _ (List.mem_flatten.mpr ⟨out, hout, hrow⟩), ?_⟩
    rcases eventActivities_cases hparsed with rfl | ⟨only, rfl, hpk⟩
    · exact absurd hrow List.not_mem_nil
    · rw [List.mem_singleton.mp hrow]
      exact congrArg Prod.snd hpk

/-- The rows of a batch with the version of a transaction are the transaction's. -/
theorem mem_activities_of_version {getAssetTypeV1 : String → Option String}
    {transactions : List Stream.Transaction} (hversions : (transactions.map (·.version)).Nodup)
    {rows : CoinRows} (h : parseV2Coin sdk getAssetTypeV1 transactions = some rows)
    {txn : Stream.Transaction} (htxn : txn ∈ transactions) (row : FungibleAssetActivity) :
    row ∈ rows.activities ∧ row.transactionVersion = txn.txnVersion ↔ row ∈ activitiesOf sdk txn := by
  rw [activities_of_parseV2Coin h, List.mem_flatMap]
  constructor
  · rintro ⟨⟨other, hother, hrow⟩, hversion⟩
    have hsame : other.txnVersion = txn.txnVersion := by
      rw [← hversion, (nodup_pk_activitiesOf other).2 row hrow]
    have heq : other = txn :=
      List.inj_on_of_nodup_map hversions hother htxn (UInt64.toBitVec_inj.mp
        (congrArg Int64.toBitVec hsame))
    rwa [← heq]
  · intro hrow
    exact ⟨⟨txn, htxn, hrow⟩, (nodup_pk_activitiesOf txn).2 row hrow⟩

/-- The rows of a batch for an older coin event are the one of the parser of coins. -/
theorem row_of_coinEvent {getAssetTypeV1 : String → Option String}
    {transactions : List Stream.Transaction} (hversions : (transactions.map (·.version)).Nodup)
    {rows : CoinRows} (h : parseV2Coin sdk getAssetTypeV1 transactions = some rows)
    {txn : Stream.Transaction} (htxn : txn ∈ transactions)
    (hctx : txnContextOf sdk txn = some (some ctx)) {event : Stream.Event} {index : ℕ}
    (hevent : ctx.events[index]? = some event) (hcoin : event.typeStr ∈ coinEventTypes) :
    ∃ collected v1Activity, collect sdk ctx = some collected ∧
      getV1FromEvent sdk ctx event index collected.eventToV1CoinType
        collected.ownerAddressToDeletedCoinType = some v1Activity ∧
      ∀ row, row ∈ rows.activities ∧ row.pk = (txn.txnVersion, (index : ℤ)) ↔
        v1Activity = some row := by
  obtain ⟨parsed, hparsed, -⟩ := Option.bind_eq_some_iff.mp h
  obtain ⟨out, -, hout⟩ := exists_of_mapM hparsed htxn
  have hactivities : ∃ collected, collect sdk ctx = some collected ∧
      transactionActivities sdk ctx collected = some out.activities := by
    rcases activities_of_parseTransaction hout with
      ⟨hnone, -⟩ | ⟨ctx', collected, hctx', hcollect, hactivities⟩
    · rw [hctx] at hnone
      cases hnone
    · obtain rfl := Option.some.inj (Option.some.inj (hctx.symm.trans hctx'))
      exact ⟨collected, hcollect, hactivities⟩
  obtain ⟨collected, hcollect, hactivities⟩ := hactivities
  obtain ⟨eventRows, heventRows, hmem⟩ := mem_transactionActivities_of_index hactivities hevent
  unfold eventActivities at heventRows
  obtain ⟨v1Activity, hv1, heventRows⟩ := Option.bind_eq_some_iff.mp heventRows
  rw [getV2FromEvent_of_coin hcoin] at heventRows
  obtain rfl := Option.some.inj heventRows
  refine ⟨collected, v1Activity, hcollect, hv1, ?_⟩
  intro row
  have hof : activitiesOf sdk txn = out.activities := by rw [activitiesOf, hout]; rfl
  have hv1mem := hmem row
  rw [Option.toList_none, List.append_nil, Option.mem_toList] at hv1mem
  rw [← hv1mem, ← hof, ← mem_activities_of_version hversions h htxn row,
    FungibleAssetActivity.pk, Prod.mk.injEq, and_assoc]

/-- The coin type that the maps have for a guid that belongs to one coin type. -/
theorem coinTypeOfGuid_collected {collected : Collected} {guid : EventGuidResource}
    {coinType : String} (hcollect : collect sdk ctx = some collected)
    (hbelongs : ∀ other, (guid, other) ∈
      ctx.transactionInfo.changes.flatMap (storeGuidsOf sdk.toCoinSdk) → other = coinType) :
    coinTypeOfGuid collected.eventToV1CoinType collected.ownerAddressToDeletedCoinType guid =
      (if (guid, coinType) ∈ ctx.transactionInfo.changes.flatMap (storeGuidsOf sdk.toCoinSdk) ∧
          isShort coinType = true then some coinType else none).or
        (lastDeletedCoinType sdk.toCoinSdk ctx.transactionInfo.changes guid.addr) := by
  unfold collect at hcollect
  obtain ⟨objects, -, hcollect⟩ := Option.bind_eq_some_iff.mp hcollect
  obtain ⟨deletedStores, -, hcollect⟩ := Option.bind_eq_some_iff.mp hcollect
  obtain ⟨coinTypes, hcoinTypes, hcollect⟩ := Option.bind_eq_some_iff.mp hcollect
  obtain ⟨deletedTypes, hdeletedTypes, hcollect⟩ := Option.bind_eq_some_iff.mp hcollect
  obtain rfl := Option.some.inj hcollect
  rw [coinTypeOfGuid, lookup_eventToV1CoinType hcoinTypes hbelongs,
    lookup_ownerAddressToDeletedCoinType hdeletedTypes]

/-- What makes the coin type of an event right: a written store with its guid and a coin type
that is not too long, or no deleted store of the owner with another coin type after its own. -/
def CoinTypeFound (sdk : CoinSdk) (changes : List Protos.Change) (guid : EventGuidResource)
    (coinType : String) : Prop :=
  ((guid, coinType) ∈ changes.flatMap (storeGuidsOf sdk) ∧ isShort coinType = true) ∨
    ∀ last, lastDeletedCoinType sdk changes guid.addr = some last → last = coinType

/-- **The coin of an older event.** Its guid belongs to the store of a coin type, so that
no written store of another type has it. The row of the event, if there is one, says that
coin type exactly if it is found. -/
theorem coinType_right_iff (sdk : AssetSdk) (getAssetTypeV1 : String → Option String)
    {transactions : List Stream.Transaction} (hversions : (transactions.map (·.version)).Nodup)
    {rows : CoinRows} (h : parseV2Coin sdk getAssetTypeV1 transactions = some rows)
    {txn : Stream.Transaction} (htxn : txn ∈ transactions) {ctx : TxnContext}
    (hctx : txnContextOf sdk txn = some (some ctx)) {event : Stream.Event} {index : ℕ}
    (hevent : ctx.events[index]? = some event) (hlegacy : event.typeStr ∈ legacyCoinEventTypes)
    {key : Stream.EventKey} (hkey : event.key = some key) {coinType : String}
    (hbelongs : ∀ other, (eventMoveGuid sdk key, other) ∈
      ctx.transactionInfo.changes.flatMap (storeGuidsOf sdk.toCoinSdk) → other = coinType) :
    (∀ row ∈ rows.activities, row.pk = (txn.txnVersion, (index : ℤ)) →
        SaysCoin sdk (sdk.standardizeAddress key.accountAddress) coinType row) ↔
      CoinTypeFound sdk.toCoinSdk ctx.transactionInfo.changes (eventMoveGuid sdk key) coinType := by
  obtain ⟨collected, v1Activity, hcollect, hv1, hrows⟩ := row_of_coinEvent hversions h htxn hctx
    hevent (legacy_mem_coinEventTypes hlegacy)
  have hrow := getV1FromEvent_legacy hlegacy hkey hv1
  rw [coinTypeOfGuid_collected hcollect hbelongs] at hrow
  unfold CoinTypeFound
  -- Coin types of written stores are looked at first, by the guid of the event; those of
  -- deleted stores only after that, by the account.
  by_cases hfound : (eventMoveGuid sdk key, coinType) ∈
      ctx.transactionInfo.changes.flatMap (storeGuidsOf sdk.toCoinSdk) ∧ isShort coinType = true
  · refine iff_of_true ?_ (Or.inl hfound)
    rw [if_pos hfound, Option.some_or] at hrow
    obtain ⟨only, honly, hsaid⟩ := hrow
    intro row hin hpk
    obtain rfl := Option.some.inj (honly.symm.trans ((hrows row).mp ⟨hin, hpk⟩))
    exact hsaid
  · rw [if_neg hfound, Option.none_or] at hrow
    rw [or_iff_right hfound]
    cases hlast : lastDeletedCoinType sdk.toCoinSdk ctx.transactionInfo.changes
        (eventMoveGuid sdk key).addr with
    | none =>
      rw [hlast] at hrow
      refine iff_of_true ?_ (fun last hsome => by cases hsome)
      intro row hin hpk
      have hsome := (hrows row).mp ⟨hin, hpk⟩
      rw [hrow] at hsome
      cases hsome
    | some last =>
      rw [hlast] at hrow
      obtain ⟨only, honly, hsaid⟩ := hrow
      constructor
      · intro hright last' hlast'
        obtain rfl := Option.some.inj hlast'
        obtain ⟨hin, hpk⟩ := (hrows only).mpr honly
        exact Option.some.inj (hsaid.assetType.symm.trans (hright only hin hpk).assetType)
      · intro hsame row hin hpk
        obtain rfl := Option.some.inj (honly.symm.trans ((hrows row).mp ⟨hin, hpk⟩))
        rw [← hsame last rfl]
        exact hsaid

/-! ## A migration -/

/-- The metadata address of another coin, and the account's primary store of it. -/
def moonMetadata : String := "0xca021c369920a1d129f689a54e6bb76f92890c9c5050a062f3ddc0889c9fcc14"

def moonStore : String := "0x1e22fe5b0f5dccba7978d3d0b53a6281a6da628f23087b3bf79d27fff44e1463"

/-- The bytes of an address. -/
def addressBytes (address : String) : List UInt8 := (hexDecode (address.toList.drop 2)).getD []

/-- The hashes that are needed. -/
def migrationHashes : List (List UInt8 × List UInt8) :=
  [(addressBytes aptMetadata ++ "0x5::moon::Moon".toUTF8.toList ++ [0xFE], addressBytes moonMetadata),
   (addressBytes holder ++ addressBytes moonMetadata ++ [0xFC], addressBytes moonStore),
   (addressBytes holder ++ addressBytes aptMetadata ++ [0xFC], addressBytes holderStore)]

/-- The outside functions on these hashes and the texts of events. -/
def migrationSdk : AssetSdk :=
  { eventSdk with sha3 := fun bytes => (migrationHashes.lookup bytes).getD [] }

/-- A deletion of the account's coin store of a coin type. -/
def deleteStore (tag : MoveStructTag) (coinType : String) : Protos.Change :=
  .deleteResource ⟨holder, ⟨coinAddr, "coin", "CoinStore"⟩, "0x1::coin::CoinStore<" ++ coinType ++ ">"⟩
    [.struct tag]

/-- A withdraw event of the account, by its creation number. -/
def withdrawEvent (creationNumber : UInt64) : Stream.Event where
  key := some ⟨holder, creationNumber⟩
  typeStr := "0x1::coin::WithdrawEvent"
  data := "\x7b\"amount\":\"4\"\x7d"

/-- Two coins of an account are migrated at once: a withdraw event of each store, and both
stores deleted. -/
def migrationTxn : Stream.Transaction :=
  ⟨9, 1, 1, some ⟨9, 0⟩,
    some ⟨100, true, [deleteStore ⟨"0x5", "moon", "Moon"⟩ "0x5::moon::Moon",
      deleteStore ⟨"0x1", "aptos_coin", "AptosCoin"⟩ "0x1::aptos_coin::AptosCoin"]⟩,
    some (.user (some ⟨holder, 0, 0, 100, none, none, none, none, none, none, none⟩)
      [withdrawEvent 4, withdrawEvent 2])⟩

/-- The context of the transaction. -/
def migrationCtx : TxnContext where
  txnVersion := 9
  blockHeight := 1
  txnTimestamp := 9000000
  txnEpoch := 1
  transactionInfo := (migrationTxn.info).getD ⟨0, false, []⟩
  events := [withdrawEvent 4, withdrawEvent 2]
  userRequest := some ⟨holder, 0, 0, 100, none, none, none, none, none, none, none⟩

/-- The transaction is parsed, and the event of the first store has the coin type of the
second. -/
theorem migration_rows :
    ∃ rows, parseV2Coin migrationSdk (fun _ => none) [migrationTxn] = some rows ∧
      ∃ row ∈ rows.activities, row.pk = (migrationTxn.txnVersion, ((0 : ℕ) : ℤ)) ∧
        row.assetType = some "0x1::aptos_coin::AptosCoin" :=
  exists_of_any (o := parseV2Coin migrationSdk (fun _ => none) [migrationTxn])
    (P := fun rows => ∃ row ∈ rows.activities,
      row.pk = (migrationTxn.txnVersion, ((0 : ℕ) : ℤ)) ∧
        row.assetType = some "0x1::aptos_coin::AptosCoin") (by decide +kernel)

/-- The event of the store that is deleted last has its coin type. -/
theorem coinType_right_lastDeleted :
    ∃ rows, parseV2Coin migrationSdk (fun _ => none) [migrationTxn] = some rows ∧
      (∀ row ∈ rows.activities, row.pk = (migrationTxn.txnVersion, ((1 : ℕ) : ℤ)) →
        SaysCoin migrationSdk holder "0x1::aptos_coin::AptosCoin" row) := by
  obtain ⟨rows, hrows, -⟩ := migration_rows
  have hnone : migrationCtx.transactionInfo.changes.flatMap
      (storeGuidsOf migrationSdk.toCoinSdk) = [] := by decide +kernel
  have hright := @coinType_right_iff migrationSdk (fun _ => none) [migrationTxn] (by decide) rows
    hrows migrationTxn (List.mem_singleton.mpr rfl) migrationCtx rfl (withdrawEvent 2) 1 rfl
    (by decide) ⟨holder, 2⟩ rfl "0x1::aptos_coin::AptosCoin"
    (fun other hother => absurd (hnone ▸ hother) List.not_mem_nil)
  refine ⟨rows, hrows, hright.mpr (Or.inr ?_)⟩
  intro last hlast
  have hapt : lastDeletedCoinType migrationSdk.toCoinSdk migrationCtx.transactionInfo.changes
      holder = some "0x1::aptos_coin::AptosCoin" := by decide +kernel
  exact Option.some.inj (hlast.symm.trans hapt)

/-- The event of the other store has the coin type of this one. -/
theorem moon_withdraw_is_apt :
    ∃ rows, parseV2Coin migrationSdk (fun _ => none) [migrationTxn] = some rows ∧
      ¬ ∀ row ∈ rows.activities, row.pk = (migrationTxn.txnVersion, ((0 : ℕ) : ℤ)) →
        SaysCoin migrationSdk holder "0x5::moon::Moon" row := by
  obtain ⟨rows, hrows, row, hrow, hpk, hasset⟩ := migration_rows
  refine ⟨rows, hrows, ?_⟩
  intro hall
  have hmoon := (hall row hrow hpk).assetType
  rw [hasset, Option.some_inj] at hmoon
  exact absurd hmoon (by decide)

end IndexerProcessors.FungibleAsset

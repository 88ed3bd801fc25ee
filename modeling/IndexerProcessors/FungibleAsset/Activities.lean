import IndexerProcessors.FungibleAsset.Balances
import IndexerProcessors.Lib.Related
import IndexerProcessors.UserTransaction.Model

/-!
# Fungible asset activities

What `parse_v2_coin` makes of the events of a transaction: a row for each event of a
coin or of a fungible asset, and before them one for the gas of a user transaction.

An event of a fungible asset names the store, and its owner and its asset are those
the write set has at the store's address or, if the store is gone, those of the event
of its deletion. The older events of coins do not name the coin; the coin type is
looked up by the guid of the event, which the coin stores of the write set have, and
then by the owner among the deleted coin stores.
-/

namespace IndexerProcessors.FungibleAsset

open IndexerProcessors.Lib
open IndexerProcessors.Protos

/-- What activities, metadata and supplies use outside the repository, beyond `CoinSdk`. -/
structure AssetSdk extends CoinSdk where
  /-- The largest value of an `Aggregator`. -/
  aggregatorMaxValue : Json → Option ℚ
  /-- `truncate_str`. -/
  truncateStr : String → ℕ → String
  /-- `hash_str`. -/
  hashStr : String → String
  /-- An `i32` of a JSON number. -/
  i32 : Json → Option Int32

/-! ## Transactions -/

namespace Stream

structure EventKey where
  accountAddress : String
  creationNumber : UInt64
  deriving DecidableEq

structure Event where
  key : Option EventKey
  typeStr : String
  data : String
  deriving DecidableEq

inductive TxnData where
  | blockMetadata (events : List Event)
  | genesis (events : List Event)
  | user (request : Option UserTransaction.UserTransactionRequest) (events : List Event)
  | validator (events : List Event)
  | other
  deriving DecidableEq

structure TransactionInfo where
  gasUsed : UInt64
  success : Bool
  changes : List Protos.Change
  deriving DecidableEq

structure Transaction where
  version : UInt64
  blockHeight : UInt64
  epoch : UInt64
  timestamp : Option Timestamp
  info : Option TransactionInfo
  txnData : Option TxnData
  deriving DecidableEq

/-- The version as the tables store it. -/
def Transaction.txnVersion (txn : Transaction) : Int64 := txn.version.toInt64

/-- An event as the balances read it. -/
def Event.toProtos (event : Event) : Protos.Event where
  key := event.key.map fun key => ⟨key.accountAddress⟩
  typeStr := event.typeStr
  data := event.data

def TxnData.toProtos : TxnData → Protos.TxnData
  | .blockMetadata events => .blockMetadata (events.map Event.toProtos)
  | .genesis events => .genesis (events.map Event.toProtos)
  | .user request events =>
    .user (request.map fun request => ⟨request.sender, request.entryFunctionIdStr⟩)
      (events.map Event.toProtos)
  | .validator events => .validator (events.map Event.toProtos)
  | .other => .other

def Transaction.toProtos (txn : Transaction) : Protos.Transaction where
  version := txn.version
  timestamp := txn.timestamp
  info := txn.info.map (·.changes)
  txnData := txn.txnData.map TxnData.toProtos

end Stream

/-! ## Coin types of events -/

/-- `EventGuidResource`. -/
structure EventGuidResource where
  addr : String
  creationNum : Int64
  deriving DecidableEq

/-- A run of decimal digits. -/
def natOfDigits (digits : List Char) : Option ℕ :=
  if digits ≠ [] ∧ digits.all Char.isDigit then
    some (digits.foldl (fun n c => 10 * n + (c.toNat - '0'.toNat)) 0)
  else none

/-- `i64::from_str`: decimal digits, after a sign if there is one. -/
def i64FromStr (text : String) : Option Int64 :=
  let value : Option ℤ :=
    match text.toList with
    | '-' :: digits => (natOfDigits digits).map fun n => -(n : ℤ)
    | '+' :: digits => (natOfDigits digits).map fun n => (n : ℤ)
    | digits => (natOfDigits digits).map fun n => (n : ℤ)
  value.bind fun n => if -2 ^ 63 ≤ n ∧ n < 2 ^ 63 then some (Int64.ofInt n) else none

/-- The guid of an event handle: the `id` of its `guid`. -/
def EventGuidResource.ofHandle (v : Json) (handle : String) : Option EventGuidResource := do
  let id ← (← (← v.get handle).get "guid").get "id"
  let addr ← id.getStr "addr"
  let creationNum ← i64FromStr (← id.getStr "creation_num")
  return { addr, creationNum }

/-- `EventGuidResource::get_standardized`. -/
def EventGuidResource.getStandardized (sdk : Sdk) (guid : EventGuidResource) : EventGuidResource where
  addr := sdk.standardizeAddress guid.addr
  creationNum := guid.creationNum

/-- The guids of a `CoinStoreResource`, whose other fields are those of the balance. -/
structure CoinStoreGuids where
  withdrawEvents : EventGuidResource
  depositEvents : EventGuidResource

def CoinStoreGuids.ofJson (v : Json) : Option CoinStoreGuids := do
  let depositEvents ← EventGuidResource.ofHandle v "deposit_events"
  let withdrawEvents ← EventGuidResource.ofHandle v "withdraw_events"
  return { withdrawEvents, depositEvents }

abbrev EventToCoinType := Table EventGuidResource String

abbrev OwnerAddressToCoinType := Table String String

/-- The `event_to_coin_mapping` of `FungibleAssetBalance::get_v1_from_write_resource`. -/
def eventToCoinMapping (sdk : CoinSdk) (wr : WriteResource) (genericTypeParams : List MoveType) :
    Option (List (EventGuidResource × String)) := do
  let some inner ← fromWriteResource sdk.toSdk typeCoinStore CoinStoreGuids.ofJson wr
    | return []
  let coinInfoType ← coinTypeFromMoveType genericTypeParams wr.typeStr
  let some coinType := getCoinTypeBelowMax coinInfoType
    | return []
  return [(inner.withdrawEvents.getStandardized sdk.toSdk, coinType),
    (inner.depositEvents.getStandardized sdk.toSdk, coinType)]

/-- What a change adds to `event_to_v1_coin_type`. -/
def eventCoinTypesOf (sdk : CoinSdk) (change : Protos.Change) :
    Option (List (EventGuidResource × String)) :=
  match change with
  | .writeResource wr params => eventToCoinMapping sdk wr params
  | _ => some []

/-- Loop 3, `event_to_v1_coin_type`. -/
def eventToV1CoinType (sdk : CoinSdk) (changes : List Protos.Change) : Option EventToCoinType := do
  let entries ← changes.mapM (eventCoinTypesOf sdk)
  return Table.insertAll ∅ entries.flatten

/-- The `address_to_coin_type` of `FungibleAssetBalance::get_v1_from_delete_resource`, which
has the owner and the coin type of the balance. -/
def addressToCoinType (sdk : CoinSdk) (dr : DeleteResource) (genericTypeParams : List MoveType) :
    Option (Option (String × String)) :=
  (getV1FromDeleteResource sdk dr genericTypeParams 0 0 0).map fun balance =>
    balance.map fun balance => (balance.ownerAddress, balance.assetType)

/-- What a change adds to `owner_address_to_deleted_coin_type`. -/
def deletedCoinTypeOf (sdk : CoinSdk) (change : Protos.Change) : Option (Option (String × String)) :=
  match change with
  | .deleteResource dr params => addressToCoinType sdk dr params
  | _ => some none

/-- Loop 3, `owner_address_to_deleted_coin_type`. -/
def ownerAddressToDeletedCoinType (sdk : CoinSdk) (changes : List Protos.Change) :
    Option OwnerAddressToCoinType := do
  let entries ← changes.mapM (deletedCoinTypeOf sdk)
  return Table.insertAll ∅ entries.reduceOption

/-! ## Objects -/

/-- `FungibleAssetMetadata`. -/
structure FungibleAssetMetadata where
  name : String
  symbol : String
  decimals : Int32
  iconUri : String
  projectUri : String

def FungibleAssetMetadata.ofJson (sdk : AssetSdk) (v : Json) : Option FungibleAssetMetadata := do
  let name ← v.getStr "name"
  let symbol ← v.getStr "symbol"
  let decimals ← (v.get "decimals").bind sdk.i32
  let iconUri ← v.getStr "icon_uri"
  let projectUri ← v.getStr "project_uri"
  return { name, symbol, decimals, iconUri, projectUri }

/-- `FungibleAssetSupply`; the maximum is the first item of its vector. -/
structure FungibleAssetSupply where
  current : ℚ
  maximum : List ℚ

def FungibleAssetSupply.ofJson (sdk : Sdk) (v : Json) : Option FungibleAssetSupply := do
  let current ← v.getBigDecimal sdk "current"
  let items ← (← (← v.get "maximum").get "vec").asArray
  let maximum ← items.mapM fun item => item.asStr.bind sdk.bigDecimal
  return { current, maximum }

/-- `FungibleAssetSupply::get_maximum`. -/
def FungibleAssetSupply.getMaximum (supply : FungibleAssetSupply) : Option ℚ := supply.maximum.head?

/-- An `Aggregator`. -/
structure Aggregator where
  value : ℚ
  maxValue : ℚ

def Aggregator.ofJson (sdk : AssetSdk) (v : Json) : Option Aggregator := do
  let value ← sdk.aggregatorValue v
  let maxValue ← sdk.aggregatorMaxValue v
  return { value, maxValue }

/-- `TYPE_FUNGIBLE_ASSET_METADATA`. -/
def typeFungibleAssetMetadata : String := coinAddr ++ "::fungible_asset::Metadata"

/-- `TYPE_FUNGIBLE_ASSET_SUPPLY`. -/
def typeFungibleAssetSupply : String := coinAddr ++ "::fungible_asset::Supply"

/-- `TYPE_CONCURRENT_FUNGIBLE_ASSET_SUPPLY`. -/
def typeConcurrentFungibleAssetSupply : String := coinAddr ++ "::fungible_asset::ConcurrentSupply"

inductive V2FungibleAssetResource where
  | concurrentFungibleAssetBalance (balance : ℚ)
  | concurrentFungibleAssetSupply (current : Aggregator)
  | fungibleAssetMetadata (metadata : FungibleAssetMetadata)
  | fungibleAssetStore (store : FungibleAssetStore)
  | fungibleAssetSupply (supply : FungibleAssetSupply)

/-- `V2FungibleAssetResource::from_write_resource`. -/
def V2FungibleAssetResource.fromWriteResource (sdk : AssetSdk) (wr : WriteResource) :
    Option (Option V2FungibleAssetResource) :=
  let typeStr := getOuterTypeFromWriteResource sdk.toSdk wr
  if typeStr = typeConcurrentFungibleAssetBalance then
    parsedAs sdk.toSdk wr.data (fun v => (v.get "balance").bind sdk.aggregatorValue)
      .concurrentFungibleAssetBalance
  else if typeStr = typeConcurrentFungibleAssetSupply then
    parsedAs sdk.toSdk wr.data (fun v => (v.get "current").bind (Aggregator.ofJson sdk))
      .concurrentFungibleAssetSupply
  else if typeStr = typeFungibleAssetMetadata then
    parsedAs sdk.toSdk wr.data (FungibleAssetMetadata.ofJson sdk) .fungibleAssetMetadata
  else if typeStr = typeFungibleAssetStore then
    parsedAs sdk.toSdk wr.data (FungibleAssetStore.ofJson sdk.toSdk) .fungibleAssetStore
  else if typeStr = typeFungibleAssetSupply then
    parsedAs sdk.toSdk wr.data (FungibleAssetSupply.ofJson sdk.toSdk) .fungibleAssetSupply
  else some none

/-- What activities and metadata use of an object, beyond what balances do. -/
structure FungibleObject extends ObjectAggregatedData where
  fungibleAssetStore : Option FungibleAssetStore
  fungibleAssetSupply : Option FungibleAssetSupply
  concurrentFungibleAssetSupply : Option Aggregator

abbrev FungibleObjectMapping := Table String FungibleObject

/-- A resource is kept with its object. The metadata kept there is read by nobody. -/
def FungibleObject.aggregate (data : FungibleObject) : V2FungibleAssetResource → FungibleObject
  | .fungibleAssetMetadata _ => data
  | .fungibleAssetStore store => { data with fungibleAssetStore := some store }
  | .fungibleAssetSupply supply => { data with fungibleAssetSupply := some supply }
  | .concurrentFungibleAssetSupply current =>
    { data with concurrentFungibleAssetSupply := some current }
  | .concurrentFungibleAssetBalance balance =>
    { data with concurrentFungibleAssetBalance := some balance }

/-- Loop 1: an object with nothing but its core. -/
def newObjectOf (sdk : AssetSdk) (change : Protos.Change) : Option (Option (String × FungibleObject)) :=
  match change with
  | .writeResource wr _ =>
    (objectCoreFromWriteResource sdk.toSdk wr).map fun core =>
      core.map fun core => (sdk.standardizeAddress wr.address, ⟨⟨core, none⟩, none, none, none⟩)
  | _ => some none

/-- Loop 3: a resource of a known object goes to the object. -/
def withResource (sdk : AssetSdk) (objects : FungibleObjectMapping) (change : Protos.Change) :
    Option FungibleObjectMapping :=
  match change with
  | .writeResource wr _ =>
    let address := sdk.standardizeAddress wr.address
    match objects.lookup address with
    | none => some objects
    | some data => do
      let some resource ← V2FungibleAssetResource.fromWriteResource sdk wr
        | return objects
      return objects.insert address (data.aggregate resource)
  | _ => some objects

/-- `fungible_asset_object_helper` after loops 1 and 3. -/
def fungibleAssetObjectHelper (sdk : AssetSdk) (changes : List Protos.Change) :
    Option FungibleObjectMapping := do
  let objects ← changes.mapM (newObjectOf sdk)
  changes.foldlM (withResource sdk) (Table.insertAll ∅ objects.reduceOption)

/-! ### The map of the balances

`transactionBalances` fills the same map with what balances need of it. It reads fewer
resources, so it never panics where the helper does not. -/

/-- The object is what the balances know of it, and more. -/
def ExtendsData (object : FungibleObject) (data : ObjectAggregatedData) : Prop :=
  object.toObjectAggregatedData = data

/-- The concurrent balance, if the resource is one. -/
def V2FungibleAssetResource.concurrentBalance? : V2FungibleAssetResource → Option ℚ
  | .concurrentFungibleAssetBalance balance => some balance
  | _ => none

section Maps

variable {sdk : AssetSdk}

theorem concurrentBalance_of_resource {wr : WriteResource}
    {resource : Option V2FungibleAssetResource}
    (h : V2FungibleAssetResource.fromWriteResource sdk wr = some resource) :
    fromWriteResource sdk.toSdk typeConcurrentFungibleAssetBalance
        (fun v => (v.get "balance").bind sdk.aggregatorValue) wr =
      some (resource.bind V2FungibleAssetResource.concurrentBalance?) := by
  unfold V2FungibleAssetResource.fromWriteResource at h
  unfold fromWriteResource
  by_cases hbalance :
      getOuterTypeFromWriteResource sdk.toSdk wr = typeConcurrentFungibleAssetBalance
  · simp only [if_pos hbalance, parsedAs] at h ⊢
    obtain ⟨balance, hparse, rfl⟩ := Option.map_eq_some_iff.mp h
    rw [hparse]
    rfl
  · -- whatever else it is, it is no balance
    simp only [if_neg hbalance, parsedAs] at h ⊢
    split_ifs at h
    any_goals
      obtain ⟨inner, -, rfl⟩ := Option.map_eq_some_iff.mp h
      rfl
    obtain rfl := Option.some.inj h
    rfl

/-- A resource reaches both maps. -/
theorem withConcurrentBalance_of_withResource {objects objects' : FungibleObjectMapping}
    {base : ObjectAggregatedDataMapping} {change : Protos.Change}
    (h : TablesRel ExtendsData objects base)
    (hstep : withResource sdk objects change = some objects') :
    ∃ base', withConcurrentBalance sdk.toCoinSdk base change = some base' ∧
      TablesRel ExtendsData objects' base' := by
  unfold withResource at hstep
  unfold withConcurrentBalance
  cases change with
  | writeResource wr params =>
    dsimp only at hstep ⊢
    cases hobject : objects.lookup (sdk.standardizeAddress wr.address) with
    | none =>
      rw [hobject] at hstep
      rw [h.lookup_none hobject]
      obtain rfl := Option.some.inj hstep
      exact ⟨base, rfl, h⟩
    | some object =>
      rw [hobject] at hstep
      obtain ⟨_, hbase, rfl⟩ := h.lookup_some hobject
      rw [hbase]
      obtain ⟨resource, hresource, hstep⟩ := Option.bind_eq_some_iff.mp hstep
      simp only [concurrentBalance_of_resource hresource, Option.bind_eq_bind, Option.bind_some]
      cases resource with
      | none =>
        obtain rfl := Option.some.inj hstep
        exact ⟨base, rfl, h⟩
      | some resource =>
        obtain rfl := Option.some.inj hstep
        cases resource with
        | concurrentFungibleAssetBalance balance => exact ⟨_, rfl, tablesRel_insert h _ rfl⟩
        | concurrentFungibleAssetSupply current =>
          exact ⟨base, rfl, tablesRel_insert_left h hbase rfl⟩
        | fungibleAssetMetadata metadata => exact ⟨base, rfl, tablesRel_insert_left h hbase rfl⟩
        | fungibleAssetStore store => exact ⟨base, rfl, tablesRel_insert_left h hbase rfl⟩
        | fungibleAssetSupply supply => exact ⟨base, rfl, tablesRel_insert_left h hbase rfl⟩
  | _ =>
    obtain rfl := Option.some.inj hstep
    exact ⟨base, rfl, h⟩

/-- An object is new to both maps. -/
theorem objectsOf_of_newObjects {changes : List Protos.Change}
    {entries : List (Option (String × FungibleObject))}
    (h : changes.mapM (newObjectOf sdk) = some entries) :
    ∃ first, objectsOf sdk.toCoinSdk changes = some first ∧
      TablesRel ExtendsData (Table.insertAll ∅ entries.reduceOption) first := by
  have hrel : Option.Rel (TablesRel ExtendsData)
      ((changes.mapM (newObjectOf sdk)).bind fun entries =>
        some (Table.insertAll ∅ entries.reduceOption))
      (objectsOf sdk.toCoinSdk changes) := by
    unfold objectsOf
    have hsame : List.Forall₂ Eq changes changes := List.forall₂_same.mpr fun _ _ => rfl
    refine rel_bind (mapM_rel hsame ?_) fun entries entries' hentries =>
      .some (tablesRel_insertAll (forall₂_reduceOption hentries))
    rintro change _ rfl
    cases change with
    | writeResource wr params =>
      refine rel_map (rel_refl (fun _ => rfl) _) ?_
      rintro core _ rfl
      refine rel_map (rel_refl (fun _ => rfl) _) ?_
      rintro core _ rfl
      exact ⟨rfl, rfl⟩
    | _ => exact .some .none
  rw [h] at hrel
  exact exists_of_rel_some hrel

/-- The two maps agree on what balances read. -/
theorem objectsOf_of_helper {changes : List Protos.Change} {objects : FungibleObjectMapping}
    (h : fungibleAssetObjectHelper sdk changes = some objects) :
    ∃ first base, objectsOf sdk.toCoinSdk changes = some first ∧
      changes.foldlM (withConcurrentBalance sdk.toCoinSdk) first = some base ∧
      TablesRel ExtendsData objects base := by
  have hloop : ∀ (rest : List Protos.Change) {objects objects' : FungibleObjectMapping}
      {base : ObjectAggregatedDataMapping}, TablesRel ExtendsData objects base →
      rest.foldlM (withResource sdk) objects = some objects' →
      ∃ base', rest.foldlM (withConcurrentBalance sdk.toCoinSdk) base = some base' ∧
        TablesRel ExtendsData objects' base' := by
    intro rest
    induction rest with
    | nil =>
      intro objects objects' base hrel hrest
      obtain rfl := Option.some.inj hrest
      exact ⟨base, rfl, hrel⟩
    | cons change rest ih =>
      intro objects objects' base hrel hrest
      rw [List.foldlM_cons] at hrest
      obtain ⟨next, hstep, hrest⟩ := Option.bind_eq_some_iff.mp hrest
      obtain ⟨base', hstep', hrel'⟩ := withConcurrentBalance_of_withResource hrel hstep
      obtain ⟨base'', hrest', hrel''⟩ := ih hrel' hrest
      refine ⟨base'', ?_, hrel''⟩
      rw [List.foldlM_cons, hstep']
      exact hrest'
  obtain ⟨entries, hentries, h⟩ := Option.bind_eq_some_iff.mp h
  obtain ⟨first, hfirst, hrel⟩ := objectsOf_of_newObjects hentries
  obtain ⟨base, hbase, hrel⟩ := hloop changes hrel h
  exact ⟨first, base, hfirst, hbase, hrel⟩

end Maps

/-! ## Rows -/

/-- A row of `fungible_asset_activities`. An index of an event is a `usize` below the
largest `i64`, and is kept as it is. -/
structure FungibleAssetActivity where
  transactionVersion : Int64
  eventIndex : ℤ
  ownerAddress : Option String
  storageId : String
  assetType : Option String
  isFrozen : Option Bool
  amount : Option ℚ
  eventType : String
  isGasFee : Bool
  gasFeePayerAddress : Option String
  isTransactionSuccess : Bool
  entryFunctionIdStr : Option String
  blockHeight : Int64
  tokenStandard : TokenStandard
  transactionTimestamp : NaiveDateTime
  storageRefundAmount : ℚ
  deriving DecidableEq

/-- The primary key, on which the statement of the storer has its conflicts. -/
def FungibleAssetActivity.pk (row : FungibleAssetActivity) : Int64 × ℤ :=
  (row.transactionVersion, row.eventIndex)

/-- `GAS_FEE_EVENT`. -/
def gasFeeEvent : String := "0x1::aptos_coin::GasFeeEvent"

/-- `BURN_GAS_EVENT_INDEX`. -/
def burnGasEventIndex : ℤ := -1

/-- A transaction as the parser has it after its first lines. -/
structure TxnContext where
  txnVersion : Int64
  blockHeight : Int64
  txnTimestamp : NaiveDateTime
  txnEpoch : Int64
  transactionInfo : Stream.TransactionInfo
  events : List Stream.Event
  userRequest : Option UserTransaction.UserTransactionRequest

/-- `get_entry_function_from_user_request`, of user transactions. -/
def TxnContext.entryFunctionIdStr (ctx : TxnContext) : Option String :=
  ctx.userRequest.bind (·.entryFunctionIdStr)

/-- The events and the request; a user transaction without a request panics. -/
def Stream.TxnData.eventsAndRequest :
    Stream.TxnData → Option (List Stream.Event × Option UserTransaction.UserTransactionRequest)
  | .blockMetadata events | .validator events | .genesis events => some (events, none)
  | .user request events => request.map fun request => (events, some request)
  | .other => some ([], none)

/-- The first lines of the closure of `parse_v2_coin`: without data there are no rows. -/
def txnContextOf (sdk : AssetSdk) (txn : Stream.Transaction) : Option (Option TxnContext) :=
  match txn.txnData with
  | none => some none
  | some txnData => do
    let transactionInfo ← txn.info
    let timestamp ← txn.timestamp
    let txnTimestamp ← sdk.fromTimestampOpt timestamp.seconds 0
    let (events, userRequest) ← txnData.eventsAndRequest
    return some {
      txnVersion := txn.txnVersion
      blockHeight := txn.blockHeight.toInt64
      txnTimestamp
      txnEpoch := txn.epoch.toInt64
      transactionInfo
      events
      userRequest }

/-- `FungibleAssetActivity::get_gas_event`, with `CoinActivity::get_gas_event`. The product
is of `u64`s. -/
def getGasEvent (sdk : AssetSdk) (ctx : TxnContext)
    (userTransactionRequest : UserTransaction.UserTransactionRequest)
    (feeStatement : Option FeeStatement) : Option FungibleAssetActivity := do
  let aptosCoinBurned := ctx.transactionInfo.gasUsed * userTransactionRequest.gasUnitPrice
  let gasFeePayerAddress ← UserTransaction.gasFeePayerAddressOf sdk.toSdk
    userTransactionRequest.signature
  let ownerAddress := sdk.standardizeAddress userTransactionRequest.sender
  let metadataAddr := getPairedMetadataAddress sdk.toCoinSdk sdk.aptosCoinTypeStr
  let storageId ← getPrimaryFungibleStoreAddress sdk.toCoinSdk ownerAddress metadataAddr
  return {
    transactionVersion := ctx.txnVersion
    eventIndex := burnGasEventIndex
    ownerAddress := some ownerAddress
    storageId
    assetType := some sdk.aptosCoinTypeStr
    isFrozen := none
    amount := some aptosCoinBurned.toNat
    eventType := gasFeeEvent
    isGasFee := true
    gasFeePayerAddress
    isTransactionSuccess := ctx.transactionInfo.success
    entryFunctionIdStr := ctx.entryFunctionIdStr
    blockHeight := ctx.blockHeight
    tokenStandard := .v1
    transactionTimestamp := ctx.txnTimestamp
    storageRefundAmount := feeStatement.elim 0 fun fs => fs.storageFeeRefundOctas.toNat }

/-- The account of a coin event, its amount and, if it says it, its coin type. The account
of an older event is that of its key. -/
def coinEventAccount (sdk : AssetSdk) (event : Stream.Event) :
    CoinEvent → Option (String × ℚ × Option String)
  | .withdrawCoinEvent inner | .depositCoinEvent inner =>
    event.key.map fun key => (sdk.standardizeAddress key.accountAddress, inner.amount, none)
  | .withdrawCoinEventV2 inner | .depositCoinEventV2 inner =>
    some (sdk.standardizeAddress inner.account, inner.amount, some inner.coinType)

/-- The guid of an event. -/
def eventMoveGuid (sdk : AssetSdk) (key : Stream.EventKey) : EventGuidResource where
  addr := sdk.standardizeAddress key.accountAddress
  creationNum := key.creationNumber.toInt64

/-- The coin type of an event that does not say it. -/
def coinTypeOfGuid (eventToCoinType : EventToCoinType) (addressToCoinType : OwnerAddressToCoinType)
    (guid : EventGuidResource) : Option String :=
  (eventToCoinType.lookup guid).or (addressToCoinType.lookup guid.addr)

/-- The coin type of an event; an older event has to have a key. -/
def coinTypeOfEvent (sdk : AssetSdk) (event : Stream.Event) (coinTypeOption : Option String)
    (eventToCoinType : EventToCoinType) (addressToCoinType : OwnerAddressToCoinType) :
    Option (Option String) :=
  match coinTypeOption with
  | some coinType => some (some coinType)
  | none => event.key.map fun key =>
      coinTypeOfGuid eventToCoinType addressToCoinType (eventMoveGuid sdk key)

/-- `FungibleAssetActivity::get_v1_from_event`. -/
def getV1FromEvent (sdk : AssetSdk) (ctx : TxnContext) (event : Stream.Event) (eventIndex : ℕ)
    (eventToCoinType : EventToCoinType) (addressToCoinType : OwnerAddressToCoinType) :
    Option (Option FungibleAssetActivity) := do
  let some inner ← CoinEvent.fromEvent sdk.toSdk event.typeStr event.data
    | return none
  let (ownerAddress, amount, coinTypeOption) ← coinEventAccount sdk event inner
  let some coinType ← coinTypeOfEvent sdk event coinTypeOption eventToCoinType addressToCoinType
    | return none
  let metadataAddr := getPairedMetadataAddress sdk.toCoinSdk coinType
  let storageId ← getPrimaryFungibleStoreAddress sdk.toCoinSdk ownerAddress metadataAddr
  return some {
    transactionVersion := ctx.txnVersion
    eventIndex := eventIndex
    ownerAddress := some ownerAddress
    storageId
    assetType := some coinType
    isFrozen := none
    amount := some amount
    eventType := event.typeStr
    isGasFee := false
    gasFeePayerAddress := none
    isTransactionSuccess := true
    entryFunctionIdStr := ctx.entryFunctionIdStr
    blockHeight := ctx.blockHeight
    tokenStandard := .v1
    transactionTimestamp := ctx.txnTimestamp
    storageRefundAmount := 0 }

/-- The store of a fungible asset event, whether it is frozen and the amount. The store
of an older event is the account of its key. -/
def fungibleEventStore (sdk : AssetSdk) (event : Stream.Event) :
    FungibleAssetEvent → Option (String × Option Bool × Option ℚ)
  | .withdrawEvent inner | .depositEvent inner =>
    event.key.map fun key => (sdk.standardizeAddress key.accountAddress, none, some inner.amount)
  | .frozenEvent inner =>
    event.key.map fun key => (sdk.standardizeAddress key.accountAddress, some inner.frozen, none)
  | .withdrawEventV2 inner | .depositEventV2 inner =>
    some (sdk.standardizeAddress inner.store, none, some inner.amount)
  | .frozenEventV2 inner => some (sdk.standardizeAddress inner.store, some inner.frozen, none)

/-- The owner and the asset of a store: those of the object or, if it is not written, those
the event of the deletion has, as the event has them. -/
def storeOwnerAndAsset (sdk : AssetSdk) (objects : FungibleObjectMapping)
    (deletedFaStoreEvents : Table String FungibleAssetStoreDeletionEvent) (storageId : String) :
    Option String × Option String :=
  match objects.lookup storageId with
  | some data =>
    (some (data.objectCore.getOwnerAddress sdk.toSdk), data.fungibleAssetStore.map (·.metadata))
  | none =>
    match deletedFaStoreEvents.lookup storageId with
    | some event => (some event.owner, some event.metadata)
    | none => (none, none)

/-- `FungibleAssetActivity::get_v2_from_event`. -/
def getV2FromEvent (sdk : AssetSdk) (ctx : TxnContext) (event : Stream.Event) (eventIndex : ℕ)
    (objects : FungibleObjectMapping)
    (deletedFaStoreEvents : Table String FungibleAssetStoreDeletionEvent) :
    Option (Option FungibleAssetActivity) := do
  let some faEvent ← FungibleAssetEvent.fromEvent sdk.toSdk event.typeStr event.data
    | return none
  let (storageId, isFrozen, amount) ← fungibleEventStore sdk event faEvent
  let (ownerAddress, assetType) := storeOwnerAndAsset sdk objects deletedFaStoreEvents storageId
  return some {
    transactionVersion := ctx.txnVersion
    eventIndex := eventIndex
    ownerAddress
    storageId
    assetType
    isFrozen
    amount
    eventType := event.typeStr
    isGasFee := false
    gasFeePayerAddress := none
    isTransactionSuccess := true
    entryFunctionIdStr := ctx.entryFunctionIdStr
    blockHeight := ctx.blockHeight
    tokenStandard := .v2
    transactionTimestamp := ctx.txnTimestamp
    storageRefundAmount := 0 }

/-! ## The activities of a transaction -/

/-- What loops 1 to 3 collect for the later ones. -/
structure Collected where
  fungibleAssetObjectHelper : FungibleObjectMapping
  deletedFaStoreEvents : Table String FungibleAssetStoreDeletionEvent
  eventToV1CoinType : EventToCoinType
  ownerAddressToDeletedCoinType : OwnerAddressToCoinType

def collect (sdk : AssetSdk) (ctx : TxnContext) : Option Collected := do
  let objects ← fungibleAssetObjectHelper sdk ctx.transactionInfo.changes
  let deletedFaStoreEvents ← deletedStoresOf sdk.toCoinSdk (ctx.events.map Stream.Event.toProtos)
  let coinTypes ← eventToV1CoinType sdk.toCoinSdk ctx.transactionInfo.changes
  let deletedCoinTypes ← ownerAddressToDeletedCoinType sdk.toCoinSdk ctx.transactionInfo.changes
  return ⟨objects, deletedFaStoreEvents, coinTypes, deletedCoinTypes⟩

/-- The artificial gas event, of user transactions. -/
def gasActivities (sdk : AssetSdk) (ctx : TxnContext) : Option (List FungibleAssetActivity) :=
  match ctx.userRequest with
  | none => some []
  | some request => do
    let feeStatement ← findFeeStatement sdk.toSdk
      (ctx.events.map fun event => (event.typeStr, event.data))
    let gasEvent ← getGasEvent sdk ctx request feeStatement
    return [gasEvent]

/-- The body of loop 4. -/
def eventActivities (sdk : AssetSdk) (ctx : TxnContext) (collected : Collected)
    (event : Stream.Event × ℕ) : Option (List FungibleAssetActivity) := do
  let v1Activity ← getV1FromEvent sdk ctx event.1 event.2 collected.eventToV1CoinType
    collected.ownerAddressToDeletedCoinType
  let v2Activity ← getV2FromEvent sdk ctx event.1 event.2 collected.fungibleAssetObjectHelper
    collected.deletedFaStoreEvents
  return v1Activity.toList ++ v2Activity.toList

/-- The activities of a transaction. -/
def transactionActivities (sdk : AssetSdk) (ctx : TxnContext) (collected : Collected) :
    Option (List FungibleAssetActivity) := do
  let gas ← gasActivities sdk ctx
  let rows ← ctx.events.zipIdx.mapM (eventActivities sdk ctx collected)
  return gas ++ rows.flatten

end IndexerProcessors.FungibleAsset

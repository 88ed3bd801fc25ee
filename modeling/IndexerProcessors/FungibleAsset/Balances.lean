import IndexerProcessors.Lib.Fallible
import IndexerProcessors.Lib.LastWriter
import IndexerProcessors.Lib.Numeric
import IndexerProcessors.Resources

/-!
# Fungible asset balances

`parse_v2_coin` as far as it makes balances, and the unified rows made of them.
A V1 balance is a coin store, a V2 balance a fungible store; a coin and the
primary store of its paired fungible asset have the same `storage_id`, and so
share a row of `current_fungible_asset_balances`.

Transactions are parsed one by one, each from nothing, and their balances put
together in order. Within a transaction the coin stores come first: they are
read in the loop that collects the metadata, the fungible stores in the last.
Activities, metadata and supplies do not feed back into balances and are left
out, as are the panics of their parsers: a batch that panics is not stored.
-/

namespace IndexerProcessors.FungibleAsset

open IndexerProcessors.Lib
open IndexerProcessors.Protos

/-- What the fungible asset processor calls outside the repository, beyond `Sdk`. -/
structure CoinSdk extends Sdk where
  /-- `chrono::NaiveDateTime::from_timestamp_opt`. -/
  fromTimestampOpt : Int64 → UInt32 → Option NaiveDateTime
  /-- `sha3_256`. -/
  sha3 : List UInt8 → List UInt8
  /-- `hex::encode`. -/
  hexEncode : List UInt8 → String
  /-- `hex_to_raw_bytes`. -/
  hexToRawBytes : String → Option (List UInt8)
  /-- The value of an `Aggregator`. -/
  aggregatorValue : Json → Option ℚ
  /-- `APTOS_COIN_TYPE_STR`. -/
  aptosCoinTypeStr : String
  /-- `APT_METADATA_ADDRESS_HEX`. -/
  aptMetadataAddressHex : String
  /-- `APT_METADATA_ADDRESS_RAW`. -/
  aptMetadataAddressRaw : List UInt8

structure FungibleAssetBalance where
  transactionVersion : Int64
  writeSetChangeIndex : Int64
  storageId : String
  ownerAddress : String
  assetType : String
  isPrimary : Bool
  isFrozen : Bool
  amount : ℚ
  transactionTimestamp : NaiveDateTime
  tokenStandard : TokenStandard
  deriving DecidableEq, Repr

/-- `get_paired_metadata_address`. -/
def getPairedMetadataAddress (sdk : CoinSdk) (coinTypeName : String) : String :=
  if coinTypeName = sdk.aptosCoinTypeStr then sdk.aptMetadataAddressHex
  else
    let preimage := sdk.aptMetadataAddressRaw ++ coinTypeName.toUTF8.toList ++ [0xFE]
    "0x" ++ sdk.hexEncode (sdk.sha3 preimage)

/-- `get_primary_fungible_store_address`. -/
def getPrimaryFungibleStoreAddress (sdk : CoinSdk) (ownerAddress metadataAddress : String) :
    Option String := do
  let owner ← sdk.hexToRawBytes ownerAddress
  let metadata ← sdk.hexToRawBytes metadataAddress
  return sdk.standardizeAddress (sdk.hexEncode (sdk.sha3 (owner ++ metadata ++ [0xFC])))

/-! ## Coin stores -/

/-- The second group of the regular expression `(<(.*)>)`: from the first `<` to
the last `>`. Types are written without line breaks, which `.` would not match. -/
def captureTypeArguments (text : List Char) : Option (List Char) :=
  let inner := (text.dropWhile (· ≠ '<')).drop 1
  let reversed := inner.reverse.dropWhile (· ≠ '>')
  if reversed = [] then none else some (reversed.drop 1).reverse

/-- `CoinInfoType::from_move_type`, the coin type. It panics without a struct as
the first type argument, and if the text has no type arguments. -/
def coinTypeFromMoveType (genericTypeParams : List MoveType) (moveTypeStr : String) :
    Option String :=
  match genericTypeParams with
  | .struct _ :: _ => (captureTypeArguments moveTypeStr.toList).map String.ofList
  | _ => none

/-- `CoinInfoType::get_coin_type_below_max`, with `COIN_TYPE_MAX`. -/
def getCoinTypeBelowMax (coinType : String) : Option String :=
  if coinType.utf8ByteSize > 1000 then none else some coinType

/-- The type of a coin store. -/
def typeCoinStore : String := coinAddr ++ "::coin::CoinStore"

structure CoinStoreResource where
  coinValue : ℚ
  frozen : Bool

def CoinStoreResource.ofJson (sdk : Sdk) (v : Json) : Option CoinStoreResource := do
  let coinValue ← (← v.get "coin").getBigDecimal sdk "value"
  let frozen ← v.getBool "frozen"
  return { coinValue, frozen }

/-- The balance of a coin store at `address`. The outer `none` is a panic. -/
def coinBalance (sdk : CoinSdk) (address coinType : String) (isFrozen : Bool) (amount : ℚ)
    (writeSetChangeIndex txnVersion : Int64) (txnTimestamp : NaiveDateTime) :
    Option FungibleAssetBalance := do
  let ownerAddress := sdk.standardizeAddress address
  let metadataAddr := getPairedMetadataAddress sdk coinType
  let storageId ← getPrimaryFungibleStoreAddress sdk ownerAddress metadataAddr
  return {
    transactionVersion := txnVersion
    writeSetChangeIndex
    storageId
    ownerAddress
    assetType := coinType
    isPrimary := true
    isFrozen
    amount
    transactionTimestamp := txnTimestamp
    tokenStandard := .v1 }

/-- `FungibleAssetBalance::get_v1_from_write_resource`, the balance. -/
def getV1FromWriteResource (sdk : CoinSdk) (wr : WriteResource)
    (genericTypeParams : List MoveType) (writeSetChangeIndex txnVersion : Int64)
    (txnTimestamp : NaiveDateTime) : Option (Option FungibleAssetBalance) := do
  let some inner ← fromWriteResource sdk.toSdk typeCoinStore (CoinStoreResource.ofJson sdk.toSdk) wr
    | return none
  let coinInfoType ← coinTypeFromMoveType genericTypeParams wr.typeStr
  let some coinType := getCoinTypeBelowMax coinInfoType
    | return none
  let balance ← coinBalance sdk wr.address coinType inner.frozen inner.coinValue
    writeSetChangeIndex txnVersion txnTimestamp
  return some balance

/-- `FungibleAssetBalance::get_v1_from_delete_resource`, the balance. -/
def getV1FromDeleteResource (sdk : CoinSdk) (dr : DeleteResource)
    (genericTypeParams : List MoveType) (writeSetChangeIndex txnVersion : Int64)
    (txnTimestamp : NaiveDateTime) : Option (Option FungibleAssetBalance) := do
  if getOuterTypeFromDeleteResource sdk.toSdk dr ≠ typeCoinStore then return none
  let coinInfoType ← coinTypeFromMoveType genericTypeParams dr.typeStr
  let some coinType := getCoinTypeBelowMax coinInfoType
    | return none
  let balance ← coinBalance sdk dr.address coinType false 0 writeSetChangeIndex txnVersion
    txnTimestamp
  return some balance

/-! ## Fungible stores -/

/-- What balances use of an `ObjectAggregatedData`. -/
structure ObjectAggregatedData where
  objectCore : ObjectCore
  concurrentFungibleAssetBalance : Option ℚ

abbrev ObjectAggregatedDataMapping := Table String ObjectAggregatedData

structure FungibleAssetStore where
  metadata : String
  balance : ℚ
  frozen : Bool

/-- A store, with the address its metadata refers to. -/
def FungibleAssetStore.ofJson (sdk : Sdk) (v : Json) : Option FungibleAssetStore := do
  let metadata ← v.getReferenceAddress sdk "metadata"
  let balance ← v.getBigDecimal sdk "balance"
  let frozen ← v.getBool "frozen"
  return { metadata, balance, frozen }

/-- `TYPE_FUNGIBLE_ASSET_STORE`. -/
def typeFungibleAssetStore : String := coinAddr ++ "::fungible_asset::FungibleStore"

/-- `TYPE_CONCURRENT_FUNGIBLE_ASSET_BALANCE`. -/
def typeConcurrentFungibleAssetBalance : String :=
  coinAddr ++ "::fungible_asset::ConcurrentFungibleBalance"

/-- `FungibleAssetBalance::is_primary`. -/
def isPrimary (sdk : CoinSdk) (ownerAddress metadataAddress fungibleStoreAddress : String) :
    Option Bool :=
  (getPrimaryFungibleStoreAddress sdk ownerAddress metadataAddress).map fun address =>
    fungibleStoreAddress = address

/-- `FungibleAssetBalance::get_v2_from_write_resource`. -/
def getV2FromWriteResource (sdk : CoinSdk) (wr : WriteResource)
    (writeSetChangeIndex txnVersion : Int64) (txnTimestamp : NaiveDateTime)
    (objectMetadatas : ObjectAggregatedDataMapping) : Option (Option FungibleAssetBalance) := do
  let some inner ← fromWriteResource sdk.toSdk typeFungibleAssetStore
    (FungibleAssetStore.ofJson sdk.toSdk) wr
    | return none
  let storageId := sdk.standardizeAddress wr.address
  let some objectData := objectMetadatas.lookup storageId
    | return none
  let ownerAddress := objectData.objectCore.getOwnerAddress sdk.toSdk
  let primary ← isPrimary sdk ownerAddress inner.metadata storageId
  return some {
    transactionVersion := txnVersion
    writeSetChangeIndex
    storageId
    ownerAddress
    assetType := inner.metadata
    isPrimary := primary
    isFrozen := inner.frozen
    amount := objectData.concurrentFungibleAssetBalance.getD inner.balance
    transactionTimestamp := txnTimestamp
    tokenStandard := .v2 }

/-- `FungibleAssetStoreDeletionEvent`. -/
structure FungibleAssetStoreDeletionEvent where
  metadata : String
  owner : String
  store : String

def FungibleAssetStoreDeletionEvent.ofJson (v : Json) : Option FungibleAssetStoreDeletionEvent := do
  let metadata ← v.getStr "metadata"
  let owner ← v.getStr "owner"
  let store ← v.getStr "store"
  return { metadata, owner, store }

/-- The type of deletion events. -/
def deletionType : String := "0x1::fungible_asset::FungibleStoreDeletion"

/-- `FungibleAssetStoreDeletionEvent::from_event`. -/
def FungibleAssetStoreDeletionEvent.fromEvent (sdk : Sdk) (event : Protos.Event) :
    Option (Option FungibleAssetStoreDeletionEvent) :=
  if event.typeStr = deletionType then
    ((sdk.fromStr event.data).bind FungibleAssetStoreDeletionEvent.ofJson).map some
  else some none

/-- `FungibleAssetBalance::get_v2_from_delete_resource`. The events are filed
under the store's address as the event has it. -/
def getV2FromDeleteResource (sdk : CoinSdk) (dr : DeleteResource)
    (writeSetChangeIndex txnVersion : Int64) (txnTimestamp : NaiveDateTime)
    (deletedFaStoreEvents : Table String FungibleAssetStoreDeletionEvent) :
    Option FungibleAssetBalance := do
  guard (dr.typeStr = "0x1::object::ObjectGroup")
  let resourceAddress := sdk.standardizeAddress dr.address
  let event ← deletedFaStoreEvents.lookup resourceAddress
  return {
    transactionVersion := txnVersion
    writeSetChangeIndex
    storageId := resourceAddress
    ownerAddress := sdk.standardizeAddress event.owner
    assetType := sdk.standardizeAddress event.metadata
    isPrimary := false
    isFrozen := false
    amount := 0
    transactionTimestamp := txnTimestamp
    tokenStandard := .v2 }

/-! ## One transaction -/

/-- The events of a transaction; a user transaction without a request panics. -/
def eventsOf : Protos.TxnData → Option (List Protos.Event)
  | .blockMetadata events | .validator events | .genesis events => some events
  | .user request events => request.map fun _ => events
  | .other => some []

/-- Loop 1: the objects, by address. -/
def objectsOf (sdk : CoinSdk) (changes : List Protos.Change) :
    Option ObjectAggregatedDataMapping := do
  let objects ← changes.mapM fun change =>
    match change with
    | .writeResource wr _ =>
      (objectCoreFromWriteResource sdk.toSdk wr).map fun core =>
        core.map fun core => (sdk.standardizeAddress wr.address, ObjectAggregatedData.mk core none)
    | _ => some none
  return Table.insertAll ∅ objects.reduceOption

/-- Loop 2: the deleted stores, by address. -/
def deletedStoresOf (sdk : CoinSdk) (events : List Protos.Event) :
    Option (Table String FungibleAssetStoreDeletionEvent) := do
  let deletions ← events.mapM (FungibleAssetStoreDeletionEvent.fromEvent sdk.toSdk)
  return Table.insertAll ∅ (deletions.reduceOption.map fun event => (event.store, event))

/-- Loop 3, the fungible part: concurrent balances go to their objects. -/
def withConcurrentBalance (sdk : CoinSdk) (objects : ObjectAggregatedDataMapping)
    (change : Protos.Change) : Option ObjectAggregatedDataMapping :=
  match change with
  | .writeResource wr _ =>
    let address := sdk.standardizeAddress wr.address
    match objects.lookup address with
    | none => some objects
    | some data => do
      let some balance ← fromWriteResource sdk.toSdk typeConcurrentFungibleAssetBalance
        (fun v => (v.get "balance").bind sdk.aggregatorValue) wr
        | return objects
      return objects.insert address { data with concurrentFungibleAssetBalance := some balance }
  | _ => some objects

/-- Loop 3, the coin part: the balance of a coin store. -/
def v1BalanceOf (sdk : CoinSdk) (txnVersion : Int64) (txnTimestamp : NaiveDateTime)
    (change : Protos.Change × ℕ) : Option (Option FungibleAssetBalance) :=
  match change.1 with
  | .writeResource wr params =>
    getV1FromWriteResource sdk wr params (Int64.ofNat change.2) txnVersion txnTimestamp
  | .deleteResource dr params =>
    getV1FromDeleteResource sdk dr params (Int64.ofNat change.2) txnVersion txnTimestamp
  | _ => some none

/-- Loop 5, the balance of a fungible store. -/
def v2BalanceOf (sdk : CoinSdk) (txnVersion : Int64) (txnTimestamp : NaiveDateTime)
    (objects : ObjectAggregatedDataMapping)
    (deletedFaStoreEvents : Table String FungibleAssetStoreDeletionEvent)
    (change : Protos.Change × ℕ) : Option (Option FungibleAssetBalance) :=
  match change.1 with
  | .writeResource wr _ =>
    getV2FromWriteResource sdk wr (Int64.ofNat change.2) txnVersion txnTimestamp objects
  | .deleteResource dr _ =>
    some (getV2FromDeleteResource sdk dr (Int64.ofNat change.2) txnVersion txnTimestamp
      deletedFaStoreEvents)
  | _ => some none

/-- The balances of a transaction, in the order `parse_v2_coin` makes them. -/
def transactionBalances (sdk : CoinSdk) (txn : Protos.Transaction) :
    Option (List FungibleAssetBalance) :=
  match txn.txnData with
  | none => some []
  | some txnData => do
    let changes ← txn.info
    let timestamp ← txn.timestamp
    let txnTimestamp ← sdk.fromTimestampOpt timestamp.seconds 0
    let events ← eventsOf txnData
    let objects ← objectsOf sdk changes
    let deletedFaStoreEvents ← deletedStoresOf sdk events
    -- All coin balances come before all fungible ones, whatever the changes' order.
    let v1 ← changes.zipIdx.mapM (v1BalanceOf sdk txn.txnVersion txnTimestamp)
    let objects ← changes.foldlM (withConcurrentBalance sdk) objects
    let v2 ← changes.zipIdx.mapM
      (v2BalanceOf sdk txn.txnVersion txnTimestamp objects deletedFaStoreEvents)
    return v1.reduceOption ++ v2.reduceOption

/-- The balances of a batch. -/
def fungibleAssetBalances (sdk : CoinSdk) (transactions : List Protos.Transaction) :
    Option (List FungibleAssetBalance) := do
  let balances ← transactions.mapM (transactionBalances sdk)
  return balances.flatten

/-! ## Unified balances -/

structure CurrentUnifiedFungibleAssetBalance where
  storageId : String
  ownerAddress : String
  assetTypeV1 : Option String
  assetTypeV2 : Option String
  isPrimary : Bool
  isFrozen : Bool
  amountV1 : Option ℚ
  amountV2 : Option ℚ
  lastTransactionVersionV1 : Option Int64
  lastTransactionVersionV2 : Option Int64
  lastTransactionTimestampV1 : Option NaiveDateTime
  lastTransactionTimestampV2 : Option NaiveDateTime
  deriving DecidableEq, Repr

/-- `from_balance`; `getAssetTypeV1` is `FungibleAssetToCoinMapping::get_asset_type_v1`
with the mappings known at the time. -/
def CurrentUnifiedFungibleAssetBalance.fromBalance (getAssetTypeV1 : String → Option String)
    (fab : FungibleAssetBalance) : CurrentUnifiedFungibleAssetBalance :=
  match fab.tokenStandard with
  | .v2 =>
    { storageId := fab.storageId
      ownerAddress := fab.ownerAddress
      assetTypeV1 := getAssetTypeV1 fab.assetType
      assetTypeV2 := some fab.assetType
      isPrimary := fab.isPrimary
      isFrozen := fab.isFrozen
      amountV1 := none
      amountV2 := some fab.amount
      lastTransactionVersionV1 := none
      lastTransactionVersionV2 := some fab.transactionVersion
      lastTransactionTimestampV1 := none
      lastTransactionTimestampV2 := some fab.transactionTimestamp }
  | .v1 =>
    { storageId := fab.storageId
      ownerAddress := fab.ownerAddress
      assetTypeV1 := some fab.assetType
      assetTypeV2 := none
      isPrimary := true
      isFrozen := fab.isFrozen
      amountV1 := some fab.amount
      amountV2 := none
      lastTransactionVersionV1 := some fab.transactionVersion
      lastTransactionVersionV2 := none
      lastTransactionTimestampV1 := some fab.transactionTimestamp
      lastTransactionTimestampV2 := none }

/-- One of the two maps of `from_fungible_asset_balances`. -/
def unifiedMapping (getAssetTypeV1 : String → Option String) (standard : TokenStandard)
    (balances : List FungibleAssetBalance) : Table String CurrentUnifiedFungibleAssetBalance :=
  Table.insertAll ∅ ((balances.filter fun fab => fab.tokenStandard = standard).map fun fab =>
    (fab.storageId, CurrentUnifiedFungibleAssetBalance.fromBalance getAssetTypeV1 fab))

end IndexerProcessors.FungibleAsset

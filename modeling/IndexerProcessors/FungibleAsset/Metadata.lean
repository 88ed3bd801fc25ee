import IndexerProcessors.FungibleAsset.Activities

/-!
# Fungible asset metadata, mappings and supplies

The last loop of `parse_v2_coin`. A `CoinInfo` makes the metadata of its coin type and
the mapping from the paired fungible asset to the coin; a fungible asset's `Metadata`
makes metadata if its object is written too, with the supply that the object has; and an
item of the one table of aggregators that is known makes a supply of the native coin.
-/

namespace IndexerProcessors.FungibleAsset

open IndexerProcessors.Lib
open IndexerProcessors.Protos

/-! ## Metadata of coins -/

/-- `COIN_RESOURCES`, the type of a coin info. -/
def typeCoinInfo : String := coinAddr ++ "::coin::CoinInfo"

/-- Where an aggregator keeps its value. -/
structure AggregatorResource where
  handle : String
  key : String
  deriving DecidableEq

def AggregatorResource.ofJson (v : Json) : Option AggregatorResource := do
  let handle ← v.getStr "handle"
  let key ← v.getStr "key"
  return { handle, key }

/-- The items of a member `vec`. -/
def vecItems (v : Json) : Option (List Json) := (v.get "vec").bind Json.asArray

/-- `OptionalAggregatorResource`, with the aggregators of its wrapper. An integer in it
is parsed and not read. -/
structure OptionalAggregatorResource where
  aggregator : List AggregatorResource

def OptionalAggregatorResource.ofJson (sdk : Sdk) (v : Json) : Option OptionalAggregatorResource := do
  let aggregator ← (← vecItems (← v.get "aggregator")).mapM AggregatorResource.ofJson
  let _ ← (← vecItems (← v.get "integer")).mapM fun item => item.getBigDecimal sdk "value"
  return { aggregator }

structure CoinInfoResource where
  name : String
  symbol : String
  decimals : Int32
  supply : List OptionalAggregatorResource

def CoinInfoResource.ofJson (sdk : AssetSdk) (v : Json) : Option CoinInfoResource := do
  let name ← v.getStr "name"
  let symbol ← v.getStr "symbol"
  let decimals ← (v.get "decimals").bind sdk.i32
  let supply ← (← vecItems (← v.get "supply")).mapM (OptionalAggregatorResource.ofJson sdk.toSdk)
  return { name, symbol, decimals, supply }

/-- `CoinInfoResource::get_aggregator_metadata`. -/
def CoinInfoResource.getAggregatorMetadata (info : CoinInfoResource) : Option AggregatorResource :=
  info.supply.head?.bind (·.aggregator.head?)

/-- A row of `fungible_asset_metadata`; `is_token_v2` is never set. -/
structure FungibleAssetMetadataModel where
  assetType : String
  creatorAddress : String
  name : String
  symbol : String
  decimals : Int32
  iconUri : Option String
  projectUri : Option String
  lastTransactionVersion : Int64
  lastTransactionTimestamp : NaiveDateTime
  supplyAggregatorTableHandleV1 : Option String
  supplyAggregatorTableKeyV1 : Option String
  tokenStandard : TokenStandard
  supplyV2 : Option ℚ
  maximumV2 : Option ℚ
  deriving DecidableEq

/-- `CoinInfoType::get_creator_address` of the coin type that is the first argument. -/
def creatorAddressOf (sdk : AssetSdk) : List MoveType → Option String
  | .struct tag :: _ => some (sdk.standardizeAddress tag.address)
  | _ => none

/-- `FungibleAssetMetadataModel::get_v1_from_write_resource`. -/
def FungibleAssetMetadataModel.getV1FromWriteResource (sdk : AssetSdk) (wr : WriteResource)
    (genericTypeParams : List MoveType) (txnVersion : Int64) (txnTimestamp : NaiveDateTime) :
    Option (Option FungibleAssetMetadataModel) := do
  let some inner ← fromWriteResource sdk.toSdk typeCoinInfo (CoinInfoResource.ofJson sdk) wr
    | return none
  let coinType ← coinTypeFromMoveType genericTypeParams wr.typeStr
  let creatorAddress ← creatorAddressOf sdk genericTypeParams
  let some assetType := getCoinTypeBelowMax coinType
    | return none
  return some {
    assetType
    creatorAddress
    name := sdk.truncateStr inner.name 32
    symbol := sdk.truncateStr inner.symbol 32
    decimals := inner.decimals
    iconUri := none
    projectUri := none
    lastTransactionVersion := txnVersion
    lastTransactionTimestamp := txnTimestamp
    supplyAggregatorTableHandleV1 := inner.getAggregatorMetadata.map (·.handle)
    supplyAggregatorTableKeyV1 := inner.getAggregatorMetadata.map (·.key)
    tokenStandard := .v1
    supplyV2 := none
    maximumV2 := none }

/-! ## Metadata of fungible assets -/

/-- The maximum and the supply of an object. -/
def FungibleObject.maximumAndSupply (data : FungibleObject) : Option ℚ × Option ℚ :=
  match data.fungibleAssetSupply, data.concurrentFungibleAssetSupply with
  | some supply, _ => (supply.getMaximum, some supply.current)
  | none, some supply => (some supply.maxValue, some supply.value)
  | none, none => (none, none)

/-- `URI_LENGTH`. -/
def uriLength : ℕ := 512

/-- `FungibleAssetMetadataModel::get_v2_from_write_resource`, with the lengths of
`FUNGIBLE_ASSET_LENGTH` and `FUNGIBLE_ASSET_SYMBOL`. -/
def FungibleAssetMetadataModel.getV2FromWriteResource (sdk : AssetSdk) (wr : WriteResource)
    (txnVersion : Int64) (txnTimestamp : NaiveDateTime) (objectMetadatas : FungibleObjectMapping) :
    Option (Option FungibleAssetMetadataModel) := do
  let some inner ← fromWriteResource sdk.toSdk typeFungibleAssetMetadata
    (FungibleAssetMetadata.ofJson sdk) wr
    | return none
  let assetType := sdk.standardizeAddress wr.address
  let some objectMetadata := objectMetadatas.lookup assetType
    | return none
  let (maximumV2, supplyV2) := objectMetadata.maximumAndSupply
  return some {
    assetType
    creatorAddress := objectMetadata.objectCore.getOwnerAddress sdk.toSdk
    name := sdk.truncateStr inner.name 32
    symbol := sdk.truncateStr inner.symbol 32
    decimals := inner.decimals
    iconUri := some (sdk.truncateStr inner.iconUri uriLength)
    projectUri := some (sdk.truncateStr inner.projectUri uriLength)
    lastTransactionVersion := txnVersion
    lastTransactionTimestamp := txnTimestamp
    supplyAggregatorTableHandleV1 := none
    supplyAggregatorTableKeyV1 := none
    tokenStandard := .v2
    supplyV2
    maximumV2 }

/-- A row of `fungible_asset_to_coin_mappings`. -/
structure FungibleAssetToCoinMapping where
  fungibleAssetMetadataAddress : String
  coinType : String
  lastTransactionVersion : Int64
  deriving DecidableEq

/-- `FungibleAssetToCoinMapping::from_raw_fungible_asset_metadata`. -/
def FungibleAssetToCoinMapping.fromRawFungibleAssetMetadata (sdk : CoinSdk)
    (metadata : FungibleAssetMetadataModel) : FungibleAssetToCoinMapping where
  fungibleAssetMetadataAddress := getPairedMetadataAddress sdk metadata.assetType
  coinType := metadata.assetType
  lastTransactionVersion := metadata.lastTransactionVersion

/-! ## Supplies -/

/-- `APTOS_COIN_SUPPLY_TABLE_HANDLE`. -/
def aptosCoinSupplyTableHandle : String :=
  "0x1b854694ae746cdbd8d44186ca4929b2b337df21d1c74633be19b2710552fdca"

/-- `APTOS_COIN_SUPPLY_TABLE_KEY`. -/
def aptosCoinSupplyTableKey : String :=
  "0x619dc29a0aac8fa146714058e8dd6d2d0f3bdf5f6331907bf91f3acd81e6935"

/-- A row of `coin_supply`. -/
structure CoinSupply where
  transactionVersion : Int64
  coinTypeHash : String
  coinType : String
  supply : ℚ
  transactionTimestamp : NaiveDateTime
  transactionEpoch : Int64
  deriving DecidableEq

/-- `CoinSupply::from_write_table_item`. The key and the value are parsed once the handle
is that of the table. -/
def CoinSupply.fromWriteTableItem (sdk : AssetSdk) (item : WriteTableItem) (txnVersion : Int64)
    (txnTimestamp : NaiveDateTime) (txnEpoch : Int64) : Option (Option CoinSupply) :=
  match item.data with
  | none => some none
  | some data =>
    if ¬ (data.keyType = "address" ∧ data.valueType = "u128") then some none
    else if item.handle ≠ aptosCoinSupplyTableHandle then some none
    else do
      let decodedKey ← sdk.fromStr data.key
      let decodedValue ← sdk.fromStr data.value
      let tableKey ← decodedKey.asStr
      if tableKey ≠ aptosCoinSupplyTableKey then return none
      let supply ← decodedValue.asStr.bind sdk.bigDecimal
      return some {
        transactionVersion := txnVersion
        coinTypeHash := sdk.hashStr sdk.aptosCoinTypeStr
        coinType := sdk.aptosCoinTypeStr
        supply
        transactionTimestamp := txnTimestamp
        transactionEpoch := txnEpoch }

/-! ## The last loop of a transaction -/

/-- The metadata of a change, that of a coin first. -/
def metadataOf (sdk : AssetSdk) (ctx : TxnContext) (objects : FungibleObjectMapping)
    (change : Protos.Change) : Option (List FungibleAssetMetadataModel) :=
  match change with
  | .writeResource wr params => do
    let v1 ← FungibleAssetMetadataModel.getV1FromWriteResource sdk wr params ctx.txnVersion
      ctx.txnTimestamp
    let v2 ← FungibleAssetMetadataModel.getV2FromWriteResource sdk wr ctx.txnVersion
      ctx.txnTimestamp objects
    return v1.toList ++ v2.toList
  | _ => some []

/-- The metadata of a transaction, in the order in which it is put in the map. -/
def transactionMetadata (sdk : AssetSdk) (ctx : TxnContext) (objects : FungibleObjectMapping) :
    Option (List FungibleAssetMetadataModel) := do
  let metadata ← ctx.transactionInfo.changes.mapM (metadataOf sdk ctx objects)
  return metadata.flatten

/-- The mapping of a change, which is that of its coin metadata. -/
def mappingOf (sdk : AssetSdk) (ctx : TxnContext) (change : Protos.Change) :
    Option (Option FungibleAssetToCoinMapping) :=
  match change with
  | .writeResource wr params =>
    (FungibleAssetMetadataModel.getV1FromWriteResource sdk wr params ctx.txnVersion
      ctx.txnTimestamp).map fun metadata =>
        metadata.map (FungibleAssetToCoinMapping.fromRawFungibleAssetMetadata sdk.toCoinSdk)
  | _ => some none

/-- The mappings of a transaction. -/
def transactionMappings (sdk : AssetSdk) (ctx : TxnContext) :
    Option (List FungibleAssetToCoinMapping) := do
  let mappings ← ctx.transactionInfo.changes.mapM (mappingOf sdk ctx)
  return mappings.reduceOption

/-- The supply of a change. -/
def coinSupplyOf (sdk : AssetSdk) (ctx : TxnContext) (change : Protos.Change) :
    Option (Option CoinSupply) :=
  match change with
  | .writeTableItem item =>
    CoinSupply.fromWriteTableItem sdk item ctx.txnVersion ctx.txnTimestamp ctx.txnEpoch
  | _ => some none

/-- The supplies of a transaction. -/
def transactionCoinSupply (sdk : AssetSdk) (ctx : TxnContext) : Option (List CoinSupply) := do
  let supplies ← ctx.transactionInfo.changes.mapM (coinSupplyOf sdk ctx)
  return supplies.reduceOption

end IndexerProcessors.FungibleAsset

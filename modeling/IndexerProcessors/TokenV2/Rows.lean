import IndexerProcessors.TokenV2.Storer
import IndexerProcessors.TokenV2.Utils

/-!
# Token data and ownership rows

The current rows `v2_token_datas.rs` and `v2_token_ownerships.rs` make of a
change. An object token is found by a write of its `Token` resource, if the
object's core is known; its row of the holder comes from the core, and transfer
events give the rows of former holders. A burned token is found by its burn
event at any change of a resource at its address. The holder to be zeroed is the
event's previous owner, or the owner in a core that is still there, or, for old
events, the last one seen in the batch or else in the database.

`ownerLookup` stands for `get_latest_owned_nft_by_token_data_id` at this change:
the owner its query finds, if it does within the retries.
-/

namespace IndexerProcessors.TokenV2

open IndexerProcessors.Lib
open IndexerProcessors.Protos

/-- `TYPE_TOKEN_V2`. -/
def typeTokenV2 : String := tokenV2Addr ++ "::token::Token"

/-- `TYPE_TOKEN_IDENTIFIERS`. -/
def typeTokenIdentifiers : String := tokenV2Addr ++ "::token::TokenIdentifiers"

/-- `TYPE_PROPERTY_MAP`. -/
def typePropertyMap : String := tokenV2Addr ++ "::property_map::PropertyMap"

/-- `TYPE_UNTRANSFERABLE`. -/
def typeUntransferable : String := coinAddr ++ "::object::Untransferable"

/-- `TYPE_FUNGIBLE_ASSET_METADATA`. -/
def typeFungibleAssetMetadata : String := coinAddr ++ "::fungible_asset::Metadata"

/-- What token rows use of an `ObjectAggregatedData`. Of the untransferable and
the fungible asset struct only the presence counts. -/
structure ObjectAggregatedData where
  objectCore : ObjectCore
  transferEvents : List TransferEvent
  untransferable : Bool
  fungibleAssetMetadata : Bool
  propertyMap : Option Json
  tokenIdentifier : Option String

abbrev ObjectAggregatedDataMapping := Table String ObjectAggregatedData

/-- The burn events of a transaction, by token address. -/
abbrev TokenV2Burned := Table String Burn

/-- `TokenV2`, with the address its collection refers to. -/
structure V2Token where
  collection : String
  description : String
  name : String
  uri : String

def V2Token.ofJson (sdk : TokenSdk) (v : Json) : Option V2Token := do
  let collection ← v.getReferenceAddress sdk.toSdk "collection"
  let description ← v.getStr "description"
  let name ← v.getStr "name"
  let uri ← v.getStr "uri"
  return { collection, description, name, uri }

/-! ## Token data -/

/-- `TokenDataV2::get_v2_from_write_resource`, the current row. -/
def getV2FromWriteResource (sdk : TokenSdk) (wr : WriteResource) (txnVersion : Int64)
    (txnTimestamp : NaiveDateTime) (objectMetadatas : ObjectAggregatedDataMapping) :
    Option (Option CurrentTokenDataV2) := do
  let some inner ← fromWriteResource sdk.toSdk typeTokenV2 (V2Token.ofJson sdk) wr
    | return none
  let tokenDataId := sdk.standardizeAddress wr.address
  -- Without an object core the token is passed over.
  let some objectMetadata := objectMetadatas.lookup tokenDataId
    | return none
  return some {
    tokenDataId
    collectionId := inner.collection
    tokenName := sdk.truncateStr (objectMetadata.tokenIdentifier.getD inner.name) nameLength
    maximum := none
    supply := none
    largestPropertyVersionV1 := none
    tokenUri := sdk.truncateStr inner.uri uriLength
    tokenProperties := objectMetadata.propertyMap.getD .null
    description := inner.description
    tokenStandard := .v2
    isFungibleV2 := some objectMetadata.fungibleAssetMetadata
    lastTransactionVersion := txnVersion
    lastTransactionTimestamp := txnTimestamp
    decimals := none
    isDeletedV2 := some false }

/-- `TokenDataV2::get_burned_nft_v2_from_write_resource` and
`get_burned_nft_v2_from_delete_resource`, which do the same at a resource's
address. The row is a stub: only its version and flag are stored over a row. -/
def getBurnedNftV2Data (sdk : TokenSdk) (address : String) (txnVersion : Int64)
    (txnTimestamp : NaiveDateTime) (tokensBurned : TokenV2Burned) : Option CurrentTokenDataV2 :=
  let tokenDataId := sdk.standardizeAddress address
  (tokensBurned.lookup (sdk.standardizeAddress tokenDataId)).map fun burnEvent =>
    { tokenDataId
      collectionId := burnEvent.getCollectionAddress sdk
      tokenName := ""
      maximum := none
      supply := none
      largestPropertyVersionV1 := none
      tokenUri := ""
      tokenProperties := .null
      description := ""
      tokenStandard := .v2
      isFungibleV2 := some false
      lastTransactionVersion := txnVersion
      lastTransactionTimestamp := txnTimestamp
      decimals := none
      isDeletedV2 := some true }

/-- The row of a V1 token's data. -/
def v1TokenData (sdk : TokenSdk) (id : TokenDataIdType) (tokenData : TokenDataType)
    (txnVersion : Int64) (txnTimestamp : NaiveDateTime) : CurrentTokenDataV2 where
  tokenDataId := id.toId sdk
  collectionId := id.getCollectionId sdk
  tokenName := sdk.truncateStr id.name nameLength
  maximum := some tokenData.maximum
  supply := some tokenData.supply
  largestPropertyVersionV1 := some tokenData.largestPropertyVersion
  tokenUri := sdk.truncateStr tokenData.uri uriLength
  tokenProperties := tokenData.defaultProperties
  description := tokenData.description
  tokenStandard := .v1
  isFungibleV2 := none
  lastTransactionVersion := txnVersion
  lastTransactionTimestamp := txnTimestamp
  decimals := none
  isDeletedV2 := none

/-- `TokenDataV2::get_v1_from_write_table_item`, the current row. -/
def getV1DataFromWriteTableItem (sdk : TokenSdk) (item : WriteTableItem) (txnVersion : Int64)
    (txnTimestamp : NaiveDateTime) : Option (Option CurrentTokenDataV2) := do
  let data ← item.data
  match ← TokenWriteSet.fromTableItemType sdk data.valueType data.value with
  | some (.tokenData tokenData) =>
    match ← TokenWriteSet.fromTableItemType sdk data.keyType data.key with
    | some (.tokenDataId id) => return some (v1TokenData sdk id tokenData txnVersion txnTimestamp)
    | _ => return none
  | _ => return none

/-! ## Ownership of object tokens -/

/-- The row of an object token and one of its holders. -/
def nftOwnership (tokenDataId ownerAddress : String) (amount : ℚ)
    (isSoulboundV2 isFungibleV2 nonTransferrableByOwner : Option Bool) (txnVersion : Int64)
    (txnTimestamp : NaiveDateTime) : CurrentTokenOwnershipV2 where
  tokenDataId := tokenDataId
  propertyVersionV1 := 0
  ownerAddress := ownerAddress
  storageId := tokenDataId
  amount := amount
  tableTypeV1 := none
  tokenPropertiesMutatedV1 := none
  isSoulboundV2 := isSoulboundV2
  tokenStandard := .v2
  isFungibleV2 := isFungibleV2
  lastTransactionVersion := txnVersion
  lastTransactionTimestamp := txnTimestamp
  nonTransferrableByOwner := nonTransferrableByOwner

/-- Former holders, by the transfer events; self transfers are skipped. -/
def transferredRows (sdk : TokenSdk) (tokenDataId : String) (isSoulbound : Bool)
    (txnVersion : Int64) (txnTimestamp : NaiveDateTime) (transferEvents : List TransferEvent) :
    List CurrentTokenOwnershipV2 :=
  (transferEvents.filter fun event =>
      event.getToAddress sdk ≠ event.getFromAddress sdk).map fun event =>
    nftOwnership tokenDataId (event.getFromAddress sdk) 0 (some isSoulbound) none
      (some isSoulbound) txnVersion txnTimestamp

/-- `TokenOwnershipV2::get_nft_v2_from_token_data`: the holder, and the current
rows in the order they are put into the map. -/
def getNftV2FromTokenData (sdk : TokenSdk) (tokenData : CurrentTokenDataV2)
    (objectMetadatas : ObjectAggregatedDataMapping) :
    Option (String × List CurrentTokenOwnershipV2) := do
  let objectData ← objectMetadatas.lookup tokenData.tokenDataId
  let objectCore := objectData.objectCore
  let ownerAddress := objectCore.getOwnerAddress sdk.toSdk
  let isSoulbound := objectData.untransferable || !objectCore.allowUngatedTransfer
  let version := tokenData.lastTransactionVersion
  let timestamp := tokenData.lastTransactionTimestamp
  return (ownerAddress,
    nftOwnership tokenData.tokenDataId ownerAddress 1 (some isSoulbound) none
        (some !objectCore.allowUngatedTransfer) version timestamp ::
      transferredRows sdk tokenData.tokenDataId isSoulbound version timestamp
        objectData.transferEvents)

/-- `TokenOwnershipV2::get_burned_nft_v2_helper`, the current row. -/
def getBurnedNftV2Helper (sdk : TokenSdk) (tokenAddress : String) (txnVersion : Int64)
    (txnTimestamp : NaiveDateTime) (priorNftOwnership : Table String String)
    (tokensBurned : TokenV2Burned) (ownerLookup : String → Option String) :
    Option CurrentTokenOwnershipV2 :=
  let tokenAddress := sdk.standardizeAddress tokenAddress
  (tokensBurned.lookup tokenAddress).map fun burnEvent =>
    let previousOwner :=
      match burnEvent.getPreviousOwnerAddress sdk with
      | some previousOwner => previousOwner
      | none =>
        match priorNftOwnership.lookup tokenAddress with
        | some owner => owner
        | none => (ownerLookup tokenAddress).getD defaultOwnerAddress
    nftOwnership tokenAddress previousOwner 0 none none none txnVersion txnTimestamp

/-- `TokenOwnershipV2::get_burned_nft_v2_from_write_resource`, the current row. A
core that is known at all counts as untransferable here. -/
def getBurnedNftV2FromWriteResource (sdk : TokenSdk) (wr : WriteResource) (txnVersion : Int64)
    (txnTimestamp : NaiveDateTime) (priorNftOwnership : Table String String)
    (tokensBurned : TokenV2Burned) (objectMetadatas : ObjectAggregatedDataMapping)
    (ownerLookup : String → Option String) : Option (Option CurrentTokenOwnershipV2) :=
  let tokenDataId := sdk.standardizeAddress wr.address
  if (tokensBurned.lookup (sdk.standardizeAddress tokenDataId)).isSome then
    (objectCoreFromWriteResource sdk.toSdk wr).map fun object =>
      match object with
      | some objectCore =>
        let isSoulbound := (objectMetadatas.lookup tokenDataId).isSome ||
          !objectCore.allowUngatedTransfer
        some (nftOwnership tokenDataId (objectCore.getOwnerAddress sdk.toSdk) 0 (some isSoulbound)
          (some false) (some !objectCore.allowUngatedTransfer) txnVersion txnTimestamp)
      | none =>
        getBurnedNftV2Helper sdk tokenDataId txnVersion txnTimestamp priorNftOwnership tokensBurned
          ownerLookup
  else some none

/-- `TokenOwnershipV2::get_burned_nft_v2_from_delete_resource`, the current row. -/
def getBurnedNftV2FromDeleteResource (sdk : TokenSdk) (dr : DeleteResource) (txnVersion : Int64)
    (txnTimestamp : NaiveDateTime) (priorNftOwnership : Table String String)
    (tokensBurned : TokenV2Burned) (ownerLookup : String → Option String) :
    Option CurrentTokenOwnershipV2 :=
  getBurnedNftV2Helper sdk (sdk.standardizeAddress dr.address) txnVersion txnTimestamp
    priorNftOwnership tokensBurned ownerLookup

/-! ## Ownership of V1 tokens -/

/-- `TableMetadataForToken`: the owner of a table and the resource it is in. -/
structure TableMetadataForToken where
  ownerAddress : String
  tableType : String

abbrev TableHandleToOwner := Table String TableMetadataForToken

/-- A simplified activity of a V1 token. -/
structure TokenActivityHelperV1 where
  tokenDataIdStruct : TokenDataIdType
  propertyVersion : ℚ
  fromAddress : Option String
  toAddress : Option String
  tokenAmount : ℚ

/-- The owner of a token in a table: the table's, if it is a token store, or else
that of a module event. `none` is a panic, `some none` no owner. -/
def tokenStoreOwner (sdk : TokenSdk) (tableHandle tokenDataId : String)
    (tableHandleToOwner : TableHandleToOwner) (moduleEvents : Table String TokenActivityHelperV1)
    (address : TokenActivityHelperV1 → Option String) : Option (Option String) :=
  match tableHandleToOwner.lookup tableHandle with
  | some metadata =>
    if metadata.tableType = v1TokenStoreTableType then
      some (some (sdk.standardizeAddress metadata.ownerAddress))
    else some none
  | none =>
    match moduleEvents.lookup tokenDataId with
    | some metadata => (address metadata).map some
    | none => some none

/-- The row of a V1 token in a store. -/
def v1Ownership (sdk : TokenSdk) (id : TokenIdType) (ownerAddress tableHandle : String)
    (amount : ℚ) (properties : Option Json) (txnVersion : Int64)
    (txnTimestamp : NaiveDateTime) : CurrentTokenOwnershipV2 where
  tokenDataId := id.tokenDataId.toId sdk
  propertyVersionV1 := id.propertyVersion
  ownerAddress := ownerAddress
  storageId := tableHandle
  amount := amount
  tableTypeV1 := some v1TokenStoreTableType
  tokenPropertiesMutatedV1 := properties
  isSoulboundV2 := none
  tokenStandard := .v1
  isFungibleV2 := none
  lastTransactionVersion := txnVersion
  lastTransactionTimestamp := txnTimestamp
  nonTransferrableByOwner := none

/-- `TokenOwnershipV2::get_v1_from_write_table_item`, the current row. -/
def getV1OwnershipFromWriteTableItem (sdk : TokenSdk) (item : WriteTableItem) (txnVersion : Int64)
    (txnTimestamp : NaiveDateTime) (tableHandleToOwner : TableHandleToOwner)
    (tokensDeposited : Table String TokenActivityHelperV1) :
    Option (Option CurrentTokenOwnershipV2) := do
  let data ← item.data
  match ← TokenWriteSet.fromTableItemType sdk data.valueType data.value with
  | some (.token token) =>
    let tableHandle := sdk.standardizeAddress item.handle
    let owner ← tokenStoreOwner sdk tableHandle (token.id.tokenDataId.toId sdk) tableHandleToOwner
      tokensDeposited (·.toAddress)
    return owner.map fun owner =>
      v1Ownership sdk token.id owner tableHandle (sdk.ensureNotNegative token.amount)
        (some token.tokenProperties) txnVersion txnTimestamp
  | _ => return none

/-- `TokenOwnershipV2::get_v1_from_delete_table_item`, the current row. -/
def getV1OwnershipFromDeleteTableItem (sdk : TokenSdk) (item : DeleteTableItem)
    (txnVersion : Int64) (txnTimestamp : NaiveDateTime) (tableHandleToOwner : TableHandleToOwner)
    (tokensWithdrawn : Table String TokenActivityHelperV1) :
    Option (Option CurrentTokenOwnershipV2) := do
  let data ← item.data
  match ← TokenWriteSet.fromTableItemType sdk data.keyType data.key with
  | some (.tokenId id) =>
    let tableHandle := sdk.standardizeAddress item.handle
    let owner ← tokenStoreOwner sdk tableHandle (id.tokenDataId.toId sdk) tableHandleToOwner
      tokensWithdrawn (·.fromAddress)
    return owner.map fun owner =>
      v1Ownership sdk id owner tableHandle 0 none txnVersion txnTimestamp
  | _ => return none

end IndexerProcessors.TokenV2

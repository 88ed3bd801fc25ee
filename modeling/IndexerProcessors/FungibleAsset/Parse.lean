import IndexerProcessors.FungibleAsset.Metadata

/-!
# `parse_v2_coin`

The rows of a batch. Transactions are parsed one by one. The lists of their activities,
balances and supplies are put together in the order of the transactions, metadata and
mappings go to maps by asset type in which a later transaction overwrites an earlier one,
and what leaves a map is sorted by its key. `none` is a panic, and then there are no
rows at all.
-/

namespace IndexerProcessors.FungibleAsset

open IndexerProcessors.Lib
open IndexerProcessors.Protos

/-- What the closure returns for a transaction; the entries of its maps are in the order
in which they are put there. -/
structure TransactionRows where
  activities : List FungibleAssetActivity
  metadata : List FungibleAssetMetadataModel
  balances : List FungibleAssetBalance
  coinSupply : List CoinSupply
  mappings : List FungibleAssetToCoinMapping

/-- The closure of `parse_v2_coin`. -/
def parseTransaction (sdk : AssetSdk) (txn : Stream.Transaction) : Option TransactionRows := do
  let balances ← transactionBalances sdk.toCoinSdk txn.toProtos
  let some ctx ← txnContextOf sdk txn
    | return ⟨[], [], balances, [], []⟩
  let collected ← collect sdk ctx
  let activities ← transactionActivities sdk ctx collected
  let metadata ← transactionMetadata sdk ctx collected.fungibleAssetObjectHelper
  let mappings ← transactionMappings sdk ctx
  let coinSupply ← transactionCoinSupply sdk ctx
  return { activities, metadata, balances, coinSupply, mappings }

/-- The values of a map, sorted by their keys. -/
def sortedValues {ρ : Type} (t : Table String ρ) : List ρ :=
  (t.rows.insertionSort fun a b => a.1 ≤ b.1).map Prod.snd

/-- What `parse_v2_coin` returns. -/
structure CoinRows where
  activities : List FungibleAssetActivity
  metadata : List FungibleAssetMetadataModel
  balances : List FungibleAssetBalance
  unifiedV1 : List CurrentUnifiedFungibleAssetBalance
  unifiedV2 : List CurrentUnifiedFungibleAssetBalance
  coinSupply : List CoinSupply
  mappings : List FungibleAssetToCoinMapping
  deriving DecidableEq

/-- The map of the metadata of a batch. -/
def metadataMapping (parsed : List TransactionRows) : Table String FungibleAssetMetadataModel :=
  Table.insertAll ∅ ((parsed.flatMap (·.metadata)).map fun fam => (fam.assetType, fam))

/-- The map of the mappings of a batch, by the asset type of the metadata. -/
def mappingsForDB (parsed : List TransactionRows) : Table String FungibleAssetToCoinMapping :=
  Table.insertAll ∅ ((parsed.flatMap (·.mappings)).map fun ctfm => (ctfm.coinType, ctfm))

/-- The second half of `parse_v2_coin`. -/
def coinRowsOf (getAssetTypeV1 : String → Option String) (parsed : List TransactionRows) : CoinRows :=
  let balances := parsed.flatMap (·.balances)
  { activities := parsed.flatMap (·.activities)
    metadata := sortedValues (metadataMapping parsed)
    balances
    unifiedV1 := sortedValues (unifiedMapping getAssetTypeV1 .v1 balances)
    unifiedV2 := sortedValues (unifiedMapping getAssetTypeV1 .v2 balances)
    coinSupply := parsed.flatMap (·.coinSupply)
    mappings := sortedValues (mappingsForDB parsed) }

/-- `parse_v2_coin`, with `get_asset_type_v1` of the mappings known before. -/
def parseV2Coin (sdk : AssetSdk) (getAssetTypeV1 : String → Option String)
    (transactions : List Stream.Transaction) : Option CoinRows := do
  let parsed ← transactions.mapM (parseTransaction sdk)
  return coinRowsOf getAssetTypeV1 parsed

end IndexerProcessors.FungibleAsset

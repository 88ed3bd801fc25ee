import IndexerProcessors.Transaction

/-!
# Records of the address reputation processor

The rows the extractor emits and the storer writes (`address_reputation_model.rs`),
with the source's field names. Amounts are `BigDecimal`s, i.e. exact rationals.
-/

namespace IndexerProcessors.Reputation

/-- A movement of an asset between two owners, or a bridge module's delivery to
a recipient. -/
structure TransferEdge where
  transactionVersion : Int64
  eventIndex : Int64
  fromAddress : String
  toAddress : String
  assetType : Option String
  amount : ℚ
  isBridgeInflow : Bool
  bridgeName : Option String
  transactionTimestamp : NaiveDateTime
  deriving DecidableEq, Repr

/-- The primary key of `address_transfer_edges`. -/
def TransferEdge.key (edge : TransferEdge) : Int64 × Int64 :=
  (edge.transactionVersion, edge.eventIndex)

/-- A bridge event. `evmSource` and `assetType` may be unknown; `lzGuid` is
present for LayerZero bridges only. -/
structure BridgeInflow where
  transactionVersion : Int64
  eventIndex : Int64
  bridgeName : String
  aptosRecipient : String
  evmSource : Option String
  srcChainId : Option Int32
  assetType : Option String
  amount : ℚ
  lzGuid : Option String
  transactionTimestamp : NaiveDateTime
  deriving DecidableEq, Repr

/-- The primary key of `bridge_inflows`. -/
def BridgeInflow.key (inflow : BridgeInflow) : Int64 × Int64 :=
  (inflow.transactionVersion, inflow.eventIndex)

/-- A configured bridge contract and where its event keeps each field. -/
structure BridgeRegistryEntry where
  bridgeName : String
  moduleAddress : String
  eventType : String
  evmSourceFieldPath : Option String
  recipientFieldPath : String
  amountFieldPath : String
  chainIdFieldPath : Option String
  payloadKind : Option String
  enabled : Bool
  deriving DecidableEq, Repr

/-- The bridge registry snapshot loaded at startup. -/
abbrev BridgeRegistry := List BridgeRegistryEntry

end IndexerProcessors.Reputation

import IndexerProcessors.TokenV2.Rows

/-!
# Token activities

`TokenActivityV2` rows, one for each event of a token (`v2_token_activities.rs`).
A V1 event says all that its row has. The row of an object token's event depends
on whether the object's core is known: if it is, mint and burn events are
attributed to the owner in the core, and module events are given the type of the
events they replaced; if it is not, the token counts as burnt, the type stays
that of the event, and only a burn event names an owner.
-/

namespace IndexerProcessors.TokenV2

open IndexerProcessors.Lib
open IndexerProcessors.Protos

structure TokenActivityV2 where
  transactionVersion : Int64
  eventIndex : Int64
  eventAccountAddress : String
  tokenDataId : String
  propertyVersionV1 : ℚ
  type : String
  fromAddress : Option String
  toAddress : Option String
  tokenAmount : ℚ
  beforeValue : Option String
  afterValue : Option String
  entryFunctionIdStr : Option String
  tokenStandard : TokenStandard
  isFungibleV2 : Option Bool
  transactionTimestamp : NaiveDateTime
  deriving DecidableEq

/-! ## Object tokens -/

/-- Burn, mint and transfer events name the token; the rest are attached to it. -/
def V2TokenEvent.getTokenDataId (sdk : TokenSdk) (eventAccountAddress : String) :
    V2TokenEvent → String
  | .mintEvent token => sdk.standardizeAddress token
  | .mint token => sdk.standardizeAddress token
  | .burnEvent _ token => sdk.standardizeAddress token
  | .burn inner => inner.getTokenAddress sdk
  | .transferEvent inner => inner.getObjectAddress sdk
  | _ => eventAccountAddress

structure TokenActivityHelperV2 where
  fromAddress : Option String
  toAddress : Option String
  tokenAmount : ℚ
  beforeValue : Option String
  afterValue : Option String
  eventType : String

/-- The activity of an event whose object's core is known. -/
def V2TokenEvent.activityOfObject (sdk : TokenSdk) (eventType sender : String)
    (objectCore : ObjectCore) : V2TokenEvent → TokenActivityHelperV2
  | .mintEvent _ => ⟨some (objectCore.getOwnerAddress sdk.toSdk), none, 1, none, none, eventType⟩
  | .mint _ => ⟨some (objectCore.getOwnerAddress sdk.toSdk), none, 1, none, none,
      "0x4::collection::MintEvent"⟩
  | .tokenMutationEvent oldValue newValue =>
    ⟨some sender, none, 0, some oldValue, some newValue, eventType⟩
  | .tokenMutation tokenAddress oldValue newValue =>
    ⟨some tokenAddress, none, 0, some oldValue, some newValue, "0x4::collection::MutationEvent"⟩
  | .burnEvent .. => ⟨some (objectCore.getOwnerAddress sdk.toSdk), none, 1, none, none, eventType⟩
  | .burn _ => ⟨some (objectCore.getOwnerAddress sdk.toSdk), none, 1, none, none,
      "0x4::collection::BurnEvent"⟩
  | .transferEvent inner =>
    ⟨some (inner.getFromAddress sdk), some (inner.getToAddress sdk), 1, none, none, eventType⟩

/-- The activity of an event whose object's core is not known. -/
def V2TokenEvent.activityOfBurnt (sdk : TokenSdk) (eventType : String) :
    V2TokenEvent → TokenActivityHelperV2
  | .burn inner => ⟨inner.getPreviousOwnerAddress sdk, none, 1, none, none, eventType⟩
  | _ => ⟨none, none, 1, none, none, eventType⟩

/-- The row of an object token's event, given the core known for the object. -/
def nftActivity (sdk : TokenSdk) (event : Protos.Event) (txnVersion : Int64)
    (txnTimestamp : NaiveDateTime) (eventIndex : Int64) (entryFunctionIdStr : Option String)
    (sender eventAccountAddress : String) (tokenEvent : V2TokenEvent)
    (objectCore : Option ObjectCore) : TokenActivityV2 :=
  let helper :=
    match objectCore with
    | some objectCore => tokenEvent.activityOfObject sdk event.typeStr sender objectCore
    | none => tokenEvent.activityOfBurnt sdk event.typeStr
  { transactionVersion := txnVersion
    eventIndex
    eventAccountAddress
    tokenDataId := tokenEvent.getTokenDataId sdk eventAccountAddress
    propertyVersionV1 := 0
    type := helper.eventType
    fromAddress := helper.fromAddress
    toAddress := helper.toAddress
    tokenAmount := helper.tokenAmount
    beforeValue := helper.beforeValue
    afterValue := helper.afterValue
    entryFunctionIdStr
    tokenStandard := .v2
    isFungibleV2 := none
    transactionTimestamp := txnTimestamp }

/-- `TokenActivityV2::get_nft_v2_from_parsed_event`. -/
def getNftV2FromParsedEvent (sdk : TokenSdk) (event : Protos.Event) (txnVersion : Int64)
    (txnTimestamp : NaiveDateTime) (eventIndex : Int64) (entryFunctionIdStr : Option String)
    (tokenV2Metadata : ObjectAggregatedDataMapping) (sender : String) :
    Option (Option TokenActivityV2) := do
  let some tokenEvent ← V2TokenEvent.fromEvent sdk event
    | return none
  let key ← event.key
  let eventAccountAddress := sdk.standardizeAddress key.accountAddress
  let metadata := tokenV2Metadata.lookup (tokenEvent.getTokenDataId sdk eventAccountAddress)
  return some (nftActivity sdk event txnVersion txnTimestamp eventIndex entryFunctionIdStr sender
    eventAccountAddress tokenEvent (metadata.map (·.objectCore)))

/-! ## V1 tokens -/

/-- What a V1 event says; `account` is the one it is attached to. -/
def TokenEvent.activity (sdk : TokenSdk) (account : String) : TokenEvent → TokenActivityHelperV1
  | .mintTokenEvent id amount => ⟨id, 0, some account, none, amount⟩
  | .mint creator id amount => ⟨id, 0, some (sdk.standardizeAddress creator), none, amount⟩
  | .burnTokenEvent id amount => ⟨id.tokenDataId, id.propertyVersion, some account, none, amount⟩
  | .burn account' id amount =>
    ⟨id.tokenDataId, id.propertyVersion, some (sdk.standardizeAddress account'), none, amount⟩
  | .mutateTokenPropertyMapEvent newId =>
    ⟨newId.tokenDataId, newId.propertyVersion, some account, none, 0⟩
  | .mutatePropertyMap account' newId =>
    ⟨newId.tokenDataId, newId.propertyVersion, some (sdk.standardizeAddress account'), none, 0⟩
  | .withdrawTokenEvent id amount =>
    ⟨id.tokenDataId, id.propertyVersion, some account, none, amount⟩
  | .tokenWithdraw account' id amount =>
    ⟨id.tokenDataId, id.propertyVersion, some (sdk.standardizeAddress account'), none, amount⟩
  | .depositTokenEvent id amount =>
    ⟨id.tokenDataId, id.propertyVersion, none, some (sdk.standardizeAddress account), amount⟩
  | .tokenDeposit account' id amount =>
    ⟨id.tokenDataId, id.propertyVersion, none, some (sdk.standardizeAddress account'), amount⟩
  | .offerTokenEvent toAddress id amount | .cancelTokenOfferEvent toAddress id amount
  | .claimTokenEvent toAddress id amount =>
    ⟨id.tokenDataId, id.propertyVersion, some account,
      some (sdk.standardizeAddress toAddress), amount⟩
  | .offer account' toAddress id amount | .cancelOffer account' toAddress id amount
  | .claim account' toAddress id amount =>
    ⟨id.tokenDataId, id.propertyVersion, some (sdk.standardizeAddress account'),
      some (sdk.standardizeAddress toAddress), amount⟩

/-- `tokens_withdrawn` and `tokens_deposited`, by token data id. -/
structure ModuleEvents where
  tokensWithdrawn : Table String TokenActivityHelperV1
  tokensDeposited : Table String TokenActivityHelperV1

/-- The module events of withdrawals and deposits are kept for the table items. -/
def ModuleEvents.record (sdk : TokenSdk) (events : ModuleEvents) (helper : TokenActivityHelperV1) :
    TokenEvent → ModuleEvents
  | .tokenWithdraw .. =>
    { events with tokensWithdrawn :=
        events.tokensWithdrawn.insert (helper.tokenDataIdStruct.toId sdk) helper }
  | .tokenDeposit .. =>
    { events with tokensDeposited :=
        events.tokensDeposited.insert (helper.tokenDataIdStruct.toId sdk) helper }
  | _ => events

/-- The row of a V1 token's event. -/
def v1Activity (sdk : TokenSdk) (event : Protos.Event) (txnVersion : Int64)
    (txnTimestamp : NaiveDateTime) (eventIndex : Int64) (entryFunctionIdStr : Option String)
    (eventAccountAddress : String) (helper : TokenActivityHelperV1) : TokenActivityV2 where
  transactionVersion := txnVersion
  eventIndex := eventIndex
  eventAccountAddress := eventAccountAddress
  tokenDataId := helper.tokenDataIdStruct.toId sdk
  propertyVersionV1 := helper.propertyVersion
  type := event.typeStr
  fromAddress := helper.fromAddress
  toAddress := helper.toAddress
  tokenAmount := helper.tokenAmount
  beforeValue := none
  afterValue := none
  entryFunctionIdStr := entryFunctionIdStr
  tokenStandard := .v1
  isFungibleV2 := none
  transactionTimestamp := txnTimestamp

/-- `TokenActivityV2::get_v1_from_parsed_event`, with the module events it keeps. -/
def getV1FromParsedEvent (sdk : TokenSdk) (event : Protos.Event) (txnVersion : Int64)
    (txnTimestamp : NaiveDateTime) (eventIndex : Int64) (entryFunctionIdStr : Option String)
    (moduleEvents : ModuleEvents) : Option (Option TokenActivityV2 × ModuleEvents) := do
  let some tokenEvent ← TokenEvent.fromEvent sdk event
    | return (none, moduleEvents)
  let key ← event.key
  let eventAccountAddress := sdk.standardizeAddress key.accountAddress
  let helper := tokenEvent.activity sdk eventAccountAddress
  return (some (v1Activity sdk event txnVersion txnTimestamp eventIndex entryFunctionIdStr
    eventAccountAddress helper), moduleEvents.record sdk helper tokenEvent)

end IndexerProcessors.TokenV2

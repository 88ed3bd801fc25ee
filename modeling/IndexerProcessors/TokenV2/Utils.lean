import IndexerProcessors.Resources

/-!
# What the token processor reads

The Move structs and events of the two token standards, as `token_utils.rs` and
`v2_token_utils.rs` deserialize them. An object token (V2) is a resource of
`0x4::token` at the object's address, with mint and burn events of its
collection; a V1 token is an item in a table, named by creator, collection and
name, with events of `0x3::token`.

An event or a table item of another type is not read; one of a known type whose
text has not the type's fields is an error, and the processor unwraps it. Fields
that only have to be there are read and dropped.
-/

namespace IndexerProcessors.TokenV2

open IndexerProcessors.Protos

/-- What the token processor calls outside the repository, beyond `Sdk`. -/
structure TokenSdk extends Sdk where
  /-- `truncate_str`. -/
  truncateStr : String → ℕ → String
  /-- `hash_str`. -/
  hashStr : String → String
  /-- `ensure_not_negative`. -/
  ensureNotNegative : ℚ → ℚ
  /-- `deserialize_property_map_from_bcs_hexstring`. -/
  propertyMap : Json → Option Json
  /-- `deserialize_token_object_property_map_from_bcs_hexstring`. -/
  tokenObjectPropertyMap : Json → Option Json
  /-- The value of an `AggregatorSnapshot`. -/
  aggregatorSnapshot : Json → Option ℚ
  /-- The value of a `DerivedStringSnapshot`. -/
  derivedStringSnapshot : Json → Option String
  /-- An `i32` of a JSON number. -/
  i32 : Json → Option Int32

/-- `NAME_LENGTH`. -/
def nameLength : ℕ := 128

/-- `URI_LENGTH`. -/
def uriLength : ℕ := 512

/-- `DEFAULT_OWNER_ADDRESS`. -/
def defaultOwnerAddress : String := "unknown"

/-- `V1_TOKEN_STORE_TABLE_TYPE`. -/
def v1TokenStoreTableType : String := "0x3::token::TokenStore"

/-- A text of a known type, unwrapped. -/
def parsed {α β : Type} (sdk : TokenSdk) (data : String) (ofJson : Json → Option α) (f : α → β) :
    Option (Option β) :=
  ((sdk.fromStr data).bind ofJson).map fun inner => some (f inner)

/-! ## Events of object tokens -/

/-- `Burn`; made of an old `BurnEvent`, its previous owner is empty. -/
structure Burn where
  collection : String
  index : ℚ
  token : String
  previousOwner : String

def Burn.getTokenAddress (sdk : TokenSdk) (event : Burn) : String :=
  sdk.standardizeAddress event.token

def Burn.getPreviousOwnerAddress (sdk : TokenSdk) (event : Burn) : Option String :=
  if event.previousOwner = "" then none else some (sdk.standardizeAddress event.previousOwner)

def Burn.getCollectionAddress (sdk : TokenSdk) (event : Burn) : String :=
  sdk.standardizeAddress event.collection

structure TransferEvent where
  fromAddress : String
  toAddress : String
  object : String

def TransferEvent.getFromAddress (sdk : TokenSdk) (event : TransferEvent) : String :=
  sdk.standardizeAddress event.fromAddress

def TransferEvent.getToAddress (sdk : TokenSdk) (event : TransferEvent) : String :=
  sdk.standardizeAddress event.toAddress

def TransferEvent.getObjectAddress (sdk : TokenSdk) (event : TransferEvent) : String :=
  sdk.standardizeAddress event.object

inductive V2TokenEvent where
  | mint (token : String)
  | mintEvent (token : String)
  | tokenMutationEvent (oldValue newValue : String)
  | tokenMutation (tokenAddress oldValue newValue : String)
  | burn (inner : Burn)
  | burnEvent (index : ℚ) (token : String)
  | transferEvent (inner : TransferEvent)

namespace V2TokenEvent

def mintOfJson (sdk : TokenSdk) (v : Json) : Option String := do
  let _ ← v.getStr "collection"
  let _ ← (v.get "index").bind sdk.aggregatorSnapshot
  v.getStr "token"

/-- A `MintEvent` or a `BurnEvent`. -/
def indexTokenOfJson (sdk : TokenSdk) (v : Json) : Option (ℚ × String) := do
  let index ← v.getBigDecimal sdk.toSdk "index"
  let token ← v.getStr "token"
  return (index, token)

def mutationOfJson (v : Json) : Option (String × String) := do
  let _ ← v.getStr "mutated_field_name"
  let oldValue ← v.getStr "old_value"
  let newValue ← v.getStr "new_value"
  return (oldValue, newValue)

def tokenMutationOfJson (v : Json) : Option (String × String × String) := do
  let tokenAddress ← v.getStr "token_address"
  let values ← mutationOfJson v
  return (tokenAddress, values)

def burnOfJson (sdk : TokenSdk) (v : Json) : Option Burn := do
  let collection ← v.getStr "collection"
  let index ← v.getBigDecimal sdk.toSdk "index"
  let token ← v.getStr "token"
  let previousOwner ← v.getStr "previous_owner"
  return { collection, index, token, previousOwner }

def transferOfJson (v : Json) : Option TransferEvent := do
  let fromAddress ← v.getStr "from"
  let toAddress ← v.getStr "to"
  let object ← v.getStr "object"
  return { fromAddress, toAddress, object }

/-- `V2TokenEvent::from_event`, unwrapped. -/
def fromEvent (sdk : TokenSdk) (event : Protos.Event) : Option (Option V2TokenEvent) :=
  match event.typeStr with
  | "0x4::collection::Mint" => parsed sdk event.data (mintOfJson sdk) mint
  | "0x4::collection::MintEvent" =>
    parsed sdk event.data (indexTokenOfJson sdk) fun inner => mintEvent inner.2
  | "0x4::token::MutationEvent" =>
    parsed sdk event.data mutationOfJson fun inner => tokenMutationEvent inner.1 inner.2
  | "0x4::token::Mutation" =>
    parsed sdk event.data tokenMutationOfJson fun inner =>
      tokenMutation inner.1 inner.2.1 inner.2.2
  | "0x4::collection::Burn" => parsed sdk event.data (burnOfJson sdk) burn
  | "0x4::collection::BurnEvent" =>
    parsed sdk event.data (indexTokenOfJson sdk) fun inner => burnEvent inner.1 inner.2
  | "0x1::object::TransferEvent" | "0x1::object::Transfer" =>
    parsed sdk event.data transferOfJson transferEvent
  | _ => some none

end V2TokenEvent

/-! ## V1 tokens -/

structure TokenDataIdType where
  creator : String
  collection : String
  name : String

/-- `TokenDataIdType::to_id`, of its display form. -/
def TokenDataIdType.toId (sdk : TokenSdk) (id : TokenDataIdType) : String :=
  "0x" ++ sdk.hashStr
    (sdk.standardizeAddress id.creator ++ "::" ++ id.collection ++ "::" ++ id.name)

/-- `TokenDataIdType::get_collection_id`. -/
def TokenDataIdType.getCollectionId (sdk : TokenSdk) (id : TokenDataIdType) : String :=
  "0x" ++ sdk.hashStr (sdk.standardizeAddress id.creator ++ "::" ++ id.collection)

structure TokenIdType where
  tokenDataId : TokenDataIdType
  propertyVersion : ℚ

structure TokenDataType where
  defaultProperties : Json
  description : String
  largestPropertyVersion : ℚ
  maximum : ℚ
  supply : ℚ
  uri : String

structure TokenType where
  amount : ℚ
  id : TokenIdType
  tokenProperties : Json

def TokenDataIdType.ofJson (v : Json) : Option TokenDataIdType := do
  let creator ← v.getStr "creator"
  let collection ← v.getStr "collection"
  let name ← v.getStr "name"
  return { creator, collection, name }

def TokenIdType.ofJson (sdk : TokenSdk) (v : Json) : Option TokenIdType := do
  let tokenDataId ← (v.get "token_data_id").bind TokenDataIdType.ofJson
  let propertyVersion ← v.getBigDecimal sdk.toSdk "property_version"
  return { tokenDataId, propertyVersion }

/-- The flags of a mutability config have to be there. -/
def hasFlags (v : Json) (flags : List String) : Option Unit := do
  let config ← v.get "mutability_config"
  let _ ← flags.mapM config.getBool
  return ()

def TokenDataType.ofJson (sdk : TokenSdk) (v : Json) : Option TokenDataType := do
  let defaultProperties ← (v.get "default_properties").bind sdk.propertyMap
  let description ← v.getStr "description"
  let largestPropertyVersion ← v.getBigDecimal sdk.toSdk "largest_property_version"
  let maximum ← v.getBigDecimal sdk.toSdk "maximum"
  hasFlags v ["description", "maximum", "properties", "royalty", "uri"]
  let _ ← v.getStr "name"
  let royalty ← v.get "royalty"
  let _ ← royalty.getStr "payee_address"
  let _ ← royalty.getBigDecimal sdk.toSdk "royalty_points_denominator"
  let _ ← royalty.getBigDecimal sdk.toSdk "royalty_points_numerator"
  let supply ← v.getBigDecimal sdk.toSdk "supply"
  let uri ← v.getStr "uri"
  return { defaultProperties, description, largestPropertyVersion, maximum, supply, uri }

def TokenType.ofJson (sdk : TokenSdk) (v : Json) : Option TokenType := do
  let amount ← v.getBigDecimal sdk.toSdk "amount"
  let id ← (v.get "id").bind (TokenIdType.ofJson sdk)
  let tokenProperties ← (v.get "token_properties").bind sdk.propertyMap
  return { amount, id, tokenProperties }

def collectionDataOfJson (sdk : TokenSdk) (v : Json) : Option Unit := do
  let _ ← v.getStr "description"
  let _ ← v.getBigDecimal sdk.toSdk "maximum"
  hasFlags v ["description", "maximum", "uri"]
  let _ ← v.getStr "name"
  let _ ← v.getBigDecimal sdk.toSdk "supply"
  let _ ← v.getStr "uri"
  return ()

def tokenOfferIdOfJson (sdk : TokenSdk) (v : Json) : Option Unit := do
  let _ ← v.getStr "to_addr"
  let _ ← (v.get "token_id").bind (TokenIdType.ofJson sdk)
  return ()

inductive TokenWriteSet where
  | tokenDataId (inner : TokenDataIdType)
  | tokenId (inner : TokenIdType)
  | tokenData (inner : TokenDataType)
  | token (inner : TokenType)
  | collectionData
  | tokenOfferId

/-- `TokenWriteSet::from_table_item_type`, unwrapped. -/
def TokenWriteSet.fromTableItemType (sdk : TokenSdk) (dataType data : String) :
    Option (Option TokenWriteSet) :=
  match dataType with
  | "0x3::token::TokenDataId" => parsed sdk data TokenDataIdType.ofJson tokenDataId
  | "0x3::token::TokenId" => parsed sdk data (TokenIdType.ofJson sdk) tokenId
  | "0x3::token::TokenData" => parsed sdk data (TokenDataType.ofJson sdk) tokenData
  | "0x3::token::Token" => parsed sdk data (TokenType.ofJson sdk) token
  | "0x3::token::CollectionData" =>
    parsed sdk data (collectionDataOfJson sdk) fun _ => collectionData
  | "0x3::token_transfers::TokenOfferId" =>
    parsed sdk data (tokenOfferIdOfJson sdk) fun _ => tokenOfferId
  | _ => some none

/-! ## Events of V1 tokens -/

inductive TokenEvent where
  | mintTokenEvent (id : TokenDataIdType) (amount : ℚ)
  | mint (creator : String) (id : TokenDataIdType) (amount : ℚ)
  | burnTokenEvent (id : TokenIdType) (amount : ℚ)
  | burn (account : String) (id : TokenIdType) (amount : ℚ)
  | mutateTokenPropertyMapEvent (newId : TokenIdType)
  | mutatePropertyMap (account : String) (newId : TokenIdType)
  | withdrawTokenEvent (id : TokenIdType) (amount : ℚ)
  | tokenWithdraw (account : String) (id : TokenIdType) (amount : ℚ)
  | depositTokenEvent (id : TokenIdType) (amount : ℚ)
  | tokenDeposit (account : String) (id : TokenIdType) (amount : ℚ)
  | offerTokenEvent (toAddress : String) (tokenId : TokenIdType) (amount : ℚ)
  | offer (account toAddress : String) (tokenId : TokenIdType) (amount : ℚ)
  | cancelTokenOfferEvent (toAddress : String) (tokenId : TokenIdType) (amount : ℚ)
  | cancelOffer (account toAddress : String) (tokenId : TokenIdType) (amount : ℚ)
  | claimTokenEvent (toAddress : String) (tokenId : TokenIdType) (amount : ℚ)
  | claim (account toAddress : String) (tokenId : TokenIdType) (amount : ℚ)

namespace TokenEvent

/-- An amount of a token, the id under a member. -/
def amountOfJson {α : Type} (sdk : TokenSdk) (key : String) (idOfJson : Json → Option α)
    (v : Json) : Option (α × ℚ) := do
  let amount ← v.getBigDecimal sdk.toSdk "amount"
  let id ← (v.get key).bind idOfJson
  return (id, amount)

/-- With an account, under a member. -/
def accountOfJson {α : Type} (accountKey : String) (ofJson : Json → Option α) (v : Json) :
    Option (String × α) := do
  let account ← v.getStr accountKey
  let inner ← ofJson v
  return (account, inner)

/-- The new id of a mutation; the old one has to be there. -/
def newIdOfJson (sdk : TokenSdk) (v : Json) : Option TokenIdType := do
  let _ ← (v.get "old_id").bind (TokenIdType.ofJson sdk)
  (v.get "new_id").bind (TokenIdType.ofJson sdk)

/-- An amount of a token in a store. -/
def heldOfJson (sdk : TokenSdk) : Json → Option (TokenIdType × ℚ) :=
  amountOfJson sdk "id" (TokenIdType.ofJson sdk)

/-- An amount of a token on offer, with the receiver. -/
def offeredOfJson (sdk : TokenSdk) : Json → Option (String × TokenIdType × ℚ) :=
  accountOfJson "to_address" (amountOfJson sdk "token_id" (TokenIdType.ofJson sdk))

/-- `TokenEvent::from_event`, unwrapped. -/
def fromEvent (sdk : TokenSdk) (event : Protos.Event) : Option (Option TokenEvent) :=
  match event.typeStr with
  | "0x3::token::MintTokenEvent" =>
    parsed sdk event.data (amountOfJson sdk "id" TokenDataIdType.ofJson) fun e =>
      mintTokenEvent e.1 e.2
  | "0x3::token::Mint" =>
    parsed sdk event.data
      (accountOfJson "creator" (amountOfJson sdk "id" TokenDataIdType.ofJson)) fun e =>
      mint e.1 e.2.1 e.2.2
  | "0x3::token::BurnTokenEvent" =>
    parsed sdk event.data (heldOfJson sdk) fun e => burnTokenEvent e.1 e.2
  | "0x3::token::Burn" =>
    parsed sdk event.data (accountOfJson "account" (heldOfJson sdk)) fun e => burn e.1 e.2.1 e.2.2
  | "0x3::token::MutateTokenPropertyMapEvent" =>
    parsed sdk event.data (newIdOfJson sdk) mutateTokenPropertyMapEvent
  | "0x3::token::MutatePropertyMap" =>
    parsed sdk event.data (accountOfJson "account" (newIdOfJson sdk)) fun e =>
      mutatePropertyMap e.1 e.2
  | "0x3::token::WithdrawEvent" =>
    parsed sdk event.data (heldOfJson sdk) fun e => withdrawTokenEvent e.1 e.2
  | "0x3::token::TokenWithdraw" =>
    parsed sdk event.data (accountOfJson "account" (heldOfJson sdk)) fun e =>
      tokenWithdraw e.1 e.2.1 e.2.2
  | "0x3::token::DepositEvent" =>
    parsed sdk event.data (heldOfJson sdk) fun e => depositTokenEvent e.1 e.2
  | "0x3::token::TokenDeposit" =>
    parsed sdk event.data (accountOfJson "account" (heldOfJson sdk)) fun e =>
      tokenDeposit e.1 e.2.1 e.2.2
  | "0x3::token_transfers::TokenOfferEvent" =>
    parsed sdk event.data (offeredOfJson sdk) fun e => offerTokenEvent e.1 e.2.1 e.2.2
  | "0x3::token_transfers::Offer" =>
    parsed sdk event.data (accountOfJson "account" (offeredOfJson sdk)) fun e =>
      offer e.1 e.2.1 e.2.2.1 e.2.2.2
  | "0x3::token_transfers::TokenCancelOfferEvent" =>
    parsed sdk event.data (offeredOfJson sdk) fun e => cancelTokenOfferEvent e.1 e.2.1 e.2.2
  | "0x3::token_transfers::CancelOffer" =>
    parsed sdk event.data (accountOfJson "account" (offeredOfJson sdk)) fun e =>
      cancelOffer e.1 e.2.1 e.2.2.1 e.2.2.2
  | "0x3::token_transfers::TokenClaimEvent" =>
    parsed sdk event.data (offeredOfJson sdk) fun e => claimTokenEvent e.1 e.2.1 e.2.2
  | "0x3::token_transfers::Claim" =>
    parsed sdk event.data (accountOfJson "account" (offeredOfJson sdk)) fun e =>
      claim e.1 e.2.1 e.2.2.1 e.2.2.2
  | _ => some none

end TokenEvent

end IndexerProcessors.TokenV2

import IndexerProcessors.Lib.Fallible
import IndexerProcessors.TokenV2.Activities

/-!
# `parse_v2_token`

The loops over a batch that make the token rows. Each user transaction is gone
through four times: the object cores of its write set, what else is known about
these objects, its events, and the rows of its changes. What is known about
objects, the maps of rows and the holders seen so far live for the whole batch.

Collections, royalties, claims, token metadata and the historic rows do not feed
back into the rows here and are left out, with the panics of their parsers: a
batch that panics is not stored. `TableHandleToOwner` is made by the extractor
beforehand and is an argument, as in the source; so is `ownerLookup`, by the
version and the index of the change that asks.
-/

namespace IndexerProcessors.TokenV2

open IndexerProcessors.Lib
open IndexerProcessors.Protos

/-- What `parse_v2_token` keeps through a batch. -/
structure ParseState where
  tokenV2MetadataHelper : ObjectAggregatedDataMapping
  currentTokenDatasV2 : Table String CurrentTokenDataV2
  currentDeletedTokenDatasV2 : Table String CurrentTokenDataV2
  currentTokenOwnershipsV2 : Table CurrentTokenOwnershipV2PK CurrentTokenOwnershipV2
  currentDeletedTokenOwnershipsV2 : Table CurrentTokenOwnershipV2PK CurrentTokenOwnershipV2
  priorNftOwnership : Table String String
  tokenActivitiesV2 : List TokenActivityV2

def ParseState.init : ParseState := ⟨∅, ∅, ∅, ∅, ∅, ∅, []⟩

/-! ## Loops 1 and 2: objects -/

/-- Loop 1: the object core of a change. -/
def insertObject (sdk : TokenSdk) (metadata : ObjectAggregatedDataMapping)
    (change : Protos.Change) : Option ObjectAggregatedDataMapping :=
  match change with
  | .writeResource wr _ =>
    (objectCoreFromWriteResource sdk.toSdk wr).map fun object =>
      match object with
      | some objectCore =>
        metadata.insert (sdk.standardizeAddress wr.address)
          ⟨objectCore, [], false, false, none, none⟩
      | none => metadata
  | _ => some metadata

/-- What a resource at an object's address adds to it. The structs of collections
are not used. -/
def aggregate (sdk : TokenSdk) (wr : WriteResource) (data : ObjectAggregatedData) :
    Option ObjectAggregatedData := do
  let propertyMap ← fromWriteResource sdk.toSdk typePropertyMap
    (fun v => (v.get "inner").bind sdk.tokenObjectPropertyMap) wr
  let tokenIdentifier ← fromWriteResource sdk.toSdk typeTokenIdentifiers
    (fun v => (v.get "name").bind sdk.derivedStringSnapshot) wr
  let untransferable ← fromWriteResource sdk.toSdk typeUntransferable
    (fun v => v.getBool "dummy_field") wr
  let fungibleAssetMetadata ← fromWriteResource sdk.toSdk typeFungibleAssetMetadata (fun v => do
    let _ ← ["name", "symbol", "icon_uri", "project_uri"].mapM v.getStr
    (v.get "decimals").bind sdk.i32) wr
  return { data with
    propertyMap := propertyMap.or data.propertyMap
    tokenIdentifier := tokenIdentifier.or data.tokenIdentifier
    untransferable := untransferable.isSome || data.untransferable
    fungibleAssetMetadata := fungibleAssetMetadata.isSome || data.fungibleAssetMetadata }

/-- Loop 2: the other resources of known objects. -/
def fillMetadata (sdk : TokenSdk) (metadata : ObjectAggregatedDataMapping)
    (change : Protos.Change) : Option ObjectAggregatedDataMapping :=
  match change with
  | .writeResource wr _ =>
    let address := sdk.standardizeAddress wr.address
    match metadata.lookup address with
    | some data => (aggregate sdk wr data).map fun data => metadata.insert address data
    | none => some metadata
  | _ => some metadata

/-! ## Loop 3: events -/

/-- What loop 3 keeps of the events of a transaction. -/
structure EventState where
  metadata : ObjectAggregatedDataMapping
  tokensBurned : TokenV2Burned
  moduleEvents : ModuleEvents
  activities : List TokenActivityV2

/-- Burns are filed under the token, transfers with the object, if it is known. -/
def recordEvent (sdk : TokenSdk) (st : EventState) (event : Protos.Event) : Option EventState := do
  match ← V2TokenEvent.fromEvent sdk event with
  | some (.burn inner) =>
    return { st with tokensBurned := st.tokensBurned.insert (inner.getTokenAddress sdk) inner }
  | some (.burnEvent index token) =>
    let key ← event.key
    let burnEvent : Burn :=
      ⟨sdk.standardizeAddress key.accountAddress, index, sdk.standardizeAddress token, ""⟩
    return { st with
      tokensBurned := st.tokensBurned.insert (burnEvent.getTokenAddress sdk) burnEvent }
  | some (.transferEvent inner) =>
    match st.metadata.lookup (inner.getObjectAddress sdk) with
    | some data =>
      return { st with
        metadata := st.metadata.insert (inner.getObjectAddress sdk)
          { data with transferEvents := data.transferEvents ++ [inner] } }
    -- A transfer of an object the batch has not seen written is dropped.
    | none => return st
  | _ => return st

/-- Loop 3: one event. -/
def parseEvent (sdk : TokenSdk) (txnVersion : Int64) (txnTimestamp : NaiveDateTime)
    (request : UserTransactionRequest) (st : EventState) (event : Protos.Event × ℕ) :
    Option EventState := do
  let st ← recordEvent sdk st event.1
  let v1 ← getV1FromParsedEvent sdk event.1 txnVersion txnTimestamp (Int64.ofNat event.2)
    request.entryFunctionIdStr st.moduleEvents
  let v2 ← getNftV2FromParsedEvent sdk event.1 txnVersion txnTimestamp (Int64.ofNat event.2)
    request.entryFunctionIdStr st.metadata request.sender
  return { st with
    moduleEvents := v1.2
    activities := st.activities ++ v1.1.toList ++ v2.toList }

/-! ## Loop 4: rows -/

namespace ParseState

def addTokenData (st : ParseState) (row : Option CurrentTokenDataV2) : ParseState :=
  { st with
    currentTokenDatasV2 := st.currentTokenDatasV2.insertAll
      (row.toList.map fun row => (row.tokenDataId, row)) }

def addDeletedTokenData (st : ParseState) (row : Option CurrentTokenDataV2) : ParseState :=
  { st with
    currentDeletedTokenDatasV2 := st.currentDeletedTokenDatasV2.insertAll
      (row.toList.map fun row => (row.tokenDataId, row)) }

/-- The holder is remembered with the row. -/
def addV1Ownership (st : ParseState) (row : Option CurrentTokenOwnershipV2) : ParseState :=
  { st with
    priorNftOwnership := st.priorNftOwnership.insertAll
      (row.toList.map fun row => (row.tokenDataId, row.ownerAddress))
    currentTokenOwnershipsV2 := st.currentTokenOwnershipsV2.insertAll
      (row.toList.map fun row => (row.pk, row)) }

def addDeletedOwnership (st : ParseState) (row : Option CurrentTokenOwnershipV2) : ParseState :=
  { st with
    priorNftOwnership := st.priorNftOwnership.insertAll
      (row.toList.map fun row => (row.tokenDataId, row.ownerAddress))
    currentDeletedTokenOwnershipsV2 := st.currentDeletedTokenOwnershipsV2.insertAll
      (row.toList.map fun row => (row.pk, row)) }

/-- An object token with its holder and ownership rows. -/
def addNft (st : ParseState) (tokenData : CurrentTokenDataV2) (owner : String)
    (ownerships : List CurrentTokenOwnershipV2) : ParseState :=
  { st with
    priorNftOwnership := st.priorNftOwnership.insert tokenData.tokenDataId owner
    currentTokenOwnershipsV2 := st.currentTokenOwnershipsV2.insertAll
      (ownerships.map fun row => (row.pk, row))
    currentTokenDatasV2 := st.currentTokenDatasV2.insert tokenData.tokenDataId tokenData }

end ParseState

/-- What loop 4 reads besides the change: the transaction's version and time, its
burns and module events, the owners of tables, and the database. -/
structure ChangeContext where
  txnVersion : Int64
  txnTimestamp : NaiveDateTime
  tokensBurned : TokenV2Burned
  moduleEvents : ModuleEvents
  tableHandleToOwner : TableHandleToOwner
  ownerLookup : ℕ → String → Option String

/-- A written resource as a token. -/
def parseToken (sdk : TokenSdk) (ctx : ChangeContext) (wr : WriteResource) (st : ParseState) :
    Option ParseState := do
  let some tokenData ← getV2FromWriteResource sdk wr ctx.txnVersion ctx.txnTimestamp
      st.tokenV2MetadataHelper
    | return st
  let (owner, ownerships) ← getNftV2FromTokenData sdk tokenData st.tokenV2MetadataHelper
  return st.addNft tokenData owner ownerships

/-- Loop 4: one change. -/
def parseChange (sdk : TokenSdk) (ctx : ChangeContext) (st : ParseState)
    (change : Protos.Change × ℕ) : Option ParseState :=
  match change.1 with
  | .writeTableItem item => do
    let tokenData ← getV1DataFromWriteTableItem sdk item ctx.txnVersion ctx.txnTimestamp
    let ownership ← getV1OwnershipFromWriteTableItem sdk item ctx.txnVersion ctx.txnTimestamp
      ctx.tableHandleToOwner ctx.moduleEvents.tokensDeposited
    return (st.addTokenData tokenData).addV1Ownership ownership
  | .deleteTableItem item => do
    let ownership ← getV1OwnershipFromDeleteTableItem sdk item ctx.txnVersion ctx.txnTimestamp
      ctx.tableHandleToOwner ctx.moduleEvents.tokensWithdrawn
    return st.addDeletedOwnership ownership
  | .writeResource wr _ => do
    -- A burned token may still be written: both are tried, the token first.
    let st ← parseToken sdk ctx wr st
    let ownership ← getBurnedNftV2FromWriteResource sdk wr ctx.txnVersion ctx.txnTimestamp
      st.priorNftOwnership ctx.tokensBurned st.tokenV2MetadataHelper (ctx.ownerLookup change.2)
    return (st.addDeletedTokenData (getBurnedNftV2Data sdk wr.address ctx.txnVersion
      ctx.txnTimestamp ctx.tokensBurned)).addDeletedOwnership ownership
  | .deleteResource dr _ =>
    some ((st.addDeletedTokenData (getBurnedNftV2Data sdk dr.address ctx.txnVersion
        ctx.txnTimestamp ctx.tokensBurned)).addDeletedOwnership
      (getBurnedNftV2FromDeleteResource sdk dr ctx.txnVersion ctx.txnTimestamp
        st.priorNftOwnership ctx.tokensBurned (ctx.ownerLookup change.2)))
  | .other => some st

/-! ## Batches -/

/-- What a batch is parsed with. -/
structure ParseContext where
  tableHandleToOwner : TableHandleToOwner
  ownerLookup : Int64 → ℕ → String → Option String

/-- What is known about objects when the events of a transaction are read. -/
def objectsOf (sdk : TokenSdk) (metadata : ObjectAggregatedDataMapping)
    (changes : List Protos.Change) : Option ObjectAggregatedDataMapping := do
  let metadata ← changes.foldlM (insertObject sdk) metadata
  changes.foldlM (fillMetadata sdk) metadata

/-- Loops 1 to 3: the events of a transaction. -/
def parseEvents (sdk : TokenSdk) (txnVersion : Int64) (txnTimestamp : NaiveDateTime)
    (request : UserTransactionRequest) (changes : List Protos.Change)
    (events : List Protos.Event) (st : ParseState) : Option EventState := do
  let metadata ← objectsOf sdk st.tokenV2MetadataHelper changes
  events.zipIdx.foldlM (parseEvent sdk txnVersion txnTimestamp request)
    -- Burns and module events start anew with each transaction, objects do not.
    ⟨metadata, ∅, ⟨∅, ∅⟩, st.tokenActivitiesV2⟩

/-- The four loops over a user transaction. -/
def parseUserTransaction (sdk : TokenSdk) (ctx : ParseContext) (txnVersion : Int64)
    (txnTimestamp : NaiveDateTime) (request : UserTransactionRequest)
    (changes : List Protos.Change) (events : List Protos.Event) (st : ParseState) :
    Option ParseState := do
  let ev ← parseEvents sdk txnVersion txnTimestamp request changes events st
  changes.zipIdx.foldlM
    (parseChange sdk ⟨txnVersion, txnTimestamp, ev.tokensBurned, ev.moduleEvents,
      ctx.tableHandleToOwner, ctx.ownerLookup txnVersion⟩)
    { st with tokenV2MetadataHelper := ev.metadata, tokenActivitiesV2 := ev.activities }

/-- One transaction. Those of unknown kind are skipped, and only user transactions
are read. -/
def parseTransaction (sdk : TokenSdk) (ctx : ParseContext) (st : ParseState)
    (txn : Protos.Transaction) : Option ParseState :=
  match txn.txnData with
  | none => some st
  | some txnData => do
    let timestamp ← txn.timestamp
    let changes ← txn.info
    match txnData with
    | .user request events =>
      let request ← request
      parseUserTransaction sdk ctx txn.txnVersion
        (sdk.parseTimestamp timestamp txn.txnVersion) request changes events st
    | _ => return st

/-- `parse_v2_token`. -/
def parseV2Token (sdk : TokenSdk) (ctx : ParseContext) (transactions : List Protos.Transaction) :
    Option ParseState :=
  transactions.foldlM (parseTransaction sdk ctx) ParseState.init

end IndexerProcessors.TokenV2

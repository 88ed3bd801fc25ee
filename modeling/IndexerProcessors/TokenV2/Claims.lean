import IndexerProcessors.TokenV2.History

/-!
# Pending claims

`current_token_pending_claims` has the offers of V1 tokens. An offer is an item in a table of
the account that made it, under the token and the receiver. If the table's owner is not known
from the batch, a deleted offer is looked up among the claim and cancel events of the
transaction.

All module events are kept per transaction under the token data id. `lookup_tokenV1Events` —
what is found there is the last event of its kind about the token data id.
-/

namespace IndexerProcessors.TokenV2

open IndexerProcessors.Lib
open IndexerProcessors.Protos

/-! ## Identifiers -/

/-- `TokenDataIdType::to_hash`. -/
def TokenDataIdType.toHash (sdk : TokenSdk) (id : TokenDataIdType) : String :=
  sdk.hashStr (sdk.standardizeAddress id.creator ++ "::" ++ id.collection ++ "::" ++ id.name)

/-- `TokenDataIdType::get_collection_data_id_hash`. -/
def TokenDataIdType.getCollectionDataIdHash (sdk : TokenSdk) (id : TokenDataIdType) : String :=
  sdk.hashStr (sdk.standardizeAddress id.creator ++ "::" ++ id.collection)

/-- `TokenOfferIdType`. -/
structure TokenOfferIdType where
  toAddr : String
  tokenId : TokenIdType

def TokenOfferIdType.getToAddress (sdk : TokenSdk) (offer : TokenOfferIdType) : String :=
  sdk.standardizeAddress offer.toAddr

def TokenOfferIdType.ofJson (sdk : TokenSdk) (v : Json) : Option TokenOfferIdType := do
  let toAddr ← v.getStr "to_addr"
  let tokenId ← (v.get "token_id").bind (TokenIdType.ofJson sdk)
  return { toAddr, tokenId }

/-- A key that is a `TokenWriteSet::TokenOfferId`, with what is in it. -/
def tokenOfferIdOf (sdk : TokenSdk) (keyType key : String) : Option (Option TokenOfferIdType) := do
  match ← TokenWriteSet.fromTableItemType sdk keyType key with
  | some .tokenOfferId => ((sdk.fromStr key).bind (TokenOfferIdType.ofJson sdk)).map some
  | _ => return none

/-! ## Events -/

/-- The events that are kept for the table items. -/
inductive EventKind where
  | withdraw
  | deposit
  | claim
  | cancel
  deriving DecidableEq

def TokenEvent.kind : TokenEvent → Option EventKind
  | .tokenWithdraw .. => some .withdraw
  | .tokenDeposit .. => some .deposit
  | .claim .. | .claimTokenEvent .. => some .claim
  | .cancelOffer .. | .cancelTokenOfferEvent .. => some .cancel
  | _ => none

/-- The module events, `tokens_claimed` and `tokens_canceled`, by token data id. -/
structure TokenV1Events where
  moduleEvents : ModuleEvents
  tokensClaimed : Table String TokenActivityHelperV1
  tokensCanceled : Table String TokenActivityHelperV1

def TokenV1Events.empty : TokenV1Events := ⟨⟨∅, ∅⟩, ∅, ∅⟩

namespace TokenV1Events

def record (sdk : TokenSdk) (events : TokenV1Events) (helper : TokenActivityHelperV1)
    (tokenEvent : TokenEvent) : TokenV1Events :=
  let tokenDataId := helper.tokenDataIdStruct.toId sdk
  let events := { events with moduleEvents := events.moduleEvents.record sdk helper tokenEvent }
  match tokenEvent with
  | .claim .. | .claimTokenEvent .. =>
    { events with tokensClaimed := events.tokensClaimed.insert tokenDataId helper }
  | .cancelOffer .. | .cancelTokenOfferEvent .. =>
    { events with tokensCanceled := events.tokensCanceled.insert tokenDataId helper }
  | _ => events

/-- What `get_v1_from_parsed_event` keeps of an event. -/
def recordEvent (sdk : TokenSdk) (events : TokenV1Events) (event : Protos.Event) :
    Option TokenV1Events := do
  let some tokenEvent ← TokenEvent.fromEvent sdk event
    | return events
  let key ← event.key
  return events.record sdk
    (tokenEvent.activity sdk (sdk.standardizeAddress key.accountAddress)) tokenEvent

/-- The map of a kind of events. -/
def table (events : TokenV1Events) : EventKind → Table String TokenActivityHelperV1
  | .withdraw => events.moduleEvents.tokensWithdrawn
  | .deposit => events.moduleEvents.tokensDeposited
  | .claim => events.tokensClaimed
  | .cancel => events.tokensCanceled

end TokenV1Events

/-- What an event of a kind says. -/
def helperOf (sdk : TokenSdk) (kind : EventKind) (event : Protos.Event) :
    Option TokenActivityHelperV1 :=
  match TokenEvent.fromEvent sdk event with
  | some (some tokenEvent) =>
    if tokenEvent.kind = some kind then event.key.map fun key =>
      tokenEvent.activity sdk (sdk.standardizeAddress key.accountAddress)
    else none
  | _ => none

/-- The last event of a kind about a token data id. -/
def lastAbout (sdk : TokenSdk) (kind : EventKind) (tokenDataId : String)
    (events : List Protos.Event) : Option TokenActivityHelperV1 :=
  ((events.filterMap (helperOf sdk kind)).filter fun helper =>
    helper.tokenDataIdStruct.toId sdk = tokenDataId).getLast?

/-! ## Rows -/

/-- The row of an offer. -/
def pendingClaim (sdk : TokenSdk) (offer : TokenOfferIdType) (fromAddress tableHandle : String)
    (amount : ℚ) (txnVersion : Int64) (txnTimestamp : NaiveDateTime) :
    CurrentTokenPendingClaim where
  tokenDataIdHash := offer.tokenId.tokenDataId.toHash sdk
  propertyVersion := offer.tokenId.propertyVersion
  fromAddress := fromAddress
  toAddress := offer.getToAddress sdk
  collectionDataIdHash := offer.tokenId.tokenDataId.getCollectionDataIdHash sdk
  creatorAddress := sdk.standardizeAddress offer.tokenId.tokenDataId.creator
  collectionName := sdk.truncateStr offer.tokenId.tokenDataId.collection nameLength
  name := sdk.truncateStr offer.tokenId.tokenDataId.name nameLength
  amount := amount
  tableHandle := tableHandle
  lastTransactionVersion := txnVersion
  lastTransactionTimestamp := txnTimestamp
  tokenDataId := offer.tokenId.tokenDataId.toId sdk
  collectionId := offer.tokenId.tokenDataId.getCollectionId sdk

namespace CurrentTokenPendingClaim

/-- `CurrentTokenPendingClaim::from_write_table_item`. -/
def fromWriteTableItem (sdk : TokenSdk) (item : WriteTableItem) (txnVersion : Int64)
    (txnTimestamp : NaiveDateTime) (tableHandleToOwner : TableHandleToOwner) :
    Option (Option CurrentTokenPendingClaim) := do
  let data ← item.data
  let some offer ← tokenOfferIdOf sdk data.keyType data.key
    | return none
  match ← TokenWriteSet.fromTableItemType sdk data.valueType data.value with
  | some (.token token) =>
    let tableHandle := sdk.standardizeAddress item.handle
    -- Without an owner of the table there is only a warning.
    return (tableHandleToOwner.lookup tableHandle).map fun metadata =>
      pendingClaim sdk offer (sdk.standardizeAddress metadata.ownerAddress) tableHandle
        token.amount txnVersion txnTimestamp
  | _ => return none

/-- The owner of the table of a deleted offer: a cancel event goes before a claim event. -/
def offerOwner (sdk : TokenSdk) (tableHandle tokenDataId : String)
    (tableHandleToOwner : TableHandleToOwner)
    (tokensClaimed tokensCanceled : Table String TokenActivityHelperV1) : Option String :=
  match tableHandleToOwner.lookup tableHandle with
  | some metadata => some (sdk.standardizeAddress metadata.ownerAddress)
  | none =>
    match tokensCanceled.lookup tokenDataId with
    | some tokenCanceled => tokenCanceled.fromAddress
    | none => (tokensClaimed.lookup tokenDataId).bind (·.fromAddress)

/-- `CurrentTokenPendingClaim::from_delete_table_item`; an offer without an owner is a panic. -/
def fromDeleteTableItem (sdk : TokenSdk) (item : DeleteTableItem) (txnVersion : Int64)
    (txnTimestamp : NaiveDateTime) (tableHandleToOwner : TableHandleToOwner)
    (tokensClaimed tokensCanceled : Table String TokenActivityHelperV1) :
    Option (Option CurrentTokenPendingClaim) := do
  let data ← item.data
  let some offer ← tokenOfferIdOf sdk data.keyType data.key
    | return none
  let tableHandle := sdk.standardizeAddress item.handle
  let ownerAddress ← offerOwner sdk tableHandle (offer.tokenId.tokenDataId.toId sdk)
    tableHandleToOwner tokensClaimed tokensCanceled
  return some (pendingClaim sdk offer ownerAddress tableHandle 0 txnVersion txnTimestamp)

end CurrentTokenPendingClaim

/-! ## Batches -/

/-- The claim of a change. -/
def claimOfChange (sdk : TokenSdk) (tableHandleToOwner : TableHandleToOwner) (txnVersion : Int64)
    (txnTimestamp : NaiveDateTime) (events : TokenV1Events) :
    Protos.Change → Option (Option CurrentTokenPendingClaim)
  | .writeTableItem item =>
    CurrentTokenPendingClaim.fromWriteTableItem sdk item txnVersion txnTimestamp
      tableHandleToOwner
  | .deleteTableItem item =>
    CurrentTokenPendingClaim.fromDeleteTableItem sdk item txnVersion txnTimestamp
      tableHandleToOwner events.tokensClaimed events.tokensCanceled
  | _ => some none

/-- One transaction: its claims after those before. -/
def claimsTransaction (sdk : TokenSdk) (tableHandleToOwner : TableHandleToOwner)
    (claims : List CurrentTokenPendingClaim) (txn : Protos.Transaction) :
    Option (List CurrentTokenPendingClaim) :=
  match txn.txnData with
  | none => some claims
  | some txnData => do
    let timestamp ← txn.timestamp
    let changes ← txn.info
    match txnData with
    | .user request events =>
      let _ ← request
      let txnTimestamp := sdk.parseTimestamp timestamp txn.txnVersion
      let kept ← events.foldlM (TokenV1Events.recordEvent sdk) .empty
      let new ← changes.mapM
        (claimOfChange sdk tableHandleToOwner txn.txnVersion txnTimestamp kept)
      return claims ++ new.reduceOption
    | _ => return claims

/-- `parse_v2_token`, for the claims, in the order they go into the map. -/
def parseClaims (sdk : TokenSdk) (tableHandleToOwner : TableHandleToOwner)
    (transactions : List Protos.Transaction) : Option (List CurrentTokenPendingClaim) :=
  transactions.foldlM (claimsTransaction sdk tableHandleToOwner) []

variable {sdk : TokenSdk}

/-! ## What is kept of the events -/

/-- An event goes into the map of its kind. -/
theorem table_record (events : TokenV1Events) (helper : TokenActivityHelperV1)
    (tokenEvent : TokenEvent) (kind : EventKind) :
    (events.record sdk helper tokenEvent).table kind =
      if tokenEvent.kind = some kind then
        (events.table kind).insert (helper.tokenDataIdStruct.toId sdk) helper
      else events.table kind := by
  cases tokenEvent <;> cases kind <;> rfl

/-- The step of an event: it is read, and the maps have what its kind says. -/
theorem recordEvent_table {events events' : TokenV1Events} {event : Protos.Event}
    (h : events.recordEvent sdk event = some events') (kind : EventKind) (tokenDataId : String) :
    (events'.table kind).lookup tokenDataId =
      ((helperOf sdk kind event).filter fun helper =>
        helper.tokenDataIdStruct.toId sdk = tokenDataId).or
          ((events.table kind).lookup tokenDataId) := by
  unfold TokenV1Events.recordEvent at h
  obtain ⟨tokenEvent, hevent, h⟩ := Option.bind_eq_some_iff.mp h
  unfold helperOf
  rw [hevent]
  cases tokenEvent with
  | none =>
    obtain rfl := Option.some.inj h
    rfl
  | some tokenEvent =>
    obtain ⟨key, hkey, h⟩ := Option.bind_eq_some_iff.mp h
    obtain rfl := Option.some.inj h
    rw [table_record]
    dsimp only
    split
    next =>
      rw [hkey, Option.map_some, Option.filter_some]
      split
      next hid =>
        rw [← of_decide_eq_true hid, AList.lookup_insert]
        rfl
      next hid =>
        rw [AList.lookup_insert_ne (fun heq => hid (decide_eq_true heq.symm))]
        rfl
    next => rfl

theorem lastAbout_concat (kind : EventKind) (tokenDataId : String) (events : List Protos.Event)
    (event : Protos.Event) :
    lastAbout sdk kind tokenDataId (events ++ [event]) =
      ((helperOf sdk kind event).filter fun helper =>
        helper.tokenDataIdStruct.toId sdk = tokenDataId).or
          (lastAbout sdk kind tokenDataId events) := by
  unfold lastAbout
  rw [List.filterMap_append, List.filter_append, List.getLast?_append]
  congr 1
  cases hhelper : helperOf sdk kind event with
  | none =>
    rw [List.filterMap_cons_none hhelper]
    rfl
  | some helper =>
    rw [List.filterMap_cons_some hhelper, Option.filter_some]
    by_cases hid : helper.tokenDataIdStruct.toId sdk = tokenDataId
    · simp [hid]
    · simp [hid]

/-- **What is kept is the last event** of its kind about a token data id. -/
theorem lookup_tokenV1Events {events : List Protos.Event} {kept : TokenV1Events}
    (h : events.foldlM (TokenV1Events.recordEvent sdk) .empty = some kept) (kind : EventKind)
    (tokenDataId : String) :
    (kept.table kind).lookup tokenDataId = lastAbout sdk kind tokenDataId events := by
  refine foldlM_prefix (P := fun done kept => (TokenV1Events.table kept kind).lookup tokenDataId =
    lastAbout sdk kind tokenDataId done) h ?_ ?_
  · cases kind with
    | withdraw | deposit | claim | cancel => rfl
  · intro done event kept kept' _ hkept hstep
    rw [recordEvent_table hstep, hkept, lastAbout_concat]

/-- The module events are those of loop 3. -/
theorem parseEvents_moduleEvents {txnVersion : Int64} {txnTimestamp : NaiveDateTime}
    {request : UserTransactionRequest} {changes : List Protos.Change}
    {events : List Protos.Event} {st : ParseState} {ev : EventState}
    (h : parseEvents sdk txnVersion txnTimestamp request changes events st = some ev) :
    ∃ kept, events.foldlM (TokenV1Events.recordEvent sdk) .empty = some kept ∧
      kept.moduleEvents = ev.moduleEvents := by
  unfold parseEvents at h
  obtain ⟨metadata, -, h⟩ := Option.bind_eq_some_iff.mp h
  rw [← List.zipIdx_map_fst 0 events]
  refine foldlM_prefix (P := fun done s => ∃ kept,
    (done.map Prod.fst).foldlM (TokenV1Events.recordEvent sdk) .empty = some kept ∧
      kept.moduleEvents = s.moduleEvents) h ⟨_, rfl, rfl⟩ ?_
  intro done event s s' _ hs hstep
  obtain ⟨kept, hkept, hsame⟩ := hs
  unfold parseEvent at hstep
  obtain ⟨s₁, hs₁, hstep⟩ := Option.bind_eq_some_iff.mp hstep
  obtain ⟨v1, hv1, hstep⟩ := Option.bind_eq_some_iff.mp hstep
  obtain ⟨v2, -, hstep⟩ := Option.bind_eq_some_iff.mp hstep
  obtain rfl := Option.some.inj hstep
  -- Burns and transfers of object tokens leave the V1 events alone.
  have hkeeps : s₁.moduleEvents = s.moduleEvents := by
    unfold recordEvent at hs₁
    obtain ⟨tokenEvent, -, hs₁⟩ := Option.bind_eq_some_iff.mp hs₁
    split at hs₁
    next =>
      obtain rfl := Option.some.inj hs₁
      rfl
    next =>
      obtain ⟨key, -, hs₁⟩ := Option.bind_eq_some_iff.mp hs₁
      obtain rfl := Option.some.inj hs₁
      rfl
    next =>
      split at hs₁
      · obtain rfl := Option.some.inj hs₁
        rfl
      · obtain rfl := Option.some.inj hs₁
        rfl
    next =>
      obtain rfl := Option.some.inj hs₁
      rfl
  rw [List.map_append, List.map_singleton, List.foldlM_append, hkept]
  show ∃ kept', List.foldlM (TokenV1Events.recordEvent sdk) kept [event.1] = some kept' ∧ _
  rw [List.foldlM_cons]
  unfold getV1FromParsedEvent at hv1
  obtain ⟨tokenEvent, hevent, hv1⟩ := Option.bind_eq_some_iff.mp hv1
  cases tokenEvent with
  | none =>
    obtain rfl := Option.some.inj hv1
    refine ⟨kept, ?_, hsame.trans hkeeps.symm⟩
    unfold TokenV1Events.recordEvent
    rw [hevent]
    rfl
  | some tokenEvent =>
    obtain ⟨key, hkey, hv1⟩ := Option.bind_eq_some_iff.mp hv1
    obtain rfl := Option.some.inj hv1
    refine ⟨kept.record sdk (tokenEvent.activity sdk
      (sdk.standardizeAddress key.accountAddress)) tokenEvent, ?_, ?_⟩
    · unfold TokenV1Events.recordEvent
      rw [hevent, hkey]
      rfl
    · rw [hkeeps, ← hsame]
      cases tokenEvent <;> rfl

end IndexerProcessors.TokenV2

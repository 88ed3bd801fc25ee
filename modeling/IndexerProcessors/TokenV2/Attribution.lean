import IndexerProcessors.TokenV2.Batching
import IndexerProcessors.TokenV2.Claims

/-!
# Owners from module events

A table item of a V1 token does not say whose table it is in. If the batch has no resource
that says it, the owner is taken from an event of the transaction: the last deposit for a
written token, the last withdrawal for a deleted one, the last cancelled or else the last
claimed offer for a deleted offer, each found by the token data id alone. Which account has
which table is known on the chain only, and is an argument here.

`owner_attribution_iff` — the owners in the rows of a batch are those of the tables and of
events about the same token exactly if the event that is found always is by the owner of the
table, and he has an event about that very token.
-/

namespace IndexerProcessors.TokenV2

open IndexerProcessors.Lib
open IndexerProcessors.Protos

/-- The tables of an account on the chain, by handle. -/
structure AccountTables where
  tokenStore : String → String
  pendingClaims : String → String

/-! ## Events about a token -/

/-- The account of a withdrawal or a deposit. -/
def TokenActivityHelperV1.account (helper : TokenActivityHelperV1) : Option String :=
  helper.fromAddress.or helper.toAddress

/-- What an event says is about a token, and not only about its token data id. -/
def TokenActivityHelperV1.isAbout (sdk : TokenSdk) (helper : TokenActivityHelperV1)
    (tokenDataId : String) (propertyVersion : ℚ) : Prop :=
  helper.tokenDataIdStruct.toId sdk = tokenDataId ∧ helper.propertyVersion = propertyVersion

/-- The withdrawals and deposits among the events. -/
def movesOf (sdk : TokenSdk) (events : List Protos.Event) : List TokenActivityHelperV1 :=
  events.filterMap (helperOf sdk .withdraw) ++ events.filterMap (helperOf sdk .deposit)

/-- The claimed and cancelled offers among the events. -/
def endedOffersOf (sdk : TokenSdk) (events : List Protos.Event) : List TokenActivityHelperV1 :=
  events.filterMap (helperOf sdk .claim) ++ events.filterMap (helperOf sdk .cancel)

/-- A token in a table is an account's: the table is its token store, and an event says that
it withdrew or deposited this token. -/
def HeldBy (sdk : TokenSdk) (chain : AccountTables) (events : List Protos.Event)
    (tokenDataId : String) (propertyVersion : ℚ) (tableHandle account : String) : Prop :=
  chain.tokenStore account = tableHandle ∧ ∃ helper ∈ movesOf sdk events,
    helper.isAbout sdk tokenDataId propertyVersion ∧ helper.account = some account

/-- An offer in a table is an account's: the table has its pending claims, and an event says
that its offer of this token to the receiver was claimed or cancelled. -/
def OfferedBy (sdk : TokenSdk) (chain : AccountTables) (events : List Protos.Event)
    (tokenDataId : String) (propertyVersion : ℚ) (toAddress tableHandle account : String) : Prop :=
  chain.pendingClaims account = tableHandle ∧ ∃ helper ∈ endedOffersOf sdk events,
    helper.isAbout sdk tokenDataId propertyVersion ∧ helper.fromAddress = some account ∧
      helper.toAddress = some toAddress

/-! ## Rows -/

/-- The transaction of a version has a property. -/
def AtVersion (txns : List Protos.Transaction) (version : Int64)
    (P : Protos.Transaction → Prop) : Prop :=
  ∃ txn ∈ txns, txn.txnVersion = version ∧ P txn

section Rows

variable (sdk : TokenSdk) (chain : AccountTables) (tables : TableHandleToOwner)

/-- The owner of a V1 token in a table nothing is known of, by these events. -/
def OwnerRight (events : List Protos.Event) (row : TokenOwnershipV2) : Prop :=
  row.tokenStandard = .v1 → tables.lookup row.storageId = none →
    ∃ owner, row.ownerAddress = some owner ∧
      HeldBy sdk chain events row.tokenDataId row.propertyVersionV1 row.storageId owner

/-- The sender and the receiver of an offer in a table nothing is known of. -/
def ClaimRight (events : List Protos.Event) (claim : CurrentTokenPendingClaim) : Prop :=
  tables.lookup claim.tableHandle = none →
    OfferedBy sdk chain events claim.tokenDataId claim.propertyVersion claim.toAddress
      claim.tableHandle claim.fromAddress

/-- An activity says what its event says. -/
def ActivityRight (events : List Protos.Event) (row : TokenActivityV2) : Prop :=
  row.tokenStandard = .v1 → ∃ index event tokenEvent key, events[index]? = some event ∧
    row.eventIndex = Int64.ofNat index ∧
    TokenEvent.fromEvent sdk event = some (some tokenEvent) ∧ event.key = some key ∧
    let helper := tokenEvent.activity sdk (sdk.standardizeAddress key.accountAddress)
    helper.isAbout sdk row.tokenDataId row.propertyVersionV1 ∧
      row.fromAddress = helper.fromAddress ∧ row.toAddress = helper.toAddress

/-- The owners in all rows of a batch are right. -/
structure OwnersAttributed (txns : List Protos.Transaction) (out : History)
    (claims : List CurrentTokenPendingClaim) : Prop where
  ownerships : ∀ row ∈ out.tokenOwnershipsV2, AtVersion txns row.transactionVersion fun txn =>
    OwnerRight sdk chain tables (readEvents txn) row
  current : out.parsed.AllRows fun row => AtVersion txns row.lastTransactionVersion fun txn =>
    OwnerRight sdk chain tables (readEvents txn) (row.historic 0)
  claims : ∀ claim ∈ claims, AtVersion txns claim.lastTransactionVersion fun txn =>
    ClaimRight sdk chain tables (readEvents txn) claim
  activities : ∀ row ∈ out.parsed.tokenActivitiesV2,
    AtVersion txns row.transactionVersion fun txn => ActivityRight sdk (readEvents txn) row

end Rows

/-! ## Table items -/

/-- The offer a deleted table item has for its key. -/
def deletedOffer (sdk : TokenSdk) (item : DeleteTableItem) : Option TokenOfferIdType :=
  item.data.bind fun data => (tokenOfferIdOf sdk data.keyType data.key).join

section Items

variable (sdk : TokenSdk) (chain : AccountTables) (tables : TableHandleToOwner)
  (events : List Protos.Event)

/-- The last event of a kind about the token data id is by the owner of the table, who has an
event about the token. -/
def LastHolds (kind : EventKind) (id : TokenIdType) (tableHandle : String) : Prop :=
  ∀ last ∈ lastAbout sdk kind (id.tokenDataId.toId sdk) events, ∀ account ∈ last.account,
    HeldBy sdk chain events (id.tokenDataId.toId sdk) id.propertyVersion tableHandle account

/-- So is the last cancelled or else the last claimed offer of the token data id. -/
def LastOffers (offer : TokenOfferIdType) (tableHandle : String) : Prop :=
  ∀ last ∈ (lastAbout sdk .cancel (offer.tokenId.tokenDataId.toId sdk) events).or
      (lastAbout sdk .claim (offer.tokenId.tokenDataId.toId sdk) events),
    ∀ account ∈ last.fromAddress,
      OfferedBy sdk chain events (offer.tokenId.tokenDataId.toId sdk)
        offer.tokenId.propertyVersion (offer.getToAddress sdk) tableHandle account

/-- The token a table item without a known table is about is found by the right event. -/
def TokenItemRight : Protos.Change → Prop
  | .writeTableItem item =>
    tables.lookup (sdk.standardizeAddress item.handle) = none →
      ∀ token ∈ writtenToken sdk item,
        LastHolds sdk chain events .deposit token.id (sdk.standardizeAddress item.handle)
  | .deleteTableItem item =>
    tables.lookup (sdk.standardizeAddress item.handle) = none →
      ∀ id ∈ deletedToken sdk item,
        LastHolds sdk chain events .withdraw id (sdk.standardizeAddress item.handle)
  | _ => True

/-- So is the offer. -/
def OfferItemRight : Protos.Change → Prop
  | .deleteTableItem item =>
    tables.lookup (sdk.standardizeAddress item.handle) = none →
      ∀ offer ∈ deletedOffer sdk item,
        LastOffers sdk chain events offer (sdk.standardizeAddress item.handle)
  | _ => True

end Items

section Decide

variable {sdk : TokenSdk} {chain : AccountTables} {tables : TableHandleToOwner}
  {events : List Protos.Event}

instance (helper : TokenActivityHelperV1) (tokenDataId : String) (propertyVersion : ℚ) :
    Decidable (helper.isAbout sdk tokenDataId propertyVersion) :=
  inferInstanceAs (Decidable (_ ∧ _))

instance (tokenDataId : String) (propertyVersion : ℚ) (tableHandle account : String) :
    Decidable (HeldBy sdk chain events tokenDataId propertyVersion tableHandle account) :=
  inferInstanceAs (Decidable (_ ∧ ∃ helper ∈ movesOf sdk events, _ ∧ _))

instance (tokenDataId : String) (propertyVersion : ℚ) (toAddress tableHandle account : String) :
    Decidable (OfferedBy sdk chain events tokenDataId propertyVersion toAddress tableHandle
      account) :=
  inferInstanceAs (Decidable (_ ∧ ∃ helper ∈ endedOffersOf sdk events, _ ∧ _ ∧ _))

instance (kind : EventKind) (id : TokenIdType) (tableHandle : String) :
    Decidable (LastHolds sdk chain events kind id tableHandle) :=
  inferInstanceAs (Decidable (∀ last ∈ lastAbout _ _ _ _, ∀ account ∈ last.account, _))

instance (offer : TokenOfferIdType) (tableHandle : String) :
    Decidable (LastOffers sdk chain events offer tableHandle) :=
  inferInstanceAs (Decidable (∀ last ∈ (lastAbout ..).or (lastAbout ..),
    ∀ account ∈ last.fromAddress, _))

instance : DecidablePred (TokenItemRight sdk chain tables events)
  | .writeTableItem _ => inferInstanceAs (Decidable (_ → ∀ token ∈ writtenToken _ _, _))
  | .deleteTableItem _ => inferInstanceAs (Decidable (_ → ∀ id ∈ deletedToken _ _, _))
  | .writeResource .. | .deleteResource .. | .other => inferInstanceAs (Decidable True)

instance : DecidablePred (OfferItemRight sdk chain tables events)
  | .deleteTableItem _ => inferInstanceAs (Decidable (_ → ∀ offer ∈ deletedOffer _ _, _))
  | .writeTableItem _ | .writeResource .. | .deleteResource .. | .other =>
    inferInstanceAs (Decidable True)

end Decide

/-- All table items of the transactions are so. -/
def EventsAttribute (sdk : TokenSdk) (chain : AccountTables) (tables : TableHandleToOwner)
    (txns : List Protos.Transaction) : Prop :=
  ∀ txn ∈ txns, ∀ change ∈ readChanges txn,
    TokenItemRight sdk chain tables (readEvents txn) change ∧
      OfferItemRight sdk chain tables (readEvents txn) change

/-! ## Table items and their rows -/

section Items

variable {sdk : TokenSdk} (chain : AccountTables) {tables : TableHandleToOwner}
  {events : List Protos.Event}

theorem exists_of_helperOf {kind : EventKind} {event : Protos.Event}
    {helper : TokenActivityHelperV1} (h : helperOf sdk kind event = some helper) :
    ∃ tokenEvent account, TokenEvent.kind tokenEvent = some kind ∧
      helper = tokenEvent.activity sdk account := by
  unfold helperOf at h
  split at h
  next tokenEvent _ =>
    split at h
    next hkind =>
      obtain ⟨key, -, rfl⟩ := Option.map_eq_some_iff.mp h
      exact ⟨tokenEvent, _, hkind, rfl⟩
    next => cases h
  next => cases h

/-- A deposit has the account as its receiver. -/
theorem toAddress_of_deposit {event : Protos.Event} {helper : TokenActivityHelperV1}
    (h : helperOf sdk .deposit event = some helper) : helper.toAddress = helper.account := by
  obtain ⟨tokenEvent, account, hkind, rfl⟩ := exists_of_helperOf h
  cases tokenEvent with
  | tokenDeposit => rfl
  | _ => cases hkind

/-- A withdrawal has it as its sender. -/
theorem fromAddress_of_withdraw {event : Protos.Event} {helper : TokenActivityHelperV1}
    (h : helperOf sdk .withdraw event = some helper) : helper.fromAddress = helper.account := by
  obtain ⟨tokenEvent, account, hkind, rfl⟩ := exists_of_helperOf h
  cases tokenEvent with
  | tokenWithdraw => rfl
  | _ => cases hkind

theorem exists_of_lastAbout {kind : EventKind} {tokenDataId : String}
    {last : TokenActivityHelperV1} (h : lastAbout sdk kind tokenDataId events = some last) :
    ∃ event ∈ events, helperOf sdk kind event = some last :=
  List.mem_filterMap.mp (List.mem_filter.mp (List.mem_of_getLast? h)).1

/-- The row of a token in a table nothing is known of names the account of the last event. -/
theorem v1Ownership_right_iff {kind : EventKind} {id : TokenIdType} {tableHandle : String}
    {amount : ℚ} {properties : Option Json} {txnVersion index : Int64}
    {txnTimestamp : NaiveDateTime} {moduleEvents : Table String TokenActivityHelperV1}
    {address : TokenActivityHelperV1 → Option String}
    (hkept : ∀ tokenDataId, moduleEvents.lookup tokenDataId =
      lastAbout sdk kind tokenDataId events)
    (haddress : ∀ event helper, helperOf sdk kind event = some helper →
      address helper = helper.account) :
    (∀ row ∈ ((tokenStoreOwner sdk tableHandle (id.tokenDataId.toId sdk) tables moduleEvents
        address).join.map fun owner => v1Ownership sdk id owner tableHandle amount properties
          txnVersion txnTimestamp).toList,
      OwnerRight sdk chain tables events (row.historic index)) ↔
      (tables.lookup tableHandle = none → LastHolds sdk chain events kind id tableHandle) := by
  rw [Option.toList_map, List.forall_mem_map]
  simp only [Option.mem_toList]
  cases htable : tables.lookup tableHandle with
  | some metadata =>
    refine iff_of_true ?_ (fun hnone => nomatch hnone)
    intro owner _ _ hnone
    exact nomatch htable.symm.trans hnone
  -- Nothing is known of the table: the row is there if an event is, and names its account.
  | none =>
    unfold tokenStoreOwner LastHolds
    rw [htable, hkept]
    cases hlast : lastAbout sdk kind (id.tokenDataId.toId sdk) events with
    | none =>
      exact iff_of_true (fun owner howner => nomatch howner) (fun _ last hlast => nomatch hlast)
    | some last =>
      obtain ⟨event, -, hevent⟩ := exists_of_lastAbout hlast
      dsimp only
      rw [haddress event last hevent]
      constructor
      · intro h _ last' hlast' account haccount
        obtain rfl := Option.some.inj hlast'
        obtain ⟨owner, howner, hheld⟩ := h account (by
          rw [Option.mem_def.mp haccount]
          rfl) rfl htable
        obtain rfl := Option.some.inj howner
        exact hheld
      · intro h owner howner _ _
        refine ⟨owner, rfl, h rfl last rfl owner ?_⟩
        cases haccount : last.account with
        | none =>
          rw [haccount] at howner
          cases howner
        | some account =>
          rw [haccount] at howner
          exact howner

/-- The rows of a change. -/
theorem changeRows_right_iff {ctx : ChangeContext} {transfers : IndexedTransfers}
    {st : ParseState} {change : Protos.Change} {index : ℕ} {rows : List TokenOwnershipV2}
    (hindexed : IndexedWith transfers st.tokenV2MetadataHelper)
    (hdeposited : ∀ tokenDataId, ctx.moduleEvents.tokensDeposited.lookup tokenDataId =
      lastAbout sdk .deposit tokenDataId events)
    (hwithdrawn : ∀ tokenDataId, ctx.moduleEvents.tokensWithdrawn.lookup tokenDataId =
      lastAbout sdk .withdraw tokenDataId events)
    (h : changeRows sdk ctx transfers st (change, index) = some rows) :
    (∀ row ∈ rows, OwnerRight sdk chain ctx.tableHandleToOwner events row) ↔
      TokenItemRight sdk chain ctx.tableHandleToOwner events change := by
  cases change with
  | writeTableItem item =>
    obtain ⟨ownership, hownership, h⟩ := Option.bind_eq_some_iff.mp h
    obtain rfl := Option.some.inj h
    rw [List.forall_mem_map, getV1OwnershipFromWriteTableItem_eq hownership]
    rw [TokenItemRight]
    cases writtenToken sdk item with
    | none =>
      exact iff_of_true (fun row hrow => nomatch hrow)
        (fun _ token htoken => absurd htoken (Option.not_mem_none _))
    | some token =>
      rw [Option.bind_some]
      refine (v1Ownership_right_iff chain hdeposited fun _ _ => toAddress_of_deposit).trans ?_
      refine imp_congr_right fun _ => ?_
      exact ⟨fun h token htoken => Option.some.inj htoken ▸ h, fun h => h token rfl⟩
  | deleteTableItem item =>
    obtain ⟨ownership, hownership, h⟩ := Option.bind_eq_some_iff.mp h
    obtain rfl := Option.some.inj h
    rw [List.forall_mem_map, getV1OwnershipFromDeleteTableItem_eq hownership]
    rw [TokenItemRight]
    cases deletedToken sdk item with
    | none =>
      exact iff_of_true (fun row hrow => nomatch hrow)
        (fun _ id hid => absurd hid (Option.not_mem_none _))
    | some id =>
      rw [Option.bind_some]
      refine (v1Ownership_right_iff chain hwithdrawn fun _ _ => fromAddress_of_withdraw).trans ?_
      refine imp_congr_right fun _ => ?_
      exact ⟨fun h id hid => Option.some.inj hid ▸ h, fun h => h id rfl⟩
  -- Resources give rows of object tokens only.
  | writeResource wr params =>
    refine iff_of_true ?_ trivial
    intro row hrow hv1
    have hv2 := (writeResource_rows hindexed h row hrow).2
    exact nomatch hv1.symm.trans hv2
  | deleteResource dr params =>
    refine iff_of_true ?_ trivial
    intro row hrow hv1
    have hv2 := (deleteResource_rows h row hrow).2
    exact nomatch hv1.symm.trans hv2
  | other =>
    obtain rfl := Option.some.inj h
    exact iff_of_true (List.forall_mem_nil _) trivial

/-- The claim of a deleted offer. -/
theorem fromDeleteTableItem_eq {item : DeleteTableItem} {txnVersion : Int64}
    {txnTimestamp : NaiveDateTime}
    {tokensClaimed tokensCanceled : Table String TokenActivityHelperV1}
    {claim : Option CurrentTokenPendingClaim}
    (h : CurrentTokenPendingClaim.fromDeleteTableItem sdk item txnVersion txnTimestamp tables
      tokensClaimed tokensCanceled = some claim) :
    claim = (deletedOffer sdk item).bind fun offer =>
      (CurrentTokenPendingClaim.offerOwner sdk (sdk.standardizeAddress item.handle)
        (offer.tokenId.tokenDataId.toId sdk) tables tokensClaimed tokensCanceled).map fun owner =>
          pendingClaim sdk offer owner (sdk.standardizeAddress item.handle) 0 txnVersion
            txnTimestamp := by
  -- A panic on the way would have left no claim at all, so every reading is there.
  obtain ⟨data, hdata, h⟩ := Option.bind_eq_some_iff.mp h
  obtain ⟨offer, hoffer, h⟩ := Option.bind_eq_some_iff.mp h
  unfold deletedOffer
  rw [hdata, Option.bind_some, hoffer]
  cases offer with
  | none =>
    obtain rfl := Option.some.inj h
    rfl
  | some offer =>
    obtain ⟨owner, howner, h⟩ := Option.bind_eq_some_iff.mp h
    obtain rfl := Option.some.inj h
    show _ = Option.map _ _
    rw [howner]
    rfl

/-- A written offer in a table nothing is known of has no row. -/
theorem known_of_written {item : WriteTableItem} {txnVersion : Int64}
    {txnTimestamp : NaiveDateTime} {claim : CurrentTokenPendingClaim}
    (h : CurrentTokenPendingClaim.fromWriteTableItem sdk item txnVersion txnTimestamp tables =
      some (some claim)) :
    claim.lastTransactionVersion = txnVersion ∧
      ∃ metadata, tables.lookup claim.tableHandle = some metadata := by
  obtain ⟨data, -, h⟩ := Option.bind_eq_some_iff.mp h
  obtain ⟨offer, -, h⟩ := Option.bind_eq_some_iff.mp h
  cases offer with
  | none => cases Option.some.inj h
  | some offer =>
    -- The table is looked up before there is a row.
    obtain ⟨value, -, h⟩ := Option.bind_eq_some_iff.mp h
    split at h
    · obtain ⟨metadata, hmetadata, rfl⟩ := Option.map_eq_some_iff.mp (Option.some.inj h)
      exact ⟨rfl, metadata, hmetadata⟩
    · cases Option.some.inj h

/-- The claim of a deleted offer in a table nothing is known of names the sender of the last
event. -/
theorem pendingClaim_right_iff {offer : TokenOfferIdType} {tableHandle : String} {amount : ℚ}
    {txnVersion : Int64} {txnTimestamp : NaiveDateTime} {kept : TokenV1Events}
    (hkept : ∀ kind tokenDataId, (kept.table kind).lookup tokenDataId =
      lastAbout sdk kind tokenDataId events) :
    (∀ claim ∈ (CurrentTokenPendingClaim.offerOwner sdk tableHandle
        (offer.tokenId.tokenDataId.toId sdk) tables kept.tokensClaimed kept.tokensCanceled).map
          fun owner => pendingClaim sdk offer owner tableHandle amount txnVersion txnTimestamp,
      ClaimRight sdk chain tables events claim) ↔
      (tables.lookup tableHandle = none → LastOffers sdk chain events offer tableHandle) := by
  -- The events are only asked of a table that is in no resource of the batch.
  rw [Option.forall_mem_map]
  cases htable : tables.lookup tableHandle with
  | some metadata =>
    refine iff_of_true ?_ (fun hnone => nomatch hnone)
    intro owner _ hnone
    exact nomatch htable.symm.trans hnone
  | none =>
    -- A cancelled offer hides the claimed ones of the token data id.
    have howner : CurrentTokenPendingClaim.offerOwner sdk tableHandle
        (offer.tokenId.tokenDataId.toId sdk) tables kept.tokensClaimed kept.tokensCanceled =
        ((lastAbout sdk .cancel (offer.tokenId.tokenDataId.toId sdk) events).or
          (lastAbout sdk .claim (offer.tokenId.tokenDataId.toId sdk) events)).bind
            (·.fromAddress) := by
      unfold CurrentTokenPendingClaim.offerOwner
      rw [htable, ← hkept .cancel, ← hkept .claim]
      dsimp only [TokenV1Events.table]
      cases kept.tokensCanceled.lookup (offer.tokenId.tokenDataId.toId sdk) with
      | none => rfl
      | some helper => rfl
    rw [howner]
    unfold LastOffers
    constructor
    · intro h _ last hlast account haccount
      exact h account (Option.mem_bind_iff.mpr ⟨last, hlast, haccount⟩) htable
    · intro h owner howner _
      obtain ⟨last, hlast, haccount⟩ := Option.mem_bind_iff.mp howner
      exact h rfl last hlast owner haccount

/-- The claim of a change. -/
theorem claimOfChange_right_iff {txnVersion : Int64} {txnTimestamp : NaiveDateTime}
    {kept : TokenV1Events} {change : Protos.Change} {claim : Option CurrentTokenPendingClaim}
    (hkept : ∀ kind tokenDataId, (kept.table kind).lookup tokenDataId =
      lastAbout sdk kind tokenDataId events)
    (h : claimOfChange sdk tables txnVersion txnTimestamp kept change = some claim) :
    (∀ row ∈ claim, row.lastTransactionVersion = txnVersion) ∧
      ((∀ row ∈ claim, ClaimRight sdk chain tables events row) ↔
        OfferItemRight sdk chain tables events change) := by
  cases change with
  | writeTableItem item =>
    refine ⟨?_, iff_of_true ?_ trivial⟩
    · intro row hrow
      obtain rfl := Option.mem_def.mp hrow
      exact (known_of_written h).1
    · intro row hrow hnone
      obtain rfl := Option.mem_def.mp hrow
      obtain ⟨metadata, hmetadata⟩ := (known_of_written h).2
      exact nomatch hmetadata.symm.trans hnone
  -- Only here an owner is looked up among the events.
  | deleteTableItem item =>
    rw [fromDeleteTableItem_eq h, OfferItemRight]
    cases deletedOffer sdk item with
    | none =>
      exact ⟨(fun row hrow => nomatch hrow), iff_of_true (fun row hrow => nomatch hrow)
        (fun _ offer hoffer => absurd hoffer (Option.not_mem_none _))⟩
    | some offer =>
      rw [Option.bind_some]
      constructor
      · rw [Option.forall_mem_map]
        exact fun _ _ => rfl
      · refine (pendingClaim_right_iff chain hkept).trans (imp_congr_right fun _ => ?_)
        exact ⟨fun h offer hoffer => Option.some.inj hoffer ▸ h, fun h => h offer rfl⟩
  | writeResource | deleteResource | other =>
    obtain rfl := Option.some.inj h
    exact ⟨(fun row hrow => nomatch hrow), iff_of_true (fun row hrow => nomatch hrow) trivial⟩

end Items

/-! ## One transaction -/

section Transactions

variable {sdk : TokenSdk} (chain : AccountTables)

/-- The ownerships a transaction adds are right exactly if its token items are so. -/
theorem historyTransaction_right_iff {ctx : ParseContext} {st st' : History}
    {txn : Protos.Transaction} (hindexed : st.Indexed)
    (h : historyTransaction sdk ctx st txn = some st') :
    ∃ rows, st'.tokenOwnershipsV2 = st.tokenOwnershipsV2 ++ rows ∧
      (∀ row ∈ rows, row.transactionVersion = txn.txnVersion) ∧
      ((∀ row ∈ rows, OwnerRight sdk chain ctx.tableHandleToOwner (readEvents txn) row) ↔
        ∀ change ∈ readChanges txn,
          TokenItemRight sdk chain ctx.tableHandleToOwner (readEvents txn) change) := by
  -- A transaction that is no user transaction has no events to look into and adds no row.
  rcases historyTransaction_cases h with ⟨rfl, hchanges, -⟩ | ⟨ts, request, ev, -, -, hev, hfold⟩
  · rw [hchanges]
    refine ⟨[], (List.append_nil _).symm, List.forall_mem_nil _, ?_⟩
    exact iff_of_true (List.forall_mem_nil _) (List.forall_mem_nil _)
  · obtain ⟨kept, hkept, hmodule⟩ := parseEvents_moduleEvents hev
    have hlookup : ∀ kind tokenDataId, (kept.table kind).lookup tokenDataId =
        lastAbout sdk kind tokenDataId (readEvents txn) := lookup_tokenV1Events hkept
    -- The maps are complete before the first change is read, so each change sees the last
    -- event of the whole transaction.
    refine (historyChanges_rows_iff hfold (indexedWith_parseEvents hindexed hev) ?_).2
    intro change _ index s rows hs _ hrows
    refine changeRows_right_iff chain hs ?_ ?_ hrows
    · intro tokenDataId
      rw [← hlookup .deposit]
      exact congrArg (fun m => AList.lookup tokenDataId (ModuleEvents.tokensDeposited m))
        hmodule.symm
    · intro tokenDataId
      rw [← hlookup .withdraw]
      exact congrArg (fun m => AList.lookup tokenDataId (ModuleEvents.tokensWithdrawn m))
        hmodule.symm

/-- A transaction is not read for its claims, or its events are and then its changes. -/
theorem claimsTransaction_cases {tables : TableHandleToOwner}
    {claims claims' : List CurrentTokenPendingClaim} {txn : Protos.Transaction}
    (h : claimsTransaction sdk tables claims txn = some claims') :
    (claims' = claims ∧ readChanges txn = []) ∨
      ∃ txnTimestamp kept new,
        (readEvents txn).foldlM (TokenV1Events.recordEvent sdk) .empty = some kept ∧
        (readChanges txn).mapM (claimOfChange sdk tables txn.txnVersion txnTimestamp kept) =
          some new ∧
        claims' = claims ++ new.reduceOption := by
  unfold claimsTransaction at h
  unfold readChanges readEvents
  split at h
  next hnone =>
    obtain rfl := Option.some.inj h
    rw [hnone]
    exact Or.inl ⟨rfl, rfl⟩
  next txnData hdata =>
    obtain ⟨timestamp, -, h⟩ := Option.bind_eq_some_iff.mp h
    obtain ⟨changes, hchanges, h⟩ := Option.bind_eq_some_iff.mp h
    rw [hdata, hchanges]
    cases txnData with
    | user request events =>
      obtain ⟨request, -, h⟩ := Option.bind_eq_some_iff.mp h
      obtain ⟨kept, hkept, h⟩ := Option.bind_eq_some_iff.mp h
      obtain ⟨new, hnew, h⟩ := Option.bind_eq_some_iff.mp h
      obtain rfl := Option.some.inj h
      exact Or.inr ⟨_, kept, new, hkept, hnew, rfl⟩
    | blockMetadata | genesis | validator | other =>
      obtain rfl := Option.some.inj h
      exact Or.inl ⟨rfl, rfl⟩

/-- The claims a transaction adds are right exactly if its offers are so. -/
theorem claimsTransaction_right_iff {tables : TableHandleToOwner}
    {claims claims' : List CurrentTokenPendingClaim} {txn : Protos.Transaction}
    (h : claimsTransaction sdk tables claims txn = some claims') :
    ∃ new, claims' = claims ++ new ∧
      (∀ claim ∈ new, claim.lastTransactionVersion = txn.txnVersion) ∧
      ((∀ claim ∈ new, ClaimRight sdk chain tables (readEvents txn) claim) ↔
        ∀ change ∈ readChanges txn,
          OfferItemRight sdk chain tables (readEvents txn) change) := by
  rcases claimsTransaction_cases h with ⟨rfl, hchanges⟩ |
    ⟨txnTimestamp, kept, new, hkept, hnew, rfl⟩
  · rw [hchanges]
    refine ⟨[], (List.append_nil _).symm, List.forall_mem_nil _, ?_⟩
    exact iff_of_true (List.forall_mem_nil _) (List.forall_mem_nil _)
  -- Each claim is that of one change, and each change is judged by its own claim.
  · have hone : ∀ {change claim},
        claimOfChange sdk tables txn.txnVersion txnTimestamp kept change = some claim → _ :=
      fun hclaim => claimOfChange_right_iff chain (lookup_tokenV1Events hkept) hclaim
    refine ⟨new.reduceOption, rfl, ?_, ?_, ?_⟩
    · intro claim hclaim
      obtain ⟨change, -, hchange⟩ := (mem_of_mapM hnew).mp (List.reduceOption_mem_iff.mp hclaim)
      exact (hone hchange).1 claim rfl
    · intro hright change hchange
      obtain ⟨claim, hclaim, hof⟩ := exists_of_mapM hnew hchange
      refine (hone hof).2.mp ?_
      intro row hrow
      obtain rfl := Option.mem_def.mp hrow
      exact hright row (List.reduceOption_mem_iff.mpr hclaim)
    · intro hright claim hclaim
      obtain ⟨change, hchange, hof⟩ :=
        (mem_of_mapM hnew).mp (List.reduceOption_mem_iff.mp hclaim)
      exact (hone hof).2.mpr (hright change hchange) claim rfl

/-- The activities of a transaction say what its events say. -/
theorem activitySlots_right {txn : Protos.Transaction} {slot : ActivitySlot}
    (h : slot ∈ activitySlots sdk txn) (core : Option ObjectCore) :
    ActivityRight sdk (readEvents txn) (slot core) := by
  unfold activitySlots at h
  unfold readEvents
  split at h
  next timestamp request events _ hdata =>
    rw [hdata]
    obtain ⟨⟨event, index⟩, hmem, hslot⟩ := List.mem_flatMap.mp h
    -- A V1 activity is made from its own event alone, with no map in between.
    rcases List.mem_append.mp hslot with hv1 | hv2
    · obtain ⟨row, hrow, rfl⟩ := List.mem_map.mp hv1
      unfold v1Slot at hrow
      obtain ⟨tokenEvent, hevent, hrow⟩ := Option.bind_eq_some_iff.mp (Option.mem_toList.mp hrow)
      obtain ⟨key, hkey, hrow⟩ := Option.bind_eq_some_iff.mp hrow
      obtain rfl := Option.some.inj hrow
      intro _
      exact ⟨index, event, tokenEvent, key, List.mem_zipIdx_iff_getElem?.mp hmem, rfl,
        Option.join_eq_some_iff.mp hevent, hkey, ⟨rfl, rfl⟩, rfl, rfl⟩
    · unfold v2Slot at hv2
      obtain ⟨tokenEvent, -, hslot⟩ := Option.bind_eq_some_iff.mp (Option.mem_toList.mp hv2)
      obtain ⟨key, -, hslot⟩ := Option.bind_eq_some_iff.mp hslot
      obtain rfl := Option.some.inj hslot
      exact fun hv1 => nomatch hv1
  next => cases h

end Transactions

/-! ## Batches -/

section Batches

variable {sdk : TokenSdk} (chain : AccountTables)

/-- Rows collected over a batch, each about the transaction it is of. -/
theorem forall_atVersion_concat {Row : Type} {version : Row → Int64}
    {P : Row → Protos.Transaction → Prop} {done : List Protos.Transaction}
    {txn : Protos.Transaction} {rows new : List Row}
    (hlt : ∀ t ∈ done, t.txnVersion < txn.txnVersion)
    (hrows : ∀ row ∈ rows, ∃ t ∈ done, version row = t.txnVersion)
    (hnew : ∀ row ∈ new, version row = txn.txnVersion) :
    (∀ row ∈ rows ++ new, AtVersion (done ++ [txn]) (version row) (P row)) ↔
      (∀ row ∈ rows, AtVersion done (version row) (P row)) ∧ ∀ row ∈ new, P row txn := by
  rw [List.forall_mem_append]
  refine and_congr (forall₂_congr fun row hrow => ?_) (forall₂_congr fun row hrow => ?_)
  · obtain ⟨t, ht, hversion⟩ := hrows row hrow
    constructor
    · intro h
      obtain ⟨last, hlast, heq, hP⟩ := h
      rcases List.mem_append.mp hlast with hmem | hmem
      · exact ⟨last, hmem, heq, hP⟩
      · obtain rfl := List.mem_singleton.mp hmem
        exact absurd (heq.trans hversion) (Int64.ne_of_lt (hlt t ht)).symm
    · intro h
      obtain ⟨last, hlast, heq, hP⟩ := h
      exact ⟨last, List.mem_append_left _ hlast, heq, hP⟩
  -- No earlier transaction has the version of this one.
  · rw [hnew row hrow]
    constructor
    · intro h
      obtain ⟨last, hlast, heq, hP⟩ := h
      rcases List.mem_append.mp hlast with hmem | hmem
      · exact absurd heq (Int64.ne_of_lt (hlt last hmem))
      · obtain rfl := List.mem_singleton.mp hmem
        exact hP
    · exact fun hP => ⟨txn, List.mem_append_right _ (List.mem_singleton.mpr rfl), rfl, hP⟩

/-- The index has no part in it. -/
theorem ownerRight_of_unindexed {tables : TableHandleToOwner} {events : List Protos.Event}
    {row : TokenOwnershipV2} {current : CurrentTokenOwnershipV2}
    (h : row.unindexed = current.historic 0) (hrow : OwnerRight sdk chain tables events row) :
    OwnerRight sdk chain tables events (current.historic 0) := by
  rw [← h]
  exact hrow

/-- The ownerships of a batch are right exactly if its token items are so. -/
theorem parseHistory_right_iff {ctx : ParseContext} {txns : List Protos.Transaction}
    {out : History} (htxns : InOrder txns) (h : parseHistory sdk ctx txns = some out) :
    (∀ row ∈ out.tokenOwnershipsV2, AtVersion txns row.transactionVersion fun txn =>
      OwnerRight sdk chain ctx.tableHandleToOwner (readEvents txn) row) ↔
      ∀ txn ∈ txns, ∀ change ∈ readChanges txn,
        TokenItemRight sdk chain ctx.tableHandleToOwner (readEvents txn) change := by
  -- Along the batch: the rows so far are right exactly if the items so far are.
  have hrun := foldlM_prefix (P := fun done (st : History) => st.Indexed ∧
    (∀ row ∈ st.tokenOwnershipsV2, ∃ t ∈ done, row.transactionVersion = t.txnVersion) ∧
    ((∀ row ∈ st.tokenOwnershipsV2, AtVersion done row.transactionVersion fun txn =>
      OwnerRight sdk chain ctx.tableHandleToOwner (readEvents txn) row) ↔
      ∀ txn ∈ done, ∀ change ∈ readChanges txn,
        TokenItemRight sdk chain ctx.tableHandleToOwner (readEvents txn) change)) h
    ⟨fun _ => rfl, List.forall_mem_nil _,
      iff_of_true (List.forall_mem_nil _) (List.forall_mem_nil _)⟩ ?_
  · exact hrun.2.2
  · intro done txn st st' hprefix hst hstep
    obtain ⟨hindexed, hversions, hright⟩ := hst
    obtain ⟨rows, happend, hnew, hone⟩ := historyTransaction_right_iff chain hindexed
      hstep
    have hlt := htxns.lt_of_prefix_concat hprefix
    rw [happend]
    refine ⟨indexed_transaction hindexed hstep, ?_, ?_⟩
    · exact rowVersions_concat hversions hnew
    · rw [forall_atVersion_concat hlt hversions hnew, hright, hone, List.forall_mem_append,
        List.forall_mem_singleton]

/-- The claims of a batch are right exactly if its offers are so. -/
theorem parseClaims_right_iff {tables : TableHandleToOwner} {txns : List Protos.Transaction}
    {claims : List CurrentTokenPendingClaim} (htxns : InOrder txns)
    (h : parseClaims sdk tables txns = some claims) :
    (∀ claim ∈ claims, AtVersion txns claim.lastTransactionVersion fun txn =>
      ClaimRight sdk chain tables (readEvents txn) claim) ↔
      ∀ txn ∈ txns, ∀ change ∈ readChanges txn,
        OfferItemRight sdk chain tables (readEvents txn) change := by
  -- As for the ownerships, along the batch.
  have hrun := foldlM_prefix (P := fun done (claims : List CurrentTokenPendingClaim) =>
    (∀ claim ∈ claims, ∃ t ∈ done, claim.lastTransactionVersion = t.txnVersion) ∧
    ((∀ claim ∈ claims, AtVersion done claim.lastTransactionVersion fun txn =>
      ClaimRight sdk chain tables (readEvents txn) claim) ↔
      ∀ txn ∈ done, ∀ change ∈ readChanges txn,
        OfferItemRight sdk chain tables (readEvents txn) change)) h
    ⟨List.forall_mem_nil _,
      iff_of_true (List.forall_mem_nil _) (List.forall_mem_nil _)⟩ ?_
  · exact hrun.2
  · intro done txn before after hprefix hbefore hstep
    obtain ⟨hversions, hright⟩ := hbefore
    obtain ⟨new, rfl, hnew, hone⟩ := claimsTransaction_right_iff chain hstep
    have hlt := htxns.lt_of_prefix_concat hprefix
    refine ⟨rowVersions_concat hversions hnew, ?_⟩
    rw [forall_atVersion_concat hlt hversions hnew, hright, hone, List.forall_mem_append,
      List.forall_mem_singleton]

/-- The activities of a batch are always right. -/
theorem parseHistory_activities_right {ctx : ParseContext} {txns : List Protos.Transaction}
    {out : History} (h : parseHistory sdk ctx txns = some out) :
    ∀ row ∈ out.parsed.tokenActivitiesV2,
      AtVersion txns row.transactionVersion fun txn => ActivityRight sdk (readEvents txn) row := by
  refine foldlM_prefix (P := fun done (st : ParseState) => ∀ row ∈ st.tokenActivitiesV2,
    AtVersion done row.transactionVersion fun txn => ActivityRight sdk (readEvents txn) row)
    (parseHistory_parsed h) (List.forall_mem_nil _) ?_
  intro done txn st st' _ hst hstep row hrow
  -- The rows of earlier transactions stay; those of the last one are made from its events.
  rw [(parseTransaction_activities hstep).2] at hrow
  rcases List.mem_append.mp hrow with hrow | hrow
  · obtain ⟨t, ht, hversion, hright⟩ := hst row hrow
    exact ⟨t, List.mem_append_left _ ht, hversion, hright⟩
  · obtain ⟨slot, hslot, rfl⟩ := List.mem_map.mp hrow
    exact ⟨txn, List.mem_append_right _ (List.mem_singleton.mpr rfl),
      ((mem_activitySlots hslot _).2.1).symm, activitySlots_right hslot _⟩

/-- **The owners from module events.** The owners in all rows of a batch are right exactly if,
for every table item nothing else is known of, the event that is found under the token data
id is by the owner of the table, and he has an event about the very token. -/
theorem owner_attribution_iff (sdk : TokenSdk) (chain : AccountTables) (ctx : ParseContext)
    {txns : List Protos.Transaction} {out : History} {claims : List CurrentTokenPendingClaim}
    (htxns : InOrder txns) (h : parseHistory sdk ctx txns = some out)
    (hclaims : parseClaims sdk ctx.tableHandleToOwner txns = some claims) :
    OwnersAttributed sdk chain ctx.tableHandleToOwner txns out claims ↔
      EventsAttribute sdk chain ctx.tableHandleToOwner txns := by
  have hitems := parseHistory_right_iff chain htxns h
  have hoffers := parseClaims_right_iff chain htxns hclaims
  constructor
  · intro hright txn htxn change hchange
    exact ⟨hitems.mp hright.ownerships txn htxn change hchange,
      hoffers.mp hright.claims txn htxn change hchange⟩
  · intro hevents
    have hownerships := hitems.mpr fun txn htxn change hchange =>
      (hevents txn htxn change hchange).1
    refine ⟨hownerships, ?_, ?_, parseHistory_activities_right h⟩
    · -- A current row names the owner of a historic one.
      intro kind key row hrow
      obtain ⟨old, hold, heq⟩ := List.mem_map.mp (currentRows_historic h kind key row hrow)
      obtain ⟨txn, htxn, hversion, hright⟩ := hownerships old hold
      have hsame : row.lastTransactionVersion = old.transactionVersion :=
        congrArg TokenOwnershipV2.transactionVersion heq.symm
      rw [hsame]
      exact ⟨txn, htxn, hversion, ownerRight_of_unindexed chain heq hright⟩
    · exact hoffers.mpr fun txn htxn change hchange => (hevents txn htxn change hchange).2

end Batches

/-! ## Two accounts

`0xa` and `0xb` hold editions of the token `n` of the collection `c` of `0xc`. -/

/-- The id of an edition, as it is in the texts. -/
def editionId (propertyVersion : String) : String :=
  "\x7b\"property_version\":\"" ++ propertyVersion ++
    "\",\"token_data_id\":\x7b\"collection\":\"c\",\"creator\":\"0xc\",\"name\":\"n\"\x7d\x7d"

/-- An edition in a store. -/
def editionData (propertyVersion : String) : String :=
  "\x7b\"amount\":\"1\",\"id\":" ++ editionId propertyVersion ++
    ",\"token_properties\":\x7b\"map\":\x7b\"data\":[]\x7d\x7d\x7d"

/-- Data of the event that an account got it. -/
def depositData (account propertyVersion : String) : String :=
  "\x7b\"account\":\"" ++ account ++ "\",\"amount\":\"1\",\"id\":" ++ editionId propertyVersion ++
    "\x7d"

/-- The key of its offer to `0xb`. -/
def offerKey (propertyVersion : String) : String :=
  "\x7b\"to_addr\":\"0xb\",\"token_id\":" ++ editionId propertyVersion ++ "\x7d"

/-- Data of the event that `0xb` claimed it from `0xa`. -/
def claimData (propertyVersion : String) : String :=
  "\x7b\"account\":\"0xa\",\"amount\":\"1\",\"to_address\":\"0xb\",\"token_id\":" ++
    editionId propertyVersion ++ "\x7d"

def editionJson (propertyVersion : String) : Json :=
  .object [("property_version", .string propertyVersion),
    ("token_data_id", .object [("collection", .string "c"), ("creator", .string "0xc"),
      ("name", .string "n")])]

/-- What the texts about an edition parse to. -/
def editionTexts (propertyVersion : String) : List (String × Json) :=
  [(editionId propertyVersion, editionJson propertyVersion),
   (editionData propertyVersion, .object [("amount", .string "1"),
     ("id", editionJson propertyVersion),
     ("token_properties", .object [("map", .object [("data", .array [])])])]),
   (depositData "0xa" propertyVersion, .object [("account", .string "0xa"),
     ("amount", .string "1"), ("id", editionJson propertyVersion)]),
   (depositData "0xb" propertyVersion, .object [("account", .string "0xb"),
     ("amount", .string "1"), ("id", editionJson propertyVersion)]),
   (offerKey propertyVersion, .object [("to_addr", .string "0xb"),
     ("token_id", editionJson propertyVersion)]),
   (claimData propertyVersion, .object [("account", .string "0xa"), ("amount", .string "1"),
     ("to_address", .string "0xb"), ("token_id", editionJson propertyVersion)])]

/-- The functions outside the repository, as they behave on these texts. -/
def editionSdk : TokenSdk where
  toSdk := { lifeSdk.toSdk with
    fromStr text := (editionTexts "1" ++ editionTexts "2").lookup text
    bigDecimal text := [("1", (1 : ℚ)), ("2", 2)].lookup text }
  truncateStr := lifeSdk.truncateStr
  hashStr := lifeSdk.hashStr
  ensureNotNegative := lifeSdk.ensureNotNegative
  propertyMap _ := some (.object [])
  tokenObjectPropertyMap := lifeSdk.tokenObjectPropertyMap
  aggregatorSnapshot := lifeSdk.aggregatorSnapshot
  derivedStringSnapshot := lifeSdk.derivedStringSnapshot
  i32 := lifeSdk.i32

/-- The tables of the two accounts. -/
def twoAccounts : AccountTables where
  tokenStore account :=
    if account = aAddress then lifeSdk.standardizeAddress "0xa1"
    else if account = bAddress then lifeSdk.standardizeAddress "0xb1"
    else ""
  pendingClaims account :=
    if account = aAddress then lifeSdk.standardizeAddress "0xa2"
    else if account = bAddress then lifeSdk.standardizeAddress "0xb2"
    else ""

/-- An edition is written to a store. -/
def editionWrite (tableHandle propertyVersion : String) : Protos.Change :=
  .writeTableItem ⟨tableHandle, "0x0",
    some ⟨editionId propertyVersion, "0x3::token::TokenId", editionData propertyVersion,
      "0x3::token::Token"⟩⟩

/-- `0xb` claims an edition that `0xa` offered. -/
def claimedOfferTxn (version : UInt64) : Protos.Transaction :=
  lifeTxn version
    [.deleteTableItem ⟨"0xa2", "0x0",
       some ⟨offerKey "1", "0x3::token_transfers::TokenOfferId"⟩⟩,
     editionWrite "0xb1" "1"]
    [⟨some ⟨"0x0"⟩, "0x3::token::TokenDeposit", depositData "0xb" "1"⟩,
     ⟨some ⟨"0x0"⟩, "0x3::token_transfers::Claim", claimData "1"⟩]

/-- The one deposit and the one claim name the owners of the tables. -/
theorem owners_of_claimed_offer :
    ∃ out claims, parseHistory editionSdk emptyContext [claimedOfferTxn 2] = some out ∧
      parseClaims editionSdk ∅ [claimedOfferTxn 2] = some claims ∧
      out.tokenOwnershipsV2.map (·.ownerAddress) = [some bAddress] ∧
      claims.map (fun claim => (claim.fromAddress, claim.toAddress)) = [(aAddress, bAddress)] ∧
      OwnersAttributed editionSdk twoAccounts ∅ [claimedOfferTxn 2] out claims := by
  have hrun : (parseHistory editionSdk emptyContext [claimedOfferTxn 2]).any (fun out =>
      out.tokenOwnershipsV2.map (·.ownerAddress) = [some bAddress]) = true := by
    decide +kernel
  have hclaimsRun : (parseClaims editionSdk ∅ [claimedOfferTxn 2]).any (fun claims =>
      claims.map (fun claim => (claim.fromAddress, claim.toAddress)) =
        [(aAddress, bAddress)]) = true := by
    decide +kernel
  obtain ⟨out, hout, hrows⟩ := exists_of_any hrun
  obtain ⟨claims, hclaims, hfrom⟩ := exists_of_any hclaimsRun
  refine ⟨out, claims, hout, hclaims, hrows, hfrom, ?_⟩
  -- One edition, one deposit and one claim: the condition can be computed.
  refine (owner_attribution_iff editionSdk twoAccounts emptyContext (by decide) hout hclaims).mpr ?_
  intro txn htxn
  obtain rfl := List.mem_singleton.mp htxn
  decide +kernel

/-- Both accounts get an edition of one token. -/
def twoDepositsTxn (version : UInt64) : Protos.Transaction :=
  lifeTxn version [editionWrite "0xa1" "1", editionWrite "0xb1" "2"]
    [⟨some ⟨"0x0"⟩, "0x3::token::TokenDeposit", depositData "0xa" "1"⟩,
     ⟨some ⟨"0x0"⟩, "0x3::token::TokenDeposit", depositData "0xb" "2"⟩]

/-- The edition of `0xa` is in a row of `0xb`. -/
theorem last_depositor_owns_both :
    ∃ out claims row, parseHistory editionSdk emptyContext [twoDepositsTxn 2] = some out ∧
      parseClaims editionSdk ∅ [twoDepositsTxn 2] = some claims ∧
      InOrder [twoDepositsTxn 2] ∧ row ∈ out.tokenOwnershipsV2 ∧
      row.propertyVersionV1 = 1 ∧ row.storageId = twoAccounts.tokenStore aAddress ∧
      row.ownerAddress = some bAddress ∧
      ¬ OwnersAttributed editionSdk twoAccounts ∅ [twoDepositsTxn 2] out claims := by
  have hrun : (parseHistory editionSdk emptyContext [twoDepositsTxn 2]).any (fun out =>
      ∃ row ∈ out.tokenOwnershipsV2, row.tokenStandard = .v1 ∧ row.propertyVersionV1 = 1 ∧
        row.storageId = twoAccounts.tokenStore aAddress ∧ row.ownerAddress = some bAddress) =
          true := by
    decide +kernel
  have hclaimsRun : (parseClaims editionSdk ∅ [twoDepositsTxn 2]).isSome = true := by
    decide +kernel
  obtain ⟨out, hout, row, hrow, hv1, hversion, hstore, howner⟩ := exists_of_any hrun
  obtain ⟨claims, hclaims⟩ := Option.isSome_iff_exists.mp hclaimsRun
  refine ⟨out, claims, row, hout, hclaims, by decide, hrow, hversion, hstore, howner, ?_⟩
  intro hall
  -- The owner of the row would have to be `0xb`, whose store is another table.
  obtain ⟨txn, -, -, hright⟩ := hall.ownerships row hrow
  obtain ⟨owner, howner', hheld, -⟩ := hright hv1 rfl
  obtain rfl := Option.some.inj (howner.symm.trans howner')
  have hsame := hheld.trans hstore
  revert hsame
  decide +kernel

end IndexerProcessors.TokenV2

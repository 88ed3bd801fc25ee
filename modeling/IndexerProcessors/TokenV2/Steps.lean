import IndexerProcessors.TokenV2.Parse

/-!
# What the loops of a transaction do

One lemma for each loop of `parse_v2_token`, in terms of the transaction's own
changes and events. After the first three loops an object is known by the last
core the transaction writes, or as it was known before; the burns are those of
the transaction's events. The fourth loop puts rows into the maps, and each of
them goes back to one change.
-/

namespace IndexerProcessors.TokenV2

open IndexerProcessors.Lib
open IndexerProcessors.Protos

variable {sdk : TokenSdk}

/-! ## Objects -/

/-- The object core a change writes at an address. -/
def coreOf (sdk : TokenSdk) (address : String) : Protos.Change → Option ObjectCore
  | .writeResource wr _ =>
    if sdk.standardizeAddress wr.address = address then
      (objectCoreFromWriteResource sdk.toSdk wr).join
    else none
  | _ => none

/-- The last one of a write set. -/
def lastCore (sdk : TokenSdk) (address : String) (changes : List Protos.Change) :
    Option ObjectCore :=
  (changes.filterMap (coreOf sdk address)).getLast?

theorem lastCore_append (address : String) (changes changes' : List Protos.Change) :
    lastCore sdk address (changes ++ changes') =
      (lastCore sdk address changes').or (lastCore sdk address changes) := by
  unfold lastCore
  rw [List.filterMap_append, List.getLast?_append]

theorem lastCore_concat (address : String) (changes : List Protos.Change)
    (change : Protos.Change) :
    lastCore sdk address (changes ++ [change]) =
      (coreOf sdk address change).or (lastCore sdk address changes) := by
  rw [lastCore_append]
  unfold lastCore
  rw [List.filterMap_cons]
  cases coreOf sdk address change with
  | none => rfl
  | some core => rfl

/-- The core and the transfers known of an object. -/
def known (metadata : ObjectAggregatedDataMapping) (address : String) :
    Option (ObjectCore × List TransferEvent) :=
  (metadata.lookup address).map fun data => (data.objectCore, data.transferEvents)

theorem insertObject_known {metadata metadata' : ObjectAggregatedDataMapping}
    {change : Protos.Change} (h : insertObject sdk metadata change = some metadata')
    (address : String) :
    known metadata' address =
      ((coreOf sdk address change).map fun core => (core, [])).or (known metadata address) := by
  cases change with
  | writeResource wr params =>
    obtain ⟨object, hobject, rfl⟩ := Option.map_eq_some_iff.mp h
    simp only [coreOf, hobject]
    by_cases heq : sdk.standardizeAddress wr.address = address
    · rw [if_pos heq]
      cases object with
      | none => rfl
      | some core =>
        unfold known
        rw [← heq, AList.lookup_insert]
        rfl
    · rw [if_neg heq]
      cases object with
      | none => rfl
      | some core =>
        unfold known
        rw [AList.lookup_insert_ne (Ne.symm heq)]
        rfl
  | deleteResource | writeTableItem | deleteTableItem | other =>
    obtain rfl := Option.some.inj h
    rfl

theorem aggregate_known {wr : WriteResource} {data data' : ObjectAggregatedData}
    (h : aggregate sdk wr data = some data') :
    data'.objectCore = data.objectCore ∧ data'.transferEvents = data.transferEvents := by
  unfold aggregate at h
  obtain ⟨propertyMap, -, h⟩ := Option.bind_eq_some_iff.mp h
  obtain ⟨tokenIdentifier, -, h⟩ := Option.bind_eq_some_iff.mp h
  obtain ⟨untransferable, -, h⟩ := Option.bind_eq_some_iff.mp h
  obtain ⟨fungible, -, h⟩ := Option.bind_eq_some_iff.mp h
  obtain rfl := Option.some.inj h
  exact ⟨rfl, rfl⟩

theorem fillMetadata_known {metadata metadata' : ObjectAggregatedDataMapping}
    {change : Protos.Change} (h : fillMetadata sdk metadata change = some metadata')
    (address : String) : known metadata' address = known metadata address := by
  unfold fillMetadata at h
  split at h
  next wr params =>
    dsimp only at h
    split at h
    next data hdata =>
      obtain ⟨data', hdata', rfl⟩ := Option.map_eq_some_iff.mp h
      obtain ⟨hcore, htransfers⟩ := aggregate_known hdata'
      unfold known
      by_cases heq : address = sdk.standardizeAddress wr.address
      · rw [heq, AList.lookup_insert, hdata, Option.map_some, Option.map_some, hcore, htransfers]
      · rw [AList.lookup_insert_ne heq]
    next =>
      obtain rfl := Option.some.inj h
      rfl
  next =>
    obtain rfl := Option.some.inj h
    rfl

/-- Loops 1 and 2: the last core written, or what was known. -/
theorem objectsOf_known {metadata metadata' : ObjectAggregatedDataMapping}
    {changes : List Protos.Change} (h : objectsOf sdk metadata changes = some metadata')
    (address : String) :
    known metadata' address =
      ((lastCore sdk address changes).map fun core => (core, [])).or (known metadata address) := by
  unfold objectsOf at h
  obtain ⟨inserted, hinserted, hfilled⟩ := Option.bind_eq_some_iff.mp h
  have hfirst : known inserted address =
      ((lastCore sdk address changes).map fun core => (core, [])).or (known metadata address) := by
    refine foldlM_prefix (P := fun done m => known m address =
      ((lastCore sdk address done).map fun core => (core, [])).or (known metadata address))
      hinserted rfl ?_
    intro done change m m' _ hm hstep
    rw [insertObject_known hstep, hm, lastCore_concat]
    cases coreOf sdk address change with
    | none => rfl
    | some core => rfl
  rw [← hfirst]
  refine foldlM_invariant (P := fun m => known m address = known inserted address) hfilled rfl ?_
  intro change _ m m' hm hstep
  rw [fillMetadata_known hstep, hm]

/-! ## Events -/

/-- The transfers of an object among the events. -/
def transfersOf (sdk : TokenSdk) (address : String) (event : Protos.Event) : List TransferEvent :=
  match V2TokenEvent.fromEvent sdk event with
  | some (some (.transferEvent inner)) =>
    if inner.getObjectAddress sdk = address then [inner] else []
  | _ => []

/-- The burn an event records. -/
def burnOf (sdk : TokenSdk) (event : Protos.Event) : Option Burn :=
  match V2TokenEvent.fromEvent sdk event with
  | some (some (.burn inner)) => some inner
  | some (some (.burnEvent index token)) => event.key.map fun key =>
      ⟨sdk.standardizeAddress key.accountAddress, index, sdk.standardizeAddress token, ""⟩
  | _ => none

/-- The last burn of a token among the events. -/
def lastBurn (sdk : TokenSdk) (address : String) (events : List Protos.Event) : Option Burn :=
  ((events.filterMap (burnOf sdk)).filter fun burn => burn.getTokenAddress sdk = address).getLast?

theorem recordEvent_known {st st' : EventState} {event : Protos.Event}
    (h : recordEvent sdk st event = some st') (address : String) :
    known st'.metadata address = (known st.metadata address).map fun object =>
      (object.1, object.2 ++ transfersOf sdk address event) := by
  unfold recordEvent at h
  obtain ⟨tokenEvent, hevent, h⟩ := Option.bind_eq_some_iff.mp h
  have hkeep : transfersOf sdk address event = [] →
      known st.metadata address = (known st.metadata address).map fun object =>
        (object.1, object.2 ++ transfersOf sdk address event) := by
    intro hnil
    rw [hnil]
    simp
  split at h
  next inner =>
    obtain rfl := Option.some.inj h
    exact hkeep (by unfold transfersOf; rw [hevent])
  next index token =>
    obtain ⟨key, -, h⟩ := Option.bind_eq_some_iff.mp h
    obtain rfl := Option.some.inj h
    exact hkeep (by unfold transfersOf; rw [hevent])
  next inner =>
    split at h
    next data hdata =>
      obtain rfl := Option.some.inj h
      unfold known transfersOf
      rw [hevent]
      by_cases heq : inner.getObjectAddress sdk = address
      · subst heq
        rw [AList.lookup_insert, hdata]
        simp
      · rw [AList.lookup_insert_ne (Ne.symm heq)]
        simp only [if_neg heq, List.append_nil, Prod.mk.eta, Option.map_id']
    next hdata =>
      -- The object is not known, so neither side has anything to add to.
      obtain rfl := Option.some.inj h
      unfold known transfersOf
      rw [hevent]
      by_cases heq : inner.getObjectAddress sdk = address
      · subst heq
        rw [hdata]
        rfl
      · simp only [if_neg heq, List.append_nil, Prod.mk.eta, Option.map_id']
  next hburn hold htransfer =>
    obtain rfl := Option.some.inj h
    refine hkeep ?_
    unfold transfersOf
    rw [hevent]
    split
    next inner heq => exact absurd (Option.some.inj heq) (htransfer inner)
    next => rfl

theorem recordEvent_burned {st st' : EventState} {event : Protos.Event}
    (h : recordEvent sdk st event = some st') (address : String) :
    st'.tokensBurned.lookup address =
      ((burnOf sdk event).filter fun burn => burn.getTokenAddress sdk = address).or
        (st.tokensBurned.lookup address) := by
  have hinsert : ∀ burn : Burn, (st.tokensBurned.insert (burn.getTokenAddress sdk) burn).lookup
      address = ((some burn).filter fun burn => burn.getTokenAddress sdk = address).or
        (st.tokensBurned.lookup address) := by
    intro burn
    by_cases heq : burn.getTokenAddress sdk = address
    · rw [← heq, AList.lookup_insert, Option.filter_some, if_pos (decide_eq_true rfl)]
      rfl
    · rw [AList.lookup_insert_ne (Ne.symm heq), Option.filter_some,
        if_neg (by simpa using heq)]
      rfl
  -- Burns of either version are filed under the token; other events keep the map.
  unfold recordEvent at h
  obtain ⟨tokenEvent, hevent, h⟩ := Option.bind_eq_some_iff.mp h
  unfold burnOf
  rw [hevent]
  split at h
  next inner =>
    obtain rfl := Option.some.inj h
    exact hinsert inner
  next index token =>
    obtain ⟨key, hkey, h⟩ := Option.bind_eq_some_iff.mp h
    obtain rfl := Option.some.inj h
    simp only [hkey, Option.map_some]
    exact hinsert _
  next inner =>
    split at h
    · obtain rfl := Option.some.inj h
      rfl
    · obtain rfl := Option.some.inj h
      rfl
  next hburn hold htransfer =>
    obtain rfl := Option.some.inj h
    split
    next inner heq => exact absurd (Option.some.inj heq) (hburn inner)
    next index token heq => exact absurd (Option.some.inj heq) (hold index token)
    next => rfl

theorem recordEvent_activities {st st' : EventState} {event : Protos.Event}
    (h : recordEvent sdk st event = some st') : st'.activities = st.activities := by
  unfold recordEvent at h
  obtain ⟨tokenEvent, -, h⟩ := Option.bind_eq_some_iff.mp h
  split at h
  next inner =>
    obtain rfl := Option.some.inj h
    rfl
  next index token =>
    obtain ⟨key, -, h⟩ := Option.bind_eq_some_iff.mp h
    obtain rfl := Option.some.inj h
    rfl
  next inner =>
    split at h
    · obtain rfl := Option.some.inj h
      rfl
    · obtain rfl := Option.some.inj h
      rfl
  next =>
    obtain rfl := Option.some.inj h
    rfl

/-- What an event does: its records, and its activities after those so far. -/
theorem parseEvent_cases {txnVersion : Int64} {txnTimestamp : NaiveDateTime}
    {request : UserTransactionRequest} {st st' : EventState} {event : Protos.Event × ℕ}
    (h : parseEvent sdk txnVersion txnTimestamp request st event = some st') :
    ∃ st₁ v1 v2, recordEvent sdk st event.1 = some st₁ ∧
      getV1FromParsedEvent sdk event.1 txnVersion txnTimestamp (Int64.ofNat event.2)
        request.entryFunctionIdStr st₁.moduleEvents = some v1 ∧
      getNftV2FromParsedEvent sdk event.1 txnVersion txnTimestamp (Int64.ofNat event.2)
        request.entryFunctionIdStr st₁.metadata request.sender = some v2 ∧
      st'.metadata = st₁.metadata ∧ st'.tokensBurned = st₁.tokensBurned ∧
      st'.activities = st₁.activities ++ v1.1.toList ++ v2.toList := by
  unfold parseEvent at h
  obtain ⟨st₁, hst₁, h⟩ := Option.bind_eq_some_iff.mp h
  obtain ⟨v1, hv1, h⟩ := Option.bind_eq_some_iff.mp h
  obtain ⟨v2, hv2, h⟩ := Option.bind_eq_some_iff.mp h
  obtain rfl := Option.some.inj h
  exact ⟨st₁, v1, v2, hst₁, hv1, hv2, rfl, rfl, rfl⟩

section ParseEvents

variable {txnVersion : Int64} {txnTimestamp : NaiveDateTime} {request : UserTransactionRequest}
  {changes : List Protos.Change} {events : List Protos.Event} {st : ParseState} {ev : EventState}

/-- Loops 1 to 3: the last core written with the transaction's transfers, or what
was known with these added. -/
theorem parseEvents_known
    (h : parseEvents sdk txnVersion txnTimestamp request changes events st = some ev)
    (address : String) :
    known ev.metadata address =
      (((lastCore sdk address changes).map fun core => (core, [])).or
        (known st.tokenV2MetadataHelper address)).map fun object =>
          (object.1, object.2 ++ events.flatMap (transfersOf sdk address)) := by
  unfold parseEvents at h
  obtain ⟨metadata, hmetadata, h⟩ := Option.bind_eq_some_iff.mp h
  rw [← objectsOf_known hmetadata, ← List.zipIdx_map_fst 0 events]
  refine foldlM_prefix (P := fun done s => known s.metadata address =
    (known metadata address).map fun object =>
      (object.1, object.2 ++ (done.map Prod.fst).flatMap (transfersOf sdk address))) h (by simp) ?_
  intro done event s s' _ hs hstep
  obtain ⟨s₁, v1, v2, hs₁, -, -, hm, -, -⟩ := parseEvent_cases hstep
  rw [hm, recordEvent_known hs₁, hs, Option.map_map]
  simp [Function.comp_def]

theorem parseEvents_burned
    (h : parseEvents sdk txnVersion txnTimestamp request changes events st = some ev)
    (address : String) : ev.tokensBurned.lookup address = lastBurn sdk address events := by
  unfold parseEvents at h
  obtain ⟨metadata, -, h⟩ := Option.bind_eq_some_iff.mp h
  rw [← List.zipIdx_map_fst 0 events]
  refine foldlM_prefix (P := fun done s => s.tokensBurned.lookup address =
    lastBurn sdk address (done.map Prod.fst)) h rfl ?_
  intro done event s s' _ hs hstep
  obtain ⟨s₁, v1, v2, hs₁, -, -, -, hburned, -⟩ := parseEvent_cases hstep
  -- A burn among the events so far is replaced by one of the event at hand.
  rw [hburned, recordEvent_burned hs₁, hs]
  unfold lastBurn
  rw [List.map_append, List.filterMap_append, List.filter_append, List.getLast?_append]
  congr 1
  rw [List.map_singleton, List.filterMap_cons]
  cases burnOf sdk event.1 with
  | none => rfl
  | some burn =>
    by_cases heq : burn.getTokenAddress sdk = address
    · simp [heq]
    · simp [heq]

end ParseEvents

/-! ## Rows -/

/-- The ways a change gets into the maps. -/
inductive ChangeStep (sdk : TokenSdk) (ctx : ChangeContext) (st : ParseState) (index : ℕ) :
    Protos.Change → ParseState → Prop
  | writeTableItem {item : WriteTableItem} {tokenData : Option CurrentTokenDataV2}
      {ownership : Option CurrentTokenOwnershipV2}
      (hdata : getV1DataFromWriteTableItem sdk item ctx.txnVersion ctx.txnTimestamp =
        some tokenData)
      (hownership : getV1OwnershipFromWriteTableItem sdk item ctx.txnVersion ctx.txnTimestamp
        ctx.tableHandleToOwner ctx.moduleEvents.tokensDeposited = some ownership) :
      ChangeStep sdk ctx st index (.writeTableItem item)
        ((st.addTokenData tokenData).addV1Ownership ownership)
  | deleteTableItem {item : DeleteTableItem} {ownership : Option CurrentTokenOwnershipV2}
      (hownership : getV1OwnershipFromDeleteTableItem sdk item ctx.txnVersion ctx.txnTimestamp
        ctx.tableHandleToOwner ctx.moduleEvents.tokensWithdrawn = some ownership) :
      ChangeStep sdk ctx st index (.deleteTableItem item) (st.addDeletedOwnership ownership)
  | writeResource {wr : WriteResource} {params : List MoveType} {st₁ : ParseState}
      {ownership : Option CurrentTokenOwnershipV2}
      (htoken : parseToken sdk ctx wr st = some st₁)
      (hownership : getBurnedNftV2FromWriteResource sdk wr ctx.txnVersion ctx.txnTimestamp
        st₁.priorNftOwnership ctx.tokensBurned st₁.tokenV2MetadataHelper
        (ctx.ownerLookup index) = some ownership) :
      ChangeStep sdk ctx st index (.writeResource wr params)
        ((st₁.addDeletedTokenData (getBurnedNftV2Data sdk wr.address ctx.txnVersion
          ctx.txnTimestamp ctx.tokensBurned)).addDeletedOwnership ownership)
  | deleteResource {dr : DeleteResource} {params : List MoveType} :
      ChangeStep sdk ctx st index (.deleteResource dr params)
        ((st.addDeletedTokenData (getBurnedNftV2Data sdk dr.address ctx.txnVersion
          ctx.txnTimestamp ctx.tokensBurned)).addDeletedOwnership
          (getBurnedNftV2FromDeleteResource sdk dr ctx.txnVersion ctx.txnTimestamp
            st.priorNftOwnership ctx.tokensBurned (ctx.ownerLookup index)))
  | other : ChangeStep sdk ctx st index .other st

theorem parseChange_step {ctx : ChangeContext} {st st' : ParseState} {change : Protos.Change × ℕ}
    (h : parseChange sdk ctx st change = some st') :
    ChangeStep sdk ctx st change.2 change.1 st' := by
  obtain ⟨change, index⟩ := change
  cases change with
  | writeTableItem item =>
    obtain ⟨tokenData, hdata, h⟩ := Option.bind_eq_some_iff.mp h
    obtain ⟨ownership, hownership, h⟩ := Option.bind_eq_some_iff.mp h
    obtain rfl := Option.some.inj h
    exact .writeTableItem hdata hownership
  | deleteTableItem item =>
    obtain ⟨ownership, hownership, h⟩ := Option.bind_eq_some_iff.mp h
    obtain rfl := Option.some.inj h
    exact .deleteTableItem hownership
  | writeResource wr params =>
    obtain ⟨st₁, htoken, h⟩ := Option.bind_eq_some_iff.mp h
    obtain ⟨ownership, hownership, h⟩ := Option.bind_eq_some_iff.mp h
    obtain rfl := Option.some.inj h
    exact .writeResource htoken hownership
  | deleteResource dr params =>
    obtain rfl := Option.some.inj h
    exact .deleteResource
  | other =>
    obtain rfl := Option.some.inj h
    exact .other

/-- A written resource is no token of a known object, or its rows are added. -/
theorem parseToken_cases {ctx : ChangeContext} {wr : WriteResource} {st st' : ParseState}
    (h : parseToken sdk ctx wr st = some st') :
    (getV2FromWriteResource sdk wr ctx.txnVersion ctx.txnTimestamp st.tokenV2MetadataHelper =
        some none ∧ st' = st) ∨
      ∃ tokenData owner ownerships,
        getV2FromWriteResource sdk wr ctx.txnVersion ctx.txnTimestamp st.tokenV2MetadataHelper =
          some (some tokenData) ∧
        getNftV2FromTokenData sdk tokenData st.tokenV2MetadataHelper =
          some (owner, ownerships) ∧
        st' = st.addNft tokenData owner ownerships := by
  unfold parseToken at h
  obtain ⟨tokenData, hdata, h⟩ := Option.bind_eq_some_iff.mp h
  cases tokenData with
  | none =>
    obtain rfl := Option.some.inj h
    exact Or.inl ⟨hdata, rfl⟩
  | some tokenData =>
    obtain ⟨⟨owner, ownerships⟩, hnft, h⟩ := Option.bind_eq_some_iff.mp h
    obtain rfl := Option.some.inj h
    exact Or.inr ⟨tokenData, owner, ownerships, hdata, hnft, rfl⟩

/-- A property that every change keeps, and that does not look at the objects and
activities, holds after a batch. -/
theorem parseV2Token_invariant {P : ParseState → Prop} {ctx : ParseContext}
    {txns : List Protos.Transaction} {out : ParseState}
    (h : parseV2Token sdk ctx txns = some out) (hinit : P ParseState.init)
    (hobjects : ∀ st metadata activities, P st →
      P { st with tokenV2MetadataHelper := metadata, tokenActivitiesV2 := activities })
    (hchange : ∀ ctx st index change st', ChangeStep sdk ctx st index change st' → P st → P st') :
    P out := by
  refine foldlM_invariant h hinit ?_
  intro txn _ st st' hst hstep
  unfold parseTransaction at hstep
  split at hstep
  · obtain rfl := Option.some.inj hstep
    exact hst
  · obtain ⟨timestamp, -, hstep⟩ := Option.bind_eq_some_iff.mp hstep
    obtain ⟨changes, -, hstep⟩ := Option.bind_eq_some_iff.mp hstep
    split at hstep
    · obtain ⟨request, -, hstep⟩ := Option.bind_eq_some_iff.mp hstep
      obtain ⟨ev, -, hstep⟩ := Option.bind_eq_some_iff.mp hstep
      refine foldlM_invariant hstep (hobjects st ev.metadata ev.activities hst) ?_
      intro change _ s s' hs hs'
      exact hchange _ s change.2 change.1 s' (parseChange_step hs') hs
    · obtain rfl := Option.some.inj hstep
      exact hst

/-! ## The life of a token

Transactions on the token at `0x7` of the collection at `0xc`. -/

/-- Data of the token's object core. -/
def coreData (owner : String) : String :=
  "\x7b\"allow_ungated_transfer\":true,\"guid_creation_num\":\"0\",\"owner\":\"" ++ owner ++
    "\"\x7d"

/-- Data of the token. -/
def tokenData : String :=
  "\x7b\"collection\":\x7b\"inner\":\"0xc\"\x7d,\"description\":\"d\",\"name\":\"n\",\"uri\":\"u\"\x7d"

/-- Data of a mint or an old burn event. -/
def indexData : String := "\x7b\"index\":\"1\",\"token\":\"0x7\"\x7d"

/-- Data of a burn event with the holder. -/
def burnData : String :=
  "\x7b\"collection\":\"0xc\",\"index\":\"1\",\"token\":\"0x7\",\"previous_owner\":\"0xa\"\x7d"

/-- Data of a transfer from `0xa` to `0xb`. -/
def transferData : String := "\x7b\"from\":\"0xa\",\"to\":\"0xb\",\"object\":\"0x7\"\x7d"

/-- What these texts parse to. -/
def tokenTexts : List (String × Json) :=
  [(tokenData, .object [("collection", .object [("inner", .string "0xc")]),
     ("description", .string "d"), ("name", .string "n"), ("uri", .string "u")]),
   (indexData, .object [("index", .string "1"), ("token", .string "0x7")]),
   (transferData,
     .object [("from", .string "0xa"), ("to", .string "0xb"), ("object", .string "0x7")]),
   (burnData, .object [("collection", .string "0xc"), ("index", .string "1"),
     ("token", .string "0x7"), ("previous_owner", .string "0xa")]),
   (coreData "0xa", .object [("allow_ungated_transfer", .bool true),
     ("guid_creation_num", .string "0"), ("owner", .string "0xa")]),
   (coreData "0xb", .object [("allow_ungated_transfer", .bool true),
     ("guid_creation_num", .string "0"), ("owner", .string "0xb")])]

/-- The functions outside the repository, as they behave on these texts. -/
def lifeSdk : TokenSdk where
  standardizeAddress s := "0x" ++ String.ofList (List.leftpad 64 '0' (s.toList.drop 2))
  fromStr text := tokenTexts.lookup text
  bigDecimal text := [("1", (1 : ℚ)), ("0", 0)].lookup text
  parseTimestamp ts _ := ts.seconds.toInt * 1000000 + ts.nanos.toInt / 1000
  truncateStr s n := String.ofList (s.toList.take n)
  hashStr s := s
  ensureNotNegative q := max q 0
  propertyMap _ := none
  tokenObjectPropertyMap _ := none
  aggregatorSnapshot _ := none
  derivedStringSnapshot _ := none
  i32 _ := none

theorem lifeSdk_standardizeAddress (s : String) :
    lifeSdk.standardizeAddress (lifeSdk.standardizeAddress s) = lifeSdk.standardizeAddress s := by
  have hlist : (lifeSdk.standardizeAddress s).toList.drop 2 =
      List.leftpad 64 '0' (s.toList.drop 2) := by
    show (("0x" ++ String.ofList _ : String)).toList.drop 2 = _
    rw [String.toList_append]
    simp only [String.toList_ofList]
    rfl
  show "0x" ++ String.ofList
    (List.leftpad 64 '0' ((lifeSdk.standardizeAddress s).toList.drop 2)) = _
  rw [hlist]
  have hpad : List.leftpad 64 '0' (List.leftpad 64 '0' (s.toList.drop 2)) =
      List.leftpad 64 '0' (s.toList.drop 2) := by
    have hlength : 64 - (List.leftpad 64 '0' (s.toList.drop 2)).length = 0 := by
      rw [List.length_leftpad]
      omega
    unfold List.leftpad at hlength ⊢
    rw [hlength]
    rfl
  rw [hpad]
  rfl

/-- The token's address. -/
def tokenAddress : String := "0x0000000000000000000000000000000000000000000000000000000000000007"

/-- The address `0xa`. -/
def aAddress : String := "0x000000000000000000000000000000000000000000000000000000000000000a"

/-- The address `0xb`. -/
def bAddress : String := "0x000000000000000000000000000000000000000000000000000000000000000b"

/-- A user transaction. -/
def lifeTxn (version : UInt64) (changes : List Protos.Change) (events : List Protos.Event) :
    Protos.Transaction :=
  ⟨version, some ⟨1700000000, 0⟩, some changes, some (.user (some ⟨"0xa", none⟩) events)⟩

/-- The token is written, with its object core. -/
def tokenChanges (owner : String) : List Protos.Change :=
  [.writeResource ⟨"0x7", ⟨"0x1", "object", "ObjectCore"⟩, "0x1::object::ObjectCore",
     coreData owner⟩ [],
   .writeResource ⟨"0x7", ⟨"0x4", "token", "Token"⟩, "0x4::token::Token", tokenData⟩ []]

/-- The token's object is deleted. -/
def objectDeletion : List Protos.Change :=
  [.deleteResource ⟨"0x7", ⟨"0x1", "object", "ObjectGroup"⟩, "0x1::object::ObjectGroup"⟩ []]

/-- `0xa` mints the token. -/
def mintTxn (version : UInt64) : Protos.Transaction :=
  lifeTxn version (tokenChanges "0xa") [⟨some ⟨"0xc"⟩, "0x4::collection::MintEvent", indexData⟩]

/-- `0xa` gives it to `0xb`. -/
def transferTxn (version : UInt64) : Protos.Transaction :=
  lifeTxn version (tokenChanges "0xb")
    [⟨some ⟨"0x7"⟩, "0x1::object::TransferEvent", transferData⟩]

/-- It is burned, by an old event. -/
def oldBurnTxn (version : UInt64) : Protos.Transaction :=
  lifeTxn version objectDeletion [⟨some ⟨"0xc"⟩, "0x4::collection::BurnEvent", indexData⟩]

/-- It is burned, by an event that names `0xa`. -/
def burnTxn (version : UInt64) : Protos.Transaction :=
  lifeTxn version objectDeletion [⟨some ⟨"0x0"⟩, "0x4::collection::Burn", burnData⟩]

/-- Neither table owners nor stored holders are known. -/
def emptyContext : ParseContext := ⟨∅, fun _ _ _ => none⟩

end IndexerProcessors.TokenV2

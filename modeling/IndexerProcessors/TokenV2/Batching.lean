import IndexerProcessors.TokenV2.Operations

/-!
# Activities and batches

Each event of a token gives its row whatever the batch, but how an object
token's event is classified depends on the core known for the object, and
`parse_v2_token` remembers cores through a batch. The source does so on purpose,
"so that even if a token is burned, we can still get the object core metadata
for it".

An activity is therefore a function of a core, a slot, that the batch fills in.
`activities_of_batches` — two partitions of the same transactions give the same
rows in the same order, up to the classification of those events whose object's
core is carried over from an earlier transaction of their batch.
-/

namespace IndexerProcessors.TokenV2

open IndexerProcessors.Lib
open IndexerProcessors.Protos

variable {sdk : TokenSdk}

/-! ## Slots -/

/-- The row of an event, but for the core of its object. -/
abbrev ActivitySlot := Option ObjectCore → TokenActivityV2

/-- The row of a V1 event. -/
def v1Slot (sdk : TokenSdk) (txnVersion : Int64) (txnTimestamp : NaiveDateTime)
    (request : UserTransactionRequest) (event : Protos.Event × ℕ) : Option TokenActivityV2 := do
  let tokenEvent ← (TokenEvent.fromEvent sdk event.1).join
  let key ← event.1.key
  let eventAccountAddress := sdk.standardizeAddress key.accountAddress
  return v1Activity sdk event.1 txnVersion txnTimestamp (Int64.ofNat event.2)
    request.entryFunctionIdStr eventAccountAddress (tokenEvent.activity sdk eventAccountAddress)

/-- The slot of an object token's event. -/
def v2Slot (sdk : TokenSdk) (txnVersion : Int64) (txnTimestamp : NaiveDateTime)
    (request : UserTransactionRequest) (event : Protos.Event × ℕ) : Option ActivitySlot := do
  let tokenEvent ← (V2TokenEvent.fromEvent sdk event.1).join
  let key ← event.1.key
  return nftActivity sdk event.1 txnVersion txnTimestamp (Int64.ofNat event.2)
    request.entryFunctionIdStr request.sender (sdk.standardizeAddress key.accountAddress)
    tokenEvent

def eventSlots (sdk : TokenSdk) (txnVersion : Int64) (txnTimestamp : NaiveDateTime)
    (request : UserTransactionRequest) (event : Protos.Event × ℕ) : List ActivitySlot :=
  (v1Slot sdk txnVersion txnTimestamp request event).toList.map (fun row _ => row) ++
    (v2Slot sdk txnVersion txnTimestamp request event).toList

/-- The slots of a transaction. -/
def activitySlots (sdk : TokenSdk) (txn : Protos.Transaction) : List ActivitySlot :=
  match txn.timestamp, txn.txnData with
  | some timestamp, some (.user (some request) events) =>
    events.zipIdx.flatMap
      (eventSlots sdk txn.txnVersion (sdk.parseTimestamp timestamp txn.txnVersion) request)
  | _, _ => []

/-- The token of a slot. -/
def ActivitySlot.tokenDataId (slot : ActivitySlot) : String := (slot none).tokenDataId

/-- The slots as they are with the given cores. -/
def fill (cores : String → Option ObjectCore) (slots : List ActivitySlot) :
    List TokenActivityV2 :=
  slots.map fun slot => slot (cores (ActivitySlot.tokenDataId slot))

theorem fill_append (cores : String → Option ObjectCore) (slots slots' : List ActivitySlot) :
    fill cores (slots ++ slots') = fill cores slots ++ fill cores slots' :=
  List.map_append

/-- The core known of an object. -/
def knownCore (metadata : ObjectAggregatedDataMapping) (address : String) : Option ObjectCore :=
  (known metadata address).map Prod.fst

/-! ## Events -/

theorem getV1FromParsedEvent_slot {event : Protos.Event × ℕ} {txnVersion : Int64}
    {txnTimestamp : NaiveDateTime} {request : UserTransactionRequest} {moduleEvents : ModuleEvents}
    {v1 : Option TokenActivityV2 × ModuleEvents}
    (h : getV1FromParsedEvent sdk event.1 txnVersion txnTimestamp (Int64.ofNat event.2)
      request.entryFunctionIdStr moduleEvents = some v1) :
    v1.1 = v1Slot sdk txnVersion txnTimestamp request event := by
  unfold getV1FromParsedEvent at h
  unfold v1Slot
  obtain ⟨tokenEvent, hevent, h⟩ := Option.bind_eq_some_iff.mp h
  rw [hevent]
  cases tokenEvent with
  | none =>
    obtain rfl := Option.some.inj h
    rfl
  | some tokenEvent =>
    obtain ⟨key, hkey, h⟩ := Option.bind_eq_some_iff.mp h
    obtain rfl := Option.some.inj h
    rw [hkey]
    rfl

theorem getNftV2FromParsedEvent_slot {event : Protos.Event × ℕ} {txnVersion : Int64}
    {txnTimestamp : NaiveDateTime} {request : UserTransactionRequest}
    {metadata : ObjectAggregatedDataMapping} {v2 : Option TokenActivityV2}
    (h : getNftV2FromParsedEvent sdk event.1 txnVersion txnTimestamp (Int64.ofNat event.2)
      request.entryFunctionIdStr metadata request.sender = some v2) :
    v2.toList = fill (knownCore metadata)
      (v2Slot sdk txnVersion txnTimestamp request event).toList := by
  unfold getNftV2FromParsedEvent at h
  unfold v2Slot
  obtain ⟨tokenEvent, hevent, h⟩ := Option.bind_eq_some_iff.mp h
  rw [hevent]
  cases tokenEvent with
  | none =>
    obtain rfl := Option.some.inj h
    rfl
  | some tokenEvent =>
    obtain ⟨key, hkey, h⟩ := Option.bind_eq_some_iff.mp h
    obtain rfl := Option.some.inj h
    rw [hkey]
    unfold fill knownCore known
    simp only [Option.map_map]
    rfl

/-- Loop 3 appends the filled slots of the events. -/
theorem parseEvents_activities {txnVersion : Int64} {txnTimestamp : NaiveDateTime}
    {request : UserTransactionRequest} {changes : List Protos.Change}
    {events : List Protos.Event} {st : ParseState} {ev : EventState}
    (h : parseEvents sdk txnVersion txnTimestamp request changes events st = some ev) :
    ev.activities = st.tokenActivitiesV2 ++ fill (knownCore ev.metadata)
      (events.zipIdx.flatMap (eventSlots sdk txnVersion txnTimestamp request)) := by
  unfold parseEvents at h
  obtain ⟨metadata, -, h⟩ := Option.bind_eq_some_iff.mp h
  -- Events add transfers to the objects and leave their cores.
  have hloop : knownCore ev.metadata = knownCore metadata ∧
      ev.activities = st.tokenActivitiesV2 ++ fill (knownCore metadata)
        (events.zipIdx.flatMap (eventSlots sdk txnVersion txnTimestamp request)) := by
    refine foldlM_prefix (P := fun done s => knownCore s.metadata = knownCore metadata ∧
      s.activities = st.tokenActivitiesV2 ++ fill (knownCore metadata)
        (done.flatMap (eventSlots sdk txnVersion txnTimestamp request))) h ⟨rfl, ?_⟩ ?_
    · exact (List.append_nil _).symm
    · intro done event s s' _ hs hstep
      obtain ⟨hcores, hactivities⟩ := hs
      obtain ⟨s₁, v1, v2, hs₁, hv1, hv2, hm, -, ha⟩ := parseEvent_cases hstep
      have hcores₁ : knownCore s₁.metadata = knownCore metadata := by
        rw [← hcores]
        funext address
        unfold knownCore
        rw [recordEvent_known hs₁, Option.map_map]
        rfl
      have hrecord : s₁.activities = s.activities := recordEvent_activities hs₁
      refine ⟨by rw [hm, hcores₁], ?_⟩
      rw [ha, hrecord, hactivities, getV1FromParsedEvent_slot hv1,
        getNftV2FromParsedEvent_slot hv2, hcores₁, List.flatMap_append, List.flatMap_singleton,
        fill_append]
      unfold eventSlots
      rw [fill_append, List.append_assoc, List.append_assoc]
      congr 3
      unfold fill
      rw [List.map_map]
      exact (List.map_id _).symm
  rw [hloop.1]
  exact hloop.2

/-! ## Batches -/

/-- One transaction appends its filled slots, with the cores it leaves known. -/
theorem parseTransaction_activities {ctx : ParseContext} {st st' : ParseState}
    {txn : Protos.Transaction} (h : parseTransaction sdk ctx st txn = some st') :
    (∀ address, knownCore st'.tokenV2MetadataHelper address =
      (lastCore sdk address (readChanges txn)).or (knownCore st.tokenV2MetadataHelper address)) ∧
    st'.tokenActivitiesV2 = st.tokenActivitiesV2 ++
      fill (knownCore st'.tokenV2MetadataHelper) (activitySlots sdk txn) := by
  rcases parseTransaction_cases h with ⟨rfl, hchanges, hevents⟩ |
    ⟨timestamp, request, ev, htimestamp, hdata, hev, hfold⟩
  · refine ⟨fun address => by rw [hchanges]; rfl, ?_⟩
    have hslots : activitySlots sdk txn = [] := by
      unfold readEvents at hevents
      unfold activitySlots
      split
      next timestamp request events _ hdata =>
        rw [hdata] at hevents
        obtain rfl : events = [] := hevents
        rfl
      next => rfl
    rw [hslots]
    exact (List.append_nil _).symm
  -- The activities are complete, and all cores are read, before the changes are gone through.
  · have hkeep : st'.tokenV2MetadataHelper = ev.metadata ∧
        st'.tokenActivitiesV2 = ev.activities := by
      refine changes_prefix (P := fun _ s => s.tokenV2MetadataHelper = ev.metadata ∧
        s.tokenActivitiesV2 = ev.activities) hfold ⟨rfl, rfl⟩ ?_
      intro done change index s s' _ hs hstep
      obtain ⟨hmetadata, hactivities⟩ := changeStep_objects hstep
      exact ⟨hmetadata.trans hs.1, hactivities.trans hs.2⟩
    rw [hkeep.1, hkeep.2]
    constructor
    · intro address
      unfold knownCore
      rw [parseEvents_known hev, Option.map_map]
      cases lastCore sdk address (readChanges txn) with
      | none => rfl
      | some core => rfl
    · have hslots : activitySlots sdk txn = (readEvents txn).zipIdx.flatMap (eventSlots sdk
          txn.txnVersion (sdk.parseTimestamp timestamp txn.txnVersion) request) := by
        unfold activitySlots
        rw [htimestamp, hdata]
      rw [hslots]
      exact parseEvents_activities hev

/-- What a row says of its event, however it is classified. -/
def TokenActivityV2.unclassified (row : TokenActivityV2) : TokenActivityV2 :=
  { row with type := "", fromAddress := none, toAddress := none, tokenAmount := 0,
             beforeValue := none, afterValue := none }

theorem unclassified_fields {row row' : TokenActivityV2}
    (h : row.unclassified = row'.unclassified) :
    row.transactionVersion = row'.transactionVersion ∧ row.tokenDataId = row'.tokenDataId ∧
      row.tokenStandard = row'.tokenStandard := by
  obtain ⟨hversion, -, -, htoken, -, -, -, -, -, -, -, -, hstandard, -, -⟩ :=
    TokenActivityV2.mk.inj h
  exact ⟨hversion, htoken, hstandard⟩

/-- A slot gives one row whatever the core, up to the classification; a V1 slot
does not ask for the core. -/
theorem mem_activitySlots {txn : Protos.Transaction} {slot : ActivitySlot}
    (h : slot ∈ activitySlots sdk txn) (core : Option ObjectCore) :
    (slot core).unclassified = (slot none).unclassified ∧
      (slot core).transactionVersion = txn.txnVersion ∧
      ((slot core).tokenStandard ≠ .v2 → slot core = slot none) := by
  unfold activitySlots at h
  split at h
  next timestamp request events _ _ =>
    obtain ⟨event, -, hevent⟩ := List.mem_flatMap.mp h
    rcases List.mem_append.mp hevent with hv1 | hv2
    · obtain ⟨row, hrow, rfl⟩ := List.mem_map.mp hv1
      unfold v1Slot at hrow
      obtain ⟨tokenEvent, -, hrow⟩ := Option.bind_eq_some_iff.mp (Option.mem_toList.mp hrow)
      obtain ⟨key, -, hrow⟩ := Option.bind_eq_some_iff.mp hrow
      obtain rfl := Option.some.inj hrow
      exact ⟨rfl, rfl, fun _ => rfl⟩
    · unfold v2Slot at hv2
      obtain ⟨tokenEvent, -, hslot⟩ := Option.bind_eq_some_iff.mp (Option.mem_toList.mp hv2)
      obtain ⟨key, -, hslot⟩ := Option.bind_eq_some_iff.mp hslot
      obtain rfl := Option.some.inj hslot
      exact ⟨rfl, rfl, fun hv1 => absurd rfl hv1⟩
  next => cases h

/-- The rows a transaction has on its own. -/
def ownActivities (sdk : TokenSdk) (txn : Protos.Transaction) : List TokenActivityV2 :=
  fill (fun address => lastCore sdk address (readChanges txn)) (activitySlots sdk txn)

/-- The core of a row's object is not written by the row's transaction, but by
an earlier one of its batch. -/
def Carried (sdk : TokenSdk) (batches : List (List Protos.Transaction)) (row : TokenActivityV2) :
    Prop :=
  row.tokenStandard = .v2 ∧ ∃ batch ∈ batches, ∃ done txn, (done ++ [txn]) <+: batch ∧
    txn.txnVersion = row.transactionVersion ∧
    lastCore sdk row.tokenDataId (readChanges txn) = none ∧
    (lastCore sdk row.tokenDataId (done.flatMap readChanges)).isSome

/-- Whether a core is carried over is a matter of the event. -/
theorem carried_of_unclassified {batches : List (List Protos.Transaction)}
    {row row' : TokenActivityV2} (h : row.unclassified = row'.unclassified)
    (hcarried : Carried sdk batches row) : Carried sdk batches row' := by
  obtain ⟨hversion, htoken, hstandard⟩ := unclassified_fields h
  unfold Carried at hcarried ⊢
  rwa [← hversion, ← htoken, ← hstandard]

/-- A row as its transaction has it alone, unless its core is carried over. -/
def Agrees (sdk : TokenSdk) (batches : List (List Protos.Transaction))
    (own row : TokenActivityV2) : Prop :=
  row.unclassified = own.unclassified ∧ (¬ Carried sdk batches row → row = own)

/-- The rows of a batch. -/
theorem parseV2Token_activities {ctx : ParseContext} {batch : List Protos.Transaction}
    {batches : List (List Protos.Transaction)} (hbatch : batch ∈ batches) {out : ParseState}
    (h : parseV2Token sdk ctx batch = some out) :
    List.Forall₂ (Agrees sdk batches) (batch.flatMap (ownActivities sdk))
      out.tokenActivitiesV2 := by
  have hloop : (∀ address, knownCore out.tokenV2MetadataHelper address =
      lastCore sdk address (batch.flatMap readChanges)) ∧
      List.Forall₂ (Agrees sdk batches) (batch.flatMap (ownActivities sdk))
        out.tokenActivitiesV2 := by
    refine foldlM_prefix (P := fun done st =>
      (∀ address, knownCore st.tokenV2MetadataHelper address =
        lastCore sdk address (done.flatMap readChanges)) ∧
      List.Forall₂ (Agrees sdk batches) (done.flatMap (ownActivities sdk))
        st.tokenActivitiesV2) h ⟨fun _ => rfl, .nil⟩ ?_
    intro done txn st st' hdone hst hstep
    obtain ⟨hcores, hrows⟩ := hst
    obtain ⟨hcores', hrows'⟩ := parseTransaction_activities hstep
    refine ⟨fun address => ?_, ?_⟩
    · rw [hcores', hcores, List.flatMap_append, List.flatMap_singleton, lastCore_append]
    rw [hrows', List.flatMap_append, List.flatMap_singleton]
    refine List.rel_append hrows ?_
    unfold ownActivities fill
    rw [List.forall₂_map_left_iff, List.forall₂_map_right_iff, List.forall₂_same]
    intro slot hslot
    have hslots := mem_activitySlots hslot
    refine ⟨((hslots _).1).trans ((hslots _).1).symm, ?_⟩
    intro hown
    dsimp only
    rw [hcores', hcores]
    -- A core of this transaction is the same in every batching. Without one, a core that is
    -- carried over from the batch so far is what the rows may differ by.
    cases hlast : lastCore sdk (ActivitySlot.tokenDataId slot) (readChanges txn) with
    | some core => rfl
    | none =>
      rw [Option.none_or]
      cases hdoneCore : lastCore sdk (ActivitySlot.tokenDataId slot)
          (done.flatMap readChanges) with
      | none => rfl
      | some core =>
        rw [hcores', hcores, hlast, Option.none_or, hdoneCore] at hown
        refine (hslots _).2.2 ?_
        intro hv2
        have hid : (slot (some core)).tokenDataId = ActivitySlot.tokenDataId slot :=
          (unclassified_fields (hslots (some core)).1).2.1
        refine hown ⟨hv2, batch, hbatch, done, txn, hdone, ((hslots _).2.1).symm, ?_, ?_⟩
        · rw [hid, hlast]
        · rw [hid, hdoneCore]
          rfl
  exact hloop.2

/-! ## Partitions -/

/-- The activities of batches that are parsed one by one. -/
def activitiesOf (sdk : TokenSdk) (batches : List (ParseContext × List Protos.Transaction)) :
    Option (List TokenActivityV2) :=
  (batches.mapM fun batch => parseV2Token sdk batch.1 batch.2).map fun outs =>
    outs.flatMap (·.tokenActivitiesV2)

/-- The rows of a partition, next to those the transactions have on their own. -/
theorem activitiesOf_agrees {batches : List (ParseContext × List Protos.Transaction)}
    {rows : List TokenActivityV2} (h : activitiesOf sdk batches = some rows) :
    List.Forall₂ (Agrees sdk (batches.map Prod.snd))
      ((batches.map Prod.snd).flatten.flatMap (ownActivities sdk)) rows := by
  obtain ⟨outs, houts, rfl⟩ := Option.map_eq_some_iff.mp h
  have hparts : ∀ part : List (ParseContext × List Protos.Transaction), ∀ outs,
      (∀ batch ∈ part, batch ∈ batches) →
      (part.mapM fun batch => parseV2Token sdk batch.1 batch.2) = some outs →
      List.Forall₂ (Agrees sdk (batches.map Prod.snd))
        ((part.map Prod.snd).flatten.flatMap (ownActivities sdk))
        (outs.flatMap (·.tokenActivitiesV2)) := by
    intro part
    induction part with
    | nil =>
      intro outs _ houts
      obtain rfl := Option.some.inj houts
      exact .nil
    | cons batch part ih =>
      intro outs hmem houts
      rw [List.mapM_cons] at houts
      obtain ⟨out, hout, houts⟩ := Option.bind_eq_some_iff.mp houts
      obtain ⟨rest, hrest, houts⟩ := Option.bind_eq_some_iff.mp houts
      obtain rfl := Option.some.inj houts
      rw [List.map_cons, List.flatten_cons, List.flatMap_append, List.flatMap_cons]
      refine List.rel_append (parseV2Token_activities ?_ hout) (ih rest ?_ hrest)
      · exact List.mem_map_of_mem (hmem batch (List.mem_cons_self ..))
      · exact fun b hb => hmem b (List.mem_cons_of_mem _ hb)
  exact hparts batches outs (fun _ h => h) houts

/-- **Activities and batching.** Two partitions of the same transactions give the
same rows, one by one; only the classification can differ, and only of an object
token's event whose core one of the partitions carries over. -/
theorem activities_of_batches (sdk : TokenSdk)
    (batches batches' : List (ParseContext × List Protos.Transaction))
    (hsame : (batches.map Prod.snd).flatten = (batches'.map Prod.snd).flatten)
    (rows rows' : List TokenActivityV2) (hrows : activitiesOf sdk batches = some rows)
    (hrows' : activitiesOf sdk batches' = some rows') :
    List.Forall₂ (fun row row' => row.unclassified = row'.unclassified ∧
      (¬ Carried sdk (batches.map Prod.snd) row → ¬ Carried sdk (batches'.map Prod.snd) row →
        row = row')) rows rows' := by
  have hleft := List.forall₂_iff_get.mp (activitiesOf_agrees hrows)
  have hright := List.forall₂_iff_get.mp (activitiesOf_agrees hrows')
  rw [← hsame] at hright
  rw [List.forall₂_iff_get]
  refine ⟨hleft.1.symm.trans hright.1, ?_⟩
  intro i hi hi'
  obtain ⟨hevent, hown⟩ := hleft.2 i (hleft.1 ▸ hi) hi
  obtain ⟨hevent', hown'⟩ := hright.2 i (hleft.1 ▸ hi) hi'
  refine ⟨hevent.trans hevent'.symm, ?_⟩
  intro hcarried hcarried'
  rw [hown hcarried]
  refine (hown' fun hc => hcarried' ?_).symm
  exact carried_of_unclassified (hevent'.trans hevent.symm) hc

/-- A mint and a transfer, which writes the core again, in one batch and in two. -/
theorem activities_of_batches_transfer :
    ∃ rows rows',
      activitiesOf lifeSdk [(emptyContext, [mintTxn 1, transferTxn 3])] = some rows ∧
      activitiesOf lifeSdk [(emptyContext, [mintTxn 1]), (emptyContext, [transferTxn 3])] =
        some rows' ∧
      rows.map (·.type) = ["0x4::collection::MintEvent", "0x1::object::TransferEvent"] ∧
      List.Forall₂ (fun row row' => row.unclassified = row'.unclassified ∧
        (¬ Carried lifeSdk [[mintTxn 1, transferTxn 3]] row →
          ¬ Carried lifeSdk [[mintTxn 1], [transferTxn 3]] row → row = row')) rows rows' := by
  have hone : (activitiesOf lifeSdk [(emptyContext, [mintTxn 1, transferTxn 3])]).map
      (·.map (·.type)) = some ["0x4::collection::MintEvent", "0x1::object::TransferEvent"] := by
    decide +kernel
  have htwo : (activitiesOf lifeSdk
      [(emptyContext, [mintTxn 1]), (emptyContext, [transferTxn 3])]).isSome := by
    decide +kernel
  obtain ⟨rows, hrows, htypes⟩ := Option.map_eq_some_iff.mp hone
  obtain ⟨rows', hrows'⟩ := Option.isSome_iff_exists.mp htwo
  exact ⟨rows, rows', hrows, hrows', htypes,
    activities_of_batches lifeSdk [(emptyContext, [mintTxn 1, transferTxn 3])]
      [(emptyContext, [mintTxn 1]), (emptyContext, [transferTxn 3])] rfl rows rows' hrows hrows'⟩

/-- A mint and a burn. In one batch the burn is given the type of the old event;
in two batches it keeps its own. -/
theorem activities_depend_on_batching :
    ∃ rows rows',
      activitiesOf lifeSdk [(emptyContext, [mintTxn 1, burnTxn 3])] = some rows ∧
      activitiesOf lifeSdk [(emptyContext, [mintTxn 1]), (emptyContext, [burnTxn 3])] =
        some rows' ∧
      rows.map (·.type) = ["0x4::collection::MintEvent", "0x4::collection::BurnEvent"] ∧
      rows'.map (·.type) = ["0x4::collection::MintEvent", "0x4::collection::Burn"] ∧
      ¬ (∀ row, row ∈ rows ↔ row ∈ rows') := by
  have hone : (activitiesOf lifeSdk [(emptyContext, [mintTxn 1, burnTxn 3])]).map
      (·.map (·.type)) = some ["0x4::collection::MintEvent", "0x4::collection::BurnEvent"] := by
    decide +kernel
  have htwo : (activitiesOf lifeSdk
      [(emptyContext, [mintTxn 1]), (emptyContext, [burnTxn 3])]).map
      (·.map (·.type)) = some ["0x4::collection::MintEvent", "0x4::collection::Burn"] := by
    decide +kernel
  obtain ⟨rows, hrows, htypes⟩ := Option.map_eq_some_iff.mp hone
  obtain ⟨rows', hrows', htypes'⟩ := Option.map_eq_some_iff.mp htwo
  refine ⟨rows, rows', hrows, hrows', htypes, htypes', ?_⟩
  intro hsame
  have hmem : "0x4::collection::BurnEvent" ∈ rows.map (·.type) := by
    rw [htypes]
    decide
  obtain ⟨row, hrow, htype⟩ := List.mem_map.mp hmem
  have hmem' : "0x4::collection::BurnEvent" ∈ rows'.map (·.type) :=
    List.mem_map.mpr ⟨row, (hsame row).mp hrow, htype⟩
  rw [htypes'] at hmem'
  revert hmem'
  decide

end IndexerProcessors.TokenV2

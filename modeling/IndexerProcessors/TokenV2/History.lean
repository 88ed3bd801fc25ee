import IndexerProcessors.TokenV2.Ownerships

/-!
# Historic ownership rows

Besides the current rows `parse_v2_token` collects `token_ownerships_v2`, a row for every
change of an ownership. Each path builds a row and the current row with the same values; the
row has the index of its change, and that of a former holder the negated index of the
transfer event. The transfers are kept here once more with these indices.

`parseHistory_parsed` — the rows are collected along `parse_v2_token`.
`currentRows_historic` — every current row is among them.
-/

namespace IndexerProcessors.TokenV2

open IndexerProcessors.Lib
open IndexerProcessors.Protos

structure TokenOwnershipV2 where
  transactionVersion : Int64
  writeSetChangeIndex : Int64
  tokenDataId : String
  propertyVersionV1 : ℚ
  ownerAddress : Option String
  storageId : String
  amount : ℚ
  tableTypeV1 : Option String
  tokenPropertiesMutatedV1 : Option Json
  isSoulboundV2 : Option Bool
  tokenStandard : TokenStandard
  isFungibleV2 : Option Bool
  transactionTimestamp : NaiveDateTime
  nonTransferrableByOwner : Option Bool

/-- The row that is built with a current row. -/
def CurrentTokenOwnershipV2.historic (row : CurrentTokenOwnershipV2)
    (writeSetChangeIndex : Int64) : TokenOwnershipV2 where
  transactionVersion := row.lastTransactionVersion
  writeSetChangeIndex := writeSetChangeIndex
  tokenDataId := row.tokenDataId
  propertyVersionV1 := row.propertyVersionV1
  ownerAddress := some row.ownerAddress
  storageId := row.storageId
  amount := row.amount
  tableTypeV1 := row.tableTypeV1
  tokenPropertiesMutatedV1 := row.tokenPropertiesMutatedV1
  isSoulboundV2 := row.isSoulboundV2
  tokenStandard := row.tokenStandard
  isFungibleV2 := row.isFungibleV2
  transactionTimestamp := row.lastTransactionTimestamp
  nonTransferrableByOwner := row.nonTransferrableByOwner

/-- A row without its index. -/
def TokenOwnershipV2.unindexed (row : TokenOwnershipV2) : TokenOwnershipV2 :=
  { row with writeSetChangeIndex := 0 }

/-- The `transfer_events` of the objects, with their indices. -/
abbrev IndexedTransfers := Table String (List (Int64 × TransferEvent))

/-- Loop 1: an object core starts the transfers of its object anew. -/
def resetTransfers (sdk : TokenSdk) (transfers : IndexedTransfers) (change : Protos.Change) :
    IndexedTransfers :=
  match change with
  | .writeResource wr _ =>
    match (objectCoreFromWriteResource sdk.toSdk wr).join with
    | some _ => transfers.insert (sdk.standardizeAddress wr.address) []
    | none => transfers
  | _ => transfers

/-- Loop 3: a transfer of a known object. The index is not 0, which could be that of a
change. -/
def recordTransfer (sdk : TokenSdk) (eventCount : ℕ) (transfers : IndexedTransfers)
    (event : Protos.Event × ℕ) : IndexedTransfers :=
  match V2TokenEvent.fromEvent sdk event.1 with
  | some (some (.transferEvent inner)) =>
    match transfers.lookup (inner.getObjectAddress sdk) with
    | some events =>
      let index := if event.2 = 0 then eventCount else event.2
      transfers.insert (inner.getObjectAddress sdk) (events ++ [(Int64.ofNat index, inner)])
    | none => transfers
  | _ => transfers

/-- The indices of the rows of `get_nft_v2_from_token_data`. -/
def nftIndices (sdk : TokenSdk) (writeSetChangeIndex : Int64)
    (transferEvents : List (Int64 × TransferEvent)) : List Int64 :=
  writeSetChangeIndex ::
    (transferEvents.filter fun event =>
      event.2.getToAddress sdk ≠ event.2.getFromAddress sdk).map fun event => -1 * event.1

/-- The rows of a written token. -/
def tokenRows (sdk : TokenSdk) (ctx : ChangeContext) (transfers : IndexedTransfers)
    (wr : WriteResource) (index : ℕ) (st : ParseState) : Option (List TokenOwnershipV2) := do
  let some tokenData ← getV2FromWriteResource sdk wr ctx.txnVersion ctx.txnTimestamp
      st.tokenV2MetadataHelper
    | return []
  let (_, ownerships) ← getNftV2FromTokenData sdk tokenData st.tokenV2MetadataHelper
  return ownerships.zipWith CurrentTokenOwnershipV2.historic
    (nftIndices sdk (Int64.ofNat index) ((transfers.lookup tokenData.tokenDataId).getD []))

/-- The rows of a change. -/
def changeRows (sdk : TokenSdk) (ctx : ChangeContext) (transfers : IndexedTransfers)
    (st : ParseState) (change : Protos.Change × ℕ) : Option (List TokenOwnershipV2) :=
  let historic (row : CurrentTokenOwnershipV2) := row.historic (Int64.ofNat change.2)
  match change.1 with
  | .writeTableItem item => do
    let ownership ← getV1OwnershipFromWriteTableItem sdk item ctx.txnVersion ctx.txnTimestamp
      ctx.tableHandleToOwner ctx.moduleEvents.tokensDeposited
    return ownership.toList.map historic
  | .deleteTableItem item => do
    let ownership ← getV1OwnershipFromDeleteTableItem sdk item ctx.txnVersion ctx.txnTimestamp
      ctx.tableHandleToOwner ctx.moduleEvents.tokensWithdrawn
    return ownership.toList.map historic
  | .writeResource wr _ => do
    let rows ← tokenRows sdk ctx transfers wr change.2 st
    let st ← parseToken sdk ctx wr st
    let ownership ← getBurnedNftV2FromWriteResource sdk wr ctx.txnVersion ctx.txnTimestamp
      st.priorNftOwnership ctx.tokensBurned st.tokenV2MetadataHelper (ctx.ownerLookup change.2)
    return rows ++ ownership.toList.map historic
  | .deleteResource dr _ =>
    some ((getBurnedNftV2FromDeleteResource sdk dr ctx.txnVersion ctx.txnTimestamp
      st.priorNftOwnership ctx.tokensBurned (ctx.ownerLookup change.2)).toList.map historic)
  | .other => some []

/-! ## Batches -/

/-- What `parse_v2_token` keeps, with the rows. -/
structure History where
  parsed : ParseState
  transferEvents : IndexedTransfers
  tokenOwnershipsV2 : List TokenOwnershipV2

def History.init : History := ⟨.init, ∅, []⟩

/-- Loop 4: one change. -/
def historyChange (sdk : TokenSdk) (ctx : ChangeContext) (st : History)
    (change : Protos.Change × ℕ) : Option History := do
  let rows ← changeRows sdk ctx st.transferEvents st.parsed change
  let parsed ← parseChange sdk ctx st.parsed change
  return { st with parsed, tokenOwnershipsV2 := st.tokenOwnershipsV2 ++ rows }

/-- The transfers known in loop 4. -/
def transfersAfter (sdk : TokenSdk) (changes : List Protos.Change) (events : List Protos.Event)
    (transfers : IndexedTransfers) : IndexedTransfers :=
  events.zipIdx.foldl (recordTransfer sdk events.length)
    (changes.foldl (resetTransfers sdk) transfers)

/-- One transaction. -/
def historyTransaction (sdk : TokenSdk) (ctx : ParseContext) (st : History)
    (txn : Protos.Transaction) : Option History :=
  match txn.txnData with
  | none => some st
  | some txnData => do
    let timestamp ← txn.timestamp
    let changes ← txn.info
    match txnData with
    | .user request events =>
      let request ← request
      let txnTimestamp := sdk.parseTimestamp timestamp txn.txnVersion
      let ev ← parseEvents sdk txn.txnVersion txnTimestamp request changes events st.parsed
      changes.zipIdx.foldlM (historyChange sdk (changeContext ctx txn txnTimestamp ev))
        { st with
          parsed := { st.parsed with
            tokenV2MetadataHelper := ev.metadata
            tokenActivitiesV2 := ev.activities }
          transferEvents := transfersAfter sdk changes events st.transferEvents }
    | _ => return st

/-- `parse_v2_token`, with `token_ownerships_v2`. -/
def parseHistory (sdk : TokenSdk) (ctx : ParseContext) (transactions : List Protos.Transaction) :
    Option History :=
  transactions.foldlM (historyTransaction sdk ctx) History.init

variable {sdk : TokenSdk}

/-! ## The run below -/

theorem historyChange_cases {ctx : ChangeContext} {st st' : History} {change : Protos.Change × ℕ}
    (h : historyChange sdk ctx st change = some st') :
    ∃ rows, changeRows sdk ctx st.transferEvents st.parsed change = some rows ∧
      parseChange sdk ctx st.parsed change = some st'.parsed ∧
      st'.transferEvents = st.transferEvents ∧
      st'.tokenOwnershipsV2 = st.tokenOwnershipsV2 ++ rows := by
  obtain ⟨rows, hrows, h⟩ := Option.bind_eq_some_iff.mp h
  obtain ⟨parsed, hparsed, h⟩ := Option.bind_eq_some_iff.mp h
  obtain rfl := Option.some.inj h
  exact ⟨rows, hrows, hparsed, rfl, rfl⟩

/-- A transaction is not read, or its events are and then its changes. -/
theorem historyTransaction_cases {ctx : ParseContext} {st st' : History}
    {txn : Protos.Transaction} (h : historyTransaction sdk ctx st txn = some st') :
    (st' = st ∧ readChanges txn = [] ∧ readEvents txn = []) ∨
      ∃ timestamp request ev,
        txn.timestamp = some timestamp ∧
        txn.txnData = some (.user (some request) (readEvents txn)) ∧
        parseEvents sdk txn.txnVersion (sdk.parseTimestamp timestamp txn.txnVersion) request
          (readChanges txn) (readEvents txn) st.parsed = some ev ∧
        (readChanges txn).zipIdx.foldlM
          (historyChange sdk
            (changeContext ctx txn (sdk.parseTimestamp timestamp txn.txnVersion) ev))
          { st with
            parsed := { st.parsed with
              tokenV2MetadataHelper := ev.metadata
              tokenActivitiesV2 := ev.activities }
            transferEvents :=
              transfersAfter sdk (readChanges txn) (readEvents txn) st.transferEvents } =
            some st' := by
  unfold historyTransaction at h
  unfold readChanges readEvents
  split at h
  next hnone =>
    obtain rfl := Option.some.inj h
    rw [hnone]
    exact Or.inl ⟨rfl, rfl, rfl⟩
  next txnData hdata =>
    obtain ⟨timestamp, htimestamp, h⟩ := Option.bind_eq_some_iff.mp h
    obtain ⟨changes, hchanges, h⟩ := Option.bind_eq_some_iff.mp h
    rw [hdata, hchanges]
    cases txnData with
    | user request events =>
      obtain ⟨request, rfl, hread⟩ := Option.bind_eq_some_iff.mp h
      obtain ⟨ev, hev, hfold⟩ := Option.bind_eq_some_iff.mp hread
      exact Or.inr ⟨timestamp, request, ev, htimestamp, rfl, hev, hfold⟩
    | blockMetadata | genesis | validator | other =>
      obtain rfl := Option.some.inj h
      exact Or.inl ⟨rfl, rfl, rfl⟩

/-- A property of the state and the changes read so far. -/
theorem historyChanges_prefix {ctx : ChangeContext} {changes : List Protos.Change}
    {st st' : History} {P : List Protos.Change → History → Prop}
    (h : changes.zipIdx.foldlM (historyChange sdk ctx) st = some st') (hinit : P [] st)
    (hstep : ∀ done change index s s', change ∈ changes → P done s →
      historyChange sdk ctx s (change, index) = some s' → P (done ++ [change]) s') :
    P changes st' := by
  have hfold : P (changes.zipIdx.map Prod.fst) st' := by
    refine foldlM_prefix (P := fun done s => P (done.map Prod.fst) s) h hinit ?_
    intro done change s s' hdone hs hchange
    rw [List.map_append, List.map_singleton]
    have hmem := List.mem_map_of_mem (f := Prod.fst) (mem_of_prefix_concat hdone)
    rw [List.zipIdx_map_fst] at hmem
    exact hstep _ change.1 change.2 s s' hmem hs hchange
  rwa [List.zipIdx_map_fst] at hfold

theorem historyChanges_parsed {ctx : ChangeContext} {changes : List (Protos.Change × ℕ)}
    {st st' : History} (h : changes.foldlM (historyChange sdk ctx) st = some st') :
    changes.foldlM (parseChange sdk ctx) st.parsed = some st'.parsed := by
  refine foldlM_prefix (P := fun done s =>
    done.foldlM (parseChange sdk ctx) st.parsed = some s.parsed) h rfl ?_
  intro done change s s' _ hs hstep
  obtain ⟨rows, -, hparsed, -, -⟩ := historyChange_cases hstep
  rw [List.foldlM_append, hs]
  exact (Option.bind_some _ _).trans ((bind_pure _).trans hparsed)

theorem historyTransaction_parsed {ctx : ParseContext} {st st' : History}
    {txn : Protos.Transaction} (h : historyTransaction sdk ctx st txn = some st') :
    parseTransaction sdk ctx st.parsed txn = some st'.parsed := by
  unfold historyTransaction at h
  unfold parseTransaction
  cases hdata : txn.txnData with
  | none =>
    rw [hdata] at h
    obtain rfl := Option.some.inj h
    rfl
  | some txnData =>
    rw [hdata] at h
    obtain ⟨timestamp, htimestamp, h⟩ := Option.bind_eq_some_iff.mp h
    obtain ⟨changes, hchanges, h⟩ := Option.bind_eq_some_iff.mp h
    rw [htimestamp, hchanges]
    cases txnData with
    | user request events =>
      obtain ⟨request, rfl, hread⟩ := Option.bind_eq_some_iff.mp h
      obtain ⟨ev, hev, hfold⟩ := Option.bind_eq_some_iff.mp hread
      exact (congrArg (Option.bind · _) hev).trans (historyChanges_parsed hfold)
    | blockMetadata | genesis | validator | other =>
      obtain rfl := Option.some.inj h
      rfl

/-- **The rows are collected along `parse_v2_token`.** -/
theorem parseHistory_parsed {ctx : ParseContext} {txns : List Protos.Transaction} {out : History}
    (h : parseHistory sdk ctx txns = some out) : parseV2Token sdk ctx txns = some out.parsed := by
  unfold parseV2Token
  refine foldlM_prefix (P := fun done st =>
    done.foldlM (parseTransaction sdk ctx) ParseState.init = some st.parsed) h rfl ?_
  intro done txn st st' _ hst hstep
  rw [List.foldlM_append, hst]
  exact (Option.bind_some _ _).trans ((bind_pure _).trans (historyTransaction_parsed hstep))

/-! ## Transfers -/

/-- The transfers kept with indices are those kept with the objects. -/
def IndexedWith (transfers : IndexedTransfers) (metadata : ObjectAggregatedDataMapping) : Prop :=
  ∀ address, (transfers.lookup address).map (·.map Prod.snd) =
    (known metadata address).map Prod.snd

theorem resetTransfers_lookup (transfers : IndexedTransfers) (change : Protos.Change)
    (address : String) :
    (resetTransfers sdk transfers change).lookup address =
      ((coreOf sdk address change).map fun _ => []).or (transfers.lookup address) := by
  cases change with
  | writeResource wr params =>
    unfold resetTransfers coreOf
    dsimp only
    cases (objectCoreFromWriteResource sdk.toSdk wr).join with
    | none =>
      rw [ite_self]
      rfl
    | some core =>
      by_cases heq : sdk.standardizeAddress wr.address = address
      · rw [if_pos heq, ← heq, AList.lookup_insert]
        rfl
      · rw [if_neg heq, AList.lookup_insert_ne (Ne.symm heq)]
        rfl
  | deleteResource | writeTableItem | deleteTableItem | other => rfl

theorem foldl_resetTransfers_lookup (transfers : IndexedTransfers) (changes : List Protos.Change)
    (address : String) :
    (changes.foldl (resetTransfers sdk) transfers).lookup address =
      ((lastCore sdk address changes).map fun _ => []).or (transfers.lookup address) := by
  induction changes using List.reverseRecOn with
  | nil => rfl
  | append_singleton changes change ih =>
    rw [List.foldl_append, List.foldl_cons, List.foldl_nil, resetTransfers_lookup, ih,
      lastCore_concat]
    cases coreOf sdk address change with
    | none => rfl
    | some core => rfl

theorem recordTransfer_lookup (eventCount : ℕ) (transfers : IndexedTransfers)
    (event : Protos.Event × ℕ) (address : String) :
    ((recordTransfer sdk eventCount transfers event).lookup address).map (·.map Prod.snd) =
      ((transfers.lookup address).map (·.map Prod.snd)).map
        (· ++ transfersOf sdk address event.1) := by
  have hkeep : transfersOf sdk address event.1 = [] → (transfers.lookup address).map
      (·.map Prod.snd) = ((transfers.lookup address).map (·.map Prod.snd)).map
        (· ++ transfersOf sdk address event.1) := by
    intro hnil
    simp [hnil, Function.comp_def]
  unfold recordTransfer
  split
  next inner hevent =>
    have hof : transfersOf sdk address event.1 =
        if inner.getObjectAddress sdk = address then [inner] else [] := by
      unfold transfersOf
      rw [hevent]
    -- A transfer is kept under the object it moves, if that object is known.
    by_cases heq : inner.getObjectAddress sdk = address
    · rw [hof, if_pos heq, heq]
      cases hlookup : transfers.lookup address with
      | none =>
        dsimp only
        rw [hlookup]
        rfl
      | some events =>
        dsimp only
        rw [AList.lookup_insert]
        simp
    · rw [← hkeep (hof.trans (if_neg heq))]
      split
      · rw [AList.lookup_insert_ne (Ne.symm heq)]
      · rfl
  next hevent =>
    refine hkeep ?_
    unfold transfersOf
    split
    next inner heq => exact absurd heq (hevent inner)
    next => rfl

theorem foldl_recordTransfer_lookup (eventCount : ℕ) (transfers : IndexedTransfers)
    (events : List (Protos.Event × ℕ)) (address : String) :
    ((events.foldl (recordTransfer sdk eventCount) transfers).lookup address).map
        (·.map Prod.snd) =
      ((transfers.lookup address).map (·.map Prod.snd)).map
        (· ++ (events.map Prod.fst).flatMap (transfersOf sdk address)) := by
  induction events using List.reverseRecOn with
  | nil => simp [Function.comp_def]
  | append_singleton events event ih =>
    rw [List.foldl_append, List.foldl_cons, List.foldl_nil, recordTransfer_lookup, ih,
      Option.map_map, List.map_append, List.flatMap_append]
    simp [Function.comp_def]

/-- Loops 1 to 3 keep them so. -/
theorem indexedWith_parseEvents {txnVersion : Int64} {txnTimestamp : NaiveDateTime}
    {request : UserTransactionRequest} {changes : List Protos.Change}
    {events : List Protos.Event} {st : ParseState} {ev : EventState} {transfers : IndexedTransfers}
    (hindexed : IndexedWith transfers st.tokenV2MetadataHelper)
    (h : parseEvents sdk txnVersion txnTimestamp request changes events st = some ev) :
    IndexedWith (transfersAfter sdk changes events transfers) ev.metadata := by
  intro address
  unfold transfersAfter
  rw [foldl_recordTransfer_lookup, foldl_resetTransfers_lookup, parseEvents_known h,
    List.zipIdx_map_fst]
  cases lastCore sdk address changes with
  | some core => rfl
  | none =>
    rw [Option.map_none, Option.none_or, Option.map_none, Option.none_or, hindexed address,
      Option.map_map, Option.map_map]
    rfl

/-! ## Rows -/

theorem zipWith_historic_unindexed :
    ∀ {rows : List CurrentTokenOwnershipV2} {indices : List Int64},
      rows.length = indices.length →
      (rows.zipWith CurrentTokenOwnershipV2.historic indices).map (·.unindexed) =
        rows.map (·.historic 0) := by
  intro rows
  induction rows with
  | nil => intro indices _; rfl
  | cons row rows ih =>
    intro indices h
    cases indices with
    | nil => cases h
    | cons index indices =>
      rw [List.zipWith_cons_cons, List.map_cons, List.map_cons, ih (Nat.succ.inj h)]
      rfl

/-- The rows of a written token are those that become current rows. -/
theorem tokenRows_unindexed {ctx : ChangeContext} {transfers : IndexedTransfers}
    {wr : WriteResource} {index : ℕ} {st : ParseState} {rows : List TokenOwnershipV2}
    (hindexed : IndexedWith transfers st.tokenV2MetadataHelper)
    (h : tokenRows sdk ctx transfers wr index st = some rows) :
    (getV2FromWriteResource sdk wr ctx.txnVersion ctx.txnTimestamp st.tokenV2MetadataHelper =
        some none ∧ rows = []) ∨
      ∃ tokenData owner ownerships,
        getV2FromWriteResource sdk wr ctx.txnVersion ctx.txnTimestamp st.tokenV2MetadataHelper =
          some (some tokenData) ∧
        getNftV2FromTokenData sdk tokenData st.tokenV2MetadataHelper =
          some (owner, ownerships) ∧
        rows.map (·.unindexed) = ownerships.map (·.historic 0) := by
  unfold tokenRows at h
  obtain ⟨tokenData, hdata, h⟩ := Option.bind_eq_some_iff.mp h
  cases tokenData with
  | none =>
    obtain rfl := Option.some.inj h
    exact Or.inl ⟨hdata, rfl⟩
  | some tokenData =>
    obtain ⟨⟨owner, ownerships⟩, hnft, h⟩ := Option.bind_eq_some_iff.mp h
    obtain rfl := Option.some.inj h
    refine Or.inr ⟨tokenData, owner, ownerships, hdata, hnft, zipWith_historic_unindexed ?_⟩
    unfold getNftV2FromTokenData at hnft
    obtain ⟨objectData, hobject, hnft⟩ := Option.bind_eq_some_iff.mp hnft
    obtain ⟨-, rfl⟩ := Prod.mk.inj (Option.some.inj hnft)
    -- There are as many indices as transfers of the object.
    have htransfers := hindexed tokenData.tokenDataId
    unfold known at htransfers
    rw [hobject, Option.map_some, Option.map_some, Option.map_eq_some_iff] at htransfers
    obtain ⟨events, hevents, hsame⟩ := htransfers
    dsimp only at hsame
    unfold nftIndices transferredRows
    rw [hevents, Option.getD_some, ← hsame, List.filter_map]
    simp [Function.comp_def]

/-- Every current row has a property. -/
def ParseState.AllRows (st : ParseState) (P : CurrentTokenOwnershipV2 → Prop) : Prop :=
  ∀ kind key row, (st.ownerships kind).lookup key = some row → P row

theorem ParseState.AllRows.insertAll {st : ParseState} {P : CurrentTokenOwnershipV2 → Prop}
    (h : st.AllRows P) {rows : List CurrentTokenOwnershipV2} (hrows : ∀ row ∈ rows, P row)
    (kind : RowKind) (key : CurrentTokenOwnershipV2PK) (row : CurrentTokenOwnershipV2)
    (hrow : ((st.ownerships kind).insertAll (rows.map fun row => (row.pk, row))).lookup key =
      some row) : P row := by
  refine Table.insertAll_forall (P := fun _ row => P row) (h kind) ?_ key row hrow
  intro entry hentry
  obtain ⟨row, hmem, rfl⟩ := List.mem_map.mp hentry
  exact hrows row hmem

/-- The current rows of a change have the values of its rows. -/
theorem allRows_change {P : CurrentTokenOwnershipV2 → Prop} {ctx : ChangeContext}
    {transfers : IndexedTransfers} {st st' : ParseState} {change : Protos.Change × ℕ}
    {rows : List TokenOwnershipV2} (hindexed : IndexedWith transfers st.tokenV2MetadataHelper)
    (hrows : changeRows sdk ctx transfers st change = some rows)
    (hstep : parseChange sdk ctx st change = some st') (hold : st.AllRows P)
    (hnew : ∀ row : CurrentTokenOwnershipV2, row.historic 0 ∈ rows.map (·.unindexed) → P row) :
    st'.AllRows P := by
  obtain ⟨change, index⟩ := change
  -- A path with one row: it is built with the current row.
  have hone : ∀ (before : List TokenOwnershipV2) {ownership : Option CurrentTokenOwnershipV2},
      rows = before ++ ownership.toList.map (·.historic (Int64.ofNat index)) →
        ∀ row ∈ ownership.toList, P row := by
    intro before ownership heq row hrow
    refine hnew row ?_
    rw [heq, List.map_append, List.map_map]
    exact List.mem_append_right _ (List.mem_map.mpr ⟨row, hrow, rfl⟩)
  cases change with
  | writeTableItem item =>
    obtain ⟨ownership, hownership, hrows⟩ := Option.bind_eq_some_iff.mp hrows
    obtain ⟨tokenData, -, hstep⟩ := Option.bind_eq_some_iff.mp hstep
    obtain ⟨ownership', hownership', hstep⟩ := Option.bind_eq_some_iff.mp hstep
    obtain rfl := Option.some.inj (hownership.symm.trans hownership')
    obtain rfl := Option.some.inj hstep
    intro kind key row hrow
    cases kind with
    | live => exact hold.insertAll (hone [] (Option.some.inj hrows).symm) .live key row hrow
    | deleted => exact hold .deleted key row hrow
  | deleteTableItem item =>
    obtain ⟨ownership, hownership, hrows⟩ := Option.bind_eq_some_iff.mp hrows
    obtain ⟨ownership', hownership', hstep⟩ := Option.bind_eq_some_iff.mp hstep
    obtain rfl := Option.some.inj (hownership.symm.trans hownership')
    obtain rfl := Option.some.inj hstep
    intro kind key row hrow
    cases kind with
    | live => exact hold .live key row hrow
    | deleted =>
      exact hold.insertAll (hone [] (Option.some.inj hrows).symm) .deleted key row hrow
  -- A written token first puts its rows among the live ones, then a burned one may go among
  -- the deleted ones.
  | writeResource wr params =>
    obtain ⟨written, hwritten, hrows⟩ := Option.bind_eq_some_iff.mp hrows
    obtain ⟨st₁, htoken, hrows⟩ := Option.bind_eq_some_iff.mp hrows
    obtain ⟨ownership, hownership, hrows⟩ := Option.bind_eq_some_iff.mp hrows
    obtain ⟨st₁', htoken', hstep⟩ := Option.bind_eq_some_iff.mp hstep
    obtain rfl := Option.some.inj (htoken.symm.trans htoken')
    obtain ⟨ownership', hownership', hstep⟩ := Option.bind_eq_some_iff.mp hstep
    obtain rfl := Option.some.inj (hownership.symm.trans hownership')
    obtain rfl := Option.some.inj hstep
    obtain rfl := Option.some.inj hrows
    have hall : st₁.AllRows P := by
      rcases parseToken_cases htoken with ⟨-, rfl⟩ |
        ⟨tokenData, owner, ownerships, hdata, hnft, rfl⟩
      · exact hold
      · intro kind key row hrow
        cases kind with
        | live =>
          refine hold.insertAll ?_ .live key row hrow
          rcases tokenRows_unindexed hindexed hwritten with ⟨hnone, -⟩ |
            ⟨tokenData', owner', ownerships', hdata', hnft', hsame⟩
          · rw [hdata] at hnone
            cases hnone
          · obtain rfl := Option.some.inj (Option.some.inj (hdata.symm.trans hdata'))
            obtain ⟨-, rfl⟩ := Prod.mk.inj (Option.some.inj (hnft.symm.trans hnft'))
            intro row hrow
            refine hnew row ?_
            rw [List.map_append, hsame]
            exact List.mem_append_left _ (List.mem_map.mpr ⟨row, hrow, rfl⟩)
        | deleted => exact hold .deleted key row hrow
    intro kind key row hrow
    cases kind with
    | live => exact hall .live key row hrow
    | deleted => exact hall.insertAll (hone written rfl) .deleted key row hrow
  | deleteResource dr params =>
    obtain rfl := Option.some.inj hstep
    intro kind key row hrow
    cases kind with
    | live => exact hold .live key row hrow
    | deleted =>
      exact hold.insertAll (hone [] (Option.some.inj hrows).symm) .deleted key row hrow
  | other =>
    obtain rfl := Option.some.inj hstep
    exact hold

/-! ### V1 tokens -/

/-- The token a table item has for its value. -/
def writtenToken (sdk : TokenSdk) (item : WriteTableItem) : Option TokenType :=
  item.data.bind fun data =>
    match TokenWriteSet.fromTableItemType sdk data.valueType data.value with
    | some (some (.token token)) => some token
    | _ => none

/-- The token id a deleted table item has for its key. -/
def deletedToken (sdk : TokenSdk) (item : DeleteTableItem) : Option TokenIdType :=
  item.data.bind fun data =>
    match TokenWriteSet.fromTableItemType sdk data.keyType data.key with
    | some (some (.tokenId id)) => some id
    | _ => none

/-- The row of a written table item. -/
theorem getV1OwnershipFromWriteTableItem_eq {item : WriteTableItem} {txnVersion : Int64}
    {txnTimestamp : NaiveDateTime} {tables : TableHandleToOwner}
    {tokensDeposited : Table String TokenActivityHelperV1}
    {ownership : Option CurrentTokenOwnershipV2}
    (h : getV1OwnershipFromWriteTableItem sdk item txnVersion txnTimestamp tables tokensDeposited =
      some ownership) :
    ownership = (writtenToken sdk item).bind fun token =>
      (tokenStoreOwner sdk (sdk.standardizeAddress item.handle) (token.id.tokenDataId.toId sdk)
        tables tokensDeposited (·.toAddress)).join.map fun owner =>
          v1Ownership sdk token.id owner (sdk.standardizeAddress item.handle)
            (sdk.ensureNotNegative token.amount) (some token.tokenProperties) txnVersion
            txnTimestamp := by
  obtain ⟨data, hdata, h⟩ := Option.bind_eq_some_iff.mp h
  obtain ⟨value, hvalue, h⟩ := Option.bind_eq_some_iff.mp h
  unfold writtenToken
  rw [hdata, Option.bind_some, hvalue]
  split at h
  next token =>
    obtain ⟨owner, howner, h⟩ := Option.bind_eq_some_iff.mp h
    obtain rfl := Option.some.inj h
    rw [Option.bind_some, howner]
    rfl
  next hother =>
    obtain rfl := Option.some.inj h
    split
    next token heq => exact absurd (Option.some.inj heq) (hother token)
    next => rfl

/-- The row of a deleted table item. -/
theorem getV1OwnershipFromDeleteTableItem_eq {item : DeleteTableItem} {txnVersion : Int64}
    {txnTimestamp : NaiveDateTime} {tables : TableHandleToOwner}
    {tokensWithdrawn : Table String TokenActivityHelperV1}
    {ownership : Option CurrentTokenOwnershipV2}
    (h : getV1OwnershipFromDeleteTableItem sdk item txnVersion txnTimestamp tables
      tokensWithdrawn = some ownership) :
    ownership = (deletedToken sdk item).bind fun id =>
      (tokenStoreOwner sdk (sdk.standardizeAddress item.handle) (id.tokenDataId.toId sdk)
        tables tokensWithdrawn (·.fromAddress)).join.map fun owner =>
          v1Ownership sdk id owner (sdk.standardizeAddress item.handle) 0 none txnVersion
            txnTimestamp := by
  obtain ⟨data, hdata, h⟩ := Option.bind_eq_some_iff.mp h
  obtain ⟨key, hkey, h⟩ := Option.bind_eq_some_iff.mp h
  unfold deletedToken
  rw [hdata, Option.bind_some, hkey]
  split at h
  next id =>
    obtain ⟨owner, howner, h⟩ := Option.bind_eq_some_iff.mp h
    obtain rfl := Option.some.inj h
    rw [Option.bind_some, howner]
    rfl
  next hother =>
    obtain rfl := Option.some.inj h
    split
    next id heq => exact absurd (Option.some.inj heq) (hother id)
    next => rfl

/-- A row of a V1 token. -/
def IsV1Row (sdk : TokenSdk) (txnVersion : Int64) (row : CurrentTokenOwnershipV2) : Prop :=
  ∃ id owner handle amount properties timestamp,
    row = v1Ownership sdk id owner handle amount properties txnVersion timestamp

theorem isV1Row_written {item : WriteTableItem} {txnVersion : Int64}
    {txnTimestamp : NaiveDateTime} {tables : TableHandleToOwner}
    {tokensDeposited : Table String TokenActivityHelperV1}
    {ownership : Option CurrentTokenOwnershipV2}
    (h : getV1OwnershipFromWriteTableItem sdk item txnVersion txnTimestamp tables tokensDeposited =
      some ownership) : ∀ row ∈ ownership, IsV1Row sdk txnVersion row := by
  intro row hrow
  rw [getV1OwnershipFromWriteTableItem_eq h] at hrow
  obtain ⟨token, -, hrow⟩ := Option.bind_eq_some_iff.mp hrow
  obtain ⟨owner, -, rfl⟩ := Option.map_eq_some_iff.mp hrow
  exact ⟨_, _, _, _, _, _, rfl⟩

theorem isV1Row_deleted {item : DeleteTableItem} {txnVersion : Int64}
    {txnTimestamp : NaiveDateTime} {tables : TableHandleToOwner}
    {tokensWithdrawn : Table String TokenActivityHelperV1}
    {ownership : Option CurrentTokenOwnershipV2}
    (h : getV1OwnershipFromDeleteTableItem sdk item txnVersion txnTimestamp tables
      tokensWithdrawn = some ownership) : ∀ row ∈ ownership, IsV1Row sdk txnVersion row := by
  intro row hrow
  rw [getV1OwnershipFromDeleteTableItem_eq h] at hrow
  obtain ⟨id, -, hrow⟩ := Option.bind_eq_some_iff.mp hrow
  obtain ⟨owner, -, rfl⟩ := Option.map_eq_some_iff.mp hrow
  exact ⟨_, _, _, _, _, _, rfl⟩

/-! ### Object tokens -/

/-- The rows of a written resource are of its transaction and of object tokens. -/
theorem writeResource_rows {ctx : ChangeContext} {transfers : IndexedTransfers}
    {st : ParseState} {wr : WriteResource} {params : List MoveType} {index : ℕ}
    {rows : List TokenOwnershipV2} (hindexed : IndexedWith transfers st.tokenV2MetadataHelper)
    (h : changeRows sdk ctx transfers st (.writeResource wr params, index) = some rows) :
    ∀ row ∈ rows, row.transactionVersion = ctx.txnVersion ∧ row.tokenStandard = .v2 := by
  obtain ⟨written, hwritten, h⟩ := Option.bind_eq_some_iff.mp h
  obtain ⟨st₁, -, h⟩ := Option.bind_eq_some_iff.mp h
  obtain ⟨ownership, hownership, h⟩ := Option.bind_eq_some_iff.mp h
  obtain rfl := Option.some.inj h
  refine List.forall_mem_append.mpr ⟨?_, ?_⟩
  -- The rows of the token are those of the current path but for the index.
  · rcases tokenRows_unindexed hindexed hwritten with ⟨-, rfl⟩ |
      ⟨tokenData, owner, ownerships, hdata, hnft, hsame⟩
    · exact List.forall_mem_nil _
    · obtain ⟨-, -, hversion, -, -⟩ := getV2FromWriteResource_row hdata
      unfold getNftV2FromTokenData at hnft
      obtain ⟨data, -, hnft⟩ := Option.bind_eq_some_iff.mp hnft
      obtain ⟨-, rfl⟩ := Prod.mk.inj (Option.some.inj hnft)
      intro row hrow
      have hmem := List.mem_map_of_mem (f := TokenOwnershipV2.unindexed) hrow
      rw [hsame] at hmem
      obtain ⟨current, hcurrent, hrow⟩ := List.mem_map.mp hmem
      have hversion' : row.transactionVersion = current.lastTransactionVersion :=
        congrArg TokenOwnershipV2.transactionVersion hrow.symm
      have hstandard : row.tokenStandard = current.tokenStandard :=
        congrArg TokenOwnershipV2.tokenStandard hrow.symm
      rw [hversion', hstandard]
      rcases List.mem_cons.mp hcurrent with rfl | hformer
      · exact ⟨hversion, rfl⟩
      · obtain ⟨event, -, rfl⟩ := List.mem_map.mp hformer
        exact ⟨hversion, rfl⟩
  · intro row hrow
    obtain ⟨current, hcurrent, rfl⟩ := List.mem_map.mp hrow
    obtain rfl := Option.mem_toList.mp hcurrent
    unfold getBurnedNftV2FromWriteResource at hownership
    dsimp only at hownership
    split at hownership
    · obtain ⟨object, -, hrow⟩ := Option.map_eq_some_iff.mp hownership
      cases object with
      | none =>
        obtain ⟨burn, -, rfl⟩ := Option.map_eq_some_iff.mp hrow
        exact ⟨rfl, rfl⟩
      | some core =>
        obtain rfl := Option.some.inj hrow
        exact ⟨rfl, rfl⟩
    · cases Option.some.inj hownership

theorem deleteResource_rows {ctx : ChangeContext} {transfers : IndexedTransfers}
    {st : ParseState} {dr : DeleteResource} {params : List MoveType} {index : ℕ}
    {rows : List TokenOwnershipV2}
    (h : changeRows sdk ctx transfers st (.deleteResource dr params, index) = some rows) :
    ∀ row ∈ rows, row.transactionVersion = ctx.txnVersion ∧ row.tokenStandard = .v2 := by
  obtain rfl := Option.some.inj h
  intro row hrow
  obtain ⟨current, hcurrent, rfl⟩ := List.mem_map.mp hrow
  obtain ⟨burn, -, rfl⟩ := Option.map_eq_some_iff.mp (Option.mem_toList.mp hcurrent)
  exact ⟨rfl, rfl⟩

/-! ### Versions -/

/-- The rows of a change are of its transaction. -/
theorem changeRows_version {ctx : ChangeContext} {transfers : IndexedTransfers}
    {st : ParseState} {change : Protos.Change × ℕ} {rows : List TokenOwnershipV2}
    (hindexed : IndexedWith transfers st.tokenV2MetadataHelper)
    (h : changeRows sdk ctx transfers st change = some rows) :
    ∀ row ∈ rows, row.transactionVersion = ctx.txnVersion := by
  obtain ⟨change, index⟩ := change
  have hv1 : ∀ {ownership : Option CurrentTokenOwnershipV2},
      (∀ row ∈ ownership, IsV1Row sdk ctx.txnVersion row) →
        ∀ row ∈ ownership.toList.map (·.historic (Int64.ofNat index)),
          row.transactionVersion = ctx.txnVersion := by
    intro ownership hownership row hrow
    obtain ⟨current, hcurrent, rfl⟩ := List.mem_map.mp hrow
    obtain ⟨_, _, _, _, _, _, rfl⟩ := hownership current (Option.mem_toList.mp hcurrent)
    rfl
  cases change with
  | writeTableItem item =>
    obtain ⟨ownership, hownership, h⟩ := Option.bind_eq_some_iff.mp h
    obtain rfl := Option.some.inj h
    exact hv1 (isV1Row_written hownership)
  | deleteTableItem item =>
    obtain ⟨ownership, hownership, h⟩ := Option.bind_eq_some_iff.mp h
    obtain rfl := Option.some.inj h
    exact hv1 (isV1Row_deleted hownership)
  | writeResource wr params => exact fun row hrow => (writeResource_rows hindexed h row hrow).1
  | deleteResource dr params => exact fun row hrow => (deleteResource_rows h row hrow).1
  | other =>
    obtain rfl := Option.some.inj h
    exact List.forall_mem_nil _

/-- The versions of rows collected over a batch, after one more transaction. -/
theorem rowVersions_concat {Row : Type} {version : Row → Int64} {done : List Protos.Transaction}
    {txn : Protos.Transaction} {rows new : List Row}
    (hrows : ∀ row ∈ rows, ∃ t ∈ done, version row = t.txnVersion)
    (hnew : ∀ row ∈ new, version row = txn.txnVersion) :
    ∀ row ∈ rows ++ new, ∃ t ∈ done ++ [txn], version row = t.txnVersion := by
  intro row hrow
  rcases List.mem_append.mp hrow with hrow | hrow
  · obtain ⟨t, ht, hversion⟩ := hrows row hrow
    exact ⟨t, List.mem_append_left _ ht, hversion⟩
  · exact ⟨txn, List.mem_append_right _ (List.mem_singleton.mpr rfl), hnew row hrow⟩

/-! ## Runs -/

/-- What holds between changes: the transfers have their indices, and what is known about
objects is what the first three loops left. -/
theorem historyChange_objects {ctx : ChangeContext} {st st' : History}
    {change : Protos.Change × ℕ} (h : historyChange sdk ctx st change = some st') :
    st'.transferEvents = st.transferEvents ∧
      st'.parsed.tokenV2MetadataHelper = st.parsed.tokenV2MetadataHelper := by
  obtain ⟨rows, -, hparsed, htransfers, -⟩ := historyChange_cases h
  exact ⟨htransfers, (changeStep_objects (parseChange_step hparsed)).1⟩

/-- Between transactions too. -/
def History.Indexed (st : History) : Prop :=
  IndexedWith st.transferEvents st.parsed.tokenV2MetadataHelper

theorem indexed_transaction {ctx : ParseContext} {st st' : History} {txn : Protos.Transaction}
    (hindexed : st.Indexed) (h : historyTransaction sdk ctx st txn = some st') : st'.Indexed := by
  rcases historyTransaction_cases h with ⟨rfl, -, -⟩ | ⟨ts, request, ev, -, -, hev, hfold⟩
  · exact hindexed
  · refine foldlM_invariant (P := History.Indexed) hfold (indexedWith_parseEvents hindexed hev) ?_
    intro change _ s s' hs hstep
    obtain ⟨htransfers, hobjects⟩ := historyChange_objects hstep
    unfold History.Indexed
    rw [htransfers, hobjects]
    exact hs

/-- The rows a transaction adds. If each change makes its rows have `P` exactly if it has `Q`,
all rows have `P` exactly if all changes have `Q`. -/
theorem historyChanges_rows_iff {ctx : ChangeContext} {changes : List Protos.Change}
    {st st' : History} {P : TokenOwnershipV2 → Prop} {Q : Protos.Change → Prop}
    (h : changes.zipIdx.foldlM (historyChange sdk ctx) st = some st') (hindexed : st.Indexed)
    (hrows : ∀ change ∈ changes, ∀ (index : ℕ) (s : History) (rows : List TokenOwnershipV2),
      IndexedWith s.transferEvents s.parsed.tokenV2MetadataHelper →
      s.parsed.tokenV2MetadataHelper = st.parsed.tokenV2MetadataHelper →
      changeRows sdk ctx s.transferEvents s.parsed (change, index) = some rows →
      ((∀ row ∈ rows, P row) ↔ Q change)) :
    st'.parsed.tokenV2MetadataHelper = st.parsed.tokenV2MetadataHelper ∧
    ∃ rows, st'.tokenOwnershipsV2 = st.tokenOwnershipsV2 ++ rows ∧
      (∀ row ∈ rows, row.transactionVersion = ctx.txnVersion) ∧
      ((∀ row ∈ rows, P row) ↔ ∀ change ∈ changes, Q change) := by
  have hrun := historyChanges_prefix (P := fun done s => s.Indexed ∧
    s.parsed.tokenV2MetadataHelper = st.parsed.tokenV2MetadataHelper ∧
    ∃ rows, s.tokenOwnershipsV2 = st.tokenOwnershipsV2 ++ rows ∧
      (∀ row ∈ rows, row.transactionVersion = ctx.txnVersion) ∧
      ((∀ row ∈ rows, P row) ↔ ∀ change ∈ done, Q change))
    h ⟨hindexed, rfl, [], (List.append_nil _).symm, List.forall_mem_nil _,
      iff_of_true (List.forall_mem_nil _) (List.forall_mem_nil _)⟩ ?_
  · exact hrun.2
  · intro done change index s s' hmem hs hstep
    obtain ⟨hs, hmetadata, rows, happend, hversions, hboth⟩ := hs
    obtain ⟨htransfers, hkeeps⟩ := historyChange_objects hstep
    obtain ⟨new, hnew, -, -, happend'⟩ := historyChange_cases hstep
    refine ⟨?_, hkeeps.trans hmetadata, rows ++ new, ?_, ?_, ?_⟩
    · unfold History.Indexed
      rw [htransfers, hkeeps]
      exact hs
    · rw [happend', happend, List.append_assoc]
    · exact List.forall_mem_append.mpr ⟨hversions, changeRows_version hs hnew⟩
    · rw [List.forall_mem_append, List.forall_mem_append, List.forall_mem_singleton, hboth,
        hrows change hmem index s new hs hmetadata hnew]

/-- A row with the values of a current row. -/
def History.Has (st : History) (row : CurrentTokenOwnershipV2) : Prop :=
  row.historic 0 ∈ st.tokenOwnershipsV2.map (·.unindexed)

theorem allRows_transaction {ctx : ParseContext} {st st' : History} {txn : Protos.Transaction}
    (hindexed : st.Indexed) (hrows : st.parsed.AllRows st.Has)
    (h : historyTransaction sdk ctx st txn = some st') : st'.parsed.AllRows st'.Has := by
  rcases historyTransaction_cases h with ⟨rfl, -, -⟩ | ⟨ts, request, ev, -, -, hev, hfold⟩
  · exact hrows
  · have hboth := foldlM_invariant (P := fun s : History => s.Indexed ∧ s.parsed.AllRows s.Has)
      hfold ⟨indexedWith_parseEvents hindexed hev, ?_⟩ ?_
    · exact hboth.2
    · intro kind key row hrow
      refine hrows kind key row ?_
      cases kind with
      | live => exact hrow
      | deleted => exact hrow
    · intro change _ s s' hs hstep
      obtain ⟨htransfers, hobjects⟩ := historyChange_objects hstep
      obtain ⟨rows, hnew, hparsed, -, happend⟩ := historyChange_cases hstep
      refine ⟨?_, allRows_change hs.1 hnew hparsed ?_ ?_⟩
      · unfold History.Indexed
        rw [htransfers, hobjects]
        exact hs.1
      · intro kind key row hrow
        unfold History.Has
        rw [happend, List.map_append]
        exact List.mem_append_left _ (hs.2 kind key row hrow)
      · intro row hrow
        unfold History.Has
        rw [happend, List.map_append]
        exact List.mem_append_right _ hrow

/-- **Every current row is among the historic rows**, but for the index. -/
theorem currentRows_historic {ctx : ParseContext} {txns : List Protos.Transaction} {out : History}
    (h : parseHistory sdk ctx txns = some out) : out.parsed.AllRows out.Has := by
  have hboth := foldlM_invariant (P := fun s : History => s.Indexed ∧ s.parsed.AllRows s.Has)
    h ⟨?_, ?_⟩ ?_
  · exact hboth.2
  · intro address
    rfl
  · intro kind key row hrow
    cases kind with
    | live => cases hrow
    | deleted => cases hrow
  · intro txn _ st st' hst hstep
    exact ⟨indexed_transaction hst.1 hstep, allRows_transaction hst.1 hst.2 hstep⟩

end IndexerProcessors.TokenV2

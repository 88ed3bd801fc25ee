import IndexerProcessors.TokenV2.DataSchedule

/-!
# Operations on a token

What a transaction does to the token at an address: it writes the token, or it
burns it. The write set is the state after the transaction, so a transaction
that writes the token leaves it in existence, whatever its events say.

`parse_v2_token` sees a write at the token's own resource and a burn at any
change of a resource at its address. The lemmas here say what its maps of token
data hold after a transaction, in terms of these operations. Identifiers of V1
tokens are hashes in the form of addresses; the lemmas are about addresses that
are no such identifier.
-/

namespace IndexerProcessors.TokenV2

open IndexerProcessors.Lib
open IndexerProcessors.Protos

variable {sdk : TokenSdk} {token : String}

/-! ## Operations -/

/-- The changes that are read of a transaction. -/
def readChanges (txn : Protos.Transaction) : List Protos.Change :=
  match txn.txnData with
  | some (.user _ _) => txn.info.getD []
  | _ => []

/-- The events that are read of a transaction. -/
def readEvents (txn : Protos.Transaction) : List Protos.Event :=
  match txn.txnData with
  | some (.user _ events) => events
  | _ => []

/-- A change writes the token at an address. -/
def tokenWrittenAt (sdk : TokenSdk) (token : String) : Protos.Change → Bool
  | .writeResource wr _ =>
    getOuterTypeFromWriteResource sdk.toSdk wr = typeTokenV2 ∧
      sdk.standardizeAddress wr.address = token
  | _ => false

/-- A change of a resource at an address. -/
def changedAt (sdk : TokenSdk) (token : String) : Protos.Change → Bool
  | .writeResource wr _ => sdk.standardizeAddress wr.address = token
  | .deleteResource dr _ => sdk.standardizeAddress dr.address = token
  | _ => false

def writesToken (sdk : TokenSdk) (token : String) (txn : Protos.Transaction) : Bool :=
  (readChanges txn).any (tokenWrittenAt sdk token)

def burnsToken (sdk : TokenSdk) (token : String) (txn : Protos.Transaction) : Bool :=
  (lastBurn sdk token (readEvents txn)).isSome

def changesToken (sdk : TokenSdk) (token : String) (txn : Protos.Transaction) : Bool :=
  (readChanges txn).any (changedAt sdk token)

inductive TokenOp where
  | write
  | burn
  deriving DecidableEq, Repr

/-- What a transaction does to a token. -/
def tokenOp (sdk : TokenSdk) (token : String) (txn : Protos.Transaction) : Option TokenOp :=
  if writesToken sdk token txn then some .write
  else if burnsToken sdk token txn then some .burn
  else none

/-- The last operation on a token. -/
def lastOp (sdk : TokenSdk) (token : String) (txns : List Protos.Transaction) : Option TokenOp :=
  (txns.filterMap (tokenOp sdk token)).getLast?

theorem tokenWrittenAt_iff {wr : WriteResource} {params : List MoveType} :
    tokenWrittenAt sdk token (.writeResource wr params) = true ↔
      getOuterTypeFromWriteResource sdk.toSdk wr = typeTokenV2 ∧
        sdk.standardizeAddress wr.address = token :=
  decide_eq_true_iff

theorem lastOp_append (txns txns' : List Protos.Transaction) :
    lastOp sdk token (txns ++ txns') = (lastOp sdk token txns').or (lastOp sdk token txns) := by
  unfold lastOp
  rw [List.filterMap_append, List.getLast?_append]

theorem lastOp_singleton (txn : Protos.Transaction) :
    lastOp sdk token [txn] = tokenOp sdk token txn := by
  unfold lastOp
  rw [List.filterMap_cons]
  cases tokenOp sdk token txn with
  | none => rfl
  | some op => rfl

theorem lastOp_concat (txns : List Protos.Transaction) (txn : Protos.Transaction) :
    lastOp sdk token (txns ++ [txn]) = (tokenOp sdk token txn).or (lastOp sdk token txns) := by
  rw [lastOp_append, lastOp_singleton]

theorem tokenOp_of_writes {txn : Protos.Transaction} (h : writesToken sdk token txn = true) :
    tokenOp sdk token txn = some .write :=
  if_pos h

theorem tokenOp_of_burns {txn : Protos.Transaction} (hwrites : writesToken sdk token txn = false)
    (hburns : burnsToken sdk token txn = true) : tokenOp sdk token txn = some .burn := by
  unfold tokenOp
  rw [hwrites, if_neg Bool.false_ne_true, if_pos hburns]

theorem tokenOp_of_neither {txn : Protos.Transaction}
    (hwrites : writesToken sdk token txn = false) (hburns : burnsToken sdk token txn = false) :
    tokenOp sdk token txn = none := by
  unfold tokenOp
  rw [hwrites, if_neg Bool.false_ne_true, hburns, if_neg Bool.false_ne_true]

/-! ## Identifiers of V1 tokens -/

/-- The token data id in a key or a value. -/
def tokenIdsOf (sdk : TokenSdk) : Option (Option TokenWriteSet) → List String
  | some (some (.tokenDataId id)) => [id.toId sdk]
  | some (some (.tokenId id)) => [id.tokenDataId.toId sdk]
  | some (some (.token inner)) => [inner.id.tokenDataId.toId sdk]
  | _ => []

/-- The V1 tokens a table item is about. -/
def v1Ids (sdk : TokenSdk) : Protos.Change → List String
  | .writeTableItem ⟨_, _, some data⟩ =>
    tokenIdsOf sdk (TokenWriteSet.fromTableItemType sdk data.keyType data.key) ++
      tokenIdsOf sdk (TokenWriteSet.fromTableItemType sdk data.valueType data.value)
  | .deleteTableItem ⟨_, _, some data⟩ =>
    tokenIdsOf sdk (TokenWriteSet.fromTableItemType sdk data.keyType data.key)
  | _ => []

/-- No V1 token of a transaction has the address for its id. -/
def NamesNoV1 (sdk : TokenSdk) (token : String) (txn : Protos.Transaction) : Prop :=
  ∀ change ∈ readChanges txn, token ∉ v1Ids sdk change

instance (txn : Protos.Transaction) : Decidable (NamesNoV1 sdk token txn) :=
  inferInstanceAs (Decidable (∀ change ∈ readChanges txn, token ∉ v1Ids sdk change))

theorem v1Data_mem_v1Ids {item : WriteTableItem} {txnVersion : Int64}
    {txnTimestamp : NaiveDateTime} {row : CurrentTokenDataV2}
    (h : getV1DataFromWriteTableItem sdk item txnVersion txnTimestamp = some (some row)) :
    row.tokenDataId ∈ v1Ids sdk (.writeTableItem item) := by
  obtain ⟨data, id, tokenData, hdata, hkey, rfl⟩ := getV1DataFromWriteTableItem_row h
  obtain ⟨handle, key, itemData⟩ := item
  obtain rfl : itemData = some data := hdata
  refine List.mem_append_left _ ?_
  rw [hkey]
  exact List.mem_singleton.mpr rfl

/-! ## One change -/

/-- A written resource that is passed over is no token, or its object is not known. -/
theorem getV2FromWriteResource_none {wr : WriteResource} {txnVersion : Int64}
    {txnTimestamp : NaiveDateTime} {metadata : ObjectAggregatedDataMapping}
    (h : getV2FromWriteResource sdk wr txnVersion txnTimestamp metadata = some none) :
    getOuterTypeFromWriteResource sdk.toSdk wr ≠ typeTokenV2 ∨
      known metadata (sdk.standardizeAddress wr.address) = none := by
  unfold getV2FromWriteResource at h
  obtain ⟨inner, hinner, h⟩ := Option.bind_eq_some_iff.mp h
  cases inner with
  | none =>
    left
    unfold fromWriteResource at hinner
    split at hinner
    · obtain ⟨inner, -, hsome⟩ := Option.map_eq_some_iff.mp hinner
      cases hsome
    · assumption
  | some inner =>
    right
    unfold known
    cases hdata : metadata.lookup (sdk.standardizeAddress wr.address) with
    | none => rfl
    | some data =>
      dsimp only at h
      rw [hdata] at h
      cases Option.some.inj h

/-- Only a write of the token puts a row among the existing ones. -/
theorem changeStep_tokenData {ctx : ChangeContext} {st st' : ParseState} {index : ℕ}
    {change : Protos.Change} (hstep : ChangeStep sdk ctx st index change st')
    (hv1 : token ∉ v1Ids sdk change)
    (hknown : tokenWrittenAt sdk token change = true →
      (known st.tokenV2MetadataHelper token).isSome) :
    (st'.currentTokenDatasV2.lookup token).map (·.lastTransactionVersion) =
      if tokenWrittenAt sdk token change then some ctx.txnVersion
      else (st.currentTokenDatasV2.lookup token).map (·.lastTransactionVersion) := by
  cases hstep with
  | @writeTableItem item tokenData ownership hdata =>
    -- A V1 token may be inserted, under another id.
    rw [if_neg (by simp [tokenWrittenAt])]
    congr 1
    refine (Table.lookup_insertAll_toList _ _ _ _ _).trans ?_
    have hfilter : tokenData.filter (fun row => row.tokenDataId = token) = none := by
      rw [Option.filter_eq_none_iff]
      intro row hrow heq
      obtain rfl : tokenData = some row := hrow
      refine hv1 ?_
      rw [← of_decide_eq_true heq]
      exact v1Data_mem_v1Ids hdata
    rw [hfilter]
    rfl
  | deleteTableItem => rw [if_neg (by simp [tokenWrittenAt])]; rfl
  | @writeResource wr params st₁ ownership htoken =>
    show (st₁.currentTokenDatasV2.lookup token).map (·.lastTransactionVersion) = _
    rcases parseToken_cases htoken with ⟨hnone, rfl⟩ | ⟨tokenData, owner, rows, hdata, -, rfl⟩
    · rw [if_neg ?_]
      intro hwritten
      obtain ⟨htype, haddress⟩ := tokenWrittenAt_iff.mp hwritten
      rcases getV2FromWriteResource_none hnone with hother | hunknown
      · exact hother htype
      · rw [haddress] at hunknown
        have hsome := hknown hwritten
        rw [hunknown] at hsome
        cases hsome
    · obtain ⟨htype, hid, hversion, -, -⟩ := getV2FromWriteResource_row hdata
      show ((st.currentTokenDatasV2.insert tokenData.tokenDataId tokenData).lookup token).map _ = _
      by_cases heq : sdk.standardizeAddress wr.address = token
      · rw [if_pos (tokenWrittenAt_iff.mpr ⟨htype, heq⟩), ← heq, ← hid, AList.lookup_insert,
          Option.map_some, hversion]
      · have hne : token ≠ tokenData.tokenDataId := by
          rw [hid]
          exact Ne.symm heq
        rw [if_neg (fun h => heq (tokenWrittenAt_iff.mp h).2), AList.lookup_insert_ne hne]
  | deleteResource => rw [if_neg (by simp [tokenWrittenAt])]; rfl
  | other => rw [if_neg (by simp [tokenWrittenAt])]

/-- Only a change at the address of a burned token puts a row among the burned
ones. -/
theorem changeStep_deletedTokenData (hstd : ∀ s, sdk.standardizeAddress (sdk.standardizeAddress s) =
      sdk.standardizeAddress s) {ctx : ChangeContext} {st st' : ParseState} {index : ℕ}
    {change : Protos.Change} (hstep : ChangeStep sdk ctx st index change st') :
    (st'.currentDeletedTokenDatasV2.lookup token).map (·.lastTransactionVersion) =
      if changedAt sdk token change ∧ (ctx.tokensBurned.lookup token).isSome then
        some ctx.txnVersion
      else (st.currentDeletedTokenDatasV2.lookup token).map (·.lastTransactionVersion) := by
  -- Written and deleted resources ask for the burn in the same way.
  have hburned : ∀ address (rows : Table String CurrentTokenDataV2),
      ((rows.insertAll ((getBurnedNftV2Data sdk address ctx.txnVersion ctx.txnTimestamp
          ctx.tokensBurned).toList.map fun row => (row.tokenDataId, row))).lookup token).map
          (·.lastTransactionVersion) =
        if sdk.standardizeAddress address = token ∧ (ctx.tokensBurned.lookup token).isSome then
          some ctx.txnVersion
        else (rows.lookup token).map (·.lastTransactionVersion) := by
    intro address rows
    rw [Table.lookup_insertAll_toList]
    unfold getBurnedNftV2Data
    dsimp only
    rw [hstd]
    by_cases heq : sdk.standardizeAddress address = token
    · rw [heq]
      cases ctx.tokensBurned.lookup token with
      | none => simp
      | some burn => simp [Option.filter_some]
    · cases ctx.tokensBurned.lookup (sdk.standardizeAddress address) with
      | none => simp [heq]
      | some burn => simp [Option.filter_some, heq]
  cases hstep with
  | writeTableItem => simp [changedAt]; rfl
  | deleteTableItem => simp [changedAt]; rfl
  | @writeResource wr params st₁ ownership htoken =>
    have hrows : st₁.currentDeletedTokenDatasV2 = st.currentDeletedTokenDatasV2 := by
      rcases parseToken_cases htoken with ⟨-, rfl⟩ | ⟨tokenData, owner, rows, -, -, rfl⟩
      · rfl
      · rfl
    rw [← hrows]
    refine (hburned wr.address st₁.currentDeletedTokenDatasV2).trans ?_
    simp [changedAt]
  | @deleteResource dr params =>
    refine (hburned dr.address st.currentDeletedTokenDatasV2).trans ?_
    simp [changedAt]
  | other => simp [changedAt]

/-- No change touches what is known about objects, or the activities. -/
theorem changeStep_objects {ctx : ChangeContext} {st st' : ParseState} {index : ℕ}
    {change : Protos.Change} (hstep : ChangeStep sdk ctx st index change st') :
    st'.tokenV2MetadataHelper = st.tokenV2MetadataHelper ∧
      st'.tokenActivitiesV2 = st.tokenActivitiesV2 := by
  cases hstep with
  | writeResource htoken =>
    rcases parseToken_cases htoken with ⟨-, rfl⟩ | ⟨tokenData, owner, rows, -, -, rfl⟩
    · exact ⟨rfl, rfl⟩
    · exact ⟨rfl, rfl⟩
  | writeTableItem => exact ⟨rfl, rfl⟩
  | deleteTableItem => exact ⟨rfl, rfl⟩
  | deleteResource => exact ⟨rfl, rfl⟩
  | other => exact ⟨rfl, rfl⟩

/-! ## One transaction -/

/-- The context a transaction's changes are read in. -/
def changeContext (ctx : ParseContext) (txn : Protos.Transaction) (txnTimestamp : NaiveDateTime)
    (ev : EventState) : ChangeContext :=
  ⟨txn.txnVersion, txnTimestamp, ev.tokensBurned, ev.moduleEvents, ctx.tableHandleToOwner,
    ctx.ownerLookup txn.txnVersion⟩

/-- A transaction is not read, or its events are and then its changes. -/
theorem parseTransaction_cases {ctx : ParseContext} {st st' : ParseState}
    {txn : Protos.Transaction} (h : parseTransaction sdk ctx st txn = some st') :
    (st' = st ∧ readChanges txn = [] ∧ readEvents txn = []) ∨
      ∃ timestamp request ev,
        txn.timestamp = some timestamp ∧
        txn.txnData = some (.user (some request) (readEvents txn)) ∧
        parseEvents sdk txn.txnVersion (sdk.parseTimestamp timestamp txn.txnVersion) request
          (readChanges txn) (readEvents txn) st = some ev ∧
        (readChanges txn).zipIdx.foldlM
          (parseChange sdk
            (changeContext ctx txn (sdk.parseTimestamp timestamp txn.txnVersion) ev))
          { st with tokenV2MetadataHelper := ev.metadata, tokenActivitiesV2 := ev.activities } =
            some st' := by
  unfold parseTransaction at h
  unfold readChanges readEvents
  split at h
  next hnone =>
    obtain rfl := Option.some.inj h
    rw [hnone]
    exact Or.inl ⟨rfl, rfl, rfl⟩
  next txnData hdata =>
    obtain ⟨timestamp, htimestamp, h⟩ := Option.bind_eq_some_iff.mp h
    obtain ⟨changes, hchanges, h⟩ := Option.bind_eq_some_iff.mp h
    rw [hdata, hchanges]
    cases txnData with
    | user request events =>
      obtain ⟨request, rfl, hread⟩ := Option.bind_eq_some_iff.mp h
      obtain ⟨ev, hev, hfold⟩ := Option.bind_eq_some_iff.mp hread
      exact Or.inr ⟨timestamp, request, ev, htimestamp, rfl, hev, hfold⟩
    | blockMetadata | genesis | validator | other =>
      obtain rfl := Option.some.inj h
      exact Or.inl ⟨rfl, rfl, rfl⟩

/-- A property of the state and the changes read so far. -/
theorem changes_prefix {ctx : ChangeContext} {changes : List Protos.Change} {st st' : ParseState}
    {P : List Protos.Change → ParseState → Prop}
    (h : changes.zipIdx.foldlM (parseChange sdk ctx) st = some st') (hinit : P [] st)
    (hstep : ∀ done change index s s', change ∈ changes → P done s →
      ChangeStep sdk ctx s index change s' → P (done ++ [change]) s') : P changes st' := by
  have hfold : P (changes.zipIdx.map Prod.fst) st' := by
    refine foldlM_prefix (P := fun done s => P (done.map Prod.fst) s) h hinit ?_
    intro done change s s' hdone hs hchange
    rw [List.map_append, List.map_singleton]
    have hmem : change ∈ changes.zipIdx := mem_of_prefix_concat hdone
    refine hstep _ change.1 change.2 s s' ?_ hs (parseChange_step hchange)
    have := List.mem_map_of_mem (f := Prod.fst) hmem
    rwa [List.zipIdx_map_fst] at this
  rwa [List.zipIdx_map_fst] at hfold

/-- Whether one more element has a property. -/
theorem ite_any_concat {α γ : Type} (p : α → Bool) (done : List α) (a : α) (x y : γ) :
    (if p a then x else if done.any p then x else y) =
      if (done ++ [a]).any p then x else y := by
  rw [List.any_append]
  cases h : p a with
  | false => simp [h]
  | true => simp [h]

/-- A transaction that writes the token, with its object core, puts its row among
the existing ones; no other transaction does. -/
theorem parseTransaction_tokenData {ctx : ParseContext} {st st' : ParseState}
    {txn : Protos.Transaction} (h : parseTransaction sdk ctx st txn = some st')
    (hv1 : NamesNoV1 sdk token txn)
    (hcore : writesToken sdk token txn = true →
      (lastCore sdk token (readChanges txn)).isSome) :
    (st'.currentTokenDatasV2.lookup token).map (·.lastTransactionVersion) =
      if writesToken sdk token txn then some txn.txnVersion
      else (st.currentTokenDatasV2.lookup token).map (·.lastTransactionVersion) := by
  rcases parseTransaction_cases h with ⟨rfl, hchanges, -⟩ | ⟨ts, request, ev, -, -, hev, hfold⟩
  · rw [if_neg (by simp [writesToken, hchanges])]
  · -- Loop 1 has seen the object core before loop 4 asks for it.
    have hknown : writesToken sdk token txn = true → (known ev.metadata token).isSome := by
      intro hwrites
      obtain ⟨core, hlast⟩ := Option.isSome_iff_exists.mp (hcore hwrites)
      rw [parseEvents_known hev, hlast]
      rfl
    have hdone := changes_prefix (P := fun done s =>
      s.tokenV2MetadataHelper = ev.metadata ∧
      (s.currentTokenDatasV2.lookup token).map (·.lastTransactionVersion) =
        if done.any (tokenWrittenAt sdk token) then some txn.txnVersion
        else (st.currentTokenDatasV2.lookup token).map (·.lastTransactionVersion))
      hfold ⟨rfl, rfl⟩ ?_
    · exact hdone.2
    · intro done change index s s' hmem hs hstep
      obtain ⟨hmetadata, hrow⟩ := hs
      refine ⟨(changeStep_objects hstep).1.trans hmetadata, ?_⟩
      rw [changeStep_tokenData hstep (hv1 change hmem) ?_, hrow]
      · exact ite_any_concat _ _ _ _ _
      · intro hwritten
        rw [hmetadata]
        exact hknown (List.any_eq_true.mpr ⟨change, hmem, hwritten⟩)

/-- A transaction that burns the token and changes a resource at its address puts
its row among the burned ones; no other transaction does. -/
theorem parseTransaction_deletedTokenData
    (hstd : ∀ s, sdk.standardizeAddress (sdk.standardizeAddress s) = sdk.standardizeAddress s)
    {ctx : ParseContext} {st st' : ParseState} {txn : Protos.Transaction}
    (h : parseTransaction sdk ctx st txn = some st') :
    (st'.currentDeletedTokenDatasV2.lookup token).map (·.lastTransactionVersion) =
      if changesToken sdk token txn ∧ burnsToken sdk token txn then some txn.txnVersion
      else (st.currentDeletedTokenDatasV2.lookup token).map (·.lastTransactionVersion) := by
  rcases parseTransaction_cases h with ⟨rfl, hchanges, -⟩ | ⟨ts, request, ev, -, -, hev, hfold⟩
  · rw [if_neg (by simp [changesToken, hchanges])]
  · have hburned : (ev.tokensBurned.lookup token).isSome = burnsToken sdk token txn := by
      rw [parseEvents_burned hev]
      rfl
    -- The burns are those of the whole transaction, so they are fixed while the
    -- changes are read.
    cases hburns : burnsToken sdk token txn with
    | false =>
      rw [hburns] at hburned
      rw [if_neg (fun h => by cases h.2)]
      refine changes_prefix (P := fun _ s =>
        (s.currentDeletedTokenDatasV2.lookup token).map (·.lastTransactionVersion) =
          (st.currentDeletedTokenDatasV2.lookup token).map (·.lastTransactionVersion))
        hfold rfl ?_
      intro done change index s s' _ hs hstep
      rw [changeStep_deletedTokenData hstd hstep, hs]
      simp [changeContext, hburned]
    | true =>
      rw [hburns] at hburned
      simp only [and_true]
      refine changes_prefix (P := fun done s =>
        (s.currentDeletedTokenDatasV2.lookup token).map (·.lastTransactionVersion) =
          if done.any (changedAt sdk token) then some txn.txnVersion
          else (st.currentDeletedTokenDatasV2.lookup token).map (·.lastTransactionVersion))
        hfold rfl ?_
      intro done change index s s' _ hs hstep
      rw [changeStep_deletedTokenData hstd hstep, hs, ← ite_any_concat]
      simp only [changeContext, hburned, and_true]

end IndexerProcessors.TokenV2

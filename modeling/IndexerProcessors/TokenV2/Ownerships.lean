import IndexerProcessors.TokenV2.Operations

/-!
# Ownership rows of a token

What `parse_v2_token` does to the ownership rows of a token and to the owner it
remembers, change by change and then transaction by transaction. A write of the
token puts rows among the existing ones, for the owner in its core and for those
who gave it away. A burn puts rows among the burned ones, at every change of a
resource at the token's address, for the owner `burnedOwner` finds.
-/

namespace IndexerProcessors.TokenV2

open IndexerProcessors.Lib
open IndexerProcessors.Protos

variable {sdk : TokenSdk} {token : String}

/-! ## Rows of a token -/

/-- How much a row says its owner holds, and since when. -/
structure Holding where
  amount : ℚ
  version : Int64
  deriving DecidableEq

def CurrentTokenOwnershipV2.holding (row : CurrentTokenOwnershipV2) : Holding :=
  ⟨row.amount, row.lastTransactionVersion⟩

/-- The key of an object token and an owner. -/
def objectKey (token owner : String) : CurrentTokenOwnershipV2PK := (token, 0, owner, token)

theorem objectKey_injective {owner owner' : String}
    (h : objectKey token owner = objectKey token owner') : owner = owner' :=
  (Prod.mk.inj (Prod.mk.inj (Prod.mk.inj h).2).2).1

def ParseState.ownerships (st : ParseState) : RowKind →
    Table CurrentTokenOwnershipV2PK CurrentTokenOwnershipV2
  | .live => st.currentTokenOwnershipsV2
  | .deleted => st.currentDeletedTokenOwnershipsV2

def ParseState.holding (st : ParseState) (kind : RowKind) (key : CurrentTokenOwnershipV2PK) :
    Option Holding :=
  ((st.ownerships kind).lookup key).map (·.holding)

/-- What a write of the token puts among the existing rows, in order: its holder,
and those who gave it away. -/
def writtenHoldings (sdk : TokenSdk) (token : String) (core : ObjectCore)
    (transfers : List TransferEvent) (version : Int64) :
    List (CurrentTokenOwnershipV2PK × Holding) :=
  (objectKey token (core.getOwnerAddress sdk.toSdk), ⟨1, version⟩) ::
    (transfers.filter fun event => event.getToAddress sdk ≠ event.getFromAddress sdk).map
      fun event => (objectKey token (event.getFromAddress sdk), ⟨0, version⟩)

theorem getNftV2FromTokenData_holdings {tokenData : CurrentTokenDataV2}
    {metadata : ObjectAggregatedDataMapping} {core : ObjectCore} {transfers : List TransferEvent}
    {owner : String} {rows : List CurrentTokenOwnershipV2}
    (hknown : known metadata tokenData.tokenDataId = some (core, transfers))
    (h : getNftV2FromTokenData sdk tokenData metadata = some (owner, rows)) :
    owner = core.getOwnerAddress sdk.toSdk ∧
      rows.map (fun row => (row.pk, row.holding)) =
        writtenHoldings sdk tokenData.tokenDataId core transfers
          tokenData.lastTransactionVersion := by
  unfold known at hknown
  obtain ⟨data, hdata, hpair⟩ := Option.map_eq_some_iff.mp hknown
  obtain ⟨rfl, rfl⟩ := Prod.mk.inj hpair
  unfold getNftV2FromTokenData at h
  rw [hdata] at h
  obtain ⟨rfl, rfl⟩ := Prod.mk.inj (Option.some.inj h)
  refine ⟨rfl, ?_⟩
  unfold transferredRows writtenHoldings
  rw [List.map_cons, List.map_map]
  rfl

/-- The rows of another token are not among a token's. -/
theorem proj_writtenHoldings_ne {token' : String} {core : ObjectCore}
    {transfers : List TransferEvent} {version : Int64} {key : CurrentTokenOwnershipV2PK}
    (h : key.1 ≠ token') : proj key (writtenHoldings sdk token' core transfers version) = [] := by
  refine proj_eq_nil ?_
  intro hmem
  obtain ⟨entry, hentry, rfl⟩ := List.mem_map.mp hmem
  rcases List.mem_cons.mp hentry with rfl | htransfer
  · exact h rfl
  · obtain ⟨event, -, rfl⟩ := List.mem_map.mp htransfer
    exact h rfl

theorem mem_writtenHoldings {core : ObjectCore} {transfers : List TransferEvent}
    {version : Int64} {key : CurrentTokenOwnershipV2PK} {e : Holding}
    (h : (key, e) ∈ writtenHoldings sdk token core transfers version) :
    e.version = version ∧ key = objectKey token key.2.2.1 ∧
      (0 < e.amount → key = objectKey token (core.getOwnerAddress sdk.toSdk)) := by
  rcases List.mem_cons.mp h with heq | hmem
  · obtain ⟨rfl, rfl⟩ := Prod.mk.inj heq
    exact ⟨rfl, rfl, fun _ => rfl⟩
  · obtain ⟨event, -, heq⟩ := List.mem_map.mp hmem
    obtain ⟨rfl, rfl⟩ := Prod.mk.inj heq
    exact ⟨rfl, rfl, fun hpos => absurd hpos (lt_irrefl 0)⟩

/-- Who gives the token away ends without it. -/
theorem getLast?_writtenHoldings_from {core : ObjectCore} {transfers : List TransferEvent}
    {version : Int64} {event : TransferEvent} (hevent : event ∈ transfers)
    (hto : event.getToAddress sdk ≠ event.getFromAddress sdk) :
    (proj (objectKey token (event.getFromAddress sdk))
      (writtenHoldings sdk token core transfers version)).getLast? = some ⟨0, version⟩ := by
  unfold writtenHoldings
  rw [← List.singleton_append, proj_append, List.getLast?_append, proj_map]
  have hmem : event ∈ (transfers.filter fun event =>
      event.getToAddress sdk ≠ event.getFromAddress sdk).filter fun e =>
        objectKey token (e.getFromAddress sdk) = objectKey token (event.getFromAddress sdk) :=
    List.mem_filter.mpr ⟨List.mem_filter.mpr ⟨hevent, decide_eq_true hto⟩, decide_eq_true rfl⟩
  rw [List.map_const', List.getLast?_replicate, if_neg, Option.some_or]
  exact Nat.pos_iff_ne_zero.mp (List.length_pos_of_mem hmem)

theorem v1Ownership_mem_v1Ids {item : WriteTableItem} {txnVersion : Int64}
    {txnTimestamp : NaiveDateTime} {tableHandleToOwner : TableHandleToOwner}
    {tokensDeposited : Table String TokenActivityHelperV1} {row : CurrentTokenOwnershipV2}
    (h : getV1OwnershipFromWriteTableItem sdk item txnVersion txnTimestamp tableHandleToOwner
      tokensDeposited = some (some row)) :
    row.tokenDataId ∈ v1Ids sdk (.writeTableItem item) := by
  unfold getV1OwnershipFromWriteTableItem at h
  obtain ⟨data, hdata, h⟩ := Option.bind_eq_some_iff.mp h
  obtain ⟨value, hvalue, h⟩ := Option.bind_eq_some_iff.mp h
  split at h
  next token =>
    obtain ⟨owner, -, h⟩ := Option.bind_eq_some_iff.mp h
    obtain ⟨owner, -, rfl⟩ := Option.map_eq_some_iff.mp (Option.some.inj h)
    obtain ⟨handle, key, itemData⟩ := item
    obtain rfl : itemData = some data := hdata
    refine List.mem_append_right _ ?_
    rw [hvalue]
    exact List.mem_singleton.mpr rfl
  next => cases Option.some.inj h

theorem v1DeletedOwnership_mem_v1Ids {item : DeleteTableItem} {txnVersion : Int64}
    {txnTimestamp : NaiveDateTime} {tableHandleToOwner : TableHandleToOwner}
    {tokensWithdrawn : Table String TokenActivityHelperV1} {row : CurrentTokenOwnershipV2}
    (h : getV1OwnershipFromDeleteTableItem sdk item txnVersion txnTimestamp tableHandleToOwner
      tokensWithdrawn = some (some row)) :
    row.tokenDataId ∈ v1Ids sdk (.deleteTableItem item) := by
  unfold getV1OwnershipFromDeleteTableItem at h
  obtain ⟨data, hdata, h⟩ := Option.bind_eq_some_iff.mp h
  obtain ⟨key, hkey, h⟩ := Option.bind_eq_some_iff.mp h
  split at h
  next id =>
    obtain ⟨owner, -, h⟩ := Option.bind_eq_some_iff.mp h
    obtain ⟨owner, -, rfl⟩ := Option.map_eq_some_iff.mp (Option.some.inj h)
    obtain ⟨handle, itemKey, itemData⟩ := item
    obtain rfl : itemData = some data := hdata
    show _ ∈ tokenIdsOf sdk _
    rw [hkey]
    exact List.mem_singleton.mpr rfl
  next => cases Option.some.inj h

/-! ## Adding rows to the maps -/

/-- A row of another token is not seen at a token's keys. -/
theorem holding_insertAll_toList (rows : Table CurrentTokenOwnershipV2PK CurrentTokenOwnershipV2)
    (row : Option CurrentTokenOwnershipV2) (key : CurrentTokenOwnershipV2PK) :
    ((rows.insertAll (row.toList.map fun row => (row.pk, row))).lookup key).map (·.holding) =
      ((row.filter fun row => row.pk = key).map (·.holding)).or
        ((rows.lookup key).map (·.holding)) := by
  rw [Table.lookup_insertAll_toList, Option.map_or, Option.map_id']

theorem filter_pk_eq_none {row : Option CurrentTokenOwnershipV2} {key : CurrentTokenOwnershipV2PK}
    (h : ∀ r, row = some r → r.tokenDataId ≠ key.1) :
    (row.filter fun row => row.pk = key) = none := by
  rw [Option.filter_eq_none_iff]
  intro r hr hpk
  refine h r hr ?_
  rw [← of_decide_eq_true hpk]
  rfl

theorem prior_insertAll_of_ne {prior : Table String String} {row : Option CurrentTokenOwnershipV2}
    (h : ∀ r, row = some r → r.tokenDataId ≠ token) :
    (prior.insertAll (row.toList.map fun row => (row.tokenDataId, row.ownerAddress))).lookup
      token = prior.lookup token := by
  rw [Table.lookup_insertAll_toList]
  have hfilter : (row.filter fun row => row.tokenDataId = token) = none := by
    rw [Option.filter_eq_none_iff]
    intro r hr heq
    exact h r hr (of_decide_eq_true heq)
  rw [hfilter]
  rfl

/-- A row of a token, and its owner. -/
theorem addDeletedOwnership_row {st : ParseState} {row : CurrentTokenOwnershipV2} {owner : String}
    (hpk : row.pk = objectKey token owner) (key : CurrentTokenOwnershipV2PK) :
    (st.addDeletedOwnership (some row)).priorNftOwnership.lookup token = some owner ∧
      (st.addDeletedOwnership (some row)).holding .deleted key =
        if key = objectKey token owner then some row.holding else st.holding .deleted key := by
  have htoken : row.tokenDataId = token := congrArg Prod.fst hpk
  have howner : row.ownerAddress = owner := congrArg (fun pk => pk.2.2.1) hpk
  constructor
  · refine (Table.lookup_insertAll_toList _ _ _ _ _).trans ?_
    rw [Option.filter_some, if_pos (decide_eq_true htoken), Option.map_some, howner]
    rfl
  · refine (holding_insertAll_toList _ _ _).trans ?_
    rw [Option.filter_some, hpk]
    by_cases heq : objectKey token owner = key
    · rw [if_pos (decide_eq_true heq), if_pos heq.symm]
      rfl
    · rw [if_neg (by simpa using heq), if_neg (Ne.symm heq)]
      rfl

/-- A row of another token, or none. -/
theorem addDeletedOwnership_of_ne {st : ParseState} {ownership : Option CurrentTokenOwnershipV2}
    (h : ∀ r, ownership = some r → r.tokenDataId ≠ token) :
    (st.addDeletedOwnership ownership).priorNftOwnership.lookup token =
        st.priorNftOwnership.lookup token ∧
      ∀ key, key.1 = token →
        (st.addDeletedOwnership ownership).holding .deleted key = st.holding .deleted key := by
  refine ⟨prior_insertAll_of_ne h, ?_⟩
  intro key hkey
  refine (holding_insertAll_toList _ _ _).trans ?_
  rw [filter_pk_eq_none (hkey ▸ h)]
  rfl

/-! ## One change -/

/-- What a write of a known object puts among the existing rows. -/
def objectHoldings (sdk : TokenSdk) (token : String)
    (object : Option (ObjectCore × List TransferEvent)) (version : Int64) :
    List (CurrentTokenOwnershipV2PK × Holding) :=
  match object with
  | some (core, transfers) => writtenHoldings sdk token core transfers version
  | none => []

/-- The owner in the core of a known object. -/
def objectOwner (sdk : TokenSdk) (object : Option (ObjectCore × List TransferEvent)) :
    Option String :=
  object.map fun object => object.1.getOwnerAddress sdk.toSdk

/-- A written resource, as a token. -/
theorem parseToken_holdings (token : String) (params : List MoveType) {ctx : ChangeContext}
    {wr : WriteResource} {st st' : ParseState} (h : parseToken sdk ctx wr st = some st') :
    st'.currentDeletedTokenOwnershipsV2 = st.currentDeletedTokenOwnershipsV2 ∧
    (st'.priorNftOwnership.lookup token =
      if tokenWrittenAt sdk token (.writeResource wr params) then
        (objectOwner sdk (known st.tokenV2MetadataHelper token)).or
          (st.priorNftOwnership.lookup token)
      else st.priorNftOwnership.lookup token) ∧
    ∀ key, key.1 = token → st'.holding .live key =
      if tokenWrittenAt sdk token (.writeResource wr params) then
        (proj key (objectHoldings sdk token (known st.tokenV2MetadataHelper token)
          ctx.txnVersion)).getLast?.or (st.holding .live key)
      else st.holding .live key := by
  rcases parseToken_cases h with ⟨hnone, rfl⟩ | ⟨tokenData, owner, rows, hdata, hnft, rfl⟩
  · -- Not a token, or of an object that is not known.
    refine ⟨rfl, ?_, ?_⟩
    · split
      next hwritten =>
        obtain ⟨htype, haddress⟩ := tokenWrittenAt_iff.mp hwritten
        have hunknown := (getV2FromWriteResource_none hnone).resolve_left (not_not.mpr htype)
        rw [haddress] at hunknown
        rw [hunknown]
        rfl
      next => rfl
    · intro key _
      split
      next hwritten =>
        obtain ⟨htype, haddress⟩ := tokenWrittenAt_iff.mp hwritten
        have hunknown := (getV2FromWriteResource_none hnone).resolve_left (not_not.mpr htype)
        rw [haddress] at hunknown
        rw [hunknown]
        rfl
      next => rfl
  · obtain ⟨htype, hid, hversion, -, -⟩ := getV2FromWriteResource_row hdata
    -- The ownerships are read off the object, so it was known.
    obtain ⟨⟨core, transfers⟩, hknown⟩ : ∃ object,
        known st.tokenV2MetadataHelper tokenData.tokenDataId = some object := by
      unfold getNftV2FromTokenData at hnft
      obtain ⟨data, hlookup, -⟩ := Option.bind_eq_some_iff.mp hnft
      exact ⟨_, Option.map_eq_some_iff.mpr ⟨data, hlookup, rfl⟩⟩
    obtain ⟨rfl, hholdings⟩ := getNftV2FromTokenData_holdings hknown hnft
    have hlive : ∀ key, (st.addNft tokenData (core.getOwnerAddress sdk.toSdk) rows).holding
        .live key = (proj key (writtenHoldings sdk tokenData.tokenDataId core transfers
          tokenData.lastTransactionVersion)).getLast?.or (st.holding .live key) := by
      intro key
      show (((st.currentTokenOwnershipsV2.insertAll
        (rows.map fun row => (row.pk, row))).lookup key).map (·.holding)) = _
      rw [Table.lookup_insertAll, Option.map_or, ← hholdings, proj_map, proj_map,
        List.map_id', List.getLast?_map]
      rfl
    refine ⟨rfl, ?_, ?_⟩
    · show (st.priorNftOwnership.insert tokenData.tokenDataId _).lookup token = _
      -- A resource at another address is filed under another token.
      by_cases heq : sdk.standardizeAddress wr.address = token
      · rw [if_pos (tokenWrittenAt_iff.mpr ⟨htype, heq⟩), ← heq, ← hid, AList.lookup_insert, hknown]
        rfl
      · rw [if_neg (fun hw => heq (tokenWrittenAt_iff.mp hw).2), AList.lookup_insert_ne]
        rw [hid]
        exact Ne.symm heq
    · intro key hkey
      -- The rows of another token have no key of this one.
      rw [hlive]
      by_cases heq : sdk.standardizeAddress wr.address = token
      · rw [if_pos (tokenWrittenAt_iff.mpr ⟨htype, heq⟩), ← heq, ← hid, hknown, hversion]
        rfl
      · rw [if_neg (fun hw => heq (tokenWrittenAt_iff.mp hw).2), proj_writtenHoldings_ne]
        · rfl
        · rw [hid, hkey]
          exact Ne.symm heq

/-- The owner a burn is booked on at one change: that of a core the change writes,
or the event's previous owner, or else the last one seen in the batch or the
answer of the database. -/
def burnedOwner (sdk : TokenSdk) (burn : Burn) (core : Option ObjectCore)
    (prior answer : Option String) : String :=
  match core with
  | some core => core.getOwnerAddress sdk.toSdk
  | none =>
    (burn.getPreviousOwnerAddress sdk).getD (prior.getD (answer.getD defaultOwnerAddress))

theorem getBurnedNftV2Helper_row
    (hstd : ∀ s, sdk.standardizeAddress (sdk.standardizeAddress s) = sdk.standardizeAddress s)
    (address : String) (txnVersion : Int64) (txnTimestamp : NaiveDateTime)
    (prior : Table String String) (tokensBurned : TokenV2Burned)
    (ownerLookup : String → Option String) :
    getBurnedNftV2Helper sdk (sdk.standardizeAddress address) txnVersion txnTimestamp prior
        tokensBurned ownerLookup =
      (tokensBurned.lookup (sdk.standardizeAddress address)).map fun burn =>
        nftOwnership (sdk.standardizeAddress address)
          (burnedOwner sdk burn none (prior.lookup (sdk.standardizeAddress address))
            (ownerLookup (sdk.standardizeAddress address))) 0 none none none txnVersion
          txnTimestamp := by
  unfold getBurnedNftV2Helper burnedOwner
  dsimp only
  rw [hstd]
  congr 1
  funext burn
  congr 1
  cases burn.getPreviousOwnerAddress sdk with
  | some owner => rfl
  | none =>
    cases prior.lookup (sdk.standardizeAddress address) with
    | some owner => rfl
    | none => rfl

/-- The row of a burn at a written resource. -/
theorem getBurnedNftV2FromWriteResource_row
    (hstd : ∀ s, sdk.standardizeAddress (sdk.standardizeAddress s) = sdk.standardizeAddress s)
    {wr : WriteResource} (params : List MoveType) {txnVersion : Int64}
    {txnTimestamp : NaiveDateTime} {prior : Table String String} {tokensBurned : TokenV2Burned}
    {metadata : ObjectAggregatedDataMapping} {ownerLookup : String → Option String}
    {ownership : Option CurrentTokenOwnershipV2}
    (h : getBurnedNftV2FromWriteResource sdk wr txnVersion txnTimestamp prior tokensBurned metadata
      ownerLookup = some ownership) (haddress : sdk.standardizeAddress wr.address = token) :
    ownership.map (fun row => (row.pk, row.holding)) =
      (tokensBurned.lookup token).map fun burn =>
        (objectKey token (burnedOwner sdk burn (coreOf sdk token (.writeResource wr params))
          (prior.lookup token) (ownerLookup token)), ⟨0, txnVersion⟩) := by
  unfold getBurnedNftV2FromWriteResource at h
  dsimp only at h
  rw [hstd, haddress] at h
  cases hburn : tokensBurned.lookup token with
  | none =>
    rw [hburn, if_neg (by simp)] at h
    obtain rfl := Option.some.inj h
    rfl
  | some burn =>
    rw [hburn, if_pos Option.isSome_some] at h
    obtain ⟨object, hobject, rfl⟩ := Option.map_eq_some_iff.mp h
    have hcore : coreOf sdk token (.writeResource wr params) = object := by
      show (if _ then _ else _) = _
      rw [if_pos haddress, hobject]
      rfl
    rw [hcore]
    cases object with
    | some core => rfl
    | none =>
      dsimp only
      rw [← haddress, getBurnedNftV2Helper_row hstd, haddress, hburn]
      rfl

/-- A row at another address is of another token. -/
theorem getBurnedNftV2FromWriteResource_ne
    (hstd : ∀ s, sdk.standardizeAddress (sdk.standardizeAddress s) = sdk.standardizeAddress s)
    {wr : WriteResource} {txnVersion : Int64} {txnTimestamp : NaiveDateTime}
    {prior : Table String String} {tokensBurned : TokenV2Burned}
    {metadata : ObjectAggregatedDataMapping} {ownerLookup : String → Option String}
    {ownership : Option CurrentTokenOwnershipV2}
    (h : getBurnedNftV2FromWriteResource sdk wr txnVersion txnTimestamp prior tokensBurned metadata
      ownerLookup = some ownership) (haddress : sdk.standardizeAddress wr.address ≠ token)
    (row : CurrentTokenOwnershipV2) (hrow : ownership = some row) : row.tokenDataId ≠ token := by
  have hview := getBurnedNftV2FromWriteResource_row hstd [] h rfl
  rw [hrow, Option.map_some] at hview
  obtain ⟨burn, -, hpair⟩ := Option.map_eq_some_iff.mp hview.symm
  have hpk : objectKey (sdk.standardizeAddress wr.address) _ = row.pk := (Prod.mk.inj hpair).1
  have htoken : sdk.standardizeAddress wr.address = row.tokenDataId := congrArg Prod.fst hpk
  rwa [← htoken]

/-- Only a write of the token touches its existing rows. -/
theorem changeStep_live {ctx : ChangeContext} {st st' : ParseState} {index : ℕ}
    {change : Protos.Change} (hstep : ChangeStep sdk ctx st index change st')
    (hv1 : token ∉ v1Ids sdk change) {key : CurrentTokenOwnershipV2PK} (hkey : key.1 = token) :
    st'.holding .live key =
      if tokenWrittenAt sdk token change then
        (proj key (objectHoldings sdk token (known st.tokenV2MetadataHelper token)
          ctx.txnVersion)).getLast?.or (st.holding .live key)
      else st.holding .live key := by
  cases hstep with
  | @writeTableItem item tokenData ownership hdata hownership =>
    rw [if_neg (by simp [tokenWrittenAt])]
    refine (holding_insertAll_toList _ _ _).trans ?_
    rw [filter_pk_eq_none]
    · rfl
    · intro row hrow htoken
      subst hrow
      refine hv1 ?_
      rw [← hkey, ← htoken]
      exact v1Ownership_mem_v1Ids hownership
  | deleteTableItem => rw [if_neg (by simp [tokenWrittenAt])]; rfl
  | writeResource htoken => exact (parseToken_holdings token _ htoken).2.2 key hkey
  | deleteResource => rw [if_neg (by simp [tokenWrittenAt])]; rfl
  | other => rw [if_neg (by simp [tokenWrittenAt])]

/-- A change where the token is not burned leaves its burned rows, and remembers the
holder if it writes the token. -/
theorem changeStep_unburned
    (hstd : ∀ s, sdk.standardizeAddress (sdk.standardizeAddress s) = sdk.standardizeAddress s)
    {ctx : ChangeContext} {st st' : ParseState} {index : ℕ} {change : Protos.Change}
    (hstep : ChangeStep sdk ctx st index change st') (hv1 : token ∉ v1Ids sdk change)
    (hburn : ctx.tokensBurned.lookup token = none) :
    (st'.priorNftOwnership.lookup token =
      if tokenWrittenAt sdk token change then
        (objectOwner sdk (known st.tokenV2MetadataHelper token)).or
          (st.priorNftOwnership.lookup token)
      else st.priorNftOwnership.lookup token) ∧
    ∀ key, key.1 = token → st'.holding .deleted key = st.holding .deleted key := by
  cases hstep with
  | @writeTableItem item tokenData ownership hdata hownership =>
    rw [if_neg (by simp [tokenWrittenAt])]
    refine ⟨prior_insertAll_of_ne ?_, fun _ _ => rfl⟩
    intro row hrow htoken
    subst hrow
    exact hv1 (htoken ▸ v1Ownership_mem_v1Ids hownership)
  | @deleteTableItem item ownership hownership =>
    rw [if_neg (by simp [tokenWrittenAt])]
    refine addDeletedOwnership_of_ne ?_
    intro row hrow htoken
    subst hrow
    exact hv1 (htoken ▸ v1DeletedOwnership_mem_v1Ids hownership)
  | @writeResource wr params st₁ ownership htoken hownership =>
    obtain ⟨hdeleted, hprior, -⟩ := parseToken_holdings token params htoken
    rw [← hprior]
    -- At its address nothing is burned, and at other addresses other tokens are.
    have hne : ∀ row, ownership = some row → row.tokenDataId ≠ token := by
      by_cases haddress : sdk.standardizeAddress wr.address = token
      · intro row hrow
        have hview := getBurnedNftV2FromWriteResource_row hstd [] hownership haddress
        rw [hburn, hrow] at hview
        cases hview
      · exact getBurnedNftV2FromWriteResource_ne hstd hownership haddress
    refine ⟨prior_insertAll_of_ne hne, ?_⟩
    intro key hkey
    refine ((addDeletedOwnership_of_ne hne).2 key hkey).trans ?_
    show ((st₁.currentDeletedTokenOwnershipsV2.lookup key).map _) = _
    rw [hdeleted]
    rfl
  | @deleteResource dr params =>
    rw [if_neg (by simp [tokenWrittenAt])]
    refine addDeletedOwnership_of_ne ?_
    intro row hrow htoken
    unfold getBurnedNftV2FromDeleteResource at hrow
    rw [getBurnedNftV2Helper_row hstd] at hrow
    obtain ⟨burn, hlookup, rfl⟩ := Option.map_eq_some_iff.mp hrow
    have haddress : sdk.standardizeAddress dr.address = token := htoken
    rw [haddress, hburn] at hlookup
    cases hlookup
  | other =>
    rw [if_neg (by simp [tokenWrittenAt])]
    exact ⟨rfl, fun _ _ => rfl⟩

/-- A change where the token is burned and not written: at its address the burn is
booked on an owner, who is then the last one seen. -/
theorem changeStep_burned
    (hstd : ∀ s, sdk.standardizeAddress (sdk.standardizeAddress s) = sdk.standardizeAddress s)
    {ctx : ChangeContext} {st st' : ParseState} {index : ℕ} {change : Protos.Change} {burn : Burn}
    (hstep : ChangeStep sdk ctx st index change st') (hv1 : token ∉ v1Ids sdk change)
    (hburn : ctx.tokensBurned.lookup token = some burn)
    (hwritten : tokenWrittenAt sdk token change = false) :
    (changedAt sdk token change = false ∧
      st'.priorNftOwnership.lookup token = st.priorNftOwnership.lookup token ∧
      ∀ key, key.1 = token → st'.holding .deleted key = st.holding .deleted key) ∨
    ∃ owner, owner = burnedOwner sdk burn (coreOf sdk token change)
        (st.priorNftOwnership.lookup token) (ctx.ownerLookup index token) ∧
      st'.priorNftOwnership.lookup token = some owner ∧
      ∀ key, st'.holding .deleted key =
        if key = objectKey token owner then some ⟨0, ctx.txnVersion⟩
        else st.holding .deleted key := by
  cases hstep with
  | @writeTableItem item tokenData ownership hdata hownership =>
    refine Or.inl ⟨rfl, prior_insertAll_of_ne ?_, fun _ _ => rfl⟩
    intro row hrow htoken
    subst hrow
    exact hv1 (htoken ▸ v1Ownership_mem_v1Ids hownership)
  | @deleteTableItem item ownership hownership =>
    refine Or.inl ⟨rfl, addDeletedOwnership_of_ne ?_⟩
    intro row hrow htoken
    subst hrow
    exact hv1 (htoken ▸ v1DeletedOwnership_mem_v1Ids hownership)
  | @writeResource wr params st₁ ownership htoken hownership =>
    obtain ⟨hdeleted, hprior, -⟩ := parseToken_holdings token params htoken
    rw [hwritten, if_neg Bool.false_ne_true] at hprior
    -- Parsing the token first leaves the deleted rows alone.
    have hkeep : ∀ key, st₁.holding .deleted key = st.holding .deleted key := by
      intro key
      show ((st₁.currentDeletedTokenOwnershipsV2.lookup key).map _) = _
      rw [hdeleted]
      rfl
    by_cases haddress : sdk.standardizeAddress wr.address = token
    · right
      have hview := getBurnedNftV2FromWriteResource_row hstd params hownership haddress
      rw [hburn, Option.map_some, hprior] at hview
      obtain ⟨row, rfl, hpair⟩ := Option.map_eq_some_iff.mp hview
      obtain ⟨hpk, hholding⟩ := Prod.mk.inj hpair
      refine ⟨_, rfl, (addDeletedOwnership_row hpk (objectKey token "")).1, ?_⟩
      intro key
      refine ((addDeletedOwnership_row hpk key).2).trans ?_
      rw [hholding]
      congr 1
      exact hkeep key
    · have hne := getBurnedNftV2FromWriteResource_ne hstd hownership haddress
      refine Or.inl ⟨decide_eq_false haddress, (prior_insertAll_of_ne hne).trans hprior, ?_⟩
      intro key hkey
      exact ((addDeletedOwnership_of_ne hne).2 key hkey).trans (hkeep key)
  | @deleteResource dr params =>
    by_cases haddress : sdk.standardizeAddress dr.address = token
    · right
      have hrow := getBurnedNftV2Helper_row hstd dr.address ctx.txnVersion ctx.txnTimestamp
        st.priorNftOwnership ctx.tokensBurned (ctx.ownerLookup index)
      rw [haddress, hburn, Option.map_some] at hrow
      unfold getBurnedNftV2FromDeleteResource
      rw [haddress, hrow]
      refine ⟨_, rfl, (addDeletedOwnership_row rfl (objectKey token "")).1, ?_⟩
      intro key
      exact (addDeletedOwnership_row rfl key).2
    · refine Or.inl ⟨decide_eq_false haddress, addDeletedOwnership_of_ne ?_⟩
      intro row hrow
      unfold getBurnedNftV2FromDeleteResource at hrow
      rw [getBurnedNftV2Helper_row hstd] at hrow
      obtain ⟨burn', -, rfl⟩ := Option.map_eq_some_iff.mp hrow
      exact haddress
  | other => exact Or.inl ⟨rfl, rfl, fun _ _ => rfl⟩

/-! ## One transaction -/

/-- The transfers of a token in a transaction. -/
def tokenTransfers (sdk : TokenSdk) (token : String) (txn : Protos.Transaction) :
    List TransferEvent :=
  (readEvents txn).flatMap (transfersOf sdk token)

/-- The core a transaction leaves at a token's address, with its transfers. -/
def tokenObject (sdk : TokenSdk) (token : String) (txn : Protos.Transaction) :
    Option (ObjectCore × List TransferEvent) :=
  (lastCore sdk token (readChanges txn)).map fun core => (core, tokenTransfers sdk token txn)

/-- Cores that are written go before those of earlier transactions. -/
theorem known_of_writesToken {txnVersion : Int64} {txnTimestamp : NaiveDateTime}
    {request : UserTransactionRequest} {txn : Protos.Transaction} {st : ParseState}
    {ev : EventState}
    (hev : parseEvents sdk txnVersion txnTimestamp request (readChanges txn) (readEvents txn) st =
      some ev) (hcore : (lastCore sdk token (readChanges txn)).isSome) :
    known ev.metadata token = tokenObject sdk token txn := by
  obtain ⟨core, hlast⟩ := Option.isSome_iff_exists.mp hcore
  rw [parseEvents_known hev]
  unfold tokenObject
  rw [hlast]
  rfl

theorem or_ite_or {α : Type} (x y : Option α) (p : Prop) [Decidable p] :
    x.or (if p then x.or y else y) = x.or y := by
  split
  · rw [← Option.or_assoc, Option.or_self]
  · rfl

section ParseTransaction

variable {ctx : ParseContext} {st st' : ParseState} {txn : Protos.Transaction}

/-- A transaction touches the existing rows of the token if it writes the token. -/
theorem parseTransaction_live (h : parseTransaction sdk ctx st txn = some st')
    (hv1 : NamesNoV1 sdk token txn)
    (hcore : writesToken sdk token txn = true → (lastCore sdk token (readChanges txn)).isSome)
    {key : CurrentTokenOwnershipV2PK} (hkey : key.1 = token) :
    st'.holding .live key =
      if writesToken sdk token txn then
        (proj key (objectHoldings sdk token (tokenObject sdk token txn) txn.txnVersion)).getLast?.or
          (st.holding .live key)
      else st.holding .live key := by
  rcases parseTransaction_cases h with ⟨rfl, hchanges, -⟩ | ⟨ts, request, ev, -, -, hev, hfold⟩
  · rw [if_neg (by simp [writesToken, hchanges])]
  · have hdone := changes_prefix (P := fun done s => s.tokenV2MetadataHelper = ev.metadata ∧
      s.holding .live key = if done.any (tokenWrittenAt sdk token) then
        (proj key (objectHoldings sdk token (tokenObject sdk token txn) txn.txnVersion)).getLast?.or
          (st.holding .live key)
        else st.holding .live key) hfold ⟨rfl, rfl⟩ ?_
    · exact hdone.2
    · intro done change index s s' hmem hs hstep
      obtain ⟨hmetadata, hrow⟩ := hs
      refine ⟨(changeStep_objects hstep).1.trans hmetadata, ?_⟩
      rw [changeStep_live hstep (hv1 change hmem) hkey, hrow, hmetadata, ← ite_any_concat]
      split
      next hwritten =>
        rw [known_of_writesToken hev (hcore (List.any_eq_true.mpr ⟨change, hmem, hwritten⟩))]
        exact or_ite_or _ _ _
      next => rfl

/-- A transaction without a burn of the token. -/
theorem parseTransaction_unburned
    (hstd : ∀ s, sdk.standardizeAddress (sdk.standardizeAddress s) = sdk.standardizeAddress s)
    (h : parseTransaction sdk ctx st txn = some st') (hv1 : NamesNoV1 sdk token txn)
    (hcore : writesToken sdk token txn = true → (lastCore sdk token (readChanges txn)).isSome)
    (hburns : burnsToken sdk token txn = false) :
    (st'.priorNftOwnership.lookup token =
      if writesToken sdk token txn then
        (objectOwner sdk (tokenObject sdk token txn)).or (st.priorNftOwnership.lookup token)
      else st.priorNftOwnership.lookup token) ∧
    ∀ key, key.1 = token → st'.holding .deleted key = st.holding .deleted key := by
  rcases parseTransaction_cases h with ⟨rfl, hchanges, -⟩ | ⟨ts, request, ev, -, -, hev, hfold⟩
  · rw [if_neg (by simp [writesToken, hchanges])]
    exact ⟨rfl, fun _ _ => rfl⟩
  · have hnone : ev.tokensBurned.lookup token = none := by
      rw [parseEvents_burned hev]
      exact Option.isNone_iff_eq_none.mp (Option.isSome_eq_false_iff.mp hburns)
    have hdone := changes_prefix (P := fun done s => s.tokenV2MetadataHelper = ev.metadata ∧
      (s.priorNftOwnership.lookup token = if done.any (tokenWrittenAt sdk token) then
        (objectOwner sdk (tokenObject sdk token txn)).or (st.priorNftOwnership.lookup token)
        else st.priorNftOwnership.lookup token) ∧
      ∀ key, key.1 = token → s.holding .deleted key = st.holding .deleted key) hfold
      ⟨rfl, rfl, fun _ _ => rfl⟩ ?_
    · exact hdone.2
    · intro done change index s s' hmem hs hstep
      obtain ⟨hmetadata, hprior, hdeleted⟩ := hs
      obtain ⟨hprior', hdeleted'⟩ := changeStep_unburned hstd hstep (hv1 change hmem) hnone
      refine ⟨(changeStep_objects hstep).1.trans hmetadata, ?_, ?_⟩
      · rw [hprior', hprior, hmetadata, ← ite_any_concat]
        split
        next hwritten =>
          rw [known_of_writesToken hev (hcore (List.any_eq_true.mpr ⟨change, hmem, hwritten⟩))]
          exact or_ite_or _ _ _
        next => rfl
      · intro key hkey
        exact (hdeleted' key hkey).trans (hdeleted key hkey)

/-- A transaction that burns the token and does not write it books the burn on
someone, or leaves the burned rows. -/
theorem parseTransaction_burned_rows
    (hstd : ∀ s, sdk.standardizeAddress (sdk.standardizeAddress s) = sdk.standardizeAddress s)
    (h : parseTransaction sdk ctx st txn = some st') (hv1 : NamesNoV1 sdk token txn)
    (hwrites : writesToken sdk token txn = false) (hburns : burnsToken sdk token txn = true)
    {key : CurrentTokenOwnershipV2PK} (hkey : key.1 = token) :
    st'.holding .deleted key = st.holding .deleted key ∨
      (key = objectKey token key.2.2.1 ∧ st'.holding .deleted key = some ⟨0, txn.txnVersion⟩) := by
  rcases parseTransaction_cases h with ⟨rfl, -, -⟩ | ⟨ts, request, ev, -, -, hev, hfold⟩
  · exact Or.inl rfl
  · obtain ⟨burn, hburn⟩ := Option.isSome_iff_exists.mp hburns
    rw [← parseEvents_burned hev] at hburn
    refine changes_prefix (P := fun _ s => s.holding .deleted key = st.holding .deleted key ∨
      (key = objectKey token key.2.2.1 ∧ s.holding .deleted key = some ⟨0, txn.txnVersion⟩))
      hfold (Or.inl rfl) ?_
    intro done change index s s' hmem hs hstep
    have hwritten : tokenWrittenAt sdk token change = false :=
      Bool.eq_false_of_not_eq_true (List.any_eq_false.mp hwrites change hmem)
    rcases changeStep_burned hstd hstep (hv1 change hmem) hburn hwritten with
      ⟨-, -, hkeep⟩ | ⟨owner, -, -, hrow⟩
    · rwa [hkeep key hkey]
    · rw [hrow]
      split
      next heq => exact Or.inr ⟨by rw [heq]; rfl, rfl⟩
      next => exact hs

/-- The burn is booked on the one owner that all its sources name. -/
theorem parseTransaction_burned_owner
    (hstd : ∀ s, sdk.standardizeAddress (sdk.standardizeAddress s) = sdk.standardizeAddress s)
    (h : parseTransaction sdk ctx st txn = some st') (hv1 : NamesNoV1 sdk token txn)
    (hwrites : writesToken sdk token txn = false) {burn : Burn}
    (hburn : lastBurn sdk token (readEvents txn) = some burn)
    (hchanges : changesToken sdk token txn = true) {owner : String}
    (hcores : ∀ change ∈ readChanges txn, ∀ core, coreOf sdk token change = some core →
      core.getOwnerAddress sdk.toSdk = owner)
    (howner : ∀ index, burnedOwner sdk burn none (st.priorNftOwnership.lookup token)
      (ctx.ownerLookup txn.txnVersion index token) = owner) :
    st'.holding .deleted (objectKey token owner) = some ⟨0, txn.txnVersion⟩ := by
  rcases parseTransaction_cases h with ⟨-, hnil, -⟩ | ⟨ts, request, ev, -, -, hev, hfold⟩
  · simp [changesToken, hnil] at hchanges
  · rw [← parseEvents_burned hev] at hburn
    have hdone := changes_prefix (P := fun done s =>
      (∀ index, burnedOwner sdk burn none (s.priorNftOwnership.lookup token)
        (ctx.ownerLookup txn.txnVersion index token) = owner) ∧
      (done.any (changedAt sdk token) = true →
        s.holding .deleted (objectKey token owner) = some ⟨0, txn.txnVersion⟩)) hfold
      ⟨howner, fun hnil => by cases hnil⟩ ?_
    · exact hdone.2 hchanges
    · intro done change index s s' hmem hs hstep
      obtain ⟨hprior, hrow⟩ := hs
      have hwritten : tokenWrittenAt sdk token change = false :=
        Bool.eq_false_of_not_eq_true (List.any_eq_false.mp hwrites change hmem)
      rcases changeStep_burned hstd hstep (hv1 change hmem) hburn hwritten with
        ⟨hunchanged, hprior', hkeep⟩ | ⟨owner', howner', hprior', hrow'⟩
      · refine ⟨fun i => by rw [hprior']; exact hprior i, fun hany => ?_⟩
        rw [hkeep _ rfl]
        refine hrow ?_
        rw [List.any_append] at hany
        simpa [hunchanged] using hany
      · have heq : owner' = owner := by
          rw [howner']
          cases hc : coreOf sdk token change with
          | some core => exact hcores change hmem core hc
          | none => exact hprior index
        subst heq
        refine ⟨fun i => ?_, fun _ => (hrow' _).trans (if_pos rfl)⟩
        -- The owner seen last is the one the other sources name.
        have hi := hprior i
        rw [hprior']
        unfold burnedOwner at hi ⊢
        dsimp only at hi ⊢
        cases hprev : burn.getPreviousOwnerAddress sdk with
        | some previous => rwa [hprev] at hi
        | none => rfl

end ParseTransaction

end IndexerProcessors.TokenV2

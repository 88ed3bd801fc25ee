import IndexerProcessors.TokenV2.Steps

/-!
# Token data and the order of its statements

`TokenV2Storer` joins the statement of the existing tokens and that of the
burned ones without an order between them. For a token of a batch that is in
both, the burned row inserts a stub if it comes first, and its version can keep
the other one out; the existing token's row, if it comes first and is newer,
keeps the deletion out.

`token_data_order_iff` says for which tokens of a batch, over which stored rows,
the order is of no account.
-/

namespace IndexerProcessors.TokenV2

open IndexerProcessors.Lib
open IndexerProcessors.Protos

variable {sdk : TokenSdk}

/-- The row upserts of a token data statement. -/
def dataWrites (kind : RowKind) (rows : Table String CurrentTokenDataV2) :
    List (String × Write CurrentTokenDataV2) :=
  rows.rows.map fun row => (row.1, ⟨row.2, dataQuery kind⟩)

/-- The rows of a kind that a batch stores. -/
def ParseState.tokenDatas (st : ParseState) : RowKind → Table String CurrentTokenDataV2
  | .live => st.currentTokenDatasV2
  | .deleted => st.currentDeletedTokenDatasV2

/-- The table after both statements of a batch. -/
def executeTokenDatas (first second : RowKind) (batch : ParseState)
    (prior : Table String CurrentTokenDataV2) : Table String CurrentTokenDataV2 :=
  (prior.writeAll (dataWrites first (batch.tokenDatas first))).writeAll
    (dataWrites second (batch.tokenDatas second))

/-- A statement touches a token's row once, if the token is among its rows. -/
theorem lookup_dataWrites (kind : RowKind) (rows prior : Table String CurrentTokenDataV2)
    (tokenDataId : String) :
    (prior.writeAll (dataWrites kind rows)).lookup tokenDataId =
      ((rows.lookup tokenDataId).map fun row =>
        Table.merged (dataQuery kind) (prior.lookup tokenDataId) row).or
        (prior.lookup tokenDataId) := by
  have hmem : ∀ w, (tokenDataId, w) ∈ dataWrites kind rows ↔
      ∃ row, rows.lookup tokenDataId = some row ∧ w = ⟨row, dataQuery kind⟩ := by
    intro w
    unfold dataWrites
    rw [List.mem_map]
    constructor
    · intro h
      obtain ⟨⟨k, row⟩, hrow, heq⟩ := h
      obtain ⟨rfl, rfl⟩ := Prod.mk.inj heq
      exact ⟨row, Table.mem_rows.mp hrow, rfl⟩
    · intro h
      obtain ⟨row, hrow, rfl⟩ := h
      exact ⟨(tokenDataId, row), Table.mem_rows.mpr hrow, rfl⟩
  cases hrow : rows.lookup tokenDataId with
  | none =>
    refine Table.lookup_writeAll_of_notMem prior ?_
    intro h
    obtain ⟨⟨k, w⟩, hw, rfl⟩ := List.mem_map.mp h
    obtain ⟨row, hlookup, -⟩ := (hmem w).mp hw
    rw [hrow] at hlookup
    cases hlookup
  | some row =>
    have hnodup : ((dataWrites kind rows).map Prod.fst).Nodup := by
      unfold dataWrites
      rw [List.map_map]
      exact Table.nodup_rows_keys rows
    rw [Table.lookup_writeAll, proj_eq_singleton hnodup ((hmem _).mpr ⟨row, hrow, rfl⟩)]
    rfl

/-! ## What is compared -/

/-- The columns of a token that only the statement of existing tokens sets. -/
structure DataColumns where
  tokenName : String
  tokenUri : String
  description : String
  tokenProperties : Json
  supply : Option ℚ

/-- The columns the schedules are compared by. -/
structure TokenDataView where
  columns : DataColumns
  isDeletedV2 : Option Bool
  version : Int64

def CurrentTokenDataV2.view (row : CurrentTokenDataV2) : TokenDataView :=
  ⟨⟨row.tokenName, row.tokenUri, row.description, row.tokenProperties, row.supply⟩,
    row.isDeletedV2, row.lastTransactionVersion⟩

/-- The columns of a burned token that was not stored before. -/
def stubColumns : DataColumns := ⟨"", "", "", .null, none⟩

theorem view_live (old excluded : CurrentTokenDataV2) :
    (insertCurrentTokenDatasV2Query old excluded).view =
      if old.view.version ≤ excluded.view.version then
        ⟨excluded.view.columns, old.view.isDeletedV2, excluded.view.version⟩
      else old.view := by
  unfold insertCurrentTokenDatasV2Query CurrentTokenDataV2.view
  dsimp only
  split
  · rfl
  · rfl

theorem view_deleted (old excluded : CurrentTokenDataV2) :
    (insertCurrentDeletedTokenDatasV2Query old excluded).view =
      if old.view.version ≤ excluded.view.version then
        ⟨old.view.columns, excluded.view.isDeletedV2, excluded.view.version⟩
      else old.view := by
  unfold insertCurrentDeletedTokenDatasV2Query CurrentTokenDataV2.view
  dsimp only
  split
  · rfl
  · rfl

/-! ## The rows of a batch -/

/-- The two kinds of rows a batch has. -/
structure DataRows (st : ParseState) : Prop where
  live : ∀ tokenDataId row, st.currentTokenDatasV2.lookup tokenDataId = some row →
    row.view.isDeletedV2 ≠ some true
  deleted : ∀ tokenDataId row, st.currentDeletedTokenDatasV2.lookup tokenDataId = some row →
    row.view.isDeletedV2 = some true ∧ row.view.columns = stubColumns

theorem getV1DataFromWriteTableItem_row {item : WriteTableItem} {txnVersion : Int64}
    {txnTimestamp : NaiveDateTime} {row : CurrentTokenDataV2}
    (h : getV1DataFromWriteTableItem sdk item txnVersion txnTimestamp = some (some row)) :
    ∃ data id tokenData, item.data = some data ∧
      TokenWriteSet.fromTableItemType sdk data.keyType data.key = some (some (.tokenDataId id)) ∧
      row = v1TokenData sdk id tokenData txnVersion txnTimestamp := by
  unfold getV1DataFromWriteTableItem at h
  obtain ⟨data, hdata, h⟩ := Option.bind_eq_some_iff.mp h
  obtain ⟨value, -, h⟩ := Option.bind_eq_some_iff.mp h
  split at h
  next tokenData =>
    obtain ⟨key, hkey, h⟩ := Option.bind_eq_some_iff.mp h
    split at h
    next id =>
      obtain rfl := Option.some.inj (Option.some.inj h)
      exact ⟨data, id, tokenData, hdata, hkey, rfl⟩
    next => cases h
  next => cases h

theorem getV2FromWriteResource_row {wr : WriteResource} {txnVersion : Int64}
    {txnTimestamp : NaiveDateTime} {metadata : ObjectAggregatedDataMapping}
    {row : CurrentTokenDataV2}
    (h : getV2FromWriteResource sdk wr txnVersion txnTimestamp metadata = some (some row)) :
    getOuterTypeFromWriteResource sdk.toSdk wr = typeTokenV2 ∧
      row.tokenDataId = sdk.standardizeAddress wr.address ∧
      row.lastTransactionVersion = txnVersion ∧ row.lastTransactionTimestamp = txnTimestamp ∧
      row.isDeletedV2 = some false := by
  unfold getV2FromWriteResource at h
  obtain ⟨inner, hinner, h⟩ := Option.bind_eq_some_iff.mp h
  split at h
  next inner' =>
    dsimp only at h
    split at h
    next data hdata =>
      obtain rfl := Option.some.inj (Option.some.inj h)
      refine ⟨?_, rfl, rfl, rfl, rfl⟩
      unfold fromWriteResource at hinner
      split at hinner
      · assumption
      · cases Option.some.inj hinner
    next => cases h
  next => cases h

theorem getBurnedNftV2Data_row {address : String} {txnVersion : Int64}
    {txnTimestamp : NaiveDateTime} {tokensBurned : TokenV2Burned} {row : CurrentTokenDataV2}
    (h : getBurnedNftV2Data sdk address txnVersion txnTimestamp tokensBurned = some row) :
    row.tokenDataId = sdk.standardizeAddress address ∧ row.lastTransactionVersion = txnVersion ∧
      row.view.isDeletedV2 = some true ∧ row.view.columns = stubColumns := by
  unfold getBurnedNftV2Data at h
  obtain ⟨burnEvent, -, rfl⟩ := Option.map_eq_some_iff.mp h
  exact ⟨rfl, rfl, rfl, rfl⟩

/-- An inserted row satisfies what it and the rows before do. -/
theorem insertAll_toList_forall {κ ρ : Type} [DecidableEq κ] {P : ρ → Prop} {t : Table κ ρ}
    {row : Option ρ} {key : ρ → κ} (ht : ∀ k r, t.lookup k = some r → P r)
    (hrow : ∀ r, row = some r → P r) :
    ∀ k r, (t.insertAll (row.toList.map fun r => (key r, r))).lookup k = some r → P r := by
  refine Table.insertAll_forall (P := fun _ r => P r) ht ?_
  intro entry hentry
  obtain ⟨r, hr, rfl⟩ := List.mem_map.mp hentry
  exact hrow r (Option.mem_toList.mp hr)

theorem dataRows_changeStep {ctx : ChangeContext} {st st' : ParseState} {index : ℕ}
    {change : Protos.Change} (hstep : ChangeStep sdk ctx st index change st') (h : DataRows st) :
    DataRows st' := by
  have hburned : ∀ address row, getBurnedNftV2Data sdk address ctx.txnVersion ctx.txnTimestamp
      ctx.tokensBurned = some row →
      row.view.isDeletedV2 = some true ∧ row.view.columns = stubColumns :=
    fun address row hrow => (getBurnedNftV2Data_row hrow).2.2
  cases hstep with
  | writeTableItem hdata =>
    refine ⟨insertAll_toList_forall h.live ?_, h.deleted⟩
    intro row hrow
    subst hrow
    obtain ⟨-, id, tokenData, -, -, rfl⟩ := getV1DataFromWriteTableItem_row hdata
    show (none : Option Bool) ≠ some true
    exact fun hnone => by cases hnone
  | deleteTableItem => exact ⟨h.live, h.deleted⟩
  | writeResource htoken =>
    rcases parseToken_cases htoken with ⟨-, rfl⟩ | ⟨tokenData, owner, ownerships, hdata, -, rfl⟩
    · exact ⟨h.live, insertAll_toList_forall h.deleted (hburned _)⟩
    · refine ⟨?_, insertAll_toList_forall h.deleted (hburned _)⟩
      intro k row hrow
      by_cases hk : k = tokenData.tokenDataId
      · subst hk
        obtain rfl := Option.some.inj ((AList.lookup_insert _).symm.trans hrow)
        show tokenData.isDeletedV2 ≠ some true
        rw [(getV2FromWriteResource_row hdata).2.2.2.2]
        exact fun hfalse => by cases hfalse
      · exact h.live k row ((AList.lookup_insert_ne hk).symm.trans hrow)
  | deleteResource => exact ⟨h.live, insertAll_toList_forall h.deleted (hburned _)⟩
  | other => exact h

theorem dataRows_parseV2Token {ctx : ParseContext} {txns : List Protos.Transaction}
    {out : ParseState} (h : parseV2Token sdk ctx txns = some out) : DataRows out := by
  refine parseV2Token_invariant h ⟨?_, ?_⟩ (fun st _ _ hst => ⟨hst.live, hst.deleted⟩)
    (fun _ _ _ _ _ => dataRows_changeStep)
  · intro k row hrow
    cases hrow
  · intro k row hrow
    cases hrow

/-! ## When the order matters -/

/-- The order of the statements is of no account for a token of both: its rows
are of one version, or a stored row keeps the older one out, or the older one
is the existing token's and has nothing to say that is not stored anyway, or it
is the burned one and the token is stored as deleted. -/
def OrderIrrelevant (prior : Option CurrentTokenDataV2) (live deleted : CurrentTokenDataV2) :
    Prop :=
  live.lastTransactionVersion = deleted.lastTransactionVersion ∨
  (∃ p, prior = some p ∧ (live.lastTransactionVersion < p.lastTransactionVersion ∨
    deleted.lastTransactionVersion < p.lastTransactionVersion)) ∨
  (live.lastTransactionVersion < deleted.lastTransactionVersion ∧
    live.view.columns = (prior.map fun p => p.view.columns).getD stubColumns) ∨
  (deleted.lastTransactionVersion < live.lastTransactionVersion ∧
    ∃ p, prior = some p ∧ p.isDeletedV2 = some true)

/-- Both statements on a token that was not stored. -/
theorem orders_agree_new {live deleted : CurrentTokenDataV2}
    (hlive : live.view.isDeletedV2 ≠ some true) (hdeleted : deleted.view.isDeletedV2 = some true)
    (hstub : deleted.view.columns = stubColumns) :
    (insertCurrentDeletedTokenDatasV2Query live deleted).view =
        (insertCurrentTokenDatasV2Query deleted live).view ↔
      OrderIrrelevant none live deleted := by
  rw [view_deleted, view_live]
  have hvl : live.view.version = live.lastTransactionVersion := rfl
  have hvd : deleted.view.version = deleted.lastTransactionVersion := rfl
  rw [hvl, hvd]
  rcases lt_trichotomy live.lastTransactionVersion deleted.lastTransactionVersion with
    hlt | heq | hgt
  · rw [if_pos hlt.le, if_neg (not_le.mpr hlt)]
    constructor
    · intro h
      -- After the stub the existing token's row is rejected, and so are its columns.
      exact Or.inr (Or.inr (Or.inl ⟨hlt, (congrArg TokenDataView.columns h).trans hstub⟩))
    · intro h
      rcases h with heq | ⟨p, hp, -⟩ | ⟨-, hcolumns⟩ | ⟨hgt, -⟩
      · exact absurd heq hlt.ne
      · cases hp
      · have hcolumns' : live.view.columns = deleted.view.columns := hcolumns.trans hstub.symm
        rw [hcolumns', ← hvd]
      · exact absurd hgt hlt.asymm
  · rw [if_pos heq.le, if_pos heq.ge, heq]
    exact ⟨fun _ => Or.inl heq, fun _ => rfl⟩
  · rw [if_neg (not_le.mpr hgt), if_pos hgt.le]
    constructor
    · intro h
      -- The stub's flag is kept by the statement of existing tokens, but is not set
      -- over their row.
      exact absurd ((congrArg TokenDataView.isDeletedV2 h).trans hdeleted) hlive
    · intro h
      rcases h with heq | ⟨p, hp, -⟩ | ⟨hlt, -⟩ | ⟨-, p, hp, -⟩
      · exact absurd heq hgt.ne'
      · cases hp
      · exact absurd hlt hgt.asymm
      · cases hp

/-- Both statements over a stored row. -/
theorem orders_agree_stored {live deleted p : CurrentTokenDataV2}
    (hdeleted : deleted.view.isDeletedV2 = some true) :
    (insertCurrentDeletedTokenDatasV2Query (insertCurrentTokenDatasV2Query p live) deleted).view =
        (insertCurrentTokenDatasV2Query
          (insertCurrentDeletedTokenDatasV2Query p deleted) live).view ↔
      OrderIrrelevant (some p) live deleted := by
  have hvl : live.view.version = live.lastTransactionVersion := rfl
  have hvd : deleted.view.version = deleted.lastTransactionVersion := rfl
  have hvp : p.view.version = p.lastTransactionVersion := rfl
  rw [view_deleted, view_live, view_live, view_deleted, hvl, hvd, hvp]
  by_cases hpl : p.lastTransactionVersion ≤ live.lastTransactionVersion
  · by_cases hpd : p.lastTransactionVersion ≤ deleted.lastTransactionVersion
    · simp only [if_pos hpl, if_pos hpd]
      -- Neither statement is refused by the stored row. Whichever of the two rows is older is
      -- refused if it comes second; if it comes first, what the newer one does not set stays.
      rcases lt_trichotomy live.lastTransactionVersion deleted.lastTransactionVersion with
        hlt | heq | hgt
      · rw [if_pos hlt.le, if_neg (not_le.mpr hlt)]
        constructor
        · intro h
          exact Or.inr (Or.inr (Or.inl ⟨hlt, (TokenDataView.mk.inj h).1⟩))
        · intro h
          rcases h with heq | ⟨q, hq, hold⟩ | ⟨-, hcolumns⟩ | ⟨hgt, -⟩
          · exact absurd heq hlt.ne
          · obtain rfl := Option.some.inj hq
            rcases hold with hold | hold
            · exact absurd hpl (not_le.mpr hold)
            · exact absurd hpd (not_le.mpr hold)
          · have hcolumns' : live.view.columns = p.view.columns := hcolumns
            rw [hcolumns']
          · exact absurd hgt hlt.asymm
      · rw [if_pos heq.le, if_pos heq.ge, heq]
        exact ⟨fun _ => Or.inl heq, fun _ => rfl⟩
      · rw [if_neg (not_le.mpr hgt), if_pos hgt.le]
        constructor
        · intro h
          have hp : p.isDeletedV2 = some true :=
            (congrArg TokenDataView.isDeletedV2 h).trans hdeleted
          exact Or.inr (Or.inr (Or.inr ⟨hgt, p, rfl, hp⟩))
        · intro h
          rcases h with heq | ⟨q, hq, hold⟩ | ⟨hlt, -⟩ | ⟨-, q, hq, hflag⟩
          · exact absurd heq hgt.ne'
          · obtain rfl := Option.some.inj hq
            rcases hold with hold | hold
            · exact absurd hpl (not_le.mpr hold)
            · exact absurd hpd (not_le.mpr hold)
          · exact absurd hlt hgt.asymm
          · obtain rfl := Option.some.inj hq
            have hflags : p.view.isDeletedV2 = deleted.view.isDeletedV2 := hflag.trans hdeleted.symm
            rw [hflags]
    · -- The burned row is older than the stored one and is kept out.
      have hd := not_le.mp hpd
      simp only [if_pos hpl, if_neg hpd, if_neg (not_le.mpr (hd.trans_le hpl)), hvp]
      exact ⟨fun _ => Or.inr (Or.inl ⟨p, rfl, Or.inr hd⟩), fun _ => trivial⟩
  · have hl := not_le.mp hpl
    by_cases hpd : p.lastTransactionVersion ≤ deleted.lastTransactionVersion
    · -- The existing token's row is older than the stored one and is kept out.
      simp only [if_neg hpl, if_pos hpd, if_neg (not_le.mpr (hl.trans_le hpd)), hvp]
      exact ⟨fun _ => Or.inr (Or.inl ⟨p, rfl, Or.inl hl⟩), fun _ => trivial⟩
    · simp only [if_neg hpl, if_neg hpd, hvp]
      exact ⟨fun _ => Or.inr (Or.inl ⟨p, rfl, Or.inl hl⟩), fun _ => trivial⟩

/-- **When the order of the statements matters.** The two orders give every token
the same row exactly if the order is of no account for each token that is in
both statements of the batch. -/
theorem token_data_order_iff (sdk : TokenSdk) (ctx : ParseContext)
    (txns : List Protos.Transaction) (batch : ParseState)
    (hbatch : parseV2Token sdk ctx txns = some batch) (prior : Table String CurrentTokenDataV2) :
    (∀ tokenDataId,
        ((executeTokenDatas .live .deleted batch prior).lookup tokenDataId).map
            CurrentTokenDataV2.view =
          ((executeTokenDatas .deleted .live batch prior).lookup tokenDataId).map
            CurrentTokenDataV2.view) ↔
      ∀ tokenDataId live deleted, batch.currentTokenDatasV2.lookup tokenDataId = some live →
        batch.currentDeletedTokenDatasV2.lookup tokenDataId = some deleted →
        OrderIrrelevant (prior.lookup tokenDataId) live deleted := by
  have hrows := dataRows_parseV2Token hbatch
  refine forall_congr' fun tokenDataId => ?_
  unfold executeTokenDatas
  -- Only tokens with a row in both lists can see the order.
  simp only [lookup_dataWrites, ParseState.tokenDatas]
  cases hlive : batch.currentTokenDatasV2.lookup tokenDataId with
  | none => simp
  | some live =>
    cases hdeleted : batch.currentDeletedTokenDatasV2.lookup tokenDataId with
    | none => simp
    | some deleted =>
      obtain ⟨hflag, hstub⟩ := hrows.deleted tokenDataId deleted hdeleted
      have hagree : ∀ p : Option CurrentTokenDataV2,
          (Table.merged insertCurrentDeletedTokenDatasV2Query
              (some (Table.merged insertCurrentTokenDatasV2Query p live)) deleted).view =
            (Table.merged insertCurrentTokenDatasV2Query
              (some (Table.merged insertCurrentDeletedTokenDatasV2Query p deleted)) live).view ↔
          OrderIrrelevant p live deleted := by
        intro p
        cases p with
        | none => exact orders_agree_new (hrows.live tokenDataId live hlive) hflag hstub
        | some p => exact orders_agree_stored hflag
      simp only [Option.map_some, Option.some_or, Option.some.injEq, dataQuery]
      rw [hagree]
      constructor
      · intro h live' deleted' hl hd
        rw [← hl, ← hd]
        exact h
      · intro h
        exact h live deleted rfl rfl

/-- The token is minted and burned in one batch, and already stored with a later
version: both orders leave that row alone. -/
theorem token_data_order_iff_replayed :
    ∃ batch, parseV2Token lifeSdk emptyContext [mintTxn 1, oldBurnTxn 3] = some batch ∧
      ∀ stored : CurrentTokenDataV2, stored.lastTransactionVersion = 9 → ∀ tokenDataId,
        ((executeTokenDatas .live .deleted batch
            ((∅ : Table _ _).insert tokenAddress stored)).lookup tokenDataId).map
            CurrentTokenDataV2.view =
          ((executeTokenDatas .deleted .live batch
            ((∅ : Table _ _).insert tokenAddress stored)).lookup tokenDataId).map
            CurrentTokenDataV2.view := by
  have heval : (parseV2Token lifeSdk emptyContext [mintTxn 1, oldBurnTxn 3]).map (fun batch =>
      (batch.currentDeletedTokenDatasV2.rows.map fun row => (row.1, row.2.lastTransactionVersion)))
        = some [(tokenAddress, 3)] := by
    decide +kernel
  obtain ⟨batch, hbatch, hrows⟩ := Option.map_eq_some_iff.mp heval
  refine ⟨batch, hbatch, ?_⟩
  intro stored hstored
  refine (token_data_order_iff lifeSdk emptyContext _ batch hbatch _).mpr ?_
  intro tokenDataId live deleted _ hdeleted
  -- The stored version 9 keeps the burned row of version 3 out.
  have hmem : (tokenDataId, deleted.lastTransactionVersion) ∈ [(tokenAddress, (3 : Int64))] := by
    rw [← hrows]
    exact List.mem_map.mpr ⟨(tokenDataId, deleted), Table.mem_rows.mpr hdeleted, rfl⟩
  obtain ⟨rfl, hversion⟩ := Prod.mk.inj (List.mem_singleton.mp hmem)
  refine Or.inr (Or.inl ⟨stored, AList.lookup_insert _, Or.inr ?_⟩)
  rw [hversion, hstored]
  decide

/-- A token minted and burned in one batch: whether the name is stored depends on
the order. -/
theorem token_data_order_matters :
    ∃ batch, parseV2Token lifeSdk emptyContext [mintTxn 1, oldBurnTxn 3] = some batch ∧
      ((executeTokenDatas .live .deleted batch ∅).lookup tokenAddress).map
        (·.tokenName) = some "n" ∧
      ((executeTokenDatas .deleted .live batch ∅).lookup tokenAddress).map
        (·.tokenName) = some "" ∧
      ¬ ∀ tokenDataId,
        ((executeTokenDatas .live .deleted batch ∅).lookup tokenDataId).map
            CurrentTokenDataV2.view =
          ((executeTokenDatas .deleted .live batch ∅).lookup tokenDataId).map
            CurrentTokenDataV2.view := by
  have heval : (parseV2Token lifeSdk emptyContext [mintTxn 1, oldBurnTxn 3]).map (fun batch =>
      (((executeTokenDatas .live .deleted batch ∅).lookup tokenAddress).map (·.tokenName),
        ((executeTokenDatas .deleted .live batch ∅).lookup tokenAddress).map (·.tokenName))) =
      some (some "n", some "") := by decide +kernel
  obtain ⟨batch, hbatch, hnames⟩ := Option.map_eq_some_iff.mp heval
  obtain ⟨hlive, hdeleted⟩ := Prod.mk.inj hnames
  refine ⟨batch, hbatch, hlive, hdeleted, ?_⟩
  intro hall
  have hname := congrArg (Option.map fun v => v.columns.tokenName) (hall tokenAddress)
  rw [Option.map_map, Option.map_map] at hname
  have hsame : "n" = "" := Option.some.inj (hlive.symm.trans (hname.trans hdeleted))
  exact absurd hsame (by decide)

end IndexerProcessors.TokenV2

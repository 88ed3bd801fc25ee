import IndexerProcessors.Lib.Run
import IndexerProcessors.TokenV2.Operations

/-!
# The deletion flag of token data

Batches are stored in the order of their versions, the existing tokens of a
batch before its burned ones. `deletion_flag_current` — the flag of a token says
whether its last operation was a burn, as long as no token that is stored as
deleted is written again and no transaction burns a token and writes it: the
statement of the existing tokens does not take the flag back.
-/

namespace IndexerProcessors.TokenV2

open IndexerProcessors.Lib
open IndexerProcessors.Protos

variable {sdk : TokenSdk} {token : String}

/-- The token data table, and the transactions stored in it. -/
structure DataState where
  table : Table String CurrentTokenDataV2
  history : List Protos.Transaction

def DataState.init : DataState := ⟨∅, []⟩

/-- A batch is parsed and stored. -/
def storeTokenDatas (sdk : TokenSdk) (st : DataState)
    (batch : ParseContext × List Protos.Transaction) : Option DataState := do
  let rows ← parseV2Token sdk batch.1 batch.2
  return ⟨executeTokenDatas .live .deleted rows st.table, st.history ++ batch.2⟩

/-- What a batch has to be like for the flag of a token to follow it. -/
structure NoRecreation (sdk : TokenSdk) (token : String) (st : DataState)
    (batch : ParseContext × List Protos.Transaction) : Prop where
  /-- The address is not the identifier of a V1 token. -/
  object : ∀ txn ∈ batch.2, NamesNoV1 sdk token txn
  /-- The token is written with its object core. -/
  core : ∀ txn ∈ batch.2, writesToken sdk token txn = true →
    (lastCore sdk token (readChanges txn)).isSome
  /-- A burn of the token in existence deletes something at its address. -/
  deletes : ∀ done txn, (done ++ [txn]) <+: batch.2 → burnsToken sdk token txn = true →
    lastOp sdk token (st.history ++ done) = some .write → changesToken sdk token txn = true
  /-- No transaction burns the token and writes it again. -/
  apart : ∀ txn ∈ batch.2, ¬ (writesToken sdk token txn = true ∧ burnsToken sdk token txn = true)
  /-- A batch that ends with a write does not meet a row marked as deleted. -/
  unmarked : lastOp sdk token batch.2 = some .write → ∀ row, st.table.lookup token = some row →
    row.isDeletedV2 ≠ some true

/-! ## The maps of a batch -/

/-- The version of a token's row among the existing or the burned ones. -/
def ParseState.dataVersion (st : ParseState) (token : String) (kind : RowKind) : Option Int64 :=
  ((st.tokenDatas kind).lookup token).map (·.lastTransactionVersion)

/-- What the maps hold of a token after some transactions of a batch: if a write
was last, its row, newer than a burned one; if a burn was, the burned row, newer
than the other, unless nothing was deleted because nothing was there. -/
structure Tracks (sdk : TokenSdk) (token : String) (before : Option TokenOp)
    (done : List Protos.Transaction) (st : ParseState) : Prop where
  none : lastOp sdk token done = none → ∀ kind, st.dataVersion token kind = none
  write : lastOp sdk token done = some .write →
    ∃ v, st.dataVersion token .live = some v ∧ ∀ d, st.dataVersion token .deleted = some d → d < v
  burn : lastOp sdk token done = some .burn →
    (∃ v, st.dataVersion token .deleted = some v ∧
      ∀ l, st.dataVersion token .live = some l → l < v) ∨
    ((∀ kind, st.dataVersion token kind = Option.none) ∧ before ≠ some .write)
  versions : ∀ kind v, st.dataVersion token kind = some v → ∃ txn ∈ done, txn.txnVersion = v

section TracksConcat

variable {ctx : ParseContext} {before : Option TokenOp} {done : List Protos.Transaction}
  {txn : Protos.Transaction} {st st' : ParseState}

/-- The versions of the rows after one more transaction. -/
theorem versions_concat (h : Tracks sdk token before done st)
    (hcases : ∀ kind, st'.dataVersion token kind = some txn.txnVersion ∨
      st'.dataVersion token kind = st.dataVersion token kind) :
    ∀ kind v, st'.dataVersion token kind = some v → ∃ t ∈ done ++ [txn], t.txnVersion = v := by
  intro kind v hv
  rcases hcases kind with hnew | hold
  · exact ⟨txn, by simp, Option.some.inj (hnew.symm.trans hv)⟩
  · obtain ⟨t, ht, htv⟩ := h.versions kind v (hold.symm.trans hv)
    exact ⟨t, List.mem_append_left _ ht, htv⟩

/-- Rows from before are older. -/
theorem Tracks.lt_of_later (h : Tracks sdk token before done st)
    (hlater : ∀ t ∈ done, t.txnVersion < txn.txnVersion) {kind : RowKind} {v : Int64}
    (hv : st.dataVersion token kind = some v) : v < txn.txnVersion := by
  obtain ⟨t, ht, rfl⟩ := h.versions kind v hv
  exact hlater t ht

/-- A write. -/
theorem tracks_write (h : Tracks sdk token before done st)
    (hlater : ∀ t ∈ done, t.txnVersion < txn.txnVersion)
    (hop : tokenOp sdk token txn = some .write)
    (hlive : st'.dataVersion token .live = some txn.txnVersion)
    (hdeleted : st'.dataVersion token .deleted = st.dataVersion token .deleted) :
    Tracks sdk token before (done ++ [txn]) st' := by
  have hwrite : lastOp sdk token (done ++ [txn]) = some .write := by
    rw [lastOp_concat, hop]
    rfl
  refine ⟨fun hn => ?_, fun _ => ⟨_, hlive, ?_⟩, fun hb => ?_, versions_concat h ?_⟩
  · rw [hwrite] at hn
    cases hn
  · intro d hd
    exact h.lt_of_later hlater (hdeleted.symm.trans hd)
  · rw [hwrite] at hb
    cases hb
  · intro kind
    cases kind with
    | live => exact Or.inl hlive
    | deleted => exact Or.inr hdeleted

/-- A burn that deletes something. -/
theorem tracks_burn (h : Tracks sdk token before done st)
    (hlater : ∀ t ∈ done, t.txnVersion < txn.txnVersion)
    (hop : tokenOp sdk token txn = some .burn)
    (hlive : st'.dataVersion token .live = st.dataVersion token .live)
    (hdeleted : st'.dataVersion token .deleted = some txn.txnVersion) :
    Tracks sdk token before (done ++ [txn]) st' := by
  have hburn : lastOp sdk token (done ++ [txn]) = some .burn := by
    rw [lastOp_concat, hop]
    rfl
  refine ⟨fun hn => ?_, fun hw => ?_, fun _ => Or.inl ⟨_, hdeleted, ?_⟩, versions_concat h ?_⟩
  · rw [hburn] at hn
    cases hn
  · rw [hburn] at hw
    cases hw
  · intro l hl
    exact h.lt_of_later hlater (hlive.symm.trans hl)
  · intro kind
    cases kind with
    | live => exact Or.inr hlive
    | deleted => exact Or.inl hdeleted

/-- A transaction that leaves the rows alone: no operation on the token, or a burn
of one that was not in existence. -/
theorem tracks_keep (h : Tracks sdk token before done st)
    (hkeep : ∀ kind, st'.dataVersion token kind = st.dataVersion token kind)
    (hop : tokenOp sdk token txn = none ∨ (tokenOp sdk token txn = some .burn ∧
      (lastOp sdk token done).or before ≠ some .write)) :
    Tracks sdk token before (done ++ [txn]) st' := by
  have hversions : ∀ kind v, st'.dataVersion token kind = some v →
      ∃ t ∈ done ++ [txn], t.txnVersion = v := versions_concat h fun kind => Or.inr (hkeep kind)
  have hburned : lastOp sdk token done = some .burn →
      (∃ v, st'.dataVersion token .deleted = some v ∧
        ∀ l, st'.dataVersion token .live = some l → l < v) ∨
      ((∀ kind, st'.dataVersion token kind = none) ∧ before ≠ some .write) := by
    intro hb
    rcases h.burn hb with ⟨v, hv, hl⟩ | ⟨hnone, hbefore⟩
    · exact Or.inl ⟨v, (hkeep _).trans hv, fun l hlv => hl l ((hkeep _).symm.trans hlv)⟩
    · exact Or.inr ⟨fun kind => (hkeep kind).trans (hnone kind), hbefore⟩
  -- Without an operation the last one stays the last. A burn of a token that did not exist
  -- finds the rows of an older burn, or none.
  rcases hop with hop | ⟨hop, hnot⟩
  · have hsame : lastOp sdk token (done ++ [txn]) = lastOp sdk token done := by
      rw [lastOp_concat, hop, Option.none_or]
    refine ⟨?_, ?_, fun hb => hburned (hsame.symm.trans hb), hversions⟩
    · intro hn kind
      exact (hkeep kind).trans (h.none (hsame.symm.trans hn) kind)
    · intro hw
      obtain ⟨v, hv, hd⟩ := h.write (hsame.symm.trans hw)
      exact ⟨v, (hkeep _).trans hv, fun d hdv => hd d ((hkeep _).symm.trans hdv)⟩
  · have hburn : lastOp sdk token (done ++ [txn]) = some .burn := by
      rw [lastOp_concat, hop]
      rfl
    refine ⟨fun hn => ?_, fun hw => ?_, fun _ => ?_, hversions⟩
    · rw [hburn] at hn
      cases hn
    · rw [hburn] at hw
      cases hw
    · cases hdone : lastOp sdk token done with
      | none =>
        rw [hdone] at hnot
        exact Or.inr ⟨fun kind => (hkeep kind).trans (h.none hdone kind), hnot⟩
      | some op =>
        cases op with
        | write =>
          rw [hdone] at hnot
          exact absurd rfl hnot
        | burn => exact hburned hdone

/-- One transaction. -/
theorem tracks_concat
    (hstd : ∀ s, sdk.standardizeAddress (sdk.standardizeAddress s) = sdk.standardizeAddress s)
    (hstep : parseTransaction sdk ctx st txn = some st') (h : Tracks sdk token before done st)
    (hlater : ∀ t ∈ done, t.txnVersion < txn.txnVersion) (hv1 : NamesNoV1 sdk token txn)
    (hcore : writesToken sdk token txn = true → (lastCore sdk token (readChanges txn)).isSome)
    (hdeletes : burnsToken sdk token txn = true →
      (lastOp sdk token done).or before = some .write → changesToken sdk token txn = true)
    (hapart : ¬ (writesToken sdk token txn = true ∧ burnsToken sdk token txn = true)) :
    Tracks sdk token before (done ++ [txn]) st' := by
  have hlive : st'.dataVersion token .live =
      if writesToken sdk token txn then some txn.txnVersion else st.dataVersion token .live :=
    parseTransaction_tokenData hstep hv1 hcore
  have hdeleted : st'.dataVersion token .deleted =
      if changesToken sdk token txn ∧ burnsToken sdk token txn then some txn.txnVersion
      else st.dataVersion token .deleted := parseTransaction_deletedTokenData hstd hstep
  cases hwrites : writesToken sdk token txn with
  | true =>
    have hburns : burnsToken sdk token txn = false := by
      cases hb : burnsToken sdk token txn with
      | false => rfl
      | true => exact absurd ⟨hwrites, hb⟩ hapart
    rw [if_pos hwrites] at hlive
    rw [hburns, if_neg (fun hc => by cases hc.2)] at hdeleted
    exact tracks_write h hlater (tokenOp_of_writes hwrites) hlive hdeleted
  | false =>
    rw [hwrites, if_neg Bool.false_ne_true] at hlive
    cases hburns : burnsToken sdk token txn with
    | true =>
      cases hchanges : changesToken sdk token txn with
      | true =>
        rw [if_pos ⟨hchanges, hburns⟩] at hdeleted
        exact tracks_burn h hlater (tokenOp_of_burns hwrites hburns) hlive hdeleted
      | false =>
        -- Nothing is deleted, so the token was not in existence.
        rw [hchanges, if_neg (fun hc => by cases hc.1)] at hdeleted
        refine tracks_keep h ?_ (Or.inr ⟨tokenOp_of_burns hwrites hburns, fun hw => ?_⟩)
        · intro kind
          cases kind with
          | live => exact hlive
          | deleted => exact hdeleted
        · rw [hdeletes hburns hw] at hchanges
          cases hchanges
    | false =>
      rw [hburns, if_neg (fun hc => by cases hc.2)] at hdeleted
      refine tracks_keep h ?_ (Or.inl (tokenOp_of_neither hwrites hburns))
      intro kind
      cases kind with
      | live => exact hlive
      | deleted => exact hdeleted

end TracksConcat

/-- A whole batch. -/
theorem tracks_parseV2Token
    (hstd : ∀ s, sdk.standardizeAddress (sdk.standardizeAddress s) = sdk.standardizeAddress s)
    {st : DataState} {batch : ParseContext × List Protos.Transaction} {rows : ParseState}
    (hrows : parseV2Token sdk batch.1 batch.2 = some rows) (hord : InOrder batch.2)
    (hclean : NoRecreation sdk token st batch) :
    Tracks sdk token (lastOp sdk token st.history) batch.2 rows := by
  refine foldlM_prefix (P := Tracks sdk token (lastOp sdk token st.history)) hrows ?_ ?_
  · refine ⟨fun _ kind => ?_, fun h => ?_, fun h => ?_, fun kind v h => ?_⟩
    · cases kind <;> rfl
    · cases h
    · cases h
    · cases kind <;> cases h
  · intro done txn s s' hdone hs hstep
    have hmem : txn ∈ batch.2 := mem_of_prefix_concat hdone
    have hlater := hord.lt_of_prefix_concat hdone
    refine tracks_concat hstd hstep hs hlater (hclean.object txn hmem) (hclean.core txn hmem) ?_
      (hclean.apart txn hmem)
    intro hburns hwrite
    refine hclean.deletes done txn hdone hburns ?_
    rw [lastOp_append]
    exact hwrite

/-! ## The row after a batch -/

/-- A token's row after the statements of a batch. -/
theorem lookup_executeTokenDatas (batch : ParseState) (prior : Table String CurrentTokenDataV2) :
    (executeTokenDatas .live .deleted batch prior).lookup token =
      let live := ((batch.currentTokenDatasV2.lookup token).map fun row =>
        Table.merged insertCurrentTokenDatasV2Query (prior.lookup token) row).or
          (prior.lookup token)
      ((batch.currentDeletedTokenDatasV2.lookup token).map fun row =>
        Table.merged insertCurrentDeletedTokenDatasV2Query live row).or live := by
  unfold executeTokenDatas
  rw [lookup_dataWrites, lookup_dataWrites]
  rfl

/-- A batch without rows of the token leaves its row alone. -/
theorem lookup_executeTokenDatas_of_none {batch : ParseState}
    (prior : Table String CurrentTokenDataV2)
    (hnone : ∀ kind, batch.dataVersion token kind = none) :
    (executeTokenDatas .live .deleted batch prior).lookup token = prior.lookup token := by
  have hlive : batch.currentTokenDatasV2.lookup token = none :=
    Option.map_eq_none_iff.mp (hnone .live)
  have hdeleted : batch.currentDeletedTokenDatasV2.lookup token = none :=
    Option.map_eq_none_iff.mp (hnone .deleted)
  rw [lookup_executeTokenDatas, hlive, hdeleted]
  rfl

/-- The newer row of an existing token is stored with the flag that was there. -/
theorem view_merged_live {prior : Option CurrentTokenDataV2} (row : CurrentTokenDataV2)
    (hprior : ∀ p, prior = some p → p.lastTransactionVersion ≤ row.lastTransactionVersion) :
    (Table.merged insertCurrentTokenDatasV2Query prior row).view =
      ⟨row.view.columns, (prior.map (·.isDeletedV2)).getD row.isDeletedV2,
        row.lastTransactionVersion⟩ := by
  cases prior with
  | none => rfl
  | some p =>
    show (insertCurrentTokenDatasV2Query p row).view = _
    have hle : p.view.version ≤ row.view.version := hprior p rfl
    rw [view_live, if_pos hle]
    rfl

/-- The newer row of a burned token sets the flag. -/
theorem view_merged_deleted {prior : Option CurrentTokenDataV2} (row : CurrentTokenDataV2)
    (hprior : ∀ p, prior = some p → p.lastTransactionVersion ≤ row.lastTransactionVersion) :
    (Table.merged insertCurrentDeletedTokenDatasV2Query prior row).view =
      ⟨(prior.map fun p => p.view.columns).getD row.view.columns, row.isDeletedV2,
        row.lastTransactionVersion⟩ := by
  cases prior with
  | none => rfl
  | some p =>
    show (insertCurrentDeletedTokenDatasV2Query p row).view = _
    have hle : p.view.version ≤ row.view.version := hprior p rfl
    rw [view_deleted, if_pos hle]
    rfl

section Row

variable {batch : ParseState} {prior : Table String CurrentTokenDataV2}

/-- A token whose newest row of the batch is an existing one. -/
theorem lookup_live_last {live : CurrentTokenDataV2}
    (hlive : batch.currentTokenDatasV2.lookup token = some live)
    (hflag : live.isDeletedV2 ≠ some true)
    (hprior : ∀ p, prior.lookup token = some p →
      p.lastTransactionVersion ≤ live.lastTransactionVersion ∧ p.isDeletedV2 ≠ some true)
    (hdeleted : ∀ d, batch.currentDeletedTokenDatasV2.lookup token = some d →
      d.lastTransactionVersion < live.lastTransactionVersion) :
    ∃ row, (executeTokenDatas .live .deleted batch prior).lookup token = some row ∧
      row.isDeletedV2 ≠ some true ∧ row.lastTransactionVersion = live.lastTransactionVersion := by
  have hview := view_merged_live live fun p hp => (hprior p hp).1
  have hversion := congrArg TokenDataView.version hview
  refine ⟨Table.merged insertCurrentTokenDatasV2Query (prior.lookup token) live, ?_, ?_, hversion⟩
  · rw [lookup_executeTokenDatas, hlive]
    dsimp only
    rw [Option.map_some, Option.some_or]
    cases hd : batch.currentDeletedTokenDatasV2.lookup token with
    | none => rfl
    | some d =>
      rw [Option.map_some, Option.some_or]
      show some (insertCurrentDeletedTokenDatasV2Query _ d) = _
      unfold insertCurrentDeletedTokenDatasV2Query
      rw [if_neg ?_]
      have hold : (Table.merged insertCurrentTokenDatasV2Query (prior.lookup token)
        live).lastTransactionVersion = live.lastTransactionVersion := hversion
      rw [hold]
      exact not_le.mpr (hdeleted d hd)
  · have hflags : (Table.merged insertCurrentTokenDatasV2Query (prior.lookup token)
        live).isDeletedV2 = ((prior.lookup token).map (·.isDeletedV2)).getD live.isDeletedV2 :=
      congrArg TokenDataView.isDeletedV2 hview
    rw [hflags]
    cases hp : prior.lookup token with
    | none => exact hflag
    | some p => exact (hprior p hp).2

/-- A token whose newest row of the batch is a burned one. -/
theorem lookup_deleted_last {deleted : CurrentTokenDataV2}
    (hdeleted : batch.currentDeletedTokenDatasV2.lookup token = some deleted)
    (hprior : ∀ p, prior.lookup token = some p →
      p.lastTransactionVersion ≤ deleted.lastTransactionVersion)
    (hlive : ∀ l, batch.currentTokenDatasV2.lookup token = some l →
      l.lastTransactionVersion ≤ deleted.lastTransactionVersion) :
    ∃ row, (executeTokenDatas .live .deleted batch prior).lookup token = some row ∧
      row.isDeletedV2 = deleted.isDeletedV2 ∧
      row.lastTransactionVersion = deleted.lastTransactionVersion := by
  rw [lookup_executeTokenDatas, hdeleted]
  dsimp only
  rw [Option.map_some, Option.some_or]
  generalize hmid : ((batch.currentTokenDatasV2.lookup token).map fun row =>
    Table.merged insertCurrentTokenDatasV2Query (prior.lookup token) row).or
      (prior.lookup token) = mid
  have hbound : ∀ p, mid = some p →
      p.lastTransactionVersion ≤ deleted.lastTransactionVersion := by
    intro p hp
    rw [← hmid] at hp
    cases hl : batch.currentTokenDatasV2.lookup token with
    | none =>
      rw [hl] at hp
      exact hprior p hp
    | some l =>
      rw [hl, Option.map_some, Option.some_or] at hp
      obtain rfl := Option.some.inj hp
      cases hq : prior.lookup token with
      | none => exact hlive l hl
      | some q =>
        show (insertCurrentTokenDatasV2Query q l).lastTransactionVersion ≤ _
        unfold insertCurrentTokenDatasV2Query
        split
        · exact hlive l hl
        · exact hprior q hq
  have hview := view_merged_deleted deleted hbound
  exact ⟨_, rfl, congrArg TokenDataView.isDeletedV2 hview, congrArg TokenDataView.version hview⟩

end Row

/-! ## Runs -/

/-- What the stored row of a token says, by the last operation on it. -/
structure FlagInv (sdk : TokenSdk) (token : String) (st : DataState) : Prop where
  none : lastOp sdk token st.history = none → st.table.lookup token = none
  write : lastOp sdk token st.history = some .write → ∀ row, st.table.lookup token = some row →
    row.isDeletedV2 ≠ some true
  burn : lastOp sdk token st.history = some .burn → ∀ row, st.table.lookup token = some row →
    row.isDeletedV2 = some true
  versions : ∀ row, st.table.lookup token = some row →
    ∃ txn ∈ st.history, txn.txnVersion = row.lastTransactionVersion

/-- The row of a kind that has a version. -/
theorem exists_row_of_dataVersion {rows : ParseState} {kind : RowKind} {v : Int64}
    (h : rows.dataVersion token kind = some v) :
    ∃ row, (rows.tokenDatas kind).lookup token = some row ∧ row.lastTransactionVersion = v :=
  Option.map_eq_some_iff.mp h

/-- A row that shows the last operation. -/
theorem flagInv_of_row {st : DataState} {row : CurrentTokenDataV2} {op : TokenOp}
    (hop : lastOp sdk token st.history = some op) (hrow : st.table.lookup token = some row)
    (hflag : row.isDeletedV2 = some true ↔ op = .burn)
    (hversion : ∃ txn ∈ st.history, txn.txnVersion = row.lastTransactionVersion) :
    FlagInv sdk token st := by
  refine ⟨fun hn => ?_, fun hw row' hrow' => ?_, fun hb row' hrow' => ?_, fun row' hrow' => ?_⟩
  · cases hop.symm.trans hn
  · obtain rfl := Option.some.inj (hop.symm.trans hw)
    obtain rfl := Option.some.inj (hrow.symm.trans hrow')
    exact fun hdeleted => by cases hflag.mp hdeleted
  · obtain rfl := Option.some.inj (hop.symm.trans hb)
    obtain rfl := Option.some.inj (hrow.symm.trans hrow')
    exact hflag.mpr rfl
  · obtain rfl := Option.some.inj (hrow.symm.trans hrow')
    exact hversion

theorem flagInv_storeTokenDatas
    (hstd : ∀ s, sdk.standardizeAddress (sdk.standardizeAddress s) = sdk.standardizeAddress s)
    {st st' : DataState} {batch : ParseContext × List Protos.Transaction}
    (hstep : storeTokenDatas sdk st batch = some st') (hord : InOrder st'.history)
    (hclean : NoRecreation sdk token st batch) (h : FlagInv sdk token st) :
    FlagInv sdk token st' := by
  obtain ⟨rows, hrows, hst'⟩ := Option.bind_eq_some_iff.mp hstep
  obtain rfl := Option.some.inj hst'
  obtain ⟨-, hordBatch, hcross⟩ := List.pairwise_append.mp hord
  have htracks := tracks_parseV2Token hstd hrows hordBatch hclean
  have hdata := dataRows_parseV2Token hrows
  have hop : lastOp sdk token (st.history ++ batch.2) =
      (lastOp sdk token batch.2).or (lastOp sdk token st.history) := lastOp_append _ _
  -- A stored row is older than every row of the batch.
  have hstored : ∀ p, st.table.lookup token = some p → ∀ kind row,
      (rows.tokenDatas kind).lookup token = some row →
      p.lastTransactionVersion ≤ row.lastTransactionVersion := by
    intro p hp kind row hrow
    obtain ⟨t, ht, htv⟩ := h.versions p hp
    obtain ⟨t', ht', htv'⟩ := htracks.versions kind row.lastTransactionVersion
      (Option.map_eq_some_iff.mpr ⟨row, hrow, rfl⟩)
    rw [← htv, ← htv']
    exact (hcross t ht t' ht').le
  have hversions : ∀ kind row, (rows.tokenDatas kind).lookup token = some row →
      ∃ txn ∈ st.history ++ batch.2, txn.txnVersion = row.lastTransactionVersion := by
    intro kind row hrow
    obtain ⟨t, ht, htv⟩ := htracks.versions kind row.lastTransactionVersion
      (Option.map_eq_some_iff.mpr ⟨row, hrow, rfl⟩)
    exact ⟨t, List.mem_append_right _ ht, htv⟩
  have hold : ∀ row, st.table.lookup token = some row →
      ∃ txn ∈ st.history ++ batch.2, txn.txnVersion = row.lastTransactionVersion := by
    intro row hrow
    obtain ⟨t, ht, htv⟩ := h.versions row hrow
    exact ⟨t, List.mem_append_left _ ht, htv⟩
  cases hbatch : lastOp sdk token batch.2 with
  | none =>
    have hsame := lookup_executeTokenDatas_of_none st.table (htracks.none hbatch)
    rw [hbatch, Option.none_or] at hop
    refine ⟨fun hn => ?_, fun hw row hrow => ?_, fun hb row hrow => ?_, fun row hrow => ?_⟩
    · exact hsame.trans (h.none (hop.symm.trans hn))
    · exact h.write (hop.symm.trans hw) row (hsame.symm.trans hrow)
    · exact h.burn (hop.symm.trans hb) row (hsame.symm.trans hrow)
    · exact hold row (hsame.symm.trans hrow)
  | some op =>
    rw [hbatch, Option.some_or] at hop
    cases op with
    | write =>
      obtain ⟨v, hv, hd⟩ := htracks.write hbatch
      obtain ⟨live, hlive, hlv⟩ := exists_row_of_dataVersion hv
      obtain ⟨row, hrow, hflag, hversion⟩ := lookup_live_last hlive (hdata.live token live hlive)
        (fun p hp => ⟨hstored p hp .live live hlive, hclean.unmarked hbatch p hp⟩)
        (fun d hdl => hlv ▸ hd _ (Option.map_eq_some_iff.mpr ⟨d, hdl, rfl⟩))
      refine flagInv_of_row hop hrow ⟨fun hdeleted => absurd hdeleted hflag, fun hb => ?_⟩ ?_
      · cases hb
      · rw [hversion]
        exact hversions .live live hlive
    | burn =>
      rcases htracks.burn hbatch with ⟨v, hv, hl⟩ | ⟨hnone, hbefore⟩
      · obtain ⟨deleted, hdeleted, hdv⟩ := exists_row_of_dataVersion hv
        obtain ⟨row, hrow, hflag, hversion⟩ := lookup_deleted_last hdeleted
          (fun p hp => hstored p hp .deleted deleted hdeleted)
          (fun l hlv => (hdv ▸ hl _ (Option.map_eq_some_iff.mpr ⟨l, hlv, rfl⟩)).le)
        refine flagInv_of_row hop hrow ⟨fun _ => rfl, fun _ => ?_⟩ ?_
        · rw [hflag]
          exact (hdata.deleted token deleted hdeleted).1
        · rw [hversion]
          exact hversions .deleted deleted hdeleted
      · -- Nothing was deleted: the token was not in existence before the batch.
        have hsame := lookup_executeTokenDatas_of_none st.table hnone
        refine ⟨fun hn => ?_, fun hw => ?_, fun _ row' hrow' => ?_, fun row' hrow' => ?_⟩
        · cases hop.symm.trans hn
        · cases hop.symm.trans hw
        · have hrow := hsame.symm.trans hrow'
          cases hprev : lastOp sdk token st.history with
          | none => rw [h.none hprev] at hrow; cases hrow
          | some op =>
            cases op with
            | write => exact absurd hprev hbefore
            | burn => exact h.burn hprev row' hrow
        · exact hold row' (hsame.symm.trans hrow')

/-- **The deletion flag is current**, where no token marked as deleted is written
again and no transaction burns a token and writes it. -/
theorem deletion_flag_current (sdk : TokenSdk)
    (hstd : ∀ s, sdk.standardizeAddress (sdk.standardizeAddress s) = sdk.standardizeAddress s)
    (token : String) (batches : List (ParseContext × List Protos.Transaction)) (st : DataState)
    (hrun : Run (storeTokenDatas sdk) (NoRecreation sdk token) DataState.init batches st)
    (hord : InOrder st.history) (row : CurrentTokenDataV2)
    (hrow : st.table.lookup token = some row) :
    row.isDeletedV2 = some true ↔ lastOp sdk token st.history = some .burn := by
  have hinv : InOrder st.history → FlagInv sdk token st := by
    refine hrun.invariant (P := fun st => InOrder st.history → FlagInv sdk token st) ?_ ?_
    · intro _
      refine ⟨fun _ => rfl, fun h => ?_, fun h => ?_, fun row hrow => ?_⟩
      · cases h
      · cases h
      · cases hrow
    · intro s batch s' hs hclean hstep hord'
      refine flagInv_storeTokenDatas hstd hstep hord' hclean (hs ?_)
      obtain ⟨rows, -, hs'⟩ := Option.bind_eq_some_iff.mp hstep
      obtain rfl := Option.some.inj hs'
      exact (List.pairwise_append.mp hord').1
  have h := hinv hord
  cases hop : lastOp sdk token st.history with
  | none =>
    rw [h.none hop] at hrow
    cases hrow
  | some op =>
    cases op with
    | write =>
      refine ⟨fun hflag => absurd hflag (h.write hop row hrow), fun heq => ?_⟩
      cases heq
    | burn => exact ⟨fun _ => rfl, fun _ => h.burn hop row hrow⟩

/-- A batch of one transaction. -/
theorem noRecreation_singleton {st : DataState} {ctx : ParseContext} {txn : Protos.Transaction}
    (hv1 : NamesNoV1 sdk token txn)
    (hcore : writesToken sdk token txn = true → (lastCore sdk token (readChanges txn)).isSome)
    (hdeletes : burnsToken sdk token txn = true → changesToken sdk token txn = true)
    (hapart : ¬ (writesToken sdk token txn = true ∧ burnsToken sdk token txn = true))
    (hunmarked : tokenOp sdk token txn = some .write → ∀ row,
      st.table.lookup token = some row → row.isDeletedV2 ≠ some true) :
    NoRecreation sdk token st (ctx, [txn]) := by
  refine ⟨?_, ?_, ?_, ?_, ?_⟩
  · intro t ht
    rwa [List.mem_singleton.mp ht]
  · intro t ht
    rwa [List.mem_singleton.mp ht]
  · intro done t hdone hburns _
    obtain ⟨rfl, rfl⟩ := prefix_concat_singleton hdone
    exact hdeletes hburns
  · intro t ht
    rwa [List.mem_singleton.mp ht]
  · intro hop
    rw [lastOp_singleton] at hop
    exact hunmarked hop

/-- A token that is minted and then burned is marked. -/
theorem deletion_flag_current_burned :
    ∃ st, Run (storeTokenDatas lifeSdk) (NoRecreation lifeSdk tokenAddress) DataState.init
        [(emptyContext, [mintTxn 1]), (emptyContext, [oldBurnTxn 3])] st ∧
      ∃ row, st.table.lookup tokenAddress = some row ∧ row.isDeletedV2 = some true := by
  have heval : ([(emptyContext, [mintTxn 1]), (emptyContext, [oldBurnTxn 3])].foldlM
      (storeTokenDatas lifeSdk) DataState.init).map (fun st =>
        ((st.table.lookup tokenAddress).isSome, lastOp lifeSdk tokenAddress st.history,
          decide (InOrder st.history))) = some (true, some .burn, true) := by decide +kernel
  obtain ⟨st, hst, hfacts⟩ := Option.map_eq_some_iff.mp heval
  obtain ⟨hsome, hfacts⟩ := Prod.mk.inj hfacts
  obtain ⟨hop, hord⟩ := Prod.mk.inj hfacts
  rw [List.foldlM_cons] at hst
  obtain ⟨minted, hminted, hst⟩ := Option.bind_eq_some_iff.mp hst
  rw [List.foldlM_cons] at hst
  obtain ⟨burned, hburned, hst⟩ := Option.bind_eq_some_iff.mp hst
  obtain rfl := Option.some.inj hst
  have hmint : NoRecreation lifeSdk tokenAddress DataState.init (emptyContext, [mintTxn 1]) := by
    refine noRecreation_singleton (by decide +kernel) (by decide +kernel) (by decide +kernel)
      (by decide +kernel) ?_
    intro _ row hrow
    cases hrow
  have hburn : NoRecreation lifeSdk tokenAddress minted (emptyContext, [oldBurnTxn 3]) := by
    refine noRecreation_singleton (by decide +kernel) (by decide +kernel) (by decide +kernel)
      (by decide +kernel) ?_
    intro hwrite
    exact absurd hwrite (by decide +kernel)
  have hrun := (Run.nil.snoc hmint hminted).snoc hburn hburned
  obtain ⟨row, hrow⟩ := Option.isSome_iff_exists.mp hsome
  refine ⟨burned, hrun, row, hrow, ?_⟩
  exact (deletion_flag_current lifeSdk lifeSdk_standardizeAddress tokenAddress _ burned hrun
    (of_decide_eq_true hord) row hrow).mpr hop

/-- A token that is minted again after its burn keeps the mark. -/
theorem deletion_flag_of_recreated :
    ∃ st, Run (storeTokenDatas lifeSdk) (fun _ _ => True) DataState.init
        [(emptyContext, [mintTxn 1]), (emptyContext, [oldBurnTxn 3]), (emptyContext, [mintTxn 5])]
        st ∧
      InOrder st.history ∧
      (st.table.lookup tokenAddress).map (·.isDeletedV2) = some (some true) ∧
      lastOp lifeSdk tokenAddress st.history = some .write := by
  have heval : ([(emptyContext, [mintTxn 1]), (emptyContext, [oldBurnTxn 3]),
      (emptyContext, [mintTxn 5])].foldlM (storeTokenDatas lifeSdk) DataState.init).map (fun st =>
        ((st.table.lookup tokenAddress).map (·.isDeletedV2),
          lastOp lifeSdk tokenAddress st.history, decide (InOrder st.history))) =
      some (some (some true), some .write, true) := by decide +kernel
  obtain ⟨st, hst, hfacts⟩ := Option.map_eq_some_iff.mp heval
  obtain ⟨hflag, hfacts⟩ := Prod.mk.inj hfacts
  obtain ⟨hop, hord⟩ := Prod.mk.inj hfacts
  have hrun := Run.append_foldlM Run.nil hst
  exact ⟨st, hrun, of_decide_eq_true hord, hflag, hop⟩

end IndexerProcessors.TokenV2

import IndexerProcessors.Lib.Backlog
import IndexerProcessors.Lib.Run
import IndexerProcessors.Stake.Balances

/-!
# The parents of share tables

A row of `current_delegator_balances` says which table its share table belongs to:
an active one stands for itself, an inactive one is listed in the table of inactive
pools of its staking pool. The processor relies on that column when it is given a
share table of a pool it does not know: it asks for any row with the same parent and
takes its pool.

`inactive_parent_invariant` — as long as no batch ends with the deletion of inactive
shares, every inactive row ever stored has its pool's table of inactive pools as its
parent, and the question is answered with the right pool from the first such row on.
`deleted_share_orphaned` — a deletion stores the share table itself as the parent, and
the pool is not found any more.
-/

namespace IndexerProcessors.Stake

open IndexerProcessors.Lib
open IndexerProcessors.Protos

variable {sdk : StakeSdk} {conn : Conn} {queryRetries : ℕ}

abbrev BalanceTable := Table BalanceKey CurrentDelegatorBalance

/-! ## Tables on chain -/

/-- The tables of the delegation pools: the handles a pool is created with stay, and no
two tables have one handle. -/
structure PoolTables where
  active : String → Option String
  inactive : String → Option String
  inactive_injective : ∀ p q handle, inactive p = some handle → inactive q = some handle → p = q
  active_ne_inactive : ∀ p q handle, active p = some handle → inactive q ≠ some handle

/-- The table a share table of a pool belongs to. -/
def PoolTables.parent (tables : PoolTables) : PoolType → String → Option String
  | .active => tables.active
  | .inactive => tables.inactive

/-- A change that agrees with the tables: a delegation pool names its own two, and
inactive pools are not items of a table of shares. -/
def PoolTables.Fits (tables : PoolTables) (sdk : StakeSdk) : Protos.Change → Prop
  | .writeResource wr _ => ∀ inner,
      StakeResource.fromWriteResource sdk wr = some (some (.delegationPool inner)) →
        tables.active (sdk.standardizeAddress wr.address) = some inner.activeShares.sharesHandle ∧
        tables.inactive (sdk.standardizeAddress wr.address) = some inner.inactiveSharesHandle
  | .writeTableItem item => ∀ data, item.data = some data → data.valueType = poolValueType →
      ∀ p, tables.active p ≠ some (sdk.standardizeAddress item.handle)
  | _ => True

/-- A row that has the right parent. -/
def PoolTables.Parented (tables : PoolTables) (row : CurrentDelegatorBalance) : Prop :=
  tables.parent row.poolType row.poolAddress = some row.parentTableHandle

/-! ## The system -/

/-- The rows extracted so far, those that wait to be stored, and the table. -/
abbrev BalanceStore := Backlog BalanceKey CurrentDelegatorBalance

inductive BalanceAction where
  /-- A batch is extracted, with these answers from the database. -/
  | extract (conn : Conn) (batch : List Protos.Transaction)
  /-- One of the rows that wait is stored. -/
  | store (index : ℕ)

def balanceStep (sdk : StakeSdk) (queryRetries : ℕ) (st : BalanceStore) :
    BalanceAction → Option BalanceStore
  | .extract conn batch => do
    let out ← parseStakeData sdk conn queryRetries batch
    return st.add (out.currentDelegatorBalances.rows.map Prod.snd)
  | .store index => st.store CurrentDelegatorBalance.pk balanceQuery index

/-- A row `get_by_inactive_share_handle` can return in a state of the table. -/
def FoundByParent (table : BalanceTable) (handle : String) (row : CurrentDelegatorBalance) : Prop :=
  row.parentTableHandle = handle ∧ ∃ key, table.lookup key = some row

/-- The batch is of this chain, and a query that is answered is answered with a row of
a state of the table; it may as well fail. -/
def BalancePossible (sdk : StakeSdk) (tables : PoolTables) (st : BalanceStore) :
    BalanceAction → Prop
  | .extract conn batch =>
    (∀ txn ∈ batch, ∀ changes, txn.info = some changes →
      ∀ change ∈ changes, tables.Fits sdk change) ∧
    ∀ txnVersion index handle tried row,
      conn.byInactiveShareHandle txnVersion index handle tried = some row →
        ∃ table ∈ st.states, FoundByParent table handle row
  | .store _ => True

/-- No delegator's last change to inactive shares of a pool is a deletion. -/
def EndsNotDeleted (out : ParseState) : Prop :=
  ∀ key d, (out.derived.filter fun d => d.current.mapKey = key).getLast? = some d →
    d.current.poolType = .inactive → ∀ item, d.change ≠ .deleteTableItem item

/-- The batch does not end with a deletion of inactive shares. -/
def KeepsInactive (sdk : StakeSdk) (queryRetries : ℕ) : BalanceAction → Prop
  | .extract conn batch => ∀ out, parseStakeData sdk conn queryRetries batch = some out →
      EndsNotDeleted out
  | .store _ => True

/-! ## Rows of a batch -/

variable {tables : PoolTables}

/-- The map of active shares names pools by their tables. -/
def ActiveOk (tables : PoolTables) (active : ShareToStakingPoolMapping) : Prop :=
  ∀ handle balance, active.lookup handle = some balance →
    tables.active balance.stakingPoolAddress = some handle

/-- So do the maps of a transaction; a table of inactive pools is no share table. -/
structure InactiveMaps.Ok (tables : PoolTables) (maps : InactiveMaps) : Prop where
  pools : ∀ handle balance, maps.poolToStakingPool.lookup handle = some balance →
    tables.inactive balance.stakingPoolAddress = some handle
  shares : ∀ handle balance, maps.shareToPool.lookup handle = some balance →
    ∀ p, tables.active p ≠ some balance.parentTableHandle

/-- The metadata of a delegation pool has its address and its handles. -/
theorem metadata_of_fits {wr : WriteResource} {params : List MoveType} {txnVersion : Int64}
    {balance : DelegatorPoolBalanceMetadata} (hfits : tables.Fits sdk (.writeResource wr params))
    (h : getDelegatedPoolMetadataFromWriteResource sdk wr txnVersion = some (some balance)) :
    tables.active balance.stakingPoolAddress = some balance.activeShareTableHandle ∧
      tables.inactive balance.stakingPoolAddress = some balance.inactiveShareTableHandle := by
  obtain ⟨resource, hresource, h⟩ := Option.bind_eq_some_iff.mp h
  match resource, h with
  | some (.delegationPool inner), h =>
    obtain ⟨totalShares, -, h⟩ := Option.bind_eq_some_iff.mp h
    obtain rfl := Option.some.inj (Option.some.inj h)
    exact hfits inner hresource

theorem addMetadata_activeOk {txnVersion : Int64} {st st' : ParseState} {change : Protos.Change}
    (hst : ActiveOk tables st.activePoolToStakingPool) (hfits : tables.Fits sdk change)
    (h : addMetadata sdk txnVersion st change = some st') :
    ActiveOk tables st'.activePoolToStakingPool := by
  cases change with
  | writeResource wr params =>
    obtain ⟨handle, -, h⟩ := Option.bind_eq_some_iff.mp h
    obtain ⟨balance, hbalance, h⟩ := Option.bind_eq_some_iff.mp h
    obtain rfl := Option.some.inj h
    refine Table.insertAll_forall hst ?_
    intro row hrow
    obtain ⟨b, hb, rfl⟩ := List.mem_map.mp hrow
    obtain rfl := Option.mem_toList.mp hb
    exact (metadata_of_fits hfits hbalance).1
  | deleteResource | writeTableItem | deleteTableItem | other =>
    obtain rfl := Option.some.inj h
    exact hst

theorem InactiveMaps.add_ok {txnVersion : Int64} {maps maps' : InactiveMaps}
    {change : Protos.Change} (hmaps : maps.Ok tables) (hfits : tables.Fits sdk change)
    (h : maps.add sdk txnVersion change = some maps') : maps'.Ok tables := by
  cases change with
  | writeResource wr params =>
    obtain ⟨balance, hbalance, h⟩ := Option.bind_eq_some_iff.mp h
    obtain rfl := Option.some.inj h
    refine ⟨Table.insertAll_forall hmaps.pools ?_, hmaps.shares⟩
    intro row hrow
    obtain ⟨b, hb, rfl⟩ := List.mem_map.mp hrow
    obtain rfl := Option.mem_toList.mp hb
    exact (metadata_of_fits hfits hbalance).2
  | writeTableItem item =>
    obtain ⟨balance, hbalance, h⟩ := Option.bind_eq_some_iff.mp h
    obtain rfl := Option.some.inj h
    refine ⟨hmaps.pools, Table.insertAll_forall hmaps.shares ?_⟩
    intro row hrow
    obtain ⟨b, hb, rfl⟩ := List.mem_map.mp hrow
    obtain rfl := Option.mem_toList.mp hb
    obtain ⟨data, hdata, hbalance⟩ := Option.bind_eq_some_iff.mp hbalance
    split at hbalance
    next htype =>
      obtain ⟨v, -, hbalance⟩ := Option.bind_eq_some_iff.mp hbalance
      obtain ⟨inner, -, hbalance⟩ := Option.bind_eq_some_iff.mp hbalance
      obtain ⟨totalShares, -, hbalance⟩ := Option.bind_eq_some_iff.mp hbalance
      obtain rfl := Option.some.inj (Option.some.inj hbalance)
      exact hfits data hdata htype
    next => cases hbalance
  | deleteResource | deleteTableItem | other =>
    obtain rfl := Option.some.inj h
    exact hmaps

/-- The handles a transaction is read with are those of the chain. -/
theorem parseTransaction_activeOk {st st' : ParseState} {txn : Protos.Transaction}
    (hst : ActiveOk tables st.activePoolToStakingPool)
    (hfits : ∀ changes, txn.info = some changes → ∀ change ∈ changes, tables.Fits sdk change)
    (h : parseTransaction sdk conn queryRetries st txn = some st') :
    ActiveOk tables st'.activePoolToStakingPool := by
  obtain ⟨timestamp, changes, st₁, st₂, st₃, -, hinfo, hst₁, hst₂, hst₃, h⟩ :=
    parseTransaction_eq_some h
  have hactive : ActiveOk tables st₁.activePoolToStakingPool := by
    refine foldlM_invariant (P := fun s => ActiveOk tables s.activePoolToStakingPool) hst₁ hst ?_
    intro change hchange s s' hs hstep
    exact addMetadata_activeOk hs (hfits changes hinfo change hchange) hstep
  obtain ⟨derived, -, hst₂⟩ := Option.bind_eq_some_iff.mp hst₂
  obtain rfl := Option.some.inj hst₂
  obtain ⟨voters, rfl⟩ := foldlM_voters_frame (fun _ _ _ => addVoters_frame) hst₃
  obtain ⟨voters', rfl⟩ := foldlM_voters_frame (fun _ _ _ => addDefaultVoter_frame) h
  exact hactive

/-- What is known of the rows a query returns. -/
def Conn.Parented (tables : PoolTables) (conn : Conn) : Prop :=
  ∀ txnVersion index handle tried row,
    conn.byInactiveShareHandle txnVersion index handle tried = some row →
      tables.Parented row ∧ row.parentTableHandle = handle

/-- The pool of a table of inactive pools is found in the transaction or through a
row that names the table as its parent. -/
theorem inactiveStakingPool_parent {txnVersion : Int64} {index : ℕ} {maps : InactiveMaps}
    {handle poolAddress : String} (hmaps : maps.Ok tables) (hconn : conn.Parented tables)
    (hhandle : ∀ p, tables.active p ≠ some handle)
    (h : inactiveStakingPool conn queryRetries txnVersion index maps.poolToStakingPool handle =
      some poolAddress) : tables.inactive poolAddress = some handle := by
  unfold inactiveStakingPool at h
  split at h
  next balance hbalance =>
    obtain rfl := Option.some.inj h
    exact hmaps.pools handle balance hbalance
  next =>
    obtain ⟨row, hrow, rfl⟩ := Option.map_eq_some_iff.mp h
    obtain ⟨tried, htried⟩ := exists_of_retried hrow
    obtain ⟨hparented, hparent⟩ := hconn _ _ _ _ _ htried
    unfold PoolTables.Parented at hparented
    cases htype : row.poolType with
    | active =>
      rw [htype, hparent] at hparented
      exact absurd hparented (hhandle row.poolAddress)
    | inactive =>
      rw [htype, hparent] at hparented
      exact hparented

/-- Every row has the right parent, but those of deleted inactive shares. -/
theorem BalanceOf.parented {txnVersion : Int64} {active : ShareToStakingPoolMapping}
    {maps : InactiveMaps} {index : ℕ} {change : Protos.Change}
    {rows : DelegatorBalance × CurrentDelegatorBalance} (hactive : ActiveOk tables active)
    (hmaps : maps.Ok tables) (hconn : conn.Parented tables)
    (h : BalanceOf sdk conn queryRetries txnVersion active maps index change rows) :
    tables.Parented rows.2 ∨
      rows.2.poolType = .inactive ∧ ∃ item, change = .deleteTableItem item := by
  cases h with
  | active hpool => exact Or.inl (hactive _ _ hpool)
  | inactiveWrite hshare hpool =>
    exact Or.inl (inactiveStakingPool_parent hmaps hconn (hmaps.shares _ _ hshare) hpool)
  | inactiveDelete hshare hpool hrows =>
    subst hrows
    exact Or.inr ⟨rfl, _, rfl⟩

/-- The rows of a batch. -/
theorem derived_parented {batch : List Protos.Transaction} {out : ParseState}
    (hfits : ∀ txn ∈ batch, ∀ changes, txn.info = some changes →
      ∀ change ∈ changes, tables.Fits sdk change)
    (hconn : conn.Parented tables)
    (h : parseStakeData sdk conn queryRetries batch = some out) :
    ∀ d ∈ out.derived, tables.Parented d.current ∨
      d.current.poolType = .inactive ∧ ∃ item, d.change = .deleteTableItem item := by
  have hinv : ActiveOk tables out.activePoolToStakingPool ∧
      ∀ d ∈ out.derived, tables.Parented d.current ∨
        d.current.poolType = .inactive ∧ ∃ item, d.change = .deleteTableItem item := by
    refine foldlM_invariant (P := fun st => ActiveOk tables st.activePoolToStakingPool ∧
      ∀ d ∈ st.derived, tables.Parented d.current ∨
        d.current.poolType = .inactive ∧ ∃ item, d.change = .deleteTableItem item) h ?_ ?_
    · refine ⟨?_, by simp [ParseState.init]⟩
      intro handle balance hlookup
      cases (AList.lookup_empty handle).symm.trans hlookup
    · intro txn htxn st st' hst hstep
      have hactive := parseTransaction_activeOk hst.1 (hfits txn htxn) hstep
      refine ⟨hactive, ?_⟩
      obtain ⟨derived, hfrom, hderived, -⟩ := parseTransaction_balances hstep
      rw [hderived]
      intro d hd
      rcases List.mem_append.mp hd with hd | hd
      · exact hst.2 d hd
      -- The maps of the inactive tables are filled first, from all changes of the transaction.
      · obtain ⟨changes, maps, hinfo, hmaps, hof⟩ := fromTransaction_eq_some hfrom
        obtain ⟨index, -, hbalance⟩ := hof d hd
        have hok : maps.Ok tables := by
          refine foldlM_invariant (P := InactiveMaps.Ok tables) hmaps ?_ ?_
          · constructor
            · intro handle balance hlookup
              cases (AList.lookup_empty handle).symm.trans hlookup
            · intro handle balance hlookup
              cases (AList.lookup_empty handle).symm.trans hlookup
          · intro change hchange s s' hs hadd
            exact InactiveMaps.add_ok hs (hfits txn htxn changes hinfo change hchange) hadd
        exact hbalance.parented hactive hok hconn
  exact hinv.2

/-- A batch that does not end with a deletion keeps rows with the right parent only. -/
theorem kept_parented {batch : List Protos.Transaction} {out : ParseState}
    (h : parseStakeData sdk conn queryRetries batch = some out)
    (hderived : ∀ d ∈ out.derived, tables.Parented d.current ∨
      d.current.poolType = .inactive ∧ ∃ item, d.change = .deleteTableItem item)
    (hends : EndsNotDeleted out) :
    ∀ row ∈ out.currentDelegatorBalances.rows.map Prod.snd, tables.Parented row := by
  intro row hrow
  obtain ⟨⟨key, row⟩, hentry, rfl⟩ := List.mem_map.mp hrow
  have hlast := Table.mem_rows.mp hentry
  rw [parseStakeData_collects h key, ParseState.rows, List.filter_map, List.getLast?_map] at hlast
  obtain ⟨d, hd, rfl⟩ := Option.map_eq_some_iff.mp hlast
  rcases hderived d (List.mem_filter.mp (List.mem_of_getLast? hd)).1 with hparented | hdeleted
  · exact hparented
  · obtain ⟨htype, item, hitem⟩ := hdeleted
    exact absurd hitem (hends key d hd htype item)

/-! ## Runs -/

/-- What holds in every state: the rows extracted so far have their parents. -/
structure BalancesSound (tables : PoolTables) (st : BalanceStore) : Prop where
  backlog : st.Ok CurrentDelegatorBalance.pk (·.lastTransactionVersion)
  extracted : ∀ row ∈ st.extracted, tables.Parented row

/-- So have the rows of every state of the table. -/
theorem BalancesSound.stored {st : BalanceStore} (hst : BalancesSound tables st)
    {table : BalanceTable} (htable : table ∈ st.states) {key : BalanceKey}
    {row : CurrentDelegatorBalance} (hrow : table.lookup key = some row) :
    row.pk = key ∧ tables.Parented row := by
  obtain ⟨hpk, hmem⟩ := hst.backlog.stored table htable key row hrow
  exact ⟨hpk, hst.extracted row hmem⟩

theorem sound_extract {st st' : BalanceStore} {batch : List Protos.Transaction}
    (hst : BalancesSound tables st)
    (hpossible : BalancePossible sdk tables st (.extract conn batch))
    (hkeeps : KeepsInactive sdk queryRetries (.extract conn batch))
    (h : balanceStep sdk queryRetries st (.extract conn batch) = some st') :
    BalancesSound tables st' := by
  obtain ⟨out, hout, h⟩ := Option.bind_eq_some_iff.mp h
  obtain rfl := Option.some.inj h
  refine ⟨hst.backlog.add _, ?_⟩
  intro row hrow
  rcases List.mem_append.mp hrow with hrow | hrow
  · exact hst.extracted row hrow
  · have hconn : conn.Parented tables := by
      intro txnVersion index handle tried row hanswer
      obtain ⟨table, htable, hparent, key, hlookup⟩ :=
        hpossible.2 txnVersion index handle tried row hanswer
      exact ⟨(hst.stored htable hlookup).2, hparent⟩
    exact kept_parented hout (derived_parented hpossible.1 hconn hout) (hkeeps out hout) row hrow

theorem sound_store {st st' : BalanceStore} {index : ℕ} (hst : BalancesSound tables st)
    (h : balanceStep sdk queryRetries st (.store index) = some st') : BalancesSound tables st' := by
  refine ⟨hst.backlog.store (fun _ _ => balanceQuery_eq_later) h, ?_⟩
  obtain ⟨row, -, h⟩ := Option.bind_eq_some_iff.mp h
  obtain rfl := Option.some.inj h
  exact hst.extracted

/-- What one try of `get_by_inactive_share_handle` returns in a state of the table, when
the database answers: some row with that parent, or none if there is none. -/
def AnswersByParent (table : BalanceTable) (handle : String) :
    Option CurrentDelegatorBalance → Prop
  | some row => FoundByParent table handle row
  | none => ∀ row, ¬ FoundByParent table handle row

/-- In a sound state the query for the table of a pool with inactive rows finds it. -/
theorem BalancesSound.query {st : BalanceStore} (hst : BalancesSound tables st)
    {table : BalanceTable} (htable : table ∈ st.states) {key : BalanceKey}
    {row : CurrentDelegatorBalance} (hrow : table.lookup key = some row)
    (htype : row.poolType = .inactive) {handle : String}
    (hhandle : tables.inactive row.poolAddress = some handle)
    {answer : Option CurrentDelegatorBalance}
    (hanswer : AnswersByParent st.table handle answer) :
    answer.map (·.poolAddress) = some row.poolAddress := by
  cases answer with
  | some found =>
    obtain ⟨hparent, key', hlookup⟩ := hanswer
    have hparented := (hst.stored st.mem_states hlookup).2
    unfold PoolTables.Parented at hparented
    rw [hparent] at hparented
    cases hfound : found.poolType with
    | active =>
      rw [hfound] at hparented
      exact absurd hhandle (tables.active_ne_inactive _ _ _ hparented)
    | inactive =>
      rw [hfound] at hparented
      exact congrArg some (tables.inactive_injective _ _ _ hparented hhandle)
  | none =>
    -- the row has stayed under its key, which has the pool and the type
    obtain ⟨row', hrow'⟩ := hst.backlog.stays table htable key row hrow
    obtain ⟨hpk, hparented⟩ := hst.stored st.mem_states hrow'
    have hsame : row'.mapKey = row.mapKey :=
      congrArg Prod.fst (hpk.trans (hst.stored htable hrow).1.symm)
    have hpool : row'.poolAddress = row.poolAddress := congrArg (·.2.1) hsame
    have htype' : row'.poolType = .inactive := (congrArg (·.2.2) hsame).trans htype
    unfold PoolTables.Parented at hparented
    rw [htype', hpool] at hparented
    have hparent : handle = row'.parentTableHandle :=
      Option.some.inj (hhandle.symm.trans hparented)
    exact absurd ⟨hparent.symm, key, hrow'⟩ (hanswer row')

/-- **The parents of inactive rows.** In every state of a run whose batches do not end
with a deletion of inactive shares, every inactive row has the table of its pool's
inactive pools as its parent; and once one has been stored, the pool is found by it. -/
theorem inactive_parent_invariant {actions : List BalanceAction} {st : BalanceStore}
    (hrun : Run (balanceStep sdk queryRetries)
      (fun st action => BalancePossible sdk tables st action ∧
        KeepsInactive sdk queryRetries action) Backlog.init actions st) :
    (∀ key row, st.table.lookup key = some row → row.poolType = .inactive →
      tables.inactive row.poolAddress = some row.parentTableHandle) ∧
    ∀ table ∈ st.states, ∀ key row, table.lookup key = some row → row.poolType = .inactive →
      ∀ handle, tables.inactive row.poolAddress = some handle →
        ∀ query : ℕ → Option CurrentDelegatorBalance,
          (∀ tried, AnswersByParent st.table handle (query tried)) → ∀ tries, 0 < tries →
            getStakingPoolFromInactiveShareHandle query tries = some row.poolAddress := by
  have hsound : BalancesSound tables st := by
    refine hrun.invariant ⟨Backlog.ok_init, by simp [Backlog.init]⟩ ?_
    rintro st action st' hst ⟨hpossible, hkeeps⟩ hstep
    cases action with
    | extract conn batch => exact sound_extract hst hpossible hkeeps hstep
    | store index => exact sound_store hst hstep
  refine ⟨?_, ?_⟩
  · intro key row hrow htype
    have hparented := (hsound.stored st.mem_states hrow).2
    unfold PoolTables.Parented at hparented
    rw [htype] at hparented
    exact hparented
  · intro table htable key row hrow htype handle hhandle query hquery tries htries
    have hfirst := hsound.query htable hrow htype hhandle (hquery 0)
    obtain ⟨found, hfound, hpool⟩ := Option.map_eq_some_iff.mp hfirst
    unfold getStakingPoolFromInactiveShareHandle
    rw [retried_of_first htries hfound]
    exact congrArg some hpool

/-! ### Shares that are deleted -/

/-- The tables of pool a. -/
def plainTables : PoolTables where
  active p := if p = address 'a' then some (address '2') else none
  inactive p := if p = address 'a' then some (address '3') else none
  inactive_injective := by
    intro p q handle hp hq
    split at hp
    next hpa =>
      split at hq
      next hqa => exact hpa.trans hqa.symm
      next => cases hq
    next => cases hp
  active_ne_inactive := by
    intro p q handle hp hq
    split at hp
    next =>
      split at hq
      next => exact absurd (hp.trans hq.symm) (by decide)
      next => cases hq
    next => cases hp

/-- The delegator unlocks 7 shares. -/
def unlockTxn : Protos.Transaction :=
  plainTxn 1 [writePool, writeInactivePool (address '4'), writeShares (address '4') "7"]

/-- The delegator withdraws them. -/
def withdrawTxn : Protos.Transaction :=
  plainTxn 2 [writePool, writeInactivePool (address '4'), deleteShares (address '4')]

theorem fits_writePool : plainTables.Fits plainSdk writePool := by
  intro inner hinner
  have hhandles : (StakeResource.fromWriteResource plainSdk ⟨address 'a',
      ⟨stakeAddr, "delegation_pool", "DelegationPool"⟩,
      stakeAddr ++ "::delegation_pool::DelegationPool",
      (delegationPoolDoc (address '2') (address '3')).1⟩).join.all (fun
        | .delegationPool inner => inner.activeShares.sharesHandle = address '2' ∧
            inner.inactiveSharesHandle = address '3'
        | .stakePool _ => false) = true := by
    decide +kernel
  rw [hinner] at hhandles
  obtain ⟨hactive, hinactive⟩ := of_decide_eq_true hhandles
  rw [hactive, hinactive]
  exact ⟨by decide, by decide⟩

theorem fits_plainTxns : ∀ txn ∈ [unlockTxn, withdrawTxn], ∀ changes, txn.info = some changes →
    ∀ change ∈ changes, plainTables.Fits plainSdk change := by
  have hinactive (sharesHandle : String) :
      plainTables.Fits plainSdk (writeInactivePool sharesHandle) := by
    intro data _ _ p hp
    dsimp only [plainTables] at hp
    split at hp
    next => exact absurd hp (by decide)
    next => cases hp
  have hshares (sharesHandle shares : String) :
      plainTables.Fits plainSdk (writeShares sharesHandle shares) := by
    intro data hdata htype
    obtain rfl := Option.some.inj hdata
    have hne : "u128" ≠ poolValueType := by decide
    exact absurd htype hne
  intro txn htxn changes hchanges change hchange
  rcases List.mem_pair.mp htxn with rfl | rfl
  · obtain rfl := Option.some.inj hchanges
    rcases List.mem_cons.mp hchange with rfl | hchange
    · exact fits_writePool
    · rcases List.mem_pair.mp hchange with rfl | rfl
      · exact hinactive _
      · exact hshares _ _
  · obtain rfl := Option.some.inj hchanges
    rcases List.mem_cons.mp hchange with rfl | hchange
    · exact fits_writePool
    · rcases List.mem_pair.mp hchange with rfl | rfl
      · exact hinactive _
      · trivial

/-- Without answers from the database such batches are possible in any state. -/
theorem possible_plain {batch : List Protos.Transaction} (hbatch : batch ⊆ [unlockTxn, withdrawTxn])
    (st : BalanceStore) : BalancePossible plainSdk plainTables st (.extract noAnswers batch) := by
  refine ⟨fun txn htxn => fits_plainTxns txn (hbatch htxn), ?_⟩
  intro txnVersion index handle tried row hrow
  cases hrow

theorem inactive_parent_unlock :
    ∃ (st : BalanceStore) (row : CurrentDelegatorBalance),
      st.table.lookup (sharesKey (address '4')) = some row ∧ row.poolType = .inactive ∧
      plainTables.inactive row.poolAddress = some row.parentTableHandle := by
  let actions := [BalanceAction.extract noAnswers [unlockTxn], .store 0]
  have hexec : ((actions.foldlM (balanceStep plainSdk 5) Backlog.init).any fun st =>
      (st.table.lookup (sharesKey (address '4'))).any fun row => row.poolType = .inactive) =
        true := by
    decide +kernel
  have hkeeps : (parseStakeData plainSdk noAnswers 5 [unlockTxn]).all (fun out =>
      out.derived.all fun d => d.change = writeShares (address '4') "7") = true := by
    decide +kernel
  obtain ⟨st, hst, hrow⟩ := (Option.any_eq_true _ _).mp hexec
  obtain ⟨row, hrow, hinactive⟩ := exists_of_any hrow
  have hrun : Run (balanceStep plainSdk 5) (fun st action =>
      BalancePossible plainSdk plainTables st action ∧ KeepsInactive plainSdk 5 action)
      Backlog.init actions st := by
    refine Run.imp_of_mem (Run.append_foldlM Run.nil hst) ?_
    intro action haction s _
    rcases List.mem_pair.mp haction with rfl | rfl
    · refine ⟨possible_plain (by simp) s, ?_⟩
      intro out hout key d hd _ item hitem
      rw [hout] at hkeeps
      have hwrite := List.all_eq_true.mp hkeeps d (List.mem_filter.mp (List.mem_of_getLast? hd)).1
      rw [of_decide_eq_true hwrite] at hitem
      cases hitem
    · exact ⟨trivial, trivial⟩
  exact ⟨st, row, hrow, hinactive, (inactive_parent_invariant hrun).1 _ row hrow hinactive⟩

/-- After the withdrawal the row of the shares has its own table as the parent, and no
row leads from the table of inactive pools to the pool. -/
theorem deleted_share_orphaned :
    ∃ st, Run (balanceStep plainSdk 5) (BalancePossible plainSdk plainTables) Backlog.init
        [.extract noAnswers [unlockTxn], .store 0, .extract noAnswers [withdrawTxn], .store 0] st ∧
      (∃ row, st.table.lookup (sharesKey (address '4')) = some row ∧ row.poolType = .inactive ∧
        row.parentTableHandle = address '4' ∧
        plainTables.inactive row.poolAddress = some (address '3')) ∧
      (∃ table ∈ st.states, ∃ row, table.lookup (sharesKey (address '4')) = some row ∧
        row.parentTableHandle = address '3') ∧
      AnswersByParent st.table (address '3') none := by
  let actions := [BalanceAction.extract noAnswers [unlockTxn], .store 0,
    .extract noAnswers [withdrawTxn], .store 0]
  have hexec : ((actions.foldlM (balanceStep plainSdk 5) Backlog.init).any fun st =>
      ((st.table.lookup (sharesKey (address '4'))).any fun row => row.poolType = .inactive ∧
        row.parentTableHandle = address '4' ∧
        plainTables.inactive row.poolAddress = some (address '3')) &&
      (st.states.any fun table => (table.lookup (sharesKey (address '4'))).any fun row =>
        row.parentTableHandle = address '3') &&
      st.table.rows.all fun entry => entry.2.parentTableHandle ≠ address '3') = true := by
    decide +kernel
  obtain ⟨st, hst, hrows⟩ := (Option.any_eq_true _ _).mp hexec
  obtain ⟨hrows, hnone⟩ := Bool.and_eq_true_iff.mp hrows
  obtain ⟨hlast, hfirst⟩ := Bool.and_eq_true_iff.mp hrows
  refine ⟨st, ?_, ?_, ?_, ?_⟩
  · refine Run.imp_of_mem (Run.append_foldlM Run.nil hst) ?_
    intro action haction s _
    simp only [List.mem_cons, List.not_mem_nil, or_false] at haction
    rcases haction with rfl | rfl | rfl | rfl
    · exact possible_plain (by simp) s
    · trivial
    · exact possible_plain (by simp) s
    · trivial
  · exact exists_of_any hlast
  · obtain ⟨table, htable, hrow⟩ := List.any_eq_true.mp hfirst
    exact ⟨table, htable, exists_of_any hrow⟩
  · rintro row ⟨hparent, key, hrow⟩
    exact of_decide_eq_true (List.all_eq_true.mp hnone (key, row) (Table.mem_rows.mpr hrow)) hparent

end IndexerProcessors.Stake

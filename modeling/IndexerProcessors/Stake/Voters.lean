import IndexerProcessors.Lib.Backlog
import IndexerProcessors.Lib.CoarseKey
import IndexerProcessors.Lib.Run
import IndexerProcessors.Stake.Balances

/-!
# Delegated voters

A delegator's voter is read from the pool's table of vote delegations. Delegators from
before there were any vote for themselves: whenever a change to active shares shows a
delegator of whom neither the batch nor the database has a voter, a default row is
added, with the version of that change.

So a database that does not show a stored delegation, or one that is still on its way,
has the delegation overwritten. `delegated_voter_last` — if every lookup finds what the
transactions before it have recorded, the table ends with each delegator's last
delegation. `default_overwrites_delegation` — if one does not, it need not.
-/

namespace IndexerProcessors.Stake

open IndexerProcessors.Lib
open IndexerProcessors.Protos

variable {sdk : StakeSdk} {conn : Conn} {queryRetries : ℕ}

/-! ## Delegations on chain -/

/-- Whose vote delegations a table has: the handle a pool's records name does not
change, and is no other pool's. A pool has an address. -/
structure VoteTables where
  pool : String → Option String
  pool_ne : ∀ handle, pool handle ≠ some ""

/-- Records that agree with the tables. -/
def VoteTables.Fits (tables : VoteTables) (sdk : StakeSdk) : Protos.Change → Prop
  | .writeResource wr _ => ∀ handle, voteDelegationHandle sdk wr = some (some handle) →
      tables.pool handle = some (sdk.standardizeAddress wr.address)
  | _ => True

/-- The delegations a change writes, as rows. -/
def changeDelegations (sdk : StakeSdk) (tables : VoteTables) (txnVersion : Int64)
    (txnTimestamp : NaiveDateTime) : Protos.Change → List CurrentDelegatedVoter
  | .writeTableItem item =>
    let tableHandle := sdk.standardizeAddress item.handle
    match item.data.bind fun data => VoteDelegation.fromTableItemType sdk data.valueType data.value,
        tables.pool tableHandle with
    | some (some delegations), some pool =>
      delegations.map (delegatedVoter sdk pool tableHandle txnVersion txnTimestamp)
    | _, _ => []
  | _ => []

/-- The delegations a transaction writes, in order. -/
def delegations (sdk : StakeSdk) (tables : VoteTables) (txn : Protos.Transaction) :
    List CurrentDelegatedVoter :=
  match txn.timestamp, txn.info with
  | some timestamp, some changes => changes.flatMap
      (changeDelegations sdk tables txn.txnVersion (sdk.parseTimestamp timestamp txn.txnVersion))
  | _, _ => []

/-- The last delegation of a pool and a delegator. -/
def lastDelegation (sdk : StakeSdk) (tables : VoteTables) (txns : List Protos.Transaction)
    (key : CurrentDelegatedVoterPK) : Option CurrentDelegatedVoter :=
  ((txns.flatMap (delegations sdk tables)).filter fun row => row.pk = key).getLast?

/-! ## The system -/

/-- The transactions extracted so far, and their rows. -/
structure VoterStore where
  history : List Protos.Transaction
  backlog : Backlog CurrentDelegatedVoterPK CurrentDelegatedVoter

def VoterStore.init : VoterStore := ⟨[], .init⟩

inductive VoterAction where
  /-- A batch is extracted, with these answers from the database. -/
  | extract (conn : Conn) (batch : List Protos.Transaction)
  /-- One of the rows that wait is stored. -/
  | store (index : ℕ)

def voterStep (sdk : StakeSdk) (queryRetries : ℕ) (st : VoterStore) :
    VoterAction → Option VoterStore
  | .extract conn batch => do
    let out ← parseStakeData sdk conn queryRetries batch
    return { st with
      history := st.history ++ batch
      backlog := st.backlog.add (out.currentDelegatedVoter.rows.map Prod.snd) }
  | .store index => do
    let backlog ← st.backlog.store CurrentDelegatedVoter.pk voterQuery index
    return { st with backlog }

/-- Batches come in the order of the stream and are of this chain; a query that is
answered is answered with a row of a state of the table, but it may as well fail. -/
def VoterPossible (sdk : StakeSdk) (tables : VoteTables) (st : VoterStore) : VoterAction → Prop
  | .extract conn batch =>
    InOrder (st.history ++ batch) ∧
    (∀ txn ∈ batch, ∀ changes, txn.info = some changes →
      ∀ change ∈ changes, tables.Fits sdk change) ∧
    (∀ txnVersion index handle tried row,
      conn.byTableHandle txnVersion index handle tried = some row →
        row.tableHandle = some handle ∧
          ∃ table ∈ st.backlog.states, ∃ key, table.lookup key = some row) ∧
    ∀ txnVersion index key tried row, conn.byPk txnVersion index key tried = some row →
      ∃ table ∈ st.backlog.states, table.lookup key = some row
  | .store _ => True

/-- Some transaction has records that name a table of vote delegations. -/
def NamesVotes (sdk : StakeSdk) (txns : List Protos.Transaction) (handle : String) : Prop :=
  ∃ txn ∈ txns, ∃ changes, txn.info = some changes ∧ ∃ wr params,
    .writeResource wr params ∈ changes ∧ voteDelegationHandle sdk wr = some (some handle)

/-- Some transaction has a pool that names its table of active shares. -/
def NamesShares (sdk : StakeSdk) (txns : List Protos.Transaction) (handle pool : String) : Prop :=
  ∃ txn ∈ txns, ∃ changes, txn.info = some changes ∧ ∃ wr params,
    .writeResource wr params ∈ changes ∧ ∃ balance,
      getDelegatedPoolMetadataFromWriteResource sdk wr txn.txnVersion = some (some balance) ∧
        balance.activeShareTableHandle = handle ∧ balance.stakingPoolAddress = pool

/-- The lookups for one change of a transaction find what has been recorded: the pool of
a table of vote delegations, if the batch does not name it, and a voter of a delegator
who has delegated before the batch, if not in the batch as well. -/
structure Found (sdk : StakeSdk) (queryRetries : ℕ) (tables : VoteTables)
    (history done : List Protos.Transaction) (conn : Conn) (txnVersion : Int64)
    (item : WriteTableItem) (index : ℕ) : Prop where
  pool : ∀ data, item.data = some data → data.valueType = voteDelegationValueType →
    tables.pool (sdk.standardizeAddress item.handle) ≠ none →
      NamesVotes sdk done (sdk.standardizeAddress item.handle) ∨
      (retried queryRetries (conn.byTableHandle txnVersion index
        (sdk.standardizeAddress item.handle))).isSome
  voter : ∀ pool, NamesShares sdk done (sdk.standardizeAddress item.handle) pool →
    (lastDelegation sdk tables history (pool, sdk.standardizeAddress item.key)).isSome →
      (lastDelegation sdk tables done (pool, sdk.standardizeAddress item.key)).isSome ∨
      (retried queryRetries (conn.byPk txnVersion index
        (pool, sdk.standardizeAddress item.key))).isSome

/-- Every lookup of a batch finds what has been recorded. -/
def FindsVoters (sdk : StakeSdk) (queryRetries : ℕ) (tables : VoteTables) (st : VoterStore) :
    VoterAction → Prop
  | .extract conn batch => ∀ done txn, (done ++ [txn]) <+: batch → ∀ changes,
      txn.info = some changes → ∀ item index, (.writeTableItem item, index) ∈ changes.zipIdx →
        Found sdk queryRetries tables st.history (done ++ [txn]) conn txn.txnVersion item index
  | .store _ => True

/-! ## The pass that collects handles -/

variable {tables : VoteTables}

/-- The handles of the batch so far are those of the chain, and all that it names. -/
structure HandlesOk (sdk : StakeSdk) (tables : VoteTables) (done : List Protos.Transaction)
    (st : ParseState) : Prop where
  pools : ∀ handle pool, st.voteDelegationHandleToPool.lookup handle = some pool →
    tables.pool handle = some pool
  named : ∀ handle, NamesVotes sdk done handle →
    ∃ pool, st.voteDelegationHandleToPool.lookup handle = some pool
  shares : ∀ handle balance, st.activePoolToStakingPool.lookup handle = some balance →
    NamesShares sdk done handle balance.stakingPoolAddress

theorem addMetadata_handles {txnVersion : Int64} {st st' : ParseState} {change : Protos.Change}
    (hfits : tables.Fits sdk change)
    (hpools : ∀ handle pool, st.voteDelegationHandleToPool.lookup handle = some pool →
      tables.pool handle = some pool)
    (h : addMetadata sdk txnVersion st change = some st') :
    (∀ handle pool, st'.voteDelegationHandleToPool.lookup handle = some pool →
      tables.pool handle = some pool) ∧
    (∀ handle, (∃ pool, st.voteDelegationHandleToPool.lookup handle = some pool) ∨
        (∃ wr params, change = .writeResource wr params ∧
          voteDelegationHandle sdk wr = some (some handle)) →
      ∃ pool, st'.voteDelegationHandleToPool.lookup handle = some pool) ∧
    ∀ handle balance, st'.activePoolToStakingPool.lookup handle = some balance →
      st.activePoolToStakingPool.lookup handle = some balance ∨
        ∃ wr params, change = .writeResource wr params ∧
          getDelegatedPoolMetadataFromWriteResource sdk wr txnVersion = some (some balance) ∧
            balance.activeShareTableHandle = handle := by
  cases change with
  | writeResource wr params =>
    obtain ⟨named, hnamed, h⟩ := Option.bind_eq_some_iff.mp h
    obtain ⟨balance, hbalance, h⟩ := Option.bind_eq_some_iff.mp h
    obtain rfl := Option.some.inj h
    refine ⟨?_, ?_, ?_⟩
    · refine Table.insertAll_forall hpools ?_
      intro row hrow
      obtain ⟨handle, hhandle, rfl⟩ := List.mem_map.mp hrow
      obtain rfl := Option.mem_toList.mp hhandle
      exact hfits handle hnamed
    · intro handle hhandle
      rw [Table.lookup_insertAll_toList]
      -- A handle that was there keeps a pool, if not the one it had.
      rcases hhandle with ⟨pool, hpool⟩ | ⟨wr', params', hwr, hhandle⟩
      · rw [hpool]
        cases named.filter (fun a => a = handle) with
        | none => exact ⟨pool, rfl⟩
        | some a => exact ⟨_, rfl⟩
      · obtain ⟨rfl, rfl⟩ := Protos.Change.writeResource.inj hwr
        obtain rfl := Option.some.inj (hnamed.symm.trans hhandle)
        exact ⟨sdk.standardizeAddress wr.address, by simp [Option.filter_some]⟩
    · intro handle b hb
      rw [Table.lookup_insertAll_toList, Option.or_eq_some_iff] at hb
      rcases hb with hb | ⟨-, hb⟩
      · obtain ⟨b', hb', rfl⟩ := Option.map_eq_some_iff.mp hb
        obtain ⟨rfl, hhandle⟩ := Option.filter_eq_some_iff.mp hb'
        exact Or.inr ⟨wr, params, rfl, hbalance, of_decide_eq_true hhandle⟩
      · exact Or.inl hb
  | deleteResource | writeTableItem | deleteTableItem | other =>
    obtain rfl := Option.some.inj h
    refine ⟨hpools, ?_, fun handle balance hb => Or.inl hb⟩
    intro handle hhandle
    rcases hhandle with hpool | ⟨wr, params, hwr, -⟩
    · exact hpool
    · cases hwr

/-- After the pass of a transaction its own handles are there as well. -/
theorem foldlM_addMetadata_handles {done : List Protos.Transaction} {txn : Protos.Transaction}
    {changes : List Protos.Change} {st st' : ParseState} (hst : HandlesOk sdk tables done st)
    (hinfo : txn.info = some changes) (hfits : ∀ change ∈ changes, tables.Fits sdk change)
    (h : changes.foldlM (addMetadata sdk txn.txnVersion) st = some st') :
    HandlesOk sdk tables (done ++ [txn]) st' := by
  have hlast : txn ∈ done ++ [txn] := List.mem_append_right _ (List.mem_singleton.mpr rfl)
  -- Within the pass the handles are those of the transactions before and of the changes
  -- already seen.
  have hpass := foldlM_prefix (P := fun seen s =>
      (∀ handle pool, s.voteDelegationHandleToPool.lookup handle = some pool →
        tables.pool handle = some pool) ∧
      (∀ handle, NamesVotes sdk done handle ∨ (∃ wr params, .writeResource wr params ∈ seen ∧
          voteDelegationHandle sdk wr = some (some handle)) →
        ∃ pool, s.voteDelegationHandleToPool.lookup handle = some pool) ∧
      ∀ handle balance, s.activePoolToStakingPool.lookup handle = some balance →
        NamesShares sdk (done ++ [txn]) handle balance.stakingPoolAddress) h ?_ ?_
  · obtain ⟨hpools, hnamed, hshares⟩ := hpass
    refine ⟨hpools, ?_, hshares⟩
    rintro handle ⟨txn', htxn', changes', hchanges', wr, params, hwr, hhandle⟩
    rcases List.mem_append.mp htxn' with htxn' | htxn'
    · exact hnamed handle (Or.inl ⟨txn', htxn', changes', hchanges', wr, params, hwr, hhandle⟩)
    · rw [List.mem_singleton.mp htxn', hinfo] at hchanges'
      obtain rfl := Option.some.inj hchanges'
      exact hnamed handle (Or.inr ⟨wr, params, hwr, hhandle⟩)
  · refine ⟨hst.pools, ?_, ?_⟩
    · intro handle hhandle
      rcases hhandle with hhandle | ⟨wr, params, hwr, -⟩
      · exact hst.named handle hhandle
      · cases hwr
    · intro handle balance hbalance
      obtain ⟨txn', htxn', hnames⟩ := hst.shares handle balance hbalance
      exact ⟨txn', List.mem_append_left _ htxn', hnames⟩
  · intro seen change s s' hseen hs hstep
    obtain ⟨hpools, hnamed, hshares⟩ := hs
    have hchange := mem_of_prefix_concat hseen
    obtain ⟨hpools', hnamed', hshares'⟩ := addMetadata_handles (hfits change hchange) hpools hstep
    refine ⟨hpools', ?_, ?_⟩
    · intro handle hhandle
      refine hnamed' handle ?_
      rcases hhandle with hhandle | ⟨wr, params, hwr, hhandle⟩
      · exact Or.inl (hnamed handle (Or.inl hhandle))
      · rcases List.mem_append.mp hwr with hwr | hwr
        · exact Or.inl (hnamed handle (Or.inr ⟨wr, params, hwr, hhandle⟩))
        · exact Or.inr ⟨wr, params, (List.mem_singleton.mp hwr).symm, hhandle⟩
    · intro handle balance hbalance
      rcases hshares' handle balance hbalance with hold | ⟨wr, params, rfl, hmetadata, hhandle⟩
      · exact hshares handle balance hold
      · exact ⟨txn, hlast, changes, hinfo, wr, params, hchange, balance, hmetadata, hhandle, rfl⟩

/-! ## The pass over vote delegations -/

/-- What is known of the rows a query by handle returns. -/
def Conn.VotesOk (tables : VoteTables) (conn : Conn) : Prop :=
  ∀ txnVersion index handle tried row,
    conn.byTableHandle txnVersion index handle tried = some row →
      tables.pool handle = some row.delegationPoolAddress

/-- The map of a table item has the last delegation of each delegator in it, as the
chain has them. -/
theorem lookup_fromWriteTableItem {item : WriteTableItem} {txnVersion : Int64}
    {txnTimestamp : NaiveDateTime} {index : ℕ} {handleToPool : Table String String}
    {voterMap : CurrentDelegatedVoterMap} (hconn : conn.VotesOk tables)
    (hpools : ∀ handle pool, handleToPool.lookup handle = some pool →
      tables.pool handle = some pool)
    (hfound : ∀ data, item.data = some data → data.valueType = voteDelegationValueType →
      tables.pool (sdk.standardizeAddress item.handle) ≠ none →
        (∃ pool, handleToPool.lookup (sdk.standardizeAddress item.handle) = some pool) ∨
        (retried queryRetries (conn.byTableHandle txnVersion index
          (sdk.standardizeAddress item.handle))).isSome)
    (h : CurrentDelegatedVoter.fromWriteTableItem sdk conn queryRetries item txnVersion
      txnTimestamp index handleToPool = some voterMap) :
    Collects CurrentDelegatedVoter.pk id
      (changeDelegations sdk tables txnVersion txnTimestamp (.writeTableItem item)) voterMap := by
  have hempty : Collects CurrentDelegatedVoter.pk id [] ∅ := fun c => AList.lookup_empty c
  obtain ⟨data, hdata, h⟩ := Option.bind_eq_some_iff.mp h
  obtain ⟨parsed, hparsed, h⟩ := Option.bind_eq_some_iff.mp h
  unfold changeDelegations
  dsimp only
  rw [hdata, Option.bind_some, hparsed]
  cases parsed with
  | none =>
    obtain rfl := Option.some.inj h
    exact hempty
  | some entries =>
    have htype : data.valueType = voteDelegationValueType := by
      by_contra hne
      rw [VoteDelegation.fromTableItemType, if_neg hne] at hparsed
      cases Option.some.inj hparsed
    dsimp only at h ⊢
    generalize hhandle : sdk.standardizeAddress item.handle = handle at h hfound ⊢
    -- the pool as the code finds it: the chain's, or none
    have hpool (poolAddress : String) (hp : tables.pool handle = some poolAddress)
        (h : (if poolAddress = "" then some ∅ else some (Table.insertAll ∅
          ((entries.map (delegatedVoter sdk poolAddress handle txnVersion txnTimestamp)).map
            fun voter => (voter.pk, voter)))) = some voterMap) :
        Collects CurrentDelegatedVoter.pk id
          (entries.map (delegatedVoter sdk poolAddress handle txnVersion txnTimestamp))
          voterMap := by
      have hne : poolAddress ≠ "" := by
        rintro rfl
        exact tables.pool_ne handle hp
      rw [if_neg hne] at h
      obtain rfl := Option.some.inj h
      exact collects_insertAll CurrentDelegatedVoter.pk id _
    cases hmap : handleToPool.lookup handle with
    | some poolAddress =>
      rw [hmap] at h
      rw [hpools handle poolAddress hmap]
      exact hpool poolAddress (hpools handle poolAddress hmap) h
    | none =>
      rw [hmap] at h
      cases hrow : retried queryRetries (conn.byTableHandle txnVersion index handle) with
      | some row =>
        rw [hrow] at h
        obtain ⟨tried, htried⟩ := exists_of_retried hrow
        rw [hconn _ _ _ _ _ htried]
        exact hpool row.delegationPoolAddress (hconn _ _ _ _ _ htried) h
      | none =>
        rw [hrow] at h
        have hunknown : tables.pool handle = none := by
          by_contra hne
          rcases hfound data hdata htype hne with ⟨pool, hpool⟩ | hsome
          · rw [hmap] at hpool
            cases hpool
          · rw [hrow] at hsome
            cases hsome
        rw [hunknown]
        obtain rfl := Option.some.inj h
        exact hempty

/-- The delegations a transaction writes up to a change join those of the batch. -/
theorem addVoters_lookup {txnVersion : Int64} {txnTimestamp : NaiveDateTime} {st st' : ParseState}
    {change : Protos.Change × ℕ} (hconn : conn.VotesOk tables)
    (hpools : ∀ handle pool, st.voteDelegationHandleToPool.lookup handle = some pool →
      tables.pool handle = some pool)
    (hfound : ∀ item, change.1 = .writeTableItem item → ∀ data, item.data = some data →
      data.valueType = voteDelegationValueType →
      tables.pool (sdk.standardizeAddress item.handle) ≠ none →
        (∃ pool, st.voteDelegationHandleToPool.lookup (sdk.standardizeAddress item.handle) =
          some pool) ∨
        (retried queryRetries (conn.byTableHandle txnVersion change.2
          (sdk.standardizeAddress item.handle))).isSome)
    (h : addVoters sdk conn queryRetries txnVersion txnTimestamp st change = some st')
    (key : CurrentDelegatedVoterPK) :
    st'.currentDelegatedVoter.lookup key =
      ((changeDelegations sdk tables txnVersion txnTimestamp change.1).filter
        fun row => row.pk = key).getLast?.or (st.currentDelegatedVoter.lookup key) := by
  obtain ⟨change, index⟩ := change
  cases change with
  | writeTableItem item =>
    obtain ⟨voterMap, hmap, h⟩ := Option.bind_eq_some_iff.mp h
    obtain rfl := Option.some.inj h
    have hcollects := lookup_fromWriteTableItem hconn hpools (hfound item rfl) hmap
    exact hcollects.lookup_insertAll_rows _ _ st.currentDelegatedVoter key
  | writeResource | deleteResource | deleteTableItem | other =>
    obtain rfl := Option.some.inj h
    rfl

/-! ## The pass over active shares -/

/-- A default row: the delegator is his own voter. -/
structure IsDefault (txnVersion : Int64) (key : CurrentDelegatedVoterPK)
    (row : CurrentDelegatedVoter) : Prop where
  pk : row.pk = key
  tableHandle : row.tableHandle = none
  version : row.lastTransactionVersion = txnVersion

/-- A default row is only added where there is no voter, neither in the batch nor in the
answers of the database. -/
theorem getDelegatorsPreContractDeployment_eq_some {item : WriteTableItem} {txnVersion : Int64}
    {txnTimestamp : NaiveDateTime} {index : ℕ} {active : ShareToStakingPoolMapping}
    {previous : CurrentDelegatedVoterMap} {row : CurrentDelegatedVoter}
    (h : getDelegatorsPreContractDeployment sdk conn queryRetries item txnVersion txnTimestamp
      index active previous = some (some row)) :
    ∃ balance, active.lookup (sdk.standardizeAddress item.handle) = some balance ∧
      IsDefault txnVersion (balance.stakingPoolAddress, sdk.standardizeAddress item.key) row ∧
      previous.lookup row.pk = none ∧
      retried queryRetries (conn.byPk txnVersion index row.pk) = none := by
  obtain ⟨rows, hactive, h⟩ := Option.bind_eq_some_iff.mp h
  cases rows with
  | none => cases Option.some.inj h
  | some rows =>
    obtain ⟨balance, shares, hbalance, rfl⟩ := getActiveShareFromWriteTableItem_eq_some hactive
    dsimp only [balanceRows] at h
    cases hprevious : previous.lookup
        (balance.stakingPoolAddress, sdk.standardizeAddress item.key) with
    | some old =>
      rw [hprevious] at h
      cases Option.some.inj h
    | none =>
      rw [hprevious] at h
      cases hrow : retried queryRetries (conn.byPk txnVersion index
          (balance.stakingPoolAddress, sdk.standardizeAddress item.key)) with
      | some old =>
        rw [hrow] at h
        cases Option.some.inj h
      | none =>
        rw [hrow] at h
        obtain rfl := Option.some.inj (Option.some.inj h)
        exact ⟨balance, hbalance, ⟨rfl, rfl, rfl⟩, hprevious, hrow⟩

theorem addDefaultVoter_lookup {done : List Protos.Transaction} {txnVersion : Int64}
    {txnTimestamp : NaiveDateTime} {st st' : ParseState} {change : Protos.Change × ℕ}
    (hshares : ∀ handle balance, st.activePoolToStakingPool.lookup handle = some balance →
      NamesShares sdk done handle balance.stakingPoolAddress)
    (h : addDefaultVoter sdk conn queryRetries txnVersion txnTimestamp st change = some st')
    (key : CurrentDelegatedVoterPK) :
    st'.currentDelegatedVoter.lookup key = st.currentDelegatedVoter.lookup key ∨
      st.currentDelegatedVoter.lookup key = none ∧
      (∃ row, st'.currentDelegatedVoter.lookup key = some row ∧ IsDefault txnVersion key row) ∧
      ∃ item, change.1 = .writeTableItem item ∧ key.2 = sdk.standardizeAddress item.key ∧
        NamesShares sdk done (sdk.standardizeAddress item.handle) key.1 ∧
        retried queryRetries (conn.byPk txnVersion change.2 key) = none := by
  obtain ⟨change, index⟩ := change
  cases change with
  | writeTableItem item =>
    obtain ⟨voter, hvoter, h⟩ := Option.bind_eq_some_iff.mp h
    obtain rfl := Option.some.inj h
    cases voter with
    | none => exact Or.inl rfl
    | some row =>
      obtain ⟨balance, hbalance, hdefault, hprevious, hrow⟩ :=
        getDelegatorsPreContractDeployment_eq_some hvoter
      by_cases hkey : key = row.pk
      · subst hkey
        refine Or.inr ⟨hprevious, ⟨row, AList.lookup_insert _, rfl, hdefault.tableHandle,
          hdefault.version⟩, item, rfl, ?_, ?_, hrow⟩
        · rw [hdefault.pk]
        · rw [hdefault.pk]
          exact hshares _ balance hbalance
      · exact Or.inl (AList.lookup_insert_ne hkey)
  | writeResource | deleteResource | deleteTableItem | other =>
    obtain rfl := Option.some.inj h
    exact Or.inl rfl

/-! ## A transaction -/

/-- A delegation has the version of its transaction and names the table it is from. -/
theorem mem_delegations {txn : Protos.Transaction} {row : CurrentDelegatedVoter}
    (h : row ∈ delegations sdk tables txn) :
    row.lastTransactionVersion = txn.txnVersion ∧
      ∃ handle, row.tableHandle = some handle ∧
        tables.pool handle = some row.delegationPoolAddress := by
  unfold delegations at h
  split at h
  next timestamp changes _ _ =>
    obtain ⟨change, -, h⟩ := List.mem_flatMap.mp h
    unfold changeDelegations at h
    split at h
    next item =>
      dsimp only at h
      split at h
      next entries pool _ hpool =>
        obtain ⟨inner, -, rfl⟩ := List.mem_map.mp h
        exact ⟨rfl, _, rfl, hpool⟩
      next => cases h
    next => cases h
  next => cases h

theorem lastDelegation_append (txns txns' : List Protos.Transaction)
    (key : CurrentDelegatedVoterPK) :
    lastDelegation sdk tables (txns ++ txns') key =
      (lastDelegation sdk tables txns' key).or (lastDelegation sdk tables txns key) := by
  unfold lastDelegation
  rw [List.flatMap_append, List.filter_append, List.getLast?_append]

/-- The delegations of a transaction are collected in order. -/
theorem foldlM_addVoters_lookup {done : List Protos.Transaction} {txnVersion : Int64}
    {txnTimestamp : NaiveDateTime} {changes : List (Protos.Change × ℕ)} {st st' : ParseState}
    (hconn : conn.VotesOk tables) (hhandles : HandlesOk sdk tables done st)
    (hfound : ∀ item index, (.writeTableItem item, index) ∈ changes → ∀ data,
      item.data = some data → data.valueType = voteDelegationValueType →
      tables.pool (sdk.standardizeAddress item.handle) ≠ none →
        NamesVotes sdk done (sdk.standardizeAddress item.handle) ∨
        (retried queryRetries (conn.byTableHandle txnVersion index
          (sdk.standardizeAddress item.handle))).isSome)
    (h : changes.foldlM (addVoters sdk conn queryRetries txnVersion txnTimestamp) st = some st')
    (key : CurrentDelegatedVoterPK) :
    st'.currentDelegatedVoter.lookup key =
      (((changes.map Prod.fst).flatMap
          (changeDelegations sdk tables txnVersion txnTimestamp)).filter
        fun row => row.pk = key).getLast?.or (st.currentDelegatedVoter.lookup key) := by
  -- Of the state only the map of voters changes, so the maps of handles stay as they were
  -- before the pass.
  have hpass := foldlM_prefix (P := fun seen s =>
      (∃ voters, s = { st with currentDelegatedVoter := voters }) ∧
      s.currentDelegatedVoter.lookup key =
        (((seen.map Prod.fst).flatMap (changeDelegations sdk tables txnVersion txnTimestamp)).filter
          fun row => row.pk = key).getLast?.or (st.currentDelegatedVoter.lookup key)) h ?_ ?_
  · exact hpass.2
  · exact ⟨⟨st.currentDelegatedVoter, rfl⟩, rfl⟩
  · rintro seen change _ s' hseen ⟨⟨voters, rfl⟩, hlookup⟩ hstep
    have hmem := mem_of_prefix_concat hseen
    obtain ⟨voters', rfl⟩ := addVoters_frame hstep
    refine ⟨⟨voters', rfl⟩, ?_⟩
    have hfound' : ∀ item, change.1 = .writeTableItem item → ∀ data, item.data = some data →
        data.valueType = voteDelegationValueType →
        tables.pool (sdk.standardizeAddress item.handle) ≠ none →
          (∃ pool, st.voteDelegationHandleToPool.lookup (sdk.standardizeAddress item.handle) =
            some pool) ∨
          (retried queryRetries (conn.byTableHandle txnVersion change.2
            (sdk.standardizeAddress item.handle))).isSome := by
      intro item hitem data hdata htype hpool
      have hmem' : (.writeTableItem item, change.2) ∈ changes := hitem ▸ hmem
      exact (hfound item change.2 hmem' data hdata htype hpool).imp_left (hhandles.named _)
    have hpools : ∀ handle pool, ({ st with currentDelegatedVoter := voters } :
        ParseState).voteDelegationHandleToPool.lookup handle = some pool →
          tables.pool handle = some pool := hhandles.pools
    have hnew := addVoters_lookup hconn hpools hfound' hstep key
    rw [hnew, hlookup, List.map_append, List.flatMap_append, List.filter_append,
      List.getLast?_append, Option.or_assoc, List.map_singleton, List.flatMap_singleton]

/-- Default rows join those of a batch only where it has no row. -/
theorem foldlM_addDefaultVoter_lookup {done : List Protos.Transaction} {txnVersion : Int64}
    {txnTimestamp : NaiveDateTime} {changes : List (Protos.Change × ℕ)} {st st' : ParseState}
    (hshares : ∀ handle balance, st.activePoolToStakingPool.lookup handle = some balance →
      NamesShares sdk done handle balance.stakingPoolAddress)
    (h : changes.foldlM (addDefaultVoter sdk conn queryRetries txnVersion txnTimestamp) st =
      some st') (key : CurrentDelegatedVoterPK) :
    st'.currentDelegatedVoter.lookup key = st.currentDelegatedVoter.lookup key ∨
      st.currentDelegatedVoter.lookup key = none ∧
      (∃ row, st'.currentDelegatedVoter.lookup key = some row ∧ IsDefault txnVersion key row) ∧
      ∃ item index, (.writeTableItem item, index) ∈ changes ∧
        key.2 = sdk.standardizeAddress item.key ∧
        NamesShares sdk done (sdk.standardizeAddress item.handle) key.1 ∧
        retried queryRetries (conn.byPk txnVersion index key) = none := by
  have hpass := foldlM_invariant (P := fun s =>
      (∃ voters, s = { st with currentDelegatedVoter := voters }) ∧
      (s.currentDelegatedVoter.lookup key = st.currentDelegatedVoter.lookup key ∨
        st.currentDelegatedVoter.lookup key = none ∧
        (∃ row, s.currentDelegatedVoter.lookup key = some row ∧ IsDefault txnVersion key row) ∧
        ∃ item index, (.writeTableItem item, index) ∈ changes ∧
          key.2 = sdk.standardizeAddress item.key ∧
          NamesShares sdk done (sdk.standardizeAddress item.handle) key.1 ∧
          retried queryRetries (conn.byPk txnVersion index key) = none)) h ?_ ?_
  · exact hpass.2
  · exact ⟨⟨st.currentDelegatedVoter, rfl⟩, Or.inl rfl⟩
  · rintro change hchange _ s' ⟨⟨voters, rfl⟩, hlookup⟩ hstep
    have hshares' : ∀ handle balance, ({ st with currentDelegatedVoter := voters } :
        ParseState).activePoolToStakingPool.lookup handle = some balance →
          NamesShares sdk done handle balance.stakingPoolAddress := hshares
    have hnew := addDefaultVoter_lookup hshares' hstep key
    obtain ⟨voters', rfl⟩ := addDefaultVoter_frame hstep
    refine ⟨⟨voters', rfl⟩, ?_⟩
    -- This change may add a row; if it does, there was none, not from an earlier change either.
    rcases hnew with hsame | ⟨hnone, hrow, item, hitem, hkey, hnames, hquery⟩
    · rcases hlookup with hlookup | ⟨hnone, ⟨row, hrow, hdefault⟩, hitem⟩
      · exact Or.inl (hsame.trans hlookup)
      · exact Or.inr ⟨hnone, ⟨row, hsame.trans hrow, hdefault⟩, hitem⟩
    · obtain ⟨change, index⟩ := change
      obtain rfl := hitem
      rcases hlookup with hlookup | ⟨-, ⟨row, hrow', -⟩, -⟩
      · exact Or.inr ⟨hlookup.symm.trans hnone, hrow, item, index, hchange, hkey, hnames, hquery⟩
      · rw [hrow'] at hnone
        cases hnone

/-- A row of a batch: under its key, of one of its transactions, and with the pool of
the table it names. -/
structure VoterRowOk (tables : VoteTables) (txns : List Protos.Transaction)
    (key : CurrentDelegatedVoterPK) (row : CurrentDelegatedVoter) : Prop where
  pk : row.pk = key
  version : ∃ txn ∈ txns, row.lastTransactionVersion = txn.txnVersion
  pool : ∀ handle, row.tableHandle = some handle →
    tables.pool handle = some row.delegationPoolAddress

/-- The rows a batch has so far: the last delegation of whoever has one in it, nothing of
whoever has delegated before it only. -/
structure VotersOk (sdk : StakeSdk) (tables : VoteTables) (history done : List Protos.Transaction)
    (st : ParseState) : Prop where
  handles : HandlesOk sdk tables done st
  delegated : ∀ key row, lastDelegation sdk tables done key = some row →
    st.currentDelegatedVoter.lookup key = some row
  before : ∀ key, lastDelegation sdk tables done key = none →
    (lastDelegation sdk tables history key).isSome → st.currentDelegatedVoter.lookup key = none
  rows : ∀ key row, st.currentDelegatedVoter.lookup key = some row →
    VoterRowOk tables done key row

theorem VoterRowOk.of_delegation {txns : List Protos.Transaction} {key : CurrentDelegatedVoterPK}
    {row : CurrentDelegatedVoter} (h : lastDelegation sdk tables txns key = some row) :
    VoterRowOk tables txns key row := by
  obtain ⟨hmem, hkey⟩ := List.mem_filter.mp (List.mem_of_getLast? h)
  obtain ⟨txn, htxn, hrow⟩ := List.mem_flatMap.mp hmem
  obtain ⟨hversion, handle, hhandle, hpool⟩ := mem_delegations hrow
  refine ⟨of_decide_eq_true hkey, ⟨txn, htxn, hversion⟩, ?_⟩
  intro handle' hhandle'
  obtain rfl := Option.some.inj (hhandle.symm.trans hhandle')
  exact hpool

theorem VoterRowOk.of_default {txns : List Protos.Transaction} {txn : Protos.Transaction}
    {key : CurrentDelegatedVoterPK} {row : CurrentDelegatedVoter} (htxn : txn ∈ txns)
    (h : IsDefault txn.txnVersion key row) : VoterRowOk tables txns key row := by
  refine ⟨h.pk, ⟨txn, htxn, h.version⟩, ?_⟩
  intro handle hhandle
  rw [h.tableHandle] at hhandle
  cases hhandle

theorem VoterRowOk.mono {txns txns' : List Protos.Transaction} {key : CurrentDelegatedVoterPK}
    {row : CurrentDelegatedVoter} (h : VoterRowOk tables txns key row) (hsub : txns ⊆ txns') :
    VoterRowOk tables txns' key row := by
  obtain ⟨txn, htxn, hversion⟩ := h.version
  exact ⟨h.pk, ⟨txn, hsub htxn, hversion⟩, h.pool⟩

/-- What a transaction does to the voter of a key: its own last delegation comes first,
then what was there, and a default only where there is neither. -/
theorem parseTransaction_lookup {history done : List Protos.Transaction} {st st' : ParseState}
    {txn : Protos.Transaction} (hst : HandlesOk sdk tables done st) (hconn : conn.VotesOk tables)
    (hfits : ∀ changes, txn.info = some changes → ∀ change ∈ changes, tables.Fits sdk change)
    (hfound : ∀ changes, txn.info = some changes → ∀ item index,
      (.writeTableItem item, index) ∈ changes.zipIdx →
        Found sdk queryRetries tables history (done ++ [txn]) conn txn.txnVersion item index)
    (h : parseTransaction sdk conn queryRetries st txn = some st') :
    HandlesOk sdk tables (done ++ [txn]) st' ∧ ∀ key,
      st'.currentDelegatedVoter.lookup key =
          (lastDelegation sdk tables [txn] key).or (st.currentDelegatedVoter.lookup key) ∨
        (lastDelegation sdk tables [txn] key).or (st.currentDelegatedVoter.lookup key) = none ∧
        (∃ row, st'.currentDelegatedVoter.lookup key = some row ∧
          IsDefault txn.txnVersion key row) ∧
        ((lastDelegation sdk tables history key).isSome →
          (lastDelegation sdk tables (done ++ [txn]) key).isSome) := by
  obtain ⟨timestamp, changes, st₁, st₂, st₃, htimestamp, hinfo, hst₁, hst₂, hst₃, h⟩ :=
    parseTransaction_eq_some h
  have hhandles := foldlM_addMetadata_handles hst hinfo (hfits changes hinfo) hst₁
  have hvoters : st₁.currentDelegatedVoter = st.currentDelegatedVoter := by
    refine foldlM_invariant (P := fun s => s.currentDelegatedVoter = st.currentDelegatedVoter)
      hst₁ rfl ?_
    intro change _ s s' hs hstep
    exact (addMetadata_frame hstep).2.2.trans hs
  obtain ⟨derived, -, hst₂⟩ := Option.bind_eq_some_iff.mp hst₂
  obtain rfl := Option.some.inj hst₂
  have hhandles₂ : HandlesOk sdk tables (done ++ [txn]) { st₁ with
      derived := st₁.derived ++ derived
      currentDelegatorBalances := st₁.currentDelegatorBalances.insertAll
        (Table.insertAll ∅ (derived.map fun d => (d.current.mapKey, d.current))).rows } :=
    ⟨hhandles.pools, hhandles.named, hhandles.shares⟩
  -- after the second pass: the last delegation, the transaction's or an earlier one
  have hpass (key : CurrentDelegatedVoterPK) : st₃.currentDelegatedVoter.lookup key =
      (lastDelegation sdk tables [txn] key).or (st.currentDelegatedVoter.lookup key) := by
    have hlookup := foldlM_addVoters_lookup hconn hhandles₂ (fun item index hitem =>
      (hfound changes hinfo item index hitem).pool) hst₃ key
    rw [hlookup, List.zipIdx_map_fst, ← hvoters, lastDelegation, List.flatMap_singleton,
      delegations, htimestamp, hinfo]
  obtain ⟨voters, hframe⟩ := foldlM_voters_frame (fun _ _ _ => addVoters_frame) hst₃
  have hshares₃ : ∀ handle balance, st₃.activePoolToStakingPool.lookup handle = some balance →
      NamesShares sdk (done ++ [txn]) handle balance.stakingPoolAddress := by
    rw [hframe]
    exact hhandles.shares
  obtain ⟨voters', hframe'⟩ := foldlM_voters_frame (fun _ _ _ => addDefaultVoter_frame) h
  refine ⟨?_, ?_⟩
  · rw [hframe', hframe]
    exact ⟨hhandles.pools, hhandles.named, hhandles.shares⟩
  · intro key
    rw [← hpass key]
    rcases foldlM_addDefaultVoter_lookup hshares₃ h key with
      hsame | ⟨hnone, hdefault, item, index, hitem, hkey, hnames, hquery⟩
    · exact Or.inl hsame
    · refine Or.inr ⟨hnone, hdefault, ?_⟩
      intro hbefore
      have hvoter := (hfound changes hinfo item index hitem).voter key.1 hnames
      rw [← hkey] at hvoter
      -- the lookup would have found the voter
      rcases hvoter hbefore with hsome | hsome
      · exact hsome
      · rw [hquery] at hsome
        cases hsome

/-- The rows so far, after one more transaction. -/
theorem parseTransaction_voters {history done : List Protos.Transaction} {st st' : ParseState}
    {txn : Protos.Transaction} (hst : VotersOk sdk tables history done st)
    (hconn : conn.VotesOk tables)
    (hfits : ∀ changes, txn.info = some changes → ∀ change ∈ changes, tables.Fits sdk change)
    (hfound : ∀ changes, txn.info = some changes → ∀ item index,
      (.writeTableItem item, index) ∈ changes.zipIdx →
        Found sdk queryRetries tables history (done ++ [txn]) conn txn.txnVersion item index)
    (h : parseTransaction sdk conn queryRetries st txn = some st') :
    VotersOk sdk tables history (done ++ [txn]) st' := by
  obtain ⟨hhandles, hlookup⟩ := parseTransaction_lookup hst.handles hconn hfits hfound h
  refine ⟨hhandles, ?_, ?_, ?_⟩
  · intro key row hrow
    -- A delegation of this transaction comes before those of the earlier ones, and a default row
    -- is only added where there is neither.
    rw [lastDelegation_append, Option.or_eq_some_iff] at hrow
    have hkept : (lastDelegation sdk tables [txn] key).or
        (st.currentDelegatedVoter.lookup key) = some row := by
      rcases hrow with hrow | ⟨hnone, hrow⟩
      · rw [hrow, Option.some_or]
      · rw [hnone, Option.none_or, hst.delegated key row hrow]
    rcases hlookup key with hsame | ⟨hnone, -⟩
    · exact hsame.trans hkept
    · rw [hnone] at hkept
      cases hkept
  · intro key hnone hbefore
    have hdone := hnone
    rw [lastDelegation_append, Option.or_eq_none_iff] at hdone
    rcases hlookup key with hsame | ⟨-, -, hrecorded⟩
    · rw [hsame, hdone.1, Option.none_or, hst.before key hdone.2 hbefore]
    · have hsome := hrecorded hbefore
      rw [hnone] at hsome
      cases hsome
  · intro key row hrow
    rcases hlookup key with hsame | ⟨-, ⟨row', hrow', hisDefault⟩, -⟩
    · rw [hsame, Option.or_eq_some_iff] at hrow
      rcases hrow with hrow | ⟨-, hrow⟩
      · refine (VoterRowOk.of_delegation hrow).mono ?_
        intro t ht
        exact List.mem_append_right _ ht
      · exact (hst.rows key row hrow).mono (List.subset_append_left _ _)
    · obtain rfl := Option.some.inj (hrow'.symm.trans hrow)
      exact VoterRowOk.of_default (List.mem_append_right _ (List.mem_singleton.mpr rfl)) hisDefault

/-- The voters of a batch. -/
theorem parseStakeData_voters {history batch : List Protos.Transaction} {out : ParseState}
    (hconn : conn.VotesOk tables)
    (hfits : ∀ txn ∈ batch, ∀ changes, txn.info = some changes →
      ∀ change ∈ changes, tables.Fits sdk change)
    (hfound : ∀ done txn, (done ++ [txn]) <+: batch → ∀ changes, txn.info = some changes →
      ∀ item index, (.writeTableItem item, index) ∈ changes.zipIdx →
        Found sdk queryRetries tables history (done ++ [txn]) conn txn.txnVersion item index)
    (h : parseStakeData sdk conn queryRetries batch = some out) :
    VotersOk sdk tables history batch out := by
  refine foldlM_prefix (P := VotersOk sdk tables history) h ?_ ?_
  · refine ⟨⟨?_, ?_, ?_⟩, ?_, ?_, ?_⟩
    · intro handle pool hpool
      cases (AList.lookup_empty handle).symm.trans hpool
    · rintro handle ⟨txn, htxn, -⟩
      cases htxn
    · intro handle balance hbalance
      cases (AList.lookup_empty handle).symm.trans hbalance
    · intro key row hrow
      cases hrow
    · intro key _ _
      exact AList.lookup_empty key
    · intro key row hrow
      cases (AList.lookup_empty key).symm.trans hrow
  · intro done txn st st' hdone hst hstep
    exact parseTransaction_voters hst hconn (hfits txn (mem_of_prefix_concat hdone))
      (hfound done txn hdone) hstep

/-! ## Runs -/

/-- What holds in every state: the last delegation of each delegator has been extracted,
and no newer row of his. -/
structure VotersSound (sdk : StakeSdk) (tables : VoteTables) (st : VoterStore) : Prop where
  backlog : st.backlog.Ok CurrentDelegatedVoter.pk (·.lastTransactionVersion)
  rows : ∀ row ∈ st.backlog.extracted, VoterRowOk tables st.history row.pk row
  last : ∀ key row, lastDelegation sdk tables st.history key = some row →
    row ∈ st.backlog.extracted ∧ ∀ row' ∈ st.backlog.extracted, row'.pk = key →
      row.lastTransactionVersion ≤ row'.lastTransactionVersion → row' = row

theorem VotersSound.init : VotersSound sdk tables .init := by
  refine ⟨Backlog.ok_init, ?_, ?_⟩
  · intro row hrow
    cases hrow
  · intro key row hrow
    cases hrow

theorem VotersSound.extract {st st' : VoterStore} {batch : List Protos.Transaction}
    (hst : VotersSound sdk tables st)
    (hpossible : VoterPossible sdk tables st (.extract conn batch))
    (hfinds : FindsVoters sdk queryRetries tables st (.extract conn batch))
    (h : voterStep sdk queryRetries st (.extract conn batch) = some st') :
    VotersSound sdk tables st' := by
  obtain ⟨horder, hfits, hhandles, -⟩ := hpossible
  obtain ⟨out, hout, h⟩ := Option.bind_eq_some_iff.mp h
  obtain rfl := Option.some.inj h
  have hconn : conn.VotesOk tables := by
    intro txnVersion index handle tried row hrow
    obtain ⟨hhandle, table, htable, key, hkey⟩ := hhandles txnVersion index handle tried row hrow
    exact (hst.rows row (hst.backlog.stored table htable key row hkey).2).pool handle hhandle
  have hvoters := parseStakeData_voters hconn hfits hfinds hout
  -- the rows of the batch are those of its map, under their own keys
  have hnew : ∀ row ∈ out.currentDelegatedVoter.rows.map Prod.snd,
      out.currentDelegatedVoter.lookup row.pk = some row := by
    intro row hrow
    obtain ⟨⟨key, row⟩, hentry, rfl⟩ := List.mem_map.mp hrow
    have hlookup := Table.mem_rows.mp hentry
    rw [(hvoters.rows key row hlookup).pk]
    exact hlookup
  refine ⟨hst.backlog.add _, ?_, ?_⟩
  · intro row hrow
    rcases List.mem_append.mp hrow with hrow | hrow
    · exact (hst.rows row hrow).mono (List.subset_append_left _ _)
    · exact (hvoters.rows row.pk row (hnew row hrow)).mono (List.subset_append_right _ _)
  · intro key row hlast
    rw [lastDelegation_append, Option.or_eq_some_iff] at hlast
    rcases hlast with hbatch | ⟨hnone, hbefore⟩
    · have hlookup := hvoters.delegated key row hbatch
      refine ⟨List.mem_append_right _ ?_, ?_⟩
      · exact List.mem_map.mpr ⟨(key, row), Table.mem_rows.mpr hlookup, rfl⟩
      · intro row' hrow' hkey hle
        rcases List.mem_append.mp hrow' with hrow' | hrow'
        · -- a row of an earlier batch is older
          obtain ⟨txn, htxn, hversion⟩ := (hvoters.rows key row hlookup).version
          obtain ⟨txn', htxn', hversion'⟩ := (hst.rows row' hrow').version
          have hlt := (List.pairwise_append.mp horder).2.2 txn' htxn' txn htxn
          rw [hversion, hversion'] at hle
          exact absurd hlt (not_lt.mpr hle)
        · have hlookup' := hnew row' hrow'
          rw [hkey, hlookup] at hlookup'
          exact (Option.some.inj hlookup').symm
    · obtain ⟨hmem, hnewest⟩ := hst.last key row hbefore
      refine ⟨List.mem_append_left _ hmem, ?_⟩
      intro row' hrow' hkey hle
      rcases List.mem_append.mp hrow' with hrow' | hrow'
      · exact hnewest row' hrow' hkey hle
      · have hlookup' := hnew row' hrow'
        have hempty := hvoters.before key hnone (by rw [hbefore]; rfl)
        rw [hkey, hempty] at hlookup'
        cases hlookup'

theorem VotersSound.store {st st' : VoterStore} {index : ℕ} (hst : VotersSound sdk tables st)
    (h : voterStep sdk queryRetries st (.store index) = some st') : VotersSound sdk tables st' := by
  obtain ⟨backlog, hbacklog, h⟩ := Option.bind_eq_some_iff.mp h
  obtain rfl := Option.some.inj h
  have hok := hst.backlog.store (fun _ _ => voterQuery_eq_later) hbacklog
  obtain ⟨row, -, hbacklog⟩ := Option.bind_eq_some_iff.mp hbacklog
  obtain rfl := Option.some.inj hbacklog
  exact ⟨hok, hst.rows, hst.last⟩

/-- **Recorded delegations stay.** However extraction and storage are interleaved, if
every lookup finds what the batches before it have recorded, then once all is stored the
row of a pool and a delegator is their last delegation, if there is one, and a default
row only if there is none. -/
theorem delegated_voter_last {actions : List VoterAction} {st : VoterStore}
    (hrun : Run (voterStep sdk queryRetries) (fun st action =>
      VoterPossible sdk tables st action ∧ FindsVoters sdk queryRetries tables st action)
      .init actions st) (hdrained : st.backlog.pending = []) (key : CurrentDelegatedVoterPK) :
    (∀ row, lastDelegation sdk tables st.history key = some row →
      st.backlog.table.lookup key = some row) ∧
    ∀ row, st.backlog.table.lookup key = some row → row.tableHandle = none →
      lastDelegation sdk tables st.history key = none := by
  have hsound : VotersSound sdk tables st := by
    refine hrun.invariant VotersSound.init ?_
    rintro st action st' hst ⟨hpossible, hfinds⟩ hstep
    cases action with
    | extract conn batch => exact hst.extract hpossible hfinds hstep
    | store index => exact hst.store hstep
  have hlast : ∀ row, lastDelegation sdk tables st.history key = some row →
      st.backlog.table.lookup key = some row := by
    intro row hrow
    obtain ⟨hmem, hnewest⟩ := hsound.last key row hrow
    obtain rfl := (VoterRowOk.of_delegation hrow).pk
    exact hsound.backlog.drained hdrained hmem hnewest
  refine ⟨hlast, ?_⟩
  intro row hrow hdefault
  by_contra hne
  obtain ⟨row', hrow'⟩ := Option.ne_none_iff_exists'.mp hne
  obtain rfl := Option.some.inj (hrow.symm.trans (hlast row' hrow'))
  obtain ⟨txn, -, hmem⟩ := List.mem_flatMap.mp
    (List.mem_filter.mp (List.mem_of_getLast? hrow')).1
  obtain ⟨-, handle, hhandle, -⟩ := mem_delegations hmem
  rw [hdefault] at hhandle
  cases hhandle

/-! ### A delegation that is not stored yet -/

/-- The records of a pool, by its table of vote delegations. -/
def recordsDoc (handle : String) : String × Json :=
  ("\x7b\"vote_delegation\":\x7b\"buckets\":\x7b\"inner\":" ++ (tableDoc handle).1 ++
      "\x7d\x7d\x7d",
    .object [("vote_delegation", .object [("buckets", .object [("inner", (tableDoc handle).2)])])])

/-- One vote delegation. -/
def voteDoc (delegator voter : String) : String × Json :=
  ("[\x7b\"key\":\"" ++ delegator ++ "\",\"value\":\x7b\"voter\":\"" ++ voter ++
      "\",\"pending_voter\":\"" ++ voter ++ "\"\x7d\x7d]",
    .array [.object [("key", .string delegator),
      ("value", .object [("voter", .string voter), ("pending_voter", .string voter)])]])

/-- Pool a again, with the vote delegations 7, where 6 delegates to 8. -/
def voteSdk : StakeSdk :=
  { plainSdk with
    fromStr := fun text =>
      [recordsDoc (address '7'), voteDoc (address '6') (address '8'),
        delegationPoolDoc (address '2') (address '3'), stringDoc (address '6'),
        stringDoc "7"].lookup text }

def voteTables : VoteTables where
  pool handle := if handle = address '7' then some (address 'a') else none
  pool_ne := by
    intro handle h
    split at h
    next => exact absurd h (by decide)
    next => cases h

def recordsResource : WriteResource :=
  ⟨address 'a', ⟨stakeAddr, "delegation_pool", "GovernanceRecords"⟩,
    stakeAddr ++ "::delegation_pool::GovernanceRecords", (recordsDoc (address '7')).1⟩

def voteItem : WriteTableItem :=
  ⟨address '7', "0x00", some ⟨"\"7\"", "u64", (voteDoc (address '6') (address '8')).1,
    voteDelegationValueType⟩⟩

/-- The delegator delegates his vote. -/
def delegateTxn : Protos.Transaction :=
  plainTxn 1 [.writeResource recordsResource [], .writeTableItem voteItem]

/-- The delegator adds stake. -/
def addStakeTxn : Protos.Transaction := plainTxn 2 [writePool, writeShares (address '2') "7"]

def delegatorKey : CurrentDelegatedVoterPK := (address 'a', address '6')

theorem fits_voteTxns : ∀ txn ∈ [delegateTxn, addStakeTxn], ∀ changes, txn.info = some changes →
    ∀ change ∈ changes, voteTables.Fits voteSdk change := by
  have hrecords : voteTables.Fits voteSdk (.writeResource recordsResource []) := by
    intro handle hhandle
    have hseven : voteDelegationHandle voteSdk recordsResource = some (some (address '7')) := by
      decide +kernel
    obtain rfl := Option.some.inj (Option.some.inj (hhandle.symm.trans hseven))
    decide
  have hpool : voteTables.Fits voteSdk writePool := by
    intro handle hhandle
    have hnone : (voteDelegationHandle voteSdk ⟨address 'a',
        ⟨stakeAddr, "delegation_pool", "DelegationPool"⟩,
        stakeAddr ++ "::delegation_pool::DelegationPool",
        (delegationPoolDoc (address '2') (address '3')).1⟩).join = none := by
      decide +kernel
    rw [hhandle] at hnone
    cases hnone
  intro txn htxn changes hchanges change hchange
  rcases List.mem_pair.mp htxn with rfl | rfl
  · obtain rfl := Option.some.inj hchanges
    rcases List.mem_pair.mp hchange with rfl | rfl
    · exact hrecords
    · trivial
  · obtain rfl := Option.some.inj hchanges
    rcases List.mem_pair.mp hchange with rfl | rfl
    · exact hpool
    · trivial

/-- Batches come in the order of the stream. -/
def FollowsStream (st : VoterStore) : VoterAction → Prop
  | .extract _ batch => InOrder (st.history ++ batch)
  | .store _ => True

instance (st : VoterStore) (action : VoterAction) : Decidable (FollowsStream st action) :=
  match action with
  | .extract _ batch => inferInstanceAs (Decidable (InOrder (st.history ++ batch)))
  | .store _ => inferInstanceAs (Decidable True)

/-- Without answers from the database such batches are possible if they are in order. -/
theorem possible_votes {st : VoterStore} {batch : List Protos.Transaction}
    (hbatch : batch ⊆ [delegateTxn, addStakeTxn])
    (horder : FollowsStream st (.extract noAnswers batch)) :
    VoterPossible voteSdk voteTables st (.extract noAnswers batch) := by
  refine ⟨horder, fun txn htxn => fits_voteTxns txn (hbatch htxn), ?_, ?_⟩
  · intro txnVersion index handle tried row hrow
    cases hrow
  · intro txnVersion index key tried row hrow
    cases hrow

theorem delegated_voter_last_single : ∃ (st : VoterStore) (row : CurrentDelegatedVoter),
    lastDelegation voteSdk voteTables st.history delegatorKey = some row ∧
      row.voter = some (address '8') ∧ st.backlog.table.lookup delegatorKey = some row := by
  obtain ⟨st, hrun, hpending, hlast⟩ := exists_run (voterStep voteSdk 5) FollowsStream .init
    [.extract noAnswers [delegateTxn], .store 0]
    (fun st => st.backlog.pending = [] ∧
      (lastDelegation voteSdk voteTables st.history delegatorKey).any fun row =>
        row.voter = some (address '8')) (by decide +kernel)
  obtain ⟨row, hrow, hvoter⟩ := (Option.any_eq_true _ _).mp hlast
  have hfinds (st : VoterStore) :
      FindsVoters voteSdk 5 voteTables st (.extract noAnswers [delegateTxn]) := by
    intro done txn hdone changes hchanges item index hitem
    obtain ⟨rfl, rfl⟩ := prefix_concat_singleton hdone
    obtain rfl := Option.some.inj hchanges
    have hitem' : item = voteItem := by
      have hmem := List.fst_mem_of_mem_zipIdx hitem
      rcases List.mem_pair.mp hmem with hother | hsame
      · cases hother
      · exact Protos.Change.writeTableItem.inj hsame
    obtain rfl := hitem'
    refine ⟨?_, ?_⟩
    · -- the batch names the table of vote delegations
      intro data _ _ _
      refine Or.inl ⟨delegateTxn, List.mem_singleton.mpr rfl, _, rfl, recordsResource, [],
        List.mem_cons_self, by decide +kernel⟩
    · -- and no resource names a table of active shares
      rintro pool ⟨txn, htxn, changes, hchanges, wr, params, hwr, balance, hbalance, -⟩
      rw [List.nil_append, List.mem_singleton] at htxn
      obtain rfl := htxn
      obtain rfl := Option.some.inj hchanges
      rcases List.mem_pair.mp hwr with hsame | hother
      · obtain ⟨rfl, rfl⟩ := Protos.Change.writeResource.inj hsame
        have hnone : (getDelegatedPoolMetadataFromWriteResource voteSdk recordsResource
            delegateTxn.txnVersion).join.isNone = true := by
          decide +kernel
        rw [hbalance] at hnone
        cases hnone
      · cases hother
  have hmeets : Run (voterStep voteSdk 5) (fun st action =>
      VoterPossible voteSdk voteTables st action ∧ FindsVoters voteSdk 5 voteTables st action)
      .init [.extract noAnswers [delegateTxn], .store 0] st := by
    refine hrun.imp_of_mem ?_
    intro action haction s hs
    rcases List.mem_pair.mp haction with rfl | rfl
    · exact ⟨possible_votes (by simp) hs, hfinds s⟩
    · exact ⟨trivial, trivial⟩
  exact ⟨st, row, hrow, of_decide_eq_true hvoter,
    (delegated_voter_last hmeets hpending delegatorKey).1 row hrow⟩

/-- The second batch is extracted before the first is stored: the delegator ends as his
own voter. -/
theorem default_overwrites_delegation :
    ∃ st, Run (voterStep voteSdk 5) (VoterPossible voteSdk voteTables) .init
        [.extract noAnswers [delegateTxn], .extract noAnswers [addStakeTxn], .store 0, .store 0]
        st ∧
      st.backlog.pending = [] ∧
      (∃ row, lastDelegation voteSdk voteTables st.history delegatorKey = some row ∧
        row.voter = some (address '8')) ∧
      ∃ row, st.backlog.table.lookup delegatorKey = some row ∧
        row.voter = some (address '6') ∧ row.tableHandle = none := by
  obtain ⟨st, hrun, hpending, hlast, hrow⟩ := exists_run (voterStep voteSdk 5) FollowsStream .init
    [.extract noAnswers [delegateTxn], .extract noAnswers [addStakeTxn], .store 0, .store 0]
    (fun st => st.backlog.pending = [] ∧
      (lastDelegation voteSdk voteTables st.history delegatorKey).any (fun row =>
        row.voter = some (address '8')) ∧
      (st.backlog.table.lookup delegatorKey).any fun row =>
        row.voter = some (address '6') ∧ row.tableHandle = none) (by decide +kernel)
  obtain ⟨last, hlast, hvoter⟩ := (Option.any_eq_true _ _).mp hlast
  obtain ⟨row, hrow, hdefault⟩ := (Option.any_eq_true _ _).mp hrow
  refine ⟨st, hrun.imp_of_mem ?_, hpending, ⟨last, hlast, of_decide_eq_true hvoter⟩,
    row, hrow, of_decide_eq_true hdefault⟩
  intro action haction s hs
  simp only [List.mem_cons, List.not_mem_nil, or_false] at haction
  rcases haction with rfl | rfl | rfl | rfl
  · exact possible_votes (by simp) hs
  · exact possible_votes (by simp) hs
  · trivial
  · trivial

end IndexerProcessors.Stake

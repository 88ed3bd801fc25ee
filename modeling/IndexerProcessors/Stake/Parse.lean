import IndexerProcessors.Lib.Fallible
import IndexerProcessors.Lib.LastWriter
import IndexerProcessors.Lib.Numeric
import IndexerProcessors.Resources

/-!
# Delegated staking

`parse_stake_data` goes through the transactions of a batch once. A delegation pool
has one table of active shares and one table of inactive pools, each of which has a
share table of its own. A change to a share table does not say whose it is: the pool
is found through maps that the resources of the batch fill, or by asking the database
for a row that was stored for the same table. So is the pool of a table of vote
delegations.

The model has the parts of the loop that fill `current_delegator_balances` and
`current_delegated_voter`. What the database answers is an argument, `Conn`: one
answer for each try of each query, whatever the tables hold. Where the source unwraps
an error or divides by zero the result is `none`.
-/

namespace IndexerProcessors.Stake

open IndexerProcessors.Lib
open IndexerProcessors.Protos

/-- What the processor calls outside the repository, beyond `Sdk`. -/
structure StakeSdk extends Sdk where
  /-- The division of `BigDecimal`s, which rounds, and panics on a zero divisor. -/
  bigDecimalDiv : ℚ → ℚ → Option ℚ

/-! ## Resources and table items -/

/-- `STAKE_ADDR`. -/
def stakeAddr : String := "0x0000000000000000000000000000000000000000000000000000000000000001"

/-- `Table::get_handle` of a member. -/
def getHandle (sdk : StakeSdk) (v : Json) (key : String) : Option String :=
  ((v.get key).bind (Json.getStr · "handle")).map sdk.standardizeAddress

structure StakePoolResource where
  delegatedVoter : String
  operatorAddress : String

def StakePoolResource.ofJson (v : Json) : Option StakePoolResource := do
  let delegatedVoter ← v.getStr "delegated_voter"
  let operatorAddress ← v.getStr "operator_address"
  return { delegatedVoter, operatorAddress }

/-- A `PoolResource`, with the handle of `shares.inner`. -/
structure PoolResource where
  sharesHandle : String
  totalCoins : ℚ
  totalShares : ℚ
  scalingFactor : ℚ

def PoolResource.ofJson (sdk : StakeSdk) (v : Json) : Option PoolResource := do
  let sharesHandle ← getHandle sdk (← v.get "shares") "inner"
  let totalCoins ← v.getBigDecimal sdk.toSdk "total_coins"
  let totalShares ← v.getBigDecimal sdk.toSdk "total_shares"
  let scalingFactor ← v.getBigDecimal sdk.toSdk "scaling_factor"
  return { sharesHandle, totalCoins, totalShares, scalingFactor }

structure DelegationPoolResource where
  activeShares : PoolResource
  inactiveSharesHandle : String
  operatorCommissionPercentage : ℚ

def DelegationPoolResource.ofJson (sdk : StakeSdk) (v : Json) : Option DelegationPoolResource := do
  let activeShares ← PoolResource.ofJson sdk (← v.get "active_shares")
  let inactiveSharesHandle ← getHandle sdk v "inactive_shares"
  let operatorCommissionPercentage ← v.getBigDecimal sdk.toSdk "operator_commission_percentage"
  return { activeShares, inactiveSharesHandle, operatorCommissionPercentage }

inductive StakeResource where
  | stakePool (inner : StakePoolResource)
  | delegationPool (inner : DelegationPoolResource)

/-- `StakeResource::from_write_resource`; a type that is not supported is `some none`. -/
def StakeResource.fromWriteResource (sdk : StakeSdk) (wr : WriteResource) :
    Option (Option StakeResource) :=
  let typeStr := getOuterTypeFromWriteResource sdk.toSdk wr
  if typeStr = stakeAddr ++ "::stake::StakePool" then do
    let inner ← StakePoolResource.ofJson (← sdk.fromStr wr.data)
    return some (.stakePool inner)
  else if typeStr = stakeAddr ++ "::delegation_pool::DelegationPool" then do
    let inner ← DelegationPoolResource.ofJson sdk (← sdk.fromStr wr.data)
    return some (.delegationPool inner)
  else some none

structure DelegatorPoolBalanceMetadata where
  transactionVersion : Int64
  stakingPoolAddress : String
  totalCoins : ℚ
  totalShares : ℚ
  scalingFactor : ℚ
  operatorCommissionPercentage : ℚ
  activeShareTableHandle : String
  inactiveShareTableHandle : String

/-- `DelegatorPool::get_delegated_pool_metadata_from_write_resource`. -/
def getDelegatedPoolMetadataFromWriteResource (sdk : StakeSdk) (wr : WriteResource)
    (txnVersion : Int64) : Option (Option DelegatorPoolBalanceMetadata) := do
  match ← StakeResource.fromWriteResource sdk wr with
  | some (.delegationPool inner) =>
    let totalShares ← sdk.bigDecimalDiv inner.activeShares.totalShares
      inner.activeShares.scalingFactor
    return some
      { transactionVersion := txnVersion
        stakingPoolAddress := sdk.standardizeAddress wr.address
        totalCoins := inner.activeShares.totalCoins
        totalShares
        scalingFactor := inner.activeShares.scalingFactor
        operatorCommissionPercentage := inner.operatorCommissionPercentage
        activeShareTableHandle := inner.activeShares.sharesHandle
        inactiveShareTableHandle := inner.inactiveSharesHandle }
  | _ => return none

structure PoolBalanceMetadata where
  transactionVersion : Int64
  totalCoins : ℚ
  totalShares : ℚ
  scalingFactor : ℚ
  sharesTableHandle : String
  parentTableHandle : String

/-- The type of the items of a table of inactive pools. -/
def poolValueType : String := "0x1::pool_u64_unbound::Pool"

/-- `DelegatorPool::get_inactive_pool_metadata_from_write_table_item`. -/
def getInactivePoolMetadataFromWriteTableItem (sdk : StakeSdk) (item : WriteTableItem)
    (txnVersion : Int64) : Option (Option PoolBalanceMetadata) := do
  let data ← item.data
  if data.valueType = poolValueType then
    let inner ← PoolResource.ofJson sdk (← sdk.fromStr data.value)
    let totalShares ← sdk.bigDecimalDiv inner.totalShares inner.scalingFactor
    return some
      { transactionVersion := txnVersion
        totalCoins := inner.totalCoins
        totalShares
        scalingFactor := inner.scalingFactor
        sharesTableHandle := inner.sharesHandle
        parentTableHandle := sdk.standardizeAddress item.handle }
  else return none

/-- A `VoteDelegationVector` entry. -/
structure VoteDelegation where
  key : String
  voter : String
  pendingVoter : String

def VoteDelegation.ofJson (v : Json) : Option VoteDelegation := do
  let key ← v.getStr "key"
  let value ← v.get "value"
  let voter ← value.getStr "voter"
  let pendingVoter ← value.getStr "pending_voter"
  return { key, voter, pendingVoter }

/-- The type of the buckets of vote delegations. -/
def voteDelegationValueType : String :=
  "vector<0x1::smart_table::Entry<address, 0x1::delegation_pool::VoteDelegation>>"

/-- `VoteDelegationTableItem::from_table_item_type`. -/
def VoteDelegation.fromTableItemType (sdk : StakeSdk) (dataType data : String) :
    Option (Option (List VoteDelegation)) :=
  if dataType = voteDelegationValueType then do
    let items ← (← sdk.fromStr data).asArray
    return some (← items.mapM VoteDelegation.ofJson)
  else some none

/-- The handle of the vote delegations in a `GovernanceRecords` resource. Unlike for
the other resources the text is parsed before the type is looked at. -/
def voteDelegationHandle (sdk : StakeSdk) (wr : WriteResource) : Option (Option String) := do
  let v ← sdk.fromStr wr.data
  if getOuterTypeFromWriteResource sdk.toSdk wr =
      stakeAddr ++ "::delegation_pool::GovernanceRecords" then
    let handle ← getHandle sdk (← (← v.get "vote_delegation").get "buckets") "inner"
    return some handle
  else return none

/-! ## Rows -/

/-- The `pool_type` of a balance, `active_shares` or `inactive_shares`. -/
inductive PoolType where
  | active
  | inactive
  deriving DecidableEq, Repr

structure CurrentDelegatorBalance where
  delegatorAddress : String
  poolAddress : String
  poolType : PoolType
  tableHandle : String
  lastTransactionVersion : Int64
  shares : ℚ
  parentTableHandle : String
  deriving DecidableEq

structure DelegatorBalance where
  transactionVersion : Int64
  writeSetChangeIndex : Int64
  delegatorAddress : String
  poolAddress : String
  poolType : PoolType
  tableHandle : String
  shares : ℚ
  parentTableHandle : String
  deriving DecidableEq

/-- `CurrentDelegatorBalancePK`, the key of the maps. -/
abbrev CurrentDelegatorBalancePK := String × String × PoolType

/-- The primary key of `current_delegator_balances`. -/
abbrev BalanceKey := CurrentDelegatorBalancePK × String

namespace CurrentDelegatorBalance

/-- Delegator, pool and type. -/
def mapKey (balance : CurrentDelegatorBalance) : CurrentDelegatorBalancePK :=
  (balance.delegatorAddress, balance.poolAddress, balance.poolType)

/-- Delegator, pool, type and table handle. -/
def pk (balance : CurrentDelegatorBalance) : BalanceKey := (balance.mapKey, balance.tableHandle)

end CurrentDelegatorBalance

structure CurrentDelegatedVoter where
  delegationPoolAddress : String
  delegatorAddress : String
  tableHandle : Option String
  voter : Option String
  pendingVoter : Option String
  lastTransactionVersion : Int64
  lastTransactionTimestamp : NaiveDateTime
  deriving DecidableEq

/-- Delegation pool and delegator. -/
abbrev CurrentDelegatedVoterPK := String × String

def CurrentDelegatedVoter.pk (voter : CurrentDelegatedVoter) : CurrentDelegatedVoterPK :=
  (voter.delegationPoolAddress, voter.delegatorAddress)

/-- The database as a batch finds it: for a change, by version and index, and for
each try of the loop around a query, what the query returns. `none` is no row, or no
answer. -/
structure Conn where
  /-- `CurrentDelegatorBalanceQuery::get_by_inactive_share_handle`. -/
  byInactiveShareHandle : Int64 → ℕ → String → ℕ → Option CurrentDelegatorBalance
  /-- `CurrentDelegatedVoterQuery::get_by_table_handle`. -/
  byTableHandle : Int64 → ℕ → String → ℕ → Option CurrentDelegatedVoter
  /-- `CurrentDelegatedVoterQuery::get_by_pk`. -/
  byPk : Int64 → ℕ → CurrentDelegatedVoterPK → ℕ → Option CurrentDelegatedVoter

/-! ## Delegator balances -/

abbrev ShareToStakingPoolMapping := Table String DelegatorPoolBalanceMetadata
abbrev ShareToPoolMapping := Table String PoolBalanceMetadata

/-- The two rows of a change to a share table. -/
def balanceRows (txnVersion : Int64) (index : ℕ) (delegatorAddress poolAddress : String)
    (poolType : PoolType) (tableHandle : String) (shares : ℚ) (parentTableHandle : String) :
    DelegatorBalance × CurrentDelegatorBalance :=
  ({ transactionVersion := txnVersion
     writeSetChangeIndex := Int64.ofNat index
     delegatorAddress, poolAddress, poolType, tableHandle, shares, parentTableHandle },
   { delegatorAddress, poolAddress, poolType, tableHandle
     lastTransactionVersion := txnVersion
     shares, parentTableHandle })

/-- The value of a share table item as `PostgresTableItem` and `BigDecimal` parse it;
the key has to parse too. -/
def decodedShares (sdk : StakeSdk) (item : WriteTableItem) : Option ℚ := do
  let data ← item.data
  let _ ← sdk.fromStr data.key
  sdk.bigDecimal (← (← sdk.fromStr data.value).asStr)

def getActiveShareFromWriteTableItem (sdk : StakeSdk) (item : WriteTableItem) (txnVersion : Int64)
    (index : ℕ) (activePoolToStakingPool : ShareToStakingPoolMapping) :
    Option (Option (DelegatorBalance × CurrentDelegatorBalance)) :=
  let tableHandle := sdk.standardizeAddress item.handle
  match activePoolToStakingPool.lookup tableHandle with
  | some poolBalance => do
    let shares ← sdk.bigDecimalDiv (← decodedShares sdk item) poolBalance.scalingFactor
    return some (balanceRows txnVersion index (sdk.standardizeAddress item.key)
      poolBalance.stakingPoolAddress .active tableHandle shares tableHandle)
  | none => some none

/-- `get_staking_pool_from_inactive_share_handle`. -/
def getStakingPoolFromInactiveShareHandle (query : ℕ → Option CurrentDelegatorBalance)
    (queryRetries : ℕ) : Option String :=
  (retried queryRetries query).map (·.poolAddress)

/-- The pool of a table of inactive pools: from the transaction, else from the database. -/
def inactiveStakingPool (conn : Conn) (queryRetries : ℕ) (txnVersion : Int64) (index : ℕ)
    (inactivePoolToStakingPool : ShareToStakingPoolMapping) (inactivePoolHandle : String) :
    Option String :=
  match inactivePoolToStakingPool.lookup inactivePoolHandle with
  | some poolBalance => some poolBalance.stakingPoolAddress
  | none => getStakingPoolFromInactiveShareHandle
      (conn.byInactiveShareHandle txnVersion index inactivePoolHandle) queryRetries

/-- A pool that is not found is logged, and the change skipped. -/
def getInactiveShareFromWriteTableItem (sdk : StakeSdk) (conn : Conn) (queryRetries : ℕ)
    (item : WriteTableItem) (txnVersion : Int64) (index : ℕ)
    (inactivePoolToStakingPool : ShareToStakingPoolMapping)
    (inactiveShareToPool : ShareToPoolMapping) :
    Option (Option (DelegatorBalance × CurrentDelegatorBalance)) :=
  let tableHandle := sdk.standardizeAddress item.handle
  match inactiveShareToPool.lookup tableHandle with
  | some poolBalance =>
    let inactivePoolHandle := poolBalance.parentTableHandle
    match inactiveStakingPool conn queryRetries txnVersion index inactivePoolToStakingPool
        inactivePoolHandle with
    | some poolAddress => do
      let shares ← sdk.bigDecimalDiv (← decodedShares sdk item) poolBalance.scalingFactor
      return some (balanceRows txnVersion index (sdk.standardizeAddress item.key) poolAddress
        .inactive tableHandle shares inactivePoolHandle)
    | none => some none
  | none => some none

/-- Setting the amount to 0 if the item is deleted. -/
def getActiveShareFromDeleteTableItem (sdk : StakeSdk) (item : DeleteTableItem)
    (txnVersion : Int64) (index : ℕ) (activePoolToStakingPool : ShareToStakingPoolMapping) :
    Option (DelegatorBalance × CurrentDelegatorBalance) :=
  let tableHandle := sdk.standardizeAddress item.handle
  (activePoolToStakingPool.lookup tableHandle).map fun poolBalance =>
    balanceRows txnVersion index (sdk.standardizeAddress item.key) poolBalance.stakingPoolAddress
      .active tableHandle 0 tableHandle

/-- A pool that is not found is an error here. The current row gets the handle of the
share table as its parent, the other row that of the table of inactive pools. -/
def getInactiveShareFromDeleteTableItem (sdk : StakeSdk) (conn : Conn) (queryRetries : ℕ)
    (item : DeleteTableItem) (txnVersion : Int64) (index : ℕ)
    (inactivePoolToStakingPool : ShareToStakingPoolMapping)
    (inactiveShareToPool : ShareToPoolMapping) :
    Option (Option (DelegatorBalance × CurrentDelegatorBalance)) :=
  let tableHandle := sdk.standardizeAddress item.handle
  match inactiveShareToPool.lookup tableHandle with
  | some poolBalance => do
    let inactivePoolHandle := poolBalance.parentTableHandle
    let poolAddress ← inactiveStakingPool conn queryRetries txnVersion index
      inactivePoolToStakingPool inactivePoolHandle
    let (balance, current) := balanceRows txnVersion index (sdk.standardizeAddress item.key)
      poolAddress .inactive tableHandle 0 inactivePoolHandle
    return some (balance, { current with parentTableHandle := tableHandle })
  | none => some none

/-- The maps of the first pass of `from_transaction`. -/
structure InactiveMaps where
  poolToStakingPool : ShareToStakingPoolMapping
  shareToPool : ShareToPoolMapping

/-- The first pass, for one change. -/
def InactiveMaps.add (sdk : StakeSdk) (txnVersion : Int64) (maps : InactiveMaps) :
    Protos.Change → Option InactiveMaps
  | .writeResource wr _ => do
    let balance ← getDelegatedPoolMetadataFromWriteResource sdk wr txnVersion
    return { maps with
      poolToStakingPool := maps.poolToStakingPool.insertAll
        (balance.toList.map fun b => (b.inactiveShareTableHandle, b)) }
  | .writeTableItem item => do
    let balance ← getInactivePoolMetadataFromWriteTableItem sdk item txnVersion
    return { maps with
      shareToPool := maps.shareToPool.insertAll
        (balance.toList.map fun b => (b.sharesTableHandle, b)) }
  | _ => some maps

/-- The rows of a change: active shares first, then inactive ones. -/
def changeBalance (sdk : StakeSdk) (conn : Conn) (queryRetries : ℕ) (txnVersion : Int64)
    (active : ShareToStakingPoolMapping) (maps : InactiveMaps) (index : ℕ) :
    Protos.Change → Option (Option (DelegatorBalance × CurrentDelegatorBalance))
  | .deleteTableItem item =>
    match getActiveShareFromDeleteTableItem sdk item txnVersion index active with
    | some balance => some (some balance)
    | none =>
      getInactiveShareFromDeleteTableItem sdk conn queryRetries item txnVersion index
        maps.poolToStakingPool maps.shareToPool
  | .writeTableItem item => do
    match ← getActiveShareFromWriteTableItem sdk item txnVersion index active with
    | some balance => return some balance
    | none =>
      getInactiveShareFromWriteTableItem sdk conn queryRetries item txnVersion index
        maps.poolToStakingPool maps.shareToPool
  | _ => some none

/-- A change with the rows it leads to. -/
structure Derived where
  change : Protos.Change
  balance : DelegatorBalance
  current : CurrentDelegatorBalance

/-- `CurrentDelegatorBalance::from_transaction`, with the changes the rows are from. -/
def fromTransaction (sdk : StakeSdk) (conn : Conn) (queryRetries : ℕ)
    (active : ShareToStakingPoolMapping) (txn : Protos.Transaction) : Option (List Derived) := do
  let _ ← txn.timestamp
  let changes ← txn.info
  let maps ← changes.foldlM (InactiveMaps.add sdk txn.txnVersion) ⟨∅, ∅⟩
  let rows ← changes.zipIdx.mapM fun change =>
    (changeBalance sdk conn queryRetries txn.txnVersion active maps change.2 change.1).map
      (·.map fun rows => ⟨change.1, rows.1, rows.2⟩)
  return rows.reduceOption

/-! ## Delegated voters -/

abbrev CurrentDelegatedVoterMap := Table CurrentDelegatedVoterPK CurrentDelegatedVoter

/-- The row of a vote delegation. -/
def delegatedVoter (sdk : StakeSdk) (poolAddress tableHandle : String) (txnVersion : Int64)
    (txnTimestamp : NaiveDateTime) (inner : VoteDelegation) : CurrentDelegatedVoter where
  delegationPoolAddress := poolAddress
  delegatorAddress := sdk.standardizeAddress inner.key
  tableHandle := some tableHandle
  voter := some (sdk.standardizeAddress inner.voter)
  pendingVoter := some (sdk.standardizeAddress inner.pendingVoter)
  lastTransactionVersion := txnVersion
  lastTransactionTimestamp := txnTimestamp

/-- `CurrentDelegatedVoter::from_write_table_item`. A pool that is not found is logged,
and the delegations are skipped, as they are for a pool without an address. -/
def CurrentDelegatedVoter.fromWriteTableItem (sdk : StakeSdk) (conn : Conn) (queryRetries : ℕ)
    (item : WriteTableItem) (txnVersion : Int64) (txnTimestamp : NaiveDateTime) (index : ℕ)
    (handleToPool : Table String String) : Option CurrentDelegatedVoterMap := do
  let data ← item.data
  let tableHandle := sdk.standardizeAddress item.handle
  match ← VoteDelegation.fromTableItemType sdk data.valueType data.value with
  | some delegations =>
    let poolAddress := match handleToPool.lookup tableHandle with
      | some poolAddress => poolAddress
      | none =>
        ((retried queryRetries (conn.byTableHandle txnVersion index tableHandle)).map
          (·.delegationPoolAddress)).getD ""
    if poolAddress = "" then return ∅
    else
      let voters := delegations.map
        (delegatedVoter sdk poolAddress tableHandle txnVersion txnTimestamp)
      return Table.insertAll ∅ (voters.map fun voter => (voter.pk, voter))
  | none => return ∅

/-- `get_delegators_pre_contract_deployment`: whoever has active shares and no voter
yet is his own voter. -/
def getDelegatorsPreContractDeployment (sdk : StakeSdk) (conn : Conn) (queryRetries : ℕ)
    (item : WriteTableItem) (txnVersion : Int64) (txnTimestamp : NaiveDateTime) (index : ℕ)
    (active : ShareToStakingPoolMapping) (previous : CurrentDelegatedVoterMap) :
    Option (Option CurrentDelegatedVoter) := do
  match ← getActiveShareFromWriteTableItem sdk item txnVersion 0 active with
  | some (_, activeBalance) =>
    let key := (activeBalance.poolAddress, activeBalance.delegatorAddress)
    let alreadyExists := match previous.lookup key with
      | some _ => true
      | none => (retried queryRetries (conn.byPk txnVersion index key)).isSome
    if alreadyExists then return none
    else
      return some
        { delegationPoolAddress := activeBalance.poolAddress
          delegatorAddress := activeBalance.delegatorAddress
          tableHandle := none
          voter := some activeBalance.delegatorAddress
          pendingVoter := some activeBalance.delegatorAddress
          lastTransactionVersion := txnVersion
          lastTransactionTimestamp := txnTimestamp }
  | none => return none

/-! ## A batch -/

/-- What `parse_stake_data` collects of a batch. -/
structure ParseState where
  voteDelegationHandleToPool : Table String String
  activePoolToStakingPool : ShareToStakingPoolMapping
  /-- The changes to share tables so far, with their rows. -/
  derived : List Derived
  currentDelegatorBalances : Table CurrentDelegatorBalancePK CurrentDelegatorBalance
  currentDelegatedVoter : CurrentDelegatedVoterMap

def ParseState.init : ParseState := ⟨∅, ∅, [], ∅, ∅⟩

/-- The pass that collects handles, for one change. -/
def addMetadata (sdk : StakeSdk) (txnVersion : Int64) (st : ParseState) :
    Protos.Change → Option ParseState
  | .writeResource wr _ => do
    let handle ← voteDelegationHandle sdk wr
    let balance ← getDelegatedPoolMetadataFromWriteResource sdk wr txnVersion
    return { st with
      voteDelegationHandleToPool := st.voteDelegationHandleToPool.insertAll
        (handle.toList.map fun h => (h, sdk.standardizeAddress wr.address))
      activePoolToStakingPool := st.activePoolToStakingPool.insertAll
        (balance.toList.map fun b => (b.activeShareTableHandle, b)) }
  | _ => some st

/-- The balances of a transaction. -/
def addBalances (sdk : StakeSdk) (conn : Conn) (queryRetries : ℕ) (txn : Protos.Transaction)
    (st : ParseState) : Option ParseState := do
  let derived ← fromTransaction sdk conn queryRetries st.activePoolToStakingPool txn
  let current : Table CurrentDelegatorBalancePK CurrentDelegatorBalance :=
    Table.insertAll ∅ (derived.map fun d => (d.current.mapKey, d.current))
  return { st with
    derived := st.derived ++ derived
    currentDelegatorBalances := st.currentDelegatorBalances.insertAll current.rows }

/-- The pass over vote delegations, for one change. -/
def addVoters (sdk : StakeSdk) (conn : Conn) (queryRetries : ℕ) (txnVersion : Int64)
    (txnTimestamp : NaiveDateTime) (st : ParseState) (change : Protos.Change × ℕ) :
    Option ParseState :=
  match change.1 with
  | .writeTableItem item => do
    let voterMap ← CurrentDelegatedVoter.fromWriteTableItem sdk conn queryRetries item txnVersion
      txnTimestamp change.2 st.voteDelegationHandleToPool
    return { st with
      currentDelegatedVoter := st.currentDelegatedVoter.insertAll voterMap.rows }
  | _ => some st

/-- The pass that fills in delegators without a delegation, for one change. -/
def addDefaultVoter (sdk : StakeSdk) (conn : Conn) (queryRetries : ℕ) (txnVersion : Int64)
    (txnTimestamp : NaiveDateTime) (st : ParseState) (change : Protos.Change × ℕ) :
    Option ParseState :=
  match change.1 with
  | .writeTableItem item => do
    let voter ← getDelegatorsPreContractDeployment sdk conn queryRetries item txnVersion
      txnTimestamp change.2 st.activePoolToStakingPool st.currentDelegatedVoter
    return { st with
      currentDelegatedVoter := st.currentDelegatedVoter.insertAll
        (voter.toList.map fun v => (v.pk, v)) }
  | _ => some st

/-- The body of the loop of `parse_stake_data`. -/
def parseTransaction (sdk : StakeSdk) (conn : Conn) (queryRetries : ℕ) (st : ParseState)
    (txn : Protos.Transaction) : Option ParseState := do
  let timestamp ← txn.timestamp
  let changes ← txn.info
  let txnTimestamp := sdk.parseTimestamp timestamp txn.txnVersion
  let st ← changes.foldlM (addMetadata sdk txn.txnVersion) st
  let st ← addBalances sdk conn queryRetries txn st
  let st ← changes.zipIdx.foldlM (addVoters sdk conn queryRetries txn.txnVersion txnTimestamp) st
  changes.zipIdx.foldlM (addDefaultVoter sdk conn queryRetries txn.txnVersion txnTimestamp) st

/-- `parse_stake_data`. The rows are sorted by key before they are returned, which
their statements do not depend on. -/
def parseStakeData (sdk : StakeSdk) (conn : Conn) (queryRetries : ℕ)
    (transactions : List Protos.Transaction) : Option ParseState :=
  transactions.foldlM (parseTransaction sdk conn queryRetries) .init

/-- `insert_current_delegator_balances_query` on a row that is there. -/
def balanceQuery (old excluded : CurrentDelegatorBalance) : CurrentDelegatorBalance :=
  if old.lastTransactionVersion ≤ excluded.lastTransactionVersion then
    { old with
      lastTransactionVersion := excluded.lastTransactionVersion
      shares := excluded.shares
      parentTableHandle := excluded.parentTableHandle }
  else old

/-- `insert_current_delegated_voter_query` on a row that is there. -/
def voterQuery (old excluded : CurrentDelegatedVoter) : CurrentDelegatedVoter :=
  if old.lastTransactionVersion ≤ excluded.lastTransactionVersion then
    { old with
      voter := excluded.voter
      pendingVoter := excluded.pendingVoter
      lastTransactionTimestamp := excluded.lastTransactionTimestamp
      lastTransactionVersion := excluded.lastTransactionVersion
      tableHandle := excluded.tableHandle }
  else old

theorem balanceQuery_eq_later {old excluded : CurrentDelegatorBalance} (h : old.pk = excluded.pk) :
    balanceQuery old excluded = later (·.lastTransactionVersion) old excluded := by
  obtain ⟨hkey, hhandle⟩ := Prod.mk.inj h
  obtain ⟨hdelegator, hkey⟩ := Prod.mk.inj hkey
  obtain ⟨hpool, htype⟩ := Prod.mk.inj hkey
  unfold balanceQuery later
  rw [hdelegator, hpool, htype, hhandle]

theorem voterQuery_eq_later {old excluded : CurrentDelegatedVoter} (h : old.pk = excluded.pk) :
    voterQuery old excluded = later (·.lastTransactionVersion) old excluded := by
  obtain ⟨hpool, hdelegator⟩ := Prod.mk.inj h
  unfold voterQuery later
  rw [hdelegator, hpool]

end IndexerProcessors.Stake

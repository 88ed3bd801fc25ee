import IndexerProcessors.Stake.DelegatorPools
import IndexerProcessors.Stake.ProposalVotes

/-!
# Pools, their voters, and what delegators do

The parts of `parse_stake_data` that ask the database for nothing: a staking pool's
voter and operator, off its `StakePool` resource; a delegation pool's balances; and one
activity for each event of a delegation pool. `StakeRows` has what a batch collects of
them, and `parseStakeRows_eq` says what that is: of a pool the row of its last write, of
the activities every one.
-/

namespace IndexerProcessors.Stake

open IndexerProcessors.Lib
open IndexerProcessors.Protos

/-! ## Voters of staking pools -/

structure CurrentStakingPoolVoter where
  stakingPoolAddress : String
  voterAddress : String
  lastTransactionVersion : Int64
  operatorAddress : String
  blockTimestamp : NaiveDateTime
  deriving DecidableEq

structure PostgresCurrentStakingPoolVoter where
  stakingPoolAddress : String
  voterAddress : String
  lastTransactionVersion : Int64
  operatorAddress : String
  deriving DecidableEq

def PostgresCurrentStakingPoolVoter.ofBase (base : CurrentStakingPoolVoter) :
    PostgresCurrentStakingPoolVoter where
  stakingPoolAddress := base.stakingPoolAddress
  voterAddress := base.voterAddress
  lastTransactionVersion := base.lastTransactionVersion
  operatorAddress := base.operatorAddress

namespace CurrentStakingPoolVoter

/-- The row of a change, if it writes a staking pool. -/
def ofChange (sdk : StakeSdk) (txnVersion : Int64) (blockTimestamp : NaiveDateTime) :
    Protos.Change → Option (Option CurrentStakingPoolVoter)
  | .writeResource wr _ => do
    match ← StakeResource.fromWriteResource sdk wr with
    | some (.stakePool inner) =>
      return some
        { stakingPoolAddress := sdk.standardizeAddress wr.address
          voterAddress := sdk.standardizeAddress inner.delegatedVoter
          lastTransactionVersion := txnVersion
          operatorAddress := sdk.standardizeAddress inner.operatorAddress
          blockTimestamp }
    | _ => return none
  | _ => some none

/-- One change: a staking pool's row takes the place of an earlier one. -/
def addChange (sdk : StakeSdk) (txnVersion : Int64) (blockTimestamp : NaiveDateTime)
    (voters : Table String CurrentStakingPoolVoter) (change : Protos.Change) :
    Option (Table String CurrentStakingPoolVoter) := do
  match ← ofChange sdk txnVersion blockTimestamp change with
  | some voter => return voters.insert voter.stakingPoolAddress voter
  | none => return voters

/-- `CurrentStakingPoolVoter::from_transaction`. -/
def fromTransaction (sdk : StakeSdk) (txn : Protos.Transaction) :
    Option (Table String CurrentStakingPoolVoter) := do
  let timestamp ← txn.timestamp
  let changes ← txn.info
  changes.foldlM (addChange sdk txn.txnVersion (sdk.parseTimestamp timestamp txn.txnVersion)) ∅

end CurrentStakingPoolVoter

/-! ## Activities -/

structure DelegatedStakingActivity where
  transactionVersion : Int64
  eventIndex : Int64
  delegatorAddress : String
  poolAddress : String
  eventType : String
  amount : ℚ
  blockTimestamp : NaiveDateTime
  deriving DecidableEq

structure PostgresDelegatedStakingActivity where
  transactionVersion : Int64
  eventIndex : Int64
  delegatorAddress : String
  poolAddress : String
  eventType : String
  amount : ℚ
  deriving DecidableEq

/-- The primary key. -/
def PostgresDelegatedStakingActivity.pk (row : PostgresDelegatedStakingActivity) : Int64 × Int64 :=
  (row.transactionVersion, row.eventIndex)

def PostgresDelegatedStakingActivity.ofBase (base : DelegatedStakingActivity) :
    PostgresDelegatedStakingActivity where
  transactionVersion := base.transactionVersion
  eventIndex := base.eventIndex
  delegatorAddress := base.delegatorAddress
  poolAddress := base.poolAddress
  eventType := base.eventType
  amount := base.amount

namespace DelegatedStakingActivity

/-- The row of one of the four events of a delegator. -/
def ofDelegation (sdk : StakeSdk) (txnVersion : Int64) (blockTimestamp : NaiveDateTime)
    (event : Protos.Event) (index : ℕ) (inner : DelegationEvent) : DelegatedStakingActivity where
  transactionVersion := txnVersion
  eventIndex := Int64.ofNat index
  delegatorAddress := sdk.standardizeAddress inner.delegatorAddress
  poolAddress := sdk.standardizeAddress inner.poolAddress
  eventType := event.typeStr
  amount := inner.amount.toNat
  blockTimestamp := blockTimestamp

/-- The row of a distribution, which names no delegator. -/
def ofRewards (sdk : StakeSdk) (txnVersion : Int64) (blockTimestamp : NaiveDateTime)
    (event : Protos.Event) (index : ℕ) (inner : DistributeRewardsEvent) :
    DelegatedStakingActivity where
  transactionVersion := txnVersion
  eventIndex := Int64.ofNat index
  delegatorAddress := ""
  poolAddress := sdk.standardizeAddress inner.poolAddress
  eventType := event.typeStr
  amount := inner.rewardsAmount.toNat
  blockTimestamp := blockTimestamp

/-- The row of a staking event; a vote has none. -/
def ofStakeEvent (sdk : StakeSdk) (txnVersion : Int64) (blockTimestamp : NaiveDateTime)
    (event : Protos.Event) (index : ℕ) : StakeEvent → Option DelegatedStakingActivity
  | .addStakeEvent inner | .unlockStakeEvent inner | .withdrawStakeEvent inner
  | .reactivateStakeEvent inner =>
    some (ofDelegation sdk txnVersion blockTimestamp event index inner)
  | .distributeRewardsEvent inner =>
    some (ofRewards sdk txnVersion blockTimestamp event index inner)
  | .governanceVoteEvent _ => none

/-- The row of an event, if it has one. -/
def ofEvent (sdk : StakeSdk) (txnVersion : Int64) (blockTimestamp : NaiveDateTime)
    (event : Protos.Event × ℕ) : Option (Option DelegatedStakingActivity) := do
  let stakingEvent ← StakeEvent.fromEvent sdk event.1.typeStr event.1.data
  return stakingEvent.bind (ofStakeEvent sdk txnVersion blockTimestamp event.1 event.2)

/-- The events that are looked at, if it is a transaction of a kind that has them. -/
def eventsOf : Protos.TxnData → Option (List Protos.Event)
  | .user _ events | .blockMetadata events | .validator events => some events
  | .genesis _ | .other => none

/-- `DelegatedStakingActivity::from_transaction`. -/
def fromTransaction (sdk : StakeSdk) (txn : Protos.Transaction) :
    Option (List DelegatedStakingActivity) :=
  match txn.txnData.bind eventsOf with
  | none => some []
  | some events => do
    let timestamp ← txn.timestamp
    let rows ← events.zipIdx.mapM
      (ofEvent sdk txn.txnVersion (sdk.parseTimestamp timestamp txn.txnVersion))
    return rows.reduceOption

end DelegatedStakingActivity

/-! ## A batch -/

/-- What the loop of `parse_stake_data` has collected. -/
structure StakeRows where
  currentStakePoolVoters : Table String CurrentStakingPoolVoter
  proposalVotes : List ProposalVote
  delegatorActivities : List DelegatedStakingActivity
  pools : PoolRows

def StakeRows.empty : StakeRows := ⟨∅, [], [], .empty⟩

/-- One transaction. -/
def addStakeRows (sdk : StakeSdk) (rows : StakeRows) (txn : Protos.Transaction) :
    Option StakeRows := do
  let _ ← txn.timestamp
  let voters ← CurrentStakingPoolVoter.fromTransaction sdk txn
  let votes ← ProposalVote.fromTransaction sdk txn
  let activities ← DelegatedStakingActivity.fromTransaction sdk txn
  let pools ← addPools sdk rows.pools txn
  return {
    currentStakePoolVoters := rows.currentStakePoolVoters.insertAll voters.rows
    proposalVotes := rows.proposalVotes ++ votes
    delegatorActivities := rows.delegatorActivities ++ activities
    pools }

/-- `parse_stake_data`, without what asks the database. -/
def parseStakeRows (sdk : StakeSdk) (transactions : List Protos.Transaction) : Option StakeRows :=
  transactions.foldlM (addStakeRows sdk) .empty

/-! ## Statements -/

/-- `insert_current_stake_pool_voter_query` on a row that is there. -/
def insertCurrentStakePoolVoterQuery (old excluded : PostgresCurrentStakingPoolVoter) :
    PostgresCurrentStakingPoolVoter :=
  if old.lastTransactionVersion ≤ excluded.lastTransactionVersion then
    { stakingPoolAddress := excluded.stakingPoolAddress
      voterAddress := excluded.voterAddress
      lastTransactionVersion := excluded.lastTransactionVersion
      operatorAddress := excluded.operatorAddress }
  else old

/-- `insert_delegator_activities_query`. -/
def insertDelegatorActivitiesQuery (old _excluded : PostgresDelegatedStakingActivity) :
    PostgresDelegatedStakingActivity := old

/-- `insert_current_delegator_pool_balances_query`. -/
def insertCurrentDelegatorPoolBalancesQuery (old excluded : CurrentDelegatorPoolBalance) :
    CurrentDelegatorPoolBalance :=
  if old.lastTransactionVersion ≤ excluded.lastTransactionVersion then
    { old with
      totalCoins := excluded.totalCoins
      totalShares := excluded.totalShares
      lastTransactionVersion := excluded.lastTransactionVersion
      operatorCommissionPercentage := excluded.operatorCommissionPercentage
      inactiveTableHandle := excluded.inactiveTableHandle
      activeTableHandle := excluded.activeTableHandle }
  else old

theorem insertCurrentStakePoolVoterQuery_eq (old excluded : PostgresCurrentStakingPoolVoter) :
    insertCurrentStakePoolVoterQuery old excluded =
      later PostgresCurrentStakingPoolVoter.lastTransactionVersion old excluded := rfl

theorem insertCurrentDelegatorPoolBalancesQuery_eq {old excluded : CurrentDelegatorPoolBalance}
    (h : old.stakingPoolAddress = excluded.stakingPoolAddress) :
    insertCurrentDelegatorPoolBalancesQuery old excluded =
      later CurrentDelegatorPoolBalance.lastTransactionVersion old excluded := by
  unfold insertCurrentDelegatorPoolBalancesQuery later
  rw [h]

/-! ## What a batch collects -/

section Batch

variable {sdk : StakeSdk}

/-- The voters that a transaction writes, in the order of its changes. -/
def voterRows (sdk : StakeSdk) (txn : Protos.Transaction) : List CurrentStakingPoolVoter :=
  match txn.timestamp with
  | none => []
  | some timestamp => (txn.info.getD []).filterMap fun change =>
    (CurrentStakingPoolVoter.ofChange sdk txn.txnVersion
      (sdk.parseTimestamp timestamp txn.txnVersion) change).join

/-- The balances of the delegation pools that a user transaction writes. -/
def poolBalanceRows (sdk : StakeSdk) (txn : Protos.Transaction) :
    List CurrentDelegatorPoolBalance :=
  match txn.txnData with
  | some (.user ..) => (txn.info.getD []).filterMap fun
    | .writeResource wr _ =>
      (DelegatorPool.fromWriteResource sdk wr txn.txnVersion).join.map (·.2.2)
    | _ => none
  | _ => []

/-- The events that give activities. -/
def activityEvents (txn : Protos.Transaction) : List Protos.Event :=
  (txn.txnData.bind DelegatedStakingActivity.eventsOf).getD []

/-- The activity of an event. -/
def activityRow (sdk : StakeSdk) (txn : Protos.Transaction) (event : Protos.Event × ℕ) :
    Option DelegatedStakingActivity :=
  txn.timestamp.bind fun timestamp =>
    (DelegatedStakingActivity.ofEvent sdk txn.txnVersion
      (sdk.parseTimestamp timestamp txn.txnVersion) event).join

/-- The activities of a transaction, in the order of its events. -/
def activityRows (sdk : StakeSdk) (txn : Protos.Transaction) : List DelegatedStakingActivity :=
  (activityEvents txn).zipIdx.filterMap (activityRow sdk txn)

/-- The three rows of a pool have its address. -/
theorem fromWriteResource_sameAddress {wr : WriteResource} {txnVersion : Int64}
    {row : DelegatorPool × DelegatorPoolBalance × CurrentDelegatorPoolBalance}
    (h : DelegatorPool.fromWriteResource sdk wr txnVersion = some (some row)) :
    row.1.stakingPoolAddress = row.2.2.stakingPoolAddress := by
  obtain ⟨metadata, -, h⟩ := Option.bind_eq_some_iff.mp h
  cases metadata with
  | none => cases h
  | some balance =>
    obtain rfl := Option.some.inj (Option.some.inj h)
    rfl

theorem fromWriteResource_version {wr : WriteResource} {txnVersion : Int64}
    {row : DelegatorPool × DelegatorPoolBalance × CurrentDelegatorPoolBalance}
    (h : DelegatorPool.fromWriteResource sdk wr txnVersion = some (some row)) :
    row.2.2.lastTransactionVersion = txnVersion := by
  obtain ⟨metadata, hmetadata, h⟩ := Option.bind_eq_some_iff.mp h
  cases metadata with
  | none => cases h
  | some balance =>
    obtain rfl := Option.some.inj (Option.some.inj h)
    obtain ⟨resource, -, hmetadata⟩ := Option.bind_eq_some_iff.mp hmetadata
    split at hmetadata
    · obtain ⟨totalShares, -, hmetadata⟩ := Option.bind_eq_some_iff.mp hmetadata
      obtain rfl := Option.some.inj (Option.some.inj hmetadata)
      rfl
    · cases hmetadata

/-- A loop that inserts the rows of what it goes through into one of its maps. -/
theorem collects_foldlM {α σ ρ κ : Type} [DecidableEq κ] {pk : ρ → κ} {row : α → Option ρ}
    (view : σ → Table κ ρ) {step : σ → α → Option σ}
    (hstep : ∀ s a s', step s a = some s' →
      view s' = (view s).insertAll ((row a).toList.map fun r => (pk r, r)))
    {as : List α} {s s' : σ} (hinit : view s = ∅) (h : as.foldlM step s = some s') :
    Collects pk id (as.filterMap row) (view s') := by
  have hall : view s' = Table.insertAll ∅ ((as.filterMap row).map fun r => (pk r, r)) := by
    refine foldlM_prefix (P := fun done s =>
      view s = Table.insertAll ∅ ((done.filterMap row).map fun r => (pk r, r))) h hinit ?_
    intro done a s s' _ hs hnext
    rw [hstep s a s' hnext, hs, List.filterMap_append, List.map_append, Table.insertAll_append]
    cases hrow : row a with
    | none => simp [hrow]
    | some r => simp [hrow]
  rw [hall]
  exact collects_insertAll pk id _

theorem collects_voters {txn : Protos.Transaction} {voters : Table String CurrentStakingPoolVoter}
    (h : CurrentStakingPoolVoter.fromTransaction sdk txn = some voters) :
    Collects CurrentStakingPoolVoter.stakingPoolAddress id (voterRows sdk txn) voters := by
  obtain ⟨timestamp, htimestamp, h⟩ := Option.bind_eq_some_iff.mp h
  obtain ⟨changes, hchanges, h⟩ := Option.bind_eq_some_iff.mp h
  rw [voterRows, htimestamp, hchanges]
  refine collects_foldlM (fun voters => voters) ?_ rfl h
  intro voters change voters' hstep
  obtain ⟨row, hrow, hstep⟩ := Option.bind_eq_some_iff.mp hstep
  rw [hrow]
  cases row with
  | none => exact (Option.some.inj hstep).symm
  | some voter => exact (Option.some.inj hstep).symm

theorem collects_poolBalances {txn : Protos.Transaction} {rows : PoolRows}
    (h : DelegatorPool.fromTransaction sdk txn = some rows) :
    Collects CurrentDelegatorPoolBalance.stakingPoolAddress id (poolBalanceRows sdk txn)
      rows.currentDelegatorPoolBalances := by
  have hempty : Collects CurrentDelegatorPoolBalance.stakingPoolAddress id []
      PoolRows.empty.currentDelegatorPoolBalances := fun c => AList.lookup_empty c
  unfold DelegatorPool.fromTransaction at h
  unfold poolBalanceRows
  split at h
  next hdata =>
    obtain rfl := Option.some.inj h
    rw [hdata]
    exact hempty
  next txnData hdata =>
    obtain ⟨timestamp, -, h⟩ := Option.bind_eq_some_iff.mp h
    rw [hdata]
    cases txnData with
    | user request events =>
      obtain ⟨changes, hchanges, h⟩ := Option.bind_eq_some_iff.mp h
      rw [hchanges]
      -- Change by change: a pool resource puts its balance under its pool, others put none.
      refine collects_foldlM PoolRows.currentDelegatorPoolBalances ?_ rfl h
      intro rows change rows' hstep
      cases change with
      | writeResource wr params =>
        obtain ⟨row, hrow, hstep⟩ := Option.bind_eq_some_iff.mp hstep
        cases row with
        | none =>
          obtain rfl := Option.some.inj hstep
          simp [hrow, Table.insertAll]
        | some row =>
          obtain rfl := Option.some.inj hstep
          have hpool : row.1.stakingPoolAddress = row.2.2.stakingPoolAddress :=
            fromWriteResource_sameAddress hrow
          simp [hrow, Table.insertAll, hpool]
      | deleteResource | writeTableItem | deleteTableItem | other =>
        obtain rfl := Option.some.inj hstep
        rfl
    | blockMetadata | genesis | validator | other =>
      obtain rfl := Option.some.inj h
      exact hempty

theorem fromTransaction_activities {txn : Protos.Transaction}
    {activities : List DelegatedStakingActivity}
    (h : DelegatedStakingActivity.fromTransaction sdk txn = some activities) :
    activities = activityRows sdk txn := by
  unfold DelegatedStakingActivity.fromTransaction at h
  unfold activityRows activityEvents
  split at h
  next hnone =>
    obtain rfl := Option.some.inj h
    rw [hnone]
    rfl
  next events hevents =>
    obtain ⟨timestamp, htimestamp, h⟩ := Option.bind_eq_some_iff.mp h
    obtain ⟨rows, hrows, h⟩ := Option.bind_eq_some_iff.mp h
    obtain rfl := Option.some.inj h
    have hrow : activityRow sdk txn = fun event => (DelegatedStakingActivity.ofEvent sdk
        txn.txnVersion (sdk.parseTimestamp timestamp txn.txnVersion) event).join := by
      funext event
      rw [activityRow, htimestamp, Option.bind_some]
    rw [hevents, Option.getD_some, hrow]
    exact reduceOption_of_mapM hrows

/-- **What a batch collects.** Of each pool the last row, of the activities all. -/
theorem parseStakeRows_eq {batch : List Protos.Transaction} {out : StakeRows}
    (h : parseStakeRows sdk batch = some out) :
    Collects CurrentStakingPoolVoter.stakingPoolAddress id (batch.flatMap (voterRows sdk))
        out.currentStakePoolVoters ∧
      Collects CurrentDelegatorPoolBalance.stakingPoolAddress id
        (batch.flatMap (poolBalanceRows sdk)) out.pools.currentDelegatorPoolBalances ∧
      out.delegatorActivities = batch.flatMap (activityRows sdk) := by
  refine foldlM_prefix (P := fun done rows =>
    Collects CurrentStakingPoolVoter.stakingPoolAddress id (done.flatMap (voterRows sdk))
        rows.currentStakePoolVoters ∧
      Collects CurrentDelegatorPoolBalance.stakingPoolAddress id
        (done.flatMap (poolBalanceRows sdk)) rows.pools.currentDelegatorPoolBalances ∧
      rows.delegatorActivities = done.flatMap (activityRows sdk)) h
    ⟨fun c => AList.lookup_empty c, fun c => AList.lookup_empty c, rfl⟩ ?_
  rintro done txn rows rows' - ⟨hvoters, hbalances, hactivities⟩ hstep
  obtain ⟨timestamp, -, hstep⟩ := Option.bind_eq_some_iff.mp hstep
  obtain ⟨voters, hnewVoters, hstep⟩ := Option.bind_eq_some_iff.mp hstep
  obtain ⟨votes, -, hstep⟩ := Option.bind_eq_some_iff.mp hstep
  obtain ⟨activities, hnewActivities, hstep⟩ := Option.bind_eq_some_iff.mp hstep
  obtain ⟨pools, hpools, hstep⟩ := Option.bind_eq_some_iff.mp hstep
  obtain rfl := Option.some.inj hstep
  obtain ⟨timestamp', -, hpools⟩ := Option.bind_eq_some_iff.mp hpools
  obtain ⟨new, hnew, hpools⟩ := Option.bind_eq_some_iff.mp hpools
  obtain rfl := Option.some.inj hpools
  rw [List.flatMap_append, List.flatMap_append, List.flatMap_append, List.flatMap_singleton,
    List.flatMap_singleton, List.flatMap_singleton]
  exact ⟨hvoters.extend _ _ (collects_voters hnewVoters),
    hbalances.extend _ _ (collects_poolBalances hnew),
    by rw [hactivities, fromTransaction_activities hnewActivities]⟩

end Batch

end IndexerProcessors.Stake

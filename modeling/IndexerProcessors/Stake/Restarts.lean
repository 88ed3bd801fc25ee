import IndexerProcessors.Stake.PoolRows
import IndexerProcessors.Status.Lives

/-!
# Pools survive restarts

The stake processor, with its checkpoints, and the three of its tables that need no
query: the voters of staking pools and the balances of delegation pools, which keep the
last row of a pool, and the activities, which keep every row. The statements of a batch
run side by side, and a death leaves any part of what they would have written.

`pools_survive_restarts`: once the processor is back where it was, a pool has the row of
its last write, and there is one activity for each event, no more and no fewer.
-/

namespace IndexerProcessors.Stake

open IndexerProcessors.Lib
open IndexerProcessors.Protos
open IndexerProcessors.Status

/-- An upsert into one of the three tables. -/
inductive StakeWrite where
  | voter (key : String) (write : Write PostgresCurrentStakingPoolVoter)
  | poolBalance (key : String) (write : Write CurrentDelegatorPoolBalance)
  | activity (key : Int64 × Int64) (write : Write PostgresDelegatedStakingActivity)

namespace StakeWrite

def voter? : StakeWrite → Option (String × Write PostgresCurrentStakingPoolVoter)
  | voter key write => some (key, write)
  | _ => none

def poolBalance? : StakeWrite → Option (String × Write CurrentDelegatorPoolBalance)
  | poolBalance key write => some (key, write)
  | _ => none

def activity? : StakeWrite → Option ((Int64 × Int64) × Write PostgresDelegatedStakingActivity)
  | activity key write => some (key, write)
  | _ => none

@[simp] theorem voter?_eq_some {x : StakeWrite} {k : String}
    {w : Write PostgresCurrentStakingPoolVoter} : x.voter? = some (k, w) ↔ x = .voter k w := by
  cases x <;> simp [voter?]

@[simp] theorem poolBalance?_eq_some {x : StakeWrite} {k : String}
    {w : Write CurrentDelegatorPoolBalance} :
    x.poolBalance? = some (k, w) ↔ x = .poolBalance k w := by
  cases x <;> simp [poolBalance?]

@[simp] theorem activity?_eq_some {x : StakeWrite} {k : Int64 × Int64}
    {w : Write PostgresDelegatedStakingActivity} :
    x.activity? = some (k, w) ↔ x = .activity k w := by
  cases x <;> simp [activity?]

end StakeWrite

/-- What the storer writes of a batch. -/
def StakeRows.writes (rows : StakeRows) : List StakeWrite :=
  (rows.currentStakePoolVoters.rows.map fun entry =>
    .voter entry.1 ⟨.ofBase entry.2, insertCurrentStakePoolVoterQuery⟩) ++
  (rows.pools.currentDelegatorPoolBalances.rows.map fun entry =>
    .poolBalance entry.1 ⟨entry.2, insertCurrentDelegatorPoolBalancesQuery⟩) ++
  (rows.delegatorActivities.map fun activity =>
    let row := PostgresDelegatedStakingActivity.ofBase activity
    .activity row.pk ⟨row, insertDelegatorActivitiesQuery⟩)

/-- The stake processor. -/
def stakeProcessor (boot : BootStrapConfig) (sdk : StakeSdk) :
    Processor StatusDb Protos.Transaction StakeWrite where
  checkpoints := defaultCheckpoints sdk.toSdk "stake_processor" boot
  writes batch := (parseStakeRows sdk batch).map StakeRows.writes

/-- `current_staking_pool_voter` after some writes. -/
def voterTable (log : List StakeWrite) : Table String PostgresCurrentStakingPoolVoter :=
  Table.writeAll ∅ (log.filterMap StakeWrite.voter?)

/-- `current_delegated_staking_pool_balances`. -/
def poolBalanceTable (log : List StakeWrite) : Table String CurrentDelegatorPoolBalance :=
  Table.writeAll ∅ (log.filterMap StakeWrite.poolBalance?)

/-- `delegated_staking_activities`. -/
def activityTable (log : List StakeWrite) :
    Table (Int64 × Int64) PostgresDelegatedStakingActivity :=
  Table.writeAll ∅ (log.filterMap StakeWrite.activity?)

/-! ## Rows and their versions -/

section Rows

variable {boot : BootStrapConfig} {sdk : StakeSdk}

/-- The stored voters of a transaction. -/
def voterRowsOf (sdk : StakeSdk) (txn : Protos.Transaction) :
    List PostgresCurrentStakingPoolVoter :=
  (voterRows sdk txn).map PostgresCurrentStakingPoolVoter.ofBase

/-- The stored activities of a transaction. -/
def activityRowsOf (sdk : StakeSdk) (txn : Protos.Transaction) :
    List PostgresDelegatedStakingActivity :=
  (activityEvents txn).zipIdx.filterMap fun event =>
    (activityRow sdk txn event).map PostgresDelegatedStakingActivity.ofBase

theorem activityRowsOf_eq (txn : Protos.Transaction) :
    activityRowsOf sdk txn =
      (activityRows sdk txn).map PostgresDelegatedStakingActivity.ofBase := by
  rw [activityRows, List.map_filterMap]
  rfl

theorem version_of_ofChange {version : Int64} {timestamp : NaiveDateTime} {change : Protos.Change}
    {row : CurrentStakingPoolVoter}
    (h : CurrentStakingPoolVoter.ofChange sdk version timestamp change = some (some row)) :
    row.lastTransactionVersion = version := by
  cases change with
  | writeResource wr params =>
    obtain ⟨resource, -, h⟩ := Option.bind_eq_some_iff.mp h
    split at h
    · obtain rfl := Option.some.inj (Option.some.inj h)
      rfl
    · cases h
  | deleteResource | writeTableItem | deleteTableItem | other => cases h

theorem version_of_mem_voterRowsOf {txn : Protos.Transaction}
    {row : PostgresCurrentStakingPoolVoter} (h : row ∈ voterRowsOf sdk txn) :
    row.lastTransactionVersion = txn.txnVersion := by
  obtain ⟨base, hbase, rfl⟩ := List.mem_map.mp h
  unfold voterRows at hbase
  split at hbase
  next => cases hbase
  next timestamp _ =>
    obtain ⟨change, -, hrow⟩ := List.mem_filterMap.mp hbase
    exact version_of_ofChange (Option.join_eq_some_iff.mp hrow)

theorem version_of_mem_poolBalanceRows {txn : Protos.Transaction}
    {row : CurrentDelegatorPoolBalance} (h : row ∈ poolBalanceRows sdk txn) :
    row.lastTransactionVersion = txn.txnVersion := by
  unfold poolBalanceRows at h
  split at h
  next =>
    obtain ⟨change, -, hrow⟩ := List.mem_filterMap.mp h
    cases change with
    | writeResource wr params =>
      obtain ⟨rows, hrows, rfl⟩ := Option.map_eq_some_iff.mp hrow
      exact fromWriteResource_version (Option.join_eq_some_iff.mp hrows)
    | deleteResource | writeTableItem | deleteTableItem | other => cases hrow
  next => cases h

/-- The key of an activity is where its event is. -/
theorem pk_of_activityRow {txn : Protos.Transaction} {event : Protos.Event × ℕ}
    {row : PostgresDelegatedStakingActivity}
    (h : (activityRow sdk txn event).map PostgresDelegatedStakingActivity.ofBase = some row) :
    row.pk = (txn.txnVersion, Int64.ofNat event.2) := by
  obtain ⟨base, hbase, rfl⟩ := Option.map_eq_some_iff.mp h
  obtain ⟨timestamp, -, hbase⟩ := Option.bind_eq_some_iff.mp hbase
  obtain ⟨parsed, -, hparsed⟩ := Option.bind_eq_some_iff.mp (Option.join_eq_some_iff.mp hbase)
  obtain ⟨inner, -, hrow⟩ := Option.bind_eq_some_iff.mp (Option.some.inj hparsed)
  cases inner with
  | governanceVoteEvent => cases hrow
  | distributeRewardsEvent | addStakeEvent | unlockStakeEvent | withdrawStakeEvent
  | reactivateStakeEvent =>
    obtain rfl := Option.some.inj hrow
    rfl

/-- No two events give activities of one key. -/
theorem eq_of_activity_pk (ledger : Ledger Protos.Transaction)
    (hevents : ∀ txn ∈ ledger.txns, (activityEvents txn).length ≤ 2 ^ 63) :
    ∀ r ∈ ledger.txns.flatMap (activityRowsOf sdk), ∀ r' ∈ ledger.txns.flatMap (activityRowsOf sdk),
      r.pk = r'.pk → r = r' :=
  ledger.eq_of_position (fun _ _ _ h => pk_of_activityRow h) hevents

/-! ## The three tables -/

/-- What the processor writes is what a batch collects. -/
theorem rows_of_writes {batch : List Protos.Transaction} {ws : List StakeWrite}
    (h : (stakeProcessor boot sdk).writes batch = some ws) :
    ∃ rows, parseStakeRows sdk batch = some rows ∧ ws = rows.writes := by
  obtain ⟨rows, hrows, rfl⟩ := Option.map_eq_some_iff.mp h
  exact ⟨rows, hrows, rfl⟩

theorem lastRows_voters (ledger : Ledger Protos.Transaction) :
    (stakeProcessor boot sdk).LastRows ledger.txns Transaction.txnVersion StakeWrite.voter?
      (voterRowsOf sdk) PostgresCurrentStakingPoolVoter.stakingPoolAddress
      PostgresCurrentStakingPoolVoter.lastTransactionVersion insertCurrentStakePoolVoterQuery where
  in_order := ledger.inOrder
  ver_eq _ _ _ h := version_of_mem_voterRowsOf h
  query_eq old _ excluded _ _ := insertCurrentStakePoolVoterQuery_eq old excluded
  writes_eq := by
    intro b _ ws hws k w
    obtain ⟨rows, hrows, rfl⟩ := rows_of_writes hws
    have hflat : b.flatMap (voterRowsOf sdk) =
        (b.flatMap (voterRows sdk)).map PostgresCurrentStakingPoolVoter.ofBase :=
      (List.map_flatMap ..).symm
    rw [hflat, ← (parseStakeRows_eq hrows).1.mem_writes_iff
      PostgresCurrentStakingPoolVoter.stakingPoolAddress _ fun _ => rfl]
    simp [StakeRows.writes]

theorem lastRows_poolBalances (ledger : Ledger Protos.Transaction) :
    (stakeProcessor boot sdk).LastRows ledger.txns Transaction.txnVersion StakeWrite.poolBalance?
      (poolBalanceRows sdk) CurrentDelegatorPoolBalance.stakingPoolAddress
      CurrentDelegatorPoolBalance.lastTransactionVersion
      insertCurrentDelegatorPoolBalancesQuery where
  in_order := ledger.inOrder
  ver_eq _ _ _ h := version_of_mem_poolBalanceRows h
  query_eq _ _ _ _ := insertCurrentDelegatorPoolBalancesQuery_eq
  writes_eq := by
    intro b _ ws hws k w
    obtain ⟨rows, hrows, rfl⟩ := rows_of_writes hws
    rw [← (parseStakeRows_eq hrows).2.1.mem_upserts_iff]
    simp [StakeRows.writes]

theorem keyedRows_activities (ledger : Ledger Protos.Transaction)
    (hevents : ∀ txn ∈ ledger.txns, (activityEvents txn).length ≤ 2 ^ 63) :
    (stakeProcessor boot sdk).KeyedRows ledger.txns StakeWrite.activity? (activityRowsOf sdk)
      PostgresDelegatedStakingActivity.pk insertDelegatorActivitiesQuery where
  unique := eq_of_activity_pk ledger hevents
  query_self _ := rfl
  writes_eq := by
    intro b _ ws hws k w
    obtain ⟨rows, hrows, rfl⟩ := rows_of_writes hws
    have hflat : b.flatMap (activityRowsOf sdk) =
        rows.delegatorActivities.map PostgresDelegatedStakingActivity.ofBase := by
      rw [(parseStakeRows_eq hrows).2.2, List.map_flatMap]
      exact List.flatMap_congr fun txn _ => activityRowsOf_eq txn
    rw [hflat]
    simp [StakeRows.writes]

end Rows

/-- **Restarts leave no trace in the pools.** However often the processor died and
wherever in a batch: as soon as it is past everything it ever touched, the voter of a
staking pool and the balance of a delegation pool are those of the pool's last write since
the first version, and the activities are exactly those of the events since. -/
theorem pools_survive_restarts (boot : BootStrapConfig) (sdk : StakeSdk)
    (ledger : Ledger Protos.Transaction)
    (hevents : ∀ txn ∈ ledger.txns, (activityEvents txn).length ≤ 2 ^ 63)
    (st : Indexed StatusDb Protos.Transaction StakeWrite)
    (hreach : (stakeProcessor boot sdk).Reach ledger.txns st) (next : ℕ)
    (hcaught : (stakeProcessor boot sdk).CaughtUp st next) :
    let passed := ledger.txns.filter fun txn =>
      boot.initialStartingVersion.toNat ≤ txn.version.toNat ∧ txn.version.toNat < next
    (∀ pool, (voterTable st.log).lookup pool =
      ((passed.flatMap (voterRowsOf sdk)).filter
        fun row => row.stakingPoolAddress = pool).getLast?) ∧
    (∀ pool, (poolBalanceTable st.log).lookup pool =
      ((passed.flatMap (poolBalanceRows sdk)).filter
        fun row => row.stakingPoolAddress = pool).getLast?) ∧
    ∀ key row, (activityTable st.log).lookup key = some row ↔
      row ∈ passed.flatMap (activityRowsOf sdk) ∧ row.pk = key := by
  intro passed
  have hspan : (stakeProcessor boot sdk).span ledger.txns next = passed :=
    span_defaultCheckpoints ledger next
  rw [← hspan]
  refine ⟨?_, ?_, ?_⟩
  · exact Processor.lookup_of_caught_up (lastRows_voters ledger) ledger.pairwise_toNat hreach
      hcaught
  · exact Processor.lookup_of_caught_up (lastRows_poolBalances ledger) ledger.pairwise_toNat
      hreach hcaught
  · exact fun key row => Processor.mem_of_caught_up (keyedRows_activities ledger hevents)
      ledger.pairwise_toNat hreach hcaught

/-- A staking pool's resource, and a delegator's event. -/
def voterSdk : StakeSdk :=
  { plainSdk with
    fromStr := fun text =>
      [("pool", Json.object [("delegated_voter", .string "0xd"),
          ("operator_address", .string "0xe")]),
        ("added", Json.object [("amount_added", .string "7"), ("delegator_address", .string "0xf"),
          ("pool_address", .string "0xa")])].lookup text }

/-- A transaction that writes the pool `0xa`, and adds to it if it has an event. -/
def voterTxn (version : UInt64) (events : List Protos.Event) : Protos.Transaction :=
  ⟨version, some ⟨0, 0⟩,
    some [.writeResource ⟨"0xa", ⟨stakeAddr, "stake", "StakePool"⟩,
      stakeAddr ++ "::stake::StakePool", "pool"⟩ []], some (.user none events)⟩

/-- The second transaction's activity is stored, its voter is not; the next life stores
both. -/
theorem pool_restored_across_lives :
    let first := voterTxn 1 []
    let second := voterTxn 2 [⟨none, "0x1::delegation_pool::AddStake", "added"⟩]
    let p := stakeProcessor ⟨1⟩ voterSdk
    ∃ st : Indexed StatusDb Protos.Transaction StakeWrite,
      p.Reach [first, second] st ∧ p.CaughtUp st 3 ∧ st.torn = [[second]] ∧
      ((voterTable st.log).lookup "0xa").map (·.lastTransactionVersion) = some 2 ∧
      ∃ row, (activityTable st.log).lookup (2, 0) = some row ∧ row.amount = 7 := by
  intro first second p
  let ledger : Ledger Protos.Transaction := ⟨[first, second], by decide, by decide⟩
  let part := ((p.writes [second]).getD []).filter fun w => w.activity?.isSome
  have hpart : part ⊆ (p.writes [second]).getD [] := List.filter_sublist.subset
  obtain ⟨hreach, hcaught⟩ := Processor.reach_twoLives (p := p) (a := first) (b := second)
    (by decide) (by decide) (by decide +kernel) (by decide +kernel) (by decide +kernel) hpart
  obtain ⟨hvoters, -, hactivities⟩ :=
    pools_survive_restarts ⟨1⟩ voterSdk ledger (by decide) _ hreach 3 hcaught
  refine ⟨p.twoLives first second part, hreach, hcaught, rfl, ?_, ?_⟩
  · rw [hvoters]
    decide +kernel
  · refine ⟨⟨2, 0, "0xf", "0xa", "0x1::delegation_pool::AddStake", 7⟩, ?_, rfl⟩
    rw [hactivities]
    decide +kernel

end IndexerProcessors.Stake

import IndexerProcessors.Lib.CoarseKey
import IndexerProcessors.Lib.Fallible
import IndexerProcessors.Stake.Balances

/-!
# First versions of delegation pools

`delegated_staking_pools` has a row for each delegation pool with the version at which it was
first seen. Every write of the pool's resource gives a row with its own version. The rows of
a batch go through a map, where a later row of a pool takes the place of an earlier one; the
statement keeps the lower of the stored and the new version.

`first_version_iff` — a pool ends with the lowest version at which it was written exactly
if, in some batch with that write, no later transaction writes the pool.
-/

namespace IndexerProcessors.Stake

open IndexerProcessors.Lib
open IndexerProcessors.Protos

/-! ## Rows -/

structure DelegatorPool where
  stakingPoolAddress : String
  firstTransactionVersion : Int64
  deriving DecidableEq

structure DelegatorPoolBalance where
  transactionVersion : Int64
  stakingPoolAddress : String
  totalCoins : ℚ
  totalShares : ℚ
  operatorCommissionPercentage : ℚ
  inactiveTableHandle : String
  activeTableHandle : String

structure CurrentDelegatorPoolBalance where
  stakingPoolAddress : String
  totalCoins : ℚ
  totalShares : ℚ
  lastTransactionVersion : Int64
  operatorCommissionPercentage : ℚ
  inactiveTableHandle : String
  activeTableHandle : String

/-- `DelegatorPoolMap`, the balances, and `DelegatorPoolBalanceMap`. -/
structure PoolRows where
  delegatorPools : Table String DelegatorPool
  delegatorPoolBalances : List DelegatorPoolBalance
  currentDelegatorPoolBalances : Table String CurrentDelegatorPoolBalance

def PoolRows.empty : PoolRows := ⟨∅, [], ∅⟩

namespace DelegatorPool

/-- `DelegatorPool::from_write_resource`. -/
def fromWriteResource (sdk : StakeSdk) (wr : WriteResource) (txnVersion : Int64) :
    Option (Option (DelegatorPool × DelegatorPoolBalance × CurrentDelegatorPoolBalance)) := do
  let some balance ← getDelegatedPoolMetadataFromWriteResource sdk wr txnVersion
    | return none
  return some
    ({ stakingPoolAddress := balance.stakingPoolAddress
       firstTransactionVersion := balance.transactionVersion },
     { transactionVersion := balance.transactionVersion
       stakingPoolAddress := balance.stakingPoolAddress
       totalCoins := balance.totalCoins
       totalShares := balance.totalShares
       operatorCommissionPercentage := balance.operatorCommissionPercentage
       inactiveTableHandle := balance.inactiveShareTableHandle
       activeTableHandle := balance.activeShareTableHandle },
     { stakingPoolAddress := balance.stakingPoolAddress
       totalCoins := balance.totalCoins
       totalShares := balance.totalShares
       lastTransactionVersion := balance.transactionVersion
       operatorCommissionPercentage := balance.operatorCommissionPercentage
       inactiveTableHandle := balance.inactiveShareTableHandle
       activeTableHandle := balance.activeShareTableHandle })

/-- The rows of a change. -/
def addChange (sdk : StakeSdk) (txnVersion : Int64) (rows : PoolRows) :
    Protos.Change → Option PoolRows
  | .writeResource wr _ => do
    let some (pool, balance, current) ← fromWriteResource sdk wr txnVersion
      | return rows
    return {
      delegatorPools := rows.delegatorPools.insert pool.stakingPoolAddress pool
      delegatorPoolBalances := rows.delegatorPoolBalances ++ [balance]
      currentDelegatorPoolBalances :=
        rows.currentDelegatorPoolBalances.insert pool.stakingPoolAddress current }
  | _ => some rows

/-- `DelegatorPool::from_transaction`. -/
def fromTransaction (sdk : StakeSdk) (txn : Protos.Transaction) : Option PoolRows :=
  match txn.txnData with
  | none => some .empty
  | some txnData => do
    let _ ← txn.timestamp
    match txnData with
    | .user .. =>
      let changes ← txn.info
      changes.foldlM (addChange sdk txn.txnVersion) .empty
    | _ => return .empty

end DelegatorPool

/-- The loop of `parse_stake_data`, for the pools: `extend` and `append`. -/
def addPools (sdk : StakeSdk) (rows : PoolRows) (txn : Protos.Transaction) : Option PoolRows := do
  let _ ← txn.timestamp
  let new ← DelegatorPool.fromTransaction sdk txn
  return {
    delegatorPools := rows.delegatorPools.insertAll new.delegatorPools.rows
    delegatorPoolBalances := rows.delegatorPoolBalances ++ new.delegatorPoolBalances
    currentDelegatorPoolBalances :=
      rows.currentDelegatorPoolBalances.insertAll new.currentDelegatorPoolBalances.rows }

/-- `parse_stake_data`, for the pools. -/
def parsePools (sdk : StakeSdk) (transactions : List Protos.Transaction) : Option PoolRows :=
  transactions.foldlM (addPools sdk) .empty

/-- `insert_delegator_pools_query` on a row that is there. -/
def insertDelegatorPoolsQuery (old excluded : DelegatorPool) : DelegatorPool :=
  if old.firstTransactionVersion ≥ excluded.firstTransactionVersion then
    { old with firstTransactionVersion := excluded.firstTransactionVersion }
  else old

/-- The table after upserts of these rows, one after another. -/
def storePools (rows : List DelegatorPool) : Table String DelegatorPool :=
  Table.writeAll ∅ (rows.map fun row =>
    (row.stakingPoolAddress, ⟨row, insertDelegatorPoolsQuery⟩))

/-! ## Writes of a pool -/

/-- The type of a pool's resource. -/
def delegationPoolType : String := stakeAddr ++ "::delegation_pool::DelegationPool"

/-- A change writes the resource of a pool. -/
def poolWrittenAt (sdk : StakeSdk) (pool : String) : Protos.Change → Bool
  | .writeResource wr _ =>
    getOuterTypeFromWriteResource sdk.toSdk wr = delegationPoolType ∧
      sdk.standardizeAddress wr.address = pool
  | _ => false

/-- A user transaction writes it. -/
def writesPool (sdk : StakeSdk) (pool : String) (txn : Protos.Transaction) : Bool :=
  match txn.txnData with
  | some (.user ..) => (txn.info.getD []).any (poolWrittenAt sdk pool)
  | _ => false

/-- The versions at which a pool is written, in the order of the list. -/
def poolVersions (sdk : StakeSdk) (pool : String) (txns : List Protos.Transaction) : List Int64 :=
  (txns.filter (writesPool sdk pool)).map (·.txnVersion)

theorem mem_poolVersions {sdk : StakeSdk} {pool : String} {txns : List Protos.Transaction}
    {version : Int64} :
    version ∈ poolVersions sdk pool txns ↔
      ∃ txn ∈ txns, writesPool sdk pool txn = true ∧ txn.txnVersion = version := by
  simp [poolVersions, and_assoc]

theorem poolVersions_concat (sdk : StakeSdk) (pool : String) (txns : List Protos.Transaction)
    (txn : Protos.Transaction) :
    poolVersions sdk pool (txns ++ [txn]) = poolVersions sdk pool txns ++
      if writesPool sdk pool txn then [txn.txnVersion] else [] := by
  unfold poolVersions
  rw [List.filter_append, List.map_append, List.filter_singleton]
  cases writesPool sdk pool txn with
  | true => rfl
  | false => rfl

/-! ## One batch -/

section Batch

variable {sdk : StakeSdk}

/-- The row of a written pool says where it is and when it was written. -/
theorem fromWriteResource_row {wr : WriteResource} (params : List MoveType) {txnVersion : Int64}
    {row : Option (DelegatorPool × DelegatorPoolBalance × CurrentDelegatorPoolBalance)}
    (h : DelegatorPool.fromWriteResource sdk wr txnVersion = some row) (pool : String) :
    (row.map (·.1)).filter (fun p => p.stakingPoolAddress = pool) =
      if poolWrittenAt sdk pool (.writeResource wr params) then some ⟨pool, txnVersion⟩
      else none := by
  unfold DelegatorPool.fromWriteResource at h
  obtain ⟨metadata, hmetadata, h⟩ := Option.bind_eq_some_iff.mp h
  unfold getDelegatedPoolMetadataFromWriteResource at hmetadata
  obtain ⟨resource, hresource, hmetadata⟩ := Option.bind_eq_some_iff.mp hmetadata
  unfold StakeResource.fromWriteResource at hresource
  dsimp only at hresource
  split at hresource
  next htype =>
    -- A stake pool.
    obtain ⟨v, -, hresource⟩ := Option.bind_eq_some_iff.mp hresource
    obtain ⟨inner, -, hresource⟩ := Option.bind_eq_some_iff.mp hresource
    obtain rfl := Option.some.inj hresource
    obtain rfl := Option.some.inj hmetadata
    obtain rfl := Option.some.inj h
    have hne : getOuterTypeFromWriteResource sdk.toSdk wr ≠ delegationPoolType := by
      rw [htype]
      decide
    rw [poolWrittenAt, if_neg (by simp [hne])]
    rfl
  next =>
    split at hresource
    next htype =>
      obtain ⟨v, -, hresource⟩ := Option.bind_eq_some_iff.mp hresource
      obtain ⟨inner, -, hresource⟩ := Option.bind_eq_some_iff.mp hresource
      obtain rfl := Option.some.inj hresource
      obtain ⟨totalShares, -, hmetadata⟩ := Option.bind_eq_some_iff.mp hmetadata
      obtain rfl := Option.some.inj hmetadata
      obtain rfl := Option.some.inj h
      have htype' : getOuterTypeFromWriteResource sdk.toSdk wr = delegationPoolType := htype
      by_cases haddress : sdk.standardizeAddress wr.address = pool
      · rw [poolWrittenAt, if_pos (decide_eq_true ⟨htype', haddress⟩), Option.map_some,
          Option.filter_some, if_pos (decide_eq_true haddress), haddress]
      · rw [poolWrittenAt, if_neg (by simp [haddress]), Option.map_some, Option.filter_some,
          if_neg (by simpa using haddress)]
    next htype =>
      obtain rfl := Option.some.inj hresource
      obtain rfl := Option.some.inj hmetadata
      obtain rfl := Option.some.inj h
      have hne : getOuterTypeFromWriteResource sdk.toSdk wr ≠ delegationPoolType := htype
      rw [poolWrittenAt, if_neg (by simp [hne])]
      rfl

/-- A change that writes the pool takes the place of its row. -/
theorem addChange_lookup {txnVersion : Int64} {rows rows' : PoolRows} {change : Protos.Change}
    (h : DelegatorPool.addChange sdk txnVersion rows change = some rows') (pool : String) :
    rows'.delegatorPools.lookup pool =
      if poolWrittenAt sdk pool change then some ⟨pool, txnVersion⟩
      else rows.delegatorPools.lookup pool := by
  cases change with
  | writeResource wr params =>
    obtain ⟨row, hrow, h⟩ := Option.bind_eq_some_iff.mp h
    have hpool := fromWriteResource_row params hrow pool
    cases row with
    | none =>
      obtain rfl := Option.some.inj h
      split at hpool
      · cases hpool
      next hnot => rw [if_neg hnot]
    | some row =>
      obtain rfl := Option.some.inj h
      rw [Option.map_some, Option.filter_some] at hpool
      show (rows.delegatorPools.insert row.1.stakingPoolAddress row.1).lookup pool = _
      by_cases heq : row.1.stakingPoolAddress = pool
      · rw [if_pos (decide_eq_true heq)] at hpool
        split at hpool
        next hwritten => rw [if_pos hwritten, ← hpool, ← heq, AList.lookup_insert]
        next => cases hpool
      · rw [if_neg (by simpa using heq)] at hpool
        split at hpool
        · cases hpool
        next hnot => rw [if_neg hnot, AList.lookup_insert_ne (Ne.symm heq)]
  | deleteResource | writeTableItem | deleteTableItem | other =>
    obtain rfl := Option.some.inj h
    rfl

/-- A transaction has a row of each pool it writes. -/
theorem fromTransaction_lookup {txn : Protos.Transaction} {rows : PoolRows}
    (h : DelegatorPool.fromTransaction sdk txn = some rows) (pool : String) :
    rows.delegatorPools.lookup pool =
      if writesPool sdk pool txn then some ⟨pool, txn.txnVersion⟩ else none := by
  have hempty : PoolRows.empty.delegatorPools.lookup pool = none := AList.lookup_empty pool
  unfold DelegatorPool.fromTransaction at h
  unfold writesPool
  split at h
  next hdata =>
    obtain rfl := Option.some.inj h
    rw [hdata, hempty]
    rfl
  next txnData hdata =>
    obtain ⟨timestamp, -, h⟩ := Option.bind_eq_some_iff.mp h
    rw [hdata]
    cases txnData with
    | user request events =>
      obtain ⟨changes, hchanges, h⟩ := Option.bind_eq_some_iff.mp h
      rw [hchanges]
      refine foldlM_prefix (P := fun done rows => rows.delegatorPools.lookup pool =
        if done.any (poolWrittenAt sdk pool) then some ⟨pool, txn.txnVersion⟩ else none)
        h hempty ?_
      intro done change rows rows' _ hrows hstep
      rw [addChange_lookup hstep, hrows, List.any_append, List.any_cons, List.any_nil,
        Bool.or_false]
      cases done.any (poolWrittenAt sdk pool) with
      | true => simp
      | false => simp
    | blockMetadata | genesis | validator | other =>
      obtain rfl := Option.some.inj h
      exact hempty

/-- A batch keeps the last version at which it writes a pool. -/
theorem parsePools_lookup {batch : List Protos.Transaction} {rows : PoolRows}
    (h : parsePools sdk batch = some rows) (pool : String) :
    rows.delegatorPools.lookup pool =
      (poolVersions sdk pool batch).getLast?.map fun version => ⟨pool, version⟩ := by
  refine foldlM_prefix (P := fun done rows => rows.delegatorPools.lookup pool =
    (poolVersions sdk pool done).getLast?.map fun version => ⟨pool, version⟩)
    h (AList.lookup_empty pool) ?_
  intro done txn rows rows' _ hrows hstep
  obtain ⟨timestamp, -, hstep⟩ := Option.bind_eq_some_iff.mp hstep
  obtain ⟨new, hnew, hstep⟩ := Option.bind_eq_some_iff.mp hstep
  obtain rfl := Option.some.inj hstep
  show (rows.delegatorPools.insertAll new.delegatorPools.rows).lookup pool = _
  rw [Table.lookup_insertAll, proj_rows, fromTransaction_lookup hnew, hrows, poolVersions_concat]
  cases writesPool sdk pool txn with
  | true => simp
  | false => simp

/-- The rows of a batch are kept under the pools' addresses. -/
theorem mem_delegatorPools {batch : List Protos.Transaction} {rows : PoolRows}
    (h : parsePools sdk batch = some rows) {pool : String} {row : DelegatorPool} :
    (pool, row) ∈ rows.delegatorPools.rows ↔
      row.stakingPoolAddress = pool ∧
        (poolVersions sdk pool batch).getLast? = some row.firstTransactionVersion := by
  rw [Table.mem_rows, parsePools_lookup h, Option.map_eq_some_iff]
  constructor
  · rintro ⟨version, hversion, rfl⟩
    exact ⟨rfl, hversion⟩
  · rintro ⟨rfl, hversion⟩
    exact ⟨_, hversion, rfl⟩

end Batch

/-! ## The table -/

/-- The statement keeps the lower version: the later one in the opposite order. -/
theorem insertDelegatorPoolsQuery_eq_later {old excluded : DelegatorPool}
    (h : old.stakingPoolAddress = excluded.stakingPoolAddress) :
    insertDelegatorPoolsQuery old excluded =
      later (fun row => OrderDual.toDual row.firstTransactionVersion) old excluded := by
  unfold insertDelegatorPoolsQuery later
  rw [h]
  rfl

/-- A pool's row has the lowest version stored for it. -/
theorem storePools_lookup (order : List DelegatorPool) (pool : String) :
    ((storePools order).lookup pool).map (·.firstTransactionVersion) =
      ((order.filter fun row => row.stakingPoolAddress = pool).map
        (·.firstTransactionVersion)).min? := by
  have hrows : (storePools order).lookup pool =
      latest (fun row => OrderDual.toDual row.firstTransactionVersion) none
        (order.filter fun row => row.stakingPoolAddress = pool) := by
    unfold storePools
    rw [Table.lookup_writeAll, proj_map, AList.lookup_empty, List.foldl_map]
    exact foldl_merged_eq_latest (P := fun row => row.stakingPoolAddress = pool)
      (fun old excluded h h' => insertDelegatorPoolsQuery_eq_later (h.trans h'.symm))
      (fun row hrow => of_decide_eq_true (List.mem_filter.mp hrow).2) none (by simp)
  rw [hrows]
  rcases List.eq_nil_or_concat' (order.filter fun row => row.stakingPoolAddress = pool) with
    hnil | ⟨init, last, hconcat⟩
  · rw [hnil]
    rfl
  · have hne : order.filter (fun row => row.stakingPoolAddress = pool) ≠ [] := by
      rw [hconcat]
      simp
    obtain ⟨row, hrow, hlast⟩ := latest_isLatest
      (fun row : DelegatorPool => OrderDual.toDual row.firstTransactionVersion) hne
    rw [hrow, Option.map_some, eq_comm, List.min?_eq_some_iff]
    refine ⟨List.mem_map_of_mem hlast.mem, ?_⟩
    intro version hversion
    obtain ⟨other, hother, rfl⟩ := List.mem_map.mp hversion
    exact hlast.le other hother

/-- The rows of the batches, in some order and any of them possibly several times. -/
def StoredOrder (parsed : List PoolRows) (order : List DelegatorPool) : Prop :=
  ∀ row, row ∈ order ↔ ∃ rows ∈ parsed, (row.stakingPoolAddress, row) ∈ rows.delegatorPools.rows

/-- **The first version of a pool.** The transactions are stored in batches, in any order and
with replays. A pool's row is that of the lowest version at which a user transaction wrote
the pool, exactly if that is the last write of the pool in some batch. -/
theorem first_version_iff (sdk : StakeSdk) {txns : List Protos.Transaction}
    {batches : List (List Protos.Transaction)} {parsed : List PoolRows}
    {order : List DelegatorPool} (hbatches : Batches txns batches)
    (hparse : batches.mapM (parsePools sdk) = some parsed) (horder : StoredOrder parsed order)
    (pool : String) :
    ((storePools order).lookup pool).map (·.firstTransactionVersion) =
        (poolVersions sdk pool txns).min? ↔
      ∀ version, (poolVersions sdk pool txns).min? = some version →
        ∃ batch ∈ batches, (poolVersions sdk pool batch).getLast? = some version := by
  -- The stored versions are the last ones of the batches.
  have hstored : ∀ version, version ∈ (order.filter fun row => row.stakingPoolAddress = pool).map
      (·.firstTransactionVersion) ↔
        ∃ batch ∈ batches, (poolVersions sdk pool batch).getLast? = some version := by
    intro version
    constructor
    · intro hversion
      obtain ⟨row, hrow, rfl⟩ := List.mem_map.mp hversion
      obtain ⟨hmem, hpool⟩ := List.mem_filter.mp hrow
      obtain ⟨rows, hrows, hentry⟩ := (horder row).mp hmem
      obtain ⟨batch, hbatch, hparsed⟩ := (mem_of_mapM hparse).mp hrows
      obtain ⟨-, hlast⟩ := (mem_delegatorPools hparsed).mp hentry
      exact ⟨batch, hbatch, of_decide_eq_true hpool ▸ hlast⟩
    · rintro ⟨batch, hbatch, hlast⟩
      obtain ⟨rows, hrows, hparsed⟩ := exists_of_mapM hparse hbatch
      refine List.mem_map.mpr ⟨⟨pool, version⟩, List.mem_filter.mpr ⟨?_, decide_eq_true rfl⟩, rfl⟩
      exact (horder _).mpr ⟨rows, hrows, (mem_delegatorPools hparsed).mpr ⟨rfl, hlast⟩⟩
  have hwritten : ∀ version, (∃ batch ∈ batches,
      (poolVersions sdk pool batch).getLast? = some version) →
        version ∈ poolVersions sdk pool txns := by
    rintro version ⟨batch, hbatch, hlast⟩
    obtain ⟨txn, htxn, hwrites, rfl⟩ := mem_poolVersions.mp (List.mem_of_getLast? hlast)
    exact mem_poolVersions.mpr ⟨txn, (hbatches.sublist batch hbatch).subset htxn, hwrites, rfl⟩
  rw [storePools_lookup]
  constructor
  · intro hmin version hversion
    rw [hversion, List.min?_eq_some_iff] at hmin
    exact (hstored version).mp hmin.1
  · intro hlast
    cases hmin : (poolVersions sdk pool txns).min? with
    | none =>
      rw [List.min?_eq_none_iff, List.eq_nil_iff_forall_not_mem] at hmin ⊢
      intro version hversion
      exact hmin version (hwritten version ((hstored version).mp hversion))
    | some version =>
      rw [List.min?_eq_some_iff] at hmin ⊢
      refine ⟨(hstored version).mpr (hlast version (List.min?_eq_some_iff.mpr hmin)), ?_⟩
      intro other hother
      exact hmin.2 other (hwritten other ((hstored other).mp hother))

/-- The rows of one batch after those of another. -/
theorem storedOrder_flatMap {sdk : StakeSdk} {batches : List (List Protos.Transaction)}
    {parsed : List PoolRows} (hparse : batches.mapM (parsePools sdk) = some parsed) :
    StoredOrder parsed (parsed.flatMap fun rows => rows.delegatorPools.rows.map Prod.snd) := by
  intro row
  rw [List.mem_flatMap]
  refine exists_congr fun rows => and_congr_right fun hrows => ?_
  obtain ⟨batch, -, hparsed⟩ := (mem_of_mapM hparse).mp hrows
  constructor
  · intro hrow
    obtain ⟨⟨pool, row⟩, hentry, rfl⟩ := List.mem_map.mp hrow
    have hpool := ((mem_delegatorPools hparsed).mp hentry).1
    exact hpool ▸ hentry
  · intro hentry
    exact List.mem_map_of_mem hentry

/-- Two user transactions with a write of the same pool. -/
def poolTxns : List Protos.Transaction := [plainTxn 1 [writePool], plainTxn 2 [writePool]]

/-- Stored as a batch each, the pool has its first version. -/
theorem first_version_of_two_batches :
    ∃ parsed order, (poolTxns.map ([·])).mapM (parsePools plainSdk) = some parsed ∧
      StoredOrder parsed order ∧
      ((storePools order).lookup (address 'a')).map (·.firstTransactionVersion) =
        (poolVersions plainSdk (address 'a') poolTxns).min? := by
  have hrun : ((poolTxns.map ([·])).mapM (parsePools plainSdk)).isSome = true := by
    decide +kernel
  obtain ⟨parsed, hparsed⟩ := Option.isSome_iff_exists.mp hrun
  have hbatches : Batches poolTxns (poolTxns.map ([·])) := ⟨by simp [poolTxns], by simp [poolTxns]⟩
  have hmin : (poolVersions plainSdk (address 'a') poolTxns).min? = some 1 := by decide +kernel
  refine ⟨parsed, _, hparsed, storedOrder_flatMap hparsed, ?_⟩
  refine (first_version_iff plainSdk hbatches hparsed (storedOrder_flatMap hparsed) _).mpr ?_
  intro version hversion
  obtain rfl := Option.some.inj (hmin.symm.trans hversion)
  exact ⟨[plainTxn 1 [writePool]], by simp [poolTxns], by decide +kernel⟩

/-- Stored as one batch, it has its second. -/
theorem first_version_of_one_batch :
    ∃ parsed order, [poolTxns].mapM (parsePools plainSdk) = some parsed ∧
      Batches poolTxns [poolTxns] ∧ StoredOrder parsed order ∧
      ((storePools order).lookup (address 'a')).map (·.firstTransactionVersion) = some 2 ∧
      (poolVersions plainSdk (address 'a') poolTxns).min? = some 1 := by
  have hrun : (([poolTxns].mapM (parsePools plainSdk)).any fun parsed =>
      ((storePools (parsed.flatMap fun rows => rows.delegatorPools.rows.map Prod.snd)).lookup
        (address 'a')).map (·.firstTransactionVersion) = some 2) = true := by
    decide +kernel
  obtain ⟨parsed, hparsed, hstored⟩ := exists_of_any hrun
  exact ⟨parsed, _, hparsed, ⟨by simp, by simp⟩, storedOrder_flatMap hparsed, hstored,
    by decide +kernel⟩

end IndexerProcessors.Stake

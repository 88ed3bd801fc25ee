import IndexerProcessors.Lib.CoarseKey
import IndexerProcessors.Lib.Fallible
import IndexerProcessors.Stake.Parse

/-!
# Delegator balances

A batch collects its balances in a map keyed by delegator, pool and pool type. The
primary key of `current_delegator_balances` has the table handle as well, since a
delegator can have shares in several inactive pools of one staking pool. Where a batch
changes two of them only the later change is stored.

`current_balance_last_iff` says for which keys the table ends with the last row that
was derived; `withdrawn_share_stays` has a withdrawal that is lost.
-/

namespace IndexerProcessors.Stake

open IndexerProcessors.Lib
open IndexerProcessors.Protos

variable {sdk : StakeSdk} {conn : Conn} {queryRetries : ℕ}

/-! ## What a transaction adds -/

/-- The passes of a transaction, one after another. -/
theorem parseTransaction_eq_some {st st' : ParseState} {txn : Protos.Transaction}
    (h : parseTransaction sdk conn queryRetries st txn = some st') :
    ∃ timestamp changes st₁ st₂ st₃, txn.timestamp = some timestamp ∧ txn.info = some changes ∧
      changes.foldlM (addMetadata sdk txn.txnVersion) st = some st₁ ∧
      addBalances sdk conn queryRetries txn st₁ = some st₂ ∧
      changes.zipIdx.foldlM (addVoters sdk conn queryRetries txn.txnVersion
        (sdk.parseTimestamp timestamp txn.txnVersion)) st₂ = some st₃ ∧
      changes.zipIdx.foldlM (addDefaultVoter sdk conn queryRetries txn.txnVersion
        (sdk.parseTimestamp timestamp txn.txnVersion)) st₃ = some st' := by
  obtain ⟨timestamp, htimestamp, h⟩ := Option.bind_eq_some_iff.mp h
  obtain ⟨changes, hchanges, h⟩ := Option.bind_eq_some_iff.mp h
  obtain ⟨st₁, hst₁, h⟩ := Option.bind_eq_some_iff.mp h
  obtain ⟨st₂, hst₂, h⟩ := Option.bind_eq_some_iff.mp h
  obtain ⟨st₃, hst₃, h⟩ := Option.bind_eq_some_iff.mp h
  exact ⟨timestamp, changes, st₁, st₂, st₃, htimestamp, hchanges, hst₁, hst₂, hst₃, h⟩

/-- The pass that collects handles leaves the rows alone. -/
theorem addMetadata_frame {txnVersion : Int64} {st st' : ParseState} {change : Protos.Change}
    (h : addMetadata sdk txnVersion st change = some st') :
    st'.derived = st.derived ∧ st'.currentDelegatorBalances = st.currentDelegatorBalances ∧
      st'.currentDelegatedVoter = st.currentDelegatedVoter := by
  cases change with
  | writeResource wr params =>
    obtain ⟨handle, -, h⟩ := Option.bind_eq_some_iff.mp h
    obtain ⟨balance, -, h⟩ := Option.bind_eq_some_iff.mp h
    obtain rfl := Option.some.inj h
    exact ⟨rfl, rfl, rfl⟩
  | deleteResource | writeTableItem | deleteTableItem | other =>
    obtain rfl := Option.some.inj h
    exact ⟨rfl, rfl, rfl⟩

/-- A pass over voters only adds voters. -/
theorem addVoters_frame {txnVersion : Int64} {txnTimestamp : NaiveDateTime} {st st' : ParseState}
    {change : Protos.Change × ℕ}
    (h : addVoters sdk conn queryRetries txnVersion txnTimestamp st change = some st') :
    ∃ voters, st' = { st with currentDelegatedVoter := voters } := by
  obtain ⟨change, index⟩ := change
  cases change with
  | writeTableItem item =>
    obtain ⟨voterMap, -, h⟩ := Option.bind_eq_some_iff.mp h
    exact ⟨_, (Option.some.inj h).symm⟩
  | writeResource | deleteResource | deleteTableItem | other =>
    exact ⟨st.currentDelegatedVoter, (Option.some.inj h).symm⟩

theorem addDefaultVoter_frame {txnVersion : Int64} {txnTimestamp : NaiveDateTime}
    {st st' : ParseState} {change : Protos.Change × ℕ}
    (h : addDefaultVoter sdk conn queryRetries txnVersion txnTimestamp st change = some st') :
    ∃ voters, st' = { st with currentDelegatedVoter := voters } := by
  obtain ⟨change, index⟩ := change
  cases change with
  | writeTableItem item =>
    obtain ⟨voter, -, h⟩ := Option.bind_eq_some_iff.mp h
    exact ⟨_, (Option.some.inj h).symm⟩
  | writeResource | deleteResource | deleteTableItem | other =>
    exact ⟨st.currentDelegatedVoter, (Option.some.inj h).symm⟩

/-- Steps that only add voters, one after another. -/
theorem foldlM_voters_frame {step : ParseState → Protos.Change × ℕ → Option ParseState}
    (hstep : ∀ st change st', step st change = some st' →
      ∃ voters, st' = { st with currentDelegatedVoter := voters })
    {changes : List (Protos.Change × ℕ)} {st st' : ParseState}
    (h : changes.foldlM step st = some st') :
    ∃ voters, st' = { st with currentDelegatedVoter := voters } := by
  refine foldlM_invariant
    (P := fun s => ∃ voters, s = { st with currentDelegatedVoter := voters }) h
    ⟨st.currentDelegatedVoter, rfl⟩ ?_
  rintro change - _ st₂ ⟨voters, rfl⟩ hs
  obtain ⟨voters', rfl⟩ := hstep _ _ _ hs
  exact ⟨voters', rfl⟩

/-- The balances of a transaction are read with the handles of its first pass, and
join those of the batch. -/
theorem parseTransaction_balances {st st' : ParseState} {txn : Protos.Transaction}
    (h : parseTransaction sdk conn queryRetries st txn = some st') :
    ∃ derived, fromTransaction sdk conn queryRetries st'.activePoolToStakingPool txn =
        some derived ∧
      st'.derived = st.derived ++ derived ∧
      st'.currentDelegatorBalances = st.currentDelegatorBalances.insertAll
        (Table.insertAll ∅ (derived.map fun d => (d.current.mapKey, d.current))).rows := by
  obtain ⟨timestamp, changes, st₁, st₂, st₃, -, -, hst₁, hst₂, hst₃, h⟩ :=
    parseTransaction_eq_some h
  have hmetadata : st₁.derived = st.derived ∧
      st₁.currentDelegatorBalances = st.currentDelegatorBalances := by
    refine foldlM_invariant (P := fun s => s.derived = st.derived ∧
      s.currentDelegatorBalances = st.currentDelegatorBalances) hst₁ ⟨rfl, rfl⟩ ?_
    intro change _ s s' hs hstep
    obtain ⟨hderived, hcurrent, -⟩ := addMetadata_frame hstep
    exact ⟨hderived.trans hs.1, hcurrent.trans hs.2⟩
  obtain ⟨derived, hderived, hst₂⟩ := Option.bind_eq_some_iff.mp hst₂
  obtain rfl := Option.some.inj hst₂
  obtain ⟨voters, rfl⟩ := foldlM_voters_frame (fun _ _ _ => addVoters_frame) hst₃
  obtain ⟨voters', rfl⟩ := foldlM_voters_frame (fun _ _ _ => addDefaultVoter_frame) h
  refine ⟨derived, hderived, ?_, ?_⟩
  · show st₁.derived ++ derived = st.derived ++ derived
    rw [hmetadata.1]
  · show st₁.currentDelegatorBalances.insertAll _ = _
    rw [hmetadata.2]

/-! ## Where rows come from -/

/-- The rows a change can lead to. -/
inductive BalanceOf (sdk : StakeSdk) (conn : Conn) (queryRetries : ℕ) (txnVersion : Int64)
    (active : ShareToStakingPoolMapping) (maps : InactiveMaps) (index : ℕ) :
    Protos.Change → DelegatorBalance × CurrentDelegatorBalance → Prop
  | active {change : Protos.Change} {tableHandle delegatorAddress : String} {shares : ℚ}
      {poolBalance : DelegatorPoolBalanceMetadata}
      (hpool : active.lookup tableHandle = some poolBalance) :
      BalanceOf sdk conn queryRetries txnVersion active maps index change
        (balanceRows txnVersion index delegatorAddress poolBalance.stakingPoolAddress .active
          tableHandle shares tableHandle)
  | inactiveWrite {item : WriteTableItem} {poolBalance : PoolBalanceMetadata}
      {delegatorAddress poolAddress : String} {shares : ℚ}
      (hshare : maps.shareToPool.lookup (sdk.standardizeAddress item.handle) = some poolBalance)
      (hpool : inactiveStakingPool conn queryRetries txnVersion index maps.poolToStakingPool
        poolBalance.parentTableHandle = some poolAddress) :
      BalanceOf sdk conn queryRetries txnVersion active maps index (.writeTableItem item)
        (balanceRows txnVersion index delegatorAddress poolAddress .inactive
          (sdk.standardizeAddress item.handle) shares poolBalance.parentTableHandle)
  | inactiveDelete {item : DeleteTableItem} {poolBalance : PoolBalanceMetadata}
      {delegatorAddress poolAddress : String}
      {rows : DelegatorBalance × CurrentDelegatorBalance}
      (hshare : maps.shareToPool.lookup (sdk.standardizeAddress item.handle) = some poolBalance)
      (hpool : inactiveStakingPool conn queryRetries txnVersion index maps.poolToStakingPool
        poolBalance.parentTableHandle = some poolAddress)
      (hrows : rows = balanceRows txnVersion index delegatorAddress poolAddress .inactive
        (sdk.standardizeAddress item.handle) 0 poolBalance.parentTableHandle) :
      BalanceOf sdk conn queryRetries txnVersion active maps index (.deleteTableItem item)
        (rows.1, { rows.2 with parentTableHandle := sdk.standardizeAddress item.handle })

theorem getActiveShareFromWriteTableItem_eq_some {item : WriteTableItem} {txnVersion : Int64}
    {index : ℕ} {active : ShareToStakingPoolMapping}
    {rows : DelegatorBalance × CurrentDelegatorBalance}
    (h : getActiveShareFromWriteTableItem sdk item txnVersion index active = some (some rows)) :
    ∃ poolBalance shares,
      active.lookup (sdk.standardizeAddress item.handle) = some poolBalance ∧
      rows = balanceRows txnVersion index (sdk.standardizeAddress item.key)
        poolBalance.stakingPoolAddress .active (sdk.standardizeAddress item.handle) shares
        (sdk.standardizeAddress item.handle) := by
  unfold getActiveShareFromWriteTableItem at h
  dsimp only at h
  split at h
  next poolBalance hpool =>
    obtain ⟨decoded, -, h⟩ := Option.bind_eq_some_iff.mp h
    obtain ⟨shares, -, h⟩ := Option.bind_eq_some_iff.mp h
    exact ⟨poolBalance, shares, hpool, (Option.some.inj (Option.some.inj h)).symm⟩
  next => cases h

theorem balanceOf_of_changeBalance {txnVersion : Int64} {active : ShareToStakingPoolMapping}
    {maps : InactiveMaps} {index : ℕ} {change : Protos.Change}
    {rows : DelegatorBalance × CurrentDelegatorBalance}
    (h : changeBalance sdk conn queryRetries txnVersion active maps index change =
      some (some rows)) :
    BalanceOf sdk conn queryRetries txnVersion active maps index change rows := by
  cases change with
  | deleteTableItem item =>
    unfold changeBalance getActiveShareFromDeleteTableItem at h
    dsimp only at h
    split at h
    next balance hactive =>
      obtain ⟨poolBalance, hpool, rfl⟩ := Option.map_eq_some_iff.mp hactive
      obtain rfl := Option.some.inj (Option.some.inj h)
      exact .active hpool
    -- Only what is no active share is looked at as an inactive one.
    next =>
      unfold getInactiveShareFromDeleteTableItem at h
      dsimp only at h
      split at h
      next poolBalance hshare =>
        obtain ⟨poolAddress, hpool, h⟩ := Option.bind_eq_some_iff.mp h
        obtain rfl := Option.some.inj (Option.some.inj h)
        exact .inactiveDelete hshare hpool rfl
      next => cases h
  | writeTableItem item =>
    obtain ⟨balance, hactive, h⟩ := Option.bind_eq_some_iff.mp h
    cases balance with
    | some balance =>
      obtain ⟨poolBalance, shares, hpool, rfl⟩ := getActiveShareFromWriteTableItem_eq_some hactive
      obtain rfl := Option.some.inj (Option.some.inj h)
      exact .active hpool
    | none =>
      dsimp only at h
      unfold getInactiveShareFromWriteTableItem at h
      dsimp only at h
      split at h
      next poolBalance hshare =>
        split at h
        next poolAddress hpool =>
          obtain ⟨decoded, -, h⟩ := Option.bind_eq_some_iff.mp h
          obtain ⟨shares, -, h⟩ := Option.bind_eq_some_iff.mp h
          obtain rfl := Option.some.inj (Option.some.inj h)
          exact .inactiveWrite hshare hpool
        next => cases h
      next => cases h
  | writeResource | deleteResource | other => cases Option.some.inj h

/-- A row has the version of its transaction. -/
theorem BalanceOf.version {txnVersion : Int64} {active : ShareToStakingPoolMapping}
    {maps : InactiveMaps} {index : ℕ} {change : Protos.Change}
    {rows : DelegatorBalance × CurrentDelegatorBalance}
    (h : BalanceOf sdk conn queryRetries txnVersion active maps index change rows) :
    rows.2.lastTransactionVersion = txnVersion := by
  cases h with
  | active => rfl
  | inactiveWrite => rfl
  | inactiveDelete _ _ hrows =>
    subst hrows
    rfl

/-- What `from_transaction` finds, in terms of the maps of its first pass. -/
theorem fromTransaction_eq_some {active : ShareToStakingPoolMapping} {txn : Protos.Transaction}
    {derived : List Derived}
    (h : fromTransaction sdk conn queryRetries active txn = some derived) :
    ∃ changes maps, txn.info = some changes ∧
      changes.foldlM (InactiveMaps.add sdk txn.txnVersion) ⟨∅, ∅⟩ = some maps ∧
      ∀ d ∈ derived, ∃ index, d.change ∈ changes ∧
        BalanceOf sdk conn queryRetries txn.txnVersion active maps index d.change
          (d.balance, d.current) := by
  obtain ⟨timestamp, -, h⟩ := Option.bind_eq_some_iff.mp h
  obtain ⟨changes, hchanges, h⟩ := Option.bind_eq_some_iff.mp h
  obtain ⟨maps, hmaps, h⟩ := Option.bind_eq_some_iff.mp h
  obtain ⟨rows, hrows, h⟩ := Option.bind_eq_some_iff.mp h
  obtain rfl := Option.some.inj h
  refine ⟨changes, maps, hchanges, hmaps, ?_⟩
  intro d hd
  obtain ⟨change, hchange, hrow⟩ := (mem_of_mapM hrows).mp (List.reduceOption_mem_iff.mp hd)
  obtain ⟨balance, hbalance, hd⟩ := Option.map_eq_some_iff.mp hrow
  obtain ⟨pair, rfl, rfl⟩ := Option.map_eq_some_iff.mp hd
  exact ⟨change.2, List.fst_mem_of_mem_zipIdx hchange, balanceOf_of_changeBalance hbalance⟩

/-! ## What a batch keeps -/

/-- The rows derived from the changes of a batch, in order. -/
def ParseState.rows (st : ParseState) : List CurrentDelegatorBalance :=
  st.derived.map (·.current)

/-- The map of a batch has the last row of each delegator, pool and type. -/
theorem parseStakeData_collects {batch : List Protos.Transaction} {out : ParseState}
    (h : parseStakeData sdk conn queryRetries batch = some out) :
    Collects CurrentDelegatorBalance.pk Prod.fst out.rows out.currentDelegatorBalances := by
  refine foldlM_invariant (P := fun st => Collects CurrentDelegatorBalance.pk Prod.fst st.rows
    st.currentDelegatorBalances) h ?_ ?_
  · intro c
    exact AList.lookup_empty c
  · intro txn _ st st' hst hstep
    obtain ⟨derived, -, hderived, hcurrent⟩ := parseTransaction_balances hstep
    have hnew := collects_insertAll CurrentDelegatorBalance.pk Prod.fst (derived.map (·.current))
    rw [List.map_map] at hnew
    have hrows : st'.rows = st.rows ++ derived.map (·.current) := by
      unfold ParseState.rows
      rw [hderived, List.map_append]
    rw [hrows, hcurrent]
    exact hst.extend _ _ hnew

/-- Where each row of a batch comes from. -/
theorem mem_derived {batch : List Protos.Transaction} {out : ParseState}
    (h : parseStakeData sdk conn queryRetries batch = some out) :
    ∀ d ∈ out.derived, ∃ txn ∈ batch, d.current.lastTransactionVersion = txn.txnVersion := by
  refine foldlM_invariant (P := fun st => ∀ d ∈ st.derived, ∃ txn ∈ batch,
    d.current.lastTransactionVersion = txn.txnVersion) h (by simp [ParseState.init]) ?_
  intro txn htxn st st' hst hstep d hd
  obtain ⟨derived, hfrom, hderived, -⟩ := parseTransaction_balances hstep
  rw [hderived] at hd
  rcases List.mem_append.mp hd with hd | hd
  · exact hst d hd
  · obtain ⟨changes, maps, -, -, hof⟩ := fromTransaction_eq_some hfrom
    obtain ⟨index, -, hbalance⟩ := hof d hd
    exact ⟨txn, htxn, hbalance.version⟩

/-- Later batches have rows of later versions. -/
theorem rows_inOrder {batches : List (List Protos.Transaction)} {outs : List ParseState}
    (horder : InOrder batches.flatten)
    (hparse : batches.mapM (parseStakeData sdk conn queryRetries) = some outs) :
    (outs.map ParseState.rows).Pairwise fun a b =>
      ∀ r ∈ a, ∀ s ∈ b, r.lastTransactionVersion < s.lastTransactionVersion := by
  have hbatches := (List.pairwise_flatten.mp horder).2
  have hmap : (batches.map (parseStakeData sdk conn queryRetries)).Pairwise fun a b =>
      ∀ out ∈ a, ∀ out' ∈ b, ∀ r ∈ out.rows, ∀ s ∈ out'.rows,
        r.lastTransactionVersion < s.lastTransactionVersion := by
    refine List.pairwise_map.mpr (hbatches.imp ?_)
    intro a b hlt out hout out' hout' r hr s hs
    obtain ⟨d, hd, rfl⟩ := List.mem_map.mp hr
    obtain ⟨d', hd', rfl⟩ := List.mem_map.mp hs
    obtain ⟨txn, htxn, hversion⟩ := mem_derived hout d hd
    obtain ⟨txn', htxn', hversion'⟩ := mem_derived hout' d' hd'
    rw [hversion, hversion']
    exact hlt txn htxn txn' htxn'
  rw [mapM_eq_some_iff.mp hparse, List.pairwise_map] at hmap
  refine List.pairwise_map.mpr (hmap.imp ?_)
  intro out out' h
  exact h out rfl out' rfl

/-- `current_delegator_balances` after the batches have been stored in order. -/
def storeBalances (outs : List ParseState) : Table BalanceKey CurrentDelegatorBalance :=
  Table.writeAll ∅ (outs.flatMap fun out =>
    rowWrites CurrentDelegatorBalance.pk balanceQuery out.currentDelegatorBalances)

/-- In the last batch with a row of the key, the last row of its delegator, pool and
pool type is of its table. -/
def LastInItsPool (key : BalanceKey) (outs : List ParseState) : Prop :=
  ∀ out, (outs.filter fun out => out.rows.any fun row => row.pk = key).getLast? = some out →
    ∀ row, (out.rows.filter fun row => row.mapKey = key.1).getLast? = some row →
      row.tableHandle = key.2

theorem lastInItsPool_iff (key : BalanceKey) (outs : List ParseState) :
    LastInItsPool key outs ↔
      LastKept CurrentDelegatorBalance.pk Prod.fst key (outs.map ParseState.rows) := by
  unfold LastInItsPool LastKept
  rw [List.filter_map, List.getLast?_map]
  have hpk : ∀ {rows : List CurrentDelegatorBalance} {row : CurrentDelegatorBalance},
      (rows.filter fun row => row.mapKey = key.1).getLast? = some row →
        (row.tableHandle = key.2 ↔ row.pk = key) := by
    intro rows row hlast
    have hkey : row.mapKey = key.1 :=
      of_decide_eq_true (List.mem_filter.mp (List.mem_of_getLast? hlast)).2
    constructor
    · intro hhandle
      exact Prod.ext hkey hhandle
    · intro hpk
      exact congrArg Prod.snd hpk
  constructor
  · intro h rows hrows row hlast
    obtain ⟨out, hout, rfl⟩ := Option.map_eq_some_iff.mp hrows
    exact (hpk hlast).mp (h out hout row hlast)
  · intro h out hout row hlast
    exact (hpk hlast).mpr (h out.rows (Option.map_eq_some_iff.mpr ⟨out, hout, rfl⟩) row hlast)

/-- **Which balances are the last ones.** However the transactions are cut into
batches and whatever the database answers, a key of `current_delegator_balances` ends
with its last row exactly if the last batch that changes it does not go on to another
share table of its delegator, pool and pool type. -/
theorem current_balance_last_iff {batches : List (List Protos.Transaction)}
    {outs : List ParseState} (horder : InOrder batches.flatten)
    (hparse : batches.mapM (parseStakeData sdk conn queryRetries) = some outs)
    (key : BalanceKey) :
    (storeBalances outs).lookup key =
        ((outs.flatMap ParseState.rows).filter fun row => row.pk = key).getLast? ↔
      LastInItsPool key outs := by
  have hord := rows_inOrder horder hparse
  have hcollects : ∀ b ∈ outs.map fun out => (out.rows, out.currentDelegatorBalances),
      Collects CurrentDelegatorBalance.pk Prod.fst b.1 b.2 := by
    intro b hb
    obtain ⟨out, hout, rfl⟩ := List.mem_map.mp hb
    obtain ⟨batch, -, hbatch⟩ := (mem_of_mapM hparse).mp hout
    exact parseStakeData_collects hbatch
  have hmap : (outs.map fun out => (out.rows, out.currentDelegatorBalances)).map Prod.fst =
      outs.map ParseState.rows := List.map_map
  have hstored := lookup_rowWrites (fun _ _ => balanceQuery_eq_later) hcollects
    (by rw [hmap]; exact hord) key
  rw [hmap, List.flatMap_map] at hstored
  rw [lastInItsPool_iff, ← getLast?_keptAt_eq_iff key hord, ← hstored, List.flatMap_def]
  rfl

/-! ### A pool with two inactive pools -/

/-- A standardized address that ends in one digit. -/
def address (digit : Char) : String :=
  "0x000000000000000000000000000000000000000000000000000000000000000".push digit

/-- A `Table` as JSON text and value. -/
def tableDoc (handle : String) : String × Json :=
  ("\x7b\"handle\":\"" ++ handle ++ "\"\x7d", .object [("handle", .string handle)])

/-- A `Pool` without shares. -/
def poolDoc (sharesHandle : String) : String × Json :=
  ("\x7b\"shares\":\x7b\"inner\":" ++ (tableDoc sharesHandle).1 ++ "\x7d,\"total_coins\":\"0\"," ++
      "\"total_shares\":\"0\",\"scaling_factor\":\"1\"\x7d",
    .object [("shares", .object [("inner", (tableDoc sharesHandle).2)]),
      ("total_coins", .string "0"), ("total_shares", .string "0"),
      ("scaling_factor", .string "1")])

/-- A `DelegationPool`: its active pool, and the table of its inactive pools. -/
def delegationPoolDoc (activeHandle inactiveHandle : String) : String × Json :=
  ("\x7b\"active_shares\":" ++ (poolDoc activeHandle).1 ++ ",\"inactive_shares\":" ++
      (tableDoc inactiveHandle).1 ++ ",\"operator_commission_percentage\":\"0\"\x7d",
    .object [("active_shares", (poolDoc activeHandle).2),
      ("inactive_shares", (tableDoc inactiveHandle).2),
      ("operator_commission_percentage", .string "0")])

/-- A text in JSON. -/
def stringDoc (text : String) : String × Json := ("\"" ++ text ++ "\"", .string text)

/-- Pool a with the active shares 2 and the inactive pools 3, among them 4 and 5, and
the delegator 6. -/
def plainSdk : StakeSdk where
  standardizeAddress := id
  fromStr text :=
    [delegationPoolDoc (address '2') (address '3'), poolDoc (address '4'), poolDoc (address '5'),
      stringDoc (address '6'), stringDoc "7", stringDoc "8"].lookup text
  bigDecimal text := [("0", 0), ("1", 1), ("7", 7), ("8", 8)].lookup text
  parseTimestamp ts _ := ts.seconds.toInt
  bigDecimalDiv a b := if b = 0 then none else some (a / b)

/-- A database that never answers. -/
def noAnswers : Conn := ⟨fun _ _ _ _ => none, fun _ _ _ _ => none, fun _ _ _ _ => none⟩

def writePool : Protos.Change :=
  .writeResource ⟨address 'a', ⟨stakeAddr, "delegation_pool", "DelegationPool"⟩,
    stakeAddr ++ "::delegation_pool::DelegationPool",
    (delegationPoolDoc (address '2') (address '3')).1⟩ []

/-- An inactive pool, by its share table. -/
def writeInactivePool (sharesHandle : String) : Protos.Change :=
  .writeTableItem ⟨address '3', "0x01", some ⟨"\x7b\"index\":\"1\"\x7d",
    "0x1::delegation_pool::ObservedLockupCycle", (poolDoc sharesHandle).1, poolValueType⟩⟩

def writeShares (sharesHandle shares : String) : Protos.Change :=
  .writeTableItem ⟨sharesHandle, address '6', some ⟨(stringDoc (address '6')).1, "address",
    (stringDoc shares).1, "u128"⟩⟩

def deleteShares (sharesHandle : String) : Protos.Change :=
  .deleteTableItem ⟨sharesHandle, address '6', some ⟨(stringDoc (address '6')).1, "address"⟩⟩

/-- A user transaction with these changes. -/
def plainTxn (version : UInt64) (changes : List Protos.Change) : Protos.Transaction :=
  ⟨version, some ⟨0, 0⟩, some changes, some (.user none [])⟩

/-- The delegator unlocks 7 shares, and later withdraws them and unlocks 8 others. -/
def unlockTxns : List Protos.Transaction :=
  [plainTxn 1 [writePool, writeInactivePool (address '4'), writeShares (address '4') "7"],
   plainTxn 2 [writePool, writeInactivePool (address '4'), deleteShares (address '4'),
     writeInactivePool (address '5'), writeShares (address '5') "8"]]

/-- The key of the delegator's shares in an inactive pool. -/
def sharesKey (sharesHandle : String) : BalanceKey :=
  ((address '6', address 'a', .inactive), sharesHandle)

theorem current_balance_last_unlock :
    ∃ outs, (unlockTxns.map ([·])).mapM (parseStakeData plainSdk noAnswers 5) = some outs ∧
      LastInItsPool (sharesKey (address '5')) outs := by
  have hlast : (((unlockTxns.map ([·])).mapM (parseStakeData plainSdk noAnswers 5)).any
      fun outs => (storeBalances outs).lookup (sharesKey (address '5')) =
        ((outs.flatMap ParseState.rows).filter fun row =>
          row.pk = sharesKey (address '5')).getLast?) = true := by
    decide +kernel
  obtain ⟨outs, houts, hlast⟩ := exists_of_any hlast
  exact ⟨outs, houts, (current_balance_last_iff (by decide) houts _).mp hlast⟩

/-- The withdrawal and the new shares are changes of one batch: the 7 shares stay. -/
theorem withdrawn_share_stays :
    InOrder (unlockTxns.map ([·])).flatten ∧
    ∃ outs, (unlockTxns.map ([·])).mapM (parseStakeData plainSdk noAnswers 5) = some outs ∧
      ((storeBalances outs).lookup (sharesKey (address '4'))).map (·.shares) = some 7 ∧
      (((outs.flatMap ParseState.rows).filter fun row =>
        row.pk = sharesKey (address '4')).getLast?).map (·.shares) = some 0 := by
  refine ⟨by decide, ?_⟩
  have hrun : (((unlockTxns.map ([·])).mapM (parseStakeData plainSdk noAnswers 5)).any
      fun outs => ((storeBalances outs).lookup (sharesKey (address '4'))).map (·.shares) = some 7 ∧
        (((outs.flatMap ParseState.rows).filter fun row =>
          row.pk = sharesKey (address '4')).getLast?).map (·.shares) = some 0) = true := by
    decide +kernel
  exact exists_of_any hrun

end IndexerProcessors.Stake

import IndexerProcessors.FungibleAsset.Balances
import IndexerProcessors.Lib.Hex

/-!
# The unified balance table

A coin store and the primary store of its paired fungible asset share a row of
`current_fungible_asset_balances`. Two statements write it, concurrently, one
with the coin stores of a batch and one with the fungible stores. Each has its
own columns, and its guard looks at the version among them.

`unified_balances_last` — the columns of each standard show the last balance of
that standard, whatever the batches and however the row upserts of the two
statements interleave. `Shared.lean` has the columns that both write.
-/

namespace IndexerProcessors.FungibleAsset

open IndexerProcessors.Lib
open IndexerProcessors.Protos

/-- A row of `current_fungible_asset_balances`. -/
abbrev UnifiedRow := CurrentUnifiedFungibleAssetBalance

/-- `version IS NULL OR version <= EXCLUDED.version`. -/
def nullOrLe : Option Int64 → Option Int64 → Bool
  | none, _ => true
  | some v, some e => v ≤ e
  | some _, none => false

/-- `insert_current_unified_fungible_asset_balances_v1_query`, on a conflict. -/
def insertCurrentUnifiedV1Query (old excluded : UnifiedRow) : UnifiedRow :=
  if nullOrLe old.lastTransactionVersionV1 excluded.lastTransactionVersionV1 then
    { old with
      ownerAddress := excluded.ownerAddress
      assetTypeV1 := excluded.assetTypeV1
      isFrozen := excluded.isFrozen
      amountV1 := excluded.amountV1
      lastTransactionTimestampV1 := excluded.lastTransactionTimestampV1
      lastTransactionVersionV1 := excluded.lastTransactionVersionV1 }
  else old

/-- `insert_current_unified_fungible_asset_balances_v2_query`, on a conflict;
`asset_type_v1` is not overwritten by `NULL`. -/
def insertCurrentUnifiedV2Query (old excluded : UnifiedRow) : UnifiedRow :=
  if nullOrLe old.lastTransactionVersionV2 excluded.lastTransactionVersionV2 then
    { old with
      ownerAddress := excluded.ownerAddress
      assetTypeV1 := excluded.assetTypeV1.or old.assetTypeV1
      assetTypeV2 := excluded.assetTypeV2
      isPrimary := excluded.isPrimary
      isFrozen := excluded.isFrozen
      amountV2 := excluded.amountV2
      lastTransactionTimestampV2 := excluded.lastTransactionTimestampV2
      lastTransactionVersionV2 := excluded.lastTransactionVersionV2 }
  else old

/-- The statement of a standard. -/
def unifiedQuery : TokenStandard → UnifiedRow → UnifiedRow → UnifiedRow
  | .v1 => insertCurrentUnifiedV1Query
  | .v2 => insertCurrentUnifiedV2Query

/-- A batch as it is parsed: its transactions and the coin mappings known then. -/
structure CoinBatch where
  transactions : List Protos.Transaction
  getAssetTypeV1 : String → Option String

/-- The upsert of a balance. -/
def balanceWrite (getAssetTypeV1 : String → Option String) (fab : FungibleAssetBalance) :
    Write UnifiedRow :=
  ⟨CurrentUnifiedFungibleAssetBalance.fromBalance getAssetTypeV1 fab,
    unifiedQuery fab.tokenStandard⟩

/-- The rows of one of the two statements of a batch. -/
def statementWrites (batch : CoinBatch) (balances : List FungibleAssetBalance)
    (standard : TokenStandard) : List (String × Write UnifiedRow) :=
  (unifiedMapping batch.getAssetTypeV1 standard balances).rows.map fun row =>
    (row.1, ⟨row.2, unifiedQuery standard⟩)

/-- The row upserts of a batch. -/
def unifiedWrites (sdk : CoinSdk) (batch : CoinBatch) :
    Option (List (String × Write UnifiedRow)) := do
  let balances ← fungibleAssetBalances sdk batch.transactions
  return statementWrites batch balances .v1 ++ statementWrites batch balances .v2

/-! ## The last balances -/

/-- The balances a list of transactions makes, in order. -/
def allBalances (sdk : CoinSdk) (txns : List Protos.Transaction) : List FungibleAssetBalance :=
  txns.flatMap fun txn => (transactionBalances sdk txn).getD []

/-- The last balance of a standard in a store. -/
def lastBalance (sdk : CoinSdk) (txns : List Protos.Transaction) (standard : TokenStandard)
    (storageId : String) : Option FungibleAssetBalance :=
  ((allBalances sdk txns).filter fun fab =>
    fab.tokenStandard = standard ∧ fab.storageId = storageId).getLast?

/-- The row shows a V1 and a V2 balance in their columns; a missing one leaves
them `NULL`, and without a V2 balance the store counts as primary. -/
def ShowsBalances : Option UnifiedRow → Option FungibleAssetBalance →
    Option FungibleAssetBalance → Prop
  | none, v1, v2 => v1 = none ∧ v2 = none
  | some row, v1, v2 =>
    row.amountV1 = v1.map (·.amount) ∧
    row.lastTransactionVersionV1 = v1.map (·.transactionVersion) ∧
    row.lastTransactionTimestampV1 = v1.map (·.transactionTimestamp) ∧
    row.assetTypeV2 = v2.map (·.assetType) ∧
    row.amountV2 = v2.map (·.amount) ∧
    row.lastTransactionVersionV2 = v2.map (·.transactionVersion) ∧
    row.lastTransactionTimestampV2 = v2.map (·.transactionTimestamp) ∧
    row.isPrimary = (v2.map (·.isPrimary)).getD true

/-! ## A standard's columns -/

/-- The columns of one standard. -/
structure StandardObs where
  version : Int64
  assetType : Option String
  amount : Option ℚ
  timestamp : Option NaiveDateTime
  isPrimary : Bool

/-- What a row shows of a standard. -/
def observe : TokenStandard → Option UnifiedRow → Option StandardObs
  | .v1, row => row.bind fun row => row.lastTransactionVersionV1.map fun version =>
      ⟨version, none, row.amountV1, row.lastTransactionTimestampV1, true⟩
  | .v2, row => row.bind fun row => row.lastTransactionVersionV2.map fun version =>
      ⟨version, row.assetTypeV2, row.amountV2, row.lastTransactionTimestampV2, row.isPrimary⟩

/-- What a balance shows. -/
def FungibleAssetBalance.obs (fab : FungibleAssetBalance) : StandardObs :=
  match fab.tokenStandard with
  | .v1 => ⟨fab.transactionVersion, none, some fab.amount, some fab.transactionTimestamp, true⟩
  | .v2 => ⟨fab.transactionVersion, some fab.assetType, some fab.amount,
      some fab.transactionTimestamp, fab.isPrimary⟩

theorem obs_version (fab : FungibleAssetBalance) : fab.obs.version = fab.transactionVersion := by
  unfold FungibleAssetBalance.obs
  split
  · rfl
  · rfl

/-- A new row shows its balance in the columns of its standard. -/
theorem observe_excluded (getAssetTypeV1 : String → Option String) (standard : TokenStandard)
    (fab : FungibleAssetBalance) :
    observe standard (some (balanceWrite getAssetTypeV1 fab).excluded) =
      if fab.tokenStandard = standard then some fab.obs else none := by
  obtain ⟨v, index, storage, owner, asset, primary, frozen, amount, ts, std⟩ := fab
  cases std <;> cases standard <;> rfl

/-- An upsert shows in the columns of its standard and nowhere else. -/
theorem shows_balanceWrite (getAssetTypeV1 : String → Option String) (standard : TokenStandard)
    (fab : FungibleAssetBalance) :
    Table.Shows StandardObs.version (observe standard) (balanceWrite getAssetTypeV1 fab)
      (if fab.tokenStandard = standard then some fab.obs else none) := by
  intro old
  obtain ⟨v, index, storage, owner, asset, primary, frozen, amount, ts, std⟩ := fab
  cases old with
  | none => cases std <;> cases standard <;> rfl
  | some row =>
    obtain ⟨id, o, a₁, a₂, p, f, m₁, m₂, v₁, v₂, t₁, t₂⟩ := row
    cases std with
    | v1 =>
      cases standard with
      | v1 =>
        -- A row of the other standard only has `NULL` here, and the guard passes.
        cases v₁ with
        | none => rfl
        | some v' =>
          simp only [balanceWrite, Table.merged, unifiedQuery, insertCurrentUnifiedV1Query,
            CurrentUnifiedFungibleAssetBalance.fromBalance, nullOrLe, decide_eq_true_eq,
            FungibleAssetBalance.obs, observe, later, Option.bind_some, Option.map_some,
            if_true]
          split
          · rfl
          · rfl
      | v2 =>
        simp only [balanceWrite, Table.merged, unifiedQuery, insertCurrentUnifiedV1Query,
          observe, Option.bind_some]
        split
        · rfl
        · rfl
    | v2 =>
      cases standard with
      | v1 =>
        simp only [balanceWrite, Table.merged, unifiedQuery, insertCurrentUnifiedV2Query,
          observe, Option.bind_some]
        split
        · rfl
        · rfl
      | v2 =>
        cases v₂ with
        | none => rfl
        | some v' =>
          simp only [balanceWrite, Table.merged, unifiedQuery, insertCurrentUnifiedV2Query,
            CurrentUnifiedFungibleAssetBalance.fromBalance, nullOrLe, decide_eq_true_eq,
            FungibleAssetBalance.obs, observe, later, Option.bind_some, Option.map_some,
            if_true]
          split
          · rfl
          · rfl

/-- A statement has, for each store, the last balance of its standard. -/
theorem mem_statementWrites {batch : CoinBatch} {balances : List FungibleAssetBalance}
    {standard : TokenStandard} {storageId : String} {w : Write UnifiedRow} :
    (storageId, w) ∈ statementWrites batch balances standard ↔
      ∃ fab, (balances.filter fun fab =>
          fab.tokenStandard = standard ∧ fab.storageId = storageId).getLast? = some fab ∧
        w = balanceWrite batch.getAssetTypeV1 fab := by
  -- Later balances replace earlier ones in the map, so the row is the last one's.
  have hlookup : (unifiedMapping batch.getAssetTypeV1 standard balances).lookup storageId =
      (balances.filter fun fab =>
        fab.tokenStandard = standard ∧ fab.storageId = storageId).getLast?.map
        (CurrentUnifiedFungibleAssetBalance.fromBalance batch.getAssetTypeV1) := by
    unfold unifiedMapping
    rw [Table.lookup_insertAll, AList.lookup_empty, Option.or_none,
      proj_map _ FungibleAssetBalance.storageId, List.getLast?_map, List.filter_filter]
    simp only [Bool.decide_and, Bool.and_comm]
  have hstandard : ∀ fab, (balances.filter fun fab =>
      fab.tokenStandard = standard ∧ fab.storageId = storageId).getLast? = some fab →
      fab.tokenStandard = standard := by
    intro fab hfab
    have hmem := List.of_mem_filter (List.mem_of_getLast? hfab)
    exact (of_decide_eq_true hmem).1
  unfold statementWrites
  rw [List.mem_map]
  constructor
  · intro h
    obtain ⟨⟨k, row⟩, hrow, heq⟩ := h
    obtain ⟨rfl, rfl⟩ := Prod.mk.inj heq
    have hrow' := Table.mem_rows.mp hrow
    rw [hlookup] at hrow'
    obtain ⟨fab, hfab, rfl⟩ := Option.map_eq_some_iff.mp hrow'
    refine ⟨fab, hfab, ?_⟩
    unfold balanceWrite
    rw [hstandard fab hfab]
  · intro h
    obtain ⟨fab, hfab, rfl⟩ := h
    refine ⟨(storageId, CurrentUnifiedFungibleAssetBalance.fromBalance batch.getAssetTypeV1 fab),
      ?_, ?_⟩
    · rw [Table.mem_rows, hlookup, hfab]
      rfl
    · unfold balanceWrite
      rw [hstandard fab hfab]

/-- The balances of a batch that is parsed. -/
theorem fungibleAssetBalances_eq {sdk : CoinSdk} {txns : List Protos.Transaction}
    {balances : List FungibleAssetBalance}
    (h : fungibleAssetBalances sdk txns = some balances) : balances = allBalances sdk txns := by
  unfold fungibleAssetBalances at h
  obtain ⟨perTxn, hperTxn, h⟩ := Option.bind_eq_some_iff.mp h
  obtain rfl := Option.some.inj h
  exact flatten_of_mapM hperTxn

/-- The upserts of a batch are those of its last balances. -/
theorem mem_unifiedWrites {sdk : CoinSdk} {batch : CoinBatch}
    {writes : List (String × Write UnifiedRow)} (h : unifiedWrites sdk batch = some writes)
    {storageId : String} {w : Write UnifiedRow} :
    (storageId, w) ∈ writes ↔
      ∃ standard fab, lastBalance sdk batch.transactions standard storageId = some fab ∧
        w = balanceWrite batch.getAssetTypeV1 fab := by
  unfold unifiedWrites at h
  obtain ⟨balances, hbalances, h⟩ := Option.bind_eq_some_iff.mp h
  obtain rfl := Option.some.inj h
  unfold lastBalance
  rw [← fungibleAssetBalances_eq hbalances, List.mem_append, mem_statementWrites,
    mem_statementWrites]
  constructor
  · intro h
    rcases h with h | h
    · exact ⟨.v1, h⟩
    · exact ⟨.v2, h⟩
  · intro h
    obtain ⟨standard, hfab⟩ := h
    cases standard with
    | v1 => exact Or.inl hfab
    | v2 => exact Or.inr hfab

theorem lastBalance_spec {sdk : CoinSdk} {txns : List Protos.Transaction}
    {standard : TokenStandard} {storageId : String} {fab : FungibleAssetBalance}
    (h : lastBalance sdk txns standard storageId = some fab) :
    fab ∈ allBalances sdk txns ∧ fab.tokenStandard = standard ∧ fab.storageId = storageId := by
  have hmem := List.mem_filter.mp (List.mem_of_getLast? h)
  exact ⟨hmem.1, of_decide_eq_true hmem.2⟩

/-! ## Versions -/

/-- The balances of a transaction are of its version. -/
theorem coinBalance_version {sdk : CoinSdk} {address coinType : String} {frozen : Bool}
    {amount : ℚ} {index version : Int64} {ts : NaiveDateTime} {fab : FungibleAssetBalance}
    (h : coinBalance sdk address coinType frozen amount index version ts = some fab) :
    fab.transactionVersion = version := by
  unfold coinBalance at h
  obtain ⟨storageId, -, h⟩ := Option.bind_eq_some_iff.mp h
  obtain rfl := Option.some.inj h
  rfl

theorem getV1FromWriteResource_version {sdk : CoinSdk} {wr : WriteResource}
    {params : List MoveType} {index version : Int64} {ts : NaiveDateTime}
    {fab : FungibleAssetBalance}
    (h : getV1FromWriteResource sdk wr params index version ts = some (some fab)) :
    fab.transactionVersion = version := by
  unfold getV1FromWriteResource at h
  obtain ⟨inner, -, h⟩ := Option.bind_eq_some_iff.mp h
  split at h
  · obtain ⟨coinInfoType, -, h⟩ := Option.bind_eq_some_iff.mp h
    split at h
    · obtain ⟨balance, hbalance, h⟩ := Option.bind_eq_some_iff.mp h
      obtain rfl := Option.some.inj (Option.some.inj h)
      exact coinBalance_version hbalance
    · cases h
  · cases h

theorem getV1FromDeleteResource_version {sdk : CoinSdk} {dr : DeleteResource}
    {params : List MoveType} {index version : Int64} {ts : NaiveDateTime}
    {fab : FungibleAssetBalance}
    (h : getV1FromDeleteResource sdk dr params index version ts = some (some fab)) :
    fab.transactionVersion = version := by
  unfold getV1FromDeleteResource at h
  split at h
  · cases h
  · obtain ⟨coinInfoType, -, h⟩ := Option.bind_eq_some_iff.mp h
    split at h
    · obtain ⟨balance, hbalance, h⟩ := Option.bind_eq_some_iff.mp h
      obtain rfl := Option.some.inj (Option.some.inj h)
      exact coinBalance_version hbalance
    · cases h

theorem getV2FromWriteResource_version {sdk : CoinSdk} {wr : WriteResource}
    {index version : Int64} {ts : NaiveDateTime} {objects : ObjectAggregatedDataMapping}
    {fab : FungibleAssetBalance}
    (h : getV2FromWriteResource sdk wr index version ts objects = some (some fab)) :
    fab.transactionVersion = version := by
  unfold getV2FromWriteResource at h
  obtain ⟨inner, -, h⟩ := Option.bind_eq_some_iff.mp h
  split at h
  · dsimp only at h
    split at h
    · obtain ⟨primary, -, h⟩ := Option.bind_eq_some_iff.mp h
      obtain rfl := Option.some.inj (Option.some.inj h)
      rfl
    · cases h
  · cases h

theorem getV2FromDeleteResource_version {sdk : CoinSdk} {dr : DeleteResource}
    {index version : Int64} {ts : NaiveDateTime}
    {deleted : Table String FungibleAssetStoreDeletionEvent} {fab : FungibleAssetBalance}
    (h : getV2FromDeleteResource sdk dr index version ts deleted = some fab) :
    fab.transactionVersion = version := by
  unfold getV2FromDeleteResource at h
  obtain ⟨-, -, h⟩ := Option.bind_eq_some_iff.mp h
  obtain ⟨event, -, h⟩ := Option.bind_eq_some_iff.mp h
  obtain rfl := Option.some.inj h
  rfl

theorem v1BalanceOf_version {sdk : CoinSdk} {version : Int64} {ts : NaiveDateTime}
    {change : Protos.Change × ℕ} {fab : FungibleAssetBalance}
    (h : v1BalanceOf sdk version ts change = some (some fab)) :
    fab.transactionVersion = version := by
  unfold v1BalanceOf at h
  split at h
  · exact getV1FromWriteResource_version h
  · exact getV1FromDeleteResource_version h
  · cases h

theorem v2BalanceOf_version {sdk : CoinSdk} {version : Int64} {ts : NaiveDateTime}
    {objects : ObjectAggregatedDataMapping}
    {deleted : Table String FungibleAssetStoreDeletionEvent} {change : Protos.Change × ℕ}
    {fab : FungibleAssetBalance}
    (h : v2BalanceOf sdk version ts objects deleted change = some (some fab)) :
    fab.transactionVersion = version := by
  unfold v2BalanceOf at h
  split at h
  · exact getV2FromWriteResource_version h
  · exact getV2FromDeleteResource_version (Option.some.inj h)
  · cases h

/-- The balances of a transaction are of its version. -/
theorem transactionBalances_version {sdk : CoinSdk} {txn : Protos.Transaction}
    {fab : FungibleAssetBalance} (h : fab ∈ (transactionBalances sdk txn).getD []) :
    fab.transactionVersion = txn.txnVersion := by
  cases hbalances : transactionBalances sdk txn with
  | none => rw [hbalances] at h; cases h
  | some balances =>
    rw [hbalances] at h
    unfold transactionBalances at hbalances
    split at hbalances
    · obtain rfl := Option.some.inj hbalances
      cases h
    · obtain ⟨changes, -, hb⟩ := Option.bind_eq_some_iff.mp hbalances
      obtain ⟨timestamp, -, hb⟩ := Option.bind_eq_some_iff.mp hb
      obtain ⟨ts, -, hb⟩ := Option.bind_eq_some_iff.mp hb
      obtain ⟨events, -, hb⟩ := Option.bind_eq_some_iff.mp hb
      obtain ⟨objects, -, hb⟩ := Option.bind_eq_some_iff.mp hb
      obtain ⟨deleted, -, hb⟩ := Option.bind_eq_some_iff.mp hb
      obtain ⟨v1, hv1, hb⟩ := Option.bind_eq_some_iff.mp hb
      obtain ⟨objects', -, hb⟩ := Option.bind_eq_some_iff.mp hb
      obtain ⟨v2, hv2, hb⟩ := Option.bind_eq_some_iff.mp hb
      obtain rfl := Option.some.inj hb
      rcases List.mem_append.mp h with hmem | hmem
      · obtain ⟨change, -, hchange⟩ := (mem_of_mapM hv1).mp (List.reduceOption_mem_iff.mp hmem)
        exact v1BalanceOf_version hchange
      · obtain ⟨change, -, hchange⟩ := (mem_of_mapM hv2).mp (List.reduceOption_mem_iff.mp hmem)
        exact v2BalanceOf_version hchange

/-! ## The columns of a standard show its last balance -/

/-- The balances of a standard in a store, of one transaction. -/
def balancesAt (sdk : CoinSdk) (standard : TokenStandard) (storageId : String)
    (txn : Protos.Transaction) : List FungibleAssetBalance :=
  ((transactionBalances sdk txn).getD []).filter fun fab =>
    fab.tokenStandard = standard ∧ fab.storageId = storageId

theorem lastBalance_eq (sdk : CoinSdk) (txns : List Protos.Transaction)
    (standard : TokenStandard) (storageId : String) :
    lastBalance sdk txns standard storageId =
      (txns.flatMap (balancesAt sdk standard storageId)).getLast? := by
  unfold lastBalance allBalances balancesAt
  rw [List.filter_flatMap]

theorem lastBalance_obs (sdk : CoinSdk) (txns : List Protos.Transaction)
    (standard : TokenStandard) (storageId : String) :
    (txns.flatMap fun txn => (balancesAt sdk standard storageId txn).map
        FungibleAssetBalance.obs).getLast? =
      (lastBalance sdk txns standard storageId).map FungibleAssetBalance.obs := by
  rw [lastBalance_eq, ← List.getLast?_map, List.map_flatMap]

/-- Batches of a list of transactions with their upserts, in some order. -/
structure CoinSchedule (sdk : CoinSdk) (txns : List Protos.Transaction)
    (order : List (String × Write UnifiedRow)) where
  batches : List CoinBatch
  writes : CoinBatch → List (String × Write UnifiedRow)
  covers : Batches txns (batches.map CoinBatch.transactions)
  parsed : ∀ c ∈ batches, unifiedWrites sdk c = some (writes c)
  interleaves : order.Perm (batches.flatMap writes)

namespace CoinSchedule

variable {sdk : CoinSdk} {txns : List Protos.Transaction}
  {order : List (String × Write UnifiedRow)}

theorem sublist (sched : CoinSchedule sdk txns order) :
    ∀ c ∈ sched.batches, c.transactions.Sublist txns :=
  fun c hc => sched.covers.sublist c.transactions (List.mem_map_of_mem hc)

theorem cover (sched : CoinSchedule sdk txns order) :
    ∀ t ∈ txns, ∃ c ∈ sched.batches, t ∈ c.transactions := by
  intro t ht
  obtain ⟨b, hb, htb⟩ := sched.covers.cover t ht
  obtain ⟨c, hc, rfl⟩ := List.mem_map.mp hb
  exact ⟨c, hc, htb⟩

theorem mem_order (sched : CoinSchedule sdk txns order) {storageId : String}
    {w : Write UnifiedRow} (h : (storageId, w) ∈ order) :
    ∃ c ∈ sched.batches, ∃ standard fab,
      lastBalance sdk c.transactions standard storageId = some fab ∧
        w = balanceWrite c.getAssetTypeV1 fab := by
  obtain ⟨c, hc, hwc⟩ := List.mem_flatMap.mp (sched.interleaves.mem_iff.mp h)
  exact ⟨c, hc, (mem_unifiedWrites (sched.parsed c hc)).mp hwc⟩

/-- The columns of a standard show its last balance. -/
theorem observe_eq (sched : CoinSchedule sdk txns order) (hord : InOrder txns)
    (standard : TokenStandard) (storageId : String) :
    observe standard ((Table.writeAll ∅ order).lookup storageId) =
      (lastBalance sdk txns standard storageId).map FungibleAssetBalance.obs := by
  let shown : Write UnifiedRow → Option StandardObs := fun w => observe standard (some w.excluded)
  have hversion : ∀ t ∈ txns, ∀ o ∈ (balancesAt sdk standard storageId t).map
      FungibleAssetBalance.obs, o.version = t.txnVersion := by
    intro t _ o ho
    obtain ⟨fab, hfab, rfl⟩ := List.mem_map.mp ho
    rw [obs_version]
    exact transactionBalances_version (List.mem_of_mem_filter hfab)
  have hshows : ∀ c ∈ sched.batches, ∀ w, (storageId, w) ∈ sched.writes c →
      Table.Shows StandardObs.version (observe standard) w (shown w) := by
    intro c hc w hw
    obtain ⟨_, fab, -, rfl⟩ := (mem_unifiedWrites (sched.parsed c hc)).mp hw
    show Table.Shows _ _ _ (observe standard _)
    rw [observe_excluded]
    exact shows_balanceWrite _ standard fab
  -- Upserts of the other standard show nothing, so each batch shows at most one
  -- balance, its last.
  have hlast : ∀ c ∈ sched.batches, ∀ o,
      (∃ w, (storageId, w) ∈ sched.writes c ∧ shown w = some o) ↔
        (c.transactions.flatMap fun txn => (balancesAt sdk standard storageId txn).map
          FungibleAssetBalance.obs).getLast? = some o := by
    intro c hc o
    rw [lastBalance_obs, Option.map_eq_some_iff]
    constructor
    · intro h
      obtain ⟨w, hw, hshown⟩ := h
      obtain ⟨std, fab, hfab, rfl⟩ := (mem_unifiedWrites (sched.parsed c hc)).mp hw
      have hstd := (lastBalance_spec hfab).2.1
      rw [show shown _ = _ from observe_excluded _ standard fab] at hshown
      split at hshown
      next heq =>
        obtain rfl := hstd.symm.trans heq
        exact ⟨fab, hfab, Option.some.inj hshown⟩
      next => cases hshown
    · intro h
      obtain ⟨fab, hfab, rfl⟩ := h
      refine ⟨balanceWrite c.getAssetTypeV1 fab,
        (mem_unifiedWrites (sched.parsed c hc)).mpr ⟨standard, fab, hfab, rfl⟩, ?_⟩
      rw [show shown _ = _ from observe_excluded _ standard fab,
        if_pos (lastBalance_spec hfab).2.1]
  have hnone : observe standard none = none := by cases standard <;> rfl
  rw [← lastBalance_obs]
  exact observe_batches hord hversion sched.sublist sched.cover hnone hshows hlast
    sched.interleaves

end CoinSchedule

/-- The columns of a standard without a version are `NULL`, and the store counts
as primary. -/
structure NullColumns (row : UnifiedRow) : Prop where
  v1 : row.lastTransactionVersionV1 = none →
    row.amountV1 = none ∧ row.lastTransactionTimestampV1 = none
  v2 : row.lastTransactionVersionV2 = none →
    row.assetTypeV2 = none ∧ row.amountV2 = none ∧ row.lastTransactionTimestampV2 = none ∧
      row.isPrimary = true

theorem nullColumns_fromBalance (getAssetTypeV1 : String → Option String)
    (fab : FungibleAssetBalance) :
    NullColumns (CurrentUnifiedFungibleAssetBalance.fromBalance getAssetTypeV1 fab) := by
  obtain ⟨v, index, storage, owner, asset, primary, frozen, amount, ts, std⟩ := fab
  cases std with
  | v1 =>
    refine ⟨fun h => ?_, fun _ => ⟨rfl, rfl, rfl, rfl⟩⟩
    cases h
  | v2 =>
    refine ⟨fun _ => ⟨rfl, rfl⟩, fun h => ?_⟩
    cases h

theorem nullColumns_query (getAssetTypeV1 : String → Option String) (fab : FungibleAssetBalance)
    {old : UnifiedRow} (h : NullColumns old) :
    NullColumns (unifiedQuery fab.tokenStandard old
      (CurrentUnifiedFungibleAssetBalance.fromBalance getAssetTypeV1 fab)) := by
  obtain ⟨v, index, storage, owner, asset, primary, frozen, amount, ts, std⟩ := fab
  cases std with
  | v1 =>
    show NullColumns (insertCurrentUnifiedV1Query old _)
    unfold insertCurrentUnifiedV1Query
    split
    · refine ⟨fun hnone => ?_, h.v2⟩
      cases hnone
    · exact h
  | v2 =>
    show NullColumns (insertCurrentUnifiedV2Query old _)
    unfold insertCurrentUnifiedV2Query
    split
    · refine ⟨h.v1, fun hnone => ?_⟩
      cases hnone
    · exact h

/-- Every stored row has them. -/
theorem CoinSchedule.nullColumns {sdk : CoinSdk} {txns : List Protos.Transaction}
    {order : List (String × Write UnifiedRow)} (sched : CoinSchedule sdk txns order)
    (storageId : String) :
    ∀ row, (Table.writeAll ∅ order).lookup storageId = some row → NullColumns row := by
  let P : Option UnifiedRow → Prop := fun o => ∀ row, o = some row → NullColumns row
  have hinit : P ((∅ : Table String UnifiedRow).lookup storageId) := by
    intro row hrow
    cases hrow
  refine Table.writeAll_invariant hinit ?_
  intro w hw old hold row hrow
  obtain ⟨c, -, _, fab, -, rfl⟩ := sched.mem_order hw
  obtain rfl := Option.some.inj hrow
  cases old with
  | none => exact nullColumns_fromBalance _ fab
  | some old => exact nullColumns_query _ fab (hold old rfl)

/-- The columns of the coin store, by the last balance they show. -/
theorem v1Columns_eq {row : UnifiedRow} {last : Option FungibleAssetBalance}
    (hnull : NullColumns row) (hobs : observe .v1 (some row) = last.map FungibleAssetBalance.obs)
    (hstandard : ∀ fab, last = some fab → fab.tokenStandard = .v1) :
    row.amountV1 = last.map (·.amount) ∧
      row.lastTransactionVersionV1 = last.map (·.transactionVersion) ∧
      row.lastTransactionTimestampV1 = last.map (·.transactionTimestamp) := by
  cases last with
  | none =>
    have hver := Option.map_eq_none_iff.mp hobs
    exact ⟨(hnull.v1 hver).1, hver, (hnull.v1 hver).2⟩
  | some fab =>
    obtain ⟨v, hver, hobs⟩ := Option.map_eq_some_iff.mp hobs
    unfold FungibleAssetBalance.obs at hobs
    rw [hstandard fab rfl] at hobs
    obtain ⟨rfl, -, hamount, hts, -⟩ := StandardObs.mk.inj hobs
    exact ⟨hamount, hver, hts⟩

/-- The columns of the fungible store. -/
theorem v2Columns_eq {row : UnifiedRow} {last : Option FungibleAssetBalance}
    (hnull : NullColumns row) (hobs : observe .v2 (some row) = last.map FungibleAssetBalance.obs)
    (hstandard : ∀ fab, last = some fab → fab.tokenStandard = .v2) :
    row.assetTypeV2 = last.map (·.assetType) ∧ row.amountV2 = last.map (·.amount) ∧
      row.lastTransactionVersionV2 = last.map (·.transactionVersion) ∧
      row.lastTransactionTimestampV2 = last.map (·.transactionTimestamp) ∧
      row.isPrimary = (last.map (·.isPrimary)).getD true := by
  cases last with
  | none =>
    have hver := Option.map_eq_none_iff.mp hobs
    obtain ⟨hasset, hamount, hts, hprimary⟩ := hnull.v2 hver
    exact ⟨hasset, hamount, hver, hts, hprimary⟩
  | some fab =>
    obtain ⟨v, hver, hobs⟩ := Option.map_eq_some_iff.mp hobs
    unfold FungibleAssetBalance.obs at hobs
    rw [hstandard fab rfl] at hobs
    obtain ⟨rfl, hasset, hamount, hts, hprimary⟩ := StandardObs.mk.inj hobs
    exact ⟨hasset, hamount, hver, hts, hprimary⟩

/-- **The unified balances do not depend on the order.** The batches are any
parts that cover the list, each in its order, and their row upserts of both statements
are executed in any order: the columns of each standard show its last balance. -/
theorem unified_balances_last (sdk : CoinSdk) (txns : List Protos.Transaction)
    (hord : InOrder txns) (order : List (String × Write UnifiedRow))
    (sched : CoinSchedule sdk txns order) (storageId : String) :
    ShowsBalances ((Table.writeAll ∅ order).lookup storageId)
      (lastBalance sdk txns .v1 storageId) (lastBalance sdk txns .v2 storageId) := by
  have hv1 := sched.observe_eq hord .v1 storageId
  have hv2 := sched.observe_eq hord .v2 storageId
  have hnull := sched.nullColumns storageId
  cases hrow : (Table.writeAll ∅ order).lookup storageId with
  | none =>
    rw [hrow] at hv1 hv2
    exact ⟨Option.map_eq_none_iff.mp hv1.symm, Option.map_eq_none_iff.mp hv2.symm⟩
  | some row =>
    rw [hrow] at hv1 hv2
    obtain ⟨hamount, hversion, hts⟩ :=
      v1Columns_eq (hnull row hrow) hv1 fun fab h => (lastBalance_spec h).2.1
    have hv2Columns := v2Columns_eq (hnull row hrow) hv2 fun fab h => (lastBalance_spec h).2.1
    exact ⟨hamount, hversion, hts, hv2Columns⟩

/-! ## A coin and its paired fungible asset -/

/-- An account. -/
def holder : String := "0xfd2984f201abdbf30ccd0ec5c2f2357789222c0bbd3c68999acfebe188fdc09d"

/-- The metadata address of the native coin. -/
def aptMetadata : String := "0x000000000000000000000000000000000000000000000000000000000000000a"

/-- The account's primary store of it. -/
def holderStore : String := "0x6772a7398d6721ea8303e5cc523da1bb3574480fac17cf3792bda6172d3853dc"

/-- A coin store that holds 10. -/
def coinText : String := "\x7b\"coin\":\x7b\"value\":\"10\"\x7d,\"frozen\":false\x7d"

/-- The object core of the account's store. -/
def coreText : String :=
  "\x7b\"allow_ungated_transfer\":true,\"guid_creation_num\":\"0\",\"owner\":\"" ++ holder ++ "\"\x7d"

/-- A frozen store that holds 3. -/
def frozenText : String :=
  "\x7b\"metadata\":\x7b\"inner\":\"" ++ aptMetadata ++ "\"\x7d,\"balance\":\"3\",\"frozen\":true\x7d"

/-- A store that holds 4 and is not frozen. -/
def openText : String :=
  "\x7b\"metadata\":\x7b\"inner\":\"" ++ aptMetadata ++ "\"\x7d,\"balance\":\"4\",\"frozen\":false\x7d"

/-- The values of these texts. -/
def resourceTexts : List (String × Json) :=
  [(coinText, .object [("coin", .object [("value", .string "10")]), ("frozen", .bool false)]),
   (coreText, .object [("allow_ungated_transfer", .bool true), ("guid_creation_num", .string "0"),
     ("owner", .string holder)]),
   (frozenText, .object [("metadata", .object [("inner", .string aptMetadata)]),
     ("balance", .string "3"), ("frozen", .bool true)]),
   (openText, .object [("metadata", .object [("inner", .string aptMetadata)]),
     ("balance", .string "4"), ("frozen", .bool false)])]

/-- The outside functions on these texts; of the hash, the one value needed. -/
def pairedSdk : CoinSdk where
  standardizeAddress address :=
    if address.toList.take 2 = ['0', 'x'] then address else "0x" ++ address
  fromStr text := resourceTexts.lookup text
  bigDecimal text := [("10", 10), ("3", 3), ("4", 4), ("0", 0)].lookup text
  parseTimestamp ts _ := ts.seconds.toInt * 1000000
  fromTimestampOpt seconds _ := some (seconds.toInt * 1000000)
  sha3 bytes :=
    if some bytes = (hexDecode (holder.toList.drop 2 ++ aptMetadata.toList.drop 2)).map (· ++ [0xFC])
    then (hexDecode (holderStore.toList.drop 2)).getD [] else []
  hexEncode := hexEncode
  hexToRawBytes text := hexDecode (text.toList.drop 2)
  aggregatorValue _ := none
  aptosCoinTypeStr := "0x1::aptos_coin::AptosCoin"
  aptMetadataAddressHex := aptMetadata
  aptMetadataAddressRaw := (hexDecode (aptMetadata.toList.drop 2)).getD []

/-- A user transaction at a version, with writes of resources of `0x1`. -/
def resourceTxn (version : UInt64)
    (resources : List (String × String × String × String × List MoveType × String)) :
    Protos.Transaction where
  version := version
  timestamp := some ⟨version.toInt64, 0⟩
  info := some (resources.map fun (address, module, name, typeStr, params, data) =>
    .writeResource ⟨address, ⟨coinAddr, module, name⟩, typeStr, data⟩ params)
  txnData := some (.user (some ⟨holder, none⟩) [])

/-- The account's coin store, not frozen, with 10 coins. -/
def coinTxn (version : UInt64) : Protos.Transaction :=
  resourceTxn version [(holder, "coin", "CoinStore",
    "0x1::coin::CoinStore<0x1::aptos_coin::AptosCoin>",
    [.struct ⟨"0x1", "aptos_coin", "AptosCoin"⟩], coinText)]

/-- The account's fungible store. -/
def storeTxn (version : UInt64) (data : String) : Protos.Transaction :=
  resourceTxn version [(holderStore, "object", "ObjectCore", "0x1::object::ObjectCore", [], coreText),
    (holderStore, "fungible_asset", "FungibleStore", "0x1::fungible_asset::FungibleStore", [], data)]

/-- What the account holds in the coin store. -/
def coinHeld : FungibleAssetBalance :=
  ⟨5, 0, holderStore, holder, "0x1::aptos_coin::AptosCoin", true, false, 10, 5000000, .v1⟩

/-- What it holds in its primary store. -/
def storeHeld (frozen : Bool) (amount : ℚ) : FungibleAssetBalance :=
  ⟨7, 1, holderStore, holder, aptMetadata, true, frozen, amount, 7000000, .v2⟩

theorem transactionBalances_coinTxn :
    transactionBalances pairedSdk (coinTxn 5) = some [coinHeld] := by decide +kernel

theorem transactionBalances_frozenStore :
    transactionBalances pairedSdk (storeTxn 7 frozenText) = some [storeHeld true 3] := by
  decide +kernel

theorem transactionBalances_openStore :
    transactionBalances pairedSdk (storeTxn 7 openText) = some [storeHeld false 4] := by
  decide +kernel

/-- A coin store and, two versions later, its primary store. -/
def pairedTxns (data : String) : List Protos.Transaction := [coinTxn 5, storeTxn 7 data]

theorem inOrder_pairedTxns (data : String) : InOrder (pairedTxns data) := by
  refine List.pairwise_cons.mpr ⟨?_, List.pairwise_singleton _ _⟩
  intro t ht
  rw [List.mem_singleton.mp ht]
  show (5 : UInt64).toInt64 < (7 : UInt64).toInt64
  decide

theorem fungibleAssetBalances_pairedTxns {data : String} {held : FungibleAssetBalance}
    (h : transactionBalances pairedSdk (storeTxn 7 data) = some [held]) :
    fungibleAssetBalances pairedSdk (pairedTxns data) = some [coinHeld, held] := by
  simp [fungibleAssetBalances, pairedTxns, transactionBalances_coinTxn, h]

theorem allBalances_pairedTxns {data : String} {held : FungibleAssetBalance}
    (h : transactionBalances pairedSdk (storeTxn 7 data) = some [held]) :
    allBalances pairedSdk (pairedTxns data) = [coinHeld, held] := by
  simp [allBalances, pairedTxns, transactionBalances_coinTxn, h]

/-- Each store is the last of its standard. -/
theorem lastBalance_pairedTxns {data : String} {frozen : Bool} {amount : ℚ}
    (h : transactionBalances pairedSdk (storeTxn 7 data) = some [storeHeld frozen amount]) :
    lastBalance pairedSdk (pairedTxns data) .v1 holderStore = some coinHeld ∧
      lastBalance pairedSdk (pairedTxns data) .v2 holderStore = some (storeHeld frozen amount) := by
  unfold lastBalance
  rw [allBalances_pairedTxns h]
  constructor
  · simp [coinHeld, storeHeld]
  · simp [coinHeld, storeHeld]

/-- The later batch is stored first, then the earlier one, then both again. -/
def pairedBatches (data : String) : List CoinBatch :=
  [[storeTxn 7 data], [coinTxn 5], pairedTxns data].map fun txns => ⟨txns, fun _ => none⟩

/-- A schedule of these batches. -/
def pairedSchedule {data : String} {held : FungibleAssetBalance}
    (h : transactionBalances pairedSdk (storeTxn 7 data) = some [held]) :
    CoinSchedule pairedSdk (pairedTxns data)
      ((pairedBatches data).flatMap fun c => (unifiedWrites pairedSdk c).getD []) where
  batches := pairedBatches data
  writes := fun c => (unifiedWrites pairedSdk c).getD []
  covers := by
    refine ⟨?_, ?_⟩
    · simp [pairedBatches, pairedTxns]
    · simp [pairedBatches, pairedTxns]
  parsed := by
    simp [pairedBatches, unifiedWrites, fungibleAssetBalances, pairedTxns,
      transactionBalances_coinTxn, h]
  interleaves := List.Perm.refl _

/-- Both balances are in the row. -/
theorem unified_balances_last_paired :
    ∃ order, Nonempty (CoinSchedule pairedSdk (pairedTxns frozenText) order) ∧
      ShowsBalances ((Table.writeAll ∅ order).lookup holderStore) (some coinHeld)
        (some (storeHeld true 3)) := by
  have hsched : ∃ order, Nonempty (CoinSchedule pairedSdk (pairedTxns frozenText) order) :=
    ⟨_, ⟨pairedSchedule transactionBalances_frozenStore⟩⟩
  obtain ⟨order, ⟨sched⟩⟩ := hsched
  have hlast := lastBalance_pairedTxns transactionBalances_frozenStore
  refine ⟨order, ⟨sched⟩, ?_⟩
  rw [← hlast.1, ← hlast.2]
  exact unified_balances_last pairedSdk _ (inOrder_pairedTxns frozenText) order sched holderStore

end IndexerProcessors.FungibleAsset

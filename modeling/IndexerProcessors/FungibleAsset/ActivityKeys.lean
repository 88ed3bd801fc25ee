import IndexerProcessors.FungibleAsset.Parse
import IndexerProcessors.FungibleAsset.Unified

/-!
# The keys of the activities

Every event is offered to the parser of coins and to that of fungible assets, and the gas
of a user transaction has an index of its own. `activity_keys_nodup` — no two activities
of a batch have the same `(transaction_version, event_index)`, so that the statement of the
storer meets each of its keys once.
-/

namespace IndexerProcessors.FungibleAsset

open IndexerProcessors.Lib
open IndexerProcessors.Protos

variable {sdk : AssetSdk} {ctx : TxnContext}

/-! ## One event -/

/-- A row of the parser of coins is of a coin event, and has its index. -/
theorem getV1FromEvent_eq_some {event : Stream.Event} {eventIndex : ℕ}
    {eventToCoinType : EventToCoinType} {addressToCoinType : OwnerAddressToCoinType}
    {row : FungibleAssetActivity}
    (h : getV1FromEvent sdk ctx event eventIndex eventToCoinType addressToCoinType =
      some (some row)) :
    event.typeStr ∈ coinEventTypes ∧ row.pk = (ctx.txnVersion, (eventIndex : ℤ)) := by
  have htype : event.typeStr ∈ coinEventTypes := by
    by_contra hnot
    unfold getV1FromEvent at h
    rw [CoinEvent.fromEvent_of_notMem hnot] at h
    cases h
  refine ⟨htype, ?_⟩
  unfold getV1FromEvent at h
  obtain ⟨coinEvent, -, h⟩ := Option.bind_eq_some_iff.mp h
  cases coinEvent with
  | none => cases h
  | some inner =>
    obtain ⟨⟨owner, amount, coinTypeOption⟩, -, h⟩ := Option.bind_eq_some_iff.mp h
    obtain ⟨coinType, -, h⟩ := Option.bind_eq_some_iff.mp h
    cases coinType with
    | none => cases h
    | some coinType =>
      obtain ⟨storageId, -, h⟩ := Option.bind_eq_some_iff.mp h
      obtain rfl := Option.some.inj (Option.some.inj h)
      rfl

/-- A row of the parser of fungible assets has the event's index. -/
theorem getV2FromEvent_eq_some {event : Stream.Event} {eventIndex : ℕ}
    {objects : FungibleObjectMapping}
    {deletedFaStoreEvents : Table String FungibleAssetStoreDeletionEvent}
    {row : FungibleAssetActivity}
    (h : getV2FromEvent sdk ctx event eventIndex objects deletedFaStoreEvents =
      some (some row)) :
    row.pk = (ctx.txnVersion, (eventIndex : ℤ)) := by
  unfold getV2FromEvent at h
  obtain ⟨faEvent, -, h⟩ := Option.bind_eq_some_iff.mp h
  cases faEvent with
  | none => cases h
  | some inner =>
    obtain ⟨⟨storageId, isFrozen, amount⟩, -, h⟩ := Option.bind_eq_some_iff.mp h
    obtain rfl := Option.some.inj (Option.some.inj h)
    rfl

/-- A coin event is none of a fungible asset. -/
theorem getV2FromEvent_of_coin {event : Stream.Event} {eventIndex : ℕ}
    {objects : FungibleObjectMapping}
    {deletedFaStoreEvents : Table String FungibleAssetStoreDeletionEvent}
    (h : event.typeStr ∈ coinEventTypes) :
    getV2FromEvent sdk ctx event eventIndex objects deletedFaStoreEvents = some none := by
  unfold getV2FromEvent
  rw [FungibleAssetEvent.fromEvent_of_coin h]
  rfl

/-- An event has at most one row, with its index. -/
theorem eventActivities_cases {collected : Collected} {event : Stream.Event × ℕ}
    {rows : List FungibleAssetActivity}
    (h : eventActivities sdk ctx collected event = some rows) :
    rows = [] ∨ ∃ row, rows = [row] ∧ row.pk = (ctx.txnVersion, (event.2 : ℤ)) := by
  unfold eventActivities at h
  obtain ⟨v1Activity, hv1, h⟩ := Option.bind_eq_some_iff.mp h
  obtain ⟨v2Activity, hv2, h⟩ := Option.bind_eq_some_iff.mp h
  obtain rfl := Option.some.inj h
  cases v1Activity with
  | none =>
    cases v2Activity with
    | none => exact Or.inl rfl
    | some row => exact Or.inr ⟨row, rfl, getV2FromEvent_eq_some hv2⟩
  | some row =>
    obtain ⟨hcoin, hpk⟩ := getV1FromEvent_eq_some hv1
    rw [getV2FromEvent_of_coin hcoin] at hv2
    obtain rfl := Option.some.inj hv2
    exact Or.inr ⟨row, rfl, hpk⟩

/-! ## One transaction -/

/-- The gas event has an index that is none of an event. -/
theorem gasActivities_cases {rows : List FungibleAssetActivity}
    (h : gasActivities sdk ctx = some rows) :
    rows = [] ∨ ∃ row, rows = [row] ∧ row.pk = (ctx.txnVersion, burnGasEventIndex) := by
  unfold gasActivities at h
  split at h
  next => exact Or.inl (Option.some.inj h).symm
  next request =>
    obtain ⟨feeStatement, -, h⟩ := Option.bind_eq_some_iff.mp h
    obtain ⟨gasEvent, hgas, h⟩ := Option.bind_eq_some_iff.mp h
    obtain rfl := Option.some.inj h
    unfold getGasEvent at hgas
    obtain ⟨payer, -, hgas⟩ := Option.bind_eq_some_iff.mp hgas
    obtain ⟨storageId, -, hgas⟩ := Option.bind_eq_some_iff.mp hgas
    obtain rfl := Option.some.inj hgas
    exact Or.inr ⟨_, rfl, rfl⟩

/-- The keys that events with these indices may have. -/
def eventKeys (version : Int64) (indices : List ℕ) : List (Int64 × ℤ) :=
  indices.map fun index : ℕ => (version, (index : ℤ))

/-- The keys of the rows of events are among those of their indices, in their order. -/
theorem eventActivities_keys {collected : Collected} :
    ∀ {events : List (Stream.Event × ℕ)} {rows : List (List FungibleAssetActivity)},
      events.mapM (eventActivities sdk ctx collected) = some rows →
      (rows.flatten.map FungibleAssetActivity.pk).Sublist
        (eventKeys ctx.txnVersion (events.map Prod.snd)) := by
  intro events
  induction events with
  | nil =>
    intro rows h
    obtain rfl := Option.some.inj h
    exact List.Sublist.refl _
  | cons event events ih =>
    intro rows h
    rw [List.mapM_cons] at h
    obtain ⟨first, hfirst, h⟩ := Option.bind_eq_some_iff.mp h
    obtain ⟨rest, hrest, h⟩ := Option.bind_eq_some_iff.mp h
    obtain rfl := Option.some.inj h
    rw [List.flatten_cons, List.map_append]
    rcases eventActivities_cases hfirst with rfl | ⟨row, rfl, hpk⟩
    · exact (ih hrest).cons _
    · rw [List.map_singleton, hpk]
      exact (ih hrest).cons_cons _

/-- The keys of a transaction's activities are distinct, and have its version. -/
theorem transactionActivities_keys {collected : Collected} {rows : List FungibleAssetActivity}
    (h : transactionActivities sdk ctx collected = some rows) :
    (rows.map FungibleAssetActivity.pk).Nodup ∧
      ∀ row ∈ rows, row.transactionVersion = ctx.txnVersion := by
  unfold transactionActivities at h
  obtain ⟨gas, hgas, h⟩ := Option.bind_eq_some_iff.mp h
  obtain ⟨eventRows, hrows, h⟩ := Option.bind_eq_some_iff.mp h
  obtain rfl := Option.some.inj h
  have hsub : ((gas ++ eventRows.flatten).map FungibleAssetActivity.pk).Sublist
      ((ctx.txnVersion, burnGasEventIndex) ::
        eventKeys ctx.txnVersion (ctx.events.zipIdx.map Prod.snd)) := by
    rw [List.map_append]
    rcases gasActivities_cases hgas with rfl | ⟨row, rfl, hpk⟩
    · exact (eventActivities_keys hrows).cons _
    · rw [List.map_singleton, hpk]
      exact (eventActivities_keys hrows).cons_cons _
  constructor
  · refine List.Nodup.sublist hsub (List.nodup_cons.mpr ⟨?_, ?_⟩)
    · intro hmem
      obtain ⟨index, -, heq⟩ := List.mem_map.mp hmem
      have hindex : (index : ℤ) = -1 := congrArg Prod.snd heq
      exact absurd hindex (by omega)
    · rw [List.zipIdx_map_snd]
      refine List.Nodup.map ?_ List.nodup_range'
      intro i j hij
      exact Int.ofNat_inj.mp (congrArg Prod.snd hij)
  · intro row hrow
    rcases List.mem_cons.mp (hsub.subset (List.mem_map_of_mem hrow)) with hpk | hpk
    · exact congrArg Prod.fst hpk
    · obtain ⟨index, -, heq⟩ := List.mem_map.mp hpk
      exact (congrArg Prod.fst heq).symm

/-- The context is of the transaction. -/
theorem txnContextOf_txnVersion {txn : Stream.Transaction}
    (h : txnContextOf sdk txn = some (some ctx)) : ctx.txnVersion = txn.txnVersion := by
  unfold txnContextOf at h
  split at h
  next => cases h
  next txnData =>
    obtain ⟨info, -, h⟩ := Option.bind_eq_some_iff.mp h
    obtain ⟨timestamp, -, h⟩ := Option.bind_eq_some_iff.mp h
    obtain ⟨txnTimestamp, -, h⟩ := Option.bind_eq_some_iff.mp h
    obtain ⟨⟨events, userRequest⟩, -, h⟩ := Option.bind_eq_some_iff.mp h
    obtain rfl := Option.some.inj (Option.some.inj h)
    rfl

/-- The activities of a parsed transaction are those of its context, if it has data. -/
theorem activities_of_parseTransaction {txn : Stream.Transaction} {rows : TransactionRows}
    (h : parseTransaction sdk txn = some rows) :
    (txnContextOf sdk txn = some none ∧ rows.activities = []) ∨
      ∃ ctx collected, txnContextOf sdk txn = some (some ctx) ∧
        collect sdk ctx = some collected ∧
        transactionActivities sdk ctx collected = some rows.activities := by
  unfold parseTransaction at h
  obtain ⟨balances, -, h⟩ := Option.bind_eq_some_iff.mp h
  obtain ⟨context, hcontext, h⟩ := Option.bind_eq_some_iff.mp h
  cases context with
  | none =>
    obtain rfl := Option.some.inj h
    exact Or.inl ⟨hcontext, rfl⟩
  | some ctx =>
    obtain ⟨collected, hcollect, h⟩ := Option.bind_eq_some_iff.mp h
    obtain ⟨activities, hactivities, h⟩ := Option.bind_eq_some_iff.mp h
    obtain ⟨metadata, -, h⟩ := Option.bind_eq_some_iff.mp h
    obtain ⟨mappings, -, h⟩ := Option.bind_eq_some_iff.mp h
    obtain ⟨coinSupply, -, h⟩ := Option.bind_eq_some_iff.mp h
    obtain rfl := Option.some.inj h
    exact Or.inr ⟨ctx, collected, hcontext, hcollect, hactivities⟩

/-! ## A batch -/

/-- The activities of a transaction, none if it panics. -/
def activitiesOf (sdk : AssetSdk) (txn : Stream.Transaction) : List FungibleAssetActivity :=
  ((parseTransaction sdk txn).map (·.activities)).getD []

theorem nodup_pk_activitiesOf (txn : Stream.Transaction) :
    ((activitiesOf sdk txn).map FungibleAssetActivity.pk).Nodup ∧
      ∀ row ∈ activitiesOf sdk txn, row.transactionVersion = txn.txnVersion := by
  unfold activitiesOf
  cases hparse : parseTransaction sdk txn with
  | none => exact ⟨List.nodup_nil, List.forall_mem_nil _⟩
  | some rows =>
    rw [Option.map_some, Option.getD_some]
    rcases activities_of_parseTransaction hparse with
      ⟨-, hnil⟩ | ⟨ctx, collected, hcontext, -, hactivities⟩
    · rw [hnil]
      exact ⟨List.nodup_nil, List.forall_mem_nil _⟩
    · rw [← txnContextOf_txnVersion hcontext]
      exact transactionActivities_keys hactivities

/-- The activities of a batch are those of its transactions, one after another. -/
theorem activities_of_parseV2Coin {getAssetTypeV1 : String → Option String}
    {transactions : List Stream.Transaction} {rows : CoinRows}
    (h : parseV2Coin sdk getAssetTypeV1 transactions = some rows) :
    rows.activities = transactions.flatMap (activitiesOf sdk) := by
  unfold parseV2Coin at h
  obtain ⟨parsed, hparsed, h⟩ := Option.bind_eq_some_iff.mp h
  obtain rfl := Option.some.inj h
  refine flatMap_of_mapM hparsed ?_
  intro txn out hout
  rw [activitiesOf, hout]
  rfl

/-- **The keys of the activities of a batch are distinct**, whatever events its transactions
have, if their versions are. -/
theorem activity_keys_nodup (sdk : AssetSdk) (getAssetTypeV1 : String → Option String)
    {transactions : List Stream.Transaction} (hversions : (transactions.map (·.version)).Nodup)
    {rows : CoinRows} (h : parseV2Coin sdk getAssetTypeV1 transactions = some rows) :
    (rows.activities.map FungibleAssetActivity.pk).Nodup := by
  rw [activities_of_parseV2Coin h, List.map_flatMap, List.nodup_flatMap]
  refine ⟨fun txn _ => (nodup_pk_activitiesOf txn).1, ?_⟩
  refine (List.pairwise_map.mp hversions).imp ?_
  intro a b hab
  rw [Function.onFun, List.disjoint_left]
  intro pk ha hb
  obtain ⟨row, hrow, rfl⟩ := List.mem_map.mp ha
  obtain ⟨row', hrow', hpk⟩ := List.mem_map.mp hb
  have hversion : row'.transactionVersion = row.transactionVersion := congrArg Prod.fst hpk
  refine hab (congrArg Int64.toUInt64 (?_ : a.txnVersion = b.txnVersion))
  rw [← (nodup_pk_activitiesOf a).2 row hrow, ← (nodup_pk_activitiesOf b).2 row' hrow', hversion]

/-- Events of the account: a coin event, one of its store, and the fee statement. -/
def eventTexts : List (String × Json) :=
  [("\x7b\"coin_type\":\"0x1::aptos_coin::AptosCoin\",\"account\":\"" ++ holder ++
      "\",\"amount\":\"10\"\x7d",
    .object [("coin_type", .string "0x1::aptos_coin::AptosCoin"), ("account", .string holder),
      ("amount", .string "10")]),
   ("\x7b\"store\":\"" ++ holderStore ++ "\",\"amount\":\"3\"\x7d",
    .object [("store", .string holderStore), ("amount", .string "3")]),
   ("\x7b\"storage_fee_refund_octas\":\"4\"\x7d",
    .object [("storage_fee_refund_octas", .string "4")]),
   ("\x7b\"amount\":\"4\"\x7d", .object [("amount", .string "4")])]

/-- The outside functions on these texts. -/
def eventSdk : AssetSdk where
  toCoinSdk := { pairedSdk with fromStr := fun text => eventTexts.lookup text }
  aggregatorMaxValue _ := none
  truncateStr text _ := text
  hashStr := id
  i32 _ := none

/-- An event of the store, with one of the texts. -/
def eventOf (typeStr : String) (text : ℕ) : Stream.Event where
  key := some ⟨holderStore, 2⟩
  typeStr
  data := ((eventTexts[text]?).map Prod.fst).getD ""

/-- A user transaction with a coin event, a later and an older event of a fungible asset
and a coin event of no known coin, and a block with one event. -/
def eventTxns : List Stream.Transaction :=
  [⟨5, 1, 1, some ⟨5, 0⟩, some ⟨100, true, []⟩,
    some (.user (some ⟨holder, 0, 0, 100, none, none, none, none, none, none, none⟩)
      [eventOf "0x1::coin::CoinWithdraw" 0, eventOf "0x1::fungible_asset::Deposit" 1,
        eventOf "0x1::transaction_fee::FeeStatement" 2, eventOf "0x1::coin::WithdrawEvent" 3,
        eventOf "0x1::fungible_asset::DepositEvent" 3])⟩,
   ⟨7, 2, 1, some ⟨7, 0⟩, some ⟨0, true, []⟩,
    some (.blockMetadata [eventOf "0x1::fungible_asset::DepositEvent" 3])⟩]

theorem activity_keys_nodup_events :
    ∃ rows, parseV2Coin eventSdk (fun _ => none) eventTxns = some rows ∧
      rows.activities.map FungibleAssetActivity.pk =
        [(5, -1), (5, 0), (5, 1), (5, 4), (7, 0)] ∧
      (rows.activities.map FungibleAssetActivity.pk).Nodup := by
  have hkeys : (parseV2Coin eventSdk (fun _ => none) eventTxns).map (fun rows =>
      rows.activities.map FungibleAssetActivity.pk) =
        some [(5, -1), (5, 0), (5, 1), (5, 4), (7, 0)] := by decide +kernel
  obtain ⟨rows, hrows, hpks⟩ := Option.map_eq_some_iff.mp hkeys
  exact ⟨rows, hrows, hpks,
    activity_keys_nodup eventSdk (fun _ => none) (by decide) hrows⟩

end IndexerProcessors.FungibleAsset

import IndexerProcessors.Lib.Fallible
import IndexerProcessors.Lib.LastWriter
import IndexerProcessors.Lib.Numeric
import IndexerProcessors.Protos

/-!
# Current table items

The default processor keeps, for every Move table and key, the value last
written: `process_transactions` fills a map in the order of the changes, so that
a batch stores one row a key, and `insert_current_table_items_query` keeps the
row of the higher version. The two rules together are "last write wins" for the
whole list of transactions (`current_table_items_last_write`), whatever the
batches are and in whatever order and however often they are stored.

Transactions of a kind the processor does not know (`txn_data` unset) are
skipped with a warning, and so are their writes: `unknownKind_write_skipped`.
-/

namespace IndexerProcessors.Default

open IndexerProcessors.Lib
open IndexerProcessors.Protos

/-- What the default processor calls outside the repository, beyond `Sdk`. -/
structure DefaultSdk extends Sdk where
  /-- `hash_str`. -/
  hashStr : String → String
  /-- `chrono::NaiveDateTime::from_timestamp_opt`. -/
  fromTimestampOpt : Int64 → UInt32 → Option NaiveDateTime

/-- The primary key, `table_handle` and `key_hash`. -/
abbrev CurrentTableItemPK := String × String

structure CurrentTableItem where
  tableHandle : String
  keyHash : String
  key : String
  decodedKey : String
  decodedValue : Option String
  lastTransactionVersion : Int64
  isDeleted : Bool
  blockTimestamp : NaiveDateTime

namespace CurrentTableItem

def pk (cti : CurrentTableItem) : CurrentTableItemPK := (cti.tableHandle, cti.keyHash)

/-- The current item of `TableItem::from_write_table_item`; `none` where it
unwraps missing data. -/
def fromWriteTableItem (sdk : DefaultSdk) (item : WriteTableItem) (txnVersion : Int64)
    (blockTimestamp : NaiveDateTime) : Option CurrentTableItem :=
  item.data.map fun data =>
    { tableHandle := sdk.standardizeAddress item.handle
      keyHash := sdk.hashStr item.key
      key := item.key
      decodedKey := data.key
      decodedValue := some data.value
      lastTransactionVersion := txnVersion
      isDeleted := false
      blockTimestamp }

/-- The current item of `TableItem::from_delete_table_item`. -/
def fromDeleteTableItem (sdk : DefaultSdk) (item : DeleteTableItem) (txnVersion : Int64)
    (blockTimestamp : NaiveDateTime) : Option CurrentTableItem :=
  item.data.map fun data =>
    { tableHandle := sdk.standardizeAddress item.handle
      keyHash := sdk.hashStr item.key
      key := item.key
      decodedKey := data.key
      decodedValue := none
      lastTransactionVersion := txnVersion
      isDeleted := true
      blockTimestamp }

end CurrentTableItem

/-- The table item of a change, if it is one; the outer `none` is a panic. -/
def changeItem (sdk : DefaultSdk) (txnVersion : Int64) (blockTimestamp : NaiveDateTime) :
    Protos.Change → Option (Option CurrentTableItem)
  | .writeTableItem item =>
    (CurrentTableItem.fromWriteTableItem sdk item txnVersion blockTimestamp).map some
  | .deleteTableItem item =>
    (CurrentTableItem.fromDeleteTableItem sdk item txnVersion blockTimestamp).map some
  | _ => some none

/-- The body of the loop of `process_transactions`: the items a transaction
inserts, in order. -/
def transactionItems (sdk : DefaultSdk) (txn : Protos.Transaction) :
    Option (List CurrentTableItem) := do
  let timestamp ← txn.timestamp
  let changes ← txn.info
  let blockTimestamp ← sdk.fromTimestampOpt timestamp.seconds timestamp.nanos.toUInt32
  match txn.txnData with
  | none => return []
  | some _ =>
    let items ← changes.mapM (changeItem sdk txn.txnVersion blockTimestamp)
    return items.reduceOption

/-- The `current_table_items` of `process_transactions`. The source sorts them
by key, which the statement does not depend on. -/
def processTransactions (sdk : DefaultSdk) (transactions : List Protos.Transaction) :
    Option (List CurrentTableItem) := do
  let items ← transactions.mapM (transactionItems sdk)
  let currentTableItems : Table CurrentTableItemPK CurrentTableItem :=
    Table.insertAll ∅ (items.flatten.map fun cti => (cti.pk, cti))
  return currentTableItems.rows.map Prod.snd

/-- A `current_table_items` row. -/
structure PostgresCurrentTableItem where
  tableHandle : String
  keyHash : String
  key : String
  decodedKey : Json
  decodedValue : Option Json
  lastTransactionVersion : Int64
  isDeleted : Bool

/-- The decoded value, parsed; `none` if it does not parse. -/
def decodedValueJson (sdk : DefaultSdk) : Option String → Option (Option Json)
  | none => some none
  | some v => (sdk.fromStr v).map some

theorem decodedValueJson_eq_some {sdk : DefaultSdk} {value : Option String} {j : Option Json}
    (h : decodedValueJson sdk value = some j) : j = value.bind sdk.fromStr := by
  unfold decodedValueJson at h
  cases value with
  | none => exact (Option.some.inj h).symm
  | some v =>
    obtain ⟨j', hj', rfl⟩ := Option.map_eq_some_iff.mp h
    exact hj'.symm

/-- `PostgresCurrentTableItem::from`; it unwraps the parsed texts. -/
def PostgresCurrentTableItem.fromItem (sdk : DefaultSdk) (baseItem : CurrentTableItem) :
    Option PostgresCurrentTableItem := do
  let decodedKey ← sdk.fromStr baseItem.decodedKey
  let decodedValue ← decodedValueJson sdk baseItem.decodedValue
  return {
    tableHandle := baseItem.tableHandle
    keyHash := baseItem.keyHash
    key := baseItem.key
    decodedKey
    decodedValue
    lastTransactionVersion := baseItem.lastTransactionVersion
    isDeleted := baseItem.isDeleted }

/-- `insert_current_table_items_query`, on a conflict. -/
def insertCurrentTableItemsQuery (old excluded : PostgresCurrentTableItem) :
    PostgresCurrentTableItem :=
  if old.lastTransactionVersion ≤ excluded.lastTransactionVersion then
    { old with
      key := excluded.key
      decodedKey := excluded.decodedKey
      decodedValue := excluded.decodedValue
      isDeleted := excluded.isDeleted
      lastTransactionVersion := excluded.lastTransactionVersion }
  else old

/-- The row upserts of a batch. -/
def batchWrites (sdk : DefaultSdk) (transactions : List Protos.Transaction) :
    Option (List (CurrentTableItemPK × Write PostgresCurrentTableItem)) := do
  let items ← processTransactions sdk transactions
  let rows ← items.mapM (PostgresCurrentTableItem.fromItem sdk)
  return rows.map fun row => ((row.tableHandle, row.keyHash), ⟨row, insertCurrentTableItemsQuery⟩)

/-! ## The last write of a key -/

/-- A write or, without a value, a deletion of a table item. -/
structure TableItemOp where
  version : Int64
  handle : String
  key : String
  value : Option String
  deriving DecidableEq

/-- What a change does to a table. -/
def changeOp (sdk : DefaultSdk) (version : Int64) : Protos.Change → Option TableItemOp
  | .writeTableItem item =>
    item.data.map fun data => ⟨version, sdk.standardizeAddress item.handle, item.key,
      some data.value⟩
  | .deleteTableItem item =>
    item.data.map fun _ => ⟨version, sdk.standardizeAddress item.handle, item.key, none⟩
  | _ => none

/-- The operations on tables of a transaction, in the order of its changes. -/
def tableItemOps (sdk : DefaultSdk) (txn : Protos.Transaction) : List TableItemOp :=
  (txn.info.getD []).filterMap (changeOp sdk txn.txnVersion)

/-- The last operation on a key of a table. -/
def lastOp (sdk : DefaultSdk) (txns : List Protos.Transaction) (handle key : String) :
    Option TableItemOp :=
  ((txns.flatMap (tableItemOps sdk)).filter fun op => op.handle = handle ∧ op.key = key).getLast?

/-- The row shows an operation: its value, that it is a deletion or not, and its
version. No operation, no row. -/
def ShowsOp (sdk : DefaultSdk) (row : Option PostgresCurrentTableItem) :
    Option TableItemOp → Prop
  | none => row = none
  | some op => ∃ r, row = some r ∧ r.decodedValue = op.value.bind sdk.fromStr ∧
      r.isDeleted = op.value.isNone ∧ r.lastTransactionVersion = op.version

/-! ## What the items of a transaction are -/

/-- The columns an operation determines. -/
abbrev ItemObs := Option Json × Bool × Int64

def ItemObs.version (o : ItemObs) : Int64 := o.2.2

def TableItemOp.obs (sdk : DefaultSdk) (op : TableItemOp) : ItemObs :=
  (op.value.bind sdk.fromStr, op.value.isNone, op.version)

def PostgresCurrentTableItem.obs (row : PostgresCurrentTableItem) : ItemObs :=
  (row.decodedValue, row.isDeleted, row.lastTransactionVersion)

/-- The operation an item records. -/
def CurrentTableItem.op (cti : CurrentTableItem) : TableItemOp :=
  ⟨cti.lastTransactionVersion, cti.tableHandle, cti.key, cti.decodedValue⟩

/-- An item of a batch: the operation it records and the hash of its key. -/
structure CurrentTableItem.WellFormed (sdk : DefaultSdk) (cti : CurrentTableItem) : Prop where
  keyHash : cti.keyHash = sdk.hashStr cti.key
  isDeleted : cti.isDeleted = cti.decodedValue.isNone

theorem changeItem_join {sdk : DefaultSdk} {version : Int64} {ts : NaiveDateTime}
    (change : Protos.Change) :
    (changeItem sdk version ts change).join.map CurrentTableItem.op =
      changeOp sdk version change := by
  unfold changeItem changeOp CurrentTableItem.fromWriteTableItem
    CurrentTableItem.fromDeleteTableItem
  cases change with
  | writeTableItem item =>
    obtain ⟨handle, key, data⟩ := item
    cases data with
    | none => rfl
    | some data => rfl
  | deleteTableItem item =>
    obtain ⟨handle, key, data⟩ := item
    cases data with
    | none => rfl
    | some data => rfl
  | writeResource => rfl
  | deleteResource => rfl
  | other => rfl

theorem wellFormed_of_changeItem {sdk : DefaultSdk} {version : Int64} {ts : NaiveDateTime}
    {change : Protos.Change} {cti : CurrentTableItem}
    (h : (changeItem sdk version ts change).join = some cti) : cti.WellFormed sdk := by
  unfold changeItem CurrentTableItem.fromWriteTableItem CurrentTableItem.fromDeleteTableItem at h
  cases change with
  | writeTableItem item =>
    obtain ⟨handle, key, data⟩ := item
    cases data with
    | none => cases h
    | some data =>
      obtain rfl := Option.some.inj h
      exact ⟨rfl, rfl⟩
  | deleteTableItem item =>
    obtain ⟨handle, key, data⟩ := item
    cases data with
    | none => cases h
    | some data =>
      obtain rfl := Option.some.inj h
      exact ⟨rfl, rfl⟩
  | writeResource => cases h
  | deleteResource => cases h
  | other => cases h

/-- The items of a transaction record its operations, if its kind is known. -/
theorem transactionItems_ops {sdk : DefaultSdk} {txn : Protos.Transaction}
    {items : List CurrentTableItem} (h : transactionItems sdk txn = some items) :
    items.map CurrentTableItem.op = (if txn.txnData.isSome then tableItemOps sdk txn else []) ∧
      ∀ cti ∈ items, cti.WellFormed sdk := by
  unfold transactionItems at h
  obtain ⟨timestamp, -, h⟩ := Option.bind_eq_some_iff.mp h
  obtain ⟨changes, hchanges, h⟩ := Option.bind_eq_some_iff.mp h
  obtain ⟨ts, -, h⟩ := Option.bind_eq_some_iff.mp h
  cases hdata : txn.txnData with
  | none =>
    rw [hdata] at h
    obtain rfl := Option.some.inj h
    exact ⟨rfl, fun _ hmem => nomatch hmem⟩
  | some data =>
    rw [hdata] at h
    obtain ⟨r, hr, h⟩ := Option.bind_eq_some_iff.mp h
    obtain rfl := Option.some.inj h
    have hred := reduceOption_of_mapM hr
    constructor
    · unfold tableItemOps
      rw [hred, List.map_filterMap, hchanges]
      exact List.filterMap_congr fun change _ => changeItem_join change
    · intro cti hcti
      rw [hred] at hcti
      obtain ⟨change, -, hjoin⟩ := List.mem_filterMap.mp hcti
      exact wellFormed_of_changeItem hjoin

theorem version_of_mem_tableItemOps {sdk : DefaultSdk} {txn : Protos.Transaction}
    {op : TableItemOp} (h : op ∈ tableItemOps sdk txn) : op.version = txn.txnVersion := by
  obtain ⟨change, -, hop⟩ := List.mem_filterMap.mp h
  unfold changeOp at hop
  cases change with
  | writeTableItem item =>
    obtain ⟨data, -, rfl⟩ := Option.map_eq_some_iff.mp hop
    rfl
  | deleteTableItem item =>
    obtain ⟨data, -, rfl⟩ := Option.map_eq_some_iff.mp hop
    rfl
  | writeResource => cases hop
  | deleteResource => cases hop
  | other => cases hop

/-! ## What a batch stores -/

/-- A converted row keeps the item's key and shows its operation. -/
theorem fromItem_obs {sdk : DefaultSdk} {cti : CurrentTableItem} {row : PostgresCurrentTableItem}
    (hwf : cti.WellFormed sdk) (h : PostgresCurrentTableItem.fromItem sdk cti = some row) :
    (row.tableHandle, row.keyHash) = cti.pk ∧ row.obs = cti.op.obs sdk := by
  unfold PostgresCurrentTableItem.fromItem at h
  obtain ⟨decodedKey, -, h⟩ := Option.bind_eq_some_iff.mp h
  obtain ⟨decodedValue, hvalue, h⟩ := Option.bind_eq_some_iff.mp h
  obtain rfl := Option.some.inj h
  refine ⟨rfl, ?_⟩
  unfold PostgresCurrentTableItem.obs TableItemOp.obs CurrentTableItem.op
  rw [decodedValueJson_eq_some hvalue, hwf.isDeleted]

theorem shows_insertCurrentTableItems (row : PostgresCurrentTableItem) :
    Table.Shows ItemObs.version (Option.map PostgresCurrentTableItem.obs)
      ⟨row, insertCurrentTableItemsQuery⟩ (some row.obs) := by
  intro old
  cases old with
  | none => rfl
  | some old =>
    show some (insertCurrentTableItemsQuery old row).obs =
      some (later ItemObs.version old.obs row.obs)
    unfold insertCurrentTableItemsQuery later ItemObs.version PostgresCurrentTableItem.obs
    split
    · rfl
    · rfl

/-- The operations of a transaction on a key, of a transaction of a known kind. -/
def opsAt (sdk : DefaultSdk) (handle key : String) (txn : Protos.Transaction) : List ItemObs :=
  if txn.txnData.isSome then
    ((tableItemOps sdk txn).filter fun op => op.handle = handle ∧ op.key = key).map
      (TableItemOp.obs sdk)
  else []

/-- The entries of a batch's map under a key are the operations on it. -/
theorem proj_items {sdk : DefaultSdk} (hinj : Function.Injective sdk.hashStr)
    (handle key : String) {txn : Protos.Transaction} {items : List CurrentTableItem}
    (h : transactionItems sdk txn = some items) :
    (proj (handle, sdk.hashStr key) (items.map fun cti => (cti.pk, cti))).map
        (fun cti => cti.op.obs sdk) = opsAt sdk handle key txn := by
  obtain ⟨hops, hwf⟩ := transactionItems_ops h
  have hfilter : (items.filter fun cti => cti.pk = (handle, sdk.hashStr key)) =
      items.filter fun cti => cti.op.handle = handle ∧ cti.op.key = key := by
    refine List.filter_congr fun cti hcti => ?_
    have hpk : cti.pk = (handle, sdk.hashStr key) ↔ cti.op.handle = handle ∧ cti.op.key = key := by
      unfold CurrentTableItem.pk CurrentTableItem.op
      rw [Prod.mk.injEq, (hwf cti hcti).keyHash, hinj.eq_iff]
    simp only [hpk]
  rw [proj_map _ CurrentTableItem.pk fun cti => cti, List.map_id', hfilter]
  unfold opsAt
  split
  next hsome =>
    rw [if_pos hsome] at hops
    rw [← hops, List.filter_map, List.map_map]
    rfl
  next hnone =>
    rw [if_neg hnone, List.map_eq_nil_iff] at hops
    rw [hops]
    rfl

/-- The items of all transactions of a batch. -/
def batchItems (sdk : DefaultSdk) (transactions : List Protos.Transaction) :
    List CurrentTableItem :=
  transactions.flatMap fun txn => (transactionItems sdk txn).getD []

/-- A batch stores the last item of each key. -/
theorem mem_processTransactions {sdk : DefaultSdk} {transactions : List Protos.Transaction}
    {items : List CurrentTableItem} (h : processTransactions sdk transactions = some items)
    {cti : CurrentTableItem} :
    cti ∈ items ↔
      (proj cti.pk ((batchItems sdk transactions).map fun cti => (cti.pk, cti))).getLast? =
        some cti := by
  unfold processTransactions at h
  obtain ⟨perTxn, hperTxn, h⟩ := Option.bind_eq_some_iff.mp h
  obtain rfl := Option.some.inj h
  rw [flatten_of_mapM hperTxn]
  have hlookup : ∀ k, (Table.insertAll ∅ ((batchItems sdk transactions).map fun cti =>
      (cti.pk, cti))).lookup k =
      (proj k ((batchItems sdk transactions).map fun cti => (cti.pk, cti))).getLast? := by
    intro k
    rw [Table.lookup_insertAll, AList.lookup_empty, Option.or_none]
  rw [← hlookup]
  constructor
  · intro hcti
    obtain ⟨⟨k, cti'⟩, hrow, rfl⟩ := List.mem_map.mp hcti
    have hk := Table.mem_rows.mp hrow
    -- Items are filed under their own key.
    have hpk : k = cti'.pk := by
      have hmem := mem_proj.mp (List.mem_of_getLast? ((hlookup k).symm.trans hk))
      obtain ⟨_, -, heq⟩ := List.mem_map.mp hmem
      obtain ⟨rfl, rfl⟩ := Prod.mk.inj heq
      rfl
    exact hpk ▸ hk
  · intro hk
    exact List.mem_map.mpr ⟨(cti.pk, cti), Table.mem_rows.mpr hk, rfl⟩

/-- The operations of a batch on a key are those of the map's entries. -/
theorem proj_batchItems {sdk : DefaultSdk} (hinj : Function.Injective sdk.hashStr)
    (handle key : String) {transactions : List Protos.Transaction}
    (h : ∀ txn ∈ transactions, (transactionItems sdk txn).isSome) :
    (proj (handle, sdk.hashStr key)
        ((batchItems sdk transactions).map fun cti => (cti.pk, cti))).map
        (fun cti => cti.op.obs sdk) = transactions.flatMap (opsAt sdk handle key) := by
  induction transactions with
  | nil => rfl
  | cons txn transactions ih =>
    obtain ⟨items, hitems⟩ := Option.isSome_iff_exists.mp (h txn (List.mem_cons_self ..))
    have hrest := ih fun t ht => h t (List.mem_cons_of_mem _ ht)
    unfold batchItems at hrest ⊢
    rw [List.flatMap_cons, List.flatMap_cons, List.map_append, proj_append, List.map_append,
      hrest, hitems, Option.getD_some, proj_items hinj handle key hitems]

theorem transactionItems_isSome {sdk : DefaultSdk} {transactions : List Protos.Transaction}
    {items : List CurrentTableItem} (h : processTransactions sdk transactions = some items) :
    ∀ txn ∈ transactions, (transactionItems sdk txn).isSome := by
  unfold processTransactions at h
  obtain ⟨perTxn, hperTxn, -⟩ := Option.bind_eq_some_iff.mp h
  intro txn htxn
  obtain ⟨l, -, hl⟩ := exists_of_mapM hperTxn htxn
  rw [hl]
  rfl

theorem wellFormed_of_mem_batchItems {sdk : DefaultSdk} {transactions : List Protos.Transaction}
    {cti : CurrentTableItem} (h : cti ∈ batchItems sdk transactions) : cti.WellFormed sdk := by
  obtain ⟨txn, -, hcti⟩ := List.mem_flatMap.mp h
  cases hitems : transactionItems sdk txn with
  | none => rw [hitems] at hcti; cases hcti
  | some items =>
    rw [hitems] at hcti
    exact (transactionItems_ops hitems).2 cti hcti

/-- A batch's upsert of a key shows its last operation on the key. -/
theorem batchWrites_last {sdk : DefaultSdk} (hinj : Function.Injective sdk.hashStr)
    (handle key : String) {transactions : List Protos.Transaction}
    {writes : List (CurrentTableItemPK × Write PostgresCurrentTableItem)}
    (h : batchWrites sdk transactions = some writes) (o : ItemObs) :
    (∃ w, ((handle, sdk.hashStr key), w) ∈ writes ∧ some w.excluded.obs = some o) ↔
      (transactions.flatMap (opsAt sdk handle key)).getLast? = some o := by
  unfold batchWrites at h
  obtain ⟨items, hitems, h⟩ := Option.bind_eq_some_iff.mp h
  obtain ⟨rows, hrows, h⟩ := Option.bind_eq_some_iff.mp h
  obtain rfl := Option.some.inj h
  -- The map of a batch keeps the last item of each key.
  have hmem : ∀ {k : CurrentTableItemPK} {cti : CurrentTableItem},
      (proj k ((batchItems sdk transactions).map fun cti => (cti.pk, cti))).getLast? = some cti →
        cti.pk = k ∧ cti.WellFormed sdk := by
    intro k cti hlast
    obtain ⟨cti', hcti', heq⟩ := List.mem_map.mp (mem_proj.mp (List.mem_of_getLast? hlast))
    obtain ⟨rfl, rfl⟩ := Prod.mk.inj heq
    exact ⟨rfl, wellFormed_of_mem_batchItems hcti'⟩
  rw [← proj_batchItems hinj handle key (transactionItems_isSome hitems), List.getLast?_map,
    Option.map_eq_some_iff]
  constructor
  · intro h
    obtain ⟨w, hw, hobs⟩ := h
    obtain ⟨row, hrow, heq⟩ := List.mem_map.mp hw
    obtain ⟨hk, rfl⟩ := Prod.mk.inj heq
    obtain ⟨cti, hcti, hfrom⟩ := (mem_of_mapM hrows).mp hrow
    have hlast := (mem_processTransactions hitems).mp hcti
    obtain ⟨hpk, hrowObs⟩ := fromItem_obs (hmem hlast).2 hfrom
    rw [← hpk, hk] at hlast
    exact ⟨cti, hlast, hrowObs ▸ Option.some.inj hobs⟩
  · intro h
    obtain ⟨cti, hlast, rfl⟩ := h
    obtain ⟨hpk, hwf⟩ := hmem hlast
    have hcti := (mem_processTransactions hitems).mpr (hpk.symm ▸ hlast)
    obtain ⟨row, hrow, hfrom⟩ := exists_of_mapM hrows hcti
    obtain ⟨hrowPk, hrowObs⟩ := fromItem_obs hwf hfrom
    refine ⟨⟨row, insertCurrentTableItemsQuery⟩, ?_, by rw [hrowObs]⟩
    exact List.mem_map.mpr ⟨row, hrow, by rw [hrowPk, hpk]⟩

/-! ## The whole list -/

theorem flatMap_opsAt (sdk : DefaultSdk) (handle key : String) (txns : List Protos.Transaction) :
    (txns.flatMap (opsAt sdk handle key)).getLast? =
      (lastOp sdk (txns.filter fun txn => txn.txnData.isSome) handle key).map
        (TableItemOp.obs sdk) := by
  unfold lastOp
  rw [← List.getLast?_map]
  congr 1
  induction txns with
  | nil => rfl
  | cons txn txns ih =>
    rw [List.flatMap_cons, ih, List.filter_cons]
    unfold opsAt
    split
    · rw [List.flatMap_cons, List.filter_append, List.map_append]
    · rfl

theorem version_of_mem_opsAt {sdk : DefaultSdk} {handle key : String} {txn : Protos.Transaction}
    {o : ItemObs} (h : o ∈ opsAt sdk handle key txn) : o.version = txn.txnVersion := by
  unfold opsAt at h
  split at h
  · obtain ⟨op, hop, rfl⟩ := List.mem_map.mp h
    exact version_of_mem_tableItemOps (List.mem_of_mem_filter hop)
  · cases h

/-- **`current_table_items` is the last write of each key**, of the transactions
of a known kind. The batches are any parts that cover the list, each in its
order, and `order` is any interleaving of their row upserts. -/
theorem current_table_items_last_write (sdk : DefaultSdk)
    (hinj : Function.Injective sdk.hashStr) (txns : List Protos.Transaction)
    (hord : InOrder txns) (batches : List (List Protos.Transaction))
    (hbatches : Batches txns batches)
    (writes : List Protos.Transaction →
      List (CurrentTableItemPK × Write PostgresCurrentTableItem))
    (hwrites : ∀ b ∈ batches, batchWrites sdk b = some (writes b))
    (order : List (CurrentTableItemPK × Write PostgresCurrentTableItem))
    (hperm : order.Perm (batches.flatMap writes)) (handle key : String) :
    ShowsOp sdk ((Table.writeAll ∅ order).lookup (handle, sdk.hashStr key))
      (lastOp sdk (txns.filter fun txn => txn.txnData.isSome) handle key) := by
  -- Each statement shows its own row if the row is newer; so the order does not matter.
  have hshows : ∀ b ∈ batches, ∀ w, ((handle, sdk.hashStr key), w) ∈ writes b →
      Table.Shows ItemObs.version (Option.map PostgresCurrentTableItem.obs) w
        (some w.excluded.obs) := by
    intro b hb w hw
    obtain ⟨items, -, h⟩ := Option.bind_eq_some_iff.mp (hwrites b hb)
    obtain ⟨rows, -, h⟩ := Option.bind_eq_some_iff.mp h
    rw [← Option.some.inj h] at hw
    obtain ⟨row, -, heq⟩ := List.mem_map.mp hw
    obtain ⟨-, rfl⟩ := Prod.mk.inj heq
    exact shows_insertCurrentTableItems row
  have hobs : ((Table.writeAll ∅ order).lookup (handle, sdk.hashStr key)).map
      PostgresCurrentTableItem.obs = (txns.flatMap (opsAt sdk handle key)).getLast? :=
    observe_batches hord (fun txn _ o ho => version_of_mem_opsAt ho) hbatches.sublist
      hbatches.cover rfl hshows
      (fun b hb o => batchWrites_last hinj handle key (hwrites b hb) o) hperm
  rw [flatMap_opsAt] at hobs
  unfold ShowsOp
  split
  next hnone =>
    rw [hnone] at hobs
    exact Option.map_eq_none_iff.mp hobs
  next op hop =>
    rw [hop] at hobs
    obtain ⟨row, hrow, hrowObs⟩ := Option.map_eq_some_iff.mp hobs
    obtain ⟨hvalue, hrest⟩ := Prod.mk.inj hrowObs
    obtain ⟨hdeleted, hversion⟩ := Prod.mk.inj hrest
    exact ⟨row, hrow, hvalue, hdeleted, hversion⟩

/-- Addresses and hashes as they are given, and two texts that parse. -/
def plainSdk : DefaultSdk where
  standardizeAddress := id
  fromStr text := [("\"k\"", Json.string "k"), ("\"v\"", Json.string "v")].lookup text
  bigDecimal _ := none
  parseTimestamp ts _ := ts.seconds.toInt * 1000000
  hashStr := id
  fromTimestampOpt seconds _ := some (seconds.toInt * 1000000)

/-- A transaction with one change. -/
def changeTxn (version : UInt64) (txnData : Option Protos.TxnData) (change : Protos.Change) :
    Protos.Transaction :=
  ⟨version, some ⟨0, 0⟩, some [change], txnData⟩

/-- A write of key `k` in table `0x1`. -/
def writeChange : Protos.Change :=
  .writeTableItem ⟨"0x1", "k", some ⟨"\"k\"", "String", "\"v\"", "String"⟩⟩

/-- The same key deleted. -/
def deleteChange : Protos.Change := .deleteTableItem ⟨"0x1", "k", some ⟨"\"k\"", "String"⟩⟩

/-- A write and, two versions later, its deletion: the later batch is stored
first, then the earlier one, then both again. -/
def storedAgain : List (List Protos.Transaction) :=
  let w := changeTxn 1 (some (.user none [])) writeChange
  let d := changeTxn 3 (some (.user none [])) deleteChange
  [[d], [w], [w, d]]

/-- The row ends as deleted. -/
theorem current_table_items_last_write_deletion :
    ShowsOp plainSdk
      ((Table.writeAll ∅ (storedAgain.flatMap fun b => (batchWrites plainSdk b).getD [])).lookup
        ("0x1", "k")) (some ⟨3, "0x1", "k", none⟩) := by
  let txns := [changeTxn 1 (some (.user none [])) writeChange,
    changeTxn 3 (some (.user none [])) deleteChange]
  have hbatches : Batches txns storedAgain := ⟨by decide +kernel, by decide +kernel⟩
  have hsome : ∀ b ∈ storedAgain, (batchWrites plainSdk b).isSome := by decide +kernel
  have hlast : lastOp plainSdk (txns.filter fun txn => txn.txnData.isSome) "0x1" "k" =
      some ⟨3, "0x1", "k", none⟩ := by decide +kernel
  refine hlast ▸ current_table_items_last_write plainSdk Function.injective_id txns (by decide)
    storedAgain hbatches (fun b => (batchWrites plainSdk b).getD []) ?_ _ (List.Perm.refl _)
    "0x1" "k"
  intro b hb
  obtain ⟨ws, hws⟩ := Option.isSome_iff_exists.mp (hsome b hb)
  rw [hws]
  rfl

/-- A write of a transaction of unknown kind leaves no row. -/
theorem unknownKind_write_skipped :
    let txns := [changeTxn 1 none writeChange]
    lastOp plainSdk txns "0x1" "k" = some ⟨1, "0x1", "k", some "\"v\""⟩ ∧
      (batchWrites plainSdk txns).map List.length = some 0 ∧
      ∀ order, batchWrites plainSdk txns = some order →
        ¬ ShowsOp plainSdk ((Table.writeAll ∅ order).lookup ("0x1", "k"))
          (lastOp plainSdk txns "0x1" "k") := by
  intro txns
  have hlast : lastOp plainSdk txns "0x1" "k" = some ⟨1, "0x1", "k", some "\"v\""⟩ := by
    decide +kernel
  have hlen : (batchWrites plainSdk txns).map List.length = some 0 := by decide +kernel
  refine ⟨hlast, hlen, fun order horder h => ?_⟩
  rw [horder] at hlen
  obtain rfl := List.length_eq_zero_iff.mp (Option.some.inj hlen)
  rw [hlast] at h
  obtain ⟨row, hrow, -⟩ := h
  cases hrow

end IndexerProcessors.Default

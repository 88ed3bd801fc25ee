import IndexerProcessors.Default.TableItems
import IndexerProcessors.WriteSet

/-!
# Write set changes and move modules of the two paths

The default processor reads a write set twice. The Postgres path,
`process_transactions`, walks `info.changes` of every transaction. The parquet
path, `process_transactions_parquet`, asks `Transaction::from_transaction`, which
matches on the kind of the transaction and for state checkpoints and block
epilogues returns no changes at all, although the `num_write_set_changes` of the
row it returns beside them counts `info.changes`.

So the two agree exactly on the lists whose state checkpoints and block epilogues
have empty write sets (`parquet_write_set_complete_iff`).
-/

namespace IndexerProcessors.Default

open IndexerProcessors.Lib
open IndexerProcessors.WriteSet

/-- What the two paths call outside the repository, beyond `DefaultSdk`. -/
structure ParquetSdk extends DefaultSdk where
  /-- `standardize_address_from_bytes`. -/
  standardizeAddressFromBytes : Bytes → String
  /-- `canonical_json::to_string` of an array. -/
  canonicalJson : List Json → String
  /-- `serde_json::to_value` of a list of type arguments. -/
  typeParamsJson : List Protos.MoveType → Option Json
  /-- `get_clean_payload`, serialized. -/
  cleanPayload : String → Int64 → Option String
  /-- `get_payload_type`. -/
  payloadType : String → String
  /-- `get_clean_writeset`, serialized. -/
  cleanWriteset : String → Int64 → Option String

/-- `standardize_address(hex::encode(bytes))`. -/
def ParquetSdk.standardizeBytes (sdk : ParquetSdk) (bytes : Bytes) : String :=
  sdk.standardizeAddress (hexEncode bytes)

/-! ## Move modules -/

structure MoveModule where
  txnVersion : Int64
  writeSetChangeIndex : Nat
  blockHeight : Int64
  name : String
  address : String
  bytecode : Bytes
  exposedFunctions : Option String
  friends : Option String
  structs : Option String
  isDeleted : Bool
  blockTimestamp : NaiveDateTime
  deriving DecidableEq

structure MoveModuleByteCodeParsed where
  address : String
  name : String
  bytecode : Bytes
  exposedFunctions : String
  friends : String
  structs : String

namespace MoveModule

/-- `MoveModule::convert_move_module`. -/
def convertMoveModule (sdk : ParquetSdk) (moveModule : MoveModulePB) (bytecode : Bytes) :
    MoveModuleByteCodeParsed where
  address := sdk.standardizeAddress moveModule.address
  name := moveModule.name
  bytecode := bytecode
  exposedFunctions := sdk.canonicalJson moveModule.exposedFunctions
  friends := sdk.canonicalJson moveModule.friends
  structs := sdk.canonicalJson moveModule.structs

/-- `MoveModule::convert_move_module_bytecode`. -/
def convertMoveModuleBytecode (sdk : ParquetSdk) (mmb : MoveModuleBytecode) :
    Option MoveModuleByteCodeParsed :=
  mmb.abi.map fun abi => convertMoveModule sdk abi mmb.bytecode

/-- `MoveModule::from_write_module`; `none` where it unwraps missing data. -/
def fromWriteModule (sdk : ParquetSdk) (writeModule : WriteModule) (writeSetChangeIndex : Nat)
    (txnVersion blockHeight : Int64) (blockTimestamp : NaiveDateTime) : Option MoveModule :=
  writeModule.data.map fun data =>
    let parsedData := convertMoveModuleBytecode sdk data
    { txnVersion
      writeSetChangeIndex
      blockHeight
      name := (parsedData.map (·.name)).getD ""
      address := sdk.standardizeAddress writeModule.address
      bytecode := data.bytecode
      exposedFunctions := parsedData.map (·.exposedFunctions)
      friends := parsedData.map (·.friends)
      structs := parsedData.map (·.structs)
      isDeleted := false
      blockTimestamp }

/-- `MoveModule::from_delete_module`. -/
def fromDeleteModule (sdk : ParquetSdk) (deleteModule : DeleteModule) (writeSetChangeIndex : Nat)
    (txnVersion blockHeight : Int64) (blockTimestamp : NaiveDateTime) : MoveModule where
  txnVersion := txnVersion
  writeSetChangeIndex := writeSetChangeIndex
  blockHeight := blockHeight
  name := (deleteModule.module.map (·.name)).getD ""
  address := sdk.standardizeAddress deleteModule.address
  bytecode := []
  exposedFunctions := none
  friends := none
  structs := none
  isDeleted := true
  blockTimestamp := blockTimestamp

end MoveModule

/-! ## Move resources and table items -/

structure MoveResource where
  txnVersion : Int64
  writeSetChangeIndex : Nat
  blockHeight : Int64
  fun_ : String
  resourceType : String
  resourceAddress : String
  module : String
  genericTypeParams : Option Json
  data : Option Json
  isDeleted : Bool
  stateKeyHash : String
  blockTimestamp : NaiveDateTime

namespace MoveResource

/-- `MoveResource::from_write_resource`. -/
def fromWriteResource (sdk : ParquetSdk) (stateKeyHash : Bytes) (writeResource : WriteResource)
    (genericTypeParams : List Protos.MoveType) (writeSetChangeIndex : Nat)
    (txnVersion blockHeight : Int64) (blockTimestamp : NaiveDateTime) : MoveResource where
  txnVersion := txnVersion
  writeSetChangeIndex := writeSetChangeIndex
  blockHeight := blockHeight
  fun_ := writeResource.typ.name
  resourceType := writeResource.typeStr
  resourceAddress := sdk.standardizeAddress writeResource.address
  module := writeResource.typ.module
  genericTypeParams := sdk.typeParamsJson genericTypeParams
  data := sdk.fromStr writeResource.data
  isDeleted := false
  stateKeyHash := sdk.standardizeBytes stateKeyHash
  blockTimestamp := blockTimestamp

/-- `MoveResource::from_delete_resource`. -/
def fromDeleteResource (sdk : ParquetSdk) (stateKeyHash : Bytes)
    (deleteResource : Protos.DeleteResource) (genericTypeParams : List Protos.MoveType)
    (writeSetChangeIndex : Nat) (txnVersion blockHeight : Int64)
    (blockTimestamp : NaiveDateTime) : MoveResource where
  txnVersion := txnVersion
  writeSetChangeIndex := writeSetChangeIndex
  blockHeight := blockHeight
  fun_ := deleteResource.typ.name
  resourceType := deleteResource.typeStr
  resourceAddress := sdk.standardizeAddress deleteResource.address
  module := deleteResource.typ.module
  genericTypeParams := sdk.typeParamsJson genericTypeParams
  data := none
  isDeleted := true
  stateKeyHash := sdk.standardizeBytes stateKeyHash
  blockTimestamp := blockTimestamp

end MoveResource

/-! ## Write set changes -/

/-- A `write_set_changes` row. A write set has fewer than `2^63` changes, so that
an index cast to `i64` is the index. -/
structure WriteSetChangeModel where
  txnVersion : Int64
  writeSetChangeIndex : Nat
  stateKeyHash : String
  changeType : String
  resourceAddress : String
  blockHeight : Int64
  blockTimestamp : NaiveDateTime
  deriving DecidableEq

/-- `WriteSetChangeDetail`. Of the table details, which neither path takes from
here, the current item is kept. -/
inductive WriteSetChangeDetail where
  | module (m : MoveModule)
  | resource (r : MoveResource)
  | table (cti : CurrentTableItem)

/-- `WriteSetChange::get_write_set_change_type`, which panics on a number that is
no type and on the unspecified type. -/
def getWriteSetChangeType (t : WriteSetChange) : Option String :=
  match t.type with
  | some .deleteModule => some "delete_module"
  | some .deleteResource => some "delete_resource"
  | some .deleteTableItem => some "delete_table_item"
  | some .writeModule => some "write_module"
  | some .writeResource => some "write_resource"
  | some .writeTableItem => some "write_table_item"
  | some .unspecified => none
  | none => none

/-- `WriteSetChange::from_write_set_change`; a panic is `none`. -/
def fromWriteSetChange (sdk : ParquetSdk) (writeSetChange : WriteSetChange)
    (writeSetChangeIndex : Nat) (txnVersion blockHeight : Int64)
    (blockTimestamp : NaiveDateTime) : Option (WriteSetChangeModel × WriteSetChangeDetail) := do
  let changeType ← getWriteSetChangeType writeSetChange
  let change ← writeSetChange.change
  let row (stateKeyHash resourceAddress : String) : WriteSetChangeModel :=
    { txnVersion, writeSetChangeIndex, stateKeyHash, changeType, resourceAddress, blockHeight,
      blockTimestamp }
  match change with
  | .writeModule inner =>
    let m ← MoveModule.fromWriteModule sdk inner writeSetChangeIndex txnVersion blockHeight
      blockTimestamp
    return (row (sdk.standardizeBytes inner.stateKeyHash) (sdk.standardizeAddress inner.address),
      .module m)
  | .deleteModule inner =>
    return (row (sdk.standardizeBytes inner.stateKeyHash) (sdk.standardizeAddress inner.address),
      .module (MoveModule.fromDeleteModule sdk inner writeSetChangeIndex txnVersion blockHeight
        blockTimestamp))
  | .writeResource stateKeyHash inner params =>
    return (row (sdk.standardizeAddressFromBytes stateKeyHash)
        (sdk.standardizeAddress inner.address),
      .resource (MoveResource.fromWriteResource sdk stateKeyHash inner params writeSetChangeIndex
        txnVersion blockHeight blockTimestamp))
  | .deleteResource stateKeyHash inner params =>
    return (row (sdk.standardizeAddressFromBytes stateKeyHash)
        (sdk.standardizeAddress inner.address),
      .resource (MoveResource.fromDeleteResource sdk stateKeyHash inner params writeSetChangeIndex
        txnVersion blockHeight blockTimestamp))
  | .writeTableItem stateKeyHash inner =>
    let cti ← CurrentTableItem.fromWriteTableItem sdk.toDefaultSdk inner txnVersion blockTimestamp
    return (row (sdk.standardizeBytes stateKeyHash) "", .table cti)
  | .deleteTableItem stateKeyHash inner =>
    let cti ← CurrentTableItem.fromDeleteTableItem sdk.toDefaultSdk inner txnVersion blockTimestamp
    return (row (sdk.standardizeBytes stateKeyHash) "", .table cti)

/-- `WriteSetChange::from_write_set_changes`. -/
def fromWriteSetChanges (sdk : ParquetSdk) (writeSetChanges : List WriteSetChange)
    (txnVersion blockHeight : Int64) (timestamp : NaiveDateTime) :
    Option (List WriteSetChangeModel × List WriteSetChangeDetail) := do
  let pairs ← writeSetChanges.zipIdx.mapM fun p =>
    fromWriteSetChange sdk p.1 p.2 txnVersion blockHeight timestamp
  return pairs.unzip

/-! ## The parquet path -/

/-- A `transactions` row. -/
structure TransactionModel where
  txnVersion : Int64
  blockHeight : Int64
  epoch : Int64
  txnType : String
  payload : Option String
  payloadType : Option String
  gasUsed : UInt64
  success : Bool
  vmStatus : String
  numEvents : Nat
  numWriteSetChanges : Nat
  txnHash : String
  stateChangeHash : String
  eventRootHash : String
  stateCheckpointHash : Option String
  accumulatorRootHash : String
  txnTotalBytes : Int64
  blockTimestamp : NaiveDateTime

namespace TransactionModel

/-- `Transaction::from_transaction_info_with_data`. -/
def fromTransactionInfoWithData (sdk : ParquetSdk) (info : TransactionInfo)
    (payload payloadType : Option String) (txnVersion : Int64) (txnType : String)
    (numEvents : Nat) (blockHeight epoch : Int64) (blockTimestamp : NaiveDateTime)
    (transactionBytes : Option UInt32) : TransactionModel where
  txnVersion := txnVersion
  blockHeight := blockHeight
  epoch := epoch
  txnType := txnType
  payload := payload
  payloadType := payloadType
  gasUsed := info.gasUsed
  success := info.success
  vmStatus := info.vmStatus
  numEvents := numEvents
  numWriteSetChanges := info.changes.length
  txnHash := sdk.standardizeBytes info.hash
  stateChangeHash := sdk.standardizeBytes info.stateChangeHash
  eventRootHash := sdk.standardizeBytes info.eventRootHash
  stateCheckpointHash := info.stateCheckpointHash.map sdk.standardizeBytes
  accumulatorRootHash := sdk.standardizeBytes info.accumulatorRootHash
  txnTotalBytes := (transactionBytes.map fun bytes => bytes.toUInt64.toInt64).getD 0
  blockTimestamp := blockTimestamp

/-- `Transaction::from_transaction_info`: a transaction without data. The fields
the source leaves to `Default` are the empty ones, and the timestamp is the epoch. -/
def fromTransactionInfo (sdk : ParquetSdk) (info : TransactionInfo)
    (txnVersion epoch blockHeight : Int64) : TransactionModel :=
  fromTransactionInfoWithData sdk info none none txnVersion "" 0 blockHeight epoch 0 none

/-- `Transaction::from_transaction`. -/
def fromTransaction (sdk : ParquetSdk) (transaction : WriteSet.Transaction) :
    Option (TransactionModel × List WriteSetChangeModel × List WriteSetChangeDetail) := do
  let blockHeight := transaction.blockHeight.toInt64
  let epoch := transaction.epoch.toInt64
  let transactionInfo ← transaction.info
  match transaction.txnData with
  | none =>
    return (fromTransactionInfo sdk transactionInfo transaction.txnVersion epoch blockHeight,
      [], [])
  | some txnData =>
    let txnVersion := transaction.txnVersion
    let transactionType ← transaction.type
    let timestamp ← transaction.timestamp
    let blockTimestamp ← sdk.fromTimestampOpt timestamp.seconds 0
    let model (payload payloadType : Option String) (numEvents : Nat) : TransactionModel :=
      fromTransactionInfoWithData sdk transactionInfo payload payloadType txnVersion
        transactionType.asStrName numEvents blockHeight epoch blockTimestamp
        transaction.transactionBytes
    match txnData with
    | .user request events =>
      let wsc ← fromWriteSetChanges sdk transactionInfo.changes txnVersion blockHeight
        blockTimestamp
      let request ← request
      let payloadCleaned := request.payload.bind fun payload => sdk.cleanPayload payload txnVersion
      return (model payloadCleaned (request.payload.map sdk.payloadType) events.length, wsc)
    | .genesis payload events =>
      let wsc ← fromWriteSetChanges sdk transactionInfo.changes txnVersion blockHeight
        blockTimestamp
      let payload ← payload
      return (model (sdk.cleanWriteset payload txnVersion) none events.length, wsc)
    | .blockMetadata events =>
      let wsc ← fromWriteSetChanges sdk transactionInfo.changes txnVersion blockHeight
        blockTimestamp
      return (model none none events.length, wsc)
    | .stateCheckpoint => return (model none none 0, [], [])
    | .validator events =>
      let wsc ← fromWriteSetChanges sdk transactionInfo.changes txnVersion blockHeight
        blockTimestamp
      return (model none none events.length, wsc)
    | .blockEpilogue => return (model none none 0, [], [])

/-- `Transaction::from_transactions`. -/
def fromTransactions (sdk : ParquetSdk) (transactions : List WriteSet.Transaction) :
    Option (List TransactionModel × List WriteSetChangeModel × List WriteSetChangeDetail) := do
  let data ← transactions.mapM (fromTransaction sdk)
  return (data.map (·.1), data.flatMap (·.2.1), data.flatMap (·.2.2))

end TransactionModel

def WriteSetChangeDetail.moveModule? : WriteSetChangeDetail → Option MoveModule
  | .module m => some m
  | _ => none

def WriteSetChangeDetail.moveResource? : WriteSetChangeDetail → Option MoveResource
  | .resource r => some r
  | _ => none

/-- The rows of the parquet files. They are the base models' rows, column by
column, with the JSON columns of resources printed again. -/
structure ParquetRows where
  moveResources : List MoveResource
  writeSetChanges : List WriteSetChangeModel
  transactions : List TransactionModel
  moveModules : List MoveModule

/-- `process_transactions_parquet`. -/
def processTransactionsParquet (sdk : ParquetSdk) (transactions : List WriteSet.Transaction) :
    Option ParquetRows := do
  let (txns, writeSetChanges, wscDetails) ← TransactionModel.fromTransactions sdk transactions
  return {
    moveResources := wscDetails.filterMap WriteSetChangeDetail.moveResource?
    writeSetChanges
    transactions := txns
    moveModules := wscDetails.filterMap WriteSetChangeDetail.moveModule? }

/-! ## The move modules of the Postgres path -/

/-- The body of the inner loop of `process_transactions`: the module of a change,
if it is one. Table items without data panic here too. -/
def changeModule (sdk : ParquetSdk) (wsc : WriteSetChange) (index : Nat)
    (version blockHeight : Int64) (blockTimestamp : NaiveDateTime) :
    Option (Option MoveModule) := do
  let change ← wsc.change
  match change with
  | .writeTableItem _ inner =>
    let _ ← CurrentTableItem.fromWriteTableItem sdk.toDefaultSdk inner version blockTimestamp
    return none
  | .deleteTableItem _ inner =>
    let _ ← CurrentTableItem.fromDeleteTableItem sdk.toDefaultSdk inner version blockTimestamp
    return none
  | .writeModule inner =>
    let m ← MoveModule.fromWriteModule sdk inner index version blockHeight blockTimestamp
    return some m
  | .deleteModule inner =>
    return some (MoveModule.fromDeleteModule sdk inner index version blockHeight blockTimestamp)
  | _ => return none

/-- The body of the outer loop. -/
def transactionModules (sdk : ParquetSdk) (transaction : WriteSet.Transaction) :
    Option (List MoveModule) := do
  let version := transaction.txnVersion
  let blockHeight := transaction.blockHeight.toInt64
  let timestamp ← transaction.timestamp
  let transactionInfo ← transaction.info
  let blockTimestamp ← sdk.fromTimestampOpt timestamp.seconds timestamp.nanos.toUInt32
  match transaction.txnData with
  | none => return []
  | some _ =>
    let modules ← transactionInfo.changes.zipIdx.mapM fun p =>
      changeModule sdk p.1 p.2 version blockHeight blockTimestamp
    return modules.reduceOption

/-- The `move_modules` of `process_transactions`. -/
def processTransactionsModules (sdk : ParquetSdk) (transactions : List WriteSet.Transaction) :
    Option (List MoveModule) := do
  let modules ← transactions.mapM (transactionModules sdk)
  return modules.flatten

/-! ## Transactions both paths can read -/

/-- The change of a write set, its type and the data of module writes and table
items are there. -/
def ChangeParses (wsc : WriteSetChange) : Prop :=
  (getWriteSetChangeType wsc).isSome ∧
  match wsc.change with
  | none => False
  | some (.writeModule inner) => inner.data.isSome
  | some (.writeTableItem _ inner) => inner.data.isSome
  | some (.deleteTableItem _ inner) => inner.data.isSome
  | some _ => True

/-- The request of a user transaction and the payload of genesis are there. -/
def DataParses : WriteSet.TxnData → Prop
  | .user request _ => request.isSome
  | .genesis payload _ => payload.isSome
  | _ => True

/-- A transaction whose data, info, type and timestamp are there and whose changes
parse. -/
structure Parses (sdk : ParquetSdk) (txn : WriteSet.Transaction) : Prop where
  txnData : ∃ data, txn.txnData = some data ∧ DataParses data
  type : txn.type.isSome
  timestamp : ∃ ts, txn.timestamp = some ts ∧ (sdk.fromTimestampOpt ts.seconds 0).isSome ∧
    (sdk.fromTimestampOpt ts.seconds ts.nanos.toUInt32).isSome
  info : ∃ info, txn.info = some info ∧ ∀ wsc ∈ info.changes, ChangeParses wsc

/-- The write set of a transaction. -/
def txnChanges (txn : WriteSet.Transaction) : List WriteSetChange :=
  (txn.info.map (·.changes)).getD []

/-- A state checkpoint or a block epilogue. -/
def closesBlock (txn : WriteSet.Transaction) : Bool :=
  txn.txnData == some .stateCheckpoint || txn.txnData == some .blockEpilogue

/-! ## What the two paths should have in common -/

/-- The version and index of every change of a transaction. -/
def changeKeys (txn : WriteSet.Transaction) : List (Int64 × Nat) :=
  (List.range (txnChanges txn).length).map fun i => (txn.txnVersion, i)

/-- One `write_set_changes` row for every change, numbered from zero up to the
`num_write_set_changes` of its transaction. -/
def RowsComplete (txns : List WriteSet.Transaction) (out : ParquetRows) : Prop :=
  out.writeSetChanges.map (fun row => (row.txnVersion, row.writeSetChangeIndex)) =
    txns.flatMap changeKeys ∧
  out.transactions.map (fun row => (row.txnVersion, row.numWriteSetChanges)) =
    txns.map fun txn => (txn.txnVersion, (txnChanges txn).length)

/-- Two rows for one module: they differ at most in the timestamp, and the two
timestamps are of the same second. -/
def SameModule (sdk : ParquetSdk) (parquet postgres : MoveModule) : Prop :=
  parquet = { postgres with blockTimestamp := parquet.blockTimestamp } ∧
  ∃ seconds nanos, sdk.fromTimestampOpt seconds 0 = some parquet.blockTimestamp ∧
    sdk.fromTimestampOpt seconds nanos = some postgres.blockTimestamp

/-! ## One change -/

section Change

variable {sdk : ParquetSdk} {seconds : Int64} {nanos : UInt32} {ts ts' : NaiveDateTime}

/-- A change read by both paths: the row has its version and index, and the two
modules, if it is a module change, are the same. -/
theorem fromWriteSetChange_spec {wsc : WriteSetChange} (h : ChangeParses wsc) (index : Nat)
    (version blockHeight : Int64) (hts : sdk.fromTimestampOpt seconds 0 = some ts)
    (hts' : sdk.fromTimestampOpt seconds nanos = some ts') :
    ∃ row detail m, fromWriteSetChange sdk wsc index version blockHeight ts = some (row, detail) ∧
      changeModule sdk wsc index version blockHeight ts' = some m ∧
      row.txnVersion = version ∧ row.writeSetChangeIndex = index ∧
      Option.Rel (SameModule sdk) detail.moveModule? m := by
  obtain ⟨htype, hchange⟩ := h
  obtain ⟨changeType, htype⟩ := Option.isSome_iff_exists.mp htype
  have hsame (m m' : MoveModule) (h₁ : m = { m' with blockTimestamp := m.blockTimestamp })
      (h₂ : m.blockTimestamp = ts) (h₃ : m'.blockTimestamp = ts') : SameModule sdk m m' :=
    ⟨h₁, seconds, nanos, h₂ ▸ hts, h₃ ▸ hts'⟩
  unfold fromWriteSetChange changeModule
  cases hc : wsc.change with
  | none =>
    rw [hc] at hchange
    exact hchange.elim
  | some change =>
    rw [hc] at hchange
    rw [htype]
    -- Only the two module changes have a module, on both paths.
    cases change with
    | deleteModule inner =>
      exact ⟨_, _, _, rfl, rfl, rfl, rfl, .some (hsame _ _ rfl rfl rfl)⟩
    | writeModule inner =>
      obtain ⟨address, stateKeyHash, data⟩ := inner
      obtain ⟨data, rfl⟩ := Option.isSome_iff_exists.mp hchange
      exact ⟨_, _, _, rfl, rfl, rfl, rfl, .some (hsame _ _ rfl rfl rfl)⟩
    | writeResource stateKeyHash inner params =>
      exact ⟨_, _, _, rfl, rfl, rfl, rfl, .none⟩
    | deleteResource stateKeyHash inner params =>
      exact ⟨_, _, _, rfl, rfl, rfl, rfl, .none⟩
    | writeTableItem stateKeyHash inner =>
      obtain ⟨handle, key, data⟩ := inner
      obtain ⟨data, rfl⟩ := Option.isSome_iff_exists.mp hchange
      exact ⟨_, _, _, rfl, rfl, rfl, rfl, .none⟩
    | deleteTableItem stateKeyHash inner =>
      obtain ⟨handle, key, data⟩ := inner
      obtain ⟨data, rfl⟩ := Option.isSome_iff_exists.mp hchange
      exact ⟨_, _, _, rfl, rfl, rfl, rfl, .none⟩

/-- The changes from an index on, read by both paths. -/
theorem mapM_changes_spec {changes : List WriteSetChange} (h : ∀ wsc ∈ changes, ChangeParses wsc)
    (start : Nat) (version blockHeight : Int64) (hts : sdk.fromTimestampOpt seconds 0 = some ts)
    (hts' : sdk.fromTimestampOpt seconds nanos = some ts') :
    ∃ pairs modules,
      (changes.zipIdx start).mapM
        (fun p => fromWriteSetChange sdk p.1 p.2 version blockHeight ts) = some pairs ∧
      (changes.zipIdx start).mapM
        (fun p => changeModule sdk p.1 p.2 version blockHeight ts') = some modules ∧
      pairs.map (fun p => (p.1.txnVersion, p.1.writeSetChangeIndex)) =
        (List.range' start changes.length).map (fun i => (version, i)) ∧
      List.Forall₂ (SameModule sdk) (pairs.filterMap fun p => p.2.moveModule?)
        modules.reduceOption := by
  induction changes generalizing start with
  | nil => exact ⟨[], [], rfl, rfl, rfl, .nil⟩
  | cons wsc changes ih =>
    obtain ⟨row, detail, m, hrow, hm, hversion, hindex, hrel⟩ :=
      fromWriteSetChange_spec (h wsc List.mem_cons_self) start version blockHeight hts hts'
    obtain ⟨pairs, modules, hpairs, hmodules, hkeys, hall⟩ :=
      ih (fun c hc => h c (List.mem_cons_of_mem _ hc)) (start + 1)
    refine ⟨(row, detail) :: pairs, m :: modules, ?_, ?_, ?_, ?_⟩
    · rw [List.zipIdx_cons, List.mapM_cons, hrow, hpairs]
      rfl
    · rw [List.zipIdx_cons, List.mapM_cons, hm, hmodules]
      rfl
    · rw [List.map_cons, hkeys, hversion, hindex, List.length_cons, List.range'_succ,
        List.map_cons]
    · -- a change that is no module adds a row to neither side
      cases hd : detail.moveModule? with
      | none =>
        rw [hd] at hrel
        cases hrel
        simpa only [List.filterMap_cons, hd, List.reduceOption_cons_of_none] using hall
      | some m₁ =>
        rw [hd] at hrel
        cases hrel with
        | some hsame =>
          simp only [List.filterMap_cons, hd, List.reduceOption_cons_of_some]
          exact .cons hsame hall

/-- A write set read by both paths. -/
theorem fromWriteSetChanges_spec {changes : List WriteSetChange}
    (h : ∀ wsc ∈ changes, ChangeParses wsc) (version blockHeight : Int64)
    (hts : sdk.fromTimestampOpt seconds 0 = some ts)
    (hts' : sdk.fromTimestampOpt seconds nanos = some ts') :
    ∃ rows details modules,
      fromWriteSetChanges sdk changes version blockHeight ts = some (rows, details) ∧
      changes.zipIdx.mapM
        (fun p => changeModule sdk p.1 p.2 version blockHeight ts') = some modules ∧
      rows.map (fun row => (row.txnVersion, row.writeSetChangeIndex)) =
        (List.range changes.length).map (fun i => (version, i)) ∧
      List.Forall₂ (SameModule sdk) (details.filterMap WriteSetChangeDetail.moveModule?)
        modules.reduceOption := by
  obtain ⟨pairs, modules, hpairs, hmodules, hkeys, hall⟩ :=
    mapM_changes_spec h 0 version blockHeight hts hts'
  refine ⟨pairs.map Prod.fst, pairs.map Prod.snd, modules, ?_, hmodules, ?_, ?_⟩
  · unfold fromWriteSetChanges
    rw [hpairs, ← List.unzip_eq_map]
    rfl
  · rw [List.range_eq_range', ← hkeys, List.map_map]
    rfl
  · rw [List.filterMap_map]
    exact hall

end Change

/-! ## One transaction -/

section Transaction

variable {sdk : ParquetSdk} {txn : WriteSet.Transaction}

/-- The parquet path's reading of a transaction that parses: the row counts the
changes, and the changes are those of the write set unless the transaction is a
state checkpoint or a block epilogue. -/
theorem fromTransaction_eq {data : WriteSet.TxnData} {type : TransactionType} {ts : Timestamp}
    {info : TransactionInfo} {blockTimestamp : NaiveDateTime}
    {wsc : List WriteSetChangeModel × List WriteSetChangeDetail} (hparses : DataParses data)
    (hdata : txn.txnData = some data) (htype : txn.type = some type)
    (htimestamp : txn.timestamp = some ts) (hinfo : txn.info = some info)
    (hts : sdk.fromTimestampOpt ts.seconds 0 = some blockTimestamp)
    (hwsc : fromWriteSetChanges sdk info.changes txn.txnVersion txn.blockHeight.toInt64
      blockTimestamp = some wsc) :
    ∃ row, TransactionModel.fromTransaction sdk txn =
        some (row, if closesBlock txn then ([], []) else wsc) ∧
      row.txnVersion = txn.txnVersion ∧ row.numWriteSetChanges = info.changes.length := by
  unfold TransactionModel.fromTransaction closesBlock
  simp only [hdata, htype, htimestamp, hinfo, hts, Option.bind_eq_bind, Option.bind_some]
  cases data with
  | user request events =>
    obtain ⟨request, rfl⟩ := Option.isSome_iff_exists.mp hparses
    rw [hwsc]
    exact ⟨_, rfl, rfl, rfl⟩
  | genesis payload events =>
    obtain ⟨payload, rfl⟩ := Option.isSome_iff_exists.mp hparses
    rw [hwsc]
    exact ⟨_, rfl, rfl, rfl⟩
  | blockMetadata events =>
    rw [hwsc]
    exact ⟨_, rfl, rfl, rfl⟩
  | validator events =>
    rw [hwsc]
    exact ⟨_, rfl, rfl, rfl⟩
  | stateCheckpoint => exact ⟨_, rfl, rfl, rfl⟩
  | blockEpilogue => exact ⟨_, rfl, rfl, rfl⟩

/-- A transaction read by both paths. -/
theorem fromTransaction_spec (h : Parses sdk txn) :
    ∃ row rows details modules,
      TransactionModel.fromTransaction sdk txn = some (row, rows, details) ∧
      transactionModules sdk txn = some modules ∧
      row.txnVersion = txn.txnVersion ∧ row.numWriteSetChanges = (txnChanges txn).length ∧
      rows.map (fun row => (row.txnVersion, row.writeSetChangeIndex)) =
        (if closesBlock txn then [] else changeKeys txn) ∧
      ((closesBlock txn → txnChanges txn = []) →
        List.Forall₂ (SameModule sdk) (details.filterMap WriteSetChangeDetail.moveModule?)
          modules) := by
  obtain ⟨⟨data, hdata, hparses⟩, htype, ⟨ts, htimestamp, hts, hts'⟩, info, hinfo, hchanges⟩ := h
  obtain ⟨type, htype⟩ := Option.isSome_iff_exists.mp htype
  obtain ⟨blockTimestamp, hts⟩ := Option.isSome_iff_exists.mp hts
  obtain ⟨blockTimestamp', hts'⟩ := Option.isSome_iff_exists.mp hts'
  obtain ⟨rows, details, modules, hrows, hmodules, hkeys, hall⟩ :=
    fromWriteSetChanges_spec hchanges txn.txnVersion txn.blockHeight.toInt64 hts hts'
  obtain ⟨row, hrow, hversion, hnum⟩ :=
    fromTransaction_eq hparses hdata htype htimestamp hinfo hts hrows
  have hmods : transactionModules sdk txn = some modules.reduceOption := by
    simp only [transactionModules, htimestamp, hinfo, hts', hdata, hmodules, Option.bind_eq_bind,
      Option.bind_some]
    rfl
  have hinfoChanges : txnChanges txn = info.changes := by
    rw [txnChanges, hinfo]
    rfl
  rw [← hinfoChanges] at hnum hkeys
  cases hclose : closesBlock txn with
  | false =>
    rw [hclose] at hrow
    exact ⟨row, rows, details, _, hrow, hmods, hversion, hnum, hkeys, fun _ => hall⟩
  | true =>
    rw [hclose] at hrow
    refine ⟨row, [], [], _, hrow, hmods, hversion, hnum, rfl, ?_⟩
    -- without changes the Postgres path finds no modules either
    intro hempty
    rw [← hinfoChanges, hempty rfl] at hmodules
    obtain rfl := Option.some.inj hmodules
    exact .nil

end Transaction

/-! ## Agreement -/

/-- The transactions of a list, each read by both paths. -/
theorem mapM_fromTransaction_spec {sdk : ParquetSdk} {txns : List WriteSet.Transaction}
    (h : ∀ txn ∈ txns, Parses sdk txn) :
    ∃ data modules, txns.mapM (TransactionModel.fromTransaction sdk) = some data ∧
      txns.mapM (transactionModules sdk) = some modules ∧
      data.map (fun d => (d.1.txnVersion, d.1.numWriteSetChanges)) =
        txns.map (fun txn => (txn.txnVersion, (txnChanges txn).length)) ∧
      (data.flatMap (·.2.1)).map (fun row => (row.txnVersion, row.writeSetChangeIndex)) =
        txns.flatMap (fun txn => if closesBlock txn then [] else changeKeys txn) ∧
      ((∀ txn ∈ txns, closesBlock txn → txnChanges txn = []) →
        List.Forall₂ (SameModule sdk)
          ((data.flatMap (·.2.2)).filterMap WriteSetChangeDetail.moveModule?) modules.flatten) := by
  induction txns with
  | nil => exact ⟨[], [], rfl, rfl, rfl, rfl, fun _ => .nil⟩
  | cons txn txns ih =>
    obtain ⟨row, rows, details, modules, hrow, hmods, hversion, hnum, hkeys, hall⟩ :=
      fromTransaction_spec (h txn List.mem_cons_self)
    obtain ⟨data, rest, hdata, hrest, hrows, hkeysRest, hallRest⟩ :=
      ih fun t ht => h t (List.mem_cons_of_mem _ ht)
    refine ⟨(row, rows, details) :: data, modules :: rest, ?_, ?_, ?_, ?_, ?_⟩
    · rw [List.mapM_cons, hrow, hdata]
      rfl
    · rw [List.mapM_cons, hmods, hrest]
      rfl
    · rw [List.map_cons, List.map_cons, hrows, hversion, hnum]
    · rw [List.flatMap_cons, List.flatMap_cons, List.map_append, hkeys, hkeysRest]
    · intro hempty
      rw [List.flatMap_cons, List.filterMap_append, List.flatten_cons]
      exact List.rel_append (hall (hempty txn List.mem_cons_self))
        (hallRest fun t ht => hempty t (List.mem_cons_of_mem _ ht))

/-- A list of blocks' keys is whole only if the dropped ones were empty. -/
theorem flatMap_changeKeys_eq_iff {txns : List WriteSet.Transaction} :
    txns.flatMap (fun txn => if closesBlock txn then [] else changeKeys txn) =
      txns.flatMap changeKeys ↔ ∀ txn ∈ txns, closesBlock txn → txnChanges txn = [] := by
  have hnil (txn : WriteSet.Transaction) : changeKeys txn = [] ↔ txnChanges txn = [] := by
    rw [changeKeys, List.map_eq_nil_iff, List.range_eq_nil, List.length_eq_zero_iff]
  constructor
  · -- each transaction's keys are at most all of them, so equal lengths leave none out
    intro heq
    have hlength := congrArg List.length heq
    rw [List.length_flatMap, List.length_flatMap] at hlength
    intro txn htxn hclose
    by_contra hne
    have hlt : (txns.map fun t => (if closesBlock t then [] else changeKeys t).length).sum <
        (txns.map fun t => (changeKeys t).length).sum := by
      refine List.sum_lt_sum _ _ ?_ ⟨txn, htxn, ?_⟩
      · intro t _
        split
        · exact Nat.zero_le _
        · exact le_refl _
      · rw [if_pos hclose]
        exact List.length_pos_iff.mpr fun hkeys => hne ((hnil txn).mp hkeys)
    omega
  · intro hempty
    refine List.flatMap_congr ?_
    intro txn htxn
    split
    · next hclose => exact ((hnil txn).mpr (hempty txn htxn hclose)).symm
    · rfl

/-- Both paths succeed on transactions that parse, and the parquet path has one
row for every change, and the modules of the Postgres path, exactly if no state
checkpoint and no block epilogue has changes. -/
theorem parquet_write_set_complete_iff (sdk : ParquetSdk) (txns : List WriteSet.Transaction)
    (h : ∀ txn ∈ txns, Parses sdk txn) :
    ∃ out modules, processTransactionsParquet sdk txns = some out ∧
      processTransactionsModules sdk txns = some modules ∧
      (RowsComplete txns out ∧ List.Forall₂ (SameModule sdk) out.moveModules modules ↔
        ∀ txn ∈ txns, closesBlock txn → txnChanges txn = []) := by
  obtain ⟨data, modules, hdata, hmodules, hrows, hkeys, hall⟩ := mapM_fromTransaction_spec h
  have hparquet : processTransactionsParquet sdk txns = some
      { moveResources := (data.flatMap (·.2.2)).filterMap WriteSetChangeDetail.moveResource?
        writeSetChanges := data.flatMap (·.2.1)
        transactions := data.map (·.1)
        moveModules := (data.flatMap (·.2.2)).filterMap WriteSetChangeDetail.moveModule? } := by
    unfold processTransactionsParquet TransactionModel.fromTransactions
    rw [hdata]
    rfl
  have hpostgres : processTransactionsModules sdk txns = some modules.flatten := by
    unfold processTransactionsModules
    rw [hmodules]
    rfl
  refine ⟨_, _, hparquet, hpostgres, ?_⟩
  constructor
  · intro hcomplete
    exact flatMap_changeKeys_eq_iff.mp (hkeys.symm.trans hcomplete.1.1)
  · intro hempty
    refine ⟨⟨hkeys.trans (flatMap_changeKeys_eq_iff.mpr hempty), ?_⟩, hall hempty⟩
    rw [List.map_map]
    exact hrows

/-- Addresses and timestamps as they come, and texts that are no JSON. -/
def plainParquetSdk : ParquetSdk where
  standardizeAddress := id
  standardizeAddressFromBytes := hexEncode
  fromStr _ := none
  bigDecimal _ := none
  parseTimestamp ts _ := ts.seconds.toInt
  hashStr := id
  fromTimestampOpt seconds nanos := some (1000000 * seconds.toInt + nanos.toNat / 1000)
  canonicalJson _ := "[]"
  typeParamsJson _ := none
  cleanPayload payload _ := some payload
  payloadType _ := "entry_function_payload"
  cleanWriteset payload _ := some payload

/-- Half a second past second 100, the deletion of the module `m`. -/
def deletingTxn (data : WriteSet.TxnData) (type : TransactionType) : WriteSet.Transaction where
  version := 7
  blockHeight := 3
  epoch := 1
  type := some type
  timestamp := some ⟨100, 500000000⟩
  info := some
    { hash := [1], stateChangeHash := [2], eventRootHash := [3], stateCheckpointHash := none
      accumulatorRootHash := [4], gasUsed := 0, success := true, vmStatus := "Executed successfully"
      changes := [⟨some .deleteModule, some (.deleteModule ⟨"0x1", [5], some ⟨"0x1", "m"⟩⟩)⟩] }
  txnData := some data
  transactionBytes := none

theorem parses_deletingTxn {data : WriteSet.TxnData} (h : DataParses data)
    (type : TransactionType) : Parses plainParquetSdk (deletingTxn data type) where
  txnData := ⟨data, rfl, h⟩
  type := rfl
  timestamp := ⟨_, rfl, rfl, rfl⟩
  info := ⟨_, rfl, fun wsc hwsc => by
    obtain rfl := List.mem_singleton.mp hwsc
    exact ⟨rfl, trivial⟩⟩

/-- A validator transaction: its change has its row, and its module's rows differ
by half a second. -/
theorem parquet_write_set_complete_validator :
    let txns := [deletingTxn (.validator []) .validator]
    ∃ out modules, processTransactionsParquet plainParquetSdk txns = some out ∧
      processTransactionsModules plainParquetSdk txns = some modules ∧
      RowsComplete txns out ∧
      List.Forall₂ (SameModule plainParquetSdk) out.moveModules modules := by
  intro txns
  have hparses : ∀ txn ∈ txns, Parses plainParquetSdk txn := by
    intro txn htxn
    obtain rfl := List.mem_singleton.mp htxn
    exact parses_deletingTxn (show DataParses (.validator []) from trivial) .validator
  obtain ⟨out, modules, hout, hmodules, hiff⟩ :=
    parquet_write_set_complete_iff plainParquetSdk txns hparses
  refine ⟨out, modules, hout, hmodules, hiff.mpr ?_⟩
  intro txn htxn hclose
  obtain rfl := List.mem_singleton.mp htxn
  cases hclose

/-- The change of a block epilogue has no row in the parquet files, and its module
is missing there. -/
theorem block_epilogue_write_set_dropped :
    Parses plainParquetSdk (deletingTxn .blockEpilogue .blockEpilogue) ∧
    let txns := [deletingTxn .blockEpilogue .blockEpilogue]
    ∃ out modules, processTransactionsParquet plainParquetSdk txns = some out ∧
      processTransactionsModules plainParquetSdk txns = some modules ∧
      out.transactions.map (·.numWriteSetChanges) = [1] ∧ out.writeSetChanges = [] ∧
      out.moveModules = [] ∧ modules.length = 1 ∧
      ¬ (RowsComplete txns out ∧
        List.Forall₂ (SameModule plainParquetSdk) out.moveModules modules) := by
  have hparses : DataParses .blockEpilogue := trivial
  refine ⟨parses_deletingTxn hparses _, _, _, rfl, rfl, rfl, rfl, rfl, rfl, ?_⟩
  intro hcomplete
  cases hcomplete.1.1

end IndexerProcessors.Default

import IndexerProcessors.Lib.Fallible
import IndexerProcessors.Lib.LastWriter
import IndexerProcessors.Lib.Numeric
import IndexerProcessors.Resources
import IndexerProcessors.WriteSet

/-!
# Objects

`process_objects` goes over the write set of each transaction three times: for the
object cores, for the resource that makes an object untransferable, and for the rows.
Every resource that is written at the address of a known object gives a row, and so does
the deletion of an object's resource group. What is known of an object stays in a map
for the rest of the batch.

A deleted object has the owner and the flags it had last: those of its last row in the
batch, or else of its row in the database. The database is an argument, one answer for
each try of each query. The tables and the run in which a batch is stored before the next
is extracted are at the end.
-/

namespace IndexerProcessors.Objects

open IndexerProcessors.Lib
open IndexerProcessors.WriteSet

/-! ## Rows -/

/-- A row of `objects`. The index counts the changes of a write set, of which there are
never more than an `i64` counts. -/
structure Object where
  transactionVersion : Int64
  writeSetChangeIndex : ℕ
  objectAddress : String
  ownerAddress : String
  stateKeyHash : String
  guidCreationNum : ℚ
  allowUngatedTransfer : Bool
  isDeleted : Bool
  untransferrable : Bool
  deriving DecidableEq

structure CurrentObject where
  objectAddress : String
  ownerAddress : String
  stateKeyHash : String
  allowUngatedTransfer : Bool
  lastGuidCreationNum : ℚ
  lastTransactionVersion : Int64
  isDeleted : Bool
  untransferrable : Bool
  deriving DecidableEq

/-- The primary key of `objects`. -/
def Object.pk (object : Object) : Int64 × ℕ :=
  (object.transactionVersion, object.writeSetChangeIndex)

/-- What the processor uses of an `ObjectAggregatedData`: the object with its metadata,
and whether it has been made untransferable. -/
structure ObjectAggregatedData where
  objectCore : ObjectCore
  stateKeyHash : String
  untransferable : Bool

abbrev ObjectAggregatedDataMapping := Table String ObjectAggregatedData

/-- The hash of a state key as the tables have it. -/
def stateKeyHashText (sdk : Sdk) (stateKeyHash : Bytes) : String :=
  sdk.standardizeAddress (hexEncode stateKeyHash)

/-- `ObjectWithMetadata::from_write_resource`. -/
def objectWithMetadata (sdk : Sdk) (stateKeyHash : Bytes) (wr : WriteResource) :
    Option (Option ObjectAggregatedData) :=
  (objectCoreFromWriteResource sdk wr).map
    (·.map fun objectCore => ⟨objectCore, stateKeyHashText sdk stateKeyHash, false⟩)

/-- `TYPE_UNTRANSFERABLE`. -/
def typeUntransferable : String := coinAddr ++ "::object::Untransferable"

/-- `Untransferable::from_write_resource`; the struct has a dummy field only. -/
def untransferableFromWriteResource (sdk : Sdk) (wr : WriteResource) : Option (Option Bool) :=
  fromWriteResource sdk typeUntransferable (Json.getBool · "dummy_field") wr

/-- The rows of a resource that is written at the address of a known object. -/
def writtenObject (sdk : Sdk) (txnVersion : Int64) (index : ℕ) (address : String)
    (data : ObjectAggregatedData) : Object × CurrentObject :=
  let ownerAddress := data.objectCore.getOwnerAddress sdk
  let untransferrable := data.untransferable || !data.objectCore.allowUngatedTransfer
  ({ transactionVersion := txnVersion
     writeSetChangeIndex := index
     objectAddress := address
     ownerAddress
     stateKeyHash := data.stateKeyHash
     guidCreationNum := data.objectCore.guidCreationNum
     allowUngatedTransfer := data.objectCore.allowUngatedTransfer
     isDeleted := false
     untransferrable },
   { objectAddress := address
     ownerAddress
     stateKeyHash := data.stateKeyHash
     allowUngatedTransfer := data.objectCore.allowUngatedTransfer
     lastGuidCreationNum := data.objectCore.guidCreationNum
     lastTransactionVersion := txnVersion
     isDeleted := false
     untransferrable })

/-- `Object::from_write_resource`. -/
def fromWriteResource (sdk : Sdk) (wr : WriteResource) (txnVersion : Int64) (index : ℕ)
    (mapping : ObjectAggregatedDataMapping) : Option (Object × CurrentObject) :=
  let address := sdk.standardizeAddress wr.address
  (mapping.lookup address).map (writtenObject sdk txnVersion index address)

/-- The rows of a deleted object: the owner and the flags are those of an earlier row. -/
def deletedObject (txnVersion : Int64) (index : ℕ) (address stateKeyHash : String)
    (previous : CurrentObject) : Object × CurrentObject :=
  ({ transactionVersion := txnVersion
     writeSetChangeIndex := index
     objectAddress := address
     ownerAddress := previous.ownerAddress
     stateKeyHash
     guidCreationNum := previous.lastGuidCreationNum
     allowUngatedTransfer := previous.allowUngatedTransfer
     isDeleted := true
     untransferrable := previous.untransferrable },
   { objectAddress := address
     ownerAddress := previous.ownerAddress
     stateKeyHash
     allowUngatedTransfer := previous.allowUngatedTransfer
     lastGuidCreationNum := previous.lastGuidCreationNum
     lastTransactionVersion := txnVersion
     isDeleted := true
     untransferrable := previous.untransferrable })

/-- The database as a batch finds it: for a change, by version and index, and for each
try, what `CurrentObjectQuery::get_by_address` returns. -/
abbrev ObjectConn := Int64 → ℕ → String → ℕ → Option CurrentObject

/-- `get_current_object`: the first answer of at most `queryRetries` tries. -/
def getCurrentObject (queryRetries : ℕ) (query : ℕ → Option CurrentObject) :
    Option CurrentObject :=
  retried queryRetries query

def objectGroup : String := "0x1::object::ObjectGroup"

/-- `Object::from_delete_resource`, with a connection to the database. A deletion of an
object that is nowhere to be found is logged and skipped. -/
def fromDeleteResource (sdk : Sdk) (conn : ObjectConn) (queryRetries : ℕ) (stateKeyHash : Bytes)
    (dr : Protos.DeleteResource) (txnVersion : Int64) (index : ℕ)
    (objectMapping : Table String CurrentObject) : Option (Object × CurrentObject) :=
  if dr.typeStr = objectGroup then
    let address := sdk.standardizeAddress dr.address
    let previous := (objectMapping.lookup address).or
      (getCurrentObject queryRetries (conn txnVersion index address))
    previous.map (deletedObject txnVersion index address (stateKeyHashText sdk stateKeyHash))
  else none

/-! ## A batch -/

/-- What `process_objects` collects. -/
structure ProcessState where
  objectMetadataHelper : ObjectAggregatedDataMapping
  allObjects : List Object
  allCurrentObjects : Table String CurrentObject

def ProcessState.init : ProcessState := ⟨∅, [], ∅⟩

/-- The first pass, for one change: an object core starts the object's data afresh. -/
def addCore (sdk : Sdk) (mapping : ObjectAggregatedDataMapping) :
    WriteSet.Change → Option ObjectAggregatedDataMapping
  | .writeResource stateKeyHash wr _ => do
    let data ← objectWithMetadata sdk stateKeyHash wr
    return mapping.insertAll (data.toList.map fun d => (sdk.standardizeAddress wr.address, d))
  | _ => some mapping

/-- The second pass, for one change. -/
def addUntransferable (sdk : Sdk) (mapping : ObjectAggregatedDataMapping) :
    WriteSet.Change → Option ObjectAggregatedDataMapping
  | .writeResource _ wr _ =>
    let address := sdk.standardizeAddress wr.address
    match mapping.lookup address with
    | some data => do
      let untransferable ← untransferableFromWriteResource sdk wr
      return mapping.insertAll
        (untransferable.toList.map fun _ => (address, { data with untransferable := true }))
    | none => some mapping
  | _ => some mapping

/-- The rows of a change, in the third pass. -/
def changeObject (sdk : Sdk) (conn : ObjectConn) (queryRetries : ℕ) (txnVersion : Int64)
    (mapping : ObjectAggregatedDataMapping) (current : Table String CurrentObject) (index : ℕ) :
    WriteSet.Change → Option (Object × CurrentObject)
  | .writeResource _ wr _ => fromWriteResource sdk wr txnVersion index mapping
  | .deleteResource stateKeyHash dr _ =>
    fromDeleteResource sdk conn queryRetries stateKeyHash dr txnVersion index current
  | _ => none

/-- The third pass, for one change. -/
def addObject (sdk : Sdk) (conn : ObjectConn) (queryRetries : ℕ) (txnVersion : Int64)
    (st : ProcessState) (change : WriteSet.Change × ℕ) : ProcessState :=
  match changeObject sdk conn queryRetries txnVersion st.objectMetadataHelper st.allCurrentObjects
      change.2 change.1 with
  | some (object, current) =>
    { st with
      allObjects := st.allObjects ++ [object]
      allCurrentObjects := st.allCurrentObjects.insert object.objectAddress current }
  | none => st

/-- The changes of a transaction; each of them has to be there. -/
def transactionChanges (txn : WriteSet.Transaction) : Option (List WriteSet.Change) := do
  let info ← txn.info
  info.changes.mapM (·.change)

/-- The body of the loop of `process_objects`. -/
def processTransaction (sdk : Sdk) (conn : ObjectConn) (queryRetries : ℕ) (st : ProcessState)
    (txn : WriteSet.Transaction) : Option ProcessState := do
  let _ ← txn.timestamp
  let changes ← transactionChanges txn
  let mapping ← changes.foldlM (addCore sdk) st.objectMetadataHelper
  let mapping ← changes.foldlM (addUntransferable sdk) mapping
  return changes.zipIdx.foldl (addObject sdk conn queryRetries txn.txnVersion)
    { st with objectMetadataHelper := mapping }

/-- `process_objects`. The current objects are sorted by address before they are
returned, which their statement does not depend on. -/
def processObjects (sdk : Sdk) (conn : ObjectConn) (queryRetries : ℕ)
    (transactions : List WriteSet.Transaction) : Option ProcessState :=
  transactions.foldlM (processTransaction sdk conn queryRetries) .init

/-! ## Tables -/

structure ObjectsDb where
  objects : Table (Int64 × ℕ) Object
  currentObjects : Table String CurrentObject

/-- `insert_objects_query` on a row that is there: only `inserted_at` is set. -/
def objectQuery (old _excluded : Object) : Object := old

/-- `insert_current_objects_query` on a row that is there. -/
def currentObjectQuery (old excluded : CurrentObject) : CurrentObject :=
  if old.lastTransactionVersion ≤ excluded.lastTransactionVersion then
    { old with
      ownerAddress := excluded.ownerAddress
      stateKeyHash := excluded.stateKeyHash
      allowUngatedTransfer := excluded.allowUngatedTransfer
      lastGuidCreationNum := excluded.lastGuidCreationNum
      lastTransactionVersion := excluded.lastTransactionVersion
      isDeleted := excluded.isDeleted
      untransferrable := excluded.untransferrable }
  else old

/-- `ObjectsStorer`, for a batch. -/
def ObjectsDb.store (db : ObjectsDb) (out : ProcessState) : ObjectsDb where
  objects := db.objects.upsertAll objectQuery (out.allObjects.map fun object => (object.pk, object))
  currentObjects := db.currentObjects.upsertAll currentObjectQuery out.allCurrentObjects.rows

/-- A database that answers every query with what it has. -/
def ObjectsDb.conn (db : ObjectsDb) : ObjectConn := fun _ _ address _ =>
  db.currentObjects.lookup address

/-- A batch is extracted and stored, with nothing else under way. -/
def processAndStore (sdk : Sdk) (queryRetries : ℕ) (db : ObjectsDb)
    (batch : List WriteSet.Transaction) : Option ObjectsDb :=
  (processObjects sdk db.conn queryRetries batch).map db.store

/-- The strictly sequential run. -/
def runSequential (sdk : Sdk) (queryRetries : ℕ) (batches : List (List WriteSet.Transaction)) :
    Option ObjectsDb :=
  batches.foldlM (processAndStore sdk queryRetries) ⟨∅, ∅⟩

theorem currentObjectQuery_eq_later {old excluded : CurrentObject}
    (h : old.objectAddress = excluded.objectAddress) :
    currentObjectQuery old excluded = later (·.lastTransactionVersion) old excluded := by
  unfold currentObjectQuery later
  rw [h]

end IndexerProcessors.Objects

import IndexerProcessors.Lib.Numeric
import IndexerProcessors.Lib.Table
import IndexerProcessors.Transaction

/-!
# Checkpoints of the Postgres processors

`processor_status_saver.rs`: where a processor starts, and what it saves as it
goes. A regular processor has one row in `processor_status`; a backfill has one
in `backfill_processor_status`, under the alias of processor and backfill id,
with a status and the configured range.

Two functions write the backfill row, with different conventions for
`last_success_version`. A checkpoint stores the last version that *was*
processed; the reset of an overwriting start stores `0`. A later start reads
either as "resume at the version after".

Versions are `u64` in the configuration and `i64` in the tables; the casts are
the source's.
-/

namespace IndexerProcessors.Status

open IndexerProcessors.Lib

/-- A `processor_status` row, without `last_updated`. -/
structure ProcessorStatus where
  lastSuccessVersion : Int64
  lastTransactionTimestamp : Option NaiveDateTime
  deriving DecidableEq, Repr

inductive BackfillStatus where
  | inProgress
  | complete
  deriving DecidableEq, Repr

/-- A `backfill_processor_status` row, without `last_updated`. -/
structure BackfillProcessorStatus where
  backfillStatus : BackfillStatus
  lastSuccessVersion : Int64
  lastTransactionTimestamp : Option NaiveDateTime
  backfillStartVersion : Int64
  backfillEndVersion : Option Int64
  deriving DecidableEq, Repr

/-- The two status tables, keyed by processor and by backfill alias. -/
structure StatusDb where
  processorStatus : Table String ProcessorStatus
  backfillProcessorStatus : Table String BackfillProcessorStatus

def StatusDb.empty : StatusDb := ⟨∅, ∅⟩

structure BackfillConfig where
  backfillId : String
  initialStartingVersion : UInt64
  endingVersion : Option UInt64
  overwriteCheckpoint : Bool

structure BootStrapConfig where
  initialStartingVersion : UInt64

structure TestingConfig where
  overrideStartingVersion : UInt64
  endingVersion : Option UInt64

inductive ProcessorMode where
  | backfill (config : BackfillConfig)
  | default (config : BootStrapConfig)
  | testing (config : TestingConfig)

/-- The metadata of a batch that checkpoints read. -/
structure BatchEnd where
  endVersion : UInt64
  endTransactionTimestamp : Option Timestamp

/-- `format!("{processor_id}_{backfill_id}")`. -/
def backfillAlias (processorId backfillId : String) : String :=
  processorId ++ "_" ++ backfillId

/-- `DO UPDATE` with `filter(last_success_version.le(excluded(..)))`. -/
def forwardOnly {ρ : Type} (version : ρ → Int64) (old excluded : ρ) : ρ :=
  if version old ≤ version excluded then excluded else old

/-- The status a checkpoint of a backfill stores. -/
def checkpointStatus (endingVersion : Option UInt64) (lastSuccessVersion : Int64) :
    BackfillStatus :=
  match endingVersion with
  | some e => if e.toInt64 ≤ lastSuccessVersion then .complete else .inProgress
  | none => .inProgress

/-- `save_processor_status`. -/
def saveProcessorStatus (sdk : Sdk) (processorId : String) (mode : ProcessorMode)
    (lastSuccessBatch : BatchEnd) (db : StatusDb) : StatusDb :=
  let lastSuccessVersion := lastSuccessBatch.endVersion.toInt64
  let lastTransactionTimestamp := lastSuccessBatch.endTransactionTimestamp.map fun t =>
    sdk.parseTimestamp t lastSuccessVersion
  match mode with
  | .default _ =>
    let status : ProcessorStatus := { lastSuccessVersion, lastTransactionTimestamp }
    let processorStatus :=
      db.processorStatus.upsert (forwardOnly (·.lastSuccessVersion)) processorId status
    { db with processorStatus }
  | .backfill config =>
    let status : BackfillProcessorStatus := {
      backfillStatus := checkpointStatus config.endingVersion lastSuccessVersion
      lastSuccessVersion
      lastTransactionTimestamp
      backfillStartVersion := config.initialStartingVersion.toInt64
      backfillEndVersion := config.endingVersion.map (·.toInt64) }
    let backfillProcessorStatus := db.backfillProcessorStatus.upsert
      (if config.overwriteCheckpoint then fun _ excluded => excluded
        else forwardOnly (·.lastSuccessVersion))
      (backfillAlias processorId config.backfillId) status
    { db with backfillProcessorStatus }
  | .testing _ => db

/-- `get_end_version`. -/
def getEndVersion (processorName : String) (mode : ProcessorMode) (db : StatusDb) :
    Option UInt64 :=
  match mode with
  | .default _ => none
  | .backfill config =>
    match config.endingVersion with
    | some e => some e
    | none => (db.processorStatus.lookup processorName).map (·.lastSuccessVersion.toUInt64)
  | .testing config => some (config.endingVersion.getD config.overrideStartingVersion)

/-- The row an overwriting start stores over an existing one. -/
def resetStatus (processorName : String) (config : BackfillConfig) (db : StatusDb) :
    BackfillProcessorStatus where
  backfillStatus := .inProgress
  lastSuccessVersion := 0
  lastTransactionTimestamp := none
  backfillStartVersion := config.initialStartingVersion.toInt64
  backfillEndVersion := (getEndVersion processorName (.backfill config) db).map (·.toInt64)

/-- `get_starting_version`: the version to start at, and the database with a
possible reset. -/
def getStartingVersion (processorName : String) (mode : ProcessorMode) (db : StatusDb) :
    Option UInt64 × StatusDb :=
  match mode with
  | .default config =>
    match db.processorStatus.lookup processorName with
    | none => (some config.initialStartingVersion, db)
    | some status =>
      (some (max status.lastSuccessVersion.toUInt64 config.initialStartingVersion), db)
  | .backfill config =>
    let key := backfillAlias processorName config.backfillId
    match db.backfillProcessorStatus.lookup key with
    | none => (some config.initialStartingVersion, db)
    | some status =>
      if status.backfillStatus = .complete ∧ config.overwriteCheckpoint = false then
        (config.endingVersion, db)
      else if config.overwriteCheckpoint then
        let backfillProcessorStatus := db.backfillProcessorStatus.upsert
          (fun _ excluded => excluded) key (resetStatus processorName config db)
        (some config.initialStartingVersion, { db with backfillProcessorStatus })
      else (some (status.lastSuccessVersion.toUInt64 + 1), db)
  | .testing config => (some config.overrideStartingVersion, db)

end IndexerProcessors.Status

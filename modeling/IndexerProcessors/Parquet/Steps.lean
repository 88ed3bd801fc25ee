import IndexerProcessors.Lib.KeyedLog
import IndexerProcessors.Lib.Table
import IndexerProcessors.Transaction

/-!
# The two stateful steps of a parquet pipeline

`ParquetBufferStep` (`parquet_buffer_step.rs`) collects each table's rows in a
buffer and uploads a buffer when the next batch would overflow it, when the poll
timer fires, or at the end; it reports the version range of each upload.
`ParquetVersionTrackerStep` (`parquet_version_tracker_step.rs`) receives these
ranges, checks them for gaps and saves the latest one of each table.

Tables and rows are arbitrary types. The two hash maps a step walks over may be
walked in any order, and any upload or save may fail: both are inputs of the
functions below. A step that fails keeps what it has done so far and reports an
error; the `?`s of the source are the `error` checks of the folds.
-/

namespace IndexerProcessors.Parquet

open IndexerProcessors.Lib

/-- `TransactionMetadata` of the SDK. -/
structure TransactionMetadata where
  startVersion : UInt64
  endVersion : UInt64
  startTransactionTimestamp : Option Timestamp
  endTransactionTimestamp : Option Timestamp
  totalSizeInBytes : UInt64
  deriving DecidableEq, Repr

/-- Why a step stopped. -/
inductive StepError (τ : Type) where
  /-- `Gap founded: Buffer metadata end_version mismatch: {} != {}`. -/
  | bufferGap (endVersion startVersion : UInt64)
  /-- `Gap detected for {:?} starting from version: {}`. -/
  | trackerGap (parquetType : τ) (startVersion : UInt64)
  | uploadFailed
  | saveFailed
  | panicked
  deriving DecidableEq, Repr

variable {τ ρ : Type} [DecidableEq τ]

/-! ## The buffer step -/

/-- A table's buffered rows, their size and their version range. -/
structure ParquetBuffer (ρ : Type) where
  buffer : List ρ
  bufferSizeBytes : ℕ
  currentBatchMetadata : Option TransactionMetadata

def ParquetBuffer.new : ParquetBuffer ρ := ⟨[], 0, none⟩

/-- `update_current_batch_metadata`. -/
def ParquetBuffer.updateCurrentBatchMetadata (b : ParquetBuffer ρ) (cur : TransactionMetadata) :
    Except (StepError τ) (ParquetBuffer ρ) :=
  match b.currentBatchMetadata with
  | some m =>
    if m.endVersion + 1 ≠ cur.startVersion then .error (.bufferGap m.endVersion cur.startVersion)
    else .ok { b with currentBatchMetadata := some { m with
      endVersion := cur.endVersion
      totalSizeInBytes := cur.totalSizeInBytes
      endTransactionTimestamp := cur.endTransactionTimestamp } }
  | none => .ok { b with currentBatchMetadata := some cur }

/-- `buffer_max_size` and the size of a table's rows in memory. -/
structure BufferConfig (τ ρ : Type) where
  bufferMaxSize : ℕ
  calculateSize : τ → List ρ → ℕ

/-- A batch: each table's rows, in the order the step walks over them, and the
version range. -/
structure InputBatch (τ ρ : Type) where
  data : List (τ × List ρ)
  metadata : TransactionMetadata

/-- The buffer step in the middle of a call. `uploaded` logs the uploads. -/
structure BufferState (τ ρ : Type) where
  internalBuffers : Table τ (ParquetBuffer ρ)
  uploaded : List (τ × List ρ)
  uploadMetadataMap : List (τ × TransactionMetadata)
  error : Option (StepError τ)

/-- The end of `upload_buffer_append`: append the rows, then extend the range. -/
def appendToBuffer (cfg : BufferConfig τ ρ) (cur : TransactionMetadata) (s : BufferState τ ρ)
    (parquetType : τ) (buffer : ParquetBuffer ρ) (parquetData : List ρ) : BufferState τ ρ :=
  let appended := { buffer with
    bufferSizeBytes := buffer.bufferSizeBytes + cfg.calculateSize parquetType parquetData
    buffer := buffer.buffer ++ parquetData }
  match appended.updateCurrentBatchMetadata cur with
  | .ok b => { s with internalBuffers := s.internalBuffers.insert parquetType b }
  | .error e =>
    { s with internalBuffers := s.internalBuffers.insert parquetType appended, error := some e }

/-- `upload_buffer_append`. A buffer that would overflow is uploaded first; its
metadata is unwrapped, so an overflow of an empty buffer panics. -/
def uploadBufferAppend (cfg : BufferConfig τ ρ) (cur : TransactionMetadata) (uploadOk : τ → Bool)
    (s : BufferState τ ρ) (item : τ × List ρ) : BufferState τ ρ :=
  if s.error.isSome then s
  else
    let buffer := (s.internalBuffers.lookup item.1).getD .new
    let taken := s.internalBuffers.insert item.1 { buffer with buffer := [] }
    if cfg.bufferMaxSize < buffer.bufferSizeBytes + cfg.calculateSize item.1 item.2 then
      if uploadOk item.1 then
        let uploaded := s.uploaded ++ [(item.1, buffer.buffer)]
        match buffer.currentBatchMetadata with
        | none => { s with internalBuffers := taken, uploaded, error := some .panicked }
        | some m =>
          let uploadMetadataMap := s.uploadMetadataMap ++ [(item.1, m)]
          -- The batch itself goes into the emptied buffer, never into the upload.
          appendToBuffer cfg cur { s with uploaded, uploadMetadataMap } item.1 .new item.2
      -- The rows were moved out of the buffer before the upload was tried.
      else { s with internalBuffers := taken, error := some .uploadFailed }
    else appendToBuffer cfg cur s item.1 buffer item.2

/-- `ParquetBufferStep::process`. -/
def processBatch (cfg : BufferConfig τ ρ) (internalBuffers : Table τ (ParquetBuffer ρ))
    (uploaded : List (τ × List ρ)) (batch : InputBatch τ ρ) (uploadOk : τ → Bool) :
    BufferState τ ρ :=
  batch.data.foldl (uploadBufferAppend cfg batch.metadata uploadOk)
    ⟨internalBuffers, uploaded, [], none⟩

/-- One drained buffer of `poll` or `cleanup`, which differ in the metadata they
report. -/
def drainBuffer (finish : ℕ → TransactionMetadata → TransactionMetadata) (uploadOk : τ → Bool)
    (s : BufferState τ ρ) (parquetType : τ) : BufferState τ ρ :=
  if s.error.isSome then s
  else
    match s.internalBuffers.lookup parquetType with
    | none => s
    | some buffer =>
      if 0 < buffer.bufferSizeBytes then
        if uploadOk parquetType then
          let uploaded := s.uploaded ++ [(parquetType, buffer.buffer)]
          match buffer.currentBatchMetadata with
          | none => { s with uploaded, error := some .panicked }
          | some m =>
            let reported := (parquetType, finish buffer.bufferSizeBytes m)
            { s with uploaded, uploadMetadataMap := s.uploadMetadataMap ++ [reported] }
        else { s with error := some .uploadFailed }
      else s

/-- `internal_buffers.drain()` with an upload per buffer; whatever happens, no
buffer is left. -/
def drain (finish : ℕ → TransactionMetadata → TransactionMetadata)
    (internalBuffers : Table τ (ParquetBuffer ρ)) (uploaded : List (τ × List ρ)) (order : List τ)
    (uploadOk : τ → Bool) : BufferState τ ρ :=
  { order.foldl (drainBuffer finish uploadOk) ⟨internalBuffers, uploaded, [], none⟩ with
    internalBuffers := ∅ }

/-- `ParquetBufferStep::poll`. -/
def pollBuffers (internalBuffers : Table τ (ParquetBuffer ρ)) (uploaded : List (τ × List ρ))
    (order : List τ) (uploadOk : τ → Bool) : BufferState τ ρ :=
  drain (fun _ m => m) internalBuffers uploaded order uploadOk

/-- `ParquetBufferStep::cleanup`. -/
def cleanupBuffers (internalBuffers : Table τ (ParquetBuffer ρ)) (uploaded : List (τ × List ρ))
    (order : List τ) (uploadOk : τ → Bool) : BufferState τ ρ :=
  drain (fun size m => { m with totalSizeInBytes := UInt64.ofNat size }) internalBuffers uploaded
    order uploadOk

/-! ## The tracker step -/

/-- The tracker in the middle of a call. `saved` logs the statuses it saved. -/
structure TrackerState (τ : Type) where
  lastSuccessBatch : Table τ TransactionMetadata
  saved : List (τ × TransactionMetadata)
  error : Option (StepError τ)

/-- One reported range of `ParquetVersionTrackerStep::process`. -/
def trackRange (s : TrackerState τ) (range : τ × TransactionMetadata) : TrackerState τ :=
  if s.error.isSome then s
  else
    match s.lastSuccessBatch.lookup range.1 with
    | some last =>
      if last.endVersion + 1 ≠ range.2.startVersion then
        { s with error := some (.trackerGap range.1 range.2.startVersion) }
      else { s with lastSuccessBatch := s.lastSuccessBatch.insert range.1 range.2 }
    | none => { s with lastSuccessBatch := s.lastSuccessBatch.insert range.1 range.2 }

/-- `ParquetVersionTrackerStep::process`. -/
def trackBatch (s : TrackerState τ) (ranges : List (τ × TransactionMetadata)) : TrackerState τ :=
  ranges.foldl trackRange s

/-- One table of `save_processor_status`. -/
def saveStatus (saveOk : τ → Bool) (s : TrackerState τ) (parquetType : τ) : TrackerState τ :=
  if s.error.isSome then s
  else
    match s.lastSuccessBatch.lookup parquetType with
    | none => s
    | some m =>
      if saveOk parquetType then { s with saved := s.saved ++ [(parquetType, m)] }
      else { s with error := some .saveFailed }

/-- `save_processor_status`, which `poll` and `cleanup` both are. -/
def saveStatuses (s : TrackerState τ) (order : List τ) (saveOk : τ → Bool) : TrackerState τ :=
  order.foldl (saveStatus saveOk) s

end IndexerProcessors.Parquet

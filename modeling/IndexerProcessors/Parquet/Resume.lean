import IndexerProcessors.Parquet.Config
import IndexerProcessors.Parquet.Pipeline
import IndexerProcessors.Status.Saver

/-!
# Where a parquet processor resumes

`parquet_processor_status_saver.rs` starts a run at the minimum of the tables'
checkpoints. The minimum is over the rows that are there and could be read: a
table without a row, with a failed query, or missing from `table_names` does not
take part. Its comment asks for `0` in place of a missing row.

A history of a processor is a sequence of pipeline runs over one database, each
ended by a stop or a crash at any point. `resume_skips_nothing` says that a
history is safe as long as, at each start, no table is left behind by the
checkpoints that were read: either none was, or each emitted table has a
checkpoint of its own that is no lower than one of them.
-/

namespace IndexerProcessors.Parquet

open IndexerProcessors.Lib
open IndexerProcessors.Status

/-! ## The starting version -/

/-- Which status queries succeed at a start, by the name they ask for. -/
structure StatusQueries where
  processorStatusOk : String → Bool
  backfillStatusOk : String → Bool

/-- A table's checkpoint, if its query succeeds and finds one. -/
def processedVersion (queries : StatusQueries) (db : StatusDb) (name : String) : Option UInt64 :=
  if queries.processorStatusOk name then
    (db.processorStatus.lookup name).map (·.lastSuccessVersion.toUInt64)
  else none

/-- `get_min_processed_version_from_db`. -/
def getMinProcessedVersionFromDb (queries : StatusQueries) (db : StatusDb)
    (tableNames : List String) : Option UInt64 :=
  (tableNames.filterMap (processedVersion queries db)).min?

/-- `get_parquet_backfill_statuses`, with the aliases of the rows. -/
def getParquetBackfillStatuses (queries : StatusQueries) (db : StatusDb) (tableNames : List String)
    (backfillId : String) : List (String × BackfillProcessorStatus) :=
  tableNames.filterMap fun name =>
    if queries.backfillStatusOk name then
      let key := backfillAlias name backfillId
      (db.backfillProcessorStatus.lookup key).map fun row => (key, row)
    else none

/-- `get_parquet_starting_version`, once the table names are known. -/
def parquetStartingVersion (queries : StatusQueries) (mode : ProcessorMode)
    (tableNames : List String) (db : StatusDb) : Option UInt64 × StatusDb :=
  match mode with
  | .default config =>
    match getMinProcessedVersionFromDb queries db tableNames with
    | none => (some config.initialStartingVersion, db)
    | some version => (some (max version config.initialStartingVersion), db)
  | .backfill config =>
    let statuses := getParquetBackfillStatuses queries db tableNames config.backfillId
    match statuses with
    | [] => (some config.initialStartingVersion, db)
    | first :: rest =>
      if (statuses.all fun s => s.2.backfillStatus = .complete) ∧
          config.overwriteCheckpoint = false then
        (config.endingVersion, db)
      else if config.overwriteCheckpoint then
        let backfillEndVersion :=
          match config.endingVersion with
          | some e => some e.toInt64
          | none => (getMinProcessedVersionFromDb queries db tableNames).map (·.toInt64)
        let reset : BackfillProcessorStatus := {
          backfillStatus := .inProgress
          lastSuccessVersion := 0
          lastTransactionTimestamp := none
          backfillStartVersion := config.initialStartingVersion.toInt64
          backfillEndVersion }
        let backfillProcessorStatus := db.backfillProcessorStatus.upsertAll
          (fun _ excluded => excluded) (statuses.map fun s => (s.1, reset))
        (some config.initialStartingVersion, { db with backfillProcessorStatus })
      else
        let minVersion := rest.foldl (fun m s => min m s.2.lastSuccessVersion.toUInt64)
          first.2.lastSuccessVersion.toUInt64
        (some (minVersion + 1), db)
  | .testing config => (some config.overrideStartingVersion, db)

/-- A parquet processor as configured. `toLowercase` is `str::to_lowercase`. -/
structure ParquetProcessor (ρ : Type) where
  sdk : Sdk
  toLowercase : String → String
  processor : ProcessorName
  backfillTable : List String
  initialStartingVersion : UInt64
  buffer : BufferConfig ParquetTypeEnum ρ

namespace ParquetProcessor

variable {ρ : Type} (pp : ParquetProcessor ρ)

/-- `ProcessorMode::Default`. -/
def mode : ProcessorMode := .default ⟨pp.initialStartingVersion⟩

/-- `get_parquet_starting_version`. -/
def getParquetStartingVersion (queries : StatusQueries) (db : StatusDb) :
    Except TableNamesError (Option UInt64 × StatusDb) := do
  let tableNames ← getProcessorStatusTableNames pp.toLowercase pp.processor pp.backfillTable
  return parquetStartingVersion queries pp.mode tableNames db

/-- The tables the extractor emits. -/
def emitted : List ParquetTypeEnum :=
  emittedTables pp.processor (setBackfillTableFlag pp.backfillTable)

/-- The name a table's status is saved under. -/
def statusKey (T : ParquetTypeEnum) : String :=
  formatTableName pp.processor.toString T.toString

/-- `save_parquet_processor_status`. -/
def saveParquetProcessorStatus (db : StatusDb) (saved : ParquetTypeEnum × TransactionMetadata) :
    StatusDb :=
  saveProcessorStatus pp.sdk (pp.statusKey saved.1) pp.mode
    ⟨saved.2.endVersion, saved.2.endTransactionTimestamp⟩ db

end ParquetProcessor

/-! ## Histories -/

/-- The database, the run in progress and those that have ended. -/
structure ParquetHistory (ρ : Type) where
  db : StatusDb
  active : Option (Pipeline ParquetTypeEnum ρ)
  finished : List (Pipeline ParquetTypeEnum ρ)

/-- A start, a call of one of the steps of the run, or its end. A crash in the
middle of a call is a call that fails there, and then a stop. -/
inductive ParquetAction (ρ : Type) where
  | start (queries : StatusQueries)
  | call (a : PipelineAction ParquetTypeEnum ρ)
  | stop

/-- The rows of a table in the batch of version `v`, and all before it in the
run, have been uploaded. -/
def Pipeline.UploadedAt {τ ρ : Type} [DecidableEq τ] (st : Pipeline τ ρ) (T : τ) (v : ℕ) : Prop :=
  ∃ done, done <+: st.inputs ∧ done.flatMap (rowsOf T) <+: st.uploadedRows T ∧
    ∃ batch ∈ done,
      batch.metadata.startVersion.toNat ≤ v ∧ v ≤ batch.metadata.endVersion.toNat

namespace ParquetProcessor

variable {ρ : Type} (pp : ParquetProcessor ρ)

def init : ParquetHistory ρ := ⟨StatusDb.empty, none, []⟩

/-- One action. What the tracker saves in a call goes to the database. -/
def step (st : ParquetHistory ρ) : ParquetAction ρ → Option (ParquetHistory ρ)
  | .start queries =>
    match st.active, pp.getParquetStartingVersion queries st.db with
    | none, .ok (some version, db) => some { st with db, active := some (Pipeline.init version) }
    | _, _ => none
  | .call a =>
    match st.active with
    | none => none
    | some run =>
      (Pipeline.step pp.buffer run a).map fun run' =>
        let saved := run'.tracker.saved.drop run.tracker.saved.length
        { st with
          db := saved.foldl pp.saveParquetProcessorStatus st.db
          active := some run' }
  | .stop =>
    match st.active with
    | none => none
    | some run => some { st with active := none, finished := run :: st.finished }

/-- The stream feeds every run as `Pipeline.InputOk` says. -/
def InputOk (st : ParquetHistory ρ) : ParquetAction ρ → Prop
  | .call a => ∀ run ∈ st.active, Pipeline.InputOk pp.emitted run a
  | _ => True

/-- The checkpoints read at a start leave no table behind. -/
def CheckpointsCount (st : ParquetHistory ρ) : ParquetAction ρ → Prop
  | .start queries =>
    ∀ names ∈ (getProcessorStatusTableNames pp.toLowercase pp.processor pp.backfillTable).toOption,
      (∀ name ∈ names, processedVersion queries st.db name = none) ∨
      ∀ T ∈ pp.emitted, ∃ name ∈ names, ∃ version ∈ processedVersion queries st.db name,
        version ≤ pp.initialStartingVersion ∨
          ∃ row ∈ st.db.processorStatus.lookup (pp.statusKey T),
            version ≤ row.lastSuccessVersion.toUInt64
  | _ => True

instance (st : ParquetHistory ρ) : (a : ParquetAction ρ) → Decidable (pp.InputOk st a)
  | .call _ => inferInstanceAs (Decidable (∀ run ∈ st.active, _))
  | .start _ | .stop => inferInstanceAs (Decidable True)

instance (st : ParquetHistory ρ) : (a : ParquetAction ρ) → Decidable (pp.CheckpointsCount st a)
  | .start _ => inferInstanceAs (Decidable (∀ names ∈ Except.toOption _, _))
  | .call _ | .stop => inferInstanceAs (Decidable True)

/-- The run in progress starts no later than the first version, from the
configured one on, whose rows some table still lacks. -/
def ResumedSafely (st : ParquetHistory ρ) : Prop :=
  ∀ run, st.active = some run → ∀ T ∈ pp.emitted, ∀ v,
    pp.initialStartingVersion.toNat ≤ v → v < run.startVersion.toNat →
    ∃ past ∈ st.finished, past.UploadedAt T v

end ParquetProcessor

/-! ## What a run never takes back -/

section Grows

variable {τ ρ : Type} [DecidableEq τ]

theorem uploaded_uploadBufferAppend (cfg : BufferConfig τ ρ) (cur : TransactionMetadata)
    (uploadOk : τ → Bool) (s : BufferState τ ρ) (item : τ × List ρ) :
    s.uploaded <+: (uploadBufferAppend cfg cur uploadOk s item).uploaded := by
  have happend : ∀ (s : BufferState τ ρ) (b : ParquetBuffer ρ),
      (appendToBuffer cfg cur s item.1 b item.2).uploaded = s.uploaded := by
    intro s b
    unfold appendToBuffer
    simp only
    split <;> rfl
  unfold uploadBufferAppend
  simp only
  split
  · exact List.prefix_refl _
  · split
    · split
      · split
        · exact List.prefix_append _ _
        · rw [happend]
          exact List.prefix_append _ _
      · exact List.prefix_refl _
    · rw [happend]

theorem uploaded_processBatch (cfg : BufferConfig τ ρ) (buffers : Table τ (ParquetBuffer ρ))
    (uploaded : List (τ × List ρ)) (batch : InputBatch τ ρ) (uploadOk : τ → Bool) :
    uploaded <+: (processBatch cfg buffers uploaded batch uploadOk).uploaded :=
  foldl_invariant (P := fun s : BufferState τ ρ => uploaded <+: s.uploaded)
    (fun s item _ h => h.trans (uploaded_uploadBufferAppend cfg batch.metadata uploadOk s item))
    (List.prefix_refl _)

theorem uploaded_drainBuffer (finish : ℕ → TransactionMetadata → TransactionMetadata)
    (uploadOk : τ → Bool) (s : BufferState τ ρ) (T : τ) :
    s.uploaded <+: (drainBuffer finish uploadOk s T).uploaded := by
  unfold drainBuffer
  split
  · exact List.prefix_refl _
  · split
    · exact List.prefix_refl _
    · split
      · split
        · simp only
          split <;> exact List.prefix_append _ _
        · exact List.prefix_refl _
      · exact List.prefix_refl _

theorem uploaded_drain (finish : ℕ → TransactionMetadata → TransactionMetadata)
    (buffers : Table τ (ParquetBuffer ρ)) (uploaded : List (τ × List ρ)) (order : List τ)
    (uploadOk : τ → Bool) :
    uploaded <+: (drain finish buffers uploaded order uploadOk).uploaded :=
  foldl_invariant (P := fun s : BufferState τ ρ => uploaded <+: s.uploaded)
    (fun s T _ h => h.trans (uploaded_drainBuffer finish uploadOk s T)) (List.prefix_refl _)

namespace Pipeline

/-- A later state of the same run. -/
structure Grows (st st' : Pipeline τ ρ) : Prop where
  start : st'.startVersion = st.startVersion
  inputs : st.inputs <+: st'.inputs
  uploaded : st.uploaded <+: st'.uploaded

omit [DecidableEq τ] in
theorem grows_finishBufferCall (st : Pipeline τ ρ) (stopped : Bool) {s : BufferState τ ρ}
    (h : st.uploaded <+: s.uploaded) : Grows st (finishBufferCall st s stopped) := by
  unfold finishBufferCall
  split <;> exact ⟨rfl, List.prefix_refl _, h⟩

theorem grows_step {cfg : BufferConfig τ ρ} {st st' : Pipeline τ ρ} {a : PipelineAction τ ρ}
    (h : step cfg st a = some st') : Grows st st' := by
  cases a with
  -- The only action that takes an input.
  | process batch uploadOk =>
    simp only [step] at h
    split at h
    next => cases h
    next =>
      obtain rfl := Option.some.inj h
      obtain ⟨h₁, h₂, h₃⟩ := grows_finishBufferCall { st with inputs := st.inputs ++ [batch] } false
        (uploaded_processBatch cfg st.internalBuffers st.uploaded batch uploadOk)
      exact ⟨h₁, (List.prefix_append _ _).trans h₂, h₃⟩
  | poll order uploadOk =>
    simp only [step] at h
    split at h
    next =>
      obtain rfl := Option.some.inj h
      exact grows_finishBufferCall st _ (uploaded_drain _ _ _ _ _)
    next => cases h
  | cleanup order uploadOk =>
    simp only [step] at h
    split at h
    next =>
      obtain rfl := Option.some.inj h
      exact grows_finishBufferCall st _ (uploaded_drain _ _ _ _ _)
    next => cases h
  | track order =>
    simp only [step] at h
    split at h
    next => cases h
    next =>
      split at h
      next =>
        obtain rfl := Option.some.inj h
        exact ⟨rfl, List.prefix_refl _, List.prefix_refl _⟩
      next => cases h
  | saveStatuses order saveOk =>
    simp only [step] at h
    split at h
    next =>
      obtain rfl := Option.some.inj h
      exact ⟨rfl, List.prefix_refl _, List.prefix_refl _⟩
    next => cases h

theorem UploadedAt.mono {st st' : Pipeline τ ρ} {T : τ} {v : ℕ} (h : st.UploadedAt T v)
    (hg : Grows st st') : st'.UploadedAt T v := by
  obtain ⟨done, hpre, hup, hbatch⟩ := h
  obtain ⟨more, hmore⟩ := hg.uploaded
  refine ⟨done, hpre.trans hg.inputs, hup.trans ?_, hbatch⟩
  unfold uploadedRows
  rw [← hmore, proj_append, List.flatten_append]
  exact List.prefix_append _ _

end Pipeline

omit [DecidableEq τ] in
/-- Contiguous batches leave no version out. -/
theorem exists_batch_of_isChain :
    ∀ {inputs : List (InputBatch τ ρ)} {first last : InputBatch τ ρ} {v : ℕ},
      inputs.IsChain Follows → inputs.head? = some first → last ∈ inputs →
      first.metadata.startVersion.toNat ≤ v → v ≤ last.metadata.endVersion.toNat →
      ∃ batch ∈ inputs, batch.metadata.startVersion.toNat ≤ v ∧
        v ≤ batch.metadata.endVersion.toNat := by
  intro inputs
  induction inputs with
  | nil => intro _ _ _ _ hfirst; cases hfirst
  | cons b inputs ih =>
    intro first last v hchain hfirst hlast hstart hend
    obtain rfl := Option.some.inj hfirst
    by_cases hv : v ≤ b.metadata.endVersion.toNat
    · exact ⟨b, List.mem_cons_self .., hstart, hv⟩
    · have hlast' : last ∈ inputs := by
        rcases List.mem_cons.mp hlast with rfl | h
        · exact absurd hend hv
        · exact h
      cases inputs with
      | nil => cases hlast'
      | cons b' inputs =>
        rw [List.isChain_cons_cons] at hchain
        have hnext := hchain.1.next
        obtain ⟨batch, hmem, hb⟩ := ih hchain.2 rfl hlast' (by omega) hend
        exact ⟨batch, List.mem_cons_of_mem _ hmem, hb⟩

/-- A saved status covers its table from the run's start on. -/
theorem Pipeline.Inv.uploadedAt {tables : List τ} {st : Pipeline τ ρ} (h : Inv tables st) {T : τ}
    {m : TransactionMetadata} (hm : (T, m) ∈ st.tracker.saved) {v : ℕ}
    (hstart : st.startVersion.toNat ≤ v) (hend : v ≤ m.endVersion.toNat) :
    st.UploadedAt T v := by
  obtain ⟨done, hpre, hrows, last, hlast, hlastEnd⟩ := h.exists_done (h.tracker.saved (T, m) hm)
  obtain ⟨first, hfirst⟩ : ∃ first, done.head? = some first := by
    cases done with
    | nil => cases hlast
    | cons first rest => exact ⟨first, rfl⟩
  have hhead : st.inputs.head? = some first := by
    obtain ⟨rest, hrest⟩ := hpre
    rw [← hrest, List.head?_append, hfirst]
    rfl
  refine ⟨done, hpre, hrows ▸ List.prefix_refl _, ?_⟩
  refine exists_batch_of_isChain ( List.IsChain.prefix h.buffer.chain hpre) hfirst hlast ?_ ?_
  · rw [(h.buffer.first first hhead).1]
    exact hstart
  · exact hlastEnd ▸ hend

end Grows

/-! ## What the rows say -/

namespace ParquetProcessor

variable {ρ : Type} {pp : ParquetProcessor ρ} {st st' : ParquetHistory ρ}

/-- Uploaded by a run of the history. -/
def Uploaded (st : ParquetHistory ρ) (T : ParquetTypeEnum) (v : ℕ) : Prop :=
  ∃ run, (run ∈ st.finished ∨ st.active = some run) ∧ run.UploadedAt T v

/-- The run in progress is sound and started safely, and a table's row vouches
for all versions up to it. -/
structure HistoryInv (pp : ParquetProcessor ρ) (st : ParquetHistory ρ) : Prop where
  run : ∀ run, st.active = some run → Pipeline.Inv pp.emitted run
  safe : pp.ResumedSafely st
  rows : ∀ T ∈ pp.emitted, ∀ row, st.db.processorStatus.lookup (pp.statusKey T) = some row →
    ∀ v, pp.initialStartingVersion.toNat ≤ v → v ≤ row.lastSuccessVersion.toUInt64.toNat →
      Uploaded st T v

theorem statusKey_injective : Function.Injective pp.statusKey :=
  (formatTableName_injective _).comp ParquetTypeEnum.toString_injective

/-- A save changes its own table's row only, to the version saved. -/
theorem lookup_saveParquetProcessorStatus {db : StatusDb}
    {e : ParquetTypeEnum × TransactionMetadata} {T : ParquetTypeEnum} {row : ProcessorStatus}
    (h : (pp.saveParquetProcessorStatus db e).processorStatus.lookup (pp.statusKey T) = some row) :
    db.processorStatus.lookup (pp.statusKey T) = some row ∨
      (e.1 = T ∧ row.lastSuccessVersion.toUInt64 = e.2.endVersion) := by
  by_cases hT : e.1 = T
  · subst hT
    simp only [saveParquetProcessorStatus, saveProcessorStatus, mode] at h
    rw [Table.lookup_upsert_self] at h
    cases hold : db.processorStatus.lookup (pp.statusKey e.1) with
    | none =>
      rw [hold] at h
      obtain rfl := Option.some.inj h
      exact Or.inr ⟨rfl, UInt64.toUInt64_toInt64 _⟩
    | some old =>
      rw [hold] at h
      simp only [Table.merged, forwardOnly] at h
      split at h
      · obtain rfl := Option.some.inj h
        exact Or.inr ⟨rfl, UInt64.toUInt64_toInt64 _⟩
      · exact Or.inl h
  · have hne : pp.statusKey T ≠ pp.statusKey e.1 := fun hk => hT (statusKey_injective hk).symm
    simp only [saveParquetProcessorStatus, saveProcessorStatus, mode] at h
    rw [Table.lookup_upsert_ne _ _ _ hne] at h
    exact Or.inl h

theorem lookup_foldl_save {db : StatusDb} {saved : List (ParquetTypeEnum × TransactionMetadata)}
    {T : ParquetTypeEnum} :
    ∀ row, (saved.foldl pp.saveParquetProcessorStatus db).processorStatus.lookup (pp.statusKey T) =
        some row →
      db.processorStatus.lookup (pp.statusKey T) = some row ∨
        ∃ m, (T, m) ∈ saved ∧ row.lastSuccessVersion.toUInt64 = m.endVersion := by
  refine foldl_invariant (P := fun db' : StatusDb => ∀ row,
    db'.processorStatus.lookup (pp.statusKey T) = some row →
      db.processorStatus.lookup (pp.statusKey T) = some row ∨
        ∃ m, (T, m) ∈ saved ∧ row.lastSuccessVersion.toUInt64 = m.endVersion) ?_
    (fun row h => Or.inl h)
  intro db' item hmem ih row hrow
  obtain ⟨T', m⟩ := item
  rcases lookup_saveParquetProcessorStatus hrow with hold | ⟨rfl, hv⟩
  · exact ih row hold
  · exact Or.inr ⟨m, hmem, hv⟩

/-! ## Each action keeps it -/

theorem historyInv_init : HistoryInv pp init :=
  ⟨(fun _ h => nomatch h), (fun _ h => nomatch h), (fun _ _ _ h => nomatch h)⟩

/-- What a start does. -/
theorem start_cases {queries : StatusQueries} (h : pp.step st (.start queries) = some st') :
    st.active = none ∧ ∃ names,
      getProcessorStatusTableNames pp.toLowercase pp.processor pp.backfillTable = .ok names ∧
      ((getMinProcessedVersionFromDb queries st.db names = none ∧
          st' = { st with active := some (Pipeline.init pp.initialStartingVersion) }) ∨
        ∃ version, getMinProcessedVersionFromDb queries st.db names = some version ∧
          st' = { st with
            active := some (Pipeline.init (max version pp.initialStartingVersion)) }) := by
  simp only [step, getParquetStartingVersion] at h
  cases hact : st.active with
  | some run =>
    rw [hact] at h
    cases h
  | none =>
    cases hnames : getProcessorStatusTableNames pp.toLowercase pp.processor pp.backfillTable with
    | error e =>
      rw [hact, hnames] at h
      cases h
    | ok names =>
      refine ⟨rfl, names, rfl, ?_⟩
      rw [hact, hnames] at h
      cases hmin : getMinProcessedVersionFromDb queries st.db names with
      | none =>
        simp only [bind, Except.bind, pure, Except.pure, mode, parquetStartingVersion, hmin] at h
        exact Or.inl ⟨rfl, (Option.some.inj h).symm⟩
      | some version =>
        simp only [bind, Except.bind, pure, Except.pure, mode, parquetStartingVersion, hmin] at h
        exact Or.inr ⟨version, rfl, (Option.some.inj h).symm⟩

/-- A start keeps every table covered if the checkpoints it reads count. -/
theorem historyInv_start {queries : StatusQueries} (h : HistoryInv pp st)
    (hcount : pp.CheckpointsCount st (.start queries))
    (hstep : pp.step st (.start queries) = some st') : HistoryInv pp st' := by
  obtain ⟨hact, names, hnames, ⟨_, rfl⟩ | ⟨version, hmin, rfl⟩⟩ := start_cases hstep
  · refine ⟨?_, ?_, ?_⟩
    · intro run hrun
      obtain rfl := Option.some.inj hrun
      exact Pipeline.inv_init _ _
    · intro run hrun T _ v hge hlt
      obtain rfl := Option.some.inj hrun
      exact absurd hlt (Nat.not_lt.mpr hge)
    · intro T hT row hrow v hge hle
      obtain ⟨run, hrun | hrun, hup⟩ := h.rows T hT row hrow v hge hle
      · exact ⟨run, Or.inl hrun, hup⟩
      · rw [hact] at hrun
        cases hrun
  · have hpast : ∀ T v, Uploaded st T v → ∃ past ∈ st.finished, past.UploadedAt T v := by
      intro T v hup
      obtain ⟨run, hrun | hrun, hup⟩ := hup
      · exact ⟨run, hrun, hup⟩
      · rw [hact] at hrun
        cases hrun
    obtain ⟨hmem, hleast⟩ := List.min?_eq_some_iff.mp hmin
    obtain ⟨name₀, hname₀, hversion₀⟩ := List.mem_filterMap.mp hmem
    refine ⟨?_, ?_, ?_⟩
    · intro run hrun
      obtain rfl := Option.some.inj hrun
      exact Pipeline.inv_init _ _
    · intro run hrun T hT v hge hlt
      obtain rfl := Option.some.inj hrun
      -- Below the start and not below the configured version: below the minimum.
      have hlt' : v < version.toNat := by
        have hmax : v < (max version pp.initialStartingVersion).toNat := hlt
        rcases max_choice version pp.initialStartingVersion with hm | hm <;> rw [hm] at hmax
        · exact hmax
        · omega
      rcases hcount names (by rw [hnames]; rfl) with hnone | htables
      · rw [hnone name₀ hname₀] at hversion₀
        cases hversion₀
      · obtain ⟨name, hname, version', hversion', hle⟩ := htables T hT
        -- The checkpoint that counts for `T` is one of those the minimum is over.
        have hminle : version.toNat ≤ version'.toNat := UInt64.le_iff_toNat_le.mp
          (hleast version' (List.mem_filterMap.mpr ⟨name, hname, hversion'⟩))
        rcases hle with hle | ⟨row, hrow, hle⟩
        · have := UInt64.le_iff_toNat_le.mp hle
          omega
        · have := UInt64.le_iff_toNat_le.mp hle
          exact hpast T v (h.rows T hT row hrow v hge (by omega))
    · intro T hT row hrow v hge hle
      obtain ⟨past, hp, hup⟩ := hpast T v (h.rows T hT row hrow v hge hle)
      exact ⟨past, Or.inl hp, hup⟩

/-- A call of a step may save statuses, which the run has earned. -/
theorem historyInv_call (hsize : ∀ T rows, 0 < pp.buffer.calculateSize T rows)
    {a : PipelineAction ParquetTypeEnum ρ} (h : HistoryInv pp st)
    (hin : pp.InputOk st (.call a)) (hstep : pp.step st (.call a) = some st') :
    HistoryInv pp st' := by
  simp only [step] at hstep
  cases hact : st.active with
  | none =>
    rw [hact] at hstep
    cases hstep
  | some run =>
    rw [hact] at hstep
    obtain ⟨run', hrun', rfl⟩ := Option.map_eq_some_iff.mp hstep
    have hinv := Pipeline.inv_step hsize (nodup_emittedTables _ _) (h.run run hact)
      (hin run hact) hrun'
    have hgrows := Pipeline.grows_step hrun'
    have hstart : ∀ T ∈ pp.emitted, ∀ v, pp.initialStartingVersion.toNat ≤ v →
        v < run'.startVersion.toNat → ∃ past ∈ st.finished, past.UploadedAt T v := by
      rw [hgrows.start]
      exact h.safe run hact
    refine ⟨?_, ?_, ?_⟩
    · intro _ hrun
      obtain rfl := Option.some.inj hrun
      exact hinv
    · intro _ hrun
      obtain rfl := Option.some.inj hrun
      exact hstart
    · intro T hT row hrow v hge hle
      rcases lookup_foldl_save row hrow with hold | ⟨m, hm, hv⟩
      · obtain ⟨past, hp | hp, hup⟩ := h.rows T hT row hold v hge hle
        · exact ⟨past, Or.inl hp, hup⟩
        · obtain rfl := Option.some.inj (hact.symm.trans hp)
          exact ⟨run', Or.inr rfl, hup.mono hgrows⟩
      · -- A row saved in this call: earlier runs cover what is before the start.
        by_cases hlt : v < run'.startVersion.toNat
        · obtain ⟨past, hp, hup⟩ := hstart T hT v hge hlt
          exact ⟨past, Or.inl hp, hup⟩
        · exact ⟨run', Or.inr rfl, hinv.uploadedAt (List.mem_of_mem_drop hm) (Nat.not_lt.mp hlt)
            (hv ▸ hle)⟩

theorem historyInv_stop (h : HistoryInv pp st) (hstep : pp.step st .stop = some st') :
    HistoryInv pp st' := by
  simp only [step] at hstep
  cases hact : st.active with
  | none =>
    rw [hact] at hstep
    cases hstep
  | some run =>
    rw [hact] at hstep
    obtain rfl := Option.some.inj hstep
    refine ⟨(fun _ h => nomatch h), (fun _ h => nomatch h), ?_⟩
    intro T hT row hrow v hge hle
    obtain ⟨past, hp | hp, hup⟩ := h.rows T hT row hrow v hge hle
    · exact ⟨past, Or.inl (List.mem_cons_of_mem _ hp), hup⟩
    · obtain rfl := Option.some.inj (hact.symm.trans hp)
      exact ⟨run, Or.inl (List.mem_cons_self ..), hup⟩

end ParquetProcessor

/-- **Resuming.** In every history in which the checkpoints read at each start
leave no emitted table behind, every run starts no later than the first version
some table still lacks. -/
theorem resume_skips_nothing {ρ : Type} (pp : ParquetProcessor ρ)
    (hsize : ∀ T rows, 0 < pp.buffer.calculateSize T rows) (trace : List (ParquetAction ρ))
    (st : ParquetHistory ρ)
    (hrun : Run pp.step (fun st a => pp.InputOk st a ∧ pp.CheckpointsCount st a)
      ParquetProcessor.init trace st) :
    pp.ResumedSafely st := by
  have hinv : pp.HistoryInv st := by
    refine hrun.invariant ParquetProcessor.historyInv_init fun st a st' h hC hstep => ?_
    cases a with
    | start queries => exact ParquetProcessor.historyInv_start h hC.2 hstep
    | call a => exact ParquetProcessor.historyInv_call hsize h hC.1 hstep
    | stop => exact ParquetProcessor.historyInv_stop h hstep
  exact hinv.safe

/-- A processor with small buffers: two batches of three rows overflow one, two
batches of one row do not. -/
def tinyProcessor (processor : ProcessorName) : ParquetProcessor ℕ where
  sdk := ⟨id, fun _ => none, fun _ => none, fun ts _ => ts.seconds.toInt * 1000000⟩
  toLowercase := id
  processor := processor
  backfillTable := []
  initialStartingVersion := 0
  buffer := ⟨4, fun _ rows => rows.length + 1⟩

/-- Two batches, the second of which flushes one table; its checkpoint is saved;
then a crash and a restart. -/
def crashTrace (rows : List (ParquetTypeEnum × List ℕ)) (flushed : ParquetTypeEnum) :
    List (ParquetAction ℕ) :=
  [.start ⟨fun _ => true, fun _ => true⟩,
   .call (.process ⟨rows, ⟨0, 5, none, none, 0⟩⟩ fun _ => true),
   .call (.process ⟨rows, ⟨6, 7, none, none, 0⟩⟩ fun _ => true),
   .call (.track [(flushed, ⟨0, 5, none, none, 0⟩)]),
   .call (.saveStatuses [flushed] fun _ => true),
   .stop,
   .start ⟨fun _ => true, fun _ => true⟩]

theorem resume_skips_nothing_events :
    ∃ st, Run (tinyProcessor .parquetEventsProcessor).step
        (fun st a => (tinyProcessor .parquetEventsProcessor).InputOk st a ∧
          (tinyProcessor .parquetEventsProcessor).CheckpointsCount st a)
        ParquetProcessor.init (crashTrace [(.events, [10, 11, 12])] .events) st ∧
      (∃ run ∈ st.active, run.startVersion = 5) ∧
      (tinyProcessor .parquetEventsProcessor).ResumedSafely st := by
  obtain ⟨st, hrun, hstart⟩ := exists_run (tinyProcessor .parquetEventsProcessor).step
    (fun st a => (tinyProcessor .parquetEventsProcessor).InputOk st a ∧
      (tinyProcessor .parquetEventsProcessor).CheckpointsCount st a)
    ParquetProcessor.init (crashTrace [(.events, [10, 11, 12])] .events)
    (fun st => ∃ run ∈ st.active, run.startVersion = 5) (by decide +kernel)
  exact ⟨st, hrun, hstart, resume_skips_nothing _ (fun _ _ => Nat.succ_pos _) _ _ hrun⟩

/-- An uploaded version is in a batch whose rows are all uploaded. -/
theorem Pipeline.UploadedAt.exists_batch {τ ρ : Type} [DecidableEq τ] {st : Pipeline τ ρ} {T : τ}
    {v : ℕ} (h : st.UploadedAt T v) :
    ∃ batch ∈ st.inputs, batch.metadata.startVersion.toNat ≤ v ∧
      v ≤ batch.metadata.endVersion.toNat ∧ ∀ row ∈ rowsOf T batch, row ∈ st.uploadedRows T := by
  obtain ⟨done, hpre, hup, batch, hb, hv⟩ := h
  refine ⟨batch, hpre.subset hb, hv.1, hv.2, fun row hrow => hup.subset ?_⟩
  exact List.mem_flatMap.mpr ⟨batch, hb, hrow⟩

/-- One of four tables was flushed and saved before the crash. The other three
have no row, so the next run starts at version `5`, and the primary names of
versions `0` to `4` are never uploaded. -/
theorem ans_resume_skips_primary_names :
    ∃ st, Run (tinyProcessor .parquetAnsProcessor).step
        (tinyProcessor .parquetAnsProcessor).InputOk ParquetProcessor.init
        (crashTrace [(.ansLookupV2, [20, 21, 22]), (.currentAnsLookupV2, []),
          (.currentAnsPrimaryNameV2, []), (.ansPrimaryNameV2, [10])] .ansLookupV2) st ∧
      (∃ run ∈ st.active, run.startVersion = 5) ∧
      ¬ (tinyProcessor .parquetAnsProcessor).ResumedSafely st := by
  obtain ⟨st, hrun, ⟨run, hact, hstart⟩, hlost⟩ := exists_run
    (tinyProcessor .parquetAnsProcessor).step (tinyProcessor .parquetAnsProcessor).InputOk
    ParquetProcessor.init
    (crashTrace [(.ansLookupV2, [20, 21, 22]), (.currentAnsLookupV2, []),
      (.currentAnsPrimaryNameV2, []), (.ansPrimaryNameV2, [10])] .ansLookupV2)
    (fun st => (∃ run ∈ st.active, run.startVersion = 5) ∧
      ∀ past ∈ st.finished, (10 : ℕ) ∉ past.uploadedRows .ansPrimaryNameV2 ∧
        ∀ batch ∈ past.inputs, 10 ∈ rowsOf .ansPrimaryNameV2 batch) (by decide +kernel)
  refine ⟨st, hrun, ⟨run, hact, hstart⟩, fun hsafe => ?_⟩
  obtain ⟨past, hpast, hup⟩ := hsafe run hact .ansPrimaryNameV2 (by decide +kernel) 0
    (Nat.le_refl _) (by rw [hstart]; decide)
  obtain ⟨batch, hbatch, _, _, hrows⟩ := hup.exists_batch
  exact (hlost past hpast).1 (hrows 10 ((hlost past hpast).2 batch hbatch))

end IndexerProcessors.Parquet

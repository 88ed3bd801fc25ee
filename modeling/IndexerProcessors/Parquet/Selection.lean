import IndexerProcessors.Parquet.Config

/-!
# Backfilling some of the tables

`backfill_table` names the tables a parquet processor is to backfill, and four
places read it. The validator lowers each name and looks it up among the
processor's tables. The flags are found by the name as given, and exist in upper
case only; without a known flag every table is emitted. The status queries ask
for the name as given. The status saver writes under `processor.table`.

The documentation of `get_processor_status_table_names` promises the prefix,
and its branch for an empty set adds it. The other branch does not, and so no
selection finds its own checkpoints: `selection_inconsistent`.
-/

namespace IndexerProcessors.Parquet

/-- A table named by the selection, compared as the validator does. -/
def Selected (toLowercase : String → String) (backfillTable : List String)
    (T : ParquetTypeEnum) : Prop :=
  ∃ name ∈ backfillTable, toLowercase name = T.toString

/-- The extractor emits the selected tables. -/
def EmitsSelected (toLowercase : String → String) (processor : ProcessorName)
    (backfillTable : List String) : Prop :=
  ∀ T, T ∈ emittedTables processor (setBackfillTableFlag backfillTable) ↔
    Selected toLowercase backfillTable T

/-- The status queries ask for the keys under which the status saver writes the
selected tables' checkpoints. -/
def ReadsSelected (toLowercase : String → String) (processor : ProcessorName)
    (backfillTable statusTableNames : List String) : Prop :=
  ∀ key, key ∈ statusTableNames ↔
    ∃ T, Selected toLowercase backfillTable T ∧ key = formatTableName processor.toString T.toString

/-! ## What the validator accepts -/

/-- An accepted selection comes back as it was given, and each of its names is,
in lower case, one of the processor's tables. -/
theorem validateBackfillTableNames_ok {toLowercase : String → String} {valid : List String} :
    ∀ {names accepted : List String},
      validateBackfillTableNames toLowercase names valid = .ok accepted →
      accepted = names ∧ ∀ name ∈ names, toLowercase name ∈ valid := by
  intro names
  induction names with
  | nil =>
    intro accepted h
    obtain rfl := Except.ok.inj h
    exact ⟨rfl, fun _ h => nomatch h⟩
  | cons name names ih =>
    intro accepted h
    unfold validateBackfillTableNames at h
    rw [List.mapM_cons] at h
    by_cases hname : toLowercase name ∈ valid
    · rw [if_pos hname] at h
      change (do
        let rest ← validateBackfillTableNames toLowercase names valid
        pure (name :: rest)) = Except.ok accepted at h
      cases hrest : validateBackfillTableNames toLowercase names valid with
      | error e =>
        rw [hrest] at h
        cases h
      | ok rest =>
        rw [hrest] at h
        obtain rfl := Except.ok.inj h
        obtain ⟨rfl, hvalid⟩ := ih hrest
        exact ⟨rfl, List.forall_mem_cons.mpr ⟨hname, hvalid⟩⟩
    · rw [if_neg hname] at h
      cases h

theorem getProcessorStatusTableNames_ok {toLowercase : String → String}
    {processor : ProcessorName} {backfillTable accepted : List String}
    (hne : backfillTable ≠ [])
    (h : getProcessorStatusTableNames toLowercase processor backfillTable = .ok accepted) :
    accepted = backfillTable ∧ ∀ name ∈ backfillTable, toLowercase name ∈ tableNames processor := by
  unfold getProcessorStatusTableNames at h
  split at h
  · exact validateBackfillTableNames_ok h
  · cases h

/-! ## Keys and names -/

/-- Table names have no separator in them. -/
theorem dot_notMem_of_mem_tableNames {processor : ProcessorName} {name : String}
    (h : name ∈ tableNames processor) : '.' ∉ name.toList := by
  have hall : ∀ name ∈ tableNames processor, '.' ∉ name.toList := by
    cases processor <;> decide +kernel
  exact hall name h

/-- The key of a status has one. -/
theorem dot_mem_formatTableName (pre tableName : String) :
    '.' ∈ (formatTableName pre tableName).toList := by
  unfold formatTableName
  simp

/-- Without the name of a flag every table is emitted. -/
theorem emittedTables_of_no_flag {processor : ProcessorName} {backfillTable : List String}
    (h : ∀ name ∈ backfillTable, TableFlags.fromName name = none) :
    emittedTables processor (setBackfillTableFlag backfillTable) =
      (dataTypes processor).map Prod.snd := by
  have hflags : setBackfillTableFlag backfillTable = 0 := by
    unfold setBackfillTableFlag
    induction backfillTable with
    | nil => rfl
    | cons name names ih =>
      rw [List.foldl_cons, h name (List.mem_cons_self ..)]
      exact ih fun n hn => h n (List.mem_cons_of_mem _ hn)
  unfold emittedTables
  rw [hflags]
  simp

/-- **No selection is consistent.** Whatever tables are named and however they
are spelled, the extractor emits other tables or the status queries ask for
other keys than the checkpoints are saved under. Of `str::to_lowercase` this
needs only that it keeps the character `.` where there is one. -/
theorem selection_inconsistent (toLowercase : String → String)
    (hdot : ∀ s : String, '.' ∈ s.toList → '.' ∈ (toLowercase s).toList)
    (processor : ProcessorName) (backfillTable statusTableNames : List String)
    (hne : backfillTable ≠ [])
    (haccepted : getProcessorStatusTableNames toLowercase processor backfillTable =
      .ok statusTableNames) :
    ¬ (EmitsSelected toLowercase processor backfillTable ∧
        ReadsSelected toLowercase processor backfillTable statusTableNames) := by
  intro h
  obtain ⟨rfl, hvalid⟩ := getProcessorStatusTableNames_ok hne haccepted
  obtain ⟨name, hname⟩ := List.exists_mem_of_ne_nil _ hne
  obtain ⟨T, -, hkey⟩ := (h.2 name).mp hname
  -- An accepted name has no separator, the key it would have to be has one.
  refine dot_notMem_of_mem_tableNames (hvalid name hname) (hdot name ?_)
  rw [hkey]
  exact dot_mem_formatTableName ..

/-- A name that `test_duplicate_table_names_in_backfill_names` accepts. All eight
tables are emitted for it, and the status is looked up without the processor's
prefix. -/
theorem transactions_selection_inconsistent :
    getProcessorStatusTableNames String.toLower .parquetDefaultProcessor ["transactions"] =
        .ok ["transactions"] ∧
      ¬ EmitsSelected String.toLower .parquetDefaultProcessor ["transactions"] ∧
      ¬ ReadsSelected String.toLower .parquetDefaultProcessor ["transactions"]
        ["transactions"] := by
  have hselected : ∀ T, Selected String.toLower ["transactions"] T → T = .transactions := by
    intro T h
    obtain ⟨name, hname, hT⟩ := h
    obtain rfl := List.mem_singleton.mp hname
    exact ParquetTypeEnum.toString_injective (hT.symm.trans (by decide +kernel))
  refine ⟨by decide +kernel, fun h => ?_, fun h => ?_⟩
  · have hmem : ParquetTypeEnum.tableItems ∈
        emittedTables .parquetDefaultProcessor (setBackfillTableFlag ["transactions"]) := by
      rw [emittedTables_of_no_flag (by decide +kernel)]
      decide
    exact absurd (hselected _ ((h _).mp hmem)) (by decide)
  · obtain ⟨T, -, hkey⟩ := (h "transactions").mp (List.mem_singleton.mpr rfl)
    have hdot := dot_mem_formatTableName ProcessorName.parquetDefaultProcessor.toString T.toString
    rw [← hkey] at hdot
    exact absurd hdot (by decide)

/-- In upper case one table is emitted, and the status is still not found. -/
theorem selection_inconsistent_upper_case :
    ¬ (EmitsSelected String.toLower .parquetDefaultProcessor ["TRANSACTIONS"] ∧
        ReadsSelected String.toLower .parquetDefaultProcessor ["TRANSACTIONS"]
          ["TRANSACTIONS"]) := by
  refine selection_inconsistent String.toLower ?_ .parquetDefaultProcessor ["TRANSACTIONS"]
    ["TRANSACTIONS"] (by decide) (by decide +kernel)
  intro s h
  unfold String.toLower
  rw [String.toList_map]
  exact List.mem_map.mpr ⟨'.', h, by decide⟩

end IndexerProcessors.Parquet

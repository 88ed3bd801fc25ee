import IndexerProcessors.Parquet.Config
import IndexerProcessors.Status.Saver

/-!
# Checkpoint aliases

A backfill's progress is stored under the name of what is processed — a
processor, or a table of a parquet processor — and the backfill id, joined by an
underscore. Names and ids have underscores themselves, so two names can share an
alias where one of them, with an underscore, begins the other
(`isPrefix_of_backfillAlias_eq`). Among the names there are, that is one pair.
-/

namespace IndexerProcessors.Parquet

open IndexerProcessors.Status

/-- The enum's variants, in order. -/
def ProcessorName.iter : List ProcessorName :=
  [.accountRestorationProcessor, .accountTransactionsProcessor, .addressReputationProcessor,
   .ansProcessor, .defaultProcessor, .eventsProcessor, .fungibleAssetProcessor,
   .userTransactionProcessor, .stakeProcessor, .tokenV2Processor, .objectsProcessor,
   .monitoringProcessor, .gasFeeProcessor, .parquetDefaultProcessor, .parquetObjectsProcessor,
   .parquetUserTransactionProcessor, .parquetEventsProcessor, .parquetAnsProcessor,
   .parquetFungibleAssetProcessor, .parquetTransactionMetadataProcessor,
   .parquetAccountTransactionsProcessor, .parquetTokenV2Processor, .parquetStakeProcessor]

/-- The tables of a processor: those its extractor emits, and those the status
queries go through. -/
def statusTables (processor : ProcessorName) : List String :=
  (dataTypes processor).map (fun entry => entry.2.toString) ++ tableNames processor

/-- The names statuses are kept under: the processors, and their tables. -/
def statusKeys : List String :=
  ProcessorName.iter.flatMap fun processor =>
    processor.toString :: (statusTables processor).map (formatTableName processor.toString)

/-- A name the system keeps statuses under. -/
abbrev StatusKey := {key : String // key ∈ statusKeys}

/-- The balances of the parquet fungible asset processor. -/
def balancesKey : String :=
  formatTableName ProcessorName.parquetFungibleAssetProcessor.toString
    ParquetTypeEnum.currentFungibleAssetBalances.toString

/-- The legacy balances of the same processor. -/
def legacyBalancesKey : String :=
  formatTableName ProcessorName.parquetFungibleAssetProcessor.toString
    ParquetTypeEnum.currentFungibleAssetBalancesLegacy.toString

/-! ## When two names can share an alias -/

section Separator

variable {α : Type} {sep : α}

/-- A prefix without the separator ends before it. -/
theorem prefix_of_prefix_append_sep {p : List α} :
    ∀ {l t : List α}, sep ∉ l → l <+: p ++ sep :: t → l <+: p := by
  induction p with
  | nil =>
    intro l t hl h
    cases l with
    | nil => exact List.nil_prefix
    | cons a l =>
      obtain ⟨rfl, _⟩ := List.cons_prefix_cons.mp h
      exact absurd List.mem_cons_self hl
  | cons a p ih =>
    intro l t hl h
    cases l with
    | nil => exact List.nil_prefix
    | cons b l =>
      obtain ⟨rfl, hrest⟩ := List.cons_prefix_cons.mp h
      have hl' : sep ∉ l := fun hmem => hl (List.mem_cons_of_mem _ hmem)
      exact List.cons_prefix_cons.mpr ⟨rfl, ih hl' hrest⟩

/-- A prefix with the separator agrees on what stands before it. -/
theorem eq_of_append_sep_prefix {p : List α} :
    ∀ {p' t t' : List α}, sep ∉ p → sep ∉ p' → p ++ sep :: t <+: p' ++ sep :: t' →
      p = p' ∧ t <+: t' := by
  induction p with
  | nil =>
    intro p' t t' _ hp' h
    cases p' with
    | nil => exact ⟨rfl, (List.cons_prefix_cons.mp h).2⟩
    | cons b p' =>
      obtain ⟨rfl, _⟩ := List.cons_prefix_cons.mp h
      exact absurd List.mem_cons_self hp'
  | cons a p ih =>
    intro p' t t' hp hp' h
    cases p' with
    | nil =>
      obtain ⟨rfl, _⟩ := List.cons_prefix_cons.mp h
      exact absurd List.mem_cons_self hp
    | cons b p' =>
      obtain ⟨rfl, hrest⟩ := List.cons_prefix_cons.mp h
      obtain ⟨rfl, ht⟩ := ih (fun hmem => hp (List.mem_cons_of_mem _ hmem))
        (fun hmem => hp' (List.mem_cons_of_mem _ hmem)) hrest
      exact ⟨rfl, ht⟩

end Separator

/-- Two names with an alias in common: one of them goes on, after an underscore,
where the other ends. -/
theorem isPrefix_of_backfillAlias_eq {k k' b b' : String} (hne : k ≠ k')
    (h : backfillAlias k b = backfillAlias k' b') :
    k.toList ++ ['_'] <+: k'.toList ∨ k'.toList ++ ['_'] <+: k.toList := by
  have halias : ∀ k b : String, (backfillAlias k b).toList = k.toList ++ ['_'] ++ b.toList := by
    intro k b
    rw [backfillAlias, String.toList_append, String.toList_append]
    rfl
  have hk : k.toList ++ ['_'] <+: (backfillAlias k b).toList := ⟨b.toList, (halias k b).symm⟩
  have hk' : k'.toList ++ ['_'] <+: (backfillAlias k b).toList := by
    rw [h]
    exact ⟨b'.toList, (halias k' b').symm⟩
  have hcomparable := List.prefix_or_prefix_of_prefix hk hk'
  -- the shorter of two comparable names ends before the other's underscore
  have hshorter : ∀ {l l' : List Char}, l ++ ['_'] <+: l' ++ ['_'] → l = l' ∨ l ++ ['_'] <+: l' := by
    intro l l' hpre
    rcases List.prefix_concat_iff.mp hpre with heq | hpre
    · exact Or.inl (List.append_cancel_right heq)
    · exact Or.inr hpre
  rcases hcomparable with hpre | hpre
  · rcases hshorter hpre with heq | hpre
    · exact absurd (String.toList_inj.mp heq) hne
    · exact Or.inl hpre
  · rcases hshorter hpre with heq | hpre
    · exact absurd (String.toList_inj.mp heq).symm hne
    · exact Or.inr hpre

/-! ## The names there are -/

theorem dot_notMem_processorName (processor : ProcessorName) :
    '.' ∉ processor.toString.toList := by
  cases processor <;> decide

theorem ProcessorName.mem_iter (processor : ProcessorName) : processor ∈ iter := by
  cases processor <;> decide

theorem ProcessorName.toString_injective : Function.Injective ProcessorName.toString := by
  have hnodup : (iter.map ProcessorName.toString).Nodup := by decide +kernel
  intro p p' h
  exact List.inj_on_of_nodup_map hnodup p.mem_iter p'.mem_iter h

theorem processorNames_separated (processor processor' : ProcessorName) :
    ¬ processor.toString.toList ++ ['_'] <+: processor'.toString.toList := by
  have hall : ∀ p ∈ ProcessorName.iter, ∀ p' ∈ ProcessorName.iter,
      ¬ p.toString.toList ++ ['_'] <+: p'.toString.toList := by
    decide +kernel
  exact hall processor processor.mem_iter processor' processor'.mem_iter

theorem tableNames_separated (processor : ProcessorName) :
    ∀ t ∈ statusTables processor, ∀ t' ∈ statusTables processor,
      t.toList ++ ['_'] <+: t'.toList →
        formatTableName processor.toString t = balancesKey ∧
          formatTableName processor.toString t' = legacyBalancesKey := by
  cases processor <;> decide +kernel

theorem mem_statusKeys {k : String} :
    k ∈ statusKeys ↔ ∃ processor : ProcessorName, k = processor.toString ∨
      ∃ t ∈ statusTables processor, k = formatTableName processor.toString t := by
  simp only [statusKeys, List.mem_flatMap, List.mem_cons, List.mem_map, eq_comm (b := k)]
  exact ⟨fun ⟨p, _, hp⟩ => ⟨p, hp⟩, fun ⟨p, hp⟩ => ⟨p, p.mem_iter, hp⟩⟩

theorem toList_formatTableName (pre tableName : String) :
    (formatTableName pre tableName).toList = pre.toList ++ '.' :: tableName.toList := by
  rw [formatTableName, String.toList_append, String.toList_append, List.append_assoc]
  rfl

/-- One name goes on after an underscore where another ends in one case only. -/
theorem statusKeys_separated {k k' : String} (hk : k ∈ statusKeys) (hk' : k' ∈ statusKeys)
    (h : k.toList ++ ['_'] <+: k'.toList) : k = balancesKey ∧ k' = legacyBalancesKey := by
  obtain ⟨p, rfl | ⟨t, ht, rfl⟩⟩ := mem_statusKeys.mp hk
  · -- a processor's name begins no other name: the dot would have to be in it
    have hdot : '.' ∉ p.toString.toList ++ ['_'] := by
      simpa using dot_notMem_processorName p
    obtain ⟨p', rfl | ⟨t', _, rfl⟩⟩ := mem_statusKeys.mp hk'
    · exact absurd h (processorNames_separated p p')
    · rw [toList_formatTableName] at h
      exact absurd (prefix_of_prefix_append_sep hdot h) (processorNames_separated p p')
  · rw [toList_formatTableName, List.append_assoc, List.cons_append] at h
    obtain ⟨p', rfl | ⟨t', ht', rfl⟩⟩ := mem_statusKeys.mp hk'
    · have hmem : '.' ∈ p'.toString.toList := h.subset (by simp)
      exact absurd hmem (dot_notMem_processorName p')
    · rw [toList_formatTableName] at h
      obtain ⟨hname, htable⟩ := eq_of_append_sep_prefix (dot_notMem_processorName p)
        (dot_notMem_processorName p') h
      obtain rfl : p = p' := ProcessorName.toString_injective (String.toList_inj.mp hname)
      exact tableNames_separated p t ht t' ht' htable

/-! ## Aliases -/

/-- The balances under an id that begins with `legacy_`, and the legacy balances
under the rest of it. -/
structure AliasClash (key id key' id' : String) : Prop where
  balances : key = balancesKey
  legacy : key' = legacyBalancesKey
  ids : id = "legacy_" ++ id'

theorem legacyBalancesKey_eq : legacyBalancesKey = balancesKey ++ "_legacy" := by
  decide +kernel

theorem backfillAlias_legacy_iff {id id' : String} :
    backfillAlias balancesKey id = backfillAlias legacyBalancesKey id' ↔ id = "legacy_" ++ id' := by
  have hlegacy : backfillAlias legacyBalancesKey id' = balancesKey ++ "_" ++ ("legacy_" ++ id') := by
    rw [backfillAlias, legacyBalancesKey_eq]
    simp only [String.append_assoc]
    rfl
  rw [hlegacy, backfillAlias]
  exact String.append_right_inj _

/-- Two pairs of a status key and a backfill id share an alias only if they are such
a pair of the two balances tables. -/
theorem backfillAlias_ne_iff (key key' : StatusKey) (id id' : String) :
    ((key, id) ≠ (key', id') → backfillAlias key id ≠ backfillAlias key' id') ↔
      ¬ AliasClash key id key' id' ∧ ¬ AliasClash key' id' key id := by
  have hclash : ∀ {k k' : StatusKey} {i i' : String}, AliasClash k i k' i' →
      (k, i) ≠ (k', i') ∧ backfillAlias k i = backfillAlias k' i' := by
    intro k k' i i' h
    refine ⟨fun heq => ?_, ?_⟩
    · have hkeys : balancesKey = legacyBalancesKey := by
        rw [← h.balances, ← h.legacy, (Prod.mk.inj heq).1]
      rw [legacyBalancesKey_eq] at hkeys
      exact absurd (congrArg String.length hkeys) (by simp)
    · rw [h.balances, h.legacy]
      exact backfillAlias_legacy_iff.mpr h.ids
  constructor
  · intro h
    refine ⟨fun hc => ?_, fun hc => ?_⟩
    · exact h (hclash hc).1 (hclash hc).2
    · exact h (hclash hc).1.symm (hclash hc).2.symm
  · rintro ⟨hno, hno'⟩ hne heq
    by_cases hkey : (key : String) = key'
    · refine hne (Prod.ext (Subtype.ext hkey) ?_)
      rw [hkey] at heq
      exact (String.append_right_inj _).mp heq
    · rcases isPrefix_of_backfillAlias_eq hkey heq with hpre | hpre
      · obtain ⟨hb, hl⟩ := statusKeys_separated key.2 key'.2 hpre
        rw [hb, hl] at heq
        exact hno ⟨hb, hl, backfillAlias_legacy_iff.mp heq⟩
      · obtain ⟨hb, hl⟩ := statusKeys_separated key'.2 key.2 hpre
        rw [hb, hl] at heq
        exact hno' ⟨hb, hl, backfillAlias_legacy_iff.mp heq.symm⟩

/-- Backfill `legacy_1` of the one table and backfill `1` of the other. -/
theorem backfillAlias_collision :
    ¬ ∀ (key key' : StatusKey) (id id' : String),
      (key, id) ≠ (key', id') → backfillAlias key id ≠ backfillAlias key' id' := by
  intro h
  have hb : balancesKey ∈ statusKeys := mem_statusKeys.mpr
    ⟨.parquetFungibleAssetProcessor, Or.inr ⟨_, by decide, rfl⟩⟩
  have hl : legacyBalancesKey ∈ statusKeys := mem_statusKeys.mpr
    ⟨.parquetFungibleAssetProcessor, Or.inr ⟨_, by decide, rfl⟩⟩
  refine h ⟨balancesKey, hb⟩ ⟨legacyBalancesKey, hl⟩ "legacy_1" "1" ?_ ?_
  · intro heq
    exact absurd (Prod.mk.inj heq).2 (by decide)
  · exact backfillAlias_legacy_iff.mpr (by decide)

/-- The names a status is saved under: the processors, and the tables their
extractors emit. -/
def savedKeys : List String :=
  ProcessorName.iter.flatMap fun processor =>
    processor.toString ::
      (dataTypes processor).map fun entry => formatTableName processor.toString entry.2.toString

theorem savedKeys_subset : savedKeys ⊆ statusKeys := by
  intro k hk
  obtain ⟨p, _, hk⟩ := List.mem_flatMap.mp hk
  refine mem_statusKeys.mpr ⟨p, ?_⟩
  rcases List.mem_cons.mp hk with rfl | hk
  · exact Or.inl rfl
  · obtain ⟨entry, hentry, rfl⟩ := List.mem_map.mp hk
    exact Or.inr ⟨_, List.mem_append_left _ (List.mem_map.mpr ⟨entry, hentry, rfl⟩), rfl⟩

/-- No extractor emits the balances, so what is saved has aliases of its own. -/
theorem backfillAlias_injOn_savedKeys :
    Set.InjOn (fun p : String × String => backfillAlias p.1 p.2) {p | p.1 ∈ savedKeys} := by
  have hbalances : balancesKey ∉ savedKeys := by decide +kernel
  rintro ⟨k, id⟩ hk ⟨k', id'⟩ hk' (heq : backfillAlias k id = backfillAlias k' id')
  replace hk : k ∈ savedKeys := hk
  replace hk' : k' ∈ savedKeys := hk'
  by_cases hkey : k = k'
  · subst hkey
    rw [(String.append_right_inj _).mp heq]
  · rcases isPrefix_of_backfillAlias_eq hkey heq with hpre | hpre
    · have hb := (statusKeys_separated (savedKeys_subset hk) (savedKeys_subset hk') hpre).1
      exact absurd (hb ▸ hk) hbalances
    · have hb := (statusKeys_separated (savedKeys_subset hk') (savedKeys_subset hk) hpre).1
      exact absurd (hb ▸ hk') hbalances

end IndexerProcessors.Parquet

import IndexerProcessors.Ans.Current
import IndexerProcessors.Status.Lives

/-!
# Names survive restarts

The ANS processor with its checkpoints. It may die in the middle of a batch, and then a
part of the batch's upserts is stored, in either table; it starts again at its row of
`processor_status`, which may be far behind. `names_survive_restarts` says that none of
this can be seen once it is back where it was: the two tables are those of the last
changes, as if it had never stopped.
-/

namespace IndexerProcessors.Ans

open IndexerProcessors.Lib
open IndexerProcessors.Protos
open IndexerProcessors.Status

/-- An upsert into one of the two tables. -/
abbrev AnsWrite :=
  (CurrentAnsLookupV2PK × Write CurrentAnsLookupV2) ⊕
    (CurrentAnsPrimaryNameV2PK × Write CurrentAnsPrimaryNameV2)

/-- The ANS processor: what it writes for a batch, and where it starts. -/
def ansProcessor (boot : BootStrapConfig) (sdk : AnsSdk) (config : AnsConfig) :
    Processor StatusDb Protos.Transaction AnsWrite where
  checkpoints := defaultCheckpoints sdk.toSdk "ans_processor" boot
  writes batch := (batchWrites sdk config batch).map fun writes =>
    writes.1.map Sum.inl ++ writes.2.map Sum.inr

/-- The tables after some writes. -/
def lookupTable (log : List AnsWrite) : Table CurrentAnsLookupV2PK CurrentAnsLookupV2 :=
  Table.writeAll ∅ (log.filterMap Sum.getLeft?)

def primaryTable (log : List AnsWrite) : Table CurrentAnsPrimaryNameV2PK CurrentAnsPrimaryNameV2 :=
  Table.writeAll ∅ (log.filterMap Sum.getRight?)

section Rows

variable {boot : BootStrapConfig} {sdk : AnsSdk} {config : AnsConfig}

theorem version_of_mem_lookupRows {txn : Protos.Transaction} {row : CurrentAnsLookupV2}
    (h : row ∈ lookupRows sdk config txn) : row.lastTransactionVersion = txn.txnVersion := by
  unfold lookupRows at h
  cases hrows : transactionRows sdk config txn with
  | none =>
    rw [hrows] at h
    cases h
  | some rows =>
    rw [hrows, Option.getD_some, (transactionRows_eq hrows).1] at h
    obtain ⟨change, -, rfl⟩ := List.mem_map.mp h
    cases change with
    | v1Write => rfl
    | v1Delete => rfl
    | v2Write => rfl

theorem version_of_mem_primaryRows {txn : Protos.Transaction} {row : CurrentAnsPrimaryNameV2}
    (h : row ∈ primaryRows sdk config txn) : row.lastTransactionVersion = txn.txnVersion := by
  unfold primaryRows at h
  cases hrows : transactionRows sdk config txn with
  | none =>
    rw [hrows] at h
    cases h
  | some rows =>
    rw [hrows, Option.getD_some, (transactionRows_eq hrows).2] at h
    obtain ⟨change, -, rfl⟩ := List.mem_map.mp h
    cases change with
    | v1Write => rfl
    | v1Delete => rfl
    | v2Event => rfl

/-- What the processor writes is what a batch upserts. -/
theorem batchWrites_of_writes {batch : List Protos.Transaction} {ws : List AnsWrite}
    (h : (ansProcessor boot sdk config).writes batch = some ws) :
    ∃ writes, batchWrites sdk config batch = some writes ∧
      ws = writes.1.map Sum.inl ++ writes.2.map Sum.inr := by
  obtain ⟨writes, hwrites, rfl⟩ := Option.map_eq_some_iff.mp h
  exact ⟨writes, hwrites, rfl⟩

theorem lastRows_lookups (ledger : Ledger Protos.Transaction) :
    (ansProcessor boot sdk config).LastRows ledger.txns Transaction.txnVersion
      Sum.getLeft? (lookupRows sdk config) CurrentAnsLookupV2.pk
      CurrentAnsLookupV2.lastTransactionVersion insertCurrentAnsLookupsV2Query where
  in_order := ledger.inOrder
  ver_eq _ _ _ h := version_of_mem_lookupRows h
  query_eq _ _ _ _ := insertCurrentAnsLookupsV2Query_eq
  writes_eq := by
    intro b _ ws hws k w
    obtain ⟨writes, hwrites, rfl⟩ := batchWrites_of_writes hws
    rw [← (collects_insertAll CurrentAnsLookupV2.pk id _).mem_upserts_iff]
    refine exists_getLeft?_iff.trans ?_
    rw [(batchWrites_eq hwrites).2.1, List.mem_map]
    simp only [Prod.mk.injEq, id]

theorem lastRows_primaries (ledger : Ledger Protos.Transaction) :
    (ansProcessor boot sdk config).LastRows ledger.txns Transaction.txnVersion
      Sum.getRight? (primaryRows sdk config) CurrentAnsPrimaryNameV2.pk
      CurrentAnsPrimaryNameV2.lastTransactionVersion insertCurrentAnsPrimaryNamesV2Query where
  in_order := ledger.inOrder
  ver_eq _ _ _ h := version_of_mem_primaryRows h
  query_eq _ _ _ _ := insertCurrentAnsPrimaryNamesV2Query_eq
  writes_eq := by
    intro b _ ws hws k w
    obtain ⟨writes, hwrites, rfl⟩ := batchWrites_of_writes hws
    rw [← (collects_insertAll CurrentAnsPrimaryNameV2.pk id _).mem_upserts_iff]
    refine exists_getRight?_iff.trans ?_
    rw [(batchWrites_eq hwrites).2.2, List.mem_map]
    simp only [Prod.mk.injEq, id]

end Rows

/-- The transactions a processor has passed, from its first version on. -/
theorem rows_of_stored {boot : BootStrapConfig} {sdk : AnsSdk}
    {config : AnsConfig} {ledger : Ledger Protos.Transaction}
    {st : Indexed StatusDb Protos.Transaction AnsWrite}
    (hreach : (ansProcessor boot sdk config).Reach ledger.txns st) {next : ℕ}
    (hcaught : (ansProcessor boot sdk config).CaughtUp st next) :
    ∀ txn ∈ (ansProcessor boot sdk config).span ledger.txns next,
      ∃ rows, transactionRows sdk config txn = some rows := by
  intro txn htxn
  obtain ⟨b, ws, hmem, hws⟩ :=
    Processor.exists_writes_of_caught_up ledger.pairwise_toNat hreach hcaught htxn
  obtain ⟨writes, hwrites, -⟩ := batchWrites_of_writes hws
  exact Option.isSome_iff_exists.mp ((batchWrites_eq hwrites).1 txn hmem)

/-- **Restarts leave no trace.** However often the processor died, wherever in a batch,
and whichever checkpoints it had saved by then: as soon as it is past everything it ever
touched, every name and every primary name is that of its last change since the first
version. -/
theorem names_survive_restarts (boot : BootStrapConfig) (sdk : AnsSdk)
    (config : AnsConfig) (ledger : Ledger Protos.Transaction)
    (st : Indexed StatusDb Protos.Transaction AnsWrite)
    (hreach : (ansProcessor boot sdk config).Reach ledger.txns st) (next : ℕ)
    (hcaught : (ansProcessor boot sdk config).CaughtUp st next) :
    let passed := ledger.txns.filter fun txn =>
      boot.initialStartingVersion.toNat ≤ txn.version.toNat ∧ txn.version.toNat < next
    (∀ key, ShowsLookup sdk ((lookupTable st.log).lookup key)
      (lastLookupChange sdk config (passed.filter isUser) key)) ∧
    ∀ key, ShowsPrimary sdk ((primaryTable st.log).lookup key)
      (lastPrimaryChange sdk config (passed.filter isUser) key) := by
  intro passed
  have hspan : (ansProcessor boot sdk config).span ledger.txns next = passed :=
    span_defaultCheckpoints ledger next
  have hrows := rows_of_stored hreach hcaught
  rw [hspan] at hrows
  -- The transactions it has passed could be parsed, so their rows are those of the changes.
  have hlookups : ∀ txn ∈ passed, lookupRows sdk config txn =
      (if isUser txn then lookupChanges sdk config txn else []).map (·.row sdk txn.txnVersion) := by
    intro txn htxn
    obtain ⟨rows, heq⟩ := hrows txn htxn
    rw [lookupRows, heq]
    exact (transactionRows_eq heq).1
  have hprimaries : ∀ txn ∈ passed, primaryRows sdk config txn =
      (if isUser txn then primaryChanges sdk config txn else []).map
        (·.row sdk txn.txnVersion) := by
    intro txn htxn
    obtain ⟨rows, heq⟩ := hrows txn htxn
    rw [primaryRows, heq]
    exact (transactionRows_eq heq).2
  constructor
  · intro key
    have hlookup := Processor.lookup_of_caught_up (lastRows_lookups ledger) ledger.pairwise_toNat
      hreach hcaught key
    rw [hspan, flatMap_rows_eq (fun version change => LookupChange.row sdk version change) hlookups,
      List.filter_map, List.getLast?_map] at hlookup
    exact showsLookup_of_eq hlookup
  · intro key
    have hlookup := Processor.lookup_of_caught_up (lastRows_primaries ledger) ledger.pairwise_toNat
      hreach hcaught key
    rw [hspan, flatMap_rows_eq (fun version change => PrimaryChange.row sdk version change)
      hprimaries, List.filter_map, List.getLast?_map] at hlookup
    exact showsPrimary_of_eq hlookup

/-- The lives of a processor that dies while it stores a deletion: the write of the name
was stored, the deletion too, but neither checkpointed; the second life stores both in
one batch. -/
theorem name_deleted_across_lives :
    let w := aliceTxn 1 (.user none []) false
    let d := aliceTxn 3 (.user none []) true
    let boot : BootStrapConfig := ⟨1⟩
    let p := ansProcessor boot plainSdk plainConfig
    ∃ st : Indexed StatusDb Protos.Transaction AnsWrite, p.Reach [w, d] st ∧ p.CaughtUp st 4 ∧
      st.torn = [[d]] ∧
      ShowsLookup plainSdk ((lookupTable st.log).lookup ("alice", "", .v1))
        (some (3, .v1Delete aliceKey)) := by
  intro w d boot p
  let ledger : Ledger Protos.Transaction := ⟨[w, d], by decide, by decide⟩
  obtain ⟨hreach, hcaught⟩ := Processor.reach_twoLives (p := p) (a := w) (b := d)
    (by decide) (by decide) (by decide +kernel) (by decide +kernel) (by decide +kernel)
    (List.Subset.refl ((p.writes [d]).getD []))
  have hlast : lastLookupChange plainSdk plainConfig ([w, d].filter isUser) ("alice", "", .v1) =
      some (3, .v1Delete aliceKey) := by decide +kernel
  refine ⟨_, hreach, hcaught, rfl, ?_⟩
  rw [← hlast]
  exact (names_survive_restarts boot plainSdk plainConfig ledger _ hreach 4
    hcaught).1 ("alice", "", .v1)

end IndexerProcessors.Ans

import IndexerProcessors.Reputation.Replay

/-!
# Late EVM sources

A LayerZero inflow is stored without its EVM source; the enricher resolves the
GUID later and calls `write_evm`, which fills the row in and seeds its
recipient (`lz_storer.rs`). The storer and the enricher are two tasks, so
between the batch that inserts the row and the `write_evm` that resolves it any
number of other batches may be stored.

Nothing re-propagates a late seed: a transfer stored before the resolution has
read the recipient's rows without it. `writeEvm_placement` says what survives
of the run in which every resolution is prompt: `evm_fund` always does, and the
whole table does where no batch in between stores a transfer out of the
recipient in the inflow's asset. A resolution is moved back one operation at a
time, and each operation it passes commutes with it.
-/

namespace IndexerProcessors.Reputation

open IndexerProcessors.Lib

/-- `EVM_NULL_SENTINEL`. -/
def evmNullSentinel : String := "0x0000000000000000000000000000000000000000"

/-- `lz_guid = $2 AND evm_source IS NULL`. -/
def pendingRow (guid : String) (bi : BridgeInflow) : Bool :=
  bi.lzGuid = some guid ∧ bi.evmSource = none

/-- The seed of a resolved row; a row without an asset is skipped. -/
def inflowSeed (evm : String) (bi : BridgeInflow) : Option RollupStep :=
  bi.assetType.map fun asset =>
    .seed bi.aptosRecipient asset evm bi.amount (seenOrd bi.transactionVersion bi.eventIndex)

/-- The seeds a `write_evm` makes in a database. -/
def resolutionSeeds (propagateEvm : Bool) (db : ReputationDb) (guid evm : String) :
    List RollupStep :=
  if propagateEvm = false ∨ evm = evmNullSentinel then []
  else (db.bridgeInflows.rowsWhere (pendingRow guid)).filterMap (inflowSeed evm)

/-- `DbLzStore::write_evm`. -/
def writeEvm (propagateEvm : Bool) (db : ReputationDb) (guid evm : String) : ReputationDb :=
  { db with
    bridgeInflows := db.bridgeInflows.updateWhere (pendingRow guid) fun bi =>
      { bi with evmSource := some evm }
    addressEvmSources :=
      (resolutionSeeds propagateEvm db guid evm).foldl RollupStep.apply db.addressEvmSources }

/-- An operation of either task. -/
inductive DbOp where
  | store (batch : Batch)
  | writeEvm (guid evm : String)

def DbOp.exec (propagateEvm : Bool) (db : ReputationDb) : DbOp → ReputationDb
  | .store batch => process propagateEvm db batch
  | .writeEvm guid evm => Reputation.writeEvm propagateEvm db guid evm

/-- The database after a run of both tasks. -/
def execAll (propagateEvm : Bool) (ops : List DbOp) : ReputationDb :=
  ops.foldl (DbOp.exec propagateEvm) ReputationDb.empty

/-! ## The prompt run -/

/-- The batches of a run, in its order. -/
def stores (ops : List DbOp) : List Batch :=
  ops.filterMap fun | .store batch => some batch | .writeEvm .. => none

/-- The inflow keys some batches carry. -/
def batchKeys (batches : List Batch) : List (Int64 × Int64) :=
  batches.flatMap fun batch => batch.inflows.map BridgeInflow.key

/-- The batch inserts a row that waits for the GUID, after the given ones. -/
def insertsPending (earlier : List Batch) (guid : String) (batch : Batch) : Bool :=
  batch.inflows.any fun bi => pendingRow guid bi && !(batchKeys earlier).contains bi.key

/-- A prompt `write_evm` stays behind the batch that inserted its row, and
behind an earlier `write_evm` of the same GUID. -/
def staysBehind (earlier : List DbOp) (guid : String) : DbOp → Bool
  | .store batch => insertsPending (stores earlier) guid batch
  | .writeEvm guid' _ => guid' = guid

/-- Move a `write_evm` back to its prompt place in a run listed latest first. -/
def place (guid evm : String) : List DbOp → List DbOp
  | [] => [.writeEvm guid evm]
  | op :: earlier =>
    if staysBehind earlier guid op then .writeEvm guid evm :: op :: earlier
    else op :: place guid evm earlier

/-- One more operation of a run, latest first. -/
def promptOp (acc : List DbOp) : DbOp → List DbOp
  | .store batch => .store batch :: acc
  | .writeEvm guid evm => place guid evm acc

/-- The run with each `write_evm` right after the batch that inserted its row. -/
def prompt (ops : List DbOp) : List DbOp :=
  (ops.foldl promptOp []).reverse

/-- Between the batch that inserts a row and the `write_evm` that resolves it,
no batch stores a transfer out of the row's recipient in its asset. -/
def Undisturbed (propagateEvm : Bool) (ops : List DbOp) : Prop :=
  ∀ before guid evm after, ops = before ++ .writeEvm guid evm :: after →
  ∀ earlier batch later, stores before = earlier ++ batch :: later →
    (∀ k bi, (execAll propagateEvm before).bridgeInflows.lookup k = some bi →
      pendingRow guid bi = true → k ∈ batchKeys earlier) →
  ∀ k bi asset, (execAll propagateEvm before).bridgeInflows.lookup k = some bi →
    pendingRow guid bi = true → bi.assetType = some asset →
  ∀ edge ∈ batch.edges, edge.isBridgeInflow = false → edge.assetType = some asset →
    edge.fromAddress ≠ bi.aptosRecipient

/-! ## Which statements commute -/

/-- The statement is a seed. -/
def RollupStep.IsSeed : RollupStep → Prop
  | .seed .. => True
  | .transfer .. => False

/-- Equal `evm_fund` columns. -/
def SameEvmFund (t t' : EvmSources) : Prop :=
  ∀ k, t.value AddressEvmSource.evmFund k = t'.value AddressEvmSource.evmFund k

theorem congruence_sameEvmFund : Congruence RollupStep.apply SameEvmFund where
  equiv := ⟨fun _ _ => rfl, fun h k => (h k).symm, fun h h' k => (h k).trans (h' k)⟩
  step := by
    intro t t' step h k
    rw [evmFund_apply, evmFund_apply, h k]

theorem commuteAt_sameEvmFund (a b : RollupStep) :
    CommuteAt RollupStep.apply SameEvmFund a b := by
  intro t k
  rw [evmFund_apply, evmFund_apply, evmFund_apply, evmFund_apply, add_right_comm]

/-- Merging two seeds into a row gives the same row either way. -/
theorem merged_seed_comm (old : Option AddressEvmSource) (x y : ℚ) (i j : Int64) :
    Table.merged seedMerge (some (Table.merged seedMerge old (seedRow x i))) (seedRow y j) =
      Table.merged seedMerge (some (Table.merged seedMerge old (seedRow y j))) (seedRow x i) := by
  cases old with
  | none => simp [Table.merged, seedMerge, seedRow, add_comm, min_comm, max_comm]
  | some row =>
    simp only [Table.merged, seedMerge, seedRow, AddressEvmSource.mk.injEq, true_and, and_true]
    exact ⟨add_right_comm _ _ _, min_right_comm _ _ _, max_right_comm _ _ _⟩

theorem commuteAt_seed_seed (r a e r' a' e' : String) (x y : ℚ) (i j : Int64) :
    CommuteAt RollupStep.apply SameRows (.seed r a e x i) (.seed r' a' e' y j) := by
  intro t k
  show (upsertBridgeSeed (upsertBridgeSeed t r a e x i) r' a' e' y j).lookup k =
    (upsertBridgeSeed (upsertBridgeSeed t r' a' e' y j) r a e x i).lookup k
  by_cases hk : k = ⟨r, a, e⟩
  · by_cases hk' : k = ⟨r', a', e'⟩
    · obtain ⟨rfl, rfl, rfl⟩ := EvmSourceKey.mk.inj (hk.symm.trans hk')
      subst hk
      rw [lookup_seed_self, lookup_seed_self, lookup_seed_self, lookup_seed_self,
        merged_seed_comm]
    · subst hk
      rw [lookup_seed_ne hk', lookup_seed_self, lookup_seed_self, lookup_seed_ne hk']
  · by_cases hk' : k = ⟨r', a', e'⟩
    · subst hk'
      rw [lookup_seed_self, lookup_seed_ne hk, lookup_seed_ne hk, lookup_seed_self]
    · rw [lookup_seed_ne hk', lookup_seed_ne hk, lookup_seed_ne hk, lookup_seed_ne hk']

/-- Merging a seed and a propagated row gives the same row either way: the seed
pins the hop count whichever comes last. -/
theorem merged_seed_propagate_comm (old : Option AddressEvmSource) (x y tot : ℚ) (i j : Int64)
    (s : AddressEvmSource) :
    Table.merged propagateMerge (some (Table.merged seedMerge old (seedRow x i)))
        (propagatedRow y tot j s) =
      Table.merged seedMerge (some (Table.merged propagateMerge old (propagatedRow y tot j s)))
        (seedRow x i) := by
  cases old with
  | none =>
    simp [Table.merged, seedMerge, propagateMerge, seedRow, propagatedRow, min_comm, max_comm]
  | some row =>
    simp only [Table.merged, seedMerge, propagateMerge, seedRow, propagatedRow,
      AddressEvmSource.mk.injEq, true_and, Nat.zero_min, and_true]
    exact ⟨min_right_comm _ _ _, max_right_comm _ _ _⟩

/-- A seed commutes with a transfer that does not read the seeded rows. -/
theorem commuteAt_seed_transfer {r a e f c a' : String} {x y : ℚ} {i j : Int64}
    (h : f ≠ r ∨ a' ≠ a) :
    CommuteAt RollupStep.apply SameRows (.seed r a e x i) (.transfer f c a' y j) := by
  intro t k
  -- The transfer reads its sender's rows in its asset; the seed's is none of them.
  have hread : ∀ evm, (⟨f, a', evm⟩ : EvmSourceKey) ≠ ⟨r, a, e⟩ := by
    intro evm heq
    obtain ⟨rfl, rfl, _⟩ := EvmSourceKey.mk.inj heq
    exact h.elim (fun h => h rfl) (fun h => h rfl)
  have htot : total (upsertBridgeSeed t r a e x i) f a' = total t f a' := by
    refine Table.sumWhere_congr fun k' hk' => ?_
    obtain ⟨rfl, rfl⟩ := ownedBy_iff.mp hk'
    unfold Table.value
    rw [lookup_seed_ne (hread k'.evmAddress)]
  show (propagateEvmSources (upsertBridgeSeed t r a e x i) f c a' y j).lookup k =
    (upsertBridgeSeed (propagateEvmSources t f c a' y j) r a e x i).lookup k
  rw [lookup_propagate, htot, lookup_seed_ne (hread k.evmAddress)]
  by_cases hk : k = ⟨r, a, e⟩
  · subst hk
    rw [lookup_seed_self, lookup_seed_self, lookup_propagate]
    split
    next =>
      cases t.lookup ⟨f, a', e⟩ with
      | none => rfl
      | some s => exact congrArg some (merged_seed_propagate_comm _ _ _ _ _ _ _)
    next => rfl
  · rw [lookup_seed_ne hk, lookup_seed_ne hk, lookup_propagate]

/-! ## Which operations commute -/

/-- Equal inflow rows, and rollups that `E` does not tell apart. -/
structure DbEquiv (E : EvmSources → EvmSources → Prop) (db db' : ReputationDb) : Prop where
  inflows : ∀ k, db.bridgeInflows.lookup k = db'.bridgeInflows.lookup k
  rollup : E db.addressEvmSources db'.addressEvmSources

/-- What a rollup comparison has to respect for operations to be reordered. -/
structure RollupCongruence (E : EvmSources → EvmSources → Prop) : Prop where
  congr : Congruence RollupStep.apply E
  seeds : ∀ a b : RollupStep, a.IsSeed → b.IsSeed → CommuteAt RollupStep.apply E a b

theorem rollupCongruence_sameEvmFund : RollupCongruence SameEvmFund :=
  ⟨congruence_sameEvmFund, fun a b _ _ => commuteAt_sameEvmFund a b⟩

theorem rollupCongruence_sameRows : RollupCongruence SameRows where
  congr := congruence_sameRows
  seeds := by
    intro a b ha hb
    cases a with
    | transfer => exact ha.elim
    | seed r a e x i =>
      cases b with
      | transfer => exact hb.elim
      | seed r' a' e' y j => exact commuteAt_seed_seed r a e r' a' e' x y i j

/-- The rollup statements of a batch under the configuration. -/
def batchSteps (propagateEvm : Bool) (batch : Batch) : List RollupStep :=
  if propagateEvm then rollupSteps batch else []

theorem process_evmSources (propagateEvm : Bool) (db : ReputationDb) (batch : Batch) :
    (process propagateEvm db batch).addressEvmSources =
      (batchSteps propagateEvm batch).foldl RollupStep.apply db.addressEvmSources := by
  cases propagateEvm <;> rfl

theorem process_inflows (propagateEvm : Bool) (db : ReputationDb) (batch : Batch)
    (k : Int64 × Int64) :
    (process propagateEvm db batch).bridgeInflows.lookup k =
      (db.bridgeInflows.lookup k).or (batch.inflows.find? fun bi => bi.key = k) := by
  show (db.bridgeInflows.insertNewAll _).lookup k = _
  rw [Table.lookup_insertNewAll, List.find?_map, Option.map_map]
  exact congrArg _ (Option.map_id' ..)

theorem writeEvm_inflows (propagateEvm : Bool) (db : ReputationDb) (guid evm : String)
    (k : Int64 × Int64) :
    (writeEvm propagateEvm db guid evm).bridgeInflows.lookup k =
      (db.bridgeInflows.lookup k).map fun bi =>
        if pendingRow guid bi then { bi with evmSource := some evm } else bi :=
  Table.lookup_updateWhere ..

/-- The two databases hold the same rows waiting for a GUID. -/
def SamePending (guid : String) (db db' : ReputationDb) : Prop :=
  ∀ k bi, pendingRow guid bi = true →
    (db.bridgeInflows.lookup k = some bi ↔ db'.bridgeInflows.lookup k = some bi)

theorem resolutionSeeds_perm (propagateEvm : Bool) {db db' : ReputationDb} {guid : String}
    (evm : String) (h : SamePending guid db db') :
    (resolutionSeeds propagateEvm db guid evm).Perm
      (resolutionSeeds propagateEvm db' guid evm) := by
  unfold resolutionSeeds
  split
  · exact List.Perm.refl _
  · exact (Table.rowsWhere_perm h).filterMap _

/-- A seed of a resolution comes from a row that waits for the GUID. -/
theorem mem_resolutionSeeds {propagateEvm : Bool} {db : ReputationDb} {guid evm : String}
    {step : RollupStep} (h : step ∈ resolutionSeeds propagateEvm db guid evm) :
    propagateEvm = true ∧ ∃ k bi asset, db.bridgeInflows.lookup k = some bi ∧
      pendingRow guid bi = true ∧ bi.assetType = some asset ∧
      step = .seed bi.aptosRecipient asset evm bi.amount
        (seenOrd bi.transactionVersion bi.eventIndex) := by
  unfold resolutionSeeds at h
  split at h
  next => cases h
  next hp =>
    obtain ⟨bi, hbi, hseed⟩ := List.mem_filterMap.mp h
    obtain ⟨k, hl, hq⟩ := Table.mem_rowsWhere.mp hbi
    obtain ⟨asset, ha, rfl⟩ := Option.map_eq_some_iff.mp hseed
    exact ⟨Bool.eq_true_of_not_eq_false fun hf => hp (Or.inl hf), k, bi, asset, hl, hq, ha, rfl⟩

theorem resolutionSeeds_isSeed (propagateEvm : Bool) (db : ReputationDb) (guid evm : String) :
    ∀ step ∈ resolutionSeeds propagateEvm db guid evm, step.IsSeed := by
  intro step h
  obtain ⟨_, k, bi, asset, _, _, _, rfl⟩ := mem_resolutionSeeds h
  trivial

section Reorder

variable {E : EvmSources → EvmSources → Prop} {propagateEvm : Bool}

theorem dbEquiv_refl (hE : RollupCongruence E) (db : ReputationDb) : DbEquiv E db db :=
  ⟨fun _ => rfl, hE.congr.equiv.refl _⟩

theorem DbEquiv.trans {db db' db'' : ReputationDb} (hE : RollupCongruence E)
    (h : DbEquiv E db db') (h' : DbEquiv E db' db'') : DbEquiv E db db'' :=
  ⟨fun k => (h.inflows k).trans (h'.inflows k), hE.congr.equiv.trans h.rollup h'.rollup⟩

/-- Seeds from the same rows, applied to rollups that are alike. -/
theorem foldl_resolutionSeeds (propagateEvm : Bool) (hE : RollupCongruence E)
    {db db' : ReputationDb} {guid : String} (evm : String) (hp : SamePending guid db db')
    {t t' : EvmSources} (ht : E t t') :
    E ((resolutionSeeds propagateEvm db guid evm).foldl RollupStep.apply t)
      ((resolutionSeeds propagateEvm db' guid evm).foldl RollupStep.apply t') := by
  have hseed := resolutionSeeds_isSeed propagateEvm db guid evm
  have hperm := foldl_perm_rel hE.congr (resolutionSeeds_perm propagateEvm evm hp)
    (fun a ha b hb => hE.seeds a b (hseed a ha) (hseed b hb)) t
  exact hE.congr.equiv.trans hperm (hE.congr.foldl _ ht)

/-- Operations respect the equivalence. -/
theorem DbEquiv.exec (hE : RollupCongruence E) {db db' : ReputationDb} (h : DbEquiv E db db')
    (op : DbOp) : DbEquiv E (op.exec propagateEvm db) (op.exec propagateEvm db') := by
  cases op with
  | store batch =>
    constructor
    · intro k
      show (process _ _ _).bridgeInflows.lookup k = (process _ _ _).bridgeInflows.lookup k
      rw [process_inflows, process_inflows, h.inflows k]
    · show E (process _ _ _).addressEvmSources (process _ _ _).addressEvmSources
      rw [process_evmSources, process_evmSources]
      exact hE.congr.foldl _ h.rollup
  | writeEvm guid evm =>
    constructor
    · intro k
      show (writeEvm _ _ _ _).bridgeInflows.lookup k = (writeEvm _ _ _ _).bridgeInflows.lookup k
      rw [writeEvm_inflows, writeEvm_inflows, h.inflows k]
    · exact foldl_resolutionSeeds _ hE evm (fun k bi _ => by rw [h.inflows k]) h.rollup

/-- A batch that inserts no row waiting for a GUID leaves those rows alone. -/
theorem samePending_process (propagateEvm : Bool) {db : ReputationDb} {batch : Batch}
    {guid : String}
    (h : ∀ bi ∈ batch.inflows, pendingRow guid bi = true →
      db.bridgeInflows.lookup bi.key ≠ none) :
    SamePending guid (process propagateEvm db batch) db := by
  intro k bi hq
  rw [process_inflows]
  cases hl : db.bridgeInflows.lookup k with
  | some row => rfl
  | none =>
    rw [Option.none_or]
    refine iff_of_false (fun hf => ?_) (fun hf => nomatch hf)
    have hk : bi.key = k := by simpa using List.find?_some hf
    exact h bi (List.mem_of_find?_eq_some hf) hq (hk ▸ hl)

/-- A resolution leaves the rows of other GUIDs alone. -/
theorem samePending_writeEvm (propagateEvm : Bool) (db : ReputationDb) {guid guid' : String}
    (evm' : String)
    (hne : guid' ≠ guid) : SamePending guid (writeEvm propagateEvm db guid' evm') db := by
  intro k bi hq
  simp only [pendingRow, decide_eq_true_eq] at hq
  rw [writeEvm_inflows]
  cases db.bridgeInflows.lookup k with
  | none => exact Iff.rfl
  | some row =>
    simp only [Option.map_some, Option.some.injEq]
    by_cases hrow : pendingRow guid' row = true
    · rw [if_pos hrow]
      simp only [pendingRow, decide_eq_true_eq] at hrow
      constructor
      · intro heq
        subst heq
        simp at hq
      · intro heq
        subst heq
        exact absurd (Option.some.inj (hrow.1.symm.trans hq.1)) hne
    · rw [if_neg hrow]

/-- A resolution moves back past a batch that inserts none of its rows and whose
statements commute with its seeds. -/
theorem writeEvm_process_comm (hE : RollupCongruence E) {db : ReputationDb} {batch : Batch}
    {guid evm : String}
    (hins : ∀ bi ∈ batch.inflows, pendingRow guid bi = true →
      db.bridgeInflows.lookup bi.key ≠ none)
    (hcomm : ∀ s ∈ resolutionSeeds propagateEvm db guid evm, ∀ step ∈ batchSteps propagateEvm batch,
      CommuteAt RollupStep.apply E s step) :
    DbEquiv E (writeEvm propagateEvm (process propagateEvm db batch) guid evm)
      (process propagateEvm (writeEvm propagateEvm db guid evm) batch) := by
  constructor
  · intro k
    rw [writeEvm_inflows, process_inflows, process_inflows, writeEvm_inflows]
    cases hl : db.bridgeInflows.lookup k with
    | some row => rfl
    | none =>
      rw [Option.none_or, Option.map_none, Option.none_or]
      cases hf : batch.inflows.find? fun bi => bi.key = k with
      | none => rfl
      | some bi =>
        have hk : bi.key = k := by simpa using List.find?_some hf
        -- A row the batch inserts does not wait for this GUID.
        have hq : pendingRow guid bi ≠ true := fun hq =>
          hins bi (List.mem_of_find?_eq_some hf) hq (hk ▸ hl)
        rw [Option.map_some, if_neg hq]
  · have hsame := foldl_resolutionSeeds propagateEvm hE evm
      (samePending_process propagateEvm hins)
      (hE.congr.equiv.refl (process propagateEvm db batch).addressEvmSources)
    refine hE.congr.equiv.trans hsame ?_
    rw [process_evmSources, process_evmSources]
    exact hE.congr.equiv.symm (foldl_comm_rel hE.congr _ hcomm)

/-- Resolutions of different GUIDs change places freely. -/
theorem writeEvm_writeEvm_comm (hE : RollupCongruence E) {db : ReputationDb}
    {guid evm guid' evm' : String} (hne : guid' ≠ guid) :
    DbEquiv E (writeEvm propagateEvm (writeEvm propagateEvm db guid' evm') guid evm)
      (writeEvm propagateEvm (writeEvm propagateEvm db guid evm) guid' evm') := by
  constructor
  · intro k
    rw [writeEvm_inflows, writeEvm_inflows, writeEvm_inflows, writeEvm_inflows, Option.map_map,
      Option.map_map]
    refine congrArg (Option.map · _) (funext fun bi => ?_)
    simp only [Function.comp, pendingRow, decide_eq_true_eq]
    by_cases h : bi.lzGuid = some guid
    · have h' : bi.lzGuid ≠ some guid' := fun h' => hne (Option.some.inj (h'.symm.trans h))
      by_cases he : bi.evmSource = none <;> simp [h, he, Ne.symm hne]
    · by_cases h' : bi.lzGuid = some guid' <;> by_cases he : bi.evmSource = none <;>
        simp [h, h', he, hne]
  · -- Either resolution makes the same seeds before and after the other.
    have hs := foldl_resolutionSeeds propagateEvm hE evm
      (samePending_writeEvm propagateEvm db evm' hne)
      (hE.congr.equiv.refl (writeEvm propagateEvm db guid' evm').addressEvmSources)
    have hs' := foldl_resolutionSeeds propagateEvm hE evm'
      (samePending_writeEvm propagateEvm db evm (Ne.symm hne))
      (hE.congr.equiv.refl (writeEvm propagateEvm db guid evm).addressEvmSources)
    have hswap := foldl_comm_rel hE.congr db.addressEvmSources
      fun a ha b hb => hE.seeds a b
        (resolutionSeeds_isSeed propagateEvm db guid' evm' a ha)
        (resolutionSeeds_isSeed propagateEvm db guid evm b hb)
    exact hE.congr.equiv.trans hs (hE.congr.equiv.trans hswap (hE.congr.equiv.symm hs'))

end Reorder

/-! ## Moving resolutions back -/

/-- The database after a run listed latest first. -/
def execRev (propagateEvm : Bool) (acc : List DbOp) : ReputationDb :=
  acc.foldr (fun op db => op.exec propagateEvm db) ReputationDb.empty

theorem execAll_prompt (propagateEvm : Bool) (ops : List DbOp) :
    execAll propagateEvm (prompt ops) = execRev propagateEvm (ops.foldl promptOp []) := by
  unfold execAll prompt execRev
  rw [List.foldl_reverse]

/-- The table holds the keys the batches carried. -/
theorem lookup_execRev_ne_none (propagateEvm : Bool) (k : Int64 × Int64) :
    ∀ acc : List DbOp, (execRev propagateEvm acc).bridgeInflows.lookup k ≠ none ↔
      k ∈ batchKeys (stores acc) := by
  intro acc
  induction acc with
  | nil => simp [execRev, ReputationDb.empty, stores, batchKeys]
  | cons op acc ih =>
    cases op with
    | store batch =>
      show (process propagateEvm (execRev propagateEvm acc) batch).bridgeInflows.lookup k ≠ none ↔
        k ∈ batchKeys (batch :: stores acc)
      rw [process_inflows, batchKeys, List.flatMap_cons, List.mem_append, or_comm]
      rw [ne_eq, Option.or_eq_none_iff, not_and_or, ← ne_eq, ih, ← ne_eq]
      refine or_congr Iff.rfl ?_
      rw [ne_eq, List.find?_eq_none, List.mem_map]
      simp
    | writeEvm guid evm =>
      show (writeEvm propagateEvm (execRev propagateEvm acc) guid evm).bridgeInflows.lookup k ≠ none
        ↔ k ∈ batchKeys (stores acc)
      rw [writeEvm_inflows, ← ih, ne_eq, Option.map_eq_none_iff]

theorem stores_place (guid evm : String) :
    ∀ acc : List DbOp, stores (place guid evm acc) = stores acc := by
  intro acc
  induction acc with
  | nil => rfl
  | cons op acc ih =>
    unfold place
    split
    · rfl
    · cases op with
      | store batch => exact congrArg (batch :: ·) ih
      | writeEvm guid' evm' => exact ih

theorem stores_promptOps (ops : List DbOp) :
    stores (ops.foldl promptOp []) = (stores ops).reverse := by
  induction ops using List.reverseRecOn with
  | nil => rfl
  | append_singleton ops op ih =>
    rw [List.foldl_append, List.foldl_cons, List.foldl_nil]
    cases op with
    | store batch =>
      show batch :: stores (ops.foldl promptOp []) = _
      rw [ih]
      simp [stores]
    | writeEvm guid evm =>
      show stores (place guid evm (ops.foldl promptOp [])) = _
      rw [stores_place, ih]
      simp [stores]

section Move

variable {E : EvmSources → EvmSources → Prop} {propagateEvm : Bool}

/-- The seeds of a resolution commute with every batch stored since all of its
rows were there. -/
def Calm (E : EvmSources → EvmSources → Prop) (propagateEvm : Bool) (guid evm : String)
    (acc : List DbOp) : Prop :=
  ∀ later batch earlier, stores acc = later ++ batch :: earlier →
    (∀ k bi, (execRev propagateEvm acc).bridgeInflows.lookup k = some bi →
      pendingRow guid bi = true → k ∈ batchKeys earlier) →
  ∀ s ∈ resolutionSeeds propagateEvm (execRev propagateEvm acc) guid evm,
  ∀ step ∈ batchSteps propagateEvm batch, CommuteAt RollupStep.apply E s step

/-- An operation that leaves the rows of a GUID alone can be taken off. -/
theorem Calm.tail {guid evm : String} {op : DbOp} {acc : List DbOp}
    (h : Calm E propagateEvm guid evm (op :: acc))
    (hsame : SamePending guid (execRev propagateEvm (op :: acc)) (execRev propagateEvm acc)) :
    Calm E propagateEvm guid evm acc := by
  intro later batch earlier hstores hkeys s hs
  have hstores' : ∃ later', stores (op :: acc) = later' ++ batch :: earlier := by
    cases op with
    | store b => exact ⟨b :: later, congrArg (b :: ·) hstores⟩
    | writeEvm guid' evm' => exact ⟨later, hstores⟩
  obtain ⟨later', hstores'⟩ := hstores'
  refine h later' batch earlier hstores' ?_ s ((resolutionSeeds_perm _ evm hsame).mem_iff.mpr hs)
  intro k bi hl hq
  exact hkeys k bi ((hsame k bi hq).mp hl) hq

/-- A resolution at the end of a run, moved back to its prompt place. -/
theorem dbEquiv_place (hE : RollupCongruence E) {guid evm : String} :
    ∀ acc : List DbOp, Calm E propagateEvm guid evm acc →
      DbEquiv E (writeEvm propagateEvm (execRev propagateEvm acc) guid evm)
        (execRev propagateEvm (place guid evm acc)) := by
  intro acc
  induction acc with
  | nil => intro _; exact dbEquiv_refl hE _
  | cons op acc ih =>
    intro hcalm
    unfold place
    split
    -- Its prompt place is here, or it passes `op` and goes on.
    next => exact dbEquiv_refl hE _
    next hpass =>
      cases op with
      | store batch =>
        have hins : ∀ bi ∈ batch.inflows, pendingRow guid bi = true →
            (execRev propagateEvm acc).bridgeInflows.lookup bi.key ≠ none := by
          intro bi hbi hq
          rw [lookup_execRev_ne_none]
          by_contra hk
          refine hpass (List.any_eq_true.mpr ⟨bi, hbi, ?_⟩)
          simp [hq, hk]
        have hsame := samePending_process propagateEvm hins
        -- `batch` inserts none of the rows, so all of them were there before it.
        have hcomm := hcalm [] batch (stores acc) rfl fun k bi hl hq => by
          rw [← lookup_execRev_ne_none propagateEvm, (hsame k bi hq).mp hl]
          exact Option.some_ne_none bi
        have hperm := resolutionSeeds_perm propagateEvm evm hsame
        refine DbEquiv.trans hE
          (writeEvm_process_comm hE hins fun s hs => hcomm s (hperm.mem_iff.mpr hs)) ?_
        exact (ih (hcalm.tail hsame)).exec hE (.store batch)
      | writeEvm guid' evm' =>
        have hne : guid' ≠ guid := fun h => hpass (decide_eq_true h)
        refine (writeEvm_writeEvm_comm hE hne).trans hE ?_
        exact (ih (hcalm.tail (samePending_writeEvm _ _ evm' hne))).exec hE (.writeEvm guid' evm')

/-- A run and its prompt version agree, as far as their statements commute. -/
theorem dbEquiv_promptOps (hE : RollupCongruence E) (ops : List DbOp)
    (hcalm : ∀ before guid evm after, ops = before ++ .writeEvm guid evm :: after →
      Calm E propagateEvm guid evm (before.foldl promptOp [])) :
    DbEquiv E (execAll propagateEvm ops) (execRev propagateEvm (ops.foldl promptOp [])) := by
  induction ops using List.reverseRecOn with
  | nil => exact dbEquiv_refl hE _
  | append_singleton ops op ih =>
    have hops := ih fun before guid evm after heq =>
      hcalm before guid evm (after ++ [op]) (by rw [heq]; simp)
    have hexec : execAll propagateEvm (ops ++ [op]) =
        op.exec propagateEvm (execAll propagateEvm ops) := by
      unfold execAll
      rw [List.foldl_append]
      rfl
    rw [hexec, List.foldl_append, List.foldl_cons, List.foldl_nil]
    cases op with
    | store batch => exact hops.exec hE (.store batch)
    | writeEvm guid evm =>
      exact (hops.exec hE (.writeEvm guid evm)).trans hE
        (dbEquiv_place hE _ (hcalm ops guid evm [] rfl))

end Move

/-- The `evm_fund` column and the inflow rows do not depend on when resolutions
run. -/
theorem dbEquiv_prompt_evmFund (propagateEvm : Bool) (ops : List DbOp) :
    DbEquiv SameEvmFund (execAll propagateEvm ops)
      (execRev propagateEvm (ops.foldl promptOp [])) :=
  dbEquiv_promptOps rollupCongruence_sameEvmFund ops
    fun _ _ _ _ _ _ _ _ _ _ s _ step _ => commuteAt_sameEvmFund s step

/-- A seed commutes with the statements of a batch without transfers out of its
row. -/
theorem commuteAt_batchSteps {propagateEvm : Bool} {batch : Batch} {r asset evm : String} {x : ℚ}
    {ord : Int64}
    (h : ∀ edge ∈ batch.edges, edge.isBridgeInflow = false → edge.assetType = some asset →
      edge.fromAddress ≠ r) :
    ∀ step ∈ batchSteps propagateEvm batch,
      CommuteAt RollupStep.apply SameRows (.seed r asset evm x ord) step := by
  intro step hstep
  have hstep' : step ∈ rollupSteps batch := by
    cases propagateEvm with
    | true => exact hstep
    | false => cases hstep
  obtain ⟨edge, hedge, hes⟩ := mem_rollupSteps.mp hstep'
  obtain ⟨ast, hast, ⟨_, evm', _, rfl⟩ | ⟨hb, rfl⟩⟩ := edgeStep_cases hes
  · exact commuteAt_seed_seed _ _ _ _ _ _ _ _ _ _
  · refine commuteAt_seed_transfer ?_
    by_cases heq : ast = asset
    · exact Or.inl (h edge hedge hb (heq ▸ hast))
    · exact Or.inr heq

theorem calm_of_undisturbed {propagateEvm : Bool} {ops before after : List DbOp}
    {guid evm : String} (h : Undisturbed propagateEvm ops)
    (heq : ops = before ++ .writeEvm guid evm :: after) :
    Calm SameRows propagateEvm guid evm (before.foldl promptOp []) := by
  intro later batch earlier hstores hkeys s hs step hstep
  have hrows := (dbEquiv_prompt_evmFund propagateEvm before).inflows
  have hchron : stores before = earlier.reverse ++ batch :: later.reverse := by
    rw [stores_promptOps] at hstores
    rw [← List.reverse_reverse (stores before), hstores]
    simp
  have hkeys' : ∀ k bi, (execAll propagateEvm before).bridgeInflows.lookup k = some bi →
      pendingRow guid bi = true → k ∈ batchKeys earlier.reverse := by
    intro k bi hl hq
    rw [hrows k] at hl
    have hmem := hkeys k bi hl hq
    simpa [batchKeys] using hmem
  obtain ⟨_, k, bi, asset, hl, hq, ha, rfl⟩ := mem_resolutionSeeds hs
  rw [← hrows k] at hl
  exact commuteAt_batchSteps
    (h before guid evm after heq earlier.reverse batch later.reverse hchron hkeys' k bi asset hl hq
      ha) step hstep

/-- **What a late resolution changes.** Whenever the `write_evm`s of a run
happen, `evm_fund` ends up as in the prompt run. If no batch stored between a
row's insertion and its resolution holds a transfer out of the row's recipient
in its asset, every column does. -/
theorem writeEvm_placement (propagateEvm : Bool) (ops : List DbOp) :
    (∀ k, (execAll propagateEvm ops).addressEvmSources.value AddressEvmSource.evmFund k =
      (execAll propagateEvm (prompt ops)).addressEvmSources.value AddressEvmSource.evmFund k) ∧
    (Undisturbed propagateEvm ops →
      ∀ k, (execAll propagateEvm ops).addressEvmSources.lookup k =
        (execAll propagateEvm (prompt ops)).addressEvmSources.lookup k) := by
  rw [execAll_prompt]
  constructor
  · exact (dbEquiv_prompt_evmFund propagateEvm ops).rollup
  · intro h
    exact (dbEquiv_promptOps rollupCongruence_sameRows ops
      fun before guid evm after heq => calm_of_undisturbed h heq).rollup

/-- A LayerZero inflow of `10` without its EVM source. -/
def lzDelivery : Batch where
  edges := [⟨7, 2, "0xoft", "0xa", some "usdc", 10, true, some "oft", 0⟩]
  inflows := [⟨7, 2, "oft", "0xa", none, none, some "usdc", 10, some "0x01", 0⟩]

/-- Its recipient passes `4` on. -/
def passOn : Batch where
  edges := [⟨8, 0, "0xa", "0xb", some "usdc", 4, false, none, 0⟩]
  inflows := []

/-- Resolved after the transfer, the inflow never reaches the transfer's
receiver; resolved before it, it does. -/
theorem late_resolution_misses_transfer :
    let late : List DbOp := [.store lzDelivery, .store passOn, .writeEvm "0x01" "0xe1"]
    prompt late = [.store lzDelivery, .writeEvm "0x01" "0xe1", .store passOn] ∧
    (execAll true late).addressEvmSources.lookup ⟨"0xb", "usdc", "0xe1"⟩ = none ∧
    (execAll true (prompt late)).addressEvmSources.value AddressEvmSource.transferFund
      ⟨"0xb", "usdc", "0xe1"⟩ = 4 ∧
    ¬ ∀ k, (execAll true late).addressEvmSources.value AddressEvmSource.transferFund k =
      (execAll true (prompt late)).addressEvmSources.value AddressEvmSource.transferFund k := by
  intro late
  refine ⟨rfl, by decide +kernel, by decide +kernel, fun h => ?_⟩
  have hk := h ⟨"0xb", "usdc", "0xe1"⟩
  revert hk
  decide +kernel

/-- With another bridge delivery in between, the order does not matter. -/
theorem writeEvm_placement_between_deliveries :
    let late : List DbOp := [.store lzDelivery, .store bridgeDelivery, .writeEvm "0x01" "0xe1"]
    (execAll true late).addressEvmSources.lookup ⟨"0xa", "usdc", "0xe1"⟩ =
      (execAll true (prompt late)).addressEvmSources.lookup ⟨"0xa", "usdc", "0xe1"⟩ := by
  intro late
  refine (writeEvm_placement true late).2 ?_ _
  -- Neither batch of the run holds a transfer.
  have hbridge : ∀ batch ∈ stores late, ∀ edge ∈ batch.edges, edge.isBridgeInflow = true := by
    decide +kernel
  intro before guid evm after heq earlier batch later hstores _ k bi asset _ _ _ edge hedge hflag
  have hmem : batch ∈ stores late := by
    have hstores' : stores late = stores before ++ stores (.writeEvm guid evm :: after) := by
      rw [heq]
      exact List.filterMap_append ..
    rw [hstores', hstores]
    simp
  rw [hbridge batch hmem edge hedge] at hflag
  cases hflag

end IndexerProcessors.Reputation

import IndexerProcessors.Reputation.Attribution
import IndexerProcessors.Reputation.Model

/-!
# The address reputation storer

`AddressReputationStorer::process` writes one batch in one database
transaction: the edges and the inflows, each with `ON CONFLICT DO NOTHING`, and
then — where `propagate_evm_sources` is configured — one statement of the rollup
per edge, in (version, event index) order. A flagged edge seeds its recipient
with the EVM source of the batch's first inflow of the same version, recipient
and amount; any other edge propagates its sender's sources.

The batch is modelled as the list of rollup statements it executes
(`rollupSteps`), so that what a batch does to `address_evm_sources` is what
those statements do, and results about statements lift to batches and to whole
histories of batches.
-/

namespace IndexerProcessors.Reputation

open IndexerProcessors.Lib

/-- The tables the storer writes. -/
structure ReputationDb where
  addressTransferEdges : Table (Int64 × Int64) TransferEdge
  bridgeInflows : Table (Int64 × Int64) BridgeInflow
  addressEvmSources : EvmSources

namespace ReputationDb

/-- The database before the first batch. -/
def empty : ReputationDb := ⟨∅, ∅, ∅⟩

end ReputationDb

/-- The storer's input: extracted edges and inflows. -/
structure Batch where
  edges : List TransferEdge
  inflows : List BridgeInflow

/-- The order of `sort_by_key(|e| (e.transaction_version, e.event_index))`. -/
def edgeLe (a b : TransferEdge) : Prop :=
  a.transactionVersion < b.transactionVersion ∨
    a.transactionVersion = b.transactionVersion ∧ a.eventIndex ≤ b.eventIndex

instance : DecidableRel edgeLe := fun _ _ => inferInstanceAs (Decidable (_ ∨ _))

/-- `edges.sort_by_key(..)`, a stable sort. -/
def sortEdges (edges : List TransferEdge) : List TransferEdge :=
  edges.insertionSort edgeLe

/-- The EVM source of the first inflow with the edge's version, recipient and
amount. -/
def joinedEvm (inflows : List BridgeInflow) (version : Int64) (recipient : String) (amount : ℚ) :
    Option String :=
  (inflows.find? fun bi =>
    bi.transactionVersion = version ∧ bi.aptosRecipient = recipient ∧ bi.amount = amount).bind
    (·.evmSource)

/-- The rollup statement of an edge, if it has one. -/
def edgeStep (inflows : List BridgeInflow) (edge : TransferEdge) : Option RollupStep := do
  let asset ← edge.assetType
  let ord := seenOrd edge.transactionVersion edge.eventIndex
  if edge.isBridgeInflow then
    let evm ← joinedEvm inflows edge.transactionVersion edge.toAddress edge.amount
    return .seed edge.toAddress asset evm edge.amount ord
  else
    return .transfer edge.fromAddress edge.toAddress asset edge.amount ord

/-- The statements of a batch, in the order they are executed. -/
def rollupSteps (batch : Batch) : List RollupStep :=
  (sortEdges batch.edges).filterMap (edgeStep batch.inflows)

/-- The GUIDs forwarded to the enricher once the batch is committed. -/
def pendingGuids (batch : Batch) : List String :=
  batch.inflows.filterMap (·.lzGuid)

/-- `AddressReputationStorer::process`: the committed transaction. A failed one
leaves the database as it was. -/
def process (propagateEvm : Bool) (db : ReputationDb) (batch : Batch) : ReputationDb where
  addressTransferEdges := db.addressTransferEdges.insertNewAll <|
    (sortEdges batch.edges).map fun e => ((e.transactionVersion, e.eventIndex), e)
  bridgeInflows := db.bridgeInflows.insertNewAll <|
    batch.inflows.map fun bi => ((bi.transactionVersion, bi.eventIndex), bi)
  addressEvmSources :=
    if propagateEvm then (rollupSteps batch).foldl RollupStep.apply db.addressEvmSources
    else db.addressEvmSources

/-- The database after a history of batches. -/
def storeAll (propagateEvm : Bool) (history : List Batch) : ReputationDb :=
  history.foldl (process propagateEvm) ReputationDb.empty

/-! ## What statements add to `evm_fund` -/

/-- What a statement credits directly to a key. -/
def RollupStep.credit (k : EvmSourceKey) : RollupStep → ℚ
  | .seed recipient asset evm amount _ => if k = ⟨recipient, asset, evm⟩ then amount else 0
  | .transfer .. => 0

theorem evmFund_seed (t : EvmSources) (recipient asset evm : String) (amount : ℚ) (ord : Int64)
    (k : EvmSourceKey) :
    (upsertBridgeSeed t recipient asset evm amount ord).value AddressEvmSource.evmFund k =
      t.value AddressEvmSource.evmFund k + if k = ⟨recipient, asset, evm⟩ then amount else 0 := by
  unfold Table.value
  split
  next hk =>
    subst hk
    rw [lookup_seed_self]
    cases t.lookup ⟨recipient, asset, evm⟩ with
    | none => exact (zero_add amount).symm
    | some old => rfl
  next hk => rw [lookup_seed_ne hk, add_zero]

/-- One statement moves `evm_fund` by its direct credit. -/
theorem evmFund_apply (t : EvmSources) (step : RollupStep) (k : EvmSourceKey) :
    (RollupStep.apply t step).value AddressEvmSource.evmFund k =
      t.value AddressEvmSource.evmFund k + step.credit k := by
  cases step with
  | seed recipient asset evm amount ord => exact evmFund_seed t recipient asset evm amount ord k
  | transfer a b asset amount ord =>
    rw [RollupStep.credit, add_zero]
    exact evmFund_propagate t a b asset amount ord k

/-- Any number of statements move it by the sum of theirs, whatever the table
and whatever propagations stand between the seeds. -/
theorem evmFund_foldl (k : EvmSourceKey) :
    ∀ (steps : List RollupStep) (t : EvmSources),
      (steps.foldl RollupStep.apply t).value AddressEvmSource.evmFund k =
        t.value AddressEvmSource.evmFund k + (steps.map (RollupStep.credit k)).sum := by
  intro steps
  induction steps with
  | nil => intro t; simp
  | cons step steps ih =>
    intro t
    rw [List.foldl_cons, ih, evmFund_apply, List.map_cons, List.sum_cons, add_assoc]

/-- The sender's total is an aggregate of `evm_fund` values. -/
theorem total_congr {t t' : EvmSources} {a asset : String}
    (h : ∀ k, t.value AddressEvmSource.evmFund k = t'.value AddressEvmSource.evmFund k) :
    total t a asset = total t' a asset :=
  Table.sumWhere_congr fun k _ => h k

/-! ## Histories -/

/-- The amounts of a batch are token amounts. -/
def Batch.AmountsNonneg (batch : Batch) : Prop := ∀ e ∈ batch.edges, 0 ≤ e.amount

/-- The amount of an edge is the amount of its statement. -/
def RollupStep.amount : RollupStep → ℚ
  | .seed _ _ _ amount _ => amount
  | .transfer _ _ _ amount _ => amount

theorem RollupStep.credit_nonneg (step : RollupStep) (h : 0 ≤ step.amount) (k : EvmSourceKey) :
    0 ≤ step.credit k := by
  cases step with
  | seed recipient asset evm amount ord =>
    show 0 ≤ if k = ⟨recipient, asset, evm⟩ then amount else 0
    split
    · exact h
    · exact le_rfl
  | transfer a b asset amount ord => exact le_rfl

/-- What the statement of an edge can be. -/
theorem edgeStep_cases {inflows : List BridgeInflow} {e : TransferEdge} {step : RollupStep}
    (h : edgeStep inflows e = some step) :
    ∃ asset, e.assetType = some asset ∧
      ((e.isBridgeInflow = true ∧
        ∃ evm, joinedEvm inflows e.transactionVersion e.toAddress e.amount = some evm ∧
          step = .seed e.toAddress asset evm e.amount
            (seenOrd e.transactionVersion e.eventIndex)) ∨
       (e.isBridgeInflow = false ∧
        step = .transfer e.fromAddress e.toAddress asset e.amount
          (seenOrd e.transactionVersion e.eventIndex))) := by
  simp only [edgeStep, Option.bind_eq_bind, Option.bind_eq_some_iff] at h
  obtain ⟨asset, hasset, h⟩ := h
  refine ⟨asset, hasset, ?_⟩
  split at h
  next hb =>
    obtain ⟨evm, hevm, hstep⟩ := Option.bind_eq_some_iff.mp h
    exact Or.inl ⟨hb, evm, hevm, (Option.some.inj hstep).symm⟩
  next hb => exact Or.inr ⟨Bool.eq_false_iff.mpr hb, (Option.some.inj h).symm⟩

theorem edgeStep_amount {inflows : List BridgeInflow} {e : TransferEdge} {step : RollupStep}
    (h : edgeStep inflows e = some step) : step.amount = e.amount := by
  obtain ⟨asset, _, ⟨_, evm, _, rfl⟩ | ⟨_, rfl⟩⟩ := edgeStep_cases h <;> rfl

theorem mem_rollupSteps {batch : Batch} {step : RollupStep} :
    step ∈ rollupSteps batch ↔ ∃ e ∈ batch.edges, edgeStep batch.inflows e = some step := by
  rw [rollupSteps, List.mem_filterMap]
  have hmem : ∀ e, e ∈ sortEdges batch.edges ↔ e ∈ batch.edges := fun e =>
    (List.perm_insertionSort edgeLe batch.edges).mem_iff
  simp only [hmem]

theorem rollupSteps_nonneg {batch : Batch} (h : batch.AmountsNonneg) :
    ∀ step ∈ rollupSteps batch, 0 ≤ step.amount := by
  intro step hstep
  obtain ⟨e, he, hs⟩ := mem_rollupSteps.mp hstep
  rw [edgeStep_amount hs]
  exact h e he

/-- A batch is one stretch of statements, so a history is one long stretch. -/
theorem storeAll_evmSources (history : List Batch) :
    (storeAll true history).addressEvmSources = rollup (history.flatMap rollupSteps) := by
  suffices h : ∀ db : ReputationDb,
      (history.foldl (process true) db).addressEvmSources =
        (history.flatMap rollupSteps).foldl RollupStep.apply db.addressEvmSources from
    h ReputationDb.empty
  induction history with
  | nil => intro db; rfl
  | cons batch history ih =>
    intro db
    rw [List.foldl_cons, ih, List.flatMap_cons, List.foldl_append]
    rfl

/-- Token amounts in, non-negative funds out. -/
theorem storeAll_evmFund_nonneg {history : List Batch} (h : ∀ b ∈ history, b.AmountsNonneg)
    (k : EvmSourceKey) :
    0 ≤ (storeAll true history).addressEvmSources.value AddressEvmSource.evmFund k := by
  have hsteps : ∀ s ∈ history.flatMap rollupSteps, s.SeedNonneg := by
    intro s hs
    obtain ⟨b, hb, hsb⟩ := List.mem_flatMap.mp hs
    have hnn := rollupSteps_nonneg (h b hb) s hsb
    cases s with
    | seed recipient asset evm amount ord => exact hnn
    | transfer a b asset amount ord => trivial
  rw [storeAll_evmSources]
  unfold Table.value
  cases hl : (rollup (history.flatMap rollupSteps)).lookup k with
  | none => exact le_refl 0
  | some row => exact (rollupInv_rollup hsteps).nonneg k row hl

end IndexerProcessors.Reputation

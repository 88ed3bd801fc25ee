import IndexerProcessors.Lib.TwoStage
import IndexerProcessors.Objects.Batching

/-!
# Deleted objects and the pipeline

The extractor and the storer are connected by a channel, so that the extractor may be
several batches ahead while it looks for the objects a batch deletes. A look-up that finds
nothing is tried again, but only `query_retries` times: then the deletion is dropped, and
the object stays. A look-up that finds the row of an earlier batch is not tried again.

`pipeline_keeps_deletions` — where every look-up that is made has the answer the table
gives once all earlier batches are stored, the tables end as in the sequential run.
`deletion_dropped` — the object was created by the batch before, which is not stored yet.
-/

namespace IndexerProcessors.Objects

open IndexerProcessors.Lib
open IndexerProcessors.WriteSet

variable {sdk : Sdk} {queryRetries : ℕ}

/-! ## The pipeline -/

/-- For the look-up of a change, by version, index and address, and for each of its
tries: how many of the batches under way have been stored by then, as far as the row of
the address goes. -/
abbrev Choice := Int64 → ℕ → String → ℕ → ℕ

abbrev Pipeline := TwoStage ObjectsDb (List WriteSet.Transaction) ProcessState

abbrev PipelineAction := TwoStage.Action Choice (List WriteSet.Transaction)

def Pipeline.init : Pipeline := ⟨[], [], ⟨∅, ∅⟩⟩

/-- What the look-ups of a batch see of the tables. -/
def seen (choice : Choice) (tables : ℕ → ObjectsDb) : ObjectConn :=
  fun version index address tried =>
    (tables (choice version index address tried)).currentObjects.lookup address

/-- A batch is extracted, or the oldest batch under way is stored. -/
def pipelineStep (sdk : Sdk) (queryRetries : ℕ) : Pipeline → PipelineAction → Option Pipeline :=
  TwoStage.step (fun conn => processObjects sdk conn queryRetries) ObjectsDb.store seen

/-! ## Look-ups -/

/-- What a deletion takes over from the row it finds. -/
def lastKnown (row : CurrentObject) : String × ℚ × Bool × Bool :=
  (row.ownerAddress, row.lastGuidCreationNum, row.allowUngatedTransfer, row.untransferrable)

/-- If a change makes a look-up, both databases give the same answer. It makes one if it
deletes an object that has no row in the batch yet. -/
def ChangeAgrees (sdk : Sdk) (queryRetries : ℕ) (conn conn' : ObjectConn) (txnVersion : Int64)
    (st : ProcessState) (index : ℕ) : WriteSet.Change → Prop
  | .deleteResource _ dr _ =>
    let address := sdk.standardizeAddress dr.address
    dr.typeStr = objectGroup → st.allCurrentObjects.lookup address = none →
      (getCurrentObject queryRetries (conn txnVersion index address)).map lastKnown =
        (getCurrentObject queryRetries (conn' txnVersion index address)).map lastKnown
  | _ => True

instance (conn conn' : ObjectConn) (txnVersion : Int64) (st : ProcessState) (index : ℕ) :
    ∀ change, Decidable (ChangeAgrees sdk queryRetries conn conn' txnVersion st index change)
  | .deleteResource _ _ _ => inferInstanceAs (Decidable (_ → _ → _ = _))
  | .deleteModule _ | .deleteTableItem _ _ | .writeModule _ | .writeResource _ _ _
  | .writeTableItem _ _ => .isTrue trivial

def ChangesAgree (sdk : Sdk) (queryRetries : ℕ) (conn conn' : ObjectConn) (txnVersion : Int64) :
    List (WriteSet.Change × ℕ) → ProcessState → Prop
  | [], _ => True
  | change :: changes, st =>
    ChangeAgrees sdk queryRetries conn conn' txnVersion st change.2 change.1 ∧
      ChangesAgree sdk queryRetries conn conn' txnVersion changes
        (addObject sdk conn' queryRetries txnVersion st change)

instance decidableChangesAgree (conn conn' : ObjectConn) (txnVersion : Int64) :
    ∀ changes st, Decidable (ChangesAgree sdk queryRetries conn conn' txnVersion changes st)
  | [], _ => .isTrue trivial
  | change :: changes, st =>
    have := decidableChangesAgree conn conn' txnVersion changes
      (addObject sdk conn' queryRetries txnVersion st change)
    inferInstanceAs (Decidable (_ ∧ _))

/-- The changes of a transaction, and what is known after the first two passes. -/
def prepare (sdk : Sdk) (st : ProcessState) (txn : WriteSet.Transaction) :
    Option (List (WriteSet.Change × ℕ) × ProcessState) := do
  let _ ← txn.timestamp
  let changes ← transactionChanges txn
  let mapping ← changes.foldlM (addCore sdk) st.objectMetadataHelper
  let mapping ← changes.foldlM (addUntransferable sdk) mapping
  return (changes.zipIdx, { st with objectMetadataHelper := mapping })

/-- Both databases give the same answer to every look-up a batch makes. -/
def LookupsAgree (sdk : Sdk) (queryRetries : ℕ) (conn conn' : ObjectConn) :
    List WriteSet.Transaction → ProcessState → Prop
  | [], _ => True
  | txn :: txns, st =>
    match prepare sdk st txn with
    | some (changes, st) =>
      ChangesAgree sdk queryRetries conn conn' txn.txnVersion changes st ∧
        LookupsAgree sdk queryRetries conn conn' txns
          (changes.foldl (addObject sdk conn' queryRetries txn.txnVersion) st)
    | none => True

instance decidableLookupsAgree (conn conn' : ObjectConn) :
    ∀ txns st, Decidable (LookupsAgree sdk queryRetries conn conn' txns st)
  | [], _ => .isTrue trivial
  | txn :: txns, st =>
    match h : prepare sdk st txn with
    | some (changes, st') =>
      have := decidableLookupsAgree conn conn' txns
        (changes.foldl (addObject sdk conn' queryRetries txn.txnVersion) st')
      decidable_of_iff (ChangesAgree sdk queryRetries conn conn' txn.txnVersion changes st' ∧
        LookupsAgree sdk queryRetries conn conn' txns
          (changes.foldl (addObject sdk conn' queryRetries txn.txnVersion) st')) (by
        rw [LookupsAgree, h])
    | none => .isTrue (by rw [LookupsAgree, h]; trivial)

/-- The look-ups of a batch have the answers of the table with all earlier batches. -/
def SeesEarlierBatches (sdk : Sdk) (queryRetries : ℕ) (st : Pipeline) : PipelineAction → Prop
  | .extract choice batch =>
    LookupsAgree sdk queryRetries (seen choice (st.tables ObjectsDb.store))
      (st.flushed ObjectsDb.store).conn batch .init
  | .store => True

instance (st : Pipeline) : ∀ action, Decidable (SeesEarlierBatches sdk queryRetries st action)
  | .extract _ _ => decidableLookupsAgree _ _ _ _
  | .store => .isTrue trivial

/-! ## A batch with the same answers -/

theorem map_deletedObject_congr {found found' : Option CurrentObject}
    (h : found.map lastKnown = found'.map lastKnown) (txnVersion : Int64) (index : ℕ)
    (address stateKeyHash : String) :
    found.map (deletedObject txnVersion index address stateKeyHash) =
      found'.map (deletedObject txnVersion index address stateKeyHash) := by
  cases found with
  | none =>
    cases found' with
    | none => rfl
    | some row' => cases h
  | some row =>
    cases found' with
    | none => cases h
    | some row' =>
      simp only [Option.map_some, Option.some.injEq, lastKnown, Prod.mk.injEq] at h
      obtain ⟨howner, hguid, hungated, hlocked⟩ := h
      simp only [Option.map_some, deletedObject, howner, hguid, hungated, hlocked]

theorem changeObject_congr {conn conn' : ObjectConn} {txnVersion : Int64} {st : ProcessState}
    {index : ℕ} {change : WriteSet.Change}
    (h : ChangeAgrees sdk queryRetries conn conn' txnVersion st index change) :
    changeObject sdk conn queryRetries txnVersion st.objectMetadataHelper st.allCurrentObjects
        index change =
      changeObject sdk conn' queryRetries txnVersion st.objectMetadataHelper st.allCurrentObjects
        index change := by
  cases change with
  | deleteResource stateKeyHash dr params =>
    unfold changeObject fromDeleteResource
    dsimp only
    split
    next hgroup =>
      cases hknown : st.allCurrentObjects.lookup (sdk.standardizeAddress dr.address) with
      | some row => rfl
      | none => exact map_deletedObject_congr (h hgroup hknown) _ _ _ _
    next => rfl
  | writeResource | deleteModule | deleteTableItem | writeModule | writeTableItem => rfl

theorem foldl_addObject_congr {conn conn' : ObjectConn} {txnVersion : Int64}
    {changes : List (WriteSet.Change × ℕ)} {st : ProcessState}
    (h : ChangesAgree sdk queryRetries conn conn' txnVersion changes st) :
    changes.foldl (addObject sdk conn queryRetries txnVersion) st =
      changes.foldl (addObject sdk conn' queryRetries txnVersion) st := by
  induction changes generalizing st with
  | nil => rfl
  | cons change changes ih =>
    have hstep : addObject sdk conn queryRetries txnVersion st change =
        addObject sdk conn' queryRetries txnVersion st change := by
      unfold addObject
      rw [changeObject_congr h.1]
    rw [List.foldl_cons, List.foldl_cons, hstep, ih h.2]

theorem processTransaction_eq_prepare (sdk : Sdk) (conn : ObjectConn) (st : ProcessState)
    (txn : WriteSet.Transaction) :
    processTransaction sdk conn queryRetries st txn = (prepare sdk st txn).map fun prepared =>
      prepared.1.foldl (addObject sdk conn queryRetries txn.txnVersion) prepared.2 := by
  simp [processTransaction, prepare, Option.map_bind]

/-- A batch whose look-ups have the same answers has the same rows. -/
theorem foldlM_processTransaction_congr {conn conn' : ObjectConn}
    {txns : List WriteSet.Transaction} {st : ProcessState}
    (h : LookupsAgree sdk queryRetries conn conn' txns st) :
    txns.foldlM (processTransaction sdk conn queryRetries) st =
      txns.foldlM (processTransaction sdk conn' queryRetries) st := by
  induction txns generalizing st with
  | nil => rfl
  | cons txn txns ih =>
    rw [List.foldlM_cons, List.foldlM_cons, processTransaction_eq_prepare,
      processTransaction_eq_prepare]
    unfold LookupsAgree at h
    cases hprepare : prepare sdk st txn with
    | none => rfl
    | some prepared =>
      rw [hprepare] at h
      show txns.foldlM _ (prepared.1.foldl _ prepared.2) =
        txns.foldlM _ (prepared.1.foldl _ prepared.2)
      rw [foldl_addObject_congr h.1]
      exact ih h.2

/-! ## A run of the pipeline -/

/-- If every batch sees the rows of the earlier batches where it looks for them, a pipeline
that has stored everything has the tables of the sequential run; and before that it is on its
way there. -/
theorem pipeline_keeps_deletions {actions : List PipelineAction} {st : Pipeline}
    (h : Run (pipelineStep sdk queryRetries) (SeesEarlierBatches sdk queryRetries) .init actions
      st) :
    runSequential sdk queryRetries st.history = some (st.flushed ObjectsDb.store) ∧
      (st.pending = [] → runSequential sdk queryRetries st.history = some st.db) := by
  have hflushed : runSequential sdk queryRetries st.history =
      some (st.flushed ObjectsDb.store) := by
    refine TwoStage.sequential_flushed ObjectsDb.conn ?_ h
    intro st choice batch hsees
    exact foldlM_processTransaction_congr hsees
  refine ⟨hflushed, ?_⟩
  intro hpending
  rw [hflushed, TwoStage.flushed, hpending]
  rfl

/-- The object is created by one batch and deleted by the next, which is extracted before
the first is stored. -/
def aheadActions (choice : Choice) : List PipelineAction :=
  [.extract choice [createdTxn], .extract choice [deletedTxn], .store, .store]

/-- The first batch is stored when the look-up is tried for the third time. -/
theorem pipeline_keeps_deletions_third_try :
    ∃ st, Run (pipelineStep plainSdk 5) (SeesEarlierBatches plainSdk 5) .init
        (aheadActions fun _ _ _ tried => if tried < 2 then 0 else 1) st ∧
      runSequential plainSdk 5 st.history = some st.db ∧
      (st.db.currentObjects.lookup "0xa").map (·.isDeleted) = some true := by
  obtain ⟨st, hrun, hpending, hdeleted⟩ := exists_run (pipelineStep plainSdk 5)
    (SeesEarlierBatches plainSdk 5) .init
    (aheadActions fun _ _ _ tried => if tried < 2 then 0 else 1)
    (fun st => st.pending.length = 0 ∧
      (st.db.currentObjects.lookup "0xa").map (·.isDeleted) = some true)
    (by decide +kernel)
  exact ⟨st, hrun, (pipeline_keeps_deletions hrun).2 (List.length_eq_zero_iff.mp hpending),
    hdeleted⟩

/-- The first batch is not stored before the last try, and the deletion is dropped. -/
theorem deletion_dropped :
    ∃ st, Run (pipelineStep plainSdk 5) (fun _ _ => True) .init (aheadActions fun _ _ _ _ => 0) st ∧
      st.pending = [] ∧ (st.db.currentObjects.lookup "0xa").map (·.isDeleted) = some false ∧
      ∃ db, runSequential plainSdk 5 st.history = some db ∧
        (db.currentObjects.lookup "0xa").map (·.isDeleted) = some true := by
  obtain ⟨st, hrun, hpending, hlive, hsequential⟩ := exists_run (pipelineStep plainSdk 5)
    (fun _ _ => True) .init (aheadActions fun _ _ _ _ => 0)
    (fun st => st.pending.length = 0 ∧
      (st.db.currentObjects.lookup "0xa").map (·.isDeleted) = some false ∧
      (runSequential plainSdk 5 st.history).any fun db =>
        (db.currentObjects.lookup "0xa").map (·.isDeleted) = some true)
    (by decide +kernel)
  exact ⟨st, hrun, List.length_eq_zero_iff.mp hpending, hlive, exists_of_any hsequential⟩

end IndexerProcessors.Objects

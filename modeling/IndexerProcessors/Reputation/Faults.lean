import IndexerProcessors.Reputation.Enrichment

/-!
# A resolution that does not get through

`write_evm` sends its statements one by one, outside a transaction: the `UPDATE`
that sets `evm_source`, then a seed for each returned row. A seed that fails is
logged and skipped, and the task may die between any two statements. A statement
may also have been executed although its reply never arrives (`Outcome`).

The `UPDATE` is what takes a GUID off `load_pending_guids`, so nothing repeats a
seed that is lost after it (`notMem_loadPendingGuids`). `allOrNothing_iff` says
which fault points leave the resolution whole.
-/

namespace IndexerProcessors.Reputation

open IndexerProcessors.Lib

/-- How a statement that was sent ends. -/
inductive Outcome where
  | done
  | failed
  /-- Executed, but the caller gets an error: the reply was lost. -/
  | unreported
  deriving DecidableEq, Repr

def Outcome.takesEffect : Outcome → Bool
  | .done | .unreported => true
  | .failed => false

/-- What a `write_evm` meets: whether it gets a connection, how the `UPDATE`
ends, and how the seeds end that it comes to send. If there are fewer of these
than seeds to send, the process dies there; if it dies before the `UPDATE`, that
is as if there were no connection. -/
structure Faults where
  connected : Bool
  update : Outcome
  seeds : List Outcome

/-- The database after a call, and the seeds that took effect in it. -/
structure WriteResult where
  db : ReputationDb
  applied : List RollupStep

/-- The loop over the returned rows, as the seeds that take effect. -/
def seedRows (evm : String) : List BridgeInflow → List Outcome → List RollupStep
  | [], _ => []
  | bi :: rows, outcomes =>
    match inflowSeed evm bi, outcomes with
    | none, outcomes => seedRows evm rows outcomes
    | some _, [] => []
    | some step, outcome :: outcomes =>
      if outcome.takesEffect then step :: seedRows evm rows outcomes
      else seedRows evm rows outcomes

/-- The `UPDATE` of `write_evm`. -/
def updateEvmSource (db : ReputationDb) (guid evm : String) : ReputationDb :=
  { db with
    bridgeInflows := db.bridgeInflows.updateWhere (pendingRow guid) fun bi =>
      { bi with evmSource := some evm } }

/-- `DbLzStore::write_evm` under faults. `returned` are the rows of `RETURNING`,
in the order the database gives them. -/
def writeEvmUnder (propagateEvm : Bool) (db : ReputationDb) (guid evm : String)
    (returned : List BridgeInflow) (faults : Faults) : WriteResult :=
  if faults.connected = false then ⟨db, []⟩
  else
    match faults.update with
    | .failed => ⟨db, []⟩
    | .unreported => ⟨updateEvmSource db guid evm, []⟩
    | .done =>
      if returned = [] ∨ propagateEvm = false ∨ evm = evmNullSentinel then
        ⟨updateEvmSource db guid evm, []⟩
      else
        let applied := seedRows evm returned faults.seeds
        ⟨{ updateEvmSource db guid evm with
            addressEvmSources := applied.foldl RollupStep.apply db.addressEvmSources }, applied⟩

/-- `load_pending_guids`, when it gets through. -/
def loadPendingGuids (db : ReputationDb) : List String :=
  (db.bridgeInflows.rowsWhere fun bi => bi.lzGuid.isSome && bi.evmSource.isNone).filterMap
    (·.lzGuid)

/-- Either all rows that waited for the GUID still wait, or all are resolved and
each of their seeds was applied once. -/
def AllOrNothing (db : ReputationDb) (guid evm : String) (result : WriteResult) : Prop :=
  (∀ k bi, db.bridgeInflows.lookup k = some bi → pendingRow guid bi = true →
    ∃ bi', result.db.bridgeInflows.lookup k = some bi' ∧ pendingRow guid bi' = true) ∨
  ((∀ k bi, db.bridgeInflows.lookup k = some bi → pendingRow guid bi = true →
      ∃ bi', result.db.bridgeInflows.lookup k = some bi' ∧ bi'.evmSource = some evm) ∧
    result.applied.Perm (resolutionSeeds true db guid evm) ∧
    result.db.addressEvmSources = result.applied.foldl RollupStep.apply db.addressEvmSources)

/-- How many seeds the loop has to send. -/
def seedCount (returned : List BridgeInflow) : ℕ := returned.countP (·.assetType.isSome)

/-- Every seed is sent and executed. -/
def AllSeeded (returned : List BridgeInflow) (outcomes : List Outcome) : Prop :=
  seedCount returned ≤ outcomes.length ∧
    ∀ outcome ∈ outcomes.take (seedCount returned), outcome.takesEffect = true

instance (returned : List BridgeInflow) (outcomes : List Outcome) :
    Decidable (AllSeeded returned outcomes) := inferInstanceAs (Decidable (_ ∧ _))

/-- The call ends before the `UPDATE` takes effect, or has nothing to seed, or
learns what the `UPDATE` returned and gets every seed through. -/
def NothingLost (returned : List BridgeInflow) (faults : Faults) : Prop :=
  faults.connected = false ∨ faults.update = .failed ∨ seedCount returned = 0 ∨
    faults.update = .done ∧ AllSeeded returned faults.seeds

/-! ## The loop -/

theorem seedRows_cons_none {evm : String} {bi : BridgeInflow} (h : bi.assetType = none)
    (rows : List BridgeInflow) (outcomes : List Outcome) :
    seedRows evm (bi :: rows) outcomes = seedRows evm rows outcomes := by
  cases outcomes <;> simp [seedRows, inflowSeed, h]

theorem seedRows_sublist (evm : String) :
    ∀ (rows : List BridgeInflow) (outcomes : List Outcome),
      (seedRows evm rows outcomes).Sublist (rows.filterMap (inflowSeed evm)) := by
  intro rows
  induction rows with
  | nil => intro outcomes; exact List.Sublist.refl _
  | cons bi rows ih =>
    intro outcomes
    cases hasset : bi.assetType with
    | none =>
      rw [seedRows_cons_none hasset]
      rw [List.filterMap_cons_none (by simp [inflowSeed, hasset])]
      exact ih outcomes
    | some asset =>
      have hseed : inflowSeed evm bi = some (.seed bi.aptosRecipient asset evm bi.amount
          (seenOrd bi.transactionVersion bi.eventIndex)) := by
        simp [inflowSeed, hasset]
      rw [List.filterMap_cons_some hseed]
      cases outcomes with
      | nil => simp [seedRows, inflowSeed, hasset]
      | cons outcome outcomes =>
        simp only [seedRows, inflowSeed, hasset, Option.map_some]
        split
        · exact (ih outcomes).cons_cons _
        · exact (ih outcomes).cons _

theorem length_filterMap_inflowSeed (evm : String) (rows : List BridgeInflow) :
    (rows.filterMap (inflowSeed evm)).length = seedCount rows := by
  unfold seedCount
  rw [List.length_filterMap_eq_countP]
  simp [inflowSeed]

/-- The loop applies as many seeds as there are rows with an asset exactly if
it gets each of them through. -/
theorem length_seedRows_iff (evm : String) :
    ∀ (rows : List BridgeInflow) (outcomes : List Outcome),
      (seedRows evm rows outcomes).length = seedCount rows ↔ AllSeeded rows outcomes := by
  intro rows
  induction rows with
  | nil =>
    intro outcomes
    simp [seedRows, seedCount, AllSeeded]
  | cons bi rows ih =>
    intro outcomes
    cases hasset : bi.assetType with
    | none =>
      have hcount : seedCount (bi :: rows) = seedCount rows := by simp [seedCount, hasset]
      rw [seedRows_cons_none hasset, hcount, ih]
      unfold AllSeeded
      rw [hcount]
    | some asset =>
      have hcount : seedCount (bi :: rows) = seedCount rows + 1 := by simp [seedCount, hasset]
      unfold AllSeeded
      rw [hcount]
      cases outcomes with
      | nil => simp [seedRows, inflowSeed, hasset]
      | cons outcome outcomes =>
        have hle := (seedRows_sublist evm rows outcomes).length_le
        rw [length_filterMap_inflowSeed] at hle
        simp only [seedRows, inflowSeed, hasset, Option.map_some, List.take_succ_cons,
          List.forall_mem_cons, List.length_cons, Nat.add_le_add_iff_right]
        cases heffect : outcome.takesEffect with
        | true =>
          rw [if_pos rfl, List.length_cons, Nat.add_right_cancel_iff, ih]
          simp [AllSeeded]
        | false =>
          -- A seed that is lost here leaves too few, whatever the rest does.
          rw [if_neg Bool.false_ne_true]
          constructor
          · intro hlen
            omega
          · intro hall
            cases hall.2.1

theorem seedRows_perm_iff {evm : String} {rows : List BridgeInflow} {outcomes : List Outcome} :
    (seedRows evm rows outcomes).Perm (rows.filterMap (inflowSeed evm)) ↔
      AllSeeded rows outcomes := by
  rw [← length_seedRows_iff evm, ← length_filterMap_inflowSeed evm]
  constructor
  · intro h
    exact h.length_eq
  · intro h
    exact List.Perm.of_eq ((seedRows_sublist evm rows outcomes).eq_of_length h)

/-! ## The `UPDATE` -/

section Update

variable {db : ReputationDb} {guid evm : String}

theorem lookup_updateEvmSource (db : ReputationDb) (guid evm : String) (k : Int64 × Int64) :
    (updateEvmSource db guid evm).bridgeInflows.lookup k =
      (db.bridgeInflows.lookup k).map fun bi =>
        if pendingRow guid bi then { bi with evmSource := some evm } else bi :=
  Table.lookup_updateWhere ..

/-- The rows that waited are resolved. -/
theorem resolved_updateEvmSource {k : Int64 × Int64} {bi : BridgeInflow}
    (hl : db.bridgeInflows.lookup k = some bi) (hp : pendingRow guid bi = true) :
    (updateEvmSource db guid evm).bridgeInflows.lookup k =
      some { bi with evmSource := some evm } := by
  rw [lookup_updateEvmSource, hl, Option.map_some, if_pos hp]

/-- None is left that waits. -/
theorem notPending_updateEvmSource {k : Int64 × Int64} {bi : BridgeInflow}
    (hl : (updateEvmSource db guid evm).bridgeInflows.lookup k = some bi) :
    pendingRow guid bi = false := by
  rw [lookup_updateEvmSource] at hl
  obtain ⟨bi', _, rfl⟩ := Option.map_eq_some_iff.mp hl
  by_cases hp : pendingRow guid bi' = true
  · rw [if_pos hp]
    simp [pendingRow]
  · rw [if_neg hp]
    exact Bool.eq_false_iff.mpr hp

/-- A GUID is pending as long as a row of it waits. -/
theorem mem_loadPendingGuids :
    guid ∈ loadPendingGuids db ↔
      ∃ k bi, db.bridgeInflows.lookup k = some bi ∧ pendingRow guid bi = true := by
  unfold loadPendingGuids
  rw [List.mem_filterMap]
  constructor
  · rintro ⟨bi, hbi, hguid⟩
    obtain ⟨k, hl, hq⟩ := Table.mem_rowsWhere.mp hbi
    rw [Bool.and_eq_true, Option.isNone_iff_eq_none] at hq
    exact ⟨k, bi, hl, by simp [pendingRow, hguid, hq.2]⟩
  · rintro ⟨k, bi, hl, hp⟩
    obtain ⟨hguid, hevm⟩ := of_decide_eq_true hp
    exact ⟨bi, Table.mem_rowsWhere.mpr ⟨k, hl, by simp [hguid, hevm]⟩, hguid⟩

end Update

/-! ## The whole call -/

section Call

variable {propagateEvm : Bool} {db : ReputationDb} {guid evm : String}
  {returned : List BridgeInflow} {faults : Faults}

/-- The `UPDATE` has no effect. -/
theorem writeEvmUnder_stopped (h : faults.connected = false ∨ faults.update = .failed) :
    writeEvmUnder propagateEvm db guid evm returned faults = ⟨db, []⟩ := by
  unfold writeEvmUnder
  split
  next => rfl
  next hconn =>
    rw [h.resolve_left hconn]

/-- The `UPDATE` has its effect; the seeds are those the loop gets through. -/
theorem writeEvmUnder_updated (db : ReputationDb) (guid : String) (returned : List BridgeInflow)
    (hevm : evm ≠ evmNullSentinel) (hconn : faults.connected = true)
    (hupdate : faults.update ≠ .failed) :
    ∃ applied, writeEvmUnder true db guid evm returned faults =
        ⟨{ updateEvmSource db guid evm with
            addressEvmSources := applied.foldl RollupStep.apply db.addressEvmSources }, applied⟩ ∧
      applied = if faults.update = .done then seedRows evm returned faults.seeds else [] := by
  unfold writeEvmUnder
  rw [if_neg (by simp [hconn])]
  cases hu : faults.update with
  | failed => exact absurd hu hupdate
  | unreported => exact ⟨[], rfl, rfl⟩
  | done =>
    refine ⟨seedRows evm returned faults.seeds, ?_, rfl⟩
    by_cases hnone : returned = []
    · subst hnone
      rfl
    · simp only
      rw [if_neg (by simp [hnone, hevm])]

/-- **Nothing takes a lost seed up again.** Once the `UPDATE` has had its
effect, the GUID is not pending any more, whatever became of the seeds. -/
theorem notMem_loadPendingGuids (hevm : evm ≠ evmNullSentinel) (hconn : faults.connected = true)
    (hupdate : faults.update ≠ .failed) :
    guid ∉ loadPendingGuids (writeEvmUnder true db guid evm returned faults).db := by
  obtain ⟨applied, heq, _⟩ := writeEvmUnder_updated db guid returned hevm hconn hupdate
  rw [heq, mem_loadPendingGuids]
  rintro ⟨k, bi, hl, hp⟩
  rw [notPending_updateEvmSource hl] at hp
  cases hp

end Call

/-- **When a resolution is whole.** For every database and every way a
`write_evm` can fail or be cut short: it is all or nothing exactly if it stops
before the `UPDATE` takes effect, or there is nothing to seed, or the reply of
the `UPDATE` arrives and every seed gets through. -/
theorem allOrNothing_iff (db : ReputationDb) (guid evm : String) (hevm : evm ≠ evmNullSentinel)
    (returned : List BridgeInflow)
    (hret : returned.Perm (db.bridgeInflows.rowsWhere (pendingRow guid))) (faults : Faults) :
    AllOrNothing db guid evm (writeEvmUnder true db guid evm returned faults) ↔
      NothingLost returned faults := by
  have hseeds : resolutionSeeds true db guid evm =
      (db.bridgeInflows.rowsWhere (pendingRow guid)).filterMap (inflowSeed evm) :=
    if_neg (by simp [hevm])
  by_cases hstop : faults.connected = false ∨ faults.update = .failed
  · rw [writeEvmUnder_stopped hstop]
    refine iff_of_true (Or.inl fun k bi hl hp => ⟨bi, hl, hp⟩) ?_
    exact hstop.elim Or.inl fun hf => Or.inr (Or.inl hf)
  · obtain ⟨hconn, hupdate⟩ := not_or.mp hstop
    obtain ⟨applied, heq, happlied⟩ := writeEvmUnder_updated db guid returned hevm
      (Bool.eq_true_of_not_eq_false hconn) hupdate
    -- What counts is whether the seeds that took effect are all there are.
    have hmain : applied.Perm (returned.filterMap (inflowSeed evm)) ↔
        seedCount returned = 0 ∨ faults.update = .done ∧ AllSeeded returned faults.seeds := by
      by_cases hdone : faults.update = .done
      · rw [happlied, if_pos hdone, seedRows_perm_iff]
        constructor
        · intro hall
          exact Or.inr ⟨hdone, hall⟩
        · rintro (hzero | ⟨_, hall⟩)
          · simp [AllSeeded, hzero]
          · exact hall
      · rw [happlied, if_neg hdone, List.nil_perm, ← List.length_eq_zero_iff,
          length_filterMap_inflowSeed]
        simp [hdone]
    have hcond : NothingLost returned faults ↔
        seedCount returned = 0 ∨ faults.update = .done ∧ AllSeeded returned faults.seeds := by
      unfold NothingLost
      rw [or_iff_right hconn, or_iff_right hupdate]
    rw [hcond, ← hmain, heq]
    unfold AllOrNothing
    rw [hseeds]
    constructor
    · rintro (hwait | ⟨_, hperm, _⟩)
      · -- If rows still wait after the `UPDATE`, there were none.
        have hnone : returned = [] := by
          rw [← List.perm_nil]
          refine hret.trans (List.perm_nil.mpr (List.eq_nil_iff_forall_not_mem.mpr ?_))
          intro bi hbi
          obtain ⟨k, hl, hp⟩ := Table.mem_rowsWhere.mp hbi
          obtain ⟨bi', hl', hp'⟩ := hwait k bi hl hp
          rw [notPending_updateEvmSource hl'] at hp'
          cases hp'
        rw [hmain]
        exact Or.inl (by simp [hnone, seedCount])
      · exact hperm.trans (hret.filterMap _).symm
    · intro hperm
      refine Or.inr ⟨fun k bi hl hp => ?_, hperm.trans (hret.filterMap _), rfl⟩
      exact ⟨_, resolved_updateEvmSource hl hp, rfl⟩

/-- Two inflows that share a GUID. -/
def twoDeliveries : Batch where
  edges := []
  inflows := [⟨7, 2, "oft", "0xa", none, none, some "usdc", 10, some "0x01", 0⟩,
    ⟨7, 4, "oft", "0xb", none, none, some "usdc", 5, some "0x01", 0⟩]

/-- A call all of whose statements are executed, the last reply being lost. -/
theorem allOrNothing_iff_twoDeliveries :
    AllOrNothing (process true ReputationDb.empty twoDeliveries) "0x01" "0xe1"
      (writeEvmUnder true (process true ReputationDb.empty twoDeliveries) "0x01" "0xe1"
        twoDeliveries.inflows ⟨true, .done, [.done, .unreported]⟩) :=
  (allOrNothing_iff (process true ReputationDb.empty twoDeliveries) "0x01" "0xe1" (by decide)
    twoDeliveries.inflows (by decide +kernel) ⟨true, .done, [.done, .unreported]⟩).mpr
    (Or.inr (Or.inr (Or.inr ⟨rfl, by decide⟩)))

/-- The process dies after the first of two seeds: both rows are resolved, one
recipient has nothing, and the GUID is not pending. -/
theorem crash_between_seeds_loses_one :
    ∃ result, result = writeEvmUnder true (process true ReputationDb.empty twoDeliveries) "0x01"
        "0xe1" twoDeliveries.inflows ⟨true, .done, [.done]⟩ ∧
      "0x01" ∈ loadPendingGuids (process true ReputationDb.empty twoDeliveries) ∧
      "0x01" ∉ loadPendingGuids result.db ∧
      result.db.addressEvmSources.lookup ⟨"0xb", "usdc", "0xe1"⟩ = none ∧
      ¬AllOrNothing (process true ReputationDb.empty twoDeliveries) "0x01" "0xe1" result := by
  have hgone : "0x01" ∉ loadPendingGuids (writeEvmUnder true
      (process true ReputationDb.empty twoDeliveries) "0x01" "0xe1" twoDeliveries.inflows
      ⟨true, .done, [.done]⟩).db := by decide +kernel
  refine ⟨_, rfl, by decide +kernel, hgone, by decide +kernel, ?_⟩
  rintro (hwait | ⟨_, hperm, _⟩)
  · obtain ⟨bi, hl, hp⟩ := hwait (7, 2)
      ⟨7, 2, "oft", "0xa", none, none, some "usdc", 10, some "0x01", 0⟩ (by decide +kernel)
      (by decide)
    exact hgone (mem_loadPendingGuids.mpr ⟨_, bi, hl, hp⟩)
  · have hlen := hperm.length_eq
    revert hlen
    decide +kernel

end IndexerProcessors.Reputation

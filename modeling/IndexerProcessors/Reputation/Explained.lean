import IndexerProcessors.Reputation.Journeys
import IndexerProcessors.Reputation.Pairing
import IndexerProcessors.Reputation.Trace

/-!
# The trace explains the sources

Two answers to the question where an address got its funds from: the rollup, one row
per EVM address, kept up to date by the storer and the enricher; and the backward
trace, a recursive query over the edges. They share no code, and the rollup keeps no
trace of which edges a row came by.

`sources_are_traced` connects them. Whatever the two tasks did in whatever order, a row
with `hops_min = h` has a way back: `h` stored transfers of its asset, each into the
next one's sender, and behind them a stored bridge edge whose `bridge_inflows` row has
the EVM address. The trace from the address returns that edge at depth `h`.

The batches have to come from one ledger (`OfLedger`): they may overlap, be replayed
and come in any order, but a key must always mean the same row, since the tables keep
the first row of a key and the rollup reads every one.
-/

namespace IndexerProcessors.Reputation

open IndexerProcessors.Lib

/-! ## Batches of one ledger -/

/-- The flagged edge of an inflow. -/
structure Delivers (e : TransferEdge) (bi : BridgeInflow) : Prop where
  flagged : e.isBridgeInflow = true
  version : e.transactionVersion = bi.transactionVersion
  recipient : e.toAddress = bi.aptosRecipient
  amount : e.amount = bi.amount

/-- What the ledger makes of all its transactions at once: no two rows share a key. -/
structure DistinctKeys (ledger : Batch) : Prop where
  edge_keys : (ledger.edges.map TransferEdge.key).Nodup
  inflow_keys : (ledger.inflows.map BridgeInflow.key).Nodup

/-- A batch of rows of the ledger, with each inflow its head edge. -/
structure OfLedger (ledger batch : Batch) : Prop where
  edges : ∀ e ∈ batch.edges, e ∈ ledger.edges
  inflows : ∀ bi ∈ batch.inflows, bi ∈ ledger.inflows
  heads : ∀ bi ∈ batch.inflows, ∃ e ∈ batch.edges, Delivers e bi ∧ e.assetType = bi.assetType

theorem distinctKeys_extract {sdk : Sdk} {registry : BridgeRegistry} {ledger : List Transaction}
    (hversions : (ledger.map (·.version)).Nodup)
    (hevents : ∀ txn ∈ ledger, (userEvents txn).length ≤ 2 ^ 63) :
    DistinctKeys (extract sdk registry ledger).batch := by
  have hindices : ∀ txn ∈ ledger, ∀ p ∈ parseTxn sdk registry txn,
      (p.sides.pairs.map (·.1.eventIndex) ++ p.sides.txnInflows.map (·.eventIndex)).Nodup :=
    fun txn htxn p hp => nodup_edgeIndices hp (hevents txn htxn)
  constructor
  · show ((List.flatMap _ _).map TransferEdge.key).Nodup
    rw [List.map_flatMap]
    refine (List.flatMap_congr fun p hp => ?_) ▸ nodup_batchKeys hversions hindices
    obtain ⟨txn, _, hparse⟩ := List.mem_filterMap.mp hp
    exact (edgeKeys_eq hparse).symm
  · show ((List.flatMap _ _).map BridgeInflow.key).Nodup
    rw [List.map_flatMap]
    have hinflows := nodup_batchKeys hversions fun txn htxn p hp =>
      (List.nodup_append.mp (hindices txn htxn p hp)).2.1
    refine (List.flatMap_congr fun p hp => ?_) ▸ hinflows
    obtain ⟨txn, _, hparse⟩ := List.mem_filterMap.mp hp
    exact (inflowKeys_eq hparse).symm

/-- What the extractor makes of some of the ledger's transactions. -/
theorem ofLedger_extract {sdk : Sdk} {registry : BridgeRegistry} {ledger txns : List Transaction}
    (htxns : ∀ txn ∈ txns, txn ∈ ledger) :
    OfLedger (extract sdk registry ledger).batch (extract sdk registry txns).batch := by
  have hparsed : ∀ p ∈ txns.filterMap (parseTxn sdk registry),
      p ∈ ledger.filterMap (parseTxn sdk registry) := by
    intro p hp
    obtain ⟨txn, htxn, hparse⟩ := List.mem_filterMap.mp hp
    exact List.mem_filterMap.mpr ⟨txn, htxns txn htxn, hparse⟩
  constructor
  · intro e he
    obtain ⟨p, hp, hin⟩ := List.mem_flatMap.mp he
    exact List.mem_flatMap.mpr ⟨p, hparsed p hp, hin⟩
  · intro bi hbi
    obtain ⟨p, hp, hin⟩ := List.mem_flatMap.mp hbi
    exact List.mem_flatMap.mpr ⟨p, hparsed p hp, hin⟩
  · intro bi hbi
    obtain ⟨p, hp, hin⟩ := List.mem_flatMap.mp hbi
    obtain ⟨txn, _, hparse⟩ := List.mem_filterMap.mp hp
    obtain ⟨raw, hraw, rfl⟩ := List.mem_map.mp hin
    refine ⟨headEdge registry p.sides raw, ?_, ⟨rfl, rfl, rfl, rfl⟩, ?_⟩
    · exact List.mem_flatMap.mpr
        ⟨p, hp, List.mem_append_right _ (List.mem_map.mpr ⟨raw, hraw, rfl⟩)⟩
    · show inflowAsset p.sides raw = (inflowAsset p.sides raw).or raw.assetType
      rw [txnInflows_assetType hparse hraw, Option.or_none]

/-! ## What the tables hold -/

/-- The edge is stored, under its key. -/
def ReputationDb.HasEdge (db : ReputationDb) (e : TransferEdge) : Prop :=
  db.addressTransferEdges.lookup e.key = some e

/-- A stored row of an inflow: as it was extracted, or resolved since. -/
def Resolves (row bi : BridgeInflow) : Prop :=
  row = bi ∨ (bi.evmSource = none ∧ ∃ evm, row = { bi with evmSource := some evm })

/-- The rows are the ledger's, and every inflow has its head edge. -/
structure StoredFrom (ledger : Batch) (db : ReputationDb) : Prop where
  edges : ∀ key e, db.addressTransferEdges.lookup key = some e → key = e.key ∧ e ∈ ledger.edges
  inflows : ∀ key row, db.bridgeInflows.lookup key = some row →
    ∃ bi ∈ ledger.inflows, key = bi.key ∧ Resolves row bi
  heads : ∀ key row, db.bridgeInflows.lookup key = some row →
    ∃ e, db.HasEdge e ∧ Delivers e row ∧ e.assetType = row.assetType

/-- Edges stay, and so do inflows with their EVM source. -/
structure Grows (db db' : ReputationDb) : Prop where
  edges : ∀ e, db.HasEdge e → db'.HasEdge e
  inflows : ∀ key row evm, db.bridgeInflows.lookup key = some row → row.evmSource = some evm →
    db'.bridgeInflows.lookup key = some row

/-- What a statement was made from is in the tables: a transfer's edge; a seed's flagged
edge, and the inflow with its EVM source. -/
def Backed (db : ReputationDb) : RollupStep → Prop
  | .seed recipient asset evm _ _ =>
    ∃ e key bi, db.HasEdge e ∧ e.toAddress = recipient ∧ e.assetType = some asset ∧
      db.bridgeInflows.lookup key = some bi ∧ bi.evmSource = some evm ∧ Delivers e bi
  | .transfer fromAddr toAddr asset _ _ =>
    ∃ e, db.HasEdge e ∧ e.isBridgeInflow = false ∧ e.fromAddress = fromAddr ∧
      e.toAddress = toAddr ∧ e.assetType = some asset

theorem Grows.trans {db db' db'' : ReputationDb} (h : Grows db db') (h' : Grows db' db'') :
    Grows db db'' where
  edges e he := h'.edges e (h.edges e he)
  inflows key row evm hrow hevm := h'.inflows key row evm (h.inflows key row evm hrow hevm) hevm

theorem Backed.grows {db db' : ReputationDb} (hgrows : Grows db db') {step : RollupStep}
    (h : Backed db step) : Backed db' step := by
  cases step with
  | seed recipient asset evm amount ord =>
    obtain ⟨e, key, bi, he, hto, hasset, hbi, hevm, hdelivers⟩ := h
    exact ⟨e, key, bi, hgrows.edges e he, hto, hasset, hgrows.inflows key bi evm hbi hevm, hevm,
      hdelivers⟩
  | transfer fromAddr toAddr asset amount ord =>
    obtain ⟨e, he, hrest⟩ := h
    exact ⟨e, hgrows.edges e he, hrest⟩

/-! ## A batch -/

section Process

variable {propagateEvm : Bool} {db : ReputationDb} {ledger batch : Batch}

/-- A row of the edge table is there from before or one of the batch's. -/
theorem of_lookup_process_edges {key : Int64 × Int64} {e : TransferEdge}
    (h : (process propagateEvm db batch).addressTransferEdges.lookup key = some e) :
    db.addressTransferEdges.lookup key = some e ∨ (key = e.key ∧ e ∈ batch.edges) := by
  obtain hold | hnew := Table.of_lookup_insertNewAll h
  · exact Or.inl hold
  · obtain ⟨e', he', heq⟩ := List.mem_map.mp hnew
    obtain ⟨rfl, rfl⟩ := Prod.mk.inj heq
    exact Or.inr ⟨rfl, (List.perm_insertionSort edgeLe batch.edges).mem_iff.mp he'⟩

theorem of_lookup_process_inflows {key : Int64 × Int64} {row : BridgeInflow}
    (h : (process propagateEvm db batch).bridgeInflows.lookup key = some row) :
    db.bridgeInflows.lookup key = some row ∨ (key = row.key ∧ row ∈ batch.inflows) := by
  obtain hold | hnew := Table.of_lookup_insertNewAll h
  · exact Or.inl hold
  · obtain ⟨bi, hbi, heq⟩ := List.mem_map.mp hnew
    obtain ⟨rfl, rfl⟩ := Prod.mk.inj heq
    exact Or.inr ⟨rfl, hbi⟩

theorem grows_process : Grows db (process propagateEvm db batch) where
  edges := by
    intro e he
    show (Table.insertNewAll _ _).lookup _ = _
    rw [Table.lookup_insertNewAll, he, Option.some_or]
  inflows := by
    intro key row evm hrow _
    rw [process_inflows, hrow, Option.some_or]

/-- The edges of a batch of the ledger are stored with it. -/
theorem hasEdge_process (hledger : DistinctKeys ledger) (hstored : StoredFrom ledger db)
    (hbatch : OfLedger ledger batch) {e : TransferEdge} (he : e ∈ batch.edges) :
    (process propagateEvm db batch).HasEdge e := by
  have hsorted : ∀ e', e' ∈ sortEdges batch.edges ↔ e' ∈ batch.edges :=
    fun e' => (List.perm_insertionSort edgeLe batch.edges).mem_iff
  refine Table.lookup_insertNewAll_of_only (List.mem_map.mpr ⟨e, (hsorted e).mpr he, rfl⟩) ?_
  rintro e' (hold | hnew)
  · obtain ⟨hkey, he'⟩ := hstored.edges _ e' hold
    exact List.inj_on_of_nodup_map hledger.edge_keys he' (hbatch.edges e he) hkey.symm
  · obtain ⟨e'', he'', heq⟩ := List.mem_map.mp hnew
    obtain ⟨hkey, rfl⟩ := Prod.mk.inj heq
    exact List.inj_on_of_nodup_map hledger.edge_keys (hbatch.edges e'' ((hsorted e'').mp he''))
      (hbatch.edges e he) hkey

/-- An inflow with its EVM source is stored with its batch, or was before. -/
theorem lookup_process_inflow (hledger : DistinctKeys ledger) (hstored : StoredFrom ledger db)
    (hbatch : OfLedger ledger batch) {bi : BridgeInflow} (hbi : bi ∈ batch.inflows) {evm : String}
    (hevm : bi.evmSource = some evm) :
    (process propagateEvm db batch).bridgeInflows.lookup bi.key = some bi := by
  refine Table.lookup_insertNewAll_of_only (List.mem_map.mpr ⟨bi, hbi, rfl⟩) ?_
  rintro row (hold | hnew)
  · obtain ⟨bi', hbi', hkey, hrow⟩ := hstored.inflows _ row hold
    obtain rfl := List.inj_on_of_nodup_map hledger.inflow_keys hbi' (hbatch.inflows bi hbi)
      hkey.symm
    refine hrow.resolve_right fun hresolved => ?_
    rw [hresolved.1] at hevm
    cases hevm
  · obtain ⟨bi', hbi', heq⟩ := List.mem_map.mp hnew
    obtain ⟨hkey, rfl⟩ := Prod.mk.inj heq
    exact List.inj_on_of_nodup_map hledger.inflow_keys (hbatch.inflows bi' hbi')
      (hbatch.inflows bi hbi) hkey

theorem storedFrom_process (hledger : DistinctKeys ledger) (hstored : StoredFrom ledger db)
    (hbatch : OfLedger ledger batch) : StoredFrom ledger (process propagateEvm db batch) where
  edges := by
    intro key e he
    obtain hold | ⟨hkey, hnew⟩ := of_lookup_process_edges he
    · exact hstored.edges key e hold
    · exact ⟨hkey, hbatch.edges e hnew⟩
  inflows := by
    intro key row hrow
    obtain hold | ⟨hkey, hnew⟩ := of_lookup_process_inflows hrow
    · exact hstored.inflows key row hold
    · exact ⟨row, hbatch.inflows row hnew, hkey, Or.inl rfl⟩
  heads := by
    intro key row hrow
    obtain hold | ⟨-, hnew⟩ := of_lookup_process_inflows hrow
    · obtain ⟨e, he, hhead⟩ := hstored.heads key row hold
      exact ⟨e, grows_process.edges e he, hhead⟩
    · obtain ⟨e, he, hhead⟩ := hbatch.heads row hnew
      exact ⟨e, hasEdge_process hledger hstored hbatch he, hhead⟩

theorem backed_process (hledger : DistinctKeys ledger) (hstored : StoredFrom ledger db)
    (hbatch : OfLedger ledger batch) {step : RollupStep} (hstep : step ∈ rollupSteps batch) :
    Backed (process propagateEvm db batch) step := by
  obtain ⟨e, he, hedge⟩ := List.mem_filterMap.mp hstep
  have hmem : e ∈ batch.edges := (List.perm_insertionSort edgeLe batch.edges).mem_iff.mp he
  have hhas : (process propagateEvm db batch).HasEdge e :=
    hasEdge_process hledger hstored hbatch hmem
  simp only [edgeStep, Option.bind_eq_bind, Option.bind_eq_some_iff] at hedge
  obtain ⟨asset, hasset, hstep⟩ := hedge
  split at hstep
  next hflag =>
    obtain ⟨evm, hevm, hstep⟩ := Option.bind_eq_some_iff.mp hstep
    obtain rfl := Option.some.inj hstep
    obtain ⟨bi, hfind, hsource⟩ := Option.bind_eq_some_iff.mp hevm
    have hbi := List.mem_of_find?_eq_some hfind
    obtain ⟨hversion, hrecipient, hamount⟩ : bi.transactionVersion = e.transactionVersion ∧
        bi.aptosRecipient = e.toAddress ∧ bi.amount = e.amount := by
      simpa using List.find?_some hfind
    exact ⟨e, bi.key, bi, hhas, rfl, hasset,
      lookup_process_inflow hledger hstored hbatch hbi hsource, hsource,
      hflag, hversion.symm, hrecipient.symm, hamount.symm⟩
  next hflag =>
    obtain rfl := Option.some.inj hstep
    exact ⟨e, hhas, Bool.eq_false_iff.mpr hflag, rfl, rfl, hasset⟩

end Process

/-! ## A resolution -/

section WriteEvm

variable {propagateEvm : Bool} {db : ReputationDb} {ledger : Batch} {guid evm : String}

theorem grows_writeEvm : Grows db (writeEvm propagateEvm db guid evm) where
  edges _ he := he
  inflows := by
    intro key row evm' hrow hevm
    have hwaits : pendingRow guid row ≠ true := by simp [pendingRow, hevm]
    rw [writeEvm_inflows, hrow, Option.map_some, if_neg hwaits]

theorem storedFrom_writeEvm (hstored : StoredFrom ledger db) :
    StoredFrom ledger (writeEvm propagateEvm db guid evm) where
  edges := hstored.edges
  inflows := by
    intro key row hrow
    rw [writeEvm_inflows, Option.map_eq_some_iff] at hrow
    obtain ⟨old, hold, rfl⟩ := hrow
    obtain ⟨bi, hbi, hkey, hresolves⟩ := hstored.inflows key old hold
    refine ⟨bi, hbi, hkey, ?_⟩
    split
    next hpending =>
      have hnone : old.evmSource = none := (of_decide_eq_true hpending).2
      obtain rfl | ⟨-, evm', rfl⟩ := hresolves
      · exact Or.inr ⟨hnone, evm, rfl⟩
      · cases hnone
    next => exact hresolves
  heads := by
    intro key row hrow
    rw [writeEvm_inflows, Option.map_eq_some_iff] at hrow
    obtain ⟨old, hold, rfl⟩ := hrow
    obtain ⟨e, he, hdelivers, hasset⟩ := hstored.heads key old hold
    refine ⟨e, he, ?_⟩
    split
    · exact ⟨⟨hdelivers.flagged, hdelivers.version, hdelivers.recipient, hdelivers.amount⟩, hasset⟩
    · exact ⟨hdelivers, hasset⟩

theorem backed_writeEvm (hstored : StoredFrom ledger db) {step : RollupStep}
    (hstep : step ∈ resolutionSeeds propagateEvm db guid evm) :
    Backed (writeEvm propagateEvm db guid evm) step := by
  obtain ⟨-, key, bi, asset, hbi, hpending, hasset, rfl⟩ := mem_resolutionSeeds hstep
  obtain ⟨e, he, hdelivers, hsame⟩ := hstored.heads key bi hbi
  refine ⟨e, key, { bi with evmSource := some evm }, he, hdelivers.recipient, hsame.trans hasset,
    ?_, rfl, hdelivers.flagged, hdelivers.version, hdelivers.recipient, hdelivers.amount⟩
  rw [writeEvm_inflows, hbi, Option.map_some, if_pos hpending]

end WriteEvm

/-! ## A run -/

/-- The statements of a run are backed by what the run leaves in the tables. -/
theorem backed_statementsFrom {propagateEvm : Bool} {ledger : Batch}
    (hledger : DistinctKeys ledger) {ops : List DbOp} :
    ∀ {db : ReputationDb}, StoredFrom ledger db →
      (∀ batch ∈ stores ops, OfLedger ledger batch) →
      Grows db (ops.foldl (DbOp.exec propagateEvm) db) ∧
        ∀ step ∈ statementsFrom propagateEvm db ops,
          Backed (ops.foldl (DbOp.exec propagateEvm) db) step := by
  induction ops with
  | nil => exact fun _ _ => ⟨⟨fun _ he => he, fun _ _ _ hrow _ => hrow⟩, fun _ h => nomatch h⟩
  | cons op ops ih =>
    intro db hstored hbatches
    have hrest : ∀ batch ∈ stores ops, OfLedger ledger batch := by
      intro batch hbatch
      refine hbatches batch ?_
      cases op with
      | store b => exact List.mem_cons_of_mem _ hbatch
      | writeEvm guid evm => exact hbatch
    -- What one operation does; the rest of the run starts from there.
    have hop : StoredFrom ledger (op.exec propagateEvm db) ∧
        Grows db (op.exec propagateEvm db) ∧
        ∀ step ∈ op.statements propagateEvm db, Backed (op.exec propagateEvm db) step := by
      cases op with
      | store batch =>
        have hbatch := hbatches batch List.mem_cons_self
        refine ⟨storedFrom_process hledger hstored hbatch, grows_process, ?_⟩
        intro step hstep
        cases propagateEvm with
        | false => cases hstep
        | true => exact backed_process hledger hstored hbatch hstep
      | writeEvm guid evm =>
        exact ⟨storedFrom_writeEvm hstored, grows_writeEvm,
          fun step hstep => backed_writeEvm hstored hstep⟩
    obtain ⟨hstored', hgrows, hbacked⟩ := hop
    obtain ⟨hgrows', hbacked'⟩ := ih hstored' hrest
    refine ⟨hgrows.trans hgrows', ?_⟩
    intro step hstep
    rw [statementsFrom, List.mem_append] at hstep
    rcases hstep with hstep | hstep
    -- The tables only grow, so what backs a statement stays.
    · exact (hbacked step hstep).grows hgrows'
    · exact hbacked' step hstep

theorem storedFrom_empty (ledger : Batch) : StoredFrom ledger ReputationDb.empty := by
  constructor <;> intro key row h <;> simp [ReputationDb.empty] at h

/-! ## The way back -/

/-- The rows of the edge table, in whatever order the query reads them. -/
def EdgeTable.Lists (edges : EdgeTable) (db : ReputationDb) : Prop :=
  ∀ e, e ∈ edges.rows ↔ db.HasEdge e

/-- The edge is a bridge's, and its inflow has the EVM address. -/
def FromEvm (db : ReputationDb) (evm : String) (e : TransferEdge) : Prop :=
  ∃ key bi, db.bridgeInflows.lookup key = some bi ∧ bi.evmSource = some evm ∧ Delivers e bi

/-- A chain grows at the target, too. -/
theorem backwardChain_cons {edges : EdgeTable} {e : TransferEdge} {chain : List TransferEdge}
    (he : e ∈ edges.rows) (hcut : e.isBridgeInflow = false)
    (h : BackwardChain edges e.fromAddress chain) : BackwardChain edges e.toAddress (e :: chain) := by
  obtain ⟨hstored, htarget, hlinked, huncut⟩ := h
  cases chain with
  | nil => cases htarget
  | cons first rest =>
    refine ⟨?_, rfl, List.IsChain.cons_cons (Option.some.inj htarget) hlinked, ?_⟩
    · intro e' he'
      obtain rfl | he' := List.mem_cons.mp he'
      · exact he
      · exact hstored e' he'
    · intro e' he'
      rw [List.dropLast_cons_cons] at he'
      obtain rfl | he' := List.mem_cons.mp he'
      · exact hcut
      · exact huncut e' he'

/-- A journey's way back: a chain of as many edges, all of its asset, whose last one the
EVM address delivered. -/
theorem exists_backwardChain {edges : EdgeTable} {db : ReputationDb} (hedges : edges.Lists db)
    {log path : List RollupStep} {k : EvmSourceKey} (hbacked : ∀ step ∈ log, Backed db step)
    (hpath : Journey rollupMoves log k path) :
    ∃ front e, BackwardChain edges k.movementAddress (front ++ [e]) ∧
      front.length + 1 = path.length ∧
      (∀ e' ∈ front ++ [e], e'.assetType = some k.assetType) ∧ FromEvm db k.evmAddress e := by
  -- the newest edge of the journey is the head of its chain
  induction hpath with
  | @start log step k hstart =>
    cases step with
    | transfer => exact hstart.elim
    | seed recipient asset evm amount ord =>
      obtain rfl : k = ⟨recipient, asset, evm⟩ := hstart
      obtain ⟨e, key, bi, he, rfl, hasset, hbi, hevm, hdelivers⟩ :=
        hbacked _ (List.mem_append_right _ List.mem_cons_self)
      refine ⟨[], e, backwardChain_singleton.mpr ⟨(hedges e).mpr he, rfl⟩, rfl, ?_,
        key, bi, hbi, hevm, hdelivers⟩
      intro e' he'
      obtain rfl := List.mem_singleton.mp he'
      exact hasset
  | @carry log step a k path hfront hcarry ih =>
    cases step with
    | seed => exact hcarry.elim
    | transfer fromAddr toAddr asset amount ord =>
      obtain ⟨_, rfl, rfl, rfl⟩ := hcarry
      obtain ⟨front, last, hchain, hlength, hassets, hevm⟩ :=
        ih fun step hstep => hbacked step (List.mem_append_left _ hstep)
      obtain ⟨e, he, hcut, hfrom, rfl, hasset⟩ :=
        hbacked _ (List.mem_append_right _ List.mem_cons_self)
      refine ⟨e :: front, last, ?_, ?_, ?_, hevm⟩
      · exact backwardChain_cons ((hedges e).mpr he) hcut (hfrom ▸ hchain)
      · rw [List.length_cons, hlength, List.length_append, List.length_singleton]
      · intro e' he'
        obtain rfl | he' := List.mem_cons.mp he'
        · exact hasset
        · exact hassets e' he'
  | @wait log step k path _ ih =>
    exact ih fun step hstep => hbacked step (List.mem_append_left _ hstep)

/-- **Every source can be traced.** After any run of the storer and the enricher over
batches of one ledger, a row with `hops_min = h` has `h` stored transfers of its asset
behind it and, behind these, a stored bridge edge whose inflow has the row's EVM address;
the trace from the row's address returns that edge at depth `h`. -/
theorem sources_are_traced (sdk : Sdk) (registry : BridgeRegistry) (ledger : List Transaction)
    (hversions : (ledger.map (·.version)).Nodup)
    (hevents : ∀ txn ∈ ledger, (userEvents txn).length ≤ 2 ^ 63)
    (propagateEvm : Bool) (ops : List DbOp)
    (hbatches : ∀ batch ∈ stores ops, ∃ txns, (∀ txn ∈ txns, txn ∈ ledger) ∧
      batch = (extract sdk registry txns).batch)
    (edges : EdgeTable) (hedges : edges.Lists (execAll propagateEvm ops))
    (k : EvmSourceKey) (row : AddressEvmSource)
    (hrow : (execAll propagateEvm ops).addressEvmSources.lookup k = some row)
    (maxDepth : ℕ) (hdepth : row.hopsMin ≤ maxDepth) :
    ∃ front e, BackwardChain edges k.movementAddress (front ++ [e]) ∧
      front.length = row.hopsMin ∧
      (∀ e' ∈ front ++ [e], e'.assetType = some k.assetType) ∧
      FromEvm (execAll propagateEvm ops) k.evmAddress e ∧
      ∃ rows, (∀ rounds, maxDepth < rounds →
          trace edges k.movementAddress maxDepth rounds = some rows) ∧
        upstreamRow e row.hopsMin ∈ rows := by
  have hdistinct : DistinctKeys (extract sdk registry ledger).batch :=
    distinctKeys_extract hversions hevents
  have hof : ∀ batch ∈ stores ops, OfLedger (extract sdk registry ledger).batch batch := by
    intro batch hbatch
    obtain ⟨txns, htxns, rfl⟩ := hbatches batch hbatch
    exact ofLedger_extract htxns
  have hbacked : ∀ step ∈ statements propagateEvm ops, Backed (execAll propagateEvm ops) step :=
    (backed_statementsFrom hdistinct (storedFrom_empty _) hof).2
  -- the row's shortest journey
  rw [execAll_evmSources] at hrow
  have hhops : hopsOf (statements propagateEvm ops) k = some row.hopsMin := by
    unfold hopsOf
    rw [hrow, Option.map_some]
  obtain ⟨path, hpath, hshortest⟩ := ((relaxes_hopsOf.isLeast _ k _).mp hhops).1
  obtain ⟨front, e, hchain, hlength, hassets, hevm⟩ := exists_backwardChain hedges hbacked hpath
  have hfront : front.length = row.hopsMin := by omega
  obtain ⟨rows, hends, hmem⟩ := exists_trace edges k.movementAddress maxDepth
  refine ⟨front, e, hchain, hfront, hassets, hevm, rows, hends, ?_⟩
  rw [hmem]
  exact ⟨hdepth, front, e, hchain, by rw [hfront]⟩

/-- The stored rows, in the order of the model's table. -/
theorem exists_lists {ledger : Batch} {db : ReputationDb} (hstored : StoredFrom ledger db) :
    ∃ edges : EdgeTable, edges.Lists db := by
  have hkey : ∀ entry ∈ db.addressTransferEdges.entries, entry.2.key = entry.1 := fun entry h =>
    (hstored.edges entry.1 entry.2 (AList.mem_lookup_iff.mpr h)).1.symm
  have hkeys : (db.addressTransferEdges.entries.map (·.2)).map TransferEdge.key =
      db.addressTransferEdges.keys := by
    rw [List.map_map]
    exact List.map_congr_left hkey
  refine ⟨⟨db.addressTransferEdges.entries.map (·.2), ?_⟩, ?_⟩
  · rw [hkeys]
    exact db.addressTransferEdges.keys_nodup
  · intro e
    unfold ReputationDb.HasEdge
    rw [← Option.mem_def, AList.mem_lookup_iff]
    constructor
    · intro he
      obtain ⟨entry, hentry, rfl⟩ := List.mem_map.mp he
      rw [hkey entry hentry]
      exact hentry
    · intro he
      exact List.mem_map.mpr ⟨_, he, rfl⟩

/-- The texts of the pool's delivery and of the transfer below, and what they parse to. -/
def passTexts : List (String × Json) :=
  poolTexts ++
    [(sideData "0x53", .object [("store", .string "0x53"), ("amount", .string "10")]),
     (coreData "0xd", .object [("allow_ungated_transfer", .bool false),
       ("guid_creation_num", .string "0"), ("owner", .string "0xd")])]

def passSdk : Sdk := { poolSdk with fromStr := fun text => passTexts.lookup text }

/-- `0xa` passes the pool's delivery on to `0xd`. -/
def passTxn : Transaction where
  version := 8
  timestamp := some ⟨1700000001, 0⟩
  info := some (storeWrites "0x52" "0xa" "0xc" ++ storeWrites "0x53" "0xd" "0xc")
  txnData := some (.user
    [⟨faWithdraw, sideData "0x52"⟩, ⟨faDeposit, sideData "0x53"⟩] none)

/-- The delivery is found behind the transfer. -/
theorem passTxn_source_traced :
    let db := execAll true [.store (extract passSdk poolRegistry [poolTxn]).batch,
      .store (extract passSdk poolRegistry [passTxn]).batch]
    ∃ edges : EdgeTable, edges.Lists db ∧
      ∃ rows, trace edges (passSdk.standardizeAddress "0xd") 1 2 = some rows ∧
        ∃ pass delivery, BackwardChain edges (passSdk.standardizeAddress "0xd") [pass, delivery] ∧
          FromEvm db "0xe1" delivery ∧ upstreamRow delivery 1 ∈ rows := by
  intro db
  let batches := [(extract passSdk poolRegistry [poolTxn]).batch,
    (extract passSdk poolRegistry [passTxn]).batch]
  have hversions : ([poolTxn, passTxn].map (·.version)).Nodup := by decide
  have hevents : ∀ txn ∈ [poolTxn, passTxn], (userEvents txn).length ≤ 2 ^ 63 := by decide
  have hpool : ∀ txn ∈ [poolTxn], txn ∈ [poolTxn, passTxn] := by simp
  have hpass : ∀ txn ∈ [passTxn], txn ∈ [poolTxn, passTxn] := by simp
  have hdistinct : DistinctKeys (extract passSdk poolRegistry [poolTxn, passTxn]).batch :=
    distinctKeys_extract hversions hevents
  -- The two batches are stored one after the other, both cut from one ledger.
  have hstored : StoredFrom (extract passSdk poolRegistry [poolTxn, passTxn]).batch db :=
    storedFrom_process hdistinct
      (storedFrom_process hdistinct (storedFrom_empty _) (ofLedger_extract hpool))
      (ofLedger_extract hpass)
  obtain ⟨edges, hedges⟩ := exists_lists hstored
  let k : EvmSourceKey :=
    ⟨passSdk.standardizeAddress "0xd", passSdk.standardizeAddress "0xc", "0xe1"⟩
  have hhops : (db.addressEvmSources.lookup k).map AddressEvmSource.hopsMin = some 1 := by
    decide +kernel
  obtain ⟨row, hrow, hhop⟩ := Option.map_eq_some_iff.mp hhops
  have hbatches : ∀ batch ∈ stores (batches.map .store),
      ∃ txns, (∀ txn ∈ txns, txn ∈ [poolTxn, passTxn]) ∧
        batch = (extract passSdk poolRegistry txns).batch := by
    intro batch hbatch
    obtain rfl | hbatch := List.mem_cons.mp hbatch
    · exact ⟨[poolTxn], hpool, rfl⟩
    · exact ⟨[passTxn], hpass, List.mem_singleton.mp hbatch⟩
  obtain ⟨front, e, hchain, hfront, -, hevm, rows, hends, hmem⟩ := sources_are_traced passSdk
    poolRegistry [poolTxn, passTxn] hversions hevents true _ hbatches edges hedges k row hrow 1
    hhop.le
  -- One hop: one transfer in front of the delivery.
  obtain ⟨pass, rfl⟩ := List.length_eq_one_iff.mp (hfront.trans hhop)
  exact ⟨edges, hedges, rows, hends 2 (by decide), pass, e, hchain, hevm, hhop ▸ hmem⟩

end IndexerProcessors.Reputation

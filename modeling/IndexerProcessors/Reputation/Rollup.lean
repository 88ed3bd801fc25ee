import IndexerProcessors.Lib.Numeric
import IndexerProcessors.Lib.Table

/-!
# `address_evm_sources`: the two statements of the rollup

`address_reputation_storer.rs` maintains one row per (Movement address, asset,
EVM address) with two statements:

- `upsertBridgeSeed` — a bridge inflow from `evm` credits `evm_fund` and pins
  `hops_min` to `0`;
- `propagateEvmSources` — a transfer `A → B` of `amount` reads all of `A`'s rows
  for the asset and credits each source's share to `B`'s `transfer_fund`.

Each is modelled as the SQL text executes it, over the keyed tables of
`Lib.Table`; `NUMERIC` arithmetic is exact. The bookkeeping timestamps
(`inserted_at`, `updated_at`) are not modelled.

The share formula carries a discount `1 / (hops_min + 1)`, and yet a transfer
must hand over exactly its amount. It does because of an invariant the
statements keep between them (`RollupInv`): money that arrived over a bridge
sits in rows at hop `0`, so every row with weight is undiscounted.
-/

namespace IndexerProcessors.Reputation

open IndexerProcessors.Lib

/-- Pack (version, event index) into one `BIGINT`; `<<` and `|` are those of
64-bit two's complement. -/
def seenOrd (version eventIndex : Int64) : Int64 :=
  (version <<< 24) ||| (eventIndex &&& 0x00FFFFFF)

/-- Primary key of `address_evm_sources`. -/
structure EvmSourceKey where
  movementAddress : String
  assetType : String
  evmAddress : String
  deriving DecidableEq, Repr

/-- The other columns of an `address_evm_sources` row. -/
structure AddressEvmSource where
  evmFund : ℚ
  transferFund : ℚ
  firstSeenOrd : Int64
  lastSeenOrd : Int64
  hopsMin : ℕ
  deriving DecidableEq, Repr

abbrev EvmSources := Table EvmSourceKey AddressEvmSource

/-- `DO UPDATE SET` of the seed statement. -/
def seedMerge (old excluded : AddressEvmSource) : AddressEvmSource :=
  { old with
    evmFund := old.evmFund + excluded.evmFund
    firstSeenOrd := min old.firstSeenOrd excluded.firstSeenOrd
    lastSeenOrd := max old.lastSeenOrd excluded.lastSeenOrd
    hopsMin := 0 }

/-- `VALUES` of the seed statement. -/
def seedRow (amount : ℚ) (ord : Int64) : AddressEvmSource where
  evmFund := amount
  transferFund := 0
  firstSeenOrd := ord
  lastSeenOrd := ord
  hopsMin := 0

/-- Insert / update a single (recipient, asset, evm) row for a direct bridge
inflow. -/
def upsertBridgeSeed (t : EvmSources) (recipient asset evm : String) (amount : ℚ)
    (ord : Int64) : EvmSources :=
  t.upsert seedMerge ⟨recipient, asset, evm⟩ (seedRow amount ord)

/-- `DO UPDATE SET` of the propagation statement. -/
def propagateMerge (old excluded : AddressEvmSource) : AddressEvmSource :=
  { old with
    transferFund := old.transferFund + excluded.transferFund
    firstSeenOrd := min old.firstSeenOrd excluded.firstSeenOrd
    lastSeenOrd := max old.lastSeenOrd excluded.lastSeenOrd
    hopsMin := min old.hopsMin excluded.hopsMin }

/-- `WHERE movement_address = $1 AND asset_type = $2`. -/
def ownedBy (addr asset : String) (k : EvmSourceKey) : Bool :=
  k.movementAddress = addr ∧ k.assetType = asset

/-- The `src` query: the sender's rows in one asset. -/
def src (t : EvmSources) (fromAddr asset : String) : List (EvmSourceKey × AddressEvmSource) :=
  t.select (ownedBy fromAddr asset)

/-- The `total` query: the sender's bridged funds in one asset. -/
def total (t : EvmSources) (fromAddr asset : String) : ℚ :=
  t.sumWhere (ownedBy fromAddr asset) AddressEvmSource.evmFund

/-- A source's share of a transfer before rounding:
`($4 / total.t) * s.evm_fund * (1.0 / (s.hops_min + 1))`. -/
def share (amount total : ℚ) (s : AddressEvmSource) : ℚ :=
  (amount / total) * s.evmFund * (1 / (s.hopsMin + 1))

/-- The row the propagation statement inserts for one source of the sender. -/
def propagatedRow (amount total : ℚ) (ord : Int64) (s : AddressEvmSource) :
    AddressEvmSource where
  evmFund := 0
  transferFund := roundTo 9 (share amount total s)
  firstSeenOrd := ord
  lastSeenOrd := ord
  hopsMin := s.hopsMin + 1

/-- All rows the propagation statement inserts. -/
def propagatedRows (t : EvmSources) (fromAddr toAddr asset : String) (amount : ℚ)
    (ord : Int64) : List (EvmSourceKey × AddressEvmSource) :=
  (src t fromAddr asset).map fun s =>
    (⟨toAddr, asset, s.1.evmAddress⟩, propagatedRow amount (total t fromAddr asset) ord s.2)

/-- Distribute a transfer's `amount` across the sender's existing EVM sources.
The query reads the table as it was before the statement, so a self-transfer
would see its own rows unchanged. -/
def propagateEvmSources (t : EvmSources) (fromAddr toAddr asset : String) (amount : ℚ)
    (ord : Int64) : EvmSources :=
  if 0 < total t fromAddr asset then
    t.upsertAll propagateMerge (propagatedRows t fromAddr toAddr asset amount ord)
  else t

/-! ## What each statement does to a key -/

section Statements

variable {t : EvmSources} {k : EvmSourceKey}

theorem ownedBy_iff {addr asset : String} :
    ownedBy addr asset k = true ↔ k.movementAddress = addr ∧ k.assetType = asset := by
  simp [ownedBy]

theorem lookup_seed_self (t : EvmSources) (recipient asset evm : String) (amount : ℚ)
    (ord : Int64) :
    (upsertBridgeSeed t recipient asset evm amount ord).lookup ⟨recipient, asset, evm⟩ =
      some (Table.merged seedMerge (t.lookup ⟨recipient, asset, evm⟩) (seedRow amount ord)) :=
  Table.lookup_upsert_self ..

theorem lookup_seed_ne {recipient asset evm : String} {amount : ℚ} {ord : Int64}
    (h : k ≠ ⟨recipient, asset, evm⟩) :
    (upsertBridgeSeed t recipient asset evm amount ord).lookup k = t.lookup k :=
  Table.lookup_upsert_ne _ _ _ h

theorem mem_src {fromAddr asset : String} {s : AddressEvmSource} :
    (k, s) ∈ src t fromAddr asset ↔
      t.lookup k = some s ∧ k.movementAddress = fromAddr ∧ k.assetType = asset := by
  rw [src, Table.mem_select, ownedBy_iff]

/-- The inserted rows go to distinct keys: one per source of the sender. -/
theorem propagatedRows_nodup (t : EvmSources) (fromAddr toAddr asset : String) (amount : ℚ)
    (ord : Int64) :
    ((propagatedRows t fromAddr toAddr asset amount ord).map Prod.fst).Nodup := by
  have hnd := Table.nodup_select_keys t (ownedBy fromAddr asset)
  unfold propagatedRows
  rw [List.map_map]
  have hnd' : ((src t fromAddr asset).map Prod.fst).Nodup := hnd
  refine List.Nodup.map_on ?_ (List.Nodup.of_map _ hnd')
  intro source₁ h₁ source₂ h₂ heq
  obtain ⟨k₁, s₁⟩ := source₁
  obtain ⟨k₂, s₂⟩ := source₂
  -- Sources of one sender and asset are told apart by their EVM address.
  obtain ⟨hl₁, ha₁, hb₁⟩ := mem_src.mp h₁
  obtain ⟨hl₂, ha₂, hb₂⟩ := mem_src.mp h₂
  have hevm : k₁.evmAddress = k₂.evmAddress := (EvmSourceKey.mk.inj heq).2.2
  have hk : k₁ = k₂ := by
    cases k₁; cases k₂
    simp_all
  subst hk
  rw [hl₁] at hl₂
  rw [Option.some.inj hl₂]

/-- Away from the receiver's keys nothing changes. -/
theorem lookup_propagate_of_ne {fromAddr toAddr asset : String} {amount : ℚ} {ord : Int64}
    (h : k.movementAddress ≠ toAddr ∨ k.assetType ≠ asset) :
    (propagateEvmSources t fromAddr toAddr asset amount ord).lookup k = t.lookup k := by
  unfold propagateEvmSources
  split
  next =>
    apply Table.lookup_upsertAll_of_notMem
    intro hmem
    simp only [propagatedRows, List.map_map, List.mem_map, Function.comp] at hmem
    obtain ⟨s, _, rfl⟩ := hmem
    exact h.elim (fun h => h rfl) (fun h => h rfl)
  next => rfl

/-- A receiver key whose EVM address the sender does not hold keeps its row. -/
theorem lookup_propagate_of_not_source {fromAddr toAddr asset evm : String} {amount : ℚ}
    {ord : Int64} (h : t.lookup ⟨fromAddr, asset, evm⟩ = none) :
    (propagateEvmSources t fromAddr toAddr asset amount ord).lookup ⟨toAddr, asset, evm⟩ =
      t.lookup ⟨toAddr, asset, evm⟩ := by
  unfold propagateEvmSources
  split
  next =>
    apply Table.lookup_upsertAll_of_notMem
    intro hmem
    simp only [propagatedRows, List.map_map, List.mem_map, Function.comp] at hmem
    obtain ⟨⟨⟨a, b, c⟩, s⟩, hs, heq⟩ := hmem
    obtain ⟨hl, rfl, rfl⟩ := mem_src.mp hs
    obtain rfl : c = evm := (EvmSourceKey.mk.inj heq).2.2
    rw [h] at hl
    cases hl
  next => rfl

/-- A source of a funded sender is merged into the receiver's row. -/
theorem lookup_propagate_of_source {fromAddr toAddr asset evm : String} {amount : ℚ}
    {ord : Int64} {s : AddressEvmSource} (hpos : 0 < total t fromAddr asset)
    (hs : t.lookup ⟨fromAddr, asset, evm⟩ = some s) :
    (propagateEvmSources t fromAddr toAddr asset amount ord).lookup ⟨toAddr, asset, evm⟩ =
      some (Table.merged propagateMerge (t.lookup ⟨toAddr, asset, evm⟩)
        (propagatedRow amount (total t fromAddr asset) ord s)) := by
  unfold propagateEvmSources
  rw [if_pos hpos]
  refine Table.lookup_upsertAll_of_mem _ _ _ (propagatedRows_nodup ..) ?_
  exact List.mem_map.mpr ⟨(⟨fromAddr, asset, evm⟩, s), mem_src.mpr ⟨hs, rfl, rfl⟩, rfl⟩

/-- A sender without bridged funds passes nothing on. -/
theorem propagate_of_not_pos {fromAddr toAddr asset : String} {amount : ℚ} {ord : Int64}
    (h : ¬ 0 < total t fromAddr asset) :
    propagateEvmSources t fromAddr toAddr asset amount ord = t :=
  if_neg h

/-- The four cases in one: a propagation merges a row into each receiver key
whose EVM address a funded sender holds. -/
theorem lookup_propagate (t : EvmSources) (fromAddr toAddr asset : String) (amount : ℚ)
    (ord : Int64) (k : EvmSourceKey) :
    (propagateEvmSources t fromAddr toAddr asset amount ord).lookup k =
      if 0 < total t fromAddr asset ∧ k.movementAddress = toAddr ∧ k.assetType = asset then
        match t.lookup ⟨fromAddr, asset, k.evmAddress⟩ with
        | none => t.lookup k
        | some s => some (Table.merged propagateMerge (t.lookup k)
            (propagatedRow amount (total t fromAddr asset) ord s))
      else t.lookup k := by
  split
  next h =>
    obtain ⟨addr, ast, evm⟩ := k
    obtain ⟨hpos, rfl, rfl⟩ := h
    split
    next hs => exact lookup_propagate_of_not_source hs
    next s hs => exact lookup_propagate_of_source hpos hs
  next h =>
    by_cases hpos : 0 < total t fromAddr asset
    · refine lookup_propagate_of_ne (not_and_or.mp fun hk => h ⟨hpos, hk⟩)
    · rw [propagate_of_not_pos hpos]

end Statements

end IndexerProcessors.Reputation

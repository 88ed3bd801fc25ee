import IndexerProcessors.Lib.Fallible
import IndexerProcessors.Lib.RowNumber
import IndexerProcessors.Reputation.Rollup
import IndexerProcessors.Screening.Hypernative
import Mathlib.Data.String.Basic

/-!
# The score of a Movement address

`query_mvt_scores` (`db.rs` of the API): each source row of the given addresses is
joined with the risk score of its EVM address, the rows of an address are numbered
by falling risk score and then EVM address, and the row numbered 1 is returned,
its `evm_fund` added to the address's `transfer_fund` total.

One EVM address can fund a Movement address in several assets. Its rows then tie
in the ranking, each has an `evm_fund` of its own, and which of them is numbered 1
is up to the database: `scoreDetermined_iff`.

The ranking compares EVM addresses in the database's collation, which is some
linear order of the strings (`Collation`).
-/

namespace IndexerProcessors.Reputation

open IndexerProcessors.Lib
open IndexerProcessors.Screening (EvmRiskScore)

/-- How the database orders strings. -/
structure Collation where
  σ : Type
  order : LinearOrder σ
  key : String → σ
  key_injective : Function.Injective key

attribute [instance] Collation.order

/-- A row of the CTE `base`, the windowed sum included. -/
structure BaseRow where
  movementAddress : String
  evmAddress : String
  evmFund : ℚ
  riskScore : ℚ
  recommendation : String
  severity : String
  totalTransferFund : ℚ
  deriving DecidableEq, Repr

structure MvtScoreRow where
  movementAddress : String
  evmAddress : String
  riskScore : ℚ
  recommendation : String
  severity : String
  transferFund : ℚ
  deriving DecidableEq, Repr

/-- A row of `address_evm_sources`. -/
abbrev AesRow := EvmSourceKey × AddressEvmSource

/-- `SUM(aes.transfer_fund) OVER (PARTITION BY aes.movement_address)` -/
def totalTransferFund (aes : List AesRow) (movementAddress : String) : ℚ :=
  ((aes.filter fun row => row.1.movementAddress = movementAddress).map (·.2.transferFund)).sum

/-- `COALESCE(ers.risk_score, 0)` over the left join. -/
def riskScoreOf (ers : Table String EvmRiskScore) (evmAddress : String) : ℚ :=
  (ers.lookup evmAddress).elim 0 (·.riskScore)

def baseRow (ers : Table String EvmRiskScore) (aes : List AesRow) (row : AesRow) : BaseRow where
  movementAddress := row.1.movementAddress
  evmAddress := row.1.evmAddress
  evmFund := row.2.evmFund
  riskScore := riskScoreOf ers row.1.evmAddress
  recommendation := (ers.lookup row.1.evmAddress).elim "" (·.recommendation)
  severity := (ers.lookup row.1.evmAddress).elim "" (·.severity)
  totalTransferFund := totalTransferFund aes row.1.movementAddress

/-- The CTE `base`, over the rows as the database enumerates them. -/
def base (ers : Table String EvmRiskScore) (aes : List AesRow) (addrs : List String) :
    List BaseRow :=
  let selected := aes.filter fun row => row.1.movementAddress ∈ addrs
  selected.map (baseRow ers selected)

/-- `ORDER BY risk_score DESC, evm_address` -/
def rankOrder (collation : Collation) (row : BaseRow) : ℚᵒᵈ ×ₗ collation.σ :=
  toLex (OrderDual.toDual row.riskScore, collation.key row.evmAddress)

/-- The columns selected from `ranked`. -/
def scoreRow (row : BaseRow) : MvtScoreRow where
  movementAddress := row.movementAddress
  evmAddress := row.evmAddress
  riskScore := row.riskScore
  recommendation := row.recommendation
  severity := row.severity
  transferFund := row.totalTransferFund + row.evmFund

/-- `query_mvt_scores`. -/
def queryMvtScores (collation : Collation) (ers : Table String EvmRiskScore) (aes : List AesRow)
    (addrs : List String) : List MvtScoreRow :=
  let ranked := rowNumbers BaseRow.movementAddress (rankOrder collation) (base ers aes addrs)
  sortBy (fun row => collation.key row.movementAddress)
    ((ranked.filter fun row => row.2 = 1).map fun row => scoreRow row.1)

/-! ## What the score should be -/

/-- The rows of `address_evm_sources`. -/
def sourceRows (t : EvmSources) : List AesRow := t.select fun _ => true

/-- The query's answer is a function of the tables' contents: one row for each listed
address that has sources, of a source with the highest risk score, whatever the order
the stored rows are enumerated in. -/
structure ScoreDetermined (collation : Collation) (ers : Table String EvmRiskScore)
    (t : EvmSources) (addrs : List String) : Prop where
  one_each : ∀ aes, aes.Perm (sourceRows t) →
    ((queryMvtScores collation ers aes addrs).map (·.movementAddress)).Nodup ∧
      ∀ m, m ∈ (queryMvtScores collation ers aes addrs).map (·.movementAddress) ↔
        m ∈ addrs ∧ ∃ k ∈ t, k.movementAddress = m
  top_source : ∀ aes, aes.Perm (sourceRows t) → ∀ r ∈ queryMvtScores collation ers aes addrs,
    ∃ k row, t.lookup k = some row ∧ k.movementAddress = r.movementAddress ∧
      k.evmAddress = r.evmAddress ∧ r.riskScore = riskScoreOf ers k.evmAddress ∧
      (∀ k' ∈ t, k'.movementAddress = r.movementAddress →
        riskScoreOf ers k'.evmAddress ≤ r.riskScore) ∧
      r.transferFund = t.sumWhere (fun k => k.movementAddress = r.movementAddress)
        AddressEvmSource.transferFund + row.evmFund
  determined : ∀ aes aes', aes.Perm (sourceRows t) → aes'.Perm (sourceRows t) →
    queryMvtScores collation ers aes addrs = queryMvtScores collation ers aes' addrs

/-- No source of the same Movement address ranks before this one. -/
def RanksFirst (collation : Collation) (ers : Table String EvmRiskScore) (t : EvmSources)
    (k : EvmSourceKey) : Prop :=
  ∀ k' ∈ t, k'.movementAddress = k.movementAddress →
    riskScoreOf ers k'.evmAddress < riskScoreOf ers k.evmAddress ∨
      riskScoreOf ers k'.evmAddress = riskScoreOf ers k.evmAddress ∧
        collation.key k.evmAddress ≤ collation.key k'.evmAddress

/-- Of each listed address, the rows of the EVM address that ranks first have the same
`evm_fund`, in every asset. -/
def TopFundsAgree (collation : Collation) (ers : Table String EvmRiskScore) (t : EvmSources)
    (addrs : List String) : Prop :=
  ∀ k k' row row', t.lookup k = some row → t.lookup k' = some row' →
    k.movementAddress ∈ addrs → k'.movementAddress = k.movementAddress →
    k'.evmAddress = k.evmAddress → RanksFirst collation ers t k → row.evmFund = row'.evmFund

/-! ## The rows of `base` -/

section Query

variable {collation : Collation} {ers : Table String EvmRiskScore} {t : EvmSources}
  {addrs : List String} {aes aes' : List AesRow}

/-- A row of `base`, read off the table. -/
def sourceRow (ers : Table String EvmRiskScore) (t : EvmSources) (row : AesRow) : BaseRow :=
  { baseRow ers [] row with
    totalTransferFund := t.sumWhere (fun k => k.movementAddress = row.1.movementAddress)
      AddressEvmSource.transferFund }

theorem mem_of_perm_sourceRows (h : aes.Perm (sourceRows t)) {k : EvmSourceKey}
    {row : AddressEvmSource} : (k, row) ∈ aes ↔ t.lookup k = some row := by
  rw [h.mem_iff, sourceRows, Table.mem_select]
  simp

theorem filter_sourceRows (t : EvmSources) (m : String) :
    ((sourceRows t).filter fun row => row.1.movementAddress = m) =
      t.select fun k => k.movementAddress = m := by
  simp only [sourceRows, Table.select, List.filter_true, List.filter_map]
  rfl

/-- The windowed sum is the table's, however its rows are enumerated. -/
theorem totalTransferFund_eq (h : aes.Perm (sourceRows t)) {m : String} (hm : m ∈ addrs) :
    totalTransferFund (aes.filter fun row => row.1.movementAddress ∈ addrs) m =
      t.sumWhere (fun k => k.movementAddress = m) AddressEvmSource.transferFund := by
  have hlisted : ((aes.filter fun row => row.1.movementAddress ∈ addrs).filter fun row =>
      row.1.movementAddress = m) = aes.filter fun row => row.1.movementAddress = m := by
    rw [List.filter_filter]
    refine List.filter_congr fun row _ => ?_
    by_cases hrow : row.1.movementAddress = m
    · simp [hrow, hm]
    · simp [hrow]
  rw [totalTransferFund, hlisted, Table.sumWhere, ← filter_sourceRows]
  exact ((h.filter _).map _).sum_eq

theorem base_eq (h : aes.Perm (sourceRows t)) :
    base ers aes addrs =
      (aes.filter fun row => row.1.movementAddress ∈ addrs).map (sourceRow ers t) := by
  refine List.map_congr_left fun row hrow => ?_
  have hm : row.1.movementAddress ∈ addrs := by simpa using (List.mem_filter.mp hrow).2
  unfold sourceRow baseRow
  rw [totalTransferFund_eq h hm]

theorem base_perm (h : aes.Perm (sourceRows t)) (h' : aes'.Perm (sourceRows t)) :
    (base ers aes addrs).Perm (base ers aes' addrs) := by
  rw [base_eq h, base_eq h']
  exact ((h.trans h'.symm).filter _).map _

theorem mem_base (h : aes.Perm (sourceRows t)) {b : BaseRow} :
    b ∈ base ers aes addrs ↔ ∃ k row, t.lookup k = some row ∧ k.movementAddress ∈ addrs ∧
      b = sourceRow ers t (k, row) := by
  rw [base_eq h, List.mem_map]
  constructor
  · rintro ⟨⟨k, row⟩, hmem, rfl⟩
    obtain ⟨haes, haddr⟩ := List.mem_filter.mp hmem
    exact ⟨k, row, (mem_of_perm_sourceRows h).mp haes, by simpa using haddr, rfl⟩
  · rintro ⟨k, row, hrow, haddr, rfl⟩
    refine ⟨(k, row), List.mem_filter.mpr ⟨(mem_of_perm_sourceRows h).mpr hrow, ?_⟩, rfl⟩
    simpa using haddr

/-- The ranking of two source rows. -/
theorem rankOrder_le_iff {k k' : EvmSourceKey} {row row' : AddressEvmSource} :
    rankOrder collation (sourceRow ers t (k, row)) ≤ rankOrder collation (sourceRow ers t (k', row')) ↔
      riskScoreOf ers k'.evmAddress < riskScoreOf ers k.evmAddress ∨
        riskScoreOf ers k'.evmAddress = riskScoreOf ers k.evmAddress ∧
          collation.key k.evmAddress ≤ collation.key k'.evmAddress := by
  rw [rankOrder, rankOrder, Prod.Lex.toLex_le_toLex]
  constructor
  · rintro (hlt | ⟨heq, hle⟩)
    · exact Or.inl hlt
    · exact Or.inr ⟨(OrderDual.toDual_inj.mp heq).symm, hle⟩
  · rintro (hlt | ⟨heq, hle⟩)
    · exact Or.inl hlt
    · exact Or.inr ⟨congrArg OrderDual.toDual heq.symm, hle⟩

/-- A row may be numbered 1 iff its key ranks first. -/
theorem mayBeFirst_iff (h : aes.Perm (sourceRows t)) {k : EvmSourceKey} {row : AddressEvmSource}
    (hrow : t.lookup k = some row) (haddr : k.movementAddress ∈ addrs) :
    MayBeFirst BaseRow.movementAddress (rankOrder collation) (base ers aes addrs)
        (sourceRow ers t (k, row)) ↔ RanksFirst collation ers t k := by
  constructor
  · intro hfirst k' hk' hm
    obtain ⟨row', hrow'⟩ := Option.isSome_iff_exists.mp (AList.lookup_isSome.mpr hk')
    have hmem : sourceRow ers t (k', row') ∈ base ers aes addrs :=
      (mem_base h).mpr ⟨k', row', hrow', hm ▸ haddr, rfl⟩
    exact rankOrder_le_iff.mp (hfirst.least _ hmem hm)
  · intro hfirst
    refine ⟨(mem_base h).mpr ⟨k, row, hrow, haddr, rfl⟩, fun b hb hm => ?_⟩
    obtain ⟨k', row', hrow', _, rfl⟩ := (mem_base h).mp hb
    exact rankOrder_le_iff.mpr
      (hfirst k' (AList.lookup_isSome.mp (Option.isSome_of_eq_some hrow')) hm)

/-! ## The answer -/

/-- The row numbered 1 of a Movement address. -/
def topRow (collation : Collation) (ers : Table String EvmRiskScore) (aes : List AesRow)
    (addrs : List String) (m : String) : Option BaseRow :=
  firstRow BaseRow.movementAddress (rankOrder collation) (base ers aes addrs) m

theorem queryMvtScores_eq :
    queryMvtScores collation ers aes addrs =
      sortBy (fun row => collation.key row.movementAddress)
        (((base ers aes addrs).map BaseRow.movementAddress).dedup.filterMap fun m =>
          (topRow collation ers aes addrs m).map scoreRow) := by
  have hfirst := filter_rowNumbers BaseRow.movementAddress (rankOrder collation)
    (base ers aes addrs)
  have hrows := congrArg (List.map scoreRow) hfirst
  rw [List.map_map, List.map_filterMap] at hrows
  exact congrArg (sortBy fun row => collation.key row.movementAddress) hrows

theorem mem_queryMvtScores {r : MvtScoreRow} :
    r ∈ queryMvtScores collation ers aes addrs ↔
      ∃ b, topRow collation ers aes addrs r.movementAddress = some b ∧ r = scoreRow b := by
  rw [queryMvtScores_eq, mem_sortBy, List.mem_filterMap]
  constructor
  · rintro ⟨m, _, hm⟩
    obtain ⟨b, hb, rfl⟩ := Option.map_eq_some_iff.mp hm
    obtain ⟨rfl, _⟩ := firstRow_eq_some hb
    exact ⟨b, hb, rfl⟩
  · rintro ⟨b, hb, rfl⟩
    refine ⟨b.movementAddress, ?_, Option.map_eq_some_iff.mpr ⟨b, hb, rfl⟩⟩
    exact List.mem_dedup.mpr (List.mem_map_of_mem (firstRow_eq_some hb).2.mem)

/-- The addresses of the answer, before it is sorted. -/
theorem movementAddresses_perm :
    ((queryMvtScores collation ers aes addrs).map (·.movementAddress)).Perm
      ((base ers aes addrs).map BaseRow.movementAddress).dedup := by
  have hrows : ((((base ers aes addrs).map BaseRow.movementAddress).dedup.filterMap fun m =>
      (topRow collation ers aes addrs m).map scoreRow).map (·.movementAddress)) =
        ((base ers aes addrs).map BaseRow.movementAddress).dedup := by
    rw [List.map_filterMap]
    refine (List.filterMap_congr fun m hm => ?_).trans List.filterMap_some
    -- every partition has a first row, and it is of the partition
    obtain ⟨b, hb, hbm⟩ := List.mem_map.mp (List.mem_dedup.mp hm)
    have hsome : (topRow collation ers aes addrs m).isSome :=
      firstRow_isSome_iff.mpr ⟨b, hb, hbm⟩
    obtain ⟨top, htop⟩ := Option.isSome_iff_exists.mp hsome
    rw [htop, Option.map_some, Option.map_some]
    exact congrArg some (firstRow_eq_some htop).1
  rw [queryMvtScores_eq]
  exact ((List.perm_insertionSort _ _).map _).trans (List.Perm.of_eq hrows)

theorem nodup_queryMvtScores :
    ((queryMvtScores collation ers aes addrs).map (·.movementAddress)).Nodup :=
  movementAddresses_perm.nodup_iff.mpr (List.nodup_dedup _)

theorem mem_movementAddresses (h : aes.Perm (sourceRows t)) {m : String} :
    m ∈ (queryMvtScores collation ers aes addrs).map (·.movementAddress) ↔
      m ∈ addrs ∧ ∃ k ∈ t, k.movementAddress = m := by
  rw [movementAddresses_perm.mem_iff, List.mem_dedup, List.mem_map]
  constructor
  · rintro ⟨b, hb, rfl⟩
    obtain ⟨k, row, hrow, haddr, rfl⟩ := (mem_base h).mp hb
    exact ⟨haddr, k, AList.lookup_isSome.mp (Option.isSome_of_eq_some hrow), rfl⟩
  · rintro ⟨haddr, k, hk, rfl⟩
    obtain ⟨row, hrow⟩ := Option.isSome_iff_exists.mp (AList.lookup_isSome.mpr hk)
    exact ⟨_, (mem_base h).mpr ⟨k, row, hrow, haddr, rfl⟩, rfl⟩

/-- The returned row is of a source with the highest risk score. -/
theorem topRow_spec (h : aes.Perm (sourceRows t)) {m : String} {b : BaseRow}
    (hb : topRow collation ers aes addrs m = some b) :
    ∃ k row, t.lookup k = some row ∧ k.movementAddress ∈ addrs ∧ k.movementAddress = m ∧
      b = sourceRow ers t (k, row) ∧ RanksFirst collation ers t k := by
  obtain ⟨hm, hfirst⟩ := firstRow_eq_some hb
  obtain ⟨k, row, hrow, haddr, rfl⟩ := (mem_base h).mp hfirst.mem
  exact ⟨k, row, hrow, haddr, hm, rfl, (mayBeFirst_iff h hrow haddr).mp hfirst⟩

theorem RanksFirst.risk_le {k k' : EvmSourceKey} (h : RanksFirst collation ers t k) (hk' : k' ∈ t)
    (hm : k'.movementAddress = k.movementAddress) :
    riskScoreOf ers k'.evmAddress ≤ riskScoreOf ers k.evmAddress := by
  rcases h k' hk' hm with hlt | ⟨heq, _⟩
  · exact hlt.le
  · exact heq.le

/-- Two sources that both rank first are of one EVM address. -/
theorem RanksFirst.evm_eq {k k' : EvmSourceKey} (h : RanksFirst collation ers t k)
    (h' : RanksFirst collation ers t k') (hk : k ∈ t) (hk' : k' ∈ t)
    (hm : k'.movementAddress = k.movementAddress) : k'.evmAddress = k.evmAddress := by
  have hrisk : riskScoreOf ers k'.evmAddress = riskScoreOf ers k.evmAddress :=
    le_antisymm (h.risk_le hk' hm) (h'.risk_le hk hm.symm)
  rcases h k' hk' hm with hlt | ⟨_, hle⟩
  · exact absurd hrisk hlt.ne
  rcases h' k hk hm.symm with hlt | ⟨_, hle'⟩
  · exact absurd hrisk.symm hlt.ne
  exact collation.key_injective (le_antisymm hle' hle)

/-- The answer reads nothing else of a source row. -/
theorem scoreRow_congr {k k' : EvmSourceKey} {row row' : AddressEvmSource}
    (hm : k'.movementAddress = k.movementAddress) (hevm : k'.evmAddress = k.evmAddress)
    (hfund : row.evmFund = row'.evmFund) :
    scoreRow (sourceRow ers t (k, row)) = scoreRow (sourceRow ers t (k', row')) := by
  obtain ⟨m, asset, evm⟩ := k
  obtain ⟨m', asset', evm'⟩ := k'
  obtain rfl : m' = m := hm
  obtain rfl : evm' = evm := hevm
  show scoreRow _ = scoreRow _
  simp only [scoreRow, sourceRow, baseRow, hfund]

/-- Where the top sources' funds agree, the answer is the same for every enumeration. -/
theorem queryMvtScores_determined (hagree : TopFundsAgree collation ers t addrs)
    (h : aes.Perm (sourceRows t)) (h' : aes'.Perm (sourceRows t)) :
    queryMvtScores collation ers aes addrs = queryMvtScores collation ers aes' addrs := by
  have hbase : (base ers aes addrs).Perm (base ers aes' addrs) := base_perm h h'
  have htop : ∀ m, (topRow collation ers aes addrs m).map scoreRow =
      (topRow collation ers aes' addrs m).map scoreRow := by
    intro m
    refine map_firstRow_perm hbase fun a b ha hb hma hmb => ?_
    obtain ⟨k, row, hrow, haddr, rfl⟩ := (mem_base h).mp ha.mem
    obtain ⟨k', row', hrow', haddr', rfl⟩ := (mem_base h).mp hb.mem
    have hm : k'.movementAddress = k.movementAddress := hmb.trans hma.symm
    have hk := (mayBeFirst_iff h hrow haddr).mp ha
    have hk' := (mayBeFirst_iff h hrow' haddr').mp hb
    have hevm : k'.evmAddress = k.evmAddress :=
      hk.evm_eq hk' (AList.lookup_isSome.mp (Option.isSome_of_eq_some hrow))
        (AList.lookup_isSome.mp (Option.isSome_of_eq_some hrow')) hm
    exact scoreRow_congr hm hevm (hagree k k' row row' hrow hrow' haddr hm hevm hk)
  have hinj : ∀ a ∈ queryMvtScores collation ers aes addrs,
      ∀ b ∈ queryMvtScores collation ers aes addrs,
        collation.key a.movementAddress = collation.key b.movementAddress → a = b := by
    intro a ha b hb hkey
    exact List.inj_on_of_nodup_map nodup_queryMvtScores ha hb (collation.key_injective hkey)
  rw [queryMvtScores_eq] at hinj ⊢
  rw [queryMvtScores_eq]
  simp only [mem_sortBy] at hinj
  refine sortBy_eq_of_perm ?_ hinj
  simp only [htop]
  exact ((hbase.map _).dedup).filterMap _

/-- Where the answer is always the same, the top sources' funds agree: any of them can
come first. -/
theorem topFundsAgree_of_determined
    (h : ∀ aes aes', aes.Perm (sourceRows t) → aes'.Perm (sourceRows t) →
      queryMvtScores collation ers aes addrs = queryMvtScores collation ers aes' addrs) :
    TopFundsAgree collation ers t addrs := by
  intro k k' row row' hrow hrow' haddr hm hevm hfirst
  -- an enumeration that has a given row of the top source first
  have hanswer : ∀ {j : EvmSourceKey} {r : AddressEvmSource}, t.lookup j = some r →
      j.movementAddress = k.movementAddress → j.evmAddress = k.evmAddress →
      ∃ aes, aes.Perm (sourceRows t) ∧
        scoreRow (sourceRow ers t (j, r)) ∈ queryMvtScores collation ers aes addrs := by
    intro j r hj hjm hjevm
    have hmem : (j, r) ∈ sourceRows t := (mem_of_perm_sourceRows (List.Perm.refl _)).mpr hj
    have hperm : ((j, r) :: (sourceRows t).erase (j, r)).Perm (sourceRows t) :=
      (List.perm_cons_erase hmem).symm
    have hjaddr : j.movementAddress ∈ addrs := hjm ▸ haddr
    have hjfirst : RanksFirst collation ers t j := by
      intro k'' hk'' hm''
      rw [hjevm]
      exact hfirst k'' hk'' (hm''.trans hjm)
    have hmay : MayBeFirst BaseRow.movementAddress (rankOrder collation) (base ers _ addrs)
        (sourceRow ers t (j, r)) := (mayBeFirst_iff hperm hj hjaddr).mpr hjfirst
    refine ⟨_, hperm, mem_queryMvtScores.mpr ⟨sourceRow ers t (j, r), ?_, rfl⟩⟩
    rw [base_eq hperm, List.filter_cons_of_pos (by simpa using hjaddr), List.map_cons] at hmay
    rw [topRow, base_eq hperm, List.filter_cons_of_pos (by simpa using hjaddr), List.map_cons]
    exact firstRow_cons fun b hb hbm => hmay.least b (List.mem_cons_of_mem _ hb) hbm
  obtain ⟨aes, haes, hr⟩ := hanswer hrow rfl rfl
  obtain ⟨aes', haes', hr'⟩ := hanswer hrow' hm hevm
  rw [← h aes aes' haes haes'] at hr'
  have hsame : scoreRow (sourceRow ers t (k, row)) = scoreRow (sourceRow ers t (k', row')) :=
    List.inj_on_of_nodup_map nodup_queryMvtScores hr hr' hm.symm
  have hfund := congrArg MvtScoreRow.transferFund hsame
  simp only [scoreRow, sourceRow, baseRow, hm] at hfund
  exact add_left_cancel hfund

end Query

/-- One row for each listed address with sources, of a source with the highest risk
score, always; and the same row for every enumeration exactly if, for each listed
address, the EVM address that ranks first has one `evm_fund` in all its assets. -/
theorem scoreDetermined_iff (collation : Collation) (ers : Table String EvmRiskScore)
    (t : EvmSources) (addrs : List String) :
    ScoreDetermined collation ers t addrs ↔ TopFundsAgree collation ers t addrs := by
  constructor
  · intro h
    exact topFundsAgree_of_determined h.determined
  · intro h
    refine ⟨fun aes haes => ⟨nodup_queryMvtScores, fun m => mem_movementAddresses haes⟩, ?_,
      fun aes aes' => queryMvtScores_determined h⟩
    intro aes haes r hr
    obtain ⟨b, hb, rfl⟩ := mem_queryMvtScores.mp hr
    obtain ⟨k, row, hrow, _, hm, rfl, hfirst⟩ := topRow_spec haes hb
    exact ⟨k, row, hrow, rfl, rfl, rfl, fun k' hk' hm' => hfirst.risk_le hk' hm', rfl⟩

/-- Strings by their code points. -/
def codePointOrder : Collation := ⟨String, inferInstance, id, Function.injective_id⟩

def directSource (evmFund : ℚ) : AddressEvmSource := ⟨evmFund, 0, 0, 0, 0⟩

/-- `0xe` funds `0xa` with `500` of one asset and `3` of another. -/
def twoAssets : EvmSources :=
  ((∅ : EvmSources).insert ⟨"0xa", "0xc", "0xe"⟩ (directSource 500)).insert ⟨"0xa", "0xd", "0xe"⟩
    (directSource 3)

/-- The score of `0xa` is `500` or `3`. -/
theorem twoAssets_not_determined : ¬ ScoreDetermined codePointOrder ∅ twoAssets ["0xa"] := by
  intro h
  have hfirst : RanksFirst codePointOrder ∅ twoAssets ⟨"0xa", "0xc", "0xe"⟩ := by
    intro k hk _
    have hevm : k.evmAddress = "0xe" := by
      simp only [twoAssets, AList.mem_insert] at hk
      rcases hk with rfl | rfl | hk
      · rfl
      · rfl
      · exact absurd hk (AList.notMem_empty k)
    rw [hevm]
    exact Or.inr ⟨rfl, le_rfl⟩
  have hfund := topFundsAgree_of_determined h.determined ⟨"0xa", "0xc", "0xe"⟩
    ⟨"0xa", "0xd", "0xe"⟩ (directSource 500) (directSource 3) (by decide) (by decide)
    List.mem_cons_self rfl rfl hfirst
  exact absurd hfund (by decide +kernel)

end IndexerProcessors.Reputation

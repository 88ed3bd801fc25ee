import IndexerProcessors.Lib.Run
import IndexerProcessors.Reputation.Storer

/-!
# Storing a batch twice

The checkpoint of a batch is saved after the storer has committed it, and a
restart resumes *at* the last checkpoint, so batches are replayed in normal
operation. The edge and inflow inserts are `ON CONFLICT DO NOTHING`; the rollup
statements accumulate, and run over the whole batch again.

`replay_absorbed_iff` says exactly when that is harmless. Every statement of a
token amount can only move a row one way: funds up, hops down, the seen range
wider (`RowLe`). So a replay leaves the table as it was exactly if each of its
statements, taken alone in the table the replay starts from, does nothing
there, and for one statement that is a condition on a few columns
(`RollupStep.Absorbed`). A seed of a positive amount is never absorbed.

Whatever the sign of the amounts, hops and seen ranges move one way
(`RowCovers`); that is enough for the condition to be sufficient.
-/

namespace IndexerProcessors.Reputation

open IndexerProcessors.Lib

/-- Two tables with the same rows. -/
def SameRows (t t' : EvmSources) : Prop := ∀ k, t.lookup k = t'.lookup k

/-- Storing the batch in `db`, where it has been stored before, changes no row. -/
def ReplayAbsorbed (propagateEvm : Bool) (db : ReputationDb) (batch : Batch) : Prop :=
  SameRows db.addressEvmSources (process propagateEvm db batch).addressEvmSources

/-- A statement that moves no funds in the table `t`: a seed of nothing, or a
transfer out of an address without bridged funds. -/
def RollupStep.Inert (t : EvmSources) : RollupStep → Prop
  | .seed _ _ _ amount _ => amount = 0
  | .transfer fromAddr _ asset _ _ => ¬ 0 < total t fromAddr asset

/-- A statement of a stored batch that does nothing more in the table `t`. A
transfer out of a funded address is absorbed if each source's share rounds to
nothing and the receiver's row already stands at most one hop further out, with
the transfer inside its seen range. -/
def RollupStep.Absorbed (t : EvmSources) : RollupStep → Prop
  | .seed _ _ _ amount _ => amount = 0
  | .transfer fromAddr toAddr asset amount ord =>
    0 < total t fromAddr asset → ∀ s ∈ src t fromAddr asset,
      roundTo 9 (share amount (total t fromAddr asset) s.2) = 0 ∧
      ∃ row, t.lookup ⟨toAddr, asset, s.1.evmAddress⟩ = some row ∧
        row.hopsMin ≤ s.2.hopsMin + 1 ∧ row.firstSeenOrd ≤ ord ∧ ord ≤ row.lastSeenOrd

/-! ## Rows only move one way -/

/-- `r'` is `r` at most as many hops out and with a wider seen range. -/
structure RowCovers (r r' : AddressEvmSource) : Prop where
  firstSeenOrd : r'.firstSeenOrd ≤ r.firstSeenOrd
  lastSeenOrd : r.lastSeenOrd ≤ r'.lastSeenOrd
  hopsMin : r'.hopsMin ≤ r.hopsMin

/-- And with at least as much funds. -/
structure RowLe (r r' : AddressEvmSource) : Prop extends RowCovers r r' where
  evmFund : r.evmFund ≤ r'.evmFund
  transferFund : r.transferFund ≤ r'.transferFund

instance : IsPreorder AddressEvmSource RowCovers where
  refl := fun _ => ⟨le_rfl, le_rfl, le_rfl⟩
  trans := fun _ _ _ h h' =>
    ⟨h'.firstSeenOrd.trans h.firstSeenOrd, h.lastSeenOrd.trans h'.lastSeenOrd,
     h'.hopsMin.trans h.hopsMin⟩

instance : IsPreorder AddressEvmSource RowLe where
  refl := fun r => ⟨refl r, le_rfl, le_rfl⟩
  trans := fun r r' r'' h h' =>
    ⟨IsTrans.trans r r' r'' h.toRowCovers h'.toRowCovers, h.evmFund.trans h'.evmFund,
     h.transferFund.trans h'.transferFund⟩

theorem RowLe.antisymm {r r' : AddressEvmSource} (h : RowLe r r') (h' : RowLe r' r) : r = r' := by
  cases r
  cases r'
  simp only [AddressEvmSource.mk.injEq]
  exact ⟨h.evmFund.antisymm h'.evmFund, h.transferFund.antisymm h'.transferFund,
    h'.firstSeenOrd.antisymm h.firstSeenOrd, h.lastSeenOrd.antisymm h'.lastSeenOrd,
    h'.hopsMin.antisymm h.hopsMin⟩

/-- Every row of `t` is still in `t'`, moved by `R`. -/
def Moves (R : AddressEvmSource → AddressEvmSource → Prop) (t t' : EvmSources) : Prop :=
  ∀ k r, t.lookup k = some r → ∃ r', t'.lookup k = some r' ∧ R r r'

section Moves

variable {R : AddressEvmSource → AddressEvmSource → Prop} [IsPreorder AddressEvmSource R]

instance : IsPreorder EvmSources (Moves R) where
  refl := fun _ _ r h => ⟨r, h, refl r⟩
  trans := by
    intro t t' t'' h h' k r hr
    obtain ⟨r', hr', hle⟩ := h k r hr
    obtain ⟨r'', hr'', hle'⟩ := h' k r' hr'
    exact ⟨r'', hr'', IsTrans.trans r r' r'' hle hle'⟩

theorem moves_of_sameRows {t t' : EvmSources} (h : SameRows t t') : Moves R t t' :=
  fun k r hr => ⟨r, by rw [← h k, hr], refl r⟩

theorem moves_seed {t : EvmSources} {recipient asset evm : String} {amount : ℚ} {ord : Int64}
    (h : ∀ r, R r (seedMerge r (seedRow amount ord))) :
    Moves R t (upsertBridgeSeed t recipient asset evm amount ord) := by
  intro k r hr
  by_cases hk : k = ⟨recipient, asset, evm⟩
  · subst hk
    exact ⟨seedMerge r (seedRow amount ord), by rw [lookup_seed_self, hr]; rfl, h r⟩
  · exact ⟨r, by rw [lookup_seed_ne hk, hr], refl r⟩

theorem moves_transfer {t : EvmSources} {a b asset : String} {amount : ℚ} {ord : Int64}
    (h : 0 < total t a asset → ∀ evm s, t.lookup ⟨a, asset, evm⟩ = some s →
      ∀ r, R r (propagateMerge r (propagatedRow amount (total t a asset) ord s))) :
    Moves R t (propagateEvmSources t a b asset amount ord) := by
  intro k r hr
  rw [lookup_propagate]
  split
  next hpos =>
    cases hs : t.lookup ⟨a, asset, k.evmAddress⟩ with
    | none => exact ⟨r, hr, refl r⟩
    | some s =>
      exact ⟨propagateMerge r (propagatedRow amount (total t a asset) ord s),
        by rw [hr]; rfl, h hpos.1 k.evmAddress s hs r⟩
  next => exact ⟨r, hr, refl r⟩

end Moves

/-- Moving up both ways is having the same rows. -/
theorem antisymmRel_moves_iff {t t' : EvmSources} :
    AntisymmRel (Moves RowLe) t t' ↔ SameRows t t' := by
  constructor
  · intro h k
    cases hr : t.lookup k with
    | some r =>
      obtain ⟨r', hr', hle⟩ := h.1 k r hr
      obtain ⟨r'', hr'', hle'⟩ := h.2 k r' hr'
      rw [hr] at hr''
      obtain rfl := Option.some.inj hr''
      rw [hr', hle.antisymm hle']
    | none =>
      cases hr' : t'.lookup k with
      | none => rfl
      | some r' =>
        obtain ⟨r, hr'', _⟩ := h.2 k r' hr'
        rw [hr] at hr''
        cases hr''
  · intro h
    exact ⟨moves_of_sameRows h, moves_of_sameRows fun k => (h k).symm⟩

theorem rowCovers_seedMerge (r : AddressEvmSource) (amount : ℚ) (ord : Int64) :
    RowCovers r (seedMerge r (seedRow amount ord)) :=
  ⟨min_le_left _ _, le_max_left _ _, Nat.zero_le _⟩

theorem rowCovers_propagateMerge (r s : AddressEvmSource) (amount tot : ℚ) (ord : Int64) :
    RowCovers r (propagateMerge r (propagatedRow amount tot ord s)) :=
  ⟨min_le_left _ _, le_max_left _ _, Nat.min_le_left _ _⟩

/-- Every statement covers what was there. -/
theorem inflationary_rowCovers (steps : List RollupStep) :
    Inflationary RollupStep.apply (Moves RowCovers) (fun _ => True) steps where
  keeps := fun _ _ _ _ => trivial
  grows := by
    intro t step _ _
    cases step with
    | seed recipient asset evm amount ord =>
      exact moves_seed fun r => rowCovers_seedMerge r amount ord
    | transfer a b asset amount ord =>
      exact moves_transfer fun _ _ s _ r => rowCovers_propagateMerge r s amount _ ord

/-- Bridged funds are non-negative. -/
def FundsNonneg (t : EvmSources) : Prop := ∀ k, 0 ≤ t.value AddressEvmSource.evmFund k

theorem FundsNonneg.row {t : EvmSources} (h : FundsNonneg t) {k : EvmSourceKey}
    {s : AddressEvmSource} (hs : t.lookup k = some s) : 0 ≤ s.evmFund := by
  have hk := h k
  unfold Table.value at hk
  rwa [hs] at hk

theorem share_nonneg {amount tot : ℚ} {s : AddressEvmSource} (hx : 0 ≤ amount) (ht : 0 < tot)
    (hs : 0 ≤ s.evmFund) : 0 ≤ share amount tot s := by
  unfold share
  positivity

/-- Statements of token amounts grow every table with non-negative funds. -/
theorem inflationary_of_nonneg {steps : List RollupStep} (h : ∀ s ∈ steps, 0 ≤ s.amount) :
    Inflationary RollupStep.apply (Moves RowLe) FundsNonneg steps where
  keeps := by
    intro t step hstep hf k
    rw [evmFund_apply]
    exact add_nonneg (hf k) (step.credit_nonneg (h step hstep) k)
  grows := by
    intro t step hstep hf
    have hnn := h step hstep
    cases step with
    | seed recipient asset evm amount ord =>
      refine moves_seed fun r => ⟨rowCovers_seedMerge r amount ord, ?_, le_rfl⟩
      exact le_add_of_nonneg_right hnn
    | transfer a b asset amount ord =>
      refine moves_transfer fun hpos evm s hs r => ⟨rowCovers_propagateMerge r s amount _ ord,
        le_rfl, ?_⟩
      exact le_add_of_nonneg_right (roundTo_nonneg 9 (share_nonneg hnn hpos (hf.row hs)))

/-- Statements that are inert in `t₀` keep every `evm_fund`. -/
theorem evmFund_foldl_of_inert {t₀ : EvmSources} {steps : List RollupStep}
    (h : ∀ s ∈ steps, s.Inert t₀) (k : EvmSourceKey) :
    (steps.foldl RollupStep.apply t₀).value AddressEvmSource.evmFund k =
      t₀.value AddressEvmSource.evmFund k := by
  have hcredits : (steps.map (RollupStep.credit k)).sum = 0 := by
    refine List.sum_eq_zero fun x hx => ?_
    obtain ⟨step, hstep, rfl⟩ := List.mem_map.mp hx
    have hin := h step hstep
    cases step with
    | seed recipient asset evm amount ord =>
      obtain rfl : amount = 0 := hin
      simp [RollupStep.credit]
    | transfer a b asset amount ord => rfl
  rw [evmFund_foldl, hcredits, add_zero]

/-! ## When one statement does nothing -/

/-- A statement reads a table through its rows only. -/
theorem apply_congr {t t' : EvmSources} (step : RollupStep) (h : SameRows t t') :
    SameRows (RollupStep.apply t step) (RollupStep.apply t' step) := by
  intro k
  cases step with
  | seed recipient asset evm amount ord =>
    show (upsertBridgeSeed t recipient asset evm amount ord).lookup k =
      (upsertBridgeSeed t' recipient asset evm amount ord).lookup k
    by_cases hk : k = ⟨recipient, asset, evm⟩
    · subst hk
      rw [lookup_seed_self, lookup_seed_self, h]
    · rw [lookup_seed_ne hk, lookup_seed_ne hk, h]
  | transfer a b asset amount ord =>
    have htot : total t a asset = total t' a asset := by
      refine total_congr fun k => ?_
      unfold Table.value
      rw [h k]
    show (propagateEvmSources t a b asset amount ord).lookup k =
      (propagateEvmSources t' a b asset amount ord).lookup k
    rw [lookup_propagate, lookup_propagate, htot, h, h]

theorem congruence_sameRows : Congruence RollupStep.apply SameRows where
  equiv := ⟨fun _ _ => rfl, fun h k => (h k).symm, fun h h' k => (h k).trans (h' k)⟩
  step := fun _ _ step h => apply_congr step h

/-- A seed leaves its key at hop `0`, seen at its position. -/
def SeededAt (k : EvmSourceKey) (ord : Int64) (t : EvmSources) : Prop :=
  ∃ row, t.lookup k = some row ∧ row.hopsMin = 0 ∧ row.firstSeenOrd ≤ ord ∧ ord ≤ row.lastSeenOrd

theorem seededAt_seed (t : EvmSources) (recipient asset evm : String) (amount : ℚ)
    (ord : Int64) :
    SeededAt ⟨recipient, asset, evm⟩ ord (upsertBridgeSeed t recipient asset evm amount ord) := by
  refine ⟨_, lookup_seed_self .., ?_⟩
  cases t.lookup ⟨recipient, asset, evm⟩ with
  | none => exact ⟨rfl, le_rfl, le_rfl⟩
  | some old => exact ⟨rfl, min_le_right _ _, le_max_right _ _⟩

theorem SeededAt.mono {k : EvmSourceKey} {ord : Int64} {t t' : EvmSources}
    (h : SeededAt k ord t) (hg : Moves RowCovers t t') : SeededAt k ord t' := by
  obtain ⟨row, hrow, hhop, hfirst, hlast⟩ := h
  obtain ⟨row', hrow', hle⟩ := hg k row hrow
  exact ⟨row', hrow', Nat.le_zero.mp (hhop ▸ hle.hopsMin), hle.firstSeenOrd.trans hfirst,
    hlast.trans hle.lastSeenOrd⟩

/-- Whatever stands around it in a batch, a seed is visible at the end. -/
theorem seededAt_foldl {recipient asset evm : String} {amount : ℚ} {ord : Int64} :
    ∀ {steps : List RollupStep} {t : EvmSources},
      RollupStep.seed recipient asset evm amount ord ∈ steps →
      SeededAt ⟨recipient, asset, evm⟩ ord (steps.foldl RollupStep.apply t) := by
  intro steps
  induction steps with
  | nil => intro t h; cases h
  | cons step steps ih =>
    intro t hmem
    rcases List.mem_cons.mp hmem with rfl | hmem
    · exact (seededAt_seed t recipient asset evm amount ord).mono
        (foldl_grows (inflationary_rowCovers steps) trivial)
    · exact ih hmem

/-- Where a seed is visible, repeating it adds its amount and nothing else. -/
theorem seed_fixed_iff {t : EvmSources} {recipient asset evm : String} {amount : ℚ} {ord : Int64}
    (h : SeededAt ⟨recipient, asset, evm⟩ ord t) :
    SameRows t (upsertBridgeSeed t recipient asset evm amount ord) ↔ amount = 0 := by
  obtain ⟨row, hrow, hhop, hfirst, hlast⟩ := h
  constructor
  · intro hsame
    have hk := hsame ⟨recipient, asset, evm⟩
    rw [lookup_seed_self, hrow] at hk
    have hfund : row.evmFund = row.evmFund + amount :=
      congrArg AddressEvmSource.evmFund (Option.some.inj hk)
    linarith
  · intro hzero k
    subst hzero
    by_cases hk : k = ⟨recipient, asset, evm⟩
    · subst hk
      rw [lookup_seed_self, hrow]
      cases row
      simp_all [Table.merged, seedMerge, seedRow]
    · rw [lookup_seed_ne hk]

/-- A merge into a receiver's row changes nothing exactly if the share is zero
and the row already covers it. -/
theorem propagateMerge_fixed_iff {row s : AddressEvmSource} {amount tot : ℚ} {ord : Int64} :
    row = propagateMerge row (propagatedRow amount tot ord s) ↔
      roundTo 9 (share amount tot s) = 0 ∧ row.hopsMin ≤ s.hopsMin + 1 ∧
      row.firstSeenOrd ≤ ord ∧ ord ≤ row.lastSeenOrd := by
  cases row
  simp only [propagateMerge, propagatedRow, AddressEvmSource.mk.injEq, true_and, left_eq_add,
    left_eq_inf, left_eq_sup]
  constructor
  · intro h
    obtain ⟨h₁, h₂, h₃, h₄⟩ := h
    exact ⟨h₁, by omega, h₂, h₃⟩
  · intro h
    obtain ⟨h₁, h₂, h₃, h₄⟩ := h
    exact ⟨h₁, h₃, h₄, by omega⟩

theorem transfer_fixed_iff {t : EvmSources} {a b asset : String} {amount : ℚ} {ord : Int64} :
    SameRows t (propagateEvmSources t a b asset amount ord) ↔
      (RollupStep.transfer a b asset amount ord).Absorbed t := by
  constructor
  · intro hsame hpos source hs
    obtain ⟨⟨addr, ast, evm⟩, s⟩ := source
    obtain ⟨hl, rfl, rfl⟩ := mem_src.mp hs
    have hk := hsame ⟨b, ast, evm⟩
    rw [lookup_propagate_of_source hpos hl] at hk
    cases hrow : t.lookup ⟨b, ast, evm⟩ with
    | none => rw [hrow] at hk; cases hk
    | some row =>
      rw [hrow] at hk
      obtain ⟨hshare, hcover⟩ := propagateMerge_fixed_iff.mp (Option.some.inj hk)
      exact ⟨hshare, row, rfl, hcover⟩
  · intro habs k
    rw [lookup_propagate]
    split
    next h =>
      obtain ⟨addr, ast, evm⟩ := k
      obtain ⟨hpos, rfl, rfl⟩ := h
      cases hs : t.lookup ⟨a, ast, evm⟩ with
      | none => rfl
      | some s =>
        obtain ⟨hshare, row, hrow, hcover⟩ :=
          habs hpos (⟨a, ast, evm⟩, s) (mem_src.mpr ⟨hs, rfl, rfl⟩)
        have hrow' : t.lookup ⟨addr, ast, evm⟩ = some row := hrow
        rw [hrow']
        exact congrArg some (propagateMerge_fixed_iff.mpr ⟨hshare, hcover⟩)
    next => rfl

/-! ## When a replay does nothing -/

/-- In the table a pass over `steps` left, one of them does nothing exactly if it
is absorbed there. -/
theorem fixed_iff_absorbed {steps : List RollupStep} {t : EvmSources} {step : RollupStep}
    (hstep : step ∈ steps) :
    SameRows (steps.foldl RollupStep.apply t)
        (RollupStep.apply (steps.foldl RollupStep.apply t) step) ↔
      step.Absorbed (steps.foldl RollupStep.apply t) := by
  cases step with
  | seed recipient asset evm amount ord => exact seed_fixed_iff (seededAt_foldl hstep)
  | transfer a b asset amount ord => exact transfer_fixed_iff

/-- A second pass is absorbed if each statement is, in the table the first pass
left. -/
theorem foldl_replay_of_absorbed {steps : List RollupStep} {t : EvmSources}
    (h : ∀ step ∈ steps, step.Absorbed (steps.foldl RollupStep.apply t)) :
    SameRows (steps.foldl RollupStep.apply t)
      (steps.foldl RollupStep.apply (steps.foldl RollupStep.apply t)) :=
  congruence_sameRows.foldl_fixed fun step hstep => (fixed_iff_absorbed hstep).mpr (h step hstep)

/-- With token amounts, only then: what one statement adds no other takes away. -/
theorem foldl_replay_iff {steps : List RollupStep} {t : EvmSources}
    (hsteps : ∀ s ∈ steps, 0 ≤ s.amount) (ht : FundsNonneg t) :
    SameRows (steps.foldl RollupStep.apply t)
        (steps.foldl RollupStep.apply (steps.foldl RollupStep.apply t)) ↔
      ∀ step ∈ steps, step.Absorbed (steps.foldl RollupStep.apply t) := by
  have hinf := inflationary_of_nonneg hsteps
  have ht' : FundsNonneg (steps.foldl RollupStep.apply t) := foldl_invariant hinf.keeps ht
  have hcongr : ∀ t t' step, AntisymmRel (Moves RowLe) t t' →
      AntisymmRel (Moves RowLe) (RollupStep.apply t step) (RollupStep.apply t' step) := by
    intro t t' step h
    exact antisymmRel_moves_iff.mpr (apply_congr step (antisymmRel_moves_iff.mp h))
  rw [← antisymmRel_moves_iff, foldl_fixed_iff hcongr hinf ht']
  refine forall₂_congr fun step hstep => ?_
  rw [antisymmRel_moves_iff]
  exact fixed_iff_absorbed hstep

/-- A batch that moves no funds in a table is absorbed once it is stored there. -/
theorem absorbed_of_inert {steps : List RollupStep} {t : EvmSources}
    (h : ∀ step ∈ steps, step.Inert t) :
    ∀ step ∈ steps, step.Absorbed (steps.foldl RollupStep.apply t) := by
  intro step hstep
  have hin := h step hstep
  cases step with
  | seed recipient asset evm amount ord => exact hin
  | transfer a b asset amount ord =>
    intro hpos
    rw [total_congr (evmFund_foldl_of_inert h)] at hpos
    exact absurd hpos hin

theorem storeAll_concat (propagateEvm : Bool) (history : List Batch) (batch : Batch) :
    storeAll propagateEvm (history ++ [batch]) =
      process propagateEvm (storeAll propagateEvm history) batch := by
  unfold storeAll
  rw [List.foldl_append]
  rfl

/-- **When a replay is absorbed.** Let a history of batches end with `batch`, and
let it be stored once more. With propagation switched off nothing changes. With
it, and in the table the replay finds:

- if each statement of the batch is absorbed there, no row changes;
- for token amounts, no row changes only then;
- each is absorbed there if the batch moved no funds when it was first stored. -/
theorem replay_absorbed_iff (propagateEvm : Bool) (history : List Batch) (batch : Batch) :
    ((propagateEvm = false ∨ ∀ step ∈ rollupSteps batch,
        step.Absorbed (storeAll propagateEvm (history ++ [batch])).addressEvmSources) →
      ReplayAbsorbed propagateEvm (storeAll propagateEvm (history ++ [batch])) batch) ∧
    ((∀ b ∈ history, b.AmountsNonneg) → batch.AmountsNonneg →
      (ReplayAbsorbed propagateEvm (storeAll propagateEvm (history ++ [batch])) batch ↔
        propagateEvm = false ∨ ∀ step ∈ rollupSteps batch,
          step.Absorbed (storeAll propagateEvm (history ++ [batch])).addressEvmSources)) ∧
    ((∀ step ∈ rollupSteps batch,
        step.Inert (storeAll propagateEvm history).addressEvmSources) →
      ReplayAbsorbed propagateEvm (storeAll propagateEvm (history ++ [batch])) batch) := by
  rw [storeAll_concat]
  cases propagateEvm with
  | false =>
    have h : ReplayAbsorbed false (process false (storeAll false history) batch) batch :=
      fun k => rfl
    exact ⟨fun _ => h, fun _ _ => iff_of_true h (Or.inl rfl), fun _ => h⟩
  | true =>
    simp only [Bool.true_eq_false, false_or]
    refine ⟨fun h => ?_, fun hhist hbatch => ?_, fun h => ?_⟩
    · exact foldl_replay_of_absorbed h
    · exact foldl_replay_iff (rollupSteps_nonneg hbatch) (storeAll_evmFund_nonneg hhist)
    · exact foldl_replay_of_absorbed (absorbed_of_inert h)

/-- A bridge delivery of `10` from one EVM address. -/
def bridgeDelivery : Batch where
  edges := [⟨7, 2, "0xbridge", "0xa", some "usdc", 10, true, some "usdcx", 0⟩]
  inflows := [⟨7, 2, "usdcx", "0xa", some "0xe1", none, some "usdc", 10, none, 0⟩]

/-- Stored twice it is credited twice. -/
theorem bridgeDelivery_replay_credits_twice :
    (storeAll true [bridgeDelivery]).addressEvmSources.value AddressEvmSource.evmFund
        ⟨"0xa", "usdc", "0xe1"⟩ = 10 ∧
    (process true (storeAll true [bridgeDelivery]) bridgeDelivery).addressEvmSources.value
        AddressEvmSource.evmFund ⟨"0xa", "usdc", "0xe1"⟩ = 20 ∧
    ¬ ReplayAbsorbed true (storeAll true [bridgeDelivery]) bridgeDelivery := by
  refine ⟨by decide +kernel, by decide +kernel, fun h => ?_⟩
  have hk := h ⟨"0xa", "usdc", "0xe1"⟩
  revert hk
  decide +kernel

/-- A delivery whose EVM source is not known yet, with a transfer out of its
recipient. -/
def unresolvedDelivery : Batch where
  edges := [⟨7, 2, "0xbridge", "0xa", some "usdc", 10, true, some "oft", 0⟩,
    ⟨8, 0, "0xa", "0xb", some "usdc", 4, false, none, 0⟩]
  inflows := [⟨7, 2, "oft", "0xa", none, none, some "usdc", 10, some "0x01", 0⟩]

/-- A batch the replay absorbs, and the statements of one it does not. -/
theorem replay_absorbed_iff_unresolved :
    ReplayAbsorbed true (storeAll true [unresolvedDelivery]) unresolvedDelivery ∧
    ¬ ∀ step ∈ rollupSteps bridgeDelivery,
      step.Absorbed (storeAll true [bridgeDelivery]).addressEvmSources := by
  constructor
  · refine (replay_absorbed_iff true [] unresolvedDelivery).2.2 fun step hstep => ?_
    obtain ⟨e, he, hs⟩ := mem_rollupSteps.mp hstep
    simp only [unresolvedDelivery, List.mem_cons, List.not_mem_nil, or_false] at he
    rcases he with rfl | rfl
    · simp [unresolvedDelivery, edgeStep, joinedEvm] at hs
    · obtain rfl := Option.some.inj hs
      show ¬ 0 < total ∅ "0xa" "usdc"
      decide +kernel
  · intro habs
    have hnn : bridgeDelivery.AmountsNonneg := by
      intro e he
      obtain rfl := List.mem_singleton.mp he
      norm_num
    have h : ReplayAbsorbed true (storeAll true [bridgeDelivery]) bridgeDelivery :=
      ((replay_absorbed_iff true [] bridgeDelivery).2.1 (by simp) hnn).mpr (Or.inr habs)
    have hk := h ⟨"0xa", "usdc", "0xe1"⟩
    revert hk
    decide +kernel

end IndexerProcessors.Reputation

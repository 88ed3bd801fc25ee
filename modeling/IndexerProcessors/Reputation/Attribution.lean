import IndexerProcessors.Reputation.Rollup

/-!
# A transfer hands over exactly its amount

`AddressEvmSource`'s documentation gives each source `E` of a sender `A` the
contribution `C / total_A_evm_fund * E_A.evm_fund * (1 / (E_A.hops_min + 1))`.
Over all sources that is `C` only if no weighted source is discounted. This
file proves that it never is: `RollupInv` holds in every table the two
statements can build, and from it the shares of a transfer add up to its
amount, stored shares to within half a unit of the ninth decimal per source.

The invariant is stated against the set of keys that were ever seeded, because
the hop count alone does not say why a row stands at hop `0`: a propagated row
stands at least one hop out, and only a seed pins a row back to `0`.
-/

namespace IndexerProcessors.Reputation

open IndexerProcessors.Lib

/-- One statement against `address_evm_sources`. -/
inductive RollupStep where
  | seed (recipient asset evm : String) (amount : ℚ) (ord : Int64)
  | transfer (fromAddr toAddr asset : String) (amount : ℚ) (ord : Int64)

namespace RollupStep

def apply (t : EvmSources) : RollupStep → EvmSources
  | seed recipient asset evm amount ord => upsertBridgeSeed t recipient asset evm amount ord
  | transfer fromAddr toAddr asset amount ord =>
    propagateEvmSources t fromAddr toAddr asset amount ord

/-- The statement is a seed of the key `k`. -/
def Seeds (k : EvmSourceKey) : RollupStep → Prop
  | seed recipient asset evm _ _ => k = ⟨recipient, asset, evm⟩
  | transfer .. => False

/-- Seeds carry non-negative amounts. -/
def SeedNonneg : RollupStep → Prop
  | seed _ _ _ amount _ => 0 ≤ amount
  | transfer .. => True

end RollupStep

/-- The table after a sequence of statements on an empty one. -/
def rollup (steps : List RollupStep) : EvmSources :=
  steps.foldl RollupStep.apply ∅

/-! ## The invariant -/

/-- The rollup invariant, relative to the keys seeded so far: a seeded key has
a row, funds are non-negative, only seeded rows hold bridged funds, and the rows
at hop `0` are exactly the seeded ones. -/
structure RollupInv (seeded : EvmSourceKey → Prop) (t : EvmSources) : Prop where
  stored : ∀ k, seeded k → ∃ row, t.lookup k = some row
  nonneg : ∀ k row, t.lookup k = some row → 0 ≤ row.evmFund
  funded : ∀ k row, t.lookup k = some row → 0 < row.evmFund → seeded k
  hop : ∀ k row, t.lookup k = some row → (row.hopsMin = 0 ↔ seeded k)

theorem rollupInv_empty : RollupInv (fun _ => False) ∅ := by
  constructor
  · intro k hk
    exact absurd hk id
  all_goals
    intro k row h
    simp at h

/-- A seed extends the seeded keys by its own. -/
theorem rollupInv_seed {seeded : EvmSourceKey → Prop} {t : EvmSources}
    {recipient asset evm : String} {amount : ℚ} {ord : Int64} (hnn : 0 ≤ amount)
    (h : RollupInv seeded t) :
    RollupInv (fun k => seeded k ∨ k = ⟨recipient, asset, evm⟩)
      (upsertBridgeSeed t recipient asset evm amount ord) := by
  -- At the seeded key the row is known outright; elsewhere it is the old one.
  have hself : ∀ row, (upsertBridgeSeed t recipient asset evm amount ord).lookup
      ⟨recipient, asset, evm⟩ = some row → 0 ≤ row.evmFund ∧ row.hopsMin = 0 := by
    intro row hrow
    rw [lookup_seed_self] at hrow
    obtain rfl := Option.some.inj hrow
    cases hold : t.lookup ⟨recipient, asset, evm⟩ with
    | none => exact ⟨hnn, rfl⟩
    | some old => exact ⟨add_nonneg (h.nonneg _ _ hold) hnn, rfl⟩
  constructor
  · intro k hk
    by_cases hself' : k = ⟨recipient, asset, evm⟩
    · subst hself'
      exact ⟨_, lookup_seed_self ..⟩
    · rw [lookup_seed_ne hself']
      exact h.stored k (hk.resolve_right hself')
  · intro k row hrow
    by_cases hk : k = ⟨recipient, asset, evm⟩
    · subst hk
      exact (hself row hrow).1
    · exact h.nonneg k row (lookup_seed_ne hk ▸ hrow)
  · intro k row hrow hpos
    by_cases hk : k = ⟨recipient, asset, evm⟩
    · exact Or.inr hk
    · exact Or.inl (h.funded k row (lookup_seed_ne hk ▸ hrow) hpos)
  · intro k row hrow
    by_cases hk : k = ⟨recipient, asset, evm⟩
    · subst hk
      exact iff_of_true (hself row hrow).2 (Or.inr rfl)
    · rw [h.hop k row (lookup_seed_ne hk ▸ hrow)]
      exact ⟨Or.inl, fun hor => hor.resolve_right hk⟩

/-- What a propagation leaves at a key. A row that was there keeps its bridged
funds and stays at hop `0` exactly if it was; a new row holds no bridged funds
and stands at least one hop out. -/
theorem lookup_propagate_cases {t : EvmSources} {fromAddr toAddr asset : String} {amount : ℚ}
    {ord : Int64} {k : EvmSourceKey} {row : AddressEvmSource}
    (hrow : (propagateEvmSources t fromAddr toAddr asset amount ord).lookup k = some row) :
    (∃ old, t.lookup k = some old ∧ row.evmFund = old.evmFund ∧
      (row.hopsMin = 0 ↔ old.hopsMin = 0)) ∨
    (t.lookup k = none ∧ row.evmFund = 0 ∧ row.hopsMin ≠ 0) := by
  by_cases hpos : 0 < total t fromAddr asset
  · by_cases hk : k.movementAddress = toAddr ∧ k.assetType = asset
    · obtain ⟨addr, ast, evm⟩ := k
      obtain ⟨rfl, rfl⟩ := hk
      cases hs : t.lookup ⟨fromAddr, ast, evm⟩ with
      | none =>
        rw [lookup_propagate_of_not_source hs] at hrow
        exact Or.inl ⟨row, hrow, rfl, Iff.rfl⟩
      | some s =>
        rw [lookup_propagate_of_source hpos hs] at hrow
        obtain rfl := Option.some.inj hrow
        cases hold : t.lookup ⟨addr, ast, evm⟩ with
        | none => exact Or.inr ⟨rfl, rfl, Nat.succ_ne_zero _⟩
        | some old =>
          refine Or.inl ⟨old, rfl, rfl, ?_⟩
          show min old.hopsMin (s.hopsMin + 1) = 0 ↔ old.hopsMin = 0
          omega
    · rw [lookup_propagate_of_ne (not_and_or.mp hk)] at hrow
      exact Or.inl ⟨row, hrow, rfl, Iff.rfl⟩
  · rw [propagate_of_not_pos hpos] at hrow
    exact Or.inl ⟨row, hrow, rfl, Iff.rfl⟩

/-- A propagation never drops a row. -/
theorem lookup_propagate_isSome (fromAddr toAddr asset : String) (amount : ℚ) (ord : Int64)
    {t : EvmSources} {k : EvmSourceKey} {row : AddressEvmSource} (h : t.lookup k = some row) :
    ∃ row', (propagateEvmSources t fromAddr toAddr asset amount ord).lookup k = some row' := by
  by_cases hpos : 0 < total t fromAddr asset
  · by_cases hk : k.movementAddress = toAddr ∧ k.assetType = asset
    · obtain ⟨addr, ast, evm⟩ := k
      obtain ⟨rfl, rfl⟩ := hk
      cases hs : t.lookup ⟨fromAddr, ast, evm⟩ with
      | none => exact ⟨row, by rw [lookup_propagate_of_not_source hs, h]⟩
      | some s => exact ⟨_, lookup_propagate_of_source hpos hs⟩
    · exact ⟨row, by rw [lookup_propagate_of_ne (not_and_or.mp hk), h]⟩
  · exact ⟨row, by rw [propagate_of_not_pos hpos, h]⟩

/-- A propagation seeds nothing. -/
theorem rollupInv_transfer {seeded : EvmSourceKey → Prop} {t : EvmSources}
    {fromAddr toAddr asset : String} {amount : ℚ} {ord : Int64} (h : RollupInv seeded t) :
    RollupInv seeded (propagateEvmSources t fromAddr toAddr asset amount ord) := by
  constructor
  · intro k hk
    obtain ⟨row, hrow⟩ := h.stored k hk
    exact lookup_propagate_isSome _ _ _ _ _ hrow
  · intro k row hrow
    rcases lookup_propagate_cases hrow with ⟨old, hold, hfund, _⟩ | ⟨_, hfund, _⟩
    · rw [hfund]
      exact h.nonneg k old hold
    · exact hfund.ge
  · intro k row hrow hpos
    rcases lookup_propagate_cases hrow with ⟨old, hold, hfund, _⟩ | ⟨_, hfund, _⟩
    · exact h.funded k old hold (hfund ▸ hpos)
    · exact absurd hfund hpos.ne'
  · intro k row hrow
    rcases lookup_propagate_cases hrow with ⟨old, hold, _, hhop⟩ | ⟨hnone, _, hhop⟩
    · rw [hhop]
      exact h.hop k old hold
    · refine iff_of_false hhop fun hk => ?_
      obtain ⟨old, hold⟩ := h.stored k hk
      rw [hnone] at hold
      cases hold

/-- One statement keeps the invariant. -/
theorem rollupInv_apply {seeded : EvmSourceKey → Prop} {t : EvmSources} {step : RollupStep}
    (hnn : step.SeedNonneg) (h : RollupInv seeded t) :
    RollupInv (fun k => seeded k ∨ step.Seeds k) (RollupStep.apply t step) := by
  cases step with
  | seed recipient asset evm amount ord => exact rollupInv_seed hnn h
  | transfer fromAddr toAddr asset amount ord =>
    have hseeded : (fun k => seeded k ∨ (RollupStep.transfer fromAddr toAddr asset amount
        ord).Seeds k) = seeded := funext fun k => propext (or_iff_left id)
    rw [hseeded]
    exact rollupInv_transfer h

/-- Any number of statements keep it. -/
theorem rollupInv_foldl :
    ∀ (steps : List RollupStep) {seeded : EvmSourceKey → Prop} {t : EvmSources},
      (∀ s ∈ steps, s.SeedNonneg) → RollupInv seeded t →
      RollupInv (fun k => seeded k ∨ ∃ s ∈ steps, s.Seeds k)
        (steps.foldl RollupStep.apply t) := by
  intro steps
  induction steps with
  | nil =>
    intro seeded t _ h
    have hseeded : (fun k => seeded k ∨ ∃ s ∈ ([] : List RollupStep), s.Seeds k) = seeded :=
      funext fun k => propext (or_iff_left (by simp))
    rw [hseeded]
    exact h
  | cons step steps ih =>
    intro seeded t hnn h
    have hstep := rollupInv_apply (hnn step (List.mem_cons_self ..)) h
    have hrest := ih (fun s hs => hnn s (List.mem_cons_of_mem _ hs)) hstep
    simpa only [List.mem_cons, exists_eq_or_imp, or_assoc, List.foldl_cons] using hrest

/-- The invariant in every table built from an empty one. -/
theorem rollupInv_rollup {steps : List RollupStep} (hnn : ∀ s ∈ steps, s.SeedNonneg) :
    RollupInv (fun k => ∃ s ∈ steps, s.Seeds k) (rollup steps) := by
  have h := rollupInv_foldl steps hnn rollupInv_empty
  simp only [false_or] at h
  exact h

/-! ## Conservation -/

/-- What a statement adds to `transfer_fund` at a key. -/
def transferIncrement (t t' : EvmSources) (k : EvmSourceKey) : ℚ :=
  t'.value AddressEvmSource.transferFund k - t.value AddressEvmSource.transferFund k

/-- Under the invariant a share is the plain fraction of the sender's funds. -/
theorem share_eq {seeded : EvmSourceKey → Prop} {t : EvmSources} (h : RollupInv seeded t)
    {k : EvmSourceKey} {s : AddressEvmSource} (hs : t.lookup k = some s) (amount tot : ℚ) :
    share amount tot s = amount / tot * s.evmFund := by
  unfold share
  rcases (h.nonneg k s hs).lt_or_eq with hpos | hzero
  · have hhop : s.hopsMin = 0 := (h.hop k s hs).mpr (h.funded k s hs hpos)
    rw [hhop]
    norm_num
  · rw [← hzero]
    ring

/-- The shares of a transfer out of a funded address add up to its amount. -/
theorem sum_share {seeded : EvmSourceKey → Prop} {t : EvmSources} (h : RollupInv seeded t)
    {a asset : String} (x : ℚ) (hpos : 0 < total t a asset) :
    ((src t a asset).map fun s => share x (total t a asset) s.2).sum = x := by
  have hshare : (src t a asset).map (fun s => share x (total t a asset) s.2) =
      (src t a asset).map fun s => x / total t a asset * s.2.evmFund := by
    apply List.map_congr_left
    intro source hs
    obtain ⟨k, s⟩ := source
    exact share_eq h (mem_src.mp hs).1 _ _
  have htotal : ((src t a asset).map fun s => s.2.evmFund).sum = total t a asset := rfl
  rw [hshare, List.sum_map_mul_left, htotal]
  field_simp

/-- At the receiver's key of a source, `transfer_fund` grows by the rounded
share. -/
theorem transferIncrement_source {t : EvmSources} {a b asset evm : String} {x : ℚ}
    {ord : Int64} {s : AddressEvmSource} (hpos : 0 < total t a asset)
    (hs : t.lookup ⟨a, asset, evm⟩ = some s) :
    transferIncrement t (propagateEvmSources t a b asset x ord) ⟨b, asset, evm⟩ =
      roundTo 9 (share x (total t a asset) s) := by
  unfold transferIncrement Table.value
  rw [lookup_propagate_of_source hpos hs]
  cases t.lookup ⟨b, asset, evm⟩ with
  | none => exact sub_zero _
  | some old => exact add_sub_cancel_left old.transferFund _

/-- No propagation touches `evm_fund`. -/
theorem evmFund_propagate (t : EvmSources) (a b asset : String) (x : ℚ) (ord : Int64)
    (k : EvmSourceKey) :
    (propagateEvmSources t a b asset x ord).value AddressEvmSource.evmFund k =
      t.value AddressEvmSource.evmFund k := by
  unfold Table.value
  cases hrow : (propagateEvmSources t a b asset x ord).lookup k with
  | none =>
    cases hold : t.lookup k with
    | none => rfl
    | some old =>
      obtain ⟨row, hrow'⟩ := lookup_propagate_isSome a b asset x ord hold
      rw [hrow] at hrow'
      cases hrow'
  | some row =>
    rcases lookup_propagate_cases hrow with ⟨old, hold, hfund, _⟩ | ⟨hnone, hfund, _⟩
    · rw [hold]
      exact hfund
    · rw [hnone]
      exact hfund

/-- **Attribution conserves the transferred amount.** In every table built by
seeds of non-negative amounts and by transfers: bridged funds sit at hop `0`,
hop `0` is where the seeds went, and a transfer out of a funded address credits
its receiver with shares that add up to the amount — exactly before rounding,
to within half a unit of the ninth decimal per source as stored — while no
`evm_fund` and no row of another address moves (the sender's among them: the
extractor only pairs distinct addresses). -/
theorem transfer_conserves_amount (steps : List RollupStep)
    (hnn : ∀ s ∈ steps, s.SeedNonneg) :
    (∀ k row, (rollup steps).lookup k = some row →
      (0 < row.evmFund → row.hopsMin = 0) ∧
      (row.hopsMin = 0 ↔ ∃ s ∈ steps, s.Seeds k)) ∧
    ∀ (a b asset : String) (x : ℚ) (ord : Int64), 0 < total (rollup steps) a asset →
      let t := rollup steps
      let t' := propagateEvmSources t a b asset x ord
      ((src t a asset).map fun s => share x (total t a asset) s.2).sum = x ∧
      (∀ s ∈ src t a asset, transferIncrement t t' ⟨b, asset, s.1.evmAddress⟩ =
        roundTo 9 (share x (total t a asset) s.2)) ∧
      (∀ evm, (∀ s ∈ src t a asset, s.1.evmAddress ≠ evm) →
        t'.lookup ⟨b, asset, evm⟩ = t.lookup ⟨b, asset, evm⟩) ∧
      |((src t a asset).map fun s => transferIncrement t t' ⟨b, asset, s.1.evmAddress⟩).sum - x|
        ≤ (src t a asset).length * (1 / 2 / 10 ^ 9) ∧
      (∀ k, t'.value AddressEvmSource.evmFund k = t.value AddressEvmSource.evmFund k) ∧
      (∀ k, k.movementAddress ≠ b → t'.lookup k = t.lookup k) := by
  have hinv := rollupInv_rollup hnn
  constructor
  · intro k row hrow
    exact ⟨fun hpos => (hinv.hop k row hrow).mpr (hinv.funded k row hrow hpos),
      hinv.hop k row hrow⟩
  · intro a b asset x ord hpos t t'
    have hsource : ∀ s ∈ src t a asset, t.lookup ⟨a, asset, s.1.evmAddress⟩ = some s.2 := by
      intro source hs
      obtain ⟨⟨addr, ast, evm⟩, s⟩ := source
      obtain ⟨hl, rfl, rfl⟩ := mem_src.mp hs
      exact hl
    have hinc : ∀ s ∈ src t a asset, transferIncrement t t' ⟨b, asset, s.1.evmAddress⟩ =
        roundTo 9 (share x (total t a asset) s.2) :=
      fun s hs => transferIncrement_source hpos (hsource s hs)
    have hsum : ((src t a asset).map fun s => share x (total t a asset) s.2).sum = x :=
      sum_share hinv x hpos
    refine ⟨hsum, hinc, ?_, ?_, evmFund_propagate t a b asset x ord, ?_⟩
    · intro evm hne
      apply lookup_propagate_of_not_source
      cases hl : t.lookup ⟨a, asset, evm⟩ with
      | none => rfl
      | some s => exact absurd rfl (hne (⟨a, asset, evm⟩, s) (mem_src.mpr ⟨hl, rfl, rfl⟩))
    -- Each increment is a share rounded to nine digits, and the shares make up the amount.
    · have herr : ∀ s ∈ src t a asset,
          |transferIncrement t t' ⟨b, asset, s.1.evmAddress⟩ - share x (total t a asset) s.2|
            ≤ 1 / 2 / 10 ^ 9 := by
        intro s hs
        rw [hinc s hs]
        exact abs_roundTo_sub_le 9 _
      have hbound := abs_sum_map_sub_le (src t a asset) herr
      rwa [hsum] at hbound
    · intro k hk
      exact lookup_propagate_of_ne (Or.inl hk)

/-- Two sources, `100` and `300`, and a transfer of `8`. -/
theorem transfer_conserves_amount_two_sources :
    let steps := [RollupStep.seed "0xa" "usdc" "0xe1" 100 1, .seed "0xa" "usdc" "0xe2" 300 2]
    0 < total (rollup steps) "0xa" "usdc" ∧
      ((src (rollup steps) "0xa" "usdc").map fun s =>
        share 8 (total (rollup steps) "0xa" "usdc") s.2).sum = 8 := by
  intro steps
  have hnn : ∀ s ∈ steps, s.SeedNonneg := by
    simp [steps, RollupStep.SeedNonneg]
  have hpos : 0 < total (rollup steps) "0xa" "usdc" := by decide +kernel
  exact ⟨hpos, ((transfer_conserves_amount steps hnn).2 "0xa" "0xb" "usdc" 8 3 hpos).1⟩

end IndexerProcessors.Reputation

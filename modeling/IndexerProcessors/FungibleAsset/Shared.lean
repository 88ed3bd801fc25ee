import IndexerProcessors.FungibleAsset.Unified

/-!
# The shared columns of the unified balance

The owner and the frozen flag of a row of `current_fungible_asset_balances` are
written by both statements, each under the guard of its own standard, and follow
whichever came last. `shared_columns_follow_newest_iff` — they are those of the
newest balance, whatever the schedule, exactly if the last balances of the two
standards agree on them or are of one version.
-/

namespace IndexerProcessors.FungibleAsset

open IndexerProcessors.Lib
open IndexerProcessors.Protos

/-- A balance of a store with the highest version over both standards. -/
def IsNewest (sdk : CoinSdk) (txns : List Protos.Transaction) (storageId : String)
    (fab : FungibleAssetBalance) : Prop :=
  (∃ standard, lastBalance sdk txns standard storageId = some fab) ∧
    ∀ standard other, lastBalance sdk txns standard storageId = some other →
      other.transactionVersion ≤ fab.transactionVersion

/-- Whatever the schedule, the owner and the frozen flag of a row are those of
the newest balance of its store. -/
def SharedFollowNewest (sdk : CoinSdk) (txns : List Protos.Transaction) : Prop :=
  ∀ order, CoinSchedule sdk txns order → ∀ storageId row,
    (Table.writeAll ∅ order).lookup storageId = some row →
    ∃ fab, IsNewest sdk txns storageId fab ∧ row.ownerAddress = fab.ownerAddress ∧
      row.isFrozen = fab.isFrozen

/-- The last balances of the two standards agree on the shared columns, or are of
one version. -/
def LastAgree (sdk : CoinSdk) (txns : List Protos.Transaction) : Prop :=
  ∀ storageId v1 v2, lastBalance sdk txns .v1 storageId = some v1 →
    lastBalance sdk txns .v2 storageId = some v2 →
    (v1.ownerAddress = v2.ownerAddress ∧ v1.isFrozen = v2.isFrozen) ∨
      v1.transactionVersion = v2.transactionVersion

def versionOf : TokenStandard → UnifiedRow → Option Int64
  | .v1, row => row.lastTransactionVersionV1
  | .v2, row => row.lastTransactionVersionV2

theorem observe_version (standard : TokenStandard) (row : UnifiedRow) :
    (observe standard (some row)).map StandardObs.version = versionOf standard row := by
  cases standard with
  | v1 => exact Option.map_map .. |>.trans (Option.map_id' ..)
  | v2 => exact Option.map_map .. |>.trans (Option.map_id' ..)

/-- The shared columns are those of a balance that is also the row's current one
of its standard. -/
def SharedFrom (fab : FungibleAssetBalance) (row : UnifiedRow) : Prop :=
  row.ownerAddress = fab.ownerAddress ∧ row.isFrozen = fab.isFrozen ∧
    versionOf fab.tokenStandard row = some fab.transactionVersion

theorem sharedFrom_fromBalance (getAssetTypeV1 : String → Option String)
    (fab : FungibleAssetBalance) :
    SharedFrom fab (CurrentUnifiedFungibleAssetBalance.fromBalance getAssetTypeV1 fab) := by
  obtain ⟨v, index, storage, owner, asset, primary, frozen, amount, ts, std⟩ := fab
  cases std with
  | v1 => exact ⟨rfl, rfl, rfl⟩
  | v2 => exact ⟨rfl, rfl, rfl⟩

/-- An upsert takes the shared columns over, or leaves the row alone. -/
theorem query_cases (getAssetTypeV1 : String → Option String) (fab : FungibleAssetBalance)
    (old : UnifiedRow) :
    SharedFrom fab (unifiedQuery fab.tokenStandard old
        (CurrentUnifiedFungibleAssetBalance.fromBalance getAssetTypeV1 fab)) ∨
      unifiedQuery fab.tokenStandard old
        (CurrentUnifiedFungibleAssetBalance.fromBalance getAssetTypeV1 fab) = old := by
  obtain ⟨v, index, storage, owner, asset, primary, frozen, amount, ts, std⟩ := fab
  cases std with
  | v1 =>
    show SharedFrom _ (insertCurrentUnifiedV1Query old _) ∨ insertCurrentUnifiedV1Query old _ = _
    unfold insertCurrentUnifiedV1Query
    split
    · exact Or.inl ⟨rfl, rfl, rfl⟩
    · exact Or.inr rfl
  | v2 =>
    show SharedFrom _ (insertCurrentUnifiedV2Query old _) ∨ insertCurrentUnifiedV2Query old _ = _
    unfold insertCurrentUnifiedV2Query
    split
    · exact Or.inl ⟨rfl, rfl, rfl⟩
    · exact Or.inr rfl

namespace CoinSchedule

variable {sdk : CoinSdk} {txns : List Protos.Transaction}
  {order : List (String × Write UnifiedRow)}

/-- Some batch's last balance of a standard gave the row its shared columns, and
no later one of that standard has replaced it. -/
theorem exists_sharedFrom (sched : CoinSchedule sdk txns order) (storageId : String) :
    ∀ row, (Table.writeAll ∅ order).lookup storageId = some row →
      ∃ c ∈ sched.batches, ∃ standard fab,
        lastBalance sdk c.transactions standard storageId = some fab ∧ SharedFrom fab row := by
  let P : Option UnifiedRow → Prop := fun o => ∀ row, o = some row →
    ∃ c ∈ sched.batches, ∃ standard fab,
      lastBalance sdk c.transactions standard storageId = some fab ∧ SharedFrom fab row
  have hinit : P ((∅ : Table String UnifiedRow).lookup storageId) := by
    intro row hrow
    cases hrow
  refine Table.writeAll_invariant hinit ?_
  intro w hw old hold row hrow
  obtain ⟨c, hc, standard, fab, hfab, rfl⟩ := sched.mem_order hw
  obtain rfl := Option.some.inj hrow
  cases old with
  | none => exact ⟨c, hc, standard, fab, hfab, sharedFrom_fromBalance _ fab⟩
  | some old =>
    rcases query_cases c.getAssetTypeV1 fab old with hshared | hsame
    · exact ⟨c, hc, standard, fab, hfab, hshared⟩
    · -- The guard rejects the upsert: the columns stay from where they were.
      obtain ⟨c', hc', hrest⟩ := hold old rfl
      have hmerged : Table.merged (balanceWrite c.getAssetTypeV1 fab).merge (some old)
          (balanceWrite c.getAssetTypeV1 fab).excluded = old := hsame
      rw [hmerged]
      exact ⟨c', hc', hrest⟩

/-- A batch's last balance that has the version of the list's last one is it. -/
theorem lastBalance_unique (sched : CoinSchedule sdk txns order) (hord : InOrder txns)
    {c : CoinBatch} (hc : c ∈ sched.batches) {standard : TokenStandard} {storageId : String}
    {fab last : FungibleAssetBalance}
    (hfab : lastBalance sdk c.transactions standard storageId = some fab)
    (hlast : lastBalance sdk txns standard storageId = some last)
    (hversion : fab.transactionVersion = last.transactionVersion) : fab = last := by
  have hsub := sched.sublist c hc
  rw [lastBalance_eq] at hfab hlast
  obtain ⟨t, ht, hfab, -⟩ := (getLast?_flatMap_eq_some_iff (hord.sublist hsub)).mp hfab
  obtain ⟨t', ht', hlast, -⟩ := (getLast?_flatMap_eq_some_iff hord).mp hlast
  have hv : ∀ {t : Protos.Transaction} {fab : FungibleAssetBalance},
      (balancesAt sdk standard storageId t).getLast? = some fab →
        fab.transactionVersion = t.txnVersion :=
    fun h => transactionBalances_version (List.mem_of_mem_filter (List.mem_of_getLast? h))
  have htime : t.txnVersion = t'.txnVersion := by
    rw [← hv hfab, ← hv hlast, hversion]
  obtain rfl := eq_of_time_eq hord (hsub.subset ht) ht' htime
  exact Option.some.inj (hfab.symm.trans hlast)

/-- The shared columns are those of the last balance of one of the standards. -/
theorem shared_eq_last (sched : CoinSchedule sdk txns order) (hord : InOrder txns)
    {storageId : String} {row : UnifiedRow}
    (hrow : (Table.writeAll ∅ order).lookup storageId = some row) :
    ∃ standard fab, lastBalance sdk txns standard storageId = some fab ∧
      row.ownerAddress = fab.ownerAddress ∧ row.isFrozen = fab.isFrozen := by
  obtain ⟨c, hc, standard, fab, hfab, howner, hfrozen, hversion⟩ :=
    sched.exists_sharedFrom storageId row hrow
  rw [(lastBalance_spec hfab).2.1] at hversion
  rw [← observe_version, ← hrow, sched.observe_eq hord, Option.map_map] at hversion
  -- The version column shows the list's last balance, which pins the batch's to it.
  obtain ⟨last, hlast, hversions⟩ := Option.map_eq_some_iff.mp hversion
  rw [Function.comp_apply, obs_version] at hversions
  obtain rfl := sched.lastBalance_unique hord hc hfab hlast hversions.symm
  exact ⟨standard, fab, hlast, howner, hfrozen⟩

end CoinSchedule

/-! ## When the shared columns go wrong -/

/-- There are two standards. -/
theorem standard_cases {s₁ s₂ : TokenStandard} (hne : s₁ ≠ s₂) (s : TokenStandard) :
    s = s₁ ∨ s = s₂ := by
  cases s₁ <;> cases s₂ <;> cases s <;> simp_all

/-- All transactions in one batch, the statement of one standard after the other. -/
def singleBatch (sdk : CoinSdk) (txns : List Protos.Transaction)
    (balances : List FungibleAssetBalance) (first second : TokenStandard) (hne : first ≠ second)
    (hbalances : fungibleAssetBalances sdk txns = some balances) :
    CoinSchedule sdk txns
      (statementWrites ⟨txns, fun _ => none⟩ balances first ++
        statementWrites ⟨txns, fun _ => none⟩ balances second) where
  batches := [⟨txns, fun _ => none⟩]
  writes := fun c => statementWrites c balances .v1 ++ statementWrites c balances .v2
  covers := by
    refine ⟨fun b hb => ?_, fun t ht => ⟨txns, List.mem_singleton.mpr rfl, ht⟩⟩
    obtain rfl := List.mem_singleton.mp hb
    exact List.Sublist.refl _
  parsed := by
    intro c hc
    rw [List.mem_singleton.mp hc]
    unfold unifiedWrites
    rw [hbalances]
    rfl
  interleaves := by
    rw [List.flatMap_cons, List.flatMap_nil, List.append_nil]
    cases first with
    | v1 =>
      cases second with
      | v1 => exact absurd rfl hne
      | v2 => exact List.Perm.refl _
    | v2 =>
      cases second with
      | v1 => exact List.perm_append_comm
      | v2 => exact absurd rfl hne

/-- A statement upserts each store once. -/
theorem proj_statementWrites {batch : CoinBatch} {balances : List FungibleAssetBalance}
    {standard : TokenStandard} {storageId : String} {w : Write UnifiedRow}
    (h : (storageId, w) ∈ statementWrites batch balances standard) :
    proj storageId (statementWrites batch balances standard) = [w] := by
  refine proj_eq_singleton ?_ h
  unfold statementWrites
  rw [List.map_map]
  exact Table.nodup_rows_keys _

/-- The second statement meets a row of the other standard, and takes the shared
columns. -/
theorem shared_second (getAssetTypeV1 : String → Option String)
    {first second : FungibleAssetBalance} (hne : first.tokenStandard ≠ second.tokenStandard) :
    SharedFrom second (Table.merged (balanceWrite getAssetTypeV1 second).merge
      (some (balanceWrite getAssetTypeV1 first).excluded)
      (balanceWrite getAssetTypeV1 second).excluded) := by
  obtain ⟨v, index, storage, owner, asset, primary, frozen, amount, ts, std⟩ := first
  obtain ⟨v', index', storage', owner', asset', primary', frozen', amount', ts', std'⟩ := second
  cases std with
  | v1 =>
    cases std' with
    | v1 => exact absurd rfl hne
    | v2 => exact ⟨rfl, rfl, rfl⟩
  | v2 =>
    cases std' with
    | v1 => exact ⟨rfl, rfl, rfl⟩
    | v2 => exact absurd rfl hne

/-- In a single batch the statement executed last decides. -/
theorem lookup_singleBatch {sdk : CoinSdk} {txns : List Protos.Transaction}
    {balances : List FungibleAssetBalance}
    (hbalances : fungibleAssetBalances sdk txns = some balances) {storageId : String}
    {first second : FungibleAssetBalance} {s₁ s₂ : TokenStandard} (hne : s₁ ≠ s₂)
    (hfirst : lastBalance sdk txns s₁ storageId = some first)
    (hsecond : lastBalance sdk txns s₂ storageId = some second) :
    ∃ row, (Table.writeAll ∅ (statementWrites ⟨txns, fun _ => none⟩ balances s₁ ++
        statementWrites ⟨txns, fun _ => none⟩ balances s₂)).lookup storageId = some row ∧
      SharedFrom second row := by
  have hstandards : first.tokenStandard ≠ second.tokenStandard := by
    rw [(lastBalance_spec hfirst).2.1, (lastBalance_spec hsecond).2.1]
    exact hne
  unfold lastBalance at hfirst hsecond
  rw [← fungibleAssetBalances_eq hbalances] at hfirst hsecond
  let batch : CoinBatch := ⟨txns, fun _ => none⟩
  have hw₁ : (storageId, balanceWrite batch.getAssetTypeV1 first) ∈
      statementWrites batch balances s₁ := mem_statementWrites.mpr ⟨first, hfirst, rfl⟩
  have hw₂ : (storageId, balanceWrite batch.getAssetTypeV1 second) ∈
      statementWrites batch balances s₂ := mem_statementWrites.mpr ⟨second, hsecond, rfl⟩
  refine ⟨_, ?_, shared_second batch.getAssetTypeV1 hstandards⟩
  rw [Table.lookup_writeAll, proj_append, proj_statementWrites hw₁, proj_statementWrites hw₂]
  rfl

/-- Executed first, the statement of the newer balance loses the shared columns. -/
theorem shared_columns_lost {sdk : CoinSdk} {txns : List Protos.Transaction}
    {balances : List FungibleAssetBalance}
    (hbalances : fungibleAssetBalances sdk txns = some balances) {storageId : String}
    {newer older : FungibleAssetBalance} {s₁ s₂ : TokenStandard} (hne : s₁ ≠ s₂)
    (hnewer : lastBalance sdk txns s₁ storageId = some newer)
    (holder : lastBalance sdk txns s₂ storageId = some older)
    (hlt : older.transactionVersion < newer.transactionVersion)
    (hall : SharedFollowNewest sdk txns) :
    older.ownerAddress = newer.ownerAddress ∧ older.isFrozen = newer.isFrozen := by
  obtain ⟨row, hrow, hshared⟩ := lookup_singleBatch hbalances hne hnewer holder
  obtain ⟨fab, hnewest, howner, hfrozen⟩ := hall _
    (singleBatch sdk txns balances s₁ s₂ hne hbalances) storageId row hrow
  have hfab : fab = newer := by
    obtain ⟨standard, hstandard⟩ := hnewest.1
    have hle := hnewest.2 s₁ newer hnewer
    rcases standard_cases hne standard with rfl | rfl
    · exact Option.some.inj (hstandard.symm.trans hnewer)
    · obtain rfl := Option.some.inj (hstandard.symm.trans holder)
      exact absurd hle (not_le.mpr hlt)
  subst hfab
  exact ⟨hshared.1.symm.trans howner, hshared.2.1.symm.trans hfrozen⟩

/-- Last balances of different versions agree on the shared columns. -/
theorem LastAgree.agree {sdk : CoinSdk} {txns : List Protos.Transaction}
    (h : LastAgree sdk txns) {storageId : String} {s₁ s₂ : TokenStandard}
    {fab other : FungibleAssetBalance} (hfab : lastBalance sdk txns s₁ storageId = some fab)
    (hother : lastBalance sdk txns s₂ storageId = some other)
    (hne : fab.transactionVersion ≠ other.transactionVersion) :
    fab.ownerAddress = other.ownerAddress ∧ fab.isFrozen = other.isFrozen := by
  cases s₁ with
  | v1 =>
    cases s₂ with
    | v1 => exact absurd (congrArg _ (Option.some.inj (hfab.symm.trans hother))) hne
    | v2 => exact (h storageId fab other hfab hother).resolve_right hne
  | v2 =>
    cases s₂ with
    | v1 =>
      obtain ⟨howner, hfrozen⟩ := (h storageId other fab hother hfab).resolve_right hne.symm
      exact ⟨howner.symm, hfrozen.symm⟩
    | v2 => exact absurd (congrArg _ (Option.some.inj (hfab.symm.trans hother))) hne

/-- **The shared columns follow the statement executed last.** They are those of
the newest balance in every schedule exactly if, for every store with balances
of both standards, the last ones agree on the owner and the frozen flag or are
of one version. -/
theorem shared_columns_follow_newest_iff (sdk : CoinSdk) (txns : List Protos.Transaction)
    (hord : InOrder txns) (hparsed : (fungibleAssetBalances sdk txns).isSome) :
    SharedFollowNewest sdk txns ↔ LastAgree sdk txns := by
  obtain ⟨balances, hbalances⟩ := Option.isSome_iff_exists.mp hparsed
  constructor
  · intro hall storageId v1 v2 hv1 hv2
    rcases lt_trichotomy v1.transactionVersion v2.transactionVersion with hlt | heq | hgt
    · exact Or.inl (shared_columns_lost hbalances (by decide) hv2 hv1 hlt hall)
    · exact Or.inr heq
    · obtain ⟨howner, hfrozen⟩ := shared_columns_lost hbalances (by decide) hv1 hv2 hgt hall
      exact Or.inl ⟨howner.symm, hfrozen.symm⟩
  · intro hagree order sched storageId row hrow
    obtain ⟨standard, fab, hfab, howner, hfrozen⟩ := sched.shared_eq_last hord hrow
    by_cases hmax : ∀ s other, lastBalance sdk txns s storageId = some other →
        other.transactionVersion ≤ fab.transactionVersion
    · exact ⟨fab, ⟨⟨standard, hfab⟩, hmax⟩, howner, hfrozen⟩
    · -- The newest balance is of the other standard, and agrees.
      push Not at hmax
      obtain ⟨s, other, hother, hlt⟩ := hmax
      obtain ⟨howner', hfrozen'⟩ := hagree.agree hfab hother (ne_of_lt hlt)
      have hne : s ≠ standard := by
        intro h
        subst h
        exact absurd (congrArg _ (Option.some.inj (hfab.symm.trans hother))) (ne_of_lt hlt)
      refine ⟨other, ⟨⟨s, hother⟩, ?_⟩, howner.trans howner', hfrozen.trans hfrozen'⟩
      intro s' other' hother'
      rcases standard_cases hne s' with rfl | rfl
      · exact le_of_eq (congrArg _ (Option.some.inj (hother'.symm.trans hother)))
      · rw [Option.some.inj (hother'.symm.trans hfab)]
        exact hlt.le

/-- The flags of both stores agree. -/
theorem shared_columns_follow_newest_paired :
    SharedFollowNewest pairedSdk (pairedTxns openText) := by
  have hparsed := fungibleAssetBalances_pairedTxns transactionBalances_openStore
  refine (shared_columns_follow_newest_iff pairedSdk (pairedTxns openText)
    (inOrder_pairedTxns openText) (Option.isSome_of_eq_some hparsed)).mpr ?_
  intro storageId v1 v2 hv1 hv2
  have hall : ∀ fab ∈ allBalances pairedSdk (pairedTxns openText),
      fab.ownerAddress = holder ∧ fab.isFrozen = false := by
    simp [allBalances_pairedTxns transactionBalances_openStore, coinHeld, storeHeld]
  obtain ⟨howner1, hfrozen1⟩ := hall v1 (lastBalance_spec hv1).1
  obtain ⟨howner2, hfrozen2⟩ := hall v2 (lastBalance_spec hv2).1
  exact Or.inl ⟨howner1.trans howner2.symm, hfrozen1.trans hfrozen2.symm⟩

/-- The primary store is frozen at version 7, the coin store was not at 5, and
its statement comes last. -/
theorem shared_columns_follow_older_statement :
    ¬ SharedFollowNewest pairedSdk (pairedTxns frozenText) := by
  intro hall
  have hparsed := fungibleAssetBalances_pairedTxns transactionBalances_frozenStore
  obtain ⟨hv1, hv2⟩ := lastBalance_pairedTxns transactionBalances_frozenStore
  have hlt : coinHeld.transactionVersion < (storeHeld true 3).transactionVersion := by
    show (5 : Int64) < 7
    decide
  obtain ⟨-, hfrozen⟩ := shared_columns_lost hparsed (by decide) hv2 hv1 hlt hall
  cases hfrozen

end IndexerProcessors.FungibleAsset

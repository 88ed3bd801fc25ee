import IndexerProcessors.Lib.LastWriter
import IndexerProcessors.Lib.Numeric
import IndexerProcessors.Resources

/-!
# The token tables

The rows of `current_token_datas_v2`, `current_token_ownerships_v2` and
`current_token_pending_claims`, and the statements of `token_v2_processor_queries.rs`
for the first two. Each has two: one for the rows of existing tokens and one for
the rows of burned and deleted ones, with a shorter `SET` list. `TokenV2Storer`
executes the statements of a batch concurrently. All of them overwrite a stored row
of at most their version.

`ownership_upserts_commute` — the columns both ownership statements set follow
the versions: whatever the batches, the order of their statements and the
replays, a row ends with the values of the highest version stored under its key.
-/

namespace IndexerProcessors.TokenV2

open IndexerProcessors.Lib

structure CurrentTokenDataV2 where
  tokenDataId : String
  collectionId : String
  tokenName : String
  maximum : Option ℚ
  supply : Option ℚ
  largestPropertyVersionV1 : Option ℚ
  tokenUri : String
  tokenProperties : Json
  description : String
  tokenStandard : TokenStandard
  isFungibleV2 : Option Bool
  lastTransactionVersion : Int64
  lastTransactionTimestamp : NaiveDateTime
  decimals : Option Int64
  isDeletedV2 : Option Bool

/-- `token_data_id`, `property_version_v1`, `owner_address`, `storage_id`. -/
abbrev CurrentTokenOwnershipV2PK := String × ℚ × String × String

structure CurrentTokenOwnershipV2 where
  tokenDataId : String
  propertyVersionV1 : ℚ
  ownerAddress : String
  storageId : String
  amount : ℚ
  tableTypeV1 : Option String
  tokenPropertiesMutatedV1 : Option Json
  isSoulboundV2 : Option Bool
  tokenStandard : TokenStandard
  isFungibleV2 : Option Bool
  lastTransactionVersion : Int64
  lastTransactionTimestamp : NaiveDateTime
  nonTransferrableByOwner : Option Bool

def CurrentTokenOwnershipV2.pk (row : CurrentTokenOwnershipV2) : CurrentTokenOwnershipV2PK :=
  (row.tokenDataId, row.propertyVersionV1, row.ownerAddress, row.storageId)

/-- `token_data_id_hash`, `property_version`, `from_address`, `to_address`. -/
abbrev CurrentTokenPendingClaimPK := String × ℚ × String × String

structure CurrentTokenPendingClaim where
  tokenDataIdHash : String
  propertyVersion : ℚ
  fromAddress : String
  toAddress : String
  collectionDataIdHash : String
  creatorAddress : String
  collectionName : String
  name : String
  amount : ℚ
  tableHandle : String
  lastTransactionVersion : Int64
  lastTransactionTimestamp : NaiveDateTime
  tokenDataId : String
  collectionId : String

def CurrentTokenPendingClaim.pk (row : CurrentTokenPendingClaim) : CurrentTokenPendingClaimPK :=
  (row.tokenDataIdHash, row.propertyVersion, row.fromAddress, row.toAddress)

/-! ## Statements -/

/-- `insert_current_token_datas_v2_query`, on a conflict. `is_deleted_v2` is not
set. -/
def insertCurrentTokenDatasV2Query (old excluded : CurrentTokenDataV2) : CurrentTokenDataV2 :=
  if old.lastTransactionVersion ≤ excluded.lastTransactionVersion then
    { old with
      collectionId := excluded.collectionId
      tokenName := excluded.tokenName
      maximum := excluded.maximum
      supply := excluded.supply
      largestPropertyVersionV1 := excluded.largestPropertyVersionV1
      tokenUri := excluded.tokenUri
      description := excluded.description
      tokenProperties := excluded.tokenProperties
      tokenStandard := excluded.tokenStandard
      isFungibleV2 := excluded.isFungibleV2
      lastTransactionVersion := excluded.lastTransactionVersion
      lastTransactionTimestamp := excluded.lastTransactionTimestamp
      decimals := excluded.decimals }
  else old

/-- `insert_current_deleted_token_datas_v2_query`, on a conflict. -/
def insertCurrentDeletedTokenDatasV2Query (old excluded : CurrentTokenDataV2) :
    CurrentTokenDataV2 :=
  if old.lastTransactionVersion ≤ excluded.lastTransactionVersion then
    { old with
      lastTransactionVersion := excluded.lastTransactionVersion
      lastTransactionTimestamp := excluded.lastTransactionTimestamp
      isDeletedV2 := excluded.isDeletedV2 }
  else old

/-- `insert_current_token_ownerships_v2_query`, on a conflict. -/
def insertCurrentTokenOwnershipsV2Query (old excluded : CurrentTokenOwnershipV2) :
    CurrentTokenOwnershipV2 :=
  if old.lastTransactionVersion ≤ excluded.lastTransactionVersion then
    { old with
      amount := excluded.amount
      tableTypeV1 := excluded.tableTypeV1
      tokenPropertiesMutatedV1 := excluded.tokenPropertiesMutatedV1
      isSoulboundV2 := excluded.isSoulboundV2
      tokenStandard := excluded.tokenStandard
      isFungibleV2 := excluded.isFungibleV2
      lastTransactionVersion := excluded.lastTransactionVersion
      lastTransactionTimestamp := excluded.lastTransactionTimestamp
      nonTransferrableByOwner := excluded.nonTransferrableByOwner }
  else old

/-- `insert_current_deleted_token_ownerships_v2_query`, on a conflict. -/
def insertCurrentDeletedTokenOwnershipsV2Query (old excluded : CurrentTokenOwnershipV2) :
    CurrentTokenOwnershipV2 :=
  if old.lastTransactionVersion ≤ excluded.lastTransactionVersion then
    { old with
      amount := excluded.amount
      lastTransactionVersion := excluded.lastTransactionVersion
      lastTransactionTimestamp := excluded.lastTransactionTimestamp
      isFungibleV2 := excluded.isFungibleV2 }
  else old

/-- Which of the two statements of a table a row goes to. -/
inductive RowKind where
  | live
  | deleted
  deriving DecidableEq, Repr

/-- The token data statement of a kind of rows. -/
def dataQuery : RowKind → CurrentTokenDataV2 → CurrentTokenDataV2 → CurrentTokenDataV2
  | .live => insertCurrentTokenDatasV2Query
  | .deleted => insertCurrentDeletedTokenDatasV2Query

/-- The ownership statement of a kind of rows. -/
def ownershipQuery : RowKind → CurrentTokenOwnershipV2 → CurrentTokenOwnershipV2 →
    CurrentTokenOwnershipV2
  | .live => insertCurrentTokenOwnershipsV2Query
  | .deleted => insertCurrentDeletedTokenOwnershipsV2Query

/-- The upsert of an ownership row. -/
def ownershipWrite (kind : RowKind) (row : CurrentTokenOwnershipV2) :
    CurrentTokenOwnershipV2PK × Write CurrentTokenOwnershipV2 :=
  (row.pk, ⟨row, ownershipQuery kind⟩)

/-! ## Ownership upserts commute -/

/-- The columns both ownership statements set. -/
structure OwnershipObs where
  amount : ℚ
  version : Int64
  timestamp : NaiveDateTime
  isFungibleV2 : Option Bool
  deriving DecidableEq

def CurrentTokenOwnershipV2.obs (row : CurrentTokenOwnershipV2) : OwnershipObs :=
  ⟨row.amount, row.lastTransactionVersion, row.lastTransactionTimestamp, row.isFungibleV2⟩

/-- Both statements set these columns, under the version's guard. -/
theorem shows_ownershipWrite (kind : RowKind) (row : CurrentTokenOwnershipV2) :
    Table.Shows OwnershipObs.version (Option.map CurrentTokenOwnershipV2.obs)
      ⟨row, ownershipQuery kind⟩ (some row.obs) := by
  intro old
  cases old with
  | none => rfl
  | some old =>
    show some (ownershipQuery kind old row).obs = some (later OwnershipObs.version old.obs row.obs)
    cases kind with
    | live =>
      unfold ownershipQuery insertCurrentTokenOwnershipsV2Query later CurrentTokenOwnershipV2.obs
      dsimp only
      split
      · rfl
      · rfl
    | deleted =>
      unfold ownershipQuery insertCurrentDeletedTokenOwnershipsV2Query later
        CurrentTokenOwnershipV2.obs
      dsimp only
      split
      · rfl
      · rfl

/-- A statement with its rows. -/
structure OwnershipStatement where
  kind : RowKind
  rows : List CurrentTokenOwnershipV2

/-- The ownership rows of a batch. -/
structure OwnershipBatch where
  live : List CurrentTokenOwnershipV2
  deleted : List CurrentTokenOwnershipV2

def OwnershipBatch.statements (batch : OwnershipBatch) : List OwnershipStatement :=
  [⟨.live, batch.live⟩, ⟨.deleted, batch.deleted⟩]

def OwnershipStatement.writes (statement : OwnershipStatement) :
    List (CurrentTokenOwnershipV2PK × Write CurrentTokenOwnershipV2) :=
  statement.rows.map (ownershipWrite statement.kind)

/-- The table after some statements, from the empty one. -/
def executeOwnerships (order : List OwnershipStatement) :
    Table CurrentTokenOwnershipV2PK CurrentTokenOwnershipV2 :=
  Table.writeAll ∅ (order.flatMap OwnershipStatement.writes)

theorem mem_executed {order : List OwnershipStatement} {pk : CurrentTokenOwnershipV2PK}
    {w : Write CurrentTokenOwnershipV2} :
    (pk, w) ∈ order.flatMap OwnershipStatement.writes ↔
      ∃ st ∈ order, ∃ row ∈ st.rows, row.pk = pk ∧ w = ⟨row, ownershipQuery st.kind⟩ := by
  simp only [List.mem_flatMap, OwnershipStatement.writes, List.mem_map, ownershipWrite,
    Prod.mk.injEq, eq_comm (a := w)]

/-- The common columns are those of the latest row executed under the key. -/
theorem obs_executeOwnerships (order : List OwnershipStatement) (pk : CurrentTokenOwnershipV2PK) :
    ((executeOwnerships order).lookup pk).map CurrentTokenOwnershipV2.obs =
      latest OwnershipObs.version none ((proj pk (order.flatMap OwnershipStatement.writes)).map
        fun w => w.excluded.obs) := by
  have hshows : ∀ w, (pk, w) ∈ order.flatMap OwnershipStatement.writes →
      Table.Shows OwnershipObs.version (Option.map CurrentTokenOwnershipV2.obs) w
        (some w.excluded.obs) := by
    intro w hw
    obtain ⟨st, -, row, -, -, rfl⟩ := mem_executed.mp hw
    exact shows_ownershipWrite st.kind row
  unfold executeOwnerships
  rw [Table.observe_writeAll ∅ hshows, ← List.filterMap_eq_map]
  rfl

/-- **Ownership upserts commute.** `rows` has one row per key and version, cut
into `batches`; `order` has every statement of every batch, in any order and any
number of times. Each key ends with the common columns of its newest row, and
keys without rows stay away. -/
theorem ownership_upserts_commute (rows : List (RowKind × CurrentTokenOwnershipV2))
    (hunique : ∀ a ∈ rows, ∀ b ∈ rows, a.2.pk = b.2.pk →
      a.2.lastTransactionVersion = b.2.lastTransactionVersion → a = b)
    (batches : List OwnershipBatch)
    (hgroup : ∀ kind row, (kind, row) ∈ rows ↔
      ∃ batch ∈ batches, ∃ st ∈ batch.statements, st.kind = kind ∧ row ∈ st.rows)
    (order : List OwnershipStatement)
    (horder : ∀ st, st ∈ order ↔ ∃ batch ∈ batches, st ∈ batch.statements)
    (pk : CurrentTokenOwnershipV2PK) :
    ((∀ row ∈ rows, row.2.pk ≠ pk) → (executeOwnerships order).lookup pk = none) ∧
      ∀ newest ∈ rows, newest.2.pk = pk →
        (∀ row ∈ rows, row.2.pk = pk →
          row.2.lastTransactionVersion ≤ newest.2.lastTransactionVersion) →
        ∃ stored, (executeOwnerships order).lookup pk = some stored ∧
          stored.amount = newest.2.amount ∧
          stored.lastTransactionVersion = newest.2.lastTransactionVersion ∧
          stored.lastTransactionTimestamp = newest.2.lastTransactionTimestamp ∧
          stored.isFungibleV2 = newest.2.isFungibleV2 := by
  -- Which rows are executed under a key does not depend on the order, and repeating
  -- a statement adds none.
  have hmem : ∀ o, o ∈ (proj pk (order.flatMap OwnershipStatement.writes)).map
      (fun w => w.excluded.obs) ↔ ∃ row ∈ rows, row.2.pk = pk ∧ row.2.obs = o := by
    intro o
    rw [List.mem_map]
    constructor
    · intro h
      obtain ⟨w, hw, rfl⟩ := h
      obtain ⟨st, hst, row, hrow, hpk, rfl⟩ := mem_executed.mp (mem_proj.mp hw)
      obtain ⟨batch, hbatch, hstb⟩ := (horder st).mp hst
      exact ⟨(st.kind, row), (hgroup _ _).mpr ⟨batch, hbatch, st, hstb, rfl, hrow⟩, hpk, rfl⟩
    · intro h
      obtain ⟨⟨kind, row⟩, hrow, hpk, rfl⟩ := h
      obtain ⟨batch, hbatch, st, hst, rfl, hin⟩ := (hgroup kind row).mp hrow
      refine ⟨⟨row, ownershipQuery st.kind⟩, mem_proj.mpr (mem_executed.mpr ?_), rfl⟩
      exact ⟨st, (horder st).mpr ⟨batch, hbatch, hst⟩, row, hin, hpk, rfl⟩
  constructor
  · intro hnone
    have hnil : (proj pk (order.flatMap OwnershipStatement.writes)).map
        (fun w => w.excluded.obs) = [] := by
      rw [List.eq_nil_iff_forall_not_mem]
      intro o ho
      obtain ⟨row, hrow, hpk, -⟩ := (hmem o).mp ho
      exact hnone row hrow hpk
    have hobs := obs_executeOwnerships order pk
    rw [hnil] at hobs
    exact Option.map_eq_none_iff.mp hobs
  · intro newest hnewest hpk hmax
    have hlatest : latest OwnershipObs.version none
        ((proj pk (order.flatMap OwnershipStatement.writes)).map fun w => w.excluded.obs) =
          some newest.2.obs := by
      refine latest_eq_some ?_ ⟨(hmem _).mpr ⟨newest, hnewest, hpk, rfl⟩, ?_⟩
      · intro a ha b hb hver
        obtain ⟨ra, hra, hpka, rfl⟩ := (hmem a).mp ha
        obtain ⟨rb, hrb, hpkb, rfl⟩ := (hmem b).mp hb
        rw [hunique ra hra rb hrb (hpka.trans hpkb.symm) hver]
      · intro o ho
        obtain ⟨row, hrow, hrowpk, rfl⟩ := (hmem o).mp ho
        exact hmax row hrow hrowpk
    have hobs := obs_executeOwnerships order pk
    rw [hlatest] at hobs
    obtain ⟨stored, hstored, heq⟩ := Option.map_eq_some_iff.mp hobs
    obtain ⟨hamount, hversion, htimestamp, hfungible⟩ := OwnershipObs.mk.inj heq
    exact ⟨stored, hstored, hamount, hversion, htimestamp, hfungible⟩

/-- A row of an object token, as a write of the token or its burn leaves it. -/
def objectRow (owner : String) (amount : ℚ) (version : Int64) : CurrentTokenOwnershipV2 where
  tokenDataId := "0xt"
  propertyVersionV1 := 0
  ownerAddress := owner
  storageId := "0xt"
  amount := amount
  tableTypeV1 := none
  tokenPropertiesMutatedV1 := none
  isSoulboundV2 := none
  tokenStandard := .v2
  isFungibleV2 := none
  lastTransactionVersion := version
  lastTransactionTimestamp := 0
  nonTransferrableByOwner := none

def mintAndBurn : List (RowKind × CurrentTokenOwnershipV2) :=
  [(.live, objectRow "0xa" 1 3), (.deleted, objectRow "0xa" 0 5)]

/-- The mint in a batch with no burn, the burn in one with no mint. -/
def mintAndBurnBatches : List OwnershipBatch :=
  [⟨[objectRow "0xa" 1 3], []⟩, ⟨[], [objectRow "0xa" 0 5]⟩]

/-- A token of `0xa` is burned at 5; the burn's statement comes first, then the
mint's, and the burn's again. -/
theorem ownership_upserts_commute_burn :
    ∃ stored, (executeOwnerships [⟨.deleted, [objectRow "0xa" 0 5]⟩, ⟨.live, []⟩,
        ⟨.live, [objectRow "0xa" 1 3]⟩, ⟨.deleted, []⟩,
        ⟨.deleted, [objectRow "0xa" 0 5]⟩]).lookup ("0xt", 0, "0xa", "0xt") = some stored ∧
      stored.amount = 0 ∧ stored.lastTransactionVersion = 5 := by
  have hunique : ∀ a ∈ mintAndBurn, ∀ b ∈ mintAndBurn,
      a.2.pk = b.2.pk → a.2.lastTransactionVersion = b.2.lastTransactionVersion → a = b := by
    intro a ha b hb _ hversion
    rcases List.mem_pair.mp ha with rfl | rfl <;> rcases List.mem_pair.mp hb with rfl | rfl
    · rfl
    · exact absurd hversion (by decide)
    · exact absurd hversion (by decide)
    · rfl
  have hgroup : ∀ kind row, (kind, row) ∈ mintAndBurn ↔
      ∃ batch ∈ mintAndBurnBatches, ∃ st ∈ batch.statements, st.kind = kind ∧ row ∈ st.rows := by
    intro kind row
    constructor
    · intro h
      rcases List.mem_pair.mp h with h | h
      · obtain ⟨rfl, rfl⟩ := Prod.mk.inj h
        exact ⟨_, List.mem_cons_self, ⟨.live, [objectRow "0xa" 1 3]⟩, List.mem_cons_self, rfl,
          List.mem_singleton_self _⟩
      · obtain ⟨rfl, rfl⟩ := Prod.mk.inj h
        exact ⟨_, List.mem_pair.mpr (Or.inr rfl), ⟨.deleted, [objectRow "0xa" 0 5]⟩,
          List.mem_pair.mpr (Or.inr rfl), rfl, List.mem_singleton_self _⟩
    · rintro ⟨batch, hbatch, st, hst, rfl, hrow⟩
      rcases List.mem_pair.mp hbatch with rfl | rfl <;>
        rcases List.mem_pair.mp hst with rfl | rfl
      · rw [List.mem_singleton.mp hrow]
        exact List.mem_cons_self
      · cases hrow
      · cases hrow
      · rw [List.mem_singleton.mp hrow]
        exact List.mem_pair.mpr (Or.inr rfl)
  have horder : ∀ st,
      st ∈ [OwnershipStatement.mk .deleted [objectRow "0xa" 0 5], ⟨.live, []⟩,
        ⟨.live, [objectRow "0xa" 1 3]⟩, ⟨.deleted, []⟩, ⟨.deleted, [objectRow "0xa" 0 5]⟩] ↔
        ∃ batch ∈ mintAndBurnBatches, st ∈ batch.statements := by
    intro st
    simp only [mintAndBurnBatches, OwnershipBatch.statements, List.mem_cons, List.not_mem_nil,
      or_false, exists_eq_or_imp, exists_eq_left]
    tauto
  have hnewest : ∀ row ∈ mintAndBurn, row.2.pk = ("0xt", 0, "0xa", "0xt") →
      row.2.lastTransactionVersion ≤ (objectRow "0xa" 0 5).lastTransactionVersion := by
    intro row hrow _
    rcases List.mem_pair.mp hrow with rfl | rfl
    · decide
    · exact Int64.le_refl _
  obtain ⟨stored, hstored, hamount, hversion, -⟩ :=
    (ownership_upserts_commute _ hunique _ hgroup _ horder ("0xt", 0, "0xa", "0xt")).2
      (.deleted, objectRow "0xa" 0 5) (List.mem_pair.mpr (Or.inr rfl)) rfl hnewest
  exact ⟨stored, hstored, hamount, hversion⟩

end IndexerProcessors.TokenV2

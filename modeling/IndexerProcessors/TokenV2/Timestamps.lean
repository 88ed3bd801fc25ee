import IndexerProcessors.Lib.Fallible
import IndexerProcessors.TokenV2.Storer

/-!
# Versions and timestamps of the token tables

Every row of a current table has the version of the transaction it was last
written by and that transaction's timestamp. The seven statements of
`token_v2_processor_queries.rs` set their columns one by one, so each of them has
to take both over. Six do. `insert_current_token_claims_query` takes the version
only, and a pending claim that is written a second time has its new version with
its old timestamp.

`timestamps_follow_versions_iff` — the pairs stay together exactly as long as no
claim is written over an earlier one of another time.
-/

namespace IndexerProcessors.TokenV2

open IndexerProcessors.Lib

/-! ## The other current tables -/

structure CurrentCollectionV2 where
  collectionId : String
  creatorAddress : String
  collectionName : String
  description : String
  uri : String
  currentSupply : ℚ
  maxSupply : Option ℚ
  totalMintedV2 : Option ℚ
  mutableDescription : Option Bool
  mutableUri : Option Bool
  tableHandleV1 : Option String
  tokenStandard : TokenStandard
  collectionProperties : Option Json
  lastTransactionVersion : Int64
  lastTransactionTimestamp : NaiveDateTime

structure CurrentTokenRoyaltyV1 where
  tokenDataId : String
  payeeAddress : String
  royaltyPointsNumerator : ℚ
  royaltyPointsDenominator : ℚ
  lastTransactionVersion : Int64
  lastTransactionTimestamp : NaiveDateTime

/-- `insert_current_collections_v2_query`, on a conflict. -/
def insertCurrentCollectionsV2Query (old excluded : CurrentCollectionV2) : CurrentCollectionV2 :=
  if old.lastTransactionVersion ≤ excluded.lastTransactionVersion then
    { old with
      creatorAddress := excluded.creatorAddress
      collectionName := excluded.collectionName
      description := excluded.description
      uri := excluded.uri
      currentSupply := excluded.currentSupply
      maxSupply := excluded.maxSupply
      totalMintedV2 := excluded.totalMintedV2
      mutableDescription := excluded.mutableDescription
      mutableUri := excluded.mutableUri
      tableHandleV1 := excluded.tableHandleV1
      tokenStandard := excluded.tokenStandard
      lastTransactionVersion := excluded.lastTransactionVersion
      collectionProperties := excluded.collectionProperties
      lastTransactionTimestamp := excluded.lastTransactionTimestamp }
  else old

/-- `insert_current_token_royalties_v1_query`, on a conflict. -/
def insertCurrentTokenRoyaltiesV1Query (old excluded : CurrentTokenRoyaltyV1) :
    CurrentTokenRoyaltyV1 :=
  if old.lastTransactionVersion ≤ excluded.lastTransactionVersion then
    { old with
      payeeAddress := excluded.payeeAddress
      royaltyPointsNumerator := excluded.royaltyPointsNumerator
      royaltyPointsDenominator := excluded.royaltyPointsDenominator
      lastTransactionVersion := excluded.lastTransactionVersion
      lastTransactionTimestamp := excluded.lastTransactionTimestamp }
  else old

/-- `insert_current_token_claims_query`, on a conflict. `last_transaction_timestamp`
is not in its `SET` list. -/
def insertCurrentTokenClaimsQuery (old excluded : CurrentTokenPendingClaim) :
    CurrentTokenPendingClaim :=
  if old.lastTransactionVersion ≤ excluded.lastTransactionVersion then
    { old with
      collectionDataIdHash := excluded.collectionDataIdHash
      creatorAddress := excluded.creatorAddress
      collectionName := excluded.collectionName
      name := excluded.name
      amount := excluded.amount
      tableHandle := excluded.tableHandle
      lastTransactionVersion := excluded.lastTransactionVersion
      tokenDataId := excluded.tokenDataId
      collectionId := excluded.collectionId }
  else old

/-! ## Storing batches -/

/-- The current tables. -/
structure CurrentTables where
  currentCollectionsV2 : Table String CurrentCollectionV2
  currentTokenDatasV2 : Table String CurrentTokenDataV2
  currentTokenOwnershipsV2 : Table CurrentTokenOwnershipV2PK CurrentTokenOwnershipV2
  currentTokenRoyaltyV1 : Table String CurrentTokenRoyaltyV1
  currentTokenPendingClaims : Table CurrentTokenPendingClaimPK CurrentTokenPendingClaim

def CurrentTables.init : CurrentTables := ⟨∅, ∅, ∅, ∅, ∅⟩

/-- A row with the statement it is stored by. -/
inductive RowUpsert where
  | collection (row : CurrentCollectionV2)
  | tokenData (kind : RowKind) (row : CurrentTokenDataV2)
  | ownership (kind : RowKind) (row : CurrentTokenOwnershipV2)
  | royalty (row : CurrentTokenRoyaltyV1)
  | claim (row : CurrentTokenPendingClaim)

def CurrentTables.store (st : CurrentTables) : RowUpsert → CurrentTables
  | .collection row =>
    { st with
      currentCollectionsV2 := st.currentCollectionsV2.upsert insertCurrentCollectionsV2Query
        row.collectionId row }
  | .tokenData kind row =>
    { st with
      currentTokenDatasV2 := st.currentTokenDatasV2.upsert (dataQuery kind) row.tokenDataId row }
  | .ownership kind row =>
    { st with
      currentTokenOwnershipsV2 := st.currentTokenOwnershipsV2.upsert (ownershipQuery kind)
        row.pk row }
  | .royalty row =>
    { st with
      currentTokenRoyaltyV1 := st.currentTokenRoyaltyV1.upsert insertCurrentTokenRoyaltiesV1Query
        row.tokenDataId row }
  | .claim row =>
    { st with
      currentTokenPendingClaims := st.currentTokenPendingClaims.upsert
        insertCurrentTokenClaimsQuery row.pk row }

/-- The tables after some rows. -/
def storeAll (ops : List RowUpsert) : CurrentTables := ops.foldl CurrentTables.store .init

/-- The rows of a batch for the current tables, statement by statement. -/
structure CurrentRows where
  currentCollectionsV2 : List CurrentCollectionV2
  currentTokenDatasV2 : List CurrentTokenDataV2
  currentDeletedTokenDatasV2 : List CurrentTokenDataV2
  currentTokenOwnershipsV2 : List CurrentTokenOwnershipV2
  currentDeletedTokenOwnershipsV2 : List CurrentTokenOwnershipV2
  currentTokenRoyaltiesV1 : List CurrentTokenRoyaltyV1
  currentTokenClaims : List CurrentTokenPendingClaim

def CurrentRows.upserts (batch : CurrentRows) : List RowUpsert :=
  batch.currentCollectionsV2.map .collection ++
    batch.currentTokenDatasV2.map (.tokenData .live) ++
    batch.currentDeletedTokenDatasV2.map (.tokenData .deleted) ++
    batch.currentTokenOwnershipsV2.map (.ownership .live) ++
    batch.currentDeletedTokenOwnershipsV2.map (.ownership .deleted) ++
    batch.currentTokenRoyaltiesV1.map .royalty ++ batch.currentTokenClaims.map .claim

/-- The rows in the order they are stored: batch after batch, and in any order
within a batch, whose statements are joined. -/
inductive Stored : List CurrentRows → List RowUpsert → Prop
  | nil : Stored [] []
  | snoc {batches : List CurrentRows} {ops order : List RowUpsert} {batch : CurrentRows} :
      Stored batches ops → order.Perm batch.upserts → Stored (batches ++ [batch]) (ops ++ order)

/-! ## Stamps -/

/-- The version and the timestamp of a row. -/
abbrev Stamp := Int64 × NaiveDateTime

def CurrentCollectionV2.stamp (row : CurrentCollectionV2) : Stamp :=
  (row.lastTransactionVersion, row.lastTransactionTimestamp)

def CurrentTokenDataV2.stamp (row : CurrentTokenDataV2) : Stamp :=
  (row.lastTransactionVersion, row.lastTransactionTimestamp)

def CurrentTokenOwnershipV2.stamp (row : CurrentTokenOwnershipV2) : Stamp :=
  (row.lastTransactionVersion, row.lastTransactionTimestamp)

def CurrentTokenRoyaltyV1.stamp (row : CurrentTokenRoyaltyV1) : Stamp :=
  (row.lastTransactionVersion, row.lastTransactionTimestamp)

def CurrentTokenPendingClaim.stamp (row : CurrentTokenPendingClaim) : Stamp :=
  (row.lastTransactionVersion, row.lastTransactionTimestamp)

def RowUpsert.stamp : RowUpsert → Stamp
  | .collection row => row.stamp
  | .tokenData _ row => row.stamp
  | .ownership _ row => row.stamp
  | .royalty row => row.stamp
  | .claim row => row.stamp

/-- The timestamp is the one of the version. -/
def Genuine (timestampOf : Int64 → NaiveDateTime) (s : Stamp) : Prop := s.2 = timestampOf s.1

/-- All rows of a table have genuine stamps. -/
def AllGenuine {κ ρ : Type} [DecidableEq κ] (timestampOf : Int64 → NaiveDateTime)
    (stamp : ρ → Stamp) (t : Table κ ρ) : Prop :=
  ∀ k row, t.lookup k = some row → Genuine timestampOf (stamp row)

/-- Each row of each table has the timestamp of its version. -/
structure TimestampsFollow (timestampOf : Int64 → NaiveDateTime) (st : CurrentTables) : Prop where
  collections : AllGenuine timestampOf CurrentCollectionV2.stamp st.currentCollectionsV2
  tokenDatas : AllGenuine timestampOf CurrentTokenDataV2.stamp st.currentTokenDatasV2
  ownerships : AllGenuine timestampOf CurrentTokenOwnershipV2.stamp st.currentTokenOwnershipsV2
  royalties : AllGenuine timestampOf CurrentTokenRoyaltyV1.stamp st.currentTokenRoyaltyV1
  claims : AllGenuine timestampOf CurrentTokenPendingClaim.stamp st.currentTokenPendingClaims

/-- A claim does not replace an earlier one of another time. -/
def ClaimKeepsTime (st : CurrentTables) : RowUpsert → Prop
  | .claim row => ∀ old, st.currentTokenPendingClaims.lookup row.pk = some old →
      old.lastTransactionVersion ≤ row.lastTransactionVersion →
      old.lastTransactionTimestamp = row.lastTransactionTimestamp
  | _ => True

variable {timestampOf : Int64 → NaiveDateTime}

/-- A statement that takes the stamp over as a whole, or leaves the row alone. -/
theorem allGenuine_upsert {κ ρ : Type} [DecidableEq κ] {stamp : ρ → Stamp} {t : Table κ ρ}
    {merge : ρ → ρ → ρ} {k : κ} {row : ρ}
    (hmerge : ∀ old, t.lookup k = some old → Genuine timestampOf (stamp old) →
      Genuine timestampOf (stamp (merge old row)))
    (hrow : Genuine timestampOf (stamp row)) (ht : AllGenuine timestampOf stamp t) :
    AllGenuine timestampOf stamp (t.upsert merge k row) := by
  intro k' row' h
  by_cases hk : k' = k
  · subst hk
    rw [Table.lookup_upsert_self] at h
    obtain rfl := Option.some.inj h
    cases hold : t.lookup k' with
    | none => exact hrow
    | some old => exact hmerge old hold (ht k' old hold)
  · rw [Table.lookup_upsert_ne _ _ _ hk] at h
    exact ht k' row' h

/-- The stamp of a row that a statement with both columns in its `SET` list leaves. -/
theorem genuine_of_guard {a b : Stamp} {c : Prop} [Decidable c] (ha : Genuine timestampOf a)
    (hb : Genuine timestampOf b) : Genuine timestampOf (if c then b else a) := by
  split
  · exact hb
  · exact ha

theorem collections_stamp (old row : CurrentCollectionV2) :
    (insertCurrentCollectionsV2Query old row).stamp =
      if old.lastTransactionVersion ≤ row.lastTransactionVersion then row.stamp
      else old.stamp := by
  unfold insertCurrentCollectionsV2Query
  split
  · rfl
  · rfl

theorem dataQuery_stamp (kind : RowKind) (old row : CurrentTokenDataV2) :
    (dataQuery kind old row).stamp =
      if old.lastTransactionVersion ≤ row.lastTransactionVersion then row.stamp
      else old.stamp := by
  cases kind with
  | live =>
    show (insertCurrentTokenDatasV2Query old row).stamp = _
    unfold insertCurrentTokenDatasV2Query
    split
    · rfl
    · rfl
  | deleted =>
    show (insertCurrentDeletedTokenDatasV2Query old row).stamp = _
    unfold insertCurrentDeletedTokenDatasV2Query
    split
    · rfl
    · rfl

theorem ownershipQuery_stamp (kind : RowKind) (old row : CurrentTokenOwnershipV2) :
    (ownershipQuery kind old row).stamp =
      if old.lastTransactionVersion ≤ row.lastTransactionVersion then row.stamp
      else old.stamp := by
  cases kind with
  | live =>
    show (insertCurrentTokenOwnershipsV2Query old row).stamp = _
    unfold insertCurrentTokenOwnershipsV2Query
    split
    · rfl
    · rfl
  | deleted =>
    show (insertCurrentDeletedTokenOwnershipsV2Query old row).stamp = _
    unfold insertCurrentDeletedTokenOwnershipsV2Query
    split
    · rfl
    · rfl

theorem royalties_stamp (old row : CurrentTokenRoyaltyV1) :
    (insertCurrentTokenRoyaltiesV1Query old row).stamp =
      if old.lastTransactionVersion ≤ row.lastTransactionVersion then row.stamp
      else old.stamp := by
  unfold insertCurrentTokenRoyaltiesV1Query
  split
  · rfl
  · rfl

/-- The statement of the claims leaves the version of one row with the timestamp of
another. -/
theorem claims_stamp (old row : CurrentTokenPendingClaim) :
    (insertCurrentTokenClaimsQuery old row).stamp =
      if old.lastTransactionVersion ≤ row.lastTransactionVersion then
        (row.lastTransactionVersion, old.lastTransactionTimestamp)
      else old.stamp := by
  unfold insertCurrentTokenClaimsQuery
  split
  · rfl
  · rfl

/-- Storing a row keeps the pairs together exactly if it is no claim over an
earlier one of another time. -/
theorem timestampsFollow_store_iff {st : CurrentTables} {op : RowUpsert}
    (hop : Genuine timestampOf op.stamp) (h : TimestampsFollow timestampOf st) :
    TimestampsFollow timestampOf (st.store op) ↔ ClaimKeepsTime st op := by
  cases op with
  | collection row =>
    refine ⟨fun _ => trivial, fun _ => { h with collections := ?_ }⟩
    refine allGenuine_upsert (fun old _ hold => ?_) hop h.collections
    rw [collections_stamp]
    exact genuine_of_guard hold hop
  | tokenData kind row =>
    refine ⟨fun _ => trivial, fun _ => { h with tokenDatas := ?_ }⟩
    refine allGenuine_upsert (fun old _ hold => ?_) hop h.tokenDatas
    rw [dataQuery_stamp]
    exact genuine_of_guard hold hop
  | ownership kind row =>
    refine ⟨fun _ => trivial, fun _ => { h with ownerships := ?_ }⟩
    refine allGenuine_upsert (fun old _ hold => ?_) hop h.ownerships
    rw [ownershipQuery_stamp]
    exact genuine_of_guard hold hop
  | royalty row =>
    refine ⟨fun _ => trivial, fun _ => { h with royalties := ?_ }⟩
    refine allGenuine_upsert (fun old _ hold => ?_) hop h.royalties
    rw [royalties_stamp]
    exact genuine_of_guard hold hop
  -- The statement that does not set the timestamp.
  | claim row =>
    constructor
    · intro hafter old hold hle
      have hrow := hafter.claims row.pk (insertCurrentTokenClaimsQuery old row) (by
        show (st.currentTokenPendingClaims.upsert _ _ _).lookup _ = _
        rw [Table.lookup_upsert_self, hold]
        rfl)
      rw [claims_stamp, if_pos hle] at hrow
      have htime : old.lastTransactionTimestamp = timestampOf row.lastTransactionVersion := hrow
      exact htime.trans hop.symm
    · intro hkeeps
      refine { h with claims := allGenuine_upsert (fun old hold hgenuine => ?_) hop h.claims }
      rw [claims_stamp]
      split
      next hle =>
        show old.lastTransactionTimestamp = timestampOf row.lastTransactionVersion
        rw [hkeeps old hold hle]
        exact hop
      next => exact hgenuine

theorem timestampsFollow_init : TimestampsFollow timestampOf CurrentTables.init := by
  constructor
  all_goals
    intro k row hrow
    cases hrow

/-- The stored rows are those of the batches. -/
theorem Stored.mem {batches : List CurrentRows} {ops : List RowUpsert} (h : Stored batches ops) :
    ∀ op ∈ ops, ∃ batch ∈ batches, op ∈ batch.upserts := by
  induction h with
  | nil => intro op hop; cases hop
  | snoc _ hperm ih =>
    intro op hop
    rcases List.mem_append.mp hop with hop | hop
    · obtain ⟨batch, hbatch, hmem⟩ := ih op hop
      exact ⟨batch, List.mem_append_left _ hbatch, hmem⟩
    · exact ⟨_, List.mem_append_right _ (List.mem_singleton.mpr rfl), hperm.mem_iff.mp hop⟩

/-- **When versions and timestamps stay together.** Batches are stored one after
another; every row has the timestamp of its own version in every state on the way
exactly if no claim on the way is written over an earlier one of another time. -/
theorem timestamps_follow_versions_iff (timestampOf : Int64 → NaiveDateTime)
    (batches : List CurrentRows)
    (hbatches : ∀ batch ∈ batches, ∀ op ∈ batch.upserts, Genuine timestampOf op.stamp)
    (ops : List RowUpsert) (hstored : Stored batches ops) :
    (∀ done, done <+: ops → TimestampsFollow timestampOf (storeAll done)) ↔
      ∀ done op, (done ++ [op]) <+: ops → ClaimKeepsTime (storeAll done) op := by
  have hgenuine : ∀ done op, (done ++ [op]) <+: ops → Genuine timestampOf op.stamp := by
    intro done op hdone
    obtain ⟨batch, hbatch, hop⟩ := hstored.mem op (mem_of_prefix_concat hdone)
    exact hbatches batch hbatch op hop
  have hstep : ∀ done op, storeAll (done ++ [op]) = (storeAll done).store op :=
    fun done op => List.foldl_concat ..
  constructor
  · intro hall done op hdone
    have hbefore := hall done ((List.prefix_append _ _).trans hdone)
    have hafter := hall (done ++ [op]) hdone
    rw [hstep] at hafter
    exact (timestampsFollow_store_iff (hgenuine done op hdone) hbefore).mp hafter
  · -- From the empty tables on, each row keeps what the ones before it have left.
    intro hkeeps done
    induction done using List.reverseRecOn with
    | nil => intro _; exact timestampsFollow_init
    | append_singleton done op ih =>
      intro hdone
      rw [hstep]
      exact (timestampsFollow_store_iff (hgenuine done op hdone)
        (ih ((List.prefix_append _ _).trans hdone))).mpr (hkeeps done op hdone)

/-- Version 1 is of time 10, version 3 of time 30, and so on. -/
def tenfold (version : Int64) : NaiveDateTime := version.toInt * 10

/-- `0xa` offers a token to `0xb`. -/
def offeredClaim (amount : ℚ) (version : Int64) : CurrentTokenPendingClaim where
  tokenDataIdHash := "t"
  propertyVersion := 0
  fromAddress := "0xa"
  toAddress := "0xb"
  collectionDataIdHash := "c"
  creatorAddress := "0xa"
  collectionName := "C"
  name := "T"
  amount := amount
  tableHandle := "0x1"
  lastTransactionVersion := version
  lastTransactionTimestamp := tenfold version
  tokenDataId := "0xt"
  collectionId := "0xc"

/-- The royalty of the token. -/
def tokenRoyalty (numerator : ℚ) (version : Int64) : CurrentTokenRoyaltyV1 :=
  ⟨"0xt", "0xa", numerator, 100, version, tenfold version⟩

/-- A batch with royalties and claims. -/
def royaltiesAndClaims (royalties : List CurrentTokenRoyaltyV1)
    (claims : List CurrentTokenPendingClaim) : CurrentRows :=
  ⟨[], [], [], [], [], royalties, claims⟩

/-- An offer, and then a royalty that is changed. -/
theorem timestamps_follow_versions_royalty :
    TimestampsFollow tenfold (storeAll [.claim (offeredClaim 1 1), .royalty (tokenRoyalty 5 1),
      .royalty (tokenRoyalty 7 3)]) := by
  let first := royaltiesAndClaims [tokenRoyalty 5 1] [offeredClaim 1 1]
  let second := royaltiesAndClaims [tokenRoyalty 7 3] []
  let order : List RowUpsert := [.claim (offeredClaim 1 1), .royalty (tokenRoyalty 5 1)]
  have hfirst : Stored [first] order := @Stored.snoc [] [] order first .nil (List.Perm.swap _ _ _)
  have hstored : Stored [first, second] (order ++ [.royalty (tokenRoyalty 7 3)]) :=
    @Stored.snoc [first] order _ second hfirst (List.Perm.refl _)
  refine (timestamps_follow_versions_iff tenfold _ ?_ _ hstored).mpr ?_ _ (List.prefix_refl _)
  · intro batch hbatch op hop
    rcases List.mem_pair.mp hbatch with rfl | rfl
    · rcases List.mem_pair.mp hop with rfl | rfl
      · rfl
      · rfl
    · rw [List.mem_singleton.mp hop]
      rfl
  · intro done op hdone
    change (done ++ [op]) <+: [.claim (offeredClaim 1 1), .royalty (tokenRoyalty 5 1),
      .royalty (tokenRoyalty 7 3)] at hdone
    cases done with
    | nil =>
      -- The first row meets empty tables.
      obtain ⟨rest, hrest⟩ := hdone
      obtain ⟨rfl, -⟩ := List.cons.inj hrest
      intro old hold
      cases hold
    | cons first done =>
      obtain ⟨rest, hrest⟩ := hdone
      obtain ⟨-, hrest⟩ := List.cons.inj hrest
      have hmem := mem_of_prefix_concat ⟨rest, hrest⟩
      rcases List.mem_pair.mp hmem with rfl | rfl
      · trivial
      · trivial

/-- An offer is made at version 1 and accepted at version 3; its row has version 3
and the time of version 1. -/
theorem claim_keeps_old_timestamp :
    (storeAll [.claim (offeredClaim 1 1),
        .claim (offeredClaim 0 3)]).currentTokenPendingClaims.lookup
        (offeredClaim 1 1).pk = some { offeredClaim 0 3 with lastTransactionTimestamp := 10 } ∧
      Stored [royaltiesAndClaims [] [offeredClaim 1 1], royaltiesAndClaims [] [offeredClaim 0 3]]
        [.claim (offeredClaim 1 1), .claim (offeredClaim 0 3)] ∧
      (∀ batch ∈ [royaltiesAndClaims [] [offeredClaim 1 1],
          royaltiesAndClaims [] [offeredClaim 0 3]],
        ∀ op ∈ batch.upserts, Genuine tenfold op.stamp) ∧
      ¬ ∀ done, done <+: [.claim (offeredClaim 1 1), .claim (offeredClaim 0 3)] →
        TimestampsFollow tenfold (storeAll done) := by
  have hrow : (storeAll [.claim (offeredClaim 1 1),
      .claim (offeredClaim 0 3)]).currentTokenPendingClaims.lookup (offeredClaim 1 1).pk =
      some { offeredClaim 0 3 with lastTransactionTimestamp := 10 } := rfl
  refine ⟨hrow, .snoc (.snoc .nil (List.Perm.refl _)) (List.Perm.refl _), ?_, ?_⟩
  · intro batch hbatch op hop
    rcases List.mem_pair.mp hbatch with rfl | rfl
    · rw [List.mem_singleton.mp hop]
      rfl
    · rw [List.mem_singleton.mp hop]
      rfl
  · intro hall
    have hclaim := (hall _ (List.prefix_refl _)).claims _ _ hrow
    have htime : (10 : NaiveDateTime) = 30 := hclaim
    exact absurd htime (by decide)

end IndexerProcessors.TokenV2

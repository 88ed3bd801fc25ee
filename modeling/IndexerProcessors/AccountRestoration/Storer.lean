import IndexerProcessors.AccountRestoration.Keys
import IndexerProcessors.Lib.Numeric

/-!
# Storing keys

`insert_public_key_auth_keys_query` merges a row into the stored row of its key:
the flag `is_public_key_used` is meant to stay set once it was set, the other
columns are to follow the highest version. But the guard on the version stands
before the whole update. A row of a lower version than the stored one is refused
with its flag.

So a key's flag is the disjunction of the flags of its rows exactly if one of its
used rows, if it has any, was stored when no row of a higher version was there
(`stored_key_merged_iff`).
-/

namespace IndexerProcessors.AccountRestoration

open IndexerProcessors.Lib

/-- `insert_public_key_auth_keys_query`, on a conflict. -/
def insertPublicKeyAuthKeysQuery (old excluded : PublicKeyAuthKey) : PublicKeyAuthKey :=
  if old.lastTransactionVersion ≤ excluded.lastTransactionVersion then
    { old with
      accountPublicKey := excluded.accountPublicKey
      lastTransactionVersion := excluded.lastTransactionVersion
      signatureType := excluded.signatureType
      isPublicKeyUsed := if old.isPublicKeyUsed then true else excluded.isPublicKeyUsed }
  else old

/-- The upserts of a batch. -/
def keyWrites (batch : List PublicKeyAuthKey) : List (KeyPK × Write PublicKeyAuthKey) :=
  batch.map fun row => (row.pk, ⟨row, insertPublicKeyAuthKeysQuery⟩)

/-- The statement for a batch; it fails if a conflict key occurs twice in it. -/
def storePublicKeyAuthKeys (t : Table KeyPK PublicKeyAuthKey) (batch : List PublicKeyAuthKey) :
    Option (Table KeyPK PublicKeyAuthKey) :=
  if (batch.map (·.pk)).Nodup then some (t.writeAll (keyWrites batch)) else none

/-- Batches stored one after another, in any order and any number of times. -/
def storeBatches (batches : List (List PublicKeyAuthKey)) :
    Option (Table KeyPK PublicKeyAuthKey) :=
  batches.foldlM storePublicKeyAuthKeys ∅

/-! ## What should be stored -/

/-- The stored rows of a key, in the order they were stored. -/
def rowsOf (batches : List (List PublicKeyAuthKey)) (key : KeyPK) : List PublicKeyAuthKey :=
  batches.flatten.filter fun row => row.pk = key

/-- A row has the columns of a row with the highest version of them all. -/
def HighestOf (rows : List PublicKeyAuthKey) (row : PublicKeyAuthKey) : Prop :=
  ∃ top ∈ rows, (∀ r ∈ rows, r.lastTransactionVersion ≤ top.lastTransactionVersion) ∧
    row = { top with isPublicKeyUsed := row.isPublicKeyUsed }

/-- The row that the rows of a key should leave: used if one of them is, and
otherwise the highest version. No rows, no row. -/
def KeyMerged (rows : List PublicKeyAuthKey) : Option PublicKeyAuthKey → Prop
  | none => rows = []
  | some row => row.isPublicKeyUsed = rows.any (·.isPublicKeyUsed) ∧ HighestOf rows row

/-- A used row came when no higher version was there. -/
def UsedInTime (rows : List PublicKeyAuthKey) : Prop :=
  ∃ before row after, rows = before ++ row :: after ∧ row.isPublicKeyUsed ∧
    ∀ r ∈ before, r.lastTransactionVersion ≤ row.lastTransactionVersion

/-! ## The row of one key -/

/-- One more row, at the end, that is used and not below the others, or one that
came in time before. -/
theorem usedInTime_concat {rows : List PublicKeyAuthKey} {row : PublicKeyAuthKey} :
    UsedInTime (rows ++ [row]) ↔ UsedInTime rows ∨ (row.isPublicKeyUsed ∧
      ∀ r ∈ rows, r.lastTransactionVersion ≤ row.lastTransactionVersion) := by
  constructor
  · rintro ⟨before, used, after, hsplit, hused, hle⟩
    cases after using List.reverseRecOn with
    | nil =>
      obtain ⟨rfl, hrow⟩ := List.append_inj' hsplit rfl
      obtain rfl := List.singleton_inj.mp hrow
      exact Or.inr ⟨hused, hle⟩
    | append_singleton after last =>
      rw [← List.cons_append, ← List.append_assoc] at hsplit
      obtain ⟨rfl, -⟩ := List.append_inj' hsplit rfl
      exact Or.inl ⟨before, used, after, rfl, hused, hle⟩
  · rintro (⟨before, used, after, rfl, hused, hle⟩ | ⟨hused, hle⟩)
    · exact ⟨before, used, after ++ [row], by simp, hused, hle⟩
    · exact ⟨rows, row, [], rfl, hused, hle⟩

theorem not_usedInTime_nil : ¬ UsedInTime [] := by
  rintro ⟨before, row, after, hsplit, -⟩
  exact List.append_ne_nil_of_right_ne_nil before (List.cons_ne_nil row after) hsplit.symm

/-- The rows of a key, merged one after another. -/
def mergedRows (rows : List PublicKeyAuthKey) : Option PublicKeyAuthKey :=
  rows.foldl (fun old row => some (Table.merged insertPublicKeyAuthKeysQuery old row)) none

theorem mergedRows_concat (rows : List PublicKeyAuthKey) (row : PublicKeyAuthKey) :
    mergedRows (rows ++ [row]) =
      some (Table.merged insertPublicKeyAuthKeysQuery (mergedRows rows) row) := by
  rw [mergedRows, List.foldl_append]
  rfl

/-- The merged row is a highest one, and its flag is set exactly if a used row came
in time. -/
theorem mergedRows_spec {key : KeyPK} {rows : List PublicKeyAuthKey}
    (hpk : ∀ row ∈ rows, row.pk = key) :
    match mergedRows rows with
    | none => rows = []
    | some row => HighestOf rows row ∧ (row.isPublicKeyUsed ↔ UsedInTime rows) := by
  -- From the end: the last row is merged into the result of the others.
  induction rows using List.reverseRecOn with
  | nil => rfl
  | append_singleton rows row ih =>
    have hrows : ∀ r ∈ rows, r.pk = key := fun r hr => hpk r (List.mem_append_left _ hr)
    have hrow : row.pk = key := hpk row (List.mem_append_right _ (List.mem_singleton.mpr rfl))
    specialize ih hrows
    rw [mergedRows_concat]
    cases hold : mergedRows rows with
    | none =>
      rw [hold] at ih
      obtain rfl := ih
      refine ⟨⟨row, by simp, by simp, rfl⟩, ?_⟩
      rw [usedInTime_concat]
      show row.isPublicKeyUsed = true ↔ _
      simp [not_usedInTime_nil]
    | some old =>
      rw [hold] at ih
      obtain ⟨⟨top, htop, hmax, heq⟩, hused⟩ := ih
      have hversion : old.lastTransactionVersion = top.lastTransactionVersion := by rw [heq]
      have holdPk : old.pk = row.pk := by
        rw [heq]
        exact (hrows top htop).trans hrow.symm
      obtain ⟨hauth, hpublic, htype⟩ := pk_eq_iff.mp holdPk
      rw [usedInTime_concat]
      simp only [Table.merged, insertPublicKeyAuthKeysQuery]
      by_cases hle : old.lastTransactionVersion ≤ row.lastTransactionVersion
      -- The row is the new highest one, and the flag is kept or set.
      · rw [if_pos hle]
        have hall : ∀ r ∈ rows, r.lastTransactionVersion ≤ row.lastTransactionVersion :=
          fun r hr => (hmax r hr).trans (hversion ▸ hle)
        refine ⟨⟨row, by simp, ?_, ?_⟩, ?_⟩
        · intro r hr
          rcases List.mem_append.mp hr with hr | hr
          · exact hall r hr
          · exact (List.mem_singleton.mp hr ▸ le_refl _)
        · rw [hauth, hpublic, htype]
        · rw [← hused]
          cases old.isPublicKeyUsed with
          | true => simp
          | false => simp only [Bool.false_eq_true, if_false, false_or, and_iff_left hall]
      · -- the row is refused, and its flag with it
        rw [if_neg hle]
        have hlt : row.lastTransactionVersion < top.lastTransactionVersion :=
          hversion ▸ not_le.mp hle
        refine ⟨⟨top, List.mem_append_left _ htop, ?_, heq⟩, ?_⟩
        · intro r hr
          rcases List.mem_append.mp hr with hr | hr
          · exact hmax r hr
          · exact List.mem_singleton.mp hr ▸ hlt.le
        · rw [hused]
          refine ⟨Or.inl, fun h => h.resolve_right ?_⟩
          rintro ⟨-, hall⟩
          exact absurd (hall top htop) (not_le.mpr hlt)

/-- The merged row is the right one exactly if a used row, if there is one, came in
time. -/
theorem keyMerged_mergedRows_iff {key : KeyPK} {rows : List PublicKeyAuthKey}
    (hpk : ∀ row ∈ rows, row.pk = key) :
    KeyMerged rows (mergedRows rows) ↔
      ((∃ row ∈ rows, row.isPublicKeyUsed) → UsedInTime rows) := by
  have hspec := mergedRows_spec hpk
  have hany : UsedInTime rows → ∃ row ∈ rows, row.isPublicKeyUsed := by
    rintro ⟨before, row, after, rfl, hused, -⟩
    exact ⟨row, by simp, hused⟩
  cases hmerged : mergedRows rows with
  | none =>
    rw [hmerged] at hspec
    obtain rfl := hspec
    simp [KeyMerged]
  | some row =>
    rw [hmerged] at hspec
    obtain ⟨hhighest, hused⟩ := hspec
    rw [KeyMerged, and_iff_left hhighest, Bool.eq_iff_iff, hused, List.any_eq_true]
    exact ⟨fun h => h.mpr, fun h => ⟨hany, h⟩⟩

/-! ## Any batches in any order -/

/-- Batches with distinct keys are all stored, and the row of a key is that of its
rows. -/
theorem storeBatches_spec {batches : List (List PublicKeyAuthKey)}
    (hdistinct : ∀ batch ∈ batches, (batch.map (·.pk)).Nodup) :
    ∃ t, storeBatches batches = some t ∧
      ∀ key, t.lookup key = mergedRows (rowsOf batches key) := by
  have hstore : storeBatches batches =
      some (Table.writeAll ∅ (keyWrites batches.flatten)) := by
    induction batches using List.reverseRecOn with
    | nil => rfl
    | append_singleton batches batch ih =>
      have hbatch := hdistinct batch (List.mem_append_right _ (List.mem_singleton.mpr rfl))
      rw [storeBatches] at ih ⊢
      rw [List.foldlM_append, ih fun b hb => hdistinct b (List.mem_append_left _ hb)]
      simp only [List.foldlM_cons, List.foldlM_nil, Option.bind_eq_bind, Option.bind_some,
        Option.pure_def, storePublicKeyAuthKeys, if_pos hbatch]
      rw [List.flatten_concat, keyWrites, keyWrites, keyWrites, List.map_append]
      exact congrArg some List.foldl_append.symm
  refine ⟨_, hstore, fun key => ?_⟩
  rw [Table.lookup_writeAll, keyWrites, proj_map, List.foldl_map]
  rfl

/-- The stored row of a key is right, its flag the disjunction of all flags and its
other columns those of the highest version, exactly if a used row of it, if there
is one, was stored when no row of a higher version was there. -/
theorem stored_key_merged_iff (batches : List (List PublicKeyAuthKey))
    (hdistinct : ∀ batch ∈ batches, (batch.map (·.pk)).Nodup) :
    ∃ t, storeBatches batches = some t ∧
      ∀ key, KeyMerged (rowsOf batches key) (t.lookup key) ↔
        ((∃ row ∈ rowsOf batches key, row.isPublicKeyUsed) → UsedInTime (rowsOf batches key)) := by
  obtain ⟨t, hstore, hlookup⟩ := storeBatches_spec hdistinct
  refine ⟨t, hstore, fun key => ?_⟩
  rw [hlookup]
  have hpk : ∀ row ∈ rowsOf batches key, row.pk = key := by
    intro row hrow
    exact of_decide_eq_true (List.mem_filter.mp hrow).2
  exact keyMerged_mergedRows_iff hpk

/-- A row of one key. -/
def keyRow (version : Int64) (used : Bool) : PublicKeyAuthKey where
  publicKey := "0x01"
  publicKeyType := "ed25519"
  authKey := "0xk"
  accountPublicKey := "0x0101"
  isPublicKeyUsed := used
  lastTransactionVersion := version
  signatureType := "multi_ed25519_signature"

/-- Used at version 1, seen unused at version 2, and version 1 replayed. -/
theorem stored_key_merged_replay :
    ∃ t, storeBatches [[keyRow 1 true], [keyRow 2 false], [keyRow 1 true]] = some t ∧
      KeyMerged [keyRow 1 true, keyRow 2 false, keyRow 1 true]
        (t.lookup ("0xk", "0x01", "ed25519")) := by
  obtain ⟨t, hstore, hiff⟩ := stored_key_merged_iff
    [[keyRow 1 true], [keyRow 2 false], [keyRow 1 true]] (by decide)
  refine ⟨t, hstore, (hiff ("0xk", "0x01", "ed25519")).mpr fun _ => ?_⟩
  exact ⟨[], keyRow 1 true, [keyRow 2 false, keyRow 1 true], rfl, rfl, by simp⟩

/-- The use of a key at version 1 is lost if version 2 is stored first. -/
theorem use_stored_late_is_lost :
    let batches := [[keyRow 2 false], [keyRow 1 true]]
    (∀ batch ∈ batches, (batch.map (·.pk)).Nodup) ∧
    ∃ t, storeBatches batches = some t ∧
      t.lookup ("0xk", "0x01", "ed25519") = some (keyRow 2 false) ∧
      (rowsOf batches ("0xk", "0x01", "ed25519")).any (·.isPublicKeyUsed) = true ∧
      ¬ KeyMerged (rowsOf batches ("0xk", "0x01", "ed25519"))
        (t.lookup ("0xk", "0x01", "ed25519")) := by
  refine ⟨by decide, _, rfl, rfl, rfl, ?_⟩
  intro hmerged
  exact absurd hmerged.1 (by decide)

end IndexerProcessors.AccountRestoration

import Mathlib.Data.List.AList
import Mathlib.Algebra.BigOperators.Group.List.Basic
import Mathlib.Tactic

/-!
# Keyed tables

A database table with a primary key, as Mathlib's `AList`: a list of rows
without repeated keys. The statements a program runs against such a table are
functions on it:

- `upsert` / `upsertAll` — `INSERT … ON CONFLICT (key) DO UPDATE SET …`, the
  `SET` list being a merge of the stored row and the `EXCLUDED` one;
- `insertNew` / `insertNewAll` — `INSERT … ON CONFLICT (key) DO NOTHING`;
- `updateWhere` — `UPDATE … SET … WHERE …`;
- `select` and `sumWhere` — `SELECT … WHERE` on the key, and `SUM` over it.

Row order is an artefact of the representation. What a table *contains* is its
`lookup` function, and every lemma below reads a statement through it;
`sumWhere_congr` says that aggregates see no more than that.
-/

namespace IndexerProcessors.Lib

/-- A table with primary key `κ` and rows `ρ`. -/
abbrev Table (κ ρ : Type) := AList fun _ : κ => ρ

namespace Table

variable {κ ρ : Type} [DecidableEq κ]

/-! ## `INSERT … ON CONFLICT` -/

/-- The row an upsert leaves at its key. -/
def merged (merge : ρ → ρ → ρ) (old : Option ρ) (excluded : ρ) : ρ :=
  match old with
  | none => excluded
  | some row => merge row excluded

/-- `INSERT … ON CONFLICT (key) DO UPDATE`: `merge stored excluded` is the row
kept on a conflict. -/
def upsert (merge : ρ → ρ → ρ) (t : Table κ ρ) (k : κ) (excluded : ρ) : Table κ ρ :=
  t.insert k (merged merge (t.lookup k) excluded)

theorem lookup_upsert_self (merge : ρ → ρ → ρ) (t : Table κ ρ) (k : κ) (e : ρ) :
    (t.upsert merge k e).lookup k = some (merged merge (t.lookup k) e) :=
  AList.lookup_insert t

theorem lookup_upsert_ne (merge : ρ → ρ → ρ) (t : Table κ ρ) {k k' : κ} (e : ρ)
    (h : k' ≠ k) : (t.upsert merge k e).lookup k' = t.lookup k' :=
  AList.lookup_insert_ne h

/-- A statement that upserts several rows, in order. -/
def upsertAll (merge : ρ → ρ → ρ) (t : Table κ ρ) (rows : List (κ × ρ)) : Table κ ρ :=
  rows.foldl (fun t row => t.upsert merge row.1 row.2) t

/-- A key that is not among the upserted ones keeps its row. -/
theorem lookup_upsertAll_of_notMem (merge : ρ → ρ → ρ) {k : κ} :
    ∀ (rows : List (κ × ρ)) (t : Table κ ρ), k ∉ rows.map Prod.fst →
      (t.upsertAll merge rows).lookup k = t.lookup k := by
  intro rows
  induction rows with
  | nil => intro t _; rfl
  | cons row rows ih =>
    intro t hk
    rw [List.map_cons, List.mem_cons, not_or] at hk
    show ((t.upsert merge row.1 row.2).upsertAll merge rows).lookup k = t.lookup k
    rw [ih _ hk.2, lookup_upsert_ne merge t row.2 hk.1]

/-- With distinct keys each upserted row meets the row stored before the
statement, whatever stands around it in the list. -/
theorem lookup_upsertAll_of_mem (merge : ρ → ρ → ρ) {k : κ} {e : ρ} :
    ∀ (rows : List (κ × ρ)) (t : Table κ ρ), (rows.map Prod.fst).Nodup →
      (k, e) ∈ rows →
      (t.upsertAll merge rows).lookup k = some (merged merge (t.lookup k) e) := by
  intro rows
  induction rows with
  | nil => intro t _ h; cases h
  | cons row rows ih =>
    intro t hnd hmem
    rw [List.map_cons, List.nodup_cons] at hnd
    show ((t.upsert merge row.1 row.2).upsertAll merge rows).lookup k = _
    rcases List.mem_cons.mp hmem with heq | htl
    · subst heq
      rw [lookup_upsertAll_of_notMem merge rows _ hnd.1, lookup_upsert_self]
    · have hne : k ≠ row.1 := by
        intro h
        exact hnd.1 (h ▸ List.mem_map_of_mem htl)
      rw [ih _ hnd.2 htl, lookup_upsert_ne merge t row.2 hne]

/-- `INSERT … ON CONFLICT (key) DO NOTHING`. -/
def insertNew (t : Table κ ρ) (k : κ) (row : ρ) : Table κ ρ :=
  if k ∈ t then t else t.insert k row

/-- `insertNew` over several rows, in order. -/
def insertNewAll (t : Table κ ρ) (rows : List (κ × ρ)) : Table κ ρ :=
  rows.foldl (fun t row => t.insertNew row.1 row.2) t

theorem lookup_insertNew (t : Table κ ρ) (k k' : κ) (row : ρ) :
    (t.insertNew k row).lookup k' =
      (t.lookup k').or (if k = k' then some row else none) := by
  unfold insertNew
  split
  next hk =>
    split
    next heq =>
      subst heq
      obtain ⟨row', hrow⟩ := Option.isSome_iff_exists.mp (AList.lookup_isSome.mpr hk)
      rw [hrow]
      rfl
    next => rw [Option.or_none]
  next hk =>
    split
    next heq =>
      subst heq
      rw [AList.lookup_insert, AList.lookup_eq_none.mpr hk, Option.none_or]
    next hne => rw [AList.lookup_insert_ne (Ne.symm hne), Option.or_none]

/-- `DO NOTHING` keeps every stored row, and a new key takes its first row. -/
theorem lookup_insertNewAll (k : κ) :
    ∀ (rows : List (κ × ρ)) (t : Table κ ρ),
      (t.insertNewAll rows).lookup k =
        (t.lookup k).or ((rows.find? fun row => row.1 = k).map Prod.snd) := by
  intro rows
  induction rows with
  | nil => intro t; exact (Option.or_none ..).symm
  | cons row rows ih =>
    intro t
    show ((t.insertNew row.1 row.2).insertNewAll rows).lookup k = _
    rw [ih, lookup_insertNew, Option.or_assoc, List.find?_cons]
    by_cases h : row.1 = k
    · simp [h]
    · simp [h]

/-- Rows with distinct new keys are all stored. -/
theorem lookup_insertNewAll_of_mem {k : κ} {row : ρ} {rows : List (κ × ρ)} {t : Table κ ρ}
    (hnodup : (rows.map Prod.fst).Nodup) (hmem : (k, row) ∈ rows) (hnew : k ∉ t) :
    (t.insertNewAll rows).lookup k = some row := by
  have hfind : (rows.find? fun row => row.1 = k) = some (k, row) := by
    have hsome : (rows.find? fun row => row.1 = k).isSome :=
      List.find?_isSome.mpr ⟨(k, row), hmem, by simp⟩
    obtain ⟨first, hfirst⟩ := Option.isSome_iff_exists.mp hsome
    have hkey : first.1 = k := by simpa using List.find?_some hfirst
    have hsame : first = (k, row) :=
      List.inj_on_of_nodup_map hnodup (List.mem_of_find?_eq_some hfirst) hmem hkey
    rw [hfirst, hsame]
  rw [lookup_insertNewAll, AList.lookup_eq_none.mpr hnew, hfind, Option.none_or,
    Option.map_some]

/-- A row is there from before or one of those inserted. -/
theorem of_lookup_insertNewAll {k : κ} {row : ρ} {rows : List (κ × ρ)} {t : Table κ ρ}
    (h : (t.insertNewAll rows).lookup k = some row) : t.lookup k = some row ∨ (k, row) ∈ rows := by
  rw [lookup_insertNewAll, Option.or_eq_some_iff] at h
  obtain hold | ⟨-, hnew⟩ := h
  · exact Or.inl hold
  · obtain ⟨first, hfirst, rfl⟩ := Option.map_eq_some_iff.mp hnew
    obtain rfl : first.1 = k := by simpa using List.find?_some hfirst
    exact Or.inr (List.mem_of_find?_eq_some hfirst)

/-- The only row that a key ever has is there once it was inserted. -/
theorem lookup_insertNewAll_of_only {k : κ} {row : ρ} {rows : List (κ × ρ)} {t : Table κ ρ}
    (hmem : (k, row) ∈ rows)
    (honly : ∀ row', t.lookup k = some row' ∨ (k, row') ∈ rows → row' = row) :
    (t.insertNewAll rows).lookup k = some row := by
  cases hlookup : (t.insertNewAll rows).lookup k with
  | some row' => exact congrArg some (honly row' (of_lookup_insertNewAll hlookup))
  | none =>
    rw [lookup_insertNewAll, Option.or_eq_none_iff, Option.map_eq_none_iff] at hlookup
    exact absurd rfl (of_decide_eq_false
      (Bool.eq_false_iff.mpr (List.find?_eq_none.mp hlookup.2 _ hmem)))

/-! ## `UPDATE` -/

/-- `UPDATE … SET set WHERE q`, on the columns outside the key. -/
def updateWhere (t : Table κ ρ) (q : ρ → Bool) (set : ρ → ρ) : Table κ ρ where
  entries := t.entries.map fun row => ⟨row.1, if q row.2 then set row.2 else row.2⟩
  nodupKeys := t.nodupKeys.map₂ (fun _ row => if q row then set row else row)

theorem lookup_updateWhere (t : Table κ ρ) (q : ρ → Bool) (set : ρ → ρ) (k : κ) :
    (t.updateWhere q set).lookup k =
      (t.lookup k).map fun row => if q row then set row else row :=
  List.dlookup_map₂ (f := fun _ row => if q row then set row else row) k

/-- The rows an `UPDATE … WHERE q … RETURNING` matches. -/
def rowsWhere (t : Table κ ρ) (q : ρ → Bool) : List ρ :=
  (t.entries.map fun row => row.2).filter q

theorem mem_rowsWhere {t : Table κ ρ} {q : ρ → Bool} {row : ρ} :
    row ∈ t.rowsWhere q ↔ ∃ k, t.lookup k = some row ∧ q row = true := by
  unfold rowsWhere
  rw [List.mem_filter, List.mem_map]
  constructor
  · intro h
    obtain ⟨⟨⟨k, row'⟩, hin, rfl⟩, hq⟩ := h
    exact ⟨k, AList.mem_lookup_iff.mpr hin, hq⟩
  · intro h
    obtain ⟨k, hl, hq⟩ := h
    exact ⟨⟨⟨k, row⟩, AList.mem_lookup_iff.mp hl, rfl⟩, hq⟩

/-- Row order aside, the matched rows depend only on what the tables hold that
matches. -/
theorem rowsWhere_perm {t t' : Table κ ρ} {q : ρ → Bool}
    (h : ∀ k row, q row = true → (t.lookup k = some row ↔ t'.lookup k = some row)) :
    (t.rowsWhere q).Perm (t'.rowsWhere q) := by
  have hent : (t.entries.filter fun row => q row.2).Perm
      (t'.entries.filter fun row => q row.2) := by
    refine (List.perm_ext_iff_of_nodup (t.nodupKeys.nodup.filter _)
      (t'.nodupKeys.nodup.filter _)).mpr ?_
    intro entry
    obtain ⟨k, row⟩ := entry
    rw [List.mem_filter, List.mem_filter]
    refine and_congr_left fun hq => ?_
    exact AList.mem_lookup_iff.symm.trans ((h k row hq).trans AList.mem_lookup_iff)
  have hrows : ∀ s : Table κ ρ,
      s.rowsWhere q = (s.entries.filter fun row => q row.2).map fun row => row.2 :=
    fun s => List.filter_map
  rw [hrows, hrows]
  exact hent.map _

/-! ## `SELECT` and `SUM` -/

/-- `SELECT … WHERE p(key)`. -/
def select (t : Table κ ρ) (p : κ → Bool) : List (κ × ρ) :=
  (t.entries.filter fun row => p row.1).map fun row => (row.1, row.2)

theorem mem_select {t : Table κ ρ} {p : κ → Bool} {k : κ} {row : ρ} :
    (k, row) ∈ t.select p ↔ t.lookup k = some row ∧ p k = true := by
  have hmem : t.lookup k = some row ↔ Sigma.mk k row ∈ t.entries :=
    AList.mem_lookup_iff
  rw [hmem]
  unfold select
  constructor
  · intro h
    obtain ⟨⟨k', row'⟩, hin, heq⟩ := List.mem_map.mp h
    obtain ⟨rfl, rfl⟩ := Prod.mk.inj heq
    exact ⟨(List.mem_filter.mp hin).1, (List.mem_filter.mp hin).2⟩
  · intro h
    obtain ⟨hin, hp⟩ := h
    exact List.mem_map.mpr ⟨⟨k, row⟩, List.mem_filter.mpr ⟨hin, hp⟩, rfl⟩

omit [DecidableEq κ] in
/-- The keys a query returns are distinct. -/
theorem nodup_select_keys (t : Table κ ρ) (p : κ → Bool) :
    ((t.select p).map Prod.fst).Nodup := by
  have hkeys : (t.select p).map Prod.fst = t.keys.filter p := by
    unfold select AList.keys List.keys
    rw [List.map_map, List.filter_map]
    rfl
  rw [hkeys]
  exact t.keys_nodup.filter _

omit [DecidableEq κ] in
/-- The value of a column at a key, `0` where there is no row. -/
def value {M : Type} [Zero M] (t : Table κ ρ) (f : ρ → M) (k : κ) : M :=
  (t.lookup k).elim 0 f

/-- `SELECT SUM(f) … WHERE p(key)` (`0` where SQL has `NULL` for no rows). -/
def sumWhere {M : Type} [AddCommMonoid M] (t : Table κ ρ) (p : κ → Bool) (f : ρ → M) : M :=
  ((t.select p).map fun row => f row.2).sum

/-- The non-zero entries of a column among the selected keys. -/
private noncomputable def nonzeroEntries {M : Type} [Zero M] (t : Table κ ρ) (p : κ → Bool)
    (f : ρ → M) : List (κ × M) :=
  open Classical in ((t.select p).map fun row => (row.1, f row.2)).filter fun e => e.2 ≠ 0

open Classical in
private theorem mem_nonzeroEntries {M : Type} [Zero M] {t : Table κ ρ} {p : κ → Bool}
    {f : ρ → M} {k : κ} {v : M} :
    (k, v) ∈ t.nonzeroEntries p f ↔ p k = true ∧ v ≠ 0 ∧ t.value f k = v := by
  unfold nonzeroEntries value
  rw [List.mem_filter, List.mem_map, decide_eq_true_iff]
  constructor
  · intro h
    obtain ⟨⟨⟨k', row⟩, hin, heq⟩, hv⟩ := h
    obtain ⟨rfl, rfl⟩ := Prod.mk.inj heq
    obtain ⟨hl, hp⟩ := mem_select.mp hin
    exact ⟨hp, hv, by rw [hl]; rfl⟩
  · intro h
    obtain ⟨hp, hv, hval⟩ := h
    cases hl : t.lookup k with
    | none => rw [hl] at hval; exact absurd hval.symm hv
    | some row =>
      rw [hl] at hval
      exact ⟨⟨(k, row), mem_select.mpr ⟨hl, hp⟩, by rw [← hval]; rfl⟩, hv⟩

omit [DecidableEq κ] in
private theorem sum_nonzeroEntries {M : Type} [AddCommMonoid M] (t : Table κ ρ)
    (p : κ → Bool) (f : ρ → M) :
    ((t.nonzeroEntries p f).map Prod.snd).sum = t.sumWhere p f := by
  unfold nonzeroEntries sumWhere
  induction t.select p with
  | nil => rfl
  | cons row rows ih =>
    by_cases h : f row.2 = 0
    · simp only [List.map_cons, List.sum_cons, h, zero_add] at ih ⊢
      rw [List.filter_cons_of_neg (by simp), ih]
    · simp only [List.map_cons, List.sum_cons] at ih ⊢
      rw [List.filter_cons_of_pos (by simp [h]), List.map_cons, List.sum_cons, ih]

/-- An aggregate depends only on the column's value at each selected key: not
on row order, not on other columns, and a row holding `0` counts as no row. -/
theorem sumWhere_congr {M : Type} [AddCommMonoid M] {t t' : Table κ ρ} {p : κ → Bool}
    {f : ρ → M} (h : ∀ k, p k = true → t.value f k = t'.value f k) :
    t.sumWhere p f = t'.sumWhere p f := by
  have hnodup : ∀ s : Table κ ρ, (s.nonzeroEntries p f).Nodup := by
    intro s
    refine List.Nodup.filter _ (List.Nodup.of_map Prod.fst ?_)
    rw [List.map_map]
    exact nodup_select_keys s p
  have hperm : (t.nonzeroEntries p f).Perm (t'.nonzeroEntries p f) := by
    refine (List.perm_ext_iff_of_nodup (hnodup t) (hnodup t')).mpr ?_
    intro entry
    obtain ⟨k, v⟩ := entry
    rw [mem_nonzeroEntries, mem_nonzeroEntries]
    constructor
    · intro h
      obtain ⟨hp, hv, hval⟩ := h
      exact ⟨hp, hv, (h k hp) ▸ hval⟩
    · intro h
      obtain ⟨hp, hv, hval⟩ := h
      exact ⟨hp, hv, (h k hp).symm ▸ hval⟩
  rw [← sum_nonzeroEntries t, ← sum_nonzeroEntries t']
  exact (hperm.map _).sum_eq

/-- What a stored row adds to an aggregate replaces what was at its key. -/
theorem sumWhere_insert {M : Type} [AddCommMonoid M] (t : Table κ ρ) (p : κ → Bool) (f : ρ → M)
    (k : κ) (row : ρ) :
    sumWhere (t.insert k row) p f + (if p k then t.value f k else 0) =
      t.sumWhere p f + (if p k then f row else 0) := by
  have hinsert : ∀ row, sumWhere (t.insert k row) p f =
      (if p k then f row else 0) + sumWhere (t.erase k) p f := by
    intro row
    unfold sumWhere select
    rw [AList.entries_insert, List.filter_cons]
    have herase : (t.erase k).entries = List.kerase k t.entries := rfl
    split <;> simp [herase, List.map_map, Function.comp_def]
  -- the table itself, with its own row stored again
  have hself : t.sumWhere p f =
      (if p k then t.value f k else 0) + sumWhere (t.erase k) p f := by
    cases hk : t.lookup k with
    | none =>
      have herase : t.erase k = t :=
        AList.ext (List.kerase_of_notMem_keys (AList.lookup_eq_none.mp hk))
      simp [herase, value, hk]
    | some old =>
      have hvalue : t.value f k = f old := by simp [value, hk]
      rw [hvalue, ← hinsert old]
      refine sumWhere_congr fun k' _ => ?_
      unfold value
      by_cases h : k' = k
      · subst h
        rw [AList.lookup_insert, hk]
      · rw [AList.lookup_insert_ne h]
  rw [hinsert row, hself]
  abel

end Table

end IndexerProcessors.Lib

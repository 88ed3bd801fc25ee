import IndexerProcessors.Lib.SortDedup

/-!
# `ROW_NUMBER() OVER (PARTITION BY … ORDER BY …)`

The rows of each partition are numbered in their order, and rows that tie come as
the database happens to enumerate them. A query that keeps the rows numbered 1
returns one row a partition, first in its order (`firstRow_eq_some`); which of
several it is depends on the enumeration, and each of them can be it
(`firstRow_cons`). So what is read of the first rows is determined only if the
tying ones agree on it.
-/

namespace IndexerProcessors.Lib

variable {α β κ σ : Type} [DecidableEq κ] [LinearOrder σ]

/-- The rows of a partition, as they are enumerated. -/
def partitionOf (part : α → κ) (rows : List α) (k : κ) : List α :=
  rows.filter fun a => part a = k

/-- The rows, partition by partition, with their numbers. -/
def rowNumbers (part : α → κ) (order : α → σ) (rows : List α) : List (α × ℕ) :=
  (rows.map part).dedup.flatMap fun k => (sortBy order (partitionOf part rows k)).zipIdx 1

/-- The first row of a partition. -/
def firstRow (part : α → κ) (order : α → σ) (rows : List α) (k : κ) : Option α :=
  (sortBy order (partitionOf part rows k)).head?

theorem filter_zipIdx_one (l : List α) :
    ((l.zipIdx 1).filter fun r => r.2 = 1).map Prod.fst = l.head?.toList := by
  cases l with
  | nil => rfl
  | cons a l =>
    have hrest : ((l.zipIdx 2).filter fun r => r.2 = 1) = [] := by
      refine List.filter_eq_nil_iff.mpr fun r hr => ?_
      have hle := List.le_snd_of_mem_zipIdx hr
      simp only [decide_eq_true_eq]
      omega
    rw [List.zipIdx_cons, List.filter_cons_of_pos (by simp), hrest]
    rfl

/-- What `WHERE rn = 1` keeps. -/
theorem filter_rowNumbers (part : α → κ) (order : α → σ) (rows : List α) :
    ((rowNumbers part order rows).filter fun r => r.2 = 1).map Prod.fst =
      (rows.map part).dedup.filterMap (firstRow part order rows) := by
  rw [rowNumbers, List.filter_flatMap, List.map_flatMap, List.filterMap_eq_flatMap_toList]
  exact List.flatMap_congr fun k _ => filter_zipIdx_one _

theorem mem_partitionOf {part : α → κ} {rows : List α} {k : κ} {a : α} :
    a ∈ partitionOf part rows k ↔ a ∈ rows ∧ part a = k := by
  simp [partitionOf]

/-- A row may come first if no row of its partition is before it. -/
structure MayBeFirst (part : α → κ) (order : α → σ) (rows : List α) (a : α) : Prop where
  mem : a ∈ rows
  least : ∀ b ∈ rows, part b = part a → order a ≤ order b

theorem firstRow_eq_some {part : α → κ} {order : α → σ} {rows : List α} {k : κ} {a : α}
    (h : firstRow part order rows k = some a) : part a = k ∧ MayBeFirst part order rows a := by
  obtain ⟨rest, hsort⟩ := List.head?_eq_some_iff.mp h
  have hmem : a ∈ sortBy order (partitionOf part rows k) := hsort ▸ List.mem_cons_self
  obtain ⟨harows, hk⟩ := mem_partitionOf.mp (mem_sortBy.mp hmem)
  refine ⟨hk, harows, fun b hb hpart => ?_⟩
  have hpair := pairwise_sortBy order (partitionOf part rows k)
  rw [hsort, List.pairwise_cons] at hpair
  have hbmem : b ∈ sortBy order (partitionOf part rows k) :=
    mem_sortBy.mpr (mem_partitionOf.mpr ⟨hb, hpart.trans hk⟩)
  rw [hsort] at hbmem
  rcases List.mem_cons.mp hbmem with rfl | hrest
  · exact le_rfl
  · exact hpair.1 b hrest

theorem firstRow_isSome_iff {part : α → κ} {order : α → σ} {rows : List α} {k : κ} :
    (firstRow part order rows k).isSome ↔ ∃ a ∈ rows, part a = k := by
  rw [firstRow, List.isSome_head?, List.ne_nil_iff_exists_cons]
  constructor
  · rintro ⟨a, rest, hsort⟩
    have hmem : a ∈ sortBy order (partitionOf part rows k) := hsort ▸ List.mem_cons_self
    exact ⟨a, mem_partitionOf.mp (mem_sortBy.mp hmem)⟩
  · intro ⟨a, ha⟩
    have hmem : a ∈ sortBy order (partitionOf part rows k) :=
      mem_sortBy.mpr (mem_partitionOf.mpr ha)
    exact List.ne_nil_iff_exists_cons.mp (List.ne_nil_of_mem hmem)

/-- A row that may come first does so where it is enumerated first. -/
theorem firstRow_cons {part : α → κ} {order : α → σ} {rows : List α} {a : α}
    (h : ∀ b ∈ rows, part b = part a → order a ≤ order b) :
    firstRow part order (a :: rows) (part a) = some a := by
  have hleast : ∀ b ∈ partitionOf part rows (part a), order a ≤ order b := by
    intro b hb
    obtain ⟨hmem, hpart⟩ := mem_partitionOf.mp hb
    exact h b hmem hpart
  have hpartition : partitionOf part (a :: rows) (part a) = a :: partitionOf part rows (part a) :=
    List.filter_cons_of_pos (by simp)
  rw [firstRow, hpartition, sortBy, List.insertionSort_cons_of_forall_rel _ hleast]
  rfl

omit [DecidableEq κ] in
theorem MayBeFirst.perm {part : α → κ} {order : α → σ} {rows rows' : List α} {a : α}
    (hperm : rows.Perm rows') (h : MayBeFirst part order rows a) :
    MayBeFirst part order rows' a :=
  ⟨hperm.mem_iff.mp h.mem, fun b hb => h.least b (hperm.mem_iff.mpr hb)⟩

/-- Where the rows that may come first agree on `g`, the enumeration does not show in
it. -/
theorem map_firstRow_perm {part : α → κ} {order : α → σ} {rows rows' : List α} {g : α → β} {k : κ}
    (hperm : rows.Perm rows')
    (hagree : ∀ a b, MayBeFirst part order rows a → MayBeFirst part order rows b →
      part a = k → part b = k → g a = g b) :
    (firstRow part order rows k).map g = (firstRow part order rows' k).map g := by
  have hsome : (firstRow part order rows k).isSome ↔ (firstRow part order rows' k).isSome := by
    simp only [firstRow_isSome_iff, hperm.mem_iff]
  cases hfirst : firstRow part order rows k with
  | none =>
    cases hfirst' : firstRow part order rows' k with
    | none => rfl
    | some b => simp [hfirst, hfirst'] at hsome
  | some a =>
    cases hfirst' : firstRow part order rows' k with
    | none => simp [hfirst, hfirst'] at hsome
    | some b =>
      obtain ⟨hka, ha⟩ := firstRow_eq_some hfirst
      obtain ⟨hkb, hb⟩ := firstRow_eq_some hfirst'
      rw [Option.map_some, Option.map_some, hagree a b ha (hb.perm hperm.symm) hka hkb]

omit [DecidableEq κ] in
/-- Sorting by a key that tells the rows apart forgets the enumeration. -/
theorem sortBy_eq_of_perm {order : α → σ} {rows rows' : List α} (hperm : rows.Perm rows')
    (hinj : ∀ a ∈ rows, ∀ b ∈ rows, order a = order b → a = b) :
    sortBy order rows = sortBy order rows' := by
  have hsorted : (sortBy order rows).Perm (sortBy order rows') :=
    (List.perm_insertionSort _ rows).trans
      (hperm.trans (List.perm_insertionSort _ rows').symm)
  refine List.Perm.eq_of_pairwise ?_ (pairwise_sortBy order rows) (pairwise_sortBy order rows')
    hsorted
  intro a b ha hb hab hba
  refine hinj a (mem_sortBy.mp ha) b ?_ (le_antisymm hab hba)
  exact hperm.mem_iff.mpr (mem_sortBy.mp hb)

end IndexerProcessors.Lib

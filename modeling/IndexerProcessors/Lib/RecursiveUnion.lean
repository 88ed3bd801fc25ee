import Mathlib.Logic.Relation
import Mathlib.Tactic

/-!
# `WITH RECURSIVE … UNION ALL`

How a database evaluates a recursive query. The non-recursive term fills the
working table; each round adds the working table to the result and replaces it by
what the recursive term makes of it alone; the query ends when the working table
is empty. `UNION ALL` drops no duplicates, so nothing but the recursive term can
end it (`exists_recursiveUnion`: a rank that every step lowers), and what it
collects is what steps lead to from the first rows (`mem_recursiveUnion_iff`).
-/

namespace IndexerProcessors.Lib

variable {α : Type}

/-- The rows collected from the working table on, `none` if the table is not
empty yet after that many rounds. -/
def recursiveUnion (term : List α → List α) : ℕ → List α → Option (List α)
  | _, [] => some []
  | 0, _ :: _ => none
  | rounds + 1, row :: working =>
    (recursiveUnion term rounds (term (row :: working))).map (row :: working ++ ·)

/-- The recursive term joins row by row: what it yields comes from a row of the
working table by one step of `next`. -/
def StepsBy (term : List α → List α) (next : α → α → Prop) : Prop :=
  ∀ working row, row ∈ term working ↔ ∃ r ∈ working, next r row

variable {term : List α → List α} {next : α → α → Prop}

/-- A rank that every step lowers bounds the number of rounds. -/
theorem exists_recursiveUnion (hterm : StepsBy term next) (rank : α → ℕ)
    (hrank : ∀ r r', next r r' → rank r' < rank r) :
    ∀ (rounds : ℕ) (working : List α), (∀ r ∈ working, rank r < rounds) →
      ∃ rows, recursiveUnion term rounds working = some rows := by
  intro rounds
  induction rounds with
  | zero =>
    intro working hlt
    cases working with
    | nil => exact ⟨[], rfl⟩
    | cons r working => exact absurd (hlt r List.mem_cons_self) (by omega)
  | succ rounds ih =>
    intro working hlt
    cases working with
    | nil => exact ⟨[], rfl⟩
    | cons r working =>
      have hnext : ∀ r' ∈ term (r :: working), rank r' < rounds := by
        intro r' hr'
        obtain ⟨u, hu, hstep⟩ := (hterm _ _).mp hr'
        have hlower := hrank u r' hstep
        have hbound := hlt u hu
        omega
      obtain ⟨rows, hrows⟩ := ih _ hnext
      exact ⟨r :: working ++ rows, by rw [recursiveUnion, hrows, Option.map_some]⟩

/-- More rounds than needed change nothing. -/
theorem recursiveUnion_add (extra : ℕ) :
    ∀ (rounds : ℕ) (working rows : List α), recursiveUnion term rounds working = some rows →
      recursiveUnion term (rounds + extra) working = some rows := by
  intro rounds
  induction rounds with
  | zero =>
    intro working rows h
    cases working with
    | nil => rw [← h, recursiveUnion, recursiveUnion]
    | cons r working => cases h
  | succ rounds ih =>
    intro working rows h
    cases working with
    | nil => rw [← h, recursiveUnion, recursiveUnion]
    | cons r working =>
      rw [recursiveUnion, Option.map_eq_some_iff] at h
      obtain ⟨rest, hrest, hrows⟩ := h
      rw [show rounds + 1 + extra = rounds + extra + 1 by omega, recursiveUnion,
        ih _ _ hrest, Option.map_some, hrows]

/-- The result is what the steps lead to from the working table. -/
theorem mem_recursiveUnion_iff (hterm : StepsBy term next) {row : α} :
    ∀ (rounds : ℕ) (working rows : List α), recursiveUnion term rounds working = some rows →
      (row ∈ rows ↔ ∃ r ∈ working, Relation.ReflTransGen next r row) := by
  intro rounds
  induction rounds with
  | zero =>
    intro working rows h
    cases working with
    | nil => simp_all [recursiveUnion]
    | cons r working => cases h
  | succ rounds ih =>
    intro working rows h
    cases working with
    | nil => simp_all [recursiveUnion]
    | cons r working =>
      rw [recursiveUnion, Option.map_eq_some_iff] at h
      obtain ⟨rest, hrest, rfl⟩ := h
      rw [List.mem_append, ih _ _ hrest]
      constructor
      · rintro (hmem | ⟨u, hu, hpath⟩)
        · exact ⟨row, hmem, Relation.ReflTransGen.refl⟩
        · obtain ⟨v, hv, hstep⟩ := (hterm _ _).mp hu
          exact ⟨v, hv, Relation.ReflTransGen.head hstep hpath⟩
      · rintro ⟨u, hu, hpath⟩
        rcases Relation.ReflTransGen.cases_head hpath with rfl | ⟨v, hstep, hrest⟩
        · exact Or.inl hu
        · exact Or.inr ⟨v, (hterm _ _).mpr ⟨u, hu, hstep⟩, hrest⟩

end IndexerProcessors.Lib

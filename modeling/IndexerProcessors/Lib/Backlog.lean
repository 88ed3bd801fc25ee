import IndexerProcessors.Lib.LastWriter

/-!
# Rows that wait to be stored

An extractor hands over rows; a storer takes any of them at any time and upserts it
under a version guard. Queries of the extractor see some state the table has had.

`Backlog.Ok` says what holds whatever the order: stored rows have been handed over, a
key that has a row keeps one, and a row that does not wait any more is stored, or a newer
one is. So once nothing waits, each key has the newest of its rows (`Backlog.Ok.drained`).
-/

namespace IndexerProcessors.Lib

/-- All rows handed over, those that wait, and the states of the table, the present
one apart. -/
structure Backlog (κ ρ : Type) [DecidableEq κ] where
  extracted : List ρ
  pending : List ρ
  earlier : List (Table κ ρ)
  table : Table κ ρ

namespace Backlog

variable {κ ρ V : Type} [DecidableEq κ] [LinearOrder V]

def init : Backlog κ ρ := ⟨[], [], [], ∅⟩

/-- The states a query may have seen. -/
def states (b : Backlog κ ρ) : List (Table κ ρ) := b.earlier ++ [b.table]

def add (b : Backlog κ ρ) (rows : List ρ) : Backlog κ ρ :=
  { b with extracted := b.extracted ++ rows, pending := b.pending ++ rows }

/-- One of the waiting rows is stored. -/
def store (pk : ρ → κ) (query : ρ → ρ → ρ) (b : Backlog κ ρ) (index : ℕ) :
    Option (Backlog κ ρ) := do
  let row ← b.pending[index]?
  return { b with
    pending := b.pending.eraseIdx index
    earlier := b.earlier ++ [b.table]
    table := b.table.upsert query (pk row) row }

/-- What holds in every state. -/
structure Ok (pk : ρ → κ) (ver : ρ → V) (b : Backlog κ ρ) : Prop where
  pending : ∀ row ∈ b.pending, row ∈ b.extracted
  stored : ∀ table ∈ b.states, ∀ key row, table.lookup key = some row →
    pk row = key ∧ row ∈ b.extracted
  stays : ∀ table ∈ b.states, ∀ key row, table.lookup key = some row →
    ∃ now, b.table.lookup key = some now
  settled : ∀ row ∈ b.extracted, row ∈ b.pending ∨
    ∃ newer, b.table.lookup (pk row) = some newer ∧ ver row ≤ ver newer

variable {pk : ρ → κ} {ver : ρ → V} {query : ρ → ρ → ρ}

theorem mem_states (b : Backlog κ ρ) : b.table ∈ b.states :=
  List.mem_append_right _ (List.mem_singleton.mpr rfl)

theorem ok_init : (init : Backlog κ ρ).Ok pk ver := by
  have hempty : ∀ table ∈ (init : Backlog κ ρ).states, ∀ key row,
      table.lookup key ≠ some row := by
    intro table htable key row hrow
    rw [List.mem_singleton.mp htable] at hrow
    cases (AList.lookup_empty key).symm.trans hrow
  refine ⟨by simp [init], ?_, ?_, by simp [init]⟩
  · intro table htable key row hrow
    exact absurd hrow (hempty table htable key row)
  · intro table htable key row hrow
    exact absurd hrow (hempty table htable key row)

theorem Ok.add {b : Backlog κ ρ} (h : b.Ok pk ver) (rows : List ρ) : (b.add rows).Ok pk ver := by
  refine ⟨?_, ?_, h.stays, ?_⟩
  · intro row hrow
    rcases List.mem_append.mp hrow with hrow | hrow
    · exact List.mem_append_left _ (h.pending row hrow)
    · exact List.mem_append_right _ hrow
  · intro table htable key row hrow
    obtain ⟨hpk, hmem⟩ := h.stored table htable key row hrow
    exact ⟨hpk, List.mem_append_left _ hmem⟩
  · intro row hrow
    rcases List.mem_append.mp hrow with hrow | hrow
    · exact (h.settled row hrow).imp (List.mem_append_left _) id
    · exact Or.inl (List.mem_append_right _ hrow)

/-- A guarded upsert leaves at its key the newer of two rows, at others what was there. -/
theorem lookup_upsert_later {table : Table κ ρ} {row : ρ}
    (hquery : ∀ old excluded, pk old = pk excluded →
      query old excluded = later ver old excluded)
    (hkeys : ∀ old, table.lookup (pk row) = some old → pk old = pk row) :
    ∃ kept, (table.upsert query (pk row) row).lookup (pk row) = some kept ∧
      (kept = row ∨ table.lookup (pk row) = some kept) ∧ ver row ≤ ver kept ∧
      ∀ old, table.lookup (pk row) = some old → ver old ≤ ver kept := by
  rw [Table.lookup_upsert_self]
  cases hold : table.lookup (pk row) with
  | none => exact ⟨row, rfl, Or.inl rfl, le_rfl, by simp⟩
  | some old =>
    have hmerged : Table.merged query (some old) row = later ver old row :=
      hquery old row (hkeys old hold)
    refine ⟨later ver old row, congrArg some hmerged, ?_, ?_, ?_⟩
    · unfold later
      split
      next => exact Or.inl rfl
      next => exact Or.inr rfl
    · exact (isLatest_later ver old row).le row (by simp)
    · intro old' hold'
      obtain rfl := Option.some.inj hold'
      exact (isLatest_later ver old row).le old (by simp)

theorem Ok.store {b b' : Backlog κ ρ} {index : ℕ} (h : b.Ok pk ver)
    (hquery : ∀ old excluded, pk old = pk excluded →
      query old excluded = later ver old excluded)
    (hstore : b.store pk query index = some b') : b'.Ok pk ver := by
  obtain ⟨row, hrow, hstore⟩ := Option.bind_eq_some_iff.mp hstore
  obtain rfl := Option.some.inj hstore
  have hmem : row ∈ b.extracted := h.pending row (List.mem_of_getElem? hrow)
  obtain ⟨kept, hkept, hfrom, hle, hold⟩ := lookup_upsert_later hquery
    fun old hold => (h.stored b.table b.mem_states _ old hold).1
  refine ⟨fun r hr => h.pending r (List.mem_of_mem_eraseIdx hr), ?_, ?_, ?_⟩
  · intro table htable key r hr
    rcases List.mem_append.mp htable with htable | htable
    · exact h.stored table htable key r hr
    · rw [List.mem_singleton.mp htable] at hr
      by_cases hkey : key = pk row
      · subst hkey
        obtain rfl := Option.some.inj (hkept.symm.trans hr)
        rcases hfrom with rfl | hfrom
        · exact ⟨rfl, hmem⟩
        · exact h.stored b.table b.mem_states _ kept hfrom
      · rw [Table.lookup_upsert_ne _ _ _ hkey] at hr
        exact h.stored b.table b.mem_states key r hr
  · intro table htable key r hr
    rcases List.mem_append.mp htable with htable | htable
    · obtain ⟨now, hnow⟩ := h.stays table htable key r hr
      by_cases hkey : key = pk row
      · subst hkey
        exact ⟨kept, hkept⟩
      · exact ⟨now, (Table.lookup_upsert_ne _ _ _ hkey).trans hnow⟩
    · rw [List.mem_singleton.mp htable] at hr
      exact ⟨r, hr⟩
  · intro r hr
    -- a row that has left the queue is the one that is stored now, or was stored before
    have hcases : r ∈ b.pending.eraseIdx index ∨ r = row ∨
        ∃ newer, b.table.lookup (pk r) = some newer ∧ ver r ≤ ver newer := by
      rcases h.settled r hr with hpending | hnewer
      · obtain ⟨i, hi⟩ := List.mem_iff_getElem?.mp hpending
        by_cases hindex : i = index
        · subst hindex
          exact Or.inr (Or.inl (Option.some.inj (hi.symm.trans hrow)))
        · exact Or.inl (List.mem_eraseIdx_iff_getElem?.mpr ⟨i, hindex, hi⟩)
      · exact Or.inr (Or.inr hnewer)
    rcases hcases with hpending | rfl | ⟨newer, hnewer, hver⟩
    · exact Or.inl hpending
    · exact Or.inr ⟨kept, hkept, hle⟩
    · by_cases hkey : pk r = pk row
      · rw [hkey] at hnewer ⊢
        exact Or.inr ⟨kept, hkept, hver.trans (hold newer hnewer)⟩
      · exact Or.inr ⟨newer, (Table.lookup_upsert_ne _ _ _ hkey).trans hnewer, hver⟩

/-- Once nothing waits, a key has the newest of its rows. -/
theorem Ok.drained {b : Backlog κ ρ} (h : b.Ok pk ver) (hpending : b.pending = []) {newest : ρ}
    (hmem : newest ∈ b.extracted)
    (hnewest : ∀ row ∈ b.extracted, pk row = pk newest → ver newest ≤ ver row → row = newest) :
    b.table.lookup (pk newest) = some newest := by
  rcases h.settled newest hmem with hwaits | ⟨row, hrow, hver⟩
  · rw [hpending] at hwaits
    cases hwaits
  · obtain ⟨hpk, hextracted⟩ := h.stored b.table b.mem_states _ row hrow
    rw [hrow, hnewest row hextracted hpk hver]

end Backlog

end IndexerProcessors.Lib

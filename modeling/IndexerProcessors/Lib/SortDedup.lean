import Mathlib.Data.List.Destutter
import Mathlib.Data.List.Sort
import Mathlib.Tactic

/-!
# Sorting, then dropping equal neighbours

The usual way to drop duplicates from a vector: sort it by a key (`sortBy`, a
stable sort) and drop every element whose key is that of the element kept before
it (`dedupBy`). On a list sorted so that equal keys stand together no key is left
twice (`nodup_keys_dedupBy`), and none is lost (`exists_mem_dedupBy_iff`).
-/

namespace IndexerProcessors.Lib

variable {α κ σ : Type}

/-- A stable sort by a key. -/
def sortBy [LinearOrder σ] (sortKey : α → σ) (l : List α) : List α :=
  l.insertionSort fun a b => sortKey a ≤ sortKey b

/-- Drop the elements with the key of the element kept before them. -/
def dedupBy [DecidableEq κ] (key : α → κ) (l : List α) : List α :=
  l.destutter fun a b => key a ≠ key b

theorem mem_sortBy [LinearOrder σ] {sortKey : α → σ} {l : List α} {a : α} :
    a ∈ sortBy sortKey l ↔ a ∈ l :=
  (List.perm_insertionSort _ l).mem_iff

theorem pairwise_sortBy [LinearOrder σ] (sortKey : α → σ) (l : List α) :
    (sortBy sortKey l).Pairwise fun a b => sortKey a ≤ sortKey b := by
  have htotal : Std.Total fun a b : α => sortKey a ≤ sortKey b :=
    ⟨fun a b => le_total (sortKey a) (sortKey b)⟩
  have htrans : IsTrans α fun a b => sortKey a ≤ sortKey b := ⟨fun _ _ _ => le_trans⟩
  exact List.pairwise_insertionSort _ l

theorem mem_of_mem_dedupBy [DecidableEq κ] {key : α → κ} {l : List α} {a : α}
    (h : a ∈ dedupBy key l) : a ∈ l :=
  (List.destutter_sublist _ l).mem h

/-- Every key is still there. -/
theorem exists_mem_dedupBy_iff [DecidableEq κ] {key : α → κ} {l : List α} {k : κ} :
    (∃ a ∈ dedupBy key l, key a = k) ↔ ∃ a ∈ l, key a = k := by
  constructor
  · rintro ⟨a, ha, rfl⟩
    exact ⟨a, mem_of_mem_dedupBy ha, rfl⟩
  · -- the element kept before a dropped one has its key
    have hkept : ∀ (l : List α) (a : α), ∀ b ∈ a :: l,
        ∃ c ∈ l.destutter' (fun a b => key a ≠ key b) a, key c = key b := by
      intro l
      induction l with
      | nil =>
        intro a b hb
        obtain rfl := List.mem_singleton.mp hb
        exact ⟨b, List.mem_singleton.mpr rfl, rfl⟩
      | cons x l ih =>
        intro a b hb
        by_cases hx : key a ≠ key x
        · rw [List.destutter'_cons, if_pos hx]
          rcases List.mem_cons.mp hb with rfl | hb
          · exact ⟨b, List.mem_cons_self, rfl⟩
          · obtain ⟨c, hc, hkey⟩ := ih x b hb
            exact ⟨c, List.mem_cons_of_mem _ hc, hkey⟩
        · rw [List.destutter'_cons, if_neg hx]
          rcases List.mem_cons.mp hb with rfl | hb
          · exact ih b b List.mem_cons_self
          · rcases List.mem_cons.mp hb with rfl | hb
            · obtain ⟨c, hc, hkey⟩ := ih a a List.mem_cons_self
              exact ⟨c, hc, hkey.trans (not_not.mp hx)⟩
            · exact ih a b (List.mem_cons_of_mem _ hb)
    rintro ⟨b, hb, rfl⟩
    cases l with
    | nil => cases hb
    | cons a l => exact hkept l a b hb

/-- No key is there twice, if the list was sorted by it. -/
theorem nodup_keys_dedupBy [LinearOrder κ] {key : α → κ} {l : List α}
    (h : l.Pairwise fun a b => key a ≤ key b) : ((dedupBy key l).map key).Nodup := by
  have hle : (dedupBy key l).Pairwise fun a b => key a ≤ key b :=
    h.sublist (List.destutter_sublist _ l)
  have hne : (dedupBy key l).IsChain fun a b => key a ≠ key b := List.isChain_destutter _ l
  have hlt : (dedupBy key l).IsChain fun a b => key a < key b := by
    rw [List.isChain_iff_forall_rel_of_append_cons_cons] at hne ⊢
    intro a b l₁ l₂ hsplit
    have hpair := hle
    rw [hsplit, List.pairwise_append] at hpair
    have hab : key a ≤ key b := List.rel_of_pairwise_cons hpair.2.1 List.mem_cons_self
    exact lt_of_le_of_ne hab (hne hsplit)
  have htrans : IsTrans α fun a b => key a < key b := ⟨fun _ _ _ => lt_trans⟩
  rw [List.Nodup, List.pairwise_map]
  exact hlt.pairwise.imp fun hab => ne_of_lt hab

end IndexerProcessors.Lib

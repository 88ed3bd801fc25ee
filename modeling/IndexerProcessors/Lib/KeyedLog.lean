import Mathlib.Data.List.Perm.Basic
import Mathlib.Tactic

/-!
# Logs of keyed entries

A log several components append to, each under its own key. What one component
sees of it is its projection `proj k`; the lemmas say how a projection reacts to
appending, and that reordering entries of distinct keys does not change it.
-/

namespace IndexerProcessors.Lib

variable {κ β : Type} [DecidableEq κ]

/-- The entries under one key, in order. -/
def proj (k : κ) (log : List (κ × β)) : List β :=
  log.filterMap fun e => if e.1 = k then some e.2 else none

@[simp] theorem proj_nil (k : κ) : proj k ([] : List (κ × β)) = [] := rfl

@[simp] theorem proj_append (k : κ) (log log' : List (κ × β)) :
    proj k (log ++ log') = proj k log ++ proj k log' :=
  List.filterMap_append

@[simp] theorem proj_singleton_self (k : κ) (b : β) : proj k [(k, b)] = [b] := by
  simp [proj]

theorem proj_singleton_ne {k k' : κ} (b : β) (h : k' ≠ k) : proj k [(k', b)] = [] := by
  simp [proj, h]

theorem mem_proj {k : κ} {b : β} {log : List (κ × β)} : b ∈ proj k log ↔ (k, b) ∈ log := by
  simp only [proj, List.mem_filterMap]
  constructor
  · intro hb
    obtain ⟨⟨k', b'⟩, hmem, h⟩ := hb
    split at h
    next heq =>
      obtain rfl := Option.some.inj h
      exact heq ▸ hmem
    next => cases h
  · intro hmem
    exact ⟨(k, b), hmem, if_pos rfl⟩

/-- The entries of a list that is keyed by `f`. -/
theorem proj_map {α : Type} (k : κ) (f : α → κ) (g : α → β) (l : List α) :
    proj k (l.map fun a => (f a, g a)) = (l.filter fun a => f a = k).map g := by
  unfold proj
  rw [List.filterMap_map, ← List.filterMap_eq_map, List.filterMap_filter]
  refine List.filterMap_congr fun a _ => ?_
  simp

theorem proj_eq_nil {k : κ} {log : List (κ × β)} (h : k ∉ log.map Prod.fst) : proj k log = [] := by
  rw [List.eq_nil_iff_forall_not_mem]
  intro b hb
  exact h (List.mem_map_of_mem (mem_proj.mp hb))

/-- With distinct keys there is at most one entry under each. -/
theorem length_proj_le {k : κ} :
    ∀ {log : List (κ × β)}, (log.map Prod.fst).Nodup → (proj k log).length ≤ 1 := by
  intro log
  induction log with
  | nil => intro _; exact Nat.zero_le 1
  | cons e log ih =>
    intro h
    rw [List.map_cons, List.nodup_cons] at h
    obtain ⟨k', b⟩ := e
    rw [← List.singleton_append, proj_append]
    by_cases hk : k' = k
    · subst hk
      rw [proj_singleton_self, proj_eq_nil h.1]
      exact le_rfl
    · rw [proj_singleton_ne b hk]
      exact ih h.2

theorem proj_eq_singleton {k : κ} {b : β} {log : List (κ × β)} (hnd : (log.map Prod.fst).Nodup)
    (h : (k, b) ∈ log) : proj k log = [b] := by
  have hlen := length_proj_le (k := k) hnd
  have hb := mem_proj.mpr h
  rcases hlog : proj k log with _ | ⟨c, _ | ⟨d, l⟩⟩
  · rw [hlog] at hb
    cases hb
  · rw [hlog] at hb
    rw [List.mem_singleton.mp hb]
  · rw [hlog] at hlen
    simp at hlen

/-- Entries of distinct keys may be reordered. -/
theorem proj_perm {log log' : List (κ × β)} (hp : log.Perm log') (hnd : (log.map Prod.fst).Nodup)
    (k : κ) : proj k log = proj k log' := by
  have hperm : (proj k log).Perm (proj k log') := hp.filterMap _
  have hlen := length_proj_le (k := k) hnd
  -- At most one entry under `k`, so a permutation has no room to reorder.
  rcases hlog : proj k log with _ | ⟨b, _ | ⟨c, l⟩⟩
  · rw [hlog] at hperm
    exact hperm.symm.eq_nil.symm
  · rw [hlog] at hperm
    exact (List.singleton_perm.mp hperm).symm ▸ rfl
  · rw [hlog] at hlen
    simp at hlen

end IndexerProcessors.Lib

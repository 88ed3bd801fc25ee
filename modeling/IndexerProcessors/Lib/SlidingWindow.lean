import Mathlib.Data.List.TakeWhile
import Mathlib.Tactic

/-!
# Sliding-window limits

A limiter that lets an event pass only while fewer than `n` events have passed
in the last `w` units of time, and remembers the times that still count.

- `inWindow w t` — a time lies in the half-open window `[t, t + w)`;
- `evict w now` — drop the remembered times that have left the window;
- `Limits` — the invariant: at most `n` passes in any window. It is kept as time
  goes by (`Limits.later`), by evicting (`Limits.evict`) and by letting an event
  pass while there is room (`Limits.push`);
- `countP_le_of_close` — if every event happens some time after it has passed,
  the limit carries over to the times they happen at, provided that events which
  happen within one window have passed within one window.
-/

namespace IndexerProcessors.Lib

/-- The time, if there is one, lies in `[t, t + w)`. -/
def inWindow (w t : ℕ) (time : Option ℕ) : Bool := time.any fun s => t ≤ s ∧ s < t + w

theorem inWindow_some {w t s : ℕ} : inWindow w t (some s) = true ↔ t ≤ s ∧ s < t + w := by
  simp [inWindow]

theorem inWindow_iff {w t : ℕ} {time : Option ℕ} :
    inWindow w t time = true ↔ ∃ s, time = some s ∧ t ≤ s ∧ s < t + w := by
  cases time <;> simp [inWindow]

/-- The remembered times that still count at `now`, oldest first. -/
def evict (w now : ℕ) (window : List ℕ) : List ℕ :=
  window.dropWhile fun t => w ≤ now - t

/-- A limiter at `now`: all the times at which it let something pass, and those
it still remembers. -/
structure Limits (w n now : ℕ) (passes window : List ℕ) : Prop where
  sorted : passes.Pairwise (· ≤ ·)
  past : ∀ s ∈ passes, s ≤ now
  /-- What it has forgotten does not count any more. -/
  forgotten : ∃ old, passes = old ++ window ∧ ∀ s ∈ old, s + w ≤ now
  room : window.length ≤ n
  limit : ∀ t, passes.countP (fun s => inWindow w t (some s)) ≤ n

namespace Limits

variable {w n now : ℕ} {passes window : List ℕ}

theorem init (w n now : ℕ) : Limits w n now [] [] :=
  ⟨.nil, by simp, ⟨[], rfl, by simp⟩, Nat.zero_le _, by simp⟩

theorem later (h : Limits w n now passes window) {now' : ℕ} (hle : now ≤ now') :
    Limits w n now' passes window := by
  obtain ⟨old, heq, hold⟩ := h.forgotten
  refine ⟨h.sorted, fun s hs => (h.past s hs).trans hle, ⟨old, heq, fun s hs => ?_⟩, h.room,
    h.limit⟩
  exact (hold s hs).trans hle

theorem evict (h : Limits w n now passes window) :
    Limits w n now passes (Lib.evict w now window) := by
  obtain ⟨old, heq, hold⟩ := h.forgotten
  have hsplit : (window.takeWhile fun t => w ≤ now - t) ++ Lib.evict w now window = window :=
    List.takeWhile_append_dropWhile
  refine ⟨h.sorted, h.past, ⟨old ++ window.takeWhile fun t => w ≤ now - t, ?_, ?_⟩, ?_, h.limit⟩
  · rw [List.append_assoc, hsplit, heq]
  · intro s hs
    rcases List.mem_append.mp hs with hs | hs
    · exact hold s hs
    · have htest := List.mem_takeWhile_imp hs
      have hgone : w ≤ now - s := of_decide_eq_true htest
      have hmem : s ∈ window := (List.takeWhile_sublist _).subset hs
      have hpast := h.past s (heq ▸ List.mem_append_right _ hmem)
      omega
  · exact (List.dropWhile_sublist _).length_le.trans h.room

/-- The oldest time left after evicting still counts. -/
theorem lt_of_head_evict {s : ℕ} {rest : List ℕ} (h : Lib.evict w now window = s :: rest) :
    now - s < w := by
  have hnot := List.head?_dropWhile_not (fun t => decide (w ≤ now - t)) window
  unfold Lib.evict at h
  rw [h] at hnot
  simpa using hnot

/-- Something may pass while there is room. -/
theorem push (h : Limits w n now passes window) (hroom : window.length < n) :
    Limits w n now (passes ++ [now]) (window ++ [now]) := by
  obtain ⟨old, heq, hold⟩ := h.forgotten
  refine ⟨?_, ?_, ⟨old, by rw [heq, List.append_assoc], hold⟩, ?_, fun t => ?_⟩
  · refine List.pairwise_append.mpr ⟨h.sorted, List.pairwise_singleton _ _, ?_⟩
    intro s hs s' hs'
    obtain rfl := List.mem_singleton.mp hs'
    exact h.past s hs
  · intro s hs
    rcases List.mem_append.mp hs with hs | hs
    · exact h.past s hs
    · exact (List.mem_singleton.mp hs).le
  · rw [List.length_append, List.length_singleton]
    exact hroom
  · rw [List.countP_append]
    by_cases hnow : t ≤ now ∧ now < t + w
    · -- A window that `now` lies in holds nothing that was forgotten.
      have hnone : old.countP (fun s => inWindow w t (some s)) = 0 := by
        refine List.countP_eq_zero.mpr fun s hs hin => ?_
        have hgone := hold s hs
        have hle := (inWindow_some.mp hin).1
        omega
      have hwindow : window.countP (fun s => inWindow w t (some s)) ≤ window.length :=
        List.countP_le_length
      have hone : [now].countP (fun s => inWindow w t (some s)) ≤ 1 := List.countP_le_length
      rw [heq, List.countP_append, hnone]
      omega
    · have hzero : [now].countP (fun s => inWindow w t (some s)) = 0 := by
        refine List.countP_eq_zero.mpr fun s hs hin => hnow ?_
        obtain rfl := List.mem_singleton.mp hs
        exact inWindow_some.mp hin
      rw [hzero, Nat.add_zero]
      exact h.limit t

end Limits

/-! ## Passing and happening -/

section Close

variable {α : Type} {w n : ℕ} {events : List α} {passedAt happenedAt : α → Option ℕ}

/-- Events that happen within `w` of each other have passed within `w` of each
other. -/
def CloseTogether (w : ℕ) (passedAt happenedAt : α → Option ℕ) (events : List α) : Prop :=
  ∀ a ∈ events, ∀ b ∈ events, ∀ s s' t t', passedAt a = some s → passedAt b = some s' →
    happenedAt a = some t → happenedAt b = some t' → t < t' + w → t' < t + w → s < s' + w

theorem countP_le_of_close
    (hlimit : ∀ t, events.countP (fun a => inWindow w t (passedAt a)) ≤ n)
    (hpassed : ∀ a ∈ events, (happenedAt a).isSome → (passedAt a).isSome)
    (hclose : CloseTogether w passedAt happenedAt events) (t : ℕ) :
    events.countP (fun a => inWindow w t (happenedAt a)) ≤ n := by
  by_cases hsome : ∃ s, ∃ a ∈ events, inWindow w t (happenedAt a) = true ∧ passedAt a = some s
  · -- Count from the event that passed first.
    obtain ⟨a, ha, hin, hs⟩ := Nat.find_spec hsome
    obtain ⟨ta, hta, hlo, hhi⟩ := inWindow_iff.mp hin
    refine le_trans (List.countP_mono_left fun b hb hinb => ?_) (hlimit (Nat.find hsome))
    obtain ⟨tb, htb, hlo', hhi'⟩ := inWindow_iff.mp hinb
    obtain ⟨sb, hsb⟩ := Option.isSome_iff_exists.mp (hpassed b hb (htb ▸ Option.isSome_some))
    rw [hsb, inWindow_some]
    refine ⟨Nat.find_min' hsome ⟨b, hb, hinb, hsb⟩, ?_⟩
    exact hclose b hb a ha _ _ _ _ hsb hs htb hta (by omega) (by omega)
  · have hnone : events.countP (fun a => inWindow w t (happenedAt a)) = 0 := by
      refine List.countP_eq_zero.mpr fun a ha hin => hsome ?_
      obtain ⟨ta, hta, _⟩ := inWindow_iff.mp hin
      obtain ⟨s, hs⟩ := Option.isSome_iff_exists.mp (hpassed a ha (hta ▸ Option.isSome_some))
      exact ⟨s, a, ha, hin, hs⟩
    rw [hnone]
    exact Nat.zero_le n

end Close

end IndexerProcessors.Lib

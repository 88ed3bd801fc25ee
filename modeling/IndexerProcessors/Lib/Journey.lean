import Mathlib.Order.Bounds.Basic
import Mathlib.Tactic

/-!
# Journeys through a log

A log of events, some of which start something at a place while others carry what
is at one place on to another. A journey takes events in the order of the log, so
it is a path that respects time: what arrives late is not carried by what came
before.

A program that keeps, for every place, a count which each event lowers to one more
than the count where it carries from, never looks back at the log.
`Relaxes.isLeast` says that it has what a search through all journeys would find:
the length of the shortest one, and nothing where there is none.
-/

namespace IndexerProcessors.Lib

/-- What the events of a log do. Whether an event carries may depend on the events
before it. -/
structure Traffic (ε ν : Type) where
  starts : ε → ν → Prop
  carries : List ε → ε → ν → ν → Prop

variable {ε ν : Type} {m : Traffic ε ν} {log : List ε} {e : ε} {n : ν} {path : List ε}

/-- The events of `path`, each in its turn, start a journey and carry it to a place. -/
inductive Journey (m : Traffic ε ν) : List ε → ν → List ε → Prop
  | start {log : List ε} {e : ε} {n : ν} : m.starts e n → Journey m (log ++ [e]) n [e]
  | carry {log : List ε} {e : ε} {a n : ν} {path : List ε} :
      Journey m log a path → m.carries log e a n → Journey m (log ++ [e]) n (path ++ [e])
  | wait {log : List ε} {e : ε} {n : ν} {path : List ε} :
      Journey m log n path → Journey m (log ++ [e]) n path

theorem not_journey_nil : ¬ Journey m [] n path := by
  generalize hlog : ([] : List ε) = log
  intro h
  cases h <;> exact List.append_ne_nil_of_right_ne_nil _ (List.cons_ne_nil _ _) hlog.symm

/-- The last event of the log ends the journey, or the journey was there before. -/
theorem journey_concat :
    Journey m (log ++ [e]) n path ↔
      Journey m log n path ∨ (m.starts e n ∧ path = [e]) ∨
        ∃ a front, Journey m log a front ∧ m.carries log e a n ∧ path = front ++ [e] := by
  constructor
  · generalize hlog : log ++ [e] = whole
    intro h
    cases h with
    | start hstart =>
      obtain ⟨rfl, rfl⟩ := List.append_singleton_inj.mp hlog
      exact Or.inr (Or.inl ⟨hstart, rfl⟩)
    | carry hfront hcarry =>
      obtain ⟨rfl, rfl⟩ := List.append_singleton_inj.mp hlog
      exact Or.inr (Or.inr ⟨_, _, hfront, hcarry, rfl⟩)
    | wait hpath =>
      obtain ⟨rfl, rfl⟩ := List.append_singleton_inj.mp hlog
      exact Or.inl hpath
  · rintro (h | ⟨hstart, rfl⟩ | ⟨a, front, hfront, hcarry, rfl⟩)
    · exact .wait h
    · exact .start hstart
    · exact .carry hfront hcarry

theorem Journey.ne_nil (h : Journey m log n path) : path ≠ [] := by
  induction h with
  | start => exact List.cons_ne_nil _ _
  | carry => exact List.append_ne_nil_of_right_ne_nil _ (List.cons_ne_nil _ _)
  | wait _ ih => exact ih

/-- A journey takes its events in the order of the log. -/
theorem Journey.sublist (h : Journey m log n path) : path.Sublist log := by
  induction h with
  | start => exact List.sublist_append_right _ _
  | carry _ _ ih => exact ih.append (List.Sublist.refl _)
  | wait _ ih => exact ih.trans (List.sublist_append_left _ _)

/-! ## Shortest journeys -/

/-- The lengths of the journeys to a place, without the event that starts them. -/
def journeyLengths (m : Traffic ε ν) (log : List ε) (n : ν) : Set ℕ :=
  {h | ∃ path, Journey m log n path ∧ path.length = h + 1}

theorem Journey.length_mem (h : Journey m log n path) :
    path.length - 1 ∈ journeyLengths m log n := by
  have hpos := List.length_pos_of_ne_nil h.ne_nil
  exact ⟨path, h, by omega⟩

/-- What an event offers a place: the count it has, none for a start, and one more
than where it is carried from. -/
def offers (m : Traffic ε ν) (hops : List ε → ν → Option ℕ) (log : List ε) (e : ε) (n : ν) : Set ℕ :=
  {h | hops log n = some h ∨ (m.starts e n ∧ h = 0) ∨
    ∃ a h', m.carries log e a n ∧ hops log a = some h' ∧ h = h' + 1}

/-- A count that every event lowers to the least of what it offers. -/
structure Relaxes (m : Traffic ε ν) (hops : List ε → ν → Option ℕ) : Prop where
  nil : ∀ n, hops [] n = none
  concat : ∀ log e n h, hops (log ++ [e]) n = some h ↔ IsLeast (offers m hops log e n) h

theorem isLeast_congr {s t : Set ℕ} (hsub : s ⊆ t) (hbelow : ∀ b ∈ t, ∃ a ∈ s, a ≤ b) {h : ℕ} :
    IsLeast s h ↔ IsLeast t h := by
  constructor
  · intro hs
    refine ⟨hsub hs.1, fun b hb => ?_⟩
    obtain ⟨a, ha, hab⟩ := hbelow b hb
    exact (hs.2 ha).trans hab
  · intro ht
    obtain ⟨a, ha, hah⟩ := hbelow h ht.1
    obtain rfl := le_antisymm hah (ht.2 (hsub ha))
    exact ⟨ha, fun b hb => ht.2 (hsub hb)⟩

/-- **A relaxed count is the length of the shortest journey**, and there is one
exactly where there is a count. -/
theorem Relaxes.isLeast {hops : List ε → ν → Option ℕ} (hrelax : Relaxes m hops) (log : List ε) :
    ∀ n h, hops log n = some h ↔ IsLeast (journeyLengths m log n) h := by
  induction log using List.reverseRecOn with
  | nil =>
    intro n h
    rw [hrelax.nil]
    refine iff_of_false (fun heq => nomatch heq) ?_
    rintro ⟨⟨path, hpath, -⟩, -⟩
    exact not_journey_nil hpath
  | append_singleton log e ih =>
    intro n h
    rw [hrelax.concat]
    -- Every offer is the length of a journey, and no journey is shorter than some offer.
    refine isLeast_congr ?_ ?_
    · rintro b (hold | ⟨hstart, rfl⟩ | ⟨a, b, hcarry, ha, rfl⟩)
      · obtain ⟨path, hpath, hlength⟩ := ((ih n b).mp hold).1
        exact ⟨path, .wait hpath, hlength⟩
      · exact ⟨[e], .start hstart, rfl⟩
      · obtain ⟨path, hpath, hlength⟩ := ((ih a b).mp ha).1
        exact ⟨path ++ [e], .carry hpath hcarry, by simp [hlength]⟩
    · -- a place that can be reached has a count, no longer than the way there
      have hcount : ∀ {a : ν} {front : List ε}, Journey m log a front →
          ∃ b, hops log a = some b ∧ b + 1 ≤ front.length := by
        intro a front hfront
        have hne : (journeyLengths m log a).Nonempty := ⟨_, hfront.length_mem⟩
        obtain ⟨b, hb⟩ : ∃ b, IsLeast (journeyLengths m log a) b :=
          ⟨sInf _, Nat.sInf_mem hne, fun c hc => Nat.sInf_le hc⟩
        have hle := hb.2 hfront.length_mem
        have hpos := List.length_pos_of_ne_nil hfront.ne_nil
        exact ⟨b, (ih a b).mpr hb, by omega⟩
      rintro b ⟨path, hpath, hlength⟩
      obtain hold | ⟨hstart, -⟩ | ⟨a, front, hfront, hcarry, rfl⟩ := journey_concat.mp hpath
      · obtain ⟨c, hc, hle⟩ := hcount hold
        exact ⟨c, Or.inl hc, by omega⟩
      · exact ⟨0, Or.inr (Or.inl ⟨hstart, rfl⟩), Nat.zero_le b⟩
      · obtain ⟨c, hc, hle⟩ := hcount hfront
        rw [List.length_append, List.length_singleton] at hlength
        exact ⟨c + 1, Or.inr (Or.inr ⟨a, c, hcarry, hc, rfl⟩), by omega⟩

/-! ## Arrivals -/

/-- The event starts a journey at the place or carries one there. -/
def Arrives (m : Traffic ε ν) (log : List ε) (e : ε) (n : ν) : Prop :=
  m.starts e n ∨ ∃ a path, Journey m log a path ∧ m.carries log e a n

/-- An event of the log that arrived at the place in its turn. -/
def Arrival (m : Traffic ε ν) (log : List ε) (n : ν) (e : ε) : Prop :=
  ∃ before after, log = before ++ e :: after ∧ Arrives m before e n

theorem not_arrival_nil : ¬ Arrival m [] n e := by
  rintro ⟨before, after, heq, -⟩
  exact List.append_ne_nil_of_right_ne_nil before (List.cons_ne_nil e after) heq.symm

theorem arrival_concat {x : ε} :
    Arrival m (log ++ [e]) n x ↔ Arrival m log n x ∨ (x = e ∧ Arrives m log e n) := by
  constructor
  · rintro ⟨before, after, heq, harrive⟩
    cases after using List.reverseRecOn with
    | nil =>
      obtain ⟨rfl, rfl⟩ := List.append_singleton_inj.mp heq
      exact Or.inr ⟨rfl, harrive⟩
    | append_singleton after last =>
      rw [← List.cons_append, ← List.append_assoc] at heq
      obtain ⟨rfl, -⟩ := List.append_singleton_inj.mp heq
      exact Or.inl ⟨before, after, rfl, harrive⟩
  · rintro (⟨before, after, rfl, harrive⟩ | ⟨rfl, harrive⟩)
    · exact ⟨before, after ++ [e], by simp, harrive⟩
    · exact ⟨log, [], rfl, harrive⟩

/-- A journey leads to a place after an event if one did before, or it arrives. -/
theorem exists_journey_concat :
    (∃ path, Journey m (log ++ [e]) n path) ↔
      (∃ path, Journey m log n path) ∨ Arrives m log e n := by
  constructor
  · rintro ⟨path, hpath⟩
    obtain hold | ⟨hstart, -⟩ | ⟨a, front, hfront, hcarry, -⟩ := journey_concat.mp hpath
    · exact Or.inl ⟨path, hold⟩
    · exact Or.inr (Or.inl hstart)
    · exact Or.inr (Or.inr ⟨a, front, hfront, hcarry⟩)
  · rintro (⟨path, hpath⟩ | hstart | ⟨a, front, hfront, hcarry⟩)
    · exact ⟨path, .wait hpath⟩
    · exact ⟨[e], .start hstart⟩
    · exact ⟨front ++ [e], .carry hfront hcarry⟩

/-! ## Events with their past -/

/-- Every event of a log with the events before it, given those before the log. -/
def turnsAfter : List ε → List ε → List (List ε × ε)
  | _, [] => []
  | before, e :: log => (before, e) :: turnsAfter (before ++ [e]) log

/-- Every event of a log with the events before it. -/
def turns (log : List ε) : List (List ε × ε) := turnsAfter [] log

end IndexerProcessors.Lib

import IndexerProcessors.Lib.Run
import Mathlib.Order.OrderIsoNat

/-!
# Endless runs

A run of a system that never stops, and the one argument by which such a run gets its
work done: where work lowers a rank that nothing raises, there is work in finitely many
steps only (`Endless.works_end`), and if a run does not put possible work off forever,
it comes to a state with none left and stays there (`Endless.eventually_idle`).
-/

namespace IndexerProcessors.Lib

variable {σ α μ : Type}

/-- A run without an end. -/
structure Endless (step : σ → α → Option σ) where
  state : ℕ → σ
  input : ℕ → α
  next : ∀ n, step (state n) (input n) = some (state (n + 1))

/-- Some input is work in this state. -/
def CanWork (step : σ → α → Option σ) (works : σ → α → Prop) (s : σ) : Prop :=
  ∃ a s', works s a ∧ step s a = some s'

/-- Work lowers a rank that no allowed input raises. -/
structure Wears [LT μ] [LE μ] (step : σ → α → Option σ) (allowed works : σ → α → Prop)
    (rank : σ → μ) : Prop where
  keeps : ∀ s a s', allowed s a → step s a = some s' → rank s' ≤ rank s
  lowers : ∀ s a s', works s a → step s a = some s' → rank s' < rank s

namespace Endless

variable {step : σ → α → Option σ} (run : Endless step)

/-- Work that is possible is not put off forever. -/
def Fair (works : σ → α → Prop) : Prop :=
  ∀ n, CanWork step works (run.state n) → ∃ m, n ≤ m ∧ works (run.state m) (run.input m)

theorem invariant {P : σ → Prop} (hinit : P (run.state 0))
    (hstep : ∀ n, P (run.state n) → P (run.state (n + 1))) : ∀ n, P (run.state n) := by
  intro n
  induction n with
  | zero => exact hinit
  | succ n ih => exact hstep n ih

variable [PartialOrder μ] [WellFoundedLT μ] {allowed works : σ → α → Prop} {rank : σ → μ}

/-- From some step on there is no work done. -/
theorem works_end (h : Wears step allowed works rank)
    (hallowed : ∀ n, allowed (run.state n) (run.input n)) :
    ∃ N, ∀ n, N ≤ n → ¬ works (run.state n) (run.input n) := by
  have hanti : Antitone fun n => rank (run.state n) :=
    antitone_nat_of_succ_le fun n => h.keeps _ _ _ (hallowed n) (run.next n)
  obtain ⟨N, hN⟩ := WellFoundedLT.antitone_chain_condition hanti
  refine ⟨N, fun n hn hworks => ?_⟩
  have hstay : rank (run.state n) = rank (run.state (n + 1)) :=
    (hN n hn).symm.trans (hN (n + 1) (hn.trans (Nat.le_succ n)))
  exact (h.lowers _ _ _ hworks (run.next n)).ne hstay.symm

/-- A fair run comes to an end of its work. -/
theorem eventually_idle (h : Wears step allowed works rank)
    (hallowed : ∀ n, allowed (run.state n) (run.input n)) (hfair : run.Fair works) :
    ∃ N, ∀ n, N ≤ n → ¬ CanWork step works (run.state n) := by
  obtain ⟨N, hN⟩ := run.works_end h hallowed
  refine ⟨N, fun n hn hcan => ?_⟩
  obtain ⟨m, hm, hworks⟩ := hfair n hcan
  exact hN m (hn.trans hm) hworks

end Endless

/-! ## Runs that come to rest -/

namespace Endless

variable {step : σ → α → Option σ}

/-- The run that stays where it is. -/
def rest {s : σ} {a : α} (h : step s a = some s) : Endless step :=
  ⟨fun _ => s, fun _ => a, fun _ => h⟩

/-- A run with a step before it. -/
def after (run : Endless step) {s : σ} {a : α} (h : step s a = some (run.state 0)) :
    Endless step where
  state
    | 0 => s
    | n + 1 => run.state n
  input
    | 0 => a
    | n + 1 => run.input n
  next
    | 0 => h
    | n + 1 => run.next n

/-- Inputs taken one after another, and then one that changes nothing, for ever. -/
theorem exists_resting {s' : σ} {idle : α} (hidle : step s' idle = some s') :
    ∀ {as : List α} {s : σ}, as.foldlM step s = some s' →
      ∃ run : Endless step, run.state 0 = s ∧ (∀ n, as.length ≤ n → run.state n = s') ∧
        ∀ n, run.input n = as[n]?.getD idle := by
  intro as
  induction as with
  | nil =>
    intro s h
    obtain rfl := Option.some.inj h
    exact ⟨rest hidle, rfl, fun _ _ => rfl, fun _ => rfl⟩
  | cons a as ih =>
    intro s h
    rw [List.foldlM_cons] at h
    obtain ⟨s₁, hs₁, h⟩ := Option.bind_eq_some_iff.mp h
    obtain ⟨run, hzero, hend, hinput⟩ := ih h
    refine ⟨run.after (hs₁.trans (congrArg some hzero.symm)), rfl, fun n hn => ?_, fun n => ?_⟩
    · cases n with
      | zero => exact absurd hn (Nat.not_succ_le_zero _)
      | succ n => exact hend n (Nat.le_of_succ_le_succ hn)
    · cases n with
      | zero => rfl
      | succ n => exact hinput n

end Endless

end IndexerProcessors.Lib

import Mathlib.Order.Antisymmetrization
import Mathlib.Tactic

/-!
# Runs

Executions of a system as folds of a step function over a list of inputs, with
the rules the rest of the development uses on them. A system with choices has
them in its inputs, so that its step function stays executable; a step that is
not possible in a state returns `none`.

- `Run`, `Run.invariant` — runs of a partial step function whose every step
  meets a side condition, and the invariant rule for them;

- `foldl_invariant` — what every step keeps, a run keeps;
- `foldl_grows` — steps that only move up a relation move a run up it;
- `foldl_fixed_iff` — a run of steps that only move up ends where it began
  exactly if each of its steps, taken alone, stays there. Nothing a step undoes
  can be made up for by another, which is what makes a statement about a whole
  run checkable step by step;
- `foldl_perm_rel`, `foldl_comm_rel` — steps that commute, up to an equivalence
  the steps respect, may be taken in any order.
-/

namespace IndexerProcessors.Lib

variable {σ α : Type}

/-- A run of `step` from `init`, taking the inputs `as` and each time meeting
`C` in the state before the step. -/
inductive Run (step : σ → α → Option σ) (C : σ → α → Prop) (init : σ) : List α → σ → Prop
  | nil : Run step C init [] init
  | snoc {as : List α} {s s' : σ} {a : α} :
      Run step C init as s → C s a → step s a = some s' → Run step C init (as ++ [a]) s'

/-- What holds at the start and is kept by every step that meets `C` holds
throughout a run. -/
theorem Run.invariant {step : σ → α → Option σ} {C : σ → α → Prop} {init s : σ} {as : List α}
    {P : σ → Prop} (h : Run step C init as s) (hinit : P init)
    (hstep : ∀ s a s', P s → C s a → step s a = some s' → P s') : P s := by
  induction h with
  | nil => exact hinit
  | snoc _ hC hs ih => exact hstep _ _ _ ih hC hs

theorem Run.mono {step : σ → α → Option σ} {C C' : σ → α → Prop} {init s : σ} {as : List α}
    (h : Run step C init as s) (hC : ∀ s a, C s a → C' s a) : Run step C' init as s := by
  induction h with
  | nil => exact .nil
  | snoc _ hs hstep ih => exact .snoc ih (hC _ _ hs) hstep

/-- The same for the inputs that are taken. -/
theorem Run.imp_of_mem {step : σ → α → Option σ} {C C' : σ → α → Prop} {init s : σ} {as : List α}
    (h : Run step C init as s) (hC : ∀ a ∈ as, ∀ s, C s a → C' s a) :
    Run step C' init as s := by
  induction h with
  | nil => exact .nil
  | snoc _ hs hstep ih =>
    have hpre := ih fun a ha => hC a (List.mem_append_left _ ha)
    exact .snoc hpre (hC _ (List.mem_append_right _ (List.mem_singleton.mpr rfl)) _ hs) hstep

/-- Inputs given through a function. -/
theorem Run.map_inputs {β : Type} {step : σ → α → Option σ} {C : σ → α → Prop} {init s : σ}
    {f : β → α} {bs : List β} (h : Run (fun s b => step s (f b)) (fun s b => C s (f b)) init bs s) :
    Run step C init (bs.map f) s := by
  induction h with
  | nil => exact .nil
  | snoc _ hC hstep ih =>
    rw [List.map_append]
    exact .snoc ih hC hstep

/-- Executing inputs one after another is a run. -/
theorem Run.append_foldlM {step : σ → α → Option σ} {init : σ} :
    ∀ {bs as : List α} {s s' : σ}, Run step (fun _ _ => True) init as s →
      bs.foldlM step s = some s' → Run step (fun _ _ => True) init (as ++ bs) s' := by
  intro bs
  induction bs with
  | nil =>
    intro as s s' h hb
    obtain rfl := Option.some.inj hb
    rwa [List.append_nil]
  | cons b bs ih =>
    intro as s s' h hb
    rw [List.foldlM_cons] at hb
    obtain ⟨s₁, hs₁, hb⟩ := Option.bind_eq_some_iff.mp hb
    have hrun := ih (h.snoc trivial hs₁) hb
    rwa [List.append_assoc] at hrun

/-- `step`, possible only where a side condition holds. -/
def checked (C : σ → α → Prop) [∀ s a, Decidable (C s a)] (step : σ → α → Option σ) (s : σ)
    (a : α) : Option σ :=
  if C s a then step s a else none

/-- Executing a checked step function gives runs that meet the condition. -/
theorem Run.of_checked {step : σ → α → Option σ} {C : σ → α → Prop} [∀ s a, Decidable (C s a)]
    {init s : σ} {as : List α} (h : as.foldlM (checked C step) init = some s) :
    Run step C init as s := by
  have hrun : Run (checked C step) (fun _ _ => True) init as s :=
    by simpa using Run.append_foldlM Run.nil h
  clear h
  induction hrun with
  | nil => exact .nil
  | snoc _ _ hstep ih =>
    unfold checked at hstep
    split at hstep
    next hC => exact .snoc ih hC hstep
    next => cases hstep

/-- A run to a state with a property, found by executing it. -/
theorem exists_run (step : σ → α → Option σ) (C : σ → α → Prop) [∀ s a, Decidable (C s a)]
    (init : σ) (as : List α) (P : σ → Prop) [DecidablePred P]
    (h : (as.foldlM (checked C step) init).any (fun s => decide (P s)) = true) :
    ∃ s, Run step C init as s ∧ P s := by
  cases hs : as.foldlM (checked C step) init with
  | none =>
    rw [hs] at h
    cases h
  | some s =>
    rw [hs] at h
    exact ⟨s, Run.of_checked hs, of_decide_eq_true h⟩

theorem foldl_invariant {f : σ → α → σ} {P : σ → Prop} :
    ∀ {as : List α} {s : σ}, (∀ s, ∀ a ∈ as, P s → P (f s a)) → P s → P (as.foldl f s) := by
  intro as
  induction as with
  | nil => intro s _ h; exact h
  | cons a as ih =>
    intro s hstep h
    refine ih (fun s b hb => hstep s b (List.mem_cons_of_mem _ hb)) ?_
    exact hstep s a (List.mem_cons_self ..) h

/-- Steps that, on the states satisfying `P`, stay among them and move up `r`. -/
structure Inflationary (f : σ → α → σ) (r : σ → σ → Prop) (P : σ → Prop) (as : List α) : Prop where
  keeps : ∀ s, ∀ a ∈ as, P s → P (f s a)
  grows : ∀ s, ∀ a ∈ as, P s → r s (f s a)

theorem Inflationary.tail {f : σ → α → σ} {r : σ → σ → Prop} {P : σ → Prop} {a : α}
    {as : List α} (h : Inflationary f r P (a :: as)) : Inflationary f r P as :=
  ⟨fun s b hb => h.keeps s b (List.mem_cons_of_mem _ hb),
   fun s b hb => h.grows s b (List.mem_cons_of_mem _ hb)⟩

section Grows

variable {f : σ → α → σ} {r : σ → σ → Prop} [IsPreorder σ r] {P : σ → Prop}

theorem foldl_grows :
    ∀ {as : List α} {s : σ}, Inflationary f r P as → P s → r s (as.foldl f s) := by
  intro as
  induction as with
  | nil => intro s _ _; exact refl s
  | cons a as ih =>
    intro s h hs
    have ha := List.mem_cons_self (a := a) (l := as)
    exact IsTrans.trans _ _ _ (h.grows s a ha hs) (ih h.tail (h.keeps s a ha hs))

/-- A run is stationary exactly if each of its steps is. -/
theorem foldl_fixed_iff
    (hcongr : ∀ s s' a, AntisymmRel r s s' → AntisymmRel r (f s a) (f s' a)) :
    ∀ {as : List α} {s : σ}, Inflationary f r P as → P s →
      (AntisymmRel r s (as.foldl f s) ↔ ∀ a ∈ as, AntisymmRel r s (f s a)) := by
  intro as
  induction as with
  | nil => intro s _ _; simp [AntisymmRel.refl]
  | cons a as ih =>
    intro s h hs
    have ha := List.mem_cons_self (a := a) (l := as)
    have hs' := h.keeps s a ha hs
    rw [List.foldl_cons]
    constructor
    · intro hfix
      have hup := foldl_grows h.tail hs'
      -- What the first step added the rest cannot have taken back.
      have hfixa : AntisymmRel r s (f s a) := ⟨h.grows s a ha hs, IsTrans.trans _ _ _ hup hfix.2⟩
      have hrest := (ih h.tail hs').mp (hfixa.symm.trans hfix)
      intro b hb
      rcases List.mem_cons.mp hb with rfl | hb
      · exact hfixa
      · exact (hfixa.trans (hrest b hb)).trans (hcongr _ _ b hfixa).symm
    · intro hall
      have hfixa := hall a ha
      refine hfixa.trans ((ih h.tail hs').mpr ?_)
      intro b hb
      exact (hfixa.symm.trans (hall b (List.mem_cons_of_mem _ hb))).trans (hcongr _ _ b hfixa)

end Grows

/-! ## Steps that commute -/

/-- An equivalence of states that the steps cannot tell apart. -/
structure Congruence (f : σ → α → σ) (E : σ → σ → Prop) : Prop where
  equiv : Equivalence E
  step : ∀ s s' a, E s s' → E (f s a) (f s' a)

/-- Two steps whose order does not matter. -/
def CommuteAt (f : σ → α → σ) (E : σ → σ → Prop) (a b : α) : Prop :=
  ∀ s, E (f (f s a) b) (f (f s b) a)

section Commute

variable {f : σ → α → σ} {E : σ → σ → Prop}

theorem Congruence.foldl (hE : Congruence f E) :
    ∀ (as : List α) {s s' : σ}, E s s' → E (as.foldl f s) (as.foldl f s') := by
  intro as
  induction as with
  | nil => intro s s' h; exact h
  | cons a as ih => intro s s' h; exact ih (hE.step s s' a h)

/-- Steps that each do nothing in a state do nothing there one after another. -/
theorem Congruence.foldl_fixed (hE : Congruence f E) :
    ∀ {as : List α} {s : σ}, (∀ a ∈ as, E s (f s a)) → E s (as.foldl f s) := by
  intro as
  induction as with
  | nil => intro s _; exact hE.equiv.refl s
  | cons a as ih =>
    intro s h
    have hrest := ih fun b hb => h b (List.mem_cons_of_mem _ hb)
    exact hE.equiv.trans hrest (hE.foldl as (h a (List.mem_cons_self ..)))

/-- A step moves through a run of steps it commutes with. -/
theorem foldl_comm_step (hE : Congruence f E) {a : α} :
    ∀ {bs : List α} (s : σ), (∀ b ∈ bs, CommuteAt f E a b) →
      E (bs.foldl f (f s a)) (f (bs.foldl f s) a) := by
  intro bs
  induction bs with
  | nil => intro s _; exact hE.equiv.refl _
  | cons b bs ih =>
    intro s h
    have hswap := hE.foldl bs (h b (List.mem_cons_self ..) s)
    exact hE.equiv.trans hswap (ih (f s b) fun c hc => h c (List.mem_cons_of_mem _ hc))

/-- Two runs whose steps commute may change places. -/
theorem foldl_comm_rel (hE : Congruence f E) {bs : List α} :
    ∀ {as : List α} (s : σ), (∀ a ∈ as, ∀ b ∈ bs, CommuteAt f E a b) →
      E (bs.foldl f (as.foldl f s)) (as.foldl f (bs.foldl f s)) := by
  intro as
  induction as with
  | nil => intro s _; exact hE.equiv.refl _
  | cons a as ih =>
    intro s h
    have htail := ih (f s a) fun c hc => h c (List.mem_cons_of_mem _ hc)
    have hhead := foldl_comm_step hE s (h a (List.mem_cons_self ..))
    exact hE.equiv.trans htail (hE.foldl as hhead)

/-- A run of commuting steps does not depend on their order. -/
theorem foldl_perm_rel (hE : Congruence f E) {as bs : List α} (hperm : as.Perm bs) :
    (∀ a ∈ as, ∀ b ∈ as, CommuteAt f E a b) → ∀ s, E (as.foldl f s) (bs.foldl f s) := by
  induction hperm with
  | nil => intro _ s; exact hE.equiv.refl _
  | cons a hp ih =>
    intro h s
    exact ih (fun b hb c hc => h b (List.mem_cons_of_mem _ hb) c (List.mem_cons_of_mem _ hc)) _
  | swap a b l =>
    intro h s
    refine hE.foldl l (h b (List.mem_cons_self ..) a ?_ s)
    exact List.mem_cons_of_mem _ (List.mem_cons_self ..)
  | trans hp₁ hp₂ ih₁ ih₂ =>
    intro h s
    refine hE.equiv.trans (ih₁ h s) (ih₂ ?_ s)
    exact fun b hb c hc => h b (hp₁.mem_iff.mpr hb) c (hp₁.mem_iff.mpr hc)

end Commute

end IndexerProcessors.Lib

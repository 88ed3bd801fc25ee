import Mathlib.Data.List.ReduceOption
import Mathlib.Tactic

/-!
# Lists of computations that may fail

A loop whose body may panic is `List.mapM` in `Option`: it succeeds if every
iteration does, and then the results are those of the iterations, in order. A
loop that carries a state is `List.foldlM`, with the invariant rules
`foldlM_prefix`, for a property of the state and the iterations already done,
and `foldlM_invariant`, for a property of the state alone. `retried` is a loop
that tries one computation until it succeeds.
-/

namespace IndexerProcessors.Lib

variable {α β : Type} {f : α → Option β}

/-- A result with a property, found by computing it. -/
theorem exists_of_any {o : Option α} {P : α → Prop} [DecidablePred P]
    (h : o.any (fun a => decide (P a)) = true) : ∃ a, o = some a ∧ P a := by
  obtain ⟨a, ha, hP⟩ := (Option.any_eq_true _ _).mp h
  exact ⟨a, ha, of_decide_eq_true hP⟩

/-- Results that are all those of a total function are a selection of its results. -/
theorem filterMap_sublist_map {g : α → β} :
    ∀ {l : List α}, (∀ a ∈ l, ∀ b ∈ f a, b = g a) → (l.filterMap f).Sublist (l.map g) := by
  intro l
  induction l with
  | nil => intro _; exact List.Sublist.slnil
  | cons a l ih =>
    intro h
    rw [List.forall_mem_cons] at h
    cases hfa : f a with
    | none =>
      rw [List.filterMap_cons_none hfa]
      exact (ih h.2).cons _
    | some b =>
      rw [List.filterMap_cons_some hfa, List.map_cons, h.1 b hfa]
      exact (ih h.2).cons_cons _

theorem mapM_eq_some_iff :
    ∀ {l : List α} {r : List β}, l.mapM f = some r ↔ l.map f = r.map some := by
  intro l
  induction l with
  | nil =>
    intro r
    rw [List.mapM_nil, List.map_nil, eq_comm (a := []), List.map_eq_nil_iff]
    exact ⟨fun h => (Option.some.inj h).symm, fun h => h ▸ rfl⟩
  | cons a l ih =>
    intro r
    rw [List.mapM_cons, List.map_cons]
    constructor
    · intro h
      obtain ⟨b, hb, h⟩ := Option.bind_eq_some_iff.mp h
      obtain ⟨r', hr', h⟩ := Option.bind_eq_some_iff.mp h
      obtain rfl := Option.some.inj h
      rw [List.map_cons, hb, ih.mp hr']
    · intro h
      cases r with
      | nil => cases h
      | cons b r =>
        rw [List.map_cons, List.cons.injEq] at h
        rw [h.1, ih.mpr h.2]
        rfl

/-- Each result is that of its iteration. -/
theorem forall₂_of_mapM {l : List α} {r : List β} (h : l.mapM f = some r) :
    List.Forall₂ (fun b a => f a = some b) r l := by
  induction l generalizing r with
  | nil =>
    obtain rfl := Option.some.inj h
    exact List.Forall₂.nil
  | cons a l ih =>
    rw [List.mapM_cons] at h
    obtain ⟨b, hb, h⟩ := Option.bind_eq_some_iff.mp h
    obtain ⟨r', hr', h⟩ := Option.bind_eq_some_iff.mp h
    obtain rfl := Option.some.inj h
    exact List.Forall₂.cons hb (ih hr')

/-- Related lists have related elements: what an element on the right is related to. -/
theorem exists_of_forall₂_right {R : α → β → Prop} {as : List α} {bs : List β}
    (h : List.Forall₂ R as bs) {b : β} (hb : b ∈ bs) : ∃ a ∈ as, R a b := by
  induction h with
  | nil => cases hb
  | cons hab _ ih =>
    rcases List.mem_cons.mp hb with rfl | htail
    · exact ⟨_, List.mem_cons_self, hab⟩
    · obtain ⟨a, ha, hrel⟩ := ih htail
      exact ⟨a, List.mem_cons_of_mem _ ha, hrel⟩

/-- Two relations between the same lists. -/
theorem forall₂_inter {R S : α → β → Prop} {as : List α} {bs : List β}
    (h : List.Forall₂ R as bs) (h' : List.Forall₂ S as bs) :
    List.Forall₂ (fun a b => R a b ∧ S a b) as bs := by
  induction h with
  | nil => exact List.Forall₂.nil
  | cons hab _ ih =>
    cases h' with
    | cons hab' htail => exact List.Forall₂.cons ⟨hab, hab'⟩ (ih htail)

/-- A relation between lists, of the elements on the right alone. -/
theorem forall₂_imp_mem {R S : α → β → Prop} {as : List α} {bs : List β}
    (h : List.Forall₂ R as bs) (himp : ∀ a, ∀ b ∈ bs, R a b → S a b) : List.Forall₂ S as bs := by
  induction h with
  | nil => exact List.Forall₂.nil
  | cons hab _ ih =>
    exact List.Forall₂.cons (himp _ _ List.mem_cons_self hab)
      (ih fun a b hb => himp a b (List.mem_cons_of_mem _ hb))

/-- A loop succeeds if every iteration does. -/
theorem isSome_mapM_iff {l : List α} : (l.mapM f).isSome ↔ ∀ a ∈ l, (f a).isSome := by
  induction l with
  | nil => simp
  | cons a l ih =>
    rw [List.mapM_cons, List.forall_mem_cons, ← ih]
    cases f a with
    | none => simp
    | some b =>
      cases l.mapM f with
      | none => simp
      | some r => simp

/-- Two steps of every iteration are two loops. -/
theorem mapM_bind {γ : Type} (f : α → Option β) (g : β → Option γ) (l : List α) :
    (l.mapM fun a => (f a).bind g) = (l.mapM f).bind fun r => r.mapM g := by
  induction l with
  | nil => rfl
  | cons a l ih =>
    rw [List.mapM_cons, List.mapM_cons, ih]
    cases f a with
    | none => rfl
    | some b =>
      cases l.mapM f with
      | none =>
        cases hb : g b with
        | none => simp [hb]
        | some c => simp [hb]
      | some r => simp

theorem mem_of_mapM {l : List α} {r : List β} (h : l.mapM f = some r) {b : β} :
    b ∈ r ↔ ∃ a ∈ l, f a = some b := by
  have hmem : some b ∈ r.map some ↔ some b ∈ l.map f := by rw [mapM_eq_some_iff.mp h]
  simpa using hmem

theorem exists_of_mapM {l : List α} {r : List β} (h : l.mapM f = some r) {a : α} (ha : a ∈ l) :
    ∃ b ∈ r, f a = some b := by
  have hmem : f a ∈ r.map some := by
    rw [← mapM_eq_some_iff.mp h]
    exact List.mem_map_of_mem ha
  obtain ⟨b, hb, heq⟩ := List.mem_map.mp hmem
  exact ⟨b, hb, heq.symm⟩

/-- The results of all iterations, one after another. -/
theorem flatten_of_mapM {f : α → Option (List β)} {l : List α} {r : List (List β)}
    (h : l.mapM f = some r) : r.flatten = l.flatMap fun a => (f a).getD [] := by
  have hmap : (l.map f).flatMap (fun o => o.getD []) = r.flatten := by
    rw [mapM_eq_some_iff.mp h, List.flatMap_map, ← List.flatMap_id]
    rfl
  rw [← hmap, List.flatMap_map]

/-- The results of all iterations that have one. -/
theorem reduceOption_of_mapM {f : α → Option (Option β)} {l : List α} {r : List (Option β)}
    (h : l.mapM f = some r) : r.reduceOption = l.filterMap fun a => (f a).join := by
  have hmap : (l.map f).filterMap Option.join = r.reduceOption := by
    rw [mapM_eq_some_iff.mp h, List.filterMap_map]
    rfl
  rw [← hmap, List.filterMap_map]
  rfl

/-- What is picked from the results, said of what the iterations were over. -/
theorem filterMap_of_mapM {γ : Type} {g : β → Option γ} {h : α → Option γ} {l : List α}
    {r : List β} (hmap : l.mapM f = some r) (hpick : ∀ a b, f a = some b → g b = h a) :
    r.filterMap g = l.filterMap h := by
  induction l generalizing r with
  | nil =>
    obtain rfl := Option.some.inj hmap
    rfl
  | cons a l ih =>
    rw [List.mapM_cons] at hmap
    obtain ⟨b, hb, hmap⟩ := Option.bind_eq_some_iff.mp hmap
    obtain ⟨r', hr', hmap⟩ := Option.bind_eq_some_iff.mp hmap
    obtain rfl := Option.some.inj hmap
    rw [List.filterMap_cons, List.filterMap_cons, hpick a b hb, ih hr']

/-- The lists the results give, said of what the iterations were over. -/
theorem flatMap_of_mapM {γ : Type} {g : β → List γ} {h : α → List γ} {l : List α} {r : List β}
    (hmap : l.mapM f = some r) (hpick : ∀ a b, f a = some b → g b = h a) :
    r.flatMap g = l.flatMap h := by
  induction l generalizing r with
  | nil =>
    obtain rfl := Option.some.inj hmap
    rfl
  | cons a l ih =>
    rw [List.mapM_cons] at hmap
    obtain ⟨b, hb, hmap⟩ := Option.bind_eq_some_iff.mp hmap
    obtain ⟨r', hr', hmap⟩ := Option.bind_eq_some_iff.mp hmap
    obtain rfl := Option.some.inj hmap
    rw [List.flatMap_cons, List.flatMap_cons, hpick a b hb, ih hr']

section Retries

/-- The first result of at most `tries` tries. -/
def retried (tries : ℕ) (attempt : ℕ → Option α) : Option α :=
  (List.range tries).findSome? attempt

variable {tries : ℕ} {attempt : ℕ → Option α}

theorem exists_of_retried {a : α} (h : retried tries attempt = some a) :
    ∃ i, attempt i = some a := by
  obtain ⟨i, -, hi⟩ := List.exists_of_findSome?_eq_some h
  exact ⟨i, hi⟩

theorem retried_of_first {a : α} (htries : 0 < tries) (h : attempt 0 = some a) :
    retried tries attempt = some a := by
  obtain ⟨n, rfl⟩ := Nat.exists_eq_succ_of_ne_zero htries.ne'
  unfold retried
  rw [List.range_succ_eq_map, List.findSome?_cons, h]

/-- A computation with one result, however often it is tried. -/
theorem retried_const (htries : 0 < tries) (result : Option α) :
    retried tries (fun _ => result) = result := by
  cases result with
  | some a => exact retried_of_first htries rfl
  | none => exact List.findSome?_eq_none_iff.mpr fun _ _ => rfl

end Retries

section Loops

variable {σ : Type} {f : σ → α → Option σ}

/-- A property of the state and the iterations done so far. -/
theorem foldlM_prefix {P : List α → σ → Prop} {l : List α} {s s' : σ}
    (h : l.foldlM f s = some s') (hinit : P [] s)
    (hstep : ∀ done a s s', (done ++ [a]) <+: l → P done s → f s a = some s' →
      P (done ++ [a]) s') : P l s' := by
  induction l using List.reverseRecOn generalizing s' with
  | nil =>
    obtain rfl := Option.some.inj h
    exact hinit
  | append_singleton l a ih =>
    rw [List.foldlM_append] at h
    obtain ⟨s₁, hs₁, h⟩ := Option.bind_eq_some_iff.mp h
    rw [List.foldlM_cons] at h
    obtain ⟨s₂, hs₂, h⟩ := Option.bind_eq_some_iff.mp h
    obtain rfl := Option.some.inj h
    refine hstep l a s₁ s₂ (List.prefix_refl _) (ih hs₁ ?_) hs₂
    intro done b t t' hdone
    exact hstep done b t t' (hdone.trans (List.prefix_append _ _))

theorem mem_of_prefix_concat {done l : List α} {a : α} (h : (done ++ [a]) <+: l) : a ∈ l :=
  h.subset (List.mem_append_right _ (List.mem_singleton.mpr rfl))

/-- A loop with one iteration. -/
theorem prefix_concat_singleton {done : List α} {a b : α} (h : (done ++ [a]) <+: [b]) :
    done = [] ∧ a = b := by
  have hlength := h.length_le
  rw [List.length_append, List.length_singleton, List.length_singleton] at hlength
  have hnil : done.length = 0 := by omega
  exact ⟨List.eq_nil_of_length_eq_zero hnil, List.mem_singleton.mp (mem_of_prefix_concat h)⟩

/-- A property of the state that every iteration keeps. -/
theorem foldlM_invariant {P : σ → Prop} {l : List α} {s s' : σ} (h : l.foldlM f s = some s')
    (hinit : P s) (hstep : ∀ a ∈ l, ∀ s s', P s → f s a = some s' → P s') : P s' := by
  refine foldlM_prefix (P := fun _ s => P s) h hinit ?_
  intro done a s₁ s₂ hdone hs₁
  exact hstep a (mem_of_prefix_concat hdone) s₁ s₂ hs₁

end Loops

end IndexerProcessors.Lib

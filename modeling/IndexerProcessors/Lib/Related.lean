import IndexerProcessors.Lib.Fallible
import IndexerProcessors.Lib.LastWriter
import Mathlib.Data.List.Forall2
import Mathlib.Data.List.ReduceOption

/-!
# Computations on related inputs

A program that is run on two inputs, of which each part is related to its counterpart, has
related results if every step has. `Option.Rel` relates the results of steps that can fail:
both fail, or neither does and the values are related; `List.Forall₂` relates lists element
by element. The lemmas say how loops, maps filled in order and collected results carry the
relations on; with equality for the relation of the results they say that the results are
the same.
-/

namespace IndexerProcessors.Lib

variable {α α' β β' : Type} {R : α → α' → Prop} {S : β → β' → Prop}

/-! ## Results that may fail -/

theorem rel_refl {R : α → α → Prop} (h : ∀ a, R a a) (o : Option α) : Option.Rel R o o := by
  cases o with
  | none => exact .none
  | some a => exact .some (h a)

theorem rel_of_eq {o o' : Option α} (h : o = o') : Option.Rel Eq o o' := by
  rw [h]
  exact rel_refl (fun _ => rfl) o'

theorem eq_of_rel {o o' : Option α} (h : Option.Rel Eq o o') : o = o' := by
  cases h with
  | none => rfl
  | some h => rw [h]

/-- Failures and values of two levels, related by equality. -/
theorem eq_of_rel_rel {o o' : Option (Option α)} (h : Option.Rel (Option.Rel Eq) o o') :
    o = o' := by
  cases h with
  | none => rfl
  | some h => rw [eq_of_rel h]

theorem rel_imp {R R' : α → α' → Prop} (himp : ∀ a a', R a a' → R' a a') {o : Option α}
    {o' : Option α'} (h : Option.Rel R o o') : Option.Rel R' o o' := by
  cases h with
  | none => exact .none
  | some h => exact .some (himp _ _ h)

theorem rel_bind {o : Option α} {o' : Option α'} {f : α → Option β} {g : α' → Option β'}
    (h : Option.Rel R o o') (hfg : ∀ a a', R a a' → Option.Rel S (f a) (g a')) :
    Option.Rel S (o.bind f) (o'.bind g) := by
  cases h with
  | none => exact .none
  | some h => exact hfg _ _ h

theorem rel_map {o : Option α} {o' : Option α'} {f : α → β} {g : α' → β'}
    (h : Option.Rel R o o') (hfg : ∀ a a', R a a' → S (f a) (g a')) :
    Option.Rel S (o.map f) (o'.map g) := by
  cases h with
  | none => exact .none
  | some h => exact .some (hfg _ _ h)

/-- What follows a related step does not see the difference. -/
theorem bind_congr_rel {o : Option α} {o' : Option α'} {f : α → Option β} {g : α' → Option β}
    (h : Option.Rel R o o') (hfg : ∀ a a', R a a' → f a = g a') : o.bind f = o'.bind g :=
  eq_of_rel (rel_bind h fun a a' haa' => rel_of_eq (hfg a a' haa'))

theorem map_congr_rel {o : Option α} {o' : Option α'} {f : α → β} {g : α' → β}
    (h : Option.Rel R o o') (hfg : ∀ a a', R a a' → f a = g a') : o.map f = o'.map g :=
  eq_of_rel (rel_map h hfg)

theorem exists_of_rel_some {o' : Option α'} {a : α} (h : Option.Rel R (some a) o') :
    ∃ a', o' = some a' ∧ R a a' := by
  cases h with
  | some h => exact ⟨_, rfl, h⟩

/-! ## Loops -/

theorem mapM_rel {f : α → Option β} {g : α' → Option β'} {as : List α} {as' : List α'}
    (h : List.Forall₂ R as as') (hfg : ∀ a a', R a a' → Option.Rel S (f a) (g a')) :
    Option.Rel (List.Forall₂ S) (as.mapM f) (as'.mapM g) := by
  induction h with
  | nil => exact .some List.Forall₂.nil
  | cons haa' _ ih =>
    rw [List.mapM_cons, List.mapM_cons]
    refine rel_bind (hfg _ _ haa') ?_
    intro b b' hbb'
    refine rel_bind ih ?_
    intro bs bs' hbs
    exact .some (List.Forall₂.cons hbb' hbs)

theorem mapM_congr_rel {f : α → Option β} {g : α' → Option β} {as : List α} {as' : List α'}
    (h : List.Forall₂ R as as') (hfg : ∀ a a', R a a' → f a = g a') :
    as.mapM f = as'.mapM g := by
  have hrel := mapM_rel (S := Eq) h fun a a' haa' => rel_of_eq (hfg a a' haa')
  refine eq_of_rel (rel_imp ?_ hrel)
  intro bs bs' hbs
  rwa [List.forall₂_eq_eq_eq] at hbs

theorem foldlM_rel {f : β → α → Option β} {g : β' → α' → Option β'} {as : List α} {as' : List α'}
    (h : List.Forall₂ R as as')
    (hfg : ∀ s s' a a', S s s' → R a a' → Option.Rel S (f s a) (g s' a')) :
    ∀ {s : β} {s' : β'}, S s s' → Option.Rel S (as.foldlM f s) (as'.foldlM g s') := by
  induction h with
  | nil =>
    intro s s' hs
    exact .some hs
  | cons haa' _ ih =>
    intro s s' hs
    rw [List.foldlM_cons, List.foldlM_cons]
    exact rel_bind (hfg _ _ _ _ hs haa') fun t t' ht => ih ht

/-- A loop of which every iteration is the same. -/
theorem mapM_congr_mem {f g : α → Option β} {as : List α} (h : ∀ a ∈ as, f a = g a) :
    as.mapM f = as.mapM g := by
  have hsame : List.Forall₂ (fun a a' => a = a' ∧ a ∈ as) as as :=
    List.forall₂_same.mpr fun a ha => ⟨rfl, ha⟩
  refine mapM_congr_rel hsame ?_
  rintro a _ ⟨rfl, ha⟩
  exact h a ha

/-- A change of every result. -/
theorem mapM_map_results (f : α → Option β) (g : β → β') (as : List α) :
    (as.mapM fun a => (f a).map g) = (as.mapM f).map (List.map g) := by
  induction as with
  | nil => rfl
  | cons a as ih =>
    rw [List.mapM_cons, List.mapM_cons, ih]
    cases f a with
    | none => rfl
    | some b =>
      cases as.mapM f with
      | none => rfl
      | some bs => rfl

/-- Two loops over the same list with the same results have the same iterations. -/
theorem eq_of_mapM_eq {f g : α → Option β} {as : List α} {bs : List β}
    (hf : as.mapM f = some bs) (hg : as.mapM g = some bs) {a : α} (ha : a ∈ as) : f a = g a := by
  obtain ⟨b, -, hfa, hga⟩ := exists_of_forall₂_right
    (forall₂_inter (forall₂_of_mapM hf) (forall₂_of_mapM hg)) ha
  rw [hfa, hga]

/-- Related elements with their places. -/
theorem forall₂_zipIdx {as : List α} {as' : List α'} (h : List.Forall₂ R as as') :
    ∀ n, List.Forall₂ (fun a a' => R a.1 a'.1 ∧ a.2 = a'.2) (as.zipIdx n) (as'.zipIdx n) := by
  induction h with
  | nil =>
    intro n
    exact List.Forall₂.nil
  | cons haa' _ ih =>
    intro n
    rw [List.zipIdx_cons, List.zipIdx_cons]
    exact List.Forall₂.cons ⟨haa', rfl⟩ (ih (n + 1))

/-- What is picked of related elements. -/
theorem forall₂_filterMap {f : α → Option β} {g : α' → Option β'} {as : List α} {as' : List α'}
    (h : List.Forall₂ R as as') (hfg : ∀ a a', R a a' → Option.Rel S (f a) (g a')) :
    List.Forall₂ S (as.filterMap f) (as'.filterMap g) := by
  induction h with
  | nil => exact List.Forall₂.nil
  | @cons a a' as as' haa' _ ih =>
    rw [List.filterMap_cons, List.filterMap_cons]
    have hpicked := hfg a a' haa'
    generalize f a = o at hpicked
    generalize g a' = o' at hpicked
    cases hpicked with
    | none => exact ih
    | some h => exact List.Forall₂.cons h ih

theorem forall₂_reduceOption {os : List (Option α)} {os' : List (Option α')}
    (h : List.Forall₂ (Option.Rel R) os os') :
    List.Forall₂ R os.reduceOption os'.reduceOption :=
  forall₂_filterMap h fun _ _ h => h

theorem forall₂_toList {o : Option α} {o' : Option α'} (h : Option.Rel R o o') :
    List.Forall₂ R o.toList o'.toList := by
  cases h with
  | none => exact List.Forall₂.nil
  | some h => exact List.Forall₂.cons h List.Forall₂.nil

/-- Related lists of which the same elements are kept. -/
theorem forall₂_filter {p : α → Bool} {q : α' → Bool} {as : List α} {as' : List α'}
    (h : List.Forall₂ (fun a a' => R a a' ∧ p a = q a') as as') :
    List.Forall₂ R (as.filter p) (as'.filter q) := by
  induction h with
  | nil => exact List.Forall₂.nil
  | @cons a a' as as' haa' _ ih =>
    rw [List.filter_cons, List.filter_cons, ← haa'.2]
    cases p a with
    | false => exact ih
    | true => exact List.Forall₂.cons haa'.1 ih

theorem rel_getLast? {as : List α} {as' : List α'} (h : List.Forall₂ R as as') :
    Option.Rel R as.getLast? as'.getLast? := by
  have hreverse := List.forall₂_reverse_iff.mpr h
  rw [← List.head?_reverse, ← List.head?_reverse]
  generalize as.reverse = bs at hreverse
  generalize as'.reverse = bs' at hreverse
  cases hreverse with
  | nil => exact .none
  | cons haa' _ => exact .some haa'

/-- Fewer results are a shorter list of results. -/
theorem length_reduceOption_lt {os os' : List (Option α)}
    (h : List.Forall₂ (fun o o' => o = o' ∨ o = none) os os') (hne : os ≠ os') :
    os.reduceOption.length < os'.reduceOption.length := by
  have hle : ∀ {ps ps' : List (Option α)}, List.Forall₂ (fun o o' => o = o' ∨ o = none) ps ps' →
      ps.reduceOption.length ≤ ps'.reduceOption.length := by
    intro ps ps' hps
    induction hps with
    | nil => exact le_rfl
    | @cons p p' ps ps' hp _ ih =>
      cases p with
      | none =>
        rw [List.reduceOption_cons_of_none]
        exact ih.trans
          (List.Sublist.length_le (List.Sublist.filterMap _ (List.sublist_cons_self _ _)))
      | some a =>
        obtain rfl : some a = p' := hp.resolve_right (Option.some_ne_none a)
        rw [List.reduceOption_cons_of_some, List.reduceOption_cons_of_some]
        exact Nat.succ_le_succ ih
  induction h with
  | nil => exact absurd rfl hne
  | @cons o o' os os' ho hos ih =>
    cases o with
    | none =>
      cases o' with
      | none =>
        rw [List.reduceOption_cons_of_none, List.reduceOption_cons_of_none]
        exact ih fun heq => hne (by rw [heq])
      | some a =>
        rw [List.reduceOption_cons_of_none, List.reduceOption_cons_of_some]
        exact Nat.lt_succ_of_le (hle hos)
    | some a =>
      obtain rfl : some a = o' := ho.resolve_right (Option.some_ne_none a)
      rw [List.reduceOption_cons_of_some, List.reduceOption_cons_of_some]
      exact Nat.succ_lt_succ (ih fun heq => hne (by rw [heq]))

/-! ## Failing alike -/

/-- Either both fail or neither does. -/
def BothRun (o : Option α) (o' : Option α') : Prop := Option.Rel (fun _ _ => True) o o'

namespace BothRun

theorem refl (o : Option α) : BothRun o o := rel_refl (fun _ => trivial) o

theorem of_rel {o : Option α} {o' : Option α'} (h : Option.Rel R o o') : BothRun o o' :=
  rel_imp (fun _ _ _ => trivial) h

theorem trans {α'' : Type} {o : Option α} {o' : Option α'} {o'' : Option α''} (h : BothRun o o')
    (h' : BothRun o' o'') : BothRun o o'' := by
  cases h with
  | none =>
    cases h' with
    | none => exact .none
  | some _ =>
    cases h' with
    | some _ => exact .some trivial

theorem bind {o : Option α} {o' : Option α'} {f : α → Option β} {g : α' → Option β'}
    (h : BothRun o o') (hfg : ∀ a a', BothRun (f a) (g a')) :
    BothRun (o.bind f) (o'.bind g) :=
  rel_bind h fun a a' _ => hfg a a'

/-- After a common step. -/
theorem bind_same (o : Option α) {f : α → Option β} {g : α → Option β'}
    (hfg : ∀ a, BothRun (f a) (g a)) : BothRun (o.bind f) (o.bind g) := by
  cases o with
  | none => exact .none
  | some a => exact hfg a

theorem mapM_of_rel {f : α → Option β} {g : α' → Option β'} {as : List α} {as' : List α'}
    (h : List.Forall₂ R as as') (hfg : ∀ a a', R a a' → BothRun (f a) (g a')) :
    BothRun (as.mapM f) (as'.mapM g) :=
  of_rel (R := List.Forall₂ fun _ _ => True) (mapM_rel h hfg)

/-- The same list. -/
theorem mapM {f : α → Option β} {g : α → Option β'} {as : List α}
    (hfg : ∀ a, BothRun (f a) (g a)) : BothRun (as.mapM f) (as.mapM g) := by
  have hsame : List.Forall₂ (fun a a' => a = a') as as := List.forall₂_same.mpr fun _ _ => rfl
  refine mapM_of_rel hsame ?_
  rintro a _ rfl
  exact hfg a

end BothRun

/-! ## Maps filled in order -/

section Tables

variable {κ : Type} [DecidableEq κ]

/-- The values that two tables have at a key are related. -/
def TablesRel (R : α → α' → Prop) (t : Table κ α) (t' : Table κ α') : Prop :=
  ∀ k, Option.Rel R (t.lookup k) (t'.lookup k)

theorem TablesRel.lookup_none {t : Table κ α} {t' : Table κ α'} (h : TablesRel R t t') {k : κ}
    (hk : t.lookup k = none) : t'.lookup k = none := by
  have hrel := h k
  rw [hk] at hrel
  cases hk' : t'.lookup k with
  | none => rfl
  | some a' =>
    rw [hk'] at hrel
    cases hrel

theorem TablesRel.lookup_some {t : Table κ α} {t' : Table κ α'} (h : TablesRel R t t') {k : κ}
    {a : α} (hk : t.lookup k = some a) : ∃ a', t'.lookup k = some a' ∧ R a a' := by
  have hrel := h k
  rw [hk] at hrel
  exact exists_of_rel_some hrel

theorem tablesRel_insert {t : Table κ α} {t' : Table κ α'} (h : TablesRel R t t') (k : κ) {a : α}
    {a' : α'} (haa' : R a a') : TablesRel R (t.insert k a) (t'.insert k a') := by
  intro k'
  by_cases hk : k' = k
  · rw [hk, AList.lookup_insert, AList.lookup_insert]
    exact .some haa'
  · rw [AList.lookup_insert_ne hk, AList.lookup_insert_ne hk]
    exact h k'

/-- A row that is related to what the other table has in its place. -/
theorem tablesRel_insert_left {t : Table κ α} {t' : Table κ α'} (h : TablesRel R t t') {k : κ}
    {a : α} {a' : α'} (hk : t'.lookup k = some a') (haa' : R a a') :
    TablesRel R (t.insert k a) t' := by
  intro k'
  by_cases hk' : k' = k
  · rw [hk', AList.lookup_insert, hk]
    exact .some haa'
  · rw [AList.lookup_insert_ne hk']
    exact h k'

theorem tablesRel_insertAll {rows : List (κ × α)} {rows' : List (κ × α')}
    (h : List.Forall₂ (fun row row' => row.1 = row'.1 ∧ R row.2 row'.2) rows rows') :
    TablesRel R (Table.insertAll ∅ rows) (Table.insertAll ∅ rows') := by
  have hinto : ∀ {t : Table κ α} {t' : Table κ α'}, TablesRel R t t' →
      TablesRel R (t.insertAll rows) (t'.insertAll rows') := by
    induction h with
    | nil =>
      intro t t' ht
      exact ht
    | @cons row row' rows rows' hrow _ ih =>
      intro t t' ht
      have hnext : TablesRel R (t.insert row.1 row.2) (t'.insert row'.1 row'.2) := by
        rw [← hrow.1]
        exact tablesRel_insert ht row.1 hrow.2
      exact ih hnext
  refine hinto ?_
  intro k
  rw [AList.lookup_empty, AList.lookup_empty]
  exact .none

end Tables

end IndexerProcessors.Lib

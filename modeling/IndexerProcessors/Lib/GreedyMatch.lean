import Mathlib.Data.List.Perm.Basic
import Mathlib.Tactic

/-!
# Greedy matching

Two lists are matched by giving each element of the first, in order, the first
element of the second that is still there and suits it. What comes out is a
matching — no element is used twice — and a maximal one: nothing left on the one
side suits anything left on the other (`greedyMatch_maximal`). It need not be the
largest one.

Which partner an element gets depends on what those before it took. Two things about
it can be said without running the matching: elements of one class that only suit each
other are matched as if they were alone (`filter_greedyMatch`), and as long as the
`i`-th of the one side suits the `i`-th of the other they get each other
(`greedyMatch_take_drop`).
-/

namespace IndexerProcessors.Lib

variable {α β : Type}

/-- Each `a`, in order, takes the first of the remaining `b`s that suits it. -/
def greedyMatch (suits : α → β → Bool) : List α → List β → List (α × β)
  | [], _ => []
  | a :: as, bs =>
    match bs.find? (suits a) with
    | some b => (a, b) :: greedyMatch suits as (bs.eraseP (suits a))
    | none => greedyMatch suits as bs

/-- What is found is what is erased. -/
theorem perm_cons_eraseP {p : β → Bool} {b : β} :
    ∀ {bs : List β}, bs.find? p = some b → (b :: bs.eraseP p).Perm bs := by
  intro bs
  induction bs with
  | nil => intro h; cases h
  | cons b' bs ih =>
    intro h
    by_cases hp : p b' = true
    · rw [List.find?_cons_of_pos hp] at h
      obtain rfl := Option.some.inj h
      rw [List.eraseP_cons_of_pos hp]
    · rw [List.find?_cons_of_neg hp] at h
      rw [List.eraseP_cons_of_neg hp]
      exact (List.Perm.swap b' b _).trans ((ih h).cons b')

/-- The elements of the first list are used in order, each at most once. -/
theorem greedyMatch_fst_sublist (suits : α → β → Bool) :
    ∀ (as : List α) (bs : List β), ((greedyMatch suits as bs).map Prod.fst).Sublist as := by
  intro as
  induction as with
  | nil => intro bs; exact List.Sublist.slnil
  | cons a as ih =>
    intro bs
    unfold greedyMatch
    split
    next b _ => exact (ih _).cons_cons a
    next => exact (ih _).cons a

/-- Every element of the second list is used at most once, and what is left over
suits nothing that was left out. -/
theorem greedyMatch_maximal (suits : α → β → Bool) :
    ∀ (as : List α) (bs : List β), ∃ left,
      ((greedyMatch suits as bs).map Prod.snd ++ left).Perm bs ∧
        ∀ a ∈ as, a ∉ (greedyMatch suits as bs).map Prod.fst → ∀ b ∈ left, suits a b = false := by
  intro as
  induction as with
  | nil => intro bs; exact ⟨bs, List.Perm.refl bs, fun a ha => nomatch ha⟩
  | cons a as ih =>
    intro bs
    cases hfind : bs.find? (suits a) with
    | some b =>
      obtain ⟨left, hperm, hmax⟩ := ih (bs.eraseP (suits a))
      simp only [greedyMatch, hfind, List.map_cons, List.cons_append]
      refine ⟨left, (hperm.cons b).trans (perm_cons_eraseP hfind), ?_⟩
      intro a' ha' hnot
      rw [List.mem_cons, not_or] at hnot
      rcases List.mem_cons.mp ha' with rfl | ha'
      · exact absurd rfl hnot.1
      · exact hmax a' ha' hnot.2
    | none =>
      obtain ⟨left, hperm, hmax⟩ := ih bs
      simp only [greedyMatch, hfind]
      refine ⟨left, hperm, ?_⟩
      intro a' ha' hnot b hb
      rcases List.mem_cons.mp ha' with rfl | ha'
      · -- what is left was there when `a'` found nothing
        have hmem : b ∈ bs := hperm.mem_iff.mp (List.mem_append_right _ hb)
        exact Bool.eq_false_iff.mpr (List.find?_eq_none.mp hfind b hmem)
      · exact hmax a' ha' hnot b hb

/-! ## Classes and ranks -/

section Classes

variable {κ : Type} [DecidableEq κ] {suits : α → β → Bool} {classA : α → κ} {classB : β → κ}

theorem greedyMatch_nil_right (suits : α → β → Bool) :
    ∀ as : List α, greedyMatch suits as [] = [] := by
  intro as
  induction as with
  | nil => rfl
  | cons a as ih => simp only [greedyMatch, List.find?_nil, ih]

/-- What one class takes is nothing to another. -/
theorem filter_eraseP_of_ne {p q : β → Bool} (h : ∀ b, p b = true → ¬ q b = true) :
    ∀ bs : List β, (bs.eraseP p).filter q = bs.filter q := by
  intro bs
  induction bs with
  | nil => rfl
  | cons b bs ih =>
    by_cases hp : p b = true
    · rw [List.eraseP_cons_of_pos hp, List.filter_cons_of_neg (h b hp)]
    · rw [List.eraseP_cons_of_neg hp, List.filter_cons, List.filter_cons, ih]

/-- What a class takes is what it would take if it were alone. -/
theorem find?_filter_of_imp {p q : β → Bool} (h : ∀ b, p b = true → q b = true) (bs : List β) :
    (bs.filter q).find? p = bs.find? p ∧ (bs.filter q).eraseP p = (bs.eraseP p).filter q := by
  have hand : (fun b => p b && q b) = p := by
    funext b
    cases hp : p b with
    | true => rw [h b hp, Bool.and_self]
    | false => rw [Bool.false_and]
  constructor
  · rw [List.find?_filter]
    congr 1
    funext b
    rw [Bool.decide_and, Bool.decide_eq_true, Bool.decide_eq_true, Bool.and_comm]
    exact congrFun hand b
  · rw [List.eraseP_filter, hand]

/-- Where elements of one class only suit each other, the pairs of a class are those of
its own elements. -/
theorem filter_greedyMatch (hclass : ∀ a b, suits a b = true → classB b = classA a) (k : κ) :
    ∀ (as : List α) (bs : List β),
      (greedyMatch suits as bs).filter (fun p => classA p.1 = k) =
        greedyMatch suits (as.filter fun a => classA a = k) (bs.filter fun b => classB b = k) := by
  intro as
  induction as with
  | nil => intro bs; rfl
  | cons a as ih =>
    intro bs
    by_cases hk : classA a = k
    · have himp : ∀ b, suits a b = true → decide (classB b = k) = true :=
        fun b h => decide_eq_true ((hclass a b h).trans hk)
      obtain ⟨hfind, herase⟩ := find?_filter_of_imp himp bs
      rw [List.filter_cons_of_pos (by simpa using hk)]
      unfold greedyMatch
      rw [hfind, herase]
      cases bs.find? (suits a) with
      | none => exact ih bs
      | some b =>
        simp only
        rw [List.filter_cons_of_pos (by simpa using hk), ih]
    · have hne : ∀ b, suits a b = true → ¬ decide (classB b = k) = true := by
        intro b h hb
        exact hk ((hclass a b h).symm.trans (of_decide_eq_true hb))
      rw [List.filter_cons_of_neg (by simpa using hk)]
      conv_lhs => unfold greedyMatch
      cases bs.find? (suits a) with
      | none => exact ih bs
      | some b =>
        simp only
        rw [List.filter_cons_of_neg (by simpa using hk), ih, filter_eraseP_of_ne hne]

/-- As long as the first on the one side suits the first on the other, they are paired. -/
theorem greedyMatch_take_drop (n : ℕ) :
    ∀ {as : List α} {bs : List β},
      (∀ p ∈ (as.take n).zip (bs.take n), suits p.1 p.2 = true) →
        greedyMatch suits as bs =
          (as.take n).zip (bs.take n) ++ greedyMatch suits (as.drop n) (bs.drop n) := by
  induction n with
  | zero => intro as bs _; rfl
  | succ n ih =>
    intro as bs h
    cases as with
    | nil => rfl
    | cons a as =>
      cases bs with
      | nil =>
        rw [List.take_nil, List.drop_nil, List.zip_nil_right, greedyMatch_nil_right,
          greedyMatch_nil_right]
        rfl
      | cons b bs =>
        rw [List.take_succ_cons, List.take_succ_cons, List.zip_cons_cons, List.forall_mem_cons] at h
        rw [List.take_succ_cons, List.take_succ_cons, List.zip_cons_cons, List.drop_succ_cons,
          List.drop_succ_cons, List.cons_append, ← ih h.2]
        simp only [greedyMatch, List.find?_cons_of_pos h.1, List.eraseP_cons_of_pos h.1]

end Classes

/-- Only what suits is paired. -/
theorem of_mem_greedyMatch {suits : α → β → Bool} {p : α × β} :
    ∀ {as : List α} {bs : List β}, p ∈ greedyMatch suits as bs →
      p.1 ∈ as ∧ p.2 ∈ bs ∧ suits p.1 p.2 = true := by
  intro as
  induction as with
  | nil => intro bs h; cases h
  | cons a as ih =>
    intro bs h
    unfold greedyMatch at h
    split at h
    next b hfind =>
      obtain rfl | hrest := List.mem_cons.mp h
      · exact ⟨List.mem_cons_self, List.mem_of_find?_eq_some hfind, List.find?_some hfind⟩
      · obtain ⟨ha, hb, hsuits⟩ := ih hrest
        exact ⟨List.mem_cons_of_mem _ ha, List.mem_of_mem_eraseP hb, hsuits⟩
    next =>
      obtain ⟨ha, hb, hsuits⟩ := ih h
      exact ⟨List.mem_cons_of_mem _ ha, hb, hsuits⟩

/-- The two first are paired, if they suit. -/
theorem head_mem_greedyMatch {suits : α → β → Bool} {a : α} {b : β} (h : suits a b = true)
    (as : List α) (bs : List β) : (a, b) ∈ greedyMatch suits (a :: as) (b :: bs) := by
  simp only [greedyMatch, List.find?_cons_of_pos h]
  exact List.mem_cons_self

end IndexerProcessors.Lib

import Mathlib.Algebra.Order.Round
import Mathlib.Data.Rat.Floor
import Mathlib.Tactic

/-!
# Numeric columns: ordered 64-bit integers and decimal rounding

A few facts a model of a SQL database keeps needing and that Mathlib does not
carry at these types:

- `Int64` (a `BIGINT` column) and `UInt64` are linear orders, so `LEAST` and
  `GREATEST` are `min` and `max` and the lattice lemmas apply to them; a `u64`
  below `2^63` goes into such a column without changing its place in the order;
- `ROUND(x, n)` on exact decimals rounds half away from zero (`roundTo`), which
  is not Mathlib's `round` (half up) on negative ties. Its users need that it
  moves a value by at most half a unit in the last kept place
  (`abs_roundTo_sub_le`) and keeps its sign (`roundTo_nonneg`).
-/

namespace IndexerProcessors.Lib

/-- `BIGINT` values are linearly ordered by their signed value. -/
instance int64LinearOrder : LinearOrder Int64 where
  le_refl := Int64.le_refl
  le_trans := fun _ _ _ => Int64.le_trans
  le_antisymm := fun _ _ => Int64.le_antisymm
  le_total := Int64.le_total
  lt_iff_le_not_ge := fun a b => by
    rw [Int64.not_le]
    constructor
    · intro h
      exact ⟨Int64.le_of_lt h, h⟩
    · exact fun h => h.2
  min_def := fun _ _ => rfl
  max_def := fun _ _ => rfl
  toDecidableLE := inferInstance
  toDecidableEq := inferInstance
  toDecidableLT := inferInstance

/-- `u64` values are linearly ordered. -/
instance uint64LinearOrder : LinearOrder UInt64 where
  le_refl := UInt64.le_refl
  le_trans := fun _ _ _ => UInt64.le_trans
  le_antisymm := fun _ _ => UInt64.le_antisymm
  le_total := UInt64.le_total
  lt_iff_le_not_ge := fun a b => by
    rw [UInt64.not_le]
    constructor
    · intro h
      exact ⟨UInt64.le_of_lt h, h⟩
    · exact fun h => h.2
  min_def := fun _ _ => rfl
  max_def := fun _ _ => rfl
  toDecidableLE := inferInstance
  toDecidableEq := inferInstance
  toDecidableLT := inferInstance

/-- Below `2^63` a cast to `BIGINT` keeps the order. -/
theorem toInt64_le_toInt64_iff {a b : UInt64} (ha : a.toNat < 2 ^ 63) (hb : b.toNat < 2 ^ 63) :
    a.toInt64 ≤ b.toInt64 ↔ a.toNat ≤ b.toNat := by
  have hcast : ∀ x : UInt64, x.toNat < 2 ^ 63 → x.toInt64.toInt = x.toNat := by
    intro x hx
    rw [← Int64.toInt_toBitVec, UInt64.toBitVec_toInt64, BitVec.toInt_eq_toNat_of_lt]
    · rfl
    · simpa using (by omega : 2 * x.toNat < 2 ^ 64)
  rw [Int64.le_iff_toInt_le, hcast a ha, hcast b hb]
  omega

/-- Positions below `2^63` stay apart as `BIGINT`s. -/
theorem ofNat_int64_injOn {i j : ℕ} (hi : i < 2 ^ 63) (hj : j < 2 ^ 63)
    (h : Int64.ofNat i = Int64.ofNat j) : i = j := by
  have hmod : i % 2 ^ 64 = j % 2 ^ 64 := by
    have huint : UInt64.ofNat i = UInt64.ofNat j := congrArg Int64.toUInt64 h
    simpa using congrArg UInt64.toNat huint
  omega

/-- Below `2^63` the next version is the next number. -/
theorem toNat_add_one {a : UInt64} (ha : a.toNat < 2 ^ 63) : (a + 1).toNat = a.toNat + 1 := by
  rw [UInt64.toNat_add]
  simp
  omega

/-- The version after another one, as machine integers. -/
theorem add_one_eq_of_toNat {a b : UInt64} (h : b.toNat = a.toNat + 1) : a + 1 = b := by
  have hlt := b.toNat_lt
  rw [h] at hlt
  rw [← UInt64.toNat_inj, UInt64.toNat_add, h]
  simpa using Nat.mod_eq_of_lt hlt

/-- Round to the nearest integer, ties away from zero. -/
def roundHalfAway (x : ℚ) : ℤ :=
  if 0 ≤ x then round x else -round (-x)

/-- `ROUND(x, n)`: keep `n` decimals, ties away from zero. -/
def roundTo (n : ℕ) (x : ℚ) : ℚ :=
  roundHalfAway (x * 10 ^ n) / 10 ^ n

theorem abs_roundHalfAway_sub_le (x : ℚ) : |(roundHalfAway x : ℚ) - x| ≤ 1 / 2 := by
  unfold roundHalfAway
  split
  next =>
    rw [abs_sub_comm]
    exact abs_sub_round x
  next =>
    have h := abs_sub_round (-x)
    rw [show ((-round (-x) : ℤ) : ℚ) - x = -x - round (-x) from by push_cast; ring]
    exact h

/-- Rounding to `n` decimals moves a value by at most half a unit in the last
kept place. -/
theorem abs_roundTo_sub_le (n : ℕ) (x : ℚ) :
    |roundTo n x - x| ≤ 1 / 2 / 10 ^ n := by
  have hp : (0 : ℚ) < 10 ^ n := by positivity
  have h := abs_roundHalfAway_sub_le (x * 10 ^ n)
  have hx : roundTo n x - x = (roundHalfAway (x * 10 ^ n) - x * 10 ^ n) / 10 ^ n := by
    unfold roundTo
    field_simp
  rw [hx, abs_div, abs_of_pos hp]
  gcongr

theorem roundTo_nonneg {x : ℚ} (n : ℕ) (h : 0 ≤ x) : 0 ≤ roundTo n x := by
  have hp : (0 : ℚ) ≤ x * 10 ^ n := by positivity
  have hround : 0 ≤ round (x * 10 ^ n) := by
    rw [round_eq]
    exact Int.floor_nonneg.mpr (by linarith)
  unfold roundTo roundHalfAway
  rw [if_pos hp]
  have hcast : (0 : ℚ) ≤ (round (x * 10 ^ n) : ℚ) := by exact_mod_cast hround
  positivity

/-- Termwise errors of at most `ε` add up to at most `ε` a term. -/
theorem abs_sum_map_sub_le {α : Type} {f g : α → ℚ} {ε : ℚ} :
    ∀ (l : List α), (∀ a ∈ l, |f a - g a| ≤ ε) →
      |(l.map f).sum - (l.map g).sum| ≤ l.length * ε := by
  intro l
  induction l with
  | nil => intro _; simp
  | cons a l ih =>
    intro h
    have hhead : |f a - g a| ≤ ε := h a (List.mem_cons_self ..)
    have htail := ih fun b hb => h b (List.mem_cons_of_mem _ hb)
    simp only [List.map_cons, List.sum_cons, List.length_cons]
    calc |f a + (l.map f).sum - (g a + (l.map g).sum)|
        = |(f a - g a) + ((l.map f).sum - (l.map g).sum)| := by ring_nf
      _ ≤ |f a - g a| + |(l.map f).sum - (l.map g).sum| := abs_add_le _ _
      _ ≤ ε + l.length * ε := by linarith
      _ = ((l.length + 1 : ℕ) : ℚ) * ε := by push_cast; ring

end IndexerProcessors.Lib

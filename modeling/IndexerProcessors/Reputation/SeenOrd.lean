import IndexerProcessors.Reputation.Rollup
import Mathlib.Data.Prod.Lex
import Mathlib.Order.Monotone.Basic

/-!
# The order of `seen_ord`

`first_seen_ord` and `last_seen_ord` are a minimum and a maximum of packed pairs: the
version in the upper 40 bits of a signed 64-bit word, the event index in the lower 24. What
is shifted past the upper end is dropped, and a bit shifted into the sign makes the value
negative.

`seenOrd_capacity` — for versions below `2 ^ 39` the packed values are not negative and are
ordered as the pairs are; every version from there on shares its values with another one.
`seedMerge_seenOrd` — so within the capacity the two columns are the first and the last pair.
-/

namespace IndexerProcessors.Reputation

open IndexerProcessors.Lib

/-- A version and an event index, in the order of the ledger. -/
abbrev LedgerPosition := Int64 ×ₗ Int64

def LedgerPosition.seenOrd (position : LedgerPosition) : Int64 :=
  Reputation.seenOrd (ofLex position).1 (ofLex position).2

/-- The positions that fit: versions below `2 ^ 39`, event indices below `2 ^ 24`. -/
def seenOrdCapacity : Set LedgerPosition :=
  {position | 0 ≤ (ofLex position).1 ∧ (ofLex position).1.toInt < 2 ^ 39 ∧
    0 ≤ (ofLex position).2 ∧ (ofLex position).2.toInt < 2 ^ 24}

/-! ## The packed word -/

/-- The word, of any two arguments: 40 bits of the version and 24 of the index. -/
theorem toNat_seenOrd (version eventIndex : Int64) :
    (seenOrd version eventIndex).toBitVec.toNat =
      2 ^ 24 * (version.toBitVec.toNat % 2 ^ 40) + eventIndex.toBitVec.toNat % 2 ^ 24 := by
  have hshift : version.toBitVec.toNat <<< 24 % 2 ^ 64 =
      2 ^ 24 * (version.toBitVec.toNat % 2 ^ 40) := by
    rw [Nat.shiftLeft_eq, Nat.mul_comm]
    exact Nat.mul_mod_mul_left (2 ^ 24) version.toBitVec.toNat (2 ^ 40)
  have hmask : eventIndex.toBitVec.toNat &&& 0x00FFFFFF = eventIndex.toBitVec.toNat % 2 ^ 24 :=
    Nat.and_two_pow_sub_one_eq_mod _ 24
  have hlow : eventIndex.toBitVec.toNat % 2 ^ 24 < 2 ^ 24 := Nat.mod_lt _ (by decide)
  rw [Nat.two_pow_add_eq_or_of_lt hlow, ← hshift, ← hmask]
  show (version.toBitVec <<< 24 ||| eventIndex.toBitVec &&& 0x00FFFFFF#64).toNat = _
  rw [BitVec.toNat_or, BitVec.toNat_and, BitVec.toNat_shiftLeft]
  rfl

theorem toInt_eq_toNat {x : Int64} (h : 0 ≤ x) : x.toInt = x.toBitVec.toNat := by
  have hnonneg : 0 ≤ x.toInt := Int64.le_iff_toInt_le.mp h
  have hcond := BitVec.toInt_eq_toNat_cond x.toBitVec
  rw [Int64.toInt_toBitVec] at hcond
  have hlt := x.toBitVec.isLt
  split at hcond
  · exact hcond
  · omega

/-- Within the capacity nothing is dropped. -/
theorem toInt_seenOrd {position : LedgerPosition} (h : position ∈ seenOrdCapacity) :
    position.seenOrd.toInt =
      2 ^ 24 * (ofLex position).1.toInt + (ofLex position).2.toInt := by
  obtain ⟨hversion, hversionlt, hindex, hindexlt⟩ := h
  have hword := toNat_seenOrd (ofLex position).1 (ofLex position).2
  have hcond := BitVec.toInt_eq_toNat_cond position.seenOrd.toBitVec
  rw [Int64.toInt_toBitVec] at hcond
  rw [toInt_eq_toNat hversion] at hversionlt ⊢
  rw [toInt_eq_toNat hindex] at hindexlt ⊢
  rw [LedgerPosition.seenOrd] at hcond ⊢
  split at hcond
  · omega
  · omega

/-! ## Within the capacity -/

theorem seenOrd_nonneg {position : LedgerPosition} (h : position ∈ seenOrdCapacity) :
    0 ≤ position.seenOrd := by
  rw [Int64.le_iff_toInt_le, toInt_seenOrd h]
  obtain ⟨hversion, -, hindex, -⟩ := h
  have hversion' : 0 ≤ (ofLex position).1.toInt := Int64.le_iff_toInt_le.mp hversion
  have hindex' : 0 ≤ (ofLex position).2.toInt := Int64.le_iff_toInt_le.mp hindex
  show (0 : ℤ) ≤ _
  omega

theorem strictMonoOn_seenOrd : StrictMonoOn LedgerPosition.seenOrd seenOrdCapacity := by
  intro p hp q hq hlt
  rw [Int64.lt_iff_toInt_lt, toInt_seenOrd hp, toInt_seenOrd hq]
  obtain ⟨-, -, -, hindex⟩ := hp
  obtain ⟨-, -, hindex', -⟩ := hq
  have hnonneg : 0 ≤ (ofLex q).2.toInt := Int64.le_iff_toInt_le.mp hindex'
  rcases Prod.Lex.lt_iff.mp hlt with hversion | ⟨heq, hindices⟩
  · have hversion' := Int64.lt_iff_toInt_lt.mp hversion
    omega
  · have hindices' := Int64.lt_iff_toInt_lt.mp hindices
    rw [heq]
    omega

/-! ## Beyond it -/

/-- The version whose upper bits are dropped to the same word. -/
def aliasOf (version : Int64) : Int64 :=
  if version.toInt < 2 ^ 63 - 2 ^ 40 then version + 2 ^ 40 else version - 2 ^ 40

theorem toInt_aliasOf {version : Int64} (h : 2 ^ 39 ≤ version.toInt) :
    (aliasOf version).toInt =
      if version.toInt < 2 ^ 63 - 2 ^ 40 then version.toInt + 2 ^ 40
      else version.toInt - 2 ^ 40 := by
  have hlt := version.toInt_lt
  unfold aliasOf
  split
  · rw [Int64.toInt_add, show (2 ^ 40 : Int64).toInt = 2 ^ 40 by decide, Int.bmod_eq_of_le]
    · omega
    · omega
  · rw [Int64.toInt_sub, show (2 ^ 40 : Int64).toInt = 2 ^ 40 by decide, Int.bmod_eq_of_le]
    · omega
    · omega

/-- From `2 ^ 39` on no version has its values for itself. -/
theorem seenOrd_aliasOf {version : Int64} (h : 2 ^ 39 ≤ version.toInt) (eventIndex : Int64) :
    seenOrd (aliasOf version) eventIndex = seenOrd version eventIndex := by
  have halias := toInt_aliasOf h
  have hpos : 0 ≤ version := Int64.le_iff_toInt_le.mpr (by show (0 : ℤ) ≤ _; omega)
  have hlt := version.toInt_lt
  have hpos' : 0 ≤ aliasOf version := by
    refine Int64.le_iff_toInt_le.mpr ?_
    rw [halias]
    show (0 : ℤ) ≤ _
    split
    · omega
    · omega
  rw [← Int64.toBitVec_inj, ← BitVec.toNat_inj, toNat_seenOrd, toNat_seenOrd]
  rw [toInt_eq_toNat hpos, toInt_eq_toNat hpos'] at halias
  congr 2
  split at halias
  · omega
  · omega

/-- **How far `seen_ord` keeps the order of the ledger.** On versions below `2 ^ 39` and
event indices below `2 ^ 24` it is not negative, determines the pair and is strictly
monotone; a version from `2 ^ 39` on shares its values with another such version. -/
theorem seenOrd_capacity :
    (∀ position ∈ seenOrdCapacity, 0 ≤ position.seenOrd) ∧
    Set.InjOn LedgerPosition.seenOrd seenOrdCapacity ∧
    StrictMonoOn LedgerPosition.seenOrd seenOrdCapacity ∧
    ∀ version eventIndex : Int64, 2 ^ 39 ≤ version.toInt →
      ∃ version' : Int64, version' ≠ version ∧ 2 ^ 39 ≤ version'.toInt ∧
        seenOrd version' eventIndex = seenOrd version eventIndex := by
  refine ⟨fun _ => seenOrd_nonneg, strictMonoOn_seenOrd.injOn, strictMonoOn_seenOrd, ?_⟩
  intro version eventIndex h
  have halias := toInt_aliasOf h
  refine ⟨aliasOf version, ?_, ?_, seenOrd_aliasOf h eventIndex⟩
  · intro heq
    rw [heq] at halias
    split at halias
    · omega
    · omega
  · rw [halias]
    split
    · omega
    · omega

/-- Within the capacity the seed statement keeps the first and the last position. -/
theorem seedMerge_seenOrd {first last position : LedgerPosition} {old : AddressEvmSource}
    {amount : ℚ} (hfirst : first ∈ seenOrdCapacity) (hlast : last ∈ seenOrdCapacity)
    (hposition : position ∈ seenOrdCapacity) (holdfirst : old.firstSeenOrd = first.seenOrd)
    (holdlast : old.lastSeenOrd = last.seenOrd) :
    (seedMerge old (seedRow amount position.seenOrd)).firstSeenOrd = (min first position).seenOrd ∧
    (seedMerge old (seedRow amount position.seenOrd)).lastSeenOrd =
      (max last position).seenOrd := by
  constructor
  · show min old.firstSeenOrd position.seenOrd = _
    rw [holdfirst, strictMonoOn_seenOrd.monotoneOn.map_min hfirst hposition]
  · show max old.lastSeenOrd position.seenOrd = _
    rw [holdlast, strictMonoOn_seenOrd.monotoneOn.map_max hlast hposition]

end IndexerProcessors.Reputation

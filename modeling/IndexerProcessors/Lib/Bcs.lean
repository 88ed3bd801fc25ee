import Mathlib.Data.List.Basic
import Mathlib.Logic.Equiv.Defs
import Mathlib.Tactic

/-!
# Binary canonical serialization

A binary format in which a value is written without its type: numbers that count
or that say which variant follows are ULEB128 of at most 32 bits, a sequence is its
length and then its elements, a structure its fields one after the other. What a
type looks like is a `Codec`: a writer, a reader that leaves what it does not need,
and the fact that the reader undoes the writer whatever comes after. The law is a
field, so that a format put together of the codecs below has it.

Not every value can be written (a length may be too great); `Fits` says which can.
`fromBytes` reads a whole input: nothing may be left.
-/

namespace IndexerProcessors.Lib.Bcs

/-- Reads a value off the front of the input, or fails. -/
abbrev Reader (α : Type) := List UInt8 → Option (α × List UInt8)

structure Codec (α : Type) where
  /-- The values the format has. -/
  Fits : α → Prop
  write : α → List UInt8
  read : Reader α
  read_write : ∀ {a : α}, Fits a → ∀ rest, read (write a ++ rest) = some (a, rest)

namespace Codec

variable {α β : Type}

/-- The value of a whole input. -/
def fromBytes (c : Codec α) (bytes : List UInt8) : Option α :=
  match c.read bytes with
  | some (a, []) => some a
  | _ => none

theorem fromBytes_write (c : Codec α) {a : α} (h : c.Fits a) :
    c.fromBytes (c.write a) = some a := by
  unfold fromBytes
  have hread := c.read_write h []
  rw [List.append_nil] at hread
  rw [hread]

theorem fromBytes_eq_none (c : Codec α) {bytes : List UInt8} (h : c.read bytes = none) :
    c.fromBytes bytes = none := by
  unfold fromBytes
  rw [h]

/-! ## Bytes and numbers -/

/-- A byte as it is. -/
def byte : Codec UInt8 where
  Fits _ := True
  write b := [b]
  read
    | [] => none
    | b :: rest => some (b, rest)
  read_write _ _ := rfl

/-- The groups of seven bits of a number, the lowest first; all but the last have
the high bit set. -/
def writeGroups : ℕ → ℕ → List UInt8
  | 0, _ => []
  | groups + 1, n =>
    if n < 128 then [n.toUInt8] else (n % 128 + 128).toUInt8 :: writeGroups groups (n / 128)

/-- Reads groups up to one without the high bit, which may not be zero unless it is
the first. -/
def readGroups : ℕ → (first : Bool) → Reader ℕ
  | 0, _, _ => none
  | _ + 1, _, [] => none
  | groups + 1, first, b :: rest =>
    if b.toNat < 128 then
      if !first && b.toNat = 0 then none else some (b.toNat, rest)
    else (readGroups groups false rest).map fun p => (b.toNat - 128 + 128 * p.1, p.2)

theorem readGroups_writeGroups (groups : ℕ) {n : ℕ} {first : Bool} (hn : n < 128 ^ (groups + 1))
    (hfirst : first = true ∨ n ≠ 0) (rest : List UInt8) :
    readGroups (groups + 1) first (writeGroups (groups + 1) n ++ rest) = some (n, rest) := by
  have hdone {n : ℕ} (hlast : n < 128) {first : Bool} (hfirst : first = true ∨ n ≠ 0)
      (groups : ℕ) : readGroups (groups + 1) first (n.toUInt8 :: rest) = some (n, rest) := by
    have hbyte : n.toUInt8.toNat = n := by
      rw [Nat.toUInt8_eq, UInt8.toNat_ofNat']
      omega
    unfold readGroups
    rw [hbyte, if_pos hlast, if_neg]
    simp only [Bool.and_eq_true, Bool.not_eq_true', decide_eq_true_eq, not_and]
    intro hlater
    exact hfirst.resolve_left (by rw [hlater]; decide)
  induction groups generalizing n first with
  | zero =>
    have hlast : n < 128 := by omega
    unfold writeGroups
    rw [if_pos hlast]
    exact hdone hlast hfirst 0
  | succ groups ih =>
    unfold writeGroups
    by_cases hlast : n < 128
    · rw [if_pos hlast]
      exact hdone hlast hfirst _
    · have hbyte : (n % 128 + 128).toUInt8.toNat = n % 128 + 128 := by
        rw [Nat.toUInt8_eq, UInt8.toNat_ofNat']
        omega
      have hhigh : n / 128 < 128 ^ (groups + 1) := by
        rw [pow_succ] at hn
        exact Nat.div_lt_of_lt_mul (by rw [mul_comm]; exact hn)
      rw [if_neg hlast, List.cons_append]
      unfold readGroups
      rw [hbyte, if_neg (by omega), ih hhigh (Or.inr (by omega)), Option.map_some]
      congr 2
      omega

/-- A number of at most 32 bits. -/
def uleb128 : Codec ℕ where
  Fits n := n < 2 ^ 32
  write n := writeGroups 5 n
  read bytes := (readGroups 5 true bytes).filter fun p => p.1 < 2 ^ 32
  read_write := by
    intro n hn rest
    rw [readGroups_writeGroups 4 (by omega) (Or.inl rfl), Option.filter_some, decide_eq_true hn]
    rfl

example : uleb128.write 300 = [0xac, 2] := by decide

example : uleb128.read [0xac, 0x80, 0] = none := by decide

/-- A byte below 128 is its own number. -/
theorem read_uleb128_cons {b : UInt8} (hb : b.toNat < 128) (rest : List UInt8) :
    uleb128.read (b :: rest) = some (b.toNat, rest) := by
  have hread : readGroups 5 true (b :: rest) = some (b.toNat, rest) := by
    unfold readGroups
    rw [if_pos hb]
    rfl
  show (readGroups 5 true (b :: rest)).filter _ = _
  rw [hread, Option.filter_some, decide_eq_true (by omega)]
  rfl

theorem write_uleb128 {n : ℕ} (hn : n < 128) : uleb128.write n = [n.toUInt8] := by
  show writeGroups 5 n = _
  unfold writeGroups
  rw [if_pos hn]

/-! ## Structures -/

/-- So many bytes, without a length. -/
def fixed (length : ℕ) : Codec (List UInt8) where
  Fits bytes := bytes.length = length
  write bytes := bytes
  read bytes := if length ≤ bytes.length then some (bytes.take length, bytes.drop length) else none
  read_write := by
    rintro bytes rfl rest
    rw [if_pos (by rw [List.length_append]; omega), List.take_left, List.drop_left]

/-- One value after the other. -/
def pair (c : Codec α) (d : Codec β) : Codec (α × β) where
  Fits p := c.Fits p.1 ∧ d.Fits p.2
  write p := c.write p.1 ++ d.write p.2
  read bytes := do
    let (a, bytes) ← c.read bytes
    let (b, rest) ← d.read bytes
    return ((a, b), rest)
  read_write := by
    rintro ⟨a, b⟩ ⟨ha, hb⟩ rest
    rw [List.append_assoc, c.read_write ha]
    simp only [Option.bind_eq_bind, Option.bind_some, d.read_write hb, Option.pure_def]

/-- A structure, by the tuple of its fields. -/
def record (c : Codec α) (e : α ≃ β) : Codec β where
  Fits b := c.Fits (e.symm b)
  write b := c.write (e.symm b)
  read bytes := (c.read bytes).map fun p => (e p.1, p.2)
  read_write := by
    intro b hb rest
    rw [c.read_write hb, Option.map_some, e.apply_symm_apply]

/-! ## Sequences -/

/-- `MAX_SEQUENCE_LENGTH`. -/
def maxSequenceLength : ℕ := 2 ^ 31 - 1

/-- So many values. -/
def readMany (c : Codec α) : ℕ → Reader (List α)
  | 0, bytes => some ([], bytes)
  | n + 1, bytes => do
    let (a, bytes) ← c.read bytes
    let (as, rest) ← readMany c n bytes
    return (a :: as, rest)

theorem readMany_succ (c : Codec α) {a : α} {input rest : List UInt8}
    (ha : c.read input = some (a, rest)) (n : ℕ) :
    c.readMany (n + 1) input = (c.readMany n rest).map fun p => (a :: p.1, p.2) := by
  show (c.read input).bind _ = _
  rw [ha, Option.bind_some, Option.map_eq_bind]
  rfl

/-- Values that were written are read, and what follows them by the rest of the
count. -/
theorem readMany_append (c : Codec α) {as : List α} (has : ∀ a ∈ as, c.Fits a) (n : ℕ)
    (rest : List UInt8) :
    c.readMany (as.length + n) (as.flatMap c.write ++ rest) =
      (c.readMany n rest).map fun p => (as ++ p.1, p.2) := by
  induction as with
  | nil =>
    rw [List.length_nil, Nat.zero_add]
    simp
  | cons a as ih =>
    have hcount : (a :: as).length + n = (as.length + n) + 1 := by
      rw [List.length_cons]
      omega
    rw [hcount, List.flatMap_cons, List.append_assoc,
      c.readMany_succ (c.read_write (has a List.mem_cons_self) _),
      ih fun a ha => has a (List.mem_cons_of_mem _ ha), Option.map_map]
    rfl

/-- A sequence: its length and its values. -/
def seq (c : Codec α) : Codec (List α) where
  Fits as := as.length ≤ maxSequenceLength ∧ ∀ a ∈ as, c.Fits a
  write as := uleb128.write as.length ++ as.flatMap c.write
  read bytes := do
    let (length, bytes) ← uleb128.read bytes
    if length ≤ maxSequenceLength then c.readMany length bytes else none
  read_write := by
    rintro as ⟨hlength, has⟩ rest
    have hfits : uleb128.Fits as.length := lt_of_le_of_lt hlength (by decide)
    rw [List.append_assoc, uleb128.read_write hfits]
    simp only [Option.bind_eq_bind, Option.bind_some, if_pos hlength]
    have hread := c.readMany_append has 0 rest
    rw [Nat.add_zero] at hread
    rw [hread]
    simp [readMany]

/-- A sequence with a value that cannot be read is not read. -/
theorem read_seq_eq_none (c : Codec α) {as : List α} (has : ∀ a ∈ as, c.Fits a) {n : ℕ}
    {header rest : List UInt8} (hheader : ∀ rest, uleb128.read (header ++ rest) =
      some (as.length + (n + 1), rest)) (hrest : c.read rest = none) :
    (seq c).read (header ++ (as.flatMap c.write ++ rest)) = none := by
  have hmany : c.readMany (as.length + (n + 1)) (as.flatMap c.write ++ rest) = none := by
    rw [c.readMany_append has]
    unfold readMany
    rw [hrest]
    rfl
  show (uleb128.read (header ++ _)).bind _ = none
  rw [hheader, Option.bind_some]
  by_cases hlength : as.length + (n + 1) ≤ maxSequenceLength
  · exact (if_pos hlength).trans hmany
  · exact if_neg hlength

/-- `Vec<u8>`. -/
def bytes : Codec (List UInt8) := seq byte

theorem flatMap_byte (bytes : List UInt8) : bytes.flatMap byte.write = bytes := by
  show bytes.flatMap List.singleton = bytes
  exact List.flatMap_singleton' bytes

theorem write_bytes (content : List UInt8) :
    bytes.write content = uleb128.write content.length ++ content := by
  show uleb128.write content.length ++ content.flatMap byte.write = _
  rw [flatMap_byte]

theorem fits_bytes {content : List UInt8} : bytes.Fits content ↔
    content.length ≤ maxSequenceLength :=
  and_iff_left fun _ _ => trivial

/-- A text: its UTF-8 bytes. -/
def string : Codec String where
  Fits s := bytes.Fits s.toByteArray.data.toList
  write s := bytes.write s.toByteArray.data.toList
  read input := do
    let (content, rest) ← bytes.read input
    let s ← String.fromUTF8? ⟨content.toArray⟩
    return (s, rest)
  read_write := by
    intro s hs rest
    have hread : String.fromUTF8? ⟨s.toByteArray.data.toList.toArray⟩ = some s := by
      rw [Array.toArray_toList]
      exact dif_pos s.isValidUTF8
    rw [bytes.read_write hs]
    simp only [Option.bind_eq_bind, Option.bind_some, hread, Option.pure_def]

/-! ## Variants -/

/-- The values of one variant: what it holds, under its constructor. -/
def variant (c : Codec β) (make : β → α) (content : α → Option β) : Codec α where
  Fits a := ∃ b, content a = some b ∧ make b = a ∧ c.Fits b
  write a := (content a).elim [] c.write
  read bytes := (c.read bytes).map fun p => (make p.1, p.2)
  read_write := by
    rintro a ⟨b, hcontent, hmake, hb⟩ rest
    rw [hcontent, Option.elim_some, c.read_write hb, Option.map_some, hmake]

/-- A type of several variants: the number of the variant, then the variant. -/
def enum (variants : List (Codec α)) (tag : α → ℕ) : Codec α where
  Fits a := tag a < 2 ^ 32 ∧ ∃ c, variants[tag a]? = some c ∧ c.Fits a
  write a := uleb128.write (tag a) ++ (variants[tag a]?).elim [] fun c => c.write a
  read bytes := do
    let (number, bytes) ← uleb128.read bytes
    let c ← variants[number]?
    c.read bytes
  read_write := by
    rintro a ⟨htag, c, hc, ha⟩ rest
    rw [hc, Option.elim_some, List.append_assoc, uleb128.read_write htag]
    simp only [Option.bind_eq_bind, Option.bind_some, hc, c.read_write ha]

/-- A variant the type does not have is not read. -/
theorem read_enum_eq_none {variants : List (Codec α)} {tag : α → ℕ} {b : UInt8}
    (hb : b.toNat < 128) (hnone : variants[b.toNat]? = none) (rest : List UInt8) :
    (enum variants tag).read (b :: rest) = none := by
  show (uleb128.read (b :: rest)).bind _ = none
  rw [read_uleb128_cons hb, Option.bind_some]
  simp only [hnone, Option.bind_eq_bind, Option.bind_none]

end Codec

end IndexerProcessors.Lib.Bcs

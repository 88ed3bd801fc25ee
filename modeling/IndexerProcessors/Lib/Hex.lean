import Mathlib.Data.String.Basic
import Mathlib.Tactic

/-!
# Hexadecimal texts

Bytes as texts of two digits each. Digits are written in lower case and read in
either, so reading undoes writing and not the other way round.
-/

namespace IndexerProcessors.Lib

/-- One digit as `hex::encode` prints it. -/
def hexDigit (n : ℕ) : Char :=
  if n < 10 then Char.ofNat ('0'.toNat + n) else Char.ofNat ('a'.toNat + (n - 10))

/-- One digit as `hex::decode` reads it, in either letter case. -/
def hexValue (c : Char) : Option ℕ :=
  if '0' ≤ c ∧ c ≤ '9' then some (c.toNat - '0'.toNat)
  else if 'a' ≤ c ∧ c ≤ 'f' then some (c.toNat - 'a'.toNat + 10)
  else if 'A' ≤ c ∧ c ≤ 'F' then some (c.toNat - 'A'.toNat + 10)
  else none

/-- `hex::encode`. -/
def hexEncode (bytes : List UInt8) : String :=
  String.ofList (bytes.flatMap fun b => [hexDigit (b.toNat / 16), hexDigit (b.toNat % 16)])

/-- `hex::decode` over the characters of the text: an even number of digits. -/
def hexDecode : List Char → Option (List UInt8)
  | [] => some []
  | [_] => none
  | high :: low :: rest => do
    let h ← hexValue high
    let l ← hexValue low
    let bytes ← hexDecode rest
    return UInt8.ofNat (16 * h + l) :: bytes

example : hexEncode [0, 171, 255] = "00abff" := by decide

example : hexDecode "00aBff".toList = some [0, 171, 255] := by decide

/-- `format!("0x{}", hex::encode(bytes))`. -/
def hex0x (bytes : List UInt8) : String := "0x" ++ hexEncode bytes

theorem hexValue_hexDigit {n : ℕ} (h : n < 16) : hexValue (hexDigit n) = some n := by
  have hall : ∀ i : Fin 16, hexValue (hexDigit i) = some i.val := by decide
  exact hall ⟨n, h⟩

theorem isAlphanum_hexDigit {n : ℕ} (h : n < 16) : (hexDigit n).isAlphanum = true := by
  have hall : ∀ i : Fin 16, (hexDigit i).isAlphanum = true := by decide
  exact hall ⟨n, h⟩

theorem hexEncode_append (bytes rest : List UInt8) :
    hexEncode (bytes ++ rest) = hexEncode bytes ++ hexEncode rest := by
  unfold hexEncode
  rw [List.flatMap_append, String.ofList_append]

theorem toList_hexEncode_cons (b : UInt8) (bytes : List UInt8) :
    (hexEncode (b :: bytes)).toList =
      hexDigit (b.toNat / 16) :: hexDigit (b.toNat % 16) :: (hexEncode bytes).toList := by
  rw [hexEncode, hexEncode, String.toList_ofList, String.toList_ofList]
  rfl

theorem toList_hex0x (bytes : List UInt8) :
    (hex0x bytes).toList = '0' :: 'x' :: (hexEncode bytes).toList := by
  rw [hex0x, String.toList_append]
  rfl

/-- Every character of the text is a digit or a letter. -/
theorem isAlphanum_hexEncode (bytes : List UInt8) :
    (hexEncode bytes).toList.all Char.isAlphanum = true := by
  induction bytes with
  | nil => rfl
  | cons b bytes ih =>
    have hb := b.toNat_lt
    rw [toList_hexEncode_cons, List.all_cons, List.all_cons, ih, isAlphanum_hexDigit (by omega),
      isAlphanum_hexDigit (by omega)]
    rfl

/-- Bytes are read back from their text. -/
theorem hexDecode_hexEncode (bytes : List UInt8) :
    hexDecode (hexEncode bytes).toList = some bytes := by
  induction bytes with
  | nil => rfl
  | cons b bytes ih =>
    have hb := b.toNat_lt
    rw [toList_hexEncode_cons, hexDecode, hexValue_hexDigit (by omega),
      hexValue_hexDigit (by omega), ih]
    show some (UInt8.ofNat (16 * (b.toNat / 16) + b.toNat % 16) :: bytes) = _
    rw [Nat.div_add_mod, UInt8.ofNat_toNat]

/-- Two characters make a byte. -/
theorem length_hexDecode {chars : List Char} {bytes : List UInt8}
    (h : hexDecode chars = some bytes) : 2 * bytes.length = chars.length := by
  induction chars using hexDecode.induct generalizing bytes with
  | case1 =>
    obtain rfl := Option.some.inj h
    rfl
  | case2 c => cases h
  | case3 high low rest ih =>
    rw [hexDecode] at h
    obtain ⟨_, -, h⟩ := Option.bind_eq_some_iff.mp h
    obtain ⟨_, -, h⟩ := Option.bind_eq_some_iff.mp h
    obtain ⟨tail, htail, h⟩ := Option.bind_eq_some_iff.mp h
    obtain rfl := Option.some.inj h
    have hrest := ih htail
    rw [List.length_cons, List.length_cons, List.length_cons]
    omega

theorem hex0x_injective {a b : List UInt8} (h : hex0x a = hex0x b) : a = b := by
  have hchars := congrArg String.toList h
  rw [toList_hex0x, toList_hex0x] at hchars
  have hbytes := congrArg hexDecode (List.cons.inj (List.cons.inj hchars).2).2
  rw [hexDecode_hexEncode, hexDecode_hexEncode] at hbytes
  exact Option.some.inj hbytes

end IndexerProcessors.Lib

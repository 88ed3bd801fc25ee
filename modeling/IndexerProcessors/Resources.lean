import IndexerProcessors.Protos

/-!
# Resources

`db/resources.rs`: a change to a resource is read as one of the Move structs the
processors know by its fully qualified type, and then its JSON text has to have
the struct's fields. A change of another type is no such resource; a change of
the right type whose text does not parse is an error, which the callers unwrap.
-/

namespace IndexerProcessors

open IndexerProcessors.Protos

/-- `TokenStandard`, here with the text of the columns. -/
inductive TokenStandard where
  | v1
  | v2
  deriving DecidableEq, Repr

/-- `COIN_ADDR`. -/
def coinAddr : String := "0x0000000000000000000000000000000000000000000000000000000000000001"

/-- `TOKEN_V2_ADDR`. -/
def tokenV2Addr : String := "0x0000000000000000000000000000000000000000000000000000000000000004"

/-- `FromWriteResource::from_write_resource`, unwrapped: `none` is a panic,
`some none` another type. -/
def fromWriteResource {α : Type} (sdk : Sdk) (typeStr : String) (tryFrom : Json → Option α)
    (wr : WriteResource) : Option (Option α) :=
  if getOuterTypeFromWriteResource sdk wr = typeStr then
    ((sdk.fromStr wr.data).bind tryFrom).map some
  else some none

/-- `MoveResource::get_outer_type_from_delete_resource`. -/
def getOuterTypeFromDeleteResource (sdk : Sdk) (dr : DeleteResource) : String :=
  sdk.standardizeAddress (sdk.standardizeAddress dr.typ.address) ++ "::" ++ dr.typ.module ++
    "::" ++ dr.typ.name

/-- `u64::from_str`: decimal digits, after a plus sign if there is one. -/
def u64FromStr (text : String) : Option UInt64 :=
  let digits : List Char :=
    match text.toList with
    | '+' :: digits => digits
    | digits => digits
  let n : ℕ := digits.foldl (fun n c => 10 * n + (c.toNat - '0'.toNat)) 0
  if digits ≠ [] ∧ digits.all Char.isDigit ∧ n < 2 ^ 64 then some n.toUInt64 else none

example : ["0", "+17", "18446744073709551615", "18446744073709551616", "", "-1"].map u64FromStr =
    [some 0, some 17, some 18446744073709551615, none, none, none] := by decide

namespace Json

/-- `ResourceReference::get_reference_address` of a member. -/
def getReferenceAddress (sdk : Sdk) (v : Json) (key : String) : Option String :=
  ((v.get key).bind (getStr · "inner")).map sdk.standardizeAddress

end Json

/-- The object core of `ObjectWithMetadata::from_write_resource`. -/
def objectCoreFromWriteResource (sdk : Sdk) (wr : WriteResource) : Option (Option ObjectCore) :=
  fromWriteResource sdk typeObjectCore (ObjectCore.ofJson sdk) wr

end IndexerProcessors

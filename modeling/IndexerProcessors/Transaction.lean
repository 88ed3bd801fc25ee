import Mathlib.Data.Rat.Defs
import Mathlib.Tactic

/-!
# Transactions as the extractors read them

The stream hands the processors protobuf transactions whose event and resource
payloads are JSON texts. This file has the parts of them that the modelled
extractors read, the JSON values those texts parse to, and — as a parameter,
`Sdk` — the functions the extractors call that live outside the repository:
`serde_json::from_str`, `BigDecimal::from_str` and two helpers of the SDK.

Nothing below assumes anything about these functions. A theorem about an
extractor holds for every `Sdk`, the real one among them.
-/

namespace IndexerProcessors

/-- A `serde_json::Value`. A number is kept as the text `to_string` prints. -/
inductive Json where
  | null
  | bool (b : Bool)
  | number (text : String)
  | string (s : String)
  | array (items : List Json)
  | object (fields : List (String × Json))

namespace Json

/-- `Value::get` with a string index: only objects have string-keyed members. -/
def get (key : String) : Json → Option Json
  | object fields => fields.lookup key
  | _ => none

/-- `Value::as_str`. -/
def asStr : Json → Option String
  | string s => some s
  | _ => none

/-- `Value::as_bool`. -/
def asBool : Json → Option Bool
  | bool b => some b
  | _ => none

/-- `Value::as_array`. -/
def asArray : Json → Option (List Json)
  | array items => some items
  | _ => none

end Json

/-- A protobuf timestamp. -/
structure Timestamp where
  seconds : Int64
  nanos : Int32
  deriving DecidableEq, Repr

/-- A `chrono::NaiveDateTime`, as microseconds since the epoch. -/
abbrev NaiveDateTime := Int

/-- What the extractors call outside the repository. -/
structure Sdk where
  /-- `standardize_address`. -/
  standardizeAddress : String → String
  /-- `serde_json::from_str::<Value>`. -/
  fromStr : String → Option Json
  /-- `BigDecimal::from_str`. -/
  bigDecimal : String → Option ℚ
  /-- `parse_timestamp(ts, version).naive_utc()`. -/
  parseTimestamp : Timestamp → Int64 → NaiveDateTime

namespace Json

/-- A member that is a text. -/
def getStr (v : Json) (key : String) : Option String := (v.get key).bind asStr

/-- A member that is a flag. -/
def getBool (v : Json) (key : String) : Option Bool := (v.get key).bind asBool

/-- A member that is a decimal in a text, as `deserialize_from_string` reads it. -/
def getBigDecimal (sdk : Sdk) (v : Json) (key : String) : Option ℚ :=
  (v.getStr key).bind sdk.bigDecimal

end Json

/-- `serde_json::from_str::<String>`: the text has to be a JSON string. -/
def Sdk.fromStrString (sdk : Sdk) (text : String) : Option String :=
  (sdk.fromStr text).bind Json.asStr

/-- A Move struct tag; its type parameters are not read by the modelled code. -/
structure MoveStructTag where
  address : String
  module : String
  name : String
  deriving DecidableEq, Repr

/-- A `WriteResource` change. The source unwraps the protobuf's optional tag,
which the stream always sets; it is not optional here. -/
structure WriteResource where
  address : String
  typ : MoveStructTag
  typeStr : String
  data : String
  deriving DecidableEq, Repr

/-- A write-set change. Kinds the modelled code ignores are `other`. -/
inductive Change where
  | writeResource (wr : WriteResource)
  | other

structure Event where
  typeStr : String
  data : String
  deriving DecidableEq, Repr

/-- A user transaction's payload; kinds without an argument list the modelled
code reads are `other`. -/
inductive Payload where
  | entryFunctionPayload (arguments : List String)
  | scriptPayload (arguments : List String)
  | other

/-- The payload of the transaction data. -/
inductive TxnData where
  | user (events : List Event) (payload : Option Payload)
  | other

/-- A transaction; `info` is the write set of the optional `TransactionInfo`. -/
structure Transaction where
  version : UInt64
  timestamp : Option Timestamp
  info : Option (List Change)
  txnData : Option TxnData

/-- `MoveResource::get_outer_type_from_write_resource`. The tag's address is
standardized when the tag is converted and again by `get_address`. -/
def getOuterTypeFromWriteResource (sdk : Sdk) (wr : WriteResource) : String :=
  sdk.standardizeAddress (sdk.standardizeAddress wr.typ.address) ++ "::" ++ wr.typ.module ++
    "::" ++ wr.typ.name

/-- `TYPE_OBJECT_CORE`. -/
def typeObjectCore : String :=
  "0x0000000000000000000000000000000000000000000000000000000000000001::object::ObjectCore"

/-- `0x1::object::ObjectCore`. -/
structure ObjectCore where
  allowUngatedTransfer : Bool
  guidCreationNum : ℚ
  owner : String

/-- `ObjectCore::try_from`: every field has to be present with its type. -/
def ObjectCore.ofJson (sdk : Sdk) (v : Json) : Option ObjectCore := do
  let allowUngatedTransfer ← v.getBool "allow_ungated_transfer"
  let guidCreationNum ← v.getBigDecimal sdk "guid_creation_num"
  let owner ← v.getStr "owner"
  return { allowUngatedTransfer, guidCreationNum, owner }

/-- `ObjectCore::from_write_resource`, with the `Ok(None)` of another type and
the `Err` of unreadable data both `none`. -/
def ObjectCore.fromWriteResource (sdk : Sdk) (wr : WriteResource) : Option ObjectCore :=
  if getOuterTypeFromWriteResource sdk wr = typeObjectCore then
    (sdk.fromStr wr.data).bind (ObjectCore.ofJson sdk)
  else none

/-- `ObjectCore::get_owner_address`. -/
def ObjectCore.getOwnerAddress (sdk : Sdk) (core : ObjectCore) : String :=
  sdk.standardizeAddress core.owner

end IndexerProcessors

import IndexerProcessors.Lib.Hex
import IndexerProcessors.Protos

/-!
# Transactions with their infos and requests

The default, account restoration and objects processors read parts of a
transaction that `Protos.lean` leaves out: module changes, state key hashes, the
type number beside every change, what `TransactionInfo` says of the transaction
as a whole, and the signature of a user's request. This file has the transaction
as they see it; resources, table items and events are those of `Protos.lean`.
-/

namespace IndexerProcessors.WriteSet

open IndexerProcessors.Protos

abbrev Bytes := List UInt8

/-! ## Write sets -/

/-- A module's interface. Its functions, friends and structs are kept as the JSON
values `serde_json::to_value` turns them into. -/
structure MoveModulePB where
  address : String
  name : String
  friends : List Json
  exposedFunctions : List Json
  structs : List Json

structure MoveModuleBytecode where
  bytecode : Bytes
  abi : Option MoveModulePB

structure WriteModule where
  address : String
  stateKeyHash : Bytes
  data : Option MoveModuleBytecode

structure MoveModuleId where
  address : String
  name : String
  deriving DecidableEq

structure DeleteModule where
  address : String
  stateKeyHash : Bytes
  module : Option MoveModuleId
  deriving DecidableEq

inductive Change where
  | deleteModule (dm : DeleteModule)
  | deleteResource (stateKeyHash : Bytes) (dr : DeleteResource) (genericTypeParams : List MoveType)
  | deleteTableItem (stateKeyHash : Bytes) (item : DeleteTableItem)
  | writeModule (wm : WriteModule)
  | writeResource (stateKeyHash : Bytes) (wr : WriteResource) (genericTypeParams : List MoveType)
  | writeTableItem (stateKeyHash : Bytes) (item : WriteTableItem)

/-- The type number of a change, which the protobuf has beside the change. -/
inductive ChangeType where
  | unspecified
  | deleteModule
  | deleteResource
  | deleteTableItem
  | writeModule
  | writeResource
  | writeTableItem
  deriving DecidableEq

/-- A change with its type; a number that is no type is `none`. -/
structure WriteSetChange where
  type : Option ChangeType
  change : Option Change

structure TransactionInfo where
  hash : Bytes
  stateChangeHash : Bytes
  eventRootHash : Bytes
  stateCheckpointHash : Option Bytes
  accumulatorRootHash : Bytes
  gasUsed : UInt64
  success : Bool
  vmStatus : String
  changes : List WriteSetChange

/-! ## Signatures -/

inductive AnyPublicKeyType where
  | unspecified
  | ed25519
  | secp256k1Ecdsa
  | secp256r1Ecdsa
  | keyless
  | federatedKeyless
  | slhDsaSha2128s
  deriving DecidableEq

/-- A public key of any type; `typeNumber` is the last byte of the type's number,
and an unknown number stands for `unspecified`. -/
structure AnyPublicKey where
  typeNumber : UInt8
  type : AnyPublicKeyType
  publicKey : Bytes
  deriving DecidableEq

structure MultiEd25519Signature where
  publicKeys : List Bytes
  threshold : UInt32
  publicKeyIndices : List UInt32
  deriving DecidableEq

/-- A multi key signature; of its signatures only the index of the key is read. -/
structure MultiKeySignature where
  publicKeys : List AnyPublicKey
  signatures : List UInt32
  signaturesRequired : UInt32
  deriving DecidableEq

inductive AccountSignature where
  | ed25519
  | multiEd25519 (sig : MultiEd25519Signature)
  | singleKeySignature
  | multiKeySignature (sig : MultiKeySignature)
  | abstraction
  deriving DecidableEq

/-- The signature of a transaction. Where several accounts sign, the sender's
account signature is what is read; both of its protobuf layers are optional. -/
inductive Signature where
  | ed25519
  | multiEd25519 (sig : MultiEd25519Signature)
  | multiAgent (sender : Option (Option AccountSignature))
  | feePayer (sender : Option (Option AccountSignature))
  | singleSender (sender : Option (Option AccountSignature))
  deriving DecidableEq

/-! ## Transactions -/

/-- A user's request: `entryFunctionIdStr` as `get_entry_function_from_user_request`
finds it, and `payload` as the stream encodes it. -/
structure UserTransactionRequest where
  sender : String
  entryFunctionIdStr : Option String
  payload : Option String
  signature : Option (Option Signature)
  deriving DecidableEq

inductive TxnData where
  | blockMetadata (events : List Protos.Event)
  | genesis (payload : Option String) (events : List Protos.Event)
  | stateCheckpoint
  | user (request : Option UserTransactionRequest) (events : List Protos.Event)
  | validator (events : List Protos.Event)
  | blockEpilogue
  deriving DecidableEq

inductive TransactionType where
  | unspecified
  | genesis
  | blockMetadata
  | stateCheckpoint
  | user
  | validator
  | blockEpilogue
  deriving DecidableEq

/-- `TransactionType::as_str_name`. -/
def TransactionType.asStrName : TransactionType → String
  | unspecified => "TRANSACTION_TYPE_UNSPECIFIED"
  | genesis => "TRANSACTION_TYPE_GENESIS"
  | blockMetadata => "TRANSACTION_TYPE_BLOCK_METADATA"
  | stateCheckpoint => "TRANSACTION_TYPE_STATE_CHECKPOINT"
  | user => "TRANSACTION_TYPE_USER"
  | validator => "TRANSACTION_TYPE_VALIDATOR"
  | blockEpilogue => "TRANSACTION_TYPE_BLOCK_EPILOGUE"

/-- A transaction; a type number that is no type is `none`. -/
structure Transaction where
  version : UInt64
  blockHeight : UInt64
  epoch : UInt64
  type : Option TransactionType
  timestamp : Option Timestamp
  info : Option TransactionInfo
  txnData : Option TxnData
  transactionBytes : Option UInt32

/-- The version as the tables store it. -/
def Transaction.txnVersion (txn : Transaction) : Int64 := txn.version.toInt64

/-- Transactions in the order of the stream. -/
def InOrder (txns : List Transaction) : Prop :=
  txns.Pairwise fun a b => a.txnVersion < b.txnVersion

instance (txns : List Transaction) : Decidable (InOrder txns) :=
  inferInstanceAs (Decidable (txns.Pairwise _))

end IndexerProcessors.WriteSet

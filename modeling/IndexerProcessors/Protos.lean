import IndexerProcessors.Transaction

/-!
# Transactions with their whole write sets

`Transaction.lean` has what the reputation extractor reads of a transaction.
The default, fungible asset and token processors read more of it: deletions,
table items, the events of every kind of transaction and the accounts events are
attached to. This file has the transaction as they see it. Resources and their
tags are those of `Transaction.lean`.
-/

namespace IndexerProcessors.Protos

/-- A Move type argument; only struct types are told apart. -/
inductive MoveType where
  | struct (tag : MoveStructTag)
  | other
  deriving DecidableEq

/-- A `DeleteResource` change. -/
structure DeleteResource where
  address : String
  typ : MoveStructTag
  typeStr : String
  deriving DecidableEq

structure WriteTableData where
  key : String
  keyType : String
  value : String
  valueType : String
  deriving DecidableEq

structure WriteTableItem where
  handle : String
  key : String
  data : Option WriteTableData
  deriving DecidableEq

structure DeleteTableData where
  key : String
  keyType : String
  deriving DecidableEq

structure DeleteTableItem where
  handle : String
  key : String
  data : Option DeleteTableData
  deriving DecidableEq

/-- A write-set change; resources come with the type arguments of their tag. -/
inductive Change where
  | writeResource (wr : WriteResource) (genericTypeParams : List MoveType)
  | deleteResource (dr : DeleteResource) (genericTypeParams : List MoveType)
  | writeTableItem (item : WriteTableItem)
  | deleteTableItem (item : DeleteTableItem)
  | other
  deriving DecidableEq

/-- The account an event is attached to. -/
structure EventKey where
  accountAddress : String
  deriving DecidableEq

structure Event where
  key : Option EventKey
  typeStr : String
  data : String
  deriving DecidableEq

/-- What is read of a user's request: the sender, and the entry function as
`get_entry_function_from_user_request` finds it. -/
structure UserTransactionRequest where
  sender : String
  entryFunctionIdStr : Option String
  deriving DecidableEq

inductive TxnData where
  | blockMetadata (events : List Event)
  | genesis (events : List Event)
  | user (request : Option UserTransactionRequest) (events : List Event)
  | validator (events : List Event)
  | other
  deriving DecidableEq

structure Transaction where
  version : UInt64
  timestamp : Option Timestamp
  info : Option (List Change)
  txnData : Option TxnData
  deriving DecidableEq

/-- The version as the tables store it. -/
def Transaction.txnVersion (txn : Transaction) : Int64 := txn.version.toInt64

/-- Transactions in the order of the stream. -/
def InOrder (txns : List Transaction) : Prop :=
  txns.Pairwise fun a b => a.txnVersion < b.txnVersion

theorem InOrder.lt_of_prefix_concat {txns done : List Transaction} {txn : Transaction}
    (h : InOrder txns) (hdone : (done ++ [txn]) <+: txns) :
    ∀ t ∈ done, t.txnVersion < txn.txnVersion := by
  have hpair := List.pairwise_append.mp (h.sublist hdone.sublist)
  intro t ht
  exact hpair.2.2 t ht txn (List.mem_singleton.mpr rfl)

instance (txns : List Transaction) : Decidable (InOrder txns) :=
  inferInstanceAs (Decidable (txns.Pairwise _))

/-- Parts of a list of transactions that together make it up, each in the order
of the list, any of them possibly several times. -/
structure Batches (txns : List Transaction) (batches : List (List Transaction)) : Prop where
  sublist : ∀ b ∈ batches, b.Sublist txns
  cover : ∀ t ∈ txns, ∃ b ∈ batches, t ∈ b

end IndexerProcessors.Protos

import IndexerProcessors.UserTransaction.Rows
import IndexerProcessors.UserTransaction.Signers
import Mathlib.Data.Finset.Sort

/-!
# Account transactions

The account transactions processor has a row for each account that a transaction
touches. The accounts of a transaction are a set; its rows come in no particular order,
so they are sorted here and stored in any order. The statement does nothing on a
conflict.
-/

namespace IndexerProcessors.AccountTransactions

open IndexerProcessors.Lib
open IndexerProcessors.Status
open IndexerProcessors.UserTransaction

structure AccountTransaction where
  transactionVersion : Int64
  accountAddress : String
  blockTimestamp : NaiveDateTime
  deriving DecidableEq

/-- A row of `account_transactions`. -/
structure PostgresAccountTransaction where
  transactionVersion : Int64
  accountAddress : String
  deriving DecidableEq

def PostgresAccountTransaction.ofBase (accTxn : AccountTransaction) :
    PostgresAccountTransaction :=
  ⟨accTxn.transactionVersion, accTxn.accountAddress⟩

/-- The conflict key of `insert_account_transactions_query`. -/
def PostgresAccountTransaction.pk (row : PostgresAccountTransaction) : Int64 × String :=
  (row.transactionVersion, row.accountAddress)

/-- The body of the `map` of `parse_account_transactions`. -/
def parseAccounts (sdk : Sdk) (txn : UserTransaction.Transaction) :
    Option (List AccountTransaction) := do
  let timestamp ← txn.timestamp
  let blockTimestamp := sdk.parseTimestamp timestamp txn.txnVersion
  let accounts ← getAccounts sdk txn
  return (accounts.sort (· ≤ ·)).map fun accountAddress =>
    ⟨txn.txnVersion, accountAddress, blockTimestamp⟩

/-- `parse_account_transactions`. -/
def parseAccountTransactions (sdk : Sdk) (txns : List UserTransaction.Transaction) :
    Option (List AccountTransaction) :=
  (txns.mapM (parseAccounts sdk)).map List.flatten

/-- `insert_account_transactions_query`. -/
def insertAccountTransactionsQuery (old _excluded : PostgresAccountTransaction) :
    PostgresAccountTransaction :=
  old

abbrev AccountWrite := (Int64 × String) × Write PostgresAccountTransaction

/-- What a batch inserts: `AccountTransactionsExtractor::process` and
`AccountTransactionsStorer::process`. -/
def batchWrites (sdk : Sdk) (batch : List UserTransaction.Transaction) :
    Option (List AccountWrite) :=
  (parseAccountTransactions sdk batch).map fun accTxns =>
    (accTxns.map PostgresAccountTransaction.ofBase).map fun row =>
      (row.pk, ⟨row, insertAccountTransactionsQuery⟩)

/-- The account transactions processor. -/
def accountTransactionsProcessor (boot : BootStrapConfig) (sdk : Sdk) :
    Processor StatusDb UserTransaction.Transaction AccountWrite where
  checkpoints := defaultCheckpoints sdk "account_transactions_processor" boot
  writes := batchWrites sdk

def accountTable (log : List AccountWrite) : Table (Int64 × String) PostgresAccountTransaction :=
  Table.writeAll ∅ log

theorem accountTable_eq (log : List AccountWrite) :
    accountTable log = Table.writeAll ∅ (log.filterMap some) := by
  rw [List.filterMap_some]
  rfl

/-! ## The rows of a transaction -/

def accountRowsOf (sdk : Sdk) (txn : UserTransaction.Transaction) :
    List PostgresAccountTransaction :=
  ((parseAccounts sdk txn).getD []).map PostgresAccountTransaction.ofBase

section Rows

variable {boot : BootStrapConfig} {sdk : Sdk}

/-- What is parsed of a transaction are its accounts. -/
theorem getAccounts_of_parseAccounts {txn : UserTransaction.Transaction}
    (h : (parseAccounts sdk txn).isSome = true) :
    ∃ accounts, getAccounts sdk txn = some accounts := by
  obtain ⟨rows, hrows⟩ := Option.isSome_iff_exists.mp h
  obtain ⟨timestamp, -, hrows⟩ := Option.bind_eq_some_iff.mp hrows
  obtain ⟨accounts, haccounts, -⟩ := Option.bind_eq_some_iff.mp hrows
  exact ⟨accounts, haccounts⟩

/-- There is a row for each account, with the version of the transaction. -/
theorem mem_accountRowsOf {txn : UserTransaction.Transaction} {row : PostgresAccountTransaction}
    (h : (parseAccounts sdk txn).isSome = true) :
    row ∈ accountRowsOf sdk txn ↔
      row.transactionVersion = txn.txnVersion ∧
        ∃ accounts, getAccounts sdk txn = some accounts ∧ row.accountAddress ∈ accounts := by
  obtain ⟨rows, hrows⟩ := Option.isSome_iff_exists.mp h
  unfold accountRowsOf
  rw [hrows, Option.getD_some]
  obtain ⟨timestamp, -, hrows⟩ := Option.bind_eq_some_iff.mp hrows
  obtain ⟨accounts, haccounts, hrows⟩ := Option.bind_eq_some_iff.mp hrows
  obtain rfl := Option.some.inj hrows
  rw [List.map_map, List.mem_map]
  constructor
  · rintro ⟨address, haddress, rfl⟩
    exact ⟨rfl, accounts, haccounts, (Finset.mem_sort _).mp haddress⟩
  · rintro ⟨hversion, accounts', haccounts', haddress⟩
    obtain rfl := Option.some.inj (haccounts.symm.trans haccounts')
    refine ⟨row.accountAddress, (Finset.mem_sort _).mpr haddress, ?_⟩
    rw [Function.comp_apply, PostgresAccountTransaction.ofBase, ← hversion]

theorem version_of_mem_accountRowsOf {txn : UserTransaction.Transaction}
    {row : PostgresAccountTransaction} (hrow : row ∈ accountRowsOf sdk txn) :
    row.transactionVersion = txn.txnVersion := by
  have h : (parseAccounts sdk txn).isSome = true := by
    by_contra hnone
    unfold accountRowsOf at hrow
    rw [Option.not_isSome_iff_eq_none.mp hnone] at hrow
    cases hrow
  exact ((mem_accountRowsOf h).mp hrow).1

theorem rows_of_batchWrites {batch : List UserTransaction.Transaction} {ws : List AccountWrite}
    (h : batchWrites sdk batch = some ws) :
    (∀ txn ∈ batch, (parseAccounts sdk txn).isSome = true) ∧
      ws = (batch.flatMap (accountRowsOf sdk)).map
        fun row => (row.pk, ⟨row, insertAccountTransactionsQuery⟩) := by
  obtain ⟨accTxns, hparse, rfl⟩ := Option.map_eq_some_iff.mp h
  obtain ⟨perTxn, hperTxn, rfl⟩ := Option.map_eq_some_iff.mp hparse
  refine ⟨isSome_mapM_iff.mp (Option.isSome_iff_exists.mpr ⟨perTxn, hperTxn⟩), ?_⟩
  rw [flatten_of_mapM hperTxn, List.map_flatMap]
  rfl

theorem keyedRows_accounts (ledger : Ledger UserTransaction.Transaction) :
    (accountTransactionsProcessor boot sdk).KeyedRows ledger.txns some (accountRowsOf sdk)
      PostgresAccountTransaction.pk insertAccountTransactionsQuery where
  -- a row is its key
  unique := by
    intro row _ row' _ hpk
    obtain ⟨hversion, haddress⟩ := Prod.mk.inj hpk
    obtain ⟨version, address⟩ := row
    obtain rfl : version = row'.transactionVersion := hversion
    obtain rfl : address = row'.accountAddress := haddress
    rfl
  query_self _ := rfl
  writes_eq := by
    intro b _ ws hws k w
    rw [(rows_of_batchWrites hws).2]
    simp

end Rows

end IndexerProcessors.AccountTransactions

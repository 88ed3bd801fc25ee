import IndexerProcessors.AccountTransactions.Model
import IndexerProcessors.GasFees.Model

/-!
# The tables agree

The user transaction, the gas fee and the account transactions processor run on their
own: each has its row of `processor_status`, its batches and its deaths. None looks at
the tables of the others, but all read the same stream. `tables_agree` — of a
transaction that all three have passed, the tables tell one story: a fee is recorded
exactly if the user transaction is, by the same sender, at the same time, for the same
function and at the same price; and a signature never dangles, its user transaction and
its signer's account transaction are there.
-/

namespace IndexerProcessors.AccountTransactions

open IndexerProcessors.Lib
open IndexerProcessors.Status
open IndexerProcessors.UserTransaction
open IndexerProcessors.GasFees
open IndexerProcessors.AccountRestoration (plainSdk)

/-- What the two rows of a transaction have in common; the fee is the price of the used
gas, in 64 bits. -/
structure SamePayment (gasUsed : UInt64) (row : PostgresUserTransaction) (fee : GasFee) : Prop where
  owner : fee.ownerAddress = some row.sender
  function : fee.entryFunctionIdStr.getD "" = row.entryFunctionIdStr
  height : fee.blockHeight = row.blockHeight
  time : fee.transactionTimestamp = row.timestamp
  amount : fee.amount = some (gasUsed.toNat * row.gasUnitPrice % 2 ^ 64)

section Rows

variable {sdk : Sdk} {txn : UserTransaction.Transaction}

/-- Both rows are made of one request. -/
theorem samePayment_of_rows {row : PostgresUserTransaction} {fee : GasFee}
    (hrow : row ∈ userRowsOf sdk txn) (hfee : fee ∈ gasFeeRowsOf sdk txn) :
    ∃ info, txn.info = some info ∧ SamePayment info.gasUsed row fee := by
  obtain ⟨⟨userTransaction, signatures⟩, hout, rfl⟩ :=
    Option.map_eq_some_iff.mp (Option.mem_toList.mp hrow)
  obtain ⟨request, events, info, feeStatement, timestamp, hdata, hinfo, htimestamp, hparsed⟩ :=
    parts_of_parse (Option.join_eq_some_iff.mp hout)
  obtain ⟨request', events', info', timestamp', feeStatement', hdata', hinfo', htimestamp', hevent⟩ :=
    parts_of_gasFee (Option.join_eq_some_iff.mp (Option.mem_toList.mp hfee))
  obtain rfl := Option.some.inj (hinfo.symm.trans hinfo')
  obtain rfl := Option.some.inj (htimestamp.symm.trans htimestamp')
  obtain ⟨rfl, rfl⟩ := UserTransaction.TxnData.user.inj
    (Option.some.inj (hdata.symm.trans hdata'))
  refine ⟨info, hinfo, ?_⟩
  unfold UserTransaction.fromTransaction at hparsed
  obtain ⟨userRequest, hrequest, hparsed⟩ := Option.bind_eq_some_iff.mp hparsed
  obtain rfl := Option.some.inj hrequest
  obtain ⟨payer, -, hparsed⟩ := Option.bind_eq_some_iff.mp hparsed
  obtain ⟨rows, -, hparsed⟩ := Option.bind_eq_some_iff.mp hparsed
  obtain ⟨expiration, -, hparsed⟩ := Option.bind_eq_some_iff.mp hparsed
  rw [Option.pure_def, Option.some_inj, Prod.mk.injEq] at hparsed
  obtain ⟨rfl, -⟩ := hparsed
  obtain ⟨payer', -, hevent⟩ := Option.bind_eq_some_iff.mp hevent
  obtain rfl := Option.some.inj hevent
  exact ⟨rfl, rfl, rfl, rfl, congrArg some (UInt64.toNat_mul _ _)⟩

/-- The signers of a transaction's rows are accounts of it. -/
theorem signer_of_signatureRow {row : PostgresSignature} (hrow : row ∈ signatureRowsOf sdk txn)
    {accounts : Finset String} (haccounts : getAccounts sdk txn = some accounts) :
    row.signer ∈ accounts := by
  obtain ⟨raw, hraw, rfl⟩ := List.mem_map.mp hrow
  unfold transactionSignatures at hraw
  cases hparse : (parseTransaction sdk txn).join with
  | none =>
    rw [hparse] at hraw
    cases hraw
  | some out =>
    obtain ⟨userTransaction, rows⟩ := out
    rw [hparse] at hraw
    obtain ⟨request, events, info, feeStatement, timestamp, hdata, -, htimestamp, hparsed⟩ :=
      parts_of_parse (Option.join_eq_some_iff.mp hparse)
    obtain ⟨userRequest, rfl, hrows, -⟩ := signatures_of_fromTransaction hparsed
    have huserRows : userSignatures sdk txn (some userRequest) = some rows := by
      unfold userSignatures
      rw [htimestamp]
      exact hrows
    exact signer_mem_getAccounts hdata huserRows haccounts hraw

/-- A transaction with a signature row has its own. -/
theorem exists_userRow_of_signature {row : PostgresSignature}
    (hrow : row ∈ signatureRowsOf sdk txn) : ∃ row, row ∈ userRowsOf sdk txn := by
  obtain ⟨raw, hraw, -⟩ := List.mem_map.mp hrow
  unfold transactionSignatures at hraw
  unfold userRowsOf
  cases hparse : (parseTransaction sdk txn).join with
  | none =>
    rw [hparse] at hraw
    cases hraw
  | some out => exact ⟨_, List.mem_singleton_self _⟩

/-- A transaction whose parsing did not fail has a row exactly if it is a user
transaction. -/
theorem exists_userRow_iff (h : (parseTransaction sdk txn).isSome = true) :
    (∃ row, row ∈ userRowsOf sdk txn) ↔ isUser txn = true := by
  obtain ⟨out, hout⟩ := Option.isSome_iff_exists.mp h
  rw [isUser_iff_of_parse hout]
  unfold userRowsOf
  rw [hout]
  cases out with
  | none => simp
  | some parsed => simp

theorem exists_gasFeeRow_iff (h : (GasFee.fromTransaction sdk txn).isSome = true) :
    (∃ fee, fee ∈ gasFeeRowsOf sdk txn) ↔ isUser txn = true := by
  obtain ⟨out, hout⟩ := Option.isSome_iff_exists.mp h
  rw [isUser_iff_of_fromTransaction hout]
  unfold gasFeeRowsOf
  rw [hout]
  cases out with
  | none => simp
  | some fee => simp

end Rows

/-- **The tables agree.** Let the three processors have died and started again as often
as they may, and each have caught up. A transaction that all have passed has a user
transaction and a gas fee exactly if it is a user's, and the two have the same sender,
function, time and price; and each signature under its version has its user transaction
and its signer's account transaction. -/
theorem tables_agree (sdk : Sdk) (ledger : Ledger UserTransaction.Transaction)
    (userBoot feeBoot accountBoot : BootStrapConfig)
    (users : (userTransactionProcessor userBoot sdk).Lives ledger.txns)
    (fees : (gasFeeProcessor feeBoot sdk).Lives ledger.txns)
    (accounts : (accountTransactionsProcessor accountBoot sdk).Lives ledger.txns)
    (txn : UserTransaction.Transaction) (huser : txn ∈ users.passed) (hfee : txn ∈ fees.passed)
    (haccount : txn ∈ accounts.passed) :
    ((∃ row, (userTransactionTable users.state.log).lookup txn.txnVersion = some row) ↔
      isUser txn = true) ∧
    ((∃ fee, (gasFeeTable fees.state.log).lookup txn.txnVersion = some fee) ↔
      isUser txn = true) ∧
    (∀ row fee, (userTransactionTable users.state.log).lookup txn.txnVersion = some row →
      (gasFeeTable fees.state.log).lookup txn.txnVersion = some fee →
        ∃ info, txn.info = some info ∧ SamePayment info.gasUsed row fee) ∧
    ∀ key signature, (signatureTable users.state.log).lookup key = some signature →
      key.1 = txn.txnVersion →
        (∃ row, (userTransactionTable users.state.log).lookup txn.txnVersion = some row) ∧
        (accountTable accounts.state.log).lookup (txn.txnVersion, signature.signer) =
          some ⟨txn.txnVersion, signature.signer⟩ := by
  have husers : ∀ row, (userTransactionTable users.state.log).lookup txn.txnVersion = some row ↔
      row ∈ userRowsOf sdk txn := fun row =>
    (lookup_iff_of_passed (v := id) (keyedRows_userTransactions ledger)
      (fun _ _ h => version_of_mem_userRowsOf h) huser rfl).trans
        (and_iff_left_of_imp version_of_mem_userRowsOf)
  have hfees : ∀ fee, (gasFeeTable fees.state.log).lookup txn.txnVersion = some fee ↔
      fee ∈ gasFeeRowsOf sdk txn := fun fee => by
    rw [gasFeeTable_eq]
    exact (lookup_iff_of_passed (v := id) (keyedRows_gasFees ledger)
      (fun _ _ h => version_of_mem_gasFeeRowsOf h) hfee rfl).trans
        (and_iff_left_of_imp version_of_mem_gasFeeRowsOf)
  -- A transaction that a processor has passed is one it could parse.
  have hparsed : (parseTransaction sdk txn).isSome = true :=
    parse_of_caught_up users.reach users.caught txn huser
  have hpaid : (GasFee.fromTransaction sdk txn).isSome = true := by
    obtain ⟨b, ws, hmem, hws⟩ := Processor.exists_writes_of_caught_up ledger.pairwise_toNat
      fees.reach fees.caught hfee
    exact (GasFees.rows_of_batchWrites hws).1 txn hmem
  refine ⟨?_, ?_, fun row fee hrow hlookup => ?_, fun key signature hsignature hkey => ?_⟩
  · rw [← exists_userRow_iff hparsed]
    exact exists_congr husers
  · rw [← exists_gasFeeRow_iff hpaid]
    exact exists_congr hfees
  · exact samePayment_of_rows ((husers row).mp hrow) ((hfees fee).mp hlookup)
  · obtain ⟨hsigned, hpk⟩ := (lookup_iff_of_passed (v := Prod.fst) (keyedRows_signatures ledger)
      (fun _ _ h => version_of_mem_signatureRowsOf h) huser hkey).mp hsignature
    -- A signature is of a user transaction, so the row of that is there as well.
    have hsigner : isUser txn = true := by
      rw [← exists_userRow_iff hparsed]
      exact exists_userRow_of_signature hsigned
    refine ⟨?_, ?_⟩
    · rw [exists_congr husers, exists_userRow_iff hparsed]
      exact hsigner
    · -- the accounts processor could parse the transaction, too
      obtain ⟨b, ws, hmem, hws⟩ := Processor.exists_writes_of_caught_up ledger.pairwise_toNat
        accounts.reach accounts.caught haccount
      have haccounts := (AccountTransactions.rows_of_batchWrites hws).1 txn hmem
      obtain ⟨all, hall⟩ := getAccounts_of_parseAccounts haccounts
      rw [accountTable_eq]
      refine (lookup_iff_of_passed (v := Prod.fst) (keyedRows_accounts ledger)
        (fun t r h => version_of_mem_accountRowsOf h) haccount rfl).mpr ⟨?_, rfl⟩
      exact (mem_accountRowsOf haccounts).mpr ⟨rfl, all, hall, signer_of_signatureRow hsigned hall⟩

/-- The two lives of a processor of `0xa`'s two transactions, the first of which ends
before anything of the second transaction is stored. -/
def feePayerLives {ω : Type} (p : Processor StatusDb UserTransaction.Transaction ω)
    (hfirst : p.first ≤ p.version (feePayerTxn 1))
    (hord : p.version (feePayerTxn 1) < p.version (feePayerTxn 2))
    (hwrites : ∀ batch ∈ [[feePayerTxn 1], [feePayerTxn 2], [feePayerTxn 1, feePayerTxn 2]],
      (p.writes batch).isSome = true) : p.Lives [feePayerTxn 1, feePayerTxn 2] :=
  have h := Processor.reach_twoLives hfirst hord (hwrites _ (by simp)) (hwrites _ (by simp))
    (hwrites _ (by simp)) (List.nil_subset _)
  ⟨p.twoLives (feePayerTxn 1) (feePayerTxn 2) [], _, h.1, h.2⟩

/-- The secondary signer `0xb` of the second transaction. -/
theorem secondary_signer_known :
    ∃ (users : (userTransactionProcessor ⟨1⟩ plainSdk.toSdk).Lives [feePayerTxn 1, feePayerTxn 2])
      (accounts : (accountTransactionsProcessor ⟨1⟩ plainSdk.toSdk).Lives
        [feePayerTxn 1, feePayerTxn 2]) (signature : PostgresSignature),
      (signatureTable users.state.log).lookup (2, 0, 0, false) = some signature ∧
      (accountTable accounts.state.log).lookup (2, signature.signer) =
        some ⟨2, signature.signer⟩ := by
  let ledger : Ledger UserTransaction.Transaction :=
    ⟨[feePayerTxn 1, feePayerTxn 2], by decide, by decide⟩
  let users := feePayerLives (userTransactionProcessor ⟨1⟩ plainSdk.toSdk) (by decide) (by decide)
    (by decide +kernel)
  let fees := feePayerLives (gasFeeProcessor ⟨1⟩ plainSdk.toSdk) (by decide) (by decide)
    (by decide +kernel)
  let accounts := feePayerLives (accountTransactionsProcessor ⟨1⟩ plainSdk.toSdk) (by decide)
    (by decide) (by decide +kernel)
  have hpassed : ∀ {ω : Type} {p : Processor StatusDb UserTransaction.Transaction ω}
      {lives : p.Lives ledger.txns}, p.first ≤ p.version (feePayerTxn 2) →
        p.version (feePayerTxn 2) < lives.next → feePayerTxn 2 ∈ lives.passed := by
    intro ω p lives hfirst hnext
    exact List.mem_filter.mpr ⟨List.mem_cons_of_mem _ (List.mem_singleton_self _),
      decide_eq_true ⟨hfirst, hnext⟩⟩
  obtain ⟨signature, hsignature⟩ := Option.isSome_iff_exists.mp
    (show ((signatureTable users.state.log).lookup (2, 0, 0, false)).isSome = true by
      decide +kernel)
  obtain ⟨-, -, -, hknown⟩ := tables_agree plainSdk.toSdk ledger ⟨1⟩ ⟨1⟩ ⟨1⟩ users fees accounts
    (feePayerTxn 2) (hpassed (by decide) (by decide)) (hpassed (by decide) (by decide))
    (hpassed (by decide) (by decide))
  exact ⟨users, accounts, signature, hsignature, (hknown _ signature hsignature rfl).2⟩

end IndexerProcessors.AccountTransactions

import IndexerProcessors.UserTransaction.Rows

/-!
# Gas fees

The gas fee processor reads the same requests as the user transaction processor, and
keeps of each what was paid for it and by whom. Its one statement does nothing on a
conflict.
-/

namespace IndexerProcessors.GasFees

open IndexerProcessors.Lib
open IndexerProcessors.Status
open IndexerProcessors.UserTransaction

/-- A row of `gas_fees`. -/
structure GasFee where
  transactionVersion : Int64
  ownerAddress : Option String
  amount : Option ℕ
  gasFeePayerAddress : Option String
  isTransactionSuccess : Bool
  entryFunctionIdStr : Option String
  blockHeight : Int64
  transactionTimestamp : NaiveDateTime
  storageRefundAmount : ℕ
  deriving DecidableEq

section

variable (sdk : Sdk)

/-- `GasFee::get_gas_fee_event`. The product is one of 64-bit numbers, and wraps. -/
def GasFee.getGasFeeEvent (txnInfo : WriteSet.TransactionInfo)
    (userTransactionRequest : UserTransactionRequest) (entryFunctionIdStr : Option String)
    (transactionVersion : Int64) (transactionTimestamp : NaiveDateTime) (blockHeight : Int64)
    (feeStatement : Option FungibleAsset.FeeStatement) : Option GasFee := do
  let aptosCoinBurned := txnInfo.gasUsed * userTransactionRequest.gasUnitPrice
  let gasFeePayerAddress ← gasFeePayerAddressOf sdk userTransactionRequest.signature
  return {
    transactionVersion
    ownerAddress := some (sdk.standardizeAddress userTransactionRequest.sender)
    amount := some aptosCoinBurned.toNat
    gasFeePayerAddress
    isTransactionSuccess := txnInfo.success
    entryFunctionIdStr
    blockHeight
    transactionTimestamp
    storageRefundAmount := (feeStatement.map (·.storageFeeRefundOctas.toNat)).getD 0 }

/-- `GasFee::from_transaction`. -/
def GasFee.fromTransaction (transaction : UserTransaction.Transaction) : Option (Option GasFee) :=
  match transaction.txnData with
  | some (.user request events) => do
    let userRequest ← request
    let transactionInfo ← transaction.info
    let timestamp ← transaction.timestamp
    let feeStatement ← FungibleAsset.findFeeStatement sdk
      (events.map fun event => (event.typeStr, event.data))
    (GasFee.getGasFeeEvent sdk transactionInfo userRequest userRequest.entryFunctionIdStr
      transaction.txnVersion (sdk.parseTimestamp timestamp transaction.txnVersion)
      transaction.blockHeight.toInt64 feeStatement).map some
  | _ => some none

end

/-- `insert_gas_fee_query`. -/
def insertGasFeeQuery (old _excluded : GasFee) : GasFee := old

/-- What a batch inserts: `GasFeeExtractor::process` and `GasFeeStorer::process`. -/
def batchWrites (sdk : Sdk) (batch : List UserTransaction.Transaction) :
    Option (List (Int64 × Write GasFee)) :=
  (batch.mapM (GasFee.fromTransaction sdk)).map fun gasFees =>
    gasFees.reduceOption.map fun row => (row.transactionVersion, ⟨row, insertGasFeeQuery⟩)

/-- The gas fee processor. -/
def gasFeeProcessor (boot : BootStrapConfig) (sdk : Sdk) :
    Processor StatusDb UserTransaction.Transaction (Int64 × Write GasFee) where
  checkpoints := defaultCheckpoints sdk "gas_fee_processor" boot
  writes := batchWrites sdk

def gasFeeTable (log : List (Int64 × Write GasFee)) : Table Int64 GasFee :=
  Table.writeAll ∅ log

theorem gasFeeTable_eq (log : List (Int64 × Write GasFee)) :
    gasFeeTable log = Table.writeAll ∅ (log.filterMap some) := by
  rw [List.filterMap_some]
  rfl

/-! ## The rows of a transaction -/

/-- The row of a transaction, if it is a user transaction. -/
def gasFeeRowsOf (sdk : Sdk) (txn : UserTransaction.Transaction) : List GasFee :=
  (GasFee.fromTransaction sdk txn).join.toList

section Rows

variable {boot : BootStrapConfig} {sdk : Sdk}

/-- What the row of a user transaction is made of. -/
theorem parts_of_gasFee {txn : UserTransaction.Transaction} {fee : GasFee}
    (h : GasFee.fromTransaction sdk txn = some (some fee)) :
    ∃ request events info timestamp feeStatement,
      txn.txnData = some (.user (some request) events) ∧ txn.info = some info ∧
        txn.timestamp = some timestamp ∧
          GasFee.getGasFeeEvent sdk info request request.entryFunctionIdStr txn.txnVersion
            (sdk.parseTimestamp timestamp txn.txnVersion) txn.blockHeight.toInt64 feeStatement =
              some fee := by
  unfold GasFee.fromTransaction at h
  split at h
  next request events hdata =>
    obtain ⟨userRequest, hrequest, h⟩ := Option.bind_eq_some_iff.mp h
    obtain ⟨info, hinfo, h⟩ := Option.bind_eq_some_iff.mp h
    obtain ⟨timestamp, htimestamp, h⟩ := Option.bind_eq_some_iff.mp h
    obtain ⟨feeStatement, -, h⟩ := Option.bind_eq_some_iff.mp h
    obtain ⟨fee', hfee, heq⟩ := Option.map_eq_some_iff.mp h
    obtain rfl := Option.some.inj heq
    exact ⟨userRequest, events, info, timestamp, feeStatement, hrequest ▸ hdata, hinfo, htimestamp,
      hfee⟩
  next => cases h

/-- Only a user transaction pays. -/
theorem isUser_iff_of_fromTransaction {txn : UserTransaction.Transaction} {out : Option GasFee}
    (h : GasFee.fromTransaction sdk txn = some out) : isUser txn = true ↔ out.isSome := by
  unfold GasFee.fromTransaction at h
  split at h
  next request events hdata =>
    obtain ⟨userRequest, -, h⟩ := Option.bind_eq_some_iff.mp h
    obtain ⟨info, -, h⟩ := Option.bind_eq_some_iff.mp h
    obtain ⟨timestamp, -, h⟩ := Option.bind_eq_some_iff.mp h
    obtain ⟨feeStatement, -, h⟩ := Option.bind_eq_some_iff.mp h
    obtain ⟨fee, -, rfl⟩ := Option.map_eq_some_iff.mp h
    unfold isUser
    rw [hdata]
    exact iff_of_true rfl rfl
  next hdata =>
    obtain rfl := Option.some.inj h
    unfold isUser
    split
    next request events huser => exact absurd huser (hdata request events)
    next => exact iff_of_false Bool.false_ne_true Bool.false_ne_true

theorem version_of_mem_gasFeeRowsOf {txn : UserTransaction.Transaction} {fee : GasFee}
    (h : fee ∈ gasFeeRowsOf sdk txn) : fee.transactionVersion = txn.txnVersion := by
  have hfee := Option.join_eq_some_iff.mp (Option.mem_toList.mp h)
  obtain ⟨request, events, info, timestamp, feeStatement, -, -, -, hevent⟩ := parts_of_gasFee hfee
  obtain ⟨payer, -, hevent⟩ := Option.bind_eq_some_iff.mp hevent
  obtain rfl := Option.some.inj hevent
  rfl

theorem rows_of_batchWrites {batch : List UserTransaction.Transaction}
    {ws : List (Int64 × Write GasFee)} (h : batchWrites sdk batch = some ws) :
    (∀ txn ∈ batch, (GasFee.fromTransaction sdk txn).isSome = true) ∧
      ws = (batch.flatMap (gasFeeRowsOf sdk)).map
        fun row => (row.transactionVersion, ⟨row, insertGasFeeQuery⟩) := by
  obtain ⟨gasFees, hgasFees, rfl⟩ := Option.map_eq_some_iff.mp h
  refine ⟨isSome_mapM_iff.mp (Option.isSome_iff_exists.mpr ⟨gasFees, hgasFees⟩), ?_⟩
  rw [reduceOption_of_mapM hgasFees, List.filterMap_eq_flatMap_toList]
  rfl

theorem keyedRows_gasFees (ledger : Ledger UserTransaction.Transaction) :
    (gasFeeProcessor boot sdk).KeyedRows ledger.txns some (gasFeeRowsOf sdk)
      GasFee.transactionVersion insertGasFeeQuery where
  unique := by
    intro row hrow row' hrow' hversion
    obtain ⟨txn, htxn, hrow⟩ := List.mem_flatMap.mp hrow
    obtain ⟨txn', htxn', hrow'⟩ := List.mem_flatMap.mp hrow'
    rw [version_of_mem_gasFeeRowsOf hrow, version_of_mem_gasFeeRowsOf hrow'] at hversion
    obtain rfl := ledger.eq_of_version htxn htxn' hversion
    exact Option.some.inj
      ((Option.mem_toList.mp hrow).symm.trans (Option.mem_toList.mp hrow'))
  query_self _ := rfl
  writes_eq := by
    intro b _ ws hws k w
    rw [(rows_of_batchWrites hws).2]
    simp

end Rows

end IndexerProcessors.GasFees

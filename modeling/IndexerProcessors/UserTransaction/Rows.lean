import IndexerProcessors.Status.Lives
import IndexerProcessors.UserTransaction.Flattening

/-!
# The tables of the user transaction processor

`user_transactions` has a row for every user transaction and `signatures` one for every
individual signature. Both statements overwrite some columns of a row that is there
already; what is there comes from the same transaction, so that a row that is stored
again stays as it is. `signatures_survive_restarts` says that the processor's lives
cannot be seen in the tables: once it is past everything it touched, the rows are those
of the transactions it has passed, each once, and the signatures are the trees' leaves.
-/

namespace IndexerProcessors.UserTransaction

open IndexerProcessors.AccountRestoration
open IndexerProcessors.Lib
open IndexerProcessors.Status

instance : Streamed Transaction := ⟨Transaction.version, Transaction.timestamp⟩

/-! ## Rows and statements -/

/-- A row of `user_transactions`. -/
structure PostgresUserTransaction where
  version : Int64
  blockHeight : Int64
  parentSignatureType : String
  sender : String
  sequenceNumber : Option Int64
  replayProtectionNonce : Option ℕ
  maxGasAmount : ℕ
  expirationTimestampSecs : NaiveDateTime
  gasUnitPrice : ℕ
  timestamp : NaiveDateTime
  entryFunctionIdStr : String
  epoch : Int64
  entryFunctionContractAddress : Option String
  entryFunctionModuleName : Option String
  entryFunctionFunctionName : Option String
  deriving DecidableEq

def PostgresUserTransaction.ofBase (sdk : Sdk) (userTransaction : UserTransactionModel) :
    PostgresUserTransaction where
  version := userTransaction.txnVersion
  blockHeight := userTransaction.blockHeight
  parentSignatureType := userTransaction.parentSignatureType
  sender := userTransaction.sender
  sequenceNumber := userTransaction.sequenceNumber
  replayProtectionNonce := userTransaction.replayProtectionNonce
  maxGasAmount := userTransaction.maxGasAmount
  expirationTimestampSecs :=
    sdk.parseTimestamp userTransaction.expirationTimestampSecs userTransaction.txnVersion
  gasUnitPrice := userTransaction.gasUnitPrice
  timestamp := userTransaction.blockTimestamp
  entryFunctionIdStr := userTransaction.entryFunctionIdStr
  epoch := userTransaction.epoch
  entryFunctionContractAddress := userTransaction.entryFunctionContractAddress
  entryFunctionModuleName := userTransaction.entryFunctionModuleName
  entryFunctionFunctionName := userTransaction.entryFunctionFunctionName

/-- A row of `signatures`. -/
structure PostgresSignature where
  transactionVersion : Int64
  multiAgentIndex : ℕ
  multiSigIndex : ℕ
  transactionBlockHeight : Int64
  signer : String
  isSenderPrimary : Bool
  type : String
  publicKey : String
  signature : String
  threshold : ℕ
  publicKeyIndices : List ℕ
  anySignatureType : Option String
  publicKeyType : Option String
  deriving DecidableEq

def PostgresSignature.ofBase (raw : Signature) : PostgresSignature where
  transactionVersion := raw.transactionVersion
  multiAgentIndex := raw.multiAgentIndex
  multiSigIndex := raw.multiSigIndex
  transactionBlockHeight := raw.transactionBlockHeight
  signer := raw.signer
  isSenderPrimary := raw.isSenderPrimary
  type := raw.accountSignatureType
  publicKey := raw.publicKey
  signature := raw.signature
  threshold := raw.threshold
  publicKeyIndices := raw.publicKeyIndices
  anySignatureType := raw.anySignatureType
  publicKeyType := raw.publicKeyType

def PostgresSignature.pk (row : PostgresSignature) : SignaturePK :=
  (row.transactionVersion, row.multiAgentIndex, row.multiSigIndex, row.isSenderPrimary)

/-- `insert_user_transactions_query`. -/
def insertUserTransactionsQuery (old excluded : PostgresUserTransaction) :
    PostgresUserTransaction :=
  { old with parentSignatureType := excluded.parentSignatureType }

/-- `insert_signatures_query`. -/
def insertSignaturesQuery (old excluded : PostgresSignature) : PostgresSignature :=
  { old with
    type := excluded.type
    anySignatureType := excluded.anySignatureType
    publicKeyType := excluded.publicKeyType }

/-! ## The processor -/

/-- An upsert into one of the two tables. -/
abbrev UserWrite :=
  (Int64 × Write PostgresUserTransaction) ⊕ (SignaturePK × Write PostgresSignature)

/-- What a batch upserts: `UserTransactionExtractor::process` and
`UserTransactionStorer::process`. -/
def batchWrites (sdk : Sdk) (batch : List Transaction) : Option (List UserWrite) := do
  let (userTransactions, signatures) ← userTransactionParse sdk batch
  let userTxns := userTransactions.map (PostgresUserTransaction.ofBase sdk)
  let signatures := signatures.map PostgresSignature.ofBase
  return userTxns.map (fun row => .inl (row.version, ⟨row, insertUserTransactionsQuery⟩)) ++
    signatures.map fun row => .inr (row.pk, ⟨row, insertSignaturesQuery⟩)

/-- The user transaction processor. -/
def userTransactionProcessor (boot : BootStrapConfig) (sdk : Sdk) :
    Processor StatusDb Transaction UserWrite where
  checkpoints := defaultCheckpoints sdk "user_transaction_processor" boot
  writes := batchWrites sdk

/-- The tables after some writes. -/
def userTransactionTable (log : List UserWrite) : Table Int64 PostgresUserTransaction :=
  Table.writeAll ∅ (log.filterMap Sum.getLeft?)

def signatureTable (log : List UserWrite) : Table SignaturePK PostgresSignature :=
  Table.writeAll ∅ (log.filterMap Sum.getRight?)

/-! ## The rows of a transaction -/

/-- The row of a transaction, if it is a user transaction. -/
def userRowsOf (sdk : Sdk) (txn : Transaction) : List PostgresUserTransaction :=
  ((parseTransaction sdk txn).join.map fun out => PostgresUserTransaction.ofBase sdk out.1).toList

/-- The rows of its signatures. -/
def signatureRowsOf (sdk : Sdk) (txn : Transaction) : List PostgresSignature :=
  (transactionSignatures sdk txn).map PostgresSignature.ofBase

/-- The individual signatures of a transaction. -/
def individualsOf (txn : Transaction) : List Individual :=
  match txn.txnData with
  | some (.user (some request) _) =>
    match request.signature.bind (·.signature) with
    | some e => e.individuals
    | none => []
  | _ => []

def isUser (txn : Transaction) : Bool :=
  match txn.txnData with
  | some (.user _ _) => true
  | _ => false

section Rows

variable {boot : BootStrapConfig} {sdk : Sdk}

/-- What is parsed of a user transaction. -/
theorem parts_of_parse {txn : Transaction} {userTransaction : UserTransactionModel}
    {rows : List Signature} (h : parseTransaction sdk txn = some (some (userTransaction, rows))) :
    ∃ request events info feeStatement timestamp,
      txn.txnData = some (.user request events) ∧ txn.info = some info ∧
        txn.timestamp = some timestamp ∧
          fromTransaction sdk request info feeStatement timestamp txn.blockHeight.toInt64
            txn.epoch.toInt64 txn.txnVersion = some (userTransaction, rows) := by
  unfold parseTransaction at h
  obtain ⟨info, hinfo, h⟩ := Option.bind_eq_some_iff.mp h
  split at h
  next request events hdata =>
    obtain ⟨feeStatement, -, h⟩ := Option.bind_eq_some_iff.mp h
    obtain ⟨timestamp, htimestamp, h⟩ := Option.bind_eq_some_iff.mp h
    obtain ⟨out, hout, heq⟩ := Option.map_eq_some_iff.mp h
    obtain rfl := Option.some.inj heq
    exact ⟨request, events, info, feeStatement, timestamp, hdata, hinfo, htimestamp, hout⟩
  next => cases h

/-- Only a user transaction is parsed to something. -/
theorem isUser_iff_of_parse {txn : Transaction} {out : Option (UserTransactionModel × List Signature)}
    (h : parseTransaction sdk txn = some out) : isUser txn = true ↔ out.isSome := by
  unfold parseTransaction at h
  obtain ⟨info, -, h⟩ := Option.bind_eq_some_iff.mp h
  split at h
  next request events hdata =>
    obtain ⟨feeStatement, -, h⟩ := Option.bind_eq_some_iff.mp h
    obtain ⟨timestamp, -, h⟩ := Option.bind_eq_some_iff.mp h
    obtain ⟨parsed, -, rfl⟩ := Option.map_eq_some_iff.mp h
    unfold isUser
    rw [hdata]
    exact iff_of_true rfl rfl
  next hdata =>
    obtain rfl := Option.some.inj h
    unfold isUser
    split
    next request events huser => exact absurd huser (hdata request events)
    next => exact iff_of_false Bool.false_ne_true Bool.false_ne_true

/-- The rows are those of the individual signatures. -/
theorem rowOf_individualsOf {txn : Transaction}
    (h : (parseTransaction sdk txn).isSome = true) :
    List.Forall₂ (RowOf txn.txnVersion) (transactionSignatures sdk txn) (individualsOf txn) := by
  obtain ⟨out, hout⟩ := Option.isSome_iff_exists.mp h
  unfold transactionSignatures individualsOf
  rw [hout]
  cases out with
  | none =>
    have huser : isUser txn = false := by
      rw [← Bool.not_eq_true, isUser_iff_of_parse hout]
      exact Bool.false_ne_true
    unfold isUser at huser
    split at huser
    next => cases huser
    next hnone =>
      split
      next request events hdata => exact absurd hdata (hnone (some request) events)
      next => exact List.Forall₂.nil
  | some parsed =>
    obtain ⟨userTransaction, rows⟩ := parsed
    obtain ⟨request, events, info, feeStatement, timestamp, hdata, -, -, hparsed⟩ :=
      parts_of_parse hout
    obtain ⟨userRequest, rfl, hrows, -⟩ := signatures_of_fromTransaction hparsed
    rw [hdata]
    unfold getSignatures at hrows
    cases hsignature : userRequest.signature with
    | none =>
      rw [hsignature] at hrows
      obtain rfl := Option.some.inj hrows
      simp only [hsignature, Option.bind_none]
      exact List.Forall₂.nil
    | some s =>
      rw [hsignature] at hrows
      obtain ⟨e, he, hforall⟩ := rowOf_individuals hrows
      simp only [hsignature, Option.bind_some, he]
      exact hforall

/-- A batch is stored only if all of it can be parsed. -/
theorem rows_of_batchWrites {batch : List Transaction} {ws : List UserWrite}
    (h : batchWrites sdk batch = some ws) :
    (∀ txn ∈ batch, (parseTransaction sdk txn).isSome = true) ∧
      ws = (batch.flatMap (userRowsOf sdk)).map
          (fun row => Sum.inl (row.version, ⟨row, insertUserTransactionsQuery⟩)) ++
        (batch.flatMap (signatureRowsOf sdk)).map
          fun row => Sum.inr (row.pk, ⟨row, insertSignaturesQuery⟩) := by
  unfold batchWrites at h
  obtain ⟨⟨userTransactions, signatures⟩, hparse, h⟩ := Option.bind_eq_some_iff.mp h
  obtain rfl := Option.some.inj h
  have hsignatures := signatures_of_userTransactionParse hparse
  unfold userTransactionParse at hparse
  obtain ⟨parsed, hparsed, hout⟩ := Option.bind_eq_some_iff.mp hparse
  rw [Option.pure_def, Option.some_inj, Prod.mk.injEq] at hout
  obtain ⟨rfl, -⟩ := hout
  refine ⟨isSome_mapM_iff.mp (Option.isSome_iff_exists.mpr ⟨parsed, hparsed⟩), ?_⟩
  have husers : (parsed.reduceOption.map (·.1)).map (PostgresUserTransaction.ofBase sdk) =
      batch.flatMap (userRowsOf sdk) := by
    rw [reduceOption_of_mapM hparsed, List.map_map, List.map_filterMap,
      List.filterMap_eq_flatMap_toList]
    rfl
  have hrows : signatures.map PostgresSignature.ofBase = batch.flatMap (signatureRowsOf sdk) := by
    rw [hsignatures, List.map_flatMap]
    rfl
  rw [husers, hrows]

/-! ## The processor's tables -/

theorem version_of_mem_userRowsOf {txn : Transaction} {row : PostgresUserTransaction}
    (h : row ∈ userRowsOf sdk txn) : row.version = txn.txnVersion := by
  obtain ⟨⟨userTransaction, rows⟩, hout, rfl⟩ := Option.map_eq_some_iff.mp (Option.mem_toList.mp h)
  obtain ⟨request, events, info, feeStatement, timestamp, -, -, -, hparsed⟩ :=
    parts_of_parse (Option.join_eq_some_iff.mp hout)
  unfold fromTransaction at hparsed
  obtain ⟨userRequest, -, hparsed⟩ := Option.bind_eq_some_iff.mp hparsed
  obtain ⟨feePayer, -, hparsed⟩ := Option.bind_eq_some_iff.mp hparsed
  obtain ⟨signatures, -, hparsed⟩ := Option.bind_eq_some_iff.mp hparsed
  obtain ⟨expiration, -, hparsed⟩ := Option.bind_eq_some_iff.mp hparsed
  rw [Option.pure_def, Option.some_inj, Prod.mk.injEq] at hparsed
  obtain ⟨rfl, -⟩ := hparsed
  rfl

theorem version_of_mem_signatureRowsOf {txn : Transaction} {row : PostgresSignature}
    (h : row ∈ signatureRowsOf sdk txn) : row.transactionVersion = txn.txnVersion := by
  obtain ⟨raw, hraw, rfl⟩ := List.mem_map.mp h
  exact (nodup_pk_transactionSignatures txn).2 raw hraw

theorem keyedRows_userTransactions (ledger : Ledger Transaction) :
    (userTransactionProcessor boot sdk).KeyedRows ledger.txns Sum.getLeft? (userRowsOf sdk)
      PostgresUserTransaction.version insertUserTransactionsQuery where
  unique := by
    intro row hrow row' hrow' hversion
    obtain ⟨txn, htxn, hrow⟩ := List.mem_flatMap.mp hrow
    obtain ⟨txn', htxn', hrow'⟩ := List.mem_flatMap.mp hrow'
    rw [version_of_mem_userRowsOf hrow, version_of_mem_userRowsOf hrow'] at hversion
    obtain rfl := ledger.eq_of_version htxn htxn' hversion
    exact Option.some.inj
      ((Option.mem_toList.mp hrow).symm.trans (Option.mem_toList.mp hrow'))
  query_self _ := rfl
  writes_eq := by
    intro b _ ws hws k w
    rw [(rows_of_batchWrites hws).2]
    simp

theorem keyedRows_signatures (ledger : Ledger Transaction) :
    (userTransactionProcessor boot sdk).KeyedRows ledger.txns Sum.getRight? (signatureRowsOf sdk)
      PostgresSignature.pk insertSignaturesQuery where
  unique := by
    intro row hrow row' hrow' hpk
    obtain ⟨txn, htxn, hrow⟩ := List.mem_flatMap.mp hrow
    obtain ⟨txn', htxn', hrow'⟩ := List.mem_flatMap.mp hrow'
    have hversion := congrArg Prod.fst hpk
    rw [PostgresSignature.pk, PostgresSignature.pk, version_of_mem_signatureRowsOf hrow,
      version_of_mem_signatureRowsOf hrow'] at hversion
    obtain rfl := ledger.eq_of_version htxn htxn' hversion
    -- the keys of one transaction's rows are distinct
    obtain ⟨raw, hraw, rfl⟩ := List.mem_map.mp hrow
    obtain ⟨raw', hraw', rfl⟩ := List.mem_map.mp hrow'
    have hnodup : ((transactionSignatures sdk txn).map (·.pk)).Nodup :=
      (nodup_pk_transactionSignatures txn).1
    exact congrArg _ (List.inj_on_of_nodup_map hnodup hraw hraw' hpk)
  query_self _ := rfl
  writes_eq := by
    intro b _ ws hws k w
    rw [(rows_of_batchWrites hws).2]
    simp

/-- What a processor has passed it could parse. -/
theorem parse_of_caught_up {ledger : Ledger Transaction}
    {st : Indexed StatusDb Transaction UserWrite}
    (hreach : (userTransactionProcessor boot sdk).Reach ledger.txns st) {next : ℕ}
    (hcaught : (userTransactionProcessor boot sdk).CaughtUp st next) :
    ∀ txn ∈ (userTransactionProcessor boot sdk).span ledger.txns next,
      (parseTransaction sdk txn).isSome = true := by
  intro txn htxn
  obtain ⟨b, ws, hmem, hws⟩ :=
    Processor.exists_writes_of_caught_up ledger.pairwise_toNat hreach hcaught htxn
  exact (rows_of_batchWrites hws).1 txn hmem

end Rows

/-- The row of an individual signature: it has the bytes, where there are any. -/
def Stores (row : PostgresSignature) (one : Individual) : Prop :=
  one.type ≠ .abstraction → ∃ bytes, one.bytes = some bytes ∧ row.signature = hex0x bytes

/-- **Restarts leave no trace in the signatures.** However often the processor died and
wherever in a batch: as soon as it is past everything it ever touched, there is one row
for each user transaction since the first version, and one for each of its individual
signatures, in its place in the tree and with its bytes; and no other row. -/
theorem signatures_survive_restarts (boot : BootStrapConfig) (sdk : Sdk)
    (ledger : Ledger Transaction) (st : Indexed StatusDb Transaction UserWrite)
    (hreach : (userTransactionProcessor boot sdk).Reach ledger.txns st) (next : ℕ)
    (hcaught : (userTransactionProcessor boot sdk).CaughtUp st next) :
    let passed := ledger.txns.filter fun txn =>
      boot.initialStartingVersion.toNat ≤ txn.version.toNat ∧ txn.version.toNat < next
    (∀ version row, (userTransactionTable st.log).lookup version = some row ↔
      ∃ txn ∈ passed, txn.txnVersion = version ∧ userRowsOf sdk txn = [row]) ∧
    (∀ txn ∈ passed, isUser txn = true →
      ((userTransactionTable st.log).lookup txn.txnVersion).isSome) ∧
    (∀ txn ∈ passed, ∀ one ∈ individualsOf txn, ∃ row,
      (signatureTable st.log).lookup (txn.txnVersion, one.place) = some row ∧ Stores row one) ∧
    ∀ key row, (signatureTable st.log).lookup key = some row →
      ∃ txn ∈ passed, ∃ one ∈ individualsOf txn,
        key = (txn.txnVersion, one.place) ∧ Stores row one := by
  intro passed
  have hspan : (userTransactionProcessor boot sdk).span ledger.txns next = passed :=
    span_defaultCheckpoints ledger next
  have hparse := parse_of_caught_up hreach hcaught
  have husers := fun version row => Processor.mem_of_caught_up (k := version) (r := row)
    (keyedRows_userTransactions ledger) ledger.pairwise_toNat hreach hcaught
  have hsignatures := fun key row => Processor.mem_of_caught_up (k := key) (r := row)
    (keyedRows_signatures ledger) ledger.pairwise_toNat hreach hcaught
  -- Both tables have just the rows of the passed transactions; what remains is which rows
  -- one transaction has.
  rw [hspan] at hparse
  simp only [hspan] at husers hsignatures
  refine ⟨fun version row => ?_, fun txn htxn huser => ?_, fun txn htxn one hone => ?_,
    fun key row hrow => ?_⟩
  · rw [userTransactionTable, husers, List.mem_flatMap]
    constructor
    · rintro ⟨⟨txn, htxn, hrow⟩, rfl⟩
      refine ⟨txn, htxn, (version_of_mem_userRowsOf hrow).symm, ?_⟩
      have hsome : _ = some row := Option.mem_toList.mp hrow
      rw [userRowsOf, hsome, Option.toList_some]
    · rintro ⟨txn, htxn, rfl, hrow⟩
      have hmem : row ∈ userRowsOf sdk txn := hrow ▸ List.mem_singleton_self row
      exact ⟨⟨txn, htxn, hmem⟩, version_of_mem_userRowsOf hmem⟩
  · obtain ⟨out, hout⟩ := Option.isSome_iff_exists.mp (hparse txn htxn)
    obtain ⟨parsed, rfl⟩ := Option.isSome_iff_exists.mp ((isUser_iff_of_parse hout).mp huser)
    have hmem : PostgresUserTransaction.ofBase sdk parsed.1 ∈ userRowsOf sdk txn := by
      rw [userRowsOf, hout]
      exact List.mem_singleton_self _
    have hlookup := (husers txn.txnVersion _).mpr
      ⟨List.mem_flatMap.mpr ⟨txn, htxn, hmem⟩, version_of_mem_userRowsOf hmem⟩
    rw [userTransactionTable, hlookup]
    rfl
  -- Its individual signatures and its rows go side by side.
  · obtain ⟨raw, hraw, hof⟩ :=
      exists_of_forall₂_right (rowOf_individualsOf (hparse txn htxn)) hone
    refine ⟨PostgresSignature.ofBase raw, ?_, hof.bytes⟩
    rw [signatureTable, hsignatures]
    exact ⟨List.mem_flatMap.mpr ⟨txn, htxn, List.mem_map_of_mem hraw⟩, hof.pk⟩
  · rw [signatureTable, hsignatures] at hrow
    obtain ⟨hmem, rfl⟩ := hrow
    obtain ⟨txn, htxn, hmem⟩ := List.mem_flatMap.mp hmem
    obtain ⟨raw, hraw, rfl⟩ := List.mem_map.mp hmem
    have hforall := rowOf_individualsOf (hparse txn htxn)
    obtain ⟨one, hone, hof⟩ := exists_of_forall₂_right (List.Forall₂.flip (R := flip _) hforall) hraw
    exact ⟨txn, htxn, one, hone, hof.pk, hof.bytes⟩

/-- The row of the second transaction is stored, its signatures are not; the next life
stores both transactions. -/
theorem signature_stored_across_lives :
    let p := userTransactionProcessor ⟨1⟩ plainSdk.toSdk
    ∃ st : Indexed StatusDb Transaction UserWrite,
      p.Reach [feePayerTxn 1, feePayerTxn 2] st ∧ p.CaughtUp st 3 ∧ st.torn = [[feePayerTxn 2]] ∧
      ∃ row, (signatureTable st.log).lookup (2, 0, 0, false) = some row ∧
        row.signature = hex0x [9] := by
  intro p
  let ledger : Ledger Transaction := ⟨[feePayerTxn 1, feePayerTxn 2], by decide, by decide⟩
  have hpart : ((p.writes [feePayerTxn 2]).getD []).filter Sum.isLeft ⊆
      (p.writes [feePayerTxn 2]).getD [] := List.filter_sublist.subset
  obtain ⟨hreach, hcaught⟩ := Processor.reach_twoLives (p := p) (a := feePayerTxn 1)
    (b := feePayerTxn 2) (by decide) (by decide) (by decide +kernel) (by decide +kernel)
    (by decide +kernel) hpart
  obtain ⟨-, -, hstored, -⟩ :=
    signatures_survive_restarts ⟨1⟩ plainSdk.toSdk ledger _ hreach 3 hcaught
  have hpassed : feePayerTxn 2 ∈ ledger.txns.filter fun txn =>
      (1 : UInt64).toNat ≤ txn.version.toNat ∧ txn.version.toNat < 3 :=
    List.mem_filter.mpr ⟨List.mem_cons_of_mem _ (List.mem_singleton_self _), by decide⟩
  -- the third of its signatures is that of the secondary signer
  have hone : (individualsOf (feePayerTxn 2))[2]? =
      some ⟨some (0, "0xb"), .ed25519, 0, some [9]⟩ := rfl
  obtain ⟨row, hrow, hbytes⟩ := hstored _ hpassed _ (List.mem_of_getElem? hone)
  refine ⟨_, hreach, hcaught, rfl, row, hrow, ?_⟩
  obtain ⟨bytes, heq, hsignature⟩ := hbytes (by decide)
  obtain rfl := Option.some.inj heq
  exact hsignature

end IndexerProcessors.UserTransaction

import IndexerProcessors.AccountRestoration.Keys
import IndexerProcessors.FungibleAsset.Events

/-!
# User transactions and their signatures

A user transaction is signed by its sender and, if it is a multi agent or a fee payer
transaction, by further accounts; each of these account signatures is of one of five
kinds, two of which are made of several signatures. `get_signatures` flattens the
tree into rows, one for each individual signature, with the address of the signer, the
key and the place in the tree.

The functions have the parameters of the source, in its order. `none` is a panic: a
part of the protobuf that is not there, an index beyond its list.
-/

namespace IndexerProcessors.UserTransaction

open IndexerProcessors.AccountRestoration
open IndexerProcessors.Lib
open IndexerProcessors.WriteSet (Bytes AnyPublicKey)

/-! ## Signatures in the stream -/

structure Ed25519Signature where
  publicKey : Bytes
  signature : Bytes
  deriving DecidableEq

structure MultiEd25519Signature where
  publicKeys : List Bytes
  signatures : List Bytes
  threshold : UInt32
  publicKeyIndices : List UInt32
  deriving DecidableEq

inductive AnySignatureType where
  | unspecified
  | ed25519
  | secp256k1Ecdsa
  | webauthn
  | keyless
  | slhDsaSha2128s
  deriving DecidableEq

inductive SignatureVariant where
  | ed25519 (signature : Bytes)
  | secp256k1Ecdsa (signature : Bytes)
  | webauthn (signature : Bytes)
  | keyless (signature : Bytes)
  | slhDsaSha2128s (signature : Bytes)
  deriving DecidableEq

/-- A signature of any type; `signature` is where older nodes put its bytes. -/
structure AnySignature where
  type : AnySignatureType
  signature : Bytes
  signatureVariant : Option SignatureVariant
  deriving DecidableEq

structure SingleKeySignature where
  publicKey : Option AnyPublicKey
  signature : Option AnySignature
  deriving DecidableEq

/-- A signature of a multi key account, by the key with this index. -/
structure IndexedSignature where
  index : UInt32
  signature : Option AnySignature
  deriving DecidableEq

structure MultiKeySignature where
  publicKeys : List AnyPublicKey
  signatures : List IndexedSignature
  signaturesRequired : UInt32
  deriving DecidableEq

inductive AccountSignatureType where
  | unspecified
  | ed25519
  | multiEd25519
  | singleKey
  | multiKey
  | abstraction
  deriving DecidableEq

/-- What an account signs with. Nothing of an abstraction is read. -/
inductive AccountSignatureEnum where
  | ed25519 (sig : Ed25519Signature)
  | multiEd25519 (sig : MultiEd25519Signature)
  | singleKeySignature (sig : SingleKeySignature)
  | multiKeySignature (sig : MultiKeySignature)
  | abstraction
  deriving DecidableEq

/-- An account's signature, with its type beside it; none if it is of a kind that is
not known. -/
structure AccountSignature where
  type : AccountSignatureType
  signature : Option AccountSignatureEnum
  deriving DecidableEq

structure MultiAgentSignature where
  sender : Option AccountSignature
  secondarySignerAddresses : List String
  secondarySigners : List AccountSignature
  deriving DecidableEq

structure FeePayerSignature where
  sender : Option AccountSignature
  secondarySignerAddresses : List String
  secondarySigners : List AccountSignature
  feePayerAddress : String
  deriving DecidableEq

structure SingleSender where
  sender : Option AccountSignature
  deriving DecidableEq

inductive SignatureType where
  | unspecified
  | ed25519
  | multiEd25519
  | multiAgent
  | feePayer
  | singleSender
  deriving DecidableEq

inductive SignatureEnum where
  | ed25519 (sig : Ed25519Signature)
  | multiEd25519 (sig : MultiEd25519Signature)
  | multiAgent (sig : MultiAgentSignature)
  | feePayer (sig : FeePayerSignature)
  | singleSender (sig : SingleSender)
  deriving DecidableEq

/-- The signature of a transaction: the protobuf's `Signature`. -/
structure SignaturePb where
  type : SignatureType
  signature : Option SignatureEnum
  deriving DecidableEq

/-! ## Transactions -/

/-- A user's request. The parts of its payload are as the functions of the SDK find
them. -/
structure UserTransactionRequest where
  sender : String
  sequenceNumber : UInt64
  maxGasAmount : UInt64
  gasUnitPrice : UInt64
  expirationTimestampSecs : Option Timestamp
  signature : Option SignaturePb
  replayProtectionNonce : Option UInt64
  entryFunctionIdStr : Option String
  entryFunctionContractAddress : Option String
  entryFunctionModuleName : Option String
  entryFunctionFunctionName : Option String
  deriving DecidableEq

inductive TxnData where
  | blockMetadata (events : List Protos.Event)
  | genesis (events : List Protos.Event)
  | user (request : Option UserTransactionRequest) (events : List Protos.Event)
  | validator (events : List Protos.Event)
  | other
  deriving DecidableEq

structure Transaction where
  version : UInt64
  blockHeight : UInt64
  epoch : UInt64
  timestamp : Option Timestamp
  info : Option WriteSet.TransactionInfo
  txnData : Option TxnData

/-- The version as the tables store it. -/
def Transaction.txnVersion (txn : Transaction) : Int64 := txn.version.toInt64

/-! ## Rows -/

/-- A row of `signatures`. Lengths of lists and unsigned 32-bit numbers fit in the `i64`
columns; the indices of the keys are a JSON array of numbers. -/
structure Signature where
  transactionVersion : Int64
  multiAgentIndex : ℕ
  multiSigIndex : ℕ
  transactionBlockHeight : Int64
  signer : String
  isSenderPrimary : Bool
  accountSignatureType : String
  anySignatureType : Option String
  publicKeyType : Option String
  publicKey : String
  signature : String
  threshold : ℕ
  publicKeyIndices : List ℕ
  blockTimestamp : NaiveDateTime
  deriving DecidableEq

/-- The conflict key of `insert_signatures_query`. -/
abbrev SignaturePK := Int64 × ℕ × ℕ × Bool

def Signature.pk (row : Signature) : SignaturePK :=
  (row.transactionVersion, row.multiAgentIndex, row.multiSigIndex, row.isSenderPrimary)

/-! ## One account's signature -/

/-- `get_any_signature_type`. -/
def getAnySignatureType (anySignature : AnySignature) : String :=
  match anySignature.type with
  | .ed25519 => "ed25519"
  | .secp256k1Ecdsa => "secp256k1_ecdsa"
  | .webauthn => "webauthn"
  | .keyless => "keyless"
  | .slhDsaSha2128s => "slh_dsa_sha2_128s"
  | .unspecified => "unknown"

/-- `get_any_signature_bytes_from_variant`. -/
def getAnySignatureBytesFromVariant : SignatureVariant → Bytes
  | .ed25519 signature => signature
  | .keyless signature => signature
  | .webauthn signature => signature
  | .secp256k1Ecdsa signature => signature
  | .slhDsaSha2128s signature => signature

/-- `get_any_signature_bytes`. -/
def getAnySignatureBytes (signature : AnySignature) : Bytes :=
  (signature.signatureVariant.map getAnySignatureBytesFromVariant).getD signature.signature

/-- `get_account_signature_type_from_enum`. -/
def getAccountSignatureTypeFromEnum : AccountSignatureType → String
  | .ed25519 => "ed25519_signature"
  | .multiEd25519 => "multi_ed25519_signature"
  | .singleKey => "single_key_signature"
  | .multiKey => "multi_key_signature"
  | .abstraction => "abstraction_signature"
  | .unspecified => "unknown"

/-- `get_account_signature_type`. -/
def getAccountSignatureType (accountSignature : AccountSignature) : String :=
  getAccountSignatureTypeFromEnum accountSignature.type

section

variable (sdk : Sdk)

/-- `parse_ed25519_signature`. -/
def parseEd25519Signature (s : Ed25519Signature) (accountSignatureType sender : String)
    (transactionVersion transactionBlockHeight : Int64) (isSenderPrimary : Bool)
    (multiAgentIndex : ℕ) (overrideAddress : Option String) (blockTimestamp : NaiveDateTime) :
    Signature where
  transactionVersion := transactionVersion
  multiAgentIndex := multiAgentIndex
  multiSigIndex := 0
  transactionBlockHeight := transactionBlockHeight
  signer := sdk.standardizeAddress (overrideAddress.getD sender)
  isSenderPrimary := isSenderPrimary
  accountSignatureType := accountSignatureType
  anySignatureType := none
  publicKeyType := none
  publicKey := hex0x s.publicKey
  signature := hex0x s.signature
  threshold := 1
  publicKeyIndices := []
  blockTimestamp := blockTimestamp

/-- `get_public_key_indices_from_multi_ed25519_signature`. -/
def getPublicKeyIndicesFromMultiEd25519Signature (s : MultiEd25519Signature) : List ℕ :=
  s.publicKeyIndices.map (·.toNat)

/-- `parse_multi_ed25519_signature`: the key of a signature is the one the list of
indices has in its place. -/
def parseMultiEd25519Signature (s : MultiEd25519Signature) (accountSignatureType sender : String)
    (transactionVersion transactionBlockHeight : Int64) (isSenderPrimary : Bool)
    (multiAgentIndex : ℕ) (overrideAddress : Option String) (blockTimestamp : NaiveDateTime) :
    Option (List Signature) :=
  let publicKeyIndices := getPublicKeyIndicesFromMultiEd25519Signature s
  s.signatures.zipIdx.mapM fun (signature, index) => do
    let publicKeyIndex ← publicKeyIndices[index]?
    let publicKey ← s.publicKeys[publicKeyIndex]?
    return {
      transactionVersion
      multiAgentIndex
      multiSigIndex := index
      transactionBlockHeight
      signer := sdk.standardizeAddress (overrideAddress.getD sender)
      isSenderPrimary
      accountSignatureType
      anySignatureType := none
      publicKeyType := none
      publicKey := hex0x publicKey
      signature := hex0x signature
      threshold := s.threshold.toNat
      publicKeyIndices
      blockTimestamp }

/-- `parse_single_key_signature`. -/
def parseSingleKeySignature (s : SingleKeySignature) (accountSignatureType sender : String)
    (transactionVersion transactionBlockHeight : Int64) (isSenderPrimary : Bool)
    (multiAgentIndex : ℕ) (overrideAddress : Option String) (blockTimestamp : NaiveDateTime) :
    Option Signature := do
  let anySignature ← s.signature
  let anyPublicKey ← s.publicKey
  return {
    transactionVersion
    multiAgentIndex
    multiSigIndex := 0
    transactionBlockHeight
    signer := sdk.standardizeAddress (overrideAddress.getD sender)
    isSenderPrimary
    accountSignatureType
    anySignatureType := some (getAnySignatureType anySignature)
    publicKeyType := some (getAnyPublicKeyType anyPublicKey)
    publicKey := hex0x anyPublicKey.publicKey
    signature := hex0x (getAnySignatureBytes anySignature)
    threshold := 1
    publicKeyIndices := []
    blockTimestamp }

/-- `get_public_key_indices_from_multi_key_signature`. -/
def getPublicKeyIndicesFromMultiKeySignature (s : MultiKeySignature) : List ℕ :=
  s.signatures.map fun key => key.index.toNat

/-- `parse_multi_key_signature`: the key of a signature is the one in the place that
the signature has among the signatures. -/
def parseMultiKeySignature (s : MultiKeySignature) (accountSignatureType sender : String)
    (transactionVersion transactionBlockHeight : Int64) (isSenderPrimary : Bool)
    (multiAgentIndex : ℕ) (overrideAddress : Option String) (blockTimestamp : NaiveDateTime) :
    Option (List Signature) :=
  let publicKeyIndices := getPublicKeyIndicesFromMultiKeySignature s
  s.signatures.zipIdx.mapM fun (signature, index) => do
    let anyPublicKey ← s.publicKeys[index]?
    let anySignature ← signature.signature
    return {
      transactionVersion
      multiAgentIndex
      multiSigIndex := index
      transactionBlockHeight
      signer := sdk.standardizeAddress (overrideAddress.getD sender)
      isSenderPrimary
      accountSignatureType
      anySignatureType := some (getAnySignatureType anySignature)
      publicKeyType := some (getAnyPublicKeyType anyPublicKey)
      publicKey := hex0x anyPublicKey.publicKey
      signature := hex0x (getAnySignatureBytes anySignature)
      threshold := s.signaturesRequired.toNat
      publicKeyIndices
      blockTimestamp }

/-- `parse_abstraction_signature`. -/
def parseAbstractionSignature (sender accountSignatureType : String)
    (transactionVersion transactionBlockHeight : Int64) (isSenderPrimary : Bool)
    (multiAgentIndex : ℕ) (overrideAddress : Option String) (blockTimestamp : NaiveDateTime) :
    Signature where
  transactionVersion := transactionVersion
  multiAgentIndex := multiAgentIndex
  multiSigIndex := 0
  transactionBlockHeight := transactionBlockHeight
  signer := sdk.standardizeAddress (overrideAddress.getD sender)
  isSenderPrimary := isSenderPrimary
  accountSignatureType := accountSignatureType
  anySignatureType := none
  publicKeyType := none
  publicKey := "Not implemented"
  signature := "Not implemented"
  threshold := 1
  publicKeyIndices := []
  blockTimestamp := blockTimestamp

/-- `from_account_signature`. A signature of an unknown kind is skipped. -/
def fromAccountSignature (s : AccountSignature) (sender : String)
    (transactionVersion transactionBlockHeight : Int64) (isSenderPrimary : Bool)
    (multiAgentIndex : ℕ) (overrideAddress : Option String) (blockTimestamp : NaiveDateTime) :
    Option (List Signature) :=
  let accountSignatureType := getAccountSignatureType s
  match s.signature with
  | none => some []
  | some (.ed25519 sig) =>
    some [parseEd25519Signature sdk sig accountSignatureType sender transactionVersion
      transactionBlockHeight isSenderPrimary multiAgentIndex overrideAddress blockTimestamp]
  | some (.multiEd25519 sig) =>
    parseMultiEd25519Signature sdk sig accountSignatureType sender transactionVersion
      transactionBlockHeight isSenderPrimary multiAgentIndex overrideAddress blockTimestamp
  | some (.singleKeySignature sig) =>
    (parseSingleKeySignature sdk sig accountSignatureType sender transactionVersion
      transactionBlockHeight isSenderPrimary multiAgentIndex overrideAddress
      blockTimestamp).map ([·])
  | some (.multiKeySignature sig) =>
    parseMultiKeySignature sdk sig accountSignatureType sender transactionVersion
      transactionBlockHeight isSenderPrimary multiAgentIndex overrideAddress blockTimestamp
  | some .abstraction =>
    -- the source gives the type for the sender and the sender for the type
    some [parseAbstractionSignature sdk accountSignatureType sender transactionVersion
      transactionBlockHeight isSenderPrimary multiAgentIndex overrideAddress blockTimestamp]

/-! ## The signature of a transaction -/

/-- What the multi agent and the fee payer signature do alike: the sender's signature,
then one for each secondary address. -/
def parseAllSigners (senderSignature : Option AccountSignature)
    (secondarySignerAddresses : List String) (secondarySigners : List AccountSignature)
    (sender : String) (transactionVersion transactionBlockHeight : Int64)
    (blockTimestamp : NaiveDateTime) : Option (List Signature) := do
  let senderRows ← fromAccountSignature sdk (← senderSignature) sender transactionVersion
    transactionBlockHeight true 0 none blockTimestamp
  let secondaryRows ← secondarySignerAddresses.zipIdx.mapM fun (address, index) => do
    let secondarySig ← secondarySigners[index]?
    fromAccountSignature sdk secondarySig sender transactionVersion transactionBlockHeight false
      index (some address) blockTimestamp
  return senderRows ++ secondaryRows.flatten

/-- `parse_multi_agent_signature`. -/
def parseMultiAgentSignature (s : MultiAgentSignature) (sender : String)
    (transactionVersion transactionBlockHeight : Int64) (blockTimestamp : NaiveDateTime) :
    Option (List Signature) :=
  parseAllSigners sdk s.sender s.secondarySignerAddresses s.secondarySigners sender
    transactionVersion transactionBlockHeight blockTimestamp

/-- `parse_fee_payer_signature`. -/
def parseFeePayerSignature (s : FeePayerSignature) (sender : String)
    (transactionVersion transactionBlockHeight : Int64) (blockTimestamp : NaiveDateTime) :
    Option (List Signature) :=
  parseAllSigners sdk s.sender s.secondarySignerAddresses s.secondarySigners sender
    transactionVersion transactionBlockHeight blockTimestamp

/-- `parse_single_sender`. -/
def parseSingleSender (s : SingleSender) (sender : String)
    (transactionVersion transactionBlockHeight : Int64) (blockTimestamp : NaiveDateTime) :
    Option (List Signature) := do
  let signature ← s.sender
  if signature.signature.isNone then return []
  fromAccountSignature sdk signature sender transactionVersion transactionBlockHeight true 0 none
    blockTimestamp

/-- `from_parent_signature`. -/
def fromParentSignature (s : SignaturePb) (sender : String)
    (transactionVersion transactionBlockHeight : Int64) (isSenderPrimary : Bool)
    (multiAgentIndex : ℕ) (overrideAddress : Option String) (blockTimestamp : NaiveDateTime) :
    Option (List Signature) := do
  match ← s.signature with
  | .ed25519 sig =>
    return [parseEd25519Signature sdk sig (getAccountSignatureTypeFromEnum .ed25519) sender
      transactionVersion transactionBlockHeight isSenderPrimary multiAgentIndex overrideAddress
      blockTimestamp]
  | .multiEd25519 sig =>
    parseMultiEd25519Signature sdk sig (getAccountSignatureTypeFromEnum .multiEd25519) sender
      transactionVersion transactionBlockHeight isSenderPrimary multiAgentIndex overrideAddress
      blockTimestamp
  | .multiAgent sig =>
    parseMultiAgentSignature sdk sig sender transactionVersion transactionBlockHeight
      blockTimestamp
  | .feePayer sig =>
    parseFeePayerSignature sdk sig sender transactionVersion transactionBlockHeight
      blockTimestamp
  | .singleSender sig =>
    parseSingleSender sdk sig sender transactionVersion transactionBlockHeight blockTimestamp

/-- `Signature::from_user_transaction`. -/
def fromUserTransaction (s : SignaturePb) (sender : String)
    (transactionVersion transactionBlockHeight : Int64) (blockTimestamp : NaiveDateTime) :
    Option (List Signature) :=
  fromParentSignature sdk s sender transactionVersion transactionBlockHeight true 0 none
    blockTimestamp

/-- `UserTransaction::get_signatures`: no rows without a signature. -/
def getSignatures (userRequest : UserTransactionRequest) (version blockHeight : Int64)
    (blockTimestamp : NaiveDateTime) : Option (List Signature) :=
  match userRequest.signature with
  | none => some []
  | some s => fromUserTransaction sdk s userRequest.sender version blockHeight blockTimestamp

/-! ## User transactions -/

/-- `get_parent_signature_type`. -/
def getParentSignatureType (t : SignaturePb) : String :=
  match t.type with
  | .ed25519 => "ed25519_signature"
  | .multiEd25519 => "multi_ed25519_signature"
  | .multiAgent => "multi_agent_signature"
  | .feePayer => "fee_payer_signature"
  | .singleSender => "single_sender_signature"
  | .unspecified => "unknown"

/-- `get_fee_payer_address`; the outer `none` is the panic on an unknown signature. -/
def getFeePayerAddress (t : SignaturePb) : Option (Option String) :=
  t.signature.map fun
    | .feePayer sig => some (sdk.standardizeAddress sig.feePayerAddress)
    | _ => none

/-- The `gas_fee_payer_address` of a request. -/
def gasFeePayerAddressOf : Option SignaturePb → Option (Option String)
  | some signature => getFeePayerAddress sdk signature
  | none => some none

/-- `UserTransactionModel`: a row of `user_transactions`. -/
structure UserTransactionModel where
  txnVersion : Int64
  blockHeight : Int64
  parentSignatureType : String
  sender : String
  sequenceNumber : Option Int64
  replayProtectionNonce : Option ℕ
  maxGasAmount : ℕ
  expirationTimestampSecs : Timestamp
  gasUnitPrice : ℕ
  gasUsedUnit : UInt64
  blockTimestamp : NaiveDateTime
  entryFunctionIdStr : String
  epoch : Int64
  entryFunctionContractAddress : Option String
  entryFunctionModuleName : Option String
  entryFunctionFunctionName : Option String
  numSignatures : ℕ
  isTransactionSuccess : Bool
  storageRefundOcta : UInt64
  gasFeePayerAddress : Option String

/-- `UserTransaction::from_transaction`, of the request of a user transaction. -/
def fromTransaction (request : Option UserTransactionRequest) (txnInfo : WriteSet.TransactionInfo)
    (feeStatement : Option FungibleAsset.FeeStatement) (timestamp : Timestamp)
    (blockHeight epoch version : Int64) : Option (UserTransactionModel × List Signature) := do
  let userRequest ← request
  let gasFeePayerAddress ← gasFeePayerAddressOf sdk userRequest.signature
  let blockTimestamp := sdk.parseTimestamp timestamp version
  let signatures ← getSignatures sdk userRequest version blockHeight blockTimestamp
  let expirationTimestampSecs ← userRequest.expirationTimestampSecs
  return (
    { txnVersion := version
      blockHeight
      parentSignatureType := (userRequest.signature.map getParentSignatureType).getD ""
      sender := sdk.standardizeAddress userRequest.sender
      sequenceNumber :=
        if userRequest.replayProtectionNonce.isNone then
          some userRequest.sequenceNumber.toInt64
        else none
      replayProtectionNonce := userRequest.replayProtectionNonce.map (·.toNat)
      maxGasAmount := userRequest.maxGasAmount.toNat
      expirationTimestampSecs
      gasUnitPrice := userRequest.gasUnitPrice.toNat
      gasUsedUnit := txnInfo.gasUsed
      blockTimestamp
      entryFunctionIdStr := userRequest.entryFunctionIdStr.getD ""
      epoch
      entryFunctionContractAddress := some (userRequest.entryFunctionContractAddress.getD "")
      entryFunctionModuleName := some (userRequest.entryFunctionModuleName.getD "")
      entryFunctionFunctionName := some (userRequest.entryFunctionFunctionName.getD "")
      numSignatures := signatures.length
      isTransactionSuccess := txnInfo.success
      storageRefundOcta := (feeStatement.map (·.storageFeeRefundOctas)).getD 0
      gasFeePayerAddress },
    signatures)

/-- The body of the loop of `user_transaction_parse`: no row unless it is a user
transaction. -/
def parseTransaction (txn : Transaction) : Option (Option (UserTransactionModel × List Signature)) := do
  let transactionInfo ← txn.info
  match txn.txnData with
  | some (.user request events) =>
    let feeStatement ← FungibleAsset.findFeeStatement sdk
      (events.map fun event => (event.typeStr, event.data))
    let timestamp ← txn.timestamp
    (fromTransaction sdk request transactionInfo feeStatement timestamp
      txn.blockHeight.toInt64 txn.epoch.toInt64 txn.txnVersion).map some
  | _ => return none

/-- `user_transaction_parse`. -/
def userTransactionParse (transactions : List Transaction) :
    Option (List UserTransactionModel × List Signature) := do
  let parsed ← transactions.mapM (parseTransaction sdk)
  return (parsed.reduceOption.map (·.1), parsed.reduceOption.flatMap (·.2))

end

end IndexerProcessors.UserTransaction

import IndexerProcessors.Lib.Fallible
import IndexerProcessors.Lib.LastWriter
import IndexerProcessors.Lib.SortDedup
import IndexerProcessors.Resources
import IndexerProcessors.WriteSet
import Mathlib.Data.Prod.Lex
import Mathlib.Data.String.Basic

/-!
# Keys of accounts

The account restoration processor records, for every transaction of a multi key
account, which keys the account has and which of them signed. A batch of
transactions gives a list of `public_key_auth_keys` rows, sorted and cleared of
duplicates, and a list of `auth_key_account_addresses` rows.

Both lists go into one `INSERT ... ON CONFLICT DO UPDATE`, which Postgres refuses
as a whole if two rows of it have the same conflict key. The addresses are
distinct. For the keys the code clears duplicates of the key *and version*, while
the conflict key has no version; so a batch has a duplicate exactly if two of its
transactions have a key of the same account in common
(`restoration_rows_distinct_iff`).
-/

namespace IndexerProcessors.AccountRestoration

open IndexerProcessors.Lib
open IndexerProcessors.WriteSet

/-! ## Outside the repository -/

structure KeylessPublicKey where
  issVal : String
  idc : Bytes
  deriving DecidableEq

structure FederatedKeylessPublicKey where
  jwkAddr : Bytes
  pk : KeylessPublicKey
  deriving DecidableEq

inductive AnyPublicKeyStruct where
  | ed25519 (publicKey : Bytes)
  | secp256k1Ecdsa (publicKey : Bytes)
  | secp256r1Ecdsa (publicKey : Bytes)
  | keyless (publicKey : KeylessPublicKey)
  | federatedKeyless (publicKey : FederatedKeylessPublicKey)
  deriving DecidableEq

structure MultiKey where
  publicKeys : List AnyPublicKeyStruct
  signaturesRequired : UInt8
  deriving DecidableEq

/-- What the processor calls outside the repository, beyond `Sdk`, and the parsers
of the token resources other than `Account`, of which only a failure is seen here. -/
structure RestorationSdk extends Sdk where
  /-- `bcs::from_bytes::<MultiKey>`. -/
  bcsMultiKey : Bytes → Option MultiKey
  /-- `bcs::to_bytes` of a keyless key. -/
  bcsKeyless : KeylessPublicKey → Bytes
  /-- `bcs::to_bytes` of a federated keyless key. -/
  bcsFederatedKeyless : FederatedKeylessPublicKey → Bytes
  /-- `V2TokenResource::from_write_resource` is no `Err` on a resource of another
  type. -/
  otherResourceParses : WriteResource → Bool

/-! ## Key rotations -/

/-- `deserialize_bytes_from_hex_with_0x`. -/
def bytesFromHexWith0x (s : String) : Option Bytes :=
  match s.toList with
  | '0' :: 'x' :: digits => hexDecode digits
  | _ => none

/-- A `u8` of a JSON value. -/
def asU8 : Json → Option UInt8
  | .number text => text.toNat?.bind fun n => if n < 256 then some n.toUInt8 else none
  | _ => none

structure KeyRotationToPublicKeyEvent where
  newAuthKey : Bytes
  oldAuthKey : Bytes
  publicKey : Bytes
  publicKeyScheme : UInt8
  verifiedPublicKeyBitMap : Bytes
  deriving DecidableEq

namespace KeyRotationToPublicKeyEvent

def ofJson (v : Json) : Option KeyRotationToPublicKeyEvent := do
  let newAuthKey ← bytesFromHexWith0x (← v.getStr "new_auth_key")
  let oldAuthKey ← bytesFromHexWith0x (← v.getStr "old_auth_key")
  let publicKey ← bytesFromHexWith0x (← v.getStr "public_key")
  let publicKeyScheme ← asU8 (← v.get "public_key_scheme")
  let verifiedPublicKeyBitMap ← bytesFromHexWith0x (← v.getStr "verified_public_key_bit_map")
  return { newAuthKey, oldAuthKey, publicKey, publicKeyScheme, verifiedPublicKeyBitMap }

/-- `KeyRotationToPublicKeyEvent::from_event`; the outer `none` is the panic on an
event that does not parse. -/
def fromEvent (sdk : RestorationSdk) (event : Protos.Event) :
    Option (Option KeyRotationToPublicKeyEvent) :=
  if event.typeStr = "0x1::account::KeyRotationToPublicKey" then
    ((sdk.fromStr event.data).bind ofJson).map some
  else some none

/-- The `find_map` over the events: the first rotation; later events are not read. -/
def findEvent (sdk : RestorationSdk) :
    List Protos.Event → Option (Option KeyRotationToPublicKeyEvent)
  | [] => some none
  | event :: events => do
    match ← fromEvent sdk event with
    | some rotation => return some rotation
    | none => findEvent sdk events

/-- `KeyRotationToPublicKeyEvent::from_transaction`. -/
def fromTransaction (sdk : RestorationSdk) (transaction : WriteSet.Transaction) :
    Option (Option KeyRotationToPublicKeyEvent) :=
  match transaction.txnData with
  | some (.user _ events) => findEvent sdk events
  | _ => some none

/-- `get_verified_public_key_indices`: the bits that are set, the highest bit of
the first byte first. -/
def getVerifiedPublicKeyIndices (event : KeyRotationToPublicKeyEvent) : List Nat :=
  event.verifiedPublicKeyBitMap.zipIdx.flatMap fun p =>
    ((List.range 8).filter fun bit => p.1 &&& ((0x80 : UInt8) >>> bit.toUInt8) != 0).map
      fun bit => p.2 * 8 + bit

end KeyRotationToPublicKeyEvent

example : KeyRotationToPublicKeyEvent.getVerifiedPublicKeyIndices ⟨[], [], [], 0, [0xc0, 1]⟩ =
    [0, 1, 15] := by decide

/-! ## Keys of a signature or a rotation -/

/-- `MAX_ACCOUNT_PUBLIC_KEY_LENGTH`. -/
def maxAccountPublicKeyLength : Nat := 13000

structure PublicKeyAuthKeyHelperInner where
  publicKey : String
  publicKeyType : String
  isPublicKeyUsed : Bool
  deriving DecidableEq

structure PublicKeyAuthKeyHelper where
  keys : List PublicKeyAuthKeyHelperInner
  accountPublicKey : String
  signatureType : String
  deriving DecidableEq

theorem bytesFromHexWith0x_hex0x (bytes : Bytes) :
    bytesFromHexWith0x (hex0x bytes) = some bytes := by
  unfold bytesFromHexWith0x
  rw [toList_hex0x]
  exact hexDecode_hexEncode bytes

/-- `get_any_public_key_type`. -/
def getAnyPublicKeyType (anyPublicKey : AnyPublicKey) : String :=
  match anyPublicKey.type with
  | .ed25519 => "ed25519"
  | .secp256k1Ecdsa => "secp256k1_ecdsa"
  | .secp256r1Ecdsa => "secp256r1_ecdsa"
  | .keyless => "keyless"
  | .federatedKeyless => "federated_keyless"
  | .slhDsaSha2128s => "slh_dsa_sha2_128s"
  | .unspecified => "unknown"

/-- `any_public_key_to_serialized_string`. The subtraction wraps, as it does in a
release build. -/
def anyPublicKeyToSerializedString (key : AnyPublicKey) : String :=
  let length :=
    match key.type with
    | .ed25519 => "20"
    | .secp256k1Ecdsa => "41"
    | .secp256r1Ecdsa => "41"
    | _ => ""
  hexEncode [key.typeNumber - 1] ++ length ++ hexEncode key.publicKey

/-- A number as `format!` prints it with `:02x`. -/
def hex02 (n : UInt32) : String :=
  let digits := String.ofList (Nat.toDigits 16 n.toNat)
  if digits.length < 2 then "0" ++ digits else digits

namespace AnyPublicKeyStruct

/-- `AnyPublicKeyStruct::to_string_without_variant`. -/
def toStringWithoutVariant (sdk : RestorationSdk) : AnyPublicKeyStruct → String
  | ed25519 publicKey => hex0x publicKey
  | secp256k1Ecdsa publicKey => hex0x publicKey
  | secp256r1Ecdsa publicKey => hex0x publicKey
  | keyless publicKey => hex0x (sdk.bcsKeyless publicKey)
  | federatedKeyless publicKey => hex0x (sdk.bcsFederatedKeyless publicKey)

/-- `AnyPublicKeyStruct::get_public_key_type`. -/
def getPublicKeyType : AnyPublicKeyStruct → String
  | ed25519 _ => "ed25519"
  | secp256k1Ecdsa _ => "secp256k1_ecdsa"
  | secp256r1Ecdsa _ => "secp256r1_ecdsa"
  | keyless _ => "keyless"
  | federatedKeyless _ => "federated_keyless"

end AnyPublicKeyStruct

namespace PublicKeyAuthKeyHelper

/-- The loop that all four helpers have in common: the keys in order, used if the
index is among the indices. -/
def keysOf {α : Type} (publicKey publicKeyType : α → String) (usedIndices : List Nat)
    (publicKeys : List α) : List PublicKeyAuthKeyHelperInner :=
  publicKeys.zipIdx.map fun p =>
    { publicKey := publicKey p.1
      publicKeyType := publicKeyType p.1
      isPublicKeyUsed := usedIndices.contains p.2 }

/-- `create_helper_from_multi_ed25519_sig`. -/
def createHelperFromMultiEd25519Sig (sig : MultiEd25519Signature) : PublicKeyAuthKeyHelper where
  keys := keysOf hex0x (fun _ => "ed25519") (sig.publicKeyIndices.map (·.toNat)) sig.publicKeys
  accountPublicKey := hex0x (sig.publicKeys.flatten ++ [sig.threshold.toUInt8])
  signatureType := "multi_ed25519_signature"

/-- `create_helper_from_multi_key_sig`: none for more than 16 keys or too long a
key. -/
def createHelperFromMultiKeySig (sig : MultiKeySignature) : Option PublicKeyAuthKeyHelper :=
  let accountPublicKey := "0x" ++ hexEncode [sig.publicKeys.length.toUInt8] ++
    String.join (sig.publicKeys.map anyPublicKeyToSerializedString) ++ hex02 sig.signaturesRequired
  if 16 < sig.publicKeys.length then none
  else if maxAccountPublicKeyLength < accountPublicKey.utf8ByteSize then none
  else some
    { keys := keysOf (fun key => hex0x key.publicKey) getAnyPublicKeyType
        (sig.signatures.map (·.toNat)) sig.publicKeys
      accountPublicKey
      signatureType := "multi_key_signature" }

/-- `create_helper_from_key_rotation_event`; the outer `none` is the panic on a
multi key that does not deserialize. The schemes are 0 to 3: a single ed25519 key,
a multi ed25519 key, a single key and a multi key. -/
def createHelperFromKeyRotationEvent (sdk : RestorationSdk)
    (event : KeyRotationToPublicKeyEvent) : Option (Option PublicKeyAuthKeyHelper) :=
  let verifiedPublicKeyIndices := event.getVerifiedPublicKeyIndices
  let accountPublicKey := hex0x event.publicKey
  match event.publicKeyScheme with
  | 1 => some (some
      { keys := keysOf hex0x (fun _ => "ed25519") verifiedPublicKeyIndices
          (event.publicKey.toChunks 32)
        accountPublicKey
        signatureType := "multi_ed25519_signature" })
  | 3 =>
    if maxAccountPublicKeyLength < accountPublicKey.utf8ByteSize then some none
    else (sdk.bcsMultiKey event.publicKey).map fun multiKey => some
      { keys := keysOf (AnyPublicKeyStruct.toStringWithoutVariant sdk)
          AnyPublicKeyStruct.getPublicKeyType verifiedPublicKeyIndices multiKey.publicKeys
        accountPublicKey
        signatureType := "multi_key_signature" }
  | _ => some none

/-- The part of `get_multi_key_from_signature` that reads the sender's signature,
both of whose layers it unwraps. -/
def fromAccountSignature :
    Option (Option AccountSignature) → Option (Option PublicKeyAuthKeyHelper)
  | some (some (.multiEd25519 sig)) => some (some (createHelperFromMultiEd25519Sig sig))
  | some (some (.multiKeySignature sig)) => some (createHelperFromMultiKeySig sig)
  | some (some _) => some none
  | some none => none
  | none => none

/-- `get_multi_key_from_signature`; the outer `none` is a panic. -/
def getMultiKeyFromSignature : Option Signature → Option (Option PublicKeyAuthKeyHelper)
  | none => none
  | some .ed25519 => some none
  | some (.multiEd25519 sig) => some (some (createHelperFromMultiEd25519Sig sig))
  | some (.multiAgent sender) => fromAccountSignature sender
  | some (.feePayer sender) => fromAccountSignature sender
  | some (.singleSender sender) => fromAccountSignature sender

end PublicKeyAuthKeyHelper

/-! ## Rows -/

structure AuthKeyAccountAddress where
  authKey : String
  accountAddress : String
  lastTransactionVersion : Int64
  isAuthKeyUsed : Bool
  deriving DecidableEq

structure PublicKeyAuthKey where
  publicKey : String
  publicKeyType : String
  authKey : String
  accountPublicKey : String
  isPublicKeyUsed : Bool
  lastTransactionVersion : Int64
  signatureType : String
  deriving DecidableEq

/-- The conflict key of `insert_public_key_auth_keys_query`. -/
abbrev KeyPK := String × String × String

def PublicKeyAuthKey.pk (row : PublicKeyAuthKey) : KeyPK :=
  (row.authKey, row.publicKey, row.publicKeyType)

/-- `get_public_key_auth_keys`. -/
def PublicKeyAuthKeyHelper.getPublicKeyAuthKeys (helper : PublicKeyAuthKeyHelper)
    (authKey : String) (transactionVersion : Int64) : List PublicKeyAuthKey :=
  helper.keys.map fun key =>
    { publicKey := key.publicKey
      publicKeyType := key.publicKeyType
      authKey
      accountPublicKey := helper.accountPublicKey
      isPublicKeyUsed := key.isPublicKeyUsed
      lastTransactionVersion := transactionVersion
      signatureType := helper.signatureType }

/-- `ROTATE_AUTH_KEY_ENTRY_FUNCTIONS`. -/
def rotateAuthKeyEntryFunctions : List String :=
  ["0x1::account::rotate_authentication_key",
   "0x1::account::rotate_authentication_key_with_rotation_capability",
   "0x1::account::upsert_ed25519_backup_key_on_keyless_account"]

/-- `ROTATE_AUTH_KEY_UNVERIFIED_ENTRY_FUNCTIONS`. -/
def rotateAuthKeyUnverifiedEntryFunctions : List String :=
  ["0x1::account::rotate_authentication_key_call",
   "0x1::account::rotate_authentication_key_from_public_key"]

/-- `TYPE_ACCOUNT`. -/
def typeAccount : String := coinAddr ++ "::account::Account"

/-- The authentication key of an `Account` resource, as `V2TokenResource` reads it;
the outer `none` is the panic on a resource that does not parse. -/
def accountFromWriteResource (sdk : RestorationSdk) (wr : WriteResource) :
    Option (Option String) :=
  if getOuterTypeFromWriteResource sdk.toSdk wr = typeAccount then
    ((sdk.fromStr wr.data).bind fun v => v.getStr "authentication_key").map some
  else if sdk.otherResourceParses wr then some none
  else none

/-! ## One transaction -/

/-- The entry function, the signature and the sender of a user transaction. -/
def userRequest (sdk : RestorationSdk) (txn : WriteSet.Transaction) :
    Option (Option String × Option (Option Signature) × Option String) :=
  match txn.txnData with
  | some (.user request _) => request.map fun userRequest =>
      (userRequest.entryFunctionIdStr, userRequest.signature,
        some (sdk.standardizeAddress userRequest.sender))
  | _ => some (none, none, none)

/-- The helper of the signature, if there is a signature. -/
def signatureHelper : Option (Option Signature) → Option (Option PublicKeyAuthKeyHelper)
  | none => some none
  | some signature => PublicKeyAuthKeyHelper.getMultiKeyFromSignature signature

/-- The authentication key a change writes to the sender's account. -/
def senderAuthKey (sdk : RestorationSdk) (sender : Option String) (wsc : WriteSetChange) :
    Option (Option String) := do
  match ← wsc.change with
  | .writeResource _ wr _ =>
    match ← accountFromWriteResource sdk wr with
    | some authenticationKey =>
      return if sender = some (sdk.standardizeAddress wr.address) then
        some (sdk.standardizeAddress authenticationKey) else none
    | none => return none
  | _ => return none

/-- The row of the sender's account for an authentication key, if one is recorded:
unused after an unverified rotation; used after another rotation, if the account
was rotated before, or if it is a multi key account. -/
def accountRow (entryFunctionIdStr : Option String) (multiKeyHelper : Option PublicKeyAuthKeyHelper)
    (keyRotationEvent : Option KeyRotationToPublicKeyEvent) (txnVersion : Int64)
    (accountAddress authKey : String) : Option AuthKeyAccountAddress :=
  if entryFunctionIdStr.getD "" ∈ rotateAuthKeyUnverifiedEntryFunctions then
    some { authKey, accountAddress, lastTransactionVersion := txnVersion, isAuthKeyUsed := false }
  else if entryFunctionIdStr.getD "" ∈ rotateAuthKeyEntryFunctions ∨ authKey ≠ accountAddress ∨
      multiKeyHelper.isSome ∨ keyRotationEvent.isSome then
    some { authKey, accountAddress, lastTransactionVersion := txnVersion, isAuthKeyUsed := true }
  else none

/-- The helper whose keys are recorded: that of the rotation, if there is one,
even if the rotation is to a single key and has none. -/
def finalHelper (sdk : RestorationSdk) (multiKeyHelper : Option PublicKeyAuthKeyHelper) :
    Option KeyRotationToPublicKeyEvent → Option (Option PublicKeyAuthKeyHelper)
  | some event => PublicKeyAuthKeyHelper.createHelperFromKeyRotationEvent sdk event
  | none => some multiKeyHelper

/-- The body of the parallel loop: the rows of one transaction. -/
def transactionRows (sdk : RestorationSdk) (txn : WriteSet.Transaction) :
    Option (List AuthKeyAccountAddress × List PublicKeyAuthKey) := do
  let txnVersion := txn.txnVersion
  let (entryFunctionIdStr, signature, sender) ← userRequest sdk txn
  let transactionInfo ← txn.info
  if transactionInfo.success then
    let keyRotationEvent ← KeyRotationToPublicKeyEvent.fromTransaction sdk txn
    let multiKeyHelper ← signatureHelper signature
    let authKeys ← transactionInfo.changes.mapM (senderAuthKey sdk sender)
    -- every change that gets here is on the sender's account, so that the map has one key
    let accountRows := authKeys.reduceOption.filterMap fun authKey => sender.bind fun address =>
      accountRow entryFunctionIdStr multiKeyHelper keyRotationEvent txnVersion address authKey
    let authKeyAccountAddresses : Table String AuthKeyAccountAddress :=
      Table.insertAll ∅ (accountRows.map fun row => (row.accountAddress, row))
    let helper ← finalHelper sdk multiKeyHelper keyRotationEvent
    let publicKeyAuthKeys :=
      match helper, sender with
      | some helper, some sender =>
        match authKeyAccountAddresses.lookup sender with
        | some row => helper.getPublicKeyAuthKeys row.authKey txnVersion
        | none => []
      | _, _ => []
    return (authKeyAccountAddresses.rows.map Prod.snd, publicKeyAuthKeys)
  else return ([], [])

/-! ## A batch -/

/-- The order in which `sort_by` puts the keys: public key, type, authentication
key, version, and used ones first. -/
def keySortKey (row : PublicKeyAuthKey) : String ×ₗ String ×ₗ String ×ₗ ℤ ×ₗ Bool :=
  toLex (row.publicKey, toLex (row.publicKeyType, toLex (row.authKey,
    toLex (row.lastTransactionVersion.toInt, !row.isPublicKeyUsed))))

/-- What `dedup_by` compares of the keys. -/
def keyDedupKey (row : PublicKeyAuthKey) : String ×ₗ String ×ₗ String ×ₗ ℤ :=
  toLex (row.publicKey, toLex (row.publicKeyType, toLex (row.authKey,
    row.lastTransactionVersion.toInt)))

/-- The order in which `sort_by` puts the addresses, the latest version first. -/
def addressSortKey (row : AuthKeyAccountAddress) : String ×ₗ ℤ :=
  toLex (row.accountAddress, -row.lastTransactionVersion.toInt)

/-- `parse_account_restoration_models`; a panic is `none`. -/
def parseAccountRestorationModels (sdk : RestorationSdk)
    (transactions : List WriteSet.Transaction) :
    Option (List AuthKeyAccountAddress × List PublicKeyAuthKey) := do
  let data ← transactions.mapM (transactionRows sdk)
  let allAuthKeyAccountAddresses : Table String AuthKeyAccountAddress :=
    Table.insertAll ∅ ((data.flatMap (·.1)).map fun row => (row.accountAddress, row))
  let allPublicKeyAuthKeys := data.flatMap (·.2)
  return (
    dedupBy (·.accountAddress)
      (sortBy addressSortKey (allAuthKeyAccountAddresses.rows.map Prod.snd)),
    dedupBy keyDedupKey (sortBy keySortKey allPublicKeyAuthKeys))

/-! ## The keys of a transaction's account -/

/-- The sender of a user transaction. -/
def senderOf (sdk : RestorationSdk) (txn : WriteSet.Transaction) : Option String :=
  (userRequest sdk txn).bind (·.2.2)

/-- The authentication key a successful transaction leaves at its sender's account,
if it writes the account. -/
def authKeyAfter (sdk : RestorationSdk) (txn : WriteSet.Transaction) : Option String :=
  txn.info.bind fun info =>
    if info.success then
      (info.changes.filterMap fun wsc =>
        (senderAuthKey sdk (senderOf sdk txn) wsc).join).getLast?
    else none

/-- The multi key of a transaction: of the key rotation in it, or else of its
signature. -/
def multiKeyOf (sdk : RestorationSdk) (txn : WriteSet.Transaction) :
    Option PublicKeyAuthKeyHelper := do
  let (_, signature, _) ← userRequest sdk txn
  let keyRotationEvent ← KeyRotationToPublicKeyEvent.fromTransaction sdk txn
  let multiKeyHelper ← signatureHelper signature
  (← finalHelper sdk multiKeyHelper keyRotationEvent)

/-- The single keys of it, with their types. -/
def singleKeys (sdk : RestorationSdk) (txn : WriteSet.Transaction) : List (String × String) :=
  ((multiKeyOf sdk txn).map fun helper =>
    helper.keys.map fun key => (key.publicKey, key.publicKeyType)).getD []

/-- Both transactions leave their senders' accounts with the same authentication
key, and their multi keys have a key in common. -/
def SharesKey (sdk : RestorationSdk) (a b : WriteSet.Transaction) : Prop :=
  ∃ authKey, authKeyAfter sdk a = some authKey ∧ authKeyAfter sdk b = some authKey ∧
    ∃ key ∈ singleKeys sdk a, key ∈ singleKeys sdk b

/-! ## The rows of a transaction -/

/-- A multi key account is always recorded, with the key written last. -/
theorem lookup_accountRows {sdk : RestorationSdk} (entryFunctionIdStr : Option String)
    {multiKeyHelper : Option PublicKeyAuthKeyHelper}
    {keyRotationEvent : Option KeyRotationToPublicKeyEvent} {helper : PublicKeyAuthKeyHelper}
    (h : finalHelper sdk multiKeyHelper keyRotationEvent = some (some helper))
    (txnVersion : Int64) (address : String) (authKeys : List String) :
    ((Table.insertAll ∅ ((authKeys.filterMap fun authKey =>
        accountRow entryFunctionIdStr multiKeyHelper keyRotationEvent txnVersion address
          authKey).map fun row => (row.accountAddress, row))).lookup address).map (·.authKey) =
      authKeys.getLast? := by
  -- the helper is that of a rotation or of the signature, and both lead to a row
  have hrow (authKey : String) : ∃ row, accountRow entryFunctionIdStr multiKeyHelper
      keyRotationEvent txnVersion address authKey = some row ∧ row.accountAddress = address ∧
      row.authKey = authKey := by
    have hsome : multiKeyHelper.isSome ∨ keyRotationEvent.isSome := by
      cases keyRotationEvent with
      | some event => exact Or.inr rfl
      | none => exact Or.inl (by rw [Option.some.inj h]; rfl)
    unfold accountRow
    split
    · exact ⟨_, rfl, rfl, rfl⟩
    · rw [if_pos (Or.inr (Or.inr hsome))]
      exact ⟨_, rfl, rfl, rfl⟩
  induction authKeys using List.reverseRecOn with
  | nil => rfl
  | append_singleton authKeys authKey ih =>
    obtain ⟨row, hrow, haddress, hkey⟩ := hrow authKey
    rw [List.filterMap_append, List.filterMap_cons_some hrow, List.filterMap_nil, List.map_append,
      Table.insertAll_append, List.getLast?_concat, ← hkey]
    rw [Table.lookup_insertAll, List.map_cons, List.map_nil, haddress, proj_singleton_self]
    rfl

theorem exists_mem_getPublicKeyAuthKeys {helper : PublicKeyAuthKeyHelper} {authKey : String}
    {version : Int64} {key : KeyPK} :
    (∃ row ∈ helper.getPublicKeyAuthKeys authKey version, row.pk = key) ↔
      authKey = key.1 ∧ key.2 ∈ helper.keys.map fun k => (k.publicKey, k.publicKeyType) := by
  obtain ⟨keyAuth, keyPublic⟩ := key
  unfold PublicKeyAuthKeyHelper.getPublicKeyAuthKeys
  constructor
  · rintro ⟨row, hrow, hpk⟩
    obtain ⟨k, hk, rfl⟩ := List.mem_map.mp hrow
    rw [PublicKeyAuthKey.pk, Prod.mk.injEq] at hpk
    exact ⟨hpk.1, List.mem_map.mpr ⟨k, hk, hpk.2⟩⟩
  · rintro ⟨rfl, hmem⟩
    obtain ⟨k, hk, rfl⟩ := List.mem_map.mp hmem
    exact ⟨_, List.mem_map.mpr ⟨k, hk, rfl⟩, rfl⟩

/-- Without a sender no change is on the sender's account. -/
theorem senderAuthKey_none {sdk : RestorationSdk} {wsc : WriteSetChange} {authKey : String} :
    senderAuthKey sdk none wsc ≠ some (some authKey) := by
  unfold senderAuthKey
  intro h
  obtain ⟨change, -, h⟩ := Option.bind_eq_some_iff.mp h
  cases change with
  | writeResource stateKeyHash wr params =>
    obtain ⟨account, -, h⟩ := Option.bind_eq_some_iff.mp h
    cases account <;> cases h
  | _ => cases h

/-- The keys of the rows of a transaction, and their version. -/
theorem transactionRows_spec {sdk : RestorationSdk} {txn : WriteSet.Transaction}
    {out : List AuthKeyAccountAddress × List PublicKeyAuthKey}
    (h : transactionRows sdk txn = some out) :
    (∀ row ∈ out.2, row.lastTransactionVersion = txn.txnVersion) ∧
    ∀ key : KeyPK, (∃ row ∈ out.2, row.pk = key) ↔
      authKeyAfter sdk txn = some key.1 ∧ key.2 ∈ singleKeys sdk txn := by
  unfold transactionRows at h
  obtain ⟨⟨entryFunctionIdStr, signature, sender⟩, hrequest, h⟩ := Option.bind_eq_some_iff.mp h
  obtain ⟨info, hinfo, h⟩ := Option.bind_eq_some_iff.mp h
  have hsender : senderOf sdk txn = sender := by rw [senderOf, hrequest]; rfl
  cases hsuccess : info.success with
  | false =>
    rw [hsuccess] at h
    obtain rfl := Option.some.inj h
    refine ⟨List.forall_mem_nil _, fun key => ⟨?_, ?_⟩⟩
    · rintro ⟨row, hrow, -⟩
      exact absurd hrow List.not_mem_nil
    · rintro ⟨hauth, -⟩
      rw [authKeyAfter, hinfo, Option.bind_some, hsuccess] at hauth
      cases hauth
  | true =>
    rw [hsuccess] at h
    obtain ⟨rotation, hrotation, h⟩ := Option.bind_eq_some_iff.mp h
    obtain ⟨multi, hmulti, h⟩ := Option.bind_eq_some_iff.mp h
    obtain ⟨authKeys, hauthKeys, h⟩ := Option.bind_eq_some_iff.mp h
    obtain ⟨helper, hhelper, h⟩ := Option.bind_eq_some_iff.mp h
    obtain rfl := Option.some.inj h
    -- The last change of the sender's account has the key it ends with.
    have hauth : authKeyAfter sdk txn = authKeys.reduceOption.getLast? := by
      rw [authKeyAfter, hinfo, Option.bind_some, if_pos hsuccess, hsender,
        reduceOption_of_mapM hauthKeys]
    have hkeys : singleKeys sdk txn =
        (helper.map fun h => h.keys.map fun k => (k.publicKey, k.publicKeyType)).getD [] := by
      have hmultiKey : multiKeyOf sdk txn = helper := by
        simp only [multiKeyOf, hrequest, hrotation, hmulti, hhelper, Option.bind_eq_bind,
          Option.bind_some]
      rw [singleKeys, hmultiKey]
    rw [hauth, hkeys]
    cases helper with
    | none => simp
    | some helper =>
      -- Without a sender no account is looked at, so there is no key.
      cases sender with
      | none =>
        have hnone : authKeys.reduceOption = [] := by
          refine List.eq_nil_iff_forall_not_mem.mpr fun authKey hmem => ?_
          obtain ⟨wsc, -, hwsc⟩ :=
            (mem_of_mapM hauthKeys).mp (List.reduceOption_mem_iff.mp hmem)
          exact senderAuthKey_none hwsc
        simp [hnone]
      | some address =>
        have hlookup := lookup_accountRows entryFunctionIdStr hhelper
          txn.txnVersion address authKeys.reduceOption
        rw [← hlookup]
        dsimp only [Option.bind_some]
        generalize AList.lookup address (Table.insertAll ∅ _) = found
        cases found with
        | none => simp
        | some row =>
          refine ⟨?_, fun key => ?_⟩
          · intro row' hrow'
            obtain ⟨k, -, rfl⟩ := List.mem_map.mp hrow'
            rfl
          · rw [exists_mem_getPublicKeyAuthKeys, Option.map_some, Option.some_inj]
            rfl

/-! ## Distinct keys -/

theorem pk_eq_iff {a b : PublicKeyAuthKey} : a.pk = b.pk ↔ a.authKey = b.authKey ∧
    a.publicKey = b.publicKey ∧ a.publicKeyType = b.publicKeyType := by
  rw [PublicKeyAuthKey.pk, PublicKeyAuthKey.pk, Prod.mk.injEq, Prod.mk.injEq]

theorem keyDedupKey_eq_iff {a b : PublicKeyAuthKey} : keyDedupKey a = keyDedupKey b ↔
    a.pk = b.pk ∧ a.lastTransactionVersion = b.lastTransactionVersion := by
  rw [pk_eq_iff]
  unfold keyDedupKey
  simp only [toLex_inj, Prod.mk.injEq, Int64.toInt_inj]
  tauto

/-- Sorted by all five columns is sorted by the first four. -/
theorem keyDedupKey_le {a b : PublicKeyAuthKey} (h : keySortKey a ≤ keySortKey b) :
    keyDedupKey a ≤ keyDedupKey b := by
  unfold keySortKey at h
  unfold keyDedupKey
  simp only [Prod.Lex.toLex_le_toLex] at h ⊢
  rcases h with h | ⟨hpublic, h | ⟨htype, h | ⟨hauth, h | ⟨hversion, -⟩⟩⟩⟩
  · exact Or.inl h
  · exact Or.inr ⟨hpublic, Or.inl h⟩
  · exact Or.inr ⟨hpublic, Or.inr ⟨htype, Or.inl h⟩⟩
  · exact Or.inr ⟨hpublic, Or.inr ⟨htype, Or.inr ⟨hauth, h.le⟩⟩⟩
  · exact Or.inr ⟨hpublic, Or.inr ⟨htype, Or.inr ⟨hauth, hversion.le⟩⟩⟩

theorem nodup_keyDedupKey (rows : List PublicKeyAuthKey) :
    ((dedupBy keyDedupKey (sortBy keySortKey rows)).map keyDedupKey).Nodup :=
  nodup_keys_dedupBy ((pairwise_sortBy keySortKey rows).imp keyDedupKey_le)

/-- The addresses of a batch are distinct. -/
theorem nodup_accountAddress (rows : List AuthKeyAccountAddress) :
    ((dedupBy (·.accountAddress) (sortBy addressSortKey rows)).map (·.accountAddress)).Nodup := by
  refine nodup_keys_dedupBy ((pairwise_sortBy addressSortKey rows).imp ?_)
  intro a b hab
  unfold addressSortKey at hab
  rw [Prod.Lex.toLex_le_toLex] at hab
  rcases hab with h | ⟨h, -⟩
  · exact h.le
  · exact h.le

/-- The rows of a batch have distinct conflict keys exactly if no two of the
transactions behind them share a key. -/
theorem nodup_pk_iff {sdk : RestorationSdk} {txns : List WriteSet.Transaction}
    {data : List (List AuthKeyAccountAddress × List PublicKeyAuthKey)}
    (hversions : (txns.map (·.version)).Nodup)
    (hdata : txns.mapM (transactionRows sdk) = some data) :
    ((dedupBy keyDedupKey (sortBy keySortKey (data.flatMap (·.2)))).map (·.pk)).Nodup ↔
      txns.Pairwise fun a b => ¬ SharesKey sdk a b := by
  have hmem (row : PublicKeyAuthKey) : row ∈ data.flatMap (·.2) ↔
      ∃ txn ∈ txns, ∃ out, transactionRows sdk txn = some out ∧ row ∈ out.2 := by
    rw [List.mem_flatMap]
    constructor
    · rintro ⟨out, hout, hrow⟩
      obtain ⟨txn, htxn, hrows⟩ := (mem_of_mapM hdata).mp hout
      exact ⟨txn, htxn, out, hrows, hrow⟩
    · rintro ⟨txn, htxn, out, hrows, hrow⟩
      exact ⟨out, (mem_of_mapM hdata).mpr ⟨txn, htxn, hrows⟩, hrow⟩
  have hnodup := nodup_keyDedupKey (data.flatMap (·.2))
  constructor
  · intro hpk
    rw [List.nodup_map_iff_inj_on hnodup.of_map] at hpk
    refine (List.pairwise_map.mp hversions).imp_of_mem ?_
    rintro a b ha hb hab ⟨authKey, hauthA, hauthB, key, hkeyA, hkeyB⟩
    -- a row of each of the two for the common key, and the rows kept in their place
    have hkept : ∀ txn ∈ txns, authKeyAfter sdk txn = some authKey → key ∈ singleKeys sdk txn →
        ∃ row ∈ dedupBy keyDedupKey (sortBy keySortKey (data.flatMap (·.2))),
          row.pk = (authKey, key) ∧ row.lastTransactionVersion = txn.txnVersion := by
      intro txn htxn hauth hkey
      obtain ⟨out, -, hout⟩ := exists_of_mapM hdata htxn
      obtain ⟨hversion, hspec⟩ := transactionRows_spec hout
      obtain ⟨row, hrow, hpk⟩ := (hspec (authKey, key)).mpr ⟨hauth, hkey⟩
      have hsorted : ∃ r ∈ sortBy keySortKey (data.flatMap (·.2)),
          keyDedupKey r = keyDedupKey row :=
        ⟨row, mem_sortBy.mpr ((hmem row).mpr ⟨txn, htxn, out, hout, hrow⟩), rfl⟩
      obtain ⟨kept, hkept, heq⟩ := exists_mem_dedupBy_iff.mpr hsorted
      obtain ⟨hkeptPk, hkeptVersion⟩ := keyDedupKey_eq_iff.mp heq
      exact ⟨kept, hkept, hkeptPk.trans hpk, hkeptVersion.trans (hversion row hrow)⟩
    obtain ⟨rowA, hrowA, hpkA, hversionA⟩ := hkept a ha hauthA hkeyA
    obtain ⟨rowB, hrowB, hpkB, hversionB⟩ := hkept b hb hauthB hkeyB
    obtain rfl := hpk rowA hrowA rowB hrowB (hpkA.trans hpkB.symm)
    exact hab (congrArg Int64.toUInt64 (hversionA.symm.trans hversionB))
  · intro hpair
    refine List.Nodup.map_on ?_ hnodup.of_map
    intro x hx y hy hpk
    obtain ⟨a, ha, outA, hA, hrowA⟩ := (hmem x).mp (mem_sortBy.mp (mem_of_mem_dedupBy hx))
    obtain ⟨b, hb, outB, hB, hrowB⟩ := (hmem y).mp (mem_sortBy.mp (mem_of_mem_dedupBy hy))
    obtain ⟨hversionA, hspecA⟩ := transactionRows_spec hA
    obtain ⟨hversionB, hspecB⟩ := transactionRows_spec hB
    by_cases hab : a = b
    · -- rows of one transaction have one version, and these duplicates are dropped
      subst hab
      have hversion := (hversionA x hrowA).trans (hversionB y hrowB).symm
      exact List.inj_on_of_nodup_map hnodup hx hy (keyDedupKey_eq_iff.mpr ⟨hpk, hversion⟩)
    · obtain ⟨hauthA, hkeyA⟩ := (hspecA x.pk).mp ⟨x, hrowA, rfl⟩
      obtain ⟨hauthB, hkeyB⟩ := (hspecB x.pk).mp ⟨y, hrowB, hpk.symm⟩
      have hsymm : Std.Symm fun a b => ¬ SharesKey sdk a b := by
        refine ⟨?_⟩
        rintro a b hab ⟨authKey, hauthB, hauthA, key, hkeyB, hkeyA⟩
        exact hab ⟨authKey, hauthA, hauthB, key, hkeyA, hkeyB⟩
      exact absurd ⟨_, hauthA, hauthB, _, hkeyA, hkeyB⟩ (hpair.forall ha hb hab)

/-- A batch can be stored, its keys and its addresses being distinct, exactly if no
two of its transactions leave the same authentication key and have a public key in
common. -/
theorem restoration_rows_distinct_iff (sdk : RestorationSdk) (txns : List WriteSet.Transaction)
    (hversions : (txns.map (·.version)).Nodup)
    {addresses : List AuthKeyAccountAddress} {keys : List PublicKeyAuthKey}
    (h : parseAccountRestorationModels sdk txns = some (addresses, keys)) :
    ((keys.map (·.pk)).Nodup ∧ (addresses.map (·.accountAddress)).Nodup) ↔
      txns.Pairwise fun a b => ¬ SharesKey sdk a b := by
  unfold parseAccountRestorationModels at h
  obtain ⟨data, hdata, h⟩ := Option.bind_eq_some_iff.mp h
  rw [Option.pure_def, Option.some_inj, Prod.mk.injEq] at h
  obtain ⟨rfl, rfl⟩ := h
  rw [nodup_pk_iff hversions hdata]
  exact and_iff_left (nodup_accountAddress _)

/-- Addresses as they come; an account's data is its authentication key. -/
def plainSdk : RestorationSdk where
  standardizeAddress := id
  fromStr text := some (.object [("authentication_key", .string text)])
  bigDecimal _ := none
  parseTimestamp ts _ := ts.seconds.toInt
  bcsMultiKey _ := none
  bcsKeyless _ := []
  bcsFederatedKeyless _ := []
  otherResourceParses _ := true

/-- Account `0xa` sends a transaction signed with the first of its ed25519 keys. -/
def multiEd25519Txn (version : UInt64) (publicKeys : List Bytes) : WriteSet.Transaction where
  version := version
  blockHeight := 1
  epoch := 1
  type := some .user
  timestamp := none
  info := some
    { hash := [], stateChangeHash := [], eventRootHash := [], stateCheckpointHash := none
      accumulatorRootHash := [], gasUsed := 0, success := true, vmStatus := ""
      changes := [⟨some .writeResource, some (.writeResource []
        ⟨"0xa", ⟨coinAddr, "account", "Account"⟩, "0x1::account::Account", "0xk"⟩ [])⟩] }
  txnData := some (.user (some
    { sender := "0xa", entryFunctionIdStr := none, payload := none
      signature := some (some (.multiEd25519
        { publicKeys, threshold := 1, publicKeyIndices := [0] })) }) [])
  transactionBytes := none

/-- Keys rotated between two transactions of a batch are no duplicates. -/
theorem restoration_rows_distinct_rotated :
    ∃ addresses keys, parseAccountRestorationModels plainSdk
        [multiEd25519Txn 1 [[1], [2]], multiEd25519Txn 2 [[3]]] = some (addresses, keys) ∧
      (keys.map (·.pk)).Nodup ∧ (addresses.map (·.accountAddress)).Nodup := by
  refine ⟨_, _, rfl, (restoration_rows_distinct_iff plainSdk
    [multiEd25519Txn 1 [[1], [2]], multiEd25519Txn 2 [[3]]] (by decide) rfl).mpr ?_⟩
  have hfirst : singleKeys plainSdk (multiEd25519Txn 1 [[1], [2]]) =
      [("0x01", "ed25519"), ("0x02", "ed25519")] := by decide
  have hsecond : singleKeys plainSdk (multiEd25519Txn 2 [[3]]) = [("0x03", "ed25519")] := by
    decide
  rw [List.pairwise_pair]
  rintro ⟨-, -, -, key, hkey, hkey'⟩
  rw [hfirst] at hkey
  rw [hsecond] at hkey'
  obtain rfl := List.mem_singleton.mp hkey'
  exact absurd hkey (by decide)

/-- An account that signs twice in a batch has two rows for each of its keys. -/
theorem account_signs_twice_in_batch :
    let txns := [multiEd25519Txn 1 [[1]], multiEd25519Txn 2 [[1]]]
    (txns.map (·.version)).Nodup ∧
    ∃ addresses keys, parseAccountRestorationModels plainSdk txns = some (addresses, keys) ∧
      keys.map (·.pk) = [("0xk", "0x01", "ed25519"), ("0xk", "0x01", "ed25519")] ∧
      ¬ ((keys.map (·.pk)).Nodup ∧ (addresses.map (·.accountAddress)).Nodup) := by
  have hkeys : ((parseAccountRestorationModels plainSdk
      [multiEd25519Txn 1 [[1]], multiEd25519Txn 2 [[1]]]).map fun out => out.2.map (·.pk)) =
      some [("0xk", "0x01", "ed25519"), ("0xk", "0x01", "ed25519")] := by decide
  obtain ⟨⟨addresses, keys⟩, hparse, hpk⟩ := Option.map_eq_some_iff.mp hkeys
  refine ⟨by decide, addresses, keys, hparse, hpk, ?_⟩
  intro hnodup
  have hpks := hnodup.1
  rw [show keys.map (·.pk) = _ from hpk] at hpks
  exact absurd hpks (by decide)

end IndexerProcessors.AccountRestoration

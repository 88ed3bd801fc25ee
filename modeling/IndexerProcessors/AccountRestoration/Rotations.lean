import IndexerProcessors.AccountRestoration.Keys

/-!
# Rotated accounts

Five entry functions of `0x1::account` rotate authentication keys; the processor
lists them, those that verify the new key and those that do not. A row is to say
which key an account was rotated to. The loop over the write set passes over every
account but the sender's, and `rotate_authentication_key_with_rotation_capability`
rotates the key of the account that gave the sender the capability.

`rotation_recorded_iff` — of the accounts a rotation writes, a row is made exactly
for the sender's.
-/

namespace IndexerProcessors.AccountRestoration

open IndexerProcessors.Lib
open IndexerProcessors.WriteSet

/-- The entry functions that rotate a key. -/
def IsRotation (entryFunctionIdStr : Option String) : Prop :=
  ∃ function, entryFunctionIdStr = some function ∧
    function ∈ rotateAuthKeyEntryFunctions ++ rotateAuthKeyUnverifiedEntryFunctions

/-- The authentication key that a write set leaves at an account, if it writes the
account. -/
def rotatedTo (sdk : RestorationSdk) (account : String) (changes : List WriteSetChange) :
    Option String :=
  (changes.filterMap fun wsc => (senderAuthKey sdk (some account) wsc).join).getLast?

/-- A row that says which key the account was rotated to, by a transaction. -/
def Records (account authKey : String) (version : Int64) (rows : List AuthKeyAccountAddress) :
    Prop :=
  ∃ row ∈ rows, row.accountAddress = account ∧ row.authKey = authKey ∧
    row.lastTransactionVersion = version

/-- The row of a rotation for a key of the account: used, unless the rotation does
not verify the key. -/
def rotationRow (entryFunctionIdStr : Option String) (version : Int64)
    (account authKey : String) : AuthKeyAccountAddress where
  authKey := authKey
  accountAddress := account
  lastTransactionVersion := version
  isAuthKeyUsed := decide (entryFunctionIdStr.getD "" ∉ rotateAuthKeyUnverifiedEntryFunctions)

section

variable {sdk : RestorationSdk} {txn : WriteSet.Transaction}

/-- In a rotation every key of the sender's account is recorded. -/
theorem accountRow_of_rotation {entryFunctionIdStr : Option String}
    (hrotation : IsRotation entryFunctionIdStr)
    (multiKeyHelper : Option PublicKeyAuthKeyHelper)
    (keyRotationEvent : Option KeyRotationToPublicKeyEvent) (version : Int64)
    (account authKey : String) :
    accountRow entryFunctionIdStr multiKeyHelper keyRotationEvent version account authKey =
      some (rotationRow entryFunctionIdStr version account authKey) := by
  obtain ⟨function, rfl, hlisted⟩ := hrotation
  unfold accountRow rotationRow
  rw [Option.getD_some]
  by_cases hunverified : function ∈ rotateAuthKeyUnverifiedEntryFunctions
  · rw [if_pos hunverified, decide_eq_false (not_not.mpr hunverified)]
  · have hverified := (List.mem_append.mp hlisted).resolve_right hunverified
    rw [if_neg hunverified, if_pos (Or.inl hverified), decide_eq_true hunverified]

/-- The map of the accounts has the last of the rows, under its account. -/
theorem mem_rows_of_account {entryFunctionIdStr : Option String} {version : Int64}
    {account : String} {authKeys : List String} {row : AuthKeyAccountAddress} :
    row ∈ (Table.insertAll (∅ : Table String AuthKeyAccountAddress)
        ((authKeys.map (rotationRow entryFunctionIdStr version account)).map fun row =>
          (row.accountAddress, row))).rows.map Prod.snd ↔
      ∃ authKey, authKeys.getLast? = some authKey ∧
        rotationRow entryFunctionIdStr version account authKey = row := by
  -- every row is of the one account
  have hsame : (authKeys.map (rotationRow entryFunctionIdStr version account)).filter
      (fun row => row.accountAddress = account) =
        authKeys.map (rotationRow entryFunctionIdStr version account) := by
    rw [List.filter_eq_self]
    intro row hrow
    obtain ⟨authKey, -, rfl⟩ := List.mem_map.mp hrow
    exact decide_eq_true rfl
  rw [List.mem_map]
  constructor
  · rintro ⟨⟨address, entry⟩, hentry, rfl⟩
    rw [mem_rows_insertAll_iff] at hentry
    have hfiltered := List.mem_of_getLast? hentry
    rw [List.mem_filter, List.mem_map, decide_eq_true_iff] at hfiltered
    obtain ⟨⟨authKey, -, rfl⟩, hkey⟩ := hfiltered
    obtain rfl : account = address := hkey
    rw [hsame, List.getLast?_map, Option.map_eq_some_iff] at hentry
    exact hentry
  · intro hrow
    refine ⟨(account, row), mem_rows_insertAll_iff.mpr ?_, rfl⟩
    rw [hsame, List.getLast?_map, Option.map_eq_some_iff]
    exact hrow

/-- The address rows of a rotation: one for the sender, with the key the write set
leaves there, if it writes the account at all. -/
theorem mem_addressRows_iff {request : UserTransactionRequest} {events : List Protos.Event}
    {info : TransactionInfo} {out : List AuthKeyAccountAddress × List PublicKeyAuthKey}
    (huser : txn.txnData = some (.user (some request) events)) (hinfo : txn.info = some info)
    (hsuccess : info.success = true) (hrotation : IsRotation request.entryFunctionIdStr)
    (h : transactionRows sdk txn = some out) (row : AuthKeyAccountAddress) :
    row ∈ out.1 ↔
      ∃ authKey, rotatedTo sdk (sdk.standardizeAddress request.sender) info.changes =
          some authKey ∧
        rotationRow request.entryFunctionIdStr txn.txnVersion
          (sdk.standardizeAddress request.sender) authKey = row := by
  have hrequest : userRequest sdk txn = some (request.entryFunctionIdStr, request.signature,
      some (sdk.standardizeAddress request.sender)) := by
    unfold userRequest
    rw [huser]
    rfl
  unfold transactionRows at h
  rw [hrequest, hinfo] at h
  simp only [Option.bind_eq_bind, Option.bind_some, hsuccess, if_true] at h
  obtain ⟨rotation, -, h⟩ := Option.bind_eq_some_iff.mp h
  obtain ⟨multi, -, h⟩ := Option.bind_eq_some_iff.mp h
  obtain ⟨authKeys, hauthKeys, h⟩ := Option.bind_eq_some_iff.mp h
  obtain ⟨helper, -, h⟩ := Option.bind_eq_some_iff.mp h
  obtain rfl := Option.some.inj h
  have hlast : authKeys.reduceOption.getLast? =
      rotatedTo sdk (sdk.standardizeAddress request.sender) info.changes := by
    rw [reduceOption_of_mapM hauthKeys]
    rfl
  -- every key written to the account gives a row, under the account
  simp only [accountRow_of_rotation hrotation, List.filterMap_eq_map']
  rw [mem_rows_of_account, hlast]

end

/-- **Of the accounts whose key a rotation writes, it records the sender's**: there
is a row with the account, the key it was rotated to and the version exactly if the
account is the sender. -/
theorem rotation_recorded_iff (sdk : RestorationSdk) {txn : WriteSet.Transaction}
    {request : UserTransactionRequest} {events : List Protos.Event} {info : TransactionInfo}
    {out : List AuthKeyAccountAddress × List PublicKeyAuthKey} {account authKey : String}
    (huser : txn.txnData = some (.user (some request) events)) (hinfo : txn.info = some info)
    (hsuccess : info.success = true) (hrotation : IsRotation request.entryFunctionIdStr)
    (h : transactionRows sdk txn = some out)
    (hrotated : rotatedTo sdk account info.changes = some authKey) :
    Records account authKey txn.txnVersion out.1 ↔
      account = sdk.standardizeAddress request.sender := by
  have hrows := mem_addressRows_iff huser hinfo hsuccess hrotation h
  constructor
  · rintro ⟨row, hrow, rfl, -, -⟩
    obtain ⟨authKey', -, rfl⟩ := (hrows row).mp hrow
    rfl
  · rintro rfl
    exact ⟨_, (hrows _).mpr ⟨authKey, hrotated, rfl⟩, rfl, rfl, rfl⟩

/-- A call of a rotation function by `0xd`, after which the keys of `0xd` and of
`0xa` are as given. -/
def rotationTxn (function senderKey otherKey : String) : WriteSet.Transaction where
  version := 1
  blockHeight := 1
  epoch := 1
  type := some .user
  timestamp := none
  info := some
    { hash := [], stateChangeHash := [], eventRootHash := [], stateCheckpointHash := none
      accumulatorRootHash := [], gasUsed := 0, success := true, vmStatus := ""
      changes :=
        [⟨some .writeResource, some (.writeResource []
          ⟨"0xa", ⟨coinAddr, "account", "Account"⟩, "0x1::account::Account", otherKey⟩ [])⟩,
         ⟨some .writeResource, some (.writeResource []
          ⟨"0xd", ⟨coinAddr, "account", "Account"⟩, "0x1::account::Account", senderKey⟩ [])⟩] }
  txnData := some (.user (some
    { sender := "0xd", entryFunctionIdStr := some function, payload := none
      signature := some (some .ed25519) }) [])
  transactionBytes := none

/-- A sender who rotates the own key. -/
theorem rotation_of_sender_recorded :
    ∃ out, transactionRows plainSdk
        (rotationTxn "0x1::account::rotate_authentication_key" "0xk" "0xa") = some out ∧
      Records "0xd" "0xk" 1 out.1 := by
  obtain ⟨out, hout⟩ : ∃ out, transactionRows plainSdk
      (rotationTxn "0x1::account::rotate_authentication_key" "0xk" "0xa") = some out :=
    ⟨_, rfl⟩
  exact ⟨out, hout, (rotation_recorded_iff plainSdk rfl rfl rfl
    ⟨_, rfl, by decide⟩ hout (by decide)).mpr rfl⟩

/-- A rotation with the capability of `0xa`: its new key is written and not
recorded. -/
theorem rotation_with_capability_missed :
    let txn := rotationTxn "0x1::account::rotate_authentication_key_with_rotation_capability"
      "0xd" "0xk"
    ∃ out, transactionRows plainSdk txn = some out ∧
      rotatedTo plainSdk "0xa" ((txn.info.map (·.changes)).getD []) = some "0xk" ∧
      ¬ Records "0xa" "0xk" 1 out.1 := by
  obtain ⟨out, hout, hrows⟩ : ∃ out, transactionRows plainSdk (rotationTxn
      "0x1::account::rotate_authentication_key_with_rotation_capability" "0xd" "0xk") =
        some out ∧ out.1 = [⟨"0xd", "0xd", 1, true⟩] :=
    ⟨_, rfl, by decide⟩
  refine ⟨out, hout, by decide, ?_⟩
  rintro ⟨row, hrow, haccount, -, -⟩
  rw [hrows] at hrow
  obtain rfl := List.mem_singleton.mp hrow
  exact absurd haccount (by decide)

end IndexerProcessors.AccountRestoration

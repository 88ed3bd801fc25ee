import IndexerProcessors.UserTransaction.Flattening

/-!
# Who signed

The row of a signature has the address of the signer and the name of the kind of the
account signature. The functions that make the rows take both as texts, one after the
other, and `from_account_signature` gives them to `parse_abstraction_signature` in the
other order: the row of an abstraction has the sender's address for its kind, and, if
it is the sender's, the name of the kind for the address.

The accounts of a transaction, as the account transactions processor has them, are the
signers of the rows, the accounts of the events and of the written resources, and the
owners of objects. `signers_right_iff` — rows and accounts have the right signers
exactly if no abstraction signs.
-/

namespace IndexerProcessors.UserTransaction

open IndexerProcessors.AccountRestoration
open IndexerProcessors.Lib
open IndexerProcessors.WriteSet (Bytes AnyPublicKey)

/-! ## The accounts of a transaction -/

section

variable (sdk : Sdk)

/-- The signatures of a user transaction. -/
def userSignatures (txn : Transaction) (request : Option UserTransactionRequest) :
    Option (List Signature) := do
  let request ← request
  let timestamp ← txn.timestamp
  getSignatures sdk request txn.txnVersion txn.blockHeight.toInt64
    (sdk.parseTimestamp timestamp txn.txnVersion)

/-- The accounts of a resource that is deleted or written: its address and, if it is an
object, the owner. -/
def changeAccounts (wsc : WriteSet.WriteSetChange) : Option (List String) := do
  match ← wsc.change with
  | .deleteResource _ res _ => return [sdk.standardizeAddress res.address]
  | .writeResource _ res _ =>
    let objectCore ← objectCoreFromWriteResource sdk res
    return sdk.standardizeAddress res.address ::
      (objectCore.map (·.getOwnerAddress sdk)).toList
  | _ => return []

/-- The account an event is attached to. -/
def eventAccount (event : Protos.Event) : Option String :=
  event.key.map fun key => sdk.standardizeAddress key.accountAddress

/-- The accounts of the signatures, the events and the changes. -/
def collectAccounts (signatures : List Signature) (events : List Protos.Event)
    (changes : List WriteSet.WriteSetChange) : Option (Finset String) := do
  let eventAccounts ← events.mapM (eventAccount sdk)
  let resourceAccounts ← changes.mapM (changeAccounts sdk)
  return (signatures.map (·.signer) ++ eventAccounts ++ resourceAccounts.flatten).toFinset

/-- `AccountTransaction::get_accounts`. -/
def getAccounts (txn : Transaction) : Option (Finset String) :=
  match txn.txnData with
  | none => some ∅
  | some txnData => do
    let transactionInfo ← txn.info
    match txnData with
    | .user request events =>
      let signatures ← userSignatures sdk txn request
      collectAccounts sdk signatures events transactionInfo.changes
    | .genesis events => collectAccounts sdk [] events transactionInfo.changes
    | .blockMetadata events => collectAccounts sdk [] events transactionInfo.changes
    | .validator events => collectAccounts sdk [] events transactionInfo.changes
    | .other => return ∅

end

/-! ## Whose signature a row is -/

/-- The kind of an account signature. -/
def AccountSignatureEnum.kind : AccountSignatureEnum → AccountSignatureType
  | ed25519 _ => .ed25519
  | multiEd25519 _ => .multiEd25519
  | singleKeySignature _ => .singleKey
  | multiKeySignature _ => .multiKey
  | abstraction => .abstraction

/-- The type beside every account signature of the tree is its kind, as in the protobuf. -/
def TypesAgree (e : SignatureEnum) : Prop :=
  ∀ leaf ∈ e.leaves, ∀ signature, leaf.signature.signature = some signature →
    leaf.signature.type = signature.kind

/-- An abstraction is among the account signatures. -/
def HasAbstraction (e : SignatureEnum) : Prop :=
  ∃ leaf ∈ e.leaves, leaf.signature.signature = some .abstraction

/-- The address of the one who made a signature: the sender, or the secondary signer. -/
def Individual.signer (sdk : Sdk) (sender : String) (one : Individual) : String :=
  sdk.standardizeAddress ((one.secondary.map Prod.snd).getD sender)

/-- The row has the signer of the signature, and the name of the kind. -/
structure IsAttributed (sdk : Sdk) (sender : String) (row : Signature) (one : Individual) :
    Prop where
  signer : row.signer = one.signer sdk sender
  type : row.accountSignatureType = getAccountSignatureTypeFromEnum one.type

/-- The row of an abstraction: sender and kind in each other's place. -/
structure IsSwapped (sdk : Sdk) (sender : String) (row : Signature) (one : Individual) :
    Prop where
  signer : row.signer = one.signer sdk (getAccountSignatureTypeFromEnum one.type)
  type : row.accountSignatureType = sender

/-- Which of the two a row is. -/
structure IsRowFor (sdk : Sdk) (sender : String) (row : Signature) (one : Individual) :
    Prop where
  attributed : one.type ≠ .abstraction → IsAttributed sdk sender row one
  swapped : one.type = .abstraction → IsSwapped sdk sender row one

section

variable {sdk : Sdk} {sender : String} {version blockHeight : Int64}
  {blockTimestamp : NaiveDateTime}

/-- The rows of a leaf are attributed, unless it is an abstraction. -/
theorem isRowFor_leaf {leaf : Leaf} {rows : List Signature}
    (htype : ∀ signature, leaf.signature.signature = some signature →
      leaf.signature.type = signature.kind)
    (h : leaf.rows sdk sender version blockHeight blockTimestamp = some rows) :
    List.Forall₂ (IsRowFor sdk sender) rows leaf.individuals := by
  obtain ⟨secondary, type, signature⟩ := leaf
  unfold Leaf.rows fromAccountSignature at h
  unfold Leaf.individuals
  cases signature with
  | none =>
    obtain rfl := Option.some.inj h
    exact List.Forall₂.nil
  | some signature =>
    obtain rfl : type = signature.kind := htype signature rfl
    cases signature with
    | ed25519 sig =>
      obtain rfl := Option.some.inj h
      exact List.Forall₂.cons ⟨fun _ => ⟨rfl, rfl⟩, nofun⟩ List.Forall₂.nil
    -- In a multi signature, the rows and the individual signatures go by the same index.
    | multiEd25519 sig =>
      refine forall₂_of_mapM_zipIdx h ?_
      rintro ⟨bytes, index⟩ row hrow
      obtain ⟨keyIndex, -, hrow⟩ := Option.bind_eq_some_iff.mp hrow
      obtain ⟨publicKey, -, hrow⟩ := Option.bind_eq_some_iff.mp hrow
      obtain rfl := Option.some.inj hrow
      exact ⟨fun _ => ⟨rfl, rfl⟩, nofun⟩
    | singleKeySignature sig =>
      obtain ⟨row, hrow, rfl⟩ := Option.map_eq_some_iff.mp h
      obtain ⟨anySignature, -, hrow⟩ := Option.bind_eq_some_iff.mp hrow
      obtain ⟨publicKey, -, hrow⟩ := Option.bind_eq_some_iff.mp hrow
      obtain rfl := Option.some.inj hrow
      exact List.Forall₂.cons ⟨fun _ => ⟨rfl, rfl⟩, nofun⟩ List.Forall₂.nil
    | multiKeySignature sig =>
      refine forall₂_of_mapM_zipIdx h ?_
      rintro ⟨indexed, index⟩ row hrow
      obtain ⟨publicKey, -, hrow⟩ := Option.bind_eq_some_iff.mp hrow
      obtain ⟨anySignature, -, hrow⟩ := Option.bind_eq_some_iff.mp hrow
      obtain rfl := Option.some.inj hrow
      exact ⟨fun _ => ⟨rfl, rfl⟩, nofun⟩
    -- An abstraction has one row, which names no key.
    | abstraction =>
      obtain rfl := Option.some.inj h
      exact List.Forall₂.cons ⟨fun h => absurd rfl h, fun _ => ⟨rfl, rfl⟩⟩ List.Forall₂.nil

/-- An individual signature is an abstraction's if it is of an abstraction's leaf. -/
theorem hasAbstraction_iff {e : SignatureEnum} :
    HasAbstraction e ↔ ∃ one ∈ e.individuals, one.type = .abstraction := by
  constructor
  · rintro ⟨leaf, hleaf, habstraction⟩
    refine ⟨⟨leaf.secondary, .abstraction, 0, none⟩, List.mem_flatMap.mpr ⟨leaf, hleaf, ?_⟩, rfl⟩
    unfold Leaf.individuals
    rw [habstraction]
    exact List.mem_singleton.mpr rfl
  · rintro ⟨one, hone, htype⟩
    obtain ⟨leaf, hleaf, hone⟩ := List.mem_flatMap.mp hone
    refine ⟨leaf, hleaf, ?_⟩
    unfold Leaf.individuals at hone
    split at hone
    next => cases hone
    next => cases List.mem_singleton.mp hone; cases htype
    next => obtain ⟨p, -, rfl⟩ := List.mem_map.mp hone; cases htype
    next => cases List.mem_singleton.mp hone; cases htype
    next => obtain ⟨p, -, rfl⟩ := List.mem_map.mp hone; cases htype
    next h => exact h

/-- The rows are attributed exactly if no abstraction signs, or the sender's address
reads as the kind of one. -/
theorem attributed_iff {s : SignaturePb} {e : SignatureEnum} {rows : List Signature}
    (he : s.signature = some e) (htypes : TypesAgree e)
    (h : fromUserTransaction sdk s sender version blockHeight blockTimestamp = some rows) :
    List.Forall₂ (IsAttributed sdk sender) rows e.individuals ↔
      (HasAbstraction e → sender = "abstraction_signature") := by
  have hrows : List.Forall₂ (IsRowFor sdk sender) rows e.individuals :=
    forall₂_individuals he h fun leaf hleaf rows => isRowFor_leaf (htypes leaf hleaf)
  constructor
  · intro hattributed habstraction
    obtain ⟨one, hone, htype⟩ := hasAbstraction_iff.mp habstraction
    obtain ⟨row, -, hrow⟩ := exists_of_forall₂_right (forall₂_inter hrows hattributed) hone
    rw [← (hrow.1.swapped htype).type, hrow.2.type, htype]
    rfl
  · intro hsender
    refine forall₂_imp_mem hrows ?_
    intro row one hone hrow
    by_cases htype : one.type = .abstraction
    · have heq := hsender (hasAbstraction_iff.mpr ⟨one, hone, htype⟩)
      have hname : getAccountSignatureTypeFromEnum one.type = sender := by
        rw [htype, heq]
        rfl
      obtain ⟨hsigner, hkind⟩ := hrow.swapped htype
      exact ⟨hname ▸ hsigner, hkind.trans hname.symm⟩
    · exact hrow.attributed htype

/-- The signers of the rows are accounts of the transaction. -/
theorem signer_mem_getAccounts {txn : Transaction} {request : UserTransactionRequest}
    {events : List Protos.Event} {accounts : Finset String} {rows : List Signature}
    (huser : txn.txnData = some (.user (some request) events))
    (hrows : userSignatures sdk txn (some request) = some rows)
    (h : getAccounts sdk txn = some accounts) {row : Signature} (hrow : row ∈ rows) :
    row.signer ∈ accounts := by
  unfold getAccounts at h
  rw [huser] at h
  obtain ⟨info, -, h⟩ := Option.bind_eq_some_iff.mp h
  obtain ⟨rows', hrows', h⟩ := Option.bind_eq_some_iff.mp h
  obtain rfl := Option.some.inj (hrows.symm.trans hrows')
  obtain ⟨eventAccounts, -, h⟩ := Option.bind_eq_some_iff.mp h
  obtain ⟨resourceAccounts, -, h⟩ := Option.bind_eq_some_iff.mp h
  obtain rfl := Option.some.inj h
  rw [List.mem_toFinset, List.append_assoc]
  exact List.mem_append_left _ (List.mem_map_of_mem hrow)

end

/-- Every row has the signer and the kind of its signature, and the account
transactions processor knows all the signers. -/
structure SignersRight (sdk : Sdk) (txn : Transaction) (sender : String) (e : SignatureEnum)
    (rows : List Signature) : Prop where
  rows : List.Forall₂ (IsAttributed sdk sender) rows e.individuals
  accounts : ∀ accounts, getAccounts sdk txn = some accounts →
    ∀ one ∈ e.individuals, one.signer sdk sender ∈ accounts

/-- **The signers are right** exactly if no abstraction is among the account
signatures, or the sender's address is the text `abstraction_signature`. -/
theorem signers_right_iff (sdk : Sdk) {txn : Transaction} {request : UserTransactionRequest}
    {events : List Protos.Event} {s : SignaturePb} {e : SignatureEnum} {rows : List Signature}
    (huser : txn.txnData = some (.user (some request) events))
    (hsignature : request.signature = some s) (he : s.signature = some e)
    (htypes : TypesAgree e) (h : userSignatures sdk txn (some request) = some rows) :
    SignersRight sdk txn request.sender e rows ↔
      (HasAbstraction e → request.sender = "abstraction_signature") := by
  have hrows := h
  obtain ⟨timestamp, -, hrows⟩ := Option.bind_eq_some_iff.mp hrows
  unfold getSignatures at hrows
  rw [hsignature] at hrows
  rw [← attributed_iff he htypes hrows]
  constructor
  · exact fun hright => hright.rows
  · intro hattributed
    refine ⟨hattributed, ?_⟩
    intro accounts haccounts one hone
    obtain ⟨row, hrow, hof⟩ := exists_of_forall₂_right hattributed hone
    rw [← hof.signer]
    exact signer_mem_getAccounts huser h haccounts hrow

/-- `0xa` signs with two of three keys, and with it accounts of three other kinds. -/
def agentsExample : MultiAgentSignature where
  sender := some (multiKeyAccount threeKeys [signedBy 0 [7], signedBy 1 [8]])
  secondarySignerAddresses := ["0xb", "0xc", "0xd"]
  secondarySigners :=
    [⟨.ed25519, some (.ed25519 ⟨[4], [9]⟩)⟩,
     ⟨.singleKey, some (.singleKeySignature ⟨some ⟨1, .ed25519, [5]⟩,
       some ⟨.ed25519, [], some (.ed25519 [10])⟩⟩)⟩,
     ⟨.multiEd25519, some (.multiEd25519 ⟨[[1], [2]], [[11], [12]], 2, [0, 1]⟩)⟩]

/-- A transaction with a request. -/
def requestTxn (request : UserTransactionRequest) : Transaction :=
  { feePayerTxn 1 with txnData := some (.user (some request) []) }

/-- Whoever signs with keys has signed, the sender or not. -/
theorem agents_signers_right :
    let request := requestWith ⟨.multiAgent, some (.multiAgent agentsExample)⟩
    ∃ rows, userSignatures plainSdk.toSdk (requestTxn request) (some request) = some rows ∧
      rows.map (fun row => (row.signer, row.accountSignatureType)) =
        [("0xa", "multi_key_signature"), ("0xa", "multi_key_signature"),
         ("0xb", "ed25519_signature"), ("0xc", "single_key_signature"),
         ("0xd", "multi_ed25519_signature"), ("0xd", "multi_ed25519_signature")] ∧
      SignersRight plainSdk.toSdk (requestTxn request) request.sender (.multiAgent agentsExample)
        rows := by
  have htypes : ∀ leaf ∈ (SignatureEnum.multiAgent agentsExample).leaves,
      ∀ signature ∈ leaf.signature.signature, leaf.signature.type = signature.kind := by decide
  have hnone : ∀ leaf ∈ (SignatureEnum.multiAgent agentsExample).leaves,
      leaf.signature.signature ≠ some .abstraction := by decide
  refine ⟨_, rfl, by decide, (signers_right_iff plainSdk.toSdk rfl rfl rfl htypes rfl).mpr ?_⟩
  rintro ⟨leaf, hleaf, habstraction⟩
  exact absurd habstraction (hnone leaf hleaf)

/-- A request that `0xa` signs with an account signature. -/
def senderRequest (signature : AccountSignature) : UserTransactionRequest :=
  requestWith ⟨.singleSender, some (.singleSender ⟨some signature⟩)⟩

/-- The transaction with it. -/
def senderSigns (signature : AccountSignature) : Transaction := requestTxn (senderRequest signature)

/-- The row of an abstraction by `0xa`, the accounts of whose transaction are without
`0xa`. -/
theorem abstraction_signer_wrong :
    let signature : AccountSignature := ⟨.abstraction, some .abstraction⟩
    ∃ rows, userSignatures plainSdk.toSdk (senderSigns signature)
        (some (senderRequest signature)) = some rows ∧
      rows.map (fun row => (row.signer, row.accountSignatureType)) =
        [("abstraction_signature", "0xa")] ∧
      getAccounts plainSdk.toSdk (senderSigns signature) = some {"abstraction_signature"} ∧
      ¬ SignersRight plainSdk.toSdk (senderSigns signature) (senderRequest signature).sender
        (.singleSender ⟨some signature⟩) rows := by
  refine ⟨_, rfl, by decide, by decide, ?_⟩
  intro hright
  cases hright.rows with
  | cons hrow _ => exact absurd hrow.signer (by decide)

end IndexerProcessors.UserTransaction

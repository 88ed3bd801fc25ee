import IndexerProcessors.FungibleAsset.Parse
import IndexerProcessors.Lib.Related

/-!
# Spellings of addresses

A node writes an address without its leading zeros, with all 64 digits, or anything in
between; `standardize_address` fills it up. This file says when two texts are spellings of
one address, where the events and resources that `parse_v2_coin` reads have addresses, and
when two transactions are the same but for the spelling of their addresses.
-/

namespace IndexerProcessors.FungibleAsset

open IndexerProcessors.Lib
open IndexerProcessors.Protos

/-! ## Addresses -/

/-- What comes after `0x`, or everything. -/
def addressDigits (text : String) : List Char :=
  match text.toList with
  | '0' :: 'x' :: digits => digits
  | digits => digits

/-- `standardize_address`: the digits after `0x`, filled up with zeros to 64 of them. -/
def standardAddress (text : String) : String :=
  String.ofList ('0' :: 'x' ::
    (List.replicate (64 - (addressDigits text).length) '0' ++ addressDigits text))

def isHexDigit (c : Char) : Bool := c.isDigit || ('a' ≤ c && c ≤ 'f') || ('A' ≤ c && c ≤ 'F')

/-- `0x` and one to 64 digits. -/
def isAddress (text : String) : Bool :=
  match text.toList with
  | '0' :: 'x' :: digits => 0 < digits.length && digits.length ≤ 64 && digits.all isHexDigit
  | _ => false

/-- The same text, or another spelling of the same address. -/
def SameAddress (a b : String) : Prop :=
  a = b ∨ isAddress a ∧ isAddress b ∧ standardAddress a = standardAddress b

/-- No other text is a spelling of the address: it has all its digits and no leading zero, or
the text is no address at all. -/
def OneSpelling (a : String) : Prop := ∀ b, SameAddress a b → b = a

theorem addressDigits_standardAddress (text : String) :
    addressDigits (standardAddress text) =
      List.replicate (64 - (addressDigits text).length) '0' ++ addressDigits text := by
  rw [standardAddress, addressDigits, String.toList_ofList]
  rfl

theorem standardAddress_idem (text : String) :
    standardAddress (standardAddress text) = standardAddress text := by
  have hlength : 64 - (addressDigits (standardAddress text)).length = 0 := by
    rw [addressDigits_standardAddress, List.length_append, List.length_replicate]
    omega
  rw [standardAddress, hlength, List.replicate_zero, List.nil_append,
    addressDigits_standardAddress, ← standardAddress]

theorem isAddress_iff (text : String) :
    isAddress text = true ↔ ∃ digits, text.toList = '0' :: 'x' :: digits ∧ 0 < digits.length ∧
      digits.length ≤ 64 ∧ digits.all isHexDigit = true := by
  unfold isAddress
  split
  next digits heq =>
    rw [heq]
    simp [and_assoc]
  next hno =>
    refine iff_of_false (by simp) ?_
    rintro ⟨digits, heq, -⟩
    exact hno digits heq

theorem isAddress_standardAddress {text : String} (h : isAddress text = true) :
    isAddress (standardAddress text) = true := by
  obtain ⟨digits, heq, hpos, hle, hhex⟩ := (isAddress_iff text).mp h
  have hdigits : addressDigits text = digits := by
    rw [addressDigits, heq]
    rfl
  refine (isAddress_iff _).mpr ⟨List.replicate (64 - digits.length) '0' ++ digits, ?_, ?_, ?_, ?_⟩
  · rw [standardAddress, String.toList_ofList, hdigits]
  · rw [List.length_append]
    omega
  · rw [List.length_append, List.length_replicate]
    omega
  · rw [List.all_append, hhex, Bool.and_true, List.all_replicate]
    split
    · rfl
    · decide

namespace SameAddress

theorem refl (a : String) : SameAddress a a := Or.inl rfl

theorem standard_eq {a b : String} (h : SameAddress a b) :
    standardAddress a = standardAddress b := by
  rcases h with rfl | ⟨-, -, h⟩
  · rfl
  · exact h

theorem symm {a b : String} (h : SameAddress a b) : SameAddress b a := by
  rcases h with rfl | ⟨ha, hb, h⟩
  · exact refl a
  · exact Or.inr ⟨hb, ha, h.symm⟩

theorem trans {a b c : String} (h : SameAddress a b) (h' : SameAddress b c) : SameAddress a c := by
  rcases h with rfl | ⟨ha, hb, h⟩
  · exact h'
  · rcases h' with rfl | ⟨-, hc, h'⟩
    · exact Or.inr ⟨ha, hb, h⟩
    · exact Or.inr ⟨ha, hc, h.trans h'⟩

/-- A text with another spelling is an address, and the standard form is one of them. -/
theorem of_ne {a b : String} (h : SameAddress a b) (hne : b ≠ a) :
    SameAddress a (standardAddress a) := by
  rcases h with rfl | ⟨ha, -, -⟩
  · exact absurd rfl hne
  · exact Or.inr ⟨ha, isAddress_standardAddress ha, (standardAddress_idem a).symm⟩

end SameAddress

theorem addressDigits_of_toList {text : String} {digits : List Char}
    (h : text.toList = '0' :: 'x' :: digits) : addressDigits text = digits := by
  rw [addressDigits, h]
  rfl

/-- An address without its leading zero. -/
theorem sameAddress_drop_zero {text : String} (h : isAddress text = true) {digits : List Char}
    (hdigits : addressDigits text = '0' :: digits) (hne : digits ≠ []) :
    SameAddress text (String.ofList ('0' :: 'x' :: digits)) := by
  obtain ⟨all, htext, hpos, hle, hhex⟩ := (isAddress_iff text).mp h
  obtain rfl : all = '0' :: digits := (addressDigits_of_toList htext).symm.trans hdigits
  have hlist : (String.ofList ('0' :: 'x' :: digits)).toList = '0' :: 'x' :: digits :=
    String.toList_ofList
  rw [List.length_cons] at hle
  refine Or.inr ⟨h, (isAddress_iff _).mpr ⟨digits, hlist, List.length_pos_of_ne_nil hne, by omega, ?_⟩,
    ?_⟩
  · rw [List.all_cons, Bool.and_eq_true] at hhex
    exact hhex.2
  · rw [standardAddress, standardAddress, hdigits, addressDigits_of_toList hlist]
    have hsucc : 64 - digits.length = (64 - ('0' :: digits).length) + 1 := by
      rw [List.length_cons]
      omega
    rw [hsucc, List.replicate_succ', List.append_assoc]
    rfl

/-- An address has one spelling if it has all its digits and the first is not zero. -/
theorem oneSpelling_iff (text : String) :
    OneSpelling text ↔ (isAddress text = true →
      (addressDigits text).length = 64 ∧ (addressDigits text).head? ≠ some '0') := by
  constructor
  · intro honce haddress
    obtain ⟨digits, htext, hpos, hle, -⟩ := (isAddress_iff text).mp haddress
    -- A shorter address is also spelled in standard form.
    have hlength : (addressDigits text).length = 64 := by
      have hsame : standardAddress text = text := honce _
        (Or.inr ⟨haddress, isAddress_standardAddress haddress, (standardAddress_idem text).symm⟩)
      have hdigits := addressDigits_standardAddress text
      rw [hsame] at hdigits
      have hcount := congrArg List.length hdigits
      rw [List.length_append, List.length_replicate] at hcount
      rw [addressDigits_of_toList htext] at hcount ⊢
      omega
    refine ⟨hlength, ?_⟩
    -- A zero at the front can be left out.
    intro hzero
    obtain ⟨rest, hrest⟩ := List.head?_eq_some_iff.mp hzero
    have hne : rest ≠ [] := by
      rintro rfl
      rw [hrest] at hlength
      cases hlength
    have hdropped := honce _ (sameAddress_drop_zero haddress hrest hne)
    rw [← hdropped, addressDigits_of_toList String.toList_ofList] at hlength
    rw [addressDigits_of_toList htext] at hrest
    rw [← hdropped, String.toList_ofList] at htext
    rw [List.cons.injEq, List.cons.injEq] at htext
    rw [hrest] at htext
    exact List.cons_ne_self _ _ htext.2.2.symm
  · intro h other hsame
    rcases hsame with rfl | ⟨haddress, hother, hstandard⟩
    · rfl
    · obtain ⟨hlength, hhead⟩ := h haddress
      obtain ⟨digits, htext, -, -, -⟩ := (isAddress_iff text).mp haddress
      obtain ⟨digits', htext', -, hle, -⟩ := (isAddress_iff other).mp hother
      have hdigits := congrArg addressDigits hstandard
      rw [addressDigits_standardAddress, addressDigits_standardAddress, hlength,
        addressDigits_of_toList htext, addressDigits_of_toList htext', Nat.sub_self,
        List.replicate_zero, List.nil_append] at hdigits
      rw [addressDigits_of_toList htext] at hhead
      -- The other spelling cannot be padded, for this one would begin with a zero.
      have hall : 64 - digits'.length = 0 := by
        by_contra hless
        obtain ⟨n, hn⟩ := Nat.exists_eq_succ_of_ne_zero hless
        rw [hdigits, hn, List.replicate_succ] at hhead
        exact hhead rfl
      rw [hall, List.replicate_zero, List.nil_append] at hdigits
      rw [← String.toList_inj, htext, htext', hdigits]

/-! ## Addresses in JSON -/

/-- Where a JSON value has addresses. -/
inductive Places where
  | nothing
  | address
  | members (of : String → Places)
  | items (of : Places)

/-- Addresses in these members, and nowhere else. -/
def Places.fields (table : List (String × Places)) : Places :=
  .members fun key => (table.lookup key).getD .nothing

/-- The same value but for the spelling of the addresses in these places. -/
def JsonRespelled : Places → Json → Json → Prop
  | .nothing, v, v' => v = v'
  | .address, v, v' => v = v' ∨ ∃ a b, v = .string a ∧ v' = .string b ∧ SameAddress a b
  | .members of, v, v' =>
    v = v' ∨ ∃ fields fields', v = .object fields ∧ v' = .object fields' ∧
      List.Forall₂ (fun field field' =>
        field.1 = field'.1 ∧ JsonRespelled (of field.1) field.2 field'.2) fields fields'
  | .items of, v, v' =>
    v = v' ∨ ∃ items items', v = .array items ∧ v' = .array items' ∧
      List.Forall₂ (JsonRespelled of) items items'

theorem jsonRespelled_refl (places : Places) (v : Json) : JsonRespelled places v v := by
  cases places with
  | nothing => rfl
  | address => exact Or.inl rfl
  | members of => exact Or.inl rfl
  | items of => exact Or.inl rfl

section

variable {of : String → Places} {v v' : Json}

theorem rel_get (h : JsonRespelled (.members of) v v') (key : String) :
    Option.Rel (JsonRespelled (of key)) (v.get key) (v'.get key) := by
  rcases h with rfl | ⟨fields, fields', rfl, rfl, h⟩
  · exact rel_refl (jsonRespelled_refl _) _
  · show Option.Rel _ (fields.lookup key) (fields'.lookup key)
    induction h with
    | nil => exact .none
    | @cons field field' fields fields' hfield _ ih =>
      obtain ⟨name, w⟩ := field
      obtain ⟨name', w'⟩ := field'
      obtain ⟨rfl, hw⟩ := hfield
      rw [List.lookup_cons, List.lookup_cons]
      by_cases hkey : key = name
      · subst hkey
        rw [beq_self_eq_true]
        exact .some hw
      · rw [beq_false_of_ne hkey]
        exact ih

theorem rel_get_of (h : JsonRespelled (.members of) v v') {key : String} {places : Places}
    (hof : of key = places) : Option.Rel (JsonRespelled places) (v.get key) (v'.get key) :=
  hof ▸ rel_get h key

theorem get_eq (h : JsonRespelled (.members of) v v') {key : String} (hof : of key = .nothing) :
    v.get key = v'.get key :=
  eq_of_rel (rel_get_of h hof)

theorem rel_asStr (h : JsonRespelled .address v v') : Option.Rel SameAddress v.asStr v'.asStr := by
  rcases h with rfl | ⟨a, b, rfl, rfl, hab⟩
  · exact rel_refl SameAddress.refl _
  · exact .some hab

theorem rel_getStr (h : JsonRespelled (.members of) v v') {key : String}
    (hof : of key = .address) : Option.Rel SameAddress (v.getStr key) (v'.getStr key) :=
  rel_bind (rel_get_of h hof) fun _ _ => rel_asStr

theorem rel_asArray {places : Places} (h : JsonRespelled (.items places) v v') :
    Option.Rel (List.Forall₂ (JsonRespelled places)) v.asArray v'.asArray := by
  rcases h with rfl | ⟨items, items', rfl, rfl, h⟩
  · exact rel_refl (fun items => List.forall₂_same.mpr fun _ _ => jsonRespelled_refl _ _) _
  · exact .some h

end

/-! ## Texts, events and changes -/

/-- The places of a guid in an event handle. -/
def handlePlaces : Places := .fields [("guid", .fields [("id", .fields [("addr", .address)])])]

/-- The addresses of the events that are read, by their types. -/
def eventPlaces : List (String × Places) :=
  [("0x1::coin::WithdrawEvent", .nothing),
   ("0x1::coin::DepositEvent", .nothing),
   ("0x1::coin::CoinWithdraw", .fields [("account", .address)]),
   ("0x1::coin::CoinDeposit", .fields [("account", .address)]),
   ("0x1::fungible_asset::DepositEvent", .nothing),
   ("0x1::fungible_asset::WithdrawEvent", .nothing),
   ("0x1::fungible_asset::FrozenEvent", .nothing),
   ("0x1::fungible_asset::Deposit", .fields [("store", .address)]),
   ("0x1::fungible_asset::Withdraw", .fields [("store", .address)]),
   ("0x1::fungible_asset::Frozen", .fields [("store", .address)]),
   ("0x1::fungible_asset::FungibleStoreDeletion",
    .fields [("metadata", .address), ("owner", .address), ("store", .address)]),
   ("0x1::transaction_fee::FeeStatement", .nothing)]

/-- The addresses of an aggregator. -/
def aggregatorPlaces : Places := .fields [("handle", .address), ("key", .address)]

/-- The addresses in a vector's items. -/
def vecPlaces (places : Places) : Places := .fields [("vec", .items places)]

/-- The addresses of the resources that are read, by their types. -/
def resourcePlaces : List (String × Places) :=
  [(typeObjectCore, .fields [("owner", .address), ("transfer_events", handlePlaces)]),
   (typeCoinStore, .fields [("deposit_events", handlePlaces), ("withdraw_events", handlePlaces)]),
   (typeCoinInfo, .fields [("supply", vecPlaces (.fields [("aggregator", vecPlaces aggregatorPlaces)]))]),
   (typeFungibleAssetStore, .fields [("metadata", .fields [("inner", .address)])]),
   (typeFungibleAssetMetadata, .nothing),
   (typeFungibleAssetSupply, .nothing),
   (typeConcurrentFungibleAssetSupply, .nothing),
   (typeConcurrentFungibleAssetBalance, .nothing)]

/-- The texts are the same, or JSON that is the same but for the spelling of addresses; what
nobody reads may be anything. -/
def TextRespelled (sdk : Sdk) (places : Option Places) (text text' : String) : Prop :=
  match places with
  | none => True
  | some places =>
    text = text' ∨ ∃ v v', sdk.fromStr text = some v ∧ sdk.fromStr text' = some v' ∧
      JsonRespelled places v v'

/-- The key of an event, with its account spelled in another way. -/
def KeyRespelled (key key' : Stream.EventKey) : Prop :=
  SameAddress key.accountAddress key'.accountAddress ∧ key.creationNumber = key'.creationNumber

structure EventRespelled (sdk : Sdk) (event event' : Stream.Event) : Prop where
  key : Option.Rel KeyRespelled event.key event'.key
  typeStr : event.typeStr = event'.typeStr
  data : TextRespelled sdk (eventPlaces.lookup event.typeStr) event.data event'.data

structure ResourceRespelled (sdk : Sdk) (wr wr' : WriteResource) : Prop where
  address : SameAddress wr.address wr'.address
  typ : wr.typ = wr'.typ
  typeStr : wr.typeStr = wr'.typeStr
  data : TextRespelled sdk (resourcePlaces.lookup (getOuterTypeFromWriteResource sdk wr)) wr.data
    wr'.data

structure DeletionRespelled (dr dr' : DeleteResource) : Prop where
  address : SameAddress dr.address dr'.address
  typ : dr.typ = dr'.typ
  typeStr : dr.typeStr = dr'.typeStr

/-- A change of which the addresses of the resource and in its data are spelled in another way. -/
inductive ChangeRespelled (sdk : Sdk) : Protos.Change → Protos.Change → Prop where
  | writeResource {wr wr' : WriteResource} (params : List MoveType)
      (h : ResourceRespelled sdk wr wr') :
      ChangeRespelled sdk (.writeResource wr params) (.writeResource wr' params)
  | deleteResource {dr dr' : DeleteResource} (params : List MoveType)
      (h : DeletionRespelled dr dr') :
      ChangeRespelled sdk (.deleteResource dr params) (.deleteResource dr' params)
  | writeTableItem (item : WriteTableItem) :
      ChangeRespelled sdk (.writeTableItem item) (.writeTableItem item)
  | deleteTableItem (item : DeleteTableItem) :
      ChangeRespelled sdk (.deleteTableItem item) (.deleteTableItem item)
  | other : ChangeRespelled sdk .other .other

/-- The write sets are the same but for the spelling of addresses. -/
structure InfoRespelled (sdk : Sdk) (info info' : Stream.TransactionInfo) : Prop where
  gasUsed : info.gasUsed = info'.gasUsed
  success : info.success = info'.success
  changes : List.Forall₂ (ChangeRespelled sdk) info.changes info'.changes

/-- The data of transactions of one kind, with events that are the same but for the spelling
of addresses. -/
inductive TxnDataRespelled (sdk : Sdk) : Stream.TxnData → Stream.TxnData → Prop where
  | blockMetadata {events events' : List Stream.Event}
      (h : List.Forall₂ (EventRespelled sdk) events events') :
      TxnDataRespelled sdk (.blockMetadata events) (.blockMetadata events')
  | genesis {events events' : List Stream.Event}
      (h : List.Forall₂ (EventRespelled sdk) events events') :
      TxnDataRespelled sdk (.genesis events) (.genesis events')
  | user (request : Option UserTransaction.UserTransactionRequest)
      {events events' : List Stream.Event} (h : List.Forall₂ (EventRespelled sdk) events events') :
      TxnDataRespelled sdk (.user request events) (.user request events')
  | validator {events events' : List Stream.Event}
      (h : List.Forall₂ (EventRespelled sdk) events events') :
      TxnDataRespelled sdk (.validator events) (.validator events')
  | other : TxnDataRespelled sdk .other .other

/-- The transactions are the same but for the spelling of the addresses in events and
resources. -/
structure TxnRespelled (sdk : Sdk) (txn txn' : Stream.Transaction) : Prop where
  version : txn.version = txn'.version
  blockHeight : txn.blockHeight = txn'.blockHeight
  epoch : txn.epoch = txn'.epoch
  timestamp : txn.timestamp = txn'.timestamp
  info : Option.Rel (InfoRespelled sdk) txn.info txn'.info
  txnData : Option.Rel (TxnDataRespelled sdk) txn.txnData txn'.txnData

theorem textRespelled_refl (sdk : Sdk) (places : Option Places) (text : String) :
    TextRespelled sdk places text text := by
  cases places with
  | none => trivial
  | some places => exact Or.inl rfl

theorem changeRespelled_refl (sdk : Sdk) (change : Protos.Change) :
    ChangeRespelled sdk change change := by
  cases change with
  | writeResource wr params =>
    exact .writeResource params ⟨SameAddress.refl _, rfl, rfl, textRespelled_refl _ _ _⟩
  | deleteResource dr params => exact .deleteResource params ⟨SameAddress.refl _, rfl, rfl⟩
  | writeTableItem item => exact .writeTableItem item
  | deleteTableItem item => exact .deleteTableItem item
  | other => exact .other

theorem eventRespelled_refl (sdk : Sdk) (event : Stream.Event) : EventRespelled sdk event event :=
  ⟨rel_refl (fun _ => ⟨SameAddress.refl _, rfl⟩) _, rfl, textRespelled_refl _ _ _⟩

theorem eventsRespelled_refl (sdk : Sdk) (events : List Stream.Event) :
    List.Forall₂ (EventRespelled sdk) events events :=
  List.forall₂_same.mpr fun event _ => eventRespelled_refl sdk event

theorem txnRespelled_refl (sdk : Sdk) (txn : Stream.Transaction) : TxnRespelled sdk txn txn := by
  refine ⟨rfl, rfl, rfl, rfl, rel_refl ?_ _, rel_refl ?_ _⟩
  · intro info
    exact ⟨rfl, rfl, List.forall₂_same.mpr fun change _ => changeRespelled_refl sdk change⟩
  · intro txnData
    cases txnData with
    | blockMetadata events => exact .blockMetadata (eventsRespelled_refl sdk events)
    | genesis events => exact .genesis (eventsRespelled_refl sdk events)
    | user request events => exact .user request (eventsRespelled_refl sdk events)
    | validator events => exact .validator (eventsRespelled_refl sdk events)
    | other => exact .other

/-- What is assumed of the functions outside the repository: `standardize_address` strips
`0x` and fills up, and JSON with other texts for some addresses has a text again. -/
structure StandardSdk (sdk : AssetSdk) : Prop where
  standardizes : ∀ a, sdk.standardizeAddress a = standardAddress a
  writes : ∀ places text v v', sdk.fromStr text = some v → JsonRespelled places v v' →
    ∃ text', sdk.fromStr text' = some v'

end IndexerProcessors.FungibleAsset

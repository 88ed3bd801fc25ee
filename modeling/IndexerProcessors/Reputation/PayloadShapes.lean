import IndexerProcessors.Reputation.Payload

/-!
# Shapes of LayerZero payloads

`lz_payload.rs` does not know at which position an argument of `lz_receive` stands. It takes
the first one of 32 bytes that does not look like an address for the GUID, and the first
one with an address where an OFT message has its compose sender for the message. Decimal
numbers are hexadecimal texts too.

`decodeOftSender_eq_some_iff` — the decoder of messages is the inverse of their encoding.
`lz_receive_arguments` — among the arguments of a call, in any order, the scans find the
GUID and the compose sender, and nothing else.
-/

namespace IndexerProcessors.Reputation

open IndexerProcessors.Lib

/-! ## OFT messages -/

/-- An OFT message with compose data, by its parts. -/
structure OftMessage where
  recipient : List UInt8
  amountSd : List UInt8
  composeSender : List UInt8
  composeMsg : List UInt8
  recipient_length : recipient.length = 32
  amountSd_length : amountSd.length = 8
  composeSender_length : composeSender.length = 20
  composeSender_ne_zero : ∃ b ∈ composeSender, b ≠ 0

/-- The bytes of a message; the compose sender is right-aligned in a word. -/
def OftMessage.encode (message : OftMessage) : List UInt8 :=
  message.recipient ++ message.amountSd ++ List.replicate 12 0 ++ message.composeSender ++
    message.composeMsg

theorem drop_encode (message : OftMessage) :
    message.encode.drop 40 =
      List.replicate 12 0 ++ (message.composeSender ++ message.composeMsg) := by
  have hhead : (message.recipient ++ message.amountSd).length = 40 := by
    rw [List.length_append, message.recipient_length, message.amountSd_length]
  rw [OftMessage.encode, List.append_assoc, List.append_assoc, ← hhead, List.drop_left]

theorem word_encode (message : OftMessage) :
    (message.encode.drop 40).take 32 = List.replicate 12 0 ++ message.composeSender := by
  rw [drop_encode, ← List.append_assoc, List.take_left']
  rw [List.length_append, List.length_replicate, message.composeSender_length]

theorem le_length_encode (message : OftMessage) : 72 ≤ message.encode.length := by
  have hword := congrArg List.length (word_encode message)
  rw [List.length_take, List.length_drop, List.length_append, List.length_replicate,
    message.composeSender_length] at hword
  omega

theorem decodeOftSender_encode (message : OftMessage) :
    decodeOftSender message.encode = some (hex0x message.composeSender) := by
  have hlength := le_length_encode message
  obtain ⟨b, hb, hne⟩ := message.composeSender_ne_zero
  have hzeros : ((List.replicate 12 0 ++ message.composeSender).take 12).any (· ≠ 0) = false := by
    rw [List.take_left' List.length_replicate]
    decide
  have haddress : (List.replicate 12 0 ++ message.composeSender).drop 12 =
      message.composeSender :=
    List.drop_left' List.length_replicate
  have hnonzero : message.composeSender.all (· = 0) = false := by
    refine List.all_eq_false.mpr ⟨b, hb, ?_⟩
    simpa using hne
  unfold decodeOftSender decodeAddressWord composeSenderOffset
  rw [if_neg (by omega), word_encode]
  dsimp only
  rw [hzeros, haddress, hnonzero]
  rfl

/-- A decoded message is cut at the offsets of the layout. -/
theorem exists_of_decodeOftSender {bytes : List UInt8} {text : String}
    (h : decodeOftSender bytes = some text) :
    ∃ message : OftMessage, bytes = message.encode ∧ text = hex0x message.composeSender := by
  unfold decodeOftSender decodeAddressWord composeSenderOffset at h
  split at h
  · cases h
  next hlength =>
    dsimp only at h
    split at h
    · cases h
    next hzeros =>
      split at h
      · cases h
      next hnonzero =>
        -- The decoder has asked for 72 bytes, so the word of the sender is whole.
        have hword : ((bytes.drop 40).take 32).length = 32 := by
          rw [List.length_take, List.length_drop]
          omega
        have hpadding : ((bytes.drop 40).take 32).take 12 = List.replicate 12 0 := by
          refine List.eq_replicate_iff.mpr ⟨?_, ?_⟩
          · rw [List.length_take]
            omega
          · intro b hb
            by_contra hne
            exact hzeros (List.any_eq_true.mpr ⟨b, hb, decide_eq_true hne⟩)
        -- The parts of the message are the pieces of the bytes between the offsets.
        have hsplit : bytes = bytes.take 32 ++ (bytes.drop 32).take 8 ++
            ((bytes.drop 40).take 32).take 12 ++ ((bytes.drop 40).take 32).drop 12 ++
            bytes.drop 72 := by
          have hword' : bytes.drop 40 = (bytes.drop 40).take 32 ++ bytes.drop 72 := by
            rw [show bytes.drop 72 = (bytes.drop 40).drop 32 by rw [List.drop_drop],
              List.take_append_drop]
          have hamount : bytes.drop 32 = (bytes.drop 32).take 8 ++ bytes.drop 40 := by
            rw [show bytes.drop 40 = (bytes.drop 32).drop 8 by rw [List.drop_drop],
              List.take_append_drop]
          calc bytes = bytes.take 32 ++ bytes.drop 32 := (List.take_append_drop 32 bytes).symm
            _ = bytes.take 32 ++ ((bytes.drop 32).take 8 ++
                ((bytes.drop 40).take 32 ++ bytes.drop 72)) := by rw [← hword', ← hamount]
            _ = bytes.take 32 ++ ((bytes.drop 32).take 8 ++
                ((((bytes.drop 40).take 32).take 12 ++ ((bytes.drop 40).take 32).drop 12) ++
                  bytes.drop 72)) := by rw [List.take_append_drop 12]
            _ = _ := by simp only [List.append_assoc]
        refine ⟨⟨bytes.take 32, (bytes.drop 32).take 8, ((bytes.drop 40).take 32).drop 12,
          bytes.drop 72, ?_, ?_, ?_, ?_⟩, ?_, (Option.some.inj h).symm⟩
        · rw [List.length_take]
          omega
        · rw [List.length_take, List.length_drop]
          omega
        · rw [List.length_drop, hword]
        · rw [List.all_eq_true, not_forall] at hnonzero
          obtain ⟨b, hb⟩ := hnonzero
          obtain ⟨hmem, hne⟩ := Classical.not_imp.mp hb
          exact ⟨b, hmem, by simpa using hne⟩
        · rw [OftMessage.encode, ← hpadding]
          exact hsplit

/-- The decoder reads messages with compose data, and nothing else. -/
theorem decodeOftSender_eq_some_iff {bytes : List UInt8} {text : String} :
    decodeOftSender bytes = some text ↔
      ∃ message : OftMessage, bytes = message.encode ∧ text = hex0x message.composeSender := by
  constructor
  · exact exists_of_decodeOftSender
  · rintro ⟨message, rfl, rfl⟩
    exact decodeOftSender_encode message

theorem decodeOftSender_of_length_lt {bytes : List UInt8} (h : bytes.length < 72) :
    decodeOftSender bytes = none :=
  if_pos h

theorem length_strip0x_le (chars : List Char) : (strip0x chars).length ≤ chars.length := by
  unfold strip0x
  split
  · rw [List.length_cons, List.length_cons]
    omega
  · exact le_rfl

/-! ## Arguments -/

/-- A text in JSON, without escapes. -/
def quoted (text : String) : String := "\"" ++ text ++ "\""

/-- Bytes as an argument. -/
def hexArg (bytes : List UInt8) : String := quoted (hex0x bytes)

/-- What is assumed of `serde_json`: letters and digits between quotes are a string. -/
def ReadsQuoted (sdk : Sdk) : Prop :=
  ∀ text : String, text.toList.all Char.isAlphanum = true →
    sdk.fromStr (quoted text) = some (.string text)

/-- The arguments of a call of `lz_receive`. -/
structure LzReceiveArgs where
  /-- Chain id, nonce and the like, as decimal numbers. -/
  scalars : List String
  /-- The EVM address of the sending contract. -/
  sender : List UInt8
  guid : List UInt8
  message : List UInt8
  scalars_digits : ∀ scalar ∈ scalars, scalar.toList.all Char.isDigit = true
  scalars_length : ∀ scalar ∈ scalars, scalar.length < 64
  sender_length : sender.length = 20
  guid_length : guid.length = 32
  guid_nonzero : (guid.take 12).any (· ≠ 0) = true
  message_length : message.length = 40 ∨ 72 ≤ message.length

/-- The texts of the arguments: the sender is padded to a word, and there is no extra data. -/
def LzReceiveArgs.texts (args : LzReceiveArgs) : List String :=
  args.scalars.map quoted ++
    [hexArg (List.replicate 12 0 ++ args.sender), hexArg args.guid, hexArg args.message, hexArg []]

section Scans

variable {sdk : Sdk}

theorem parseHexArg_hexArg (hjson : ReadsQuoted sdk) (bytes : List UInt8) :
    parseHexArg sdk (hexArg bytes) = some bytes := by
  have hread : sdk.fromStrString (hexArg bytes) = some (hex0x bytes) := by
    unfold Sdk.fromStrString hexArg
    rw [hjson]
    · rfl
    · rw [toList_hex0x, List.all_cons, List.all_cons, isAlphanum_hexEncode]
      rfl
  unfold parseHexArg
  rw [hread, Option.bind_eq_bind, Option.bind_some, toList_hex0x]
  exact hexDecode_hexEncode bytes

/-- A number decodes to less than 32 bytes, if it does. -/
theorem parseHexArg_scalar (hjson : ReadsQuoted sdk) {scalar : String} {bytes : List UInt8}
    (hdigits : scalar.toList.all Char.isDigit = true) (hlength : scalar.length < 64)
    (h : parseHexArg sdk (quoted scalar) = some bytes) : bytes.length < 32 := by
  have halphanum : scalar.toList.all Char.isAlphanum = true := by
    rw [List.all_eq_true] at hdigits ⊢
    intro c hc
    rw [Char.isAlphanum, hdigits c hc, Bool.or_true]
  have hread : sdk.fromStrString (quoted scalar) = some scalar := by
    unfold Sdk.fromStrString
    rw [hjson scalar halphanum]
    rfl
  unfold parseHexArg at h
  rw [hread, Option.bind_eq_bind, Option.bind_some] at h
  have hbytes := length_hexDecode h
  have hstrip := length_strip0x_le scalar.toList
  rw [String.length_toList] at hstrip
  omega

/-- A scan in which one argument only can match returns what it makes of that one. -/
theorem findSome?_eq_of_only {α β : Type} {f : α → Option β} {l : List α} {a : α} (ha : a ∈ l)
    (h : ∀ b ∈ l, b = a ∨ f b = none) : l.findSome? f = f a := by
  induction l with
  | nil => cases ha
  | cons b l ih =>
    rw [List.findSome?_cons]
    rcases h b (List.mem_cons_self ..) with rfl | hnone
    · cases hb : f b with
      | some c => rfl
      | none =>
        dsimp only
        rw [List.findSome?_eq_none_iff]
        intro c hc
        rcases h c (List.mem_cons_of_mem _ hc) with rfl | hnone
        · exact hb
        · exact hnone
    · rw [hnone]
      rcases List.mem_cons.mp ha with rfl | hmem
      · dsimp only
        rw [hnone, List.findSome?_eq_none_iff]
        intro c hc
        rcases h c (List.mem_cons_of_mem _ hc) with rfl | hnone'
        · exact hnone
        · exact hnone'
      · exact ih hmem fun c hc => h c (List.mem_cons_of_mem _ hc)

theorem mem_texts {args : LzReceiveArgs} {text : String} (h : text ∈ args.texts) :
    (∃ scalar ∈ args.scalars, text = quoted scalar) ∨
      text = hexArg (List.replicate 12 0 ++ args.sender) ∨ text = hexArg args.guid ∨
      text = hexArg args.message ∨ text = hexArg [] := by
  rcases List.mem_append.mp h with hscalar | hbytes
  · obtain ⟨scalar, hmem, rfl⟩ := List.mem_map.mp hscalar
    exact Or.inl ⟨scalar, hmem, rfl⟩
  · simpa using Or.inr hbytes

/-- Only the GUID passes the test for it. -/
theorem guid_only (hjson : ReadsQuoted sdk) (args : LzReceiveArgs) :
    ∀ text ∈ args.texts,
      text = hexArg args.guid ∨ (parseHexArg sdk text).bind guidOfBytes = none := by
  intro text htext
  rcases mem_texts htext with ⟨scalar, hscalar, rfl⟩ | rfl | rfl | rfl | rfl
  · right
    cases hbytes : parseHexArg sdk (quoted scalar) with
    | none => rfl
    | some bytes =>
      have hlt := parseHexArg_scalar hjson (args.scalars_digits scalar hscalar)
        (args.scalars_length scalar hscalar) hbytes
      exact if_neg fun h => absurd h.1 (by omega)
  · right
    rw [parseHexArg_hexArg hjson]
    refine if_neg fun h => ?_
    rw [List.take_left' List.length_replicate] at h
    exact absurd h.2 (by decide)
  · exact Or.inl rfl
  · right
    rw [parseHexArg_hexArg hjson]
    exact if_neg fun h => absurd h.1 (by have := args.message_length; omega)
  · right
    rw [parseHexArg_hexArg hjson]
    rfl

/-- Only the message can have a compose sender. -/
theorem message_only (hjson : ReadsQuoted sdk) (args : LzReceiveArgs) :
    ∀ text ∈ args.texts,
      text = hexArg args.message ∨ (parseHexArg sdk text).bind decodeOftSender = none := by
  intro text htext
  rcases mem_texts htext with ⟨scalar, hscalar, rfl⟩ | rfl | rfl | rfl | rfl
  · right
    cases hbytes : parseHexArg sdk (quoted scalar) with
    | none => rfl
    | some bytes =>
      have hlt := parseHexArg_scalar hjson (args.scalars_digits scalar hscalar)
        (args.scalars_length scalar hscalar) hbytes
      exact decodeOftSender_of_length_lt (by omega)
  · right
    rw [parseHexArg_hexArg hjson]
    refine decodeOftSender_of_length_lt ?_
    rw [List.length_append, List.length_replicate, args.sender_length]
    decide
  · right
    rw [parseHexArg_hexArg hjson]
    refine decodeOftSender_of_length_lt ?_
    rw [args.guid_length]
    decide
  · exact Or.inl rfl
  · right
    rw [parseHexArg_hexArg hjson]
    rfl

end Scans

/-- **The scans of the payload.** A message decodes to its compose sender and nothing else
decodes; among the arguments of a call of `lz_receive`, in whatever order, the GUID is found,
and a compose sender exactly if the message carries it. -/
theorem lz_receive_arguments (sdk : Sdk) (hjson : ReadsQuoted sdk) :
    (∀ message : OftMessage,
      decodeOftSender message.encode = some (hex0x message.composeSender)) ∧
    (∀ bytes text, decodeOftSender bytes = some text →
      ∃ message : OftMessage, bytes = message.encode ∧ text = hex0x message.composeSender) ∧
    ∀ (args : LzReceiveArgs) (texts : List String), texts.Perm args.texts →
      extractGuidFromArgs sdk texts = some (hex0x args.guid) ∧
      ∀ text, scanArgsForOftSender sdk texts = some text ↔
        ∃ message : OftMessage, args.message = message.encode ∧
          text = hex0x message.composeSender := by
  refine ⟨decodeOftSender_encode, fun _ _ => exists_of_decodeOftSender, ?_⟩
  intro args texts hperm
  constructor
  · have hmem : hexArg args.guid ∈ texts := hperm.mem_iff.mpr (by simp [LzReceiveArgs.texts])
    unfold extractGuidFromArgs
    rw [findSome?_eq_of_only hmem fun text htext =>
      guid_only hjson args text (hperm.mem_iff.mp htext), parseHexArg_hexArg hjson]
    exact if_pos ⟨args.guid_length, args.guid_nonzero⟩
  · intro text
    have hmem : hexArg args.message ∈ texts := hperm.mem_iff.mpr (by simp [LzReceiveArgs.texts])
    unfold scanArgsForOftSender
    rw [findSome?_eq_of_only hmem fun text htext =>
      message_only hjson args text (hperm.mem_iff.mp htext), parseHexArg_hexArg hjson]
    exact decodeOftSender_eq_some_iff

/-- An `Sdk` that reads texts between quotes, and no other JSON. -/
def quoteSdk : Sdk where
  standardizeAddress := id
  fromStr text :=
    match text.toList with
    | first :: rest =>
      if first = Char.ofNat 34 ∧ rest.getLast? = some (Char.ofNat 34) then
        some (.string (String.ofList rest.dropLast))
      else none
    | [] => none
  bigDecimal _ := none
  parseTimestamp _ _ := 0

theorem readsQuoted_quoteSdk : ReadsQuoted quoteSdk := by
  intro text _
  have hlist : (quoted text).toList = Char.ofNat 34 :: (text.toList ++ [Char.ofNat 34]) := by
    rw [quoted, String.toList_append, String.toList_append]
    rfl
  show (match (quoted text).toList with
    | first :: rest =>
      if first = Char.ofNat 34 ∧ rest.getLast? = some (Char.ofNat 34) then
        some (Json.string (String.ofList rest.dropLast))
      else none
    | [] => none) = _
  rw [hlist]
  dsimp only
  rw [if_pos ⟨rfl, List.getLast?_concat⟩, List.dropLast_concat, String.ofList_toList]

/-- A transfer of 1000 with four bytes of compose data. -/
def composedMessage : OftMessage where
  recipient := List.replicate 32 0
  amountSd := [0, 0, 0, 0, 0, 0, 3, 232]
  composeSender := List.replicate 20 0xDE
  composeMsg := [0, 0, 0, 0]
  recipient_length := by decide
  amountSd_length := by decide
  composeSender_length := by decide
  composeSender_ne_zero := ⟨0xDE, by decide, by decide⟩

def composedArgs : LzReceiveArgs where
  scalars := ["30101", "42"]
  sender := List.replicate 20 0xA0
  guid := List.replicate 32 0xAA
  message := composedMessage.encode
  scalars_digits := by decide
  scalars_length := by decide
  sender_length := by decide
  guid_length := by decide
  guid_nonzero := by decide
  message_length := Or.inr (le_length_encode composedMessage)

/-- The GUID and the compose sender of a call are found. -/
theorem scans_of_composed_message :
    extractGuidFromArgs quoteSdk composedArgs.texts = some (hex0x (List.replicate 32 0xAA)) ∧
    scanArgsForOftSender quoteSdk composedArgs.texts =
      some (hex0x (List.replicate 20 0xDE)) := by
  obtain ⟨-, -, hscans⟩ := lz_receive_arguments quoteSdk readsQuoted_quoteSdk
  obtain ⟨hguid, hsender⟩ := hscans composedArgs composedArgs.texts (List.Perm.refl _)
  exact ⟨hguid, (hsender _).mpr ⟨composedMessage, rfl, rfl⟩⟩

end IndexerProcessors.Reputation

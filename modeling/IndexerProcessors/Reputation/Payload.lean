import IndexerProcessors.Lib.Hex
import IndexerProcessors.Transaction

/-!
# Payload decoders of the bridge transactions

When a bridge event does not carry its EVM depositor, the extractor looks for it
in the transaction's payload arguments. `intent_payload.rs` reads it out of
Circle's `IntentPayload`, `lz_payload.rs` out of a LayerZero OFT message with
compose data; both find a 20-byte address right-aligned in a 32-byte word.
`lz_payload.rs` also recovers the LayerZero GUID.

The two `parse_hex_arg` functions of the source are the same function and are
one definition here, as are the two checks of the address word.
-/

namespace IndexerProcessors.Reputation

open IndexerProcessors.Lib

/-- `s.strip_prefix("0x").unwrap_or(&s)`, on characters. -/
def strip0x : List Char → List Char
  | '0' :: 'x' :: rest => rest
  | cs => cs

/-- `parse_hex_arg`: a JSON-quoted hex argument as raw bytes. -/
def parseHexArg (sdk : Sdk) (argJson : String) : Option (List UInt8) := do
  let s ← sdk.fromStrString argJson
  hexDecode (strip0x s.toList)

/-- The address in the 32-byte word at `offset`: twelve zero bytes, then twenty
that are not all zero. -/
def decodeAddressWord (offset : Nat) (bytes : List UInt8) : Option String :=
  if bytes.length < offset + 32 then none
  else
    let word := (bytes.drop offset).take 32
    if (word.take 12).any (· ≠ 0) then none
    else if (word.drop 12).all (· = 0) then none
    else some (hex0x (word.drop 12))

/-- `LOCAL_DEPOSITOR_OFFSET`. -/
def localDepositorOffset : Nat := 140

/-- `decode_local_depositor`. -/
def decodeLocalDepositor (bytes : List UInt8) : Option String :=
  decodeAddressWord localDepositorOffset bytes

/-- `COMPOSE_SENDER_OFFSET`. -/
def composeSenderOffset : Nat := 40

/-- `decode_oft_sender`. -/
def decodeOftSender (bytes : List UInt8) : Option String :=
  decodeAddressWord composeSenderOffset bytes

/-- `scan_args_for_oft_sender`: the first argument that decodes. -/
def scanArgsForOftSender (sdk : Sdk) (args : List String) : Option String :=
  args.findSome? fun arg => (parseHexArg sdk arg).bind decodeOftSender

/-- The GUID test of `extract_guid_from_args` on one argument. -/
def guidOfBytes (bytes : List UInt8) : Option String :=
  if bytes.length = 32 ∧ (bytes.take 12).any (· ≠ 0) then some (hex0x bytes) else none

/-- `extract_guid_from_args`: the first argument of 32 bytes whose upper 12 are
not all zero. -/
def extractGuidFromArgs (sdk : Sdk) (args : List String) : Option String :=
  args.findSome? fun arg => (parseHexArg sdk arg).bind guidOfBytes

/-- The argument list of either payload kind that has one. -/
def payloadArgs (txn : Transaction) : Option (List String) :=
  match txn.txnData with
  | some (.user _ (some (.entryFunctionPayload args))) => some args
  | some (.user _ (some (.scriptPayload args))) => some args
  | _ => none

/-- `decode_payload_evm_source`: dispatch on the registry's decoder name. -/
def decodePayloadEvmSource (sdk : Sdk) (txn : Transaction) (kind : Option String) :
    Option String := do
  let kind ← kind
  let args ← payloadArgs txn
  if kind = "circle_intent" then
    let arg ← args.head?
    let bytes ← parseHexArg sdk arg
    decodeLocalDepositor bytes
  else if kind = "layerzero_oft" then scanArgsForOftSender sdk args
  else none

/-- `extract_payload_guid`. -/
def extractPayloadGuid (sdk : Sdk) (txn : Transaction) (kind : Option String) :
    Option String := do
  let kind ← kind
  if kind ≠ "layerzero_oft" then none
  else
    let args ← payloadArgs txn
    extractGuidFromArgs sdk args

end IndexerProcessors.Reputation

import IndexerProcessors.Lib.Table
import IndexerProcessors.Reputation.Model
import IndexerProcessors.Reputation.Payload

/-!
# The address reputation extractor

`address_reputation_extractor.rs` turns a batch of transactions into transfer
edges and bridge inflows. Per transaction it

1. scans the write set for the owner and the asset of each store touched;
2. classifies the events into bridge inflows, withdraws and deposits;
3. pairs withdraws with deposits of equal amount, greedily, and flags a pair as
   a bridge inflow where one of the transaction's inflows has its recipient and
   amount;
4. adds one head edge per bridge inflow, from the bridge's module to the
   recipient.

An inflow can so reach the storer as two edges, its own head edge and a flagged
pair. `Crediting` is about what that does to the rollup.
-/

namespace IndexerProcessors.Reputation

open IndexerProcessors.Lib

/-! ## Reading a bridge event -/

/-- `json_field`: walk a dot-separated path and print the leaf, which has to be
a string or a number. -/
def jsonField (data : Json) (path : String) : Option String :=
  let segs := (path.toList.splitOn '.').map String.ofList
  match segs.foldlM (fun cur seg => Json.get seg cur) data with
  | some (.string s) => some s
  | some (.number n) => some n
  | _ => none

/-- A non-empty run of decimal digits. -/
def parseDigits : List Char → Option ℕ
  | [] => none
  | cs => cs.foldlM (fun n c => if c.isDigit then some (10 * n + (c.toNat - '0'.toNat)) else none) 0

/-- `str::parse::<i32>`: an optional sign, digits, and no overflow. -/
def parseI32 (s : String) : Option Int32 :=
  match s.toList with
  | '-' :: ds => (parseDigits ds).bind fun n => if n ≤ 2 ^ 31 then some (Int32.ofInt (-n)) else none
  | '+' :: ds => (parseDigits ds).bind fun n => if n < 2 ^ 31 then some (Int32.ofInt n) else none
  | ds => (parseDigits ds).bind fun n => if n < 2 ^ 31 then some (Int32.ofInt n) else none

/-- `parse_bridge_event`: recipient and amount are required, the EVM source and
the chain id are not. -/
def parseBridgeEvent (sdk : Sdk) (raw : String) (entry : BridgeRegistryEntry)
    (txnVersion eventIndex : Int64) (blockTimestamp : NaiveDateTime) : Option BridgeInflow := do
  let v ← sdk.fromStr raw
  let evmSource := entry.evmSourceFieldPath.bind (jsonField v)
  let recipient ← jsonField v entry.recipientFieldPath
  let amount ← sdk.bigDecimal (← jsonField v entry.amountFieldPath)
  let srcChainId := (entry.chainIdFieldPath.bind (jsonField v)).bind parseI32
  return {
    transactionVersion := txnVersion
    eventIndex := eventIndex
    bridgeName := entry.bridgeName
    aptosRecipient := sdk.standardizeAddress recipient
    evmSource := evmSource
    srcChainId := srcChainId
    assetType := none
    amount := amount
    lzGuid := none
    transactionTimestamp := blockTimestamp }

/-- A parsed bridge event with what its transaction's payload adds to it. -/
def fillFromPayload (sdk : Sdk) (txn : Transaction) (kind : Option String)
    (inflow : BridgeInflow) : BridgeInflow :=
  { inflow with
    evmSource := inflow.evmSource.or (decodePayloadEvmSource sdk txn kind)
    lzGuid := inflow.lzGuid.or (extractPayloadGuid sdk txn kind) }

/-! ## Stores -/

/-- The two per-transaction maps from a store to its owner and to its asset. -/
structure StorageMaps where
  storageToOwner : Table String String
  storageToAsset : Table String String

/-- `FungibleStore.metadata.inner` of a write resource. -/
def fungibleStoreMetadata (sdk : Sdk) (wr : WriteResource) : Option String := do
  if wr.typeStr ≠ "0x1::fungible_asset::FungibleStore" then none
  else
    let parsed ← sdk.fromStr wr.data
    (← (← parsed.get "metadata").get "inner").asStr

/-- One write-set change; a later write to the same store replaces an earlier
one. -/
def scanChange (sdk : Sdk) (maps : StorageMaps) : Change → StorageMaps
  | .other => maps
  | .writeResource wr =>
    let store := sdk.standardizeAddress wr.address
    { storageToOwner :=
        match ObjectCore.fromWriteResource sdk wr with
        | some core => maps.storageToOwner.insert store (core.getOwnerAddress sdk)
        | none => maps.storageToOwner
      storageToAsset :=
        match fungibleStoreMetadata sdk wr with
        | some asset => maps.storageToAsset.insert store (sdk.standardizeAddress asset)
        | none => maps.storageToAsset }

def scanChanges (sdk : Sdk) (txn : Transaction) : StorageMaps :=
  (txn.info.getD []).foldl (scanChange sdk) ⟨∅, ∅⟩

/-! ## Classifying events -/

/-- One side of a transfer. -/
structure ParsedSide where
  eventIndex : Int64
  address : String
  storageId : String
  amount : ℚ
  deriving DecidableEq, Repr

/-- `FA_WITHDRAW`. -/
def faWithdraw : String := "0x1::fungible_asset::Withdraw"

/-- `FA_DEPOSIT`. -/
def faDeposit : String := "0x1::fungible_asset::Deposit"

/-- What the first pass makes of an event. -/
inductive Classified where
  | bridge (inflow : BridgeInflow)
  | withdraw (side : ParsedSide)
  | deposit (side : ParsedSide)
  | skipped

/-- The participant and the amount of a withdraw or deposit event. The owner
falls back to the store itself where no `ObjectCore` was written. -/
def parseSide (sdk : Sdk) (maps : StorageMaps) (eventIndex : Int64) (data : String) :
    Option ParsedSide := do
  let v ← sdk.fromStr data
  let storageId := sdk.standardizeAddress (← (← v.get "store").asStr)
  let owner := (maps.storageToOwner.lookup storageId).getD storageId
  let amount ← sdk.bigDecimal (← (← v.get "amount").asStr)
  return { eventIndex, address := owner, storageId, amount }

/-- `registry.iter().find(…).and_then(parse)`: the inflow of a registered
bridge event. -/
def bridgeInflow (sdk : Sdk) (registry : BridgeRegistry) (txn : Transaction)
    (blockTimestamp : NaiveDateTime) (eventIndex : Int64) (event : Event) :
    Option BridgeInflow := do
  let entry ← registry.find? fun e => e.enabled ∧ e.eventType = event.typeStr
  let inflow ← parseBridgeEvent sdk event.data entry txn.version.toInt64 eventIndex blockTimestamp
  return fillFromPayload sdk txn entry.payloadKind inflow

/-- The bridge check comes first; a registered event that does not parse falls
through to the withdraw / deposit check. -/
def classifyEvent (sdk : Sdk) (registry : BridgeRegistry) (txn : Transaction)
    (blockTimestamp : NaiveDateTime) (maps : StorageMaps) (eventIndex : Int64) (event : Event) :
    Classified :=
  match bridgeInflow sdk registry txn blockTimestamp eventIndex event with
  | some inflow => .bridge inflow
  | none =>
    if event.typeStr = faWithdraw then
      (parseSide sdk maps eventIndex event.data).elim .skipped .withdraw
    else if event.typeStr = faDeposit then
      (parseSide sdk maps eventIndex event.data).elim .skipped .deposit
    else .skipped

/-- The first pass over one transaction. -/
structure TxnSides where
  maps : StorageMaps
  withdraws : List ParsedSide
  deposits : List ParsedSide
  txnInflows : List BridgeInflow

def classifyEvents (sdk : Sdk) (registry : BridgeRegistry) (txn : Transaction)
    (blockTimestamp : NaiveDateTime) (events : List Event) : TxnSides :=
  let maps := scanChanges sdk txn
  let classified := events.zipIdx.map fun e =>
    classifyEvent sdk registry txn blockTimestamp maps (Int64.ofNat e.2) e.1
  { maps
    withdraws := classified.filterMap fun | .withdraw side => some side | _ => none
    deposits := classified.filterMap fun | .deposit side => some side | _ => none
    txnInflows := classified.filterMap fun | .bridge inflow => some inflow | _ => none }

/-! ## Pairing -/

/-- Find the first deposit that is unused, has the withdraw's amount and another
owner, and mark it used. -/
def takeDeposit (w : ParsedSide) :
    List (ParsedSide × Bool) → Option (ParsedSide × List (ParsedSide × Bool))
  | [] => none
  | (d, used) :: rest =>
    if used = false ∧ d.amount = w.amount ∧ d.address ≠ w.address then
      some (d, (d, true) :: rest)
    else (takeDeposit w rest).map fun m => (m.1, (d, used) :: m.2)

/-- Greedy first match, withdraws in event order. -/
def pairWithdraws : List ParsedSide → List (ParsedSide × Bool) → List (ParsedSide × ParsedSide)
  | [], _ => []
  | w :: ws, ds =>
    match takeDeposit w ds with
    | some (d, ds') => (w, d) :: pairWithdraws ws ds'
    | none => pairWithdraws ws ds

/-- The pairs of a transaction. -/
def TxnSides.pairs (sides : TxnSides) : List (ParsedSide × ParsedSide) :=
  pairWithdraws sides.withdraws (sides.deposits.map fun d => (d, false))

/-- The transaction's inflow a paired deposit is taken to deliver. -/
def bridgeMatch (sides : TxnSides) (d : ParsedSide) : Option BridgeInflow :=
  sides.txnInflows.find? fun bi => bi.aptosRecipient = d.address ∧ bi.amount = d.amount

/-- The asset of a pair: that of the withdraw's store, else of the deposit's. -/
def pairAsset (sides : TxnSides) (w d : ParsedSide) : Option String :=
  (sides.maps.storageToAsset.lookup w.storageId).or (sides.maps.storageToAsset.lookup d.storageId)

def pairedEdge (txnVersion : Int64) (blockTimestamp : NaiveDateTime) (sides : TxnSides)
    (w d : ParsedSide) : TransferEdge where
  transactionVersion := txnVersion
  eventIndex := w.eventIndex
  fromAddress := w.address
  toAddress := d.address
  assetType := pairAsset sides w d
  amount := w.amount
  isBridgeInflow := (bridgeMatch sides d).isSome
  bridgeName := (bridgeMatch sides d).map (·.bridgeName)
  transactionTimestamp := blockTimestamp

/-! ## Head edges -/

/-- The asset of an inflow: that of the first deposit of its amount to its
recipient whose store's asset is known. -/
def inflowAsset (sides : TxnSides) (bi : BridgeInflow) : Option String :=
  sides.deposits.findSome? fun d =>
    if d.address = bi.aptosRecipient ∧ d.amount = bi.amount then
      sides.maps.storageToAsset.lookup d.storageId
    else none

/-- The inflow as it is stored. -/
def resolvedInflow (sides : TxnSides) (bi : BridgeInflow) : BridgeInflow :=
  { bi with assetType := (inflowAsset sides bi).or bi.assetType }

/-- The node a bridge is in the graph. -/
def bridgeNode (registry : BridgeRegistry) (bridgeName : String) : String :=
  match registry.find? fun e => e.bridgeName = bridgeName with
  | some e => e.moduleAddress
  | none => "bridge::" ++ bridgeName

def headEdge (registry : BridgeRegistry) (sides : TxnSides) (bi : BridgeInflow) :
    TransferEdge where
  transactionVersion := bi.transactionVersion
  eventIndex := bi.eventIndex
  fromAddress := bridgeNode registry bi.bridgeName
  toAddress := bi.aptosRecipient
  assetType := inflowAsset sides bi
  amount := bi.amount
  isBridgeInflow := true
  bridgeName := some bi.bridgeName
  transactionTimestamp := bi.transactionTimestamp

/-! ## The extractor -/

/-- A transaction the extractor does not skip: its version, block time and
first-pass result. -/
structure ParsedTxn where
  txnVersion : Int64
  blockTimestamp : NaiveDateTime
  sides : TxnSides

/-- Transactions without a timestamp and transactions that are not user
transactions are skipped. -/
def parseTxn (sdk : Sdk) (registry : BridgeRegistry) (txn : Transaction) : Option ParsedTxn := do
  let ts ← txn.timestamp
  let txnVersion := txn.version.toInt64
  let blockTimestamp := sdk.parseTimestamp ts txnVersion
  match ← txn.txnData with
  | .user events _ =>
    return { txnVersion, blockTimestamp,
             sides := classifyEvents sdk registry txn blockTimestamp events }
  | .other => none

def ParsedTxn.pairedEdges (p : ParsedTxn) : List TransferEdge :=
  p.sides.pairs.map fun wd => pairedEdge p.txnVersion p.blockTimestamp p.sides wd.1 wd.2

def ParsedTxn.headEdges (registry : BridgeRegistry) (p : ParsedTxn) : List TransferEdge :=
  p.sides.txnInflows.map (headEdge registry p.sides)

def ParsedTxn.inflows (p : ParsedTxn) : List BridgeInflow :=
  p.sides.txnInflows.map (resolvedInflow p.sides)

/-- The EVM addresses sent to the enricher, in event order. -/
def ParsedTxn.sentEvms (p : ParsedTxn) : List String :=
  p.sides.txnInflows.filterMap (·.evmSource)

/-- Output of the extractor: what goes to the storer, and what was sent on the
EVM channel. -/
structure Extracted where
  edges : List TransferEdge
  inflows : List BridgeInflow
  sentEvms : List String

/-- `AddressReputationExtractor::process`. -/
def extract (sdk : Sdk) (registry : BridgeRegistry) (txns : List Transaction) : Extracted :=
  let parsed := txns.filterMap (parseTxn sdk registry)
  { edges := parsed.flatMap fun p => p.pairedEdges ++ p.headEdges registry
    inflows := parsed.flatMap ParsedTxn.inflows
    sentEvms := parsed.flatMap ParsedTxn.sentEvms }

/-! ## What the extractor emits -/

/-- A deposit taken for a withdraw is one of the list, of equal amount and with
another owner; taking it changes only flags. -/
theorem takeDeposit_spec {w d : ParsedSide} :
    ∀ {ds ds' : List (ParsedSide × Bool)}, takeDeposit w ds = some (d, ds') →
      d ∈ ds.map Prod.fst ∧ d.amount = w.amount ∧ d.address ≠ w.address ∧
      ds'.map Prod.fst = ds.map Prod.fst := by
  intro ds
  induction ds with
  | nil => intro ds' h; cases h
  | cons head rest ih =>
    intro ds' h
    obtain ⟨d0, used⟩ := head
    unfold takeDeposit at h
    split at h
    next hc =>
      obtain ⟨rfl, rfl⟩ := Prod.mk.inj (Option.some.inj h)
      exact ⟨List.mem_cons_self .., hc.2.1, hc.2.2, rfl⟩
    next =>
      obtain ⟨⟨m, ds''⟩, hm, heq⟩ := Option.map_eq_some_iff.mp h
      obtain ⟨rfl, rfl⟩ := Prod.mk.inj heq
      obtain ⟨hmem, hamt, haddr, hmap⟩ := ih hm
      exact ⟨List.mem_cons_of_mem _ hmem, hamt, haddr, by
        rw [List.map_cons, List.map_cons, hmap]⟩

theorem pairWithdraws_spec {w d : ParsedSide} :
    ∀ {ws : List ParsedSide} {ds : List (ParsedSide × Bool)}, (w, d) ∈ pairWithdraws ws ds →
      w ∈ ws ∧ d ∈ ds.map Prod.fst ∧ d.amount = w.amount ∧ d.address ≠ w.address := by
  intro ws
  induction ws with
  | nil => intro ds h; cases h
  | cons w0 ws ih =>
    intro ds h
    unfold pairWithdraws at h
    split at h
    next d0 ds' htake =>
      obtain ⟨hmem, hamt, haddr, hmap⟩ := takeDeposit_spec htake
      rcases List.mem_cons.mp h with heq | hrest
      · obtain ⟨rfl, rfl⟩ := Prod.mk.inj heq
        exact ⟨List.mem_cons_self .., hmem, hamt, haddr⟩
      · obtain ⟨hw, hd, hrest⟩ := ih hrest
        exact ⟨List.mem_cons_of_mem _ hw, hmap ▸ hd, hrest⟩
    next =>
      obtain ⟨hw, hrest⟩ := ih h
      exact ⟨List.mem_cons_of_mem _ hw, hrest⟩

/-- A parsed bridge event has no asset: that is resolved from the deposits. -/
theorem bridgeInflow_assetType {sdk : Sdk} {registry : BridgeRegistry} {txn : Transaction}
    {ts : NaiveDateTime} {idx : Int64} {event : Event} {bi : BridgeInflow}
    (h : bridgeInflow sdk registry txn ts idx event = some bi) : bi.assetType = none := by
  simp only [bridgeInflow, Option.bind_eq_bind, Option.bind_eq_some_iff] at h
  obtain ⟨entry, _, inflow, hparse, hfill⟩ := h
  obtain rfl := Option.some.inj hfill
  simp only [parseBridgeEvent, Option.bind_eq_bind, Option.bind_eq_some_iff] at hparse
  obtain ⟨v, _, recipient, _, text, _, amount, _, hinflow⟩ := hparse
  obtain rfl := Option.some.inj hinflow
  rfl

theorem txnInflows_assetType {sdk : Sdk} {registry : BridgeRegistry} {txn : Transaction}
    {p : ParsedTxn} (hp : parseTxn sdk registry txn = some p) {bi : BridgeInflow}
    (h : bi ∈ p.sides.txnInflows) : bi.assetType = none := by
  simp only [parseTxn, Option.bind_eq_bind, Option.bind_eq_some_iff] at hp
  obtain ⟨ts, _, data, _, hdata⟩ := hp
  cases data with
  | other => cases hdata
  | user events payload =>
    obtain rfl := Option.some.inj hdata
    simp only [classifyEvents, List.mem_filterMap, List.mem_map] at h
    obtain ⟨c, ⟨e, _, hclass⟩, hc⟩ := h
    cases c with
    | bridge inflow =>
      obtain rfl := Option.some.inj hc
      unfold classifyEvent at hclass
      split at hclass
      next bi' hb =>
        obtain rfl := Classified.bridge.inj hclass
        exact bridgeInflow_assetType hb
      next =>
        split_ifs at hclass <;> cases hside : parseSide sdk (scanChanges sdk txn)
          (Int64.ofNat e.2) e.1.data <;> rw [hside] at hclass <;> cases hclass
    | withdraw side => cases hc
    | deposit side => cases hc
    | skipped => cases hc

end IndexerProcessors.Reputation

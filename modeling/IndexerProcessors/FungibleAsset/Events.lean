import IndexerProcessors.Resources

/-!
# Events of coins and fungible assets

The events are known by their type, and what has the type of an event has to parse as
one. Coins have the events that belong to a coin store and are told apart by their
key, and the later ones with the account and the coin type in their data; fungible
assets likewise have two of each.
-/

namespace IndexerProcessors.FungibleAsset

/-- An event that is parsed if it has a certain type; the outer `none` is the failure
of an event that has the type and does not parse. -/
def eventOfType {α : Type} (sdk : Sdk) (eventType : String) (parse : Json → Option α)
    (typeStr data : String) : Option (Option α) :=
  if typeStr = eventType then ((sdk.fromStr data).bind parse).map some else some none

/-- `FeeStatement`, of which the refund is read. -/
structure FeeStatement where
  storageFeeRefundOctas : UInt64
  deriving DecidableEq

def FeeStatement.ofJson (v : Json) : Option FeeStatement := do
  let storageFeeRefundOctas ← u64FromStr (← v.getStr "storage_fee_refund_octas")
  return { storageFeeRefundOctas }

/-- `FeeStatement::from_event`. -/
def FeeStatement.fromEvent (sdk : Sdk) (typeStr data : String) : Option (Option FeeStatement) :=
  eventOfType sdk "0x1::transaction_fee::FeeStatement" FeeStatement.ofJson typeStr data

/-- The `find_map` over the events of a transaction: the first fee statement; later
events are not read. -/
def findFeeStatement (sdk : Sdk) : List (String × String) → Option (Option FeeStatement)
  | [] => some none
  | (typeStr, data) :: events => do
    match ← FeeStatement.fromEvent sdk typeStr data with
    | some feeStatement => return some feeStatement
    | none => findFeeStatement sdk events

/-! ## Events of coins -/

/-- A text of a known type, as the variant of its type. -/
def parsedAs {α β : Type} (sdk : Sdk) (data : String) (ofJson : Json → Option α) (variant : α → β) :
    Option (Option β) :=
  ((sdk.fromStr data).bind ofJson).map fun inner => some (variant inner)

/-- `WithdrawCoinEvent` and `DepositCoinEvent`, `WithdrawEvent` and `DepositEvent`: an
amount that is not said of what. -/
structure AmountData where
  amount : ℚ

def AmountData.ofJson (sdk : Sdk) (v : Json) : Option AmountData := do
  let amount ← v.getBigDecimal sdk "amount"
  return { amount }

/-- `WithdrawCoinEventV2` and `DepositCoinEventV2`. -/
structure CoinAmountData where
  coinType : String
  account : String
  amount : ℚ

def CoinAmountData.ofJson (sdk : Sdk) (v : Json) : Option CoinAmountData := do
  let coinType ← v.getStr "coin_type"
  let account ← v.getStr "account"
  let amount ← v.getBigDecimal sdk "amount"
  return { coinType, account, amount }

inductive CoinEvent where
  | withdrawCoinEvent (inner : AmountData)
  | depositCoinEvent (inner : AmountData)
  | withdrawCoinEventV2 (inner : CoinAmountData)
  | depositCoinEventV2 (inner : CoinAmountData)

/-- `CoinEvent::from_event`. -/
def CoinEvent.fromEvent (sdk : Sdk) (typeStr data : String) : Option (Option CoinEvent) :=
  if typeStr = "0x1::coin::WithdrawEvent" then
    parsedAs sdk data (AmountData.ofJson sdk) .withdrawCoinEvent
  else if typeStr = "0x1::coin::DepositEvent" then
    parsedAs sdk data (AmountData.ofJson sdk) .depositCoinEvent
  else if typeStr = "0x1::coin::CoinWithdraw" then
    parsedAs sdk data (CoinAmountData.ofJson sdk) .withdrawCoinEventV2
  else if typeStr = "0x1::coin::CoinDeposit" then
    parsedAs sdk data (CoinAmountData.ofJson sdk) .depositCoinEventV2
  else some none

/-- The types of these events. -/
def coinEventTypes : List String :=
  ["0x1::coin::WithdrawEvent", "0x1::coin::DepositEvent", "0x1::coin::CoinWithdraw",
    "0x1::coin::CoinDeposit"]

theorem CoinEvent.fromEvent_of_notMem {sdk : Sdk} {typeStr data : String}
    (h : typeStr ∉ coinEventTypes) : CoinEvent.fromEvent sdk typeStr data = some none := by
  simp only [coinEventTypes, List.mem_cons, List.not_mem_nil, or_false, not_or] at h
  unfold CoinEvent.fromEvent
  rw [if_neg h.1, if_neg h.2.1, if_neg h.2.2.1, if_neg h.2.2.2]

/-! ## Events of fungible assets -/

/-- `FrozenEvent`. -/
structure FrozenData where
  frozen : Bool

def FrozenData.ofJson (v : Json) : Option FrozenData := do
  let frozen ← v.getBool "frozen"
  return { frozen }

/-- `DepositEventV2` and `WithdrawEventV2`. -/
structure StoreAmountData where
  store : String
  amount : ℚ

def StoreAmountData.ofJson (sdk : Sdk) (v : Json) : Option StoreAmountData := do
  let store ← v.getStr "store"
  let amount ← v.getBigDecimal sdk "amount"
  return { store, amount }

/-- `FrozenEventV2`. -/
structure StoreFrozenData where
  store : String
  frozen : Bool

def StoreFrozenData.ofJson (v : Json) : Option StoreFrozenData := do
  let store ← v.getStr "store"
  let frozen ← v.getBool "frozen"
  return { store, frozen }

inductive FungibleAssetEvent where
  | depositEvent (inner : AmountData)
  | withdrawEvent (inner : AmountData)
  | frozenEvent (inner : FrozenData)
  | depositEventV2 (inner : StoreAmountData)
  | withdrawEventV2 (inner : StoreAmountData)
  | frozenEventV2 (inner : StoreFrozenData)

/-- `FungibleAssetEvent::from_event`. -/
def FungibleAssetEvent.fromEvent (sdk : Sdk) (typeStr data : String) :
    Option (Option FungibleAssetEvent) :=
  if typeStr = "0x1::fungible_asset::DepositEvent" then
    parsedAs sdk data (AmountData.ofJson sdk) .depositEvent
  else if typeStr = "0x1::fungible_asset::WithdrawEvent" then
    parsedAs sdk data (AmountData.ofJson sdk) .withdrawEvent
  else if typeStr = "0x1::fungible_asset::FrozenEvent" then
    parsedAs sdk data FrozenData.ofJson .frozenEvent
  else if typeStr = "0x1::fungible_asset::Deposit" then
    parsedAs sdk data (StoreAmountData.ofJson sdk) .depositEventV2
  else if typeStr = "0x1::fungible_asset::Withdraw" then
    parsedAs sdk data (StoreAmountData.ofJson sdk) .withdrawEventV2
  else if typeStr = "0x1::fungible_asset::Frozen" then
    parsedAs sdk data StoreFrozenData.ofJson .frozenEventV2
  else some none

/-- No event is one of a coin and one of a fungible asset. -/
theorem FungibleAssetEvent.fromEvent_of_coin {sdk : Sdk} {typeStr data : String}
    (h : typeStr ∈ coinEventTypes) : FungibleAssetEvent.fromEvent sdk typeStr data = some none := by
  simp only [coinEventTypes, List.mem_cons, List.not_mem_nil, or_false] at h
  rcases h with rfl | rfl | rfl | rfl
  · rfl
  · rfl
  · rfl
  · rfl

end IndexerProcessors.FungibleAsset

import IndexerProcessors.Lib.Fallible
import IndexerProcessors.Lib.LastWriter
import IndexerProcessors.Resources

/-!
# Name service records

The name service has two contracts. The first keeps its names in two Move tables,
whose handles are configured: writes and deletes of their items are the changes.
The second keeps a `NameRecord` resource for each name, with a `SubdomainExt`
beside it if the name is a subdomain, and announces primary names with
`SetReverseLookupEvent`s. `parse_ans` reads all four into rows of two tables,
`current_ans_lookup_v2` and `current_ans_primary_name_v2`, in which the token
standard tells the contracts apart.
-/

namespace IndexerProcessors.Ans

open IndexerProcessors.Lib
open IndexerProcessors.Protos

/-- What the processor calls outside the repository, beyond `Sdk`. -/
structure AnsSdk extends Sdk where
  /-- `chrono::NaiveDateTime::from_timestamp_opt`. -/
  fromTimestampOpt : Int64 → UInt32 → Option NaiveDateTime
  /-- `truncate_str`. -/
  truncateStr : String → Nat → String
  /-- `get_name_from_unnested_move_type`. -/
  getNameFromUnnestedMoveType : String → String
  /-- `parse_timestamp_secs(bigdecimal_to_u64(secs), 0).naive_utc()`; it panics on a
  number that is no `u64`. -/
  expirationTime : ℚ → Option NaiveDateTime

/-- `AnsProcessorConfig`, as far as `parse_ans` gets it. -/
structure AnsConfig where
  ansV1PrimaryNamesTableHandle : String
  ansV1NameRecordsTableHandle : String
  ansV2ContractAddress : String

/-- `DOMAIN_LENGTH`. -/
def domainLength : Nat := 64

/-! ## JSON values -/

/-- `OptionalString`. -/
structure OptionalString where
  vec : List String
  deriving DecidableEq

/-- `OptionalString::get_string`. -/
def OptionalString.getString (s : OptionalString) : Option String := s.vec.head?

def OptionalString.ofJson (v : Json) : Option OptionalString := do
  let items ← (← v.get "vec").asArray
  let vec ← items.mapM Json.asStr
  return { vec }

/-- `OptionalBigDecimal`, of which nothing is read. -/
def optionalBigDecimalOfJson (sdk : AnsSdk) (v : Json) : Option (List ℚ) := do
  let items ← (← v.get "vec").asArray
  items.mapM fun item => item.asStr.bind sdk.bigDecimal

/-- An `i64` of a JSON value. -/
def asI64 : Json → Option Int64
  | .number text => text.toInt?.bind fun n =>
      if -2 ^ 63 ≤ n ∧ n < 2 ^ 63 then some (Int64.ofInt n) else none
  | _ => none

/-! ## Records of the first contract -/

/-- `get_token_name`. -/
def getTokenName (sdk : AnsSdk) (domainName subdomainName : String) : String :=
  let domain := sdk.truncateStr domainName domainLength
  let subdomain := sdk.truncateStr subdomainName domainLength
  let tokenName := domain ++ ".move"
  if subdomain.isEmpty then tokenName else subdomain ++ "." ++ tokenName

structure NameRecordKeyV1 where
  domainName : String
  subdomainName : OptionalString
  deriving DecidableEq

namespace NameRecordKeyV1

def ofJson (v : Json) : Option NameRecordKeyV1 := do
  let domainName ← v.getStr "domain_name"
  let subdomainName ← OptionalString.ofJson (← v.get "subdomain_name")
  return { domainName, subdomainName }

def getDomainTrunc (sdk : AnsSdk) (key : NameRecordKeyV1) : String :=
  sdk.truncateStr key.domainName domainLength

def getSubdomainTrunc (sdk : AnsSdk) (key : NameRecordKeyV1) : String :=
  sdk.truncateStr (key.subdomainName.getString.getD "") domainLength

def getTokenName (sdk : AnsSdk) (key : NameRecordKeyV1) : String :=
  Ans.getTokenName sdk (key.getDomainTrunc sdk) (key.getSubdomainTrunc sdk)

end NameRecordKeyV1

structure NameRecordV1 where
  expirationTimeSec : ℚ
  propertyVersion : ℚ
  targetAddress : OptionalString
  deriving DecidableEq

namespace NameRecordV1

def ofJson (sdk : AnsSdk) (v : Json) : Option NameRecordV1 := do
  let expirationTimeSec ← v.getBigDecimal sdk.toSdk "expiration_time_sec"
  let propertyVersion ← v.getBigDecimal sdk.toSdk "property_version"
  let targetAddress ← OptionalString.ofJson (← v.get "target_address")
  return { expirationTimeSec, propertyVersion, targetAddress }

def getTargetAddress (sdk : AnsSdk) (record : NameRecordV1) : Option String :=
  record.targetAddress.getString.map sdk.standardizeAddress

end NameRecordV1

inductive AnsTableItem where
  | nameRecordKeyV1 (key : NameRecordKeyV1)
  | nameRecordV1 (record : NameRecordV1)
  deriving DecidableEq

/-- `AnsTableItem::from_table_item`; the outer `none` is an item of a known type
that does not parse, which the callers pass on to a panic. -/
def AnsTableItem.fromTableItem (sdk : AnsSdk) (dataTypeName data : String) :
    Option (Option AnsTableItem) :=
  if dataTypeName = "NameRecordKeyV1" then
    ((sdk.fromStr data).bind NameRecordKeyV1.ofJson).map fun key => some (nameRecordKeyV1 key)
  else if dataTypeName = "NameRecordV1" then
    ((sdk.fromStr data).bind (NameRecordV1.ofJson sdk)).map fun record => some (nameRecordV1 record)
  else some none

/-! ## Records and events of the second contract -/

structure NameRecordV2 where
  domainName : String
  expirationTimeSec : ℚ
  targetAddress : OptionalString
  deriving DecidableEq

namespace NameRecordV2

def ofJson (sdk : AnsSdk) (v : Json) : Option NameRecordV2 := do
  let domainName ← v.getStr "domain_name"
  let expirationTimeSec ← v.getBigDecimal sdk.toSdk "expiration_time_sec"
  let targetAddress ← OptionalString.ofJson (← v.get "target_address")
  return { domainName, expirationTimeSec, targetAddress }

def getDomainTrunc (sdk : AnsSdk) (record : NameRecordV2) : String :=
  sdk.truncateStr record.domainName domainLength

def getTargetAddress (sdk : AnsSdk) (record : NameRecordV2) : Option String :=
  record.targetAddress.getString.map sdk.standardizeAddress

end NameRecordV2

structure SubdomainExtV2 where
  subdomainExpirationPolicy : Int64
  subdomainName : String
  deriving DecidableEq

namespace SubdomainExtV2

def ofJson (v : Json) : Option SubdomainExtV2 := do
  let subdomainExpirationPolicy ← asI64 (← v.get "subdomain_expiration_policy")
  let subdomainName ← v.getStr "subdomain_name"
  return { subdomainExpirationPolicy, subdomainName }

def getSubdomainTrunc (sdk : AnsSdk) (ext : SubdomainExtV2) : String :=
  sdk.truncateStr ext.subdomainName domainLength

end SubdomainExtV2

inductive AnsWriteResource where
  | nameRecordV2 (record : NameRecordV2)
  | subdomainExtV2 (ext : SubdomainExtV2)
  deriving DecidableEq

/-- `AnsWriteResource::from_write_resource`; the outer `none` is a panic of its
callers. -/
def AnsWriteResource.fromWriteResource (sdk : AnsSdk) (config : AnsConfig) (wr : WriteResource) :
    Option (Option AnsWriteResource) :=
  let typeStr := getOuterTypeFromWriteResource sdk.toSdk wr
  if typeStr = config.ansV2ContractAddress ++ "::domains::NameRecord" then
    ((sdk.fromStr wr.data).bind (NameRecordV2.ofJson sdk)).map fun record =>
      some (nameRecordV2 record)
  else if typeStr = config.ansV2ContractAddress ++ "::domains::SubdomainExt" then
    ((sdk.fromStr wr.data).bind SubdomainExtV2.ofJson).map fun ext => some (subdomainExtV2 ext)
  else some none

structure SetReverseLookupEvent where
  accountAddr : String
  currDomainName : OptionalString
  currSubdomainName : OptionalString
  deriving DecidableEq

namespace SetReverseLookupEvent

/-- The previous name and the expiration times are only checked to be there. -/
def ofJson (sdk : AnsSdk) (v : Json) : Option SetReverseLookupEvent := do
  let accountAddr ← v.getStr "account_addr"
  let currDomainName ← OptionalString.ofJson (← v.get "curr_domain_name")
  let _ ← optionalBigDecimalOfJson sdk (← v.get "curr_expiration_time_secs")
  let currSubdomainName ← OptionalString.ofJson (← v.get "curr_subdomain_name")
  let _ ← OptionalString.ofJson (← v.get "prev_domain_name")
  let _ ← optionalBigDecimalOfJson sdk (← v.get "prev_expiration_time_secs")
  let _ ← OptionalString.ofJson (← v.get "prev_subdomain_name")
  return { accountAddr, currDomainName, currSubdomainName }

def getAccountAddr (sdk : AnsSdk) (event : SetReverseLookupEvent) : String :=
  sdk.standardizeAddress event.accountAddr

def getCurrDomainTrunc (sdk : AnsSdk) (event : SetReverseLookupEvent) : String :=
  sdk.truncateStr (event.currDomainName.getString.getD "") domainLength

def getCurrSubdomainTrunc (sdk : AnsSdk) (event : SetReverseLookupEvent) : String :=
  sdk.truncateStr (event.currSubdomainName.getString.getD "") domainLength

def getCurrTokenName (sdk : AnsSdk) (event : SetReverseLookupEvent) : String :=
  Ans.getTokenName sdk (event.getCurrDomainTrunc sdk) (event.getCurrSubdomainTrunc sdk)

end SetReverseLookupEvent

/-- A `RenewNameEvent` has to parse; what it says is not used. -/
def renewNameEventOfJson (sdk : AnsSdk) (v : Json) : Option Unit := do
  let _ ← v.getStr "domain_name"
  let _ ← v.getBigDecimal sdk.toSdk "expiration_time_secs"
  let _ ← v.getBool "is_primary_name"
  let _ ← OptionalString.ofJson (← v.get "subdomain_name")
  let _ ← OptionalString.ofJson (← v.get "target_address")
  return ()

inductive V2AnsEvent where
  | setReverseLookupEvent (event : SetReverseLookupEvent)
  | renewNameEvent
  deriving DecidableEq

/-- `V2AnsEvent::from_event`, unwrapped: `none` is a panic. -/
def V2AnsEvent.fromEvent (sdk : AnsSdk) (config : AnsConfig) (event : Protos.Event) :
    Option (Option V2AnsEvent) :=
  if event.typeStr = config.ansV2ContractAddress ++ "::domains::SetReverseLookupEvent" then
    ((sdk.fromStr event.data).bind (SetReverseLookupEvent.ofJson sdk)).map fun inner =>
      some (setReverseLookupEvent inner)
  else if event.typeStr = config.ansV2ContractAddress ++ "::domains::RenewNameEvent" then
    ((sdk.fromStr event.data).bind (renewNameEventOfJson sdk)).map fun _ => some renewNameEvent
  else some none

/-! ## Rows

The rows of the tables that `parse_ans` keeps for the deprecated history tables
are dropped by the extractor and left out. -/

structure CurrentAnsLookup where
  domain : String
  subdomain : String
  registeredAddress : Option String
  lastTransactionVersion : Int64
  expirationTimestamp : NaiveDateTime
  tokenName : String
  isDeleted : Bool
  deriving DecidableEq

structure CurrentAnsPrimaryName where
  registeredAddress : String
  domain : Option String
  subdomain : Option String
  tokenName : Option String
  isDeleted : Bool
  lastTransactionVersion : Int64
  deriving DecidableEq

/-- A `current_ans_lookup_v2` row. -/
structure CurrentAnsLookupV2 where
  domain : String
  subdomain : String
  tokenStandard : TokenStandard
  registeredAddress : Option String
  lastTransactionVersion : Int64
  expirationTimestamp : NaiveDateTime
  tokenName : String
  isDeleted : Bool
  subdomainExpirationPolicy : Option Int64
  deriving DecidableEq

/-- A `current_ans_primary_name_v2` row. -/
structure CurrentAnsPrimaryNameV2 where
  registeredAddress : String
  tokenStandard : TokenStandard
  domain : Option String
  subdomain : Option String
  tokenName : Option String
  isDeleted : Bool
  lastTransactionVersion : Int64
  deriving DecidableEq

abbrev CurrentAnsLookupV2PK := String × String × TokenStandard

abbrev CurrentAnsPrimaryNameV2PK := String × TokenStandard

def CurrentAnsLookupV2.pk (row : CurrentAnsLookupV2) : CurrentAnsLookupV2PK :=
  (row.domain, row.subdomain, row.tokenStandard)

def CurrentAnsPrimaryNameV2.pk (row : CurrentAnsPrimaryNameV2) : CurrentAnsPrimaryNameV2PK :=
  (row.registeredAddress, row.tokenStandard)

namespace CurrentAnsLookup

/-- `parse_name_record_from_write_table_item_v1`. -/
def parseNameRecordFromWriteTableItemV1 (sdk : AnsSdk) (config : AnsConfig)
    (item : WriteTableItem) (txnVersion : Int64) : Option (Option CurrentAnsLookup) :=
  if sdk.standardizeAddress item.handle =
      sdk.standardizeAddress config.ansV1NameRecordsTableHandle then
    match item.data with
    | none => some none
    | some data => do
      match ← AnsTableItem.fromTableItem sdk (sdk.getNameFromUnnestedMoveType data.keyType)
          data.key with
      | some (.nameRecordKeyV1 nameRecordKey) =>
        match ← AnsTableItem.fromTableItem sdk (sdk.getNameFromUnnestedMoveType data.valueType)
            data.value with
        | some (.nameRecordV1 nameRecord) =>
          let expirationTimestamp ← sdk.expirationTime nameRecord.expirationTimeSec
          return some
            { domain := nameRecordKey.getDomainTrunc sdk
              subdomain := nameRecordKey.getSubdomainTrunc sdk
              registeredAddress := nameRecord.getTargetAddress sdk
              expirationTimestamp
              tokenName := nameRecordKey.getTokenName sdk
              lastTransactionVersion := txnVersion
              isDeleted := false }
        | _ => return none
      | _ => return none
  else some none

/-- `parse_name_record_from_delete_table_item_v1`. The default timestamp is the
epoch. -/
def parseNameRecordFromDeleteTableItemV1 (sdk : AnsSdk) (config : AnsConfig)
    (item : DeleteTableItem) (txnVersion : Int64) : Option (Option CurrentAnsLookup) :=
  if sdk.standardizeAddress item.handle =
      sdk.standardizeAddress config.ansV1NameRecordsTableHandle then
    match item.data with
    | none => some none
    | some data => do
      match ← AnsTableItem.fromTableItem sdk (sdk.getNameFromUnnestedMoveType data.keyType)
          data.key with
      | some (.nameRecordKeyV1 nameRecordKey) =>
        return some
          { domain := nameRecordKey.getDomainTrunc sdk
            subdomain := nameRecordKey.getSubdomainTrunc sdk
            registeredAddress := none
            expirationTimestamp := 0
            tokenName := nameRecordKey.getTokenName sdk
            lastTransactionVersion := txnVersion
            isDeleted := true }
      | _ => return none
  else some none

end CurrentAnsLookup

namespace CurrentAnsPrimaryName

/-- `parse_primary_name_record_from_write_table_item_v1`. -/
def parsePrimaryNameRecordFromWriteTableItemV1 (sdk : AnsSdk) (config : AnsConfig)
    (item : WriteTableItem) (txnVersion : Int64) : Option (Option CurrentAnsPrimaryName) :=
  if sdk.standardizeAddress item.handle =
      sdk.standardizeAddress config.ansV1PrimaryNamesTableHandle then
    match item.data with
    | none => some none
    | some data =>
      if data.keyType = "address" then do
        let decodedKey ← sdk.fromStrString data.key
        match ← AnsTableItem.fromTableItem sdk (sdk.getNameFromUnnestedMoveType data.valueType)
            data.value with
        | some (.nameRecordKeyV1 nameRecordKey) =>
          return some
            { registeredAddress := sdk.standardizeAddress decodedKey
              domain := some (nameRecordKey.getDomainTrunc sdk)
              subdomain := some (nameRecordKey.getSubdomainTrunc sdk)
              tokenName := some (nameRecordKey.getTokenName sdk)
              lastTransactionVersion := txnVersion
              isDeleted := false }
        | _ => return none
      else some none
  else some none

/-- `parse_primary_name_record_from_delete_table_item_v1`. -/
def parsePrimaryNameRecordFromDeleteTableItemV1 (sdk : AnsSdk) (config : AnsConfig)
    (item : DeleteTableItem) (txnVersion : Int64) : Option (Option CurrentAnsPrimaryName) :=
  if sdk.standardizeAddress item.handle =
      sdk.standardizeAddress config.ansV1PrimaryNamesTableHandle then
    match item.data with
    | none => some none
    | some data =>
      if data.keyType = "address" then do
        let decodedKey ← sdk.fromStrString data.key
        return some
          { registeredAddress := sdk.standardizeAddress decodedKey
            domain := none
            subdomain := none
            tokenName := none
            lastTransactionVersion := txnVersion
            isDeleted := true }
      else some none
  else some none

end CurrentAnsPrimaryName

namespace CurrentAnsLookupV2

/-- `CurrentAnsLookupV2::get_v2_from_v1`. -/
def getV2FromV1 (v1 : CurrentAnsLookup) : CurrentAnsLookupV2 where
  domain := v1.domain
  subdomain := v1.subdomain
  tokenStandard := .v1
  registeredAddress := v1.registeredAddress
  lastTransactionVersion := v1.lastTransactionVersion
  expirationTimestamp := v1.expirationTimestamp
  tokenName := v1.tokenName
  isDeleted := v1.isDeleted
  subdomainExpirationPolicy := none

/-- `parse_name_record_from_write_resource_v2`. -/
def parseNameRecordFromWriteResourceV2 (sdk : AnsSdk) (config : AnsConfig) (wr : WriteResource)
    (txnVersion : Int64) (addressToSubdomainExt : Table String SubdomainExtV2) :
    Option (Option CurrentAnsLookupV2) := do
  match ← AnsWriteResource.fromWriteResource sdk config wr with
  | some (.nameRecordV2 inner) =>
    let ext := addressToSubdomainExt.lookup (sdk.standardizeAddress wr.address)
    let subdomainName := (ext.map (·.getSubdomainTrunc sdk)).getD ""
    let expirationTimestamp ← sdk.expirationTime inner.expirationTimeSec
    return some
      { domain := inner.getDomainTrunc sdk
        subdomain := subdomainName
        tokenStandard := .v2
        registeredAddress := inner.getTargetAddress sdk
        expirationTimestamp
        tokenName := getTokenName sdk (inner.getDomainTrunc sdk) subdomainName
        lastTransactionVersion := txnVersion
        isDeleted := false
        subdomainExpirationPolicy := ext.map (·.subdomainExpirationPolicy) }
  | _ => return none

end CurrentAnsLookupV2

namespace CurrentAnsPrimaryNameV2

/-- `CurrentAnsPrimaryNameV2::get_v2_from_v1`. -/
def getV2FromV1 (v1 : CurrentAnsPrimaryName) : CurrentAnsPrimaryNameV2 where
  registeredAddress := v1.registeredAddress
  tokenStandard := .v1
  domain := v1.domain
  subdomain := v1.subdomain
  tokenName := v1.tokenName
  isDeleted := v1.isDeleted
  lastTransactionVersion := v1.lastTransactionVersion

/-- `parse_v2_primary_name_record_from_event`: an empty current domain unsets the
name. -/
def parseV2PrimaryNameRecordFromEvent (sdk : AnsSdk) (config : AnsConfig) (event : Protos.Event)
    (txnVersion : Int64) : Option (Option CurrentAnsPrimaryNameV2) := do
  match ← V2AnsEvent.fromEvent sdk config event with
  | some (.setReverseLookupEvent inner) =>
    if (inner.getCurrDomainTrunc sdk).isEmpty then
      return some
        { registeredAddress := inner.getAccountAddr sdk
          tokenStandard := .v2
          domain := none
          subdomain := none
          tokenName := none
          lastTransactionVersion := txnVersion
          isDeleted := true }
    else
      return some
        { registeredAddress := inner.getAccountAddr sdk
          tokenStandard := .v2
          domain := some (inner.getCurrDomainTrunc sdk)
          subdomain := some (inner.getCurrSubdomainTrunc sdk)
          tokenName := some (inner.getCurrTokenName sdk)
          lastTransactionVersion := txnVersion
          isDeleted := false }
  | _ => return none

end CurrentAnsPrimaryNameV2

/-! ## `parse_ans` -/

/-- The subdomain extension a change writes, with the address it is at. -/
def changeSubdomainExt (sdk : AnsSdk) (config : AnsConfig) :
    Protos.Change → Option (Option (String × SubdomainExtV2))
  | .writeResource wr _ => do
    match ← AnsWriteResource.fromWriteResource sdk config wr with
    | some (.subdomainExtV2 ext) => return some (sdk.standardizeAddress wr.address, ext)
    | _ => return none
  | _ => some none

/-- The lookup and the primary name of a change, if it is one of them; an item is
tried as both. -/
def changeRows (sdk : AnsSdk) (config : AnsConfig) (txnVersion : Int64)
    (addressToSubdomainExt : Table String SubdomainExtV2) :
    Protos.Change → Option (Option CurrentAnsLookupV2 × Option CurrentAnsPrimaryNameV2)
  | .writeTableItem item => do
    let lookup ← CurrentAnsLookup.parseNameRecordFromWriteTableItemV1 sdk config item txnVersion
    let primaryName ← CurrentAnsPrimaryName.parsePrimaryNameRecordFromWriteTableItemV1 sdk config
      item txnVersion
    return (lookup.map CurrentAnsLookupV2.getV2FromV1,
      primaryName.map CurrentAnsPrimaryNameV2.getV2FromV1)
  | .deleteTableItem item => do
    let lookup ← CurrentAnsLookup.parseNameRecordFromDeleteTableItemV1 sdk config item txnVersion
    let primaryName ← CurrentAnsPrimaryName.parsePrimaryNameRecordFromDeleteTableItemV1 sdk config
      item txnVersion
    return (lookup.map CurrentAnsLookupV2.getV2FromV1,
      primaryName.map CurrentAnsPrimaryNameV2.getV2FromV1)
  | .writeResource wr _ => do
    let lookup ← CurrentAnsLookupV2.parseNameRecordFromWriteResourceV2 sdk config wr txnVersion
      addressToSubdomainExt
    return (lookup, none)
  | _ => some (none, none)

/-- The body of the loop of `parse_ans`: the lookups and the primary names a
transaction inserts, in order. -/
def transactionRows (sdk : AnsSdk) (config : AnsConfig) (txn : Protos.Transaction) :
    Option (List CurrentAnsLookupV2 × List CurrentAnsPrimaryNameV2) :=
  match txn.txnData with
  | none => some ([], [])
  | some txnData => do
    let changes ← txn.info
    let timestamp ← txn.timestamp
    let _ ← sdk.fromTimestampOpt timestamp.seconds 0
    match txnData with
    | .user _ events =>
      let eventRows ← events.mapM fun event =>
        CurrentAnsPrimaryNameV2.parseV2PrimaryNameRecordFromEvent sdk config event txn.txnVersion
      let exts ← changes.mapM (changeSubdomainExt sdk config)
      let v2AddressToSubdomainExt : Table String SubdomainExtV2 :=
        Table.insertAll ∅ exts.reduceOption
      let rows ← changes.mapM (changeRows sdk config txn.txnVersion v2AddressToSubdomainExt)
      return (rows.filterMap (·.1), eventRows.reduceOption ++ rows.filterMap (·.2))
    -- "Other transactions won't have any ANS changes"
    | _ => return ([], [])

/-- The two maps of `parse_ans` that are stored, filled by a batch. -/
def parseAns (sdk : AnsSdk) (config : AnsConfig) (transactions : List Protos.Transaction) :
    Option (List (CurrentAnsLookupV2PK × CurrentAnsLookupV2) ×
      List (CurrentAnsPrimaryNameV2PK × CurrentAnsPrimaryNameV2)) := do
  let rows ← transactions.mapM (transactionRows sdk config)
  let lookups : Table CurrentAnsLookupV2PK CurrentAnsLookupV2 :=
    Table.insertAll ∅ ((rows.flatMap (·.1)).map fun row => (row.pk, row))
  let primaryNames : Table CurrentAnsPrimaryNameV2PK CurrentAnsPrimaryNameV2 :=
    Table.insertAll ∅ ((rows.flatMap (·.2)).map fun row => (row.pk, row))
  return (lookups.rows, primaryNames.rows)

/-! ## The storer -/

/-- `insert_current_ans_lookups_v2_query`, on a conflict. -/
def insertCurrentAnsLookupsV2Query (old excluded : CurrentAnsLookupV2) : CurrentAnsLookupV2 :=
  if old.lastTransactionVersion ≤ excluded.lastTransactionVersion then
    { old with
      registeredAddress := excluded.registeredAddress
      expirationTimestamp := excluded.expirationTimestamp
      lastTransactionVersion := excluded.lastTransactionVersion
      tokenName := excluded.tokenName
      isDeleted := excluded.isDeleted
      subdomainExpirationPolicy := excluded.subdomainExpirationPolicy }
  else old

/-- `insert_current_ans_primary_names_v2_query`, on a conflict. -/
def insertCurrentAnsPrimaryNamesV2Query (old excluded : CurrentAnsPrimaryNameV2) :
    CurrentAnsPrimaryNameV2 :=
  if old.lastTransactionVersion ≤ excluded.lastTransactionVersion then
    { old with
      domain := excluded.domain
      subdomain := excluded.subdomain
      tokenName := excluded.tokenName
      isDeleted := excluded.isDeleted
      lastTransactionVersion := excluded.lastTransactionVersion }
  else old

/-- The upserts of a batch into the two tables. -/
def batchWrites (sdk : AnsSdk) (config : AnsConfig) (transactions : List Protos.Transaction) :
    Option (List (CurrentAnsLookupV2PK × Write CurrentAnsLookupV2) ×
      List (CurrentAnsPrimaryNameV2PK × Write CurrentAnsPrimaryNameV2)) := do
  let (lookups, primaryNames) ← parseAns sdk config transactions
  return (lookups.map fun row => (row.1, ⟨row.2, insertCurrentAnsLookupsV2Query⟩),
    primaryNames.map fun row => (row.1, ⟨row.2, insertCurrentAnsPrimaryNamesV2Query⟩))

end IndexerProcessors.Ans

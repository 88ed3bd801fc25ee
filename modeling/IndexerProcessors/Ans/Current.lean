import IndexerProcessors.Ans.Parse
import IndexerProcessors.Lib.Numeric

/-!
# Names are their last change

What a transaction does to the name service, as a list of changes: writes and
deletes of the first contract's table items, and the second contract's name
records and reverse lookup events (`LookupChange`, `PrimaryChange`). A name's row
is that of its last change, and so is an address's primary name, whatever the
batches are and in whatever order and however often they are stored
(`ans_rows_last_change`). The extractor reads user transactions only; changes of
other transactions do not count (`validator_name_skipped`).
-/

namespace IndexerProcessors.Ans

open IndexerProcessors.Lib
open IndexerProcessors.Protos

/-! ## Changes of names -/

inductive LookupChange where
  | v1Write (key : NameRecordKeyV1) (record : NameRecordV1)
  | v1Delete (key : NameRecordKeyV1)
  | v2Write (record : NameRecordV2) (ext : Option SubdomainExtV2)
  deriving DecidableEq

/-- The subdomain of a record of the second contract. -/
def subdomainOf (sdk : AnsSdk) (ext : Option SubdomainExtV2) : String :=
  (ext.map (·.getSubdomainTrunc sdk)).getD ""

/-- The row a change should leave. A record with an expiration time that is no
timestamp panics and is in no batch. -/
def LookupChange.row (sdk : AnsSdk) (version : Int64) : LookupChange → CurrentAnsLookupV2
  | v1Write key record =>
    { domain := key.getDomainTrunc sdk
      subdomain := key.getSubdomainTrunc sdk
      tokenStandard := .v1
      registeredAddress := record.getTargetAddress sdk
      lastTransactionVersion := version
      expirationTimestamp := (sdk.expirationTime record.expirationTimeSec).getD 0
      tokenName := key.getTokenName sdk
      isDeleted := false
      subdomainExpirationPolicy := none }
  | v1Delete key =>
    { domain := key.getDomainTrunc sdk
      subdomain := key.getSubdomainTrunc sdk
      tokenStandard := .v1
      registeredAddress := none
      lastTransactionVersion := version
      expirationTimestamp := 0
      tokenName := key.getTokenName sdk
      isDeleted := true
      subdomainExpirationPolicy := none }
  | v2Write record ext =>
    { domain := record.getDomainTrunc sdk
      subdomain := subdomainOf sdk ext
      tokenStandard := .v2
      registeredAddress := record.getTargetAddress sdk
      lastTransactionVersion := version
      expirationTimestamp := (sdk.expirationTime record.expirationTimeSec).getD 0
      tokenName := getTokenName sdk (record.getDomainTrunc sdk) (subdomainOf sdk ext)
      isDeleted := false
      subdomainExpirationPolicy := ext.map (·.subdomainExpirationPolicy) }

inductive PrimaryChange where
  | v1Write (address : String) (key : NameRecordKeyV1)
  | v1Delete (address : String)
  | v2Event (event : SetReverseLookupEvent)
  deriving DecidableEq

/-- The row a change of a primary name should leave; without a name it is deleted. -/
def primaryRow (address : String) (standard : TokenStandard) (version : Int64)
    (name : Option (String × String × String)) : CurrentAnsPrimaryNameV2 where
  registeredAddress := address
  tokenStandard := standard
  domain := name.map (·.1)
  subdomain := name.map (·.2.1)
  tokenName := name.map (·.2.2)
  isDeleted := name.isNone
  lastTransactionVersion := version

def PrimaryChange.row (sdk : AnsSdk) (version : Int64) : PrimaryChange → CurrentAnsPrimaryNameV2
  | v1Write address key => primaryRow address .v1 version
      (some (key.getDomainTrunc sdk, key.getSubdomainTrunc sdk, key.getTokenName sdk))
  | v1Delete address => primaryRow address .v1 version none
  | v2Event event => primaryRow (event.getAccountAddr sdk) .v2 version
      (if (event.getCurrDomainTrunc sdk).isEmpty then none
        else some (event.getCurrDomainTrunc sdk, event.getCurrSubdomainTrunc sdk,
          event.getCurrTokenName sdk))

/-! ## The changes of a transaction -/

/-- A text of a table item that is the key of a name record. -/
def nameRecordKeyOf (sdk : AnsSdk) (typeStr text : String) : Option NameRecordKeyV1 :=
  match AnsTableItem.fromTableItem sdk (sdk.getNameFromUnnestedMoveType typeStr) text with
  | some (some (.nameRecordKeyV1 key)) => some key
  | _ => none

/-- A text of a table item that is a name record. -/
def nameRecordOf (sdk : AnsSdk) (typeStr text : String) : Option NameRecordV1 :=
  match AnsTableItem.fromTableItem sdk (sdk.getNameFromUnnestedMoveType typeStr) text with
  | some (some (.nameRecordV1 record)) => some record
  | _ => none

def lookupChange (sdk : AnsSdk) (config : AnsConfig) (exts : Table String SubdomainExtV2) :
    Protos.Change → Option LookupChange
  | .writeTableItem item =>
    if sdk.standardizeAddress item.handle =
        sdk.standardizeAddress config.ansV1NameRecordsTableHandle then do
      let data ← item.data
      let key ← nameRecordKeyOf sdk data.keyType data.key
      let record ← nameRecordOf sdk data.valueType data.value
      return .v1Write key record
    else none
  | .deleteTableItem item =>
    if sdk.standardizeAddress item.handle =
        sdk.standardizeAddress config.ansV1NameRecordsTableHandle then do
      let data ← item.data
      let key ← nameRecordKeyOf sdk data.keyType data.key
      return .v1Delete key
    else none
  | .writeResource wr _ =>
    match AnsWriteResource.fromWriteResource sdk config wr with
    | some (some (.nameRecordV2 record)) =>
      some (.v2Write record (exts.lookup (sdk.standardizeAddress wr.address)))
    | _ => none
  | _ => none

/-- The address that is the key of a table item. -/
def addressKeyOf (sdk : AnsSdk) (keyType key : String) : Option String :=
  if keyType = "address" then (sdk.fromStrString key).map sdk.standardizeAddress else none

def primaryChange (sdk : AnsSdk) (config : AnsConfig) : Protos.Change → Option PrimaryChange
  | .writeTableItem item =>
    if sdk.standardizeAddress item.handle =
        sdk.standardizeAddress config.ansV1PrimaryNamesTableHandle then do
      let data ← item.data
      let address ← addressKeyOf sdk data.keyType data.key
      let key ← nameRecordKeyOf sdk data.valueType data.value
      return .v1Write address key
    else none
  | .deleteTableItem item =>
    if sdk.standardizeAddress item.handle =
        sdk.standardizeAddress config.ansV1PrimaryNamesTableHandle then do
      let data ← item.data
      let address ← addressKeyOf sdk data.keyType data.key
      return .v1Delete address
    else none
  | _ => none

def eventChange (sdk : AnsSdk) (config : AnsConfig) (event : Protos.Event) :
    Option PrimaryChange :=
  match V2AnsEvent.fromEvent sdk config event with
  | some (some (.setReverseLookupEvent inner)) => some (.v2Event inner)
  | _ => none

/-- The events of a transaction of any kind. -/
def txnEvents (txn : Protos.Transaction) : List Protos.Event :=
  match txn.txnData with
  | some (.blockMetadata events) => events
  | some (.genesis events) => events
  | some (.user _ events) => events
  | some (.validator events) => events
  | _ => []

/-- The subdomain extensions a transaction writes, by address. -/
def subdomainExts (sdk : AnsSdk) (config : AnsConfig) (txn : Protos.Transaction) :
    Table String SubdomainExtV2 :=
  Table.insertAll ∅ ((txn.info.getD []).filterMap fun change =>
    (changeSubdomainExt sdk config change).join)

/-- The changes of names of a transaction, in order. -/
def lookupChanges (sdk : AnsSdk) (config : AnsConfig) (txn : Protos.Transaction) :
    List LookupChange :=
  (txn.info.getD []).filterMap (lookupChange sdk config (subdomainExts sdk config txn))

/-- The changes of primary names of a transaction, in order; events, which are of
the second contract, and table items, which are of the first, never meet. -/
def primaryChanges (sdk : AnsSdk) (config : AnsConfig) (txn : Protos.Transaction) :
    List PrimaryChange :=
  (txnEvents txn).filterMap (eventChange sdk config) ++
    (txn.info.getD []).filterMap (primaryChange sdk config)

/-- The last change of a name, with its version. -/
def lastLookupChange (sdk : AnsSdk) (config : AnsConfig) (txns : List Protos.Transaction)
    (key : CurrentAnsLookupV2PK) : Option (Int64 × LookupChange) :=
  ((txns.flatMap fun txn => (lookupChanges sdk config txn).map (txn.txnVersion, ·)).filter
    fun c => (c.2.row sdk c.1).pk = key).getLast?

/-- The last change of an address's primary name, with its version. -/
def lastPrimaryChange (sdk : AnsSdk) (config : AnsConfig) (txns : List Protos.Transaction)
    (key : CurrentAnsPrimaryNameV2PK) : Option (Int64 × PrimaryChange) :=
  ((txns.flatMap fun txn => (primaryChanges sdk config txn).map (txn.txnVersion, ·)).filter
    fun c => (c.2.row sdk c.1).pk = key).getLast?

/-- The row of a name is that of its last change; it is marked deleted exactly if
that was the deletion of a table item. -/
structure ShowsLookup (sdk : AnsSdk) (row : Option CurrentAnsLookupV2)
    (last : Option (Int64 × LookupChange)) : Prop where
  row_eq : row = last.map fun c => c.2.row sdk c.1
  isDeleted : ∀ r, row = some r →
    (r.isDeleted ↔ ∃ version key, last = some (version, .v1Delete key))

/-- The row of a primary name is that of its last change; it is marked deleted
exactly if that was the deletion of a table item or an event with an empty domain. -/
structure ShowsPrimary (sdk : AnsSdk) (row : Option CurrentAnsPrimaryNameV2)
    (last : Option (Int64 × PrimaryChange)) : Prop where
  row_eq : row = last.map fun c => c.2.row sdk c.1
  isDeleted : ∀ r, row = some r → (r.isDeleted ↔
    (∃ version address, last = some (version, .v1Delete address)) ∨
    ∃ version event, last = some (version, .v2Event event) ∧
      (event.getCurrDomainTrunc sdk).isEmpty)

/-- A user transaction. -/
def isUser (txn : Protos.Transaction) : Bool :=
  match txn.txnData with
  | some (.user _ _) => true
  | _ => false

/-! ## Rows are those of the changes -/

section Rows

variable {sdk : AnsSdk} {config : AnsConfig} {version : Int64}

theorem getV2FromV1_write {item : WriteTableItem} {row : Option CurrentAnsLookup}
    (h : CurrentAnsLookup.parseNameRecordFromWriteTableItemV1 sdk config item version = some row)
    (exts : Table String SubdomainExtV2) :
    row.map CurrentAnsLookupV2.getV2FromV1 =
      (lookupChange sdk config exts (.writeTableItem item)).map (·.row sdk version) := by
  unfold CurrentAnsLookup.parseNameRecordFromWriteTableItemV1 at h
  simp only [lookupChange]
  by_cases hhandle : sdk.standardizeAddress item.handle =
      sdk.standardizeAddress config.ansV1NameRecordsTableHandle
  · rw [if_pos hhandle] at h ⊢
    cases hdata : item.data with
    | none =>
      rw [hdata] at h
      obtain rfl := Option.some.inj h
      rfl
    | some data =>
      rw [hdata] at h
      obtain ⟨keyItem, hkey, h⟩ := Option.bind_eq_some_iff.mp h
      simp only [Option.bind_eq_bind, Option.bind_some, nameRecordKeyOf, hkey]
      -- The key may be of another type, a key, or a record; so may the value.
      rcases keyItem with _ | (key | record)
      · obtain rfl := Option.some.inj h
        rfl
      · obtain ⟨valueItem, hvalue, h⟩ := Option.bind_eq_some_iff.mp h
        simp only [Option.bind_some, nameRecordOf, hvalue]
        rcases valueItem with _ | (key' | record)
        · obtain rfl := Option.some.inj h
          rfl
        · obtain rfl := Option.some.inj h
          rfl
        · obtain ⟨expiration, hexpiration, h⟩ := Option.bind_eq_some_iff.mp h
          obtain rfl := Option.some.inj h
          simp only [Option.map_some, Option.bind_some, Option.pure_def, LookupChange.row,
            hexpiration, Option.getD_some]
          rfl
      · obtain rfl := Option.some.inj h
        rfl
  · rw [if_neg hhandle] at h ⊢
    obtain rfl := Option.some.inj h
    rfl

theorem getV2FromV1_delete {item : DeleteTableItem} {row : Option CurrentAnsLookup}
    (h : CurrentAnsLookup.parseNameRecordFromDeleteTableItemV1 sdk config item version = some row)
    (exts : Table String SubdomainExtV2) :
    row.map CurrentAnsLookupV2.getV2FromV1 =
      (lookupChange sdk config exts (.deleteTableItem item)).map (·.row sdk version) := by
  unfold CurrentAnsLookup.parseNameRecordFromDeleteTableItemV1 at h
  simp only [lookupChange]
  by_cases hhandle : sdk.standardizeAddress item.handle =
      sdk.standardizeAddress config.ansV1NameRecordsTableHandle
  · rw [if_pos hhandle] at h ⊢
    cases hdata : item.data with
    | none =>
      rw [hdata] at h
      obtain rfl := Option.some.inj h
      rfl
    | some data =>
      rw [hdata] at h
      obtain ⟨keyItem, hkey, h⟩ := Option.bind_eq_some_iff.mp h
      simp only [Option.bind_eq_bind, Option.bind_some, nameRecordKeyOf, hkey]
      rcases keyItem with _ | (key | record)
      all_goals
        obtain rfl := Option.some.inj h
        rfl
  · rw [if_neg hhandle] at h ⊢
    obtain rfl := Option.some.inj h
    rfl

theorem lookup_of_writeResource {wr : WriteResource} {row : Option CurrentAnsLookupV2}
    {exts : Table String SubdomainExtV2} (params : List MoveType)
    (h : CurrentAnsLookupV2.parseNameRecordFromWriteResourceV2 sdk config wr version exts =
      some row) :
    row = (lookupChange sdk config exts (.writeResource wr params)).map (·.row sdk version) := by
  unfold CurrentAnsLookupV2.parseNameRecordFromWriteResourceV2 at h
  simp only [lookupChange]
  obtain ⟨resource, hresource, h⟩ := Option.bind_eq_some_iff.mp h
  rw [hresource]
  rcases resource with _ | (record | ext)
  · exact (Option.some.inj h).symm
  · obtain ⟨expiration, hexpiration, h⟩ := Option.bind_eq_some_iff.mp h
    obtain rfl := Option.some.inj h
    simp only [Option.map_some, LookupChange.row, hexpiration, Option.getD_some]
    rfl
  · exact (Option.some.inj h).symm

theorem getV2FromV1_primary_write {item : WriteTableItem} {row : Option CurrentAnsPrimaryName}
    (h : CurrentAnsPrimaryName.parsePrimaryNameRecordFromWriteTableItemV1 sdk config item
      version = some row) :
    row.map CurrentAnsPrimaryNameV2.getV2FromV1 =
      (primaryChange sdk config (.writeTableItem item)).map (·.row sdk version) := by
  unfold CurrentAnsPrimaryName.parsePrimaryNameRecordFromWriteTableItemV1 at h
  simp only [primaryChange]
  by_cases hhandle : sdk.standardizeAddress item.handle =
      sdk.standardizeAddress config.ansV1PrimaryNamesTableHandle
  · rw [if_pos hhandle] at h ⊢
    cases hdata : item.data with
    | none =>
      rw [hdata] at h
      obtain rfl := Option.some.inj h
      rfl
    | some data =>
      rw [hdata] at h
      simp only [Option.bind_eq_bind, Option.bind_some, addressKeyOf] at h ⊢
      by_cases haddress : data.keyType = "address"
      · rw [if_pos haddress] at h ⊢
        obtain ⟨decodedKey, hdecoded, h⟩ := Option.bind_eq_some_iff.mp h
        obtain ⟨valueItem, hvalue, h⟩ := Option.bind_eq_some_iff.mp h
        simp only [hdecoded, Option.map_some, Option.bind_some, nameRecordKeyOf, hvalue]
        rcases valueItem with _ | (key | record)
        all_goals
          obtain rfl := Option.some.inj h
          rfl
      · rw [if_neg haddress] at h ⊢
        obtain rfl := Option.some.inj h
        rfl
  · rw [if_neg hhandle] at h ⊢
    obtain rfl := Option.some.inj h
    rfl

theorem getV2FromV1_primary_delete {item : DeleteTableItem} {row : Option CurrentAnsPrimaryName}
    (h : CurrentAnsPrimaryName.parsePrimaryNameRecordFromDeleteTableItemV1 sdk config item
      version = some row) :
    row.map CurrentAnsPrimaryNameV2.getV2FromV1 =
      (primaryChange sdk config (.deleteTableItem item)).map (·.row sdk version) := by
  unfold CurrentAnsPrimaryName.parsePrimaryNameRecordFromDeleteTableItemV1 at h
  simp only [primaryChange]
  by_cases hhandle : sdk.standardizeAddress item.handle =
      sdk.standardizeAddress config.ansV1PrimaryNamesTableHandle
  · rw [if_pos hhandle] at h ⊢
    cases hdata : item.data with
    | none =>
      rw [hdata] at h
      obtain rfl := Option.some.inj h
      rfl
    | some data =>
      rw [hdata] at h
      simp only [Option.bind_eq_bind, Option.bind_some, addressKeyOf] at h ⊢
      by_cases haddress : data.keyType = "address"
      · rw [if_pos haddress] at h ⊢
        obtain ⟨decodedKey, hdecoded, h⟩ := Option.bind_eq_some_iff.mp h
        obtain rfl := Option.some.inj h
        rw [hdecoded]
        rfl
      · rw [if_neg haddress] at h ⊢
        obtain rfl := Option.some.inj h
        rfl
  · rw [if_neg hhandle] at h ⊢
    obtain rfl := Option.some.inj h
    rfl

theorem primary_of_event {event : Protos.Event} {row : Option CurrentAnsPrimaryNameV2}
    (h : CurrentAnsPrimaryNameV2.parseV2PrimaryNameRecordFromEvent sdk config event version =
      some row) :
    row = (eventChange sdk config event).map (·.row sdk version) := by
  unfold CurrentAnsPrimaryNameV2.parseV2PrimaryNameRecordFromEvent at h
  unfold eventChange
  obtain ⟨parsed, hparsed, h⟩ := Option.bind_eq_some_iff.mp h
  rw [hparsed]
  rcases parsed with _ | (inner | _)
  · exact (Option.some.inj h).symm
  · simp only [Option.map_some, PrimaryChange.row]
    dsimp only at h
    by_cases hempty : (inner.getCurrDomainTrunc sdk).isEmpty
    · rw [if_pos hempty] at h ⊢
      exact (Option.some.inj h).symm
    · rw [if_neg hempty] at h ⊢
      exact (Option.some.inj h).symm
  · exact (Option.some.inj h).symm

/-- The rows of a change are those of its change of a name and its change of a
primary name. -/
theorem changeRows_eq {exts : Table String SubdomainExtV2} {change : Protos.Change}
    {rows : Option CurrentAnsLookupV2 × Option CurrentAnsPrimaryNameV2}
    (h : changeRows sdk config version exts change = some rows) :
    rows.1 = (lookupChange sdk config exts change).map (·.row sdk version) ∧
      rows.2 = (primaryChange sdk config change).map (·.row sdk version) := by
  unfold changeRows at h
  cases change with
  | writeTableItem item =>
    obtain ⟨lookup, hlookup, h⟩ := Option.bind_eq_some_iff.mp h
    obtain ⟨name, hname, h⟩ := Option.bind_eq_some_iff.mp h
    obtain rfl := Option.some.inj h
    exact ⟨getV2FromV1_write hlookup exts, getV2FromV1_primary_write hname⟩
  | deleteTableItem item =>
    obtain ⟨lookup, hlookup, h⟩ := Option.bind_eq_some_iff.mp h
    obtain ⟨name, hname, h⟩ := Option.bind_eq_some_iff.mp h
    obtain rfl := Option.some.inj h
    exact ⟨getV2FromV1_delete hlookup exts, getV2FromV1_primary_delete hname⟩
  | writeResource wr params =>
    obtain ⟨lookup, hlookup, h⟩ := Option.bind_eq_some_iff.mp h
    obtain rfl := Option.some.inj h
    exact ⟨lookup_of_writeResource params hlookup, rfl⟩
  | deleteResource dr params =>
    obtain rfl := Option.some.inj h
    exact ⟨rfl, rfl⟩
  | other =>
    obtain rfl := Option.some.inj h
    exact ⟨rfl, rfl⟩

end Rows

/-- The rows of a transaction are those of its changes, if it is a user's. -/
theorem transactionRows_eq {sdk : AnsSdk} {config : AnsConfig} {txn : Protos.Transaction}
    {rows : List CurrentAnsLookupV2 × List CurrentAnsPrimaryNameV2}
    (h : transactionRows sdk config txn = some rows) :
    rows.1 = (if isUser txn then lookupChanges sdk config txn else []).map
        (·.row sdk txn.txnVersion) ∧
      rows.2 = (if isUser txn then primaryChanges sdk config txn else []).map
        (·.row sdk txn.txnVersion) := by
  unfold transactionRows at h
  unfold isUser
  cases hdata : txn.txnData with
  | none =>
    rw [hdata] at h
    obtain rfl := Option.some.inj h
    exact ⟨rfl, rfl⟩
  | some data =>
    rw [hdata] at h
    obtain ⟨changes, hchanges, h⟩ := Option.bind_eq_some_iff.mp h
    obtain ⟨timestamp, -, h⟩ := Option.bind_eq_some_iff.mp h
    obtain ⟨blockTimestamp, -, h⟩ := Option.bind_eq_some_iff.mp h
    cases data with
    | user request events =>
      obtain ⟨eventRows, heventRows, h⟩ := Option.bind_eq_some_iff.mp h
      obtain ⟨exts, hexts, h⟩ := Option.bind_eq_some_iff.mp h
      obtain ⟨rowPairs, hrowPairs, h⟩ := Option.bind_eq_some_iff.mp h
      obtain rfl := Option.some.inj h
      -- Both loops go through the same changes, with the subdomain extensions collected first.
      have hinfo : txn.info.getD [] = changes := by rw [hchanges]; rfl
      have hevents : txnEvents txn = events := by rw [txnEvents, hdata]
      rw [reduceOption_of_mapM hexts] at hrowPairs
      constructor
      · show rowPairs.filterMap (·.1) = (lookupChanges sdk config txn).map _
        rw [lookupChanges, subdomainExts, hinfo, List.map_filterMap]
        exact filterMap_of_mapM hrowPairs fun change rows hrows => (changeRows_eq hrows).1
      · show eventRows.reduceOption ++ rowPairs.filterMap (·.2) =
          (primaryChanges sdk config txn).map _
        rw [primaryChanges, hinfo, hevents, List.map_append, List.map_filterMap,
          List.map_filterMap]
        -- Primary names come from events first, then from changes.
        congr 1
        · exact filterMap_of_mapM heventRows fun event row hrow => primary_of_event hrow
        · exact filterMap_of_mapM hrowPairs fun change rows hrows => (changeRows_eq hrows).2
    | _ =>
      obtain rfl := Option.some.inj h
      exact ⟨rfl, rfl⟩

/-! ## What a batch stores -/

section Batch

variable {sdk : AnsSdk} {config : AnsConfig}

/-- The lookups of a transaction. -/
def lookupRows (sdk : AnsSdk) (config : AnsConfig) (txn : Protos.Transaction) :
    List CurrentAnsLookupV2 :=
  ((transactionRows sdk config txn).getD ([], [])).1

/-- The primary names of a transaction. -/
def primaryRows (sdk : AnsSdk) (config : AnsConfig) (txn : Protos.Transaction) :
    List CurrentAnsPrimaryNameV2 :=
  ((transactionRows sdk config txn).getD ([], [])).2

/-- A batch that parses upserts the last row of each key, in both tables. -/
theorem batchWrites_eq {b : List Protos.Transaction}
    {writes : List (CurrentAnsLookupV2PK × Write CurrentAnsLookupV2) ×
      List (CurrentAnsPrimaryNameV2PK × Write CurrentAnsPrimaryNameV2)}
    (h : batchWrites sdk config b = some writes) :
    (∀ txn ∈ b, (transactionRows sdk config txn).isSome) ∧
    writes.1 = ((∅ : Table CurrentAnsLookupV2PK CurrentAnsLookupV2).insertAll
        ((b.flatMap (lookupRows sdk config)).map fun row => (row.pk, row))).rows.map
      (fun row => (row.1, ⟨row.2, insertCurrentAnsLookupsV2Query⟩)) ∧
    writes.2 = ((∅ : Table CurrentAnsPrimaryNameV2PK CurrentAnsPrimaryNameV2).insertAll
        ((b.flatMap (primaryRows sdk config)).map fun row => (row.pk, row))).rows.map
      (fun row => (row.1, ⟨row.2, insertCurrentAnsPrimaryNamesV2Query⟩)) := by
  unfold batchWrites parseAns at h
  obtain ⟨⟨lookups, names⟩, hparse, h⟩ := Option.bind_eq_some_iff.mp h
  obtain ⟨rows, hrows, hparse⟩ := Option.bind_eq_some_iff.mp hparse
  rw [Option.pure_def, Option.some_inj, Prod.mk.injEq] at hparse
  obtain ⟨rfl, rfl⟩ := hparse
  obtain rfl := Option.some.inj h
  have hlookups : rows.flatMap (·.1) = b.flatMap (lookupRows sdk config) :=
    flatMap_of_mapM hrows fun txn row hrow => by rw [lookupRows, hrow]; rfl
  have hnames : rows.flatMap (·.2) = b.flatMap (primaryRows sdk config) :=
    flatMap_of_mapM hrows fun txn row hrow => by rw [primaryRows, hrow]; rfl
  refine ⟨?_, by rw [← hlookups], by rw [← hnames]⟩
  intro txn htxn
  obtain ⟨row, -, hrow⟩ := exists_of_mapM hrows htxn
  rw [hrow]
  rfl

theorem insertCurrentAnsLookupsV2Query_eq {old excluded : CurrentAnsLookupV2}
    (h : old.pk = excluded.pk) : insertCurrentAnsLookupsV2Query old excluded =
      later CurrentAnsLookupV2.lastTransactionVersion old excluded := by
  obtain ⟨hdomain, hrest⟩ := Prod.mk.inj h
  obtain ⟨hsubdomain, hstandard⟩ := Prod.mk.inj hrest
  unfold insertCurrentAnsLookupsV2Query later
  rw [hdomain, hsubdomain, hstandard]

theorem insertCurrentAnsPrimaryNamesV2Query_eq {old excluded : CurrentAnsPrimaryNameV2}
    (h : old.pk = excluded.pk) : insertCurrentAnsPrimaryNamesV2Query old excluded =
      later CurrentAnsPrimaryNameV2.lastTransactionVersion old excluded := by
  obtain ⟨haddress, hstandard⟩ := Prod.mk.inj h
  unfold insertCurrentAnsPrimaryNamesV2Query later
  rw [haddress, hstandard]

end Batch

/-! ## The whole list -/

/-- The rows of a list of transactions are those of the changes of the user
transactions in it. -/
theorem flatMap_rows_eq {γ ρ : Type} {rowsOf : Protos.Transaction → List ρ}
    {changes : Protos.Transaction → List γ} (row : Int64 → γ → ρ)
    {txns : List Protos.Transaction}
    (h : ∀ txn ∈ txns, rowsOf txn =
      (if isUser txn then changes txn else []).map (row txn.txnVersion)) :
    txns.flatMap rowsOf = ((txns.filter isUser).flatMap fun txn =>
      (changes txn).map (txn.txnVersion, ·)).map fun c => row c.1 c.2 := by
  induction txns with
  | nil => rfl
  | cons txn txns ih =>
    rw [List.flatMap_cons, h txn List.mem_cons_self,
      ih fun t ht => h t (List.mem_cons_of_mem _ ht), List.filter_cons]
    cases hu : isUser txn with
    | false => rfl
    | true =>
      simp only [if_true, List.flatMap_cons, List.map_append, List.map_map]
      rfl

/-- A table whose rows are those of changes has the row of a key's last change. -/
theorem lookup_last_change {γ ρ κ : Type} [DecidableEq κ] {pk : ρ → κ} {ver : ρ → Int64}
    {query : ρ → ρ → ρ} {rowsOf : Protos.Transaction → List ρ}
    {changes : Protos.Transaction → List γ} {row : Int64 → γ → ρ}
    {txns : List Protos.Transaction} {batches : List (List Protos.Transaction)}
    {order : List (κ × Write ρ)} (hord : InOrder txns) (hbatches : Batches txns batches)
    (hquery : ∀ old excluded, pk old = pk excluded →
      query old excluded = later ver old excluded)
    (hver : ∀ version change, ver (row version change) = version)
    (hchanges : ∀ txn ∈ txns, rowsOf txn =
      (if isUser txn then changes txn else []).map (row txn.txnVersion))
    (hperm : order.Perm (batches.flatMap fun b =>
      (((∅ : Table κ ρ).insertAll ((b.flatMap rowsOf).map fun r => (pk r, r))).rows.map
        fun row => (row.1, ⟨row.2, query⟩)))) (key : κ) :
    ((∅ : Table κ ρ).writeAll order).lookup key =
      ((((txns.filter isUser).flatMap fun txn => (changes txn).map (txn.txnVersion, ·)).filter
        fun c => pk (row c.1 c.2) = key).getLast?).map fun c => row c.1 c.2 := by
  rw [lookup_batches_last hquery hord ?_ hbatches.sublist hbatches.cover hperm key,
    flatMap_rows_eq row hchanges, List.filter_map, List.getLast?_map]
  · rfl
  · intro txn htxn r hr
    rw [hchanges txn htxn] at hr
    obtain ⟨change, -, rfl⟩ := List.mem_map.mp hr
    exact hver txn.txnVersion change

theorem showsLookup_of_eq {sdk : AnsSdk} {row : Option CurrentAnsLookupV2}
    {last : Option (Int64 × LookupChange)} (h : row = last.map fun c => c.2.row sdk c.1) :
    ShowsLookup sdk row last where
  row_eq := h
  isDeleted := by
    intro r hr
    rw [h] at hr
    obtain ⟨⟨version, change⟩, rfl, rfl⟩ := Option.map_eq_some_iff.mp hr
    cases change with
    | v1Write key record => simp [LookupChange.row]
    | v1Delete key => simp [LookupChange.row]
    | v2Write record ext => simp [LookupChange.row]

theorem showsPrimary_of_eq {sdk : AnsSdk} {row : Option CurrentAnsPrimaryNameV2}
    {last : Option (Int64 × PrimaryChange)} (h : row = last.map fun c => c.2.row sdk c.1) :
    ShowsPrimary sdk row last where
  row_eq := h
  isDeleted := by
    intro r hr
    rw [h] at hr
    obtain ⟨⟨version, change⟩, rfl, rfl⟩ := Option.map_eq_some_iff.mp hr
    cases change with
    | v1Write address key => simp [PrimaryChange.row, primaryRow]
    | v1Delete address => simp [PrimaryChange.row, primaryRow]
    | v2Event event =>
      by_cases hempty : event.getCurrDomainTrunc sdk = ""
      · simp [PrimaryChange.row, primaryRow, hempty]
      · simp [PrimaryChange.row, primaryRow, hempty]

/-- **Names and primary names are their last changes**, of the user transactions.
The batches are any parts that cover the list, each in its order, and the orders are
any interleavings of their upserts. -/
theorem ans_rows_last_change (sdk : AnsSdk) (config : AnsConfig)
    (txns : List Protos.Transaction) (hord : InOrder txns)
    (batches : List (List Protos.Transaction)) (hbatches : Batches txns batches)
    (writes : List Protos.Transaction →
      List (CurrentAnsLookupV2PK × Write CurrentAnsLookupV2) ×
        List (CurrentAnsPrimaryNameV2PK × Write CurrentAnsPrimaryNameV2))
    (hwrites : ∀ b ∈ batches, batchWrites sdk config b = some (writes b))
    (lookupOrder : List (CurrentAnsLookupV2PK × Write CurrentAnsLookupV2))
    (hlookupOrder : lookupOrder.Perm (batches.flatMap fun b => (writes b).1))
    (primaryOrder : List (CurrentAnsPrimaryNameV2PK × Write CurrentAnsPrimaryNameV2))
    (hprimaryOrder : primaryOrder.Perm (batches.flatMap fun b => (writes b).2)) :
    (∀ key, ShowsLookup sdk ((Table.writeAll ∅ lookupOrder).lookup key)
      (lastLookupChange sdk config (txns.filter isUser) key)) ∧
    ∀ key, ShowsPrimary sdk ((Table.writeAll ∅ primaryOrder).lookup key)
      (lastPrimaryChange sdk config (txns.filter isUser) key) := by
  -- Every transaction is in some batch, and that batch was parsed.
  have hrows : ∀ txn ∈ txns, ∃ rows, transactionRows sdk config txn = some rows := by
    intro txn htxn
    obtain ⟨b, hb, hmem⟩ := hbatches.cover txn htxn
    exact Option.isSome_iff_exists.mp ((batchWrites_eq (hwrites b hb)).1 txn hmem)
  constructor
  · intro key
    have hperm := hlookupOrder
    rw [List.flatMap_congr fun b hb => (batchWrites_eq (hwrites b hb)).2.1] at hperm
    refine showsLookup_of_eq (lookup_last_change hord hbatches
      (fun _ _ => insertCurrentAnsLookupsV2Query_eq) ?_ ?_ hperm key)
    · intro version change
      cases change with
      | v1Write => rfl
      | v1Delete => rfl
      | v2Write => rfl
    · intro txn htxn
      obtain ⟨rows, hrows⟩ := hrows txn htxn
      rw [lookupRows, hrows]
      exact (transactionRows_eq hrows).1
  · intro key
    have hperm := hprimaryOrder
    rw [List.flatMap_congr fun b hb => (batchWrites_eq (hwrites b hb)).2.2] at hperm
    refine showsPrimary_of_eq (lookup_last_change hord hbatches
      (fun _ _ => insertCurrentAnsPrimaryNamesV2Query_eq) ?_ ?_ hperm key)
    · intro version change
      cases change with
      | v1Write => rfl
      | v1Delete => rfl
      | v2Event => rfl
    · intro txn htxn
      obtain ⟨rows, hrows⟩ := hrows txn htxn
      rw [primaryRows, hrows]
      exact (transactionRows_eq hrows).2

/-- Addresses, types and names as they are given, and the key and the record of one
name. -/
def plainSdk : AnsSdk where
  standardizeAddress := id
  fromStr text :=
    [("alice", Json.object [("domain_name", .string "alice"),
        ("subdomain_name", .object [("vec", .array [])])]),
      ("record", Json.object [("expiration_time_sec", .string "100"),
        ("property_version", .string "1"),
        ("target_address", .object [("vec", .array [.string "0xa"])])])].lookup text
  bigDecimal _ := some 100
  parseTimestamp ts _ := ts.seconds.toInt
  fromTimestampOpt seconds _ := some seconds.toInt
  truncateStr text _ := text
  getNameFromUnnestedMoveType := id
  expirationTime _ := some 100

def plainConfig : AnsConfig := ⟨"0x2", "0x1", "0x3"⟩

def aliceKey : NameRecordKeyV1 := ⟨"alice", ⟨[]⟩⟩

/-- A transaction that writes or deletes the name `alice` of the first contract. -/
def aliceTxn (version : UInt64) (txnData : Protos.TxnData) (delete : Bool) : Protos.Transaction :=
  ⟨version, some ⟨0, 0⟩, some [if delete then
      .deleteTableItem ⟨"0x1", "k", some ⟨"alice", "NameRecordKeyV1"⟩⟩
    else .writeTableItem ⟨"0x1", "k",
      some ⟨"alice", "NameRecordKeyV1", "record", "NameRecordV1"⟩⟩], some txnData⟩

/-- Written and then deleted; the later batch is stored first, then the earlier one,
then both again. -/
theorem ans_rows_last_change_deletion :
    let w := aliceTxn 1 (.user none []) false
    let d := aliceTxn 3 (.user none []) true
    ShowsLookup plainSdk
      ((Table.writeAll ∅ ([[d], [w], [w, d]].flatMap fun b =>
        ((batchWrites plainSdk plainConfig b).getD ([], [])).1)).lookup ("alice", "", .v1))
      (some (3, .v1Delete aliceKey)) := by
  intro w d
  have hbatches : Batches [w, d] [[d], [w], [w, d]] := ⟨by decide +kernel, by decide +kernel⟩
  have hsome : ∀ b ∈ [[d], [w], [w, d]], (batchWrites plainSdk plainConfig b).isSome := by
    decide +kernel
  have hlast : lastLookupChange plainSdk plainConfig ([w, d].filter isUser) ("alice", "", .v1) =
      some (3, .v1Delete aliceKey) := by decide +kernel
  have hwrites : ∀ b ∈ [[d], [w], [w, d]], batchWrites plainSdk plainConfig b =
      some ((batchWrites plainSdk plainConfig b).getD ([], [])) := by
    intro b hb
    obtain ⟨ws, hws⟩ := Option.isSome_iff_exists.mp (hsome b hb)
    rw [hws]
    rfl
  rw [← hlast]
  exact (ans_rows_last_change plainSdk plainConfig [w, d] (by decide) [[d], [w], [w, d]] hbatches
    _ hwrites _ (List.Perm.refl _) _ (List.Perm.refl _)).1 ("alice", "", .v1)

/-- A name written by a validator transaction has no row. -/
theorem validator_name_skipped :
    let txns := [aliceTxn 1 (.validator []) false]
    InOrder txns ∧ (lastLookupChange plainSdk plainConfig txns ("alice", "", .v1)).isSome ∧
    ∃ writes, batchWrites plainSdk plainConfig txns = some writes ∧
      (Table.writeAll ∅ writes.1).lookup ("alice", "", .v1) = none ∧
      ¬ ShowsLookup plainSdk ((Table.writeAll ∅ writes.1).lookup ("alice", "", .v1))
        (lastLookupChange plainSdk plainConfig txns ("alice", "", .v1)) := by
  intro txns
  have hlast : (lastLookupChange plainSdk plainConfig txns ("alice", "", .v1)).isSome := by
    decide +kernel
  refine ⟨by decide, hlast, _, rfl, rfl, ?_⟩
  intro hshows
  have hnone := hshows.row_eq
  obtain ⟨change, hchange⟩ := Option.isSome_iff_exists.mp hlast
  rw [hchange] at hnone
  cases hnone

end IndexerProcessors.Ans

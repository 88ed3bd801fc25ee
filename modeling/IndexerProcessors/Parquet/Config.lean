import Mathlib.Data.List.Nodup
import Mathlib.Tactic

/-!
# The parquet processors and their tables

Which tables a parquet processor's extractor emits, and under which names
`processor_config.rs` lists them for the status queries. The two are written
down separately in the source: an extractor names its tables by
`ParquetTypeEnum`, `table_names` by the `TABLE_NAME` of the row types. A status
is saved under the former and looked up under the latter.
-/

namespace IndexerProcessors.Parquet

/-- The enum generated from `ProcessorConfig`. -/
inductive ProcessorName where
  | accountRestorationProcessor
  | accountTransactionsProcessor
  | addressReputationProcessor
  | ansProcessor
  | defaultProcessor
  | eventsProcessor
  | fungibleAssetProcessor
  | userTransactionProcessor
  | stakeProcessor
  | tokenV2Processor
  | objectsProcessor
  | monitoringProcessor
  | gasFeeProcessor
  | parquetDefaultProcessor
  | parquetObjectsProcessor
  | parquetUserTransactionProcessor
  | parquetEventsProcessor
  | parquetAnsProcessor
  | parquetFungibleAssetProcessor
  | parquetTransactionMetadataProcessor
  | parquetAccountTransactionsProcessor
  | parquetTokenV2Processor
  | parquetStakeProcessor
  deriving DecidableEq, Repr

/-- The derived name, in snake case. -/
def ProcessorName.toString : ProcessorName → String
  | .accountRestorationProcessor => "account_restoration_processor"
  | .accountTransactionsProcessor => "account_transactions_processor"
  | .addressReputationProcessor => "address_reputation_processor"
  | .ansProcessor => "ans_processor"
  | .defaultProcessor => "default_processor"
  | .eventsProcessor => "events_processor"
  | .fungibleAssetProcessor => "fungible_asset_processor"
  | .userTransactionProcessor => "user_transaction_processor"
  | .stakeProcessor => "stake_processor"
  | .tokenV2Processor => "token_v2_processor"
  | .objectsProcessor => "objects_processor"
  | .monitoringProcessor => "monitoring_processor"
  | .gasFeeProcessor => "gas_fee_processor"
  | .parquetDefaultProcessor => "parquet_default_processor"
  | .parquetObjectsProcessor => "parquet_objects_processor"
  | .parquetUserTransactionProcessor => "parquet_user_transaction_processor"
  | .parquetEventsProcessor => "parquet_events_processor"
  | .parquetAnsProcessor => "parquet_ans_processor"
  | .parquetFungibleAssetProcessor => "parquet_fungible_asset_processor"
  | .parquetTransactionMetadataProcessor => "parquet_transaction_metadata_processor"
  | .parquetAccountTransactionsProcessor => "parquet_account_transactions_processor"
  | .parquetTokenV2Processor => "parquet_token_v2_processor"
  | .parquetStakeProcessor => "parquet_stake_processor"

/-- The tables of the parquet processors. -/
inductive ParquetTypeEnum where
  | moveResources
  | writeSetChanges
  | transactions
  | tableItems
  | moveModules
  | currentTableItems
  | blockMetadataTransactions
  | tableMetadata
  | events
  | userTransactions
  | signatures
  | ansPrimaryNameV2
  | currentAnsPrimaryNameV2
  | ansLookupV2
  | currentAnsLookupV2
  | fungibleAssetActivities
  | fungibleAssetMetadata
  | fungibleAssetBalances
  | currentFungibleAssetBalances
  | currentFungibleAssetBalancesLegacy
  | fungibleAssetToCoinMappings
  | writeSetSize
  | accountTransactions
  | currentTokenPendingClaims
  | currentTokenRoyaltiesV1
  | currentTokenV2Metadata
  | tokenActivitiesV2
  | tokenDatasV2
  | currentTokenDatasV2
  | tokenOwnershipsV2
  | currentTokenOwnershipsV2
  | collectionsV2
  | delegatedStakingActivities
  | currentDelegatorBalances
  | delegatorBalances
  | proposalVotes
  | objects
  | currentObjects
  deriving DecidableEq, Repr

/-- The derived `Display`, in snake case: the table part of a status key. -/
def ParquetTypeEnum.toString : ParquetTypeEnum → String
  | .moveResources => "move_resources"
  | .writeSetChanges => "write_set_changes"
  | .transactions => "transactions"
  | .tableItems => "table_items"
  | .moveModules => "move_modules"
  | .currentTableItems => "current_table_items"
  | .blockMetadataTransactions => "block_metadata_transactions"
  | .tableMetadata => "table_metadata"
  | .events => "events"
  | .userTransactions => "user_transactions"
  | .signatures => "signatures"
  | .ansPrimaryNameV2 => "ans_primary_name_v2"
  | .currentAnsPrimaryNameV2 => "current_ans_primary_name_v2"
  | .ansLookupV2 => "ans_lookup_v2"
  | .currentAnsLookupV2 => "current_ans_lookup_v2"
  | .fungibleAssetActivities => "fungible_asset_activities"
  | .fungibleAssetMetadata => "fungible_asset_metadata"
  | .fungibleAssetBalances => "fungible_asset_balances"
  | .currentFungibleAssetBalances => "current_fungible_asset_balances"
  | .currentFungibleAssetBalancesLegacy => "current_fungible_asset_balances_legacy"
  | .fungibleAssetToCoinMappings => "fungible_asset_to_coin_mappings"
  | .writeSetSize => "write_set_size"
  | .accountTransactions => "account_transactions"
  | .currentTokenPendingClaims => "current_token_pending_claims"
  | .currentTokenRoyaltiesV1 => "current_token_royalties_v1"
  | .currentTokenV2Metadata => "current_token_v2_metadata"
  | .tokenActivitiesV2 => "token_activities_v2"
  | .tokenDatasV2 => "token_datas_v2"
  | .currentTokenDatasV2 => "current_token_datas_v2"
  | .tokenOwnershipsV2 => "token_ownerships_v2"
  | .currentTokenOwnershipsV2 => "current_token_ownerships_v2"
  | .collectionsV2 => "collections_v2"
  | .delegatedStakingActivities => "delegated_staking_activities"
  | .currentDelegatorBalances => "current_delegator_balances"
  | .delegatorBalances => "delegator_balances"
  | .proposalVotes => "proposal_votes"
  | .objects => "objects"
  | .currentObjects => "current_objects"

/-- All tables, in the order of `EnumIter`. -/
def ParquetTypeEnum.iter : List ParquetTypeEnum :=
  [.moveResources, .writeSetChanges, .transactions, .tableItems, .moveModules, .currentTableItems,
   .blockMetadataTransactions, .tableMetadata, .events, .userTransactions, .signatures,
   .ansPrimaryNameV2, .currentAnsPrimaryNameV2, .ansLookupV2, .currentAnsLookupV2,
   .fungibleAssetActivities, .fungibleAssetMetadata, .fungibleAssetBalances,
   .currentFungibleAssetBalances, .currentFungibleAssetBalancesLegacy,
   .fungibleAssetToCoinMappings, .writeSetSize, .accountTransactions, .currentTokenPendingClaims,
   .currentTokenRoyaltiesV1, .currentTokenV2Metadata, .tokenActivitiesV2, .tokenDatasV2,
   .currentTokenDatasV2, .tokenOwnershipsV2, .currentTokenOwnershipsV2, .collectionsV2,
   .delegatedStakingActivities, .currentDelegatorBalances, .delegatorBalances, .proposalVotes,
   .objects, .currentObjects]

theorem ParquetTypeEnum.mem_iter (T : ParquetTypeEnum) : T ∈ iter := by
  cases T <;> decide

/-- The name determines the table, so statuses of different tables do not mix. -/
theorem ParquetTypeEnum.toString_injective : Function.Injective ParquetTypeEnum.toString := by
  have hnd : (iter.map ParquetTypeEnum.toString).Nodup := by decide +kernel
  intro T T' h
  exact List.inj_on_of_nodup_map hnd T.mem_iter T'.mem_iter h

/-! ## What an extractor emits -/

/-- `TableFlags`, a set of bits. -/
abbrev TableFlags := BitVec 128

/-- The flags' names and bits. -/
def tableFlags : List (String × ℕ) :=
  [("TRANSACTIONS", 1), ("WRITE_SET_CHANGES", 2), ("MOVE_RESOURCES", 3), ("TABLE_ITEMS", 4),
   ("TABLE_METADATA", 5), ("MOVE_MODULES", 6), ("CURRENT_TABLE_ITEMS", 7),
   ("BLOCK_METADATA_TRANSACTIONS", 8), ("FUNGIBLE_ASSET_BALANCES", 11),
   ("CURRENT_FUNGIBLE_ASSET_BALANCES", 12), ("FUNGIBLE_ASSET_ACTIVITIES", 13),
   ("FUNGIBLE_ASSET_METADATA", 14), ("CURRENT_UNIFIED_FUNGIBLE_ASSET_BALANCES", 15),
   ("CURRENT_FUNGIBLE_ASSET_BALANCES_LEGACY", 16), ("FUNGIBLE_ASSET_TO_COIN_MAPPINGS", 17),
   ("OBJECTS", 21), ("CURRENT_OBJECTS", 22), ("CURRENT_ANS_LOOKUP_V2", 31),
   ("CURRENT_ANS_PRIMARY_NAME_V2", 32), ("ANS_LOOKUP_V2", 33),
   ("DELEGATED_STAKING_ACTIVITIES", 41), ("DELEGATED_STAKING_POOLS", 42),
   ("DELEGATED_STAKING_POOL_BALANCES", 43), ("CURRENT_DELEGATED_STAKING_POOL_BALANCES", 44),
   ("DELEGATOR_BALANCES", 45), ("CURRENT_DELEGATOR_BALANCES", 46),
   ("CURRENT_DELEGATED_VOTER", 47), ("CURRENT_STAKING_POOL_VOTER", 48), ("PROPOSAL_VOTES", 49),
   ("TOKEN_ACTIVITIES_V2", 51), ("CURRENT_TOKEN_OWNERSHIPS_V2", 52),
   ("CURRENT_TOKEN_DATAS_V2", 53), ("CURRENT_TOKEN_PENDING_CLAIMS", 54),
   ("CURRENT_COLLECTIONS_V2", 55), ("CURRENT_TOKEN_V2_METADATA", 56), ("COLLECTIONS_V2", 57),
   ("TOKEN_OWNERSHIPS_V2", 58), ("TOKEN_DATAS_V2", 59), ("CURRENT_TOKEN_ROYALTY_V1", 60),
   ("USER_TRANSACTIONS", 61), ("SIGNATURES", 62), ("ACCOUNT_TRANSACTIONS", 71), ("EVENTS", 81),
   ("WRITE_SET_SIZE", 91), ("COIN_SUPPLY", 101), ("CURRENT_ANS_LOOKUP", 102),
   ("CURRENT_ANS_PRIMARY_NAME", 103), ("ANS_PRIMARY_NAME_V2", 104), ("ANS_LOOKUP", 105),
   ("ANS_PRIMARY_NAME", 106), ("AUTH_KEY_ACCOUNT_ADDRESSES", 111), ("PUBLIC_KEY_AUTH_KEYS", 112),
   ("GAS_FEES", 123), ("ADDRESS_TRANSFER_EDGES", 124), ("BRIDGE_INFLOWS", 125),
   ("ADDRESS_REPUTATION", 126)]

/-- `TableFlags::from_name`. -/
def TableFlags.fromName (name : String) : Option TableFlags :=
  (tableFlags.lookup name).map fun bit => 1#128 <<< bit

/-- `set_backfill_table_flag`. -/
def setBackfillTableFlag (tableNames : List String) : TableFlags :=
  tableNames.foldl (fun flags name => flags ||| (TableFlags.fromName name).getD 0) 0

/-- The flag and the table of each entry of an extractor's `data_types`. -/
def dataTypes : ProcessorName → List (String × ParquetTypeEnum)
  | .parquetDefaultProcessor =>
    [("MOVE_RESOURCES", .moveResources), ("WRITE_SET_CHANGES", .writeSetChanges),
     ("TRANSACTIONS", .transactions), ("TABLE_ITEMS", .tableItems),
     ("MOVE_MODULES", .moveModules), ("CURRENT_TABLE_ITEMS", .currentTableItems),
     ("BLOCK_METADATA_TRANSACTIONS", .blockMetadataTransactions),
     ("TABLE_METADATA", .tableMetadata)]
  | .parquetUserTransactionProcessor =>
    [("USER_TRANSACTIONS", .userTransactions), ("SIGNATURES", .signatures)]
  | .parquetEventsProcessor => [("EVENTS", .events)]
  | .parquetAnsProcessor =>
    [("ANS_LOOKUP_V2", .ansLookupV2), ("CURRENT_ANS_LOOKUP_V2", .currentAnsLookupV2),
     ("CURRENT_ANS_PRIMARY_NAME_V2", .currentAnsPrimaryNameV2),
     ("ANS_PRIMARY_NAME_V2", .ansPrimaryNameV2)]
  | .parquetFungibleAssetProcessor =>
    [("FUNGIBLE_ASSET_ACTIVITIES", .fungibleAssetActivities),
     ("FUNGIBLE_ASSET_METADATA", .fungibleAssetMetadata),
     ("FUNGIBLE_ASSET_BALANCES", .fungibleAssetBalances),
     ("FUNGIBLE_ASSET_TO_COIN_MAPPINGS", .fungibleAssetToCoinMappings)]
  | .parquetTransactionMetadataProcessor => [("WRITE_SET_SIZE", .writeSetSize)]
  | .parquetAccountTransactionsProcessor => [("ACCOUNT_TRANSACTIONS", .accountTransactions)]
  | .parquetTokenV2Processor =>
    [("CURRENT_TOKEN_PENDING_CLAIMS", .currentTokenPendingClaims),
     ("CURRENT_TOKEN_ROYALTY_V1", .currentTokenRoyaltiesV1),
     ("CURRENT_TOKEN_V2_METADATA", .currentTokenV2Metadata),
     ("TOKEN_ACTIVITIES_V2", .tokenActivitiesV2), ("TOKEN_DATAS_V2", .tokenDatasV2),
     ("CURRENT_TOKEN_DATAS_V2", .currentTokenDatasV2),
     ("TOKEN_OWNERSHIPS_V2", .tokenOwnershipsV2),
     ("CURRENT_TOKEN_OWNERSHIPS_V2", .currentTokenOwnershipsV2),
     ("COLLECTIONS_V2", .collectionsV2)]
  | .parquetObjectsProcessor => [("OBJECTS", .objects), ("CURRENT_OBJECTS", .currentObjects)]
  | .parquetStakeProcessor =>
    [("DELEGATED_STAKING_ACTIVITIES", .delegatedStakingActivities),
     ("PROPOSAL_VOTES", .proposalVotes), ("DELEGATOR_BALANCES", .delegatorBalances),
     ("CURRENT_DELEGATOR_BALANCES", .currentDelegatorBalances)]
  | _ => []

/-- The tables an extractor puts into every batch: `add_to_map_if_opted_in_for_backfill`
over its `data_types`. -/
def emittedTables (processor : ProcessorName) (optInTables : TableFlags) : List ParquetTypeEnum :=
  ((dataTypes processor).filter fun entry =>
    let flag := (TableFlags.fromName entry.1).getD 0
    optInTables = 0 ∨ optInTables &&& flag = flag).map Prod.snd

theorem nodup_emittedTables (processor : ProcessorName) (optInTables : TableFlags) :
    (emittedTables processor optInTables).Nodup := by
  have hnd : ((dataTypes processor).map Prod.snd).Nodup := by cases processor <;> decide
  exact hnd.sublist (List.filter_sublist.map _)

/-! ## What the status queries look for -/

/-- `ProcessorConfig::table_names`: the `TABLE_NAME`s of the row types. Those of
`ParquetObject` and `ParquetCurrentObject` are the same. -/
def tableNames : ProcessorName → List String
  | .parquetDefaultProcessor =>
    ["transactions", "move_resources", "write_set_changes", "table_items", "move_modules",
     "block_metadata_transactions", "current_table_items", "table_metadata"]
  | .parquetUserTransactionProcessor => ["user_transactions"]
  | .parquetEventsProcessor => ["events"]
  | .parquetAnsProcessor =>
    ["ans_lookup_v2", "ans_primary_name_v2", "current_ans_lookup_v2",
     "current_ans_primary_name_v2"]
  | .parquetFungibleAssetProcessor =>
    ["fungible_asset_activities", "fungible_asset_balances",
     "current_fungible_asset_balances_legacy", "current_fungible_asset_balances",
     "fungible_asset_metadata"]
  | .parquetTransactionMetadataProcessor => ["write_set_size"]
  | .parquetAccountTransactionsProcessor => ["account_transactions"]
  | .parquetTokenV2Processor =>
    ["current_token_pending_claims", "current_token_royalties_v1", "current_token_v2_metadata",
     "token_activities_v2", "token_datas_v2", "current_token_datas_v2", "token_ownerships_v2",
     "current_token_ownerships_v2"]
  | .parquetObjectsProcessor => ["objects", "objects"].dedup
  | .parquetStakeProcessor =>
    ["delegated_staking_activities", "proposal_votes", "delegator_balances",
     "current_delegator_balances"]
  | _ => []

/-- `format_table_name`. -/
def formatTableName (pre tableName : String) : String := pre ++ "." ++ tableName

theorem formatTableName_injective (pre : String) : Function.Injective (formatTableName pre) := by
  intro a b h
  exact (String.append_right_inj _).mp h

/-- Why there are no table names to query. -/
inductive TableNamesError where
  /-- `Invalid parquet processor config: {:?}`. -/
  | invalidParquetProcessorConfig
  /-- `Invalid table name '{}'. Expected one of: {:?}`. -/
  | invalidTableName (tableName : String) (validTableNames : List String)
  deriving DecidableEq, Repr

/-- `validate_backfill_table_names`: the names come back as they were given,
without the processor's prefix. -/
def validateBackfillTableNames (toLowercase : String → String)
    (names validTableNames : List String) : Except TableNamesError (List String) :=
  names.mapM fun name =>
    if toLowercase name ∈ validTableNames then .ok name
    else .error (.invalidTableName name validTableNames)

/-- Whether `get_processor_status_table_names` accepts the processor. -/
def ProcessorName.isParquet : ProcessorName → Bool
  | .parquetDefaultProcessor | .parquetEventsProcessor | .parquetTransactionMetadataProcessor
  | .parquetAccountTransactionsProcessor | .parquetTokenV2Processor | .parquetStakeProcessor
  | .parquetObjectsProcessor | .parquetFungibleAssetProcessor | .parquetUserTransactionProcessor
  | .parquetAnsProcessor => true
  | _ => false

/-- `get_processor_status_table_names`. `VALID_TABLE_NAMES` has an entry for
every processor, so looking one up does not fail. -/
def getProcessorStatusTableNames (toLowercase : String → String) (processor : ProcessorName)
    (backfillTable : List String) : Except TableNamesError (List String) :=
  if processor.isParquet then
    if backfillTable = [] then
      .ok ((tableNames processor).map (formatTableName processor.toString))
    else validateBackfillTableNames toLowercase backfillTable (tableNames processor)
  else .error .invalidParquetProcessorConfig

end IndexerProcessors.Parquet

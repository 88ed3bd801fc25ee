import IndexerProcessors.AccountRestoration.Keys
import IndexerProcessors.AccountRestoration.MultiEd25519
import IndexerProcessors.AccountRestoration.MultiKeyCodec
import IndexerProcessors.AccountRestoration.Rotations
import IndexerProcessors.AccountRestoration.Storer
import IndexerProcessors.AccountTransactions.Agreement
import IndexerProcessors.AccountTransactions.Model
import IndexerProcessors.Ans.Current
import IndexerProcessors.Ans.Parse
import IndexerProcessors.Ans.Restarts
import IndexerProcessors.Default.TableItems
import IndexerProcessors.Default.WriteSetChanges
import IndexerProcessors.FungibleAsset.Activities
import IndexerProcessors.FungibleAsset.ActivityKeys
import IndexerProcessors.FungibleAsset.AskedStores
import IndexerProcessors.FungibleAsset.Balances
import IndexerProcessors.FungibleAsset.CoinTypes
import IndexerProcessors.FungibleAsset.Events
import IndexerProcessors.FungibleAsset.Metadata
import IndexerProcessors.FungibleAsset.Parse
import IndexerProcessors.FungibleAsset.Respell
import IndexerProcessors.FungibleAsset.RespelledRows
import IndexerProcessors.FungibleAsset.Respelling
import IndexerProcessors.FungibleAsset.Shared
import IndexerProcessors.FungibleAsset.SpelledOnce
import IndexerProcessors.FungibleAsset.Spelling
import IndexerProcessors.FungibleAsset.SpellingMatters
import IndexerProcessors.FungibleAsset.Unified
import IndexerProcessors.GasFees.Model
import IndexerProcessors.Lib.Backlog
import IndexerProcessors.Lib.Bcs
import IndexerProcessors.Lib.Chunks
import IndexerProcessors.Lib.CoarseKey
import IndexerProcessors.Lib.Endless
import IndexerProcessors.Lib.Fallible
import IndexerProcessors.Lib.GreedyMatch
import IndexerProcessors.Lib.Hex
import IndexerProcessors.Lib.Journey
import IndexerProcessors.Lib.KeyedLog
import IndexerProcessors.Lib.LastWriter
import IndexerProcessors.Lib.Numeric
import IndexerProcessors.Lib.RecursiveUnion
import IndexerProcessors.Lib.Related
import IndexerProcessors.Lib.Resume
import IndexerProcessors.Lib.RowNumber
import IndexerProcessors.Lib.Run
import IndexerProcessors.Lib.SlidingWindow
import IndexerProcessors.Lib.SortDedup
import IndexerProcessors.Lib.Table
import IndexerProcessors.Lib.TwoStage
import IndexerProcessors.Objects.Batching
import IndexerProcessors.Objects.Life
import IndexerProcessors.Objects.Model
import IndexerProcessors.Objects.Schedule
import IndexerProcessors.Parquet.Aliases
import IndexerProcessors.Parquet.Config
import IndexerProcessors.Parquet.Overflow
import IndexerProcessors.Parquet.Pipeline
import IndexerProcessors.Parquet.Resume
import IndexerProcessors.Parquet.Selection
import IndexerProcessors.Parquet.Steps
import IndexerProcessors.Parquet.Tables
import IndexerProcessors.Protos
import IndexerProcessors.Reputation.Attribution
import IndexerProcessors.Reputation.Crediting
import IndexerProcessors.Reputation.Enrichment
import IndexerProcessors.Reputation.Explained
import IndexerProcessors.Reputation.Extractor
import IndexerProcessors.Reputation.Faults
import IndexerProcessors.Reputation.Journeys
import IndexerProcessors.Reputation.Model
import IndexerProcessors.Reputation.Pairing
import IndexerProcessors.Reputation.Payload
import IndexerProcessors.Reputation.PayloadShapes
import IndexerProcessors.Reputation.Replay
import IndexerProcessors.Reputation.Rollup
import IndexerProcessors.Reputation.Scores
import IndexerProcessors.Reputation.SeenOrd
import IndexerProcessors.Reputation.Storer
import IndexerProcessors.Reputation.Trace
import IndexerProcessors.Resources
import IndexerProcessors.Screening.Drain
import IndexerProcessors.Screening.Freshness
import IndexerProcessors.Screening.Hypernative
import IndexerProcessors.Screening.Loop
import IndexerProcessors.Screening.Pipeline
import IndexerProcessors.Screening.RateLimit
import IndexerProcessors.Screening.Results
import IndexerProcessors.Screening.Retention
import IndexerProcessors.Screening.Retries
import IndexerProcessors.Screening.Spelling
import IndexerProcessors.Stake.Balances
import IndexerProcessors.Stake.DelegatorPools
import IndexerProcessors.Stake.ParentHandles
import IndexerProcessors.Stake.Parse
import IndexerProcessors.Stake.PoolRows
import IndexerProcessors.Stake.ProposalVotes
import IndexerProcessors.Stake.Restarts
import IndexerProcessors.Stake.Voters
import IndexerProcessors.Status.Backfill
import IndexerProcessors.Status.Lives
import IndexerProcessors.Status.Saver
import IndexerProcessors.TokenV2.Activities
import IndexerProcessors.TokenV2.Attribution
import IndexerProcessors.TokenV2.Batching
import IndexerProcessors.TokenV2.Burns
import IndexerProcessors.TokenV2.Claims
import IndexerProcessors.TokenV2.DataSchedule
import IndexerProcessors.TokenV2.Deletion
import IndexerProcessors.TokenV2.History
import IndexerProcessors.TokenV2.Holders
import IndexerProcessors.TokenV2.Identities
import IndexerProcessors.TokenV2.Operations
import IndexerProcessors.TokenV2.Ownerships
import IndexerProcessors.TokenV2.Parse
import IndexerProcessors.TokenV2.Rows
import IndexerProcessors.TokenV2.Soulbound
import IndexerProcessors.TokenV2.Steps
import IndexerProcessors.TokenV2.Storer
import IndexerProcessors.TokenV2.Timestamps
import IndexerProcessors.TokenV2.Transfers
import IndexerProcessors.TokenV2.Utils
import IndexerProcessors.Transaction
import IndexerProcessors.UserTransaction.Flattening
import IndexerProcessors.UserTransaction.Model
import IndexerProcessors.UserTransaction.MultiKeys
import IndexerProcessors.UserTransaction.Rows
import IndexerProcessors.UserTransaction.Signers
import IndexerProcessors.WriteSet

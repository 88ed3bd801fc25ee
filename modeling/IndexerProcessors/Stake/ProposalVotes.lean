import IndexerProcessors.Lib.Fallible
import IndexerProcessors.Stake.Balances

/-!
# Votes on proposals

Every vote event of a user transaction gives a row of `proposal_votes`, kept under the
version, the proposal and the voter. The insert does nothing where a row is there, so of
the votes of a voter in one transaction on one proposal the first one stays.

`votes_kept_iff` — no vote is lost exactly if votes of one version, proposal and voter
agree on the stake pool and the number of votes.
-/

namespace IndexerProcessors.Stake

open IndexerProcessors.Lib
open IndexerProcessors.Protos

/-! ## Events -/

structure GovernanceVoteEvent where
  proposalId : UInt64
  voter : String
  stakePool : String
  numVotes : ℚ
  shouldPass : Bool
  deriving DecidableEq

def GovernanceVoteEvent.ofJson (sdk : StakeSdk) (v : Json) : Option GovernanceVoteEvent := do
  let proposalId ← (v.getStr "proposal_id").bind u64FromStr
  let voter ← v.getStr "voter"
  let stakePool ← v.getStr "stake_pool"
  let numVotes ← v.getBigDecimal sdk.toSdk "num_votes"
  let shouldPass ← v.getBool "should_pass"
  return { proposalId, voter, stakePool, numVotes, shouldPass }

structure DistributeRewardsEvent where
  poolAddress : String
  rewardsAmount : UInt64
  deriving DecidableEq

def DistributeRewardsEvent.ofJson (v : Json) : Option DistributeRewardsEvent := do
  let poolAddress ← v.getStr "pool_address"
  let rewardsAmount ← (v.getStr "rewards_amount").bind u64FromStr
  return { poolAddress, rewardsAmount }

/-- `AddStakeEvent` and its siblings, which differ in the name of the amount. -/
structure DelegationEvent where
  amount : UInt64
  delegatorAddress : String
  poolAddress : String
  deriving DecidableEq

def DelegationEvent.ofJson (amountField : String) (v : Json) : Option DelegationEvent := do
  let amount ← (v.getStr amountField).bind u64FromStr
  let delegatorAddress ← v.getStr "delegator_address"
  let poolAddress ← v.getStr "pool_address"
  return { amount, delegatorAddress, poolAddress }

def AddStakeEvent.ofJson : Json → Option DelegationEvent := DelegationEvent.ofJson "amount_added"

def UnlockStakeEvent.ofJson : Json → Option DelegationEvent :=
  DelegationEvent.ofJson "amount_unlocked"

def WithdrawStakeEvent.ofJson : Json → Option DelegationEvent :=
  DelegationEvent.ofJson "amount_withdrawn"

def ReactivateStakeEvent.ofJson : Json → Option DelegationEvent :=
  DelegationEvent.ofJson "amount_reactivated"

inductive StakeEvent where
  | governanceVoteEvent (inner : GovernanceVoteEvent)
  | distributeRewardsEvent (inner : DistributeRewardsEvent)
  | addStakeEvent (inner : DelegationEvent)
  | unlockStakeEvent (inner : DelegationEvent)
  | withdrawStakeEvent (inner : DelegationEvent)
  | reactivateStakeEvent (inner : DelegationEvent)
  deriving DecidableEq

/-- `StakeEvent::from_event`. -/
def StakeEvent.fromEvent (sdk : StakeSdk) (dataType data : String) :
    Option (Option StakeEvent) :=
  let parse {α : Type} (ofJson : Json → Option α) (event : α → StakeEvent) :=
    ((sdk.fromStr data).bind ofJson).map fun inner => some (event inner)
  if dataType ∈ ["0x1::aptos_governance::VoteEvent", "0x1::aptos_governance::Vote"] then
    parse (GovernanceVoteEvent.ofJson sdk) .governanceVoteEvent
  else if dataType ∈ ["0x1::stake::DistributeRewardsEvent", "0x1::stake::DistributeRewards"] then
    parse DistributeRewardsEvent.ofJson .distributeRewardsEvent
  else if dataType ∈
      ["0x1::delegation_pool::AddStakeEvent", "0x1::delegation_pool::AddStake"] then
    parse AddStakeEvent.ofJson .addStakeEvent
  else if dataType ∈
      ["0x1::delegation_pool::UnlockStakeEvent", "0x1::delegation_pool::UnlockStake"] then
    parse UnlockStakeEvent.ofJson .unlockStakeEvent
  else if dataType ∈
      ["0x1::delegation_pool::WithdrawStakeEvent", "0x1::delegation_pool::WithdrawStake"] then
    parse WithdrawStakeEvent.ofJson .withdrawStakeEvent
  else if dataType ∈
      ["0x1::delegation_pool::ReactivateStakeEvent", "0x1::delegation_pool::ReactivateStake"] then
    parse ReactivateStakeEvent.ofJson .reactivateStakeEvent
  else some none

/-! ## Rows -/

structure ProposalVote where
  transactionVersion : Int64
  proposalId : Int64
  voterAddress : String
  stakingPoolAddress : String
  numVotes : ℚ
  shouldPass : Bool
  transactionTimestamp : Int
  deriving DecidableEq

namespace ProposalVote

/-- The row of a vote. -/
def ofVote (sdk : StakeSdk) (txn : Protos.Transaction) (timestamp : Timestamp)
    (ev : GovernanceVoteEvent) : ProposalVote where
  transactionVersion := txn.txnVersion
  proposalId := ev.proposalId.toInt64
  voterAddress := sdk.standardizeAddress ev.voter
  stakingPoolAddress := sdk.standardizeAddress ev.stakePool
  numVotes := ev.numVotes
  shouldPass := ev.shouldPass
  transactionTimestamp := sdk.parseTimestamp timestamp txn.txnVersion

/-- The row of an event, if it is a vote. -/
def addEvent (sdk : StakeSdk) (txn : Protos.Transaction) (rows : List ProposalVote)
    (event : Protos.Event) : Option (List ProposalVote) := do
  match ← StakeEvent.fromEvent sdk event.typeStr event.data with
  | some (.governanceVoteEvent ev) =>
    let timestamp ← txn.timestamp
    return rows ++ [ofVote sdk txn timestamp ev]
  | _ => return rows

/-- `ProposalVote::from_transaction`. -/
def fromTransaction (sdk : StakeSdk) (txn : Protos.Transaction) : Option (List ProposalVote) :=
  match txn.txnData with
  | some (.user _ events) => events.foldlM (addEvent sdk txn) []
  | _ => some []

/-- The primary key, which is the conflict target of the insert. -/
def key (row : ProposalVote) : Int64 × Int64 × String :=
  (row.transactionVersion, row.proposalId, row.voterAddress)

end ProposalVote

/-- The loop of `parse_stake_data`, for the votes. -/
def addVotes (sdk : StakeSdk) (rows : List ProposalVote) (txn : Protos.Transaction) :
    Option (List ProposalVote) := do
  let _ ← txn.timestamp
  return rows ++ (← ProposalVote.fromTransaction sdk txn)

/-- `parse_stake_data`, for the votes. -/
def parseVotes (sdk : StakeSdk) (transactions : List Protos.Transaction) :
    Option (List ProposalVote) :=
  transactions.foldlM (addVotes sdk) []

/-- The table after inserts of these rows, one after another: `insert_proposal_votes_query`. -/
def storeVotes (rows : List ProposalVote) : Table (Int64 × Int64 × String) ProposalVote :=
  Table.insertNewAll ∅ (rows.map fun row => (row.key, row))

/-! ## Votes -/

/-- The vote an event is. -/
def voteOf (sdk : StakeSdk) (event : Protos.Event) : Option GovernanceVoteEvent :=
  match StakeEvent.fromEvent sdk event.typeStr event.data with
  | some (some (.governanceVoteEvent ev)) => some ev
  | _ => none

/-- The votes of a user transaction. -/
def votesOf (sdk : StakeSdk) (txn : Protos.Transaction) : List GovernanceVoteEvent :=
  match txn.txnData with
  | some (.user _ events) => events.filterMap (voteOf sdk)
  | _ => []

section Batch

variable {sdk : StakeSdk}

/-- An event adds the row of its vote. -/
theorem addEvent_eq {txn : Protos.Transaction} {timestamp : Timestamp}
    (htimestamp : txn.timestamp = some timestamp) {event : Protos.Event}
    {rows rows' : List ProposalVote}
    (h : ProposalVote.addEvent sdk txn rows event = some rows') :
    rows' = rows ++ (voteOf sdk event).toList.map (ProposalVote.ofVote sdk txn timestamp) := by
  obtain ⟨parsed, hparsed, h⟩ := Option.bind_eq_some_iff.mp h
  unfold voteOf
  rw [hparsed]
  rw [htimestamp] at h
  cases parsed with
  | none =>
    obtain rfl := Option.some.inj h
    exact (List.append_nil _).symm
  | some parsed =>
    cases parsed with
    | governanceVoteEvent ev =>
      obtain rfl := Option.some.inj h
      rfl
    | distributeRewardsEvent | addStakeEvent | unlockStakeEvent | withdrawStakeEvent
    | reactivateStakeEvent =>
      obtain rfl := Option.some.inj h
      exact (List.append_nil _).symm

/-- The rows of a transaction are those of its votes. -/
theorem fromTransaction_eq {txn : Protos.Transaction} {timestamp : Timestamp}
    (htimestamp : txn.timestamp = some timestamp) {rows : List ProposalVote}
    (h : ProposalVote.fromTransaction sdk txn = some rows) :
    rows = (votesOf sdk txn).map (ProposalVote.ofVote sdk txn timestamp) := by
  unfold ProposalVote.fromTransaction at h
  unfold votesOf
  split at h
  next events hdata =>
    refine foldlM_prefix (P := fun done rows =>
      rows = (done.filterMap (voteOf sdk)).map (ProposalVote.ofVote sdk txn timestamp)) h rfl ?_
    intro done event rows rows' _ hrows hstep
    rw [addEvent_eq htimestamp hstep, hrows, List.filterMap_append, List.map_append]
    cases hvote : voteOf sdk event with
    | none => simp [hvote]
    | some ev => simp [hvote]
  next hother =>
    obtain rfl := Option.some.inj h
    rfl

/-- The rows of a batch are those of the votes of its transactions. -/
theorem mem_parseVotes {batch : List Protos.Transaction} {rows : List ProposalVote}
    (h : parseVotes sdk batch = some rows) {row : ProposalVote} :
    row ∈ rows ↔ ∃ txn ∈ batch, ∃ timestamp, txn.timestamp = some timestamp ∧
      ∃ ev ∈ votesOf sdk txn, ProposalVote.ofVote sdk txn timestamp ev = row := by
  refine foldlM_prefix (P := fun done rows => row ∈ rows ↔ ∃ txn ∈ done, ∃ timestamp,
    txn.timestamp = some timestamp ∧
      ∃ ev ∈ votesOf sdk txn, ProposalVote.ofVote sdk txn timestamp ev = row) h (by simp) ?_
  intro done txn rows rows' _ hrows hstep
  obtain ⟨timestamp, htimestamp, hstep⟩ := Option.bind_eq_some_iff.mp hstep
  obtain ⟨new, hnew, hstep⟩ := Option.bind_eq_some_iff.mp hstep
  obtain rfl := Option.some.inj hstep
  rw [fromTransaction_eq htimestamp hnew, List.mem_append, hrows]
  simp only [List.mem_append, List.mem_singleton, or_and_right, exists_or, exists_eq_left,
    htimestamp, Option.some.injEq, exists_eq_left', List.mem_map]

/-- In a batch that is parsed every transaction has a timestamp. -/
theorem timestamp_of_parseVotes {batch : List Protos.Transaction} {rows : List ProposalVote}
    (h : parseVotes sdk batch = some rows) {txn : Protos.Transaction} (htxn : txn ∈ batch) :
    ∃ timestamp, txn.timestamp = some timestamp := by
  revert txn
  refine foldlM_prefix (P := fun done _ => ∀ {txn : Protos.Transaction}, txn ∈ done →
    ∃ timestamp, txn.timestamp = some timestamp) h (by simp) ?_
  intro done last rows rows' _ hrows hstep txn htxn
  obtain ⟨timestamp, htimestamp, -⟩ := Option.bind_eq_some_iff.mp hstep
  rcases List.mem_append.mp htxn with htxn | htxn
  · exact hrows htxn
  · obtain rfl := List.mem_singleton.mp htxn
    exact ⟨timestamp, htimestamp⟩

end Batch

/-! ## The table -/

/-- The first row of a key is stored. -/
theorem storeVotes_lookup (order : List ProposalVote) (k : Int64 × Int64 × String) :
    (storeVotes order).lookup k = order.find? fun row => row.key = k := by
  unfold storeVotes
  rw [Table.lookup_insertNewAll, AList.lookup_empty, Option.none_or, List.find?_map,
    Option.map_map]
  exact Option.map_id'

/-- A row is stored under its own key. -/
theorem storeVotes_key {order : List ProposalVote} {k : Int64 × Int64 × String}
    {row : ProposalVote} (h : (storeVotes order).lookup k = some row) :
    row ∈ order ∧ row.key = k := by
  rw [storeVotes_lookup] at h
  exact ⟨List.mem_of_find?_eq_some h, by simpa using List.find?_some h⟩

/-- The rows of the batches, in some order and any of them possibly several times. -/
def StoredVotes (parsed : List (List ProposalVote)) (order : List ProposalVote) : Prop :=
  ∀ row, row ∈ order ↔ ∃ rows ∈ parsed, row ∈ rows

/-- The table has a row with the version, proposal, voter, stake pool and number of votes. -/
def Kept (sdk : StakeSdk) (table : Table (Int64 × Int64 × String) ProposalVote)
    (txn : Protos.Transaction) (ev : GovernanceVoteEvent) : Prop :=
  ∃ k row, table.lookup k = some row ∧ row.transactionVersion = txn.txnVersion ∧
    row.proposalId = ev.proposalId.toInt64 ∧
    row.voterAddress = sdk.standardizeAddress ev.voter ∧
    row.stakingPoolAddress = sdk.standardizeAddress ev.stakePool ∧ row.numVotes = ev.numVotes

/-- Two votes have the same version, proposal and voter. -/
def SameKey (sdk : StakeSdk) (txn txn' : Protos.Transaction) (ev ev' : GovernanceVoteEvent) :
    Prop :=
  txn.txnVersion = txn'.txnVersion ∧ ev.proposalId = ev'.proposalId ∧
    sdk.standardizeAddress ev.voter = sdk.standardizeAddress ev'.voter

/-- **No vote is lost** exactly if the votes of one version, proposal and voter have one
stake pool and one number of votes. -/
theorem votes_kept_iff (sdk : StakeSdk) {txns : List Protos.Transaction}
    {batches : List (List Protos.Transaction)} {parsed : List (List ProposalVote)}
    {order : List ProposalVote} (hbatches : Batches txns batches)
    (hparse : batches.mapM (parseVotes sdk) = some parsed) (horder : StoredVotes parsed order) :
    (∀ txn ∈ txns, ∀ ev ∈ votesOf sdk txn, Kept sdk (storeVotes order) txn ev) ↔
      ∀ txn ∈ txns, ∀ txn' ∈ txns, ∀ ev ∈ votesOf sdk txn, ∀ ev' ∈ votesOf sdk txn',
        SameKey sdk txn txn' ev ev' →
          sdk.standardizeAddress ev.stakePool = sdk.standardizeAddress ev'.stakePool ∧
            ev.numVotes = ev'.numVotes := by
  -- The batches are parsed one by one, but what is stored are the votes of all transactions.
  have hstored : ∀ row, row ∈ order ↔ ∃ txn ∈ txns, ∃ timestamp,
      txn.timestamp = some timestamp ∧
        ∃ ev ∈ votesOf sdk txn, ProposalVote.ofVote sdk txn timestamp ev = row := by
    intro row
    rw [horder row]
    constructor
    · intro h
      obtain ⟨rows, hrows, hrow⟩ := h
      obtain ⟨batch, hbatch, hparsed⟩ := (mem_of_mapM hparse).mp hrows
      obtain ⟨txn, htxn, hvote⟩ := (mem_parseVotes hparsed).mp hrow
      exact ⟨txn, (hbatches.sublist batch hbatch).subset htxn, hvote⟩
    · intro h
      obtain ⟨txn, htxn, hvote⟩ := h
      obtain ⟨batch, hbatch, htxn⟩ := hbatches.cover txn htxn
      obtain ⟨rows, hrows, hparsed⟩ := exists_of_mapM hparse hbatch
      exact ⟨rows, hrows, (mem_parseVotes hparsed).mpr ⟨txn, htxn, hvote⟩⟩
  constructor
  -- Votes under one key are kept by one row.
  · intro hkept txn htxn txn' htxn' ev hev ev' hev' hsame
    obtain ⟨hversion, hproposal, hvoter⟩ := hsame
    obtain ⟨k, row, hrow, hv, hp, ha, hpool, hvotes⟩ := hkept txn htxn ev hev
    obtain ⟨k', row', hrow', hv', hp', ha', hpool', hvotes'⟩ := hkept txn' htxn' ev' hev'
    have hk : k = k' := by
      rw [← (storeVotes_key hrow).2, ← (storeVotes_key hrow').2]
      unfold ProposalVote.key
      rw [hv, hp, ha, hv', hp', ha', hversion, hproposal, hvoter]
    subst hk
    obtain rfl := Option.some.inj (hrow.symm.trans hrow')
    exact ⟨hpool.symm.trans hpool', hvotes.symm.trans hvotes'⟩
  -- The row under the vote's key may be that of another vote.
  · intro hagree txn htxn ev hev
    obtain ⟨batch, hbatch, hmem⟩ := hbatches.cover txn htxn
    obtain ⟨rows, -, hparsed⟩ := exists_of_mapM hparse hbatch
    obtain ⟨timestamp, htimestamp⟩ := timestamp_of_parseVotes hparsed hmem
    have hin : ProposalVote.ofVote sdk txn timestamp ev ∈ order :=
      (hstored _).mpr ⟨txn, htxn, timestamp, htimestamp, ev, hev, rfl⟩
    obtain ⟨row, hrow⟩ : ∃ row, (storeVotes order).lookup
        (ProposalVote.ofVote sdk txn timestamp ev).key = some row := by
      rw [storeVotes_lookup, ← Option.isSome_iff_exists, List.find?_isSome]
      exact ⟨_, hin, decide_eq_true rfl⟩
    obtain ⟨hmem', hkey'⟩ := storeVotes_key hrow
    obtain ⟨txn', htxn', timestamp', -, ev', hev', rfl⟩ := (hstored row).mp hmem'
    injection hkey' with hversion hrest
    injection hrest with hproposal hvoter
    have hid : ev'.proposalId = ev.proposalId :=
      congrArg Int64.toUInt64 hproposal
    obtain ⟨hpool, hvotes⟩ := hagree txn' htxn' txn htxn ev' hev' ev hev
      ⟨hversion, hid, hvoter⟩
    exact ⟨_, _, hrow, hversion, hproposal, hvoter, hpool, hvotes⟩

/-- The rows of one batch after those of another. -/
theorem storedVotes_flatten (parsed : List (List ProposalVote)) :
    StoredVotes parsed parsed.flatten := fun _ => List.mem_flatten

/-- A vote on the first proposal by voter 6, for a stake pool and with a number of votes. -/
def ballotDoc (stakePool numVotes : String) : String × Json :=
  ("\x7b\"proposal_id\":\"1\",\"voter\":\"" ++ address '6' ++ "\",\"stake_pool\":\"" ++ stakePool ++
      "\",\"num_votes\":\"" ++ numVotes ++ "\",\"should_pass\":true\x7d",
    .object [("proposal_id", .string "1"), ("voter", .string (address '6')),
      ("stake_pool", .string stakePool), ("num_votes", .string numVotes),
      ("should_pass", .bool true)])

def ballotSdk : StakeSdk :=
  { plainSdk with
    fromStr := fun text => [ballotDoc (address 'a') "7", ballotDoc (address 'b') "8"].lookup text }

def castVote (stakePool numVotes : String) : Protos.Event :=
  ⟨none, "0x1::aptos_governance::Vote", (ballotDoc stakePool numVotes).1⟩

/-- A user transaction with these votes. -/
def ballotTxn (events : List Protos.Event) : Protos.Transaction :=
  ⟨1, some ⟨0, 0⟩, some [], some (.user none events)⟩

/-- One vote is kept. -/
theorem one_vote_kept :
    ∃ parsed order, [[ballotTxn [castVote (address 'a') "7"]]].mapM (parseVotes ballotSdk) =
        some parsed ∧ StoredVotes parsed order ∧
      ∀ ev ∈ votesOf ballotSdk (ballotTxn [castVote (address 'a') "7"]),
        Kept ballotSdk (storeVotes order) (ballotTxn [castVote (address 'a') "7"]) ev := by
  have hrun : ([[ballotTxn [castVote (address 'a') "7"]]].mapM
      (parseVotes ballotSdk)).isSome = true := by decide +kernel
  obtain ⟨parsed, hparsed⟩ := Option.isSome_iff_exists.mp hrun
  have hvotes : votesOf ballotSdk (ballotTxn [castVote (address 'a') "7"]) =
      [⟨1, address '6', address 'a', 7, true⟩] := by decide +kernel
  have hbatches : Batches [ballotTxn [castVote (address 'a') "7"]]
      [[ballotTxn [castVote (address 'a') "7"]]] := ⟨by simp, by simp⟩
  refine ⟨parsed, parsed.flatten, hparsed, storedVotes_flatten parsed, ?_⟩
  refine (votes_kept_iff ballotSdk hbatches hparsed (storedVotes_flatten parsed)).mpr ?_ _
    (List.mem_singleton.mpr rfl)
  intro txn htxn txn' htxn' ev hev ev' hev' _
  obtain rfl := List.mem_singleton.mp htxn
  obtain rfl := List.mem_singleton.mp htxn'
  rw [hvotes] at hev hev'
  obtain rfl := List.mem_singleton.mp hev
  obtain rfl := List.mem_singleton.mp hev'
  exact ⟨rfl, rfl⟩

/-- Of two votes of one voter for two stake pools the second is lost. -/
theorem second_pool_lost :
    ∃ txn ev parsed order, [[txn]].mapM (parseVotes ballotSdk) = some parsed ∧
      Batches [txn] [[txn]] ∧ StoredVotes parsed order ∧ ev ∈ votesOf ballotSdk txn ∧
      ¬ Kept ballotSdk (storeVotes order) txn ev := by
  have hrun : (([[ballotTxn [castVote (address 'a') "7", castVote (address 'b') "8"]]].mapM
      (parseVotes ballotSdk)).any fun parsed =>
        ((storeVotes parsed.flatten).lookup (1, 1, address '6')).map (·.stakingPoolAddress) =
          some (address 'a')) = true := by
    decide +kernel
  have hvote : ⟨1, address '6', address 'b', 8, true⟩ ∈ votesOf ballotSdk
      (ballotTxn [castVote (address 'a') "7", castVote (address 'b') "8"]) := by decide +kernel
  obtain ⟨parsed, hparsed, hfirst⟩ := exists_of_any hrun
  refine ⟨_, _, parsed, parsed.flatten, hparsed, ⟨by simp, by simp⟩, storedVotes_flatten parsed,
    hvote, ?_⟩
  intro hkept
  obtain ⟨k, row, hrow, hversion, hproposal, hvoter, hpool, -⟩ := hkept
  obtain rfl := (storeVotes_key hrow).2
  -- The key of the row is that of the first vote.
  have hkey : row.key = (1, 1, address '6') := by
    unfold ProposalVote.key
    rw [hversion, hproposal, hvoter]
    rfl
  rw [← hkey, hrow, Option.map_some, hpool] at hfirst
  exact absurd hfirst (by decide)

end IndexerProcessors.Stake

import IndexerProcessors.TokenV2.Ownerships
import Mathlib.Data.List.Chain

/-!
# The owner after a chain of transfers

A transaction that writes a token gives its owner, who is read from the object
core, a row of amount 1, and everyone who gave the token away a row of amount 0.
The rows go into one map, the owner's first: if the token comes back to someone
who had given it away in the same transaction, his zero row takes the place of
his row as the owner.

`ownersRight_iff` — the rows are those of a chain of transfers exactly if the
final owner does not give the token away anywhere in the chain. Self transfers do
no harm.
-/

namespace IndexerProcessors.TokenV2

open IndexerProcessors.Lib
open IndexerProcessors.Protos

variable {sdk : TokenSdk} {token : String}

/-- Transfers of a token one after the other, the last of them to its owner. -/
structure TransferChain (sdk : TokenSdk) (owner : String) (transfers : List TransferEvent) :
    Prop where
  chain : transfers.IsChain fun a b => b.getFromAddress sdk = a.getToAddress sdk
  last : ∀ event ∈ transfers.getLast?, event.getToAddress sdk = owner

instance (owner : String) (transfers : List TransferEvent) :
    Decidable (TransferChain sdk owner transfers) :=
  decidable_of_iff
    ((transfers.IsChain fun a b => b.getFromAddress sdk = a.getToAddress sdk) ∧
      ∀ event ∈ transfers.getLast?, event.getToAddress sdk = owner)
    ⟨fun h => ⟨h.1, h.2⟩, fun h => ⟨h.1, h.2⟩⟩

/-- The existing rows of a token after a transaction of `version`: the owner holds
it, everyone else who occurs as a sender does not, and nobody else's row changes. -/
structure OwnersRight (sdk : TokenSdk) (token owner : String) (transfers : List TransferEvent)
    (version : Int64) (before after : ParseState) : Prop where
  holds : after.holding .live (objectKey token owner) = some ⟨1, version⟩
  gave : ∀ event ∈ transfers, event.getFromAddress sdk ≠ owner →
    after.holding .live (objectKey token (event.getFromAddress sdk)) = some ⟨0, version⟩
  others : ∀ address, address ≠ owner →
    (∀ event ∈ transfers, event.getFromAddress sdk ≠ address) →
    after.holding .live (objectKey token address) = before.holding .live (objectKey token address)

/-! ## Chains -/

theorem TransferChain.tail {owner : String} {event : TransferEvent}
    {transfers : List TransferEvent} (h : TransferChain sdk owner (event :: transfers)) :
    TransferChain sdk owner transfers := by
  refine ⟨h.chain.tail, ?_⟩
  intro last hlast
  refine h.last last ?_
  rw [List.getLast?_cons, Option.mem_def.mp hlast]
  rfl

/-- Who has had the token and is not its final owner has given it to someone else. -/
theorem TransferChain.gave_away {owner : String} :
    ∀ {transfers : List TransferEvent}, TransferChain sdk owner transfers →
      ∀ event ∈ transfers, event.getFromAddress sdk ≠ owner →
        ∃ event' ∈ transfers, event'.getFromAddress sdk = event.getFromAddress sdk ∧
          event'.getToAddress sdk ≠ event'.getFromAddress sdk := by
  intro transfers
  induction transfers with
  | nil =>
    intro _ event hevent
    exact absurd hevent List.not_mem_nil
  | cons first rest ih =>
    intro h event hevent hne
    rcases List.mem_cons.mp hevent with rfl | hrest
    · by_cases hself : event.getToAddress sdk = event.getFromAddress sdk
      · -- A self transfer: the next event of the chain starts at the same address.
        cases rest with
        | nil =>
          have hto := h.last event rfl
          exact absurd (hself.symm.trans hto) hne
        | cons next rest =>
          have hnext : next.getFromAddress sdk = event.getFromAddress sdk :=
            (List.isChain_cons_cons.mp h.chain).1.trans hself
          obtain ⟨event', hmem, hfrom, hto⟩ :=
            ih h.tail next (List.mem_cons_self ..) (hnext ▸ hne)
          exact ⟨event', List.mem_cons_of_mem _ hmem, hfrom.trans hnext, hto⟩
      · exact ⟨event, List.mem_cons_self .., rfl, hself⟩
    · obtain ⟨event', hmem, hfrom, hto⟩ := ih h.tail event hrest hne
      exact ⟨event', List.mem_cons_of_mem _ hmem, hfrom, hto⟩

/-! ## Rows of a write -/

/-- Who does not give the token away has no row but the owner's. -/
theorem proj_writtenHoldings_keeper {core : ObjectCore} {transfers : List TransferEvent}
    {version : Int64} {address : String}
    (h : ∀ event ∈ transfers, event.getFromAddress sdk = address →
      event.getToAddress sdk = address) :
    proj (objectKey token address) (writtenHoldings sdk token core transfers version) =
      if core.getOwnerAddress sdk.toSdk = address then [⟨1, version⟩] else [] := by
  have hnone : proj (objectKey token address)
      ((transfers.filter fun event => event.getToAddress sdk ≠ event.getFromAddress sdk).map
        fun event => (objectKey token (event.getFromAddress sdk), (⟨0, version⟩ : Holding))) =
      [] := by
    refine proj_eq_nil ?_
    intro hmem
    obtain ⟨entry, hentry, hkey⟩ := List.mem_map.mp hmem
    obtain ⟨event, hevent, rfl⟩ := List.mem_map.mp hentry
    obtain ⟨hin, hto⟩ := List.mem_filter.mp hevent
    have hfrom : event.getFromAddress sdk = address := objectKey_injective hkey
    exact absurd ((h event hin hfrom).trans hfrom.symm) (of_decide_eq_true hto)
  unfold writtenHoldings
  rw [← List.singleton_append, proj_append, hnone, List.append_nil]
  by_cases howner : core.getOwnerAddress sdk.toSdk = address
  · rw [if_pos howner, howner, proj_singleton_self]
  · rw [if_neg howner, proj_singleton_ne]
    intro hkey
    exact howner (objectKey_injective hkey)

/-- **The rows of a chain of transfers.** A transaction writes the token with its
core and has a chain of transfers for it. The rows are right exactly if no transfer
is from the final owner to another address. An id of a V1 token is a hash and not
the address of an object. -/
theorem ownersRight_iff (sdk : TokenSdk) (ctx : ParseContext) (token : String)
    {before after : ParseState} {txn : Protos.Transaction} {core : ObjectCore}
    (hparse : parseTransaction sdk ctx before txn = some after)
    (hwrites : writesToken sdk token txn = true)
    (hcore : lastCore sdk token (readChanges txn) = some core)
    (hchain : TransferChain sdk (core.getOwnerAddress sdk.toSdk) (tokenTransfers sdk token txn))
    (hv1 : NamesNoV1 sdk token txn) :
    OwnersRight sdk token (core.getOwnerAddress sdk.toSdk) (tokenTransfers sdk token txn)
        txn.txnVersion before after ↔
      ∀ event ∈ tokenTransfers sdk token txn,
        event.getFromAddress sdk = core.getOwnerAddress sdk.toSdk →
        event.getToAddress sdk = core.getOwnerAddress sdk.toSdk := by
  -- The row of an address is the last one written for it, if any is.
  have hafter (address : String) : after.holding .live (objectKey token address) =
      (proj (objectKey token address) (writtenHoldings sdk token core
        (tokenTransfers sdk token txn) txn.txnVersion)).getLast?.or
        (before.holding .live (objectKey token address)) := by
    rw [parseTransaction_live hparse hv1 (fun _ => Option.isSome_of_eq_some hcore) rfl,
      if_pos hwrites]
    unfold tokenObject objectHoldings
    rw [hcore]
    rfl
  constructor
  -- The rows of former owners are written after the owner's, so a transfer away from the
  -- owner would overwrite it with 0.
  · intro hright event hevent hfrom
    by_contra hto
    have hne : event.getToAddress sdk ≠ event.getFromAddress sdk := fun heq =>
      hto (heq.trans hfrom)
    have hzero := @getLast?_writtenHoldings_from sdk token core (tokenTransfers sdk token txn)
      txn.txnVersion event hevent hne
    rw [hfrom] at hzero
    have howner := hright.holds
    rw [hafter, hzero, Option.some_or] at howner
    exact zero_ne_one (congrArg Holding.amount (Option.some.inj howner))
  · intro hkeeps
    refine ⟨?_, ?_, ?_⟩
    · rw [hafter, proj_writtenHoldings_keeper hkeeps, if_pos rfl]
      rfl
    · intro event hevent hne
      obtain ⟨event', hevent', hfrom, hto⟩ := hchain.gave_away event hevent hne
      rw [hafter, ← hfrom, getLast?_writtenHoldings_from hevent' hto]
      rfl
    · intro address hne hsender
      rw [hafter, proj_writtenHoldings_keeper (fun event hevent hfrom =>
        absurd hfrom (hsender event hevent)), if_neg (Ne.symm hne)]
      rfl

/-- Data of a transfer from `0xb` back to `0xa`. -/
def returnData : String := "\x7b\"from\":\"0xb\",\"to\":\"0xa\",\"object\":\"0x7\"\x7d"

/-- `lifeSdk`, with that text too. -/
def returnSdk : TokenSdk :=
  { lifeSdk with
    fromStr := fun text =>
      if text = returnData then some (.object
        [("from", .string "0xb"), ("to", .string "0xa"), ("object", .string "0x7")])
      else tokenTexts.lookup text }

/-- The token is written with an owner, after transfers. -/
def chainTxn (owner : String) (transfers : List String) : Protos.Transaction :=
  lifeTxn 5 (tokenChanges owner) (transfers.map fun data =>
    ⟨some ⟨"0x7"⟩, "0x1::object::TransferEvent", data⟩)

/-- `0xa` gives the token to `0xb`. -/
theorem ownersRight_given :
    ∃ after, parseTransaction returnSdk emptyContext .init (chainTxn "0xb" [transferData]) =
        some after ∧
      OwnersRight returnSdk tokenAddress bAddress
        (tokenTransfers returnSdk tokenAddress (chainTxn "0xb" [transferData])) 5 .init after := by
  have hparse : (parseTransaction returnSdk emptyContext .init
      (chainTxn "0xb" [transferData])).isSome := by
    decide +kernel
  have howner : (lastCore returnSdk tokenAddress (readChanges (chainTxn "0xb" [transferData]))).map
      (·.getOwnerAddress returnSdk.toSdk) = some bAddress := by
    decide +kernel
  obtain ⟨after, hafter⟩ := Option.isSome_iff_exists.mp hparse
  obtain ⟨core, hcore, howner⟩ := Option.map_eq_some_iff.mp howner
  have hright := ownersRight_iff returnSdk emptyContext tokenAddress hafter (by decide +kernel)
    hcore (by rw [howner]; decide +kernel) (by decide +kernel)
  rw [howner] at hright
  exact ⟨after, hafter, hright.mpr (by decide +kernel)⟩

/-- It goes from `0xa` to `0xb` and back: the row of `0xa`, who owns it, is of
amount 0. -/
theorem owner_of_round_trip_has_nothing :
    TransferChain returnSdk aAddress (tokenTransfers returnSdk tokenAddress
      (chainTxn "0xa" [transferData, returnData])) ∧
    ∃ after, parseTransaction returnSdk emptyContext .init
        (chainTxn "0xa" [transferData, returnData]) = some after ∧
      after.holding .live (objectKey tokenAddress aAddress) = some ⟨0, 5⟩ ∧
      ¬ OwnersRight returnSdk tokenAddress aAddress (tokenTransfers returnSdk tokenAddress
        (chainTxn "0xa" [transferData, returnData])) 5 .init after := by
  have hzero : (parseTransaction returnSdk emptyContext .init
      (chainTxn "0xa" [transferData, returnData])).map
        (·.holding .live (objectKey tokenAddress aAddress)) = some (some ⟨0, 5⟩) := by
    decide +kernel
  obtain ⟨after, hafter, hrow⟩ := Option.map_eq_some_iff.mp hzero
  refine ⟨by decide +kernel, after, hafter, hrow, ?_⟩
  intro hright
  exact zero_ne_one (congrArg Holding.amount (Option.some.inj (hrow.symm.trans hright.holds)))

end IndexerProcessors.TokenV2

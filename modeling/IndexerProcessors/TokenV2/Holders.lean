import IndexerProcessors.TokenV2.Ownerships

/-!
# Who holds a token

The holder of a token is the owner in the core of its last write, or nobody after
a burn. `held_parseV2Token` says what the maps of a batch have of a token, if its
transactions are as the chain makes them and a burn finds the holder (`Settled`):
who had the token and does not any more has a row without amount, newer than any
with one.
-/

namespace IndexerProcessors.TokenV2

open IndexerProcessors.Lib
open IndexerProcessors.Protos

variable {sdk : TokenSdk} {token : String}

/-! ## The holder -/

/-- Who holds a token after a transaction. -/
def holderAfter (sdk : TokenSdk) (token : String) (holder : Option String)
    (txn : Protos.Transaction) : Option String :=
  match tokenOp sdk token txn with
  | some .write => objectOwner sdk (tokenObject sdk token txn)
  | some .burn => none
  | none => holder

/-- Who holds a token after some transactions. -/
def holder (sdk : TokenSdk) (token : String) (txns : List Protos.Transaction) : Option String :=
  txns.foldl (holderAfter sdk token) none

theorem holder_concat (txns : List Protos.Transaction) (txn : Protos.Transaction) :
    holder sdk token (txns ++ [txn]) = holderAfter sdk token (holder sdk token txns) txn := by
  unfold holder
  rw [List.foldl_append]
  rfl

/-- After a burn nobody does. -/
theorem holder_of_lastOp_burn {txns : List Protos.Transaction}
    (h : lastOp sdk token txns = some .burn) : holder sdk token txns = none := by
  induction txns using List.reverseRecOn with
  | nil => rfl
  | append_singleton txns txn ih =>
    rw [lastOp_concat] at h
    rw [holder_concat]
    unfold holderAfter
    cases hop : tokenOp sdk token txn with
    | none =>
      rw [hop, Option.none_or] at h
      exact ih h
    | some op =>
      rw [hop, Option.some_or] at h
      obtain rfl := Option.some.inj h
      rfl

/-- What a batch has to be like for the burns of a token to find its holder.
`before` is what was extracted before the batch, `fresh owner` says that the
database would answer with that owner. -/
structure Settled (sdk : TokenSdk) (token : String) (before : List Protos.Transaction)
    (fresh : String → Prop) (batch : List Protos.Transaction) : Prop where
  /-- The address is not the identifier of a V1 token. -/
  object : ∀ txn ∈ batch, NamesNoV1 sdk token txn
  /-- The token is written with its object core. -/
  core : ∀ txn ∈ batch, writesToken sdk token txn = true →
    (lastCore sdk token (readChanges txn)).isSome
  /-- No transaction burns the token and writes it. -/
  apart : ∀ txn ∈ batch, ¬ (writesToken sdk token txn = true ∧ burnsToken sdk token txn = true)
  /-- A holder who has the token no more after a write has given it away. -/
  transferred : ∀ done txn owner, (done ++ [txn]) <+: batch →
    writesToken sdk token txn = true → holder sdk token (before ++ done) = some owner →
    holder sdk token (before ++ done ++ [txn]) ≠ some owner →
    ∃ event ∈ tokenTransfers sdk token txn, event.getFromAddress sdk = owner ∧
      event.getToAddress sdk ≠ event.getFromAddress sdk
  /-- A burn changes something at the address, where no core names another owner. -/
  changed : ∀ done txn owner, (done ++ [txn]) <+: batch → burnsToken sdk token txn = true →
    holder sdk token (before ++ done) = some owner →
    changesToken sdk token txn = true ∧ ∀ change ∈ readChanges txn, ∀ core,
      coreOf sdk token change = some core → core.getOwnerAddress sdk.toSdk = owner
  /-- The burn's event names the holder, or it names nobody and the holder is known
  from the batch or from the database. -/
  named : ∀ done txn owner burn, (done ++ [txn]) <+: batch →
    lastBurn sdk token (readEvents txn) = some burn →
    holder sdk token (before ++ done) = some owner →
    burn.getPreviousOwnerAddress sdk = some owner ∨
      (burn.getPreviousOwnerAddress sdk = none ∧
        (lastOp sdk token done ≠ none ∨ fresh owner))

/-! ## The maps of a batch -/

/-- The rows of a token in the maps are keyed by their owners and stem from the
transactions done; the burned ones have no amount. -/
structure RowsOf (token : String) (done : List Protos.Transaction) (st : ParseState) : Prop where
  keys : ∀ kind key e, key.1 = token → st.holding kind key = some e →
    key = objectKey token key.2.2.1
  versions : ∀ kind key e, key.1 = token → st.holding kind key = some e →
    ∃ txn ∈ done, txn.txnVersion = e.version
  deleted : ∀ key e, key.1 = token → st.holding .deleted key = some e → e.amount = 0

theorem rowsOf_concat {done : List Protos.Transaction} {txn : Protos.Transaction}
    {st st' : ParseState} (h : RowsOf token done st)
    (hrows : ∀ kind key e, key.1 = token → st'.holding kind key = some e →
      st.holding kind key = some e ∨ (key = objectKey token key.2.2.1 ∧
        e.version = txn.txnVersion ∧ (kind = .deleted → e.amount = 0))) :
    RowsOf token (done ++ [txn]) st' := by
  refine ⟨?_, ?_, ?_⟩
  · intro kind key e hkey he
    rcases hrows kind key e hkey he with hold | hnew
    · exact h.keys kind key e hkey hold
    · exact hnew.1
  · intro kind key e hkey he
    rcases hrows kind key e hkey he with hold | hnew
    · obtain ⟨t, ht, htv⟩ := h.versions kind key e hkey hold
      exact ⟨t, List.mem_append_left _ ht, htv⟩
    · exact ⟨txn, List.mem_append_right _ (List.mem_singleton.mpr rfl), hnew.2.1.symm⟩
  · intro key e hkey he
    rcases hrows .deleted key e hkey he with hold | hnew
    · exact h.deleted key e hkey hold
    · exact hnew.2.2 rfl

/-- What the maps hold of a token after a part of a batch. -/
structure Held (sdk : TokenSdk) (token : String) (before done : List Protos.Transaction)
    (st : ParseState) : Prop where
  rows : RowsOf token done st
  /-- Amounts of those who are not the holder are out of date. -/
  live : ∀ owner e, st.holding .live (objectKey token owner) = some e → 0 < e.amount →
    holder sdk token (before ++ done) ≠ some owner →
    ∃ d, st.holding .deleted (objectKey token owner) = some d ∧ e.version < d.version
  /-- Who was the holder before and is not any more has a row. -/
  left : ∀ owner, holder sdk token before = some owner →
    holder sdk token (before ++ done) ≠ some owner →
    ∃ kind e, st.holding kind (objectKey token owner) = some e
  seen : lastOp sdk token done ≠ none → ∀ owner,
    holder sdk token (before ++ done) = some owner →
    st.priorNftOwnership.lookup token = some owner
  unseen : lastOp sdk token done = none → st.priorNftOwnership.lookup token = none

section HeldConcat

variable {ctx : ParseContext} {before done batch : List Protos.Transaction} {st st' : ParseState}
  {txn : Protos.Transaction} {fresh : String → Prop}

/-- A write makes the owner of the token's core its holder, and its rows come before those
there were. -/
theorem live_of_write (hstep : parseTransaction sdk ctx st txn = some st')
    (hdone : (done ++ [txn]) <+: batch) (hsettled : Settled sdk token before fresh batch)
    (hwrites : writesToken sdk token txn = true) :
    ∃ core, tokenObject sdk token txn = some (core, tokenTransfers sdk token txn) ∧
      holder sdk token (before ++ (done ++ [txn])) = some (core.getOwnerAddress sdk.toSdk) ∧
      ∀ key, key.1 = token → st'.holding .live key =
        (proj key (writtenHoldings sdk token core (tokenTransfers sdk token txn)
          txn.txnVersion)).getLast?.or (st.holding .live key) := by
  have hmem : txn ∈ batch := mem_of_prefix_concat hdone
  obtain ⟨core, hcore⟩ := Option.isSome_iff_exists.mp (hsettled.core txn hmem hwrites)
  have hobject : tokenObject sdk token txn = some (core, tokenTransfers sdk token txn) := by
    unfold tokenObject
    rw [hcore]
    rfl
  refine ⟨core, hobject, ?_, ?_⟩
  · rw [← List.append_assoc, holder_concat]
    unfold holderAfter
    rw [tokenOp_of_writes hwrites, hobject]
    rfl
  · intro key hkey
    rw [parseTransaction_live hstep (hsettled.object txn hmem) (hsettled.core txn hmem) hkey,
      if_pos hwrites, hobject]
    rfl

/-- A write. -/
theorem held_write
    (hstd : ∀ s, sdk.standardizeAddress (sdk.standardizeAddress s) = sdk.standardizeAddress s)
    (hstep : parseTransaction sdk ctx st txn = some st') (h : Held sdk token before done st)
    (hdone : (done ++ [txn]) <+: batch) (hsettled : Settled sdk token before fresh batch)
    (hwrites : writesToken sdk token txn = true) :
    Held sdk token before (done ++ [txn]) st' := by
  have hmem : txn ∈ batch := mem_of_prefix_concat hdone
  have hburns : burnsToken sdk token txn = false := by
    cases hb : burnsToken sdk token txn with
    | false => rfl
    | true => exact absurd ⟨hwrites, hb⟩ (hsettled.apart txn hmem)
  obtain ⟨core, hobject, hholder, hlive⟩ := live_of_write hstep hdone hsettled hwrites
  have hop : lastOp sdk token (done ++ [txn]) = some .write := by
    rw [lastOp_concat, tokenOp_of_writes hwrites]
    rfl
  obtain ⟨hprior, hdeleted⟩ := parseTransaction_unburned hstd hstep (hsettled.object txn hmem)
    (hsettled.core txn hmem) hburns
  rw [if_pos hwrites, hobject] at hprior
  -- An existing row was there, or it is one of the write's.
  have hcases : ∀ key e, key.1 = token → st'.holding .live key = some e →
      st.holding .live key = some e ∨ (key, e) ∈ writtenHoldings sdk token core
        (tokenTransfers sdk token txn) txn.txnVersion := by
    intro key e hkey he
    rw [hlive key hkey] at he
    rcases Option.or_eq_some_iff.mp he with hnew | ⟨-, hold⟩
    · exact Or.inr (mem_proj.mp (List.mem_of_getLast? hnew))
    · exact Or.inl hold
  -- The former holder is among those who gave the token away.
  have hgave : ∀ owner, holder sdk token (before ++ done) = some owner →
      holder sdk token (before ++ (done ++ [txn])) ≠ some owner →
      st'.holding .live (objectKey token owner) = some ⟨0, txn.txnVersion⟩ := by
    intro owner howner hnot
    rw [← List.append_assoc] at hnot
    obtain ⟨event, hevent, rfl, hto⟩ :=
      hsettled.transferred done txn owner hdone hwrites howner hnot
    rw [hlive _ rfl, getLast?_writtenHoldings_from hevent hto]
    rfl
  refine ⟨rowsOf_concat h.rows ?_, ?_, ?_, ?_, ?_⟩
  · intro kind key e hkey he
    cases kind with
    | deleted => exact Or.inl ((hdeleted key hkey).symm.trans he)
    | live =>
      rcases hcases key e hkey he with hold | hnew
      · exact Or.inl hold
      · obtain ⟨hversion, hform, -⟩ := mem_writtenHoldings hnew
        exact Or.inr ⟨hform, hversion, fun hkind => by cases hkind⟩
  · intro owner e he hpos hnot
    by_cases howner : holder sdk token (before ++ done) = some owner
    · rw [hgave owner howner hnot] at he
      rw [← Option.some.inj he] at hpos
      exact absurd hpos (lt_irrefl 0)
    · rcases hcases _ e rfl he with hold | hnew
      · obtain ⟨d, hd, hlt⟩ := h.live owner e hold hpos howner
        exact ⟨d, (hdeleted _ rfl).trans hd, hlt⟩
      · have hkey := (mem_writtenHoldings hnew).2.2 hpos
        rw [hholder, objectKey_injective hkey] at hnot
        exact absurd rfl hnot
  · intro owner hbefore hnot
    by_cases howner : holder sdk token (before ++ done) = some owner
    · exact ⟨.live, _, hgave owner howner hnot⟩
    · obtain ⟨kind, e, he⟩ := h.left owner hbefore howner
      cases kind with
      | deleted => exact ⟨.deleted, e, (hdeleted _ rfl).trans he⟩
      | live =>
        refine ⟨.live, ?_⟩
        rw [hlive _ rfl, he]
        cases (proj (objectKey token owner) (writtenHoldings sdk token core
          (tokenTransfers sdk token txn) txn.txnVersion)).getLast? with
        | none => exact ⟨e, rfl⟩
        | some e' => exact ⟨e', rfl⟩
  · intro _ owner howner
    rw [hholder] at howner
    rw [hprior, ← howner]
    rfl
  · intro hnone
    rw [hop] at hnone
    cases hnone

/-- A burn is booked on the holder: the event names it, or a row of the batch does, or the
database. -/
theorem burn_booked_on_holder
    (hstd : ∀ s, sdk.standardizeAddress (sdk.standardizeAddress s) = sdk.standardizeAddress s)
    (hstep : parseTransaction sdk ctx st txn = some st') (h : Held sdk token before done st)
    (hdone : (done ++ [txn]) <+: batch) (hsettled : Settled sdk token before fresh batch)
    (hfresh : ∀ owner, fresh owner → ∀ version index,
      ctx.ownerLookup version index token = some owner)
    (hwrites : writesToken sdk token txn = false) (hburns : burnsToken sdk token txn = true)
    {owner : String} (howner : holder sdk token (before ++ done) = some owner) :
    st'.holding .deleted (objectKey token owner) = some ⟨0, txn.txnVersion⟩ := by
  have hv1 := hsettled.object txn (mem_of_prefix_concat hdone)
  obtain ⟨burn, hburn⟩ := Option.isSome_iff_exists.mp hburns
  obtain ⟨hchanges, hcores⟩ := hsettled.changed done txn owner hdone hburns howner
  refine parseTransaction_burned_owner hstd hstep hv1 hwrites hburn hchanges hcores ?_
  intro index
  unfold burnedOwner
  dsimp only
  rcases hsettled.named done txn owner burn hdone hburn howner with hprev | ⟨hprev, hsource⟩
  · rw [hprev]
    rfl
  · rw [hprev, Option.getD_none]
    cases hdoneOp : lastOp sdk token done with
    | some op =>
      rw [h.seen (by rw [hdoneOp]; exact Option.some_ne_none op) owner howner]
      rfl
    | none =>
      rw [h.unseen hdoneOp, hfresh owner (hsource.resolve_left (not_not.mpr hdoneOp))]
      rfl

/-- A burn. -/
theorem held_burn
    (hstd : ∀ s, sdk.standardizeAddress (sdk.standardizeAddress s) = sdk.standardizeAddress s)
    (hstep : parseTransaction sdk ctx st txn = some st') (h : Held sdk token before done st)
    (hdone : (done ++ [txn]) <+: batch) (hsettled : Settled sdk token before fresh batch)
    (hlater : ∀ t ∈ done, t.txnVersion < txn.txnVersion)
    (hfresh : ∀ owner, fresh owner → ∀ version index,
      ctx.ownerLookup version index token = some owner)
    (hwrites : writesToken sdk token txn = false) (hburns : burnsToken sdk token txn = true) :
    Held sdk token before (done ++ [txn]) st' := by
  have hmem : txn ∈ batch := mem_of_prefix_concat hdone
  have hv1 := hsettled.object txn hmem
  have hopTxn := tokenOp_of_burns hwrites hburns
  have hholder : holder sdk token (before ++ (done ++ [txn])) = none := by
    rw [← List.append_assoc, holder_concat]
    unfold holderAfter
    rw [hopTxn]
  have hop : lastOp sdk token (done ++ [txn]) = some .burn := by
    rw [lastOp_concat, hopTxn]
    rfl
  -- Live rows stay; of the deleted ones only that of the holder is new.
  have hlive : ∀ key, key.1 = token → st'.holding .live key = st.holding .live key := by
    intro key hkey
    rw [parseTransaction_live hstep hv1 (hsettled.core txn hmem) hkey, if_neg (by simp [hwrites])]
  have hrows : ∀ key : CurrentTokenOwnershipV2PK, key.1 = token →
      st'.holding .deleted key = st.holding .deleted key ∨
        (key = objectKey token key.2.2.1 ∧ st'.holding .deleted key = some ⟨0, txn.txnVersion⟩) :=
    fun key hkey => parseTransaction_burned_rows hstd hstep hv1 hwrites hburns hkey
  have hbooked : ∀ owner, holder sdk token (before ++ done) = some owner →
      st'.holding .deleted (objectKey token owner) = some ⟨0, txn.txnVersion⟩ :=
    fun owner howner =>
      burn_booked_on_holder hstd hstep h hdone hsettled hfresh hwrites hburns howner
  refine ⟨rowsOf_concat h.rows ?_, ?_, ?_, ?_, ?_⟩
  · intro kind key e hkey he
    cases kind with
    | live => exact Or.inl ((hlive key hkey).symm.trans he)
    | deleted =>
      rcases hrows key hkey with hold | ⟨hform, hnew⟩
      · exact Or.inl (hold.symm.trans he)
      · obtain rfl := Option.some.inj (he.symm.trans hnew)
        exact Or.inr ⟨hform, rfl, fun _ => rfl⟩
  -- Every older live row is now below a deleted one, whoever it is of.
  · intro owner e he hpos _
    rw [hlive _ rfl] at he
    have hnewer : e.version < txn.txnVersion := by
      obtain ⟨t, ht, htv⟩ := h.rows.versions .live _ e rfl he
      rw [← htv]
      exact hlater t ht
    by_cases howner : holder sdk token (before ++ done) = some owner
    · exact ⟨_, hbooked owner howner, hnewer⟩
    · obtain ⟨d, hd, hlt⟩ := h.live owner e he hpos howner
      rcases hrows (objectKey token owner) rfl with hold | ⟨-, hnew⟩
      · exact ⟨d, hold.trans hd, hlt⟩
      · exact ⟨_, hnew, hnewer⟩
  · intro owner hbefore _
    by_cases howner : holder sdk token (before ++ done) = some owner
    · exact ⟨.deleted, _, hbooked owner howner⟩
    · obtain ⟨kind, e, he⟩ := h.left owner hbefore howner
      cases kind with
      | live => exact ⟨.live, e, (hlive _ rfl).trans he⟩
      | deleted =>
        rcases hrows (objectKey token owner) rfl with hold | ⟨-, hnew⟩
        · exact ⟨.deleted, e, hold.trans he⟩
        · exact ⟨.deleted, _, hnew⟩
  · intro _ owner howner
    rw [hholder] at howner
    cases howner
  · intro hnone
    rw [hop] at hnone
    cases hnone

/-- No operation on the token. -/
theorem held_none
    (hstd : ∀ s, sdk.standardizeAddress (sdk.standardizeAddress s) = sdk.standardizeAddress s)
    (hstep : parseTransaction sdk ctx st txn = some st') (h : Held sdk token before done st)
    (hv1 : NamesNoV1 sdk token txn) (hwrites : writesToken sdk token txn = false)
    (hburns : burnsToken sdk token txn = false) :
    Held sdk token before (done ++ [txn]) st' := by
  have hcore : writesToken sdk token txn = true →
      (lastCore sdk token (readChanges txn)).isSome := fun hw => by
    rw [hwrites] at hw
    cases hw
  have hopTxn := tokenOp_of_neither hwrites hburns
  have hholder : holder sdk token (before ++ (done ++ [txn])) =
      holder sdk token (before ++ done) := by
    rw [← List.append_assoc, holder_concat]
    unfold holderAfter
    rw [hopTxn]
  have hop : lastOp sdk token (done ++ [txn]) = lastOp sdk token done := by
    rw [lastOp_concat, hopTxn, Option.none_or]
  obtain ⟨hprior, hdeleted⟩ := parseTransaction_unburned hstd hstep hv1 hcore hburns
  rw [if_neg (by simp [hwrites])] at hprior
  -- All rows of the token stay, so each part carries over.
  have hkeep : ∀ kind key, key.1 = token → st'.holding kind key = st.holding kind key := by
    intro kind key hkey
    cases kind with
    | live => rw [parseTransaction_live hstep hv1 hcore hkey, if_neg (by simp [hwrites])]
    | deleted => exact hdeleted key hkey
  refine ⟨rowsOf_concat h.rows ?_, ?_, ?_, ?_, ?_⟩
  · intro kind key e hkey he
    exact Or.inl ((hkeep kind key hkey).symm.trans he)
  · intro owner e he hpos hnot
    rw [hkeep .live _ rfl] at he
    rw [hkeep .deleted _ rfl]
    exact h.live owner e he hpos (hholder ▸ hnot)
  · intro owner hbefore hnot
    obtain ⟨kind, e, he⟩ := h.left owner hbefore (hholder ▸ hnot)
    exact ⟨kind, e, (hkeep kind _ rfl).trans he⟩
  · intro hsome owner howner
    rw [hop] at hsome
    rw [hholder] at howner
    exact hprior.trans (h.seen hsome owner howner)
  · intro hnone
    rw [hop] at hnone
    exact hprior.trans (h.unseen hnone)

end HeldConcat

/-- A whole batch. -/
theorem held_parseV2Token
    (hstd : ∀ s, sdk.standardizeAddress (sdk.standardizeAddress s) = sdk.standardizeAddress s)
    {ctx : ParseContext} {before batch : List Protos.Transaction} {rows : ParseState}
    {fresh : String → Prop} (hrows : parseV2Token sdk ctx batch = some rows)
    (hord : InOrder batch) (hsettled : Settled sdk token before fresh batch)
    (hfresh : ∀ owner, fresh owner → ∀ version index,
      ctx.ownerLookup version index token = some owner) :
    Held sdk token before batch rows := by
  refine foldlM_prefix (P := Held sdk token before) hrows ?_ ?_
  · have hnone : ∀ kind key, ParseState.init.holding kind key = none := by
      intro kind key
      cases kind <;> rfl
    refine ⟨⟨?_, ?_, ?_⟩, ?_, ?_, ?_, ?_⟩
    · intro kind key e _ he
      cases (hnone kind key).symm.trans he
    · intro kind key e _ he
      cases (hnone kind key).symm.trans he
    · intro key e _ he
      cases (hnone .deleted key).symm.trans he
    · intro owner e he
      cases (hnone .live _).symm.trans he
    · intro owner hbefore hnot
      rw [List.append_nil] at hnot
      exact absurd hbefore hnot
    · intro hsome
      exact absurd rfl hsome
    · intro _
      rfl
  · intro done txn st st' hdone hst hstep
    have hv1 := hsettled.object txn (mem_of_prefix_concat hdone)
    have hlater := hord.lt_of_prefix_concat hdone
    cases hwrites : writesToken sdk token txn with
    | true => exact held_write hstd hstep hst hdone hsettled hwrites
    | false =>
      cases hburns : burnsToken sdk token txn with
      | true => exact held_burn hstd hstep hst hdone hsettled hlater hfresh hwrites hburns
      | false => exact held_none hstd hstep hst hv1 hwrites hburns

end IndexerProcessors.TokenV2

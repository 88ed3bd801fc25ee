import IndexerProcessors.TokenV2.History

/-!
# The flags of ownership rows

A row of an object token says whether its owner may transfer it, which is a flag of the
object core, and whether it is soulbound: not transferable by the owner, or untransferable at
all. The row of the owner, those of former owners and that of a burned token whose core is
still written each set the two flags on their own.

`soulbound_flags_iff` — the rows of a batch agree with the objects exactly if no transferred
object is untransferable and yet open to transfers, and every burned object whose core is
written is untransferable or closed to transfers.
-/

namespace IndexerProcessors.TokenV2

open IndexerProcessors.Lib
open IndexerProcessors.Protos

variable {sdk : TokenSdk}

/-! ## Objects -/

/-- An object as the write sets and the events show it. -/
structure ObjectView where
  core : ObjectCore
  untransferable : Bool
  transfers : List TransferEvent

def view (metadata : ObjectAggregatedDataMapping) (address : String) : Option ObjectView :=
  (metadata.lookup address).map fun data =>
    ⟨data.objectCore, data.untransferable, data.transferEvents⟩

/-- A change writes the resource that makes the object untransferable. -/
def writesUntransferable (sdk : TokenSdk) (address : String) : Protos.Change → Bool
  | .writeResource wr _ =>
    getOuterTypeFromWriteResource sdk.toSdk wr = typeUntransferable ∧
      sdk.standardizeAddress wr.address = address
  | _ => false

/-- The object after a transaction: a core that is written starts it anew. -/
def objectAfter (sdk : TokenSdk) (address : String) (object : Option ObjectView)
    (txn : Protos.Transaction) : Option ObjectView :=
  (((lastCore sdk address (readChanges txn)).map fun core => ⟨core, false, []⟩).or object).map
    fun object =>
      { object with
        untransferable := object.untransferable ||
          (readChanges txn).any (writesUntransferable sdk address)
        transfers := object.transfers ++ (readEvents txn).flatMap (transfersOf sdk address) }

/-- The object after the transactions of a batch. -/
def objectOf (sdk : TokenSdk) (txns : List Protos.Transaction) (address : String) :
    Option ObjectView :=
  txns.foldl (objectAfter sdk address) none

/-! ### What is known -/

/-- Whether a known object is untransferable. -/
def flagged (metadata : ObjectAggregatedDataMapping) (address : String) : Option Bool :=
  (metadata.lookup address).map (·.untransferable)

theorem insertObject_flagged {metadata metadata' : ObjectAggregatedDataMapping}
    {change : Protos.Change} (h : insertObject sdk metadata change = some metadata')
    (address : String) :
    flagged metadata' address =
      ((coreOf sdk address change).map fun _ => false).or (flagged metadata address) := by
  cases change with
  | writeResource wr params =>
    obtain ⟨object, hobject, rfl⟩ := Option.map_eq_some_iff.mp h
    simp only [coreOf, hobject]
    by_cases heq : sdk.standardizeAddress wr.address = address
    · rw [if_pos heq]
      cases object with
      | none => rfl
      | some core =>
        unfold flagged
        rw [← heq, AList.lookup_insert]
        rfl
    · rw [if_neg heq]
      cases object with
      | none => rfl
      | some core =>
        unfold flagged
        rw [AList.lookup_insert_ne (Ne.symm heq)]
        rfl
  | deleteResource | writeTableItem | deleteTableItem | other =>
    obtain rfl := Option.some.inj h
    rfl

theorem aggregate_untransferable {wr : WriteResource} {data data' : ObjectAggregatedData}
    (h : aggregate sdk wr data = some data') :
    data'.untransferable = (data.untransferable ||
      decide (getOuterTypeFromWriteResource sdk.toSdk wr = typeUntransferable)) := by
  unfold aggregate at h
  obtain ⟨propertyMap, -, h⟩ := Option.bind_eq_some_iff.mp h
  obtain ⟨tokenIdentifier, -, h⟩ := Option.bind_eq_some_iff.mp h
  obtain ⟨untransferable, hresource, h⟩ := Option.bind_eq_some_iff.mp h
  obtain ⟨fungible, -, h⟩ := Option.bind_eq_some_iff.mp h
  obtain rfl := Option.some.inj h
  dsimp only
  rw [Bool.or_comm]
  congr 1
  unfold fromWriteResource at hresource
  split at hresource
  next htype =>
    obtain ⟨flag, -, rfl⟩ := Option.map_eq_some_iff.mp hresource
    rw [htype]
    rfl
  next htype =>
    obtain rfl := Option.some.inj hresource
    rw [decide_eq_false htype]
    rfl

theorem fillMetadata_flagged {metadata metadata' : ObjectAggregatedDataMapping}
    {change : Protos.Change} (h : fillMetadata sdk metadata change = some metadata')
    (address : String) :
    flagged metadata' address =
      (flagged metadata address).map (· || writesUntransferable sdk address change) := by
  unfold fillMetadata at h
  split at h
  next wr params =>
    dsimp only at h
    by_cases heq : sdk.standardizeAddress wr.address = address
    -- The resource is at the address: the flag is set if the type is right, and an object that
    -- is not known stays unknown.
    · subst heq
      have hwrites : writesUntransferable sdk (sdk.standardizeAddress wr.address)
          (.writeResource wr params) =
            decide (getOuterTypeFromWriteResource sdk.toSdk wr = typeUntransferable) := by
        simp [writesUntransferable]
      rw [hwrites]
      split at h
      next data hdata =>
        obtain ⟨data', hdata', rfl⟩ := Option.map_eq_some_iff.mp h
        unfold flagged
        rw [AList.lookup_insert, hdata, Option.map_some, Option.map_some, Option.map_some,
          aggregate_untransferable hdata']
      next hdata =>
        obtain rfl := Option.some.inj h
        unfold flagged
        rw [hdata]
        rfl
    · have hwrites : writesUntransferable sdk address (.writeResource wr params) = false := by
        simp [writesUntransferable, heq]
      have hsame : metadata'.lookup address = metadata.lookup address := by
        split at h
        next data hdata =>
          obtain ⟨data', hdata', rfl⟩ := Option.map_eq_some_iff.mp h
          exact AList.lookup_insert_ne (Ne.symm heq)
        next => rw [Option.some.inj h]
      unfold flagged
      rw [hwrites, hsame]
      simp [Function.comp_def]
  next hother =>
    obtain rfl := Option.some.inj h
    have hwrites : writesUntransferable sdk address change = false := by
      cases change with
      | writeResource wr params => exact absurd rfl (hother wr params)
      | deleteResource | writeTableItem | deleteTableItem | other => rfl
    rw [hwrites]
    simp

/-- Loops 1 and 2. -/
theorem objectsOf_flagged {metadata metadata' : ObjectAggregatedDataMapping}
    {changes : List Protos.Change} (h : objectsOf sdk metadata changes = some metadata')
    (address : String) :
    flagged metadata' address =
      (((lastCore sdk address changes).map fun _ => false).or (flagged metadata address)).map
        (· || changes.any (writesUntransferable sdk address)) := by
  unfold objectsOf at h
  obtain ⟨inserted, hinserted, hfilled⟩ := Option.bind_eq_some_iff.mp h
  have hfirst : flagged inserted address =
      ((lastCore sdk address changes).map fun _ => false).or (flagged metadata address) := by
    refine foldlM_prefix (P := fun done m => flagged m address =
      ((lastCore sdk address done).map fun _ => false).or (flagged metadata address))
      hinserted rfl ?_
    intro done change m m' _ hm hstep
    rw [insertObject_flagged hstep, hm, lastCore_concat]
    cases coreOf sdk address change with
    | none => rfl
    | some core => rfl
  rw [← hfirst]
  refine foldlM_prefix (P := fun done m => flagged m address =
    (flagged inserted address).map (· || done.any (writesUntransferable sdk address)))
    hfilled (by simp) ?_
  intro done change m m' _ hm hstep
  rw [fillMetadata_flagged hstep, hm, Option.map_map, List.any_append]
  simp [Function.comp_def, Bool.or_assoc]

theorem recordEvent_flagged {st st' : EventState} {event : Protos.Event}
    (h : recordEvent sdk st event = some st') (address : String) :
    flagged st'.metadata address = flagged st.metadata address := by
  unfold recordEvent at h
  obtain ⟨tokenEvent, -, h⟩ := Option.bind_eq_some_iff.mp h
  split at h
  next inner =>
    obtain rfl := Option.some.inj h
    rfl
  next index token =>
    obtain ⟨key, -, h⟩ := Option.bind_eq_some_iff.mp h
    obtain rfl := Option.some.inj h
    rfl
  next inner =>
    split at h
    next data hdata =>
      obtain rfl := Option.some.inj h
      unfold flagged
      by_cases heq : inner.getObjectAddress sdk = address
      · rw [← heq, AList.lookup_insert, hdata]
        rfl
      · rw [AList.lookup_insert_ne (Ne.symm heq)]
    next =>
      obtain rfl := Option.some.inj h
      rfl
  next =>
    obtain rfl := Option.some.inj h
    rfl

/-- A view is what is known and the flag. -/
theorem view_eq (metadata : ObjectAggregatedDataMapping) (address : String) :
    view metadata address = (known metadata address).bind fun object =>
      (flagged metadata address).map fun untransferable =>
        ⟨object.1, untransferable, object.2⟩ := by
  unfold view known flagged
  cases metadata.lookup address with
  | none => rfl
  | some data => rfl

/-- **Loops 1 to 3** turn the view of an object before the transaction into that after it. -/
theorem parseEvents_view {txn : Protos.Transaction} {txnTimestamp : NaiveDateTime}
    {request : UserTransactionRequest} {st : ParseState} {ev : EventState}
    (h : parseEvents sdk txn.txnVersion txnTimestamp request (readChanges txn) (readEvents txn)
      st = some ev) (address : String) :
    view ev.metadata address =
      objectAfter sdk address (view st.tokenV2MetadataHelper address) txn := by
  have hflagged : flagged ev.metadata address =
      (((lastCore sdk address (readChanges txn)).map fun _ => false).or
        (flagged st.tokenV2MetadataHelper address)).map
          (· || (readChanges txn).any (writesUntransferable sdk address)) := by
    unfold parseEvents at h
    obtain ⟨metadata, hmetadata, hfold⟩ := Option.bind_eq_some_iff.mp h
    rw [← objectsOf_flagged hmetadata]
    refine foldlM_invariant (P := fun s : EventState =>
      flagged s.metadata address = flagged metadata address) hfold rfl ?_
    intro event _ s s' hs hstep
    obtain ⟨s₁, v1, v2, hs₁, -, -, hm, -, -⟩ := parseEvent_cases hstep
    rw [hm, recordEvent_flagged hs₁, hs]
  rw [view_eq, view_eq, hflagged, parseEvents_known h]
  unfold objectAfter
  cases lastCore sdk address (readChanges txn) with
  | some core => rfl
  | none =>
    unfold known flagged
    cases st.tokenV2MetadataHelper.lookup address with
    | none => rfl
    | some data => rfl

/-! ## Flags -/

def TokenOwnershipV2.setsFlags (row : TokenOwnershipV2) : Bool :=
  row.isSoulboundV2.isSome || row.nonTransferrableByOwner.isSome

/-- The flags of a row are those of an object. -/
structure RightFlags (object : ObjectView) (row : TokenOwnershipV2) : Prop where
  nonTransferrable : row.nonTransferrableByOwner = some !object.core.allowUngatedTransfer
  soulbound : row.isSoulboundV2 =
    some (object.untransferable || !object.core.allowUngatedTransfer)

/-- If a row sets the flags, they are those of the object it is about. -/
def FlagsAgree (objects : String → Option ObjectView) (row : TokenOwnershipV2) : Prop :=
  row.setsFlags = true →
    ∃ object, objects row.tokenDataId = some object ∧ RightFlags object row

/-- The object has been transferred from one address to another. -/
def ObjectView.changedHands (sdk : TokenSdk) (object : ObjectView) : Bool :=
  object.transfers.any fun event => event.getToAddress sdk ≠ event.getFromAddress sdk

/-- A transferred token is not untransferable and yet open to transfers. -/
def TransferAgrees (sdk : TokenSdk) (objects : String → Option ObjectView) (wr : WriteResource) :
    Prop :=
  getOuterTypeFromWriteResource sdk.toSdk wr = typeTokenV2 →
    ∀ object ∈ objects (sdk.standardizeAddress wr.address), object.changedHands sdk = true →
      ¬ (object.untransferable = true ∧ object.core.allowUngatedTransfer = true)

/-- A core written for a burned token is that of the object, which is untransferable or closed
to transfers. -/
def BurnAgrees (sdk : TokenSdk) (objects : String → Option ObjectView) (burned : String → Bool)
    (wr : WriteResource) : Prop :=
  burned (sdk.standardizeAddress (sdk.standardizeAddress wr.address)) = true →
    ∀ core ∈ (objectCoreFromWriteResource sdk.toSdk wr).join,
      ∀ object ∈ objects (sdk.standardizeAddress wr.address),
        core.allowUngatedTransfer = object.core.allowUngatedTransfer ∧
          (object.untransferable = true ∨ core.allowUngatedTransfer = false)

/-- What a change has to be like for its rows to have the right flags. -/
def ChangeAgrees (sdk : TokenSdk) (objects : String → Option ObjectView)
    (burned : String → Bool) : Protos.Change → Prop
  | .writeResource wr _ => TransferAgrees sdk objects wr ∧ BurnAgrees sdk objects burned wr
  | _ => True

instance (objects : String → Option ObjectView) (wr : WriteResource) :
    Decidable (TransferAgrees sdk objects wr) :=
  inferInstanceAs (Decidable (_ = _ → ∀ object ∈ objects _, _ = true → ¬ (_ = true ∧ _ = true)))

instance (objects : String → Option ObjectView) (burned : String → Bool) (wr : WriteResource) :
    Decidable (BurnAgrees sdk objects burned wr) :=
  inferInstanceAs (Decidable (burned _ = true → ∀ core ∈ Option.join _,
    ∀ object ∈ objects _, _ = _ ∧ (_ = true ∨ _ = false)))

instance (objects : String → Option ObjectView) (burned : String → Bool) :
    DecidablePred (ChangeAgrees sdk objects burned)
  | .writeResource _ _ => inferInstanceAs (Decidable (_ ∧ _))
  | .deleteResource .. | .writeTableItem _ | .deleteTableItem _ | .other =>
    inferInstanceAs (Decidable True)

/-- The index has no part in it. -/
theorem flagsAgree_unindexed {objects : String → Option ObjectView} {row : TokenOwnershipV2} :
    FlagsAgree objects row.unindexed ↔ FlagsAgree objects row := by
  refine forall_congr' fun _ => exists_congr fun object => and_congr_right fun _ => ?_
  exact ⟨fun h => ⟨h.nonTransferrable, h.soulbound⟩, fun h => ⟨h.nonTransferrable, h.soulbound⟩⟩

theorem forall_flagsAgree_unindexed {objects : String → Option ObjectView}
    {rows : List TokenOwnershipV2} :
    (∀ row ∈ rows.map (·.unindexed), FlagsAgree objects row) ↔
      ∀ row ∈ rows, FlagsAgree objects row := by
  rw [List.forall_mem_map]
  exact forall₂_congr fun _ _ => flagsAgree_unindexed

theorem flagsAgree_of_none {objects : String → Option ObjectView} {row : TokenOwnershipV2}
    (hsoulbound : row.isSoulboundV2 = none) (hby : row.nonTransferrableByOwner = none) :
    FlagsAgree objects row := by
  intro h
  unfold TokenOwnershipV2.setsFlags at h
  rw [hsoulbound, hby] at h
  cases h

/-- The rows of a written token: the owner's is right, those of former owners have the one
flag for both. -/
theorem tokenRows_agree_iff {ctx : ChangeContext} {transfers : IndexedTransfers}
    {wr : WriteResource} {index : ℕ} {st : ParseState} {rows : List TokenOwnershipV2}
    (hindexed : IndexedWith transfers st.tokenV2MetadataHelper)
    (h : tokenRows sdk ctx transfers wr index st = some rows) :
    (∀ row ∈ rows, FlagsAgree (view st.tokenV2MetadataHelper) row) ↔
      TransferAgrees sdk (view st.tokenV2MetadataHelper) wr := by
  rcases tokenRows_unindexed hindexed h with ⟨hnone, rfl⟩ |
    ⟨tokenData, owner, ownerships, hdata, hnft, hsame⟩
  · refine iff_of_true (List.forall_mem_nil _) ?_
    intro htype object hobject
    rcases getV2FromWriteResource_none hnone with hne | hunknown
    · exact absurd htype hne
    · rw [view_eq, hunknown] at hobject
      cases hobject
  · obtain ⟨htype, hid, -, -, -⟩ := getV2FromWriteResource_row hdata
    unfold getNftV2FromTokenData at hnft
    obtain ⟨data, hlookup, hnft⟩ := Option.bind_eq_some_iff.mp hnft
    obtain ⟨-, rfl⟩ := Prod.mk.inj (Option.some.inj hnft)
    rw [hid] at hlookup
    -- The object is known, and the owner's row takes both flags from it.
    have hview : view st.tokenV2MetadataHelper (sdk.standardizeAddress wr.address) =
        some ⟨data.objectCore, data.untransferable, data.transferEvents⟩ := by
      unfold view
      rw [hlookup]
      rfl
    rw [← forall_flagsAgree_unindexed, hsame, List.map_cons, List.forall_mem_cons, hid]
    unfold transferredRows TransferAgrees
    rw [hview, List.map_map, List.forall_mem_map]
    constructor
    -- A former owner's row has whether it is soulbound for both flags.
    · intro hrows _ object hobject hchanged hboth
      obtain rfl := Option.some.inj hobject
      obtain ⟨event, hevent, hne⟩ := List.any_eq_true.mp hchanged
      obtain ⟨object, hobject, hflags⟩ := hrows.2 event (List.mem_filter.mpr ⟨hevent, hne⟩) rfl
      obtain rfl := Option.some.inj (hview.symm.trans hobject)
      have hby := Option.some.inj hflags.nonTransferrable
      dsimp only at hby hboth
      rw [hboth.1, hboth.2] at hby
      cases hby
    · intro hagrees
      refine ⟨fun _ => ⟨_, hview, rfl, rfl⟩, ?_⟩
      intro event hevent _
      obtain ⟨hmem, hne⟩ := List.mem_filter.mp hevent
      have hnot := hagrees htype _ rfl (List.any_eq_true.mpr ⟨event, hmem, hne⟩)
      refine ⟨_, hview, ?_, rfl⟩
      show some (data.untransferable || !data.objectCore.allowUngatedTransfer) = _
      dsimp only at hnot ⊢
      cases hallow : data.objectCore.allowUngatedTransfer with
      | false => simp
      | true => simpa [hallow] using hnot

/-- The row of a burned token whose core is written says it is soulbound. -/
theorem burnedRow_agree_iff {wr : WriteResource} {txnVersion : Int64}
    {txnTimestamp : NaiveDateTime} {prior : Table String String} {tokensBurned : TokenV2Burned}
    {metadata : ObjectAggregatedDataMapping} {ownerLookup : String → Option String}
    {ownership : Option CurrentTokenOwnershipV2} {burned : String → Bool}
    (hburned : ∀ address, burned address = (tokensBurned.lookup address).isSome)
    (hknown : ∀ core, objectCoreFromWriteResource sdk.toSdk wr = some (some core) →
      ∃ object, view metadata (sdk.standardizeAddress wr.address) = some object)
    (h : getBurnedNftV2FromWriteResource sdk wr txnVersion txnTimestamp prior tokensBurned metadata
      ownerLookup = some ownership) (index : Int64) :
    (∀ row ∈ ownership, FlagsAgree (view metadata) (row.historic index)) ↔
      BurnAgrees sdk (view metadata) burned wr := by
  unfold getBurnedNftV2FromWriteResource at h
  dsimp only at h
  unfold BurnAgrees
  rw [hburned]
  split at h
  next hisBurned =>
    obtain ⟨object, hobject, rfl⟩ := Option.map_eq_some_iff.mp h
    cases object with
    | none =>
      -- No core is written: the row sets no flags.
      refine iff_of_true ?_ ?_
      · intro row hrow
        unfold getBurnedNftV2Helper at hrow
        obtain ⟨burn, -, rfl⟩ := Option.map_eq_some_iff.mp hrow
        exact flagsAgree_of_none rfl rfl
      · intro _ core hcore
        rw [hobject] at hcore
        cases hcore
    | some core =>
      obtain ⟨object, hview⟩ := hknown core hobject
      -- The object is known, which the code takes for its being untransferable.
      have hsome : (metadata.lookup (sdk.standardizeAddress wr.address)).isSome = true := by
        obtain ⟨data, hdata, -⟩ := Option.map_eq_some_iff.mp hview
        exact Option.isSome_of_eq_some hdata
      constructor
      · intro hrows _ core' hcore object' hobject'
        rw [hobject] at hcore
        obtain rfl := Option.some.inj hcore
        obtain rfl := Option.some.inj (hview.symm.trans hobject')
        obtain ⟨object', hobject', hflags⟩ := hrows _ rfl rfl
        obtain rfl := Option.some.inj (hview.symm.trans hobject')
        have hby := Option.some.inj hflags.nonTransferrable
        have hsoulbound := Option.some.inj hflags.soulbound
        rw [hsome, Bool.true_or] at hsoulbound
        have hallow : core.allowUngatedTransfer = object.core.allowUngatedTransfer :=
          Bool.not_inj hby
        refine ⟨hallow, ?_⟩
        rw [hallow]
        simpa using hsoulbound.symm
      · intro hagrees row hrow _
        obtain rfl := Option.some.inj hrow
        have hcore : core ∈ (objectCoreFromWriteResource sdk.toSdk wr).join := by
          rw [hobject]
          rfl
        obtain ⟨hallow, hclosed⟩ := hagrees hisBurned core hcore object hview
        refine ⟨object, hview, ?_, ?_⟩
        · show some (!core.allowUngatedTransfer) = _
          rw [hallow]
        · show some ((metadata.lookup (sdk.standardizeAddress wr.address)).isSome || _) = _
          rw [hsome, Bool.true_or]
          rw [hallow] at hclosed
          simpa using hclosed
  next hnot =>
    obtain rfl := Option.some.inj h
    exact iff_of_true (fun row hrow => by cases hrow) (fun hisBurned => absurd hisBurned hnot)

/-! ### One change -/

/-- The rows of V1 tokens set no flags. -/
theorem flagsAgree_v1 {objects : String → Option ObjectView} {txnVersion : Int64} {index : Int64}
    {ownership : Option CurrentTokenOwnershipV2}
    (h : ∀ row ∈ ownership, IsV1Row sdk txnVersion row) :
    ∀ row ∈ ownership.toList.map (·.historic index), FlagsAgree objects row := by
  intro row hrow
  obtain ⟨current, hcurrent, rfl⟩ := List.mem_map.mp hrow
  obtain ⟨_, _, _, _, _, _, rfl⟩ := h current (Option.mem_toList.mp hcurrent)
  exact flagsAgree_of_none rfl rfl

theorem changeRows_agree_iff {ctx : ChangeContext} {transfers : IndexedTransfers}
    {st : ParseState} {change : Protos.Change × ℕ} {rows : List TokenOwnershipV2}
    {burned : String → Bool}
    (hindexed : IndexedWith transfers st.tokenV2MetadataHelper)
    (hburned : ∀ address, burned address = (ctx.tokensBurned.lookup address).isSome)
    (hknown : ∀ address core, coreOf sdk address change.1 = some core →
      ∃ object, view st.tokenV2MetadataHelper address = some object)
    (h : changeRows sdk ctx transfers st change = some rows) :
    (∀ row ∈ rows, FlagsAgree (view st.tokenV2MetadataHelper) row) ↔
      ChangeAgrees sdk (view st.tokenV2MetadataHelper) burned change.1 := by
  obtain ⟨change, index⟩ := change
  cases change with
  | writeTableItem item =>
    obtain ⟨ownership, hownership, h⟩ := Option.bind_eq_some_iff.mp h
    obtain rfl := Option.some.inj h
    exact iff_of_true (flagsAgree_v1 (isV1Row_written hownership)) trivial
  | deleteTableItem item =>
    obtain ⟨ownership, hownership, h⟩ := Option.bind_eq_some_iff.mp h
    obtain rfl := Option.some.inj h
    exact iff_of_true (flagsAgree_v1 (isV1Row_deleted hownership)) trivial
  | writeResource wr params =>
    obtain ⟨written, hwritten, h⟩ := Option.bind_eq_some_iff.mp h
    obtain ⟨st₁, htoken, h⟩ := Option.bind_eq_some_iff.mp h
    obtain ⟨ownership, hownership, h⟩ := Option.bind_eq_some_iff.mp h
    obtain rfl := Option.some.inj h
    -- The token is parsed before the burn is looked at; the objects stay as they are.
    have hobjects : st₁.tokenV2MetadataHelper = st.tokenV2MetadataHelper := by
      rcases parseToken_cases htoken with ⟨-, rfl⟩ | ⟨tokenData, owner, rows, -, -, rfl⟩
      · rfl
      · rfl
    rw [hobjects] at hownership
    have hcore : ∀ core, objectCoreFromWriteResource sdk.toSdk wr = some (some core) →
        ∃ object, view st.tokenV2MetadataHelper (sdk.standardizeAddress wr.address) =
          some object := by
      intro core hcore
      refine hknown _ core ?_
      show (if _ then _ else _) = _
      rw [if_pos rfl, hcore]
      rfl
    rw [List.forall_mem_append, tokenRows_agree_iff hindexed hwritten, List.forall_mem_map]
    refine and_congr_right fun _ => ?_
    rw [← burnedRow_agree_iff hburned hcore hownership (Int64.ofNat index)]
    exact forall_congr' fun row => imp_congr_left Option.mem_toList
  | deleteResource dr params =>
    obtain rfl := Option.some.inj h
    refine iff_of_true ?_ trivial
    intro row hrow
    obtain ⟨current, hcurrent, rfl⟩ := List.mem_map.mp hrow
    obtain ⟨burn, -, rfl⟩ := Option.map_eq_some_iff.mp (Option.mem_toList.mp hcurrent)
    exact flagsAgree_of_none rfl rfl
  | other =>
    obtain rfl := Option.some.inj h
    exact iff_of_true (List.forall_mem_nil _) trivial

/-! ### One transaction -/

/-- The rows a transaction adds have the right flags exactly if its changes are so. -/
theorem historyTransaction_agree_iff {ctx : ParseContext} {st st' : History}
    {txn : Protos.Transaction} {objects : String → Option ObjectView}
    (hindexed : st.Indexed) (h : historyTransaction sdk ctx st txn = some st')
    (hobjects : ∀ address, objects address =
      objectAfter sdk address (view st.parsed.tokenV2MetadataHelper address) txn) :
    (∀ address, view st'.parsed.tokenV2MetadataHelper address = objects address) ∧
    ∃ rows, st'.tokenOwnershipsV2 = st.tokenOwnershipsV2 ++ rows ∧
      (∀ row ∈ rows, row.transactionVersion = txn.txnVersion) ∧
      ((∀ row ∈ rows, FlagsAgree objects row) ↔
        ∀ change ∈ readChanges txn,
          ChangeAgrees sdk objects (fun address => burnsToken sdk address txn) change) := by
  rcases historyTransaction_cases h with ⟨rfl, hchanges, hevents⟩ |
    ⟨ts, request, ev, -, -, hev, hfold⟩
  · refine ⟨?_, [], (List.append_nil _).symm, List.forall_mem_nil _, ?_⟩
    · intro address
      rw [hobjects]
      unfold objectAfter
      rw [hchanges, hevents]
      cases view st'.parsed.tokenV2MetadataHelper address with
      | none => rfl
      | some object => simp [lastCore]
    · rw [hchanges]
      exact iff_of_true (List.forall_mem_nil _) (List.forall_mem_nil _)
  · have hview : ∀ address, view ev.metadata address = objects address := by
      intro address
      rw [hobjects, parseEvents_view hev]
    obtain rfl : objects = view ev.metadata := (funext hview).symm
    have hburned : ∀ address, burnsToken sdk address txn =
        (ev.tokensBurned.lookup address).isSome := by
      intro address
      rw [parseEvents_burned hev]
      rfl
    -- Every core the transaction writes is known in loop 4.
    have hknown : ∀ change ∈ readChanges txn, ∀ address core,
        coreOf sdk address change = some core →
          ∃ object, view ev.metadata address = some object := by
      intro change hchange address core hcore
      have hlast : (lastCore sdk address (readChanges txn)).isSome = true := by
        unfold lastCore
        rw [List.getLast?_isSome]
        exact List.ne_nil_of_mem (List.mem_filterMap.mpr ⟨change, hchange, hcore⟩)
      obtain ⟨last, hlast⟩ := Option.isSome_iff_exists.mp hlast
      rw [parseEvents_view hev]
      unfold objectAfter
      rw [hlast]
      exact ⟨_, rfl⟩
    have hadded := historyChanges_rows_iff (P := FlagsAgree (view ev.metadata))
      (Q := ChangeAgrees sdk (view ev.metadata) fun address => burnsToken sdk address txn)
      hfold (indexedWith_parseEvents hindexed hev) ?_
    · obtain ⟨hmetadata, hrows⟩ := hadded
      refine ⟨?_, hrows⟩
      intro address
      rw [hmetadata]
    · intro change hmem index s rows hs hsame hrows
      have hone := changeRows_agree_iff hs hburned (by
        rw [hsame]
        exact hknown change hmem) hrows
      rwa [hsame] at hone

/-! ## Batches -/

/-- The transactions of at most this version. -/
def upTo (version : Int64) (txns : List Protos.Transaction) : List Protos.Transaction :=
  txns.filter fun txn => txn.txnVersion ≤ version

/-- The flags of a row are those of the object after the row's transaction. -/
def FlagsRight (sdk : TokenSdk) (txns : List Protos.Transaction) (row : TokenOwnershipV2) : Prop :=
  FlagsAgree (objectOf sdk (upTo row.transactionVersion txns)) row

/-- All historic and all current rows of a batch have the right flags. -/
structure FlagsAgreeOnAllPaths (sdk : TokenSdk) (txns : List Protos.Transaction)
    (out : History) : Prop where
  history : ∀ row ∈ out.tokenOwnershipsV2, FlagsRight sdk txns row
  current : out.parsed.AllRows fun row => FlagsRight sdk txns (row.historic 0)

/-- The changes of every transaction are so. -/
def ObjectsAgree (sdk : TokenSdk) (txns : List Protos.Transaction) : Prop :=
  ∀ done txn, (done ++ [txn]) <+: txns → ∀ change ∈ readChanges txn,
    ChangeAgrees sdk (objectOf sdk (done ++ [txn])) (fun address => burnsToken sdk address txn)
      change

theorem objectsAgree_nil : ObjectsAgree sdk [] := by
  intro done txn hprefix
  simp at hprefix

theorem objectsAgree_concat {txns : List Protos.Transaction} {txn : Protos.Transaction} :
    ObjectsAgree sdk (txns ++ [txn]) ↔ ObjectsAgree sdk txns ∧
      ∀ change ∈ readChanges txn, ChangeAgrees sdk (objectOf sdk (txns ++ [txn]))
        (fun address => burnsToken sdk address txn) change := by
  constructor
  · intro h
    refine ⟨?_, h txns txn (List.prefix_refl _)⟩
    intro done last hdone
    exact h done last (hdone.trans (List.prefix_append _ _))
  · intro h done last hprefix
    rcases List.prefix_concat_iff.mp hprefix with heq | hprefix
    · obtain ⟨rfl, hlast⟩ := List.append_inj' heq rfl
      obtain rfl := List.singleton_injective hlast
      exact h.2
    · exact h.1 done last hprefix

theorem upTo_concat_of_lt {txns : List Protos.Transaction} {txn : Protos.Transaction}
    {version : Int64} (h : version < txn.txnVersion) :
    upTo version (txns ++ [txn]) = upTo version txns := by
  unfold upTo
  rw [List.filter_append, List.filter_singleton, decide_eq_false (Int64.not_le.mpr h)]
  exact List.append_nil _

theorem upTo_last {txns : List Protos.Transaction} {txn : Protos.Transaction}
    (h : ∀ t ∈ txns, t.txnVersion < txn.txnVersion) :
    upTo txn.txnVersion (txns ++ [txn]) = txns ++ [txn] := by
  unfold upTo
  refine List.filter_eq_self.mpr ?_
  intro t ht
  rcases List.mem_append.mp ht with ht | ht
  · exact decide_eq_true (Int64.le_of_lt (h t ht))
  · obtain rfl := List.mem_singleton.mp ht
    exact decide_eq_true (Int64.le_refl _)

theorem flagsRight_of_unindexed {txns : List Protos.Transaction} {row : TokenOwnershipV2}
    {current : CurrentTokenOwnershipV2} (h : row.unindexed = current.historic 0) :
    FlagsRight sdk txns (current.historic 0) ↔ FlagsRight sdk txns row := by
  rw [← h]
  exact flagsAgree_unindexed

/-- **The flags on all paths.** The historic and the current rows of a batch have the flags of
the objects they are about exactly if the changes of every transaction agree with the
objects. -/
theorem soulbound_flags_iff (sdk : TokenSdk) (ctx : ParseContext)
    {txns : List Protos.Transaction} {out : History} (htxns : InOrder txns)
    (h : parseHistory sdk ctx txns = some out) :
    FlagsAgreeOnAllPaths sdk txns out ↔ ObjectsAgree sdk txns := by
  have hrun := foldlM_prefix (P := fun done (st : History) => st.Indexed ∧
    (∀ address, view st.parsed.tokenV2MetadataHelper address = objectOf sdk done address) ∧
    (∀ row ∈ st.tokenOwnershipsV2, ∃ t ∈ done, row.transactionVersion = t.txnVersion) ∧
    ((∀ row ∈ st.tokenOwnershipsV2, FlagsRight sdk done row) ↔ ObjectsAgree sdk done)) h
    ⟨fun _ => rfl, fun _ => rfl, List.forall_mem_nil _, ?_⟩ ?_
  · obtain ⟨-, -, -, hhistory⟩ := hrun
    rw [← hhistory]
    refine ⟨FlagsAgreeOnAllPaths.history, fun hrows => ⟨hrows, ?_⟩⟩
    -- A current row has the flags of a historic one.
    intro kind key row hrow
    obtain ⟨old, hold, heq⟩ := List.mem_map.mp (currentRows_historic h kind key row hrow)
    exact (flagsRight_of_unindexed heq).mpr (hrows old hold)
  · exact iff_of_true (List.forall_mem_nil _) objectsAgree_nil
  · intro done txn st st' hprefix hst hstep
    obtain ⟨hindexed, hview, hversions, hagree⟩ := hst
    have hlt := htxns.lt_of_prefix_concat hprefix
    have hobjects : ∀ address, objectOf sdk (done ++ [txn]) address =
        objectAfter sdk address (view st.parsed.tokenV2MetadataHelper address) txn := by
      intro address
      rw [hview]
      exact List.foldl_append
    obtain ⟨hview', rows, happend, hnew, hone⟩ :=
      historyTransaction_agree_iff hindexed hstep hobjects
    have hold : (∀ row ∈ st.tokenOwnershipsV2, FlagsRight sdk (done ++ [txn]) row) ↔
        ∀ row ∈ st.tokenOwnershipsV2, FlagsRight sdk done row := by
      refine forall₂_congr fun row hrow => ?_
      obtain ⟨t, ht, hversion⟩ := hversions row hrow
      unfold FlagsRight
      rw [upTo_concat_of_lt (hversion ▸ hlt t ht)]
    have hlast : (∀ row ∈ rows, FlagsRight sdk (done ++ [txn]) row) ↔
        ∀ row ∈ rows, FlagsAgree (objectOf sdk (done ++ [txn])) row := by
      refine forall₂_congr fun row hrow => ?_
      unfold FlagsRight
      rw [hnew row hrow, upTo_last hlt]
    rw [happend]
    refine ⟨indexed_transaction hindexed hstep, hview', rowVersions_concat hversions hnew, ?_⟩
    rw [List.forall_mem_append, hold, hlast, hagree, hone, objectsAgree_concat]

/-- A token given from `0xa` to `0xb`: the owner's row and that of the former owner. -/
theorem flags_of_transfer :
    ∃ out, parseHistory lifeSdk emptyContext [transferTxn 2] = some out ∧
      out.tokenOwnershipsV2.map (fun row => (row.ownerAddress, row.isSoulboundV2)) =
        [(some bAddress, some false), (some aAddress, some false)] ∧
      FlagsAgreeOnAllPaths lifeSdk [transferTxn 2] out := by
  have hrun : (parseHistory lifeSdk emptyContext [transferTxn 2]).any (fun out =>
      out.tokenOwnershipsV2.map (fun row => (row.ownerAddress, row.isSoulboundV2)) =
        [(some bAddress, some false), (some aAddress, some false)]) = true := by
    decide +kernel
  obtain ⟨out, hout, hrows⟩ := exists_of_any hrun
  refine ⟨out, hout, hrows, ?_⟩
  refine (soulbound_flags_iff lifeSdk emptyContext (by decide) hout).mpr ?_
  exact (@objectsAgree_concat lifeSdk [] (transferTxn 2)).mpr ⟨objectsAgree_nil, by decide +kernel⟩

/-- A burn of the token after which its core is still there. -/
def burnKeepingCoreTxn (version : UInt64) : Protos.Transaction :=
  lifeTxn version
    [.writeResource ⟨"0x7", ⟨"0x1", "object", "ObjectCore"⟩, "0x1::object::ObjectCore",
      coreData "0xa"⟩ []]
    [⟨some ⟨"0x0"⟩, "0x4::collection::Burn", burnData⟩]

/-- Its owner may transfer the object, but a row of the burned token is soulbound. -/
theorem burned_token_soulbound :
    ∃ out row, parseHistory lifeSdk emptyContext [burnKeepingCoreTxn 2] = some out ∧
      InOrder [burnKeepingCoreTxn 2] ∧ row ∈ out.tokenOwnershipsV2 ∧
      row.isSoulboundV2 = some true ∧ row.nonTransferrableByOwner = some false ∧
      (objectOf lifeSdk [burnKeepingCoreTxn 2] tokenAddress).map (fun object =>
        (object.core.allowUngatedTransfer, object.untransferable)) = some (true, false) ∧
      ¬ FlagsAgreeOnAllPaths lifeSdk [burnKeepingCoreTxn 2] out := by
  have hrun : (parseHistory lifeSdk emptyContext [burnKeepingCoreTxn 2]).any (fun out =>
      ∃ row ∈ out.tokenOwnershipsV2, row.tokenDataId = tokenAddress ∧ row.transactionVersion = 2 ∧
        row.isSoulboundV2 = some true ∧ row.nonTransferrableByOwner = some false) = true := by
    decide +kernel
  have hobject : (objectOf lifeSdk [burnKeepingCoreTxn 2] tokenAddress).map (fun object =>
      (object.core.allowUngatedTransfer, object.untransferable)) = some (true, false) := by
    decide +kernel
  obtain ⟨out, hout, row, hrow, htoken, hversion, hsoulbound, hby⟩ := exists_of_any hrun
  refine ⟨out, row, hout, by decide, hrow, hsoulbound, hby, hobject, ?_⟩
  intro hall
  obtain ⟨object, hview, hflags⟩ := hall.history row hrow (by
    unfold TokenOwnershipV2.setsFlags
    rw [hsoulbound]
    rfl)
  have hupTo : upTo 2 [burnKeepingCoreTxn 2] = [burnKeepingCoreTxn 2] := rfl
  rw [htoken, hversion, hupTo] at hview
  rw [hview] at hobject
  obtain ⟨hallow, huntransferable⟩ := Prod.mk.inj (Option.some.inj hobject)
  have hsame := hflags.soulbound
  rw [hsoulbound, hallow, huntransferable] at hsame
  cases Option.some.inj hsame

end IndexerProcessors.TokenV2

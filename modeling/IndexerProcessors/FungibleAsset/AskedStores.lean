import IndexerProcessors.FungibleAsset.CoinTypes
import IndexerProcessors.FungibleAsset.RespelledRows

/-!
# What the rows ask of deletion events

The deletion events of a transaction are kept in a map by the address of the store as the
event spells it. Two kinds of rows look a store up there, by its standardized address: an
activity of a store whose object is not written asks for its owner and its asset as they
are, the balance of a deleted object for the same two, standardized. The rows are the same
for any two maps that answer the same, `rowsWith_congr`; and a map that answers differently
shows, `owner_of_activities` and `deleted_of_balances`.
-/

namespace IndexerProcessors.FungibleAsset

open IndexerProcessors.Lib
open IndexerProcessors.Protos

/-! ## Stores that are looked up -/

/-- The objects whose cores are written. -/
def objectAddresses (sdk : AssetSdk) (ctx : TxnContext) : List String :=
  ctx.transactionInfo.changes.filterMap fun change => (newObjectOf sdk change).join.map Prod.fst

/-- The store of a fungible asset event. -/
def eventStoreOf (sdk : AssetSdk) (event : Stream.Event) : Option String :=
  ((FungibleAssetEvent.fromEvent sdk.toSdk event.typeStr event.data).join.bind
    (fungibleEventStore sdk event)).map Prod.fst

/-- An event has the store, and its object is not written. -/
def AsksOwner (sdk : AssetSdk) (ctx : TxnContext) (storageId : String) : Prop :=
  (∃ event ∈ ctx.events, eventStoreOf sdk event = some storageId) ∧
    storageId ∉ objectAddresses sdk ctx

/-- The object of the store is deleted. -/
def AsksBalance (sdk : AssetSdk) (ctx : TxnContext) (storageId : String) : Prop :=
  ∃ dr params, Protos.Change.deleteResource dr params ∈ ctx.transactionInfo.changes ∧
    dr.typeStr = "0x1::object::ObjectGroup" ∧ sdk.standardizeAddress dr.address = storageId

/-- The owner and the asset that an activity takes from a deletion event. -/
def ownerAndAssetOf (event : Option FungibleAssetStoreDeletionEvent) :
    Option String × Option String :=
  (event.map (·.owner), event.map (·.metadata))

/-- The owner and the asset that a balance takes from a deletion event. -/
def standardOwnerAndAsset (sdk : AssetSdk) (event : FungibleAssetStoreDeletionEvent) :
    String × String :=
  (sdk.standardizeAddress event.owner, sdk.standardizeAddress event.metadata)

/-- Maps that say the same to all rows that ask. -/
structure StoresAgree (sdk : AssetSdk) (ctx : TxnContext) (deleted deleted' : DeletedStores) :
    Prop where
  owner : ∀ storageId, AsksOwner sdk ctx storageId →
    ownerAndAssetOf (deleted.lookup storageId) = ownerAndAssetOf (deleted'.lookup storageId)
  balance : ∀ storageId, AsksBalance sdk ctx storageId →
    (deleted.lookup storageId).map (standardOwnerAndAsset sdk) =
      (deleted'.lookup storageId).map (standardOwnerAndAsset sdk)

variable {sdk : AssetSdk} {ctx : TxnContext}

/-! ## Objects -/

/-- Resources are kept with objects that are there. -/
theorem withResource_domain {change : Protos.Change} {objects objects' : FungibleObjectMapping}
    (h : withResource sdk objects change = some objects') (storageId : String) :
    (objects'.lookup storageId).isSome = (objects.lookup storageId).isSome := by
  cases change with
  | writeResource wr params =>
    rw [withResource] at h
    cases hlookup : objects.lookup (sdk.standardizeAddress wr.address) with
    | none =>
      rw [hlookup] at h
      obtain rfl := Option.some.inj h
      rfl
    | some data =>
      rw [hlookup] at h
      obtain ⟨resource, -, h⟩ := Option.bind_eq_some_iff.mp h
      cases resource with
      | none =>
        obtain rfl := Option.some.inj h
        rfl
      | some resource =>
        obtain rfl := Option.some.inj h
        by_cases hsame : storageId = sdk.standardizeAddress wr.address
        · rw [hsame, AList.lookup_insert, hlookup]
          rfl
        · rw [AList.lookup_insert_ne hsame]
  | deleteResource dr params =>
    obtain rfl := Option.some.inj h
    rfl
  | writeTableItem item =>
    obtain rfl := Option.some.inj h
    rfl
  | deleteTableItem item =>
    obtain rfl := Option.some.inj h
    rfl
  | other =>
    obtain rfl := Option.some.inj h
    rfl

/-- The objects that are kept are those whose cores are written. -/
theorem fungibleAssetObjectHelper_domain {objects : FungibleObjectMapping}
    (h : fungibleAssetObjectHelper sdk ctx.transactionInfo.changes = some objects)
    (storageId : String) :
    (objects.lookup storageId).isSome ↔ storageId ∈ objectAddresses sdk ctx := by
  unfold fungibleAssetObjectHelper at h
  obtain ⟨entries, hentries, h⟩ := Option.bind_eq_some_iff.mp h
  have hcores : entries.reduceOption.map Prod.fst = objectAddresses sdk ctx := by
    rw [reduceOption_of_mapM hentries, List.map_filterMap, objectAddresses]
  have hfirst : ((Table.insertAll ∅ entries.reduceOption : FungibleObjectMapping).lookup
      storageId).isSome ↔ storageId ∈ objectAddresses sdk ctx := by
    rw [← hcores, Table.lookup_insertAll, AList.lookup_empty, Option.or_none,
      List.getLast?_isSome, List.mem_map]
    constructor
    · intro hne
      obtain ⟨data, hdata⟩ := List.exists_mem_of_ne_nil _ hne
      exact ⟨(storageId, data), mem_proj.mp hdata, rfl⟩
    · rintro ⟨⟨_, data⟩, hmem, rfl⟩
      exact List.ne_nil_of_mem (mem_proj.mpr hmem)
  refine foldlM_invariant (P := fun objects : FungibleObjectMapping =>
    (objects.lookup storageId).isSome ↔ storageId ∈ objectAddresses sdk ctx) h hfirst ?_
  intro change _ objects objects' hobjects hstep
  rw [withResource_domain hstep]
  exact hobjects

theorem storeOwnerAndAsset_of_none {objects : FungibleObjectMapping} {deleted : DeletedStores}
    {storageId : String} (h : objects.lookup storageId = none) :
    storeOwnerAndAsset sdk objects deleted storageId =
      ownerAndAssetOf (deleted.lookup storageId) := by
  unfold storeOwnerAndAsset
  rw [h]
  dsimp only
  cases deleted.lookup storageId with
  | none => rfl
  | some event => rfl

/-! ## Maps that answer the same -/

variable {deleted deleted' : DeletedStores}

/-- The balance of a deleted object that was a store. -/
def deletedBalance (sdk : AssetSdk) (ctx : TxnContext) (dr : DeleteResource) (index : ℕ)
    (ownerAndAsset : String × String) : FungibleAssetBalance where
  transactionVersion := ctx.txnVersion
  writeSetChangeIndex := Int64.ofNat index
  storageId := sdk.standardizeAddress dr.address
  ownerAddress := ownerAndAsset.1
  assetType := ownerAndAsset.2
  isPrimary := false
  isFrozen := false
  amount := 0
  transactionTimestamp := ctx.txnTimestamp
  tokenStandard := .v2

/-- What the balance of a deleted object has of the map. -/
theorem v2BalanceOf_deleteResource (objects : ObjectAggregatedDataMapping)
    (deleted : DeletedStores) (dr : DeleteResource) (params : List MoveType) (index : ℕ) :
    v2BalanceOf sdk.toCoinSdk ctx.txnVersion ctx.txnTimestamp objects deleted
        (.deleteResource dr params, index) =
      some (if dr.typeStr = "0x1::object::ObjectGroup" then
        ((deleted.lookup (sdk.standardizeAddress dr.address)).map (standardOwnerAndAsset sdk)).map
          (deletedBalance sdk ctx dr index)
      else none) := by
  show some (getV2FromDeleteResource _ _ _ _ _ _) = _
  unfold getV2FromDeleteResource guard
  by_cases htype : dr.typeStr = "0x1::object::ObjectGroup"
  · rw [if_pos htype, if_pos htype]
    cases hdeleted : deleted.lookup (sdk.standardizeAddress dr.address) with
    | none =>
      show some ((deleted.lookup (sdk.standardizeAddress dr.address)).bind _) = _
      rw [hdeleted]
      rfl
    | some event =>
      show some ((deleted.lookup (sdk.standardizeAddress dr.address)).bind _) = _
      rw [hdeleted]
      rfl
  · rw [if_neg htype, if_neg htype]
    rfl

theorem v2BalanceOf_congr (h : StoresAgree sdk ctx deleted deleted') {change : Protos.Change}
    (hchange : change ∈ ctx.transactionInfo.changes) (objects : ObjectAggregatedDataMapping)
    (index : ℕ) :
    v2BalanceOf sdk.toCoinSdk ctx.txnVersion ctx.txnTimestamp objects deleted (change, index) =
      v2BalanceOf sdk.toCoinSdk ctx.txnVersion ctx.txnTimestamp objects deleted'
        (change, index) := by
  cases change with
  | writeResource wr params => rfl
  | deleteResource dr params =>
    rw [v2BalanceOf_deleteResource, v2BalanceOf_deleteResource]
    by_cases htype : dr.typeStr = "0x1::object::ObjectGroup"
    · rw [if_pos htype, if_pos htype, h.balance _ ⟨dr, params, hchange, htype, rfl⟩]
    · rw [if_neg htype, if_neg htype]
  | writeTableItem item => rfl
  | deleteTableItem item => rfl
  | other => rfl

theorem balancesWith_congr (h : StoresAgree sdk ctx deleted deleted') :
    balancesWith sdk.toCoinSdk ctx deleted = balancesWith sdk.toCoinSdk ctx deleted' := by
  unfold balancesWith
  refine congrArg _ (funext fun objects => ?_)
  refine congrArg _ (funext fun v1 => ?_)
  refine congrArg _ (funext fun objects => ?_)
  have hv2 : ctx.transactionInfo.changes.zipIdx.mapM
        (v2BalanceOf sdk.toCoinSdk ctx.txnVersion ctx.txnTimestamp objects deleted) =
      ctx.transactionInfo.changes.zipIdx.mapM
        (v2BalanceOf sdk.toCoinSdk ctx.txnVersion ctx.txnTimestamp objects deleted') := by
    refine mapM_congr_mem ?_
    rintro ⟨change, index⟩ hmem
    exact v2BalanceOf_congr h (List.fst_mem_of_mem_zipIdx hmem) objects index
  rw [hv2]

/-- The store of an event that is parsed. -/
theorem eventStoreOf_eq {event : Stream.Event} {faEvent : FungibleAssetEvent}
    {store : String × Option Bool × Option ℚ}
    (hevent : FungibleAssetEvent.fromEvent sdk.toSdk event.typeStr event.data = some (some faEvent))
    (hstore : fungibleEventStore sdk event faEvent = some store) :
    eventStoreOf sdk event = some store.1 := by
  rw [eventStoreOf, hevent]
  show (fungibleEventStore sdk event faEvent).map Prod.fst = some store.1
  rw [hstore]
  rfl

theorem getV2FromEvent_congr (h : StoresAgree sdk ctx deleted deleted') {event : Stream.Event}
    (hevent : event ∈ ctx.events) {objects : FungibleObjectMapping}
    (hobjects : fungibleAssetObjectHelper sdk ctx.transactionInfo.changes = some objects)
    (index : ℕ) :
    getV2FromEvent sdk ctx event index objects deleted =
      getV2FromEvent sdk ctx event index objects deleted' := by
  unfold getV2FromEvent
  cases hparsed : FungibleAssetEvent.fromEvent sdk.toSdk event.typeStr event.data with
  | none => rfl
  | some faEvent =>
    cases faEvent with
    | none => rfl
    | some faEvent =>
      show (fungibleEventStore sdk event faEvent).bind _ =
        (fungibleEventStore sdk event faEvent).bind _
      cases hstore : fungibleEventStore sdk event faEvent with
      | none => rfl
      | some store =>
        obtain ⟨storageId, isFrozen, amount⟩ := store
        have hsame : storeOwnerAndAsset sdk objects deleted storageId =
            storeOwnerAndAsset sdk objects deleted' storageId := by
          cases hlookup : objects.lookup storageId with
          | none =>
            have hasks : AsksOwner sdk ctx storageId := by
              refine ⟨⟨event, hevent, eventStoreOf_eq hparsed hstore⟩, ?_⟩
              rw [← fungibleAssetObjectHelper_domain hobjects, hlookup]
              exact Bool.false_ne_true
            rw [storeOwnerAndAsset_of_none hlookup, storeOwnerAndAsset_of_none hlookup,
              h.owner storageId hasks]
          | some data => rw [storeOwnerAndAsset, storeOwnerAndAsset, hlookup]
        simp only [Option.bind_some, hsame]

theorem activitiesWith_congr (h : StoresAgree sdk ctx deleted deleted') :
    activitiesWith sdk ctx deleted = activitiesWith sdk ctx deleted' := by
  unfold activitiesWith
  cases hobjects : fungibleAssetObjectHelper sdk ctx.transactionInfo.changes with
  | none => rfl
  | some objects =>
    show (eventToV1CoinType sdk.toCoinSdk ctx.transactionInfo.changes).bind _ =
      (eventToV1CoinType sdk.toCoinSdk ctx.transactionInfo.changes).bind _
    refine congrArg _ (funext fun coinTypes => ?_)
    refine congrArg _ (funext fun deletedCoinTypes => ?_)
    unfold transactionActivities
    have hevents : ctx.events.zipIdx.mapM
          (eventActivities sdk ctx ⟨objects, deleted, coinTypes, deletedCoinTypes⟩) =
        ctx.events.zipIdx.mapM
          (eventActivities sdk ctx ⟨objects, deleted', coinTypes, deletedCoinTypes⟩) := by
      refine mapM_congr_mem ?_
      rintro ⟨event, index⟩ hmem
      rw [eventActivities, eventActivities,
        getV2FromEvent_congr h (List.fst_mem_of_mem_zipIdx hmem) hobjects]
    rw [hevents]

/-- Maps that answer the same make the same rows. -/
theorem rowsWith_congr (h : StoresAgree sdk ctx deleted deleted') :
    rowsWith sdk ctx deleted = rowsWith sdk ctx deleted' := by
  unfold rowsWith
  rw [balancesWith_congr h, activitiesWith_congr h]

/-! ## Panics -/

/-- A store that is not deleted is no panic. -/
theorem v2BalanceOf_bothRun (objects : ObjectAggregatedDataMapping)
    (change : Protos.Change × ℕ) :
    BothRun (v2BalanceOf sdk.toCoinSdk ctx.txnVersion ctx.txnTimestamp objects deleted change)
      (v2BalanceOf sdk.toCoinSdk ctx.txnVersion ctx.txnTimestamp objects deleted' change) := by
  obtain ⟨change, index⟩ := change
  cases change with
  | writeResource wr params => exact BothRun.refl _
  | deleteResource dr params => exact .some trivial
  | writeTableItem item => exact BothRun.refl _
  | deleteTableItem item => exact BothRun.refl _
  | other => exact BothRun.refl _

theorem balancesWith_bothRun :
    BothRun (balancesWith sdk.toCoinSdk ctx deleted) (balancesWith sdk.toCoinSdk ctx deleted') := by
  unfold balancesWith
  refine BothRun.bind_same _ fun objects => ?_
  refine BothRun.bind_same _ fun v1 => ?_
  refine BothRun.bind_same _ fun objects => ?_
  exact (BothRun.mapM fun change => v2BalanceOf_bothRun objects change).bind fun _ _ =>
    .some trivial

theorem activitiesWith_bothRun :
    BothRun (activitiesWith sdk ctx deleted) (activitiesWith sdk ctx deleted') := by
  unfold activitiesWith
  refine BothRun.bind_same _ fun objects => ?_
  refine BothRun.bind_same _ fun coinTypes => ?_
  refine BothRun.bind_same _ fun deletedCoinTypes => ?_
  have hv2 : ∀ event : Stream.Event × ℕ,
      BothRun (getV2FromEvent sdk ctx event.1 event.2 objects deleted)
        (getV2FromEvent sdk ctx event.1 event.2 objects deleted') := by
    intro event
    unfold getV2FromEvent
    refine BothRun.bind_same _ fun faEvent => ?_
    cases faEvent with
    | none => exact .some trivial
    | some faEvent => exact BothRun.bind_same _ fun store => .some trivial
  unfold transactionActivities
  refine BothRun.bind_same _ fun gas => ?_
  refine (BothRun.mapM fun event => ?_).bind fun _ _ => .some trivial
  unfold eventActivities
  exact BothRun.bind_same _ fun v1Activity => (hv2 event).bind fun _ _ => .some trivial

/-- No answer of the map is a panic. -/
theorem rowsWith_bothRun (sdk : AssetSdk) (ctx : TxnContext) (deleted deleted' : DeletedStores) :
    BothRun (rowsWith sdk ctx deleted) (rowsWith sdk ctx deleted') := by
  unfold rowsWith
  refine balancesWith_bothRun.bind fun _ _ => ?_
  refine activitiesWith_bothRun.bind fun _ _ => ?_
  refine BothRun.bind_same _ fun metadata => ?_
  refine BothRun.bind_same _ fun mappings => ?_
  exact BothRun.bind_same _ fun coinSupply => .some trivial

/-! ## Answers that show -/

/-- The row of an event that asks has the answer. -/
theorem eventActivities_asked {objects : FungibleObjectMapping} {coinTypes : EventToCoinType}
    {deletedCoinTypes : OwnerAddressToCoinType} {event : Stream.Event} {index : ℕ}
    {storageId : String} (hstore : eventStoreOf sdk event = some storageId)
    (hlookup : objects.lookup storageId = none) {rows : List FungibleAssetActivity}
    (h : eventActivities sdk ctx ⟨objects, deleted, coinTypes, deletedCoinTypes⟩ (event, index) =
      some rows) :
    ∃ row, rows = [row] ∧
      (row.ownerAddress, row.assetType) = ownerAndAssetOf (deleted.lookup storageId) := by
  unfold eventActivities at h
  obtain ⟨v1Activity, hv1, h⟩ := Option.bind_eq_some_iff.mp h
  obtain ⟨v2Activity, hv2, h⟩ := Option.bind_eq_some_iff.mp h
  obtain rfl := Option.some.inj h
  obtain ⟨⟨_, isFrozen, amount⟩, hevent, rfl⟩ := Option.map_eq_some_iff.mp hstore
  obtain ⟨faEvent, hjoin, hevent⟩ := Option.bind_eq_some_iff.mp hevent
  have hparsed := Option.join_eq_some_iff.mp hjoin
  have hv1none : v1Activity = none := by
    cases v1Activity with
    | none => rfl
    | some row =>
      rw [FungibleAssetEvent.fromEvent_of_coin (getV1FromEvent_eq_some hv1).1] at hparsed
      cases hparsed
  unfold getV2FromEvent at hv2
  obtain ⟨faEvent', hparsed', hv2⟩ := Option.bind_eq_some_iff.mp hv2
  obtain rfl := Option.some.inj (hparsed.symm.trans hparsed')
  obtain ⟨store, hstore', hv2⟩ := Option.bind_eq_some_iff.mp hv2
  obtain rfl := Option.some.inj (hevent.symm.trans hstore')
  obtain rfl := Option.some.inj hv2
  rw [hv1none]
  exact ⟨_, rfl, storeOwnerAndAsset_of_none hlookup⟩

/-- The activity of an event that asks shows the answer. -/
theorem owner_of_activities {activities : List FungibleAssetActivity}
    (h : activitiesWith sdk ctx deleted = some activities)
    (h' : activitiesWith sdk ctx deleted' = some activities) {storageId : String}
    (hasks : AsksOwner sdk ctx storageId) :
    ownerAndAssetOf (deleted.lookup storageId) = ownerAndAssetOf (deleted'.lookup storageId) := by
  obtain ⟨⟨event, hevent, hstore⟩, hcore⟩ := hasks
  obtain ⟨index, hindex⟩ := List.mem_iff_getElem?.mp hevent
  unfold activitiesWith at h h'
  obtain ⟨objects, hobjects, h⟩ := Option.bind_eq_some_iff.mp h
  obtain ⟨coinTypes, hcoinTypes, h⟩ := Option.bind_eq_some_iff.mp h
  obtain ⟨deletedCoinTypes, hdeletedCoinTypes, h⟩ := Option.bind_eq_some_iff.mp h
  rw [hobjects, Option.bind_eq_bind, Option.bind_some, hcoinTypes, Option.bind_eq_bind,
    Option.bind_some, hdeletedCoinTypes, Option.bind_eq_bind, Option.bind_some] at h'
  have hlookup : objects.lookup storageId = none := by
    rw [← fungibleAssetObjectHelper_domain hobjects, Bool.not_eq_true,
      Option.isSome_eq_false_iff, Option.isNone_iff_eq_none] at hcore
    exact hcore
  -- The rows with the index of the event are the event's, whichever map is asked.
  obtain ⟨out, hout, hmem⟩ := mem_transactionActivities_of_index h hindex
  obtain ⟨out', hout', hmem'⟩ := mem_transactionActivities_of_index h' hindex
  obtain ⟨row, rfl, hrow⟩ := eventActivities_asked hstore hlookup hout
  obtain ⟨row', rfl, hrow'⟩ := eventActivities_asked hstore hlookup hout'
  have hsame : row ∈ [row'] := (hmem' row).mp ((hmem row).mpr List.mem_cons_self)
  rw [← hrow, ← hrow', List.mem_singleton.mp hsame]

/-- A map that has fewer stores makes fewer balances. -/
theorem rel_v2BalanceOf (hfewer : ∀ storageId, AsksBalance sdk ctx storageId →
      (deleted'.lookup storageId).map (standardOwnerAndAsset sdk) =
          (deleted.lookup storageId).map (standardOwnerAndAsset sdk) ∨
        deleted'.lookup storageId = none)
    (objects : ObjectAggregatedDataMapping) {change : Protos.Change}
    (hchange : change ∈ ctx.transactionInfo.changes) (index : ℕ) :
    Option.Rel (fun balance' balance => balance' = balance ∨ balance' = none)
      (v2BalanceOf sdk.toCoinSdk ctx.txnVersion ctx.txnTimestamp objects deleted' (change, index))
      (v2BalanceOf sdk.toCoinSdk ctx.txnVersion ctx.txnTimestamp objects deleted
        (change, index)) := by
  have hrefl : ∀ balance : Option FungibleAssetBalance, balance = balance ∨ balance = none :=
    fun _ => Or.inl rfl
  cases change with
  | writeResource wr params => exact rel_refl hrefl _
  | deleteResource dr params =>
    rw [v2BalanceOf_deleteResource, v2BalanceOf_deleteResource]
    refine .some ?_
    by_cases htype : dr.typeStr = "0x1::object::ObjectGroup"
    · rw [if_pos htype, if_pos htype]
      rcases hfewer _ ⟨dr, params, hchange, htype, rfl⟩ with hsame | hnone
      · rw [hsame]
        exact hrefl _
      · rw [hnone]
        exact Or.inr rfl
    · rw [if_neg htype, if_neg htype]
      exact hrefl _
  | writeTableItem item => exact rel_refl hrefl _
  | deleteTableItem item => exact rel_refl hrefl _
  | other => exact rel_refl hrefl _

/-- The balance of a store that one map has and the other has not shows, if the other has
nothing that the one has not. -/
theorem deleted_of_balances {balances : List FungibleAssetBalance}
    (h : balancesWith sdk.toCoinSdk ctx deleted = some balances)
    (h' : balancesWith sdk.toCoinSdk ctx deleted' = some balances)
    (hfewer : ∀ storageId, AsksBalance sdk ctx storageId →
      (deleted'.lookup storageId).map (standardOwnerAndAsset sdk) =
          (deleted.lookup storageId).map (standardOwnerAndAsset sdk) ∨
        deleted'.lookup storageId = none)
    {storageId : String} (hasks : AsksBalance sdk ctx storageId)
    (hnone : deleted'.lookup storageId = none) : deleted.lookup storageId = none := by
  unfold balancesWith at h h'
  obtain ⟨objects, hobjects, h⟩ := Option.bind_eq_some_iff.mp h
  obtain ⟨v1, hv1, h⟩ := Option.bind_eq_some_iff.mp h
  obtain ⟨objects', hobjects', h⟩ := Option.bind_eq_some_iff.mp h
  obtain ⟨v2, hv2, h⟩ := Option.bind_eq_some_iff.mp h
  obtain rfl := Option.some.inj h
  obtain ⟨_, hsame, h'⟩ := Option.bind_eq_some_iff.mp h'
  obtain rfl := Option.some.inj (hobjects.symm.trans hsame)
  obtain ⟨_, hsame, h'⟩ := Option.bind_eq_some_iff.mp h'
  obtain rfl := Option.some.inj (hv1.symm.trans hsame)
  obtain ⟨_, hsame, h'⟩ := Option.bind_eq_some_iff.mp h'
  obtain rfl := Option.some.inj (hobjects'.symm.trans hsame)
  obtain ⟨v2', hv2', h'⟩ := Option.bind_eq_some_iff.mp h'
  have hreduce : v2'.reduceOption = v2.reduceOption :=
    List.append_cancel_left (Option.some.inj h')
  -- Each balance of the other map is that of the one, or missing.
  have hentries : List.Forall₂ (fun balance' balance => balance' = balance ∨ balance' = none)
      v2' v2 := by
    have hchanges : List.Forall₂ (fun change change' => change = change' ∧
        change ∈ ctx.transactionInfo.changes.zipIdx) ctx.transactionInfo.changes.zipIdx
        ctx.transactionInfo.changes.zipIdx :=
      List.forall₂_same.mpr fun change hchange => ⟨rfl, hchange⟩
    have hrel := mapM_rel hchanges fun change change' hchange => by
      obtain ⟨rfl, hmem⟩ := hchange
      exact rel_v2BalanceOf hfewer objects' (List.fst_mem_of_mem_zipIdx hmem) change.2
    rw [hv2', hv2] at hrel
    cases hrel with
    | some hrel => exact hrel
  obtain rfl : v2' = v2 := by
    by_contra hne
    exact absurd (congrArg List.length hreduce) (length_reduceOption_lt hentries hne).ne
  obtain ⟨dr, params, hmem, htype, rfl⟩ := hasks
  obtain ⟨index, hindex⟩ := List.mem_iff_getElem?.mp hmem
  have hchange : (Protos.Change.deleteResource dr params, index) ∈
      ctx.transactionInfo.changes.zipIdx := List.mem_zipIdx_iff_getElem?.mpr hindex
  have hsame := eq_of_mapM_eq hv2 hv2' hchange
  rw [v2BalanceOf_deleteResource, v2BalanceOf_deleteResource, if_pos htype, if_pos htype, hnone,
    Option.some_inj, Option.map_none, Option.map_none, Option.map_eq_none_iff,
    Option.map_eq_none_iff] at hsame
  exact hsame

end IndexerProcessors.FungibleAsset

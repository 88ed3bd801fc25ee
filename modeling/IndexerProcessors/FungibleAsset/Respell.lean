import IndexerProcessors.FungibleAsset.SpelledOnce

/-!
# Transactions with other spellings

For any way of spelling addresses there is a transaction that is the given one with the
addresses in its events and resources spelled that way. Its deletion events and the
aggregators of its metadata are the given ones, spelled that way, and the rest of what is
parsed is the same.
-/

namespace IndexerProcessors.FungibleAsset

open IndexerProcessors.Lib
open IndexerProcessors.Protos

/-- A way to spell addresses. -/
structure Spelling where
  spell : String → String
  same : ∀ a, SameAddress a (spell a)

/-- One text is spelled as another one of the same address. -/
def Spelling.replace (a b : String) (h : SameAddress a b) : Spelling where
  spell := fun text => if text = a then b else text
  same := by
    intro text
    by_cases heq : text = a
    · rw [if_pos heq, heq]
      exact h
    · rw [if_neg heq]
      exact SameAddress.refl text

theorem Spelling.replace_self {a b : String} (h : SameAddress a b) :
    (Spelling.replace a b h).spell a = b :=
  if_pos rfl

theorem Spelling.replace_ne {a b text : String} (h : SameAddress a b) (hne : text ≠ a) :
    (Spelling.replace a b h).spell text = text :=
  if_neg hne

/-! ## JSON -/

/-- The value with the addresses in these places spelled in another way. -/
def respellJson (spelling : Spelling) : Places → Json → Json
  | .nothing, v => v
  | .address, .string a => .string (spelling.spell a)
  | .members of, .object fields =>
    .object (fields.map fun field => (field.1, respellJson spelling (of field.1) field.2))
  | .items of, .array items => .array (items.map (respellJson spelling of))
  | _, v => v

variable (spelling : Spelling)

theorem jsonRespelled_respellJson (places : Places) (v : Json) :
    JsonRespelled places v (respellJson spelling places v) := by
  induction places generalizing v with
  | nothing => rfl
  | address =>
    cases v with
    | string a => exact Or.inr ⟨a, spelling.spell a, rfl, rfl, spelling.same a⟩
    | _ => exact Or.inl rfl
  | members of ih =>
    cases v with
    | object fields =>
      refine Or.inr ⟨fields, _, rfl, rfl, ?_⟩
      rw [List.forall₂_map_right_iff]
      exact List.forall₂_same.mpr fun field _ => ⟨rfl, ih field.1 field.2⟩
    | _ => exact Or.inl rfl
  | items of ih =>
    cases v with
    | array items =>
      refine Or.inr ⟨items, _, rfl, rfl, ?_⟩
      rw [List.forall₂_map_right_iff]
      exact List.forall₂_same.mpr fun item _ => ih item
    | _ => exact Or.inl rfl

theorem get_respellJson (of : String → Places) (v : Json) (key : String) :
    (respellJson spelling (.members of) v).get key =
      (v.get key).map (respellJson spelling (of key)) := by
  cases v with
  | object fields =>
    show (fields.map fun field => (field.1, respellJson spelling (of field.1) field.2)).lookup key =
      (fields.lookup key).map (respellJson spelling (of key))
    induction fields with
    | nil => rfl
    | cons field fields ih =>
      obtain ⟨name, w⟩ := field
      rw [List.map_cons, List.lookup_cons, List.lookup_cons]
      by_cases hkey : key = name
      · subst hkey
        rw [beq_self_eq_true]
        rfl
      · rw [beq_false_of_ne hkey]
        exact ih
  | null => rfl
  | bool b => rfl
  | number text => rfl
  | string s => rfl
  | array items => rfl

theorem getStr_respellJson {of : String → Places} (v : Json) {key : String}
    (hof : of key = .address) :
    (respellJson spelling (.members of) v).getStr key = (v.getStr key).map spelling.spell := by
  rw [Json.getStr, Json.getStr, get_respellJson, hof]
  cases v.get key with
  | none => rfl
  | some w =>
    cases w with
    | _ => rfl

theorem asArray_respellJson (of : Places) (v : Json) :
    (respellJson spelling (.items of) v).asArray =
      v.asArray.map (List.map (respellJson spelling of)) := by
  cases v with
  | _ => rfl

theorem vecItems_respellJson (of : Places) (v : Json) :
    vecItems (respellJson spelling (vecPlaces of) v) =
      (vecItems v).map (List.map (respellJson spelling of)) := by
  unfold vecItems vecPlaces Places.fields
  rw [get_respellJson]
  cases v.get "vec" with
  | none => rfl
  | some w => exact asArray_respellJson spelling of w

/-! ## Texts -/

open Classical in
/-- A text of a value, if it has one. -/
noncomputable def textOf (sdk : Sdk) (v : Json) (default : String) : String :=
  if h : ∃ text, sdk.fromStr text = some v then h.choose else default

/-- A text of the value with other spellings; what is not read stays. -/
noncomputable def respellText (sdk : Sdk) (places : Option Places) (text : String) : String :=
  match places, sdk.fromStr text with
  | some places, some v => textOf sdk (respellJson spelling places v) text
  | _, _ => text

variable {sdk : AssetSdk} (hsdk : StandardSdk sdk)

include hsdk

theorem fromStr_respellText (places : Places) (text : String) :
    sdk.fromStr (respellText spelling sdk.toSdk (some places) text) =
      (sdk.fromStr text).map (respellJson spelling places) := by
  unfold respellText
  cases hv : sdk.fromStr text with
  | none => exact hv
  | some v =>
    have hwrites := hsdk.writes places text v _ hv (jsonRespelled_respellJson spelling places v)
    show sdk.fromStr (textOf _ _ _) = _
    rw [textOf, dif_pos hwrites]
    exact hwrites.choose_spec

theorem textRespelled_respellText (places : Option Places) (text : String) :
    TextRespelled sdk.toSdk places text (respellText spelling sdk.toSdk places text) := by
  cases places with
  | none => trivial
  | some places =>
    have hfrom := fromStr_respellText spelling hsdk places text
    cases hv : sdk.fromStr text with
    | none =>
      refine Or.inl ?_
      unfold respellText
      rw [hv]
    | some v =>
      rw [hv] at hfrom
      exact Or.inr ⟨v, _, hv, hfrom, jsonRespelled_respellJson spelling places v⟩

/-! ## Transactions -/

omit hsdk

noncomputable def respellEvent (sdk : Sdk) (event : Stream.Event) : Stream.Event :=
  { event with data := respellText spelling sdk (eventPlaces.lookup event.typeStr) event.data }

noncomputable def respellResource (sdk : Sdk) (wr : WriteResource) : WriteResource :=
  { wr with
    data := respellText spelling sdk
      (resourcePlaces.lookup (getOuterTypeFromWriteResource sdk wr)) wr.data }

noncomputable def respellChange (sdk : Sdk) : Protos.Change → Protos.Change
  | .writeResource wr params => .writeResource (respellResource spelling sdk wr) params
  | change => change

noncomputable def respellInfo (sdk : Sdk) (info : Stream.TransactionInfo) : Stream.TransactionInfo :=
  { info with changes := info.changes.map (respellChange spelling sdk) }

noncomputable def respellTxnData (sdk : Sdk) : Stream.TxnData → Stream.TxnData
  | .blockMetadata events => .blockMetadata (events.map (respellEvent spelling sdk))
  | .genesis events => .genesis (events.map (respellEvent spelling sdk))
  | .user request events => .user request (events.map (respellEvent spelling sdk))
  | .validator events => .validator (events.map (respellEvent spelling sdk))
  | .other => .other

/-- The transaction with the addresses in the data of its events and written resources spelled
in another way. -/
noncomputable def respellTxn (sdk : Sdk) (txn : Stream.Transaction) : Stream.Transaction :=
  { txn with
    info := txn.info.map (respellInfo spelling sdk)
    txnData := txn.txnData.map (respellTxnData spelling sdk) }

/-- The same of a transaction as the parser has it. -/
noncomputable def respellCtx (sdk : Sdk) (ctx : TxnContext) : TxnContext :=
  { ctx with
    transactionInfo := respellInfo spelling sdk ctx.transactionInfo
    events := ctx.events.map (respellEvent spelling sdk) }

include hsdk

theorem respellEvents (events : List Stream.Event) :
    List.Forall₂ (EventRespelled sdk.toSdk) events
      (events.map (respellEvent spelling sdk.toSdk)) := by
  rw [List.forall₂_map_right_iff]
  refine List.forall₂_same.mpr fun event _ => ⟨?_, rfl, textRespelled_respellText spelling hsdk _ _⟩
  exact rel_refl (fun key => ⟨SameAddress.refl _, rfl⟩) _

theorem changeRespelled_respellChange (change : Protos.Change) :
    ChangeRespelled sdk.toSdk change (respellChange spelling sdk.toSdk change) := by
  cases change with
  | writeResource wr params =>
    exact .writeResource params ⟨SameAddress.refl _, rfl, rfl,
      textRespelled_respellText spelling hsdk _ _⟩
  | deleteResource dr params => exact .deleteResource params ⟨SameAddress.refl _, rfl, rfl⟩
  | writeTableItem item => exact .writeTableItem item
  | deleteTableItem item => exact .deleteTableItem item
  | other => exact .other

theorem infoRespelled_respellInfo (info : Stream.TransactionInfo) :
    InfoRespelled sdk.toSdk info (respellInfo spelling sdk.toSdk info) := by
  refine ⟨rfl, rfl, ?_⟩
  show List.Forall₂ _ info.changes (info.changes.map _)
  rw [List.forall₂_map_right_iff]
  exact List.forall₂_same.mpr fun change _ => changeRespelled_respellChange spelling hsdk change

theorem txnRespelled_respellTxn (txn : Stream.Transaction) :
    TxnRespelled sdk.toSdk txn (respellTxn spelling sdk.toSdk txn) := by
  refine ⟨rfl, rfl, rfl, rfl, ?_, ?_⟩
  · show Option.Rel _ txn.info (txn.info.map _)
    cases txn.info with
    | none => exact .none
    | some info => exact .some (infoRespelled_respellInfo spelling hsdk info)
  · show Option.Rel _ txn.txnData (txn.txnData.map _)
    cases txn.txnData with
    | none => exact .none
    | some txnData =>
      refine .some ?_
      cases txnData with
      | blockMetadata events => exact .blockMetadata (respellEvents spelling hsdk events)
      | genesis events => exact .genesis (respellEvents spelling hsdk events)
      | user request events => exact .user request (respellEvents spelling hsdk events)
      | validator events => exact .validator (respellEvents spelling hsdk events)
      | other => exact .other

theorem ctxRespelled_respellCtx (ctx : TxnContext) :
    CtxRespelled sdk.toSdk ctx (respellCtx spelling sdk.toSdk ctx) :=
  ⟨rfl, rfl, rfl, rfl, infoRespelled_respellInfo spelling hsdk ctx.transactionInfo,
    respellEvents spelling hsdk ctx.events, rfl⟩

omit hsdk in
theorem contextOf_respellTxn (txn : Stream.Transaction) :
    contextOf sdk (respellTxn spelling sdk.toSdk txn) =
      (contextOf sdk txn).map (respellCtx spelling sdk.toSdk) := by
  obtain ⟨version, height, epoch, timestamp, info, txnData⟩ := txn
  cases txnData with
  | none => rfl
  | some txnData =>
    cases info with
    | none => rfl
    | some info =>
      cases timestamp with
      | none => rfl
      | some timestamp =>
        unfold contextOf txnContextOf
        show Option.join ((sdk.fromTimestampOpt timestamp.seconds 0).bind fun txnTimestamp => _) =
          (Option.join ((sdk.fromTimestampOpt timestamp.seconds 0).bind fun txnTimestamp => _)).map _
        cases sdk.fromTimestampOpt timestamp.seconds 0 with
        | none => rfl
        | some txnTimestamp =>
          cases txnData with
          | blockMetadata events => rfl
          | genesis events => rfl
          | user request events =>
            cases request with
            | none => rfl
            | some request => rfl
          | validator events => rfl
          | other => rfl

/-! ## Deletion events -/

omit hsdk

def respellDeletion (event : FungibleAssetStoreDeletionEvent) : FungibleAssetStoreDeletionEvent where
  metadata := spelling.spell event.metadata
  owner := spelling.spell event.owner
  store := spelling.spell event.store

theorem deletionEvent_ofJson_respellJson (v : Json) :
    FungibleAssetStoreDeletionEvent.ofJson (respellJson spelling
        (.fields [("metadata", .address), ("owner", .address), ("store", .address)]) v) =
      (FungibleAssetStoreDeletionEvent.ofJson v).map (respellDeletion spelling) := by
  have hmember : ∀ key, key = "metadata" ∨ key = "owner" ∨ key = "store" →
      (respellJson spelling
        (.fields [("metadata", .address), ("owner", .address), ("store", .address)]) v).getStr key =
        (v.getStr key).map spelling.spell := by
    rintro key (rfl | rfl | rfl)
    · exact getStr_respellJson spelling v rfl
    · exact getStr_respellJson spelling v rfl
    · exact getStr_respellJson spelling v rfl
  unfold FungibleAssetStoreDeletionEvent.ofJson
  rw [hmember "metadata" (by simp), hmember "owner" (by simp), hmember "store" (by simp)]
  cases v.getStr "metadata" with
  | none => rfl
  | some metadata =>
    cases v.getStr "owner" with
    | none => rfl
    | some owner =>
      cases v.getStr "store" with
      | none => rfl
      | some store => rfl

include hsdk

theorem deletionsOf_respellCtx (ctx : TxnContext) :
    deletionsOf sdk (respellCtx spelling sdk.toSdk ctx) =
      (deletionsOf sdk ctx).map (respellDeletion spelling) := by
  show (ctx.events.map (respellEvent spelling sdk.toSdk)).filterMap _ = _
  rw [deletionsOf, List.filterMap_map, List.map_filterMap]
  refine List.filterMap_congr fun event _ => ?_
  rw [Function.comp_apply, deletionEvent_eq, deletionEvent_eq]
  show Option.join (if event.typeStr = deletionType then _ else _) = _
  by_cases htype : event.typeStr = deletionType
  · rw [if_pos htype, if_pos htype]
    have hplaces : eventPlaces.lookup event.typeStr =
        some (.fields [("metadata", .address), ("owner", .address), ("store", .address)]) := by
      rw [htype]
      rfl
    have hdata : sdk.fromStr (respellEvent spelling sdk.toSdk event).data =
        (sdk.fromStr event.data).map (respellJson spelling
          (.fields [("metadata", .address), ("owner", .address), ("store", .address)])) := by
      rw [respellEvent, hplaces]
      exact fromStr_respellText spelling hsdk _ _
    rw [hdata]
    cases sdk.fromStr event.data with
    | none => rfl
    | some v =>
      show Option.join ((FungibleAssetStoreDeletionEvent.ofJson (respellJson spelling _ v)).map some) =
        (Option.join ((FungibleAssetStoreDeletionEvent.ofJson v).map some)).map (respellDeletion spelling)
      rw [deletionEvent_ofJson_respellJson]
      cases FungibleAssetStoreDeletionEvent.ofJson v with
      | none => rfl
      | some event => rfl
  · rw [if_neg htype, if_neg htype]
    rfl

/-! ## Aggregators -/

omit hsdk

def respellAggregator (aggregator : AggregatorResource) : AggregatorResource where
  handle := spelling.spell aggregator.handle
  key := spelling.spell aggregator.key

def respellSupplyItem (item : OptionalAggregatorResource) : OptionalAggregatorResource where
  aggregator := item.aggregator.map (respellAggregator spelling)

def respellCoinInfo (info : CoinInfoResource) : CoinInfoResource :=
  { info with supply := info.supply.map (respellSupplyItem spelling) }

theorem aggregator_respellJson (v : Json) :
    AggregatorResource.ofJson (respellJson spelling aggregatorPlaces v) =
      (AggregatorResource.ofJson v).map (respellAggregator spelling) := by
  have hhandle : (respellJson spelling aggregatorPlaces v).getStr "handle" =
      (v.getStr "handle").map spelling.spell := getStr_respellJson spelling v rfl
  have hkey : (respellJson spelling aggregatorPlaces v).getStr "key" =
      (v.getStr "key").map spelling.spell := getStr_respellJson spelling v rfl
  unfold AggregatorResource.ofJson
  rw [hhandle, hkey]
  cases v.getStr "handle" with
  | none => rfl
  | some handle =>
    cases v.getStr "key" with
    | none => rfl
    | some key => rfl

/-- The parsed items of a vector. -/
theorem mapM_vecItems_respellJson {α : Type} {ofJson : Json → Option α} {places : Places}
    {respelled : α → α}
    (hof : ∀ v, ofJson (respellJson spelling places v) = (ofJson v).map respelled) (v : Json) :
    ((vecItems (respellJson spelling (vecPlaces places) v)).bind fun items => items.mapM ofJson) =
      ((vecItems v).bind fun items => items.mapM ofJson).map (List.map respelled) := by
  rw [vecItems_respellJson]
  cases vecItems v with
  | none => rfl
  | some items =>
    show (items.map (respellJson spelling places)).mapM ofJson =
      (items.mapM ofJson).map (List.map respelled)
    rw [List.mapM_map, ← mapM_map_results]
    exact congrArg (fun f => items.mapM f) (funext hof)

theorem supplyItem_respellJson (sdk : Sdk) (v : Json) :
    OptionalAggregatorResource.ofJson sdk (respellJson spelling supplyItemPlaces v) =
      (OptionalAggregatorResource.ofJson sdk v).map (respellSupplyItem spelling) := by
  have haggregator : (respellJson spelling supplyItemPlaces v).get "aggregator" =
      (v.get "aggregator").map (respellJson spelling (vecPlaces aggregatorPlaces)) :=
    get_respellJson spelling _ v "aggregator"
  -- Only the aggregator has addresses. Of the integer it only matters whether it can be read.
  have hinteger : (respellJson spelling supplyItemPlaces v).get "integer" = v.get "integer" :=
    (get_respellJson spelling _ v "integer").trans Option.map_id'
  unfold OptionalAggregatorResource.ofJson
  rw [haggregator, hinteger]
  cases v.get "aggregator" with
  | none => rfl
  | some w =>
    show ((vecItems (respellJson spelling (vecPlaces aggregatorPlaces) w)).bind fun items =>
        (items.mapM AggregatorResource.ofJson).bind fun aggregator =>
          (v.get "integer").bind fun integer => (vecItems integer).bind fun items =>
            (items.mapM fun item : Json => item.getBigDecimal sdk "value").bind fun _ =>
              some (OptionalAggregatorResource.mk aggregator)) =
      ((vecItems w).bind fun items =>
        (items.mapM AggregatorResource.ofJson).bind fun aggregator =>
          (v.get "integer").bind fun integer => (vecItems integer).bind fun items =>
            (items.mapM fun item : Json => item.getBigDecimal sdk "value").bind fun _ =>
              some (OptionalAggregatorResource.mk aggregator)).map _
    rw [← Option.bind_assoc, ← Option.bind_assoc,
      mapM_vecItems_respellJson spelling (aggregator_respellJson spelling)]
    cases (vecItems w).bind fun items => items.mapM AggregatorResource.ofJson with
    | none => rfl
    | some aggregator =>
      show ((v.get "integer").bind fun integer => _) = ((v.get "integer").bind fun integer => _).map _
      cases v.get "integer" with
      | none => rfl
      | some integer =>
        show ((vecItems integer).bind fun items => _) = ((vecItems integer).bind fun items => _).map _
        cases vecItems integer with
        | none => rfl
        | some items =>
          show ((items.mapM fun item : Json => item.getBigDecimal sdk "value").bind fun _ => _) =
            ((items.mapM fun item : Json => item.getBigDecimal sdk "value").bind fun _ => _).map _
          cases items.mapM fun item : Json => item.getBigDecimal sdk "value" with
          | none => rfl
          | some values => rfl

theorem coinInfo_respellJson (sdk : AssetSdk) (v : Json) :
    CoinInfoResource.ofJson sdk (respellJson spelling coinInfoPlaces v) =
      (CoinInfoResource.ofJson sdk v).map (respellCoinInfo spelling) := by
  have hsupply : (respellJson spelling coinInfoPlaces v).get "supply" =
      (v.get "supply").map (respellJson spelling (vecPlaces supplyItemPlaces)) :=
    get_respellJson spelling _ v "supply"
  -- The supply is the only member with addresses.
  have hother : ∀ key, key = "name" ∨ key = "symbol" ∨ key = "decimals" →
      (respellJson spelling coinInfoPlaces v).get key = v.get key := by
    rintro key (rfl | rfl | rfl)
    · exact (get_respellJson spelling _ v "name").trans Option.map_id'
    · exact (get_respellJson spelling _ v "symbol").trans Option.map_id'
    · exact (get_respellJson spelling _ v "decimals").trans Option.map_id'
  unfold CoinInfoResource.ofJson Json.getStr
  rw [hsupply, hother "name" (by simp), hother "symbol" (by simp), hother "decimals" (by simp)]
  cases (v.get "name").bind Json.asStr with
  | none => rfl
  | some name =>
    show (((v.get "symbol").bind Json.asStr).bind fun symbol => _) =
      (((v.get "symbol").bind Json.asStr).bind fun symbol => _).map _
    cases (v.get "symbol").bind Json.asStr with
    | none => rfl
    | some symbol =>
      show (((v.get "decimals").bind sdk.i32).bind fun decimals => _) =
        (((v.get "decimals").bind sdk.i32).bind fun decimals => _).map _
      cases (v.get "decimals").bind sdk.i32 with
      | none => rfl
      | some decimals =>
        cases v.get "supply" with
        | none => rfl
        | some w =>
          show ((vecItems (respellJson spelling (vecPlaces supplyItemPlaces) w)).bind fun items =>
              (items.mapM (OptionalAggregatorResource.ofJson sdk.toSdk)).bind fun supply =>
                some (CoinInfoResource.mk name symbol decimals supply)) =
            ((vecItems w).bind fun items =>
              (items.mapM (OptionalAggregatorResource.ofJson sdk.toSdk)).bind fun supply =>
                some (CoinInfoResource.mk name symbol decimals supply)).map _
          rw [← Option.bind_assoc, ← Option.bind_assoc,
            mapM_vecItems_respellJson spelling (supplyItem_respellJson spelling sdk.toSdk)]
          cases (vecItems w).bind fun items =>
              items.mapM (OptionalAggregatorResource.ofJson sdk.toSdk) with
          | none => rfl
          | some supply => rfl

theorem getAggregatorMetadata_respellCoinInfo (info : CoinInfoResource) :
    (respellCoinInfo spelling info).getAggregatorMetadata =
      info.getAggregatorMetadata.map (respellAggregator spelling) := by
  obtain ⟨name, symbol, decimals, supply⟩ := info
  cases supply with
  | nil => rfl
  | cons item supply =>
    obtain ⟨aggregator⟩ := item
    cases aggregator with
    | nil => rfl
    | cons aggregator rest => rfl

/-- The metadata that is written, with its aggregator spelled in another way. -/
def respellWrite (write : String × Option AggregatorResource) : String × Option AggregatorResource :=
  (write.1, write.2.map (respellAggregator spelling))

include hsdk

theorem coinInfoWrite_respellResource (wr : WriteResource) (params : List MoveType) :
    coinInfoWrite sdk (respellResource spelling sdk.toSdk wr) params =
      (coinInfoWrite sdk wr params).map (respellWrite spelling) := by
  -- Respelling goes through the reading of the resource, member by member.
  have hinfo : fromWriteResource sdk.toSdk typeCoinInfo (CoinInfoResource.ofJson sdk)
        (respellResource spelling sdk.toSdk wr) =
      (fromWriteResource sdk.toSdk typeCoinInfo (CoinInfoResource.ofJson sdk) wr).map
        (Option.map (respellCoinInfo spelling)) := by
    unfold fromWriteResource
    show (if getOuterTypeFromWriteResource sdk.toSdk wr = typeCoinInfo then _ else _) = _
    by_cases htype : getOuterTypeFromWriteResource sdk.toSdk wr = typeCoinInfo
    · rw [if_pos htype, if_pos htype]
      have hdata : sdk.fromStr (respellResource spelling sdk.toSdk wr).data =
          (sdk.fromStr wr.data).map (respellJson spelling coinInfoPlaces) := by
        rw [respellResource, htype]
        exact fromStr_respellText spelling hsdk _ _
      rw [hdata]
      cases sdk.fromStr wr.data with
      | none => rfl
      | some v =>
        show (CoinInfoResource.ofJson sdk (respellJson spelling coinInfoPlaces v)).map some =
          ((CoinInfoResource.ofJson sdk v).map some).map _
        rw [coinInfo_respellJson]
        cases CoinInfoResource.ofJson sdk v with
        | none => rfl
        | some info => rfl
    · rw [if_neg htype, if_neg htype]
      rfl
  unfold coinInfoWrite
  rw [hinfo]
  cases fromWriteResource sdk.toSdk typeCoinInfo (CoinInfoResource.ofJson sdk) wr with
  | none => rfl
  | some info =>
    cases info with
    | none => rfl
    | some info =>
      show ((coinTypeFromMoveType params wr.typeStr).bind getCoinTypeBelowMax).bind (fun assetType =>
          some (assetType, (respellCoinInfo spelling info).getAggregatorMetadata)) =
        (((coinTypeFromMoveType params wr.typeStr).bind getCoinTypeBelowMax).bind fun assetType =>
          some (assetType, info.getAggregatorMetadata)).map _
      rw [getAggregatorMetadata_respellCoinInfo]
      cases (coinTypeFromMoveType params wr.typeStr).bind getCoinTypeBelowMax with
      | none => rfl
      | some assetType => rfl

theorem objectAddresses_respellCtx (ctx : TxnContext) :
    objectAddresses sdk (respellCtx spelling sdk.toSdk ctx) = objectAddresses sdk ctx := by
  show (ctx.transactionInfo.changes.map (respellChange spelling sdk.toSdk)).filterMap _ = _
  rw [objectAddresses, List.filterMap_map]
  refine List.filterMap_congr fun change _ => ?_
  have hrel := rel_newObjectOf hsdk (changeRespelled_respellChange spelling hsdk change)
  have hjoin := rel_bind hrel fun _ _ h => h
  exact (map_congr_rel hjoin fun entry entry' hentry => hentry.1).symm

/-- The metadata of a fungible asset has no aggregator to spell. -/
theorem assetMetadataWrite_respellResource (ctx : TxnContext) (wr : WriteResource) :
    assetMetadataWrite sdk (respellCtx spelling sdk.toSdk ctx)
        (respellResource spelling sdk.toSdk wr) =
      (assetMetadataWrite sdk ctx wr).map (respellWrite spelling) := by
  have hwr : ResourceRespelled sdk.toSdk wr (respellResource spelling sdk.toSdk wr) :=
    ⟨SameAddress.refl _, rfl, rfl, textRespelled_respellText spelling hsdk _ _⟩
  unfold assetMetadataWrite
  rw [← fromWriteResource_respelled hwr rfl, objectAddresses_respellCtx spelling hsdk]
  cases (fromWriteResource sdk.toSdk typeFungibleAssetMetadata
      (FungibleAssetMetadata.ofJson sdk) wr).join with
  | none => rfl
  | some inner =>
    show (if sdk.standardizeAddress wr.address ∈ objectAddresses sdk ctx then _ else _) =
      Option.map _ (if sdk.standardizeAddress wr.address ∈ objectAddresses sdk ctx then _ else _)
    by_cases hmem : sdk.standardizeAddress wr.address ∈ objectAddresses sdk ctx
    · rw [if_pos hmem, if_pos hmem]
      rfl
    · rw [if_neg hmem, if_neg hmem]
      rfl

theorem metadataWrites_respellTxn (transactions : List Stream.Transaction) :
    metadataWrites sdk (transactions.map (respellTxn spelling sdk.toSdk)) =
      (metadataWrites sdk transactions).map (respellWrite spelling) := by
  unfold metadataWrites
  rw [List.flatMap_map, List.map_flatMap]
  refine List.flatMap_congr fun txn _ => ?_
  rw [contextOf_respellTxn]
  cases contextOf sdk txn with
  | none => rfl
  | some ctx =>
    show (ctx.transactionInfo.changes.map (respellChange spelling sdk.toSdk)).flatMap _ =
      (ctx.transactionInfo.changes.flatMap (metadataWritesOf sdk ctx)).map _
    rw [List.flatMap_map, List.map_flatMap]
    refine List.flatMap_congr fun change _ => ?_
    cases change with
    | writeResource wr params =>
      show (coinInfoWrite sdk (respellResource spelling sdk.toSdk wr) params).toList ++
          (assetMetadataWrite sdk (respellCtx spelling sdk.toSdk ctx)
            (respellResource spelling sdk.toSdk wr)).toList =
        ((coinInfoWrite sdk wr params).toList ++ (assetMetadataWrite sdk ctx wr).toList).map _
      rw [coinInfoWrite_respellResource spelling hsdk,
        assetMetadataWrite_respellResource spelling hsdk, List.map_append, Option.toList_map,
        Option.toList_map]
    | deleteResource dr params => rfl
    | writeTableItem item => rfl
    | deleteTableItem item => rfl
    | other => rfl

end IndexerProcessors.FungibleAsset

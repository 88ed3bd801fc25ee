import IndexerProcessors.Objects.Life

/-!
# Objects and batches

The processor follows the life of an object as long as no transaction of a batch writes a
resource at the address without the core, after one that has written the core
(`lookup_runSequential`). Where one does, the core of the earlier transaction is used, and
the row depends on how the transactions are cut into batches.
`objects_batching_independent` — without such writes it does not;
`stray_write_revives_object` — with one it does.
-/

namespace IndexerProcessors.Objects

open IndexerProcessors.Lib
open IndexerProcessors.WriteSet

variable {sdk : Sdk} {conn : ObjectConn} {queryRetries : ℕ} {address : String}

/-! ## A batch -/

/-- A batch without stray writes treats the object as its life says. -/
theorem life_processObjects {db : ObjectsDb} {batch : List WriteSet.Transaction}
    {out : ProcessState} (hretries : 0 < queryRetries)
    (hstray : NoStrayWrites sdk address batch)
    (h : processObjects sdk db.conn queryRetries batch = some out) :
    out.life db address =
      batch.foldl (.transaction sdk address) ⟨[], db.currentObjects.lookup address⟩ := by
  have hbatch := foldlM_prefix (P := fun done st =>
      (st.objectMetadataHelper.lookup address ≠ none → ∃ txn ∈ done, WritesCore sdk address txn) ∧
      st.life db address = done.foldl (.transaction sdk address)
        ⟨[], db.currentObjects.lookup address⟩) h ?_ ?_
  · exact hbatch.2
  · refine ⟨fun hknown => absurd (AList.lookup_empty address) hknown, ?_⟩
    have hempty : (∅ : Table String CurrentObject).lookup address = none := AList.lookup_empty _
    show (⟨[], ((∅ : Table String CurrentObject).lookup address).or
      (db.currentObjects.lookup address)⟩ : ObjectLife) = _
    rw [hempty, Option.none_or]
    rfl
  · intro done txn st st' hdone hst hstep
    have hpair := List.pairwise_append.mp (hstray.sublist hdone.sublist)
    refine ⟨?_, ?_⟩
    · intro hknown
      rcases helper_processTransaction hstep hknown with hbefore | hcore
      · obtain ⟨txn', htxn', hcore⟩ := hst.1 hbefore
        exact ⟨txn', List.mem_append_left _ htxn', hcore⟩
      · exact ⟨txn, List.mem_append_right _ (List.mem_singleton.mpr rfl), hcore⟩
    · rw [List.foldl_append, ← hst.2]
      refine life_processTransaction hretries hstep ?_
      intro hknown
      obtain ⟨txn', htxn', hcore⟩ := hst.1 hknown
      exact hpair.2.2 txn' htxn' txn (List.mem_singleton.mpr rfl) hcore

/-- The keys a batch can give to rows. -/
def batchKeys (batch : List WriteSet.Transaction) : List (Int64 × ℕ) :=
  batch.flatMap fun txn => ((transactionChanges txn).getD []).zipIdx.map fun change =>
    (txn.txnVersion, change.2)

/-- Each change has a key of its own. -/
theorem nodup_batchKeys {batch : List WriteSet.Transaction} (horder : WriteSet.InOrder batch) :
    (batchKeys batch).Nodup := by
  unfold batchKeys
  rw [List.nodup_flatMap]
  refine ⟨?_, ?_⟩
  · intro txn _
    have hindices : (((transactionChanges txn).getD []).zipIdx.map Prod.snd).Nodup := by
      rw [List.zipIdx_map_snd]
      exact List.nodup_range'
    rw [← Function.comp_def (fun index => (txn.txnVersion, index)) Prod.snd, ← List.map_map]
    exact hindices.map (Prod.mk_right_injective _)
  · refine horder.imp ?_
    intro txn txn' hlt key hkey hkey'
    obtain ⟨change, -, rfl⟩ := List.mem_map.mp hkey
    obtain ⟨change', -, heq⟩ := List.mem_map.mp hkey'
    exact absurd (congrArg Prod.fst heq).symm (ne_of_lt hlt)

/-- A step of the third pass adds at most the row of its change. -/
theorem addObject_cases (sdk : Sdk) (conn : ObjectConn) (txnVersion : Int64) (st : ProcessState)
    (change : WriteSet.Change × ℕ) :
    addObject sdk conn queryRetries txnVersion st change = st ∨
      ∃ object current, object.pk = (txnVersion, change.2) ∧
        current.objectAddress = object.objectAddress ∧
        current.lastTransactionVersion = txnVersion ∧
        addObject sdk conn queryRetries txnVersion st change =
          { st with
            allObjects := st.allObjects ++ [object]
            allCurrentObjects := st.allCurrentObjects.insert object.objectAddress current } := by
  unfold addObject
  split
  next object current hchange =>
    obtain ⟨haddress, hpk, hversion⟩ := changeObject_spec hchange
    exact Or.inr ⟨object, current, hpk, haddress, hversion, rfl⟩
  next => exact Or.inl rfl

theorem foldl_addObject_keys (sdk : Sdk) (conn : ObjectConn) (txnVersion : Int64)
    (changes : List (WriteSet.Change × ℕ)) (st : ProcessState) :
    ((changes.foldl (addObject sdk conn queryRetries txnVersion) st).allObjects.map
        Object.pk).Sublist
      (st.allObjects.map Object.pk ++ changes.map fun change => (txnVersion, change.2)) := by
  induction changes generalizing st with
  | nil => simp
  | cons change changes ih =>
    rw [List.foldl_cons, List.map_cons, ← List.singleton_append, ← List.append_assoc]
    refine (ih _).trans (List.Sublist.append_right ?_ _)
    rcases addObject_cases sdk conn txnVersion st change with
      heq | ⟨object, current, hpk, -, -, heq⟩
    · rw [heq]
      exact List.sublist_append_left _ _
    · rw [heq, List.map_append, List.map_singleton, hpk]

theorem foldl_addObject_current (sdk : Sdk) (conn : ObjectConn) (txnVersion : Int64)
    (changes : List (WriteSet.Change × ℕ)) (st : ProcessState) {a : String} {row : CurrentObject}
    (h : (changes.foldl (addObject sdk conn queryRetries txnVersion) st).allCurrentObjects.lookup
      a = some row) :
    st.allCurrentObjects.lookup a = some row ∨
      row.objectAddress = a ∧ row.lastTransactionVersion = txnVersion := by
  induction changes generalizing st with
  | nil => exact Or.inl h
  | cons change changes ih =>
    rcases ih _ h with hbefore | hnew
    · rcases addObject_cases sdk conn txnVersion st change with
        heq | ⟨object, current, -, haddress, hversion, heq⟩
      · exact Or.inl (heq ▸ hbefore)
      · rw [heq] at hbefore
        change (st.allCurrentObjects.insert object.objectAddress current).lookup a = _ at hbefore
        by_cases ha : a = object.objectAddress
        · subst ha
          obtain rfl := Option.some.inj ((AList.lookup_insert _).symm.trans hbefore)
          exact Or.inr ⟨haddress, hversion⟩
        · rw [AList.lookup_insert_ne ha] at hbefore
          exact Or.inl hbefore
    · exact Or.inr hnew

/-- What the rows of a batch have to do with its transactions. -/
structure OfBatch (batch : List WriteSet.Transaction) (out : ProcessState) : Prop where
  keys : (out.allObjects.map Object.pk).Sublist (batchKeys batch)
  current : ∀ a row, out.allCurrentObjects.lookup a = some row → row.objectAddress = a ∧
    ∃ txn ∈ batch, row.lastTransactionVersion = txn.txnVersion

theorem ofBatch_processObjects {batch : List WriteSet.Transaction} {out : ProcessState}
    (h : processObjects sdk conn queryRetries batch = some out) : OfBatch batch out := by
  refine foldlM_prefix (P := OfBatch) h ⟨List.nil_sublist _, ?_⟩ ?_
  · intro a row hrow
    cases (AList.lookup_empty a).symm.trans hrow
  · intro done txn st st' _ hst hstep
    obtain ⟨changes, mapping₁, mapping₂, hchanges, -, -, rfl⟩ := processTransaction_eq_some hstep
    refine ⟨?_, ?_⟩
    · refine (foldl_addObject_keys sdk conn txn.txnVersion _ _).trans ?_
      rw [batchKeys, List.flatMap_append, List.flatMap_singleton, hchanges]
      exact List.Sublist.append_right hst.keys _
    · intro a row hrow
      rcases foldl_addObject_current sdk conn txn.txnVersion _ _ hrow with hbefore | ⟨ha, hversion⟩
      · obtain ⟨ha, txn', htxn', hversion⟩ := hst.current a row hbefore
        exact ⟨ha, txn', List.mem_append_left _ htxn', hversion⟩
      · exact ⟨ha, txn, List.mem_append_right _ (List.mem_singleton.mpr rfl), hversion⟩

theorem exists_txn_of_mem_batchKeys {batch : List WriteSet.Transaction} {key : Int64 × ℕ}
    (h : key ∈ batchKeys batch) : ∃ txn ∈ batch, key.1 = txn.txnVersion := by
  obtain ⟨txn, htxn, hkey⟩ := List.mem_flatMap.mp h
  obtain ⟨change, -, rfl⟩ := List.mem_map.mp hkey
  exact ⟨txn, htxn, rfl⟩

/-! ## The tables after a batch -/

/-- Every row of the tables is of a transaction of the history, and stands at its key. -/
structure OfHistory (history : List WriteSet.Transaction) (db : ObjectsDb) : Prop where
  objects : ∀ key row, db.objects.lookup key = some row → row.pk = key ∧
    ∃ txn ∈ history, key.1 = txn.txnVersion
  current : ∀ a row, db.currentObjects.lookup a = some row → row.objectAddress = a ∧
    ∃ txn ∈ history, row.lastTransactionVersion = txn.txnVersion

theorem ofHistory_init : OfHistory [] ⟨∅, ∅⟩ := by
  refine ⟨?_, ?_⟩
  · intro key row hrow
    cases (AList.lookup_empty key).symm.trans hrow
  · intro a row hrow
    cases (AList.lookup_empty a).symm.trans hrow

section Store

variable {history batch : List WriteSet.Transaction} {db : ObjectsDb} {out : ProcessState}

/-- A batch that comes after the history replaces the rows it has. -/
theorem lookup_store_current (horder : WriteSet.InOrder (history ++ batch))
    (hdb : OfHistory history db) (hout : OfBatch batch out) (a : String) :
    (db.store out).currentObjects.lookup a =
      (out.allCurrentObjects.lookup a).or (db.currentObjects.lookup a) := by
  cases hnew : out.allCurrentObjects.lookup a with
  | none =>
    rw [Option.none_or]
    refine Table.lookup_upsertAll_of_notMem _ _ _ ?_
    intro hmem
    obtain ⟨⟨key, row⟩, hrow, rfl⟩ := List.mem_map.mp hmem
    cases hnew.symm.trans (Table.mem_rows.mp hrow)
  | some row =>
    rw [Option.some_or]
    refine (Table.lookup_upsertAll_of_mem _ _ _ (Table.nodup_rows_keys _)
      (Table.mem_rows.mpr hnew)).trans (congrArg some ?_)
    cases hold : db.currentObjects.lookup a with
    | none => rfl
    | some old =>
      obtain ⟨ha, txn, htxn, hversion⟩ := hout.current a row hnew
      obtain ⟨ha', txn', htxn', hversion'⟩ := hdb.current a old hold
      have hlt := (List.pairwise_append.mp horder).2.2 txn' htxn' txn htxn
      have hle : old.lastTransactionVersion ≤ row.lastTransactionVersion := by
        rw [hversion, hversion']
        exact le_of_lt hlt
      show currentObjectQuery old row = row
      rw [currentObjectQuery_eq_later (ha'.trans ha.symm), later, if_pos hle]

/-- The rows of a batch are added to those of the history. -/
theorem lookup_store_objects (horder : WriteSet.InOrder (history ++ batch))
    (hdb : OfHistory history db) (hout : OfBatch batch out) (key : Int64 × ℕ) (row : Object) :
    (db.store out).objects.lookup key = some row ↔
      db.objects.lookup key = some row ∨ row ∈ out.allObjects ∧ row.pk = key := by
  obtain ⟨-, hbatch, hbefore⟩ := List.pairwise_append.mp horder
  have hkeys : ((out.allObjects.map fun object => (object.pk, object)).map Prod.fst) =
      out.allObjects.map Object.pk := by
    rw [List.map_map]
    rfl
  have hnodup : (out.allObjects.map Object.pk).Nodup :=
    (nodup_batchKeys hbatch).sublist hout.keys
  by_cases hkey : key ∈ out.allObjects.map Object.pk
  · -- a key of the batch is not one of the history
    have hfree : db.objects.lookup key = none := by
      rw [Option.eq_none_iff_forall_ne_some]
      intro old hold
      obtain ⟨-, txn', htxn', hversion'⟩ := hdb.objects key old hold
      obtain ⟨txn, htxn, hversion⟩ := exists_txn_of_mem_batchKeys (hout.keys.subset hkey)
      exact absurd (hversion'.symm.trans hversion) (ne_of_lt (hbefore txn' htxn' txn htxn))
    obtain ⟨object, hobject, rfl⟩ := List.mem_map.mp hkey
    have hlookup : (db.store out).objects.lookup object.pk = some object := by
      have hmem : (object.pk, object) ∈ out.allObjects.map fun object => (object.pk, object) :=
        List.mem_map.mpr ⟨object, hobject, rfl⟩
      refine (Table.lookup_upsertAll_of_mem _ _ _ (hkeys ▸ hnodup) hmem).trans ?_
      rw [hfree]
      rfl
    rw [hlookup, hfree]
    constructor
    · intro h
      obtain rfl := Option.some.inj h
      exact Or.inr ⟨hobject, rfl⟩
    · rintro (h | ⟨hrow, hpk⟩)
      · cases h
      · rw [List.inj_on_of_nodup_map hnodup hrow hobject hpk]
  · have hlookup : (db.store out).objects.lookup key = db.objects.lookup key :=
      Table.lookup_upsertAll_of_notMem _ _ _ (hkeys ▸ hkey)
    rw [hlookup]
    constructor
    · exact Or.inl
    · rintro (h | ⟨hrow, hpk⟩)
      · exact h
      · exact absurd (List.mem_map.mpr ⟨row, hrow, hpk⟩) hkey

theorem OfHistory.store (horder : WriteSet.InOrder (history ++ batch))
    (hdb : OfHistory history db) (hout : OfBatch batch out) :
    OfHistory (history ++ batch) (db.store out) := by
  refine ⟨?_, ?_⟩
  · intro key row hrow
    rcases (lookup_store_objects horder hdb hout key row).mp hrow with hold | ⟨hnew, hpk⟩
    · obtain ⟨hpk, txn, htxn, hversion⟩ := hdb.objects key row hold
      exact ⟨hpk, txn, List.mem_append_left _ htxn, hversion⟩
    · have hkey : key ∈ batchKeys batch := hout.keys.subset (List.mem_map.mpr ⟨row, hnew, hpk⟩)
      obtain ⟨txn, htxn, hversion⟩ := exists_txn_of_mem_batchKeys hkey
      exact ⟨hpk, txn, List.mem_append_right _ htxn, hversion⟩
  · intro a row hrow
    rw [lookup_store_current horder hdb hout] at hrow
    rcases Option.or_eq_some_iff.mp hrow with hnew | ⟨-, hold⟩
    · obtain ⟨ha, txn, htxn, hversion⟩ := hout.current a row hnew
      exact ⟨ha, txn, List.mem_append_right _ htxn, hversion⟩
    · obtain ⟨ha, txn, htxn, hversion⟩ := hdb.current a row hold
      exact ⟨ha, txn, List.mem_append_left _ htxn, hversion⟩

end Store

/-! ## The tables after a run -/

/-- The tables have the rows of an object as its life has them. -/
structure Follows (sdk : Sdk) (address : String) (history : List WriteSet.Transaction)
    (db : ObjectsDb) : Prop where
  current : db.currentObjects.lookup address = (objectLife sdk address history).current
  rows : ∀ key row, row.objectAddress = address → (db.objects.lookup key = some row ↔
    row ∈ (objectLife sdk address history).rows ∧ row.pk = key)

theorem follows_init : Follows sdk address [] ⟨∅, ∅⟩ := by
  refine ⟨AList.lookup_empty _, ?_⟩
  intro key row _
  refine ⟨?_, ?_⟩
  · intro hrow
    cases (AList.lookup_empty key).symm.trans hrow
  · rintro ⟨hrow, -⟩
    cases hrow

theorem Follows.store {history batch : List WriteSet.Transaction} {db : ObjectsDb}
    {out : ProcessState} (hretries : 0 < queryRetries)
    (horder : WriteSet.InOrder (history ++ batch)) (hstray : NoStrayWrites sdk address batch)
    (hdb : OfHistory history db) (h : Follows sdk address history db)
    (hout : processObjects sdk db.conn queryRetries batch = some out) :
    Follows sdk address (history ++ batch) (db.store out) := by
  have hlife : objectLife sdk address (history ++ batch) =
      (out.life db address).after (objectLife sdk address history).rows := by
    rw [life_processObjects hretries hstray hout, h.current,
      ← ObjectLife.after_foldl_transaction, objectLife, List.foldl_append]
    congr 1
    show _ = (⟨_ ++ [], _⟩ : ObjectLife)
    rw [List.append_nil]
    rfl
  have hbatch := ofBatch_processObjects hout
  refine ⟨?_, ?_⟩
  · rw [lookup_store_current horder hdb hbatch, hlife]
    rfl
  · intro key row haddress
    have hmem : row ∈ (out.life db address).rows ↔ row ∈ out.allObjects := by
      simp [ProcessState.life, haddress]
    rw [lookup_store_objects horder hdb hbatch, h.rows key row haddress, hlife]
    show _ ↔ row ∈ _ ++ (out.life db address).rows ∧ _
    rw [List.mem_append, hmem, or_and_right]

/-- After a run in which each batch is stored before the next is extracted, the tables have
the life of every object without stray writes inside a batch. -/
theorem lookup_runSequential {batches : List (List WriteSet.Transaction)} {db : ObjectsDb}
    (hretries : 0 < queryRetries) (horder : WriteSet.InOrder batches.flatten)
    (hstray : ∀ batch ∈ batches, NoStrayWrites sdk address batch)
    (h : runSequential sdk queryRetries batches = some db) :
    OfHistory batches.flatten db ∧ Follows sdk address batches.flatten db := by
  refine foldlM_prefix (P := fun done db => OfHistory done.flatten db ∧
    Follows sdk address done.flatten db) h ⟨ofHistory_init, follows_init⟩ ?_
  intro done batch db db' hdone hdb hstep
  obtain ⟨out, hout, rfl⟩ := Option.map_eq_some_iff.mp hstep
  have hflatten : (done ++ [batch]).flatten = done.flatten ++ batch := by simp
  have horder' : WriteSet.InOrder (done.flatten ++ batch) := by
    rw [← hflatten]
    exact horder.sublist hdone.sublist.flatten
  have hbatch : batch ∈ batches :=
    hdone.subset (List.mem_append_right _ (List.mem_singleton.mpr rfl))
  rw [hflatten]
  exact ⟨hdb.1.store horder' (ofBatch_processObjects hout),
    hdb.2.store hretries horder' (hstray batch hbatch) hdb.1 hout⟩

/-! ## Batches do not matter -/

/-- `current_objects` has the object, and has it as deleted. -/
def ObjectsDb.Deleted (db : ObjectsDb) (address : String) : Prop :=
  ∃ row, db.currentObjects.lookup address = some row ∧ row.isDeleted = true

/-- Where no batch has a stray write at the address, both tables have the same rows of the
object for any two ways to cut the transactions into batches. Each row comes from a
change that writes a resource in a transaction with the core, or that deletes the group, and a
deleted object stays deleted until a transaction writes its core. -/
theorem objects_batching_independent (address : String) (hretries : 0 < queryRetries)
    {txns : List WriteSet.Transaction} (horder : WriteSet.InOrder txns)
    {batches batches' : List (List WriteSet.Transaction)}
    (hbatches : batches.flatten = txns) (hbatches' : batches'.flatten = txns)
    {db db' : ObjectsDb} (h : runSequential sdk queryRetries batches = some db)
    (h' : runSequential sdk queryRetries batches' = some db')
    (hstray : ∀ batch ∈ batches, NoStrayWrites sdk address batch)
    (hstray' : ∀ batch ∈ batches', NoStrayWrites sdk address batch) :
    db.currentObjects.lookup address = db'.currentObjects.lookup address ∧
    (∀ key row, row.objectAddress = address →
      (db.objects.lookup key = some row ↔ db'.objects.lookup key = some row)) ∧
    (∀ key row, db.objects.lookup key = some row → row.objectAddress = address →
      EmittedBy sdk address txns row) ∧
    (∀ current, db.currentObjects.lookup address = some current →
      ∃ key row, db.objects.lookup key = some row ∧ row.objectAddress = address ∧
        SameState row current) ∧
    (∀ done rest earlier, batches = done ++ rest →
      runSequential sdk queryRetries done = some earlier → earlier.Deleted address →
      (∀ txn ∈ rest.flatten, ¬WritesCore sdk address txn) → db.Deleted address) := by
  subst hbatches
  -- Both runs follow the life of the object in the same transactions.
  have hfollows := (lookup_runSequential hretries horder hstray h).2
  have hfollows' := (lookup_runSequential hretries (hbatches' ▸ horder) hstray' h').2
  rw [hbatches'] at hfollows'
  refine ⟨?_, ?_, ?_, ?_, ?_⟩
  · rw [hfollows.current, hfollows'.current]
  · intro key row haddress
    rw [hfollows.rows key row haddress, hfollows'.rows key row haddress]
  · intro key row hrow haddress
    exact emittedBy_of_mem_objectLife _ row ((hfollows.rows key row haddress).mp hrow).1
  · intro current hcurrent
    rw [hfollows.current] at hcurrent
    obtain ⟨row, hrow, haddress, hsame⟩ := exists_row_of_objectLife _ current hcurrent
    exact ⟨row.pk, row, (hfollows.rows row.pk row haddress).mpr ⟨hrow, rfl⟩, haddress, hsame⟩
  · rintro done rest earlier rfl hdone ⟨row, hrow, hdeleted⟩ hcore
    have hearlier := (lookup_runSequential hretries
      (horder.sublist (List.sublist_append_left done rest).flatten)
      (fun batch hbatch => hstray batch (List.mem_append_left _ hbatch)) hdone).2
    have hlife : (objectLife sdk address done.flatten).Deleted :=
      ⟨row, hearlier.current.symm.trans hrow, hdeleted⟩
    obtain ⟨row', hrow', hdeleted'⟩ := hlife.foldl_transaction hcore
    refine ⟨row', ?_, hdeleted'⟩
    rw [hfollows.current, List.flatten_append, objectLife, List.foldl_append]
    exact hrow'

/-- An `ObjectCore` and an `ObjectGroup` at "0xa", owned by "0xb". -/
def plainSdk : Sdk where
  standardizeAddress text := if text = "0x1" then coinAddr else text
  fromStr text :=
    [("core", Json.object [("allow_ungated_transfer", .bool true),
        ("guid_creation_num", .string "7"), ("owner", .string "0xb")])].lookup text
  bigDecimal text := [("7", 7)].lookup text
  parseTimestamp ts _ := ts.seconds.toInt

def writeCore : WriteSet.Change :=
  .writeResource [1] ⟨"0xa", ⟨"0x1", "object", "ObjectCore"⟩, "0x1::object::ObjectCore", "core"⟩ []

/-- A resource that is no part of the group. -/
def writeOther : WriteSet.Change :=
  .writeResource [2] ⟨"0xa", ⟨"0x1", "test", "Other"⟩, "0x1::test::Other", "other"⟩ []

def deleteGroup : WriteSet.Change :=
  .deleteResource [1] ⟨"0xa", ⟨"0x1", "object", "ObjectGroup"⟩, "0x1::object::ObjectGroup"⟩ []

/-- A user transaction with these changes. -/
def plainTxn (version : UInt64) (changes : List WriteSet.Change) : WriteSet.Transaction where
  version
  blockHeight := 0
  epoch := 0
  type := some .user
  timestamp := some ⟨0, 0⟩
  info := some ⟨[], [], [], none, [], 0, true, "", changes.map fun change => ⟨none, some change⟩⟩
  txnData := some (.user none [])
  transactionBytes := none

/-- An object is created with another resource, and deleted; the resource stays, and is
written once more. -/
def createdTxn : WriteSet.Transaction := plainTxn 1 [writeCore, writeOther]

def deletedTxn : WriteSet.Transaction := plainTxn 2 [deleteGroup]

def strayTxn : WriteSet.Transaction := plainTxn 3 [writeOther]

theorem objects_batching_independent_deleted :
    ∃ db db', runSequential plainSdk 5 [[createdTxn], [deletedTxn], [strayTxn]] = some db ∧
      runSequential plainSdk 5 [[createdTxn, deletedTxn], [strayTxn]] = some db' ∧
      db.currentObjects.lookup "0xa" = db'.currentObjects.lookup "0xa" ∧
      db.Deleted "0xa" := by
  have hrun : ((runSequential plainSdk 5 [[createdTxn], [deletedTxn]]).any fun db =>
      (db.currentObjects.lookup "0xa").any (·.isDeleted)) = true := by decide +kernel
  have hsome : (runSequential plainSdk 5 [[createdTxn], [deletedTxn], [strayTxn]]).isSome := by
    decide +kernel
  have hsome' : (runSequential plainSdk 5 [[createdTxn, deletedTxn], [strayTxn]]).isSome := by
    decide +kernel
  obtain ⟨earlier, hearlier, hdeleted⟩ := (Option.any_eq_true _ _).mp hrun
  obtain ⟨db, h⟩ := Option.isSome_iff_exists.mp hsome
  obtain ⟨db', h'⟩ := Option.isSome_iff_exists.mp hsome'
  have hall := objects_batching_independent "0xa" (by decide)
    (by decide : WriteSet.InOrder [createdTxn, deletedTxn, strayTxn]) rfl rfl h h'
    (by decide +kernel) (by decide +kernel)
  refine ⟨db, db', h, h', hall.1, ?_⟩
  exact hall.2.2.2.2 [[createdTxn], [deletedTxn]] [[strayTxn]] earlier rfl hearlier
    ((Option.any_eq_true _ _).mp hdeleted) (by decide +kernel)

/-- In one batch the core of the first transaction is still known when the other resource is
written, so that the deleted object is there again. And each write of the other resource
has a row of its own. -/
theorem stray_write_revives_object :
    WriteSet.InOrder [createdTxn, deletedTxn, strayTxn] ∧
    ∃ db db', runSequential plainSdk 5 [[createdTxn, deletedTxn, strayTxn]] = some db ∧
      runSequential plainSdk 5 [[createdTxn], [deletedTxn], [strayTxn]] = some db' ∧
      (db.currentObjects.lookup "0xa").map (·.isDeleted) = some false ∧
      (db'.currentObjects.lookup "0xa").map (·.isDeleted) = some true ∧
      (db'.objects.lookup (1, 1)).map (·.objectAddress) = some "0xa" := by
  refine ⟨by decide, ?_⟩
  have hrun : ((runSequential plainSdk 5 [[createdTxn, deletedTxn, strayTxn]]).any fun db =>
      (db.currentObjects.lookup "0xa").map (·.isDeleted) = some false) = true := by
    decide +kernel
  have hrun' : ((runSequential plainSdk 5 [[createdTxn], [deletedTxn], [strayTxn]]).any fun db =>
      (db.currentObjects.lookup "0xa").map (·.isDeleted) = some true ∧
        (db.objects.lookup (1, 1)).map (·.objectAddress) = some "0xa") = true := by
    decide +kernel
  obtain ⟨db, h, hlive⟩ := exists_of_any hrun
  obtain ⟨db', h', hdeleted⟩ := exists_of_any hrun'
  exact ⟨db, db', h, h', hlive, hdeleted⟩

end IndexerProcessors.Objects

import IndexerProcessors.Objects.Model

/-!
# The life of an object

What happens to one object is told by the transactions alone (`objectLife`): each
transaction that writes its core gives a row for every resource it writes at the address,
and each deletion of its group a row with what was known last.

`life_processTransaction` — the processor follows this, as long as a transaction that writes
a resource at the address writes the core as well, or no core is known from an earlier
transaction of the batch. `emittedBy_of_mem_objectLife` and
`ObjectLife.Deleted.foldl_transaction` say what the rows of a life can be.
-/

namespace IndexerProcessors.Objects

open IndexerProcessors.Lib
open IndexerProcessors.WriteSet

variable {sdk : Sdk} {conn : ObjectConn} {queryRetries : ℕ} {address : String}

/-! ## The life of an object -/

/-- The core a change writes at an address. -/
def coreAt (sdk : Sdk) (address : String) : WriteSet.Change → Option ObjectAggregatedData
  | .writeResource stateKeyHash wr _ =>
    if sdk.standardizeAddress wr.address = address then
      (objectWithMetadata sdk stateKeyHash wr).join
    else none
  | _ => none

/-- A change that makes the object at an address untransferable. -/
def locksAt (sdk : Sdk) (address : String) : WriteSet.Change → Bool
  | .writeResource _ wr _ =>
    sdk.standardizeAddress wr.address = address ∧
      (untransferableFromWriteResource sdk wr).join.isSome
  | _ => false

/-- A change that writes some resource at an address. -/
def writesAt (sdk : Sdk) (address : String) : WriteSet.Change → Bool
  | .writeResource _ wr _ => sdk.standardizeAddress wr.address = address
  | _ => false

/-- A change that deletes the object at an address. -/
def deletesAt (sdk : Sdk) (address : String) : WriteSet.Change → Bool
  | .deleteResource _ dr _ => dr.typeStr = objectGroup ∧ sdk.standardizeAddress dr.address = address
  | _ => false

/-- What a write set says of an object: the last core, and whether it is locked. -/
def ownData (sdk : Sdk) (address : String) (changes : List WriteSet.Change) :
    Option ObjectAggregatedData :=
  (changes.filterMap (coreAt sdk address)).getLast?.map fun data =>
    { data with untransferable := changes.any (locksAt sdk address) }

/-- The rows of an object so far, and the current one. -/
structure ObjectLife where
  rows : List Object
  current : Option CurrentObject

/-- The rows of a change, for the object at an address. -/
def objectRows (sdk : Sdk) (address : String) (txnVersion : Int64)
    (data : Option ObjectAggregatedData) (current : Option CurrentObject) (index : ℕ) :
    WriteSet.Change → Option (Object × CurrentObject)
  | .writeResource _ wr _ =>
    if sdk.standardizeAddress wr.address = address then
      data.map (writtenObject sdk txnVersion index address)
    else none
  | .deleteResource stateKeyHash dr _ =>
    if dr.typeStr = objectGroup ∧ sdk.standardizeAddress dr.address = address then
      current.map (deletedObject txnVersion index address (stateKeyHashText sdk stateKeyHash))
    else none
  | _ => none

def ObjectLife.add (life : ObjectLife) : Option (Object × CurrentObject) → ObjectLife
  | some (object, current) => ⟨life.rows ++ [object], some current⟩
  | none => life

def ObjectLife.change (sdk : Sdk) (address : String) (txnVersion : Int64)
    (data : Option ObjectAggregatedData) (life : ObjectLife) (change : WriteSet.Change × ℕ) :
    ObjectLife :=
  life.add (objectRows sdk address txnVersion data life.current change.2 change.1)

def ObjectLife.transaction (sdk : Sdk) (address : String) (life : ObjectLife)
    (txn : WriteSet.Transaction) : ObjectLife :=
  match transactionChanges txn with
  | some changes =>
    changes.zipIdx.foldl (.change sdk address txn.txnVersion (ownData sdk address changes)) life
  | none => life

def objectLife (sdk : Sdk) (address : String) (txns : List WriteSet.Transaction) : ObjectLife :=
  txns.foldl (.transaction sdk address) ⟨[], none⟩

/-- A transaction that writes the core of the object at an address. -/
def WritesCore (sdk : Sdk) (address : String) (txn : WriteSet.Transaction) : Prop :=
  ∃ changes, transactionChanges txn = some changes ∧
    ∃ change ∈ changes, (coreAt sdk address change).isSome

/-- No transaction writes a resource at the address without the core, after one that has
written the core. -/
def NoStrayWrites (sdk : Sdk) (address : String) (txns : List WriteSet.Transaction) : Prop :=
  txns.Pairwise fun earlier txn => WritesCore sdk address earlier →
    ∀ changes, transactionChanges txn = some changes →
      (∃ change ∈ changes, writesAt sdk address change) → WritesCore sdk address txn

instance (sdk : Sdk) (address : String) (txn : WriteSet.Transaction) :
    Decidable (WritesCore sdk address txn) :=
  decidable_of_iff
    (∃ change ∈ (transactionChanges txn).getD [], (coreAt sdk address change).isSome) (by
      unfold WritesCore
      cases transactionChanges txn with
      | none => simp
      | some changes => simp)

instance (sdk : Sdk) (address : String) (txns : List WriteSet.Transaction) :
    Decidable (NoStrayWrites sdk address txns) :=
  decidable_of_iff (txns.Pairwise fun earlier txn => WritesCore sdk address earlier →
    (∃ change ∈ (transactionChanges txn).getD [], writesAt sdk address change) →
      WritesCore sdk address txn) (by
      unfold NoStrayWrites
      refine List.Pairwise.iff fun earlier txn => ?_
      cases transactionChanges txn with
      | none => simp
      | some changes => simp)

/-! ## The rows of a life -/

/-- A row is of a change of the transactions: one that writes a resource at the address, in
a transaction that writes the core, or one that deletes the group. -/
def EmittedBy (sdk : Sdk) (address : String) (txns : List WriteSet.Transaction)
    (row : Object) : Prop :=
  ∃ txn ∈ txns, ∃ changes, transactionChanges txn = some changes ∧
    ∃ change, (change, row.writeSetChangeIndex) ∈ changes.zipIdx ∧
      row.transactionVersion = txn.txnVersion ∧
      (row.isDeleted = false ∧ writesAt sdk address change ∧ WritesCore sdk address txn ∨
        row.isDeleted = true ∧ deletesAt sdk address change)

theorem objectRows_eq_some {txnVersion : Int64} {data : Option ObjectAggregatedData}
    {current : Option CurrentObject} {index : ℕ} {change : WriteSet.Change}
    {rows : Object × CurrentObject}
    (h : objectRows sdk address txnVersion data current index change = some rows) :
    rows.1.objectAddress = address ∧ rows.1.pk = (txnVersion, index) ∧
      rows.2.lastTransactionVersion = txnVersion ∧ rows.2.isDeleted = rows.1.isDeleted ∧
      (rows.1.isDeleted = false ∧ writesAt sdk address change ∧ data ≠ none ∨
        rows.1.isDeleted = true ∧ deletesAt sdk address change) := by
  cases change with
  | writeResource stateKeyHash wr params =>
    unfold objectRows at h
    dsimp only at h
    split at h
    next haddress =>
      obtain ⟨known, rfl, rfl⟩ := Option.map_eq_some_iff.mp h
      exact ⟨rfl, rfl, rfl, rfl, Or.inl ⟨rfl, decide_eq_true haddress, Option.some_ne_none _⟩⟩
    next => cases h
  | deleteResource stateKeyHash dr params =>
    unfold objectRows at h
    dsimp only at h
    split at h
    next hgroup =>
      obtain ⟨previous, -, rfl⟩ := Option.map_eq_some_iff.mp h
      exact ⟨rfl, rfl, rfl, rfl, Or.inr ⟨rfl, decide_eq_true hgroup⟩⟩
    next => cases h
  | deleteModule | deleteTableItem | writeModule | writeTableItem => cases h

theorem ownData_eq_none {txn : WriteSet.Transaction} {changes : List WriteSet.Change}
    (hchanges : transactionChanges txn = some changes) (hcore : ¬WritesCore sdk address txn) :
    ownData sdk address changes = none := by
  unfold ownData
  rw [Option.map_eq_none_iff, List.getLast?_eq_none_iff, List.filterMap_eq_nil_iff]
  intro change hchange
  by_contra hsome
  exact hcore ⟨changes, hchanges, change, hchange, Option.isSome_iff_ne_none.mpr hsome⟩

/-- What every new row keeps holds of the whole life. -/
theorem ObjectLife.foldl_transaction_invariant {P : ObjectLife → Prop}
    {txns : List WriteSet.Transaction}
    (hstep : ∀ txn ∈ txns, ∀ changes, transactionChanges txn = some changes →
      ∀ life, P life → ∀ change ∈ changes.zipIdx, ∀ rows,
        objectRows sdk address txn.txnVersion (ownData sdk address changes) life.current
          change.2 change.1 = some rows → P (life.add (some rows)))
    {life : ObjectLife} (h : P life) :
    P (txns.foldl (ObjectLife.transaction sdk address) life) := by
  refine List.foldlRecOn txns _ h ?_
  intro life h txn htxn
  unfold ObjectLife.transaction
  split
  next changes hchanges =>
    refine List.foldlRecOn changes.zipIdx _ h ?_
    intro life h change hchange
    unfold ObjectLife.change
    cases hrows : objectRows sdk address txn.txnVersion (ownData sdk address changes) life.current
        change.2 change.1 with
    | none => exact h
    | some rows => exact hstep txn htxn changes hchanges life h change hchange rows hrows
  next => exact h

/-- Every row of a life comes from a change. -/
theorem emittedBy_of_mem_objectLife (txns : List WriteSet.Transaction) :
    ∀ row ∈ (objectLife sdk address txns).rows, EmittedBy sdk address txns row := by
  refine ObjectLife.foldl_transaction_invariant
    (P := fun life => ∀ row ∈ life.rows, EmittedBy sdk address txns row) ?_ (by simp)
  intro txn htxn changes hchanges life h change hchange rows hrows row hrow
  rcases List.mem_append.mp hrow with hold | hnew
  · exact h row hold
  · obtain rfl := List.mem_singleton.mp hnew
    obtain ⟨-, hpk, -, -, hkind⟩ := objectRows_eq_some hrows
    obtain ⟨hversion, hindex⟩ := Prod.mk.inj hpk
    refine ⟨txn, htxn, changes, hchanges, change.1, hindex ▸ hchange, hversion, ?_⟩
    rcases hkind with ⟨hlive, hwrite, hdata⟩ | hdeleted
    · refine Or.inl ⟨hlive, hwrite, ?_⟩
      by_contra hcore
      exact hdata (ownData_eq_none hchanges hcore)
    · exact Or.inr hdeleted

/-- A row of `objects` that says the same as a row of `current_objects`. -/
def SameState (object : Object) (current : CurrentObject) : Prop :=
  object.transactionVersion = current.lastTransactionVersion ∧
    object.isDeleted = current.isDeleted

/-- The current object of a life is that of one of its rows. -/
theorem exists_row_of_objectLife (txns : List WriteSet.Transaction) :
    ∀ current, (objectLife sdk address txns).current = some current →
      ∃ row ∈ (objectLife sdk address txns).rows, row.objectAddress = address ∧
        SameState row current := by
  refine ObjectLife.foldl_transaction_invariant (P := fun life => ∀ current,
    life.current = some current → ∃ row ∈ life.rows, row.objectAddress = address ∧
      SameState row current) ?_ (fun _ h => by cases h)
  intro txn _ changes _ life _ change _ rows hrows current hcurrent
  obtain rfl := Option.some.inj hcurrent
  obtain ⟨haddress, hpk, hversion, hdeleted, -⟩ := objectRows_eq_some hrows
  exact ⟨rows.1, List.mem_append_right _ (List.mem_singleton.mpr rfl), haddress,
    (Prod.mk.inj hpk).1.trans hversion.symm, hdeleted.symm⟩

/-- The object is there, and deleted. -/
def ObjectLife.Deleted (life : ObjectLife) : Prop :=
  ∃ row, life.current = some row ∧ row.isDeleted = true

/-- A deleted object stays deleted until its core is written again. -/
theorem ObjectLife.Deleted.foldl_transaction {txns : List WriteSet.Transaction}
    (hcore : ∀ txn ∈ txns, ¬WritesCore sdk address txn) {life : ObjectLife}
    (h : life.Deleted) : (txns.foldl (ObjectLife.transaction sdk address) life).Deleted := by
  refine ObjectLife.foldl_transaction_invariant (P := ObjectLife.Deleted) ?_ h
  intro txn htxn changes hchanges life h change _ rows hrows
  obtain ⟨-, -, -, hsame, hkind⟩ := objectRows_eq_some hrows
  rcases hkind with ⟨-, -, hdata⟩ | ⟨hdeleted, -⟩
  · exact absurd (ownData_eq_none hchanges (hcore txn htxn)) hdata
  · exact ⟨rows.2, rfl, hsame.trans hdeleted⟩

/-- The same life after earlier rows. -/
def ObjectLife.after (rows : List Object) (life : ObjectLife) : ObjectLife :=
  ⟨rows ++ life.rows, life.current⟩

theorem ObjectLife.after_add (rows : List Object) (life : ObjectLife)
    (new : Option (Object × CurrentObject)) :
    (life.after rows).add new = (life.add new).after rows := by
  cases new with
  | none => rfl
  | some new => simp [ObjectLife.add, ObjectLife.after]

theorem ObjectLife.after_foldl_change (rows : List Object) (txnVersion : Int64)
    (data : Option ObjectAggregatedData) (changes : List (WriteSet.Change × ℕ))
    (life : ObjectLife) :
    changes.foldl (ObjectLife.change sdk address txnVersion data) (life.after rows) =
      (changes.foldl (ObjectLife.change sdk address txnVersion data) life).after rows := by
  induction changes generalizing life with
  | nil => rfl
  | cons change changes ih =>
    rw [List.foldl_cons, List.foldl_cons, ← ih]
    congr 1
    exact life.after_add rows _

theorem ObjectLife.after_transaction (rows : List Object) (txn : WriteSet.Transaction)
    (life : ObjectLife) :
    (life.after rows).transaction sdk address txn =
      (life.transaction sdk address txn).after rows := by
  unfold ObjectLife.transaction
  split
  next changes _ => exact life.after_foldl_change rows _ _ _
  next => rfl

/-- Rows from before stay in front. -/
theorem ObjectLife.after_foldl_transaction (rows : List Object)
    (txns : List WriteSet.Transaction) (life : ObjectLife) :
    txns.foldl (ObjectLife.transaction sdk address) (life.after rows) =
      (txns.foldl (ObjectLife.transaction sdk address) life).after rows := by
  induction txns generalizing life with
  | nil => rfl
  | cons txn txns ih => rw [List.foldl_cons, List.foldl_cons, after_transaction, ih]

/-! ## What is known of an object -/

theorem lookup_addCore {mapping mapping' : ObjectAggregatedDataMapping} {change : WriteSet.Change}
    (h : addCore sdk mapping change = some mapping') :
    mapping'.lookup address = (coreAt sdk address change).or (mapping.lookup address) := by
  cases change with
  | writeResource stateKeyHash wr params =>
    obtain ⟨data, hdata, h⟩ := Option.bind_eq_some_iff.mp h
    obtain rfl := Option.some.inj h
    rw [Table.lookup_insertAll_toList mapping data (fun _ => sdk.standardizeAddress wr.address)
      (fun d => d), coreAt, hdata]
    by_cases haddress : sdk.standardizeAddress wr.address = address
    · cases data with
      | none => simp [haddress]
      | some d => simp [haddress]
    · cases data with
      | none => simp [haddress]
      | some d => simp [haddress, Option.filter_some]
  | deleteModule | deleteResource | deleteTableItem | writeModule | writeTableItem =>
    obtain rfl := Option.some.inj h
    rfl

/-- After the first pass an object has the last core of the write set, if there is one. -/
theorem lookup_foldlM_addCore {changes : List WriteSet.Change}
    {mapping mapping' : ObjectAggregatedDataMapping}
    (h : changes.foldlM (addCore sdk) mapping = some mapping') :
    mapping'.lookup address =
      ((changes.filterMap (coreAt sdk address)).getLast?).or (mapping.lookup address) := by
  refine foldlM_prefix (P := fun done m => m.lookup address =
    ((done.filterMap (coreAt sdk address)).getLast?).or (mapping.lookup address)) h rfl ?_
  intro done change m m' _ hm hstep
  rw [lookup_addCore hstep, hm, List.filterMap_append, List.getLast?_append, Option.or_assoc]
  congr 1
  rw [List.filterMap_cons, List.filterMap_nil]
  cases coreAt sdk address change with
  | none => rfl
  | some data => rfl

theorem lookup_addUntransferable {mapping mapping' : ObjectAggregatedDataMapping}
    {change : WriteSet.Change} (h : addUntransferable sdk mapping change = some mapping') :
    mapping'.lookup address = (mapping.lookup address).map fun data =>
      { data with untransferable := data.untransferable || locksAt sdk address change } := by
  have hnothing : mapping.lookup address = (mapping.lookup address).map fun data =>
      { data with untransferable := data.untransferable || false } := by
    cases mapping.lookup address with
    | none => rfl
    | some data => simp
  cases change with
  | writeResource stateKeyHash wr params =>
    unfold addUntransferable at h
    dsimp only at h
    -- Only a known object can become untransferable.
    split at h
    next data hdata =>
      obtain ⟨untransferable, hlock, h⟩ := Option.bind_eq_some_iff.mp h
      obtain rfl := Option.some.inj h
      rw [Table.lookup_insertAll_toList mapping untransferable
        (fun _ => sdk.standardizeAddress wr.address)
        (fun _ => { data with untransferable := true }), locksAt, hlock]
      by_cases haddress : sdk.standardizeAddress wr.address = address
      · rw [haddress] at hdata
        cases untransferable with
        | none => simp [haddress, hdata]
        | some flag => simp [haddress, hdata, Option.filter_some]
      · cases untransferable with
        | none => simp [haddress]
        | some flag => simp [haddress, Option.filter_some]
    next hnone =>
      obtain rfl := Option.some.inj h
      by_cases haddress : sdk.standardizeAddress wr.address = address
      · rw [haddress] at hnone
        rw [hnone]
        rfl
      · simp [locksAt, haddress]
  | deleteModule | deleteResource | deleteTableItem | writeModule | writeTableItem =>
    obtain rfl := Option.some.inj h
    exact hnothing

/-- After the second pass it is locked if the write set locks it. -/
theorem lookup_foldlM_addUntransferable {changes : List WriteSet.Change}
    {mapping mapping' : ObjectAggregatedDataMapping}
    (h : changes.foldlM (addUntransferable sdk) mapping = some mapping') :
    mapping'.lookup address = (mapping.lookup address).map fun data =>
      { data with untransferable := data.untransferable || changes.any (locksAt sdk address) } := by
  refine foldlM_prefix (P := fun done m => m.lookup address = (mapping.lookup address).map
    fun data => { data with
      untransferable := data.untransferable || done.any (locksAt sdk address) }) h ?_ ?_
  · cases mapping.lookup address with
    | none => rfl
    | some data => simp
  · intro done change m m' _ hm hstep
    rw [lookup_addUntransferable hstep, hm, Option.map_map]
    congr 1
    funext data
    simp [Bool.or_assoc]

/-- What is known of an object in the third pass: what the write set says, if it has the
core, and nothing, if no core is known from before. -/
theorem lookup_mapping {changes : List WriteSet.Change}
    {mapping mapping₁ mapping₂ : ObjectAggregatedDataMapping}
    (h₁ : changes.foldlM (addCore sdk) mapping = some mapping₁)
    (h₂ : changes.foldlM (addUntransferable sdk) mapping₁ = some mapping₂)
    (hfresh : (∃ change ∈ changes, (coreAt sdk address change).isSome) ∨
      mapping.lookup address = none) :
    mapping₂.lookup address = ownData sdk address changes := by
  -- a new core is not locked yet
  have hnew : ∀ data, (changes.filterMap (coreAt sdk address)).getLast? = some data →
      data.untransferable = false := by
    intro data hdata
    obtain ⟨change, -, hcore⟩ := List.mem_filterMap.mp (List.mem_of_getLast? hdata)
    cases change with
    | writeResource stateKeyHash wr params =>
      unfold coreAt at hcore
      dsimp only at hcore
      split at hcore
      next =>
        obtain ⟨parsed, -, hparsed⟩ :=
          Option.map_eq_some_iff.mp (Option.join_eq_some_iff.mp hcore)
        obtain ⟨core, -, rfl⟩ := Option.map_eq_some_iff.mp hparsed
        rfl
      next => cases hcore
    | deleteModule | deleteResource | deleteTableItem | writeModule | writeTableItem => cases hcore
  rw [lookup_foldlM_addUntransferable h₂, lookup_foldlM_addCore h₁, ownData]
  cases hlast : (changes.filterMap (coreAt sdk address)).getLast? with
  | some data => simp [hnew data hlast]
  | none =>
    rcases hfresh with ⟨change, hchange, hcore⟩ | hnone
    · obtain ⟨data, hdata⟩ := Option.isSome_iff_exists.mp hcore
      have hmem : data ∈ changes.filterMap (coreAt sdk address) :=
        List.mem_filterMap.mpr ⟨change, hchange, hdata⟩
      rw [List.getLast?_eq_none_iff.mp hlast] at hmem
      cases hmem
    · rw [hnone]
      rfl

/-! ## The third pass -/

/-- The rows of a change are for one address, and for this address they are as its life
has them. -/
theorem changeObject_at (hretries : 0 < queryRetries) (sdk : Sdk) (address : String)
    (db : ObjectsDb) (txnVersion : Int64) (mapping : ObjectAggregatedDataMapping)
    (current : Table String CurrentObject) (index : ℕ) (change : WriteSet.Change) :
    ((changeObject sdk db.conn queryRetries txnVersion mapping current index change).filter
        fun rows => rows.1.objectAddress = address) =
      objectRows sdk address txnVersion (mapping.lookup address)
        ((current.lookup address).or (db.currentObjects.lookup address)) index change := by
  cases change with
  | writeResource stateKeyHash wr params =>
    unfold changeObject fromWriteResource objectRows
    dsimp only
    by_cases haddress : sdk.standardizeAddress wr.address = address
    · rw [if_pos haddress, haddress]
      cases mapping.lookup address with
      | none => rfl
      | some data => simp [Option.filter_some, writtenObject]
    · rw [if_neg haddress]
      cases mapping.lookup (sdk.standardizeAddress wr.address) with
      | none => rfl
      | some data => simp [Option.filter_some, writtenObject, haddress]
  | deleteResource stateKeyHash dr params =>
    unfold changeObject fromDeleteResource objectRows
    dsimp only
    by_cases hgroup : dr.typeStr = objectGroup
    · rw [if_pos hgroup]
      by_cases haddress : sdk.standardizeAddress dr.address = address
      -- The object is asked for by its address, and the database answers with the same row on
      -- every try.
      · have hanswer : getCurrentObject queryRetries (db.conn txnVersion index address) =
            db.currentObjects.lookup address := retried_const hretries _
        rw [if_pos ⟨hgroup, haddress⟩, haddress, hanswer]
        cases (current.lookup address).or (db.currentObjects.lookup address) with
        | none => rfl
        | some previous => simp [Option.filter_some, deletedObject]
      · rw [if_neg fun h => haddress h.2]
        rw [Option.filter_eq_none_iff]
        intro rows hrows
        obtain ⟨previous, -, rfl⟩ := Option.map_eq_some_iff.mp hrows
        exact fun h => haddress (of_decide_eq_true h)
    · rw [if_neg hgroup, if_neg fun h => hgroup h.1]
      rfl
  | deleteModule | deleteTableItem | writeModule | writeTableItem => rfl

/-- Both rows of a change are for the same address, and of its version. -/
theorem changeObject_spec {txnVersion : Int64} {mapping : ObjectAggregatedDataMapping}
    {current : Table String CurrentObject} {index : ℕ} {change : WriteSet.Change}
    {rows : Object × CurrentObject}
    (h : changeObject sdk conn queryRetries txnVersion mapping current index change = some rows) :
    rows.2.objectAddress = rows.1.objectAddress ∧ rows.1.pk = (txnVersion, index) ∧
      rows.2.lastTransactionVersion = txnVersion := by
  cases change with
  | writeResource stateKeyHash wr params =>
    obtain ⟨data, -, rfl⟩ := Option.map_eq_some_iff.mp h
    exact ⟨rfl, rfl, rfl⟩
  | deleteResource stateKeyHash dr params =>
    unfold changeObject fromDeleteResource at h
    dsimp only at h
    split at h
    next =>
      obtain ⟨previous, -, rfl⟩ := Option.map_eq_some_iff.mp h
      exact ⟨rfl, rfl, rfl⟩
    next => cases h
  | deleteModule | deleteTableItem | writeModule | writeTableItem => cases h

/-- What a batch shows of an object: its rows, and the current one, in the batch or else
in the database. -/
def ProcessState.life (db : ObjectsDb) (address : String) (st : ProcessState) : ObjectLife where
  rows := st.allObjects.filter fun object => object.objectAddress = address
  current := (st.allCurrentObjects.lookup address).or (db.currentObjects.lookup address)

theorem life_addObject (hretries : 0 < queryRetries) (sdk : Sdk) (address : String)
    (db : ObjectsDb) (txnVersion : Int64) (st : ProcessState) (change : WriteSet.Change × ℕ) :
    (addObject sdk db.conn queryRetries txnVersion st change).life db address =
      (st.life db address).change sdk address txnVersion
        (st.objectMetadataHelper.lookup address) change := by
  have hrows := changeObject_at hretries sdk address db txnVersion st.objectMetadataHelper
    st.allCurrentObjects change.2 change.1
  show _ = (st.life db address).add (objectRows sdk address txnVersion
    (st.objectMetadataHelper.lookup address)
    ((st.allCurrentObjects.lookup address).or (db.currentObjects.lookup address)) change.2 change.1)
  rw [← hrows]
  unfold addObject
  split
  next object current hchange =>
    rw [hchange]
    by_cases haddress : object.objectAddress = address
    · simp [ProcessState.life, ObjectLife.add, Option.filter_some, haddress]
    · have hlookup : (st.allCurrentObjects.insert object.objectAddress current).lookup address =
          st.allCurrentObjects.lookup address := AList.lookup_insert_ne (Ne.symm haddress)
      simp [ProcessState.life, ObjectLife.add, Option.filter_some, haddress, hlookup]
  next hchange =>
    rw [hchange]
    rfl

@[simp] theorem addObject_helper (sdk : Sdk) (conn : ObjectConn) (txnVersion : Int64)
    (st : ProcessState) (change : WriteSet.Change × ℕ) :
    (addObject sdk conn queryRetries txnVersion st change).objectMetadataHelper =
      st.objectMetadataHelper := by
  unfold addObject
  split
  next => rfl
  next => rfl

theorem life_foldl_addObject (hretries : 0 < queryRetries) (sdk : Sdk) (address : String)
    (db : ObjectsDb) (txnVersion : Int64) (changes : List (WriteSet.Change × ℕ))
    (st : ProcessState) :
    (changes.foldl (addObject sdk db.conn queryRetries txnVersion) st).life db address =
      changes.foldl (.change sdk address txnVersion (st.objectMetadataHelper.lookup address))
        (st.life db address) := by
  induction changes generalizing st with
  | nil => rfl
  | cons change changes ih =>
    rw [List.foldl_cons, List.foldl_cons, ih, life_addObject hretries, addObject_helper]

@[simp] theorem foldl_addObject_helper (sdk : Sdk) (conn : ObjectConn) (txnVersion : Int64)
    (changes : List (WriteSet.Change × ℕ)) (st : ProcessState) :
    (changes.foldl (addObject sdk conn queryRetries txnVersion) st).objectMetadataHelper =
      st.objectMetadataHelper := by
  induction changes generalizing st with
  | nil => rfl
  | cons change changes ih => rw [List.foldl_cons, ih, addObject_helper]

/-- Where nothing is written at the address, it does not matter what is known of it. -/
theorem foldl_change_of_no_write {txnVersion : Int64} {changes : List (WriteSet.Change × ℕ)}
    (hwrite : ∀ change ∈ changes, writesAt sdk address change.1 = false)
    (data data' : Option ObjectAggregatedData) (life : ObjectLife) :
    changes.foldl (.change sdk address txnVersion data) life =
      changes.foldl (.change sdk address txnVersion data') life := by
  refine List.foldl_ext _ _ _ fun life change hchange => ?_
  have hno := hwrite change hchange
  obtain ⟨change, index⟩ := change
  unfold ObjectLife.change
  congr 1
  cases change with
  | writeResource stateKeyHash wr params =>
    have haddress : sdk.standardizeAddress wr.address ≠ address := of_decide_eq_false hno
    unfold objectRows
    dsimp only
    rw [if_neg haddress, if_neg haddress]
  | deleteModule | deleteResource | deleteTableItem | writeModule | writeTableItem => rfl

/-- The passes of a transaction, one after another. -/
theorem processTransaction_eq_some {st st' : ProcessState} {txn : WriteSet.Transaction}
    (h : processTransaction sdk conn queryRetries st txn = some st') :
    ∃ changes mapping₁ mapping₂, transactionChanges txn = some changes ∧
      changes.foldlM (addCore sdk) st.objectMetadataHelper = some mapping₁ ∧
      changes.foldlM (addUntransferable sdk) mapping₁ = some mapping₂ ∧
      st' = changes.zipIdx.foldl (addObject sdk conn queryRetries txn.txnVersion)
        { st with objectMetadataHelper := mapping₂ } := by
  obtain ⟨timestamp, -, h⟩ := Option.bind_eq_some_iff.mp h
  obtain ⟨changes, hchanges, h⟩ := Option.bind_eq_some_iff.mp h
  obtain ⟨mapping₁, hmapping₁, h⟩ := Option.bind_eq_some_iff.mp h
  obtain ⟨mapping₂, hmapping₂, h⟩ := Option.bind_eq_some_iff.mp h
  exact ⟨changes, mapping₁, mapping₂, hchanges, hmapping₁, hmapping₂, (Option.some.inj h).symm⟩

/-- A core stays known only if it has been written. -/
theorem helper_processTransaction {st st' : ProcessState} {txn : WriteSet.Transaction}
    (h : processTransaction sdk conn queryRetries st txn = some st')
    (hknown : st'.objectMetadataHelper.lookup address ≠ none) :
    st.objectMetadataHelper.lookup address ≠ none ∨ WritesCore sdk address txn := by
  obtain ⟨changes, mapping₁, mapping₂, hchanges, hmapping₁, hmapping₂, rfl⟩ :=
    processTransaction_eq_some h
  rw [foldl_addObject_helper] at hknown
  change mapping₂.lookup address ≠ none at hknown
  rw [lookup_foldlM_addUntransferable hmapping₂, lookup_foldlM_addCore hmapping₁] at hknown
  cases hlast : (changes.filterMap (coreAt sdk address)).getLast? with
  | none =>
    rw [hlast, Option.none_or] at hknown
    left
    intro hnone
    rw [hnone] at hknown
    exact hknown rfl
  | some data =>
    obtain ⟨change, hchange, hcore⟩ := List.mem_filterMap.mp (List.mem_of_getLast? hlast)
    exact Or.inr ⟨changes, hchanges, change, hchange, by rw [hcore]; rfl⟩

/-- A transaction without a stray write treats the object as its life says. -/
theorem life_processTransaction {db : ObjectsDb} {st st' : ProcessState}
    {txn : WriteSet.Transaction} (hretries : 0 < queryRetries)
    (h : processTransaction sdk db.conn queryRetries st txn = some st')
    (hstray : st.objectMetadataHelper.lookup address ≠ none → ∀ changes,
      transactionChanges txn = some changes →
      (∃ change ∈ changes, writesAt sdk address change) → WritesCore sdk address txn) :
    st'.life db address = (st.life db address).transaction sdk address txn := by
  obtain ⟨changes, mapping₁, mapping₂, hchanges, hmapping₁, hmapping₂, rfl⟩ :=
    processTransaction_eq_some h
  rw [life_foldl_addObject hretries, ObjectLife.transaction, hchanges]
  show changes.zipIdx.foldl (.change sdk address txn.txnVersion (mapping₂.lookup address))
    (st.life db address) = _
  by_cases hcore : ∃ change ∈ changes, (coreAt sdk address change).isSome
  · rw [lookup_mapping hmapping₁ hmapping₂ (Or.inl hcore)]
  · by_cases hknown : st.objectMetadataHelper.lookup address = none
    · rw [lookup_mapping hmapping₁ hmapping₂ (Or.inr hknown)]
    · -- an earlier core is known, so that nothing is written at the address
      refine foldl_change_of_no_write ?_ _ _ _
      intro change hchange
      by_contra hwrite
      obtain ⟨changes', hchanges', hcore'⟩ := hstray hknown changes hchanges
        ⟨change.1, List.fst_mem_of_mem_zipIdx hchange, Bool.not_eq_false _ ▸ hwrite⟩
      obtain rfl := Option.some.inj (hchanges.symm.trans hchanges')
      exact hcore hcore'

end IndexerProcessors.Objects

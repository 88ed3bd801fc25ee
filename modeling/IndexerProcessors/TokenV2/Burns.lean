import IndexerProcessors.Lib.Run
import IndexerProcessors.TokenV2.Holders

/-!
# Burns in a pipeline

Batches are extracted one after another and stored one after another, but the
extraction of a batch does not wait for the one before to be stored. A burn that
does not name the holder has him looked up in the table, which may be several
batches behind.

`burned_token_unowned` — once all is stored, a token whose last operation was a
burn has no row with an amount, as long as the tables such a lookup can see show
the holder. `burned_token_still_owned` — a transfer that is not yet stored is
enough to break it: the burn is booked on the former holder.
-/

namespace IndexerProcessors.TokenV2

open IndexerProcessors.Lib
open IndexerProcessors.Protos

variable {sdk : TokenSdk} {token : String}

abbrev OwnershipTable := Table CurrentTokenOwnershipV2PK CurrentTokenOwnershipV2

/-! ## The pipeline -/

/-- A batch that is being extracted, and the states of the table since it is. -/
structure Extraction where
  batch : List Protos.Transaction
  seen : List OwnershipTable

/-- What is extracted, what waits to be stored, batch by batch, and what is stored. -/
structure Pipeline where
  history : List Protos.Transaction
  extracting : Option Extraction
  pending : List (List (RowKind × CurrentTokenOwnershipV2))
  table : OwnershipTable

def Pipeline.init : Pipeline := ⟨[], none, [], ∅⟩

inductive PipelineAction where
  /-- The extractor takes a batch. -/
  | start (batch : List Protos.Transaction)
  /-- It is done with it, having had these answers from the database. -/
  | finish (ctx : ParseContext)
  /-- A row of the oldest batch is stored, by the statement of its kind. -/
  | store (index : ℕ)
  /-- All rows of the oldest batch are stored. -/
  | advance

/-- The ownership rows of a batch. -/
def ownershipRows (rows : ParseState) : List (RowKind × CurrentTokenOwnershipV2) :=
  rows.currentTokenOwnershipsV2.rows.map (fun row => (.live, row.2)) ++
    rows.currentDeletedTokenOwnershipsV2.rows.map fun row => (.deleted, row.2)

/-- The table changes, also for an extraction that is under way. -/
def Pipeline.setTable (st : Pipeline) (table : OwnershipTable) : Pipeline :=
  { st with
    table
    extracting := st.extracting.map fun e => { e with seen := e.seen ++ [table] } }

def pipelineStep (sdk : TokenSdk) (st : Pipeline) : PipelineAction → Option Pipeline
  | .start batch =>
    if st.extracting.isNone then some { st with extracting := some ⟨batch, [st.table]⟩ }
    else none
  | .finish ctx => do
    let e ← st.extracting
    let rows ← parseV2Token sdk ctx e.batch
    return { st with
      history := st.history ++ e.batch
      extracting := none
      pending := st.pending ++ [ownershipRows rows] }
  | .store index =>
    match st.pending with
    | rows :: rest => do
      let (kind, row) ← rows[index]?
      return { st with pending := rows.eraseIdx index :: rest }.setTable
        (st.table.upsert (ownershipQuery kind) row.pk row)
    | [] => none
  | .advance =>
    match st.pending with
    | [] :: rest => some { st with pending := rest }
    | _ => none

/-- An owner in a table who holds some of a token. -/
def Holds (table : OwnershipTable) (token owner : String) : Prop :=
  ∃ key row, table.lookup key = some row ∧ key.1 = token ∧ key.2.2.1 = owner ∧ 0 < row.amount

/-- The answers `get_latest_owned_nft_by_token_data_id` can give: some holder in a
state it has seen, or nobody, if none of its tries has seen one. -/
def Answers (queryRetries : ℕ) (seen : List OwnershipTable) (token : String) :
    Option String → Prop
  | some owner => ∃ table ∈ seen, Holds table token owner
  | none => ∃ tries : List OwnershipTable, tries.length = queryRetries ∧
      ∀ table ∈ tries, table ∈ seen ∧ ∀ owner, ¬ Holds table token owner

/-- The database answers from the states the extraction has seen. -/
def Possible (queryRetries : ℕ) (st : Pipeline) : PipelineAction → Prop
  | .finish ctx => ∀ e, st.extracting = some e → ∀ version index token,
      Answers queryRetries e.seen token (ctx.ownerLookup version index token)
  | _ => True

/-- The lookup is tried, and all states it can see have the one holder. -/
def Fresh (queryRetries : ℕ) (seen : List OwnershipTable) (token owner : String) : Prop :=
  0 < queryRetries ∧ ∀ table ∈ seen, ∀ owner', Holds table token owner' ↔ owner' = owner

/-- The extraction of a batch finds who holds the token. -/
def FindsHolder (sdk : TokenSdk) (queryRetries : ℕ) (token : String) (st : Pipeline) :
    PipelineAction → Prop
  | .finish _ => ∀ e, st.extracting = some e →
      Settled sdk token st.history (Fresh queryRetries e.seen token) e.batch
  | _ => True

theorem answers_of_fresh {queryRetries : ℕ} {seen : List OwnershipTable} {owner : String}
    {answer : Option String} (hfresh : Fresh queryRetries seen token owner)
    (h : Answers queryRetries seen token answer) : answer = some owner := by
  obtain ⟨htried, hseen⟩ := hfresh
  cases answer with
  | some owner' =>
    obtain ⟨table, htable, hholds⟩ := h
    rw [(hseen table htable owner').mp hholds]
  | none =>
    obtain ⟨tries, hlength, htries⟩ := h
    obtain ⟨table, htable⟩ := List.exists_mem_of_length_pos (hlength ▸ htried)
    obtain ⟨hmem, hnobody⟩ := htries table htable
    exact absurd ((hseen table hmem owner).mpr rfl) (hnobody owner)

/-! ## Rows that are stored or waiting -/

/-- A holding is stored under a key, or waits to be. -/
def Pipeline.Shows (st : Pipeline) (key : CurrentTokenOwnershipV2PK) (e : Holding) : Prop :=
  (st.table.lookup key).map (·.holding) = some e ∨
    ∃ rows ∈ st.pending, ∃ row ∈ rows, row.2.pk = key ∧ row.2.holding = e

/-- The newer holding of a stored row and one that is stored over it stays. -/
theorem holding_upsert (kind : RowKind) (table : OwnershipTable) (row : CurrentTokenOwnershipV2) :
    ∃ e, ((table.upsert (ownershipQuery kind) row.pk row).lookup row.pk).map (·.holding) =
        some e ∧
      (e = row.holding ∨ (table.lookup row.pk).map (·.holding) = some e) ∧
      row.holding.version ≤ e.version ∧
      ∀ old, (table.lookup row.pk).map (·.holding) = some old → old.version ≤ e.version := by
  rw [Table.lookup_upsert_self]
  cases hold : table.lookup row.pk with
  | none => exact ⟨row.holding, rfl, Or.inl rfl, le_refl _, fun old h => by cases h⟩
  | some old =>
    -- Both statements write a holding as a whole, if it is not older.
    have hmerged : (ownershipQuery kind old row).holding =
        if old.lastTransactionVersion ≤ row.lastTransactionVersion then row.holding
        else old.holding := by
      cases kind with
      | live =>
        show (insertCurrentTokenOwnershipsV2Query old row).holding = _
        unfold insertCurrentTokenOwnershipsV2Query
        split
        · rfl
        · rfl
      | deleted =>
        show (insertCurrentDeletedTokenOwnershipsV2Query old row).holding = _
        unfold insertCurrentDeletedTokenOwnershipsV2Query
        split
        · rfl
        · rfl
    refine ⟨(ownershipQuery kind old row).holding, rfl, ?_⟩
    rw [hmerged]
    split
    next hle =>
      refine ⟨Or.inl rfl, le_refl _, ?_⟩
      intro o ho
      obtain rfl := Option.some.inj ho
      exact hle
    next hlt =>
      refine ⟨Or.inr rfl, (not_le.mp hlt).le, ?_⟩
      intro o ho
      obtain rfl := Option.some.inj ho
      exact le_refl _

/-- Rows are filed under their own keys. -/
def FiledByKey (st : ParseState) : Prop :=
  ∀ kind key row, (st.ownerships kind).lookup key = some row → row.pk = key

theorem filedByKey_changeStep {ctx : ChangeContext} {st st' : ParseState} {index : ℕ}
    {change : Protos.Change} (hstep : ChangeStep sdk ctx st index change st')
    (h : FiledByKey st) : FiledByKey st' := by
  have hadd : ∀ (kind : RowKind) (rows : List CurrentTokenOwnershipV2) key row,
      ((st.ownerships kind).insertAll (rows.map fun row => (row.pk, row))).lookup key = some row →
      row.pk = key := by
    intro kind rows
    refine Table.insertAll_forall (P := fun key (row : CurrentTokenOwnershipV2) => row.pk = key)
      (h kind) ?_
    intro entry hentry
    obtain ⟨row, -, rfl⟩ := List.mem_map.mp hentry
    rfl
  -- A change adds to one of the two maps or to both.
  cases hstep with
  | @writeTableItem item tokenData ownership =>
    intro kind
    cases kind with
    | live => exact hadd .live ownership.toList
    | deleted => exact h .deleted
  | @deleteTableItem item ownership =>
    intro kind
    cases kind with
    | live => exact h .live
    | deleted => exact hadd .deleted ownership.toList
  | @writeResource wr params st₁ ownership htoken =>
    intro kind
    rcases parseToken_cases htoken with ⟨-, rfl⟩ | ⟨tokenData, owner, rows, -, -, rfl⟩
    · cases kind with
      | live => exact h .live
      | deleted => exact hadd .deleted ownership.toList
    · cases kind with
      | live => exact hadd .live rows
      | deleted => exact hadd .deleted ownership.toList
  | deleteResource =>
    intro kind
    cases kind with
    | live => exact h .live
    | deleted => exact hadd .deleted (Option.toList _)
  | other => exact h

/-- The rows of a batch show what its maps hold. -/
theorem mem_ownershipRows {ctx : ParseContext} {batch : List Protos.Transaction}
    {rows : ParseState} (hrows : parseV2Token sdk ctx batch = some rows)
    {key : CurrentTokenOwnershipV2PK} {e : Holding} :
    (∃ row ∈ ownershipRows rows, row.2.pk = key ∧ row.2.holding = e) ↔
      ∃ kind, rows.holding kind key = some e := by
  -- The statements take the rows of the maps without their keys.
  have hfiled : FiledByKey rows := by
    refine parseV2Token_invariant hrows ?_ (fun st _ _ hst => ?_)
      (fun _ _ _ _ _ => filedByKey_changeStep)
    · intro kind key row hrow
      cases kind <;> cases hrow
    · intro kind key row hrow
      refine hst kind key row ?_
      cases kind with
      | live => exact hrow
      | deleted => exact hrow
  constructor
  · intro h
    obtain ⟨row, hrow, rfl, rfl⟩ := h
    rcases List.mem_append.mp hrow with hlive | hdeleted
    · obtain ⟨entry, hentry, rfl⟩ := List.mem_map.mp hlive
      have hlookup := Table.mem_rows.mp hentry
      rw [← hfiled .live _ _ hlookup] at hlookup
      exact ⟨.live, Option.map_eq_some_iff.mpr ⟨_, hlookup, rfl⟩⟩
    · obtain ⟨entry, hentry, rfl⟩ := List.mem_map.mp hdeleted
      have hlookup := Table.mem_rows.mp hentry
      rw [← hfiled .deleted _ _ hlookup] at hlookup
      exact ⟨.deleted, Option.map_eq_some_iff.mpr ⟨_, hlookup, rfl⟩⟩
  · intro h
    obtain ⟨kind, hholding⟩ := h
    obtain ⟨row, hlookup, rfl⟩ := Option.map_eq_some_iff.mp hholding
    refine ⟨(kind, row), ?_, hfiled kind key row hlookup, rfl⟩
    cases kind with
    | live =>
      exact List.mem_append_left _ (List.mem_map.mpr ⟨(key, row), Table.mem_rows.mpr hlookup, rfl⟩)
    | deleted =>
      exact List.mem_append_right _ (List.mem_map.mpr ⟨(key, row), Table.mem_rows.mpr hlookup, rfl⟩)

/-! ## Steps -/

/-- What a step does to what is extracted, waiting and stored. -/
theorem pipelineStep_cases {st st' : Pipeline} {action : PipelineAction}
    (h : pipelineStep sdk st action = some st') :
    (st'.history = st.history ∧ st'.pending = st.pending ∧ st'.table = st.table) ∨
    (∃ ctx e rows, action = .finish ctx ∧ st.extracting = some e ∧
      parseV2Token sdk ctx e.batch = some rows ∧ st'.history = st.history ++ e.batch ∧
      st'.pending = st.pending ++ [ownershipRows rows] ∧ st'.table = st.table) ∨
    (∃ rows rest index kind row, st.pending = rows :: rest ∧ rows[index]? = some (kind, row) ∧
      st'.history = st.history ∧ st'.pending = rows.eraseIdx index :: rest ∧
      st'.table = st.table.upsert (ownershipQuery kind) row.pk row) ∨
    (st'.history = st.history ∧ st.pending = [] :: st'.pending ∧ st'.table = st.table) := by
  -- A start only sets a batch aside; the other actions are the three remaining cases.
  cases action with
  | start batch =>
    unfold pipelineStep at h
    dsimp only at h
    split at h
    · obtain rfl := Option.some.inj h
      exact Or.inl ⟨rfl, rfl, rfl⟩
    · cases h
  | finish ctx =>
    obtain ⟨e, he, h⟩ := Option.bind_eq_some_iff.mp h
    obtain ⟨rows, hrows, h⟩ := Option.bind_eq_some_iff.mp h
    obtain rfl := Option.some.inj h
    exact Or.inr (Or.inl ⟨ctx, e, rows, rfl, he, hrows, rfl, rfl, rfl⟩)
  | store index =>
    unfold pipelineStep at h
    dsimp only at h
    split at h
    next rows rest hpending =>
      obtain ⟨⟨kind, row⟩, hrow, h⟩ := Option.bind_eq_some_iff.mp h
      obtain rfl := Option.some.inj h
      exact Or.inr (Or.inr (Or.inl ⟨rows, rest, index, kind, row, hpending, hrow, rfl, rfl, rfl⟩))
    next => cases h
  | advance =>
    unfold pipelineStep at h
    dsimp only at h
    split at h
    next rest hpending =>
      obtain rfl := Option.some.inj h
      exact Or.inr (Or.inr (Or.inr ⟨rfl, hpending, rfl⟩))
    next => cases h

/-- What is stored or waiting of a token goes back to what is extracted; the amounts
of those who do not hold it are out of date. -/
structure Unowned (sdk : TokenSdk) (token : String) (st : Pipeline) : Prop where
  keys : ∀ key e, key.1 = token → st.Shows key e → key = objectKey token key.2.2.1
  versions : ∀ key e, key.1 = token → st.Shows key e →
    ∃ txn ∈ st.history, txn.txnVersion = e.version
  outdated : ∀ owner e, st.Shows (objectKey token owner) e → 0 < e.amount →
    holder sdk token st.history ≠ some owner →
    ∃ e', st.Shows (objectKey token owner) e' ∧ e.version < e'.version

/-- Storing shows nothing new, and what it hides it replaces by something newer. -/
theorem unowned_of_shows {st st' : Pipeline} (h : Unowned sdk token st)
    (hhistory : st'.history = st.history)
    (hback : ∀ key e, st'.Shows key e → st.Shows key e)
    (hforth : ∀ key e, st.Shows key e → ∃ e', st'.Shows key e' ∧ e.version ≤ e'.version) :
    Unowned sdk token st' := by
  refine ⟨?_, ?_, ?_⟩
  · intro key e hkey he
    exact h.keys key e hkey (hback key e he)
  · intro key e hkey he
    rw [hhistory]
    exact h.versions key e hkey (hback key e he)
  · intro owner e he hpos hnot
    rw [hhistory] at hnot
    obtain ⟨e', he', hlt⟩ := h.outdated owner e (hback _ e he) hpos hnot
    obtain ⟨e'', he'', hle⟩ := hforth _ e' he'
    exact ⟨e'', he'', hlt.trans_le hle⟩

/-- A row is stored. -/
theorem unowned_store {st st' : Pipeline} {rows : List (RowKind × CurrentTokenOwnershipV2)}
    {rest : List (List (RowKind × CurrentTokenOwnershipV2))} {index : ℕ} {kind : RowKind}
    {row : CurrentTokenOwnershipV2} (h : Unowned sdk token st)
    (hpending : st.pending = rows :: rest) (hrow : rows[index]? = some (kind, row))
    (hhistory : st'.history = st.history) (hpending' : st'.pending = rows.eraseIdx index :: rest)
    (htable : st'.table = st.table.upsert (ownershipQuery kind) row.pk row) :
    Unowned sdk token st' := by
  obtain ⟨stored, hstored, hsource, hrowLe, holdLe⟩ := holding_upsert kind st.table row
  rw [← htable] at hstored
  -- The row that is stored was waiting, so the state has shown it all along.
  have hself : st.Shows row.pk row.holding :=
    Or.inr ⟨rows, hpending ▸ List.mem_cons_self .., _, List.mem_of_getElem? hrow, rfl, rfl⟩
  have hother : ∀ key, key ≠ row.pk → st'.table.lookup key = st.table.lookup key := by
    intro key hne
    rw [htable, Table.lookup_upsert_ne _ _ _ hne]
  refine unowned_of_shows h hhistory ?_ ?_
  -- Nothing new is shown.
  · intro key e he
    rcases he with he | ⟨rows', hrows', r, hr, hkey, hholding⟩
    · by_cases heq : key = row.pk
      · subst heq
        obtain rfl := Option.some.inj (hstored.symm.trans he)
        rcases hsource with rfl | hold
        · exact hself
        · exact Or.inl hold
      · rw [hother key heq] at he
        exact Or.inl he
    · rw [hpending'] at hrows'
      rcases List.mem_cons.mp hrows' with rfl | hrest
      · exact Or.inr ⟨rows, hpending ▸ List.mem_cons_self .., r, List.mem_of_mem_eraseIdx hr,
          hkey, hholding⟩
      · exact Or.inr ⟨rows', hpending ▸ List.mem_cons_of_mem _ hrest, r, hr, hkey, hholding⟩
  -- What was shown is shown still, or a row of at least its version is.
  · intro key e he
    rcases he with he | ⟨rows', hrows', r, hr, hkey, hholding⟩
    · by_cases heq : key = row.pk
      · subst heq
        exact ⟨stored, Or.inl hstored, holdLe e he⟩
      · exact ⟨e, Or.inl ((congrArg _ (hother key heq)).trans he), le_refl _⟩
    · rw [hpending] at hrows'
      rcases List.mem_cons.mp hrows' with rfl | hrest
      · obtain ⟨i, hi⟩ := List.mem_iff_getElem?.mp hr
        by_cases hindex : i = index
        · rw [hindex, hrow] at hi
          obtain rfl := Option.some.inj hi
          subst hkey hholding
          exact ⟨stored, Or.inl hstored, hrowLe⟩
        · have hleft : r ∈ rows'.eraseIdx index :=
            List.mem_eraseIdx_iff_getElem?.mpr ⟨i, hindex, hi⟩
          exact ⟨e, Or.inr ⟨_, hpending' ▸ List.mem_cons_self .., r, hleft, hkey, hholding⟩,
            le_refl _⟩
      · exact ⟨e, Or.inr ⟨rows', hpending' ▸ List.mem_cons_of_mem _ hrest, r, hr, hkey, hholding⟩,
          le_refl _⟩

/-- A batch is extracted. -/
theorem unowned_finish
    (hstd : ∀ s, sdk.standardizeAddress (sdk.standardizeAddress s) = sdk.standardizeAddress s)
    {queryRetries : ℕ} {st st' : Pipeline} {ctx : ParseContext} {extraction : Extraction}
    {rows : ParseState} (h : Unowned sdk token st)
    (hpossible : Possible queryRetries st (.finish ctx))
    (hfinds : FindsHolder sdk queryRetries token st (.finish ctx))
    (hextracting : st.extracting = some extraction)
    (hrows : parseV2Token sdk ctx extraction.batch = some rows)
    (hhistory : st'.history = st.history ++ extraction.batch)
    (hpending : st'.pending = st.pending ++ [ownershipRows rows]) (htable : st'.table = st.table)
    (hord : InOrder st'.history) : Unowned sdk token st' := by
  rw [hhistory] at hord
  obtain ⟨-, hordBatch, hcross⟩ := List.pairwise_append.mp hord
  -- The lookups are answered from the tables the extraction has seen, and where the holder
  -- is looked up they all have him.
  have hheld : Held sdk token st.history extraction.batch rows := by
    refine held_parseV2Token hstd hrows hordBatch (hfinds extraction hextracting) ?_
    intro owner hfresh version index
    exact answers_of_fresh hfresh (hpossible extraction hextracting version index token)
  have hshows : ∀ key e, st'.Shows key e ↔
      st.Shows key e ∨ ∃ kind, rows.holding kind key = some e := by
    intro key e
    rw [← mem_ownershipRows hrows]
    unfold Pipeline.Shows
    rw [htable, hpending]
    simp only [List.mem_append, List.mem_singleton]
    constructor
    · intro hs
      rcases hs with hs | ⟨l, hl | rfl, hs⟩
      · exact Or.inl (Or.inl hs)
      · exact Or.inl (Or.inr ⟨l, hl, hs⟩)
      · exact Or.inr hs
    · intro hs
      rcases hs with (hs | ⟨l, hl, hs⟩) | hs
      · exact Or.inl hs
      · exact Or.inr ⟨l, Or.inl hl, hs⟩
      · exact Or.inr ⟨_, Or.inr rfl, hs⟩
  refine ⟨?_, ?_, ?_⟩
  · intro key e hkey he
    rcases (hshows key e).mp he with hold | ⟨kind, hnew⟩
    · exact h.keys key e hkey hold
    · exact hheld.rows.keys kind key e hkey hnew
  · intro key e hkey he
    rw [hhistory]
    rcases (hshows key e).mp he with hold | ⟨kind, hnew⟩
    · obtain ⟨t, ht, htv⟩ := h.versions key e hkey hold
      exact ⟨t, List.mem_append_left _ ht, htv⟩
    · obtain ⟨t, ht, htv⟩ := hheld.rows.versions kind key e hkey hnew
      exact ⟨t, List.mem_append_right _ ht, htv⟩
  · intro owner e he hpos hnot
    rw [hhistory] at hnot
    -- A row that says the token is held, by who does not hold it: it was there before, or it
    -- is of this batch. Either way a newer row of the key says otherwise.
    rcases (hshows _ e).mp he with hold | ⟨kind, hnew⟩
    · by_cases howner : holder sdk token st.history = some owner
      · -- The former holder has a row of the batch.
        obtain ⟨kind, e', he'⟩ := hheld.left owner howner hnot
        obtain ⟨t, ht, htv⟩ := h.versions _ e rfl hold
        obtain ⟨t', ht', htv'⟩ := hheld.rows.versions kind _ e' rfl he'
        refine ⟨e', (hshows _ e').mpr (Or.inr ⟨kind, he'⟩), ?_⟩
        rw [← htv, ← htv']
        exact hcross t ht t' ht'
      · obtain ⟨e', he', hlt⟩ := h.outdated owner e hold hpos howner
        exact ⟨e', (hshows _ e').mpr (Or.inl he'), hlt⟩
    · cases kind with
      | deleted =>
        rw [hheld.rows.deleted _ e rfl hnew] at hpos
        exact absurd hpos (lt_irrefl 0)
      | live =>
        obtain ⟨d, hd, hlt⟩ := hheld.live owner e hnew hpos hnot
        exact ⟨d, (hshows _ d).mpr (Or.inr ⟨.deleted, hd⟩), hlt⟩

theorem unowned_step
    (hstd : ∀ s, sdk.standardizeAddress (sdk.standardizeAddress s) = sdk.standardizeAddress s)
    {queryRetries : ℕ} {st st' : Pipeline} {action : PipelineAction}
    (hstep : pipelineStep sdk st action = some st') (hpossible : Possible queryRetries st action)
    (hfinds : FindsHolder sdk queryRetries token st action) (hord : InOrder st'.history)
    (h : Unowned sdk token st) : Unowned sdk token st' := by
  rcases pipelineStep_cases hstep with ⟨hhistory, hpending, htable⟩ |
    ⟨ctx, e, rows, rfl, hextracting, hrows, hhistory, hpending, htable⟩ |
    ⟨rows, rest, index, kind, row, hpending, hrow, hhistory, hpending', htable⟩ |
    ⟨hhistory, hpending, htable⟩
  · have hshows : ∀ key e, st'.Shows key e ↔ st.Shows key e := by
      intro key e
      unfold Pipeline.Shows
      rw [hpending, htable]
    exact unowned_of_shows h hhistory (fun key e => (hshows key e).mp)
      (fun key e he => ⟨e, (hshows key e).mpr he, le_refl _⟩)
  · exact unowned_finish hstd h hpossible hfinds hextracting hrows hhistory hpending htable hord
  · exact unowned_store h hpending hrow hhistory hpending' htable
  · have hshows : ∀ key e, st'.Shows key e ↔ st.Shows key e := by
      intro key e
      unfold Pipeline.Shows
      rw [hpending, htable]
      simp
    exact unowned_of_shows h hhistory (fun key e => (hshows key e).mp)
      (fun key e he => ⟨e, (hshows key e).mpr he, le_refl _⟩)

theorem history_step {st st' : Pipeline} {action : PipelineAction}
    (hstep : pipelineStep sdk st action = some st') : st.history <+: st'.history := by
  rcases pipelineStep_cases hstep with ⟨hhistory, -, -⟩ | ⟨ctx, e, rows, -, -, -, hhistory, -, -⟩ |
    ⟨rows, rest, index, kind, row, -, -, hhistory, -, -⟩ | ⟨hhistory, -, -⟩
  · rw [hhistory]
  · rw [hhistory]
    exact List.prefix_append _ _
  · rw [hhistory]
  · rw [hhistory]

/-- **A burned token is not owned.** `st` is reached by any schedule in which every
batch finds the holder of the token, and all that was extracted is stored. -/
theorem burned_token_unowned (sdk : TokenSdk)
    (hstd : ∀ s, sdk.standardizeAddress (sdk.standardizeAddress s) = sdk.standardizeAddress s)
    (queryRetries : ℕ) (token : String) (actions : List PipelineAction) (st : Pipeline)
    (hrun : Run (pipelineStep sdk) (fun st action => Possible queryRetries st action ∧
      FindsHolder sdk queryRetries token st action) Pipeline.init actions st)
    (hord : InOrder st.history) (hstored : st.pending = [])
    (hburn : lastOp sdk token st.history = some .burn) (key : CurrentTokenOwnershipV2PK)
    (row : CurrentTokenOwnershipV2) (hrow : st.table.lookup key = some row)
    (hkey : key.1 = token) : ¬ 0 < row.amount := by
  have hinv : InOrder st.history → Unowned sdk token st := by
    refine hrun.invariant (P := fun st => InOrder st.history → Unowned sdk token st) ?_ ?_
    · intro _
      have hnone : ∀ key e, ¬ Pipeline.init.Shows key e := by
        intro key e he
        rcases he with he | ⟨rows, hrows, -⟩
        · cases he
        · cases hrows
      exact ⟨fun key e _ he => absurd he (hnone key e), fun key e _ he => absurd he (hnone key e),
        fun owner e he => absurd he (hnone _ e)⟩
    · intro s action s' hs hC hstep hord'
      refine unowned_step hstd hstep hC.1 hC.2 hord' (hs ?_)
      exact hord'.sublist (history_step hstep).sublist
  have h := hinv hord
  intro hpos
  have hshown : st.Shows key row.holding := Or.inl (by rw [hrow]; rfl)
  have hform := h.keys key row.holding hkey hshown
  rw [hform] at hshown
  have hnobody : holder sdk token st.history ≠ some key.2.2.1 := by
    rw [holder_of_lastOp_burn hburn]
    exact fun hc => by cases hc
  obtain ⟨e', he', hlt⟩ := h.outdated _ _ hshown hpos hnobody
  -- Nothing waits, so what is newer than the row is the row itself.
  rcases he' with he' | ⟨rows, hrows, -⟩
  · rw [← hform, hrow] at he'
    obtain rfl := Option.some.inj he'
    exact absurd hlt (lt_irrefl _)
  · rw [hstored] at hrows
    cases hrows

/-! ## Two schedules -/

/-- Actions with the answer of the database about the token, the only one stored. -/
def answering (action : PipelineAction × Option String) : PipelineAction :=
  match action.1 with
  | .finish ctx =>
    .finish { ctx with
      ownerLookup := fun _ _ token => if token = tokenAddress then action.2 else none }
  | other => other

/-- A row with an amount of the token for an owner. -/
def holdsRow (table : OwnershipTable) (owner : String) : Bool :=
  table.rows.any fun entry => entry.1.1 = tokenAddress ∧ entry.1.2.2.1 = owner ∧ 0 < entry.2.amount

/-- A state the extraction has seen gives the answer. -/
def justified (st : Pipeline) (action : PipelineAction × Option String) : Bool :=
  match action.1 with
  | .finish _ => st.extracting.all fun e => e.seen.any fun table =>
      table.rows.all (fun entry => entry.1.1 = tokenAddress) &&
        match action.2 with
        | some owner => holdsRow table owner
        | none => table.rows.all fun entry => ¬ 0 < entry.2.amount
  | _ => true

theorem holds_of_holdsRow {table : OwnershipTable} {owner : String}
    (h : holdsRow table owner = true) : Holds table tokenAddress owner := by
  obtain ⟨⟨key, row⟩, hentry, hdec⟩ := List.any_eq_true.mp h
  obtain ⟨htoken, howner, hpos⟩ := of_decide_eq_true hdec
  exact ⟨key, row, Table.mem_rows.mp hentry, htoken, howner, hpos⟩

theorem possible_of_justified (queryRetries : ℕ) {st : Pipeline}
    {action : PipelineAction × Option String} (h : justified st action = true) :
    Possible queryRetries st (answering action) := by
  obtain ⟨action, answer⟩ := action
  cases action with
  | finish ctx =>
    intro e he version index token
    unfold justified at h
    dsimp only at h
    rw [he] at h
    obtain ⟨table, htable, hcheck⟩ := List.any_eq_true.mp h
    obtain ⟨hkeys, hanswer⟩ := Bool.and_eq_true_iff.mp hcheck
    -- Every try may have seen this state.
    have hnobody : (∀ owner, ¬ Holds table token owner) →
        Answers queryRetries e.seen token none := by
      intro hnot
      refine ⟨List.replicate queryRetries table, List.length_replicate, ?_⟩
      intro table' htable'
      rw [List.eq_of_mem_replicate htable']
      exact ⟨htable, hnot⟩
    show Answers queryRetries e.seen token (if token = tokenAddress then answer else none)
    split
    next heq =>
      subst heq
      cases answer with
      | some owner => exact ⟨table, htable, holds_of_holdsRow hanswer⟩
      | none =>
        refine hnobody fun owner hholds => ?_
        obtain ⟨key, row, hlookup, -, -, hpos⟩ := hholds
        have hzero := List.all_eq_true.mp hanswer (key, row) (Table.mem_rows.mpr hlookup)
        exact of_decide_eq_true hzero hpos
    next hne =>
      refine hnobody fun owner hholds => ?_
      obtain ⟨key, row, hlookup, htoken, -, -⟩ := hholds
      have hkey := of_decide_eq_true
        (List.all_eq_true.mp hkeys (key, row) (Table.mem_rows.mpr hlookup))
      exact hne (htoken.symm.trans hkey)
  | start | store | advance => trivial

/-- A batch of one transaction. -/
theorem settled_singleton {before : List Protos.Transaction} {fresh : String → Prop}
    {txn : Protos.Transaction} (hv1 : NamesNoV1 sdk token txn)
    (hcore : writesToken sdk token txn = true → (lastCore sdk token (readChanges txn)).isSome)
    (hapart : ¬ (writesToken sdk token txn = true ∧ burnsToken sdk token txn = true))
    (htransferred : writesToken sdk token txn = true → holder sdk token before = none)
    (hburned : ∀ burn, lastBurn sdk token (readEvents txn) = some burn →
      ∀ owner, holder sdk token before = some owner →
      (changesToken sdk token txn = true ∧ ∀ change ∈ readChanges txn,
        coreOf sdk token change = none) ∧
      burn.getPreviousOwnerAddress sdk = none ∧ fresh owner) :
    Settled sdk token before fresh [txn] := by
  refine ⟨?_, ?_, ?_, ?_, ?_, ?_⟩
  · intro t ht
    rwa [List.mem_singleton.mp ht]
  · intro t ht
    rwa [List.mem_singleton.mp ht]
  · intro t ht
    rwa [List.mem_singleton.mp ht]
  · intro done t owner hdone hwrites howner
    obtain ⟨rfl, rfl⟩ := prefix_concat_singleton hdone
    rw [List.append_nil, htransferred hwrites] at howner
    cases howner
  · intro done t owner hdone hburns howner
    obtain ⟨rfl, rfl⟩ := prefix_concat_singleton hdone
    obtain ⟨burn, hburn⟩ := Option.isSome_iff_exists.mp hburns
    rw [List.append_nil] at howner
    obtain ⟨⟨hchanges, hcores⟩, -⟩ := hburned burn hburn owner howner
    refine ⟨hchanges, fun change hchange core hc => ?_⟩
    rw [hcores change hchange] at hc
    cases hc
  · intro done t owner burn hdone hburn howner
    obtain ⟨rfl, rfl⟩ := prefix_concat_singleton hdone
    rw [List.append_nil] at howner
    obtain ⟨-, hprevious, hfresh⟩ := hburned burn hburn owner howner
    exact Or.inr ⟨hprevious, Or.inr hfresh⟩

/-- `0xa` mints the token; when that is stored, it is burned by an old event. -/
def mintThenBurn : List (PipelineAction × Option String) :=
  [(.start [mintTxn 1], none), (.finish emptyContext, none), (.store 0, none), (.advance, none),
   (.start [oldBurnTxn 3], none), (.finish emptyContext, some aAddress), (.store 0, none),
   (.advance, none)]

/-- What `FindsHolder` asks of this schedule. -/
def findsHolderOf (st : Pipeline) (action : PipelineAction × Option String) : Bool :=
  match action.1 with
  | .finish _ => st.extracting.all fun e =>
      (st.history = [] ∧ e.batch = [mintTxn 1]) ∨
        (st.history = [mintTxn 1] ∧ e.batch = [oldBurnTxn 3] ∧ e.seen.all fun table =>
          holdsRow table aAddress && table.rows.all fun entry =>
            entry.1.1 = tokenAddress ∧ 0 < entry.2.amount → entry.1.2.2.1 = aAddress)
  | _ => true

theorem findsHolder_of_findsHolderOf {st : Pipeline} {action : PipelineAction × Option String}
    (h : findsHolderOf st action = true) :
    FindsHolder lifeSdk 5 tokenAddress st (answering action) := by
  obtain ⟨action, answer⟩ := action
  cases action with
  | finish ctx =>
    intro e he
    unfold findsHolderOf at h
    dsimp only at h
    rw [he] at h
    rcases of_decide_eq_true h with ⟨hhistory, hbatch⟩ | ⟨hhistory, hbatch, hseen⟩
    · rw [hhistory, hbatch]
      refine settled_singleton (by decide +kernel) (by decide +kernel) (by decide +kernel)
        (fun _ => rfl) ?_
      intro burn hburn
      have hnone : (lastBurn lifeSdk tokenAddress (readEvents (mintTxn 1))).isNone = true := by
        decide +kernel
      rw [hburn] at hnone
      cases hnone
    · rw [hhistory, hbatch]
      refine settled_singleton (by decide +kernel) (by decide +kernel) (by decide +kernel)
        (by decide +kernel) ?_
      intro burn hburn owner howner
      have hunnamed : (lastBurn lifeSdk tokenAddress (readEvents (oldBurnTxn 3))).all
          (fun burn => (burn.getPreviousOwnerAddress lifeSdk).isNone) = true := by decide +kernel
      have hmint : holder lifeSdk tokenAddress [mintTxn 1] = some aAddress := by decide +kernel
      rw [hburn] at hunnamed
      obtain rfl := Option.some.inj (hmint.symm.trans howner)
      refine ⟨⟨by decide +kernel, by decide +kernel⟩, Option.isNone_iff_eq_none.mp hunnamed,
        by decide, ?_⟩
      intro table htable owner'
      obtain ⟨hrow, hall⟩ := Bool.and_eq_true_iff.mp (List.all_eq_true.mp hseen table htable)
      constructor
      · intro hholds
        obtain ⟨key, row, hlookup, htoken, rfl, hpos⟩ := hholds
        have hentry := List.all_eq_true.mp hall (key, row) (Table.mem_rows.mpr hlookup)
        exact of_decide_eq_true hentry ⟨htoken, hpos⟩
      · intro heq
        subst heq
        exact holds_of_holdsRow hrow
  | start | store | advance => trivial

/-- The burn finds `0xa` in the table. -/
theorem burned_token_unowned_stored :
    ∃ st, Run (pipelineStep lifeSdk) (fun st action => Possible 5 st action ∧
        FindsHolder lifeSdk 5 tokenAddress st action) Pipeline.init
        (mintThenBurn.map answering) st ∧
      ∃ row, st.table.lookup (objectKey tokenAddress aAddress) = some row ∧ ¬ 0 < row.amount := by
  obtain ⟨st, hrun, hstored, hburn, hord, hsome⟩ := exists_run
    (fun s a => pipelineStep lifeSdk s (answering a))
    (fun s a => justified s a = true ∧ findsHolderOf s a = true) Pipeline.init mintThenBurn
    (fun st => st.pending.isEmpty = true ∧ lastOp lifeSdk tokenAddress st.history = some .burn ∧
      InOrder st.history ∧ (st.table.lookup (objectKey tokenAddress aAddress)).isSome = true)
    (by decide +kernel)
  have hrun' := Run.map_inputs (C := fun st action => Possible 5 st action ∧
    FindsHolder lifeSdk 5 tokenAddress st action) (hrun.mono fun s a hC =>
      ⟨possible_of_justified 5 hC.1, findsHolder_of_findsHolderOf hC.2⟩)
  obtain ⟨row, hrow⟩ := Option.isSome_iff_exists.mp hsome
  refine ⟨st, hrun', row, hrow, ?_⟩
  exact burned_token_unowned lifeSdk lifeSdk_standardizeAddress 5 tokenAddress _ st hrun' hord
    (List.isEmpty_iff.mp hstored) hburn _ row hrow rfl

/-- The token goes from `0xa` to `0xb` and is burned, by an event that does not name
`0xb`, before the transfer is stored. The database still answers `0xa`. -/
def burnInFlight : List (PipelineAction × Option String) :=
  [(.start [mintTxn 1], none), (.finish emptyContext, none), (.store 0, none), (.advance, none),
   (.start [transferTxn 3], none), (.finish emptyContext, some aAddress),
   (.start [oldBurnTxn 5], none), (.finish emptyContext, some aAddress),
   (.store 0, none), (.store 0, none), (.advance, none), (.store 0, none), (.advance, none)]

/-- A burned token that is still owned. -/
theorem burned_token_still_owned :
    ∃ actions st, Run (pipelineStep lifeSdk) (Possible 5) Pipeline.init actions st ∧
      st.history = [mintTxn 1, transferTxn 3, oldBurnTxn 5] ∧ InOrder st.history ∧
      st.extracting.isNone = true ∧ st.pending.isEmpty = true ∧
      lastOp lifeSdk tokenAddress st.history = some .burn ∧
      (st.table.lookup (objectKey tokenAddress bAddress)).map (·.amount) = some 1 := by
  obtain ⟨st, hrun, hfacts⟩ := exists_run
    (fun s a => pipelineStep lifeSdk s (answering a)) (fun s a => justified s a = true)
    Pipeline.init burnInFlight
    (fun st => st.history = [mintTxn 1, transferTxn 3, oldBurnTxn 5] ∧ InOrder st.history ∧
      st.extracting.isNone = true ∧ st.pending.isEmpty = true ∧
      lastOp lifeSdk tokenAddress st.history = some .burn ∧
      (st.table.lookup (objectKey tokenAddress bAddress)).map (·.amount) = some 1)
    (by decide +kernel)
  refine ⟨burnInFlight.map answering, st, ?_, hfacts⟩
  exact Run.map_inputs (C := Possible 5) (hrun.mono fun s a hC => possible_of_justified 5 hC)

end IndexerProcessors.TokenV2

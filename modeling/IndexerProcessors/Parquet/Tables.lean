import IndexerProcessors.Lib.Numeric
import IndexerProcessors.Lib.Run
import IndexerProcessors.Parquet.Steps

/-!
# What the parquet steps do to one table

The buffer step treats its tables independently, up to failing as a whole. So
its invariant is kept per table (`TableOk`): the batches a table has seen split
into those already uploaded, whose version ranges were reported in consecutive
pieces (`Emits`), and those whose rows and range are in its buffer (`Buffered`).

Each call either takes every table on by what it was given, or fails; after a
failed call uploads may be ahead of reports, never behind (`TableWeak`). The
tracker's side is simpler: consecutive ranges pass its gap check, and what it
saves is a range it was given.
-/

namespace IndexerProcessors.Parquet

open IndexerProcessors.Lib

variable {τ ρ : Type}

/-! ## Contiguous batches and their ranges -/

/-- The version order of the batches. -/
structure Follows (b b' : InputBatch τ ρ) : Prop where
  next : b'.metadata.startVersion.toNat = b.metadata.endVersion.toNat + 1
  ordered : b'.metadata.startVersion.toNat ≤ b'.metadata.endVersion.toNat

/-- A range covers a non-empty run of batches from its first version to its
last. -/
def Spans (chunk : List (InputBatch τ ρ)) (m : TransactionMetadata) : Prop :=
  ∃ first last, chunk.head? = some first ∧ chunk.getLast? = some last ∧
    m.startVersion = first.metadata.startVersion ∧ m.endVersion = last.metadata.endVersion

/-- Reported ranges cut the batches they cover into consecutive pieces. -/
inductive Emits : List (InputBatch τ ρ) → List TransactionMetadata → Prop
  | nil : Emits [] []
  | snoc {done chunk ranges m} : Emits done ranges → Spans chunk m →
      Emits (done ++ chunk) (ranges ++ [m])

/-- The ranges reported first cover a first part of the batches. -/
theorem Emits.left {done : List (InputBatch τ ρ)} :
    ∀ {later earlier : List TransactionMetadata}, Emits done (earlier ++ later) →
      ∃ done', done' <+: done ∧ Emits done' earlier := by
  intro later
  induction later using List.reverseRecOn generalizing done with
  | nil =>
    intro earlier h
    rw [List.append_nil] at h
    exact ⟨done, List.prefix_refl _, h⟩
  | append_singleton later m ih =>
    intro earlier h
    rw [← List.append_assoc] at h
    generalize hall : earlier ++ later ++ [m] = all at h
    cases h with
    | nil => simp at hall
    | @snoc done' chunk ranges m' hd hs =>
      -- The last range is `m`; drop it and go on with the ranges before it.
      obtain ⟨rfl, _⟩ := List.append_inj' hall rfl
      obtain ⟨done'', hpre, he⟩ := ih hd
      exact ⟨done'', hpre.trans (List.prefix_append _ _), he⟩

theorem spans_append {chunk : List (InputBatch τ ρ)} {m : TransactionMetadata}
    {batch : InputBatch τ ρ} (h : Spans chunk m) :
    Spans (chunk ++ [batch]) { m with
      endVersion := batch.metadata.endVersion
      totalSizeInBytes := batch.metadata.totalSizeInBytes
      endTransactionTimestamp := batch.metadata.endTransactionTimestamp } := by
  obtain ⟨first, last, hf, _, hs, _⟩ := h
  refine ⟨first, batch, ?_, by simp, hs, rfl⟩
  rw [List.head?_append, hf]
  rfl

theorem spans_singleton (batch : InputBatch τ ρ) : Spans [batch] batch.metadata :=
  ⟨batch, batch, rfl, rfl, rfl, rfl⟩

/-- A range ends with a batch. -/
theorem Emits.exists_batch {done : List (InputBatch τ ρ)} {ranges : List TransactionMetadata}
    (h : Emits done ranges) {m : TransactionMetadata} (hm : m ∈ ranges) :
    ∃ batch ∈ done, m.endVersion = batch.metadata.endVersion := by
  induction h with
  | nil => cases hm
  | @snoc done chunk ranges m' _ hs ih =>
    rcases List.mem_append.mp hm with hm | hm
    · obtain ⟨batch, hb, he⟩ := ih hm
      exact ⟨batch, List.mem_append_left _ hb, he⟩
    · obtain rfl := List.mem_singleton.mp hm
      obtain ⟨_, last, _, hl, _, he⟩ := hs
      exact ⟨last, List.mem_append_right _ (List.mem_of_getLast? hl), he⟩

/-- The last range ends where the batches end. -/
theorem Emits.last {done : List (InputBatch τ ρ)} {ranges : List TransactionMetadata}
    (h : Emits done ranges) {m : TransactionMetadata} (hm : ranges.getLast? = some m) :
    ∃ batch, done.getLast? = some batch ∧ m.endVersion = batch.metadata.endVersion := by
  cases h with
  | nil => cases hm
  | @snoc done chunk ranges m' _ hs =>
    rw [List.getLast?_concat] at hm
    obtain rfl := Option.some.inj hm
    obtain ⟨_, last, _, hl, _, he⟩ := hs
    exact ⟨last, by rw [List.getLast?_append, hl]; rfl, he⟩

/-- Each range starts right after the one before it. -/
def Consecutive (ranges : List TransactionMetadata) : Prop :=
  ranges.IsChain fun m m' => m'.startVersion.toNat = m.endVersion.toNat + 1

/-- Ranges of contiguous batches are consecutive. -/
theorem Emits.consecutive {done : List (InputBatch τ ρ)} {ranges : List TransactionMetadata}
    (h : Emits done ranges) : done.IsChain Follows → Consecutive ranges := by
  induction h with
  | nil => intro _; exact .nil
  | @snoc done chunk ranges m he hs ih =>
    intro hchain
    obtain ⟨hd, _, hjoin⟩ := List.isChain_append.mp hchain
    refine List.isChain_append.mpr ⟨ih hd, .singleton _, ?_⟩
    intro m' hm' m'' hm''
    obtain rfl := Option.some.inj hm''
    -- The new range starts with the batch that follows the last reported one.
    obtain ⟨batch, hb, hend⟩ := he.last hm'
    obtain ⟨first, _, hf, _, hstart, _⟩ := hs
    rw [hend, hstart]
    exact (hjoin batch hb first hf).next

/-- Later batches end later. -/
theorem isChain_follows_lt {done later : List (InputBatch τ ρ)}
    (h : (done ++ later).IsChain Follows) :
    ∀ b ∈ done, ∀ b' ∈ later, b.metadata.endVersion.toNat < b'.metadata.endVersion.toNat := by
  have htrans : (done ++ later).IsChain
      fun b b' => b.metadata.endVersion.toNat < b'.metadata.endVersion.toNat := by
    refine h.imp fun b b' hf => ?_
    have h1 := hf.next
    have h2 := hf.ordered
    omega
  have hpair := List.isChain_iff_pairwise.mp htrans
  intro b hb b' hb'
  exact (List.pairwise_append.mp hpair).2.2 b hb b' hb'

/-! ## One table -/

variable [DecidableEq τ]

/-- A table's rows of a batch. -/
def rowsOf (T : τ) (batch : InputBatch τ ρ) : List ρ := (proj T batch.data).flatten

/-- A buffer holds the rows and the range of some batches. -/
def Buffered (T : τ) (pending : List (InputBatch τ ρ)) : Option (ParquetBuffer ρ) → Prop
  | none => pending = []
  | some b => b.buffer = pending.flatMap (rowsOf T) ∧ 0 < b.bufferSizeBytes ∧
      ∃ m, b.currentBatchMetadata = some m ∧ Spans pending m

/-- The batches a table has seen are those already uploaded and reported, and
those in its buffer. -/
def TableOk (T : τ) (seen : List (InputBatch τ ρ)) (emitted : List (τ × TransactionMetadata))
    (s : BufferState τ ρ) : Prop :=
  ∃ done pending, seen = done ++ pending ∧
    (proj T s.uploaded).flatten = done.flatMap (rowsOf T) ∧
    Emits done (proj T (emitted ++ s.uploadMetadataMap)) ∧
    Buffered T pending (s.internalBuffers.lookup T)

/-- What is left of it after a failed call: uploads may be ahead of reports. -/
def TableWeak (T : τ) (inputs : List (InputBatch τ ρ)) (emitted : List (τ × TransactionMetadata))
    (uploaded : List (τ × List ρ)) : Prop :=
  ∃ done reported, done <+: inputs ∧ reported <+: done ∧
    (proj T uploaded).flatten = done.flatMap (rowsOf T) ∧ Emits reported (proj T emitted)

theorem TableOk.weak {T : τ} {seen inputs : List (InputBatch τ ρ)}
    {emitted : List (τ × TransactionMetadata)} {s : BufferState τ ρ} (h : TableOk T seen emitted s)
    (hpre : seen <+: inputs) : TableWeak T inputs emitted s.uploaded := by
  obtain ⟨done, pending, rfl, hup, he, _⟩ := h
  rw [proj_append] at he
  obtain ⟨reported, hrep, he'⟩ := he.left
  exact ⟨done, reported, (List.prefix_append done pending).trans hpre, hrep, hup, he'⟩

/-- The view of a table a call has not touched. -/
theorem TableOk.congr {T : τ} {seen : List (InputBatch τ ρ)}
    {emitted : List (τ × TransactionMetadata)} {s s' : BufferState τ ρ}
    (h : TableOk T seen emitted s) (hup : proj T s'.uploaded = proj T s.uploaded)
    (hmap : proj T s'.uploadMetadataMap = proj T s.uploadMetadataMap)
    (hbuf : s'.internalBuffers.lookup T = s.internalBuffers.lookup T) :
    TableOk T seen emitted s' := by
  obtain ⟨done, pending, hseen, hu, he, hb⟩ := h
  refine ⟨done, pending, hseen, by rw [hup, hu], ?_, by rw [hbuf]; exact hb⟩
  rw [proj_append] at he ⊢
  rwa [hmap]

/-- Appending a batch to a buffer that it follows. -/
theorem appendToBuffer_ok {cfg : BufferConfig τ ρ} (hsize : ∀ T rows, 0 < cfg.calculateSize T rows)
    (s : BufferState τ ρ) {T : τ} {batch : InputBatch τ ρ} {pending : List (InputBatch τ ρ)}
    {buffer : ParquetBuffer ρ} {data : List ρ} (hdata : data = rowsOf T batch)
    (hbuf : (buffer = .new ∧ pending = []) ∨ Buffered T pending (some buffer))
    (hchain : (pending ++ [batch]).IsChain Follows) :
    ∃ b, appendToBuffer cfg batch.metadata s T buffer data =
        { s with internalBuffers := s.internalBuffers.insert T b } ∧
      Buffered T (pending ++ [batch]) (some b) := by
  have hpos := hsize T data
  rcases hbuf with ⟨rfl, rfl⟩ | ⟨hrows, hsz, m, hm, hspan⟩
  · refine ⟨⟨data, 0 + cfg.calculateSize T data, some batch.metadata⟩, rfl, ?_⟩
    exact ⟨by simp [hdata], by simpa using hpos, _, rfl, spans_singleton batch⟩
  · obtain ⟨first, last, hf, hl, hs, he⟩ := hspan
    -- The buffer's own gap check passes: its range ends with the last batch in it.
    have hnext : m.endVersion + 1 = batch.metadata.startVersion := by
      have hfol := (List.isChain_append.mp hchain).2.2 last hl batch rfl
      rw [he]
      exact add_one_eq_of_toNat hfol.next
    refine ⟨⟨buffer.buffer ++ data, buffer.bufferSizeBytes + cfg.calculateSize T data, some
      { m with
        endVersion := batch.metadata.endVersion
        totalSizeInBytes := batch.metadata.totalSizeInBytes
        endTransactionTimestamp := batch.metadata.endTransactionTimestamp }⟩, ?_, ?_⟩
    · simp [appendToBuffer, ParquetBuffer.updateCurrentBatchMetadata, hm, hnext]
    · exact ⟨by simp [hrows, hdata], by simp only; omega, _, rfl,
        spans_append ⟨first, last, hf, hl, hs, he⟩⟩

theorem appendToBuffer_frame (cfg : BufferConfig τ ρ) (cur : TransactionMetadata)
    (s : BufferState τ ρ) (buffer : ParquetBuffer ρ) (data : List ρ) {T T' : τ} (hne : T ≠ T') :
    (appendToBuffer cfg cur s T' buffer data).uploaded = s.uploaded ∧
    (appendToBuffer cfg cur s T' buffer data).uploadMetadataMap = s.uploadMetadataMap ∧
    (appendToBuffer cfg cur s T' buffer data).internalBuffers.lookup T =
      s.internalBuffers.lookup T := by
  unfold appendToBuffer
  simp only
  split <;> exact ⟨rfl, rfl, AList.lookup_insert_ne hne⟩

/-- Appending another table's rows leaves a table alone. -/
theorem uploadBufferAppend_frame (cfg : BufferConfig τ ρ) (cur : TransactionMetadata)
    (uploadOk : τ → Bool) (s : BufferState τ ρ) (item : τ × List ρ) {T : τ} (hne : T ≠ item.1) :
    proj T (uploadBufferAppend cfg cur uploadOk s item).uploaded = proj T s.uploaded ∧
    proj T (uploadBufferAppend cfg cur uploadOk s item).uploadMetadataMap =
      proj T s.uploadMetadataMap ∧
    (uploadBufferAppend cfg cur uploadOk s item).internalBuffers.lookup T =
      s.internalBuffers.lookup T := by
  unfold uploadBufferAppend
  simp only
  split
  · exact ⟨rfl, rfl, rfl⟩
  · split
    · split
      · split
        next =>
          refine ⟨?_, rfl, AList.lookup_insert_ne hne⟩
          rw [proj_append, proj_singleton_ne _ (Ne.symm hne), List.append_nil]
        next m _ =>
          obtain ⟨hup, hmap, hbuf⟩ := appendToBuffer_frame cfg cur
            { s with
              uploaded := s.uploaded ++
                [(item.1, ((s.internalBuffers.lookup item.1).getD .new).buffer)]
              uploadMetadataMap := s.uploadMetadataMap ++ [(item.1, m)] } .new item.2 hne
          refine ⟨?_, ?_, hbuf⟩
          · rw [hup, proj_append, proj_singleton_ne _ (Ne.symm hne), List.append_nil]
          · rw [hmap, proj_append, proj_singleton_ne _ (Ne.symm hne), List.append_nil]
      · exact ⟨rfl, rfl, AList.lookup_insert_ne hne⟩
    · obtain ⟨hup, hmap, hbuf⟩ := appendToBuffer_frame cfg cur s
        ((s.internalBuffers.lookup item.1).getD .new) item.2 hne
      exact ⟨by rw [hup], by rw [hmap], hbuf⟩

/-- Appending a table's own rows takes it one batch further, or fails. -/
theorem uploadBufferAppend_table {cfg : BufferConfig τ ρ}
    (hsize : ∀ T rows, 0 < cfg.calculateSize T rows) (uploadOk : τ → Bool) {s : BufferState τ ρ}
    {T : τ} {batch : InputBatch τ ρ} {seen : List (InputBatch τ ρ)}
    {emitted : List (τ × TransactionMetadata)} (herr : s.error = none)
    (h : TableOk T seen emitted s) (hchain : (seen ++ [batch]).IsChain Follows) :
    let s' := uploadBufferAppend cfg batch.metadata uploadOk s (T, rowsOf T batch)
    (s'.error = none ∧ TableOk T (seen ++ [batch]) emitted s') ∨
      (s'.error ≠ none ∧ TableWeak T seen emitted s'.uploaded) := by
  have hweak := h.weak (List.prefix_refl seen)
  obtain ⟨done, pending, rfl, hup, hemit, hbuf⟩ := h
  have hchain' : (pending ++ [batch]).IsChain Follows := by
    rw [List.append_assoc] at hchain
    exact hchain.right_of_append
  intro s'
  simp only [s', uploadBufferAppend, herr, Option.isSome_none, Bool.false_eq_true, if_false]
  split
  next =>
    split
    next =>
      cases hl : s.internalBuffers.lookup T with
      | none =>
        -- An overflow of an empty buffer uploads nothing and panics.
        refine Or.inr ⟨by simp [ParquetBuffer.new], ?_⟩
        obtain ⟨done', reported, hd, hr, hu, he⟩ := hweak
        refine ⟨done', reported, hd, hr, ?_, he⟩
        simpa [ParquetBuffer.new] using hu
      | some b =>
        rw [hl] at hbuf
        obtain ⟨hrows, _, m, hm, hspan⟩ := hbuf
        simp only [Option.getD_some, hm]
        obtain ⟨b', heq, hb'⟩ := appendToBuffer_ok hsize
          { s with
            uploaded := s.uploaded ++ [(T, b.buffer)]
            uploadMetadataMap := s.uploadMetadataMap ++ [(T, m)] }
          rfl (Or.inl ⟨rfl, rfl⟩) (List.isChain_singleton batch)
        simp only [herr] at heq
        rw [heq]
        -- What was pending is uploaded and reported; the new batch is pending.
        refine Or.inl ⟨rfl, done ++ pending, [batch], rfl, ?_, ?_, ?_⟩
        · simp only [proj_append, proj_singleton_self, List.flatten_append, List.flatMap_append,
            hup, hrows]
          simp
        · have hsnoc := Emits.snoc hemit hspan
          simpa [List.append_assoc] using hsnoc
        · rw [AList.lookup_insert]
          exact hb'
    next => exact Or.inr ⟨by simp, hweak⟩
  next =>
    have hbuf' : ((s.internalBuffers.lookup T).getD .new = .new ∧ pending = []) ∨
        Buffered T pending (some ((s.internalBuffers.lookup T).getD .new)) := by
      cases hl : s.internalBuffers.lookup T with
      | none => rw [hl] at hbuf; exact Or.inl ⟨rfl, hbuf⟩
      | some b => rw [hl] at hbuf; exact Or.inr hbuf
    obtain ⟨b', heq, hb'⟩ := appendToBuffer_ok hsize s rfl hbuf' hchain'
    rw [heq]
    refine Or.inl ⟨herr, done, pending ++ [batch], by rw [List.append_assoc], hup, hemit, ?_⟩
    rw [AList.lookup_insert]
    exact hb'

theorem TableWeak.mono {T : τ} {seen inputs : List (InputBatch τ ρ)}
    {emitted : List (τ × TransactionMetadata)} {uploaded : List (τ × List ρ)}
    (h : TableWeak T seen emitted uploaded) (hpre : seen <+: inputs) :
    TableWeak T inputs emitted uploaded := by
  obtain ⟨done, reported, hd, hr, hu, he⟩ := h
  exact ⟨done, reported, hd.trans hpre, hr, hu, he⟩

theorem foldl_uploadBufferAppend_of_error {cfg : BufferConfig τ ρ} {cur : TransactionMetadata}
    {uploadOk : τ → Bool} {s : BufferState τ ρ} (h : s.error ≠ none) (items : List (τ × List ρ)) :
    items.foldl (uploadBufferAppend cfg cur uploadOk) s = s := by
  refine foldl_invariant (P := fun s' => s' = s) ?_ rfl
  intro s' item _ hs'
  subst hs'
  exact if_pos (Option.isSome_iff_ne_none.mpr h)

/-- A whole batch: every table it carries moves one batch on, or the call
fails. `all` is what each table will have seen. -/
theorem foldl_uploadBufferAppend {cfg : BufferConfig τ ρ}
    (hsize : ∀ T rows, 0 < cfg.calculateSize T rows) (uploadOk : τ → Bool)
    {batch : InputBatch τ ρ} (emitted : List (τ × TransactionMetadata))
    (all : τ → List (InputBatch τ ρ)) :
    ∀ (items : List (τ × List ρ)) (s : BufferState τ ρ) (seen : τ → List (InputBatch τ ρ)),
      (items.map Prod.fst).Nodup → (∀ item ∈ items, item.2 = rowsOf item.1 batch) →
      (∀ T ∈ items.map Prod.fst, seen T ++ [batch] = all T ∧ (all T).IsChain Follows) →
      (∀ T, T ∉ items.map Prod.fst → seen T = all T) →
      s.error = none → (∀ T, TableOk T (seen T) emitted s) →
      let s' := items.foldl (uploadBufferAppend cfg batch.metadata uploadOk) s
      (s'.error = none ∧ ∀ T, TableOk T (all T) emitted s') ∨
        (s'.error ≠ none ∧ ∀ T, TableWeak T (all T) emitted s'.uploaded) := by
  intro items
  induction items with
  | nil =>
    intro s seen _ _ _ hout herr hok
    exact Or.inl ⟨herr, fun T => hout T (by simp) ▸ hok T⟩
  | cons item items ih =>
    intro s seen hnd hrows hin hout herr hok
    obtain ⟨T₀, data⟩ := item
    obtain rfl : data = rowsOf T₀ batch := hrows _ (List.mem_cons_self ..)
    rw [List.map_cons, List.nodup_cons] at hnd
    obtain ⟨hall, hchain⟩ := hin T₀ (List.mem_cons_self ..)
    -- A table that has not had its turn in the loop lacks this batch at most.
    have hpre : ∀ T, seen T <+: all T := by
      intro T
      by_cases hT : T ∈ ((T₀, rowsOf T₀ batch) :: items).map Prod.fst
      · exact (hin T hT).1 ▸ List.prefix_append _ _
      · exact hout T hT ▸ List.prefix_refl _
    have htable := uploadBufferAppend_table hsize uploadOk herr (hok T₀)
      (hall ▸ hchain)
    have hframe : ∀ T, T ≠ T₀ → TableOk T (seen T) emitted
        (uploadBufferAppend cfg batch.metadata uploadOk s (T₀, rowsOf T₀ batch)) := by
      intro T hT
      obtain ⟨hu, hm, hb⟩ := uploadBufferAppend_frame cfg batch.metadata uploadOk s
        (T₀, rowsOf T₀ batch) hT
      exact (hok T).congr hu hm hb
    intro s'
    rcases htable with ⟨herr', hok'⟩ | ⟨herr', hweak⟩
    · -- `T₀` is done with this batch; the tables after it are still to come.
      refine ih _ (Function.update seen T₀ (all T₀)) hnd.2
        (fun item hitem => hrows item (List.mem_cons_of_mem _ hitem)) ?_ ?_ herr' ?_
      · intro T hT
        have hne : T ≠ T₀ := fun h => hnd.1 (h ▸ hT)
        rw [Function.update_of_ne hne]
        exact hin T (List.mem_cons_of_mem _ hT)
      · intro T hT
        by_cases hT₀ : T = T₀
        · subst hT₀
          exact Function.update_self ..
        · rw [Function.update_of_ne hT₀]
          refine hout T fun hmem => ?_
          rcases List.mem_cons.mp hmem with h | h
          · exact hT₀ h
          · exact hT h
      · intro T
        by_cases hT₀ : T = T₀
        · subst hT₀
          rw [Function.update_self, ← hall]
          exact hok'
        · rw [Function.update_of_ne hT₀]
          exact hframe T hT₀
    · -- The `?` ends the loop: the tables after `T₀` are left as they were.
      have hs' : s' = uploadBufferAppend cfg batch.metadata uploadOk s (T₀, rowsOf T₀ batch) :=
        foldl_uploadBufferAppend_of_error herr' items
      refine Or.inr ⟨hs' ▸ herr', fun T => ?_⟩
      rw [hs']
      by_cases hT₀ : T = T₀
      · subst hT₀
        exact hweak.mono (hpre T)
      · exact (hframe T hT₀).weak (hpre T)

/-! ## Draining -/

/-- A table whose batches are all uploaded and reported. -/
def Drained (T : τ) (seen : List (InputBatch τ ρ)) (emitted : List (τ × TransactionMetadata))
    (s : BufferState τ ρ) : Prop :=
  (proj T s.uploaded).flatten = seen.flatMap (rowsOf T) ∧
    Emits seen (proj T (emitted ++ s.uploadMetadataMap))

theorem Drained.weak {T : τ} {seen : List (InputBatch τ ρ)}
    {emitted : List (τ × TransactionMetadata)} {s : BufferState τ ρ}
    (h : Drained T seen emitted s) : TableWeak T seen emitted s.uploaded := by
  obtain ⟨hu, he⟩ := h
  rw [proj_append] at he
  obtain ⟨reported, hr, he'⟩ := he.left
  exact ⟨seen, reported, List.prefix_refl _, hr, hu, he'⟩

section Drain

variable (finish : ℕ → TransactionMetadata → TransactionMetadata) (uploadOk : τ → Bool)
  (s : BufferState τ ρ) {T : τ}

theorem drainBuffer_internalBuffers (T' : τ) :
    (drainBuffer finish uploadOk s T').internalBuffers = s.internalBuffers := by
  unfold drainBuffer
  split
  · rfl
  · split
    · rfl
    · split
      · split
        · simp only
          split <;> rfl
        · rfl
      · rfl

theorem drainBuffer_frame {T' : τ} (hne : T ≠ T') :
    proj T (drainBuffer finish uploadOk s T').uploaded = proj T s.uploaded ∧
    proj T (drainBuffer finish uploadOk s T').uploadMetadataMap = proj T s.uploadMetadataMap := by
  unfold drainBuffer
  split
  · exact ⟨rfl, rfl⟩
  · split
    · exact ⟨rfl, rfl⟩
    · split
      · split
        · simp only
          split
          · exact ⟨by rw [proj_append, proj_singleton_ne _ (Ne.symm hne), List.append_nil], rfl⟩
          · constructor <;>
              rw [proj_append, proj_singleton_ne _ (Ne.symm hne), List.append_nil]
        · exact ⟨rfl, rfl⟩
      · exact ⟨rfl, rfl⟩

/-- Draining a table uploads and reports its buffer, or fails. -/
theorem drainBuffer_table {finish : ℕ → TransactionMetadata → TransactionMetadata}
    {s : BufferState τ ρ} {seen : List (InputBatch τ ρ)}
    {emitted : List (τ × TransactionMetadata)}
    (hfinish : ∀ n m, (finish n m).startVersion = m.startVersion ∧
      (finish n m).endVersion = m.endVersion)
    (herr : s.error = none) (h : TableOk T seen emitted s) :
    ((drainBuffer finish uploadOk s T).error = none ∧
        Drained T seen emitted (drainBuffer finish uploadOk s T)) ∨
      ((drainBuffer finish uploadOk s T).error ≠ none ∧
        TableWeak T seen emitted (drainBuffer finish uploadOk s T).uploaded) := by
  have hweak := h.weak (List.prefix_refl seen)
  obtain ⟨done, pending, rfl, hup, hemit, hbuf⟩ := h
  unfold drainBuffer
  rw [herr]
  cases hl : s.internalBuffers.lookup T with
  | none =>
    rw [hl] at hbuf
    obtain rfl : pending = [] := hbuf
    rw [List.append_nil]
    exact Or.inl ⟨herr, hup, hemit⟩
  | some b =>
    rw [hl] at hbuf
    obtain ⟨hrows, hsz, m, hm, first, last, hf, hlast, hs, he⟩ := hbuf
    simp only [Option.isSome_none, Bool.false_eq_true, if_false, hsz, if_true, hm]
    split
    next =>
      refine Or.inl ⟨rfl, ?_, ?_⟩
      · simp [hup, hrows]
      · -- `cleanup` rewrites the size in the metadata, not the range.
        have hspan : Spans pending (finish b.bufferSizeBytes m) :=
          ⟨first, last, hf, hlast, (hfinish _ m).1.trans hs, (hfinish _ m).2.trans he⟩
        have hsnoc := Emits.snoc hemit hspan
        simpa [List.append_assoc] using hsnoc
    next => exact Or.inr ⟨by simp, hweak⟩

theorem foldl_drainBuffer_of_error {s : BufferState τ ρ} (h : s.error ≠ none) (order : List τ) :
    order.foldl (drainBuffer finish uploadOk) s = s := by
  refine foldl_invariant (P := fun s' => s' = s) ?_ rfl
  intro s' T _ hs'
  subst hs'
  exact if_pos (Option.isSome_iff_ne_none.mpr h)

end Drain

/-- Draining all buffers leaves every table uploaded and reported, or fails. -/
theorem foldl_drainBuffer {finish : ℕ → TransactionMetadata → TransactionMetadata}
    (hfinish : ∀ n m, (finish n m).startVersion = m.startVersion ∧
      (finish n m).endVersion = m.endVersion)
    (uploadOk : τ → Bool) (emitted : List (τ × TransactionMetadata))
    (seen : τ → List (InputBatch τ ρ)) :
    ∀ (order : List τ) (s : BufferState τ ρ), order.Nodup → s.error = none →
      (∀ T ∈ order, TableOk T (seen T) emitted s) →
      (∀ T, T ∉ order → Drained T (seen T) emitted s) →
      let s' := order.foldl (drainBuffer finish uploadOk) s
      (s'.error = none ∧ ∀ T, Drained T (seen T) emitted s') ∨
        (s'.error ≠ none ∧ ∀ T, TableWeak T (seen T) emitted s'.uploaded) := by
  intro order
  induction order with
  | nil => intro s _ herr _ hout; exact Or.inl ⟨herr, fun T => hout T (by simp)⟩
  | cons T₀ order ih =>
    intro s hnd herr hin hout
    rw [List.nodup_cons] at hnd
    have htable := drainBuffer_table uploadOk hfinish herr
      (hin T₀ (List.mem_cons_self ..))
    -- The other tables are left as they are by this one, those to come and those done.
    have hin' : ∀ T ∈ order, TableOk T (seen T) emitted (drainBuffer finish uploadOk s T₀) := by
      intro T hT
      have hne : T ≠ T₀ := fun h => hnd.1 (h ▸ hT)
      obtain ⟨hu, hm⟩ := drainBuffer_frame finish uploadOk s hne
      exact (hin T (List.mem_cons_of_mem _ hT)).congr hu hm
        (by rw [drainBuffer_internalBuffers])
    have hout' : ∀ T, T ∉ order → T ≠ T₀ →
        Drained T (seen T) emitted (drainBuffer finish uploadOk s T₀) := by
      intro T hT hne
      obtain ⟨hu, hm⟩ := drainBuffer_frame finish uploadOk s hne
      obtain ⟨hup, he⟩ := hout T fun h => (List.mem_cons.mp h).elim hne hT
      refine ⟨by rw [hu, hup], ?_⟩
      rw [proj_append] at he ⊢
      rwa [hm]
    intro s'
    rcases htable with ⟨herr', hdr⟩ | ⟨herr', hweak⟩
    · refine ih _ hnd.2 herr' hin' fun T hT => ?_
      by_cases hT₀ : T = T₀
      · subst hT₀
        exact hdr
      · exact hout' T hT hT₀
    -- After a failed upload the loop does nothing more.
    · have hs' : s' = drainBuffer finish uploadOk s T₀ :=
        foldl_drainBuffer_of_error finish uploadOk herr' order
      refine Or.inr ⟨hs' ▸ herr', fun T => ?_⟩
      rw [hs']
      by_cases hT₀ : T = T₀
      · subst hT₀
        exact hweak
      · by_cases hT : T ∈ order
        · exact (hin' T hT).weak (List.prefix_refl _)
        · exact (hout' T hT hT₀).weak

/-! ## Each call reports a table once -/

/-- The keys of a call's output are some of the tables it walked over. -/
theorem keys_processBatch (cfg : BufferConfig τ ρ) (cur : TransactionMetadata)
    (uploadOk : τ → Bool) :
    ∀ (items : List (τ × List ρ)) (s : BufferState τ ρ), ∃ keys, keys.Sublist (items.map Prod.fst) ∧
      (items.foldl (uploadBufferAppend cfg cur uploadOk) s).uploadMetadataMap.map Prod.fst =
        s.uploadMetadataMap.map Prod.fst ++ keys := by
  intro items
  induction items with
  | nil => intro s; exact ⟨[], .slnil, by simp⟩
  | cons item items ih =>
    intro s
    obtain ⟨keys, hsub, heq⟩ := ih (uploadBufferAppend cfg cur uploadOk s item)
    have happend : ∀ (s : BufferState τ ρ) (buffer : ParquetBuffer ρ),
        (appendToBuffer cfg cur s item.1 buffer item.2).uploadMetadataMap =
          s.uploadMetadataMap := by
      intro s buffer
      unfold appendToBuffer
      simp only
      split <;> rfl
    -- A table reports at most once when it has its turn, and it has one turn.
    have hstep : (uploadBufferAppend cfg cur uploadOk s item).uploadMetadataMap.map Prod.fst =
          s.uploadMetadataMap.map Prod.fst ∨
        (uploadBufferAppend cfg cur uploadOk s item).uploadMetadataMap.map Prod.fst =
          s.uploadMetadataMap.map Prod.fst ++ [item.1] := by
      unfold uploadBufferAppend
      simp only
      split
      · exact Or.inl rfl
      · split
        · split
          · split
            · exact Or.inl rfl
            · exact Or.inr (by rw [happend]; simp)
          · exact Or.inl rfl
        · exact Or.inl (by rw [happend])
    rw [List.foldl_cons, heq]
    rcases hstep with h | h
    · exact ⟨keys, hsub.cons _, by rw [h]⟩
    · exact ⟨item.1 :: keys, hsub.cons_cons _, by rw [h, List.append_assoc]; rfl⟩

theorem keys_drain (finish : ℕ → TransactionMetadata → TransactionMetadata)
    (uploadOk : τ → Bool) :
    ∀ (order : List τ) (s : BufferState τ ρ), ∃ keys, keys.Sublist order ∧
      (order.foldl (drainBuffer finish uploadOk) s).uploadMetadataMap.map Prod.fst =
        s.uploadMetadataMap.map Prod.fst ++ keys := by
  intro order
  induction order with
  | nil => intro s; exact ⟨[], .slnil, by simp⟩
  | cons T order ih =>
    intro s
    obtain ⟨keys, hsub, heq⟩ := ih (drainBuffer finish uploadOk s T)
    have hstep : (drainBuffer finish uploadOk s T).uploadMetadataMap.map Prod.fst =
          s.uploadMetadataMap.map Prod.fst ∨
        (drainBuffer finish uploadOk s T).uploadMetadataMap.map Prod.fst =
          s.uploadMetadataMap.map Prod.fst ++ [T] := by
      unfold drainBuffer
      split
      · exact Or.inl rfl
      · split
        · exact Or.inl rfl
        · split
          · split
            · simp only
              split
              · exact Or.inl rfl
              · exact Or.inr (by simp)
            · exact Or.inl rfl
          · exact Or.inl rfl
    rw [List.foldl_cons, heq]
    rcases hstep with h | h
    · exact ⟨keys, hsub.cons _, by rw [h]⟩
    · exact ⟨T :: keys, hsub.cons_cons _, by rw [h, List.append_assoc]; rfl⟩

/-! ## The tracker -/

/-- Consecutive ranges pass the gap check, and the last one of each table is
kept. -/
theorem foldl_trackRange :
    ∀ (order : List (τ × TransactionMetadata)) (s : TrackerState τ)
      (delivered : List (τ × TransactionMetadata)), s.error = none →
      (∀ T, s.lastSuccessBatch.lookup T = (proj T delivered).getLast?) →
      (∀ T, Consecutive (proj T (delivered ++ order))) →
      (order.foldl trackRange s).error = none ∧ (order.foldl trackRange s).saved = s.saved ∧
      ∀ T, (order.foldl trackRange s).lastSuccessBatch.lookup T =
        (proj T (delivered ++ order)).getLast? := by
  intro order
  induction order with
  | nil => intro s delivered herr hlast _; exact ⟨herr, rfl, by simpa using hlast⟩
  | cons range order ih =>
    intro s delivered herr hlast hcons
    obtain ⟨T₀, m⟩ := range
    have hsplit : delivered ++ (T₀, m) :: order = delivered ++ [(T₀, m)] ++ order := by simp
    have hstep : trackRange s (T₀, m) =
        { s with lastSuccessBatch := s.lastSuccessBatch.insert T₀ m } := by
      unfold trackRange
      rw [herr]
      cases hl : s.lastSuccessBatch.lookup T₀ with
      | none => simp
      | some last =>
        have hchain := hcons T₀
        rw [hsplit, proj_append, proj_append, proj_singleton_self, List.append_assoc] at hchain
        -- The tracker compares with the last range delivered before this one.
        have hnext := (List.isChain_append.mp hchain).2.2 last (hlast T₀ ▸ hl) m rfl
        simp [add_one_eq_of_toNat hnext]
    rw [List.foldl_cons, hstep, hsplit]
    refine ih _ (delivered ++ [(T₀, m)]) herr ?_ (hsplit ▸ hcons)
    intro T
    simp only [proj_append]
    by_cases hT : T = T₀
    · subst hT
      rw [AList.lookup_insert, proj_singleton_self, List.getLast?_concat]
    · rw [AList.lookup_insert_ne hT, proj_singleton_ne _ (Ne.symm hT), List.append_nil, hlast]

/-- Saving keeps the tracked ranges and stores some of them. -/
theorem foldl_saveStatus (saveOk : τ → Bool) :
    ∀ (order : List τ) (s : TrackerState τ),
      (order.foldl (saveStatus saveOk) s).lastSuccessBatch = s.lastSuccessBatch ∧
      ((order.foldl (saveStatus saveOk) s).error = s.error ∨
        (order.foldl (saveStatus saveOk) s).error = some .saveFailed) ∧
      ∀ e ∈ (order.foldl (saveStatus saveOk) s).saved,
        e ∈ s.saved ∨ s.lastSuccessBatch.lookup e.1 = some e.2 := by
  intro order
  induction order with
  | nil => intro s; exact ⟨rfl, Or.inl rfl, fun e he => Or.inl he⟩
  | cons T order ih =>
    intro s
    have hstep : (saveStatus saveOk s T).lastSuccessBatch = s.lastSuccessBatch ∧
        ((saveStatus saveOk s T).error = s.error ∨
          (saveStatus saveOk s T).error = some .saveFailed) ∧
        ∀ e ∈ (saveStatus saveOk s T).saved,
          e ∈ s.saved ∨ s.lastSuccessBatch.lookup e.1 = some e.2 := by
      unfold saveStatus
      split
      · exact ⟨rfl, Or.inl rfl, fun e he => Or.inl he⟩
      · split
        · exact ⟨rfl, Or.inl rfl, fun e he => Or.inl he⟩
        next m hm =>
          -- A save may fail; the error is the only trace of it.
          split
          · refine ⟨rfl, Or.inl rfl, fun e he => ?_⟩
            rcases List.mem_append.mp he with he | he
            · exact Or.inl he
            · obtain rfl := List.mem_singleton.mp he
              exact Or.inr hm
          · exact ⟨rfl, Or.inr rfl, fun e he => Or.inl he⟩
    obtain ⟨hlast, herr, hsaved⟩ := ih (saveStatus saveOk s T)
    refine ⟨hlast.trans hstep.1, ?_, fun e he => ?_⟩
    · rcases herr with herr | herr
      · exact herr ▸ hstep.2.1
      · exact Or.inr herr
    · rcases hsaved e he with he | he
      · exact hstep.2.2 e he
      · exact Or.inr (hstep.1 ▸ he)

end IndexerProcessors.Parquet

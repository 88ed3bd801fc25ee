import IndexerProcessors.Parquet.Pipeline

/-!
# A batch the buffer step refuses

`upload_buffer_append` compares the buffered bytes plus the incoming ones with
`buffer_max_size`. If the sum is larger it uploads the buffer and unwraps the
buffer's metadata. A buffer the call has only just created has no metadata, and
there the sum is the batch's own size: a batch that is too large for an empty
buffer panics, although the buffer it would go into is empty.

`accepts_iff` says where this happens: a running step takes a batch exactly if
no table that has no buffer yet gets more bytes than `buffer_max_size`. A buffer
is missing at the start and after each poll. Every buffer that is there has
metadata ending right before the next batch (`BuffersOpen`), so a batch of any
size is fine for it.
-/

namespace IndexerProcessors.Parquet

open IndexerProcessors.Lib

section Call

variable {τ ρ : Type} [DecidableEq τ] {cfg : BufferConfig τ ρ} {cur : TransactionMetadata}
  {uploadOk : τ → Bool}

/-! ## What a call that succeeds has done -/

/-- A table's buffer that ends at `v`. -/
def EndsAt (v : UInt64) (b : ParquetBuffer ρ) : Prop :=
  ∃ m, b.currentBatchMetadata = some m ∧ m.endVersion = v

omit [DecidableEq τ] in
theorem updateCurrentBatchMetadata_of_ok {b b' : ParquetBuffer ρ}
    (h : b.updateCurrentBatchMetadata cur = (.ok b' : Except (StepError τ) _)) :
    b'.buffer = b.buffer ∧ EndsAt cur.endVersion b' := by
  unfold ParquetBuffer.updateCurrentBatchMetadata at h
  split at h
  next m hm =>
    split at h
    · cases h
    · obtain rfl := Except.ok.inj h
      exact ⟨rfl, _, rfl, rfl⟩
  next =>
    obtain rfl := Except.ok.inj h
    exact ⟨rfl, cur, rfl, rfl⟩

theorem appendToBuffer_of_ok {s : BufferState τ ρ} {T : τ} {buffer : ParquetBuffer ρ}
    {data : List ρ} (h : (appendToBuffer cfg cur s T buffer data).error = none) :
    s.error = none ∧ ∃ b, data <:+ b.buffer ∧ EndsAt cur.endVersion b ∧
      appendToBuffer cfg cur s T buffer data =
        { s with internalBuffers := s.internalBuffers.insert T b } := by
  unfold appendToBuffer at h ⊢
  simp only at h ⊢
  split at h
  next b hb =>
    obtain ⟨hrows, hends⟩ := updateCurrentBatchMetadata_of_ok hb
    exact ⟨h, b, hrows ▸ List.suffix_append _ _, hends, rfl⟩
  next => cases h

/-- One table: what is there is uploaded with its metadata, or nothing is; then
the rows go into a buffer. -/
theorem uploadBufferAppend_of_ok {s : BufferState τ ρ} {item : τ × List ρ}
    (h : (uploadBufferAppend cfg cur uploadOk s item).error = none) :
    s.error = none ∧ ∃ b s₁, item.2 <:+ b.buffer ∧ EndsAt cur.endVersion b ∧
      (s₁ = s ∨ ∃ stored m, s.internalBuffers.lookup item.1 = some stored ∧
        stored.currentBatchMetadata = some m ∧
        s₁ = { s with
          uploaded := s.uploaded ++ [(item.1, stored.buffer)]
          uploadMetadataMap := s.uploadMetadataMap ++ [(item.1, m)] }) ∧
      uploadBufferAppend cfg cur uploadOk s item =
        { s₁ with internalBuffers := s.internalBuffers.insert item.1 b } := by
  have herr : s.error = none := by
    by_contra hne
    have hs : uploadBufferAppend cfg cur uploadOk s item = s :=
      if_pos (Option.isSome_iff_ne_none.mpr hne)
    exact hne (hs ▸ h)
  have hrun : ¬s.error.isSome = true := by simp [herr]
  refine ⟨herr, ?_⟩
  unfold uploadBufferAppend at h ⊢
  rw [if_neg hrun] at h ⊢
  simp only at h ⊢
  split at h
  next hover =>
    rw [if_pos hover]
    split at h
    next hup =>
      rw [if_pos hup]
      split at h
      next => cases h
      next m hm =>
        obtain ⟨_, b, hrows, hends, heq⟩ := appendToBuffer_of_ok h
        rw [heq]
        refine ⟨b, _, hrows, hends, Or.inr ?_, rfl⟩
        -- Only a stored buffer has metadata.
        cases hl : s.internalBuffers.lookup item.1 with
        | none =>
          rw [hl] at hm
          cases hm
        | some stored =>
          rw [hl] at hm
          exact ⟨stored, m, rfl, hm, rfl⟩
    next => cases h
  next hfit =>
    rw [if_neg hfit]
    obtain ⟨_, b, hrows, hends, heq⟩ := appendToBuffer_of_ok h
    exact ⟨b, s, hrows, hends, Or.inl rfl, heq⟩

/-- An upload and its report: a buffer's rows and the buffer's metadata. -/
def Reported (buffers : Table τ (ParquetBuffer ρ)) (u : τ × List ρ)
    (m : τ × TransactionMetadata) : Prop :=
  u.1 = m.1 ∧ ∃ b, buffers.lookup u.1 = some b ∧ u.2 = b.buffer ∧
    b.currentBatchMetadata = some m.2

/-- What a call that succeeds has done for the tables of `items`. -/
structure Appended (cur : TransactionMetadata) (items : List (τ × List ρ))
    (s s' : BufferState τ ρ) : Prop where
  wasOk : s.error = none
  reports : ∃ ups metas, s'.uploaded = s.uploaded ++ ups ∧
    s'.uploadMetadataMap = s.uploadMetadataMap ++ metas ∧
    ups.map Prod.fst ⊆ items.map Prod.fst ∧ List.Forall₂ (Reported s.internalBuffers) ups metas
  buffered : ∀ item ∈ items, ∃ b, s'.internalBuffers.lookup item.1 = some b ∧
    item.2 <:+ b.buffer ∧ EndsAt cur.endVersion b
  others : ∀ T ∉ items.map Prod.fst, s'.internalBuffers.lookup T = s.internalBuffers.lookup T

theorem appended_singleton {s : BufferState τ ρ} {item : τ × List ρ}
    (h : (uploadBufferAppend cfg cur uploadOk s item).error = none) :
    Appended cur [item] s (uploadBufferAppend cfg cur uploadOk s item) := by
  obtain ⟨herr, b, s₁, hrows, hends, hs₁, heq⟩ := uploadBufferAppend_of_ok h
  rw [heq]
  refine ⟨herr, ?_, ?_, ?_⟩
  · rcases hs₁ with rfl | ⟨stored, m, hl, hm, rfl⟩
    · exact ⟨[], [], by simp, by simp, by simp, .nil⟩
    · exact ⟨[(item.1, stored.buffer)], [(item.1, m)], rfl, rfl, by simp,
        .cons ⟨rfl, stored, hl, rfl, hm⟩ .nil⟩
  · intro item' hitem
    obtain rfl := List.mem_singleton.mp hitem
    exact ⟨b, AList.lookup_insert _, hrows, hends⟩
  · intro T hT
    exact AList.lookup_insert_ne fun he => hT (by simp [he])

/-- The tables of a call are told apart by their names, so what was done for the
first of them stays. -/
theorem Appended.cons {item : τ × List ρ} {items : List (τ × List ρ)} {s s' s'' : BufferState τ ρ}
    (hfirst : Appended cur [item] s s') (hrest : Appended cur items s' s'')
    (hnew : item.1 ∉ items.map Prod.fst) : Appended cur (item :: items) s s'' := by
  refine ⟨hfirst.wasOk, ?_, ?_, ?_⟩
  · obtain ⟨ups, metas, hu, hm, hsub, hrep⟩ := hfirst.reports
    obtain ⟨ups', metas', hu', hm', hsub', hrep'⟩ := hrest.reports
    refine ⟨ups ++ ups', metas ++ metas', by rw [hu', hu, List.append_assoc],
      by rw [hm', hm, List.append_assoc], ?_, ?_⟩
    · rw [List.map_append]
      exact List.append_subset.mpr ⟨fun T hT => by simpa using Or.inl (hsub hT),
        fun T hT => List.mem_cons_of_mem _ (hsub' hT)⟩
    · -- The later tables' buffers are still the ones from before the call.
      have hold : ∀ u ∈ ups', s'.internalBuffers.lookup u.1 = s.internalBuffers.lookup u.1 := by
        intro u hu
        have hmem : u.1 ∈ items.map Prod.fst := hsub' (List.mem_map_of_mem hu)
        exact hfirst.others u.1 fun he => hnew (List.mem_singleton.mp he ▸ hmem)
      refine List.rel_append hrep ?_
      refine List.Forall₂.imp ?_ ((List.forall₂_and_left _ _).mpr ⟨hold, hrep'⟩)
      rintro u m ⟨hlookup, hkey, hbuf⟩
      exact ⟨hkey, hlookup ▸ hbuf⟩
  · intro item' hitem
    rcases List.mem_cons.mp hitem with rfl | hitem
    · rw [hrest.others _ hnew]
      exact hfirst.buffered _ (List.mem_singleton.mpr rfl)
    · exact hrest.buffered item' hitem
  · intro T hT
    rw [List.map_cons, List.mem_cons, not_or] at hT
    rw [hrest.others T hT.2]
    exact hfirst.others T (by simpa using hT.1)

theorem appended_of_ok :
    ∀ {items : List (τ × List ρ)} {s : BufferState τ ρ}, (items.map Prod.fst).Nodup →
      (items.foldl (uploadBufferAppend cfg cur uploadOk) s).error = none →
      Appended cur items s (items.foldl (uploadBufferAppend cfg cur uploadOk) s) := by
  intro items
  induction items with
  | nil =>
    intro s _ h
    exact ⟨h, ⟨[], [], by simp, by simp, by simp, .nil⟩, by simp, fun _ _ => rfl⟩
  | cons item items ih =>
    intro s hnd h
    rw [List.map_cons, List.nodup_cons] at hnd
    rw [List.foldl_cons] at h ⊢
    have hrest := ih hnd.2 h
    exact (appended_singleton hrest.wasOk).cons hrest hnd.1

/-! ## When a call succeeds -/

/-- If the table has a buffer, the range in it ends right before `cur`. -/
def BuffersReady (cur : TransactionMetadata) (buffers : Table τ (ParquetBuffer ρ)) (T : τ) :
    Prop :=
  ∀ b, buffers.lookup T = some b →
    ∃ m, b.currentBatchMetadata = some m ∧ m.endVersion + 1 = cur.startVersion

/-- A table without a buffer gets at most `buffer_max_size` bytes. One with a
buffer may get any number. -/
def FitsIfNew (cfg : BufferConfig τ ρ) (buffers : Table τ (ParquetBuffer ρ))
    (item : τ × List ρ) : Prop :=
  item.1 ∉ buffers → cfg.calculateSize item.1 item.2 ≤ cfg.bufferMaxSize

theorem uploadBufferAppend_ok_iff (cfg : BufferConfig τ ρ) {s : BufferState τ ρ} {item : τ × List ρ}
    (herr : s.error = none) (hready : BuffersReady cur s.internalBuffers item.1) :
    (uploadBufferAppend cfg cur (fun _ => true) s item).error = none ↔
      FitsIfNew cfg s.internalBuffers item := by
  have hrun : ¬s.error.isSome = true := by simp [herr]
  unfold uploadBufferAppend FitsIfNew
  rw [if_neg hrun]
  cases hl : s.internalBuffers.lookup item.1 with
  | none =>
    have hnew : item.1 ∉ s.internalBuffers := AList.lookup_eq_none.mp hl
    simp only [Option.getD_none, ParquetBuffer.new, Nat.zero_add, if_true]
    by_cases hover : cfg.bufferMaxSize < cfg.calculateSize item.1 item.2
    · rw [if_pos hover]
      constructor
      · intro h
        cases h
      · intro hfit
        have hle := hfit hnew
        omega
    · rw [if_neg hover]
      exact iff_of_true herr fun _ => Nat.not_lt.mp hover
  | some b =>
    obtain ⟨m, hm, hnext⟩ := hready b hl
    have hold : item.1 ∈ s.internalBuffers :=
      AList.lookup_isSome.mp (hl ▸ Option.isSome_some)
    refine iff_of_true ?_ fun hnew => absurd hold hnew
    simp only [Option.getD_some, if_true]
    split
    · rw [hm]
      exact herr
    · simp [appendToBuffer, ParquetBuffer.updateCurrentBatchMetadata, hm, hnext, herr]

theorem foldl_ok_iff (cfg : BufferConfig τ ρ) :
    ∀ {items : List (τ × List ρ)} {s : BufferState τ ρ}, s.error = none →
      (items.map Prod.fst).Nodup → (∀ item ∈ items, BuffersReady cur s.internalBuffers item.1) →
      ((items.foldl (uploadBufferAppend cfg cur fun _ => true) s).error = none ↔
        ∀ item ∈ items, FitsIfNew cfg s.internalBuffers item) := by
  intro items
  induction items with
  | nil =>
    intro s herr _ _
    exact iff_of_true herr (by simp)
  | cons item items ih =>
    intro s herr hnd hready
    rw [List.map_cons, List.nodup_cons] at hnd
    rw [List.foldl_cons, List.forall_mem_cons]
    have hfirst := uploadBufferAppend_ok_iff cfg herr (hready item (List.mem_cons_self ..))
    -- The other tables' buffers are as they were.
    have hframe : ∀ item' ∈ items,
        (uploadBufferAppend cfg cur (fun _ => true) s item).internalBuffers.lookup item'.1 =
          s.internalBuffers.lookup item'.1 := by
      intro item' hitem'
      refine (uploadBufferAppend_frame cfg cur (fun _ => true) s item ?_).2.2
      intro he
      exact hnd.1 (he ▸ List.mem_map_of_mem hitem')
    by_cases hok : (uploadBufferAppend cfg cur (fun _ => true) s item).error = none
    · rw [ih hok hnd.2, and_iff_right (hfirst.mp hok)]
      · refine forall₂_congr fun item' hitem' => ?_
        unfold FitsIfNew
        rw [← AList.lookup_eq_none, ← AList.lookup_eq_none, hframe item' hitem']
      · intro item' hitem' b hb
        exact hready item' (List.mem_cons_of_mem _ hitem') b (hframe item' hitem' ▸ hb)
    · rw [foldl_uploadBufferAppend_of_error hok]
      exact iff_of_false hok fun hall => hok (hfirst.mpr hall.1)

end Call

/-! ## Every running step -/

section Runs

variable {τ ρ : Type} [DecidableEq τ] {cfg : BufferConfig τ ρ} {tables : List τ}
  {st st' : Pipeline τ ρ}

/-- While the step runs, a buffer that is there has metadata, up to the last
batch. -/
def BuffersOpen (tables : List τ) (st : Pipeline τ ρ) : Prop :=
  st.bufferStopped = false → ∀ T b, st.internalBuffers.lookup T = some b →
    T ∈ tables ∧ ∃ m, b.currentBatchMetadata = some m ∧ m.endVersion.toNat + 1 = st.nextVersion

omit [DecidableEq τ] in
theorem running_finishBufferCall {s : BufferState τ ρ} {stopped : Bool}
    (h : (Pipeline.finishBufferCall st s stopped).bufferStopped = false) :
    s.error = none ∧
      (Pipeline.finishBufferCall st s stopped).internalBuffers = s.internalBuffers ∧
      (Pipeline.finishBufferCall st s stopped).nextVersion = st.nextVersion := by
  unfold Pipeline.finishBufferCall at h ⊢
  cases herr : s.error with
  | some e =>
    rw [herr] at h
    cases h
  | none => exact ⟨rfl, rfl, rfl⟩

theorem buffersOpen_process {batch : InputBatch τ ρ} {uploadOk : τ → Bool} (hnd : tables.Nodup)
    (h : BuffersOpen tables st) (hin : Pipeline.InputOk tables st (.process batch uploadOk))
    (hstep : Pipeline.step cfg st (.process batch uploadOk) = some st') :
    BuffersOpen tables st' := by
  simp only [Pipeline.step] at hstep
  split at hstep
  next => cases hstep
  next hrun =>
    obtain rfl := Option.some.inj hstep
    intro hrun' T b hb
    obtain ⟨herr, hbuffers, hnext⟩ := running_finishBufferCall hrun'
    rw [hbuffers] at hb
    have hcall := appended_of_ok (hin.1.nodup_iff.mpr hnd) herr
    by_cases hT : T ∈ batch.data.map Prod.fst
    · refine ⟨hin.1.mem_iff.mp hT, ?_⟩
      obtain ⟨item, hitem, rfl⟩ := List.mem_map.mp hT
      obtain ⟨b', hb', _, m, hm, hend⟩ := hcall.buffered item hitem
      obtain rfl := Option.some.inj (hb'.symm.trans hb)
      refine ⟨m, hm, ?_⟩
      rw [hnext, hend]
      simp [Pipeline.nextVersion]
    · -- A buffer the batch has nothing for would be of a foreign table.
      have hold := hcall.others T hT
      have hmem := (h (Bool.eq_false_iff.mpr hrun) T b (hold.symm.trans hb)).1
      exact absurd (hin.1.mem_iff.mpr hmem) hT

theorem buffersOpen_drain {finish : ℕ → TransactionMetadata → TransactionMetadata}
    {order : List τ} {uploadOk : τ → Bool} {stopped : Bool} :
    BuffersOpen tables (Pipeline.finishBufferCall st
      (drain finish st.internalBuffers st.uploaded order uploadOk) stopped) := by
  intro hrun T b hb
  rw [(running_finishBufferCall hrun).2.1] at hb
  cases hb

theorem buffersOpen_step {a : PipelineAction τ ρ} (hnd : tables.Nodup)
    (h : BuffersOpen tables st) (hin : Pipeline.InputOk tables st a)
    (hstep : Pipeline.step cfg st a = some st') : BuffersOpen tables st' := by
  cases a with
  | process batch uploadOk => exact buffersOpen_process hnd h hin hstep
  | poll order uploadOk =>
    simp only [Pipeline.step] at hstep
    split at hstep
    · obtain rfl := Option.some.inj hstep
      exact buffersOpen_drain
    · cases hstep
  | cleanup order uploadOk =>
    simp only [Pipeline.step] at hstep
    split at hstep
    · obtain rfl := Option.some.inj hstep
      exact buffersOpen_drain
    · cases hstep
  | track order =>
    simp only [Pipeline.step] at hstep
    split at hstep
    · cases hstep
    · split at hstep
      · obtain rfl := Option.some.inj hstep
        exact h
      · cases hstep
  | saveStatuses order saveOk =>
    simp only [Pipeline.step] at hstep
    split at hstep
    · obtain rfl := Option.some.inj hstep
      exact h
    · cases hstep

end Runs

/-- What a `process` call is to do with its batch, whatever the sizes: return
normally, report each upload with the metadata of the buffer it emptied and
nothing else, and leave the batch's rows at the end of the tables' buffers. -/
structure Accepts {τ ρ : Type} [DecidableEq τ] (cfg : BufferConfig τ ρ)
    (buffers : Table τ (ParquetBuffer ρ)) (batch : InputBatch τ ρ) : Prop where
  ok : (processBatch cfg buffers [] batch fun _ => true).error = none
  reports : List.Forall₂ (Reported buffers)
    (processBatch cfg buffers [] batch fun _ => true).uploaded
    (processBatch cfg buffers [] batch fun _ => true).uploadMetadataMap
  buffered : ∀ item ∈ batch.data, ∃ b,
    (processBatch cfg buffers [] batch fun _ => true).internalBuffers.lookup item.1 = some b ∧
      item.2 <:+ b.buffer

theorem accepts_of_ok {τ ρ : Type} [DecidableEq τ] {cfg : BufferConfig τ ρ}
    {buffers : Table τ (ParquetBuffer ρ)} {batch : InputBatch τ ρ}
    (hnd : (batch.data.map Prod.fst).Nodup)
    (h : (processBatch cfg buffers [] batch fun _ => true).error = none) :
    Accepts cfg buffers batch := by
  have hcall := appended_of_ok hnd h
  obtain ⟨ups, metas, hu, hm, _, hrep⟩ := hcall.reports
  refine ⟨h, ?_, fun item hitem => ?_⟩
  · have hu' : (processBatch cfg buffers [] batch fun _ => true).uploaded = ups := hu
    have hm' : (processBatch cfg buffers [] batch fun _ => true).uploadMetadataMap = metas := hm
    rw [hu', hm']
    exact hrep
  · obtain ⟨b, hb, hrows, _⟩ := hcall.buffered item hitem
    exact ⟨b, hb, hrows⟩

/-- **When the buffer step takes a batch.** In every state in which the step is
still running, the next batch is taken as it should be exactly if no table
without a buffer gets more than `buffer_max_size` bytes. -/
theorem accepts_iff {τ ρ : Type} [DecidableEq τ] (cfg : BufferConfig τ ρ) (tables : List τ)
    (hnd : tables.Nodup) (startVersion : UInt64) (trace : List (PipelineAction τ ρ))
    (st : Pipeline τ ρ)
    (hrun : Run (Pipeline.step cfg) (Pipeline.InputOk tables) (Pipeline.init startVersion) trace
      st)
    (hlive : st.bufferStopped = false) (batch : InputBatch τ ρ)
    (hin : Pipeline.InputOk tables st (.process batch fun _ => true)) :
    Accepts cfg st.internalBuffers batch ↔
      ∀ item ∈ batch.data, FitsIfNew cfg st.internalBuffers item := by
  have hopen : BuffersOpen tables st :=
    hrun.invariant (P := BuffersOpen tables) (fun _ _ _ hb => by cases hb)
      fun _ _ _ h hin hstep => buffersOpen_step hnd h hin hstep
  have hkeys : (batch.data.map Prod.fst).Nodup := hin.1.nodup_iff.mpr hnd
  have hready : ∀ item ∈ batch.data, BuffersReady batch.metadata st.internalBuffers item.1 := by
    intro item _ b hb
    obtain ⟨_, m, hm, hend⟩ := hopen hlive item.1 b hb
    exact ⟨m, hm, add_one_eq_of_toNat (hin.2.2.trans hend.symm)⟩
  have hiff : (processBatch cfg st.internalBuffers [] batch fun _ => true).error = none ↔ _ :=
    foldl_ok_iff cfg (s := ⟨st.internalBuffers, [], [], none⟩) rfl hkeys hready
  constructor
  · intro h
    exact hiff.mp h.ok
  · intro h
    exact accepts_of_ok hkeys (hiff.mpr h)

/-- A batch that fits, then one that overflows its table's buffer. -/
def smallThenLarge : InputBatch Bool ℕ × InputBatch Bool ℕ :=
  (⟨[(true, [10]), (false, [])], ⟨0, 1, none, none, 0⟩⟩,
   ⟨[(false, []), (true, [20, 21, 22, 23])], ⟨2, 2, none, none, 0⟩⟩)

theorem accepts_iff_large :
    ∃ st : Pipeline Bool ℕ,
      Run (Pipeline.step ⟨3, fun _ rows => rows.length + 1⟩) (Pipeline.InputOk [true, false])
        (Pipeline.init 0) [.process smallThenLarge.1 fun _ => true] st ∧
      Accepts ⟨3, fun _ rows => rows.length + 1⟩ st.internalBuffers smallThenLarge.2 := by
  obtain ⟨st, hrun, hlive, hin, hfit⟩ := exists_run
    (Pipeline.step ⟨3, fun _ rows => rows.length + 1⟩) (Pipeline.InputOk [true, false])
    (Pipeline.init 0) [.process smallThenLarge.1 fun _ => true]
    (fun st => st.bufferStopped = false ∧
      Pipeline.InputOk [true, false] st (.process smallThenLarge.2 fun _ => true) ∧
      ∀ item ∈ smallThenLarge.2.data, item.1 ∈ st.internalBuffers) (by decide +kernel)
  refine ⟨st, hrun, ?_⟩
  have hiff := accepts_iff _ [true, false] (by decide) 0 _ st hrun hlive _ hin
  exact hiff.mpr fun item hitem hnew => absurd (hfit item hitem) hnew

/-- After a poll the same batch stops the step. -/
theorem large_after_poll_refused :
    ∃ st : Pipeline Bool ℕ,
      Run (Pipeline.step ⟨3, fun _ rows => rows.length + 1⟩) (Pipeline.InputOk [true, false])
        (Pipeline.init 0)
        [.process smallThenLarge.1 fun _ => true, .poll [true, false] fun _ => true] st ∧
      st.bufferStopped = false ∧
      Pipeline.InputOk [true, false] st (.process smallThenLarge.2 fun _ => true) ∧
      ¬Accepts ⟨3, fun _ rows => rows.length + 1⟩ st.internalBuffers smallThenLarge.2 := by
  obtain ⟨st, hrun, hlive, hin, herr⟩ := exists_run
    (Pipeline.step ⟨3, fun _ rows => rows.length + 1⟩) (Pipeline.InputOk [true, false])
    (Pipeline.init 0) [.process smallThenLarge.1 fun _ => true, .poll [true, false] fun _ => true]
    (fun st => st.bufferStopped = false ∧
      Pipeline.InputOk [true, false] st (.process smallThenLarge.2 fun _ => true) ∧
      (processBatch ⟨3, fun _ rows => rows.length + 1⟩ st.internalBuffers [] smallThenLarge.2
        fun _ => true).error = some .panicked) (by decide +kernel)
  refine ⟨st, hrun, hlive, hin, fun h => ?_⟩
  have hok := h.ok
  rw [herr] at hok
  cases hok

end IndexerProcessors.Parquet

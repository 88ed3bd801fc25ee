import IndexerProcessors.Parquet.Tables

/-!
# One run of a parquet pipeline

The buffer step and the tracker step run as two tasks with a channel between
them. A run is any interleaving of their `process`, `poll` and `cleanup` calls;
uploads and saves may fail, and a step that fails stops. The batches come in
version order without gaps, and each carries every table of the processor.

`checkpoint_safety` is about every such run: a status saved for a table with end
version `v` means that all the table's rows of the batches up to `v` have been
uploaded, once and in order, and no gap is ever reported.
-/

namespace IndexerProcessors.Parquet

open IndexerProcessors.Lib

/-- The state of a run. `inputs`, `emitted` and `delivered` record what went
into the buffer step, out of it, and into the tracker. -/
structure Pipeline (τ ρ : Type) where
  startVersion : UInt64
  inputs : List (InputBatch τ ρ)
  internalBuffers : Table τ (ParquetBuffer ρ)
  uploaded : List (τ × List ρ)
  bufferStopped : Bool
  emitted : List (τ × TransactionMetadata)
  channel : List (List (τ × TransactionMetadata))
  delivered : List (τ × TransactionMetadata)
  tracker : TrackerState τ

/-- A call of one of the steps, with the order it walks over its map in and
which uploads or saves succeed. The tracker's `poll` and `cleanup` are both
`saveStatuses`. -/
inductive PipelineAction (τ ρ : Type) where
  | process (batch : InputBatch τ ρ) (uploadOk : τ → Bool)
  | poll (order : List τ) (uploadOk : τ → Bool)
  | cleanup (order : List τ) (uploadOk : τ → Bool)
  | track (order : List (τ × TransactionMetadata))
  | saveStatuses (order : List τ) (saveOk : τ → Bool)

namespace Pipeline

variable {τ ρ : Type} [DecidableEq τ]

def init (startVersion : UInt64) : Pipeline τ ρ :=
  ⟨startVersion, [], ∅, [], false, [], [], [], ⟨∅, [], none⟩⟩

/-- What a call of the buffer step leaves: its output goes to the channel unless
it failed. -/
def finishBufferCall (st : Pipeline τ ρ) (s : BufferState τ ρ) (stopped : Bool) : Pipeline τ ρ :=
  match s.error with
  | some _ =>
    { st with internalBuffers := s.internalBuffers, uploaded := s.uploaded, bufferStopped := true }
  | none =>
    { st with
      internalBuffers := s.internalBuffers
      uploaded := s.uploaded
      bufferStopped := stopped
      emitted := st.emitted ++ s.uploadMetadataMap
      channel := if s.uploadMetadataMap = [] then st.channel
        else st.channel ++ [s.uploadMetadataMap] }

def step (cfg : BufferConfig τ ρ) (st : Pipeline τ ρ) :
    PipelineAction τ ρ → Option (Pipeline τ ρ)
  | .process batch uploadOk =>
    if st.bufferStopped then none
    -- The batch counts as an input even if the call then fails.
    else some (finishBufferCall { st with inputs := st.inputs ++ [batch] }
      (processBatch cfg st.internalBuffers st.uploaded batch uploadOk) false)
  | .poll order uploadOk =>
    if st.bufferStopped = false ∧ order.Perm st.internalBuffers.keys then
      some (finishBufferCall st (pollBuffers st.internalBuffers st.uploaded order uploadOk) false)
    else none
  | .cleanup order uploadOk =>
    if st.bufferStopped = false ∧ order.Perm st.internalBuffers.keys then
      some (finishBufferCall st (cleanupBuffers st.internalBuffers st.uploaded order uploadOk) true)
    else none
  | .track order =>
    match st.channel with
    | [] => none
    | ranges :: rest =>
      if st.tracker.error = none ∧ order.Perm ranges then
        some { st with
          channel := rest
          delivered := st.delivered ++ order
          tracker := trackBatch st.tracker order }
      else none
  | .saveStatuses order saveOk =>
    if st.tracker.error = none ∧ order.Perm st.tracker.lastSuccessBatch.keys then
      some { st with tracker := Parquet.saveStatuses st.tracker order saveOk }
    else none

/-- The version after the last batch. -/
def nextVersion (st : Pipeline τ ρ) : ℕ :=
  match st.inputs.getLast? with
  | none => st.startVersion.toNat
  | some last => last.metadata.endVersion.toNat + 1

/-- The batches the extractor hands over: each carries every table once, empty
ones too, and its versions follow the last ones. -/
def InputOk (tables : List τ) (st : Pipeline τ ρ) : PipelineAction τ ρ → Prop
  | .process batch _ =>
    (batch.data.map Prod.fst).Perm tables ∧
    batch.metadata.startVersion.toNat ≤ batch.metadata.endVersion.toNat ∧
    batch.metadata.startVersion.toNat = st.nextVersion
  | _ => True

instance (tables : List τ) (st : Pipeline τ ρ) :
    (a : PipelineAction τ ρ) → Decidable (InputOk tables st a)
  | .process _ _ => inferInstanceAs (Decidable (_ ∧ _ ∧ _))
  | .poll _ _ | .cleanup _ _ | .track _ | .saveStatuses _ _ => inferInstanceAs (Decidable True)

/-- A table's rows uploaded so far, in upload order. -/
def uploadedRows (st : Pipeline τ ρ) (T : τ) : List ρ := (proj T st.uploaded).flatten

/-- All rows of the table in batches ending at or before `v` have been uploaded,
each once and in input order. -/
def UploadedThrough (st : Pipeline τ ρ) (T : τ) (v : UInt64) : Prop :=
  ∃ done, done <+: st.inputs ∧ st.uploadedRows T = done.flatMap (rowsOf T) ∧
    ∀ batch ∈ st.inputs, batch.metadata.endVersion.toNat ≤ v.toNat → batch ∈ done

/-! ## The invariant -/

/-- The batches a table has seen: all of them, if it is one of the processor's. -/
def seenOf (tables : List τ) (inputs : List (InputBatch τ ρ)) (T : τ) : List (InputBatch τ ρ) :=
  if T ∈ tables then inputs else []

/-- The buffer side: contiguous batches, and every table as `Tables` has it —
the weaker form once the step has stopped. -/
structure BufferInv (tables : List τ) (st : Pipeline τ ρ) : Prop where
  chain : st.inputs.IsChain Follows
  first : ∀ batch, st.inputs.head? = some batch →
    batch.metadata.startVersion = st.startVersion ∧
    batch.metadata.startVersion.toNat ≤ batch.metadata.endVersion.toNat
  table : st.bufferStopped = false → ∀ T, TableOk T (seenOf tables st.inputs T) st.emitted
    ⟨st.internalBuffers, st.uploaded, [], none⟩
  weak : ∀ T, TableWeak T (seenOf tables st.inputs T) st.emitted st.uploaded

/-- The tracker side: what was reported is delivered or in the channel, and the
tracker holds the last delivered range of each table. -/
structure TrackerInv (st : Pipeline τ ρ) : Prop where
  keys : ∀ ranges ∈ st.channel, (ranges.map Prod.fst).Nodup
  queue : ∀ T, proj T st.delivered ++ proj T st.channel.flatten = proj T st.emitted
  last : ∀ T, st.tracker.lastSuccessBatch.lookup T = (proj T st.delivered).getLast?
  saved : ∀ e ∈ st.tracker.saved, e ∈ st.delivered
  noGap : ∀ T v, st.tracker.error ≠ some (.trackerGap T v)

structure Inv (tables : List τ) (st : Pipeline τ ρ) : Prop where
  buffer : BufferInv tables st
  tracker : TrackerInv st

theorem inv_init (tables : List τ) (startVersion : UInt64) :
    Inv tables (init startVersion : Pipeline τ ρ) := by
  have hseen : ∀ T, seenOf tables ([] : List (InputBatch τ ρ)) T = [] := by
    intro T
    unfold seenOf
    split <;> rfl
  refine ⟨⟨.nil, (fun _ h => nomatch h), fun _ T => ?_, fun T => ?_⟩,
    ⟨(fun _ h => nomatch h), fun T => rfl, fun T => rfl, (fun _ h => nomatch h),
      (fun _ _ h => nomatch h)⟩⟩
  · exact ⟨[], [], hseen T, rfl, .nil, rfl⟩
  · show TableWeak T (seenOf tables [] T) [] []
    rw [hseen]
    exact ⟨[], [], List.prefix_refl _, List.prefix_refl _, rfl, .nil⟩

theorem seenOf_isPrefix_inputs (tables : List τ) (inputs : List (InputBatch τ ρ)) (T : τ) :
    seenOf tables inputs T <+: inputs := by
  unfold seenOf
  split
  · exact List.prefix_refl _
  · exact List.nil_prefix

theorem BufferInv.consecutive {tables : List τ} {st : Pipeline τ ρ} (h : BufferInv tables st)
    (T : τ) : Consecutive (proj T st.emitted) := by
  obtain ⟨done, reported, hd, hr, _, he⟩ := h.weak T
  refine he.consecutive ( List.IsChain.prefix h.chain ?_)
  exact (hr.trans hd).trans (seenOf_isPrefix_inputs _ _ _)

/-- The end of a buffer call keeps the invariant, whether it failed or not. -/
theorem inv_finishBufferCall {tables : List τ} {st : Pipeline τ ρ} {s : BufferState τ ρ}
    {stopped : Bool} (hchain : st.inputs.IsChain Follows)
    (hfirst : ∀ batch, st.inputs.head? = some batch →
      batch.metadata.startVersion = st.startVersion ∧
      batch.metadata.startVersion.toNat ≤ batch.metadata.endVersion.toNat)
    (htracker : TrackerInv st) (hkeys : (s.uploadMetadataMap.map Prod.fst).Nodup)
    (h : (s.error = none ∧ ∀ T, TableOk T (seenOf tables st.inputs T) st.emitted s) ∨
      (s.error ≠ none ∧ ∀ T, TableWeak T (seenOf tables st.inputs T) st.emitted s.uploaded)) :
    Inv tables (finishBufferCall st s stopped) := by
  unfold finishBufferCall
  rcases h with ⟨herr, hok⟩ | ⟨herr, hweak⟩
  · rw [herr]
    have hok' : ∀ T, TableOk T (seenOf tables st.inputs T) (st.emitted ++ s.uploadMetadataMap)
        ⟨s.internalBuffers, s.uploaded, [], none⟩ := by
      intro T
      obtain ⟨done, pending, hseen, hu, he, hb⟩ := hok T
      exact ⟨done, pending, hseen, hu, by simpa using he, hb⟩
    refine ⟨⟨hchain, hfirst, fun _ => hok', fun T => (hok' T).weak (List.prefix_refl _)⟩, ?_⟩
    refine ⟨?_, fun T => ?_, htracker.last, htracker.saved, htracker.noGap⟩
    · intro ranges hmem
      simp only at hmem
      split at hmem
      · exact htracker.keys ranges hmem
      · rcases List.mem_append.mp hmem with hmem | hmem
        · exact htracker.keys ranges hmem
        · exact List.mem_singleton.mp hmem ▸ hkeys
    · simp only
      rw [proj_append, ← htracker.queue T]
      split
      next hnil => rw [hnil, proj_nil, List.append_nil]
      next => simp [List.append_assoc]
  · obtain ⟨e, he⟩ := Option.ne_none_iff_exists'.mp herr
    rw [he]
    refine ⟨⟨hchain, hfirst, fun hrunning => ?_, hweak⟩,
      ⟨htracker.keys, htracker.queue, htracker.last, htracker.saved, htracker.noGap⟩⟩
    cases hrunning

/-! ## Each call keeps it -/

section Calls

variable {cfg : BufferConfig τ ρ} {tables : List τ} {st st' : Pipeline τ ρ}

/-- The next batch continues the order. -/
theorem follows_input {batch : InputBatch τ ρ} {uploadOk : τ → Bool}
    (h : BufferInv tables st) (hin : InputOk tables st (.process batch uploadOk)) :
    (st.inputs ++ [batch]).IsChain Follows ∧
      ∀ b, (st.inputs ++ [batch]).head? = some b → b.metadata.startVersion = st.startVersion ∧
        b.metadata.startVersion.toNat ≤ b.metadata.endVersion.toNat := by
  obtain ⟨_, hord, hnext⟩ := hin
  unfold nextVersion at hnext
  cases hl : st.inputs.getLast? with
  | none =>
    rw [hl] at hnext
    rw [List.getLast?_eq_none_iff.mp hl]
    refine ⟨.singleton _, fun b hb => ?_⟩
    obtain rfl := Option.some.inj hb
    exact ⟨UInt64.toNat_inj.mp hnext, hord⟩
  | some last =>
    rw [hl] at hnext
    constructor
    · refine List.isChain_append.mpr ⟨h.chain, .singleton _, ?_⟩
      intro b hb b' hb'
      obtain rfl := Option.some.inj (hl.symm.trans hb)
      obtain rfl := Option.some.inj hb'
      exact ⟨hnext, hord⟩
    · intro b hb
      obtain ⟨first, hf⟩ : ∃ first, st.inputs.head? = some first := by
        cases hin : st.inputs with
        | nil => rw [hin] at hl; cases hl
        | cons first rest => exact ⟨first, rfl⟩
      rw [List.head?_append, hf] at hb
      obtain rfl := Option.some.inj hb
      exact h.first first hf

theorem inv_process (hsize : ∀ T rows, 0 < cfg.calculateSize T rows) (hnd : tables.Nodup)
    {batch : InputBatch τ ρ} {uploadOk : τ → Bool} (h : Inv tables st)
    (hin : InputOk tables st (.process batch uploadOk))
    (hstep : step cfg st (.process batch uploadOk) = some st') : Inv tables st' := by
  simp only [step] at hstep
  split at hstep
  next => cases hstep
  next hrun =>
    obtain rfl := Option.some.inj hstep
    obtain ⟨hchain, hfirst⟩ := follows_input h.buffer hin
    have hperm := hin.1
    have hkeysnd : (batch.data.map Prod.fst).Nodup := hperm.nodup_iff.mpr hnd
    -- Each table occurs once in the batch, so its item has all its rows.
    have hrows : ∀ item ∈ batch.data, item.2 = rowsOf item.1 batch := by
      intro item hitem
      have hmem : item.2 ∈ proj item.1 batch.data := mem_proj.mpr hitem
      have hlen := length_proj_le (k := item.1) hkeysnd
      unfold rowsOf
      rcases hp : proj item.1 batch.data with _ | ⟨rows, _ | ⟨r, l⟩⟩
      · rw [hp] at hmem
        cases hmem
      · rw [hp] at hmem
        obtain rfl := List.mem_singleton.mp hmem
        simp
      · rw [hp] at hlen
        simp at hlen
    have hcall := foldl_uploadBufferAppend hsize uploadOk st.emitted
      (seenOf tables (st.inputs ++ [batch])) batch.data
      ⟨st.internalBuffers, st.uploaded, [], none⟩ (seenOf tables st.inputs) hkeysnd hrows
      (fun T hT => by
        have hmem := hperm.mem_iff.mp hT
        simp only [seenOf, hmem, if_true]
        exact ⟨trivial, hchain⟩)
      (fun T hT => by
        have hmem : T ∉ tables := fun hmem => hT (hperm.mem_iff.mpr hmem)
        simp only [seenOf, hmem, if_false])
      rfl (h.buffer.table (Bool.eq_false_iff.mpr hrun))
    obtain ⟨keys, hsub, hkeys⟩ := keys_processBatch cfg batch.metadata uploadOk batch.data
      ⟨st.internalBuffers, st.uploaded, [], none⟩
    have htracker : TrackerInv { st with inputs := st.inputs ++ [batch] } :=
      ⟨h.tracker.keys, h.tracker.queue, h.tracker.last, h.tracker.saved, h.tracker.noGap⟩
    refine inv_finishBufferCall hchain hfirst htracker ?_ hcall
    exact Eq.mpr (congrArg List.Nodup hkeys) (hsub.nodup hkeysnd)

/-- A drain keeps the invariant, whatever it reports the sizes as. -/
theorem inv_drain (finish : ℕ → TransactionMetadata → TransactionMetadata)
    (hfinish : ∀ n m, (finish n m).startVersion = m.startVersion ∧
      (finish n m).endVersion = m.endVersion)
    {order : List τ} {uploadOk : τ → Bool} {stopped : Bool} (h : Inv tables st)
    (hrun : st.bufferStopped = false) (hperm : order.Perm st.internalBuffers.keys) :
    Inv tables (finishBufferCall st
      (drain finish st.internalBuffers st.uploaded order uploadOk) stopped) := by
  have hnd : order.Nodup := hperm.nodup_iff.mpr st.internalBuffers.keys_nodup
  have htable := h.buffer.table hrun
  -- A table without a buffer has nothing pending.
  have hempty : ∀ T, T ∉ order → Drained T (seenOf tables st.inputs T) st.emitted
      ⟨st.internalBuffers, st.uploaded, [], none⟩ := by
    intro T hT
    obtain ⟨done, pending, hseen, hu, he, hb⟩ := htable T
    have hl : st.internalBuffers.lookup T = none :=
      AList.lookup_eq_none.mpr fun hmem => hT (hperm.mem_iff.mpr (AList.mem_keys.mp hmem))
    rw [hl] at hb
    obtain rfl : pending = [] := hb
    rw [List.append_nil] at hseen
    exact ⟨hseen ▸ hu, hseen ▸ he⟩
  have hcall := foldl_drainBuffer hfinish uploadOk st.emitted (seenOf tables st.inputs) order
    ⟨st.internalBuffers, st.uploaded, [], none⟩ hnd rfl (fun T _ => htable T) hempty
  obtain ⟨keys, hsub, hkeys⟩ := keys_drain finish uploadOk order
    (⟨st.internalBuffers, st.uploaded, [], none⟩ : BufferState τ ρ)
  refine inv_finishBufferCall h.buffer.chain h.buffer.first h.tracker ?_ ?_
  · exact Eq.mpr (congrArg List.Nodup hkeys) (hsub.nodup hnd)
  · rcases hcall with ⟨herr, hdr⟩ | ⟨herr, hweak⟩
    · refine Or.inl ⟨herr, fun T => ?_⟩
      exact ⟨_, [], (List.append_nil _).symm, (hdr T).1, (hdr T).2, rfl⟩
    · exact Or.inr ⟨herr, hweak⟩

theorem inv_track {order : List (τ × TransactionMetadata)} (h : Inv tables st)
    (hstep : step cfg st (.track order) = some st') : Inv tables st' := by
  simp only [step] at hstep
  split at hstep
  next => cases hstep
  next ranges rest hchan =>
    split at hstep
    next hcond =>
      obtain rfl := Option.some.inj hstep
      have hnd : (ranges.map Prod.fst).Nodup :=
        h.tracker.keys ranges (hchan ▸ List.mem_cons_self ..)
      have hproj : ∀ T, proj T order = proj T ranges := fun T =>
        proj_perm hcond.2 ((hcond.2.map _).nodup_iff.mpr hnd) T
      have hqueue : ∀ T,
          proj T (st.delivered ++ order) ++ proj T rest.flatten = proj T st.emitted := by
        intro T
        have hq := h.tracker.queue T
        rw [hchan, List.flatten_cons, proj_append, ← List.append_assoc] at hq
        rw [proj_append, hproj, hq]
      -- What is delivered is a first part of what was reported, table by table.
      have hcons : ∀ T, Consecutive (proj T (st.delivered ++ order)) := by
        intro T
        have hc := h.buffer.consecutive T
        rw [← hqueue T] at hc
        exact List.IsChain.left_of_append hc
      obtain ⟨herr, hsaved, hlast⟩ :=
        foldl_trackRange order st.tracker st.delivered hcond.1 h.tracker.last hcons
      refine ⟨⟨h.buffer.chain, h.buffer.first, h.buffer.table, h.buffer.weak⟩, ?_⟩
      refine ⟨?_, hqueue, hlast, ?_, ?_⟩
      · exact fun r hr => h.tracker.keys r (hchan ▸ List.mem_cons_of_mem _ hr)
      · intro e he
        exact List.mem_append_left _ (h.tracker.saved e (hsaved ▸ he))
      · intro T v hgap
        exact absurd (herr.symm.trans hgap) (by simp)
    next => cases hstep

theorem inv_saveStatuses {order : List τ} {saveOk : τ → Bool} (h : Inv tables st)
    (hstep : step cfg st (.saveStatuses order saveOk) = some st') : Inv tables st' := by
  simp only [step] at hstep
  split at hstep
  next hcond =>
    obtain rfl := Option.some.inj hstep
    obtain ⟨hlast, herr, hsaved⟩ := foldl_saveStatus saveOk order st.tracker
    refine ⟨⟨h.buffer.chain, h.buffer.first, h.buffer.table, h.buffer.weak⟩, ?_⟩
    refine ⟨h.tracker.keys, h.tracker.queue, fun T => ?_, fun e he => ?_, fun T v hgap => ?_⟩
    · exact (congrArg (AList.lookup T) hlast).trans (h.tracker.last T)
    · rcases hsaved e he with he | he
      · exact h.tracker.saved e he
      · rw [h.tracker.last] at he
        exact mem_proj.mp (List.mem_of_getLast? he)
    · rcases herr with herr | herr
      · exact h.tracker.noGap T v (herr.symm.trans hgap)
      · exact absurd (herr.symm.trans hgap) (by simp)
  next => cases hstep

theorem inv_step (hsize : ∀ T rows, 0 < cfg.calculateSize T rows) (hnd : tables.Nodup)
    {a : PipelineAction τ ρ} (h : Inv tables st) (hin : InputOk tables st a)
    (hstep : step cfg st a = some st') : Inv tables st' := by
  cases a with
  | process batch uploadOk => exact inv_process hsize hnd h hin hstep
  | poll order uploadOk =>
    simp only [step] at hstep
    split at hstep
    next hcond =>
      obtain rfl := Option.some.inj hstep
      exact inv_drain (fun _ m => m) (fun _ _ => ⟨rfl, rfl⟩) h hcond.1 hcond.2
    next => cases hstep
  | cleanup order uploadOk =>
    simp only [step] at hstep
    split at hstep
    next hcond =>
      obtain rfl := Option.some.inj hstep
      exact inv_drain (fun size m => { m with totalSizeInBytes := UInt64.ofNat size })
        (fun _ _ => ⟨rfl, rfl⟩) h hcond.1 hcond.2
    next => cases hstep
  | track order => exact inv_track h hstep
  | saveStatuses order saveOk => exact inv_saveStatuses h hstep

end Calls

/-- A range the tracker was given ends with an uploaded batch. -/
theorem Inv.exists_done {tables : List τ} {st : Pipeline τ ρ} (h : Inv tables st) {T : τ}
    {m : TransactionMetadata} (hm : (T, m) ∈ st.delivered) :
    ∃ done, done <+: st.inputs ∧ st.uploadedRows T = done.flatMap (rowsOf T) ∧
      ∃ batch ∈ done, m.endVersion = batch.metadata.endVersion := by
  obtain ⟨done, reported, hd, hr, hu, he⟩ := h.buffer.weak T
  have hmem : m ∈ proj T st.emitted := by
    rw [← h.tracker.queue T]
    exact List.mem_append_left _ (mem_proj.mpr hm)
  obtain ⟨batch, hbatch, hend⟩ := he.exists_batch hmem
  exact ⟨done, hd.trans (seenOf_isPrefix_inputs _ _ _), hu, batch, hr.subset hbatch, hend⟩

/-- So all batches up to its end are uploaded. -/
theorem Inv.uploadedThrough {tables : List τ} {st : Pipeline τ ρ} (h : Inv tables st) {T : τ}
    {m : TransactionMetadata} (hm : (T, m) ∈ st.delivered) :
    st.UploadedThrough T m.endVersion := by
  obtain ⟨done, hdone, hu, batch, hbatch, hend⟩ := h.exists_done hm
  refine ⟨done, hdone, hu, fun b hb hle => ?_⟩
  obtain ⟨later, hsplit⟩ := hdone
  rw [← hsplit] at hb
  rcases List.mem_append.mp hb with hb | hb
  · exact hb
  · -- A batch that is not uploaded comes later, so it ends after `m` does.
    have hlt := isChain_follows_lt (hsplit ▸ h.buffer.chain) batch hbatch b hb
    rw [hend] at hle
    omega

end Pipeline

/-- **Checkpoint safety of one run.** For every run on contiguous batches over a
fixed set of tables: a status saved for a table has all the table's rows up to
its end version uploaded, once and in input order; the ranges the buffer step
reports for a table are consecutive; and the tracker never reports a gap. -/
theorem checkpoint_safety {τ ρ : Type} [DecidableEq τ] (cfg : BufferConfig τ ρ)
    (hsize : ∀ T rows, 0 < cfg.calculateSize T rows) (tables : List τ) (hnd : tables.Nodup)
    (startVersion : UInt64) (trace : List (PipelineAction τ ρ)) (st : Pipeline τ ρ)
    (hrun : Run (Pipeline.step cfg) (Pipeline.InputOk tables) (Pipeline.init startVersion) trace
      st) :
    (∀ T m, (T, m) ∈ st.tracker.saved → st.UploadedThrough T m.endVersion) ∧
    (∀ T, Consecutive (proj T st.emitted)) ∧
    (∀ T v, st.tracker.error ≠ some (.trackerGap T v)) := by
  have hinv : Pipeline.Inv tables st := hrun.invariant (Pipeline.inv_init tables startVersion)
    fun _ _ _ h hin hstep => Pipeline.inv_step hsize hnd h hin hstep
  refine ⟨fun T m hm => ?_, hinv.buffer.consecutive, hinv.tracker.noGap⟩
  exact hinv.uploadedThrough (hinv.tracker.saved (T, m) hm)

/-- Two batches of two tables: the second overflows the first table's buffer,
whose range is then tracked and saved. -/
def overflowTrace : List (PipelineAction Bool ℕ) :=
  [.process ⟨[(true, [10, 11]), (false, [])], ⟨0, 1, none, none, 0⟩⟩ fun _ => true,
   .process ⟨[(false, [20]), (true, [12])], ⟨2, 2, none, none, 0⟩⟩ fun _ => true,
   .track [(true, ⟨0, 1, none, none, 0⟩)],
   .saveStatuses [true] fun _ => true]

theorem checkpoint_safety_overflow :
    ∃ st : Pipeline Bool ℕ,
      Run (Pipeline.step ⟨3, fun _ rows => rows.length + 1⟩) (Pipeline.InputOk [true, false])
        (Pipeline.init 0) overflowTrace st ∧
      (true, ⟨0, 1, none, none, 0⟩) ∈ st.tracker.saved ∧ st.UploadedThrough true 1 := by
  obtain ⟨st, hrun, hsaved⟩ := exists_run (Pipeline.step ⟨3, fun _ rows => rows.length + 1⟩)
    (Pipeline.InputOk [true, false]) (Pipeline.init 0) overflowTrace
    (fun st => (true, ⟨0, 1, none, none, 0⟩) ∈ st.tracker.saved) (by decide +kernel)
  have hsafe := checkpoint_safety _ (fun _ _ => Nat.succ_pos _) _ (by decide) _ _ _ hrun
  exact ⟨st, hrun, hsaved, hsafe.1 true _ hsaved⟩

end IndexerProcessors.Parquet

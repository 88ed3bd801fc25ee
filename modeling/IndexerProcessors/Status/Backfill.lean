import IndexerProcessors.Lib.Run
import IndexerProcessors.Status.Saver

/-!
# When a backfill is complete

A backfill of `[s, e]` goes through any number of runs. Each starts where
`getStartingVersion` says, processes consecutive versions up to `e`, saves some
of its checkpoints and stops or crashes at any point; `overwrite_checkpoint` may
differ from run to run. The history keeps, beside the database, the versions
processed since the last overwriting reset.

The row's reading is "everything up to `last_success_version` was processed".
A checkpoint makes that true. A reset stores `0` and makes it true only if
version `0` is not part of the range: a run that crashes between the reset and
its first checkpoint, followed by one that does not overwrite, resumes at `1`.
`backfill_complete_covers` says that this is the only way to a row marked
complete with a version missing.
-/

namespace IndexerProcessors.Status

open IndexerProcessors.Lib

/-- What all runs of one backfill share. -/
structure Backfill where
  sdk : Sdk
  processorName : String
  backfillId : String
  initialStartingVersion : UInt64
  endingVersion : UInt64

/-- A run in progress: its first version and the next one to process. -/
structure ActiveRun where
  overwriteCheckpoint : Bool
  start : UInt64
  next : UInt64

/-- The state of a backfill across its runs. -/
structure BackfillHistory where
  db : StatusDb
  active : Option ActiveRun
  processed : List ℕ

inductive BackfillAction where
  | start (overwriteCheckpoint : Bool)
  | processNext
  | checkpoint (batch : BatchEnd)
  | stop

namespace Backfill

variable (b : Backfill)

def mode (overwriteCheckpoint : Bool) : ProcessorMode :=
  .backfill ⟨b.backfillId, b.initialStartingVersion, some b.endingVersion, overwriteCheckpoint⟩

/-- The backfill's row. -/
def row (db : StatusDb) : Option BackfillProcessorStatus :=
  db.backfillProcessorStatus.lookup (backfillAlias b.processorName b.backfillId)

def init : BackfillHistory := ⟨StatusDb.empty, none, []⟩

/-- One action. Only a start that overwrites an existing row resets it, and only
then does the count of processed versions begin anew. -/
def step (st : BackfillHistory) : BackfillAction → Option BackfillHistory
  | .start ow =>
    match st.active with
    | some _ => none
    | none =>
      let started := getStartingVersion b.processorName (b.mode ow) st.db
      started.1.map fun v =>
        { db := started.2
          active := some ⟨ow, v, v⟩
          processed := if ow = true ∧ (b.row st.db).isSome then [] else st.processed }
  | .processNext =>
    match st.active with
    | none => none
    | some r =>
      if r.next ≤ b.endingVersion then
        some { st with
          active := some { r with next := r.next + 1 }
          processed := r.next.toNat :: st.processed }
      else none
  | .checkpoint batch =>
    match st.active with
    | none => none
    | some r =>
      if r.start ≤ batch.endVersion ∧ batch.endVersion < r.next then
        some { st with
          db := saveProcessorStatus b.sdk b.processorName (b.mode r.overwriteCheckpoint) batch
            st.db }
      else none
  | .stop => some { st with active := none }

/-- The row is complete only if the whole range was processed. -/
def CompleteCovers (st : BackfillHistory) : Prop :=
  ∀ row, b.row st.db = some row → row.backfillStatus = .complete →
    ∀ x, b.initialStartingVersion.toNat ≤ x → x ≤ b.endingVersion.toNat → x ∈ st.processed

/-- A run that does not overwrite finds no unprocessed version `0` behind a row
at `0`. -/
def ResumeSafe (st : BackfillHistory) : BackfillAction → Prop
  | .start false =>
    b.initialStartingVersion = 0 → b.endingVersion ≠ 0 →
      ∀ row, b.row st.db = some row → row.lastSuccessVersion = 0 → 0 ∈ st.processed
  | _ => True

/-! ## The row after a checkpoint and after a start -/

/-- The row a checkpoint stores. -/
def checkpointRow (batch : BatchEnd) : BackfillProcessorStatus where
  backfillStatus := checkpointStatus (some b.endingVersion) batch.endVersion.toInt64
  lastSuccessVersion := batch.endVersion.toInt64
  lastTransactionTimestamp := batch.endTransactionTimestamp.map fun t =>
    b.sdk.parseTimestamp t batch.endVersion.toInt64
  backfillStartVersion := b.initialStartingVersion.toInt64
  backfillEndVersion := some b.endingVersion.toInt64

theorem row_save_eq (ow : Bool) (batch : BatchEnd) (db : StatusDb) :
    b.row (saveProcessorStatus b.sdk b.processorName (b.mode ow) batch db) =
      some (Table.merged (if ow then fun _ excluded => excluded
        else forwardOnly (·.lastSuccessVersion)) (b.row db) (b.checkpointRow batch)) :=
  Table.lookup_upsert_self ..

/-- A checkpoint is stored, or a later one is kept. -/
theorem row_save (ow : Bool) (batch : BatchEnd) (db : StatusDb) :
    b.row (saveProcessorStatus b.sdk b.processorName (b.mode ow) batch db) =
        some (b.checkpointRow batch) ∨
      b.row (saveProcessorStatus b.sdk b.processorName (b.mode ow) batch db) = b.row db := by
  rw [row_save_eq]
  cases hold : b.row db with
  | none => exact Or.inl rfl
  | some old =>
    cases ow with
    | true => exact Or.inl rfl
    | false =>
      simp only [Table.merged, forwardOnly, Bool.false_eq_true, if_false]
      split
      · exact Or.inl rfl
      · exact Or.inr rfl

/-- A checkpoint at or past the stored one is stored. -/
theorem row_save_of_le (ow : Bool) (batch : BatchEnd) (db : StatusDb)
    (h : ∀ old, b.row db = some old → old.lastSuccessVersion ≤ batch.endVersion.toInt64) :
    b.row (saveProcessorStatus b.sdk b.processorName (b.mode ow) batch db) =
      some (b.checkpointRow batch) := by
  rw [row_save_eq]
  cases hold : b.row db with
  | none => rfl
  | some old =>
    cases ow with
    | true => rfl
    | false =>
      have hle : old.lastSuccessVersion ≤ (b.checkpointRow batch).lastSuccessVersion := h old hold
      simp [Table.merged, forwardOnly, hle]

/-- The row after an overwriting start. -/
def resetRow : BackfillProcessorStatus where
  backfillStatus := .inProgress
  lastSuccessVersion := 0
  lastTransactionTimestamp := none
  backfillStartVersion := b.initialStartingVersion.toInt64
  backfillEndVersion := some b.endingVersion.toInt64

/-- Where a run starts, and what it finds. -/
theorem start_cases {st st' : BackfillHistory} {ow : Bool}
    (h : b.step st (.start ow) = some st') :
    ∃ v, st'.active = some ⟨ow, v, v⟩ ∧
      ((b.row st.db = none ∧ v = b.initialStartingVersion ∧ b.row st'.db = none ∧
          st'.processed = st.processed) ∨
       (∃ row, b.row st.db = some row ∧ row.backfillStatus = .complete ∧ ow = false ∧
          v = b.endingVersion ∧ b.row st'.db = some row ∧ st'.processed = st.processed) ∨
       (∃ row, b.row st.db = some row ∧ ow = true ∧ v = b.initialStartingVersion ∧
          b.row st'.db = some b.resetRow ∧ st'.processed = []) ∨
       (∃ row, b.row st.db = some row ∧ row.backfillStatus = .inProgress ∧ ow = false ∧
          v = row.lastSuccessVersion.toUInt64 + 1 ∧ b.row st'.db = some row ∧
          st'.processed = st.processed)) := by
  simp only [step] at h
  split at h
  next => cases h
  next hact =>
    obtain ⟨v, hv, rfl⟩ := Option.map_eq_some_iff.mp h
    refine ⟨v, rfl, ?_⟩
    have hlook : st.db.backfillProcessorStatus.lookup
        (backfillAlias b.processorName b.backfillId) = b.row st.db := rfl
    simp only [getStartingVersion, mode, hlook] at hv ⊢
    cases hrow : b.row st.db with
    | none =>
      rw [hrow] at hv
      obtain rfl := Option.some.inj hv
      exact Or.inl ⟨rfl, rfl, hrow, by simp⟩
    | some row =>
      rw [hrow] at hv
      cases ow with
      | true =>
        simp only [Bool.true_eq_false, and_false, if_false, if_true] at hv ⊢
        obtain rfl := Option.some.inj hv
        refine Or.inr (Or.inr (Or.inl ⟨row, rfl, trivial, rfl, ?_, by simp⟩))
        -- An existing row, overwritten: the only branch that writes at a start.
        have hself := Table.lookup_upsert_self (fun _ excluded => excluded)
          st.db.backfillProcessorStatus (backfillAlias b.processorName b.backfillId) b.resetRow
        rw [hlook, hrow] at hself
        exact hself
      | false =>
        cases hst : row.backfillStatus with
        | complete =>
          simp only [hst, and_self, if_true] at hv ⊢
          obtain rfl := Option.some.inj hv
          exact Or.inr (Or.inl ⟨row, rfl, hst, trivial, rfl, hrow, by simp⟩)
        | inProgress =>
          simp only [hst, reduceCtorEq, false_and, Bool.false_eq_true, if_false] at hv ⊢
          obtain rfl := Option.some.inj hv
          exact Or.inr (Or.inr (Or.inr ⟨row, rfl, hst, trivial, rfl, hrow, by simp⟩))

/-! ## The invariant -/

/-- Every version of the range below `v` was processed. -/
def Covered (processed : List ℕ) (v : ℕ) : Prop :=
  ∀ x, b.initialStartingVersion.toNat ≤ x → x < v → x ∈ processed

/-- What a row says: its version lies in the range's end, `complete` means that
it is the end, and everything up to it was processed, unless it is a bare
reset. -/
structure RowInv (processed : List ℕ) (row : BackfillProcessorStatus) : Prop where
  bound : row.lastSuccessVersion.toUInt64.toNat ≤ b.endingVersion.toNat
  complete : row.backfillStatus = .complete →
    b.endingVersion.toNat ≤ row.lastSuccessVersion.toUInt64.toNat
  covered : (row.lastSuccessVersion = 0 ∧ row.backfillStatus = .inProgress) ∨
    b.Covered processed (row.lastSuccessVersion.toUInt64.toNat + 1)

/-- What a run in progress guarantees: everything before its next version was
processed, unless it started past the end and can do nothing. -/
structure ActiveInv (processed : List ℕ) (r : ActiveRun) : Prop where
  bound : r.next = r.start ∨ r.next.toNat ≤ b.endingVersion.toNat + 1
  covered : b.Covered processed r.next.toNat ∨
    (b.endingVersion.toNat < r.start.toNat ∧ r.next = r.start)

structure Inv (st : BackfillHistory) : Prop where
  row : ∀ row, b.row st.db = some row → b.RowInv st.processed row
  active : ∀ r, st.active = some r → b.ActiveInv st.processed r

variable {b}

theorem Covered.mono {processed processed' : List ℕ} {v : ℕ} (h : b.Covered processed v)
    (hsub : ∀ x ∈ processed, x ∈ processed') : b.Covered processed' v :=
  fun x hs hv => hsub x (h x hs hv)

theorem inv_init : b.Inv init := by
  constructor
  · intro row h
    simp [Backfill.row, init, StatusDb.empty] at h
  · intro r h
    cases h

theorem rowInv_resetRow (processed : List ℕ) : b.RowInv processed b.resetRow :=
  ⟨Nat.zero_le _, (fun h => nomatch h), Or.inl ⟨rfl, rfl⟩⟩

theorem inv_start {st st' : BackfillHistory} {ow : Bool} (he : b.endingVersion.toNat < 2 ^ 63)
    (h : b.Inv st) (hsafe : b.ResumeSafe st (.start ow))
    (hstep : b.step st (.start ow) = some st') : b.Inv st' := by
  obtain ⟨v, hact, hcases⟩ := b.start_cases hstep
  have hfresh : b.Covered st'.processed b.initialStartingVersion.toNat :=
    fun x hs hv => absurd hs (by omega)
  have hactive : b.ActiveInv st'.processed ⟨ow, v, v⟩ → ∀ r, st'.active = some r →
      b.ActiveInv st'.processed r := by
    intro hinv r hr
    obtain rfl := Option.some.inj (hact.symm.trans hr)
    exact hinv
  -- The four ways to start: no row, a row that is complete, a reset, and a row in progress.
  rcases hcases with ⟨_, rfl, hrow', hproc⟩ | ⟨row, hrow, hst, _, rfl, hrow', hproc⟩ |
    ⟨row, hrow, _, rfl, hrow', hproc⟩ | ⟨row, hrow, hst, rfl, rfl, hrow', hproc⟩
  · constructor
    · intro row hr
      rw [hrow'] at hr
      cases hr
    · exact hactive ⟨Or.inl rfl, Or.inl hfresh⟩
  · have hinv := h.row row hrow
    constructor
    · intro row' hr
      obtain rfl := Option.some.inj (hrow'.symm.trans hr)
      rw [hproc]
      exact hinv
    · refine hactive ⟨Or.inl rfl, Or.inl fun x hs hv => ?_⟩
      -- A complete row has all up to its end, where this run starts.
      rcases hinv.covered with ⟨_, hip⟩ | hcov
      · rw [hst] at hip
        cases hip
      · have hle := hinv.complete hst
        have hv' : x < b.endingVersion.toNat := hv
        rw [hproc]
        exact hcov x hs (by omega)
  · constructor
    · intro row' hr
      obtain rfl := Option.some.inj (hrow'.symm.trans hr)
      exact rowInv_resetRow _
    · exact hactive ⟨Or.inl rfl, Or.inl hfresh⟩
  · have hinv := h.row row hrow
    have hnext : (row.lastSuccessVersion.toUInt64 + 1).toNat =
        row.lastSuccessVersion.toUInt64.toNat + 1 :=
      toNat_add_one (lt_of_le_of_lt hinv.bound he)
    constructor
    · intro row' hr
      obtain rfl := Option.some.inj (hrow'.symm.trans hr)
      rw [hproc]
      exact hinv
    · refine hactive ⟨Or.inl rfl, ?_⟩
      rw [hnext, hproc]
      rcases hinv.covered with ⟨hzero, _⟩ | hcov
      · -- A row at `0`: the resumed run starts at `1`.
        have hlast : row.lastSuccessVersion.toUInt64.toNat = 0 := by rw [hzero]; rfl
        rw [hlast]
        by_cases hend : b.endingVersion = 0
        · right
          rw [hend]
          exact ⟨Nat.zero_lt_one, rfl⟩
        · left
          intro x hs hx
          obtain rfl : x = 0 := by omega
          have hs0 : b.initialStartingVersion = 0 :=
            UInt64.toNat_inj.mp (Nat.le_zero.mp hs)
          exact hsafe hs0 hend row hrow hzero
      · exact Or.inl hcov

theorem inv_processNext {st st' : BackfillHistory} (he : b.endingVersion.toNat < 2 ^ 63)
    (h : b.Inv st) (hstep : b.step st .processNext = some st') : b.Inv st' := by
  simp only [step] at hstep
  split at hstep
  next => cases hstep
  next r hr =>
    split at hstep
    next hle =>
      obtain rfl := Option.some.inj hstep
      have hle' : r.next.toNat ≤ b.endingVersion.toNat := UInt64.le_iff_toNat_le.mp hle
      have hnext : (r.next + 1).toNat = r.next.toNat + 1 := toNat_add_one (by omega)
      have hsub : ∀ x ∈ st.processed, x ∈ r.next.toNat :: st.processed :=
        fun x hx => List.mem_cons_of_mem _ hx
      constructor
      · intro row hrow
        have hinv := h.row row hrow
        exact ⟨hinv.bound, hinv.complete, hinv.covered.imp_right (Covered.mono · hsub)⟩
      · intro r' hr'
        obtain rfl := Option.some.inj hr'
        refine ⟨Or.inr (by simp only [hnext]; omega), Or.inl ?_⟩
        rcases (h.active r hr).covered with hcov | ⟨hlt, heq⟩
        · intro x hs hx
          simp only [hnext] at hx
          by_cases hxn : x = r.next.toNat
          · exact hxn ▸ List.mem_cons_self ..
          · exact hsub x (hcov x hs (by omega))
        · rw [← heq] at hlt
          omega
    next => cases hstep

theorem inv_checkpoint {st st' : BackfillHistory} {batch : BatchEnd}
    (he : b.endingVersion.toNat < 2 ^ 63) (h : b.Inv st)
    (hstep : b.step st (.checkpoint batch) = some st') : b.Inv st' := by
  simp only [step] at hstep
  split at hstep
  next => cases hstep
  next r hr =>
    split at hstep
    next hrange =>
      obtain rfl := Option.some.inj hstep
      have hlo := UInt64.le_iff_toNat_le.mp hrange.1
      have hhi := UInt64.lt_iff_toNat_lt.mp hrange.2
      have hactive := h.active r hr
      -- A checkpoint needs a version between `start` and `next`.
      have hne : r.next ≠ r.start := by
        intro heq
        rw [heq] at hhi
        omega
      have hbound : batch.endVersion.toNat ≤ b.endingVersion.toNat := by
        have := hactive.bound.resolve_left hne
        omega
      have hcov := hactive.covered.resolve_right fun hf => hne hf.2
      constructor
      · intro row hrow
        rcases b.row_save r.overwriteCheckpoint batch st.db with hnew | hold
        · obtain rfl := Option.some.inj (hnew.symm.trans hrow)
          refine ⟨hbound, fun hc => ?_, Or.inr fun x hs hx => hcov x hs ?_⟩
          · -- `complete` is stored only at or past the end, and the run cannot pass it.
            simp only [checkpointRow, checkpointStatus] at hc
            split at hc
            next hle =>
              exact (toInt64_le_toInt64_iff he (lt_of_le_of_lt hbound he)).mp hle
            next => cases hc
          · have hx' : x < batch.endVersion.toNat + 1 := hx
            omega
        · exact h.row row (hold.symm.trans hrow)
      · exact h.active
    next => cases hstep

theorem inv_step {st st' : BackfillHistory} {a : BackfillAction}
    (he : b.endingVersion.toNat < 2 ^ 63) (h : b.Inv st) (hsafe : b.ResumeSafe st a)
    (hstep : b.step st a = some st') : b.Inv st' := by
  cases a with
  | start ow => exact inv_start he h hsafe hstep
  | processNext => exact inv_processNext he h hstep
  | checkpoint batch => exact inv_checkpoint he h hstep
  | stop =>
    obtain rfl := Option.some.inj hstep
    exact ⟨h.row, fun r hr => nomatch hr⟩

theorem completeCovers_of_inv {st : BackfillHistory} (h : b.Inv st) : b.CompleteCovers st := by
  intro row hrow hc x hs hx
  have hinv := h.row row hrow
  rcases hinv.covered with ⟨_, hip⟩ | hcov
  · rw [hc] at hip
    cases hip
  · have := hinv.complete hc
    exact hcov x hs (by omega)

/-! ## The run that skips version `0` -/

theorem start_enabled (st : BackfillHistory) (ow : Bool) (h : st.active = none) :
    ∃ st', b.step st (.start ow) = some st' := by
  have hsome : ∃ v, (getStartingVersion b.processorName (b.mode ow) st.db).1 = some v := by
    simp only [getStartingVersion, mode]
    split
    · exact ⟨_, rfl⟩
    · split
      · exact ⟨_, rfl⟩
      · split <;> exact ⟨_, rfl⟩
  obtain ⟨v, hv⟩ := hsome
  simp [step, h, hv]

/-- A run processes as many versions as the range has left. -/
theorem process_versions (he : b.endingVersion.toNat < 2 ^ 63) :
    ∀ (n : ℕ) {st : BackfillHistory} {r : ActiveRun}, st.active = some r →
      r.next.toNat + n ≤ b.endingVersion.toNat + 1 →
      ∃ st' r', (List.replicate n BackfillAction.processNext).foldlM b.step st = some st' ∧
        st'.db = st.db ∧ st'.active = some r' ∧ r'.start = r.start ∧
        r'.overwriteCheckpoint = r.overwriteCheckpoint ∧ r'.next.toNat = r.next.toNat + n ∧
        ∀ x ∈ st'.processed, x ∈ st.processed ∨ r.next.toNat ≤ x := by
  intro n
  induction n with
  | zero => intro st r hr _; exact ⟨st, r, rfl, rfl, hr, rfl, rfl, rfl, fun x hx => Or.inl hx⟩
  | succ n ih =>
    intro st r hr hle
    have hnext : (r.next + 1).toNat = r.next.toNat + 1 := toNat_add_one (by omega)
    have hle' : r.next ≤ b.endingVersion := UInt64.le_iff_toNat_le.mpr (by omega)
    let st₁ : BackfillHistory := { st with
      active := some { r with next := r.next + 1 }
      processed := r.next.toNat :: st.processed }
    have hstep : b.step st .processNext = some st₁ := by simp [step, hr, hle', st₁]
    have hact₁ : st₁.active = some { r with next := r.next + 1 } := rfl
    obtain ⟨st', r', hrun, hdb, hact, hstart, how, hn, hproc⟩ :=
      ih hact₁ (by simp only [hnext]; omega)
    refine ⟨st', r', ?_, hdb, hact, hstart, how, by simp only [hnext] at hn; omega, ?_⟩
    · rw [List.replicate_succ, List.foldlM_cons, hstep]
      exact hrun
    · intro x hx
      simp only [hnext] at hproc
      rcases hproc x hx with hmem | hge
      · rcases List.mem_cons.mp hmem with rfl | hmem
        · exact Or.inr le_rfl
        · exact Or.inl hmem
      · exact Or.inr (by omega)

/-- A run without any condition on its steps. -/
abbrev Reached (b : Backfill) (trace : List BackfillAction) (st : BackfillHistory) : Prop :=
  Run b.step (fun _ _ => True) init trace st

/-- A first run can leave a row. -/
theorem exists_row (hs : b.initialStartingVersion = 0) (he : b.endingVersion.toNat < 2 ^ 63) :
    ∃ trace st row, b.Reached trace st ∧ st.active = none ∧ b.row st.db = some row := by
  obtain ⟨st₁, h₁⟩ := start_enabled (b := b) init false rfl
  obtain ⟨v, hact₁, hcase⟩ := b.start_cases h₁
  have hrow₀ : b.row (init).db = none := by simp [Backfill.row, init, StatusDb.empty]
  obtain ⟨_, rfl, hrow₁, _⟩ | ⟨row, hrow, _⟩ | ⟨row, hrow, _⟩ | ⟨row, hrow, _⟩ := hcase
  · obtain ⟨st₂, r, hrun, hdb, hact₂, hstart, _, hnext, _⟩ :=
      process_versions he 1 hact₁ (by simp [hs])
    have hlt : (0 : UInt64) < r.next := by
      rw [UInt64.lt_iff_toNat_lt, hnext]
      simp
    have hsave := b.row_save_of_le r.overwriteCheckpoint ⟨0, none⟩ st₂.db fun old hold => by
        rw [hdb, hrow₁] at hold
        cases hold
    have hckpt : b.step st₂ (.checkpoint ⟨0, none⟩) = some { st₂ with
        db := saveProcessorStatus b.sdk b.processorName (b.mode r.overwriteCheckpoint) ⟨0, none⟩
          st₂.db } := by
      simp [step, hact₂, hstart, hs, hlt]
    have hreach := ((Run.nil.snoc trivial h₁).append_foldlM hrun).snoc trivial hckpt
    exact ⟨_, _, _, hreach.snoc (a := .stop) trivial rfl, rfl, hsave⟩
  all_goals
    rw [hrow₀] at hrow
    cases hrow

/-- A run that overwrites and crashes leaves a bare reset. -/
theorem exists_reset (hs : b.initialStartingVersion = 0) (he : b.endingVersion.toNat < 2 ^ 63) :
    ∃ trace st, b.Reached trace st ∧ st.active = none ∧ b.row st.db = some b.resetRow ∧
      st.processed = [] := by
  obtain ⟨trace, st, row, hreach, hact, hrow⟩ := exists_row hs he
  obtain ⟨st₁, h₁⟩ := start_enabled (b := b) _ true hact
  obtain ⟨v, _, hcase⟩ := b.start_cases h₁
  obtain ⟨hnone, _⟩ | ⟨_, _, _, how, _⟩ | ⟨_, _, _, _, hreset, hproc⟩ | ⟨_, _, _, how, _⟩ := hcase
  · rw [hrow] at hnone
    cases hnone
  · cases how
  · have hreach' := hreach.snoc trivial h₁
    exact ⟨_, { st₁ with active := none }, hreach'.snoc (a := .stop) trivial rfl, rfl, hreset,
      hproc⟩
  · cases how

/-- A run that does not overwrite resumes the bare reset at `1` and completes. -/
theorem exists_uncovered (hs : b.initialStartingVersion = 0) (hend : b.endingVersion ≠ 0)
    (he : b.endingVersion.toNat < 2 ^ 63) :
    ∃ trace st, b.Reached trace st ∧ ¬ b.CompleteCovers st := by
  obtain ⟨trace, st, hreach, hact, hrow, hproc⟩ := exists_reset hs he
  obtain ⟨st₁, h₁⟩ := start_enabled (b := b) _ false hact
  obtain ⟨v, hact₁, hcase⟩ := b.start_cases h₁
  rcases hcase with ⟨hnone, _⟩ | ⟨row, hrow', hst, _⟩ | ⟨_, _, how, _⟩ |
    ⟨row, hrow', _, _, rfl, hrow₁, hproc₁⟩
  · rw [hrow] at hnone
    cases hnone
  · obtain rfl := Option.some.inj (hrow.symm.trans hrow')
    cases hst
  · cases how
  · obtain rfl := Option.some.inj (hrow.symm.trans hrow')
    have hone : (b.resetRow.lastSuccessVersion.toUInt64 + 1).toNat = 1 := rfl
    have hepos : 0 < b.endingVersion.toNat :=
      Nat.pos_of_ne_zero fun h => hend (UInt64.toNat_inj.mp h)
    -- It resumes one past the version of the reset row, and never comes to version 0.
    obtain ⟨st₂, r, hrun, hdb, hact₂, hstart, _, hnext, hproc₂⟩ :=
      process_versions he b.endingVersion.toNat hact₁ (by simp only [hone]; omega)
    simp only [hone] at hnext hproc₂
    have hrange : r.start ≤ b.endingVersion ∧ b.endingVersion < r.next := by
      rw [hstart, UInt64.le_iff_toNat_le, UInt64.lt_iff_toNat_lt, hnext, hone]
      omega
    have hckpt : b.step st₂ (.checkpoint ⟨b.endingVersion, none⟩) = some { st₂ with
        db := saveProcessorStatus b.sdk b.processorName (b.mode r.overwriteCheckpoint)
          ⟨b.endingVersion, none⟩ st₂.db } := by
      simp [step, hact₂, hrange]
    -- At the end the row says complete.
    have hsave := b.row_save_of_le r.overwriteCheckpoint ⟨b.endingVersion, none⟩ st₂.db
      fun old hold => by
        rw [hdb, hrow₁] at hold
        obtain rfl := Option.some.inj hold
        exact (toInt64_le_toInt64_iff (a := 0) (by decide) he).mpr (Nat.zero_le _)
    refine ⟨_, _, ((hreach.snoc trivial h₁).append_foldlM hrun).snoc trivial hckpt, fun hcov => ?_⟩
    have hcomplete : (b.checkpointRow ⟨b.endingVersion, none⟩).backfillStatus = .complete := by
      simp [checkpointRow, checkpointStatus]
    have hzero := hcov _ hsave hcomplete 0 (by rw [hs]; exact le_rfl) (Nat.zero_le _)
    rcases hproc₂ 0 hzero with hmem | hle
    · rw [hproc₁, hproc] at hmem
      cases hmem
    · omega

end Backfill

/-- **A backfill marked complete covered its range — unless the range starts at
`0`.** For versions that fit the tables' `BIGINT`s: all histories are safe
exactly if the range does not start at `0` (or ends there); and whatever the
range, a history is safe if no run that does not overwrite resumes a row at `0`
while version `0` is still unprocessed. -/
theorem backfill_complete_covers (b : Backfill) (he : b.endingVersion.toNat < 2 ^ 63) :
    ((∀ trace st, Run b.step (fun _ _ => True) Backfill.init trace st → b.CompleteCovers st) ↔
      b.initialStartingVersion ≠ 0 ∨ b.endingVersion = 0) ∧
    (∀ trace st, Run b.step b.ResumeSafe Backfill.init trace st → b.CompleteCovers st) := by
  have hrun : ∀ trace st, Run b.step b.ResumeSafe Backfill.init trace st → b.CompleteCovers st :=
    fun trace st h => Backfill.completeCovers_of_inv
      (h.invariant Backfill.inv_init fun _ _ _ => Backfill.inv_step he)
  refine ⟨⟨fun hall => ?_, fun hsafe trace st h => ?_⟩, hrun⟩
  · by_contra hne
    rw [not_or, not_not] at hne
    obtain ⟨trace, st, hreach, hbad⟩ := Backfill.exists_uncovered hne.1 hne.2 he
    exact hbad (hall trace st hreach)
  · refine hrun trace st (h.mono fun st a _ => ?_)
    unfold Backfill.ResumeSafe
    split
    · intro hs hend
      exact (hsafe.elim (· hs) hend).elim
    · trivial

/-- A backfill of versions `0` and `1`. -/
def smallBackfill (start : UInt64) : Backfill where
  sdk := ⟨id, fun _ => none, fun _ => none, fun ts _ => ts.seconds.toInt * 1000000⟩
  processorName := "events_processor"
  backfillId := "b1"
  initialStartingVersion := start
  endingVersion := 1

/-- A checkpoint at `first`; a reset, then a crash; a run that resumes and
completes. -/
def resetTrace (first : UInt64) : List BackfillAction :=
  [.start false, .processNext, .checkpoint ⟨first, none⟩, .stop, .start true, .stop,
    .start false, .processNext, .checkpoint ⟨1, none⟩]

/-- Of versions `0` and `1`, only `1` was processed since the reset. -/
theorem smallBackfill_complete_without_zero :
    ∃ st, Run (smallBackfill 0).step (fun _ _ => True) Backfill.init (resetTrace 0) st ∧
      (((smallBackfill 0).row st.db).map (·.backfillStatus) = some .complete ∧
        st.processed = [1]) ∧
      ¬ (smallBackfill 0).CompleteCovers st := by
  obtain ⟨st, hrun, hstatus, hproc⟩ := exists_run (smallBackfill 0).step (fun _ _ => True)
    Backfill.init (resetTrace 0)
    (fun st => ((smallBackfill 0).row st.db).map (·.backfillStatus) = some .complete ∧
      st.processed = [1]) (by decide +kernel)
  refine ⟨st, hrun, ⟨hstatus, hproc⟩, fun hcov => ?_⟩
  obtain ⟨row, hrow, hcomplete⟩ := Option.map_eq_some_iff.mp hstatus
  have hzero := hcov row hrow hcomplete 0 (Nat.zero_le _) (Nat.zero_le _)
  rw [hproc] at hzero
  exact absurd hzero (by decide)

/-- From version `1` on, the same history is safe. -/
theorem backfill_complete_covers_from_one :
    ∃ st, Run (smallBackfill 1).step (fun _ _ => True) Backfill.init (resetTrace 1) st ∧
      ((smallBackfill 1).row st.db).map (·.backfillStatus) = some .complete ∧
      (smallBackfill 1).CompleteCovers st := by
  obtain ⟨st, hrun, hstatus⟩ := exists_run (smallBackfill 1).step (fun _ _ => True)
    Backfill.init (resetTrace 1)
    (fun st => ((smallBackfill 1).row st.db).map (·.backfillStatus) = some .complete)
    (by decide +kernel)
  exact ⟨st, hrun, hstatus,
    (backfill_complete_covers (smallBackfill 1) (by decide)).1.mpr (Or.inl (by decide)) _ _ hrun⟩

/-! ## Extending a completed backfill

A completed row is not resumed: the start is the configured ending version,
whatever the row holds. With the range unchanged that ends the backfill at once.
With a later ending version it skips what was added, up to the new last version,
and without one it names no start at all.
-/

/-- A start that leaves no version after `c` behind. -/
def ContinuesFrom (c : Int64) (start : Option UInt64) : Prop :=
  ∃ v, start = some v ∧ (v.toNat : ℤ) ≤ c.toInt + 1

theorem getStartingVersion_complete {processorName : String} {config : BackfillConfig}
    {db : StatusDb} {row : BackfillProcessorStatus}
    (hrow : db.backfillProcessorStatus.lookup (backfillAlias processorName config.backfillId) =
      some row)
    (hcomplete : row.backfillStatus = .complete) (how : config.overwriteCheckpoint = false) :
    getStartingVersion processorName (.backfill config) db = (config.endingVersion, db) := by
  unfold getStartingVersion
  simp only [hrow, hcomplete, how, and_self, if_true]

/-- **Extending a completed backfill works by one version only.** Of a range
that goes on after the completed row's last version, or is left open, the next
run processes all that was added exactly if one version was added. -/
theorem completed_backfill_continues_iff (processorName : String) (config : BackfillConfig)
    (db : StatusDb) (row : BackfillProcessorStatus)
    (hrow : db.backfillProcessorStatus.lookup (backfillAlias processorName config.backfillId) =
      some row)
    (hcomplete : row.backfillStatus = .complete) (how : config.overwriteCheckpoint = false)
    (hlater : ∀ e, config.endingVersion = some e → row.lastSuccessVersion.toInt < e.toNat) :
    ContinuesFrom row.lastSuccessVersion
        (getStartingVersion processorName (.backfill config) db).1 ↔
      ∃ e, config.endingVersion = some e ∧
        (e.toNat : ℤ) = row.lastSuccessVersion.toInt + 1 := by
  unfold ContinuesFrom
  rw [getStartingVersion_complete hrow hcomplete how]
  refine exists_congr fun e => and_congr_right fun he => ?_
  have hlt := hlater e he
  omega

/-- A row completed at version `10`. -/
def completedDb : StatusDb where
  processorStatus := ∅
  backfillProcessorStatus := AList.insert (backfillAlias "events_processor" "b1")
    ⟨.complete, 10, none, 0, some 10⟩ ∅

/-- Extended to `20`, the backfill goes on at `20`: versions `11` to `19` are
skipped. -/
theorem completed_backfill_skips_extension :
    (getStartingVersion "events_processor" (.backfill ⟨"b1", 0, some 20, false⟩) completedDb).1 =
        some 20 ∧
      ¬ ContinuesFrom 10 (getStartingVersion "events_processor"
        (.backfill ⟨"b1", 0, some 20, false⟩) completedDb).1 := by
  refine ⟨by decide +kernel, fun h => ?_⟩
  obtain ⟨v, hv, hle⟩ := h
  have hstart : (getStartingVersion "events_processor" (.backfill ⟨"b1", 0, some 20, false⟩)
      completedDb).1 = some 20 := by decide +kernel
  rw [hstart] at hv
  obtain rfl := Option.some.inj hv
  exact absurd hle (by decide)

/-- Extended to `11`, it goes on there. -/
theorem completed_backfill_continues_at_next :
    ContinuesFrom 10 (getStartingVersion "events_processor"
      (.backfill ⟨"b1", 0, some 11, false⟩) completedDb).1 := by
  refine (completed_backfill_continues_iff "events_processor" ⟨"b1", 0, some 11, false⟩
    completedDb ⟨.complete, 10, none, 0, some 10⟩ (by decide +kernel) rfl rfl ?_).mpr ?_
  · intro e he
    obtain rfl := Option.some.inj he
    decide
  · exact ⟨11, rfl, by decide⟩

end IndexerProcessors.Status

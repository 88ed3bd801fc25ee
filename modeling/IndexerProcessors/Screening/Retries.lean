import IndexerProcessors.Screening.Freshness

/-!
# Attempts before giving up

A batch is given up on after `MAX_RETRIES` failed requests, and the counter
belongs to the batch. An address that has been in the batch from its first
attempt was in each of these requests. Two kinds of addresses were not: those
that a retry takes over from the queue, and the sentinel, which `screen_evms`
leaves out of the request but not out of the batch. `gaveUp_attempts` says that
without these no address is given up on early.
-/

namespace IndexerProcessors.Screening

open IndexerProcessors.Lib
open IndexerProcessors.Reputation

/-- A retry takes nothing over from the queue, and a batch that is given up on
does not hold the sentinel. -/
def RetriesAlone (ctx : LoopCtx) (st : EnricherState) (a : LoopAction) : Prop :=
  ∀ batch ∈ failedBatch ctx st a,
    (∀ e ∈ batch.evmQueue, ∃ item ∈ batch.evms,
      ctx.toLowercase item.address = ctx.toLowercase e) ∧
    (maxRetries ≤ batch.count + 1 → ∀ item ∈ batch.evms, item.address ≠ evmNullSentinel)

instance (ctx : LoopCtx) (st : EnricherState) (a : LoopAction) :
    Decidable (RetriesAlone ctx st a) :=
  inferInstanceAs (Decidable (∀ batch ∈ failedBatch ctx st a, _))

/-- An address of a batch was in every failed request of the batch. -/
def BatchAttempts (evms : List EvmItem) (count : ℕ) : Prop :=
  ∀ item ∈ evms, item.address ≠ evmNullSentinel → count ≤ item.attempts

structure AttemptsInv (st : EnricherState) : Prop where
  batches : ∀ evms count phase, .evm evms count phase ∈ st.pending → BatchAttempts evms count
  gaveUp : ∀ item ∈ st.gaveUp, maxRetries ≤ item.attempts

section Keep

variable {ctx : LoopCtx} {st st' : EnricherState}

theorem AttemptsInv.finish (h : AttemptsInv st) (i : ℕ) : AttemptsInv (st.finish i) :=
  ⟨fun evms count phase hmem => h.batches evms count phase (mem_pending_finish hmem), h.gaveUp⟩

/-- Moving a future on keeps its batch. -/
theorem AttemptsInv.advance {i : ℕ} {evms : List EvmItem} {count : ℕ} {phase phase' : EvmPhase}
    (h : AttemptsInv st) (hi : st.pending[i]? = some (.evm evms count phase)) :
    AttemptsInv (st.advance i (.evm evms count phase')) := by
  refine ⟨fun evms' count' phase'' hmem => ?_, h.gaveUp⟩
  rcases mem_pending_advance hmem with hmem | heq
  · exact h.batches evms' count' phase'' hmem
  · obtain ⟨rfl, rfl, rfl⟩ := Future.evm.inj heq
    exact h.batches evms' count' phase (List.mem_of_getElem? hi)

theorem AttemptsInv.congr (h : AttemptsInv st)
    (hpending : ∀ evms count phase, .evm evms count phase ∈ st'.pending →
      .evm evms count phase ∈ st.pending)
    (hgaveUp : st'.gaveUp = st.gaveUp) : AttemptsInv st' :=
  ⟨fun evms count phase hmem => h.batches evms count phase (hpending evms count phase hmem),
   hgaveUp ▸ h.gaveUp⟩

theorem AttemptsInv.savedUnlessFresh {faults : DbFaults} (h : AttemptsInv st)
    (hs : SavedUnlessFresh ctx faults st st') : AttemptsInv st' := by
  obtain ⟨t, rfl⟩ := hs.frame
  exact h.congr (fun _ _ _ hmem => hmem) rfl

/-- Processing a batch keeps the counts if each address of it has its share of
attempts. -/
theorem attemptsInv_processEvms {faults : DbFaults} {evms : List EvmItem} {count : ℕ}
    (h : AttemptsInv st)
    (hbatch : ∀ evmQueue, st.connection = .screening evmQueue →
      BatchAttempts (mergeQueue ctx evms evmQueue) count)
    (hsentinel : ∀ evmQueue, st.connection = .screening evmQueue → maxRetries ≤ count →
      ∀ item ∈ mergeQueue ctx evms evmQueue, item.address ≠ evmNullSentinel) :
    AttemptsInv (processEvms ctx st evms count faults) := by
  cases hc : st.connection with
  | connecting pinged =>
    exact h.savedUnlessFresh (processEvms_connecting ctx faults hc evms count).1
  | screening evmQueue =>
    have hscreen : ∀ item ∈ toScreen ctx st faults count (mergeQueue ctx evms evmQueue),
        item ∈ mergeQueue ctx evms evmQueue := fun item hmem => (List.mem_filter.mp hmem).1
    rcases processEvms_screening ctx faults hc evms count with
      ⟨_, heq⟩ | ⟨_, heq⟩ | ⟨hcount, t, heq, _⟩
    · rw [heq]
      exact h.congr (fun _ _ _ hmem => hmem) rfl
    · rw [heq]
      refine ⟨fun evms' count' phase hmem => ?_, h.gaveUp⟩
      rcases List.mem_append.mp hmem with hmem | hmem
      · exact h.batches evms' count' phase hmem
      · obtain ⟨rfl, rfl, rfl⟩ := Future.evm.inj (List.mem_singleton.mp hmem)
        exact fun item hitem => hbatch evmQueue hc item (hscreen item hitem)
    · rw [heq]
      refine ⟨h.batches, fun item hmem => ?_⟩
      rcases List.mem_append.mp hmem with hmem | hmem
      · exact h.gaveUp item hmem
      · -- Given up on: the batch's count is `MAX_RETRIES`, and so is the item's.
        have hitem := hscreen item (List.mem_filter.mp hmem).1
        exact hcount.trans (hbatch evmQueue hc item hitem (hsentinel evmQueue hc hcount item hitem))

/-- On the first attempt nothing is required. -/
theorem attemptsInv_processEvms_zero {faults : DbFaults} (h : AttemptsInv st)
    (evms : List EvmItem) : AttemptsInv (processEvms ctx st evms 0 faults) :=
  attemptsInv_processEvms h (fun _ _ _ _ _ => Nat.zero_le _) fun _ _ hle => absurd hle (by decide)

theorem attemptsInv_newEvm {faults : DbFaults} (h : AttemptsInv st) (evm : String) :
    AttemptsInv (newEvm ctx st evm faults) := by
  cases hc : st.connection with
  | connecting pinged =>
    rw [newEvm_connecting st hc]
    exact h.savedUnlessFresh (savedUnlessFresh st evm)
  | screening evmQueue =>
    rw [newEvm_screening st hc]
    exact h.congr (fun _ _ _ hmem => hmem) rfl

/-- With nothing to take over, the merged batch is the one retried. -/
theorem mergeQueue_eq_self {evms : List EvmItem} {evmQueue : List String}
    (h : ∀ e ∈ evmQueue, ∃ item ∈ evms, ctx.toLowercase item.address = ctx.toLowercase e) :
    mergeQueue ctx (evms.map EvmItem.failed) evmQueue = evms.map EvmItem.failed := by
  have hnone : (evmQueue.filter fun e =>
      ctx.toLowercase e ∉ (evms.map EvmItem.failed).map fun item => ctx.toLowercase item.address) =
        [] := by
    refine List.filter_eq_nil_iff.mpr fun e he => ?_
    obtain ⟨item, hitem, heq⟩ := h e he
    simp only [decide_not, Bool.not_eq_eq_eq_not, Bool.not_true, decide_eq_false_iff_not, not_not]
    refine List.mem_map.mpr ⟨item.failed, List.mem_map_of_mem hitem, ?_⟩
    rw [EvmItem.failed_address, heq]
  simp only [mergeQueue, hnone, List.map_nil, List.append_nil]

theorem batchAttempts_failed {evms : List EvmItem} {count : ℕ} (h : BatchAttempts evms count) :
    BatchAttempts (evms.map EvmItem.failed) (count + 1) := by
  intro item hitem hne
  obtain ⟨old, hold, rfl⟩ := List.mem_map.mp hitem
  unfold EvmItem.failed at hne ⊢
  split
  next hsent =>
    rw [if_pos hsent] at hne
    exact absurd hsent hne
  next hsent => exact Nat.succ_le_succ (h old hold hsent)

/-- Every step keeps the counts, if retries stay alone. -/
theorem attemptsInv_step {a : LoopAction} (h : AttemptsInv st) (hC : RetriesAlone ctx st a)
    (hstep : step ctx st a = some st') : AttemptsInv st' := by
  cases turn_of_step hstep with
  | recvGuid | pingFailed | connected | evicted | clock =>
    exact h.congr (fun _ _ _ hmem => hmem) rfl
  | recvEvm evm faults =>
    have hrecv : AttemptsInv { st with received := evm :: st.received } :=
      h.congr (fun _ _ _ hmem => hmem) rfl
    exact attemptsInv_newEvm hrecv evm
  | tick reconnect faults =>
    refine attemptsInv_processEvms_zero (h.congr (fun evms count phase hmem => ?_) ?_) []
    · rcases List.mem_append.mp hmem with hmem | hmem
      · rcases connect_cases st reconnect with ⟨_, _, _, _, heq⟩ | ⟨_, _, heq⟩
        all_goals
          rw [heq] at hmem
          exact hmem
      · obtain ⟨guid, _, hguid⟩ := List.mem_map.mp hmem
        cases hguid
    · rcases connect_cases st reconnect with ⟨_, _, _, _, heq⟩ | ⟨_, _, heq⟩ <;> rw [heq]
  | @guidResolved i guid count evm faults hi =>
    have hrecv : AttemptsInv { st.finish i with received := evm :: st.received } :=
      (h.finish i).congr (fun _ _ _ hmem => hmem) rfl
    exact attemptsInv_processEvms_zero hrecv _
  | @guidEnded i guid count outcome faults hi _ => exact h.finish i
  | @guidRetried i guid count faults hi =>
    refine (h.finish i).congr (fun evms count phase hmem => ?_) rfl
    rcases List.mem_append.mp hmem with hmem | hmem
    · exact hmem
    · cases List.mem_singleton.mp hmem
  | @evmSkipped i evms count hi hnone => exact h.finish i
  | evmStarted hi => exact h.advance hi
  | evmHit hi hcached => exact h.advance hi
  | evmMissed hi => exact h.advance hi
  | evmAllHit hi => exact h.advance hi
  | evmAnswered hi hresponse => exact h.advance hi
  | evmCached hi => exact (h.advance hi).congr (fun _ _ _ hmem => hmem) rfl
  | @evmSaved i evms count evm result toSave faults hi =>
    have hadv : AttemptsInv (st.advance i (.evm evms count (.saving [] toSave))) := h.advance hi
    obtain ⟨t, heq⟩ := save_eq faults (st.advance i (.evm evms count (.saving [] toSave)))
      (computeRiskScore ctx.toLowercase st.now evm result ctx.screenerUrl)
    rw [heq]
    exact hadv.congr (fun _ _ _ hmem => hmem) rfl
  | @evmDone i evms count hi => exact h.finish i
  | @evmFailed i evms count results toProcess response faults hi hne hresponse =>
    have hold := h.batches evms count _ (List.mem_of_getElem? hi)
    -- Only here do counts and attempts grow, together, as the batch stays alone.
    have halone : ∀ evmQueue, (st.finish i).connection = .screening evmQueue →
        mergeQueue ctx (evms.map EvmItem.failed) evmQueue = evms.map EvmItem.failed ∧
        (maxRetries ≤ count + 1 → ∀ item ∈ evms, item.address ≠ evmNullSentinel) := by
      intro evmQueue hc
      have hc' : st.connection = .screening evmQueue := hc
      obtain ⟨hqueue, hsentinel⟩ := hC _ (failedBatch_failed hc' hi hne hresponse)
      exact ⟨mergeQueue_eq_self hqueue, hsentinel⟩
    refine attemptsInv_processEvms (h.finish i) (fun evmQueue hc => ?_) fun evmQueue hc hcount => ?_
    · rw [(halone evmQueue hc).1]
      exact batchAttempts_failed hold
    · rw [(halone evmQueue hc).1]
      intro item hitem
      obtain ⟨old, hmem, rfl⟩ := List.mem_map.mp hitem
      have hne' := (halone evmQueue hc).2 hcount old hmem
      simp [EvmItem.failed, hne']

end Keep

/-- **No early giving up.** In every run in which retries take nothing over from
the queue and no batch with the sentinel is given up on, every address given up
on was in `MAX_RETRIES` failed requests since it came into its batch. -/
theorem gaveUp_attempts (ctx : LoopCtx) (pendingGuids : List String)
    (riskScores : Table String EvmRiskScore) (now : NaiveDateTime) (trace : List LoopAction)
    (st : EnricherState)
    (hrun : Run (step ctx) (RetriesAlone ctx) (init pendingGuids riskScores now) trace st) :
    ∀ item ∈ st.gaveUp, maxRetries ≤ item.attempts := by
  have hinv : AttemptsInv st := by
    refine hrun.invariant ⟨?_, ?_⟩ fun _ _ _ h hC hstep => attemptsInv_step h hC hstep
    · exact fun _ _ _ hmem => nomatch hmem
    · exact fun _ hmem => nomatch hmem
  exact hinv.gaveUp

/-- The fifth attempt on `0xbb` fails too. -/
def exhaustedTrace (late : List String) : List LoopAction :=
  fifthAttemptTrace late ++ [.evmRespond 0 .failed .none]

theorem gaveUp_attempts_alone :
    ∃ st, Run (step hourCtx) (RetriesAlone hourCtx) (init [] ∅ 0) (exhaustedTrace []) st ∧
      st.gaveUp = [⟨"0xbb", 5⟩] ∧ ∀ item ∈ st.gaveUp, maxRetries ≤ item.attempts := by
  obtain ⟨st, hrun, hup⟩ := exists_run (step hourCtx) (RetriesAlone hourCtx) (init [] ∅ 0)
    (exhaustedTrace []) (fun st => st.gaveUp = [⟨"0xbb", 5⟩]) (by decide +kernel)
  exact ⟨st, hrun, hup, gaveUp_attempts _ _ _ _ _ _ hrun⟩

/-- `0xaa`, queued during the fifth attempt on `0xbb`, is given up on without a
single request. -/
theorem queued_address_given_up_unscreened :
    ∃ st, Run (step hourCtx) (fun _ _ => True) (init [] ∅ 0) (exhaustedTrace ["0xaa"]) st ∧
      st.gaveUp = [⟨"0xbb", 5⟩, ⟨"0xaa", 0⟩] ∧
      ¬ ∀ item ∈ st.gaveUp, maxRetries ≤ item.attempts := by
  obtain ⟨st, hrun, hup⟩ := exists_run (step hourCtx) (fun _ _ => True) (init [] ∅ 0)
    (exhaustedTrace ["0xaa"]) (fun st => st.gaveUp = [⟨"0xbb", 5⟩, ⟨"0xaa", 0⟩])
    (by decide +kernel)
  refine ⟨st, hrun, hup, fun hall => ?_⟩
  have hnone := hall ⟨"0xaa", 0⟩ (by rw [hup]; simp)
  exact absurd hnone (by decide)

end IndexerProcessors.Screening

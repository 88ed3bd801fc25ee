import IndexerProcessors.Screening.Loop

/-!
# Error scores over fresh rows

Error scores are written in three places. Two of them, both before Hypernative
is connected, ask for the address's freshness first, and take a failed query for
a no. The third, giving up on a batch after its last retry, does not ask, and
the batch it gives up on takes the whole queue along. `fresh_score_kept_iff`
says that these are the only ways a fresh valid row is lost: a run in which no
fresh address gets an error score unchecked is a run in which no step overwrites
a fresh row with one, and conversely.
-/

namespace IndexerProcessors.Screening

open IndexerProcessors.Lib

/-- The batch an action gives up on. -/
def givenUp (ctx : LoopCtx) (st : EnricherState) (a : LoopAction) : List EvmItem :=
  match failedBatch ctx st a with
  | none => []
  | some batch =>
    if maxRetries ≤ batch.count + 1 then
      mergeQueue ctx (batch.evms.map EvmItem.failed) batch.evmQueue
    else []

/-- The address an action brings while there is no connection. -/
def broughtConnecting (st : EnricherState) (a : LoopAction) : List String :=
  match a, st.connection with
  | .recvEvm evm _, .connecting _ => [evm]
  | .guidDone _ (.resolved evm) _, .connecting _ => [evm]
  | _, _ => []

/-- The addresses an action scores as errors without having seen that they are
not fresh: those it gives up on, and those whose query fails. -/
def unchecked (ctx : LoopCtx) (st : EnricherState) (a : LoopAction) : List String :=
  (givenUp ctx st a).map (·.address) ++ (broughtConnecting st a).filter (· ∈ a.faults.fresh)

/-- The table holds a valid row for the address, inside the time to live. -/
def Fresh (ctx : LoopCtx) (st : EnricherState) (evm : String) : Prop :=
  isFreshInDb ctx st .none evm = true

/-- No fresh address is scored unchecked, unless its save fails. -/
def NoFreshUnchecked (ctx : LoopCtx) (st : EnricherState) (a : LoopAction) : Prop :=
  ∀ evm ∈ unchecked ctx st a, Fresh ctx st evm → evm ∈ a.faults.save

/-- The step overwrites no fresh row with an error score. -/
def KeepsFresh (ctx : LoopCtx) (st : EnricherState) (a : LoopAction) : Prop :=
  ∀ st', step ctx st a = some st' → ∀ evm, Fresh ctx st evm →
    ∀ now, st'.riskScores.lookup evm ≠ some (errorScore now evm)

section Keep

variable {ctx : LoopCtx} {st st' : EnricherState} {faults : DbFaults} {evm : String}

theorem isFreshInDb_of_fresh (h : Fresh ctx st evm) (hok : evm ∉ faults.fresh) :
    isFreshInDb ctx st faults evm = true := by
  unfold Fresh isFreshInDb at h
  unfold isFreshInDb
  rw [if_neg hok]
  exact h

/-- A fresh row is no error score. -/
theorem Fresh.lookup_ne (h : Fresh ctx st evm) (now : NaiveDateTime) :
    st.riskScores.lookup evm ≠ some (errorScore now evm) := by
  obtain ⟨row, hrow, hvalid⟩ := exists_row_of_isFreshInDb h
  rw [hrow]
  intro heq
  rw [Option.some.inj heq] at hvalid
  cases hvalid

/-- While connecting, a fresh row is overwritten only if its query fails. -/
theorem lookup_saveUnlessFresh (faults : DbFaults) (st : EnricherState) (h : Fresh ctx st evm)
    (evm' : String) :
    (saveUnlessFresh ctx faults st evm').riskScores.lookup evm =
      if evm ∈ [evm'].filter (· ∈ faults.fresh) ∧ evm ∉ faults.save
      then some (errorScore st.now evm) else st.riskScores.lookup evm := by
  by_cases hquery : evm ∈ faults.fresh
  · by_cases heq : evm = evm'
    · subst heq
      have hstale : isFreshInDb ctx st faults evm = false := if_pos hquery
      unfold saveUnlessFresh
      rw [hstale, if_neg Bool.false_ne_true, lookup_save]
      simp [hquery, errorScore]
    · rw [if_neg (by simp [heq])]
      unfold saveUnlessFresh
      split
      next => rfl
      next =>
        rw [lookup_save, if_neg]
        exact fun hself => heq hself.1
  · rw [if_neg (by simp [hquery])]
    exact (savedUnlessFresh st evm').fresh evm (isFreshInDb_of_fresh h hquery)

/-- A resolved address is handled like a received one while connecting. -/
theorem lookup_processEvms_singleton (faults : DbFaults) (st : EnricherState)
    (h : Fresh ctx st evm) {pinged : Bool} (hc : st.connection = .connecting pinged)
    (item : EvmItem) :
    (processEvms ctx st [item] 0 faults).riskScores.lookup evm =
      if evm ∈ [item.address].filter (· ∈ faults.fresh) ∧ evm ∉ faults.save
      then some (errorScore st.now evm) else st.riskScores.lookup evm := by
  unfold processEvms
  rw [hc]
  exact lookup_saveUnlessFresh faults st h item.address

/-- A retry before the last leaves all rows alone. -/
theorem lookup_processEvms_of_lt (ctx : LoopCtx) (faults : DbFaults) (st : EnricherState)
    (evms : List EvmItem) {evmQueue : List String} {count : ℕ}
    (hc : st.connection = .screening evmQueue) (hcount : count < maxRetries) (evm : String) :
    (processEvms ctx st evms count faults).riskScores.lookup evm = st.riskScores.lookup evm := by
  rcases processEvms_screening ctx faults hc evms count with ⟨_, h⟩ | ⟨_, h⟩ | ⟨hle, _⟩
  · rw [h]
  · rw [h]
  · omega

/-- A failed request in the last attempt: the whole merged batch gets error
scores. -/
theorem lookup_giveUp (ctx : LoopCtx) (faults : DbFaults) (st : EnricherState)
    (evms : List EvmItem) {evmQueue : List String} {count : ℕ}
    (hc : st.connection = .screening evmQueue) (hcount : maxRetries ≤ count) (evm : String) :
    (processEvms ctx st evms count faults).riskScores.lookup evm =
      if evm ∈ (mergeQueue ctx evms evmQueue).map (·.address) ∧ evm ∉ faults.save
      then some (errorScore st.now evm) else st.riskScores.lookup evm := by
  have hall : toScreen ctx st faults count (mergeQueue ctx evms evmQueue) =
      mergeQueue ctx evms evmQueue := by
    refine List.filter_eq_self.mpr fun item _ => ?_
    have hne : count ≠ 0 := by unfold maxRetries at hcount; omega
    simp [hne]
  simp only [List.mem_map]
  rcases processEvms_screening ctx faults hc evms count with
    ⟨hnil, h⟩ | ⟨hlt, _⟩ | ⟨_, t, h, ht⟩
  · rw [hall] at hnil
    rw [h, hnil]
    simp
  · omega
  · rw [h, ← hall]
    exact ht evm

theorem unchecked_connecting {pinged : Bool} (hc : st.connection = .connecting pinged)
    (a : LoopAction) :
    unchecked ctx st a = (broughtConnecting st a).filter (· ∈ a.faults.fresh) := by
  unfold unchecked givenUp
  rw [failedBatch_connecting hc]
  rfl

theorem unchecked_screening {evmQueue : List String} (hc : st.connection = .screening evmQueue)
    (a : LoopAction) : unchecked ctx st a = (givenUp ctx st a).map (·.address) := by
  have hnone : broughtConnecting st a = [] := by
    unfold broughtConnecting
    rw [hc]
    split <;> simp_all
  unfold unchecked
  rw [hnone]
  exact List.append_nil _

/-- A turn that scores exactly the addresses in `scored`, up to failed saves. -/
theorem exists_errorScore_iff (h : Fresh ctx st evm) {scored : List String}
    (hrows : st'.riskScores.lookup evm = if evm ∈ scored ∧ evm ∉ faults.save
      then some (errorScore st.now evm) else st.riskScores.lookup evm) :
    (∃ now, st'.riskScores.lookup evm = some (errorScore now evm)) ↔
      evm ∈ scored ∧ evm ∉ faults.save := by
  constructor
  · intro hlost
    obtain ⟨now, hlost⟩ := hlost
    by_contra hnot
    rw [hrows, if_neg hnot] at hlost
    exact h.lookup_ne now hlost
  · intro hscored
    exact ⟨st.now, by rw [hrows, if_pos hscored]⟩

/-- A turn overwrites a fresh row with an error score exactly if it scores it
unchecked. -/
theorem overwritten_iff {a : LoopAction} (h : step ctx st a = some st') (hf : Fresh ctx st evm) :
    (∃ now, st'.riskScores.lookup evm = some (errorScore now evm)) ↔
      evm ∈ unchecked ctx st a ∧ evm ∉ a.faults.save := by
  -- Most turns leave the row alone and score nothing.
  have hleft : st'.riskScores.lookup evm = st.riskScores.lookup evm → unchecked ctx st a = [] →
      ((∃ now, st'.riskScores.lookup evm = some (errorScore now evm)) ↔
        evm ∈ unchecked ctx st a ∧ evm ∉ a.faults.save) := by
    intro hrow hnone
    refine exists_errorScore_iff hf ?_
    rw [hnone, if_neg (fun hmem => nomatch hmem.1), hrow]
  cases turn_of_step h with
  | recvGuid | pingFailed | connected | guidRetried | evmSkipped | evmStarted | evmHit | evmMissed
  | evmCached | evmDone | evicted | clock => exact hleft rfl rfl
  | @guidEnded _ _ _ outcome _ hi hnone =>
    cases outcome with
    | resolved evm' => exact absurd rfl (hnone evm')
    | notFound | failed => exact hleft rfl rfl
  | recvEvm evm' faults =>
    rcases st.connecting_or_screening with ⟨pinged, hc⟩ | ⟨evmQueue, hc⟩
    · have hbrought : broughtConnecting st (.recvEvm evm' faults) = [evm'] := by
        simp only [broughtConnecting, hc]
      refine exists_errorScore_iff hf ?_
      rw [unchecked_connecting hc, hbrought]
      rw [newEvm_connecting { st with received := evm' :: st.received } hc]
      exact lookup_saveUnlessFresh faults { st with received := evm' :: st.received } hf evm'
    · refine hleft ?_ (unchecked_screening hc _)
      rw [newEvm_screening { st with received := evm' :: st.received } hc]
  | tick reconnect faults =>
    refine hleft ?_ rfl
    rcases connect_cases st reconnect with ⟨_, _, _, _, heq⟩ | ⟨evmQueue, hc, heq⟩
    · rw [heq]
      rfl
    · rw [heq]
      exact lookup_processEvms_of_lt ctx faults { st with
        pending := st.pending ++ st.guidQueue.map fun guid => Future.guid guid 0
        guidQueue := [] } [] hc (by decide) evm
  | @guidResolved i guid count evm' faults hi =>
    rcases st.connecting_or_screening with ⟨pinged, hc⟩ | ⟨evmQueue, hc⟩
    · have hbrought : broughtConnecting st (.guidDone i (.resolved evm') faults) = [evm'] := by
        simp only [broughtConnecting, hc]
      refine exists_errorScore_iff hf ?_
      rw [unchecked_connecting hc, hbrought]
      exact lookup_processEvms_singleton faults
        { st.finish i with received := evm' :: st.received } hf hc ⟨evm', 0⟩
    · refine hleft ?_ (unchecked_screening hc _)
      exact lookup_processEvms_of_lt ctx faults
        { st.finish i with received := evm' :: st.received } [⟨evm', 0⟩] hc (by decide) evm
  | evmAllHit hi =>
    refine hleft rfl ?_
    rw [unchecked, givenUp, failedBatch_answered hi fun h => absurd rfl h]
    rfl
  | @evmAnswered i evms count results results' toProcess toCache response faults hi hresponse =>
    refine hleft rfl ?_
    have hsome : handleResponse ctx.toLowercase results toProcess response ≠ none := by
      rw [hresponse]
      exact Option.some_ne_none _
    rw [unchecked, givenUp, failedBatch_answered hi fun _ => hsome]
    rfl
  | @evmSaved i evms count evm' result toSave faults hi =>
    refine iff_of_false (fun hlost => ?_) (fun hmem => nomatch hmem.1)
    obtain ⟨now, hlost⟩ := hlost
    rw [lookup_save] at hlost
    split at hlost
    next =>
      -- A screened address gets a valid score, never an error score.
      have hflag := congrArg EvmRiskScore.toBeUpdated (Option.some.inj hlost)
      cases hflag
    next => exact hf.lookup_ne now hlost
  | @evmFailed i evms count results toProcess response faults hi hne hresponse =>
    rcases st.connecting_or_screening with ⟨pinged, hc⟩ | ⟨evmQueue, hc⟩
    · -- Without a connection the retry item is dropped.
      refine hleft ?_ (unchecked_connecting hc _)
      have hc' : (st.finish i).connection = .connecting pinged := hc
      rw [processEvms, hc']
      rfl
    · have hbatch : failedBatch ctx st (.evmRespond i response faults) =
          some ⟨evms, count, evmQueue⟩ := failedBatch_failed hc hi hne hresponse
      by_cases hlast : maxRetries ≤ count + 1
      · refine exists_errorScore_iff hf ?_
        rw [unchecked_screening hc, givenUp, hbatch]
        simp only [if_pos hlast]
        exact lookup_giveUp ctx faults (st.finish i) _ hc hlast evm
      · refine hleft ?_ ?_
        · exact lookup_processEvms_of_lt ctx faults (st.finish i) _ hc (Nat.not_le.mp hlast) evm
        · rw [unchecked_screening hc, givenUp, hbatch]
          simp only [if_neg hlast]
          rfl

theorem keepsFresh_of_step {a : LoopAction} (h : step ctx st a = some st') :
    KeepsFresh ctx st a ↔ NoFreshUnchecked ctx st a := by
  constructor
  · intro hkeep evm hmem hf
    by_contra hok
    obtain ⟨now, hlost⟩ := (overwritten_iff h hf).mpr ⟨hmem, hok⟩
    exact hkeep st' h evm hf now hlost
  · intro hnone st'' h'' evm hf now hlost
    obtain rfl := Option.some.inj (h.symm.trans h'')
    obtain ⟨hmem, hok⟩ := (overwritten_iff h hf).mp ⟨now, hlost⟩
    exact hok (hnone evm hmem hf)

end Keep

/-- **Fresh rows.** In a run from any database, no step overwrites a fresh row
with an error score exactly if no step scores a fresh address unchecked. -/
theorem fresh_score_kept_iff (ctx : LoopCtx) (pendingGuids : List String)
    (riskScores : Table String EvmRiskScore) (now : NaiveDateTime) (trace : List LoopAction)
    (st : EnricherState) :
    Run (step ctx) (KeepsFresh ctx) (init pendingGuids riskScores now) trace st ↔
      Run (step ctx) (NoFreshUnchecked ctx) (init pendingGuids riskScores now) trace st := by
  constructor
  · intro hrun
    induction hrun with
    | nil => exact .nil
    | snoc _ hC hstep ih => exact .snoc ih ((keepsFresh_of_step hstep).mp hC) hstep
  · intro hrun
    induction hrun with
    | nil => exact .nil
    | snoc _ hC hstep ih => exact .snoc ih ((keepsFresh_of_step hstep).mpr hC) hstep

/-- A loop with an hour's time to live. -/
def hourCtx : LoopCtx := ⟨String.toLower, 3600, "screener"⟩

/-- A valid row, fetched just now. -/
def freshRow : EvmRiskScore :=
  computeRiskScore String.toLower 0 "0xaa" ⟨"0xaa", "approve", "low", false⟩ "screener"

/-- A future's attempt up to its response. -/
def attempt : List LoopAction := [.evmStart 0, .evmCheck 0]

/-- After connecting, `0xbb` fails four times; during the fifth attempt the
addresses in `late` come in. -/
def fifthAttemptTrace (late : List String) : List LoopAction :=
  [.tick false .none, .pingDone (.connected [] []), .recvEvm "0xbb" .none, .tick false .none] ++
    (List.replicate 4 (attempt ++ [.evmRespond 0 .failed .none])).flatten ++ attempt ++
    late.map (.recvEvm · .none)

/-- `0xaa` is fresh; the fifth failure takes it from the queue and gives up on
it. -/
theorem queued_fresh_score_destroyed :
    ∃ st, Run (step hourCtx) (fun _ _ => True)
        (init [] ((∅ : Table String EvmRiskScore).insert "0xaa" freshRow) 0)
        (fifthAttemptTrace ["0xaa"]) st ∧
      Fresh hourCtx st "0xaa" ∧
      (∃ st' ∈ step hourCtx st (.evmRespond 0 .failed .none),
        st'.riskScores.lookup "0xaa" = some (errorScore st.now "0xaa")) ∧
      ¬ KeepsFresh hourCtx st (.evmRespond 0 .failed .none) := by
  obtain ⟨st, hrun, hfresh, st', hstep, hlost⟩ := exists_run (step hourCtx) (fun _ _ => True)
    (init [] ((∅ : Table String EvmRiskScore).insert "0xaa" freshRow) 0)
    (fifthAttemptTrace ["0xaa"])
    (fun st => isFreshInDb hourCtx st .none "0xaa" = true ∧
      ∃ st' ∈ step hourCtx st (.evmRespond 0 .failed .none),
        st'.riskScores.lookup "0xaa" = some (errorScore st.now "0xaa")) (by decide +kernel)
  refine ⟨st, hrun, hfresh, ⟨st', hstep, hlost⟩, fun hkeep => ?_⟩
  exact hkeep st' hstep "0xaa" hfresh st.now hlost

end IndexerProcessors.Screening

import IndexerProcessors.Lib.Endless
import IndexerProcessors.Screening.Pipeline
import IndexerProcessors.Screening.Spelling

/-!
# The pipeline settles

What is on its way in the pipeline gets there: once nothing new comes in, every batch is
stored, every GUID asked for and every address screened in finitely many steps, whatever
the services answer, in any order of the steps. Each message and each future has a
weight, for the work it can still make: a failed request leaves a lighter future than it
took, an answer to a GUID is heavier than the batch it joins, and a batch that takes over
the queue is lighter than the queue.

`pipeline_settles`: an endless run of the last process, without new input, that does not
put possible work off forever, comes to a state with nothing on its way; and then, if the
screener was ever reached, every source has a row and every GUID without a source was
asked for `MAX_RETRIES` times.
-/

namespace IndexerProcessors.Screening

open IndexerProcessors.Lib
open IndexerProcessors.Reputation

/-! ## Weights -/

/-- The most work that a batch of addresses can make after `count` failures. -/
def batchWeight (count : ℕ) : ℕ := if count < maxRetries then maxRetries - count + 1 else 0

/-- The requests that a future can still make, and what comes of them. -/
def Future.weight : Future → ℕ
  | .guid _ count => maxRetries - count + 8
  | .evm _ count .waiting => maxRetries - count + 1
  | .evm _ count (.fetching _ _ _) => maxRetries - count + 1
  | .evm _ _ (.saving _ _) => 0

/-- The steps that a future is from its request, or from its end. -/
def Future.todo : Future → ℕ
  | .guid _ _ => 0
  | .evm evms _ .waiting => evms.length + 2
  | .evm _ _ (.fetching _ _ rest) => rest.length + 1
  | .evm _ _ (.saving toCache toSave) => toCache.length + toSave.length + 1

/-- A connection can still load rows. -/
def EnricherState.opening (st : EnricherState) : ℕ :=
  match st.connection with
  | .connecting _ => 1
  | .screening _ => if st.pinging then 1 else 0

def EnricherState.load (st : EnricherState) : ℕ :=
  14 * st.guidQueue.length + (st.pending.map Future.weight).sum + 7 * st.connection.queue.length

def EnricherState.todo (st : EnricherState) : ℕ := (st.pending.map Future.todo).sum

/-- New transactions, or a new process. -/
def PipelineAction.isNew : PipelineAction → Bool
  | .extract _ | .restart _ _ => true
  | _ => false

namespace Pipeline

/-- What is between the parts. -/
def between (st : Pipeline) : ℕ :=
  (st.extracted.map fun batch => 15 * (pendingGuids batch).length + 1).sum +
    15 * st.guidChannel.length + 8 * st.evmChannel.length + 7 * st.resolved.length

def load (st : Pipeline) : ℕ := st.between + st.enricher.load

def rank (st : Pipeline) : ℕ ×ₗ ℕ ×ₗ ℕ :=
  toLex (st.enricher.opening, toLex (st.load, st.enricher.todo))

/-- Steps that get something done: all but new input, pings, the clock, evictions from
the cache, and ticks that find nothing queued. -/
def Works (st : Pipeline) : PipelineAction → Prop
  | .extract _ | .restart _ _ => False
  | .turn (.tick _ _) => st.enricher.guidQueue ≠ [] ∨ st.enricher.connection.queue ≠ []
  | .turn (.pingDone _) | .turn (.evict _) | .turn (.clock _) => False
  | _ => True

/-- Nothing is on its way. -/
structure Drained (st : Pipeline) : Prop where
  extracted : st.extracted = []
  guidChannel : st.guidChannel = []
  evmChannel : st.evmChannel = []
  resolved : st.resolved = []
  guidQueue : st.enricher.guidQueue = []
  pending : st.enricher.pending = []
  queue : st.enricher.connection.queue = []

end Pipeline

/-! ## What a step weighs -/

section Weights

variable {ctx : LoopCtx} {st st' : EnricherState}

/-- The pool without a future. -/
theorem sum_finish (w : Future → ℕ) {i : ℕ} {f : Future} (hi : st.pending[i]? = some f) :
    w f + ((st.finish i).pending.map w).sum = (st.pending.map w).sum := by
  obtain ⟨hlt, rfl⟩ := List.getElem?_eq_some_iff.mp hi
  have hlt' : i < (st.pending.map w).length := by rwa [List.length_map]
  have hsum := List.CommMonoid.add_sum_eraseIdx hlt'
  rwa [List.getElem_map, List.eraseIdx_map] at hsum

/-- The pool with a future moved on. -/
theorem sum_advance (w : Future → ℕ) {i : ℕ} {f g : Future} (hi : st.pending[i]? = some f) :
    w f + ((st.advance i g).pending.map w).sum = w g + (st.pending.map w).sum := by
  have hlt := (List.getElem?_eq_some_iff.mp hi).1
  have hg : (st.advance i g).pending[i]? = some g := List.getElem?_set_self hlt
  have hold := sum_finish w hi
  have hnew := sum_finish w hg
  have hsame : ((st.advance i g).finish i).pending = (st.finish i).pending :=
    List.eraseIdx_set_eq
  rw [hsame] at hnew
  omega

/-- What screening makes of the loop: the queue is empty, and there is at most one batch
more. -/
structure Queues (ctx : LoopCtx) (st : EnricherState) (evms : List EvmItem) (count : ℕ)
    (st' : EnricherState) : Prop where
  opening : st'.opening = st.opening
  guidQueue : st'.guidQueue = st.guidQueue
  queue : st'.connection.queue = []
  pending : st'.pending = st.pending ∨
    mergeQueue ctx evms st.connection.queue ≠ [] ∧ count < maxRetries ∧
      ∃ screen, st'.pending = st.pending ++ [.evm screen count .waiting]

theorem queues_processEvms (ctx : LoopCtx) (st : EnricherState) (evms : List EvmItem)
    (count : ℕ) (faults : DbFaults) :
    Queues ctx st evms count (processEvms ctx st evms count faults) := by
  obtain ⟨pinged, hc⟩ | ⟨evmQueue, hc⟩ := st.connecting_or_screening
  · obtain ⟨t, heq⟩ := (processEvms_connecting ctx faults hc evms count).1.frame
    rw [heq]
    exact ⟨rfl, rfl, by rw [hc]; rfl, Or.inl rfl⟩
  · have hopening : ∀ {pending : List Future} {t gaveUp}, EnricherState.opening
        { st with connection := .screening [], pending, riskScores := t, gaveUp } = st.opening := by
      intro pending t gaveUp
      simp only [EnricherState.opening, hc]
    simp only [processEvms, hc]
    split
    next => exact ⟨hopening, rfl, rfl, Or.inl rfl⟩
    next hscreen =>
      split
      next hcount =>
        refine ⟨hopening, rfl, rfl, Or.inr ⟨fun hnil => hscreen ?_, hcount, _, rfl⟩⟩
        rw [hc, EvmConnection.queue] at hnil
        rw [hnil]
        rfl
      next =>
        obtain ⟨t, heq, -⟩ := foldl_giveUp faults
          (toScreen ctx st faults count (mergeQueue ctx evms evmQueue))
          { st with connection := .screening [] }
        rw [heq]
        exact ⟨hopening, rfl, rfl, Or.inl rfl⟩

theorem batchWeight_of_lt {count : ℕ} (h : count < maxRetries) :
    batchWeight count = maxRetries - count + 1 :=
  if_pos h

/-- The batch is paid for by its own addresses or by the queue. -/
theorem Queues.load_le {evms : List EvmItem} {count : ℕ} (h : Queues ctx st evms count st') :
    st'.load + 7 * st.connection.queue.length ≤ st.load + batchWeight count := by
  unfold EnricherState.load
  rw [h.guidQueue, h.queue]
  obtain heq | ⟨-, hcount, screen, heq⟩ := h.pending
  · rw [heq]
    simp only [List.length_nil]
    omega
  · rw [heq, batchWeight_of_lt hcount, List.map_append, List.sum_append]
    simp only [List.length_nil, List.map_cons, List.map_nil, List.sum_cons, List.sum_nil,
      Future.weight]
    omega

/-- Without addresses there is no batch. -/
theorem Queues.pending_of_nil {count : ℕ} (h : Queues ctx st [] count st')
    (hqueue : st.connection.queue = []) : st'.pending = st.pending := by
  refine h.pending.resolve_right fun hmore => hmore.1 ?_
  rw [hqueue]
  rfl

theorem weigh_newEvm (ctx : LoopCtx) (st : EnricherState) (evm : String) (faults : DbFaults) :
    (newEvm ctx st evm faults).opening = st.opening ∧
      (newEvm ctx st evm faults).load ≤ st.load + 7 := by
  obtain ⟨pinged, hc⟩ | ⟨evmQueue, hc⟩ := st.connecting_or_screening
  · have hsaved : SavedUnlessFresh ctx faults st (saveUnlessFresh ctx faults st evm) :=
      savedUnlessFresh st evm
    obtain ⟨t, heq⟩ := hsaved.frame
    rw [newEvm_connecting st hc, heq]
    exact ⟨rfl, Nat.le_add_right _ _⟩
  · rw [newEvm_screening st hc]
    constructor
    · simp only [EnricherState.opening, hc]
    · simp only [EnricherState.load, EvmConnection.queue, hc, List.length_append,
        List.length_singleton]
      omega

/-- Work that is done in the loop. -/
structure Lighter (st st' : EnricherState) : Prop where
  opening : st'.opening ≤ st.opening
  load : st'.load < st.load ∨ st'.load = st.load ∧ st'.todo < st.todo

/-- A future that ends. -/
theorem weigh_finish {i : ℕ} {f : Future} (hi : st.pending[i]? = some f) :
    (st.finish i).opening = st.opening ∧ f.weight + (st.finish i).load = st.load ∧
      f.todo + (st.finish i).todo = st.todo := by
  have hload := sum_finish Future.weight hi
  have htodo := sum_finish Future.todo hi
  refine ⟨rfl, ?_, htodo⟩
  show f.weight + (14 * st.guidQueue.length + ((st.finish i).pending.map Future.weight).sum +
    7 * st.connection.queue.length) = 14 * st.guidQueue.length +
      (st.pending.map Future.weight).sum + 7 * st.connection.queue.length
  omega

theorem lighter_finish {i : ℕ} {f : Future} (hi : st.pending[i]? = some f)
    (hf : 0 < f.weight ∨ 0 < f.todo) : Lighter st (st.finish i) := by
  obtain ⟨hopening, hload, htodo⟩ := weigh_finish hi
  refine ⟨hopening.le, ?_⟩
  omega

/-- A future that moves on. -/
theorem lighter_advance {i : ℕ} {f g : Future} (hi : st.pending[i]? = some f)
    (hg : g.weight < f.weight ∨ g.weight = f.weight ∧ g.todo < f.todo) :
    Lighter st (st.advance i g) := by
  have hload := sum_advance Future.weight (g := g) hi
  have htodo := sum_advance Future.todo (g := g) hi
  refine ⟨le_refl _, ?_⟩
  show 14 * st.guidQueue.length + ((st.advance i g).pending.map Future.weight).sum +
      7 * st.connection.queue.length < 14 * st.guidQueue.length +
        (st.pending.map Future.weight).sum + 7 * st.connection.queue.length ∨
    14 * st.guidQueue.length + ((st.advance i g).pending.map Future.weight).sum +
      7 * st.connection.queue.length = 14 * st.guidQueue.length +
        (st.pending.map Future.weight).sum + 7 * st.connection.queue.length ∧
    ((st.advance i g).pending.map Future.todo).sum < (st.pending.map Future.todo).sum
  omega

/-- A failed batch comes back lighter, if at all. -/
theorem lighter_failed {i count : ℕ} {evms : List EvmItem} {phase : EvmPhase}
    (hi : st.pending[i]? = some (.evm evms count phase))
    (hweight : (Future.evm evms count phase).weight = maxRetries - count + 1)
    (evms' : List EvmItem) (faults : DbFaults) :
    Lighter st (processEvms ctx (st.finish i) evms' (count + 1) faults) := by
  obtain ⟨hopening, hload, -⟩ := weigh_finish hi
  have hq := queues_processEvms ctx (st.finish i) evms' (count + 1) faults
  have hle := hq.load_le
  have hbatch : batchWeight (count + 1) ≤ maxRetries - count := by
    unfold batchWeight
    split
    · omega
    · exact Nat.zero_le _
  refine ⟨(hq.opening.trans hopening).le, Or.inl ?_⟩
  omega

theorem weigh_connect (st : EnricherState) (reconnect : Bool) :
    (connect st reconnect).opening = st.opening ∧ (connect st reconnect).load = st.load ∧
      (connect st reconnect).pending = st.pending ∧
      (connect st reconnect).guidQueue = st.guidQueue ∧
      (connect st reconnect).connection.queue = st.connection.queue := by
  obtain ⟨pinged, pinged', pinging, hc, heq⟩ | ⟨-, -, heq⟩ := connect_cases st reconnect
  · rw [heq]
    simp [EnricherState.opening, EnricherState.load, EvmConnection.queue, hc]
  · rw [heq]
    simp

/-- The queued GUIDs are asked for. -/
def EnricherState.asking (st : EnricherState) : EnricherState :=
  { st with
    pending := st.pending ++ st.guidQueue.map fun guid => Future.guid guid 0
    guidQueue := [] }

theorem sum_weight_guids (guids : List String) :
    ((guids.map fun guid => Future.guid guid 0).map Future.weight).sum = 13 * guids.length := by
  induction guids with
  | nil => rfl
  | cons guid guids ih =>
    rw [List.map_cons, List.map_cons, List.sum_cons, ih, List.length_cons]
    show 13 + 13 * guids.length = _
    omega

theorem load_asking (st : EnricherState) : st.asking.load + st.guidQueue.length = st.load := by
  unfold EnricherState.load EnricherState.asking
  rw [List.map_append, List.sum_append, sum_weight_guids]
  simp only [List.length_nil]
  omega

theorem pending_asking (h : st.guidQueue = []) : st.asking.pending = st.pending := by
  unfold EnricherState.asking
  rw [h]
  exact List.append_nil _

/-- A tick asks for the queued GUIDs and makes a batch of the queued addresses. -/
structure Ticked (st st' : EnricherState) : Prop where
  opening : st'.opening = st.opening
  lowers : st.guidQueue ≠ [] ∨ st.connection.queue ≠ [] → st'.load < st.load
  idle : st.guidQueue = [] → st.connection.queue = [] → st'.load = st.load ∧ st'.todo = st.todo

theorem ticked_processEvms (ctx : LoopCtx) (st : EnricherState) (faults : DbFaults) :
    Ticked st (processEvms ctx st.asking [] 0 faults) := by
  have hq := queues_processEvms ctx st.asking [] 0 faults
  have hasked := load_asking st
  generalize processEvms ctx st.asking [] 0 faults = st' at hq ⊢
  -- nothing is in the loop's queue, so there is no batch
  have hsame : st.connection.queue = [] →
      st'.pending = st.asking.pending ∧ st'.load = st.asking.load := by
    intro hnone
    have hpending := hq.pending_of_nil hnone
    refine ⟨hpending, ?_⟩
    unfold EnricherState.load
    rw [hpending, hq.guidQueue, hq.queue]
    show _ = _ + 7 * st.connection.queue.length
    rw [hnone]
  refine ⟨hq.opening, fun hwork => ?_, fun hnil hnone => ?_⟩
  · by_cases hnone : st.connection.queue = []
    · have hpos := List.length_pos_of_ne_nil (hwork.resolve_right fun h => h hnone)
      have hload := (hsame hnone).2
      omega
    · have hpos := List.length_pos_of_ne_nil hnone
      have hle : st'.load + 7 * st.connection.queue.length ≤ st.asking.load + 6 := hq.load_le
      omega
  · obtain ⟨hpending, hload⟩ := hsame hnone
    rw [hnil, List.length_nil] at hasked
    refine ⟨hload.trans hasked, ?_⟩
    unfold EnricherState.todo
    rw [hpending, pending_asking hnil]

theorem ticked_tick (ctx : LoopCtx) (st : EnricherState) (reconnect : Bool) (faults : DbFaults) :
    Ticked st (processEvms ctx (connect st reconnect).asking [] 0 faults) := by
  obtain ⟨hopening, hload, hpending, hguids, hqueue⟩ := weigh_connect st reconnect
  have hticked := ticked_processEvms ctx (connect st reconnect) faults
  have htodo : (connect st reconnect).todo = st.todo := by
    unfold EnricherState.todo
    rw [hpending]
  refine ⟨hticked.opening.trans hopening, fun hwork => ?_, fun hnil hnone => ?_⟩
  · rw [← hload]
    exact hticked.lowers (by rwa [hguids, hqueue])
  · rw [← hload, ← htodo]
    exact hticked.idle (hguids.trans hnil) (hqueue.trans hnone)

theorem length_itemAddrs_le (evms : List EvmItem) : (itemAddrs evms).length ≤ evms.length := by
  rw [itemAddrs, screenAddrs]
  exact (List.length_filter_le ..).trans (List.length_map ..).le

/-- A turn of a future does some of its work. -/
theorem lighter_of_step {db : ReputationDb} {a : LoopAction} (hown : ownTurn db a = true)
    (h : step ctx st a = some st') :
    Lighter st st' ∨ (∃ reconnect faults, a = .tick reconnect faults) ∨
      (∃ outcome, a = .pingDone outcome) ∨ (∃ key, a = .evict key) ∨ ∃ now, a = .clock now := by
  cases turn_of_step h with
  | recvGuid | recvEvm | guidResolved | guidEnded | guidRetried => cases hown
  | tick reconnect faults => exact Or.inr (Or.inl ⟨reconnect, faults, rfl⟩)
  | @pingFailed | connected => exact Or.inr (Or.inr (Or.inl ⟨_, rfl⟩))
  | evicted key => exact Or.inr (Or.inr (Or.inr (Or.inl ⟨key, rfl⟩)))
  | clock now => exact Or.inr (Or.inr (Or.inr (Or.inr ⟨now, rfl⟩)))
  | evmSkipped hi => exact Or.inl (lighter_finish hi (Or.inr (Nat.succ_pos _)))
  | evmDone hi => exact Or.inl (lighter_finish hi (Or.inr (Nat.succ_pos _)))
  | @evmStarted i evms count hi =>
    refine Or.inl (lighter_advance hi (Or.inr ⟨rfl, ?_⟩))
    have hle := length_itemAddrs_le evms
    show (itemAddrs evms).length + 1 < evms.length + 2
    omega
  | evmHit hi => exact Or.inl (lighter_advance hi (Or.inr ⟨rfl, Nat.lt_succ_self _⟩))
  | evmMissed hi => exact Or.inl (lighter_advance hi (Or.inr ⟨rfl, Nat.lt_succ_self _⟩))
  | evmAllHit hi => exact Or.inl (lighter_advance hi (Or.inl (Nat.succ_pos _)))
  | evmAnswered hi => exact Or.inl (lighter_advance hi (Or.inl (Nat.succ_pos _)))
  | evmFailed faults hi => exact Or.inl (lighter_failed hi rfl _ faults)
  | @evmCached i evms count key toCache toSave hi =>
    obtain ⟨hopening, hload⟩ := lighter_advance (g := .evm evms count (.saving toCache toSave)) hi
      (Or.inr ⟨rfl, by simp only [Future.todo, List.length_cons]; omega⟩)
    exact Or.inl ⟨hopening, hload⟩
  | @evmSaved i evms count evm result toSave faults hi =>
    obtain ⟨hopening, hload⟩ := lighter_advance (g := .evm evms count (.saving [] toSave)) hi
      (Or.inr ⟨rfl, by simp only [Future.todo, List.length_cons]; omega⟩)
    obtain ⟨t, heq⟩ := save_eq faults (st.advance i (.evm evms count (.saving [] toSave)))
      (computeRiskScore ctx.toLowercase st.now evm result ctx.screenerUrl)
    rw [heq]
    exact Or.inl ⟨hopening, hload⟩

/-- A ping that gets through is the last one. -/
theorem weigh_pingDone {outcome : PingOutcome} (h : step ctx st (.pingDone outcome) = some st') :
    st'.opening < st.opening ∨
      st'.opening ≤ st.opening ∧ st'.load = st.load ∧ st'.todo = st.todo := by
  have hconnected : ∀ {evmQueue : List String}, st.pinging = true →
      EnricherState.opening { st with connection := .screening evmQueue, pinging := false } <
        st.opening := by
    intro evmQueue hping
    obtain ⟨pinged, hc⟩ | ⟨evmQueue, hc⟩ := st.connecting_or_screening
    · simp only [EnricherState.opening, hc]
      exact Nat.one_pos
    · simp only [EnricherState.opening, hc, if_pos hping]
      exact Nat.one_pos
  simp only [step] at h
  split at h
  next hping =>
    cases outcome with
    | failed =>
      obtain rfl := Option.some.inj h
      refine Or.inr ⟨?_, rfl, rfl⟩
      obtain ⟨pinged, hc⟩ | ⟨evmQueue, hc⟩ := st.connecting_or_screening
      · simp only [EnricherState.opening, hc]
        exact le_refl _
      · simp only [EnricherState.opening, hc]
        exact Nat.zero_le _
    | connected loaded inflowSources =>
      simp only at h
      split at h
      next =>
        obtain rfl := Option.some.inj h
        exact Or.inl (hconnected hping)
      next => cases h
    | connectedWithoutRows =>
      obtain rfl := Option.some.inj h
      exact Or.inl (hconnected hping)
  next => cases h

end Weights

/-! ## What a step of the pipeline weighs -/

section Rank

variable {ctx : PipelineCtx} {st st' : Pipeline}

theorem rank_lt_of_load (hopening : st'.enricher.opening ≤ st.enricher.opening)
    (hload : st'.load < st.load ∨ st'.load = st.load ∧ st'.enricher.todo < st.enricher.todo) :
    st'.rank < st.rank := by
  rw [Pipeline.rank, Pipeline.rank, Prod.Lex.toLex_lt_toLex]
  obtain hlt | heq := hopening.lt_or_eq
  · exact Or.inl hlt
  · refine Or.inr ⟨heq, ?_⟩
    rwa [Prod.Lex.toLex_lt_toLex]

theorem rank_lt_of_opening (h : st'.enricher.opening < st.enricher.opening) :
    st'.rank < st.rank := by
  rw [Pipeline.rank, Pipeline.rank, Prod.Lex.toLex_lt_toLex]
  exact Or.inl h

theorem rank_le_of_eq (hopening : st'.enricher.opening ≤ st.enricher.opening)
    (hload : st'.load = st.load) (htodo : st'.enricher.todo = st.enricher.todo) :
    st'.rank ≤ st.rank := by
  obtain hlt | heq := hopening.lt_or_eq
  · exact (rank_lt_of_opening hlt).le
  · rw [Pipeline.rank, Pipeline.rank, heq, hload, htodo]

theorem opening_le_of_rank_le (h : st'.rank ≤ st.rank) :
    st'.enricher.opening ≤ st.enricher.opening := by
  rw [Pipeline.rank, Pipeline.rank, Prod.Lex.toLex_le_toLex] at h
  exact h.elim le_of_lt fun heq => heq.1.le

/-- The work of the loop is work of the pipeline. -/
theorem rank_lt_of_lighter {enricher : EnricherState} {failures : List String}
    (h : Lighter st.enricher enricher) :
    Pipeline.rank { st with enricher, failures } < st.rank := by
  refine rank_lt_of_load h.opening ?_
  have hload := h.load
  show st.between + enricher.load < st.between + st.enricher.load ∨
    st.between + enricher.load = st.between + st.enricher.load ∧
      enricher.todo < st.enricher.todo
  omega

/-- What is between the parts gets lighter by more than the loop gets heavier. -/
theorem rank_lt_of_between {w : ℕ} (hopening : st'.enricher.opening ≤ st.enricher.opening)
    (hbetween : st'.between + w < st.between) (hload : st'.enricher.load ≤ st.enricher.load + w) :
    st'.rank < st.rank := by
  refine rank_lt_of_load hopening (Or.inl ?_)
  unfold Pipeline.load
  omega

/-- What is committed leaves its GUIDs, which weigh less. -/
theorem rank_store (h : st.step ctx .store = some st') : st'.rank < st.rank := by
  simp only [Pipeline.step] at h
  split at h
  next => cases h
  next batch rest hbatch =>
    obtain rfl := Option.some.inj h
    refine rank_lt_of_between (w := 0) (le_refl _) ?_ (le_refl _)
    simp only [Pipeline.between, hbatch, List.map_cons, List.sum_cons, List.length_append]
    omega

theorem rank_recvGuid (h : st.step ctx .recvGuid = some st') : st'.rank < st.rank := by
  simp only [Pipeline.step] at h
  split at h
  next => cases h
  next guid rest hchannel =>
    obtain rfl := Option.some.inj h
    refine rank_lt_of_between (w := 14) (le_refl _) ?_ ?_
    · simp only [Pipeline.between, hchannel, List.length_cons]
      omega
    · simp only [EnricherState.load, List.length_append, List.length_singleton]
      omega

theorem rank_recvEvm {faults : DbFaults} (h : st.step ctx (.recvEvm faults) = some st') :
    st'.rank < st.rank := by
  simp only [Pipeline.step] at h
  split at h
  next => cases h
  next evm rest hchannel =>
    obtain rfl := Option.some.inj h
    obtain ⟨hopening, hload⟩ := weigh_newEvm ctx.enricher
      { st.enricher with received := evm :: st.enricher.received } evm faults
    refine rank_lt_of_between hopening.le ?_ hload
    simp only [Pipeline.between, hchannel, List.length_cons]
    omega

/-- An answer that the loop takes weighs more than the batch that it joins. -/
theorem rank_handOver {j : ℕ} {faults : DbFaults}
    (h : st.step ctx (.handOver j faults) = some st') : st'.rank < st.rank := by
  simp only [Pipeline.step] at h
  split at h
  next evm hj =>
    obtain rfl := Option.some.inj h
    have hq := queues_processEvms ctx.enricher
      { st.enricher with received := evm :: st.enricher.received } [⟨evm, 0⟩] 0 faults
    have hload := hq.load_le
    have hlt := (List.getElem?_eq_some_iff.mp hj).1
    refine rank_lt_of_between (w := 6) hq.opening.le ?_ ((Nat.le_add_right _ _).trans hload)
    simp only [Pipeline.between, List.length_eraseIdx_of_lt hlt]
    omega
  next => cases h

/-- A failed request comes back lighter, if at all. -/
theorem lighter_guidFailed {st st' : EnricherState} {ctx : LoopCtx} {i count : ℕ} {guid : String}
    (hi : st.pending[i]? = some (.guid guid count))
    (h : step ctx st (.guidDone i .failed .none) = some st') : Lighter st st' := by
  obtain ⟨-, hload, -⟩ := weigh_finish hi
  simp only [step, hi] at h
  split at h
  next hretry =>
    obtain rfl := Option.some.inj h
    refine ⟨le_refl _, Or.inl ?_⟩
    have hsum : EnricherState.load { st.finish i with
        pending := (st.finish i).pending ++ [.guid guid (count + 1)] } =
          (st.finish i).load + (maxRetries - (count + 1) + 8) := by
      unfold EnricherState.load
      simp only [List.map_append, List.sum_append, List.map_cons, List.map_nil, List.sum_cons,
        List.sum_nil, Future.weight]
      omega
    have hweight : (Future.guid guid count).weight = maxRetries - count + 8 := rfl
    show EnricherState.load { st.finish i with
      pending := (st.finish i).pending ++ [.guid guid (count + 1)] } < st.load
    omega
  next =>
    obtain rfl := Option.some.inj h
    exact lighter_finish hi (Or.inl (Nat.succ_pos _))

theorem rank_lzReply {i : ℕ} {reply : LzReply} {returned : List BridgeInflow} {faults : Faults}
    (h : st.step ctx (.lzReply i reply returned faults) = some st') : st'.rank < st.rank := by
  simp only [Pipeline.step] at h
  split at h
  next guid count hi =>
    have hended : 8 + (st.enricher.finish i).load ≤ st.enricher.load := by
      obtain ⟨-, hload, -⟩ := weigh_finish hi
      have hweight : 8 ≤ (Future.guid guid count).weight := Nat.le_add_left _ _
      omega
    split at h
    next =>
      split at h
      next evm _ =>
        obtain rfl := Option.some.inj h
        refine rank_lt_of_load (le_refl _) (Or.inl ?_)
        have hbetween : Pipeline.between { st.writeAnswer ctx i guid evm returned faults with
            resolved := st.resolved ++ [evm] } = st.between + 7 := by
          simp only [Pipeline.between, Pipeline.writeAnswer, List.length_append,
            List.length_singleton]
          omega
        show Pipeline.between { st.writeAnswer ctx i guid evm returned faults with
          resolved := st.resolved ++ [evm] } + (st.enricher.finish i).load < _
        rw [hbetween, Pipeline.load]
        omega
      next =>
        obtain rfl := Option.some.inj h
        refine rank_lt_of_load (le_refl _) (Or.inl ?_)
        show st.between + (st.enricher.finish i).load < st.between + st.enricher.load
        omega
      next =>
        obtain ⟨enricher, hturn, rfl⟩ := Option.map_eq_some_iff.mp h
        exact rank_lt_of_lighter (lighter_guidFailed hi hturn)
    next => cases h
  next => cases h

/-- Looking after more addresses weighs nothing. -/
theorem weigh_countLoaded (a : LoopAction) (st : EnricherState) :
    (countLoaded a st).opening = st.opening ∧ (countLoaded a st).load = st.load ∧
      (countLoaded a st).todo = st.todo := by
  unfold countLoaded
  split
  · exact ⟨rfl, rfl, rfl⟩
  · exact ⟨rfl, rfl, rfl⟩

theorem rank_turn {a : LoopAction} (h : st.step ctx (.turn a) = some st') :
    st'.rank ≤ st.rank ∧ (st.Works (.turn a) → st'.rank < st.rank) := by
  simp only [Pipeline.step] at h
  split at h
  next hown =>
    obtain ⟨enricher, hturn, rfl⟩ := Option.map_eq_some_iff.mp h
    -- Counting the loaded addresses adds nothing to what is on its way.
    have hcounted : Pipeline.rank { st with enricher := countLoaded a enricher } =
        Pipeline.rank { st with enricher } := by
      obtain ⟨hopening, hload, htodo⟩ := weigh_countLoaded a enricher
      show toLex (_, toLex (st.between + (countLoaded a enricher).load, _)) = _
      rw [hopening, hload, htodo]
      rfl
    rw [hcounted]
    obtain hlighter | ⟨reconnect, faults, rfl⟩ | ⟨outcome, rfl⟩ | ⟨key, rfl⟩ | ⟨now, rfl⟩ :=
      lighter_of_step hown hturn
    · have hlt : Pipeline.rank { st with enricher } < st.rank := rank_lt_of_lighter hlighter
      exact ⟨hlt.le, fun _ => hlt⟩
    -- A tick works where there are GUIDs or addresses to take up; an idle one adds nothing.
    · obtain rfl := Option.some.inj hturn
      have hticked := ticked_tick ctx.enricher st.enricher reconnect faults
      have hlt : st.Works (.turn (.tick reconnect faults)) → Pipeline.rank { st with
          enricher := processEvms ctx.enricher (connect st.enricher reconnect).asking [] 0 faults } <
            st.rank :=
        fun hwork => rank_lt_of_lighter ⟨hticked.opening.le, Or.inl (hticked.lowers hwork)⟩
      refine ⟨?_, hlt⟩
      by_cases hwork : st.Works (.turn (.tick reconnect faults))
      · exact (hlt hwork).le
      · obtain ⟨hnil, hnone⟩ := not_or.mp hwork
        obtain ⟨hload, htodo⟩ := hticked.idle (not_not.mp hnil) (not_not.mp hnone)
        exact rank_le_of_eq hticked.opening.le (congrArg (st.between + ·) hload) htodo
    · refine ⟨?_, fun hwork => hwork.elim⟩
      obtain hlt | ⟨hle, hload, htodo⟩ := weigh_pingDone hturn
      · exact (rank_lt_of_opening hlt).le
      · exact rank_le_of_eq hle (congrArg (st.between + ·) hload) htodo
    · obtain rfl := Option.some.inj hturn
      exact ⟨le_refl _, fun hwork => hwork.elim⟩
    · obtain rfl := Option.some.inj hturn
      exact ⟨le_refl _, fun hwork => hwork.elim⟩
  next => cases h

/-- The pipeline wears out what is on its way. -/
theorem wears_rank (ctx : PipelineCtx) :
    Wears (Pipeline.step ctx) (fun _ a => a.isNew = false) Pipeline.Works Pipeline.rank := by
  constructor
  · intro st a st' hnew h
    cases a with
    | extract | restart => cases hnew
    | store => exact (rank_store h).le
    | recvGuid => exact (rank_recvGuid h).le
    | recvEvm => exact (rank_recvEvm h).le
    | lzReply => exact (rank_lzReply h).le
    | handOver => exact (rank_handOver h).le
    | turn => exact (rank_turn h).1
  · intro st a st' hwork h
    cases a with
    | extract | restart => exact hwork.elim
    | store => exact rank_store h
    | recvGuid => exact rank_recvGuid h
    | recvEvm => exact rank_recvEvm h
    | lzReply => exact rank_lzReply h
    | handOver => exact rank_handOver h
    | turn => exact (rank_turn h).2 hwork

end Rank

/-! ## What is left to do -/

section Idle

variable {ctx : PipelineCtx} {st : Pipeline}

theorem canWork_turn (a : LoopAction) (hown : ownTurn st.db a = true)
    (hwork : st.Works (.turn a))
    (hstep : ∃ enricher, step ctx.enricher st.enricher a = some enricher) :
    CanWork (Pipeline.step ctx) Pipeline.Works st := by
  obtain ⟨enricher, hstep⟩ := hstep
  refine ⟨.turn a, { st with enricher := countLoaded a enricher }, hwork, ?_⟩
  simp only [Pipeline.step, if_pos hown, hstep, Option.map_some]

/-- In each phase of a future there is a step that it can take. -/
theorem canWork_pending {f : Future} (hi : st.enricher.pending[0]? = some f) :
    CanWork (Pipeline.step ctx) Pipeline.Works st := by
  match f, hi with
  | .guid guid count, hi =>
    -- at worst the request fails
    let returned := st.db.bridgeInflows.rowsWhere (pendingRow guid)
    have hreply : ∃ st',
        st.step ctx (.lzReply 0 .unreachable returned ⟨true, .done, []⟩) = some st' := by
      simp only [Pipeline.step, hi, returned, List.Perm.refl, if_pos, fetchEvm, step]
      split <;> exact ⟨_, rfl⟩
    obtain ⟨st', hstep⟩ := hreply
    exact ⟨.lzReply 0 .unreachable returned ⟨true, .done, []⟩, st', trivial, hstep⟩
  | .evm evms count .waiting, hi =>
    refine canWork_turn (.evmStart 0) rfl trivial ?_
    simp only [step, hi]
    split <;> exact ⟨_, rfl⟩
  | .evm evms count (.fetching results toProcess (addr :: rest)), hi =>
    refine canWork_turn (.evmCheck 0) rfl trivial ?_
    simp only [step, hi]
    split <;> exact ⟨_, rfl⟩
  | .evm evms count (.fetching results toProcess []), hi =>
    refine canWork_turn (.evmRespond 0 .failed .none) rfl trivial ?_
    simp only [step, hi]
    split
    · exact ⟨_, rfl⟩
    · split <;> exact ⟨_, rfl⟩
  | .evm evms count (.saving (key :: toCache) toSave), hi =>
    refine canWork_turn (.evmCache 0) rfl trivial ?_
    simp only [step, hi]
    exact ⟨_, rfl⟩
  | .evm evms count (.saving [] ((evm, result) :: toSave)), hi =>
    refine canWork_turn (.evmSave 0 .none) rfl trivial ?_
    simp only [step, hi]
    exact ⟨_, rfl⟩
  | .evm evms count (.saving [] []), hi =>
    refine canWork_turn (.evmDone 0) rfl trivial ?_
    simp only [step, hi]
    exact ⟨_, rfl⟩

/-- As long as anything is on its way, something can be done about it. -/
theorem drained_of_not_canWork (h : ¬ CanWork (Pipeline.step ctx) Pipeline.Works st) :
    st.Drained := by
  have hnone : ∀ a, st.Works a → st.step ctx a = none :=
    fun a hwork => Option.eq_none_iff_forall_ne_some.mpr fun st' hstep => h ⟨a, st', hwork, hstep⟩
  -- Each place that is not empty has an action that is possible there.
  constructor
  · cases hbatch : st.extracted with
    | nil => rfl
    | cons batch rest =>
      have hstep := hnone .store trivial
      simp only [Pipeline.step, hbatch] at hstep
      cases hstep
  · cases hchannel : st.guidChannel with
    | nil => rfl
    | cons guid rest =>
      have hstep := hnone .recvGuid trivial
      simp only [Pipeline.step, hchannel, step, Option.map_some] at hstep
      cases hstep
  · cases hchannel : st.evmChannel with
    | nil => rfl
    | cons evm rest =>
      have hstep := hnone (.recvEvm .none) trivial
      simp only [Pipeline.step, hchannel, step, Option.map_some] at hstep
      cases hstep
  · cases hresolved : st.resolved with
    | nil => rfl
    | cons evm rest =>
      have hstep := hnone (.handOver 0 .none) trivial
      simp only [Pipeline.step, hresolved, List.getElem?_cons_zero] at hstep
      cases hstep
  · by_contra hqueued
    exact h (canWork_turn (.tick false .none) rfl (Or.inl hqueued) ⟨_, rfl⟩)
  · cases hpending : st.enricher.pending with
    | nil => rfl
    | cons f rest =>
      have hi : st.enricher.pending[0]? = some f := by rw [hpending, List.getElem?_cons_zero]
      exact absurd (canWork_pending hi) h
  · by_contra hqueued
    exact h (canWork_turn (.tick false .none) rfl (Or.inr hqueued) ⟨_, rfl⟩)

/-- Where nothing is on its way, there is nothing to do. -/
theorem not_canWork_of_drained (h : st.Drained) :
    ¬ CanWork (Pipeline.step ctx) Pipeline.Works st := by
  rintro ⟨a, st', hwork, hstep⟩
  have hnone : ∀ {i : ℕ} {f : Future}, st.enricher.pending[i]? ≠ some f := by
    intro i f hi
    rw [h.pending, List.getElem?_nil] at hi
    cases hi
  cases a with
  | extract | restart => exact hwork.elim
  | store =>
    simp only [Pipeline.step, h.extracted] at hstep
    cases hstep
  | recvGuid =>
    simp only [Pipeline.step, h.guidChannel] at hstep
    cases hstep
  | recvEvm =>
    simp only [Pipeline.step, h.evmChannel] at hstep
    cases hstep
  | lzReply =>
    simp only [Pipeline.step, h.pending, List.getElem?_nil] at hstep
    cases hstep
  | handOver =>
    simp only [Pipeline.step, h.resolved, List.getElem?_nil] at hstep
    cases hstep
  | turn a =>
    simp only [Pipeline.step] at hstep
    split at hstep
    next hown =>
      obtain ⟨enricher, hturn, -⟩ := Option.map_eq_some_iff.mp hstep
      cases turn_of_step hturn with
      | recvGuid | recvEvm => cases hown
      | tick => exact hwork.elim (fun hne => hne h.guidQueue) fun hne => hne h.queue
      | pingFailed | connected | evicted | clock => exact hwork.elim
      | guidResolved _ _ hi | guidEnded hi | guidRetried hi | evmSkipped hi | evmStarted hi
      | evmHit hi | evmMissed hi | evmAllHit hi | evmFailed _ hi | evmAnswered hi | evmCached hi
      | evmSaved _ hi | evmDone hi => exact hnone hi
    next => cases hstep

end Idle

/-! ## The pipeline settles -/

theorem opening_of_connected {ctx : LoopCtx} {st : EnricherState} (h : PoolInv ctx st)
    (hconnected : ¬ Connecting st) : st.opening = 0 := by
  obtain ⟨pinged, hc⟩ | ⟨evmQueue, hc⟩ := st.connecting_or_screening
  · exact absurd ⟨pinged, hc⟩ hconnected
  · have hidle : ¬ st.pinging = true := fun hping => hconnected (h.ping hping)
    simp only [EnricherState.opening, hc, if_neg hidle]

theorem not_connecting_of_opening {st : EnricherState} (h : st.opening = 0) : ¬ Connecting st := by
  rintro ⟨pinged, hc⟩
  simp only [EnricherState.opening, hc] at h
  cases h

section Settles

variable {ctx : PipelineCtx} {st : Pipeline}

/-- Without anything on its way, what is kept has a row. -/
theorem hasRow_of_drained (h : st.Drained) {key : String} (hkept : Kept ctx.enricher st.enricher key) :
    HasRow ctx.enricher st.enricher key := by
  obtain ⟨evmQueue, hc, evm, hevm, -⟩ | ⟨evms, count, phase, hmem, -⟩ | hrow := hkept
  · have hnone := h.queue
    rw [hc, EvmConnection.queue] at hnone
    rw [hnone] at hevm
    cases hevm
  · rw [h.pending] at hmem
    cases hmem
  · exact hrow

/-- Nor is any GUID. -/
theorem not_guidOnItsWay_of_drained (h : st.Drained) (guid : String) : ¬ GuidOnItsWay st guid := by
  rintro (hsent | hqueued | ⟨count, hasking⟩)
  · rw [h.guidChannel] at hsent
    cases hsent
  · rw [h.guidQueue] at hqueued
    cases hqueued
  · rw [h.pending] at hasking
    cases hasking

/-- What the tables say once nothing is on its way. -/
theorem settled_of_drained (hinv : PipelineInv ctx st) (h : st.Drained) :
    (∀ guid ∈ loadPendingGuids st.db, maxRetries ≤ st.failures.count guid) ∧
      (¬ Connecting st.enricher → ∀ evm ∈ evmSources st.db,
        ctx.enricher.toLowercase evm ≠ ctx.enricher.toLowercase evmNullSentinel →
          HasRow ctx.enricher st.enricher (ctx.enricher.toLowercase evm)) := by
  refine ⟨fun guid hguid => (hinv.guids guid hguid).resolve_left
    (not_guidOnItsWay_of_drained h guid), fun hconnected evm hevm hne => ?_⟩
  obtain hsent | hresolved | hreceived | hconnecting :=
    hinv.sources evm hevm fun heq => hne (congrArg _ heq)
  · rw [h.evmChannel] at hsent
    cases hsent
  · rw [h.resolved] at hresolved
    cases hresolved
  · exact hasRow_of_drained h (hinv.retention.kept evm hreceived hne)
  · exact absurd hconnecting hconnected

end Settles

/-- **The pipeline settles.** In an endless run of the last process, without new input and
with database calls that succeed, that does not put possible work off forever, from some
state on nothing is on its way: every GUID without an EVM source was asked for
`MAX_RETRIES` times, and every EVM source has a row, up to letter case, if the screener
was ever reached. -/
theorem pipeline_settles (ctx : PipelineCtx)
    (hcase : ∀ a b, eqIgnoreAsciiCase a b = true →
      ctx.enricher.toLowercase a = ctx.enricher.toLowercase b)
    (now : NaiveDateTime) (actions : List PipelineAction)
    (run : Endless (Pipeline.step ctx))
    (hstart : Run (Pipeline.step ctx) (fun _ a => a.dbOk = true) (Pipeline.init now) actions
      (run.state 0))
    (hinput : ∀ n, (run.input n).dbOk = true ∧ (run.input n).isNew = false)
    (hfair : run.Fair Pipeline.Works) :
    ∃ N, ∀ n, N ≤ n →
      (run.state n).Drained ∧
      (∀ guid ∈ loadPendingGuids (run.state n).db,
        maxRetries ≤ (run.state n).failures.count guid) ∧
      ∀ m, m ≤ n → ¬ Connecting (run.state m).enricher →
        ∀ evm ∈ evmSources (run.state n).db,
          ctx.enricher.toLowercase evm ≠ ctx.enricher.toLowercase evmNullSentinel →
            HasRow ctx.enricher (run.state n).enricher (ctx.enricher.toLowercase evm) := by
  have hinv : ∀ n, PipelineInv ctx (run.state n) :=
    run.invariant (pipelineInv_run hcase hstart)
      fun n h => pipelineInv_step hcase h (hinput n).1 (run.next n)
  have hwears := wears_rank ctx
  have hopening : Antitone fun n => (run.state n).enricher.opening :=
    antitone_nat_of_succ_le fun n =>
      opening_le_of_rank_le (hwears.keeps _ _ _ (hinput n).2 (run.next n))
  obtain ⟨N, hN⟩ := run.eventually_idle hwears (fun n => (hinput n).2) hfair
  refine ⟨N, fun n hn => ?_⟩
  have hdrained := drained_of_not_canWork (hN n hn)
  obtain ⟨hguids, hsources⟩ := settled_of_drained (hinv n) hdrained
  refine ⟨hdrained, hguids, fun m hm hconnected => hsources ?_⟩
  -- once the screener is reached it stays so
  have hzero := opening_of_connected (hinv m).retention.pool hconnected
  exact not_connecting_of_opening (Nat.le_zero.mp (hzero ▸ hopening hm))

/-- A delivery's way to the tables, to the API and to the screener. -/
def screened : List PipelineAction :=
  [.store, .recvGuid, .turn (.tick false .none), .turn (.pingDone (.connected [] [])),
    .lzReply 0 lzFound [lzRow] ⟨true, .done, []⟩, .handOver 0 .none, .turn (.evmStart 0),
    .turn (.evmCheck 0), .turn (.evmRespond 0 (.body (.object [("data", .array [])])) .none),
    .turn (.evmCache 0), .turn (.evmSave 0 .none), .turn (.evmDone 0)]

/-- Its end. -/
def AllScreened (st : Pipeline) : Prop :=
  (st.extracted.isEmpty ∧ st.guidChannel = [] ∧ st.evmChannel = [] ∧ st.resolved = []) ∧
    (st.enricher.guidQueue = [] ∧ st.enricher.pending = []) ∧
      st.enricher.connection = .screening [] ∧ st.enricher.now = 0 ∧ evmSources st.db = ["0xe1"]

instance : DecidablePred AllScreened := fun _ => inferInstanceAs (Decidable (_ ∧ _))

theorem AllScreened.drained {st : Pipeline} (h : AllScreened st) : st.Drained := by
  obtain ⟨⟨hextracted, hguids, hevms, hresolved⟩, ⟨hqueue, hpending⟩, hc, -⟩ := h
  refine ⟨List.isEmpty_iff.mp hextracted, hguids, hevms, hresolved, hqueue, hpending, ?_⟩
  rw [hc]
  rfl

/-- From there on the clock may show the same time for ever. -/
theorem step_clock {st : Pipeline} (h : st.enricher.now = 0) :
    st.step lzCtx (.turn (.clock 0)) = some st := by
  obtain ⟨db, extracted, guids, evms, enricher, resolved, failures⟩ := st
  obtain ⟨connection, pinging, queue, pending, cache, scores, now, received, gaveUp⟩ := enricher
  obtain rfl : now = 0 := h
  rfl

theorem delivery_settles :
    ∃ run : Endless (Pipeline.step lzCtx), (run.state 0).extracted.isEmpty = false ∧
      ∃ N, ∀ n, N ≤ n → (run.state n).Drained ∧
        HasRow hourCtx (run.state n).enricher (hourCtx.toLowercase "0xe1") := by
  obtain ⟨st, hrun, hextracted, hscreened⟩ := exists_run (Pipeline.step lzCtx)
    (fun _ a => a.dbOk = true) (Pipeline.init 0) [.extract [lzTxn]]
    (fun st => st.extracted.isEmpty = false ∧
      (screened.foldlM (Pipeline.step lzCtx) st).any (fun st' => decide (AllScreened st')) = true)
    (by decide +kernel)
  obtain ⟨st', hst', hend⟩ := (Option.any_eq_true _ _).mp hscreened
  have hend : AllScreened st' := of_decide_eq_true hend
  obtain ⟨run, hzero, hrest, hinput⟩ := Endless.exists_resting (step_clock hend.2.2.2.1) hst'
  subst hzero
  have hok : ∀ n, (run.input n).dbOk = true ∧ (run.input n).isNew = false := by
    intro n
    rw [hinput]
    cases hn : screened[n]? with
    | none => exact ⟨rfl, rfl⟩
    | some a =>
      have hall : ∀ a ∈ screened, a.dbOk = true ∧ a.isNew = false := by decide
      exact hall a (List.mem_of_getElem? hn)
  -- the last future ends at the last step
  have hfair : run.Fair Pipeline.Works := by
    intro n hcan
    by_cases hn : 12 ≤ n
    · rw [hrest n hn] at hcan
      exact absurd hcan (not_canWork_of_drained hend.drained)
    · refine ⟨11, by omega, ?_⟩
      rw [hinput]
      exact trivial
  obtain ⟨N, hN⟩ := pipeline_settles lzCtx (fun a b hab => of_decide_eq_true hab) 0 _ run hrun hok
    hfair
  refine ⟨run, hextracted, N + 12, fun n hn => ?_⟩
  obtain ⟨hdrained, -, hrows⟩ := hN n (by omega)
  have hstate : run.state n = st' := hrest n ((Nat.le_add_left 12 N).trans hn)
  rw [hstate] at hdrained hrows ⊢
  refine ⟨hdrained, hrows n (le_refl n) ?_ "0xe1" ?_ (by decide +kernel)⟩
  · rw [hstate]
    exact not_connecting_of_screening hend.2.2.1
  · rw [hend.2.2.2.2]
    exact List.mem_singleton_self _

end IndexerProcessors.Screening

import IndexerProcessors.Lib.Run
import IndexerProcessors.Lib.Table
import IndexerProcessors.Screening.Hypernative

/-!
# The enricher loop

`EnricherLoop::run` (`evm_screening/mod.rs`) and its two connection states
(`evm_connection.rs`). One task selects among two channels, a ping, a ticker and
a pool of futures; the futures resolve GUIDs or screen batches of addresses, and
advance between the loop's own steps. So a state of the loop has, beside its
variables, the phase of every future in the pool, and an action is either one
turn of the loop or one advance of one future. A future that ends hands its
retry item to the loop in the same turn.

Time, the services, the order in which things happen and failures of database
calls are part of the actions, so that `step` is a function. The ticker's
reconnect delay is a flag of the tick; a closed channel ends the loop and is no
action. Two fields are there for the statements only: `received`, the addresses
that came in, and `gaveUp`, the error scores saved for exhausted retries.
-/

namespace IndexerProcessors.Screening

open IndexerProcessors.Lib
open IndexerProcessors.Reputation

/-- `MAX_RETRIES`. -/
def maxRetries : ℕ := 5

/-- An address of a batch. `attempts` is not in the source: it counts the failed
`fetch_batch` calls the address was in since it came into the batch. -/
structure EvmItem where
  address : String
  attempts : ℕ
  deriving DecidableEq, Repr

/-- Where an `evm_future` stands: before its call of `screen_evms`, in the pass
over the cache or waiting for the response (`rest` is yet to be looked up), or
with the response, its keys to cache and its scores to save. -/
inductive EvmPhase where
  | waiting
  | fetching (results : List HypernativeResult) (toProcess rest : List String)
  | saving (toCache : List String) (toSave : List (String × HypernativeResult))
  deriving DecidableEq, Repr

inductive Future where
  | guid (guid : String) (count : ℕ)
  | evm (evms : List EvmItem) (count : ℕ) (phase : EvmPhase)
  deriving DecidableEq, Repr

/-- The two connection states; `pinged` is whether `last_ping` is set. -/
inductive EvmConnection where
  | connecting (pinged : Bool)
  | screening (evmQueue : List String)
  deriving DecidableEq, Repr

structure EnricherState where
  connection : EvmConnection
  pinging : Bool
  guidQueue : List String
  pending : List Future
  cache : List String
  riskScores : Table String EvmRiskScore
  now : NaiveDateTime
  received : List String
  gaveUp : List EvmItem

/-- The addresses whose freshness queries, or saves, fail in a turn. -/
structure DbFaults where
  fresh : List String
  save : List String
  deriving DecidableEq, Repr

def DbFaults.none : DbFaults := ⟨[], []⟩

structure LoopCtx where
  toLowercase : String → String
  ttlSecs : ℕ
  screenerUrl : String

/-- What `LzEnricher::process_guid` returns. -/
inductive GuidOutcome where
  | resolved (evm : String)
  | notFound
  | failed
  deriving DecidableEq, Repr

/-- What a ping ends with; on success, the rows `load_pending_evms` finds, given
the EVM sources in `bridge_inflows`, or nothing if that query fails. -/
inductive PingOutcome where
  | failed
  | connected (loaded : List String) (inflowSources : List String)
  | connectedWithoutRows
  deriving DecidableEq, Repr

inductive LoopAction where
  | recvGuid (guid : String)
  | recvEvm (evm : String) (faults : DbFaults)
  | pingDone (outcome : PingOutcome)
  | tick (reconnect : Bool) (faults : DbFaults)
  | guidDone (i : ℕ) (outcome : GuidOutcome) (faults : DbFaults)
  | evmStart (i : ℕ)
  | evmCheck (i : ℕ)
  | evmRespond (i : ℕ) (response : Response) (faults : DbFaults)
  | evmCache (i : ℕ)
  | evmSave (i : ℕ) (faults : DbFaults)
  | evmDone (i : ℕ)
  | evict (key : String)
  | clock (now : NaiveDateTime)

/-- The failures of database calls in a turn. -/
def LoopAction.faults : LoopAction → DbFaults
  | .recvEvm _ faults | .tick _ faults | .guidDone _ _ faults | .evmRespond _ _ faults
  | .evmSave _ faults => faults
  | _ => .none

/-! ## The database -/

/-- `is_fresh_in_db`. A query that fails counts as not fresh. -/
def isFreshInDb (ctx : LoopCtx) (st : EnricherState) (faults : DbFaults) (evm : String) : Bool :=
  if evm ∈ faults.fresh then false
  else
    match st.riskScores.lookup evm with
    | none => false
    | some row => row.toBeUpdated = false ∧ st.now - ctx.ttlSecs * 1000000 < row.fetchedAt

/-- `save_risk_score`. -/
def save (faults : DbFaults) (st : EnricherState) (score : EvmRiskScore) : EnricherState :=
  if score.evmAddress ∈ faults.save then st
  else { st with
    riskScores := st.riskScores.upsert (fun _ excluded => excluded) score.evmAddress score }

/-- The addresses `load_pending_evms` selects, in some order. -/
def pendingEvms (riskScores : Table String EvmRiskScore) (inflowSources : List String) :
    List String :=
  (inflowSources.filter (fun evm => evm ≠ evmNullSentinel ∧
      ¬ (riskScores.lookup evm).any (fun row => row.toBeUpdated = false)) ++
    (riskScores.select fun _ => true).filterMap fun row =>
      if row.2.toBeUpdated then some row.1 else none).dedup

/-! ## The connection states -/

/-- An error score for an address that cannot be screened yet. -/
def saveUnlessFresh (ctx : LoopCtx) (faults : DbFaults) (st : EnricherState) (evm : String) :
    EnricherState :=
  if isFreshInDb ctx st faults evm then st else save faults st (errorScore st.now evm)

/-- The error score of an address whose retries are exhausted. -/
def giveUp (faults : DbFaults) (st : EnricherState) (item : EvmItem) : EnricherState :=
  if item.address ∈ faults.save then st
  else { save faults st (errorScore st.now item.address) with gaveUp := st.gaveUp ++ [item] }

/-- The batch `process_evms` forms while screening: what it is given, and the
queued addresses that are not among it. -/
def mergeQueue (ctx : LoopCtx) (evms : List EvmItem) (evmQueue : List String) : List EvmItem :=
  let seen := evms.map fun item => ctx.toLowercase item.address
  evms ++ (evmQueue.filter fun e => ctx.toLowercase e ∉ seen).map fun e => ⟨e, 0⟩

/-- The part of it that is left to screen. Freshness is asked for on the first
attempt only. -/
def toScreen (ctx : LoopCtx) (st : EnricherState) (faults : DbFaults) (count : ℕ)
    (batch : List EvmItem) : List EvmItem :=
  batch.filter fun item => ¬ (count = 0 ∧ isFreshInDb ctx st faults item.address)

/-- `process_evms`. -/
def processEvms (ctx : LoopCtx) (st : EnricherState) (evms : List EvmItem) (count : ℕ)
    (faults : DbFaults) : EnricherState :=
  match st.connection with
  | .connecting _ =>
    if count = 0 then evms.foldl (fun st item => saveUnlessFresh ctx faults st item.address) st
    else st
  | .screening evmQueue =>
    let screen := toScreen ctx st faults count (mergeQueue ctx evms evmQueue)
    let st := { st with connection := .screening [] }
    if screen = [] then st
    else if count < maxRetries then
      { st with pending := st.pending ++ [.evm screen count .waiting] }
    else screen.foldl (giveUp faults) st

/-- `new_evm`. -/
def newEvm (ctx : LoopCtx) (st : EnricherState) (evm : String) (faults : DbFaults) :
    EnricherState :=
  match st.connection with
  | .connecting _ => saveUnlessFresh ctx faults st evm
  | .screening evmQueue => { st with connection := .screening (evmQueue ++ [evm]) }

/-- `connect`, called when no ping is in flight. -/
def connect (st : EnricherState) (reconnect : Bool) : EnricherState :=
  match st.connection with
  | .connecting pinged =>
    if st.pinging = false ∧ (pinged = false ∨ reconnect) then
      { st with connection := .connecting true, pinging := true }
    else st
  | .screening _ => st

/-! ## The loop -/

/-- A failed call of `fetch_batch` counts for the addresses that were in it. -/
def EvmItem.failed (item : EvmItem) : EvmItem :=
  if item.address = evmNullSentinel then item else { item with attempts := item.attempts + 1 }

@[simp]
theorem EvmItem.failed_address (item : EvmItem) : item.failed.address = item.address := by
  unfold EvmItem.failed
  split <;> rfl

/-- The addresses `screen_evms` screens. -/
def itemAddrs (evms : List EvmItem) : List String := screenAddrs (evms.map (·.address))

def init (pendingGuids : List String) (riskScores : Table String EvmRiskScore)
    (now : NaiveDateTime) : EnricherState :=
  ⟨.connecting false, false, pendingGuids, [], [], riskScores, now, [], []⟩

def step (ctx : LoopCtx) (st : EnricherState) : LoopAction → Option EnricherState
  | .recvGuid guid => some { st with guidQueue := st.guidQueue ++ [guid] }
  | .recvEvm evm faults => some (newEvm ctx { st with received := evm :: st.received } evm faults)
  | .pingDone outcome =>
    if st.pinging then
      match outcome with
      | .failed => some { st with pinging := false }
      | .connected loaded inflowSources =>
        -- The query's order is the database's to choose.
        if loaded.Perm (pendingEvms st.riskScores inflowSources) then
          some { st with connection := .screening loaded, pinging := false }
        else none
      | .connectedWithoutRows => some { st with connection := .screening [], pinging := false }
    else none
  | .tick reconnect faults =>
    -- At most one ping is in flight.
    let st := connect st reconnect
    let st := { st with
      pending := st.pending ++ st.guidQueue.map fun guid => Future.guid guid 0
      guidQueue := [] }
    some (processEvms ctx st [] 0 faults)
  | .guidDone i outcome faults =>
    match st.pending[i]? with
    | some (.guid guid count) =>
      let st := { st with pending := st.pending.eraseIdx i }
      match outcome with
      | .resolved evm =>
        some (processEvms ctx { st with received := evm :: st.received } [⟨evm, 0⟩] 0 faults)
      | .notFound => some st
      | .failed =>
        -- Resolving is retried on its own count; exhausted, the GUID is dropped.
        if count + 1 < maxRetries then
          some { st with pending := st.pending ++ [.guid guid (count + 1)] }
        else some st
    | _ => none
  | .evmStart i =>
    match st.pending[i]? with
    | some (.evm evms count .waiting) =>
      if itemAddrs evms = [] then some { st with pending := st.pending.eraseIdx i }
      else some { st with
        pending := st.pending.set i (.evm evms count (.fetching [] [] (itemAddrs evms))) }
    | _ => none
  | .evmCheck i =>
    match st.pending[i]? with
    | some (.evm evms count (.fetching results toProcess (addr :: rest))) =>
      if ctx.toLowercase addr ∈ st.cache then
        let results := results ++ [cacheHit addr]
        some { st with pending :=
          st.pending.set i (.evm evms count (.fetching results toProcess rest)) }
      else
        some { st with pending :=
          st.pending.set i (.evm evms count (.fetching results (toProcess ++ [addr]) rest)) }
    | _ => none
  | .evmRespond i response faults =>
    match st.pending[i]? with
    | some (.evm evms count (.fetching results toProcess [])) =>
      -- Without addresses left to ask for there is no request.
      if toProcess = [] then
        some { st with pending :=
          st.pending.set i (.evm evms count (.saving [] (scoresToSave results (itemAddrs evms)))) }
      else
        match handleResponse ctx.toLowercase results toProcess response with
        | none =>
          let st := { st with pending := st.pending.eraseIdx i }
          -- `evm_future` returns a retry item, which the loop handles at once.
          some (processEvms ctx st (evms.map EvmItem.failed) (count + 1) faults)
        | some (results, toCache) =>
          some { st with
            pending := st.pending.set i
              (.evm evms count (.saving toCache (scoresToSave results (itemAddrs evms)))) }
    | _ => none
  | .evmCache i =>
    match st.pending[i]? with
    | some (.evm evms count (.saving (key :: toCache) toSave)) =>
      some { st with
        cache := key :: st.cache
        pending := st.pending.set i (.evm evms count (.saving toCache toSave)) }
    | _ => none
  | .evmSave i faults =>
    match st.pending[i]? with
    | some (.evm evms count (.saving [] ((evm, result) :: toSave))) =>
      let score := computeRiskScore ctx.toLowercase st.now evm result ctx.screenerUrl
      let st := { st with pending := st.pending.set i (.evm evms count (.saving [] toSave)) }
      some (save faults st score)
    | _ => none
  | .evmDone i =>
    match st.pending[i]? with
    | some (.evm _ _ (.saving [] [])) => some { st with pending := st.pending.eraseIdx i }
    | _ => none
  | .evict key => some { st with cache := st.cache.filter (· ≠ key) }
  | .clock now => some { st with now }

/-- A batch whose request failed, with its count and the queue it meets. -/
structure FailedBatch where
  evms : List EvmItem
  count : ℕ
  evmQueue : List String

/-- The failed batch an action hands to the loop while it is screening. -/
def failedBatch (ctx : LoopCtx) (st : EnricherState) : LoopAction → Option FailedBatch
  | .evmRespond i response _ =>
    match st.connection, st.pending[i]? with
    | .screening evmQueue, some (.evm evms count (.fetching results toProcess [])) =>
      if toProcess ≠ [] ∧ handleResponse ctx.toLowercase results toProcess response = none then
        some ⟨evms, count, evmQueue⟩
      else none
    | _, _ => none
  | _ => none

section FailedBatch

variable {ctx : LoopCtx} {st : EnricherState} {i count : ℕ} {evms : List EvmItem}
  {results : List HypernativeResult} {toProcess evmQueue : List String} {response : Response}
  {faults : DbFaults}

theorem failedBatch_failed (hc : st.connection = .screening evmQueue)
    (hi : st.pending[i]? = some (.evm evms count (.fetching results toProcess [])))
    (hne : toProcess ≠ [])
    (hresponse : handleResponse ctx.toLowercase results toProcess response = none) :
    failedBatch ctx st (.evmRespond i response faults) = some ⟨evms, count, evmQueue⟩ := by
  simp only [failedBatch, hc, hi]
  exact if_pos ⟨hne, hresponse⟩

theorem failedBatch_answered
    (hi : st.pending[i]? = some (.evm evms count (.fetching results toProcess [])))
    (h : toProcess ≠ [] → handleResponse ctx.toLowercase results toProcess response ≠ none) :
    failedBatch ctx st (.evmRespond i response faults) = none := by
  cases hc : st.connection with
  | connecting pinged => simp only [failedBatch, hc]
  | screening evmQueue =>
    simp only [failedBatch, hc, hi]
    exact if_neg fun hfail => h hfail.1 hfail.2

theorem failedBatch_connecting {pinged : Bool} (hc : st.connection = .connecting pinged)
    (a : LoopAction) : failedBatch ctx st a = none := by
  cases a <;> simp only [failedBatch, hc]

end FailedBatch

/-! ## What a turn can do -/

/-- Moves the `i`th future on. -/
def EnricherState.advance (st : EnricherState) (i : ℕ) (f : Future) : EnricherState :=
  { st with pending := st.pending.set i f }

/-- Takes the `i`th future out of the pool. -/
def EnricherState.finish (st : EnricherState) (i : ℕ) : EnricherState :=
  { st with pending := st.pending.eraseIdx i }

/-- The branches of `step`, each with what it requires. -/
inductive Turn (ctx : LoopCtx) (st : EnricherState) : LoopAction → EnricherState → Prop
  | recvGuid (guid) :
      Turn ctx st (.recvGuid guid) { st with guidQueue := st.guidQueue ++ [guid] }
  | recvEvm (evm faults) :
      Turn ctx st (.recvEvm evm faults)
        (newEvm ctx { st with received := evm :: st.received } evm faults)
  | pingFailed (hping : st.pinging = true) :
      Turn ctx st (.pingDone .failed) { st with pinging := false }
  | connected {outcome} (evmQueue) (hping : st.pinging = true) :
      Turn ctx st (.pingDone outcome)
        { st with connection := .screening evmQueue, pinging := false }
  | tick (reconnect faults) :
      Turn ctx st (.tick reconnect faults)
        (processEvms ctx
          { connect st reconnect with
            pending := (connect st reconnect).pending ++
              (connect st reconnect).guidQueue.map fun guid => Future.guid guid 0
            guidQueue := [] } [] 0 faults)
  | guidResolved {i guid count} (evm faults) (hi : st.pending[i]? = some (.guid guid count)) :
      Turn ctx st (.guidDone i (.resolved evm) faults)
        (processEvms ctx { st.finish i with received := evm :: st.received } [⟨evm, 0⟩] 0 faults)
  | guidEnded {i guid count outcome faults} (hi : st.pending[i]? = some (.guid guid count))
      (hnone : ∀ evm, outcome ≠ .resolved evm) :
      Turn ctx st (.guidDone i outcome faults) (st.finish i)
  | guidRetried {i guid count faults} (hi : st.pending[i]? = some (.guid guid count)) :
      Turn ctx st (.guidDone i .failed faults)
        { st.finish i with pending := (st.finish i).pending ++ [.guid guid (count + 1)] }
  | evmSkipped {i evms count} (hi : st.pending[i]? = some (.evm evms count .waiting))
      (hnone : itemAddrs evms = []) :
      Turn ctx st (.evmStart i) (st.finish i)
  | evmStarted {i evms count} (hi : st.pending[i]? = some (.evm evms count .waiting)) :
      Turn ctx st (.evmStart i)
        (st.advance i (.evm evms count (.fetching [] [] (itemAddrs evms))))
  | evmHit {i evms count results toProcess addr rest}
      (hi : st.pending[i]? = some (.evm evms count (.fetching results toProcess (addr :: rest))))
      (hcached : ctx.toLowercase addr ∈ st.cache) :
      Turn ctx st (.evmCheck i)
        (st.advance i (.evm evms count (.fetching (results ++ [cacheHit addr]) toProcess rest)))
  | evmMissed {i evms count results toProcess addr rest}
      (hi : st.pending[i]? = some (.evm evms count (.fetching results toProcess (addr :: rest)))) :
      Turn ctx st (.evmCheck i)
        (st.advance i (.evm evms count (.fetching results (toProcess ++ [addr]) rest)))
  | evmAllHit {i evms count results response faults}
      (hi : st.pending[i]? = some (.evm evms count (.fetching results [] []))) :
      Turn ctx st (.evmRespond i response faults)
        (st.advance i (.evm evms count (.saving [] (scoresToSave results (itemAddrs evms)))))
  | evmFailed {i evms count results toProcess response} (faults)
      (hi : st.pending[i]? = some (.evm evms count (.fetching results toProcess [])))
      (hne : toProcess ≠ [])
      (hresponse : handleResponse ctx.toLowercase results toProcess response = none) :
      Turn ctx st (.evmRespond i response faults)
        (processEvms ctx (st.finish i) (evms.map EvmItem.failed) (count + 1) faults)
  | evmAnswered {i evms count results results' toProcess toCache response faults}
      (hi : st.pending[i]? = some (.evm evms count (.fetching results toProcess [])))
      (hresponse : handleResponse ctx.toLowercase results toProcess response =
        some (results', toCache)) :
      Turn ctx st (.evmRespond i response faults)
        (st.advance i (.evm evms count (.saving toCache (scoresToSave results' (itemAddrs evms)))))
  | evmCached {i evms count key toCache toSave}
      (hi : st.pending[i]? = some (.evm evms count (.saving (key :: toCache) toSave))) :
      Turn ctx st (.evmCache i)
        { st.advance i (.evm evms count (.saving toCache toSave)) with cache := key :: st.cache }
  | evmSaved {i evms count evm result toSave} (faults)
      (hi : st.pending[i]? = some (.evm evms count (.saving [] ((evm, result) :: toSave)))) :
      Turn ctx st (.evmSave i faults)
        (save faults (st.advance i (.evm evms count (.saving [] toSave)))
          (computeRiskScore ctx.toLowercase st.now evm result ctx.screenerUrl))
  | evmDone {i evms count} (hi : st.pending[i]? = some (.evm evms count (.saving [] []))) :
      Turn ctx st (.evmDone i) (st.finish i)
  | evicted (key) : Turn ctx st (.evict key) { st with cache := st.cache.filter (· ≠ key) }
  | clock (now) : Turn ctx st (.clock now) { st with now }

theorem turn_of_step {ctx : LoopCtx} {st st' : EnricherState} {a : LoopAction}
    (h : step ctx st a = some st') : Turn ctx st a st' := by
  cases a with
  | recvGuid guid =>
    obtain rfl := Option.some.inj h
    exact .recvGuid guid
  | recvEvm evm faults =>
    obtain rfl := Option.some.inj h
    exact .recvEvm evm faults
  -- A ping can only end while there is one; without the rows the queue starts empty.
  | pingDone outcome =>
    simp only [step] at h
    split at h
    next hping =>
      cases outcome with
      | failed =>
        obtain rfl := Option.some.inj h
        exact .pingFailed hping
      | connected loaded inflowSources =>
        simp only at h
        split at h
        next =>
          obtain rfl := Option.some.inj h
          exact .connected loaded hping
        next => cases h
      | connectedWithoutRows =>
        obtain rfl := Option.some.inj h
        exact .connected [] hping
    next => cases h
  | tick reconnect faults =>
    obtain rfl := Option.some.inj h
    exact .tick reconnect faults
  -- A failure is a retry as long as retries are left, and the end after that.
  | guidDone i outcome faults =>
    simp only [step] at h
    split at h
    next guid count hi =>
      cases outcome with
      | resolved evm =>
        obtain rfl := Option.some.inj h
        exact .guidResolved evm faults hi
      | notFound =>
        obtain rfl := Option.some.inj h
        exact .guidEnded hi (fun _ => GuidOutcome.noConfusion)
      | failed =>
        simp only at h
        split at h
        next =>
          obtain rfl := Option.some.inj h
          exact .guidRetried hi
        next =>
          obtain rfl := Option.some.inj h
          exact .guidEnded hi (fun _ => GuidOutcome.noConfusion)
    next => cases h
  | evmStart i =>
    simp only [step] at h
    split at h
    next evms count hi =>
      split at h
      next hnone =>
        obtain rfl := Option.some.inj h
        exact .evmSkipped hi hnone
      next =>
        obtain rfl := Option.some.inj h
        exact .evmStarted hi
    next => cases h
  | evmCheck i =>
    simp only [step] at h
    split at h
    next evms count results toProcess addr rest hi =>
      split at h
      next hcached =>
        obtain rfl := Option.some.inj h
        exact .evmHit hi hcached
      next =>
        obtain rfl := Option.some.inj h
        exact .evmMissed hi
    next => cases h
  -- Without an address to ask for there is no request, and no response to look at.
  | evmRespond i response faults =>
    simp only [step] at h
    split at h
    next evms count results toProcess hi =>
      split at h
      next hnil =>
        obtain rfl := Option.some.inj h
        subst hnil
        exact .evmAllHit hi
      next hne =>
        split at h
        next hresponse =>
          obtain rfl := Option.some.inj h
          exact .evmFailed faults hi hne hresponse
        next results' toCache hresponse =>
          obtain rfl := Option.some.inj h
          exact .evmAnswered hi hresponse
    next => cases h
  | evmCache i =>
    simp only [step] at h
    split at h
    next evms count key toCache toSave hi =>
      obtain rfl := Option.some.inj h
      exact .evmCached hi
    next => cases h
  | evmSave i faults =>
    simp only [step] at h
    split at h
    next evms count evm result toSave hi =>
      obtain rfl := Option.some.inj h
      exact .evmSaved faults hi
    next => cases h
  | evmDone i =>
    simp only [step] at h
    split at h
    next evms count hi =>
      obtain rfl := Option.some.inj h
      exact .evmDone hi
    next => cases h
  | evict key =>
    obtain rfl := Option.some.inj h
    exact .evicted key
  | clock now =>
    obtain rfl := Option.some.inj h
    exact .clock now

/-! ## Futures before and after -/

/-- A future of the advanced pool is the new one or an old one. -/
theorem mem_pending_advance {st : EnricherState} {i : ℕ} {f g : Future}
    (h : g ∈ (st.advance i f).pending) : g ∈ st.pending ∨ g = f :=
  List.mem_or_eq_of_mem_set h

theorem mem_pending_finish {st : EnricherState} {i : ℕ} {g : Future}
    (h : g ∈ (st.finish i).pending) : g ∈ st.pending :=
  List.mem_of_mem_eraseIdx h

/-- An old future is still there, unless it is the one that moved. -/
theorem mem_advance_or_eq {st : EnricherState} {i : ℕ} {f f' g : Future}
    (hi : st.pending[i]? = some f) (h : g ∈ st.pending) :
    g ∈ (st.advance i f').pending ∨ g = f := by
  obtain ⟨j, hj⟩ := List.mem_iff_getElem?.mp h
  by_cases hij : i = j
  · subst hij
    exact Or.inr (Option.some.inj (hj.symm.trans hi))
  · refine Or.inl (List.mem_iff_getElem?.mpr ⟨j, ?_⟩)
    simp only [EnricherState.advance]
    rw [List.getElem?_set_ne hij, hj]

theorem mem_finish_or_eq {st : EnricherState} {i : ℕ} {f g : Future}
    (hi : st.pending[i]? = some f) (h : g ∈ st.pending) :
    g ∈ (st.finish i).pending ∨ g = f := by
  obtain ⟨j, hj⟩ := List.mem_iff_getElem?.mp h
  by_cases hij : j = i
  · subst hij
    exact Or.inr (Option.some.inj (hj.symm.trans hi))
  · refine Or.inl (List.mem_eraseIdx_iff_getElem?.mpr ⟨j, hij, hj⟩)

theorem mem_advance_self {st : EnricherState} {i : ℕ} {f f' : Future}
    (hi : st.pending[i]? = some f) : f' ∈ (st.advance i f').pending :=
  List.mem_set (List.getElem?_eq_some_iff.mp hi).1 f'

/-! ## What a call does to the database -/

section Calls

variable {ctx : LoopCtx} {st : EnricherState} {faults : DbFaults}

theorem lookup_save (faults : DbFaults) (st : EnricherState) (score : EvmRiskScore)
    (evm : String) :
    (save faults st score).riskScores.lookup evm =
      if evm = score.evmAddress ∧ evm ∉ faults.save then some score
      else st.riskScores.lookup evm := by
  unfold save
  split
  next hfault =>
    rw [if_neg]
    intro hself
    obtain ⟨rfl, hok⟩ := hself
    exact hok hfault
  next hok =>
    by_cases heq : evm = score.evmAddress
    · subst heq
      rw [if_pos ⟨rfl, hok⟩]
      exact (Table.lookup_upsert_self ..).trans (by unfold Table.merged; split <;> rfl)
    · rw [if_neg fun h => heq h.1]
      exact Table.lookup_upsert_ne _ _ _ heq

theorem save_eq (faults : DbFaults) (st : EnricherState) (score : EvmRiskScore) :
    ∃ t, save faults st score = { st with riskScores := t } := by
  unfold save
  split
  · exact ⟨st.riskScores, rfl⟩
  · exact ⟨_, rfl⟩

theorem isFreshInDb_congr {st' : EnricherState} {evm : String} (hnow : st'.now = st.now)
    (hrow : st'.riskScores.lookup evm = st.riskScores.lookup evm) :
    isFreshInDb ctx st' faults evm = isFreshInDb ctx st faults evm := by
  unfold isFreshInDb
  rw [hnow, hrow]

/-- A fresh row is in the table and is valid. -/
theorem exists_row_of_isFreshInDb {evm : String} (h : isFreshInDb ctx st faults evm = true) :
    ∃ row, st.riskScores.lookup evm = some row ∧ row.toBeUpdated = false := by
  unfold isFreshInDb at h
  split at h
  next => cases h
  next =>
    split at h
    next => cases h
    next row hrow => exact ⟨row, hrow, (of_decide_eq_true h).1⟩

/-- The rows after a call made while connecting. -/
structure SavedUnlessFresh (ctx : LoopCtx) (faults : DbFaults) (st st' : EnricherState) : Prop where
  frame : ∃ t, st' = { st with riskScores := t }
  fresh : ∀ evm, isFreshInDb ctx st faults evm = true →
    st'.riskScores.lookup evm = st.riskScores.lookup evm
  rows : ∀ evm, (st.riskScores.lookup evm).isSome → (st'.riskScores.lookup evm).isSome

theorem SavedUnlessFresh.refl (st : EnricherState) : SavedUnlessFresh ctx faults st st :=
  ⟨⟨st.riskScores, rfl⟩, fun _ _ => rfl, fun _ h => h⟩

theorem SavedUnlessFresh.trans {st₁ st₂ : EnricherState} (h : SavedUnlessFresh ctx faults st st₁)
    (h' : SavedUnlessFresh ctx faults st₁ st₂) : SavedUnlessFresh ctx faults st st₂ := by
  obtain ⟨t, ht⟩ := h.frame
  obtain ⟨t', ht'⟩ := h'.frame
  have hnow : st₁.now = st.now := by rw [ht]
  refine ⟨⟨t', by rw [ht', ht]⟩, fun evm hfresh => ?_,
    fun evm hrow => h'.rows evm (h.rows evm hrow)⟩
  have hrow := h.fresh evm hfresh
  rw [h'.fresh evm ((isFreshInDb_congr hnow hrow).trans hfresh), hrow]

theorem savedUnlessFresh (st : EnricherState) (evm : String) :
    SavedUnlessFresh ctx faults st (saveUnlessFresh ctx faults st evm) := by
  unfold saveUnlessFresh
  split
  next => exact .refl st
  next hstale =>
    refine ⟨save_eq .., fun evm' hfresh => ?_, fun evm' hrow => ?_⟩
    · rw [lookup_save, if_neg]
      intro hself
      obtain ⟨rfl, _⟩ := hself
      exact hstale hfresh
    · rw [lookup_save]
      split
      · rfl
      · exact hrow

/-- After it the address has a row, if the calls succeeded. -/
theorem isSome_saveUnlessFresh {evm : String} (hok : evm ∉ faults.save) :
    ((saveUnlessFresh ctx faults st evm).riskScores.lookup evm).isSome := by
  unfold saveUnlessFresh
  split
  next hfresh =>
    obtain ⟨row, hrow, _⟩ := exists_row_of_isFreshInDb hfresh
    rw [hrow]
    rfl
  next =>
    rw [lookup_save, if_pos ⟨rfl, hok⟩]
    rfl

theorem foldl_saveUnlessFresh :
    ∀ (evms : List EvmItem) (st : EnricherState),
      SavedUnlessFresh ctx faults st
        (evms.foldl (fun st item => saveUnlessFresh ctx faults st item.address) st) ∧
      ∀ item ∈ evms, item.address ∉ faults.save →
        ((evms.foldl (fun st item => saveUnlessFresh ctx faults st item.address)
          st).riskScores.lookup item.address).isSome := by
  intro evms
  induction evms with
  | nil => intro st; exact ⟨.refl st, (fun _ h => nomatch h)⟩
  | cons item evms ih =>
    intro st
    obtain ⟨hrest, hrows⟩ := ih (saveUnlessFresh ctx faults st item.address)
    refine ⟨(savedUnlessFresh st item.address).trans hrest, fun item' hmem hok => ?_⟩
    rcases List.mem_cons.mp hmem with rfl | hmem
    · exact hrest.rows _ (isSome_saveUnlessFresh hok)
    · exact hrows item' hmem hok

theorem EnricherState.connecting_or_screening (st : EnricherState) :
    (∃ pinged, st.connection = .connecting pinged) ∨
      ∃ evmQueue, st.connection = .screening evmQueue := by
  cases st.connection with
  | connecting pinged => exact Or.inl ⟨pinged, rfl⟩
  | screening evmQueue => exact Or.inr ⟨evmQueue, rfl⟩

/-- A tick changes the connection only while there is none. -/
theorem connect_cases (st : EnricherState) (reconnect : Bool) :
    (∃ pinged pinged' pinging, st.connection = .connecting pinged ∧
      connect st reconnect = { st with connection := .connecting pinged', pinging }) ∨
    (∃ evmQueue, st.connection = .screening evmQueue ∧ connect st reconnect = st) := by
  unfold connect
  cases hc : st.connection with
  | connecting pinged =>
    by_cases hping : st.pinging = false ∧ (pinged = false ∨ reconnect)
    · exact Or.inl ⟨pinged, true, true, rfl, if_pos hping⟩
    · exact Or.inl ⟨pinged, pinged, st.pinging, rfl, (if_neg hping).trans (by rw [← hc])⟩
  | screening evmQueue => exact Or.inr ⟨evmQueue, rfl, rfl⟩

theorem newEvm_connecting (st : EnricherState) {pinged : Bool}
    (hc : st.connection = .connecting pinged)
    (evm : String) : newEvm ctx st evm faults = saveUnlessFresh ctx faults st evm := by
  unfold newEvm
  rw [hc]

theorem newEvm_screening (st : EnricherState) {evmQueue : List String}
    (hc : st.connection = .screening evmQueue)
    (evm : String) :
    newEvm ctx st evm faults = { st with connection := .screening (evmQueue ++ [evm]) } := by
  unfold newEvm
  rw [hc]

/-- `process_evms` while connecting. -/
theorem processEvms_connecting (ctx : LoopCtx) (faults : DbFaults) {pinged : Bool}
    (hc : st.connection = .connecting pinged) (evms : List EvmItem) (count : ℕ) :
    SavedUnlessFresh ctx faults st (processEvms ctx st evms count faults) ∧
      (count = 0 → ∀ item ∈ evms, item.address ∉ faults.save →
        ((processEvms ctx st evms count faults).riskScores.lookup item.address).isSome) := by
  unfold processEvms
  rw [hc]
  simp only
  split
  next => exact ⟨(foldl_saveUnlessFresh evms st).1, fun _ => (foldl_saveUnlessFresh evms st).2⟩
  next hcount => exact ⟨.refl st, fun h => absurd h hcount⟩

/-- Giving up stores an error score for each address, up to failed saves. -/
theorem foldl_giveUp (faults : DbFaults) :
    ∀ (screen : List EvmItem) (st : EnricherState),
      ∃ t, screen.foldl (giveUp faults) st =
          { st with
            riskScores := t
            gaveUp := st.gaveUp ++ screen.filter fun item => item.address ∉ faults.save } ∧
        ∀ evm, t.lookup evm =
          if (∃ item ∈ screen, item.address = evm) ∧ evm ∉ faults.save
          then some (errorScore st.now evm) else st.riskScores.lookup evm := by
  intro screen
  induction screen with
  | nil => intro st; exact ⟨st.riskScores, by simp, fun evm => by simp⟩
  | cons item screen ih =>
    intro st
    -- A save that fails leaves the table, and the item is not counted as given up.
    by_cases hfault : item.address ∈ faults.save
    · obtain ⟨t, heq, ht⟩ := ih st
      refine ⟨t, ?_, fun evm => ?_⟩
      · simp [giveUp, hfault, heq]
      · rw [ht]
        refine if_congr ?_ rfl rfl
        simp only [List.mem_cons, exists_eq_or_imp]
        constructor
        · exact fun h => ⟨Or.inr h.1, h.2⟩
        · intro h
          obtain ⟨rfl | h, hok⟩ := h
          · exact absurd hfault hok
          · exact ⟨h, hok⟩
    · obtain ⟨t₁, hsave⟩ := save_eq faults st (errorScore st.now item.address)
      have hlookup := lookup_save faults st (errorScore st.now item.address)
      rw [hsave] at hlookup
      obtain ⟨t, heq, ht⟩ := ih { st with riskScores := t₁, gaveUp := st.gaveUp ++ [item] }
      refine ⟨t, ?_, fun evm => ?_⟩
      · simp [giveUp, hfault, hsave, heq]
      · rw [ht]
        simp only [List.mem_cons, exists_eq_or_imp]
        by_cases hrest : (∃ item ∈ screen, item.address = evm) ∧ evm ∉ faults.save
        · rw [if_pos hrest, if_pos ⟨Or.inr hrest.1, hrest.2⟩]
        · rw [if_neg hrest, hlookup]
          by_cases heq : evm = item.address
          · subst heq
            rw [if_pos ⟨rfl, hfault⟩, if_pos ⟨Or.inl rfl, hfault⟩]
          · rw [if_neg fun h => heq h.1, if_neg]
            intro h
            obtain ⟨h | h, hok⟩ := h
            · exact heq h.symm
            · exact hrest ⟨h, hok⟩

/-- `process_evms` while screening: nothing left to screen, a new future, or
giving up. -/
theorem processEvms_screening (ctx : LoopCtx) (faults : DbFaults) {evmQueue : List String}
    (hc : st.connection = .screening evmQueue) (evms : List EvmItem) (count : ℕ) :
    let screen := toScreen ctx st faults count (mergeQueue ctx evms evmQueue)
    let st' := processEvms ctx st evms count faults
    (screen = [] ∧ st' = { st with connection := .screening [] }) ∨
      (count < maxRetries ∧ st' = { st with
        connection := .screening []
        pending := st.pending ++ [.evm screen count .waiting] }) ∨
      (maxRetries ≤ count ∧ ∃ t, st' = { st with
          connection := .screening []
          riskScores := t
          gaveUp := st.gaveUp ++ screen.filter fun item => item.address ∉ faults.save } ∧
        ∀ evm, t.lookup evm =
          if (∃ item ∈ screen, item.address = evm) ∧ evm ∉ faults.save
          then some (errorScore st.now evm) else st.riskScores.lookup evm) := by
  intro screen st'
  have hst' : st' = if screen = [] then { st with connection := .screening [] }
      else if count < maxRetries then { st with
        connection := .screening []
        pending := st.pending ++ [.evm screen count .waiting] }
      else screen.foldl (giveUp faults) { st with connection := .screening [] } := by
    simp only [st', screen, processEvms, hc]
  by_cases hnil : screen = []
  · rw [if_pos hnil] at hst'
    exact Or.inl ⟨hnil, hst'⟩
  · rw [if_neg hnil] at hst'
    by_cases hcount : count < maxRetries
    · rw [if_pos hcount] at hst'
      exact Or.inr (Or.inl ⟨hcount, hst'⟩)
    · rw [if_neg hcount] at hst'
      obtain ⟨t, heq, ht⟩ := foldl_giveUp faults screen { st with connection := .screening [] }
      exact Or.inr (Or.inr ⟨Nat.not_lt.mp hcount, t, hst'.trans heq, ht⟩)

end Calls

end IndexerProcessors.Screening

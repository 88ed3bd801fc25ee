import IndexerProcessors.Reputation.Crediting
import IndexerProcessors.Reputation.Faults
import IndexerProcessors.Screening.Retention

/-!
# The reputation processor as a whole

`AddressReputationProcessor::run_processor` wires an extractor, a storer and the enricher
loop together: the extractor sends the EVM addresses it finds to the loop and its batches
to the storer, the storer sends the GUIDs of a batch to the loop once the batch is
committed, and the loop asks the LZ Scan API for GUIDs, writes the answers into
`bridge_inflows` and screens addresses. When the process dies, all channels, queues and
futures are gone; the next one starts from the tables.

`Pipeline` is the state of all parts, `Pipeline.step` one step of one of them. What is
awaited is told by the tables alone: a GUID without an EVM source, a source without a
score. `nothing_forgotten` — in every run whose database calls succeed, whatever the
services answer and however often the process dies, a GUID without a source is on its
way to the API or has been asked for `MAX_RETRIES` times in this life, and a source is on
its way to the screener or has a row, or the screener is not connected yet; and then it
is among the rows that the connection loads.
-/

namespace IndexerProcessors.Screening

open IndexerProcessors.Lib
open IndexerProcessors.Reputation

/-! ## The LZ enricher -/

/-- What a request to the LZ Scan API ends with; a body that is no JSON is `none`. -/
inductive LzReply where
  | unreachable
  | response (status : ℕ) (body : Option Json)

/-- The first element of an array. -/
def Json.first (v : Json) : Option Json := v.asArray.bind List.head?

/-- The sender of the message's transaction: `data[0].source.tx.from`. -/
def senderOf (body : Json) : Option String := do
  let msg ← Json.first (← body.get "data")
  let tx ← (← msg.get "source").get "tx"
  (← tx.get "from").asStr

/-- `LzEnricher::fetch_evm`. -/
def fetchEvm : LzReply → GuidOutcome
  | .unreachable => .failed
  | .response status body =>
    if status = 404 then .notFound
    else if 200 ≤ status ∧ status < 300 then
      match body.bind senderOf with
      | some evm => .resolved evm
      -- the packet may be undelivered
      | none => .failed
    else .failed

/-! ## The parts and their steps -/

structure PipelineCtx where
  enricher : LoopCtx
  sdk : Sdk
  registry : BridgeRegistry
  propagateEvm : Bool

/-- The tables, what is between the parts, and the loop. `resolved` has the answers of
futures that have written them and that the loop has yet to take. `failures` is there for
the statements only: the GUIDs of the failed requests of this life. -/
structure Pipeline where
  db : ReputationDb
  extracted : List Batch
  guidChannel : List String
  evmChannel : List String
  enricher : EnricherState
  resolved : List String
  failures : List String

/-- The EVM sources of a batch. -/
def batchSources (batch : Batch) : List String := batch.inflows.filterMap (·.evmSource)

/-- The EVM sources in `bridge_inflows`, which `load_pending_evms` selects from. -/
def evmSources (db : ReputationDb) : List String :=
  (db.bridgeInflows.rowsWhere fun bi => bi.evmSource.isSome).filterMap (·.evmSource)

inductive PipelineAction where
  /-- The extractor is through with the next transactions. -/
  | extract (txns : List Transaction)
  /-- The storer commits the next batch. -/
  | store
  | recvGuid
  | recvEvm (faults : DbFaults)
  /-- The future of a GUID gets its reply, and writes it. -/
  | lzReply (i : ℕ) (reply : LzReply) (returned : List BridgeInflow) (faults : Faults)
  /-- The loop takes the answer of a future. -/
  | handOver (j : ℕ) (faults : DbFaults)
  /-- Any other turn of the loop, or step of a future. -/
  | turn (a : LoopAction)
  /-- The process dies, and another one starts. -/
  | restart (loaded : List String) (now : NaiveDateTime)

/-- The turns that are left to `turn`; a connection loads what is in the tables. -/
def ownTurn (db : ReputationDb) : LoopAction → Bool
  | .recvGuid _ | .recvEvm _ _ | .guidDone _ _ _ => false
  | .pingDone (.connected _ inflowSources) => inflowSources = evmSources db
  | _ => true

/-- After a connection the loop looks after every source in the tables. -/
def countLoaded (a : LoopAction) (st : EnricherState) : EnricherState :=
  match a with
  | .pingDone (.connected _ inflowSources) => { st with received := inflowSources ++ st.received }
  | _ => st

namespace Pipeline

/-- `write_evm`, once a future has its answer. -/
def writeAnswer (ctx : PipelineCtx) (st : Pipeline) (i : ℕ) (guid evm : String)
    (returned : List BridgeInflow) (faults : Faults) : Pipeline :=
  { st with
    db := (writeEvmUnder ctx.propagateEvm st.db guid evm returned faults).db
    enricher := st.enricher.finish i }

def step (ctx : PipelineCtx) (st : Pipeline) : PipelineAction → Option Pipeline
  | .extract txns =>
    let out := Reputation.extract ctx.sdk ctx.registry txns
    some { st with
      extracted := st.extracted ++ [out.batch]
      evmChannel := st.evmChannel ++ out.sentEvms }
  | .store =>
    match st.extracted with
    | [] => none
    | batch :: rest =>
      some { st with
        db := Reputation.process ctx.propagateEvm st.db batch
        extracted := rest
        guidChannel := st.guidChannel ++ pendingGuids batch }
  | .recvGuid =>
    match st.guidChannel with
    | [] => none
    | guid :: rest =>
      (Screening.step ctx.enricher st.enricher (.recvGuid guid)).map fun enricher =>
        { st with enricher, guidChannel := rest }
  | .recvEvm faults =>
    match st.evmChannel with
    | [] => none
    | evm :: rest =>
      (Screening.step ctx.enricher st.enricher (.recvEvm evm faults)).map fun enricher =>
        { st with enricher, evmChannel := rest }
  | .lzReply i reply returned faults =>
    match st.enricher.pending[i]? with
    | some (.guid guid _) =>
      -- the order of the returned rows is the database's to choose
      if returned.Perm (st.db.bridgeInflows.rowsWhere (pendingRow guid)) then
        match fetchEvm reply with
        | .resolved evm =>
          some { st.writeAnswer ctx i guid evm returned faults with
            resolved := st.resolved ++ [evm] }
        | .notFound => some (st.writeAnswer ctx i guid evmNullSentinel returned faults)
        | .failed =>
          (Screening.step ctx.enricher st.enricher (.guidDone i .failed .none)).map fun enricher =>
            { st with enricher, failures := guid :: st.failures }
      else none
    | _ => none
  | .handOver j faults =>
    match st.resolved[j]? with
    | some evm =>
      some { st with
        enricher := processEvms ctx.enricher
          { st.enricher with received := evm :: st.enricher.received } [⟨evm, 0⟩] 0 faults
        resolved := st.resolved.eraseIdx j }
    | none => none
  | .turn a =>
    if ownTurn st.db a then
      (Screening.step ctx.enricher st.enricher a).map fun enricher =>
        { st with enricher := countLoaded a enricher }
    else none
  | .restart loaded now =>
    if loaded.Perm (loadPendingGuids st.db) then
      some { st with
        extracted := []
        guidChannel := []
        evmChannel := []
        enricher := Screening.init loaded st.enricher.riskScores now
        resolved := []
        failures := [] }
    else none

/-- The first process, on empty tables. -/
def init (now : NaiveDateTime) : Pipeline :=
  ⟨.empty, [], [], [], Screening.init [] ∅ now, [], []⟩

end Pipeline

/-- The database calls of a step get through. The seeds of a resolution may fail. -/
def PipelineAction.dbOk : PipelineAction → Bool
  | .recvEvm faults | .handOver _ faults => faults = .none
  | .lzReply _ _ _ faults => faults.connected ∧ faults.update ≠ .failed
  | .turn (.pingDone .connectedWithoutRows) => false
  | .turn a => a.faults = .none
  | _ => true

/-! ## The loop's GUIDs and what it received -/

/-- A future that resolves a GUID. -/
def Asking (st : EnricherState) (guid : String) : Prop := ∃ count, .guid guid count ∈ st.pending

/-- The screener is not connected yet. -/
def Connecting (st : EnricherState) : Prop := ∃ pinged, st.connection = .connecting pinged

/-- What a step keeps of a loop that has nothing to do with GUIDs. -/
structure KeepsGuids (st st' : EnricherState) : Prop where
  queue : st'.guidQueue = st.guidQueue
  futures : ∀ guid count, .guid guid count ∈ st'.pending ↔ .guid guid count ∈ st.pending
  received : st.received ⊆ st'.received
  connecting : Connecting st → Connecting st'

section Turns

variable {ctx : LoopCtx} {st st' : EnricherState}

theorem KeepsGuids.refl (st : EnricherState) : KeepsGuids st st :=
  ⟨rfl, fun _ _ => Iff.rfl, fun _ h => h, fun h => h⟩

theorem KeepsGuids.trans {st₁ : EnricherState} (h : KeepsGuids st st₁)
    (h' : KeepsGuids st₁ st') : KeepsGuids st st' :=
  ⟨h'.queue.trans h.queue, fun guid count => (h'.futures guid count).trans (h.futures guid count),
    fun _ ha => h'.received (h.received ha), fun hc => h'.connecting (h.connecting hc)⟩

theorem not_connecting_of_screening {evmQueue : List String}
    (hc : st.connection = .screening evmQueue) : ¬ Connecting st := by
  rintro ⟨pinged, hc'⟩
  rw [hc] at hc'
  cases hc'

/-- Screening does not touch the GUIDs. -/
theorem keepsGuids_processEvms (ctx : LoopCtx) (st : EnricherState) (evms : List EvmItem)
    (count : ℕ) (faults : DbFaults) : KeepsGuids st (processEvms ctx st evms count faults) := by
  obtain ⟨pinged, hc⟩ | ⟨evmQueue, hc⟩ := st.connecting_or_screening
  · obtain ⟨t, heq⟩ := (processEvms_connecting ctx faults hc evms count).1.frame
    rw [heq]
    exact ⟨rfl, fun _ _ => Iff.rfl, fun _ h => h, fun _ => ⟨pinged, hc⟩⟩
  · have hnot := not_connecting_of_screening hc
    obtain ⟨-, heq⟩ | ⟨-, heq⟩ | ⟨-, t, heq, -⟩ := processEvms_screening ctx faults hc evms count
    · rw [heq]
      exact ⟨rfl, fun _ _ => Iff.rfl, fun _ h => h, fun h => absurd h hnot⟩
    · rw [heq]
      refine ⟨rfl, fun guid n => ?_, fun _ h => h, fun h => absurd h hnot⟩
      simp
    · rw [heq]
      exact ⟨rfl, fun _ _ => Iff.rfl, fun _ h => h, fun h => absurd h hnot⟩

theorem keepsGuids_newEvm (ctx : LoopCtx) (st : EnricherState) (evm : String) (faults : DbFaults) :
    KeepsGuids st (newEvm ctx st evm faults) := by
  obtain ⟨pinged, hc⟩ | ⟨evmQueue, hc⟩ := st.connecting_or_screening
  · have hsaved : SavedUnlessFresh ctx faults st (saveUnlessFresh ctx faults st evm) :=
      savedUnlessFresh st evm
    obtain ⟨t, heq⟩ := hsaved.frame
    rw [newEvm_connecting st hc, heq]
    exact ⟨rfl, fun _ _ => Iff.rfl, fun _ h => h, fun _ => ⟨pinged, hc⟩⟩
  · rw [newEvm_screening st hc]
    exact ⟨rfl, fun _ _ => Iff.rfl, fun _ h => h,
      fun h => absurd h (not_connecting_of_screening hc)⟩

/-- Neither does a step of a batch's future. -/
theorem keepsGuids_advance {i count count' : ℕ} {evms evms' : List EvmItem}
    {phase phase' : EvmPhase} (hi : st.pending[i]? = some (.evm evms count phase)) :
    KeepsGuids st (st.advance i (.evm evms' count' phase')) := by
  refine ⟨rfl, fun guid n => ⟨fun h => ?_, fun h => ?_⟩, fun _ h => h, fun h => h⟩
  · exact (mem_pending_advance h).resolve_right nofun
  · exact (mem_advance_or_eq hi h).resolve_right nofun

theorem keepsGuids_finish {i count : ℕ} {evms : List EvmItem} {phase : EvmPhase}
    (hi : st.pending[i]? = some (.evm evms count phase)) : KeepsGuids st (st.finish i) := by
  refine ⟨rfl, fun guid n => ⟨mem_pending_finish, fun h => ?_⟩, fun _ h => h, fun h => h⟩
  exact (mem_finish_or_eq hi h).resolve_right nofun

theorem keepsGuids_save (faults : DbFaults) (st : EnricherState) (score : EvmRiskScore) :
    KeepsGuids st (save faults st score) := by
  obtain ⟨t, heq⟩ := save_eq faults st score
  rw [heq]
  exact ⟨rfl, fun _ _ => Iff.rfl, fun _ h => h, fun h => h⟩

theorem keepsGuids_connect (st : EnricherState) (reconnect : Bool) :
    KeepsGuids st (connect st reconnect) := by
  obtain ⟨pinged, pinged', pinging, -, heq⟩ | ⟨-, -, heq⟩ := connect_cases st reconnect
  · rw [heq]
    exact ⟨rfl, fun _ _ => Iff.rfl, fun _ h => h, fun _ => ⟨pinged', rfl⟩⟩
  · rw [heq]
    exact .refl st

/-- A tick moves the queued GUIDs into the pool. -/
structure AsksQueued (st st' : EnricherState) : Prop where
  queue : st'.guidQueue = []
  futures : ∀ guid count, .guid guid count ∈ st'.pending ↔
    .guid guid count ∈ st.pending ∨ guid ∈ st.guidQueue ∧ count = 0
  received : st.received ⊆ st'.received
  connecting : Connecting st → Connecting st'

theorem asksQueued_tick (ctx : LoopCtx) (st : EnricherState) (reconnect : Bool)
    (faults : DbFaults) :
    AsksQueued st (processEvms ctx
      { connect st reconnect with
        pending := (connect st reconnect).pending ++
          (connect st reconnect).guidQueue.map fun guid => Future.guid guid 0
        guidQueue := [] } [] 0 faults) := by
  have hconnect := keepsGuids_connect st reconnect
  generalize connect st reconnect = st₁ at hconnect ⊢
  have hprocess := keepsGuids_processEvms ctx
    { st₁ with
      pending := st₁.pending ++ st₁.guidQueue.map fun guid => Future.guid guid 0
      guidQueue := [] } [] 0 faults
  refine ⟨hprocess.queue, fun guid count => ?_,
    fun _ h => hprocess.received (hconnect.received h),
    fun h => hprocess.connecting (hconnect.connecting h)⟩
  rw [hprocess.futures]
  simp [hconnect.futures, hconnect.queue, eq_comm (b := (0 : ℕ))]

/-- What the turns do that the pipeline leaves to the loop: a tick asks for the queued
GUIDs, and nothing else touches any. -/
inductive OwnTurn (db : ReputationDb) (st st' : EnricherState) : LoopAction → Prop
  | tick {reconnect faults} (asks : AsksQueued st st') : OwnTurn db st st' (.tick reconnect faults)
  | connected {loaded} (keeps : KeepsGuids { st with connection := .screening loaded } st') :
      OwnTurn db st st' (.pingDone (.connected loaded (evmSources db)))
  | connectedWithoutRows : OwnTurn db st st' (.pingDone .connectedWithoutRows)
  | other {a} (keeps : KeepsGuids st st') (loads : countLoaded a st' = st') : OwnTurn db st st' a

theorem ownTurn_of_step {db : ReputationDb} {a : LoopAction} (hown : ownTurn db a = true)
    (h : step ctx st a = some st') : OwnTurn db st st' a := by
  cases turn_of_step h with
  | recvGuid | recvEvm | guidResolved | guidEnded | guidRetried => cases hown
  | tick reconnect faults => exact .tick (asksQueued_tick ctx st reconnect faults)
  | pingFailed | evicted | clock => exact .other ⟨rfl, fun _ _ => Iff.rfl, fun _ h => h, fun h => h⟩ rfl
  | @connected outcome evmQueue hping =>
    simp only [step, if_pos hping] at h
    cases outcome with
    | failed =>
      -- a ping that fails is no connection
      have hc : st.connection = .screening evmQueue :=
        congrArg EnricherState.connection (Option.some.inj h)
      exact .other ⟨rfl, fun _ _ => Iff.rfl, fun _ h => h,
        fun h => absurd h (not_connecting_of_screening hc)⟩ rfl
    | connected loaded inflowSources =>
      obtain rfl : inflowSources = evmSources db := of_decide_eq_true hown
      exact .connected ⟨rfl, fun _ _ => Iff.rfl, fun _ h => h,
        fun h => absurd h (not_connecting_of_screening rfl)⟩
    | connectedWithoutRows => exact .connectedWithoutRows
  | evmSkipped hi | evmDone hi => exact .other (keepsGuids_finish hi) rfl
  | evmStarted hi | evmHit hi | evmMissed hi | evmAllHit hi | evmAnswered hi =>
    exact .other (keepsGuids_advance hi) rfl
  | evmFailed faults hi =>
    exact .other ((keepsGuids_finish hi).trans (keepsGuids_processEvms ..)) rfl
  | evmCached hi =>
    obtain ⟨hqueue, hfutures, hreceived, hconnecting⟩ := keepsGuids_advance hi
    exact .other ⟨hqueue, hfutures, hreceived, hconnecting⟩ rfl
  | evmSaved faults hi =>
    exact .other ((keepsGuids_advance hi).trans (keepsGuids_save ..)) rfl

end Turns

/-! ## What the tables await -/

section Tables

variable {db : ReputationDb} {guid evm : String}

theorem mem_evmSources :
    evm ∈ evmSources db ↔ ∃ k bi, db.bridgeInflows.lookup k = some bi ∧ bi.evmSource = some evm := by
  unfold evmSources
  rw [List.mem_filterMap]
  constructor
  · rintro ⟨bi, hbi, hevm⟩
    obtain ⟨k, hl, -⟩ := Table.mem_rowsWhere.mp hbi
    exact ⟨k, bi, hl, hevm⟩
  · rintro ⟨k, bi, hl, hevm⟩
    exact ⟨bi, Table.mem_rowsWhere.mpr ⟨k, hl, by rw [hevm]; rfl⟩, hevm⟩

/-- A batch brings at most its own rows. -/
theorem of_lookup_process {propagateEvm : Bool} {batch : Batch} {k : Int64 × Int64}
    {bi : BridgeInflow}
    (h : (Reputation.process propagateEvm db batch).bridgeInflows.lookup k = some bi) :
    db.bridgeInflows.lookup k = some bi ∨ bi ∈ batch.inflows := by
  refine (Table.of_lookup_insertNewAll h).imp_right fun hmem => ?_
  obtain ⟨bi', hbi', heq⟩ := List.mem_map.mp hmem
  obtain ⟨-, rfl⟩ := Prod.mk.inj heq
  exact hbi'

theorem loadPendingGuids_process {propagateEvm : Bool} {batch : Batch}
    (h : guid ∈ loadPendingGuids (Reputation.process propagateEvm db batch)) :
    guid ∈ loadPendingGuids db ∨ guid ∈ pendingGuids batch := by
  obtain ⟨k, bi, hl, hp⟩ := mem_loadPendingGuids.mp h
  obtain hold | hnew := of_lookup_process hl
  · exact Or.inl (mem_loadPendingGuids.mpr ⟨k, bi, hold, hp⟩)
  · exact Or.inr (List.mem_filterMap.mpr ⟨bi, hnew, (of_decide_eq_true hp).1⟩)

theorem evmSources_process {propagateEvm : Bool} {batch : Batch}
    (h : evm ∈ evmSources (Reputation.process propagateEvm db batch)) :
    evm ∈ evmSources db ∨ evm ∈ batchSources batch := by
  obtain ⟨k, bi, hl, hevm⟩ := mem_evmSources.mp h
  obtain hold | hnew := of_lookup_process hl
  · exact Or.inl (mem_evmSources.mpr ⟨k, bi, hold, hevm⟩)
  · exact Or.inr (List.mem_filterMap.mpr ⟨bi, hnew, hevm⟩)

variable {propagateEvm : Bool} {returned : List BridgeInflow} {faults : Faults} {answer : String}

/-- The inflows after a call whose `UPDATE` gets through, whatever the seeds do. -/
theorem bridgeInflows_writeEvmUnder (hconn : faults.connected = true)
    (hupdate : faults.update ≠ .failed) :
    (writeEvmUnder propagateEvm db guid answer returned faults).db.bridgeInflows =
      (updateEvmSource db guid answer).bridgeInflows := by
  unfold writeEvmUnder
  rw [if_neg (by simp [hconn])]
  split
  next heq => exact absurd heq hupdate
  next => rfl
  next =>
    split
    · rfl
    · rfl

/-- Of the pending GUIDs, it takes the one. -/
theorem loadPendingGuids_writeEvmUnder (hconn : faults.connected = true)
    (hupdate : faults.update ≠ .failed) {guid' : String}
    (h : guid' ∈ loadPendingGuids
      (writeEvmUnder propagateEvm db guid answer returned faults).db) :
    guid' ∈ loadPendingGuids db ∧ guid' ≠ guid := by
  obtain ⟨k, bi, hl, hp⟩ := mem_loadPendingGuids.mp h
  rw [bridgeInflows_writeEvmUnder hconn hupdate] at hl
  have hguid : guid' ≠ guid := by
    rintro rfl
    rw [notPending_updateEvmSource hl] at hp
    cases hp
  rw [lookup_updateEvmSource] at hl
  obtain ⟨bi', hl', rfl⟩ := Option.map_eq_some_iff.mp hl
  split at hp
  next => cases (of_decide_eq_true hp).2
  next => exact ⟨mem_loadPendingGuids.mpr ⟨k, bi', hl', hp⟩, hguid⟩

/-- To the sources, it adds the answer. -/
theorem evmSources_writeEvmUnder (hconn : faults.connected = true)
    (hupdate : faults.update ≠ .failed)
    (h : evm ∈ evmSources (writeEvmUnder propagateEvm db guid answer returned faults).db) :
    evm ∈ evmSources db ∨ evm = answer := by
  obtain ⟨k, bi, hl, hevm⟩ := mem_evmSources.mp h
  rw [bridgeInflows_writeEvmUnder hconn hupdate, lookup_updateEvmSource] at hl
  obtain ⟨bi', hl', rfl⟩ := Option.map_eq_some_iff.mp hl
  split at hevm
  next => exact Or.inr (Option.some.inj hevm).symm
  next => exact Or.inl (mem_evmSources.mpr ⟨k, bi', hl', hevm⟩)

/-- The extractor sends the sources of its batch. -/
theorem batchSources_extract (sdk : Sdk) (registry : BridgeRegistry) (txns : List Transaction) :
    batchSources (Reputation.extract sdk registry txns).batch =
      (Reputation.extract sdk registry txns).sentEvms := by
  show ((txns.filterMap (parseTxn sdk registry)).flatMap ParsedTxn.inflows).filterMap
      (·.evmSource) = (txns.filterMap (parseTxn sdk registry)).flatMap ParsedTxn.sentEvms
  rw [List.filterMap_flatMap]
  refine List.flatMap_congr fun parsed _ => ?_
  rw [ParsedTxn.inflows, List.filterMap_map]
  rfl

end Tables

/-! ## The invariant -/

/-- A GUID that is in the channel, in the queue or in a future. -/
def GuidOnItsWay (st : Pipeline) (guid : String) : Prop :=
  guid ∈ st.guidChannel ∨ guid ∈ st.enricher.guidQueue ∨ Asking st.enricher guid

/-- A source that the loop has received or is going to, or that it will load. -/
def SourceOnItsWay (st : Pipeline) (evm : String) : Prop :=
  evm ∈ st.evmChannel ∨ evm ∈ st.resolved ∨ evm ∈ st.enricher.received ∨
    Connecting st.enricher

/-- What every step keeps whose database calls succeed. -/
structure PipelineInv (ctx : PipelineCtx) (st : Pipeline) : Prop where
  retention : RetentionInv ctx.enricher st.enricher
  guids : ∀ guid ∈ loadPendingGuids st.db,
    GuidOnItsWay st guid ∨ maxRetries ≤ st.failures.count guid
  attempts : ∀ guid count, .guid guid count ∈ st.enricher.pending →
    count ≤ st.failures.count guid
  extracted : ∀ batch ∈ st.extracted, ∀ evm ∈ batchSources batch,
    evm ∈ st.evmChannel ∨ evm ∈ st.enricher.received
  sources : ∀ evm ∈ evmSources st.db, evm ≠ evmNullSentinel → SourceOnItsWay st evm

section Keep

variable {ctx : PipelineCtx} {st st' : Pipeline}

/-- What a connection loads is queued or has a row. -/
theorem retentionInv_countLoaded {ctx : LoopCtx} {st st' : EnricherState} {a : LoopAction}
    (hcase : ∀ a b, eqIgnoreAsciiCase a b = true → ctx.toLowercase a = ctx.toLowercase b)
    (h : RetentionInv ctx st) (hok : a.faults = .none) (hstep : step ctx st a = some st') :
    RetentionInv ctx (countLoaded a st') := by
  have hinv := retentionInv_step hcase h hok hstep
  unfold countLoaded
  split
  next loaded inflowSources =>
    simp only [step] at hstep
    split at hstep
    next hping =>
      split at hstep
      next hperm =>
        obtain rfl := Option.some.inj hstep
        have he : Extends
            { st with connection := .screening loaded, pinging := false }
            { st with
              connection := .screening loaded
              pinging := false
              received := inflowSources ++ st.received } :=
          extends_of_eq rfl rfl fun _ hkey => hkey
        have hpool : PoolInv ctx { st with
            connection := .screening loaded
            pinging := false
            received := inflowSources ++ st.received } :=
          hinv.pool.of_retains he.retains (by rintro _ ⟨⟩) (by rintro ⟨⟩)
        refine ⟨hpool, fun evm hevm hne => ?_⟩
        obtain hevm | hevm := List.mem_append.mp hevm
        -- A source that was not loaded has a row: the query leaves out those that have one.
        · by_cases hqueued : evm ∈ loaded
          · exact Or.inl ⟨loaded, rfl, evm, hqueued, rfl⟩
          · refine Or.inr (Or.inr ⟨evm, ?_, rfl⟩)
            by_contra hnone
            refine hqueued (hperm.mem_iff.mpr ?_)
            rw [pendingEvms, List.mem_dedup, List.mem_append]
            refine Or.inl (List.mem_filter.mpr ⟨hevm, decide_eq_true ⟨?_, ?_⟩⟩)
            · rintro rfl
              exact hne rfl
            · rw [Option.not_isSome_iff_eq_none.mp hnone]
              exact Bool.false_ne_true
        -- What was received before is kept as it was.
        · exact he.kept (hinv.kept evm hevm hne) Or.inl
      next => cases hstep
    next => cases hstep
  next => exact hinv

/-- The extractor's batch comes with messages for all of its sources. -/
theorem pipelineInv_extract (h : PipelineInv ctx st) (txns : List Transaction) :
    PipelineInv ctx { st with
      extracted := st.extracted ++ [(Reputation.extract ctx.sdk ctx.registry txns).batch]
      evmChannel :=
        st.evmChannel ++ (Reputation.extract ctx.sdk ctx.registry txns).sentEvms } := by
  refine ⟨h.retention, h.guids, h.attempts, fun batch hbatch evm hevm => ?_,
    fun evm hevm hne => ?_⟩
  · obtain hold | hnew := List.mem_append.mp hbatch
    · exact (h.extracted batch hold evm hevm).imp_left (List.mem_append_left _)
    -- The batch and its messages are made from the same transactions.
    · obtain rfl := List.mem_singleton.mp hnew
      rw [batchSources_extract] at hevm
      exact Or.inl (List.mem_append_right _ hevm)
  · exact (h.sources evm hevm hne).imp_left (List.mem_append_left _)

/-- A committed batch comes with messages for all of its GUIDs. -/
theorem pipelineInv_store (h : PipelineInv ctx st) {batch : Batch} {rest : List Batch}
    (hbatch : st.extracted = batch :: rest) :
    PipelineInv ctx { st with
      db := Reputation.process ctx.propagateEvm st.db batch
      extracted := rest
      guidChannel := st.guidChannel ++ pendingGuids batch } := by
  refine ⟨h.retention, fun guid hguid => ?_, h.attempts, fun batch' hbatch' => ?_,
    fun evm hevm hne => ?_⟩
  · obtain hold | hnew := loadPendingGuids_process hguid
    · exact (h.guids guid hold).imp_left (Or.imp_left (List.mem_append_left _))
    · exact Or.inl (Or.inl (List.mem_append_right _ hnew))
  · exact h.extracted batch' (hbatch ▸ List.mem_cons_of_mem _ hbatch')
  · obtain hold | hnew := evmSources_process hevm
    · exact h.sources evm hold hne
    · obtain hsent | hreceived := h.extracted batch (hbatch ▸ List.mem_cons_self) evm hnew
      · exact Or.inl hsent
      · exact Or.inr (Or.inr (Or.inl hreceived))

theorem pipelineInv_recvGuid (h : PipelineInv ctx st) {guid : String} {rest : List String}
    (hchannel : st.guidChannel = guid :: rest) :
    PipelineInv ctx { st with
      enricher := { st.enricher with guidQueue := st.enricher.guidQueue ++ [guid] }
      guidChannel := rest } := by
  have he : Extends st.enricher
      { st.enricher with guidQueue := st.enricher.guidQueue ++ [guid] } :=
    extends_of_eq rfl rfl fun _ hkey => hkey
  refine ⟨retentionInv_extends h.retention he rfl (fun _ _ _ hmem => hmem) (fun hp => hp) rfl,
    fun guid' hguid => ?_, h.attempts, h.extracted, h.sources⟩
  refine (h.guids guid' hguid).imp_left fun hway => ?_
  obtain hsent | hqueued | hasking := hway
  · rw [hchannel] at hsent
    obtain rfl | hsent := List.mem_cons.mp hsent
    · exact Or.inr (Or.inl (List.mem_append_right _ (List.mem_singleton_self _)))
    · exact Or.inl hsent
  · exact Or.inr (Or.inl (List.mem_append_left _ hqueued))
  · exact Or.inr (Or.inr hasking)

/-- What a turn leaves alone that keeps the GUIDs. -/
theorem PipelineInv.keepsGuids (h : PipelineInv ctx st) {enricher : EnricherState}
    (hkeeps : KeepsGuids st.enricher enricher) :
    (∀ guid, GuidOnItsWay st guid → GuidOnItsWay { st with enricher } guid) ∧
      (∀ guid count, .guid guid count ∈ enricher.pending → count ≤ st.failures.count guid) := by
  refine ⟨fun guid hway => ?_, fun guid count hmem => h.attempts guid count
    ((hkeeps.futures guid count).mp hmem)⟩
  obtain hsent | hqueued | ⟨count, hasking⟩ := hway
  · exact Or.inl hsent
  · exact Or.inr (Or.inl (hkeeps.queue ▸ hqueued))
  · exact Or.inr (Or.inr ⟨count, (hkeeps.futures guid count).mpr hasking⟩)

theorem pipelineInv_recvEvm (h : PipelineInv ctx st) {evm : String} {rest : List String}
    (hchannel : st.evmChannel = evm :: rest) :
    PipelineInv ctx { st with
      enricher := newEvm ctx.enricher
        { st.enricher with received := evm :: st.enricher.received } evm .none
      evmChannel := rest } := by
  have hadd : KeepsGuids st.enricher
      { st.enricher with received := evm :: st.enricher.received } :=
    ⟨rfl, fun _ _ => Iff.rfl, List.subset_cons_self _ _, fun h => h⟩
  have hnew := keepsGuids_newEvm ctx.enricher
    { st.enricher with received := evm :: st.enricher.received } evm .none
  have hkeeps := hadd.trans hnew
  obtain ⟨hguids, hattempts⟩ := h.keepsGuids hkeeps
  -- the head of the channel is among the received from now on
  have hhead : ∀ e, e ∈ st.evmChannel ∨ e ∈ st.enricher.received →
      e ∈ rest ∨ e ∈ (newEvm ctx.enricher
        { st.enricher with received := evm :: st.enricher.received } evm .none).received := by
    rintro e (hsent | hreceived)
    · rw [hchannel] at hsent
      obtain rfl | hsent := List.mem_cons.mp hsent
      · exact Or.inr (hnew.received List.mem_cons_self)
      · exact Or.inl hsent
    · exact Or.inr (hkeeps.received hreceived)
  refine ⟨retentionInv_newEvm h.retention evm,
    fun guid hguid => (h.guids guid hguid).imp_left (hguids guid), hattempts,
    fun batch hbatch e he => hhead e (h.extracted batch hbatch e he), fun e he hne => ?_⟩
  obtain hsent | hresolved | hreceived | hconnecting := h.sources e he hne
  · exact (hhead e (Or.inl hsent)).imp_right fun hr => Or.inr (Or.inl hr)
  · exact Or.inr (Or.inl hresolved)
  · exact (hhead e (Or.inr hreceived)).imp_right fun hr => Or.inr (Or.inl hr)
  · exact Or.inr (Or.inr (Or.inr (hkeeps.connecting hconnecting)))

/-- A reply that is written leaves no row waiting for the GUID. -/
theorem pipelineInv_writeAnswer (h : PipelineInv ctx st) {i count : ℕ} {guid : String}
    (hi : st.enricher.pending[i]? = some (.guid guid count)) {answer : String}
    {returned : List BridgeInflow} {faults : Faults} (hconn : faults.connected = true)
    (hupdate : faults.update ≠ .failed) {resolved : List String}
    (hresolved : st.resolved ⊆ resolved) (hanswer : answer ≠ evmNullSentinel → answer ∈ resolved) :
    PipelineInv ctx { st.writeAnswer ctx i guid answer returned faults with resolved } := by
  refine ⟨retentionInv_finish_guid h.retention hi, fun guid' hguid => ?_,
    fun guid' n hmem => h.attempts guid' n (mem_pending_finish hmem), h.extracted,
    fun evm hevm hne => ?_⟩
  · obtain ⟨hold, hother⟩ := loadPendingGuids_writeEvmUnder hconn hupdate hguid
    refine (h.guids guid' hold).imp_left (Or.imp_right (Or.imp_right ?_))
    rintro ⟨n, hmem⟩
    refine ⟨n, (mem_finish_or_eq hi hmem).resolve_right fun heq => hother ?_⟩
    exact (Future.guid.inj heq).1
  · obtain hold | rfl := evmSources_writeEvmUnder hconn hupdate hevm
    · exact (h.sources evm hold hne).imp_right (Or.imp_left fun hmem => hresolved hmem)
    · exact Or.inr (Or.inl (hanswer hne))

/-- A failed request is the last one only if it is the last of `MAX_RETRIES`. -/
theorem pipelineInv_guidFailed (h : PipelineInv ctx st) {i count : ℕ} {guid : String}
    (hi : st.enricher.pending[i]? = some (.guid guid count)) {enricher : EnricherState}
    (hstep : step ctx.enricher st.enricher (.guidDone i .failed .none) = some enricher) :
    PipelineInv ctx { st with enricher, failures := guid :: st.failures } := by
  have hcount := h.attempts guid count (List.mem_of_getElem? hi)
  have hmore : ∀ guid', st.failures.count guid' ≤ (guid :: st.failures).count guid' :=
    fun guid' => (List.sublist_cons_self guid st.failures).count_le guid'
  have hself : (guid :: st.failures).count guid = st.failures.count guid + 1 :=
    List.count_cons_self
  have hway : ∀ {futures : List Future} guid', guid' ≠ guid →
      (∀ f ∈ (st.enricher.finish i).pending, f ∈ futures) → Asking st.enricher guid' →
        ∃ n, Future.guid guid' n ∈ futures := by
    rintro futures guid' hother hsub ⟨n, hmem⟩
    refine ⟨n, hsub _ ((mem_finish_or_eq hi hmem).resolve_right fun heq => hother ?_)⟩
    exact (Future.guid.inj heq).1
  simp only [step, hi] at hstep
  split at hstep
  next hretry =>
    obtain rfl := Option.some.inj hstep
    refine ⟨retentionInv_retried h.retention hi, fun guid' hguid => ?_, fun guid' n hmem => ?_,
      h.extracted, h.sources⟩
    · obtain ⟨hsent | hqueued | hasking⟩ | hdropped := h.guids guid' hguid
      · exact Or.inl (Or.inl hsent)
      · exact Or.inl (Or.inr (Or.inl hqueued))
      · refine Or.inl (Or.inr (Or.inr ?_))
        -- The GUID goes back among the futures, with one attempt more.
        by_cases hself : guid' = guid
        · exact ⟨count + 1, hself ▸ List.mem_append_right _ (List.mem_singleton_self _)⟩
        · exact hway guid' hself (fun f hf => List.mem_append_left _ hf) hasking
      · exact Or.inr (hdropped.trans (hmore guid'))
    · obtain hold | hnew := List.mem_append.mp hmem
      · exact (h.attempts guid' n (mem_pending_finish hold)).trans (hmore guid')
      · obtain ⟨rfl, rfl⟩ := Future.guid.inj (List.mem_singleton.mp hnew)
        show count + 1 ≤ (guid' :: st.failures).count guid'
        omega
  next hlast =>
    obtain rfl := Option.some.inj hstep
    refine ⟨retentionInv_finish_guid h.retention hi, fun guid' hguid => ?_,
      fun guid' n hmem => (h.attempts guid' n (mem_pending_finish hmem)).trans (hmore guid'),
      h.extracted, h.sources⟩
    obtain ⟨hsent | hqueued | hasking⟩ | hdropped := h.guids guid' hguid
    · exact Or.inl (Or.inl hsent)
    · exact Or.inl (Or.inr (Or.inl hqueued))
    -- This was the last attempt: the failures so far are as many as there may be.
    · by_cases heq : guid' = guid
      · subst heq
        refine Or.inr ?_
        show maxRetries ≤ (guid' :: st.failures).count guid'
        omega
      · exact Or.inl (Or.inr (Or.inr (hway guid' heq (fun f hf => hf) hasking)))
    · exact Or.inr (hdropped.trans (hmore guid'))

/-- An answer that the loop takes is screened, or gets a row. -/
theorem pipelineInv_handOver (h : PipelineInv ctx st) {j : ℕ} {evm : String}
    (hj : st.resolved[j]? = some evm) :
    PipelineInv ctx { st with
      enricher := processEvms ctx.enricher
        { st.enricher with received := evm :: st.enricher.received } [⟨evm, 0⟩] 0 .none
      resolved := st.resolved.eraseIdx j } := by
  have he : Extends st.enricher { st.enricher with received := evm :: st.enricher.received } :=
    extends_of_eq rfl rfl fun _ hkey => hkey
  have hinv : RetentionInv ctx.enricher (processEvms ctx.enricher
      { st.enricher with received := evm :: st.enricher.received } [⟨evm, 0⟩] 0 .none) := by
    refine retentionInv_processEvms (h.retention.pool.of_retains he.retains
      h.retention.pool.idle h.retention.pool.ping) (fun _ _ => rfl) fun a ha hne => ?_
    obtain rfl | hold := List.mem_cons.mp ha
    · exact Or.inr ⟨_, List.mem_singleton_self _, rfl⟩
    · exact Or.inl (he.kept (h.retention.kept a hold hne) Or.inl)
  -- Receiving an answer and taking it up both leave the GUIDs as they are.
  have hadd : KeepsGuids st.enricher
      { st.enricher with received := evm :: st.enricher.received } :=
    ⟨rfl, fun _ _ => Iff.rfl, List.subset_cons_self _ _, fun h => h⟩
  have hprocess := keepsGuids_processEvms ctx.enricher
    { st.enricher with received := evm :: st.enricher.received } [⟨evm, 0⟩] 0 .none
  have hkeeps := hadd.trans hprocess
  obtain ⟨hguids, hattempts⟩ := h.keepsGuids hkeeps
  refine ⟨hinv, fun guid hguid => (h.guids guid hguid).imp_left (hguids guid), hattempts,
    fun batch hbatch e he => (h.extracted batch hbatch e he).imp_right fun hr => hkeeps.received hr,
    fun e he hne => ?_⟩
  obtain hsent | hresolved | hreceived | hconnecting := h.sources e he hne
  · exact Or.inl hsent
  · obtain ⟨k, hk⟩ := List.mem_iff_getElem?.mp hresolved
    -- The answer that is handed over is received; the others stay in the channel.
    by_cases hkj : k = j
    · subst hkj
      obtain rfl := Option.some.inj (hj.symm.trans hk)
      exact Or.inr (Or.inr (Or.inl (hprocess.received List.mem_cons_self)))
    · exact Or.inr (Or.inl (List.mem_eraseIdx_iff_getElem?.mpr ⟨k, hkj, hk⟩))
  · exact Or.inr (Or.inr (Or.inl (hkeeps.received hreceived)))
  · exact Or.inr (Or.inr (Or.inr (hkeeps.connecting hconnecting)))

/-- A turn of the loop's own keeps what is on its way, and a connection takes over what
was left to it. -/
theorem pipelineInv_turn (h : PipelineInv ctx st)
    (hcase : ∀ a b, eqIgnoreAsciiCase a b = true →
      ctx.enricher.toLowercase a = ctx.enricher.toLowercase b)
    {a : LoopAction} (hown : ownTurn st.db a = true) (hok : (PipelineAction.turn a).dbOk = true)
    {enricher : EnricherState} (hstep : step ctx.enricher st.enricher a = some enricher) :
    PipelineInv ctx { st with enricher := countLoaded a enricher } := by
  have hfaults : a.faults = .none := by
    cases a with
    | pingDone outcome => rfl
    | _ => exact of_decide_eq_true hok
  have hretention := retentionInv_countLoaded hcase h.retention hfaults hstep
  -- Only a tick moves GUIDs, from the queue into futures, and only a connection moves
  -- addresses; every other turn keeps both.
  cases ownTurn_of_step hown hstep with
  | tick asks =>
    refine ⟨hretention, fun guid hguid => (h.guids guid hguid).imp_left fun hway => ?_,
      fun guid count hmem => ?_,
      fun batch hbatch e he => (h.extracted batch hbatch e he).imp_right fun hr => asks.received hr,
      fun e he hne => ?_⟩
    · obtain hsent | hqueued | ⟨count, hasking⟩ := hway
      · exact Or.inl hsent
      · exact Or.inr (Or.inr ⟨0, (asks.futures guid 0).mpr (Or.inr ⟨hqueued, rfl⟩)⟩)
      · exact Or.inr (Or.inr ⟨count, (asks.futures guid count).mpr (Or.inl hasking)⟩)
    · obtain hold | ⟨-, rfl⟩ := (asks.futures guid count).mp hmem
      · exact h.attempts guid count hold
      · exact Nat.zero_le _
    · obtain hsent | hresolved | hreceived | hconnecting := h.sources e he hne
      · exact Or.inl hsent
      · exact Or.inr (Or.inl hresolved)
      · exact Or.inr (Or.inr (Or.inl (asks.received hreceived)))
      · exact Or.inr (Or.inr (Or.inr (asks.connecting hconnecting)))
  | @connected loaded keeps =>
    refine ⟨hretention, fun guid hguid => ?_, fun guid count hmem => ?_,
      fun batch hbatch e he => (h.extracted batch hbatch e he).imp_right fun hr =>
        List.mem_append_right _ (keeps.received hr), fun e he hne => ?_⟩
    · refine (h.guids guid hguid).imp_left (Or.imp_right (Or.imp ?_ ?_))
      · exact fun hqueued => keeps.queue ▸ hqueued
      · exact fun ⟨count, hasking⟩ => ⟨count, (keeps.futures guid count).mpr hasking⟩
    · exact h.attempts guid count ((keeps.futures guid count).mp hmem)
    · exact Or.inr (Or.inr (Or.inl (List.mem_append_left _ he)))
  | connectedWithoutRows => cases hok
  | other keeps loads =>
    rw [loads] at hretention ⊢
    obtain ⟨hguids, hattempts⟩ := h.keepsGuids keeps
    refine ⟨hretention, fun guid hguid => (h.guids guid hguid).imp_left (hguids guid), hattempts,
      fun batch hbatch e he => (h.extracted batch hbatch e he).imp_right fun hr => keeps.received hr,
      fun e he hne => ?_⟩
    obtain hsent | hresolved | hreceived | hconnecting := h.sources e he hne
    · exact Or.inl hsent
    · exact Or.inr (Or.inl hresolved)
    · exact Or.inr (Or.inr (Or.inl (keeps.received hreceived)))
    · exact Or.inr (Or.inr (Or.inr (keeps.connecting hconnecting)))

/-- A new process takes its GUIDs from the tables, and connects. -/
theorem pipelineInv_restart (ctx : PipelineCtx) {db : ReputationDb} {loaded : List String}
    (hloaded : loaded.Perm (loadPendingGuids db)) (riskScores : Table String EvmRiskScore)
    (now : NaiveDateTime) :
    PipelineInv ctx ⟨db, [], [], [], Screening.init loaded riskScores now, [], []⟩ :=
  ⟨retentionInv_init ctx.enricher loaded riskScores now,
    fun _ hguid => Or.inl (Or.inr (Or.inl (hloaded.mem_iff.mpr hguid))),
    fun _ _ hmem => (List.not_mem_nil hmem).elim, fun _ hbatch => (List.not_mem_nil hbatch).elim,
    fun _ _ _ => Or.inr (Or.inr (Or.inr ⟨false, rfl⟩))⟩

theorem pipelineInv_step
    (hcase : ∀ a b, eqIgnoreAsciiCase a b = true →
      ctx.enricher.toLowercase a = ctx.enricher.toLowercase b)
    {a : PipelineAction} (h : PipelineInv ctx st) (hok : a.dbOk = true)
    (hstep : st.step ctx a = some st') : PipelineInv ctx st' := by
  -- One lemma for each action; what is left is which guard the action passed.
  cases a with
  | extract txns =>
    obtain rfl := Option.some.inj hstep
    exact pipelineInv_extract h txns
  | store =>
    simp only [Pipeline.step] at hstep
    split at hstep
    next => cases hstep
    next batch rest hbatch =>
      obtain rfl := Option.some.inj hstep
      exact pipelineInv_store h hbatch
  | recvGuid =>
    simp only [Pipeline.step] at hstep
    split at hstep
    next => cases hstep
    next guid rest hchannel =>
      obtain rfl := Option.some.inj hstep
      exact pipelineInv_recvGuid h hchannel
  | recvEvm faults =>
    obtain rfl : faults = .none := of_decide_eq_true hok
    simp only [Pipeline.step] at hstep
    split at hstep
    next => cases hstep
    next evm rest hchannel =>
      obtain rfl := Option.some.inj hstep
      exact pipelineInv_recvEvm h hchannel
  | lzReply i reply returned faults =>
    obtain ⟨hconn, hupdate⟩ : faults.connected = true ∧ faults.update ≠ .failed :=
      of_decide_eq_true hok
    simp only [Pipeline.step] at hstep
    split at hstep
    next guid count hi =>
      -- An answer is written, also the answer that there is none; a failure is not.
      split at hstep
      next =>
        split at hstep
        next evm _ =>
          obtain rfl := Option.some.inj hstep
          exact pipelineInv_writeAnswer h hi hconn hupdate (List.subset_append_left _ _)
            fun _ => List.mem_append_right _ (List.mem_singleton_self _)
        next =>
          obtain rfl := Option.some.inj hstep
          exact pipelineInv_writeAnswer h hi hconn hupdate (fun _ hmem => hmem)
            fun hne => absurd rfl hne
        next =>
          obtain ⟨enricher, hturn, rfl⟩ := Option.map_eq_some_iff.mp hstep
          exact pipelineInv_guidFailed h hi hturn
      next => cases hstep
    next => cases hstep
  | handOver j faults =>
    obtain rfl : faults = .none := of_decide_eq_true hok
    simp only [Pipeline.step] at hstep
    split at hstep
    next evm hj =>
      obtain rfl := Option.some.inj hstep
      exact pipelineInv_handOver h hj
    next => cases hstep
  | turn a =>
    simp only [Pipeline.step] at hstep
    split at hstep
    next hown =>
      obtain ⟨enricher, hturn, rfl⟩ := Option.map_eq_some_iff.mp hstep
      exact pipelineInv_turn h hcase hown hok hturn
    next => cases hstep
  | restart loaded now =>
    simp only [Pipeline.step] at hstep
    split at hstep
    next hloaded =>
      obtain rfl := Option.some.inj hstep
      exact pipelineInv_restart ctx hloaded _ now
    next => cases hstep

theorem pipelineInv_run
    (hcase : ∀ a b, eqIgnoreAsciiCase a b = true →
      ctx.enricher.toLowercase a = ctx.enricher.toLowercase b)
    {now : NaiveDateTime} {actions : List PipelineAction}
    (hrun : Run (Pipeline.step ctx) (fun _ a => a.dbOk = true) (Pipeline.init now) actions st) :
    PipelineInv ctx st :=
  hrun.invariant (pipelineInv_restart ctx (List.Perm.refl []) ∅ now)
    fun _ _ _ h hok hstep => pipelineInv_step hcase h hok hstep

end Keep

/-- **Nothing is forgotten.** In every run whose database calls succeed: a GUID whose
inflow has no EVM source is on its way to the API, or has failed `MAX_RETRIES` times in
this life; and an EVM source is in a channel, in the loop or in the table of scores, up
to letter case, unless the screener is not connected yet. -/
theorem nothing_forgotten (ctx : PipelineCtx)
    (hcase : ∀ a b, eqIgnoreAsciiCase a b = true →
      ctx.enricher.toLowercase a = ctx.enricher.toLowercase b)
    (now : NaiveDateTime) (actions : List PipelineAction) (st : Pipeline)
    (hrun : Run (Pipeline.step ctx) (fun _ a => a.dbOk = true) (Pipeline.init now) actions st) :
    (∀ guid ∈ loadPendingGuids st.db,
      GuidOnItsWay st guid ∨ maxRetries ≤ st.failures.count guid) ∧
    ∀ evm ∈ evmSources st.db,
      ctx.enricher.toLowercase evm ≠ ctx.enricher.toLowercase evmNullSentinel →
        evm ∈ st.evmChannel ∨ evm ∈ st.resolved ∨ Connecting st.enricher ∨
          Kept ctx.enricher st.enricher (ctx.enricher.toLowercase evm) := by
  have hinv := pipelineInv_run hcase hrun
  refine ⟨hinv.guids, fun evm hevm hne => ?_⟩
  obtain hsent | hresolved | hreceived | hconnecting :=
    hinv.sources evm hevm fun heq => hne (congrArg _ heq)
  · exact Or.inl hsent
  · exact Or.inr (Or.inl hresolved)
  · exact Or.inr (Or.inr (Or.inr (hinv.retention.kept evm hreceived hne)))
  · exact Or.inr (Or.inr (Or.inl hconnecting))

/-- The GUID of a message, as a script carries it. -/
def messageGuid : String := "0x" ++ String.ofList (List.replicate 64 '1')

/-- What the texts of the delivery below parse to. -/
def lzSdk : Sdk where
  standardizeAddress s := s
  fromStr text :=
    [("received", .object [("to", .string "0xb"), ("amount", .string "5")]),
      ("guid", .string messageGuid)].lookup text
  bigDecimal text := [("5", (5 : ℚ))].lookup text
  parseTimestamp _ _ := 0

/-- A LayerZero bridge, whose sender is not in its event. -/
def lzRegistry : BridgeRegistry :=
  [{ bridgeName := "oft", moduleAddress := "0xc", eventType := "0xc::oft::Received"
     evmSourceFieldPath := none, recipientFieldPath := "to", amountFieldPath := "amount"
     chainIdFieldPath := none, payloadKind := some "layerzero_oft", enabled := true }]

def lzCtx : PipelineCtx := ⟨hourCtx, lzSdk, lzRegistry, true⟩

/-- A delivery of that bridge. -/
def lzTxn : Transaction where
  version := 1
  timestamp := some ⟨0, 0⟩
  info := some []
  txnData := some (.user [⟨"0xc::oft::Received", "received"⟩] (some (.scriptPayload ["guid"])))

/-- Its row, as the `UPDATE` returns it. -/
def lzRow : BridgeInflow where
  transactionVersion := 1
  eventIndex := 0
  bridgeName := "oft"
  aptosRecipient := "0xb"
  evmSource := none
  srcChainId := none
  assetType := none
  amount := 5
  lzGuid := some messageGuid
  transactionTimestamp := 0

/-- What the API says of the message. -/
def lzFound : LzReply :=
  .response 200 (some (.object [("data", .array [.object [("source", .object [("tx",
    .object [("from", .string "0xe1")])])]])]))

/-- Three lives: the first dies before the loop has the GUID; in the second a request
fails, and it dies when the next answer is written but not taken; the third connects. -/
def threeLives : List PipelineAction :=
  [.extract [lzTxn], .store, .restart [messageGuid] 0,
    .turn (.tick false .none), .lzReply 0 (.response 500 none) [lzRow] ⟨true, .done, []⟩,
    .lzReply 0 lzFound [lzRow] ⟨true, .unreported, []⟩, .restart [] 0,
    .turn (.tick false .none), .turn (.pingDone (.connected ["0xe1"] ["0xe1"]))]

theorem source_kept_through_three_lives :
    ∃ st, Run (Pipeline.step lzCtx) (fun _ a => a.dbOk = true) (Pipeline.init 0) threeLives st ∧
      (st.evmChannel = [] ∧ st.resolved = [] ∧ st.enricher.connection = .screening ["0xe1"] ∧
        evmSources st.db = ["0xe1"]) ∧
      Kept hourCtx st.enricher "0xe1" := by
  obtain ⟨st, hrun, hst⟩ := exists_run (Pipeline.step lzCtx) (fun _ a => a.dbOk = true)
    (Pipeline.init 0) threeLives
    (fun st => st.evmChannel = [] ∧ st.resolved = [] ∧
      st.enricher.connection = .screening ["0xe1"] ∧ evmSources st.db = ["0xe1"])
    (by decide +kernel)
  refine ⟨st, hrun, hst, ?_⟩
  obtain ⟨hchannel, hresolved, hconnection, hsources⟩ := hst
  have hlower : hourCtx.toLowercase "0xe1" = "0xe1" := by decide +kernel
  obtain hsent | hanswer | hconnecting | hkept :=
    (nothing_forgotten lzCtx (fun a b hab => of_decide_eq_true hab) 0 threeLives st hrun).2 "0xe1"
      (by rw [hsources]; exact List.mem_singleton_self _) (by decide +kernel)
  · rw [hchannel] at hsent
    cases hsent
  · rw [hresolved] at hanswer
    cases hanswer
  · exact absurd hconnecting (not_connecting_of_screening hconnection)
  · exact hlower ▸ hkept

end IndexerProcessors.Screening

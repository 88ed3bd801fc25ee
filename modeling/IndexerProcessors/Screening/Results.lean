import IndexerProcessors.Screening.Loop

/-!
# What one call of `screen_evms` saves

An address of the batch has one of four outcomes: it is a cache hit and skipped;
it is in the response and scored; it is missing from the response's `data`; or
there is no `data`. The last two are scored with a placeholder, and
`compute_risk_score` clears `to_be_updated` whatever it scores — so an address
the service said nothing about counts as screened. `clearsOnlyScreened_iff` says
for which responses that does not happen.

The call is put together here from the pieces of `Screening.Hypernative`;
`saving_from_call` says that the loop, which takes it apart at every wait, saves
what such a call saves.
-/

namespace IndexerProcessors.Screening

open IndexerProcessors.Lib
open IndexerProcessors.Reputation

/-! ## The call -/

/-- An address with the keys that are cached when `fetch_batch` looks it up; other
tasks use the cache meanwhile. -/
structure CacheLookup where
  addr : String
  cache : List String
  deriving DecidableEq, Repr

/-- `self.cache.get(&addr.to_lowercase()).await.is_some()` -/
def CacheLookup.Hit (toLowercase : String → String) (l : CacheLookup) : Prop :=
  toLowercase l.addr ∈ l.cache

instance (toLowercase : String → String) (l : CacheLookup) : Decidable (l.Hit toLowercase) :=
  inferInstanceAs (Decidable (_ ∈ _))

/-- One address of the pass over the cache. -/
def cacheStep (toLowercase : String → String) (acc : List HypernativeResult × List String)
    (l : CacheLookup) : List HypernativeResult × List String :=
  if l.Hit toLowercase then (acc.1 ++ [cacheHit l.addr], acc.2) else (acc.1, acc.2 ++ [l.addr])

/-- The pass of `fetch_batch` over the cache: its results so far and `to_process`. -/
def cachePass (toLowercase : String → String) (lookups : List CacheLookup) :
    List HypernativeResult × List String :=
  lookups.foldl (cacheStep toLowercase) ([], [])

/-- `fetch_batch`; the second component is what it puts into the cache. -/
def fetchBatch (toLowercase : String → String) (lookups : List CacheLookup) (response : Response) :
    Option (List HypernativeResult × List String) :=
  let (results, toProcess) := cachePass toLowercase lookups
  if toProcess = [] then some (results, []) else handleResponse toLowercase results toProcess response

/-- The part of the batch that is screened at all. -/
def asked (lookups : List CacheLookup) : List CacheLookup :=
  lookups.filter (·.addr ≠ evmNullSentinel)

/-- `screen_evms`: the addresses it saves a score for, with the result scored. -/
def screenEvms (toLowercase : String → String) (lookups : List CacheLookup) (response : Response) :
    List (String × HypernativeResult) :=
  match fetchBatch toLowercase (asked lookups) response with
  | none => []
  | some (results, _) => scoresToSave results ((asked lookups).map (·.addr))

/-! ## What it should save -/

/-- The response's `data` array. -/
def Response.data : Response → Option (List Json)
  | .failed => none
  | .body json => (json.get "data").bind Json.asArray

/-- The response has an entry of the address, in any letter case. -/
def HasEntry (response : Response) (a : String) : Prop :=
  ∃ data, response.data = some data ∧ ∃ entry ∈ data, ∃ s,
    (entry.get "address").bind Json.asStr = some s ∧ eqIgnoreAsciiCase s a = true

/-- `to_be_updated` is cleared for addresses in the response only; the others are
saved in error, with score 0. -/
structure ClearsOnlyScreened (response : Response) (row : EvmRiskScore) : Prop where
  screened : row.toBeUpdated = false → HasEntry response row.evmAddress
  absent : ¬ HasEntry response row.evmAddress → row.riskScore = 0 ∧ row.toBeUpdated = true

/-- The response is not a failure, and no entry of it is malformed. -/
def Response.Usable : Response → Prop
  | .failed => False
  | .body json => ∀ data, (json.get "data").bind Json.asArray = some data → ∀ entry ∈ data,
      ((entry.get "recommendation").bind Json.asStr).isSome ∧
        ((entry.get "severity").bind Json.asStr).isSome

/-- Some cache hit of the batch is this address, up to letter case. -/
def Suppressed (toLowercase : String → String) (lookups : List CacheLookup) (a : String) : Prop :=
  ∃ l ∈ lookups, l.Hit toLowercase ∧ eqIgnoreAsciiCase l.addr a = true

/-- A response that is used at all covers every screened address that no cache hit
covers. -/
def EveryoneAnswered (toLowercase : String → String) (lookups : List CacheLookup)
    (response : Response) : Prop :=
  response.Usable → ∀ l ∈ asked lookups,
    Suppressed toLowercase (asked lookups) l.addr ∨ HasEntry response l.addr

/-! ## The pass over the cache -/

theorem cachePass_concat (toLowercase : String → String) (lookups : List CacheLookup)
    (l : CacheLookup) :
    cachePass toLowercase (lookups ++ [l]) = cacheStep toLowercase (cachePass toLowercase lookups) l :=
  List.foldl_append

/-- The pass splits the batch into hits and misses. -/
theorem cachePass_eq (toLowercase : String → String) (lookups : List CacheLookup) :
    cachePass toLowercase lookups =
      ((lookups.filter fun l => l.Hit toLowercase).map fun l => cacheHit l.addr,
       (lookups.filter fun l => ¬ l.Hit toLowercase).map (·.addr)) := by
  induction lookups using List.reverseRecOn with
  | nil => rfl
  | append_singleton lookups l ih =>
    rw [cachePass_concat, ih, cacheStep]
    by_cases hl : l.Hit toLowercase
    · rw [if_pos hl]
      simp [hl]
    · rw [if_neg hl]
      simp [hl]

/-! ## The response -/

theorem parseEntry_isOk_iff {entry : Json} :
    (∃ r, parseEntry entry = .ok r) ↔
      ((entry.get "recommendation").bind Json.asStr).isSome ∧
        ((entry.get "severity").bind Json.asStr).isSome := by
  simp only [parseEntry, bind, Except.bind, pure, Except.pure]
  cases (entry.get "recommendation").bind Json.asStr with
  | none => simp
  | some recommendation => cases (entry.get "severity").bind Json.asStr <;> simp

theorem parseData_isOk_iff {data : List Json} :
    (∃ results, data.mapM parseEntry = .ok results) ↔
      ∀ entry ∈ data, ∃ r, parseEntry entry = .ok r := by
  induction data with
  | nil =>
    constructor
    · intro _ entry hentry
      cases hentry
    · intro _
      exact ⟨[], rfl⟩
  | cons entry data ih =>
    rw [List.forall_mem_cons, ← ih, List.mapM_cons]
    cases parseEntry entry with
    | error e => simp [bind, Except.bind]
    | ok r => cases data.mapM parseEntry <;> simp [bind, Except.bind, pure, Except.pure]

/-- A usable response is used, and what it adds to the results is no cache hit. -/
theorem handleResponse_usable (toLowercase : String → String) (results : List HypernativeResult)
    (toProcess : List String) {response : Response} (h : response.Usable) :
    ∃ newResults toCache, (∀ r ∈ newResults, r.duplicate = false) ∧
      handleResponse toLowercase results toProcess response =
        some (results ++ newResults, toCache) := by
  cases response with
  | failed => exact h.elim
  | body json =>
    cases hdata : (json.get "data").bind Json.asArray with
    | none =>
      refine ⟨[], [], (fun r hr => nomatch hr), ?_⟩
      simp only [handleResponse, hdata, List.append_nil]
    | some data =>
      obtain ⟨newResults, hparse⟩ := parseData_isOk_iff.mpr fun entry hentry =>
        parseEntry_isOk_iff.mpr (h data hdata entry hentry)
      refine ⟨newResults, toProcess.map toLowercase, ?_, ?_⟩
      · intro r hr
        obtain ⟨entry, _, hentry⟩ := exists_of_mem_parseData hparse r hr
        exact duplicate_parseEntry hentry
      · simp only [handleResponse, hdata, hparse]

/-- Only a usable response is used. -/
theorem usable_of_handleResponse {toLowercase : String → String}
    {results results' : List HypernativeResult} {toProcess toCache : List String}
    {response : Response}
    (h : handleResponse toLowercase results toProcess response = some (results', toCache)) :
    response.Usable := by
  cases response with
  | failed => cases h
  | body json =>
    intro data hdata entry hentry
    simp only [handleResponse, hdata] at h
    split at h
    next => cases h
    next newResults hparse =>
      exact parseEntry_isOk_iff.mp (parseData_isOk_iff.mp ⟨newResults, hparse⟩ entry hentry)

/-! ## What is saved -/

/-- With the cache hits in front, a screened address is saved iff it matches none of
them. -/
theorem exists_mem_scoresToSave_iff {hits newResults : List HypernativeResult}
    {addrs : List String} {a : String} (hhits : ∀ r ∈ hits, r.duplicate = true)
    (hnew : ∀ r ∈ newResults, r.duplicate = false) :
    (∃ r, (a, r) ∈ scoresToSave (hits ++ newResults) addrs) ↔
      a ∈ addrs ∧ ∀ r ∈ hits, eqIgnoreAsciiCase r.address a = false := by
  constructor
  -- The first result that matches decides, and the hits come first.
  · rintro ⟨r, hr⟩
    refine ⟨mem_addrs_of_mem_scoresToSave hr, fun hit hhit => ?_⟩
    by_contra heq
    obtain ⟨evm, _, hp⟩ := List.mem_filterMap.mp hr
    cases hf : hits.find? fun r => eqIgnoreAsciiCase r.address evm with
    | none =>
      rw [List.find?_append, hf, Option.none_or] at hp
      have hevm : evm = a := by
        split at hp
        next => exact (Prod.mk.inj (Option.some.inj hp)).1
        next =>
          split at hp
          next => cases hp
          next => exact (Prod.mk.inj (Option.some.inj hp)).1
      subst hevm
      exact (List.find?_eq_none.mp hf hit hhit) (by simpa using heq)
    | some first =>
      rw [List.find?_append, hf, Option.some_or] at hp
      simp only [hhits first (List.mem_of_find?_eq_some hf), if_true] at hp
      cases hp
  · rintro ⟨ha, hnone⟩
    have hfind : (hits ++ newResults).find? (fun r => eqIgnoreAsciiCase r.address a) =
        newResults.find? fun r => eqIgnoreAsciiCase r.address a := by
      have hhit : hits.find? (fun r => eqIgnoreAsciiCase r.address a) = none :=
        List.find?_eq_none.mpr fun r hr => by simp [hnone r hr]
      rw [List.find?_append, hhit, Option.none_or]
    cases hf : newResults.find? fun r => eqIgnoreAsciiCase r.address a with
    | none => exact ⟨notAvailable a, List.mem_filterMap.mpr ⟨a, ha, by rw [hfind, hf]⟩⟩
    | some r =>
      refine ⟨r, List.mem_filterMap.mpr ⟨a, ha, ?_⟩⟩
      rw [hfind, hf]
      simp [hnew r (List.mem_of_find?_eq_some hf)]

/-- An address is saved iff the response is used and no cache hit covers it. -/
theorem exists_mem_screenEvms_iff {toLowercase : String → String} {lookups : List CacheLookup}
    {response : Response} {a : String} :
    (∃ r, (a, r) ∈ screenEvms toLowercase lookups response) ↔
      response.Usable ∧ (∃ l ∈ asked lookups, l.addr = a) ∧
        ¬ Suppressed toLowercase (asked lookups) a := by
  have hsuppressed : ∀ a, ¬ Suppressed toLowercase (asked lookups) a ↔
      ∀ r ∈ (cachePass toLowercase (asked lookups)).1, eqIgnoreAsciiCase r.address a = false := by
    intro a
    simp only [Suppressed, cachePass_eq, List.mem_map, List.mem_filter, decide_eq_true_eq]
    constructor
    · rintro hnone r ⟨l, ⟨hl, hhit⟩, rfl⟩
      by_contra heq
      exact hnone ⟨l, hl, hhit, Bool.not_eq_false _ ▸ heq⟩
    · rintro hall ⟨l, hl, hhit, heq⟩
      have hfalse := hall _ ⟨l, ⟨hl, hhit⟩, rfl⟩
      exact absurd heq (Bool.not_eq_true _ ▸ hfalse)
  have hhits : ∀ r ∈ (cachePass toLowercase (asked lookups)).1, r.duplicate = true := by
    simp only [cachePass_eq, List.mem_map]
    rintro r ⟨l, _, rfl⟩
    rfl
  -- what is in the batch and no hit of its own is sent
  have hsent : ∀ l ∈ asked lookups, ¬ Suppressed toLowercase (asked lookups) l.addr →
      (cachePass toLowercase (asked lookups)).2 ≠ [] := by
    intro l hl hnone
    have hmiss : ¬ l.Hit toLowercase := fun hhit =>
      hnone ⟨l, hl, hhit, by simp [eqIgnoreAsciiCase]⟩
    rw [cachePass_eq]
    exact List.ne_nil_of_mem (List.mem_map_of_mem (List.mem_filter.mpr ⟨hl, by simpa using hmiss⟩))
  have haddr : a ∈ (asked lookups).map (·.addr) ↔ ∃ l ∈ asked lookups, l.addr = a := List.mem_map
  by_cases hnil : (cachePass toLowercase (asked lookups)).2 = []
  · -- all of the batch are hits: nothing is sent, and nothing is saved
    constructor
    · rintro ⟨r, hr⟩
      simp only [screenEvms, fetchBatch, hnil, if_true] at hr
      rw [← List.append_nil (cachePass toLowercase (asked lookups)).1] at hr
      obtain ⟨ha, hnone⟩ :=
        (exists_mem_scoresToSave_iff hhits (List.forall_mem_nil _)).mp ⟨r, hr⟩
      obtain ⟨l, hl, rfl⟩ := haddr.mp ha
      exact absurd hnil (hsent l hl ((hsuppressed _).mpr hnone))
    · rintro ⟨_, ⟨l, hl, rfl⟩, hnone⟩
      exact absurd hnil (hsent l hl hnone)
  · by_cases husable : response.Usable
    · obtain ⟨newResults, toCache, hnew, hhandle⟩ := handleResponse_usable toLowercase
        (cachePass toLowercase (asked lookups)).1 (cachePass toLowercase (asked lookups)).2 husable
      simp only [screenEvms, fetchBatch, if_neg hnil, hhandle]
      rw [exists_mem_scoresToSave_iff hhits hnew, haddr, hsuppressed]
      exact ⟨fun h => ⟨husable, h⟩, fun h => h.2⟩
    · have hnone : handleResponse toLowercase (cachePass toLowercase (asked lookups)).1
          (cachePass toLowercase (asked lookups)).2 response = none := by
        by_contra hsome
        obtain ⟨⟨results, toCache⟩, hsome⟩ := Option.ne_none_iff_exists'.mp hsome
        exact husable (usable_of_handleResponse hsome)
      simp only [screenEvms, fetchBatch, if_neg hnil, hnone]
      constructor
      · rintro ⟨r, hr⟩
        cases hr
      · exact fun h => absurd h.1 husable

/-- Screening clears `to_be_updated` for addresses in the response only, exactly when
a response that is used covers every screened address that no cache hit covers. -/
theorem clearsOnlyScreened_iff (toLowercase : String → String) (screenerUrl : String)
    (lookups : List CacheLookup) (response : Response) :
    (∀ p ∈ screenEvms toLowercase lookups response, ∀ now,
        ClearsOnlyScreened response (computeRiskScore toLowercase now p.1 p.2 screenerUrl)) ↔
      EveryoneAnswered toLowercase lookups response := by
  constructor
  · intro h husable l hl
    by_cases hsup : Suppressed toLowercase (asked lookups) l.addr
    · exact Or.inl hsup
    · obtain ⟨r, hr⟩ := exists_mem_screenEvms_iff.mpr ⟨husable, ⟨l, hl, rfl⟩, hsup⟩
      exact Or.inr ((h _ hr 0).screened rfl)
  · rintro h ⟨a, r⟩ hp now
    obtain ⟨husable, ⟨l, hl, rfl⟩, hsup⟩ := exists_mem_screenEvms_iff.mp ⟨r, hp⟩
    have hentry : HasEntry response l.addr := (h husable l hl).resolve_left hsup
    exact ⟨fun _ => hentry, fun habsent => absurd hentry habsent⟩

/-- An empty `data` for one address that is not cached. -/
theorem clearsOnlyScreened_empty_data :
    ¬ ∀ p ∈ screenEvms String.toLower [⟨"0xa1", []⟩] (.body (.object [("data", .array [])])),
      ∀ now, ClearsOnlyScreened (.body (.object [("data", .array [])]))
        (computeRiskScore String.toLower now p.1 p.2 "url") := by
  intro h
  have hsaved : ("0xa1", notAvailable "0xa1") ∈
      screenEvms String.toLower [⟨"0xa1", []⟩] (.body (.object [("data", .array [])])) := by
    decide
  obtain ⟨data, hdata, entry, hentry, _⟩ := (h _ hsaved 0).screened rfl
  obtain rfl := Option.some.inj hdata
  cases hentry

/-! ## The loop makes these calls -/

/-- How a turn moves a batch in the pool on. -/
inductive PhaseStep (ctx : LoopCtx) (cache : List String) (addrs : List String) :
    EvmPhase → EvmPhase → Prop
  | started : PhaseStep ctx cache addrs .waiting (.fetching [] [] addrs)
  | hit {results toProcess addr rest} (hcached : ctx.toLowercase addr ∈ cache) :
      PhaseStep ctx cache addrs (.fetching results toProcess (addr :: rest))
        (.fetching (results ++ [cacheHit addr]) toProcess rest)
  | missed {results toProcess addr rest} (hcached : ctx.toLowercase addr ∉ cache) :
      PhaseStep ctx cache addrs (.fetching results toProcess (addr :: rest))
        (.fetching results (toProcess ++ [addr]) rest)
  | answered {results toProcess results' toCache response}
      (hfetch : (if toProcess = [] then some (results, [])
        else handleResponse ctx.toLowercase results toProcess response) = some (results', toCache)) :
      PhaseStep ctx cache addrs (.fetching results toProcess [])
        (.saving toCache (scoresToSave results' addrs))
  | cached {key toCache toSave} :
      PhaseStep ctx cache addrs (.saving (key :: toCache) toSave) (.saving toCache toSave)
  | saved {p toSave} : PhaseStep ctx cache addrs (.saving [] (p :: toSave)) (.saving [] toSave)

/-- A batch in the pool after a turn was there before it, or is new, or was moved on. -/
inductive BatchOrigin (ctx : LoopCtx) (st : EnricherState) (evms : List EvmItem) (count : ℕ)
    (phase : EvmPhase) : Prop
  | old (h : .evm evms count phase ∈ st.pending)
  | new (h : phase = .waiting)
  | moved (before : EvmPhase) (h : .evm evms count before ∈ st.pending)
      (hstep : PhaseStep ctx st.cache (itemAddrs evms) before phase)

theorem batchOrigin_processEvms {ctx : LoopCtx} {st st₀ : EnricherState} {faults : DbFaults}
    {evms batch : List EvmItem} {count n : ℕ} {phase : EvmPhase}
    (hold : ∀ f ∈ st.pending, (∃ guid n, f = .guid guid n) ∨ f ∈ st₀.pending)
    (h : .evm evms count phase ∈ (processEvms ctx st batch n faults).pending) :
    BatchOrigin ctx st₀ evms count phase := by
  have hbefore : .evm evms count phase ∈ st.pending → BatchOrigin ctx st₀ evms count phase := by
    intro hmem
    rcases hold _ hmem with ⟨guid, n, heq⟩ | hmem
    · cases heq
    · exact .old hmem
  cases hc : st.connection with
  | connecting pinged =>
    obtain ⟨t, heq⟩ := (processEvms_connecting ctx faults hc batch n).1.frame
    rw [heq] at h
    exact hbefore h
  | screening evmQueue =>
    rcases processEvms_screening ctx faults hc batch n with ⟨_, heq⟩ | ⟨_, heq⟩ | ⟨_, t, heq, _⟩
    · rw [heq] at h
      exact hbefore h
    · rw [heq] at h
      rcases List.mem_append.mp h with h | h
      · exact hbefore h
      · obtain ⟨_, _, hphase⟩ := Future.evm.inj (List.mem_singleton.mp h)
        exact .new hphase
    · rw [heq] at h
      exact hbefore h

theorem batchOrigin_advance {ctx : LoopCtx} {st : EnricherState} {i : ℕ} {evms' : List EvmItem}
    {count' : ℕ} {before after : EvmPhase} {evms : List EvmItem} {count : ℕ} {phase : EvmPhase}
    (hi : st.pending[i]? = some (.evm evms' count' before))
    (hstep : PhaseStep ctx st.cache (itemAddrs evms') before after)
    (h : .evm evms count phase ∈ (st.advance i (.evm evms' count' after)).pending) :
    BatchOrigin ctx st evms count phase := by
  rcases mem_pending_advance h with h | heq
  · exact .old h
  · obtain ⟨rfl, rfl, rfl⟩ := Future.evm.inj heq
    exact .moved before (List.mem_of_getElem? hi) hstep

theorem newEvm_pending (ctx : LoopCtx) (st : EnricherState) (evm : String) (faults : DbFaults) :
    (newEvm ctx st evm faults).pending = st.pending := by
  cases hc : st.connection with
  | connecting pinged =>
    rw [newEvm_connecting st hc]
    have hsaved : SavedUnlessFresh ctx faults st (saveUnlessFresh ctx faults st evm) :=
      savedUnlessFresh st evm
    obtain ⟨t, heq⟩ := hsaved.frame
    rw [heq]
  | screening evmQueue => rw [newEvm_screening st hc]

/-- A future is moved on to one place. -/
theorem advance_inj {st : EnricherState} {i : ℕ} {f g g' : Future} (hi : st.pending[i]? = some f)
    (h : st.advance i g = st.advance i g') : g = g' := by
  have hlt : i < st.pending.length := (List.getElem?_eq_some_iff.mp hi).1
  have hpending : (st.pending.set i g)[i]? = (st.pending.set i g')[i]? :=
    congrArg (fun st : EnricherState => st.pending[i]?) h
  rw [List.getElem?_set_self hlt, List.getElem?_set_self hlt] at hpending
  exact Option.some.inj hpending

theorem notCached_of_missed {ctx : LoopCtx} {st : EnricherState} {i count : ℕ}
    {evms : List EvmItem} {results : List HypernativeResult} {toProcess rest : List String}
    {addr : String}
    (hi : st.pending[i]? = some (.evm evms count (.fetching results toProcess (addr :: rest))))
    (hstep : step ctx st (.evmCheck i) =
      some (st.advance i (.evm evms count (.fetching results (toProcess ++ [addr]) rest)))) :
    ctx.toLowercase addr ∉ st.cache := by
  intro hcached
  simp only [step, hi, if_pos hcached, Option.some.injEq] at hstep
  have heq := advance_inj hi hstep
  simp at heq

theorem phaseStep_of_answered {ctx : LoopCtx} {st : EnricherState} {i count : ℕ}
    {evms : List EvmItem} {results results' : List HypernativeResult}
    {toProcess toCache : List String} {response : Response} {faults : DbFaults}
    (hi : st.pending[i]? = some (.evm evms count (.fetching results toProcess [])))
    (hresponse : handleResponse ctx.toLowercase results toProcess response =
      some (results', toCache))
    (hstep : step ctx st (.evmRespond i response faults) =
      some (st.advance i (.evm evms count
        (.saving toCache (scoresToSave results' (itemAddrs evms)))))) :
    PhaseStep ctx st.cache (itemAddrs evms) (.fetching results toProcess [])
      (.saving toCache (scoresToSave results' (itemAddrs evms))) := by
  by_cases hnil : toProcess = []
  · -- no request was made, so the response is not the loop's to use
    simp only [step, hi, if_pos hnil, Option.some.injEq] at hstep
    obtain ⟨_, _, hphase⟩ := Future.evm.inj (advance_inj hi hstep)
    rw [← hphase]
    exact @PhaseStep.answered _ _ _ _ _ _ _ response (if_pos hnil)
  · exact @PhaseStep.answered _ _ _ _ _ _ _ response (by rw [if_neg hnil, hresponse])

/-- What a turn does to the batches in the pool. -/
theorem batchOrigin_of_step {ctx : LoopCtx} {st st' : EnricherState} {a : LoopAction}
    (hstep : step ctx st a = some st') {evms : List EvmItem} {count : ℕ} {phase : EvmPhase}
    (h : .evm evms count phase ∈ st'.pending) : BatchOrigin ctx st evms count phase := by
  cases turn_of_step hstep with
  | recvGuid | pingFailed | connected | evicted | clock => exact .old h
  | recvEvm evm faults =>
    refine .old ?_
    have hpending := newEvm_pending ctx { st with received := evm :: st.received } evm faults
    rw [hpending] at h
    exact h
  -- The futures a tick adds are of GUIDs; batches come from the queue.
  | tick reconnect faults =>
    refine batchOrigin_processEvms (fun f hf => ?_) h
    rcases List.mem_append.mp hf with hf | hf
    · rcases connect_cases st reconnect with ⟨_, _, _, _, heq⟩ | ⟨_, _, heq⟩
      all_goals
        rw [heq] at hf
        exact Or.inr hf
    · obtain ⟨guid, _, rfl⟩ := List.mem_map.mp hf
      exact Or.inl ⟨guid, 0, rfl⟩
  | @guidResolved i _ _ evm faults hi =>
    refine batchOrigin_processEvms (fun f hf => Or.inr ?_) h
    have hf' : f ∈ (st.finish i).pending := hf
    exact mem_pending_finish hf'
  | guidEnded hi _ => exact .old (mem_pending_finish h)
  | guidRetried hi =>
    rcases List.mem_append.mp h with h | h
    · exact .old (mem_pending_finish h)
    · cases List.mem_singleton.mp h
  | evmSkipped hi hnone => exact .old (mem_pending_finish h)
  | evmStarted hi => exact batchOrigin_advance hi .started h
  | evmHit hi hcached => exact batchOrigin_advance hi (.hit hcached) h
  | evmMissed hi => exact batchOrigin_advance hi (.missed (notCached_of_missed hi hstep)) h
  | @evmAllHit i _ _ _ response _ hi =>
    exact batchOrigin_advance hi (@PhaseStep.answered _ _ _ _ _ _ _ response (if_pos rfl)) h
  | evmFailed faults hi hne hresponse =>
    exact batchOrigin_processEvms (fun f hf => Or.inr (mem_pending_finish hf)) h
  | evmAnswered hi hresponse =>
    exact batchOrigin_advance hi (phaseStep_of_answered hi hresponse hstep) h
  | evmCached hi => exact batchOrigin_advance hi .cached h
  | @evmSaved i evms' count' evm result toSave faults hi =>
    obtain ⟨t, heq⟩ := save_eq faults (st.advance i (.evm evms' count' (.saving [] toSave)))
      (computeRiskScore ctx.toLowercase st.now evm result ctx.screenerUrl)
    rw [heq] at h
    exact batchOrigin_advance hi .saved h
  | evmDone hi => exact .old (mem_pending_finish h)

/-- How far a call has come: the addresses looked up so far, and what is still to be
saved of its scores. -/
def CallPhase (ctx : LoopCtx) (addrs : List String) : EvmPhase → Prop
  | .waiting => True
  | .fetching results toProcess rest => ∃ lookups : List CacheLookup,
      lookups.map (·.addr) ++ rest = addrs ∧
        cachePass ctx.toLowercase lookups = (results, toProcess)
  | .saving _ toSave => ∃ (lookups : List CacheLookup) (response : Response),
      lookups.map (·.addr) = addrs ∧ toSave <:+ screenEvms ctx.toLowercase lookups response

/-- Every batch in the pool is somewhere in a call for its addresses. -/
def CallsInv (ctx : LoopCtx) (st : EnricherState) : Prop :=
  ∀ evms count phase, .evm evms count phase ∈ st.pending → CallPhase ctx (itemAddrs evms) phase

theorem callPhase_step {ctx : LoopCtx} {cache : List String} {evms : List EvmItem}
    {before after : EvmPhase} (hstep : PhaseStep ctx cache (itemAddrs evms) before after)
    (h : CallPhase ctx (itemAddrs evms) before) : CallPhase ctx (itemAddrs evms) after := by
  cases hstep with
  | started => exact ⟨[], rfl, rfl⟩
  | @hit results toProcess addr rest hcached =>
    obtain ⟨lookups, haddrs, hpass⟩ := h
    refine ⟨lookups ++ [⟨addr, cache⟩], ?_, ?_⟩
    · rw [← haddrs]
      simp
    · rw [cachePass_concat, hpass]
      exact if_pos hcached
  | @missed results toProcess addr rest hcached =>
    obtain ⟨lookups, haddrs, hpass⟩ := h
    refine ⟨lookups ++ [⟨addr, cache⟩], ?_, ?_⟩
    · rw [← haddrs]
      simp
    · rw [cachePass_concat, hpass]
      exact if_neg hcached
  | @answered results toProcess results' toCache response hfetch =>
    obtain ⟨lookups, haddrs, hpass⟩ := h
    rw [List.append_nil] at haddrs
    have hasked : asked lookups = lookups := by
      refine List.filter_eq_self.mpr fun l hl => ?_
      have hmem : l.addr ∈ itemAddrs evms := haddrs ▸ List.mem_map_of_mem hl
      exact decide_eq_true (mem_screenAddrs.mp hmem).2
    refine ⟨lookups, response, haddrs, ?_⟩
    simp only [screenEvms, fetchBatch, hasked, hpass, hfetch, haddrs]
    exact List.suffix_refl _
  | cached => exact h
  | @saved p toSave =>
    obtain ⟨lookups, response, haddrs, hsuffix⟩ := h
    exact ⟨lookups, response, haddrs, (List.suffix_cons p toSave).trans hsuffix⟩

/-- What the loop saves is what a call saves, for the addresses of the batch, the
cache as each of them met it, and the response that came. -/
theorem saving_from_call (ctx : LoopCtx) (pendingGuids : List String)
    (riskScores : Table String EvmRiskScore) (now : NaiveDateTime) (trace : List LoopAction)
    (st : EnricherState)
    (hrun : Run (step ctx) (fun _ _ => True) (init pendingGuids riskScores now) trace st) :
    CallsInv ctx st := by
  have hinit : CallsInv ctx (init pendingGuids riskScores now) := by
    intro evms count phase hmem
    cases hmem
  refine hrun.invariant hinit fun s a s' h _ hstep => ?_
  intro evms count phase hmem
  cases batchOrigin_of_step hstep hmem with
  | old hold => exact h evms count phase hold
  | new hnew =>
    subst hnew
    trivial
  | moved before hold hphase => exact callPhase_step hphase (h evms count before hold)

end IndexerProcessors.Screening

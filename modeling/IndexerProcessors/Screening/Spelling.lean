import IndexerProcessors.Screening.Retention

/-!
# Two spellings of one address

The hex digits of an EVM address may come in either case. The cache, the merge of
the queue into a batch and the matching of results take spellings that differ in
case for one address; the table of scores, the freshness check and the queries
that join on `evm_address` do not. So an address can be passed over because of a
row it will not be found by.

This happens in two places: a cache hit stands in for all addresses of the batch
that are spelled like it up to case (`awaiting`), and the merge drops a queued
address that a batch has in another spelling. `row_of_screened` says that nowhere
else: if in these two places the address itself has a row, or is about to get
one, every address that is through screening has a row under its own spelling.
-/

namespace IndexerProcessors.Screening

open IndexerProcessors.Lib
open IndexerProcessors.Reputation

/-- The addresses that come in with a turn: from the extractor, from a GUID, or
from the database. -/
def LoopAction.entered : LoopAction → List String
  | .recvEvm evm _ | .guidDone _ (.resolved evm) _ => [evm]
  | .pingDone (.connected loaded _) => loaded
  | _ => []

def EvmConnection.queue : EvmConnection → List String
  | .connecting _ => []
  | .screening evmQueue => evmQueue

/-- The addresses of a batch that get a row, as things stand: before the response
those that no cache hit stands in for, then those with a score to save. -/
def awaiting (evms : List EvmItem) : EvmPhase → List String
  | .waiting => itemAddrs evms
  | .fetching results _ _ =>
    (itemAddrs evms).filter fun a => ¬ results.any fun r => eqIgnoreAsciiCase r.address a
  | .saving _ toSave => toSave.map Prod.fst

def Future.awaiting : Future → List String
  | .guid _ _ => []
  | .evm evms _ phase => Screening.awaiting evms phase

/-- The addresses a future is about to save. -/
def Future.saves : Future → List String
  | .evm _ _ (.saving _ toSave) => toSave.map Prod.fst
  | .evm _ _ _ | .guid _ _ => []

/-- The addresses a future screens. -/
def Future.batch : Future → List String
  | .guid _ _ => []
  | .evm evms _ _ => itemAddrs evms

/-- The address has a row, in this spelling, or a batch is about to save one. -/
def Settled (st : EnricherState) (a : String) : Prop :=
  (st.riskScores.lookup a).isSome ∨ ∃ f ∈ st.pending, a ∈ f.saves

/-- The address is queued or in a batch, in this spelling. -/
def BeingScreened (st : EnricherState) (a : String) : Prop :=
  a ∈ st.connection.queue ∨ ∃ f ∈ st.pending, a ∈ f.batch

/-- A queued address that is dropped because the batch has it, in some case, is in
the batch itself or settled. -/
def MergesAlike (ctx : LoopCtx) (st : EnricherState) (batch : List String) : Prop :=
  ∀ e ∈ st.connection.queue, (∃ b ∈ batch, ctx.toLowercase b = ctx.toLowercase e) →
    e ∈ batch ∨ Settled st e

/-- A cache hit stands in for settled addresses only. -/
def HitsSettled (ctx : LoopCtx) (st : EnricherState) : Option Future → Prop
  | some (.evm evms _ (.fetching _ _ (addr :: _))) => ctx.toLowercase addr ∈ st.cache →
      ∀ a ∈ itemAddrs evms, eqIgnoreAsciiCase addr a = true → Settled st a
  | _ => True

/-- Where spellings are taken for one address, none is passed over. -/
def SpellingsSettled (ctx : LoopCtx) (st : EnricherState) (action : LoopAction) : Prop :=
  match action with
  | .evmCheck i => HitsSettled ctx st st.pending[i]?
  | .guidDone _ (.resolved evm) _ => MergesAlike ctx st [evm]
  | .evmRespond _ _ _ => ∀ fb ∈ failedBatch ctx st action,
      MergesAlike ctx st (fb.evms.map (·.address))
  | _ => True

instance (st : EnricherState) (a : String) : Decidable (Settled st a) :=
  inferInstanceAs (Decidable (_ ∨ _))

instance (st : EnricherState) (a : String) : Decidable (BeingScreened st a) :=
  inferInstanceAs (Decidable (_ ∨ _))

instance (ctx : LoopCtx) (st : EnricherState) (batch : List String) :
    Decidable (MergesAlike ctx st batch) :=
  inferInstanceAs (Decidable (∀ _ ∈ _, _))

instance (ctx : LoopCtx) (st : EnricherState) :
    (f : Option Future) → Decidable (HitsSettled ctx st f)
  | some (.evm _ _ (.fetching _ _ (_ :: _))) => inferInstanceAs (Decidable (_ → _))
  | some (.evm _ _ (.fetching _ _ [])) | some (.evm _ _ .waiting) | some (.evm _ _ (.saving _ _))
  | some (.guid _ _) | none => inferInstanceAs (Decidable True)

instance (ctx : LoopCtx) (st : EnricherState) :
    (action : LoopAction) → Decidable (SpellingsSettled ctx st action)
  | .evmCheck i => inferInstanceAs (Decidable (HitsSettled ctx st st.pending[i]?))
  | .guidDone _ (.resolved evm) _ => inferInstanceAs (Decidable (MergesAlike ctx st [evm]))
  | .evmRespond i response faults => inferInstanceAs (Decidable (∀ fb ∈
      failedBatch ctx st (.evmRespond i response faults), MergesAlike ctx st _))
  | .guidDone _ .notFound _ | .guidDone _ .failed _ | .recvGuid _ | .recvEvm _ _ | .pingDone _
  | .tick _ _ | .evmStart _ | .evmCache _ | .evmSave _ _ | .evmDone _ | .evict _ | .clock _ =>
    inferInstanceAs (Decidable True)

/-! ## One address -/

/-- The address is queued, a batch will give it a row, or it has one. -/
def OnItsWay (st : EnricherState) (a : String) : Prop :=
  a ∈ st.connection.queue ∨ (∃ f ∈ st.pending, a ∈ f.awaiting) ∨
    (st.riskScores.lookup a).isSome

section OneAddress

variable {ctx : LoopCtx} {st st' : EnricherState} {a : String}

theorem mem_awaiting_of_mem_saves {f : Future} (h : a ∈ f.saves) : a ∈ f.awaiting := by
  unfold Future.saves at h
  split at h
  · exact h
  · cases h
  · cases h

/-- A turn that moves at most one future on and deletes no row. -/
theorem OnItsWay.replace {f : Future} (h : OnItsWay st a)
    (hqueue : a ∈ st.connection.queue → OnItsWay st' a)
    (hother : ∀ g ∈ st.pending, g ∈ st'.pending ∨ g = f)
    (hrow : (st.riskScores.lookup a).isSome → (st'.riskScores.lookup a).isSome)
    (hmoved : a ∈ f.awaiting → OnItsWay st' a) : OnItsWay st' a := by
  rcases h with hq | ⟨g, hg, ha⟩ | hr
  · exact hqueue hq
  · rcases hother g hg with hg' | rfl
    · exact Or.inr (Or.inl ⟨g, hg', ha⟩)
    · exact hmoved ha
  · exact Or.inr (Or.inr (hrow hr))

/-- Nothing that matters here changes. -/
theorem OnItsWay.mono (h : OnItsWay st a)
    (hqueue : a ∈ st.connection.queue → a ∈ st'.connection.queue)
    (hpending : ∀ g ∈ st.pending, g.awaiting ≠ [] → g ∈ st'.pending)
    (hrow : (st.riskScores.lookup a).isSome → (st'.riskScores.lookup a).isSome) :
    OnItsWay st' a := by
  rcases h with hq | ⟨g, hg, ha⟩ | hr
  · exact Or.inl (hqueue hq)
  · exact Or.inr (Or.inl ⟨g, hpending g hg (List.ne_nil_of_mem ha), ha⟩)
  · exact Or.inr (Or.inr (hrow hr))

/-- A future moves on. -/
theorem OnItsWay.advance {i : ℕ} {f f' : Future} (h : OnItsWay st a)
    (hi : st.pending[i]? = some f) (hmoved : a ∈ f.awaiting → OnItsWay (st.advance i f') a) :
    OnItsWay (st.advance i f') a :=
  h.replace (fun hq => Or.inl hq) (fun _ hg => mem_advance_or_eq hi hg) (fun hr => hr) hmoved

/-- It moves on without letting go of an address. -/
theorem OnItsWay.advance_of_subset {i : ℕ} {f f' : Future} (h : OnItsWay st a)
    (hi : st.pending[i]? = some f) (hsub : a ∈ f.awaiting → a ∈ f'.awaiting) :
    OnItsWay (st.advance i f') a :=
  h.advance hi fun ha => Or.inr (Or.inl ⟨f', mem_advance_self hi, hsub ha⟩)

/-- A future that awaits nothing ends. -/
theorem OnItsWay.finish {i : ℕ} {f : Future} (h : OnItsWay st a) (hi : st.pending[i]? = some f)
    (hnone : f.awaiting = []) : OnItsWay (st.finish i) a :=
  h.replace (fun hq => Or.inl hq) (fun _ hg => mem_finish_or_eq hi hg) (fun hr => hr)
    fun ha => by
      rw [hnone] at ha
      cases ha

/-- A future with nothing to save ends. -/
theorem MergesAlike.finish {i : ℕ} {f : Future} {batch : List String}
    (h : MergesAlike ctx st batch) (hi : st.pending[i]? = some f) (hnone : f.saves = []) :
    MergesAlike ctx (st.finish i) batch := by
  intro e he hseen
  rcases h e he hseen with hmem | hrow | ⟨g, hg, hsaves⟩
  · exact Or.inl hmem
  · exact Or.inr (Or.inl hrow)
  · rcases mem_finish_or_eq hi hg with hg' | rfl
    · exact Or.inr (Or.inr ⟨g, hg', hsaves⟩)
    · rw [hnone] at hsaves
      cases hsaves

/-- A batch keeps an address that no cache hit stands in for until it has its
score. -/
theorem mem_scoresToSave_of_awaiting {evms : List EvmItem} {results results' : List HypernativeResult}
    {toProcess rest : List String} (ha : a ∈ awaiting evms (.fetching results toProcess rest))
    (hdup : ∀ r ∈ results', r.duplicate = true → r ∈ results) :
    a ∈ (scoresToSave results' (itemAddrs evms)).map Prod.fst := by
  obtain ⟨hmem, hnone⟩ := List.mem_filter.mp ha
  rcases mem_scoresToSave results' hmem with ⟨r, hr⟩ | ⟨r, hr, hd, heq⟩
  · exact List.mem_map.mpr ⟨(a, r), hr, rfl⟩
  · have hany : results.any (fun r => eqIgnoreAsciiCase r.address a) = true :=
      List.any_eq_true.mpr ⟨r, hdup r hr hd, heq⟩
    simp [hany] at hnone

/-! ## `process_evms` -/

/-- What is queued or on its way stays so through `process_evms`, and so does
what it is given. -/
theorem onItsWay_processEvms {evms : List EvmItem} {count : ℕ} (hne : a ≠ evmNullSentinel)
    (hcount : ∀ pinged, st.connection = .connecting pinged → count = 0)
    (hmerge : MergesAlike ctx st (evms.map (·.address)))
    (h : OnItsWay st a ∨ a ∈ evms.map (·.address)) :
    OnItsWay (processEvms ctx st evms count .none) a := by
  cases hc : st.connection with
  | connecting pinged =>
    obtain ⟨hsaved, hrows⟩ := processEvms_connecting ctx .none hc evms count
    obtain ⟨t, heq⟩ := hsaved.frame
    rcases h with h | ha
    · refine h.mono ?_ ?_ (hsaved.rows a)
      · rw [heq]
        exact fun hq => hq
      · rw [heq]
        exact fun _ hg _ => hg
    · obtain ⟨item, hitem, rfl⟩ := List.mem_map.mp ha
      exact Or.inr (Or.inr (hrows (hcount pinged hc) item hitem (by simp [DbFaults.none])))
  | screening evmQueue =>
    have hp := processed ctx st evms count
    have hmerged : a ∈ (mergeQueue ctx evms evmQueue).map (·.address) →
        OnItsWay (processEvms ctx st evms count .none) a := by
      intro ha
      obtain ⟨item, hitem, rfl⟩ := List.mem_map.mp ha
      rcases mergeQueue_outcome ctx hc evms count hitem with ⟨screen, hscreen, hmem⟩ | hrow
      · exact Or.inr (Or.inl ⟨_, hmem, mem_itemAddrs.mpr ⟨⟨item, hscreen, rfl⟩, hne⟩⟩)
      · exact Or.inr (Or.inr hrow)
    have hbatch : a ∈ evms.map (·.address) → OnItsWay (processEvms ctx st evms count .none) a := by
      intro ha
      refine hmerged ?_
      unfold mergeQueue
      rw [List.map_append]
      exact List.mem_append_left _ ha
    -- Batches in flight stay, rows stay; the queue is merged or dropped.
    have hrest : (∃ f ∈ st.pending, a ∈ f.awaiting) ∨ (st.riskScores.lookup a).isSome →
        OnItsWay (processEvms ctx st evms count .none) a := by
      rintro (⟨f, hf, ha⟩ | hrow)
      · cases f with
        | guid guid n => cases ha
        | evm evms' count' phase =>
          exact Or.inr (Or.inl ⟨_, hp.pool.pending _ _ _ hf, ha⟩)
      · exact Or.inr (Or.inr (hp.pool.rows a hrow))
    rcases h with (hq | hrest') | ha
    · by_cases hseen : ∃ b ∈ evms.map (·.address), ctx.toLowercase b = ctx.toLowercase a
      · rcases hmerge a hq hseen with ha | hrow | ⟨f, hf, ha⟩
        · exact hbatch ha
        · exact hrest (Or.inr hrow)
        · exact hrest (Or.inl ⟨f, hf, mem_awaiting_of_mem_saves ha⟩)
      · refine hmerged (List.mem_map.mpr ⟨⟨a, 0⟩, ?_, rfl⟩)
        refine List.mem_append_right _ (List.mem_map.mpr ⟨a, ?_, rfl⟩)
        rw [hc] at hq
        refine List.mem_filter.mpr ⟨hq, ?_⟩
        simpa using hseen
    · exact hrest hrest'
    · exact hbatch ha

/-! ## Each turn -/

/-- A received address gets a row or goes to the queue. -/
theorem onItsWay_newEvm {evm : String} (h : OnItsWay st a ∨ a = evm) :
    OnItsWay (newEvm ctx { st with received := evm :: st.received } evm .none) a := by
  generalize hst : { st with received := evm :: st.received } = st₁
  have hold : OnItsWay st a → OnItsWay st₁ a := fun h => by rw [← hst]; exact h
  cases hc : st₁.connection with
  | connecting pinged =>
    rw [newEvm_connecting st₁ hc]
    have hs : SavedUnlessFresh ctx .none st₁ (saveUnlessFresh ctx .none st₁ evm) :=
      savedUnlessFresh st₁ evm
    obtain ⟨t, heq⟩ := hs.frame
    rcases h with h | rfl
    · refine (hold h).mono ?_ ?_ (hs.rows a)
      · rw [heq]
        exact fun hq => hq
      · rw [heq]
        exact fun _ hg _ => hg
    · exact Or.inr (Or.inr (isSome_saveUnlessFresh (by simp [DbFaults.none])))
  | screening evmQueue =>
    rw [newEvm_screening st₁ hc]
    rcases h with h | rfl
    · refine (hold h).mono (fun hq => ?_) (fun _ hg _ => hg) (fun hr => hr)
      rw [hc] at hq
      exact List.mem_append_left _ hq
    · exact Or.inl (List.mem_append_right _ (List.mem_singleton_self _))

theorem onItsWay_tick (hne : a ≠ evmNullSentinel) (h : OnItsWay st a) (reconnect : Bool) :
    OnItsWay (processEvms ctx
      { connect st reconnect with
        pending := (connect st reconnect).pending ++
          (connect st reconnect).guidQueue.map fun guid => Future.guid guid 0
        guidQueue := [] } [] 0 .none) a := by
  refine onItsWay_processEvms hne (fun _ _ => rfl) (fun _ _ hseen => ?_) (Or.inl ?_)
  · obtain ⟨b, hb, _⟩ := hseen
    cases hb
  · refine h.mono ?_ (fun g hg _ => List.mem_append_left _ ?_) ?_
    all_goals
      rcases connect_cases st reconnect with ⟨_, _, _, hc, heq⟩ | ⟨_, _, heq⟩
    · intro hq
      rw [hc] at hq
      cases hq
    · rw [heq]
      exact fun hq => hq
    · rw [heq]
      exact hg
    · rw [heq]
      exact hg
    · rw [heq]
      exact fun hr => hr
    · rw [heq]
      exact fun hr => hr

/-- A cache hit. -/
theorem onItsWay_hit {i count : ℕ} {evms : List EvmItem} {results : List HypernativeResult}
    {toProcess rest : List String} {addr : String} (h : OnItsWay st a)
    (hi : st.pending[i]? = some (.evm evms count (.fetching results toProcess (addr :: rest))))
    (hsettled : ∀ a ∈ itemAddrs evms, eqIgnoreAsciiCase addr a = true → Settled st a) :
    OnItsWay
      (st.advance i (.evm evms count (.fetching (results ++ [cacheHit addr]) toProcess rest))) a := by
  refine h.advance hi fun ha => ?_
  obtain ⟨hmem, hnone⟩ := List.mem_filter.mp ha
  by_cases hspelled : eqIgnoreAsciiCase addr a = true
  · -- The hit stands in for the address, which is settled by another future or by its row.
    rcases hsettled a hmem hspelled with hrow | ⟨f, hf, hsaves⟩
    · exact Or.inr (Or.inr hrow)
    · rcases mem_advance_or_eq hi hf with hf' | rfl
      · exact Or.inr (Or.inl ⟨f, hf', mem_awaiting_of_mem_saves hsaves⟩)
      · cases hsaves
  · refine Or.inr (Or.inl ⟨_, mem_advance_self hi, List.mem_filter.mpr ⟨hmem, ?_⟩⟩)
    simp only [decide_eq_true_eq] at hnone ⊢
    simpa [cacheHit, hspelled] using hnone

/-- Saving a score. -/
theorem onItsWay_saved {i count : ℕ} {evms : List EvmItem} {evm : String}
    {result : HypernativeResult} {toSave : List (String × HypernativeResult)} {score : EvmRiskScore}
    (h : OnItsWay st a)
    (hi : st.pending[i]? = some (.evm evms count (.saving [] ((evm, result) :: toSave))))
    (hscore : score.evmAddress = evm) :
    OnItsWay (save .none (st.advance i (.evm evms count (.saving [] toSave))) score) a := by
  have hlookup := lookup_save .none (st.advance i (.evm evms count (.saving [] toSave))) score a
  obtain ⟨t, heq⟩ := save_eq .none (st.advance i (.evm evms count (.saving [] toSave))) score
  rw [heq] at hlookup ⊢
  have hrow : (st.riskScores.lookup a).isSome → (t.lookup a).isSome := by
    intro hr
    rw [hlookup]
    split
    · rfl
    · exact hr
  refine h.replace (fun hq => Or.inl hq) (fun _ hg => mem_advance_or_eq hi hg) hrow fun ha => ?_
  rcases List.mem_cons.mp ha with rfl | ha
  · refine Or.inr (Or.inr ?_)
    rw [hlookup, if_pos ⟨hscore.symm, by simp [DbFaults.none]⟩]
    rfl
  · exact Or.inr (Or.inl ⟨_, mem_advance_self hi, ha⟩)

/-- Every turn that lets no spelling go keeps an address on its way. -/
theorem onItsWay_step {action : LoopAction} (hpool : PoolInv ctx st) (hne : a ≠ evmNullSentinel)
    (hfaults : action.faults = .none) (hsettled : SpellingsSettled ctx st action)
    (h : OnItsWay st a) (hstep : step ctx st action = some st') : OnItsWay st' a := by
  -- An address can only get lost where it is taken for one that is known already: at a cache
  -- hit and at a merge. There the spellings are settled.
  cases turn_of_step hstep with
  | recvGuid | pingFailed | evicted | clock => exact h
  | recvEvm evm faults =>
    obtain rfl : faults = .none := hfaults
    exact onItsWay_newEvm (Or.inl h)
  | connected evmQueue hping =>
    obtain ⟨pinged, hc⟩ := hpool.ping hping
    refine h.mono (fun hq => ?_) (fun _ hg _ => hg) (fun hr => hr)
    rw [hc] at hq
    cases hq
  | tick reconnect faults =>
    obtain rfl : faults = .none := hfaults
    exact onItsWay_tick hne h reconnect
  | guidResolved evm faults hi =>
    obtain rfl : faults = .none := hfaults
    exact onItsWay_processEvms hne (fun _ _ => rfl) (MergesAlike.finish hsettled hi rfl)
      (Or.inl (h.finish hi rfl))
  | guidEnded hi _ => exact h.finish hi rfl
  | guidRetried hi =>
    exact (h.finish hi rfl).mono (fun hq => hq) (fun _ hg _ => List.mem_append_left _ hg)
      (fun hr => hr)
  | evmSkipped hi hnone => exact h.finish hi hnone
  | evmStarted hi =>
    refine h.advance_of_subset hi fun ha => List.mem_filter.mpr ⟨ha, ?_⟩
    simp
  | evmHit hi hcached =>
    simp only [SpellingsSettled, hi] at hsettled
    exact onItsWay_hit h hi (hsettled hcached)
  | evmMissed hi => exact h.advance_of_subset hi fun ha => ha
  | @evmAllHit i evms count results response faults hi =>
    refine h.advance_of_subset hi fun ha => ?_
    have hawaiting : a ∈ awaiting evms (.fetching results [] []) := ha
    exact mem_scoresToSave_of_awaiting hawaiting fun r hr _ => hr
  | @evmFailed i evms count results toProcess response faults hi hne' hresponse =>
    obtain rfl : faults = .none := hfaults
    have hidle : ∀ pinged, st.connection ≠ .connecting pinged := fun pinged hc =>
      idle_of_mem hpool (List.mem_of_getElem? hi) pinged hc
    have haddrs : (evms.map EvmItem.failed).map (·.address) = evms.map (·.address) := by
      rw [List.map_map]
      exact List.map_congr_left fun item _ => item.failed_address
    refine onItsWay_processEvms hne (fun pinged hc => (hidle pinged hc).elim) ?_ ?_
    · rw [haddrs]
      rcases st.connecting_or_screening with ⟨pinged, hc⟩ | ⟨evmQueue, hc⟩
      · exact (hidle pinged hc).elim
      · have hmerge := hsettled _ (failedBatch_failed hc hi hne' hresponse)
        exact MergesAlike.finish hmerge hi rfl
    · rw [haddrs]
      rcases h with hq | ⟨g, hg, ha⟩ | hr
      · exact Or.inl (Or.inl hq)
      · rcases mem_finish_or_eq hi hg with hg' | rfl
        · exact Or.inl (Or.inr (Or.inl ⟨g, hg', ha⟩))
        · -- The whole batch is tried again.
          obtain ⟨⟨item, hitem, haddr⟩, _⟩ := mem_itemAddrs.mp (List.mem_filter.mp ha).1
          exact Or.inr (List.mem_map.mpr ⟨item, hitem, haddr⟩)
      · exact Or.inl (Or.inr (Or.inr hr))
  | @evmAnswered i evms count results results' toProcess toCache response faults hi hresponse =>
    refine h.advance_of_subset hi fun ha => ?_
    have hawaiting : a ∈ awaiting evms (.fetching results toProcess []) := ha
    exact mem_scoresToSave_of_awaiting hawaiting (duplicate_of_handleResponse hresponse).1
  | evmCached hi => exact h.advance_of_subset hi fun ha => ha
  | evmSaved faults hi =>
    obtain rfl : faults = .none := hfaults
    exact onItsWay_saved h hi rfl
  | evmDone hi => exact h.finish hi rfl

end OneAddress

/-- An address that comes in is on its way. -/
theorem onItsWay_entered {ctx : LoopCtx} {st st' : EnricherState} {action : LoopAction} {a : String}
    (hne : a ≠ evmNullSentinel) (hfaults : action.faults = .none)
    (hsettled : SpellingsSettled ctx st action) (ha : a ∈ action.entered)
    (hstep : step ctx st action = some st') : OnItsWay st' a := by
  cases action with
  | recvEvm evm faults =>
    obtain rfl : faults = .none := hfaults
    obtain rfl := List.mem_singleton.mp ha
    obtain rfl := Option.some.inj hstep
    exact onItsWay_newEvm (Or.inr rfl)
  | guidDone i outcome faults =>
    obtain rfl : faults = .none := hfaults
    cases outcome with
    | resolved evm =>
      obtain rfl := List.mem_singleton.mp ha
      simp only [step] at hstep
      split at hstep
      next guid count hi =>
        obtain rfl := Option.some.inj hstep
        exact onItsWay_processEvms hne (fun _ _ => rfl) (MergesAlike.finish hsettled hi rfl)
          (Or.inr (List.mem_singleton.mpr rfl))
      next => cases hstep
    | notFound => cases ha
    | failed => cases ha
  | pingDone outcome =>
    cases outcome with
    | connected loaded inflowSources =>
      simp only [step] at hstep
      split at hstep
      next =>
        split at hstep
        next =>
          obtain rfl := Option.some.inj hstep
          exact Or.inl ha
        next => cases hstep
      next => cases hstep
    | failed => cases ha
    | connectedWithoutRows => cases ha
  | _ => cases ha

/-- What a batch will save it screens. -/
theorem BeingScreened.of_onItsWay {ctx : LoopCtx} {st : EnricherState} {a : String}
    (hpool : PoolInv ctx st) (h : OnItsWay st a) :
    BeingScreened st a ∨ (st.riskScores.lookup a).isSome := by
  rcases h with hq | ⟨f, hf, ha⟩ | hrow
  · exact Or.inl (Or.inl hq)
  · refine Or.inl (Or.inr ⟨f, hf, ?_⟩)
    cases f with
    | guid guid count => cases ha
    | evm evms count phase =>
      cases phase with
      | waiting => exact ha
      | fetching results toProcess rest => exact (List.mem_filter.mp ha).1
      | saving toCache toSave =>
        obtain ⟨p, hp, rfl⟩ := List.mem_map.mp ha
        exact (hpool.phases _ _ _ hf).2.2 p hp
  · exact Or.inr hrow

/-- **A row under its own spelling.** In every run whose database calls succeed
and in which no spelling is passed over for another, every address that came in,
the sentinel apart, has a row under exactly its spelling once it is through
screening. The law about `to_lowercase` is that of the Rust function. -/
theorem row_of_screened (ctx : LoopCtx)
    (hcase : ∀ a b, eqIgnoreAsciiCase a b = true → ctx.toLowercase a = ctx.toLowercase b)
    (pendingGuids : List String) (riskScores : Table String EvmRiskScore) (now : NaiveDateTime)
    (trace : List LoopAction) (st : EnricherState)
    (hrun : Run (step ctx) (fun st action => action.faults = .none ∧ SpellingsSettled ctx st action)
      (init pendingGuids riskScores now) trace st) :
    ∀ a ∈ trace.flatMap LoopAction.entered, a ≠ evmNullSentinel → ¬BeingScreened st a →
      (st.riskScores.lookup a).isSome := by
  have hinv : RetentionInv ctx st ∧
      ∀ a ∈ trace.flatMap LoopAction.entered, a ≠ evmNullSentinel → OnItsWay st a := by
    induction hrun with
    | nil => exact ⟨retentionInv_init ctx pendingGuids riskScores now, by simp⟩
    | snoc _ hC hstep ih =>
      obtain ⟨hret, hway⟩ := ih
      refine ⟨retentionInv_step hcase hret hC.1 hstep, fun a ha hne => ?_⟩
      rw [List.flatMap_append, List.mem_append] at ha
      rcases ha with ha | ha
      · exact onItsWay_step hret.pool hne hC.1 hC.2 (hway a ha hne) hstep
      · exact onItsWay_entered hne hC.1 hC.2 (by simpa using ha) hstep
  intro a ha hne hdone
  exact (BeingScreened.of_onItsWay hinv.1.pool (hinv.2 a ha hne)).resolve_left hdone

/-- `0xA` is screened, then `evm` comes in. -/
def screenedThen (evm : String) : List LoopAction :=
  [.tick false .none, .pingDone (.connected [] []), .recvEvm "0xA" .none, .tick false .none,
    .evmStart 0, .evmCheck 0, .evmRespond 0 (.body (.object [("data", .array [])])) .none,
    .evmCache 0, .evmSave 0 .none, .evmDone 0, .recvEvm evm .none, .tick false .none]

/-- The same spelling again finds the row it has. -/
theorem row_of_screened_sameSpelling :
    ∃ st, Run (step hourCtx)
        (fun st action => action.faults = .none ∧ SpellingsSettled hourCtx st action)
        (init [] ∅ 0) (screenedThen "0xA") st ∧
      (st.riskScores.lookup "0xA").isSome := by
  obtain ⟨st, hrun, hdone⟩ := exists_run (step hourCtx)
    (fun st action => action.faults = .none ∧ SpellingsSettled hourCtx st action)
    (init [] ∅ 0) (screenedThen "0xA") (fun st => ¬BeingScreened st "0xA") (by decide +kernel)
  exact ⟨st, hrun, row_of_screened hourCtx (fun a b hab => of_decide_eq_true hab) [] ∅ 0 _ st hrun
    "0xA" (by decide +kernel) (by decide) hdone⟩

/-- Another spelling is not fresh, and a hit of the cache. -/
def secondSpelling : List LoopAction :=
  screenedThen "0xa" ++ [.evmStart 0, .evmCheck 0,
    .evmRespond 0 (.body (.object [("data", .array [])])) .none, .evmDone 0]

/-- It is through screening, and has no row. -/
theorem secondSpelling_has_no_row :
    ∃ st, Run (step hourCtx) (fun _ action => action.faults = .none) (init [] ∅ 0)
        secondSpelling st ∧
      "0xa" ∈ secondSpelling.flatMap LoopAction.entered ∧ "0xa" ≠ evmNullSentinel ∧
      ¬BeingScreened st "0xa" ∧ st.riskScores.lookup "0xa" = none := by
  obtain ⟨st, hrun, hend⟩ := exists_run (step hourCtx)
    (fun _ action => action.faults = .none) (init [] ∅ 0) secondSpelling
    (fun st => ¬BeingScreened st "0xa" ∧ st.riskScores.lookup "0xa" = none) (by decide +kernel)
  exact ⟨st, hrun, by decide +kernel, by decide, hend⟩

end IndexerProcessors.Screening

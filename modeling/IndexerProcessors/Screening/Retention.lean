import IndexerProcessors.Screening.Freshness

/-!
# No address is lost

An address that came in is in the queue, in the batch of a pending future, or
has a row, up to letter case, as long as the database calls succeed. Three
filters could lose one: the queue's duplicates of a batch, the addresses that
are fresh on a first attempt, and the cache. The first two are covered at once,
by the batch and by the fresh row. A cache hit is covered because a key goes
into the cache only when its future holds the response and has yet to save, or
has saved, a score under that key; until then the key is `Secured` by the
future, afterwards by the row.

The switch to screening replaces the connection state. It cannot drop a queue:
a ping is in flight only while connecting, and while connecting there are no
batches and no queue, and every address received has a row.
-/

namespace IndexerProcessors.Screening

open IndexerProcessors.Lib
open IndexerProcessors.Reputation

/-- An address with this lowercase form has a row. -/
def HasRow (ctx : LoopCtx) (st : EnricherState) (key : String) : Prop :=
  ∃ evm, (st.riskScores.lookup evm).isSome ∧ ctx.toLowercase evm = key

/-- It is in the queue. -/
def Queued (ctx : LoopCtx) (st : EnricherState) (key : String) : Prop :=
  ∃ evmQueue, st.connection = .screening evmQueue ∧ ∃ evm ∈ evmQueue, ctx.toLowercase evm = key

/-- It is in the batch of a pending future. -/
def InFlight (ctx : LoopCtx) (st : EnricherState) (key : String) : Prop :=
  ∃ evms count phase, .evm evms count phase ∈ st.pending ∧
    ∃ item ∈ evms, ctx.toLowercase item.address = key

def Kept (ctx : LoopCtx) (st : EnricherState) (key : String) : Prop :=
  Queued ctx st key ∨ InFlight ctx st key ∨ HasRow ctx st key

/-- It has a row, or a future with a response is about to save one. -/
def Secured (ctx : LoopCtx) (st : EnricherState) (key : String) : Prop :=
  HasRow ctx st key ∨ ∃ evms count toCache toSave,
    .evm evms count (.saving toCache toSave) ∈ st.pending ∧ ∃ p ∈ toSave, ctx.toLowercase p.1 = key

/-- What a future knows in each phase: its cache hits are secured, and once it
has the response so are all its addresses. -/
def PhaseOk (ctx : LoopCtx) (st : EnricherState) (evms : List EvmItem) : EvmPhase → Prop
  | .waiting => True
  | .fetching results toProcess rest =>
    (∀ a ∈ toProcess ++ rest, a ∈ itemAddrs evms) ∧
    ∀ r ∈ results, Secured ctx st (ctx.toLowercase r.address)
  | .saving toCache toSave =>
    (∀ key ∈ toCache, Secured ctx st key) ∧
    (∀ a ∈ itemAddrs evms, Secured ctx st (ctx.toLowercase a)) ∧
    ∀ p ∈ toSave, p.1 ∈ itemAddrs evms

/-- The pool, the cache and the connection fit together. -/
structure PoolInv (ctx : LoopCtx) (st : EnricherState) : Prop where
  idle : ∀ pinged, st.connection = .connecting pinged →
    ∀ evms count phase, .evm evms count phase ∉ st.pending
  ping : st.pinging = true → ∃ pinged, st.connection = .connecting pinged
  cached : ∀ key ∈ st.cache, Secured ctx st key
  phases : ∀ evms count phase, .evm evms count phase ∈ st.pending → PhaseOk ctx st evms phase

structure RetentionInv (ctx : LoopCtx) (st : EnricherState) : Prop where
  pool : PoolInv ctx st
  kept : ∀ a ∈ st.received, ctx.toLowercase a ≠ ctx.toLowercase evmNullSentinel →
    Kept ctx st (ctx.toLowercase a)

section Keep

variable {ctx : LoopCtx} {st st' : EnricherState}

theorem mem_itemAddrs {evms : List EvmItem} {a : String} :
    a ∈ itemAddrs evms ↔ (∃ item ∈ evms, item.address = a) ∧ a ≠ evmNullSentinel := by
  rw [itemAddrs, mem_screenAddrs, List.mem_map]

/-- Of a batch, only the sentinel is not screened. -/
theorem mem_itemAddrs_of_ne {evms : List EvmItem} {item : EvmItem} {key : String}
    (hitem : item ∈ evms) (hkey : ctx.toLowercase item.address = key)
    (hne : key ≠ ctx.toLowercase evmNullSentinel) : item.address ∈ itemAddrs evms := by
  refine mem_itemAddrs.mpr ⟨⟨item, hitem, rfl⟩, fun hsent => hne ?_⟩
  rw [← hkey, hsent]

theorem HasRow.mono {key : String} (h : HasRow ctx st key)
    (hrows : ∀ evm, (st.riskScores.lookup evm).isSome → (st'.riskScores.lookup evm).isSome) :
    HasRow ctx st' key := by
  obtain ⟨evm, hrow, hkey⟩ := h
  exact ⟨evm, hrows evm hrow, hkey⟩

theorem PhaseOk.mono {evms : List EvmItem} {phase : EvmPhase} (h : PhaseOk ctx st evms phase)
    (hsec : ∀ key, Secured ctx st key → Secured ctx st' key) : PhaseOk ctx st' evms phase := by
  cases phase with
  | waiting => trivial
  | fetching results toProcess rest => exact ⟨h.1, fun r hr => hsec _ (h.2 r hr)⟩
  | saving toCache toSave =>
    exact ⟨fun key hk => hsec _ (h.1 key hk), fun a ha => hsec _ (h.2.1 a ha), h.2.2⟩

/-- What is secured has a row or is in the batch of the future that secures it. -/
theorem Secured.kept {key : String} (h : Secured ctx st key)
    (hphases : ∀ evms count phase, .evm evms count phase ∈ st.pending → PhaseOk ctx st evms phase) :
    Kept ctx st key := by
  rcases h with hrow | ⟨evms, count, toCache, toSave, hmem, p, hp, hkey⟩
  · exact Or.inr (Or.inr hrow)
  · -- A future saves scores for addresses of its own batch only.
    obtain ⟨⟨item, hitem, haddr⟩, _⟩ :=
      mem_itemAddrs.mp ((hphases evms count _ hmem).2.2 p hp)
    exact Or.inr (Or.inl ⟨evms, count, _, hmem, item, hitem, haddr ▸ hkey⟩)

/-- What a step must not take away, and what it may add. -/
structure Retains (ctx : LoopCtx) (st st' : EnricherState) : Prop where
  secured : ∀ key, Secured ctx st key → Secured ctx st' key
  cache : ∀ key ∈ st'.cache, key ∈ st.cache ∨ Secured ctx st' key
  pending : ∀ evms count phase, .evm evms count phase ∈ st'.pending →
    .evm evms count phase ∈ st.pending ∨ PhaseOk ctx st' evms phase

theorem Retains.trans {st₁ st₂ : EnricherState} (h : Retains ctx st st₁)
    (h' : Retains ctx st₁ st₂) : Retains ctx st st₂ := by
  refine ⟨fun key hkey => h'.secured key (h.secured key hkey), fun key hkey => ?_,
    fun evms count phase hmem => ?_⟩
  · rcases h'.cache key hkey with hkey | hsec
    · exact (h.cache key hkey).imp_right (h'.secured key)
    · exact Or.inr hsec
  · rcases h'.pending evms count phase hmem with hmem | hok
    · exact (h.pending evms count phase hmem).imp_right fun hok => hok.mono h'.secured
    · exact Or.inr hok

theorem PoolInv.of_retains (h : PoolInv ctx st) (hr : Retains ctx st st')
    (hidle : ∀ pinged, st'.connection = .connecting pinged →
      ∀ evms count phase, .evm evms count phase ∉ st'.pending)
    (hping : st'.pinging = true → ∃ pinged, st'.connection = .connecting pinged) :
    PoolInv ctx st' := by
  refine ⟨hidle, hping, fun key hkey => ?_, fun evms count phase hmem => ?_⟩
  · rcases hr.cache key hkey with hold | hsec
    · exact hr.secured key (h.cached key hold)
    · exact hsec
  · rcases hr.pending evms count phase hmem with hold | hok
    · exact (h.phases evms count phase hold).mono hr.secured
    · exact hok

/-! ## Steps that leave the batches in flight alone -/

/-- The pool keeps its batches and gains at most waiting ones, no row is
deleted, and nothing is cached. -/
structure Extends (st st' : EnricherState) : Prop where
  pending : ∀ evms count phase, .evm evms count phase ∈ st.pending →
    .evm evms count phase ∈ st'.pending
  new : ∀ evms count phase, .evm evms count phase ∈ st'.pending →
    .evm evms count phase ∈ st.pending ∨ phase = .waiting
  rows : ∀ evm, (st.riskScores.lookup evm).isSome → (st'.riskScores.lookup evm).isSome
  cache : ∀ key ∈ st'.cache, key ∈ st.cache

theorem Extends.retains (h : Extends st st') : Retains ctx st st' := by
  refine ⟨fun key hkey => ?_, fun key hkey => Or.inl (h.cache key hkey),
    fun evms count phase hmem => ?_⟩
  · rcases hkey with hrow | ⟨evms, count, toCache, toSave, hmem, hp⟩
    · exact Or.inl (hrow.mono h.rows)
    · exact Or.inr ⟨evms, count, toCache, toSave, h.pending _ _ _ hmem, hp⟩
  · rcases h.new evms count phase hmem with hold | rfl
    · exact Or.inl hold
    · exact Or.inr trivial

theorem Extends.inFlight {key : String} (h : Extends st st') (hkey : InFlight ctx st key) :
    InFlight ctx st' key := by
  obtain ⟨evms, count, phase, hmem, hitem⟩ := hkey
  exact ⟨evms, count, phase, h.pending _ _ _ hmem, hitem⟩

/-- Apart from the queue, which is for the caller to account for. -/
theorem Extends.kept {key : String} (h : Extends st st') (hkey : Kept ctx st key)
    (hqueue : Queued ctx st key → Kept ctx st' key) : Kept ctx st' key := by
  rcases hkey with hq | hf | hrow
  · exact hqueue hq
  · exact Or.inr (Or.inl (h.inFlight hf))
  · exact Or.inr (Or.inr (hrow.mono h.rows))

theorem extends_of_eq (hpending : st'.pending = st.pending) (hrows : st'.riskScores = st.riskScores)
    (hcache : ∀ key ∈ st'.cache, key ∈ st.cache) : Extends st st' :=
  ⟨fun _ _ _ h => hpending ▸ h, fun _ _ _ h => Or.inl (hpending ▸ h), fun _ h => hrows ▸ h, hcache⟩

/-- What `process_evms` does when all database calls succeed. -/
structure Processed (ctx : LoopCtx) (st : EnricherState) (evms : List EvmItem) (count : ℕ)
    (st' : EnricherState) : Prop where
  pool : Extends st st'
  received : st'.received = st.received
  pinging : st'.pinging = st.pinging
  connecting : ∀ pinged, st.connection = .connecting pinged →
    st'.connection = .connecting pinged ∧ st'.pending = st.pending
  screening : ∀ evmQueue, st.connection = .screening evmQueue → st'.connection = .screening []
  queue : ∀ key, Queued ctx st key → Kept ctx st' key
  batch : (∀ pinged, st.connection = .connecting pinged → count = 0) →
    ∀ item ∈ evms, Kept ctx st' (ctx.toLowercase item.address)

theorem processed_connecting {pinged : Bool} (hc : st.connection = .connecting pinged)
    (evms : List EvmItem) (count : ℕ) :
    Processed ctx st evms count (processEvms ctx st evms count .none) := by
  obtain ⟨hsaved, hrows⟩ := processEvms_connecting ctx .none hc evms count
  obtain ⟨t, heq⟩ := hsaved.frame
  refine ⟨⟨?_, ?_, hsaved.rows, ?_⟩, ?_, ?_, ?_, ?_, ?_, ?_⟩
  · rw [heq]; exact fun _ _ _ h => h
  · rw [heq]; exact fun _ _ _ h => Or.inl h
  · rw [heq]; exact fun _ h => h
  · rw [heq]
  · rw [heq]
  · rw [heq]; exact fun _ h => ⟨h, rfl⟩
  · intro evmQueue hc'
    rw [hc] at hc'
    cases hc'
  · intro key hqueued
    obtain ⟨evmQueue, hc', _⟩ := hqueued
    rw [hc] at hc'
    cases hc'
  · intro hcount item hitem
    have hrow := hrows (hcount pinged hc) item hitem (by simp [DbFaults.none])
    exact Or.inr (Or.inr ⟨item.address, hrow, rfl⟩)

/-- While screening, every address of the merged batch is in the new future, or
has a row: it is fresh or given up on. -/
theorem mergeQueue_outcome (ctx : LoopCtx) {evmQueue : List String}
    (hc : st.connection = .screening evmQueue) (evms : List EvmItem) (count : ℕ) {item : EvmItem}
    (hitem : item ∈ mergeQueue ctx evms evmQueue) :
    (∃ screen, item ∈ screen ∧
      .evm screen count .waiting ∈ (processEvms ctx st evms count .none).pending) ∨
    ((processEvms ctx st evms count .none).riskScores.lookup item.address).isSome := by
  -- In the batch: it is in a new future, or given up on with an error row.
  by_cases hscreen : item ∈ toScreen ctx st .none count (mergeQueue ctx evms evmQueue)
  · rcases processEvms_screening ctx .none hc evms count with
      ⟨hnil, _⟩ | ⟨_, heq⟩ | ⟨_, t, heq, ht⟩
    · rw [hnil] at hscreen
      cases hscreen
    · refine Or.inl ⟨_, hscreen, ?_⟩
      rw [heq]
      exact List.mem_append_right _ (List.mem_singleton_self _)
    · refine Or.inr ?_
      rw [heq]
      show (t.lookup item.address).isSome
      rw [ht, if_pos ⟨⟨item, hscreen, rfl⟩, by simp [DbFaults.none]⟩]
      rfl
  · -- Filtered out of the batch, so it was fresh, so it has a row.
    have hfresh : isFreshInDb ctx st .none item.address = true := by
      by_contra hstale
      exact hscreen (List.mem_filter.mpr ⟨hitem, by simp [hstale]⟩)
    obtain ⟨row, hrow, _⟩ := exists_row_of_isFreshInDb hfresh
    have hsome : (st.riskScores.lookup item.address).isSome := by rw [hrow]; rfl
    refine Or.inr ?_
    rcases processEvms_screening ctx .none hc evms count with
      ⟨_, heq⟩ | ⟨_, heq⟩ | ⟨_, t, heq, ht⟩
    · rw [heq]
      exact hsome
    · rw [heq]
      exact hsome
    · rw [heq]
      show (t.lookup item.address).isSome
      rw [ht]
      split
      · rfl
      · exact hsome

theorem kept_mergeQueue (ctx : LoopCtx) {evmQueue : List String}
    (hc : st.connection = .screening evmQueue) (evms : List EvmItem) (count : ℕ) :
    ∀ item ∈ mergeQueue ctx evms evmQueue,
      Kept ctx (processEvms ctx st evms count .none) (ctx.toLowercase item.address) := by
  intro item hitem
  rcases mergeQueue_outcome ctx hc evms count hitem with ⟨screen, hscreen, hmem⟩ | hrow
  · exact Or.inr (Or.inl ⟨screen, count, .waiting, hmem, item, hscreen, rfl⟩)
  · exact Or.inr (Or.inr ⟨item.address, hrow, rfl⟩)

theorem processed_screening {evmQueue : List String} (hc : st.connection = .screening evmQueue)
    (evms : List EvmItem) (count : ℕ) :
    Processed ctx st evms count (processEvms ctx st evms count .none) := by
  have hmerged := kept_mergeQueue ctx hc evms count
  have hbatch : ∀ item ∈ evms,
      Kept ctx (processEvms ctx st evms count .none) (ctx.toLowercase item.address) :=
    fun item hitem => hmerged item (List.mem_append_left _ hitem)
  have hqueue : ∀ key, Queued ctx st key → Kept ctx (processEvms ctx st evms count .none) key := by
    intro key hqueued
    obtain ⟨evmQueue', hc', evm, hevm, rfl⟩ := hqueued
    obtain rfl := EvmConnection.screening.inj (hc.symm.trans hc')
    -- A queued address is merged, unless the batch has it already.
    by_cases hseen : ctx.toLowercase evm ∈ evms.map fun item => ctx.toLowercase item.address
    · obtain ⟨item, hitem, hkey⟩ := List.mem_map.mp hseen
      exact hkey ▸ hbatch item hitem
    · refine hmerged ⟨evm, 0⟩ (List.mem_append_right _ (List.mem_map.mpr ⟨evm, ?_, rfl⟩))
      exact List.mem_filter.mpr ⟨hevm, by simpa using hseen⟩
  have hnot : ∀ pinged, st.connection ≠ .connecting pinged := by
    intro pinged hc'
    rw [hc] at hc'
    cases hc'
  rcases processEvms_screening ctx .none hc evms count with
    ⟨_, heq⟩ | ⟨_, heq⟩ | ⟨_, t, heq, ht⟩
  · refine ⟨extends_of_eq ?_ ?_ ?_, ?_, ?_, fun p h => absurd h (hnot p), ?_, hqueue,
      fun _ => hbatch⟩ <;> rw [heq]
    · exact fun _ h => h
    · exact fun _ _ => rfl
  · refine ⟨⟨?_, ?_, ?_, ?_⟩, ?_, ?_, fun p h => absurd h (hnot p), ?_, hqueue,
      fun _ => hbatch⟩ <;> rw [heq]
    · exact fun _ _ _ h => List.mem_append_left _ h
    · intro evms' count' phase hmem
      rcases List.mem_append.mp hmem with hmem | hmem
      · exact Or.inl hmem
      · exact Or.inr (Future.evm.inj (List.mem_singleton.mp hmem)).2.2
    · exact fun _ h => h
    · exact fun _ h => h
    · exact fun _ _ => rfl
  · refine ⟨⟨?_, ?_, ?_, ?_⟩, ?_, ?_, fun p h => absurd h (hnot p), ?_, hqueue,
      fun _ => hbatch⟩ <;> rw [heq]
    · exact fun _ _ _ h => h
    · exact fun _ _ _ h => Or.inl h
    · intro evm hrow
      show (t.lookup evm).isSome
      rw [ht]
      split
      · rfl
      · exact hrow
    · exact fun _ h => h
    · exact fun _ _ => rfl

theorem processed (ctx : LoopCtx) (st : EnricherState) (evms : List EvmItem) (count : ℕ) :
    Processed ctx st evms count (processEvms ctx st evms count .none) := by
  cases hc : st.connection with
  | connecting pinged => exact processed_connecting hc evms count
  | screening evmQueue => exact processed_screening hc evms count

/-- Processing a batch keeps every address received that was kept before or is
in the batch. -/
theorem retentionInv_processEvms {evms : List EvmItem} {count : ℕ} (h : PoolInv ctx st)
    (hcount : ∀ pinged, st.connection = .connecting pinged → count = 0)
    (hkept : ∀ a ∈ st.received, ctx.toLowercase a ≠ ctx.toLowercase evmNullSentinel →
      Kept ctx st (ctx.toLowercase a) ∨
        ∃ item ∈ evms, ctx.toLowercase item.address = ctx.toLowercase a) :
    RetentionInv ctx (processEvms ctx st evms count .none) := by
  have hp := processed ctx st evms count
  refine ⟨h.of_retains hp.pool.retains ?_ ?_, fun a ha hne => ?_⟩
  · intro pinged hc
    cases hc' : st.connection with
    | connecting pinged' =>
      rw [(hp.connecting pinged' hc').2]
      exact h.idle pinged' hc'
    | screening evmQueue =>
      rw [hp.screening evmQueue hc'] at hc
      cases hc
  · intro hping
    rw [hp.pinging] at hping
    obtain ⟨pinged, hc⟩ := h.ping hping
    exact ⟨pinged, (hp.connecting pinged hc).1⟩
  · rw [hp.received] at ha
    rcases hkept a ha hne with hold | ⟨item, hitem, hkey⟩
    · exact hp.pool.kept hold (hp.queue _)
    · exact hkey ▸ hp.batch hcount item hitem

/-! ## Steps of one future -/

section OneFuture

variable {i count : ℕ} {evms : List EvmItem} {phase phase' : EvmPhase}

/-- A step that moves one future, deletes no row and saves what the future drops
from its list. -/
theorem secured_replace (ctx : LoopCtx)
    (hother : ∀ g ∈ st.pending, g ∈ st'.pending ∨ g = .evm evms count phase)
    (hrows : ∀ evm, (st.riskScores.lookup evm).isSome → (st'.riskScores.lookup evm).isSome)
    (hsave : ∀ toCache toSave, phase = .saving toCache toSave →
      ∀ p ∈ toSave, Secured ctx st' (ctx.toLowercase p.1)) :
    ∀ key, Secured ctx st key → Secured ctx st' key := by
  intro key hkey
  rcases hkey with hrow | ⟨evms', count', toCache, toSave, hmem, p, hp, rfl⟩
  · exact Or.inl (hrow.mono hrows)
  · rcases hother _ hmem with hmem | heq
    · exact Or.inr ⟨evms', count', toCache, toSave, hmem, p, hp, rfl⟩
    · exact hsave toCache toSave (Future.evm.inj heq).2.2.symm p hp

theorem idle_of_mem (h : PoolInv ctx st) (hmem : .evm evms count phase ∈ st.pending) (pinged : Bool)
    (hc : st.connection = .connecting pinged) : False :=
  h.idle pinged hc evms count phase hmem

/-- A future that moves on keeps its batch in flight. -/
theorem kept_advance (hi : st.pending[i]? = some (.evm evms count phase)) {key : String}
    (hkey : Kept ctx st key) : Kept ctx (st.advance i (.evm evms count phase')) key := by
  rcases hkey with hq | ⟨evms', count', phase'', hmem, item, hitem, rfl⟩ | hrow
  · exact Or.inl hq
  · rcases mem_advance_or_eq hi hmem with hmem | heq
    · exact Or.inr (Or.inl ⟨evms', count', phase'', hmem, item, hitem, rfl⟩)
    · obtain ⟨rfl, rfl, rfl⟩ := Future.evm.inj heq
      exact Or.inr (Or.inl ⟨evms', count', phase', mem_advance_self hi, item, hitem, rfl⟩)
  · exact Or.inr (Or.inr hrow)

/-- What was secured stays so if the future that moves on drops nothing that is
not. -/
theorem secured_advance (hi : st.pending[i]? = some (.evm evms count phase))
    (hsave : ∀ toCache toSave, phase = .saving toCache toSave → ∀ p ∈ toSave,
      Secured ctx (st.advance i (.evm evms count phase')) (ctx.toLowercase p.1)) :
    ∀ key, Secured ctx st key → Secured ctx (st.advance i (.evm evms count phase')) key :=
  secured_replace ctx (fun _ hg => mem_advance_or_eq hi hg) (fun _ hrow => hrow) hsave

/-- Advancing a future keeps the invariant, if the new phase is sound and what
the future drops from its list is secured. -/
theorem retentionInv_advance (h : RetentionInv ctx st)
    (hi : st.pending[i]? = some (.evm evms count phase))
    (hsave : ∀ toCache toSave, phase = .saving toCache toSave → ∀ p ∈ toSave,
      Secured ctx (st.advance i (.evm evms count phase')) (ctx.toLowercase p.1))
    (hok : (∀ key, Secured ctx st key →
        Secured ctx (st.advance i (.evm evms count phase')) key) →
      PhaseOk ctx (st.advance i (.evm evms count phase')) evms phase') :
    RetentionInv ctx (st.advance i (.evm evms count phase')) := by
  have hsec := secured_advance hi hsave
  refine ⟨h.pool.of_retains ⟨hsec, fun _ hkey => Or.inl hkey, fun evms' count' phase'' hmem => ?_⟩
    (fun pinged hc => (idle_of_mem h.pool (List.mem_of_getElem? hi) pinged hc).elim) h.pool.ping,
    fun a ha hne => kept_advance hi (h.kept a ha hne)⟩
  rcases mem_pending_advance hmem with hmem | heq
  · exact Or.inl hmem
  · obtain ⟨rfl, rfl, rfl⟩ := Future.evm.inj heq
    exact Or.inr (hok hsec)

/-- A future that ends without anything left to save. -/
theorem secured_finish (hi : st.pending[i]? = some (.evm evms count phase))
    (hsave : ∀ toCache toSave, phase = .saving toCache toSave → toSave = []) :
    ∀ key, Secured ctx st key → Secured ctx (st.finish i) key := by
  refine secured_replace ctx (fun g hg => mem_finish_or_eq hi hg) (fun _ hrow => hrow) ?_
  intro toCache toSave hphase p hp
  rw [hsave toCache toSave hphase] at hp
  cases hp

theorem poolInv_finish (h : PoolInv ctx st) (hi : st.pending[i]? = some (.evm evms count phase))
    (hsave : ∀ toCache toSave, phase = .saving toCache toSave → toSave = []) :
    PoolInv ctx (st.finish i) := by
  refine h.of_retains ⟨secured_finish hi hsave, fun _ hkey => Or.inl hkey, fun _ _ _ hmem => ?_⟩
    (fun pinged hc => (idle_of_mem h (List.mem_of_getElem? hi) pinged hc).elim) h.ping
  exact Or.inl (mem_pending_finish hmem)

/-- Only its own batch leaves the pool. -/
theorem kept_finish (hi : st.pending[i]? = some (.evm evms count phase)) {key : String}
    (hkey : Kept ctx st key) :
    Kept ctx (st.finish i) key ∨ ∃ item ∈ evms, ctx.toLowercase item.address = key := by
  rcases hkey with hq | ⟨evms', count', phase'', hmem, item, hitem, rfl⟩ | hrow
  · exact Or.inl (Or.inl hq)
  · rcases mem_finish_or_eq hi hmem with hmem | heq
    · exact Or.inl (Or.inr (Or.inl ⟨evms', count', phase'', hmem, item, hitem, rfl⟩))
    · obtain ⟨rfl, _⟩ := Future.evm.inj heq
      exact Or.inr ⟨item, hitem, rfl⟩
  · exact Or.inl (Or.inr (Or.inr hrow))

end OneFuture

/-! ## Each turn -/

/-- A turn that leaves the batches and the connection alone. -/
theorem retentionInv_extends (h : RetentionInv ctx st) (he : Extends st st')
    (hconnection : st'.connection = st.connection)
    (hnew : ∀ evms count phase, .evm evms count phase ∈ st'.pending →
      .evm evms count phase ∈ st.pending)
    (hping : st'.pinging = true → st.pinging = true) (hreceived : st'.received = st.received) :
    RetentionInv ctx st' := by
  refine ⟨h.pool.of_retains he.retains ?_ ?_, fun a ha hne => ?_⟩
  · intro pinged hc evms count phase hmem
    exact h.pool.idle pinged (hconnection ▸ hc) evms count phase (hnew evms count phase hmem)
  · intro hp
    rw [hconnection]
    exact h.pool.ping (hping hp)
  · rw [hreceived] at ha
    refine he.kept (h.kept a ha hne) ?_
    intro hqueued
    obtain ⟨evmQueue, hc, hevm⟩ := hqueued
    exact Or.inl ⟨evmQueue, hconnection.trans hc, hevm⟩

theorem extends_savedUnlessFresh (hs : SavedUnlessFresh ctx .none st st') : Extends st st' := by
  have hrows := hs.rows
  obtain ⟨t, rfl⟩ := hs.frame
  exact ⟨fun _ _ _ hmem => hmem, fun _ _ _ hmem => Or.inl hmem, hrows, fun _ hkey => hkey⟩

/-- A received address gets a row or goes to the queue. -/
theorem retentionInv_newEvm (h : RetentionInv ctx st) (evm : String) :
    RetentionInv ctx (newEvm ctx { st with received := evm :: st.received } evm .none) := by
  generalize hst : { st with received := evm :: st.received } = st₁
  have hconn : st₁.connection = st.connection := by rw [← hst]
  have hext : Extends st st₁ := by
    rw [← hst]
    exact extends_of_eq rfl rfl fun _ hkey => hkey
  have hrecv : st₁.received = evm :: st.received := by rw [← hst]
  have hpend : st₁.pending = st.pending := by rw [← hst]
  have hpinging : st₁.pinging = st.pinging := by rw [← hst]
  cases hc : st.connection with
  -- There is no queue yet: the address is saved as it comes.
  | connecting pinged =>
    rw [newEvm_connecting st₁ (hconn.trans hc)]
    have hs : SavedUnlessFresh ctx .none st₁ (saveUnlessFresh ctx .none st₁ evm) :=
      savedUnlessFresh st₁ evm
    have he := extends_savedUnlessFresh hs
    have hrow : ((saveUnlessFresh ctx .none st₁ evm).riskScores.lookup evm).isSome :=
      isSome_saveUnlessFresh (by simp [DbFaults.none])
    obtain ⟨t, heq⟩ := hs.frame
    refine ⟨h.pool.of_retains (hext.retains.trans he.retains) ?_ ?_, fun a ha hne => ?_⟩
    · intro pinged' _
      rw [heq, hpend]
      exact h.pool.idle pinged hc
    · intro _
      exact ⟨pinged, by rw [heq]; exact hconn.trans hc⟩
    · have ha' : a ∈ evm :: st.received := by
        rw [heq] at ha
        exact hrecv ▸ ha
      rcases List.mem_cons.mp ha' with rfl | hold
      · exact Or.inr (Or.inr ⟨a, hrow, rfl⟩)
      · refine he.kept (hext.kept (h.kept a hold hne) ?_) ?_
        all_goals
          intro hqueued
          obtain ⟨evmQueue, hq, _⟩ := hqueued
          simp [hc, hconn] at hq
  -- It joins the queue, and what was queued before stays there.
  | screening evmQueue =>
    rw [newEvm_screening st₁ (hconn.trans hc)]
    have he : Extends st₁ { st₁ with connection := .screening (evmQueue ++ [evm]) } :=
      extends_of_eq rfl rfl fun _ hkey => hkey
    refine ⟨h.pool.of_retains (hext.retains.trans he.retains) ?_ ?_, fun a ha hne => ?_⟩
    · exact fun _ hq => nomatch hq
    · intro hp
      obtain ⟨pinged, hp'⟩ := h.pool.ping (hpinging ▸ hp)
      rw [hc] at hp'
      cases hp'
    · have hqueued : ∀ e ∈ evmQueue ++ [evm],
          Kept ctx { st₁ with connection := .screening (evmQueue ++ [evm]) } (ctx.toLowercase e) :=
        fun e he => Or.inl ⟨_, rfl, e, he, rfl⟩
      have ha' : a ∈ evm :: st.received := hrecv ▸ ha
      rcases List.mem_cons.mp ha' with rfl | hold
      · exact hqueued a (List.mem_append_right _ (List.mem_singleton_self _))
      · have hq : ∀ key, (∃ e ∈ evmQueue, ctx.toLowercase e = key) →
            Kept ctx { st₁ with connection := .screening (evmQueue ++ [evm]) } key := by
          intro key hkey
          obtain ⟨e, he, rfl⟩ := hkey
          exact hqueued e (List.mem_append_left _ he)
        rcases h.kept a hold hne with ⟨evmQueue', hc', hevm⟩ | hf | hrow
        · obtain rfl := EvmConnection.screening.inj (hc.symm.trans hc')
          exact hq _ hevm
        · exact Or.inr (Or.inl (he.inFlight (hext.inFlight hf)))
        · exact Or.inr (Or.inr ((hrow.mono hext.rows).mono he.rows))

/-- Connecting has nothing to drop: no queue, no batch, and a row for every
address received. -/
theorem retentionInv_connected (h : RetentionInv ctx st) (hping : st.pinging = true)
    (evmQueue : List String) :
    RetentionInv ctx { st with connection := .screening evmQueue, pinging := false } := by
  obtain ⟨pinged, hc⟩ := h.pool.ping hping
  have he : Extends st { st with connection := .screening evmQueue, pinging := false } :=
    extends_of_eq rfl rfl fun _ hkey => hkey
  refine ⟨h.pool.of_retains he.retains (fun _ hq => nomatch hq) (fun hp => nomatch hp),
    fun a ha hne => he.kept (h.kept a ha hne) ?_⟩
  intro hqueued
  obtain ⟨evmQueue', hq, _⟩ := hqueued
  rw [hc] at hq
  cases hq

theorem retentionInv_tick (h : RetentionInv ctx st) (reconnect : Bool) :
    RetentionInv ctx (processEvms ctx
      { connect st reconnect with
        pending := (connect st reconnect).pending ++
          (connect st reconnect).guidQueue.map fun guid => Future.guid guid 0
        guidQueue := [] } [] 0 .none) := by
  have hguids : ∀ (st : EnricherState) evms count phase,
      Future.evm evms count phase ∈
        st.pending ++ st.guidQueue.map (fun guid => Future.guid guid 0) →
      .evm evms count phase ∈ st.pending := by
    intro st evms count phase hmem
    rcases List.mem_append.mp hmem with hmem | hmem
    · exact hmem
    · obtain ⟨guid, _, hguid⟩ := List.mem_map.mp hmem
      cases hguid
  have hinv : RetentionInv ctx (connect st reconnect) := by
    rcases connect_cases st reconnect with ⟨pinged, pinged', pinging, hc, heq⟩ | ⟨_, _, heq⟩
    · rw [heq]
      have he : Extends st { st with connection := .connecting pinged', pinging } :=
        extends_of_eq rfl rfl fun _ hkey => hkey
      refine ⟨h.pool.of_retains he.retains (fun _ _ => h.pool.idle pinged hc)
        (fun _ => ⟨pinged', rfl⟩), fun a ha hne => he.kept (h.kept a ha hne) ?_⟩
      intro hqueued
      obtain ⟨evmQueue, hq, _⟩ := hqueued
      rw [hc] at hq
      cases hq
    · rwa [heq]
  have hinv' : RetentionInv ctx { connect st reconnect with
      pending := (connect st reconnect).pending ++
        (connect st reconnect).guidQueue.map fun guid => Future.guid guid 0
      guidQueue := [] } := by
    refine retentionInv_extends hinv ⟨?_, ?_, fun _ hrow => hrow, fun _ hkey => hkey⟩ rfl
      (hguids _) (fun hp => hp) rfl
    · exact fun _ _ _ hmem => List.mem_append_left _ hmem
    · exact fun evms count phase hmem => Or.inl (hguids _ evms count phase hmem)
  exact retentionInv_processEvms hinv'.pool (fun _ _ => rfl) fun a ha hne =>
    Or.inl (hinv'.kept a ha hne)

/-- Ending a GUID's future leaves the batches alone. -/
theorem retentionInv_finish_guid {i count : ℕ} {guid : String} (h : RetentionInv ctx st)
    (hi : st.pending[i]? = some (.guid guid count)) : RetentionInv ctx (st.finish i) := by
  refine retentionInv_extends h ⟨?_, ?_, fun _ hrow => hrow, fun _ hkey => hkey⟩ rfl
    (fun _ _ _ hmem => mem_pending_finish hmem) (fun hp => hp) rfl
  · intro evms count' phase hmem
    rcases mem_finish_or_eq hi hmem with hmem | heq
    · exact hmem
    · cases heq
  · exact fun evms count' phase hmem => Or.inl (mem_pending_finish hmem)

/-- A response secures every address of its batch: one that is not saved was a
cache hit. -/
theorem retentionInv_saving {i count : ℕ} {evms : List EvmItem}
    {results results' : List HypernativeResult} {toProcess toCache : List String}
    (hcase : ∀ a b, eqIgnoreAsciiCase a b = true → ctx.toLowercase a = ctx.toLowercase b)
    (h : RetentionInv ctx st)
    (hi : st.pending[i]? = some (.evm evms count (.fetching results toProcess [])))
    (hdup : ∀ r ∈ results', r.duplicate = true → r ∈ results)
    (hcache : ∀ key ∈ toCache, ∃ a ∈ toProcess, key = ctx.toLowercase a) :
    RetentionInv ctx (st.advance i
      (.evm evms count (.saving toCache (scoresToSave results' (itemAddrs evms))))) := by
  refine retentionInv_advance h hi (fun _ _ hphase => nomatch hphase) fun hsec => ?_
  obtain ⟨haddrs, hresults⟩ := h.pool.phases _ _ _ (List.mem_of_getElem? hi)
  have hall : ∀ a ∈ itemAddrs evms, Secured ctx (st.advance i
      (.evm evms count (.saving toCache (scoresToSave results' (itemAddrs evms)))))
      (ctx.toLowercase a) := by
    intro a ha
    rcases mem_scoresToSave results' ha with ⟨r, hr⟩ | ⟨r, hr, hd, heq⟩
    · exact Or.inr ⟨evms, count, toCache, _, mem_advance_self hi, (a, r), hr, rfl⟩
    · -- Skipped as a cache hit of an address equal up to case, secured before.
      rw [← hcase r.address a heq]
      exact hsec _ (hresults r (hdup r hr hd))
  refine ⟨fun key hkey => ?_, hall, fun p hp => mem_addrs_of_mem_scoresToSave hp⟩
  obtain ⟨a, ha, rfl⟩ := hcache key hkey
  exact hall a (haddrs a (List.mem_append_left _ ha))

/-- Saving a score turns a key secured by the future into one secured by a row. -/
theorem retentionInv_saved {i count : ℕ} {evms : List EvmItem} {evm : String}
    {result : HypernativeResult} {toSave : List (String × HypernativeResult)} {score : EvmRiskScore}
    (h : RetentionInv ctx st)
    (hi : st.pending[i]? = some (.evm evms count (.saving [] ((evm, result) :: toSave))))
    (hscore : score.evmAddress = evm) :
    RetentionInv ctx (save .none (st.advance i (.evm evms count (.saving [] toSave))) score) := by
  obtain ⟨_, hall, hsave⟩ := h.pool.phases _ _ _ (List.mem_of_getElem? hi)
  have hlookup := lookup_save .none (st.advance i (.evm evms count (.saving [] toSave))) score
  obtain ⟨t, heq⟩ := save_eq .none (st.advance i (.evm evms count (.saving [] toSave))) score
  generalize save .none (st.advance i (.evm evms count (.saving [] toSave))) score = st₁
    at hlookup heq ⊢
  have hrows : ∀ evm', (st.riskScores.lookup evm').isSome →
      (st₁.riskScores.lookup evm').isSome := by
    intro evm' hrow
    rw [hlookup]
    split
    · rfl
    · exact hrow
  have hrow : (st₁.riskScores.lookup evm).isSome := by
    rw [hlookup, if_pos ⟨hscore.symm, by simp [DbFaults.none]⟩]
    rfl
  have hpend : st₁.pending = (st.advance i (.evm evms count (.saving [] toSave))).pending := by
    rw [heq]
  have hother : ∀ g ∈ st.pending,
      g ∈ st₁.pending ∨ g = .evm evms count (.saving [] ((evm, result) :: toSave)) := by
    intro g hg
    rw [hpend]
    exact mem_advance_or_eq hi hg
  -- What was on its way to this save now has a row.
  have hsec : ∀ key, Secured ctx st key → Secured ctx st₁ key := by
    refine secured_replace ctx hother hrows ?_
    intro _ _ hphase p hp
    obtain ⟨_, rfl⟩ := EvmPhase.saving.inj hphase
    rcases List.mem_cons.mp hp with rfl | hp
    · exact Or.inl ⟨evm, hrow, rfl⟩
    · exact Or.inr ⟨evms, count, [], toSave, hpend ▸ mem_advance_self hi, p, hp, rfl⟩
  refine ⟨h.pool.of_retains ⟨hsec, fun key hkey => ?_, fun evms' count' phase hmem => ?_⟩
    (fun pinged hc => ?_) fun hp => ?_, fun a ha hne => ?_⟩
  · rw [heq] at hkey
    exact Or.inl hkey
  · rw [hpend] at hmem
    rcases mem_pending_advance hmem with hmem | hnew
    · exact Or.inl hmem
    · obtain ⟨rfl, rfl, rfl⟩ := Future.evm.inj hnew
      exact Or.inr ⟨(fun _ hk => nomatch hk), fun a ha => hsec _ (hall a ha),
        fun p hp => hsave p (List.mem_cons_of_mem _ hp)⟩
  · rw [heq] at hc
    exact (idle_of_mem h.pool (List.mem_of_getElem? hi) pinged hc).elim
  · rw [heq] at hp ⊢
    exact h.pool.ping hp
  · have hold : a ∈ st.received := by
      rw [heq] at ha
      exact ha
    rcases kept_advance hi (h.kept a hold hne) with ⟨evmQueue, hq, hevm⟩ | hf | hold
    · exact Or.inl ⟨evmQueue, by rw [heq]; exact hq, hevm⟩
    · obtain ⟨evms', count', phase, hmem, hitem⟩ := hf
      exact Or.inr (Or.inl ⟨evms', count', phase, hpend ▸ hmem, hitem⟩)
    · exact Or.inr (Or.inr (hold.mono hrows))

/-- A resolved GUID brings an address, which is screened at once. -/
theorem retentionInv_resolved {i count : ℕ} {guid : String} (evm : String)
    (h : RetentionInv ctx st) (hi : st.pending[i]? = some (.guid guid count)) :
    RetentionInv ctx (processEvms ctx { st.finish i with received := evm :: st.received }
      [⟨evm, 0⟩] 0 .none) := by
  have hinv := retentionInv_finish_guid h hi
  have he : Extends (st.finish i) { st.finish i with received := evm :: st.received } :=
    extends_of_eq rfl rfl fun _ hkey => hkey
  refine retentionInv_processEvms (hinv.pool.of_retains he.retains hinv.pool.idle hinv.pool.ping)
    (fun _ _ => rfl) fun a ha hne => ?_
  rcases List.mem_cons.mp ha with rfl | hold
  · exact Or.inr ⟨_, List.mem_singleton_self _, rfl⟩
  · refine Or.inl (he.kept (hinv.kept a hold hne) ?_)
    exact fun hq => Or.inl hq

/-- A GUID that is tried again is no batch of addresses. -/
theorem retentionInv_retried {i count : ℕ} {guid : String} (h : RetentionInv ctx st)
    (hi : st.pending[i]? = some (.guid guid count)) :
    RetentionInv ctx
      { st.finish i with pending := (st.finish i).pending ++ [.guid guid (count + 1)] } := by
  have hinv := retentionInv_finish_guid h hi
  have hmem_of : ∀ evms count' phase,
      Future.evm evms count' phase ∈ (st.finish i).pending ++ [.guid guid (count + 1)] →
      .evm evms count' phase ∈ (st.finish i).pending := by
    intro evms count' phase hmem
    rcases List.mem_append.mp hmem with hmem | hmem
    · exact hmem
    · cases List.mem_singleton.mp hmem
  refine retentionInv_extends hinv ⟨?_, ?_, fun _ hrow => hrow, fun _ hkey => hkey⟩ rfl hmem_of
    (fun hp => hp) rfl
  · exact fun _ _ _ hmem => List.mem_append_left _ hmem
  · exact fun evms count' phase hmem => Or.inl (hmem_of evms count' phase hmem)

/-- A key goes to the cache before its row is saved; the batch still has the row to save. -/
theorem retentionInv_cached {i count : ℕ} {evms : List EvmItem} {key : String}
    {toCache : List String} {toSave : List (String × HypernativeResult)}
    (h : RetentionInv ctx st)
    (hi : st.pending[i]? = some (.evm evms count (.saving (key :: toCache) toSave))) :
    RetentionInv ctx { st.advance i (.evm evms count (.saving toCache toSave)) with
      cache := key :: st.cache } := by
  obtain ⟨hkeys, hall, hsave⟩ := h.pool.phases _ _ _ (List.mem_of_getElem? hi)
  have hdrop : ∀ toCache' toSave',
      EvmPhase.saving (key :: toCache) toSave = .saving toCache' toSave' → ∀ p ∈ toSave',
      Secured ctx (st.advance i (.evm evms count (.saving toCache toSave)))
        (ctx.toLowercase p.1) := by
    intro _ _ hphase p hp
    obtain ⟨_, rfl⟩ := EvmPhase.saving.inj hphase
    exact Or.inr ⟨evms, count, toCache, _, mem_advance_self hi, p, hp, rfl⟩
  have hinv := retentionInv_advance h hi hdrop fun hsec =>
    ⟨fun k hk => hsec _ (hkeys k (List.mem_cons_of_mem _ hk)),
      fun a ha => hsec _ (hall a ha), hsave⟩
  have hkey := secured_advance hi hdrop key (hkeys key (List.mem_cons_self ..))
  refine ⟨⟨hinv.pool.idle, hinv.pool.ping, fun k hk => ?_, hinv.pool.phases⟩, hinv.kept⟩
  rcases List.mem_cons.mp hk with rfl | hk
  · exact hkey
  · exact hinv.pool.cached k hk

/-- All of a finished batch is secured, by another future or by a row. -/
theorem retentionInv_done {i count : ℕ} {evms : List EvmItem} (h : RetentionInv ctx st)
    (hi : st.pending[i]? = some (.evm evms count (.saving [] []))) :
    RetentionInv ctx (st.finish i) := by
  have hsave : ∀ toCache toSave, EvmPhase.saving [] [] = .saving toCache toSave → toSave = [] :=
    fun _ _ hphase => (EvmPhase.saving.inj hphase).2.symm
  have hpool := poolInv_finish h.pool hi hsave
  refine ⟨hpool, fun a ha hne => ?_⟩
  rcases kept_finish hi (h.kept a ha hne) with hkept | ⟨item, hitem, hkey⟩
  · exact hkept
  · have hmem := mem_itemAddrs_of_ne hitem hkey hne
    have hold := (h.pool.phases _ _ _ (List.mem_of_getElem? hi)).2.1 item.address hmem
    rw [← hkey]
    exact (secured_finish hi hsave _ hold).kept hpool.phases

/-- Every turn keeps the invariant when its database calls succeed. -/
theorem retentionInv_step {a : LoopAction}
    (hcase : ∀ a b, eqIgnoreAsciiCase a b = true → ctx.toLowercase a = ctx.toLowercase b)
    (h : RetentionInv ctx st) (hC : a.faults = .none) (hstep : step ctx st a = some st') :
    RetentionInv ctx st' := by
  cases turn_of_step hstep with
  | recvGuid guid =>
    exact retentionInv_extends h (extends_of_eq rfl rfl fun _ hkey => hkey) rfl
      (fun _ _ _ hmem => hmem) (fun hp => hp) rfl
  | recvEvm evm faults =>
    obtain rfl : faults = .none := hC
    exact retentionInv_newEvm h evm
  | pingFailed hping =>
    exact retentionInv_extends h (extends_of_eq rfl rfl fun _ hkey => hkey) rfl
      (fun _ _ _ hmem => hmem) (fun _ => hping) rfl
  | connected evmQueue hping => exact retentionInv_connected h hping evmQueue
  | tick reconnect faults =>
    obtain rfl : faults = .none := hC
    exact retentionInv_tick h reconnect
  | guidResolved evm faults hi =>
    obtain rfl : faults = .none := hC
    exact retentionInv_resolved evm h hi
  | guidEnded hi _ => exact retentionInv_finish_guid h hi
  | guidRetried hi => exact retentionInv_retried h hi
  -- No address was left in the batch, so no key is lost with it.
  | @evmSkipped i evms count hi hnone =>
    refine ⟨poolInv_finish h.pool hi (fun _ _ hphase => nomatch hphase), fun a ha hne => ?_⟩
    rcases kept_finish hi (h.kept a ha hne) with hkept | ⟨item, hitem, hkey⟩
    · exact hkept
    · have hmem := mem_itemAddrs_of_ne hitem hkey hne
      rw [hnone] at hmem
      cases hmem
  | evmStarted hi =>
    refine retentionInv_advance h hi (fun _ _ hphase => nomatch hphase) fun _ => ?_
    exact ⟨fun a ha => ha, (fun _ hr => nomatch hr)⟩
  | @evmHit i evms count results toProcess addr rest hi hcached =>
    refine retentionInv_advance h hi (fun _ _ hphase => nomatch hphase) fun hsec => ?_
    obtain ⟨haddrs, hresults⟩ := h.pool.phases _ _ _ (List.mem_of_getElem? hi)
    refine ⟨fun a ha => ?_, fun r hr => ?_⟩
    · rcases List.mem_append.mp ha with ha | ha
      · exact haddrs a (List.mem_append_left _ ha)
      · exact haddrs a (List.mem_append_right _ (List.mem_cons_of_mem _ ha))
    · rcases List.mem_append.mp hr with hr | hr
      · exact hsec _ (hresults r hr)
      · rw [List.mem_singleton.mp hr]
        exact hsec _ (h.pool.cached _ hcached)
  | @evmMissed i evms count results toProcess addr rest hi =>
    refine retentionInv_advance h hi (fun _ _ hphase => nomatch hphase) fun hsec => ?_
    obtain ⟨haddrs, hresults⟩ := h.pool.phases _ _ _ (List.mem_of_getElem? hi)
    refine ⟨fun a ha => haddrs a ?_, fun r hr => hsec _ (hresults r hr)⟩
    simpa using ha
  | evmAllHit hi =>
    exact retentionInv_saving hcase h hi (fun r hr _ => hr) (fun _ hkey => nomatch hkey)
  | evmAnswered hi hresponse =>
    obtain ⟨hdup, hcache⟩ := duplicate_of_handleResponse hresponse
    exact retentionInv_saving hcase h hi hdup hcache
  -- The items go back into a batch with one more failure and the keys they had.
  | @evmFailed i evms count results toProcess response faults hi hne hresponse =>
    obtain rfl : faults = .none := hC
    refine retentionInv_processEvms (poolInv_finish h.pool hi (fun _ _ hphase => nomatch hphase))
      (fun pinged hc => (idle_of_mem h.pool (List.mem_of_getElem? hi) pinged hc).elim)
      fun a ha hne' => ?_
    refine (kept_finish hi (h.kept a ha hne')).imp_right ?_
    intro hbatch
    obtain ⟨item, hitem, hkey⟩ := hbatch
    refine ⟨item.failed, List.mem_map_of_mem hitem, ?_⟩
    rw [← hkey, EvmItem.failed_address]
  | evmCached hi => exact retentionInv_cached h hi
  | @evmSaved i evms count evm result toSave faults hi =>
    obtain rfl : faults = .none := hC
    exact retentionInv_saved h hi rfl
  | evmDone hi => exact retentionInv_done h hi
  | evicted key =>
    exact retentionInv_extends h
      (extends_of_eq rfl rfl fun _ hkey => (List.mem_filter.mp hkey).1) rfl
      (fun _ _ _ hmem => hmem) (fun hp => hp) rfl
  | clock now =>
    exact retentionInv_extends h (extends_of_eq rfl rfl fun _ hkey => hkey) rfl
      (fun _ _ _ hmem => hmem) (fun hp => hp) rfl

end Keep

theorem retentionInv_init (ctx : LoopCtx) (pendingGuids : List String)
    (riskScores : Table String EvmRiskScore) (now : NaiveDateTime) :
    RetentionInv ctx (init pendingGuids riskScores now) := by
  refine ⟨⟨?_, ?_, ?_, ?_⟩, ?_⟩
  · exact fun _ _ _ _ _ hmem => nomatch hmem
  · exact fun hping => nomatch hping
  · exact fun _ hkey => nomatch hkey
  · exact fun _ _ _ hmem => nomatch hmem
  · exact fun _ ha => nomatch ha

/-- **No address is lost.** In every run whose database calls succeed, every
address received or resolved, the sentinel apart, is queued, in flight or has a
row, up to letter case. The law about `to_lowercase` is that of the Rust
function: it does not tell apart what differs in the case of ASCII letters. -/
theorem received_kept (ctx : LoopCtx)
    (hcase : ∀ a b, eqIgnoreAsciiCase a b = true → ctx.toLowercase a = ctx.toLowercase b)
    (pendingGuids : List String) (riskScores : Table String EvmRiskScore) (now : NaiveDateTime)
    (trace : List LoopAction) (st : EnricherState)
    (hrun : Run (step ctx) (fun _ a => a.faults = .none) (init pendingGuids riskScores now)
      trace st) :
    ∀ a ∈ st.received, ctx.toLowercase a ≠ ctx.toLowercase evmNullSentinel →
      Kept ctx st (ctx.toLowercase a) := by
  have hinv : RetentionInv ctx st :=
    hrun.invariant (retentionInv_init ctx pendingGuids riskScores now)
      fun _ _ _ h hC hstep => retentionInv_step hcase h hC hstep
  exact hinv.kept

/-- `0xAB` is screened while `0xab` waits in the queue; on its turn `0xab` is a
cache hit, and the row that keeps it is the one of `0xAB`. -/
def twoCasesTrace : List LoopAction :=
  [.tick false .none, .pingDone (.connected [] []), .recvEvm "0xAB" .none, .tick false .none,
    .evmStart 0, .evmCheck 0, .recvEvm "0xab" .none,
    .evmRespond 0 (.body (.object [("data", .array [])])) .none, .evmCache 0,
    .tick false .none, .evmStart 1, .evmCheck 1, .evmRespond 1 .failed .none, .evmDone 1,
    .evmSave 0 .none, .evmDone 0]

theorem received_kept_twoCases :
    ∃ st, Run (step hourCtx) (fun _ a => a.faults = .none)
        (init [] ∅ 0) twoCasesTrace st ∧
      (st.received = ["0xab", "0xAB"] ∧ st.connection = .screening [] ∧ st.pending = [] ∧
        st.riskScores.lookup "0xab" = none) ∧
      Kept hourCtx st "0xab" := by
  obtain ⟨st, hrun, hst⟩ := exists_run (step hourCtx)
    (fun _ a => a.faults = .none) (init [] ∅ 0) twoCasesTrace
    (fun st => st.received = ["0xab", "0xAB"] ∧ st.connection = .screening [] ∧ st.pending = [] ∧
      st.riskScores.lookup "0xab" = none) (by decide +kernel)
  refine ⟨st, hrun, hst, ?_⟩
  have hlower : hourCtx.toLowercase "0xab" = "0xab" := by decide +kernel
  have hkept := received_kept hourCtx
    (fun a b hab => of_decide_eq_true hab) [] ∅ 0 twoCasesTrace st hrun "0xab"
    (by rw [hst.1]; simp) (by decide +kernel)
  rwa [hlower] at hkept

end IndexerProcessors.Screening

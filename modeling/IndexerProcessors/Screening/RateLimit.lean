import IndexerProcessors.Lib.Run
import IndexerProcessors.Lib.SlidingWindow

/-!
# The rate limiter of the screening client

`RateLimiter` (`hypernative.rs`) lets a call pass while fewer than `max_rps`
calls have passed in the last second, and only then has it wait for a
concurrency permit. The request goes out after both waits. A 429 spawns a pause,
which takes all permits and keeps them for a while.

What the window bounds is how many calls pass it in a second. Calls that have
passed queue up while permits are taken, and go out together when they come
free. `requests_bounded` says when the bound on passing is a bound on sending:
when calls sent within a second of each other have passed within a second of
each other.

A run is any interleaving of the steps between two `await`s of any number of
calls and pauses. The semaphore hands permits out in any order here, which
allows more runs than its queue does. Times are in nanoseconds.
-/

namespace IndexerProcessors.Screening

open IndexerProcessors.Lib

/-- `Duration::from_secs(1)`. -/
def second : ℕ := 1000000000

/-- The limits of a `RateLimiter`. -/
structure RateLimiter where
  maxConcurrent : UInt32
  maxRps : UInt32

/-- `RateLimiter::new`. -/
def RateLimiter.new (maxConcurrent maxRps : UInt32) : RateLimiter :=
  ⟨if maxConcurrent = 0 then 10000 else maxConcurrent, maxRps⟩

/-- A `fetch_batch` call, by what it waits for. `passed` is when it got past the
sliding window. -/
inductive FetchCall where
  /-- In `wait_for_rps_slot`, asleep until `wake`. -/
  | waitingForSlot (wake : ℕ)
  | waitingForPermit (passed : ℕ)
  /-- Asking the cache. -/
  | holdingPermit (passed : ℕ)
  | inFlight (passed sentAt : ℕ)
  /-- Returned; without a request if every address was cached. -/
  | finished (passed : ℕ) (sentAt : Option ℕ)
  deriving DecidableEq, Repr

def FetchCall.passedAt : FetchCall → Option ℕ
  | .waitingForSlot _ => none
  | .waitingForPermit passed | .holdingPermit passed => some passed
  | .inFlight passed _ | .finished passed _ => some passed

def FetchCall.sentAt : FetchCall → Option ℕ
  | .inFlight _ sentAt => some sentAt
  | .finished _ sentAt => sentAt
  | .waitingForSlot _ | .waitingForPermit _ | .holdingPermit _ => none

/-- The limiter and the calls of a client. `stamps` logs what was ever pushed to
the window. -/
structure Client where
  now : ℕ
  rpsWindow : List ℕ
  available : ℕ
  calls : List FetchCall
  pausesWaiting : ℕ
  pausedUntil : Option ℕ
  stamps : List ℕ

def Client.init (rl : RateLimiter) : Client :=
  ⟨0, [], rl.maxConcurrent.toNat, [], 0, none, []⟩

/-- What a turn of the loop of `wait_for_rps_slot` ends with. -/
inductive SlotTurn where
  | stamped (window : List ℕ)
  | sleep (window : List ℕ) (duration : ℕ)
  | panicked

/-- A turn of the loop of `wait_for_rps_slot`, under the lock. -/
def waitForRpsSlot (maxRps : UInt32) (now : ℕ) (window : List ℕ) : SlotTurn :=
  let window := evict second now window
  if UInt32.ofNat window.length < maxRps then .stamped (window ++ [now])
  else
    match window with
    | [] => .panicked
    | oldest :: _ =>
      .sleep window (if now - oldest ≤ second then second - (now - oldest) else 1000000)

/-- The steps of the calls and pauses, and of the clock. -/
inductive ClientAction where
  | clock (d : ℕ)
  | fetchBatch
  | waitForRpsSlot (i : ℕ)
  | takePermit (i : ℕ)
  | allCached (i : ℕ)
  | send (i : ℕ)
  | respond (i : ℕ) (tooManyRequests : Bool)
  | startPause
  | endPause
  deriving DecidableEq, Repr

def Client.setCall (st : Client) (i : ℕ) (c : FetchCall) : Client :=
  { st with calls := st.calls.set i c }

def Client.step (rl : RateLimiter) (backoff429 : ℕ) (st : Client) : ClientAction → Option Client
  | .clock d => some { st with now := st.now + d }
  | .fetchBatch =>
    -- `max_rps = 0` is no limit.
    let call := if 0 < rl.maxRps then .waitingForSlot st.now else .waitingForPermit st.now
    some { st with calls := st.calls ++ [call] }
  | .waitForRpsSlot i =>
    match st.calls[i]? with
    | some (.waitingForSlot wake) =>
      if wake ≤ st.now then
        match Screening.waitForRpsSlot rl.maxRps st.now st.rpsWindow with
        | .stamped window =>
          some { st.setCall i (.waitingForPermit st.now) with
            rpsWindow := window
            stamps := st.stamps ++ [st.now] }
        | .sleep window duration =>
          some { st.setCall i (.waitingForSlot (st.now + duration)) with rpsWindow := window }
        | .panicked => none
      else none
    | _ => none
  | .takePermit i =>
    match st.calls[i]? with
    | some (.waitingForPermit passed) =>
      if 0 < st.available then
        some { st.setCall i (.holdingPermit passed) with available := st.available - 1 }
      else none
    | _ => none
  | .allCached i =>
    match st.calls[i]? with
    | some (.holdingPermit passed) =>
      some { st.setCall i (.finished passed none) with available := st.available + 1 }
    | _ => none
  | .send i =>
    match st.calls[i]? with
    | some (.holdingPermit passed) => some (st.setCall i (.inFlight passed st.now))
    | _ => none
  | .respond i tooManyRequests =>
    match st.calls[i]? with
    | some (.inFlight passed sentAt) =>
      some { st.setCall i (.finished passed (some sentAt)) with
        available := st.available + 1
        pausesWaiting := st.pausesWaiting + if tooManyRequests then 1 else 0 }
    | _ => none
  | .startPause =>
    -- `acquire_many_owned(max_concurrent)`.
    if 0 < st.pausesWaiting ∧ st.available = rl.maxConcurrent.toNat then
      some { st with
        available := 0
        pausesWaiting := st.pausesWaiting - 1
        pausedUntil := some (st.now + backoff429) }
    else none
  | .endPause =>
    match st.pausedUntil with
    | some wake =>
      if wake ≤ st.now then
        some { st with
          available := st.available + rl.maxConcurrent.toNat
          pausedUntil := none }
      else none
    | none => none

/-- At most `max_rps` requests are sent in any half-open window of a second. -/
def RequestsBounded (rl : RateLimiter) (st : Client) : Prop :=
  ∀ t, st.calls.countP (fun c => inWindow second t c.sentAt) ≤ rl.maxRps.toNat

/-- A call that is sent has passed the window within a second of every call sent
in the last second. -/
def SentAsPassed (st : Client) : ClientAction → Prop
  | .send i => ∀ passed ∈ st.calls[i]?.bind FetchCall.passedAt, ∀ c ∈ st.calls,
      ∀ p ∈ c.passedAt, ∀ t ∈ c.sentAt, st.now < t + second →
        p < passed + second ∧ passed < p + second
  | _ => True

instance (st : Client) : (a : ClientAction) → Decidable (SentAsPassed st a)
  | .send _ => inferInstanceAs (Decidable (∀ _ ∈ _, _))
  | .clock _ | .fetchBatch | .waitForRpsSlot _ | .takePermit _ | .allCached _ | .respond _ _
  | .startPause | .endPause => inferInstanceAs (Decidable True)

/-! ## The window -/

/-- A turn of the loop stamps the call if there is room, and otherwise sleeps
until the oldest stamp leaves the window. It does not panic, and the fallback of
a millisecond is never needed. -/
theorem waitForRpsSlot_cases {maxRps : UInt32} (now : ℕ) {window : List ℕ} (hrps : 0 < maxRps)
    (hroom : window.length ≤ maxRps.toNat) :
    ((evict second now window).length < maxRps.toNat ∧
      waitForRpsSlot maxRps now window = .stamped (evict second now window ++ [now])) ∨
    ∃ oldest rest, evict second now window = oldest :: rest ∧
      waitForRpsSlot maxRps now window =
        .sleep (evict second now window) (second - (now - oldest)) := by
  have hlen : (evict second now window).length ≤ window.length :=
    (List.dropWhile_sublist _).length_le
  have hmax : maxRps.toNat < UInt32.size := maxRps.toNat_lt
  -- The cast of the length loses nothing.
  have hcast : UInt32.ofNat (evict second now window).length < maxRps ↔
      (evict second now window).length < maxRps.toNat := by
    rw [UInt32.lt_iff_toNat_lt, UInt32.toNat_ofNat_of_lt' (by omega)]
  unfold waitForRpsSlot
  simp only
  by_cases hlt : (evict second now window).length < maxRps.toNat
  · rw [if_pos (hcast.mpr hlt)]
    exact Or.inl ⟨hlt, rfl⟩
  · rw [if_neg (mt hcast.mp hlt)]
    cases hw : evict second now window with
    | nil =>
      rw [hw] at hlt
      have hpos := UInt32.lt_iff_toNat_lt.mp hrps
      exact absurd hpos hlt
    | cons oldest rest =>
      have hcounts := Limits.lt_of_head_evict hw
      refine Or.inr ⟨oldest, rest, rfl, ?_⟩
      simp only
      rw [if_pos hcounts.le]

/-! ## The invariant -/

/-- What the bound is about, of each call: when it passed and when it was sent. -/
def Client.observed (st : Client) : List (Option ℕ × Option ℕ) :=
  st.calls.map fun c => (c.passedAt, c.sentAt)

/-- The window holds, the calls' times of passing are the stamps, and calls are
sent as close to each other as they passed. -/
structure LimiterInv (rl : RateLimiter) (now : ℕ) (window stamps : List ℕ)
    (observed : List (Option ℕ × Option ℕ)) : Prop where
  limits : Limits second rl.maxRps.toNat now stamps window
  counted : ∀ p : ℕ → Bool, observed.countP (fun o => o.1.any p) = stamps.countP p
  past : ∀ o ∈ observed, ∀ t ∈ o.2, t ≤ now
  passed : ∀ o ∈ observed, o.2.isSome → o.1.isSome
  close : CloseTogether second Prod.fst Prod.snd observed

def ClientInv (rl : RateLimiter) (st : Client) : Prop :=
  LimiterInv rl st.now st.rpsWindow st.stamps st.observed

section Invariant

variable {rl : RateLimiter} {now : ℕ} {window stamps : List ℕ}
  {observed : List (Option ℕ × Option ℕ)}

theorem LimiterInv.later (h : LimiterInv rl now window stamps observed) {now' : ℕ}
    (hle : now ≤ now') : LimiterInv rl now' window stamps observed :=
  ⟨h.limits.later hle, h.counted, fun o ho t ht => (h.past o ho t ht).trans hle, h.passed, h.close⟩

theorem LimiterInv.evict (h : LimiterInv rl now window stamps observed) :
    LimiterInv rl now (Lib.evict second now window) stamps observed :=
  ⟨h.limits.evict, h.counted, h.past, h.passed, h.close⟩

/-- A new call has not passed. -/
theorem LimiterInv.fetchBatch (h : LimiterInv rl now window stamps observed) :
    LimiterInv rl now window stamps (observed ++ [(none, none)]) := by
  have hmem : ∀ o ∈ observed ++ [(none, none)], o ∈ observed ∨ o.1 = none ∧ o.2 = none := by
    intro o ho
    rcases List.mem_append.mp ho with ho | ho
    · exact Or.inl ho
    · obtain rfl := List.mem_singleton.mp ho
      exact Or.inr ⟨rfl, rfl⟩
  refine ⟨h.limits, fun p => ?_, fun o ho t ht => ?_, fun o ho hsent => ?_, ?_⟩
  · rw [List.countP_append, h.counted]
    simp
  · rcases hmem o ho with ho | ⟨_, hnone⟩
    · exact h.past o ho t ht
    · simp [hnone] at ht
  · rcases hmem o ho with ho | ⟨_, hnone⟩
    · exact h.passed o ho hsent
    · simp [hnone] at hsent
  · intro a ha b hb s s' t t' hs hs' ht ht'
    rcases hmem a ha with ha | ⟨hnone, _⟩
    · rcases hmem b hb with hb | ⟨hnone, _⟩
      · exact h.close a ha b hb s s' t t' hs hs' ht ht'
      · cases hnone.symm.trans hs'
    · cases hnone.symm.trans hs

/-- A waiting call passes. -/
theorem LimiterInv.stamp (h : LimiterInv rl now window stamps observed)
    (hroom : window.length < rl.maxRps.toNat) {i : ℕ} (hi : observed[i]? = some (none, none)) :
    LimiterInv rl now (window ++ [now]) (stamps ++ [now])
      (observed.set i (some now, none)) := by
  obtain ⟨hlt, hget⟩ := List.getElem?_eq_some_iff.mp hi
  have hmem : ∀ o ∈ observed.set i (some now, none), o ∈ observed ∨ o = (some now, none) :=
    fun o ho => List.mem_or_eq_of_mem_set ho
  refine ⟨h.limits.push hroom, fun p => ?_, fun o ho t ht => ?_, fun o ho hsent => ?_, ?_⟩
  · rw [List.countP_set hlt, hget, h.counted, List.countP_append]
    simp [List.countP_cons]
  · rcases hmem o ho with ho | rfl
    · exact h.past o ho t ht
    · cases ht
  · rcases hmem o ho with ho | rfl
    · exact h.passed o ho hsent
    · rfl
  · intro a ha b hb s s' t t' hs hs' ht ht'
    rcases hmem a ha with ha | rfl
    · rcases hmem b hb with hb | rfl
      · exact h.close a ha b hb s s' t t' hs hs' ht ht'
      · cases ht'
    · cases ht

/-- A call that has passed is sent, close to those sent before. -/
theorem LimiterInv.send (h : LimiterInv rl now window stamps observed) {i passed : ℕ}
    (hi : observed[i]? = some (some passed, none))
    (hclose : ∀ o ∈ observed, ∀ p ∈ o.1, ∀ t ∈ o.2, now < t + second →
      p < passed + second ∧ passed < p + second) :
    LimiterInv rl now window stamps (observed.set i (some passed, some now)) := by
  obtain ⟨hlt, hget⟩ := List.getElem?_eq_some_iff.mp hi
  have hmem : ∀ o ∈ observed.set i (some passed, some now),
      o ∈ observed ∨ o = (some passed, some now) := fun o ho => List.mem_or_eq_of_mem_set ho
  -- The window counts passes, not sends, so it is as before; only the closeness is new.
  refine ⟨h.limits, fun p => ?_, fun o ho t ht => ?_, fun o ho hsent => ?_, ?_⟩
  · rw [List.countP_set hlt, hget]
    simp only [Option.any_some]
    rw [← h.counted]
    by_cases hp : p passed = true
    · have hpos : 0 < observed.countP fun o => o.1.any p :=
        List.countP_pos_iff.mpr ⟨_, List.mem_of_getElem? hi, hp⟩
      simp only [hp, if_true]
      omega
    · simp [hp]
  · rcases hmem o ho with ho | rfl
    · exact h.past o ho t ht
    · exact (Option.some.inj ht).ge
  · rcases hmem o ho with ho | rfl
    · exact h.passed o ho hsent
    · rfl
  · intro a ha b hb s s' t t' hs hs' ht ht' hlt₁ hlt₂
    rcases hmem a ha with ha | rfl
    · rcases hmem b hb with hb | rfl
      · exact h.close a ha b hb s s' t t' hs hs' ht ht' hlt₁ hlt₂
      · obtain rfl := Option.some.inj hs'
        obtain rfl := Option.some.inj ht'
        exact (hclose a ha s hs t ht hlt₂).1
    · obtain rfl := Option.some.inj hs
      obtain rfl := Option.some.inj ht
      rcases hmem b hb with hb | rfl
      · exact (hclose b hb s' hs' t' ht' hlt₁).2
      · obtain rfl := Option.some.inj hs'
        exact Nat.lt_add_of_pos_right (by decide)

end Invariant

/-! ## Every step keeps it -/

section Steps

variable {rl : RateLimiter} {st st' : Client} {i : ℕ} {c c' : FetchCall}

theorem observed_getElem? (hi : st.calls[i]? = some c) :
    st.observed[i]? = some (c.passedAt, c.sentAt) := by
  unfold Client.observed
  rw [List.getElem?_map, hi]
  rfl

theorem observed_setCall (st : Client) (i : ℕ) (c : FetchCall) :
    (st.setCall i c).observed = st.observed.set i (c.passedAt, c.sentAt) :=
  List.map_set

/-- Steps between the two times leave them alone. -/
theorem observed_setCall_same (hi : st.calls[i]? = some c) (hpassed : c'.passedAt = c.passedAt)
    (hsent : c'.sentAt = c.sentAt) : (st.setCall i c').observed = st.observed := by
  obtain ⟨hlt, hget⟩ := List.getElem?_eq_some_iff.mp (observed_getElem? hi)
  rw [observed_setCall, hpassed, hsent, ← hget]
  exact List.set_getElem_self hlt

theorem inv_setCall_same (h : ClientInv rl st) (hi : st.calls[i]? = some c)
    (hpassed : c'.passedAt = c.passedAt) (hsent : c'.sentAt = c.sentAt) :
    ClientInv rl (st.setCall i c') := by
  unfold ClientInv
  rw [observed_setCall_same hi hpassed hsent]
  exact h

theorem inv_init (rl : RateLimiter) : ClientInv rl (Client.init rl) :=
  ⟨Limits.init _ _ _, fun _ => rfl, by simp [Client.observed, Client.init],
    by simp [Client.observed, Client.init], by simp [CloseTogether, Client.observed, Client.init]⟩

theorem inv_waitForRpsSlot (hrps : 0 < rl.maxRps) {backoff429 : ℕ} (h : ClientInv rl st)
    (hstep : st.step rl backoff429 (.waitForRpsSlot i) = some st') : ClientInv rl st' := by
  simp only [Client.step] at hstep
  split at hstep
  next wake hi =>
    split at hstep
    next =>
      rcases waitForRpsSlot_cases st.now hrps h.limits.room with
        ⟨hroom, hturn⟩ | ⟨oldest, rest, _, hturn⟩
      · rw [hturn] at hstep
        obtain rfl := Option.some.inj hstep
        have hset : (st.setCall i (.waitingForPermit st.now)).observed =
            st.observed.set i (some st.now, none) := observed_setCall ..
        have hstamp := (LimiterInv.evict h).stamp hroom (observed_getElem? hi)
        rw [← hset] at hstamp
        exact hstamp
      · rw [hturn] at hstep
        obtain rfl := Option.some.inj hstep
        have hsame : (st.setCall i (.waitingForSlot
            (st.now + (second - (st.now - oldest))))).observed = st.observed :=
          observed_setCall_same hi rfl rfl
        have hevict := LimiterInv.evict h
        rw [← hsame] at hevict
        exact hevict
    next => cases hstep
  next => cases hstep

theorem inv_send {backoff429 : ℕ} (h : ClientInv rl st) (hclose : SentAsPassed st (.send i))
    (hstep : st.step rl backoff429 (.send i) = some st') : ClientInv rl st' := by
  simp only [Client.step] at hstep
  split at hstep
  next passed hi =>
    obtain rfl := Option.some.inj hstep
    have hset : (st.setCall i (.inFlight passed st.now)).observed =
        st.observed.set i (some passed, some st.now) := observed_setCall ..
    have hsend := LimiterInv.send h (observed_getElem? hi) (fun o ho p hp t ht hlt => by
      obtain ⟨c, hc, rfl⟩ := List.mem_map.mp ho
      exact hclose passed (by rw [hi]; rfl) c hc p hp t ht hlt)
    rw [← hset] at hsend
    exact hsend
  next => cases hstep

theorem inv_step (hrps : 0 < rl.maxRps) {backoff429 : ℕ} {a : ClientAction}
    (h : ClientInv rl st) (hclose : SentAsPassed st a)
    (hstep : st.step rl backoff429 a = some st') : ClientInv rl st' := by
  cases a with
  | waitForRpsSlot i => exact inv_waitForRpsSlot hrps h hstep
  | send i => exact inv_send h hclose hstep
  | clock d =>
    obtain rfl := Option.some.inj hstep
    exact LimiterInv.later h (Nat.le_add_right _ _)
  | fetchBatch =>
    obtain rfl := Option.some.inj hstep
    have hnew := LimiterInv.fetchBatch h
    rw [if_pos hrps]
    unfold ClientInv Client.observed
    rw [List.map_append]
    exact hnew
  -- From here on the limiter and the times of the requests stay as they are.
  | takePermit i =>
    simp only [Client.step] at hstep
    split at hstep
    next passed hi =>
      split at hstep
      next =>
        obtain rfl := Option.some.inj hstep
        exact inv_setCall_same h hi rfl rfl
      next => cases hstep
    next => cases hstep
  | allCached i =>
    simp only [Client.step] at hstep
    split at hstep
    next passed hi =>
      obtain rfl := Option.some.inj hstep
      exact inv_setCall_same h hi rfl rfl
    next => cases hstep
  | respond i tooManyRequests =>
    simp only [Client.step] at hstep
    split at hstep
    next passed sentAt hi =>
      obtain rfl := Option.some.inj hstep
      exact inv_setCall_same h hi rfl rfl
    next => cases hstep
  | startPause =>
    simp only [Client.step] at hstep
    split at hstep
    · obtain rfl := Option.some.inj hstep
      exact h
    · cases hstep
  | endPause =>
    simp only [Client.step] at hstep
    split at hstep
    · split at hstep
      · obtain rfl := Option.some.inj hstep
        exact h
      · cases hstep
    · cases hstep

end Steps

/-- The invariant bounds the requests. -/
theorem ClientInv.requestsBounded {rl : RateLimiter} {st : Client} (h : ClientInv rl st) :
    RequestsBounded rl st := by
  intro t
  have hlimit : ∀ t, st.observed.countP (fun o => inWindow second t o.1) ≤ rl.maxRps.toNat := by
    intro t
    have hcount := h.counted fun s => t ≤ s ∧ s < t + second
    have hbound := h.limits.limit t
    calc st.observed.countP (fun o => inWindow second t o.1)
        = st.stamps.countP fun s => decide (t ≤ s ∧ s < t + second) := hcount
      _ ≤ rl.maxRps.toNat := hbound
  have hsent := countP_le_of_close hlimit h.passed h.close t
  unfold Client.observed at hsent
  rw [List.countP_map] at hsent
  exact hsent

/-- **The request rate.** In every run in which calls sent within a second of
each other have passed the window within a second of each other, at most
`max_rps` requests are sent in any half-open window of a second. -/
theorem requests_bounded (maxConcurrent maxRps : UInt32) (hrps : 0 < maxRps) (backoff429 : ℕ)
    (trace : List ClientAction) (st : Client)
    (hrun : Run (Client.step (RateLimiter.new maxConcurrent maxRps) backoff429)
      SentAsPassed (Client.init (RateLimiter.new maxConcurrent maxRps)) trace st) :
    RequestsBounded (RateLimiter.new maxConcurrent maxRps) st := by
  have hinv : ClientInv (RateLimiter.new maxConcurrent maxRps) st :=
    hrun.invariant (P := ClientInv (RateLimiter.new maxConcurrent maxRps)) (inv_init _)
      fun _ _ _ h hclose hstep => inv_step hrps h hclose hstep
  exact hinv.requestsBounded

/-- A call that is answered with a 429 and the pause after it; the next call
passes the window meanwhile, one more a second later, and both wait. -/
def pauseTrace : List ClientAction :=
  [.fetchBatch, .waitForRpsSlot 0, .takePermit 0, .send 0, .clock 500000000, .respond 0 true,
   .startPause, .clock 500000000, .fetchBatch, .waitForRpsSlot 1, .clock 1000000000, .fetchBatch,
   .waitForRpsSlot 2, .clock 58500000000, .endPause, .takePermit 1, .takePermit 2, .send 1]

/-- With a second between them, the two waiting calls keep the bound. -/
theorem requests_bounded_after_pause :
    ∃ st, Run (Client.step (RateLimiter.new 10 1) 60000000000) SentAsPassed
        (Client.init (RateLimiter.new 10 1)) (pauseTrace ++ [.clock 1000000000, .send 2]) st ∧
      RequestsBounded (RateLimiter.new 10 1) st := by
  obtain ⟨st, hrun, _⟩ := exists_run
    (Client.step (RateLimiter.new 10 1) 60000000000) SentAsPassed
    (Client.init (RateLimiter.new 10 1)) (pauseTrace ++ [.clock 1000000000, .send 2])
    (fun _ => True) (by decide +kernel)
  exact ⟨st, hrun, requests_bounded 10 1 (by decide) _ _ st hrun⟩

/-- Without it they go out at the same moment. -/
theorem pause_releases_burst :
    ∃ st, Run (Client.step (RateLimiter.new 10 1) 60000000000) (fun _ _ => True)
        (Client.init (RateLimiter.new 10 1)) (pauseTrace ++ [.send 2]) st ∧
      ¬RequestsBounded (RateLimiter.new 10 1) st := by
  obtain ⟨st, hrun, hburst⟩ := exists_run
    (Client.step (RateLimiter.new 10 1) 60000000000) (fun _ _ => True)
    (Client.init (RateLimiter.new 10 1)) (pauseTrace ++ [.send 2])
    (fun st => 1 < st.calls.countP fun c => inWindow second 60500000000 c.sentAt)
    (by decide +kernel)
  exact ⟨st, hrun, fun h => absurd (h 60500000000) (Nat.not_le.mpr hburst)⟩

end IndexerProcessors.Screening

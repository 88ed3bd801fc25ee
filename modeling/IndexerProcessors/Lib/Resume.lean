import IndexerProcessors.Lib.CoarseKey
import IndexerProcessors.Lib.Run
import Mathlib.Logic.Relation

/-!
# Processors that stop and start again

A processor reads a stream of transactions from a version on, stores it batch by
batch, and saves a checkpoint now and then. It can die at any moment, in the middle of
a batch too, and what it starts again from is the checkpoint alone.

`Checkpoints` is what such a processor needs of the place where its checkpoints are:
saving one never moves the start beyond the version after it. From that,
`covered_of_reach` shows that nothing is skipped, and for a table whose statements keep
the row of the later version, `lookup_of_caught_up` shows that the history does not
matter: once the processor is as far as any of its lives was, the table holds the last
row of every key, whatever was stored twice, in part, or in other batches.
`mem_of_caught_up` is the same for a table each of whose keys belongs to one row.
-/

namespace IndexerProcessors.Lib

/-! ## Rows of batches, some of them torn -/

section Torn

variable {τ ω V : Type} [LinearOrder V] {time : τ → V} {items : τ → List ω}

/-- `latest_batches` where some batches were stored in part: of what they would have
stored, any part may be there. -/
theorem latest_torn {ver : ω → V} {txns : List τ} {stored torn : List (List τ)} {rows : List ω}
    (htxns : txns.Pairwise fun a b => time a < time b)
    (hver : ∀ t ∈ txns, ∀ e ∈ items t, ver e = time t)
    (hbatches : ∀ b ∈ stored ++ torn, b.Sublist txns) (hcover : ∀ t ∈ txns, ∃ b ∈ stored, t ∈ b)
    (hsound : ∀ e ∈ rows, ∃ b ∈ stored ++ torn, (b.flatMap items).getLast? = some e)
    (hcomplete : ∀ b ∈ stored, ∀ e, (b.flatMap items).getLast? = some e → e ∈ rows) :
    latest ver none rows = (txns.flatMap items).getLast? := by
  classical
  -- a torn batch whose item is missing is left out; the others store theirs
  let kept := (stored ++ torn).filter fun b =>
    ∀ e, (b.flatMap items).getLast? = some e → e ∈ rows
  have hkept : ∀ b, b ∈ kept ↔
      b ∈ stored ++ torn ∧ ∀ e, (b.flatMap items).getLast? = some e → e ∈ rows := by
    intro b
    rw [List.mem_filter, decide_eq_true_eq]
  refine latest_batches htxns hver
    (fun b (hb : b ∈ kept) => hbatches b ((hkept b).mp hb).1) ?_ ?_
  · intro t ht
    obtain ⟨b, hb, htb⟩ := hcover t ht
    exact ⟨b, (hkept b).mpr ⟨List.mem_append_left _ hb, hcomplete b hb⟩, htb⟩
  · intro e
    constructor
    · intro he
      obtain ⟨b, hb, hlast⟩ := hsound e he
      refine ⟨b, (hkept b).mpr ⟨hb, fun e' he' => ?_⟩, hlast⟩
      rw [hlast] at he'
      exact Option.some.inj he' ▸ he
    · rintro ⟨b, hb, hlast⟩
      exact ((hkept b).mp hb).2 e hlast

end Torn

/-! ## Lives of a processor -/

/-- Where a processor keeps its checkpoints: the version it starts from, and what saving
the end of a batch does. -/
structure Checkpoints (σ τ : Type) where
  version : τ → ℕ
  fresh : σ
  start : σ → ℕ
  save : τ → σ → σ
  start_save_le : ∀ t s, start (save t s) ≤ max (start s) (version t + 1)
  fresh_le_start : ∀ s, start fresh ≤ start s

/-- A processor of transactions, and what it writes for a batch that it can parse. -/
structure Processor (σ τ ω : Type) where
  checkpoints : Checkpoints σ τ
  writes : List τ → Option (List ω)

/-- What a processor has done in all of its lives: its checkpoint, the next version of the
life it is in, the batches it stored and those it stored in part, and its writes. -/
structure Indexed (σ τ ω : Type) where
  saved : σ
  next : Option ℕ
  stored : List (List τ)
  torn : List (List τ)
  log : List ω

variable {σ τ ω : Type}

namespace Processor

variable (p : Processor σ τ ω) (txns : List τ)

abbrev version (t : τ) : ℕ := p.checkpoints.version t

/-- The version it starts at the first time. -/
def first : ℕ := p.checkpoints.start p.checkpoints.fresh

/-- The stream from a version on. -/
def stream (next : ℕ) : List τ := txns.filter fun t => next ≤ p.version t

/-- The transactions from the first version up to one. -/
def span (next : ℕ) : List τ := txns.filter fun t => p.first ≤ p.version t ∧ p.version t < next

/-- Before its first life. -/
def init : Indexed σ τ ω := ⟨p.checkpoints.fresh, none, [], [], []⟩

/-- One step of a life. A checkpoint saves the end of a stored batch behind the life's
position; a death leaves any part of the next batch's writes. -/
inductive Step : Indexed σ τ ω → Indexed σ τ ω → Prop
  | start {st : Indexed σ τ ω} : st.next = none →
      Step st { st with next := some (p.checkpoints.start st.saved) }
  | store {st : Indexed σ τ ω} {next : ℕ} {front : List τ} {last : τ} {ws log : List ω} :
      st.next = some next → front ++ [last] <+: p.stream txns next →
      p.writes (front ++ [last]) = some ws → log.Perm ws →
      Step st { st with
        next := some (p.version last + 1)
        stored := (front ++ [last]) :: st.stored
        log := st.log ++ log }
  | checkpoint {st : Indexed σ τ ω} {next : ℕ} {front : List τ} {last : τ} :
      st.next = some next → front ++ [last] ∈ st.stored → p.version last < next →
      Step st { st with saved := p.checkpoints.save last st.saved }
  | die {st : Indexed σ τ ω} {next : ℕ} {batch : List τ} {log : List ω} :
      st.next = some next → batch <+: p.stream txns next →
      (∀ w ∈ log, ∃ ws, p.writes batch = some ws ∧ w ∈ ws) →
      Step st { st with next := none, torn := batch :: st.torn, log := st.log ++ log }

/-- A state some lives lead to. -/
def Reach (st : Indexed σ τ ω) : Prop := Relation.ReflTransGen (p.Step txns) p.init st

/-- All lives were behind the position of the present one. -/
def CaughtUp (st : Indexed σ τ ω) (next : ℕ) : Prop :=
  st.next = some next ∧ ∀ b ∈ st.stored ++ st.torn, ∀ t ∈ b, p.version t < next

/-- What all lives keep: below the checkpoint and below the position of the present life
every transaction is stored; batches are parts of the stream; and the writes are those of
the batches, all of them where the batch was stored. -/
structure Inv (st : Indexed σ τ ω) : Prop where
  behind_saved : ∀ t ∈ txns, p.first ≤ p.version t → p.version t < p.checkpoints.start st.saved →
    ∃ b ∈ st.stored, t ∈ b
  behind_next : ∀ next, st.next = some next →
    p.first ≤ next ∧ ∀ t ∈ txns, p.first ≤ p.version t → p.version t < next →
      ∃ b ∈ st.stored, t ∈ b
  parts : ∀ b ∈ st.stored ++ st.torn, b.Sublist txns ∧ ∀ t ∈ b, p.first ≤ p.version t
  sound : ∀ w ∈ st.log, ∃ b ∈ st.stored ++ st.torn, ∃ ws, p.writes b = some ws ∧ w ∈ ws
  complete : ∀ b ∈ st.stored, ∃ ws, p.writes b = some ws ∧ ∀ w ∈ ws, w ∈ st.log

variable {p txns}

theorem inv_init : p.Inv txns p.init where
  behind_saved _ _ hfirst hlt := absurd hfirst (not_le.mpr hlt)
  behind_next _ h := nomatch h
  parts _ hb := nomatch hb
  sound _ hw := nomatch hw
  complete _ hb := nomatch hb

/-- A batch off the stream is a part of it, behind the first version. -/
theorem part_of_prefix {next : ℕ} {batch : List τ} (hnext : p.first ≤ next)
    (h : batch <+: p.stream txns next) :
    batch.Sublist txns ∧ ∀ t ∈ batch, p.first ≤ p.version t := by
  refine ⟨h.sublist.trans List.filter_sublist, ?_⟩
  intro t ht
  have hle := of_decide_eq_true (List.mem_filter.mp (h.subset ht)).2
  exact hnext.trans hle

/-- A batch off the stream takes everything up to its last version. -/
theorem mem_of_prefix (hord : txns.Pairwise fun a b => p.version a < p.version b) {next : ℕ}
    {front : List τ} {last : τ} (h : front ++ [last] <+: p.stream txns next) {t : τ}
    (ht : t ∈ txns) (hnext : next ≤ p.version t) (hle : p.version t ≤ p.version last) :
    t ∈ front ++ [last] := by
  have hstream : t ∈ p.stream txns next := List.mem_filter.mpr ⟨ht, decide_eq_true hnext⟩
  obtain ⟨rest, hrest⟩ := h
  rw [← hrest] at hstream
  refine (List.mem_append.mp hstream).resolve_right fun hlater => ?_
  have hsorted : (p.stream txns next).Pairwise fun a b => p.version a < p.version b :=
    hord.sublist List.filter_sublist
  rw [← hrest, List.pairwise_append] at hsorted
  have hlt := hsorted.2.2 last (List.mem_append_right _ List.mem_cons_self) t hlater
  exact absurd hle (not_le.mpr hlt)

/-- One more stored batch: everything below its end is stored. -/
theorem inv_store (hord : txns.Pairwise fun a b => p.version a < p.version b)
    {st : Indexed σ τ ω} {next : ℕ} {front : List τ} {last : τ} {ws log : List ω}
    (hinv : p.Inv txns st) (hnext : st.next = some next)
    (hbatch : front ++ [last] <+: p.stream txns next)
    (hwrites : p.writes (front ++ [last]) = some ws) (hlog : log.Perm ws) :
    p.Inv txns { st with
      next := some (p.version last + 1)
      stored := (front ++ [last]) :: st.stored
      log := st.log ++ log } := by
  obtain ⟨hfirst, hbehind⟩ := hinv.behind_next next hnext
  have hpart := part_of_prefix hfirst hbatch
  -- The saved version and the older batches are as before; what is new is below the new
  -- position and above the old one.
  refine ⟨?_, ?_, ?_, ?_, ?_⟩
  · intro t ht hle hlt
    obtain ⟨b, hb, htb⟩ := hinv.behind_saved t ht hle hlt
    exact ⟨b, List.mem_cons_of_mem _ hb, htb⟩
  · intro next' heq
    obtain rfl := Option.some.inj heq
    refine ⟨(hpart.2 last (by simp)).trans (Nat.le_succ _), ?_⟩
    intro t ht hle hlt
    by_cases hold : p.version t < next
    · obtain ⟨b, hb, htb⟩ := hbehind t ht hle hold
      exact ⟨b, List.mem_cons_of_mem _ hb, htb⟩
    · exact ⟨_, List.mem_cons_self,
        mem_of_prefix hord hbatch ht (not_lt.mp hold) (Nat.lt_succ_iff.mp hlt)⟩
  · intro b hb
    obtain rfl | hb := List.mem_cons.mp hb
    · exact hpart
    · exact hinv.parts b hb
  · intro w hw
    obtain hw | hw := List.mem_append.mp hw
    · obtain ⟨b, hb, hwb⟩ := hinv.sound w hw
      exact ⟨b, List.mem_cons_of_mem _ hb, hwb⟩
    · exact ⟨_, List.mem_cons_self, ws, hwrites, hlog.mem_iff.mp hw⟩
  · intro b hb
    obtain rfl | hb := List.mem_cons.mp hb
    · exact ⟨ws, hwrites, fun w hw => List.mem_append_right _ (hlog.mem_iff.mpr hw)⟩
    · obtain ⟨ws', hws', hall⟩ := hinv.complete b hb
      exact ⟨ws', hws', fun w hw => List.mem_append_left _ (hall w hw)⟩

/-- A checkpoint moves the start no further than the position. -/
theorem inv_checkpoint {st : Indexed σ τ ω} {next : ℕ} {last : τ} (hinv : p.Inv txns st)
    (hnext : st.next = some next) (hlt : p.version last < next) :
    p.Inv txns { st with saved := p.checkpoints.save last st.saved } := by
  obtain ⟨-, hbehind⟩ := hinv.behind_next next hnext
  refine ⟨?_, hinv.behind_next, hinv.parts, hinv.sound, hinv.complete⟩
  intro t ht hle hsaved
  obtain hold | hnew := lt_max_iff.mp (hsaved.trans_le (p.checkpoints.start_save_le _ _))
  · exact hinv.behind_saved t ht hle hold
  · exact hbehind t ht hle (hnew.trans_le hlt)

/-- A death adds writes of the torn batch, and counts for nothing. -/
theorem inv_die {st : Indexed σ τ ω} {next : ℕ} {batch : List τ} {log : List ω}
    (hinv : p.Inv txns st) (hnext : st.next = some next) (hbatch : batch <+: p.stream txns next)
    (hlog : ∀ w ∈ log, ∃ ws, p.writes batch = some ws ∧ w ∈ ws) :
    p.Inv txns { st with next := none, torn := batch :: st.torn, log := st.log ++ log } := by
  obtain ⟨hfirst, -⟩ := hinv.behind_next next hnext
  have hmore : ∀ b ∈ st.stored ++ st.torn, b ∈ st.stored ++ batch :: st.torn :=
    (List.Sublist.append_left (List.sublist_cons_self batch st.torn) st.stored).subset
  refine ⟨hinv.behind_saved, ?_, ?_, ?_, ?_⟩
  · intro _ heq
    cases heq
  · intro b hb
    obtain hb | hb := List.mem_append.mp hb
    · exact hinv.parts b (List.mem_append_left _ hb)
    · obtain rfl | hb := List.mem_cons.mp hb
      · exact part_of_prefix hfirst hbatch
      · exact hinv.parts b (List.mem_append_right _ hb)
  · intro w hw
    obtain hw | hw := List.mem_append.mp hw
    · obtain ⟨b, hb, hwb⟩ := hinv.sound w hw
      exact ⟨b, hmore b hb, hwb⟩
    · exact ⟨batch, List.mem_append_right _ List.mem_cons_self, hlog w hw⟩
  · intro b hb
    obtain ⟨ws, hws, hall⟩ := hinv.complete b hb
    exact ⟨ws, hws, fun w hw => List.mem_append_left _ (hall w hw)⟩

theorem inv_step (hord : txns.Pairwise fun a b => p.version a < p.version b)
    {st st' : Indexed σ τ ω} (hinv : p.Inv txns st) (h : p.Step txns st st') : p.Inv txns st' := by
  cases h with
  | start hnext =>
    refine ⟨hinv.behind_saved, ?_, hinv.parts, hinv.sound, hinv.complete⟩
    intro next heq
    obtain rfl := Option.some.inj heq
    exact ⟨p.checkpoints.fresh_le_start _, hinv.behind_saved⟩
  | store hnext hbatch hwrites hlog => exact inv_store hord hinv hnext hbatch hwrites hlog
  | checkpoint hnext _ hlt => exact inv_checkpoint hinv hnext hlt
  | die hnext hbatch hlog => exact inv_die hinv hnext hbatch hlog

theorem inv_reach (hord : txns.Pairwise fun a b => p.version a < p.version b)
    {st : Indexed σ τ ω} (h : p.Reach txns st) : p.Inv txns st := by
  induction h with
  | refl => exact inv_init
  | tail _ hstep ih => exact inv_step hord ih hstep

theorem mem_span {next : ℕ} {t : τ} :
    t ∈ p.span txns next ↔ t ∈ txns ∧ p.first ≤ p.version t ∧ p.version t < next := by
  rw [span, List.mem_filter, decide_eq_true_eq]

/-- A processor that has caught up has stored the span, in parts of it. -/
theorem covered_of_reach (hord : txns.Pairwise fun a b => p.version a < p.version b)
    {st : Indexed σ τ ω} (h : p.Reach txns st) {next : ℕ} (hcaught : p.CaughtUp st next) :
    (∀ b ∈ st.stored ++ st.torn, b.Sublist (p.span txns next)) ∧
      ∀ t ∈ p.span txns next, ∃ b ∈ st.stored, t ∈ b := by
  have hinv := inv_reach hord h
  constructor
  · intro b hb
    obtain ⟨hsub, hfirst⟩ := hinv.parts b hb
    have hall : b.filter (fun t => p.first ≤ p.version t ∧ p.version t < next) = b := by
      rw [List.filter_eq_self]
      exact fun t ht => decide_eq_true ⟨hfirst t ht, hcaught.2 b hb t ht⟩
    rw [← hall]
    exact hsub.filter _
  · intro t ht
    obtain ⟨hmem, hfirst, hlt⟩ := mem_span.mp ht
    exact (hinv.behind_next next hcaught.1).2 t hmem hfirst hlt

/-- What a processor has passed it could parse. -/
theorem exists_writes_of_caught_up (hord : txns.Pairwise fun a b => p.version a < p.version b)
    {st : Indexed σ τ ω} (h : p.Reach txns st) {next : ℕ} (hcaught : p.CaughtUp st next) {t : τ}
    (ht : t ∈ p.span txns next) : ∃ b ws, t ∈ b ∧ p.writes b = some ws := by
  obtain ⟨b, hb, htb⟩ := (covered_of_reach hord h hcaught).2 t ht
  obtain ⟨ws, hws, -⟩ := (inv_reach hord h).complete b hb
  exact ⟨b, ws, htb, hws⟩

/-! ## What the tables hold -/

section Tables

variable {κ ρ V : Type} [DecidableEq κ] [LinearOrder V]

/-- Writes of one key that all merge by the version leave the latest of them. -/
theorem lookup_writeAll_latest {ver : ρ → V} {query : ρ → ρ → ρ} {P : ρ → Prop}
    (hquery : ∀ old excluded, P old → P excluded → query old excluded = later ver old excluded)
    {order : List (κ × Write ρ)} {k : κ}
    (horder : ∀ w, (k, w) ∈ order → w.merge = query ∧ P w.excluded) :
    ((∅ : Table κ ρ).writeAll order).lookup k =
      latest ver none ((proj k order).map Write.excluded) := by
  rw [Table.lookup_writeAll, AList.lookup_empty,
    ← foldl_merged_eq_latest hquery ?_ none (fun row h => nomatch h), List.foldl_map]
  · refine List.foldl_ext _ _ _ fun old w hw => ?_
    rw [(horder w (mem_proj.mp hw)).1]
  · intro row hrow
    obtain ⟨w, hw, rfl⟩ := List.mem_map.mp hrow
    exact (horder w (mem_proj.mp hw)).2

/-- How a processor writes one of its tables: of the writes it makes for a batch, those
of the table are the last row of each key, merged by one statement that keeps the row of
the later version. -/
structure LastRows (p : Processor σ τ ω) (txns : List τ) (time : τ → V)
    (row : ω → Option (κ × Write ρ)) (rowsOf : τ → List ρ) (pk : ρ → κ) (ver : ρ → V)
    (query : ρ → ρ → ρ) : Prop where
  in_order : txns.Pairwise fun a b => time a < time b
  ver_eq : ∀ t ∈ txns, ∀ r ∈ rowsOf t, ver r = time t
  query_eq : ∀ old ∈ txns.flatMap rowsOf, ∀ excluded ∈ txns.flatMap rowsOf, pk old = pk excluded →
    query old excluded = later ver old excluded
  writes_eq : ∀ b, b.Sublist txns → ∀ ws, p.writes b = some ws → ∀ k w,
    (∃ x ∈ ws, row x = some (k, w)) ↔
      w.merge = query ∧ ((b.flatMap rowsOf).filter fun r => pk r = k).getLast? = some w.excluded

/-- **The history does not matter.** A processor that has caught up holds the last row of
each key of the span, whatever its lives were. -/
theorem lookup_of_caught_up {time : τ → V} {row : ω → Option (κ × Write ρ)} {rowsOf : τ → List ρ}
    {pk : ρ → κ} {ver : ρ → V} {query : ρ → ρ → ρ}
    (hrows : LastRows p txns time row rowsOf pk ver query)
    (hord : txns.Pairwise fun a b => p.version a < p.version b)
    {st : Indexed σ τ ω} (h : p.Reach txns st) {next : ℕ} (hcaught : p.CaughtUp st next) (k : κ) :
    ((∅ : Table κ ρ).writeAll (st.log.filterMap row)).lookup k =
      (((p.span txns next).flatMap rowsOf).filter fun r => pk r = k).getLast? := by
  have hinv := inv_reach hord h
  obtain ⟨hparts, hcover⟩ := covered_of_reach hord h hcaught
  have hspan : (p.span txns next).Sublist txns := List.filter_sublist
  have hfilter (l : List τ) : ((l.flatMap rowsOf).filter fun r => pk r = k) =
      l.flatMap fun t => (rowsOf t).filter fun r => pk r = k := List.filter_flatMap
  -- what the log holds at the key: last rows of batches, all those of stored ones
  have hsound : ∀ w, (k, w) ∈ st.log.filterMap row → w.merge = query ∧
      ∃ b ∈ st.stored ++ st.torn, (b.flatMap fun t => (rowsOf t).filter fun r => pk r = k).getLast? =
        some w.excluded := by
    intro w hw
    obtain ⟨x, hx, hrow⟩ := List.mem_filterMap.mp hw
    obtain ⟨b, hb, ws, hws, hmem⟩ := hinv.sound x hx
    obtain ⟨hmerge, hlast⟩ :=
      (hrows.writes_eq b (hinv.parts b hb).1 ws hws k w).mp ⟨x, hmem, hrow⟩
    exact ⟨hmerge, b, hb, hfilter b ▸ hlast⟩
  have hcomplete : ∀ b ∈ st.stored, ∀ r,
      (b.flatMap fun t => (rowsOf t).filter fun r => pk r = k).getLast? = some r →
        (k, (⟨r, query⟩ : Write ρ)) ∈ st.log.filterMap row := by
    intro b hb r hlast
    obtain ⟨ws, hws, hall⟩ := hinv.complete b hb
    have hsub := (hinv.parts b (List.mem_append_left _ hb)).1
    obtain ⟨x, hx, hrow⟩ := (hrows.writes_eq b hsub ws hws k ⟨r, query⟩).mpr
      ⟨rfl, (hfilter b).symm ▸ hlast⟩
    exact List.mem_filterMap.mpr ⟨x, hall x hx, hrow⟩
  have hplace : ∀ w, (k, w) ∈ st.log.filterMap row →
      w.excluded ∈ txns.flatMap rowsOf ∧ pk w.excluded = k := by
    intro w hw
    obtain ⟨-, b, hb, hlast⟩ := hsound w hw
    obtain ⟨t, ht, hmem⟩ := List.mem_flatMap.mp (List.mem_of_getLast? hlast)
    obtain ⟨hrow, hpk⟩ := List.mem_filter.mp hmem
    exact ⟨List.mem_flatMap.mpr ⟨t, ((hinv.parts b hb).1).subset ht, hrow⟩, of_decide_eq_true hpk⟩
  rw [lookup_writeAll_latest (P := fun r => r ∈ txns.flatMap rowsOf ∧ pk r = k)
    (fun old excluded hold hex =>
      hrows.query_eq old hold.1 excluded hex.1 (hold.2.trans hex.2.symm))
    (fun w hw => ⟨(hsound w hw).1, hplace w hw⟩), hfilter]
  refine latest_torn (hrows.in_order.sublist hspan) ?_ hparts hcover ?_ ?_
  · intro t ht r hr
    exact hrows.ver_eq t (hspan.subset ht) r (List.mem_filter.mp hr).1
  · intro r hr
    obtain ⟨w, hw, rfl⟩ := List.mem_map.mp hr
    exact (hsound w (mem_proj.mp hw)).2
  · intro b hb r hlast
    exact List.mem_map.mpr ⟨_, mem_proj.mpr (hcomplete b hb r hlast), rfl⟩

/-- Writes of one key that all carry one row, and merge it with itself, leave it. -/
theorem lookup_writeAll_same {order : List (κ × Write ρ)} {k : κ} {r : ρ}
    (horder : ∀ w, (k, w) ∈ order → w.excluded = r ∧ w.merge r r = r)
    (hsome : ∃ w, (k, w) ∈ order) : ((∅ : Table κ ρ).writeAll order).lookup k = some r := by
  obtain ⟨w, hw⟩ := hsome
  have hall : ∀ w ∈ proj k order, w.excluded = r ∧ w.merge r r = r :=
    fun w hw => horder w (mem_proj.mp hw)
  have hmem := mem_proj.mpr hw
  rw [Table.lookup_writeAll, AList.lookup_empty]
  generalize proj k order = ws at hall hmem
  obtain ⟨first, rest, rfl⟩ := List.exists_cons_of_ne_nil (List.ne_nil_of_mem hmem)
  rw [List.foldl_cons, Table.merged, (hall first List.mem_cons_self).1]
  refine foldl_invariant (P := fun old => old = some r) (fun old w hw hold => ?_) rfl
  obtain ⟨hexcluded, hmerge⟩ := hall w (List.mem_cons_of_mem _ hw)
  rw [hold, Table.merged, hexcluded, hmerge]

/-- A table each of whose keys belongs to one row: for a batch the processor writes all
rows of the batch, in one statement that leaves a row as it is when it comes again. -/
structure KeyedRows (p : Processor σ τ ω) (txns : List τ) (row : ω → Option (κ × Write ρ))
    (rowsOf : τ → List ρ) (pk : ρ → κ) (query : ρ → ρ → ρ) : Prop where
  unique : ∀ r ∈ txns.flatMap rowsOf, ∀ r' ∈ txns.flatMap rowsOf, pk r = pk r' → r = r'
  query_self : ∀ r, query r r = r
  writes_eq : ∀ b, b.Sublist txns → ∀ ws, p.writes b = some ws → ∀ k w,
    (∃ x ∈ ws, row x = some (k, w)) ↔ ∃ r ∈ b.flatMap rowsOf, pk r = k ∧ ⟨r, query⟩ = w

/-- **Nothing is there twice, and nothing is missing.** A processor that has caught up
holds exactly the rows of the span, whatever its lives were. -/
theorem mem_of_caught_up {row : ω → Option (κ × Write ρ)} {rowsOf : τ → List ρ} {pk : ρ → κ}
    {query : ρ → ρ → ρ} (hrows : KeyedRows p txns row rowsOf pk query)
    (hord : txns.Pairwise fun a b => p.version a < p.version b)
    {st : Indexed σ τ ω} (h : p.Reach txns st) {next : ℕ} (hcaught : p.CaughtUp st next) {k : κ}
    {r : ρ} :
    ((∅ : Table κ ρ).writeAll (st.log.filterMap row)).lookup k = some r ↔
      r ∈ (p.span txns next).flatMap rowsOf ∧ pk r = k := by
  have hinv := inv_reach hord h
  obtain ⟨hparts, hcover⟩ := covered_of_reach hord h hcaught
  have hspan : ∀ r ∈ (p.span txns next).flatMap rowsOf, r ∈ txns.flatMap rowsOf := by
    intro r hr
    obtain ⟨t, ht, hr⟩ := List.mem_flatMap.mp hr
    exact List.mem_flatMap.mpr ⟨t, (List.mem_filter.mp ht).1, hr⟩
  -- a write of the key carries a row of the span
  have hsound : ∀ w, (k, w) ∈ st.log.filterMap row →
      w.excluded ∈ (p.span txns next).flatMap rowsOf ∧ pk w.excluded = k ∧ w.merge = query := by
    intro w hw
    obtain ⟨x, hx, hrow⟩ := List.mem_filterMap.mp hw
    obtain ⟨b, hb, ws, hws, hmem⟩ := hinv.sound x hx
    obtain ⟨r, hr, hk, rfl⟩ :=
      (hrows.writes_eq b (hinv.parts b hb).1 ws hws k w).mp ⟨x, hmem, hrow⟩
    obtain ⟨t, ht, hr⟩ := List.mem_flatMap.mp hr
    exact ⟨List.mem_flatMap.mpr ⟨t, (hparts b hb).subset ht, hr⟩, hk, rfl⟩
  have hsame : ∀ {r}, r ∈ (p.span txns next).flatMap rowsOf → pk r = k →
      ∀ w, (k, w) ∈ st.log.filterMap row → w.excluded = r ∧ w.merge r r = r := by
    intro r hr hk w hw
    obtain ⟨hmem, hpk, hmerge⟩ := hsound w hw
    exact ⟨hrows.unique _ (hspan _ hmem) _ (hspan _ hr) (hpk.trans hk.symm),
      hmerge ▸ hrows.query_self r⟩
  constructor
  · intro hlookup
    by_cases hsome : ∃ w, (k, w) ∈ st.log.filterMap row
    · obtain ⟨w, hw⟩ := hsome
      obtain ⟨hmem, hpk, -⟩ := hsound w hw
      rw [lookup_writeAll_same (hsame hmem hpk) ⟨w, hw⟩] at hlookup
      obtain rfl := Option.some.inj hlookup
      exact ⟨hmem, hpk⟩
    · rw [Table.lookup_writeAll_of_notMem _ fun hk => ?_, AList.lookup_empty] at hlookup
      · cases hlookup
      · obtain ⟨⟨k', w⟩, hw, rfl⟩ := List.mem_map.mp hk
        exact hsome ⟨w, hw⟩
  · rintro ⟨hr, hk⟩
    obtain ⟨t, ht, hrow⟩ := List.mem_flatMap.mp hr
    obtain ⟨b, hb, htb⟩ := hcover t ht
    obtain ⟨ws, hws, hall⟩ := hinv.complete b hb
    have hsub := (hinv.parts b (List.mem_append_left _ hb)).1
    obtain ⟨x, hx, hxrow⟩ := (hrows.writes_eq b hsub ws hws k ⟨r, query⟩).mpr
      ⟨r, List.mem_flatMap.mpr ⟨t, htb, hrow⟩, hk, rfl⟩
    exact lookup_writeAll_same (hsame hr hk)
      ⟨_, List.mem_filterMap.mpr ⟨x, hall x hx, hxrow⟩⟩

end Tables

/-- Lives after which a processor has caught up. -/
structure Lives (p : Processor σ τ ω) (txns : List τ) where
  state : Indexed σ τ ω
  next : ℕ
  reach : p.Reach txns state
  caught : p.CaughtUp state next

/-- What it has passed in them. -/
def Lives.passed {p : Processor σ τ ω} {txns : List τ} (lives : p.Lives txns) : List τ :=
  p.span txns lives.next

/-! ## Two lives -/

/-- The checkpoint, position and log of a processor that stored one transaction, died
without a checkpoint while it stored the next one, and then stored both. -/
def twoLives (p : Processor σ τ ω) (a b : τ) (torn : List ω) : Indexed σ τ ω :=
  ⟨p.checkpoints.fresh, some (p.version b + 1), [[a, b], [a]], [[b]],
    (p.writes [a]).getD [] ++ torn ++ (p.writes [a, b]).getD []⟩

theorem reach_twoLives {a b : τ} {torn : List ω} (hfirst : p.first ≤ p.version a)
    (hab : p.version a < p.version b) (ha : (p.writes [a]).isSome = true)
    (hb : (p.writes [b]).isSome = true) (hboth : (p.writes [a, b]).isSome = true)
    (htorn : torn ⊆ (p.writes [b]).getD []) :
    p.Reach [a, b] (p.twoLives a b torn) ∧ p.CaughtUp (p.twoLives a b torn) (p.version b + 1) := by
  have hwrites : ∀ {batch}, (p.writes batch).isSome = true →
      p.writes batch = some ((p.writes batch).getD []) := by
    intro batch hsome
    obtain ⟨ws, hws⟩ := Option.isSome_iff_exists.mp hsome
    rw [hws]
    rfl
  have hall : p.stream [a, b] p.first = [a, b] := by
    simp [stream, hfirst, hfirst.trans hab.le]
  -- The two streams: from the start, and behind the first transaction.
  have hrest : p.stream [a, b] (p.version a + 1) = [b] := by
    simp [stream, hab]
  have hstart : p.Reach [a, b] ⟨p.checkpoints.fresh, some p.first, [], [], []⟩ :=
    Relation.ReflTransGen.refl.tail (.start rfl)
  have hstore : p.Reach [a, b]
      ⟨p.checkpoints.fresh, some (p.version a + 1), [[a]], [], (p.writes [a]).getD []⟩ := by
    have hone : [] ++ [a] <+: p.stream [a, b] p.first := by
      rw [hall]
      exact ⟨[b], rfl⟩
    exact hstart.tail (.store rfl hone (hwrites ha) (List.Perm.refl _))
  have hdie : p.Reach [a, b]
      ⟨p.checkpoints.fresh, none, [[a]], [[b]], (p.writes [a]).getD [] ++ torn⟩ := by
    refine hstore.tail (.die rfl ?_ fun w hw => ⟨_, hwrites hb, htorn hw⟩)
    rw [hrest]
  have hagain : p.Reach [a, b]
      ⟨p.checkpoints.fresh, some p.first, [[a]], [[b]], (p.writes [a]).getD [] ++ torn⟩ :=
    hdie.tail (.start rfl)
  have htwo : [a] ++ [b] <+: p.stream [a, b] p.first := by
    rw [hall]
    exact List.prefix_rfl
  refine ⟨hagain.tail (.store rfl htwo (hwrites hboth) (List.Perm.refl _)), rfl, ?_⟩
  -- No batch has anything but the two transactions.
  intro batch hbatch t ht
  have hle : t = a ∨ t = b := by
    simp only [twoLives, List.mem_append, List.mem_cons, List.not_mem_nil, or_false] at hbatch
    obtain (rfl | rfl) | rfl := hbatch
    · simpa using ht
    · exact Or.inl (List.mem_singleton.mp ht)
    · exact Or.inr (List.mem_singleton.mp ht)
  obtain rfl | rfl := hle
  · exact Nat.lt_succ_of_lt hab
  · exact Nat.lt_succ_self _

end Processor

/-! ## The writes of a batch -/

section Writes

variable {κ ρ ρ' : Type} [DecidableEq κ] {pk : ρ → κ} {rows : List ρ}

/-- The upserts of a map, of its rows or of what is made of them, carry the last row of
each key. -/
theorem Collects.mem_writes_iff {m : Table κ ρ} (h : Collects pk id rows m) (pk' : ρ' → κ)
    (f : ρ → ρ') (hpk : ∀ r, pk' (f r) = pk r) {query : ρ' → ρ' → ρ'} {k : κ} {w : Write ρ'} :
    (∃ entry ∈ m.rows, entry.1 = k ∧ (⟨f entry.2, query⟩ : Write ρ') = w) ↔
      w.merge = query ∧ ((rows.map f).filter fun r => pk' r = k).getLast? = some w.excluded := by
  have hlast : ((rows.map f).filter fun r => pk' r = k).getLast? = (m.lookup k).map f := by
    have hcollected : m.lookup k = (rows.filter fun r => pk r = k).getLast? := h k
    rw [hcollected, List.filter_map, List.getLast?_map]
    refine congrArg (fun l : List ρ => l.getLast?.map f) (List.filter_congr fun r _ => ?_)
    rw [Function.comp_apply, hpk]
  rw [hlast]
  constructor
  · rintro ⟨⟨k', r⟩, hmem, rfl, rfl⟩
    exact ⟨rfl, by rw [Table.mem_rows.mp hmem, Option.map_some]⟩
  · rintro ⟨hmerge, hlookup⟩
    obtain ⟨r, hr, hexcluded⟩ := Option.map_eq_some_iff.mp hlookup
    obtain ⟨excluded, merge⟩ := w
    obtain rfl : merge = query := hmerge
    obtain rfl : f r = excluded := hexcluded
    exact ⟨(k, r), Table.mem_rows.mpr hr, rfl, rfl⟩

theorem Collects.mem_upserts_iff {m : Table κ ρ} (h : Collects pk id rows m) {query : ρ → ρ → ρ}
    {k : κ} {w : Write ρ} :
    (∃ entry ∈ m.rows, entry.1 = k ∧ (⟨entry.2, query⟩ : Write ρ) = w) ↔
      w.merge = query ∧ (rows.filter fun r => pk r = k).getLast? = some w.excluded := by
  rw [← List.map_id rows]
  exact h.mem_writes_iff pk id fun _ => rfl

end Writes

/-! ## A log of two tables -/

theorem exists_getLeft?_iff {α β : Type} {as : List α} {bs : List β} {a : α} :
    (∃ x ∈ as.map Sum.inl ++ bs.map Sum.inr, Sum.getLeft? x = some a) ↔ a ∈ as := by
  constructor
  · rintro ⟨x | x, hx, heq⟩
    · obtain rfl := Option.some.inj heq
      simpa using hx
    · cases heq
  · intro h
    exact ⟨Sum.inl a, List.mem_append_left _ (List.mem_map_of_mem h), rfl⟩

theorem exists_getRight?_iff {α β : Type} {as : List α} {bs : List β} {b : β} :
    (∃ x ∈ as.map Sum.inl ++ bs.map Sum.inr, Sum.getRight? x = some b) ↔ b ∈ bs := by
  constructor
  · rintro ⟨x | x, hx, heq⟩
    · cases heq
    · obtain rfl := Option.some.inj heq
      simpa using hx
  · intro h
    exact ⟨Sum.inr b, List.mem_append_right _ (List.mem_map_of_mem h), rfl⟩

end IndexerProcessors.Lib

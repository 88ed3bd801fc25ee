import IndexerProcessors.Lib.RecursiveUnion
import IndexerProcessors.Lib.Numeric
import IndexerProcessors.Lib.SortDedup
import IndexerProcessors.Reputation.Model

/-!
# The backward trace

`trace.sql` walks `address_transfer_edges` backwards from an address: depth 0 has
the edges into the target, and a row of the working table with source `a` is
joined with the edges into `a`, one level deeper, unless its depth has reached the
bound or its edge is a bridge inflow. The graph may have cycles and parallel
edges, and `UNION ALL` keeps a row for every way to an edge.

`trace_backward_chains`: the query ends within depth bound plus one rounds, and
what it returns are the first edges of the backward chains no longer than that.
The bridge between the two is `reached_iff_chain`: a path of the recursion is a
chain of edges, extended at its far end.

Mirroring notes:
- The order of the rows within a round is the planner's; every statement here is
  about membership. The final `ORDER BY` is a stable sort.
- `depth` is an `integer` that never exceeds the parameter it is compared with,
  so it cannot overflow; it is a natural number here.
-/

namespace IndexerProcessors.Reputation

open IndexerProcessors.Lib

/-- The rows of `address_transfer_edges`, in whatever order; the primary key
keeps them apart. -/
structure EdgeTable where
  rows : List TransferEdge
  keys_nodup : (rows.map TransferEdge.key).Nodup

/-- A row of the CTE `upstream`. -/
structure UpstreamRow where
  sink : String
  source : String
  transactionVersion : Int64
  eventIndex : Int64
  amount : ℚ
  isBridgeInflow : Bool
  bridgeName : Option String
  depth : ℕ
  deriving DecidableEq, Repr

/-- The columns both terms of the CTE select. -/
def upstreamRow (e : TransferEdge) (depth : ℕ) : UpstreamRow where
  sink := e.toAddress
  source := e.fromAddress
  transactionVersion := e.transactionVersion
  eventIndex := e.eventIndex
  amount := e.amount
  isBridgeInflow := e.isBridgeInflow
  bridgeName := e.bridgeName
  depth := depth

/-- The non-recursive term: the edges into the target. -/
def upstreamBase (edges : List TransferEdge) (target : String) : List UpstreamRow :=
  (edges.filter fun e => e.toAddress = target).map fun e => upstreamRow e 0

/-- The join condition and the `WHERE` of the recursive term. -/
def joinsUpstream (maxDepth : ℕ) (u : UpstreamRow) (e : TransferEdge) : Prop :=
  e.toAddress = u.source ∧ u.depth < maxDepth ∧ ¬ u.isBridgeInflow

instance (maxDepth : ℕ) (u : UpstreamRow) (e : TransferEdge) :
    Decidable (joinsUpstream maxDepth u e) :=
  inferInstanceAs (Decidable (_ ∧ _ ∧ _))

/-- The recursive term over the working table. -/
def upstreamStep (edges : List TransferEdge) (maxDepth : ℕ) (working : List UpstreamRow) :
    List UpstreamRow :=
  edges.flatMap fun e =>
    (working.filter fun u => joinsUpstream maxDepth u e).map fun u => upstreamRow e (u.depth + 1)

/-- The order of the result. -/
def traceOrder (row : UpstreamRow) : ℕ ×ₗ Int64 ×ₗ Int64 :=
  toLex (row.depth, toLex (row.transactionVersion, row.eventIndex))

/-- The query of `trace.sql`, `none` if it is not finished after `rounds` rounds. -/
def trace (edges : EdgeTable) (target : String) (maxDepth rounds : ℕ) : Option (List UpstreamRow) :=
  (recursiveUnion (upstreamStep edges.rows maxDepth) rounds (upstreamBase edges.rows target)).map
    (sortBy traceOrder)

/-- A backward chain `[e₀, …, eₖ]` of stored edges: `e₀` leads to the target, every
further edge leads to where the one before it comes from, and no edge but the last
is a bridge inflow. -/
structure BackwardChain (edges : EdgeTable) (target : String) (chain : List TransferEdge) :
    Prop where
  stored : ∀ e ∈ chain, e ∈ edges.rows
  into_target : chain.head?.map TransferEdge.toAddress = some target
  linked : chain.IsChain fun e e' => e'.toAddress = e.fromAddress
  uncut : ∀ e ∈ chain.dropLast, e.isBridgeInflow = false

/-! ## Chains grow at their far end -/

theorem backwardChain_singleton {edges : EdgeTable} {target : String} {e : TransferEdge} :
    BackwardChain edges target [e] ↔ e ∈ edges.rows ∧ e.toAddress = target := by
  constructor
  · intro h
    exact ⟨h.stored e (List.mem_singleton.mpr rfl), Option.some.inj h.into_target⟩
  · rintro ⟨he, rfl⟩
    exact ⟨fun e' he' => List.mem_singleton.mp he' ▸ he, rfl, List.IsChain.singleton e,
      fun e' he' => nomatch he'⟩

theorem backwardChain_snoc {edges : EdgeTable} {target : String} {front : List TransferEdge}
    {last e : TransferEdge} :
    BackwardChain edges target (front ++ [last] ++ [e]) ↔
      BackwardChain edges target (front ++ [last]) ∧ e ∈ edges.rows ∧
        e.toAddress = last.fromAddress ∧ last.isBridgeInflow = false := by
  have hhead : (front ++ [last] ++ [e]).head? = (front ++ [last]).head? := by
    cases front <;> rfl
  have hdrop : (front ++ [last] ++ [e]).dropLast = front ++ [last] := List.dropLast_concat
  have hdrop' : (front ++ [last]).dropLast = front := List.dropLast_concat
  -- The edge that was last is now linked further, so it must not be a bridge inflow.
  constructor
  · intro h
    obtain ⟨hlinked, _, hlink⟩ := List.isChain_append.mp h.linked
    have huncut : ∀ e' ∈ front ++ [last], e'.isBridgeInflow = false := by
      intro e' he'
      exact h.uncut e' (by rw [hdrop]; exact he')
    refine ⟨⟨fun e' he' => h.stored e' (List.mem_append_left _ he'), hhead ▸ h.into_target,
      hlinked, ?_⟩, h.stored e (by simp), hlink last (by simp) e (by simp),
      huncut last (by simp)⟩
    intro e' he'
    rw [hdrop'] at he'
    exact huncut e' (List.mem_append_left _ he')
  · rintro ⟨h, he, hlink, hcut⟩
    refine ⟨?_, hhead ▸ h.into_target, ?_, ?_⟩
    · intro e' he'
      rcases List.mem_append.mp he' with he' | he'
      · exact h.stored e' he'
      · exact List.mem_singleton.mp he' ▸ he
    · refine List.isChain_append.mpr ⟨h.linked, List.IsChain.singleton e, ?_⟩
      intro x hx y hy
      obtain rfl : last = x := by simpa using hx
      obtain rfl : e = y := by simpa using hy
      exact hlink
    · rw [hdrop]
      intro e' he'
      rcases List.mem_append.mp he' with he' | he'
      · exact h.uncut e' (hdrop'.symm ▸ he')
      · exact List.mem_singleton.mp he' ▸ hcut

/-! ## Paths of the recursion are chains -/

/-- One step of the recursion. -/
def UpstreamNext (edges : EdgeTable) (maxDepth : ℕ) (u row : UpstreamRow) : Prop :=
  ∃ e ∈ edges.rows, joinsUpstream maxDepth u e ∧ row = upstreamRow e (u.depth + 1)

theorem stepsBy_upstreamStep (edges : EdgeTable) (maxDepth : ℕ) :
    StepsBy (upstreamStep edges.rows maxDepth) (UpstreamNext edges maxDepth) := by
  intro working row
  simp only [upstreamStep, List.mem_flatMap, List.mem_map, List.mem_filter, decide_eq_true_eq]
  constructor
  · rintro ⟨e, he, u, ⟨hu, hjoin⟩, rfl⟩
    exact ⟨u, hu, e, he, hjoin, rfl⟩
  · rintro ⟨u, hu, e, he, hjoin, rfl⟩
    exact ⟨e, he, u, ⟨hu, hjoin⟩, rfl⟩

/-- A row is of the last edge of some chain. -/
def EndsChain (edges : EdgeTable) (target : String) (row : UpstreamRow) : Prop :=
  ∃ front e, BackwardChain edges target (front ++ [e]) ∧ row = upstreamRow e front.length

theorem mem_upstreamBase {edges : EdgeTable} {target : String} {row : UpstreamRow} :
    row ∈ upstreamBase edges.rows target ↔
      ∃ e, BackwardChain edges target [e] ∧ row = upstreamRow e 0 := by
  simp only [upstreamBase, List.mem_map, List.mem_filter, decide_eq_true_eq,
    backwardChain_singleton]
  constructor
  · rintro ⟨e, he, rfl⟩
    exact ⟨e, he, rfl⟩
  · rintro ⟨e, he, rfl⟩
    exact ⟨e, he, rfl⟩

/-- The recursion reaches a row iff it is of the last edge of a chain no deeper
than the bound. -/
theorem reached_iff_chain {edges : EdgeTable} {target : String} {maxDepth : ℕ}
    {row : UpstreamRow} :
    (∃ r ∈ upstreamBase edges.rows target,
        Relation.ReflTransGen (UpstreamNext edges maxDepth) r row) ↔
      row.depth ≤ maxDepth ∧ EndsChain edges target row := by
  constructor
  · rintro ⟨r, hr, hpath⟩
    obtain ⟨e₀, hchain₀, rfl⟩ := mem_upstreamBase.mp hr
    induction hpath with
    | refl => exact ⟨Nat.zero_le _, [], e₀, hchain₀, rfl⟩
    | tail _ hstep ih =>
      obtain ⟨_, front, last, hchain, rfl⟩ := ih
      obtain ⟨e, he, ⟨hlink, hdepth, hcut⟩, rfl⟩ := hstep
      refine ⟨hdepth, front ++ [last], e, ?_, by rw [List.length_append]; rfl⟩
      exact backwardChain_snoc.mpr ⟨hchain, he, hlink, Bool.eq_false_iff.mpr hcut⟩
  · rintro ⟨hdepth, front, e, hchain, rfl⟩
    replace hdepth : front.length ≤ maxDepth := hdepth
    -- induction on the chain from its far end
    induction front using List.reverseRecOn generalizing e with
    | nil => exact ⟨_, mem_upstreamBase.mpr ⟨e, hchain, rfl⟩, Relation.ReflTransGen.refl⟩
    | append_singleton front last ih =>
      rw [List.length_append, List.length_singleton] at hdepth
      obtain ⟨hfront, he, hlink, hcut⟩ := backwardChain_snoc.mp hchain
      obtain ⟨r, hr, hpath⟩ := ih last hfront (by omega)
      refine ⟨r, hr, hpath.tail ⟨e, he, ⟨hlink, ?_, ?_⟩, ?_⟩⟩
      · show front.length < maxDepth
        omega
      · exact Bool.eq_false_iff.mp hcut
      · rw [List.length_append]
        rfl

/-- The query ends, and later rounds have nothing to add. -/
theorem exists_trace (edges : EdgeTable) (target : String) (maxDepth : ℕ) :
    ∃ rows, (∀ rounds, maxDepth < rounds → trace edges target maxDepth rounds = some rows) ∧
      ∀ row, row ∈ rows ↔ row.depth ≤ maxDepth ∧ EndsChain edges target row := by
  have hterm := stepsBy_upstreamStep edges maxDepth
  have hlower : ∀ r r' : UpstreamRow, UpstreamNext edges maxDepth r r' →
      maxDepth - r'.depth < maxDepth - r.depth := by
    rintro r r' ⟨e, _, ⟨_, hdepth, _⟩, rfl⟩
    show maxDepth - (r.depth + 1) < maxDepth - r.depth
    omega
  obtain ⟨rows, hrows⟩ := exists_recursiveUnion hterm (fun r => maxDepth - r.depth) hlower
    (maxDepth + 1) (upstreamBase edges.rows target) fun r _ => by omega
  refine ⟨sortBy traceOrder rows, ?_, ?_⟩
  · intro rounds hrounds
    obtain ⟨extra, rfl⟩ := Nat.exists_eq_add_of_lt hrounds
    rw [trace, show maxDepth + extra + 1 = maxDepth + 1 + extra by omega,
      recursiveUnion_add extra _ _ _ hrows, Option.map_some]
  · intro row
    rw [mem_sortBy, mem_recursiveUnion_iff hterm _ _ _ hrows, reached_iff_chain]

/-! ## The trace -/

/-- Two stored edges with one key are one edge. -/
theorem EdgeTable.eq_of_key_eq (edges : EdgeTable) {e e' : TransferEdge} (he : e ∈ edges.rows)
    (he' : e' ∈ edges.rows) (hkey : e.key = e'.key) : e = e' :=
  List.inj_on_of_nodup_map edges.keys_nodup he he' hkey

/-- The query ends, on any graph; an edge is in its result iff it is the far end of
a backward chain within the depth bound; and every row's depth is the length of a
chain its edge ends. -/
theorem trace_backward_chains (edges : EdgeTable) (target : String) (maxDepth : ℕ) :
    ∃ rows, (∀ rounds, maxDepth < rounds → trace edges target maxDepth rounds = some rows) ∧
      (∀ e ∈ edges.rows,
        (∃ row ∈ rows, (row.transactionVersion, row.eventIndex) = e.key) ↔
          ∃ chain, BackwardChain edges target chain ∧ chain.getLast? = some e ∧
            chain.length ≤ maxDepth + 1) ∧
      ∀ row ∈ rows, ∃ chain e, BackwardChain edges target chain ∧ chain.getLast? = some e ∧
        row = upstreamRow e row.depth ∧ chain.length = row.depth + 1 := by
  obtain ⟨rows, hends, hmem⟩ := exists_trace edges target maxDepth
  refine ⟨rows, hends, ?_, ?_⟩
  · intro e he
    constructor
    · rintro ⟨row, hrow, hkey⟩
      obtain ⟨hdepth, front, e', hchain, rfl⟩ := (hmem row).mp hrow
      obtain rfl : e' = e := edges.eq_of_key_eq (hchain.stored e' (by simp)) he hkey
      refine ⟨front ++ [e'], hchain, List.getLast?_concat, ?_⟩
      rw [List.length_append]
      exact Nat.succ_le_succ hdepth
    · rintro ⟨chain, hchain, hlast, hlength⟩
      obtain ⟨front, rfl⟩ := List.getLast?_eq_some_iff.mp hlast
      rw [List.length_append] at hlength
      exact ⟨upstreamRow e front.length,
        (hmem _).mpr ⟨Nat.le_of_succ_le_succ hlength, front, e, hchain, rfl⟩, rfl⟩
  · intro row hrow
    obtain ⟨_, front, e, hchain, rfl⟩ := (hmem row).mp hrow
    exact ⟨front ++ [e], e, hchain, List.getLast?_concat, rfl, List.length_append⟩

end IndexerProcessors.Reputation

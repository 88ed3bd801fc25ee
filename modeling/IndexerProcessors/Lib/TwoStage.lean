import IndexerProcessors.Lib.Run

/-!
# Two stages over one store

The first stage turns batches into outputs and reads the store for it; the second stage
takes the outputs, in order, and writes them to the store. The first may be any number
of batches ahead, so that it reads a store in which some of its own outputs are
still missing.

What the store will have once everything under way is written (`flushed`) is unchanged by
the second stage. If each batch is read as it would be from the flushed store, that is
the store of the sequential run, in which each batch is written before the next is read
(`sequential_flushed`).
-/

namespace IndexerProcessors.Lib

variable {σ β ο κ χ : Type}

/-- The batches read so far, the outputs that are not written yet, and the store. -/
structure TwoStage (σ β ο : Type) where
  history : List β
  pending : List ο
  db : σ

/-- A choice says what of the store is there at each read of a batch. -/
inductive TwoStage.Action (χ β : Type) where
  | extract (choice : χ) (batch : β)
  | store

namespace TwoStage

variable (extract : κ → β → Option ο) (store : σ → ο → σ) (see : χ → (ℕ → σ) → κ)

/-- The store when `n` of the outputs under way are written. -/
def tables (st : TwoStage σ β ο) (n : ℕ) : σ := (st.pending.take n).foldl store st.db

/-- The store when all of them are. -/
def flushed (st : TwoStage σ β ο) : σ := st.pending.foldl store st.db

/-- One stage makes a step. While a batch is read the second stage may go on: what it writes
then is seen by the reads through the choice. -/
def step (st : TwoStage σ β ο) : Action χ β → Option (TwoStage σ β ο)
  | .extract choice batch =>
    (extract (see choice (st.tables store)) batch).map fun out =>
      { st with history := st.history ++ [batch], pending := st.pending ++ [out] }
  | .store =>
    match st.pending with
    | [] => none
    | out :: pending => some { st with pending, db := store st.db out }

/-- Each batch is written before the next is read. -/
def sequential (conn : σ → κ) (db : σ) (batches : List β) : Option σ :=
  batches.foldlM (fun db batch => (extract (conn db) batch).map (store db)) db

variable {extract store see}

theorem sequential_append_singleton (conn : σ → κ) (db : σ) (batches : List β) (batch : β) :
    sequential extract store conn db (batches ++ [batch]) =
      (sequential extract store conn db batches).bind fun db =>
        (extract (conn db) batch).map (store db) := by
  unfold sequential
  rw [List.foldlM_append]
  congr 1
  funext db
  rw [List.foldlM_cons]
  exact bind_pure _

/-- A run in which every batch is read as from the flushed store. -/
theorem sequential_flushed (conn : σ → κ) {db : σ} {C : TwoStage σ β ο → Action χ β → Prop}
    (hagree : ∀ st choice batch, C st (.extract choice batch) →
      extract (see choice (st.tables store)) batch = extract (conn (st.flushed store)) batch)
    {actions : List (Action χ β)} {st : TwoStage σ β ο}
    (h : Run (step extract store see) C ⟨[], [], db⟩ actions st) :
    sequential extract store conn db st.history = some (st.flushed store) := by
  refine h.invariant
    (P := fun st => sequential extract store conn db st.history = some (st.flushed store)) rfl ?_
  intro st action st' hst hC hstep
  cases action with
  | extract choice batch =>
    obtain ⟨out, hout, rfl⟩ := Option.map_eq_some_iff.mp hstep
    rw [hagree st choice batch hC] at hout
    have hflushed : flushed store { st with
        history := st.history ++ [batch], pending := st.pending ++ [out] } =
          store (st.flushed store) out := List.foldl_append
    rw [sequential_append_singleton, hst, Option.bind_some, hout, Option.map_some, hflushed]
  | store =>
    unfold step at hstep
    dsimp only at hstep
    split at hstep
    next => cases hstep
    next out pending hpending =>
      obtain rfl := Option.some.inj hstep
      rw [flushed, hpending] at hst
      exact hst

end TwoStage

end IndexerProcessors.Lib

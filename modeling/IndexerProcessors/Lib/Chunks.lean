import Mathlib.Data.List.Defs
import Mathlib.Data.List.Basic

/-!
# Chunks of a list

`List.toChunks` cuts a list into pieces of a fixed size, the last of which may be
shorter. It fills an array and starts a new one when the array is full; here is
what it does to a list that is put together of full pieces and a rest.
-/

namespace IndexerProcessors.Lib

variable {α : Type} {n : ℕ}

/-- Finished pieces are not looked at again. -/
theorem toChunks_go_finished (xs : List α) (piece : Array α) (finished : Array (List α)) :
    List.toChunks.go n xs piece finished =
      finished.toList ++ List.toChunks.go n xs piece #[] := by
  induction xs generalizing piece finished with
  | nil => simp [List.toChunks.go]
  | cons x xs ih =>
    unfold List.toChunks.go
    split
    · rw [ih, ih _ (#[].push piece.toList), Array.toList_push, List.append_assoc]
      rfl
    · exact ih _ _

/-- A list is cut from its first element on. -/
theorem toChunks_cons (hn : 0 < n) (x : α) (xs : List α) :
    (x :: xs).toChunks n = List.toChunks.go n xs #[x] #[] := by
  cases n with
  | zero => exact absurd hn (Nat.lt_irrefl 0)
  | succ n => rfl

/-- A piece that is filled up is the next one. -/
theorem toChunks_go_fill (hn : 0 < n) (fill rest : List α) (piece : Array α)
    (hsize : piece.size + fill.length = n) :
    List.toChunks.go n (fill ++ rest) piece #[] =
      (piece.toList ++ fill) :: rest.toChunks n := by
  induction fill generalizing piece with
  | nil =>
    rw [List.nil_append, List.append_nil]
    cases rest with
    | nil => rfl
    | cons x xs =>
      unfold List.toChunks.go
      rw [if_pos (by simpa using hsize), toChunks_go_finished, toChunks_cons hn]
      rfl
  | cons y fill ih =>
    rw [List.length_cons] at hsize
    rw [List.cons_append]
    unfold List.toChunks.go
    have hroom : ¬ (piece.size == n) = true := by
      rw [beq_iff_eq]
      omega
    rw [if_neg hroom, ih (piece.push y) (by rw [Array.size_push]; omega), Array.toList_push,
      List.append_assoc]
    rfl

/-- The first piece of a list that begins with a full one. -/
theorem toChunks_append (hn : 0 < n) {piece : List α} (hpiece : piece.length = n)
    (rest : List α) : (piece ++ rest).toChunks n = piece :: rest.toChunks n := by
  cases piece with
  | nil =>
    rw [← hpiece] at hn
    exact absurd hn (Nat.lt_irrefl 0)
  | cons x piece =>
    rw [List.cons_append, toChunks_cons hn, toChunks_go_fill hn piece rest #[x]]
    · rfl
    · rw [← hpiece, List.length_cons, Nat.add_comm]
      rfl

/-- Full pieces come out as they went in. -/
theorem toChunks_flatten_append (hn : 0 < n) {pieces : List (List α)}
    (hpieces : ∀ piece ∈ pieces, piece.length = n) (rest : List α) :
    (pieces.flatten ++ rest).toChunks n = pieces ++ rest.toChunks n := by
  induction pieces with
  | nil => rfl
  | cons piece pieces ih =>
    rw [List.flatten_cons, List.append_assoc,
      toChunks_append hn (hpieces piece (List.mem_cons_self ..)),
      ih (fun p hp => hpieces p (List.mem_cons_of_mem _ hp)), List.cons_append]

end IndexerProcessors.Lib

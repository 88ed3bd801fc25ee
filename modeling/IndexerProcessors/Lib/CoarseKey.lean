import IndexerProcessors.Lib.LastWriter

/-!
# Batches with a coarser key

A batch of rows is collected in a map before it is stored. Where the key of the map
(`coarse (pk row)`) says less than the primary key of the table, a row can be pushed
out of the map by a row of another primary key, and is never stored.

`Collects` says what the map holds after a batch. For batches stored in the order of
their versions, `lookup_rowWrites` says what stays at a primary key, and
`getLast?_keptAt_eq_iff` exactly when that is its last row: the last batch that has the
key must not go on to a row of another primary key of the same coarse key.
-/

namespace IndexerProcessors.Lib

variable {ρ κ κ' V : Type} [DecidableEq κ] [DecidableEq κ'] [LinearOrder V]

/-- Values in the order of their versions: the last is the latest. -/
theorem latest_of_pairwise {ver : ρ → V} {rows : List ρ}
    (h : rows.Pairwise fun a b => ver a ≤ ver b) : latest ver none rows = rows.getLast? := by
  induction rows using List.reverseRecOn with
  | nil => rfl
  | append_singleton rows row ih =>
    rw [List.pairwise_append] at h
    have hlatest : latest ver none (rows ++ [row]) =
        some (Table.merged (later ver) (latest ver none rows) row) := by
      rw [latest, List.foldl_append]
      rfl
    rw [hlatest, ih h.1, List.getLast?_concat]
    cases hlast : rows.getLast? with
    | none => rfl
    | some old =>
      have hle := h.2.2 old (List.mem_of_getLast? hlast) row (List.mem_singleton.mpr rfl)
      show some (later ver old row) = some row
      rw [later, if_pos hle]

/-- A filter that keeps something has a last element. -/
theorem exists_getLast?_filter {p : ρ → Bool} {rows : List ρ} {row : ρ} (hrow : row ∈ rows)
    (hp : p row = true) : ∃ last, (rows.filter p).getLast? = some last := by
  refine Option.ne_none_iff_exists'.mp fun hnone => ?_
  exact List.filter_eq_nil_iff.mp (List.getLast?_eq_none_iff.mp hnone) row hrow hp

/-- A map has one row of a key at most. -/
theorem proj_rows (m : Table κ ρ) (k : κ) : proj k m.rows = (m.lookup k).toList := by
  cases hlookup : m.lookup k with
  | none =>
    refine List.eq_nil_iff_forall_not_mem.mpr fun row hrow => ?_
    rw [Table.mem_rows.mp (mem_proj.mp hrow)] at hlookup
    cases hlookup
  | some row => exact proj_eq_singleton (Table.nodup_rows_keys _) (Table.mem_rows.mpr hlookup)

section Coarse

variable (pk : ρ → κ) (coarse : κ → κ')

/-- A map that has been filled with rows in order: the last row of each coarse key. -/
def Collects (rows : List ρ) (m : Table κ' ρ) : Prop :=
  ∀ c, m.lookup c = (rows.filter fun row => coarse (pk row) = c).getLast?

omit [DecidableEq κ] in
theorem collects_insertAll (rows : List ρ) :
    Collects pk coarse rows (Table.insertAll ∅ (rows.map fun row => (coarse (pk row), row))) := by
  intro c
  rw [Table.lookup_insertAll, AList.lookup_empty, Option.or_none,
    proj_map c (fun row => coarse (pk row)) fun row => row, List.map_id']

omit [DecidableEq κ] in
/-- `extend` with a map: its rows first, then what was there. -/
theorem Collects.lookup_insertAll_rows {rows : List ρ} {m' : Table κ' ρ}
    (h : Collects pk coarse rows m') (m : Table κ' ρ) (c : κ') :
    (m.insertAll m'.rows).lookup c =
      ((rows.filter fun row => coarse (pk row) = c).getLast?).or (m.lookup c) := by
  rw [Table.lookup_insertAll, proj_rows, ← h c]
  cases m'.lookup c with
  | none => rfl
  | some row => rfl

omit [DecidableEq κ] in
/-- Two maps one after the other. -/
theorem Collects.extend {rows rows' : List ρ} {m m' : Table κ' ρ} (h : Collects pk coarse rows m)
    (h' : Collects pk coarse rows' m') :
    Collects pk coarse (rows ++ rows') (m.insertAll m'.rows) := by
  intro c
  rw [h'.lookup_insertAll_rows, h c, List.filter_append, List.getLast?_append]

/-- What the batch stores at a primary key. -/
def keptAt (k : κ) (rows : List ρ) : Option ρ :=
  ((rows.filter fun row => coarse (pk row) = coarse k).getLast?).filter fun row => pk row = k

/-- The upserts of a map. -/
def rowWrites (query : ρ → ρ → ρ) (m : Table κ' ρ) : List (κ × Write ρ) :=
  m.rows.map fun entry => (pk entry.2, ⟨entry.2, query⟩)

variable {pk coarse}

theorem keptAt_eq_some {k : κ} {rows : List ρ} {row : ρ} (h : keptAt pk coarse k rows = some row) :
    row ∈ rows ∧ pk row = k := by
  obtain ⟨hlast, hpk⟩ := Option.filter_eq_some_iff.mp h
  exact ⟨(List.mem_filter.mp (List.mem_of_getLast? hlast)).1, of_decide_eq_true hpk⟩

omit [DecidableEq κ] in
/-- The rows of a map are rows of the batch, under their own coarse keys. -/
theorem Collects.mem {rows : List ρ} {m : Table κ' ρ} (h : Collects pk coarse rows m) {c : κ'}
    {row : ρ} (hrow : m.lookup c = some row) : row ∈ rows ∧ coarse (pk row) = c := by
  rw [h c] at hrow
  obtain ⟨hmem, hc⟩ := List.mem_filter.mp (List.mem_of_getLast? hrow)
  exact ⟨hmem, of_decide_eq_true hc⟩

/-- A batch stores at most one row of a primary key. -/
theorem Collects.proj_rowWrites {rows : List ρ} {m : Table κ' ρ} (h : Collects pk coarse rows m)
    (query : ρ → ρ → ρ) (k : κ) :
    proj k (rowWrites pk query m) =
      (keptAt pk coarse k rows).toList.map fun row => ⟨row, query⟩ := by
  -- the rows of the primary key are among those of its coarse key
  have hfilter : m.rows.filter (fun entry => pk entry.2 = k) =
      (m.rows.filter fun entry => entry.1 = coarse k).filter fun entry => pk entry.2 = k := by
    rw [List.filter_filter]
    refine List.filter_congr fun entry hentry => ?_
    rw [← (h.mem (Table.mem_rows.mp hentry)).2]
    by_cases hk : pk entry.2 = k
    · simp [hk]
    · simp [hk]
  have hmap : (m.rows.filter fun entry => entry.1 = coarse k).map Prod.snd =
      (m.lookup (coarse k)).toList := by
    rw [← proj_map (coarse k) Prod.fst Prod.snd, List.map_id', proj_rows]
  have hsplit (l : List (κ' × ρ)) :
      ((l.filter fun entry => pk entry.2 = k).map fun entry => (⟨entry.2, query⟩ : Write ρ)) =
        ((l.map Prod.snd).filter fun row => pk row = k).map fun row => ⟨row, query⟩ := by
    rw [List.filter_map, List.map_map]
    rfl
  rw [rowWrites, proj_map k (fun entry : κ' × ρ => pk entry.2), hfilter, hsplit, hmap, keptAt,
    ← h (coarse k)]
  cases m.lookup (coarse k) with
  | none => rfl
  | some row =>
    by_cases hk : pk row = k
    · simp [Option.filter_some, hk]
    · simp [Option.filter_some, hk]

/-- Batches of higher and higher versions: at each primary key the table ends with
the last row a batch keeps of it. -/
theorem lookup_rowWrites {ver : ρ → V} {query : ρ → ρ → ρ}
    {batches : List (List ρ × Table κ' ρ)}
    (hquery : ∀ old excluded, pk old = pk excluded →
      query old excluded = later ver old excluded)
    (hcollects : ∀ b ∈ batches, Collects pk coarse b.1 b.2)
    (hord : (batches.map Prod.fst).Pairwise fun a b => ∀ r ∈ a, ∀ s ∈ b, ver r < ver s) (k : κ) :
    ((∅ : Table κ ρ).writeAll (batches.flatMap fun b => rowWrites pk query b.2)).lookup k =
      ((batches.map Prod.fst).filterMap (keptAt pk coarse k)).getLast? := by
  have hproj : proj k (batches.flatMap fun b => rowWrites pk query b.2) =
      ((batches.map Prod.fst).filterMap (keptAt pk coarse k)).map fun row => ⟨row, query⟩ := by
    clear hord
    induction batches with
    | nil => rfl
    | cons b batches ih =>
      have hrest : ∀ b' ∈ batches, Collects pk coarse b'.1 b'.2 :=
        fun b' hb' => hcollects b' (List.mem_cons_of_mem _ hb')
      rw [List.flatMap_cons, proj_append, ih hrest,
        (hcollects b List.mem_cons_self).proj_rowWrites, List.map_cons, List.filterMap_cons]
      cases keptAt pk coarse k b.1 with
      | none => rfl
      | some row => rfl
  have hpk : ∀ row ∈ (batches.map Prod.fst).filterMap (keptAt pk coarse k), pk row = k := by
    intro row hrow
    obtain ⟨b, -, hb⟩ := List.mem_filterMap.mp hrow
    exact (keptAt_eq_some hb).2
  rw [Table.lookup_writeAll, hproj, List.foldl_map, AList.lookup_empty,
    foldl_merged_eq_latest (P := fun row => pk row = k)
      (fun old excluded h h' => hquery old excluded (h.trans h'.symm)) hpk none (by simp)]
  refine latest_of_pairwise (hord.filterMap _ ?_)
  intro a b hlt r hr s hs
  exact (hlt r (keptAt_eq_some hr).1 s (keptAt_eq_some hs).1).le

/-- The last batch with a row of the primary key ends with a row of that key, among
those of its coarse key. -/
def LastKept (pk : ρ → κ) (coarse : κ → κ') (k : κ) (batches : List (List ρ)) : Prop :=
  ∀ b, (batches.filter fun b => b.any fun r => pk r = k).getLast? = some b →
    ∀ r, (b.filter fun r => coarse (pk r) = coarse k).getLast? = some r → pk r = k

theorem lastKept_concat_of_notMem {k : κ} {batches : List (List ρ)} {b : List ρ}
    (hb : ∀ r ∈ b, pk r ≠ k) :
    LastKept pk coarse k (batches ++ [b]) ↔ LastKept pk coarse k batches := by
  have hany : (b.any fun r => pk r = k) = false := by
    rw [List.any_eq_false]
    intro r hr
    exact fun h => hb r hr (of_decide_eq_true h)
  unfold LastKept
  rw [List.filter_append, List.filter_cons_of_neg (by rw [hany]; exact Bool.false_ne_true),
    List.filter_nil, List.append_nil]

theorem lastKept_concat_of_mem {k : κ} {batches : List (List ρ)} {b : List ρ} {row : ρ}
    (hrow : row ∈ b) (hpk : pk row = k) :
    LastKept pk coarse k (batches ++ [b]) ↔
      ∀ r, (b.filter fun r => coarse (pk r) = coarse k).getLast? = some r → pk r = k := by
  have hany : (b.any fun r => pk r = k) = true :=
    List.any_eq_true.mpr ⟨row, hrow, decide_eq_true hpk⟩
  unfold LastKept
  have hlast : ((batches ++ [b]).filter fun b => b.any fun r => pk r = k).getLast? = some b := by
    rw [List.filter_append, List.filter_singleton, hany]
    exact List.getLast?_concat
  rw [hlast]
  constructor
  · intro h
    exact h b rfl
  · intro h b' hb'
    obtain rfl := Option.some.inj hb'
    exact h

/-- The last row of a coarse key is the last of its primary key too. -/
theorem getLast?_filter_of_coarse {k : κ} {b : List ρ} {row : ρ}
    (hlast : (b.filter fun r => coarse (pk r) = coarse k).getLast? = some row)
    (hpk : pk row = k) : (b.filter fun r => pk r = k).getLast? = some row := by
  have hfilter : (b.filter fun r => pk r = k) =
      (b.filter fun r => coarse (pk r) = coarse k).filter fun r => pk r = k := by
    rw [List.filter_filter]
    refine List.filter_congr fun r _ => ?_
    by_cases hk : pk r = k
    · simp [hk]
    · simp [hk]
  obtain ⟨init, hinit⟩ := List.getLast?_eq_some_iff.mp hlast
  rw [hfilter, hinit, List.filter_append, List.filter_singleton, decide_eq_true hpk]
  exact List.getLast?_concat

/-- **When the last row is the one that stays.** Batches of higher and higher
versions: the last row kept of a primary key is its last row exactly if no row of
another primary key comes after it under the same coarse key in its batch. -/
theorem getLast?_keptAt_eq_iff {ver : ρ → V} (k : κ) {batches : List (List ρ)}
    (hord : batches.Pairwise fun a b => ∀ r ∈ a, ∀ s ∈ b, ver r < ver s) :
    (batches.filterMap (keptAt pk coarse k)).getLast? =
        (batches.flatten.filter fun r => pk r = k).getLast? ↔
      LastKept pk coarse k batches := by
  induction batches using List.reverseRecOn with
  | nil =>
    constructor
    · intro _ b hb
      cases hb
    · intro _
      rfl
  | append_singleton batches b ih =>
    have hpre := List.pairwise_append.mp hord
    have hone : [b].filterMap (keptAt pk coarse k) = (keptAt pk coarse k b).toList := by
      rw [List.filterMap_cons, List.filterMap_nil]
      cases keptAt pk coarse k b with
      | none => rfl
      | some row => rfl
    rw [List.filterMap_append, hone, List.flatten_append, List.filter_append,
      List.flatten_singleton]
    by_cases hmem : ∃ r ∈ b, pk r = k
    · obtain ⟨row, hrow, hpk⟩ := hmem
      rw [lastKept_concat_of_mem hrow hpk, List.getLast?_append, List.getLast?_append]
      -- the row the batch keeps under the coarse key
      obtain ⟨lastRow, hlast⟩ : ∃ r, (b.filter fun r => coarse (pk r) = coarse k).getLast? =
          some r := exists_getLast?_filter hrow (decide_eq_true (hpk ▸ rfl))
      have hkept : keptAt pk coarse k b = (some lastRow).filter fun r => pk r = k := by
        rw [keptAt, hlast]
      constructor
      · intro heq r hr
        rw [hlast] at hr
        obtain rfl := Option.some.inj hr
        by_contra hne
        -- otherwise the table ends with a row of an earlier batch, or without one
        have hnone : keptAt pk coarse k b = none := by
          rw [hkept, Option.filter_some, if_neg fun h => hne (of_decide_eq_true h)]
        obtain ⟨expected, hexpected⟩ : ∃ e, (b.filter fun r => pk r = k).getLast? = some e :=
          exists_getLast?_filter hrow (decide_eq_true hpk)
        rw [hnone, hexpected] at heq
        obtain ⟨a, ha, hin⟩ := List.mem_filterMap.mp (List.mem_of_getLast? heq)
        have hb : expected ∈ b := (List.mem_filter.mp (List.mem_of_getLast? hexpected)).1
        have hlt := hpre.2.2 a ha b (List.mem_singleton.mpr rfl) expected (keptAt_eq_some hin).1
          expected hb
        exact lt_irrefl _ hlt
      · intro hkeep
        have hlastRow := hkeep lastRow hlast
        have hnone : keptAt pk coarse k b = some lastRow := by
          rw [hkept, Option.filter_some, if_pos (decide_eq_true hlastRow)]
        rw [hnone, getLast?_filter_of_coarse hlast hlastRow]
        rfl
    · have hnone : ∀ r ∈ b, pk r ≠ k := fun r hr h => hmem ⟨r, hr, h⟩
      have hkept : keptAt pk coarse k b = none := by
        rw [Option.eq_none_iff_forall_ne_some]
        intro r hr
        obtain ⟨hin, hk⟩ := keptAt_eq_some hr
        exact hnone r hin hk
      have hempty : b.filter (fun r => pk r = k) = [] :=
        List.filter_eq_nil_iff.mpr fun r hr h => hnone r hr (of_decide_eq_true h)
      rw [lastKept_concat_of_notMem hnone, hkept, hempty, Option.toList_none, List.append_nil,
        List.append_nil]
      exact ih hpre.1

end Coarse

end IndexerProcessors.Lib

import IndexerProcessors.Lib.KeyedLog
import IndexerProcessors.Lib.Table

/-!
# Last writer wins

Rows that carry a version, stored by statements that keep the higher one:
`DO UPDATE SET … WHERE table.version <= EXCLUDED.version`. Several statements
with different `SET` lists may write one table, so that a column follows only
some of the writes; what a query sees of a row is an `observe` function, and
each write either shows a new value there or leaves it alone.

- `latest` — what a run of guarded writes leaves, and `latest_isLatest`: one of
  the written values, of the highest version;
- `observe_writeAll` — a table seen through `observe` is `latest` of the values
  written at the key, whatever the other columns do;
- `lookup_insertAll` — an in-memory map filled in order holds the last value of
  a key;
- `latest_batches` — the two rules compose. A list of transactions is cut into
  batches, each batch stores its last value of a key, and the batches are stored
  in any order and any number of times: the table ends with the last value of
  the whole list.
-/

namespace IndexerProcessors.Lib

/-! ## Values with versions -/

section Later

variable {ω V : Type} [LinearOrder V] (ver : ω → V)

/-- The value a guard `stored ≤ incoming` keeps. -/
def later (stored incoming : ω) : ω :=
  if ver stored ≤ ver incoming then incoming else stored

/-- What writing `es` one after another over `old` leaves. -/
def latest (old : Option ω) (es : List ω) : Option ω :=
  es.foldl (fun o e => some (Table.merged (later ver) o e)) old

/-- `m` is among `es`, and no version among them is higher. -/
structure IsLatest (es : List ω) (m : ω) : Prop where
  mem : m ∈ es
  le : ∀ e ∈ es, ver e ≤ ver m

variable {ver}

/-- Where the version determines the value, at most one value is the latest. -/
theorem IsLatest.unique {es : List ω} {m m' : ω}
    (huniq : ∀ a ∈ es, ∀ b ∈ es, ver a = ver b → a = b) (h : IsLatest ver es m)
    (h' : IsLatest ver es m') : m = m' :=
  huniq m h.mem m' h'.mem (le_antisymm (h'.le m h.mem) (h.le m' h'.mem))

variable (ver)

theorem isLatest_later (a b : ω) : IsLatest ver [a, b] (later ver a b) := by
  unfold later
  split
  next hle =>
    refine ⟨by simp, ?_⟩
    intro e he
    rcases List.mem_pair.mp he with rfl | rfl
    · exact hle
    · exact le_rfl
  next hlt =>
    refine ⟨by simp, ?_⟩
    intro e he
    rcases List.mem_pair.mp he with rfl | rfl
    · exact le_rfl
    · exact (not_le.mp hlt).le

theorem latest_some_isLatest :
    ∀ (es : List ω) (old : ω), ∃ m, latest ver (some old) es = some m ∧
      IsLatest ver (old :: es) m := by
  intro es
  induction es with
  | nil => intro old; exact ⟨old, rfl, by simp, by simp⟩
  | cons e es ih =>
    intro old
    obtain ⟨m, hm, hlast⟩ := ih (later ver old e)
    have hfirst := isLatest_later ver old e
    refine ⟨m, hm, ?_, ?_⟩
    · rcases List.mem_cons.mp hlast.mem with rfl | hmem
      · rcases List.mem_pair.mp hfirst.mem with heq | heq
        · rw [heq]; simp
        · rw [heq]; simp
      · exact List.mem_cons_of_mem _ (List.mem_cons_of_mem _ hmem)
    · have hhead := hlast.le _ (List.mem_cons_self ..)
      intro e' he'
      rcases List.mem_cons.mp he' with rfl | he'
      · exact (hfirst.le _ (by simp)).trans hhead
      · rcases List.mem_cons.mp he' with rfl | he'
        · exact (hfirst.le _ (by simp)).trans hhead
        · exact hlast.le _ (List.mem_cons_of_mem _ he')

theorem latest_isLatest {es : List ω} (hne : es ≠ []) :
    ∃ m, latest ver none es = some m ∧ IsLatest ver es m := by
  cases es with
  | nil => exact absurd rfl hne
  | cons e es => exact latest_some_isLatest ver es e

variable {ver}

/-- A run of writes onto nothing ends with the latest value, if the versions
determine the values. -/
theorem latest_eq_some {es : List ω} {m : ω}
    (huniq : ∀ a ∈ es, ∀ b ∈ es, ver a = ver b → a = b) (h : IsLatest ver es m) :
    latest ver none es = some m := by
  obtain ⟨m', hm', hlast⟩ := latest_isLatest ver (List.ne_nil_of_mem h.mem)
  rw [hm', hlast.unique huniq h]

end Later

/-! ## Tables written by several statements -/

/-- A row to store, with the way its statement merges it into a stored one. -/
structure Write (ρ : Type) where
  excluded : ρ
  merge : ρ → ρ → ρ

namespace Table

variable {κ ρ : Type} [DecidableEq κ]

/-- Row upserts of any statements, in the order they are executed. -/
def writeAll (t : Table κ ρ) (ws : List (κ × Write ρ)) : Table κ ρ :=
  ws.foldl (fun t w => t.upsert w.2.merge w.1 w.2.excluded) t

/-- Only the writes of its key touch a row. -/
theorem lookup_writeAll (k : κ) :
    ∀ (ws : List (κ × Write ρ)) (t : Table κ ρ),
      (t.writeAll ws).lookup k =
        (proj k ws).foldl (fun old w => some (merged w.merge old w.excluded)) (t.lookup k) := by
  intro ws
  induction ws with
  | nil => intro t; rfl
  | cons w ws ih =>
    intro t
    obtain ⟨k', w⟩ := w
    show ((t.upsert w.merge k' w.excluded).writeAll ws).lookup k = _
    rw [ih, ← List.singleton_append, proj_append, List.foldl_append]
    by_cases h : k' = k
    · subst h
      rw [lookup_upsert_self, proj_singleton_self, List.foldl_cons, List.foldl_nil]
    · rw [lookup_upsert_ne _ _ _ (Ne.symm h), proj_singleton_ne w h, List.foldl_nil]

/-- A key without writes keeps its row. -/
theorem lookup_writeAll_of_notMem {k : κ} {ws : List (κ × Write ρ)} (t : Table κ ρ)
    (h : k ∉ ws.map Prod.fst) : (t.writeAll ws).lookup k = t.lookup k := by
  rw [lookup_writeAll, proj_eq_nil h, List.foldl_nil]

/-- What every write of a key keeps, a run of writes keeps. -/
theorem writeAll_invariant {P : Option ρ → Prop} {k : κ} {ws : List (κ × Write ρ)}
    {t : Table κ ρ} (hinit : P (t.lookup k))
    (hstep : ∀ w, (k, w) ∈ ws → ∀ old, P old → P (some (merged w.merge old w.excluded))) :
    P ((t.writeAll ws).lookup k) := by
  rw [lookup_writeAll]
  have hmem : ∀ w ∈ proj k ws, (k, w) ∈ ws := fun w => mem_proj.mp
  generalize proj k ws = l at hmem
  generalize t.lookup k = old at hinit
  induction l generalizing old with
  | nil => exact hinit
  | cons w l ih =>
    refine ih (fun w' hw' => hmem w' (List.mem_cons_of_mem _ hw')) _ ?_
    exact hstep w (hmem w (List.mem_cons_self ..)) old hinit

/-- What a write shows under `observe`: a new value, subject to its version, or
nothing. -/
def Shows {ω V : Type} [LinearOrder V] (ver : ω → V) (observe : Option ρ → Option ω) (w : Write ρ)
    (shown : Option ω) : Prop :=
  ∀ old, observe (some (merged w.merge old w.excluded)) =
    match shown with
    | some e => some (merged (later ver) (observe old) e)
    | none => observe old

/-- **Each column group follows its own writes.** Through `observe` a row is the
latest of the values its writes show. -/
theorem observe_writeAll {ω V : Type} [LinearOrder V] {ver : ω → V}
    {observe : Option ρ → Option ω} {shown : Write ρ → Option ω} {k : κ}
    {ws : List (κ × Write ρ)} (t : Table κ ρ)
    (hshows : ∀ w, (k, w) ∈ ws → Shows ver observe w (shown w)) :
    observe ((t.writeAll ws).lookup k) =
      latest ver (observe (t.lookup k)) ((proj k ws).filterMap shown) := by
  rw [lookup_writeAll]
  have hmem : ∀ w ∈ proj k ws, (k, w) ∈ ws := fun w => mem_proj.mp
  generalize proj k ws = l at hmem
  generalize t.lookup k = old
  induction l generalizing old with
  | nil => rfl
  | cons w l ih =>
    have hw := hshows w (hmem w (List.mem_cons_self ..)) old
    rw [List.foldl_cons, ih fun w' hw' => hmem w' (List.mem_cons_of_mem _ hw')]
    rw [hw, List.filterMap_cons]
    cases shown w with
    | none => rfl
    | some e => rfl

/-! ## Maps filled in order -/

/-- `HashMap::insert` for each entry, in order. -/
def insertAll (t : Table κ ρ) (rows : List (κ × ρ)) : Table κ ρ :=
  rows.foldl (fun t row => t.insert row.1 row.2) t

theorem insertAll_append (t : Table κ ρ) (rows rows' : List (κ × ρ)) :
    t.insertAll (rows ++ rows') = (t.insertAll rows).insertAll rows' :=
  List.foldl_append

/-- The last entry of a key stays. -/
theorem lookup_insertAll (k : κ) (rows : List (κ × ρ)) (t : Table κ ρ) :
    (t.insertAll rows).lookup k = (proj k rows).getLast?.or (t.lookup k) := by
  induction rows using List.reverseRecOn with
  | nil => rfl
  | append_singleton rows row ih =>
    obtain ⟨k', b⟩ := row
    rw [insertAll_append, proj_append]
    show ((t.insertAll rows).insert k' b).lookup k = _
    by_cases h : k' = k
    · subst h
      rw [AList.lookup_insert, proj_singleton_self, List.getLast?_concat]
      rfl
    · rw [AList.lookup_insert_ne (Ne.symm h), proj_singleton_ne b h, List.append_nil, ih]

/-- What holds of the entries before and of the inserted ones holds of all. -/
theorem insertAll_forall {P : κ → ρ → Prop} {t : Table κ ρ} {rows : List (κ × ρ)}
    (ht : ∀ k row, t.lookup k = some row → P k row) (hrows : ∀ row ∈ rows, P row.1 row.2) :
    ∀ k row, (t.insertAll rows).lookup k = some row → P k row := by
  intro k row h
  rw [lookup_insertAll, Option.or_eq_some_iff] at h
  rcases h with h | ⟨-, h⟩
  · exact hrows (k, row) (mem_proj.mp (List.mem_of_getLast? h))
  · exact ht k row h

/-- At most one entry, if it is there. -/
theorem lookup_insertAll_toList {α : Type} (t : Table κ ρ) (row : Option α) (key : α → κ)
    (value : α → ρ) (k : κ) :
    (t.insertAll (row.toList.map fun a => (key a, value a))).lookup k =
      ((row.filter fun a => key a = k).map value).or (t.lookup k) := by
  rw [lookup_insertAll, proj_map]
  cases row with
  | none => rfl
  | some a =>
    by_cases h : key a = k
    · simp [Option.filter_some, h]
    · simp [Option.filter_some, h]

/-- The entries of a table, as rows to store. -/
def rows (t : Table κ ρ) : List (κ × ρ) := t.entries.map fun row => (row.1, row.2)

theorem mem_rows {t : Table κ ρ} {k : κ} {row : ρ} :
    (k, row) ∈ t.rows ↔ t.lookup k = some row := by
  have hmem : t.lookup k = some row ↔ Sigma.mk k row ∈ t.entries := AList.mem_lookup_iff
  rw [hmem]
  unfold rows
  constructor
  · intro h
    obtain ⟨⟨k', row'⟩, hin, heq⟩ := List.mem_map.mp h
    obtain ⟨rfl, rfl⟩ := Prod.mk.inj heq
    exact hin
  · intro h
    exact List.mem_map.mpr ⟨⟨k, row⟩, h, rfl⟩

omit [DecidableEq κ] in
theorem nodup_rows_keys (t : Table κ ρ) : (t.rows.map Prod.fst).Nodup := by
  unfold rows
  rw [List.map_map]
  exact t.keys_nodup

end Table

/-! ## Batches of an ordered list -/

section Batches

variable {τ ω V : Type} [LinearOrder V] {time : τ → V} {items : τ → List ω}

theorem getLast?_flatMap_cons (t : τ) (l : List τ) :
    ((t :: l).flatMap items).getLast? = (l.flatMap items).getLast?.or (items t).getLast? := by
  rw [List.flatMap_cons, List.getLast?_append]

/-- In a list ordered in time, the last item is the last of the last element
that has any. -/
theorem getLast?_flatMap_eq_some_iff {e : ω} :
    ∀ {l : List τ}, l.Pairwise (fun a b => time a < time b) →
      ((l.flatMap items).getLast? = some e ↔
        ∃ t ∈ l, (items t).getLast? = some e ∧ ∀ t' ∈ l, time t < time t' → items t' = []) := by
  intro l
  induction l with
  | nil => intro _; simp
  | cons t l ih =>
    intro hl
    rw [List.pairwise_cons] at hl
    rw [getLast?_flatMap_cons, Option.or_eq_some_iff, ih hl.2]
    constructor
    · intro h
      rcases h with h | h
      · obtain ⟨s, hs, hlast, hafter⟩ := h
        refine ⟨s, List.mem_cons_of_mem _ hs, hlast, ?_⟩
        intro t' ht' hlt
        rcases List.mem_cons.mp ht' with rfl | ht'
        · exact absurd hlt (hl.1 s hs).asymm
        · exact hafter t' ht' hlt
      · obtain ⟨hnone, hlast⟩ := h
        refine ⟨t, List.mem_cons_self .., hlast, ?_⟩
        intro t' ht' hlt
        rcases List.mem_cons.mp ht' with rfl | ht'
        · exact absurd hlt (lt_irrefl _)
        · exact List.flatMap_eq_nil_iff.mp (List.getLast?_eq_none_iff.mp hnone) t' ht'
    · intro h
      obtain ⟨s, hs, hlast, hafter⟩ := h
      rcases List.mem_cons.mp hs with rfl | hs
      · refine Or.inr ⟨?_, hlast⟩
        rw [List.getLast?_eq_none_iff, List.flatMap_eq_nil_iff]
        intro t' ht'
        exact hafter t' (List.mem_cons_of_mem _ ht') (hl.1 t' ht')
      · refine Or.inl ⟨s, hs, hlast, ?_⟩
        exact fun t' ht' => hafter t' (List.mem_cons_of_mem _ ht')

/-- In a list ordered in time, the time determines the element. -/
theorem eq_of_time_eq {l : List τ} (hl : l.Pairwise fun a b => time a < time b) {t t' : τ}
    (ht : t ∈ l) (ht' : t' ∈ l) (h : time t = time t') : t = t' := by
  by_contra hne
  have hsymm : Std.Symm fun a b => time a ≠ time b := ⟨fun _ _ h => Ne.symm h⟩
  exact (hl.imp fun h => ne_of_lt h).forall ht ht' hne h

/-- **Batches compose to the whole list.** Parts of a list ordered in time,
together covering it, each store their last item; stored in any order and with
any repetitions under a version guard, they leave the list's last item. -/
theorem latest_batches {ver : ω → V} {txns : List τ} {batches : List (List τ)} {rows : List ω}
    (htxns : txns.Pairwise fun a b => time a < time b)
    (hver : ∀ t ∈ txns, ∀ e ∈ items t, ver e = time t)
    (hbatches : ∀ b ∈ batches, b.Sublist txns) (hcover : ∀ t ∈ txns, ∃ b ∈ batches, t ∈ b)
    (hrows : ∀ e, e ∈ rows ↔ ∃ b ∈ batches, (b.flatMap items).getLast? = some e) :
    latest ver none rows = (txns.flatMap items).getLast? := by
  have hitem : ∀ {e : ω} {t : τ}, (items t).getLast? = some e → e ∈ items t :=
    fun h => List.mem_of_getLast? h
  have hord : ∀ b ∈ batches, b.Pairwise fun a b => time a < time b :=
    fun b hb => htxns.sublist (hbatches b hb)
  cases hlast : (txns.flatMap items).getLast? with
  | none =>
    have hnil : rows = [] := by
      rw [List.eq_nil_iff_forall_not_mem]
      intro e he
      obtain ⟨b, hb, hbe⟩ := (hrows e).mp he
      obtain ⟨t, ht, hte, -⟩ := (getLast?_flatMap_eq_some_iff (hord b hb)).mp hbe
      have hempty := List.flatMap_eq_nil_iff.mp (List.getLast?_eq_none_iff.mp hlast) t
        ((hbatches b hb).subset ht)
      rw [hempty] at hte
      cases hte
    rw [hnil]
    rfl
  | some g =>
    obtain ⟨t₀, ht₀, hg, hafter⟩ := (getLast?_flatMap_eq_some_iff htxns).mp hlast
    -- Every stored item is `g` or older.
    have holder : ∀ e ∈ rows, ver e < ver g ∨ e = g := by
      intro e he
      obtain ⟨b, hb, hbe⟩ := (hrows e).mp he
      obtain ⟨t, ht, hte, -⟩ := (getLast?_flatMap_eq_some_iff (hord b hb)).mp hbe
      have htx := (hbatches b hb).subset ht
      rw [hver t htx e (hitem hte), hver t₀ ht₀ g (hitem hg)]
      rcases lt_trichotomy (time t) (time t₀) with hlt | heq | hgt
      · exact Or.inl hlt
      · refine Or.inr ?_
        obtain rfl := eq_of_time_eq htxns htx ht₀ heq
        exact Option.some.inj (hte.symm.trans hg)
      · rw [hafter t htx hgt] at hte
        cases hte
    have hmem : g ∈ rows := by
      obtain ⟨b, hb, htb⟩ := hcover t₀ ht₀
      refine (hrows g).mpr ⟨b, hb, (getLast?_flatMap_eq_some_iff (hord b hb)).mpr ?_⟩
      exact ⟨t₀, htb, hg, fun t' ht' => hafter t' ((hbatches b hb).subset ht')⟩
    obtain ⟨m, hm, hmax⟩ := latest_isLatest ver (List.ne_nil_of_mem hmem)
    rw [hm]
    rcases holder m hmax.mem with hlt | rfl
    · exact absurd (hmax.le g hmem) (not_le.mpr hlt)
    · rfl

/-- A column group of a table that is written by batches. `writesOf` gives a
batch's row upserts; of those at `k`, the ones that show in the group show the
batch's last item. -/
theorem observe_batches {κ ρ γ : Type} [DecidableEq κ] {ver : ω → V} {txns : List τ} {k : κ}
    {observe : Option ρ → Option ω} {shown : Write ρ → Option ω} {batches : List γ}
    {txnsOf : γ → List τ} {writesOf : γ → List (κ × Write ρ)} {order : List (κ × Write ρ)}
    (htxns : txns.Pairwise fun a b => time a < time b)
    (hver : ∀ t ∈ txns, ∀ e ∈ items t, ver e = time t)
    (hbatches : ∀ c ∈ batches, (txnsOf c).Sublist txns)
    (hcover : ∀ t ∈ txns, ∃ c ∈ batches, t ∈ txnsOf c)
    (hnone : observe none = none)
    (hshows : ∀ c ∈ batches, ∀ w, (k, w) ∈ writesOf c → Table.Shows ver observe w (shown w))
    (hlast : ∀ c ∈ batches, ∀ e, (∃ w, (k, w) ∈ writesOf c ∧ shown w = some e) ↔
      ((txnsOf c).flatMap items).getLast? = some e)
    (hperm : order.Perm (batches.flatMap writesOf)) :
    observe (((∅ : Table κ ρ).writeAll order).lookup k) = (txns.flatMap items).getLast? := by
  have hmem : ∀ w, (k, w) ∈ order ↔ ∃ c ∈ batches, (k, w) ∈ writesOf c :=
    fun w => hperm.mem_iff.trans List.mem_flatMap
  have hwrites : ∀ w, (k, w) ∈ order → Table.Shows ver observe w (shown w) := by
    intro w hw
    obtain ⟨c, hc, hwc⟩ := (hmem w).mp hw
    exact hshows c hc w hwc
  have hsublists : ∀ b ∈ batches.map txnsOf, b.Sublist txns := List.forall_mem_map.mpr hbatches
  -- The table shows the latest write, whatever the order, and the latest of the batches' last
  -- writes is the last of all.
  rw [Table.observe_writeAll _ hwrites, AList.lookup_empty, hnone]
  refine latest_batches htxns hver hsublists ?_ ?_
  · intro t ht
    obtain ⟨c, hc, htc⟩ := hcover t ht
    exact ⟨txnsOf c, List.mem_map_of_mem hc, htc⟩
  · intro e
    rw [List.mem_filterMap]
    constructor
    · intro h
      obtain ⟨w, hw, hshown⟩ := h
      obtain ⟨c, hc, hwc⟩ := (hmem w).mp (mem_proj.mp hw)
      exact ⟨txnsOf c, List.mem_map_of_mem hc, (hlast c hc e).mp ⟨w, hwc, hshown⟩⟩
    · intro h
      obtain ⟨b, hb, hbe⟩ := h
      obtain ⟨c, hc, rfl⟩ := List.mem_map.mp hb
      obtain ⟨w, hwc, hshown⟩ := (hlast c hc e).mpr hbe
      exact ⟨w, mem_proj.mpr ((hmem w).mpr ⟨c, hc, hwc⟩), hshown⟩

/-- An in-memory map filled with the rows of a batch stores the last row of each
key. -/
theorem mem_rows_insertAll_iff {κ ρ : Type} [DecidableEq κ] {pk : ρ → κ} {rows : List ρ} {k : κ}
    {row : ρ} :
    (k, row) ∈ ((∅ : Table κ ρ).insertAll (rows.map fun r => (pk r, r))).rows ↔
      (rows.filter fun r => pk r = k).getLast? = some row := by
  rw [Table.mem_rows, Table.lookup_insertAll, AList.lookup_empty, Option.or_none,
    proj_map k pk fun r => r, List.map_id']

/-- Rows of one key merged by a guarded update, which keeps the row of the later
version, leave the latest of them. -/
theorem foldl_merged_eq_latest {ρ : Type} {ver : ρ → V} {query : ρ → ρ → ρ} {P : ρ → Prop}
    (hquery : ∀ old excluded, P old → P excluded → query old excluded = later ver old excluded)
    {rows : List ρ} (hrows : ∀ row ∈ rows, P row) (old : Option ρ)
    (hold : ∀ row, old = some row → P row) :
    rows.foldl (fun old row => some (Table.merged query old row)) old = latest ver old rows := by
  induction rows generalizing old with
  | nil => rfl
  | cons row rows ih =>
    have hrow : P row := hrows row List.mem_cons_self
    have hrest : ∀ r ∈ rows, P r := fun r hr => hrows r (List.mem_cons_of_mem _ hr)
    cases old with
    | none =>
      refine ih hrest (some row) ?_
      intro r hr
      exact Option.some.inj hr ▸ hrow
    | some old =>
      have hstep := hquery old row (hold old rfl) hrow
      show rows.foldl _ (some (query old row)) = latest ver (some (later ver old row)) rows
      rw [hstep]
      refine ih hrest _ ?_
      intro r hr
      obtain rfl := Option.some.inj hr
      unfold later
      split
      · exact hrow
      · exact hold old rfl

/-- **The last row of a key.** Each batch stores the last row of each key, with a
guarded update; whatever the batches and the order of their updates, the table ends
with the last row of the whole list. -/
theorem lookup_batches_last {κ ρ : Type} [DecidableEq κ] {pk : ρ → κ} {ver : ρ → V}
    {query : ρ → ρ → ρ} {rowsOf : τ → List ρ} {txns : List τ} {batches : List (List τ)}
    {order : List (κ × Write ρ)}
    (hquery : ∀ old excluded, pk old = pk excluded →
      query old excluded = later ver old excluded)
    (htxns : txns.Pairwise fun a b => time a < time b)
    (hver : ∀ t ∈ txns, ∀ row ∈ rowsOf t, ver row = time t)
    (hbatches : ∀ b ∈ batches, b.Sublist txns) (hcover : ∀ t ∈ txns, ∃ b ∈ batches, t ∈ b)
    (hperm : order.Perm (batches.flatMap fun b =>
      (((∅ : Table κ ρ).insertAll ((b.flatMap rowsOf).map fun r => (pk r, r))).rows.map
        fun row => (row.1, ⟨row.2, query⟩)))) (k : κ) :
    ((∅ : Table κ ρ).writeAll order).lookup k =
      ((txns.flatMap rowsOf).filter fun row => pk row = k).getLast? := by
  have hfilter (l : List τ) : ((l.flatMap rowsOf).filter fun row => pk row = k) =
      l.flatMap fun t => (rowsOf t).filter fun row => pk row = k := List.filter_flatMap
  -- what is stored at the key: the last row of each batch
  have hstored (w : Write ρ) : (k, w) ∈ order ↔ w.merge = query ∧ ∃ b ∈ batches,
      (b.flatMap fun t => (rowsOf t).filter fun row => pk row = k).getLast? =
        some w.excluded := by
    rw [hperm.mem_iff, List.mem_flatMap]
    constructor
    · rintro ⟨b, hb, hw⟩
      obtain ⟨⟨k', row⟩, hrow, heq⟩ := List.mem_map.mp hw
      obtain ⟨rfl, rfl⟩ := Prod.mk.inj heq
      exact ⟨rfl, b, hb, hfilter b ▸ mem_rows_insertAll_iff.mp hrow⟩
    · rintro ⟨hmerge, b, hb, hlast⟩
      obtain ⟨excluded, merge⟩ := w
      obtain rfl := hmerge
      refine ⟨b, hb, List.mem_map.mpr ⟨(k, excluded), mem_rows_insertAll_iff.mpr ?_, rfl⟩⟩
      rw [hfilter]
      exact hlast
  have hfold : ((∅ : Table κ ρ).writeAll order).lookup k =
      ((proj k order).map Write.excluded).foldl
        (fun old row => some (Table.merged query old row)) none := by
    rw [Table.lookup_writeAll, List.foldl_map, AList.lookup_empty]
    refine List.foldl_ext _ _ _ fun old w hw => ?_
    rw [((hstored w).mp (mem_proj.mp hw)).1]
  have hpk : ∀ row ∈ (proj k order).map Write.excluded, pk row = k := by
    intro row hrow
    obtain ⟨w, hw, rfl⟩ := List.mem_map.mp hrow
    obtain ⟨-, b, -, hlast⟩ := (hstored w).mp (mem_proj.mp hw)
    obtain ⟨t, -, hmem⟩ := List.mem_flatMap.mp (List.mem_of_getLast? hlast)
    exact of_decide_eq_true (List.mem_filter.mp hmem).2
  rw [hfold, foldl_merged_eq_latest (P := fun row => pk row = k)
    (fun old excluded h h' => hquery old excluded (h.trans h'.symm)) hpk none (by simp), hfilter]
  refine latest_batches htxns ?_ hbatches hcover ?_
  · intro t ht row hrow
    exact hver t ht row (List.mem_filter.mp hrow).1
  · intro row
    rw [List.mem_map]
    constructor
    · rintro ⟨w, hw, rfl⟩
      exact ((hstored w).mp (mem_proj.mp hw)).2
    · intro hlast
      exact ⟨⟨row, query⟩, mem_proj.mpr ((hstored ⟨row, query⟩).mpr ⟨rfl, hlast⟩), rfl⟩

end Batches

end IndexerProcessors.Lib

import IndexerProcessors.Lib.Fallible
import IndexerProcessors.Lib.GreedyMatch
import IndexerProcessors.Lib.Numeric
import IndexerProcessors.Reputation.Crediting

/-!
# What the pairing pairs

The pairing loop with its `deposit_used` flags is a greedy matching of withdraws
and deposits (`pairs_eq_greedyMatch`), so its pairs use every event at most once
and leave nothing over that could be paired.

It looks at amounts and owners. The asset of a store plays no part in it, and a
transaction that moves two assets in equal amounts can have its withdraw of the
one paired with its deposit of the other; `sameAsset_iff` says when that does not
happen.
-/

namespace IndexerProcessors.Reputation

open IndexerProcessors.Lib

/-- The test of the pairing, flags apart. -/
def suits (w d : ParsedSide) : Bool := d.amount = w.amount ∧ d.address ≠ w.address

/-- The deposits whose flag is not set. -/
def unused (ds : List (ParsedSide × Bool)) : List ParsedSide :=
  (ds.filter fun d => d.2 = false).map Prod.fst

theorem unused_cons_used (d : ParsedSide) (ds : List (ParsedSide × Bool)) :
    unused ((d, true) :: ds) = unused ds := rfl

theorem unused_cons_unused (d : ParsedSide) (ds : List (ParsedSide × Bool)) :
    unused ((d, false) :: ds) = d :: unused ds := rfl

theorem unused_fresh (ds : List ParsedSide) : unused (ds.map fun d => (d, false)) = ds := by
  induction ds with
  | nil => rfl
  | cons d ds ih => rw [List.map_cons, unused_cons_unused, ih]

/-- Taking a deposit finds the first unused one that suits, and uses it. -/
theorem takeDeposit_eq (w : ParsedSide) :
    ∀ ds : List (ParsedSide × Bool),
      (takeDeposit w ds = none ∧ (unused ds).find? (suits w) = none) ∨
      ∃ d ds', takeDeposit w ds = some (d, ds') ∧ (unused ds).find? (suits w) = some d ∧
        unused ds' = (unused ds).eraseP (suits w) := by
  intro ds
  induction ds with
  | nil => exact Or.inl ⟨rfl, rfl⟩
  | cons head rest ih =>
    obtain ⟨d, used⟩ := head
    cases used with
    | true =>
      have hstep : takeDeposit w ((d, true) :: rest) =
          (takeDeposit w rest).map fun m => (m.1, (d, true) :: m.2) := by
        simp [takeDeposit]
      rw [hstep, unused_cons_used]
      rcases ih with ⟨htake, hfind⟩ | ⟨d', ds', htake, hfind, herase⟩
      · exact Or.inl ⟨by rw [htake, Option.map_none], hfind⟩
      · exact Or.inr ⟨d', (d, true) :: ds', by rw [htake, Option.map_some], hfind, herase⟩
    | false =>
      rw [unused_cons_unused]
      by_cases hsuits : d.amount = w.amount ∧ d.address ≠ w.address
      · have hd : suits w d = true := decide_eq_true hsuits
        refine Or.inr ⟨d, (d, true) :: rest, ?_, List.find?_cons_of_pos hd, ?_⟩
        · simp [takeDeposit, hsuits]
        · rw [List.eraseP_cons_of_pos hd, unused_cons_used]
      · have hd : ¬ suits w d = true := fun h => hsuits (of_decide_eq_true h)
        have hstep : takeDeposit w ((d, false) :: rest) =
            (takeDeposit w rest).map fun m => (m.1, (d, false) :: m.2) := by
          rw [takeDeposit, if_neg fun h => hsuits h.2]
        rw [hstep, List.find?_cons_of_neg hd, List.eraseP_cons_of_neg hd]
        rcases ih with ⟨htake, hfind⟩ | ⟨d', ds', htake, hfind, herase⟩
        · exact Or.inl ⟨by rw [htake, Option.map_none], hfind⟩
        · refine Or.inr ⟨d', (d, false) :: ds', by rw [htake, Option.map_some], hfind, ?_⟩
          rw [unused_cons_unused, herase]

theorem pairWithdraws_eq_greedyMatch :
    ∀ (ws : List ParsedSide) (ds : List (ParsedSide × Bool)),
      pairWithdraws ws ds = greedyMatch suits ws (unused ds) := by
  intro ws
  induction ws with
  | nil => intro ds; rfl
  | cons w ws ih =>
    intro ds
    rcases takeDeposit_eq w ds with ⟨htake, hfind⟩ | ⟨d, ds', htake, hfind, herase⟩
    · simp only [pairWithdraws, greedyMatch, htake, hfind, ih]
    · simp only [pairWithdraws, greedyMatch, htake, hfind, ih, herase]

/-- The pairing is a greedy matching. -/
theorem pairs_eq_greedyMatch (sides : TxnSides) :
    sides.pairs = greedyMatch suits sides.withdraws sides.deposits := by
  rw [TxnSides.pairs, pairWithdraws_eq_greedyMatch, unused_fresh]

/-! ## Assets -/

/-- The two stores are not known to hold different assets, and where both are known
the edge has their asset. -/
def SameAsset (p : ParsedTxn) (w d : ParsedSide) : Prop :=
  ∀ a b, p.sides.maps.storageToAsset.lookup w.storageId = some a →
    p.sides.maps.storageToAsset.lookup d.storageId = some b →
      a = b ∧ (pairedEdge p.txnVersion p.blockTimestamp p.sides w d).assetType = some a

/-- No two assets are known for the two stores. -/
def NoClash (maps : StorageMaps) (w d : ParsedSide) : Prop :=
  ∀ a ∈ maps.storageToAsset.lookup w.storageId, ∀ b ∈ maps.storageToAsset.lookup d.storageId,
    a = b

theorem sameAsset_iff_noClash {p : ParsedTxn} {w d : ParsedSide} :
    SameAsset p w d ↔ NoClash p.sides.maps w d := by
  constructor
  · intro h a ha b hb
    exact (h a b ha hb).1
  · intro h a b ha hb
    refine ⟨h a ha b hb, ?_⟩
    show (p.sides.maps.storageToAsset.lookup w.storageId).or _ = some a
    rw [ha, Option.some_or]

/-- In no edge of a transaction two assets are known for the two stores. -/
def AssetsKept (sdk : Sdk) (registry : BridgeRegistry) (txn : Transaction) : Prop :=
  ∀ p ∈ parseTxn sdk registry txn, ∀ wd ∈ p.sides.pairs, SameAsset p wd.1 wd.2

theorem assetsKept_iff {sdk : Sdk} {registry : BridgeRegistry} {txn : Transaction} :
    AssetsKept sdk registry txn ↔ ∀ p ∈ parseTxn sdk registry txn, ∀ wd ∈ p.sides.pairs,
      NoClash p.sides.maps wd.1 wd.2 := by
  unfold AssetsKept
  simp only [sameAsset_iff_noClash]

/-- No withdraw and deposit of equal amount and different owners are of two assets. -/
def CandidatesAgree (sides : TxnSides) : Prop :=
  ∀ w ∈ sides.withdraws, ∀ d ∈ sides.deposits, suits w d = true → NoClash sides.maps w d

/-- The withdraws or deposits of an amount, in the order of their events. -/
def ofAmount (amount : ℚ) (sides : List ParsedSide) : List ParsedSide :=
  sides.filter fun side => side.amount = amount

/-- The first of the withdraws of an amount with the first of its deposits, the second
with the second, and so on `n` times. -/
def firstRanks (sides : TxnSides) (amount : ℚ) (n : ℕ) : List (ParsedSide × ParsedSide) :=
  ((ofAmount amount sides.withdraws).take n).zip ((ofAmount amount sides.deposits).take n)

/-- The first `n` ranks of an amount have different owners. -/
def OwnersDiffer (sides : TxnSides) (amount : ℚ) (n : ℕ) : Prop :=
  ∀ wd ∈ firstRanks sides amount n, wd.2.address ≠ wd.1.address

/-- The first `n` ranks of an amount are not of two assets. -/
def RanksAgree (sides : TxnSides) (amount : ℚ) (n : ℕ) : Prop :=
  ∀ wd ∈ firstRanks sides amount n, NoClash sides.maps wd.1 wd.2

/-- Past the first `n` ranks of an amount, no withdraw and deposit of different owners are
of two assets. -/
def RestAgrees (sides : TxnSides) (amount : ℚ) (n : ℕ) : Prop :=
  ∀ w ∈ (ofAmount amount sides.withdraws).drop n, ∀ d ∈ (ofAmount amount sides.deposits).drop n,
    d.address ≠ w.address → NoClash sides.maps w d

/-- For each amount: up to some rank owners differ and assets agree rank by rank, and past
it the assets of whatever has different owners agree. -/
def AssetsApart (sides : TxnSides) : Prop :=
  ∀ amount, ∃ n, OwnersDiffer sides amount n ∧ RanksAgree sides amount n ∧
    RestAgrees sides amount n

section Ranks

variable {sides : TxnSides} {amount : ℚ} {n : ℕ} {wd : ParsedSide × ParsedSide}

theorem amount_of_mem_ofAmount {side : ParsedSide} {l : List ParsedSide}
    (h : side ∈ ofAmount amount l) : side.amount = amount :=
  of_decide_eq_true (List.mem_filter.mp h).2

theorem suits_of_mem_firstRanks (howners : OwnersDiffer sides amount n)
    (h : wd ∈ firstRanks sides amount n) : suits wd.1 wd.2 = true := by
  obtain ⟨hw, hd⟩ := List.of_mem_zip h
  have hw := amount_of_mem_ofAmount (List.mem_of_mem_take hw)
  have hd := amount_of_mem_ofAmount (List.mem_of_mem_take hd)
  exact decide_eq_true ⟨hd.trans hw.symm, howners wd h⟩

/-- The pairs of an amount are its first ranks, as long as the owners differ, and what the
pairing makes of the rest. -/
theorem filter_pairs (howners : OwnersDiffer sides amount n) :
    sides.pairs.filter (fun wd => wd.1.amount = amount) =
      firstRanks sides amount n ++ greedyMatch suits
        ((ofAmount amount sides.withdraws).drop n) ((ofAmount amount sides.deposits).drop n) := by
  have hclass : ∀ w d : ParsedSide, suits w d = true → d.amount = w.amount :=
    fun w d h => (of_decide_eq_true h).1
  rw [pairs_eq_greedyMatch, filter_greedyMatch hclass]
  exact greedyMatch_take_drop n fun wd hwd => suits_of_mem_firstRanks howners hwd

/-- The first ranks are paired. -/
theorem mem_pairs_of_firstRanks (howners : OwnersDiffer sides amount n)
    (h : wd ∈ firstRanks sides amount n) : wd ∈ sides.pairs := by
  have hmem : wd ∈ sides.pairs.filter fun wd => wd.1.amount = amount := by
    rw [filter_pairs howners]
    exact List.mem_append_left _ h
  exact List.mem_of_mem_filter hmem

/-- Every pair is a rank or among the rest of its amount. -/
theorem noClash_of_assetsApart (h : AssetsApart sides) (hwd : wd ∈ sides.pairs) :
    NoClash sides.maps wd.1 wd.2 := by
  obtain ⟨n, howners, hranks, hrest⟩ := h wd.1.amount
  have hmem : wd ∈ sides.pairs.filter fun wd' => wd'.1.amount = wd.1.amount :=
    List.mem_filter.mpr ⟨hwd, decide_eq_true rfl⟩
  rw [filter_pairs howners] at hmem
  obtain hfirst | hlate := List.mem_append.mp hmem
  · exact hranks wd hfirst
  · obtain ⟨hw, hd, hsuits⟩ := of_mem_greedyMatch hlate
    exact hrest _ hw _ hd (of_decide_eq_true hsuits).2

/-- Candidates that agree need no ranks. -/
theorem CandidatesAgree.assetsApart (h : CandidatesAgree sides) : AssetsApart sides := by
  intro amount
  refine ⟨0, fun wd hwd => absurd hwd List.not_mem_nil, fun wd hwd => absurd hwd List.not_mem_nil,
    fun w hw d hd hne => ?_⟩
  have hw := List.mem_of_mem_drop hw
  have hd := List.mem_of_mem_drop hd
  refine h w (List.mem_of_mem_filter hw) d (List.mem_of_mem_filter hd) (decide_eq_true ⟨?_, hne⟩)
  rw [amount_of_mem_ofAmount hw, amount_of_mem_ofAmount hd]

end Ranks

/-! ### Events in another order

Whether an event is a withdraw or a deposit, and whose and of which store, does not
depend on its place. So any two that suit can come first, and are paired then. -/

/-- The events of a user transaction. -/
def userEvents (txn : Transaction) : List Event :=
  match txn.txnData with
  | some (.user events _) => events
  | _ => []

/-- The user transaction with other events. -/
def withEvents (txn : Transaction) (events : List Event) : Transaction :=
  match txn.txnData with
  | some (.user _ payload) => { txn with txnData := some (.user events payload) }
  | _ => txn

section Order

variable {sdk : Sdk} {registry : BridgeRegistry} {txn : Transaction} {ts : NaiveDateTime}
  {maps : StorageMaps} {events : List Event} {event : Event} {payload : Option Payload}
  {i : Int64}

theorem userEvents_of_user (h : txn.txnData = some (.user events payload)) :
    userEvents txn = events := by
  unfold userEvents
  rw [h]

theorem withEvents_of_user (h : txn.txnData = some (.user events payload)) (events' : List Event) :
    withEvents txn events' = { txn with txnData := some (.user events' payload) } := by
  unfold withEvents
  rw [h]

/-- Only a user transaction can be given other events. -/
theorem user_of_withEvents {events' : List Event}
    (h : (withEvents txn events).txnData = some (.user events' payload)) :
    ∃ own payload', txn.txnData = some (.user own payload') := by
  unfold withEvents at h
  split at h
  case h_1 own payload' hdata => exact ⟨own, payload', hdata⟩
  case h_2 => exact ⟨events', payload, h⟩

/-- The index is only carried along. -/
theorem parseSide_at {data : String} {side : ParsedSide}
    (h : parseSide sdk maps i data = some side) (j : Int64) :
    parseSide sdk maps j data = some { side with eventIndex := j } := by
  simp only [parseSide, Option.bind_eq_bind, Option.bind_eq_some_iff] at h ⊢
  obtain ⟨v, hv, store, hstore, text, htext, json, hjson, digits, hdigits, amount, hamount,
    hside⟩ := h
  obtain rfl := Option.some.inj hside
  exact ⟨v, hv, store, hstore, text, htext, json, hjson, digits, hdigits, amount, hamount, rfl⟩

/-- Whether an event is a bridge's is for its type and its data to say. -/
theorem bridgeInflow_eq_none (h : bridgeInflow sdk registry txn ts i event = none)
    (txn' : Transaction) (j : Int64) : bridgeInflow sdk registry txn' ts j event = none := by
  by_contra hsome
  obtain ⟨bi, hbi⟩ := Option.ne_none_iff_exists'.mp hsome
  simp only [bridgeInflow, Option.bind_eq_bind, Option.bind_eq_some_iff] at hbi
  obtain ⟨entry, hentry, inflow, hparse, -⟩ := hbi
  simp only [parseBridgeEvent, Option.bind_eq_bind, Option.bind_eq_some_iff] at hparse
  obtain ⟨v, hv, recipient, hrecipient, text, htext, amount, hamount, -⟩ := hparse
  obtain ⟨inflow', hinflow'⟩ : ∃ inflow',
      parseBridgeEvent sdk event.data entry txn.version.toInt64 i ts = some inflow' := by
    simp only [parseBridgeEvent, Option.bind_eq_bind, Option.bind_eq_some_iff]
    exact ⟨_, v, hv, recipient, hrecipient, text, htext, amount, hamount, rfl⟩
  have hinflow : bridgeInflow sdk registry txn ts i event =
      some (fillFromPayload sdk txn entry.payloadKind inflow') := by
    simp only [bridgeInflow, Option.bind_eq_bind, Option.bind_eq_some_iff]
    exact ⟨entry, hentry, inflow', hinflow', rfl⟩
  rw [h] at hinflow
  cases hinflow

theorem classifyEvent_eq_withdraw {w : ParsedSide} :
    classifyEvent sdk registry txn ts maps i event = .withdraw w ↔
      bridgeInflow sdk registry txn ts i event = none ∧ event.typeStr = faWithdraw ∧
        parseSide sdk maps i event.data = some w := by
  unfold classifyEvent
  cases bridgeInflow sdk registry txn ts i event with
  | some inflow => simp
  | none =>
    cases parseSide sdk maps i event.data with
    | none => simp only [Option.elim_none]; split_ifs <;> simp
    | some side => simp only [Option.elim_some]; split_ifs with hw hd <;> simp [hw]

theorem classifyEvent_eq_deposit {d : ParsedSide} :
    classifyEvent sdk registry txn ts maps i event = .deposit d ↔
      bridgeInflow sdk registry txn ts i event = none ∧ event.typeStr = faDeposit ∧
        parseSide sdk maps i event.data = some d := by
  have hne : faWithdraw ≠ faDeposit := by decide
  unfold classifyEvent
  cases bridgeInflow sdk registry txn ts i event with
  | some inflow => simp
  | none =>
    cases parseSide sdk maps i event.data with
    | none => simp only [Option.elim_none]; split_ifs <;> simp
    | some side =>
      simp only [Option.elim_some]
      split_ifs with hw hd
      · simp [hw, hne]
      · simp [hd]
      · simp [hd]

theorem mem_withdraws {w : ParsedSide} :
    w ∈ (classifyEvents sdk registry txn ts events).withdraws ↔ ∃ e ∈ events.zipIdx,
      classifyEvent sdk registry txn ts (scanChanges sdk txn) (Int64.ofNat e.2) e.1 =
        .withdraw w := by
  simp only [classifyEvents, List.mem_filterMap, List.mem_map, exists_exists_and_eq_and]
  refine exists_congr fun e => and_congr_right fun _ => ?_
  cases classifyEvent sdk registry txn ts (scanChanges sdk txn) (Int64.ofNat e.2) e.1 <;> simp

theorem mem_deposits {d : ParsedSide} :
    d ∈ (classifyEvents sdk registry txn ts events).deposits ↔ ∃ e ∈ events.zipIdx,
      classifyEvent sdk registry txn ts (scanChanges sdk txn) (Int64.ofNat e.2) e.1 =
        .deposit d := by
  simp only [classifyEvents, List.mem_filterMap, List.mem_map, exists_exists_and_eq_and]
  refine exists_congr fun e => and_congr_right fun _ => ?_
  cases classifyEvent sdk registry txn ts (scanChanges sdk txn) (Int64.ofNat e.2) e.1 <;> simp

/-- A withdraw is one in any order, at its place there. -/
theorem withdraws_at {w : ParsedSide} {events' : List Event}
    (h : w ∈ (classifyEvents sdk registry txn ts events).withdraws) (txn' : Transaction)
    (hinfo : txn'.info = txn.info) (hsub : events ⊆ events') :
    ∃ j, { w with eventIndex := j } ∈ (classifyEvents sdk registry txn' ts events').withdraws := by
  obtain ⟨e, he, hc⟩ := mem_withdraws.mp h
  obtain ⟨n, hn⟩ := List.mem_iff_getElem?.mp (hsub (List.fst_mem_of_mem_zipIdx he))
  obtain ⟨hnobridge, htype, hside⟩ := classifyEvent_eq_withdraw.mp hc
  refine ⟨Int64.ofNat n, mem_withdraws.mpr ⟨(e.1, n), List.mk_mem_zipIdx_iff_getElem?.mpr hn, ?_⟩⟩
  rw [scanChanges, hinfo]
  exact classifyEvent_eq_withdraw.mpr
    ⟨bridgeInflow_eq_none hnobridge txn' _, htype, parseSide_at hside _⟩

theorem deposits_at {d : ParsedSide} {events' : List Event}
    (h : d ∈ (classifyEvents sdk registry txn ts events).deposits) (txn' : Transaction)
    (hinfo : txn'.info = txn.info) (hsub : events ⊆ events') :
    ∃ j, { d with eventIndex := j } ∈ (classifyEvents sdk registry txn' ts events').deposits := by
  obtain ⟨e, he, hc⟩ := mem_deposits.mp h
  obtain ⟨n, hn⟩ := List.mem_iff_getElem?.mp (hsub (List.fst_mem_of_mem_zipIdx he))
  obtain ⟨hnobridge, htype, hside⟩ := classifyEvent_eq_deposit.mp hc
  refine ⟨Int64.ofNat n, mem_deposits.mpr ⟨(e.1, n), List.mk_mem_zipIdx_iff_getElem?.mpr hn, ?_⟩⟩
  rw [scanChanges, hinfo]
  exact classifyEvent_eq_deposit.mpr
    ⟨bridgeInflow_eq_none hnobridge txn' _, htype, parseSide_at hside _⟩

theorem parseTxn_of_user {stamp : Timestamp} (hstamp : txn.timestamp = some stamp)
    (h : txn.txnData = some (.user events payload)) :
    parseTxn sdk registry txn = some ⟨txn.version.toInt64,
      sdk.parseTimestamp stamp txn.version.toInt64,
      classifyEvents sdk registry txn (sdk.parseTimestamp stamp txn.version.toInt64) events⟩ := by
  simp [parseTxn, hstamp, h]

theorem parseTxn_eq_some {p : ParsedTxn} (hp : parseTxn sdk registry txn = some p) :
    ∃ stamp events payload, txn.timestamp = some stamp ∧
      txn.txnData = some (.user events payload) := by
  simp only [parseTxn, Option.bind_eq_bind, Option.bind_eq_some_iff] at hp
  obtain ⟨stamp, hstamp, data, hdata, hp⟩ := hp
  cases data with
  | other => cases hp
  | user events payload => exact ⟨stamp, events, payload, hstamp, hdata⟩

/-- A withdraw and a deposit that come first head the two lists. -/
theorem classifyEvents_cons_cons {ew ed : Event} {rest : List Event} {w d : ParsedSide}
    (hw : classifyEvent sdk registry txn ts (scanChanges sdk txn) 0 ew = .withdraw w)
    (hd : classifyEvent sdk registry txn ts (scanChanges sdk txn) 1 ed = .deposit d) :
    ∃ ws ds, (classifyEvents sdk registry txn ts (ew :: ed :: rest)).withdraws = w :: ws ∧
      (classifyEvents sdk registry txn ts (ew :: ed :: rest)).deposits = d :: ds := by
  have hw : classifyEvent sdk registry txn ts (scanChanges sdk txn) (Int64.ofNat 0) ew =
      .withdraw w := hw
  have hd : classifyEvent sdk registry txn ts (scanChanges sdk txn) (Int64.ofNat (0 + 1)) ed =
      .deposit d := hd
  simp only [classifyEvents, List.zipIdx_cons, List.map_cons, hw, hd, List.filterMap_cons]
  exact ⟨_, _, rfl, rfl⟩

/-- Two that suit are paired in some order of the events. -/
theorem candidates_paired {p : ParsedTxn} (hp : parseTxn sdk registry txn = some p)
    {w d : ParsedSide} (hw : w ∈ p.sides.withdraws) (hd : d ∈ p.sides.deposits)
    (hsuits : suits w d = true) :
    ∃ events', events'.Perm (userEvents txn) ∧
      ∃ p', parseTxn sdk registry (withEvents txn events') = some p' ∧
        p'.sides.maps = p.sides.maps ∧
        ({ w with eventIndex := 0 }, { d with eventIndex := 1 }) ∈
          p'.sides.pairs := by
  obtain ⟨stamp, events, payload, hstamp, hdata⟩ := parseTxn_eq_some hp
  obtain rfl := Option.some.inj ((parseTxn_of_user hstamp hdata).symm.trans hp)
  obtain ⟨⟨ew, i⟩, hew, hcw⟩ := mem_withdraws.mp hw
  obtain ⟨⟨ed, j⟩, hed, hcd⟩ := mem_deposits.mp hd
  have hew := List.fst_mem_of_mem_zipIdx hew
  have hed := List.fst_mem_of_mem_zipIdx hed
  obtain ⟨hnobridgew, htypew, hsidew⟩ := classifyEvent_eq_withdraw.mp hcw
  obtain ⟨hnobridged, htyped, hsided⟩ := classifyEvent_eq_deposit.mp hcd
  have hne : ed ≠ ew := fun heq =>
    absurd ((heq ▸ htyped).symm.trans htypew) (by decide)
  -- the two come first, the others as before
  let events' := ew :: ed :: (events.erase ew).erase ed
  have hperm : events'.Perm events := by
    have hed' : ed ∈ events.erase ew := (List.mem_erase_of_ne hne).mpr hed
    exact ((List.perm_cons_erase hed').symm.cons ew).trans (List.perm_cons_erase hew).symm
  let txn' : Transaction := { txn with txnData := some (.user events' payload) }
  let ts := sdk.parseTimestamp stamp txn.version.toInt64
  have hfirst : classifyEvent sdk registry txn' ts (scanChanges sdk txn') 0 ew =
      .withdraw { w with eventIndex := 0 } :=
    classifyEvent_eq_withdraw.mpr
      ⟨bridgeInflow_eq_none hnobridgew txn' 0, htypew, parseSide_at hsidew 0⟩
  have hsecond : classifyEvent sdk registry txn' ts (scanChanges sdk txn') 1 ed =
      .deposit { d with eventIndex := 1 } :=
    classifyEvent_eq_deposit.mpr
      ⟨bridgeInflow_eq_none hnobridged txn' 1, htyped, parseSide_at hsided 1⟩
  have hparse : parseTxn sdk registry (withEvents txn events') =
      some ⟨txn.version.toInt64, ts, classifyEvents sdk registry txn' ts events'⟩ := by
    rw [withEvents_of_user hdata]
    exact parseTxn_of_user hstamp rfl
  obtain ⟨ws, ds, hws, hds⟩ := classifyEvents_cons_cons hfirst hsecond
  refine ⟨events', userEvents_of_user hdata ▸ hperm, _, hparse, rfl, ?_⟩
  have hsuits' : suits { w with eventIndex := 0 } { d with eventIndex := 1 } = true := hsuits
  rw [pairs_eq_greedyMatch, hws, hds]
  exact head_mem_greedyMatch hsuits' ws ds

/-- Candidates agree in one order as in any other. -/
theorem candidatesAgree_perm (h : ∀ p ∈ parseTxn sdk registry txn, CandidatesAgree p.sides)
    (hperm : events.Perm (userEvents txn)) :
    ∀ p ∈ parseTxn sdk registry (withEvents txn events), CandidatesAgree p.sides := by
  intro p' hp' w hw d hd hsuits
  obtain ⟨stamp, events', payload', hstamp', hdata'⟩ := parseTxn_eq_some hp'
  obtain ⟨own, payload, hdata⟩ := user_of_withEvents hdata'
  rw [userEvents_of_user hdata] at hperm
  rw [withEvents_of_user hdata] at hp' hstamp'
  obtain rfl := Option.some.inj ((parseTxn_of_user hstamp' rfl).symm.trans hp')
  -- the same two stand among the transaction's own events, at other indices
  obtain ⟨i, hw'⟩ := withdraws_at hw txn rfl hperm.subset
  obtain ⟨j, hd'⟩ := deposits_at hd txn rfl hperm.subset
  have hagree := h _ (parseTxn_of_user hstamp' hdata) _ hw' _ hd' hsuits
  exact hagree

end Order

/-- **When no edge mixes assets.** For each amount it is enough that its withdraws and
deposits, in order, go to different owners within one asset up to some rank, and that past
it no withdraw and deposit of different owners are of two assets. As far as the owners
differ rank by rank, the first is also necessary. And in no order of the same events an
edge mixes assets, exactly if no withdraw and deposit of equal amount and different owners
are of two assets. -/
theorem sameAsset_iff (sdk : Sdk) (registry : BridgeRegistry) (txn : Transaction) :
    ((∀ p ∈ parseTxn sdk registry txn, AssetsApart p.sides) → AssetsKept sdk registry txn) ∧
    (AssetsKept sdk registry txn → ∀ p ∈ parseTxn sdk registry txn, ∀ amount n,
      OwnersDiffer p.sides amount n → RanksAgree p.sides amount n) ∧
    ((∀ events, events.Perm (userEvents txn) →
        AssetsKept sdk registry (withEvents txn events)) ↔
      ∀ p ∈ parseTxn sdk registry txn, CandidatesAgree p.sides) := by
  refine ⟨?_, ?_, ?_, ?_⟩
  · intro h
    exact assetsKept_iff.mpr fun p hp wd hwd => noClash_of_assetsApart (h p hp) hwd
  · intro h p hp amount n howners wd hwd
    exact assetsKept_iff.mp h p hp wd (mem_pairs_of_firstRanks howners hwd)
  · intro h p hp w hw d hd hsuits
    obtain ⟨events, hperm, p', hp', hmaps, hmem⟩ := candidates_paired hp hw hd hsuits
    have hclash := assetsKept_iff.mp (h events hperm) p' hp' _ hmem
    rwa [hmaps] at hclash
  · intro h events hperm
    refine assetsKept_iff.mpr fun p hp wd hwd => ?_
    exact noClash_of_assetsApart (candidatesAgree_perm h hperm p hp).assetsApart hwd

/-- Data of a `FungibleStore` resource. -/
def assetData (asset : String) : String :=
  "\x7b\"metadata\":\x7b\"inner\":\"" ++ asset ++ "\"\x7d\x7d"

/-- The texts of a swap and what they parse to. -/
def swapTexts : List (String × Json) :=
  (["0x51", "0x52", "0x53", "0x54"].map fun store =>
    (sideData store, Json.object [("store", .string store), ("amount", .string "10")])) ++
  (["0xa", "0xb", "0xe"].map fun owner =>
    (coreData owner, Json.object [("allow_ungated_transfer", .bool false),
      ("guid_creation_num", .string "0"), ("owner", .string owner)])) ++
  (["0xc", "0xd"].map fun asset =>
    (assetData asset, Json.object [("metadata", .object [("inner", .string asset)])]))

def swapSdk : Sdk := { poolSdk with fromStr := fun text => swapTexts.lookup text }

/-- A store with its owner and its asset. -/
def storeWrites (store owner asset : String) : List Change :=
  [.writeResource ⟨store, ⟨"0x1", "object", "ObjectCore"⟩, "0x1::object::ObjectCore",
    coreData owner⟩,
   .writeResource ⟨store, ⟨"0x1", "fungible_asset", "FungibleStore"⟩,
    "0x1::fungible_asset::FungibleStore", assetData asset⟩]

/-- `0xa` swaps `10` of `0xc` for `10` of `0xd` with the pool `0xb`, for the
recipient `0xe`, who is paid before the pool is. -/
def swapTxn : Transaction where
  version := 8
  timestamp := some ⟨1700000000, 0⟩
  info := some (storeWrites "0x51" "0xa" "0xc" ++ storeWrites "0x52" "0xb" "0xc" ++
    storeWrites "0x53" "0xb" "0xd" ++ storeWrites "0x54" "0xe" "0xd")
  txnData := some (.user
    [⟨faWithdraw, sideData "0x51"⟩, ⟨faWithdraw, sideData "0x53"⟩,
     ⟨faDeposit, sideData "0x54"⟩, ⟨faDeposit, sideData "0x52"⟩] none)

/-- The edge from `0xa` to `0xe`, of asset `0xc`: the one's withdraw of `0xc` with
the other's deposit of `0xd`. -/
theorem swapTxn_mixes_assets : ¬ AssetsKept swapSdk [] swapTxn := by
  intro h
  let c := swapSdk.standardizeAddress "0xc"
  let d := swapSdk.standardizeAddress "0xd"
  obtain ⟨p, hp, wd, hwd, hw, hd⟩ : ∃ p, parseTxn swapSdk [] swapTxn = some p ∧
      ∃ wd ∈ p.sides.pairs, p.sides.maps.storageToAsset.lookup wd.1.storageId = some c ∧
        p.sides.maps.storageToAsset.lookup wd.2.storageId = some d :=
    exists_of_any (by decide +kernel)
  have hsame : c = d := (h p hp wd hwd c d hw hd).1
  exact absurd hsame (by decide +kernel)

/-! ## Event indices -/

namespace Classified

def withdraw? : Classified → Option ParsedSide
  | withdraw side => some side
  | _ => none

def deposit? : Classified → Option ParsedSide
  | deposit side => some side
  | _ => none

def bridge? : Classified → Option BridgeInflow
  | bridge inflow => some inflow
  | _ => none

/-- The event index an event is carried on with. -/
def eventIndex? : Classified → Option Int64
  | bridge inflow => some inflow.eventIndex
  | withdraw side => some side.eventIndex
  | deposit side => some side.eventIndex
  | skipped => none

end Classified

/-- Every event is carried on in one list at most. -/
theorem eventIndices_perm (classified : List Classified) :
    ((classified.filterMap Classified.withdraw?).map (·.eventIndex) ++
      (classified.filterMap Classified.bridge?).map (·.eventIndex) ++
      (classified.filterMap Classified.deposit?).map (·.eventIndex)).Perm
        (classified.filterMap Classified.eventIndex?) := by
  induction classified with
  | nil => exact List.Perm.refl _
  | cons c classified ih =>
    cases c with
    | withdraw side => exact ih.cons _
    | bridge inflow =>
      simp only [List.filterMap_cons, Classified.withdraw?, Classified.bridge?,
        Classified.deposit?, Classified.eventIndex?, List.map_cons, List.append_assoc,
        List.cons_append] at ih ⊢
      exact List.perm_middle.trans (ih.cons _)
    | deposit side =>
      simp only [List.filterMap_cons, Classified.withdraw?, Classified.bridge?,
        Classified.deposit?, Classified.eventIndex?, List.map_cons] at ih ⊢
      exact List.perm_middle.trans (ih.cons _)
    | skipped => exact ih

theorem parseSide_eventIndex {sdk : Sdk} {maps : StorageMaps} {i : Int64} {data : String}
    {side : ParsedSide} (h : parseSide sdk maps i data = some side) : side.eventIndex = i := by
  simp only [parseSide, Option.bind_eq_bind, Option.bind_eq_some_iff] at h
  obtain ⟨v, _, store, _, text, _, json, _, digits, _, amount, _, hside⟩ := h
  obtain rfl := Option.some.inj hside
  rfl

theorem bridgeInflow_key {sdk : Sdk} {registry : BridgeRegistry} {txn : Transaction}
    {ts : NaiveDateTime} {i : Int64} {event : Event} {bi : BridgeInflow}
    (h : bridgeInflow sdk registry txn ts i event = some bi) :
    bi.key = (txn.version.toInt64, i) := by
  simp only [bridgeInflow, Option.bind_eq_bind, Option.bind_eq_some_iff] at h
  obtain ⟨entry, _, inflow, hparse, hfill⟩ := h
  obtain rfl := Option.some.inj hfill
  simp only [parseBridgeEvent, Option.bind_eq_bind, Option.bind_eq_some_iff] at hparse
  obtain ⟨v, _, recipient, _, text, _, amount, _, hinflow⟩ := hparse
  obtain rfl := Option.some.inj hinflow
  rfl

/-- Whatever an event is classified as, its index goes with it. -/
theorem classifyEvent_eventIndex (sdk : Sdk) (registry : BridgeRegistry) (txn : Transaction)
    (ts : NaiveDateTime) (maps : StorageMaps) (i : Int64) (event : Event) :
    ∀ j ∈ (classifyEvent sdk registry txn ts maps i event).eventIndex?, j = i := by
  intro j hj
  unfold classifyEvent at hj
  split at hj
  next inflow hinflow =>
    obtain rfl := Option.some.inj hj
    exact congrArg Prod.snd (bridgeInflow_key hinflow)
  next =>
    cases hside : parseSide sdk maps i event.data with
    | none =>
      rw [hside] at hj
      split_ifs at hj <;> cases hj
    | some side =>
      rw [hside] at hj
      split_ifs at hj
      · obtain rfl := Option.some.inj hj
        exact parseSide_eventIndex hside
      · obtain rfl := Option.some.inj hj
        exact parseSide_eventIndex hside
      · cases hj

/-- The indices of a vector's positions, as `i64`s, are distinct. -/
theorem nodup_map_int64 {n : ℕ} (h : n ≤ 2 ^ 63) : ((List.range n).map Int64.ofNat).Nodup := by
  refine List.Nodup.map_on (fun i hi j hj hij => ?_) List.nodup_range
  have hi := (List.mem_range.mp hi).trans_le h
  have hj := (List.mem_range.mp hj).trans_le h
  exact ofNat_int64_injOn hi hj hij

/-- Withdraws, bridge events and deposits of a transaction have distinct indices. -/
theorem nodup_eventIndices (sdk : Sdk) (registry : BridgeRegistry) (txn : Transaction)
    (ts : NaiveDateTime) {events : List Event} (h : events.length ≤ 2 ^ 63) :
    let sides := classifyEvents sdk registry txn ts events
    (sides.withdraws.map (·.eventIndex) ++ sides.txnInflows.map (·.eventIndex) ++
      sides.deposits.map (·.eventIndex)).Nodup := by
  intro sides
  let classify := fun e : Event × ℕ =>
    classifyEvent sdk registry txn ts (scanChanges sdk txn) (Int64.ofNat e.2) e.1
  have hperm := eventIndices_perm (events.zipIdx.map classify)
  have hsub : ((events.zipIdx.map classify).filterMap Classified.eventIndex?).Sublist
      (events.zipIdx.map fun e => Int64.ofNat e.2) := by
    rw [List.filterMap_map]
    exact filterMap_sublist_map fun e _ => classifyEvent_eventIndex sdk registry txn ts _ _ e.1
  have hpos : (events.zipIdx.map fun e => Int64.ofNat e.2) =
      (List.range events.length).map Int64.ofNat := by
    rw [List.range_eq_range', ← List.zipIdx_map_snd 0 events, List.map_map]
    rfl
  exact hperm.nodup_iff.mpr (hsub.nodup (hpos ▸ nodup_map_int64 h))

theorem parseTxn_eq {sdk : Sdk} {registry : BridgeRegistry} {txn : Transaction} {p : ParsedTxn}
    (hp : parseTxn sdk registry txn = some p) :
    p.txnVersion = txn.version.toInt64 ∧
      p.sides = classifyEvents sdk registry txn p.blockTimestamp (userEvents txn) := by
  simp only [parseTxn, Option.bind_eq_bind, Option.bind_eq_some_iff] at hp
  obtain ⟨ts, _, data, htxn, hdata⟩ := hp
  cases data with
  | other => cases hdata
  | user events payload =>
    obtain rfl := Option.some.inj hdata
    exact ⟨rfl, by rw [userEvents, htxn]⟩

/-! ## The pairs of a transaction -/

/-- The edge of a pair goes from the withdraw's owner to the deposit's, with the amount
of both, under the withdraw's index. -/
structure EdgeOfPair (p : ParsedTxn) (wd : ParsedSide × ParsedSide) (e : TransferEdge) : Prop where
  key : e.key = (p.txnVersion, wd.1.eventIndex)
  from_owner : e.fromAddress = wd.1.address
  to_owner : e.toAddress = wd.2.address
  withdrawn : e.amount = wd.1.amount
  deposited : e.amount = wd.2.amount

/-- The pairs use every withdraw and every deposit at most once, they pair equal
amounts of different owners, no two unused events are left that do, and the paired edges
are theirs. -/
structure MaximalMatching (p : ParsedTxn) : Prop where
  withdraws_once : (p.sides.pairs.map (·.1.eventIndex)).Nodup
  deposits_once : (p.sides.pairs.map (·.2.eventIndex)).Nodup
  paired : ∀ wd ∈ p.sides.pairs, wd.1 ∈ p.sides.withdraws ∧ wd.2 ∈ p.sides.deposits ∧
    wd.1.amount = wd.2.amount ∧ wd.1.address ≠ wd.2.address
  maximal : ∀ w ∈ p.sides.withdraws, w ∉ p.sides.pairs.map Prod.fst →
    ∀ d ∈ p.sides.deposits, d ∉ p.sides.pairs.map Prod.snd →
      ¬ (w.amount = d.amount ∧ w.address ≠ d.address)
  edges : List.Forall₂ (EdgeOfPair p) p.sides.pairs p.pairedEdges

theorem maximalMatching_of_nodup {p : ParsedTxn}
    (hw : (p.sides.withdraws.map (·.eventIndex)).Nodup)
    (hd : (p.sides.deposits.map (·.eventIndex)).Nodup) : MaximalMatching p := by
  have hfst := greedyMatch_fst_sublist suits p.sides.withdraws p.sides.deposits
  obtain ⟨left, hperm, hmax⟩ := greedyMatch_maximal suits p.sides.withdraws p.sides.deposits
  rw [← pairs_eq_greedyMatch] at hfst hperm hmax
  have hpaired : ∀ wd ∈ p.sides.pairs, wd.1 ∈ p.sides.withdraws ∧ wd.2 ∈ p.sides.deposits ∧
      wd.1.amount = wd.2.amount ∧ wd.1.address ≠ wd.2.address := by
    intro wd hwd
    rw [pairs_eq_greedyMatch] at hwd
    obtain ⟨hmemw, hmemd, hsuits⟩ := of_mem_greedyMatch hwd
    obtain ⟨hamount, hne⟩ := of_decide_eq_true hsuits
    exact ⟨hmemw, hmemd, hamount.symm, hne.symm⟩
  refine ⟨?_, ?_, hpaired, ?_, ?_⟩
  · have hsub := (hfst.map (·.eventIndex)).nodup hw
    rwa [List.map_map] at hsub
  · have hsnd := ((hperm.map (·.eventIndex)).nodup_iff.mpr hd)
    rw [List.map_append, List.map_map] at hsnd
    exact (List.nodup_append.mp hsnd).1
  · intro w hw hnotw d hd hnotd hsuits
    have hleft : d ∈ left := by
      rcases List.mem_append.mp (hperm.mem_iff.mpr hd) with hpaired | hleft
      · exact absurd hpaired hnotd
      · exact hleft
    have hfalse := hmax w hw hnotw d hleft
    rw [suits, decide_eq_false_iff_not] at hfalse
    exact hfalse ⟨hsuits.1.symm, hsuits.2.symm⟩
  · refine List.forall₂_map_right_iff.mpr (List.forall₂_same.mpr fun wd hwd => ?_)
    exact ⟨rfl, rfl, rfl, rfl, (hpaired wd hwd).2.2.1⟩

theorem maximalMatching_parseTxn {sdk : Sdk} {registry : BridgeRegistry} {txn : Transaction}
    {p : ParsedTxn} (hp : parseTxn sdk registry txn = some p)
    (h : (userEvents txn).length ≤ 2 ^ 63) : MaximalMatching p := by
  have hnodup := nodup_eventIndices sdk registry txn p.blockTimestamp h
  rw [← (parseTxn_eq hp).2] at hnodup
  obtain ⟨hleft, hdeposits, _⟩ := List.nodup_append.mp hnodup
  exact maximalMatching_of_nodup (List.nodup_append.mp hleft).1 hdeposits

/-! ## The keys of a batch -/

theorem bridgeInflow_of_mem {sdk : Sdk} {registry : BridgeRegistry} {txn : Transaction}
    {ts : NaiveDateTime} {events : List Event} {bi : BridgeInflow}
    (h : bi ∈ (classifyEvents sdk registry txn ts events).txnInflows) :
    ∃ i event, bridgeInflow sdk registry txn ts i event = some bi := by
  have hmem : bi ∈ (events.zipIdx.map fun e : Event × ℕ => classifyEvent sdk registry txn ts
      (scanChanges sdk txn) (Int64.ofNat e.2) e.1).filterMap Classified.bridge? := h
  obtain ⟨c, hc, hbridge⟩ := List.mem_filterMap.mp hmem
  obtain ⟨e, _, rfl⟩ := List.mem_map.mp hc
  refine ⟨Int64.ofNat e.2, e.1, ?_⟩
  cases hinflow : bridgeInflow sdk registry txn ts (Int64.ofNat e.2) e.1 with
  | some inflow =>
    rw [classifyEvent, hinflow] at hbridge
    exact hbridge
  | none =>
    rw [classifyEvent, hinflow] at hbridge
    simp only at hbridge
    cases hside : parseSide sdk (scanChanges sdk txn) (Int64.ofNat e.2) e.1.data <;>
      rw [hside] at hbridge <;> split_ifs at hbridge <;> cases hbridge

/-- The inflows of a transaction have its version. -/
theorem version_of_mem_txnInflows {sdk : Sdk} {registry : BridgeRegistry} {txn : Transaction}
    {p : ParsedTxn} (hp : parseTxn sdk registry txn = some p) :
    ∀ bi ∈ p.sides.txnInflows, bi.transactionVersion = p.txnVersion := by
  intro bi hbi
  obtain ⟨hversion, hsides⟩ := parseTxn_eq hp
  rw [hsides] at hbi
  obtain ⟨i, event, hbridge⟩ := bridgeInflow_of_mem hbi
  rw [hversion]
  exact congrArg Prod.fst (bridgeInflow_key hbridge)

/-- The key of a row of a transaction. -/
def ParsedTxn.keyAt (p : ParsedTxn) (i : Int64) : Int64 × Int64 := (p.txnVersion, i)

theorem edgeKeys_eq {sdk : Sdk} {registry : BridgeRegistry} {txn : Transaction} {p : ParsedTxn}
    (hp : parseTxn sdk registry txn = some p) :
    (p.pairedEdges ++ p.headEdges registry).map TransferEdge.key =
      (p.sides.pairs.map (·.1.eventIndex) ++ p.sides.txnInflows.map (·.eventIndex)).map
        p.keyAt := by
  have hhead : (p.headEdges registry).map TransferEdge.key =
      (p.sides.txnInflows.map (·.eventIndex)).map p.keyAt := by
    rw [ParsedTxn.headEdges, List.map_map, List.map_map]
    refine List.map_congr_left fun bi hbi => ?_
    exact congrArg (·, bi.eventIndex) (version_of_mem_txnInflows hp bi hbi)
  have hpaired : p.pairedEdges.map TransferEdge.key =
      (p.sides.pairs.map (·.1.eventIndex)).map p.keyAt := by
    rw [ParsedTxn.pairedEdges, List.map_map, List.map_map]
    rfl
  rw [List.map_append, List.map_append, hhead, hpaired]

theorem inflowKeys_eq {sdk : Sdk} {registry : BridgeRegistry} {txn : Transaction} {p : ParsedTxn}
    (hp : parseTxn sdk registry txn = some p) :
    p.inflows.map BridgeInflow.key = (p.sides.txnInflows.map (·.eventIndex)).map p.keyAt := by
  rw [ParsedTxn.inflows, List.map_map, List.map_map]
  refine List.map_congr_left fun bi hbi => ?_
  exact congrArg (·, bi.eventIndex) (version_of_mem_txnInflows hp bi hbi)

/-- The indices of a transaction's edges are those of some of its withdraws and of its
bridge events. -/
theorem nodup_edgeIndices {sdk : Sdk} {registry : BridgeRegistry} {txn : Transaction}
    {p : ParsedTxn} (hp : parseTxn sdk registry txn = some p)
    (h : (userEvents txn).length ≤ 2 ^ 63) :
    (p.sides.pairs.map (·.1.eventIndex) ++ p.sides.txnInflows.map (·.eventIndex)).Nodup := by
  have hnodup := nodup_eventIndices sdk registry txn p.blockTimestamp h
  rw [← (parseTxn_eq hp).2] at hnodup
  have hfst := greedyMatch_fst_sublist suits p.sides.withdraws p.sides.deposits
  rw [← pairs_eq_greedyMatch] at hfst
  have hsub := (hfst.map (·.eventIndex)).append_right (p.sides.txnInflows.map (·.eventIndex))
  rw [List.map_map] at hsub
  exact hsub.nodup (List.nodup_append.mp hnodup).1

/-- Keys that are distinct within each transaction are distinct over a batch of
distinct versions. -/
theorem nodup_batchKeys {sdk : Sdk} {registry : BridgeRegistry} {txns : List Transaction}
    (hversions : (txns.map (·.version)).Nodup) {indices : ParsedTxn → List Int64}
    (hindices : ∀ txn ∈ txns, ∀ p ∈ parseTxn sdk registry txn, (indices p).Nodup) :
    ((txns.filterMap (parseTxn sdk registry)).flatMap fun p =>
      (indices p).map p.keyAt).Nodup := by
  have hparsed : ((txns.filterMap (parseTxn sdk registry)).map (·.txnVersion)).Nodup := by
    have hsub : ((txns.filterMap (parseTxn sdk registry)).map (·.txnVersion)).Sublist
        (txns.map fun txn => txn.version.toInt64) := by
      rw [List.map_filterMap]
      refine filterMap_sublist_map fun txn _ v hv => ?_
      obtain ⟨p, hp, rfl⟩ := Option.map_eq_some_iff.mp hv
      exact (parseTxn_eq hp).1
    have hinj : Function.Injective UInt64.toInt64 := fun a b hab => congrArg Int64.toUInt64 hab
    have hversions' := hversions.map hinj
    rw [List.map_map] at hversions'
    exact hsub.nodup hversions'
  rw [List.nodup_flatMap]
  constructor
  · intro p hp
    obtain ⟨txn, htxn, hparse⟩ := List.mem_filterMap.mp hp
    exact (hindices txn htxn p hparse).map fun i j hij => (Prod.mk.inj hij).2
  · rw [List.Nodup, List.pairwise_map] at hparsed
    refine hparsed.imp fun {p q} hne => ?_
    intro key hkeyp hkeyq
    obtain ⟨i, _, rfl⟩ := List.mem_map.mp hkeyp
    obtain ⟨j, _, hkey⟩ := List.mem_map.mp hkeyq
    exact hne (Prod.mk.inj hkey).1.symm

/-- A batch's rows have distinct keys, so storing it where none of them is stored yet
drops nothing. -/
structure KeepsEveryRow (batch : Batch) : Prop where
  edge_keys : (batch.edges.map TransferEdge.key).Nodup
  inflow_keys : (batch.inflows.map BridgeInflow.key).Nodup
  edges_kept : ∀ (db : ReputationDb) (propagateEvm : Bool),
    (∀ e ∈ batch.edges, e.key ∉ db.addressTransferEdges) →
      ∀ e ∈ batch.edges,
        (process propagateEvm db batch).addressTransferEdges.lookup e.key = some e
  inflows_kept : ∀ (db : ReputationDb) (propagateEvm : Bool),
    (∀ bi ∈ batch.inflows, bi.key ∉ db.bridgeInflows) →
      ∀ bi ∈ batch.inflows, (process propagateEvm db batch).bridgeInflows.lookup bi.key = some bi

theorem keepsEveryRow_of_nodup {batch : Batch} (hedges : (batch.edges.map TransferEdge.key).Nodup)
    (hinflows : (batch.inflows.map BridgeInflow.key).Nodup) : KeepsEveryRow batch := by
  refine ⟨hedges, hinflows, ?_, ?_⟩
  · intro db propagateEvm hnew e he
    have hsorted : (sortEdges batch.edges).Perm batch.edges :=
      List.perm_insertionSort edgeLe batch.edges
    have hnodup : (((sortEdges batch.edges).map fun e =>
        ((e.transactionVersion, e.eventIndex), e)).map Prod.fst).Nodup := by
      rw [List.map_map]
      exact (hsorted.map TransferEdge.key).nodup_iff.mpr hedges
    refine Table.lookup_insertNewAll_of_mem hnodup ?_ (hnew e he)
    exact List.mem_map.mpr ⟨e, hsorted.mem_iff.mpr he, rfl⟩
  · intro db propagateEvm hnew bi hbi
    have hnodup : ((batch.inflows.map fun bi =>
        ((bi.transactionVersion, bi.eventIndex), bi)).map Prod.fst).Nodup := by
      rw [List.map_map]
      exact hinflows
    exact Table.lookup_insertNewAll_of_mem hnodup (List.mem_map.mpr ⟨bi, hbi, rfl⟩) (hnew bi hbi)

/-- Over a batch of distinct versions, pairing is a maximal matching in every
transaction, its edges are part of the batch, and no two edges and no two inflows share a
key. A vector of events has at most `2 ^ 63` positions. -/
theorem extract_pairs_and_keys (sdk : Sdk) (registry : BridgeRegistry) (txns : List Transaction)
    (hversions : (txns.map (·.version)).Nodup)
    (hevents : ∀ txn ∈ txns, (userEvents txn).length ≤ 2 ^ 63) :
    (∀ txn ∈ txns, ∀ p ∈ parseTxn sdk registry txn,
      MaximalMatching p ∧ p.pairedEdges.Sublist (extract sdk registry txns).edges) ∧
      KeepsEveryRow (extract sdk registry txns).batch := by
  refine ⟨fun txn htxn p hp => ⟨maximalMatching_parseTxn hp (hevents txn htxn), ?_⟩, ?_⟩
  · have hmem : p ∈ txns.filterMap (parseTxn sdk registry) :=
      List.mem_filterMap.mpr ⟨txn, htxn, hp⟩
    exact (List.sublist_append_left ..).trans
      (List.sublist_flatten_of_mem (List.mem_map_of_mem hmem))
  have hindices : ∀ txn ∈ txns, ∀ p ∈ parseTxn sdk registry txn,
      (p.sides.pairs.map (·.1.eventIndex) ++ p.sides.txnInflows.map (·.eventIndex)).Nodup :=
    fun txn htxn p hp => nodup_edgeIndices hp (hevents txn htxn)
  refine keepsEveryRow_of_nodup ?_ ?_
  · show ((List.flatMap _ _).map TransferEdge.key).Nodup
    rw [List.map_flatMap]
    refine (List.flatMap_congr fun p hp => ?_) ▸ nodup_batchKeys hversions hindices
    obtain ⟨txn, _, hparse⟩ := List.mem_filterMap.mp hp
    exact (edgeKeys_eq hparse).symm
  · show ((List.flatMap _ _).map BridgeInflow.key).Nodup
    rw [List.map_flatMap]
    have hinflows := nodup_batchKeys hversions fun txn htxn p hp =>
      (List.nodup_append.mp (hindices txn htxn p hp)).2.1
    refine (List.flatMap_congr fun p hp => ?_) ▸ hinflows
    obtain ⟨txn, _, hparse⟩ := List.mem_filterMap.mp hp
    exact (inflowKeys_eq hparse).symm

/-- The paired edge of the delivery has the withdraw's index, the bridge's head edge
the bridge event's. -/
theorem extract_pairs_and_keys_pool :
    (extract poolSdk poolRegistry [poolTxn]).edges.map TransferEdge.key = [(7, 0), (7, 2)] ∧
      KeepsEveryRow (extract poolSdk poolRegistry [poolTxn]).batch :=
  ⟨by decide +kernel,
   (extract_pairs_and_keys poolSdk poolRegistry [poolTxn] (by decide) (by decide)).2⟩

end IndexerProcessors.Reputation

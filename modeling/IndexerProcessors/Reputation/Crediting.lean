import IndexerProcessors.Reputation.Extractor
import IndexerProcessors.Reputation.Storer

/-!
# What a bridge inflow is credited with

An extracted inflow reaches the storer as its head edge and, where a withdraw
and a deposit of its amount to its recipient were paired, as a flagged pair as
well. The storer does not know which inflow an edge stands for: it looks for the
batch's first inflow of the same version, recipient and amount.

`creditedExactlyOnce_iff` says for which transactions this comes out right. The
join makes the EVM source of a credit a function of (version, recipient,
amount); so crediting is right exactly if that function gives each inflow its
own source and no flagged pair is credited at all.
-/

namespace IndexerProcessors.Reputation

open IndexerProcessors.Lib

/-- A direct credit to `evm_fund`, with the chain position it is made at. -/
structure Credit where
  transactionVersion : Int64
  eventIndex : Int64
  key : EvmSourceKey
  amount : ℚ
  deriving DecidableEq, Repr

/-- The credit the storer makes for an edge. -/
def edgeCredit (inflows : List BridgeInflow) (e : TransferEdge) : Option Credit :=
  match edgeStep inflows e with
  | some (.seed recipient asset evm amount _) =>
    some ⟨e.transactionVersion, e.eventIndex, ⟨recipient, asset, evm⟩, amount⟩
  | _ => none

/-- The credit an inflow is owed: one, at its own position, where both its asset
and its EVM source are known. -/
def owedCredit (bi : BridgeInflow) : Option Credit :=
  match bi.assetType, bi.evmSource with
  | some asset, some evm =>
    some ⟨bi.transactionVersion, bi.eventIndex, ⟨bi.aptosRecipient, asset, evm⟩, bi.amount⟩
  | _, _ => none

/-- The inflows whose amounts the key `k` is due. -/
def dueTo (k : EvmSourceKey) (bi : BridgeInflow) : Bool :=
  bi.aptosRecipient = k.movementAddress ∧ bi.assetType = some k.assetType ∧
    bi.evmSource = some k.evmAddress

/-- The extractor's output as the storer's input. -/
def Extracted.batch (out : Extracted) : Batch := ⟨out.edges, out.inflows⟩

/-- Storing the transactions once credits every inflow exactly once, to its own
EVM source: in any database each `evm_fund` grows by the inflows due to it, and
the credits made are the credits owed, one for one. -/
def CreditedExactlyOnce (sdk : Sdk) (registry : BridgeRegistry) (txns : List Transaction) : Prop :=
  let batch := (extract sdk registry txns).batch
  (∀ (db : ReputationDb) (k : EvmSourceKey),
    (process true db batch).addressEvmSources.value AddressEvmSource.evmFund k =
      db.addressEvmSources.value AddressEvmSource.evmFund k +
        ((batch.inflows.filter (dueTo k)).map (·.amount)).sum) ∧
  (batch.edges.filterMap (edgeCredit batch.inflows)).Perm (batch.inflows.filterMap owedCredit)

/-- No pair that delivers an inflow of its transaction reaches a seed: its
asset is unknown, or the joined inflow's EVM source is. -/
def NoPairCredited (inflows : List BridgeInflow) (p : ParsedTxn) : Prop :=
  ∀ wd ∈ p.sides.pairs, bridgeMatch p.sides wd.2 ≠ none →
    pairAsset p.sides wd.1 wd.2 = none ∨
      joinedEvm inflows p.txnVersion wd.2.address wd.2.amount = none

/-- The inflow the storer joins has the EVM source of the inflow it stands for. -/
def JoinsOwnSource (inflows : List BridgeInflow) (bi : BridgeInflow) : Prop :=
  bi.assetType ≠ none →
    joinedEvm inflows bi.transactionVersion bi.aptosRecipient bi.amount = bi.evmSource

/-! ## From credits to `evm_fund` -/

/-- What a list of credits adds to a key. -/
def creditSum (k : EvmSourceKey) (credits : List Credit) : ℚ :=
  (credits.map fun c => if k = c.key then c.amount else 0).sum

theorem creditSum_perm {k : EvmSourceKey} {l l' : List Credit} (h : l.Perm l') :
    creditSum k l = creditSum k l' :=
  (h.map _).sum_eq

/-- The statements of some edges credit a key with what their credits add. -/
theorem sum_credit_edges (inflows : List BridgeInflow) (k : EvmSourceKey)
    (edges : List TransferEdge) :
    ((edges.filterMap (edgeStep inflows)).map (RollupStep.credit k)).sum =
      creditSum k (edges.filterMap (edgeCredit inflows)) := by
  unfold creditSum
  induction edges with
  | nil => rfl
  | cons e edges ih =>
    rw [List.filterMap_cons, List.filterMap_cons]
    cases h : edgeStep inflows e with
    | none => simpa [edgeCredit, h] using ih
    | some step =>
      cases step with
      | seed recipient asset evm amount ord =>
        simpa [edgeCredit, h, RollupStep.credit] using ih
      | transfer a b asset amount ord => simpa [edgeCredit, h, RollupStep.credit] using ih

theorem owedCredit_of_dueTo {k : EvmSourceKey} {bi : BridgeInflow} (h : dueTo k bi = true) :
    owedCredit bi = some ⟨bi.transactionVersion, bi.eventIndex, k, bi.amount⟩ := by
  simp only [dueTo, decide_eq_true_eq] at h
  obtain ⟨hr, ha, he⟩ := h
  unfold owedCredit
  rw [ha, he, hr]

theorem dueTo_of_owedCredit {bi : BridgeInflow} {c : Credit} (h : owedCredit bi = some c) :
    dueTo c.key bi = true ∧ c.amount = bi.amount := by
  unfold owedCredit at h
  split at h
  next asset evm ha he =>
    obtain rfl := Option.some.inj h
    exact ⟨by simp [dueTo, ha, he], rfl⟩
  next => cases h

/-- The credits owed add up, per key, to the inflows due to it. -/
theorem creditSum_owed (k : EvmSourceKey) (inflows : List BridgeInflow) :
    creditSum k (inflows.filterMap owedCredit) =
      ((inflows.filter (dueTo k)).map (·.amount)).sum := by
  unfold creditSum
  induction inflows with
  | nil => rfl
  | cons bi inflows ih =>
    rw [List.filterMap_cons, List.filter_cons]
    cases hd : dueTo k bi with
    | true => simp [owedCredit_of_dueTo hd, ih]
    | false =>
      cases ho : owedCredit bi with
      | none => simpa using ih
      | some c =>
        have hne : k ≠ c.key := by
          intro heq
          subst heq
          rw [(dueTo_of_owedCredit ho).1] at hd
          cases hd
        simpa [hne] using ih

/-- The storer's batch credits each key with what its edges' credits add. -/
theorem evmFund_process (db : ReputationDb) (batch : Batch) (k : EvmSourceKey) :
    (process true db batch).addressEvmSources.value AddressEvmSource.evmFund k =
      db.addressEvmSources.value AddressEvmSource.evmFund k +
        creditSum k (batch.edges.filterMap (edgeCredit batch.inflows)) := by
  have hperm := (List.perm_insertionSort edgeLe batch.edges).filterMap (edgeCredit batch.inflows)
  show ((rollupSteps batch).foldl RollupStep.apply db.addressEvmSources).value
    AddressEvmSource.evmFund k = _
  rw [evmFund_foldl, rollupSteps, sum_credit_edges, ← creditSum_perm hperm]
  rfl

/-! ## The credits of head edges and of pairs -/

/-- The credit made for an inflow through its head edge: at its position, to the
joined source. -/
def headCredit (inflows : List BridgeInflow) (bi : BridgeInflow) : Option Credit :=
  match bi.assetType, joinedEvm inflows bi.transactionVersion bi.aptosRecipient bi.amount with
  | some asset, some evm =>
    some ⟨bi.transactionVersion, bi.eventIndex, ⟨bi.aptosRecipient, asset, evm⟩, bi.amount⟩
  | _, _ => none

/-- The source of a credit is the joined one of its version, recipient and
amount. -/
def Credit.Joined (inflows : List BridgeInflow) (c : Credit) : Prop :=
  joinedEvm inflows c.transactionVersion c.key.movementAddress c.amount = some c.key.evmAddress

theorem edgeCredit_joined {inflows : List BridgeInflow} {e : TransferEdge} {c : Credit}
    (h : edgeCredit inflows e = some c) : c.Joined inflows := by
  unfold edgeCredit at h
  split at h
  next recipient asset evm amount ord hstep =>
    obtain rfl := Option.some.inj h
    obtain ⟨ast, _, ⟨_, evm', hevm, hseed⟩ | ⟨_, htr⟩⟩ := edgeStep_cases hstep
    · obtain ⟨rfl, rfl, rfl, rfl, rfl⟩ := RollupStep.seed.inj hseed
      exact hevm
    · cases htr
  next => cases h

theorem edgeCredit_headEdge {registry : BridgeRegistry} {inflows : List BridgeInflow}
    {sides : TxnSides} {bi : BridgeInflow} (hbi : bi.assetType = none) :
    edgeCredit inflows (headEdge registry sides bi) =
      headCredit inflows (resolvedInflow sides bi) := by
  have hasset : (resolvedInflow sides bi).assetType = inflowAsset sides bi := by
    show (inflowAsset sides bi).or bi.assetType = _
    rw [hbi, Option.or_none]
  unfold edgeCredit headCredit
  rw [hasset]
  cases ha : inflowAsset sides bi with
  | none => simp [edgeStep, headEdge, ha]
  | some asset =>
    cases hj : joinedEvm inflows bi.transactionVersion bi.aptosRecipient bi.amount with
    | none => simp [edgeStep, headEdge, resolvedInflow, ha, hj]
    | some evm => simp [edgeStep, headEdge, resolvedInflow, ha, hj]

/-- A pair of equal amounts is uncredited in exactly the ways `NoPairCredited`
lists. -/
theorem edgeCredit_pairedEdge_eq_none {inflows : List BridgeInflow} {v : Int64}
    {ts : NaiveDateTime} {sides : TxnSides} {w d : ParsedSide} (hamt : d.amount = w.amount) :
    edgeCredit inflows (pairedEdge v ts sides w d) = none ↔
      (bridgeMatch sides d ≠ none → pairAsset sides w d = none ∨
        joinedEvm inflows v d.address d.amount = none) := by
  rw [hamt]
  unfold edgeCredit
  cases ha : pairAsset sides w d with
  | none => simp [edgeStep, pairedEdge, ha]
  | some asset =>
    cases hm : bridgeMatch sides d with
    | none => simp [edgeStep, pairedEdge, ha, hm]
    | some bi =>
      cases hj : joinedEvm inflows v d.address w.amount with
      | none => simp [edgeStep, pairedEdge, ha, hm, hj]
      | some evm => simp [edgeStep, pairedEdge, ha, hm, hj]

/-- The credits of the pairs of a transaction. -/
def pairCredits (inflows : List BridgeInflow) (p : ParsedTxn) : List Credit :=
  p.pairedEdges.filterMap (edgeCredit inflows)

theorem pairCredits_eq_nil {inflows : List BridgeInflow} {p : ParsedTxn} :
    pairCredits inflows p = [] ↔ NoPairCredited inflows p := by
  unfold pairCredits ParsedTxn.pairedEdges NoPairCredited
  rw [List.filterMap_map, List.filterMap_eq_nil_iff]
  refine forall₂_congr fun wd hwd => ?_
  exact edgeCredit_pairedEdge_eq_none (pairWithdraws_spec hwd).2.2.1

/-- The credits of a batch: those of the pairs, and one per inflow that has an
asset and a joined source. -/
theorem credits_perm (sdk : Sdk) (registry : BridgeRegistry) (inflows : List BridgeInflow)
    (txns : List Transaction) :
    ((extract sdk registry txns).edges.filterMap (edgeCredit inflows)).Perm
      ((txns.filterMap (parseTxn sdk registry)).flatMap (pairCredits inflows) ++
        (extract sdk registry txns).inflows.filterMap (headCredit inflows)) := by
  have hheads : ∀ p ∈ txns.filterMap (parseTxn sdk registry),
      (p.headEdges registry).filterMap (edgeCredit inflows) =
        p.inflows.filterMap (headCredit inflows) := by
    intro p hp
    obtain ⟨txn, _, hparse⟩ := List.mem_filterMap.mp hp
    unfold ParsedTxn.headEdges ParsedTxn.inflows
    rw [List.filterMap_map, List.filterMap_map]
    exact List.filterMap_congr fun bi hbi => edgeCredit_headEdge (txnInflows_assetType hparse hbi)
  have hsplit : (extract sdk registry txns).edges.filterMap (edgeCredit inflows) =
      (txns.filterMap (parseTxn sdk registry)).flatMap fun p =>
        pairCredits inflows p ++ p.inflows.filterMap (headCredit inflows) := by
    show List.filterMap _ (List.flatMap _ _) = _
    rw [List.filterMap_flatMap]
    refine List.flatMap_congr fun p hp => ?_
    rw [List.filterMap_append, hheads p hp]
    rfl
  have hinflows : (extract sdk registry txns).inflows.filterMap (headCredit inflows) =
      (txns.filterMap (parseTxn sdk registry)).flatMap fun p =>
        p.inflows.filterMap (headCredit inflows) := List.filterMap_flatMap ..
  rw [hsplit, hinflows]
  exact (List.flatMap_append_perm _ _ _).symm

/-! ## The condition -/

theorem headCredit_eq_owedCredit_iff {inflows : List BridgeInflow} {bi : BridgeInflow} :
    headCredit inflows bi = owedCredit bi ↔ JoinsOwnSource inflows bi := by
  unfold headCredit owedCredit JoinsOwnSource
  cases bi.assetType with
  | none => simp
  | some asset =>
    cases joinedEvm inflows bi.transactionVersion bi.aptosRecipient bi.amount <;>
      cases bi.evmSource <;> simp

/-- An owed credit with the joined source is the one the head edge makes. -/
theorem headCredit_of_owed {inflows : List BridgeInflow} {bi : BridgeInflow} {c : Credit}
    (ho : owedCredit bi = some c) (hj : c.Joined inflows) : headCredit inflows bi = some c := by
  unfold owedCredit at ho
  split at ho
  next asset evm ha he =>
    obtain rfl := Option.some.inj ho
    have hj' : joinedEvm inflows bi.transactionVersion bi.aptosRecipient bi.amount = some evm := hj
    unfold headCredit
    rw [ha, hj']
  next => cases ho

/-- If one partial function extends another on a list it yields at least as
many values there, and equally many only if the two agree. -/
theorem length_filterMap_of_extends {α β : Type} {f g : α → Option β} :
    ∀ {l : List α}, (∀ a ∈ l, ∀ b, g a = some b → f a = some b) →
      (l.filterMap g).length ≤ (l.filterMap f).length ∧
      ((l.filterMap f).length ≤ (l.filterMap g).length → ∀ a ∈ l, f a = g a) := by
  intro l
  induction l with
  | nil => intro _; simp
  | cons a l ih =>
    intro h
    obtain ⟨hle, heq⟩ := ih fun b hb => h b (List.mem_cons_of_mem _ hb)
    have ha := h a (List.mem_cons_self ..)
    cases hg : g a with
    | some b =>
      have hf := ha b hg
      simp only [List.filterMap_cons, hg, hf, List.length_cons, List.forall_mem_cons, true_and]
      exact ⟨by omega, fun hlen => heq (by omega)⟩
    | none =>
      cases hf : f a with
      | none =>
        simp only [List.filterMap_cons, hg, hf, List.forall_mem_cons, true_and]
        exact ⟨hle, heq⟩
      | some b =>
        simp only [List.filterMap_cons, hg, hf, List.length_cons]
        exact ⟨by omega, fun hlen => absurd hlen (by omega)⟩

/-- **When every inflow is credited exactly once.** The transactions are
credited rightly exactly if, among them, no flagged pair is credited and every
inflow with an asset is joined to its own EVM source. -/
theorem creditedExactlyOnce_iff (sdk : Sdk) (registry : BridgeRegistry) (txns : List Transaction) :
    let parsed := txns.filterMap (parseTxn sdk registry)
    let inflows := parsed.flatMap ParsedTxn.inflows
    CreditedExactlyOnce sdk registry txns ↔
      (∀ p ∈ parsed, NoPairCredited inflows p) ∧ ∀ bi ∈ inflows, JoinsOwnSource inflows bi := by
  intro parsed inflows
  have hperm := credits_perm sdk registry inflows txns
  have hpairs : parsed.flatMap (pairCredits inflows) = [] ↔
      ∀ p ∈ parsed, NoPairCredited inflows p := by
    rw [List.flatMap_eq_nil_iff]
    exact forall₂_congr fun p _ => pairCredits_eq_nil
  rw [← hpairs]
  constructor
  · intro hcredited
    obtain ⟨_, honce⟩ := hcredited
    have hmade := hperm.symm.trans honce
    -- A credit owed is a credit made, so its source is the joined one.
    have hext : ∀ bi ∈ inflows, ∀ c, owedCredit bi = some c → headCredit inflows bi = some c := by
      intro bi hbi c hc
      have howed : c ∈ inflows.filterMap owedCredit := List.mem_filterMap.mpr ⟨bi, hbi, hc⟩
      obtain ⟨e, _, he⟩ := List.mem_filterMap.mp (honce.mem_iff.mpr howed)
      exact headCredit_of_owed hc (edgeCredit_joined he)
    -- Made and owed are equally many, so nothing else is made.
    obtain ⟨hle, heq⟩ := length_filterMap_of_extends hext
    have hlen := hmade.length_eq
    rw [List.length_append] at hlen
    have hlen' : (parsed.flatMap (pairCredits inflows)).length +
        (inflows.filterMap (headCredit inflows)).length =
          (inflows.filterMap owedCredit).length := hlen
    constructor
    · exact List.length_eq_zero_iff.mp (by omega)
    · intro bi hbi
      exact headCredit_eq_owedCredit_iff.mp (heq (by omega) bi hbi)
  · intro hcond
    obtain ⟨hnil, hown⟩ := hcond
    have hheads : inflows.filterMap (headCredit inflows) = inflows.filterMap owedCredit :=
      List.filterMap_congr fun bi hbi => headCredit_eq_owedCredit_iff.mpr (hown bi hbi)
    have honce : ((extract sdk registry txns).edges.filterMap (edgeCredit inflows)).Perm
        (inflows.filterMap owedCredit) := by
      have h := hperm
      rw [hnil, List.nil_append] at h
      exact h.trans (List.Perm.of_eq hheads)
    refine ⟨fun db k => ?_, honce⟩
    rw [evmFund_process, ← creditSum_owed]
    exact congrArg _ (creditSum_perm honce)

/-! ## A delivery out of a pool -/

/-- Data of a withdraw or deposit event of `10`. -/
def sideData (store : String) : String :=
  "\x7b\"store\":\"" ++ store ++ "\",\"amount\":\"10\"\x7d"

/-- Data of an `ObjectCore` resource. -/
def coreData (owner : String) : String :=
  "\x7b\"allow_ungated_transfer\":false,\"guid_creation_num\":\"0\",\"owner\":\"" ++ owner ++
    "\"\x7d"

/-- Data of a `FungibleStore` resource of the asset `0xc`. -/
def storeData : String := "\x7b\"metadata\":\x7b\"inner\":\"0xc\"\x7d\x7d"

/-- Data of the bridge event. -/
def receivedData : String := "\x7b\"from\":\"0xe1\",\"to\":\"0xa\",\"amount\":\"10\"\x7d"

/-- What these texts parse to. -/
def poolTexts : List (String × Json) :=
  [(sideData "0x51", .object [("store", .string "0x51"), ("amount", .string "10")]),
   (sideData "0x52", .object [("store", .string "0x52"), ("amount", .string "10")]),
   (coreData "0xb", .object [("allow_ungated_transfer", .bool false),
     ("guid_creation_num", .string "0"), ("owner", .string "0xb")]),
   (coreData "0xa", .object [("allow_ungated_transfer", .bool false),
     ("guid_creation_num", .string "0"), ("owner", .string "0xa")]),
   (storeData, .object [("metadata", .object [("inner", .string "0xc")])]),
   (receivedData,
     .object [("from", .string "0xe1"), ("to", .string "0xa"), ("amount", .string "10")])]

/-- The functions outside the repository, as they behave on these texts. -/
def poolSdk : Sdk where
  standardizeAddress s := "0x" ++ String.ofList (List.leftpad 64 '0' (strip0x s.toList))
  fromStr text := poolTexts.lookup text
  bigDecimal text := [("10", (10 : ℚ)), ("0", 0)].lookup text
  parseTimestamp ts _ := ts.seconds.toInt * 1000000 + ts.nanos.toInt / 1000

/-- A bridge that pays out of a pool, with the EVM sender in its event. -/
def poolRegistry : BridgeRegistry :=
  [{ bridgeName := "pool", moduleAddress := "0xb", eventType := "0xb::pool::Received"
     evmSourceFieldPath := some "from", recipientFieldPath := "to", amountFieldPath := "amount"
     chainIdFieldPath := none, payloadKind := none, enabled := true }]

/-- The pool's store pays `10` to the recipient's, and the bridge reports the
delivery. -/
def poolTxn : Transaction where
  version := 7
  timestamp := some ⟨1700000000, 0⟩
  info := some
    [.writeResource ⟨"0x51", ⟨"0x1", "object", "ObjectCore"⟩, "0x1::object::ObjectCore",
      coreData "0xb"⟩,
     .writeResource ⟨"0x51", ⟨"0x1", "fungible_asset", "FungibleStore"⟩,
      "0x1::fungible_asset::FungibleStore", storeData⟩,
     .writeResource ⟨"0x52", ⟨"0x1", "object", "ObjectCore"⟩, "0x1::object::ObjectCore",
      coreData "0xa"⟩,
     .writeResource ⟨"0x52", ⟨"0x1", "fungible_asset", "FungibleStore"⟩,
      "0x1::fungible_asset::FungibleStore", storeData⟩]
  txnData := some (.user
    [⟨faWithdraw, sideData "0x51"⟩, ⟨faDeposit, sideData "0x52"⟩,
     ⟨"0xb::pool::Received", receivedData⟩] none)

/-- One inflow of `10`, two flagged edges, `20` credited. -/
theorem poolTxn_credited_twice :
    let batch := (extract poolSdk poolRegistry [poolTxn]).batch
    let k : EvmSourceKey :=
      ⟨poolSdk.standardizeAddress "0xa", poolSdk.standardizeAddress "0xc", "0xe1"⟩
    batch.inflows.map (·.amount) = [10] ∧
    (process true ReputationDb.empty batch).addressEvmSources.value AddressEvmSource.evmFund k =
      20 ∧
    ¬ CreditedExactlyOnce poolSdk poolRegistry [poolTxn] := by
  refine ⟨by decide +kernel, by decide +kernel, ?_⟩
  intro hcredited
  obtain ⟨hfund, _⟩ := hcredited
  have hk := hfund ReputationDb.empty
    ⟨poolSdk.standardizeAddress "0xa", poolSdk.standardizeAddress "0xc", "0xe1"⟩
  revert hk
  decide +kernel

end IndexerProcessors.Reputation

import IndexerProcessors.UserTransaction.Model

/-!
# The signatures of a transaction as a list

The signature of a transaction is a tree of two levels: the account signatures of the
sender and of the secondary signers, and in each the individual signatures. The rows
are these, in order (`signatures_flattened`): one for each, with its bytes, and told
apart by their places in the tree. A signature whose key or bytes the protobuf does
not have is a panic, for the whole tree.

`leaves` and `individuals` say what the tree has, without the loops that walk it.
-/

namespace IndexerProcessors.UserTransaction

open IndexerProcessors.AccountRestoration
open IndexerProcessors.Lib
open IndexerProcessors.WriteSet (Bytes AnyPublicKey)

/-! ## The tree -/

/-- An account's signature in the tree: the sender's, or that of a secondary signer,
with the place among them and the address. -/
structure Leaf where
  secondary : Option (ℕ × String)
  signature : AccountSignature

/-- An individual signature in the tree: whose it is, of what kind of account
signature, the place in it, and the bytes, where there are any. -/
structure Individual where
  secondary : Option (ℕ × String)
  type : AccountSignatureType
  multiSigIndex : ℕ
  bytes : Option Bytes

namespace SignatureEnum

/-- The account signature of the sender. -/
def senderSignature : SignatureEnum → Option AccountSignature
  | ed25519 sig => some ⟨.ed25519, some (.ed25519 sig)⟩
  | multiEd25519 sig => some ⟨.multiEd25519, some (.multiEd25519 sig)⟩
  | multiAgent sig => sig.sender
  | feePayer sig => sig.sender
  | singleSender sig => sig.sender

def secondarySignerAddresses : SignatureEnum → List String
  | multiAgent sig => sig.secondarySignerAddresses
  | feePayer sig => sig.secondarySignerAddresses
  | _ => []

def secondarySigners : SignatureEnum → List AccountSignature
  | multiAgent sig => sig.secondarySigners
  | feePayer sig => sig.secondarySigners
  | _ => []

/-- The sender's leaf and those of the secondary signers. -/
def leaves (e : SignatureEnum) : List Leaf :=
  e.senderSignature.toList.map (Leaf.mk none) ++
    (e.secondarySignerAddresses.zip e.secondarySigners).zipIdx.map fun p =>
      ⟨some (p.2, p.1.1), p.1.2⟩

end SignatureEnum

/-- The individual signatures of a leaf. -/
def Leaf.individuals (leaf : Leaf) : List Individual :=
  match leaf.signature.signature with
  | none => []
  | some (.ed25519 sig) => [⟨leaf.secondary, .ed25519, 0, some sig.signature⟩]
  | some (.multiEd25519 sig) => sig.signatures.zipIdx.map fun p =>
      ⟨leaf.secondary, .multiEd25519, p.2, some p.1⟩
  | some (.singleKeySignature sig) =>
      [⟨leaf.secondary, .singleKey, 0, sig.signature.map getAnySignatureBytes⟩]
  | some (.multiKeySignature sig) => sig.signatures.zipIdx.map fun p =>
      ⟨leaf.secondary, .multiKey, p.2, p.1.signature.map getAnySignatureBytes⟩
  | some .abstraction => [⟨leaf.secondary, .abstraction, 0, none⟩]

/-- The individual signatures of a transaction. -/
def SignatureEnum.individuals (e : SignatureEnum) : List Individual :=
  e.leaves.flatMap Leaf.individuals

/-- The protobuf has every key and every signature the rows of the leaf are made of. -/
def Leaf.HasKeys (leaf : Leaf) : Prop :=
  match leaf.signature.signature with
  | some (.multiEd25519 sig) => ∀ i < sig.signatures.length,
      ∃ keyIndex, sig.publicKeyIndices[i]? = some keyIndex ∧ keyIndex.toNat < sig.publicKeys.length
  | some (.singleKeySignature sig) => sig.publicKey.isSome ∧ sig.signature.isSome
  | some (.multiKeySignature sig) => sig.signatures.length ≤ sig.publicKeys.length ∧
      ∀ signature ∈ sig.signatures, signature.signature.isSome
  | _ => True

/-- The place of an individual signature: what the rows have as their key. -/
def Individual.place (one : Individual) : ℕ × ℕ × Bool :=
  ((one.secondary.map Prod.fst).getD 0, one.multiSigIndex, one.secondary.isNone)

/-- A row of an individual signature. -/
structure RowOf (version : Int64) (row : Signature) (one : Individual) : Prop where
  pk : row.pk = (version, one.place)
  bytes : one.type ≠ .abstraction → ∃ bytes, one.bytes = some bytes ∧ row.signature = hex0x bytes

/-! ## The rows of a leaf -/

section

variable {sdk : Sdk} {sender : String} {version blockHeight : Int64}
  {blockTimestamp : NaiveDateTime}

/-- The rows that are made of a leaf. -/
def Leaf.rows (sdk : Sdk) (sender : String) (version blockHeight : Int64)
    (blockTimestamp : NaiveDateTime) (leaf : Leaf) : Option (List Signature) :=
  fromAccountSignature sdk leaf.signature sender version blockHeight leaf.secondary.isNone
    ((leaf.secondary.map Prod.fst).getD 0) (leaf.secondary.map Prod.snd) blockTimestamp

/-- The results of a loop over a list with its indices. -/
theorem forall₂_of_mapM_zipIdx {α β γ : Type} {f : α × ℕ → Option β} {g : α × ℕ → γ}
    {R : β → γ → Prop} {l : List α} {r : List β} (h : l.zipIdx.mapM f = some r)
    (hstep : ∀ p b, f p = some b → R b (g p)) : List.Forall₂ R r (l.zipIdx.map g) := by
  rw [List.forall₂_map_right_iff]
  exact (forall₂_of_mapM h).imp fun b p => hstep p b

/-- The rows of a leaf are those of its individual signatures. -/
theorem rowOf_leaf {leaf : Leaf} {rows : List Signature}
    (h : leaf.rows sdk sender version blockHeight blockTimestamp = some rows) :
    List.Forall₂ (RowOf version) rows leaf.individuals := by
  obtain ⟨secondary, type, signature⟩ := leaf
  unfold Leaf.rows fromAccountSignature at h
  unfold Leaf.individuals
  cases signature with
  | none =>
    obtain rfl := Option.some.inj h
    exact List.Forall₂.nil
  | some signature =>
    cases signature with
    | ed25519 sig =>
      obtain rfl := Option.some.inj h
      exact List.Forall₂.cons ⟨rfl, fun _ => ⟨_, rfl, rfl⟩⟩ List.Forall₂.nil
    | multiEd25519 sig =>
      refine forall₂_of_mapM_zipIdx h ?_
      rintro ⟨bytes, index⟩ row hrow
      obtain ⟨keyIndex, -, hrow⟩ := Option.bind_eq_some_iff.mp hrow
      obtain ⟨publicKey, -, hrow⟩ := Option.bind_eq_some_iff.mp hrow
      obtain rfl := Option.some.inj hrow
      exact ⟨rfl, fun _ => ⟨_, rfl, rfl⟩⟩
    | singleKeySignature sig =>
      obtain ⟨row, hrow, rfl⟩ := Option.map_eq_some_iff.mp h
      obtain ⟨anySignature, hsignature, hrow⟩ := Option.bind_eq_some_iff.mp hrow
      obtain ⟨publicKey, -, hrow⟩ := Option.bind_eq_some_iff.mp hrow
      obtain rfl := Option.some.inj hrow
      refine List.Forall₂.cons ⟨rfl, fun _ => ⟨_, ?_, rfl⟩⟩ List.Forall₂.nil
      rw [hsignature]
      rfl
    | multiKeySignature sig =>
      refine forall₂_of_mapM_zipIdx h ?_
      rintro ⟨indexed, index⟩ row hrow
      obtain ⟨publicKey, -, hrow⟩ := Option.bind_eq_some_iff.mp hrow
      obtain ⟨anySignature, hsignature, hrow⟩ := Option.bind_eq_some_iff.mp hrow
      obtain rfl := Option.some.inj hrow
      refine ⟨rfl, fun _ => ⟨_, ?_, rfl⟩⟩
      show indexed.signature.map getAnySignatureBytes = _
      rw [hsignature]
      rfl
    -- It has no signature, and its row need not carry one.
    | abstraction =>
      obtain rfl := Option.some.inj h
      exact List.Forall₂.cons ⟨rfl, fun h => absurd rfl h⟩ List.Forall₂.nil

/-- There are rows for a leaf exactly if the protobuf has the keys. -/
theorem isSome_rows_iff {leaf : Leaf} :
    (leaf.rows sdk sender version blockHeight blockTimestamp).isSome ↔ leaf.HasKeys := by
  obtain ⟨secondary, type, signature⟩ := leaf
  unfold Leaf.rows fromAccountSignature Leaf.HasKeys
  cases signature with
  | none => simp
  | some signature =>
    cases signature with
    | ed25519 sig => simp
    | abstraction => simp
    -- Each signature is looked up with the key its bit points to.
    | multiEd25519 sig =>
      simp only [parseMultiEd25519Signature, getPublicKeyIndicesFromMultiEd25519Signature,
        isSome_mapM_iff]
      rw [List.forall_mem_zipIdx']
      refine forall₂_congr fun i _ => ?_
      rw [List.getElem?_map]
      cases sig.publicKeyIndices[i]? with
      | none => simp
      | some keyIndex =>
        have hlength : keyIndex.toNat < sig.publicKeys.length ↔
            (sig.publicKeys[keyIndex.toNat]?).isSome := by simp
        simp only [Option.some.injEq, exists_eq_left', hlength]
        cases h : sig.publicKeys[keyIndex.toNat]? <;> simp [h]
    | singleKeySignature sig =>
      obtain ⟨publicKey, signature⟩ := sig
      unfold parseSingleKeySignature
      cases signature <;> cases publicKey <;> simp
    -- A key is looked up by the position of its signature, so there have to be as many.
    | multiKeySignature sig =>
      simp only [parseMultiKeySignature, isSome_mapM_iff]
      rw [List.forall_mem_zipIdx']
      have hrow (i : ℕ) (hi : i < sig.signatures.length)
          (row : AnyPublicKey → AnySignature → Signature) :
          (do
            let anyPublicKey ← sig.publicKeys[i]?
            let anySignature ← sig.signatures[i].signature
            return row anyPublicKey anySignature).isSome ↔
            i < sig.publicKeys.length ∧ sig.signatures[i].signature.isSome := by
        have hlength : i < sig.publicKeys.length ↔ (sig.publicKeys[i]?).isSome := by simp
        rw [hlength]
        cases sig.publicKeys[i]? <;> cases sig.signatures[i].signature <;> simp
      simp only [hrow]
      constructor
      · intro h
        refine ⟨?_, ?_⟩
        · by_contra hless
          exact absurd (h _ (Nat.lt_of_not_le hless)).1 (Nat.lt_irrefl _)
        · intro signature hsignature
          obtain ⟨i, hi, rfl⟩ := List.getElem_of_mem hsignature
          exact (h i hi).2
      · rintro ⟨hlength, hsignatures⟩ i hi
        exact ⟨hi.trans_le hlength, hsignatures _ (List.getElem_mem hi)⟩

/-! ## The rows of the tree -/

/-- The loop over the secondary addresses goes over the signers beside them, if there
are enough. -/
theorem mapM_secondary (addresses : List String) (signers : List AccountSignature) :
    (addresses.zipIdx.mapM fun p => (signers[p.2]?).map fun signature =>
        Leaf.mk (some (p.2, p.1)) signature) =
      if addresses.length ≤ signers.length then
        some ((addresses.zip signers).zipIdx.map fun p => ⟨some (p.2, p.1.1), p.1.2⟩)
      else none := by
  by_cases hlength : addresses.length ≤ signers.length
  · rw [if_pos hlength, mapM_eq_some_iff, List.map_map]
    refine List.ext_getElem (by simp [hlength]) ?_
    intro i hi _
    have hsigner : i < signers.length := by
      rw [List.length_map, List.length_zipIdx] at hi
      exact hi.trans_le hlength
    simp [hsigner]
  · rw [if_neg hlength, ← Option.not_isSome_iff_eq_none, isSome_mapM_iff,
      List.forall_mem_zipIdx']
    intro h
    have hmissing := h signers.length (Nat.lt_of_not_le hlength)
    simp at hmissing

/-- The loops of the source go over the leaves. -/
theorem fromUserTransaction_eq (s : SignaturePb) :
    fromUserTransaction sdk s sender version blockHeight blockTimestamp =
      s.signature.bind fun e =>
        if e.senderSignature.isSome ∧
            e.secondarySignerAddresses.length ≤ e.secondarySigners.length then
          (e.leaves.mapM (Leaf.rows sdk sender version blockHeight blockTimestamp)).map
            List.flatten
        else none := by
  have hall (senderSignature : Option AccountSignature) (addresses : List String)
      (signers : List AccountSignature) :
      parseAllSigners sdk senderSignature addresses signers sender version blockHeight
          blockTimestamp =
        if senderSignature.isSome ∧ addresses.length ≤ signers.length then
          ((senderSignature.toList.map (Leaf.mk none) ++
            (addresses.zip signers).zipIdx.map fun p => Leaf.mk (some (p.2, p.1.1)) p.1.2).mapM
              (Leaf.rows sdk sender version blockHeight blockTimestamp)).map List.flatten
        else none := by
    have hsecondary : (addresses.zipIdx.mapM fun p => (signers[p.2]?).bind fun secondarySig =>
        Leaf.rows sdk sender version blockHeight blockTimestamp ⟨some (p.2, p.1), secondarySig⟩) =
          (if addresses.length ≤ signers.length then
            some ((addresses.zip signers).zipIdx.map fun p => Leaf.mk (some (p.2, p.1.1)) p.1.2)
          else none).bind fun leaves =>
            leaves.mapM (Leaf.rows sdk sender version blockHeight blockTimestamp) := by
      rw [← mapM_secondary, ← mapM_bind]
      refine congrArg (fun f => addresses.zipIdx.mapM f) (funext fun p => ?_)
      rw [Option.bind_map]
      rfl
    cases senderSignature with
    | none => rfl
    | some signature =>
      show (Leaf.rows sdk sender version blockHeight blockTimestamp ⟨none, signature⟩).bind
        (fun senderRows => (addresses.zipIdx.mapM fun p => (signers[p.2]?).bind fun secondarySig =>
          Leaf.rows sdk sender version blockHeight blockTimestamp
            ⟨some (p.2, p.1), secondarySig⟩).bind fun secondaryRows =>
              some (senderRows ++ secondaryRows.flatten)) = _
      rw [hsecondary]
      by_cases hlength : addresses.length ≤ signers.length
      · rw [if_pos hlength, if_pos ⟨rfl, hlength⟩, Option.bind_some, Option.toList_some,
          List.map_singleton, List.singleton_append, List.mapM_cons]
        generalize (addresses.zip signers).zipIdx.map _ = secondary
        cases Leaf.rows sdk sender version blockHeight blockTimestamp ⟨none, signature⟩ with
        | none => rfl
        | some rows =>
          cases secondary.mapM (Leaf.rows sdk sender version blockHeight blockTimestamp) <;> rfl
      · rw [if_neg hlength, if_neg fun h => hlength h.2]
        cases Leaf.rows sdk sender version blockHeight blockTimestamp ⟨none, signature⟩ <;> rfl
  -- a transaction that only the sender signs
  have hone (signature : AccountSignature) :
      ([⟨none, signature⟩].mapM (Leaf.rows sdk sender version blockHeight blockTimestamp)).map
          List.flatten =
        Leaf.rows sdk sender version blockHeight blockTimestamp ⟨none, signature⟩ := by
    rw [List.mapM_cons, List.mapM_nil]
    cases Leaf.rows sdk sender version blockHeight blockTimestamp ⟨none, signature⟩ with
    | none => rfl
    | some rows => exact congrArg some (List.append_nil rows)
  unfold fromUserTransaction fromParentSignature
  cases s.signature with
  | none => rfl
  | some e =>
    cases e with
    | ed25519 sig => rfl
    | multiEd25519 sig => exact (hone ⟨.multiEd25519, some (.multiEd25519 sig)⟩).symm
    | multiAgent sig => exact hall _ _ _
    | feePayer sig => exact hall _ _ _
    | singleSender sig =>
      obtain ⟨senderSignature⟩ := sig
      cases senderSignature with
      | none => rfl
      | some signature =>
        refine Eq.trans ?_ (hone signature).symm
        obtain ⟨type, variant⟩ := signature
        cases variant <;> rfl

/-! ## The keys of the rows -/

/-- The individual signatures of a leaf have different places in it. -/
theorem nodup_place_leaf (leaf : Leaf) : (leaf.individuals.map Individual.place).Nodup := by
  have hindexed {α : Type} (l : List α) (f : α × ℕ → Individual) (hf : ∀ p, (f p).place =
      ((leaf.secondary.map Prod.fst).getD 0, p.2, leaf.secondary.isNone)) :
      ((l.zipIdx.map f).map Individual.place).Nodup := by
    have hplaces : (l.zipIdx.map f).map Individual.place =
        (l.zipIdx.map Prod.snd).map fun i =>
          ((leaf.secondary.map Prod.fst).getD 0, i, leaf.secondary.isNone) := by
      rw [List.map_map, List.map_map]
      exact List.map_congr_left fun p _ => hf p
    rw [hplaces, List.zipIdx_map_snd]
    refine List.Nodup.map ?_ List.nodup_range'
    intro i j hij
    simpa using hij
  unfold Leaf.individuals
  split
  · exact List.nodup_nil
  · exact List.nodup_singleton _
  · exact hindexed _ _ fun _ => rfl
  · exact List.nodup_singleton _
  · exact hindexed _ _ fun _ => rfl
  · exact List.nodup_singleton _

theorem secondary_of_mem {leaf : Leaf} {one : Individual} (h : one ∈ leaf.individuals) :
    one.secondary = leaf.secondary := by
  unfold Leaf.individuals at h
  split at h
  · cases h
  · rw [List.mem_singleton.mp h]
  · obtain ⟨p, -, rfl⟩ := List.mem_map.mp h
    rfl
  · rw [List.mem_singleton.mp h]
  · obtain ⟨p, -, rfl⟩ := List.mem_map.mp h
    rfl
  · rw [List.mem_singleton.mp h]

/-- The leaves are the sender's and one for each place among the secondary signers. -/
theorem nodup_secondary (e : SignatureEnum) :
    (e.leaves.map fun leaf => leaf.secondary.map Prod.fst).Nodup := by
  unfold SignatureEnum.leaves
  rw [List.map_append, List.map_map, List.map_map, List.nodup_append']
  refine ⟨?_, ?_, ?_⟩
  · cases e.senderSignature with
    | none => exact List.nodup_nil
    | some signature => exact List.nodup_singleton _
  · have hplaces : ((e.secondarySignerAddresses.zip e.secondarySigners).zipIdx.map
        fun p => some p.2) = ((e.secondarySignerAddresses.zip
          e.secondarySigners).zipIdx.map Prod.snd).map some := by rw [List.map_map]; rfl
    refine Eq.subst (motive := List.Nodup) hplaces.symm ?_
    rw [List.zipIdx_map_snd]
    exact List.Nodup.map (Option.some_injective ℕ) List.nodup_range'
  · rw [List.disjoint_left]
    intro place hsender hsecondary
    obtain ⟨signature, -, rfl⟩ := List.mem_map.mp hsender
    obtain ⟨p, -, hp⟩ := List.mem_map.mp hsecondary
    cases hp

/-- No two individual signatures have one place. -/
theorem nodup_place (e : SignatureEnum) : (e.individuals.map Individual.place).Nodup := by
  unfold SignatureEnum.individuals
  rw [List.map_flatMap, List.nodup_flatMap]
  refine ⟨fun leaf _ => nodup_place_leaf leaf, ?_⟩
  refine (List.pairwise_map.mp (nodup_secondary e)).imp ?_
  intro a b hab
  rw [Function.onFun, List.disjoint_left]
  intro place ha hb
  obtain ⟨one, hone, rfl⟩ := List.mem_map.mp ha
  obtain ⟨other, hother, hplace⟩ := List.mem_map.mp hb
  refine hab ?_
  rw [← secondary_of_mem hone, ← secondary_of_mem hother]
  simp only [Individual.place, Prod.mk.injEq] at hplace
  obtain ⟨hindex, -, hprimary⟩ := hplace
  cases hfirst : one.secondary with
  | none =>
    cases hsecond : other.secondary with
    | none => rfl
    | some signer =>
      rw [hfirst, hsecond] at hprimary
      cases hprimary
  | some signer =>
    cases hsecond : other.secondary with
    | none =>
      rw [hfirst, hsecond] at hprimary
      cases hprimary
    | some signer' =>
      rw [hfirst, hsecond] at hindex
      exact congrArg some hindex.symm

/-- What holds between the rows of a leaf and its individual signatures holds between
those of the tree. -/
theorem forall₂_individuals {R : Signature → Individual → Prop} {s : SignaturePb}
    {e : SignatureEnum} {rows : List Signature} (he : s.signature = some e)
    (h : fromUserTransaction sdk s sender version blockHeight blockTimestamp = some rows)
    (hleaf : ∀ leaf ∈ e.leaves, ∀ rows,
      leaf.rows sdk sender version blockHeight blockTimestamp = some rows →
        List.Forall₂ R rows leaf.individuals) : List.Forall₂ R rows e.individuals := by
  rw [fromUserTransaction_eq, he, Option.bind_some] at h
  split at h
  next =>
    obtain ⟨perLeaf, hleaves, rfl⟩ := Option.map_eq_some_iff.mp h
    have hperLeaf : List.Forall₂ (List.Forall₂ R) perLeaf (e.leaves.map Leaf.individuals) := by
      rw [List.forall₂_map_right_iff]
      exact forall₂_imp_mem (forall₂_of_mapM hleaves) fun rows leaf hmem => hleaf leaf hmem rows
    exact List.rel_flatten hperLeaf
  next => cases h

/-- The rows of a transaction's signature are those of its individual signatures. -/
theorem rowOf_individuals {s : SignaturePb} {rows : List Signature}
    (h : fromUserTransaction sdk s sender version blockHeight blockTimestamp = some rows) :
    ∃ e, s.signature = some e ∧ List.Forall₂ (RowOf version) rows e.individuals := by
  have hsome := h
  rw [fromUserTransaction_eq] at hsome
  obtain ⟨e, he, -⟩ := Option.bind_eq_some_iff.mp hsome
  exact ⟨e, he, forall₂_individuals he h fun leaf _ rows hrows => rowOf_leaf hrows⟩

/-- The keys of one transaction's rows are distinct, and have its version. -/
theorem nodup_pk_of_individuals {e : SignatureEnum} {rows : List Signature}
    (h : List.Forall₂ (RowOf version) rows e.individuals) :
    (rows.map (·.pk)).Nodup ∧ ∀ row ∈ rows, row.transactionVersion = version := by
  have hkeys : rows.map (·.pk) = e.individuals.map fun one => (version, one.place) := by
    refine List.forall₂_eq_eq_eq ▸ ?_
    rw [List.forall₂_map_left_iff, List.forall₂_map_right_iff]
    exact h.imp fun row one hrow => hrow.pk
  have hpairs : e.individuals.map (fun one => (version, one.place)) =
      (e.individuals.map Individual.place).map fun place => (version, place) := by
    rw [List.map_map]
    rfl
  refine ⟨?_, ?_⟩
  · rw [hkeys, hpairs]
    exact (nodup_place e).map fun a b hab => (Prod.mk.injEq _ _ _ _ ▸ hab).2
  · intro row hrow
    have hpk : row.pk ∈ e.individuals.map fun one => (version, one.place) :=
      hkeys ▸ List.mem_map_of_mem hrow
    obtain ⟨one, -, hone⟩ := List.mem_map.mp hpk
    exact (congrArg Prod.fst hone).symm

/-! ## A batch -/

/-- The signatures of a row of `user_transactions` are those of its request. -/
theorem signatures_of_fromTransaction {request : Option UserTransactionRequest}
    {info : WriteSet.TransactionInfo} {feeStatement : Option FungibleAsset.FeeStatement}
    {timestamp : Timestamp} {epoch : Int64} {userTransaction : UserTransactionModel}
    {rows : List Signature}
    (h : fromTransaction sdk request info feeStatement timestamp blockHeight epoch version =
      some (userTransaction, rows)) :
    ∃ userRequest, request = some userRequest ∧
      getSignatures sdk userRequest version blockHeight (sdk.parseTimestamp timestamp version) =
        some rows ∧
      userTransaction.numSignatures = rows.length := by
  unfold fromTransaction at h
  obtain ⟨userRequest, hrequest, h⟩ := Option.bind_eq_some_iff.mp h
  obtain ⟨feePayer, -, h⟩ := Option.bind_eq_some_iff.mp h
  obtain ⟨rows', hrows, h⟩ := Option.bind_eq_some_iff.mp h
  obtain ⟨expiration, -, h⟩ := Option.bind_eq_some_iff.mp h
  rw [Option.pure_def, Option.some_inj, Prod.mk.injEq] at h
  obtain ⟨rfl, rfl⟩ := h
  exact ⟨userRequest, hrequest, hrows, rfl⟩

/-- The signature rows of one transaction of a batch. -/
def transactionSignatures (sdk : Sdk) (txn : Transaction) : List Signature :=
  (((parseTransaction sdk txn).join).map (·.2)).getD []

theorem nodup_pk_transactionSignatures (txn : Transaction) :
    ((transactionSignatures sdk txn).map (·.pk)).Nodup ∧
      ∀ row ∈ transactionSignatures sdk txn, row.transactionVersion = txn.txnVersion := by
  unfold transactionSignatures
  cases hparse : (parseTransaction sdk txn).join with
  | none => exact ⟨List.nodup_nil, List.forall_mem_nil _⟩
  | some out =>
    obtain ⟨userTransaction, rows⟩ := out
    have h := Option.join_eq_some_iff.mp hparse
    unfold parseTransaction at h
    obtain ⟨info, -, h⟩ := Option.bind_eq_some_iff.mp h
    split at h
    next =>
      obtain ⟨feeStatement, -, h⟩ := Option.bind_eq_some_iff.mp h
      obtain ⟨timestamp, -, h⟩ := Option.bind_eq_some_iff.mp h
      obtain ⟨out, hout, heq⟩ := Option.map_eq_some_iff.mp h
      obtain rfl := Option.some.inj heq
      obtain ⟨userRequest, -, hrows, -⟩ := signatures_of_fromTransaction hout
      unfold getSignatures at hrows
      split at hrows
      next =>
        obtain rfl := Option.some.inj hrows
        exact ⟨List.nodup_nil, List.forall_mem_nil _⟩
      next =>
        obtain ⟨e, -, hforall⟩ := rowOf_individuals hrows
        exact nodup_pk_of_individuals hforall
    next => cases h

/-- The rows of a batch are those of its transactions. -/
theorem signatures_of_userTransactionParse {txns : List Transaction}
    {userTransactions : List UserTransactionModel} {signatures : List Signature}
    (h : userTransactionParse sdk txns = some (userTransactions, signatures)) :
    signatures = txns.flatMap (transactionSignatures sdk) := by
  unfold userTransactionParse at h
  obtain ⟨parsed, hparsed, h⟩ := Option.bind_eq_some_iff.mp h
  rw [Option.pure_def, Option.some_inj, Prod.mk.injEq] at h
  obtain ⟨-, rfl⟩ := h
  rw [reduceOption_of_mapM hparsed]
  clear hparsed h
  induction txns with
  | nil => rfl
  | cons txn txns ih =>
    rw [List.flatMap_cons, ← ih, List.filterMap_cons]
    unfold transactionSignatures
    cases (parseTransaction sdk txn).join <;> rfl

/-- The keys of the rows of a batch are distinct. -/
theorem nodup_pk_userTransactionParse {txns : List Transaction}
    {userTransactions : List UserTransactionModel} {signatures : List Signature}
    (hversions : (txns.map (·.version)).Nodup)
    (h : userTransactionParse sdk txns = some (userTransactions, signatures)) :
    (signatures.map (·.pk)).Nodup := by
  rw [signatures_of_userTransactionParse h, List.map_flatMap, List.nodup_flatMap]
  refine ⟨fun txn _ => (nodup_pk_transactionSignatures txn).1, ?_⟩
  refine (List.pairwise_map.mp hversions).imp ?_
  intro a b hab
  rw [Function.onFun, List.disjoint_left]
  intro pk ha hb
  obtain ⟨row, hrow, rfl⟩ := List.mem_map.mp ha
  obtain ⟨row', hrow', hpk⟩ := List.mem_map.mp hb
  have hversion := congrArg Prod.fst hpk
  refine hab (congrArg Int64.toUInt64 (?_ : a.txnVersion = b.txnVersion))
  rw [← (nodup_pk_transactionSignatures a).2 row hrow,
    ← (nodup_pk_transactionSignatures b).2 row' hrow']
  exact hversion.symm

end

/-! ## Trees -/

/-- A signature of known kinds, with as many secondary signatures as secondary
addresses. -/
structure IsTree (s : SignaturePb) (e : SignatureEnum) : Prop where
  signature : s.signature = some e
  sender : e.senderSignature.isSome
  paired : e.secondarySignerAddresses.length = e.secondarySigners.length
  known : ∀ leaf ∈ e.leaves, leaf.signature.signature.isSome

/-- **The rows are the individual signatures of the tree**, one for each, with its
bytes and its place; there are any exactly if every leaf has its keys. In a batch no
two rows have one key. -/
theorem signatures_flattened (sdk : Sdk) :
    (∀ (request : UserTransactionRequest) (s : SignaturePb) (e : SignatureEnum)
        (version blockHeight : Int64) (blockTimestamp : NaiveDateTime),
      request.signature = some s → IsTree s e →
        ((∀ leaf ∈ e.leaves, leaf.HasKeys) ↔
          ∃ rows, getSignatures sdk request version blockHeight blockTimestamp = some rows) ∧
        ∀ rows, getSignatures sdk request version blockHeight blockTimestamp = some rows →
          List.Forall₂ (RowOf version) rows e.individuals) ∧
    ∀ (txns : List Transaction) (userTransactions : List UserTransactionModel)
        (signatures : List Signature),
      (txns.map (·.version)).Nodup →
      userTransactionParse sdk txns = some (userTransactions, signatures) →
        (signatures.map (·.pk)).Nodup := by
  refine ⟨?_, fun txns userTransactions signatures => nodup_pk_userTransactionParse⟩
  intro request s e version blockHeight blockTimestamp hsignature htree
  have hrows : getSignatures sdk request version blockHeight blockTimestamp =
      (e.leaves.mapM (Leaf.rows sdk request.sender version blockHeight blockTimestamp)).map
        List.flatten := by
    unfold getSignatures
    rw [hsignature]
    show fromUserTransaction sdk s request.sender version blockHeight blockTimestamp = _
    rw [fromUserTransaction_eq, htree.signature, Option.bind_some,
      if_pos ⟨htree.sender, htree.paired.le⟩]
  refine ⟨?_, ?_⟩
  · rw [← Option.isSome_iff_exists, hrows, Option.isSome_map, isSome_mapM_iff]
    exact forall₂_congr fun leaf _ => isSome_rows_iff.symm
  · intro rows h
    unfold getSignatures at h
    rw [hsignature] at h
    obtain ⟨e', he', hforall⟩ := rowOf_individuals h
    rw [htree.signature] at he'
    obtain rfl := Option.some.inj he'
    exact hforall

/-- A request of `0xa` with a signature. -/
def requestWith (s : SignaturePb) : UserTransactionRequest where
  sender := "0xa"
  sequenceNumber := 0
  maxGasAmount := 1
  gasUnitPrice := 1
  expirationTimestampSecs := some ⟨0, 0⟩
  signature := some s
  replayProtectionNonce := none
  entryFunctionIdStr := none
  entryFunctionContractAddress := none
  entryFunctionModuleName := none
  entryFunctionFunctionName := none

/-- An ed25519 signature by the key with an index. -/
def signedBy (index : UInt32) (signature : Bytes) : IndexedSignature :=
  ⟨index, some ⟨.ed25519, [], some (.ed25519 signature)⟩⟩

/-- A multi key account's signature. -/
def multiKeyAccount (publicKeys : List AnyPublicKey) (signatures : List IndexedSignature) :
    AccountSignature :=
  ⟨.multiKey, some (.multiKeySignature ⟨publicKeys, signatures, 2⟩)⟩

/-- The keys of the account in the examples. -/
def threeKeys : List AnyPublicKey :=
  [⟨1, .ed25519, [1]⟩, ⟨1, .ed25519, [2]⟩, ⟨1, .ed25519, [3]⟩]

/-- `0xa` signs with two of three keys, `0xb` with one, and `0xf` pays. -/
def feePayerExample : FeePayerSignature where
  sender := some (multiKeyAccount threeKeys [signedBy 0 [7], signedBy 2 [8]])
  secondarySignerAddresses := ["0xb"]
  secondarySigners := [⟨.ed25519, some (.ed25519 ⟨[4], [9]⟩)⟩]
  feePayerAddress := "0xf"

/-- A user transaction with the fee payer's signature. -/
def feePayerTxn (version : UInt64) : Transaction where
  version := version
  blockHeight := 1
  epoch := 1
  timestamp := some ⟨0, 0⟩
  info := some
    { hash := [], stateChangeHash := [], eventRootHash := [], stateCheckpointHash := none
      accumulatorRootHash := [], gasUsed := 0, success := true, vmStatus := "", changes := [] }
  txnData := some (.user (some (requestWith ⟨.feePayer, some (.feePayer feePayerExample)⟩)) [])

/-- Three rows for the fee payer transaction, and six distinct ones for two of them. -/
theorem feePayer_flattened :
    (∃ rows, getSignatures plainSdk.toSdk
        (requestWith ⟨.feePayer, some (.feePayer feePayerExample)⟩) 1 1 0 = some rows ∧
      List.Forall₂ (RowOf 1) rows (SignatureEnum.feePayer feePayerExample).individuals) ∧
    ∃ userTransactions signatures, userTransactionParse plainSdk.toSdk
        [feePayerTxn 1, feePayerTxn 2] = some (userTransactions, signatures) ∧
      (signatures.map (·.pk)).Nodup := by
  have htree : IsTree ⟨.feePayer, some (.feePayer feePayerExample)⟩ (.feePayer feePayerExample) :=
    ⟨rfl, rfl, rfl, by decide⟩
  have hall := (signatures_flattened plainSdk.toSdk).1
    (requestWith ⟨.feePayer, some (.feePayer feePayerExample)⟩) _ _ 1 1 0 rfl htree
  obtain ⟨rows, hrows⟩ := hall.1.mp (by
    intro leaf hleaf
    rcases List.mem_pair.mp hleaf with rfl | rfl
    · exact ⟨by decide, by decide⟩
    · trivial)
  refine ⟨⟨rows, hrows, hall.2 rows hrows⟩, _, _, rfl, ?_⟩
  exact (signatures_flattened plainSdk.toSdk).2 [feePayerTxn 1, feePayerTxn 2] _ _ (by decide) rfl

/-- A multi key signature with more signatures than keys is a panic. -/
theorem missing_key_is_panic :
    let sig := SignatureEnum.singleSender
      ⟨some (multiKeyAccount [⟨1, .ed25519, [1]⟩] [signedBy 0 [7], signedBy 1 [8]])⟩
    IsTree ⟨.singleSender, some sig⟩ sig ∧
      ¬ ∃ rows, getSignatures plainSdk.toSdk (requestWith ⟨.singleSender, some sig⟩) 1 1 0 =
        some rows := by
  refine ⟨⟨rfl, rfl, rfl, by decide⟩, ?_⟩
  rintro ⟨rows, hrows⟩
  cases hrows

end IndexerProcessors.UserTransaction

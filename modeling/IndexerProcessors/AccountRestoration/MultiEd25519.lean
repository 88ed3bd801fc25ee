import IndexerProcessors.AccountRestoration.Keys
import IndexerProcessors.Lib.Chunks

/-!
# Two ways to the keys of a multi ed25519 account

The keys of a multi ed25519 account come from the signature of a transaction,
where they are a list beside the threshold, or from the event of a key rotation,
where they are the bytes of the account's public key: the keys one after the
other and then the threshold as one byte.

The rotation's bytes are cut into pieces of 32, and the threshold, left over, is
a piece of its own. It is taken for a key: the two paths agree on the public key of
the account and never on the list of its keys (`rotation_differs_from_signature`).
-/

namespace IndexerProcessors.AccountRestoration

open IndexerProcessors.Lib
open IndexerProcessors.WriteSet

/-- The keys of a helper with their types. -/
def PublicKeyAuthKeyHelper.typedKeys (helper : PublicKeyAuthKeyHelper) : List (String × String) :=
  helper.keys.map fun key => (key.publicKey, key.publicKeyType)

/-- The flags of the keys. -/
def PublicKeyAuthKeyHelper.usedFlags (helper : PublicKeyAuthKeyHelper) : List Bool :=
  helper.keys.map (·.isPublicKeyUsed)

@[simp] theorem typedKeys_keysOf {α : Type} (publicKey publicKeyType : α → String)
    (usedIndices : List ℕ) (publicKeys : List α) :
    (PublicKeyAuthKeyHelper.keysOf publicKey publicKeyType usedIndices publicKeys).map
        (fun key => (key.publicKey, key.publicKeyType)) =
      publicKeys.map fun key => (publicKey key, publicKeyType key) := by
  unfold PublicKeyAuthKeyHelper.keysOf
  rw [List.map_map]
  conv_rhs => rw [← List.zipIdx_map_fst 0 publicKeys, List.map_map]
  rfl

/-- The event's bitmap marks exactly the keys that signed. -/
def MarksSigners (event : KeyRotationToPublicKeyEvent) (sig : MultiEd25519Signature) : Prop :=
  ∀ index, index ∈ event.getVerifiedPublicKeyIndices ↔ index ∈ sig.publicKeyIndices.map (·.toNat)

/-- The helpers of an event and of a signature are the same, as far as the event
says who signed. -/
structure SamePaths (sdk : RestorationSdk) (event : KeyRotationToPublicKeyEvent)
    (sig : MultiEd25519Signature) (helper : PublicKeyAuthKeyHelper) : Prop where
  made : PublicKeyAuthKeyHelper.createHelperFromKeyRotationEvent sdk event = some (some helper)
  account : helper.accountPublicKey =
    (PublicKeyAuthKeyHelper.createHelperFromMultiEd25519Sig sig).accountPublicKey
  keys : helper.typedKeys =
    (PublicKeyAuthKeyHelper.createHelperFromMultiEd25519Sig sig).typedKeys
  used : MarksSigners event sig → helper.usedFlags =
    (PublicKeyAuthKeyHelper.createHelperFromMultiEd25519Sig sig).usedFlags

/-- An event that rotates to the keys and the threshold of a signature. -/
structure RotatesTo (event : KeyRotationToPublicKeyEvent) (sig : MultiEd25519Signature) :
    Prop where
  scheme : event.publicKeyScheme = 1
  bytes : event.publicKey = sig.publicKeys.flatten ++ [sig.threshold.toUInt8]

section

variable {sdk : RestorationSdk} {event : KeyRotationToPublicKeyEvent}
  {sig : MultiEd25519Signature}

/-- The helper of the event has the signature's keys and one more, which is the
threshold. -/
theorem helper_of_rotation (hevent : RotatesTo event sig)
    (hkeys : ∀ key ∈ sig.publicKeys, key.length = 32) :
    ∃ helper, PublicKeyAuthKeyHelper.createHelperFromKeyRotationEvent sdk event =
        some (some helper) ∧
      helper.accountPublicKey =
        (PublicKeyAuthKeyHelper.createHelperFromMultiEd25519Sig sig).accountPublicKey ∧
      helper.typedKeys =
        (PublicKeyAuthKeyHelper.createHelperFromMultiEd25519Sig sig).typedKeys ++
          [(hex0x [sig.threshold.toUInt8], "ed25519")] := by
  have hpieces : event.publicKey.toChunks 32 =
      sig.publicKeys ++ [[sig.threshold.toUInt8]] := by
    rw [hevent.bytes, toChunks_flatten_append (by decide) hkeys]
    rfl
  unfold PublicKeyAuthKeyHelper.createHelperFromKeyRotationEvent
  rw [hevent.scheme]
  refine ⟨_, rfl, ?_, ?_⟩
  · unfold PublicKeyAuthKeyHelper.createHelperFromMultiEd25519Sig
    rw [hevent.bytes]
  · unfold PublicKeyAuthKeyHelper.createHelperFromMultiEd25519Sig
    unfold PublicKeyAuthKeyHelper.typedKeys
    rw [typedKeys_keysOf, typedKeys_keysOf, hpieces, List.map_append]
    rfl

/-- **The two paths never agree**: for no keys, threshold and signers is the list
of keys from the event that of the signature. -/
theorem rotation_differs_from_signature (sdk : RestorationSdk)
    (event : KeyRotationToPublicKeyEvent) (sig : MultiEd25519Signature)
    (hkeys : ∀ key ∈ sig.publicKeys, key.length = 32) (hevent : RotatesTo event sig) :
    ¬ ∃ helper, SamePaths sdk event sig helper := by
  rintro ⟨helper, hsame⟩
  obtain ⟨helper', hmade, -, hlist⟩ : ∃ helper', _ = some (some helper') ∧ _ ∧ _ :=
    helper_of_rotation hevent hkeys
  obtain rfl := Option.some.inj (Option.some.inj (hsame.made.symm.trans hmade))
  have hlength := congrArg List.length (hlist.symm.trans hsame.keys)
  rw [List.length_append, List.length_singleton] at hlength
  exact Nat.succ_ne_self _ hlength

end

/-- Two keys, both of which have to sign. -/
def twoOfTwo : MultiEd25519Signature where
  publicKeys := [List.replicate 32 1, List.replicate 32 2]
  threshold := 2
  publicKeyIndices := [0, 1]

/-- The rotation to them, verified by both. -/
def twoOfTwoEvent : KeyRotationToPublicKeyEvent where
  newAuthKey := []
  oldAuthKey := []
  publicKey := twoOfTwo.publicKeys.flatten ++ [2]
  publicKeyScheme := 1
  verifiedPublicKeyBitMap := [0xc0, 0, 0, 0]

/-- A rotation to two keys. -/
theorem twoOfTwo_differs : ¬ ∃ helper, SamePaths plainSdk twoOfTwoEvent twoOfTwo helper :=
  rotation_differs_from_signature plainSdk twoOfTwoEvent twoOfTwo (by decide) ⟨rfl, rfl⟩

/-- The signature has two keys, the event a third one: the threshold. -/
theorem twoOfTwo_third_key :
    ((PublicKeyAuthKeyHelper.createHelperFromKeyRotationEvent plainSdk twoOfTwoEvent).bind
        fun helper => helper.map fun helper => helper.typedKeys.drop 2) =
      some [("0x02", "ed25519")] ∧
    (PublicKeyAuthKeyHelper.createHelperFromMultiEd25519Sig twoOfTwo).typedKeys.drop 2 = [] ∧
    MarksSigners twoOfTwoEvent twoOfTwo ∧
    ¬ ∃ helper, SamePaths plainSdk twoOfTwoEvent twoOfTwo helper := by
  refine ⟨by decide +kernel, by decide +kernel, ?_, ?_⟩
  · have hmarked : twoOfTwoEvent.getVerifiedPublicKeyIndices = [0, 1] := by decide
    intro index
    rw [hmarked]
    rfl
  · rintro ⟨helper, hsame⟩
    have hthird : ((PublicKeyAuthKeyHelper.createHelperFromKeyRotationEvent plainSdk
        twoOfTwoEvent).bind fun helper => helper.map fun helper => helper.typedKeys.length) =
        some 3 := by decide +kernel
    rw [hsame.made, Option.bind_some, Option.map_some, hsame.keys] at hthird
    exact absurd hthird (by decide +kernel)

end IndexerProcessors.AccountRestoration

import IndexerProcessors.AccountRestoration.MultiEd25519
import IndexerProcessors.Lib.Bcs

/-!
# Two ways to the keys of a multi key account

The public key of a multi key account is written out by hand from the signature of
a transaction, the keys as hexadecimal texts one after the other, and read with BCS
from the event of a key rotation. Six types of key have a number in the protobuf;
`AnyPublicKeyStruct`, which BCS reads, has five of them. A key of the sixth
type, `SlhDsaSha2128s`, is written without its length and not read at all.

`multiKey_round_trips_iff` — what the signature path writes is read back as the same
keys exactly if none of the keys is of that type.
-/

namespace IndexerProcessors.AccountRestoration

open IndexerProcessors.Lib
open IndexerProcessors.Lib.Bcs
open IndexerProcessors.WriteSet

/-! ## The structures in BCS -/

def KeylessPublicKey.codec : Codec KeylessPublicKey :=
  .record (.pair .string .bytes)
    ⟨fun p => ⟨p.1, p.2⟩, fun key => (key.issVal, key.idc), fun _ => rfl, fun _ => rfl⟩

def FederatedKeylessPublicKey.codec : Codec FederatedKeylessPublicKey :=
  .record (.pair (.fixed 32) KeylessPublicKey.codec)
    ⟨fun p => ⟨p.1, p.2⟩, fun key => (key.jwkAddr, key.pk), fun _ => rfl, fun _ => rfl⟩

namespace AnyPublicKeyStruct

/-- The number of the variant. -/
def number : AnyPublicKeyStruct → ℕ
  | ed25519 _ => 0
  | secp256k1Ecdsa _ => 1
  | secp256r1Ecdsa _ => 2
  | keyless _ => 3
  | federatedKeyless _ => 4

def codec : Codec AnyPublicKeyStruct :=
  .enum
    [.variant .bytes ed25519 fun | ed25519 key => some key | _ => none,
     .variant .bytes secp256k1Ecdsa fun | secp256k1Ecdsa key => some key | _ => none,
     .variant .bytes secp256r1Ecdsa fun | secp256r1Ecdsa key => some key | _ => none,
     .variant KeylessPublicKey.codec keyless fun | keyless key => some key | _ => none,
     .variant FederatedKeylessPublicKey.codec federatedKeyless fun
       | federatedKeyless key => some key | _ => none]
    number

end AnyPublicKeyStruct

def MultiKey.codec : Codec MultiKey :=
  .record (.pair (.seq AnyPublicKeyStruct.codec) .byte)
    ⟨fun p => ⟨p.1, p.2⟩, fun key => (key.publicKeys, key.signaturesRequired),
      fun _ => rfl, fun _ => rfl⟩

/-- The BCS functions are those of the standard encoding. -/
structure StandardBcs (sdk : RestorationSdk) : Prop where
  multiKey : ∀ bytes, sdk.bcsMultiKey bytes = MultiKey.codec.fromBytes bytes
  keyless : ∀ key, KeylessPublicKey.codec.Fits key →
    sdk.bcsKeyless key = KeylessPublicKey.codec.write key
  federatedKeyless : ∀ key, FederatedKeylessPublicKey.codec.Fits key →
    sdk.bcsFederatedKeyless key = FederatedKeylessPublicKey.codec.write key

/-! ## Keys as the stream has them -/

/-- The number of a type in the protobuf. -/
def protoNumber : AnyPublicKeyType → UInt8
  | .unspecified => 0
  | .ed25519 => 1
  | .secp256k1Ecdsa => 2
  | .secp256r1Ecdsa => 3
  | .keyless => 4
  | .federatedKeyless => 5
  | .slhDsaSha2128s => 6

/-- The bytes a key of a type may have. Nothing is asked of the type the structures
do not have. -/
def IsContent : AnyPublicKeyType → Bytes → Prop
  | .unspecified, _ => False
  | .ed25519, content => content.length = 32
  | .secp256k1Ecdsa, content => content.length = 65
  | .secp256r1Ecdsa, content => content.length = 65
  | .keyless, content =>
    ∃ key, KeylessPublicKey.codec.Fits key ∧ content = KeylessPublicKey.codec.write key
  | .federatedKeyless, content =>
    ∃ key, FederatedKeylessPublicKey.codec.Fits key ∧
      content = FederatedKeylessPublicKey.codec.write key
  | .slhDsaSha2128s, _ => True

/-- A public key of a specified type. -/
structure WellFormed (key : AnyPublicKey) : Prop where
  number : key.typeNumber = protoNumber key.type
  content : IsContent key.type key.publicKey

/-! ## The written key -/

/-- The length that is written before a key of a type. -/
def lengthByte : AnyPublicKeyType → Bytes
  | .ed25519 => [32]
  | .secp256k1Ecdsa => [65]
  | .secp256r1Ecdsa => [65]
  | _ => []

/-- The bytes of the text of a key. -/
def keyBytes (key : AnyPublicKey) : Bytes :=
  [key.typeNumber - 1] ++ lengthByte key.type ++ key.publicKey

/-- The bytes of the text of the account's public key. -/
def multiKeyBytes (sig : MultiKeySignature) : Bytes :=
  [sig.publicKeys.length.toUInt8] ++ (sig.publicKeys.flatMap keyBytes ++
    [sig.signaturesRequired.toUInt8])

theorem anyPublicKeyToSerializedString_eq (key : AnyPublicKey) :
    anyPublicKeyToSerializedString key = hexEncode (keyBytes key) := by
  unfold anyPublicKeyToSerializedString keyBytes
  rw [hexEncode_append, hexEncode_append]
  cases key.type <;> rfl

theorem keyBytes_of_number {type : AnyPublicKeyType} {number : ℕ}
    (h : protoNumber type - 1 = number.toUInt8) (content : Bytes) :
    keyBytes ⟨protoNumber type, type, content⟩ =
      [number.toUInt8] ++ lengthByte type ++ content := by
  unfold keyBytes
  rw [h]

theorem join_hexEncode {α : Type} (f : α → Bytes) (l : List α) :
    String.join (l.map fun a => hexEncode (f a)) = hexEncode (l.flatMap f) := by
  induction l with
  | nil => rfl
  | cons a l ih =>
    rw [List.map_cons, String.join_cons, ih, List.flatMap_cons, hexEncode_append]

/-- A byte has two digits. -/
theorem hex02_eq {n : UInt32} (h : n.toNat ≤ 255) : hex02 n = hexEncode [n.toUInt8] := by
  have hall : ∀ i : Fin 256, hex02 (UInt32.ofNat i) = hexEncode [(UInt32.ofNat i).toUInt8] := by
    decide +kernel
  have hn := hall ⟨n.toNat, Nat.lt_succ_of_le h⟩
  rwa [UInt32.ofNat_toNat] at hn

section

variable {sdk : RestorationSdk} {sig : MultiKeySignature} {helper : PublicKeyAuthKeyHelper}

/-- What the helper of a signature has. -/
theorem helper_of_sig (hrequired : sig.signaturesRequired.toNat ≤ 255)
    (h : PublicKeyAuthKeyHelper.createHelperFromMultiKeySig sig = some helper) :
    sig.publicKeys.length ≤ 16 ∧
    helper.accountPublicKey = hex0x (multiKeyBytes sig) ∧
    helper.accountPublicKey.utf8ByteSize ≤ maxAccountPublicKeyLength ∧
    helper.typedKeys =
      sig.publicKeys.map fun key => (hex0x key.publicKey, getAnyPublicKeyType key) := by
  have htext : "0x" ++ hexEncode [sig.publicKeys.length.toUInt8] ++
      String.join (sig.publicKeys.map anyPublicKeyToSerializedString) ++
        hex02 sig.signaturesRequired = hex0x (multiKeyBytes sig) := by
    simp only [funext anyPublicKeyToSerializedString_eq]
    rw [join_hexEncode, hex02_eq hrequired, String.append_assoc, String.append_assoc,
      ← hexEncode_append, ← hexEncode_append]
    rfl
  unfold PublicKeyAuthKeyHelper.createHelperFromMultiKeySig at h
  simp only [htext] at h
  split at h
  next => cases h
  next hcount =>
    split at h
    next => cases h
    next hlength =>
      obtain rfl := Option.some.inj h
      refine ⟨Nat.le_of_not_lt hcount, rfl, Nat.le_of_not_lt hlength, ?_⟩
      unfold PublicKeyAuthKeyHelper.typedKeys
      rw [typedKeys_keysOf]

/-! ## The key read back -/

/-- A key read from the bytes of a written one, as the rotation path names it. -/
structure ReadsAs (sdk : RestorationSdk) (key : AnyPublicKey) (read : AnyPublicKeyStruct) :
    Prop where
  fits : AnyPublicKeyStruct.codec.Fits read
  write : AnyPublicKeyStruct.codec.write read = keyBytes key
  text : read.toStringWithoutVariant sdk = hex0x key.publicKey
  type : read.getPublicKeyType = getAnyPublicKeyType key

/-- A variant that is a vector of bytes: the number, the length and the bytes. -/
theorem write_vector {number length : ℕ} {content : Bytes} (hnumber : number < 128)
    (hlength : length < 128) (h : content.length = length) :
    Codec.uleb128.write number ++ Codec.bytes.write content =
      [number.toUInt8] ++ [length.toUInt8] ++ content := by
  rw [Codec.write_bytes, Codec.write_uleb128 hnumber, h, Codec.write_uleb128 hlength,
    List.append_assoc]

theorem fits_vector {length : ℕ} {content : Bytes} (hlength : length < 128)
    (h : content.length = length) : Codec.bytes.Fits content :=
  Codec.fits_bytes.mpr ((h.trans_lt hlength).le.trans (by decide))

theorem number_lt (key : AnyPublicKeyStruct) : key.number < 128 := by
  cases key <;> exact of_decide_eq_true rfl

/-- Every key can be read, but one of the type that is missing. -/
theorem exists_readsAs (hbcs : StandardBcs sdk) {key : AnyPublicKey} (hkey : WellFormed key)
    (htype : key.type ≠ .slhDsaSha2128s) : ∃ read, ReadsAs sdk key read := by
  obtain ⟨typeNumber, type, content⟩ := key
  obtain ⟨hnumber, hcontent⟩ := hkey
  obtain rfl : typeNumber = protoNumber type := hnumber
  -- The number of the type tells the readers apart; the content has the length that the reader
  -- of its type expects.
  cases type with
  | unspecified => exact hcontent.elim
  | slhDsaSha2128s => exact absurd rfl htype
  | ed25519 =>
    have hlength : content.length = 32 := hcontent
    refine ⟨.ed25519 content, ⟨(number_lt _).trans (by decide), _, rfl, content, rfl, rfl,
      fits_vector (by decide) hlength⟩, ?_, rfl, rfl⟩
    rw [keyBytes_of_number (show _ = Nat.toUInt8 0 from rfl)]
    exact write_vector (number_lt _) (by decide) hlength
  | secp256k1Ecdsa =>
    have hlength : content.length = 65 := hcontent
    refine ⟨.secp256k1Ecdsa content, ⟨(number_lt _).trans (by decide), _, rfl, content, rfl, rfl,
      fits_vector (by decide) hlength⟩, ?_, rfl, rfl⟩
    rw [keyBytes_of_number (show _ = Nat.toUInt8 1 from rfl)]
    exact write_vector (number_lt _) (by decide) hlength
  | secp256r1Ecdsa =>
    have hlength : content.length = 65 := hcontent
    refine ⟨.secp256r1Ecdsa content, ⟨(number_lt _).trans (by decide), _, rfl, content, rfl, rfl,
      fits_vector (by decide) hlength⟩, ?_, rfl, rfl⟩
    rw [keyBytes_of_number (show _ = Nat.toUInt8 2 from rfl)]
    exact write_vector (number_lt _) (by decide) hlength
  | keyless =>
    obtain ⟨inner, hfits, rfl⟩ := hcontent
    refine ⟨.keyless inner, ⟨(number_lt _).trans (by decide), _, rfl, inner, rfl, rfl, hfits⟩, ?_,
      congrArg hex0x (hbcs.keyless inner hfits), rfl⟩
    rw [keyBytes_of_number (show _ = Nat.toUInt8 3 from rfl)]
    rfl
  | federatedKeyless =>
    obtain ⟨inner, hfits, rfl⟩ := hcontent
    refine ⟨.federatedKeyless inner,
      ⟨(number_lt _).trans (by decide), _, rfl, inner, rfl, rfl, hfits⟩, ?_,
      congrArg hex0x (hbcs.federatedKeyless inner hfits), rfl⟩
    rw [keyBytes_of_number (show _ = Nat.toUInt8 4 from rfl)]
    rfl

/-- The keys read from the bytes of written ones, one for one. -/
theorem exists_reads (hbcs : StandardBcs sdk) {keys : List AnyPublicKey}
    (hkeys : ∀ key ∈ keys, WellFormed key) (htypes : ∀ key ∈ keys, key.type ≠ .slhDsaSha2128s) :
    ∃ reads : List AnyPublicKeyStruct,
      reads.length = keys.length ∧
      (∀ read ∈ reads, AnyPublicKeyStruct.codec.Fits read) ∧
      reads.flatMap AnyPublicKeyStruct.codec.write = keys.flatMap keyBytes ∧
      (reads.map fun read => (read.toStringWithoutVariant sdk, read.getPublicKeyType)) =
        keys.map fun key => (hex0x key.publicKey, getAnyPublicKeyType key) := by
  induction keys with
  | nil => exact ⟨[], rfl, by simp, rfl, rfl⟩
  | cons key keys ih =>
    rw [List.forall_mem_cons] at hkeys htypes
    obtain ⟨read, hread⟩ := exists_readsAs hbcs hkeys.1 htypes.1
    obtain ⟨reads, hlength, hfits, hwrite, hnames⟩ := ih hkeys.2 htypes.2
    refine ⟨read :: reads, congrArg (· + 1) hlength,
      List.forall_mem_cons.mpr ⟨hread.fits, hfits⟩, ?_, ?_⟩
    · rw [List.flatMap_cons, List.flatMap_cons, hread.write, hwrite]
    · rw [List.map_cons, List.map_cons, hread.text, hread.type, hnames]

/-- Without a key of the missing type the bytes are read as the keys. -/
theorem fromBytes_multiKeyBytes (hbcs : StandardBcs sdk)
    (hkeys : ∀ key ∈ sig.publicKeys, WellFormed key) (hcount : sig.publicKeys.length ≤ 16)
    (htypes : ∀ key ∈ sig.publicKeys, key.type ≠ .slhDsaSha2128s) :
    ∃ multiKey, MultiKey.codec.fromBytes (multiKeyBytes sig) = some multiKey ∧
      (multiKey.publicKeys.map fun read =>
          (read.toStringWithoutVariant sdk, read.getPublicKeyType)) =
        sig.publicKeys.map fun key => (hex0x key.publicKey, getAnyPublicKeyType key) := by
  obtain ⟨reads, hlength, hfits, hwrite, hnames⟩ := exists_reads hbcs hkeys htypes
  have hbytes : MultiKey.codec.write ⟨reads, sig.signaturesRequired.toUInt8⟩ =
      multiKeyBytes sig := by
    show (Codec.uleb128.write reads.length ++
      reads.flatMap AnyPublicKeyStruct.codec.write) ++ [sig.signaturesRequired.toUInt8] = _
    rw [hwrite, hlength, Codec.write_uleb128 (by omega), List.append_assoc]
    rfl
  refine ⟨⟨reads, sig.signaturesRequired.toUInt8⟩, ?_, hnames⟩
  rw [← hbytes]
  refine MultiKey.codec.fromBytes_write ⟨⟨?_, hfits⟩, trivial⟩
  show reads.length ≤ Codec.maxSequenceLength
  exact le_trans (hlength.le.trans hcount) (by decide)

/-- The number of the missing type is no variant. -/
theorem read_slhDsa {key : AnyPublicKey} (hkey : WellFormed key)
    (htype : key.type = .slhDsaSha2128s) (rest : Bytes) :
    AnyPublicKeyStruct.codec.read (keyBytes key ++ rest) = none := by
  unfold keyBytes
  rw [hkey.number, htype]
  exact Codec.read_enum_eq_none (by decide) rfl _

/-- With a key of the missing type the bytes are not read: the reading gets as far as
the first such key. -/
theorem fromBytes_multiKeyBytes_eq_none (hbcs : StandardBcs sdk)
    (hkeys : ∀ key ∈ sig.publicKeys, WellFormed key) (hcount : sig.publicKeys.length ≤ 16)
    {key : AnyPublicKey} (hkey : key ∈ sig.publicKeys) (htype : key.type = .slhDsaSha2128s) :
    MultiKey.codec.fromBytes (multiKeyBytes sig) = none := by
  have hsome : (sig.publicKeys.find? fun key => key.type = .slhDsaSha2128s).isSome :=
    List.find?_isSome.mpr ⟨key, hkey, decide_eq_true htype⟩
  obtain ⟨first, hfirst⟩ := Option.isSome_iff_exists.mp hsome
  obtain ⟨hfirstType, before, after, hsplit, hbefore⟩ := List.find?_eq_some_iff_append.mp hfirst
  have hmem (key : AnyPublicKey) (h : key ∈ before ++ first :: after) : WellFormed key :=
    hkeys key (hsplit ▸ h)
  have hfirstWell := hmem first (List.mem_append_right _ List.mem_cons_self)
  obtain ⟨reads, hlength, hfits, hwrite, -⟩ := exists_reads hbcs
    (fun key h => hmem key (List.mem_append_left _ h))
    (fun key h => by simpa using hbefore key h)
  have hheader (rest : Bytes) : Codec.uleb128.read
      ([sig.publicKeys.length.toUInt8] ++ rest) =
        some (reads.length + (after.length + 1), rest) := by
    have hnumber : sig.publicKeys.length.toUInt8.toNat = sig.publicKeys.length := by
      rw [Nat.toUInt8_eq, UInt8.toNat_ofNat']
      omega
    have hcounted : reads.length + (after.length + 1) = sig.publicKeys.length := by
      rw [hsplit, List.length_append, List.length_cons, hlength]
    rw [List.singleton_append, Codec.read_uleb128_cons (by omega), hnumber, hcounted]
  have hseq : (Codec.seq AnyPublicKeyStruct.codec).read (multiKeyBytes sig) = none := by
    unfold multiKeyBytes
    rw [hsplit, List.flatMap_append, List.flatMap_cons, ← hwrite, List.append_assoc,
      List.append_assoc, ← hsplit]
    exact Codec.read_seq_eq_none _ hfits hheader
      (read_slhDsa hfirstWell (of_decide_eq_true hfirstType) _)
  refine MultiKey.codec.fromBytes_eq_none ?_
  show (((Codec.seq AnyPublicKeyStruct.codec).read (multiKeyBytes sig)).bind _).map _ = none
  rw [hseq]
  rfl

/-! ## The two paths -/

/-- The bytes of a helper's account key give, in every rotation to a multi key, a
helper with the same keys and the same account key. -/
def RoundTrips (sdk : RestorationSdk) (helper : PublicKeyAuthKeyHelper) : Prop :=
  ∃ bytes, bytesFromHexWith0x helper.accountPublicKey = some bytes ∧
    ∀ event : KeyRotationToPublicKeyEvent, event.publicKeyScheme = 3 → event.publicKey = bytes →
      ∃ helper', PublicKeyAuthKeyHelper.createHelperFromKeyRotationEvent sdk event =
          some (some helper') ∧
        helper'.typedKeys = helper.typedKeys ∧
        helper'.accountPublicKey = helper.accountPublicKey

/-- A rotation to bytes that are not too long gives what BCS reads from them. -/
theorem helper_of_multiKey_rotation {event : KeyRotationToPublicKeyEvent}
    (hscheme : event.publicKeyScheme = 3)
    (hlength : (hex0x event.publicKey).utf8ByteSize ≤ maxAccountPublicKeyLength) :
    PublicKeyAuthKeyHelper.createHelperFromKeyRotationEvent sdk event =
      (sdk.bcsMultiKey event.publicKey).map fun multiKey => some
        { keys := PublicKeyAuthKeyHelper.keysOf (AnyPublicKeyStruct.toStringWithoutVariant sdk)
            AnyPublicKeyStruct.getPublicKeyType event.getVerifiedPublicKeyIndices
            multiKey.publicKeys
          accountPublicKey := hex0x event.publicKey
          signatureType := "multi_key_signature" } := by
  unfold PublicKeyAuthKeyHelper.createHelperFromKeyRotationEvent
  rw [hscheme]
  exact if_neg (Nat.not_lt.mpr hlength)

end

/-- **The signature's text of a multi key is read back as its keys** exactly if none
of the keys is an SLH-DSA key. -/
theorem multiKey_round_trips_iff (sdk : RestorationSdk) (hbcs : StandardBcs sdk)
    (sig : MultiKeySignature) (hkeys : ∀ key ∈ sig.publicKeys, WellFormed key)
    (hrequired : sig.signaturesRequired.toNat ≤ 255) {helper : PublicKeyAuthKeyHelper}
    (h : PublicKeyAuthKeyHelper.createHelperFromMultiKeySig sig = some helper) :
    RoundTrips sdk helper ↔ ∀ key ∈ sig.publicKeys, key.type ≠ .slhDsaSha2128s := by
  obtain ⟨hcount, haccount, hlength, htyped⟩ := helper_of_sig hrequired h
  have hbytes : bytesFromHexWith0x helper.accountPublicKey = some (multiKeyBytes sig) := by
    rw [haccount, bytesFromHexWith0x_hex0x]
  constructor
  · rintro ⟨bytes, hread, hround⟩ key hkey htype
    obtain rfl := Option.some.inj (hbytes.symm.trans hread)
    obtain ⟨helper', hmade, -, -⟩ := hround ⟨[], [], multiKeyBytes sig, 3, []⟩ rfl rfl
    rw [helper_of_multiKey_rotation rfl (haccount ▸ hlength), hbcs.multiKey,
      fromBytes_multiKeyBytes_eq_none hbcs hkeys hcount hkey htype] at hmade
    cases hmade
  · intro htypes
    obtain ⟨multiKey, hmultiKey, hnames⟩ := fromBytes_multiKeyBytes hbcs hkeys hcount htypes
    refine ⟨multiKeyBytes sig, hbytes, ?_⟩
    rintro event hscheme hevent
    rw [helper_of_multiKey_rotation hscheme (by rw [hevent, ← haccount]; exact hlength), hevent,
      hbcs.multiKey, hmultiKey]
    refine ⟨_, rfl, ?_, haccount.symm⟩
    rw [htyped, ← hnames]
    unfold PublicKeyAuthKeyHelper.typedKeys
    rw [typedKeys_keysOf]

/-- BCS as it is, the rest plain. -/
def bcsSdk : RestorationSdk :=
  { plainSdk with
    bcsMultiKey := MultiKey.codec.fromBytes
    bcsKeyless := KeylessPublicKey.codec.write
    bcsFederatedKeyless := FederatedKeylessPublicKey.codec.write }

theorem standardBcs_bcsSdk : StandardBcs bcsSdk :=
  ⟨fun _ => rfl, fun _ _ => rfl, fun _ _ => rfl⟩

/-- A keyless key, by its bytes. -/
def keylessKey : AnyPublicKey where
  typeNumber := 4
  type := .keyless
  publicKey := KeylessPublicKey.codec.write ⟨"issuer", List.replicate 32 7⟩

/-- An ed25519 key and the given one, the first of which signed. -/
def signedWith (key : AnyPublicKey) : MultiKeySignature where
  publicKeys := [⟨1, .ed25519, List.replicate 32 1⟩, key]
  signatures := [0]
  signaturesRequired := 1

/-- An ed25519 key and a keyless one. -/
theorem keyless_round_trips :
    ∃ helper, PublicKeyAuthKeyHelper.createHelperFromMultiKeySig (signedWith keylessKey) =
      some helper ∧ RoundTrips bcsSdk helper := by
  obtain ⟨helper, hhelper⟩ := Option.isSome_iff_exists.mp (show
    (PublicKeyAuthKeyHelper.createHelperFromMultiKeySig (signedWith keylessKey)).isSome from by
      decide +kernel)
  refine ⟨helper, hhelper, (multiKey_round_trips_iff bcsSdk standardBcs_bcsSdk
    (signedWith keylessKey) ?_ (by decide) hhelper).mpr (by decide)⟩
  intro key hkey
  rcases List.mem_pair.mp hkey with rfl | rfl
  · exact ⟨rfl, rfl⟩
  · refine ⟨rfl, ⟨"issuer", List.replicate 32 7⟩, ⟨?_, ?_⟩, rfl⟩
    · exact Codec.fits_bytes.mpr (by decide +kernel)
    · exact Codec.fits_bytes.mpr (by decide +kernel)

/-- A key of the sixth type. -/
def slhDsaKey : AnyPublicKey where
  typeNumber := 6
  type := .slhDsaSha2128s
  publicKey := List.replicate 32 9

/-- The signature of a multi key account with an SLH-DSA key has a helper, and the
rotation to the same account is a panic. -/
theorem slhDsa_does_not_round_trip :
    (∀ key ∈ (signedWith slhDsaKey).publicKeys, WellFormed key) ∧
    ∃ helper, PublicKeyAuthKeyHelper.createHelperFromMultiKeySig (signedWith slhDsaKey) =
        some helper ∧
      PublicKeyAuthKeyHelper.createHelperFromKeyRotationEvent bcsSdk
        ⟨[], [], multiKeyBytes (signedWith slhDsaKey), 3, []⟩ = none ∧
      ¬ RoundTrips bcsSdk helper := by
  obtain ⟨helper, hhelper⟩ := Option.isSome_iff_exists.mp (show
    (PublicKeyAuthKeyHelper.createHelperFromMultiKeySig (signedWith slhDsaKey)).isSome from by
      decide +kernel)
  have hpanic : PublicKeyAuthKeyHelper.createHelperFromKeyRotationEvent bcsSdk
      ⟨[], [], multiKeyBytes (signedWith slhDsaKey), 3, []⟩ = none := by decide +kernel
  refine ⟨?_, helper, hhelper, hpanic, ?_⟩
  · intro key hkey
    rcases List.mem_pair.mp hkey with rfl | rfl
    · exact ⟨rfl, rfl⟩
    · exact ⟨rfl, trivial⟩
  · rintro ⟨bytes, hread, hround⟩
    rw [(helper_of_sig (by decide) hhelper).2.1, bytesFromHexWith0x_hex0x] at hread
    obtain rfl := Option.some.inj hread
    obtain ⟨helper', hmade, -⟩ := hround ⟨[], [], multiKeyBytes (signedWith slhDsaKey), 3, []⟩
      rfl rfl
    rw [hpanic] at hmade
    cases hmade

end IndexerProcessors.AccountRestoration

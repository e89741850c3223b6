import Lime.Bytes

/-!
# Signed and one-time prekeys

`SignedPreKey` and `OneTimePreKey` of `lime_x3dh.hpp` (the specializations for curves
without a KEM). Both hold an `Xpair`, the Diffie-Hellman key pair, and a 32-bit Id; the
signed prekey also holds the signature of its public key. Each has two codecs:

* the storage codec, `serialize` and the constructor from a buffer read in the local
  storage (`ofStorage`), shared through `Xpair.serialize` and `Xpair.ofStorage`;
* the public codec: `serializePublic`, the upload format `publicKey || signature || Id`,
  and the constructor from an iterator into a bundle received from the key server
  (`ofBundle`), which reads the layout the server sends. For the one-time prekey the two
  are the same, `publicKey || Id`. For the signed prekey the server sends
  `publicKey || Id || signature` (`SignedPreKey.bundleEntry`): `lime_update_SPk_test`
  checks that the signed prekey Id a peer's X3DH init takes from the fetched bundle is the
  owner's active one.

Results:

* `preKey_storage_codec_bijective`: for both key types the storage codec is a bijection
  between key pairs and buffers of `serializedSize` bytes, whatever the Id.
* `OneTimePreKey.ofBundle_serializePublic_append`: the one-time prekey parser reads back the
  public key and the Id its serializer wrote.
* `oneTimePreKey_publicSize_mismatch`: `OneTimePreKey::serializedPublicSize()` counts a
  signature that `serializePublic` never writes (the header comment describes the layout
  as `publicKey || Id`), so on `c25519` the declared size is 100 bytes while the encoder
  writes 36.
* `SignedPreKey.ofBundle_bundleEntry_append`: the signed prekey parser reads back the
  public key, the signature and the Id of an entry laid out as the server sends it.
* `SignedPreKey.ofBundle_serializePublic`: on the upload layout the same parser takes the
  first four bytes of the signature for the Id.
-/

namespace Lime

variable {c : Curve}

/-- `Xpair<Curve>`: a Diffie-Hellman key pair. -/
structure Xpair (c : Curve) where
  publicKey : SBuffer c.xPublicSize
  privateKey : SBuffer c.xPrivateSize
  deriving DecidableEq

namespace Xpair

/-- The storage form of a key pair: the public key, then the private key. -/
def serialize (p : Xpair c) : SBuffer (c.xPublicSize + c.xPrivateSize) :=
  ⟨p.publicKey.bytes ++ p.privateKey.bytes, by simp [p.publicKey.length_eq, p.privateKey.length_eq]⟩

/-- A key pair read from its storage form: `publicKey() = b.cbegin()` and
`privateKey() = b.cbegin() + X<Curve, publicKey>::ssize()`. -/
def ofStorage (b : SBuffer (c.xPublicSize + c.xPrivateSize)) : Xpair c :=
  ⟨b.take c.xPublicSize (by omega), b.slice c.xPublicSize c.xPrivateSize le_rfl⟩

/-- A key pair whose private half no constructor writes: the one parsed from a bundle. -/
def ofPublic (publicKey : SBuffer c.xPublicSize) : Xpair c := ⟨publicKey, SBuffer.zero _⟩

theorem ofStorage_serialize (p : Xpair c) : ofStorage p.serialize = p := by
  obtain ⟨⟨pub, hpub⟩, ⟨priv, hpriv⟩⟩ := p
  simp only [ofStorage, serialize, mk.injEq]
  constructor <;> apply SBuffer.ext_bytes
  · simp [← hpub]
  · simp [← hpub, ← hpriv]

theorem serialize_ofStorage (b : SBuffer (c.xPublicSize + c.xPrivateSize)) :
    (ofStorage b).serialize = b := by
  apply SBuffer.ext_bytes
  have hlen := b.length_eq
  simp only [serialize, ofStorage, SBuffer.take_bytes, SBuffer.slice_bytes]
  rw [List.take_of_length_le (l := b.bytes.drop c.xPublicSize) (by simp; omega),
    List.take_append_drop]

end Xpair

/-- `SignedPreKey<Curve>`: the key pair `m_SPk`, its signature `m_Sig` and its Id `m_Id`. -/
structure SignedPreKey (c : Curve) where
  SPk : Xpair c
  Sig : SBuffer c.dsaSignatureSize
  id : UInt32
  deriving DecidableEq

/-- `OneTimePreKey<Curve>`: the key pair `m_OPk` and its Id `m_Id`. -/
structure OneTimePreKey (c : Curve) where
  OPk : Xpair c
  id : UInt32
  deriving DecidableEq

namespace SignedPreKey

/-- `serializedPublicSize()`: public key, signature and a 4-byte Id. -/
def serializedPublicSize (c : Curve) : Nat := c.xPublicSize + c.dsaSignatureSize + 4

/-- `serializedSize()`: public key and private key. -/
def serializedSize (c : Curve) : Nat := c.xPublicSize + c.xPrivateSize

/-- `serialize()`: the key pair, to store in the local storage; the Id is stored apart. -/
def serialize (k : SignedPreKey c) : SBuffer (serializedSize c) := k.SPk.serialize

/-- The constructor from a buffer read in the local storage and the Id stored beside it;
the signature is left unset. -/
def ofStorage (SPk : SBuffer (serializedSize c)) (Id : UInt32) : SignedPreKey c :=
  ⟨Xpair.ofStorage SPk, SBuffer.zero _, Id⟩

/-- `serializePublic()`: public key, signature, then the Id big-endian, to publish. -/
def serializePublic (k : SignedPreKey c) : List UInt8 :=
  k.SPk.publicKey.bytes ++ k.Sig.bytes ++ u32ToBytesBE k.id

/-- The constructor from an iterator into a received bundle: the public key, then the Id
read at `index = X::ssize()`, then the signature read at `index + 4`. -/
def ofBundle (s : ConstIterator) : Option (SignedPreKey c) := do
  let publicKey ← s.copyN c.xPublicSize
  let index := c.xPublicSize
  let Id ← s.readU32BE index
  let index := index + 4
  let Sig ← (s + index).copyN c.dsaSignatureSize
  pure ⟨Xpair.ofPublic publicKey, Sig, Id⟩

/-- The signed prekey's entry in a bundle as the key server sends it: the public key, the
Id big-endian, then the signature. It is the layout `ofBundle` reads, and differs from the
upload format `serializePublic`, which puts the signature before the Id. -/
def bundleEntry (k : SignedPreKey c) : List UInt8 :=
  k.SPk.publicKey.bytes ++ u32ToBytesBE k.id ++ k.Sig.bytes

theorem serializePublic_length (k : SignedPreKey c) :
    k.serializePublic.length = serializedPublicSize c := by
  simp only [serializePublic, serializedPublicSize, List.length_append, length_u32ToBytesBE,
    k.SPk.publicKey.length_eq, k.Sig.length_eq]

theorem bundleEntry_length (k : SignedPreKey c) : k.bundleEntry.length = serializedPublicSize c := by
  simp only [bundleEntry, serializedPublicSize, List.length_append, length_u32ToBytesBE,
    k.SPk.publicKey.length_eq, k.Sig.length_eq]
  omega

/-- The signed prekey parser reads back the public key, the signature and the Id of an
entry laid out as the key server sends it, whatever follows the entry. -/
theorem ofBundle_bundleEntry_append (k : SignedPreKey c) (rest : List UInt8) :
    ofBundle (ConstIterator.cbegin (k.bundleEntry ++ rest)) =
      some ⟨Xpair.ofPublic k.SPk.publicKey, k.Sig, k.id⟩ := by
  have hPub := ConstIterator.copyN_cbegin_append k.SPk.publicKey
    (u32ToBytesBE k.id ++ k.Sig.bytes ++ rest)
  have hId := ConstIterator.readU32BE_cbegin k.SPk.publicKey.bytes (k.Sig.bytes ++ rest) k.id
  rw [k.SPk.publicKey.length_eq] at hId
  have hpre : (k.SPk.publicKey.bytes ++ u32ToBytesBE k.id).length = c.xPublicSize + 4 := by
    simp [k.SPk.publicKey.length_eq]
  have hSig : (ConstIterator.cbegin (k.bundleEntry ++ rest) + (c.xPublicSize + 4)).copyN
      c.dsaSignatureSize = some k.Sig := by
    rw [ConstIterator.cbegin_add, bundleEntry, List.append_assoc, List.drop_left' hpre]
    exact ConstIterator.copyN_cbegin_append _ _
  simp only [ofBundle, bundleEntry, List.append_assoc] at hPub hId hSig ⊢
  simp only [hPub, hId, hSig]
  rfl

theorem sigSize_le_length_drop (k : SignedPreKey c) (rest : List UInt8) :
    c.dsaSignatureSize ≤ ((k.Sig.bytes ++ (u32ToBytesBE k.id ++ rest)).drop 4).length := by
  simp [k.Sig.length_eq]; omega

/-- What the signed prekey parser makes of the upload layout `serializePublic` writes,
which is not the layout it reads: the public key, then as Id the first four bytes of the
signature, then as signature the signature's remaining bytes followed by the Id's bytes
and whatever comes next. -/
theorem ofBundle_serializePublic (k : SignedPreKey c) (rest : List UInt8)
    (hSig : 4 ≤ c.dsaSignatureSize) :
    ofBundle (ConstIterator.cbegin (k.serializePublic ++ rest)) =
      some ⟨Xpair.ofPublic k.SPk.publicKey,
        ⟨((k.Sig.bytes ++ (u32ToBytesBE k.id ++ rest)).drop 4).take c.dsaSignatureSize,
          List.length_take_of_le (sigSize_le_length_drop k rest)⟩,
        u32OfBytesBE (k.Sig.bytes.getD 0 0) (k.Sig.bytes.getD 1 0) (k.Sig.bytes.getD 2 0)
          (k.Sig.bytes.getD 3 0)⟩ := by
  have hlen := k.Sig.length_eq
  have hPub := ConstIterator.copyN_cbegin_append k.SPk.publicKey
    (k.Sig.bytes ++ u32ToBytesBE k.id ++ rest)
  have hId : (ConstIterator.cbegin (k.serializePublic ++ rest)).readU32BE c.xPublicSize =
      some (u32OfBytesBE (k.Sig.bytes.getD 0 0) (k.Sig.bytes.getD 1 0) (k.Sig.bytes.getD 2 0)
        (k.Sig.bytes.getD 3 0)) := by
    rw [ConstIterator.readU32BE_add, ConstIterator.cbegin_add, serializePublic,
      List.append_assoc, List.append_assoc, List.drop_left' k.SPk.publicKey.length_eq,
      ConstIterator.readU32BE_cbegin_zero (by simp; omega),
      List.getD_append _ _ _ 0 (by omega), List.getD_append _ _ _ 1 (by omega),
      List.getD_append _ _ _ 2 (by omega), List.getD_append _ _ _ 3 (by omega)]
  have hSig' : (ConstIterator.cbegin (k.serializePublic ++ rest) + (c.xPublicSize + 4)).copyN
      c.dsaSignatureSize = some ⟨((k.Sig.bytes ++ (u32ToBytesBE k.id ++ rest)).drop 4).take
        c.dsaSignatureSize, List.length_take_of_le (sigSize_le_length_drop k rest)⟩ := by
    rw [ConstIterator.cbegin_add, serializePublic, ← List.drop_drop, List.append_assoc,
      List.append_assoc, List.drop_left' k.SPk.publicKey.length_eq]
    exact ConstIterator.copyN_cbegin_of_le (by simp; omega)
  simp only [ofBundle, serializePublic, List.append_assoc] at hId hSig' hPub ⊢
  simp only [hPub, hId, hSig']
  rfl

end SignedPreKey

namespace OneTimePreKey

/-- `serializedPublicSize()` as the header defines it: public key, a signature and a
4-byte Id. -/
def serializedPublicSize (c : Curve) : Nat := c.xPublicSize + c.dsaSignatureSize + 4

/-- `serializedSize()`: public key and private key. -/
def serializedSize (c : Curve) : Nat := c.xPublicSize + c.xPrivateSize

/-- `serialize()`: the key pair, to store in the local storage; the Id is stored apart. -/
def serialize (k : OneTimePreKey c) : SBuffer (serializedSize c) := k.OPk.serialize

/-- The constructor from a buffer read in the local storage and the Id stored beside it. -/
def ofStorage (OPk : SBuffer (serializedSize c)) (Id : UInt32) : OneTimePreKey c :=
  ⟨Xpair.ofStorage OPk, Id⟩

/-- `serializePublic()`: public key, then the Id big-endian, to publish. -/
def serializePublic (k : OneTimePreKey c) : List UInt8 :=
  k.OPk.publicKey.bytes ++ u32ToBytesBE k.id

/-- The constructor from an iterator into a received bundle: the public key, then the Id
read at `index = X::ssize()`. -/
def ofBundle (s : ConstIterator) : Option (OneTimePreKey c) := do
  let publicKey ← s.copyN c.xPublicSize
  let index := c.xPublicSize
  let Id ← s.readU32BE index
  pure ⟨Xpair.ofPublic publicKey, Id⟩

theorem serializePublic_length (k : OneTimePreKey c) :
    k.serializePublic.length = c.xPublicSize + 4 := by
  simp [serializePublic, k.OPk.publicKey.length_eq]

/-- The one-time prekey parser reads back the public key and the Id of a serialized key,
whatever follows it. -/
theorem ofBundle_serializePublic_append (k : OneTimePreKey c) (rest : List UInt8) :
    ofBundle (ConstIterator.cbegin (k.serializePublic ++ rest)) =
      some ⟨Xpair.ofPublic k.OPk.publicKey, k.id⟩ := by
  have hId := ConstIterator.readU32BE_cbegin k.OPk.publicKey.bytes rest k.id
  rw [k.OPk.publicKey.length_eq] at hId
  have hPub := ConstIterator.copyN_cbegin_append k.OPk.publicKey (u32ToBytesBE k.id ++ rest)
  rw [← List.append_assoc] at hPub
  simp only [ofBundle, serializePublic, hPub, hId]
  rfl

end OneTimePreKey

/-- The storage codec of both prekey types is a bijection: a key rebuilt from its
serialized pair and any Id has the same key pair and that Id, and serializing a key built
from any buffer gives the buffer back. -/
theorem preKey_storage_codec_bijective (c : Curve) :
    (∀ (k : SignedPreKey c) (Id : UInt32),
      (SignedPreKey.ofStorage k.serialize Id).SPk = k.SPk ∧
        (SignedPreKey.ofStorage k.serialize Id).id = Id) ∧
    (∀ (b : SBuffer (SignedPreKey.serializedSize c)) (Id : UInt32),
      (SignedPreKey.ofStorage b Id).serialize = b) ∧
    (∀ (k : OneTimePreKey c) (Id : UInt32),
      (OneTimePreKey.ofStorage k.serialize Id).OPk = k.OPk ∧
        (OneTimePreKey.ofStorage k.serialize Id).id = Id) ∧
    (∀ (b : SBuffer (OneTimePreKey.serializedSize c)) (Id : UInt32),
      (OneTimePreKey.ofStorage b Id).serialize = b) :=
  ⟨fun k _ => ⟨Xpair.ofStorage_serialize k.SPk, rfl⟩, fun b _ => Xpair.serialize_ofStorage b,
    fun k _ => ⟨Xpair.ofStorage_serialize k.OPk, rfl⟩, fun b _ => Xpair.serialize_ofStorage b⟩

/-- On `c25519` a serialized one-time prekey is 36 bytes long while
`OneTimePreKey::serializedPublicSize()` declares 100. -/
theorem oneTimePreKey_publicSize_mismatch (k : OneTimePreKey C255) :
    k.serializePublic.length = 36 ∧ OneTimePreKey.serializedPublicSize C255 = 100 :=
  ⟨k.serializePublic_length, rfl⟩

end Lime

import Lime.X3DH.PreKey

/-!
# Peer key bundles

`X3DH_peerBundle` of `lime_x3dh_protocol.hpp`: the identity key, signed prekey and
optional one-time prekey of a peer device, parsed from an iterator into the key server's
response. The caller checks only that `ssize(haveOPk)` bytes remain before it calls the
parser, so the parser must stay within them.

* `X3DHPeerBundle.ofBundle_congr`: the parser reads no offset at or past `ssize`; two
  iterators that agree below `ssize` give the same result.
* `peerBundle_reads_within_ssize`: with bounds-checked reads, no access fails on a vector
  of exactly `ssize` bytes, and vectors that agree on their first `ssize` bytes parse to
  the same bundle.
* `X3DHPeerBundle.ofBundle_append`: on an identity key, a signed prekey entry and a
  one-time prekey entry, the parser recovers the identity key, the one-time prekey, its Id
  and the flag, and hands the signed prekey entry to `SignedPreKey.ofBundle`.
* `peerBundle_codec_roundtrip`: on a bundle laid out as the key server sends it
  (`peerBundleBytes`, the signed prekey's Id before its signature), every field comes back,
  for every curve and every key.
* `peerBundle_spk_id_misread`: the upload layout `Ik || serializePublic()` is not what the
  parser receives; on it the Id read is the signature's first four bytes, so a key with
  Id `1` and an all-zero signature parses to Id `0`.
-/

namespace Lime

variable {c : Curve}

/-- `X3DHKeyBundleFlag`: whether a bundle holds a one-time prekey, or is empty. -/
inductive X3DHKeyBundleFlag where
  | noOPk
  | OPk
  | noBundle
  deriving DecidableEq, Repr

/-- `X3DH_peerBundle<Curve>`. -/
structure X3DHPeerBundle (c : Curve) where
  deviceId : String
  Ik : SBuffer c.dsaPublicSize
  SPk : SignedPreKey c
  bundleFlag : X3DHKeyBundleFlag
  OPk : SBuffer c.xPublicSize
  OPk_id : UInt32
  deriving DecidableEq

namespace X3DHPeerBundle

/-- `ssize(haveOPk)`: identity key, signed prekey entry, and the one-time prekey entry
when there is one. -/
def ssize (c : Curve) (haveOPk : Bool) : Nat :=
  c.dsaPublicSize + c.xPublicSize + c.dsaSignatureSize + 4 +
    (if haveOPk then c.xPublicSize + 4 else 0)

/-- The constructor from an iterator to the bundle's first byte. Without a one-time
prekey the constructor leaves `OPk` and `OPk_id` out of its initializer list, so the C++
object holds indeterminate values there; the model sets them to zero, a choice, and any
equality of those two fields between bundles without one-time prekey holds by it. -/
def ofBundle (deviceId : String) (bundle : ConstIterator) (haveOPk : Bool) :
    Option (X3DHPeerBundle c) := do
  let Ik ← bundle.copyN c.dsaPublicSize
  let index := c.dsaPublicSize
  let SPk ← SignedPreKey.ofBundle (bundle + index)
  let index := index + SignedPreKey.serializedPublicSize c
  if haveOPk then
    let OPk ← (bundle + index).copyN c.xPublicSize
    let index := index + c.xPublicSize
    let OPk_id ← bundle.readU32BE index
    pure ⟨deviceId, Ik, SPk, .OPk, OPk, OPk_id⟩
  else
    pure ⟨deviceId, Ik, SPk, .noOPk, SBuffer.zero _, 0⟩

theorem ssize_true (c : Curve) :
    ssize c true = c.dsaPublicSize + SignedPreKey.serializedPublicSize c + (c.xPublicSize + 4) := by
  simp [ssize, SignedPreKey.serializedPublicSize]; omega

end X3DHPeerBundle

/-! ## Reads stay below `ssize` -/

theorem SignedPreKey.ofBundle_congr {s t : ConstIterator}
    (h : ∀ i < SignedPreKey.serializedPublicSize c, s.get i = t.get i) :
    (SignedPreKey.ofBundle s : Option (SignedPreKey c)) = SignedPreKey.ofBundle t := by
  simp only [SignedPreKey.serializedPublicSize] at h
  have hPub : s.copyN c.xPublicSize = t.copyN c.xPublicSize :=
    ConstIterator.copyN_congr fun i hi => h i (by omega)
  have hId : s.readU32BE c.xPublicSize = t.readU32BE c.xPublicSize :=
    ConstIterator.readU32BE_congr fun i hi => h i (by omega)
  have hSig : (s + (c.xPublicSize + 4)).copyN c.dsaSignatureSize =
      (t + (c.xPublicSize + 4)).copyN c.dsaSignatureSize :=
    ConstIterator.copyN_congr fun i hi => h _ (by omega)
  simp only [SignedPreKey.ofBundle, hPub, hId, hSig]

theorem X3DHPeerBundle.ofBundle_congr {deviceId : String} {haveOPk : Bool}
    {s t : ConstIterator} (h : ∀ i < ssize c haveOPk, s.get i = t.get i) :
    (ofBundle deviceId s haveOPk : Option (X3DHPeerBundle c)) = ofBundle deviceId t haveOPk := by
  have hlt : ∀ i, i < c.dsaPublicSize + SignedPreKey.serializedPublicSize c →
      s.get i = t.get i := fun i hi =>
    h i (by simp only [ssize, SignedPreKey.serializedPublicSize] at hi ⊢; split <;> omega)
  have hIk : s.copyN c.dsaPublicSize = t.copyN c.dsaPublicSize :=
    ConstIterator.copyN_congr fun i hi => hlt i (by omega)
  have hSPk : (SignedPreKey.ofBundle (s + c.dsaPublicSize) : Option (SignedPreKey c)) =
      SignedPreKey.ofBundle (t + c.dsaPublicSize) :=
    SignedPreKey.ofBundle_congr fun i hi => hlt _ (by omega)
  cases haveOPk with
  | false => simp only [ofBundle, hIk, hSPk, Bool.false_eq_true, ↓reduceIte]
  | true =>
    have hOPk := ConstIterator.copyN_congr (n := c.xPublicSize)
      (s := s + (c.dsaPublicSize + SignedPreKey.serializedPublicSize c))
      (t := t + (c.dsaPublicSize + SignedPreKey.serializedPublicSize c)) fun i hi =>
        h _ (by rw [ssize_true]; omega)
    have hId := ConstIterator.readU32BE_congr
      (k := c.dsaPublicSize + SignedPreKey.serializedPublicSize c + c.xPublicSize) (s := s)
      (t := t) fun i hi =>
        h i (by rw [ssize_true]; omega)
    simp only [ofBundle, hIk, hSPk, hOPk, hId]

theorem SignedPreKey.ofBundle_isSome {s : ConstIterator}
    (h : ∀ i < SignedPreKey.serializedPublicSize c, (s.get i).isSome) :
    (SignedPreKey.ofBundle s : Option (SignedPreKey c)).isSome := by
  simp only [SignedPreKey.serializedPublicSize] at h
  obtain ⟨pub, hPub⟩ := Option.isSome_iff_exists.mp
    (ConstIterator.copyN_isSome (s := s) (n := c.xPublicSize) fun i hi => h i (by omega))
  obtain ⟨Id, hId⟩ := Option.isSome_iff_exists.mp
    (ConstIterator.readU32BE_isSome (s := s) (k := c.xPublicSize) fun i hi => h i (by omega))
  obtain ⟨Sig, hSig⟩ := Option.isSome_iff_exists.mp
    (ConstIterator.copyN_isSome (s := s + (c.xPublicSize + 4)) (n := c.dsaSignatureSize)
      fun i hi => h _ (by omega))
  simp [SignedPreKey.ofBundle, hPub, hId, hSig]

theorem X3DHPeerBundle.ofBundle_isSome {deviceId : String} {haveOPk : Bool}
    {s : ConstIterator} (h : ∀ i < ssize c haveOPk, (s.get i).isSome) :
    (ofBundle deviceId s haveOPk : Option (X3DHPeerBundle c)).isSome := by
  have hlt : ∀ i, i < c.dsaPublicSize + SignedPreKey.serializedPublicSize c →
      (s.get i).isSome := fun i hi =>
    h i (by simp only [ssize, SignedPreKey.serializedPublicSize] at hi ⊢; split <;> omega)
  obtain ⟨Ik, hIk⟩ := Option.isSome_iff_exists.mp
    (ConstIterator.copyN_isSome (s := s) (n := c.dsaPublicSize) fun i hi => hlt i (by omega))
  obtain ⟨SPk, hSPk⟩ := Option.isSome_iff_exists.mp
    (SignedPreKey.ofBundle_isSome (c := c) (s := s + c.dsaPublicSize) fun i hi =>
      hlt _ (by omega))
  cases haveOPk with
  | false => simp [ofBundle, hIk, hSPk]
  | true =>
    obtain ⟨OPk, hOPk⟩ := Option.isSome_iff_exists.mp
      (ConstIterator.copyN_isSome (n := c.xPublicSize)
        (s := s + (c.dsaPublicSize + SignedPreKey.serializedPublicSize c)) fun i hi =>
          h _ (by rw [ssize_true]; omega))
    obtain ⟨Id, hId⟩ := Option.isSome_iff_exists.mp
      (ConstIterator.readU32BE_isSome (s := s)
        (k := c.dsaPublicSize + SignedPreKey.serializedPublicSize c + c.xPublicSize) fun i hi =>
          h i (by rw [ssize_true]; omega))
    simp [ofBundle, hIk, hSPk, hOPk, hId]

/-- The peer-bundle parser stays within `ssize(haveOPk)`: it reads no offset at or past
it, so with bounds-checked reads no access fails on a vector of exactly `ssize` bytes,
and two vectors that agree on their first `ssize` bytes parse to the same bundle. -/
theorem peerBundle_reads_within_ssize (c : Curve) (deviceId : String) (haveOPk : Bool) :
    (∀ s t : ConstIterator, (∀ i < X3DHPeerBundle.ssize c haveOPk, s.get i = t.get i) →
      X3DHPeerBundle.ofBundle (c := c) deviceId s haveOPk =
        X3DHPeerBundle.ofBundle deviceId t haveOPk) ∧
    (∀ v : List UInt8, v.length = X3DHPeerBundle.ssize c haveOPk →
      (X3DHPeerBundle.ofBundle (c := c) deviceId (ConstIterator.cbegin v) haveOPk).isSome) ∧
    (∀ v w : List UInt8, X3DHPeerBundle.ssize c haveOPk ≤ v.length →
      X3DHPeerBundle.ssize c haveOPk ≤ w.length →
      v.take (X3DHPeerBundle.ssize c haveOPk) = w.take (X3DHPeerBundle.ssize c haveOPk) →
      ∃ b, X3DHPeerBundle.ofBundle (c := c) deviceId (ConstIterator.cbegin v) haveOPk = some b ∧
        X3DHPeerBundle.ofBundle deviceId (ConstIterator.cbegin w) haveOPk = some b) := by
  have hread : ∀ v : List UInt8, X3DHPeerBundle.ssize c haveOPk ≤ v.length →
      (X3DHPeerBundle.ofBundle (c := c) deviceId (ConstIterator.cbegin v) haveOPk).isSome :=
    fun v hv => X3DHPeerBundle.ofBundle_isSome fun i hi => by
      rw [ConstIterator.cbegin_get, List.getElem?_eq_getElem (by omega)]; rfl
  refine ⟨fun s t h => X3DHPeerBundle.ofBundle_congr h, fun v hv => hread v hv.ge,
    fun v w hv _ hvw => ?_⟩
  obtain ⟨b, hb⟩ := Option.isSome_iff_exists.mp (hread v hv)
  refine ⟨b, hb, hb ▸ (X3DHPeerBundle.ofBundle_congr fun i hi => ?_).symm⟩
  rw [ConstIterator.cbegin_get, ConstIterator.cbegin_get, ← List.getElem?_take_of_lt (l := v) hi,
    ← List.getElem?_take_of_lt (l := w) hi, hvw]

/-! ## Bundles as the key server sends them -/

/-- The bytes of a peer bundle after its flag, as the key server sends them:
`Ik || SPk_pub || SPk_id || signature`, followed, when the peer still had one, by
`OPk_pub || OPk_id`. -/
def peerBundleBytes (Ik : SBuffer c.dsaPublicSize) (SPk : SignedPreKey c)
    (OPk : Option (OneTimePreKey c)) : List UInt8 :=
  Ik.bytes ++ SPk.bundleEntry ++ (OPk.map OneTimePreKey.serializePublic).getD []

theorem peerBundleBytes_length (Ik : SBuffer c.dsaPublicSize) (SPk : SignedPreKey c)
    (OPk : Option (OneTimePreKey c)) :
    (peerBundleBytes Ik SPk OPk).length = X3DHPeerBundle.ssize c OPk.isSome := by
  cases OPk <;>
    simp [peerBundleBytes, X3DHPeerBundle.ssize, Ik.length_eq, SPk.bundleEntry_length,
      OneTimePreKey.serializePublic_length, SignedPreKey.serializedPublicSize] <;> omega

/-- On an identity key, a signed prekey entry `e` of the size the parser expects, and the
one-time prekey's entry when there is one, the parser recovers the identity key, the
one-time prekey, its Id and the flag; the signed prekey is what `SignedPreKey.ofBundle`
makes of `e`. -/
theorem X3DHPeerBundle.ofBundle_append (deviceId : String) (Ik : SBuffer c.dsaPublicSize)
    {e : List UInt8} (he : e.length = SignedPreKey.serializedPublicSize c)
    (OPk : Option (OneTimePreKey c)) :
    ofBundle deviceId (ConstIterator.cbegin
        (Ik.bytes ++ e ++ (OPk.map OneTimePreKey.serializePublic).getD [])) OPk.isSome =
      (SignedPreKey.ofBundle (ConstIterator.cbegin
          (e ++ (OPk.map OneTimePreKey.serializePublic).getD []))).map fun spk =>
        match OPk with
        | some o => ⟨deviceId, Ik, spk, .OPk, o.OPk.publicKey, o.id⟩
        | none => ⟨deviceId, Ik, spk, .noOPk, SBuffer.zero _, 0⟩ := by
  have hIk := ConstIterator.copyN_cbegin_append Ik
    (e ++ (OPk.map OneTimePreKey.serializePublic).getD [])
  have hSPk : ConstIterator.cbegin (Ik.bytes ++ e ++ (OPk.map OneTimePreKey.serializePublic).getD [])
      + c.dsaPublicSize =
      ConstIterator.cbegin (e ++ (OPk.map OneTimePreKey.serializePublic).getD []) := by
    rw [ConstIterator.cbegin_add, List.append_assoc, List.drop_left' Ik.length_eq]
  cases OPk with
  | none =>
    simp only [List.append_assoc] at hIk hSPk ⊢
    simp only [ofBundle, hIk, hSPk, Option.isSome_none, Bool.false_eq_true, ↓reduceIte]
    cases SignedPreKey.ofBundle (c := c) _ <;> rfl
  | some o =>
    have hpre : (Ik.bytes ++ e).length = c.dsaPublicSize + SignedPreKey.serializedPublicSize c := by
      simp [Ik.length_eq, he]
    have hOPk : (ConstIterator.cbegin (Ik.bytes ++ e ++ o.serializePublic) +
        (c.dsaPublicSize + SignedPreKey.serializedPublicSize c)).copyN c.xPublicSize =
          some o.OPk.publicKey := by
      rw [ConstIterator.cbegin_add, List.drop_left' hpre]
      exact ConstIterator.copyN_cbegin_append _ _
    have hId := ConstIterator.readU32BE_cbegin (Ik.bytes ++ e ++ o.OPk.publicKey.bytes) [] o.id
    rw [List.append_nil, List.length_append, hpre, o.OPk.publicKey.length_eq] at hId
    simp only [Option.map_some', Option.getD_some, OneTimePreKey.serializePublic,
      List.append_assoc] at hIk hSPk hOPk hId ⊢
    simp only [ofBundle, hIk, hSPk, hOPk, hId, Option.isSome_some, ↓reduceIte]
    cases SignedPreKey.ofBundle (c := c) _ <;> rfl

/-- The peer bundle codec round trip, on the layout the key server sends: for every curve,
identity key, signed prekey and one-time prekey, the parser returns the identity key, the
signed prekey's public key, signature and Id, the one-time prekey and its Id, and the flag
`OPk` exactly when there is a one-time prekey. The bytes are `ssize` long, and
`serializedPublicSize()` is the length of the upload format `serializePublic()`. -/
theorem peerBundle_codec_roundtrip (deviceId : String) (Ik : SBuffer c.dsaPublicSize)
    (SPk : SignedPreKey c) (OPk : Option (OneTimePreKey c)) :
    (∃ b, X3DHPeerBundle.ofBundle deviceId (ConstIterator.cbegin (peerBundleBytes Ik SPk OPk))
        OPk.isSome = some b ∧
      b.Ik = Ik ∧ b.SPk.SPk.publicKey = SPk.SPk.publicKey ∧ b.SPk.Sig = SPk.Sig ∧
      b.SPk.id = SPk.id ∧ (b.bundleFlag = .OPk ↔ OPk.isSome) ∧
      ∀ o ∈ OPk, b.OPk = o.OPk.publicKey ∧ b.OPk_id = o.id) ∧
    (peerBundleBytes Ik SPk OPk).length = X3DHPeerBundle.ssize c OPk.isSome ∧
    SPk.serializePublic.length = SignedPreKey.serializedPublicSize c := by
  have h := X3DHPeerBundle.ofBundle_append deviceId Ik SPk.bundleEntry_length OPk
  rw [SignedPreKey.ofBundle_bundleEntry_append, Option.map_some'] at h
  refine ⟨⟨_, h, ?_⟩, peerBundleBytes_length Ik SPk OPk, SPk.serializePublic_length⟩
  cases OPk <;> simp [Xpair.ofPublic]

/-- The upload layout is not what the parser receives: on `c25519`, an identity key
followed by `serializePublic()` of a signed prekey with an all-zero signature and Id `1`
parses to a signed prekey with Id `0`, the signature's first four bytes. -/
theorem peerBundle_spk_id_misread :
    (X3DHPeerBundle.ofBundle (c := C255) "" (ConstIterator.cbegin ((SBuffer.zero C255.dsaPublicSize).bytes ++
        SignedPreKey.serializePublic (c := C255)
          ⟨⟨SBuffer.zero _, SBuffer.zero _⟩, SBuffer.zero _, 1⟩)) false).map (·.SPk.id) =
      some 0 := by
  have h := X3DHPeerBundle.ofBundle_append (c := C255) "" (SBuffer.zero _)
    (SignedPreKey.serializePublic_length ⟨⟨SBuffer.zero _, SBuffer.zero _⟩, SBuffer.zero _, 1⟩)
    none
  have hk := SignedPreKey.ofBundle_serializePublic (c := C255)
    ⟨⟨SBuffer.zero _, SBuffer.zero _⟩, SBuffer.zero _, 1⟩ [] (by decide)
  simp only [Option.map_none', Option.getD_none, List.append_nil, Option.isSome_none] at h hk
  rw [h, hk]
  decide

end Lime

import Mathlib.Data.Nat.Bitwise
import Mathlib.Data.List.Basic

/-!
# Byte buffers, iterators and big-endian key Ids

The key codecs of `lime_x3dh.hpp` and `lime_x3dh_protocol.hpp` move bytes between three
kinds of containers: fixed-size buffers (`sBuffer<N>`, the keys `X<Curve, …>` and
`DSA<Curve, …>`), growable byte vectors (`std::vector<uint8_t>`), and read iterators into
those vectors. This file models the three, and the 32-bit big-endian encoding of key Ids
that every public serializer appends and every bundle parser reads back.

* `SBuffer n` carries its size as a field, so a key of the wrong length cannot be built.
* `ConstIterator` is a `std::vector<uint8_t>::const_iterator` read with bounds checks:
  `s.get i` is `s[i]`, and `none` past the end of the vector. Reading past the end is
  then a failed access instead of undefined behaviour, which is what lets the parser
  results state that no access fails.
* `ConstIterator.copyN_congr`: reading `n` bytes depends on the first `n` offsets only.
* `u32OfBytesBE_u32ToBytesBE`: the shift-and-or decoder inverts the shift-and-mask
  encoder, for all `2^32` Ids.

`Curve` records the byte sizes a curve fixes; the key classes are templated on it.
-/

namespace Lime

/-- A fixed-size byte buffer (`sBuffer<n>`, a `std::array<uint8_t, n>`). -/
structure SBuffer (n : Nat) where
  bytes : List UInt8
  length_eq : bytes.length = n
  deriving DecidableEq

namespace SBuffer

/-- The zero-filled buffer a key member holds when no constructor writes it. -/
def zero (n : Nat) : SBuffer n := ⟨List.replicate n 0, List.length_replicate n 0⟩

/-- Prepend one byte. -/
def cons {n : Nat} (b : UInt8) (xs : SBuffer n) : SBuffer (n + 1) :=
  ⟨b :: xs.bytes, by simp [xs.length_eq]⟩

@[simp] theorem cons_bytes {n : Nat} (b : UInt8) (xs : SBuffer n) :
    (xs.cons b).bytes = b :: xs.bytes := rfl

theorem ext_bytes {n : Nat} {a b : SBuffer n} (h : a.bytes = b.bytes) : a = b := by
  cases a; cases b; cases h; rfl

/-- The first `k` bytes of a buffer (`std::copy_n(b.cbegin(), k, …)`). -/
def take {n : Nat} (b : SBuffer n) (k : Nat) (hk : k ≤ n) : SBuffer k :=
  ⟨b.bytes.take k, by simp [b.length_eq, hk]⟩

/-- The `k` bytes of a buffer from offset `off` (`b.cbegin() + off`). -/
def slice {n : Nat} (b : SBuffer n) (off k : Nat) (hk : off + k ≤ n) : SBuffer k :=
  ⟨(b.bytes.drop off).take k, by simp [b.length_eq]; omega⟩

@[simp] theorem take_bytes {n : Nat} (b : SBuffer n) (k : Nat) (hk : k ≤ n) :
    (b.take k hk).bytes = b.bytes.take k := rfl

@[simp] theorem slice_bytes {n : Nat} (b : SBuffer n) (off k : Nat) (hk : off + k ≤ n) :
    (b.slice off k hk).bytes = (b.bytes.drop off).take k := rfl

end SBuffer

/-- A `std::vector<uint8_t>::const_iterator`, read with bounds checks: `s.get i` is
`s[i]`, `none` when the offset is past the end of the vector. -/
structure ConstIterator where
  get : Nat → Option UInt8

namespace ConstIterator

theorem ext {s t : ConstIterator} (h : ∀ i, s.get i = t.get i) : s = t := by
  cases s; cases t; simp only [mk.injEq]; exact funext h

/-- `s + k`. -/
instance : HAdd ConstIterator Nat ConstIterator := ⟨fun s k => ⟨fun i => s.get (k + i)⟩⟩

@[simp] theorem add_get (s : ConstIterator) (k i : Nat) : (s + k).get i = s.get (k + i) := rfl

theorem add_add (s : ConstIterator) (j k : Nat) : s + j + k = s + (j + k) :=
  ext fun i => by simp [Nat.add_assoc]

/-- `v.cbegin()`. -/
def cbegin (v : List UInt8) : ConstIterator := ⟨fun i => v[i]?⟩

@[simp] theorem cbegin_get (v : List UInt8) (i : Nat) : (cbegin v).get i = v[i]? := rfl

theorem cbegin_add (v : List UInt8) (k : Nat) : cbegin v + k = cbegin (v.drop k) :=
  ext fun i => by simp [List.getElem?_drop]

/-- Copy `n` bytes from `s` into a buffer: the iterator constructors of `X<Curve, …>` and
`DSA<Curve, …>` (`std::copy_n(s, ssize(), …)`). -/
def copyN (s : ConstIterator) : (n : Nat) → Option (SBuffer n)
  | 0 => some ⟨[], rfl⟩
  | n + 1 => do
    let b ← s.get 0
    let rest ← (s + 1).copyN n
    pure (rest.cons b)

/-- `copyN` reads the offsets below `n` and no other. -/
theorem copyN_congr {s t : ConstIterator} {n : Nat} (h : ∀ i < n, s.get i = t.get i) :
    s.copyN n = t.copyN n := by
  induction n generalizing s t with
  | zero => rfl
  | succ n ih =>
    have hrest : (s + 1).copyN n = (t + 1).copyN n :=
      ih fun i hi => by simpa [Nat.add_comm] using h (i + 1) (by omega)
    simp only [copyN, h 0 (by omega), hrest]

theorem copyN_isSome {s : ConstIterator} {n : Nat} (h : ∀ i < n, (s.get i).isSome) :
    (s.copyN n).isSome := by
  induction n generalizing s with
  | zero => rfl
  | succ n ih =>
    obtain ⟨b, hb⟩ := Option.isSome_iff_exists.mp (h 0 (by omega))
    obtain ⟨r, hr⟩ := Option.isSome_iff_exists.mp
      (ih (s := s + 1) fun i hi => by simpa [Nat.add_comm] using h (i + 1) (by omega))
    simp [copyN, hb, hr]

theorem copyN_cbegin_append {n : Nat} (b : SBuffer n) (rest : List UInt8) :
    (cbegin (b.bytes ++ rest)).copyN n = some b := by
  obtain ⟨bytes, hlen⟩ := b
  subst hlen
  induction bytes with
  | nil => rfl
  | cons x xs ih =>
    show (cbegin ((x :: xs) ++ rest)).copyN (xs.length + 1) = _
    simp only [copyN, cbegin_add, cbegin_get, List.cons_append, List.drop_one, List.tail_cons,
      List.getElem?_cons_zero, ih]
    rfl

theorem copyN_cbegin_of_le {v : List UInt8} {n : Nat} (h : n ≤ v.length) :
    (cbegin v).copyN n = some ⟨v.take n, List.length_take_of_le h⟩ := by
  conv_lhs => rw [← List.take_append_drop n v]
  exact copyN_cbegin_append ⟨v.take n, _⟩ _

/-- `static_cast<uint32_t>(s[k])<<24 | … | static_cast<uint32_t>(s[k+3])`: the inline
big-endian read of a key Id in the bundle parsers. -/
def readU32BE (s : ConstIterator) (k : Nat) : Option UInt32 := do
  let b0 ← s.get k
  let b1 ← s.get (k + 1)
  let b2 ← s.get (k + 2)
  let b3 ← s.get (k + 3)
  pure (b0.toUInt32 <<< 24 ||| b1.toUInt32 <<< 16 ||| b2.toUInt32 <<< 8 ||| b3.toUInt32)

theorem readU32BE_congr {s t : ConstIterator} {k : Nat}
    (h : ∀ i < k + 4, s.get i = t.get i) : s.readU32BE k = t.readU32BE k := by
  simp only [readU32BE, h k (by omega), h (k + 1) (by omega), h (k + 2) (by omega),
    h (k + 3) (by omega)]

end ConstIterator

/-! ## Big-endian key Ids -/

/-- The four bytes `(Id>>24)&0xFF, (Id>>16)&0xFF, (Id>>8)&0xFF, Id&0xFF` that the
public serializers push after a key. -/
def u32ToBytesBE (Id : UInt32) : List UInt8 :=
  [((Id >>> 24) &&& 0xFF).toUInt8, ((Id >>> 16) &&& 0xFF).toUInt8,
    ((Id >>> 8) &&& 0xFF).toUInt8, (Id &&& 0xFF).toUInt8]

/-- The value the bundle parsers assemble from four bytes. -/
def u32OfBytesBE (b0 b1 b2 b3 : UInt8) : UInt32 :=
  b0.toUInt32 <<< 24 ||| b1.toUInt32 <<< 16 ||| b2.toUInt32 <<< 8 ||| b3.toUInt32

@[simp] theorem length_u32ToBytesBE (Id : UInt32) : (u32ToBytesBE Id).length = 4 := rfl

theorem ConstIterator.readU32BE_eq (s : ConstIterator) (k : Nat) :
    s.readU32BE k = (do
      let b0 ← s.get k; let b1 ← s.get (k + 1); let b2 ← s.get (k + 2)
      let b3 ← s.get (k + 3); pure (u32OfBytesBE b0 b1 b2 b3)) := rfl

/-- Or-ing a value shifted past the width of another adds them. -/
theorem lor_shiftLeft_eq_add {a b k : Nat} (hb : b < 2 ^ k) :
    a <<< k ||| b = 2 ^ k * a + b := by
  apply Nat.eq_of_testBit_eq
  intro j
  rw [Nat.testBit_lor, Nat.testBit_shiftLeft, Nat.testBit_mul_pow_two_add a hb]
  by_cases h : j < k
  · simp [h, show ¬ j ≥ k by omega]
  · have hbj : b.testBit j = false :=
      Nat.testBit_eq_false_of_lt (lt_of_lt_of_le hb (Nat.pow_le_pow_right (by omega) (by omega)))
    simp [h, show j ≥ k by omega, hbj]

theorem shiftLeft_lor_distrib (a b k : Nat) : (a ||| b) <<< k = a <<< k ||| b <<< k := by
  apply Nat.eq_of_testBit_eq
  intro j
  simp only [Nat.testBit_shiftLeft, Nat.testBit_lor]
  cases decide (j ≥ k) <;> simp

/-- Four bytes or-ed at their big-endian places add up to their big-endian value. -/
theorem lor_shiftLeft_bytes {a b c d : Nat} (hb : b < 2 ^ 8) (hc : c < 2 ^ 8) (hd : d < 2 ^ 8) :
    a <<< 24 ||| b <<< 16 ||| c <<< 8 ||| d = a * 2 ^ 24 + b * 2 ^ 16 + c * 2 ^ 8 + d := by
  have h1 : a <<< 24 ||| b <<< 16 = (a <<< 8 ||| b) <<< 16 := by
    rw [shiftLeft_lor_distrib, ← Nat.shiftLeft_add]
  have h2 : (a <<< 8 ||| b) <<< 16 ||| c <<< 8 = ((a <<< 8 ||| b) <<< 8 ||| c) <<< 8 := by
    rw [shiftLeft_lor_distrib _ c, ← Nat.shiftLeft_add]
  rw [h1, h2, lor_shiftLeft_eq_add hd, lor_shiftLeft_eq_add hb, lor_shiftLeft_eq_add hc]
  omega

theorem UInt32.toNat_lor (a b : UInt32) : (a ||| b).toNat = a.toNat ||| b.toNat :=
  BitVec.toNat_or _ _

theorem toNat_toUInt32_shiftLeft (a : UInt8) (k : UInt32) (hk : k.toNat < 32) :
    (a.toUInt32 <<< k).toNat = a.toNat <<< k.toNat % 2 ^ 32 := by
  have hmod : (k % 32).toNat = k.toNat := by
    rw [UInt32.toNat_mod]; exact Nat.mod_eq_of_lt hk
  show (a.toUInt32.toBitVec <<< (k % 32).toBitVec).toNat = _
  rw [BitVec.shiftLeft_eq', BitVec.toNat_shiftLeft]
  exact congrArg (fun m => a.toNat <<< m % 2 ^ 32) hmod

theorem toNat_u32OfBytesBE (b0 b1 b2 b3 : UInt8) :
    (u32OfBytesBE b0 b1 b2 b3).toNat =
      b0.toNat * 2 ^ 24 + b1.toNat * 2 ^ 16 + b2.toNat * 2 ^ 8 + b3.toNat := by
  have h0 : b0.toNat < 2 ^ 8 := b0.toNat_lt_size
  have h1 : b1.toNat < 2 ^ 8 := b1.toNat_lt_size
  have h2 : b2.toNat < 2 ^ 8 := b2.toNat_lt_size
  have h3 : b3.toNat < 2 ^ 8 := b3.toNat_lt_size
  simp only [u32OfBytesBE, UInt32.toNat_lor]
  rw [toNat_toUInt32_shiftLeft _ _ (by decide), toNat_toUInt32_shiftLeft _ _ (by decide),
    toNat_toUInt32_shiftLeft _ _ (by decide), show (24 : UInt32).toNat = 24 from rfl,
    show (16 : UInt32).toNat = 16 from rfl, show (8 : UInt32).toNat = 8 from rfl]
  have e0 : b0.toNat <<< 24 % 2 ^ 32 = b0.toNat <<< 24 :=
    Nat.mod_eq_of_lt (by rw [Nat.shiftLeft_eq]; omega)
  have e1 : b1.toNat <<< 16 % 2 ^ 32 = b1.toNat <<< 16 :=
    Nat.mod_eq_of_lt (by rw [Nat.shiftLeft_eq]; omega)
  have e2 : b2.toNat <<< 8 % 2 ^ 32 = b2.toNat <<< 8 :=
    Nat.mod_eq_of_lt (by rw [Nat.shiftLeft_eq]; omega)
  rw [e0, e1, e2]
  exact lor_shiftLeft_bytes h1 h2 h3

/-- One byte of the encoder: `static_cast<uint8_t>((Id>>k)&0xFF)`. -/
theorem toNat_byteOf (Id k : UInt32) (hk : k.toNat < 32) :
    ((Id >>> k) &&& 0xFF).toUInt8.toNat = Id.toNat / 2 ^ k.toNat % 2 ^ 8 := by
  have hmod : (k % 32).toNat = k.toNat := by
    rw [UInt32.toNat_mod]; exact Nat.mod_eq_of_lt hk
  show ((Id.toBitVec >>> (k % 32).toBitVec) &&& 0xFF).toNat % 2 ^ 8 = _
  rw [BitVec.ushiftRight_eq', BitVec.toNat_and, BitVec.toNat_ushiftRight,
    show (0xFF : BitVec 32).toNat = 2 ^ 8 - 1 from rfl, Nat.and_pow_two_sub_one_eq_mod,
    Nat.mod_mod, Nat.shiftRight_eq_div_pow]
  exact congrArg (fun m => Id.toNat / 2 ^ m % 2 ^ 8) hmod

theorem toNat_lowByte (Id : UInt32) : (Id &&& 0xFF).toUInt8.toNat = Id.toNat % 2 ^ 8 := by
  show (Id.toBitVec &&& 0xFF).toNat % 2 ^ 8 = _
  rw [BitVec.toNat_and, show (0xFF : BitVec 32).toNat = 2 ^ 8 - 1 from rfl,
    Nat.and_pow_two_sub_one_eq_mod, Nat.mod_mod]
  rfl

/-- Decoding the four bytes of an Id gives the Id back, for every 32-bit Id. -/
theorem u32OfBytesBE_u32ToBytesBE (Id : UInt32) :
    u32OfBytesBE ((Id >>> 24) &&& 0xFF).toUInt8 ((Id >>> 16) &&& 0xFF).toUInt8
      ((Id >>> 8) &&& 0xFF).toUInt8 (Id &&& 0xFF).toUInt8 = Id := by
  apply UInt32.toNat.inj
  have hId : Id.toNat < 2 ^ 32 := Id.toNat_lt_size
  rw [toNat_u32OfBytesBE, toNat_byteOf _ _ (by decide), toNat_byteOf _ _ (by decide),
    toNat_byteOf _ _ (by decide), toNat_lowByte, show (24 : UInt32).toNat = 24 from rfl,
    show (16 : UInt32).toNat = 16 from rfl, show (8 : UInt32).toNat = 8 from rfl]
  omega

namespace ConstIterator

theorem readU32BE_add (s : ConstIterator) (k : Nat) : s.readU32BE k = (s + k).readU32BE 0 := by
  simp [readU32BE_eq]

/-- The bundle parsers read back the Id the serializers wrote, wherever it sits. -/
theorem readU32BE_cbegin (pre rest : List UInt8) (Id : UInt32) :
    (cbegin (pre ++ u32ToBytesBE Id ++ rest)).readU32BE pre.length = some Id := by
  rw [readU32BE_add, cbegin_add, List.append_assoc, List.drop_left]
  simp [readU32BE_eq, u32ToBytesBE, u32OfBytesBE_u32ToBytesBE]

theorem readU32BE_cbegin_zero {v : List UInt8} (h : 4 ≤ v.length) :
    (cbegin v).readU32BE 0 =
      some (u32OfBytesBE (v.getD 0 0) (v.getD 1 0) (v.getD 2 0) (v.getD 3 0)) := by
  match v, h with
  | _ :: _ :: _ :: _ :: _, _ => simp [readU32BE_eq]

theorem readU32BE_isSome {s : ConstIterator} {k : Nat}
    (h : ∀ i < k + 4, (s.get i).isSome) : (s.readU32BE k).isSome := by
  obtain ⟨b0, h0⟩ := Option.isSome_iff_exists.mp (h k (by omega))
  obtain ⟨b1, h1⟩ := Option.isSome_iff_exists.mp (h (k + 1) (by omega))
  obtain ⟨b2, h2⟩ := Option.isSome_iff_exists.mp (h (k + 2) (by omega))
  obtain ⟨b3, h3⟩ := Option.isSome_iff_exists.mp (h (k + 3) (by omega))
  simp [readU32BE_eq, h0, h1, h2, h3]

end ConstIterator

/-! ## Curves -/

/-- The byte sizes a curve fixes: `X<Curve, Xtype::publicKey>::ssize()`,
`X<Curve, Xtype::privateKey>::ssize()`, `DSA<Curve, DSAtype::publicKey>::ssize()` and
`DSA<Curve, DSAtype::signature>::ssize()`. -/
structure Curve where
  xPublicSize : Nat
  xPrivateSize : Nat
  dsaPublicSize : Nat
  dsaSignatureSize : Nat

/-- Modelled from the spec: the `c25519` curve (X25519 and Ed25519), whose key classes
live in `lime_crypto_primitives`, outside the modelled sources. -/
def C255 : Curve := ⟨32, 32, 32, 64⟩

end Lime

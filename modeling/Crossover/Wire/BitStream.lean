import Mathlib.Data.List.Basic

/-!
# BitStream — the SLikeNet byte stream as both programs use it

Every value this code base writes or reads is a whole number of bytes, so the stream is a list of
bytes with a byte offset for reading.  On x86 `BitStream::DoEndianSwap` is true: a value wider than
one byte is copied out of memory (little-endian) and its `sizeof(T)` bytes are reversed as one
block.

`Pod` is a trivially copyable C++ type seen through its memory image.
-/

namespace Crossover
namespace Wire

/-! ## Memory images -/

/-- A trivially copyable type: its size and its little-endian memory image. -/
class Pod (α : Type) where
  size : Nat
  image : α → List UInt8
  ofImage : List UInt8 → α
  length_image : ∀ x, (image x).length = size
  ofImage_image : ∀ x, ofImage (image x) = x
  image_ofImage : ∀ bs, bs.length = size → image (ofImage bs) = bs

/-- The four bytes of a 32-bit word, least significant first. -/
def wordImage (w : UInt32) : List UInt8 :=
  [UInt8.ofNat w.toNat, UInt8.ofNat (w.toNat / 256), UInt8.ofNat (w.toNat / 65536),
    UInt8.ofNat (w.toNat / 16777216)]

/-- The 32-bit word whose bytes are given, least significant first. -/
def wordOfImage : List UInt8 → UInt32
  | [b0, b1, b2, b3] =>
      UInt32.ofNat (b0.toNat + 256 * b1.toNat + 65536 * b2.toNat + 16777216 * b3.toNat)
  | _ => 0

theorem length_wordImage (w : UInt32) : (wordImage w).length = 4 :=
  rfl

theorem wordOfImage_wordImage (w : UInt32) : wordOfImage (wordImage w) = w := by
  apply UInt32.toNat_inj.1
  have hw := w.toNat_lt
  simp only [wordImage, wordOfImage, UInt32.toNat_ofNat', UInt8.toNat_ofNat']
  omega

theorem ofNat_eq_of_mod {n : Nat} {b : UInt8} (h : n % 256 = b.toNat) : UInt8.ofNat n = b := by
  apply UInt8.toNat_inj.1
  simpa using h

theorem wordImage_wordOfImage (bs : List UInt8) (h : bs.length = 4) :
    wordImage (wordOfImage bs) = bs := by
  match bs, h with
  | [b0, b1, b2, b3], _ =>
    have h0 := b0.toNat_lt
    have h1 := b1.toNat_lt
    have h2 := b2.toNat_lt
    have h3 := b3.toNat_lt
    simp only [wordImage, wordOfImage, UInt32.toNat_ofNat', List.cons.injEq, and_true]
    refine ⟨ofNat_eq_of_mod ?_, ofNat_eq_of_mod ?_, ofNat_eq_of_mod ?_, ofNat_eq_of_mod ?_⟩ <;>
      omega

/-- `SLNet::MessageID`. -/
instance instPodUInt8 : Pod UInt8 where
  size := 1
  image b := [b]
  ofImage bs := bs.headD 0
  length_image _ := rfl
  ofImage_image _ := rfl
  image_ofImage bs h := by
    match bs, h with
    | [b], _ => rfl

/-- `int`, in two's complement. -/
instance instPodInt32 : Pod Int32 where
  size := 4
  image n := wordImage n.toUInt32
  ofImage bs := Int32.ofUInt32 (wordOfImage bs)
  length_image n := length_wordImage n.toUInt32
  ofImage_image n := by simp [wordOfImage_wordImage]
  image_ofImage bs h := wordImage_wordOfImage bs h

/-- `Vec3` of the server and `C3DVector` of the mod: three floats, as their bit patterns. -/
structure Vec3 where
  x : UInt32 := 0
  y : UInt32 := 0
  z : UInt32 := 0
  deriving DecidableEq, Repr, Inhabited

instance instPodVec3 : Pod Vec3 where
  size := 12
  image v := wordImage v.x ++ wordImage v.y ++ wordImage v.z
  ofImage bs :=
    { x := wordOfImage (bs.take 4)
      y := wordOfImage ((bs.drop 4).take 4)
      z := wordOfImage (bs.drop 8) }
  length_image _ := rfl
  ofImage_image v := by
    show Vec3.mk (wordOfImage (wordImage v.x)) (wordOfImage (wordImage v.y))
      (wordOfImage (wordImage v.z)) = v
    simp only [wordOfImage_wordImage]
  image_ofImage bs h := by
    have hx : (bs.take 4).length = 4 := by simp [h]
    have hy : ((bs.drop 4).take 4).length = 4 := by simp [h]
    have hz : (bs.drop 8).length = 4 := by simp [h]
    rw [wordImage_wordOfImage _ hx, wordImage_wordOfImage _ hy, wordImage_wordOfImage _ hz]
    calc
      bs.take 4 ++ (bs.drop 4).take 4 ++ bs.drop 8
          = bs.take 4 ++ ((bs.drop 4).take 4 ++ (bs.drop 4).drop 4) := by simp
      _ = bs := by rw [List.take_append_drop, List.take_append_drop]

/-! ## Encoding -/

/-- The bytes `BitStream::Write<T>` appends. -/
def encode {α : Type} [Pod α] (x : α) : List UInt8 :=
  if Pod.size α = 1 then Pod.image x else (Pod.image x).reverse

/-- The value `BitStream::Read<T>` makes of `sizeof(T)` bytes. -/
def decode {α : Type} [Pod α] (bs : List UInt8) : α :=
  if Pod.size α = 1 then Pod.ofImage bs else Pod.ofImage bs.reverse

section Codec

variable {α : Type} [Pod α]

@[simp] theorem length_encode (x : α) : (encode x).length = Pod.size α := by
  unfold encode
  split <;> simp [Pod.length_image]

@[simp] theorem decode_encode (x : α) : decode (encode x) = x := by
  unfold decode encode
  split <;> simp [Pod.ofImage_image]

/-- Decoding a block of the right size and encoding the value again gives the block back. -/
theorem encode_decode (bs : List UInt8) (h : bs.length = Pod.size α) :
    encode (decode bs : α) = bs := by
  unfold decode encode
  split
  · exact Pod.image_ofImage bs h
  · rw [Pod.image_ofImage bs.reverse (by simpa using h), List.reverse_reverse]

end Codec

@[simp] theorem size_messageID : Pod.size UInt8 = 1 := rfl

@[simp] theorem size_int : Pod.size Int32 = 4 := rfl

@[simp] theorem size_vec3 : Pod.size Vec3 = 12 := rfl

@[simp] theorem encode_messageID (b : UInt8) : encode b = [b] := rfl

/-! ## Streams -/

/-- `SLNet::BitStream`: the bytes written and the offset of the next byte to read. -/
structure BitStream where
  data : List UInt8 := []
  readOffset : Nat := 0
  deriving DecidableEq, Repr

namespace BitStream

variable {α : Type} [Pod α]

/-- A stream over received bytes, read from the start. -/
def ofData (data : List UInt8) : BitStream :=
  { data := data }

/-- `bs.Write(x)`. -/
def write (bs : BitStream) (x : α) : BitStream :=
  { bs with data := bs.data ++ encode x }

/-- `bs.Read(x)`: with too few bytes left the argument keeps its value and nothing is consumed. -/
def read (bs : BitStream) (x : α) : α × BitStream :=
  if bs.readOffset + Pod.size α ≤ bs.data.length then
    (decode ((bs.data.drop bs.readOffset).take (Pod.size α)),
      { bs with readOffset := bs.readOffset + Pod.size α })
  else
    (x, bs)

/-- `bs.IgnoreBytes(n)`. -/
def ignoreBytes (bs : BitStream) (n : Nat) : BitStream :=
  { bs with readOffset := bs.readOffset + n }

/-- `bs.ResetReadPointer()`. -/
def resetReadPointer (bs : BitStream) : BitStream :=
  { bs with readOffset := 0 }

@[simp] theorem data_ofData (data : List UInt8) : (ofData data).data = data := rfl

@[simp] theorem data_write (bs : BitStream) (x : α) : (bs.write x).data = bs.data ++ encode x := rfl

/-- The bytes a stream has left to read. -/
def Remaining (bs : BitStream) (rest : List UInt8) : Prop :=
  ∃ before, bs.data = before ++ rest ∧ bs.readOffset = before.length

theorem remaining_ofData (data : List UInt8) : (ofData data).Remaining data :=
  ⟨[], rfl, rfl⟩

theorem Remaining.ignoreBytes {bs : BitStream} (skipped : List UInt8) {rest : List UInt8}
    (h : bs.Remaining (skipped ++ rest)) : (bs.ignoreBytes skipped.length).Remaining rest := by
  rcases h with ⟨before, hdata, hoffset⟩
  refine ⟨before ++ skipped, ?_, ?_⟩
  · simpa [BitStream.ignoreBytes] using hdata
  · simp [BitStream.ignoreBytes, hoffset]

/-- Reading where a written value starts returns that value and moves behind it. -/
theorem Remaining.read {bs : BitStream} {x : α} {rest : List UInt8}
    (h : bs.Remaining (encode x ++ rest)) (y : α) :
    (bs.read y).1 = x ∧ (bs.read y).2.Remaining rest := by
  rcases h with ⟨before, hdata, hoffset⟩
  have hfits : bs.readOffset + Pod.size α ≤ bs.data.length := by
    simp [hdata, hoffset]
  have hblock : (bs.data.drop bs.readOffset).take (Pod.size α) = encode x := by
    rw [hdata, hoffset, List.drop_left, List.take_left' (length_encode x)]
  rw [BitStream.read, if_pos hfits, hblock, decode_encode]
  refine ⟨rfl, before ++ encode x, ?_, ?_⟩
  · simp [hdata]
  · simp [hoffset]

/-- A read that fits returns the decoded block at the offset. -/
theorem read_of_le {bs : BitStream} (y : α) (h : bs.readOffset + Pod.size α ≤ bs.data.length) :
    bs.read y = (decode ((bs.data.drop bs.readOffset).take (Pod.size α)),
      { bs with readOffset := bs.readOffset + Pod.size α }) := by
  simp only [read, if_pos h]

/-- What a read leaves does not depend on what its argument held. -/
theorem read_snd (bs : BitStream) (x y : α) : (bs.read x).2 = (bs.read y).2 := by
  unfold read
  split <;> rfl

end BitStream

/-- The layout `ProtocolSelfTest` asserts at startup: z, y, x, each big-endian. -/
example : encode ({ x := 0x3F800000, y := 0x40000000, z := 0x40400000 } : Vec3) =
    [0x40, 0x40, 0x00, 0x00, 0x40, 0x00, 0x00, 0x00, 0x3F, 0x80, 0x00, 0x00] := by
  decide

end Wire
end Crossover

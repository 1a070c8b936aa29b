import Mathlib

/-!
# SHA-256 and base32

The hash function of FIPS 180-4 on lists of bytes, and the base32 encoding with
the extended hex alphabet and without padding. Both are structural, so that they
can be evaluated in a proof.

* `length_sha256`: a digest has 32 bytes;
* `length_base32Hex`: one character for each five bits begun.
-/

namespace Fleetboard

namespace Sha256

abbrev Byte := BitVec 8

abbrev Word := BitVec 32

/-- The working variables. -/
structure State where
  a : Word
  b : Word
  c : Word
  d : Word
  e : Word
  f : Word
  g : Word
  h : Word

def initial : State :=
  ⟨0x6a09e667, 0xbb67ae85, 0x3c6ef372, 0xa54ff53a, 0x510e527f, 0x9b05688c, 0x1f83d9ab, 0x5be0cd19⟩

/-- The round constants. -/
def constants : List Word :=
  [0x428a2f98, 0x71374491, 0xb5c0fbcf, 0xe9b5dba5, 0x3956c25b, 0x59f111f1, 0x923f82a4, 0xab1c5ed5,
    0xd807aa98, 0x12835b01, 0x243185be, 0x550c7dc3, 0x72be5d74, 0x80deb1fe, 0x9bdc06a7, 0xc19bf174,
    0xe49b69c1, 0xefbe4786, 0x0fc19dc6, 0x240ca1cc, 0x2de92c6f, 0x4a7484aa, 0x5cb0a9dc, 0x76f988da,
    0x983e5152, 0xa831c66d, 0xb00327c8, 0xbf597fc7, 0xc6e00bf3, 0xd5a79147, 0x06ca6351, 0x14292967,
    0x27b70a85, 0x2e1b2138, 0x4d2c6dfc, 0x53380d13, 0x650a7354, 0x766a0abb, 0x81c2c92e, 0x92722c85,
    0xa2bfe8a1, 0xa81a664b, 0xc24b8b70, 0xc76c51a3, 0xd192e819, 0xd6990624, 0xf40e3585, 0x106aa070,
    0x19a4c116, 0x1e376c08, 0x2748774c, 0x34b0bcb5, 0x391c0cb3, 0x4ed8aa4a, 0x5b9cca4f, 0x682e6ff3,
    0x748f82ee, 0x78a5636f, 0x84c87814, 0x8cc70208, 0x90befffa, 0xa4506ceb, 0xbef9a3f7, 0xc67178f2]

/-- The message with a one bit, zeros and its length in bits, a multiple of 64
bytes. -/
def pad (message : List Byte) : List Byte :=
  message ++ 0x80 :: List.replicate ((119 - message.length % 64) % 64) 0 ++
    (List.range 8).map fun i => BitVec.ofNat 8 (message.length * 8 / 2 ^ (8 * (7 - i)))

/-- The 16 words of a block, big-endian, the last one first. -/
def blockWords (block : List Byte) : List Word :=
  ((List.range 16).map fun i =>
    ((block.drop (4 * i)).take 4).foldl (fun (w : Word) b => w <<< 8 ||| b.setWidth 32) 0).reverse

/-- `n` more words of the message schedule; `ws` has the last word first. -/
def extend : Nat → List Word → List Word
  | 0, ws => ws
  | n + 1, ws =>
    let w₂ := ws.getD 1 0
    let w₁₅ := ws.getD 14 0
    let s₁ := w₂.rotateRight 17 ^^^ w₂.rotateRight 19 ^^^ w₂ >>> 10
    let s₀ := w₁₅.rotateRight 7 ^^^ w₁₅.rotateRight 18 ^^^ w₁₅ >>> 3
    extend n ((s₁ + ws.getD 6 0 + s₀ + ws.getD 15 0) :: ws)

/-- One round, with its constant and its word of the schedule. -/
def round (s : State) (kw : Word × Word) : State :=
  let s₁ := s.e.rotateRight 6 ^^^ s.e.rotateRight 11 ^^^ s.e.rotateRight 25
  let ch := (s.e &&& s.f) ^^^ (~~~s.e &&& s.g)
  let t₁ := s.h + s₁ + ch + kw.1 + kw.2
  let s₀ := s.a.rotateRight 2 ^^^ s.a.rotateRight 13 ^^^ s.a.rotateRight 22
  let maj := (s.a &&& s.b) ^^^ (s.a &&& s.c) ^^^ (s.b &&& s.c)
  ⟨t₁ + (s₀ + maj), s.a, s.b, s.c, s.d + t₁, s.e, s.f, s.g⟩

def compress (s : State) (block : List Byte) : State :=
  let t := (constants.zip (extend 48 (blockWords block)).reverse).foldl round s
  ⟨s.a + t.a, s.b + t.b, s.c + t.c, s.d + t.d, s.e + t.e, s.f + t.f, s.g + t.g, s.h + t.h⟩

def wordBytes (w : Word) : List Byte :=
  [w.extractLsb' 24 8, w.extractLsb' 16 8, w.extractLsb' 8 8, w.extractLsb' 0 8]

def State.bytes (s : State) : List Byte :=
  [s.a, s.b, s.c, s.d, s.e, s.f, s.g, s.h].flatMap wordBytes

end Sha256

/-- The digest of a message. -/
def sha256 (message : List Sha256.Byte) : List Sha256.Byte :=
  let padded := Sha256.pad message
  ((List.range (padded.length / 64)).foldl
    (fun s i => Sha256.compress s ((padded.drop (64 * i)).take 64)) Sha256.initial).bytes

theorem length_sha256 (message : List Sha256.Byte) : (sha256 message).length = 32 := rfl

/-! ## base32 -/

/-- The bits of a byte, the highest first. -/
def byteBits (b : Sha256.Byte) : List Bool := (List.range 8).map fun i => b.getLsbD (7 - i)

/-- The value of some bits, the highest first, filled up to five. -/
def quintetValue (bits : List Bool) : Nat :=
  bits.foldl (fun n b => 2 * n + b.toNat) 0 * 2 ^ (5 - bits.length)

/-- The values of the bits, five at a time. -/
def quintets (bits : List Bool) : List Nat :=
  (List.range ((bits.length + 4) / 5)).map fun i => quintetValue ((bits.drop (5 * i)).take 5)

def base32HexAlphabet : List Char := "0123456789ABCDEFGHIJKLMNOPQRSTUV".toList

/-- `base32.HexEncoding.WithPadding(base32.NoPadding).EncodeToString`. -/
def base32Hex (bytes : List Sha256.Byte) : List Char :=
  (quintets (bytes.flatMap byteBits)).map fun n => base32HexAlphabet.getD n '0'

theorem length_base32Hex (bytes : List Sha256.Byte) :
    (base32Hex bytes).length = (bytes.length * 8 + 4) / 5 := by
  have hbits : (bytes.flatMap byteBits).length = bytes.length * 8 := by
    simp [List.length_flatMap, byteBits]
  rw [base32Hex, List.length_map, quintets, List.length_map, List.length_range, hbits]

/-- The digest of `abc`. -/
example : base32Hex (sha256 [0x61, 0x62, 0x63]) =
    "N9S1DFSF077UKGA183F5RBH24EO06OD3IOBNL75K23VM3SG02MMG".toList := by decide +kernel

end Fleetboard

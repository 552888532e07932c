import StumpGen.Text

/-!
# Digests

Files are told apart by their SHA-256 digests: 32 bytes computed from blocks of 64 bytes.
-/

namespace StumpGen

/-- The digest of a text. -/
structure Digest where
  /-- The bytes, 32 of them. -/
  bytes : Text
  deriving DecidableEq, Repr, Inhabited

namespace Digest

/-- The round constants: the first 32 bits of the fractional parts of the cube roots of the
first 64 primes. -/
def roundConstants : Array UInt32 :=
  #[0x428a2f98, 0x71374491, 0xb5c0fbcf, 0xe9b5dba5, 0x3956c25b, 0x59f111f1, 0x923f82a4,
    0xab1c5ed5, 0xd807aa98, 0x12835b01, 0x243185be, 0x550c7dc3, 0x72be5d74, 0x80deb1fe,
    0x9bdc06a7, 0xc19bf174, 0xe49b69c1, 0xefbe4786, 0x0fc19dc6, 0x240ca1cc, 0x2de92c6f,
    0x4a7484aa, 0x5cb0a9dc, 0x76f988da, 0x983e5152, 0xa831c66d, 0xb00327c8, 0xbf597fc7,
    0xc6e00bf3, 0xd5a79147, 0x06ca6351, 0x14292967, 0x27b70a85, 0x2e1b2138, 0x4d2c6dfc,
    0x53380d13, 0x650a7354, 0x766a0abb, 0x81c2c92e, 0x92722c85, 0xa2bfe8a1, 0xa81a664b,
    0xc24b8b70, 0xc76c51a3, 0xd192e819, 0xd6990624, 0xf40e3585, 0x106aa070, 0x19a4c116,
    0x1e376c08, 0x2748774c, 0x34b0bcb5, 0x391c0cb3, 0x4ed8aa4a, 0x5b9cca4f, 0x682e6ff3,
    0x748f82ee, 0x78a5636f, 0x84c87814, 0x8cc70208, 0x90befffa, 0xa4506ceb, 0xbef9a3f7,
    0xc67178f2]

/-- The eight words that are carried from block to block. -/
structure Chain where
  /-- First word. -/
  a : UInt32
  /-- Second word. -/
  b : UInt32
  /-- Third word. -/
  c : UInt32
  /-- Fourth word. -/
  d : UInt32
  /-- Fifth word. -/
  e : UInt32
  /-- Sixth word. -/
  f : UInt32
  /-- Seventh word. -/
  g : UInt32
  /-- Eighth word. -/
  h : UInt32

/-- The words to start with: the fractional parts of the square roots of the first eight
primes. -/
def Chain.start : Chain :=
  ⟨0x6a09e667, 0xbb67ae85, 0x3c6ef372, 0xa54ff53a, 0x510e527f, 0x9b05688c, 0x1f83d9ab, 0x5be0cd19⟩

/-- The words added one by one. -/
def Chain.add (x y : Chain) : Chain :=
  ⟨x.a + y.a, x.b + y.b, x.c + y.c, x.d + y.d, x.e + y.e, x.f + y.f, x.g + y.g, x.h + y.h⟩

/-- Rotation to the right. -/
def rotate (x n : UInt32) : UInt32 := (x >>> n) ||| (x <<< (32 - n))

/-- Four bytes of a block as a word, high byte first. -/
def wordAt (block : Array UInt8) (i : Nat) : UInt32 :=
  let at4 (k : Nat) : UInt32 := (block.getD (4 * i + k) 0).toUInt32
  (at4 0 <<< 24) ||| (at4 1 <<< 16) ||| (at4 2 <<< 8) ||| at4 3

/-- Adds a word to the message schedule. -/
def extend (w : Array UInt32) (i : Nat) : Array UInt32 :=
  let x := w.getD (i + 1) 0
  let y := w.getD (i + 14) 0
  let s0 := rotate x 7 ^^^ rotate x 18 ^^^ (x >>> 3)
  let s1 := rotate y 17 ^^^ rotate y 19 ^^^ (y >>> 10)
  w.push (w.getD i 0 + s0 + w.getD (i + 9) 0 + s1)

/-- The message schedule of a block: 64 words. -/
def schedule (block : Array UInt8) : Array UInt32 :=
  (List.range 48).foldl extend ((Array.range 16).map (wordAt block))

/-- One round. -/
def round (w : Array UInt32) (s : Chain) (i : Nat) : Chain :=
  let s1 := rotate s.e 6 ^^^ rotate s.e 11 ^^^ rotate s.e 25
  let ch := (s.e &&& s.f) ^^^ ((~~~ s.e) &&& s.g)
  let t1 := s.h + s1 + ch + roundConstants.getD i 0 + w.getD i 0
  let s0 := rotate s.a 2 ^^^ rotate s.a 13 ^^^ rotate s.a 22
  let maj := (s.a &&& s.b) ^^^ (s.a &&& s.c) ^^^ (s.b &&& s.c)
  ⟨t1 + (s0 + maj), s.a, s.b, s.c, s.d + t1, s.e, s.f, s.g⟩

/-- Works a block of 64 bytes into the chain. -/
def absorb (s : Chain) (block : Array UInt8) : Chain :=
  s.add ((List.range 64).foldl (round (schedule block)) s)

/-- The chain so far and the bytes of the block that is being filled. -/
abbrev State := Chain × Array UInt8

/-- Adds a byte. -/
def feed (s : State) (b : UInt8) : State :=
  let block := s.2.push b
  if block.size = 64 then (absorb s.1 block, #[]) else (s.1, block)

/-- The bytes of a number, high byte first. -/
def bigEndian (width n : Nat) : Text :=
  ((List.range width).map fun i => (n / Nat.pow 256 i % 256).toUInt8).reverse

/-- What follows a text of `n` bytes to fill its last block: a one bit, zeros and the number
of bits. -/
def padding (n : Nat) : Text :=
  0x80 :: List.replicate ((119 - n % 64) % 64) 0 ++ bigEndian 8 (8 * n)

/-- The digest of a text. -/
def ofText (t : Text) : Digest :=
  let c := ((t ++ padding t.length).foldl feed (Chain.start, #[])).1
  ⟨[c.a, c.b, c.c, c.d, c.e, c.f, c.g, c.h].flatMap fun w => bigEndian 4 w.toNat⟩

/-- The digest of digests one after another. -/
def combine (ds : List Digest) : Digest := ofText (ds.flatMap bytes)

/-- Whether all bytes are zero. -/
def isZero (d : Digest) : Bool := d.bytes.all (· == 0)

/-- The digest in hexadecimal. -/
def hex (d : Digest) : Text := Text.hexBytes d.bytes

end Digest

end StumpGen

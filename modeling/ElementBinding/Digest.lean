import ElementBinding.Text.Utf8
import ElementBinding.Text.Quoted
/-!
# Content digests

SHA-256 over the octets of a file, written as lower-case hexadecimal text. The message is padded to
whole blocks of sixty-four octets; every block stirs a state of eight words with a schedule of
sixty-four words, of which sixteen come from the block and each further one from the sixteen
before it.
-/
namespace ElementBinding.Digest
open ElementBinding.Text

structure State where
  a : UInt32
  b : UInt32
  c : UInt32
  d : UInt32
  e : UInt32
  f : UInt32
  g : UInt32
  h : UInt32

/-- The state before the first block: fractional parts of the square roots of eight primes. -/
def State.initial : State :=
  ⟨0x6a09e667, 0xbb67ae85, 0x3c6ef372, 0xa54ff53a, 0x510e527f, 0x9b05688c, 0x1f83d9ab, 0x5be0cd19⟩

/-- One constant per round: fractional parts of the cube roots of sixty-four primes. -/
def roundConstants : List UInt32 := [
  0x428a2f98, 0x71374491, 0xb5c0fbcf, 0xe9b5dba5, 0x3956c25b, 0x59f111f1, 0x923f82a4, 0xab1c5ed5,
  0xd807aa98, 0x12835b01, 0x243185be, 0x550c7dc3, 0x72be5d74, 0x80deb1fe, 0x9bdc06a7, 0xc19bf174,
  0xe49b69c1, 0xefbe4786, 0x0fc19dc6, 0x240ca1cc, 0x2de92c6f, 0x4a7484aa, 0x5cb0a9dc, 0x76f988da,
  0x983e5152, 0xa831c66d, 0xb00327c8, 0xbf597fc7, 0xc6e00bf3, 0xd5a79147, 0x06ca6351, 0x14292967,
  0x27b70a85, 0x2e1b2138, 0x4d2c6dfc, 0x53380d13, 0x650a7354, 0x766a0abb, 0x81c2c92e, 0x92722c85,
  0xa2bfe8a1, 0xa81a664b, 0xc24b8b70, 0xc76c51a3, 0xd192e819, 0xd6990624, 0xf40e3585, 0x106aa070,
  0x19a4c116, 0x1e376c08, 0x2748774c, 0x34b0bcb5, 0x391c0cb3, 0x4ed8aa4a, 0x5b9cca4f, 0x682e6ff3,
  0x748f82ee, 0x78a5636f, 0x84c87814, 0x8cc70208, 0x90befffa, 0xa4506ceb, 0xbef9a3f7, 0xc67178f2]

def rotate (x n : UInt32) : UInt32 := (x >>> n) ||| (x <<< (32 - n))

/-- The words of a schedule that go on from the sixteen words of a window. -/
def extend : (count : Nat) → (window : List UInt32) → List UInt32
  | count + 1, w0 :: w1 :: w2 :: w3 :: w4 :: w5 :: w6 :: w7 :: w8 :: w9 :: w10 :: w11 :: w12 ::
      w13 :: w14 :: w15 :: _ =>
    let s0 := rotate w1 7 ^^^ rotate w1 18 ^^^ (w1 >>> 3)
    let s1 := rotate w14 17 ^^^ rotate w14 19 ^^^ (w14 >>> 10)
    let next := w0 + s0 + w9 + s1
    next :: extend count
      [w1, w2, w3, w4, w5, w6, w7, w8, w9, w10, w11, w12, w13, w14, w15, next]
  | _, _ => []

def schedule (block : List UInt32) : List UInt32 := block ++ extend 48 block

/-- One round: a constant and a schedule word are stirred into the state. -/
def State.stir (s : State) (constant word : UInt32) : State :=
  let s1 := rotate s.e 6 ^^^ rotate s.e 11 ^^^ rotate s.e 25
  let choice := (s.e &&& s.f) ^^^ (~~~s.e &&& s.g)
  let t1 := s.h + s1 + choice + constant + word
  let s0 := rotate s.a 2 ^^^ rotate s.a 13 ^^^ rotate s.a 22
  let majority := (s.a &&& s.b) ^^^ (s.a &&& s.c) ^^^ (s.b &&& s.c)
  ⟨t1 + (s0 + majority), s.a, s.b, s.c, s.d + t1, s.e, s.f, s.g⟩

def State.add (s t : State) : State :=
  ⟨s.a + t.a, s.b + t.b, s.c + t.c, s.d + t.d, s.e + t.e, s.f + t.f, s.g + t.g, s.h + t.h⟩

def State.absorb (s : State) (block : List UInt32) : State :=
  s.add ((roundConstants.zip (schedule block)).foldl (fun t round => t.stir round.1 round.2) s)

def State.words (s : State) : List UInt32 := [s.a, s.b, s.c, s.d, s.e, s.f, s.g, s.h]

/-- The last `width` octets of a number, the most significant first. -/
def octetsOf : (width : Nat) → Nat → Octets
  | 0, _ => []
  | width + 1, n => octetsOf width (n / 256) ++ [UInt8.ofNat n]

/-- A message with its padding: a single one bit, zeros up to a whole block, the length in bits. -/
def pad (message : Octets) : Octets :=
  message ++ 0x80 :: List.replicate ((119 - message.length % 64) % 64) 0 ++
    octetsOf 8 (message.length * 8)

def wordsOf : Octets → List UInt32
  | a :: b :: c :: d :: rest =>
    ((a.toUInt32 <<< 24) ||| (b.toUInt32 <<< 16) ||| (c.toUInt32 <<< 8) ||| d.toUInt32) ::
      wordsOf rest
  | _ => []

def absorbBlocks : (count : Nat) → State → List UInt32 → State
  | 0, s, _ => s
  | count + 1, s, words => absorbBlocks count (s.absorb (words.take 16)) (words.drop 16)

/-- The SHA-256 digest of some octets, as hexadecimal text. -/
def sha256 (message : Octets) : String :=
  let padded := pad message
  let final := absorbBlocks (padded.length / 64) .initial (wordsOf padded)
  String.ofList (final.words.flatMap fun word => hexDigits 8 word.toNat)

/-- The digest of a text in its UTF-8 form. -/
def ofText (text : String) : String := sha256 (encode text)

end ElementBinding.Digest

import MiningPool.Bytes

/-!
# SHA-256

The digest of a byte string.  The padded message is cut into blocks of sixteen
words; each block is extended to sixty four words and mixed into a chaining value of
eight words.
-/

namespace MiningPool.Digest.Sha256

/-- The chaining value. -/
structure Chain where
  a : UInt32
  b : UInt32
  c : UInt32
  d : UInt32
  e : UInt32
  f : UInt32
  g : UInt32
  h : UInt32
  deriving DecidableEq, Repr

/-- The chaining value before the first block. -/
def Chain.start : Chain :=
  ⟨0x6a09e667, 0xbb67ae85, 0x3c6ef372, 0xa54ff53a,
   0x510e527f, 0x9b05688c, 0x1f83d9ab, 0x5be0cd19⟩

/-- The constant of each round. -/
def roundConstants : Array UInt32 :=
  #[0x428a2f98, 0x71374491, 0xb5c0fbcf, 0xe9b5dba5, 0x3956c25b, 0x59f111f1,
     0x923f82a4, 0xab1c5ed5, 0xd807aa98, 0x12835b01, 0x243185be, 0x550c7dc3,
     0x72be5d74, 0x80deb1fe, 0x9bdc06a7, 0xc19bf174, 0xe49b69c1, 0xefbe4786,
     0x0fc19dc6, 0x240ca1cc, 0x2de92c6f, 0x4a7484aa, 0x5cb0a9dc, 0x76f988da,
     0x983e5152, 0xa831c66d, 0xb00327c8, 0xbf597fc7, 0xc6e00bf3, 0xd5a79147,
     0x06ca6351, 0x14292967, 0x27b70a85, 0x2e1b2138, 0x4d2c6dfc, 0x53380d13,
     0x650a7354, 0x766a0abb, 0x81c2c92e, 0x92722c85, 0xa2bfe8a1, 0xa81a664b,
     0xc24b8b70, 0xc76c51a3, 0xd192e819, 0xd6990624, 0xf40e3585, 0x106aa070,
     0x19a4c116, 0x1e376c08, 0x2748774c, 0x34b0bcb5, 0x391c0cb3, 0x4ed8aa4a,
     0x5b9cca4f, 0x682e6ff3, 0x748f82ee, 0x78a5636f, 0x84c87814, 0x8cc70208,
     0x90befffa, 0xa4506ceb, 0xbef9a3f7, 0xc67178f2]

/-- Rotate a word to the right. -/
@[inline]
def rotate (word amount : UInt32) : UInt32 :=
  (word >>> amount) ||| (word <<< (32 - amount))

/-- The big-endian word at an offset of the padded message. -/
@[inline]
def wordAt (message : ByteArray) (offset : Nat) : UInt32 :=
  ((message.get! offset).toUInt32 <<< 24) |||
  ((message.get! (offset + 1)).toUInt32 <<< 16) |||
  ((message.get! (offset + 2)).toUInt32 <<< 8) |||
  (message.get! (offset + 3)).toUInt32

/-- Load `left` more words of a block. -/
def load (message : ByteArray) : (left offset : Nat) → Array UInt32 → Array UInt32
  | 0, _, words => words
  | left + 1, offset, words =>
    load message left (offset + 4) (words.push (wordAt message offset))

/-- Extend a block by `left` more words. -/
def extend : (left : Nat) → Array UInt32 → Array UInt32
  | 0, words => words
  | left + 1, words =>
    let size := words.size
    let early := words.getD (size - 15) 0
    let late := words.getD (size - 2) 0
    let mixedEarly := rotate early 7 ^^^ rotate early 18 ^^^ (early >>> 3)
    let mixedLate := rotate late 17 ^^^ rotate late 19 ^^^ (late >>> 10)
    extend left <| words.push <|
      words.getD (size - 16) 0 + mixedEarly + words.getD (size - 7) 0 + mixedLate

/-- Run the last `left` of the sixty four rounds. -/
def rounds (words : Array UInt32) : (left : Nat) → (a b c d e f g h : UInt32) → Chain
  | 0, a, b, c, d, e, f, g, h => ⟨a, b, c, d, e, f, g, h⟩
  | left + 1, a, b, c, d, e, f, g, h =>
    let index := 63 - left
    let chosen := (e &&& f) ^^^ (~~~e &&& g)
    let majority := (a &&& b) ^^^ (a &&& c) ^^^ (b &&& c)
    let first :=
      h + (rotate e 6 ^^^ rotate e 11 ^^^ rotate e 25) + chosen +
        roundConstants.getD index 0 + words.getD index 0
    let second := (rotate a 2 ^^^ rotate a 13 ^^^ rotate a 22) + majority
    rounds words left (first + second) a b c (d + first) e f g

/-- Mix the block at an offset into the chaining value. -/
def compress (message : ByteArray) (offset : Nat) (chain : Chain) : Chain :=
  let words := extend 48 (load message 16 offset (Array.mkEmpty 64))
  let mixed :=
    rounds words 64 chain.a chain.b chain.c chain.d chain.e chain.f chain.g chain.h
  ⟨chain.a + mixed.a, chain.b + mixed.b, chain.c + mixed.c, chain.d + mixed.d,
   chain.e + mixed.e, chain.f + mixed.f, chain.g + mixed.g, chain.h + mixed.h⟩

/-- Mix in the blocks that are left. -/
def absorb (message : ByteArray) : (left offset : Nat) → Chain → Chain
  | 0, _, chain => chain
  | left + 1, offset, chain =>
    absorb message left (offset + 64) (compress message offset chain)

/-- Append a one bit, zeros, and the length in bits, up to whole blocks. -/
def pad (message : Bytes) : ByteArray :=
  let length := message.length
  let zeros := (119 - length % 64) % 64
  message.toByteArray.push 0x80 ++
    (List.replicate zeros 0 ++ Bytes.ofNatBE 8 (8 * length)).toByteArray

/-- The chaining value as bytes. -/
def Chain.toBytes (chain : Chain) : Bytes :=
  [chain.a, chain.b, chain.c, chain.d, chain.e, chain.f, chain.g, chain.h].flatMap
    fun word => Bytes.ofNatBE 4 word.toNat

/-- The digest of a message, 32 bytes. -/
def hash (message : Bytes) : Bytes :=
  let padded := pad message
  (absorb padded (padded.size / 64) 0 Chain.start).toBytes

/-- The digest of the digest. -/
def double (message : Bytes) : Bytes :=
  hash (hash message)

theorem Chain.length_toBytes (chain : Chain) :
    chain.toBytes.length = 32 := by
  simp [Chain.toBytes, Bytes.ofNatBE]

@[simp]
theorem length_hash (message : Bytes) :
    (hash message).length = 32 :=
  Chain.length_toBytes _

@[simp]
theorem length_double (message : Bytes) :
    (double message).length = 32 :=
  length_hash _

/-- The digest of a message under a tag that separates its use from all others. -/
def tagged (tag : String) (message : Bytes) : Bytes :=
  let separator := hash tag.toUTF8.toList
  hash (separator ++ separator ++ message)

end MiningPool.Digest.Sha256

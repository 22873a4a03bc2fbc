import MiningPool.Bytes

/-!
# The ChaCha20 keystream

A block of the keystream comes from a key, a nonce and a block number.  Encrypting
and decrypting are the same: the keystream is combined with the text by exclusive or.
-/

namespace MiningPool.Cipher.ChaCha20

/-- Rotate a word to the left. -/
@[inline]
def rotate (word amount : UInt32) : UInt32 :=
  (word <<< amount) ||| (word >>> (32 - amount))

/-- Mix four of the sixteen words. -/
def quarter (words : Array UInt32) (first second third fourth : Nat) : Array UInt32 :=
  let a := words.getD first 0
  let b := words.getD second 0
  let c := words.getD third 0
  let d := words.getD fourth 0
  let a := a + b
  let d := rotate (d ^^^ a) 16
  let c := c + d
  let b := rotate (b ^^^ c) 12
  let a := a + b
  let d := rotate (d ^^^ a) 8
  let c := c + d
  let b := rotate (b ^^^ c) 7
  (((words.setIfInBounds first a).setIfInBounds second b).setIfInBounds third c).setIfInBounds
    fourth d

/-- Mix the columns, then the diagonals. -/
def doubleRound (words : Array UInt32) : Array UInt32 :=
  let words := quarter words 0 4 8 12
  let words := quarter words 1 5 9 13
  let words := quarter words 2 6 10 14
  let words := quarter words 3 7 11 15
  let words := quarter words 0 5 10 15
  let words := quarter words 1 6 11 12
  let words := quarter words 2 7 8 13
  quarter words 3 4 9 14

/-- Mix `count` times. -/
def doubleRounds : (count : Nat) → Array UInt32 → Array UInt32
  | 0, words => words
  | count + 1, words => doubleRounds count (doubleRound words)

/-- The words of a byte string, least significant byte first. -/
def wordsOf (bytes : Bytes) : List UInt32 :=
  (bytes.chunks 4).map fun chunk => UInt32.ofNat chunk.toNatLE

/-- Cut bytes to a length, or fill them up with zeros. -/
def fitTo (length : Nat) (bytes : Bytes) : Bytes :=
  (bytes ++ List.replicate length 0).take length

/-- The words from which the block of a 32 byte key, a 12 byte nonce and a number is mixed. -/
def start (key nonce : Bytes) (number : Nat) : Array UInt32 :=
  ([0x61707865, 0x3320646e, 0x79622d32, 0x6b206574] ++ wordsOf (fitTo 32 key) ++
    [UInt32.ofNat number] ++ wordsOf (fitTo 12 nonce)).toArray

/-- The 64 bytes of the block of a key, a nonce and a number. -/
def block (key nonce : Bytes) (number : Nat) : Bytes :=
  let words := start key nonce number
  let mixed := doubleRounds 10 words
  (List.zipWith (· + ·) mixed.toList words.toList).flatMap fun word =>
    Bytes.ofNatLE 4 word.toNat

/-- As many blocks of keystream as cover `length` bytes, from a block number on. -/
def keystream (key nonce : Bytes) (number length : Nat) : Bytes :=
  (List.range ((length + 63) / 64)).flatMap fun index => block key nonce (number + index)

/-- Combine a text with the keystream from a block number on. -/
def combine (key nonce : Bytes) (number : Nat) (text : Bytes) : Bytes :=
  text.xor (keystream key nonce number text.length)

end MiningPool.Cipher.ChaCha20

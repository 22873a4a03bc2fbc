import MiningPool.Bytes

/-!
# The Poly1305 authenticator

A message is read as the coefficients of a polynomial, which is evaluated at a secret
point modulo a prime; a second secret is added to the result.
-/

namespace MiningPool.Cipher.Poly1305

/-- The prime `2 ^ 130 - 5`. -/
def modulus : Nat := (1 <<< 130) - 5

/-- The bits that a point may have. -/
def pointMask : Nat := 0x0ffffffc0ffffffc0ffffffc0fffffff

/-- Take in one more coefficient. -/
def step (point accumulated : Nat) (chunk : Bytes) : Nat :=
  (accumulated + chunk.toNatLE + Bytes.capacity chunk.length) * point % modulus

/-- The 16 byte tag of a message under a 32 byte key used once. -/
def tag (key message : Bytes) : Bytes :=
  let point := Bytes.toNatLE (key.take 16) &&& pointMask
  let offset := Bytes.toNatLE (key.drop 16)
  let accumulated := (message.chunks 16).foldl (step point) 0
  Bytes.ofNatLE 16 (accumulated + offset)

end MiningPool.Cipher.Poly1305

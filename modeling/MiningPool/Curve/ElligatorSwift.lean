import MiningPool.Curve.Key

/-!
# Public keys that look random

A first coordinate is written as a pair `u`, `t` of field elements that cannot be told
from random bytes.  Decoding maps every pair to a point.  Encoding tries pairs of a
hash-driven `u` and one of up to eight solutions `t`, until one exists.
-/

namespace MiningPool.Curve.ElligatorSwift

/-- A square root of minus three. -/
def rootMinusThree : Nat :=
  0x0a2d2ba93507f1df233770c2a797962cc61f6d15da14ecd47d8d27ae1cd5f852

/-- The three candidates of a pair, of which at least one is the first coordinate of a point. -/
def candidates (u t : Nat) : List Nat :=
  let u := if u = 0 then 1 else u
  let t := if t = 0 then 1 else t
  let uCubic := cubic u
  let t := if Field.add uCubic (Field.mul t t) = 0 then Field.add t t else t
  let x := Field.div (Field.sub uCubic (Field.mul t t)) (Field.add t t)
  let y := Field.div (Field.add x t) (Field.mul rootMinusThree u)
  let ratio := Field.div x y
  [Field.add u (Field.mul 4 (Field.mul y y)),
   Field.half (Field.sub (Field.negate ratio) u),
   Field.half (Field.sub ratio u)]

/-- The first coordinate that a pair stands for. -/
def abscissa (u t : Nat) : Nat :=
  ((candidates u t).find? isAbscissa).getD 0

/-- The two field elements of an encoding. -/
def pairOf (encoding : Bytes) : Nat × Nat :=
  (Field.reduce (Bytes.toNatBE (encoding.take 32)),
   Field.reduce (Bytes.toNatBE (encoding.drop 32)))

/-- The point of an encoding, its second coordinate of the parity of `t`. -/
def decode (encoding : Bytes) : Point :=
  let (u, t) := pairOf encoding
  (Point.ofAbscissa? (abscissa u t) (t % 2 == 1)).getD Point.generator

/-- The solution numbered `branch`, of eight, of `abscissa u t = x` for `t`. -/
def solve? (x u branch : Nat) : Option Nat :=
  let uCubic := cubic u
  let found :=
    if branch / 2 % 2 = 0 then
      if isAbscissa (Field.negate (Field.add x u)) then none
      else
        let divisor :=
          Field.add (Field.add (Field.mul u u) (Field.mul u x)) (Field.mul x x)
        some (x, Field.negate (Field.div uCubic divisor))
    else
      let s := Field.sub x u
      if s = 0 then none
      else
        let inner :=
          Field.add (Field.mul 4 uCubic) (Field.mul 3 (Field.mul s (Field.mul u u)))
        match Field.sqrt? (Field.mul (Field.negate s) inner) with
        | none => none
        | some r =>
          if branch % 2 = 1 ∧ r = 0 then none
          else some (Field.half (Field.sub (Field.div r s) u), s)
  match found with
  | none => none
  | some (v, s) =>
    match Field.sqrt? s with
    | none => none
    | some w =>
      let lower := Field.mul u (Field.half (Field.sub 1 rootMinusThree))
      let upper := Field.mul u (Field.half (Field.add 1 rootMinusThree))
      let low := Field.mul w (Field.add lower v)
      let high := Field.mul w (Field.add upper v)
      some <|
        if branch % 2 = 0 then
          if branch / 4 % 2 = 0 then Field.negate low else low
        else
          if branch / 4 % 2 = 0 then high else Field.negate high

/-- The digest that drives the search at a counter. -/
def searchBlock (seed : Bytes) (counter : Nat) : Bytes :=
  let separator := Digest.Sha256.hash "secp256k1_ellswift_encode".toUTF8.toList
  Digest.Sha256.hash (separator ++ separator ++ seed ++ Bytes.ofNatLE 4 counter)

/-- The four bit branch number at an index of a pool of 64. -/
def branchAt (pool : Bytes) (index : Nat) : Nat :=
  let byte := (pool.getD (index / 2) 0).toNat
  (if index % 2 = 0 then byte else byte / 16) % 8

/-- How many pairs the search tries. -/
def searchLimit : Nat := 4096

/-- Search a pair for a first coordinate, with `left` branch numbers left in the pool. -/
def search
    (seed : Bytes)
    (x : Nat) :
    (tries : Nat) → (counter left : Nat) → (pool : Bytes) → Option (Bytes × Nat)
  | 0, _, _, _ => none
  | tries + 1, counter, left, pool =>
    let refill := left = 0
    let pool := if refill then searchBlock seed counter else pool
    let counter := if refill then counter + 1 else counter
    let left := if refill then 63 else left - 1
    let uBytes := searchBlock seed counter
    match solve? x (Field.reduce uBytes.toNatBE) (branchAt pool left) with
    | some t => some (uBytes, t)
    | none => search seed x tries (counter + 1) left pool

/-- Encode a point; the parity of `t` is that of the second coordinate. -/
def encode (point : Point) : Bytes :=
  let seed := point.compressed ++ List.replicate 63 0
  match search seed point.x searchLimit 0 0 [] with
  | none => List.replicate 64 0
  | some (uBytes, t) =>
    let t := if (t % 2 == 1) == point.isOdd then t else Field.negate t
    uBytes ++ Bytes.ofNatBE 32 t

/-- The side that a party takes in a key agreement. -/
inductive Party
  | initiator
  | responder
  deriving DecidableEq, Repr

/-- The secret that two parties share, from both encodings and the secret key of one. -/
def sharedSecret
    (initiator responder : Bytes)
    (secret : Nat)
    (party : Party) :
    Bytes :=
  let theirs := match party with
    | .initiator => responder
    | .responder => initiator
  let (u, t) := pairOf theirs
  let point := (Point.ofAbscissa? (abscissa u t) false).getD Point.generator
  let shared := ((Ratio.multiply secret point).toPoint?).getD Point.generator
  Digest.Sha256.tagged "bip324_ellswift_xonly_ecdh" (initiator ++ responder ++ shared.bytes)

end MiningPool.Curve.ElligatorSwift

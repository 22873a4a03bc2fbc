import MiningPool.Bytes
import MiningPool.Curve.Field

/-!
# Points of the curve

The curve `y ^ 2 = x ^ 3 + 7` over the prime field.  Points are added and multiplied
in projective coordinates, in which a point is a ratio and only the end result needs
an inversion.
-/

namespace MiningPool.Curve

/-- The number of points of the curve. -/
def order : Nat :=
  0xfffffffffffffffffffffffffffffffebaaedce6af48a03bbfd25e8cd0364141

/-- A point in affine coordinates. -/
structure Point where
  x : Nat
  y : Nat
  deriving DecidableEq, Repr

/-- The right hand side of the equation of the curve. -/
def cubic (x : Nat) : Nat :=
  Field.add (Field.mul (Field.mul x x) x) 7

/-- Whether a number is the first coordinate of a point. -/
def isAbscissa (x : Nat) : Bool :=
  Field.isSquare (cubic x)

namespace Point

/-- The point from which all others are multiples. -/
def generator : Point :=
  ⟨0x79be667ef9dcbbac55a06295ce870b07029bfcdb2dce28d959f2815b16f81798,
   0x483ada7726a3c4655da4fbfc0e1108a8fd17b448a68554199c47d08ffb10d4b8⟩

/-- Whether the second coordinate is odd. -/
def isOdd (point : Point) : Bool :=
  point.y % 2 == 1

/-- The point with the other sign of the second coordinate. -/
def negate (point : Point) : Point :=
  ⟨point.x, Field.negate point.y⟩

/-- The point of a first coordinate whose second coordinate has a parity. -/
def ofAbscissa? (x : Nat) (odd : Bool) : Option Point :=
  match Field.sqrt? (cubic x) with
  | none => none
  | some y => if (y % 2 == 1) == odd then some ⟨x, y⟩ else some ⟨x, Field.negate y⟩

/-- The first coordinate after a byte for the parity of the second. -/
def compressed (point : Point) : Bytes :=
  (if point.isOdd then 3 else 2) :: Bytes.ofNatBE 32 point.x

end Point

/-- A point as the ratios `x / z ^ 2` and `y / z ^ 3`; `z = 0` is the neutral element. -/
structure Ratio where
  x : Nat
  y : Nat
  z : Nat
  deriving DecidableEq, Repr

namespace Ratio

/-- The neutral element. -/
def neutral : Ratio := ⟨1, 1, 0⟩

/-- A point over one. -/
def ofPoint (point : Point) : Ratio := ⟨point.x, point.y, 1⟩

/-- The affine coordinates; `none` for the neutral element. -/
def toPoint? (ratio : Ratio) : Option Point :=
  if ratio.z = 0 then none
  else
    let inverse := Field.invert ratio.z
    let square := Field.mul inverse inverse
    some ⟨Field.mul ratio.x square, Field.mul ratio.y (Field.mul square inverse)⟩

/-- Add a point to itself. -/
def double (ratio : Ratio) : Ratio :=
  if ratio.z = 0 ∨ ratio.y = 0 then neutral
  else
    let ySquare := Field.mul ratio.y ratio.y
    let s := Field.mul 4 (Field.mul ratio.x ySquare)
    let m := Field.mul 3 (Field.mul ratio.x ratio.x)
    let x := Field.sub (Field.mul m m) (Field.mul 2 s)
    let y :=
      Field.sub (Field.mul m (Field.sub s x)) (Field.mul 8 (Field.mul ySquare ySquare))
    ⟨x, y, Field.mul 2 (Field.mul ratio.y ratio.z)⟩

/-- Add two points. -/
def add (left right : Ratio) : Ratio :=
  if left.z = 0 then right
  else if right.z = 0 then left
  else
    let leftSquare := Field.mul left.z left.z
    let rightSquare := Field.mul right.z right.z
    let u := Field.mul left.x rightSquare
    let v := Field.mul right.x leftSquare
    let s := Field.mul left.y (Field.mul rightSquare right.z)
    let t := Field.mul right.y (Field.mul leftSquare left.z)
    if u = v then
      if s = t then double left else neutral
    else
      let h := Field.sub v u
      let r := Field.sub t s
      let hSquare := Field.mul h h
      let hCube := Field.mul hSquare h
      let w := Field.mul u hSquare
      let x := Field.sub (Field.sub (Field.mul r r) hCube) (Field.mul 2 w)
      let y := Field.sub (Field.mul r (Field.sub w x)) (Field.mul s hCube)
      ⟨x, y, Field.mul h (Field.mul left.z right.z)⟩

/-- Add the multiple of a point by a factor of `bits` bits to `accumulated`. -/
def multiplyOnto : (bits factor : Nat) → (base accumulated : Ratio) → Ratio
  | 0, _, _, accumulated => accumulated
  | bits + 1, factor, base, accumulated =>
    multiplyOnto bits (factor / 2) (double base)
      (if factor % 2 = 1 then add accumulated base else accumulated)

/-- The multiple of a point by a factor below `2 ^ 256`. -/
def multiply (factor : Nat) (point : Point) : Ratio :=
  multiplyOnto 256 factor (ofPoint point) neutral

end Ratio

end MiningPool.Curve

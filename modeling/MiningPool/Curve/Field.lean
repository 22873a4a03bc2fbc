/-!
# Arithmetic modulo a prime

Numbers below a modulus, with powers by repeated squaring.  Inverses and square roots
are powers, for the prime field over which the curve is defined.
-/

namespace MiningPool.Curve

/-- Multiply `accumulated` by a power modulo a number, for an exponent of `bits` bits. -/
def powerOnto (modulus : Nat) : (bits base exponent accumulated : Nat) → Nat
  | 0, _, _, accumulated => accumulated
  | bits + 1, base, exponent, accumulated =>
    powerOnto modulus bits (base * base % modulus) (exponent / 2)
      (if exponent % 2 = 1 then accumulated * base % modulus else accumulated)

/-- The prime of the field, `2 ^ 256 - 2 ^ 32 - 977`. -/
def prime : Nat :=
  0xfffffffffffffffffffffffffffffffffffffffffffffffffffffffefffffc2f

namespace Field

/-- Reduce a number into the field. -/
@[inline]
def reduce (value : Nat) : Nat := value % prime

@[inline]
def add (left right : Nat) : Nat := (left + right) % prime

@[inline]
def sub (left right : Nat) : Nat := (left + prime - right) % prime

@[inline]
def mul (left right : Nat) : Nat := left * right % prime

@[inline]
def negate (value : Nat) : Nat := (prime - value) % prime

/-- Raise to a power below `2 ^ 256`. -/
def power (base exponent : Nat) : Nat :=
  powerOnto prime 256 base exponent 1

/-- The inverse; zero is its own. -/
def invert (value : Nat) : Nat :=
  power value (prime - 2)

/-- Divide; dividing by zero gives zero. -/
def div (left right : Nat) : Nat :=
  mul left (invert right)

/-- The square root that is itself a square, of a number that has one. -/
def sqrt? (value : Nat) : Option Nat :=
  let root := power value ((prime + 1) / 4)
  if mul root root = value then some root else none

/-- Whether a number is a square. -/
def isSquare (value : Nat) : Bool :=
  (sqrt? value).isSome

/-- Half of a number. -/
def half (value : Nat) : Nat :=
  if value % 2 = 0 then value / 2 else (value + prime) / 2

end Field

end MiningPool.Curve

import MiningPool.Bytes
import MiningPool.Failure

/-!
# The witness of a coinbase

Miners get the two halves of a coinbase without its witness, since only then the bytes
they hash determine its identifier.  The halves are told to hold a witness by the marker
in place of the count of the inputs, which a coinbase never has at zero.
-/

namespace MiningPool.Coinbase

/-- Why a witness cannot be taken out. -/
inductive WitnessError
  /-- The first half is too short for a version and a marker. -/
  | frontTooShort
  /-- The second half does not end in one witness of 32 bytes and the lock time. -/
  | unexpected
  deriving DecidableEq, Repr

namespace WitnessError

/-- The name of a failure. -/
def name : WitnessError → String
  | frontTooShort => "CoinbaseTxPrefixTooShort"
  | unexpected => "UnexpectedWitness"

/-- The wording of a failure. -/
def message : WitnessError → String
  | frontTooShort => "Coinbase prefix too short"
  | unexpected => "Coinbase witness is not a single 32 bytes item"

instance : Failure WitnessError := ⟨name, message⟩

end WitnessError

/-- The number of bytes of the version. -/
def versionSize : Nat := 4

/-- The number of bytes of the lock time. -/
def lockTimeSize : Nat := 4

/-- The bytes that announce witnesses. -/
def witnessMarker : Bytes := [0, 1]

/-- The bytes in front of a single witness of 32 bytes: the count and the length. -/
def witnessFront : Bytes := [1, 32]

/-- The number of bytes of the witness, its count and length included. -/
def witnessSize : Nat := 34

/-- Whether the first half announces a witness. -/
def hasMarker (front : Bytes) : Bool :=
  (front.drop versionSize).take 2 == witnessMarker

/-- Take the witness out of the halves of a coinbase; nothing when they hold none. -/
def stripWitness? (front back : Bytes) : Except WitnessError (Option (Bytes × Bytes)) :=
  if front.length < versionSize + 2 then .error .frontTooShort
  else if !hasMarker front then .ok none
  else if back.length < witnessSize + lockTimeSize then .error .unexpected
  else
    let lockTimeStart := back.length - lockTimeSize
    let witnessStart := lockTimeStart - witnessSize
    if (back.drop witnessStart).take 2 ≠ witnessFront then .error .unexpected
    else
      .ok <| some
        (front.take versionSize ++ front.drop (versionSize + 2),
         back.take witnessStart ++ back.drop lockTimeStart)

/-- The halves of a coinbase without a witness. -/
def stripWitness (front back : Bytes) : Except WitnessError (Bytes × Bytes) :=
  match stripWitness? front back with
  | .error failure => .error failure
  | .ok (some stripped) => .ok stripped
  | .ok none => .ok (front, back)

end MiningPool.Coinbase

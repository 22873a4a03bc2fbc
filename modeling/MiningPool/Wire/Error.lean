import MiningPool.Failure

/-!
# Failures of the wire format

What can go wrong when a value is built, written or read, each with its wording.
-/

namespace MiningPool.Wire

/-- Why a value could not be built, written or read. -/
inductive WireError
  /-- The input ends before the value does. -/
  | outOfBounds
  /-- A truth value is neither zero nor one. -/
  | notABool (byte : Nat)
  /-- The destination is shorter than what has to be written next. -/
  | destinationTooShort (needed available : Nat)
  /-- The source is shorter than a fixed size value. -/
  | sourceTooShort (needed available : Nat)
  /-- A number does not fit in three bytes. -/
  | exceedsU24 (value : Nat)
  /-- A 256 bit value is not made of 32 bytes. -/
  | notThirtyTwoBytes (length : Nat)
  /-- A byte string is longer than its type allows. -/
  | valueTooLong (limit length : Nat)
  /-- A sequence has more elements than its type allows. -/
  | sequenceTooLong (length : Nat)
  /-- An optional value announces more than one element. -/
  | severalOptionElements (count : Nat)
  /-- A subprotocol number is not in use. -/
  | unknownProtocol (code : Nat)
  deriving DecidableEq, Repr

/-- The name of a failure. -/
def WireError.name : WireError → String
  | .outOfBounds => "OutOfBound"
  | .notABool _ => "NotABool"
  | .destinationTooShort _ _ => "WriteError"
  | .sourceTooShort _ _ => "ReadError"
  | .exceedsU24 _ => "U24TooBig"
  | .notThirtyTwoBytes _ => "InvalidU256"
  | .valueTooLong _ _ => "ValueExceedsMaxSize"
  | .sequenceTooLong _ => "SeqExceedsMaxSize"
  | .severalOptionElements _ => "Sv2OptionHaveMoreThenOneElement"
  | .unknownProtocol _ => "ValueIsNotAValidProtocol"

/-- The wording of a failure. -/
def WireError.message : WireError → String
  | .outOfBounds => "Read beyond the end of the buffer"
  | .notABool byte => s!"`{byte}` is not a valid BOOL"
  | .destinationTooShort needed available =>
    s!"Write error: need `{needed}` bytes, destination has `{available}`"
  | .sourceTooShort needed available =>
    s!"Read error: need `{needed}` bytes, got `{available}`"
  | .exceedsU24 value => s!"`{value}` does not fit in a U24"
  | .notThirtyTwoBytes length => s!"U256 must be 32 bytes, got `{length}`"
  | .valueTooLong limit length =>
    s!"Value of `{length}` bytes exceeds the maximum of `{limit}`"
  | .sequenceTooLong length => s!"Sequence of `{length}` elements is too long"
  | .severalOptionElements count =>
    s!"Sv2Option can hold at most one element, got `{count}`"
  | .unknownProtocol code => s!"`{code}` is not a valid protocol"

instance : Failure WireError := ⟨WireError.name, WireError.message⟩

end MiningPool.Wire

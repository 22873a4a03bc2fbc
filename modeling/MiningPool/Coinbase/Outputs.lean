import MiningPool.Bitcoin.Transaction
import MiningPool.Failure

/-!
# Outputs of a coinbase

Templates and miners send the outputs of a coinbase as bytes: a template a number of
outputs one after the other, a miner a list behind its count.  Bytes after the outputs
are ignored, and nothing that takes up more than four million bytes is read.
-/

namespace MiningPool.Coinbase

open MiningPool.Bitcoin

/-- Why bytes are not outputs. -/
inductive OutputsError
  | malformed
  deriving DecidableEq, Repr

namespace OutputsError

/-- The name of a failure. -/
def name : OutputsError → String
  | malformed => "OutputsDeserializationError"

/-- The wording of a failure. -/
def message : OutputsError → String
  | malformed => "Failed to deserialize coinbase outputs"

instance : Failure OutputsError := ⟨name, message⟩

end OutputsError

/-- The largest number of bytes that is read at once. -/
def readLimit : Nat := 4000000

/-- Read a single output, if it is not too large. -/
def readOutput (input : Bytes) : Option (Output × Bytes) :=
  match Output.read input with
  | none => none
  | some (output, rest) =>
    if output.write.length ≤ readLimit then some (output, rest) else none

/-- The outputs of a template. -/
def templateOutputs (bytes : Bytes) (count : UInt32) : Except OutputsError (List Output) :=
  match readItems readOutput count.toNat bytes [] with
  | none => .error .malformed
  | some (outputs, _) => .ok outputs

/-- The outputs that a miner chose. -/
def customOutputs (bytes : Bytes) : Except OutputsError (List Output) :=
  match readList Output.read bytes with
  | none => .error .malformed
  | some (outputs, rest) =>
    if bytes.length ≤ rest.length + readLimit then .ok outputs else .error .malformed

end MiningPool.Coinbase

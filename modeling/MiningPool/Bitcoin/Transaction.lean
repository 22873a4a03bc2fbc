import MiningPool.Bitcoin.CompactSize
import MiningPool.Bitcoin.Hash

/-!
# Transactions

A transaction has inputs and outputs, each a list behind its count.  Its plain form
leaves the witnesses out and determines its identifier; its full form announces them
with a marker and a flag in place of the count of the inputs, and carries them in front
of the lock time.  Reading takes either form, and nothing may follow.
-/

namespace MiningPool.Bitcoin

/-- A value and the script that guards it. -/
structure Output where
  value : UInt64
  script : Bytes
  deriving DecidableEq, Repr

/-- A reference to an output that is spent, with what unlocks it. -/
structure Input where
  /-- The identifier of the transaction that is spent from. -/
  source : Bytes
  /-- Which of its outputs is spent. -/
  index : UInt32
  script : Bytes
  sequence : UInt32
  witness : List Bytes
  deriving DecidableEq, Repr

/-- A transfer of value. -/
structure Transaction where
  version : UInt32
  inputs : List Input
  outputs : List Output
  lockTime : UInt32
  deriving DecidableEq, Repr

/-- Write bytes behind their length. -/
def writeBytes (bytes : Bytes) : Bytes :=
  CompactSize.write bytes.length ++ bytes

/-- Read bytes behind their length. -/
def readBytes (input : Bytes) : Option (Bytes × Bytes) :=
  match CompactSize.read input with
  | none => none
  | some (length, rest) => rest.cut? length

/-- Write a list behind its count. -/
def writeList {α : Type} (writeItem : α → Bytes) (items : List α) : Bytes :=
  CompactSize.write items.length ++ items.flatMap writeItem

/-- Read `count` items onto the reversed items read before. -/
def readItems
    {α : Type}
    (readItem : Bytes → Option (α × Bytes)) :
    (count : Nat) → Bytes → List α → Option (List α × Bytes)
  | 0, input, taken => some (taken.reverse, input)
  | count + 1, input, taken =>
    match readItem input with
    | none => none
    | some (item, rest) => readItems readItem count rest (item :: taken)

/-- Read a list behind its count. -/
def readList
    {α : Type}
    (readItem : Bytes → Option (α × Bytes))
    (input : Bytes) :
    Option (List α × Bytes) :=
  match CompactSize.read input with
  | none => none
  | some (count, rest) => readItems readItem count rest []

/-- Read a word, least significant byte first. -/
def readWord (input : Bytes) : Option (UInt32 × Bytes) :=
  match input.cut? 4 with
  | none => none
  | some (bytes, rest) => some (UInt32.ofNat bytes.toNatLE, rest)

/-- Write a word, least significant byte first. -/
def writeWord (word : UInt32) : Bytes :=
  Bytes.ofNatLE 4 word.toNat

namespace Output

/-- The bytes of an output. -/
def write (output : Output) : Bytes :=
  Bytes.ofNatLE 8 output.value.toNat ++ writeBytes output.script

/-- Read an output from the front of the input. -/
def read (input : Bytes) : Option (Output × Bytes) := do
  let (value, input) ← input.cut? 8
  let (script, input) ← readBytes input
  return (⟨UInt64.ofNat value.toNatLE, script⟩, input)

end Output

namespace Input

/-- The bytes of an input without its witness. -/
def write (input : Input) : Bytes :=
  input.source ++ writeWord input.index ++ writeBytes input.script ++
    writeWord input.sequence

/-- Read an input, for now without a witness. -/
def read (input : Bytes) : Option (Input × Bytes) := do
  let (source, input) ← input.cut? 32
  let (index, input) ← readWord input
  let (script, input) ← readBytes input
  let (sequence, input) ← readWord input
  return (⟨source, index, script, sequence, []⟩, input)

/-- Read a witness for each of the inputs. -/
def readWitnesses : List Input → Bytes → Option (List Input × Bytes)
  | [], input => some ([], input)
  | spent :: rest, input => do
    let (witness, input) ← readList readBytes input
    let (rest, input) ← readWitnesses rest input
    return ({ spent with witness } :: rest, input)

end Input

namespace Transaction

/-- Whether some input has a witness. -/
def hasWitness (transaction : Transaction) : Bool :=
  transaction.inputs.any fun input => !input.witness.isEmpty

/-- The form without witnesses. -/
def writePlain (transaction : Transaction) : Bytes :=
  writeWord transaction.version ++ writeList Input.write transaction.inputs ++
    writeList Output.write transaction.outputs ++ writeWord transaction.lockTime

/-- The form with witnesses. -/
def writeFull (transaction : Transaction) : Bytes :=
  writeWord transaction.version ++ [0, 1] ++ writeList Input.write transaction.inputs ++
    writeList Output.write transaction.outputs ++
    transaction.inputs.flatMap (fun input => writeList writeBytes input.witness) ++
    writeWord transaction.lockTime

/-- The identifier: the hash of the form without witnesses. -/
def identifier (transaction : Transaction) : Hash :=
  hashOf transaction.writePlain

/-- Read what follows the inputs of the form without witnesses. -/
def readPlainRest
    (version : UInt32)
    (inputs : List Input)
    (input : Bytes) :
    Option (Transaction × Bytes) := do
  let (outputs, input) ← readList Output.read input
  let (lockTime, input) ← readWord input
  return (⟨version, inputs, outputs, lockTime⟩, input)

/-- Read what follows the marker; when there are inputs, some of them have witnesses. -/
def readFullRest (version : UInt32) (input : Bytes) : Option (Transaction × Bytes) := do
  let (flag, input) ← input.cut? 1
  if flag ≠ [1] then none
  else
    let (inputs, input) ← readList Input.read input
    let (outputs, input) ← readList Output.read input
    let (inputs, input) ← Input.readWitnesses inputs input
    if !inputs.isEmpty && inputs.all (·.witness.isEmpty) then none
    else
      let (lockTime, input) ← readWord input
      return (⟨version, inputs, outputs, lockTime⟩, input)

/-- Read a transaction from the front of the input; no inputs are the marker. -/
def readFront (input : Bytes) : Option (Transaction × Bytes) := do
  let (version, input) ← readWord input
  let (inputs, input) ← readList Input.read input
  if inputs.isEmpty then readFullRest version input
  else readPlainRest version inputs input

/-- Read a transaction that takes up all of the input. -/
def read (input : Bytes) : Option Transaction :=
  match readFront input with
  | some (transaction, []) => some transaction
  | _ => none

end Transaction

end MiningPool.Bitcoin

import MiningPool.Bitcoin.Transaction
import MiningPool.Extranonce

/-!
# The halves of a coinbase

A coinbase is written with its extranonce all zero and cut around it.  Put between the
halves, an extranonce completes the coinbase, and with the path to the root of the tree
of transactions it determines that root.
-/

namespace MiningPool.Coinbase

open MiningPool.Bitcoin

/-- The longest script the input of a coinbase may have. -/
def maxScriptSize : Nat := 100

/-- A coinbase cut around its extranonce. -/
structure Halves where
  front : Bytes
  back : Bytes
  outputs : List Output
  deriving DecidableEq, Repr

/-- The input of a coinbase, which spends nothing and has one witness of zeros. -/
def inputOf (script : Bytes) (sequence : UInt32) : Input where
  source := List.replicate 32 0
  index := 0xffffffff
  script := script
  sequence := sequence
  witness := [List.replicate 32 0]

/-- The coinbase whose script starts with given bytes and ends in an extranonce. -/
def transaction
    (version lockTime sequence : UInt32)
    (scriptStart extranonce : Bytes)
    (outputs : List Output) :
    Transaction :=
  ⟨version, [inputOf (scriptStart ++ extranonce) sequence], outputs, lockTime⟩

/-- The number of bytes in front of the script: version, marker, count, source, length. -/
def scriptOffset : Nat := 44

/-- Cut a coinbase around its extranonce; the failure is the length of a long script. -/
def Halves.build
    (version lockTime sequence : UInt32)
    (scriptStart : Bytes)
    (outputs : List Output) :
    Except Nat Halves :=
  let scriptSize := scriptStart.length + extranonceSize
  if maxScriptSize < scriptSize then .error scriptSize
  else
    let blank := List.replicate extranonceSize 0
    let written :=
      (transaction version lockTime sequence scriptStart blank outputs).writeFull
    let cutAt := scriptOffset + scriptStart.length
    .ok ⟨written.take cutAt, written.drop (cutAt + extranonceSize), outputs⟩

/-- The root of the tree of transactions; none when the bytes are no coinbase. -/
def merkleRoot? (front back extranonce : Bytes) (path : List Hash) : Option Hash :=
  match Transaction.read (front ++ extranonce ++ back) with
  | none => none
  | some coinbase => some (foldPath coinbase.identifier path)

end MiningPool.Coinbase

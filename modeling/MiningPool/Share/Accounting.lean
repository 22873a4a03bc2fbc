import Std.Data.TreeSet

/-!
# Share accounting

What a channel remembers of the shares it accepted: how many there were and how much
work they stand for, which one came last, which hashes were seen on the chain tip, and
the best difficulty.  Shares are acknowledged in batches.
-/

namespace MiningPool

/-- The accepted shares of a channel. -/
structure ShareAccounting where
  lastSequenceNumber : UInt32
  /-- The number of accepted shares, modulo `2 ^ 32`. -/
  accepted : UInt32
  /-- The work of the accepted shares, at most `2 ^ 64 - 1`. -/
  workSum : UInt64
  batchSize : Nat
  /-- The hashes of the shares accepted on the chain tip, as numbers. -/
  seen : Std.TreeSet Nat
  bestDifficulty : Float
  /-- A batch has at least one share. -/
  batchSize_pos : 0 < batchSize

namespace ShareAccounting

/-- No shares yet; batches of no shares are taken as batches of one. -/
def start (batchSize : Nat) : ShareAccounting :=
  ⟨0, 0, 0, max batchSize 1, ∅, 0, by omega⟩

/-- Add work, up to the largest amount there is. -/
def addWork (sum work : UInt64) : UInt64 :=
  if sum.toNat + work.toNat < UInt64.size then sum + work else 0xffffffffffffffff

/-- Count an accepted share. -/
def record
    (accounting : ShareAccounting)
    (work : UInt64)
    (sequenceNumber : UInt32)
    (hash : Nat) :
    ShareAccounting :=
  { accounting with
    lastSequenceNumber := sequenceNumber
    accepted := accounting.accepted + 1
    workSum := addWork accounting.workSum work
    seen := accounting.seen.insert hash }

/-- Forget the hashes that were seen. -/
def flush (accounting : ShareAccounting) : ShareAccounting :=
  { accounting with seen := ∅ }

/-- Whether a share of this hash was accepted on the chain tip. -/
def hasSeen (accounting : ShareAccounting) (hash : Nat) : Bool :=
  accounting.seen.contains hash

/-- Whether the last accepted share completes a batch. -/
def completesBatch (accounting : ShareAccounting) : Bool :=
  accounting.accepted.toNat % accounting.batchSize = 0

/-- Keep the best difficulty. -/
def noteDifficulty (accounting : ShareAccounting) (difficulty : Float) : ShareAccounting :=
  if accounting.bestDifficulty < difficulty then
    { accounting with bestDifficulty := difficulty }
  else
    accounting

end ShareAccounting

end MiningPool

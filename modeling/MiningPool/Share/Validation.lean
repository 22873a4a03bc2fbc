import MiningPool.Bitcoin.Block
import MiningPool.Difficulty
import MiningPool.Job.Store
import MiningPool.Share.Accounting
import MiningPool.Share.Error

/-!
# Validating shares

A share names a job and completes its header.  The hash of the header decides: at or
below the target of the chain it is a block, at or below that of the channel a share,
which counts once.
-/

namespace MiningPool

open MiningPool.Bitcoin

/-- The bits of the version that miners may roll. -/
def versionRollingMask : UInt32 := 0x1fffe000

/-- The job that a share names; waiting jobs take no shares. -/
def JobStore.forShare
    {J : Type}
    [Job J]
    (store : JobStore J)
    (id : UInt32) :
    Except ShareError J :=
  if store.stale.contains id then .error .stale
  else
    match store.current? id with
    | none => .error .unknownJob
    | some job => .ok job

/-- What a miner chose of a header, with its number and the root of its transactions. -/
structure Share where
  sequenceNumber : UInt32
  version : UInt32
  merkleRoot : Hash
  ntime : UInt32
  nonce : UInt32
  deriving DecidableEq, Repr

/-- The header that a share completes on a chain tip. -/
def Share.header (share : Share) (tip : ChainTip) : Header where
  version := share.version
  previous := tip.prevHash
  merkleRoot := share.merkleRoot
  time := share.ntime
  bits := tip.nbits
  nonce := share.nonce

namespace ShareAccounting

/-- Acknowledge all shares so far when the last one completes a batch. -/
def outcome (accounting : ShareAccounting) : ShareOutcome :=
  if accounting.completesBatch then
    .acknowledged accounting.lastSequenceNumber accounting.accepted accounting.workSum
  else
    .valid

/-- Judge a share by the hash of its header; a block answers with what is needed of it. -/
def judge
    (accounting : ShareAccounting)
    (target : Target)
    (tip : ChainTip)
    (share : Share)
    (templateId : Option UInt64)
    (coinbase : Bytes) :
    ShareAccounting × Except ShareError ShareOutcome :=
  let hash := Target.ofBlob (share.header tip).hash
  if hash ≤ targetOfBits tip.nbits then
    (accounting.record target.work share.sequenceNumber hash.value,
      .ok (.blockFound templateId coinbase))
  else if target < hash then (accounting, .error .aboveTarget)
  else if accounting.hasSeen hash.value then (accounting, .error .duplicate)
  else
    let accounting := accounting.record target.work share.sequenceNumber hash.value
    let accounting := accounting.noteDifficulty hash.difficulty
    (accounting, .ok accounting.outcome)

end ShareAccounting

end MiningPool

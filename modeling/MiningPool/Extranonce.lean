import MiningPool.Bytes
import MiningPool.Failure

/-!
# Extranonces

The coinbase of a job holds 32 bytes that tell the work of one miner from that of all
others.  An allocator hands out the start of them: a part that is the same for all,
then a counter that no two share.  The rest, if any, is rolled by the miner.
-/

namespace MiningPool

/-- The number of bytes of a whole extranonce. -/
def extranonceSize : Nat := 32

/-- Why the start of an extranonce is not handed out. -/
inductive ExtranonceError
  /-- The part that is the same for all leaves no room for the counter. -/
  | staticTooLong
  /-- The bytes left to the miner leave no room for the counter. -/
  | invalidAllocation
  /-- The miner wants to roll more bytes than are left to it. -/
  | minimumTooLarge
  /-- The counter cannot be reached. -/
  | unavailable
  /-- Every value of the counter was used. -/
  | exhausted
  deriving DecidableEq, Repr

namespace ExtranonceError

/-- The name of a failure. -/
def name : ExtranonceError → String
  | staticTooLong => "StaticPrefixTooLong"
  | invalidAllocation => "InvalidAllocationSize"
  | minimumTooLarge => "RequestedMinExtranonceSizeTooLarge"
  | unavailable => "LockError"
  | exhausted => "MaxValueReached"

/-- The wording of a failure. -/
def message : ExtranonceError → String
  | staticTooLong => "Static prefix leaves no room for the counter"
  | invalidAllocation => "Invalid allocation size"
  | minimumTooLarge => "Requested min extranonce size is too large"
  | unavailable => "Extranonce prefix counter lock poisoned"
  | exhausted => "No more extranonce prefixes available"

instance : Failure ExtranonceError := ⟨name, message⟩

end ExtranonceError

/-- What hands out the starts of extranonces. -/
structure ExtranonceAllocator where
  /-- The bytes that all starts begin with. -/
  staticPart : Bytes
  /-- The number of bytes left to the miner. -/
  allocation : Nat
  /-- How many starts were handed out. -/
  counter : Nat
  /-- There is room for the counter. -/
  roomy : staticPart.length + allocation < extranonceSize
  deriving DecidableEq, Repr

namespace ExtranonceAllocator

/-- Hand out whole extranonces. -/
def standard (staticPart : Bytes) : Except ExtranonceError ExtranonceAllocator :=
  if roomy : staticPart.length + 0 < extranonceSize then .ok ⟨staticPart, 0, 0, roomy⟩
  else .error .staticTooLong

/-- Hand out starts that leave a number of bytes to the miner. -/
def extended
    (allocation : Nat)
    (staticPart : Bytes) :
    Except ExtranonceError ExtranonceAllocator :=
  if roomy : staticPart.length + allocation < extranonceSize then
    .ok ⟨staticPart, allocation, 0, roomy⟩
  else
    .error .invalidAllocation

/-- The number of bytes of a start. -/
def startSize (allocator : ExtranonceAllocator) : Nat :=
  extranonceSize - allocator.allocation

/-- The number of bytes of the counter. -/
def counterSize (allocator : ExtranonceAllocator) : Nat :=
  allocator.startSize - allocator.staticPart.length

/-- Hand out the next start to a miner that rolls at least `minimum` bytes, if there is one. -/
def next
    (allocator : ExtranonceAllocator)
    (minimum : Nat) :
    ExtranonceAllocator × Except ExtranonceError Bytes :=
  let value := allocator.counter + 1
  if allocator.allocation < minimum then (allocator, .error .minimumTooLarge)
  else if UInt64.size ≤ value ∨ Bytes.capacity allocator.counterSize ≤ value then
    (allocator, .error .exhausted)
  else
    ({ allocator with counter := value },
      .ok (allocator.staticPart ++ Bytes.ofNatBE allocator.counterSize value))

end ExtranonceAllocator

end MiningPool

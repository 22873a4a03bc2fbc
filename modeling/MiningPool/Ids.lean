/-!
# Ids

Channels, groups and jobs are numbered from one; zero is never an id.
-/

namespace MiningPool

/-- The id after an id; after the last one they start over, and zero is left out. -/
def idAfter (id : UInt32) : UInt32 :=
  if id = 0xffffffff then 1 else id + 1

/-- The next `count` ids after an id. -/
def idsAfter (id : UInt32) : (count : Nat) → List UInt32
  | 0 => []
  | count + 1 => idAfter id :: idsAfter (idAfter id) count

end MiningPool

import MiningPool.Hex
import MiningPool.Wire.Value

/-!
# Targets

A target is the greatest number that the hash of a share may be.  On the wire it is
written least significant byte first, for people most significant first.
-/

namespace MiningPool

open MiningPool.Wire

/-- A number of 32 bytes. -/
structure Target where
  value : Nat
  isLt : value < Bytes.capacity 32
  deriving DecidableEq, Repr

namespace Target

instance : LE Target := ⟨fun left right => left.value ≤ right.value⟩

instance : LT Target := ⟨fun left right => left.value < right.value⟩

instance : DecidableLE Target := fun left right => Nat.decLe left.value right.value

instance : DecidableLT Target := fun left right => Nat.decLt left.value right.value

instance : Min Target := ⟨fun left right => if left ≤ right then left else right⟩

instance : Ord Target := ⟨fun left right => compare left.value right.value⟩

/-- The low 256 bits of a number. -/
def ofNat (value : Nat) : Target :=
  ⟨value % Bytes.capacity 32, Nat.mod_lt _ (Bytes.capacity_pos 32)⟩

instance : Inhabited Target := ⟨ofNat 0⟩

/-- The easiest target. -/
def easiest : Target :=
  ⟨Bytes.capacity 32 - 1, by decide⟩

/-- Read a target whose least significant byte comes first. -/
def ofBytesLE (bytes : Bytes) : Target :=
  ofNat bytes.toNatLE

/-- Read a target whose most significant byte comes first. -/
def ofBytesBE (bytes : Bytes) : Target :=
  ofNat bytes.toNatBE

/-- The 32 bytes of a target, least significant first. -/
def toBytesLE (target : Target) : Bytes :=
  Bytes.ofNatLE 32 target.value

/-- The 32 bytes of a target, most significant first. -/
def toBytesBE (target : Target) : Bytes :=
  Bytes.ofNatBE 32 target.value

/-- The target that a message carries. -/
def ofBlob (blob : Blob .u256) : Target :=
  ofBytesLE blob.bytes

/-- The form in which a message carries a target. -/
def toBlob (target : Target) : Blob .u256 :=
  ⟨target.toBytesLE, Bytes.length_ofNatLE 32 target.value⟩

/-- The digits of a target, most significant first. -/
def text (target : Target) : String :=
  Hex.encode target.toBytesBE

end Target

end MiningPool

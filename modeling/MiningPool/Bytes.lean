/-!
# Byte strings

Byte strings are lists, so that statements about them are statements about lists.
A natural number is written in a given number of bytes, least or most significant
byte first, and read back from them.  `cut?` takes a given number of bytes off the
front in one pass over them, whatever follows.
-/

namespace MiningPool

/-- A byte string. -/
abbrev Bytes := List UInt8

namespace Bytes

/-- The number of byte strings of a length. -/
def capacity (count : Nat) : Nat :=
  Nat.pow 256 count

/-- Write the low `count` bytes of a number, least significant byte first. -/
def ofNatLE : (count : Nat) → (value : Nat) → Bytes
  | 0, _ => []
  | count + 1, value => UInt8.ofNat value :: ofNatLE count (value / 256)

/-- Read a number whose least significant byte comes first. -/
def toNatLE : Bytes → Nat
  | [] => 0
  | byte :: rest => byte.toNat + 256 * toNatLE rest

/-- Write the low `count` bytes of a number, most significant byte first. -/
def ofNatBE (count : Nat) (value : Nat) : Bytes :=
  (ofNatLE count value).reverse

/-- Read a number whose most significant byte comes first. -/
def toNatBE (bytes : Bytes) : Nat :=
  bytes.foldl (fun value byte => 256 * value + byte.toNat) 0

/-- Move `count` bytes from the front of `rest` onto the reversed `taken`. -/
def cutOnto : (count : Nat) → (rest taken : Bytes) → Option (Bytes × Bytes)
  | 0, rest, taken => some (taken.reverse, rest)
  | _ + 1, [], _ => none
  | count + 1, byte :: rest, taken => cutOnto count rest (byte :: taken)

/-- Cut off the first `count` bytes; `none` when there are fewer. -/
def cut? (count : Nat) (bytes : Bytes) : Option (Bytes × Bytes) :=
  cutOnto count bytes []

/-- Put `written` over the start of `destination`. -/
def overwrite (destination written : Bytes) : Bytes :=
  written ++ destination.drop written.length

/-- Combine two byte strings bytewise by exclusive or, up to the shorter of them. -/
def xor (left right : Bytes) : Bytes :=
  List.zipWith (· ^^^ ·) left right

/-- Cut into chunks of `size` bytes and a shorter last one, after the reversed chunks before. -/
def chunksOnto (size : Nat) : Bytes → List Bytes → List Bytes
  | [], chunks => chunks.reverse
  | byte :: rest, chunks =>
    chunksOnto size (rest.drop (size - 1)) ((byte :: rest.take (size - 1)) :: chunks)
termination_by bytes => bytes.length
decreasing_by simp only [List.length_drop, List.length_cons]; omega

/-- Cut into chunks of `size` bytes and a shorter last one; nothing has no chunks. -/
def chunks (size : Nat) (bytes : Bytes) : List Bytes :=
  chunksOnto size bytes []

@[simp]
theorem length_ofNatLE (count value : Nat) :
    (ofNatLE count value).length = count := by
  induction count generalizing value with
  | zero => rfl
  | succ count ih => simp [ofNatLE, ih]

theorem capacity_succ (count : Nat) :
    capacity (count + 1) = 256 * capacity count :=
  Nat.mul_comm (capacity count) 256

theorem capacity_pos (count : Nat) :
    0 < capacity count := by
  induction count with
  | zero => exact Nat.one_pos
  | succ count ih => rw [capacity_succ]; omega

theorem toNatLE_ofNatLE (count value : Nat) :
    toNatLE (ofNatLE count value) = value % capacity count := by
  induction count generalizing value with
  | zero => exact (Nat.mod_one value).symm
  | succ count ih =>
    rw [capacity_succ, Nat.mod_mul]
    simp only [ofNatLE, toNatLE, ih, UInt8.toNat_ofNat']

theorem toNatLE_lt (bytes : Bytes) :
    toNatLE bytes < capacity bytes.length := by
  induction bytes with
  | nil => exact Nat.one_pos
  | cons byte rest ih =>
    have := byte.toNat_lt
    simp only [toNatLE, List.length_cons, capacity_succ]
    omega

theorem ofNatLE_toNatLE (bytes : Bytes) :
    ofNatLE bytes.length (toNatLE bytes) = bytes := by
  induction bytes with
  | nil => rfl
  | cons byte rest ih =>
    have bound := byte.toNat_lt
    have head : (byte.toNat + 256 * toNatLE rest) % 256 = byte.toNat := by omega
    have tail : (byte.toNat + 256 * toNatLE rest) / 256 = toNatLE rest := by omega
    simp only [toNatLE, List.length_cons, ofNatLE, tail, ih]
    congr 1
    apply UInt8.toNat_inj.mp
    rw [UInt8.toNat_ofNat']
    exact head

theorem cutOnto_eq (count : Nat) (rest taken : Bytes) :
    cutOnto count rest taken =
      if count ≤ rest.length then
        some (taken.reverse ++ rest.take count, rest.drop count)
      else
        none := by
  induction count generalizing rest taken with
  | zero => simp [cutOnto]
  | succ count ih =>
    cases rest with
    | nil => simp [cutOnto]
    | cons byte rest => simp [cutOnto, ih]

theorem cut?_eq (count : Nat) (bytes : Bytes) :
    cut? count bytes =
      if count ≤ bytes.length then
        some (bytes.take count, bytes.drop count)
      else
        none := by
  simp [cut?, cutOnto_eq]

/-- Cutting a byte string off the front of what it was put before gives both parts back. -/
theorem cut?_append (bytes rest : Bytes) :
    cut? bytes.length (bytes ++ rest) = some (bytes, rest) := by
  simp [cut?_eq]

end Bytes

end MiningPool

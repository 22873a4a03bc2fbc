import MiningPool.Failure.Catalogue
import MiningPool.Form.Entry

/-!
# Failures in forms

A failure is shown by its name and its wording.  What is entered of a failure is an
incident, from which the catalogue finds the failure.
-/

namespace MiningPool

namespace Form

/-- The name and the wording of a failure. -/
def ofFailure {ε : Type} [Failure ε] (failure : ε) : List (String × Form) :=
  [entry "error" (Failure.name failure), entry "message" (Failure.message failure)]

/-- Read an incident that comes from at most `depth` others. -/
def toIncident : (depth : Nat) → Form → Entered Incident
  | 0, _ => .error .unfit
  | depth + 1, form => do
    let name ← form.get "variant"
    let numbers : Option (List Int) ← form.get? "args"
    let value : Option Wire.Single ← form.get? "value"
    let told := numbers.getD (value.map fun single => (single.bits.toNat : Int)).toList
    match form.field? "inner" with
    | none => return .mk name told none
    | some origin => return .mk name told (some (← origin.toIncident depth))

end Form

instance : OfForm Incident := ⟨Form.toIncident 8⟩

end MiningPool

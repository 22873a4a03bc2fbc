import MiningPool.Bytes
import MiningPool.Wire.Error

/-!
# Forms

A form is how things are shown to people and entered by them: a tree of named values,
which any text format can write down.  What is entered may be unfit for what is asked.
-/

namespace MiningPool

open MiningPool.Wire

/-- A tree of named values. -/
inductive Form
  | nothing
  | flag (value : Bool)
  | number (value : Int)
  | text (value : String)
  | bytes (value : Bytes)
  | list (items : List Form)
  | fields (entries : List (String × Form))
  deriving Inhabited

namespace Form

/-- The named values of a form. -/
def entries : Form → List (String × Form)
  | fields entries => entries
  | _ => []

/-- Add named values to those of a form. -/
def extend (form : Form) (more : List (String × Form)) : Form :=
  fields (form.entries ++ more)

/-- The field of a name; the first of several. -/
def field? (form : Form) (name : String) : Option Form :=
  form.entries.lookup name

end Form

/-- Why a form does not hold what is asked for. -/
inductive FormError
  /-- A field is absent or not of the kind that is asked for. -/
  | unfit
  /-- A value is one that the wire does not know. -/
  | wire (failure : WireError)
  deriving DecidableEq, Repr

namespace FormError

/-- The name of a failure. -/
def name : FormError → String
  | unfit => "BadInput"
  | wire failure => failure.name

/-- The wording of a failure; what is unfit speaks for itself. -/
def message : FormError → String
  | unfit => ""
  | wire failure => failure.message

instance : Failure FormError := ⟨name, message⟩

/-- A value of the wire that was entered. -/
def ofWire {α : Type} : Except WireError α → Except FormError α
  | .error failure => .error (wire failure)
  | .ok value => .ok value

end FormError

end MiningPool

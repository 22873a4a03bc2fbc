/-!
# Failures

What all failures have in common: each has a name, under which programs tell it from
others, and a wording for the people who read about it.
-/

namespace MiningPool

/-- The name and the wording of a failure. -/
class Failure (ε : Type) where
  name : ε → String
  message : ε → String

end MiningPool

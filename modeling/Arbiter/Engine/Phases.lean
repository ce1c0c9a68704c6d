/-
# Phases of an evaluation

How long the parts of an evaluation took, in milliseconds.
-/

namespace Arbiter

/-- The times of the parts of an evaluation, and of the whole. -/
structure EvaluationPhases where
  validateRequest : Float
  scope : Float
  conditions : Float
  total : Float

/-- The time that belongs to no part. -/
def EvaluationPhases.overhead (p : EvaluationPhases) : Float :=
  p.total - (p.validateRequest + p.scope + p.conditions)

end Arbiter

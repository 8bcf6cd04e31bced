import Facade.Definition.Basic

/-!
# Overloads for parameters that may be left out

A method whose last parameters may be left out is defined once for every number of arguments it
takes, the fewest first. In all but the last of these definitions every parameter that is there has
to be passed; the last has all parameters as they were declared.
-/

set_option autoImplicit false

namespace Facade

namespace MethodParameter

/-- The parameter as one that has to be passed. -/
def mandatory (parameter : MethodParameter) : MethodParameter :=
  { parameter with optional := false }

/-- The number of parameters at the end that may be left out. -/
def optionalTail (parameters : List MethodParameter) : Nat :=
  (parameters.reverse.takeWhile (·.optional)).length

/-- The parameter lists of the definitions of a method, the shortest first. -/
def alternatives (parameters : List MethodParameter) : List (List MethodParameter) :=
  let tail := optionalTail parameters
  ((List.range tail).map fun more =>
    (parameters.take (parameters.length - tail + more)).map mandatory) ++ [parameters]

/-- There is one definition more than there are parameters to leave out. -/
theorem length_alternatives (parameters : List MethodParameter) :
    (alternatives parameters).length = optionalTail parameters + 1 := by
  simp [alternatives]

end MethodParameter

end Facade

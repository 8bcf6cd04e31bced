import Facade.Definition.ScalaType
import Facade.Translation.Warning

/-!
# From declared types to Scala types

Names, arrays, primitive types and functions have counterparts; all other types become `js.Any`, and
a function that is generic or takes any number of arguments becomes `js.Function`. Both losses are
noted.

The type `any` is `js.Any` where a program passes values in and `js.Dynamic` where it gets them out,
so the mapping is told which of the two the position asks for. Only parentheses hand that on:
inside any other type `any` is `js.Any`.
-/

set_option autoImplicit false

namespace Facade

/-- The counterpart of a primitive type. -/
def Primitive.toScala (anyIsDynamic : Bool) : Primitive → ScalaType
  | .any => if anyIsDynamic then .dynamic else .any
  | .void => .unit
  | .number => .number
  | .bool => .boolean
  | .boolean => .boolean
  | .string => .string

/-- The counterpart of a path applied to types. -/
def namedToScala : List String → List ScalaType → ScalaType
  | ["Array"], [element] => .array element
  | ["Function"], [] => .anyFunction
  | path, arguments => ⟨⟨path.map Identifier.mk⟩, arguments⟩

/-- What a type without a counterpart becomes. -/
def widened (type : TypeExpr) : Noted ScalaType := do
  Noted.warn (.widened type)
  return .any

mutual

/-- The counterpart of a type. -/
def TypeExpr.toScala (anyIsDynamic : Bool) : TypeExpr → Noted ScalaType
  | .primitive type => return type.toScala anyIsDynamic
  | .named path arguments => return namedToScala path (← toScalaAll arguments)
  | .function ⟨typeParameters, parameters, result⟩ => do
    let types ← parametersToScala parameters
    if typeParameters.isEmpty && !types.any ScalaType.isRepeated then
      return .function (types ++ [← toScalaOrAny result])
    else
      Noted.warn (.untypedFunction (.function ⟨typeParameters, parameters, result⟩))
      return .anyFunction
  | .repeated element => return .repeated (← element.toScala false)
  | .parenthesized inner => inner.toScala anyIsDynamic
  | .object members => widened (.object members)
  | .constructor signature => widened (.constructor signature)
  | .union types => widened (.union types)
  | .intersection types => widened (.intersection types)
  | .tuple types => widened (.tuple types)
  | .literal text => widened (.literal text)
  | .query path => widened (.query path)

/-- The counterparts of types, in order. -/
def toScalaAll : List TypeExpr → Noted (List ScalaType)
  | [] => return []
  | type :: rest => return (← type.toScala false) :: (← toScalaAll rest)

/-- The counterpart of the type of a field or a parameter, which is any value if none is written. -/
def toScalaOrAny : Option TypeExpr → Noted ScalaType
  | none => return .any
  | some type => type.toScala false

/-- The counterparts of the types of parameters, in order. -/
def parametersToScala : List Parameter → Noted (List ScalaType)
  | [] => return []
  | ⟨_, _, type⟩ :: rest => return (← toScalaOrAny type) :: (← parametersToScala rest)

end

/-- The counterpart of the result of a method, of which nothing is known if none is written. -/
def toScalaOrDynamic : Option TypeExpr → Noted ScalaType
  | none => return .dynamic
  | some type => type.toScala true

end Facade

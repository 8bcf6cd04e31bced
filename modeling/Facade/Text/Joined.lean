/-!
# Texts joined by a separator

Lists are written with a separator between neighbours and none at the ends. `joined_cons_cons` is
the rule.
-/

set_option autoImplicit false

namespace Facade.Text

/-- The texts in order, with the separator between neighbours. -/
def joined (separator : String) : List String → String
  | [] => ""
  | [text] => text
  | text :: next :: rest => text ++ separator ++ joined separator (next :: rest)

/-- No texts make an empty one. -/
@[simp] theorem joined_nil (separator : String) : joined separator [] = "" := rfl

/-- One text has nothing between. -/
@[simp] theorem joined_singleton (separator text : String) : joined separator [text] = text := rfl

/-- Behind the first of several texts comes the separator. -/
theorem joined_cons_cons (separator text next : String) (rest : List String) :
    joined separator (text :: next :: rest)
      = text ++ separator ++ joined separator (next :: rest) := rfl

end Facade.Text

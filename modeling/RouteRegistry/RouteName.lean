/-
RouteRegistry/RouteName.lean

Route names: `[A-Za-z_][A-Za-z0-9_]*`, except for words that are reserved where
the registry is generated.
-/

namespace RouteRegistry.RouteName

/-- The character can begin a route name. -/
def isStart (c : Char) : Bool := c.isAlpha || c == '_'

/-- The character can go on with a route name. -/
def isPart (c : Char) : Bool := c.isAlphanum || c == '_'

/-- An ASCII letter or underscore, then ASCII letters, digits and underscores. -/
def matchesGrammar (name : String) : Bool :=
  match name.toList with
  | [] => false
  | c :: cs => isStart c && cs.all isPart

/-- The name has the form of a route name and is none of the words that the output reserves. -/
def isValid (reserved : List String) (name : String) : Bool :=
  matchesGrammar name && !reserved.contains name

end RouteRegistry.RouteName

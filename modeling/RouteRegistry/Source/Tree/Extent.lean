/-
RouteRegistry/Source/Tree/Extent.lean

How far those parts of Java source extend that syntax trees keep as mere tokens:
groups in brackets, names, types, the types after `new` and `instanceof`, the
headers of declarations.

Each function splits a list of tokens into the part that it begins with and the
rest.  The functions on types call each other and are bounded by `fuel`;
`type?` and `typeArguments?` give them more than the tokens can use up.
-/
import RouteRegistry.Source.Token

namespace RouteRegistry.Source

namespace Token

/-- The token is written just so. -/
def is (text : String) (t : Token) : Bool := t.text == text

/-- The token is written like one of the texts. -/
def isOneOf (texts : List String) (t : Token) : Bool := texts.contains t.text

/-- The token opens a bracket of one of the three kinds. -/
def opens (t : Token) : Bool := t.isOneOf ["(", "[", "\x7b"]

/-- The token closes a bracket of one of the three kinds. -/
def closes (t : Token) : Bool := t.isOneOf [")", "]", "\x7d"]

end Token

/-- Whether the first of the tokens has the text. -/
def startsWith (text : String) (ts : List Token) : Bool := ts.head?.any (Token.is text)

/-! ### Groups -/

/-- Reads up to the bracket that closes the `depth` open ones. -/
def closeGroup : (depth : Nat) → List Token → Option (List Token × List Token)
  | _, [] => none
  | depth, t :: ts =>
    -- the three kinds of brackets are counted together
    if t.opens then (closeGroup (depth + 1) ts).map fun r => (t :: r.1, r.2)
    else if t.closes then
      if depth ≤ 1 then some ([t], ts)
      else (closeGroup (depth - 1) ts).map fun r => (t :: r.1, r.2)
    else (closeGroup depth ts).map fun r => (t :: r.1, r.2)

/-- Reads a group in brackets, if the tokens begin with one. -/
def group? : List Token → Option (List Token × List Token)
  | [] => none
  | t :: ts => if t.opens then (closeGroup 1 ts).map fun r => (t :: r.1, r.2) else none

/-- Reads a group that begins with the bracket, if there is one. -/
def groupIn (bracket : String) (ts : List Token) : List Token × List Token :=
  if startsWith bracket ts then (group? ts).getD ([], ts) else ([], ts)

/-- Reads up to the first token that has the text and stands in no group. -/
def upTo (text : String) : (depth : Nat) → List Token → List Token × List Token
  | _, [] => ([], [])
  | depth, t :: ts =>
    if depth = 0 ∧ t.is text then ([], t :: ts)
    else
      let r := upTo text (if t.opens then depth + 1 else if t.closes then depth - 1 else depth) ts
      (t :: r.1, r.2)

/-- Whether an argument or an element of an array ends where the tokens begin. -/
def isEnd (ts : List Token) : Bool := ts.head?.all fun t => t.is "," || t.closes

/-- Reads up to the comma or bracket that ends an argument, groups left aside. -/
def upToEnd : (fuel : Nat) → List Token → List Token × List Token
  | 0, ts => ([], ts)
  | fuel + 1, ts =>
    if isEnd ts then ([], ts)
    else
      let piece := (group? ts).getD (ts.take 1, ts.drop 1)
      let r := upToEnd fuel piece.2
      (piece.1 ++ r.1, r.2)

/-- Reads the header of a declaration up to the brace that opens its body. -/
def header? : (fuel : Nat) → List Token → Option (List Token × List Token)
  | 0, _ => none
  | _ + 1, [] => none
  | fuel + 1, t :: ts =>
    if t.is "\x7b" then some ([], t :: ts)
    else if t.closes ∨ t.is ";" then none
    else
      let piece := (group? (t :: ts)).getD ([t], ts)
      (header? fuel piece.2).map fun r => (piece.1 ++ r.1, r.2)

/-! ### Names and annotations -/

/-- Reads names joined by dots. -/
def qualifiedName : List Token → List Token × List Token
  | word :: dot :: rest =>
    if word.isWord then
      if dot.is "." then
        let r := qualifiedName rest
        (word :: dot :: r.1, r.2)
      else ([word], dot :: rest)
    else ([], word :: dot :: rest)
  | [word] => if word.isWord then ([word], []) else ([], [word])
  | [] => ([], [])

/-- Reads annotations with their arguments as long as there are some. -/
def annotations : (fuel : Nat) → List Token → List Token × List Token
  | 0, ts => ([], ts)
  | _ + 1, [] => ([], [])
  | fuel + 1, t :: ts =>
    if t.is "@" then
      let name := qualifiedName ts
      let arguments := groupIn "(" name.2
      let r := annotations fuel arguments.2
      (t :: name.1 ++ arguments.1 ++ r.1, r.2)
    else ([], t :: ts)

/-! ### Types -/

/-- The words that can begin a type although they are keywords. -/
def primitiveTypes : List String :=
  ["void", "boolean", "byte", "short", "int", "long", "char", "float", "double"]

/-- Whether the token can be a name in a type. -/
def isTypeName (t : Token) : Bool :=
  t.isWord && !t.isOneOf ["class", "new", "this", "super", "null", "true", "false", "switch",
    "instanceof"]

/-- Reads the brackets of an array type, with the annotations in front of them. -/
def dimensions : (fuel : Nat) → List Token → List Token × List Token
  | 0, ts => ([], ts)
  | fuel + 1, ts =>
    match annotations ts.length ts with
    | (marks, opening :: closing :: rest) =>
      if opening.is "[" ∧ closing.is "]" then
        let r := dimensions fuel rest
        (marks ++ opening :: closing :: r.1, r.2)
      else ([], ts)
    | _ => ([], ts)

mutual

/-- Reads a type: possibly annotations, names with type arguments, possibly array brackets. -/
def typeWithin? : (fuel : Nat) → List Token → Option (List Token × List Token)
  | 0, _ => none
  | fuel + 1, ts =>
    let marks := annotations ts.length ts
    (typeNamesWithin? fuel marks.2).map fun names =>
      let brackets := dimensions names.2.length names.2
      (marks.1 ++ names.1 ++ brackets.1, brackets.2)

/-- Reads names joined by dots, which may have annotations in front and type arguments behind. -/
def typeNamesWithin? : (fuel : Nat) → List Token → Option (List Token × List Token)
  | 0, _ => none
  | _ + 1, [] => none
  | fuel + 1, name :: ts =>
    if isTypeName name then
      let arguments := (typeArgumentsWithin? fuel ts).getD ([], ts)
      match arguments.2 with
      | [] => some (name :: arguments.1, [])
      | dot :: rest =>
        let marks := annotations rest.length rest
        match if dot.is "." then typeNamesWithin? fuel marks.2 else none with
        | some r => some (name :: arguments.1 ++ dot :: marks.1 ++ r.1, r.2)
        | none => some (name :: arguments.1, dot :: rest)
    else none

/-- Reads type arguments in angle brackets; there may be none between them. -/
def typeArgumentsWithin? : (fuel : Nat) → List Token → Option (List Token × List Token)
  | 0, _ => none
  | _ + 1, [] => none
  | fuel + 1, opening :: ts =>
    if opening.is "<" then
      if startsWith ">" ts then some (opening :: ts.take 1, ts.drop 1)
      else (closeArguments? fuel ts).map fun r => (opening :: r.1, r.2)
    else none

/-- Reads type arguments up to the angle bracket that closes them. -/
def closeArguments? : (fuel : Nat) → List Token → Option (List Token × List Token)
  | 0, _ => none
  | fuel + 1, ts =>
    match typeArgumentWithin? fuel ts with
    | some (argument, t :: rest) =>
      if t.is ">" then some (argument ++ [t], rest)
      else if t.is "," then (closeArguments? fuel rest).map fun r => (argument ++ t :: r.1, r.2)
      else none
    | _ => none

/-- Reads one type argument: a type, or a question mark that may have a bound. -/
def typeArgumentWithin? : (fuel : Nat) → List Token → Option (List Token × List Token)
  | 0, _ => none
  | fuel + 1, ts =>
    match annotations ts.length ts with
    | (_, []) => none
    | (marks, t :: rest) =>
      if t.is "?" then
        match rest with
        | [] => some (marks ++ [t], [])
        | bound :: type =>
          if bound.isOneOf ["extends", "super"] then
            (typeWithin? fuel type).map fun r => (marks ++ t :: bound :: r.1, r.2)
          else some (marks ++ [t], bound :: type)
      else (typeWithin? fuel (t :: rest)).map fun r => (marks ++ r.1, r.2)

end

/-- Reads a type, if the tokens begin with one. -/
def type? (ts : List Token) : Option (List Token × List Token) := typeWithin? (6 * ts.length + 6) ts

/-- Reads type arguments, if there are any. -/
def typeArguments (ts : List Token) : List Token × List Token :=
  (typeArgumentsWithin? (6 * ts.length + 6) ts).getD ([], ts)

/-- Reads the type that follows `new`, which may have type arguments in front of it. -/
def createdType (ts : List Token) : List Token × List Token :=
  let outer := annotations ts.length ts
  let arguments := typeArguments outer.2
  let inner := annotations arguments.2.length arguments.2
  let names := (typeNamesWithin? (6 * inner.2.length + 6) inner.2).getD ([], inner.2)
  (outer.1 ++ arguments.1 ++ inner.1 ++ names.1, names.2)

/-- Reads what follows the type after `new`: arguments and a body, or the sizes of an array, which
may have annotations in front, and its elements. -/
def createdParts : (fuel : Nat) → List Token → List Token × List Token
  | 0, ts => ([], ts)
  | fuel + 1, ts =>
    let marks := annotations ts.length ts
    match group? marks.2 with
    | some (g, rest) =>
      let r := createdParts fuel rest
      (marks.1 ++ g ++ r.1, r.2)
    | none => ([], ts)

/-- Reads all that follows `new`. -/
def creation (ts : List Token) : List Token × List Token :=
  let type := createdType ts
  let parts := createdParts type.2.length type.2
  (type.1 ++ parts.1, parts.2)

/-- Reads what follows `instanceof`: a type with the names of the parts or the name of the whole,
which may be final. -/
def pattern (ts : List Token) : List Token × List Token :=
  let final := if startsWith "final" ts then 1 else 0
  let type := (type? (ts.drop final)).getD ([], ts.drop final)
  let parts := groupIn "(" type.2
  let name := if parts.2.head?.any isTypeName then 1 else 0
  (ts.take final ++ type.1 ++ parts.1 ++ parts.2.take name, parts.2.drop name)

/-! ### Casts -/

/-- What the type of a cast may be besides a type. -/
inductive CastKind where
  /-- It could be an expression: a mere name, or names joined by ampersands. -/
  | ambiguous
  | certain
  deriving DecidableEq, Inhabited

/-- Reads types joined by ampersands up to the parenthesis that closes them. -/
def castKind? : (fuel : Nat) → List Token → Option CastKind
  | 0, _ => none
  | fuel + 1, ts =>
    match type? ts with
    | some (type, t :: rest) =>
      if t.is ")" then
        if (qualifiedName type).2 = [] ∧ !type.any (Token.isOneOf primitiveTypes) then some .ambiguous
        else some .certain
      else if t.is "&" then (castKind? fuel rest).map fun _ => .ambiguous
      else none
    | _ => none

end RouteRegistry.Source

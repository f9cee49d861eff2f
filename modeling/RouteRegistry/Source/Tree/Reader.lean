/-
RouteRegistry/Source/Tree/Reader.lean

Reading the syntax trees of files.

Every step takes a list of tokens and returns what it has read with the tokens
that are left.  `readUnit` never fails: what is no package, import or type
declaration is code, and code ends with a semicolon or with the brace that
closes its block.  The functions that call each other are bounded by `fuel`;
`CompilationUnit.read` gives them more than any source can use up.
-/
import RouteRegistry.Source.Analysis
import RouteRegistry.Source.Tree.Expression

namespace RouteRegistry.Source

/-! ### Declarations -/

/-- The words that can stand in front of a declaration. -/
def modifierWords : List String :=
  ["public", "protected", "private", "abstract", "static", "final", "strictfp", "default",
    "synchronized", "native", "transient", "volatile", "sealed", "non-sealed"]

/-- Reads modifiers as long as there are some. -/
def readModifiers : (fuel : Nat) → List Token → List Modifier × List Token
  | 0, ts => ([], ts)
  | _ + 1, [] => ([], [])
  | fuel + 1, t :: ts =>
    if t.isOneOf modifierWords then
      let r := readModifiers fuel ts
      (.word t :: r.1, r.2)
    else if t.is "@" then
      match readAnnotationNode (8 * (t :: ts).length) (t :: ts) with
      | some (a, rest) =>
        let r := readModifiers fuel rest
        (.annotated a :: r.1, r.2)
      | none => ([], t :: ts)
    else ([], t :: ts)

/-- The kind of type that begins with the keyword.  Records are told from other uses of the word by
what follows their name. -/
def declaredKind? : List Token → Option TypeKind
  | keyword :: name :: after :: _ =>
    if !name.isWord then none
    else if keyword.is "class" then some .classType
    else if keyword.is "interface" then some .interfaceType
    else if keyword.is "enum" then some .enumType
    else if keyword.is "@interface" then some .annotationType
    else if keyword.is "record" ∧ after.isOneOf ["(", "<"] then some .recordType
    else none
  | _ => none

/-- Whether a type can be declared after the token, in code. -/
def canDeclareAfter (before : Option Token) (keyword : Token) : Bool :=
  match before with
  | none => true
  | some t =>
    if keyword.is "record" then
      t.isOneOf [";", "\x7b", "\x7d", ")"] || t.isOneOf modifierWords || t.isWord
    else !t.is "."

mutual

/-- Reads a type declaration from its keyword on. -/
def readType : (fuel : Nat) → List Modifier → List Token → Option (TypeDecl × List Token)
  | 0, _, _ => none
  | fuel + 1, modifiers, ts =>
    match declaredKind? ts, ts with
    | some kind, _ :: name :: ts =>
      match header? ts.length ts with
      | some (header, _ :: ts) =>
        let constants := if kind = .enumType then readCode fuel false 0 none ts else ([], ts)
        match readMembers fuel constants.2 with
        | (members, closing :: rest) =>
          if closing.is "\x7d" then
            some (.mk kind modifiers name header constants.1 members, rest)
          else none
        | (_, []) => none
      | _ => none
    | _, _ => none

/-- Reads the members of a body up to the brace that closes it. -/
def readMembers : (fuel : Nat) → List Token → List Member × List Token
  | 0, ts => ([], ts)
  | _ + 1, [] => ([], [])
  | fuel + 1, t :: ts =>
    if t.is "\x7d" then ([], t :: ts)
    else
      let modified := readModifiers (t :: ts).length (t :: ts)
      match readType fuel modified.1 modified.2 with
      | some (d, rest) =>
        let r := readMembers fuel rest
        (.type d :: r.1, r.2)
      | none =>
        let code := readCode fuel true 0 none (t :: ts)
        let r := readMembers fuel code.2
        (.code code.1 :: r.1, r.2)

/-- Reads code up to its semicolon or up to the brace that closes the body around it.  If `single`,
the end of a block ends the code as well.  `depth` counts open brackets, `before` is the token
before. -/
def readCode : (fuel : Nat) → (single : Bool) → (depth : Nat) → (before : Option Token) →
    List Token → List Code × List Token
  | 0, _, _, _, ts => ([], ts)
  | _ + 1, _, _, _, [] => ([], [])
  | fuel + 1, single, depth, before, t :: ts =>
    let declared :=
      if canDeclareAfter before t ∧ before.isSome then readType fuel [] (t :: ts) else none
    match declared with
    | some (d, rest) =>
      if single ∧ depth = 0 then ([.type d], rest)
      else
        -- for what follows, the type ends like a block
        let r := readCode fuel single depth (some { t with text := "\x7d" }) rest
        (.type d :: r.1, r.2)
    | none =>
      if depth = 0 then
        if t.is ";" then ([.token t], ts)
        else if t.closes then ([], t :: ts)
        else
          let r := readCode fuel single (if t.opens then 1 else 0) (some t) ts
          (.token t :: r.1, r.2)
      else if t.closes then
        if depth = 1 ∧ single ∧ t.is "\x7d" then ([.token t], ts)
        else
          let r := readCode fuel single (depth - 1) (some t) ts
          (.token t :: r.1, r.2)
      else
        let r := readCode fuel single (if t.opens then depth + 1 else depth) (some t) ts
        (.token t :: r.1, r.2)

end

/-! ### Files -/

/-- Reads one part of a file.  A token that can begin nothing is code by itself. -/
def readTopLevel (ts : List Token) : TopLevel × List Token :=
  let fuel := 8 * ts.length
  let modified := readModifiers ts.length ts
  let declaration :=
    if startsWith "package" modified.2 then
      match qualifiedName (modified.2.drop 1) with
      | (name, semicolon :: rest) =>
        if name ≠ [] ∧ semicolon.is ";" then some (.package name, rest) else none
      | (_, []) => none
    else if startsWith "import" ts then
      match upTo ";" 0 ts with
      | (path, semicolon :: rest) => some (.importDecl (path ++ [semicolon]), rest)
      | (_, []) => none
    else (readType fuel modified.1 modified.2).map fun r => (.type r.1, r.2)
  match declaration with
  | some r => r
  | none =>
    -- only a bracket that closes nothing is left, a part by itself
    match readCode fuel true 0 none ts with
    | ([], _) => (.code ((ts.take 1).map .token), ts.drop 1)
    | (parts, rest) => (.code parts, rest)

/-- The parts of a file one after the other.  Each takes at least one token. -/
def readUnit : (fuel : Nat) → List Token → CompilationUnit
  | 0, _ => []
  | _ + 1, [] => []
  | fuel + 1, t :: ts =>
    let r := readTopLevel (t :: ts)
    r.1 :: readUnit fuel r.2

/-- The syntax tree of a source file. -/
def CompilationUnit.read (source : String) : CompilationUnit :=
  readUnit (tokens source).length (tokens source)

/-- The model of the file with the source text. -/
def FileModel.read (path : Path) (source : String) : FileModel :=
  .ofUnit path (CompilationUnit.read source)

end RouteRegistry.Source

/-
RouteRegistry/Source/Import.lean

Reading an import declaration from its text, `import [static] a.b.C[.*];`.

Only the outer shape is looked at.  White space may stand between any two
tokens, so all of it is taken out of the path; what else stands there, such as
a comment, becomes part of the path.
-/
import RouteRegistry.Source.FileModel

namespace RouteRegistry.Source.Import

/-- The text between the keyword and the semicolon, trimmed. -/
def body? (text : List Char) : Option (List Char) :=
  (Text.stripStart? "import".toList (Text.trim text)).bind fun rest =>
    (Text.stripEnd? [';'] (Text.trimEnd rest)).map Text.trim

/-- Splits off the keyword `static`, which white space must follow. -/
def splitStatic (body : List Char) : Bool × List Char :=
  match Text.stripStart? "static".toList body with
  | some rest => if rest.head?.any isBlank then (true, Text.trim rest) else (false, body)
  | none => (false, body)

/-- Splits off the star of an import on demand. -/
def splitWildcard (path : List Char) : List Char × Bool :=
  match Text.stripEnd? ['.', '*'] path with
  | some space => (space, true)
  | none => (path, false)

/-- The import that the text declares, if it names anything. -/
def read? (text : List Char) : Option Import :=
  (body? text).bind fun body =>
    let path := splitWildcard (Text.squeeze (splitStatic body).2)
    if path.1 = [] then none
    else some ⟨String.ofList path.1, (splitStatic body).1, path.2⟩

end RouteRegistry.Source.Import

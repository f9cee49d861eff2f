/-
RouteRegistry/Source/Literal.lean

The value of a string literal, ordinary or text block, given as it is written
in the source with its quotes.

The body of a text block begins on the line after its opening quotes.  The
indentation its lines share is cut away (blank lines do not count, except for
the line of the closing quotes), and so is white space at the end of each line;
escapes are read after that.
-/
import RouteRegistry.Source.Escape

namespace RouteRegistry.Source

/-! ### Text blocks -/

namespace TextBlock

/-- The number of blank characters a line begins with. -/
def indentOf (line : List Char) : Nat := (line.takeWhile isBlank).length

/-- The lines whose indentation counts: those that show something, and the last. -/
def significant : List (List Char) → List (List Char)
  | [] => []
  | [last] => [last]
  | line :: rest => if line.all isBlank then significant rest else line :: significant rest

/-- The indentation that the significant lines share. -/
def commonIndent (lines : List (List Char)) : Nat :=
  ((significant lines).map indentOf).min?.getD 0

/-- A line without the shared indentation and without blank characters at its end. -/
def stripLine (indent : Nat) (line : List Char) : List Char :=
  Text.trimEnd (line.drop (min indent (indentOf line)))

/-- The lines of the body, which begins after the first line end if there is one. -/
def lines (block : List Char) : List (List Char) :=
  match block.dropWhile (· ≠ '\n') with
  | [] => Text.splitOn '\n' block
  | _ :: body => Text.splitOn '\n' body

/-- The text between the quotes without opening line and indentation. -/
def strip (block : List Char) : List Char :=
  List.intercalate ['\n'] ((lines block).map (stripLine (commonIndent (lines block))))

end TextBlock

/-! ### Values -/

/-- What is between the delimiters, if the text begins and ends with them. -/
def between? (delimiter s : List Char) : Option (List Char) :=
  (Text.stripStart? delimiter s).bind (Text.stripEnd? delimiter)

/-- The value of a string literal, or of a text block without its indentation. -/
def literalValue (literal : List Char) : List Char :=
  match between? ['"', '"', '"'] literal with
  | some block => decode (TextBlock.strip block)
  | none => decode ((between? ['"'] literal).getD literal)

/-! ### Written types -/

/-- The text of a type without white space and without type arguments; `depth` counts the
brackets that are open. -/
def eraseArguments (depth : Nat) : List Char → List Char
  | [] => []
  | c :: s =>
    if c = '<' then eraseArguments (depth + 1) s
    else if c = '>' then eraseArguments (depth - 1) s
    else if depth = 0 ∧ !isBlank c then c :: eraseArguments depth s
    else eraseArguments depth s

/-- A type as it is written, without its type arguments and without white space. -/
def normalizeType (written : String) : String :=
  String.ofList (eraseArguments 0 written.toList)

end RouteRegistry.Source

/-
RouteRegistry/Json/Value.lean

JSON documents as trees, and the two ways of writing them: `compact` on one
line, and `pretty` with one member or item to a line, indented by two spaces.

A tree keeps what a reader of typed values must be able to tell apart: the order
of members and their repetitions, and the digits of a number as written.  A text
is absent when its escapes name a surrogate without its partner; such a text may
stand where nobody reads it.
-/
import RouteRegistry.Text.Blank
import RouteRegistry.Text.Hex

namespace RouteRegistry

/-- A JSON value with its numbers as written and its members in order, repeated keys included. -/
inductive Json where
  | null
  | bool (b : Bool)
  /-- A number as it is written. -/
  | number (lexeme : List Char)
  | text (s : Option String)
  | array (items : List Json)
  | object (members : List (Option String × Json))
  deriving Inhabited

namespace Json

/-- A text that is there. -/
def str (s : String) : Json := .text (some s)

/-- A natural number, written with digits alone. -/
def nat (n : Nat) : Json := .number (Nat.repr n).toList

/-- The text, or null for none. -/
def strOrNull : Option String → Json
  | some s => str s
  | none => .null

/-- A list of texts. -/
def strings (ss : List String) : Json := .array (ss.map str)

/-- The object with the fields in the order given. -/
def record (fields : List (String × Json)) : Json := .object (fields.map fun f => (some f.1, f.2))

/-! ### Writing -/

/-- A character of a text as it is written: quotes, backslashes and the characters below U+0020
are escaped. -/
def encodeChar (c : Char) : List Char :=
  if c = '"' then ['\\', '"']
  else if c = '\\' then ['\\', '\\']
  else if c = '\x08' then ['\\', 'b']
  else if c = '\t' then ['\\', 't']
  else if c = '\n' then ['\\', 'n']
  else if c = '\x0c' then ['\\', 'f']
  else if c = '\r' then ['\\', 'r']
  else if c.toNat < 0x20 then '\\' :: 'u' :: hex4 c.toNat
  else [c]

/-- The text between quotation marks, with the characters escaped that cannot stand there. -/
def quote (s : List Char) : List Char := '"' :: s.flatMap encodeChar ++ ['"']

/-- An absent text is written like the empty one. -/
def quoteText (s : Option String) : List Char := quote (s.getD "").toList

mutual

/-- The tree on one line, without spaces. -/
def compact : Json → List Char
  | .null => "null".toList
  | .bool b => (if b then "true" else "false").toList
  | .number lexeme => lexeme
  | .text s => quoteText s
  | .array items => '[' :: compactItems items ++ [']']
  | .object members => '\x7b' :: compactMembers members ++ ['\x7d']

/-- The items of an array with commas between them and nothing else. -/
def compactItems : List Json → List Char
  | [] => []
  | [j] => j.compact
  | j :: js => j.compact ++ ',' :: compactItems js

/-- The members of an object with commas between them and nothing else. -/
def compactMembers : List (Option String × Json) → List Char
  | [] => []
  | [(k, j)] => quoteText k ++ ':' :: j.compact
  | (k, j) :: ms => quoteText k ++ ':' :: j.compact ++ ',' :: compactMembers ms

end

/-- A line feed and the indentation of depth `n`. -/
def newline (n : Nat) : List Char := '\n' :: List.replicate (2 * n) ' '

mutual

/-- The tree over several lines, as it stands at depth `n`. -/
def prettyAt (n : Nat) : Json → List Char
  | .array [] => ['[', ']']
  | .array (j :: js) => '[' :: prettyItems (n + 1) (j :: js) ++ newline n ++ [']']
  | .object [] => ['\x7b', '\x7d']
  | .object (m :: ms) => '\x7b' :: prettyMembers (n + 1) (m :: ms) ++ newline n ++ ['\x7d']
  | .null => "null".toList
  | .bool b => (if b then "true" else "false").toList
  | .number lexeme => lexeme
  | .text s => quoteText s

/-- The items of an array, each on a line of its own at depth `n`. -/
def prettyItems (n : Nat) : List Json → List Char
  | [] => []
  | [j] => newline n ++ j.prettyAt n
  | j :: js => newline n ++ j.prettyAt n ++ ',' :: prettyItems n js

/-- The members of an object, each on a line of its own at depth `n`. -/
def prettyMembers (n : Nat) : List (Option String × Json) → List Char
  | [] => []
  | [(k, j)] => newline n ++ quoteText k ++ ':' :: ' ' :: j.prettyAt n
  | (k, j) :: ms =>
    newline n ++ quoteText k ++ ':' :: ' ' :: j.prettyAt n ++ ',' :: prettyMembers n ms

end

/-- The value on one line, without white space. -/
def toCompact (j : Json) : String := String.ofList j.compact

/-- The value over several lines, indented by depth. -/
def toPretty (j : Json) : String := String.ofList (j.prettyAt 0)

end Json

end RouteRegistry

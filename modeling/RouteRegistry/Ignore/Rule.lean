/-
RouteRegistry/Ignore/Rule.lean

The lines of an ignore file.

`Rule.ofLine?` reads one line; a blank line, a comment and a pattern that makes
no sense are no rules.  Of the rules of one file the last that matches decides
(`verdict`).
-/
import RouteRegistry.Ignore.Glob.Match

namespace RouteRegistry.Ignore

/-- What an ignore file says of a path. -/
inductive Verdict where
  | ignore
  /-- The path is kept, whatever farther files say. -/
  | keep
  deriving DecidableEq, Inhabited

/-- A line of an ignore file: which places it is about, and what it decides of them. -/
structure Rule where
  glob : Glob
  verdict : Verdict
  /-- The rule is about directories alone. -/
  dirOnly : Bool

namespace Rule

/-- Trailing blanks do not count, unless a backslash stands in front of a space at the end. -/
def trimmed (line : List Char) : List Char :=
  if [' ', '\\'].isPrefixOf line.reverse then line else Text.trimEnd line

/-- The pattern without the separator at its end, which may be escaped, if it has one. -/
def stripDirMark? (pattern : List Char) : Option (List Char) :=
  (Text.stripEnd? ['/'] pattern).map fun p => (Text.stripEnd? ['\\'] p).getD p

/-- A pattern without a separator is meant for names at any depth, one with a separator for paths
from the directory of the file. -/
def anchored (fromHere : Bool) (pattern : List Char) : List Char :=
  if fromHere ∨ '/' ∈ pattern ∨ pattern = ['*', '*'] then pattern else '*' :: '*' :: '/' :: pattern

/-- A pattern that ends by two stars is about what is in a directory, not about itself. -/
def inside (pattern : List Char) : List Char :=
  if ['*', '*', '/'].isPrefixOf pattern.reverse then pattern ++ ['/', '*'] else pattern

/-- The rule of a pattern whose marks in front are taken off. -/
def ofPattern? (verdict : Verdict) (fromHere : Bool) (pattern : List Char) : Option Rule :=
  let named := (stripDirMark? pattern).getD pattern
  (Glob.ofText? (inside (anchored fromHere named))).map fun glob =>
    ⟨glob, verdict, (stripDirMark? pattern).isSome⟩

/-- The rule of a pattern that may begin with a separator, which ties it to the directory of the
file. -/
def ofTied? (verdict : Verdict) (pattern : List Char) : Option Rule :=
  match pattern with
  | '/' :: rest => ofPattern? verdict true rest
  | _ => ofPattern? verdict false pattern

/-- The rule of a line.  Comments and blank lines have none; a backslash takes the meaning from the
mark behind it. -/
def ofLine? (line : List Char) : Option Rule :=
  if line.head? = some '#' then none
  else
    match trimmed line with
    | [] => none
    | '\\' :: '!' :: rest => ofPattern? .ignore false ('!' :: rest)
    | '\\' :: '#' :: rest => ofPattern? .ignore false ('#' :: rest)
    | '!' :: rest => ofTied? .keep rest
    | pattern => ofTied? .ignore pattern

end Rule

/-! ### The rules of a file -/

/-- The pieces between line feeds. -/
def splitLines : List UInt8 → List (List UInt8)
  | [] => [[]]
  | b :: bs =>
    match splitLines bs with
    | [] => [[b]]
    | l :: ls => if b = 0x0a then [] :: l :: ls else (b :: l) :: ls

/-- Takes the carriage return off each line but the last, which no line feed ends, and which is no
line if it is empty. -/
def endLines : List (List UInt8) → List (List UInt8)
  | [] => []
  | [l] => if l = [] then [] else [l]
  | l :: ls => (if l.getLast? = some 0x0d then l.dropLast else l) :: endLines ls

/-- The characters of a line, if its bytes are UTF-8. -/
def decodeLine (l : List UInt8) : Option (List Char) :=
  (String.fromUTF8? ⟨l.toArray⟩).map String.toList

/-- The lines up to the first that is no UTF-8. -/
def textLines (content : ByteArray) : List (List Char) :=
  ((endLines (splitLines content.toList)).map decodeLine).takeWhile Option.isSome |>.filterMap id

/-- The lines without the byte order marks that the first may begin with. -/
def unmarked : List (List Char) → List (List Char)
  | [] => []
  | l :: ls => l.dropWhile (· = '\uFEFF') :: ls

/-- The rules of an ignore file in the order of its lines. -/
def rulesOf (content : ByteArray) : List Rule :=
  (unmarked (textLines content)).filterMap Rule.ofLine?

/-- What the rules say of the path, which is given from the directory of their file. -/
def verdict (rules : List Rule) (path : List UInt8) (isDir : Bool) : Option Verdict :=
  (rules.reverse.find? fun r => (isDir || !r.dirOnly) && r.glob.isMatch path).map (·.verdict)

end RouteRegistry.Ignore

/-
RouteRegistry/Source/Piece.lean

The pieces that Java source text is cut into: white space, comments and tokens.

`firstPiece` gives kind and length of the piece a text begins with, and takes
the longest one there is.  A string literal is one piece, text blocks included,
with all the code it embeds between `\{` and the brace that closes it; that
code may hold literals and comments again, so `literalTail` keeps a list of
what is open.
-/
import RouteRegistry.Text.Blank
import RouteRegistry.Text.Hex

namespace RouteRegistry.Source

/-! ### Words -/

/-- The characters of identifiers and keywords; every blank one left aside, these are all but the
ASCII characters that are neither letter, digit, underscore nor dollar sign. -/
def isWordPart (c : Char) : Bool :=
  c.isAlphanum || c == '_' || c == '$' || (0x80 ≤ c.toNat && !isBlank c)

/-- The character can begin an identifier or a keyword. -/
def isWordStart (c : Char) : Bool := isWordPart c && !c.isDigit

/-- The length of a word.  The modifier `non-sealed` is one. -/
def wordLength (s : List Char) : Nat :=
  let n := (s.takeWhile isWordPart).length
  let hyphened := "non-sealed".toList
  if n = 3 ∧ hyphened.isPrefixOf s ∧ !(s.drop hyphened.length).head?.any isWordPart then
    hyphened.length
  else n

/-! ### Numbers -/

/-- The length of a number after its first character; a sign may follow the letter of an
exponent. -/
def numberTail (hex : Bool) : List Char → Nat
  | [] => 0
  | e :: c :: s =>
    if (c = '+' ∨ c = '-') ∧ ((!hex ∧ (e = 'e' ∨ e = 'E')) ∨ e = 'p' ∨ e = 'P') then
      numberTail hex s + 2
    else if isWordPart e ∨ e = '.' then numberTail hex (c :: s) + 1
    else 0
  | [c] => if isWordPart c ∨ c = '.' then 1 else 0

/-! ### Comments -/

/-- The length up to and including the end of a block comment, if it ends. -/
def closeComment? : List Char → Option Nat
  | [] => none
  | '*' :: '/' :: _ => some 2
  | _ :: s => (closeComment? s).map (· + 1)

/-- The length of the comment that the text begins with. -/
def commentLength? : List Char → Option Nat
  | '/' :: '/' :: s => some ((s.takeWhile (· ≠ '\n')).length + 2)
  | '/' :: '*' :: s => (closeComment? s).map (· + 2)
  | _ => none

/-! ### String and character literals -/

/-- The length up to and including the apostrophe that closes a character literal. -/
def closeCharacter : List Char → Nat
  | [] => 0
  | '\\' :: _ :: s => closeCharacter s + 2
  | c :: s => if c = '\x27' then 1 else closeCharacter s + 1

/-- One of the digits from 0 to 7. -/
def isOctalDigit (c : Char) : Bool := '0' ≤ c && c ≤ '7'

/-- The length of an escape sequence after its backslash. -/
def escapeLength : List Char → Nat
  | [] => 0
  | c :: s =>
    let digits (n : Nat) := (s.take n).takeWhile fun d => (hexValue? d).isSome
    let braced := ((s.drop 1).takeWhile fun d => (hexValue? d).isSome).length
    -- up to three digits, also where the value takes only two of them
    if isOctalDigit c then (((c :: s).take 3).takeWhile isOctalDigit).length
    else if c = 'x' ∧ (digits 2).length = 2 then 3
    else if c = 'u' ∧ (digits 4).length = 4 then 5
    else if c = 'u' ∧ s.head? = some '\x7b' ∧ braced > 0 ∧ s[braced + 1]? = some '\x7d' then
      braced + 3
    else 1

/-- The length of a comment inside a text block, with the white space in front of it.  What begins
as a comment is one if it reaches further than the text does, which ends at the next quote or
backslash. -/
def blockComment? (s : List Char) : Option Nat :=
  let lead := (s.takeWhile isBlank).length
  let text := (s.takeWhile fun c => c ≠ '"' && c ≠ '\\').length
  (commentLength? (s.drop lead)).bind fun n => if lead + n > text then some (lead + n) else none

/-- What is open at a point inside a string literal. -/
inductive Nesting where
  /-- A literal between two quotes. -/
  | quotes
  /-- A text block; a piece of its text is about to begin if it is `fresh`. -/
  | block (fresh : Bool)
  /-- Embedded code, or braces in it. -/
  | code
  deriving DecidableEq, Inhabited

/-- The length up to and including the end of the outermost of the open things, innermost first. -/
def literalTail (nesting : List Nesting) (s : List Char) : Nat :=
  match nesting, s with
  | [], _ => 0
  | _, [] => 0
  | .quotes :: outer, c :: s =>
    if c = '"' then literalTail outer s + 1
    else if c = '\\' then
      if s.head? = some '\x7b' then literalTail (.code :: .quotes :: outer) (s.drop 1) + 2
      else literalTail (.quotes :: outer) (s.drop (escapeLength s)) + 1 + escapeLength s
    else literalTail (.quotes :: outer) s + 1
  | .block fresh :: outer, c :: s =>
    match if fresh then blockComment? (c :: s) else none with
    | some n => literalTail (.block true :: outer) (s.drop (n - 1)) + 1 + (n - 1)
    | none =>
      if ['"', '"', '"'].isPrefixOf (c :: s) then literalTail outer (s.drop 2) + 3
      else if c = '\\' then
        if s.head? = some '\x7b' then literalTail (.code :: .block true :: outer) (s.drop 1) + 2
        else literalTail (.block true :: outer) (s.drop (escapeLength s)) + 1 + escapeLength s
      else literalTail (.block false :: outer) s + 1
  | .code :: outer, c :: s =>
    if ['"', '"', '"'].isPrefixOf (c :: s) then
      literalTail (.block true :: .code :: outer) (s.drop 2) + 3
    else if c = '"' then literalTail (.quotes :: .code :: outer) s + 1
    else if c = '\x27' then literalTail (.code :: outer) (s.drop (closeCharacter s)) + 1 + closeCharacter s
    else if c = '\x7b' then literalTail (.code :: .code :: outer) s + 1
    else if c = '\x7d' then literalTail outer s + 1
    else
      match commentLength? (c :: s) with
      | some n => literalTail (.code :: outer) (s.drop (n - 1)) + 1 + (n - 1)
      | none => literalTail (.code :: outer) s + 1
termination_by s.length
decreasing_by all_goals (simp only [List.length_drop, List.length_cons]; omega)

/-! ### The first piece -/

/-- The operators and separators of more than one character that the tokens distinguish, no one
of them before a longer one that it begins. -/
def operators : List String :=
  ["...", "<<=", "->", "::", "++", "--", "&&", "||", "==", "!=", "<=", "<<", "+=", "-=", "*=",
    "/=", "&=", "|=", "^=", "%="]

/-- What a piece of source text is. -/
inductive PieceKind where
  | blank
  | comment
  | token
  deriving DecidableEq

/-- The length of the token that the text begins with; zero stands for one character. -/
def tokenLength (s : List Char) : Nat :=
  match s with
  | [] => 0
  -- a text block first: it begins like an empty string
  | '"' :: '"' :: '"' :: rest => literalTail [.block true] rest + 3
  | '"' :: rest => literalTail [.quotes] rest + 1
  | '\x27' :: rest => closeCharacter rest + 1
  | '0' :: 'x' :: rest => numberTail true rest + 2
  | '0' :: 'X' :: rest => numberTail true rest + 2
  | c :: rest =>
    if c.isDigit ∨ (c = '.' ∧ rest.head?.any Char.isDigit) then numberTail false rest + 1
    else if isWordPart c then wordLength s
    else if "@interface".toList.isPrefixOf s ∧ !(s.drop 10).head?.any isWordPart then 10
    else
      match operators.find? fun o => o.toList.isPrefixOf s with
      | some o => o.length
      | none => 1

/-- Kind and length of the first piece of a text; a length of zero stands for one character. -/
def firstPiece (s : List Char) : PieceKind × Nat :=
  let blanks := (s.takeWhile isBlank).length
  if blanks > 0 then (.blank, blanks)
  else
    match commentLength? s with
    | some n => (.comment, n)
    | none => (.token, tokenLength s)

end RouteRegistry.Source

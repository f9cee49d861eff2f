/-
RouteRegistry/Source/Token.lean

Java source text as a list of tokens.

Nothing of the source is lost between the first token and the last: a token
remembers the white space and the comments in front of it (its `gap`), and
`sourceText` puts a run of tokens together again as it was written.  A closing
angle bracket is always a token of its own, so that nested type arguments can be
closed one by one.
-/
import RouteRegistry.Source.Piece

namespace RouteRegistry.Source

/-- What stands between two tokens. -/
inductive Trivia where
  | blank (text : String)
  | comment (text : String)
  deriving DecidableEq, Inhabited

/-- The text as it stands in the source. -/
def Trivia.text : Trivia → String
  | .blank text => text
  | .comment text => text

/-- The text of a comment. -/
def Trivia.comment? : Trivia → Option String
  | .comment text => some text
  | .blank _ => none

/-- A token with what stands in front of it. -/
structure Token where
  /-- What stands between the token before and this one. -/
  gap : List Trivia
  text : String
  /-- The line it begins on, counted from one. -/
  line : Nat
  deriving DecidableEq, Inhabited

namespace Token

/-- The first comment in front of the token. -/
def comment? (t : Token) : Option String := t.gap.findSome? Trivia.comment?

/-- The characters of the token with what stands in front of it. -/
def full (t : Token) : List Char := t.gap.flatMap (fun g => g.text.toList) ++ t.text.toList

end Token

/-- The tokens as written, from the beginning of the first to the end of the last. -/
def sourceText : List Token → String
  | [] => ""
  | t :: ts => String.ofList (t.text.toList ++ ts.flatMap Token.full)

/-! ### Kinds of tokens -/

namespace Token

/-- The first character; a token is not empty, so the default is never met in a source. -/
def first (t : Token) : Char := t.text.toList.headD ' '

/-- An identifier or a keyword. -/
def isWord (t : Token) : Bool := isWordStart t.first

/-- A string literal or a text block. -/
def isString (t : Token) : Bool := t.first == '"'

/-- A number or a character literal. -/
def isPlainLiteral (t : Token) : Bool :=
  t.first == '\x27' || t.first.isDigit ||
    (t.first == '.' && (t.text.toList.drop 1).head?.any Char.isDigit)

end Token

/-! ### Tokens -/

/-- The tokens of the text `s`, which begins on `line` and has `gap` in front of it. -/
def tokensFrom (line : Nat) (gap : List Trivia) (s : List Char) : List Token :=
  match s with
  | [] => []
  | c :: s =>
    let piece := firstPiece (c :: s)
    let text := c :: s.take (piece.2 - 1)
    let rest := s.drop (piece.2 - 1)
    let next := line + text.count '\n'
    match piece.1 with
    | .blank => tokensFrom next (gap ++ [.blank (String.ofList text)]) rest
    | .comment => tokensFrom next (gap ++ [.comment (String.ofList text)]) rest
    | .token => ⟨gap, String.ofList text, line⟩ :: tokensFrom next [] rest
termination_by s.length
decreasing_by all_goals (simp only [List.length_drop, List.length_cons]; omega)

/-- The tokens of a source file, whose byte order mark does not count. -/
def tokens (source : String) : List Token :=
  match source.toList with
  | '\ufeff' :: s => tokensFrom 1 [] s
  | s => tokensFrom 1 [] s

end RouteRegistry.Source

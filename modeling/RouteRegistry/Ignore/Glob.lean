/-
RouteRegistry/Ignore/Glob.lean

Patterns for paths, as ignore files write them.

`Glob.ofText?` reads a pattern: `?` is any byte but a separator, `*` any run of
such bytes, `**` with a separator beside it any run of directories, brackets
hold a set of characters, braces hold alternatives, and a backslash takes the
next character as it is.  A pattern that is not closed or whose set runs
backwards is none, but an opening bracket that nothing closes stands for itself.
-/
import RouteRegistry.Text.Blank

namespace RouteRegistry.Ignore

/-- What a piece of a pattern stands for. -/
inductive Piece where
  | byte (b : UInt8)
  /-- One byte, no separator. -/
  | anyByte
  /-- A run of bytes without a separator. -/
  | run
  /-- Any directories in front: nothing, or a text that ends with a separator. -/
  | leading
  /-- Anything below: a separator and any text. -/
  | trailing
  /-- Any directories between: a separator, or a text that begins and ends with one. -/
  | between
  /-- One byte in the ranges, or else one outside of them. -/
  | oneOf (negated : Bool) (ranges : List (UInt8 × UInt8))
  /-- One of the alternatives; nothing, if there is none. -/
  | choice (options : List (List Piece))
  deriving Inhabited

/-- A pattern: pieces to be matched one after the other. -/
abbrev Glob := List Piece

namespace Glob

/-- The byte between the names of a path. -/
def separator : UInt8 := 0x2f

/-- The bytes by which a character is matched. -/
def bytesOf (c : Char) : List UInt8 := (String.singleton c).toUTF8.toList

/-! ### Sets of characters -/

/-- The bytes of a character set with the range: those of the two ends, and all between the last
of the one and the first of the other. -/
def rangeBytes (r : Char × Char) : List (UInt8 × UInt8) :=
  if r.1 = r.2 then (bytesOf r.1).map fun b => (b, b)
  else
    let low := bytesOf r.1
    let high := bytesOf r.2
    (low.dropLast.map fun b => (b, b)) ++ [(low.getLast?.getD 0, high.head?.getD 0)] ++
      (high.drop 1).map fun b => (b, b)

/-- How reading a set ends. -/
inductive SetEnd where
  | closed (ranges : List (Char × Char)) (rest : List Char)
  /-- A range runs from a character to an earlier one. -/
  | backwards
  | unclosed
  deriving Inhabited

/-- Closes the range that began with the last character of the set. -/
def endRange (ranges : List (Char × Char)) (c : Char) : Option (List (Char × Char)) :=
  match ranges.getLast? with
  | some (low, _) => if c < low then none else some (ranges.dropLast ++ [(low, c)])
  | none => some ranges

/-- The set up to its closing bracket.  At its beginning, a bracket or a dash is a member of it;
elsewhere a dash makes a range with its neighbours, and is a member in front of the bracket. -/
def readSet (first inRange : Bool) (ranges : List (Char × Char)) : List Char → SetEnd
  | [] => .unclosed
  | c :: rest =>
    if c = ']' ∧ !first then .closed (if inRange then ranges ++ [('-', '-')] else ranges) rest
    else if inRange then
      match endRange ranges c with
      | some ranges => readSet false false ranges rest
      | none => .backwards
    else if c = '-' ∧ !first then readSet false true ranges rest
    else readSet false false (ranges ++ [(c, c)]) rest

/-! ### Reading -/

/-- An alternation that is not closed yet: the pieces in front of it and its finished options. -/
structure Frame where
  before : Glob
  options : List Glob

/-- How far the reading of a pattern has come. -/
structure Reading where
  /-- The pieces since the last brace or comma. -/
  pieces : Glob
  /-- The alternations around, innermost first. -/
  frames : List Frame
  /-- The character before. -/
  last : Option Char
  /-- A bracket was left open, so that all that follow stand for themselves. -/
  bracketsPlain : Bool

namespace Reading

/-- Goes on behind pieces that have been read. -/
def push (s : Reading) (ps : Glob) (last : Char) : Reading :=
  { s with pieces := s.pieces ++ ps, last := some last }

/-- An option that matches nothing but the empty text because nothing is in it. -/
def isVoid (ps : Glob) : Bool :=
  ps.all fun
    | .choice [] => true
    | _ => false

/-- Goes on inside an alternation, whose first option is empty so far. -/
def openBrace (s : Reading) : Reading := ⟨[], ⟨s.pieces, []⟩ :: s.frames, some '\x7b', s.bracketsPlain⟩

/-- Inside an alternation a comma begins the next option; elsewhere it stands for itself. -/
def comma (s : Reading) : Reading :=
  match s.frames with
  | [] => s.push [.byte 0x2c] ','
  | f :: fs => ⟨[], { f with options := f.options ++ [s.pieces] } :: fs, some ',', s.bracketsPlain⟩

/-- Goes on behind an alternation.  A brace that closes nothing makes the pattern unreadable. -/
def closeBrace? (s : Reading) : Option Reading :=
  match s.frames with
  | [] => none
  | f :: fs =>
    let options := (f.options ++ [s.pieces]).filter fun o => !isVoid o
    some ⟨f.before ++ [.choice options], fs, some '\x7d', s.bracketsPlain⟩

/-- What two stars that end at `next` stand for, and whether they take `next` with them. -/
def twoStars (s : Reading) (next : Option Char) : Reading × Bool :=
  let plain := (s.push [.run, .run] '*', false)
  let inBraces := !s.frames.isEmpty
  if s.pieces.isEmpty then
    match next with
    | none => (s.push [.leading] '*', false)
    | some '/' => (s.push [.leading] '/', true)
    | some _ => plain
  else if s.last = some '/' ∨ (inBraces ∧ (s.last = some ',' ∨ s.last = some '\x7b')) then
    -- two spreads in a row are one
    let spread (p : Piece) (c : Char) : Reading :=
      match s.pieces.getLast? with
      | some .leading => s.push [] c
      | some .trailing => s.push [] c
      | _ => { s with pieces := s.pieces.dropLast ++ [p], last := some c }
    match next with
    | none => (spread .trailing '*', false)
    | some '/' => (spread .between '/', true)
    | some c =>
      if inBraces ∧ (c = ',' ∨ c = '\x7d') then (spread .trailing '*', false) else plain
  else plain

/-- A set and what follows it, or else the bracket itself. -/
def bracket (s : Reading) (rest : List Char) : Option (Reading × List Char) :=
  let negated := rest.head? = some '!' ∨ rest.head? = some '^'
  match readSet true false [] (if negated then rest.drop 1 else rest) with
  | .closed ranges after =>
    some (s.push [.oneOf (decide negated) (ranges.flatMap rangeBytes)] ']', after)
  | .backwards => none
  -- from here on no bracket opens a set
  | .unclosed => some ({ s.push [.byte 0x5b] '[' with bracketsPlain := true }, rest)

end Reading

/-- Reads on for at most `n` steps, of which each takes a character or more. -/
def read? : (n : Nat) → Reading → List Char → Option Glob
  | _, s, [] => if s.frames.isEmpty then some s.pieces else none
  | 0, _, _ :: _ => none
  | n + 1, s, c :: rest =>
    if c = '?' then read? n (s.push [.anyByte] c) rest
    else if c = '*' then
      match rest with
      | '*' :: rest =>
        let (s, taken) := s.twoStars rest.head?
        read? n s (if taken then rest.drop 1 else rest)
      | _ => read? n (s.push [.run] c) rest
    else if c = '[' ∧ !s.bracketsPlain then
      match s.bracket rest with
      | some (s, rest) => read? n s rest
      | none => none
    else if c = '\x7b' then read? n s.openBrace rest
    else if c = '\x7d' then
      match s.closeBrace? with
      | some s => read? n s rest
      | none => none
    else if c = ',' then read? n s.comma rest
    else if c = '\\' then
      match rest with
      | [] => none
      | e :: rest => read? n (s.push ((bytesOf e).map .byte) e) rest
    else read? n (s.push ((bytesOf c).map .byte) c) rest

/-- The pattern that the text spells, if it spells one. -/
def ofText? (text : List Char) : Option Glob :=
  read? text.length ⟨[], [], none, false⟩ text

end Glob

end RouteRegistry.Ignore

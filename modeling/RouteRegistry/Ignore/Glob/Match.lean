/-
RouteRegistry/Ignore/Glob/Match.lean

Which texts a pattern matches.

A piece of a pattern takes a beginning of the text and leaves the rest.
`Glob.rests` lists all rests that a pattern can leave, so a pattern matches a
text when it can leave nothing of it (`Glob.isMatch`).
-/
import RouteRegistry.Ignore.Glob

namespace RouteRegistry.Ignore.Glob

/-! ### Rests -/

/-- The text and all its ends. -/
def ends : List UInt8 → List (List UInt8)
  | [] => [[]]
  | b :: s => (b :: s) :: ends s

/-- What follows the separators of the text, one by one. -/
def afterSeparators : List UInt8 → List (List UInt8)
  | [] => []
  | b :: s => if b = separator then s :: afterSeparators s else afterSeparators s

/-- What is left after some bytes that are no separators. -/
def afterRun : List UInt8 → List (List UInt8)
  | [] => [[]]
  | b :: s => (b :: s) :: if b = separator then [] else afterRun s

/-- What is left after a separator and, below it, by `f`. -/
def below (f : List UInt8 → List (List UInt8)) : List UInt8 → List (List UInt8)
  | [] => []
  | b :: s => if b = separator then f s else []

/-- What is left after one byte that `p` allows. -/
def afterByte (p : UInt8 → Bool) : List UInt8 → List (List UInt8)
  | [] => []
  | b :: s => if p b then [s] else []

/-- The byte lies in one of the ranges, bounds included. -/
def inRanges (ranges : List (UInt8 × UInt8)) (b : UInt8) : Bool :=
  ranges.any fun r => r.1 ≤ b && b ≤ r.2

mutual

/-- What can be left of the bytes behind a match of the piece, once for every way to match. -/
def pieceRests : Piece → List UInt8 → List (List UInt8)
  | .byte b, s => afterByte (· == b) s
  | .anyByte, s => afterByte (· != separator) s
  | .run, s => afterRun s
  | .leading, s => s :: afterSeparators s
  | .trailing, s => below ends s
  | .between, s => below (fun t => t :: afterSeparators t) s
  | .oneOf negated ranges, s => afterByte (fun b => inRanges ranges b != negated) s
  | .choice [], s => [s]
  | .choice (o :: os), s => optionRests (o :: os) s

/-- What can be left behind any of the options. -/
def optionRests : List (List Piece) → List UInt8 → List (List UInt8)
  | [], _ => []
  | o :: os, s => rests o [s] ++ optionRests os s

/-- What the pattern can leave of one of the texts, each rest once. -/
def rests : List Piece → List (List UInt8) → List (List UInt8)
  | [], ss => ss
  | p :: ps, ss => rests ps (ss.flatMap (pieceRests p)).eraseDups

end

/-! ### Matching -/

/-- Whether the pattern matches the whole text; directories in front, alone, match everything. -/
def isMatch (g : Glob) (s : List UInt8) : Bool :=
  match g with
  | [.leading] => true
  | g => (rests g [s]).contains []

end RouteRegistry.Ignore.Glob

/-
RouteRegistry/Json/Reader.lean

Reading JSON documents.

`Json.read?` accepts exactly one value with white space around it; there is no
limit on how deep it is nested.
-/
import RouteRegistry.Json.Value

namespace RouteRegistry.Json

/-- White space between the tokens of a document. -/
def isSpace (c : Char) : Bool := c == ' ' || c == '\t' || c == '\n' || c == '\r'

/-- The text behind the white space in front. -/
def skip (s : List Char) : List Char := s.dropWhile isSpace

/-! ### Texts -/

/-- The code point an escape of one character names. -/
def shortEscape? (c : Char) : Option Nat :=
  if c = '"' ∨ c = '\\' ∨ c = '/' then some c.toNat
  else if c = 'b' then some 0x08
  else if c = 'f' then some 0x0c
  else if c = 'n' then some 0x0a
  else if c = 'r' then some 0x0d
  else if c = 't' then some 0x09
  else none

/-- The code points up to the closing quote, those of surrogates included, and what follows it. -/
def codePoints : List Char → Option (List Nat × List Char)
  | [] => none
  | '"' :: s => some ([], s)
  | '\\' :: 'u' :: a :: b :: c :: d :: s =>
    match hexNumber? [a, b, c, d], codePoints s with
    | some n, some (ns, rest) => some (n :: ns, rest)
    | _, _ => none
  | '\\' :: c :: s =>
    match shortEscape? c, codePoints s with
    | some n, some (ns, rest) => some (n :: ns, rest)
    | _, _ => none
  | c :: s =>
    if c.toNat < 0x20 then none
    else (codePoints s).map fun r => (c.toNat :: r.1, r.2)

/-- The characters of the code points; two surrogates that belong together make one. -/
def charsOf? : List Nat → Option (List Char)
  | [] => some []
  | n :: rest =>
    if 0xd800 ≤ n ∧ n < 0xdc00 then
      match rest with
      | [] => none
      | m :: rest =>
        if 0xdc00 ≤ m ∧ m < 0xe000 then
          (charsOf? rest).map (Char.ofNat (0x10000 + (n - 0xd800) * 0x400 + (m - 0xdc00)) :: ·)
        else none
    else if 0xdc00 ≤ n ∧ n < 0xe000 then none
    else (charsOf? rest).map (Char.ofNat n :: ·)

/-- Reads a text after its opening quote. -/
def readText (s : List Char) : Option (Option String × List Char) :=
  (codePoints s).map fun r => ((charsOf? r.1).map String.ofList, r.2)

/-! ### Numbers -/

/-- Splits off the longest run of decimal digits. -/
def digits (s : List Char) : List Char × List Char := s.span Char.isDigit

/-- The digits before the point: a lone zero, or digits that begin with another one. -/
def wholePart? (s : List Char) : Option (List Char × List Char) :=
  match s with
  | '0' :: rest => if (rest.head?.any Char.isDigit) then none else some (['0'], rest)
  | _ => if (digits s).1 = [] then none else some (digits s)

/-- The point and the digits after it, if there is a point. -/
def fraction? (s : List Char) : Option (List Char × List Char) :=
  match s with
  | '.' :: rest =>
    if (digits rest).1 = [] then none else some ('.' :: (digits rest).1, (digits rest).2)
  | _ => some ([], s)

/-- The sign of an exponent, if there is one. -/
def exponentSign (s : List Char) : List Char × List Char :=
  match s with
  | '+' :: rest => (['+'], rest)
  | '-' :: rest => (['-'], rest)
  | _ => ([], s)

/-- The exponent, if there is one. -/
def exponent? (s : List Char) : Option (List Char × List Char) :=
  match s with
  | [] => some ([], [])
  | e :: rest =>
    if e = 'e' ∨ e = 'E' then
      let sign := exponentSign rest
      let ds := digits sign.2
      if ds.1 = [] then none else some (e :: sign.1 ++ ds.1, ds.2)
    else some ([], s)

/-- A number is taken as it is written and not evaluated: sign, whole part, fraction, exponent. -/
def readNumber (s : List Char) : Option (List Char × List Char) := do
  let sign : List Char × List Char := match s with
    | '-' :: rest => (['-'], rest)
    | _ => ([], s)
  let whole ← wholePart? sign.2
  let frac ← fraction? whole.2
  let exp ← exponent? frac.2
  some (sign.1 ++ whole.1 ++ frac.1 ++ exp.1, exp.2)

/-! ### Values -/

mutual

/-- Reads a value; `fuel` bounds the steps. -/
def readValue : (fuel : Nat) → List Char → Option (Json × List Char)
  | 0, _ => none
  | fuel + 1, s =>
    match skip s with
    | [] => none
    | '"' :: s => (readText s).map fun r => (.text r.1, r.2)
    | '[' :: s =>
      match skip s with
      | ']' :: s => some (.array [], s)
      | s => (readItems fuel s).map fun r => (.array r.1, r.2)
    | '\x7b' :: s =>
      match skip s with
      | '\x7d' :: s => some (.object [], s)
      | s => (readMembers fuel s).map fun r => (.object r.1, r.2)
    | 'n' :: 'u' :: 'l' :: 'l' :: s => some (.null, s)
    | 't' :: 'r' :: 'u' :: 'e' :: s => some (.bool true, s)
    | 'f' :: 'a' :: 'l' :: 's' :: 'e' :: s => some (.bool false, s)
    | s => (readNumber s).map fun r => (.number r.1, r.2)

/-- Reads the items of an array up to and including its closing bracket. -/
def readItems : (fuel : Nat) → List Char → Option (List Json × List Char)
  | 0, _ => none
  | fuel + 1, s =>
    match readValue fuel s with
    | none => none
    | some (j, s) =>
      match skip s with
      | ',' :: s => (readItems fuel s).map fun r => (j :: r.1, r.2)
      | ']' :: s => some ([j], s)
      | _ => none

/-- Reads the members of an object up to and including its closing brace. -/
def readMembers : (fuel : Nat) → List Char → Option (List (Option String × Json) × List Char)
  | 0, _ => none
  | fuel + 1, s =>
    match skip s with
    | '"' :: s =>
      match readText s with
      | none => none
      | some (k, s) =>
        match skip s with
        | ':' :: s =>
          match readValue fuel s with
          | none => none
          | some (j, s) =>
            match skip s with
            | ',' :: s => (readMembers fuel s).map fun r => ((k, j) :: r.1, r.2)
            | '\x7d' :: s => some ([(k, j)], s)
            | _ => none
        | _ => none
    | _ => none

end

/-- The value that is the whole text. -/
def read? (text : String) : Option Json :=
  -- the readers call each other at most twice for a character
  match readValue (2 * text.toList.length + 2) text.toList with
  | some (j, rest) => if skip rest = [] then some j else none
  | none => none

end RouteRegistry.Json

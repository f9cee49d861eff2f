/-
RouteRegistry/Text/Blank.lean

White space and control characters, as the Unicode standard lists them, and
the operations on text that depend on the two classes: trimming, and the test
for a text that shows nothing.

`isBlank` is the property White_Space, which is wider than the class of the four
characters that `Char.isWhitespace` knows; `isControl` is the general category
Cc.
-/

namespace RouteRegistry

/-! ### Character classes -/

/-- The characters with the property White_Space. -/
def isBlank (c : Char) : Bool :=
  let n := c.toNat
  (0x09 ≤ n && n ≤ 0x0d) || n == 0x20 || n == 0x85 || n == 0xa0 || n == 0x1680 ||
    (0x2000 ≤ n && n ≤ 0x200a) || n == 0x2028 || n == 0x2029 || n == 0x202f || n == 0x205f ||
    n == 0x3000

/-- The characters of the general category Cc. -/
def isControl (c : Char) : Bool :=
  let n := c.toNat
  n < 0x20 || (0x7f ≤ n && n < 0xa0)

/-! ### Trimming -/

namespace Text

/-- The text without the blank characters in front. -/
def trimStart (s : List Char) : List Char := s.dropWhile isBlank

/-- The text without the blank characters at its end. -/
def trimEnd (s : List Char) : List Char := (s.reverse.dropWhile isBlank).reverse

/-- The text without the blank characters on either side. -/
def trim (s : List Char) : List Char := trimEnd (trimStart s)

/-- The text with every blank character taken out. -/
def squeeze (s : List Char) : List Char := s.filter fun c => !isBlank c

/-- A text that is empty or all blank. -/
def isBlank (s : String) : Bool := s.toList.all RouteRegistry.isBlank

/-- The text ends with the suffix, which may be the whole of it or empty. -/
def endsWith (s suffix : String) : Bool := suffix.toList.isSuffixOf s.toList

/-- What follows `lead` in `s`, if `s` begins with it. -/
def stripStart? (lead s : List Char) : Option (List Char) :=
  if lead.isPrefixOf s then some (s.drop lead.length) else none

/-- What precedes `tail` in `s`, if `s` ends with it. -/
def stripEnd? (tail s : List Char) : Option (List Char) :=
  if tail.isSuffixOf s then some (s.take (s.length - tail.length)) else none

/-- The pieces between the occurrences of `sep`; one more than there are of them. -/
def splitOn (sep : Char) : List Char → List (List Char)
  | [] => [[]]
  | c :: cs =>
    if c = sep then [] :: splitOn sep cs
    else match splitOn sep cs with
      | [] => [[c]]
      | piece :: rest => (c :: piece) :: rest

/-- The texts one after the other with `sep` between them. -/
def joinWith (sep : String) (parts : List String) : String :=
  String.ofList (List.intercalate sep.toList (parts.map String.toList))

end Text

end RouteRegistry

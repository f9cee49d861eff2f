/-
RouteRegistry/Source/Escape.lean

Escape sequences of Java string literals.

`encode` writes a text for use between two quotes; `decode` reads the text
between the quotes back.  `decode` also reads what `encode` never writes: octal
escapes of up to three digits, `\s`, `\u` with any number of `u`, and the
escaped line end of text blocks.  A sequence that is no escape is kept as it
stands, but for repeated `u`, of which one is kept.
-/
import RouteRegistry.Text.Blank
import RouteRegistry.Text.Hex

namespace RouteRegistry.Source

/-! ### Writing -/

/-- The character as it stands in a literal. -/
def encodeChar (c : Char) : List Char :=
  if c = '"' then ['\\', '"']
  else if c = '\\' then ['\\', '\\']
  else if c = '\n' then ['\\', 'n']
  else if c = '\r' then ['\\', 'r']
  else if c = '\t' then ['\\', 't']
  else if isControl c then '\\' :: 'u' :: hex4 c.toNat
  else [c]

/-- The text with its characters as they stand in a literal. -/
def encode (s : List Char) : List Char := s.flatMap encodeChar

/-- The string literal, in its quotes, whose value is `value`. -/
def quote (value : String) : String :=
  String.ofList ('"' :: encode value.toList ++ ['"'])

/-! ### Reading -/

/-- The value of an octal digit. -/
def octalValue? (c : Char) : Option Nat :=
  let n := c.toNat
  if 0x30 ≤ n ∧ n ≤ 0x37 then some (n - 0x30) else none

/-- What a backslash and the character stand for, if the two alone are an escape. -/
def singleEscape? (c : Char) : Option (List Char) :=
  if c = 'n' then some ['\n']
  else if c = 't' then some ['\t']
  else if c = 'r' then some ['\r']
  else if c = 'b' then some ['\x08']
  else if c = 'f' then some ['\x0c']
  else if c = 's' then some [' ']
  else if c = '"' ∨ c = '\x27' ∨ c = '\\' then some [c]
  else if c = '\n' then some []
  else none

/-- The character that four hexadecimal digits name.  A plus sign may stand for the first digit;
surrogates name nothing. -/
def unicodeChar? (digits : List Char) : Option Char :=
  if digits.length = 4 then
    let number := hexNumber? (if digits.head? = some '+' then digits.drop 1 else digits)
    number.bind fun n => if h : n.isValidChar then some (Char.ofNatAux n h) else none
  else none

/-- Reads a Unicode escape after its last `u`: what it stands for, and the rest. -/
def decodeUnicode (s : List Char) : List Char × List Char :=
  match unicodeChar? (s.take 4) with
  | some c => ([c], s.drop 4)
  -- one `u` stands for all that were written
  | none => ('\\' :: 'u' :: s.take 4, s.drop 4)

/-- Reads up to `more` further octal digits onto `value`. -/
def decodeOctal : (more : Nat) → (value : Nat) → List Char → List Char × List Char
  | 0, value, s => ([Char.ofNat value], s)
  | _ + 1, value, [] => ([Char.ofNat value], [])
  | more + 1, value, c :: s =>
    match octalValue? c with
    | some digit => decodeOctal more (8 * value + digit) s
    | none => ([Char.ofNat value], c :: s)

/-- Reads an escape after its backslash: what it stands for, and the rest. -/
def decodeEscape : List Char → List Char × List Char
  | [] => (['\\'], [])
  | c :: s =>
    match singleEscape? c with
    | some text => (text, s)
    | none =>
      if c = 'u' then decodeUnicode (s.dropWhile (· = 'u'))
      else
        match octalValue? c with
        -- a third digit only where the value stays that of a byte
        | some digit => decodeOctal (if digit ≤ 3 then 2 else 1) digit s
        | none => (['\\', c], s)

/-- Octal digits are only taken away in front. -/
theorem decodeOctal_length_le (more value : Nat) (s : List Char) :
    (decodeOctal more value s).2.length ≤ s.length := by
  induction more generalizing value s with
  | zero => simp [decodeOctal]
  | succ more ih =>
    cases s with
    | nil => simp [decodeOctal]
    | cons c s =>
      unfold decodeOctal
      split
      · exact Nat.le_succ_of_le (ih _ s)
      · exact Nat.le_refl _

/-- A Unicode escape leaves no more than it found. -/
theorem decodeUnicode_length_le (s : List Char) :
    (decodeUnicode s).2.length ≤ s.length := by
  unfold decodeUnicode
  split <;> simp

/-- An escape leaves no more than it found, so the decoding of a text ends. -/
theorem decodeEscape_length_le (s : List Char) : (decodeEscape s).2.length ≤ s.length := by
  cases s with
  | nil => simp [decodeEscape]
  | cons c s =>
    simp only [decodeEscape]
    split
    · exact Nat.le_succ _
    · split
      · exact Nat.le_succ_of_le
          (Nat.le_trans (decodeUnicode_length_le _) (List.dropWhile_suffix _).length_le)
      · split
        · exact Nat.le_succ_of_le (decodeOctal_length_le _ _ s)
        · exact Nat.le_succ _

/-- The text with every escape replaced by what it stands for. -/
def decode : List Char → List Char
  | [] => []
  | c :: s =>
    if c = '\\' then (decodeEscape s).1 ++ decode (decodeEscape s).2
    else c :: decode s
termination_by s => s.length
decreasing_by
  · exact Nat.lt_succ_of_le (decodeEscape_length_le s)
  · exact Nat.lt_succ_self _

end RouteRegistry.Source

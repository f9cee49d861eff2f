/-
RouteRegistry/Proofs/Source/Decoding.lean

The escapes of Java, and what decoding makes of a text of them.

The text between the quotes of a literal is a sequence of symbols: plain
characters and escapes (`Symbol`).  Only an octal escape leaves open where it
ends, since it takes as many digits as still make one (`Symbol.StopsAt`).  With
that settled, a symbol is decoded on its own, whatever stands behind it
(`decode_symbol`), and a text symbol by symbol (`decode_write_append`).

Main result (`decode_write`): a text of symbols, each octal escape as long as it
can be, decodes to what the symbols stand for, one after the other.
-/
import RouteRegistry.Proofs.Source.Quoting

namespace RouteRegistry.Source

/-! ### Digits -/

/-- An octal digit as it is written. -/
def octalDigit (d : Fin 8) : Char := Char.ofNat (0x30 + d)

/-- The number that the octal digits write. -/
def octalNumber (ds : List (Fin 8)) : Nat := ds.foldl (fun n d => 8 * n + d.val) 0

/-- A hexadecimal digit, which has two forms from ten on. -/
structure HexDigit where
  value : Fin 16
  isUpper : Bool
  deriving DecidableEq

/-- The character of the digit, in the case that it is written in. -/
def HexDigit.char (d : HexDigit) : Char :=
  if d.value < 10 then Char.ofNat (0x30 + d.value)
  else Char.ofNat ((if d.isUpper then 'A'.toNat else 'a'.toNat) + (d.value - 10))

theorem octalValue?_octalDigit : ∀ d, octalValue? (octalDigit d) = some d.val := by decide

/-- An octal digit is not taken for another escape. -/
theorem octalDigit_plain : ∀ d, singleEscape? (octalDigit d) = none ∧ octalDigit d ≠ 'u' := by
  decide

theorem eq_octalDigit {c : Char} {n : Nat} (h : octalValue? c = some n) :
    ∃ d, c = octalDigit d := by
  unfold octalValue? at h
  dsimp only at h
  split at h
  case isTrue range =>
    refine ⟨⟨c.toNat - 0x30, by omega⟩, ?_⟩
    unfold octalDigit
    rw [show 0x30 + (c.toNat - 0x30) = c.toNat by omega, Char.ofNat_toNat]
  case isFalse => cases h

/-- A hexadecimal digit has its value in either case. -/
theorem hexValue?_char (d : HexDigit) : hexValue? d.char = some d.value.val := by
  rcases d with ⟨value, isUpper⟩
  revert value isUpper
  decide

/-- A hexadecimal digit is no mark of a Unicode escape, and no sign. -/
theorem HexDigit.char_plain (d : HexDigit) : d.char ≠ 'u' ∧ d.char ≠ '+' := by
  rcases d with ⟨value, isUpper⟩
  revert value isUpper
  decide

/-! ### Symbols -/

/-- The escapes of a backslash and one character. -/
inductive ShortEscape where
  | backspace
  | tab
  | lineFeed
  | formFeed
  | carriageReturn
  | space
  | quote
  | apostrophe
  | backslash
  /-- A line end that does not count. -/
  | lineEnd

namespace ShortEscape

/-- The character behind the backslash. -/
def letter : ShortEscape → Char
  | .backspace => 'b'
  | .tab => 't'
  | .lineFeed => 'n'
  | .formFeed => 'f'
  | .carriageReturn => 'r'
  | .space => 's'
  | .quote => '"'
  | .apostrophe => '\x27'
  | .backslash => '\\'
  | .lineEnd => '\n'

/-- The text that the escape stands for; the end of a line stands for none. -/
def value : ShortEscape → List Char
  | .backspace => ['\x08']
  | .tab => ['\x09']
  | .lineFeed => ['\x0a']
  | .formFeed => ['\x0c']
  | .carriageReturn => ['\x0d']
  | .space => [' ']
  | .quote => ['"']
  | .apostrophe => ['\x27']
  | .backslash => ['\\']
  | .lineEnd => []

end ShortEscape

/-- The digits of an octal escape: one to three, up to 377. -/
structure IsOctal (ds : List (Fin 8)) : Prop where
  ne_nil : ds ≠ []
  length_le : ds.length ≤ 3
  number_le : octalNumber ds ≤ 0o377

instance (ds : List (Fin 8)) : Decidable (IsOctal ds) :=
  decidable_of_iff (ds ≠ [] ∧ ds.length ≤ 3 ∧ octalNumber ds ≤ 0o377)
    ⟨fun ⟨a, b, c⟩ => ⟨a, b, c⟩, fun ⟨a, b, c⟩ => ⟨a, b, c⟩⟩

/-- The number that four hexadecimal digits write. -/
def unicodeNumber (a b c d : HexDigit) : Nat :=
  4096 * a.value + 256 * b.value + 16 * c.value + d.value

/-- A character of a literal, or an escape. -/
inductive Symbol where
  | plain (c : Char) (h : c ≠ '\\')
  | short (e : ShortEscape)
  | octal (ds : List (Fin 8)) (h : IsOctal ds)
  /-- A backslash, one `u` and `more` of them, and the number of a character that is no
  surrogate. -/
  | unicode (more : Nat) (a b c d : HexDigit)
      (h : unicodeNumber a b c d < 0xd800 ∨ 0xdfff < unicodeNumber a b c d)

namespace Symbol

/-- The symbol as it is written. -/
def text : Symbol → List Char
  | .plain c _ => [c]
  | .short e => ['\\', e.letter]
  | .octal ds _ => '\\' :: ds.map octalDigit
  | .unicode more a b c d _ =>
    '\\' :: 'u' :: (List.replicate more 'u' ++ [a.char, b.char, c.char, d.char])

/-- The characters that the symbol stands for. -/
def value : Symbol → List Char
  | .plain c _ => [c]
  | .short e => e.value
  | .octal ds _ => [Char.ofNat (octalNumber ds)]
  | .unicode _ a b c d _ => [Char.ofNat (unicodeNumber a b c d)]

/-- In front of `rest` the symbol is as long as it can be: what follows an octal escape is no digit
that would make another one of it. -/
def StopsAt (rest : List Char) : Symbol → Prop
  | .octal ds _ => ∀ d, rest.head? = some (octalDigit d) → ¬ IsOctal (ds ++ [d])
  | _ => True

/-- The symbols one after the other. -/
def write (ss : List Symbol) : List Char := ss.flatMap text

/-- In front of `rest` each of the symbols is as long as it can be. -/
def Longest (rest : List Char) : List Symbol → Prop
  | [] => True
  | s :: ss => s.StopsAt (write ss ++ rest) ∧ Longest rest ss

instance (rest : List Char) : (s : Symbol) → Decidable (s.StopsAt rest)
  | .octal ds _ =>
    inferInstanceAs (Decidable (∀ d, rest.head? = some (octalDigit d) → ¬ IsOctal (ds ++ [d])))
  | .plain .. | .short _ | .unicode .. => inferInstanceAs (Decidable True)

instance decidableLongest (rest : List Char) : (ss : List Symbol) → Decidable (Longest rest ss)
  | [] => inferInstanceAs (Decidable True)
  | s :: ss =>
    have := decidableLongest rest ss
    inferInstanceAs (Decidable (s.StopsAt (write ss ++ rest) ∧ Longest rest ss))

end Symbol

/-! ### Octal escapes -/

/-- A first digit above three leaves room for one more, any other for two. -/
theorem isOctal_cons_iff (d : Fin 8) (ds : List (Fin 8)) :
    IsOctal (d :: ds) ↔ ds.length ≤ if d.val ≤ 3 then 2 else 1 := by
  have number : IsOctal (d :: ds) ↔ ds.length ≤ 2 ∧ octalNumber (d :: ds) ≤ 0o377 := by
    constructor
    · rintro ⟨-, short, small⟩
      exact ⟨Nat.le_of_succ_le_succ short, small⟩
    · rintro ⟨short, small⟩
      exact ⟨List.cons_ne_nil _ _, Nat.succ_le_succ short, small⟩
  rw [number]
  -- no digits behind the first, one, two, or more
  rcases ds with - | ⟨e, - | ⟨f, - | ⟨g, ds⟩⟩⟩
  all_goals
    simp only [octalNumber, List.foldl_cons, List.foldl_nil, List.length_cons, List.length_nil]
    split <;> omega

/-- Octal digits are read up to their greatest number or to what is none. -/
theorem decodeOctal_digits {more : Nat} {ds : List (Fin 8)} (room : ds.length ≤ more)
    {rest : List Char}
    (stop : ds.length = more ∨ ∀ c, rest.head? = some c → octalValue? c = none) (value : Nat) :
    decodeOctal more value (ds.map octalDigit ++ rest) =
      ([Char.ofNat (ds.foldl (fun n d => 8 * n + d.val) value)], rest) := by
  -- either the digits fill the room or what follows is none, so the reader takes just these
  induction ds generalizing more value with
  | nil =>
    rcases more with - | more
    · rfl
    · rcases rest with - | ⟨c, rest⟩
      · rfl
      · have other := stop.resolve_left (Nat.succ_ne_zero more).symm c rfl
        simp only [List.map_nil, List.nil_append, decodeOctal, other, List.foldl_nil]
  | cons d ds ih =>
    rcases more with - | more
    · cases room
    · have room' : ds.length ≤ more := Nat.le_of_succ_le_succ room
      have stop' := stop.imp_left Nat.succ.inj
      simp only [List.map_cons, List.cons_append, decodeOctal, octalValue?_octalDigit,
        List.foldl_cons, ih room' stop']

/-- The longest octal escape that the text begins with is read. -/
theorem decodeEscape_octal {ds : List (Fin 8)} (octal : IsOctal ds) {rest : List Char}
    (stop : ∀ d, rest.head? = some (octalDigit d) → ¬ IsOctal (ds ++ [d])) :
    decodeEscape (ds.map octalDigit ++ rest) = ([Char.ofNat (octalNumber ds)], rest) := by
  obtain ⟨d, ds, rfl⟩ := List.exists_cons_of_ne_nil octal.ne_nil
  have room := (isOctal_cons_iff d ds).1 octal
  have full : ds.length = (if d.val ≤ 3 then 2 else 1) ∨
      ∀ c, rest.head? = some c → octalValue? c = none := by
    -- with room left, a further digit would belong to the escape
    refine (Nat.eq_or_lt_of_le room).imp_right fun left c hc => ?_
    rcases e : octalValue? c with - | n
    · rfl
    · obtain ⟨x, rfl⟩ := eq_octalDigit e
      refine absurd ((isOctal_cons_iff d (ds ++ [x])).2 ?_) (stop x hc)
      rw [List.length_append]
      exact left
  obtain ⟨single, mark⟩ := octalDigit_plain d
  have start : octalNumber (d :: ds) = ds.foldl (fun n d => 8 * n + d.val) d.val := by
    simp [octalNumber]
  rw [start, List.map_cons, List.cons_append, decodeEscape, single]
  dsimp only
  rw [if_neg mark, octalValue?_octalDigit]
  exact decodeOctal_digits room full d.val

/-! ### Unicode escapes -/

/-- Four digits name a character unless they name half of a surrogate pair. -/
theorem unicodeChar?_digits {a b c d : HexDigit}
    (h : unicodeNumber a b c d < 0xd800 ∨ 0xdfff < unicodeNumber a b c d) :
    unicodeChar? [a.char, b.char, c.char, d.char] = some (Char.ofNat (unicodeNumber a b c d)) := by
  have sign : ([a.char, b.char, c.char, d.char] : List Char).head? ≠ some '+' :=
    fun e => a.char_plain.2 (Option.some.inj e)
  have number : hexNumber? [a.char, b.char, c.char, d.char] = some (unicodeNumber a b c d) := by
    simp only [hexNumber?, List.foldlM_cons, List.foldlM_nil, hexValue?_char, Option.map_some,
      Option.bind_eq_bind, Option.bind_some, Option.pure_def, unicodeNumber]
    congr 1
    omega
  -- outside the surrogates four digits always name a character
  have valid : (unicodeNumber a b c d).isValidChar := by
    have small : unicodeNumber a b c d < 0x110000 := by
      unfold unicodeNumber
      omega
    exact h.imp_right fun above => ⟨above, small⟩
  unfold unicodeChar?
  rw [if_pos (by rfl)]
  dsimp only
  rw [if_neg sign, number, Option.bind_some, dif_pos valid, Char.ofNat, dif_pos valid]

/-- A Unicode escape may repeat its mark. -/
theorem decodeEscape_unicode (more : Nat) {a b c d : HexDigit}
    (h : unicodeNumber a b c d < 0xd800 ∨ 0xdfff < unicodeNumber a b c d) (rest : List Char) :
    decodeEscape
        ('u' :: (List.replicate more 'u' ++ [a.char, b.char, c.char, d.char]) ++ rest) =
      ([Char.ofNat (unicodeNumber a b c d)], rest) := by
  have marks : ∀ x ∈ List.replicate more 'u', decide (x = 'u') = true := by
    intro x hx
    exact decide_eq_true (List.eq_of_mem_replicate hx)
  have stop : (List.replicate more 'u' ++ [a.char, b.char, c.char, d.char] ++ rest).dropWhile
      (· = 'u') = [a.char, b.char, c.char, d.char] ++ rest := by
    rw [List.append_assoc, List.dropWhile_append_of_pos marks]
    -- no digit is a `u`, so the repeated marks end where the digits begin
    exact List.dropWhile_cons_of_neg (by simpa using a.char_plain.1)
  show decodeUnicode ((List.replicate more 'u' ++ _ ++ rest).dropWhile (· = 'u')) = _
  rw [stop]
  unfold decodeUnicode
  rw [show ([a.char, b.char, c.char, d.char] ++ rest).take 4 = [a.char, b.char, c.char, d.char]
    from rfl, unicodeChar?_digits h]
  rfl

/-! ### Texts of symbols -/

/-- A symbol that is as long as it can be is decoded by itself, and what follows it is decoded as if
it stood alone. -/
theorem decode_symbol {s : Symbol} {rest : List Char} (stop : s.StopsAt rest) :
    decode (s.text ++ rest) = s.value ++ decode rest := by
  -- one symbol of the grammar is one round of the reader
  cases s with
  | plain c h => exact decode_cons_of_ne h rest
  | short e =>
    have read : decodeEscape (e.letter :: rest) = (e.value, rest) := by
      cases e <;> rfl
    show decode ('\\' :: e.letter :: rest) = _
    rw [decode_backslash, read]
    rfl
  | octal ds h =>
    show decode ('\\' :: (ds.map octalDigit ++ rest)) = _
    rw [decode_backslash, decodeEscape_octal h stop]
    rfl
  | unicode more a b c d h =>
    show decode ('\\' :: ('u' :: (List.replicate more 'u' ++ _) ++ rest)) = _
    rw [decode_backslash, decodeEscape_unicode more h rest]
    rfl

/-- By induction on the symbols: each is read as it is meant, with any rest behind it. -/
theorem decode_write_append {ss : List Symbol} {rest : List Char}
    (longest : Symbol.Longest rest ss) :
    decode (Symbol.write ss ++ rest) = ss.flatMap Symbol.value ++ decode rest := by
  induction ss with
  | nil => rfl
  | cons s ss ih =>
    obtain ⟨stop, longest⟩ := longest
    show decode ((s.text ++ Symbol.write ss) ++ rest) = _
    rw [List.append_assoc, decode_symbol stop, ih longest, List.flatMap_cons, List.append_assoc]

/-- A text of plain characters and escapes, in which each octal escape takes all the digits it can,
decodes to what these stand for. -/
theorem decode_write {ss : List Symbol} (longest : Symbol.Longest [] ss) :
    decode (Symbol.write ss) = ss.flatMap Symbol.value := by
  rw [← List.append_nil (Symbol.write ss), decode_write_append longest, decode_nil, List.append_nil]

/-- Escapes with digits behind them that they must not take, and a backslash in front of a letter
that is no escape of its own. -/
def smallSymbols : List Symbol :=
  [.octal [4, 7] ⟨by decide, by decide, by decide⟩, .plain '7' (by decide),
    .octal [0] ⟨by decide, by decide, by decide⟩, .plain '8' (by decide),
    .unicode 1 ⟨0, false⟩ ⟨0, false⟩ ⟨5, false⟩ ⟨12, true⟩ (by decide), .plain 'n' (by decide),
    .plain 'F' (by decide), .short .lineEnd, .short .backslash, .plain 'u' (by decide),
    .octal [3, 7, 7] ⟨by decide, by decide, by decide⟩, .plain '0' (by decide)]

/-- Escapes next to characters that could have gone on with them. -/
theorem decode_smallSymbols :
    Symbol.Longest [] smallSymbols ∧
    Symbol.write smallSymbols = "\\477\\08\\uu005CnF\\\n\\\\u\\3770".toList ∧
    decode (Symbol.write smallSymbols) = "'7\x008\\nF\\u\xff0".toList := by
  have longest : Symbol.Longest [] smallSymbols := by decide +kernel
  exact ⟨longest, by decide +kernel, (decode_write longest).trans (by decide +kernel)⟩

end RouteRegistry.Source

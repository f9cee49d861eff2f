/-
RouteRegistry/Proofs/Source/Quoting.lean

String literals as they are written, read back.

A character is written as itself, as a backslash and a letter, or as `\u` and
four digits (`encodeChar_cases`).  All that is said of an encoded text follows
from these three cases by an induction over the text: an escape is read back
whatever follows it (`decode_encode_append`), it leaves nothing open that could
swallow what follows (`not_leavesEscaped_encode`), and the lexer passes over it
(`literalTail_encodeChar`).

Main result (`literalValue_quote`): the literal that `quote` writes for a text
has that text as its value, holds no control character and no quote that would
end it early, and is one token on one line.
-/
import Mathlib.Algebra.Ring.Parity
import Mathlib.Data.List.Induction
import RouteRegistry.Source.Literal
import RouteRegistry.Source.Token

namespace RouteRegistry

/-! ### Leads and ends -/

namespace Text

@[simp] theorem stripStart?_append (lead s : List Char) :
    stripStart? lead (lead ++ s) = some s := by
  unfold stripStart?
  rw [if_pos (List.isPrefixOf_iff_prefix.2 (List.prefix_append lead s)), List.drop_left]

theorem eq_append_of_stripStart? {lead s rest : List Char} (h : stripStart? lead s = some rest) :
    s = lead ++ rest := by
  unfold stripStart? at h
  split at h
  case isTrue begins =>
    obtain ⟨tail, rfl⟩ := List.isPrefixOf_iff_prefix.1 begins
    rw [List.drop_left] at h
    rw [Option.some.inj h]
  case isFalse => cases h

@[simp] theorem stripEnd?_append (s tail : List Char) :
    stripEnd? tail (s ++ tail) = some s := by
  unfold stripEnd?
  rw [if_pos (List.isSuffixOf_iff_suffix.2 (List.suffix_append s tail)), List.length_append,
    Nat.add_sub_cancel, List.take_left]

end Text

/-! ### Hexadecimal digits -/

/-- No digit is taken for a part of another escape, or for the end of a literal. -/
theorem hexDigit_plain : ∀ n < 16,
    hexDigit n ≠ 'u' ∧ hexDigit n ≠ '+' ∧ hexDigit n ≠ '"' ∧ hexDigit n ≠ '\\' ∧
      isControl (hexDigit n) = false := by decide

namespace Source

/-! ### What is written for a character -/

/-- The letters that stand behind a backslash in what is written. -/
def escapeLetters : List Char := ['"', '\\', 'n', 'r', 't']

/-- A character is written as it is, behind a backslash, or by its number. -/
theorem encodeChar_cases (c : Char) :
    (c ≠ '"' ∧ c ≠ '\\' ∧ isControl c = false ∧ encodeChar c = [c]) ∨
    (∃ letter ∈ escapeLetters, singleEscape? letter = some [c] ∧ encodeChar c = ['\\', letter]) ∨
    (c.toNat < 0xa0 ∧ encodeChar c = '\\' :: 'u' :: hex4 c.toNat) := by
  unfold encodeChar
  split
  case isTrue h => exact .inr (.inl ⟨'"', by decide, by rw [h]; rfl, rfl⟩)
  case isFalse quote =>
  split
  case isTrue h => exact .inr (.inl ⟨'\\', by decide, by rw [h]; rfl, rfl⟩)
  case isFalse backslash =>
  split
  case isTrue h => exact .inr (.inl ⟨'n', by decide, by rw [h]; rfl, rfl⟩)
  split
  case isTrue h => exact .inr (.inl ⟨'r', by decide, by rw [h]; rfl, rfl⟩)
  split
  case isTrue h => exact .inr (.inl ⟨'t', by decide, by rw [h]; rfl, rfl⟩)
  split
  case isTrue h =>
    -- both ranges of control characters lie below a0
    refine .inr (.inr ⟨?_, rfl⟩)
    simp only [isControl, Bool.or_eq_true, Bool.and_eq_true, decide_eq_true_eq] at h
    omega
  case isFalse h => exact .inl ⟨quote, backslash, Bool.eq_false_iff.2 h, rfl⟩

theorem encode_cons (c : Char) (v : List Char) : encode (c :: v) = encodeChar c ++ encode v :=
  rfl

theorem encode_concat (v : List Char) (c : Char) :
    encode (v ++ [c]) = encode v ++ encodeChar c := by
  unfold encode
  rw [List.flatMap_append, List.flatMap_singleton]

/-! ### Reading escapes back -/

theorem decode_nil : decode [] = [] := by rw [decode]

/-- A character that begins no escape stands for itself. -/
theorem decode_cons_of_ne {c : Char} (h : c ≠ '\\') (s : List Char) :
    decode (c :: s) = c :: decode s := by
  rw [decode, if_neg h]

/-- Decoding goes on behind an escape. -/
theorem decode_backslash (s : List Char) :
    decode ('\\' :: s) = (decodeEscape s).1 ++ decode (decodeEscape s).2 := by
  rw [decode, if_pos rfl]

theorem unicodeChar?_hex4 {c : Char} (h : c.toNat < 65536) :
    unicodeChar? (hex4 c.toNat) = some c := by
  have four : (hex4 c.toNat).length = 4 := rfl
  have first : (hex4 c.toNat).head? ≠ some '+' := by
    intro e
    exact (hexDigit_plain _ (Nat.mod_lt _ (by decide))).2.1 (Option.some.inj e)
  unfold unicodeChar?
  rw [if_pos four]
  dsimp only
  rw [if_neg first, hexNumber?_hex4 h, Option.bind_some]
  exact dif_pos c.valid

/-- A character that is written with four digits is read back. -/
theorem decodeEscape_hex4 {c : Char} (h : c.toNat < 65536) (s : List Char) :
    decodeEscape ('u' :: hex4 c.toNat ++ s) = ([c], s) := by
  have first : hexDigit (c.toNat / 4096 % 16) ≠ 'u' :=
    (hexDigit_plain _ (Nat.mod_lt _ (by decide))).1
  have stop : (hex4 c.toNat ++ s).dropWhile (· = 'u') = hex4 c.toNat ++ s :=
    List.dropWhile_cons_of_neg (by simpa using first)
  have digits : (hex4 c.toNat ++ s).take 4 = hex4 c.toNat := rfl
  show decodeUnicode ((hex4 c.toNat ++ s).dropWhile (· = 'u')) = ([c], s)
  rw [stop]
  unfold decodeUnicode
  rw [digits, unicodeChar?_hex4 h]
  rfl

/-- What is written for a character is read as that character, whatever follows. -/
theorem decode_encodeChar (c : Char) (s : List Char) :
    decode (encodeChar c ++ s) = c :: decode s := by
  obtain ⟨-, plain, -, e⟩ | ⟨letter, -, single, e⟩ | ⟨small, e⟩ := encodeChar_cases c
  · rw [e]
    exact decode_cons_of_ne plain s
  · have read : decodeEscape (letter :: s) = ([c], s) := by
      rw [decodeEscape, single]
    rw [e, List.cons_append, decode_backslash, List.singleton_append, read]
    rfl
  · rw [e, List.cons_append, decode_backslash, decodeEscape_hex4 (by omega)]
    rfl

/-- By induction on the text: what is escaped is read back, with any rest behind it. -/
theorem decode_encode_append (v s : List Char) : decode (encode v ++ s) = v ++ decode s := by
  induction v with
  | nil => rfl
  | cons c v ih => rw [encode_cons, List.append_assoc, decode_encodeChar, ih, List.cons_append]

/-- What is escaped is read back. -/
theorem decode_encode (v : List Char) : decode (encode v) = v := by
  rw [← List.append_nil (encode v), decode_encode_append, decode_nil, List.append_nil]

/-! ### Nothing breaks a line or a literal -/

theorem isControl_escapeLetter {letter : Char} (h : letter ∈ escapeLetters) :
    isControl letter = false := by
  simp only [escapeLetters, List.mem_cons, List.not_mem_nil, or_false] at h
  rcases h with rfl | rfl | rfl | rfl | rfl
  all_goals rfl

/-- No control character is left in an escaped text. -/
theorem isControl_of_mem_encode {v : List Char} {x : Char} (h : x ∈ encode v) :
    isControl x = false := by
  obtain ⟨c, -, hx⟩ := List.mem_flatMap.1 h
  -- controls are escaped, and an escape is written in letters and hex digits
  obtain ⟨-, -, visible, e⟩ | ⟨letter, named, -, e⟩ | ⟨-, e⟩ := encodeChar_cases c
  · rw [e, List.mem_singleton] at hx
    exact hx ▸ visible
  · rw [e, List.mem_cons, List.mem_singleton] at hx
    rcases hx with rfl | rfl
    · rfl
    · exact isControl_escapeLetter named
  · rw [e, List.mem_cons, List.mem_cons] at hx
    rcases hx with rfl | rfl | hx
    · rfl
    · rfl
    · obtain ⟨d, small, rfl⟩ := mem_hex4 hx
      exact (hexDigit_plain d small).2.2.2.2

/-- The text escapes the character behind it: it ends with an odd number of backslashes. -/
def LeavesEscaped (before : List Char) : Prop :=
  Odd (before.reverse.takeWhile (· = '\\')).length

/-- A backslash escapes what follows it, unless it is escaped itself. -/
theorem leavesEscaped_concat (before : List Char) (c : Char) :
    LeavesEscaped (before ++ [c]) ↔ c = '\\' ∧ ¬ LeavesEscaped before := by
  unfold LeavesEscaped
  rw [List.reverse_append, List.reverse_singleton, List.singleton_append]
  by_cases h : c = '\\'
  · rw [List.takeWhile_cons_of_pos (by simpa using h), List.length_cons, Nat.odd_add_one]
    simp only [h, true_and]
  · rw [List.takeWhile_cons_of_neg (by simpa using h)]
    simp [h]

theorem not_leavesEscaped_concat {c : Char} (h : c ≠ '\\') (before : List Char) :
    ¬ LeavesEscaped (before ++ [c]) :=
  fun escaped => h ((leavesEscaped_concat before c).1 escaped).1

/-- No backslash of an encoded text is left open at its end. -/
theorem not_leavesEscaped_encode (v : List Char) : ¬ LeavesEscaped (encode v) := by
  induction v using List.reverseRecOn with
  | nil => exact Nat.not_odd_zero
  | append_singleton v c ih =>
    rw [encode_concat]
    obtain ⟨-, plain, -, e⟩ | ⟨letter, -, -, e⟩ | ⟨-, e⟩ := encodeChar_cases c
    · rw [e]
      exact not_leavesEscaped_concat plain _
    · have opened : LeavesEscaped (encode v ++ ['\\']) := (leavesEscaped_concat _ _).2 ⟨rfl, ih⟩
      rw [e, List.append_cons, leavesEscaped_concat]
      exact fun h => h.2 opened
    · have last : hexDigit (c.toNat % 16) ≠ '\\' :=
        (hexDigit_plain _ (Nat.mod_lt _ (by decide))).2.2.2.1
      have split : encodeChar c =
          '\\' :: 'u' :: (hex4 c.toNat).dropLast ++ [hexDigit (c.toNat % 16)] := e
      rw [split, ← List.append_assoc]
      exact not_leavesEscaped_concat last _

/-- In what is written for a character, a quote can only stand behind a backslash. -/
theorem eq_of_encodeChar_eq {c : Char} {before after : List Char}
    (h : encodeChar c = before ++ '"' :: after) : before = ['\\'] := by
  have mem : '"' ∈ encodeChar c := h ▸ List.mem_append_right _ (List.mem_cons_self ..)
  -- a quote comes from the escape of a quote only: hex digits are none
  obtain ⟨plain, -, -, e⟩ | ⟨letter, -, -, e⟩ | ⟨-, e⟩ := encodeChar_cases c
  · rw [e] at mem
    exact absurd (List.mem_singleton.1 mem).symm plain
  · rw [e] at h
    rcases before with - | ⟨first, - | ⟨second, rest⟩⟩
    · cases h
    · exact congrArg (· :: []) (List.cons.inj h).1.symm
    · have short := congrArg List.length h
      simp at short
  · have digit : '"' ∈ hex4 c.toNat := by simpa [e] using mem
    obtain ⟨d, small, same⟩ := mem_hex4 digit
    exact absurd same.symm (hexDigit_plain d small).2.2.1

/-- Every quote in an encoded text is escaped. -/
theorem leavesEscaped_of_encode_eq {v before after : List Char}
    (h : encode v = before ++ '"' :: after) : LeavesEscaped before := by
  induction v using List.reverseRecOn generalizing after with
  | nil => exact absurd h.symm (List.append_ne_nil_of_right_ne_nil _ (List.cons_ne_nil _ _))
  | append_singleton v c ih =>
    rw [encode_concat, List.append_eq_append_iff] at h
    -- the quote is in what is written for the last character, or before it
    obtain ⟨piece, rfl, h⟩ | ⟨piece, split, h⟩ := h
    · obtain rfl := eq_of_encodeChar_eq h
      exact (leavesEscaped_concat _ _).2 ⟨rfl, not_leavesEscaped_encode v⟩
    · rcases piece with - | ⟨first, rest⟩
      · have lone : encodeChar c = [] ++ '"' :: after := h.symm
        cases eq_of_encodeChar_eq lone
      · obtain ⟨rfl, -⟩ := List.cons.inj h
        exact ih split

theorem head?_encode_ne (v : List Char) : (encode v).head? ≠ some '"' := by
  cases v with
  | nil => exact nofun
  | cons c v =>
    rw [encode_cons]
    obtain ⟨plain, -, -, e⟩ | ⟨letter, -, -, e⟩ | ⟨-, e⟩ := encodeChar_cases c
    · rw [e]
      exact fun h => plain (Option.some.inj h)
    all_goals
      rw [e]
      exact fun h => absurd (Option.some.inj h) (by decide)

/-! ### One token -/

theorem escapeLength_letter {letter : Char} (h : letter ∈ escapeLetters) (s : List Char) :
    escapeLength (letter :: s) = 1 := by
  simp only [escapeLetters, List.mem_cons, List.not_mem_nil, or_false] at h
  rcases h with rfl | rfl | rfl | rfl | rfl
  all_goals rfl

theorem escapeLength_hex4 (n : Nat) (s : List Char) :
    escapeLength ('u' :: hex4 n ++ s) = 5 := by
  have digit (m : Nat) : (hexValue? (hexDigit (m % 16))).isSome = true := by
    rw [hexValue?_hexDigit _ (Nat.mod_lt _ (by decide))]
    rfl
  simp [escapeLength, hex4, isOctalDigit, digit]

/-- Inside a literal the lexer passes over what is written for a character. -/
theorem literalTail_encodeChar (c : Char) (s : List Char) :
    literalTail [.quotes] (encodeChar c ++ s) =
      literalTail [.quotes] s + (encodeChar c).length := by
  obtain ⟨quote, backslash, -, e⟩ | ⟨letter, named, -, e⟩ | ⟨-, e⟩ := encodeChar_cases c
  · rw [e, List.singleton_append, literalTail, if_neg quote, if_neg backslash]
    rfl
  · have brace : (letter :: s).head? ≠ some '\x7b' := by
      intro h
      rw [Option.some.inj h] at named
      exact absurd named (by decide)
    rw [e, List.cons_append, List.singleton_append, literalTail, if_neg (by decide), if_pos rfl,
      if_neg brace, escapeLength_letter named]
    rfl
  · have brace : ('u' :: hex4 c.toNat ++ s).head? ≠ some '\x7b' :=
      fun h => absurd (Option.some.inj h) (by decide)
    rw [e, List.cons_append, literalTail, if_neg (by decide), if_pos rfl, if_neg brace,
      escapeLength_hex4]
    rfl

/-- The search for the end of a literal passes over an escaped text as a whole. -/
theorem literalTail_encode (v s : List Char) :
    literalTail [.quotes] (encode v ++ '"' :: s) = (encode v).length + 1 := by
  induction v with
  | nil =>
    show literalTail [.quotes] ('"' :: s) = 1
    rw [literalTail, if_pos rfl, literalTail]
  | cons c v ih =>
    rw [encode_cons, List.append_assoc, literalTail_encodeChar, ih, List.length_append]
    omega

theorem toList_quote (v : String) : (quote v).toList = '"' :: (encode v.toList ++ ['"']) :=
  String.toList_ofList

/-- A quote behind the empty literal would make it the beginning of a text block. -/
theorem tokenLength_quote (v : String) {s : List Char} (hs : s.head? ≠ some '"') :
    tokenLength ((quote v).toList ++ s) = (quote v).toList.length := by
  have shape : (quote v).toList ++ s = '"' :: (encode v.toList ++ '"' :: s) := by
    rw [toList_quote]
    simp
  rw [shape]
  unfold tokenLength
  split
  case h_2 rest e =>
    -- a text block: its second quote would be the first character of the encoded text
    rcases h : encode v.toList with - | ⟨first, more⟩
    · rw [h] at e
      refine absurd ?_ hs
      rw [(List.cons.inj (List.cons.inj e).2).2]
      rfl
    · rw [h] at e
      refine absurd ?_ (head?_encode_ne v.toList)
      rw [h, (List.cons.inj (List.cons.inj e).2).1]
      rfl
  case h_3 rest _ e =>
    obtain ⟨-, rfl⟩ := List.cons.inj e
    rw [literalTail_encode, toList_quote]
    simp
  case h_7 c rest _ other _ _ _ e => exact absurd (List.cons.inj e).1.symm other
  all_goals
    rename_i e
    cases e

/-- A literal is one token, unless what follows would make it a text block. -/
theorem firstPiece_quote (v : String) {s : List Char} (hs : s.head? ≠ some '"') :
    firstPiece ((quote v).toList ++ s) = (.token, (quote v).toList.length) := by
  rw [← tokenLength_quote v hs, toList_quote]
  rfl

theorem tokensFrom_token {c : Char} {text s : List Char}
    (h : firstPiece (c :: (text ++ s)) = (.token, (c :: text).length)) (line : Nat)
    (gap : List Trivia) :
    tokensFrom line gap (c :: (text ++ s)) =
      ⟨gap, String.ofList (c :: text), line⟩ ::
        tokensFrom (line + (c :: text).count '\n') [] s := by
  conv => lhs; unfold tokensFrom
  simp only [h, List.length_cons, Nat.add_sub_cancel, List.take_left, List.drop_left]

/-- A literal has no line break in it. -/
theorem count_quote (v : String) : (quote v).toList.count '\n' = 0 := by
  rw [List.count_eq_zero, toList_quote]
  intro mem
  rcases List.mem_cons.1 mem with e | mem
  · exact absurd e (by decide)
  · rcases List.mem_append.1 mem with mem | mem
    · exact absurd (isControl_of_mem_encode mem) (by decide)
    · exact absurd (List.mem_singleton.1 mem) (by decide)

/-- A literal is one token, and the line goes on behind it. -/
theorem tokensFrom_quote (line : Nat) (gap : List Trivia) (v : String) {s : List Char}
    (hs : s.head? ≠ some '"') :
    tokensFrom line gap ((quote v).toList ++ s) =
      ⟨gap, quote v, line⟩ :: tokensFrom line [] s := by
  have piece := firstPiece_quote v hs
  have sameLine := count_quote v
  rw [toList_quote, List.cons_append] at piece
  rw [toList_quote] at sameLine
  rw [toList_quote, List.cons_append, tokensFrom_token piece, sameLine, ← toList_quote,
    String.ofList_toList, Nat.add_zero]

/-! ### The value of a written literal -/

/-- The quotes around an encoded text are no delimiters of a text block. -/
theorem between?_quote (v : String) :
    between? ['"', '"', '"'] (quote v).toList = none ∧
    between? ['"'] (quote v).toList = some (encode v.toList) := by
  rw [toList_quote]
  constructor
  · have noLead : ['"', '"', '"'].isPrefixOf ('"' :: (encode v.toList ++ ['"'])) = false := by
      rcases h : encode v.toList with - | ⟨first, more⟩
      · rfl
      · have plain : ('"' == first) = false := by
          refine beq_eq_false_iff_ne.2 fun e => head?_encode_ne v.toList ?_
          rw [h, e]
          rfl
        simp [List.isPrefixOf, plain]
    unfold between? Text.stripStart?
    rw [noLead]
    rfl
  · have lead : Text.stripStart? ['"'] ('"' :: (encode v.toList ++ ['"'])) =
        some (encode v.toList ++ ['"']) := Text.stripStart?_append ['"'] _
    unfold between?
    rw [lead]
    exact Text.stripEnd?_append ..

/-- The value of a literal is the text that was quoted. -/
theorem value_quote (v : String) : literalValue (quote v).toList = v.toList := by
  obtain ⟨noBlock, inner⟩ := between?_quote v
  unfold literalValue
  rw [noBlock, inner]
  exact decode_encode v.toList

/-- The literal of a text has the text as its value.  Between its quotes the text is encoded
without control characters and without a quote that is not escaped, and whatever follows the
literal, unless it is a quote, the literal is one token on one line. -/
theorem literalValue_quote (v : String) :
    literalValue (quote v).toList = v.toList ∧
    ∃ body, (quote v).toList = '"' :: (body ++ ['"']) ∧ decode body = v.toList ∧
      (∀ c ∈ body, isControl c = false) ∧
      (∀ before after, body = before ++ '"' :: after → LeavesEscaped before) ∧
      ¬ LeavesEscaped body ∧
      between? ['"', '"', '"'] (quote v).toList = none ∧
      ∀ line gap rest, rest.head? ≠ some '"' →
        tokensFrom line gap ((quote v).toList ++ rest) =
          ⟨gap, quote v, line⟩ :: tokensFrom line [] rest := by
  refine ⟨value_quote v, encode v.toList, toList_quote v, decode_encode _, ?_, ?_, ?_,
    (between?_quote v).1, ?_⟩
  · exact fun _ => isControl_of_mem_encode
  · exact fun _ _ => leavesEscaped_of_encode_eq
  · exact not_leavesEscaped_encode _
  · exact fun line gap _ hs => tokensFrom_quote line gap v hs

end Source

end RouteRegistry

/-
RouteRegistry/Proofs/Source/Verbatim.lean

Backslashes that begin no escape, and what decoding leaves of them.

A backslash in front of a character that begins no escape stays, and so does one
at the end of the text (`decodeEscape_of_not_begins`).  Behind a backslash and a
`u`, four characters are looked at.  They name a character if they are
hexadecimal digits, but also if they are a plus sign and three such digits
(`unicodeChar?_eq_none_iff`); otherwise all is kept but the repeated `u`
(`decode_marks`).

Main result (`decode_unknown`): with plain text around it, what is no escape is
kept as it stands, unless it is a Unicode escape gone wrong that repeats the `u`
or has a plus sign for its first digit.
-/
import RouteRegistry.Proofs.Source.Decoding

namespace RouteRegistry.Source

/-! ### Digits read back -/

/-- The number that the hexadecimal digits write behind the digits of `start`. -/
def hexNumberFrom (start : Nat) (ds : List HexDigit) : Nat :=
  ds.foldl (fun n d => 16 * n + d.value.val) start

theorem exists_hexDigit {c : Char} (h : (hexValue? c).isSome) : ∃ d : HexDigit, c = d.char := by
  have digits : ∀ n : Fin 0x67, (hexValue? (Char.ofNat n)).isSome →
      ∃ value isUpper, Char.ofNat n = HexDigit.char ⟨value, isUpper⟩ := by decide +kernel
  -- the last digit is a small f
  have bound : c.toNat < 0x67 := by
    unfold hexValue? at h
    grind
  obtain ⟨value, isUpper, e⟩ := digits ⟨c.toNat, bound⟩ (by rwa [Char.ofNat_toNat])
  exact ⟨⟨value, isUpper⟩, by rwa [Char.ofNat_toNat] at e⟩

theorem foldlM_hexValue?_map_char (start : Nat) (ds : List HexDigit) :
    (ds.map HexDigit.char).foldlM (fun acc c => (hexValue? c).map (16 * acc + ·)) start =
      some (hexNumberFrom start ds) := by
  induction ds generalizing start with
  | nil => rfl
  | cons d ds ih =>
    rw [List.map_cons, List.foldlM_cons, hexValue?_char]
    exact ih (16 * start + d.value.val)

/-- Hexadecimal digits are read as the number that they write. -/
theorem hexNumber?_map_char (ds : List HexDigit) :
    hexNumber? (ds.map HexDigit.char) = some (hexNumberFrom 0 ds) :=
  foldlM_hexValue?_map_char 0 ds

/-- Only hexadecimal digits are read as a number. -/
theorem exists_of_foldlM_hexValue? {s : List Char} {start n : Nat}
    (h : s.foldlM (fun acc c => (hexValue? c).map (16 * acc + ·)) start = some n) :
    ∃ ds : List HexDigit, s = ds.map HexDigit.char := by
  induction s generalizing start with
  | nil => exact ⟨[], rfl⟩
  | cons c s ih =>
    rw [List.foldlM_cons] at h
    obtain ⟨next, value, rest⟩ := Option.bind_eq_some_iff.1 h
    obtain ⟨digit, hc, -⟩ := Option.map_eq_some_iff.1 value
    obtain ⟨d, rfl⟩ := exists_hexDigit (Option.isSome_of_eq_some hc)
    obtain ⟨ds, rfl⟩ := ih rest
    exact ⟨d :: ds, rfl⟩

/-- Whatever is read as a number is made of digits. -/
theorem exists_of_hexNumber? {s : List Char} {n : Nat} (h : hexNumber? s = some n) :
    ∃ ds : List HexDigit, s = ds.map HexDigit.char :=
  exists_of_foldlM_hexValue? h

/-! ### What names a character -/

/-- The text is four hexadecimal digits and writes the number of a character. -/
def IsUnicode (s : List Char) : Prop :=
  ∃ a b c d : HexDigit, s = [a.char, b.char, c.char, d.char] ∧
    (unicodeNumber a b c d < 0xd800 ∨ 0xdfff < unicodeNumber a b c d)

/-- The text is a plus sign and three hexadecimal digits. -/
def IsSigned (s : List Char) : Prop :=
  ∃ a b c : HexDigit, s = ['+', a.char, b.char, c.char]

/-- Three digits write the number of a character in any case. -/
theorem unicodeChar?_signed (a b c : HexDigit) :
    unicodeChar? ['+', a.char, b.char, c.char] = some (Char.ofNat (hexNumberFrom 0 [a, b, c])) := by
  have number : hexNumber? [a.char, b.char, c.char] = some (hexNumberFrom 0 [a, b, c]) :=
    hexNumber?_map_char [a, b, c]
  have valid : (hexNumberFrom 0 [a, b, c]).isValidChar := by
    refine .inl ?_
    simp only [hexNumberFrom, List.foldl_cons, List.foldl_nil]
    omega
  show ((hexNumber? [a.char, b.char, c.char]).bind _) = _
  rw [number, Option.bind_some, dif_pos valid, Char.ofNat, dif_pos valid]

theorem length_of_unicodeChar? {s : List Char} {c : Char} (h : unicodeChar? s = some c) :
    s.length = 4 := by
  by_contra other
  unfold unicodeChar? at h
  rw [if_neg other] at h
  cases h

/-- What is taken for a Unicode escape has four digits, or a sign and three. -/
theorem isUnicode_or_isSigned {s : List Char} {c : Char} (h : unicodeChar? s = some c) :
    IsUnicode s ∨ IsSigned s := by
  have four := length_of_unicodeChar? h
  unfold unicodeChar? at h
  rw [if_pos four] at h
  obtain ⟨n, number, valid⟩ := Option.bind_eq_some_iff.1 h
  split at number
  case isTrue sign =>
    -- a plus sign, and the digits behind it
    obtain ⟨s, rfl⟩ := List.head?_eq_some_iff.1 sign
    obtain ⟨ds, digits⟩ := exists_of_hexNumber? number
    have three : ds.length = 3 := by
      have length := congrArg List.length digits
      rw [List.drop_one, List.tail_cons, List.length_map] at length
      rw [List.length_cons] at four
      omega
    match ds, three with
    | [x, y, z], _ => exact .inr ⟨x, y, z, congrArg ('+' :: ·) digits⟩
  case isFalse =>
    obtain ⟨ds, rfl⟩ := exists_of_hexNumber? number
    rw [List.length_map] at four
    rw [hexNumber?_map_char, Option.some.injEq] at number
    subst number
    match ds, four with
    | [w, x, y, z], _ =>
      have value : hexNumberFrom 0 [w, x, y, z] = unicodeNumber w x y z := by
        simp only [hexNumberFrom, List.foldl_cons, List.foldl_nil, unicodeNumber]
        omega
      rw [value] at valid
      by_cases range : (unicodeNumber w x y z).isValidChar
      · exact .inl ⟨w, x, y, z, rfl, range.imp_right And.left⟩
      · rw [dif_neg range] at valid
        cases valid

/-- The four characters behind a `u` name a character if they are digits of one, or else a plus sign
and three digits. -/
theorem unicodeChar?_eq_none_iff {s : List Char} :
    unicodeChar? s = none ↔ ¬ IsUnicode s ∧ ¬ IsSigned s := by
  constructor
  · intro h
    constructor
    · rintro ⟨a, b, c, d, rfl, range⟩
      rw [unicodeChar?_digits range] at h
      cases h
    · rintro ⟨a, b, c, rfl⟩
      rw [unicodeChar?_signed] at h
      cases h
  · rintro ⟨digits, unsigned⟩
    rcases h : unicodeChar? s with - | c
    · rfl
    · exact absurd (isUnicode_or_isSigned h) (not_or.2 ⟨digits, unsigned⟩)

/-! ### Plain text -/

/-- What stands in front of the first backslash is kept. -/
theorem decode_plain_append {before : List Char} (plain : '\\' ∉ before) (s : List Char) :
    decode (before ++ s) = before ++ decode s := by
  induction before with
  | nil => rfl
  | cons c before ih =>
    obtain ⟨first, rest⟩ := not_or.1 (mt List.mem_cons.2 plain)
    rw [List.cons_append, decode_cons_of_ne (Ne.symm first), ih rest, List.cons_append]

theorem decode_plain {s : List Char} (plain : '\\' ∉ s) : decode s = s := by
  have h := decode_plain_append plain []
  rwa [decode_nil, List.append_nil] at h

/-! ### Backslashes that begin no escape -/

/-- A backslash in front of the character makes an escape. -/
def BeginsEscape (c : Char) : Prop :=
  c = 'u' ∨ (∃ e : ShortEscape, c = e.letter) ∨ ∃ d, c = octalDigit d

theorem singleEscape?_eq_none {c : Char} (h : ∀ e : ShortEscape, c ≠ e.letter) :
    singleEscape? c = none := by
  have newline : c ≠ 'n' := h .lineFeed
  have tab : c ≠ 't' := h .tab
  have carriage : c ≠ 'r' := h .carriageReturn
  have backspace : c ≠ 'b' := h .backspace
  have form : c ≠ 'f' := h .formFeed
  have space : c ≠ 's' := h .space
  have quotes : ¬ (c = '"' ∨ c = '\x27' ∨ c = '\\') := by
    rintro (e | e | e)
    · exact h .quote e
    · exact h .apostrophe e
    · exact h .backslash e
  have ended : c ≠ '\n' := h .lineEnd
  unfold singleEscape?
  rw [if_neg newline, if_neg tab, if_neg carriage, if_neg backspace, if_neg form, if_neg space,
    if_neg quotes, if_neg ended]

/-- A backslash that begins no escape is kept together with the character behind it. -/
theorem decodeEscape_of_not_begins {c : Char} (h : ¬ BeginsEscape c) (s : List Char) :
    decodeEscape (c :: s) = (['\\', c], s) := by
  have single : singleEscape? c = none := singleEscape?_eq_none fun e hc => h (.inr (.inl ⟨e, hc⟩))
  have mark : c ≠ 'u' := fun hc => h (.inl hc)
  have octal : octalValue? c = none := by
    rcases e : octalValue? c with - | n
    · rfl
    · exact absurd (.inr (.inr (eq_octalDigit e))) h
  rw [decodeEscape, single]
  dsimp only
  rw [if_neg mark, octal]

/-- The marks of a Unicode escape are passed over, however many they are. -/
theorem decodeEscape_marks (more : Nat) (s : List Char) :
    decodeEscape ('u' :: (List.replicate more 'u' ++ s)) =
      decodeUnicode (s.dropWhile (· = 'u')) := by
  have marks : ∀ x ∈ List.replicate more 'u', decide (x = 'u') = true := by
    intro x hx
    exact decide_eq_true (List.eq_of_mem_replicate hx)
  show decodeUnicode ((List.replicate more 'u' ++ s).dropWhile (· = 'u')) = _
  rw [List.dropWhile_append_of_pos marks]

/-- A Unicode escape gone wrong keeps its digits and one mark. -/
theorem decode_marks {more : Nat} {s : List Char} (plain : '\\' ∉ s)
    (wrong : unicodeChar? ((s.dropWhile (· = 'u')).take 4) = none) :
    decode ('\\' :: 'u' :: (List.replicate more 'u' ++ s)) =
      '\\' :: 'u' :: s.dropWhile (· = 'u') := by
  have rest : '\\' ∉ (s.dropWhile (· = 'u')).drop 4 := fun h =>
    plain ((List.dropWhile_suffix _).subset (List.mem_of_mem_drop h))
  rw [decode_backslash, decodeEscape_marks, decodeUnicode, wrong]
  show '\\' :: 'u' :: ((s.dropWhile (· = 'u')).take 4 ++ decode _) = _
  rw [decode_plain rest, List.take_append_drop]

/-- An escape that names a character is shorter once it is read. -/
theorem length_decode_marks (more : Nat) {s : List Char} (plain : '\\' ∉ s) {c : Char}
    (named : unicodeChar? ((s.dropWhile (· = 'u')).take 4) = some c) :
    (decode ('\\' :: 'u' :: (List.replicate more 'u' ++ s))).length < s.length := by
  have rest : '\\' ∉ (s.dropWhile (· = 'u')).drop 4 := fun h =>
    plain ((List.dropWhile_suffix _).subset (List.mem_of_mem_drop h))
  have four := length_of_unicodeChar? named
  have shorter : (s.dropWhile (· = 'u')).length ≤ s.length := (List.dropWhile_suffix _).length_le
  rw [decode_backslash, decodeEscape_marks, decodeUnicode, named]
  show (c :: decode _).length < _
  rw [decode_plain rest, List.length_cons, List.length_drop]
  rw [List.length_take] at four
  omega

/-- If the digits name no character, decoding leaves the escape alone when there is one mark, and
no plus sign in front of three digits. -/
theorem decode_marks_eq_iff {more : Nat} {s : List Char} (plain : '\\' ∉ s)
    (digits : ¬ IsUnicode (s.take 4)) :
    decode ('\\' :: 'u' :: (List.replicate more 'u' ++ s)) =
        '\\' :: 'u' :: (List.replicate more 'u' ++ s) ↔
      more = 0 ∧ s.head? ≠ some 'u' ∧ ¬ IsSigned (s.take 4) := by
  constructor
  · intro same
    rcases named : unicodeChar? ((s.dropWhile (· = 'u')).take 4) with - | c
    · rw [decode_marks plain named, List.cons.injEq, List.cons.injEq] at same
      obtain ⟨-, -, same⟩ := same
      -- every repeated mark is dropped, and with one gone the result is too short
      have length := congrArg List.length same
      have shorter : (s.dropWhile (· = 'u')).length ≤ s.length :=
        (List.dropWhile_suffix _).length_le
      rw [List.length_append, List.length_replicate] at length
      obtain rfl : more = 0 := by omega
      have kept : s.dropWhile (· = 'u') = s := same
      refine ⟨rfl, fun first => ?_, fun signed => ?_⟩
      · obtain ⟨t, rfl⟩ := List.head?_eq_some_iff.1 first
        rw [List.dropWhile_cons_of_pos (by decide)] at kept
        have short := (List.dropWhile_suffix (fun c => decide (c = 'u')) (l := t)).length_le
        rw [kept, List.length_cons] at short
        omega
      · rw [kept] at named
        exact (unicodeChar?_eq_none_iff.1 named).2 signed
    -- read as a character the escape is shorter than it was written
    · have short := length_decode_marks more plain named
      rw [same, List.length_cons, List.length_cons, List.length_append] at short
      omega
  · rintro ⟨rfl, mark, unsigned⟩
    have kept : s.dropWhile (· = 'u') = s := by
      rcases s with - | ⟨c, s⟩
      · rfl
      · exact List.dropWhile_cons_of_neg (by simpa using mark)
    have wrong : unicodeChar? ((s.dropWhile (· = 'u')).take 4) = none := by
      rw [kept]
      exact unicodeChar?_eq_none_iff.2 ⟨digits, unsigned⟩
    rw [decode_marks plain wrong, kept]
    rfl

/-- Plain text around it being kept, so is a backslash that begins no escape.  It begins none in
front of a character without an escape, and at the end.  In front of a `u` it begins none if the
next four characters are no digits of a character; then, however, it is kept exactly when the `u` is
not repeated and the four are no plus sign with three digits. -/
theorem decode_unknown {before after : List Char} (plain : '\\' ∉ before)
    (plainAfter : '\\' ∉ after) :
    (∀ more, ¬ IsUnicode (after.take 4) →
      (decode (before ++ '\\' :: 'u' :: (List.replicate more 'u' ++ after)) =
          before ++ '\\' :: 'u' :: (List.replicate more 'u' ++ after) ↔
        more = 0 ∧ after.head? ≠ some 'u' ∧ ¬ IsSigned (after.take 4))) ∧
    (∀ c, ¬ BeginsEscape c → decode (before ++ '\\' :: c :: after) = before ++ '\\' :: c :: after) ∧
    decode (before ++ ['\\']) = before ++ ['\\'] := by
  -- what stands in front is read on its own, so the three cases start at the backslash
  refine ⟨fun more digits => ?_, fun c other => ?_, ?_⟩
  · rw [decode_plain_append plain, List.append_cancel_left_eq]
    exact decode_marks_eq_iff plainAfter digits
  · rw [decode_plain_append plain, decode_backslash, decodeEscape_of_not_begins other]
    show before ++ '\\' :: c :: decode after = _
    rw [decode_plain plainAfter]
  · rw [decode_plain_append plain, decode_backslash]
    show before ++ '\\' :: decode [] = _
    rw [decode_nil]

/-- Digits that are too few, a letter without an escape, and a backslash at the end. -/
theorem decode_unknown_small :
    '\\' ∉ "Key ".toList ∧ '\\' ∉ "12 z".toList ∧
    decode "Key \\u12 z".toList = "Key \\u12 z".toList ∧
    decode "Key \\q12 z".toList = "Key \\q12 z".toList ∧
    decode "Key \\".toList = "Key \\".toList := by
  have plain : '\\' ∉ "Key ".toList := by decide
  have plainAfter : '\\' ∉ "12 z".toList := by decide
  obtain ⟨digits, unsigned⟩ :=
    unicodeChar?_eq_none_iff.1 (show unicodeChar? ("12 z".toList.take 4) = none by decide)
  -- `q` is no mark, no short escape and no octal digit
  have other : ¬ BeginsEscape 'q' := by
    rintro (e | ⟨e, h⟩ | ⟨d, h⟩)
    · exact absurd e (by decide)
    · cases e <;> exact absurd h (by decide)
    · revert d
      decide
  obtain ⟨marks, letter, ending⟩ := decode_unknown plain plainAfter
  have kept := (marks 0 digits).2 ⟨rfl, by decide, unsigned⟩
  exact ⟨plain, plainAfter, kept, letter 'q' other, ending⟩

/-- Without digits of a character, and not kept: a repeated `u`, and a plus sign that is read as a
digit. -/
theorem decode_small_not_kept :
    ¬ IsUnicode "12".toList ∧ decode "\\uu12".toList ≠ "\\uu12".toList ∧
    ¬ IsUnicode "+041".toList ∧ decode "\\u+041".toList ≠ "\\u+041".toList := by
  refine ⟨?_, by decide +kernel, ?_, by decide +kernel⟩
  · rintro ⟨a, b, c, d, e, -⟩
    cases congrArg List.length e
  · rintro ⟨a, b, c, d, e, -⟩
    exact a.char_plain.2 (List.cons.inj e).1.symm

end RouteRegistry.Source

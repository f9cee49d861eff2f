/-
RouteRegistry/Proofs/Json/Reading.lean

Compact documents, read back.

The reader is asked for a value with any text behind it, because that is how it
meets the values inside an array or an object.  A text ends with its quote, an
array and an object with their brackets; only a number leaves open where it
ends, so what follows it must not go on with it (`EndsNumber`).

The trees are those that the library writes (`Plain`): their texts are there and
their numbers are natural.

Main result (`read?_toCompact`): the compact form of such a tree is read as that
tree.
-/
import Mathlib.Data.List.Basic
import Mathlib.Data.List.TakeDrop
import Mathlib.Data.List.TakeWhile
import RouteRegistry.Json.Reader

namespace RouteRegistry.Json

/-! ### Texts -/

/-- A character is written as it is, behind a backslash, or by its number. -/
theorem encodeChar_cases (c : Char) :
    (c ≠ '"' ∧ c ≠ '\\' ∧ ¬ c.toNat < 0x20 ∧ encodeChar c = [c]) ∨
    (∃ letter, letter ≠ 'u' ∧ shortEscape? letter = some c.toNat ∧
      encodeChar c = ['\\', letter]) ∨
    (c.toNat < 0x20 ∧ encodeChar c = '\\' :: 'u' :: hex4 c.toNat) := by
  -- one case for each branch of the code: two quoted characters, five short escapes, the controls
  unfold encodeChar
  split
  case isTrue h => exact .inr (.inl ⟨'"', by decide, by rw [h]; rfl, rfl⟩)
  case isFalse quote =>
  split
  case isTrue h => exact .inr (.inl ⟨'\\', by decide, by rw [h]; rfl, rfl⟩)
  case isFalse backslash =>
  split
  case isTrue h => exact .inr (.inl ⟨'b', by decide, by rw [h]; rfl, rfl⟩)
  split
  case isTrue h => exact .inr (.inl ⟨'t', by decide, by rw [h]; rfl, rfl⟩)
  split
  case isTrue h => exact .inr (.inl ⟨'n', by decide, by rw [h]; rfl, rfl⟩)
  split
  case isTrue h => exact .inr (.inl ⟨'f', by decide, by rw [h]; rfl, rfl⟩)
  split
  case isTrue h => exact .inr (.inl ⟨'r', by decide, by rw [h]; rfl, rfl⟩)
  split
  case isTrue h => exact .inr (.inr ⟨h, rfl⟩)
  case isFalse h => exact .inl ⟨quote, backslash, h, rfl⟩

/-- A short escape is read as the character that its letter names. -/
theorem codePoints_short {letter : Char} {n : Nat} (plain : letter ≠ 'u')
    (named : shortEscape? letter = some n) (s : List Char) :
    codePoints ('\\' :: letter :: s) = (codePoints s).map fun r => (n :: r.1, r.2) := by
  rw [codePoints.eq_4 _ _ fun _ _ _ _ _ e => absurd e plain, named]
  rcases codePoints s with - | ⟨ns, rest⟩ <;> rfl

/-- A character that may stand for itself does. -/
theorem codePoints_plain {c : Char} (quote : c ≠ '"') (backslash : c ≠ '\\')
    (visible : ¬ c.toNat < 0x20) (s : List Char) :
    codePoints (c :: s) = (codePoints s).map fun r => (c.toNat :: r.1, r.2) := by
  rw [codePoints.eq_5 _ _ quote (fun _ _ _ _ _ e => absurd e backslash)
    fun _ _ e => absurd e backslash, if_neg visible]

/-- What is written for a character is read as its code point, whatever follows. -/
theorem codePoints_encodeChar (c : Char) (s : List Char) :
    codePoints (encodeChar c ++ s) = (codePoints s).map fun r => (c.toNat :: r.1, r.2) := by
  obtain ⟨quote, backslash, visible, e⟩ | ⟨letter, short, named, e⟩ | ⟨small, e⟩ :=
    encodeChar_cases c
  · rw [e]
    exact codePoints_plain quote backslash visible s
  · rw [e]
    exact codePoints_short short named s
  · have number : hexNumber? (hex4 c.toNat) = some c.toNat := hexNumber?_hex4 (by omega)
    rw [e, List.cons_append, List.cons_append]
    unfold hex4 at number ⊢
    simp only [List.cons_append, List.nil_append, codePoints, number]
    rcases codePoints s with - | ⟨ns, rest⟩ <;> rfl

/-- Whatever text is quoted, its characters are read back, with any rest behind the quote. -/
theorem codePoints_quote (v rest : List Char) :
    codePoints (v.flatMap encodeChar ++ '"' :: rest) = some (v.map Char.toNat, rest) := by
  induction v with
  | nil => rfl
  | cons c v ih =>
    rw [List.flatMap_cons, List.append_assoc, codePoints_encodeChar, ih]
    rfl

/-- A character is no surrogate, so its code point stands for itself. -/
theorem charsOf?_map_toNat (v : List Char) : charsOf? (v.map Char.toNat) = some v := by
  induction v with
  | nil => rfl
  | cons c v ih =>
    have valid : c.toNat < 0xd800 ∨ 0xdfff < c.toNat ∧ c.toNat < 0x110000 := c.valid
    rw [List.map_cons, charsOf?.eq_def]
    dsimp only
    rw [if_neg (by omega), if_neg (by omega), ih, Char.ofNat_toNat]
    rfl

/-- A quoted text is read back. -/
theorem readText_quote (v : String) (rest : List Char) :
    readText (v.toList.flatMap encodeChar ++ '"' :: rest) = some (some v, rest) := by
  unfold readText
  rw [codePoints_quote, Option.map_some, charsOf?_map_toNat, Option.map_some, String.ofList_toList]

theorem quoteText_append (v : String) (rest : List Char) :
    quoteText (some v) ++ rest = '"' :: (v.toList.flatMap encodeChar ++ '"' :: rest) := by
  simp [quoteText, quote]

/-! ### Numbers -/

/-- A number that stands in front of the text ends there. -/
def EndsNumber (rest : List Char) : Prop :=
  ∀ c, rest.head? = some c → c.isDigit = false ∧ c ≠ '.' ∧ c ≠ 'e' ∧ c ≠ 'E'

theorem endsNumber_nil : EndsNumber [] := nofun

theorem endsNumber_cons {c : Char} (h : c.isDigit = false ∧ c ≠ '.' ∧ c ≠ 'e' ∧ c ≠ 'E')
    (s : List Char) : EndsNumber (c :: s) := by
  rintro d ⟨⟩
  exact h

/-- Digits are read up to something that cannot go on with a number. -/
theorem digits_append {ds rest : List Char} (all : ∀ c ∈ ds, c.isDigit = true)
    (stop : EndsNumber rest) : digits (ds ++ rest) = (ds, rest) := by
  have none : rest.takeWhile Char.isDigit = [] ∧ rest.dropWhile Char.isDigit = rest := by
    rcases rest with - | ⟨c, rest⟩
    · exact ⟨rfl, rfl⟩
    · simp [(stop c rfl).1]
  unfold digits
  rw [List.span_eq_takeWhile_dropWhile, List.takeWhile_append_of_pos all,
    List.dropWhile_append_of_pos all, none.1, none.2, List.append_nil]

theorem isDigit_of_mem_toDigits {n : Nat} {c : Char} (h : c ∈ Nat.toDigits 10 n) :
    c.isDigit = true :=
  Nat.isDigit_of_mem_toDigits (by decide) (by decide) h

/-- Only zero is written with a zero in front. -/
theorem head?_toDigits {n : Nat} (h : n ≠ 0) : (Nat.toDigits 10 n).head? ≠ some '0' := by
  induction n using Nat.strongRecOn with
  | ind n ih =>
    by_cases small : n < 10
    · rw [Nat.toDigits_of_lt_base small]
      have other : ∀ d < 10, d ≠ 0 → Nat.digitChar d ≠ '0' := by decide
      exact fun zero => other n small h (Option.some.inj zero)
    · have smaller := ih (n / 10) (by omega) (by omega)
      rw [Nat.toDigits_of_base_le (by decide) (by omega), List.head?_append_of_ne_nil]
      · exact smaller
      · exact Nat.toDigits_ne_nil

/-- A number is written without leading zeros, as its whole part has to be. -/
theorem wholePart?_toDigits (n : Nat) {rest : List Char} (stop : EndsNumber rest) :
    wholePart? (Nat.toDigits 10 n ++ rest) = some (Nat.toDigits 10 n, rest) := by
  have all : ∀ c ∈ Nat.toDigits 10 n, c.isDigit = true := fun _ => isDigit_of_mem_toDigits
  obtain ⟨d, ds, e⟩ := List.exists_cons_of_ne_nil (Nat.toDigits_ne_nil (n := n) (b := 10))
  -- a leading zero stands alone, so only the number zero itself starts with one
  by_cases zero : n = 0
  · subst zero
    have last : rest.head?.any Char.isDigit = false := by
      rcases rest with - | ⟨c, rest⟩
      · rfl
      · exact (stop c rfl).1
    simp [Nat.toDigits_zero, wholePart?, last]
  · have other : d ≠ '0' := by
      rintro rfl
      apply head?_toDigits zero
      rw [e]
      rfl
    have split := digits_append all stop
    rw [e] at split ⊢
    rw [List.cons_append] at split ⊢
    unfold wholePart?
    split
    case h_1 _ same => exact absurd (List.cons.inj same).1 other
    case h_2 => simp [split]

/-- A written number is read back, with any rest that cannot go on with it. -/
theorem readNumber_toDigits (n : Nat) {rest : List Char} (stop : EndsNumber rest) :
    readNumber (Nat.toDigits 10 n ++ rest) = some (Nat.toDigits 10 n, rest) := by
  have whole := wholePart?_toDigits n stop
  have unsigned : ∀ tail, Nat.toDigits 10 n ++ rest ≠ '-' :: tail := by
    intro tail same
    obtain ⟨d, ds, e⟩ := List.exists_cons_of_ne_nil (Nat.toDigits_ne_nil (n := n) (b := 10))
    have digit : d.isDigit = true := isDigit_of_mem_toDigits (e ▸ List.mem_cons_self ..)
    rw [e] at same
    rw [(List.cons.inj same).1] at digit
    cases digit
  -- `stop` rules out a point or an exponent behind the digits
  have noFraction : fraction? rest = some ([], rest) := by
    unfold fraction?
    split
    case h_1 tail => exact absurd rfl (stop '.' rfl).2.1
    case h_2 => rfl
  have noExponent : exponent? rest = some ([], rest) := by
    unfold exponent?
    rcases rest with - | ⟨c, rest⟩
    · rfl
    · obtain ⟨-, -, lower, upper⟩ := stop c rfl
      simp [lower, upper]
  unfold readNumber
  split
  case h_1 tail same => exact absurd same (unsigned tail)
  case h_2 =>
    simp [whole, noFraction, noExponent]

/-! ### Values -/

/-- A tree whose texts are there and whose numbers are natural. -/
inductive Plain : Json → Prop
  | null : Plain .null
  | bool (b : Bool) : Plain (.bool b)
  | nat (n : Nat) : Plain (.nat n)
  | str (s : String) : Plain (.str s)
  | array {items : List Json} : (∀ j ∈ items, Plain j) → Plain (.array items)
  | object {members : List (Option String × Json)} :
      (∀ m ∈ members, m.1.isSome = true) → (∀ m ∈ members, Plain m.2) → Plain (.object members)

/-- The compact form is read as the tree, with any text behind it that ends a number. -/
def ReadsBack (j : Json) : Prop :=
  ∀ fuel rest, j.compact.length ≤ fuel → EndsNumber rest →
    readValue fuel (j.compact ++ rest) = some (j, rest)

theorem skip_cons {c : Char} (h : isSpace c = false) (s : List Char) : skip (c :: s) = c :: s :=
  List.dropWhile_cons_of_neg (by rw [h]; exact Bool.false_ne_true)

theorem isSpace_of_isDigit {c : Char} (h : c.isDigit = true) : isSpace c = false := by
  unfold isSpace
  simp only [Bool.or_eq_false_iff, beq_eq_false_iff_ne]
  refine ⟨⟨⟨?_, ?_⟩, ?_⟩, ?_⟩
  all_goals
    rintro rfl
    cases h

/-- A natural number is written with a digit in front. -/
theorem compact_nat (n : Nat) :
    (Json.nat n).compact = Nat.toDigits 10 n ∧
      ∃ d ds, Nat.toDigits 10 n = d :: ds ∧ d.isDigit = true := by
  refine ⟨Nat.toList_repr, ?_⟩
  obtain ⟨d, ds, e⟩ := List.exists_cons_of_ne_nil (Nat.toDigits_ne_nil (n := n) (b := 10))
  exact ⟨d, ds, e, isDigit_of_mem_toDigits (e ▸ List.mem_cons_self ..)⟩

/-- A value begins with a character that is no space and closes no array. -/
theorem Plain.compact_eq_cons {j : Json} (h : j.Plain) :
    ∃ c s, j.compact = c :: s ∧ isSpace c = false ∧ c ≠ ']' := by
  cases h with
  | null => exact ⟨'n', "ull".toList, rfl, rfl, by decide⟩
  | bool b =>
    cases b
    · exact ⟨'f', "alse".toList, rfl, rfl, by decide⟩
    · exact ⟨'t', "rue".toList, rfl, rfl, by decide⟩
  | nat n =>
    obtain ⟨written, d, ds, e, digit⟩ := compact_nat n
    refine ⟨d, ds, written.trans e, isSpace_of_isDigit digit, ?_⟩
    rintro rfl
    cases digit
  | str s => exact ⟨'"', _, rfl, rfl, by decide⟩
  | array _ => exact ⟨'[', _, rfl, rfl, by decide⟩
  | object _ _ => exact ⟨'\x7b', _, rfl, rfl, by decide⟩

/-- What begins with a digit is read as a number. -/
theorem readValue_digit {d : Char} (digit : d.isDigit = true) (fuel : Nat) (s : List Char) :
    readValue (fuel + 1) (d :: s) =
      (readNumber (d :: s)).map fun r => (.number r.1, r.2) := by
  unfold readValue
  rw [skip_cons (isSpace_of_isDigit digit)]
  split
  case h_8 => rfl
  case h_1 e => cases e
  -- no other value begins with a digit
  all_goals
    rename_i e
    obtain ⟨rfl, -⟩ := List.cons.inj e
    cases digit

/-! ### Arrays and objects -/

/-- Items that are read back one by one are read back as a list. -/
theorem readItems_compactItems {items : List Json} (ne : items ≠ [])
    (reads : ∀ j ∈ items, j.ReadsBack) {fuel : Nat} (room : (compactItems items).length < fuel)
    (rest : List Char) :
    readItems fuel (compactItems items ++ ']' :: rest) = some (items, rest) := by
  induction items generalizing fuel with
  | nil => exact absurd rfl ne
  | cons j js ih =>
    -- the fuel exceeds the text's length, which every item shortens by at least its comma
    obtain ⟨fuel, rfl⟩ := Nat.exists_eq_succ_of_ne_zero (Nat.ne_of_gt (Nat.zero_lt_of_lt room))
    obtain ⟨first, others⟩ := List.forall_mem_cons.1 reads
    rcases js with - | ⟨k, ks⟩
    · have read := first fuel (']' :: rest) (Nat.le_of_lt_succ room) (endsNumber_cons (by decide) _)
      show readItems (fuel + 1) (j.compact ++ ']' :: rest) = _
      rw [readItems, read]
      rfl
    · have written : compactItems (j :: k :: ks) = j.compact ++ ',' :: compactItems (k :: ks) := rfl
      rw [written, List.length_append, List.length_cons] at room
      have read := first fuel (',' :: (compactItems (k :: ks) ++ ']' :: rest)) (by omega)
        (endsNumber_cons (by decide) _)
      have left : (compactItems (k :: ks)).length < fuel := by omega
      have more := ih (List.cons_ne_nil k ks) others left
      rw [written, List.append_assoc, List.cons_append, readItems, read]
      show (readItems fuel _).map _ = _
      rw [more]
      rfl

/-- The key, the colon and the value of a member, with a comma or a brace behind them. -/
theorem readMembers_member {j : Json} (reads : j.ReadsBack) (k : String) {fuel : Nat}
    (room : j.compact.length ≤ fuel) (rest : List Char) :
    readMembers (fuel + 1) (quoteText (some k) ++ ':' :: (j.compact ++ '\x7d' :: rest)) =
        some ([(some k, j)], rest) ∧
      readMembers (fuel + 1) (quoteText (some k) ++ ':' :: (j.compact ++ ',' :: rest)) =
        (readMembers fuel rest).map fun r => ((some k, j) :: r.1, r.2) := by
  have closed := reads fuel ('\x7d' :: rest) room (endsNumber_cons (by decide) rest)
  have more := reads fuel (',' :: rest) room (endsNumber_cons (by decide) rest)
  rw [quoteText_append, quoteText_append]
  constructor
  · simp (disch := decide) only [readMembers, skip_cons, readText_quote, closed]
  · simp (disch := decide) only [readMembers, skip_cons, readText_quote, more]

/-- Members whose values are read back are read back as a whole. -/
theorem readMembers_compactMembers {members : List (Option String × Json)} (ne : members ≠ [])
    (keys : ∀ m ∈ members, m.1.isSome = true) (reads : ∀ m ∈ members, m.2.ReadsBack) {fuel : Nat}
    (room : (compactMembers members).length < fuel) (rest : List Char) :
    readMembers fuel (compactMembers members ++ '\x7d' :: rest) = some (members, rest) := by
  induction members generalizing fuel with
  | nil => exact absurd rfl ne
  | cons m ms ih =>
    obtain ⟨fuel, rfl⟩ := Nat.exists_eq_succ_of_ne_zero (Nat.ne_of_gt (Nat.zero_lt_of_lt room))
    obtain ⟨key, otherKeys⟩ := List.forall_mem_cons.1 keys
    obtain ⟨_ | k, j⟩ := m
    · cases key
    have others := (List.forall_mem_cons.1 reads).2
    have first : j.ReadsBack := (List.forall_mem_cons.1 reads).1
    rcases ms with - | ⟨n, ns⟩
    · have written : compactMembers [(some k, j)] = quoteText (some k) ++ ':' :: j.compact := rfl
      rw [written, List.length_append, List.length_cons] at room
      rw [written, List.append_assoc, List.cons_append,
        (readMembers_member first k (by omega) rest).1]
    · have written : compactMembers ((some k, j) :: n :: ns) =
          quoteText (some k) ++ ':' :: j.compact ++ ',' :: compactMembers (n :: ns) := rfl
      rw [written, List.length_append, List.length_append, List.length_cons,
        List.length_cons] at room
      have left : (compactMembers (n :: ns)).length < fuel := by omega
      have more := ih (List.cons_ne_nil n ns) otherKeys others left
      rw [written, List.append_assoc, List.append_assoc, List.cons_append, List.cons_append,
        (readMembers_member first k (by omega) _).2, more]
      rfl

/-- An array is read back if its items are. -/
theorem readValue_array {items : List Json} (plain : ∀ j ∈ items, j.Plain)
    (reads : ∀ j ∈ items, j.ReadsBack) (fuel : Nat) (rest : List Char)
    (room : (Json.array items).compact.length ≤ fuel + 1) :
    readValue (fuel + 1) ((Json.array items).compact ++ rest) = some (.array items, rest) := by
  have written : (Json.array items).compact ++ rest =
      '[' :: (compactItems items ++ ']' :: rest) := by
    simp [compact]
  rw [written]
  rcases items with - | ⟨j, js⟩
  · rfl
  · -- the first item is no closing bracket
    obtain ⟨c, s, e, space, bracket⟩ := (plain j (List.mem_cons_self ..)).compact_eq_cons
    have front : ∃ s', compactItems (j :: js) = c :: s' := by
      rcases js with - | ⟨k, ks⟩
      · exact ⟨s, e⟩
      · exact ⟨s ++ ',' :: compactItems (k :: ks), by rw [compactItems, e, List.cons_append]; nofun⟩
    obtain ⟨s', front⟩ := front
    have short : (compactItems (j :: js)).length < fuel := by
      simp only [compact, List.length_append, List.length_cons, List.length_nil] at room
      omega
    have items := readItems_compactItems (List.cons_ne_nil j js) reads short rest
    rw [front, List.cons_append] at items ⊢
    have opened (rest : List Char) : skip ('[' :: rest) = '[' :: rest := skip_cons (by decide) rest
    simp [readValue, opened, skip_cons space, bracket, items]

/-- An object is read back if its values are. -/
theorem readValue_object {members : List (Option String × Json)}
    (keys : ∀ m ∈ members, m.1.isSome = true) (reads : ∀ m ∈ members, m.2.ReadsBack) (fuel : Nat)
    (rest : List Char) (room : (Json.object members).compact.length ≤ fuel + 1) :
    readValue (fuel + 1) ((Json.object members).compact ++ rest) =
      some (.object members, rest) := by
  have written : (Json.object members).compact ++ rest =
      '\x7b' :: (compactMembers members ++ '\x7d' :: rest) := by
    simp [compact]
  rw [written]
  rcases members with - | ⟨⟨k, j⟩, ms⟩
  · rfl
  · -- the first member begins with the quote of its key
    have front : ∃ s, compactMembers ((k, j) :: ms) = '"' :: s := by
      rcases ms with - | ⟨n, ns⟩
      · exact ⟨_, rfl⟩
      · exact ⟨_, rfl⟩
    obtain ⟨s, front⟩ := front
    have short : (compactMembers ((k, j) :: ms)).length < fuel := by
      simp only [compact, List.length_append, List.length_cons, List.length_nil] at room
      omega
    have members := readMembers_compactMembers (List.cons_ne_nil _ ms) keys reads short rest
    rw [front, List.cons_append] at members ⊢
    show (readMembers fuel ('"' :: (s ++ '\x7d' :: rest))).map _ = _
    rw [members]
    rfl

/-! ### Whole documents -/

/-- No value is written with nothing, so there is fuel for a first step. -/
theorem Plain.readsBack_of_step {j : Json} (h : j.Plain)
    (step : ∀ fuel rest, j.compact.length ≤ fuel + 1 → EndsNumber rest →
      readValue (fuel + 1) (j.compact ++ rest) = some (j, rest)) : j.ReadsBack := by
  intro fuel rest room stop
  obtain ⟨c, s, front, -⟩ := h.compact_eq_cons
  rcases fuel with - | fuel
  · rw [front] at room
    cases room
  · exact step fuel rest room stop

/-- By induction on the value: every plain value is read back from its compact form. -/
theorem Plain.readsBack {j : Json} (h : j.Plain) : j.ReadsBack := by
  -- an item is read with a comma or a bracket behind it, and neither goes on with a number
  induction h with
  | null => exact Plain.null.readsBack_of_step fun _ _ _ _ => rfl
  | bool b => exact (Plain.bool b).readsBack_of_step fun _ _ _ _ => by cases b <;> rfl
  | nat n =>
    refine (Plain.nat n).readsBack_of_step fun fuel rest _ stop => ?_
    obtain ⟨written, d, ds, e, digit⟩ := compact_nat n
    have read := readNumber_toDigits n stop
    rw [written, e, List.cons_append, readValue_digit digit, ← List.cons_append, ← e, read,
      Option.map_some, ← written]
    rfl
  | str s =>
    refine (Plain.str s).readsBack_of_step fun fuel rest _ _ => ?_
    show readValue (fuel + 1) (quoteText (some s) ++ rest) = _
    rw [quoteText_append]
    show (readText (s.toList.flatMap encodeChar ++ '"' :: rest)).map _ = _
    rw [readText_quote]
    rfl
  | array plain ih =>
    exact (Plain.array plain).readsBack_of_step fun fuel rest room _ =>
      readValue_array plain ih fuel rest room
  | object keys plain ih =>
    exact (Plain.object keys plain).readsBack_of_step fun fuel rest room _ =>
      readValue_object keys ih fuel rest room

/-- The compact form of a tree is a document that holds the tree. -/
theorem read?_toCompact {j : Json} (h : j.Plain) : read? j.toCompact = some j := by
  have text : j.toCompact.toList = j.compact := String.toList_ofList
  have whole := h.readsBack (2 * j.compact.length + 2) [] (by omega) endsNumber_nil
  rw [List.append_nil] at whole
  unfold read?
  rw [text, whole]
  rfl

end RouteRegistry.Json

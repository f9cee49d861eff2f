/-
RouteRegistry/Proofs/Source/Concatenation.lean

String literals that are joined by `+`.

`Expr.operands` and `Expr.operators` are what binary operators join and what
joins them, from left to right; how the expression is nested and where it has
parentheses does not show in them.  If the operands are string literals and the
operators are `+`, the value is the string of all of them (`value_of_operands`),
and no other expression has a string for its value (`operands_of_value`).

All of this is said of expressions without comments in them, since a comment at
the beginning of a parenthesis is taken for what the parenthesis holds.

Main result (`Expr.value_joined`): an expression of string literals, `+` and
parentheses is one string.  With any other operand or operator in it, a binary
expression is its own source text.  Parentheses around an expression leave its
value as it is.
-/
import RouteRegistry.Source.Analysis

namespace RouteRegistry.Source

namespace Expr

/-! ### Operands and operators -/

/-- What the binary operators join; parentheses do not count. -/
def operands : Expr → List Expr
  | .paren _ inner _ => inner.operands
  | .binary left _ right => left.operands ++ right.operands
  | .string t => [.string t]
  | .null t => [.null t]
  | .classLiteral type dot word => [.classLiteral type dot word]
  | .array opening items closing => [.array opening items closing]
  | .annotated a => [.annotated a]
  | .other ts => [.other ts]

/-- The binary operators; parentheses do not count. -/
def operators : Expr → List (List Token)
  | .paren _ inner _ => inner.operators
  | .binary left operator right => left.operators ++ operator :: right.operators
  | .string _ | .null _ | .classLiteral .. | .array .. | .annotated _ | .other _ => []

/-- No comment stands between the tokens of the expression. -/
def CommentFree (e : Expr) : Prop := ∀ t ∈ e.tokens.tail, t.comment? = none

instance (e : Expr) : Decidable e.CommentFree :=
  inferInstanceAs (Decidable (∀ t ∈ e.tokens.tail, t.comment? = none))

/-! ### Parts without comments -/

section

variable {l r e : Expr} {op : List Token} {opening closing : Token}

theorem CommentFree.left (h : (Expr.binary l op r).CommentFree) : l.CommentFree := by
  intro t ht
  apply h t
  rw [Expr.tokens, List.append_assoc]
  rcases h : l.tokens with - | ⟨first, rest⟩
  · rw [h] at ht
    exact absurd ht List.not_mem_nil
  · rw [h] at ht
    exact List.mem_append_left _ ht

theorem CommentFree.right (h : (Expr.binary l op r).CommentFree) : r.CommentFree := by
  intro t ht
  apply h t
  rw [Expr.tokens]
  rcases l.tokens ++ op with - | ⟨first, rest⟩
  · exact ht
  · exact List.mem_append_right _ (List.mem_of_mem_tail ht)

theorem CommentFree.mem_inner (h : (Expr.paren opening e closing).CommentFree) {t : Token}
    (ht : t ∈ e.tokens) : t.comment? = none := by
  apply h t
  rw [Expr.tokens]
  exact List.mem_append_left _ ht

theorem CommentFree.inner (h : (Expr.paren opening e closing).CommentFree) :
    e.CommentFree :=
  fun _ ht => h.mem_inner (List.mem_of_mem_tail ht)

/-- A parenthesis without comments is not taken for one. -/
theorem CommentFree.commentBefore? (h : (Expr.paren opening e closing).CommentFree) :
    e.commentBefore? = none := by
  unfold Expr.commentBefore?
  rw [← head?_tokens, Option.bind_eq_none_iff]
  exact fun t ht => h.mem_inner (List.mem_of_mem_head? ht)

/-- Without comments, a parenthesis has the value of what it holds. -/
theorem value_paren (h : (Expr.paren opening e closing).CommentFree) :
    (Expr.paren opening e closing).value = e.value := by
  rw [Expr.value, h.commentBefore?]

/-- A binary expression whose operator is `+` and whose operands are strings is a string; any other
is its own text. -/
theorem value_binary (l : Expr) (op : List Token) (r : Expr) :
    (∃ a b, sourceText op = "+" ∧ l.value = .str a ∧ r.value = .str b ∧
      (Expr.binary l op r).value = .str (a ++ b)) ∨
    (Expr.binary l op r).value = .other (Expr.binary l op r).text := by
  rw [Expr.value]
  split
  case h_1 joined h =>
    split at h
    case isTrue plus =>
      unfold ElementValue.concat? at h
      split at h
      case h_1 a b hl hr =>
        obtain rfl := Option.some.inj h
        exact .inl ⟨a, b, plus, hl, hr, rfl⟩
      case h_2 => cases h
    case isFalse => cases h
  case h_2 => exact .inr rfl

end

/-! ### Strings and nothing else -/

/-- The string of all the literals, one after the other. -/
def joined (literals : List Token) : String :=
  String.ofList (literals.flatMap fun t => literalValue t.text.toList)

/-- Every operator of the expression is a plus sign. -/
def OnlyPlus (e : Expr) : Prop := ∀ operator ∈ e.operators, sourceText operator = "+"

instance (e : Expr) : Decidable e.OnlyPlus :=
  inferInstanceAs (Decidable (∀ operator ∈ e.operators, sourceText operator = "+"))

/-- By recursion on the expression: string literals that are joined by `+` alone are one string. -/
theorem value_of_operands : (e : Expr) → e.CommentFree → e.OnlyPlus → ∀ {literals : List Token},
    e.operands = literals.map Expr.string → e.value = .str (joined literals)
  | .string t, _, _, literals, h => by
    rw [operands] at h
    obtain ⟨u, rest, rfl, e, nil⟩ := List.map_eq_cons_iff.1 h.symm
    rw [List.map_eq_nil_iff.1 nil, ← Expr.string.inj e, Expr.value, joined,
      List.flatMap_singleton]
  | .paren opening inner closing, free, plus, literals, h => by
    rw [value_paren free]
    rw [operands] at h
    have plus' : inner.OnlyPlus := by rwa [OnlyPlus, operators] at plus
    exact value_of_operands inner free.inner plus' h
  -- the literals split where the operands do, and joining respects the split
  | .binary left operator right, free, plus, literals, h => by
    rw [operands] at h
    obtain ⟨ls, rs, rfl, hl, hr⟩ := List.map_eq_append_iff.1 h.symm
    rw [OnlyPlus, operators, List.forall_mem_append, List.forall_mem_cons] at plus
    obtain ⟨plusLeft, here, plusRight⟩ := plus
    have leftValue := value_of_operands left free.left plusLeft hl.symm
    have rightValue := value_of_operands right free.right plusRight hr.symm
    rw [Expr.value, if_pos here, leftValue, rightValue]
    show ElementValue.str (joined ls ++ joined rs) = _
    rw [joined, joined, joined, List.flatMap_append, String.ofList_append]
  | .null _, _, _, literals, h
  | .classLiteral .., _, _, literals, h
  | .array .., _, _, literals, h
  | .annotated _, _, _, literals, h
  | .other _, _, _, literals, h => by
    rw [operands] at h
    obtain ⟨u, rest, -, e, -⟩ := List.map_eq_cons_iff.1 h.symm
    cases e

/-- Only string literals that are joined by `+` have a string for their value. -/
theorem operands_of_value : (e : Expr) → e.CommentFree → ∀ {s : String}, e.value = .str s →
    e.OnlyPlus ∧ ∀ o ∈ e.operands, ∃ t, o = .string t
  | .string t, _, s, _ => by
    rw [OnlyPlus, operators, operands]
    exact ⟨nofun, fun o ho => ⟨t, List.mem_singleton.1 ho⟩⟩
  | .paren opening inner closing, free, s, h => by
    rw [value_paren free] at h
    rw [OnlyPlus, operators, operands]
    exact operands_of_value inner free.inner h
  -- a value that is a string was joined from two: an operator other than `+` leaves a text
  | .binary left operator right, free, s, h => by
    obtain ⟨a, b, plus, hl, hr, -⟩ | text := value_binary left operator right
    · obtain ⟨plusLeft, leftStrings⟩ := operands_of_value left free.left hl
      obtain ⟨plusRight, rightStrings⟩ := operands_of_value right free.right hr
      rw [OnlyPlus, operators, operands, List.forall_mem_append, List.forall_mem_append,
        List.forall_mem_cons]
      exact ⟨⟨plusLeft, plus, plusRight⟩, leftStrings, rightStrings⟩
    · rw [text] at h
      cases h
  | .null _, _, s, h
  | .classLiteral .., _, s, h
  | .array .., _, s, h
  | .annotated _, _, s, h
  | .other _, _, s, h => by
    rw [Expr.value] at h
    cases h

/-- Without comments, string literals that are joined by `+` have the value of all of them together,
however they are nested.  A binary expression with an operand that is no string literal, or with
another operator, has its source text for its value.  Parentheses change nothing. -/
theorem value_joined {e : Expr} (free : e.CommentFree) :
    (∀ literals : List Token, e.operands = literals.map Expr.string → e.OnlyPlus →
      e.value = .str (joined literals)) ∧
    (∀ left operator right, e = .binary left operator right →
      (∃ o ∈ e.operands, ∀ t, o ≠ .string t) ∨ (∃ op ∈ e.operators, sourceText op ≠ "+") →
      e.value = .other e.text) ∧
    ∀ opening closing, (Expr.paren opening e closing).CommentFree →
      (Expr.paren opening e closing).value = e.value := by
  refine ⟨fun literals h plus => value_of_operands e free plus h, ?_, fun _ _ => value_paren⟩
  rintro left operator right rfl mixed
  obtain ⟨a, b, -, -, -, string⟩ | text := value_binary left operator right
  · -- a string has no operands and operators but those
    obtain ⟨plus, strings⟩ := operands_of_value _ free string
    rcases mixed with ⟨o, ho, other⟩ | ⟨op, hop, other⟩
    · obtain ⟨t, rfl⟩ := strings o ho
      exact absurd rfl (other t)
    · exact absurd (plus op hop) other
  · exact text

/-- Two literals, the second of them a text block, joined in a parenthesis to a third. -/
def smallJoin (last : Expr) : Expr :=
  .binary
    (.paren ⟨[], "(", 1⟩
      (.binary (.string ⟨[], "\"\\uu0048o\"", 1⟩) [⟨[.blank " "], "+", 1⟩]
        (.string ⟨[.blank " "], "\"\"\"\n  me\"\"\"", 1⟩))
      ⟨[], ")", 2⟩)
    [⟨[.blank " "], "+", 2⟩] last

/-- The last operand makes the difference between a string and source text. -/
theorem value_smallJoin :
    let page : Expr := .string ⟨[.blank " "], "\"Page\"", 2⟩
    let one : Expr := .other [⟨[.blank " "], "1", 2⟩]
    ((smallJoin page).CommentFree ∧ (smallJoin page).value = .str "HomePage") ∧
    (smallJoin one).CommentFree ∧
      (smallJoin one).value = .other "(\"\\uu0048o\" + \"\"\"\n  me\"\"\") + 1" := by
  intro page one
  have free : (smallJoin page).CommentFree := by decide
  have freeOne : (smallJoin one).CommentFree := by decide
  have string := (value_joined free).1
    [⟨[], "\"\\uu0048o\"", 1⟩, ⟨[.blank " "], "\"\"\"\n  me\"\"\"", 1⟩,
      ⟨[.blank " "], "\"Page\"", 2⟩]
    rfl (by decide)
  -- the number is an operand and no string, so the sum is kept as text
  have last : one ∈ (smallJoin one).operands :=
    List.mem_append_right _ (List.mem_singleton_self one)
  have text := (value_joined freeOne).2.1 _ _ _ rfl (.inl ⟨one, last, nofun⟩)
  exact ⟨⟨free, string.trans (by decide +kernel)⟩, freeOne, text.trans (by decide +kernel)⟩

end Expr

end RouteRegistry.Source

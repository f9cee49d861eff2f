/-
RouteRegistry/Proofs/Source/WrittenTypes.lean

Comments inside a type that is written in the source.

A written type loses its white space and what stands between angle brackets.
This is one walk over the characters that counts the open brackets, so a text
can be cut anywhere as long as the count goes on (`depthAfter`,
`eraseArguments_append`).  In front of the tokens of a source there is nothing
but white space and comments (`lexed_tokens`).

Main result (`normalizeType_sourceText_iff`): comments without angle brackets of
their own are lost like the white space exactly if each of them stands where a
bracket is open.  A type without comments is read off its tokens alone
(`normalizeType_sourceText`).
-/
import Mathlib.Data.List.TakeWhile
import RouteRegistry.Source.Analysis

namespace RouteRegistry.Source

/-! ### Tokens of a source -/

/-- White space is blank, and a comment begins with a slash. -/
def Trivia.Lexed : Trivia → Prop
  | .blank text => text.toList.all isBlank = true
  | .comment text => text.toList.head? = some '/'

instance : (g : Trivia) → Decidable g.Lexed
  | .blank text => inferInstanceAs (Decidable (text.toList.all isBlank = true))
  | .comment text => inferInstanceAs (Decidable (text.toList.head? = some '/'))

/-- A token as it is found in a source: it has a text of its own, with white space and comments in
front of it. -/
structure Token.Lexed (t : Token) : Prop where
  text_ne : t.text ≠ ""
  gap : ∀ g ∈ t.gap, g.Lexed

instance (t : Token) : Decidable t.Lexed :=
  decidable_of_iff (t.text ≠ "" ∧ ∀ g ∈ t.gap, g.Lexed) ⟨fun h => ⟨h.1, h.2⟩, fun h => ⟨h.1, h.2⟩⟩

theorem head?_of_commentLength? {s : List Char} {n : Nat} (h : commentLength? s = some n) :
    s.head? = some '/' := by
  unfold commentLength? at h
  split at h
  · rfl
  · rfl
  · cases h

/-- A blank piece is no longer than the white space that the text begins with. -/
theorem all_isBlank_of_firstPiece {c : Char} {s : List Char}
    (h : (firstPiece (c :: s)).1 = .blank) :
    (c :: s.take ((firstPiece (c :: s)).2 - 1)).all isBlank = true := by
  unfold firstPiece at h ⊢
  dsimp only at h ⊢
  split at h
  case isTrue some_blank =>
    rw [if_pos some_blank]
    -- the piece is never empty, so its first character can be taken off
    have text : c :: s.take (((c :: s).takeWhile isBlank).length - 1) =
        (c :: s).takeWhile isBlank := by
      obtain ⟨n, hn⟩ := Nat.exists_eq_succ_of_ne_zero (Nat.ne_of_gt some_blank)
      have cut := (List.prefix_iff_eq_take.1 (List.takeWhile_prefix isBlank (l := c :: s))).symm
      rw [hn, List.take_succ_cons] at cut
      rw [hn]
      exact cut
    rw [text]
    exact List.all_eq_true.2 fun _ => List.mem_takeWhile_imp
  case isFalse =>
    split at h <;> cases h

/-- A comment begins with a slash. -/
theorem eq_slash_of_firstPiece {c : Char} {s : List Char}
    (h : (firstPiece (c :: s)).1 = .comment) : c = '/' := by
  unfold firstPiece at h
  dsimp only at h
  split at h
  case isTrue => cases h
  case isFalse =>
    split at h
    case h_1 n comment => exact Option.some.inj (head?_of_commentLength? comment)
    case h_2 => cases h

/-- By induction along the text: every token of a source is lexed. -/
theorem lexed_tokensFrom (line : Nat) (gap : List Trivia) (s : List Char)
    (h : ∀ g ∈ gap, g.Lexed) : ∀ t ∈ tokensFrom line gap s, t.Lexed := by
  -- one more piece of the gap
  have snoc {gap : List Trivia} {g : Trivia} (h : ∀ g ∈ gap, g.Lexed) (hg : g.Lexed) :
      ∀ g' ∈ gap ++ [g], g'.Lexed := by
    intro g' hg'
    rcases List.mem_append.1 hg' with hg' | hg'
    · exact h g' hg'
    · rwa [List.mem_singleton.1 hg']
  induction line, gap, s using tokensFrom.induct with
  | case1 line gap =>
    unfold tokensFrom
    exact fun t ht => absurd ht List.not_mem_nil
  | case2 line gap c s piece text rest next kind ih =>
    have blank : (Trivia.blank (String.ofList text)).Lexed := by
      show (String.ofList text).toList.all isBlank = true
      rw [String.toList_ofList]
      exact all_isBlank_of_firstPiece kind
    have kind : (firstPiece (c :: s)).1 = .blank := kind
    unfold tokensFrom
    simp only [kind]
    exact ih (snoc h blank)
  | case3 line gap c s piece text rest next kind ih =>
    have comment : (Trivia.comment (String.ofList text)).Lexed := by
      show (String.ofList text).toList.head? = some '/'
      rw [String.toList_ofList]
      exact congrArg some (eq_slash_of_firstPiece kind)
    have kind : (firstPiece (c :: s)).1 = .comment := kind
    unfold tokensFrom
    simp only [kind]
    exact ih (snoc h comment)
  | case4 line gap c s piece text rest next kind ih =>
    have here : (Token.mk gap (String.ofList text) line).Lexed := by
      refine ⟨fun none => ?_, h⟩
      have nil : text = [] := by
        rw [← String.toList_ofList (l := text)]
        exact congrArg String.toList none
      exact absurd nil (List.cons_ne_nil _ _)
    have kind : (firstPiece (c :: s)).1 = .token := kind
    unfold tokensFrom
    simp only [kind]
    intro t ht
    rcases List.mem_cons.1 ht with rfl | ht
    · exact here
    · exact ih (fun g hg => absurd hg List.not_mem_nil) t ht

/-- In front of the tokens of a source there are white space and comments only. -/
theorem lexed_tokens (source : String) : ∀ t ∈ tokens source, t.Lexed := by
  unfold tokens
  split <;> exact lexed_tokensFrom _ _ _ fun g hg => absurd hg List.not_mem_nil

/-! ### Comments in front of a token -/

namespace Token

/-- What stands in front of the token. -/
def gapText (t : Token) : List Char := t.gap.flatMap fun g => g.text.toList

/-- None of the comments in front of the token has an angle bracket in it. -/
def PlainComments (t : Token) : Prop :=
  ∀ text, .comment text ∈ t.gap → '<' ∉ text.toList ∧ '>' ∉ text.toList

theorem comment?_eq_none_iff {t : Token} :
    t.comment? = none ↔ ∀ text, .comment text ∉ t.gap := by
  unfold comment?
  rw [List.findSome?_eq_none_iff]
  constructor
  · intro h text hmem
    cases h _ hmem
  · intro h g hg
    cases g with
    | blank text => rfl
    | comment text => exact absurd hg (h text)

theorem plainComments_of_comment? {t : Token} (h : t.comment? = none) : t.PlainComments :=
  fun text hmem => absurd hmem (comment?_eq_none_iff.1 h text)

/-- No angle bracket stands between tokens, if there is none in the comments there. -/
theorem bracket_not_mem_gapText {t : Token} (lexed : t.Lexed) (plain : t.PlainComments) :
    '<' ∉ t.gapText ∧ '>' ∉ t.gapText := by
  have each : ∀ g ∈ t.gap, '<' ∉ g.text.toList ∧ '>' ∉ g.text.toList := by
    intro g hg
    cases g with
    | blank text =>
      have blank := List.all_eq_true.1 (lexed.gap _ hg)
      exact ⟨fun h => absurd (blank _ h) (by decide), fun h => absurd (blank _ h) (by decide)⟩
    | comment text => exact plain text hg
  unfold gapText
  simp only [List.mem_flatMap, not_exists, not_and]
  exact ⟨fun g hg => (each g hg).1, fun g hg => (each g hg).2⟩

/-- Only comments leave something when the white space is taken out. -/
theorem squeeze_gapText_eq_nil_iff {t : Token} (lexed : t.Lexed) :
    Text.squeeze t.gapText = [] ↔ t.comment? = none := by
  rw [comment?_eq_none_iff]
  unfold Text.squeeze gapText
  simp only [List.filter_eq_nil_iff, List.mem_flatMap, Bool.not_eq_true', Bool.not_eq_false]
  constructor
  · intro blank text hmem
    -- its first character is a slash
    have slash := List.mem_of_mem_head? (lexed.gap _ hmem)
    exact absurd (blank '/' ⟨_, hmem, slash⟩) (by decide)
  · rintro none c ⟨g, hg, hc⟩
    cases g with
    | blank text => exact List.all_eq_true.1 (lexed.gap _ hg) c hc
    | comment text => exact absurd hg (none text)

end Token

/-! ### Open brackets -/

/-- The number of angle brackets that are open behind the text, when `depth` are open before it. -/
def depthAfter (depth : Nat) : List Char → Nat
  | [] => depth
  | c :: s => depthAfter (if c = '<' then depth + 1 else if c = '>' then depth - 1 else depth) s

/-- Type arguments are erased from the left, with the depth carried along. -/
theorem eraseArguments_append (depth : Nat) (s s' : List Char) :
    eraseArguments depth (s ++ s') =
      eraseArguments depth s ++ eraseArguments (depthAfter depth s) s' := by
  induction s generalizing depth with
  | nil => rfl
  | cons c s ih =>
    rw [List.cons_append, eraseArguments, eraseArguments, depthAfter]
    split
    · exact ih _
    split
    · exact ih _
    split
    · rw [ih, List.cons_append]
    · exact ih _

section

variable {s : List Char} (opening : '<' ∉ s) (closing : '>' ∉ s)

include opening closing

theorem depthAfter_plain (depth : Nat) : depthAfter depth s = depth := by
  induction s with
  | nil => rfl
  | cons c s ih =>
    obtain ⟨ho, opening⟩ := not_or.1 (mt List.mem_cons.2 opening)
    obtain ⟨hc, closing⟩ := not_or.1 (mt List.mem_cons.2 closing)
    rw [depthAfter, if_neg (Ne.symm ho), if_neg (Ne.symm hc)]
    exact ih opening closing

/-- A text without brackets loses its white space, or everything. -/
theorem eraseArguments_plain (depth : Nat) :
    eraseArguments depth s = if depth = 0 then Text.squeeze s else [] := by
  induction s with
  | nil => split <;> rfl
  | cons c s ih =>
    obtain ⟨ho, opening⟩ := not_or.1 (mt List.mem_cons.2 opening)
    obtain ⟨hc, closing⟩ := not_or.1 (mt List.mem_cons.2 closing)
    rw [eraseArguments, if_neg (Ne.symm ho), if_neg (Ne.symm hc), ih opening closing]
    -- the number of open brackets stays what it is
    by_cases outside : depth = 0
    · by_cases shows : isBlank c = true
      · simp [outside, shows, Text.squeeze]
      · simp [outside, shows, Text.squeeze]
    · simp [outside]

end

/-! ### Types -/

/-- The tokens one after the other, with nothing between them. -/
def bareText (ts : List Token) : String := String.ofList (ts.flatMap fun t => t.text.toList)

/-- Each comment stands where an angle bracket is open. -/
def Enclosed (depth : Nat) : List Token → Prop
  | [] => True
  | t :: ts => (t.comment? = none ∨ 0 < depth) ∧ Enclosed (depthAfter depth t.text.toList) ts

theorem enclosed_of_comment? {ts : List Token} (h : ∀ t ∈ ts, t.comment? = none) (depth : Nat) :
    Enclosed depth ts := by
  induction ts generalizing depth with
  | nil => trivial
  | cons t ts ih =>
    exact ⟨.inl (h t (List.mem_cons_self ..)), ih (fun x hx => h x (List.mem_cons_of_mem t hx)) _⟩

/-- With comments nothing is lost that is left without them, and nothing more is left exactly if the
comments are enclosed. -/
theorem eraseArguments_full {ts : List Token} (lexed : ∀ t ∈ ts, t.Lexed)
    (plain : ∀ t ∈ ts, t.PlainComments) (depth : Nat) :
    (eraseArguments depth (ts.flatMap fun t => t.text.toList)).length ≤
      (eraseArguments depth (ts.flatMap Token.full)).length ∧
    (eraseArguments depth (ts.flatMap Token.full) =
        eraseArguments depth (ts.flatMap fun t => t.text.toList) ↔ Enclosed depth ts) := by
  induction ts generalizing depth with
  | nil => exact ⟨Nat.le_refl _, fun _ => trivial, fun _ => rfl⟩
  | cons t ts ih =>
    have here := lexed t (List.mem_cons_self ..)
    obtain ⟨opening, closing⟩ :=
      Token.bracket_not_mem_gapText here (plain t (List.mem_cons_self ..))
    obtain ⟨length, same⟩ := ih (fun x hx => lexed x (List.mem_cons_of_mem t hx))
      (fun x hx => plain x (List.mem_cons_of_mem t hx)) (depthAfter depth t.text.toList)
    have full : t.full = t.gapText ++ t.text.toList := rfl
    rw [List.flatMap_cons, List.flatMap_cons, full, List.append_assoc,
      eraseArguments_append depth t.gapText, eraseArguments_plain opening closing,
      depthAfter_plain opening closing, eraseArguments_append depth t.text.toList,
      eraseArguments_append depth t.text.toList, Enclosed]
    by_cases lost : t.comment? = none ∨ 0 < depth
    · have nothing : (if depth = 0 then Text.squeeze t.gapText else []) = [] := by
        split
        case isTrue outside =>
          have none := lost.resolve_right (Nat.not_lt.2 (Nat.le_of_eq outside))
          exact (Token.squeeze_gapText_eq_nil_iff here).2 none
        case isFalse => rfl
      rw [nothing, List.nil_append, List.append_cancel_left_eq, List.length_append,
        List.length_append, same]
      exact ⟨Nat.add_le_add_left length _, fun h => ⟨lost, h⟩, fun h => h.2⟩
    · -- the comment makes the text longer, for good
      obtain ⟨comment, outside⟩ := not_or.1 lost
      have some_comment := mt (Token.squeeze_gapText_eq_nil_iff here).1 comment
      have longer := List.length_pos_iff.2 some_comment
      rw [if_pos (Nat.eq_zero_of_not_pos outside)]
      refine ⟨?_, fun e => ?_, fun h => absurd h.1 lost⟩
      · simp only [List.length_append]
        omega
      · have e := congrArg List.length e
        simp only [List.length_append] at e
        omega

/-- Comments without angle brackets leave a written type as it is exactly if each of them stands
between the angle brackets of type arguments. -/
theorem normalizeType_sourceText_iff {first : Token} {rest : List Token}
    (lexed : ∀ t ∈ rest, t.Lexed) (plain : ∀ t ∈ rest, t.PlainComments) :
    normalizeType (sourceText (first :: rest)) = normalizeType (bareText (first :: rest)) ↔
      Enclosed (depthAfter 0 first.text.toList) rest := by
  unfold normalizeType sourceText bareText
  -- both begin with the first token, so the rest decides
  rw [String.toList_ofList, String.toList_ofList, List.flatMap_cons, eraseArguments_append,
    eraseArguments_append, String.ofList_inj, List.append_cancel_left_eq]
  exact (eraseArguments_full lexed plain _).2

/-- A type without comments is read off its tokens. -/
theorem normalizeType_sourceText {type : List Token} (lexed : ∀ t ∈ type, t.Lexed)
    (free : ∀ t ∈ type.tail, t.comment? = none) :
    normalizeType (sourceText type) = normalizeType (bareText type) := by
  cases type with
  | nil => rfl
  | cons first rest =>
    refine (normalizeType_sourceText_iff (fun t ht => lexed t (List.mem_cons_of_mem first ht))
      fun t ht => Token.plainComments_of_comment? (free t ht)).2 ?_
    exact enclosed_of_comment? free _

end RouteRegistry.Source

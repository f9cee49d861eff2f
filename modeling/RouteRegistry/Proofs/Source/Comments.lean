/-
RouteRegistry/Proofs/Source/Comments.lean

Comments between the tokens of an annotation.

Annotations that have the same tokens, whatever stands between them, are
containers of annotations that have the same tokens again, so they have the same
arguments (`Contributes.respaced`).  A comment gets into the value of an
argument in two places: at the beginning of a parenthesis it is taken for what
the parenthesis holds, and in a written type it is no white space.  An
expression is `Sheltered` if it has no comment there.

The values of an expression and of its mere tokens are compared.  In a sheltered
expression they are the same, or both are source text (`value_of_sheltered`); in
any other the value is source text or another type (`garbled_of_not_sheltered`).

Main result (`arguments_respaced`): comments leave the value of an argument as
it is, unless it is source text to begin with, exactly if they are sheltered.
-/
import Mathlib.Data.List.Forall2
import RouteRegistry.Proofs.Source.Concatenation
import RouteRegistry.Proofs.Source.Tokenwise
import RouteRegistry.Proofs.Source.WrittenTypes
import RouteRegistry.Source.Tree.Reader

namespace RouteRegistry.Source

/-! ### Mere tokens -/

/-- The token with nothing in front of it, on no line. -/
def Token.alone (t : Token) : Token := ⟨[], t.text, 0⟩

/-- Where nothing stands between tokens, their text is that of the tokens. -/
theorem sourceText_alone (ts : List Token) : sourceText (ts.map Token.alone) = bareText ts := by
  cases ts with
  | nil => rfl
  | cons t ts =>
    rw [List.map_cons, sourceText, bareText, List.flatMap_cons, List.flatMap_map]
    rfl

/-- Tokens that are written as a plus sign are that one token. -/
theorem sourceText_eq_plus_iff {ts : List Token} (h : ∀ t ∈ ts, t.text ≠ "") :
    sourceText ts = "+" ↔ ts.map Token.text = ["+"] := by
  match ts with
  | [] => decide
  | [t] =>
    rw [sourceText, List.flatMap_nil, List.append_nil, String.ofList_toList, List.map_singleton,
      List.singleton_inj]
  | t :: u :: ts =>
    have length {t : Token} (ht : t.text ≠ "") : 0 < t.text.toList.length := by
      rw [List.length_pos_iff]
      exact mt String.toList_eq_nil_iff.1 ht
    -- two tokens are at least two characters
    have first := length (h t (List.mem_cons_self ..))
    have second := length (h u (List.mem_cons_of_mem t (List.mem_cons_self ..)))
    constructor
    · intro e
      have e := congrArg (fun s => s.toList.length) e
      simp only [sourceText, Token.full, String.toList_ofList, List.length_append,
        List.flatMap_cons] at e
      have one : "+".toList.length = 1 := rfl
      omega
    · intro e
      cases (List.cons.inj e).2

namespace Expr

/-- The expression as its mere tokens. -/
def alone (e : Expr) : Expr := e.mapTokens Token.alone

theorem commentBefore?_alone (e : Expr) : e.alone.commentBefore? = none := by
  unfold commentBefore? alone
  rw [← head?_tokens, tokens_mapTokens, List.head?_map, Option.bind_map,
    Option.bind_eq_none_iff]
  exact fun _ _ => rfl

/-- Where nothing stands between tokens, a parenthesis has the value of what it holds. -/
theorem value_paren_alone (opening closing : Token) (e : Expr) :
    (Expr.paren opening e closing).alone.value = e.alone.value := by
  have none := e.commentBefore?_alone
  unfold alone at none ⊢
  rw [mapTokens, Expr.value, none]

/-! ### Parts of expressions -/

/-- All tokens of the expression could have come from a source. -/
def Lexed (e : Expr) : Prop := ∀ t ∈ e.tokens, t.Lexed

section

variable {l r e : Expr} {op : List Token} {opening closing : Token}

theorem Lexed.inner (h : (Expr.paren opening e closing).Lexed) : e.Lexed := by
  intro t ht
  apply h t
  rw [Expr.tokens]
  exact List.mem_append_left _ (List.mem_cons_of_mem opening ht)

theorem Lexed.left (h : (Expr.binary l op r).Lexed) : l.Lexed := by
  intro t ht
  apply h t
  rw [Expr.tokens, List.append_assoc]
  exact List.mem_append_left _ ht

theorem Lexed.operator (h : (Expr.binary l op r).Lexed) : ∀ t ∈ op, t.Lexed := by
  intro t ht
  apply h t
  rw [Expr.tokens, List.append_assoc]
  exact List.mem_append_right _ (List.mem_append_left _ ht)

theorem Lexed.right (h : (Expr.binary l op r).Lexed) : r.Lexed := by
  intro t ht
  apply h t
  rw [Expr.tokens]
  exact List.mem_append_right _ ht

/-- Whether an operator is a plus sign does not depend on what stands between its tokens. -/
theorem Lexed.plus_iff (h : (Expr.binary l op r).Lexed) :
    sourceText op = "+" ↔ sourceText (op.map Token.alone) = "+" := by
  have lexed := h.operator
  rw [sourceText_eq_plus_iff fun t ht => (lexed t ht).text_ne, sourceText_eq_plus_iff, List.map_map]
  · rfl
  · intro t ht
    obtain ⟨u, hu, rfl⟩ := List.mem_map.1 ht
    exact (lexed u hu).text_ne

end

end Expr

/-! ### Sheltered comments -/

/-- The values are the same, or both are source text. -/
def ElementValue.SameButText (v w : ElementValue) : Prop :=
  v = w ∨ (∃ s, v = .other s) ∧ ∃ s, w = .other s

theorem ElementValue.SameButText.str_iff {v w : ElementValue} (h : v.SameButText w) (a : String) :
    v = .str a ↔ w = .str a := by
  rcases h with rfl | ⟨⟨s, rfl⟩, s', rfl⟩
  · exact Iff.rfl
  · exact ⟨nofun, nofun⟩

/-- One of the values is source text, or they are different types. -/
def ElementValue.Garbled (v w : ElementValue) : Prop :=
  (∃ s, w = .other s) ∨ (∃ s, v = .other s) ∨
    ∃ name name', v = .classLiteral name ∧ w = .classLiteral name' ∧ name ≠ name'

/-- Where a string was meant, a garbled value is none. -/
theorem ElementValue.Garbled.ne_str {v w : ElementValue} {a : String} (h : v.Garbled w)
    (string : w = .str a) (b : String) : v ≠ .str b := by
  rintro rfl
  subst string
  obtain ⟨s, e⟩ | ⟨s, e⟩ | ⟨name, name', e, -⟩ := h
  all_goals cases e

/-- A garbled value is not what was meant, unless that is source text as well. -/
theorem ElementValue.Garbled.ne {v w : ElementValue} (h : v.Garbled w)
    (read : ∀ s, w ≠ .other s) : v ≠ w := by
  rintro rfl
  obtain ⟨s, text⟩ | ⟨s, text⟩ | ⟨name, name', e, e', other⟩ := h
  · exact read s text
  · exact read s text
  · exact other (ElementValue.classLiteral.inj (e.symm.trans e'))

namespace Expr

/-- No comment gets into the value: none stands at the beginning of a parenthesis, and types are the
same with their comments and without them. -/
def Sheltered : Expr → Prop
  | .paren _ inner _ => inner.commentBefore? = none ∧ inner.Sheltered
  | .binary left _ right => left.Sheltered ∧ right.Sheltered
  | .classLiteral type _ _ => normalizeType (sourceText type) = normalizeType (bareText type)
  | .string _ | .null _ | .array .. | .annotated _ | .other _ => True

/-- Comments without angle brackets of their own are sheltered in a type exactly if each of them
stands between the angle brackets of type arguments. -/
theorem sheltered_classLiteral_iff {first dot word : Token} {rest : List Token}
    (lexed : ∀ t ∈ rest, t.Lexed) (plain : ∀ t ∈ rest, t.PlainComments) :
    (Expr.classLiteral (first :: rest) dot word).Sheltered ↔
      Enclosed (depthAfter 0 first.text.toList) rest := by
  rw [Sheltered]
  exact normalizeType_sourceText_iff lexed plain

/-- Where there are no comments, none can get into a value. -/
theorem CommentFree.sheltered : {e : Expr} → e.Lexed → e.CommentFree → e.Sheltered
  | .paren opening inner closing, lexed, free => by
    rw [Sheltered]
    exact ⟨free.commentBefore?, free.inner.sheltered lexed.inner⟩
  | .binary left operator right, lexed, free => by
    rw [Sheltered]
    exact ⟨free.left.sheltered lexed.left, free.right.sheltered lexed.right⟩
  | .classLiteral type dot word, lexed, free => by
    have type_tokens : type.Sublist (Expr.classLiteral type dot word).tokens := by
      rw [Expr.tokens]
      exact List.sublist_append_left _ _
    rw [Sheltered]
    -- what stands in front of the first token is no part of the type
    apply normalizeType_sourceText
    · exact fun t ht => lexed t (type_tokens.mem ht)
    · exact fun t ht => free t (type_tokens.tail.mem ht)
  | .string _, _, _ | .null _, _, _ | .array .., _, _ | .annotated _, _, _ | .other _, _, _ => by
    rw [Sheltered]
    trivial

/-- Two strings that are joined are one. -/
theorem value_plus {l r : Expr} {op : List Token} {a b : String} (plus : sourceText op = "+")
    (hl : l.value = .str a) (hr : r.value = .str b) :
    (Expr.binary l op r).value = .str (a ++ b) := by
  rw [Expr.value, if_pos plus, hl, hr]
  rfl

/-- Operands whose values are the same, but for source text, make for such values. -/
theorem sameButText_binary {l l' r r' : Expr} {op op' : List Token}
    (left : l.value.SameButText l'.value) (plus : sourceText op = "+" ↔ sourceText op' = "+")
    (right : r.value.SameButText r'.value) :
    (Expr.binary l op r).value.SameButText (Expr.binary l' op' r').value := by
  -- a string on one side is a string on the other, so neither side can be a text alone
  obtain ⟨a, b, here, hl, hr, value⟩ | text := value_binary l op r
  · rw [value, value_plus (plus.1 here) ((left.str_iff a).1 hl) ((right.str_iff b).1 hr)]
    exact .inl rfl
  obtain ⟨a, b, here, hl, hr, value⟩ | text' := value_binary l' op' r'
  · have value := value_plus (plus.2 here) ((left.str_iff a).2 hl) ((right.str_iff b).2 hr)
    rw [text] at value
    cases value
  · exact .inr ⟨⟨_, text⟩, _, text'⟩

/-- Sheltered comments change nothing but source text. -/
theorem value_of_sheltered : {e : Expr} → e.Lexed → e.Sheltered →
    e.value.SameButText e.alone.value
  | .paren opening inner closing, lexed, h => by
    rw [Sheltered] at h
    rw [value_paren_alone, Expr.value, h.1]
    exact value_of_sheltered lexed.inner h.2
  | .binary left operator right, lexed, h => by
    rw [Sheltered] at h
    have leftValue := value_of_sheltered lexed.left h.1
    have rightValue := value_of_sheltered lexed.right h.2
    unfold alone at leftValue rightValue ⊢
    rw [mapTokens]
    exact sameButText_binary leftValue lexed.plus_iff rightValue
  -- the value is the type's own text, which is what `Sheltered` says the comments leave alone
  | .classLiteral type dot word, _, h => by
    rw [Sheltered] at h
    rw [alone, mapTokens, Expr.value, Expr.value, h, sourceText_alone]
    exact .inl rfl
  | .string _, _, _ | .null _, _, _ => by
    rw [alone, mapTokens, Expr.value, Expr.value]
    exact .inl rfl
  | .array .., _, _ | .annotated _, _, _ | .other _, _, _ => by
    rw [alone, mapTokens, Expr.value, Expr.value]
    exact .inr ⟨⟨_, rfl⟩, _, rfl⟩

/-- A comment that is not sheltered makes source text of a value, or another type. -/
theorem garbled_of_not_sheltered : {e : Expr} → ¬ e.Sheltered → e.value.Garbled e.alone.value
  | .paren opening inner closing, h => by
    rw [Sheltered, not_and] at h
    rw [value_paren_alone, Expr.value]
    split
    case h_1 comment _ => exact .inr (.inl ⟨comment, rfl⟩)
    case h_2 none => exact garbled_of_not_sheltered (h none)
  | .binary left operator right, h => by
    rw [Sheltered, not_and_or] at h
    obtain ⟨a, b, -, hl, hr, -⟩ | text :=
      value_binary left.alone (operator.map Token.alone) right.alone
    · -- the operands are strings without comments, and one of them is none with its comments
      obtain ⟨a', b', -, hl', hr', -⟩ | text := value_binary left operator right
      · rcases h with h | h
        · exact absurd hl' ((garbled_of_not_sheltered h).ne_str hl a')
        · exact absurd hr' ((garbled_of_not_sheltered h).ne_str hr b')
      · exact .inr (.inl ⟨_, text⟩)
    · unfold alone at text ⊢
      rw [mapTokens]
      exact .inl ⟨_, text⟩
  | .classLiteral type dot word, h => by
    rw [Sheltered] at h
    rw [alone, mapTokens, Expr.value, Expr.value, sourceText_alone]
    exact .inr (.inr ⟨_, _, rfl, rfl, h⟩)
  | .string _, h | .null _, h | .array .., h | .annotated _, h | .other _, h => by
    rw [Sheltered] at h
    exact absurd trivial h

/-- Between two ways to write an expression, the first of them without comments. -/
theorem value_eq_iff_sheltered {e e' : Expr} (same : e'.alone = e.alone) (lexed : e.Lexed)
    (lexed' : e'.Lexed) (free : e.CommentFree) (read : ∀ s, e.value ≠ .other s) :
    e'.value = e.value ↔ e'.Sheltered := by
  have here : e.value = e.alone.value :=
    (value_of_sheltered lexed (free.sheltered lexed)).resolve_right fun ⟨⟨s, text⟩, _⟩ =>
      read s text
  -- both are compared with their mere tokens, which are the same
  rw [here] at read ⊢
  rw [← same] at read ⊢
  constructor
  · intro h
    by_contra bare
    exact (garbled_of_not_sheltered bare).ne read h
  · intro h
    exact (value_of_sheltered lexed' h).resolve_right fun ⟨_, s, text⟩ => read s text

end Expr

/-! ### Arguments -/

/-- Lists that a function makes equal are related one by one, by what holds of their members. -/
theorem forall₂_of_map_eq {α β : Type} {f : α → β} {R : α → α → Prop} {xs ys : List α}
    (same : ys.map f = xs.map f) (h : ∀ x ∈ xs, ∀ y ∈ ys, f y = f x → R x y) :
    List.Forall₂ R xs ys := by
  induction xs generalizing ys with
  | nil =>
    rw [List.map_eq_nil_iff.1 same]
    exact .nil
  | cons x xs ih =>
    obtain ⟨y, ys, rfl, first, rest⟩ := List.map_eq_cons_iff.1 same
    refine .cons (h x (List.mem_cons_self ..) y (List.mem_cons_self ..) first) (ih rest ?_)
    exact fun x' hx y' hy => h x' (List.mem_cons_of_mem x hx) y' (List.mem_cons_of_mem y hy)

/-- The expression of an item with its key; a comma has none. -/
def Item.written? : Item → Option (Option String × Expr)
  | .value key e => some (key.head?.map Token.text, e)
  | .comma _ => none

namespace AnnotationNode

variable {a a' : AnnotationNode} {bs : List AnnotationNode}

/-- The arguments of the annotation as they are written, with their keys. -/
def arguments (a : AnnotationNode) : List (Option String × Expr) :=
  a.items.filterMap Item.written?

/-- The arguments with their values, as the model keeps them. -/
def readings (a : AnnotationNode) : List (Option String × ElementValue) :=
  a.arguments.map fun x => (x.1, x.2.value)

theorem args_used (a : AnnotationNode) : a.used.args = a.readings := by
  unfold readings arguments
  rw [List.map_filterMap]
  refine congrArg (List.filterMap · a.items) (funext fun item => ?_)
  cases item <;> rfl

theorem map_snd_arguments (a : AnnotationNode) : a.arguments.map Prod.snd = values a.items := by
  unfold arguments values
  rw [List.map_filterMap]
  refine congrArg (List.filterMap · a.items) (funext fun item => ?_)
  cases item <;> rfl

/-- Arguments are written behind the sign. -/
theorem tokens_sublist_of_mem_arguments {x : Option String × Expr} (h : x ∈ a.arguments) :
    x.2.tokens.Sublist a.tokens.tail := by
  have mem : x.2 ∈ values a.items := by
    rw [← map_snd_arguments]
    exact List.mem_map_of_mem h
  exact (sublist_flatMap_of_mem mem Expr.tokens).trans
    ((tokens_values_sublist a.items).trans a.itemTokens_sublist)

theorem filterMap_written?_alone (items : List Item) :
    (mapItemTokens Token.alone items).filterMap Item.written? =
      (items.filterMap Item.written?).map fun x => (x.1, x.2.alone) := by
  induction items with
  | nil => rw [mapItemTokens]; rfl
  | cons item items ih =>
    cases item with
    | comma t =>
      rw [mapItemTokens, List.filterMap_cons, List.filterMap_cons, ih]
      rfl
    | value key e =>
      have key' : (key.map Token.alone).head?.map Token.text = key.head?.map Token.text := by
        rw [List.head?_map, Option.map_map]
        rfl
      rw [mapItemTokens, List.filterMap_cons, List.filterMap_cons, ih, Item.written?, key']
      rfl

/-- The arguments are the same expressions without what stands between their tokens. -/
theorem arguments_alone (a : AnnotationNode) :
    (a.mapTokens Token.alone).arguments = a.arguments.map fun x => (x.1, x.2.alone) := by
  obtain ⟨sign, name, brackets, items⟩ := a
  rw [mapTokens]
  exact filterMap_written?_alone items

/-! ### Annotations without containers -/

/-- What is left of the annotation when all containers are unpacked. -/
def Contributes (a : AnnotationNode) (bs : List AnnotationNode) : Prop :=
  Relation.ReflTransGen Unpacks [a] bs ∧ Unpacked bs

/-- The arguments of what an annotation contributes are those of what is left of it. -/
theorem Contributes.args_leaves (h : a.Contributes bs) :
    a.leaves.map AnnotationUse.args = bs.map readings := by
  have leaves : a.leaves = bs.map used := by
    rw [← leaves_of_unpacked h.2, ← leaves_of_unpacks h.1, List.flatMap_singleton]
  rw [leaves, List.map_map]
  exact List.map_congr_left fun b _ => b.args_used

/-- The annotations have the same tokens, but for the lines; anything may stand between them. -/
def Respaced (a a' : AnnotationNode) : Prop :=
  a'.mapTokens Token.alone = a.mapTokens Token.alone

/-- Other things between the tokens leave the same annotations. -/
theorem Contributes.respaced (same : a.Respaced a') (h : a.Contributes bs) :
    ∃ bs', a'.Contributes bs' ∧
      bs'.map (mapTokens Token.alone) = bs.map (mapTokens Token.alone) := by
  have steps : Relation.ReflTransGen Unpacks ([a].map (mapTokens Token.alone))
      (bs.map (mapTokens Token.alone)) :=
    h.1.lift _ fun _ _ step => step.map
  have same : [a].map (mapTokens Token.alone) = [a'].map (mapTokens Token.alone) :=
    congrArg (fun b => [b]) same.symm
  rw [same] at steps
  -- the mere tokens are unpacked step by step, and each step is one of `a'` as well
  obtain ⟨bs', steps', e⟩ := exists_unpacks_of_mapTokens steps
  refine ⟨bs', ⟨steps', ?_⟩, e⟩
  rw [← unpacked_mapTokens_iff, e]
  exact unpacked_mapTokens_iff.2 h.2

/-- What is left has its tokens behind the sign from the annotation. -/
theorem Contributes.tail_sublist (h : a.Contributes bs) :
    ∀ b ∈ bs, b.tokens.tail.Sublist a.tokens.tail := by
  have steps := h.1
  clear h
  -- each unpacking replaces an annotation by others inside it
  induction steps with
  | refl =>
    intro b hb
    rw [List.mem_singleton.1 hb]
  | tail _ step ih =>
    obtain ⟨before, after, holds⟩ := step
    intro b hb
    rw [List.append_assoc, List.mem_append, List.mem_append] at hb
    rcases hb with hb | hb | hb
    · exact ih b (List.mem_append_left _ hb)
    · have inside := (List.tail_sublist b.tokens).trans (holds.tokens_sublist_of_mem hb)
      exact inside.trans (ih _ (List.mem_append_right _ (List.mem_cons_self ..)))
    · exact ih b (List.mem_append_right _ (List.mem_cons_of_mem _ hb))

/-- The arguments have the same keys, and a value that is no source text is the same just if the
comments in the second one are sheltered. -/
def ArgumentsKept (b b' : AnnotationNode) : Prop :=
  List.Forall₂ (fun x x' => x'.1 = x.1 ∧
    ((∀ s, x.2.value ≠ .other s) → (x'.2.value = x.2.value ↔ x'.2.Sheltered)))
    b.arguments b'.arguments

/-- An annotation that is respaced keeps its arguments, as far as comments do not get into them. -/
theorem argumentsKept {b b' : AnnotationNode}
    (same : b'.mapTokens Token.alone = b.mapTokens Token.alone)
    (lexed : ∀ t ∈ b.tokens.tail, t.Lexed) (lexed' : ∀ t ∈ b'.tokens.tail, t.Lexed)
    (free : ∀ t ∈ b.tokens.tail, t.comment? = none) : b.ArgumentsKept b' := by
  have arguments := congrArg AnnotationNode.arguments same
  rw [arguments_alone, arguments_alone] at arguments
  refine forall₂_of_map_eq arguments fun x hx x' hx' same => ?_
  obtain ⟨key, expr⟩ := Prod.mk.inj same
  have inside := tokens_sublist_of_mem_arguments hx
  have inside' := tokens_sublist_of_mem_arguments hx'
  refine ⟨key, Expr.value_eq_iff_sheltered expr ?_ ?_ ?_⟩
  · exact fun t ht => lexed t (inside.mem ht)
  · exact fun t ht => lexed' t (inside'.mem ht)
  · exact fun t ht => free t (inside.mem (List.mem_of_mem_tail ht))

/-- Write other things between the tokens of an annotation without comments.  The annotations that
it contributes stay, and so do their arguments in number and order, with their keys.  A value that
is no source text is kept exactly if none of the comments gets into it; in a type, a comment without
angle brackets gets into it unless it stands between angle brackets.  Tokens of any source are
`Lexed`, as `lexed_tokens` says. -/
theorem arguments_respaced (same : a.Respaced a') (lexed : ∀ t ∈ a.tokens, t.Lexed)
    (lexed' : ∀ t ∈ a'.tokens, t.Lexed) (free : (Expr.annotated a).CommentFree) :
    (∃ bs, a.Contributes bs) ∧
    (∀ bs, a.Contributes bs → ∃ bs', a'.Contributes bs' ∧
      a.leaves.map AnnotationUse.args = bs.map readings ∧
      a'.leaves.map AnnotationUse.args = bs'.map readings ∧
      List.Forall₂ ArgumentsKept bs bs') ∧
    ∀ first rest dot word, (∀ t ∈ rest, t.Lexed) → (∀ t ∈ rest, t.PlainComments) →
      ((Expr.classLiteral (first :: rest) dot word).Sheltered ↔
        Enclosed (depthAfter 0 first.text.toList) rest) := by
  rw [Expr.CommentFree, Expr.tokens] at free
  refine ⟨exists_unpacked [a], fun bs h => ?_,
    fun _ _ _ _ => Expr.sheltered_classLiteral_iff⟩
  obtain ⟨bs', h', e⟩ := h.respaced same
  refine ⟨bs', h', h.args_leaves, h'.args_leaves, ?_⟩
  -- what the two unpackings come to is the same list of annotations without their comments
  refine forall₂_of_map_eq e fun b hb b' hb' here => ?_
  have inside := h.tail_sublist b hb
  have inside' := h'.tail_sublist b' hb'
  apply argumentsKept here
  · exact fun t ht => lexed t (List.mem_of_mem_tail (inside.mem ht))
  · exact fun t ht => lexed' t (List.mem_of_mem_tail (inside'.mem ht))
  · exact fun t ht => free t (inside.mem ht)

/-- A container of one annotation, with `gap n` in front of its token number `n`. -/
def routeListing (gap : Nat → List Trivia) : AnnotationNode :=
  let token (n : Nat) (text : String) : Token := ⟨gap n, text, 1⟩
  let pages : Expr :=
    .paren (token 9 "(")
      (.binary (.string (token 10 "\"Home\"")) [token 11 "+"] (.string (token 12 "\"Page\"")))
      (token 13 ")")
  let target : Expr :=
    .classLiteral [token 17 "app", token 18 ".", token 19 "Home"] (token 20 ".") (token 21 "class")
  let route : AnnotationNode :=
    .mk (token 5 "@") [token 6 "Route"] (some (token 7 "(", token 22 ")"))
      [.value [] pages, .comma (token 14 ","), .value [token 15 "target", token 16 "="] target]
  .mk (token 0 "@") [token 1 "Routes"] (some (token 2 "(", token 25 ")"))
    [.value [] (.array (token 3 "\x7b") [.value [] (.annotated route), .comma (token 23 ",")]
      (token 24 "\x7d"))]

/-- A container of one annotation, in which a comment stands in front of every token. -/
theorem arguments_respaced_listing :
    let bare := routeListing fun _ => []
    let full := routeListing fun _ => [.blank " ", .comment "/* < */", .blank "\n"]
    bare.Respaced full ∧ (∀ t ∈ bare.tokens, t.Lexed) ∧ (∀ t ∈ full.tokens, t.Lexed) ∧
      (Expr.annotated bare).CommentFree ∧ (∃ bs, bare.Contributes bs) ∧
      ∀ bs, bare.Contributes bs → ∃ bs', full.Contributes bs' ∧
        bare.leaves.map AnnotationUse.args = bs.map readings ∧
        full.leaves.map AnnotationUse.args = bs'.map readings ∧
        List.Forall₂ ArgumentsKept bs bs' := by
  intro bare full
  have same : bare.Respaced full := rfl
  have lexed : ∀ t ∈ bare.tokens, t.Lexed := by decide
  have lexed' : ∀ t ∈ full.tokens, t.Lexed := by decide
  have free : (Expr.annotated bare).CommentFree := by decide
  obtain ⟨some_left, kept, -⟩ := arguments_respaced same lexed lexed' free
  exact ⟨same, lexed, lexed', free, some_left, kept⟩

/-- A comment that is taken for a parenthesis, and one that becomes a part of a type. -/
theorem arguments_small_garbled :
    let arguments (written : String) : List (Option String × ElementValue) :=
      (FileModel.read ⟨"T.java"⟩ (written ++ "\nclass T \x7b\n\x7d\n")).types.flatMap fun t =>
        t.annotations.flatMap (·.args)
    arguments "@A(value = (\"Home\"), target = app.Home.class)" =
        [(some "value", .str "Home"), (some "target", .classLiteral "app.Home")] ∧
      arguments "@A(value = (/* a */ \"Home\"), target = app./* b */Home.class)" =
        [(some "value", .other "/* a */"), (some "target", .classLiteral "app./*b*/Home")] := by
  decide +kernel

end AnnotationNode

end RouteRegistry.Source

/-
RouteRegistry/Proofs/Source/Lines.lean

Source trees without the lines of their tokens.

A line is kept of an annotation and of a type, and nowhere else does a tree's
meaning depend on it: values of expressions are the same without lines
(`Expr.value_unlined`), and what an annotation contributes is the same but for
the lines (`AnnotationNode.leaves_unlined`).  So annotations with the same names
and items, on whatever lines, contribute the same (`AnnotationNode.Alike.leaves`).
-/
import RouteRegistry.Proofs.Source.Tokenwise

namespace RouteRegistry.Source

/-! ### Tokens -/

/-- The token without its line. -/
def Token.unlined (t : Token) : Token := { t with line := 0 }

/-- The source text does not depend on lines. -/
theorem sourceText_unlined (ts : List Token) :
    sourceText (ts.map Token.unlined) = sourceText ts := by
  cases ts with
  | nil => rfl
  | cons t ts =>
    rw [List.map_cons, sourceText, sourceText, List.flatMap_map]
    rfl

/-! ### Expressions and annotations -/

mutual

/-- The expression without the lines of its tokens. -/
def Expr.unlined : Expr → Expr
  | .string t => .string t.unlined
  | .null t => .null t.unlined
  | .classLiteral type dot word =>
    .classLiteral (type.map Token.unlined) dot.unlined word.unlined
  | .paren opening inner closing => .paren opening.unlined inner.unlined closing.unlined
  | .binary left operator right =>
    .binary left.unlined (operator.map Token.unlined) right.unlined
  | .array opening items closing => .array opening.unlined (unlinedItems items) closing.unlined
  | .annotated a => .annotated a.unlined
  | .other ts => .other (ts.map Token.unlined)

/-- The items without the lines of their tokens. -/
def unlinedItems : List Item → List Item
  | [] => []
  | .value key e :: is => .value (key.map Token.unlined) e.unlined :: unlinedItems is
  | .comma t :: is => .comma t.unlined :: unlinedItems is

/-- The annotation without the lines of its tokens. -/
def AnnotationNode.unlined : AnnotationNode → AnnotationNode
  | .mk sign name brackets items =>
    .mk sign.unlined (name.map Token.unlined)
      (brackets.map fun b => (b.1.unlined, b.2.unlined)) (unlinedItems items)

end

mutual

/-- To take the lines away is a change of each token by itself. -/
theorem Expr.unlined_eq : (e : Expr) → e.unlined = e.mapTokens Token.unlined
  | .string _ | .null _ | .classLiteral .. | .other _ => by rw [Expr.unlined, Expr.mapTokens]
  | .paren opening inner closing => by rw [Expr.unlined, Expr.mapTokens, inner.unlined_eq]
  | .binary left operator right => by
    rw [Expr.unlined, Expr.mapTokens, left.unlined_eq, right.unlined_eq]
  | .array opening items closing => by
    rw [Expr.unlined, Expr.mapTokens, unlinedItems_eq items]
  | .annotated a => by rw [Expr.unlined, Expr.mapTokens, a.unlined_eq]

theorem unlinedItems_eq : (is : List Item) → unlinedItems is = mapItemTokens Token.unlined is
  | [] => by rw [unlinedItems, mapItemTokens]
  | .value key e :: is => by
    rw [unlinedItems, mapItemTokens, e.unlined_eq, unlinedItems_eq is]
  | .comma t :: is => by rw [unlinedItems, mapItemTokens, unlinedItems_eq is]

theorem AnnotationNode.unlined_eq :
    (a : AnnotationNode) → a.unlined = a.mapTokens Token.unlined
  | .mk sign name brackets items => by
    rw [AnnotationNode.unlined, AnnotationNode.mapTokens, unlinedItems_eq items]

end

/-! ### Values -/

namespace Expr

theorem text_unlined (e : Expr) : e.unlined.text = e.text := by
  rw [text, text, unlined_eq, tokens_mapTokens, sourceText_unlined]

theorem commentBefore?_unlined (e : Expr) : e.unlined.commentBefore? = e.commentBefore? := by
  unfold commentBefore?
  rw [← head?_tokens, ← head?_tokens, unlined_eq, tokens_mapTokens, List.head?_map,
    Option.bind_map]
  rfl

/-- By recursion on the expression: no value depends on lines. -/
theorem value_unlined : (e : Expr) → e.unlined.value = e.value
  | .string t => by rw [Expr.unlined, Expr.value, Expr.value]; rfl
  | .null _ => by rw [Expr.unlined, Expr.value, Expr.value]
  | .classLiteral type dot word => by
    rw [Expr.unlined, Expr.value, Expr.value, sourceText_unlined]
  | .paren opening inner closing => by
    rw [Expr.unlined, Expr.value, Expr.value, inner.commentBefore?_unlined, inner.value_unlined]
  | .binary left operator right => by
    have same := (Expr.binary left operator right).text_unlined
    rw [Expr.unlined] at same ⊢
    rw [Expr.value, Expr.value, sourceText_unlined, left.value_unlined, right.value_unlined, same]
  | .array opening items closing => by
    have same := (Expr.array opening items closing).text_unlined
    rw [Expr.unlined] at same ⊢
    rw [Expr.value, Expr.value, same]
  | .annotated a => by
    have same := (Expr.annotated a).text_unlined
    rw [Expr.unlined] at same ⊢
    rw [Expr.value, Expr.value, same]
  | .other ts => by rw [Expr.unlined, Expr.value, Expr.value, sourceText_unlined]

end Expr

theorem arguments_unlined (items : List Item) :
    (unlinedItems items).filterMap Item.argument? = items.filterMap Item.argument? := by
  induction items with
  | nil => rw [unlinedItems]
  | cons item items ih =>
    cases item with
    | value key e =>
      have key' : (key.map Token.unlined).head?.map Token.text = key.head?.map Token.text := by
        rw [List.head?_map, Option.map_map]
        rfl
      have same : (Item.value (key.map Token.unlined) e.unlined).argument? =
          (Item.value key e).argument? := by
        rw [Item.argument?, Item.argument?, e.value_unlined, key']
      rw [unlinedItems, List.filterMap_cons, List.filterMap_cons, same, ih]
    | comma t => rw [unlinedItems, List.filterMap_cons, List.filterMap_cons, ih]; rfl

/-! ### Contributions -/

/-- The annotation without its line. -/
def AnnotationUse.unlined (u : AnnotationUse) : AnnotationUse := { u with line := 0 }

namespace AnnotationNode

variable {a b : AnnotationNode}

theorem used_unlined (a : AnnotationNode) : a.unlined.used = a.used.unlined := by
  obtain ⟨sign, name, brackets, items⟩ := a
  rw [unlined, used, used, AnnotationUse.unlined]
  show AnnotationUse.mk (String.ofList (Text.squeeze (sourceText (name.map Token.unlined)).toList))
    ((unlinedItems items).filterMap Item.argument?) 0 = _
  rw [sourceText_unlined, arguments_unlined]
  rfl

/-- An annotation contributes the same without lines, but for the lines. -/
theorem leaves_unlined (a : AnnotationNode) :
    a.unlined.leaves = a.leaves.map AnnotationUse.unlined := by
  -- lines decide nothing about what an annotation holds, so both unpack alike
  induction a using holds_induction with
  | single a h =>
    have single : ∀ elements, ¬ a.unlined.Holds elements := by
      intro elements holds
      rw [unlined_eq] at holds
      obtain ⟨original, holds, -⟩ := holds_mapTokens_iff.1 holds
      exact h original holds
    rw [leaves_of_not_holds h, leaves_of_not_holds single, used_unlined]
    rfl
  | container a elements holds ih =>
    have mapped : a.unlined.Holds (elements.map unlined) := by
      rw [unlined_eq, funext unlined_eq]
      exact holds.mapTokens
    rw [holds.leaves_eq, mapped.leaves_eq, List.flatMap_map, List.map_flatMap]
    exact List.flatMap_congr ih

/-- The annotations have the same name and the same items, whatever lines they are on and wherever
their signs stand. -/
structure Alike (a b : AnnotationNode) : Prop where
  name : b.name.map Token.unlined = a.name.map Token.unlined
  items : unlinedItems b.items = unlinedItems a.items

/-- Annotations that differ in lines only contribute the same, but for the lines. -/
theorem Alike.leaves (h : a.Alike b) :
    b.leaves.map AnnotationUse.unlined = a.leaves.map AnnotationUse.unlined := by
  obtain ⟨sign, name, brackets, items⟩ := a
  obtain ⟨sign', name', brackets', items'⟩ := b
  obtain ⟨names, same⟩ := h
  have names : name'.map Token.unlined = name.map Token.unlined := names
  have same : unlinedItems items' = unlinedItems items := same
  rw [← leaves_unlined, ← leaves_unlined, leaves_eq, leaves_eq, unlined, unlined, names, same]
  rfl

end AnnotationNode

end RouteRegistry.Source

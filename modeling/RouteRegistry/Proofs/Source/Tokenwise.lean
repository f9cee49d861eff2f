/-
RouteRegistry/Proofs/Source/Tokenwise.lean

Source trees whose tokens are replaced one by one.

`Expr.mapTokens f` has `f t` wherever the tree has the token `t`, and the shape
of the tree.  Whether an annotation is a container is a question of shape: the
containers are the same ones with other tokens (`holds_mapTokens_iff`), and so
they are unpacked in the same way (`Unpacks.exists_of_mapTokens`).
-/
import RouteRegistry.Proofs.Source.Containers

namespace RouteRegistry.Source

variable (f : Token → Token)

/-! ### Expressions and annotations -/

mutual

/-- The expression with each of its tokens changed by `f`. -/
def Expr.mapTokens : Expr → Expr
  | .string t => .string (f t)
  | .null t => .null (f t)
  | .classLiteral type dot word => .classLiteral (type.map f) (f dot) (f word)
  | .paren opening inner closing => .paren (f opening) inner.mapTokens (f closing)
  | .binary left operator right => .binary left.mapTokens (operator.map f) right.mapTokens
  | .array opening items closing => .array (f opening) (mapItemTokens items) (f closing)
  | .annotated a => .annotated a.mapTokens
  | .other ts => .other (ts.map f)

/-- The items with each of their tokens changed by `f`. -/
def mapItemTokens : List Item → List Item
  | [] => []
  | .value key e :: is => .value (key.map f) e.mapTokens :: mapItemTokens is
  | .comma t :: is => .comma (f t) :: mapItemTokens is

/-- The annotation with each of its tokens changed by `f`. -/
def AnnotationNode.mapTokens : AnnotationNode → AnnotationNode
  | .mk sign name brackets items =>
    .mk (f sign) (name.map f) (brackets.map fun b => (f b.1, f b.2)) (mapItemTokens items)

end

mutual

/-- By recursion on the expression: its tokens are the changed ones, in the same order. -/
theorem Expr.tokens_mapTokens : (e : Expr) → (e.mapTokens f).tokens = e.tokens.map f
  | .string _ | .null _ => by rw [Expr.mapTokens, Expr.tokens, Expr.tokens]; rfl
  | .other _ => by rw [Expr.mapTokens, Expr.tokens, Expr.tokens]
  | .classLiteral type dot word => by
    rw [Expr.mapTokens, Expr.tokens, Expr.tokens, List.map_append]
    rfl
  | .paren opening inner closing => by
    rw [Expr.mapTokens, Expr.tokens, Expr.tokens, inner.tokens_mapTokens, List.map_append,
      List.map_cons]
    rfl
  | .binary left operator right => by
    rw [Expr.mapTokens, Expr.tokens, Expr.tokens, left.tokens_mapTokens, right.tokens_mapTokens,
      List.map_append, List.map_append]
  | .array opening items closing => by
    rw [Expr.mapTokens, Expr.tokens, Expr.tokens, itemTokens_mapItemTokens, List.map_append,
      List.map_cons]
    rfl
  | .annotated a => by rw [Expr.mapTokens, Expr.tokens, Expr.tokens, a.tokens_mapTokens]

theorem itemTokens_mapItemTokens : (is : List Item) →
    itemTokens (mapItemTokens f is) = (itemTokens is).map f
  | [] => by rw [mapItemTokens, itemTokens]; rfl
  | .value key e :: is => by
    rw [mapItemTokens, itemTokens, itemTokens, Item.tokens, Item.tokens, e.tokens_mapTokens,
      itemTokens_mapItemTokens is, List.map_append, List.map_append]
  | .comma t :: is => by
    rw [mapItemTokens, itemTokens, itemTokens, Item.tokens, Item.tokens,
      itemTokens_mapItemTokens is]
    rfl

theorem AnnotationNode.tokens_mapTokens :
    (a : AnnotationNode) → (a.mapTokens f).tokens = a.tokens.map f
  | .mk sign name none items => by
    rw [AnnotationNode.mapTokens, Option.map_none, AnnotationNode.tokens, AnnotationNode.tokens,
      itemTokens_mapItemTokens items, List.map_append, List.map_cons]
  | .mk sign name (some (opening, closing)) items => by
    rw [AnnotationNode.mapTokens, Option.map_some, AnnotationNode.tokens, AnnotationNode.tokens,
      itemTokens_mapItemTokens items]
    simp only [List.map_append, List.map_cons, List.map_nil]

end

/-! ### Values of items -/

theorem values_mapItemTokens (items : List Item) :
    values (mapItemTokens f items) = (values items).map (Expr.mapTokens f) := by
  induction items with
  | nil => rw [mapItemTokens]; rfl
  | cons item items ih =>
    cases item with
    | value key e => rw [mapItemTokens, values_value, values_value, ih, List.map_cons]
    | comma t => rw [mapItemTokens, values_comma, values_comma, ih]

namespace AnnotationNode

theorem values_items_mapTokens (a : AnnotationNode) :
    values (a.mapTokens f).items = (values a.items).map (Expr.mapTokens f) := by
  obtain ⟨sign, name, brackets, items⟩ := a
  rw [mapTokens]
  exact values_mapItemTokens f items

theorem map_annotated_mapTokens (elements : List AnnotationNode) :
    (elements.map Expr.annotated).map (Expr.mapTokens f) =
      (elements.map (mapTokens f)).map Expr.annotated := by
  have one (e : AnnotationNode) : (Expr.annotated e).mapTokens f = .annotated (e.mapTokens f) := by
    rw [Expr.mapTokens]
  rw [List.map_map, List.map_map]
  exact List.map_congr_left fun e _ => one e

/-! ### Containers -/

variable {f} {a : AnnotationNode} {elements : List AnnotationNode}

/-- Expressions that become annotations are annotations. -/
theorem exists_of_mapTokens_annotated {es : List Expr}
    (h : es.map (Expr.mapTokens f) = elements.map .annotated) :
    ∃ original : List AnnotationNode, es = original.map .annotated ∧
      original.map (mapTokens f) = elements := by
  induction es generalizing elements with
  | nil => exact ⟨[], rfl, (List.map_eq_nil_iff.1 h.symm).symm⟩
  | cons e es ih =>
    obtain ⟨b, elements, rfl, here, rest⟩ := List.map_eq_cons_iff.1 h.symm
    obtain ⟨original, rfl, rfl⟩ := ih rest.symm
    -- changing tokens keeps the constructor, so only annotations come from annotations
    cases e with
    | annotated a =>
      rw [Expr.mapTokens] at here
      obtain rfl := Expr.annotated.inj here
      exact ⟨a :: original, rfl, rfl⟩
    | string | null | classLiteral | paren | binary | array | other =>
      rw [Expr.mapTokens] at here
      cases here

/-- A container stays one, whatever becomes of its tokens. -/
theorem Holds.mapTokens (h : a.Holds elements) :
    (a.mapTokens f).Holds (elements.map (mapTokens f)) := by
  obtain ⟨opening, items, closing, only, same⟩ := h.array
  refine ⟨fun none => h.ne_nil (List.map_eq_nil_iff.1 none), f opening, mapItemTokens f items,
    f closing, ?_, ?_⟩
  · rw [values_items_mapTokens, only, List.map_singleton, Expr.mapTokens]
  · rw [values_mapItemTokens, same, map_annotated_mapTokens]

/-- A change of tokens makes no container. -/
theorem holds_mapTokens_iff :
    (a.mapTokens f).Holds elements ↔
      ∃ original, a.Holds original ∧ original.map (AnnotationNode.mapTokens f) = elements := by
  constructor
  · rintro ⟨some_element, opening, items, closing, only, same⟩
    rw [values_items_mapTokens] at only
    -- only an array becomes an array, and only annotations become annotations
    obtain ⟨e, value, array⟩ := List.map_eq_singleton_iff.1 only
    cases e with
    | array opening' items' closing' =>
      rw [Expr.mapTokens] at array
      obtain ⟨-, rfl, -⟩ := Expr.array.inj array
      rw [values_mapItemTokens] at same
      obtain ⟨original, split, rfl⟩ := exists_of_mapTokens_annotated same
      refine ⟨original, ⟨?_, opening', items', closing', value, split⟩, rfl⟩
      exact fun none => some_element (List.map_eq_nil_iff.2 none)
    | string | null | classLiteral | paren | binary | annotated | other =>
      rw [Expr.mapTokens] at array
      cases array
  · rintro ⟨original, h, rfl⟩
    exact h.mapTokens

end AnnotationNode

/-! ### Unpacking -/

variable {f} {as bs : List AnnotationNode}

open AnnotationNode

/-- A step of unpacking can be taken after the change as well. -/
theorem Unpacks.map (h : Unpacks as bs) :
    Unpacks (as.map (mapTokens f)) (bs.map (mapTokens f)) := by
  obtain ⟨before, after, holds⟩ := h
  rw [List.map_append, List.map_cons, List.map_append, List.map_append]
  exact .mk _ _ holds.mapTokens

/-- A step that can be taken after the change could be taken before it. -/
theorem Unpacks.exists_of_mapTokens (h : Unpacks (as.map (mapTokens f)) bs) :
    ∃ original, Unpacks as original ∧ original.map (mapTokens f) = bs := by
  generalize e : as.map (mapTokens f) = mapped at h
  obtain ⟨before, after, holds⟩ := h
  obtain ⟨before, rest, rfl, rfl, split⟩ := List.map_eq_append_iff.1 e
  obtain ⟨a, after, rfl, rfl, rfl⟩ := List.map_eq_cons_iff.1 split
  obtain ⟨elements, held, rfl⟩ := holds_mapTokens_iff.1 holds
  exact ⟨_, .mk before after held, by rw [List.map_append, List.map_append]⟩

theorem unpacked_mapTokens_iff : Unpacked (as.map (mapTokens f)) ↔ Unpacked as := by
  constructor
  · intro h a ha elements holds
    exact h _ (List.mem_map_of_mem ha) _ holds.mapTokens
  · intro h b hb elements holds
    obtain ⟨a, ha, rfl⟩ := List.mem_map.1 hb
    obtain ⟨original, holds, -⟩ := holds_mapTokens_iff.1 holds
    exact h a ha original holds

/-- All steps that are taken after the change could be taken before it. -/
theorem exists_unpacks_of_mapTokens
    (h : Relation.ReflTransGen Unpacks (as.map (mapTokens f)) bs) :
    ∃ original, Relation.ReflTransGen Unpacks as original ∧ original.map (mapTokens f) = bs := by
  induction h with
  | refl => exact ⟨as, .refl, rfl⟩
  | tail _ step ih =>
    obtain ⟨original, steps, rfl⟩ := ih
    obtain ⟨next, here, rfl⟩ := step.exists_of_mapTokens
    exact ⟨next, steps.tail here, rfl⟩

end RouteRegistry.Source

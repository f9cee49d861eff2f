/-
RouteRegistry/Proofs/Source/Containers.lean

Container annotations and what they hold.

A container is an annotation whose only argument is an array of annotations, at
least one, and of nothing else (`AnnotationNode.Holds`).  Unpacking takes a
container out of a list of annotations and puts in its place what it holds
(`Unpacks`); it ends, since an annotation has more tokens than all that it holds
(`Holds.tokens_sublist`).

`AnnotationNode.Written` says what is kept of an annotation that contributes
itself: the name without white space, the arguments with their keys, and the
line of its first token.  Nothing else is: the tokens leave no choice
(`Written.unique`).

Main result (`leaves_unpacked`): annotations contribute just what is left of
them when all containers are unpacked, from left to right, each as it is written.
-/
import Mathlib.Data.List.Basic
import Mathlib.Data.List.Flatten
import Mathlib.Data.List.Forall2
import Mathlib.Logic.Relation
import RouteRegistry.Source.Analysis

namespace RouteRegistry.Source

theorem sublist_flatMap_of_mem {α β : Type} {x : α} {xs : List α} (h : x ∈ xs) (f : α → List β) :
    (f x).Sublist (xs.flatMap f) := by
  have one := (List.singleton_sublist.2 h).flatMap f
  rwa [List.flatMap_singleton] at one

/-! ### Values of items -/

/-- The value of an item; a comma has none. -/
def Item.value? : Item → Option Expr
  | .value _ e => some e
  | .comma _ => none

/-- The values among the items, without keys and commas. -/
def values (items : List Item) : List Expr := items.filterMap Item.value?

theorem values_value (key : List Token) (e : Expr) (items : List Item) :
    values (.value key e :: items) = e :: values items := rfl

theorem values_comma (t : Token) (items : List Item) :
    values (.comma t :: items) = values items := rfl

/-- The values are written one after the other, with other tokens between them. -/
theorem tokens_values_sublist (items : List Item) :
    ((values items).flatMap Expr.tokens).Sublist (itemTokens items) := by
  induction items with
  | nil => exact List.Sublist.refl []
  | cons item items ih =>
    rw [itemTokens]
    cases item with
    | value key e =>
      rw [values_value, List.flatMap_cons, Item.tokens]
      exact (List.sublist_append_right key e.tokens).append ih
    | comma t =>
      rw [values_comma]
      exact ih.trans (List.sublist_append_right _ _)

/-! ### Containers -/

/-- The only argument of the annotation is an array of the `elements` and of nothing else. -/
structure AnnotationNode.Holds (a : AnnotationNode) (elements : List AnnotationNode) : Prop where
  ne_nil : elements ≠ []
  array : ∃ opening items closing, values a.items = [.array opening items closing] ∧
    values items = elements.map .annotated

theorem containers_eq (items : List Item) :
    containers items = (values items).map Expr.container? := by
  induction items with
  | nil =>
    rw [containers]
    rfl
  | cons item items ih =>
    cases item with
    | value key e => rw [containers, ih, values_value, List.map_cons]
    | comma t => rw [containers, ih, values_comma]

/-- Values contribute if all of them are annotations, and then what these contribute. -/
theorem annotationLeaves_eq_some_iff {items : List Item}
    {contributions : List (List AnnotationUse)} :
    annotationLeaves items = some contributions ↔
      ∃ elements : List AnnotationNode, values items = elements.map .annotated ∧
        elements.map AnnotationNode.leaves = contributions := by
  -- by the items: a comma is passed over, an annotation contributes, any other value ends it
  induction items generalizing contributions with
  | nil =>
    rw [annotationLeaves, Option.some.injEq]
    constructor
    · rintro rfl
      exact ⟨[], rfl, rfl⟩
    · rintro ⟨elements, none, rfl⟩
      rw [List.map_eq_nil_iff.1 none.symm]
      rfl
  | cons item items ih =>
    cases item with
    | comma t =>
      rw [annotationLeaves, values_comma]
      exact ih
    | value key e =>
      rw [values_value]
      cases e with
      | annotated a =>
        rw [annotationLeaves, Option.map_eq_some_iff]
        constructor
        · rintro ⟨rest, hrest, rfl⟩
          obtain ⟨elements, split, rfl⟩ := ih.1 hrest
          exact ⟨a :: elements, by rw [split]; rfl, rfl⟩
        · rintro ⟨elements, split, rfl⟩
          obtain ⟨b, elements, rfl, same, rest⟩ := List.map_eq_cons_iff.1 split.symm
          obtain rfl := Expr.annotated.inj same
          exact ⟨_, ih.2 ⟨elements, rest.symm, rfl⟩, rfl⟩
      | string | null | classLiteral | paren | binary | array | other =>
        rw [annotationLeaves]
        refine ⟨nofun, ?_⟩
        rintro ⟨elements, split, -⟩
        obtain ⟨b, elements, rfl, same, -⟩ := List.map_eq_cons_iff.1 split.symm
        cases same

namespace AnnotationNode

variable {a : AnnotationNode} {elements : List AnnotationNode}

/-- What an annotation contributes depends on its items: they are one array that contributes, or it
is the annotation itself. -/
theorem leaves_eq (a : AnnotationNode) :
    a.leaves =
      match (values a.items).map Expr.container? with
      | [some inner] => inner
      | _ => [a.used] := by
  obtain ⟨sign, name, brackets, items⟩ := a
  rw [leaves, containers_eq]
  rfl

/-- An array contributes if it holds annotations, and nothing else. -/
theorem container?_eq_some_iff {e : Expr} {inner : List AnnotationUse} :
    e.container? = some inner ↔
      ∃ (opening : Token) (items : List Item) (closing : Token) (elements : List AnnotationNode),
        e = .array opening items closing ∧ values items = elements.map .annotated ∧
          elements ≠ [] ∧ elements.flatMap leaves = inner := by
  -- only an array can be a container, and only one with an annotation in it
  cases e with
  | array opening items closing =>
    rw [Expr.container?]
    constructor
    · intro h
      split at h
      case h_1 first rest split =>
        obtain ⟨elements, same, contributions⟩ := annotationLeaves_eq_some_iff.1 split
        obtain rfl := Option.some.inj h
        refine ⟨opening, items, closing, elements, rfl, same, ?_, ?_⟩
        · rintro rfl
          cases contributions
        · rw [List.flatMap_def, contributions, List.flatten_cons]
      case h_2 => cases h
    · rintro ⟨_, _, _, elements, e, same, some_element, rfl⟩
      obtain ⟨rfl, rfl, rfl⟩ := Expr.array.inj e
      obtain ⟨first, rest, rfl⟩ := List.exists_cons_of_ne_nil some_element
      rw [annotationLeaves_eq_some_iff.2 ⟨first :: rest, same, rfl⟩]
      rfl
  | string | null | classLiteral | paren | binary | annotated | other =>
    rw [Expr.container?]
    refine ⟨nofun, ?_⟩
    rintro ⟨opening, items, closing, elements, e, -⟩
    cases e

/-- A container contributes what its elements contribute, from left to right. -/
theorem Holds.leaves_eq (h : a.Holds elements) : a.leaves = elements.flatMap leaves := by
  obtain ⟨opening, items, closing, only, same⟩ := h.array
  have contribution : (Expr.array opening items closing).container? =
      some (elements.flatMap leaves) :=
    container?_eq_some_iff.2 ⟨opening, items, closing, elements, rfl, same, h.ne_nil, rfl⟩
  rw [AnnotationNode.leaves_eq, only, List.map_singleton, contribution]

/-- An annotation that is no container contributes itself. -/
theorem leaves_of_not_holds (h : ∀ elements, ¬ a.Holds elements) : a.leaves = [a.used] := by
  rw [leaves_eq]
  split
  case h_1 inner one =>
    obtain ⟨e, only, contribution⟩ := List.map_eq_singleton_iff.1 one
    obtain ⟨opening, items, closing, elements, rfl, same, some_element, -⟩ :=
      container?_eq_some_iff.1 contribution
    exact absurd ⟨some_element, opening, items, closing, only, same⟩ (h elements)
  case h_2 => rfl

/-- The tokens behind the sign, among them those of all values. -/
theorem itemTokens_sublist (a : AnnotationNode) :
    (itemTokens a.items).Sublist a.tokens.tail := by
  obtain ⟨sign, name, - | ⟨opening, closing⟩, items⟩ := a
  · exact List.sublist_append_right name _
  · show (itemTokens items).Sublist (name ++ opening :: itemTokens items ++ [closing])
    rw [List.append_assoc]
    have bracketed := (List.sublist_append_left (itemTokens items) [closing]).cons opening
    exact bracketed.trans (List.sublist_append_right name _)

/-- What a container holds is written behind its sign. -/
theorem Holds.tokens_sublist (h : a.Holds elements) :
    (elements.flatMap tokens).Sublist a.tokens.tail := by
  obtain ⟨opening, items, closing, only, same⟩ := h.array
  have inside := tokens_values_sublist items
  have around := tokens_values_sublist a.items
  rw [same, List.flatMap_map] at inside
  rw [only, List.flatMap_singleton, Expr.tokens] at around
  have content : (itemTokens items).Sublist (opening :: itemTokens items ++ [closing]) :=
    ((List.Sublist.refl _).cons opening).trans (List.sublist_append_left _ _)
  have each (e : AnnotationNode) : (Expr.annotated e).tokens = e.tokens := by rw [Expr.tokens]
  simp only [each] at inside
  exact inside.trans (content.trans (around.trans a.itemTokens_sublist))

theorem Holds.tokens_sublist_of_mem (h : a.Holds elements) {e : AnnotationNode}
    (he : e ∈ elements) : e.tokens.Sublist a.tokens.tail :=
  (sublist_flatMap_of_mem he tokens).trans h.tokens_sublist

theorem length_tail_tokens_lt (a : AnnotationNode) : a.tokens.tail.length < a.tokens.length := by
  obtain ⟨sign, name, - | ⟨opening, closing⟩, items⟩ := a
  all_goals
    rw [tokens]
    exact Nat.lt_succ_self _

/-- A container has more tokens than all that it holds, so unpacking ends. -/
theorem Holds.length_tokens_lt (h : a.Holds elements) :
    (elements.flatMap tokens).length < a.tokens.length :=
  Nat.lt_of_le_of_lt h.tokens_sublist.length_le a.length_tail_tokens_lt

/-- What holds of annotations that are no containers, and of containers if it holds of their
elements, holds of all annotations. -/
theorem holds_induction {P : AnnotationNode → Prop}
    (single : ∀ a : AnnotationNode, (∀ elements, ¬ a.Holds elements) → P a)
    (container : ∀ (a : AnnotationNode) elements, a.Holds elements → (∀ e ∈ elements, P e) → P a)
    (a : AnnotationNode) : P a := by
  by_cases h : ∃ elements, a.Holds elements
  · obtain ⟨elements, holds⟩ := h
    refine container a elements holds fun e he => ?_
    have smaller : e.tokens.length < a.tokens.length :=
      Nat.lt_of_le_of_lt (holds.tokens_sublist_of_mem he).length_le a.length_tail_tokens_lt
    exact holds_induction single container e
  · exact single a (not_exists.1 h)
termination_by a.tokens.length

end AnnotationNode

/-! ### One annotation by itself -/

/-- The arguments that the items stand for: every value, with the word in front of it as its key if
there is one.  Commas stand for nothing. -/
inductive ItemsGive : List Item → List (Option String × ElementValue) → Prop
  | nil : ItemsGive [] []
  | comma {t : Token} {items : List Item} {args : List (Option String × ElementValue)} :
      ItemsGive items args → ItemsGive (.comma t :: items) args
  | positional {e : Expr} {items : List Item} {args : List (Option String × ElementValue)} :
      ItemsGive items args → ItemsGive (.value [] e :: items) ((none, e.value) :: args)
  | keyed {word : Token} {rest : List Token} {e : Expr} {items : List Item}
      {args : List (Option String × ElementValue)} : ItemsGive items args →
      ItemsGive (.value (word :: rest) e :: items) ((some word.text, e.value) :: args)

/-- The arguments that the items stand for are those that are kept. -/
theorem itemsGive_iff {items : List Item} {args : List (Option String × ElementValue)} :
    ItemsGive items args ↔ args = items.filterMap Item.argument? := by
  constructor
  · intro h
    induction h with
    | nil => rfl
    | comma _ ih => exact ih
    | positional _ ih | keyed _ ih => exact congrArg (_ :: ·) ih
  · rintro rfl
    induction items with
    | nil => exact .nil
    | cons item items ih =>
      rcases item with ⟨- | ⟨word, rest⟩, e⟩ | t
      · exact .positional ih
      · exact .keyed ih
      · exact .comma ih

namespace AnnotationNode

variable {a : AnnotationNode} {u v : AnnotationUse}

/-- What is kept of the annotation itself, read off its tokens. -/
structure Written (a : AnnotationNode) (u : AnnotationUse) : Prop where
  /-- The name as it is written, without white space. -/
  name : u.name.toList = (sourceText a.name).toList.filter fun c => !isBlank c
  args : ItemsGive a.items u.args
  /-- The line that the annotation begins on. -/
  line : a.tokens.head?.map Token.line = some u.line

theorem head?_tokens (a : AnnotationNode) : a.tokens.head? = some a.sign := by
  obtain ⟨sign, name, - | ⟨opening, closing⟩, items⟩ := a
  all_goals
    rw [tokens]
    rfl

/-- What is kept of an annotation is what is written. -/
theorem written_used (a : AnnotationNode) : a.Written a.used where
  name := String.toList_ofList
  args := itemsGive_iff.2 rfl
  line := by
    rw [head?_tokens]
    rfl

/-- The tokens leave no choice of what is kept. -/
theorem Written.unique (h : a.Written u) (h' : a.Written v) : u = v := by
  have name : u.name = v.name := String.toList_inj.1 (h.name.trans h'.name.symm)
  have args : u.args = v.args := (itemsGive_iff.1 h.args).trans (itemsGive_iff.1 h'.args).symm
  have line : u.line = v.line := Option.some.inj (h.line.symm.trans h'.line)
  cases u
  cases v
  cases name
  cases args
  cases line
  rfl

end AnnotationNode

/-! ### Unpacking -/

open AnnotationNode

/-- One of the annotations is a container and gives way to what it holds. -/
inductive Unpacks : List AnnotationNode → List AnnotationNode → Prop
  | mk (before : List AnnotationNode) {a : AnnotationNode} {elements : List AnnotationNode}
      (after : List AnnotationNode) :
      a.Holds elements → Unpacks (before ++ a :: after) (before ++ elements ++ after)

/-- None of the annotations is a container. -/
def Unpacked (as : List AnnotationNode) : Prop := ∀ a ∈ as, ∀ elements, ¬ a.Holds elements

/-- A step of unpacking changes nothing in what is contributed. -/
theorem Unpacks.leaves_eq {as bs : List AnnotationNode} (h : Unpacks as bs) :
    as.flatMap leaves = bs.flatMap leaves := by
  obtain ⟨before, after, holds⟩ := h
  rw [List.flatMap_append, List.flatMap_cons, holds.leaves_eq, List.flatMap_append,
    List.flatMap_append, List.append_assoc]

/-- A step of unpacking takes tokens away. -/
theorem Unpacks.length_tokens_lt {as bs : List AnnotationNode} (h : Unpacks as bs) :
    (bs.flatMap AnnotationNode.tokens).length < (as.flatMap AnnotationNode.tokens).length := by
  obtain ⟨before, after, holds⟩ := h
  have fewer := holds.length_tokens_lt
  simp only [List.flatMap_append, List.flatMap_cons, List.length_append]
  omega

/-- Where nothing is left to unpack, every annotation contributes itself. -/
theorem leaves_of_unpacked {as : List AnnotationNode} (h : Unpacked as) :
    as.flatMap leaves = as.map used := by
  rw [List.map_eq_flatMap]
  exact List.flatMap_congr fun a ha => leaves_of_not_holds (h a ha)

/-- As long as there is a container, there is a step to take. -/
theorem unpacked_or_unpacks (as : List AnnotationNode) : Unpacked as ∨ ∃ bs, Unpacks as bs := by
  by_cases h : Unpacked as
  · exact .inl h
  · simp only [Unpacked, not_forall, not_not] at h
    obtain ⟨a, ha, elements, holds⟩ := h
    obtain ⟨before, after, rfl⟩ := List.append_of_mem ha
    exact .inr ⟨_, .mk before after holds⟩

/-- Unpacking comes to an end, since every step takes tokens away. -/
theorem exists_unpacked (as : List AnnotationNode) :
    ∃ bs, Relation.ReflTransGen Unpacks as bs ∧ Unpacked bs := by
  rcases unpacked_or_unpacks as with done | ⟨next, step⟩
  · exact ⟨as, .refl, done⟩
  · obtain ⟨bs, steps, unpacked⟩ := exists_unpacked next
    exact ⟨bs, .head step steps, unpacked⟩
termination_by (as.flatMap AnnotationNode.tokens).length
decreasing_by exact step.length_tokens_lt

/-- Any number of steps changes nothing in what is contributed. -/
theorem leaves_of_unpacks {as bs : List AnnotationNode} (h : Relation.ReflTransGen Unpacks as bs) :
    as.flatMap leaves = bs.flatMap leaves := by
  induction h with
  | refl => rfl
  | tail _ step ih => exact ih.trans step.leaves_eq

/-- Containers can be unpacked until none is left.  The annotations contribute whatever is left
then, in the order of writing, each with the name, the arguments and the line that it is written
with. -/
theorem leaves_unpacked (as : List AnnotationNode) :
    (∃ bs, Relation.ReflTransGen Unpacks as bs ∧ Unpacked bs) ∧
    ∀ bs, Relation.ReflTransGen Unpacks as bs → Unpacked bs →
      List.Forall₂ Written bs (as.flatMap leaves) := by
  refine ⟨exists_unpacked as, fun bs steps unpacked => ?_⟩
  rw [leaves_of_unpacks steps, leaves_of_unpacked unpacked, List.forall₂_map_right_iff,
    List.forall₂_same]
  exact fun b _ => b.written_used

/-! ### Annotations for examples -/

/-- The annotation on the line that has one argument. -/
def annotation (line : Nat) (name : String) (value : Expr) : AnnotationNode :=
  .mk ⟨[], "@", line⟩ [⟨[], name, line⟩] (some (⟨[], "(", line⟩, ⟨[], ")", line⟩))
    [.value [] value]

/-- A string literal on the line. -/
def literal (line : Nat) (text : String) : Expr := .string ⟨[], text, line⟩

/-- An array on the line. -/
def listed (line : Nat) (items : List Item) : Expr :=
  .array ⟨[], "\x7b", line⟩ items ⟨[], "\x7d", line⟩

end RouteRegistry.Source

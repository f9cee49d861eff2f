/-
RouteRegistry/Proofs/SourceCatalog/Shorthand.lean

Containers that are written without the array.

In Java the array of one annotation may be written as this annotation alone.  An
annotation with such an argument (`AnnotationNode.Takes`) is no container here:
it contributes itself, and its argument is the source text of the annotation
that it takes.  That text is longer than any text that the annotation itself
contributes (`length_le_of_mem_leaves`), which tells the two ways of writing
apart in every case.

Main result (`shorthand_routes`): an annotation that takes another never
contributes what the container of it contributes, and a pass collects the same
extra routes from both just when the container asks for none.
-/
import RouteRegistry.Proofs.Request
import RouteRegistry.Proofs.SourceCatalog.Respelling

namespace RouteRegistry

namespace Source

/-! ### Lengths -/

/-- The number of characters of the tokens and of what stands in front of them. -/
def fullLength (ts : List Token) : Nat := (ts.flatMap Token.full).length

theorem fullLength_le_of_sublist {ts us : List Token} (h : ts.Sublist us) :
    fullLength ts ≤ fullLength us :=
  (h.flatMap Token.full).length_le

theorem length_sourceText_cons (t : Token) (ts : List Token) :
    (sourceText (t :: ts)).length = t.text.length + fullLength ts := by
  rw [sourceText, String.length_ofList, List.length_append, String.length_toList, fullLength]

theorem length_sourceText_le (ts : List Token) : (sourceText ts).length ≤ fullLength ts := by
  cases ts with
  | nil => exact Nat.zero_le _
  | cons t ts =>
    rw [length_sourceText_cons]
    unfold fullLength Token.full
    rw [List.flatMap_cons, List.length_append, List.length_append, String.length_toList]
    omega

theorem length_comment_le {t : Token} {comment : String} (h : t.comment? = some comment) :
    comment.length ≤ t.full.length := by
  obtain ⟨g, hg, same⟩ := List.exists_of_findSome?_eq_some h
  have text : g.text = comment := by
    cases g with
    | comment text => exact Option.some.inj same
    | blank text => cases same
  have inside : g.text.toList.Sublist t.full :=
    (sublist_flatMap_of_mem hg fun g => g.text.toList).trans (List.sublist_append_left _ _)
  rw [text] at inside
  have length := inside.length_le
  rwa [String.length_toList] at length

/-- An expression that stands for a text stands for one that it is written with. -/
theorem Expr.length_le_of_value : (e : Expr) → ∀ {s : String}, e.value = .other s →
    s.length ≤ fullLength e.tokens
  | .string _, s, h | .null _, s, h | .classLiteral .., s, h => by
    rw [Expr.value] at h
    cases h
  | .paren opening inner closing, s, h => by
    have inside : inner.tokens.Sublist (Expr.paren opening inner closing).tokens := by
      rw [Expr.tokens]
      exact ((List.Sublist.refl _).cons opening).trans (List.sublist_append_left _ _)
    refine Nat.le_trans ?_ (fullLength_le_of_sublist inside)
    rw [Expr.value] at h
    split at h
    case h_1 comment before =>
      obtain rfl := ElementValue.other.inj h
      -- the comment is in front of the first token
      unfold Expr.commentBefore? at before
      rw [← Expr.head?_tokens, Option.bind_eq_some_iff] at before
      obtain ⟨t, first, comment⟩ := before
      have part := sublist_flatMap_of_mem (List.mem_of_mem_head? first) Token.full
      exact Nat.le_trans (length_comment_le comment) part.length_le
    case h_2 => exact inner.length_le_of_value h
  | .binary left operator right, s, h => by
    rw [Expr.value] at h
    split at h
    case h_1 => cases h
    case h_2 =>
      obtain rfl := ElementValue.other.inj h
      exact length_sourceText_le _
  | .array .., s, h | .annotated _, s, h | .other _, s, h => by
    rw [Expr.value] at h
    obtain rfl := ElementValue.other.inj h
    exact length_sourceText_le _

/-! ### Annotations that take one -/

namespace AnnotationNode

variable {a c c' : AnnotationNode} {u : AnnotationUse}

/-- The annotation `a` is the only argument of `c`, with a key or without. -/
def Takes (c a : AnnotationNode) : Prop := values c.items = [.annotated a]

theorem map_snd_args (a : AnnotationNode) :
    a.used.args.map Prod.snd = (values a.items).map Expr.value := by
  show (a.items.filterMap Item.argument?).map Prod.snd = _
  unfold values
  rw [List.map_filterMap, List.map_filterMap]
  refine congrArg (List.filterMap · a.items) (funext fun item => ?_)
  cases item <;> rfl

/-- It contributes itself, with the text of its argument. -/
theorem Takes.leaves_eq (h : c.Takes a) :
    c.leaves = [c.used] ∧ c.used.args.map Prod.snd = [.other (sourceText a.tokens)] := by
  constructor
  · rw [AnnotationNode.leaves_eq, h, List.map_singleton, Expr.container?]
  · rw [map_snd_args, h, List.map_singleton, Expr.value, Expr.text, Expr.tokens]

/-- What an annotation contributes is written behind its sign. -/
theorem length_le_of_mem_leaves (a : AnnotationNode) : ∀ u ∈ a.leaves, ∀ s,
    .other s ∈ u.args.map Prod.snd → s.length ≤ fullLength a.tokens.tail := by
  -- a text that is kept as it stands is part of the tokens behind the annotation's sign
  induction a using holds_induction with
  | single a h =>
    intro u hu s hs
    rw [leaves_of_not_holds h, List.mem_singleton] at hu
    rw [hu, map_snd_args] at hs
    obtain ⟨e, he, value⟩ := List.mem_map.1 hs
    have part := (sublist_flatMap_of_mem he Expr.tokens).trans
      ((tokens_values_sublist a.items).trans a.itemTokens_sublist)
    exact Nat.le_trans (e.length_le_of_value value) (fullLength_le_of_sublist part)
  | container a elements holds ih =>
    intro u hu s hs
    rw [holds.leaves_eq] at hu
    obtain ⟨e, he, hu⟩ := List.mem_flatMap.1 hu
    have part := (List.tail_sublist e.tokens).trans (holds.tokens_sublist_of_mem he)
    exact Nat.le_trans (ih e he u hu s hs) (fullLength_le_of_sublist part)

theorem tokens_eq_cons (a : AnnotationNode) : a.tokens = a.sign :: a.tokens.tail := by
  obtain ⟨sign, name, - | ⟨opening, closing⟩, items⟩ := a
  all_goals
    rw [tokens]
    rfl

/-- Its text is longer than any text that the other annotation contributes. -/
theorem Takes.used_ne (takes : c.Takes a) (sign : a.sign.text ≠ "") (hu : u ∈ a.leaves) :
    c.used.unlined ≠ u.unlined := by
  intro same
  have args : c.used.args = u.args :=
    show c.used.unlined.args = u.unlined.args from congrArg AnnotationUse.args same
  have text : .other (sourceText a.tokens) ∈ u.args.map Prod.snd := by
    rw [← args, takes.leaves_eq.2]
    exact List.mem_singleton_self _
  have short := a.length_le_of_mem_leaves u hu _ text
  have positive : 0 < a.sign.text.length := Nat.pos_of_ne_zero (mt String.length_eq_zero_iff.1 sign)
  rw [tokens_eq_cons, length_sourceText_cons, List.tail_cons] at short
  omega

/-- An annotation that takes another contributes something else than the container of it. -/
theorem Takes.leaves_ne (takes : c.Takes a) (holds : c'.Holds [a]) (sign : a.sign.text ≠ "") :
    c.leaves.map AnnotationUse.unlined ≠ c'.leaves.map AnnotationUse.unlined := by
  rw [takes.leaves_eq.1, holds.leaves_eq, List.flatMap_singleton]
  intro same
  obtain ⟨u, only, here⟩ := List.map_eq_singleton_iff.1 same.symm
  refine takes.used_ne sign ?_ here.symm
  rw [only]
  exact List.mem_singleton_self u

end AnnotationNode

/-- The type with the annotation behind its modifiers, and `after` behind that. -/
def TypeDecl.carrying : TypeDecl → AnnotationNode → List Modifier → TypeDecl
  | .mk kind before name header constants members, a, after =>
    .mk kind (before ++ .annotated a :: after) name header constants members

end Source

/-! ### Routes that are asked for -/

/-- A marker without strings shows none. -/
theorem Marker.shown?_eq_none {m : Marker} (h : ∀ text, .str text ∉ m.args.map (·.value))
    (position : Nat) (keys : List String) : m.shown? position keys = none := by
  have argument {v : MarkerValue} (hv : m.argument position keys = some v) :
      v ∈ m.args.map (·.value) := by
    rcases Option.or_eq_some_iff.1 hv with named | ⟨-, positional⟩
    · obtain ⟨arg, found, rfl⟩ := Option.map_eq_some_iff.1 named
      exact List.mem_map_of_mem (List.mem_of_find?_eq_some found)
    · obtain ⟨arg, found, rfl⟩ := Option.map_eq_some_iff.1 positional
      exact List.mem_map_of_mem (List.mem_filter.1 (List.mem_of_getElem? found)).1
  unfold shown?
  split
  case h_1 text string => exact absurd (argument string) (h text)
  case h_2 => rfl

namespace MarkerNames

variable (names : MarkerNames)

/-- The marker asks for a route and names it. -/
def Asks (m : Marker) : Prop :=
  m.simpleName ∈ names.extraRoute ∧ (m.shown? 0 routeNameKeys).isSome

instance (m : Marker) : Decidable (names.Asks m) := inferInstanceAs (Decidable (_ ∧ _))

/-- The extra routes that a pass collects from the declaration. -/
def namedRoutes (d : Declaration) : List ExtraRoute :=
  (names.extraRoutes d).filter (·.usableName.isSome)

theorem namedRoutes_eq (d : Declaration) :
    names.namedRoutes d = (d.markers.filter (names.Asks ·)).map (extraRouteOf d) := by
  have asked (m : Marker) : decide (names.Asks m) =
      ((extraRouteOf d m).usableName.isSome && names.extraRoute.contains m.simpleName) := by
    have name : (extraRouteOf d m).usableName = m.shown? 0 routeNameKeys :=
      RouteRequest.usableName_read ⟨d, m⟩
    rw [name, Bool.eq_iff_iff, decide_eq_true_iff, Bool.and_eq_true, List.contains_iff_mem]
    exact And.comm
  unfold namedRoutes extraRoutes Declaration.markersNamed
  rw [List.filter_map, List.filter_filter]
  exact congrArg (List.map _) (List.filter_congr fun m _ => (asked m).symm)

/-- If two lists of markers stand between the same ones, the same routes are collected just when
the same are collected from the two lists. -/
theorem namedRoutes_eq_iff {d d' : Declaration} {before after ms ms' : List Marker}
    (id : d'.id = d.id) (origin : d'.origin = d.origin)
    (h : d.markers = before ++ ms ++ after) (h' : d'.markers = before ++ ms' ++ after) :
    names.namedRoutes d = names.namedRoutes d' ↔
      (ms.filter (names.Asks ·)).map (extraRouteOf d) =
        (ms'.filter (names.Asks ·)).map (extraRouteOf d) := by
  have same : extraRouteOf d' = extraRouteOf d := by
    unfold extraRouteOf
    rw [id, origin]
  rw [namedRoutes_eq, namedRoutes_eq, same, h, h']
  simp only [List.filter_append, List.map_append, List.append_cancel_right_eq,
    List.append_cancel_left_eq]

end MarkerNames

namespace SourceCatalog

open Source

variable {c c' a : AnnotationNode}

/-- The marker of an annotation that takes another names no route. -/
theorem not_asks_of_takes (takes : c.Takes a) (names : MarkerNames) (m : FileModel)
    (context : Context) : ¬ names.Asks (markerOf m context c.used) := by
  rintro ⟨-, shown⟩
  have values : (markerOf m context c.used).args.map (·.value) =
      (c.used.args.map Prod.snd).map (markerValue context) := by
    show (c.used.args.map _).map _ = _
    rw [List.map_map, List.map_map]
    rfl
  rw [Marker.shown?_eq_none] at shown
  · cases shown
  · intro text
    rw [values, takes.leaves_eq.2]
    exact fun h => nomatch List.mem_singleton.1 h

/-- The markers of the type are those in front, those of the annotation, and those behind. -/
theorem markers_carrying (known : KnownTypes) (m : FileModel) (enclosing : List String)
    (d : TypeDecl) (x : AnnotationNode) (after : List Modifier) :
    (declarationOf known m ((d.carrying x after).entity enclosing)).markers =
      (d.modifiers.flatMap Modifier.leaves).map
          (markerOf m (contextOf known m (d.entity enclosing))) ++
        x.leaves.map (markerOf m (contextOf known m (d.entity enclosing))) ++
        (after.flatMap Modifier.leaves).map
          (markerOf m (contextOf known m (d.entity enclosing))) := by
  obtain ⟨kind, before, name, header, constants, members⟩ := d
  show ((before ++ .annotated x :: after).flatMap Modifier.leaves).map _ = _
  rw [List.flatMap_append, List.flatMap_cons, ← List.append_assoc, List.map_append,
    List.map_append]
  rfl

/-- An annotation `c` that takes the annotation `a` contributes something else than a container `c'`
of `a` alone, on whatever lines they are, as long as the sign of `a` is written.  A pass collects
the same extra routes from a type with either of the two exactly when nothing that `a` contributes
asks for a route by name. -/
theorem shorthand_routes (takes : c.Takes a) (holds : c'.Holds [a]) (sign : a.sign.text ≠ "") :
    c.leaves.map AnnotationUse.unlined ≠ c'.leaves.map AnnotationUse.unlined ∧
    ∀ (names : MarkerNames) (known : KnownTypes) (m : FileModel) (enclosing : List String)
      (d : TypeDecl) (after : List Modifier),
      names.namedRoutes (declarationOf known m ((d.carrying c after).entity enclosing)) =
          names.namedRoutes (declarationOf known m ((d.carrying c' after).entity enclosing)) ↔
        ∀ u ∈ a.leaves, ¬ names.Asks (markerOf m (contextOf known m (d.entity enclosing)) u) := by
  refine ⟨takes.leaves_ne holds sign, fun names known m enclosing d after => ?_⟩
  have origin (x : AnnotationNode) :
      (declarationOf known m ((d.carrying x after).entity enclosing)).origin =
        some ⟨m.path, d.name.line⟩ := by
    obtain ⟨kind, before, name, header, constants, members⟩ := d
    rfl
  have id (x : AnnotationNode) :
      (declarationOf known m ((d.carrying x after).entity enclosing)).id = ⟨0⟩ := rfl
  have routes := names.namedRoutes_eq_iff ((id c').trans (id c).symm)
    ((origin c').trans (origin c).symm) (markers_carrying known m enclosing d c after)
    (markers_carrying known m enclosing d c' after)
  -- the shorthand is one marker whose argument is opaque, and an opaque value shows no name
  have nothing : (c.leaves.map (markerOf m (contextOf known m (d.entity enclosing)))).filter
      (names.Asks ·) = [] := by
    rw [List.filter_eq_nil_iff, takes.leaves_eq.1, List.map_singleton, List.forall_mem_singleton,
      decide_eq_true_iff]
    exact not_asks_of_takes takes names m _
  rw [routes, nothing, List.map_nil, eq_comm, List.map_eq_nil_iff, List.filter_eq_nil_iff,
    holds.leaves_eq, List.flatMap_singleton, List.forall_mem_map]
  simp only [decide_eq_true_eq]

/-- The annotation as an argument, and in an array. -/
def taking (a : AnnotationNode) : AnnotationNode := annotation 2 "Routes" (.annotated a)

/-- A container of the annotation. -/
def holding (a : AnnotationNode) : AnnotationNode :=
  annotation 2 "Routes" (listed 2 [.value [] (.annotated a)])

theorem takes_taking (a : AnnotationNode) : (taking a).Takes a := rfl

theorem holds_holding (a : AnnotationNode) : (holding a).Holds [a] := ⟨nofun, _, _, _, rfl, rfl⟩

/-- An annotation that asks for no route. -/
def caption : AnnotationNode := annotation 2 "Caption" (literal 2 "\"Home\"")

/-- Taking and holding the annotation contribute differently, but no route depends on it. -/
theorem shorthand_routes_caption :
    let known := KnownTypes.ofList []
    let carrier : TypeDecl := .mk .classType [.annotated settings] ⟨[], "Shell", 3⟩ [] [] []
    let file : FileModel := ⟨⟨"Shell.java"⟩, none, [], []⟩
    (taking caption).Takes caption ∧ (holding caption).Holds [caption] ∧ caption.sign.text ≠ "" ∧
    (taking caption).leaves.map AnnotationUse.unlined ≠
      (holding caption).leaves.map AnnotationUse.unlined ∧
    MarkerNames.default.namedRoutes
        (declarationOf known file ((carrier.carrying (taking caption) []).entity [])) =
      MarkerNames.default.namedRoutes
        (declarationOf known file ((carrier.carrying (holding caption) []).entity [])) := by
  intro known carrier file
  have takes := takes_taking caption
  have holds := holds_holding caption
  have sign : caption.sign.text ≠ "" := by decide
  obtain ⟨differ, routes⟩ := shorthand_routes takes holds sign
  -- a caption asks for no route, so here the two spellings agree
  exact ⟨takes, holds, sign, differ,
    (routes .default known file [] carrier []).2 (by decide +kernel)⟩

/-- A route that is lost for want of braces. -/
theorem shorthand_home_differs :
    (taking (home 2)).Takes (home 2) ∧ (holding (home 2)).Holds [home 2] ∧
    (taking (home 2)).leaves.map AnnotationUse.unlined ≠
      (holding (home 2)).leaves.map AnnotationUse.unlined ∧
    (nameLister.run (ofUnits (shell 3 [settings, holding (home 2)])) .never .memory []).output =
      [⟨"Routes.g.txt", "Home"⟩] ∧
    (nameLister.run (ofUnits (shell 3 [settings, taking (home 2)])) .never .memory []).output =
      [⟨"Routes.g.txt", ""⟩] :=
  ⟨takes_taking _, holds_holding _, by decide +kernel, by decide +kernel, by decide +kernel⟩

end SourceCatalog

end RouteRegistry

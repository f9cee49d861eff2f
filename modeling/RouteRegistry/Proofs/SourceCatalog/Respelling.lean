/-
RouteRegistry/Proofs/SourceCatalog/Respelling.lean

Files in which containers are written out.

A type is respelled if some of the containers among its annotations give way to
what they hold, at any depth and wherever the new annotations stand on the page
(`RespelledModifiers`).  A file is respelled type by type; its code, which no
catalog keeps, may change as well.

Main result (`run_respelled`): annotations contribute just what is left of them
when all containers are unpacked, each with its own name, arguments and line.  So
respelled files declare the same types with the same markers, but for the lines,
and a pass over them generates the same routes.
-/
import RouteRegistry.Proofs.Catalog.Indexed
import RouteRegistry.Proofs.Pass.Lines
import RouteRegistry.Proofs.Source.Lines
import RouteRegistry.SourceCatalog

namespace RouteRegistry

namespace Source

/-! ### Modifiers -/

/-- The word of a modifier that is one. -/
def Modifier.word? : Modifier → Option String
  | .word t => some t.text
  | .annotated _ => none

/-- The annotation of a modifier that is one. -/
def Modifier.annotation? : Modifier → Option AnnotationNode
  | .annotated a => some a
  | .word _ => none

/-- The words are the same, and the annotations are the same after some unpacking. -/
structure RespelledModifiers (ms ms' : List Modifier) : Prop where
  words : ms'.filterMap Modifier.word? = ms.filterMap Modifier.word?
  annotations : ∃ as, Relation.ReflTransGen Unpacks (ms.filterMap Modifier.annotation?) as ∧
    List.Forall₂ AnnotationNode.Alike as (ms'.filterMap Modifier.annotation?)

/-- Whether a type is abstract depends on the words only. -/
theorem any_isAbstract (ms : List Modifier) :
    ms.any Modifier.isAbstract = (ms.filterMap Modifier.word?).any (· == "abstract") := by
  rw [List.any_filterMap]
  refine congrArg ms.any (funext fun m => ?_)
  cases m <;> rfl

/-- What the modifiers contribute depends on the annotations only. -/
theorem flatMap_leaves (ms : List Modifier) :
    ms.flatMap Modifier.leaves =
      (ms.filterMap Modifier.annotation?).flatMap AnnotationNode.leaves := by
  induction ms with
  | nil => rfl
  | cons m ms ih =>
    cases m with
    | word t => exact ih
    | annotated a => exact congrArg (a.leaves ++ ·) ih

theorem leaves_of_alike {as bs : List AnnotationNode}
    (h : List.Forall₂ AnnotationNode.Alike as bs) :
    (bs.flatMap AnnotationNode.leaves).map AnnotationUse.unlined =
      (as.flatMap AnnotationNode.leaves).map AnnotationUse.unlined := by
  induction h with
  | nil => rfl
  | cons alike _ ih =>
    rw [List.flatMap_cons, List.flatMap_cons, List.map_append, List.map_append, alike.leaves, ih]

/-- Respelled modifiers contribute the same, but for the lines. -/
theorem RespelledModifiers.leaves {ms ms' : List Modifier} (h : RespelledModifiers ms ms') :
    (ms'.flatMap Modifier.leaves).map AnnotationUse.unlined =
      (ms.flatMap Modifier.leaves).map AnnotationUse.unlined := by
  obtain ⟨as, unpacks, alike⟩ := h.annotations
  rw [flatMap_leaves, flatMap_leaves, leaves_of_unpacks unpacks, leaves_of_alike alike]

/-! ### Types and files -/

mutual

/-- The same type, with its own annotations and those of the types inside it respelled. -/
inductive TypeDecl.Respelled : TypeDecl → TypeDecl → Prop
  | mk {kind : TypeKind} {ms ms' : List Modifier} {name name' : Token} {header header' : List Token}
      {constants constants' : List Code} {members members' : List Member} :
      RespelledModifiers ms ms' → name'.text = name.text → MembersRespelled members members' →
      TypeDecl.Respelled (.mk kind ms name header constants members)
        (.mk kind ms' name' header' constants' members')

/-- Types are respelled, and code stands where code stood. -/
inductive MembersRespelled : List Member → List Member → Prop
  | nil : MembersRespelled [] []
  | type {d d' : TypeDecl} {ms ms' : List Member} :
      d.Respelled d' → MembersRespelled ms ms' →
      MembersRespelled (.type d :: ms) (.type d' :: ms')
  | code {parts parts' : List Code} {ms ms' : List Member} :
      MembersRespelled ms ms' → MembersRespelled (.code parts :: ms) (.code parts' :: ms')

end

/-- The part says the same: packages and imports to the letter, types respelled, code in any way. -/
inductive TopLevel.Respelled : TopLevel → TopLevel → Prop
  | package {name name' : List Token} :
      sourceText name' = sourceText name → TopLevel.Respelled (.package name) (.package name')
  | importDecl {ts ts' : List Token} :
      sourceText ts' = sourceText ts → TopLevel.Respelled (.importDecl ts) (.importDecl ts')
  | type {d d' : TypeDecl} : d.Respelled d' → TopLevel.Respelled (.type d) (.type d')
  | code {parts parts' : List Code} : TopLevel.Respelled (.code parts) (.code parts')

/-- The units declare the same, part by part. -/
def Respelled (unit unit' : CompilationUnit) : Prop := List.Forall₂ TopLevel.Respelled unit unit'

/-! ### What is read off them -/

/-- The type without its line and those of its annotations. -/
def TypeEntity.unlined (e : TypeEntity) : TypeEntity :=
  { e with annotations := e.annotations.map AnnotationUse.unlined, line := 0 }

/-- The file without the lines of its types. -/
def FileModel.unlined (m : FileModel) : FileModel :=
  { m with types := m.types.map TypeEntity.unlined }

/-- A respelled type is the same type, but for the lines. -/
theorem TypeDecl.Respelled.entity {d d' : TypeDecl} (h : d.Respelled d') (enclosing : List String) :
    (d'.entity enclosing).unlined = (d.entity enclosing).unlined := by
  obtain ⟨modifiers, name, -⟩ := h
  unfold TypeDecl.entity TypeEntity.unlined
  dsimp only [TypeDecl.name, TypeDecl.kind, TypeDecl.modifiers]
  rw [any_isAbstract, any_isAbstract, modifiers.words, modifiers.leaves, name]

mutual

/-- By recursion on the relation: the types inside are the same as well. -/
theorem TypeDecl.Respelled.entities {d d' : TypeDecl} : d.Respelled d' →
    ∀ enclosing, (d'.entities enclosing).map TypeEntity.unlined =
      (d.entities enclosing).map TypeEntity.unlined
  | .mk modifiers name members, enclosing => by
    rw [TypeDecl.entities, TypeDecl.entities, List.map_cons, List.map_cons,
      (TypeDecl.Respelled.mk modifiers name members).entity, name, members.entities]

theorem MembersRespelled.entities {ms ms' : List Member} : MembersRespelled ms ms' →
    ∀ enclosing, (memberEntities enclosing ms').map TypeEntity.unlined =
      (memberEntities enclosing ms).map TypeEntity.unlined
  | .nil, _ => rfl
  | .type first rest, enclosing => by
    rw [memberEntities, memberEntities, List.map_append, List.map_append, first.entities,
      rest.entities]
  | .code rest, enclosing => by
    rw [memberEntities, memberEntities, rest.entities]

end

/-- A respelled part gives the same package, import or types. -/
theorem TopLevel.Respelled.reads {p p' : TopLevel} (h : p.Respelled p') :
    p'.package? = p.package? ∧ p'.import? = p.import? ∧
      p'.entities.map TypeEntity.unlined = p.entities.map TypeEntity.unlined := by
  cases h with
  | package same => exact ⟨congrArg some same, rfl, rfl⟩
  | importDecl same =>
    unfold import?
    dsimp only
    rw [same]
    exact ⟨rfl, rfl, rfl⟩
  | type d => exact ⟨rfl, rfl, d.entities []⟩
  | code => exact ⟨rfl, rfl, rfl⟩

/-- A respelled file has the same model, but for the lines. -/
theorem FileModel.unlined_ofUnit {unit unit' : CompilationUnit} (h : Respelled unit unit')
    (path : Path) : (ofUnit path unit').unlined = (ofUnit path unit).unlined := by
  have parts : unit'.filterMap TopLevel.package? = unit.filterMap TopLevel.package? ∧
      unit'.filterMap TopLevel.import? = unit.filterMap TopLevel.import? ∧
      (unit'.flatMap TopLevel.entities).map TypeEntity.unlined =
        (unit.flatMap TopLevel.entities).map TypeEntity.unlined := by
    -- part by part: a respelling keeps packages and imports, and of the types all but lines
    induction h with
    | nil => exact ⟨rfl, rfl, rfl⟩
    | cons part _ ih =>
      obtain ⟨packages, imports, types⟩ := ih
      obtain ⟨package, import_, entities⟩ := part.reads
      rw [List.filterMap_cons, List.filterMap_cons, package, packages, List.filterMap_cons,
        List.filterMap_cons, import_, imports, List.flatMap_cons, List.flatMap_cons,
        List.map_append, List.map_append, entities, types]
      exact ⟨rfl, rfl, rfl⟩
  obtain ⟨packages, imports, types⟩ := parts
  unfold ofUnit FileModel.unlined
  dsimp only
  rw [packages, imports, types]

end Source

namespace SourceCatalog

open Source

/-! ### Catalogs without lines -/

theorem contextOf_unlined (known : KnownTypes) (m : FileModel) (e : TypeEntity) :
    contextOf known m.unlined e.unlined = contextOf known m e := rfl

theorem declarationOf_unlined (known : KnownTypes) (m : FileModel) (e : TypeEntity) :
    declarationOf known m.unlined e.unlined = (declarationOf known m e).unlined := by
  have markers : (e.annotations.map AnnotationUse.unlined).map
      (markerOf m.unlined (contextOf known m e)) =
      (e.annotations.map (markerOf m (contextOf known m e))).map Marker.unlined := by
    rw [List.map_map, List.map_map]
    rfl
  unfold declarationOf Declaration.unlined
  rw [contextOf_unlined]
  dsimp only
  rw [← markers]
  rfl

/-- Lines make no difference to what is known. -/
theorem declaredNames_unlined (ms : List FileModel) :
    declaredNames (ms.map FileModel.unlined) = declaredNames ms := by
  unfold declaredNames
  rw [List.flatMap_map]
  refine List.flatMap_congr fun m _ => ?_
  exact List.map_map

theorem declarations_unlined (known : KnownTypes) (ms : List FileModel) :
    declarations known (ms.map FileModel.unlined) =
      (declarations known ms).map Declaration.unlined := by
  unfold declarations
  rw [List.flatMap_map, List.map_flatMap]
  refine List.flatMap_congr fun m _ => ?_
  show (m.types.map TypeEntity.unlined).map _ = _
  rw [List.map_map, List.map_map]
  exact List.map_congr_left fun e _ => declarationOf_unlined known m e

/-- Neither the positions nor the names that they stand for depend on lines. -/
theorem toCatalog_unlined (ds : List Declaration) :
    (IndexedCatalog.ofList (ds.map Declaration.unlined)).toCatalog =
      (IndexedCatalog.ofList ds).toCatalog.unlined := by
  have declarations : (IndexedCatalog.ofList (ds.map Declaration.unlined)).declarations =
      (IndexedCatalog.ofList ds).declarations.map Declaration.unlined := by
    refine List.ext_getElem? fun i => ?_
    rw [List.getElem?_map, IndexedCatalog.getElem?_ofList, IndexedCatalog.getElem?_ofList,
      List.getElem?_map, Option.map_map, Option.map_map]
    rfl
  have answers (id : DeclId) :
      Lookup.of ((IndexedCatalog.ofList (ds.map Declaration.unlined)).get? id) =
        Lookup.of ((IndexedCatalog.ofList ds).get? id) := by
    unfold IndexedCatalog.get?
    rw [declarations, List.getElem?_map]
    rcases (IndexedCatalog.ofList ds).declarations[id.index.toNat]? with - | d <;> rfl
  unfold IndexedCatalog.toCatalog Catalog.unlined
  rw [declarations]
  exact congrArg _ (funext answers)

/-- The catalog of files without lines is the catalog without lines. -/
theorem ofModels_unlined (ms : List FileModel) :
    (ofModels (ms.map FileModel.unlined)).toCatalog = (ofModels ms).toCatalog.unlined := by
  unfold ofModels
  rw [declaredNames_unlined]
  dsimp only
  rw [declarations_unlined]
  exact toCatalog_unlined _

/-! ### Respelled files -/

/-- The catalog of the files at the paths. -/
def ofUnits (files : List (Path × CompilationUnit)) : Catalog :=
  (ofModels (files.map fun f => FileModel.ofUnit f.1 f.2)).toCatalog

/-- The files at the paths declare the same. -/
def RespelledFiles (files files' : List (Path × CompilationUnit)) : Prop :=
  List.Forall₂ (fun f f' => f'.1 = f.1 ∧ Respelled f.2 f'.2) files files'

variable {files files' : List (Path × CompilationUnit)}

/-- Respelled files have the same catalog, but for the lines. -/
theorem unlined_ofUnits (h : RespelledFiles files files') :
    (ofUnits files').unlined = (ofUnits files).unlined := by
  have models : (files'.map fun f => FileModel.ofUnit f.1 f.2).map FileModel.unlined =
      (files.map fun f => FileModel.ofUnit f.1 f.2).map FileModel.unlined := by
    induction h with
    | nil => rfl
    | cons file _ ih =>
      obtain ⟨path, unit⟩ := file
      simp only [List.map_cons]
      rw [path, FileModel.unlined_ofUnit unit, ih]
  unfold ofUnits
  rw [← ofModels_unlined, models, ofModels_unlined]

/-- Annotations contribute what is left of them when all containers are unpacked, in the order of
writing, each annotation with the name, the arguments and the line that it is written with.  So if
containers on types of some files give way to what they hold, the files declare the same types with
the same markers, but for the lines.  A pass over the files has the same outcome, unless the host
cancels because of a line, and when two passes generate routes, they generate the same. -/
theorem run_respelled (h : RespelledFiles files files') (g : Generator) :
    (∀ as : List AnnotationNode,
      (∃ bs, Relation.ReflTransGen Unpacks as bs ∧ Unpacked bs) ∧
      ∀ bs, Relation.ReflTransGen Unpacks as bs → Unpacked bs →
        List.Forall₂ AnnotationNode.Written bs (as.flatMap AnnotationNode.leaves)) ∧
    (ofUnits files').declarations.map Declaration.unlined =
      (ofUnits files).declarations.map Declaration.unlined ∧
    (∀ (cancel : Cancellation) sink output,
      (g.run (ofUnits files') (cancel.hearing Event.unlined) sink output).unlined =
        (g.run (ofUnits files) (cancel.hearing Event.unlined) sink output).unlined) ∧
    ∀ {cancel cancel' sink sink' output output' routes routes'},
      (g.run (ofUnits files) cancel sink output).outcome = .generated routes →
      (g.run (ofUnits files') cancel' sink' output').outcome = .generated routes' →
      routes' = routes := by
  have same := unlined_ofUnits h
  refine ⟨leaves_unpacked, congrArg Catalog.declarations same, fun cancel sink output => ?_, ?_⟩
  · rw [← g.run_unlined, ← g.run_unlined, same]
  -- the routes of a pass that generates do not depend on when it was asked to stop
  · intro cancel cancel' sink sink' output output' routes routes' generated generated'
    have here := Generator.routes?_of_generated generated
    have there := Generator.routes?_of_generated generated'
    rw [← g.routes?_unlined, same, g.routes?_unlined, here] at there
    exact (Option.some.inj there).symm

/-! ### An example -/

/-- A route, asked for on the line by an argument without a key. -/
def home (line : Nat) : AnnotationNode := annotation line "ExtraRoute" (literal line "\"Home\"")

/-- The annotation on the line that has one argument with a key. -/
def keyedAnnotation (line : Nat) (name key : String) (value : Expr) : AnnotationNode :=
  .mk ⟨[], "@", line⟩ [⟨[], name, line⟩] (some (⟨[], "(", line⟩, ⟨[], ")", line⟩))
    [.value [⟨[], key, line⟩, ⟨[], "=", line⟩] value]

/-- A route, asked for on the line by an argument with a key. -/
def info (line : Nat) : AnnotationNode :=
  keyedAnnotation line "ExtraRoute" "routeName" (literal line "\"Info\"")

/-- The annotation that configures the pass. -/
def settings : AnnotationNode := annotation 1 "AutoRoutes" (literal 1 "\"Page\"")

/-- A container with a key, for use in a container. -/
def inner : AnnotationNode :=
  keyedAnnotation 3 "Routes" "value" (listed 3 [.value [] (.annotated (info 3))])

/-- A container of a route and of a container. -/
def outer : AnnotationNode :=
  annotation 2 "Routes"
    (listed 2 [.value [] (.annotated (home 2)), .comma ⟨[], ",", 2⟩, .value [] (.annotated inner)])

/-- The containers are unpacked one after the other. -/
theorem unpacks_outer :
    Relation.ReflTransGen Unpacks [settings, outer] [settings, home 2, info 3] := by
  have outerHolds : outer.Holds [home 2, inner] := ⟨nofun, _, _, _, rfl, rfl⟩
  have innerHolds : inner.Holds [info 3] := ⟨nofun, _, _, _, rfl, rfl⟩
  exact .head (.mk [settings] [] outerHolds) (.head (.mk [settings, home 2] [] innerHolds) .refl)

theorem unpacked_outer : Unpacked [settings, home 2, info 3] := by
  rintro a ha elements ⟨-, opening, items, closing, only, -⟩
  simp only [List.mem_cons, List.not_mem_nil, or_false] at ha
  rcases ha with rfl | rfl | rfl <;> cases only

/-- The file of a class with the annotations. -/
def shell (line : Nat) (as : List AnnotationNode) : List (Path × CompilationUnit) :=
  [(⟨"Shell.java"⟩, [.type (.mk .classType (as.map .annotated) ⟨[], "Shell", line⟩ [] [] [])])]

/-- The file with the containers and the file without are respelled, on whatever lines. -/
theorem respelled_shell :
    RespelledFiles (shell 4 [settings, outer]) (shell 3 [settings, home 1, info 2]) := by
  have alike : List.Forall₂ AnnotationNode.Alike [settings, home 2, info 3]
      [settings, home 1, info 2] :=
    .cons ⟨rfl, rfl⟩ (.cons ⟨rfl, rfl⟩ (.cons ⟨rfl, rfl⟩ .nil))
  exact .cons ⟨rfl, .cons (.type (.mk ⟨rfl, _, unpacks_outer, alike⟩ rfl .nil)) .nil⟩ .nil

/-- Lists the names of the routes. -/
def nameLister : Generator :=
  ⟨⟨"txt", [], fun _ t => .ok (Text.joinWith " " t.names)⟩, .default⟩

/-- The three annotations that are no containers, by name, arguments and line, and the routes of the
file in which they are written out. -/
theorem run_respelled_shell :
    RespelledFiles (shell 4 [settings, outer]) (shell 3 [settings, home 1, info 2]) ∧
    [settings, outer].flatMap AnnotationNode.leaves =
      [⟨"AutoRoutes", [(none, .str "Page")], 1⟩, ⟨"ExtraRoute", [(none, .str "Home")], 2⟩,
        ⟨"ExtraRoute", [(some "routeName", .str "Info")], 3⟩] ∧
    (nameLister.run (ofUnits (shell 3 [settings, home 1, info 2]))
      (Cancellation.never.hearing Event.unlined) .memory []).output =
        [⟨"Routes.g.txt", "Home Info"⟩] := by
  obtain ⟨contributed, -, same, -⟩ := run_respelled respelled_shell nameLister
  have left := (contributed [settings, outer]).2 _ unpacks_outer unpacked_outer
  have written : List.Forall₂ AnnotationNode.Written [settings, home 2, info 3]
      [⟨"AutoRoutes", [(none, .str "Page")], 1⟩, ⟨"ExtraRoute", [(none, .str "Home")], 2⟩,
        ⟨"ExtraRoute", [(some "routeName", .str "Info")], 3⟩] :=
    .cons ⟨by decide, itemsGive_iff.2 (by decide +kernel), rfl⟩
      (.cons ⟨by decide, itemsGive_iff.2 (by decide +kernel), rfl⟩
        (.cons ⟨by decide, itemsGive_iff.2 (by decide +kernel), rfl⟩ .nil))
  -- `Written` fixes the leaf, so the leaves are those written out here
  have only : Relator.RightUnique AnnotationNode.Written := fun _ _ _ h h' => h.unique h'
  refine ⟨respelled_shell, List.right_unique_forall₂' only left written,
    (congrArg Run.output (same .never .memory [])).trans ?_⟩
  decide +kernel

end SourceCatalog

end RouteRegistry

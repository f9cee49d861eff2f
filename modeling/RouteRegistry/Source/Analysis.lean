/-
RouteRegistry/Source/Analysis.lean

From the syntax tree of a file to its model.

* `Expr.value` is the value of an annotation argument.  Strings joined by `+`
  are one string; an expression of any other kind stands for its source text.
* `AnnotationNode.leaves` takes a container annotation apart: one whose only
  argument is an array of annotations contributes those instead of itself.
* `TypeDecl.entities` lists the types declared in bodies, each before the types
  inside it.  Types declared in code are not listed.
-/
import RouteRegistry.Source.Import
import RouteRegistry.Source.Literal
import RouteRegistry.Source.Tree

namespace RouteRegistry.Source

/-! ### Values of arguments -/

/-- The value of two joined values, if both are strings. -/
def ElementValue.concat? : ElementValue → ElementValue → Option String
  | .str a, .str b => some (a ++ b)
  | _, _ => none

/-- The value of an expression.  A comment at the beginning of a parenthesis is taken for what the
parenthesis holds. -/
def Expr.value : Expr → ElementValue
  | .string t => .str (String.ofList (literalValue t.text.toList))
  | .null _ => .null
  | .classLiteral type _ _ => .classLiteral (normalizeType (sourceText type))
  | .paren _ inner _ =>
    match inner.commentBefore? with
    | some comment => .other comment
    | none => inner.value
  | .binary left operator right =>
    match if sourceText operator = "+" then left.value.concat? right.value else none with
    | some joined => .str joined
    | none => .other (Expr.binary left operator right).text
  | .array opening items closing => .other (Expr.array opening items closing).text
  | .annotated a => .other (Expr.annotated a).text
  | .other ts => .other (sourceText ts)

/-! ### Annotations -/

/-- The key of an item and its value; a comma has none. -/
def Item.argument? : Item → Option (Option String × ElementValue)
  | .value key e => some (key.head?.map Token.text, e.value)
  | .comma _ => none

/-- The annotation itself, as the model keeps it. -/
def AnnotationNode.used (a : AnnotationNode) : AnnotationUse where
  name := String.ofList (Text.squeeze (sourceText a.name).toList)
  args := a.items.filterMap Item.argument?
  line := a.sign.line

mutual

/-- The annotations that the annotation contributes. -/
def AnnotationNode.leaves : AnnotationNode → List AnnotationUse
  | .mk sign name brackets items =>
    match containers items with
    -- its only value is a container: the annotation itself contributes nothing
    | [some inner] => inner
    | _ => [(AnnotationNode.mk sign name brackets items).used]

/-- What the values contribute, each value that is an array of annotations. -/
def containers : List Item → List (Option (List AnnotationUse))
  | [] => []
  | .comma _ :: is => containers is
  | .value _ e :: is => e.container? :: containers is

/-- The contribution of an array that holds annotations, and nothing else. -/
def Expr.container? : Expr → Option (List AnnotationUse)
  | .array _ items _ =>
    match annotationLeaves items with
    | some (first :: rest) => some (first ++ rest.flatten)
    | _ => none
  | .string _ => none
  | .null _ => none
  | .classLiteral _ _ _ => none
  | .paren _ _ _ => none
  | .binary _ _ _ => none
  | .annotated _ => none
  | .other _ => none

/-- The contributions of the values, if each of them is an annotation. -/
def annotationLeaves : List Item → Option (List (List AnnotationUse))
  | [] => some []
  | .comma _ :: is => annotationLeaves is
  | .value _ (.annotated a) :: is => (annotationLeaves is).map (a.leaves :: ·)
  | .value _ (.string _) :: _ => none
  | .value _ (.null _) :: _ => none
  | .value _ (.classLiteral _ _ _) :: _ => none
  | .value _ (.paren _ _ _) :: _ => none
  | .value _ (.binary _ _ _) :: _ => none
  | .value _ (.array _ _ _) :: _ => none
  | .value _ (.other _) :: _ => none

end

/-! ### Types -/

namespace Modifier

/-- The modifier is the word `abstract`. -/
def isAbstract : Modifier → Bool
  | .word t => t.text == "abstract"
  | .annotated _ => false

/-- What the modifier contributes to the annotations of its type. -/
def leaves : Modifier → List AnnotationUse
  | .annotated a => a.leaves
  | .word _ => []

end Modifier

/-- Interfaces and annotation types are abstract whatever their modifiers say. -/
def isAlwaysAbstract : TypeKind → Bool
  | .interfaceType | .annotationType => true
  | _ => false

/-- The type itself, as the model keeps it, inside the types `enclosing`. -/
def TypeDecl.entity (enclosing : List String) (d : TypeDecl) : TypeEntity where
  name := d.name.text
  enclosing := enclosing
  kind := d.kind
  isAbstract := isAlwaysAbstract d.kind || d.modifiers.any Modifier.isAbstract
  annotations := d.modifiers.flatMap Modifier.leaves
  line := d.name.line

mutual

/-- The type and the types inside it. -/
def TypeDecl.entities (enclosing : List String) : TypeDecl → List TypeEntity
  | .mk kind modifiers name header constants members =>
    (TypeDecl.mk kind modifiers name header constants members).entity enclosing ::
      memberEntities (enclosing ++ [name.text]) members

/-- The types among the members. -/
def memberEntities (enclosing : List String) : List Member → List TypeEntity
  | [] => []
  | .type d :: ms => d.entities enclosing ++ memberEntities enclosing ms
  | .code _ :: ms => memberEntities enclosing ms

end

/-! ### Files -/

namespace TopLevel

/-- The name of a package declaration. -/
def package? : TopLevel → Option String
  | .package name => some (sourceText name)
  | _ => none

/-- What an import declaration says, if it can be read. -/
def import? : TopLevel → Option Import
  | .importDecl ts => Import.read? (sourceText ts).toList
  | _ => none

/-- The types that the part of the file declares; code declares none that count. -/
def entities : TopLevel → List TypeEntity
  | .type d => d.entities []
  | _ => []

end TopLevel

/-- The model of the file; the last package declaration counts. -/
def FileModel.ofUnit (path : Path) (unit : CompilationUnit) : FileModel where
  path := path
  package := (unit.filterMap TopLevel.package?).getLast?
  imports := unit.filterMap TopLevel.import?
  types := unit.flatMap TopLevel.entities

end RouteRegistry.Source

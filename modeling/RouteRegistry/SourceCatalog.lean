/-
RouteRegistry/SourceCatalog.lean

The catalog of a set of Java files: the declarations of the first file, then of
the second, and so on, each file's in the order of its model.

Class literals in annotations are resolved against the types of all files.
-/
import RouteRegistry.Catalog
import RouteRegistry.Scope.Resolve

namespace RouteRegistry

open Source

/-- The declarations of a program's source files and the names they declare. -/
structure SourceCatalog where
  types : IndexedCatalog
  known : KnownTypes

namespace SourceCatalog

/-- Simple and qualified name of each declared type. -/
def declaredNames (models : List FileModel) : List (String × String) :=
  models.flatMap fun m => m.types.map fun e => (e.name, e.qualifiedName m.package)

/-- The dotted names of the ways that lead from `around` along the path, shortest first. -/
def dottedAlong (around : List String) : List String → List String
  | [] => []
  | segment :: path =>
    dotted (around ++ [segment]) :: dottedAlong (around ++ [segment]) path

/-- The qualified names of the type itself and of the types around it, innermost first. -/
def enclosingChain (package : Option String) (e : TypeEntity) : List String :=
  (dottedAlong (packagePath package) (e.enclosing ++ [e.name])).reverse

/-- Where a name stands that an annotation of the type refers to. -/
def contextOf (known : KnownTypes) (m : FileModel) (e : TypeEntity) : Context :=
  ⟨m.package, m.imports, enclosingChain m.package e, known⟩

/-- The value of an argument with its type resolved; one that cannot be stays as it is written. -/
def markerValue (c : Context) : ElementValue → MarkerValue
  | .str text => .str text
  | .classLiteral written => .typeRef (c.resolve written)
  | .null => .null
  | .other source => .other source

/-- The marker that an annotation stands for, at the annotation's line. -/
def markerOf (m : FileModel) (c : Context) (a : AnnotationUse) : Marker where
  name := a.name
  args := a.args.map fun arg => ⟨arg.1, markerValue c arg.2⟩
  origin := some ⟨m.path, a.line⟩

/-- The declaration of a type of the file, its markers read where the type stands.  The catalog that
takes the declaration in gives it an identity. -/
def declarationOf (known : KnownTypes) (m : FileModel) (e : TypeEntity) : Declaration where
  id := ⟨0⟩
  name := e.name
  space := m.space
  enclosing := e.enclosing
  kind := e.kind
  isAbstract := e.isAbstract
  markers := e.annotations.map (markerOf m (contextOf known m e))
  origin := some ⟨m.path, e.line⟩

/-- The declarations of all files, in the order of the files and of the types of each. -/
def declarations (known : KnownTypes) (models : List FileModel) : List Declaration :=
  models.flatMap fun m => m.types.map (declarationOf known m)

/-- The catalog of the files.  All types are known before the first name is resolved, so the order
of the files makes no difference to what a name stands for. -/
def ofModels (models : List FileModel) : SourceCatalog :=
  let known := KnownTypes.ofList (declaredNames models)
  ⟨.ofList (declarations known models), known⟩

/-- The type is declared in one of the files. -/
def isKnown (c : SourceCatalog) (qualified : String) : Bool := c.known.contains qualified

/-- The catalog as a pass sees it. -/
def toCatalog (c : SourceCatalog) : Catalog := c.types.toCatalog

end SourceCatalog

end RouteRegistry

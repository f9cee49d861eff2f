/-
RouteRegistry/Source/FileModel.lean

What the generator knows about one Java file before any name is resolved: the
package, the imports, and the declared types with their annotations.
-/
import RouteRegistry.Declaration

namespace RouteRegistry.Source

/-- An import declaration. -/
structure Import where
  /-- The dotted path, without the `.*` of an import on demand. -/
  path : String
  isStatic : Bool
  isWildcard : Bool
  deriving DecidableEq, Inhabited

/-- The last segment of the path: the name that a single-type import brings in. -/
def Import.simpleName (i : Import) : String := lastSegment i.path

/-- The value of an annotation's argument. -/
inductive ElementValue where
  | str (text : String)
  /-- The type of a class literal, as written but for white space and type arguments. -/
  | classLiteral (written : String)
  | null
  | other (source : String)
  deriving DecidableEq, Inhabited

/-- An annotation with its arguments; a positional one has no key. -/
structure AnnotationUse where
  /-- The name as written, which may be qualified. -/
  name : String
  args : List (Option String × ElementValue)
  line : Nat
  deriving DecidableEq, Inhabited

/-- A declared type as it is written, before any name in it is resolved. -/
structure TypeEntity where
  name : String
  /-- The names of the types around it, outermost first. -/
  enclosing : List String
  kind : TypeKind
  isAbstract : Bool
  annotations : List AnnotationUse
  /-- The line of its name. -/
  line : Nat
  deriving DecidableEq, Inhabited

/-- What is known of one file. -/
structure FileModel where
  path : Path
  package : Option String
  imports : List Import
  /-- The declared types, each before the types inside it. -/
  types : List TypeEntity
  deriving DecidableEq, Inhabited

/-- The package, the default one being empty. -/
def FileModel.space (m : FileModel) : String := m.package.getD ""

/-- The package as the beginning of a dotted name, to which neither the default package nor an empty
one adds anything. -/
def packagePath (package : Option String) : List String := (package.filter (· ≠ "")).toList

/-- The qualified name of a type of a file in the package. -/
def TypeEntity.qualifiedName (package : Option String) (e : TypeEntity) : String :=
  dotted (packagePath package ++ e.enclosing ++ [e.name])

end RouteRegistry.Source

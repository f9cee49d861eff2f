/-
RouteRegistry/Scope/Resolve.lean

Resolving type names written in class literals.

A name is looked up in six scopes, the nearest first (`Scope.all`): the types
around the reference and their members, single-type imports, the file's own
package, imports on demand, the predefined types, and at last any type whose
simple name is declared only once.  `Context.tryResolve` takes a name that is
known as written for itself, and resolves a dotted name by its first segment.
-/
import RouteRegistry.Scope.Known
import RouteRegistry.Source.FileModel

namespace RouteRegistry

/-- Where a type name is written. -/
structure Context where
  package : Option String
  imports : List Source.Import
  /-- The qualified names of the referring type and the types around it, innermost first. -/
  enclosing : List String
  known : KnownTypes

/-- The name inside the file's own package. -/
def Context.inPackage (c : Context) (name : String) : String :=
  match c.package with
  | some space => if space = "" then name else space ++ "." ++ name
  | none => name

/-- A step of the look-up of a simple name. -/
inductive Scope where
  | enclosing
  | singleImport
  | package
  | wildcardImport
  | builtin
  | catalog
  deriving DecidableEq, Inhabited

namespace Scope

/-- The scopes in the order they are asked. -/
def all : List Scope := [.enclosing, .singleImport, .package, .wildcardImport, .builtin, .catalog]

/-- The name of the scope in logs. -/
def label : Scope → String
  | .enclosing => "Enclosing"
  | .singleImport => "Import"
  | .package => "PackageScope"
  | .wildcardImport => "WildcardImport"
  | .builtin => "Builtin"
  | .catalog => "Catalog"

/-- The words that are types without any declaration. -/
def primitives : List String :=
  ["int", "long", "short", "byte", "float", "double", "boolean", "char", "void"]

/-- The classes of `java.lang` that can be referred to. -/
def langClasses : List String :=
  ["String", "Object", "Integer", "Long", "Double", "Float", "Boolean", "Byte", "Character",
    "Short", "Void", "Number", "Math", "Exception", "RuntimeException", "Throwable", "Error",
    "Thread", "System", "Class", "Enum", "Record", "Iterable", "Runnable", "Comparable",
    "CharSequence", "StringBuilder"]

/-- What `name` can mean next to the type `outer`: that type itself, or a member of it. -/
def candidates (name outer : String) : List String :=
  if lastSegment outer = name then [outer, outer ++ "." ++ name] else [outer ++ "." ++ name]

/-- The qualified name that the scope has for the simple name. -/
def resolve (c : Context) (name : String) : Scope → Option String
  | .enclosing => (c.enclosing.flatMap (candidates name)).find? c.known.contains
  | .singleImport =>
    (c.imports.find? fun i => !i.isStatic && !i.isWildcard && i.simpleName == name).map (·.path)
  | .package => if c.known.contains (c.inPackage name) then some (c.inPackage name) else none
  | .wildcardImport =>
    ((c.imports.filter (·.isWildcard)).map fun i => i.path ++ "." ++ name).find? c.known.contains
  | .builtin =>
    if primitives.contains name then some name
    else if langClasses.contains name then some ("java.lang." ++ name)
    else none
  | .catalog => c.known.unique name

end Scope

namespace Context

/-- The answer of the first scope that has one. -/
def resolveSimple (c : Context) (name : String) : Option String :=
  Scope.all.findSome? (Scope.resolve c name)

/-- The type that a written name stands for.  A name that is known as written wins over all scopes;
otherwise the first segment is looked up, and the whole has to be known if more follow. -/
def tryResolve (c : Context) (written : String) : Option String :=
  if written = "" then none
  -- before any scope, and for names without a dot as well
  else if c.known.contains written then some written
  else
    match splitAtDot? written with
    | some (head, tail) =>
      ((c.resolveSimple head).map fun outer => outer ++ "." ++ tail).filter c.known.contains
    | none => c.resolveSimple written

/-- The qualified name, or the name as written if nothing is known about it. -/
def resolve (c : Context) (written : String) : String := (c.tryResolve written).getD written

end Context

end RouteRegistry

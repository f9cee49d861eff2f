/-
RouteRegistry/Declaration.lean

What a host tells the generator about its source code: declared types and the
markers attached to them.

* `Location` says where something is written.
* `Marker` is an annotation with its arguments, each a `MarkerValue`.
* `Declaration` is a declared type, with `qualifiedName` built from its
  namespace, its enclosing types and its own name.
-/
import RouteRegistry.Text.Dotted
import RouteRegistry.Path

namespace RouteRegistry

/-! ### Places in the source -/

/-- A line of a file; lines count from one. -/
structure Location where
  path : Path
  line : Nat
  deriving DecidableEq, Inhabited

/-- A place as diagnostics print it, `path:line`. -/
def Location.toText (l : Location) : String := l.path.text ++ ":" ++ toString l.line

/-! ### Markers -/

/-- The value of a marker's argument, as it is written where the marker is used. -/
inductive MarkerValue where
  | str (text : String)
  /-- A reference to a type, qualified as far as the host could resolve it. -/
  | typeRef (name : String)
  | null
  /-- Any other expression, kept as source text. -/
  | other (source : String)
  deriving DecidableEq, Inhabited

namespace MarkerValue

/-- The text of a value that is a string. -/
def str? : MarkerValue → Option String
  | .str text => some text
  | _ => none

/-- The name of the type that a value refers to. -/
def typeRef? : MarkerValue → Option String
  | .typeRef name => some name
  | _ => none

end MarkerValue

/-- An argument of a marker; a positional one has no key. -/
structure MarkerArg where
  key : Option String
  value : MarkerValue
  deriving DecidableEq, Inhabited

/-- An annotation on a type. -/
structure Marker where
  name : String
  args : List MarkerArg
  origin : Option Location
  deriving DecidableEq, Inhabited

namespace Marker

/-- The last segment of the marker's name, which may be written qualified. -/
def simpleName (m : Marker) : String := lastSegment m.name

/-- The `i`-th positional argument. -/
def positional (m : Marker) (i : Nat) : Option MarkerValue :=
  (m.args.filter (·.key.isNone))[i]?.map (·.value)

/-- The first keyed argument whose key is one of `keys`. -/
def named (m : Marker) (keys : List String) : Option MarkerValue :=
  (m.args.find? fun a => a.key.any (keys.contains ·)).map (·.value)

/-- Keyed arguments win over positional ones. -/
def argument (m : Marker) (position : Nat) (keys : List String) : Option MarkerValue :=
  (m.named keys).or (m.positional position)

end Marker

/-! ### Declared types -/

/-- The identity of a declaration within one catalog. -/
structure DeclId where
  index : UInt32
  deriving DecidableEq, Inhabited

/-- An identity as the cause of a failure quotes it. -/
def DeclId.toText (id : DeclId) : String := "#" ++ toString id.index.toNat

/-- The five ways to declare a type. -/
inductive TypeKind where
  | classType
  | recordType
  | interfaceType
  | enumType
  | annotationType
  deriving DecidableEq, Inhabited

namespace TypeKind

/-- Classes and records can be instantiated, hence be navigation targets. -/
def isClassLike : TypeKind → Bool
  | .classType | .recordType => true
  | _ => false

/-- The kind as the JSON form of a declaration names it. -/
def keyword : TypeKind → String
  | .classType => "class"
  | .recordType => "record"
  | .interfaceType => "interface"
  | .enumType => "enum"
  | .annotationType => "annotation"

end TypeKind

/-- A declared type. -/
structure Declaration where
  id : DeclId
  name : String
  /-- The dotted package, empty for the default one. -/
  space : String
  /-- The simple names of the enclosing types, outermost first. -/
  enclosing : List String
  kind : TypeKind
  isAbstract : Bool
  markers : List Marker
  origin : Option Location
  deriving DecidableEq, Inhabited

namespace Declaration

/-- The name with the package and the types around it in front. -/
def qualifiedName (d : Declaration) : String := qualify d.space (d.enclosing ++ [d.name])

/-- The markers whose simple name is one of `names`, in the order written. -/
def markersNamed (d : Declaration) (names : List String) : List Marker :=
  d.markers.filter fun m => names.contains m.simpleName

/-- One of the declaration's markers goes by one of the simple names. -/
def hasMarker (d : Declaration) (names : List String) : Bool :=
  d.markers.any fun m => names.contains m.simpleName

end Declaration

end RouteRegistry

/-
RouteRegistry/Json/Codec.lean

The JSON form of the domain's values: `encode` and `decode?` for each.

Decoding is strict about what it knows and lenient about what it does not.  A
structure is written as an object, or as an array of its fields in order.
Unknown fields are ignored; a field given twice is refused; an absent optional
field is none.  In `Config` and its marker names, an absent field takes its
default value.
-/
import RouteRegistry.Config
import RouteRegistry.Diagnostic
import RouteRegistry.Json.Value
import RouteRegistry.Table

namespace RouteRegistry

namespace Json

/-! ### Simple values -/

/-- A text that is a string; one with half of a surrogate pair is none. -/
def string? : Json → Option String
  | .text s => s
  | _ => none

/-- True or false, and nothing that stands for them. -/
def bool? : Json → Option Bool
  | .bool b => some b
  | _ => none

/-- A number below `bound`, written with digits alone. -/
def natBelow? (bound : Nat) : Json → Option Nat
  | .number lexeme =>
    if lexeme.all Char.isDigit then
      let n := lexeme.foldl (fun n c => 10 * n + (c.toNat - 0x30)) 0
      if n < bound then some n else none
    else none
  | _ => none

/-- A list, if each of its items can be decoded. -/
def list? {α : Type} (item? : Json → Option α) : Json → Option (List α)
  | .array items => items.mapM item?
  | _ => none

/-- A value, or null for none. -/
def optional? {α : Type} (value? : Json → Option α) : Json → Option (Option α)
  | .null => some none
  | j => (value? j).map some

/-- One of several words, written as a text or as the only key of an object whose value is
null. -/
def word? {α : Type} (label : α → String) (all : List α) : Json → Option α
  | .text (some s) => all.find? fun a => label a == s
  | .object [(some s, .null)] => all.find? fun a => label a == s
  | _ => none

/-! ### Structures -/

/-- The keys of an object, if each of them is a text. -/
def keys? (members : List (Option String × Json)) : Option (List String) :=
  members.mapM Prod.fst

/-- The values of the named fields of an object, if no field is given twice. -/
def namedFields? (names : List String) (members : List (Option String × Json)) :
    Option (List (Option Json)) :=
  match keys? members with
  | none => none
  | some keys =>
    if names.all fun n => keys.count n ≤ 1 then
      some (names.map fun n => (members.find? fun m => m.1 == some n).map Prod.snd)
    else none

/-- The fields of a structure that is complete when written as an array. -/
def fields? (names : List String) : Json → Option (List (Option Json))
  | .object members => namedFields? names members
  | .array items => if items.length = names.length then some (items.map some) else none
  | _ => none

/-- The fields of a structure whose last fields may be left out of an array. -/
def leadingFields? (names : List String) : Json → Option (List (Option Json))
  | .object members => namedFields? names members
  | .array items =>
    if items.length ≤ names.length then
      some (items.map some ++ List.replicate (names.length - items.length) none)
    else none
  | _ => none

/-- A field that has to be there. -/
def required? {α : Type} (value? : Json → Option α) (field : Option Json) : Option α :=
  field.bind value?

/-- A field that is none when it is absent. -/
def absentOr? {α : Type} (value? : Json → Option α) : Option Json → Option (Option α)
  | none => some none
  | some j => optional? value? j

/-- A field that has a default. -/
def withDefault? {α : Type} (default : α) (value? : Json → Option α) : Option Json → Option α
  | none => some default
  | some j => value? j

end Json

open Json

/-! ### Places and markers -/

namespace Path

/-- A path is its text. -/
def encode (p : Path) : Json := str p.text

/-- A text as a path. -/
def decode? (j : Json) : Option Path := (string? j).map Path.mk

end Path

namespace Location

/-- A place is written with its path and its line. -/
def encode (l : Location) : Json := record [("path", l.path.encode), ("line", nat l.line)]

/-- A place; a line has to fit into 64 bits. -/
def decode? (j : Json) : Option Location := do
  match ← fields? ["path", "line"] j with
  | [path, line] => some ⟨← required? Path.decode? path, ← required? (natBelow? UInt64.size) line⟩
  | _ => none

end Location

namespace MarkerValue

/-- The four kinds of values. -/
inductive Tag where
  | str
  | typeRef
  | null
  | other
  deriving DecidableEq

/-- The word by which the kind of a marker's value is told. -/
def Tag.label : Tag → String
  | .str => "str"
  | .typeRef => "typeref"
  | .null => "null"
  | .other => "other"

/-- The kind that a word tells. -/
def Tag.decode? : Json → Option Tag := word? Tag.label [.str, .typeRef, .null, .other]

/-- A value of an argument is tagged with its kind; null has nothing but the tag. -/
def encode : MarkerValue → Json
  | .str s => record [("kind", Json.str "str"), ("value", Json.str s)]
  | .typeRef s => record [("kind", Json.str "typeref"), ("value", Json.str s)]
  | .null => record [("kind", Json.str "null")]
  | .other s => record [("kind", Json.str "other"), ("value", Json.str s)]

/-- The value of a kind with its content. -/
def ofContent? (content : Json) : Tag → Option MarkerValue
  | .str => (string? content).map .str
  | .typeRef => (string? content).map .typeRef
  | .other => (string? content).map .other
  | .null => match content with
    | .null => some .null
    | _ => none

/-- The kind and the content may come in either order; only null goes without content. -/
def decode? : Json → Option MarkerValue
  | .object members =>
    match namedFields? ["kind", "value"] members with
    | some [some tag, some content] => (Tag.decode? tag).bind (ofContent? content)
    | some [some tag, none] => (Tag.decode? tag).bind fun t => if t = .null then some .null else none
    | _ => none
  | .array [tag, content] => (Tag.decode? tag).bind (ofContent? content)
  | _ => none

end MarkerValue

namespace MarkerArg

/-- An argument is written with its key, null for none, and its value. -/
def encode (a : MarkerArg) : Json :=
  record [("key", strOrNull a.key), ("value", a.value.encode)]

/-- An argument; a positional one may leave the key out. -/
def decode? (j : Json) : Option MarkerArg := do
  match ← fields? ["key", "value"] j with
  | [key, value] => some ⟨← absentOr? string? key, ← required? MarkerValue.decode? value⟩
  | _ => none

end MarkerArg

/-- The place, or null for none. -/
def encodeOrigin : Option Location → Json
  | some l => l.encode
  | none => .null

namespace Marker

/-- A marker is written with its name as it stands in the source, its arguments and its place. -/
def encode (m : Marker) : Json :=
  record [("name", str m.name), ("args", .array (m.args.map MarkerArg.encode)),
    ("origin", encodeOrigin m.origin)]

/-- A marker; its place may be left out. -/
def decode? (j : Json) : Option Marker := do
  match ← fields? ["name", "args", "origin"] j with
  | [name, args, origin] =>
    some ⟨← required? string? name, ← required? (list? MarkerArg.decode?) args,
      ← absentOr? Location.decode? origin⟩
  | _ => none

end Marker

/-! ### Declarations -/

namespace DeclId

/-- An identity is its number. -/
def encode (id : DeclId) : Json := nat id.index.toNat

/-- An identity; its number has to fit into 32 bits. -/
def decode? (j : Json) : Option DeclId := (natBelow? UInt32.size j).map fun n => ⟨.ofNat n⟩

end DeclId

namespace TypeKind

/-- Every kind once. -/
def all : List TypeKind := [.classType, .recordType, .interfaceType, .enumType, .annotationType]

/-- A kind is its word. -/
def encode (k : TypeKind) : Json := str k.keyword

/-- The kind with the word. -/
def decode? : Json → Option TypeKind := word? keyword all

end TypeKind

namespace Declaration

/-- A declaration is written field by field. -/
def encode (d : Declaration) : Json :=
  record [("id", d.id.encode), ("name", str d.name), ("namespace", str d.space),
    ("enclosing", strings d.enclosing), ("kind", d.kind.encode), ("is_abstract", .bool d.isAbstract),
    ("markers", .array (d.markers.map Marker.encode)), ("origin", encodeOrigin d.origin)]

/-- The fields of a declaration in the order in which an array gives them. -/
def fieldNames : List String :=
  ["id", "name", "namespace", "enclosing", "kind", "is_abstract", "markers", "origin"]

/-- A declaration; only its place may be left out. -/
def decode? (j : Json) : Option Declaration := do
  match ← fields? fieldNames j with
  | [id, name, space, enclosing, kind, isAbstract, markers, origin] =>
    some {
      id := ← required? DeclId.decode? id
      name := ← required? string? name
      space := ← required? string? space
      enclosing := ← required? (list? string?) enclosing
      kind := ← required? TypeKind.decode? kind
      isAbstract := ← required? bool? isAbstract
      markers := ← required? (list? Marker.decode?) markers
      origin := ← absentOr? Location.decode? origin }
  | _ => none

end Declaration

/-! ### Diagnostics -/

namespace Severity

/-- A severity is its word. -/
def encode (s : Severity) : Json := str s.label

/-- The severity with the word. -/
def decode? : Json → Option Severity := word? label [.error, .warning]

end Severity

namespace DiagnosticCode

/-- A code is its stable name. -/
def encode (c : DiagnosticCode) : Json := str c.id

/-- The code with the stable name. -/
def decode? : Json → Option DiagnosticCode := word? id all

end DiagnosticCode

namespace Diagnostic

/-- A diagnostic is written with all it says, the severity included. -/
def encode (d : Diagnostic) : Json :=
  record [("code", d.code.encode), ("severity", d.severity.encode), ("message", str d.message),
    ("location", encodeOrigin d.location)]

/-- A diagnostic; whether the severity is that of the code is not asked. -/
def decode? (j : Json) : Option Diagnostic := do
  match ← fields? ["code", "severity", "message", "location"] j with
  | [code, severity, message, location] =>
    some ⟨← required? DiagnosticCode.decode? code, ← required? Severity.decode? severity,
      ← required? string? message, ← absentOr? Location.decode? location⟩
  | _ => none

end Diagnostic

/-! ### Route tables -/

/-- The routes as one object, each with its type or null. -/
def RouteTable.encode (t : RouteTable) : Json :=
  record [("routes", record (t.entries.map fun e => (e.1, strOrNull e.2)))]

/-! ### Settings -/

namespace MarkerNames

/-- The names of the markers, group by group. -/
def encode (n : MarkerNames) : Json :=
  record [("configuration", strings n.configuration), ("extra_route", strings n.extraRoute),
    ("ignore", strings n.ignore)]

/-- The names of the markers; a group that is left out has its default names. -/
def decode? (j : Json) : Option MarkerNames := do
  match ← leadingFields? ["configuration", "extra_route", "ignore"] j with
  | [configuration, extraRoute, ignore] =>
    some ⟨← withDefault? default.configuration (list? string?) configuration,
      ← withDefault? default.extraRoute (list? string?) extraRoute,
      ← withDefault? default.ignore (list? string?) ignore⟩
  | _ => none

end MarkerNames

namespace Config

/-- A configuration is written with all its fields, an output directory that is not set as null. -/
def encode (c : Config) : Json :=
  record [("markers", c.markers.encode), ("output_dir", strOrNull (c.outputDir.map Path.text)),
    ("exclude", .array (c.exclude.map Path.encode))]

/-- A configuration; every field that is left out has its default. -/
def decode? (j : Json) : Option Config := do
  match ← leadingFields? ["markers", "output_dir", "exclude"] j with
  | [markers, outputDir, exclude] =>
    some ⟨← withDefault? .default MarkerNames.decode? markers,
      ← withDefault? none (optional? Path.decode?) outputDir,
      ← withDefault? [] (list? Path.decode?) exclude⟩
  | _ => none

end Config

end RouteRegistry

/-
RouteRegistry/Emitter.lean

Emitters turn a route table into the text of one source unit; an `Output` holds
the units generated so far and a `Sink` decides whether it takes another.
-/
import RouteRegistry.Table
import RouteRegistry.Fault

namespace RouteRegistry

/-- Renders route tables in some target language. -/
structure Emitter where
  /-- The extension of the generated file, without the dot. -/
  extension : String
  /-- Names that cannot be route constants in the target language. -/
  reserved : List String
  render : (space : String) → RouteTable → Except Fault String

/-- The base name of the generated unit. -/
def unitName : String := "Routes"

/-- The name of the generated file, which tells that it is generated. -/
def Emitter.fileId (e : Emitter) : String := unitName ++ ".g." ++ e.extension

/-- A file of the output: its name and its text. -/
structure GeneratedFile where
  fileId : String
  text : String
  deriving DecidableEq, Inhabited

/-- Generated files in the order of their addition. -/
abbrev Output := List GeneratedFile

/-- The text of the file, if it is there. -/
def Output.text? (o : Output) (fileId : String) : Option String :=
  (o.find? fun f => f.fileId == fileId).map (·.text)

/-- Where generated files go. -/
inductive Sink where
  /-- Keeps every file, and refuses a second one under the same identity. -/
  | memory
  /-- Takes no file at all. -/
  | refusing (refusal : String → Refusal)

/-- The output with one more file.  A sink in memory takes no name twice; one that refuses says
why. -/
def Sink.add (s : Sink) (o : Output) (fileId text : String) : Except Refusal Output :=
  match s with
  | .memory =>
    if (Output.text? o fileId).isSome then
      .error (.invalidArgument ("source '" ++ fileId ++ "' was already added"))
    else .ok (o ++ [⟨fileId, text⟩])
  | .refusing refusal => .error (refusal fileId)

end RouteRegistry

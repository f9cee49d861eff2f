/-
RouteRegistry/Command.lean

The two commands of the program, as functions on a tree of files.

`generate` runs a pass and writes the generated class, or removes the one of an
earlier pass if this one generates nothing; `routes` prints the route table.
A command ends with an exit code, what it printed, and the tree as it leaves it.
-/
import RouteRegistry.Disk.Change
import RouteRegistry.Project.Pass
import RouteRegistry.Report

namespace RouteRegistry

/-- What `generate` is called with: a project, a directory to write to in place of the configured
one, a configuration file, and whether to write at all. -/
structure GenerateOptions where
  path : Path
  out : Option Path
  config : Option Path
  dryRun : Bool
  deriving DecidableEq, Inhabited

/-- What `routes` is called with: a project, a configuration file and the form of the list. -/
structure RoutesOptions where
  path : Path
  config : Option Path
  json : Bool
  deriving DecidableEq, Inhabited

/-- The commands of the program. -/
inductive Command where
  | generate (options : GenerateOptions)
  | routes (options : RoutesOptions)
  deriving DecidableEq, Inhabited

/-- The word that selects the command on the command line. -/
def Command.name : Command → String
  | .generate _ => "generate"
  | .routes _ => "routes"

/-- What ends a command early: what was tried, and the causes of its failure, outermost first. -/
structure CommandFailure where
  attempt : String
  causes : List String
  deriving DecidableEq, Inhabited

/-- How a command ends. -/
structure Ending where
  exitCode : UInt8
  stdout : String
  stderr : String
  disk : Disk
  deriving Inhabited

/-! ### Printing -/

/-- The text followed by a line feed. -/
def printed (text : String) : String := text ++ "\n"

namespace CommandFailure

/-- The failure of a pass that could not be run, with what the system or the file says of it. -/
def ofProject (f : ProjectFailure) : CommandFailure := ⟨f.attempt, f.failure.chain⟩

/-- An attempt on the disk that the system has refused. -/
def ofOs (attempt : String) (e : OsError) : CommandFailure := ⟨attempt, [e.message]⟩

/-- The text with `lead` in front, and further lines as far to the right. -/
def indented (lead text : String) : String :=
  let blanks := String.ofList (List.replicate lead.length ' ')
  lead ++ Text.joinWith ("\n" ++ blanks) ((Text.splitOn '\n' text.toList).map String.ofList)

/-- The causes line by line, counted if there are several. -/
def causeLines : List String → List String
  | [cause] => [indented "    " cause]
  | causes => (causes.zipIdx).map fun c =>
    indented (String.ofList (List.replicate (5 - (toString c.2).length) ' ') ++ toString c.2 ++ ": ") c.1

/-- What is printed of a failure: what was attempted, and below it the causes line by line. -/
def toText (f : CommandFailure) : String :=
  printed ("Error: " ++ f.attempt ++ "\n\nCaused by:\n" ++ Text.joinWith "\n" (causeLines f.causes))

/-- A command that failed prints nothing but the failure and leaves the disk as the attempt left
it. -/
def toEnding (f : CommandFailure) (d : Disk) : Ending := ⟨1, "", f.toText, d⟩

end CommandFailure

/-- The diagnostics of a pass, one to a line. -/
def diagnosticsText (p : ProjectPass) : String :=
  String.join (p.run.diagnostics.map fun d => printed d.toText)

/-- A pass with an error makes the command fail. -/
def exitCodeOf (p : ProjectPass) : UInt8 := if p.hasErrors then 1 else 0

/-! ### Generating -/

/-- A pass with what became of its output: the files written, or to be written on a dry run. -/
structure GenerateReport where
  pass : ProjectPass
  written : List Path

namespace GenerateReport

/-- A pass that generates nothing leaves no class of an earlier one behind. -/
def removeStale (d : Disk) (dir : Path) : Except CommandFailure Disk :=
  let stale := dir.join ⟨RoutesClass.emitter.fileId⟩
  if d.isFile stale then
    (d.remove stale).mapError (.ofOs ("failed to remove " ++ stale.text))
  else .ok d

/-- Writes the files into the directory, which is made if it is missing. -/
def writeAll (dir : Path) : List GeneratedFile → Disk → Disk × Option CommandFailure
  | [], d => (d, none)
  | f :: fs, d =>
    let target := dir.join ⟨f.fileId⟩
    let made := d.makeDirs dir
    match made.refusal with
    -- the directories made so far stay
    | some e => (made.disk, some (.ofOs ("failed to create " ++ dir.text) e))
    | none =>
      match made.disk.write target f.text with
      | .error e => (made.disk, some (.ofOs ("failed to write " ++ target.text) e))
      | .ok d => writeAll dir fs d

/-- What a finished pass does to the tree. -/
def settle (d : Disk) (o : GenerateOptions) (p : ProjectPass) : Disk × Option CommandFailure :=
  let dir := p.outputDir o.out
  if o.dryRun then (d, none)
  else if p.run.outcome.generated?.isSome then writeAll dir p.run.output d
  else
    match removeStale d dir with
    | .error f => (d, some f)
    | .ok d => (d, none)

/-- The files that the pass has for its output directory. -/
def targets (o : GenerateOptions) (p : ProjectPass) : List Path :=
  if p.run.outcome.generated?.isSome then
    p.run.output.map fun f => (p.outputDir o.out).join ⟨f.fileId⟩
  else []

/-- Runs the pass and does what it asks for, unless on a dry run. -/
def execute (d : Disk) (o : GenerateOptions) : Disk × Except CommandFailure GenerateReport :=
  match ProjectPass.execute d o.path o.config with
  | .error f => (d, .error (.ofProject f))
  | .ok pass =>
    match settle d o pass with
    -- what was done to the disk before the failure stays
    | (d, some f) => (d, .error f)
    | (d, none) => (d, .ok ⟨pass, targets o pass⟩)

/-- What is printed, beside the diagnostics, to the standard output and to the standard error. -/
def texts (r : GenerateReport) (o : GenerateOptions) : String × String :=
  match r.pass.run.outcome with
  | .notConfigured =>
    ("", printed ("No configuration marker found in " ++ o.path.text ++ "; nothing generated"))
  | .generated g =>
    if o.dryRun then
      (String.join (r.pass.run.output.map fun f => printed f.text),
        String.join (r.written.map fun p => printed ("Would write " ++ p.text)))
    else
      ("", String.join (r.written.map fun p =>
        printed ("Wrote " ++ p.text ++ " (" ++ toString g.table.size ++ " routes)")))
  | .missingSuffix | .degraded | .cancelled => ("", "")

end GenerateReport

/-- Writes the class of the project and says what was done; diagnostics go to the error output, in
front of the notes. -/
def GenerateOptions.run (o : GenerateOptions) (d : Disk) : Ending :=
  match GenerateReport.execute d o with
  | (d, .error f) => f.toEnding d
  | (d, .ok r) =>
    let (stdout, stderr) := r.texts o
    ⟨exitCodeOf r.pass, stdout, diagnosticsText r.pass ++ stderr, d⟩

/-! ### Showing the routes -/

/-- What `routes` prints on its two outputs: a report if there are routes, and a note if nothing is
configured. -/
def RoutesOptions.texts (o : RoutesOptions) (p : ProjectPass) : String × String :=
  match Report.ofOutcome? p.run.outcome with
  | some report => (printed (if o.json then report.encode.toPretty else report.toText), "")
  | none =>
    ("", if p.run.outcome = .notConfigured then
      printed ("No configuration marker found in " ++ o.path.text) else "")

/-- Lists the routes of the project and leaves the disk as it is. -/
def RoutesOptions.run (o : RoutesOptions) (d : Disk) : Ending :=
  match ProjectPass.execute d o.path o.config with
  | .error f => (CommandFailure.ofProject f).toEnding d
  | .ok p =>
    let (stdout, stderr) := o.texts p
    ⟨exitCodeOf p, stdout, diagnosticsText p ++ stderr, d⟩

/-- Every command takes the disk to an exit status, two texts and a disk. -/
def Command.run : Command → Disk → Ending
  | .generate o, d => o.run d
  | .routes o, d => o.run d

end RouteRegistry

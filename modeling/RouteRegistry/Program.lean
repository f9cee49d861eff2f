/-
RouteRegistry/Program.lean

The program as a function of its command line and of the tree of files.
-/
import RouteRegistry.Command.Line

namespace RouteRegistry.Program

/-- The name by which the program refers to itself. -/
def name : String := "routegen"

/-- What the program prints when it is asked for its version. -/
def versionText : String := printed (name ++ " 0.1.0")

/-- What the program prints when it is asked for help, at any level. -/
def helpText : String :=
  String.join (["Generate a typed route registry for Java UI projects",
    "",
    "Usage: " ++ name ++ " [OPTIONS] generate <PROJECT_PATH> [--out <DIR>] [--config <FILE>] [--dry-run]",
    "       " ++ name ++ " [OPTIONS] routes <PROJECT_PATH> [--config <FILE>] [--json]",
    "",
    "Options:",
    "  --log-dir <DIR>      Directory for daily log files",
    "  --log-level <LEVEL>  Default level of detail of the log",
    "  -h, --help           Print help",
    "  -V, --version        Print version"].map printed)

/-- Makes the log file of the day when the command begins. -/
def openLog (today : String) (i : Invocation) (d : Disk) : Disk × Option OsError :=
  match i.logDir with
  | none => (d, none)
  | some dir =>
    let made := (d.makeDirs dir).disk
    match made.touch (dir.join ⟨i.command.name ++ "." ++ today⟩) with
    | .ok opened => (opened, none)
    | .error e => (made, some e)

/-- A log file that cannot be opened stops the program before the command. -/
def invoke (today : String) (i : Invocation) (d : Disk) : Ending :=
  match openLog today i d with
  | (d, some e) => ⟨101, "", printed ("initializing the log file failed: " ++ e.message), d⟩
  | (d, none) => i.command.run d

/-- Runs the command line on the tree; log files are named for the day. -/
def run (today : String) (args : List String) (d : Disk) : Ending :=
  match CommandLine.read args with
  | .misuse => ⟨2, "", "", d⟩
  | .help => ⟨0, helpText, "", d⟩
  | .version => ⟨0, versionText, "", d⟩
  | .invoke i => invoke today i d

end RouteRegistry.Program

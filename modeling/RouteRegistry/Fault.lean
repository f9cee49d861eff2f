/-
RouteRegistry/Fault.lean

The ways a step can fail.

* `Failure` is an expected failure, of one of seven categories.
* `Refusal` is what a receiver of generated files answers instead of taking one.
* `Fault` is a failure, or a crash of code that a host supplied.
-/

namespace RouteRegistry

/-- A failure with its category and what is known about its cause. -/
inductive Failure where
  | io (cause : String)
  | json (cause : String)
  | parsing (cause : String)
  | config (cause : String)
  | unresolved (cause : String)
  | emit (cause : String)
  | internal (cause : String)
  deriving DecidableEq, Inhabited

namespace Failure

/-- The name of the failure's group, as the diagnostic of a fault quotes it. -/
def category : Failure → String
  | .io _ => "Io"
  | .json _ => "Json"
  | .parsing _ => "Parsing"
  | .config _ => "Config"
  | .unresolved _ => "Unresolved"
  | .emit _ => "Emit"
  | .internal _ => "Internal"

/-- The failure in words: its group and its cause. -/
def message : Failure → String
  | .io cause => "I/O error: " ++ cause
  | .json cause => "JSON serialization/deserialization error: " ++ cause
  | .parsing cause => "Parsing error: " ++ cause
  | .config cause => "Configuration error: " ++ cause
  | .unresolved cause => "Unresolved type: " ++ cause
  | .emit cause => "Emit error: " ++ cause
  | .internal cause => "Internal error: " ++ cause

/-- The messages of the failure and of what caused it, outermost first. -/
def chain (f : Failure) : List String :=
  match f with
  | .io cause | .json cause => [f.message, cause]
  | _ => [f.message]

end Failure

/-- Why a receiver of generated files did not take one. -/
inductive Refusal where
  | invalidArgument (cause : String)
  | io (cause : String)
  deriving DecidableEq, Inhabited

namespace Refusal

/-- The refusal in words. -/
def message : Refusal → String
  | .invalidArgument cause => "Invalid argument: " ++ cause
  | .io cause => "I/O error: " ++ cause

/-- A receiver's I/O failure stays one; any other refusal is a failure to emit. -/
def toFailure : Refusal → Failure
  | .io cause => .io cause
  | r => .emit r.message

end Refusal

/-- What ends a pass early. -/
inductive Fault where
  | failure (f : Failure)
  | crash (message : String)
  deriving DecidableEq, Inhabited

namespace Fault

/-- A crash has a group of its own. -/
def category : Fault → String
  | .failure f => f.category
  | .crash _ => "Panic"

/-- The fault in words; a crash speaks for itself. -/
def message : Fault → String
  | .failure f => f.message
  | .crash m => m

end Fault

end RouteRegistry

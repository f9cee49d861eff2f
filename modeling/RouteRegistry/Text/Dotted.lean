/-
RouteRegistry/Text/Dotted.lean

Dotted names such as `app.views.HomePage`: joining segments, the last segment,
and the split at the first dot.
-/
import RouteRegistry.Text.Blank

namespace RouteRegistry

/-- The segments joined by dots. -/
def dotted (segments : List String) : String := Text.joinWith "." segments

/-- The text after the last dot, the whole text if there is none. -/
def lastSegment (name : String) : String :=
  String.ofList (name.toList.reverse.takeWhile (· ≠ '.')).reverse

/-- The texts before and after the first dot. -/
def splitAtDot? (name : String) : Option (String × String) :=
  match name.toList.dropWhile (· ≠ '.') with
  | [] => none
  | _ :: tail => some (String.ofList (name.toList.takeWhile (· ≠ '.')), String.ofList tail)

/-- The dotted name of `segments` inside `space`, which adds nothing when it is empty. -/
def qualify (space : String) (segments : List String) : String :=
  dotted (if space = "" then segments else space :: segments)

end RouteRegistry

/-
RouteRegistry/Disk/Difference.lean

What has to be done to one tree to make it another.
-/
import RouteRegistry.Disk

namespace RouteRegistry

/-- A single change to a tree, as the operating system offers it. -/
inductive Change where
  | makeDir (place : Place)
  | write (place : Place) (content : ByteArray)
  | remove (place : Place)
  deriving DecidableEq, Inhabited

namespace Disk

/-- The change that gives the place the node, if it is another than before. -/
def changeTo? (before : Option Node) (place : Place) (after : Node) : Option Change :=
  if before = some after then none
  else
    match after with
    | .dir => some (.makeDir place)
    | .file content => some (.write place content)
    | .link _ => none

/-- The changes that lead from the one tree to the other: what is gone, then what is new or other
than it was, directories before what they hold. -/
def changes (before after : Disk) : List Change :=
  (before.nodes.filterMap fun e => if (after.node? e.1).isNone then some (.remove e.1) else none) ++
  (after.nodes.mergeSort fun a b => a.1.length ≤ b.1.length).filterMap fun e =>
    changeTo? (before.node? e.1) e.1 e.2

end Disk

end RouteRegistry

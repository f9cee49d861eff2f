/-
RouteRegistry/Path.lean

File paths as text, and the parts a path is made of.

A path is kept as it was written, because it is shown that way; it is compared
by its `components`, which drop repeated and trailing separators and every `.`
but a leading one.  `Path.startsWith` therefore never confuses `build` with
`builder`, and `Path.precedes` orders `a/z` before `a-b/x`.
-/
import RouteRegistry.Text.Blank

namespace RouteRegistry

/-- A path as it is written; nothing is taken out of it before a walk. -/
structure Path where
  text : String
  deriving DecidableEq, Inhabited

/-- One step of a path. -/
inductive Component where
  | root
  | here
  | up
  | name (text : String)
  deriving DecidableEq, Inhabited

namespace Path

/-! ### Components -/

/-- The path begins at the root. -/
def isAbsolute (p : Path) : Bool := p.text.toList.head? = some '/'

/-- The component a piece between separators stands for, if it stands for any. -/
def componentOf? (piece : List Char) : Option Component :=
  if piece = [] then none
  else if piece = ['.'] then none
  else if piece = ['.', '.'] then some .up
  else some (.name (String.ofList piece))

/-- The steps of the path.  An absolute path begins with `root`, and a leading `.` counts. -/
def components (p : Path) : List Component :=
  let pieces := Text.splitOn '/' p.text.toList
  let lead := if p.isAbsolute then [.root] else if pieces.head? = some ['.'] then [.here] else []
  lead ++ pieces.filterMap componentOf?

/-- Every component of `p` begins those of `q`. -/
def startsWith (q p : Path) : Bool := p.components.isPrefixOf q.components

/-! ### Parts of the last component -/

/-- The last component, if it is a name. -/
def fileName? (p : Path) : Option String :=
  match p.components.getLast? with
  | some (.name text) => some text
  | _ => none

/-- The text after the last dot of the file name, unless the name begins with its only dot. -/
def extension? (p : Path) : Option String := do
  let name ← p.fileName?
  let tail := name.toList.reverse.takeWhile (· ≠ '.')
  match name.toList.reverse.drop tail.length with
  | [] | [_] => none
  | _ => some (String.ofList tail.reverse)

/-! ### Building paths -/

/-- The path `q` below `p`; an absolute `q` stands for itself. -/
def join (p q : Path) : Path :=
  if q.isAbsolute then q
  else if p.text = "" ∨ p.text.toList.getLast? = some '/' then ⟨p.text ++ q.text⟩
  else ⟨p.text ++ "/" ++ q.text⟩

/-- The path of what the names lead to from `p`. -/
def below (p : Path) (names : List String) : Path := names.foldl (fun q n => q.join ⟨n⟩) p

/-- The relative path of the names. -/
def ofNames (names : List String) : Path := ⟨Text.joinWith "/" names⟩

/-- What a component adds to the text of a path; the root adds nothing in front of its separator. -/
def componentText : Component → String
  | .root => ""
  | .here => "."
  | .up => ".."
  | .name text => text

/-- The path of the components. -/
def ofComponents : List Component → Path
  | [.root] => ⟨"/"⟩
  | cs => ofNames (cs.map componentText)

/-- The path without its last component. -/
def parent (p : Path) : Path := ofComponents p.components.dropLast

/-! ### Order -/

/-- Lexicographic order of two lists under a strict order on their elements. -/
def listPrecedes {α : Type} (lt : α → α → Bool) : List α → List α → Bool
  | _, [] => false
  | [], _ :: _ => true
  | a :: as, b :: bs => lt a b || (!lt b a && listPrecedes lt as bs)

/-- The bytes of a component's name; a step that is no name has none. -/
def nameBytes : Component → List UInt8
  | .name text => text.toUTF8.toList
  | _ => []

/-- Component-wise order of paths, names compared byte by byte. -/
def precedes (p q : Path) : Bool :=
  listPrecedes (fun a b => listPrecedes (fun x y => decide (x < y)) (nameBytes a) (nameBytes b))
    p.components q.components

end Path

end RouteRegistry

/-
RouteRegistry/Disk.lean

A tree of files, directories and symbolic links, and how a path is walked in it.

A `Place` is the list of names from the root of the tree down to a node, free of
links, so every node stands at one place and what happens at one place leaves
all others as they are.  A `Path` leads to a place: `Disk.walk` follows it step
by step, through links, of which it passes at most forty.
-/
import RouteRegistry.Path

namespace RouteRegistry

/-- The names from the root of the tree down to a node. -/
abbrev Place := List String

/-- Contents are compared byte by byte. -/
instance instDecidableEqContent : DecidableEq ByteArray := ByteArray.instDecidableEq

/-- What can stand at a place: a file, a symbolic link with what it points to, or a directory. -/
inductive Node where
  | file (content : ByteArray)
  | link (target : Path)
  | dir
  deriving DecidableEq, Inhabited

/-- Why the system refuses to do something with a path. -/
inductive OsError where
  | notFound
  | alreadyExists
  | notDirectory
  | isDirectory
  | tooManyLinks
  | nameTooLong
  /-- A path holds the character that ends a path. -/
  | nulCharacter
  /-- The bytes of a file are no UTF-8. -/
  | notText
  deriving DecidableEq, Inhabited

/-- The message of the operating system, as a failed command prints it. -/
def OsError.message : OsError → String
  | .notFound => "No such file or directory (os error 2)"
  | .alreadyExists => "File exists (os error 17)"
  | .notDirectory => "Not a directory (os error 20)"
  | .isDirectory => "Is a directory (os error 21)"
  | .tooManyLinks => "Too many levels of symbolic links (os error 40)"
  | .nameTooLong => "File name too long (os error 36)"
  | .nulCharacter => "file name contained an unexpected NUL byte"
  | .notText => "stream did not contain valid UTF-8"

/-- The nodes of a tree below its root, and the directory that relative paths start from. -/
structure Disk where
  nodes : List (Place × Node)
  workDir : Place
  deriving DecidableEq, Inhabited

/-! ### The steps of a path -/

namespace Path

/-- The step that a piece between separators stands for. -/
def stepOf? (piece : List Char) : Option Component :=
  if piece = ['.'] then some .here else componentOf? piece

/-- The steps a walk takes.  Unlike a path's components they include each `.`, and a separator at
the end counts as one: both ask for a directory. -/
def steps (p : Path) : List Component :=
  let pieces := Text.splitOn '/' p.text.toList
  (if p.isAbsolute then [.root] else []) ++ pieces.filterMap stepOf? ++
    (if pieces.getLast? = some [] then [.here] else [])

/-- The most bytes that one name may have. -/
def maxNameSize : Nat := 255

/-- The most bytes that a path may have. -/
def maxSize : Nat := 4095

/-- Why no walk along the path can begin, wherever it would lead. -/
def refusal? (p : Path) : Option OsError :=
  if '\x00' ∈ p.text.toList then some .nulCharacter
  else if p.text = "" then some .notFound
  else if p.text.utf8ByteSize > maxSize then some .nameTooLong
  else none

end Path

/-! ### Walking -/

/-- Where a walk ends. -/
inductive Spot where
  /-- At a node, which is no link. -/
  | taken (place : Place) (node : Node)
  /-- At a place in a directory where nothing stands. -/
  | free (place : Place)
  deriving DecidableEq, Inhabited

namespace Disk

/-- What stands at the place.  The root is always a directory, whatever is listed. -/
def node? (d : Disk) (p : Place) : Option Node :=
  if p = [] then some .dir else d.nodes.lookup p

/-- Takes the steps from the directory `here`; at a link it goes on by `pass`, with the link's
steps in front of those that are left. -/
def follow (d : Disk) (pass : Place → List Component → Except OsError Spot) :
    Place → List Component → Except OsError Spot
  | here, [] => .ok (.taken here .dir)
  | _, .root :: rest => d.follow pass [] rest
  | here, .here :: rest => d.follow pass here rest
  -- above the root is the root
  | here, .up :: rest => d.follow pass here.dropLast rest
  | here, .name n :: rest =>
    if n.utf8ByteSize > Path.maxNameSize then .error .nameTooLong
    else match d.node? (here ++ [n]) with
    | some .dir => d.follow pass (here ++ [n]) rest
    | some (.link target) => pass here (target.steps ++ rest)
    | some (.file content) =>
      if rest = [] then .ok (.taken (here ++ [n]) (.file content)) else .error .notDirectory
    | none => if rest = [] then .ok (.free (here ++ [n])) else .error .notFound

/-- A walk that passes at most `n` links. -/
def walk (d : Disk) : (n : Nat) → Place → List Component → Except OsError Spot
  | 0 => d.follow fun _ _ => .error .tooManyLinks
  | n + 1 => d.follow (d.walk n)

/-- How many links one walk passes at most. -/
def maxLinks : Nat := 40

/-- Where the steps lead from a directory. -/
def spotBelow (d : Disk) (base : Place) (steps : List Component) : Except OsError Spot :=
  d.walk maxLinks base steps

/-- Where the path leads; the empty path leads nowhere. -/
def spot (d : Disk) (p : Path) : Except OsError Spot :=
  match p.refusal? with
  | some e => .error e
  | none => d.spotBelow d.workDir p.steps

/-! ### Looking -/

/-- What a walk finds, if it ends at a node. -/
def found (r : Except OsError Spot) : Except OsError (Place × Node) :=
  match r with
  | .error e => .error e
  | .ok (.free _) => .error .notFound
  | .ok (.taken place node) => .ok (place, node)

/-- The place of the directory that the path leads to. -/
def dirPlace? (d : Disk) (p : Path) : Option Place :=
  match d.spot p with
  | .ok (.taken place .dir) => some place
  | _ => none

/-- The path ends at a directory, possibly through links. -/
def isDir (d : Disk) (p : Path) : Bool := (d.dirPlace? p).isSome

/-- Whether a walk ends at a file. -/
def endsAtFile (r : Except OsError Spot) : Bool :=
  match r with
  | .ok (.taken _ (.file _)) => true
  | _ => false

/-- The path ends at a file, possibly through links. -/
def isFile (d : Disk) (p : Path) : Bool := endsAtFile (d.spot p)

/-- Whether something stands where the names lead from the directory. -/
def existsBelow (d : Disk) (base : Place) (names : List String) : Bool :=
  match d.spotBelow base (names.map .name) with
  | .ok (.taken _ _) => true
  | _ => false

/-! ### Reading -/

/-- The content of the file that a walk ends at; a directory has none. -/
def contentOf (r : Except OsError Spot) : Except OsError ByteArray :=
  match found r with
  | .error e => .error e
  | .ok (_, .file content) => .ok content
  | .ok _ => .error .isDirectory

/-- The content as text; the bytes have to be UTF-8. -/
def textOf (content : ByteArray) : Except OsError String :=
  match String.fromUTF8? content with
  | some text => .ok text
  | none => .error .notText

/-- The bytes of the file where the names lead from the directory. -/
def contentBelow (d : Disk) (base : Place) (names : List String) : Except OsError ByteArray :=
  contentOf (d.spotBelow base (names.map .name))

/-- The text of the file at the path. -/
def readText (d : Disk) (p : Path) : Except OsError String :=
  match contentOf (d.spot p) with
  | .error e => .error e
  | .ok content => textOf content

end Disk

end RouteRegistry

/-
RouteRegistry/Disk/Change.lean

Changing a tree of files: making directories, writing files, removing them.

Every change comes down to `Disk.put` and `Disk.erase`, which touch one place
(`node?_put`, `node?_erase`).  A change that is refused gives the reason and no
tree.
-/
import RouteRegistry.Disk

namespace RouteRegistry

namespace Disk

/-! ### One place -/

/-- Lets the node stand at the place, whatever stood there. -/
def put (d : Disk) (p : Place) (n : Node) : Disk :=
  { d with nodes := (p, n) :: d.nodes.filter fun e => e.1 != p }

/-- Lets nothing stand at the place. -/
def erase (d : Disk) (p : Place) : Disk :=
  { d with nodes := d.nodes.filter fun e => e.1 != p }

/-- Looking up in the entries whose place is chosen. -/
theorem lookup_filter_fst (keep : Place → Bool) (q : Place) (nodes : List (Place × Node)) :
    (nodes.filter fun e => keep e.1).lookup q = if keep q then nodes.lookup q else none := by
  induction nodes with
  | nil => simp
  | cons e rest ih =>
    obtain ⟨p, n⟩ := e
    by_cases hq : q = p
    · subst hq
      cases hk : keep q
      · simpa [hk] using ih
      · simp [hk]
    · have hne : (q == p) = false := beq_eq_false_iff_ne.2 hq
      cases hk : keep p <;> simp [hk, List.lookup_cons, hne, ih]

/-- What stands at the place is the node, and all else is as it was. -/
theorem node?_put (d : Disk) {p : Place} (hp : p ≠ []) (n : Node) (q : Place) :
    (d.put p n).node? q = if q = p then some n else d.node? q := by
  by_cases hq : q = p
  · subst hq
    simp [put, node?, hp]
  · have hne : (q == p) = false := beq_eq_false_iff_ne.2 hq
    simp [put, node?, hq, List.lookup_cons, hne, lookup_filter_fst fun r => r != p]

/-- Taking a node away is seen at its place only. -/
theorem node?_erase (d : Disk) {p : Place} (hp : p ≠ []) (q : Place) :
    (d.erase p).node? q = if q = p then none else d.node? q := by
  by_cases hq : q = p
  · subst hq
    simp [erase, node?, hp, lookup_filter_fst fun r => r != q]
  · simp [erase, node?, hq, lookup_filter_fst fun r => r != p]

/-! ### Directories -/

/-- The place that the last name of the steps stands for, itself not followed. -/
def target (d : Disk) (p : Path) (steps : List Component) : Except OsError (Option Place) :=
  -- the last step is not walked, so a link there is not followed
  match p.refusal?, found (d.spotBelow d.workDir steps.dropLast) with
  | some e, _ | none, .error e => .error e
  | none, .ok (_, .file _) | none, .ok (_, .link _) => .error .notDirectory
  | none, .ok (place, .dir) =>
    match steps.getLast? with
    | some (.name n) =>
      if n.utf8ByteSize > Path.maxNameSize then .error .nameTooLong else .ok (some (place ++ [n]))
    | _ => .ok none

/-- The steps of the path without the separators at its end. -/
def untrailed (p : Path) : List Component :=
  Path.steps ⟨String.ofList (p.text.toList.reverse.dropWhile (· = '/')).reverse⟩

/-- Makes one directory, where nothing stands yet and the directory above is there. -/
def makeDir (d : Disk) (p : Path) : Except OsError Disk :=
  match d.target p (untrailed p) with
  | .error e => .error e
  | .ok none => .error .alreadyExists
  | .ok (some place) =>
    match d.node? place with
    | some _ => .error .alreadyExists
    | none => .ok (d.put place .dir)

/-- A tree after a change of several steps, of which the last may have been refused. -/
structure Attempt where
  disk : Disk
  refusal : Option OsError

/-- Makes the first directory; those that follow in the list are the ones above it, which are made
as far as they are missing. -/
def makeChain (d : Disk) : List Path → Attempt
  | [] => ⟨d, none⟩
  | p :: above =>
    -- a refusal does not count if the directory is there
    let settle (d : Disk) (e : OsError) : Attempt := ⟨d, if d.isDir p then none else some e⟩
    match d.makeDir p with
    | .ok made => ⟨made, none⟩
    -- a directory above is missing: they are made first, and this one is tried once more
    | .error .notFound =>
      match d.makeChain above with
      | ⟨d, some e⟩ => ⟨d, some e⟩
      | ⟨d, none⟩ =>
        match d.makeDir p with
        | .ok made => ⟨made, none⟩
        | .error e => settle d e
    | .error e => settle d e

/-- The path and the directories above it, innermost first. -/
def chain (p : Path) : List Path :=
  p :: (List.range (p.components.length - 1)).reverse.map fun n =>
    Path.ofComponents (p.components.take (n + 1))

/-- Makes the directory, with the directories above it that are missing. -/
def makeDirs (d : Disk) (p : Path) : Attempt :=
  if p.text = "" then ⟨d, none⟩ else d.makeChain (chain p)

/-! ### Files -/

/-- Writes the text to the file, which is made if nothing stands there. -/
def write (d : Disk) (p : Path) (text : String) : Except OsError Disk :=
  match d.spot p with
  | .error e => .error e
  | .ok (.taken place (.file _)) | .ok (.free place) => .ok (d.put place (.file text.toUTF8))
  | .ok (.taken _ _) => .error .isDirectory

/-- Makes an empty file, unless one is there. -/
def touch (d : Disk) (p : Path) : Except OsError Disk :=
  match d.spot p with
  | .ok (.taken _ (.file _)) => .ok d
  | _ => d.write p ""

/-- Removes the file, or the link itself if one stands there. -/
def remove (d : Disk) (p : Path) : Except OsError Disk :=
  match d.target p p.steps with
  | .error e => .error e
  | .ok none => .error .isDirectory
  | .ok (some place) =>
    match d.node? place with
    | none => .error .notFound
    | some .dir => .error .isDirectory
    | some _ => .ok (d.erase place)

end Disk

end RouteRegistry

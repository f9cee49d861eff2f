/-
RouteRegistry/Proofs/Disk/Ground.lean

Which file a walk finds after a change at another place.

A walk that found a file finds it still.  One that found none may find one later
only if it climbs out of a directory that was missing, so the file at the end is
the same for steps that stay on the ground (`Disk.Grounded`); plain names always
do.

Main result (`Touched.leads_file_iff`): whatever a change touches, such a walk
finds the same file before and after, unless this is the touched one.
-/
import RouteRegistry.Proofs.Disk.Writing

namespace RouteRegistry.Disk

variable {d d' : Disk} {here p q : Place} {steps : List Component} {ps : List Path}

/-! ### Files at the end of a walk -/

/-- The content of the file that the steps lead to from a directory. -/
def fileBelow? (d : Disk) (base : Place) (steps : List Component) : Option ByteArray :=
  (contentOf (d.spotBelow base steps)).toOption

/-- There is a content just where a walk ends at a file. -/
theorem contentOf_toOption_eq_some_iff {r : Except OsError Spot} {content : ByteArray} :
    (contentOf r).toOption = some content ↔ ∃ q, r = .ok (.taken q (.file content)) := by
  unfold contentOf found
  rcases r with e | ⟨q, ⟨c⟩ | target | -⟩ | q
  case ok.taken.file => simp [Except.toOption]
  all_goals exact ⟨nofun, nofun⟩

/-- A file is found below a place by a walk that leads there. -/
theorem fileBelow?_eq_some_iff (t : d.IsTree) {content : ByteArray} :
    d.fileBelow? here steps = some content ↔
      ∃ q, d.Leads here steps (.taken q (.file content)) := by
  unfold fileBelow?
  rw [contentOf_toOption_eq_some_iff]
  simp only [t.spotBelow_eq_ok_iff]

/-- To end at a file and to have a content is the same. -/
theorem endsAtFile_eq (r : Except OsError Spot) :
    endsAtFile r = (contentOf r).toOption.isSome := by
  rcases r with e | ⟨q, ⟨c⟩ | target | -⟩ | q <;> rfl

/-- A name exists in a directory if it is short enough to be asked for and a node has it. -/
theorem existsBelow_iff (t : d.IsTree) {dir : Place} {n : String} :
    d.existsBelow dir [n] = true ↔
      n.utf8ByteSize ≤ Path.maxNameSize ∧ d.node? (dir ++ [n]) ≠ none := by
  unfold existsBelow
  constructor
  · intro h
    split at h
    case h_1 q x hq =>
      cases t.spotBelow_eq_ok_iff.1 hq with
      | down size hdir _ => exact ⟨size, by rw [hdir]; nofun⟩
      | last size _ e => exact ⟨size, by rw [(spotAt_eq_taken_iff.1 e.symm).2]; nofun⟩
    case h_2 => cases h
  · rintro ⟨size, h⟩
    obtain ⟨x, hx⟩ := Option.ne_none_iff_exists'.1 h
    -- a directory is walked into, anything else is where the walk ends
    have walk : d.Leads dir ([n].map .name) (.taken (dir ++ [n]) x) := by
      by_cases hdir : x = .dir
      · subst hdir
        exact .down size hx .stop
      · exact .last size (fun e => hdir (Option.some.inj (hx.symm.trans e)))
          (spotAt_eq_taken_iff.2 ⟨rfl, hx⟩).symm
    rw [t.spotBelow_eq_ok_iff.2 walk]

/-- The content at a path is what a walk from the working directory finds. -/
theorem fileAt?_eq (d : Disk) (path : Path) :
    (contentOf (d.spot path)).toOption =
      if path.refusal? = none then d.fileBelow? d.workDir path.steps else none := by
  unfold spot fileBelow?
  rcases path.refusal? with - | e
  · rw [if_pos rfl]
  · rw [if_neg nofun]; rfl

/-! ### Steps that stay on the ground -/

/-- The steps climb out of directories only: from the first name on that is no directory, they go
down. -/
def Grounded (d : Disk) : Place → List Component → Prop
  | _, [] => True
  | _, .root :: rest => d.Grounded [] rest
  | here, .here :: rest => d.Grounded here rest
  | here, .up :: rest => d.Grounded here.dropLast rest
  | here, .name n :: rest =>
    if d.node? (here ++ [n]) = some .dir then d.Grounded (here ++ [n]) rest
    else ∀ c ∈ rest, c ≠ .root ∧ c ≠ .up

/-- Steps that are names alone never climb. -/
theorem grounded_names (d : Disk) (here : Place) (names : List String) :
    d.Grounded here (names.map .name) := by
  induction names generalizing here with
  | nil => trivial
  | cons n names ih =>
    rw [List.map_cons, Grounded]
    split
    · exact ih _
    · intro c hc
      obtain ⟨m, -, rfl⟩ := List.mem_map.1 hc
      exact ⟨nofun, nofun⟩

/-- A walk that is grounded stays so when it goes on from a directory. -/
theorem Leads.grounded_append {b : List Component} (h : d.Leads here steps (.taken q .dir))
    (hb : d.Grounded q b) : d.Grounded here (steps ++ b) := by
  generalize hs : Spot.taken q .dir = s at h
  induction h with
  | stop => obtain ⟨rfl, -⟩ := Spot.taken.inj hs; exact hb
  | root _ ih => exact ih hs
  | here _ ih => exact ih hs
  | up _ ih => exact ih hs
  | down _ hdir _ ih =>
    rw [List.cons_append, Grounded, if_pos hdir]
    exact ih hs
  | last _ hdir e => exact absurd (spotAt_eq_taken_iff.1 (hs.trans e).symm).2 hdir

/-! ### One file other than the touched one -/

namespace Touched

/-- What a walk found that is not the touched file, it still finds. -/
theorem leads_file (T : Touched ps p d d') {content : ByteArray}
    (h : d.Leads here steps (.taken q (.file content))) (hq : q ≠ p) :
    d'.Leads here steps (.taken q (.file content)) := by
  have before := h.getLast?_of_file.1
  have after : d'.node? q = some (.file content) := by
    rw [T.node?_of_ne_none hq (by rw [before]; nofun), before]
  have moved : d'.Leads here steps (d'.spotAt q) :=
    h.moved T.hasDirsOf nofun (by show d'.node? q ≠ _; rw [after]; nofun)
  rwa [spotAt_eq_taken_iff.2 ⟨rfl, after⟩] at moved

/-- A walk that stays on the ground and ends by another name finds the same file. -/
theorem leads_file_iff (T : Touched ps p d d') (t : d.IsTree) (ground : d.Grounded here steps)
    (away : ∀ n, steps.getLast? = some (.name n) → p.getLast? ≠ some n) {content : ByteArray} :
    d'.Leads here steps (.taken q (.file content)) ↔
      d.Leads here steps (.taken q (.file content)) := by
  have elsewhere : ∀ {e : Disk}, e.Leads here steps (.taken q (.file content)) → q ≠ p := by
    rintro e h rfl
    obtain ⟨-, n, hn, hq⟩ := h.getLast?_of_file
    exact away n hn hq
  constructor
  · intro h
    -- what is a file afterwards was one before, unless it is the touched one
    have before : d.node? q = some (.file content) := by
      have hq := h.getLast?_of_file.1
      rcases T.nodes q (elsewhere h) with same | ⟨-, made⟩
      · rw [← same, hq]
      · rw [hq] at made; cases made
    clear away elsewhere
    generalize hs : Spot.taken q (.file content) = s at h ⊢
    induction h with
    | stop => cases hs
    | root _ ih => exact .root (ih ground hs)
    | here _ ih => exact .here (ih ground hs)
    | up _ ih => exact .up (ih ground hs)
    | @down here n rest s size hdir below ih =>
      rw [Grounded] at ground
      split at ground
      case isTrue hdir' => exact .down size hdir' (ih ground hs)
      case isFalse hdir' =>
        -- a new directory holds nothing that stood in the tree before
        subst hs
        exfalso
        obtain ⟨names, hnames⟩ := below.isPrefix ground
        have hne : names ≠ [] := by
          rintro rfl
          rw [List.append_nil] at hnames
          have file := below.getLast?_of_file.1
          rw [show q = here ++ [n] from hnames.symm, hdir] at file
          cases file
        refine hdir' (t.above_append _ hne ?_)
        rw [show here ++ [n] ++ names = q from hnames, before]
        exact Option.some_ne_none _
    | @last here n s size hdir e =>
      obtain ⟨rfl, -⟩ := spotAt_eq_taken_iff.1 (hs.trans e).symm
      rw [← hs]
      exact .last size (by rw [before]; nofun) (spotAt_eq_taken_iff.2 ⟨rfl, before⟩).symm
  · exact fun h => T.leads_file h (elsewhere h)

/-- A change elsewhere is not seen by a walk that cannot go through it. -/
theorem fileBelow?_eq (T : Touched ps p d d') (t : d.IsTree) (ground : d.Grounded here steps)
    (away : ∀ n, steps.getLast? = some (.name n) → p.getLast? ≠ some n) :
    d'.fileBelow? here steps = d.fileBelow? here steps := by
  refine Option.ext fun content => ?_
  rw [fileBelow?_eq_some_iff T.tree, fileBelow?_eq_some_iff t]
  exact exists_congr fun q => T.leads_file_iff t ground away

end Touched

end RouteRegistry.Disk

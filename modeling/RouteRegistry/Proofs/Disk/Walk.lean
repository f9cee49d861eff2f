/-
RouteRegistry/Proofs/Disk/Walk.lean

Walks in a tree without links.

There a walk ends where its steps say (`Place.after`), if it ends at all:
`Disk.Leads` lists the steps it takes, and `IsTree.spotBelow_eq_ok_iff` says that
a walk takes no others.

* `Leads.split` and `Leads.append`: a walk along two lists of steps passes a
  directory.
* `Leads.of_dirs`: it still gets to a directory when more of these are made.
* `Leads.moved`: it still gets to the same place, whatever stands there then,
  as long as no directory is taken away.
-/
import Mathlib.Data.List.Induction
import RouteRegistry.Disk

namespace RouteRegistry

/-! ### Places without links -/

/-- Where the steps lead from a directory if no link is on their way. -/
def Place.after : Place → List Component → Place
  | here, [] => here
  | _, .root :: rest => after [] rest
  | here, .here :: rest => after here rest
  | here, .up :: rest => after here.dropLast rest
  | here, .name n :: rest => after (here ++ [n]) rest

/-- Steps are taken one part after the other. -/
theorem Place.after_append (here : Place) (a b : List Component) :
    after here (a ++ b) = after (after here a) b := by
  induction a generalizing here with
  | nil => rfl
  | cons c a ih => cases c <;> exact ih _

/-- Names lead downwards, one level each. -/
theorem Place.after_names (here : Place) (names : List String) :
    after here (names.map .name) = here ++ names := by
  induction names generalizing here with
  | nil => exact (List.append_nil here).symm
  | cons n names ih =>
    show after (here ++ [n]) (names.map .name) = _
    rw [ih, List.append_assoc]
    rfl

/-- The place that a walk ends at, whether or not something stands there. -/
def Spot.place : Spot → Place
  | .taken p _ => p
  | .free p => p

namespace Disk

/-- A tree without links: what is not at the top stands in a directory, and relative paths start
from a directory. -/
structure IsTree (d : Disk) : Prop where
  linkless : ∀ p target, d.node? p ≠ some (.link target)
  above : ∀ p n, d.node? (p ++ [n]) ≠ none → d.node? p = some .dir
  start : d.node? d.workDir = some .dir

variable {d d' : Disk} {here p q : Place} {steps rest : List Component} {s : Spot}

/-- A node that is found is listed. -/
theorem mem_of_node? {x : Node} (hp : p ≠ []) (h : d.node? p = some x) : (p, x) ∈ d.nodes := by
  unfold node? at h
  rw [if_neg hp] at h
  obtain ⟨front, rest, e, -⟩ := List.lookup_eq_some_iff.1 h
  rw [e]
  exact List.mem_append_right front (List.mem_cons_self ..)

/-- Whether a tree is one without links can be told from its entries. -/
theorem isTree_of_entries
    (entries : ∀ e ∈ d.nodes, (e.2 matches .link _) = false ∧ d.node? e.1.dropLast = some .dir)
    (start : d.node? d.workDir = some .dir) : d.IsTree := by
  refine ⟨fun p target h => ?_, fun p n h => ?_, start⟩
  · have hp : p ≠ [] := by
      rintro rfl
      cases h
    cases (entries _ (mem_of_node? hp h)).1
  · obtain ⟨x, h⟩ := Option.ne_none_iff_exists'.1 h
    have mem := mem_of_node? (List.append_ne_nil_of_right_ne_nil p (List.cons_ne_nil n [])) h
    have above := (entries _ mem).2
    rwa [List.dropLast_concat] at above

/-- Above everything that stands there are directories. -/
theorem IsTree.above_append (t : d.IsTree) (p : Place) {names : List String} (hne : names ≠ [])
    (h : d.node? (p ++ names) ≠ none) : d.node? p = some .dir := by
  induction names using List.reverseRecOn with
  | nil => exact absurd rfl hne
  | append_singleton names n ih =>
    rw [← List.append_assoc] at h
    have inner := t.above _ n h
    rcases eq_or_ne names [] with rfl | hnames
    · rwa [List.append_nil] at inner
    · exact ih hnames (by rw [inner]; exact Option.some_ne_none _)

/-- Above a directory there is a directory. -/
theorem IsTree.dropLast (t : d.IsTree) (h : d.node? p = some .dir) :
    d.node? p.dropLast = some .dir := by
  rcases p.eq_nil_or_concat with rfl | ⟨p, n, rfl⟩
  · exact h
  · rw [List.concat_eq_append] at h ⊢
    rw [List.dropLast_concat]
    exact t.above p n (by rw [h]; exact Option.some_ne_none _)

/-! ### Walks -/

/-- What a walk finds that ends at the place. -/
def spotAt (d : Disk) (p : Place) : Spot :=
  match d.node? p with
  | some x => .taken p x
  | none => .free p

theorem spotAt_eq_taken_iff {x : Node} : d.spotAt p = .taken q x ↔ q = p ∧ d.node? p = some x := by
  unfold spotAt
  rcases d.node? p with - | y
  · exact ⟨nofun, nofun⟩
  · simp only [Spot.taken.injEq, Option.some.injEq, eq_comm]

theorem spotAt_eq_free_iff : d.spotAt p = .free q ↔ q = p ∧ d.node? p = none := by
  unfold spotAt
  rcases d.node? p with - | y
  · simp only [Spot.free.injEq, and_true, eq_comm]
  · exact ⟨nofun, nofun⟩

theorem place_spotAt (d : Disk) (p : Place) : (d.spotAt p).place = p := by
  unfold spotAt
  rcases d.node? p with - | x <;> rfl

/-- The walks from a directory that meet no link. -/
inductive Leads (d : Disk) : Place → List Component → Spot → Prop
  | stop {here : Place} : Leads d here [] (.taken here .dir)
  | root {here : Place} {rest s} : Leads d [] rest s → Leads d here (.root :: rest) s
  | here {here : Place} {rest s} : Leads d here rest s → Leads d here (.here :: rest) s
  | up {here : Place} {rest s} : Leads d here.dropLast rest s → Leads d here (.up :: rest) s
  | down {here : Place} {n rest s} : n.utf8ByteSize ≤ Path.maxNameSize →
      d.node? (here ++ [n]) = some .dir → Leads d (here ++ [n]) rest s →
      Leads d here (.name n :: rest) s
  | last {here : Place} {n s} : n.utf8ByteSize ≤ Path.maxNameSize →
      d.node? (here ++ [n]) ≠ some .dir → s = d.spotAt (here ++ [n]) → Leads d here [.name n] s

/-- What a walk does at a link is all that tells it from a single `follow`. -/
theorem exists_follow_eq (d : Disk) : ∃ pass, d.spotBelow = d.follow pass := ⟨d.walk 39, rfl⟩

/-- What the relation allows, the walk finds. -/
theorem Leads.spotBelow_eq (t : d.IsTree) (h : d.Leads here steps s) :
    d.spotBelow here steps = .ok s := by
  obtain ⟨pass, walks⟩ := d.exists_follow_eq
  rw [walks]
  -- the lookup follows the walk step by step; without links no step takes it elsewhere
  induction h with
  | stop => rfl
  | root _ ih => exact ih
  | here _ ih => exact ih
  | up _ ih => exact ih
  | down hn hdir _ ih =>
    rw [follow, if_neg (Nat.not_lt.2 hn), hdir]
    exact ih
  | @last here n _ hn hdir hs =>
    subst hs
    rw [follow, if_neg (Nat.not_lt.2 hn)]
    unfold spotAt
    rcases e : d.node? (here ++ [n]) with - | ⟨content⟩ | target | -
    · rfl
    · rfl
    · exact absurd e (t.linkless _ _)
    · exact absurd e hdir

/-- What the walk finds, the relation allows. -/
theorem leads_of_spotBelow (t : d.IsTree) (h : d.spotBelow here steps = .ok s) :
    d.Leads here steps s := by
  obtain ⟨pass, walks⟩ := d.exists_follow_eq
  rw [walks] at h
  -- the walk goes on with the rest from another directory, so `here` varies
  induction steps generalizing here with
  | nil =>
    obtain rfl := Except.ok.inj h
    exact .stop
  | cons c rest ih =>
    cases c with
    | root => exact .root (ih h)
    | here => exact .here (ih h)
    | up => exact .up (ih h)
    | name n =>
      rw [follow] at h
      split at h
      case isTrue => cases h
      case isFalse hn =>
      have size := Nat.not_lt.1 hn
      rcases e : d.node? (here ++ [n]) with - | ⟨content⟩ | target | -
      case some.link => exact absurd e (t.linkless _ _)
      case some.dir =>
        rw [e] at h
        exact .down size e (ih h)
      -- at a file and where nothing stands the name has to be the last
      all_goals
        rw [e] at h
        dsimp only at h
        split at h
        case isFalse => cases h
        case isTrue hrest =>
        subst hrest
        refine .last size (by rw [e]; nofun) ?_
        unfold spotAt
        rw [e]
        exact (Except.ok.inj h).symm

/-- In a tree, the walk and the relation are the same. -/
theorem IsTree.spotBelow_eq_ok_iff (t : d.IsTree) :
    d.spotBelow here steps = .ok s ↔ d.Leads here steps s :=
  ⟨leads_of_spotBelow t, fun h => h.spotBelow_eq t⟩

/-- A path is walked from the working directory, if the system takes it at all. -/
theorem IsTree.spot_eq_ok_iff (t : d.IsTree) {p : Path} :
    d.spot p = .ok s ↔ p.refusal? = none ∧ d.Leads d.workDir p.steps s := by
  unfold spot
  rcases p.refusal? with - | e
  · exact ⟨fun h => ⟨rfl, leads_of_spotBelow t h⟩, fun h => h.2.spotBelow_eq t⟩
  · exact ⟨nofun, nofun⟩

/-! ### Where walks end -/

/-- A walk ends where its steps say. -/
theorem Leads.place_eq (h : d.Leads here steps s) : s.place = Place.after here steps := by
  induction h with
  | stop => rfl
  | root _ ih => exact ih
  | here _ ih => exact ih
  | up _ ih => exact ih
  | down _ _ _ ih => exact ih
  | last _ _ hs => rw [hs, place_spotAt]; rfl

/-- What a walk finds is what stands at its end, if it begins in a directory. -/
theorem Leads.eq_spotAt (t : d.IsTree) (base : d.node? here = some .dir)
    (h : d.Leads here steps s) : s = d.spotAt s.place := by
  induction h with
  | stop =>
    unfold Spot.place spotAt
    rw [base]
  | root _ ih => exact ih rfl
  | here _ ih => exact ih base
  | up _ ih => exact ih (t.dropLast base)
  | down _ hdir _ ih => exact ih hdir
  | last _ _ hs => rw [hs, place_spotAt]

/-- A walk that ends at a file ends by the name of the file. -/
theorem Leads.getLast?_of_file {content : ByteArray}
    (h : d.Leads here steps (.taken q (.file content))) :
    d.node? q = some (.file content) ∧
      ∃ n, steps.getLast? = some (.name n) ∧ q.getLast? = some n := by
  generalize hs : Spot.taken q (.file content) = s at h
  have cons (c : Component) {rest : List Component} {n : String}
      (h : rest.getLast? = some (.name n)) : (c :: rest).getLast? = some (.name n) := by
    rw [List.getLast?_cons, h]; rfl
  -- a walk can end on a file at a name only: `stop` and the dot steps end on directories
  induction h with
  | stop => cases hs
  | root _ ih => obtain ⟨hq, n, hn, hl⟩ := ih hs; exact ⟨hq, n, cons _ hn, hl⟩
  | here _ ih => obtain ⟨hq, n, hn, hl⟩ := ih hs; exact ⟨hq, n, cons _ hn, hl⟩
  | up _ ih => obtain ⟨hq, n, hn, hl⟩ := ih hs; exact ⟨hq, n, cons _ hn, hl⟩
  | down _ _ _ ih => obtain ⟨hq, n, hn, hl⟩ := ih hs; exact ⟨hq, n, cons _ hn, hl⟩
  | @last here n _ _ _ hs' =>
    obtain ⟨rfl, hq⟩ := spotAt_eq_taken_iff.1 (hs.trans hs').symm
    exact ⟨hq, n, rfl, List.getLast?_concat ..⟩

/-- Steps that only go down lead to a place below. -/
theorem Leads.isPrefix (h : d.Leads here steps s)
    (down : ∀ c ∈ steps, c ≠ .root ∧ c ≠ .up) : here <+: s.place := by
  induction h with
  | stop => exact List.prefix_rfl
  | root _ _ => exact absurd rfl (down _ (List.mem_cons_self ..)).1
  | here _ ih => exact ih fun c hc => down c (List.mem_cons_of_mem _ hc)
  | up _ _ => exact absurd rfl (down _ (List.mem_cons_self ..)).2
  | down _ _ _ ih =>
    exact (List.prefix_append _ _).trans (ih fun c hc => down c (List.mem_cons_of_mem _ hc))
  | last _ _ hs => rw [hs, place_spotAt]; exact List.prefix_append ..

/-! ### Putting walks together -/

/-- A walk along two lists of steps is in a directory after the first. -/
theorem Leads.split {a b : List Component} (hb : b ≠ []) (h : d.Leads here (a ++ b) s) :
    ∃ q, d.Leads here a (.taken q .dir) ∧ d.Leads q b s := by
  induction a generalizing here with
  | nil => exact ⟨here, .stop, h⟩
  | cons c a ih =>
    rw [List.cons_append] at h
    generalize hrest : a ++ b = rest at h
    cases h with
    | root h => obtain ⟨q, ha, hb⟩ := ih (hrest ▸ h); exact ⟨q, .root ha, hb⟩
    | here h => obtain ⟨q, ha, hb⟩ := ih (hrest ▸ h); exact ⟨q, .here ha, hb⟩
    | up h => obtain ⟨q, ha, hb⟩ := ih (hrest ▸ h); exact ⟨q, .up ha, hb⟩
    | down hn hdir h => obtain ⟨q, ha, hb⟩ := ih (hrest ▸ h); exact ⟨q, .down hn hdir ha, hb⟩
    | last => exact absurd (List.append_eq_nil_iff.1 hrest).2 hb

/-- A walk goes on from the directory that an earlier one leads to. -/
theorem Leads.append {a b : List Component} (ha : d.Leads here a (.taken q .dir))
    (hb : d.Leads q b s) : d.Leads here (a ++ b) s := by
  generalize hq : Spot.taken q .dir = r at ha
  induction ha with
  | stop => obtain ⟨rfl, -⟩ := Spot.taken.inj hq; exact hb
  | root _ ih => exact .root (ih hq)
  | here _ ih => exact .here (ih hq)
  | up _ ih => exact .up (ih hq)
  | down hn hdir _ ih => exact .down hn hdir (ih hq)
  | last _ hdir hs => exact absurd (spotAt_eq_taken_iff.1 (hq.trans hs).symm).2 hdir

/-- Of two trees the second has all directories of the first. -/
def HasDirsOf (d' d : Disk) : Prop := ∀ p, d.node? p = some .dir → d'.node? p = some .dir

/-- A walk to a directory is still there when the directories are. -/
theorem Leads.of_dirs (dirs : d'.HasDirsOf d) (h : d.Leads here steps (.taken q .dir)) :
    d'.Leads here steps (.taken q .dir) := by
  generalize hq : Spot.taken q .dir = s at h ⊢
  induction h with
  | stop => exact .stop
  | root _ ih => exact .root (ih hq)
  | here _ ih => exact .here (ih hq)
  | up _ ih => exact .up (ih hq)
  | down hn hdir _ ih => exact .down hn (dirs _ hdir) (ih hq)
  | last _ hdir hs => exact absurd (spotAt_eq_taken_iff.1 (hq.trans hs).symm).2 hdir

/-- A walk still gets where it got when more directories are made and what stands at its end is
made, replaced or removed, unless this is or was a directory. -/
theorem Leads.moved (dirs : d'.HasDirsOf d) (h : d.Leads here steps s)
    (hs : s ≠ .taken s.place .dir) (hs' : d'.node? s.place ≠ some .dir) :
    d'.Leads here steps (d'.spotAt s.place) := by
  induction h with
  | stop => exact absurd rfl hs
  | root _ ih => exact .root (ih hs hs')
  | here _ ih => exact .here (ih hs hs')
  | up _ ih => exact .up (ih hs hs')
  | down hn hdir _ ih => exact .down hn (dirs _ hdir) (ih hs hs')
  | last hn hdir e =>
    rw [e, place_spotAt] at hs' ⊢
    exact .last hn hs' rfl

/-! ### Looking along paths -/

section

variable {path : Path}

theorem dirPlace?_eq_some_iff (t : d.IsTree) :
    d.dirPlace? path = some q ↔
      path.refusal? = none ∧ d.Leads d.workDir path.steps (.taken q .dir) := by
  rw [← t.spot_eq_ok_iff]
  unfold dirPlace?
  constructor
  · intro h
    split at h
    case h_1 hq => rw [hq, Option.some.inj h]
    case h_2 => cases h
  · intro h
    rw [h]

theorem isDir_iff (t : d.IsTree) :
    d.isDir path = true ↔
      path.refusal? = none ∧ ∃ q, d.Leads d.workDir path.steps (.taken q .dir) := by
  unfold isDir
  rw [Option.isSome_iff_exists]
  simp only [dirPlace?_eq_some_iff t, exists_and_left]

/-- A path leads to a directory as long as no directory is taken away. -/
theorem isDir_of_hasDirsOf (t : d.IsTree) (t' : d'.IsTree) (hw : d'.workDir = d.workDir)
    (dirs : d'.HasDirsOf d) (h : d.isDir path = true) : d'.isDir path = true := by
  obtain ⟨hr, q, hq⟩ := (isDir_iff t).1 h
  exact (isDir_iff t').2 ⟨hr, q, hw ▸ hq.of_dirs dirs⟩

end

/-! ### The last name of a path -/

/-- The steps end by a name, and those before it lead to a directory. -/
structure EndsIn (d : Disk) (path : Path) (steps : List Component) (here : Place) (n : String) :
    Prop where
  refusal : path.refusal? = none
  front : ∃ front, steps = front ++ [.name n] ∧ d.Leads d.workDir front (.taken here .dir)
  size : n.utf8ByteSize ≤ Path.maxNameSize

section

variable {path : Path} {n : String}

theorem EndsIn.dir (h : d.EndsIn path steps here n) (t : d.IsTree) : d.node? here = some .dir := by
  obtain ⟨front, -, leads⟩ := h.front
  exact (spotAt_eq_taken_iff.1 (leads.eq_spotAt t t.start).symm).2

/-- Without links, the place can be told from the steps alone. -/
theorem EndsIn.place_eq (h : d.EndsIn path steps here n) :
    here ++ [n] = Place.after d.workDir steps := by
  obtain ⟨front, rfl, leads⟩ := h.front
  rw [Place.after_append, ← leads.place_eq]
  rfl

/-- A path keeps its end as long as no directory is taken away. -/
theorem EndsIn.of_dirs (h : d.EndsIn path steps here n) (hw : d'.workDir = d.workDir)
    (dirs : d'.HasDirsOf d) : d'.EndsIn path steps here n := by
  obtain ⟨front, e, leads⟩ := h.front
  exact ⟨h.refusal, ⟨front, e, hw ▸ leads.of_dirs dirs⟩, h.size⟩

theorem EndsIn.leads (h : d.EndsIn path steps here n) :
    d.Leads d.workDir steps (d.spotAt (here ++ [n])) := by
  obtain ⟨front, rfl, leads⟩ := h.front
  by_cases hdir : d.node? (here ++ [n]) = some .dir
  · rw [(spotAt_eq_taken_iff.2 ⟨rfl, hdir⟩ : d.spotAt (here ++ [n]) = _)]
    exact leads.append (.down h.size hdir .stop)
  · exact leads.append (.last h.size hdir rfl)

theorem EndsIn.spot_eq (h : d.EndsIn path path.steps here n) (t : d.IsTree) :
    d.spot path = .ok (d.spotAt (here ++ [n])) :=
  t.spot_eq_ok_iff.2 ⟨h.refusal, h.leads⟩

/-- A walk that succeeds and ends with a name ends in a directory, at that name. -/
theorem endsIn_of_spot (t : d.IsTree) {front : List Component} {s : Spot}
    (named : path.steps = front ++ [.name n]) (h : d.spot path = .ok s) :
    ∃ here, d.EndsIn path path.steps here n ∧ s = d.spotAt (here ++ [n]) := by
  obtain ⟨hr, leads⟩ := t.spot_eq_ok_iff.1 h
  rw [named] at leads
  obtain ⟨here, before, last⟩ := leads.split (List.cons_ne_nil _ _)
  have size : n.utf8ByteSize ≤ Path.maxNameSize := by
    cases last with
    | down size _ _ => exact size
    | last size _ _ => exact size
  have ends : d.EndsIn path path.steps here n := ⟨hr, ⟨front, named, before⟩, size⟩
  exact ⟨here, ends, Except.ok.inj (h.symm.trans (ends.spot_eq t))⟩

end

end Disk

end RouteRegistry

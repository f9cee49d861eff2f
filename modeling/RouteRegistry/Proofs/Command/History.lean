/-
RouteRegistry/Proofs/Command/History.lean

What is left of earlier runs of `generate`.

A run that generates nothing removes the file at the path where it would have
written one.  It does not know where earlier runs wrote: without `--out` and
without a directory in the settings the path follows the marker, and once the
marker is gone it leads to the project's root, while the file of the earlier run
stays where it is (`history_small_left`).

`History` logs the runs that succeeded, the last one first, each with the place
that its path led to and whether it wrote there.  `History.holdsFile_iff` is the
invariant: a place in the log holds a file just when the last run that got there
wrote it.

Main result (`files_left_iff`): after a run that generates nothing, what earlier
runs wrote is gone if and only if all that still stood was at the place which
this run's path led to.  With `--out` it always was.
-/
import RouteRegistry.Proofs.Command.Settling
import RouteRegistry.Proofs.Project.Reading

namespace RouteRegistry

/-! ### Files at places -/

namespace Disk

variable {ps : List Path} {p q : Place} {d d' : Disk}

/-- At the place stands a file, whatever is in it. -/
def HoldsFile (d : Disk) (p : Place) : Prop := ∃ content, d.node? p = some (.file content)

/-- The place that the path leads to, whatever stands there. -/
def place? (d : Disk) (path : Path) : Option Place := (d.spot path).toOption.map Spot.place

/-- Places that kept their node, or where a directory has been made, have a file as before. -/
theorem holdsFile_of_nodes
    (h : d'.node? q = d.node? q ∨ d.IsNew ps q ∧ d'.node? q = some .dir) :
    d'.HoldsFile q ↔ d.HoldsFile q := by
  unfold HoldsFile
  rcases h with same | ⟨new, made⟩
  · rw [same]
  · rw [made, new.free]
    simp

/-- Making directories makes no file and takes none away. -/
theorem Grown.holdsFile_iff (h : Grown ps d d') : d'.HoldsFile q ↔ d.HoldsFile q :=
  holdsFile_of_nodes (h.nodes q)

/-- A change at one place leaves the files at all others. -/
theorem Touched.holdsFile_iff (h : Touched ps p d d') (hq : q ≠ p) :
    d'.HoldsFile q ↔ d.HoldsFile q :=
  holdsFile_of_nodes (h.nodes q hq)

/-- Without links, a path ends at the place that its steps spell. -/
theorem spot_of_place? (t : d.IsTree) {path : Path} (h : d.place? path = some p) :
    d.spot path = .ok (d.spotAt p) ∧ p = path.placeFrom d.workDir := by
  unfold place? at h
  rcases hs : d.spot path with e | s
  · rw [hs] at h
    cases h
  · rw [hs] at h
    obtain rfl := Option.some.inj h
    have walk := (t.spot_eq_ok_iff.1 hs).2
    exact ⟨congrArg Except.ok (walk.eq_spotAt t t.start), walk.place_eq⟩

/-- An edit to Java sources: other files, and those that are generated, stay as they are. -/
structure SourceEdit (d d' : Disk) : Prop where
  workDir : d'.workDir = d.workDir
  tree : d'.IsTree
  files : ∀ p, ((Path.ofNames p).isJavaSource && !(Path.ofNames p).isGeneratedSource) = false →
    ∀ content, d'.node? p = some (.file content) ↔ d.node? p = some (.file content)

/-- Editing sources neither makes nor removes a generated class. -/
theorem SourceEdit.holdsFile_iff (h : SourceEdit d d')
    (named : p.getLast? = some RoutesClass.emitter.fileId) : d'.HoldsFile p ↔ d.HoldsFile p := by
  obtain ⟨front, rfl⟩ := List.getLast?_eq_some_iff.1 named
  refine exists_congr (h.files _ ?_)
  rw [isGeneratedSource_concat]
  simp

end Disk

namespace GenerateReport

variable {d₀ d d' : Disk} {o : GenerateOptions} {p : Place} {pass : ProjectPass}
  {r : GenerateReport}

/-! ### One run -/

/-- Of all places a run decides about the one that its path leads to afterwards. -/
theorem Settles.holdsFile_iff (t : d.IsTree) (h : Settles d o pass d') (q : Place) :
    d'.HoldsFile q ↔
      if d'.place? (pass.registry o.out) = some q then pass.run.outcome.generated? ≠ none
      else d.HoldsFile q := by
  -- the registry is written, removed or left alone: only its own place can change its answer
  cases h with
  | @wrote routes text d₁ here hr hout made ends free =>
    have grown := Disk.grown_of_makeDirs t made
    unfold Disk.place?
    rw [ends.spot_put grown.tree free]
    split
    case isTrue e =>
      obtain rfl : here ++ [RoutesClass.emitter.fileId] = q := Option.some.inj e
      refine iff_of_true ⟨text.toUTF8, ?_⟩ (by rw [hr]; nofun)
      rw [Disk.node?_put d₁ (Disk.concat_ne_nil here _), if_pos rfl]
    case isFalse e =>
      exact (grown.touched_put (ends.dir grown.tree) free).holdsFile_iff fun hq =>
        e (congrArg some hq.symm)
  | @removed here hr _ ends free =>
    unfold Disk.place?
    rw [ends.spot_erase t free]
    split
    case isTrue e =>
      obtain rfl : here ++ [RoutesClass.emitter.fileId] = q := Option.some.inj e
      refine iff_of_false ?_ (absurd hr)
      rintro ⟨content, file⟩
      rw [Disk.node?_erase d (Disk.concat_ne_nil here _), if_pos rfl] at file
      cases file
    case isFalse e =>
      have touched : Disk.Touched [] _ d _ := t.touched_erase free
      exact touched.holdsFile_iff fun hq => e (congrArg some hq.symm)
  | kept hr clean =>
    split
    case isTrue e =>
      refine iff_of_false ?_ (absurd hr)
      rintro ⟨content, file⟩
      unfold Disk.isFile at clean
      rw [(Disk.spot_of_place? t e).1, Disk.spotAt_eq_taken_iff.2 ⟨rfl, file⟩] at clean
      cases clean
    case isFalse => exact Iff.rfl

/-! ### Many runs -/

/-- The trees that come about from `d₀` by edits to Java sources and by runs, with a log of the runs
that succeeded. -/
inductive History (o : GenerateOptions) (d₀ : Disk) : List (Place × Bool) → Disk → Prop
  | start : History o d₀ [] d₀
  | edit {log d d'} : History o d₀ log d → d.SourceEdit d' → History o d₀ log d'
  | run {log d d' r p} : History o d₀ log d → execute d o = (d', .ok r) →
      d'.place? (r.pass.registry o.out) = some p →
      History o d₀ ((p, r.pass.run.outcome.generated?.isSome) :: log) d'
  | astray {log d d' r} : History o d₀ log d → execute d o = (d', .ok r) →
      d'.place? (r.pass.registry o.out) = none → History o d₀ log d'
  | failed {log d d' f} : History o d₀ log d → execute d o = (d', .error f) → History o d₀ log d'

variable {log : List (Place × Bool)}

/-- A command that is done leaves a tree, and the working directory where it was. -/
theorem Settles.tree (t : d.IsTree) (h : Settles d o pass d') :
    d'.IsTree ∧ d'.workDir = d.workDir := by
  rcases h.touched t with rfl | touched
  · exact ⟨t, rfl⟩
  · exact ⟨touched.tree, touched.workDir⟩

namespace History

/-- Whatever happens, the disk stays a tree with the same working directory. -/
theorem tree (t : d₀.IsTree) (ho : o.dryRun = false) (h : History o d₀ log d) :
    d.IsTree ∧ d.workDir = d₀.workDir := by
  induction h with
  | start => exact ⟨t, rfl⟩
  | edit _ e ih => exact ⟨e.tree, e.workDir.trans ih.2⟩
  | run _ h _ ih | astray _ h _ ih =>
    obtain ⟨tree, workDir⟩ := (settles_of_execute ih.1 ho h).tree ih.1
    exact ⟨tree, workDir.trans ih.2⟩
  | failed _ h ih =>
    obtain ⟨ps, grown⟩ := grown_of_execute ih.1 ho h
    exact ⟨grown.tree, grown.workDir.trans ih.2⟩

/-- Each place in the log is one where a pass would write. -/
theorem led (t : d₀.IsTree) (ho : o.dryRun = false) (h : History o d₀ log d) :
    ∀ e ∈ log, ∃ pass : ProjectPass, e.1 = pass.registryPlace o.out d₀.workDir := by
  induction h with
  | start => exact fun e he => absurd he List.not_mem_nil
  | edit _ _ ih => exact ih
  | @run log d d' r p h hrun hp ih =>
    intro e he
    rcases List.mem_cons.1 he with rfl | he
    · obtain ⟨tree, workDir⟩ := (h.run hrun hp).tree t ho
      exact ⟨r.pass, workDir ▸ (Disk.spot_of_place? tree hp).2⟩
    · exact ih e he
  | astray _ _ _ ih => exact ih
  | failed _ _ ih => exact ih

/-- A place in the log holds a file just when the last run that got there wrote it. -/
theorem holdsFile_iff (t : d₀.IsTree) (ho : o.dryRun = false) (h : History o d₀ log d)
    (hp : p ∈ log.map Prod.fst) : d.HoldsFile p ↔ log.lookup p = some true := by
  -- along the history: the log's first entry for `p` is the last run that led there
  induction h with
  | start => cases hp
  | edit h e ih =>
    obtain ⟨x, hx, rfl⟩ := List.mem_map.1 hp
    obtain ⟨pass, led⟩ := h.led t ho x hx
    rw [e.holdsFile_iff (led ▸ pass.getLast?_registryPlace ..), ih hp]
  | @run log d d' r q h hrun hq ih =>
    have tree := (h.tree t ho).1
    rw [(settles_of_execute tree ho hrun).holdsFile_iff tree p, hq]
    by_cases hpq : p = q
    · subst hpq
      rw [if_pos rfl, List.lookup_cons_self, Option.some.injEq, Option.isSome_iff_ne_none]
    · have rest : p ∈ log.map Prod.fst := (List.mem_cons.1 hp).resolve_left hpq
      rw [if_neg fun e => hpq (Option.some.inj e).symm, ih rest, List.lookup_cons,
        beq_eq_false_iff_ne.2 hpq]
  -- a run that leads nowhere writes no file, and a failed one only adds directories
  | astray h hrun hq ih =>
    have tree := (h.tree t ho).1
    rw [(settles_of_execute tree ho hrun).holdsFile_iff tree p, hq, if_neg nofun, ih hp]
  | failed h hrun ih =>
    obtain ⟨ps, grown⟩ := grown_of_execute (h.tree t ho).1 ho hrun
    rw [grown.holdsFile_iff, ih hp]

end History

/-- After a run that generates nothing, a file that an earlier run wrote is left just when it still
stood and this run's path leads elsewhere.  So all of them are gone if and only if all that stood
was at the place the path leads to; with `--out`, it is enough that the path leads anywhere. -/
theorem files_left_iff (t : d₀.IsTree) (ho : o.dryRun = false) (history : History o d₀ log d)
    (h : execute d o = (d', .ok r)) (hr : r.pass.run.outcome.generated? = none) :
    (∀ p, (p, true) ∈ log → (d'.HoldsFile p ↔
      log.lookup p = some true ∧ d'.place? (r.pass.registry o.out) ≠ some p)) ∧
    ((∀ p, (p, true) ∈ log → ¬ d'.HoldsFile p) ↔
      ∀ p, log.lookup p = some true → d'.place? (r.pass.registry o.out) = some p) ∧
    (o.out ≠ none → d'.place? (r.pass.registry o.out) ≠ none →
      ∀ p, (p, true) ∈ log → ¬ d'.HoldsFile p) := by
  have tree := (history.tree t ho).1
  have left : ∀ p, (p, true) ∈ log → (d'.HoldsFile p ↔
      log.lookup p = some true ∧ d'.place? (r.pass.registry o.out) ≠ some p) := by
    intro p hp
    have logged : p ∈ log.map Prod.fst := List.mem_map.2 ⟨_, hp, rfl⟩
    rw [(settles_of_execute tree ho h).holdsFile_iff tree p, ← history.holdsFile_iff t ho logged]
    split
    case isTrue e => exact iff_of_false (absurd hr) fun hn => hn.2 e
    case isFalse e => exact (and_iff_left e).symm
  refine ⟨left, ⟨fun gone p hlast => ?_, fun here p hp file => ?_⟩, fun hout hplace p hp file => ?_⟩
  · by_contra elsewhere
    have hp : (p, true) ∈ log := by
      obtain ⟨newer, older, e, -⟩ := List.lookup_eq_some_iff.1 hlast
      rw [e]
      exact List.mem_append_right newer (List.mem_cons_self ..)
    exact gone p hp ((left p hp).2 ⟨hlast, elsewhere⟩)
  · obtain ⟨hlast, elsewhere⟩ := (left p hp).1 file
    exact elsewhere (here p hlast)
  · -- with `--out` all passes have the same path, and a path leads to one place only
    obtain ⟨dir, hdir⟩ := Option.ne_none_iff_exists'.1 hout
    obtain ⟨q, hq⟩ := Option.ne_none_iff_exists'.1 hplace
    obtain ⟨pass, led⟩ := history.led t ho _ hp
    obtain ⟨tree', workDir⟩ := (settles_of_execute tree ho h).tree tree
    refine ((left p hp).1 file).2 (hq.trans (congrArg some ?_))
    have place := (Disk.spot_of_place? tree' hq).2
    unfold ProjectPass.registryPlace ProjectPass.registry at led
    unfold ProjectPass.registry at place
    rw [hdir, ProjectPass.outputDir_some] at led place
    rw [place, workDir, (history.tree t ho).2]
    exact led.symm

/-! ### A marker taken away -/

/-- A project with one source, which carries the marker. -/
def markedProject : Disk :=
  ⟨[(["p"], .dir), (["p", "app"], .dir),
    (["p", "app", "A.java"], .file "@AutoRoutes(\"B\")class A{}".toUTF8)], []⟩

/-- The edit that takes the marker off the source. -/
def unmark (d : Disk) : Disk := d.put ["p", "app", "A.java"] (.file "class A{}".toUTF8)

/-- Taking the marker out of the file is an edit of a source. -/
theorem sourceEdit_unmark (t : d.IsTree) (dir : d.node? ["p", "app"] = some .dir)
    (free : d.node? ["p", "app", "A.java"] ≠ some .dir) : d.SourceEdit (unmark d) where
  workDir := rfl
  tree := by
    have tree : (d.put (["p", "app"] ++ ["A.java"]) (.file "class A{}".toUTF8)).IsTree :=
      t.put dir nofun free
    exact tree
  files q hq content := by
    have other : q ≠ ["p", "app", "A.java"] := by
      rintro rfl
      revert hq
      decide
    unfold unmark
    rw [Disk.node?_put d (by decide), if_neg other]

/-- The command on the project, with a directory to write to or without one. -/
def projectOptions (out : Option Path) : GenerateOptions := ⟨⟨"p"⟩, out, none, false⟩

theorem isTree_markedProject : markedProject.IsTree := Disk.isTree_of_entries (by decide) rfl

/-- A run that writes at the place, the edit, and a run that generates nothing though its path leads
somewhere; `left` tells whether the file of the first run is left then. -/
def writesOnce (out : Option Path) (p : Place) (left : Bool) : Bool :=
  match execute markedProject (projectOptions out) with
  | (d₁, .ok r₁) =>
    match execute (unmark d₁) (projectOptions out) with
    | (d₂, .ok r₂) =>
      d₁.node? ["p", "app"] == some .dir && d₁.node? ["p", "app", "A.java"] != some .dir &&
        d₁.place? (r₁.pass.registry out) == some p && r₁.pass.run.outcome.generated?.isSome &&
        r₂.pass.run.outcome.generated?.isNone && (d₂.place? (r₂.pass.registry out)).isSome &&
        (d₂.node? p matches some (.file _)) == left
    | _ => false
  | _ => false

/-- A run of the example is a history, so what holds of all histories holds of it. -/
theorem history_of_writesOnce {out : Option Path} {left : Bool} (h : writesOnce out p left = true) :
    ∃ d d' r, History (projectOptions out) markedProject [(p, true)] d ∧
      execute d (projectOptions out) = (d', .ok r) ∧ r.pass.run.outcome.generated? = none ∧
      d'.place? (r.pass.registry out) ≠ none ∧ (left = true → d'.HoldsFile p) := by
  unfold writesOnce at h
  split at h
  case h_2 => cases h
  case h_1 d₁ r₁ h₁ =>
  split at h
  case h_2 => cases h
  case h_1 d₂ r₂ h₂ =>
  simp only [Bool.and_eq_true, beq_iff_eq, bne_iff_ne] at h
  obtain ⟨⟨⟨⟨⟨⟨dir, free⟩, place⟩, wrote⟩, nothing⟩, leads⟩, file⟩ := h
  -- the first run is logged as having written; taking the marker off is then a source edit
  have first := History.start.run h₁ place
  rw [wrote] at first
  have tree := (first.tree isTree_markedProject rfl).1
  refine ⟨unmark d₁, d₂, r₂, first.edit (sourceEdit_unmark tree dir free), h₂, ?_, ?_, ?_⟩
  · exact Option.isNone_iff_eq_none.1 nothing
  · exact Option.isSome_iff_ne_none.1 leads
  · rintro rfl
    split at file
    case h_1 content held => exact ⟨content, held⟩
    case h_2 => cases file

/-- With `--out` the second run removes what the first one wrote. -/
theorem history_small_gone :
    ∃ d d' r p, History (projectOptions (some ⟨"gen"⟩)) markedProject [(p, true)] d ∧
      execute d (projectOptions (some ⟨"gen"⟩)) = (d', .ok r) ∧ ¬ d'.HoldsFile p := by
  have runs : writesOnce (some ⟨"gen"⟩) ["gen", "Routes.g.java"] false = true := by decide +kernel
  obtain ⟨d, d', r, history, h, nothing, leads, -⟩ := history_of_writesOnce runs
  have gone := (files_left_iff isTree_markedProject rfl history h nothing).2.2 nofun leads
  exact ⟨d, d', r, _, history, h, gone _ (List.mem_cons_self ..)⟩

/-- Without it the second run generates nothing, and yet the file of the first is left. -/
theorem history_small_left :
    ∃ d d' r p, markedProject.IsTree ∧
      History (projectOptions none) markedProject [(p, true)] d ∧
      execute d (projectOptions none) = (d', .ok r) ∧
      r.pass.run.outcome.generated? = none ∧ d'.HoldsFile p := by
  have runs : writesOnce none ["p", "app", "Routes.g.java"] true = true := by decide +kernel
  obtain ⟨d, d', r, history, h, nothing, -, left⟩ := history_of_writesOnce runs
  exact ⟨d, d', r, _, isTree_markedProject, history, h, nothing, left rfl⟩

end GenerateReport

end RouteRegistry

/-
RouteRegistry/Proofs/Command/Rerun.lean

Running `generate` twice.

A run writes or removes one file, and what it reads is not changed by that
(`Disk.Settled.execute_eq`), so the second run comes to the same pass.  It finds
the directory made and the file as it would leave it, so it changes nothing.

Main result (`execute_settled`): in a tree without links, the dry run tells what
the run does, the run touches the generated file alone, and running it again
changes nothing.
-/
import RouteRegistry.Proofs.Command.Settling
import RouteRegistry.Proofs.Project.Reading

namespace RouteRegistry

namespace Disk

/-! ### Reading back -/

/-- A text that was written is read back. -/
theorem textOf_toUTF8 (text : String) : textOf text.toUTF8 = .ok text := by
  have decoded : String.fromUTF8? text.toUTF8 = some text := dif_pos text.isValidUTF8
  unfold textOf
  rw [decoded]

variable {d : Disk} {path : Path} {here : Place} {n : String}

/-- The text that was put at the end of a path is what the path is read as. -/
theorem EndsIn.readText_put (h : d.EndsIn path path.steps here n) (t : d.IsTree)
    (free : d.node? (here ++ [n]) ≠ some .dir) (text : String) :
    (d.put (here ++ [n]) (.file text.toUTF8)).readText path = .ok text := by
  unfold readText
  rw [h.spot_put t free]
  exact textOf_toUTF8 text

/-- Where a file was taken away there is none. -/
theorem EndsIn.isFile_erase (h : d.EndsIn path path.steps here n) (t : d.IsTree)
    (free : d.node? (here ++ [n]) ≠ some .dir) : (d.erase (here ++ [n])).isFile path = false := by
  unfold isFile
  rw [h.spot_erase t free]
  rfl

/-- Writing the same text again changes nothing. -/
theorem EndsIn.write_put (h : d.EndsIn path path.steps here n) (t : d.IsTree)
    (free : d.node? (here ++ [n]) ≠ some .dir) (text : String) :
    (d.put (here ++ [n]) (.file text.toUTF8)).write path text =
      .ok (d.put (here ++ [n]) (.file text.toUTF8)) := by
  unfold write
  rw [h.spot_put t free]
  dsimp only
  rw [put_put]

end Disk

namespace GenerateReport

variable {d d' : Disk} {o : GenerateOptions} {p : ProjectPass} {r : GenerateReport}

/-! ### What is left -/

/-- The generated file holds the text of the pass if it generated one, and is no file otherwise. -/
theorem Settles.registry (t : d.IsTree) (h : Settles d o p d') :
    (p.run.outcome.generated? = none → d'.isFile (p.registry o.out) = false) ∧
    (p.run.outcome.generated? ≠ none → ∃ text,
      p.run.output = [⟨RoutesClass.emitter.fileId, text⟩] ∧
        d'.readText (p.registry o.out) = .ok text) := by
  cases h with
  | @wrote routes text d₁ here hr hout made ends free =>
    have grown := Disk.grown_of_makeDirs t made
    exact ⟨fun hn => absurd (hr.symm.trans hn) nofun,
      fun _ => ⟨text, hout, ends.readText_put grown.tree free text⟩⟩
  | removed hr _ ends free => exact ⟨fun _ => ends.isFile_erase t free, fun hn => absurd hr hn⟩
  | kept hr hfile => exact ⟨fun _ => hfile, fun hn => absurd hr hn⟩

/-- The same pass finds nothing to do in the tree that it left. -/
theorem Settles.again (t : d.IsTree) (ho : o.dryRun = false) (h : Settles d o p d') :
    settle d' o p = (d', none) := by
  have clean := (h.registry t).1
  cases h with
  | @wrote routes text d₁ here hr hout made ends free =>
    have grown := Disk.grown_of_makeDirs t made
    have touched : Disk.Touched [] _ d₁ (d₁.put _ (.file text.toUTF8)) :=
      (Disk.Grown.refl grown.tree).touched_put (ends.dir grown.tree) free
    rw [settle_of_generated ho hr, hout, writeAll_singleton]
    exact ⟨_, Disk.makeDirs_again t made touched.tree touched.workDir touched.hasDirsOf,
      ends.write_put grown.tree free text⟩
  | removed hr _ _ _ => exact settle_of_clean ho hr (clean hr)
  | kept hr _ => exact settle_of_clean ho hr (clean hr)

/-- Once the pass is settled, what it reads is the same as before. -/
theorem Settles.pass_eq (t : d.IsTree) (steady : d.Steady) (h : Settles d o p d')
    (config : ∀ file, o.config = some file →
      file.placeFrom d.workDir ≠ p.registryPlace o.out d.workDir)
    (quiet : .name ".git" ∉ (p.outputDir o.out).components ∧
      .name ".jj" ∉ (p.outputDir o.out).components)
    (hp : ProjectPass.execute d o.path o.config = .ok p) :
    ProjectPass.execute d' o.path o.config = .ok p := by
  rcases h.touched t with rfl | touched
  · exact hp
  -- what `execute` reads again is untouched: only the registry and new directories differ
  have settled : Disk.Settled (Disk.chain (p.outputDir o.out)) (p.registryPlace o.out d.workDir)
      d d' :=
    ⟨touched, p.getLast?_registryPlace o.out d.workDir, fun path hpath =>
      ⟨fun hn => quiet.1 (Disk.name_mem_of_mem_chain hpath hn),
        fun hn => quiet.2 (Disk.name_mem_of_mem_chain hpath hn)⟩⟩
  exact settled.execute_eq t steady config hp

/-- A dry run leaves the tree alone and reports the same.  A run touches the generated file alone,
besides making the directories that lead to it, and leaves in that file the text of the pass, or
none if nothing was generated.  Running it again reports the same and changes nothing. -/
theorem execute_settled (t : d.IsTree) (steady : d.Steady) (ho : o.dryRun = false)
    (h : execute d o = (d', .ok r))
    (config : ∀ file, o.config = some file →
      file.placeFrom d.workDir ≠ r.pass.registryPlace o.out d.workDir)
    (quiet : .name ".git" ∉ (r.pass.outputDir o.out).components ∧
      .name ".jj" ∉ (r.pass.outputDir o.out).components) :
    execute d { o with dryRun := true } = (d, .ok r) ∧
    (d'.workDir = d.workDir ∧ ∀ q, q ≠ r.pass.registryPlace o.out d.workDir →
      d'.node? q = d.node? q ∨
        d.IsNew (Disk.chain (r.pass.outputDir o.out)) q ∧ d'.node? q = some .dir) ∧
    (r.pass.run.outcome.generated? ≠ none → ∃ text,
      r.pass.run.output = [⟨RoutesClass.emitter.fileId, text⟩] ∧
        d'.readText (r.pass.registry o.out) = .ok text) ∧
    (r.pass.run.outcome.generated? = none → d'.isFile (r.pass.registry o.out) = false) ∧
    execute d' o = (d', .ok r) := by
  obtain ⟨hpass, -, hwritten⟩ := execute_eq_ok_iff.1 h
  have settles := settles_of_execute t ho h
  obtain ⟨absent, present⟩ := settles.registry t
  refine ⟨?_, ?_, present, absent, ?_⟩
  · exact execute_eq_ok_iff.2 ⟨hpass, settle_dry d r.pass rfl, hwritten⟩
  · rcases settles.touched t with rfl | touched
    · exact ⟨rfl, fun q _ => .inl rfl⟩
    · exact ⟨touched.workDir, touched.nodes⟩
  -- the same pass on the settled disk, and settling it once more changes nothing
  · have again := settles.pass_eq t steady config quiet hpass
    exact execute_eq_ok_iff.2 ⟨again, settles.again t ho, hwritten⟩

/-! ### A small project -/

/-- A project with one source, in which the directory for the generated file is missing. -/
def smallProject : Disk :=
  ⟨[(["p"], .dir), (["p", "A.java"], .file "@AutoRoutes(\"B\")class A{}".toUTF8)], []⟩

/-- The command on the small project, with a directory that does not exist yet. -/
def smallOptions : GenerateOptions := ⟨⟨"p"⟩, some ⟨"gen/src"⟩, none, false⟩

/-- Directories are made and the class is written; the second run changes nothing. -/
theorem execute_settled_small :
    ∃ d' r, execute smallProject smallOptions = (d', .ok r) ∧
      (∃ text, d'.readText ⟨"gen/src/Routes.g.java"⟩ = .ok text) ∧
      execute d' smallOptions = (d', .ok r) := by
  have tree : smallProject.IsTree := Disk.isTree_of_entries (by decide) rfl
  have steady : smallProject.Steady := Disk.steady_of_entries tree (by decide)
  have generated : ((execute smallProject smallOptions).2.toOption.any fun r =>
      r.pass.run.outcome.generated?.isSome) = true := by decide +kernel
  rcases h : execute smallProject smallOptions with ⟨d', f | r⟩
  · rw [h] at generated
    cases generated
  · rw [h] at generated
    have dir : r.pass.outputDir smallOptions.out = ⟨"gen/src"⟩ := r.pass.outputDir_some _
    have registry : r.pass.registry smallOptions.out = ⟨"gen/src/Routes.g.java"⟩ := by
      unfold ProjectPass.registry
      rw [dir]
      decide
    obtain ⟨-, -, present, -, again⟩ :=
      execute_settled tree steady rfl h nofun (by rw [dir]; decide)
    obtain ⟨text, -, read⟩ := present (Option.isSome_iff_ne_none.1 generated)
    exact ⟨d', r, rfl, ⟨text, registry ▸ read⟩, again⟩

end GenerateReport

end RouteRegistry

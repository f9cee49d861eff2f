/-
RouteRegistry/Proofs/Command/Settling.lean

What `generate` does to the tree.

A run that is no dry run ends in one of three ways that it succeeds in
(`GenerateReport.Settles`): it has written the generated file, or removed the one
that stood there, or found none to remove.  A run that fails has made
directories at most (`grown_of_execute`).
-/
import RouteRegistry.Command
import RouteRegistry.Proofs.Disk.Writing
import RouteRegistry.Proofs.Pass.Outcome

namespace RouteRegistry

variable {d d' : Disk} {o : GenerateOptions} {p : ProjectPass} {r : GenerateReport}

/-! ### The generated file -/

namespace ProjectPass

/-- The path of the generated file. -/
def registry (p : ProjectPass) (out : Option Path) : Path :=
  (p.outputDir out).join ⟨RoutesClass.emitter.fileId⟩

/-- The place of the generated file in a tree without links. -/
def registryPlace (p : ProjectPass) (out : Option Path) (here : Place) : Place :=
  (p.registry out).placeFrom here

/-- A directory on the command line wins over the configured one. -/
theorem outputDir_some (p : ProjectPass) (dir : Path) : p.outputDir (some dir) = dir := by
  unfold outputDir
  rcases p.config.outputDir with - | _ <;> rfl

/-- The class stands in the output directory under its own name. -/
theorem steps_registry (p : ProjectPass) (out : Option Path) :
    (p.registry out).steps = (p.outputDir out).stem ++ [.name RoutesClass.emitter.fileId] :=
  Path.steps_join _ (by decide)

/-- The place of the class ends in the name of the generated file. -/
theorem getLast?_registryPlace (p : ProjectPass) (out : Option Path) (here : Place) :
    (p.registryPlace out here).getLast? = some RoutesClass.emitter.fileId := by
  unfold registryPlace Path.placeFrom
  rw [p.steps_registry, Place.after_append]
  exact List.getLast?_concat

/-- What a pass over a project that succeeds has read, and that it is the pass over these files. -/
theorem exists_of_execute {root : Path} {configFile : Option Path}
    (h : execute d root configFile = .ok p) :
    ∃ config files, configOf d root configFile = .ok config ∧ d.scan config root = .ok files ∧
      p = ofFiles root config files := by
  unfold execute at h
  split at h
  case h_1 => cases h
  case h_2 config hconfig =>
    split at h
    case h_1 => cases h
    case h_2 files hfiles => exact ⟨config, files, hconfig, hfiles, (Except.ok.inj h).symm⟩

/-- A pass over a project has one file for the output if it generated it. -/
theorem output_of_execute {root : Path} {configFile : Option Path}
    (h : execute d root configFile = .ok p) {routes : GeneratedRoutes}
    (hr : p.run.outcome.generated? = some routes) :
    ∃ text, p.run.output = [⟨RoutesClass.emitter.fileId, text⟩] := by
  obtain ⟨config, files, -, -, rfl⟩ := exists_of_execute h
  have outcome : (ofFiles root config files).run.outcome = .generated routes := by
    rcases e : (ofFiles root config files).run.outcome with - | - | routes' | - | -
    case generated =>
      rw [e] at hr
      rw [Option.some.inj hr]
    all_goals rw [e] at hr; cases hr
  obtain ⟨text, -, added⟩ := Generator.output_of_generated outcome
  exact ⟨text, added⟩

end ProjectPass

/-! ### Running -/

namespace GenerateReport

/-- A run succeeds if its pass does and nothing keeps it from settling. -/
theorem execute_eq_ok_iff :
    execute d o = (d', .ok r) ↔
      ProjectPass.execute d o.path o.config = .ok r.pass ∧
        settle d o r.pass = (d', none) ∧ r.written = targets o r.pass := by
  unfold execute
  rcases hp : ProjectPass.execute d o.path o.config with e | pass
  · exact ⟨nofun, nofun⟩
  dsimp only
  rcases hs : settle d o pass with ⟨d₁, - | f⟩
  · constructor
    · intro h
      dsimp only at h
      obtain ⟨rfl, e⟩ := Prod.mk.inj h
      obtain rfl := Except.ok.inj e
      exact ⟨rfl, hs, rfl⟩
    · rintro ⟨hpass, hsettle, hwritten⟩
      obtain rfl := Except.ok.inj hpass
      obtain ⟨rfl, -⟩ := Prod.mk.inj (hs.symm.trans hsettle)
      rw [← hwritten]
  · constructor
    · intro h
      cases (Prod.mk.inj h).2
    · rintro ⟨hpass, hsettle, -⟩
      obtain rfl := Except.ok.inj hpass
      cases (Prod.mk.inj (hs.symm.trans hsettle)).2

/-- A dry run leaves everything as it is. -/
theorem settle_dry (d : Disk) (p : ProjectPass) (h : o.dryRun = true) :
    settle d o p = (d, none) := by
  unfold settle
  dsimp only
  rw [if_pos h]

/-- Where routes were generated, their file is written. -/
theorem settle_of_generated (h : o.dryRun = false) {routes : GeneratedRoutes}
    (hr : p.run.outcome.generated? = some routes) :
    settle d o p = writeAll (p.outputDir o.out) p.run.output d := by
  unfold settle
  dsimp only
  rw [if_neg (by rw [h]; exact Bool.false_ne_true), if_pos (by rw [hr]; rfl)]

/-- Where none were, a class that is left from before is removed. -/
theorem settle_of_not_generated (h : o.dryRun = false) (hr : p.run.outcome.generated? = none) :
    settle d o p =
      match removeStale d (p.outputDir o.out) with
      | .error f => (d, some f)
      | .ok d => (d, none) := by
  have real : ¬ o.dryRun = true := by rw [h]; exact Bool.false_ne_true
  have nothing : ¬ p.run.outcome.generated?.isSome = true := by rw [hr]; exact Bool.false_ne_true
  exact (if_neg real).trans (if_neg nothing)

/-- Where no file stands that an earlier pass could have left, nothing is done. -/
theorem settle_of_clean (h : o.dryRun = false) (hr : p.run.outcome.generated? = none)
    (hfile : d.isFile (p.registry o.out) = false) : settle d o p = (d, none) := by
  have clean : removeStale d (p.outputDir o.out) = .ok d :=
    if_neg fun h => Bool.false_ne_true (hfile.symm.trans h)
  rw [settle_of_not_generated h hr, clean]

/-- A file that stands there is removed. -/
theorem remove_of_settle (h : o.dryRun = false) (hr : p.run.outcome.generated? = none)
    (hfile : d.isFile (p.registry o.out) = true) (hs : settle d o p = (d', none)) :
    d.remove (p.registry o.out) = .ok d' := by
  have stale : removeStale d (p.outputDir o.out) =
      (d.remove (p.registry o.out)).mapError
        (.ofOs ("failed to remove " ++ (p.registry o.out).text)) := if_pos hfile
  rw [settle_of_not_generated h hr, stale] at hs
  rcases hrem : d.remove (p.registry o.out) with e | d₁
  · rw [hrem] at hs
    cases (Prod.mk.inj hs).2
  · rw [hrem] at hs
    rw [(Prod.mk.inj hs).1]

/-- One file is written into the directory once this is made. -/
theorem writeAll_singleton (dir : Path) (f : GeneratedFile) :
    writeAll dir [f] d = (d', none) ↔
      ∃ d₁, d.makeDirs dir = ⟨d₁, none⟩ ∧ d₁.write (dir.join ⟨f.fileId⟩) f.text = .ok d' := by
  unfold writeAll
  dsimp only
  rcases d.makeDirs dir with ⟨d₁, - | e⟩
  · dsimp only
    rcases hw : d₁.write (dir.join ⟨f.fileId⟩) f.text with e | d₂
    · constructor
      · nofun
      · rintro ⟨d₃, h, hw'⟩
        obtain ⟨rfl, -⟩ := Disk.Attempt.mk.inj h
        cases hw.symm.trans hw'
    · constructor
      · intro h
        obtain ⟨rfl, -⟩ := Prod.mk.inj h
        exact ⟨d₁, rfl, hw⟩
      · rintro ⟨d₃, h, hw'⟩
        obtain ⟨rfl, -⟩ := Disk.Attempt.mk.inj h
        rw [Except.ok.inj (hw.symm.trans hw')]
        rfl
  · constructor
    · nofun
    · rintro ⟨d₃, h, -⟩
      cases (Disk.Attempt.mk.inj h).2

/-- When the file cannot be written, the directories above it are there all the same. -/
theorem disk_of_writeAll {dir : Path} {f : GeneratedFile} {e : CommandFailure}
    (h : writeAll dir [f] d = (d', some e)) : d' = (d.makeDirs dir).disk := by
  unfold writeAll at h
  dsimp only at h
  split at h
  case h_1 => exact (Prod.mk.inj h).1.symm
  case h_2 =>
    split at h
    case h_1 => exact (Prod.mk.inj h).1.symm
    case h_2 => cases (Prod.mk.inj h).2

/-- What a run that succeeds has done to the tree. -/
inductive Settles (d : Disk) (o : GenerateOptions) (p : ProjectPass) : Disk → Prop
  | wrote {routes text d₁ here} : p.run.outcome.generated? = some routes →
      p.run.output = [⟨RoutesClass.emitter.fileId, text⟩] →
      d.makeDirs (p.outputDir o.out) = ⟨d₁, none⟩ →
      d₁.EndsIn (p.registry o.out) (p.registry o.out).steps here RoutesClass.emitter.fileId →
      d₁.node? (here ++ [RoutesClass.emitter.fileId]) ≠ some .dir →
      Settles d o p (d₁.put (here ++ [RoutesClass.emitter.fileId]) (.file text.toUTF8))
  | removed {here} : p.run.outcome.generated? = none → d.isFile (p.registry o.out) = true →
      d.EndsIn (p.registry o.out) (p.registry o.out).steps here RoutesClass.emitter.fileId →
      d.node? (here ++ [RoutesClass.emitter.fileId]) ≠ some .dir →
      Settles d o p (d.erase (here ++ [RoutesClass.emitter.fileId]))
  | kept : p.run.outcome.generated? = none → d.isFile (p.registry o.out) = false →
      Settles d o p d

/-- A run that succeeds has settled the disk in one of the three ways. -/
theorem settles_of_execute (t : d.IsTree) (ho : o.dryRun = false)
    (h : execute d o = (d', .ok r)) : Settles d o r.pass d' := by
  obtain ⟨hpass, hsettle, -⟩ := execute_eq_ok_iff.1 h
  -- one constructor of `Settles` for each branch of `settle`
  rcases hr : r.pass.run.outcome.generated? with - | routes
  · by_cases hfile : d.isFile (r.pass.registry o.out) = true
    · obtain ⟨here, ends, free, rfl⟩ := Disk.endsIn_of_remove t (r.pass.steps_registry o.out)
        (remove_of_settle ho hr hfile hsettle)
      exact .removed hr hfile ends free
    · have clean := Bool.eq_false_iff.2 hfile
      rw [settle_of_clean ho hr clean] at hsettle
      obtain rfl := (Prod.mk.inj hsettle).1
      exact .kept hr clean
  · obtain ⟨text, hout⟩ := ProjectPass.output_of_execute hpass hr
    rw [settle_of_generated ho hr, hout, writeAll_singleton] at hsettle
    obtain ⟨d₁, hmade, hwrite⟩ := hsettle
    have grown := Disk.grown_of_makeDirs t hmade
    obtain ⟨here, ends, free, rfl⟩ :=
      Disk.endsIn_of_write grown.tree (r.pass.steps_registry o.out) hwrite
    exact .wrote hr hout hmade ends free

/-! ### What is touched -/

/-- The place of the generated file is all that a run touches, but for directories it makes. -/
theorem Settles.touched (t : d.IsTree) (h : Settles d o p d') :
    d' = d ∨
      Disk.Touched (Disk.chain (p.outputDir o.out)) (p.registryPlace o.out d.workDir) d d' := by
  cases h with
  | @wrote routes text d₁ here _ _ made ends free =>
    have grown := Disk.grown_of_makeDirs t made
    have place : here ++ [RoutesClass.emitter.fileId] = p.registryPlace o.out d.workDir :=
      ends.place_eq.trans (congrArg (Place.after · _) grown.workDir)
    exact .inr (place ▸ grown.touched_put (ends.dir grown.tree) free)
  | @removed here _ _ ends free =>
    have place : here ++ [RoutesClass.emitter.fileId] = p.registryPlace o.out d.workDir :=
      ends.place_eq
    exact .inr (place ▸ t.touched_erase free)
  | kept => exact .inl rfl

/-- A run that fails has made directories at most. -/
theorem grown_of_execute {f : CommandFailure} (t : d.IsTree) (ho : o.dryRun = false)
    (h : execute d o = (d', .error f)) : ∃ ps, Disk.Grown ps d d' := by
  unfold execute at h
  rcases hpass : ProjectPass.execute d o.path o.config with e | pass
  · rw [hpass] at h
    obtain rfl := (Prod.mk.inj h).1
    exact ⟨[], .refl t⟩
  rw [hpass] at h
  dsimp only at h
  rcases hs : settle d o pass with ⟨d₁, - | f'⟩
  · rw [hs] at h
    cases (Prod.mk.inj h).2
  rw [hs] at h
  obtain rfl := (Prod.mk.inj h).1
  -- a failure after the pass comes before any file changed: at most directories were made
  rcases hr : pass.run.outcome.generated? with - | routes
  · rw [settle_of_not_generated ho hr] at hs
    split at hs
    · rw [← (Prod.mk.inj hs).1]
      exact ⟨[], .refl t⟩
    · cases (Prod.mk.inj hs).2
  · obtain ⟨text, hout⟩ := ProjectPass.output_of_execute hpass hr
    rw [settle_of_generated ho hr, hout] at hs
    rw [disk_of_writeAll hs]
    exact ⟨_, Disk.grown_makeDirs t _⟩

end GenerateReport

end RouteRegistry

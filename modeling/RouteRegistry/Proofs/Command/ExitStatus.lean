/-
RouteRegistry/Proofs/Command/ExitStatus.lean

What the exit status of a command tells about its pass.

A pass reports an error just when the suffix is missing, and then this is all it
reports.  The place it reports is found by the generator, the directory that the
class would have gone to by a search of its own; both are about the first type
in the order of the scan that carries a configuration marker (`FirstCarrier`,
`firstCarrier_of_configures`, `of_missingSuffix`).

Main result (`exitCode_of_execute`): the commands fail for want of a suffix, and
`generate` also if it cannot write or remove the class.
-/
import RouteRegistry.Proofs.Command.Settling
import RouteRegistry.Proofs.Pass.Severity
import RouteRegistry.Proofs.Path.Parent
import RouteRegistry.Proofs.Project.Reading
import RouteRegistry.Proofs.SourceCatalog.Names

namespace RouteRegistry

open Source

/-! ### Files of a scan -/

namespace Disk

/-- A source has an extension, and so it has a name. -/
theorem exists_fileName?_of_isSource {config : Config} {path : Path}
    (h : isSource config path = true) : ∃ n, path.fileName? = some n := by
  have java : path.extension? = some "java" := by
    unfold isSource Path.isJavaSource at h
    simp only [Bool.and_eq_true, beq_iff_eq] at h
    exact h.1.1
  rcases name : path.fileName? with - | n
  · unfold Path.extension? at java
    rw [name] at java
    cases java
  · exact ⟨n, rfl⟩

/-- A file that was scanned has a name. -/
theorem exists_fileName?_of_scan {d : Disk} {config : Config} {root : Path} {files : List FileModel}
    (h : d.scan config root = .ok files) {m : FileModel} (hm : m ∈ files) :
    ∃ n, m.path.fileName? = some n := by
  unfold scan at h
  split at h
  case h_1 => cases h
  case h_2 dir _ =>
    obtain rfl := Except.ok.inj h
    split at hm
    case isTrue => exact absurd hm List.not_mem_nil
    case isFalse =>
      obtain ⟨s, hs, rfl⟩ := List.mem_map.1 hm
      rw [sources_eq_mergeSort, List.mem_mergeSort] at hs
      obtain ⟨names, hnames, hs⟩ := List.mem_filterMap.1 hs
      obtain ⟨content, -, hs⟩ := Option.bind_eq_some_iff.1 hs
      obtain ⟨text, -, rfl⟩ := Option.map_eq_some_iff.1 hs
      -- a scanned file passed the pick, whose first test is the extension: its path ends in a name
      have picked := (List.mem_filter.1 (sourceNames_eq_filter d config root dir ▸ hnames)).2
      unfold isPicked at picked
      simp only [Bool.and_eq_true] at picked
      exact exists_fileName?_of_isSource picked.1.1

end Disk

/-! ### The first carrier -/

/-- The annotation goes by the name of a configuration marker. -/
def MarkerNames.configures (names : MarkerNames) (a : AnnotationUse) : Bool :=
  names.configuration.contains (lastSegment a.name)

namespace SourceCatalog

/-- Among all types of the files, the type `e` of the file `m` is the first one with a configuration
marker, and `a` is its first. -/
structure FirstCarrier (names : MarkerNames) (files : List FileModel) (m : FileModel)
    (e : TypeEntity) (a : AnnotationUse) : Prop where
  carrier : (entities files).find? (fun x => x.2.annotations.any names.configures) = some (m, e)
  marker : e.annotations.find? names.configures = some a

/-- The file of the first carrier is one of the files. -/
theorem FirstCarrier.mem {names : MarkerNames} {files : List FileModel} {m : FileModel}
    {e : TypeEntity} {a : AnnotationUse} (h : FirstCarrier names files m e a) : m ∈ files := by
  obtain ⟨x, hx, inside⟩ := List.mem_flatMap.1 (List.mem_of_find?_eq_some h.carrier)
  obtain ⟨_, -, same⟩ := List.mem_map.1 inside
  obtain ⟨rfl, -⟩ := Prod.mk.inj same
  exact hx

/-- The declaration that configures a pass over the files is that of the first carrier. -/
theorem firstCarrier_of_configures {names : MarkerNames} {files : List FileModel} {d : Declaration}
    {marker : Marker} (h : Configures names (ofModels files).toCatalog d marker) :
    ∃ m e a i, FirstCarrier names files m e a ∧
      (declarations (ofModels files).known files)[i]? =
        some (declarationOf (ofModels files).known m e) ∧
      { declarationOf (ofModels files).known m e with id := ⟨.ofNat i⟩ } = d ∧
      markerOf m (contextOf (ofModels files).known m e) a = marker := by
  obtain ⟨i, x, stands, first, rfl⟩ :=
    IndexedCatalog.exists_of_find?_ofList (fun _ _ => rfl) h.carrier
  rw [declarations_eq, List.find?_map, Option.map_eq_some_iff] at first
  obtain ⟨⟨m, e⟩, first, rfl⟩ := first
  -- the generator looks at the markers of the declaration, which are the type's annotations
  have carries (x : FileModel × TypeEntity) :
      (declarationOf (ofModels files).known x.1 x.2).hasMarker names.configuration =
        x.2.annotations.any names.configures :=
    List.any_map
  have marked : (e.annotations.map (markerOf m (contextOf (ofModels files).known m e))).find?
      (fun x => names.configuration.contains x.simpleName) = some marker := h.marker
  rw [List.find?_map, Option.map_eq_some_iff] at marked
  obtain ⟨a, marked, rfl⟩ := marked
  refine ⟨m, e, a, i, ⟨?_, marked⟩, stands, rfl, rfl⟩
  rw [← first]
  exact congrArg (List.find? · (entities files)) (funext fun x => (carries x).symm)

end SourceCatalog

/-! ### Passes without a suffix -/

namespace ProjectPass

open SourceCatalog

/-- A pass over files has an error just when the suffix is missing. -/
theorem hasErrors_ofFiles {root : Path} {config : Config} {files : List FileModel} :
    (ofFiles root config files).hasErrors = true ↔
      (ofFiles root config files).run.outcome = .missingSuffix :=
  Generator.hasErrors_run_iff

/-- Without a suffix, the pass reports that at the first carrier's marker.  It also knows the
directory of the first carrier's file, as long as identities suffice. -/
theorem of_missingSuffix {root : Path} {config : Config} {files : List FileModel}
    (missing : (ofFiles root config files).run.outcome = .missingSuffix) :
    ∃ m e a, FirstCarrier config.markers files m e a ∧
      (ofFiles root config files).run.diagnostics =
        [.missingSuffix (lastSegment a.name) (some ⟨m.path, a.line⟩)] ∧
      ((entities files).length ≤ UInt32.size →
        (ofFiles root config files).carrierDir? = some (root.join m.path.parent)) := by
  let g := generatorOf config
  obtain ⟨d, marker, configures, blank⟩ := (g.run_orderly _ .never .memory []).2.1.1 missing
  have found := Generator.configuration?_eq_some_iff.2 ⟨d, marker, configures, rfl⟩
  have unusable : (MarkerNames.configurationOf d marker).usableSuffix = none := by
    rw [MarkerNames.usableSuffix_configurationOf]
    exact blank
  obtain ⟨m, e, a, i, first, stands, rfl, rfl⟩ := firstCarrier_of_configures configures
  refine ⟨m, e, a, first, ?_, fun room => ?_⟩
  · show (g.run _ .never .memory []).diagnostics = _
    rw [g.run_of_missingSuffix found unusable]
    rfl
  · have carrier : (ofFiles root config files).carrier? = some ⟨.ofNat i⟩ := by
      unfold carrier?
      rw [missing]
      exact congrArg (Option.map Configuration.carrier) found
    have fits : (declarations (ofModels files).known files).length ≤ UInt32.size := by
      rwa [declarations_eq, List.length_map]
    -- positions fit into identities, so the catalog finds the carrier again under its own
    have kept : (ofModels files).types.get? ⟨.ofNat i⟩ = some _ :=
      IndexedCatalog.get?_ofList fits stands
    unfold carrierDir?
    rw [carrier]
    show ((ofModels files).types.get? ⟨.ofNat i⟩).bind _ = _
    rw [kept]
    rfl

end ProjectPass

/-! ### Exit codes -/

/-- The exit code of a pass can be told from its outcome alone. -/
theorem exitCodeOf_eq {root : Path} {config : Config} {files : List FileModel} :
    exitCodeOf (.ofFiles root config files) =
      if (ProjectPass.ofFiles root config files).run.outcome = .missingSuffix then 1 else 0 := by
  unfold exitCodeOf
  simp only [ProjectPass.hasErrors_ofFiles]

/-- Listing the routes adds no way to fail to those of the pass. -/
theorem RoutesOptions.exitCode_run {d : Disk} {o : RoutesOptions} {p : ProjectPass}
    (h : ProjectPass.execute d o.path o.config = .ok p) : (o.run d).exitCode = exitCodeOf p := by
  unfold run
  rw [h]

/-- Writing and removing the class can fail as well. -/
theorem GenerateOptions.exitCode_run {d : Disk} {o : GenerateOptions} {p : ProjectPass}
    (h : ProjectPass.execute d o.path o.config = .ok p) :
    (o.run d).exitCode =
      if (GenerateReport.settle d o p).2 = none then exitCodeOf p else 1 := by
  unfold run GenerateReport.execute
  rw [h]
  dsimp only
  rcases GenerateReport.settle d o p with ⟨d', - | f⟩ <;> rfl

/-- A pass that succeeds reports an error just when it ends for want of a suffix.  Then both
commands fail; otherwise `routes` succeeds, and `generate` does unless the class cannot be written
or removed.  For want of a suffix the one diagnostic is the error ARG001 at the line of the first
carrier's marker, in the carrier's file.  That file is in the directory of the carrier, as long as
there are identities for all declarations. -/
theorem exitCode_of_execute {d : Disk} {root : Path} {configFile : Option Path} {p : ProjectPass}
    (h : ProjectPass.execute d root configFile = .ok p) :
    (p.hasErrors = true ↔ p.run.outcome = .missingSuffix) ∧
    (∀ json, (RoutesOptions.run ⟨root, configFile, json⟩ d).exitCode =
      if p.run.outcome = .missingSuffix then 1 else 0) ∧
    (∀ out dryRun, (GenerateOptions.run ⟨root, out, configFile, dryRun⟩ d).exitCode =
      if p.run.outcome = .missingSuffix ∨
        (GenerateReport.settle d ⟨root, out, configFile, dryRun⟩ p).2 ≠ none then 1 else 0) ∧
    (p.run.outcome = .missingSuffix →
      ∃ m e a, SourceCatalog.FirstCarrier p.config.markers p.files m e a ∧
        p.run.diagnostics = [.missingSuffix (lastSegment a.name) (some ⟨m.path, a.line⟩)] ∧
        (∃ diagnostic, p.run.diagnostics = [diagnostic] ∧ diagnostic.code = .missingSuffix ∧
          diagnostic.severity = .error ∧ diagnostic.location = some ⟨m.path, a.line⟩) ∧
        ((SourceCatalog.entities p.files).length ≤ UInt32.size →
          ∃ dir name, p.carrierDir? = some dir ∧
            ∀ here, (p.root.join m.path).placeFrom here = dir.placeFrom here ++ [name])) := by
  obtain ⟨config, files, -, scanned, rfl⟩ := ProjectPass.exists_of_execute h
  refine ⟨ProjectPass.hasErrors_ofFiles, fun json => ?_, fun out dryRun => ?_, fun missing => ?_⟩
  · rw [RoutesOptions.exitCode_run h, exitCodeOf_eq]
  · rw [GenerateOptions.exitCode_run h, exitCodeOf_eq]
    by_cases settled : (GenerateReport.settle d ⟨root, out, configFile, dryRun⟩
        (.ofFiles root config files)).2 = none
    · simp only [settled, if_true, ne_eq, not_true, or_false]
    · simp only [settled, if_false, ne_eq, not_false_iff, or_true, if_true]
  -- the carrier's own file was scanned, so its place is the carrier's directory and one name more
  · obtain ⟨m, e, a, first, only, carrierDir⟩ := ProjectPass.of_missingSuffix missing
    obtain ⟨name, named⟩ := Disk.exists_fileName?_of_scan scanned first.mem
    refine ⟨m, e, a, first, only, ⟨_, only, rfl, rfl, rfl⟩,
      fun room => ⟨_, name, carrierDir room, fun here => ?_⟩⟩
    show (root.join m.path).placeFrom here = _
    rw [Path.placeFrom_join, Path.placeFrom_join, Path.placeFrom_parent named]

/-- A project with one file, whose second type has a marker without a suffix to show. -/
def blankProject : Disk :=
  ⟨[(["p"], .dir), (["p", "app"], .dir),
    (["p", "app", "A.java"], .file "class A{}\n@AutoRoutes(\"\")\nclass B{}".toUTF8)], []⟩

/-- The diagnostic is about the marker in front of the second type. -/
theorem exitCode_of_execute_blank :
    ∃ p, ProjectPass.execute blankProject ⟨"p"⟩ none = .ok p ∧ p.hasErrors = true ∧
      (RoutesOptions.run ⟨⟨"p"⟩, none, true⟩ blankProject).exitCode = 1 ∧
      (GenerateOptions.run ⟨⟨"p"⟩, none, none, false⟩ blankProject).exitCode = 1 ∧
      ∃ (m : FileModel) (a : AnnotationUse) (diagnostic : Diagnostic) (dir : Path) (name : String),
        p.run.diagnostics = [.missingSuffix (lastSegment a.name) (some ⟨m.path, a.line⟩)] ∧
        p.run.diagnostics = [diagnostic] ∧ diagnostic.code = .missingSuffix ∧
        diagnostic.severity = .error ∧ diagnostic.location = some ⟨m.path, a.line⟩ ∧
        m.path = ⟨"app/A.java"⟩ ∧ a.line = 2 ∧
        p.carrierDir? = some dir ∧
        ∀ here, (p.root.join m.path).placeFrom here = dir.placeFrom here ++ [name] := by
  have evaluated : ((ProjectPass.execute blankProject ⟨"p"⟩ none).toOption.any fun p =>
      p.run.outcome = .missingSuffix ∧ (SourceCatalog.entities p.files).length ≤ 2 ∧
        p.run.diagnostics.map Diagnostic.location = [some ⟨⟨"app/A.java"⟩, 2⟩]) = true := by
    decide +kernel
  rcases h : ProjectPass.execute blankProject ⟨"p"⟩ none with f | p
  · rw [h] at evaluated
    cases evaluated
  rw [h] at evaluated
  obtain ⟨missing, few, place⟩ := of_decide_eq_true evaluated
  obtain ⟨errors, routes, generate, first⟩ := exitCode_of_execute h
  obtain ⟨m, e, a, -, only, ⟨diagnostic, one, code, severity, location⟩, dir⟩ := first missing
  obtain ⟨dir, name, carrierDir, inside⟩ := dir (few.trans (by decide))
  have same : Location.mk m.path a.line = ⟨⟨"app/A.java"⟩, 2⟩ := by
    rw [one, List.map_singleton, location] at place
    exact Option.some.inj (List.singleton_inj.1 place)
  obtain ⟨path, line⟩ := Location.mk.inj same
  refine ⟨p, rfl, errors.2 missing, ?_, ?_, m, a, diagnostic, dir, name, only, one, code, severity,
    location, path, line, carrierDir, inside⟩
  · rw [routes, if_pos missing]
  · rw [generate, if_pos (.inl missing)]

end RouteRegistry

/-
RouteRegistry/Proofs/Project/Reading.lean

A scan reads nothing that a pass writes.

The generated file is no source, no ignore file and no file of a repository, and
a new directory that is not called `.git` or `.jj` holds no repository either.
So what a scan reads is the same before and after a file of that name came or
went and directories were made for it (`Disk.Settled`).

The notes about a linked work tree are the exception: they are read along a path
of their own, and such a path may climb out of a directory that was missing so
far.  `Disk.Steady` says that none does.

Main result (`Settled.execute_eq`): a pass over a project comes out the same
after the change, if its settings were not the file that changed.
-/
import RouteRegistry.Proofs.Disk.Ground
import RouteRegistry.Project.Pass

namespace RouteRegistry.Disk

variable {d d' : Disk} {here p q : Place} {steps : List Component} {ps : List Path}

/-! ### Reading by files alone -/

/-- The rules that hold below a directory depend on the one file only. -/
theorem rulesBelow_eq (d : Disk) (dir : Place) (names : List String) :
    d.rulesBelow dir names = ((d.fileBelow? dir (names.map .name)).map Ignore.rulesOf).getD [] := by
  unfold rulesBelow contentBelow fileBelow?
  rcases contentOf (d.spotBelow dir (names.map .name)) with e | content <;> rfl

theorem firstLine?_eq (d : Disk) (base : Place) (path : Path) :
    d.firstLine? base path =
      (d.fileBelow? base path.steps).bind fun content => (Ignore.textLines content).head? := by
  unfold firstLine? fileBelow?
  rcases contentOf (d.spotBelow base path.steps) with e | content <;> rfl

/-- The rules of a repository depend on its notes and on the file that they lead to. -/
theorem excludeRules_eq (d : Disk) (dir : Place) :
    d.excludeRules dir =
      if (d.fileBelow? dir [.name ".git"]).isSome then
        ((d.linkedRepository? dir).bind fun repository =>
          (contentOf (d.spot (repository.join ⟨"info/exclude"⟩))).toOption.map
            Ignore.rulesOf).getD []
      else d.rulesBelow dir [".git", "info", "exclude"] := by
  unfold excludeRules
  rw [endsAtFile_eq]
  refine if_congr Iff.rfl ?_ rfl
  rcases d.linkedRepository? dir with - | repository
  · rfl
  · rw [Option.bind_some]
    dsimp only
    rcases contentOf (d.spot (repository.join ⟨"info/exclude"⟩)) with e | content <;> rfl

/-! ### Picking sources -/

section

variable {config : Config} {root : Path} {dir : Place} {names : List String}

/-- What has the name of the generated file is taken for generated. -/
theorem isGeneratedSource_concat (names : List String) :
    (Path.ofNames (names ++ [RoutesClass.emitter.fileId])).isGeneratedSource = true := by
  unfold Path.isGeneratedSource
  rw [Path.fileName?_ofNames names (by decide) (by decide)]
  decide

/-- The generated class is no source. -/
theorem ne_fileId_of_isSource (h : isSource config (.ofNames names) = true) {n : String}
    (hn : names.getLast? = some n) : n ≠ RoutesClass.emitter.fileId := by
  rintro rfl
  obtain ⟨front, rfl⟩ := List.getLast?_eq_some_iff.1 hn
  unfold isSource at h
  rw [isGeneratedSource_concat] at h
  simp at h

/-- Whether a scan takes what the names lead to for a source. -/
def isPicked (d : Disk) (config : Config) (root : Path) (dir : Place) (names : List String) :
    Bool :=
  isSource config (.ofNames names) && endsAtFile (d.spotBelow dir (names.map .name)) &&
    d.isReached root dir names

theorem sourceNames_eq_filter (d : Disk) (config : Config) (root : Path) (dir : Place) :
    d.sourceNames config root dir =
      (d.nodes.filterMap fun e => namesBelow? dir e.1).filter (d.isPicked config root dir) :=
  rfl

/-- Names lead to a file only where one stands. -/
theorem endsAtFile_names (t : d.IsTree)
    (h : endsAtFile (d.spotBelow dir (names.map .name)) = true) :
    ∃ content, d.node? (dir ++ names) = some (.file content) := by
  rw [endsAtFile_eq, Option.isSome_iff_exists] at h
  obtain ⟨content, h⟩ := h
  obtain ⟨q, walk⟩ := (fileBelow?_eq_some_iff t).1 h
  have place : q = dir ++ names := walk.place_eq.trans (Place.after_names dir names)
  exact ⟨content, place ▸ walk.getLast?_of_file.1⟩

theorem eq_of_namesBelow? (h : namesBelow? dir p = some names) : p = dir ++ names := by
  unfold namesBelow? at h
  split at h
  case isTrue hdir =>
    obtain ⟨rest, rfl⟩ := List.isPrefixOf_iff_prefix.1 hdir.1
    rw [List.drop_left] at h
    rw [Option.some.inj h]
  case isFalse => cases h

/-- The sources of a scan are the picked files that hold text, in the order of their paths. -/
theorem sources_eq_mergeSort (d : Disk) (config : Config) (root : Path) (dir : Place) :
    d.sources config root dir =
      ((d.sourceNames config root dir).filterMap fun names =>
        (d.fileBelow? dir (names.map .name)).bind fun content =>
          (textOf content).toOption.map fun text =>
            (Path.ofNames names, text)).mergeSort fun a b => !b.1.precedes a.1 := by
  unfold sources fileBelow? contentBelow
  refine congrArg (List.mergeSort · _) (List.filterMap_congr fun names _ => ?_)
  rcases contentOf (d.spotBelow dir (names.map .name)) with e | content
  · rfl
  · dsimp only [Except.toOption, Option.bind_some]
    rcases textOf content with e | text <;> rfl

/-- What a scan picks is decided by the entries for it. -/
theorem sourceNames_of_filter (keep : Place × Node → Bool)
    (hkeep : ∀ e names, e.1 = dir ++ names → d.isPicked config root dir names = true →
      keep e = true) :
    d.sourceNames config root dir =
      ((d.nodes.filter keep).filterMap fun e => namesBelow? dir e.1).filter
        (d.isPicked config root dir) := by
  rw [sourceNames_eq_filter, List.filter_filterMap, List.filter_filterMap, List.filterMap_filter]
  refine List.filterMap_congr fun e _ => ?_
  by_cases kept : keep e = true
  · rw [if_pos kept]
  · -- an entry left out leads to nothing that is picked
    rw [if_neg kept]
    rcases h : namesBelow? dir e.1 with - | names
    · exact Option.filter_none _
    · rw [Option.filter_some,
        if_neg fun picked => kept (hkeep e names (eq_of_namesBelow? h) picked)]

end

/-! ### The change that a pass makes -/

/-- The touched file has the name of the generated one, and no directory was made that would hold a
repository for its name. -/
structure Settled (ps : List Path) (p : Place) (d d' : Disk) : Prop extends Touched ps p d d' where
  named : p.getLast? = some RoutesClass.emitter.fileId
  quiet : ∀ path ∈ ps, .name ".git" ∉ path.components ∧ .name ".jj" ∉ path.components

/-- The notes about linked work trees are read along paths that stay on the ground, so that no
directory made later leads to other notes. -/
structure Steady (d : Disk) : Prop where
  notes : ∀ dir notes, d.linkedNotes? dir = some notes →
    d.Grounded d.workDir (notes.join ⟨"commondir"⟩).steps
  repository : ∀ dir repository, d.linkedRepository? dir = some repository →
    d.Grounded d.workDir (repository.join ⟨"info/exclude"⟩).steps

/-- A tree without `.git` files has no linked work trees. -/
theorem steady_of_entries (t : d.IsTree) (h : ∀ e ∈ d.nodes, e.1.getLast? ≠ some ".git") :
    d.Steady := by
  -- a link is a file named `.git`, of which there is none
  have unlinked : ∀ dir, d.linkedNotes? dir = none := by
    intro dir
    have missing : d.fileBelow? dir (⟨".git"⟩ : Path).steps = none := by
      refine Option.eq_none_iff_forall_ne_some.2 fun content hc => ?_
      obtain ⟨q, walk⟩ := (fileBelow?_eq_some_iff t).1 hc
      obtain ⟨file, n, last, hq⟩ := walk.getLast?_of_file
      have hne : q ≠ [] := by
        rintro rfl
        cases hq
      have named : n = ".git" :=
        Component.name.inj (Option.some.inj (last.symm.trans (by decide)))
      exact h _ (mem_of_node? hne file) (named ▸ hq)
    unfold linkedNotes?
    rw [firstLine?_eq, missing]
    rfl
  refine ⟨fun dir notes hn => ?_, fun dir repository hr => ?_⟩
  · cases (unlinked dir).symm.trans hn
  · unfold linkedRepository? at hr
    rw [unlinked] at hr
    cases hr

namespace Settled

/-- A place that ends in another name is not the one that has changed. -/
theorem ne_of_getLast? (S : Settled ps p d d') {n : String} (hn : n ≠ RoutesClass.emitter.fileId)
    (h : q.getLast? = some n) : q ≠ p := by
  rintro rfl
  exact hn (Option.some.inj (h.symm.trans S.named))

/-- A file of another name is found as before. -/
theorem fileBelow?_eq (S : Settled ps p d d') (t : d.IsTree) (ground : d.Grounded here steps)
    {n : String} (hn : n ≠ RoutesClass.emitter.fileId) (last : steps.getLast? = some (.name n)) :
    d'.fileBelow? here steps = d.fileBelow? here steps := by
  refine S.toTouched.fileBelow?_eq t ground fun m hm hp => hn ?_
  obtain rfl := Component.name.inj (Option.some.inj (last.symm.trans hm))
  exact Option.some.inj (hp.symm.trans S.named)

/-! ### Ignore files -/

theorem rulesBelow_eq (S : Settled ps p d d') (t : d.IsTree) (dir : Place) {names : List String}
    {n : String} (hn : n ≠ RoutesClass.emitter.fileId) (last : names.getLast? = some n) :
    d'.rulesBelow dir names = d.rulesBelow dir names := by
  rw [Disk.rulesBelow_eq, Disk.rulesBelow_eq,
    S.fileBelow?_eq t (d.grounded_names dir names) hn (by rw [List.getLast?_map, last]; rfl)]

theorem existsBelow_eq (S : Settled ps p d d') (t : d.IsTree) {n : String}
    (hn : n ≠ RoutesClass.emitter.fileId) (new : ∀ path ∈ ps, .name n ∉ path.components)
    (dir : Place) : d'.existsBelow dir [n] = d.existsBelow dir [n] := by
  have same : d'.node? (dir ++ [n]) = d.node? (dir ++ [n]) := by
    -- a new directory has the name of a component of the paths
    refine (S.nodes _ (S.ne_of_getLast? hn List.getLast?_concat)).resolve_right ?_
    rintro ⟨⟨-, path, hpath, -, m, hm, last⟩, -⟩
    rw [List.getLast?_concat] at last
    exact new path hpath (Option.some.inj last ▸ hm)
  rw [Bool.eq_iff_iff, existsBelow_iff S.tree, existsBelow_iff t, same]

/-- A directory is a repository as before. -/
theorem isRepository_eq (S : Settled ps p d d') (t : d.IsTree) :
    d'.isRepository = d.isRepository := by
  funext dir
  unfold isRepository
  rw [S.existsBelow_eq t (by decide) fun path h => (S.quiet path h).1,
    S.existsBelow_eq t (by decide) fun path h => (S.quiet path h).2]

theorem linkedNotes?_eq (S : Settled ps p d d') (t : d.IsTree) (dir : Place) :
    d'.linkedNotes? dir = d.linkedNotes? dir := by
  have steps : (⟨".git"⟩ : Path).steps = [".git"].map .name := by decide
  unfold linkedNotes?
  rw [firstLine?_eq, firstLine?_eq, steps,
    S.fileBelow?_eq t (d.grounded_names dir [".git"]) (by decide) rfl]

theorem getLast?_steps_join (path : Path) {q : Path} {n : String} (hrel : q.isAbsolute = false)
    (hq : q.steps.getLast? = some (.name n)) : (path.join q).steps.getLast? = some (.name n) := by
  rw [Path.steps_join path hrel, List.getLast?_append, hq]
  rfl

/-- A link to another repository leads where it led. -/
theorem linkedRepository?_eq (S : Settled ps p d d') (t : d.IsTree) (steady : d.Steady)
    (dir : Place) : d'.linkedRepository? dir = d.linkedRepository? dir := by
  unfold linkedRepository?
  rw [S.linkedNotes?_eq t]
  rcases h : d.linkedNotes? dir with - | notes
  · simp only [Option.bind_eq_bind, Option.bind_none]
  · have last : (notes.join ⟨"commondir"⟩).steps.getLast? = some (.name "commondir") :=
      getLast?_steps_join notes (by decide) (by decide)
    have same : d'.firstLine? d'.workDir (notes.join ⟨"commondir"⟩) =
        d.firstLine? d.workDir (notes.join ⟨"commondir"⟩) := by
      rw [firstLine?_eq, firstLine?_eq, S.workDir,
        S.fileBelow?_eq t (steady.notes dir notes h) (by decide) last]
    simp only [Option.bind_eq_bind, Option.bind_some, same]

theorem excludeRules_eq (S : Settled ps p d d') (t : d.IsTree) (steady : d.Steady) :
    d'.excludeRules = d.excludeRules := by
  funext dir
  have git : d'.fileBelow? dir [.name ".git"] = d.fileBelow? dir [.name ".git"] :=
    S.fileBelow?_eq t (d.grounded_names dir [".git"]) (by decide) rfl
  rw [Disk.excludeRules_eq, Disk.excludeRules_eq, git, S.linkedRepository?_eq t steady,
    S.rulesBelow_eq t dir (n := "exclude") (by decide) rfl]
  rcases h : d.linkedRepository? dir with - | repository
  · simp only [Option.bind_none]
  · have last : (repository.join ⟨"info/exclude"⟩).steps.getLast? = some (.name "exclude") :=
      getLast?_steps_join repository (by decide) (by decide)
    have same : d'.fileBelow? d'.workDir (repository.join ⟨"info/exclude"⟩).steps =
        d.fileBelow? d.workDir (repository.join ⟨"info/exclude"⟩).steps := by
      rw [S.workDir, S.fileBelow?_eq t (steady.repository dir repository h) (by decide) last]
    simp only [Option.bind_some, fileAt?_eq, same]

/-- Every place is judged as before. -/
theorem ignoreVerdict_eq (S : Settled ps p d d') (t : d.IsTree) (steady : d.Steady) :
    d'.ignoreVerdict = d.ignoreVerdict := by
  funext ls isDir
  have ignore : (fun dir => d'.rulesBelow dir [".ignore"]) =
      fun dir => d.rulesBelow dir [".ignore"] :=
    funext fun dir => S.rulesBelow_eq t dir (n := ".ignore") (by decide) rfl
  have gitignore : (fun dir => d'.rulesBelow dir [".gitignore"]) =
      fun dir => d.rulesBelow dir [".gitignore"] :=
    funext fun dir => S.rulesBelow_eq t dir (n := ".gitignore") (by decide) rfl
  unfold ignoreVerdict repositoryLevels
  rw [S.isRepository_eq t, S.excludeRules_eq t steady, ignore, gitignore]

/-! ### Sources -/

/-- A scan passes over a node that stood there before just when it did so then. -/
theorem isSkipped_eq (S : Settled ps p d d') (t : d.IsTree) (steady : d.Steady) (root : Path)
    {dir : Place} {names : List String} (hp : dir ++ names ≠ p)
    (hnode : d.node? (dir ++ names) ≠ none) :
    d'.isSkipped root dir names = d.isSkipped root dir names := by
  unfold isSkipped
  rw [S.ignoreVerdict_eq t steady, S.node?_of_ne_none hp hnode]

/-- A walk reaches the same files, apart from the one that has changed. -/
theorem isReached_eq (S : Settled ps p d d') (t : d.IsTree) (steady : d.Steady) (root : Path)
    {dir : Place} {names : List String} (hp : dir ++ names ≠ p)
    (hnode : d.node? (dir ++ names) ≠ none) :
    d'.isReached root dir names = d.isReached root dir names := by
  unfold isReached
  refine List.all_congr rfl fun k => congrArg (!·) ?_
  -- each name on the way is that of a directory above, but the last
  by_cases hlast : names.drop (k + 1) = []
  · rw [List.take_of_length_le (List.drop_eq_nil_iff.1 hlast),
      S.isSkipped_eq t steady root hp hnode]
  · have above : d.node? (dir ++ names.take (k + 1)) = some .dir := by
      refine t.above_append _ hlast ?_
      rwa [List.append_assoc, List.take_append_drop]
    rw [S.isSkipped_eq t steady root (fun e => S.before (e ▸ above)) (by rw [above]; nofun)]

section

variable {config : Config} {root : Path} {dir : Place} {names : List String}

/-- A source reads as before. -/
theorem fileBelow?_source (S : Settled ps p d d') (t : d.IsTree)
    (source : isSource config (.ofNames names) = true) (dir : Place) :
    d'.fileBelow? dir (names.map .name) = d.fileBelow? dir (names.map .name) := by
  refine S.toTouched.fileBelow?_eq t (d.grounded_names dir names) fun n hn hp => ?_
  rw [List.getLast?_map] at hn
  obtain ⟨m, hm, e⟩ := Option.map_eq_some_iff.1 hn
  obtain rfl := Component.name.inj e
  exact ne_fileId_of_isSource source hm (Option.some.inj (hp.symm.trans S.named))

/-- The place that has changed is not a source's. -/
theorem place_of_isSource (S : Settled ps p d d')
    (source : isSource config (.ofNames names) = true) : dir ++ names ≠ p := by
  rcases names.eq_nil_or_concat with rfl | ⟨front, n, rfl⟩
  · cases source
  · rw [List.concat_eq_append] at source ⊢
    refine S.ne_of_getLast? (ne_fileId_of_isSource source List.getLast?_concat) ?_
    rw [← List.append_assoc, List.getLast?_concat]

/-- The same files are picked. -/
theorem isPicked_eq (S : Settled ps p d d') (t : d.IsTree) (steady : d.Steady) :
    d'.isPicked config root dir = d.isPicked config root dir := by
  funext names
  unfold isPicked
  -- the tests go from the path to the file to the ignore rules, each asked only if the ones before
  -- it pass
  by_cases source : isSource config (.ofNames names) = true
  case neg => simp only [source, Bool.false_and]
  have file : endsAtFile (d'.spotBelow dir (names.map .name)) =
      endsAtFile (d.spotBelow dir (names.map .name)) := by
    rw [endsAtFile_eq, endsAtFile_eq]
    exact congrArg Option.isSome (S.fileBelow?_source t source dir)
  rw [file]
  by_cases found : endsAtFile (d.spotBelow dir (names.map .name)) = true
  case neg => simp only [found, Bool.and_false, Bool.false_and]
  obtain ⟨content, node⟩ := endsAtFile_names t found
  have hnode : d.node? (dir ++ names) ≠ none := by rw [node]; nofun
  rw [S.isReached_eq t steady root (S.place_of_isSource source) hnode]

theorem sourceNames_eq (S : Settled ps p d d') (t : d.IsTree) (steady : d.Steady) :
    d'.sourceNames config root dir = d.sourceNames config root dir := by
  -- the entries that the change leaves in place and in order
  let keep (e : Place × Node) : Bool := decide (e.1 ≠ p ∧ d.node? e.1 ≠ none)
  have kept : ∀ e names, e.1 = dir ++ names → d.isPicked config root dir names = true →
      keep e = true := by
    intro e names he picked
    simp only [isPicked, Bool.and_eq_true] at picked
    obtain ⟨content, node⟩ := endsAtFile_names t picked.1.2
    refine decide_eq_true ⟨?_, ?_⟩
    · rw [he]
      exact S.place_of_isSource picked.1.1
    · rw [he, node]
      nofun
  have kept' : ∀ e names, e.1 = dir ++ names → d'.isPicked config root dir names = true →
      keep e = true := by
    rw [S.isPicked_eq t steady]
    exact kept
  rw [sourceNames_of_filter keep kept, sourceNames_of_filter keep kept', S.isPicked_eq t steady,
    S.entries keep fun e he => of_decide_eq_true he]

/-- The sources of the scan are the same. -/
theorem sources_eq (S : Settled ps p d d') (t : d.IsTree) (steady : d.Steady) :
    d'.sources config root dir = d.sources config root dir := by
  rw [sources_eq_mergeSort, sources_eq_mergeSort, S.sourceNames_eq t steady]
  refine congrArg (List.mergeSort · _) (List.filterMap_congr fun names hnames => ?_)
  rw [sourceNames_eq_filter] at hnames
  have picked := (List.mem_filter.1 hnames).2
  simp only [isPicked, Bool.and_eq_true] at picked
  rw [S.fileBelow?_source t picked.1.1]

/-- The scan finds the same files. -/
theorem scan_eq (S : Settled ps p d d') (t : d.IsTree) (steady : d.Steady)
    (h : d.dirPlace? root = some dir) : d'.scan config root = d.scan config root := by
  obtain ⟨hr, walk⟩ := (dirPlace?_eq_some_iff t).1 h
  have h' : d'.dirPlace? root = some dir :=
    (dirPlace?_eq_some_iff S.tree).2 ⟨hr, S.workDir ▸ walk.of_dirs S.hasDirsOf⟩
  unfold scan
  rw [h, h']
  dsimp only
  rw [S.sources_eq t steady]

end

/-! ### Settings -/

section

variable {file root : Path} {config : Config}

/-- Settings that were read once are read again, unless their file is the touched one. -/
theorem load_eq (S : Settled ps p d d') (t : d.IsTree) (h : Config.load d file = .ok config)
    (away : file.placeFrom d.workDir ≠ p) : Config.load d' file = Config.load d file := by
  have read : ∃ content, (contentOf (d.spot file)).toOption = some content := by
    unfold Config.load readText at h
    rcases e : contentOf (d.spot file) with error | content
    · rw [e] at h
      cases h
    · exact ⟨content, rfl⟩
  obtain ⟨content, q, found⟩ := read.imp fun _ => contentOf_toOption_eq_some_iff.1
  obtain ⟨hr, walk⟩ := t.spot_eq_ok_iff.1 found
  have hq : q ≠ p := fun e => away (walk.place_eq.symm.trans e)
  -- the settings are not the registry's file, so they are still found where they were
  have found' : d'.spot file = .ok (.taken q (.file content)) :=
    S.tree.spot_eq_ok_iff.2 ⟨hr, S.workDir.symm ▸ S.toTouched.leads_file walk hq⟩
  unfold Config.load readText
  rw [found, found']

/-- The same configuration is loaded. -/
theorem loadFor_eq (S : Settled ps p d d') (t : d.IsTree) {dir : Place}
    (hroot : d.dirPlace? root = some dir) (h : Config.loadFor d root = .ok config) :
    Config.loadFor d' root = Config.loadFor d root := by
  obtain ⟨-, walk⟩ := (dirPlace?_eq_some_iff t).1 hroot
  obtain ⟨q, walk⟩ := leads_stem walk
  have steps : (root.join ⟨Config.fileName⟩).steps = root.stem ++ [Config.fileName].map .name :=
    Path.steps_join root (by decide)
  have same : d'.isFile (root.join ⟨Config.fileName⟩) = d.isFile (root.join ⟨Config.fileName⟩) := by
    have ground : d.Grounded d.workDir (root.join ⟨Config.fileName⟩).steps :=
      steps ▸ walk.grounded_append (d.grounded_names q _)
    have last : (root.join ⟨Config.fileName⟩).steps.getLast? = some (.name Config.fileName) := by
      rw [steps]
      exact List.getLast?_concat
    unfold isFile
    rw [endsAtFile_eq, endsAtFile_eq, fileAt?_eq, fileAt?_eq, S.workDir,
      S.fileBelow?_eq t ground (by decide) last]
  -- the settings have a name of their own, which the registry does not
  have away : (root.join ⟨Config.fileName⟩).placeFrom d.workDir ≠ p := by
    refine S.ne_of_getLast? (n := Config.fileName) (by decide) ?_
    unfold Path.placeFrom
    rw [steps, Place.after_append, Place.after_names]
    exact List.getLast?_concat
  unfold Config.loadFor at h ⊢
  dsimp only at h ⊢
  rw [same]
  split
  case isTrue hfile =>
    rw [if_pos hfile] at h
    exact S.load_eq t h away
  case isFalse => rfl

end

/-! ### Passes -/

theorem eq_ok_of_mapError {ε ε' α : Type} {r : Except ε α} {f : ε → ε'} {a : α}
    (h : r.mapError f = .ok a) : r = .ok a := by
  rcases r with e | b
  · cases h
  · rw [Except.ok.inj h]

/-- A pass over the project comes out the same. -/
theorem execute_eq (S : Settled ps p d d') (t : d.IsTree) (steady : d.Steady) {root : Path}
    {configFile : Option Path} {pass : ProjectPass}
    (away : ∀ file, configFile = some file → file.placeFrom d.workDir ≠ p)
    (h : ProjectPass.execute d root configFile = .ok pass) :
    ProjectPass.execute d' root configFile = .ok pass := by
  unfold ProjectPass.execute at h ⊢
  rcases hc : ProjectPass.configOf d root configFile with e | config
  · rw [hc] at h
    cases h
  rw [hc] at h
  dsimp only at h
  obtain ⟨dir, hroot⟩ : ∃ dir, d.dirPlace? root = some dir := by
    rcases hdir : d.dirPlace? root with - | dir
    · unfold scan at h
      rw [hdir] at h
      cases h
    · exact ⟨dir, rfl⟩
  have settings : ProjectPass.configOf d' root configFile = .ok config := by
    unfold ProjectPass.configOf at hc ⊢
    rcases configFile with - | file
    · dsimp only at hc ⊢
      rw [S.loadFor_eq t hroot (eq_ok_of_mapError hc), hc]
    · dsimp only at hc ⊢
      rw [S.load_eq t (eq_ok_of_mapError hc) (away file rfl), hc]
  rw [settings]
  dsimp only
  rw [S.scan_eq t steady hroot]
  exact h

end Settled

end RouteRegistry.Disk

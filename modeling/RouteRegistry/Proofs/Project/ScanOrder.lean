/-
RouteRegistry/Proofs/Project/ScanOrder.lean

The files of a scan and the order they are in.

A scan walks the tree (`Disk.walked`), reads the sources it comes by
(`Disk.source?`), in whatever order that happens, and puts the files into the
order of their paths (`inPathOrder`).  Different files have different paths and
paths are linearly ordered, so nothing of the order before is left
(`inPathOrder_eq`).

Main result (`scan_canonical`): however the nodes of the tree are listed and in
whatever order the files are delivered, the scan is the same, and with it the
whole pass; the files are those of the readable sources, each once, in strictly
increasing order of their paths.
-/
import Mathlib.Data.List.Nodup
import RouteRegistry.Proofs.Disk.Listing
import RouteRegistry.Proofs.Project.Reading

namespace RouteRegistry

open Source

/-! ### Order of files -/

/-- The files in the order of their paths. -/
def inPathOrder (files : List FileModel) : List FileModel :=
  files.mergeSort fun f g => !g.path.precedes f.path

theorem not_precedes_iff {p q : Path} : (!q.precedes p) = true ↔ p.bytes ≤ q.bytes := by
  rw [Bool.not_eq_true', ← Bool.not_eq_true, Path.precedes_iff, List.not_lt]

/-- Files in path order are in the order of the bytes of their paths. -/
theorem pairwise_inPathOrder (files : List FileModel) :
    (inPathOrder files).Pairwise fun f g => f.path.bytes ≤ g.path.bytes := by
  refine (List.pairwise_mergeSort ?_ ?_ files).imp fun h => not_precedes_iff.1 h
  · intro f g h
    simp only [not_precedes_iff]
    exact List.le_trans
  · intro f g
    simp only [Bool.or_eq_true, not_precedes_iff]
    exact List.le_total _ _

section

variable {files parsed : List FileModel} (distinct : (files.map (·.path.bytes)).Nodup)

include distinct

/-- Files with different paths are put into the same order wherever they were before. -/
theorem inPathOrder_of_perm (hperm : parsed.Perm files) :
    inPathOrder parsed = inPathOrder files := by
  have perm : (inPathOrder parsed).Perm (inPathOrder files) :=
    ((List.mergeSort_perm _ _).trans hperm).trans (List.mergeSort_perm _ _).symm
  refine List.Perm.eq_of_pairwise (fun f g hf hg hfg hgf => ?_) (pairwise_inPathOrder parsed)
    (pairwise_inPathOrder files) perm
  have mem {h : FileModel} : h ∈ inPathOrder files → h ∈ files := List.mem_mergeSort.1
  exact List.inj_on_of_nodup_map distinct (mem (perm.mem_iff.1 hf)) (mem hg)
    (List.le_antisymm hfg hgf)

/-- Files at different paths are in strictly increasing order. -/
theorem increasing_inPathOrder :
    (inPathOrder files).Pairwise fun f g => f.path.bytes < g.path.bytes := by
  have different : (inPathOrder files).Pairwise fun f g => f.path.bytes ≠ g.path.bytes :=
    List.pairwise_map.1 (((List.mergeSort_perm files _).map _).nodup_iff.2 distinct)
  exact ((pairwise_inPathOrder files).and different).imp fun h => Std.lt_of_le_of_ne h.1 h.2

theorem nodup_paths_inPathOrder : ((inPathOrder files).map (·.path)).Nodup := by
  refine List.pairwise_map.2 ((increasing_inPathOrder distinct).imp fun {f g} hlt e => ?_)
  rw [e] at hlt
  exact List.lt_irrefl _ hlt

end

/-! ### Walks and sources -/

namespace Disk

variable {d d' : Disk} {config : Config} {root : Path} {dir : Place} {names : List String}

/-- The names that lead from the directory with the path `root` to what a walk comes by, in the
order in which the nodes are listed. -/
def walked (d : Disk) (root : Path) (dir : Place) : List (List String) :=
  if isStandardInput root then []
  else (d.nodes.filterMap fun e => namesBelow? dir e.1).filter (d.isReached root dir)

/-- The text of the file where the names lead from the directory. -/
def textBelow? (d : Disk) (dir : Place) (names : List String) : Option String :=
  (d.contentBelow dir names).toOption.bind fun content => (textOf content).toOption

/-- The model of the source where the names lead, if there is one that can be read. -/
def source? (d : Disk) (config : Config) (dir : Place) (names : List String) :
    Option FileModel :=
  if isSource config (.ofNames names) then
    (d.textBelow? dir names).map (FileModel.read (.ofNames names))
  else none

/-- The names lead to a Java file with this text, and it is neither generated nor excluded. -/
structure IsReadable (d : Disk) (config : Config) (dir : Place) (names : List String)
    (text : String) : Prop where
  java : (Path.ofNames names).isJavaSource = true
  written : (Path.ofNames names).isGeneratedSource = false
  included : config.isExcluded (.ofNames names) = false
  content : ∃ content, d.contentBelow dir names = .ok content ∧
    String.fromUTF8? content = some text

theorem textBelow?_eq_some_iff {text : String} :
    d.textBelow? dir names = some text ↔
      ∃ content, d.contentBelow dir names = .ok content ∧ String.fromUTF8? content = some text := by
  have text_of (content : ByteArray) :
      (textOf content).toOption = String.fromUTF8? content := by
    unfold textOf
    rcases String.fromUTF8? content with - | t <;> rfl
  unfold textBelow?
  simp only [text_of]
  rcases d.contentBelow dir names with e | content
  · exact ⟨nofun, fun ⟨_, h, _⟩ => nomatch h⟩
  · simp [Except.toOption]

/-- A file is a source of the scan just where it can be read and is picked. -/
theorem source?_eq_some_iff {f : FileModel} :
    d.source? config dir names = some f ↔
      ∃ text, d.IsReadable config dir names text ∧ f = .read (.ofNames names) text := by
  have source : isSource config (.ofNames names) = true ↔
      (Path.ofNames names).isJavaSource = true ∧ (Path.ofNames names).isGeneratedSource = false ∧
        config.isExcluded (.ofNames names) = false := by
    unfold isSource
    simp only [Bool.and_eq_true, Bool.not_eq_true', and_assoc]
  unfold source?
  split
  case isTrue h =>
    obtain ⟨java, written, included⟩ := source.1 h
    rw [Option.map_eq_some_iff]
    refine exists_congr fun text => and_congr ?_ eq_comm
    rw [textBelow?_eq_some_iff]
    exact ⟨fun content => ⟨java, written, included, content⟩, fun r => r.content⟩
  case isFalse h =>
    refine ⟨nofun, fun ⟨_, r, _⟩ => absurd (source.2 ⟨r.java, r.written, r.included⟩) h⟩

theorem path_of_source? {f : FileModel} (h : d.source? config dir names = some f) :
    f.path = .ofNames names := by
  obtain ⟨text, -, rfl⟩ := source?_eq_some_iff.1 h
  rfl

/-- The sources with their text are the sources that the walk comes by, in order. -/
theorem models_sources (d : Disk) (config : Config) (root : Path) (dir : Place) :
    (d.sources config root dir).map (fun s => FileModel.read s.1 s.2) =
      inPathOrder (((d.nodes.filterMap fun e => namesBelow? dir e.1).filter
        (d.isReached root dir)).filterMap (d.source? config dir)) := by
  have order (l : List (Path × String)) :
      (l.mergeSort fun a b => !b.1.precedes a.1).map (fun s => FileModel.read s.1 s.2) =
        inPathOrder (l.map fun s => FileModel.read s.1 s.2) :=
    List.map_mergeSort fun _ _ _ _ => rfl
  rw [sources_eq_mergeSort, order, List.map_filterMap, sourceNames_eq_filter,
    List.filterMap_filter, List.filterMap_filter]
  refine congrArg inPathOrder (List.filterMap_congr fun names _ => ?_)
  have text : (((d.fileBelow? dir (names.map .name)).bind fun content =>
        (textOf content).toOption.map fun text => (Path.ofNames names, text)).map
          fun s => FileModel.read s.1 s.2) =
      (d.textBelow? dir names).map (FileModel.read (.ofNames names)) := by
    unfold textBelow?
    rw [Option.map_bind, Option.map_bind]
    exact Option.bind_congr fun content _ => Option.map_map ..
  rw [text]
  unfold isPicked source?
  by_cases file : endsAtFile (d.spotBelow dir (names.map .name)) = true
  · rw [file, Bool.and_true]
    by_cases source : isSource config (.ofNames names) = true <;> simp [source]
  · -- where no file is, there is no text
    have none_there : d.fileBelow? dir (names.map .name) = none := by
      rwa [endsAtFile_eq, Bool.not_eq_true, Option.isSome_eq_false_iff, Option.isNone_iff_eq_none]
        at file
    have nothing : d.textBelow? dir names = none := congrArg (Option.bind · _) none_there
    simp [file, nothing]

/-- A scan puts the sources that it comes by into order. -/
theorem scan_eq_inPathOrder (h : d.dirPlace? root = some dir) :
    d.scan config root =
      .ok (inPathOrder ((d.walked root dir).filterMap (d.source? config dir))) := by
  unfold scan walked
  rw [h]
  dsimp only
  split
  case isTrue => exact congrArg Except.ok (List.mergeSort_nil).symm
  case isFalse => rw [models_sources]

/-! ### Different sources -/

/-- A walk yields names that can stand in directories, at least one. -/
theorem IsListing.mem_walked (l : d.IsListing) (h : names ∈ d.walked root dir) :
    names ≠ [] ∧ ∀ n ∈ names, Path.IsName n := by
  unfold walked at h
  split at h
  case isTrue => cases h
  case isFalse =>
    obtain ⟨e, he, below⟩ := List.mem_filterMap.1 (List.mem_of_mem_filter h)
    have place := eq_of_namesBelow? below
    constructor
    · rintro rfl
      rw [List.append_nil] at place
      simp [namesBelow?, place] at below
    · intro n hn
      exact l.named e he n (place ▸ List.mem_append_right dir hn)

/-- A walk comes to each file once. -/
theorem IsListing.nodup_walked (l : d.IsListing) (root : Path) (dir : Place) :
    (d.walked root dir).Nodup := by
  unfold walked
  split
  case isTrue => exact List.nodup_nil
  case isFalse =>
    have places : (d.nodes.filterMap fun e => namesBelow? dir e.1) =
        (d.nodes.map Prod.fst).filterMap (namesBelow? dir) := by
      rw [List.filterMap_map]
      rfl
    rw [places]
    refine (l.distinct.filterMap fun p q names hp hq => ?_).filter _
    rw [eq_of_namesBelow? hp, eq_of_namesBelow? hq]

/-- The sources that a walk comes by have different paths. -/
theorem IsListing.distinct_sources (l : d.IsListing) (config : Config) (root : Path) (dir : Place) :
    (((d.walked root dir).filterMap (d.source? config dir)).map (·.path.bytes)).Nodup := by
  refine List.pairwise_map.2 (List.pairwise_filterMap.2 ?_)
  refine (l.nodup_walked root dir).imp_of_mem ?_
  intro names names' hmem hmem' hne f hf g hg e
  refine hne ?_
  rw [path_of_source? hf, path_of_source? hg] at e
  obtain ⟨nonempty, valid⟩ := l.mem_walked hmem
  obtain ⟨nonempty', valid'⟩ := l.mem_walked hmem'
  exact Path.bytes_ofNames_inj nonempty nonempty' valid valid' e

/-! ### Other listings -/

namespace Relisted

variable (R : Relisted d d') (l : d.IsListing)

include R

/-- In another order of the nodes the walk comes to the same files. -/
theorem perm_walked (l : d.IsListing) (root : Path) (dir : Place) :
    (d'.walked root dir).Perm (d.walked root dir) := by
  unfold walked
  rw [R.isReached_eq l]
  split
  · exact List.Perm.refl []
  · exact (R.nodes.filterMap _).filter _

include l

/-- The scan does not depend on the order in which nodes are listed. -/
theorem scan_eq : d'.scan = d.scan := by
  funext config root
  have source : d'.source? = d.source? := by
    unfold source? textBelow?
    rw [R.contentBelow_eq l]
  have place := R.dirPlace?_eq l
  rcases h : d.dirPlace? root with - | dir
  · unfold scan
    rw [place, h]
  · rw [scan_eq_inPathOrder h, scan_eq_inPathOrder (place ▸ h), source,
      inPathOrder_of_perm (l.distinct_sources config root dir)
        ((R.perm_walked l root dir).filterMap _)]

/-- Nor does the pass. -/
theorem execute_eq : ProjectPass.execute d' = ProjectPass.execute d := by
  funext root settings
  unfold ProjectPass.execute
  rw [R.configOf_eq l, R.scan_eq l]

end Relisted

/-! ### The files of a scan -/

/-- The sorted files are the readable sources of the walk. -/
theorem mem_inPathOrder_sources {f : FileModel} :
    f ∈ inPathOrder ((d.walked root dir).filterMap (d.source? config dir)) ↔
      ∃ names ∈ d.walked root dir, ∃ text,
        d.IsReadable config dir names text ∧ f = .read (.ofNames names) text := by
  unfold inPathOrder
  simp only [List.mem_mergeSort, List.mem_filterMap, source?_eq_some_iff]

/-- A scan is the same however the nodes of the tree are listed, and so is the whole pass: its
catalog with the numbers in it, and the text that it generates.  In whatever order the walk and the
reading deliver the files, they are put into the same order, which is strictly increasing by the
bytes of the paths, component for component; they are those of the readable sources that the walk
comes by, each once. -/
theorem scan_canonical (l : d.IsListing) (config : Config) (root : Path) :
    (∀ d', Relisted d d' → d'.scan config root = d.scan config root ∧
      ∀ settings, ProjectPass.execute d' root settings = ProjectPass.execute d root settings) ∧
    ∀ dir, d.dirPlace? root = some dir → ∃ files,
      d.scan config root = .ok files ∧
      (∀ (walk : List (List String)) (parsed : List FileModel), walk.Perm (d.walked root dir) →
        parsed.Perm (walk.filterMap (d.source? config dir)) →
        inPathOrder parsed = files ∧
        ∀ settings, ProjectPass.configOf d root settings = .ok config →
          ProjectPass.execute d root settings =
            .ok (.ofFiles root config (inPathOrder parsed))) ∧
      (files.Pairwise fun f g => f.path.bytes < g.path.bytes) ∧
      (∀ f, f ∈ files ↔ ∃ names ∈ d.walked root dir, ∃ text,
        d.IsReadable config dir names text ∧ f = .read (.ofNames names) text) ∧
      ∀ names ∈ d.walked root dir, ∀ text, d.IsReadable config dir names text →
        (files.map (·.path)).count (.ofNames names) = 1 := by
  refine ⟨fun d' R => ⟨by rw [R.scan_eq l], fun settings => by rw [R.execute_eq l]⟩, ?_⟩
  intro dir h
  have distinct := l.distinct_sources config root dir
  have scanned : d.scan config root = _ := scan_eq_inPathOrder h
  refine ⟨_, scanned, ?delivered, increasing_inPathOrder distinct,
    fun f => mem_inPathOrder_sources, ?once⟩
  case delivered =>
    intro walk parsed hwalk hparsed
    have same := inPathOrder_of_perm distinct (hparsed.trans (hwalk.filterMap _))
    refine ⟨same, fun settings hconfig => ?_⟩
    unfold ProjectPass.execute
    rw [hconfig]
    dsimp only
    rw [scanned, same]
  case once =>
    intro names hnames text readable
    have mem := mem_inPathOrder_sources.2 ⟨names, hnames, text, readable, rfl⟩
    exact List.count_eq_one_of_mem (nodup_paths_inPathOrder distinct) (List.mem_map_of_mem mem)

/-- Three sources, one file that was generated and one that is no text. -/
def scattered : Disk :=
  ⟨[(["p"], .dir), (["p", "a.java"], .file "class C{}".toUTF8), (["p", "a-b"], .dir),
    (["p", "a-b", "x.java"], .file "class B{}".toUTF8), (["p", "a"], .dir),
    (["p", "a", "R.g.java"], .file "class R{}".toUTF8),
    (["p", "a", "z.java"], .file "class A{}".toUTF8), (["p", "b.java"], .file ⟨#[255]⟩)], []⟩

/-- The generated file and the one that is no text are left out, and the others come in path order.
-/
theorem scan_canonical_scattered :
    scattered.IsListing ∧ scattered.dirPlace? ⟨"p"⟩ = some ["p"] ∧
    Relisted scattered { scattered with nodes := scattered.nodes.reverse } ∧
    ({ scattered with nodes := scattered.nodes.reverse } : Disk).scan .default ⟨"p"⟩ =
      scattered.scan .default ⟨"p"⟩ ∧
    ∃ files, scattered.scan .default ⟨"p"⟩ = .ok files ∧
      files.map (·.path) = [⟨"a/z.java"⟩, ⟨"a-b/x.java"⟩, ⟨"a.java"⟩] := by
  have l : scattered.IsListing := ⟨by decide, by decide⟩
  have place : scattered.dirPlace? ⟨"p"⟩ = some ["p"] := by decide +kernel
  have reversed : Relisted scattered { scattered with nodes := scattered.nodes.reverse } :=
    ⟨scattered.nodes.reverse_perm, rfl⟩
  obtain ⟨relisted, scanned⟩ := scan_canonical l .default ⟨"p"⟩
  obtain ⟨files, scan, delivered, -⟩ := scanned _ place
  refine ⟨l, place, reversed, (relisted _ reversed).1, files, scan, ?_⟩
  -- a walk that goes by the order of the paths delivers them in order
  let walk : List (List String) :=
    [["a"], ["a", "R.g.java"], ["a", "z.java"], ["a-b"], ["a-b", "x.java"], ["a.java"], ["b.java"]]
  have parsed := (delivered walk _ (by decide +kernel) (List.Perm.refl _)).1
  have sorted : inPathOrder (walk.filterMap (scattered.source? .default ["p"])) =
      walk.filterMap (scattered.source? .default ["p"]) :=
    List.mergeSort_of_pairwise (by decide +kernel)
  rw [← parsed, sorted]
  decide +kernel

end Disk

end RouteRegistry

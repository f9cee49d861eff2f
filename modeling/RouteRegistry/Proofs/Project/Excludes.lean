/-
RouteRegistry/Proofs/Project/Excludes.lean

What the exclude prefixes of the settings cover.

A prefix is compared by its components, so it matters little how it is written:
what counts is the names it leads through (`Path.names`), and separators one more
or less and steps that stay where they are change nothing (`Path.names_append`).
The exception is a `.` in front.  It is a component, and no path that a scan finds
has it, so a prefix that begins with it covers nothing, whatever names follow.

Main result (`Config.isExcluded_ofNames`): a path is excluded exactly if its names
begin with those of a prefix that is relative, never goes up and has no `.` in
front.  Every prefix covers the tree below its names exactly if no tree is covered
by one with a `.` in front alone.
-/
import RouteRegistry.Project.Scan
import RouteRegistry.Proofs.Path.Order

namespace RouteRegistry

namespace Path

/-! ### The names of a path -/

/-- The piece of a path is a step, and does not stay where it is. -/
def moves (piece : List Char) : Bool := decide (piece ≠ [] ∧ piece ≠ ['.'])

/-- The names that the path leads through, as they are written. -/
def names (p : Path) : List String :=
  ((Text.splitOn '/' p.text.toList).filter moves).map String.ofList

/-- The path is relative and never goes up: it is made of names and of steps that stay. -/
structure IsPlain (p : Path) : Prop where
  relative : p.isAbsolute = false
  down : ['.', '.'] ∉ Text.splitOn '/' p.text.toList

instance (p : Path) : Decidable p.IsPlain :=
  decidable_of_iff (p.isAbsolute = false ∧ ['.', '.'] ∉ Text.splitOn '/' p.text.toList)
    ⟨fun h => ⟨h.1, h.2⟩, fun h => ⟨h.relative, h.down⟩⟩

/-- The path begins with a step that stays where it is. -/
def BeginsHere (p : Path) : Prop := (Text.splitOn '/' p.text.toList).head? = some ['.']

instance (p : Path) : Decidable p.BeginsHere := inferInstanceAs (Decidable (_ = _))

/-- What is written behind a separator adds its names to those in front of it. -/
theorem names_append (front behind : String) :
    names ⟨front ++ "/" ++ behind⟩ = names ⟨front⟩ ++ names ⟨behind⟩ := by
  have text : (front ++ "/" ++ behind).toList = front.toList ++ '/' :: behind.toList := by
    rw [String.toList_append, String.toList_append, List.append_assoc]
    rfl
  unfold names
  dsimp only
  rw [text, Text.splitOn_append, List.filter_append, List.map_append]

example : names ⟨"gen//./src/"⟩ = ["gen", "src"] := by decide

/-! ### Components that are names -/

/-- A piece that moves and does not move upwards is a name. -/
theorem componentOf?_of_moves {piece : List Char} (moving : moves piece = true)
    (down : piece ≠ ['.', '.']) : componentOf? piece = some (.name (String.ofList piece)) := by
  obtain ⟨some_char, staying⟩ := of_decide_eq_true moving
  rw [componentOf?, if_neg some_char, if_neg staying, if_neg down]

/-- A piece that does not move is no component. -/
theorem componentOf?_eq_none {piece : List Char} (staying : moves piece = false) :
    componentOf? piece = none := by
  have either : piece = [] ∨ piece = ['.'] := by
    by_contra neither
    exact of_decide_eq_false staying (not_or.1 neither)
  rcases either with rfl | rfl <;> rfl

/-- Steps down are components exactly where they are names. -/
theorem filterMap_componentOf? {pieces : List (List Char)} (down : ['.', '.'] ∉ pieces) :
    pieces.filterMap componentOf? = ((pieces.filter moves).map String.ofList).map .name := by
  induction pieces with
  | nil => rfl
  | cons piece pieces ih =>
    obtain ⟨first, rest⟩ := not_or.1 (mt List.mem_cons.2 down)
    -- empty pieces and `.` are no components; with `..` excluded all others are names
    cases moving : moves piece with
    | true =>
      rw [List.filterMap_cons_some (componentOf?_of_moves moving (Ne.symm first)), ih rest,
        List.filter_cons_of_pos moving]
      rfl
    | false =>
      rw [List.filterMap_cons_none (componentOf?_eq_none moving), ih rest,
        List.filter_cons_of_neg (Bool.eq_false_iff.1 moving)]

/-- The components of a plain path are its names, behind a `.` if it begins with one. -/
theorem IsPlain.components_eq {p : Path} (h : p.IsPlain) :
    p.components = (if p.BeginsHere then [.here] else []) ++ p.names.map .name := by
  unfold components
  dsimp only
  rw [h.relative, if_neg Bool.false_ne_true, filterMap_componentOf? h.down]
  rfl

theorem root_mem_components {p : Path} (h : p.isAbsolute = true) : .root ∈ p.components := by
  unfold components
  dsimp only
  rw [if_pos h]
  exact List.mem_append_left _ (List.mem_singleton_self _)

theorem up_mem_components {p : Path} (h : ['.', '.'] ∈ Text.splitOn '/' p.text.toList) :
    .up ∈ p.components :=
  List.mem_append_right _ (List.mem_filterMap.2 ⟨['.', '.'], h, rfl⟩)

/-- A path with nothing but names in it has no other beginnings than names. -/
theorem components_prefix_names_iff (p : Path) (ns : List String) :
    p.components <+: ns.map .name ↔ p.IsPlain ∧ ¬ p.BeginsHere ∧ p.names <+: ns := by
  constructor
  · intro begins
    have only_names : ∀ c ∈ p.components, ∃ n, c = .name n := by
      intro c hc
      obtain ⟨n, -, e⟩ := List.mem_map.1 (begins.subset hc)
      exact ⟨n, e.symm⟩
    -- neither the root nor a step up is a name
    have plain : p.IsPlain := by
      refine ⟨Bool.eq_false_iff.2 fun absolute => ?_, fun up => ?_⟩
      · obtain ⟨n, e⟩ := only_names _ (root_mem_components absolute)
        cases e
      · obtain ⟨n, e⟩ := only_names _ (up_mem_components up)
        cases e
    rw [plain.components_eq] at begins only_names
    by_cases here : p.BeginsHere
    · rw [if_pos here] at only_names
      obtain ⟨n, e⟩ := only_names _ (List.mem_cons_self ..)
      cases e
    · rw [if_neg here, List.nil_append] at begins
      have injective : Function.Injective Component.name := fun _ _ e => Component.name.inj e
      exact ⟨plain, here, (List.prefix_map_iff_of_injective injective).1 begins⟩
  · rintro ⟨plain, elsewhere, begins⟩
    rw [plain.components_eq, if_neg elsewhere, List.nil_append]
    exact begins.map _

/-- The path leads down to the names or to a directory above them. -/
structure Covers (p : Path) (ns : List String) : Prop where
  plain : p.IsPlain
  begins : p.names <+: ns

instance (p : Path) (ns : List String) : Decidable (p.Covers ns) :=
  decidable_of_iff (p.IsPlain ∧ p.names <+: ns) ⟨fun h => ⟨h.1, h.2⟩, fun h => ⟨h.plain, h.begins⟩⟩

/-- A path begins with an entry just where the entry covers it and does not begin with a `.`. -/
theorem startsWith_ofNames_iff {ns : List String} (h : ∀ n ∈ ns, IsName n) (p : Path) :
    (ofNames ns).startsWith p = true ↔ p.Covers ns ∧ ¬ p.BeginsHere := by
  have components : (ofNames ns).components = ns.map .name := by
    by_cases none : ns = []
    · -- no names are written as the empty path, which has no components
      rw [none]
      rfl
    · exact components_ofNames none h
  unfold startsWith
  rw [List.isPrefixOf_iff_prefix, components, components_prefix_names_iff]
  exact ⟨fun ⟨plain, elsewhere, begins⟩ => ⟨⟨plain, begins⟩, elsewhere⟩,
    fun ⟨covers, elsewhere⟩ => ⟨covers.plain, elsewhere, covers.begins⟩⟩

end Path

/-! ### Excluded paths -/

namespace Config

/-- A file is excluded just where some entry covers it that does not begin with a `.`. -/
theorem isExcluded_iff {ns : List String} (h : ∀ n ∈ ns, Path.IsName n) (c : Config) :
    c.isExcluded (.ofNames ns) = true ↔ ∃ e ∈ c.exclude, e.Covers ns ∧ ¬ e.BeginsHere := by
  unfold isExcluded
  rw [List.any_eq_true]
  simp only [Path.startsWith_ofNames_iff h]

/-- A path is excluded exactly if a prefix without a `.` in front covers it.  So all prefixes count,
however they are written, exactly if none with a `.` in front is the only one to cover the path. -/
theorem isExcluded_ofNames {ns : List String} (h : ∀ n ∈ ns, Path.IsName n) (c : Config) :
    (c.isExcluded (.ofNames ns) = true ↔ ∃ e ∈ c.exclude, e.Covers ns ∧ ¬ e.BeginsHere) ∧
    ((c.isExcluded (.ofNames ns) = true ↔ ∃ e ∈ c.exclude, e.Covers ns) ↔
      ((∃ e ∈ c.exclude, e.Covers ns ∧ e.BeginsHere) →
        ∃ e ∈ c.exclude, e.Covers ns ∧ ¬ e.BeginsHere)) := by
  have excluded := isExcluded_iff h c
  refine ⟨excluded, ?_⟩
  rw [excluded]
  constructor
  · rintro all_count ⟨e, he, covers, -⟩
    exact all_count.2 ⟨e, he, covers⟩
  -- an entry that begins with `.` counts only if another one covers the path as well
  · intro not_alone
    constructor
    · rintro ⟨e, he, covers, -⟩
      exact ⟨e, he, covers⟩
    · rintro ⟨e, he, covers⟩
      by_cases here : e.BeginsHere
      · exact not_alone ⟨e, he, covers, here⟩
      · exact ⟨e, he, covers, here⟩

/-- Two prefixes, one of them with a `.` in front. -/
def smallExcludes : Config := { Config.default with exclude := [⟨"./build"⟩, ⟨"gen//./src/"⟩] }

/-- The entry covers the directory, and so the file in it. -/
theorem isExcluded_ofNames_small :
    smallExcludes.isExcluded (.ofNames ["gen", "src", "A.java"]) = true := by
  have names : ∀ n ∈ ["gen", "src", "A.java"], Path.IsName n := by decide
  apply (isExcluded_ofNames names smallExcludes).1.2
  exact ⟨⟨"gen//./src/"⟩, .tail _ (.head _), by decide⟩

/-- The prefix `./build` does not cover what is below `build`. -/
theorem isExcluded_smallExcludes_missed :
    (∃ e ∈ smallExcludes.exclude, e.Covers ["build", "gen", "A.java"]) ∧
      smallExcludes.isExcluded (.ofNames ["build", "gen", "A.java"]) = false := by
  decide

end Config

/-! ### What a scan leaves out -/

/-- Of the sources that a scan finds without excludes it leaves out those that are covered. -/
theorem Disk.mem_sourceNames_iff {d : Disk} {config : Config} {root : Path} {dir : Place}
    {ns : List String} (h : ∀ n ∈ ns, Path.IsName n) :
    ns ∈ d.sourceNames config root dir ↔
      ns ∈ d.sourceNames { config with exclude := [] } root dir ∧
        ∀ e ∈ config.exclude, e.Covers ns → e.BeginsHere := by
  have uncovered : config.isExcluded (.ofNames ns) = false ↔
      ∀ e ∈ config.exclude, e.Covers ns → e.BeginsHere := by
    rw [← Bool.not_eq_true, Config.isExcluded_iff h]
    push Not
    rfl
  have none : Config.isExcluded { config with exclude := [] } (.ofNames ns) = false := rfl
  unfold sourceNames isSource
  simp only [List.mem_filter, Bool.and_eq_true, Bool.not_eq_true', none, uncovered]
  tauto

end RouteRegistry

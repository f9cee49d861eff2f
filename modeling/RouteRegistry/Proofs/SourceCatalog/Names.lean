/-
RouteRegistry/Proofs/SourceCatalog/Names.lean

The names under which the types of a set of files are declared.

The name of a type is computed when the type is made known, when its declaration
is asked for it, and as the first of the names around the type's annotations.
The package goes into each in its own way: as an optional segment, or as a
namespace that may be empty (`qualify_eq`).

* `ofModels_names`: the catalog has the types of the files one after the other,
  and the three names of a type are one.
* `ofUnit_types`: the types of a file are those declared in bodies, each behind
  the types around it.  Hence with a type the types around it are known.
-/
import RouteRegistry.Proofs.Source.Nesting
import RouteRegistry.Proofs.SourceCatalog.Order
import RouteRegistry.Source.Tree.Reader

namespace RouteRegistry

open Source

namespace SourceCatalog

variable {ms : List FileModel}

/-- The types of all files, each with its file, in the order of the files and of their types. -/
def entities (ms : List FileModel) : List (FileModel × TypeEntity) :=
  ms.flatMap fun m => m.types.map fun e => (m, e)

/-! ### One name, three ways -/

/-- A package that is empty and one that is missing give the same names. -/
theorem qualify_eq (package : Option String) (segments : List String) :
    qualify (package.getD "") segments = dotted (packagePath package ++ segments) := by
  unfold qualify packagePath
  cases package with
  | none => rfl
  | some p =>
    show dotted (if p = "" then _ else _) = _
    by_cases default : p = ""
    · rw [if_pos default, Option.filter_some, default]
      rfl
    · rw [if_neg default, Option.filter_some, if_pos (decide_eq_true default)]
      rfl

/-- A declaration goes by the name that its type is known under. -/
theorem qualifiedName_declarationOf (known : KnownTypes) (m : FileModel) (e : TypeEntity) :
    (declarationOf known m e).qualifiedName = e.qualifiedName m.package := by
  show qualify (m.package.getD "") (e.enclosing ++ [e.name]) = _
  rw [qualify_eq, ← List.append_assoc]
  rfl

theorem dottedAlong_concat (around path : List String) (segment : String) :
    dottedAlong around (path ++ [segment]) =
      dottedAlong around path ++ [dotted (around ++ path ++ [segment])] := by
  induction path generalizing around with
  | nil => rw [List.append_nil]; rfl
  | cons first path ih =>
    rw [List.cons_append, dottedAlong, ih, dottedAlong, List.append_assoc around]
    rfl

/-- The names around a reference begin with the type's own and go outwards. -/
theorem enclosingChain_eq (package : Option String) (e : TypeEntity) :
    enclosingChain package e =
      e.qualifiedName package :: (dottedAlong (packagePath package) e.enclosing).reverse := by
  unfold enclosingChain
  rw [dottedAlong_concat, List.reverse_append]
  rfl

/-- Around a type are the type itself and what is around the next type outwards. -/
theorem enclosingChain_of_outer {outer e : TypeEntity}
    (h : outer.enclosing ++ [outer.name] = e.enclosing) (package : Option String) :
    enclosingChain package e = e.qualifiedName package :: enclosingChain package outer := by
  rw [enclosingChain_eq, ← h]
  rfl

/-! ### The declarations and the known types -/

theorem declarations_eq (known : KnownTypes) (ms : List FileModel) :
    declarations known ms = (entities ms).map fun x => declarationOf known x.1 x.2 := by
  unfold declarations entities
  rw [List.map_flatMap]
  refine List.flatMap_congr fun m _ => ?_
  rw [List.map_map]
  rfl

theorem declaredNames_eq (ms : List FileModel) :
    declaredNames ms = (entities ms).map fun x => (x.2.name, x.2.qualifiedName x.1.package) := by
  unfold declaredNames entities
  rw [List.map_flatMap]
  refine List.flatMap_congr fun m _ => ?_
  rw [List.map_map]
  rfl

/-- The declarations go by the names that are made known, in the same order. -/
theorem map_qualifiedName_declarations (ms : List FileModel) :
    (ofModels ms).toCatalog.declarations.map Declaration.qualifiedName =
      (declaredNames ms).map Prod.snd := by
  refine (IndexedCatalog.map_ofList (fun _ _ => rfl) _).trans ?_
  rw [declarations_eq, declaredNames_eq, List.map_map, List.map_map]
  exact List.map_congr_left fun x _ => qualifiedName_declarationOf _ x.1 x.2

/-- Known are the names of the declarations and no others. -/
theorem isKnown_iff {q : String} :
    (ofModels ms).isKnown q = true ↔
      ∃ d ∈ (ofModels ms).toCatalog.declarations, d.qualifiedName = q := by
  rw [← List.mem_map, map_qualifiedName_declarations]
  exact KnownTypes.contains_ofList

/-- Every type of the files is known. -/
theorem isKnown_of_mem {m : FileModel} {e : TypeEntity} (hm : m ∈ ms) (he : e ∈ m.types) :
    (ofModels ms).isKnown (e.qualifiedName m.package) = true := by
  refine KnownTypes.contains_ofList.2 (List.mem_map.2 ⟨(e.name, _), ?_, rfl⟩)
  exact List.mem_flatMap.2 ⟨m, hm, List.mem_map_of_mem he⟩

/-- As long as identities suffice, the catalog has one declaration for each type of the files, in
the order of the files and of the types of each, under the identities 0, 1, 2 and so on.  The name
that the type is made known under, that of the declaration, that found under the identity and the
first of those around the type's annotations are the same.  The known names are those of the
declarations. -/
theorem ofModels_names (ms : List FileModel) (room : (entities ms).length ≤ UInt32.size) :
    (ofModels ms).toCatalog.declarations.length = (entities ms).length ∧
    (∀ (i : Nat) (m : FileModel) (e : TypeEntity), (entities ms)[i]? = some (m, e) →
      ∃ d, (ofModels ms).toCatalog.declarations[i]? = some d ∧ d.id.index.toNat = i ∧
        d.anonymous = declarationOf (ofModels ms).known m e ∧
        (declaredNames ms)[i]? = some (e.name, d.qualifiedName) ∧
        (ofModels ms).toCatalog.lookup d.id = .found d.qualifiedName ∧
        (contextOf (ofModels ms).known m e).enclosing.head? = some d.qualifiedName) ∧
    ∀ q, (ofModels ms).isKnown q = true ↔
      ∃ d ∈ (ofModels ms).toCatalog.declarations, d.qualifiedName = q := by
  refine ⟨?_, fun i m e h => ?_, fun q => isKnown_iff⟩
  · have lengths := congrArg List.length (map_qualifiedName_declarations ms)
    rwa [List.length_map, List.length_map, declaredNames_eq, List.length_map] at lengths
  · have listed : (declarations (ofModels ms).known ms)[i]? =
        some (declarationOf (ofModels ms).known m e) := by
      rw [declarations_eq, List.getElem?_map, h]
      rfl
    have fits : (declarations (ofModels ms).known ms).length ≤ UInt32.size := by
      rwa [declarations_eq, List.length_map]
    have inside : i < (entities ms).length := (List.getElem?_eq_some_iff.1 h).1
    -- package, chain and simple name make up the name under which the entity was listed as known
    have name := qualifiedName_declarationOf (ofModels ms).known m e
    refine ⟨{ declarationOf (ofModels ms).known m e with id := ⟨.ofNat i⟩ }, ?_,
      DeclId.index_ofNat (inside.trans_le room), rfl, ?_, ?_, ?_⟩
    · exact (IndexedCatalog.getElem?_ofList ..).trans (congrArg _ listed)
    · rw [declaredNames_eq, List.getElem?_map, h]
      exact congrArg (fun q => some (e.name, q)) name.symm
    · exact congrArg Lookup.of (IndexedCatalog.get?_ofList fits listed)
    · show (enclosingChain m.package e).head? = _
      rw [enclosingChain_eq]
      exact congrArg some name.symm

/-- A file without a package, one whose package is empty, and one with a package. -/
def packaged : List FileModel :=
  let page : TypeEntity := ⟨"Home", [], .classType, false, [], 2⟩
  [⟨⟨"Shell.java"⟩, none, [],
      [⟨"Shell", [], .classType, false, [], 1⟩, ⟨"Detail", ["Shell"], .recordType, false, [], 2⟩]⟩,
    ⟨⟨"b/Home.java"⟩, some "", [], [page]⟩, ⟨⟨"c/Home.java"⟩, some "app.c", [], [page]⟩]

/-- A missing package, an empty one and one with a dot give each type one name in all places. -/
theorem ofModels_packaged :
    (entities packaged).length ≤ UInt32.size ∧
    (declaredNames packaged).map Prod.snd = ["Shell", "Shell.Detail", "Home", "app.c.Home"] ∧
    ∀ x ∈ (entities packaged).zipIdx, ∃ d,
      (ofModels packaged).toCatalog.declarations[x.2]? = some d ∧
      (declaredNames packaged)[x.2]? = some (x.1.2.name, d.qualifiedName) ∧
      (ofModels packaged).toCatalog.lookup d.id = .found d.qualifiedName := by
  have room : (entities packaged).length ≤ UInt32.size := by decide +kernel
  refine ⟨room, by decide +kernel, fun x hx => ?_⟩
  obtain ⟨d, stands, -, -, registered, found, -⟩ :=
    (ofModels_names packaged room).2.1 x.2 x.1.1 x.1.2 (List.mem_zipIdx_iff_getElem?.1 hx)
  exact ⟨d, stands, registered, found⟩

/-! ### Types around types -/

/-- The names around a type of a file are those of types of the file. -/
theorem exists_of_mem_enclosingChain {types : List TypeEntity}
    (nested : ∀ e ∈ types, e.enclosing ≠ [] →
      ∃ outer ∈ types, outer.enclosing ++ [outer.name] = e.enclosing)
    {package : Option String} {e : TypeEntity} (he : e ∈ types) {q : String}
    (hq : q ∈ enclosingChain package e) : ∃ o ∈ types, o.qualifiedName package = q := by
  -- along the type around the type, which has fewer types around it
  induction depth : e.enclosing.length generalizing e with
  | zero =>
    rw [enclosingChain_eq, List.eq_nil_of_length_eq_zero depth] at hq
    exact ⟨e, he, (List.mem_singleton.1 hq).symm⟩
  | succ depth' ih =>
    have inner : e.enclosing ≠ [] := List.ne_nil_of_length_eq_add_one depth
    obtain ⟨outer, houter, around⟩ := nested e he inner
    rw [enclosingChain_of_outer around] at hq
    rcases List.mem_cons.1 hq with rfl | hq
    · exact ⟨e, he, rfl⟩
    · refine ih houter hq ?_
      rw [← around, List.length_append, List.length_singleton] at depth
      exact Nat.succ.inj depth

/-- The types of a file are the types that are declared in bodies, each once and in the order of
positions.  Each has the name and the kind that are written at its place and, outermost first, the
names of all types around it; whether it is abstract, its annotations and its line are also those
of its place.  Before a type inside others stands the type next to it outwards.  In every catalog
that the file is part of, with a type all types around it are known. -/
theorem ofUnit_types (path : Path) (unit : CompilationUnit) :
    (∃ sites : List TypeSite, sites.Pairwise TypeSite.Before ∧
      (∀ s, s ∈ sites ↔ Reached unit s) ∧
      List.Forall₂ TypeSite.Describes sites (FileModel.ofUnit path unit).types) ∧
    (∀ (before : List TypeEntity) (e : TypeEntity) (after : List TypeEntity),
      (FileModel.ofUnit path unit).types = before ++ e :: after → e.enclosing ≠ [] →
        ∃ outer ∈ before, outer.enclosing ++ [outer.name] = e.enclosing) ∧
    ∀ ms, FileModel.ofUnit path unit ∈ ms → ∀ e ∈ (FileModel.ofUnit path unit).types,
      ∀ q ∈ (contextOf (ofModels ms).known (FileModel.ofUnit path unit) e).enclosing,
        (ofModels ms).isKnown q = true := by
  refine ⟨⟨unit.sites, pairwise_sites unit, fun _ => mem_sites_iff, describes_types path unit⟩,
    fun before e after => exists_before, fun ms listed e he q hq => ?_⟩
  -- what encloses a type is itself among the entities, so its name is known
  have nested : ∀ e ∈ (FileModel.ofUnit path unit).types, e.enclosing ≠ [] →
      ∃ outer ∈ (FileModel.ofUnit path unit).types,
        outer.enclosing ++ [outer.name] = e.enclosing := by
    intro e he inner
    obtain ⟨before, after, split⟩ := List.append_of_mem he
    obtain ⟨outer, earlier, around⟩ := exists_before split inner
    exact ⟨outer, split ▸ List.mem_append_left _ earlier, around⟩
  obtain ⟨o, ho, rfl⟩ := exists_of_mem_enclosingChain nested he hq
  exact isKnown_of_mem listed ho

/-- Types of all kinds, up to four of them around one, and two types that are declared in code. -/
def shellUnit : CompilationUnit :=
  CompilationUnit.read ("class Shell\x7benum Tab\x7bHOME\x7bclass Hidden\x7b\x7d\x7d;" ++
    "record Page()\x7binterface Row\x7b@interface Mark\x7b\x7d\x7d\x7d\x7d" ++
    "void open()\x7bclass Local\x7b\x7d\x7d\x7d")

/-- The innermost type stands where four types are around it, the next one outwards comes before it
in the model, and all of the four are known. -/
theorem ofUnit_types_shell :
    let shell := FileModel.ofUnit ⟨"app/Shell.java"⟩ shellUnit
    (shell.types.map fun e => (e.enclosing, e.name, e.kind)) =
      [([], "Shell", .classType), (["Shell"], "Tab", .enumType),
        (["Shell", "Tab"], "Page", .recordType),
        (["Shell", "Tab", "Page"], "Row", .interfaceType),
        (["Shell", "Tab", "Page", "Row"], "Mark", .annotationType)] ∧
    (∃ s, Reached shellUnit s ∧ s.decl.name.text = "Mark" ∧ s.decl.kind = .annotationType ∧
      (s.around.map fun d => d.name.text) = ["Shell", "Tab", "Page", "Row"]) ∧
    (∃ outer ∈ shell.types.take 4,
      outer.enclosing ++ [outer.name] = ["Shell", "Tab", "Page", "Row"]) ∧
    ∀ q ∈ ["Shell.Tab.Page.Row", "Shell.Tab.Page", "Shell.Tab", "Shell"],
      (ofModels [shell]).isKnown q = true := by
  intro shell
  let mark : TypeEntity :=
    ⟨"Mark", ["Shell", "Tab", "Page", "Row"], .annotationType, true, [], 1⟩
  have read : shell = ⟨⟨"app/Shell.java"⟩, none, [],
      [⟨"Shell", [], .classType, false, [], 1⟩, ⟨"Tab", ["Shell"], .enumType, false, [], 1⟩,
        ⟨"Page", ["Shell", "Tab"], .recordType, false, [], 1⟩,
        ⟨"Row", ["Shell", "Tab", "Page"], .interfaceType, true, [], 1⟩, mark]⟩ := by decide +kernel
  obtain ⟨⟨sites, -, reached, described⟩, preceded, known⟩ :=
    ofUnit_types ⟨"app/Shell.java"⟩ shellUnit
  have split : shell.types = shell.types.take 4 ++ mark :: [] := by rw [read]; rfl
  have inside : mark ∈ shell.types := by
    rw [split]
    exact List.mem_append_right _ (List.mem_singleton_self mark)
  refine ⟨by rw [read]; rfl, ?_, preceded _ mark _ split nofun, fun q hq => ?_⟩
  -- the last entity is `Mark`; the pairing with the sites leads to the one it describes
  · have single : shell.types.drop 4 = [mark] := by rw [read]; rfl
    have last : List.Forall₂ TypeSite.Describes (sites.drop 4) (shell.types.drop 4) :=
      List.forall₂_drop 4 described
    rw [single] at last
    obtain ⟨s, _, entry, -, stands⟩ := List.forall₂_cons_right_iff.1 last
    have visited : s ∈ sites := List.mem_of_mem_drop (stands ▸ List.mem_cons_self ..)
    exact ⟨s, (reached s).1 visited, entry.name.symm, entry.kind.symm, entry.enclosing.symm⟩
  · refine known [shell] (List.mem_singleton_self shell) mark inside _ ?_
    show q ∈ enclosingChain shell.package mark
    rw [read]
    exact List.mem_cons_of_mem _ hq

end SourceCatalog

end RouteRegistry

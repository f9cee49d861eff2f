/-
RouteRegistry/Proofs/SourceCatalog/Order.lean

A catalog of source files, read in another order.

The declarations of a file depend on the other files only through the known
types, and on these only through what resolution asks of them
(`declarationOf_congr`).  As long as no simple name has a dot, it is the last
segment of its qualified name (`named_declaredNames`), and then the answers do
not know in which order the files were read.

Main result (`ofModels_perm`): in another order, each file has the same
declarations, and the same types are known.
-/
import Mathlib.Data.List.TakeWhile
import RouteRegistry.Proofs.Catalog.Indexed
import RouteRegistry.Proofs.Scope.Known
import RouteRegistry.SourceCatalog

namespace RouteRegistry

open Source

/-! ### Last segments -/

namespace Text

/-- Behind the character that ends it, a text does not matter to `takeWhile`. -/
theorem takeWhile_append_stop {p : Char → Bool} {c : Char} (h : p c = false) (s t : List Char) :
    (s ++ c :: t).takeWhile p = s.takeWhile p := by
  rw [List.takeWhile_append, List.takeWhile_cons_of_neg (by rw [h]; exact Bool.false_ne_true),
    List.append_nil]
  split
  case isTrue all => exact (List.takeWhile_prefix p |>.eq_of_length all).symm
  case isFalse => rfl

end Text

theorem lastSegment_dotted (segments : List String) {name : String} (h : '.' ∉ name.toList) :
    lastSegment (dotted (segments ++ [name])) = name := by
  have plain : name.toList.reverse.takeWhile (· ≠ '.') = name.toList.reverse := by
    rw [List.takeWhile_eq_self_iff]
    intro c hc
    exact decide_eq_true fun e => h (e ▸ List.mem_reverse.1 hc)
  have separator : ".".toList = ['.'] := String.toList_ofList
  -- from the end, the search stops at the dot that is nearest to it
  have last (parts : List (List Char)) :
      (List.intercalate ['.'] (parts ++ [name.toList])).reverse.takeWhile (· ≠ '.') =
        name.toList.reverse := by
    induction parts with
    | nil => rw [List.nil_append, List.intercalate_singleton, plain]
    | cons part parts ih =>
      have some_part : parts ++ [name.toList] ≠ [] := List.append_ne_nil_of_right_ne_nil _ nofun
      rw [List.cons_append, List.intercalate_cons_of_ne_nil some_part, List.reverse_append,
        List.reverse_append, List.reverse_singleton, List.singleton_append,
        Text.takeWhile_append_stop (by decide), ih]
  unfold lastSegment dotted Text.joinWith
  rw [String.toList_ofList, separator, List.map_append, List.map_singleton, last,
    List.reverse_reverse, String.ofList_toList]

/-- The last segment of a type's name is its simple name, unless that has a dot in it. -/
theorem lastSegment_qualifiedName {e : TypeEntity} (h : '.' ∉ e.name.toList)
    (package : Option String) : lastSegment (e.qualifiedName package) = e.name :=
  lastSegment_dotted (packagePath package ++ e.enclosing) h

/-- The declaration without its place in a catalog. -/
def Declaration.anonymous (d : Declaration) : Declaration := { d with id := ⟨0⟩ }

namespace SourceCatalog

variable {known known' : KnownTypes} {ms ms' : List FileModel}

/-! ### Declarations of a file -/

theorem contextOf_withKnown (known known' : KnownTypes) (m : FileModel) (e : TypeEntity) :
    (contextOf known m e).withKnown known' = contextOf known' m e := rfl

/-- A value is resolved alike with either index. -/
theorem markerValue_congr (h : known.Agree known') (m : FileModel) (e : TypeEntity)
    (v : ElementValue) :
    markerValue (contextOf known' m e) v = markerValue (contextOf known m e) v := by
  cases v with
  | classLiteral written =>
    show MarkerValue.typeRef _ = .typeRef _
    rw [← contextOf_withKnown known known' m e, Context.resolve_withKnown h]
  | str | null | other => rfl

/-- A type is declared alike whichever of two agreeing indexes is asked. -/
theorem declarationOf_congr (h : known.Agree known') (m : FileModel) (e : TypeEntity) :
    declarationOf known' m e = declarationOf known m e := by
  have values : markerValue (contextOf known' m e) = markerValue (contextOf known m e) :=
    funext (markerValue_congr h m e)
  unfold declarationOf markerOf
  rw [values]

/-- The catalog has the files one after the other. -/
theorem declarations_ofModels (ms : List FileModel) :
    (ofModels ms).toCatalog.declarations.map Declaration.anonymous =
      ms.flatMap fun m => m.types.map (declarationOf (ofModels ms).known m) := by
  have numbered : (declarations (ofModels ms).known ms).map Declaration.anonymous =
      declarations (ofModels ms).known ms := by
    unfold declarations
    rw [List.map_flatMap]
    exact List.flatMap_congr fun m _ => List.map_map
  exact (IndexedCatalog.map_ofList (fun _ _ => rfl) _).trans numbered

/-! ### Names that are declared -/

/-- Every type is made known under the last segment of its name. -/
theorem named_declaredNames (h : ∀ m ∈ ms, ∀ e ∈ m.types, '.' ∉ e.name.toList) :
    KnownTypes.Named (declaredNames ms) := by
  intro n hn
  obtain ⟨m, hm, hn⟩ := List.mem_flatMap.1 hn
  obtain ⟨e, he, rfl⟩ := List.mem_map.1 hn
  exact lastSegment_qualifiedName (h m hm e he) m.package

/-- In whatever order the files are read, the same is known of their types. -/
theorem agree_ofModels (hperm : ms.Perm ms')
    (hnames : ∀ m ∈ ms, ∀ e ∈ m.types, '.' ∉ e.name.toList) :
    (ofModels ms).known.Agree (ofModels ms').known :=
  KnownTypes.agree_ofList (named_declaredNames hnames) fun _ => (hperm.flatMap_right _).mem_iff

/-- When no simple name has a dot, the order of the files decides only in which order their
declarations stand and hence how they are numbered: there is a block of declarations for each file,
one for each of its types, and the catalog of the files in either order consists of the blocks in
that order.  The same names are known. -/
theorem ofModels_perm (hperm : ms.Perm ms')
    (hnames : ∀ m ∈ ms, ∀ e ∈ m.types, '.' ∉ e.name.toList) :
    ∃ block : FileModel → List Declaration,
      (∀ m ∈ ms, (block m).length = m.types.length) ∧
      (ofModels ms).toCatalog.declarations.map Declaration.anonymous = ms.flatMap block ∧
      (ofModels ms').toCatalog.declarations.map Declaration.anonymous = ms'.flatMap block ∧
      ∀ qualified, (ofModels ms).isKnown qualified = (ofModels ms').isKnown qualified := by
  have agree := agree_ofModels hperm hnames
  -- a block is read with the known types, about which both orders agree
  have same : declarationOf (ofModels ms').known = declarationOf (ofModels ms).known :=
    funext fun m => funext fun e => declarationOf_congr agree m e
  refine ⟨fun m => m.types.map (declarationOf (ofModels ms).known m), ?_,
    declarations_ofModels ms, ?_, agree.contains⟩
  · exact fun m _ => List.length_map ..
  · rw [declarations_ofModels ms', same]

/-- Three files, two of which declare the same type.  Another file refers to it by its simple name
without an import. -/
def small : List FileModel :=
  let page (path : Path) : FileModel :=
    ⟨path, some "app.pages", [], [⟨"HomePage", [], .classType, false, [], 3⟩]⟩
  let shell : TypeEntity := ⟨"Shell", [], .classType, false,
    [⟨"RouteSettings", [(none, .classLiteral "HomePage"), (none, .str "Page")], 3⟩], 4⟩
  [page ⟨"a/HomePage.java"⟩, ⟨⟨"Shell.java"⟩, some "app", [], [shell]⟩, page ⟨"b/HomePage.java"⟩]

/-- Two pages of one name, and a marker that refers to that name. -/
theorem ofModels_small_perm :
    small.Perm small.reverse ∧
    ∃ block : FileModel → List Declaration,
      (∀ m ∈ small, (block m).length = m.types.length) ∧
      (ofModels small).toCatalog.declarations.map Declaration.anonymous = small.flatMap block ∧
      (ofModels small.reverse).toCatalog.declarations.map Declaration.anonymous =
        small.reverse.flatMap block ∧
      ∀ qualified,
        (ofModels small).isKnown qualified = (ofModels small.reverse).isKnown qualified :=
  ⟨small.reverse_perm.symm, ofModels_perm small.reverse_perm.symm (by decide +kernel)⟩

end SourceCatalog

end RouteRegistry

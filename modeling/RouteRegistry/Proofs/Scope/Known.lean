/-
RouteRegistry/Proofs/Scope/Known.lean

What resolution sees of the known types.

The index keeps a set of the qualified names and, apart from it, the names under
each simple name.  The two never drift apart: what is listed under a simple name
is declared (`contains_of_mem_under`) and listed once (`nodup_under`).

A type is listed under the first simple name that it is declared under.  Where
every type is declared under the last segment of its own name (`Named`), that
makes no difference: listed under a simple name are then just the types declared
under it (`mem_under_ofList`), and both questions that can be asked of the index
have answers that do not know in which order, or how often, the types were
declared (`contains_ofList` and `unique_ofList`, together in `answers_ofList`).

Resolution asks nothing else (`Context.resolve_withKnown`): two indexes that
agree resolve every name alike.
-/
import Mathlib.Data.List.Induction
import Mathlib.Data.List.Nodup
import RouteRegistry.Scope.Resolve

namespace RouteRegistry

namespace KnownTypes

variable {k : KnownTypes} {s q : String}

/-! ### The set and the lists by simple name -/

/-- The types listed under a simple name. -/
def under (k : KnownTypes) (simple : String) : List String :=
  (k.bySimpleName.lookup simple).getD []

/-- What is listed under a simple name is one of the groups, or nothing. -/
theorem sublist_under (k : KnownTypes) (s : String) :
    (k.under s).Sublist (k.bySimpleName.flatMap Prod.snd) := by
  unfold under
  rcases e : k.bySimpleName.lookup s with - | names
  · exact List.nil_sublist _
  · obtain ⟨front, rest, groups, -⟩ := List.lookup_eq_some_iff.1 e
    rw [groups, List.flatMap_append, List.flatMap_cons]
    exact (List.sublist_append_left ..).trans (List.sublist_append_right ..)

/-- What is listed under some simple name is in the set. -/
theorem contains_of_mem_under (h : q ∈ k.under s) : k.contains q = true :=
  List.contains_iff_mem.2 (k.grouped.mem_iff.1 ((sublist_under k s).mem h))

/-- Nothing is listed twice, since no type is declared twice. -/
theorem nodup_under (k : KnownTypes) (s : String) : (k.under s).Nodup :=
  (k.grouped.nodup_iff.2 k.distinct).sublist (sublist_under k s)

theorem lookup_group (group : String × List String) (groups : List (String × List String))
    (s : String) :
    (group :: groups).lookup s = if s = group.1 then some group.2 else groups.lookup s := by
  rw [List.lookup_cons]
  by_cases h : s = group.1
  · rw [if_pos h, beq_iff_eq.2 h]
  · rw [if_neg h, beq_false_of_ne h]

/-- One more name under `s` is seen under `s` only. -/
theorem lookup_listUnder (s q s' : String) (groups : List (String × List String)) :
    (listUnder s q groups).lookup s' =
      if s' = s then some ((groups.lookup s).getD [] ++ [q]) else groups.lookup s' := by
  induction groups with
  | nil => exact lookup_group (s, [q]) [] s'
  | cons group groups ih =>
    unfold listUnder
    by_cases found : group.1 = s
    · subst found
      simp only [if_true, lookup_group, Option.getD_some]
      -- the replaced group hides what stood under the name before
      by_cases h : s' = group.1
      · rw [if_pos h, if_pos h]
      · rw [if_neg h, if_neg h, if_neg h]
    · simp only [if_neg found, lookup_group, ih, if_neg (Ne.symm found)]
      by_cases h : s' = group.1
      · rw [if_pos h, if_pos h, if_neg (h ▸ found)]
      · rw [if_neg h, if_neg h]

/-! ### Answers of the index -/

theorem contains_iff : k.contains q = true ↔ q ∈ k.qualified := List.contains_iff_mem

/-- The index answers for a simple name if just one type is listed under it. -/
theorem unique_iff_under : k.unique s = some q ↔ k.under s = [q] := by
  unfold unique under
  split
  case h_1 only e => simp only [e, Option.getD_some, List.cons.injEq, and_true, Option.some.injEq]
  case h_2 several =>
    refine ⟨fun h => (nomatch h), fun h => ?_⟩
    rcases e : k.bySimpleName.lookup s with - | names
    · rw [e] at h
      cases h
    · rw [e, Option.getD_some] at h
      exact absurd (h ▸ e) (several q)

/-- The answer for a simple name is the one type that is listed under it. -/
theorem unique_iff : k.unique s = some q ↔ q ∈ k.under s ∧ ∀ q' ∈ k.under s, q' = q := by
  rw [unique_iff_under, ← List.perm_singleton,
    List.perm_ext_iff_of_nodup (nodup_under k s) (List.nodup_singleton q)]
  simp only [List.mem_singleton]
  constructor
  · intro only
    exact ⟨(only q).2 rfl, fun q' => (only q').1⟩
  · rintro ⟨listed, only⟩ q'
    exact ⟨only q', fun same => same ▸ listed⟩

/-- What a simple name stands for is declared. -/
theorem contains_of_unique (h : k.unique s = some q) : k.contains q = true :=
  contains_of_mem_under (unique_iff.1 h).1

/-! ### The index of a list of types -/

/-- After a declaration the type is known, and otherwise what was known before. -/
theorem contains_insert {q' : String} :
    (k.insert s q).contains q' = true ↔ k.contains q' = true ∨ q' = q := by
  unfold insert
  split
  case isTrue known =>
    refine ⟨.inl, fun h => ?_⟩
    rcases h with h | rfl
    · exact h
    · exact known
  case isFalse => simp only [contains_iff, List.mem_append, List.mem_singleton]

/-- A new type is listed under its simple name, and a known one is not listed again. -/
theorem mem_under_insert {s' q' : String} :
    q' ∈ (k.insert s q).under s' ↔
      q' ∈ k.under s' ∨ (s' = s ∧ q' = q) ∧ ¬k.contains q = true := by
  -- a name known already is dropped; a new one joins the group of its simple name only
  unfold insert
  split
  case isTrue known => simp only [known, not_true_eq_false, and_false, or_false]
  case isFalse fresh =>
    simp only [fresh, not_false_eq_true, and_true, Bool.false_eq_true]
    show q' ∈ ((listUnder s q k.bySimpleName).lookup s').getD [] ↔ _
    rw [lookup_listUnder]
    split
    case isTrue same =>
      subst same
      rw [Option.getD_some, List.mem_append, List.mem_singleton]
      simp only [true_and]
      exact Iff.rfl
    case isFalse other =>
      simp only [other, false_and, or_false]
      exact Iff.rfl

theorem ofList_concat (names : List (String × String)) (n : String × String) :
    ofList (names ++ [n]) = (ofList names).insert n.1 n.2 :=
  List.foldl_concat ..

/-- Known are the types that were declared, whatever names they were declared under. -/
theorem contains_ofList {names : List (String × String)} {q : String} :
    (ofList names).contains q = true ↔ q ∈ names.map Prod.snd := by
  induction names using List.reverseRecOn with
  | nil => exact contains_iff
  | append_singleton names n ih =>
    rw [ofList_concat, contains_insert, ih, List.map_append, List.mem_append, List.map_singleton,
      List.mem_singleton]

/-- Every type is declared under the last segment of its name. -/
def Named (names : List (String × String)) : Prop := ∀ n ∈ names, lastSegment n.2 = n.1

/-- No declaration is passed over for a type of another simple name. -/
theorem mem_under_ofList {names : List (String × String)} (named : Named names) {s q : String} :
    q ∈ (ofList names).under s ↔ (s, q) ∈ names := by
  induction names using List.reverseRecOn with
  | nil => exact iff_of_false List.not_mem_nil List.not_mem_nil
  | append_singleton names last ih =>
    obtain ⟨earlier, own⟩ := List.forall_mem_append.1 named
    rw [ofList_concat, mem_under_insert, ih earlier, List.mem_append, List.mem_singleton]
    constructor
    · rintro (listed | ⟨⟨rfl, rfl⟩, -⟩)
      · exact .inl listed
      · exact .inr rfl
    · rintro (listed | rfl)
      · exact .inl listed
      · by_cases known : (ofList names).contains q = true
        · -- the type that is there already has the same simple name, so it is the same pair
          obtain ⟨first, hfirst, rfl⟩ := List.mem_map.1 (contains_ofList.1 known)
          have simple : first.1 = s := by
            rw [← earlier first hfirst, own _ (List.mem_singleton_self _)]
          exact .inl (simple ▸ hfirst)
        · exact .inr ⟨⟨rfl, rfl⟩, known⟩

/-- The type that a simple name stands for is the only one declared under it. -/
theorem unique_ofList {names : List (String × String)} (named : Named names) {s q : String} :
    (ofList names).unique s = some q ↔
      (s, q) ∈ names ∧ ∀ q', (s, q') ∈ names → q' = q := by
  rw [unique_iff]
  simp only [mem_under_ofList named]

/-- A type that is declared under two simple names counts for the first one only. -/
example :
    (ofList [("a.B", "a.B"), ("B", "a.B")]).unique "B" = none ∧
    (ofList [("B", "a.B"), ("a.B", "a.B")]).unique "B" = some "a.B" := by decide +kernel

/-! ### Indexes that answer alike -/

/-- Both questions have the same answers. -/
structure Agree (k k' : KnownTypes) : Prop where
  contains (q : String) : k.contains q = k'.contains q
  unique (s : String) : k.unique s = k'.unique s

/-- Lists of the same declarations give indexes that agree, in whatever order and however often. -/
theorem agree_ofList {names names' : List (String × String)} (named : Named names)
    (same : ∀ n, n ∈ names ↔ n ∈ names') : Agree (ofList names) (ofList names') := by
  have named' : Named names' := fun n hn => named n ((same n).2 hn)
  constructor
  · intro q
    rw [Bool.eq_iff_iff, contains_ofList, contains_ofList]
    simp only [List.mem_map, same]
  · intro s
    refine Option.ext fun q => ?_
    rw [unique_ofList named, unique_ofList named']
    simp only [same]

/-- Whatever types are declared, each under the last segment of its name, a type is known if and
only if it was declared, and a simple name stands for a type if and only if that is the only one
declared under it.  In which order the types are declared, and how often, makes no difference. -/
theorem answers_ofList {names : List (String × String)} (named : Named names) :
    (∀ q, (ofList names).contains q = true ↔ ∃ s, (s, q) ∈ names) ∧
    (∀ s q, (ofList names).unique s = some q ↔
      (s, q) ∈ names ∧ ∀ q', (s, q') ∈ names → q' = q) ∧
    ∀ names', (∀ n, n ∈ names' ↔ n ∈ names) →
      (∀ q, (ofList names').contains q = (ofList names).contains q) ∧
      ∀ s, (ofList names').unique s = (ofList names).unique s := by
  refine ⟨fun q => ?_, fun s q => unique_ofList named, fun names' same => ?_⟩
  · rw [contains_ofList, List.mem_map]
    exact ⟨fun ⟨n, hn, e⟩ => ⟨n.1, e ▸ hn⟩, fun ⟨s, h⟩ => ⟨(s, q), h, rfl⟩⟩
  · have agree := agree_ofList named fun n => (same n).symm
    exact ⟨fun q => (agree.contains q).symm, fun s => (agree.unique s).symm⟩

/-- Two pages of one name and a class, which is declared twice. -/
def smallNames : List (String × String) :=
  [("HomePage", "a.HomePage"), ("Shell", "a.Shell"), ("HomePage", "b.HomePage"),
    ("Shell", "a.Shell")]

/-- A name that two types have stands for neither; a type that is declared twice counts once. -/
theorem answers_ofList_small :
    Named smallNames ∧ (ofList smallNames).contains "b.HomePage" = true ∧
    (ofList smallNames).contains "HomePage" = false ∧
    (ofList smallNames).unique "Shell" = some "a.Shell" ∧
    (∀ q, (ofList smallNames).unique "HomePage" ≠ some q) ∧
    (ofList smallNames.reverse).unique "Shell" = some "a.Shell" := by
  have named : Named smallNames := by unfold Named; decide +kernel
  obtain ⟨contains, unique, same⟩ := answers_ofList named
  have shell : (ofList smallNames).unique "Shell" = some "a.Shell" :=
    (unique "Shell" "a.Shell").2 ⟨by decide, by simp [smallNames]⟩
  refine ⟨named, (contains "b.HomePage").2 ⟨"HomePage", by decide⟩, ?_, shell, fun q h => ?_, ?_⟩
  · rw [← Bool.not_eq_true, contains]
    simp [smallNames]
  -- two pages share the simple name, so a unique one would equal both
  · obtain ⟨-, only⟩ := (unique "HomePage" q).1 h
    have pages := (only "a.HomePage" (by decide)).trans (only "b.HomePage" (by decide)).symm
    exact absurd pages (by decide)
  · rw [(same smallNames.reverse fun _ => List.mem_reverse).2 "Shell", shell]

end KnownTypes

/-! ### Resolution asks nothing else -/

namespace Context

/-- The same place in a program of other known types. -/
def withKnown (c : Context) (k : KnownTypes) : Context := { c with known := k }

variable {c : Context} {k : KnownTypes}

theorem resolveScope_withKnown (h : c.known.Agree k) (name : String) (scope : Scope) :
    scope.resolve (c.withKnown k) name = scope.resolve c name := by
  -- the known types enter a scope through these two questions, about which the catalogs agree
  have contains : k.contains = c.known.contains := funext fun q => (h.contains q).symm
  cases scope with
  | enclosing =>
    show (c.enclosing.flatMap (Scope.candidates name)).find? k.contains = _
    rw [contains]
    rfl
  | singleImport => rfl
  | package =>
    show (if k.contains (c.inPackage name) then some (c.inPackage name) else none) = _
    rw [contains]
    rfl
  | wildcardImport =>
    show ((c.imports.filter (·.isWildcard)).map fun i => i.path ++ "." ++ name).find? k.contains = _
    rw [contains]
    rfl
  | builtin => rfl
  | catalog => exact (h.unique name).symm

theorem resolveSimple_withKnown (h : c.known.Agree k) (name : String) :
    (c.withKnown k).resolveSimple name = c.resolveSimple name := by
  have scopes : Scope.resolve (c.withKnown k) name = Scope.resolve c name :=
    funext (resolveScope_withKnown h name)
  unfold resolveSimple
  rw [scopes]

theorem tryResolve_withKnown (h : c.known.Agree k) (written : String) :
    (c.withKnown k).tryResolve written = c.tryResolve written := by
  have contains : (c.withKnown k).known.contains = c.known.contains :=
    funext fun q => (h.contains q).symm
  unfold tryResolve
  simp only [contains, resolveSimple_withKnown h]

/-- A name is resolved alike whichever of two agreeing indexes is asked. -/
theorem resolve_withKnown (h : c.known.Agree k) (written : String) :
    (c.withKnown k).resolve written = c.resolve written := by
  unfold resolve
  rw [tryResolve_withKnown h]

end Context

end RouteRegistry

/-
RouteRegistry/Proofs/Source/Nesting.lean

The types of a file, by where they stand in its tree.

`Reached` says which types are declared in bodies: those among the parts of the
file, and those among the members of a reached type.  It has no rule for code,
so a type that a method, an initialiser, a lambda or the body of an enum
constant declares is not reached.  A reached type has a position, which is the
way down to it, and types around it.

In the lexicographic order of positions a type comes before the types inside
it, and members come in the order in which they are written.

* `CompilationUnit.sites` lists types with their positions, and the model of the
  file has these, in that order (`types_eq`).  `TypeSite.Describes` says field by
  field what the model keeps of each: under `enclosing`, the names of all types
  around it (`describes_types`).
* `mem_sites_iff` and `pairwise_sites`: the list is in order and has just the
  reached types, each once.
* `exists_before`: the type around a type comes before it.
-/
import Mathlib.Data.List.Forall2
import Mathlib.Data.List.Infix
import RouteRegistry.Source.Analysis

namespace RouteRegistry.Source

/-! ### Positions -/

/-- A declared type, the way down to it, and the types around it, outermost first. -/
structure TypeSite where
  /-- The number of a part of the file, then the numbers of members. -/
  position : List Nat
  around : List TypeDecl
  decl : TypeDecl

namespace TypeSite

/-- What the entry of the model says of the type at the site. -/
structure Describes (s : TypeSite) (e : TypeEntity) : Prop where
  name : e.name = s.decl.name.text
  /-- The names of all the types around it, outermost first, however deep it stands. -/
  enclosing : e.enclosing = s.around.map fun d => d.name.text
  kind : e.kind = s.decl.kind
  /-- Interfaces and annotation types are abstract, other types where the word is written. -/
  isAbstract : e.isAbstract = true ↔
    (s.decl.kind = .interfaceType ∨ s.decl.kind = .annotationType) ∨
      ∃ t, .word t ∈ s.decl.modifiers ∧ t.text = "abstract"
  annotations : e.annotations = s.decl.modifiers.flatMap Modifier.leaves
  line : e.line = s.decl.name.line

/-- The type as the model keeps it, with the names of the types around it. -/
def entity (s : TypeSite) : TypeEntity := s.decl.entity (s.around.map fun d => d.name.text)

/-- The type that is member number `j` of the type at the site. -/
def member (s : TypeSite) (j : Nat) (d : TypeDecl) : TypeSite :=
  ⟨s.position ++ [j], s.around ++ [s.decl], d⟩

/-- The type begins before the other one. -/
def Before (s t : TypeSite) : Prop := s.position < t.position

theorem isAlwaysAbstract_iff {kind : TypeKind} :
    isAlwaysAbstract kind = true ↔ kind = .interfaceType ∨ kind = .annotationType := by
  cases kind <;> simp [isAlwaysAbstract]

theorem any_isAbstract_iff {modifiers : List Modifier} :
    modifiers.any Modifier.isAbstract = true ↔ ∃ t, .word t ∈ modifiers ∧ t.text = "abstract" := by
  rw [List.any_eq_true]
  constructor
  · rintro ⟨m, hm, h⟩
    cases m with
    | word t => exact ⟨t, hm, beq_iff_eq.1 h⟩
    | annotated => cases h
  · rintro ⟨t, ht, h⟩
    exact ⟨.word t, ht, beq_iff_eq.2 h⟩

/-- The kept entry says all of the site that an entry can say. -/
theorem describes_entity (s : TypeSite) : s.Describes s.entity where
  name := rfl
  enclosing := rfl
  kind := rfl
  isAbstract := by
    show (isAlwaysAbstract s.decl.kind || s.decl.modifiers.any Modifier.isAbstract) = true ↔ _
    rw [Bool.or_eq_true, isAlwaysAbstract_iff, any_isAbstract_iff]
  annotations := rfl
  line := rfl

/-- A longer way comes after the way that it goes on from. -/
theorem lt_append_cons (position : List Nat) (k : Nat) (rest : List Nat) :
    position < position ++ k :: rest := by
  have goesOn : position ++ [] < position ++ k :: rest :=
    List.append_left_lt (List.nil_lt_cons k rest)
  rwa [List.append_nil] at goesOn

/-- A type comes before the types inside it. -/
theorem before_member (s : TypeSite) (j : Nat) (d : TypeDecl) : s.Before (s.member j d) :=
  lt_append_cons s.position j []

end TypeSite

/-- The types that are declared in bodies. -/
inductive Reached (unit : CompilationUnit) : TypeSite → Prop
  | top {i : Nat} {d : TypeDecl} : unit[i]? = some (.type d) → Reached unit ⟨[i], [], d⟩
  | member {s : TypeSite} {j : Nat} {d : TypeDecl} : Reached unit s →
      s.decl.members[j]? = some (.type d) → Reached unit (s.member j d)

/-! ### The walk -/

mutual

/-- The type and the types inside it. -/
def TypeDecl.sites (position : List Nat) (around : List TypeDecl) : TypeDecl → List TypeSite
  | .mk kind modifiers name header constants members =>
    ⟨position, around, .mk kind modifiers name header constants members⟩ ::
      memberSites position (around ++ [.mk kind modifiers name header constants members]) 0 members

/-- The types among members that are numbered from `first` on. -/
def memberSites (position : List Nat) (around : List TypeDecl) (first : Nat) :
    List Member → List TypeSite
  | [] => []
  | .type d :: ms =>
    d.sites (position ++ [first]) around ++ memberSites position around (first + 1) ms
  | .code _ :: ms => memberSites position around (first + 1) ms

end

/-- A part of a file as a member, of which only types matter. -/
def TopLevel.asMember : TopLevel → Member
  | .type d => .type d
  | .package _ | .importDecl _ | .code _ => .code []

/-- The types of the file: its parts are walked as members of a body around all. -/
def CompilationUnit.sites (unit : CompilationUnit) : List TypeSite :=
  memberSites [] [] 0 (unit.map TopLevel.asMember)

theorem TypeDecl.sites_eq (position : List Nat) (around : List TypeDecl) (d : TypeDecl) :
    d.sites position around =
      ⟨position, around, d⟩ :: memberSites position (around ++ [d]) 0 d.members := by
  cases d
  rw [TypeDecl.sites]
  rfl

/-! ### The types of the model -/

mutual

/-- By recursion on the tree: the walk with positions and the model list the same types. -/
theorem TypeDecl.map_entity_sites (position : List Nat) (around : List TypeDecl) :
    (d : TypeDecl) →
      (d.sites position around).map TypeSite.entity = d.entities (around.map fun d => d.name.text)
  | .mk kind modifiers name header constants members => by
    rw [TypeDecl.sites, List.map_cons, map_entity_memberSites, TypeDecl.entities, List.map_append]
    rfl

theorem map_entity_memberSites (position : List Nat) (around : List TypeDecl) (first : Nat) :
    (ms : List Member) →
      (memberSites position around first ms).map TypeSite.entity =
        memberEntities (around.map fun d => d.name.text) ms
  | [] => by rw [memberSites, memberEntities]; rfl
  | .type d :: ms => by
    rw [memberSites, List.map_append, TypeDecl.map_entity_sites, map_entity_memberSites,
      memberEntities]
  | .code _ :: ms => by rw [memberSites, map_entity_memberSites, memberEntities]

end

/-- The model has the types of the walk, in the order of the walk. -/
theorem types_eq (path : Path) (unit : CompilationUnit) :
    (FileModel.ofUnit path unit).types = unit.sites.map TypeSite.entity := by
  show unit.flatMap TopLevel.entities = (memberSites [] [] 0 _).map TypeSite.entity
  rw [map_entity_memberSites]
  show _ = memberEntities [] _
  induction unit with
  | nil => rw [List.map_nil, memberEntities]; rfl
  | cons part unit ih =>
    rw [List.flatMap_cons, ih, List.map_cons]
    cases part with
    | type d => exact (memberEntities.eq_2 ..).symm
    | package | importDecl | code => exact (memberEntities.eq_3 ..).symm

/-- Entry by entry, the model says of each visited type what is written there. -/
theorem describes_types (path : Path) (unit : CompilationUnit) :
    List.Forall₂ TypeSite.Describes unit.sites (FileModel.ofUnit path unit).types := by
  rw [types_eq, List.forall₂_map_right_iff, List.forall₂_same]
  exact fun s _ => s.describes_entity

/-! ### What the walk visits -/

/-- What holds of a type holds of the types among its members. -/
def Inherited (P : TypeSite → Prop) : Prop :=
  ∀ {s j d}, P s → s.decl.members[j]? = some (.type d) → P (s.member j d)

mutual

/-- What is inherited holds of all that the walk visits. -/
theorem TypeDecl.of_mem_sites {P : TypeSite → Prop} (inherited : Inherited P) :
    (d : TypeDecl) → ∀ {position around s},
      P ⟨position, around, d⟩ → s ∈ d.sites position around → P s
  | .mk kind modifiers name header constants members => by
    intro h hs
    rw [TypeDecl.sites] at hs
    rcases List.mem_cons.1 hs with rfl | hs
    · exact h
    · refine of_mem_memberSites inherited members (fun i d hd => ?_) hs
      rw [Nat.zero_add]
      exact inherited h hd

/-- The same for the types among members, if it holds of the types declared there. -/
theorem of_mem_memberSites {P : TypeSite → Prop} (inherited : Inherited P) :
    (ms : List Member) → ∀ {position around first s},
      (∀ i d, ms[i]? = some (.type d) → P ⟨position ++ [first + i], around, d⟩) →
        s ∈ memberSites position around first ms → P s
  | [] => by
    intro _ hs
    rw [memberSites] at hs
    exact absurd hs List.not_mem_nil
  | .type d :: ms => by
    intro h hs
    rw [memberSites] at hs
    rcases List.mem_append.1 hs with hs | hs
    · exact d.of_mem_sites inherited (h 0 d rfl) hs
    · refine of_mem_memberSites inherited ms (fun i x hx => ?_) hs
      rw [Nat.add_assoc, Nat.add_comm 1]
      exact h (i + 1) x hx
  -- a member that is no type takes a position all the same
  | .code _ :: ms => by
    intro h hs
    rw [memberSites] at hs
    refine of_mem_memberSites inherited ms (fun i x hx => ?_) hs
    rw [Nat.add_assoc, Nat.add_comm 1]
    exact h (i + 1) x hx

end

/-- The types among the members themselves are visited. -/
theorem mem_memberSites (position : List Nat) (around : List TypeDecl) {ms : List Member} {i : Nat}
    {d : TypeDecl} (h : ms[i]? = some (.type d)) (first : Nat) :
    ⟨position ++ [first + i], around, d⟩ ∈ memberSites position around first ms := by
  -- the offset `first` moves on with the list, so it varies
  induction ms generalizing i first with
  | nil => cases h
  | cons m ms ih =>
    cases i with
    | zero =>
      obtain rfl := Option.some.inj h
      rw [memberSites, TypeDecl.sites_eq]
      exact List.mem_append_left _ (List.mem_cons_self ..)
    | succ i =>
      have later := ih (i := i) h (first + 1)
      rw [Nat.add_assoc, Nat.add_comm 1] at later
      cases m with
      | type x =>
        rw [memberSites]
        exact List.mem_append_right _ later
      | code _ =>
        rw [memberSites]
        exact later

section

variable {s : TypeSite} {j : Nat} {x : TypeDecl}

mutual

/-- With a type, the walk visits the types among its members. -/
theorem TypeDecl.member_mem_sites (hx : s.decl.members[j]? = some (.type x)) :
    (d : TypeDecl) → ∀ position around,
      s ∈ d.sites position around → s.member j x ∈ d.sites position around
  | .mk kind modifiers name header constants members => by
    intro position around hs
    rw [TypeDecl.sites] at hs ⊢
    refine List.mem_cons_of_mem _ ?_
    rcases List.mem_cons.1 hs with rfl | hs
    · have visited := mem_memberSites position
        (around ++ [.mk kind modifiers name header constants members]) hx 0
      rwa [Nat.zero_add] at visited
    · exact member_mem_memberSites hx members _ _ _ hs

/-- The same for a walk over members. -/
theorem member_mem_memberSites (hx : s.decl.members[j]? = some (.type x)) :
    (ms : List Member) → ∀ position around first,
      s ∈ memberSites position around first ms → s.member j x ∈ memberSites position around first ms
  | [] => by
    intro position around first hs
    rw [memberSites] at hs
    exact absurd hs List.not_mem_nil
  | .type d :: ms => by
    intro position around first hs
    rw [memberSites] at hs ⊢
    rcases List.mem_append.1 hs with hs | hs
    · exact List.mem_append_left _ (d.member_mem_sites hx _ _ hs)
    · exact List.mem_append_right _ (member_mem_memberSites hx ms _ _ _ hs)
  | .code _ :: ms => by
    intro position around first hs
    rw [memberSites] at hs ⊢
    exact member_mem_memberSites hx ms _ _ _ hs

end

end

theorem getElem?_asMember {unit : CompilationUnit} {i : Nat} {d : TypeDecl} :
    (unit.map TopLevel.asMember)[i]? = some (.type d) ↔ unit[i]? = some (.type d) := by
  rw [List.getElem?_map]
  rcases unit[i]? with - | part
  · exact ⟨nofun, nofun⟩
  · cases part with
    | type x =>
      show some (Member.type x) = some (.type d) ↔ some (TopLevel.type x) = some (.type d)
      rw [Option.some.injEq, Option.some.injEq, Member.type.injEq, TopLevel.type.injEq]
    | package | importDecl | code => exact ⟨nofun, nofun⟩

/-- The walk visits the reached types and no others. -/
theorem mem_sites_iff {unit : CompilationUnit} {s : TypeSite} :
    s ∈ unit.sites ↔ Reached unit s := by
  constructor
  · refine of_mem_memberSites (P := Reached unit) Reached.member _ fun i d hd => ?_
    rw [Nat.zero_add]
    exact .top (getElem?_asMember.1 hd)
  · intro h
    induction h with
    | @top i d hd =>
      have visited := mem_memberSites [] [] (getElem?_asMember.2 hd) 0
      rwa [Nat.zero_add] at visited
    | member _ hx ih => exact member_mem_memberSites hx _ _ _ _ ih

/-! ### The order of the walk -/

/-- The way to a type inside leads through the type. -/
theorem TypeDecl.prefix_of_mem_sites {d : TypeDecl} {position : List Nat} {around : List TypeDecl}
    {s : TypeSite} (h : s ∈ d.sites position around) : position <+: s.position :=
  d.of_mem_sites (P := fun s => position <+: s.position)
    (fun hs _ => hs.trans (List.prefix_append ..)) (List.prefix_refl position) h

/-- The way to a type among members goes on from theirs, by a number not before the first. -/
theorem exists_of_mem_memberSites {ms : List Member} {position : List Nat}
    {around : List TypeDecl} {first : Nat} {s : TypeSite}
    (h : s ∈ memberSites position around first ms) :
    ∃ k rest, first ≤ k ∧ s.position = position ++ k :: rest := by
  refine of_mem_memberSites
    (P := fun s => ∃ k rest, first ≤ k ∧ s.position = position ++ k :: rest) ?_ ms ?_ h
  · rintro s j d ⟨k, rest, hk, e⟩ -
    refine ⟨k, rest ++ [j], hk, ?_⟩
    show s.position ++ [j] = _
    rw [e, List.append_assoc]
    rfl
  · intro i d _
    exact ⟨first + i, [], Nat.le_add_right first i, rfl⟩

mutual

/-- By recursion on the tree: the walk visits types in the order of their positions. -/
theorem TypeDecl.pairwise_sites : (d : TypeDecl) → ∀ (position : List Nat)
    (around : List TypeDecl), (d.sites position around).Pairwise TypeSite.Before
  | .mk kind modifiers name header constants members => by
    intro position around
    rw [TypeDecl.sites, List.pairwise_cons]
    refine ⟨fun s hs => ?_, pairwise_memberSites members ..⟩
    -- the way to a type inside goes on where the way to the type ends
    obtain ⟨k, rest, -, e⟩ := exists_of_mem_memberSites hs
    show position < s.position
    rw [e]
    exact TypeSite.lt_append_cons position k rest

/-- The types inside a member come before those inside the next. -/
theorem pairwise_memberSites : (ms : List Member) → ∀ (position : List Nat)
    (around : List TypeDecl) (first : Nat),
    (memberSites position around first ms).Pairwise TypeSite.Before
  | [] => by
    intro position around first
    rw [memberSites]
    exact List.Pairwise.nil
  | .type d :: ms => by
    intro position around first
    rw [memberSites, List.pairwise_append]
    refine ⟨d.pairwise_sites .., pairwise_memberSites ms .., fun s hs t ht => ?_⟩
    -- the two ways part at this member
    obtain ⟨tail, e⟩ := TypeDecl.prefix_of_mem_sites hs
    obtain ⟨k, rest, hk, e'⟩ := exists_of_mem_memberSites ht
    show s.position < t.position
    rw [← e, e', List.append_assoc, List.singleton_append]
    exact List.append_left_lt (List.cons_lt_cons_iff.2 (.inl hk))
  | .code _ :: ms => by
    intro position around first
    rw [memberSites]
    exact pairwise_memberSites ms ..

end

theorem pairwise_sites (unit : CompilationUnit) : unit.sites.Pairwise TypeSite.Before :=
  pairwise_memberSites ..

/-! ### The type around a type -/

/-- Around a type that is not at the top stands a reached type, which comes before it. -/
theorem Reached.exists_around {unit : CompilationUnit} {s : TypeSite} (h : Reached unit s)
    (inner : s.around ≠ []) :
    ∃ outer, Reached unit outer ∧ outer.Before s ∧ outer.around ++ [outer.decl] = s.around := by
  cases h with
  | top => exact absurd rfl inner
  | @member outer j d reached _ => exact ⟨outer, reached, outer.before_member j d, rfl⟩

/-- Before a type inside others stands the innermost of these. -/
theorem exists_before {path : Path} {unit : CompilationUnit} {before after : List TypeEntity}
    {e : TypeEntity} (split : (FileModel.ofUnit path unit).types = before ++ e :: after)
    (inner : e.enclosing ≠ []) :
    ∃ outer ∈ before, outer.enclosing ++ [outer.name] = e.enclosing := by
  rw [types_eq, List.map_eq_append_iff] at split
  obtain ⟨front, back, sites, rfl, split⟩ := split
  obtain ⟨s, rest, rfl, rfl, -⟩ := List.map_eq_cons_iff.1 split
  have order := pairwise_sites unit
  rw [sites] at order
  have reached : Reached unit s := by
    rw [← mem_sites_iff, sites]
    exact List.mem_append_right front (List.mem_cons_self ..)
  have around : s.around ≠ [] := by
    intro none
    exact inner (congrArg (List.map fun d : TypeDecl => d.name.text) none)
  obtain ⟨outer, outerReached, earlier, e⟩ := reached.exists_around around
  rw [← mem_sites_iff, sites] at outerReached
  refine ⟨outer.entity, ?_, ?_⟩
  · rcases List.mem_append.1 outerReached with h | h
    · exact List.mem_map_of_mem h
    · -- what is not in front is the type itself or comes later
      rcases List.mem_cons.1 h with rfl | h
      · exact absurd earlier (List.lt_irrefl _)
      · have later : s.Before outer :=
          List.rel_of_pairwise_cons (List.pairwise_append.1 order).2.1 h
        exact absurd earlier (List.lt_asymm later)
  · show outer.around.map _ ++ [outer.decl.name.text] = s.around.map _
    rw [← e, List.map_append]
    rfl

end RouteRegistry.Source

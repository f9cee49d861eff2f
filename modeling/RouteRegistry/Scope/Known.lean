/-
RouteRegistry/Scope/Known.lean

The declared types of a program, looked up by qualified name or by simple name.

Two records are kept: the set of all qualified names, and under each simple name
the qualified names that were first declared under it.  A declaration goes into
both or into neither, so the second is the first one put into groups; the
structure carries that, since the answers by simple name rest on it.
-/

namespace RouteRegistry

namespace KnownTypes

/-- The groups with one more name at the end of the one under `simple`. -/
def listUnder (simple qualified : String) :
    List (String × List String) → List (String × List String)
  | [] => [(simple, [qualified])]
  | (s, names) :: groups =>
    if s = simple then (s, names ++ [qualified]) :: groups
    else (s, names) :: listUnder simple qualified groups

/-- Listed by group or one after the other, the names are the old ones and the new one. -/
theorem perm_listUnder (simple qualified : String) (groups : List (String × List String)) :
    ((listUnder simple qualified groups).flatMap Prod.snd).Perm
      (groups.flatMap Prod.snd ++ [qualified]) := by
  induction groups with
  | nil => exact .refl _
  | cons group groups ih =>
    unfold listUnder
    split
    case isTrue =>
      -- the new name stands before the later groups here, and after them on the right
      simp only [List.flatMap_cons, List.append_assoc]
      exact List.perm_append_comm.append_left _
    case isFalse =>
      simp only [List.flatMap_cons, List.append_assoc]
      exact ih.append_left _

end KnownTypes

/-- The declared types, as a set of qualified names and grouped by simple name. -/
structure KnownTypes where
  /-- All qualified names, each once. -/
  qualified : List String
  /-- Each simple name with the types first declared under it, in the order of declaration. -/
  bySimpleName : List (String × List String)
  /-- The groups hold the declared types and nothing else. -/
  grouped : (bySimpleName.flatMap Prod.snd).Perm qualified
  distinct : qualified.Nodup

namespace KnownTypes

/-- No type is declared. -/
def empty : KnownTypes := ⟨[], [], .refl _, .nil⟩

instance : Inhabited KnownTypes := ⟨empty⟩

/-- The type is declared. -/
def contains (k : KnownTypes) (qualified : String) : Bool :=
  k.qualified.contains qualified

/-- Declares the type; a type that is already declared stays as it is. -/
def insert (k : KnownTypes) (simple qualified : String) : KnownTypes :=
  if h : k.contains qualified then k
  else
    { qualified := k.qualified ++ [qualified]
      bySimpleName := listUnder simple qualified k.bySimpleName
      grouped := (perm_listUnder ..).trans (k.grouped.append_right _)
      distinct := by
        have fresh : qualified ∉ k.qualified := fun mem => h (List.contains_iff_mem.2 mem)
        refine List.nodup_append.2 ⟨k.distinct, List.pairwise_singleton .., fun q hq q' hq' => ?_⟩
        rw [List.mem_singleton.1 hq']
        exact fun same => fresh (same ▸ hq) }

/-- The types declared one after the other, each under its simple name. -/
def ofList (names : List (String × String)) : KnownTypes :=
  names.foldl (fun k n => k.insert n.1 n.2) empty

/-- The one declared type with the simple name, if there is exactly one. -/
def unique (k : KnownTypes) (simple : String) : Option String :=
  match k.bySimpleName.lookup simple with
  | some [only] => some only
  | _ => none

end KnownTypes

end RouteRegistry

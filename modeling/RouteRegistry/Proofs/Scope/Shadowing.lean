/-
RouteRegistry/Proofs/Scope/Shadowing.lean

What a single-type import does to the meaning of a simple name.

Among the scopes only the enclosing types come before such an import, so it
hides a type of the same name in the file's own package and in any other
(`Context.resolveSimple_of_imported`).  A type of the default package, however,
is known by its simple name, and a name that is known as written never reaches
the scopes (`Context.tryResolve_small_default`).

Main result (`Context.tryResolve_of_imported`): an imported simple name stands
for the path of its first import, unless a type is known by just that name,
which then stands for itself.
-/
import RouteRegistry.Scope.Resolve

namespace RouteRegistry

open Source

/-! ### Simple names -/

theorem splitAtDot?_eq_none {name : String} (h : '.' ∉ name.toList) : splitAtDot? name = none := by
  have plain : ∀ c ∈ name.toList, decide (c ≠ '.') = true := by
    intro c hc
    have hne : c ≠ '.' := fun e => h (e ▸ hc)
    exact decide_eq_true hne
  unfold splitAtDot?
  rw [← List.append_nil name.toList, List.dropWhile_append_of_pos plain]
  rfl

/-! ### Single-type imports -/

/-- The import brings in one type, under the name. -/
structure Source.Import.BringsIn (i : Import) (name : String) : Prop where
  plain : i.isStatic = false
  single : i.isWildcard = false
  named : i.simpleName = name

/-- The test of an import is whether it brings the name in. -/
theorem Source.Import.bringsIn_iff {i : Import} {name : String} :
    (!i.isStatic && !i.isWildcard && i.simpleName == name) = true ↔ i.BringsIn name := by
  simp only [Bool.and_eq_true, Bool.not_eq_true', beq_iff_eq]
  exact ⟨fun ⟨⟨hs, hw⟩, hn⟩ => ⟨hs, hw, hn⟩, fun ⟨hs, hw, hn⟩ => ⟨⟨hs, hw⟩, hn⟩⟩

/-- In the context, `i` is the first import that brings in the simple name, and no type around the
reference has that name or a known member of that name. -/
structure Context.ImportedBy (c : Context) (name : String) (i : Import) : Prop where
  nonempty : name ≠ ""
  undotted : '.' ∉ name.toList
  brings : i.BringsIn name
  first : ∃ before after, c.imports = before ++ i :: after ∧ ∀ j ∈ before, ¬ j.BringsIn name
  outside : ∀ outer ∈ c.enclosing,
    lastSegment outer ≠ name ∧ c.known.contains (outer ++ "." ++ name) = false

namespace Context

variable {c : Context} {name : String} {i : Import}

/-- No type around the reference has the name. -/
theorem resolve_enclosing_of_imported (h : c.ImportedBy name i) :
    Scope.resolve c name .enclosing = none := by
  show (c.enclosing.flatMap (Scope.candidates name)).find? c.known.contains = none
  rw [List.find?_eq_none]
  intro candidate hmem
  obtain ⟨outer, houter, hcandidate⟩ := List.mem_flatMap.1 hmem
  obtain ⟨other, unknown⟩ := h.outside outer houter
  unfold Scope.candidates at hcandidate
  rw [if_neg other, List.mem_singleton] at hcandidate
  rw [hcandidate, unknown]
  exact Bool.false_ne_true

/-- The first import of the name answers for it. -/
theorem resolve_singleImport_of_imported (h : c.ImportedBy name i) :
    Scope.resolve c name .singleImport = some i.path := by
  obtain ⟨before, after, split, earlier⟩ := h.first
  have found : c.imports.find? (fun i => !i.isStatic && !i.isWildcard && i.simpleName == name) =
      some i := by
    rw [List.find?_eq_some_iff_append]
    refine ⟨Import.bringsIn_iff.2 h.brings, before, after, split, fun j hj => ?_⟩
    rw [Bool.not_eq_true', ← Bool.not_eq_true, Import.bringsIn_iff]
    exact earlier j hj
  show Option.map _ (List.find? _ _) = some i.path
  rw [found]
  rfl

/-- The scopes give an imported name the path of its import, whatever the packages declare. -/
theorem resolveSimple_of_imported (h : c.ImportedBy name i) :
    c.resolveSimple name = some i.path := by
  unfold resolveSimple Scope.all
  rw [List.findSome?_cons, resolve_enclosing_of_imported h, List.findSome?_cons,
    resolve_singleImport_of_imported h]

/-- An imported name stands for the path of its first import if and only if no type is known by
the bare name, or the path is that name; a type known by the bare name stands for itself. -/
theorem tryResolve_of_imported (h : c.ImportedBy name i) :
    c.tryResolve name = some (if c.known.contains name then name else i.path) ∧
    (c.tryResolve name = some i.path ↔ c.known.contains name = false ∨ i.path = name) := by
  -- the written name is looked up as a qualified one before any import is consulted
  have answer : c.tryResolve name = some (if c.known.contains name then name else i.path) := by
    unfold tryResolve
    rw [if_neg h.nonempty]
    by_cases known : c.known.contains name = true
    · rw [if_pos known, if_pos known]
    · rw [if_neg known, if_neg known, splitAtDot?_eq_none h.undotted]
      exact resolveSimple_of_imported h
  refine ⟨answer, ?_⟩
  rw [answer, Option.some.injEq]
  by_cases known : c.known.contains name = true
  · rw [if_pos known, known]
    exact ⟨fun e => .inr e.symm, fun e => (e.resolve_left nofun).symm⟩
  · rw [if_neg known]
    exact ⟨fun _ => .inl (Bool.not_eq_true _ ▸ known), fun _ => rfl⟩

/-! ### A small context -/

/-- In a type `Shell` of the package, whose file imports `app.pages.HomePage`, while another
`HomePage` is known as `own`. -/
def small (package : Option String) (own : String) : Context :=
  ⟨package, [⟨"app.pages.HomePage", false, false⟩], ["Shell"],
    .ofList [("HomePage", own), ("HomePage", "app.pages.HomePage")]⟩

/-- The import wins over the package `app`. -/
theorem tryResolve_small_named :
    (small (some "app") "app.HomePage").ImportedBy "HomePage" ⟨"app.pages.HomePage", false, false⟩ ∧
    (small (some "app") "app.HomePage").tryResolve "HomePage" = some "app.pages.HomePage" := by
  have h : (small (some "app") "app.HomePage").ImportedBy "HomePage"
      ⟨"app.pages.HomePage", false, false⟩ :=
    ⟨by decide, by decide, ⟨rfl, rfl, by decide +kernel⟩, ⟨[], [], rfl, nofun⟩, by decide +kernel⟩
  exact ⟨h, (tryResolve_of_imported h).2.2 (.inl (by decide +kernel))⟩

/-- The import does not win over the default package. -/
theorem tryResolve_small_default :
    (small none "HomePage").ImportedBy "HomePage" ⟨"app.pages.HomePage", false, false⟩ ∧
    (small none "HomePage").tryResolve "HomePage" ≠ some "app.pages.HomePage" :=
  ⟨⟨by decide, by decide, ⟨rfl, rfl, by decide +kernel⟩, ⟨[], [], rfl, nofun⟩, by decide +kernel⟩,
    by decide +kernel⟩

end Context

end RouteRegistry

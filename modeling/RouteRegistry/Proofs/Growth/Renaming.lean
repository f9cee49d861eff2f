/-
RouteRegistry/Proofs/Growth/Renaming.lean

A table grows alike whatever the identities are.

`Catalog.Renames f c c'` says that `c'` has the declarations of `c` under the
identities that `f` gives them, and that both know the same qualified names.
Nothing that decides what is in sight of a growth depends on identities, so the
two catalogs are seen alike (`Renames.seenAlike`).

Both catalogs must know all of their declarations: a look-up that fails is a
fault whose message names the identity.
-/
import Mathlib.Data.List.Basic
import RouteRegistry.Proofs.Growth.Sight

namespace RouteRegistry

/-- The declaration under another identity. -/
def Declaration.rename (f : DeclId → DeclId) (d : Declaration) : Declaration :=
  { d with id := f d.id }

/-- `c'` is `c` under other identities, and no name is unknown in either of them. -/
structure Catalog.Renames (f : DeclId → DeclId) (c c' : Catalog) : Prop where
  declarations : c'.declarations = c.declarations.map (Declaration.rename f)
  lookup : ∀ d ∈ c.declarations,
    ∃ name, c.lookup d.id = .found name ∧ c'.lookup (f d.id) = .found name

namespace Survey

/-- The same survey of another catalog. -/
def withCatalog (s : Survey) (c : Catalog) : Survey := { s with catalog := c }

end Survey

namespace Catalog.Renames

variable {f : DeclId → DeclId}

section

variable {c c' : Catalog} (h : c.Renames f c')

include h

/-- What kind a declaration is does not depend on its identity. -/
theorem classLikes : c'.classLikes = c.classLikes.map (Declaration.rename f) := by
  unfold Catalog.classLikes
  rw [h.declarations, List.filter_map]
  rfl

/-- A name is found at the same declaration. -/
theorem findByName (name : String) :
    c'.findByName name = (c.findByName name).map (Declaration.rename f) := by
  unfold Catalog.findByName
  rw [h.classLikes, List.find?_map]
  rfl

end

variable {s : Survey} {c' : Catalog} (h : s.catalog.Renames f c')

include h

/-- Under either identity the answer is the same name. -/
theorem sight {d : Declaration} (hd : d ∈ s.catalog.declarations) :
    (s.withCatalog c').sight (d.rename f) = (s.sight d).rename f := by
  obtain ⟨name, known, known'⟩ := h.lookup d hd
  have answer : s.resolve d = .ok name := by
    unfold Survey.resolve
    rw [known]
  have answer' : (s.withCatalog c').resolve (d.rename f) = .ok name := by
    have asked : (s.withCatalog c').catalog.lookup (d.rename f).id = .found name := known'
    unfold Survey.resolve
    rw [asked]
  unfold Survey.sight
  rw [answer, answer']
  rfl

/-- The markers ask for the same, on behalf of the renamed carriers. -/
theorem extraRoutes :
    (s.withCatalog c').extraRoutes = s.extraRoutes.map (ExtraRoute.rename f) := by
  show c'.declarations.flatMap s.names.extraRoutes =
    (s.catalog.declarations.flatMap s.names.extraRoutes).map _
  have renamed (d : Declaration) : s.names.extraRoutes (d.rename f) =
      (s.names.extraRoutes d).map (ExtraRoute.rename f) := by
    unfold MarkerNames.extraRoutes
    rw [List.map_map]
    rfl
  rw [h.declarations, List.flatMap_map, List.map_flatMap]
  exact List.flatMap_congr fun d _ => renamed d

/-- A walk over the renamed catalog sees the same, but for the identities. -/
theorem seenAlike (suffix : String) : s.SeenAlike f (s.withCatalog c') suffix where
  reserved := rfl
  offers := by
    show (c'.classLikes.filter (s.isEligible suffix)).map (s.withCatalog c').sight = _
    rw [h.classLikes, List.filter_map, List.map_map, Survey.offers, List.map_map]
    apply List.map_congr_left
    intro d hd
    exact h.sight (List.mem_filter.1 (List.mem_filter.1 hd).1).1
  extraRoutes := h.extraRoutes
  target := by
    intro e _ name _
    show (c'.findByName name).map (s.withCatalog c').sight = _
    rw [h.findByName, Option.map_map, Survey.target?, Option.map_map]
    apply Option.map_congr
    intro d hd
    exact h.sight (List.mem_filter.1 (List.mem_of_find?_eq_some hd)).1

end Catalog.Renames

end RouteRegistry

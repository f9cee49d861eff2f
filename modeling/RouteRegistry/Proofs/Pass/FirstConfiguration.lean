/-
RouteRegistry/Proofs/Pass/FirstConfiguration.lean

Only the first configuration marker counts.

Configuration markers are read in one place, where a pass looks for the first of
them.  In every other place they are in the way at most: a pass that looks for
extra-route or ignore markers passes over them, provided that no marker goes by
a name of two kinds (`MarkerNames.Apart`).  So what is in sight of a growth is
what is in sight without them (`offers_eq`, `extraRoutes_eq`, `target?_eq`), and
catalogs that agree without them are seen alike (`seenAlike_of_unconfigured`).

Main result (`run_reconfigured`): whatever becomes of the configuration markers
behind the first one, on its carrier or on later declarations, the pass stays
the same, and it is without a suffix if the first one is.
-/
import RouteRegistry.Proofs.Catalog.Indexed
import RouteRegistry.Proofs.Pass.Outcome
import RouteRegistry.Proofs.Pass.Sight

namespace RouteRegistry

/-! ### Declarations without configuration markers -/

namespace MarkerNames

/-- No configuration marker goes by the name of an extra-route marker or of an ignore marker. -/
structure Apart (names : MarkerNames) : Prop where
  extraRoute : ∀ name ∈ names.configuration, name ∉ names.extraRoute
  ignore : ∀ name ∈ names.configuration, name ∉ names.ignore

/-- The markers that are no configuration markers. -/
def others (names : MarkerNames) (ms : List Marker) : List Marker :=
  ms.filter fun m => m.simpleName ∉ names.configuration

end MarkerNames

/-- The declaration with all that counts once a pass is configured. -/
def Declaration.unconfigured (names : MarkerNames) (d : Declaration) : Declaration :=
  { d with markers := names.others d.markers }

section

variable {names : MarkerNames} (d : Declaration)

theorem Declaration.markersNamed_unconfigured {kind : List String}
    (apart : ∀ name ∈ names.configuration, name ∉ kind) :
    (d.unconfigured names).markersNamed kind = d.markersNamed kind := by
  show (d.markers.filter _).filter _ = d.markers.filter _
  rw [List.filter_filter]
  apply List.filter_congr
  intro m _
  by_cases h : m.simpleName ∈ kind
  · have other : m.simpleName ∉ names.configuration := fun hm => apart _ hm h
    simp [h, other]
  · simp [h]

/-- Markers of another kind are still there. -/
theorem Declaration.hasMarker_unconfigured {kind : List String}
    (apart : ∀ name ∈ names.configuration, name ∉ kind) :
    (d.unconfigured names).hasMarker kind = d.hasMarker kind := by
  have any (d : Declaration) : d.hasMarker kind = (d.markersNamed kind).any fun _ => true := by
    show d.markers.any _ = (d.markers.filter _).any _
    rw [List.any_filter]
    simp only [Bool.and_true]
  rw [any, any, d.markersNamed_unconfigured apart]

end

namespace Survey

variable {s : Survey} (apart : s.names.Apart)

include apart

/-- Whether a declaration is eligible does not depend on its configuration markers. -/
theorem isEligible_unconfigured (suffix : String) (d : Declaration) :
    s.isEligible suffix (d.unconfigured s.names) = s.isEligible suffix d := by
  have ignored : s.names.ignores (d.unconfigured s.names) = s.names.ignores d :=
    d.hasMarker_unconfigured apart.ignore
  unfold isEligible
  rw [ignored]
  rfl

/-! ### What is in sight -/

/-- What a discovery is offered can be told without configuration markers. -/
theorem offers_eq (suffix : String) :
    s.offers suffix = ((s.catalog.declarations.map (Declaration.unconfigured s.names)).filter
      fun d => s.isEligible suffix d && d.kind.isClassLike).map s.sight := by
  have passed : (fun d => s.isEligible suffix d && d.kind.isClassLike) ∘
      Declaration.unconfigured s.names = fun d => s.isEligible suffix d && d.kind.isClassLike := by
    funext d
    show (s.isEligible suffix (d.unconfigured s.names) && d.kind.isClassLike) = _
    rw [isEligible_unconfigured apart]
  unfold offers Catalog.classLikes
  rw [List.filter_filter, List.filter_map, passed, List.map_map]
  rfl

/-- What markers ask for can be told without configuration markers. -/
theorem extraRoutes_eq_flatMap :
    s.extraRoutes =
      (s.catalog.declarations.map (Declaration.unconfigured s.names)).flatMap
        s.names.extraRoutes := by
  unfold extraRoutes
  rw [List.flatMap_map]
  apply List.flatMap_congr
  intro d _
  unfold MarkerNames.extraRoutes
  rw [d.markersNamed_unconfigured apart.extraRoute]
  rfl

omit apart in
/-- The declaration that a name leads to can be told without configuration markers. -/
theorem target?_eq (s : Survey) (name : String) :
    s.target? name = ((s.catalog.declarations.map (Declaration.unconfigured s.names)).find?
      fun d => d.kind.isClassLike && d.name == name).map s.sight := by
  unfold target?
  rw [Catalog.findByName_eq, List.find?_map, Option.map_map]
  rfl

/-- Catalogs that agree but for configuration markers are seen alike. -/
theorem seenAlike_of_unconfigured {c : Catalog} (lookup : c.lookup = s.catalog.lookup)
    (same : c.declarations.map (Declaration.unconfigured s.names) =
      s.catalog.declarations.map (Declaration.unconfigured s.names)) (suffix : String) :
    s.SeenAlike id { s with catalog := c } suffix := by
  have apart' : ({ s with catalog := c } : Survey).names.Apart := apart
  have sight : ({ s with catalog := c } : Survey).sight = s.sight := by
    funext d
    unfold Survey.sight resolve
    rw [lookup]
  constructor
  case reserved => rfl
  case offers =>
    rw [sight_rename_id, List.map_id, offers_eq apart', offers_eq apart, sight]
    show ((c.declarations.map (Declaration.unconfigured s.names)).filter _).map _ = _
    rw [same]
    rfl
  case extraRoutes =>
    rw [ExtraRoute.rename_id, List.map_id, extraRoutes_eq_flatMap apart',
      extraRoutes_eq_flatMap apart]
    show (c.declarations.map (Declaration.unconfigured s.names)).flatMap _ = _
    rw [same]
  case target =>
    intro e _ name _
    rw [sight_rename_id, Option.map_id, id, target?_eq, target?_eq, sight]
    show ((c.declarations.map (Declaration.unconfigured s.names)).find? _).map _ = _
    rw [same]

end Survey

/-! ### Catalogs that count -/

namespace IndexedCatalog

variable {names : MarkerNames} {ds ds' : List Declaration}

theorem map_unconfigured (names : MarkerNames) (ds : List Declaration) :
    (ofList ds).declarations.map (Declaration.unconfigured names) =
      (ofList (ds.map (Declaration.unconfigured names))).declarations := by
  apply List.ext_getElem?
  intro i
  rw [List.getElem?_map, getElem?_ofList, getElem?_ofList, List.getElem?_map, Option.map_map,
    Option.map_map]
  rfl

/-- Counting does not look at markers. -/
theorem declarations_of_unconfigured
    (h : ds'.map (Declaration.unconfigured names) = ds.map (Declaration.unconfigured names)) :
    (ofList ds').declarations.map (Declaration.unconfigured names) =
      (ofList ds).declarations.map (Declaration.unconfigured names) := by
  rw [map_unconfigured, map_unconfigured, h]

/-- Nor do qualified names depend on markers. -/
theorem lookup_of_unconfigured
    (h : ds'.map (Declaration.unconfigured names) = ds.map (Declaration.unconfigured names)) :
    (ofList ds').toCatalog.lookup = (ofList ds).toCatalog.lookup := by
  have answer (x : Option Declaration) :
      Lookup.of x = .of (x.map (Declaration.unconfigured names)) := by
    rcases x with - | d <;> rfl
  funext id
  show Lookup.of ((ofList ds').declarations[id.index.toNat]?) =
    Lookup.of ((ofList ds).declarations[id.index.toNat]?)
  rw [answer, answer (ofList ds).declarations[_]?, ← List.getElem?_map, ← List.getElem?_map,
    declarations_of_unconfigured h]

end IndexedCatalog

/-! ### The pass -/

namespace Generator

/-- The configuration is that of the first marker, whatever comes behind it. -/
theorem configuration?_of_first (g : Generator) (carrier : Declaration)
    {before : List Declaration} {lead : List Marker} {m : Marker}
    (unconfigured : ∀ d ∈ before, ∀ x ∈ d.markers, x.simpleName ∉ g.names.configuration)
    (leads : ∀ x ∈ lead, x.simpleName ∉ g.names.configuration)
    (configures : m.simpleName ∈ g.names.configuration) (rest : List Marker)
    (after : List Declaration) :
    g.configuration? (IndexedCatalog.ofList
        (before ++ { carrier with markers := lead ++ m :: rest } :: after)).toCatalog =
      some (MarkerNames.configurationOf { carrier with id := ⟨.ofNat before.length⟩ } m) := by
  -- nothing in front of the carrier configures, and on it the lead does not either
  have passed : (IndexedCatalog.ofList before).declarations.findSome? g.names.configuration? =
      none := by
    rw [List.findSome?_eq_none_iff]
    intro d hd
    obtain ⟨i, x, hx, rfl⟩ := IndexedCatalog.exists_of_mem_ofList hd
    exact MarkerNames.configuration?_eq_none (unconfigured x (List.mem_of_getElem? hx))
  have found (d : Declaration) (h : d.markers = lead ++ m :: rest) :
      g.names.configuration? d = some (MarkerNames.configurationOf d m) := by
    have none : lead.find? (fun x => g.names.configuration.contains x.simpleName) = none := by
      apply List.find?_eq_none.2
      intro x hx
      simpa using leads x hx
    rw [MarkerNames.configuration?_eq, h, List.find?_append, none, Option.none_or,
      List.find?_cons_of_pos (by simpa using configures)]
    rfl
  have numbered : (IndexedCatalog.ofList
      (before ++ { carrier with markers := lead ++ m :: rest } :: after)).declarations =
      (IndexedCatalog.ofList before).declarations ++ _ := List.mapIdx_append
  show List.findSome? _ (IndexedCatalog.ofList _).declarations = _
  rw [numbered, List.findSome?_append, passed, Option.none_or, List.mapIdx_cons,
    List.findSome?_cons, found _ rfl, Nat.zero_add]
  rfl

/-- Configuration markers behind the first one, on the declaration that carries it or on later
ones, can be added, removed and changed, and the pass is the same.  If the first one has no suffix
to show, that is the outcome. -/
theorem run_reconfigured (g : Generator) (apart : g.names.Apart)
    {before after after' : List Declaration} {carrier : Declaration}
    {lead rest rest' : List Marker} {m : Marker}
    (unconfigured : ∀ d ∈ before, ∀ x ∈ d.markers, x.simpleName ∉ g.names.configuration)
    (leads : ∀ x ∈ lead, x.simpleName ∉ g.names.configuration)
    (configures : m.simpleName ∈ g.names.configuration)
    (sameRest : g.names.others rest' = g.names.others rest)
    (sameAfter : after'.map (Declaration.unconfigured g.names) =
      after.map (Declaration.unconfigured g.names))
    (cancel : Cancellation) (sink : Sink) (output : Output) :
    let r := g.run (IndexedCatalog.ofList
      (before ++ { carrier with markers := lead ++ m :: rest } :: after)).toCatalog cancel sink output
    let r' := g.run (IndexedCatalog.ofList
      (before ++ { carrier with markers := lead ++ m :: rest' } :: after')).toCatalog cancel sink
        output
    r' = r ∧ (m.shown? 0 MarkerNames.suffixKeys = none → r'.outcome = .missingSuffix) := by
  intro r r'
  have first := g.configuration?_of_first carrier unconfigured leads configures
  -- without their configuration markers the two catalogs are one list of declarations
  have same : (before ++ { carrier with markers := lead ++ m :: rest' } :: after').map
      (Declaration.unconfigured g.names) =
      (before ++ { carrier with markers := lead ++ m :: rest } :: after).map
        (Declaration.unconfigured g.names) := by
    have carriers : g.names.others (lead ++ m :: rest') = g.names.others (lead ++ m :: rest) := by
      unfold MarkerNames.others at sameRest ⊢
      rw [List.filter_append, List.filter_append, List.filter_cons, List.filter_cons, sameRest]
    rw [List.map_append, List.map_append, List.map_cons, List.map_cons, sameAfter]
    show _ ++ { carrier with markers := g.names.others (lead ++ m :: rest') } :: _ = _
    rw [carriers]
    rfl
  constructor
  · apply run_of_seenAlike_id
    · rw [first, first]
    · intro suffix
      apply Survey.seenAlike_of_unconfigured (s := g.survey _) apart
      · exact IndexedCatalog.lookup_of_unconfigured same
      · exact IndexedCatalog.declarations_of_unconfigured same
  · intro blank
    have none : (MarkerNames.configurationOf { carrier with id := ⟨.ofNat before.length⟩ }
        m).usableSuffix = none := by
      rw [MarkerNames.usableSuffix_configurationOf, blank]
    show (g.run _ cancel sink output).outcome = _
    rw [run_of_missingSuffix (first rest' after') none]

/-- A first suffix that is blank, with further configurations to be added behind it. -/
theorem run_reconfigured_blank :
    let page : Declaration := ⟨⟨0⟩, "HomePage", "app", [], .classType, false, [], none⟩
    let program : Declaration := ⟨⟨0⟩, "Program", "app", [], .classType, false, [], none⟩
    let configured (suffix : String) : Marker := ⟨"AutoRoutes", [⟨none, .str suffix⟩], none⟩
    let route : Marker := ⟨"ExtraRoute", [⟨none, .str "Login"⟩], none⟩
    let g : Generator := ⟨⟨"txt", [], fun _ _ => .ok ""⟩, .default⟩
    let r := g.run (IndexedCatalog.ofList ([page] ++
      { program with markers := [route] ++ configured " " :: [] } :: [page])).toCatalog .never
        .memory []
    let r' := g.run (IndexedCatalog.ofList ([page] ++
      { program with markers := [route] ++ configured " " :: [configured "Page"] } ::
        [{ page with markers := [configured "Page"] }])).toCatalog .never .memory []
    g.names.Apart ∧ r' = r ∧ r'.outcome = .missingSuffix := by
  intro page program configured route g r r'
  have apart : g.names.Apart := by constructor <;> decide
  have law := @run_reconfigured g apart [page] [page]
    [{ page with markers := [configured "Page"] }] program [route] [] [configured "Page"]
    (configured " ") (by decide) (by decide +kernel) (by decide +kernel) (by decide +kernel)
    (by decide +kernel) .never .memory []
  exact ⟨apart, law.1, law.2 (by decide +kernel)⟩

end Generator

end RouteRegistry

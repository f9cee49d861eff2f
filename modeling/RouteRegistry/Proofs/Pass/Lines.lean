/-
RouteRegistry/Proofs/Pass/Lines.lean

Lines do not matter to a pass.

The line of a marker or of a type goes into the diagnostics about it, and nowhere
else.  So over a catalog without lines a pass is what it is over the catalog,
told without lines (`Generator.run_unlined`): it has the same outcome and leaves
the same output.  Only a host that cancels because of a line can tell the two
passes apart, and the routes that they generate are the same even then
(`Generator.routes?_unlined`).
-/
import Mathlib.Data.List.Basic
import RouteRegistry.Proofs.Pass.Outcome
import RouteRegistry.Proofs.Pass.Sight

namespace RouteRegistry

/-! ### Without lines -/

/-- The place without its line. -/
def Location.unlined (l : Location) : Location := { l with line := 0 }

/-- The marker without the line of its place. -/
def Marker.unlined (m : Marker) : Marker := { m with origin := m.origin.map Location.unlined }

/-- The declaration without its own line and those of its markers. -/
def Declaration.unlined (d : Declaration) : Declaration :=
  { d with markers := d.markers.map Marker.unlined, origin := d.origin.map Location.unlined }

/-- The catalog without lines; it still knows the same names. -/
def Catalog.unlined (c : Catalog) : Catalog :=
  { c with declarations := c.declarations.map Declaration.unlined }

/-- The extra route without the line of its place. -/
def ExtraRoute.unlined (e : ExtraRoute) : ExtraRoute :=
  { e with origin := e.origin.map Location.unlined }

/-- The configuration without the line of its place. -/
def Configuration.unlined (c : Configuration) : Configuration :=
  { c with origin := c.origin.map Location.unlined }

/-- The event without the line that a diagnostic is about. -/
def Event.unlined : Event → Event
  | .lookup id => .lookup id
  | .report d => .report { d with location := d.location.map Location.unlined }

/-- The run without the lines that its diagnostics are about. -/
def Run.unlined (r : Run) : Run := { r with events := r.events.map Event.unlined }

/-- Events without diagnostics have no lines. -/
theorem map_unlined_of_silent {events : List Event} (h : diagnosticsOf events = []) :
    events.map Event.unlined = events := by
  refine (List.map_congr_left fun e he => ?_).trans (List.map_id events)
  cases e with
  | lookup id => rfl
  | report d => cases List.filterMap_eq_nil_iff.1 h (.report d) he

/-! ### Reading markers -/

theorem Declaration.markersNamed_unlined (d : Declaration) (names : List String) :
    d.unlined.markersNamed names = (d.markersNamed names).map Marker.unlined := by
  unfold markersNamed
  exact List.filter_map

theorem Declaration.hasMarker_unlined (d : Declaration) (names : List String) :
    d.unlined.hasMarker names = d.hasMarker names := by
  unfold hasMarker
  exact List.any_map

namespace MarkerNames

/-- A place that is taken over from the carrier loses its line all the same. -/
theorem origin_unlined (d : Declaration) (m : Marker) :
    m.unlined.origin.or d.unlined.origin = (m.origin.or d.origin).map Location.unlined :=
  Option.map_or.symm

theorem extraRouteOf_unlined (d : Declaration) (m : Marker) :
    extraRouteOf d.unlined m.unlined = (extraRouteOf d m).unlined := by
  unfold extraRouteOf
  rw [origin_unlined]
  rfl

theorem configurationOf_unlined (d : Declaration) (m : Marker) :
    configurationOf d.unlined m.unlined = (configurationOf d m).unlined := by
  unfold configurationOf
  rw [origin_unlined]
  rfl

theorem extraRoutes_unlined (names : MarkerNames) (d : Declaration) :
    names.extraRoutes d.unlined = (names.extraRoutes d).map ExtraRoute.unlined := by
  unfold extraRoutes
  rw [Declaration.markersNamed_unlined, List.map_map, List.map_map]
  exact List.map_congr_left fun m _ => extraRouteOf_unlined d m

theorem configuration?_unlined (names : MarkerNames) (d : Declaration) :
    names.configuration? d.unlined = (names.configuration? d).map Configuration.unlined := by
  unfold configuration?
  rw [Declaration.markersNamed_unlined, List.head?_map, Option.map_map, Option.map_map]
  exact congrArg (Option.map · _) (funext (configurationOf_unlined d))

end MarkerNames

/-! ### Growing the table -/

namespace Generator

variable (g : Generator) (c : Catalog)

theorem classLikes_unlined : c.unlined.classLikes = c.classLikes.map Declaration.unlined :=
  List.filter_map

theorem findByName_unlined (name : String) :
    c.unlined.findByName name = (c.findByName name).map Declaration.unlined := by
  unfold Catalog.findByName
  rw [classLikes_unlined]
  exact List.find?_map

/-- A declaration is resolved by its identity, whatever its line. -/
theorem resolve_unlined (d : Declaration) :
    (g.survey c.unlined).resolve d.unlined = (g.survey c).resolve d := rfl

theorem isEligible_unlined (suffix : String) (d : Declaration) :
    (g.survey c.unlined).isEligible suffix d.unlined = (g.survey c).isEligible suffix d := by
  unfold Survey.isEligible MarkerNames.ignores
  rw [Declaration.hasMarker_unlined]
  rfl

/-- Discovery sees no lines. -/
theorem found_unlined (suffix : String) : g.found c.unlined suffix = g.found c suffix := by
  unfold found Survey.discover
  rw [Survey.discoverFrom_eq_ofOffers, Survey.discoverFrom_eq_ofOffers]
  show Growth.ofOffers ((c.unlined.classLikes.filter _).map _) _ =
    Growth.ofOffers ((c.classLikes.filter _).map _) _
  have eligible : (g.survey c.unlined).isEligible suffix ∘ Declaration.unlined =
      (g.survey c).isEligible suffix := funext (isEligible_unlined g c suffix)
  rw [classLikes_unlined, List.filter_map, List.map_map, eligible]
  rfl

theorem extraRoutes_unlined :
    (g.survey c.unlined).extraRoutes = (g.survey c).extraRoutes.map ExtraRoute.unlined := by
  show (c.declarations.map Declaration.unlined).flatMap g.names.extraRoutes =
    (c.declarations.flatMap g.names.extraRoutes).map _
  rw [List.flatMap_map, List.map_flatMap]
  exact List.flatMap_congr fun d _ => g.names.extraRoutes_unlined d

/-- A merge adds the same routes and says the same, but for the lines. -/
theorem merge_unlined (t : RouteTable) :
    (g.survey c.unlined).merge t = ((g.survey c).merge t).retell Event.unlined := by
  have reserved : (g.survey c.unlined).reserved = (g.survey c).reserved := rfl
  have names (e : ExtraRoute) : e.unlined.usableName = e.usableName := rfl
  -- a lookup by name finds the declaration with its lines or without, and both resolve alike
  have found (name : String) :
      Survey.FoundAlike Event.unlined (g.survey c) (g.survey c.unlined) name := by
    have same : (g.survey c.unlined).catalog.findByName name =
      ((g.survey c).catalog.findByName name).map Declaration.unlined := findByName_unlined c name
    unfold Survey.FoundAlike
    rw [same]
    rcases (g.survey c).catalog.findByName name with - | d
    · exact .inl ⟨rfl, rfl⟩
    · exact .inr ⟨d, d.unlined, rfl, rfl, rfl, resolve_unlined g c d⟩
  unfold Survey.merge
  rw [extraRoutes_unlined]
  exact Survey.mergeFrom_retell reserved names (fun _ => rfl) (fun _ _ _ => rfl)
    (fun _ _ name _ => found name) t

/-! ### The pass -/

theorem configuration?_unlined :
    g.configuration? c.unlined = (g.configuration? c).map Configuration.unlined := by
  unfold configuration?
  show (c.declarations.map Declaration.unlined).findSome? _ = _
  rw [List.findSome?_map, List.map_findSome?]
  exact congrArg (List.findSome? · c.declarations)
    (funext fun d => g.names.configuration?_unlined d)

/-- Over a catalog without lines a pass is the same, told without lines. -/
theorem run_unlined (cancel : Cancellation) (sink : Sink) (output : Output) :
    g.run c.unlined cancel sink output =
      (g.run c (cancel.hearing Event.unlined) sink output).unlined := by
  have untouched (r : Run) : r.unlined = r.retell id Event.unlined := by
    unfold Run.retell
    rw [Outcome.rename_id]
    rfl
  rw [untouched]
  unfold run
  rw [configuration?_unlined]
  rcases g.configuration? c with - | config
  · rfl
  have suffix : config.unlined.usableSuffix = config.usableSuffix := rfl
  dsimp only [Option.map_some]
  rw [suffix]
  rcases config.usableSuffix with - | suffix
  · rfl
  -- discovery reports nothing, so its events carry no line to lose
  have silent : (g.found c suffix).events.map Event.unlined = (g.found c suffix).events :=
    map_unlined_of_silent (diagnosticsOf_found g c suffix)
  have discover : (g.survey c.unlined).discover suffix .empty =
      ((g.survey c).discover suffix .empty).retell Event.unlined := by
    have same := found_unlined g c suffix
    unfold found at same silent
    rw [same]
    unfold Growth.retell
    rw [silent]
  have space : config.unlined.space = config.space := rfl
  have carrier : config.unlined.carrier = id config.carrier := rfl
  exact generate_retell (fun _ _ => rfl) discover (merge_unlined g c) space carrier cancel sink
    output

/-- The routes that a pass generates if nothing keeps it from doing so. -/
def routes? : Option GeneratedRoutes :=
  (g.configuration? c).bind fun config => config.usableSuffix.map fun suffix =>
    ⟨g.emitter.fileId, config.space, config.carrier, (g.merged c suffix).table⟩

/-- The routes do not know of lines. -/
theorem routes?_unlined : g.routes? c.unlined = g.routes? c := by
  have table (suffix : String) : (g.merged c.unlined suffix).table = (g.merged c suffix).table := by
    unfold merged
    rw [found_unlined, merge_unlined, Growth.table_retell]
  unfold routes?
  rw [configuration?_unlined, Option.bind_map]
  refine congrArg (Option.bind _) (funext fun config => ?_)
  show config.usableSuffix.map _ = _
  simp only [table]
  rfl

variable {g c}

/-- Whenever a pass generates routes, it generates these. -/
theorem routes?_of_generated {cancel : Cancellation} {sink : Sink} {output : Output}
    {routes : GeneratedRoutes}
    (h : (g.run c cancel sink output).outcome = .generated routes) : g.routes? c = some routes := by
  unfold routes?
  rcases hc : g.configuration? c with - | config
  · rw [run_of_notConfigured hc] at h
    cases h
  rcases hs : config.usableSuffix with - | suffix
  · rw [run_of_missingSuffix hc hs] at h
    cases h
  rw [run_of_suffix hc hs] at h
  rw [(g.generate_finishes c cancel sink output config suffix).routes_eq h, Option.bind_some, hs]
  rfl

end Generator

end RouteRegistry

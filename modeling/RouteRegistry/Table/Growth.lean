/-
RouteRegistry/Table/Growth.lean

How a route table grows: by discovery of types whose names end with a suffix,
and by the extra routes that markers ask for.

Both walk the catalog in order and stop at the first fault, keeping what was
added before it.  A `Growth` records the table reached, what happened on the
way (questions put to the catalog and diagnostics, in order) and the fault, if
there was one.

A table is built by any number of such steps (`Survey.tableAfter`); one that
ends in a fault keeps what it has added, and the next goes on from there.
-/
import RouteRegistry.Catalog
import RouteRegistry.Diagnostic
import RouteRegistry.Fault
import RouteRegistry.MarkerNames
import RouteRegistry.RouteName
import RouteRegistry.Table

namespace RouteRegistry

/-- Something a host can notice while a pass runs. -/
inductive Event where
  | lookup (id : DeclId)
  | report (d : Diagnostic)
  deriving DecidableEq, Inhabited

/-- The diagnostic, if the event is one. -/
def Event.report? : Event → Option Diagnostic
  | .report d => some d
  | .lookup _ => none

/-- The diagnostics among the events. -/
def diagnosticsOf (events : List Event) : List Diagnostic := events.filterMap Event.report?

@[simp] theorem diagnosticsOf_nil : diagnosticsOf [] = [] := rfl

/-- Questions put to the catalog are no diagnostics. -/
@[simp] theorem diagnosticsOf_lookup (id : DeclId) (events : List Event) :
    diagnosticsOf (.lookup id :: events) = diagnosticsOf events := rfl

@[simp] theorem diagnosticsOf_report (d : Diagnostic) (events : List Event) :
    diagnosticsOf (.report d :: events) = d :: diagnosticsOf events := rfl

/-- What happened first is reported first. -/
@[simp] theorem diagnosticsOf_append (past more : List Event) :
    diagnosticsOf (past ++ more) = diagnosticsOf past ++ diagnosticsOf more :=
  List.filterMap_append

/-- The result of growing a table. -/
structure Growth where
  table : RouteTable
  events : List Event
  fault : Option Fault

namespace Growth

/-- The growth that did nothing, or nothing more. -/
def stop (t : RouteTable) : Growth := ⟨t, [], none⟩

/-- The growth `g` after the events `before`. -/
def after (before : List Event) (g : Growth) : Growth := { g with events := before ++ g.events }

@[simp] theorem table_after (before : List Event) (g : Growth) : (g.after before).table = g.table :=
  rfl

@[simp] theorem events_after (before : List Event) (g : Growth) :
    (g.after before).events = before ++ g.events := rfl

@[simp] theorem fault_after (before : List Event) (g : Growth) : (g.after before).fault = g.fault :=
  rfl

@[simp] theorem after_nil (g : Growth) : g.after [] = g := rfl

end Growth

/-- What stays fixed while a table grows. -/
structure Survey where
  catalog : Catalog
  names : MarkerNames
  reserved : List String

namespace Survey

/-- What a pass says of a declaration that its own catalog does not know any more. -/
def unresolvedCause (d : Declaration) : String :=
  "qualified name of " ++ d.name ++ " (" ++ d.id.toText ++ ") could not be resolved"

/-- The catalog's qualified name of a declaration found earlier. -/
def resolve (s : Survey) (d : Declaration) : Except Fault String :=
  match s.catalog.lookup d.id with
  | .found name => .ok name
  | .missing => .error (.failure (.unresolved (unresolvedCause d)))
  | .crash message => .error (.crash message)

/-! ### Discovery -/

/-- A declaration that discovery turns into a route, unless its name is taken. -/
def isEligible (s : Survey) (suffix : String) (d : Declaration) : Bool :=
  Text.endsWith d.name suffix && !d.isAbstract && !s.names.ignores d &&
    RouteName.isValid s.reserved d.name

/-- The walk of a discovery over declarations.  One that is eligible and whose name is free is
looked up and becomes a route with its own type; the others are passed over without a question.  At
the first name that the catalog cannot give, the walk stops and keeps what it has added. -/
def discoverFrom (s : Survey) (suffix : String) : List Declaration → RouteTable → Growth
  | [], t => .stop t
  | d :: ds, t =>
    if s.isEligible suffix d && !t.contains d.name then
      match s.resolve d with
      -- the fault is kept with the table as it stands: `ds` is not read any more
      | .error fault => ⟨t, [.lookup d.id], some fault⟩
      | .ok type => (s.discoverFrom suffix ds (t.add d.name (some type))).after [.lookup d.id]
    else s.discoverFrom suffix ds t

/-- Adds the eligible class-like types under their simple names. -/
def discover (s : Survey) (suffix : String) (t : RouteTable) : Growth :=
  s.discoverFrom suffix s.catalog.classLikes t

/-! ### Extra routes -/

/-- The extra routes of every declaration of any kind, in walk order. -/
def extraRoutes (s : Survey) : List ExtraRoute :=
  s.catalog.declarations.flatMap s.names.extraRoutes

/-- The walk of a merge over extra routes.  A route without a name is passed over in silence, and
one with an invalid name or a name that is taken with a diagnostic.  Any other is added: with the
type it asks for, or else with that of the first class-like declaration of its name, or else with
none and a diagnostic.  Only the search for a declared type asks the catalog, and only that can
fail. -/
def mergeFrom (s : Survey) : List ExtraRoute → RouteTable → Growth
  | [], t => .stop t
  | e :: es, t =>
    match e.usableName with
    | none => s.mergeFrom es t
    | some name =>
      if !RouteName.isValid s.reserved name then
        (s.mergeFrom es t).after [.report (.invalidRouteName name e.origin)]
      else if t.contains name then
        (s.mergeFrom es t).after [.report (.duplicateRoute name e.origin)]
      else
        match e.explicitType, s.catalog.findByName name with
        -- a type that is asked for is taken as it is, even if a declaration has the name
        | some type, _ => s.mergeFrom es (t.add name (some type))
        | none, none =>
          (s.mergeFrom es (t.add name none)).after [.report (.unresolvedRouteType name e.origin)]
        | none, some d =>
          match s.resolve d with
          | .error fault => ⟨t, [.lookup d.id], some fault⟩
          | .ok type => (s.mergeFrom es (t.add name (some type))).after [.lookup d.id]

/-- Adds the extra routes that the markers of the catalog ask for. -/
def merge (s : Survey) (t : RouteTable) : Growth := s.mergeFrom s.extraRoutes t

end Survey

/-! ### Step by step -/

/-- What a growth of the table `t` answers: how many routes it has added, or its fault. -/
def Growth.answer (g : Growth) (t : RouteTable) : Except Fault Nat :=
  match g.fault with
  | some fault => .error fault
  | none => .ok (g.table.size - t.size)

/-- A step in the building of a table. -/
inductive BuildStep where
  | discover (suffix : String)
  | merge
  deriving DecidableEq

/-- The growth of the table by the step. -/
def BuildStep.run (s : Survey) (t : RouteTable) : BuildStep → Growth
  | .discover suffix => s.discover suffix t
  | .merge => s.merge t

/-- The table that the steps build, whether they answer a number or a fault. -/
def Survey.tableAfter (s : Survey) (steps : List BuildStep) : RouteTable :=
  steps.foldl (fun t step => (step.run s t).table) .empty

end RouteRegistry

/-
RouteRegistry/Pass.lean

One generation pass: find the configuration, discover routes, merge the extra
ones, render the table and hand the text on.

A pass never fails.  A fault, be it a failure or a crash of host code, ends it
as `Outcome.degraded` with one diagnostic.  Cancellation is looked at three
times: before discovery, before the merge and before rendering.  What a look
sees depends on when it is taken and on what has happened so far
(`Cancellation`), since a host can cancel from another thread, from within a
look-up or while it receives a diagnostic.
-/
import RouteRegistry.Emitter
import RouteRegistry.Table.Growth

namespace RouteRegistry

/-! ### Cancellation -/

/-- When passes count as cancelled: `isCancelled i past` is what the look number `i` sees when
`past` is all that has happened.  Looks are numbered through from pass to pass, three to each;
once cancelled, always cancelled. -/
structure Cancellation where
  isCancelled : Nat → List Event → Bool
  monotone : ∀ {i j : Nat} (past more : List Event), i ≤ j →
    isCancelled i past = true → isCancelled j (past ++ more) = true

namespace Cancellation

/-- The host that lets every pass run to its end. -/
def never : Cancellation := ⟨fun _ _ => false, by simp⟩

/-- The host that has cancelled before the pass begins. -/
def always : Cancellation := ⟨fun _ _ => true, by simp⟩

/-- Cancelled by the first event that `p` picks. -/
def on (p : Event → Bool) : Cancellation where
  isCancelled _ events := events.any p
  monotone past more _ h := by simp only [List.any_append, h, Bool.true_or]

/-- The same cancellation for a pass that begins when `past` has happened in the pass before. -/
def after (c : Cancellation) (past : List Event) : Cancellation where
  isCancelled i events := c.isCancelled (i + 3) (past ++ events)
  monotone events more hij h := by
    rw [← List.append_assoc]; exact c.monotone _ _ (Nat.add_le_add_right hij 3) h

end Cancellation

/-! ### The outcome of a pass -/

/-- What a pass that generated routes leaves: the file it has written, the package, and the
table. -/
structure GeneratedRoutes where
  fileId : String
  space : String
  /-- The type that carries the configuration marker. -/
  carrier : DeclId
  table : RouteTable
  deriving DecidableEq, Inhabited

/-- The ways in which a pass ends. -/
inductive Outcome where
  /-- No type carries a configuration marker. -/
  | notConfigured
  /-- The configuration suffix is missing or blank. -/
  | missingSuffix
  | generated (routes : GeneratedRoutes)
  /-- A fault was contained. -/
  | degraded
  | cancelled
  deriving DecidableEq, Inhabited

/-- The routes, if the pass has generated some. -/
def Outcome.generated? : Outcome → Option GeneratedRoutes
  | .generated routes => some routes
  | _ => none

/-- A finished pass: its outcome, all that happened, and the output afterwards. -/
structure Run where
  outcome : Outcome
  events : List Event
  output : Output

/-- The diagnostics that the host has been given, in order. -/
def Run.diagnostics (r : Run) : List Diagnostic := diagnosticsOf r.events

/-! ### Running a pass -/

/-- A generator of routes: what writes the class, and by which names it knows the markers. -/
structure Generator where
  emitter : Emitter
  names : MarkerNames

namespace Generator

/-- The first configuration marker in walk order. -/
def configuration? (g : Generator) (c : Catalog) : Option Configuration :=
  c.declarations.findSome? g.names.configuration?

/-- What stays fixed while the generator builds a table for the catalog. -/
def survey (g : Generator) (c : Catalog) : Survey := ⟨c, g.names, g.emitter.reserved⟩

/-- The end of a pass by a fault. -/
def degrade (events : List Event) (fault : Fault) (output : Output) : Run :=
  ⟨.degraded, events ++ [.report (.generationFault fault.category fault.message)], output⟩

/-- Renders the table and adds the text to the output. -/
def emit (g : Generator) (sink : Sink) (output : Output) (config : Configuration)
    (table : RouteTable) : Except Fault Output :=
  match g.emitter.render config.space table with
  | .error fault => .error fault
  | .ok text =>
    match sink.add output g.emitter.fileId text with
    | .error refusal => .error (.failure refusal.toFailure)
    | .ok output => .ok output

/-- The pass from discovery on. -/
def generate (g : Generator) (catalog : Catalog) (cancel : Cancellation) (sink : Sink)
    (output : Output) (config : Configuration) (suffix : String) : Run :=
  if cancel.isCancelled 0 [] then ⟨.cancelled, [], output⟩
  else
    let found := (g.survey catalog).discover suffix .empty
    match found.fault with
    | some fault => degrade found.events fault output
    | none =>
      -- the token is polled between the phases only, and what was reported before stays reported
      if cancel.isCancelled 1 found.events then ⟨.cancelled, found.events, output⟩
      else
        let merged := ((g.survey catalog).merge found.table).after found.events
        match merged.fault with
        | some fault => degrade merged.events fault output
        | none =>
          if cancel.isCancelled 2 merged.events then ⟨.cancelled, merged.events, output⟩
          else
            match g.emit sink output config merged.table with
            | .error fault => degrade merged.events fault output
            | .ok output =>
              ⟨.generated ⟨g.emitter.fileId, config.space, config.carrier, merged.table⟩,
                merged.events, output⟩

/-- One pass over the catalog.  The first marker of a carrier configures it; without one nothing is
generated, and with a blank suffix that is all there is to report.  With a suffix the routes are
found and written, unless a fault or the host stops the pass. -/
def run (g : Generator) (catalog : Catalog) (cancel : Cancellation) (sink : Sink)
    (output : Output) : Run :=
  match g.configuration? catalog with
  | none => ⟨.notConfigured, [], output⟩
  | some config =>
    match config.usableSuffix with
    | none =>
      ⟨.missingSuffix, [.report (.missingSuffix config.marker config.origin)], output⟩
    | some suffix => g.generate catalog cancel sink output config suffix

/-- A number of passes in a row into one output, under one cancellation. -/
def runs (g : Generator) (catalog : Catalog) (cancel : Cancellation) (sink : Sink) :
    Nat → Output → List Run
  | 0, _ => []
  | n + 1, output =>
    let first := g.run catalog cancel sink output
    first :: g.runs catalog (cancel.after first.events) sink n first.output

end Generator

end RouteRegistry

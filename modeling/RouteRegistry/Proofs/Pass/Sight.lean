/-
RouteRegistry/Proofs/Pass/Sight.lean

Passes over catalogs that are seen alike.

A pass reads the configuration off the catalog, and all the rest it learns from
the growth of the table.  It hands the carrier of the configuration on and does
nothing else with identities than to ask for names.  Whatever else the host is
told by the growth, it makes no difference but for the cancellation
(`generate_retell`).

Main result (`run_of_seenAlike`): if two catalogs have the same configuration
and are seen alike, up to a renaming of identities, then the passes over them
are the same up to it.  It shows in the reported carrier and in the look-ups
that a host may notice, which is why the cancellation has to see them renamed
too (`Cancellation.through`).
-/
import RouteRegistry.Pass
import RouteRegistry.Proofs.Growth.Sight

namespace RouteRegistry

/-! ### Renaming a pass -/

section

variable (f : DeclId → DeclId)

/-- The configuration with its carrier under another identity. -/
def Configuration.rename (c : Configuration) : Configuration := { c with carrier := f c.carrier }

/-- The outcome with the carrier of the routes under another identity. -/
def Outcome.rename : Outcome → Outcome
  | .generated routes => .generated { routes with carrier := f routes.carrier }
  | o => o

/-- The run with all identities renamed. -/
def Run.rename (r : Run) : Run := ⟨r.outcome.rename f, r.events.map (Event.rename f), r.output⟩

/-- Diagnostics do not mention identities. -/
theorem Run.diagnostics_rename (r : Run) : (r.rename f).diagnostics = r.diagnostics :=
  diagnosticsOf_rename f r.events

/-- The same cancellation for a pass in which every identity stands for its image. -/
def Cancellation.through (c : Cancellation) : Cancellation where
  isCancelled i events := c.isCancelled i (events.map (Event.rename f))
  monotone past more hij h := by
    rw [List.map_append]
    exact c.monotone _ _ hij h

end

/-- The same run, with the carrier renamed and each event told by `tell`. -/
def Run.retell (f : DeclId → DeclId) (tell : Event → Event) (r : Run) : Run :=
  ⟨r.outcome.rename f, r.events.map tell, r.output⟩

/-- The same cancellation for a pass of which the host is told by `tell`. -/
def Cancellation.hearing (c : Cancellation) (tell : Event → Event) : Cancellation where
  isCancelled i events := c.isCancelled i (events.map tell)
  monotone past more hij h := by
    rw [List.map_append]
    exact c.monotone _ _ hij h

@[simp] theorem Configuration.rename_id : Configuration.rename id = id := rfl

@[simp] theorem Outcome.rename_id (o : Outcome) : o.rename id = o := by
  rcases o with - | - | routes | - | - <;> rfl

@[simp] theorem Run.rename_id (r : Run) : r.rename id = r := by
  show Run.mk (r.outcome.rename id) (r.events.map (Event.rename id)) r.output = r
  rw [Outcome.rename_id, Event.rename_id, List.map_id]

@[simp] theorem Cancellation.through_id (c : Cancellation) : c.through id = c := by
  have same : (fun i events => c.isCancelled i (events.map (Event.rename id))) = c.isCancelled := by
    funext i events
    rw [Event.rename_id, List.map_id]
  unfold through
  simp only [same]

namespace Generator

variable {f : DeclId → DeclId} {c c' : Catalog}

/-- A fault is contained in the same way whatever the events before it are told as. -/
theorem degrade_retell {tell : Event → Event}
    (faults : ∀ category message, tell (.report (.generationFault category message)) =
      .report (.generationFault category message))
    (events : List Event) (fault : Fault) (output : Output) :
    degrade (events.map tell) fault output = (degrade events fault output).retell f tell := by
  unfold degrade Run.retell
  rw [List.map_append, List.map_singleton, faults]
  rfl

/-- Passes with the same suffix are alike over catalogs that make a table grow alike: what happens
in the one is what happens in the other, told by `tell`. -/
theorem generate_retell {tell : Event → Event} {g : Generator} {suffix : String}
    (faults : ∀ category message, tell (.report (.generationFault category message)) =
      .report (.generationFault category message))
    (discover : (g.survey c').discover suffix .empty =
      ((g.survey c).discover suffix .empty).retell tell)
    (merge : ∀ t, (g.survey c').merge t = ((g.survey c).merge t).retell tell)
    {config config' : Configuration} (space : config'.space = config.space)
    (carrier : config'.carrier = f config.carrier) (cancel : Cancellation) (sink : Sink)
    (output : Output) :
    g.generate c' cancel sink output config' suffix =
      (g.generate c (cancel.hearing tell) sink output config suffix).retell f tell := by
  have emitted (t : RouteTable) : g.emit sink output config' t = g.emit sink output config t := by
    unfold emit
    rw [space]
  unfold generate
  dsimp only
  rw [discover]
  simp only [merge, ← Growth.retell_after, Growth.table_retell, Growth.events_retell,
    Growth.fault_retell, emitted, space, carrier]
  generalize (g.survey c).discover suffix .empty = discovered
  generalize ((g.survey c).merge discovered.table).after discovered.events = total
  -- what a look sees of one pass, it is told in the other
  have looks {i : Nat} {events : List Event} : (cancel.hearing tell).isCancelled i events = true ↔
      cancel.isCancelled i (events.map tell) = true := Iff.rfl
  -- in the order of the pass: look, discovery, look, merge, look, emission
  by_cases look₀ : cancel.isCancelled 0 [] = true
  · rw [if_pos look₀, if_pos (looks.2 look₀)]
    rfl
  rw [if_neg look₀, if_neg (mt looks.1 look₀)]
  rcases discovered.fault with - | fault
  case some => exact degrade_retell faults ..
  dsimp only
  by_cases look₁ : cancel.isCancelled 1 (discovered.events.map tell) = true
  · rw [if_pos look₁, if_pos (looks.2 look₁)]
    rfl
  rw [if_neg look₁, if_neg (mt looks.1 look₁)]
  rcases total.fault with - | fault
  case some => exact degrade_retell faults ..
  dsimp only
  by_cases look₂ : cancel.isCancelled 2 (total.events.map tell) = true
  · rw [if_pos look₂, if_pos (looks.2 look₂)]
    rfl
  rw [if_neg look₂, if_neg (mt looks.1 look₂)]
  rcases g.emit sink output config total.table with fault | output'
  · exact degrade_retell faults ..
  · rfl

/-- Passes that see the same do the same. -/
theorem generate_of_seenAlike {g : Generator} {suffix : String}
    (h : (g.survey c).SeenAlike f (g.survey c') suffix) (cancel : Cancellation) (sink : Sink)
    (output : Output) (config : Configuration) :
    g.generate c' cancel sink output (config.rename f) suffix =
      (g.generate c (cancel.through f) sink output config suffix).rename f := by
  have space : (config.rename f).space = config.space := rfl
  have carrier : (config.rename f).carrier = f config.carrier := rfl
  exact generate_retell (fun _ _ => rfl) (h.discover .empty) h.merge space carrier cancel sink
    output

/-- Passes are alike over catalogs with the same configuration that are seen alike, if there is a
suffix to look for. -/
theorem run_of_seenAlike {g : Generator}
    (configured : g.configuration? c' = (g.configuration? c).map (Configuration.rename f))
    (alike : ∀ config suffix, g.configuration? c = some config →
      config.usableSuffix = some suffix → (g.survey c).SeenAlike f (g.survey c') suffix)
    (cancel : Cancellation) (sink : Sink) (output : Output) :
    g.run c' cancel sink output = (g.run c (cancel.through f) sink output).rename f := by
  unfold run
  rw [configured]
  rcases hc : g.configuration? c with - | config
  · rfl
  have suffix : (config.rename f).usableSuffix = config.usableSuffix := rfl
  dsimp only [Option.map_some]
  rw [suffix]
  rcases hs : config.usableSuffix with - | suffix
  · rfl
  · exact generate_of_seenAlike (alike config suffix hc hs) cancel sink output config

/-- Passes are the same over catalogs with the same configuration in which the same is in sight,
under the same identities. -/
theorem run_of_seenAlike_id {g : Generator} (configured : g.configuration? c' = g.configuration? c)
    (alike : ∀ suffix, (g.survey c).SeenAlike id (g.survey c') suffix)
    (cancel : Cancellation) (sink : Sink) (output : Output) :
    g.run c' cancel sink output = g.run c cancel sink output := by
  have configured : g.configuration? c' = (g.configuration? c).map (Configuration.rename id) := by
    rw [configured, Configuration.rename_id, Option.map_id, id]
  have renamed := run_of_seenAlike configured (fun _ suffix _ _ => alike suffix) cancel sink output
  rwa [Run.rename_id, Cancellation.through_id] at renamed

end Generator

end RouteRegistry

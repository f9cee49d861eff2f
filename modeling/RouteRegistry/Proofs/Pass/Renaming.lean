/-
RouteRegistry/Proofs/Pass/Renaming.lean

Identities are opaque to a pass.

A catalog under other identities is seen alike, so a pass over it is the same pass
with other identities in it (`run_renames`).

The sink comes last in a pass (`deliver_run`), so what holds of a pass into an
empty memory holds for sinks of any kind.

Main result (`run_hosted`): a host may give its declarations any distinct
identities and search for them, and its pass tells only by the reported carrier
that they are no positions.
-/
import RouteRegistry.Proofs.Catalog.Indexed
import RouteRegistry.Proofs.Growth.Renaming
import RouteRegistry.Proofs.Pass.Sight

namespace RouteRegistry

namespace Generator

variable {f : DeclId → DeclId} {c c' : Catalog}

/-- The configuration is found at the same carrier under its other identity. -/
theorem configuration?_renames (h : c.Renames f c') (g : Generator) :
    g.configuration? c' = (g.configuration? c).map (Configuration.rename f) := by
  have renamed : g.names.configuration? ∘ Declaration.rename f =
      Option.map (Configuration.rename f) ∘ g.names.configuration? := by
    funext d
    show ((d.markersNamed g.names.configuration).head?).map _ = Option.map _ (Option.map _ _)
    rw [Option.map_map]
    rfl
  unfold configuration?
  rw [h.declarations, List.findSome?_map, renamed, List.map_findSome?]

/-- A pass over a catalog under other identities is the pass with its identities renamed. -/
theorem run_renames (h : c.Renames f c') (g : Generator) (cancel : Cancellation) (sink : Sink)
    (output : Output) :
    g.run c' cancel sink output = (g.run c (cancel.through f) sink output).rename f := by
  apply run_of_seenAlike (configuration?_renames h g)
  intro config suffix _ _
  exact Catalog.Renames.seenAlike (s := g.survey c) h suffix

end Generator

/-! ### Hosts with identities of their own -/

/-- The identity that a host gives to the declaration at a position. -/
def hostId (ds : List Declaration) (position : DeclId) : DeclId :=
  (ds[position.index.toNat]?.map (·.id)).getD position

/-- The position of a declaration stands for the identity that the host knows it by. -/
theorem hostId_ofNat {ds : List Declaration} (small : ds.length ≤ UInt32.size) {i : Nat}
    {d : Declaration} (h : ds[i]? = some d) : hostId ds ⟨.ofNat i⟩ = d.id := by
  have bound : i < ds.length := (List.getElem?_eq_some_iff.1 h).1
  unfold hostId
  rw [DeclId.index_ofNat (by omega), h]
  rfl

/-- The catalog that searches for identities is the one that counts, under other identities. -/
theorem renames_hosted {ds : List Declaration} (distinct : DistinctIds ds) :
    (IndexedCatalog.ofList ds).toCatalog.Renames (hostId ds) (.ofList ds) := by
  have small := length_le_of_distinct distinct
  -- the host's ids are distinct, so each one leads back to the declaration it stands on
  constructor
  · refine List.ext_getElem? fun i => ?_
    show ds[i]? = ((IndexedCatalog.ofList ds).declarations.map (Declaration.rename (hostId ds)))[i]?
    rw [List.getElem?_map, IndexedCatalog.getElem?_ofList]
    rcases h : ds[i]? with - | d
    · rfl
    · show some d = some { d with id := hostId ds ⟨.ofNat i⟩ }
      rw [hostId_ofNat small h]
  · intro numbered hmem
    obtain ⟨i, d, hd, rfl⟩ := IndexedCatalog.exists_of_mem_ofList hmem
    refine ⟨d.qualifiedName, ?_, ?_⟩
    · exact IndexedCatalog.lookup_ofList small hd
    · show Lookup.of (findById ds (hostId ds ⟨.ofNat i⟩)) = .found d.qualifiedName
      rw [hostId_ofNat small hd, findById_of_mem distinct (List.mem_of_getElem? hd)]
      rfl

/-! ### Sinks of any kind -/

/-- What a pass comes to for a sink that is in some state afterwards. -/
structure Delivery (σ : Type) where
  outcome : Outcome
  diagnostics : List Diagnostic
  state : σ

/-- The delivery of a pass into an empty memory when the file in it goes to a sink instead: `add`
takes the file or answers the fault with which it does not, and may change its state either way. -/
def Run.deliver {σ : Type} (r : Run) (add : σ → String → String → σ × Option Fault) (state : σ) :
    Delivery σ :=
  match r.output with
  | [file] =>
    match add state file.fileId file.text with
    | (state, none) => ⟨r.outcome, r.diagnostics, state⟩
    | (state, some fault) =>
      ⟨.degraded, r.diagnostics ++ [.generationFault fault.category fault.message], state⟩
  | _ => ⟨r.outcome, r.diagnostics, state⟩

/-- The delivery with the carrier of its routes under another identity. -/
def Delivery.rename {σ : Type} (f : DeclId → DeclId) (d : Delivery σ) : Delivery σ :=
  { d with outcome := d.outcome.rename f }

/-- What is delivered to a sink does not depend on identities. -/
theorem Run.deliver_rename {σ : Type} (f : DeclId → DeclId) (r : Run)
    (add : σ → String → String → σ × Option Fault) (state : σ) :
    (r.rename f).deliver add state = (r.deliver add state).rename f := by
  have output : (r.rename f).output = r.output := rfl
  unfold deliver
  rw [output, diagnostics_rename]
  rcases r.output with - | ⟨file, - | ⟨second, rest⟩⟩
  case cons.nil =>
    dsimp only
    rcases add state file.fileId file.text with ⟨state', - | fault⟩
    all_goals rfl
  all_goals rfl

/-- What a sink does with a file, as the sinks of the library do it. -/
def Sink.take (sink : Sink) (o : Output) (fileId text : String) : Output × Option Fault :=
  match sink.add o fileId text with
  | .ok o => (o, none)
  | .error refusal => (o, some (.failure refusal.toFailure))

namespace Generator

/-- The sink comes last: a pass is the pass into an empty memory, whose file then goes to the
sink. -/
theorem deliver_run (g : Generator) (c : Catalog) (cancel : Cancellation) (sink : Sink)
    (output : Output) :
    (g.run c cancel .memory []).deliver sink.take output =
      ⟨(g.run c cancel sink output).outcome, (g.run c cancel sink output).diagnostics,
        (g.run c cancel sink output).output⟩ := by
  unfold run
  split
  · rfl
  split
  · rfl
  unfold generate
  dsimp only
  -- whatever ends the pass before the emission does so for both sinks
  split
  · rfl
  split
  · rfl
  split
  · rfl
  split
  · rfl
  split
  · rfl
  unfold emit
  generalize ((g.survey c).merge _).after _ = total
  rcases g.emitter.render _ total.table with fault | text
  · rfl
  have kept : Sink.memory.add [] g.emitter.fileId text = .ok [⟨g.emitter.fileId, text⟩] := rfl
  dsimp only
  rw [kept]
  unfold Run.deliver Sink.take
  dsimp only
  rcases sink.add output g.emitter.fileId text with refusal | output'
  · show Delivery.mk _ _ _ = Delivery.mk _ (diagnosticsOf (_ ++ [_])) _
    rw [diagnosticsOf_append]
    rfl
  · rfl

/-- A pass over a host that chooses the identities, any distinct ones, and searches for them comes
to the same table, diagnostics and output as a pass over the catalog that takes positions for
identities.  Only the reported carrier is renamed, from its position to the host's identity.  The
same holds for a sink of any other kind. -/
theorem run_hosted (g : Generator) {ds : List Declaration} (distinct : DistinctIds ds)
    (cancel : Cancellation) (sink : Sink) (output : Output) :
    (∀ i d, ds[i]? = some d → hostId ds ⟨.ofNat i⟩ = d.id) ∧
    (g.run (.ofList ds) cancel sink output).outcome =
      (g.run (IndexedCatalog.ofList ds).toCatalog (cancel.through (hostId ds)) sink
        output).outcome.rename (hostId ds) ∧
    (g.run (.ofList ds) cancel sink output).diagnostics =
      (g.run (IndexedCatalog.ofList ds).toCatalog (cancel.through (hostId ds)) sink
        output).diagnostics ∧
    (g.run (.ofList ds) cancel sink output).output =
      (g.run (IndexedCatalog.ofList ds).toCatalog (cancel.through (hostId ds)) sink
        output).output ∧
    ∀ {σ : Type} (add : σ → String → String → σ × Option Fault) (state : σ),
      (g.run (.ofList ds) cancel .memory []).deliver add state =
        ((g.run (IndexedCatalog.ofList ds).toCatalog (cancel.through (hostId ds)) .memory
          []).deliver add state).rename (hostId ds) := by
  have same (sink : Sink) (output : Output) :=
    run_renames (renames_hosted distinct) g cancel sink output
  refine ⟨fun i d => hostId_ofNat (length_le_of_distinct distinct), ?_, ?_, ?_, ?_⟩
  · rw [same]
    rfl
  · rw [same, Run.diagnostics_rename]
  · rw [same]
    rfl
  · intro σ add state
    rw [same, Run.deliver_rename]

/-- A configuration for the suffix `Page` and two pages, under identities in no order. -/
def hosted (home : DeclId) : List Declaration :=
  let type (id : DeclId) (name : String) (markers : List Marker) : Declaration :=
    ⟨id, name, "app", [], .classType, false, markers, none⟩
  [type ⟨7⟩ "Program" [⟨"AutoRoutes", [⟨none, .str "Page"⟩], none⟩], type home "HomePage" [],
    type ⟨5⟩ "InfoPage" []]

/-- Lists the types of the routes. -/
def lister : Generator :=
  ⟨⟨"txt", [], fun _ t => .ok (Text.joinWith " " (t.typed.map Prod.snd))⟩, .default⟩

/-- The two passes end alike, but for the carrier's identity. -/
theorem run_hosted_small :
    DistinctIds (hosted ⟨3⟩) ∧
    (lister.run (.ofList (hosted ⟨3⟩)) .never .memory []).outcome =
      (lister.run (IndexedCatalog.ofList (hosted ⟨3⟩)).toCatalog
        (Cancellation.never.through (hostId (hosted ⟨3⟩))) .memory []).outcome.rename
          (hostId (hosted ⟨3⟩)) := by
  have distinct : DistinctIds (hosted ⟨3⟩) := by decide
  exact ⟨distinct, (run_hosted lister distinct .never .memory []).2.1⟩

/-- When identities are repeated, a search finds the first declaration only. -/
example : (lister.run (.ofList (hosted ⟨5⟩)) .never .memory []).output =
    [⟨"Routes.g.txt", "app.HomePage app.HomePage"⟩] := by decide +kernel

end Generator

end RouteRegistry

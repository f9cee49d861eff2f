/-
RouteRegistry/Proofs/Pass/Outcome.lean

How a pass can end, and what each ending promises.

`Generator.Finishes` lists the seven ways in which a pass ends once it has a
suffix, each with all that is then known; `generate_finishes` says that there is
no eighth.  `Run.Orderly` is the promise of each outcome about the diagnostics
and the output.  The table of a pass that generates has valid names only
(`valid_of_generated`).

Main result (`run_orderly`): the configuration alone decides whether a pass is
`notConfigured` or `missingSuffix`, and whatever the catalog, the emitter, the
sink and the cancellation do, the pass keeps the promise of its outcome.
-/
import RouteRegistry.Proofs.Growth.Interruption

namespace RouteRegistry

/-! ### The ways to end -/

namespace Generator

/-- What discovery comes to. -/
def found (g : Generator) (c : Catalog) (suffix : String) : Growth :=
  (g.survey c).discover suffix .empty

/-- What the merge after discovery comes to. -/
def merged (g : Generator) (c : Catalog) (suffix : String) : Growth :=
  (g.survey c).merge (g.found c suffix).table

/-- The ways for a pass to end that has its suffix. -/
inductive Finishes (g : Generator) (c : Catalog) (cancel : Cancellation) (sink : Sink)
    (output : Output) (config : Configuration) (suffix : String) : Run → Prop
  | cancelledFirst : cancel.isCancelled 0 [] = true →
      Finishes g c cancel sink output config suffix ⟨.cancelled, [], output⟩
  | discoveryFault {fault} : (g.found c suffix).fault = some fault →
      Finishes g c cancel sink output config suffix
        (degrade (g.found c suffix).events fault output)
  | cancelledBeforeMerge : cancel.isCancelled 1 (g.found c suffix).events = true →
      Finishes g c cancel sink output config suffix
        ⟨.cancelled, (g.found c suffix).events, output⟩
  | mergeFault {fault} : (g.merged c suffix).fault = some fault →
      Finishes g c cancel sink output config suffix
        (degrade ((g.found c suffix).events ++ (g.merged c suffix).events) fault output)
  | cancelledBeforeRendering :
      cancel.isCancelled 1 (g.found c suffix).events = false →
      (g.merged c suffix).fault = none →
      Finishes g c cancel sink output config suffix
        ⟨.cancelled, (g.found c suffix).events ++ (g.merged c suffix).events, output⟩
  | emissionFault {fault} : g.emit sink output config (g.merged c suffix).table = .error fault →
      Finishes g c cancel sink output config suffix
        (degrade ((g.found c suffix).events ++ (g.merged c suffix).events) fault output)
  | generated {output'} : g.emit sink output config (g.merged c suffix).table = .ok output' →
      Finishes g c cancel sink output config suffix
        ⟨.generated ⟨g.emitter.fileId, config.space, config.carrier, (g.merged c suffix).table⟩,
          (g.found c suffix).events ++ (g.merged c suffix).events, output'⟩

variable (g : Generator) (c : Catalog) (cancel : Cancellation) (sink : Sink) (output : Output)

/-- A pass with a suffix ends in one of the ways listed. -/
theorem generate_finishes (config : Configuration) (suffix : String) :
    g.Finishes c cancel sink output config suffix
      (g.generate c cancel sink output config suffix) := by
  unfold generate
  dsimp only
  -- in the order of the pass: look, discovery, look, merge, look, emission
  split
  case isTrue h₀ => exact .cancelledFirst h₀
  split
  case h_1 fault hfound => exact .discoveryFault hfound
  split
  case isTrue h₁ => exact .cancelledBeforeMerge h₁
  case isFalse h₁ =>
  split
  case h_1 fault hmerged => exact .mergeFault hmerged
  case h_2 hmerged =>
  split
  case isTrue => exact .cancelledBeforeRendering (Bool.eq_false_iff.2 h₁) hmerged
  split
  case h_1 fault hemit => exact .emissionFault hemit
  case h_2 output' hemit => exact .generated hemit

end Generator

/-! ### What reaches the output -/

/-- A sink that takes a file puts it after the others. -/
theorem Sink.eq_of_add {sink : Sink} {output output' : Output} {fileId text : String}
    (h : sink.add output fileId text = .ok output') : output' = output ++ [⟨fileId, text⟩] := by
  unfold add at h
  rcases sink with - | refusal
  · dsimp only at h
    split at h
    · cases h
    · exact (Except.ok.inj h).symm
  · cases h

/-- Emission adds one file, the rendered table. -/
theorem Generator.file_of_emit {g : Generator} {sink : Sink} {output output' : Output}
    {config : Configuration} {t : RouteTable} (h : g.emit sink output config t = .ok output') :
    ∃ text, g.emitter.render config.space t = .ok text ∧
      output' = output ++ [⟨g.emitter.fileId, text⟩] := by
  unfold emit at h
  rcases hr : g.emitter.render config.space t with fault | text
  · rw [hr] at h; cases h
  · rw [hr] at h
    dsimp only at h
    rcases ha : sink.add output g.emitter.fileId text with refusal | added
    · rw [ha] at h; cases h
    · rw [ha] at h
      obtain rfl := Except.ok.inj h
      exact ⟨text, rfl, Sink.eq_of_add ha⟩

/-! ### What each outcome promises -/

/-- A diagnostic against one of the rules for extra routes: EXR001, EXR002 or EXR003. -/
def Diagnostic.IsExtraRoute (d : Diagnostic) : Prop :=
  d.code = .invalidRouteName ∨ d.code = .duplicateRoute ∨ d.code = .unresolvedRouteType

/-- What the outcome of a pass by `g` over `output` says about its diagnostics and its output. -/
def Run.Orderly (g : Generator) (output : Output) (r : Run) : Prop :=
  match r.outcome with
  | .notConfigured => r.diagnostics = [] ∧ r.output = output
  | .missingSuffix =>
    (∃ d, r.diagnostics = [d] ∧ d.code = .missingSuffix) ∧ r.output = output
  | .generated routes =>
    (∀ d ∈ r.diagnostics, d.IsExtraRoute) ∧
      ∃ text, g.emitter.render routes.space routes.table = .ok text ∧
        r.output = output ++ [⟨routes.fileId, text⟩]
  | .degraded =>
    (∃ ds d, r.diagnostics = ds ++ [d] ∧ (∀ x ∈ ds, x.IsExtraRoute) ∧
      d.code = .generationFault) ∧ r.output = output
  | .cancelled => (∀ d ∈ r.diagnostics, d.IsExtraRoute) ∧ r.output = output

/-- Only a generated pass touches the output. -/
theorem Run.Orderly.output_eq {g : Generator} {output : Output} {r : Run}
    (h : r.Orderly g output) (hr : r.outcome.generated? = none) : r.output = output := by
  unfold Run.Orderly at h
  rcases e : r.outcome with - | - | routes | - | -
  case generated => rw [e] at hr; cases hr
  all_goals rw [e] at h; exact h.2

namespace Generator

variable {g : Generator} {c : Catalog} {cancel : Cancellation} {sink : Sink} {output : Output}

theorem diagnosticsOf_found (g : Generator) (c : Catalog) (suffix : String) :
    diagnosticsOf (g.found c suffix).events = [] :=
  Survey.diagnosticsOf_discoverFrom ..

theorem diagnosticsOf_found_append (g : Generator) (c : Catalog) (suffix : String)
    (events : List Event) :
    diagnosticsOf ((g.found c suffix).events ++ events) = diagnosticsOf events := by
  rw [diagnosticsOf_append, diagnosticsOf_found, List.nil_append]

/-- Every diagnostic of a merge is the one that some verdict calls for. -/
theorem exists_verdict_of_mem_merged {suffix : String} {d : Diagnostic}
    (h : d ∈ diagnosticsOf ((g.found c suffix).events ++ (g.merged c suffix).events)) :
    ∃ (v : Verdict) (place : Option Location), v.diagnostic? place = some d := by
  rw [diagnosticsOf_found_append, merged, Survey.merge_eq] at h
  exact Survey.exists_verdict_of_mem_mergeFrom h

/-- A merge reports on extra routes only. -/
theorem isExtraRoute_of_mem_merged {suffix : String} {d : Diagnostic}
    (h : d ∈ diagnosticsOf ((g.found c suffix).events ++ (g.merged c suffix).events)) :
    d.IsExtraRoute := by
  obtain ⟨v, place, called⟩ := exists_verdict_of_mem_merged h
  exact Verdict.code_of_diagnostic? called

theorem isExtraRoute_of_mem_found {suffix : String} {d : Diagnostic}
    (h : d ∈ diagnosticsOf (g.found c suffix).events) : d.IsExtraRoute := by
  rw [diagnosticsOf_found] at h
  exact absurd h List.not_mem_nil

/-- A fault is reported after everything else, and takes nothing back. -/
theorem orderly_degrade {events : List Event} (h : ∀ d ∈ diagnosticsOf events, d.IsExtraRoute)
    (fault : Fault) : (degrade events fault output).Orderly g output :=
  ⟨⟨diagnosticsOf events, .generationFault fault.category fault.message,
    diagnosticsOf_append .., h, rfl⟩, rfl⟩

/-- Whichever way a pass with a suffix ends, it keeps what its outcome promises. -/
theorem Finishes.orderly {config : Configuration} {suffix : String} {r : Run}
    (h : g.Finishes c cancel sink output config suffix r) : r.Orderly g output := by
  cases h with
  | cancelledFirst _ => exact ⟨nofun, rfl⟩
  | discoveryFault _ => exact orderly_degrade (fun d => isExtraRoute_of_mem_found) _
  | cancelledBeforeMerge _ => exact ⟨fun d => isExtraRoute_of_mem_found, rfl⟩
  | mergeFault _ => exact orderly_degrade (fun d => isExtraRoute_of_mem_merged) _
  | cancelledBeforeRendering _ _ => exact ⟨fun d => isExtraRoute_of_mem_merged, rfl⟩
  | emissionFault _ => exact orderly_degrade (fun d => isExtraRoute_of_mem_merged) _
  | generated hemit => exact ⟨fun d => isExtraRoute_of_mem_merged, file_of_emit hemit⟩

/-- With a suffix, a pass is generated, degraded or cancelled. -/
theorem Finishes.outcome {config : Configuration} {suffix : String} {r : Run}
    (h : g.Finishes c cancel sink output config suffix r) :
    r.outcome ≠ .notConfigured ∧ r.outcome ≠ .missingSuffix := by
  cases h <;> exact ⟨nofun, nofun⟩

/-- The routes of a pass are those of its merge. -/
theorem Finishes.routes_eq {config : Configuration} {suffix : String} {r : Run}
    (h : g.Finishes c cancel sink output config suffix r) {routes : GeneratedRoutes}
    (hr : r.outcome = .generated routes) :
    routes = ⟨g.emitter.fileId, config.space, config.carrier, (g.merged c suffix).table⟩ := by
  cases h with
  | generated _ => exact (Outcome.generated.inj hr).symm
  | _ => cases hr

theorem Finishes.fileId_eq {config : Configuration} {suffix : String} {r : Run}
    (h : g.Finishes c cancel sink output config suffix r) {routes : GeneratedRoutes}
    (hr : r.outcome = .generated routes) : routes.fileId = g.emitter.fileId :=
  congrArg GeneratedRoutes.fileId (h.routes_eq hr)

theorem usableSuffix_eq_none_iff {config : Configuration}
    (h : g.configuration? c = some config) :
    config.usableSuffix = none ↔
      ∃ d m, Configures g.names c d m ∧ m.shown? 0 MarkerNames.suffixKeys = none := by
  constructor
  · intro hs
    obtain ⟨d, m, hdm, rfl⟩ := configuration?_eq_some_iff.1 h
    exact ⟨d, m, hdm, MarkerNames.usableSuffix_configurationOf d m ▸ hs⟩
  · rintro ⟨d, m, hdm, hs⟩
    have same := h.symm.trans (configuration?_eq_some_iff.2 ⟨d, m, hdm, rfl⟩)
    rw [Option.some.inj same, MarkerNames.usableSuffix_configurationOf, hs]

theorem run_of_notConfigured (h : g.configuration? c = none) :
    g.run c cancel sink output = ⟨.notConfigured, [], output⟩ := by
  unfold run
  rw [h]

theorem run_of_missingSuffix {config : Configuration} (h : g.configuration? c = some config)
    (hs : config.usableSuffix = none) :
    g.run c cancel sink output =
      ⟨.missingSuffix, [.report (.missingSuffix config.marker config.origin)], output⟩ := by
  unfold run
  rw [h]
  dsimp only
  rw [hs]

theorem run_of_suffix {config : Configuration} {suffix : String}
    (h : g.configuration? c = some config) (hs : config.usableSuffix = some suffix) :
    g.run c cancel sink output = g.generate c cancel sink output config suffix := by
  unfold run
  rw [h]
  dsimp only
  rw [hs]

variable (g c cancel sink output)

/-- A pass keeps the promise of its outcome, and the markers alone decide the first two. -/
theorem run_orderly :
    ((g.run c cancel sink output).outcome = .notConfigured ↔
      ∀ d ∈ c.declarations, ∀ m ∈ d.markers, m.simpleName ∉ g.names.configuration) ∧
    ((g.run c cancel sink output).outcome = .missingSuffix ↔
      ∃ d m, Configures g.names c d m ∧ m.shown? 0 MarkerNames.suffixKeys = none) ∧
    (g.run c cancel sink output).Orderly g output := by
  rw [← configuration?_eq_none_iff]
  -- three ways to go: no configuration, no usable suffix, or a pass that `Finishes` describes
  rcases hc : g.configuration? c with - | config
  · rw [run_of_notConfigured hc]
    refine ⟨⟨fun _ => rfl, fun _ => rfl⟩, ⟨nofun, ?_⟩, rfl, rfl⟩
    rintro ⟨d, m, hdm, -⟩
    rw [configuration?_eq_some_iff.2 ⟨d, m, hdm, rfl⟩] at hc
    cases hc
  · rw [← usableSuffix_eq_none_iff hc]
    rcases hs : config.usableSuffix with - | suffix
    · rw [run_of_missingSuffix hc hs]
      exact ⟨⟨nofun, nofun⟩, ⟨fun _ => rfl, fun _ => rfl⟩, ⟨_, rfl, rfl⟩, rfl⟩
    · rw [run_of_suffix hc hs]
      have finishes := g.generate_finishes c cancel sink output config suffix
      obtain ⟨configured, hasSuffix⟩ := finishes.outcome
      exact ⟨⟨fun h => absurd h configured, nofun⟩, ⟨fun h => absurd h hasSuffix, nofun⟩,
        finishes.orderly⟩

variable {g c cancel sink output}

/-- A pass that has generated routes was configured with a suffix. -/
theorem finishes_of_generated {routes : GeneratedRoutes}
    (h : (g.run c cancel sink output).outcome = .generated routes) :
    ∃ config suffix,
      g.Finishes c cancel sink output config suffix (g.run c cancel sink output) := by
  rcases hc : g.configuration? c with - | config
  · rw [run_of_notConfigured hc] at h; cases h
  rcases hs : config.usableSuffix with - | suffix
  · rw [run_of_missingSuffix hc hs] at h; cases h
  rw [run_of_suffix hc hs]
  exact ⟨config, suffix, g.generate_finishes c cancel sink output config suffix⟩

/-- A generated pass adds one file to the output: its table as the emitter renders it, under the
name that the emitter has for it. -/
theorem output_of_generated {routes : GeneratedRoutes}
    (h : (g.run c cancel sink output).outcome = .generated routes) :
    ∃ text, g.emitter.render routes.space routes.table = .ok text ∧
      (g.run c cancel sink output).output = output ++ [⟨g.emitter.fileId, text⟩] := by
  obtain ⟨config, suffix, finishes⟩ := finishes_of_generated h
  have orderly := finishes.orderly
  unfold Run.Orderly at orderly
  rw [h] at orderly
  obtain ⟨-, text, rendered, added⟩ := orderly
  exact ⟨text, rendered, finishes.fileId_eq h ▸ added⟩

/-- The table of a generated pass has valid names only. -/
theorem valid_of_generated {routes : GeneratedRoutes}
    (h : (g.run c cancel sink output).outcome = .generated routes) :
    ∀ name ∈ routes.table.names, RouteName.Valid g.emitter.reserved name := by
  obtain ⟨config, suffix, finishes⟩ := finishes_of_generated h
  have built : routes.table = (g.survey c).tableAfter [.discover suffix, .merge] :=
    congrArg GeneratedRoutes.table (finishes.routes_eq h)
  rw [built]
  exact (g.survey c).valid_of_mem_tableAfter _

end Generator

end RouteRegistry

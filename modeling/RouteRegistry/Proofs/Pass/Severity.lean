/-
RouteRegistry/Proofs/Pass/Severity.lean

Which passes report an error.

Every diagnostic of a pass has the severity that goes with its code
(`rated_of_mem_run`), and only a missing suffix is an error by its code.  The
promise of the outcome says which codes there are, so a pass reports an error
just when it ends for want of a suffix (`hasErrors_run_iff`).
-/
import RouteRegistry.Proofs.Pass.Outcome

namespace RouteRegistry

/-- The diagnostic has the severity that goes with its code. -/
def Diagnostic.Rated (d : Diagnostic) : Prop := d.severity = d.code.severity

/-- Of the rated diagnostics only the one about the suffix is an error. -/
theorem Diagnostic.Rated.isError_iff {d : Diagnostic} (h : d.Rated) :
    d.isError = true ↔ d.code = .missingSuffix := by
  unfold isError
  rw [h]
  cases d.code <;> decide

theorem Diagnostic.IsExtraRoute.code_ne {d : Diagnostic} (h : d.IsExtraRoute) :
    d.code ≠ .missingSuffix := by
  rcases h with e | e | e <;> rw [e] <;> nofun

theorem Verdict.rated_of_diagnostic? {v : Verdict} {place : Option Location} {d : Diagnostic}
    (h : v.diagnostic? place = some d) : d.Rated := by
  rcases v with - | name | name | ⟨name, - | type⟩ <;> cases h <;> rfl

/-- Some diagnostic has the code of an error. -/
theorem hasErrors_iff {ds : List Diagnostic} (rated : ∀ d ∈ ds, d.Rated) :
    hasErrors ds = true ↔ ∃ d ∈ ds, d.code = .missingSuffix := by
  unfold hasErrors
  rw [List.any_eq_true]
  exact exists_congr fun d => and_congr_right fun hd => (rated d hd).isError_iff

namespace Generator

variable {g : Generator} {c : Catalog} {cancel : Cancellation} {sink : Sink} {output : Output}

/-- What reports a fault at last has reported with the right severity if it did so before. -/
theorem rated_of_mem_degrade {events : List Event} (h : ∀ d ∈ diagnosticsOf events, d.Rated)
    {fault : Fault} {d : Diagnostic} (hd : d ∈ (degrade events fault output).diagnostics) :
    d.Rated := by
  have split : (degrade events fault output).diagnostics =
      diagnosticsOf events ++ [.generationFault fault.category fault.message] :=
    diagnosticsOf_append ..
  rw [split] at hd
  rcases List.mem_append.1 hd with hd | hd
  · exact h d hd
  · rw [List.mem_singleton.1 hd]
    rfl

theorem Finishes.rated_of_mem {config : Configuration} {suffix : String} {r : Run}
    (h : g.Finishes c cancel sink output config suffix r) {d : Diagnostic}
    (hd : d ∈ r.diagnostics) : d.Rated := by
  -- discovery is silent and the merge reports verdicts only; a fault adds a rated one at the end
  have found : ∀ d ∈ diagnosticsOf (g.found c suffix).events, d.Rated := by
    intro d hd
    rw [diagnosticsOf_found] at hd
    exact absurd hd List.not_mem_nil
  have merged : ∀ d ∈ diagnosticsOf ((g.found c suffix).events ++ (g.merged c suffix).events),
      d.Rated := by
    intro d hd
    obtain ⟨v, place, called⟩ := exists_verdict_of_mem_merged hd
    exact Verdict.rated_of_diagnostic? called
  cases h with
  | cancelledFirst _ => exact absurd hd List.not_mem_nil
  | discoveryFault _ => exact rated_of_mem_degrade found hd
  | cancelledBeforeMerge _ => exact found d hd
  | mergeFault _ => exact rated_of_mem_degrade merged hd
  | cancelledBeforeRendering _ _ => exact merged d hd
  | emissionFault _ => exact rated_of_mem_degrade merged hd
  | generated _ => exact merged d hd

/-- Every diagnostic of a pass has the severity of its code. -/
theorem rated_of_mem_run {d : Diagnostic} (hd : d ∈ (g.run c cancel sink output).diagnostics) :
    d.Rated := by
  rcases hc : g.configuration? c with - | config
  · rw [run_of_notConfigured hc] at hd
    exact absurd hd List.not_mem_nil
  rcases hs : config.usableSuffix with - | suffix
  · rw [run_of_missingSuffix hc hs] at hd
    rw [List.mem_singleton.1 hd]
    rfl
  · rw [run_of_suffix hc hs] at hd
    exact (g.generate_finishes c cancel sink output config suffix).rated_of_mem hd

/-- A pass reports an error just when it ends for want of a suffix. -/
theorem hasErrors_run_iff :
    hasErrors (g.run c cancel sink output).diagnostics = true ↔
      (g.run c cancel sink output).outcome = .missingSuffix := by
  rw [hasErrors_iff fun d => rated_of_mem_run]
  have orderly := (run_orderly g c cancel sink output).2.2
  unfold Run.Orderly at orderly
  -- one outcome of the five promises the code of a missing suffix, the others exclude it
  rcases e : (g.run c cancel sink output).outcome with - | - | routes | - | - <;>
    rw [e] at orderly <;> dsimp only at orderly
  case notConfigured =>
    rw [orderly.1]
    exact ⟨nofun, nofun⟩
  case missingSuffix =>
    obtain ⟨⟨d, only, code⟩, -⟩ := orderly
    exact ⟨fun _ => rfl, fun _ => ⟨d, by rw [only]; exact List.mem_singleton_self d, code⟩⟩
  case generated | cancelled =>
    exact ⟨fun ⟨d, hd, code⟩ => absurd code (orderly.1 d hd).code_ne, nofun⟩
  case degraded =>
    obtain ⟨⟨ds, last, split, extra, fault⟩, -⟩ := orderly
    refine ⟨fun ⟨d, hd, code⟩ => ?_, nofun⟩
    rw [split] at hd
    rcases List.mem_append.1 hd with hd | hd
    · exact absurd code (extra d hd).code_ne
    · rw [List.mem_singleton.1 hd, fault] at code
      cases code

end Generator

end RouteRegistry

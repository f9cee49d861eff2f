/-
RouteRegistry/Proofs/Pass/Silence.lean

What a cancelled pass has left behind.

A merge hands its diagnostics on as it goes, so a pass that is cancelled during
the merge has reported already (`cancelled_small_reports`).

Main result (`diagnostics_of_cancelled`): a cancelled pass never touches the
output, and it is silent just when it was cancelled before the merge began or
the merge had nothing to report.
-/
import RouteRegistry.Proofs.Pass.Outcome

namespace RouteRegistry.Generator

/-- No extra route of the catalog calls for a diagnostic, after discovery with the suffix. -/
def Uneventful (g : Generator) (c : Catalog) (suffix : String) : Prop :=
  ∀ x ∈ (g.survey c).account (g.found c suffix).table, x.2.diagnostic? x.1.origin = none

variable {g : Generator} {c : Catalog} {cancel : Cancellation} {sink : Sink} {output : Output}

/-- A merge reports nothing just where it has nothing to refuse and a type for every name. -/
theorem diagnosticsOf_merged_eq_nil_iff {suffix : String}
    (h : (g.merged c suffix).fault = none) :
    diagnosticsOf (g.merged c suffix).events = [] ↔ g.Uneventful c suffix := by
  have reported : diagnosticsOf (g.merged c suffix).events =
      diagnosticsFor ((g.survey c).account (g.found c suffix).table) := by
    unfold merged at h ⊢
    rw [Survey.merge_eq] at h ⊢
    exact (Survey.mergeFrom_account h).1
  rw [reported, diagnosticsFor, List.flatMap_eq_nil_iff]
  simp only [Option.toList_eq_nil_iff, Uneventful]

/-- A cancelled pass is silent if it was cancelled before the merge, or the merge had nothing to
report. -/
theorem Finishes.silent_iff {config : Configuration} {suffix : String} {r : Run}
    (h : g.Finishes c cancel sink output config suffix r) (hr : r.outcome = .cancelled) :
    r.diagnostics = [] ↔
      cancel.isCancelled 1 (g.found c suffix).events = true ∨ g.Uneventful c suffix := by
  cases h with
  | cancelledFirst h₀ =>
    -- what was cancelled at the first look still is at the second
    exact ⟨fun _ => .inl (cancel.monotone [] _ (Nat.zero_le 1) h₀), fun _ => rfl⟩
  | cancelledBeforeMerge h₁ => exact ⟨fun _ => .inl h₁, fun _ => diagnosticsOf_found g c suffix⟩
  | cancelledBeforeRendering h₁ hmerged =>
    show diagnosticsOf (_ ++ _) = [] ↔ _
    rw [diagnosticsOf_found_append, diagnosticsOf_merged_eq_nil_iff hmerged, h₁]
    exact ⟨.inr, fun h => h.resolve_left nofun⟩
  | discoveryFault _ => cases hr
  | mergeFault _ => cases hr
  | emissionFault _ => cases hr
  | generated _ => cases hr

/-- A cancelled pass leaves the output alone.  It is silent if and only if it was cancelled when
it looked before the merge, or no extra route calls for a diagnostic. -/
theorem diagnostics_of_cancelled (h : (g.run c cancel sink output).outcome = .cancelled) :
    (g.run c cancel sink output).output = output ∧
    ∃ d m suffix, Configures g.names c d m ∧
      m.shown? 0 MarkerNames.suffixKeys = some suffix ∧
      ((g.run c cancel sink output).diagnostics = [] ↔
        cancel.isCancelled 1 (g.found c suffix).events = true ∨ g.Uneventful c suffix) := by
  rcases hc : g.configuration? c with - | config
  · rw [run_of_notConfigured hc] at h; cases h
  rcases hs : config.usableSuffix with - | suffix
  · rw [run_of_missingSuffix hc hs] at h; cases h
  rw [run_of_suffix hc hs] at h ⊢
  obtain ⟨d, m, hdm, rfl⟩ := configuration?_eq_some_iff.1 hc
  rw [MarkerNames.usableSuffix_configurationOf] at hs
  have finishes :=
    g.generate_finishes c cancel sink output (MarkerNames.configurationOf d m) suffix
  have unchanged := finishes.orderly.output_eq (by rw [h]; rfl)
  exact ⟨unchanged, d, m, suffix, hdm, hs, finishes.silent_iff h⟩

/-- A pass over the small catalog that renders nothing. -/
def smallRun (cancel : Cancellation) : Run :=
  run ⟨⟨"txt", [], fun _ _ => .ok ""⟩, .default⟩ .small cancel .memory []

/-- A host that cancels at once hears nothing. -/
theorem diagnostics_of_cancelled_at_once :
    (smallRun .always).outcome = .cancelled ∧ (smallRun .always).diagnostics = [] := by
  have h : (smallRun .always).outcome = .cancelled := rfl
  obtain ⟨-, d, m, suffix, -, -, silent⟩ := diagnostics_of_cancelled h
  exact ⟨h, silent.2 (.inl rfl)⟩

/-- Cancelled by the first look-up of the merge, between the two diagnostics. -/
theorem cancelled_small_reports :
    (smallRun (.on fun e => e matches .lookup _)).outcome = .cancelled ∧
    (smallRun (.on fun e => e matches .lookup _)).diagnostics.map (·.code) =
      [.invalidRouteName, .unresolvedRouteType] := by
  constructor <;> decide +kernel

end RouteRegistry.Generator

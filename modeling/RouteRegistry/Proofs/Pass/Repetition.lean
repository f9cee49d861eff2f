/-
RouteRegistry/Proofs/Pass/Repetition.lean

The same pass again and again, into one memory.

A pass sees the output only when it adds its file, and a memory takes no second
file of the same name.  So there is one pass at most that changes the memory
(`run_of_absent`): after it the file is there, and a pass that finds its file
there is refused and leaves the memory as it was (`run_of_present`).  What a
pass leaves as it was, the next pass meets again, and all later passes are the
same (`runs_of_kept`).

Main result (`runs_settle`): passes without cancellation keep the names of the
files distinct and never touch a file that is there.  They end alike, but for a
first one that may generate where later ones are degraded.
-/
import RouteRegistry.Proofs.Pass.Outcome

namespace RouteRegistry

/-! ### Memories -/

/-- The names of the files. -/
def Output.ids (o : Output) : List String := o.map (·.fileId)

theorem Output.text?_isSome_iff {o : Output} {fileId : String} :
    (o.text? fileId).isSome ↔ fileId ∈ o.ids := by
  unfold text? ids
  rw [Option.isSome_map, List.find?_isSome, List.mem_map]
  simp only [beq_iff_eq]

theorem Output.mem_ids_append (o : Output) (file : GeneratedFile) :
    file.fileId ∈ Output.ids (o ++ [file]) := by
  show file.fileId ∈ (o ++ [file]).map (·.fileId)
  simp

/-- A file of a new name leaves the names distinct. -/
theorem Output.nodup_ids_append {o : Output} {file : GeneratedFile} (distinct : o.ids.Nodup)
    (absent : file.fileId ∉ o.ids) : (Output.ids (o ++ [file])).Nodup := by
  have split : Output.ids (o ++ [file]) = o.ids ++ [file.fileId] := List.map_append
  rw [split]
  apply List.nodup_append.2
  refine ⟨distinct, by simp, ?_⟩
  intro a ha b hb e
  rw [List.mem_singleton] at hb
  exact absent (hb ▸ e ▸ ha)

/-- The refusal of a memory that has the file. -/
def alreadyAdded (fileId : String) : Refusal :=
  .invalidArgument ("source '" ++ fileId ++ "' was already added")

/-- A sink in memory refuses a name that it has. -/
theorem Sink.add_memory_of_mem {o : Output} {fileId : String} (h : fileId ∈ o.ids) (text : String) :
    Sink.memory.add o fileId text = .error (alreadyAdded fileId) :=
  if_pos (Output.text?_isSome_iff.2 h)

/-- A sink in memory takes a new name. -/
theorem Sink.add_memory_of_not_mem {o : Output} {fileId : String} (h : fileId ∉ o.ids)
    (text : String) : Sink.memory.add o fileId text = .ok (o ++ [⟨fileId, text⟩]) :=
  if_neg (mt Output.text?_isSome_iff.1 h)

/-! ### One pass -/

namespace Generator

variable {g : Generator} {c : Catalog}

/-- The emitter renders the table that a pass over the catalog comes to. -/
def Renders (g : Generator) (c : Catalog) : Prop :=
  ∀ config suffix, g.configuration? c = some config → config.usableSuffix = some suffix →
    ∃ text, g.emitter.render config.space (g.merged c suffix).table = .ok text

/-- Without cancellation and on a catalog that knows its names, emission alone decides. -/
theorem generate_of_resolvable (hs : c.Resolvable) (sink : Sink) (output : Output)
    (config : Configuration) (suffix : String) :
    g.generate c .never sink output config suffix =
      match g.emit sink output config (g.merged c suffix).table with
      | .error fault =>
        degrade ((g.found c suffix).events ++ (g.merged c suffix).events) fault output
      | .ok output' =>
        ⟨.generated ⟨g.emitter.fileId, config.space, config.carrier, (g.merged c suffix).table⟩,
          (g.found c suffix).events ++ (g.merged c suffix).events, output'⟩ := by
  have found : ((g.survey c).discover suffix .empty).fault = none :=
    Survey.fault_discover hs suffix .empty
  have merged : ((g.survey c).merge ((g.survey c).discover suffix .empty).table).fault = none :=
    Survey.fault_merge hs _
  have never (i : Nat) (past : List Event) : Cancellation.never.isCancelled i past = false := rfl
  -- no stop and no fault on the way: only the emission can still fail
  simp only [generate, never, found, merged, Growth.fault_after, Bool.false_eq_true, if_false]
  rfl

section

variable {config : Configuration} {suffix text : String} {output : Output}

/-- Whether the class is written depends on its name alone. -/
theorem emit_memory (rendered : g.emitter.render config.space (g.merged c suffix).table = .ok text) :
    g.emit .memory output config (g.merged c suffix).table =
      if g.emitter.fileId ∈ output.ids then
        .error (.failure (alreadyAdded g.emitter.fileId).toFailure)
      else .ok (output ++ [⟨g.emitter.fileId, text⟩]) := by
  unfold emit
  rw [rendered]
  dsimp only
  by_cases h : g.emitter.fileId ∈ output.ids
  · rw [if_pos h, Sink.add_memory_of_mem h]
  · rw [if_neg h, Sink.add_memory_of_not_mem h]

variable (hs : c.Resolvable) (configured : g.configuration? c = some config)
  (usable : config.usableSuffix = some suffix)
  (rendered : g.emitter.render config.space (g.merged c suffix).table = .ok text)

include hs configured usable rendered

/-- A pass adds its file to a memory that does not have it. -/
theorem run_of_absent (absent : g.emitter.fileId ∉ output.ids) :
    g.run c .never .memory output =
      ⟨.generated ⟨g.emitter.fileId, config.space, config.carrier, (g.merged c suffix).table⟩,
        (g.found c suffix).events ++ (g.merged c suffix).events,
        output ++ [⟨g.emitter.fileId, text⟩]⟩ := by
  rw [run_of_suffix configured usable, generate_of_resolvable hs, emit_memory rendered,
    if_neg absent]

/-- A pass that finds its file in the memory is refused at the end. -/
theorem run_of_present (present : g.emitter.fileId ∈ output.ids) :
    g.run c .never .memory output =
      degrade ((g.found c suffix).events ++ (g.merged c suffix).events)
        (.failure (alreadyAdded g.emitter.fileId).toFailure) output := by
  rw [run_of_suffix configured usable, generate_of_resolvable hs, emit_memory rendered,
    if_pos present]

/-- Its diagnostics are those of the pass into an empty memory, and one for the refusal. -/
theorem diagnostics_of_present (present : g.emitter.fileId ∈ output.ids) :
    (g.run c .never .memory output).diagnostics = (g.run c .never .memory []).diagnostics ++
      [.generationFault "Emit" ("Emit error: " ++ (alreadyAdded g.emitter.fileId).message)] := by
  have empty : g.emitter.fileId ∉ Output.ids [] := List.not_mem_nil
  rw [run_of_present hs configured usable rendered present,
    run_of_absent hs configured usable rendered empty]
  exact diagnosticsOf_append ..

end

/-! ### Many passes -/

theorem runs_succ (g : Generator) (c : Catalog) (n : Nat) (output : Output) :
    g.runs c .never .memory (n + 1) output =
      g.run c .never .memory output ::
        g.runs c .never .memory n (g.run c .never .memory output).output :=
  rfl

/-- A pass that leaves the memory as it was is repeated by all passes after it. -/
theorem runs_of_kept {output : Output} (kept : (g.run c .never .memory output).output = output)
    (n : Nat) :
    g.runs c .never .memory n output = List.replicate n (g.run c .never .memory output) := by
  induction n with
  | zero => rfl
  | succ n ih => rw [runs_succ, kept, ih, List.replicate_succ]

/-- What passes over a memory that holds `output` leave of it: the files that were there first, and
no name twice. -/
structure KeepsFiles (output : Output) (rs : List Run) : Prop where
  distinct : ∀ r ∈ rs, r.output.ids.Nodup
  kept : (output :: rs.map (·.output)).Pairwise (· <+: ·)

theorem KeepsFiles.nil (output : Output) : KeepsFiles output [] where
  distinct := fun _ h => absurd h List.not_mem_nil
  kept := List.pairwise_singleton ..

/-- A run that keeps what is there can stand in front of runs that do. -/
theorem KeepsFiles.cons {output : Output} {r : Run} {rs : List Run} (h : KeepsFiles r.output rs)
    (distinct : r.output.ids.Nodup) (kept : output <+: r.output) : KeepsFiles output (r :: rs) where
  distinct := by
    intro x hx
    rcases List.mem_cons.1 hx with rfl | hx
    · exact distinct
    · exact h.distinct x hx
  kept := by
    refine List.pairwise_cons.2 ⟨?_, h.kept⟩
    intro o ho
    rcases List.mem_cons.1 ho with rfl | ho
    · exact kept
    · exact kept.trans (List.rel_of_pairwise_cons h.kept ho)

theorem KeepsFiles.replicate {output : Output} {r : Run} (distinct : output.ids.Nodup)
    (kept : r.output = output) (n : Nat) : KeepsFiles output (List.replicate n r) := by
  induction n with
  | zero => exact .nil output
  | succ n ih =>
    apply KeepsFiles.cons
    · rw [kept]
      exact ih
    · rw [kept]
      exact distinct
    · exact kept.symm ▸ List.prefix_refl output

theorem length_runs (g : Generator) (c : Catalog) (n : Nat) (output : Output) :
    (g.runs c .never .memory n output).length = n := by
  induction n generalizing output with
  | zero => rfl
  | succ n ih => rw [runs_succ, List.length_cons, ih]

/-- Passes that leave the memory as it was are all the same. -/
theorem eq_of_mem_runs {output : Output} {n : Nat} {r : Run}
    (kept : (g.run c .never .memory output).output = output)
    (h : r ∈ g.runs c .never .memory n output) : r = g.run c .never .memory output := by
  rw [runs_of_kept kept] at h
  exact (List.mem_replicate.1 h).2

/-- A pass that leaves the output as it is can be repeated for ever. -/
theorem keepsFiles_of_kept {output : Output} (distinct : output.ids.Nodup)
    (kept : (g.run c .never .memory output).output = output) (n : Nat) :
    KeepsFiles output (g.runs c .never .memory n output) := by
  rw [runs_of_kept kept]
  exact .replicate distinct kept n

section

variable {config : Configuration} {suffix text : String} {output : Output} (hs : c.Resolvable)
  (configured : g.configuration? c = some config) (usable : config.usableSuffix = some suffix)
  (rendered : g.emitter.render config.space (g.merged c suffix).table = .ok text)

include hs configured usable rendered

/-- Once the class is written, no pass changes the output. -/
theorem output_of_present (present : g.emitter.fileId ∈ output.ids) :
    (g.run c .never .memory output).output = output := by
  rw [run_of_present hs configured usable rendered present]
  rfl

/-- The file is there after the first pass, whether or not it was before. -/
theorem keepsFiles_runs (distinct : output.ids.Nodup) (n : Nat) :
    KeepsFiles output (g.runs c .never .memory n output) := by
  -- at most the first run adds the file; with the file there every run keeps the output
  by_cases there : g.emitter.fileId ∈ output.ids
  · exact keepsFiles_of_kept distinct (output_of_present hs configured usable rendered there) n
  rcases n with - | n
  · exact .nil output
  have added : (g.run c .never .memory output).output = output ++ [⟨g.emitter.fileId, text⟩] := by
    rw [run_of_absent hs configured usable rendered there]
  have distinct' : (output ++ [⟨g.emitter.fileId, text⟩] : Output).ids.Nodup :=
    Output.nodup_ids_append distinct there
  rw [runs_succ]
  apply KeepsFiles.cons
  · rw [added]
    apply keepsFiles_of_kept distinct'
    apply output_of_present hs configured usable rendered
    exact Output.mem_ids_append ..
  · rw [added]
    exact distinct'
  · rw [added]
    exact List.prefix_append ..

/-- A pass finds its file in the memory, unless it is the first and the file was not there. -/
theorem exists_output_of_getElem? {i n : Nat} {r : Run}
    (h : (g.runs c .never .memory n output)[i]? = some r) :
    (i = 0 ∧ g.emitter.fileId ∉ output.ids ∧ r = g.run c .never .memory output) ∨
    (¬ (i = 0 ∧ g.emitter.fileId ∉ output.ids) ∧
      ∃ o, g.emitter.fileId ∈ o.ids ∧ r = g.run c .never .memory o) := by
  by_cases there : g.emitter.fileId ∈ output.ids
  · right
    refine ⟨fun h => h.2 there, output, there, ?_⟩
    exact eq_of_mem_runs (output_of_present hs configured usable rendered there)
      (List.mem_of_getElem? h)
  rcases n with - | n
  · cases h
  rw [runs_succ] at h
  rcases i with - | i
  · exact .inl ⟨rfl, there, (Option.some.inj h).symm⟩
  · right
    have present : g.emitter.fileId ∈ (g.run c .never .memory output).output.ids := by
      rw [run_of_absent hs configured usable rendered there]
      exact Output.mem_ids_append ..
    refine ⟨fun h => Nat.succ_ne_zero i h.1, _, present, ?_⟩
    exact eq_of_mem_runs (output_of_present hs configured usable rendered present)
      (List.mem_of_getElem? h)

end

/-- Passes without cancellation into one memory, over a catalog that knows its names and with an
emitter that renders: the names of the files stay distinct, and what is in the memory stays there
as it is.  All passes are without a configuration, or all are without a suffix, or only the first
one generates, if its file was not there, and all others are degraded: they report what a pass into
an empty memory reports, and the refusal of their file. -/
theorem runs_settle (g : Generator) {c : Catalog} (hs : c.Resolvable) (renders : g.Renders c)
    {output : Output} (distinct : output.ids.Nodup) (n : Nat) :
    let rs := g.runs c .never .memory n output
    let fresh := g.run c .never .memory []
    rs.length = n ∧ KeepsFiles output rs ∧
    ((∀ r ∈ rs, r.outcome = .notConfigured) ∨ (∀ r ∈ rs, r.outcome = .missingSuffix) ∨
      ∃ routes, fresh.outcome = .generated routes ∧
        ∀ i r, rs[i]? = some r →
          if i = 0 ∧ g.emitter.fileId ∉ output.ids then
            r.outcome = .generated routes ∧ r.diagnostics = fresh.diagnostics
          else
            r.outcome = .degraded ∧ r.diagnostics = fresh.diagnostics ++
              [.generationFault "Emit"
                ("Emit error: " ++ (alreadyAdded g.emitter.fileId).message)]) := by
  intro rs fresh
  refine ⟨length_runs g c n output, ?_⟩
  rcases configured : g.configuration? c with - | config
  · have run : g.run c .never .memory output = _ := run_of_notConfigured configured
    refine ⟨keepsFiles_of_kept distinct (by rw [run]) n, .inl ?_⟩
    intro r hr
    rw [eq_of_mem_runs (by rw [run]) hr, run]
  rcases usable : config.usableSuffix with - | suffix
  · have run : g.run c .never .memory output = _ := run_of_missingSuffix configured usable
    refine ⟨keepsFiles_of_kept distinct (by rw [run]) n, .inr (.inl ?_)⟩
    intro r hr
    rw [eq_of_mem_runs (by rw [run]) hr, run]
  -- past the configuration a run depends on the output only through the file's presence
  obtain ⟨text, rendered⟩ := renders config suffix configured usable
  have generated (o : Output) (h : g.emitter.fileId ∉ o.ids) :=
    run_of_absent hs configured usable rendered h
  have empty : fresh = _ := generated [] List.not_mem_nil
  refine ⟨keepsFiles_runs hs configured usable rendered distinct n,
    .inr (.inr ⟨_, by rw [empty], ?_⟩)⟩
  intro i r hr
  obtain ⟨rfl, absent, rfl⟩ | ⟨later, o, present, rfl⟩ :=
    exists_output_of_getElem? hs configured usable rendered hr
  · rw [if_pos ⟨rfl, absent⟩, generated output absent, empty]
    exact ⟨rfl, rfl⟩
  · rw [if_neg later]
    refine ⟨?_, diagnostics_of_present hs configured usable rendered present⟩
    rw [run_of_present hs configured usable rendered present]
    rfl

/-- Lists the routes of the small catalog beside a file of another name. -/
theorem runs_settle_small :
    let g : Generator := ⟨⟨"txt", [], fun _ t => .ok (Text.joinWith " " t.names)⟩, .default⟩
    let output : Output := [⟨"Notes.txt", "pages"⟩]
    Catalog.small.Resolvable ∧ g.Renders .small ∧ output.ids.Nodup ∧
    KeepsFiles output (g.runs .small .never .memory 3 output) ∧
    (g.runs .small .never .memory 3 output)[2]?.map (·.outcome) = some .degraded := by
  intro g output
  have hs : Catalog.small.Resolvable := Catalog.resolvable_ofList _
  have renders : g.Renders .small := fun _ _ _ _ => ⟨_, rfl⟩
  have distinct : output.ids.Nodup := by decide
  obtain ⟨length, keeps, all | all | ⟨routes, -, each⟩⟩ := runs_settle g hs renders distinct 3
  · have first := all (g.run .small .never .memory output) (List.mem_cons_self ..)
    exact absurd first (by decide +kernel)
  · have first := all (g.run .small .never .memory output) (List.mem_cons_self ..)
    exact absurd first (by decide +kernel)
  -- the small catalog is configured, so it is the third alternative, here at its third run
  · have third := List.getElem?_eq_getElem (show 2 < (g.runs .small .never .memory 3 output).length by
      rw [length]
      decide)
    have degraded := each 2 _ third
    rw [if_neg (fun h => absurd h.1 (by decide))] at degraded
    refine ⟨hs, renders, distinct, keeps, ?_⟩
    rw [third]
    exact congrArg some degraded.1

end Generator

end RouteRegistry
